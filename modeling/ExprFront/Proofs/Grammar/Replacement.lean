/-
# Replaced payloads

Names, literals and operators are payloads of tokens and of nodes.  No rule for expressions looks at
them: it only copies them.  So if the payloads of all tokens are replaced, the rules answer the same
but for the same replacement in their nodes.  A contextual keyword counts as the name that it is
read as.

The main facts are `Grammar.respects_expression_standard` and its two companions.
-/
import ExprFront.Proofs.Grammar.Locality

namespace ExprFront

variable {α β : Type}

/-! ## Replacing payloads -/

/-- What to put in the place of each name, each literal and each operator. -/
structure Replacement where
  name : Identifier → Identifier
  literal : Literal → Literal
  operator : String → String

/-- The kind with its payload replaced; a contextual keyword is replaced as the name that it is read
as. -/
def Replacement.asRead (r : Replacement) : Kind → Kind
  | .identifier name => .identifier (r.name name)
  | .keyword (.contextual word) => .identifier (r.name (.plain word.spelling))
  | .literal value => .literal (r.literal value)
  | .operator text => .operator (r.operator text)
  | k => k

mutual

/-- The expression with its payloads replaced. -/
def Expression.replace (r : Replacement) : Expression → Expression
  | .inOut name => .inOut (r.name name)
  | .prefixed operator operand => .prefixed (r.operator operator) (operand.replace r)
  | .plain operand => .plain (operand.replace r)

/-- The operand with its payloads replaced. -/
def Operand.replace (r : Replacement) : Operand → Operand
  | .name name => .name (r.name name)
  | .literal value => .literal (r.literal value)
  | .parenthesized inner => .parenthesized (inner.replace r)
  | .call callee arguments => .call (callee.replace r) (Expression.replaceAll r arguments)
  | .member base name => .member (base.replace r) (r.name name)
  | .postfixed operand operator => .postfixed (operand.replace r) (r.operator operator)

/-- The expressions with their payloads replaced. -/
def Expression.replaceAll (r : Replacement) : List Expression → List Expression
  | [] => []
  | e :: rest => e.replace r :: Expression.replaceAll r rest

end

/-- Each expression of a list has its payloads replaced. -/
theorem Expression.replaceAll_eq_map (r : Replacement) (es : List Expression) :
    replaceAll r es = es.map (·.replace r) := by
  induction es with
  | nil => rfl
  | cons e rest ih => rw [replaceAll, ih, List.map_cons]

/-- The end of input stays the end, and nothing else becomes one. -/
theorem Replacement.isEnd_asRead (r : Replacement) (k : Kind) : (r.asRead k).isEnd = k.isEnd := by
  cases k with
  | keyword word => cases word <;> rfl
  | _ => rfl

/-- Trivia stay trivia, and nothing else becomes some. -/
theorem Replacement.isTrivia_asRead (r : Replacement) (k : Kind) :
    (r.asRead k).isTrivia = k.isTrivia := by
  cases k with
  | keyword word => cases word <;> rfl
  | _ => rfl

/-- The name that a kind reads as is replaced. -/
theorem Replacement.name?_asRead (r : Replacement) (k : Kind) :
    (r.asRead k).name? = k.name?.map r.name := by
  cases k with
  | keyword word => cases word <;> rfl
  | _ => rfl

/-- Marks stay what they are, and nothing else becomes one. -/
theorem Replacement.asRead_eq_punctuator_iff {r : Replacement} {k : Kind} {mark : Punctuator} :
    r.asRead k = .punctuator mark ↔ k = .punctuator mark := by
  cases k with
  | keyword word => cases word <;> simp [asRead]
  | _ => simp [asRead]

/-! ## Cursors -/

namespace Cursor

variable {r : Replacement} {c d : Cursor} {w : List Kind}

/-- The cursor in front of tokens with their payloads replaced. -/
def replace (r : Replacement) (c : Cursor) : Cursor :=
  ⟨c.tokens.map fun t => ⟨r.asRead t.kind, t.span⟩, c.position, by simpa using c.position_le⟩

@[simp]
theorem position_replace (r : Replacement) (c : Cursor) : (c.replace r).position = c.position := rfl

/-- Moving does not look at payloads. -/
theorem replace_advanceBy (r : Replacement) (c : Cursor) (n : Nat) :
    (c.advanceBy n).replace r = (c.replace r).advanceBy n := by
  refine eq_of_position rfl ?_
  simp [replace]

/-- One step does not look at payloads. -/
theorem replace_advance (r : Replacement) (c : Cursor) :
    c.advance.replace r = (c.replace r).advance :=
  replace_advanceBy r c 1

/-- The kinds from the cursor on have their payloads replaced. -/
theorem kinds_replace (r : Replacement) (c : Cursor) :
    (c.replace r).kinds = c.kinds.map r.asRead := by
  simp only [kinds, replace, Array.toList_map, ← List.map_drop, List.map_map]
  rfl

/-- The head has its payload replaced. -/
theorem headKind_replace (r : Replacement) (c : Cursor) :
    (c.replace r).headKind = c.headKind.map r.asRead := by
  rw [headKind_eq, headKind_eq, kinds_replace, List.head?_map]
  cases c.kinds.head? with
  | none => rfl
  | some k =>
      simp only [Option.map_some, Option.filter, r.isEnd_asRead k]
      split <;> rfl

/-- The same marks stand at the cursor. -/
theorem isPunctuator_replace (r : Replacement) (c : Cursor) (mark : Punctuator) :
    (c.replace r).isPunctuator mark = c.isPunctuator mark := by
  rw [Bool.eq_iff_iff, isPunctuator_iff, isPunctuator_iff, headKind_replace]
  simp only [Option.map_eq_some_iff, Replacement.asRead_eq_punctuator_iff, exists_eq_right]

/-- The name that can be read is replaced. -/
theorem identifier?_replace (r : Replacement) (c : Cursor) :
    (c.replace r).identifier? true = (c.identifier? true).map r.name := by
  rw [identifier?_eq_bind, identifier?_eq_bind, headKind_replace]
  cases c.headKind with
  | none => rfl
  | some k => exact r.name?_asRead k

/-- The operator is replaced. -/
theorem operator?_replace (r : Replacement) (c : Cursor) :
    (c.replace r).operator? = c.operator?.map r.operator := by
  unfold operator?
  rw [headKind_replace]
  cases c.headKind with
  | none => rfl
  | some k =>
      cases k with
      | keyword word => cases word <;> rfl
      | _ => rfl

/-- An operand can begin at the same cursors. -/
theorem startsOperand_replace (r : Replacement) (c : Cursor) :
    Grammar.startsOperand (c.replace r) = Grammar.startsOperand c := by
  unfold Grammar.startsOperand
  rw [headKind_replace]
  cases c.headKind with
  | none => rfl
  | some k =>
      cases k with
      | keyword word => cases word <;> rfl
      | _ => rfl

/-- What is passed has its payloads replaced. -/
theorem Passes.replace (h : c.Passes w d) (r : Replacement) :
    (c.replace r).Passes (w.map r.asRead) (d.replace r) := by
  refine ⟨?_, ?_⟩
  · rw [kinds_replace, h.kinds_eq, List.map_append, kinds_replace]
  · rw [h.stop_eq, replace_advanceBy, List.length_map]

/-- Skipping trivia does not look at payloads. -/
theorem skipTrivia_replace (r : Replacement) (c : Cursor) :
    (c.replace r).skipTrivia = c.skipTrivia.replace r := by
  obtain ⟨w, hw, hpasses, hstop⟩ := c.exists_passes_skipTrivia
  refine skipTrivia_eq_of_passes (hpasses.replace r) ?_ ?_
  · intro k hk
    obtain ⟨k, hmem, rfl⟩ := List.mem_map.1 hk
    rw [r.isTrivia_asRead, hw k hmem]
  · intro k hk
    rw [headKind_replace] at hk
    obtain ⟨k, hhead, rfl⟩ := Option.map_eq_some_iff.1 hk
    rw [r.isTrivia_asRead, hstop k hhead]

/-- Passing the head and the trivia behind it does not look at payloads. -/
theorem next_replace (r : Replacement) (c : Cursor) : (c.replace r).next = c.next.replace r := by
  rw [next, next, ← skipTrivia_replace, replace_advance]

end Cursor

/-! ## Rules -/

/-- The rule answers the same in front of replaced payloads, but for the replacement in its
value. -/
def Rule.RespectsAt (rule : Rule α) (r : Replacement) (f : α → α) (c : Cursor) : Prop :=
  rule (c.replace r) = (rule c).map (·.map f)

/-- The layer reads an operand alike in front of replaced payloads. -/
def Layer.RespectsAt (layer : Layer) (r : Replacement) (c : Cursor) : Prop :=
  Rule.RespectsAt (Grammar.operand layer) r (·.replace r) c

/-- What has to match does so alike, and fails alike. -/
theorem RuleResult.required_replace (x : RuleResult α) (f : α → α) (r : Replacement)
    (production : Production) (c : Cursor) :
    RuleResult.required (x.map (·.map f)) production (c.replace r) =
      (x.required production c).map fun (v, n) => (f v, n) := by
  rcases x with f' | ⟨v, n⟩ | _ <;> rfl

/-- The value with the replacement, and the cursor where a loop stopped in front of replaced
payloads. -/
def Replacement.stop (r : Replacement) (f : α → α) (result : α × Cursor) : α × Cursor :=
  (f result.1, result.2.replace r)

/-- A loop that answers alike behind a rule that does makes one rule with it that does. -/
theorem Rule.RespectsAt.thenLoop {rule : Rule α} {loop : α → Cursor → Except Failure (β × Cursor)}
    {r : Replacement} {f : α → α} {g : β → β} {c : Cursor} (h : rule.RespectsAt r f c)
    (hloop : ∀ v n, rule c = .ok (.matched v n) →
      loop (f v) ((c.advanceBy n).replace r) = (loop v (c.advanceBy n)).map (r.stop g)) :
    (rule.thenLoop loop).RespectsAt r g c := by
  unfold Rule.RespectsAt Rule.thenLoop at *
  rw [h]
  rcases hc : rule c with failure | ⟨v, n⟩ | _
  · rfl
  · have hmore := hloop v n hc
    rw [Cursor.replace_advanceBy] at hmore
    simp only [Except.map, Outcome.map, hmore]
    rcases loop v (c.advanceBy n) with failure | ⟨whole, stop⟩ <;> rfl
  · rfl

namespace Grammar

open Cursor

variable {layer : Layer} {r : Replacement} {c : Cursor}

/-- An expression is read alike if the operands are. -/
theorem respects_expression
    (h : ∀ d : Cursor, d.remaining ≤ c.remaining → layer.RespectsAt r d) :
    Rule.RespectsAt (expression layer) r (·.replace r) c := by
  have here := h c (Nat.le_refl _)
  have next := h c.advance c.remaining_advance_le
  unfold Layer.RespectsAt Rule.RespectsAt at here next
  unfold Rule.RespectsAt
  unfold expression
  rw [isPunctuator_replace, ← replace_advance, identifier?_replace, next_replace,
    operator?_replace, here, next]
  split
  · cases c.advance.identifier? true <;> rfl
  · cases c.operator? with
    | none => rcases operand layer c with f | ⟨o, n⟩ | _ <;> rfl
    | some operator =>
        simp only [Option.map_some]
        rcases operand layer c.advance with f | ⟨o, n⟩ | _
        · rfl
        · simp only [Except.map, Outcome.map, ← replace_advanceBy]
          rfl
        · rfl

/-- Further members are read alike if the operands behind their comma are. -/
theorem furtherMembers_replace (done : List Expression)
    (h : ∀ d : Cursor, d.remaining < c.remaining → layer.RespectsAt r d) :
    furtherMembers layer (done.map (·.replace r)) (c.replace r) =
      (furtherMembers layer done c).map (r.stop (·.map (·.replace r))) := by
  have member {c : Cursor} (hc : c.isPunctuator .comma = true)
      (h : ∀ d : Cursor, d.remaining < c.remaining → layer.RespectsAt r d) :
      expression layer (c.next.replace r) =
        (expression layer c.next).map (·.map (·.replace r)) := by
    have hlt := remaining_next_lt (headKind_of_isPunctuator hc)
    exact respects_expression fun d hd => h d (Nat.lt_of_le_of_lt hd hlt)
  have comma {c : Cursor} (hc : c.isPunctuator .comma = true) :
      (c.replace r).headKind = some (.punctuator .comma) := by
    rw [← isPunctuator_iff, isPunctuator_replace, hc]
  fun_induction furtherMembers layer done c with
  | case1 done c hc e n he hle hlt ih =>
      rw [furtherMembers_eq_of_comma (comma hc), next_replace, member hc h,
        RuleResult.required_replace, he]
      simp only [Except.map, ← replace_advanceBy]
      exact ih fun d hd => h d (by omega)
  | case2 done c hc f he =>
      rw [furtherMembers_eq_of_comma (comma hc), next_replace, member hc h,
        RuleResult.required_replace, he]
      rfl
  | case3 done c hc =>
      have hc' : ¬ (c.replace r).isPunctuator .comma = true := by rwa [isPunctuator_replace]
      rw [furtherMembers.eq_1, dif_neg hc', ← List.map_reverse]
      rfl

/-- A list is read alike if the operands are. -/
theorem respects_expressionList
    (h : ∀ d : Cursor, d.remaining ≤ c.remaining → layer.RespectsAt r d) :
    Rule.RespectsAt (expressionList layer) r (·.map (·.replace r)) c := by
  rw [expressionList_eq_thenLoop]
  refine (respects_expression h).thenLoop fun e n _ => ?_
  have hrest := c.remaining_advanceBy_le n
  exact furtherMembers_replace [e] fun d hd => h d (by omega)

/-- A primary is read alike if the operands behind its first token are. -/
theorem respects_primary
    (h : ∀ d : Cursor, d.remaining < c.remaining → layer.RespectsAt r d) :
    Rule.RespectsAt (primary layer) r (·.replace r) c := by
  by_cases hparen : c.headKind = some (.punctuator .leftParen)
  · have hparen' : (c.replace r).headKind = some (.punctuator .leftParen) := by
      rw [headKind_replace, hparen]
      rfl
    have hlt := remaining_advance_lt hparen
    have hinner : expression layer (c.advance.replace r) = _ :=
      respects_expression fun d hd => h d (Nat.lt_of_le_of_lt hd hlt)
    unfold Rule.RespectsAt
    rw [primary_eq_of_leftParen hparen', primary_eq_of_leftParen hparen, ← replace_advance, hinner,
      RuleResult.required_replace]
    rcases (expression layer c.advance).required .expression c.advance with f | ⟨inner, n⟩
    · rfl
    · simp only [Except.map, ← replace_advanceBy, isPunctuator_replace]
      split <;> rfl
  · unfold Rule.RespectsAt primary
    rw [headKind_replace, identifier?_replace]
    cases hk : c.headKind with
    | none =>
        rw [identifier?_eq_bind, hk]
        rfl
    | some k =>
        rw [identifier?_eq_bind, hk]
        cases k with
        | keyword word => cases word <;> rfl
        | punctuator mark =>
            have hmark : mark ≠ .leftParen := by
              rintro rfl
              exact hparen hk
            cases mark <;> first | rfl | exact absurd rfl hmark
        | _ => rfl

/-- Arguments are read alike if the operands are. -/
theorem arguments_replace
    (h : ∀ d : Cursor, d.remaining ≤ c.remaining → layer.RespectsAt r d) :
    arguments layer (c.replace r) =
      (arguments layer c).map fun (es, n) => (es.map (·.replace r), n) := by
  have hlist : expressionList layer (c.replace r) = _ := respects_expressionList h
  rw [arguments, isPunctuator_replace, hlist, RuleResult.required_replace, arguments]
  split <;> rfl

/-- The suffix loop takes its turns at the same tokens. -/
theorem takesTurn_asRead (r : Replacement) (k : Kind) :
    takesTurn (r.asRead k) = takesTurn k := by
  cases k with
  | keyword word => cases word <;> rfl
  | _ => rfl

/-- Suffixes are read alike if the operands behind their first token are. -/
theorem suffixes_replace (o : Operand)
    (h : ∀ d : Cursor, d.remaining < c.remaining → layer.RespectsAt r d) :
    suffixes layer (o.replace r) (c.replace r) =
      (suffixes layer o c).map (r.stop (·.replace r)) := by
  have head {c : Cursor} {k : Kind} (hk : c.headKind = some k) :
      (c.replace r).headKind = some (r.asRead k) := by
    rw [headKind_replace, hk]
    rfl
  have args {c : Cursor} {k : Kind} (hk : c.headKind = some k)
      (h : ∀ d : Cursor, d.remaining < c.remaining → layer.RespectsAt r d) :
      arguments layer (c.advance.replace r) =
        (arguments layer c.advance).map fun (es, n) => (es.map (·.replace r), n) := by
    have hlt := remaining_advance_lt hk
    exact arguments_replace fun d hd => h d (Nat.lt_of_le_of_lt hd hlt)
  fun_induction suffixes layer o c with
  | case1 o c hk es n he hlt hclose ih =>
      rw [suffixes_eq_of_leftParen (head hk), ← replace_advance, args hk h, he]
      simp only [Except.map, ← replace_advanceBy, isPunctuator_replace, hclose, if_true]
      rw [← Expression.replaceAll_eq_map]
      exact ih fun d hd => h d (Nat.lt_trans hd hlt)
  | case2 o c hk es n he hlt hclose =>
      rw [suffixes_eq_of_leftParen (head hk), ← replace_advance, args hk h, he]
      simp only [Except.map, ← replace_advanceBy, isPunctuator_replace, hclose]
      rfl
  | case3 o c hk f he =>
      rw [suffixes_eq_of_leftParen (head hk), ← replace_advance, args hk h, he]
      rfl
  | case4 o c hk name hname hlt ih =>
      rw [suffixes_eq_of_dot (head hk), ← replace_advance, identifier?_replace, hname,
        ← replace_advanceBy]
      exact ih fun d hd => h d (Nat.lt_trans hd hlt)
  | case5 o c hk hname =>
      rw [suffixes_eq_of_dot (head hk), ← replace_advance, identifier?_replace, hname]
      rfl
  | case6 o c operator hk hlt hstart =>
      rw [suffixes_eq_of_operator (head hk), ← replace_advance, startsOperand_replace,
        if_pos hstart]
      rfl
  | case7 o c operator hk hlt hstart ih =>
      rw [suffixes_eq_of_operator (head hk), ← replace_advance, startsOperand_replace,
        if_neg hstart]
      exact ih fun d hd => h d (Nat.lt_trans hd hlt)
  | case8 o c hparen hdot hoperator =>
      have havoids : (c.replace r).Avoids takesTurn := by
        intro k hk
        rw [headKind_replace] at hk
        obtain ⟨k, hhead, rfl⟩ := Option.map_eq_some_iff.1 hk
        rw [takesTurn_asRead, Bool.eq_false_iff]
        intro hturn
        unfold takesTurn at hturn
        split at hturn
        · exact hparen hhead
        · exact hdot hhead
        · exact hoperator _ hhead
        · cases hturn
      rw [suffixes_eq_of_avoids havoids]
      rfl

/-- **A whole operand is read alike** if the operands behind its first token are. -/
theorem respects_primaryWithSuffixes
    (h : ∀ d : Cursor, d.remaining < c.remaining → layer.RespectsAt r d) :
    Rule.RespectsAt (primaryWithSuffixes layer) r (·.replace r) c := by
  rw [primaryWithSuffixes_eq_thenLoop]
  refine (respects_primary h).thenLoop fun o n ho => ?_
  have hfewer := remaining_lt_of_primary ho
  exact suffixes_replace o fun d hd => h d (by omega)

/-! ## The standard layer -/

/-- **Operands are read without a look at payloads**, over the standard layer. -/
theorem respects_operand_standard (r : Replacement) (c : Cursor) :
    Layer.RespectsAt .standard r c := by
  -- The layer consults itself only where fewer tokens remain.
  induction hn : c.remaining using Nat.strongRecOn generalizing c with
  | _ n ih =>
      subst hn
      have hlayer : operand .standard = primaryWithSuffixes .standard := by
        funext d
        rw [operand_standard, Layer.standard_eq]
      rw [Layer.RespectsAt, hlayer]
      exact respects_primaryWithSuffixes fun d hd => ih _ hd d rfl

/-- Expressions are read without a look at payloads, over the standard layer. -/
theorem respects_expression_standard (r : Replacement) (c : Cursor) :
    Rule.RespectsAt (expression .standard) r (·.replace r) c :=
  respects_expression fun d _ => respects_operand_standard r d

/-- Lists are read without a look at payloads, over the standard layer. -/
theorem respects_expressionList_standard (r : Replacement) (c : Cursor) :
    Rule.RespectsAt (expressionList .standard) r (·.map (·.replace r)) c :=
  respects_expressionList fun d _ => respects_operand_standard r d

end Grammar

end ExprFront
