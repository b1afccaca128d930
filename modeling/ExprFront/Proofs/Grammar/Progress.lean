/-
# Progress over any layer

A layer of operands may claim any number of tokens, none at all or more than there are.  The rules
above it withstand that.  An expression counts at least one token, a list ends among the tokens, and
the loop over its members gets further with every turn, because each turn passes a comma.

`ExpressionAnswer` and `ListAnswer` say how the two rules come to their answers, path by path and
turn by turn, and every answer is come to that way.  So the rules return, and what an answer counts
is read off the way to it.  The main result is `Grammar.robust`.
-/
import ExprFront.Grammar.OtherLayers
import ExprFront.Proofs.Grammar.Unfolding

namespace ExprFront

/-- Whether the expression is an operand alone. -/
def Expression.isPlain : Expression → Bool
  | .plain _ => true
  | _ => false

namespace Cursor

variable {c : Cursor}

/-- How many commas are left from the cursor on. -/
def commas (c : Cursor) : Nat := c.kinds.count (.punctuator .comma)

/-- Moving never leaves more commas. -/
theorem commas_advanceBy_le (c : Cursor) (n : Nat) : (c.advanceBy n).commas ≤ c.commas := by
  rw [commas, kinds_advanceBy]
  exact (List.drop_sublist n c.kinds).count_le _

/-- Where there is a head, a token remains. -/
theorem remaining_pos_of_headKind {k : Kind} (h : c.headKind = some k) : 0 < c.remaining :=
  Nat.zero_lt_of_lt (remaining_advance_lt h)

/-- No cursor among the same tokens is further away than the tokens reach. -/
theorem since_le_remaining {d : Cursor} (h : d.tokens = c.tokens) : d.since c ≤ c.remaining := by
  have hd := d.position_le
  rw [h] at hd
  exact Nat.sub_le_sub_right hd c.position

end Cursor

namespace Grammar

open Cursor

/-! ## How an expression is answered -/

/-- The answers of the rule for expressions, and what leads to each of them. -/
inductive ExpressionAnswer (layer : Layer) (c : Cursor) : RuleResult Expression → Prop
  /-- A name behind the ampersand, and the trivia behind that. -/
  | inOut {k : Kind} {name : Identifier} {trivia : List Kind} {stop : Cursor}
      (passes : c.Passes (.punctuator .ampersand :: k :: trivia) stop) (hname : k.name? = some name)
      (htrivia : ∀ t ∈ trivia, t.isTrivia = true)
      (hstop : ∀ t, stop.headKind = some t → t.isTrivia = false) :
      ExpressionAnswer layer c (.ok (.matched (.inOut name) (trivia.length + 2)))
  | noName (sigil : c.headKind = some (.punctuator .ampersand))
      (none : c.advance.identifier? true = none) : ExpressionAnswer layer c (.ok .noMatch)
  /-- An operand behind an operator.  Of what the layer claims, no more is counted than there is. -/
  | prefixed {operator : String} {o : Operand} {m : Nat}
      (hoperator : c.headKind = some (.operator operator))
      (claimed : layer c.advance = .ok (.matched o (m + 1))) :
      ExpressionAnswer layer c
        (.ok (.matched (.prefixed operator o) (min (m + 2) c.remaining)))
  | noOperand {operator : String} (hoperator : c.headKind = some (.operator operator))
      (none : operand layer c.advance = .ok .noMatch) : ExpressionAnswer layer c (.ok .noMatch)
  | operandFails {operator : String} {f : Failure}
      (hoperator : c.headKind = some (.operator operator))
      (fails : layer c.advance = .error f) : ExpressionAnswer layer c (.error f)
  /-- An operand alone, with whatever the layer claims. -/
  | plain {o : Operand} {m : Nat} (sigil : c.isPunctuator .ampersand = false)
      (operator : c.operator? = none) (claimed : layer c = .ok (.matched o (m + 1))) :
      ExpressionAnswer layer c (.ok (.matched (.plain o) (m + 1)))
  | noPlain (sigil : c.isPunctuator .ampersand = false) (operator : c.operator? = none)
      (none : operand layer c = .ok .noMatch) : ExpressionAnswer layer c (.ok .noMatch)
  | plainFails {f : Failure} (sigil : c.isPunctuator .ampersand = false)
      (operator : c.operator? = none) (fails : layer c = .error f) :
      ExpressionAnswer layer c (.error f)

variable {layer : Layer} {c d stop : Cursor} {e : Expression} {es : List Expression} {n : Nat}

/-- An operand is what the layer answers, unless that claims nothing. -/
theorem operand_cases (layer : Layer) (c : Cursor) :
    (∃ o m, layer c = .ok (.matched o (m + 1)) ∧ operand layer c = .ok (.matched o (m + 1))) ∨
      operand layer c = .ok .noMatch ∨
      ∃ f, layer c = .error f ∧ operand layer c = .error f := by
  unfold operand
  cases hlayer : layer c with
  | error f => exact .inr (.inr ⟨f, rfl, rfl⟩)
  | ok outcome =>
      cases outcome with
      | noMatch => exact .inr (.inl rfl)
      | matched o m =>
          cases m with
          | zero => exact .inr (.inl rfl)
          | succ m => exact .inl ⟨o, m, rfl, rfl⟩

/-- **The rule for expressions answers** at every cursor, over every layer. -/
theorem expressionAnswer_expression (layer : Layer) (c : Cursor) :
    ExpressionAnswer layer c (expression layer c) := by
  by_cases hsigil : c.isPunctuator .ampersand = true
  · have hhead := isPunctuator_iff.1 hsigil
    rw [expression, if_pos hsigil]
    cases hname : c.advance.identifier? true with
    | none => exact .noName hhead hname
    | some name =>
        obtain ⟨k, hk, hread⟩ := identifier?_eq_some_iff.1 hname
        obtain ⟨trivia, htrivia, hskip, hstop⟩ := exists_passes_skipTrivia c.advance.advance
        have hpasses := Passes.cons hhead (hskip.cons hk)
        have hcount : c.advance.next.since c = trivia.length + 2 := hpasses.since
        simp only [hcount]
        exact .inOut hpasses hread htrivia hstop
  · rw [expression_of_not_ampersand (mt isPunctuator_iff.2 hsigil)]
    rw [Bool.not_eq_true] at hsigil
    cases hoperator : c.operator? with
    | some operator =>
        have hhead := operator?_eq_some_iff.1 hoperator
        rcases operand_cases layer c.advance with ⟨o, m, hclaim, ho⟩ | ho | ⟨f, hfails, ho⟩
        · have hcount : (c.advanceBy (m + 1 + 1)).since c = min (m + 2) c.remaining := by
            have := c.position_le
            simp only [since, position_advanceBy, remaining]
            omega
          simp only [ho, hcount]
          exact .prefixed hhead hclaim
        · simp only [ho]
          exact .noOperand hhead ho
        · simp only [ho]
          exact .operandFails hhead hfails
    | none =>
        rcases operand_cases layer c with ⟨o, m, hclaim, ho⟩ | ho | ⟨f, hfails, ho⟩
        · simp only [ho, Outcome.map_matched]
          exact .plain hsigil hoperator hclaim
        · simp only [ho, Outcome.map_noMatch]
          exact .noPlain hsigil hoperator ho
        · simp only [ho]
          exact .plainFails hsigil hoperator hfails

/-! ## What an expression counts -/

/-- **An expression counts at least one token**, whatever the layer claims. -/
theorem one_le_of_expression (h : expression layer c = .ok (.matched e n)) : 1 ≤ n := by
  have hanswer := expressionAnswer_expression layer c
  rw [h] at hanswer
  cases hanswer with
  | inOut passes hname htrivia hstop => omega
  | prefixed hoperator claimed =>
      have := remaining_pos_of_headKind hoperator
      omega
  | plain sigil operator claimed => omega

/-- An expression with a sigil or an operator counts no more tokens than there are. -/
theorem le_remaining_of_expression (h : expression layer c = .ok (.matched e n))
    (he : e.isPlain = false) : n ≤ c.remaining := by
  have hanswer := expressionAnswer_expression layer c
  rw [h] at hanswer
  cases hanswer with
  | inOut passes hname htrivia hstop => exact passes.length_le
  | prefixed hoperator claimed => exact Nat.min_le_right _ _
  | plain sigil operator claimed => cases he

/-- Over a layer that claims no more than there is, no expression counts more. -/
theorem le_remaining_of_layer
    (hlayer : ∀ d o n, layer d = .ok (.matched o n) → n ≤ d.remaining)
    (h : expression layer c = .ok (.matched e n)) : n ≤ c.remaining := by
  have hanswer := expressionAnswer_expression layer c
  rw [h] at hanswer
  cases hanswer with
  | inOut passes hname htrivia hstop => exact passes.length_le
  | prefixed hoperator claimed => exact Nat.min_le_right _ _
  | plain sigil operator claimed => exact hlayer _ _ _ claimed

/-- Without a sigil and an operator the layer is answered for, unless it claims nothing. -/
theorem expression_eq_of_plain (hsigil : c.isPunctuator .ampersand = false)
    (hoperator : c.operator? = none) :
    expression layer c =
      match layer c with
      | .ok (.matched _ 0) => .ok .noMatch
      | .ok (.matched o (m + 1)) => .ok (.matched (.plain o) (m + 1))
      | .ok .noMatch => .ok .noMatch
      | .error f => .error f := by
  have hhead : c.headKind ≠ some (.punctuator .ampersand) := fun hk => by
    rw [isPunctuator_iff.2 hk] at hsigil
    cases hsigil
  rw [expression_of_not_ampersand hhead, hoperator]
  unfold operand
  rcases layer c with f | ⟨o, _ | m⟩ | _ <;> rfl

/-! ## Turns of the loop over members -/

/-- One turn of the loop over members: from the end `c` of a list, over a comma and the trivia
behind it, to the end `d` of the member there. -/
def AddsMember (layer : Layer) (c : Cursor) (e : Expression) (d : Cursor) : Prop :=
  c.headKind = some (.punctuator .comma) ∧
    ∃ n, expression layer c.next = .ok (.matched e n) ∧ d = c.next.advanceBy n

/-- Any number of turns, one behind the other. -/
inductive AddsMembers (layer : Layer) : Cursor → List Expression → Cursor → Prop
  | nil (c : Cursor) : AddsMembers layer c [] c
  | cons {c d stop : Cursor} {e : Expression} {es : List Expression} (turn : AddsMember layer c e d)
      (further : AddsMembers layer d es stop) : AddsMembers layer c (e :: es) stop

/-- **Every turn gets further**, whatever the layer claims. -/
theorem AddsMember.position_lt (h : AddsMember layer c e d) : c.position < d.position := by
  obtain ⟨hcomma, n, -, rfl⟩ := h
  have hnext := remaining_next_lt hcomma
  have hle := c.next.position_le_advanceBy n
  simp only [remaining, next, tokens_skipTrivia, tokens_advance] at hnext hle ⊢
  omega

/-- A turn stays among the same tokens. -/
theorem AddsMember.tokens_eq (h : AddsMember layer c e d) : d.tokens = c.tokens := by
  obtain ⟨-, n, -, rfl⟩ := h
  simp [next]

/-- A turn passes a comma. -/
theorem AddsMember.commas_lt (h : AddsMember layer c e d) : d.commas < c.commas := by
  obtain ⟨hcomma, n, -, rfl⟩ := h
  obtain ⟨trivia, -, hskip, -⟩ := exists_passes_skipTrivia c.advance
  have hkinds := (Passes.cons hcomma hskip).kinds_eq
  have hle := c.next.commas_advanceBy_le n
  have hlt : c.next.commas < c.commas := by
    simp only [commas, next, hkinds, List.count_append, List.count_cons_self]
    omega
  omega

/-- Turns never go back, stay among the same tokens, and pass as many commas as they add members. -/
theorem AddsMembers.progress (h : AddsMembers layer c es stop) :
    c.position ≤ stop.position ∧ stop.tokens = c.tokens ∧ es.length + stop.commas ≤ c.commas := by
  induction h with
  | nil c => simp
  | cons turn further ih =>
      obtain ⟨hposition, htokens, hcommas⟩ := ih
      have := turn.position_lt
      have := turn.commas_lt
      refine ⟨by omega, htokens.trans turn.tokens_eq, ?_⟩
      rw [List.length_cons]
      omega

/-! ## How a list is answered -/

/-- The answers of the rule for lists, and what leads to each of them: a first member, then turns of
the loop until no comma is left in front, or until one has no member behind it. -/
inductive ListAnswer (layer : Layer) (c : Cursor) : RuleResult (List Expression) → Prop
  | noFirst (first : expression layer c = .ok .noMatch) : ListAnswer layer c (.ok .noMatch)
  | firstFails {f : Failure} (first : expression layer c = .error f) :
      ListAnswer layer c (.error f)
  | members {e : Expression} {n : Nat} {es : List Expression} {stop : Cursor}
      (first : expression layer c = .ok (.matched e n))
      (turns : AddsMembers layer (c.advanceBy n) es stop)
      (last : stop.headKind ≠ some (.punctuator .comma)) :
      ListAnswer layer c (.ok (.matched (e :: es) (stop.since c)))
  | memberFails {e : Expression} {n : Nat} {es : List Expression} {stop : Cursor} {f : Failure}
      (first : expression layer c = .ok (.matched e n))
      (turns : AddsMembers layer (c.advanceBy n) es stop)
      (comma : stop.headKind = some (.punctuator .comma))
      (fails : (expression layer stop.next).required .expression stop.next = .error f) :
      ListAnswer layer c (.error f)

/-- **The loop over members ends** behind finitely many turns, without a comma in front or with one
that has no member behind it. -/
theorem exists_addsMembers (layer : Layer) (done : List Expression) (c : Cursor) :
    ∃ es stop, AddsMembers layer c es stop ∧
      (stop.headKind ≠ some (.punctuator .comma) ∧
          furtherMembers layer done c = .ok (done.reverse ++ es, stop) ∨
        stop.headKind = some (.punctuator .comma) ∧
          ∃ f, (expression layer stop.next).required .expression stop.next = .error f ∧
            furtherMembers layer done c = .error f) := by
  fun_induction furtherMembers layer done c with
  | case1 done c hcomma e n hmember _ _ ih =>
      obtain ⟨es, stop, hturns, hend⟩ := ih
      have hturn : AddsMember layer c e (c.next.advanceBy n) :=
        ⟨headKind_of_isPunctuator hcomma, n, eq_of_required hmember, rfl⟩
      refine ⟨e :: es, stop, .cons hturn hturns, ?_⟩
      rwa [List.reverse_cons, List.append_assoc] at hend
  | case2 done c hcomma f hfails =>
      exact ⟨[], c, .nil c, .inr ⟨headKind_of_isPunctuator hcomma, f, hfails, rfl⟩⟩
  | case3 done c hcomma =>
      refine ⟨[], c, .nil c, .inl ⟨fun h => hcomma (isPunctuator_iff.2 h), ?_⟩⟩
      rw [List.append_nil]

/-- **The rule for lists answers** at every cursor, over every layer. -/
theorem listAnswer_expressionList (layer : Layer) (c : Cursor) :
    ListAnswer layer c (expressionList layer c) := by
  rw [expressionList]
  cases hfirst : expression layer c with
  | error f => exact .firstFails hfirst
  | ok outcome =>
      cases outcome with
      | noMatch => exact .noFirst hfirst
      | matched e n =>
          obtain ⟨es, stop, hturns, hend⟩ := exists_addsMembers layer [e] (c.advanceBy n)
          rcases hend with ⟨hlast, hmembers⟩ | ⟨hcomma, f, hfails, hmembers⟩
          · simp only [hmembers]
            exact .members hfirst hturns hlast
          · simp only [hmembers]
            exact .memberFails hfirst hturns hcomma hfails

/-! ## What a list counts -/

/-- **A list ends among the tokens, and each member but the first has a comma.**  Where a token is
left, a list counts one at least. -/
theorem bounds_of_expressionList (h : expressionList layer c = .ok (.matched es n)) :
    n ≤ c.remaining ∧ (c.position < c.tokens.size → 1 ≤ n) ∧ es.length ≤ c.commas + 1 := by
  have hanswer := listAnswer_expressionList layer c
  rw [h] at hanswer
  cases hanswer with
  | @members e m es stop first turns last =>
      obtain ⟨hposition, htokens, hcommas⟩ := turns.progress
      have hpos := one_le_of_expression first
      have hle := c.commas_advanceBy_le m
      refine ⟨since_le_remaining htokens, fun hlt => ?_, ?_⟩
      · simp only [position_advanceBy, since] at hposition ⊢
        omega
      · rw [List.length_cons]
        omega

/-! ## A layer that claims no more than there is -/

/-- A name takes one token, and that is there. -/
theorem le_remaining_of_wideNames {o : Operand} (h : Layer.wideNames c = .ok (.matched o n)) :
    n ≤ c.remaining := by
  unfold Layer.wideNames at h
  split at h
  · next hname =>
      cases h
      obtain ⟨k, hk⟩ := exists_headKind_of_identifier? hname
      exact remaining_pos_of_headKind hk
  · cases h

/-- **A bracketed list ends among the tokens**, whatever its members hold. -/
theorem le_remaining_of_brackets {o : Operand} (h : Layer.brackets c = .ok (.matched o n)) :
    n ≤ c.remaining := by
  rw [Layer.brackets_eq, Layer.nameOrBracketed] at h
  split at h
  · split at h
    · split at h
      · cases h
        exact since_le_remaining (by simp [next])
      · cases h
    · cases h
    · cases h
  · exact le_remaining_of_wideNames h

/-! ## Any layer at all -/

/-- What the rules make of a layer that may claim anything. -/
structure Robust (layer : Layer) (c : Cursor) : Prop where
  /-- Both rules come to an answer. -/
  expression_answers : ExpressionAnswer layer c (expression layer c)
  expressionList_answers : ListAnswer layer c (expressionList layer c)
  /-- An expression counts at least one token, and with a sigil or an operator no more than
  there are. -/
  one_le : ∀ e n, expression layer c = .ok (.matched e n) → 1 ≤ n
  le_remaining : ∀ e n, expression layer c = .ok (.matched e n) → e.isPlain = false →
    n ≤ c.remaining
  /-- Without sigil and operator the layer answers for itself, unless it claims nothing. -/
  passed_through : c.isPunctuator .ampersand = false → c.operator? = none →
    expression layer c =
      match layer c with
      | .ok (.matched _ 0) => .ok .noMatch
      | .ok (.matched o (m + 1)) => .ok (.matched (.plain o) (m + 1))
      | .ok .noMatch => .ok .noMatch
      | .error f => .error f
  /-- A list ends among the tokens, is not empty where one is left, and has a comma for every
  member but the first. -/
  list_bounds : ∀ es n, expressionList layer c = .ok (.matched es n) →
    n ≤ c.remaining ∧ (c.position < c.tokens.size → 1 ≤ n) ∧ es.length ≤ c.commas + 1
  /-- Each turn of the loop over members gets further. -/
  turn_lt : ∀ stop e d, AddsMember layer stop e d → stop.position < d.position
  /-- Over a layer that claims no more than there is, no expression counts more. -/
  bounded : (∀ d o n, layer d = .ok (.matched o n) → n ≤ d.remaining) →
    ∀ e n, expression layer c = .ok (.matched e n) → n ≤ c.remaining

/-- **No layer keeps the rules from an answer**, or from getting further. -/
theorem robust (layer : Layer) (c : Cursor) : Robust layer c where
  expression_answers := expressionAnswer_expression layer c
  expressionList_answers := listAnswer_expressionList layer c
  one_le _ _ := one_le_of_expression
  le_remaining _ _ := le_remaining_of_expression
  passed_through := expression_eq_of_plain
  list_bounds _ _ := bounds_of_expressionList
  turn_lt _ _ _ := AddsMember.position_lt
  bounded hlayer _ _ := le_remaining_of_layer hlayer

/-- Three tokens are there.  Over a layer that claims a hundred for each name, an expression counts
them all, and a list just those that are there, as one member; over the layer of bracketed lists an
expression counts none but those that are there. -/
theorem robust_greedy :
    let c := Cursor.atPosition #[⟨.identifier (.plain "a"), ⟨0, 1, ⟨1, 1⟩⟩⟩,
      ⟨.punctuator .comma, ⟨1, 2, ⟨1, 2⟩⟩⟩, ⟨.identifier (.plain "b"), ⟨2, 3, ⟨1, 3⟩⟩⟩] 0
    expression .greedy c = .ok (.matched (.plain (.name (.plain "a"))) 100) ∧
      (∀ es n, expressionList .greedy c = .ok (.matched es n) →
        1 ≤ n ∧ n ≤ 3 ∧ es.length ≤ 2) ∧
      ∀ e n, expression .brackets c = .ok (.matched e n) → n ≤ 3 := by
  intro c
  have hc : c.remaining = 3 := by decide
  have hcommas : c.commas = 1 := by decide
  have hgreedy := robust .greedy c
  refine ⟨hgreedy.passed_through (by decide) (by decide), fun es n h => ?_, fun e n h => ?_⟩
  · obtain ⟨hle, hpos, hlength⟩ := hgreedy.list_bounds es n h
    rw [hc] at hle
    rw [hcommas] at hlength
    exact ⟨hpos (by decide), hle, hlength⟩
  · rw [← hc]
    exact (robust .brackets c).bounded (fun _ _ _ => le_remaining_of_brackets) e n h

end Grammar
end ExprFront
