/-
# Payloads are copied

A node holds names, literals and operators; they are its leaves.  Each of them is copied from one of
the tokens that the node was read from, and these tokens hold no others.  So if the payloads of
tokens are replaced, the node keeps its form and gets the leaves of the new tokens.

The main fact is `natural_standard`: over the standard layer the rules for expressions commute with
every replacement of payloads, and never tell a contextual keyword from the plain name of its
spelling.
-/
import Mathlib
import ExprFront.Proofs.Grammar.Replacement

namespace ExprFront

variable {α : Type}

/-! ## Leaves -/

/-- A payload of a node. -/
inductive Leaf where
  | name (name : Identifier)
  | literal (value : Literal)
  | operator (text : String)
  deriving DecidableEq, Repr

/-- The payload that a node gets from a token of the kind.  A contextual keyword counts as the plain
name of its spelling. -/
def Kind.leaf? : Kind → Option Leaf
  | .identifier name => some (.name name)
  | .keyword (.contextual word) => some (.name (.plain word.spelling))
  | .literal value => some (.literal value)
  | .operator text => some (.operator text)
  | _ => none

mutual

/-- The payloads of an expression, in the order in which it is written. -/
def Expression.leaves : Expression → List Leaf
  | .inOut name => [.name name]
  | .prefixed operator operand => .operator operator :: operand.leaves
  | .plain operand => operand.leaves

/-- The payloads of an operand, in the order in which it is written. -/
def Operand.leaves : Operand → List Leaf
  | .name name => [.name name]
  | .literal value => [.literal value]
  | .parenthesized inner => inner.leaves
  | .call callee arguments => callee.leaves ++ Expression.allLeaves arguments
  | .member base name => base.leaves ++ [.name name]
  | .postfixed operand operator => operand.leaves ++ [.operator operator]

/-- The payloads of all the expressions, one expression behind the other. -/
def Expression.allLeaves : List Expression → List Leaf
  | [] => []
  | e :: rest => e.leaves ++ Expression.allLeaves rest

end

/-- The payloads of a phrase. -/
def Phrase.leaves : Phrase → List Leaf
  | .expression e => e.leaves
  | .operand o => o.leaves
  | .members es => Expression.allLeaves es

/-- What reads as a name has that name as its payload. -/
theorem Kind.leaf?_of_name? {k : Kind} {name : Identifier} (h : k.name? = some name) :
    k.leaf? = some (.name name) := by
  cases k with
  | identifier name => cases h; rfl
  | keyword word =>
      cases word with
      | reserved word => cases h
      | contextual word => cases h; rfl
  | _ => cases h

/-- Trivia have no payloads. -/
theorem Kind.filterMap_leaf?_of_isTrivia {trivia : List Kind}
    (h : ∀ t ∈ trivia, t.isTrivia = true) : trivia.filterMap leaf? = [] := by
  refine List.filterMap_eq_nil_iff.2 fun k hk => ?_
  have hk := h k hk
  cases k <;> first | rfl | cases hk

/-- **A phrase has the payloads of the tokens that stand for it**, each once and in their order. -/
theorem Derives.leaves_eq {w : List Kind} {p : Phrase} (h : Derives w p) :
    p.leaves = w.filterMap Kind.leaf? := by
  have mark (mark : Punctuator) (w : List Kind) :
      (Kind.punctuator mark :: w).filterMap Kind.leaf? = w.filterMap Kind.leaf? := rfl
  have closed (w : List Kind) :
      (Kind.punctuator .leftParen :: w ++ [Kind.punctuator .rightParen]).filterMap Kind.leaf? =
        w.filterMap Kind.leaf? := by
    rw [List.cons_append, mark, List.filterMap_append]
    exact List.append_nil _
  induction h with
  | inOut hname htrivia =>
      rw [mark, List.filterMap_cons_some (Kind.leaf?_of_name? hname),
        Kind.filterMap_leaf?_of_isTrivia htrivia]
      rfl
  | prefixed operator operand ih =>
      rw [List.filterMap_cons_some (show (Kind.operator operator).leaf? = _ from rfl), ← ih]
      rfl
  | plain operand ih => exact ih
  | name hname =>
      rw [List.filterMap_cons_some (Kind.leaf?_of_name? hname)]
      rfl
  | literal value => rfl
  | parenthesized inner ih =>
      rw [closed, ← ih]
      rfl
  | callEmpty callee hcallee ih =>
      rw [List.filterMap_append, ← ih]
      rfl
  | call callee hcallee arguments ih iharguments =>
      rw [List.filterMap_append, closed, ← ih, ← iharguments]
      rfl
  | member base hname ih =>
      rw [List.filterMap_append, mark, List.filterMap_cons_some (Kind.leaf?_of_name? hname), ← ih]
      rfl
  | postfixed operator operand ih =>
      rw [List.filterMap_append, ← ih]
      rfl
  | single member ih =>
      rw [← ih]
      exact List.append_nil _
  | more member htrivia rest ih ihrest =>
      rw [List.filterMap_append, mark, List.filterMap_append,
        Kind.filterMap_leaf?_of_isTrivia htrivia, ← ih, ← ihrest]
      rfl

/-! ## Forms -/

/-- Forgets every payload. -/
def Replacement.blank : Replacement := ⟨fun _ => .plain "", fun _ => .nil, fun _ => ""⟩

/-- Replaces every payload by itself. -/
def Replacement.same : Replacement := ⟨id, id, id⟩

mutual

/-- **An expression is determined by its form and its payloads**, in front of any others. -/
theorem Expression.eq_of_leaves (e e' : Expression) {u v : List Leaf}
    (hform : e.replace .blank = e'.replace .blank) (h : e.leaves ++ u = e'.leaves ++ v) :
    e = e' ∧ u = v := by
  cases e with
  | inOut name =>
      cases e' with
      | inOut name' =>
          obtain ⟨hname, htail⟩ := List.cons.inj h
          cases hname
          exact ⟨rfl, htail⟩
      | _ => simp [Expression.replace] at hform
  | prefixed operator operand =>
      cases e' with
      | prefixed operator' operand' =>
          obtain ⟨-, hform⟩ := Expression.prefixed.inj hform
          obtain ⟨hoperator, htail⟩ := List.cons.inj h
          obtain ⟨rfl, hrest⟩ := Operand.eq_of_leaves operand operand' hform htail
          cases hoperator
          exact ⟨rfl, hrest⟩
      | _ => simp [Expression.replace] at hform
  | plain operand =>
      cases e' with
      | plain operand' =>
          obtain ⟨rfl, hrest⟩ :=
            Operand.eq_of_leaves operand operand' (Expression.plain.inj hform) h
          exact ⟨rfl, hrest⟩
      | _ => simp [Expression.replace] at hform

/-- An operand is determined by its form and its payloads, in front of any others. -/
theorem Operand.eq_of_leaves (o o' : Operand) {u v : List Leaf}
    (hform : o.replace .blank = o'.replace .blank) (h : o.leaves ++ u = o'.leaves ++ v) :
    o = o' ∧ u = v := by
  cases o with
  | name name =>
      cases o' with
      | name name' =>
          obtain ⟨hname, htail⟩ := List.cons.inj h
          cases hname
          exact ⟨rfl, htail⟩
      | _ => simp [Operand.replace] at hform
  | literal value =>
      cases o' with
      | literal value' =>
          obtain ⟨hvalue, htail⟩ := List.cons.inj h
          cases hvalue
          exact ⟨rfl, htail⟩
      | _ => simp [Operand.replace] at hform
  | parenthesized inner =>
      cases o' with
      | parenthesized inner' =>
          obtain ⟨rfl, hrest⟩ :=
            Expression.eq_of_leaves inner inner' (Operand.parenthesized.inj hform) h
          exact ⟨rfl, hrest⟩
      | _ => simp [Operand.replace] at hform
  | call callee arguments =>
      cases o' with
      | call callee' arguments' =>
          obtain ⟨hcallee, harguments⟩ := Operand.call.inj hform
          simp only [Operand.leaves, List.append_assoc] at h
          obtain ⟨rfl, htail⟩ := Operand.eq_of_leaves callee callee' hcallee h
          obtain ⟨rfl, hrest⟩ := Expression.eq_of_allLeaves arguments arguments' harguments htail
          exact ⟨rfl, hrest⟩
      | _ => simp [Operand.replace] at hform
  | member base name =>
      cases o' with
      | member base' name' =>
          obtain ⟨hbase, -⟩ := Operand.member.inj hform
          simp only [Operand.leaves, List.append_assoc] at h
          obtain ⟨rfl, htail⟩ := Operand.eq_of_leaves base base' hbase h
          obtain ⟨hname, hrest⟩ := List.cons.inj htail
          cases hname
          exact ⟨rfl, hrest⟩
      | _ => simp [Operand.replace] at hform
  | postfixed operand operator =>
      cases o' with
      | postfixed operand' operator' =>
          obtain ⟨hoperand, -⟩ := Operand.postfixed.inj hform
          simp only [Operand.leaves, List.append_assoc] at h
          obtain ⟨rfl, htail⟩ := Operand.eq_of_leaves operand operand' hoperand h
          obtain ⟨hoperator, hrest⟩ := List.cons.inj htail
          cases hoperator
          exact ⟨rfl, hrest⟩
      | _ => simp [Operand.replace] at hform

/-- A list is determined by the forms and the payloads of its members, in front of any others. -/
theorem Expression.eq_of_allLeaves (es es' : List Expression) {u v : List Leaf}
    (hform : Expression.replaceAll .blank es = Expression.replaceAll .blank es')
    (h : Expression.allLeaves es ++ u = Expression.allLeaves es' ++ v) : es = es' ∧ u = v := by
  cases es with
  | nil =>
      cases es' with
      | nil => exact ⟨rfl, h⟩
      | cons e' rest' => simp [Expression.replaceAll] at hform
  | cons e rest =>
      cases es' with
      | nil => simp [Expression.replaceAll] at hform
      | cons e' rest' =>
          obtain ⟨he, hrest⟩ := List.cons.inj hform
          simp only [Expression.allLeaves, List.append_assoc] at h
          obtain ⟨rfl, htail⟩ := Expression.eq_of_leaves e e' he h
          obtain ⟨rfl, hmore⟩ := Expression.eq_of_allLeaves rest rest' hrest htail
          exact ⟨rfl, hmore⟩

end

mutual

/-- Payloads that are replaced by themselves stay. -/
theorem Expression.replace_same (e : Expression) : e.replace .same = e := by
  cases e with
  | inOut name => rfl
  | prefixed operator operand => exact congrArg (Expression.prefixed operator) operand.replace_same
  | plain operand => exact congrArg Expression.plain operand.replace_same

/-- Payloads of an operand that are replaced by themselves stay. -/
theorem Operand.replace_same (o : Operand) : o.replace .same = o := by
  cases o with
  | name name => rfl
  | literal value => rfl
  | parenthesized inner => exact congrArg Operand.parenthesized inner.replace_same
  | call callee arguments =>
      rw [Operand.replace, callee.replace_same, Expression.replaceAll_same arguments]
  | member base name => exact congrArg (Operand.member · name) base.replace_same
  | postfixed operand operator =>
      exact congrArg (Operand.postfixed · operator) operand.replace_same

/-- Payloads of a list that are replaced by themselves stay. -/
theorem Expression.replaceAll_same (es : List Expression) :
    Expression.replaceAll .same es = es := by
  cases es with
  | nil => rfl
  | cons e rest =>
      rw [Expression.replaceAll, e.replace_same, Expression.replaceAll_same rest]

end

/-! ## Tokens with other payloads -/

/-- The kind with its payload replaced.  A keyword stays, as its spelling is no payload. -/
def Replacement.kind (r : Replacement) : Kind → Kind
  | .identifier name => .identifier (r.name name)
  | .literal value => .literal (r.literal value)
  | .operator text => .operator (r.operator text)
  | k => k

/-- The token with its payload replaced, at the same place. -/
def Replacement.token (r : Replacement) (t : Token) : Token := ⟨r.kind t.kind, t.span⟩

/-- The tokens are the same, or the first is a contextual keyword and the second the plain name of
its spelling, at the same place. -/
inductive Token.SpelledAlike : Token → Token → Prop
  | refl (t : Token) : SpelledAlike t t
  | name (word : ContextualWord) (span : Span) :
      SpelledAlike ⟨.keyword (.contextual word), span⟩ ⟨.identifier (.plain word.spelling), span⟩

/-- Both errors ask for the same with the same words, at the same location. -/
structure ParseError.SaysAs (e e' : ParseError) : Prop where
  message : e.message = e'.message
  expected : e.expected? = e'.expected?
  location : e.location = e'.location

/-- The rule commutes with every replacement of payloads: in front of the replaced tokens it matches
as many of them with the one node of the same form that has their payloads, it does not apply at the
same positions, and it fails at the same positions.  A failure is reported where it was, but with
what the token there has become; behind the last token, where that token now ends.  And the rule
tells no contextual keyword from the plain name of its spelling, not in its errors either. -/
structure Rule.IsNatural (rule : Rule α) (replace : Replacement → α → α)
    (leaves : α → List Leaf) : Prop where
  matched : ∀ (r : Replacement) (tokens : List Token) (p : Nat) (v : α) (n : Nat),
    rule (.atPosition tokens.toArray p) = .ok (.matched v n) →
      leaves v = ((tokens.drop p).take n).filterMap (·.kind.leaf?) ∧
        ∃ v', rule (.atPosition (tokens.map r.token).toArray p) = .ok (.matched v' n) ∧
          ∀ w, w = v' ↔ replace .blank w = replace .blank v ∧
            leaves w = ((tokens.drop p).take n).filterMap fun t => (r.kind t.kind).leaf?
  noMatch : ∀ (r : Replacement) (tokens : List Token) (p : Nat),
    rule (.atPosition tokens.toArray p) = .ok .noMatch →
      rule (.atPosition (tokens.map r.token).toArray p) = .ok .noMatch
  error : ∀ (r : Replacement) (tokens : List Token) (p : Nat) (f : Failure),
    rule (.atPosition tokens.toArray p) = .error f →
      rule (.atPosition (tokens.map r.token).toArray p) = .error f ∧
        ∃ production i, f = .expected production i ∧
          (∀ t, tokens[i]? = some t →
            f.report tokens.toArray = ⟨.expected production t.kind, t.span.location⟩ ∧
              f.report (tokens.map r.token).toArray =
                ⟨.expected production (r.kind t.kind), t.span.location⟩) ∧
          (tokens[i]? = none →
            f.report (tokens.map r.token).toArray =
              ⟨.expected production .endOfInput,
                (tokens.getLast?.map fun t => (r.token t).endLocation).getD .start⟩)
  spelling : ∀ (tokens tokens' : List Token) (p : Nat),
    List.Forall₂ Token.SpelledAlike tokens tokens' →
      rule (.atPosition tokens'.toArray p) = rule (.atPosition tokens.toArray p) ∧
        ∀ f, rule (.atPosition tokens.toArray p) = .error f →
          (f.report tokens'.toArray).SaysAs (f.report tokens.toArray)

/-! ### Reading them -/

/-- Tokens that are the same after a replacement make the same cursors. -/
theorem Cursor.replace_atPosition {r : Replacement} {tokens tokens' : List Token}
    (h : tokens'.map (fun t => (⟨r.asRead t.kind, t.span⟩ : Token)) =
      tokens.map fun t => ⟨r.asRead t.kind, t.span⟩) (p : Nat) :
    (atPosition tokens'.toArray p).replace r = (atPosition tokens.toArray p).replace r := by
  have hlength : tokens'.length = tokens.length := by
    simpa only [List.length_map] using congrArg List.length h
  refine eq_of_position ?_ ?_
  · simp only [replace, atPosition, List.map_toArray, h]
  · simp only [position_replace, atPosition, List.size_toArray, hlength]

/-- Once payloads are forgotten it does not matter that they were replaced. -/
theorem Replacement.replace_blank_token (r : Replacement) (tokens : List Token) (p : Nat) :
    (Cursor.atPosition (tokens.map r.token).toArray p).replace .blank =
      (Cursor.atPosition tokens.toArray p).replace .blank := by
  have hkind (k : Kind) : blank.asRead (r.kind k) = blank.asRead k := by
    cases k <;> rfl
  refine Cursor.replace_atPosition ?_ p
  rw [List.map_map]
  exact List.map_congr_left fun t _ => congrArg (Token.mk · t.span) (hkind t.kind)

/-- Tokens that are spelled alike are read as the same. -/
theorem Token.SpelledAlike.replace_same {tokens tokens' : List Token}
    (h : List.Forall₂ SpelledAlike tokens tokens') (p : Nat) :
    (Cursor.atPosition tokens'.toArray p).replace .same =
      (Cursor.atPosition tokens.toArray p).replace .same := by
  refine Cursor.replace_atPosition ?_ p
  induction h with
  | nil => rfl
  | cons ht _ ih =>
      refine congrArg₂ List.cons ?_ ih
      cases ht <;> rfl

/-! ### Reports about them -/

/-- The report of a failure, from the token at its position or else from the last one. -/
theorem Failure.report_eq (production : Production) (i : Nat) (tokens : List Token) :
    (expected production i).report tokens.toArray =
      match tokens[i]? with
      | some t => ⟨.expected production t.kind, t.span.location⟩
      | none =>
          ⟨.expected production .endOfInput,
            (tokens.getLast?.map (·.endLocation)).getD .start⟩ := by
  have hcurrent : (Cursor.atPosition tokens.toArray i).current = tokens[i]? := by
    simp only [Cursor.current, Cursor.atPosition, List.size_toArray, List.getElem?_toArray]
    rcases Nat.le_total i tokens.length with h | h
    · rw [Nat.min_eq_left h]
    · rw [Nat.min_eq_right h, List.getElem?_eq_none h, List.getElem?_eq_none (Nat.le_refl _)]
  have hend : (Cursor.atPosition tokens.toArray i).endLocation =
      (tokens.getLast?.map (·.endLocation)).getD .start := by
    simp only [Cursor.endLocation, Cursor.atPosition, List.back?_toArray]
    cases tokens.getLast? <;> rfl
  rw [report, ParseError.expectedAt, hcurrent]
  cases tokens[i]? with
  | some t => rfl
  | none => exact congrArg _ hend

/-- Among tokens that are spelled alike, those at the same index are, if there are any. -/
theorem Token.SpelledAlike.getElem? {tokens tokens' : List Token}
    (h : List.Forall₂ SpelledAlike tokens tokens') (i : Nat) :
    tokens[i]? = none ∧ tokens'[i]? = none ∨
      ∃ t t', tokens[i]? = some t ∧ tokens'[i]? = some t' ∧ t.SpelledAlike t' := by
  rcases Nat.lt_or_ge i tokens.length with hi | hi
  · have hi' : i < tokens'.length := h.length_eq ▸ hi
    exact .inr ⟨_, _, List.getElem?_eq_getElem hi, List.getElem?_eq_getElem hi', h.get hi hi'⟩
  · have hi' : tokens'.length ≤ i := h.length_eq ▸ hi
    exact .inl ⟨List.getElem?_eq_none hi, List.getElem?_eq_none hi'⟩

/-- Failures are reported alike among tokens that are spelled alike. -/
theorem Token.SpelledAlike.report {tokens tokens' : List Token}
    (h : List.Forall₂ SpelledAlike tokens tokens') (f : Failure) :
    (f.report tokens'.toArray).SaysAs (f.report tokens.toArray) := by
  cases f with
  | own e => exact ⟨rfl, rfl, rfl⟩
  | expected production i =>
      have hlast : (tokens'.getLast?.map (·.endLocation)).getD .start =
          (tokens.getLast?.map (·.endLocation)).getD .start := by
        rw [List.getLast?_eq_getElem?, List.getLast?_eq_getElem?, ← h.length_eq]
        rcases getElem? h (tokens.length - 1) with ⟨hnone, hnone'⟩ | ⟨t, t', ht, ht', halike⟩
        · rw [hnone, hnone']
        · rw [ht, ht']
          cases halike <;> rfl
      rw [Failure.report_eq, Failure.report_eq]
      rcases getElem? h i with ⟨hnone, hnone'⟩ | ⟨t, t', ht, ht', halike⟩
      · rw [hnone, hnone', hlast]
        exact ⟨rfl, rfl, rfl⟩
      · rw [ht, ht']
        cases halike <;> exact ⟨rfl, rfl, rfl⟩

/-- A construct that is missing at a token is missing at what the token becomes. -/
theorem Failure.report_replace_of_some (r : Replacement) (production : Production) {i : Nat}
    {tokens : List Token} {t : Token} (ht : tokens[i]? = some t) :
    (expected production i).report (tokens.map r.token).toArray =
      ⟨.expected production (r.kind t.kind), t.span.location⟩ := by
  rw [report_eq, List.getElem?_map, ht]
  rfl

/-- A construct that is missing behind the tokens is missing where the last of them ends now. -/
theorem Failure.report_replace_of_none (r : Replacement) (production : Production) {i : Nat}
    {tokens : List Token} (hnone : tokens[i]? = none) :
    (expected production i).report (tokens.map r.token).toArray =
      ⟨.expected production .endOfInput,
        (tokens.getLast?.map fun t => (r.token t).endLocation).getD .start⟩ := by
  rw [report_eq, List.getElem?_map, hnone, List.getLast?_map, Option.map_map]
  rfl

/-! ## Natural rules -/

/-- A result stays the same under a function that leaves every value as it is. -/
theorem RuleResult.map_eq_self {g : α → α} (hg : ∀ v, g v = v) (r : RuleResult α) :
    r.map (·.map g) = r := by
  rcases r with f | ⟨v, n⟩ | _
  · rfl
  · exact congrArg (fun v => Except.ok (Outcome.matched v n)) (hg v)
  · rfl

/-- A rule is natural if it answers by the tokens ahead but does not look at payloads, and if its
nodes have the payloads of the tokens that they are read from, which with their form determine
them. -/
theorem Rule.isNatural_of {rule : Rule α} {replace : Replacement → α → α} {leaves : α → List Leaf}
    {reach : Nat} (hlocal : ∀ c, rule.LocalAt reach c)
    (hrespects : ∀ r c, rule.RespectsAt r (replace r) c) (hsame : ∀ v, replace .same v = v)
    (hdetermined : ∀ v w, replace .blank v = replace .blank w → leaves v = leaves w → v = w)
    (hleaves : ∀ (tokens : List Token) (p : Nat) (v : α) (n : Nat),
      rule (.atPosition tokens.toArray p) = .ok (.matched v n) →
        leaves v = ((tokens.drop p).take n).filterMap (·.kind.leaf?)) :
    rule.IsNatural replace leaves := by
  -- After forgetting payloads, both runs have become the same one.
  have hblank (r : Replacement) (tokens : List Token) (p : Nat) :
      (rule (.atPosition (tokens.map r.token).toArray p)).map (·.map (replace .blank)) =
        (rule (.atPosition tokens.toArray p)).map (·.map (replace .blank)) := by
    rw [← hrespects, ← hrespects, r.replace_blank_token]
  constructor
  case matched =>
    intro r tokens p v n h
    have hmap := hblank r tokens p
    rw [h] at hmap
    obtain ⟨v', hv', hform⟩ := RuleResult.map_eq_matched_iff.1 hmap
    have hv'_leaves := hleaves _ _ _ _ hv'
    rw [← List.map_drop, ← List.map_take, List.filterMap_map] at hv'_leaves
    refine ⟨hleaves _ _ _ _ h, v', hv', fun w => ⟨?_, fun ⟨hw, hleaves_w⟩ => ?_⟩⟩
    · rintro rfl
      exact ⟨hform, hv'_leaves⟩
    · exact hdetermined w v' (hw.trans hform.symm) (hleaves_w.trans hv'_leaves.symm)
  case noMatch =>
    intro r tokens p h
    have hmap := hblank r tokens p
    rw [h] at hmap
    exact RuleResult.map_eq_noMatch_iff.1 hmap
  case error =>
    intro r tokens p f h
    have hmap := hblank r tokens p
    rw [h] at hmap
    obtain ⟨production, m, -, rfl, -⟩ := (hlocal _).decides_of_error h
    refine ⟨RuleResult.map_eq_error_iff.1 hmap, production, _, rfl, fun t ht => ⟨?_, ?_⟩,
      Failure.report_replace_of_none r production⟩
    · rw [Failure.expecting, Failure.report_eq, ht]
    · exact Failure.report_replace_of_some r production ht
  case spelling =>
    intro tokens tokens' p h
    have hid := RuleResult.map_eq_self hsame
    refine ⟨?_, fun f _ => Token.SpelledAlike.report h f⟩
    rw [← hid (rule (.atPosition tokens'.toArray p)), ← hrespects,
      Token.SpelledAlike.replace_same h, hrespects, hid]

/-- What a rule matches has the payloads of the tokens that it is read from, if those of its
language do. -/
theorem Recognizes.leaves_eq {rule : Rule α} {language : List Kind → α → Prop}
    {leaves : α → List Leaf} (h : Recognizes rule language)
    (hlanguage : ∀ w v, language w v → leaves v = w.filterMap Kind.leaf?) (tokens : List Token)
    (p : Nat) (v : α) (n : Nat) (hv : rule (.atPosition tokens.toArray p) = .ok (.matched v n)) :
    leaves v = ((tokens.drop p).take n).filterMap (·.kind.leaf?) := by
  obtain ⟨-, -, -, hw⟩ := h.sound tokens.toArray p v n hv
  rw [hlanguage _ _ hw, List.filterMap_map, Array.toList_extract, List.extract_eq_take_drop,
    Nat.add_sub_cancel_left]
  rfl

/-- **The rules for expressions commute with every replacement of payloads**, over the standard
layer: they copy names, literals and operators from the tokens that hold them and never look at
them, and a contextual keyword is to them the plain name of its spelling. -/
theorem Grammar.natural_standard :
    Rule.IsNatural (expression .standard) Expression.replace Expression.leaves ∧
      Rule.IsNatural (expressionList .standard) Expression.replaceAll Expression.allLeaves ∧
      Rule.IsNatural (operand .standard) Operand.replace Operand.leaves := by
  obtain ⟨hexpression, hlist, hoperand⟩ := recognizes_standard
  refine ⟨?_, ?_, ?_⟩
  · refine Rule.isNatural_of localAt_expression_standard respects_expression_standard
      Expression.replace_same ?_
      (hexpression.leaves_eq fun w e => Derives.leaves_eq)
    intro e e' hform hleaves
    exact (Expression.eq_of_leaves e e' hform (congrArg (· ++ []) hleaves)).1
  · have hreplace (r : Replacement) : Expression.replaceAll r = List.map (·.replace r) :=
      funext (Expression.replaceAll_eq_map r)
    refine Rule.isNatural_of localAt_expressionList_standard (fun r c => ?_)
      Expression.replaceAll_same ?_
      (hlist.leaves_eq fun w es => Derives.leaves_eq)
    · rw [hreplace]
      exact respects_expressionList_standard r c
    · intro es es' hform hleaves
      exact (Expression.eq_of_allLeaves es es' hform (congrArg (· ++ []) hleaves)).1
  · refine Rule.isNatural_of localAt_operand_standard respects_operand_standard
      Operand.replace_same ?_
      (hoperand.leaves_eq fun w o => Derives.leaves_eq)
    intro o o' hform hleaves
    exact (Operand.eq_of_leaves o o' hform (congrArg (· ++ []) hleaves)).1

/-- In `-f(get,1)` the operator, the name and the literal are replaced, in the tokens and so in the
node; the contextual keyword stays, and is read as a name. -/
theorem Grammar.natural_standard_call :
    let token (k : Kind) : Token := ⟨k, 0, 0, .start⟩
    let tokens := [token (.operator "-"), token (.identifier (.plain "f")),
      token (.punctuator .leftParen), token (.keyword (.contextual .kwGet)),
      token (.punctuator .comma), token (.literal (.integer "1")),
      token (.punctuator .rightParen)]
    let r : Replacement := ⟨fun _ => ⟨"g", true⟩, fun _ => .nil, fun text => text ++ text⟩
    expression .standard (.atPosition (tokens.map r.token).toArray 0) =
      .ok (.matched (.prefixed "--" (.call (.name ⟨"g", true⟩)
        [.plain (.name (.plain "get")), .plain (.literal .nil)])) 7) := by
  intro token tokens r
  have hmatch : expression .standard (.atPosition tokens.toArray 0) =
      .ok (.matched (.prefixed "-" (.call (.name (.plain "f"))
        [.plain (.name (.plain "get")), .plain (.literal (.integer "1"))])) 7) := by cbv
  obtain ⟨-, v, hv, hdetermined⟩ := natural_standard.1.matched r tokens 0 _ _ hmatch
  obtain rfl := (hdetermined (.prefixed "--" (.call (.name ⟨"g", true⟩)
    [.plain (.name (.plain "get")), .plain (.literal .nil)]))).2 ⟨rfl, rfl⟩
  exact hv

end ExprFront
