/-
# Where rules do not apply

That a rule does not apply shows in the first token, and for an expression in the second one too:
no name follows an ampersand, or no operand a prefix operator.  Whatever is missing further on is a
failure, and a failure comes only behind a token that commits the rule.  So the two ways not to
match are told apart by the tokens: that is `tellsApart_standard`.
-/
import Mathlib
import ExprFront.Proofs.Grammar.Commitment

namespace ExprFront

open Cursor

variable {α β : Type}

/-! ## Kinds by their index -/

/-- The kind of the token at the index, unless there is none or it is the end of input. -/
def Token.kindAt (tokens : Array Token) (i : Nat) : Option Kind :=
  (tokens[i]?.filter (!·.isEnd)).map (·.kind)

namespace Cursor

/-- Behind the last token there is no kind, however far behind. -/
theorem kindAt_min (tokens : Array Token) (i : Nat) :
    Token.kindAt tokens (min i tokens.size) = Token.kindAt tokens i := by
  rcases Nat.le_total i tokens.size with h | h
  · rw [Nat.min_eq_left h]
  · rw [Nat.min_eq_right h, Token.kindAt, Token.kindAt, Array.getElem?_eq_none (Nat.le_refl _),
      Array.getElem?_eq_none h]

/-- The head at a position is the kind there. -/
theorem headKind_atPosition (tokens : Array Token) (p : Nat) :
    (atPosition tokens p).headKind = Token.kindAt tokens p :=
  kindAt_min tokens p

/-- The head behind a position is the kind behind it. -/
theorem headKind_advance_atPosition (tokens : Array Token) (p : Nat) :
    (atPosition tokens p).advance.headKind = Token.kindAt tokens (p + 1) := by
  have hadvance : (atPosition tokens p).advance = atPosition tokens (p + 1) := by
    refine eq_of_position rfl ?_
    simp only [advance, advanceBy, atPosition]
    omega
  rw [hadvance, headKind_atPosition]

/-- What commits a failure stands at an index from the position on and before the failure. -/
theorem Committed.exists_kindAt {tokens : Array Token} {p : Nat} {commits : Kind → Bool}
    {f : Failure} (h : (atPosition tokens p).Committed commits f) :
    ∃ i k, p ≤ i ∧ f.IsBehind (i + 1) ∧ Token.kindAt tokens i = some k ∧ commits k = true := by
  obtain ⟨m, k, hk, hcommits, hf⟩ := h
  refine ⟨_, k, ?_, hf, hk, hcommits⟩
  have hle := position_le_advanceBy (atPosition tokens p) m
  have hsize := remaining_advance_lt hk
  simp only [remaining, advance, position_advanceBy, tokens_advanceBy, atPosition] at hle hsize ⊢
  omega

end Cursor

/-! ## Telling apart -/

/-- The rule tells the two ways not to match apart.  It does not apply exactly where the kinds at
its position and behind it say so, and it fails only further on, behind a token that commits it. -/
structure Rule.TellsApart (rule : Rule α) (lacks : Option Kind → Option Kind → Prop)
    (commits : Kind → Bool) : Prop where
  noMatch_iff : ∀ tokens p, rule (.atPosition tokens p) = .ok .noMatch ↔
    lacks (Token.kindAt tokens p) (Token.kindAt tokens (p + 1))
  committed : ∀ tokens p f, rule (.atPosition tokens p) = .error f →
    ∃ production position, f = .expected production position ∧
      p < position ∧ position ≤ tokens.size ∧
      ∃ i k, p ≤ i ∧ i < position ∧ Token.kindAt tokens i = some k ∧ commits k = true

/-- A rule tells them apart if its answers show in the tokens ahead, if it fails only behind what
commits it, and if the head and the one behind it say where it does not apply. -/
theorem Rule.tellsApart_of {rule : Rule α} {lacks : Option Kind → Option Kind → Prop}
    {commits : Kind → Bool} {reach : Nat} (hlocal : ∀ c, rule.LocalAt reach c)
    (hfails : rule.FailsBehind commits)
    (hlacks : ∀ c, rule c = .ok .noMatch ↔ lacks c.headKind c.advance.headKind) :
    rule.TellsApart lacks commits where
  noMatch_iff tokens p := by
    rw [hlacks, headKind_atPosition, headKind_advance_atPosition]
  committed tokens p f hf := by
    obtain ⟨production, m, -, rfl, -⟩ := (hlocal _).decides_of_error hf
    obtain ⟨i, k, hpi, ⟨_, _, hsame, hif⟩, hk, hcommits⟩ := (hfails _ _ hf).exists_kindAt
    cases hsame
    exact ⟨production, _, rfl, Nat.lt_of_le_of_lt hpi hif, (advanceBy _ m).position_le, i, k, hpi,
      hif, hk, hcommits⟩

/-- A rule with a loop behind it does not apply exactly where the rule does not. -/
theorem Rule.thenLoop_eq_noMatch_iff {rule : Rule α}
    {loop : α → Cursor → Except Failure (β × Cursor)} {c : Cursor} :
    rule.thenLoop loop c = .ok .noMatch ↔ rule c = .ok .noMatch := by
  unfold thenLoop
  split
  · next hmatch =>
      rw [hmatch]
      split
      · simp
      · simp
  · next hnone => simp [hnone]
  · next hf => simp [hf]

namespace Grammar

variable {layer : Layer} {c : Cursor}

/-! ## Operands and expressions -/

/-- Where a name has to stand and none does, nothing can be read as one. -/
theorem identifier?_eq_none_iff :
    c.identifier? true = none ↔ ∀ k ∈ c.headKind, k.name? = none := by
  rw [identifier?_eq_bind, Option.bind_eq_none_iff]
  rfl

/-- No operand begins with the kind, if there is one. -/
def LacksOperand (first : Option Kind) : Prop := ∀ k ∈ first, k.beginsOperand = false

/-- **A primary does not apply exactly where no operand begins.** -/
theorem primary_eq_noMatch_iff :
    primary layer c = .ok .noMatch ↔ LacksOperand c.headKind := by
  unfold LacksOperand primary
  split
  · next value hk => simp [hk, Kind.beginsOperand]
  · next hk =>
      have hbegins : ¬ ∀ k ∈ c.headKind, k.beginsOperand = false := by
        simp [hk, Kind.beginsOperand]
      refine iff_of_false ?_ hbegins
      split
      · split
        · intro h
          cases h
        · intro h
          cases h
      · intro h
        cases h
  · next hliteral hparen =>
      -- What is left begins an operand only as a name.
      have hname : (∀ k ∈ c.headKind, k.beginsOperand = false) ↔ c.identifier? true = none := by
        rw [identifier?_eq_none_iff]
        refine forall₂_congr fun k hk => ?_
        unfold Kind.beginsOperand
        split
        · next value => exact absurd hk (hliteral value)
        · exact absurd hk hparen
        · rw [Option.isSome_eq_false_iff, Option.isNone_iff_eq_none]
      rw [hname]
      cases c.identifier? true with
      | none => simp
      | some name => simp

/-- An operand does not apply exactly where none begins. -/
theorem operand_eq_noMatch_iff :
    operand .standard c = .ok .noMatch ↔ LacksOperand c.headKind := by
  rw [operand_standard, Layer.standard_eq, primaryWithSuffixes_eq_thenLoop,
    Rule.thenLoop_eq_noMatch_iff, primary_eq_noMatch_iff]

/-- No expression begins with the two kinds: there is none, no name follows an ampersand, no operand
follows an operator, or the first begins no operand. -/
inductive LacksExpression : Option Kind → Option Kind → Prop
  | nothing (next : Option Kind) : LacksExpression none next
  | ampersand {next : Option Kind} (h : ∀ k ∈ next, k.name? = none) :
      LacksExpression (some (.punctuator .ampersand)) next
  | operator {text : String} {next : Option Kind} (h : LacksOperand next) :
      LacksExpression (some (.operator text)) next
  | other {k : Kind} (next : Option Kind) (hampersand : k ≠ .punctuator .ampersand)
      (hoperator : ∀ text, k ≠ .operator text) (h : k.beginsOperand = false) :
      LacksExpression (some k) next

/-- Where neither an ampersand nor an operator stands, no expression begins just if no operand
does. -/
theorem lacksExpression_iff {first next : Option Kind}
    (hampersand : first ≠ some (.punctuator .ampersand))
    (hoperator : ∀ text, first ≠ some (.operator text)) :
    LacksExpression first next ↔ LacksOperand first := by
  constructor
  · rintro (_ | h | h | ⟨_, -, -, h⟩)
    · exact nofun
    · exact absurd rfl hampersand
    · exact absurd rfl (hoperator _)
    · intro k hk
      cases hk
      exact h
  · intro h
    cases first with
    | none => exact .nothing next
    | some k =>
        refine .other next ?_ ?_ (h k rfl)
        · rintro rfl
          exact hampersand rfl
        · rintro text rfl
          exact hoperator text rfl

/-- **An expression does not apply exactly where none begins.** -/
theorem expression_eq_noMatch_iff :
    expression .standard c = .ok .noMatch ↔ LacksExpression c.headKind c.advance.headKind := by
  by_cases hampersand : c.headKind = some (.punctuator .ampersand)
  · have hlacks : LacksExpression c.headKind c.advance.headKind ↔
        c.advance.identifier? true = none := by
      rw [identifier?_eq_none_iff, hampersand]
      refine ⟨?_, .ampersand⟩
      rintro (_ | h | _ | ⟨_, hne, -, -⟩)
      · exact h
      · exact absurd rfl hne
    rw [hlacks, expression, if_pos (isPunctuator_iff.2 hampersand)]
    cases c.advance.identifier? true with
    | none => simp
    | some name => simp
  · rw [expression_of_not_ampersand hampersand]
    cases hoperator : c.operator? with
    | some text =>
        have hlacks : LacksExpression c.headKind c.advance.headKind ↔
            operand .standard c.advance = .ok .noMatch := by
          rw [operand_eq_noMatch_iff, headKind_of_operator? hoperator]
          refine ⟨?_, .operator⟩
          rintro (_ | _ | h | ⟨_, -, hne, -⟩)
          · exact h
          · exact absurd rfl (hne text)
        rw [hlacks]
        rcases operand .standard c.advance with f | (_ | _)
        · simp
        · simp
        · simp
    | none =>
        have hnone (text : String) : c.headKind ≠ some (.operator text) := by
          intro hk
          rw [operator?_eq_some_iff.2 hk] at hoperator
          cases hoperator
        rw [lacksExpression_iff hampersand hnone, ← operand_eq_noMatch_iff]
        rcases operand .standard c with f | (_ | _)
        · simp
        · simp
        · simp

/-- A list does not apply exactly where no expression begins. -/
theorem expressionList_eq_noMatch_iff :
    expressionList .standard c = .ok .noMatch ↔
      LacksExpression c.headKind c.advance.headKind := by
  rw [expressionList_eq_thenLoop, Rule.thenLoop_eq_noMatch_iff, expression_eq_noMatch_iff]

/-! ## Types, ascriptions and patterns -/

/-- **A type does not apply exactly where neither a name nor a bracket stands.** -/
theorem type_eq_noMatch_iff :
    type c = .ok .noMatch ↔ ∀ k ∈ c.headKind, beginsType k = false := by
  refine ⟨fun hnone k hk => ?_, fun h => type_eq_of_avoids h⟩
  unfold beginsType
  split
  · rw [type_eq_of_identifier hk] at hnone
    cases hnone
  · rw [type_eq_of_leftBracket hk] at hnone
    split at hnone
    · split at hnone
      · cases hnone
      · cases hnone
    · cases hnone
  · rfl

/-- **An ascription does not apply exactly where no colon stands.** -/
theorem typeAscription_eq_noMatch_iff :
    typeAscription c = .ok .noMatch ↔ c.headKind ≠ some (.punctuator .colon) := by
  have hascribed (isInout : Bool) (start : Cursor) :
      ascribedType isInout start c ≠ .ok .noMatch := by
    unfold ascribedType
    split
    · intro h
      cases h
    · intro h
      cases h
  rw [ne_eq, ← isPunctuator_iff, typeAscription]
  split
  · next hcolon =>
      refine iff_of_false ?_ (not_not_intro hcolon)
      split
      · exact hascribed true _
      · exact hascribed false _
  · next hcolon => simp [hcolon]

/-- **A pattern does not apply exactly where no name stands.** -/
theorem pattern_eq_noMatch_iff :
    pattern c = .ok .noMatch ↔ ∀ k ∈ c.headKind, k.name? = none := by
  rw [← identifier?_eq_none_iff, pattern]
  cases c.identifier? true with
  | none => simp
  | some name =>
      rcases typeAscription c.advance with f | (_ | _)
      · simp
      · simp
      · simp

/-! ## The standard layer -/

/-- **The rules tell the two ways not to match apart.**  Each rule of the standard layer does not
apply exactly where its first tokens say so; it fails only further on, behind a token that commits
it. -/
theorem tellsApart_standard :
    Rule.TellsApart (expression .standard) LacksExpression commitsOperand ∧
      Rule.TellsApart (expressionList .standard) LacksExpression commitsList ∧
      Rule.TellsApart (operand .standard) (fun first _ => LacksOperand first) commitsOperand ∧
      Rule.TellsApart pattern (fun first _ => ∀ k ∈ first, k.name? = none) commitsAscription ∧
      Rule.TellsApart typeAscription (fun first _ => first ≠ some (.punctuator .colon))
        commitsAscription ∧
      Rule.TellsApart type (fun first _ => ∀ k ∈ first, beginsType k = false) commitsType := by
  refine ⟨?_, ?_, ?_, ?_, ?_, ?_⟩
  · exact Rule.tellsApart_of localAt_expression_standard failsBehind_expression
      fun c => expression_eq_noMatch_iff
  · exact Rule.tellsApart_of localAt_expressionList_standard failsBehind_expressionList
      fun c => expressionList_eq_noMatch_iff
  · exact Rule.tellsApart_of localAt_operand_standard failsBehind_operand
      fun c => operand_eq_noMatch_iff
  · exact Rule.tellsApart_of localAt_pattern failsBehind_pattern fun c => pattern_eq_noMatch_iff
  · exact Rule.tellsApart_of localAt_typeAscription failsBehind_typeAscription
      fun c => typeAscription_eq_noMatch_iff
  · exact Rule.tellsApart_of localAt_type failsBehind_type fun c => type_eq_noMatch_iff

/-- In `f(f,& f` the list inside the parenthesis has to go on behind its comma, and the name does
not follow the ampersand directly.  The rule for expressions fails at the ampersand, and does not
apply if it starts there. -/
theorem tellsApart_standard_call :
    let token (k : Kind) : Token := ⟨k, 0, 0, .start⟩
    let name := token (.identifier (.plain "f"))
    let tokens := #[name, token (.punctuator .leftParen), name, token (.punctuator .comma),
      token (.punctuator .ampersand), token (.whitespace " "), name]
    expression .standard (.atPosition tokens 0) = .error (.expected .expression 4) ∧
      (∃ i k, i < 4 ∧ Token.kindAt tokens i = some k ∧ commitsOperand k = true) ∧
      expression .standard (.atPosition tokens 4) = .ok .noMatch := by
  intro token name tokens
  have herror : expression .standard (.atPosition tokens 0) = .error (.expected .expression 4) := by
    cbv
  obtain ⟨h, -⟩ := tellsApart_standard
  obtain ⟨_, _, hsame, -, -, i, k, -, hlt, hk, hcommits⟩ := h.committed tokens 0 _ herror
  cases hsame
  refine ⟨herror, ⟨i, k, hlt, hk, hcommits⟩, (h.noMatch_iff tokens 4).2 (.ampersand ?_)⟩
  intro k hk
  cases hk
  rfl

end Grammar

end ExprFront
