/-
# Which tokens commit a rule

A rule that does not apply is no failure; it fails only behind a token that commits it.  For an
operand that is an opening parenthesis or a point, for a list a comma too, for an ascription its
colon and for a type its bracket.  `Rule.FailsBehind` says that a rule fails only behind such a
token, and with `failsBehind_expression` and its siblings that no rule of the standard layer fails
where it starts.

What has to follow a committing token is read from behind it on, and what is read there fails no
earlier: that is how far the rules look, `Cursor.Settles.position_le`.
-/
import ExprFront.Proofs.Grammar.Locality

namespace ExprFront

open Cursor

variable {α β : Type}

/-! ## Points of failure -/

/-- The failure is one to find a construct, at the token with the index or further on. -/
def Failure.IsBehind (f : Failure) (n : Nat) : Prop :=
  ∃ production position, f = .expected production position ∧ n ≤ position

/-- What is behind an index is behind the ones before it. -/
theorem Failure.IsBehind.mono {f : Failure} {m n : Nat} (h : f.IsBehind n) (hle : m ≤ n) :
    f.IsBehind m := by
  obtain ⟨production, position, rfl, hn⟩ := h
  exact ⟨production, position, rfl, Nat.le_trans hle hn⟩

/-- A construct that is missing at a cursor is missing at its position. -/
theorem Failure.isBehind_expecting {c : Cursor} {n : Nat} (production : Production)
    (h : n ≤ c.position) : (expecting production c).IsBehind n :=
  ⟨production, c.position, rfl, h⟩

namespace Cursor

variable {c : Cursor} {k : Kind} {commits : Kind → Bool} {f : Failure}

/-- At the cursor or further on, but before the point of the failure, a committing token stands. -/
def Committed (c : Cursor) (commits : Kind → Bool) (f : Failure) : Prop :=
  ∃ m k, (c.advanceBy m).headKind = some k ∧ commits k = true ∧
    f.IsBehind ((c.advanceBy m).position + 1)

/-- Where there is a head, one step gets further. -/
theorem position_advance (h : c.headKind = some k) : c.advance.position = c.position + 1 := by
  have hlt := remaining_advance_lt h
  simp only [remaining, advance, position_advanceBy, tokens_advanceBy] at hlt ⊢
  omega

/-- What commits stands before the failure, so the cursor does. -/
theorem Committed.isBehind (h : c.Committed commits f) : f.IsBehind (c.position + 1) := by
  obtain ⟨m, k, -, -, hf⟩ := h
  exact hf.mono (Nat.succ_le_succ (c.position_le_advanceBy m))

/-- What commits further on, commits. -/
theorem Committed.behind {n : Nat} (h : (c.advanceBy n).Committed commits f) :
    c.Committed commits f := by
  obtain ⟨m, k, hk, hcommits, hf⟩ := h
  rw [advanceBy_advanceBy] at hk hf
  exact ⟨n + m, k, hk, hcommits, hf⟩

/-- What commits, commits among more kinds. -/
theorem Committed.mono {commits' : Kind → Bool} (h : c.Committed commits f)
    (hle : ∀ k, commits k = true → commits' k = true) : c.Committed commits' f := by
  obtain ⟨m, k, hk, hcommits, hf⟩ := h
  exact ⟨m, k, hk, hle k hcommits, hf⟩

/-- The head commits what fails behind it. -/
theorem committed_of_headKind (hk : c.headKind = some k) (hcommits : commits k = true)
    (hf : f.IsBehind c.advance.position) : c.Committed commits f := by
  rw [position_advance hk] at hf
  refine ⟨0, k, ?_, hcommits, ?_⟩
  · rwa [advanceBy_zero]
  · rwa [advanceBy_zero]

/-- What settles at a cursor fails there or further on. -/
theorem Settles.isBehind {run : Cursor → Except Failure β} {result : α → Nat → Cursor → β}
    (h : c.Settles run result) (hf : run c = .error f) : f.IsBehind c.position := by
  cases h with
  | done v n hn h => cases hf.symm.trans h.self
  | failed production m hm h =>
      cases hf.symm.trans h.self
      exact Failure.isBehind_expecting production (c.position_le_advanceBy m)

end Cursor

/-- The rule fails only behind a token that commits it. -/
def Rule.FailsBehind (rule : Rule α) (commits : Kind → Bool) : Prop :=
  ∀ c f, rule c = .error f → c.Committed commits f

namespace Grammar

variable {c : Cursor} {f : Failure}

/-! ## Operands and expressions -/

/-- An opening parenthesis commits an operand, and so does a point. -/
def commitsOperand : Kind → Bool
  | .punctuator .leftParen | .punctuator .dot => true
  | _ => false

/-- An expression that has to be read fails at its cursor or further on. -/
theorem isBehind_of_required_expression
    (h : (expression .standard c).required .expression c = .error f) : f.IsBehind c.position :=
  ((localAt_expression_standard c).required .expression).isBehind h

/-- A primary fails behind its opening parenthesis. -/
theorem committed_of_primary (h : primary .standard c = .error f) :
    c.Committed commitsOperand f := by
  by_cases hk : c.headKind = some (.punctuator .leftParen)
  · refine committed_of_headKind hk rfl ?_
    rw [primary_eq_of_leftParen hk] at h
    split at h
    · split at h
      · cases h
      · cases h
        rw [← advanceBy_advance]
        exact Failure.isBehind_expecting _ (position_le_advanceBy _ _)
    · next hinner =>
        cases h
        exact isBehind_of_required_expression hinner
  · rcases primary_of_not_leftParen .standard hk with hnone | ⟨k, o, -, hone⟩
    · rw [hnone] at h
      cases h
    · rw [hone] at h
      cases h

/-- The suffix loop fails at its cursor or further on. -/
theorem isBehind_of_suffixes {o : Operand} (h : suffixes .standard o c = .error f) :
    f.IsBehind c.position :=
  (settles_suffixes o fun d _ => localAt_operand_standard d).isBehind h

/-- The suffix loop fails behind an opening parenthesis or a point. -/
theorem committed_of_suffixes {o : Operand} (h : suffixes .standard o c = .error f) :
    c.Committed commitsOperand f := by
  -- Operators commit to nothing; behind them fewer tokens remain.
  induction hn : c.remaining using Nat.strongRecOn generalizing c o with
  | _ n ih =>
      subst hn
      by_cases hturn : c.Avoids takesTurn
      · rw [suffixes_eq_of_avoids hturn] at h
        cases h
      · obtain ⟨k, hk, htakes⟩ : ∃ k, c.headKind = some k ∧ takesTurn k = true := by
          simpa [Avoids] using hturn
        unfold takesTurn at htakes
        split at htakes
        · refine committed_of_headKind hk rfl ?_
          rw [suffixes_eq_of_leftParen hk] at h
          split at h
          · next es n harguments =>
              rw [← advanceBy_advance, ← advanceBy_advance] at h
              split at h
              · exact (isBehind_of_suffixes h).mono (position_le_advanceBy _ _)
              · cases h
                exact Failure.isBehind_expecting _ (position_le_advanceBy _ _)
          · next harguments =>
              cases h
              exact (settles_arguments fun d _ => localAt_operand_standard d).isBehind harguments
        · refine committed_of_headKind hk rfl ?_
          rw [suffixes_eq_of_dot hk] at h
          split at h
          · rw [← advanceBy_advance] at h
            exact (isBehind_of_suffixes h).mono (position_le_advanceBy _ _)
          · cases h
            exact Failure.isBehind_expecting _ (Nat.le_refl _)
        · rw [suffixes_eq_of_operator hk] at h
          split at h
          · cases h
          · exact (ih _ (remaining_advance_lt hk) h rfl).behind
        · cases htakes

/-- **Operands fail only behind an opening parenthesis or a point.** -/
theorem failsBehind_operand : Rule.FailsBehind (operand .standard) commitsOperand := by
  intro c f h
  rw [operand_standard, Layer.standard_eq, primaryWithSuffixes] at h
  split at h
  · split at h
    · cases h
    · next hmore =>
        cases h
        exact (committed_of_suffixes hmore).behind
  · cases h
  · next hprimary =>
      cases h
      exact committed_of_primary hprimary

/-- **Expressions fail only behind an opening parenthesis or a point.** -/
theorem failsBehind_expression : Rule.FailsBehind (expression .standard) commitsOperand := by
  intro c f h
  unfold expression at h
  split at h
  · split at h
    · cases h
    · cases h
  · split at h
    · split at h
      · cases h
      · cases h
      · next hoperand =>
          cases h
          exact (failsBehind_operand _ _ hoperand).behind
    · split at h
      · cases h
      · next hoperand =>
          cases h
          exact failsBehind_operand _ _ hoperand

/-- A comma commits a list, and so does what commits an operand. -/
def commitsList (k : Kind) : Bool := commitsOperand k || k == .punctuator .comma

/-- The loop over further members fails behind its comma. -/
theorem committed_of_furtherMembers {done : List Expression}
    (h : furtherMembers .standard done c = .error f) : c.Committed commitsList f := by
  by_cases hcomma : c.headKind = some (.punctuator .comma)
  · refine committed_of_headKind hcomma rfl
      (Failure.IsBehind.mono ?_ c.advance.position_le_skipTrivia)
    rw [furtherMembers_eq_of_comma hcomma] at h
    split at h
    · next e n hmember =>
        have hmore := settles_furtherMembers (c := c.next.advanceBy n) (e :: done)
          fun d _ => localAt_operand_standard d
        exact (hmore.isBehind h).mono (position_le_advanceBy _ n)
    · next hmember =>
        cases h
        exact isBehind_of_required_expression hmember
  · rw [furtherMembers, dif_neg (mt isPunctuator_iff.1 hcomma)] at h
    cases h

/-- **Lists fail only behind an opening parenthesis, a point or a comma.** -/
theorem failsBehind_expressionList :
    Rule.FailsBehind (expressionList .standard) commitsList := by
  intro c f h
  unfold expressionList at h
  split at h
  · split at h
    · cases h
    · next hmore =>
        cases h
        exact (committed_of_furtherMembers hmore).behind
  · cases h
  · next hmember =>
      cases h
      refine (failsBehind_expression _ _ hmember).mono fun k hk => ?_
      rw [commitsList, hk]
      rfl

/-! ## Types, ascriptions and patterns -/

/-- A bracket commits a type. -/
def commitsType (k : Kind) : Bool := k == .punctuator .leftBracket

/-- A colon commits an ascription. -/
def commitsAscription (k : Kind) : Bool := k == .punctuator .colon

/-- A type that has to be read fails at its cursor or further on. -/
theorem isBehind_of_required_type (h : (type c).required .type c = .error f) :
    f.IsBehind c.position :=
  (((localAt_type c).mono (Nat.le_succ 1)).required .type).isBehind h

/-- **Types fail only behind a bracket.** -/
theorem failsBehind_type : Rule.FailsBehind type commitsType := by
  intro c f h
  by_cases hbegins : c.Avoids beginsType
  · rw [type_eq_of_avoids hbegins] at h
    cases h
  · obtain ⟨k, hk, hbegins⟩ : ∃ k, c.headKind = some k ∧ beginsType k = true := by
      simpa [Avoids] using hbegins
    unfold beginsType at hbegins
    split at hbegins
    · rw [type_eq_of_identifier hk] at h
      cases h
    · refine committed_of_headKind hk rfl ?_
      rw [type_eq_of_leftBracket hk] at h
      split at h
      · split at h
        · cases h
        · cases h
          rw [← advanceBy_advance]
          exact Failure.isBehind_expecting _ (position_le_advanceBy _ _)
      · next helement =>
          cases h
          exact isBehind_of_required_type helement
    · cases hbegins

/-- The end of an ascription fails where it starts or further on. -/
theorem isBehind_of_ascribedType {isInout : Bool} {start : Cursor}
    (h : ascribedType isInout start c = .error f) : f.IsBehind start.position := by
  unfold ascribedType at h
  split at h
  · cases h
  · next htype =>
      cases h
      exact isBehind_of_required_type htype

/-- **Ascriptions fail only behind a colon.** -/
theorem failsBehind_typeAscription : Rule.FailsBehind typeAscription commitsAscription := by
  intro c f h
  unfold typeAscription at h
  split at h
  · next hcolon =>
      refine committed_of_headKind (isPunctuator_iff.1 hcolon) rfl ?_
      have hnext : c.advance.position ≤ c.next.position := c.advance.position_le_skipTrivia
      split at h
      · have hfurther : c.next.position ≤ c.next.next.position :=
          Nat.le_trans (position_le_advanceBy _ 1) c.next.advance.position_le_skipTrivia
        exact (isBehind_of_ascribedType h).mono (Nat.le_trans hnext hfurther)
      · exact (isBehind_of_ascribedType h).mono hnext
  · cases h

/-- **Patterns fail only behind a colon.** -/
theorem failsBehind_pattern : Rule.FailsBehind pattern commitsAscription := by
  intro c f h
  unfold pattern at h
  split at h
  · split at h
    · cases h
    · cases h
    · next hascription =>
        cases h
        exact (failsBehind_typeAscription _ _ hascription).behind
  · cases h

end Grammar

end ExprFront
