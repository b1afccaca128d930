/-
# How a lexeme begins

The first character of a text, and for comments the second, decide what is read.  `Begins` states
that choice as a list of rules, one for each form of lexeme, and `first_eq_ok_iff` says that the
rules are what `Lexeme.first` does.  The category of a token is the part of the choice that its
first characters show: `Begins.startsLike` reads it off them.
-/
import ExprFront.Proofs.Lexeme.Munch

namespace ExprFront

/-! ## Special characters -/

/-- The characters that begin a lexeme other than a word or a number. -/
def isSpecial (c : Char) : Bool :=
  isBlank c || isOperatorChar c || (Punctuator.ofChar? c).isSome || c == '"' || c == '\x60'

/-- No special character stands in a word. -/
theorem continuesWord_eq_false_of_isSpecial {c : Char} (h : isSpecial c = true) :
    continuesWord c = false := by
  simp only [isSpecial, isBlank, isOperatorChar, Bool.or_eq_true, beq_iff_eq, or_assoc] at h
  rcases h with rfl | rfl | rfl | rfl | h
  · decide
  · decide
  · decide
  · decide
  rcases h with rfl | rfl | rfl | rfl | rfl | rfl | rfl | h
  iterate 7 decide
  rcases h with rfl | rfl | rfl | rfl | rfl | rfl | rfl | h
  iterate 7 decide
  rcases h with h | rfl | rfl
  · unfold Punctuator.ofChar? at h
    split at h
    iterate 12 decide
    cases h
  · decide
  · decide

/-- The digits end at `9`. -/
theorem toNat_le_of_isDigit {c : Char} (h : c.isDigit = true) : c.toNat ≤ 57 :=
  UInt32.le_iff_toNat_le.1 (of_decide_eq_true ((Bool.and_eq_true _ _).mp h).2)

/-- A digit is an ASCII character. -/
theorem toNat_lt_of_isDigit {c : Char} (h : c.isDigit = true) : c.toNat < 0x80 := by
  have := toNat_le_of_isDigit h
  omega

/-- A digit may stand inside a word. -/
theorem continuesWord_of_isDigit {c : Char} (h : c.isDigit = true) : continuesWord c = true := by
  simp [continuesWord, isAlphanumeric, isNumeric, toNat_lt_of_isDigit h, h]

/-- A digit begins no word. -/
theorem startsWord_eq_false_of_isDigit {c : Char} (h : c.isDigit = true) :
    startsWord c = false := by
  have hnine := toNat_le_of_isDigit h
  have halpha : c.isAlpha = false := by
    rw [Bool.eq_false_iff]
    intro halpha
    rcases (Bool.or_eq_true _ _).mp halpha with hupper | hlower
    · have : 65 ≤ c.toNat :=
        UInt32.le_iff_toNat_le.1 (of_decide_eq_true hupper).1
      omega
    · have : 97 ≤ c.toNat :=
        UInt32.le_iff_toNat_le.1 (of_decide_eq_true ((Bool.and_eq_true _ _).mp hlower).1)
      omega
  have hunderscore : c ≠ '_' := by
    rintro rfl
    simp at h
  simp [startsWord, isAlphabetic, toNat_lt_of_isDigit h, halpha, hunderscore]

/-- What begins a word is no digit. -/
theorem isDigit_eq_false_of_startsWord {c : Char} (h : startsWord c = true) :
    c.isDigit = false := by
  rw [← Bool.not_eq_true]
  intro hdigit
  rw [startsWord_eq_false_of_isDigit hdigit] at h
  cases h

/-- No operator character is a blank. -/
theorem isBlank_eq_false_of_isOperatorChar {c : Char} (h : isOperatorChar c = true) :
    isBlank c = false := by
  rw [← Bool.not_eq_true, isBlank]
  simp only [Bool.or_eq_true, beq_iff_eq, or_assoc]
  rintro (rfl | rfl | rfl | rfl) <;> cases h

/-- What may stand in a word is not special. -/
theorem isSpecial_eq_false_of_continuesWord {c : Char} (h : continuesWord c = true) :
    isSpecial c = false := by
  rw [← Bool.not_eq_true]
  intro hspecial
  rw [continuesWord_eq_false_of_isSpecial hspecial] at h
  cases h

namespace Lexeme

/-! ## The rules of the choice -/

/-- The lexeme that the text `c :: rest` begins with. -/
inductive Begins : Char → List Char → Lexeme → Prop
  | blanks {c : Char} {rest : List Char} (h : isBlank c = true) :
      Begins c rest (blanks (c :: rest))
  | lineComment (rest : List Char) :
      Begins '/' ('/' :: rest) (lineComment ('/' :: '/' :: rest))
  | blockComment {rest : List Char} {x : Lexeme}
      (h : Lexeme.blockComment ('/' :: '*' :: rest) = .ok x) : Begins '/' ('*' :: rest) x
  | string {rest : List Char} {x : Lexeme} (h : Lexeme.string rest = .ok x) : Begins '"' rest x
  | backtickedName {rest : List Char} {x : Lexeme} (h : Lexeme.backtickedName rest = .ok x) :
      Begins '\x60' rest x
  | number {c : Char} {rest : List Char} (h : c.isDigit = true) :
      Begins c rest (number (c :: rest))
  | mark {c : Char} {rest : List Char} {m : Punctuator} (h : Punctuator.ofChar? c = some m) :
      Begins c rest ⟨.punctuator m, [c]⟩
  | operator {c : Char} {rest : List Char} (h : isOperatorChar c = true)
      (hopen : opensComment c rest.head? = false) : Begins c rest (operator (c :: rest))
  | word {c : Char} {rest : List Char} (h : startsWord c = true) :
      Begins c rest (word (c :: rest))

/-- A character that is not special is read as a number, as a word or not at all. -/
theorem first_of_not_isSpecial {c : Char} (h : isSpecial c = false) (rest : List Char) :
    first c rest =
      if c.isDigit then .ok (number (c :: rest))
      else if startsWord c then .ok (word (c :: rest))
      else .error ⟨.unexpectedCharacter c, 0⟩ := by
  simp only [isSpecial, Bool.or_eq_false_iff, beq_eq_false_iff_ne, ne_eq,
    Option.isSome_eq_false_iff, Option.isNone_iff_eq_none] at h
  obtain ⟨⟨⟨⟨hblank, hop⟩, hmark⟩, hquote⟩, htick⟩ := h
  have hslash : c ≠ '/' := by
    rintro rfl
    simp [isOperatorChar] at hop
  simp [first, hblank, hop, hmark, hquote, htick, hslash]

/-- What is read is read by one of the rules. -/
theorem begins_of_first {c : Char} {rest : List Char} {x : Lexeme} (h : first c rest = .ok x) :
    Begins c rest x := by
  unfold first at h
  split at h
  · next hc => cases h; exact .blanks hc
  split at h
  · next hc =>
      obtain ⟨rfl, hrest⟩ := hc
      obtain ⟨tail, rfl⟩ := List.head?_eq_some_iff.1 hrest
      cases h
      exact .lineComment tail
  split at h
  · next hc =>
      obtain ⟨rfl, hrest⟩ := hc
      obtain ⟨tail, rfl⟩ := List.head?_eq_some_iff.1 hrest
      exact .blockComment h
  split at h
  · next hc => subst hc; exact .string h
  split at h
  · next hc => subst hc; exact .backtickedName h
  split at h
  · next hc => cases h; exact .number hc
  split at h
  · next hc => cases h; exact .mark hc
  split at h
  · next hline hblock _ _ _ _ _ hop =>
      -- The comments have been tried before, so none opens here.
      cases h
      refine .operator hop ?_
      rw [← Bool.not_eq_true, opensComment_iff]
      rintro ⟨hc, hnext | hnext⟩
      · exact hline ⟨hc, hnext⟩
      · exact hblock ⟨hc, hnext⟩
  split at h
  · next hc => cases h; exact .word hc
  · cases h

/-- An operator is read where no comment opens. -/
theorem first_of_isOperatorChar {c : Char} {rest : List Char} (h : isOperatorChar c = true)
    (hopen : opensComment c rest.head? = false) : first c rest = .ok (operator (c :: rest)) := by
  have hop := h
  simp only [isOperatorChar, Bool.or_eq_true, beq_iff_eq, or_assoc] at h
  rcases h with rfl | rfl | rfl | rfl | rfl | rfl | rfl | rfl | rfl | rfl | rfl | rfl | rfl | rfl
  · -- A slash is the one operator character that may open a comment.
    rw [← Bool.not_eq_true, opensComment_iff] at hopen
    simp only [true_and, not_or] at hopen
    simp [first, isBlank, Punctuator.ofChar?, hop, hopen]
  all_goals simp [first, isBlank, Punctuator.ofChar?, hop]

/-- A word is read where one starts. -/
theorem first_of_startsWord {c : Char} (h : startsWord c = true) (rest : List Char) :
    first c rest = .ok (word (c :: rest)) := by
  rw [first_of_not_isSpecial
    (isSpecial_eq_false_of_continuesWord (continuesWord_of_startsWord h)),
    isDigit_eq_false_of_startsWord h, if_pos h]
  rfl

/-- **The rules are the choice.** -/
theorem first_eq_ok_iff {c : Char} {rest : List Char} {x : Lexeme} :
    first c rest = .ok x ↔ Begins c rest x := by
  refine ⟨begins_of_first, fun h => ?_⟩
  cases h with
  | blanks h => simp [first, h]
  | lineComment rest => simp [first, isBlank]
  | blockComment h => simpa [first, isBlank] using h
  | string h => simpa [first, isBlank] using h
  | backtickedName h => simpa [first, isBlank] using h
  | number h =>
      rw [first_of_not_isSpecial
        (isSpecial_eq_false_of_continuesWord (continuesWord_of_isDigit h)), if_pos h]
  | mark h =>
      unfold Punctuator.ofChar? at h
      split at h
      all_goals cases h
      all_goals simp [first, isBlank, Punctuator.ofChar?]
  | operator h hopen => exact first_of_isOperatorChar h hopen
  | word h => exact first_of_startsWord h _

end Lexeme

end ExprFront
