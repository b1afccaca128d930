/-
# Kinds that some text spells

A kind is valid if its payload has the shape that the kind requires.  Words and runs of operator
characters can be of several kinds each: what they spell is a valid kind, and a valid kind of that
category is the one that its own text spells.
-/
import Mathlib.Data.List.Infix
import ExprFront.Proofs.Lexeme.Beginning

namespace ExprFront

open Spelling

/-! ## Categories -/

/-- The classes of tokens that their first characters tell apart. -/
inductive Category where
  | word | backticked | number | string | operatorRun | mark | whitespace | comment | endOfInput
  deriving DecidableEq, Repr

/-- The marks that are runs of operator characters. -/
def Punctuator.isOperatorRun : Punctuator → Bool
  | .ampersand => true
  | .equal => true
  | .question => true
  | .arrow => true
  | _ => false

/-- The category of a kind.  The word literals and the keywords are words as names are. -/
def Kind.category : Kind → Category
  | .identifier name => if name.backticked then .backticked else .word
  | .keyword _ => .word
  | .literal (.integer _) => .number
  | .literal (.floating _) => .number
  | .literal (.string _) => .string
  | .literal (.boolean _) => .word
  | .literal .nil => .word
  | .operator _ => .operatorRun
  | .punctuator mark => if mark.isOperatorRun then .operatorRun else .mark
  | .whitespace _ => .whitespace
  | .comment _ => .comment
  | .endOfInput => .endOfInput

/-- Whether the kind is a comment up to the end of its line. -/
def Kind.isLineComment : Kind → Bool
  | .comment text => ['/', '/'].isPrefixOf text.toList
  | _ => false

/-! ## Validity -/

/-- The words that are literals. -/
def wordLiterals : List String := ["true", "false", "nil"]

/-- A name is valid as a token if it is a word, and between backticks any word is.  A plain name is
neither a keyword nor a word literal. -/
def Identifier.Valid (i : Identifier) : Prop :=
  IsWord i.name.toList ∧
    (i.backticked = false → i.name ∉ wordLiterals ∧ ∀ k : Keyword, k.spelling ≠ i.name)

/-- The numbers have the shape of numbers; every text is the value of a string. -/
def Literal.Valid : Literal → Prop
  | .integer text => IsNumeral text.toList
  | .floating text => IsFraction text.toList
  | _ => True

/-- The payload of the kind has the shape that the kind requires. -/
def Kind.Valid : Kind → Prop
  | .identifier name => name.Valid
  | .literal value => value.Valid
  | .operator text => IsOperator text.toList
  | .whitespace text => IsWhitespace text.toList
  | .comment text => IsLineComment text.toList ∨ IsBlockComment text.toList
  | _ => True

/-! ## Kinds of words -/

/-- A keyword is spelled by a word. -/
theorem Keyword.isWord_spelling (k : Keyword) : IsWord k.spelling.toList := by
  cases k with
  | reserved word => cases word <;> decide
  | contextual word => cases word <;> decide

/-- No keyword is spelled like a word literal. -/
theorem Keyword.spelling_notMem_wordLiterals (k : Keyword) : k.spelling ∉ wordLiterals := by
  cases k with
  | reserved word => cases word <;> decide
  | contextual word => cases word <;> decide

/-- No keyword is found for a word that none is spelled like. -/
theorem Keyword.ofWord?_eq_none_iff {word : String} :
    Keyword.ofWord? word = none ↔ ∀ k : Keyword, k.spelling ≠ word := by
  rw [Keyword.ofWord?, List.find?_eq_none]
  constructor
  · intro h k hk
    exact h k (Keyword.mem_all k) (by simp [hk])
  · intro h k _
    simpa using h k

/-- A word is read as a word literal, as a keyword or as a valid name. -/
theorem Kind.valid_ofWord {run : List Char} (h : IsWord run) :
    (Kind.ofWord (String.ofList run)).Valid ∧
      (Kind.ofWord (String.ofList run)).category = .word := by
  unfold Kind.ofWord
  split
  · exact ⟨trivial, rfl⟩
  split
  · exact ⟨trivial, rfl⟩
  split
  · exact ⟨trivial, rfl⟩
  split
  · exact ⟨trivial, rfl⟩
  · next htrue hfalse hnil _ hnone =>
      have hkeyword := Keyword.ofWord?_eq_none_iff.1 hnone
      refine ⟨⟨by simpa [Identifier.plain] using h, fun _ => ⟨?_, hkeyword⟩⟩, rfl⟩
      simp [wordLiterals, Identifier.plain, htrue, hfalse, hnil]

/-- A valid plain name is read as that name. -/
theorem Kind.ofWord_of_valid {word : String} (h : (Identifier.plain word).Valid) :
    Kind.ofWord word = .identifier (.plain word) := by
  obtain ⟨hliteral, hkeyword⟩ : word ∉ wordLiterals ∧ ∀ k : Keyword, k.spelling ≠ word := h.2 rfl
  simp only [wordLiterals, List.mem_cons, List.not_mem_nil, or_false, not_or] at hliteral
  rw [Kind.ofWord, if_neg hliteral.1, if_neg hliteral.2.1, if_neg hliteral.2.2,
    Keyword.ofWord?_eq_none_iff.2 hkeyword]

/-- A keyword is read as that keyword. -/
theorem Kind.ofWord_spelling (k : Keyword) : Kind.ofWord k.spelling = .keyword k := by
  have h := k.spelling_notMem_wordLiterals
  simp only [wordLiterals, List.mem_cons, List.not_mem_nil, or_false, not_or] at h
  rw [Kind.ofWord, if_neg h.1, if_neg h.2.1, if_neg h.2.2, Keyword.ofWord?_spelling]

/-- A valid kind of a word is spelled by a word and read back from it. -/
theorem Kind.ofWord_text {k : Kind} (hk : k.Valid) (hword : k.category = .word) :
    IsWord k.text.toList ∧ Kind.ofWord k.text = k := by
  cases k with
  | identifier name =>
      obtain ⟨name, backticked⟩ := name
      cases backticked with
      | true => cases hword
      | false => exact ⟨hk.1, Kind.ofWord_of_valid hk⟩
  | keyword word => exact ⟨word.isWord_spelling, Kind.ofWord_spelling word⟩
  | literal value =>
      cases value with
      | integer text => cases hword
      | floating text => cases hword
      | string value => cases hword
      | boolean value => cases value <;> exact ⟨by decide, rfl⟩
      | nil => exact ⟨by decide, rfl⟩
  | operator text => cases hword
  | punctuator mark => cases mark <;> cases hword
  | whitespace text => cases hword
  | comment text => cases hword
  | endOfInput => cases hword

/-! ## Kinds of operator runs -/

/-- A run of operator characters is read as one of four marks or as a valid operator. -/
theorem Kind.valid_ofOperatorRun {run : List Char} (h : IsOperatorRun run) :
    (Kind.ofOperatorRun run).Valid ∧ (Kind.ofOperatorRun run).category = .operatorRun := by
  unfold Kind.ofOperatorRun
  split
  · next mark hmark =>
      refine ⟨trivial, ?_⟩
      unfold Punctuator.ofOperatorRun? at hmark
      split at hmark
      all_goals cases hmark
      all_goals rfl
  · next hnone =>
      refine ⟨⟨?_, ?_⟩, rfl⟩
      · simpa using h
      · simpa using (ofOperatorRun?_eq_none_iff run).1 hnone

/-- A valid kind of an operator run is spelled by such a run and read back from it. -/
theorem Kind.ofOperatorRun_text {k : Kind} (hk : k.Valid) (hrun : k.category = .operatorRun) :
    IsOperatorRun k.text.toList ∧ Kind.ofOperatorRun k.text.toList = k := by
  cases k with
  | identifier name =>
      obtain ⟨name, backticked⟩ := name
      cases backticked <;> cases hrun
  | keyword word => cases hrun
  | literal value => cases value <;> cases hrun
  | operator text =>
      refine ⟨hk.1, ?_⟩
      rw [Kind.text, Kind.ofOperatorRun, (ofOperatorRun?_eq_none_iff _).2 hk.2,
        String.ofList_toList]
  | punctuator mark =>
      cases mark with
      | ampersand | equal | question | arrow =>
          exact ⟨⟨by decide +kernel, List.all_eq_true.1 (by decide +kernel), by decide +kernel,
            by decide +kernel⟩, by decide +kernel⟩
      | _ => cases hrun
  | whitespace text => cases hrun
  | comment text => cases hrun
  | endOfInput => cases hrun

end ExprFront
