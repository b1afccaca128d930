/-
# The shapes of spellings

Which texts spell a word, a number, an operator, whitespace or a comment.  Each shape is stated on
the characters of the text alone, apart from the functions that read them.  `Kind.Valid` puts the
shapes together: it says which kinds some text spells.
-/
import ExprFront.Token.Lexeme

namespace ExprFront
namespace Spelling

/-! ## Words and numbers -/

/-- A word begins with a letter or an underscore and goes on with letters, digits and
underscores. -/
def IsWord : List Char → Prop
  | [] => False
  | c :: rest => startsWord c = true ∧ ∀ d ∈ rest, continuesWord d = true

/-- A numeral begins with a digit and goes on with digits and underscores. -/
def IsNumeral : List Char → Prop
  | [] => False
  | c :: rest => c.isDigit = true ∧ ∀ d ∈ rest, isNumberChar d = true

/-- Two numerals with a point between them. -/
def IsFraction (s : List Char) : Prop :=
  ∃ whole part, s = whole ++ '.' :: part ∧ IsNumeral whole ∧ IsNumeral part

instance : DecidablePred IsWord
  | [] => inferInstanceAs (Decidable False)
  | c :: rest => decidable_of_iff (startsWord c = true ∧ rest.all continuesWord = true) (by
      rw [List.all_eq_true, IsWord])

/-- Every character of a word may stand inside one. -/
theorem IsWord.continues {s : List Char} (h : IsWord s) : ∀ c ∈ s, continuesWord c = true := by
  cases s with
  | nil => exact h.elim
  | cons c rest =>
      intro d hd
      rcases List.mem_cons.1 hd with rfl | hd
      · exact continuesWord_of_startsWord h.1
      · exact h.2 d hd

/-- Every character of a numeral is a digit or an underscore. -/
theorem IsNumeral.chars {s : List Char} (h : IsNumeral s) : ∀ c ∈ s, isNumberChar c = true := by
  cases s with
  | nil => exact h.elim
  | cons c rest =>
      intro d hd
      rcases List.mem_cons.1 hd with rfl | hd
      · simp [isNumberChar, h.1]
      · exact h.2 d hd

/-! ## Operators -/

/-- A run of operator characters in which no comment begins. -/
structure IsOperatorRun (s : List Char) : Prop where
  ne_nil : s ≠ []
  chars : ∀ c ∈ s, isOperatorChar c = true
  noLineComment : ¬ ['/', '/'] <:+: s
  noBlockComment : ¬ ['/', '*'] <:+: s

/-- An operator is such a run that is no mark with a meaning of its own. -/
def IsOperator (s : List Char) : Prop :=
  IsOperatorRun s ∧ s ∉ [['&'], ['='], ['?'], ['-', '>']]

/-- The marks that are made of operator characters are the four runs that are no operators. -/
theorem ofOperatorRun?_eq_none_iff (s : List Char) :
    Punctuator.ofOperatorRun? s = none ↔ s ∉ [['&'], ['='], ['?'], ['-', '>']] := by
  unfold Punctuator.ofOperatorRun?
  split <;> simp_all

/-! ## Whitespace and comments -/

/-- Whitespace is one blank or more. -/
def IsWhitespace (s : List Char) : Prop := s ≠ [] ∧ ∀ c ∈ s, isBlank c = true

/-- A line comment runs up to the end of its line. -/
def IsLineComment (s : List Char) : Prop :=
  ∃ body, s = '/' :: '/' :: body ∧ ∀ c ∈ body, isLineEnd c = false

/-- Whether a block comment begins or ends at the front of the text. -/
def atDelimiter : List Char → Bool
  | '/' :: '*' :: _ => true
  | '*' :: '/' :: _ => true
  | _ => false

/-- The text of an open block comment, up to and with what closes it.  The comments that begin
inside it are properly nested. -/
inductive Nested : List Char → Prop
  /-- The comment ends here. -/
  | close : Nested ['*', '/']
  /-- A character at which no comment begins or ends. -/
  | char {c : Char} {rest : List Char} (h : atDelimiter (c :: rest) = false) (tail : Nested rest) :
      Nested (c :: rest)
  /-- A comment inside the comment. -/
  | inner {body rest : List Char} (nested : Nested body) (tail : Nested rest) :
      Nested ('/' :: '*' :: (body ++ rest))

/-- A block comment is an opener and a properly nested text that closes it. -/
def IsBlockComment (s : List Char) : Prop := ∃ body, s = '/' :: '*' :: body ∧ Nested body

/-- An open comment has text up to where it closes. -/
theorem Nested.ne_nil {s : List Char} (h : Nested s) : s ≠ [] := by
  cases h <;> simp

end Spelling
end ExprFront
