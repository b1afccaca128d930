/-
# Punctuators

The fixed marks of the language.  Twelve of them are single characters that always stand for
themselves; `&`, `=`, `?` and `->` are runs of operator characters with a meaning of their own.
-/

namespace ExprFront

/-- The structural marks. -/
inductive Punctuator where
  | leftParen | rightParen | leftBracket | rightBracket | leftBrace | rightBrace
  | dot | comma | colon | semicolon | equal | at | hash | ampersand | arrow | question
  deriving DecidableEq, Repr

namespace Punctuator

/-- The source text of a mark. -/
def symbol : Punctuator → String
  | .leftParen => "("
  | .rightParen => ")"
  | .leftBracket => "["
  | .rightBracket => "]"
  | .leftBrace => "\x7b"
  | .rightBrace => "\x7d"
  | .dot => "."
  | .comma => ","
  | .colon => ":"
  | .semicolon => ";"
  | .equal => "="
  | .at => "@"
  | .hash => "#"
  | .ampersand => "&"
  | .arrow => "->"
  | .question => "?"

/-- What listings call a mark. -/
def name : Punctuator → String
  | .leftParen => "LeftParen"
  | .rightParen => "RightParen"
  | .leftBracket => "LeftBracket"
  | .rightBracket => "RightBracket"
  | .leftBrace => "LeftBrace"
  | .rightBrace => "RightBrace"
  | .dot => "Dot"
  | .comma => "Comma"
  | .colon => "Colon"
  | .semicolon => "Semicolon"
  | .equal => "Equal"
  | .at => "At"
  | .hash => "Hash"
  | .ampersand => "Ampersand"
  | .arrow => "Arrow"
  | .question => "Question"

/-! ## Reading marks -/

/-- The mark that the character is by itself, whatever follows it. -/
def ofChar? : Char → Option Punctuator
  | '(' => some .leftParen
  | ')' => some .rightParen
  | '[' => some .leftBracket
  | ']' => some .rightBracket
  | '{' => some .leftBrace
  | '}' => some .rightBrace
  | '.' => some .dot
  | ',' => some .comma
  | ':' => some .colon
  | ';' => some .semicolon
  | '@' => some .at
  | '#' => some .hash
  | _ => none

/-- The mark that a whole run of operator characters is. -/
def ofOperatorRun? : List Char → Option Punctuator
  | ['&'] => some .ampersand
  | ['='] => some .equal
  | ['?'] => some .question
  | ['-', '>'] => some .arrow
  | _ => none

/-- A mark made of one character is spelled by that character. -/
theorem symbol_of_ofChar? {c : Char} {p : Punctuator} (h : ofChar? c = some p) :
    p.symbol.toList = [c] := by
  unfold ofChar? at h
  split at h <;> simp_all <;> subst h <;> decide +kernel

/-- A mark made of operator characters is spelled by its run. -/
theorem symbol_of_ofOperatorRun? {run : List Char} {p : Punctuator}
    (h : ofOperatorRun? run = some p) : p.symbol.toList = run := by
  unfold ofOperatorRun? at h
  split at h <;> simp_all <;> subst h <;> decide +kernel

end Punctuator

end ExprFront
