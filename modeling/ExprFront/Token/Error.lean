/-
# Lexical errors

A text fails to split into tokens for one of seven causes, at one location.  The cause is data; its
wording is `LexicalCause.message`.
-/
import ExprFront.Location

namespace ExprFront

/-- Why no token can be read. -/
inductive LexicalCause where
  | unexpectedCharacter (c : Char)
  | unterminatedComment
  | unterminatedString
  | unterminatedEscape
  | invalidEscape (c : Char)
  | expectedName
  | unterminatedName
  deriving DecidableEq, Repr

/-- The wording of a cause. -/
def LexicalCause.message : LexicalCause → String
  | .unexpectedCharacter c => "Unexpected character: '" ++ String.singleton c ++ "'"
  | .unterminatedComment => "Unterminated block comment"
  | .unterminatedString => "Unterminated string"
  | .unterminatedEscape => "Unterminated escape sequence"
  | .invalidEscape c => "Invalid escape sequence: '\\" ++ String.singleton c ++ "'"
  | .expectedName => "Expected identifier after '`'"
  | .unterminatedName => "Unterminated backticked identifier"

/-- A cause and the number of characters of the text that precede the faulty point. -/
structure LexicalFault where
  cause : LexicalCause
  before : Nat
  deriving DecidableEq, Repr

/-- A cause and the location of the faulty point. -/
structure LexicalError where
  cause : LexicalCause
  location : Location
  deriving DecidableEq, Repr

namespace LexicalError

/-- The wording of an error's cause. -/
def message (e : LexicalError) : String := e.cause.message

/-- The line that reports an error. -/
def display (e : LexicalError) : String :=
  s!"Lexer error at line {e.location.line}, column {e.location.column}: {e.message}"

end LexicalError

end ExprFront
