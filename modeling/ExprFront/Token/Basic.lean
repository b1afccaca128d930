/-
# Tokens

A token is a kind and the span of source text that it covers.  Blanks and comments are tokens too,
because the grammar cares about what stands directly beside what.  The payload of a kind is enough
to write the token again: `Kind.text` is that rendering, `Token.endLocation` the location that the
rendering reaches.
-/
import ExprFront.Location
import ExprFront.Token.Keyword
import ExprFront.Token.Punctuator
import ExprFront.Token.Quoted

namespace ExprFront

/-! ## Payloads -/

/-- A name, written plainly or between backticks. -/
structure Identifier where
  name : String
  backticked : Bool
  deriving DecidableEq, Repr, Inhabited

namespace Identifier

/-- A name written plainly. -/
def plain (name : String) : Identifier := ⟨name, false⟩

/-- The source text of a name. -/
def text (i : Identifier) : String :=
  if i.backticked then "`" ++ i.name ++ "`" else i.name

end Identifier

/-- A literal.  Numbers keep the text that spelled them; a string keeps its value. -/
inductive Literal where
  | integer (text : String)
  | floating (text : String)
  | string (value : String)
  | boolean (value : Bool)
  | nil
  deriving DecidableEq, Repr

/-- The source text of a literal. -/
def Literal.text : Literal → String
  | .integer text => text
  | .floating text => text
  | .string value => String.ofList ('"' :: Quoted.encode value.toList ++ ['"'])
  | .boolean true => "true"
  | .boolean false => "false"
  | .nil => "nil"

/-! ## Kinds -/

/-- What a token is. -/
inductive Kind where
  | identifier (name : Identifier)
  | keyword (word : Keyword)
  | literal (value : Literal)
  | operator (text : String)
  | punctuator (mark : Punctuator)
  | whitespace (text : String)
  | comment (text : String)
  | endOfInput
  deriving DecidableEq, Repr

namespace Kind

/-- The source text of a token of this kind; the end of input has none. -/
def text : Kind → String
  | .identifier name => name.text
  | .keyword word => word.spelling
  | .literal value => value.text
  | .operator text => text
  | .punctuator mark => mark.symbol
  | .whitespace text => text
  | .comment text => text
  | .endOfInput => ""

/-- What an error message calls a token of this kind. -/
def describe : Kind → String
  | .endOfInput => "end of input"
  | .whitespace _ => "whitespace"
  | .comment _ => "comment"
  | kind => "`" ++ kind.text ++ "`"

/-- Whitespace and comments. -/
def isTrivia : Kind → Bool
  | .whitespace _ => true
  | .comment _ => true
  | _ => false

/-- The end of the input. -/
def isEnd : Kind → Bool
  | .endOfInput => true
  | _ => false

/-- The kind of a word: one of the three word literals, a keyword or a name. -/
def ofWord (word : String) : Kind :=
  if word = "true" then .literal (.boolean true)
  else if word = "false" then .literal (.boolean false)
  else if word = "nil" then .literal .nil
  else
    match Keyword.ofWord? word with
    | some k => .keyword k
    | none => .identifier (.plain word)

/-- The kind of a run of operator characters: a mark with a meaning of its own, or an operator. -/
def ofOperatorRun (run : List Char) : Kind :=
  match Punctuator.ofOperatorRun? run with
  | some mark => .punctuator mark
  | none => .operator (String.ofList run)

/-- The source text of a sequence of tokens. -/
def textOf (kinds : List Kind) : String := String.join (kinds.map text)

/-- A word is rendered as it was spelled. -/
theorem text_ofWord (word : String) : (ofWord word).text = word := by
  unfold ofWord
  split
  · next h => simp [text, Literal.text, h]
  split
  · next h => simp [text, Literal.text, h]
  split
  · next h => simp [text, Literal.text, h]
  split
  · next k h => simpa [text] using Keyword.spelling_of_ofWord? h
  · simp [text, Identifier.text, Identifier.plain]

/-- A run of operator characters is rendered as it was spelled. -/
theorem text_ofOperatorRun (run : List Char) : (ofOperatorRun run).text.toList = run := by
  unfold ofOperatorRun
  split
  · next mark h => exact Punctuator.symbol_of_ofOperatorRun? h
  · simp [text]

end Kind

/-! ## Tokens -/

/-- A kind of token and the part of the source that it covers. -/
structure Token where
  kind : Kind
  span : Span
  deriving DecidableEq, Repr

namespace Token

/-- The source text of a token. -/
def text (t : Token) : String := t.kind.text

/-- Whether the token is whitespace or a comment. -/
def isTrivia (t : Token) : Bool := t.kind.isTrivia

/-- Whether the token marks the end of input. -/
def isEnd (t : Token) : Bool := t.kind.isEnd

/-- The location behind the last character of the token's rendering. -/
def endLocation (t : Token) : Location := t.span.location.after t.text.toList

end Token

end ExprFront
