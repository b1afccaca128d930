/-
# Parsing sessions

A session holds tokens, a live position among them and a layer of operands.  An entry point runs a
rule at the position, moves on by the tokens that the rule read, and turns a rule that does not
apply into an error.  What fails leaves the session as it was.  A turn holds the events that the
operation reports: that the position moved, or that parsing failed.
-/
import ExprFront.Grammar.Operand
import ExprFront.Grammar.Pattern
import ExprFront.Token.Stream

namespace ExprFront

/-! ## Events -/

/-- What a session reports. -/
inductive Event where
  /-- The position, then the number of tokens by which it was told to move. -/
  | advance (position consumed : Nat)
  /-- An operation ended with the error. -/
  | failed (error : ParseError)
  deriving DecidableEq, Repr

/-- An event on a line: its level, its name and its fields.  The format is one of this library; what
subscribes to events may write them in another one, with a time for instance. -/
def Event.text : Event → String
  | .advance position consumed => s!"TRACE advance pos={position} consumed={consumed}"
  | .failed error =>
      s!"DEBUG parse failed line={error.location.line} column={error.location.column} " ++
        s!"err={error.display}"

/-! ## Sessions -/

/-- Tokens, the position that comes next, and the layer that reads operands. -/
structure Session where
  layer : Layer
  tokens : Array Token
  position : Nat

/-- The tokens with an end of input behind them, unless they end with one already.  It is placed
where the last token ends. -/
def Token.withEnd (tokens : List Token) : List Token :=
  match tokens.getLast? with
  | none => [⟨.endOfInput, ⟨0, 0, .start⟩⟩]
  | some t =>
      if t.isEnd then tokens
      else tokens ++ [⟨.endOfInput, ⟨t.span.stop, t.span.stop, t.endLocation⟩⟩]

/-- What an operation leads to: its result, the session behind it and what it reports, in order. -/
structure Turn (α : Type) where
  result : Except ParseError α
  session : Session
  events : List Event

/-- The same turn with another value. -/
def Turn.map {α β : Type} (f : α → β) (t : Turn α) : Turn β :=
  ⟨t.result.map f, t.session, t.events⟩

/-- A way into the grammar: a rule over any layer, and what is missing where it does not apply. -/
structure Entry (α : Type) where
  rule : Layer → Rule α
  production : Production

namespace Entry

/-- One expression. -/
def expression : Entry Expression := ⟨Grammar.expression, .expression⟩

/-- One or more expressions with commas between them. -/
def expressionList : Entry (List Expression) := ⟨Grammar.expressionList, .expression⟩

/-- A name with or without a type ascription. -/
def pattern : Entry Pattern := ⟨fun _ => Grammar.pattern, .pattern⟩

/-- A type ascription, its colon included. -/
def typeAscription : Entry Ascription := ⟨fun _ => Grammar.typeAscription, .typeAscription⟩

end Entry

namespace Session

/-- A session at the first of the tokens. -/
def start (layer : Layer) (tokens : List Token) : Session :=
  ⟨layer, (Token.withEnd tokens).toArray, 0⟩

/-- The cursor at the live position. -/
def cursor (s : Session) : Cursor := .atPosition s.tokens s.position

/-- The token at the live position. -/
def peek (s : Session) : Option Token := s.cursor.current

/-- Whether the live position is at the end of input. -/
def isAtEnd (s : Session) : Bool := s.cursor.head.isNone

/-! ## Operations -/

/-- Moves on by `n` tokens, but not past the last one, and answers `value`. -/
def advance {α : Type} (s : Session) (value : α) (n : Nat) : Turn α :=
  if n = 0 then ⟨.ok value, s, []⟩
  else
    ⟨.ok value, { s with position := min (s.position + n) (s.tokens.size - 1) },
      [.advance s.position n]⟩

/-- Fails with the error. -/
def fail {α : Type} (s : Session) (error : ParseError) : Turn α :=
  ⟨.error error, s, [.failed error]⟩

/-- Runs the rule of an entry at the live position and commits to its outcome. -/
def parse {α : Type} (s : Session) (entry : Entry α) : Turn α :=
  match entry.rule s.layer s.cursor with
  | .ok (.matched value n) => s.advance value n
  | .ok .noMatch => s.fail (.expectedAt entry.production s.cursor)
  | .error f => s.fail (f.report s.tokens)

/-- Moves past the trivia at the live position. -/
def skipTrivia (s : Session) : Turn Unit :=
  s.advance () (s.cursor.skipTrivia.since s.cursor)

/-- Fails unless the live position is at the end of input. -/
def expectEnd (s : Session) : Turn Unit :=
  if s.isAtEnd then ⟨.ok (), s, []⟩ else s.fail (.expectedAt .endOfInput s.cursor)

end Session

/-! ## Runs of operations -/

/-- The operations of a session. -/
inductive Operation where
  | expression | expressionList | pattern | typeAscription | skipTrivia | expectEnd
  deriving DecidableEq, Repr

/-- What an operation answers when it succeeds. -/
inductive Node where
  | expression (e : Expression)
  | expressionList (es : List Expression)
  | pattern (p : Pattern)
  | typeAscription (a : Ascription)
  | nothing

namespace Session

/-- Carries out one operation. -/
def perform (s : Session) : Operation → Turn Node
  | .expression => (s.parse .expression).map .expression
  | .expressionList => (s.parse .expressionList).map .expressionList
  | .pattern => (s.parse .pattern).map .pattern
  | .typeAscription => (s.parse .typeAscription).map .typeAscription
  | .skipTrivia => s.skipTrivia.map fun _ => .nothing
  | .expectEnd => s.expectEnd.map fun _ => .nothing

/-- Carries out the operations in order, each in the session that the one before it left. -/
def run (s : Session) : List Operation → List (Turn Node)
  | [] => []
  | op :: rest => s.perform op :: (s.perform op).session.run rest

end Session

/-! ## Whole sources -/

/-- The node of a source that holds one such node and trivia around it. -/
def Entry.parseTokens {α : Type} (entry : Entry α) (tokens : List Token) : Except ParseError α :=
  let opened := (Session.start .standard tokens).skipTrivia
  let turn := opened.session.parse entry
  match turn.result with
  | .ok node => (turn.session.skipTrivia.session.expectEnd.result).map fun _ => node
  | .error e => .error e

/-- The node of a source text that holds one such node and trivia around it. -/
def Entry.parseSource {α : Type} (entry : Entry α) (source : String) : Except ParseError α :=
  match Token.tokenize source with
  | .ok tokens => entry.parseTokens tokens
  | .error e => .error (.ofLexical e)

end ExprFront
