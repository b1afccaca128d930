/-
# Parse errors

A rule of the grammar fails by naming what it expected and the index of the token where it expected
it.  Reported to a reader that becomes a `ParseError`, which says what stands there instead and
where that is.  An error of the lexical level can be passed on as a parse error as well, and a layer
of operands may fail with an error in words of its own: `Failure` has both ways to fail.
-/
import ExprFront.Cursor
import ExprFront.Token.Error
import ExprFront.Grammar.Outcome

namespace ExprFront

/-! ## What can be expected -/

/-- The constructs that an error can ask for. -/
inductive Production where
  | expression | pattern | typeAscription | type | memberName | closingParen | closingBracket
  | endOfInput
  deriving DecidableEq, Repr

/-- The name of a construct in a message. -/
def Production.text : Production → String
  | .expression => "expression"
  | .pattern => "pattern"
  | .typeAscription => "type annotation"
  | .type => "type"
  | .memberName => "member name"
  | .closingParen => "`)`"
  | .closingBracket => "`]`"
  | .endOfInput => "end of input"

/-! ## Reported errors -/

/-- Why a text cannot be parsed. -/
inductive ParseCause where
  /-- A construct was expected where a token of another kind stands. -/
  | expected (production : Production) (found : Kind)
  /-- The text cannot even be split into tokens. -/
  | lexical (cause : LexicalCause)
  /-- Whatever a layer objects to, in its own words; it may name a construct that it expected. -/
  | own (message : String) (production? : Option Production)
  deriving DecidableEq, Repr

/-- The wording of a cause. -/
def ParseCause.message : ParseCause → String
  | .expected production found => s!"expected {production.text}, found {found.describe}"
  | .lexical cause => cause.message
  | .own message _ => message

/-- A cause and the location it is reported at. -/
structure ParseError where
  cause : ParseCause
  location : Location
  deriving DecidableEq, Repr

namespace ParseError

/-- The wording of an error's cause. -/
def message (e : ParseError) : String := e.cause.message

/-- What was expected, if the error says so. -/
def expected? (e : ParseError) : Option Production :=
  match e.cause with
  | .expected production _ => some production
  | .lexical _ => none
  | .own _ production? => production?

/-- The line that reports an error. -/
def display (e : ParseError) : String :=
  s!"Parse error at line {e.location.line}, column {e.location.column}: {e.message}"

/-- An error of the lexical level keeps its cause and its location. -/
def ofLexical (e : LexicalError) : ParseError := ⟨.lexical e.cause, e.location⟩

/-- The error that asks for a construct at the cursor.  Behind the last token it is reported as the
end of input, where the last token ends. -/
def expectedAt (production : Production) (c : Cursor) : ParseError :=
  match c.current with
  | some t => ⟨.expected production t.kind, t.span.location⟩
  | none => ⟨.expected production .endOfInput, c.endLocation⟩

end ParseError

/-! ## Failing rules -/

/-- Why a rule fails for good. -/
inductive Failure where
  /-- It expected a construct at the token with the index. -/
  | expected (production : Production) (position : Nat)
  /-- It passes on an error that is worded and located already. -/
  | own (error : ParseError)
  deriving DecidableEq, Repr

namespace Failure

/-- The failure to find a construct at the cursor. -/
def expecting (production : Production) (c : Cursor) : Failure := .expected production c.position

/-- The error that reports a failure among the tokens.  One that is worded already is reported as it
is. -/
def report (f : Failure) (tokens : Array Token) : ParseError :=
  match f with
  | .expected production position => .expectedAt production (.atPosition tokens position)
  | .own error => error

/-- A failure at a cursor is reported at that cursor. -/
theorem report_expecting (production : Production) (c : Cursor) :
    (expecting production c).report c.tokens = .expectedAt production c := by
  have hc : Cursor.atPosition c.tokens c.position = c := by
    cases c with
    | mk tokens position position_le => simp [Cursor.atPosition, Nat.min_eq_left position_le]
  simp [report, expecting, hc]

/-- An error of a rule's own is reported as it is, whatever the tokens are. -/
@[simp]
theorem report_own (error : ParseError) (tokens : Array Token) :
    (own error).report tokens = error := rfl

end Failure

/-- What a rule answers at a cursor: an outcome, or a failure for good. -/
abbrev RuleResult (α : Type) := Except Failure (Outcome α)

/-- A grammar rule. -/
abbrev Rule (α : Type) := Cursor → RuleResult α

/-- The value and the token count of a rule that has to match: where it does not apply, the
construct was expected at the cursor. -/
def RuleResult.required {α : Type} (r : RuleResult α) (production : Production) (c : Cursor) :
    Except Failure (α × Nat) :=
  match r with
  | .ok (.matched v n) => .ok (v, n)
  | .ok .noMatch => .error (.expecting production c)
  | .error f => .error f

/-! ## Results with another value -/

namespace RuleResult

variable {α β : Type} {r : RuleResult α} {g : α → β}

/-- With another value a match is a match. -/
theorem map_eq_matched_iff {v : β} {n : Nat} :
    r.map (·.map g) = .ok (.matched v n) ↔ ∃ u, r = .ok (.matched u n) ∧ g u = v := by
  constructor
  · intro h
    rcases r with f | ⟨u, m⟩ | _ <;> cases h
    exact ⟨u, rfl, rfl⟩
  · rintro ⟨u, rfl, rfl⟩
    rfl

/-- With another value what does not apply does not apply. -/
theorem map_eq_noMatch_iff : r.map (·.map g) = .ok .noMatch ↔ r = .ok .noMatch := by
  rcases r with f | ⟨u, m⟩ | _ <;> simp [Except.map]

/-- With another value a failure is the same failure. -/
theorem map_eq_error_iff {f : Failure} : r.map (·.map g) = .error f ↔ r = .error f := by
  rcases r with f' | ⟨u, m⟩ | _ <;> simp [Except.map]

end RuleResult

end ExprFront
