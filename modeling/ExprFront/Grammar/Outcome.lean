/-
# Outcomes of rules

A rule that runs at a cursor either matches, with a value and the number of tokens it read, or does
not apply there.  A rule may also fail for good, which is not an outcome but an error.
-/

namespace ExprFront

/-- A match with its token count, or no match. -/
inductive Outcome (α : Type) where
  | matched (value : α) (consumed : Nat)
  | noMatch
  deriving DecidableEq, Repr

namespace Outcome

variable {α β : Type}

/-- Whether the rule matched. -/
def isMatched : Outcome α → Bool
  | .matched _ _ => true
  | .noMatch => false

/-- Whether the rule did not apply. -/
def isNoMatch (o : Outcome α) : Bool := !o.isMatched

/-- How many tokens a match read. -/
def consumed? : Outcome α → Option Nat
  | .matched _ n => some n
  | .noMatch => none

/-- The value of a match. -/
def value? : Outcome α → Option α
  | .matched v _ => some v
  | .noMatch => none

/-- The value and the token count of a match. -/
def toOption : Outcome α → Option (α × Nat)
  | .matched v n => some (v, n)
  | .noMatch => none

/-- The same outcome with another value; the token count stays. -/
def map (f : α → β) : Outcome α → Outcome β
  | .matched v n => .matched (f v) n
  | .noMatch => .noMatch

@[simp]
theorem map_matched (f : α → β) (v : α) (n : Nat) : (matched v n).map f = matched (f v) n := rfl

@[simp]
theorem map_noMatch (f : α → β) : (noMatch : Outcome α).map f = noMatch := rfl

end Outcome

end ExprFront
