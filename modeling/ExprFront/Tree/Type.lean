/-
# Types and patterns

A pattern binds a name, with or without a type ascription.  A type is a name, an array of a type or
an optional type.

Nodes are printed by listing the tokens that write them: `emit` puts those tokens in front of a
list, and `text` is the source text of the tokens of a whole node.
-/
import ExprFront.Token.Basic

namespace ExprFront

/-! ## Nodes -/

/-- A type as an ascription writes it. -/
inductive TypeExpr where
  /-- The type of that name. -/
  | named (name : Identifier)
  /-- `[Element]` -/
  | array (element : TypeExpr)
  /-- `Wrapped?` -/
  | optional (wrapped : TypeExpr)
  deriving DecidableEq, Repr

/-- `: Type` or `: inout Type`.  The colon belongs to the ascription. -/
structure Ascription where
  type : TypeExpr
  isInout : Bool
  deriving DecidableEq, Repr

/-- `name` or `name: Type`. -/
structure Pattern where
  name : Identifier
  ascription : Option Ascription
  deriving DecidableEq, Repr

/-! ## Printing -/

/-- One space between two tokens. -/
def Kind.space : Kind := .whitespace " "

namespace TypeExpr

/-- The tokens of a type, in front of `tail`. -/
def emit : TypeExpr → List Kind → List Kind
  | named name, tail => .identifier name :: tail
  | array element, tail =>
      .punctuator .leftBracket :: element.emit (.punctuator .rightBracket :: tail)
  | optional wrapped, tail => wrapped.emit (.punctuator .question :: tail)

/-- The source text of a type. -/
def text (t : TypeExpr) : String := Kind.textOf (t.emit [])

/-- The type with `n` more marks of optionality. -/
def optionals (t : TypeExpr) : Nat → TypeExpr
  | 0 => t
  | n + 1 => t.optional.optionals n

/-- Marks that are put behind marks add up. -/
theorem optionals_optionals (t : TypeExpr) (m n : Nat) :
    (t.optionals m).optionals n = t.optionals (m + n) := by
  induction m generalizing t with
  | zero => rw [Nat.zero_add, optionals]
  | succ m ih => rw [Nat.add_right_comm, optionals, optionals, ih]

/-- What follows a type is left as it is. -/
theorem emit_append (t : TypeExpr) (u v : List Kind) : t.emit (u ++ v) = t.emit u ++ v := by
  induction t generalizing u with
  | named name => rfl
  | array element ih => simp [emit, ← ih]
  | optional wrapped ih => simp [emit, ← ih]

end TypeExpr

namespace Ascription

/-- The tokens of an ascription, in front of `tail`. -/
def emit (a : Ascription) (tail : List Kind) : List Kind :=
  .punctuator .colon :: .space ::
    if a.isInout then .keyword (.reserved .kwInout) :: .space :: a.type.emit tail
    else a.type.emit tail

/-- The source text of an ascription. -/
def text (a : Ascription) : String := Kind.textOf (a.emit [])

/-- What follows an ascription is left as it is. -/
theorem emit_append (a : Ascription) (u v : List Kind) : a.emit (u ++ v) = a.emit u ++ v := by
  unfold emit
  split <;> simp [TypeExpr.emit_append]

end Ascription

namespace Pattern

/-- The tokens of a pattern, in front of `tail`. -/
def emit (p : Pattern) (tail : List Kind) : List Kind :=
  .identifier p.name ::
    match p.ascription with
    | some a => a.emit tail
    | none => tail

/-- The source text of a pattern. -/
def text (p : Pattern) : String := Kind.textOf (p.emit [])

/-- What follows a pattern is left as it is. -/
theorem emit_append (p : Pattern) (u v : List Kind) : p.emit (u ++ v) = p.emit u ++ v := by
  unfold emit
  split <;> simp [Ascription.emit_append]

end Pattern

end ExprFront
