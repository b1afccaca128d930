/-
# Expressions

An expression is an in-out argument, an operand behind a prefix operator, or an operand alone.  An
operand is a name, a literal or a parenthesized expression, with any number of suffixes: calls,
members and postfix operators.

Nodes are printed by listing the tokens that write them, as types are.
-/
import ExprFront.Token.Basic
import ExprFront.Tree.Type

namespace ExprFront

/-! ## Nodes -/

mutual

/-- An expression. -/
inductive Expression where
  /-- `&name` -/
  | inOut (name : Identifier)
  /-- `-value`, `!flag` -/
  | prefixed (operator : String) (operand : Operand)
  /-- An operand without a prefix operator. -/
  | plain (operand : Operand)

/-- A primary expression and the suffixes behind it. -/
inductive Operand where
  /-- A use of a name. -/
  | name (name : Identifier)
  /-- `42`, `"text"`, `true`, `nil` -/
  | literal (value : Literal)
  /-- `(inner)` -/
  | parenthesized (inner : Expression)
  /-- `callee(a, b)` -/
  | call (callee : Operand) (arguments : List Expression)
  /-- `base.name` -/
  | member (base : Operand) (name : Identifier)
  /-- `value++`, `value!` -/
  | postfixed (operand : Operand) (operator : String)

end

/-! ## Printing -/

mutual

/-- The tokens of an expression, in front of `tail`. -/
def Expression.emit : Expression → List Kind → List Kind
  | .inOut name, tail => .punctuator .ampersand :: .identifier name :: tail
  | .prefixed operator operand, tail => .operator operator :: operand.emit tail
  | .plain operand, tail => operand.emit tail

/-- The tokens of an operand, in front of `tail`. -/
def Operand.emit : Operand → List Kind → List Kind
  | .name name, tail => .identifier name :: tail
  | .literal value, tail => .literal value :: tail
  | .parenthesized inner, tail =>
      .punctuator .leftParen :: inner.emit (.punctuator .rightParen :: tail)
  | .call callee arguments, tail =>
      callee.emit
        (.punctuator .leftParen :: Expression.emitList arguments (.punctuator .rightParen :: tail))
  | .member base name, tail => base.emit (.punctuator .dot :: .identifier name :: tail)
  | .postfixed operand operator, tail => operand.emit (.operator operator :: tail)

/-- The tokens of a list of expressions, in front of `tail`. -/
def Expression.emitList : List Expression → List Kind → List Kind
  | [], tail => tail
  | e :: rest, tail => e.emit (Expression.emitMore rest tail)

/-- The tokens of the further members of a list, each behind a comma, in front of `tail`. -/
def Expression.emitMore : List Expression → List Kind → List Kind
  | [], tail => tail
  | e :: rest, tail =>
      .punctuator .comma :: .space :: e.emit (Expression.emitMore rest tail)

end

/-- The source text of an expression. -/
def Expression.text (e : Expression) : String := Kind.textOf (e.emit [])

/-- The source text of an operand. -/
def Operand.text (o : Operand) : String := Kind.textOf (o.emit [])

/-- The source text of a list of expressions. -/
def Expression.textList (es : List Expression) : String := Kind.textOf (emitList es [])

/-! ## What follows a node is left as it is -/

mutual

/-- What follows an expression is left as it is. -/
theorem Expression.emit_append (e : Expression) (u v : List Kind) :
    e.emit (u ++ v) = e.emit u ++ v := by
  cases e with
  | inOut name => simp [Expression.emit]
  | prefixed operator operand => simp [Expression.emit, operand.emit_append]
  | plain operand => simp [Expression.emit, operand.emit_append]

/-- What follows an operand is left as it is. -/
theorem Operand.emit_append (o : Operand) (u v : List Kind) :
    o.emit (u ++ v) = o.emit u ++ v := by
  cases o with
  | name name => simp [Operand.emit]
  | literal value => simp [Operand.emit]
  | parenthesized inner => simp [Operand.emit, ← inner.emit_append]
  | call callee arguments =>
      simp [Operand.emit, ← callee.emit_append, ← Expression.emitList_append arguments]
  | member base name => simp [Operand.emit, ← base.emit_append]
  | postfixed operand operator => simp [Operand.emit, ← operand.emit_append]

/-- What follows a list is left as it is. -/
theorem Expression.emitList_append (es : List Expression) (u v : List Kind) :
    Expression.emitList es (u ++ v) = Expression.emitList es u ++ v := by
  cases es with
  | nil => simp [Expression.emitList]
  | cons e rest => simp [Expression.emitList, ← e.emit_append, ← Expression.emitMore_append rest]

/-- What follows the further members of a list is left as it is. -/
theorem Expression.emitMore_append (es : List Expression) (u v : List Kind) :
    Expression.emitMore es (u ++ v) = Expression.emitMore es u ++ v := by
  cases es with
  | nil => simp [Expression.emitMore]
  | cons e rest => simp [Expression.emitMore, ← e.emit_append, ← Expression.emitMore_append rest]

end

end ExprFront
