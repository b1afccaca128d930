/-
# Outlines of tokens and nodes

What the listings call the kinds of tokens and the nodes of a tree, and which parts they show.
-/
import ExprFront.Listing.Escaped
import ExprFront.Listing.Outline
import ExprFront.Tree.Expression

namespace ExprFront

/-! ## Tokens -/

/-- A text between quotes. -/
def Outline.ofText (text : String) : Outline := .atom (Escaped.quote text)

/-- A name and how it is written. -/
def Identifier.outline (i : Identifier) : List (String × Outline) :=
  [("name", .ofText i.name), ("backticked", .ofBool i.backticked)]

/-- A literal. -/
def Literal.outline : Literal → Outline
  | .integer text => .wrapper "Integer" (.ofText text)
  | .floating text => .wrapper "Floating" (.ofText text)
  | .string value => .wrapper "String" (.ofText value)
  | .boolean value => .wrapper "Boolean" (.ofBool value)
  | .nil => .atom "Nil"

/-- A kind of token. -/
def Kind.outline : Kind → Outline
  | .identifier name => .record "Identifier" name.outline
  | .keyword word => .wrapper "Keyword" (.atom word.name)
  | .literal value => .wrapper "Literal" value.outline
  | .operator text => .wrapper "Operator" (.ofText text)
  | .punctuator mark => .wrapper "Punctuator" (.atom mark.name)
  | .whitespace text => .wrapper "Whitespace" (.ofText text)
  | .comment text => .wrapper "Comment" (.ofText text)
  | .endOfInput => .atom "Eof"

/-! ## Types and patterns -/

/-- A name as a part of a node. -/
def Identifier.node (i : Identifier) : Outline := .record "Identifier" i.outline

/-- A type. -/
def TypeExpr.outline : TypeExpr → Outline
  | .named name => .wrapper "Named" name.node
  | .array element => .wrapper "Array" element.outline
  | .optional wrapped => .wrapper "Optional" wrapped.outline

/-- A type ascription. -/
def Ascription.outline (a : Ascription) : Outline :=
  .record "TypeAnnotation" [("ty", a.type.outline), ("inout", .ofBool a.isInout)]

/-- A pattern. -/
def Pattern.outline (p : Pattern) : Outline :=
  .wrapper "Identifier"
    (.record "IdentifierPattern"
      [("identifier", p.name.node),
        ("type_annotation",
          match p.ascription with
          | some a => .wrapper "Some" a.outline
          | none => .atom "None")])

/-! ## Expressions -/

mutual

/-- An expression. -/
def Expression.outline : Expression → Outline
  | .inOut name =>
      .wrapper "InOut" (.record "InOutExpression" [("identifier", name.node)])
  | .prefixed operator operand =>
      .wrapper "PrefixOperator"
        (.record "PrefixOperatorExpression"
          [("operator", .ofText operator), ("operand", operand.outline)])
  | .plain operand => .wrapper "Postfix" operand.outline

/-- An operand. -/
def Operand.outline : Operand → Outline
  | .name name => .wrapper "Identifier" name.node
  | .literal value => .wrapper "Literal" value.outline
  | .parenthesized inner => .wrapper "Parenthesized" inner.outline
  | .call callee arguments =>
      .record "FunctionCall"
        [("callee", callee.outline), ("arguments", .sequence (Expression.outlines arguments))]
  | .member base name =>
      .record "ExplicitMember" [("base", base.outline), ("member", name.node)]
  | .postfixed operand operator =>
      .record "PostfixOperator" [("operand", operand.outline), ("operator", .ofText operator)]

/-- Each of a list of expressions. -/
def Expression.outlines : List Expression → List Outline
  | [] => []
  | e :: rest => e.outline :: Expression.outlines rest

end

end ExprFront
