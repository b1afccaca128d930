/-
# The rules for expressions

```text
expression      → `&` name trivia*
                | prefix-operator? operand
expression-list → expression (`,` trivia* expression)*
```

What an operand is belongs to a layer of its own: the rules here take that layer as a parameter and
work over every layer.  A layer that matches without reading a token counts as one that does not
apply, so a match of an expression is never empty.
-/
import ExprFront.Grammar.Error
import ExprFront.Tree.Expression

namespace ExprFront

/-- A layer of operands: any rule for them. -/
abbrev Layer := Rule Operand

namespace Grammar

/-! ## One expression -/

/-- An operand, as the layer reads it. -/
def operand (layer : Layer) (c : Cursor) : RuleResult Operand :=
  match layer c with
  | .ok (.matched _ 0) => .ok .noMatch
  | result => result

/-- An expression.  Behind `&` a name has to stand directly, and the trivia behind that name belong
to the expression. -/
def expression (layer : Layer) (c : Cursor) : RuleResult Expression :=
  if c.isPunctuator .ampersand then
    match c.advance.identifier? true with
    | some name => .ok (.matched (.inOut name) (c.advance.next.since c))
    | none => .ok .noMatch
  else
    match c.operator? with
    | some operator =>
        match operand layer c.advance with
        | .ok (.matched o n) =>
            .ok (.matched (.prefixed operator o) ((c.advanceBy (n + 1)).since c))
        | .ok .noMatch => .ok .noMatch
        | .error f => .error f
    | none =>
        match operand layer c with
        | .ok o => .ok (o.map .plain)
        | .error f => .error f

/-! ## Lists -/

/-- The further members of a list from the cursor on, each behind a comma, and where they end.  The
members before them are in `done`, the latest first.  A comma commits to another member. -/
def furtherMembers (layer : Layer) (done : List Expression) (c : Cursor) :
    Except Failure (List Expression × Cursor) :=
  if h : c.isPunctuator .comma then
    match (expression layer c.next).required .expression c.next with
    | .ok (e, n) =>
        have := Cursor.remaining_advanceBy_le c.next n
        have := Cursor.remaining_next_lt (Cursor.headKind_of_isPunctuator h)
        furtherMembers layer (e :: done) (c.next.advanceBy n)
    | .error f => .error f
  else .ok (done.reverse, c)
termination_by c.remaining

/-- One or more expressions with commas between them. -/
def expressionList (layer : Layer) (c : Cursor) : RuleResult (List Expression) :=
  match expression layer c with
  | .ok (.matched e n) =>
      match furtherMembers layer [e] (c.advanceBy n) with
      | .ok (members, stop) => .ok (.matched members (stop.since c))
      | .error f => .error f
  | .ok .noMatch => .ok .noMatch
  | .error f => .error f

/-! ## Where the layer is consulted -/

variable {layer other : Layer} {c : Cursor}

/-- An operand depends on the layer at its cursor only. -/
theorem operand_congr (h : layer c = other c) : operand layer c = operand other c := by
  simp [operand, h]

/-- An expression depends on the layer from its cursor on only. -/
theorem expression_congr (h : ∀ d : Cursor, d.remaining ≤ c.remaining → layer d = other d) :
    expression layer c = expression other c := by
  have here := operand_congr (h c (Nat.le_refl _))
  have next := operand_congr (h c.advance c.remaining_advance_le)
  simp [expression, here, next]

/-- Further members depend on the layer behind their comma only. -/
theorem furtherMembers_congr (done : List Expression)
    (h : ∀ d : Cursor, d.remaining < c.remaining → layer d = other d) :
    furtherMembers layer done c = furtherMembers other done c := by
  have member {c : Cursor} (hc : c.isPunctuator .comma = true)
      (h : ∀ d : Cursor, d.remaining < c.remaining → layer d = other d) :
      expression layer c.next = expression other c.next := by
    have := Cursor.remaining_next_lt (Cursor.headKind_of_isPunctuator hc)
    exact expression_congr fun d hd => h d (by omega)
  fun_induction furtherMembers layer done c with
  | case1 done c hc e n he hle hlt ih =>
      rw [furtherMembers.eq_1 other, dif_pos hc, ← member hc h, he]
      exact ih fun d hd => h d (by omega)
  | case2 done c hc f he =>
      rw [furtherMembers.eq_1 other, dif_pos hc, ← member hc h, he]
  | case3 done c hc =>
      rw [furtherMembers.eq_1 other, dif_neg hc]

/-- A list depends on the layer from its cursor on only. -/
theorem expressionList_congr (h : ∀ d : Cursor, d.remaining ≤ c.remaining → layer d = other d) :
    expressionList layer c = expressionList other c := by
  have members (e : Expression) (n : Nat) :
      furtherMembers layer [e] (c.advanceBy n) = furtherMembers other [e] (c.advanceBy n) := by
    have := c.remaining_advanceBy_le n
    exact furtherMembers_congr _ fun d hd => h d (by omega)
  simp [expressionList, expression_congr h, members]

end Grammar

end ExprFront
