/-
# The rules for patterns and types

```text
pattern         → name type-ascription?
type-ascription → `:` `inout`? type
type            → name | `[` type `]` | type `?`
```

Trivia may stand behind the colon and behind `inout`.  The colon and the bracket commit: behind them
a type has to follow.
-/
import ExprFront.Grammar.Error
import ExprFront.Tree.Type

namespace ExprFront
namespace Grammar

/-! ## Types -/

/-- The marks of optionality behind a type.  Two or more of them read as one operator. -/
def optionalMarks (t : TypeExpr) (c : Cursor) : TypeExpr × Cursor :=
  match h : c.headKind with
  | some (.punctuator .question) =>
      have := Cursor.remaining_advance_lt h
      optionalMarks t.optional c.advance
  | some (.operator text) =>
      have := Cursor.remaining_advance_lt h
      if text.toList.all (· == '?') then optionalMarks (t.optionals text.toList.length) c.advance
      else (t, c)
  | _ => (t, c)
termination_by c.remaining

/-- A type whose first part has been read up to the cursor `stop`, with the marks that follow. -/
def withOptionalMarks (start : Cursor) (t : TypeExpr) (stop : Cursor) : Outcome TypeExpr :=
  let (marked, last) := optionalMarks t stop
  .matched marked (last.since start)

/-- A type.  Keywords do not name types. -/
def type (c : Cursor) : RuleResult TypeExpr :=
  match h : c.headKind with
  | some (.identifier name) => .ok (withOptionalMarks c (.named name) c.advance)
  | some (.punctuator .leftBracket) =>
      have := Cursor.remaining_advance_lt h
      match (type c.advance).required .type c.advance with
      | .ok (element, n) =>
          if (c.advanceBy (n + 1)).isPunctuator .rightBracket then
            .ok (withOptionalMarks c (.array element) (c.advanceBy (n + 2)))
          else .error (.expecting .closingBracket (c.advanceBy (n + 1)))
      | .error f => .error f
  | _ => .ok .noMatch
termination_by c.remaining

/-! ## Ascriptions and patterns -/

/-- The type at `start` as the end of an ascription that begins at `c`. -/
def ascribedType (isInout : Bool) (start c : Cursor) : RuleResult Ascription :=
  match (type start).required .type start with
  | .ok (t, n) => .ok (.matched ⟨t, isInout⟩ ((start.advanceBy n).since c))
  | .error f => .error f

/-- `: Type` or `: inout Type`. -/
def typeAscription (c : Cursor) : RuleResult Ascription :=
  if c.isPunctuator .colon then
    if c.next.isKeyword (.reserved .kwInout) then ascribedType true c.next.next c
    else ascribedType false c.next c
  else .ok .noMatch

/-- A name with or without a type ascription directly behind it. -/
def pattern (c : Cursor) : RuleResult Pattern :=
  match c.identifier? true with
  | some name =>
      match typeAscription c.advance with
      | .ok (.matched a n) => .ok (.matched ⟨name, some a⟩ ((c.advance.advanceBy n).since c))
      | .ok .noMatch => .ok (.matched ⟨name, none⟩ (c.advance.since c))
      | .error f => .error f
  | none => .ok .noMatch

end Grammar

end ExprFront
