/-
# Outlines

An outline shows a structured value by its parts.  `Outline.compact` writes it on one line and
`Outline.indented` gives each part a line of its own, indented by four spaces more than the whole.
-/

namespace ExprFront

/-- The shape in which a value is listed. -/
inductive Outline where
  /-- A word that stands for itself. -/
  | atom (text : String)
  /-- A named wrapper of one value. -/
  | wrapper (name : String) (inner : Outline)
  /-- A named record of labelled values. -/
  | record (name : String) (fields : List (String × Outline))
  /-- A sequence of values. -/
  | sequence (items : List Outline)

namespace Outline

/-- A truth value. -/
def ofBool (b : Bool) : Outline := .atom (if b then "true" else "false")

/-! ## On one line -/

mutual

/-- The outline on one line. -/
def compact : Outline → String
  | .atom text => text
  | .wrapper name inner => name ++ "(" ++ inner.compact ++ ")"
  | .record name fields => name ++ " \x7b " ++ compactFields fields ++ " \x7d"
  | .sequence items => "[" ++ compactItems items ++ "]"

/-- Labelled values with commas between them. -/
def compactFields : List (String × Outline) → String
  | [] => ""
  | [(label, value)] => label ++ ": " ++ value.compact
  | (label, value) :: rest => label ++ ": " ++ value.compact ++ ", " ++ compactFields rest

/-- Values with commas between them. -/
def compactItems : List Outline → String
  | [] => ""
  | [value] => value.compact
  | value :: rest => value.compact ++ ", " ++ compactItems rest

end

/-! ## On many lines -/

/-- The space before a line that stands `depth` levels deep. -/
def indentation (depth : Nat) : String := "".pushn ' ' (4 * depth)

mutual

/-- The outline with a line for each part, where the whole stands `depth` levels deep. -/
def indented (depth : Nat) : Outline → String
  | .atom text => text
  | .wrapper name inner =>
      name ++ "(\n" ++ indentation (depth + 1) ++ inner.indented (depth + 1) ++ ",\n" ++
        indentation depth ++ ")"
  | .record name fields =>
      name ++ " \x7b\n" ++ indentedFields (depth + 1) fields ++ indentation depth ++ "\x7d"
  | .sequence [] => "[]"
  | .sequence (item :: items) =>
      "[\n" ++ indentation (depth + 1) ++ item.indented (depth + 1) ++ ",\n" ++
        indentedItems (depth + 1) items ++ indentation depth ++ "]"

/-- Labelled values, each on lines of its own that end with a comma. -/
def indentedFields (depth : Nat) : List (String × Outline) → String
  | [] => ""
  | (label, value) :: rest =>
      indentation depth ++ label ++ ": " ++ value.indented depth ++ ",\n" ++
        indentedFields depth rest

/-- Values, each on lines of its own that end with a comma. -/
def indentedItems (depth : Nat) : List Outline → String
  | [] => ""
  | value :: rest =>
      indentation depth ++ value.indented depth ++ ",\n" ++ indentedItems depth rest

end

end Outline

end ExprFront
