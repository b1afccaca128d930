/-
# Places in a source text

A place is where a token starts or ends: a byte offset for tools, a line and a column for people.
Lines and columns count from one and columns count characters.  A line ends at a line feed, and at
a carriage return unless a line feed follows it, so the pair of both ends one line only.

The main operation is `Location.after`, the location that is reached by reading a text.
-/

namespace ExprFront

/-! ## Line and column -/

/-- A line and a column, both counted from one. -/
structure Location where
  line : Nat
  column : Nat
  deriving DecidableEq, Repr, Inhabited

namespace Location

/-- Where every text begins. -/
def start : Location := ⟨1, 1⟩

/-- Whether the character `c` ends its line when `next` is the character behind it. -/
def breaksLine (c : Char) (next : Option Char) : Bool :=
  c == '\n' || (c == '\r' && next != some '\n')

/-- The location behind the character `c` at `l`. -/
def step (l : Location) (c : Char) (next : Option Char) : Location :=
  if breaksLine c next then ⟨l.line + 1, 1⟩ else ⟨l.line, l.column + 1⟩

/-- The location behind the text that starts at `l`. -/
def after (l : Location) : List Char → Location
  | [] => l
  | c :: rest => (l.step c rest.head?).after rest

@[simp]
theorem after_nil (l : Location) : l.after [] = l := rfl

/-- Reading one character more is one step. -/
theorem after_cons (l : Location) (c : Char) (rest : List Char) :
    l.after (c :: rest) = (l.step c rest.head?).after rest := rfl

end Location

/-! ## Offsets and spans -/

/-- How many bytes the characters take in UTF-8. -/
def utf8Length : List Char → Nat
  | [] => 0
  | c :: text => c.utf8Size + utf8Length text

@[simp]
theorem utf8Length_nil : utf8Length [] = 0 := rfl

@[simp]
theorem utf8Length_cons (c : Char) (text : List Char) :
    utf8Length (c :: text) = c.utf8Size + utf8Length text := rfl

/-- Texts one behind the other take the sum of their bytes. -/
@[simp]
theorem utf8Length_append (u v : List Char) :
    utf8Length (u ++ v) = utf8Length u + utf8Length v := by
  induction u with
  | nil => simp
  | cons c u ih => simp [ih, Nat.add_assoc]

/-- A place in a text: how many bytes precede it, and its line and column. -/
structure Place where
  offset : Nat
  location : Location
  deriving DecidableEq, Repr, Inhabited

namespace Place

/-- The place at which every text begins. -/
def start : Place := ⟨0, .start⟩

/-- The place behind the text that starts at `p`. -/
def after (p : Place) (text : List Char) : Place :=
  ⟨p.offset + utf8Length text, p.location.after text⟩

end Place

/-- The part of a source that a token covers, and the location of its first character. -/
structure Span where
  start : Nat
  stop : Nat
  location : Location
  deriving DecidableEq, Repr, Inhabited

/-- The span between two places. -/
def Place.to (first last : Place) : Span := ⟨first.offset, last.offset, first.location⟩

end ExprFront
