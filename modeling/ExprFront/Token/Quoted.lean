/-
# The written form of a string

Between its quotes a string literal writes five characters as a backslash and a letter: the quote,
the backslash, the line feed, the tab and the carriage return.  `encode` writes a value that way.
`read` reads a body up to its closing quote and is more lenient: a tab may also stand for itself.
A line break never may, so a literal ends on the line where it began.

The main fact, `letter?_eq_some_iff`, says that the two tables of escapes are inverse.
-/

namespace ExprFront
namespace Quoted

/-! ## Escapes -/

/-- The letter that stands for the character behind a backslash, if the character needs one. -/
def letter? : Char → Option Char
  | '"' => some '"'
  | '\\' => some '\\'
  | '\n' => some 'n'
  | '\t' => some 't'
  | '\r' => some 'r'
  | _ => none

/-- The character that the letter stands for behind a backslash. -/
def value? : Char → Option Char
  | 'n' => some '\n'
  | 't' => some '\t'
  | 'r' => some '\r'
  | '\\' => some '\\'
  | '"' => some '"'
  | _ => none

/-- **The tables of escapes are inverse.** -/
theorem letter?_eq_some_iff {v l : Char} : letter? v = some l ↔ value? l = some v := by
  unfold letter? value?
  constructor
  · intro h
    split at h <;> simp_all <;> subst h <;> rfl
  · intro h
    split at h <;> simp_all <;> subst h <;> rfl

/-! ## Writing -/

/-- One character of a value, as it stands between quotes. -/
def encodeChar (c : Char) : List Char :=
  match letter? c with
  | some l => ['\\', l]
  | none => [c]

/-- A value, as it stands between quotes. -/
def encode (value : List Char) : List Char := value.flatMap encodeChar

@[simp]
theorem encode_nil : encode [] = [] := rfl

/-- Each character is written by itself. -/
@[simp]
theorem encode_cons (c : Char) (value : List Char) :
    encode (c :: value) = encodeChar c ++ encode value := by
  simp [encode]

/-! ## Reading -/

/-- A body that has been read: the value it stands for and the characters that spelled it. -/
structure Body where
  value : List Char
  spelling : List Char
  deriving DecidableEq, Repr

/-- Puts one character of the value, and its spelling, in front of a body. -/
def Body.cons (v : Char) (spelling : List Char) (b : Body) : Body :=
  ⟨v :: b.value, spelling ++ b.spelling⟩

/-- Why a body cannot be read, and how many of its characters precede the fault. -/
inductive Fault where
  /-- The line or the text ends before the closing quote. -/
  | openEnded
  /-- The text ends behind a backslash. -/
  | danglingEscape (before : Nat)
  /-- The character behind a backslash stands for nothing. -/
  | badEscape (c : Char) (before : Nat)
  deriving DecidableEq, Repr

/-- The same fault, seen from `n` characters earlier. -/
def Fault.shift (n : Nat) : Fault → Fault
  | .openEnded => .openEnded
  | .danglingEscape before => .danglingEscape (n + before)
  | .badEscape c before => .badEscape c (n + before)

/-- A body with one more piece in front of it, or the fault seen from in front of that piece. -/
def extend (v : Char) (spelling : List Char) : Except Fault Body → Except Fault Body
  | .ok b => .ok (b.cons v spelling)
  | .error f => .error (f.shift spelling.length)

/-- Reads the body of a literal, from behind its opening quote up to its closing quote. -/
def read : List Char → Except Fault Body
  | [] => .error .openEnded
  | '\\' :: [] => .error (.danglingEscape 1)
  | '\\' :: c :: rest =>
      match value? c with
      | some v => extend v ['\\', c] (read rest)
      | none => .error (.badEscape c 1)
  | c :: rest =>
      if c = '"' then .ok ⟨[], []⟩
      else if c = '\n' ∨ c = '\r' then .error .openEnded
      else extend c [c] (read rest)

end Quoted

end ExprFront
