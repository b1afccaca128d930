/-
# Cursors

A cursor is a position in a sequence of tokens.  It never passes the end, and moving it gives a new
cursor.  The token *at* the cursor may be the end of input; the *head* is that token unless it is.
Rules read the head, so for them a sequence ends at its end of input or where it runs out.
-/
import ExprFront.Token.Basic

namespace ExprFront

/-- A position among tokens, the one behind the last token included. -/
structure Cursor where
  tokens : Array Token
  position : Nat
  position_le : position ≤ tokens.size

namespace Cursor

/-! ## Moving -/

/-- The cursor at the position, or behind the last token if the position lies further. -/
def atPosition (tokens : Array Token) (position : Nat) : Cursor :=
  ⟨tokens, min position tokens.size, Nat.min_le_right _ _⟩

/-- How many tokens are left from the cursor on. -/
def remaining (c : Cursor) : Nat := c.tokens.size - c.position

/-- The cursor `n` tokens further. -/
def advanceBy (c : Cursor) (n : Nat) : Cursor := atPosition c.tokens (c.position + n)

/-- The cursor one token further. -/
def advance (c : Cursor) : Cursor := c.advanceBy 1

/-- How many tokens lie between the cursor `earlier` and this one. -/
def since (c earlier : Cursor) : Nat := c.position - earlier.position

@[simp]
theorem position_advanceBy (c : Cursor) (n : Nat) :
    (c.advanceBy n).position = min (c.position + n) c.tokens.size := rfl

@[simp]
theorem tokens_advanceBy (c : Cursor) (n : Nat) : (c.advanceBy n).tokens = c.tokens := rfl

@[simp]
theorem tokens_advance (c : Cursor) : c.advance.tokens = c.tokens := rfl

/-- Moving never goes back. -/
theorem position_le_advanceBy (c : Cursor) (n : Nat) :
    c.position ≤ (c.advanceBy n).position := by
  have := c.position_le
  simp only [position_advanceBy]
  omega

/-- Moving never leaves more tokens. -/
theorem remaining_advanceBy_le (c : Cursor) (n : Nat) :
    (c.advanceBy n).remaining ≤ c.remaining := by
  simp only [remaining, position_advanceBy, tokens_advanceBy]
  omega

/-- One step never leaves more tokens. -/
theorem remaining_advance_le (c : Cursor) : c.advance.remaining ≤ c.remaining :=
  remaining_advanceBy_le c 1

/-! ## Looking -/

/-- The token at the cursor, which may be the end of input. -/
def current (c : Cursor) : Option Token := c.tokens[c.position]?

/-- The token at the cursor, unless it is the end of input. -/
def head (c : Cursor) : Option Token := c.current.filter (!·.isEnd)

/-- The kind of the head. -/
def headKind (c : Cursor) : Option Kind := c.head.map (·.kind)

/-- The location behind the last token of the whole sequence. -/
def endLocation (c : Cursor) : Location :=
  match c.tokens.back? with
  | some t => t.endLocation
  | none => .start

/-- **Progress.**  Where there is a head, one step leaves fewer tokens. -/
theorem remaining_advance_lt {c : Cursor} {k : Kind} (h : c.headKind = some k) :
    c.advance.remaining < c.remaining := by
  have hlt : c.position < c.tokens.size := by
    by_cases hlt : c.position < c.tokens.size
    · exact hlt
    · have hnone : c.tokens[c.position]? = none := Array.getElem?_eq_none (by omega)
      simp [headKind, head, current, hnone] at h
  simp only [remaining, advance, position_advanceBy, tokens_advanceBy]
  omega

/-- Whether the head is the mark. -/
def isPunctuator (c : Cursor) (mark : Punctuator) : Bool := c.headKind == some (.punctuator mark)

/-- Whether the head is the keyword. -/
def isKeyword (c : Cursor) (word : Keyword) : Bool := c.headKind == some (.keyword word)

/-- The text of the head, if it is an operator. -/
def operator? (c : Cursor) : Option String :=
  match c.headKind with
  | some (.operator text) => some text
  | _ => none

/-- The head read as a name.  A contextual keyword is a plain name of its spelling, where such names
are allowed. -/
def identifier? (c : Cursor) (allowContextual : Bool) : Option Identifier :=
  match c.headKind with
  | some (.identifier name) => some name
  | some (.keyword (.contextual word)) =>
      if allowContextual then some (.plain word.spelling) else none
  | _ => none

/-- The first cursor from here on that is not at whitespace or a comment. -/
def skipTrivia (c : Cursor) : Cursor :=
  match h : c.headKind with
  | some kind =>
      have := remaining_advance_lt h
      if kind.isTrivia then c.advance.skipTrivia else c
  | none => c
termination_by c.remaining

/-- The cursor behind the head and the trivia that follow it. -/
def next (c : Cursor) : Cursor := c.advance.skipTrivia

/-- A mark at the head is a head. -/
theorem headKind_of_isPunctuator {c : Cursor} {mark : Punctuator}
    (h : c.isPunctuator mark = true) : c.headKind = some (.punctuator mark) := by
  simpa [isPunctuator] using h

/-- An operator at the head is a head. -/
theorem headKind_of_operator? {c : Cursor} {text : String} (h : c.operator? = some text) :
    c.headKind = some (.operator text) := by
  unfold operator? at h
  split at h
  · next hk => cases h; exact hk
  · cases h

/-- A name can be read only where there is a head. -/
theorem exists_headKind_of_identifier? {c : Cursor} {allowContextual : Bool} {name : Identifier}
    (h : c.identifier? allowContextual = some name) : ∃ kind, c.headKind = some kind := by
  unfold identifier? at h
  split at h
  · next hk => exact ⟨_, hk⟩
  · next hk => exact ⟨_, hk⟩
  · cases h

/-- Skipping trivia stays among the same tokens. -/
@[simp]
theorem tokens_skipTrivia (c : Cursor) : c.skipTrivia.tokens = c.tokens := by
  fun_induction skipTrivia c with
  | case1 _ _ _ _ _ ih => simpa using ih
  | case2 => rfl
  | case3 => rfl

/-- Skipping trivia never goes back. -/
theorem position_le_skipTrivia (c : Cursor) : c.position ≤ c.skipTrivia.position := by
  fun_induction skipTrivia c with
  | case1 c _ _ _ _ ih => exact Nat.le_trans (position_le_advanceBy c 1) ih
  | case2 => exact Nat.le_refl _
  | case3 => exact Nat.le_refl _

/-- Skipping trivia never leaves more tokens. -/
theorem remaining_skipTrivia_le (c : Cursor) : c.skipTrivia.remaining ≤ c.remaining := by
  have := position_le_skipTrivia c
  simp only [remaining, tokens_skipTrivia]
  omega

/-- **Progress over several tokens.**  Where there is a head, moving by one token or more leaves
fewer. -/
theorem remaining_advanceBy_succ_lt {c : Cursor} {k : Kind} (h : c.headKind = some k) (n : Nat) :
    (c.advanceBy (n + 1)).remaining < c.remaining := by
  have hlt := remaining_advance_lt h
  simp only [remaining, advance, position_advanceBy, tokens_advanceBy] at hlt ⊢
  omega

/-- Where there is a head, passing it and the trivia behind it leaves fewer tokens. -/
theorem remaining_next_lt {c : Cursor} {k : Kind} (h : c.headKind = some k) :
    c.next.remaining < c.remaining :=
  Nat.lt_of_le_of_lt (remaining_skipTrivia_le _) (remaining_advance_lt h)

end Cursor

end ExprFront
