/-
# The tokens of a source

`Token.tokenize` splits a source into tokens that cover all of it, one behind the other, and ends
them with the end of input.  If some part of the source begins no token, the whole source is
refused at that place.

The main fact is `Token.scan_eq_map`: how a text splits does not depend on the tokens before it.
-/
import ExprFront.Token.Lexeme

namespace ExprFront
namespace Token

/-- Splits off tokens as long as there is text.  The text starts at `p`, and `done` holds the tokens
before it, the latest first. -/
def scan (p : Place) (done : List Token) : List Char → Except LexicalError (List Token)
  | [] => .ok (List.reverse (⟨.endOfInput, p.to p⟩ :: done))
  | c :: rest =>
      match h : Lexeme.first c rest with
      | .ok x =>
          have := List.length_pos_iff.2 (Lexeme.spelling_ne_nil_of_first h)
          scan (p.after x.spelling) (⟨x.kind, p.to (p.after x.spelling)⟩ :: done)
            (List.drop x.spelling.length (c :: rest))
      | .error f => .error ⟨f.cause, p.location.after ((c :: rest).take f.before)⟩
termination_by s => s.length

/-- Where the text ends, the tokens are complete. -/
theorem scan_nil (p : Place) (done : List Token) :
    scan p done [] = .ok (done.reverse ++ [⟨.endOfInput, p.to p⟩]) := by
  rw [scan]
  simp

/-- A lexeme that is read becomes the next token. -/
theorem scan_cons_of_ok {p : Place} {done : List Token} {c : Char} {rest : List Char} {x : Lexeme}
    (h : Lexeme.first c rest = .ok x) :
    scan p done (c :: rest) =
      scan (p.after x.spelling) (⟨x.kind, p.to (p.after x.spelling)⟩ :: done)
        (List.drop x.spelling.length (c :: rest)) := by
  rw [scan]
  split
  · next y hy => cases h.symm.trans hy; rfl
  · next f hf => cases h.symm.trans hf

/-- A text that begins no lexeme is refused at the faulty point. -/
theorem scan_cons_of_error {p : Place} {done : List Token} {c : Char} {rest : List Char}
    {f : LexicalFault} (h : Lexeme.first c rest = .error f) :
    scan p done (c :: rest) =
      .error ⟨f.cause, p.location.after ((c :: rest).take f.before)⟩ := by
  rw [scan]
  split
  · next y hy => cases h.symm.trans hy
  · next g hg => cases h.symm.trans hg; rfl

/-- **The tokens before a text do not matter to it**: they only stand in front of its own. -/
theorem scan_eq_map (p : Place) (done : List Token) (s : List Char) :
    scan p done s = (scan p [] s).map (done.reverse ++ ·) := by
  induction hn : s.length using Nat.strongRecOn generalizing p done s with
  | ind n ih =>
      cases s with
      | nil => simp [scan_nil, Except.map]
      | cons c rest =>
          cases h : Lexeme.first c rest with
          | error f => simp [scan_cons_of_error h, Except.map]
          | ok x =>
              have hlt : (List.drop x.spelling.length (c :: rest)).length < n := by
                have := List.length_pos_iff.2 (Lexeme.spelling_ne_nil_of_first h)
                simp only [List.length_drop, ← hn, List.length_cons]
                omega
              rw [scan_cons_of_ok h, scan_cons_of_ok h, ih _ hlt _ _ _ rfl,
                ih _ hlt _ [_] _ rfl]
              cases scan (p.after x.spelling) [] (List.drop x.spelling.length (c :: rest)) with
              | error e => rfl
              | ok ts => simp [Except.map]

/-- The tokens of a source, the end of input last. -/
def tokenize (source : String) : Except LexicalError (List Token) :=
  scan .start [] source.toList

end Token

end ExprFront
