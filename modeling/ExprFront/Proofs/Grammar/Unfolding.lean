/-
# One step of each rule

What a rule does first depends on the head.  For each head there is one equation here that says what
is done there, so that later proofs split on heads and never on the definitions of the rules.
-/
import ExprFront.Grammar.Operand
import ExprFront.Grammar.Pattern
import ExprFront.Proofs.Grammar.Recognition

namespace ExprFront

namespace Cursor

variable {c d : Cursor}

/-! ## Reading the same head -/

/-- The same marks stand where the heads are the same. -/
theorem isPunctuator_congr (h : d.headKind = c.headKind) (mark : Punctuator) :
    d.isPunctuator mark = c.isPunctuator mark := by
  rw [isPunctuator, h, isPunctuator]

/-- The same names stand where the heads are the same. -/
theorem identifier?_congr (h : d.headKind = c.headKind) :
    d.identifier? true = c.identifier? true := by
  rw [identifier?_eq_bind, h, identifier?_eq_bind]

/-- The same operators stand where the heads are the same. -/
theorem operator?_congr (h : d.headKind = c.headKind) : d.operator? = c.operator? := by
  rw [operator?, h, operator?]

/-- Operands start alike where the heads are the same. -/
theorem startsOperand_congr (h : d.headKind = c.headKind) :
    Grammar.startsOperand d = Grammar.startsOperand c := by
  rw [Grammar.startsOperand, h, Grammar.startsOperand]

end Cursor

namespace Grammar

open Cursor

variable {layer : Layer} {c : Cursor}

/-! ## Expressions and lists -/

/-- Without an ampersand, an expression has an operator or none. -/
theorem expression_of_not_ampersand (h : c.headKind ≠ some (.punctuator .ampersand)) :
    expression layer c =
      match c.operator? with
      | some operator =>
          match operand layer c.advance with
          | .ok (.matched o n) =>
              .ok (.matched (.prefixed operator o) ((c.advanceBy (n + 1)).since c))
          | .ok .noMatch => .ok .noMatch
          | .error f => .error f
      | none =>
          match operand layer c with
          | .ok o => .ok (o.map .plain)
          | .error f => .error f :=
  if_neg (mt isPunctuator_iff.1 h)

/-- Where a comma stands, one more member is read behind it. -/
theorem furtherMembers_eq_of_comma {done : List Expression}
    (hcomma : c.headKind = some (.punctuator .comma)) :
    furtherMembers layer done c =
      match (expression layer c.next).required .expression c.next with
      | .ok (e, n) => furtherMembers layer (e :: done) (c.next.advanceBy n)
      | .error f => .error f :=
  (furtherMembers.eq_1 layer done c).trans (dif_pos (isPunctuator_iff.2 hcomma))

/-! ## Primaries -/

/-- What stands behind an opening parenthesis is an expression and a closing one. -/
theorem primary_eq_of_leftParen (hk : c.headKind = some (.punctuator .leftParen)) :
    primary layer c =
      match (expression layer c.advance).required .expression c.advance with
      | .ok (inner, n) =>
          if (c.advanceBy (n + 1)).isPunctuator .rightParen then
            .ok (.matched (.parenthesized inner) (n + 2))
          else .error (.expecting .closingParen (c.advanceBy (n + 1)))
      | .error f => .error f := by
  unfold primary
  split
  · next hvalue => cases hk.symm.trans hvalue
  · rfl
  · next hparen => exact absurd hk hparen

/-- Without a parenthesis, a primary is one token or none. -/
theorem primary_of_not_leftParen (layer : Layer)
    (hk : c.headKind ≠ some (.punctuator .leftParen)) :
    primary layer c = .ok .noMatch ∨
      ∃ k o, c.headKind = some k ∧ primary layer c = .ok (.matched o 1) := by
  unfold primary
  split
  · next value hvalue => exact .inr ⟨_, _, hvalue, rfl⟩
  · next hparen => exact absurd hparen hk
  · cases hname : c.identifier? true with
    | none => exact .inl rfl
    | some name =>
        obtain ⟨k, hk, -⟩ := identifier?_eq_some_iff.1 hname
        exact .inr ⟨k, _, hk, rfl⟩

/-- Without a parenthesis, a primary depends on the head only. -/
theorem primary_congr_headKind {d : Cursor} (hk : c.headKind ≠ some (.punctuator .leftParen))
    (hd : d.headKind = c.headKind) : primary layer d = primary layer c := by
  unfold primary
  rw [hd, identifier?_congr hd]
  split
  · rfl
  · next hparen => exact absurd hparen hk
  · rfl

/-! ## Turns of the suffix loop -/

section Turns

variable {o : Operand}

/-- A turn of the suffix loop at an opening parenthesis. -/
theorem suffixes_eq_of_leftParen (hk : c.headKind = some (.punctuator .leftParen)) :
    suffixes layer o c =
      match arguments layer c.advance with
      | .ok (es, n) =>
          if (c.advanceBy (n + 1)).isPunctuator .rightParen then
            suffixes layer (.call o es) (c.advanceBy (n + 2))
          else .error (.expecting .closingParen (c.advanceBy (n + 1)))
      | .error f => .error f := by
  rw [suffixes]
  split
  · rfl
  all_goals simp_all

/-- A turn of the suffix loop at a point. -/
theorem suffixes_eq_of_dot (hk : c.headKind = some (.punctuator .dot)) :
    suffixes layer o c =
      match c.advance.identifier? true with
      | some name => suffixes layer (.member o name) (c.advanceBy 2)
      | none => .error (.expecting .memberName c.advance) := by
  rw [suffixes]
  split
  · simp_all
  · rfl
  all_goals simp_all

/-- A turn of the suffix loop at an operator. -/
theorem suffixes_eq_of_operator {operator : String} (hk : c.headKind = some (.operator operator)) :
    suffixes layer o c =
      if startsOperand c.advance then .ok (o, c)
      else suffixes layer (.postfixed o operator) c.advance := by
  rw [suffixes]
  split
  · simp_all
  · simp_all
  · next operator' hk' =>
      cases hk.symm.trans hk'
      rfl
  · simp_all

/-- Whether the loop takes a turn at a token of the kind. -/
def takesTurn : Kind → Bool
  | .punctuator .leftParen | .punctuator .dot | .operator _ => true
  | _ => false

/-- Where the suffix loop takes no turn, it ends. -/
theorem suffixes_eq_of_avoids (h : c.Avoids takesTurn) : suffixes layer o c = .ok (o, c) := by
  rw [suffixes]
  split
  · next hk => cases h _ hk
  · next hk => cases h _ hk
  · next hk => cases h _ hk
  · rfl

end Turns

/-! ## Types -/

/-- At a name there is a type. -/
theorem type_eq_of_identifier {name : Identifier} (hk : c.headKind = some (.identifier name)) :
    type c = .ok (withOptionalMarks c (.named name) c.advance) := by
  rw [type]
  split <;> simp_all

/-- At an opening bracket there is an array. -/
theorem type_eq_of_leftBracket (hk : c.headKind = some (.punctuator .leftBracket)) :
    type c =
      match (type c.advance).required .type c.advance with
      | .ok (element, n) =>
          if (c.advanceBy (n + 1)).isPunctuator .rightBracket then
            .ok (withOptionalMarks c (.array element) (c.advanceBy (n + 2)))
          else .error (.expecting .closingBracket (c.advanceBy (n + 1)))
      | .error f => .error f := by
  rw [type]
  split
  · simp_all
  · rfl
  · simp_all

/-- Whether a type begins with a token of the kind. -/
def beginsType : Kind → Bool
  | .identifier _ | .punctuator .leftBracket => true
  | _ => false

/-- Elsewhere there is no type. -/
theorem type_eq_of_avoids (h : c.Avoids beginsType) : type c = .ok .noMatch := by
  rw [type]
  split
  · next hk => cases h _ hk
  · next hk => cases h _ hk
  · rfl

end Grammar

end ExprFront
