/-
# Well-formed nodes

A node is well formed if each payload in it has the shape that its token requires, and if no postfix
operator stands where another operator or a call directly follows it.  Parsing gives well-formed
nodes only: whatever is derived from kinds that a source can have is well formed.
-/
import ExprFront.Proofs.Grammar.Derivation
import ExprFront.Proofs.Stream.Normal

namespace ExprFront

open Spelling

/-! ## Nodes -/

/-- A name is well formed if it is a word, and a plain one is no reserved word and no literal.  It
may be a contextual keyword. -/
def Identifier.WellFormed (i : Identifier) : Prop :=
  IsWord i.name.toList ∧
    (i.backticked = false → i.name ∉ wordLiterals ∧ ∀ word : ReservedWord, word.spelling ≠ i.name)

mutual

/-- The names and operators of an expression are well formed, and so is what it is made of. -/
def Expression.WellFormed : Expression → Prop
  | .inOut name => name.WellFormed
  | .prefixed operator operand => IsOperator operator.toList ∧ operand.WellFormed
  | .plain operand => operand.WellFormed

/-- The payloads of an operand are well formed, and so is what it is made of.  Neither a call nor a
postfix operator applies to a postfix operator. -/
def Operand.WellFormed : Operand → Prop
  | .name name => name.WellFormed
  | .literal value => value.Valid
  | .parenthesized inner => inner.WellFormed
  | .call callee arguments =>
      callee.WellFormed ∧ callee.isPostfixed = false ∧ Expression.AllWellFormed arguments
  | .member base name => base.WellFormed ∧ name.WellFormed
  | .postfixed operand operator =>
      operand.WellFormed ∧ operand.isPostfixed = false ∧ IsOperator operator.toList

/-- Every expression of the list is well formed. -/
def Expression.AllWellFormed : List Expression → Prop
  | [] => True
  | e :: rest => e.WellFormed ∧ Expression.AllWellFormed rest

end

/-- All members of a list are well formed if each of them is. -/
theorem Expression.allWellFormed_iff (es : List Expression) :
    AllWellFormed es ↔ ∀ e ∈ es, e.WellFormed := by
  induction es with
  | nil => simp [AllWellFormed]
  | cons e es ih => simp [AllWellFormed, ih]

/-- What a list of kinds stands for is well formed. -/
def Phrase.WellFormed : Phrase → Prop
  | .expression e => e.WellFormed
  | .operand o => o.WellFormed
  | .members es => Expression.AllWellFormed es

/-! ## Kinds of a source -/

/-- The kinds can stand one behind the other in a source. -/
structure Legible (w : List Kind) : Prop where
  valid : ∀ k ∈ w, k.Valid
  compatible : w.IsChain Compatible

namespace Legible

variable {k : Kind} {u w : List Kind}

/-- The first part of legible kinds is legible. -/
theorem left (h : Legible (u ++ w)) : Legible u :=
  ⟨fun k hk => h.valid k (List.mem_append_left w hk), h.compatible.left_of_append⟩

/-- The second part of legible kinds is legible. -/
theorem right (h : Legible (u ++ w)) : Legible w :=
  ⟨fun k hk => h.valid k (List.mem_append_right u hk), h.compatible.right_of_append⟩

/-- What follows the first of legible kinds is legible. -/
theorem tail (h : Legible (k :: w)) : Legible w :=
  ⟨fun m hm => h.valid m (List.mem_cons_of_mem k hm), h.compatible.tail⟩

/-- The first of legible kinds is valid. -/
theorem head (h : Legible (k :: w)) : k.Valid := h.valid k List.mem_cons_self

end Legible

/-- The kinds of a normal list are legible. -/
theorem Normal.legible {kinds : List Kind} (h : Normal kinds) : Legible kinds :=
  ⟨h.valid, h.compatible⟩

/-! ## Derived nodes -/

/-- A reserved word is spelled like no contextual word. -/
theorem ReservedWord.spelling_ne (word : ReservedWord) (other : ContextualWord) :
    word.spelling ≠ other.spelling := by
  intro h
  have hword := Keyword.ofWord?_spelling (.reserved word)
  have hother := Keyword.ofWord?_spelling (.contextual other)
  rw [show (Keyword.reserved word).spelling = (Keyword.contextual other).spelling from h, hother]
    at hword
  cases hword

/-- A valid kind that can be read as a name is read as a well-formed one. -/
theorem Kind.wellFormed_of_name? {k : Kind} {name : Identifier} (hk : k.Valid)
    (hname : k.name? = some name) : name.WellFormed := by
  cases k with
  | identifier i =>
      cases hname
      exact ⟨hk.1, fun hplain => ⟨(hk.2 hplain).1, fun word => (hk.2 hplain).2 (.reserved word)⟩⟩
  | keyword word =>
      cases word with
      | reserved word => cases hname
      | contextual word =>
          cases hname
          exact ⟨(Keyword.contextual word).isWord_spelling, fun _ =>
            ⟨(Keyword.contextual word).spelling_notMem_wordLiterals,
              fun other => other.spelling_ne word⟩⟩
  | _ => cases hname

/-- The kinds of an operand that ends in a postfix operator end in an operator. -/
theorem Derives.exists_append_operator {u : List Kind} {o : Operand}
    (h : Derives u (.operand o)) (ho : o.isPostfixed = true) :
    ∃ u' text, u = u' ++ [.operator text] := by
  cases h with
  | postfixed operator operand => exact ⟨_, operator, rfl⟩
  | _ => cases ho

/-- An operator does not directly follow an operand that ends in a postfix operator. -/
theorem Derives.isPostfixed_eq_false {u : List Kind} {o : Operand} {text : String}
    (h : Derives u (.operand o)) (hu : Legible (u ++ [.operator text])) :
    o.isPostfixed = false := by
  rw [Bool.eq_false_iff]
  intro ho
  obtain ⟨u', text', rfl⟩ := h.exists_append_operator ho
  rw [List.append_assoc] at hu
  -- The two operators would be neighbours.
  have hpair := (List.isChain_cons.1 hu.right.compatible).1 _ rfl
  exact (hpair.operatorRun rfl).1 rfl

/-- **What is derived from legible kinds is well formed.** -/
theorem Derives.wellFormed {w : List Kind} {p : Phrase} (h : Derives w p) (hw : Legible w) :
    p.WellFormed := by
  induction h with
  | inOut hname htrivia => exact Kind.wellFormed_of_name? hw.tail.head hname
  | prefixed operator operand ih => exact ⟨hw.head, ih hw.tail⟩
  | plain operand ih => exact ih hw
  | name hname => exact Kind.wellFormed_of_name? hw.head hname
  | literal value => exact hw.head
  | parenthesized inner ih => exact ih hw.left.tail
  | callEmpty callee hcallee ih => exact ⟨ih hw.left, hcallee, trivial⟩
  | call callee hcallee arguments ih iharguments =>
      exact ⟨ih hw.left, hcallee, iharguments hw.right.left.tail⟩
  | member base hname ih =>
      exact ⟨ih hw.left, Kind.wellFormed_of_name? hw.right.tail.head hname⟩
  | postfixed operator operand ih =>
      exact ⟨ih hw.left, operand.isPostfixed_eq_false hw, hw.right.head⟩
  | single member ih => exact ⟨ih hw, trivial⟩
  | more member htrivia rest ih ihrest => exact ⟨ih hw.left, ihrest hw.right.tail.right⟩

end ExprFront
