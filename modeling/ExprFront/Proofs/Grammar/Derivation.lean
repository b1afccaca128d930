/-
# The language of expressions

`Derives w p` says that the kinds `w` stand for the phrase `p`, apart from how they are read:

```text
expression → `&` name trivia* | operator operand | operand
operand    → name | literal | `(` expression `)`
           | operand `(` `)` | operand `(` members `)` | operand `.` name | operand operator
members    → expression | expression `,` trivia* members
```

A call does not apply to an operand that ends in a postfix operator: there the operator is read as
one that stands before the parenthesis.
-/
import ExprFront.Tree.Expression
import ExprFront.Proofs.Grammar.Passing

namespace ExprFront

/-! ## Phrases -/

/-- What a list of kinds may stand for. -/
inductive Phrase where
  | expression (e : Expression)
  | operand (o : Operand)
  | members (es : List Expression)

/-- Whether the operand ends in a postfix operator. -/
def Operand.isPostfixed : Operand → Bool
  | .postfixed _ _ => true
  | _ => false

/-! ## Derivations -/

/-- The kinds stand for the phrase. -/
inductive Derives : List Kind → Phrase → Prop
  | inOut {k : Kind} {name : Identifier} {trivia : List Kind} (hname : k.name? = some name)
      (htrivia : ∀ t ∈ trivia, t.isTrivia = true) :
      Derives (.punctuator .ampersand :: k :: trivia) (.expression (.inOut name))
  | prefixed {w : List Kind} {o : Operand} (operator : String) (operand : Derives w (.operand o)) :
      Derives (.operator operator :: w) (.expression (.prefixed operator o))
  | plain {w : List Kind} {o : Operand} (operand : Derives w (.operand o)) :
      Derives w (.expression (.plain o))
  | name {k : Kind} {name : Identifier} (hname : k.name? = some name) :
      Derives [k] (.operand (.name name))
  | literal (value : Literal) : Derives [.literal value] (.operand (.literal value))
  | parenthesized {w : List Kind} {e : Expression} (inner : Derives w (.expression e)) :
      Derives (.punctuator .leftParen :: w ++ [.punctuator .rightParen])
        (.operand (.parenthesized e))
  | callEmpty {u : List Kind} {o : Operand} (callee : Derives u (.operand o))
      (hcallee : o.isPostfixed = false) :
      Derives (u ++ [.punctuator .leftParen, .punctuator .rightParen]) (.operand (.call o []))
  | call {u w : List Kind} {o : Operand} {es : List Expression} (callee : Derives u (.operand o))
      (hcallee : o.isPostfixed = false) (arguments : Derives w (.members es)) :
      Derives (u ++ (.punctuator .leftParen :: w ++ [.punctuator .rightParen]))
        (.operand (.call o es))
  | member {u : List Kind} {o : Operand} {k : Kind} {name : Identifier}
      (base : Derives u (.operand o)) (hname : k.name? = some name) :
      Derives (u ++ [.punctuator .dot, k]) (.operand (.member o name))
  | postfixed {u : List Kind} {o : Operand} (operator : String) (operand : Derives u (.operand o)) :
      Derives (u ++ [.operator operator]) (.operand (.postfixed o operator))
  | single {w : List Kind} {e : Expression} (member : Derives w (.expression e)) :
      Derives w (.members [e])
  | more {u trivia w : List Kind} {e : Expression} {es : List Expression}
      (member : Derives u (.expression e)) (htrivia : ∀ t ∈ trivia, t.isTrivia = true)
      (rest : Derives w (.members es)) :
      Derives (u ++ .punctuator .comma :: (trivia ++ w)) (.members (e :: es))

/-! ## What a derivation begins with -/

/-- Whether an operand may begin with a token of the kind. -/
def Kind.beginsOperand (k : Kind) : Bool :=
  match k with
  | .literal _ => true
  | .punctuator .leftParen => true
  | _ => k.name?.isSome

/-- Whether a phrase may begin with a token of the kind. -/
def Phrase.beginsWith (k : Kind) : Phrase → Bool
  | .operand _ => k.beginsOperand
  | _ =>
      match k with
      | .punctuator .ampersand => true
      | .operator _ => true
      | _ => k.beginsOperand

/-- What reads as a name begins an operand. -/
theorem Kind.beginsOperand_of_name? {k : Kind} {name : Identifier} (h : k.name? = some name) :
    k.beginsOperand = true := by
  cases k <;> simp_all [Kind.name?, Kind.beginsOperand]

/-- A phrase is not empty and begins with a kind that it may begin with. -/
theorem Derives.exists_cons {w : List Kind} {p : Phrase} (h : Derives w p) :
    ∃ k rest, w = k :: rest ∧ p.beginsWith k = true := by
  have weaken {k : Kind} {e : Expression} (hk : k.beginsOperand = true) :
      (Phrase.expression e).beginsWith k = true := by
    simp only [Phrase.beginsWith, hk]
    split <;> rfl
  induction h with
  | inOut hname htrivia => exact ⟨_, _, rfl, rfl⟩
  | prefixed operator operand ih => exact ⟨_, _, rfl, rfl⟩
  | plain operand ih =>
      obtain ⟨k, rest, rfl, hk⟩ := ih
      exact ⟨k, rest, rfl, weaken hk⟩
  | name hname => exact ⟨_, _, rfl, Kind.beginsOperand_of_name? hname⟩
  | literal value => exact ⟨_, _, rfl, rfl⟩
  | parenthesized inner ih => exact ⟨_, _, rfl, rfl⟩
  | callEmpty callee hcallee ih =>
      obtain ⟨k, rest, rfl, hk⟩ := ih
      exact ⟨k, _, rfl, hk⟩
  | call callee hcallee arguments ih _ =>
      obtain ⟨k, rest, rfl, hk⟩ := ih
      exact ⟨k, _, rfl, hk⟩
  | member base hname ih =>
      obtain ⟨k, rest, rfl, hk⟩ := ih
      exact ⟨k, _, rfl, hk⟩
  | postfixed operator operand ih =>
      obtain ⟨k, rest, rfl, hk⟩ := ih
      exact ⟨k, _, rfl, hk⟩
  | single member ih => exact ih
  | more member htrivia rest ih _ =>
      obtain ⟨k, rest, rfl, hk⟩ := ih
      exact ⟨k, _, rfl, hk⟩

/-- What is derived is not empty. -/
theorem Derives.ne_nil {w : List Kind} {p : Phrase} (h : Derives w p) : w ≠ [] := by
  obtain ⟨k, rest, rfl, -⟩ := h.exists_cons
  exact List.cons_ne_nil k rest

/-- A list that is derived has a member. -/
theorem Derives.members_ne_nil {w : List Kind} {es : List Expression}
    (h : Derives w (.members es)) : es ≠ [] := by
  cases h with
  | single member => simp
  | more member htrivia rest => simp

/-- No phrase reaches over the end of input. -/
theorem Derives.endOfInput_notMem {w : List Kind} {p : Phrase} (h : Derives w p) :
    .endOfInput ∉ w := by
  induction h with
  | inOut hname htrivia =>
      simp [Kind.endOfInput_ne_of_name? hname, Kind.endOfInput_notMem_of_isTrivia htrivia]
  | prefixed operator operand ih => simp [ih]
  | plain operand ih => exact ih
  | name hname => simp [Kind.endOfInput_ne_of_name? hname]
  | literal value => simp
  | parenthesized inner ih => simp [ih]
  | callEmpty callee hcallee ih => simp [ih]
  | call callee hcallee arguments ih iharguments => simp [ih, iharguments]
  | member base hname ih => simp [ih, Kind.endOfInput_ne_of_name? hname]
  | postfixed operator operand ih => simp [ih]
  | single member ih => exact ih
  | more member htrivia rest ih ihrest =>
      simp [ih, ihrest, Kind.endOfInput_notMem_of_isTrivia htrivia]

end ExprFront
