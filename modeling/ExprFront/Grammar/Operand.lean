/-
# Layers that consult the grammar

Operands hold expressions, so a layer for them has to run the expression rules on what lies further
on, and these run the layer again.  `Layer.tie` closes that circle: it turns the description of a
layer in terms of itself into a layer.  Each turn of the circle has to move to a later token.

The standard layer is described that way:

```text
operand → primary suffix*
primary → name | literal | `(` expression `)`
suffix  → `(` expression-list? `)` | `.` name | postfix-operator
```

Suffixes stand directly behind what they apply to.  An opening parenthesis and a point commit: what
follows them has to be there.

The main facts are `Layer.tie_eq`, that a description which only looks further on is what its layer
does, and `Layer.standard_eq`, the same for the standard layer.
-/
import ExprFront.Grammar.Expression

namespace ExprFront

/-! ## The circle -/

/-- The layer that `body` describes in terms of itself.  At a cursor it may consult itself only
where fewer tokens remain; elsewhere it finds that it does not apply. -/
def Layer.tie (body : Layer → Layer) (c : Cursor) : RuleResult Operand :=
  body (fun d => if d.remaining < c.remaining then Layer.tie body d else .ok .noMatch) c
termination_by c.remaining

namespace Grammar

/-! ## The standard layer -/

/-- Whether the head can begin an operand.  An operator before it then belongs to that operand. -/
def startsOperand (c : Cursor) : Bool :=
  match c.headKind with
  | some (.identifier _) => true
  | some (.keyword _) => true
  | some (.literal _) => true
  | some (.punctuator .leftParen) => true
  | some (.punctuator .ampersand) => true
  | _ => false

/-- What an operand begins with. -/
def primary (layer : Layer) (c : Cursor) : RuleResult Operand :=
  match c.headKind with
  | some (.literal value) => .ok (.matched (.literal value) 1)
  | some (.punctuator .leftParen) =>
      match (expression layer c.advance).required .expression c.advance with
      | .ok (inner, n) =>
          if (c.advanceBy (n + 1)).isPunctuator .rightParen then
            .ok (.matched (.parenthesized inner) (n + 2))
          else .error (.expecting .closingParen (c.advanceBy (n + 1)))
      | .error f => .error f
  | _ =>
      match c.identifier? true with
      | some name => .ok (.matched (.name name) 1)
      | none => .ok .noMatch

/-- The arguments of a call from behind its opening parenthesis, and how many tokens they take. -/
def arguments (layer : Layer) (c : Cursor) : Except Failure (List Expression × Nat) :=
  if c.isPunctuator .rightParen then .ok ([], 0)
  else (expressionList layer c).required .expression c

/-- The operand with all the suffixes from the cursor on, and where they end. -/
def suffixes (layer : Layer) (o : Operand) (c : Cursor) : Except Failure (Operand × Cursor) :=
  match h : c.headKind with
  | some (.punctuator .leftParen) =>
      match arguments layer c.advance with
      | .ok (es, n) =>
          have := Cursor.remaining_advanceBy_succ_lt h (n + 1)
          if (c.advanceBy (n + 1)).isPunctuator .rightParen then
            suffixes layer (.call o es) (c.advanceBy (n + 2))
          else .error (.expecting .closingParen (c.advanceBy (n + 1)))
      | .error f => .error f
  | some (.punctuator .dot) =>
      match c.advance.identifier? true with
      | some name =>
          have := Cursor.remaining_advanceBy_succ_lt h 1
          suffixes layer (.member o name) (c.advanceBy 2)
      | none => .error (.expecting .memberName c.advance)
  | some (.operator operator) =>
      have := Cursor.remaining_advance_lt h
      if startsOperand c.advance then .ok (o, c)
      else suffixes layer (.postfixed o operator) c.advance
  | _ => .ok (o, c)
termination_by c.remaining

/-- An operand of the standard layer, where `layer` reads the operands inside it. -/
def primaryWithSuffixes (layer : Layer) (c : Cursor) : RuleResult Operand :=
  match primary layer c with
  | .ok (.matched o n) =>
      match suffixes layer o (c.advanceBy n) with
      | .ok (whole, stop) => .ok (.matched whole (stop.since c))
      | .error f => .error f
  | .ok .noMatch => .ok .noMatch
  | .error f => .error f

/-! ## Where the layer inside is consulted -/

section Congruence

variable {layer other : Layer} {c : Cursor}

/-- What an operand begins with depends on the layer behind its first token only. -/
theorem primary_congr (h : ∀ d : Cursor, d.remaining < c.remaining → layer d = other d) :
    primary layer c = primary other c := by
  unfold primary
  split
  · rfl
  · next hk =>
      have := Cursor.remaining_advance_lt hk
      rw [expression_congr fun d hd => h d (by omega)]
  · rfl

/-- Arguments depend on the layer from their cursor on only. -/
theorem arguments_congr (h : ∀ d : Cursor, d.remaining ≤ c.remaining → layer d = other d) :
    arguments layer c = arguments other c := by
  rw [arguments, expressionList_congr h, arguments]

/-- Suffixes depend on the layer behind their first token only. -/
theorem suffixes_congr (o : Operand)
    (h : ∀ d : Cursor, d.remaining < c.remaining → layer d = other d) :
    suffixes layer o c = suffixes other o c := by
  have args {c : Cursor} {k : Kind} (hk : c.headKind = some k)
      (h : ∀ d : Cursor, d.remaining < c.remaining → layer d = other d) :
      arguments layer c.advance = arguments other c.advance := by
    have := Cursor.remaining_advance_lt hk
    exact arguments_congr fun d hd => h d (by omega)
  fun_induction suffixes layer o c with
  | case1 o c hk es n he hlt hclose ih =>
      rw [suffixes.eq_1 other]
      split <;> simp_all
      exact ih fun d hd => h d (Nat.lt_trans hd hlt)
  | case2 o c hk es n he hlt hclose =>
      rw [suffixes.eq_1 other]
      split <;> simp_all
  | case3 o c hk f he =>
      rw [suffixes.eq_1 other]
      split <;> simp_all
  | case4 o c hk name hname hlt ih =>
      rw [suffixes.eq_1 other]
      split <;> simp_all
      exact ih fun d hd => h d (Nat.lt_trans hd hlt)
  | case5 o c hk hname =>
      rw [suffixes.eq_1 other]
      split <;> simp_all
  | case6 o c operator hk hlt hstart =>
      rw [suffixes.eq_1 other]
      split <;> simp_all
  | case7 o c operator hk hlt hstart ih =>
      rw [suffixes.eq_1 other]
      split <;> simp_all
      exact ih fun d hd => h d (Nat.lt_trans hd hlt)
  | case8 o c =>
      rw [suffixes.eq_1 other]
      split <;> simp_all

/-- A primary reads at least one token that is there. -/
theorem remaining_lt_of_primary {o : Operand} {n : Nat} (h : primary layer c = .ok (.matched o n)) :
    (c.advanceBy n).remaining < c.remaining := by
  unfold primary at h
  split at h
  · next hk =>
      cases h
      exact Cursor.remaining_advance_lt hk
  · next hk =>
      split at h
      · split at h
        · cases h
          exact Cursor.remaining_advanceBy_succ_lt hk _
        · cases h
      · cases h
  · split at h
    · next hname =>
        cases h
        obtain ⟨kind, hk⟩ := Cursor.exists_headKind_of_identifier? hname
        exact Cursor.remaining_advance_lt hk
    · cases h

/-- A whole operand depends on the layer inside it behind its first token only. -/
theorem primaryWithSuffixes_congr
    (h : ∀ d : Cursor, d.remaining < c.remaining → layer d = other d) :
    primaryWithSuffixes layer c = primaryWithSuffixes other c := by
  unfold primaryWithSuffixes
  rw [← primary_congr h]
  split
  · next o n hp =>
      have := remaining_lt_of_primary hp
      rw [suffixes_congr o fun d hd => h d (by omega)]
  · rfl
  · rfl

end Congruence

end Grammar

namespace Layer

/-- **The circle closes.**  A description that consults its layer on later tokens only is what the
layer does at every cursor. -/
theorem tie_eq {body : Layer → Layer}
    (later : ∀ (layer other : Layer) (c : Cursor),
      (∀ d : Cursor, d.remaining < c.remaining → layer d = other d) → body layer c = body other c)
    (c : Cursor) : tie body c = body (tie body) c := by
  rw [tie]
  exact later _ _ c fun d hd => by simp [hd]

/-- The standard layer of operands. -/
def standard (c : Cursor) : RuleResult Operand := tie Grammar.primaryWithSuffixes c

/-- **The standard layer is what describes it**, with itself for the operands inside. -/
theorem standard_eq (c : Cursor) : standard c = Grammar.primaryWithSuffixes standard c :=
  @tie_eq Grammar.primaryWithSuffixes (fun _ _ _ h => Grammar.primaryWithSuffixes_congr h) c

end Layer

end ExprFront
