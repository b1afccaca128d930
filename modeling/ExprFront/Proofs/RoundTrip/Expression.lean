/-
# Expressions that survive printing

A well-formed expression is printed as kinds that stand for it, and these kinds are spaced, so that
the scanner reads them back.  Only well-formed expressions are ever read.  So exactly these survive
printing, alone and in lists.
-/
import ExprFront.Proofs.RoundTrip.Rereading
import ExprFront.Proofs.Session.Source

namespace ExprFront

/-! ## What is printed stands for the node -/

/-- What follows an expression is printed behind it. -/
theorem Expression.map_reread_emit (e : Expression) (tail : List Kind) :
    (e.emit tail).map Kind.reread = (e.emit []).map Kind.reread ++ tail.map Kind.reread := by
  rw [← List.map_append, ← e.emit_append, List.nil_append]

/-- What follows an operand is printed behind it. -/
theorem Operand.map_reread_emit (o : Operand) (tail : List Kind) :
    (o.emit tail).map Kind.reread = (o.emit []).map Kind.reread ++ tail.map Kind.reread := by
  rw [← List.map_append, ← o.emit_append, List.nil_append]

/-- What follows a list is printed behind it. -/
theorem Expression.map_reread_emitList (es : List Expression) (tail : List Kind) :
    (emitList es tail).map Kind.reread =
      (emitList es []).map Kind.reread ++ tail.map Kind.reread := by
  rw [← List.map_append, ← emitList_append, List.nil_append]

/-- Further members are printed as a list behind a comma and a space. -/
theorem Expression.emitMore_eq {es : List Expression} (hes : es ≠ []) (tail : List Kind) :
    emitMore es tail = .punctuator .comma :: .space :: emitList es tail := by
  cases es with
  | nil => exact absurd rfl hes
  | cons e rest => rfl

mutual

/-- A well-formed expression is printed as kinds that stand for it. -/
theorem Expression.derives_emit (e : Expression) (h : e.WellFormed) :
    Derives ((e.emit []).map Kind.reread) (.expression e) := by
  cases e with
  | inOut name =>
      show Derives [.punctuator .ampersand, name.kind] _
      exact .inOut (Identifier.WellFormed.name?_kind h) (by simp)
  | prefixed operator operand => exact .prefixed operator (operand.derives_emit h.2)
  | plain operand => exact .plain (operand.derives_emit h)

/-- A well-formed operand is printed as kinds that stand for it. -/
theorem Operand.derives_emit (o : Operand) (h : o.WellFormed) :
    Derives ((o.emit []).map Kind.reread) (.operand o) := by
  cases o with
  | name name => exact .name (Identifier.WellFormed.name?_kind h)
  | literal value => exact .literal value
  | parenthesized inner =>
      have hinner := inner.derives_emit h
      rw [Operand.emit, List.map_cons, inner.map_reread_emit]
      exact .parenthesized hinner
  | call callee arguments =>
      obtain ⟨hcallee, hpostfixed, harguments⟩ := h
      have hu := callee.derives_emit hcallee
      rw [Operand.emit, callee.map_reread_emit, List.map_cons, Expression.map_reread_emitList]
      by_cases hnil : arguments = []
      · subst hnil
        exact .callEmpty hu hpostfixed
      · exact .call hu hpostfixed (Expression.derives_emitList arguments harguments hnil)
  | member base name =>
      have hu := base.derives_emit h.1
      rw [Operand.emit, base.map_reread_emit]
      exact .member hu h.2.name?_kind
  | postfixed operand operator =>
      have hu := operand.derives_emit h.1
      rw [Operand.emit, operand.map_reread_emit]
      exact .postfixed operator hu

/-- A list of well-formed expressions is printed as kinds that stand for it. -/
theorem Expression.derives_emitList (es : List Expression) (h : Expression.AllWellFormed es)
    (hne : es ≠ []) : Derives ((Expression.emitList es []).map Kind.reread) (.members es) := by
  cases es with
  | nil => exact absurd rfl hne
  | cons e rest =>
      have he := e.derives_emit h.1
      rw [Expression.emitList, e.map_reread_emit]
      by_cases hnil : rest = []
      · subst hnil
        rw [Expression.emitMore, List.map_nil, List.append_nil]
        exact .single he
      · have hrest := Expression.derives_emitList rest h.2 hnil
        have hspace : ∀ t ∈ [Kind.space], t.isTrivia = true := by simp [Kind.space, Kind.isTrivia]
        rw [Expression.emitMore_eq hnil]
        exact .more he hspace hrest

end

/-! ## What is printed is spaced -/

/-- What begins an operand is no operator run, no comment and no whitespace. -/
theorem Kind.category_of_beginsOperand {k : Kind} (h : k.beginsOperand = true) :
    k.category ≠ .operatorRun ∧ k.category ≠ .comment ∧ k.category ≠ .whitespace := by
  cases k with
  | identifier name =>
      obtain ⟨name, backticked⟩ := name
      cases backticked <;> simp [Kind.category]
  | keyword word => simp [Kind.category]
  | literal value => cases value <;> simp [Kind.category]
  | punctuator mark =>
      cases mark with
      | leftParen => exact ⟨by decide, by decide, by decide⟩
      | _ => cases h
  | _ => cases h

/-- An operand is not printed with an operator run or a comment in front. -/
theorem Operand.head_emit {o : Operand} (h : o.WellFormed) (tail : List Kind) :
    ∀ next ∈ ((o.emit tail).map Kind.reread ++ [Kind.endOfInput]).head?,
      next.category ≠ .operatorRun ∧ next.category ≠ .comment := by
  obtain ⟨k, rest, hemit, hk⟩ := (o.derives_emit h).exists_cons
  rw [o.map_reread_emit, hemit]
  intro next hnext
  obtain rfl : k = next := by simpa using hnext
  obtain ⟨hrun, hcomment, -⟩ := Kind.category_of_beginsOperand hk
  exact ⟨hrun, hcomment⟩

/-- An expression is not printed with whitespace in front. -/
theorem Expression.head_emit {e : Expression} (h : e.WellFormed) (tail : List Kind) :
    ∀ next ∈ ((e.emit tail).map Kind.reread ++ [Kind.endOfInput]).head?,
      next.category ≠ .whitespace := by
  obtain ⟨k, rest, hemit, hk⟩ := (e.derives_emit h).exists_cons
  rw [e.map_reread_emit, hemit]
  intro next hnext
  obtain rfl : k = next := by simpa using hnext
  exact Kind.category_ne_whitespace (Phrase.isTrivia_eq_false_of_beginsWith hk)

/-- Further members may follow whatever the kinds behind them may follow. -/
theorem Expression.canFollow_emitMore {es : List Expression} {tail : List Kind}
    (h : CanFollow true (tail.map Kind.reread ++ [.endOfInput])) :
    CanFollow true ((emitMore es tail).map Kind.reread ++ [.endOfInput]) := by
  cases es with
  | nil => exact h
  | cons e rest => exact canFollow_of_mark rfl nofun

mutual

/-- A well-formed expression is printed as spaced kinds, in front of kinds that may follow it. -/
theorem Expression.spaced_emit (e : Expression) (h : e.WellFormed) (tail : List Kind)
    (htail : Spaced (tail.map Kind.reread))
    (hfollow : CanFollow true (tail.map Kind.reread ++ [.endOfInput])) :
    Spaced ((e.emit tail).map Kind.reread) := by
  cases e with
  | inOut name =>
      have hname := spaced_cons_of_name h htail hfollow
      refine ⟨trivial, nofun, Kind.leadsTo_of_operatorRun rfl ?_, hname⟩
      intro next hnext
      obtain rfl : name.kind = next := by simpa [Kind.reread] using hnext
      rcases Identifier.WellFormed.category_kind h with h | h <;> simp [h]
  | prefixed operator operand =>
      -- The operator would run together with another one, but no operand begins with an operator.
      refine ⟨h.1, nofun, Kind.leadsTo_of_operatorRun rfl (Operand.head_emit h.2 tail), ?_⟩
      exact operand.spaced_emit h.2 tail htail (hfollow.weaken _)
  | plain operand => exact operand.spaced_emit h tail htail (hfollow.weaken _)

/-- A well-formed operand is printed as spaced kinds, in front of kinds that may follow it. -/
theorem Operand.spaced_emit (o : Operand) (h : o.WellFormed) (tail : List Kind)
    (htail : Spaced (tail.map Kind.reread))
    (hfollow : CanFollow o.isPostfixed (tail.map Kind.reread ++ [.endOfInput])) :
    Spaced ((o.emit tail).map Kind.reread) := by
  cases o with
  | name name => exact spaced_cons_of_name h htail hfollow
  | literal value => exact spaced_cons_of_literal h htail hfollow
  | parenthesized inner =>
      refine spaced_cons_of_mark trivial rfl (inner.spaced_emit h _ ?_ ?_)
      · exact spaced_cons_of_mark trivial rfl htail
      · exact canFollow_of_mark rfl nofun
  | call callee arguments =>
      obtain ⟨hcallee, -, harguments⟩ := h
      refine callee.spaced_emit hcallee _ ?_ (canFollow_of_mark rfl nofun)
      refine spaced_cons_of_mark trivial rfl ?_
      refine Expression.spaced_emitList arguments harguments _ ?_ (canFollow_of_mark rfl nofun)
      exact spaced_cons_of_mark trivial rfl htail
  | member base name =>
      -- A name and no number stands behind the point, so an integer before it stays an integer.
      refine base.spaced_emit h.1 _ ?_ ?_
      · exact spaced_cons_of_mark trivial rfl (spaced_cons_of_name h.2 htail hfollow)
      · refine ⟨_, _, rfl, .inl rfl, fun _ m hm => ?_⟩
        obtain rfl : name.kind = m := by simpa [Kind.reread] using hm
        rcases Identifier.WellFormed.category_kind h.2 with h | h <;> simp [h]
  | postfixed operand operator =>
      -- Two operators would run together, but the operand does not end in one.
      obtain ⟨hoperand, hpostfixed, hoperator⟩ := h
      refine operand.spaced_emit hoperand _ ?_ ?_
      · refine ⟨hoperator, nofun, ?_, htail⟩
        exact Kind.leadsTo_of_canFollow hfollow nofun nofun fun _ => rfl
      · exact ⟨_, _, rfl, .inr (.inr ⟨rfl, hpostfixed⟩), nofun⟩

/-- Well-formed expressions are printed as spaced kinds, in front of kinds that may follow them. -/
theorem Expression.spaced_emitList (es : List Expression) (h : Expression.AllWellFormed es)
    (tail : List Kind) (htail : Spaced (tail.map Kind.reread))
    (hfollow : CanFollow true (tail.map Kind.reread ++ [.endOfInput])) :
    Spaced ((Expression.emitList es tail).map Kind.reread) := by
  cases es with
  | nil => exact htail
  | cons e rest =>
      refine e.spaced_emit h.1 _ ?_ (Expression.canFollow_emitMore hfollow)
      exact Expression.spaced_emitMore rest h.2 tail htail hfollow

/-- Further members are printed as spaced kinds, in front of kinds that may follow them. -/
theorem Expression.spaced_emitMore (es : List Expression) (h : Expression.AllWellFormed es)
    (tail : List Kind) (htail : Spaced (tail.map Kind.reread))
    (hfollow : CanFollow true (tail.map Kind.reread ++ [.endOfInput])) :
    Spaced ((Expression.emitMore es tail).map Kind.reread) := by
  cases es with
  | nil => exact htail
  | cons e rest =>
      have hrest := Expression.spaced_emitMore rest h.2 tail htail hfollow
      have he := e.spaced_emit h.1 _ hrest (Expression.canFollow_emitMore hfollow)
      refine spaced_cons_of_mark trivial rfl ⟨Kind.valid_space, nofun, ?_, he⟩
      exact Kind.leadsTo_space (Expression.head_emit h.1 _)

end

/-! ## Reading what is printed -/

open Cursor

/-- What is read as an expression is well formed. -/
theorem Expression.wellFormed_of_parseSource {source : String} {e : Expression}
    (h : Entry.expression.parseSource source = .ok e) : e.WellFormed := by
  obtain ⟨before, w, after, hnormal, hw⟩ :=
    Entry.exists_normal_of_parseSource recognizes_expression h
  exact hw.wellFormed hnormal.legible.right.left

/-- What is read as a list has members, and they are well formed. -/
theorem Expression.allWellFormed_of_parseSource {source : String} {es : List Expression}
    (h : Entry.expressionList.parseSource source = .ok es) : es ≠ [] ∧ AllWellFormed es := by
  obtain ⟨before, w, after, hnormal, hw⟩ :=
    Entry.exists_normal_of_parseSource recognizes_expressionList h
  exact ⟨hw.members_ne_nil, hw.wellFormed hnormal.legible.right.left⟩

/-- A well-formed expression is read back from its text. -/
theorem Expression.parseSource_text {e : Expression} (h : e.WellFormed) :
    Entry.expression.parseSource e.text = .ok e := by
  have hw := e.derives_emit h
  have hspaced := e.spaced_emit h [] trivial (canFollow_end true)
  have htext := Kind.toList_textOf_reread (e.emit [])
  obtain ⟨k, rest, hemit, hk⟩ := hw.exists_cons
  rw [hemit] at hw hspaced htext
  refine Entry.parseSource_of_spaced recognizes_expression htext hspaced
    (Phrase.isTrivia_eq_false_of_beginsWith hk) ?_
  intro c d hpasses hend
  exact hw.isReadFrom c d hpasses (avoids_of_headKind_eq_none hend _)

/-- A list of well-formed expressions is read back from its text. -/
theorem Expression.parseSource_textList {es : List Expression} (hne : es ≠ [])
    (h : AllWellFormed es) : Entry.expressionList.parseSource (textList es) = .ok es := by
  have hw := Expression.derives_emitList es h hne
  have hspaced := Expression.spaced_emitList es h [] trivial (canFollow_end true)
  have htext := Kind.toList_textOf_reread (emitList es [])
  obtain ⟨k, rest, hemit, hk⟩ := hw.exists_cons
  rw [hemit] at hw hspaced htext
  refine Entry.parseSource_of_spaced recognizes_expressionList htext hspaced
    (Phrase.isTrivia_eq_false_of_beginsWith hk) ?_
  intro c d hpasses hend
  exact expressionList_of_isReadFrom hw.isReadFrom hpasses (avoids_of_headKind_eq_none hend _)

/-- **Exactly the well-formed expressions survive printing**, and exactly the lists of them that
have a member. -/
theorem parseSource_text_iff_wellFormed :
    (∀ e : Expression, Entry.expression.parseSource e.text = .ok e ↔ e.WellFormed) ∧
      ∀ es : List Expression, Entry.expressionList.parseSource (Expression.textList es) = .ok es ↔
        es ≠ [] ∧ ∀ e ∈ es, e.WellFormed := by
  refine ⟨fun e => ⟨fun h => Expression.wellFormed_of_parseSource h, Expression.parseSource_text⟩,
    fun es => ?_⟩
  rw [← Expression.allWellFormed_iff]
  constructor
  · exact Expression.allWellFormed_of_parseSource
  · rintro ⟨hne, h⟩
    exact Expression.parseSource_textList hne h

end ExprFront
