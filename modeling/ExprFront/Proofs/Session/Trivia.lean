/-
# Trivia among the tokens of a source

Trivia never change what accepted tokens mean, they only decide whether tokens are accepted.  They
may stand in front of all other tokens, behind all others, and in the gaps of the phrase between;
one of them anywhere else makes the parse fail.  The main result is
`Entry.toleratesTrivia_standard`.
-/
import ExprFront.Proofs.Session.Acceptance
import ExprFront.Proofs.Grammar.Trivia

namespace ExprFront

open Gap

/-! ## Trivia in a sentence -/

/-- Between these kinds trivia may stand: nothing else stands on one side of it, or it is in a
gap. -/
def MayHoldTrivia (u w : List Kind) : Prop :=
  (∀ k ∈ u, k.isTrivia = true) ∨ (∀ k ∈ w, k.isTrivia = true) ∨ EndsInGap u

variable {α : Type} {entry : Entry α} {language : List Kind → α → Prop} {v : α} {u w : List Kind}

/-- A cut of three parts is in the first, in the third, or properly inside the second. -/
theorem exists_cut {before core after : List Kind} (h : u ++ w = before ++ (core ++ after)) :
    (∃ x, before = u ++ x ∧ w = x ++ (core ++ after)) ∨
      (∃ x, u = before ++ (core ++ x) ∧ after = x ++ w) ∨
      ∃ x y, x ≠ [] ∧ y ≠ [] ∧ u = before ++ x ∧ core = x ++ y ∧ w = y ++ after := by
  rcases exists_of_append_eq_append h with hfirst | ⟨x, hx, rfl, hcore⟩
  · exact .inl hfirst
  · rcases List.append_eq_append_iff.1 hcore with ⟨y, rfl, hafter⟩ | ⟨y, rfl, rfl⟩
    · exact .inr (.inl ⟨y, rfl, hafter⟩)
    · cases y with
      | nil => exact .inr (.inl ⟨[], by simp, rfl⟩)
      | cons k y => exact .inr (.inr ⟨x, k :: y, hx, by simp, rfl, rfl, rfl⟩)

/-- What is no trivia leads to the same from a gap as from none. -/
theorem Gap.run_opened_cons {k : Kind} (hk : k.isTrivia = false) :
    opened.run (k :: w) = closed.run (k :: w) := by
  have hstep : opened.step k = closed.step k := by
    unfold step
    split <;> first | rfl | cases hk
  rw [run, run, hstep]

/-- Properly inside a phrase trivia may stand only where a gap is open. -/
theorem Gap.run_eq_opened_of_mayHoldTrivia {before x y after : List Kind} {k : Kind} {g : Gap}
    (hbefore : ∀ k ∈ before, k.isTrivia = true) (hk : k.isTrivia = false) (hy : y ≠ [])
    (hrun : closed.run (k :: x ++ y) = some g)
    (h : MayHoldTrivia (before ++ k :: x) (y ++ after)) : closed.run (k :: x) = some opened := by
  obtain ⟨m, hm, hrest⟩ := exists_of_run_append hrun
  rcases h with hall | hall | hgap
  · have htrivia := hall k (by simp)
    rw [hk] at htrivia
    cases htrivia
  · obtain ⟨t, y, rfl⟩ := List.exists_cons_of_ne_nil hy
    rw [run] at hrest
    obtain ⟨m', hstep, -⟩ := Option.bind_eq_some_iff.1 hrest
    rw [hm, eq_opened_of_step (hall t (by simp)) hstep]
  · have hbehind : opened.run (before ++ k :: x) = some m := by
      rw [run_append_of_run (run_opened_of_isTrivia hbefore), run_opened_cons hk, hm]
    rw [hm, run_eq_opened_of_endsInGap hgap hbehind]

/-- Trivia behind trivia may stand where they may without those. -/
theorem EndsInGap.append_left (before : List Kind) (h : EndsInGap u) :
    EndsInGap (before ++ u) := by
  obtain ⟨front, opener, trivia, rfl, hopener, htrivia⟩ := h
  exact ⟨before ++ front, opener, trivia, by simp only [List.append_assoc], hopener, htrivia⟩

namespace Sentence

/-- A sentence stays one without its trivia. -/
theorem significant (laws : TriviaLaws language) (h : Sentence language w v) :
    Sentence language (Kind.significant w) v := by
  obtain ⟨before, core, after, rfl, hbefore, hafter, hcore⟩ := h
  refine ⟨[], Kind.significant core, [], ?_, by simp, by simp, laws.significant _ _ hcore⟩
  simp [Kind.significant_of_isTrivia hbefore, Kind.significant_of_isTrivia hafter]

/-- **Where trivia may stand in a sentence, there may be more.** -/
theorem insert (laws : TriviaLaws language)
    (hfirst : ∀ w v, language w v → ∃ k rest, w = k :: rest ∧ k.isTrivia = false) {t : Kind}
    (h : Sentence language (u ++ w) v) (ht : t.isTrivia = true) (hplace : MayHoldTrivia u w) :
    Sentence language (u ++ t :: w) v := by
  obtain ⟨before, core, after, hall, hbefore, hafter, hcore⟩ := h
  rcases exists_cut hall with ⟨x, rfl, rfl⟩ | ⟨x, rfl, rfl⟩ | ⟨x, y, hx, hy, rfl, rfl, rfl⟩
  · refine ⟨u ++ t :: x, core, after, ?_, Kind.isTrivia_insert hbefore ht, hafter, hcore⟩
    rw [List.append_assoc, List.cons_append]
  · refine ⟨before, core, x ++ t :: w, ?_, hbefore, Kind.isTrivia_insert hafter ht, hcore⟩
    simp only [List.append_assoc]
  · obtain ⟨k, x, rfl⟩ := List.exists_cons_of_ne_nil hx
    obtain ⟨m, rest, heq, hk⟩ := hfirst _ _ hcore
    obtain ⟨rfl, -⟩ := List.cons.inj heq
    obtain ⟨g, hrun⟩ := laws.placed _ _ hcore
    have hgap := run_eq_opened_of_mayHoldTrivia hbefore hk hy hrun hplace
    refine ⟨before, k :: x ++ t :: y, after, ?_, hbefore, hafter, laws.insert _ _ _ _ hcore hgap ht⟩
    simp only [List.append_assoc, List.cons_append]

/-- **Trivia stand in a sentence only where they may.** -/
theorem mayHoldTrivia (laws : TriviaLaws language) {t : Kind}
    (h : Sentence language (u ++ t :: w) v) (ht : t.isTrivia = true) : MayHoldTrivia u w := by
  obtain ⟨before, core, after, hall, hbefore, hafter, hcore⟩ := h
  rcases exists_cut hall with ⟨x, rfl, -⟩ | ⟨x, -, rfl⟩ | ⟨x, y, hx, hy, rfl, rfl, hrest⟩
  · exact .inl fun k hk => hbefore k (List.mem_append_left x hk)
  · exact .inr (.inl fun k hk => hafter k (by simp [hk]))
  · obtain ⟨y, rfl, -⟩ := exists_of_append_eq_cons hrest.symm hy
    obtain ⟨g, hrun⟩ := laws.placed _ _ hcore
    obtain ⟨m, hm, hstep⟩ := exists_of_run_append hrun
    rw [run] at hstep
    obtain ⟨m', hstep, -⟩ := Option.bind_eq_some_iff.1 hstep
    rw [eq_opened_of_step ht hstep] at hm
    exact .inr (.inr ((endsInGap_of_run hm).append_left before))

end Sentence

/-! ## Trivia among accepted tokens -/

/-- Trivia never change what the entry makes of tokens.  Without them the tokens parse to the same,
and so do all tokens with the same significant kinds.  One more of them leaves the value where
trivia may stand, and is refused everywhere else. -/
structure Entry.ToleratesTrivia (entry : Entry α) : Prop where
  removed : ∀ (w : List Token) (v : α), entry.Accepts w v →
    entry.Accepts (w.filter (!·.kind.isTrivia)) v
  same : ∀ (w w' : List Token) (v v' : α), entry.Accepts w v → entry.Accepts w' v' →
    Kind.significant (w.map (·.kind)) = Kind.significant (w'.map (·.kind)) → v = v'
  inserted : ∀ (u w : List Token) (t : Token) (v : α), entry.Accepts (u ++ w) v →
    t.kind.isTrivia = true → MayHoldTrivia (u.map (·.kind)) (w.map (·.kind)) →
    entry.Accepts (u ++ t :: w) v
  refused : ∀ (u w : List Token) (t last : Token) (v : α), entry.Accepts (u ++ w) v →
    t.kind.isTrivia = true → ¬ MayHoldTrivia (u.map (·.kind)) (w.map (·.kind)) →
    last.kind = .endOfInput → ∃ e, entry.parseTokens (u ++ t :: w ++ [last]) = .error e

namespace Entry

/-- The significant kinds of tokens are those of the tokens that are no trivia. -/
theorem map_kind_filter (tokens : List Token) :
    (tokens.filter (!·.kind.isTrivia)).map (·.kind) =
      Kind.significant (tokens.map (·.kind)) := by
  rw [Kind.significant, List.filter_map]
  rfl

/-- Tokens are accepted with one value at most. -/
theorem Accepts.eq {tokens : List Token} {v' : α} (h : entry.Accepts tokens v)
    (h' : entry.Accepts tokens v') : v = v' :=
  Except.ok.inj ((h.2 ⟨.endOfInput, 0, 0, .start⟩ rfl).symm.trans (h'.2 _ rfl))

/-- An entry that reads a language with the laws of trivia tolerates trivia. -/
theorem Reads.toleratesTrivia (h : entry.Reads language) (laws : TriviaLaws language) :
    entry.ToleratesTrivia := by
  have removed (w : List Token) (v : α) (hw : entry.Accepts w v) :
      entry.Accepts (w.filter (!·.kind.isTrivia)) v := by
    rw [h.accepts_iff, map_kind_filter]
    exact (h.accepts_iff.1 hw).significant laws
  refine ⟨removed, ?_, ?_, ?_⟩
  · intro w w' v v' hw hw' hkinds
    refine (removed w v hw).eq ?_
    rw [h.accepts_iff, map_kind_filter, hkinds]
    exact (h.accepts_iff.1 hw').significant laws
  · intro u w t v hw ht hplace
    rw [h.accepts_iff, List.map_append] at hw
    rw [h.accepts_iff, List.map_append, List.map_cons]
    exact hw.insert laws h.exists_cons ht hplace
  · intro u w t last v hw ht hplace hlast
    have hend : .endOfInput ∉ (u ++ t :: w).map (·.kind) := by
      have := h.endOfInput_notMem_of_sentence (h.accepts_iff.1 hw)
      rw [List.map_append, List.mem_append, not_or] at this
      simp [this, Kind.ne_endOfInput_of_isTrivia ht |>.symm]
    cases hresult : entry.parseTokens (u ++ t :: w ++ [last]) with
    | error e => exact ⟨e, rfl⟩
    | ok v' =>
        have hsentence := (h.parseTokens_append_iff hend hlast).1 hresult
        rw [List.map_append, List.map_cons] at hsentence
        exact absurd (hsentence.mayHoldTrivia laws ht) hplace

/-- **Trivia change no meaning.**  The three entry points tolerate trivia, exactly where they may
stand. -/
theorem toleratesTrivia_standard : Entry.expression.ToleratesTrivia ∧
    Entry.expressionList.ToleratesTrivia ∧ Entry.pattern.ToleratesTrivia :=
  ⟨reads_expression.toleratesTrivia (Derives.triviaLaws .expression),
    reads_expressionList.toleratesTrivia (Derives.triviaLaws .members),
    reads_pattern.toleratesTrivia DerivesPattern.triviaLaws⟩

/-- In `f(&a)` a comment may stand behind the in-out name, but not in front of the arguments. -/
theorem toleratesTrivia_standard_call :
    let token (k : Kind) : Token := ⟨k, 0, 0, .start⟩
    let name := token (.identifier (.plain "f"))
    let front := [token (.punctuator .leftParen), token (.punctuator .ampersand),
      token (.identifier (.plain "a"))]
    let back := [token (.punctuator .rightParen)]
    let comment := token (.comment "/**/")
    let v : Expression := .plain (.call (.name (.plain "f")) [.inOut (.plain "a")])
    Entry.expression.Accepts (name :: front ++ back) v ∧
      Entry.expression.Accepts (name :: front ++ comment :: back) v ∧
      ∃ e, Entry.expression.parseTokens (name :: comment :: (front ++ back) ++
        [token .endOfInput]) = .error e := by
  intro token name front back comment v
  have haccepts : Entry.expression.Accepts (name :: front ++ back) v := by
    have harguments : Derives [.punctuator .ampersand, .identifier (.plain "a")]
        (.members [.inOut (.plain "a")]) := .single (.inOut rfl (by simp))
    have hcall : Derives ((name :: front ++ back).map (·.kind)) (.expression v) :=
      .plain (.call (.name (k := .identifier (.plain "f")) rfl) rfl harguments)
    exact reads_expression.accepts_iff.2 ⟨[], _, [], by simp, by simp, by simp, hcall⟩
  obtain ⟨h, -, -⟩ := toleratesTrivia_standard
  refine ⟨haccepts, ?_, ?_⟩
  · refine h.inserted _ _ comment v haccepts rfl (.inr (.inr ?_))
    exact ⟨[.identifier (.plain "f"), .punctuator .leftParen],
      [.punctuator .ampersand, .identifier (.plain "a")], [], rfl, .inOutName rfl, by simp⟩
  · refine h.refused [name] _ comment _ v haccepts rfl ?_ rfl
    rintro (hall | hall | hgap)
    · cases hall _ (List.mem_singleton_self _)
    · cases hall _ List.mem_cons_self
    · cases Gap.run_eq_opened_of_endsInGap hgap (g := .closed) rfl

end Entry

end ExprFront
