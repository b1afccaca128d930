/-
# Agreement of cursors

Two cursors agree on so many tokens if these are of the same kinds, or up to a common end of input
are.  What is computed at a cursor is *settled* there if it shows in few tokens: a result for `n`
tokens in the first `n + 2`, and a failure `m` tokens ahead in the first `m + 2`.  `Rule.LocalAt`
says so for a rule.

The main fact is `Cursor.Settles.behind`: what settles behind the first tokens settles as a part of
the whole.
-/
import ExprFront.Proofs.Grammar.Unfolding

namespace ExprFront

namespace Cursor

variable {c d : Cursor} {k : Kind} {m n : Nat} {w : List Kind}

/-! ## What a cursor shows -/

/-- The next `n` tokens are there, and none of them is the end of input. -/
def Shows (c : Cursor) (n : Nat) : Prop := ∀ m, m < n → (c.advanceBy m).headKind ≠ none

/-- What shows, shows in part. -/
theorem Shows.mono (h : c.Shows n) (hm : m ≤ n) : c.Shows m :=
  fun j hj => h j (Nat.lt_of_lt_of_le hj hm)

/-- Nothing always shows. -/
theorem shows_zero (c : Cursor) : c.Shows 0 := fun _ hm => absurd hm (Nat.not_lt_zero _)

/-- A head shows. -/
theorem shows_one (h : c.headKind = some k) : c.Shows 1 := by
  intro m hm
  obtain rfl : m = 0 := by omega
  simp [h]

/-- What shows behind what shows, shows with it. -/
theorem Shows.add (h : c.Shows m) (h' : (c.advanceBy m).Shows n) : c.Shows (m + n) := by
  intro j hj
  rcases Nat.lt_or_ge j m with hlt | hge
  · exact h j hlt
  · have hbehind := h' (j - m) (by omega)
    rwa [advanceBy_advanceBy, Nat.add_sub_cancel' hge] at hbehind

/-- What shows behind the head, shows with it. -/
theorem Shows.cons (hk : c.headKind = some k) (h : c.advance.Shows n) : c.Shows (n + 1) := by
  rw [Nat.add_comm]
  exact (shows_one hk).add h

/-- Moving over what shows passes as many tokens. -/
theorem Shows.since (h : c.Shows n) : (c.advanceBy n).since c = n := by
  cases n with
  | zero => simp [Cursor.since]
  | succ n =>
      obtain ⟨k, hk⟩ := Option.ne_none_iff_exists'.1 (h n (Nat.lt_succ_self n))
      have hlt := remaining_advance_lt hk
      simp only [remaining, position_advanceBy, tokens_advanceBy, Cursor.since] at hlt ⊢
      omega

/-- What is passed without an end of input, shows. -/
theorem Passes.shows (h : c.Passes w d) (hw : .endOfInput ∉ w) : c.Shows w.length := by
  intro m hm
  obtain ⟨u, k, rest, rfl, rfl⟩ : ∃ u k rest, w = u ++ k :: rest ∧ u.length = m :=
    ⟨w.take m, w[m], w.drop (m + 1), by simp, by simp; omega⟩
  rw [h.split.2.headKind fun hk => hw (by simp [hk])]
  simp

/-- Moving on behind the head is moving by one more. -/
theorem advanceBy_advance (c : Cursor) (n : Nat) : c.advance.advanceBy n = c.advanceBy (n + 1) := by
  rw [Nat.add_comm]
  exact advanceBy_advanceBy c 1 n

/-- The head further on is the kind there, unless that is the end of input. -/
theorem headKind_advanceBy_eq (c : Cursor) (n : Nat) :
    (c.advanceBy n).headKind = c.kinds[n]?.filter (!·.isEnd) := by
  rw [headKind_eq, kinds_advanceBy, List.head?_drop]

/-! ## Agreement -/

/-- The first `n` tokens are of the same kinds, or those up to a common end of input are. -/
def Agrees (c d : Cursor) (n : Nat) : Prop :=
  ∀ m, m < n → c.Shows m → (d.advanceBy m).headKind = (c.advanceBy m).headKind

namespace Agrees

/-- Every cursor agrees with itself. -/
protected theorem refl (c : Cursor) (n : Nat) : c.Agrees c n := fun _ _ _ => rfl

/-- Cursors that agree, agree on less. -/
theorem mono (h : c.Agrees d n) (hm : m ≤ n) : c.Agrees d m :=
  fun j hj => h j (Nat.lt_of_lt_of_le hj hm)

/-- Where the first kinds from one cursor on stand at the other, up to its end of input at most, the
cursors agree. -/
theorem of_prefix (h : c.kinds.take n <+: d.kinds) (hend : .endOfInput ∈ c.kinds) :
    c.Agrees d n := by
  intro m hm hshows
  have hlt : m < c.kinds.length := by
    -- Otherwise the end of input would be among what shows.
    refine Nat.lt_of_not_le fun hle => ?_
    obtain ⟨i, hi, hget⟩ := List.mem_iff_getElem.1 hend
    refine hshows i (by omega) ?_
    rw [headKind_advanceBy_eq, List.getElem?_eq_getElem hi, hget]
    rfl
  obtain ⟨rest, hrest⟩ := h
  have hget : d.kinds[m]? = c.kinds[m]? := by
    rw [← hrest, List.getElem?_append_left (by simp; omega), List.getElem?_take_of_lt hm]
  rw [headKind_advanceBy_eq, headKind_advanceBy_eq, hget]

/-- Cursors that agree on a token have the same head. -/
theorem headKind (h : c.Agrees d n) (hn : 0 < n) : d.headKind = c.headKind := by
  simpa using h 0 hn (shows_zero c)

/-- What one of them shows, the other one shows. -/
theorem shows (h : c.Agrees d n) (hc : c.Shows m) (hm : m ≤ n) : d.Shows m := by
  intro j hj
  rw [h j (Nat.lt_of_lt_of_le hj hm) (hc.mono (Nat.le_of_lt hj))]
  exact hc j hj

/-- Behind what shows, cursors that agree still do. -/
theorem advanceBy (h : c.Agrees d n) (hc : c.Shows m) {j : Nat} (hj : m + j ≤ n) :
    (c.advanceBy m).Agrees (d.advanceBy m) j := by
  intro i hi hshows
  have hboth := h (m + i) (by omega) (hc.add hshows)
  rwa [← advanceBy_advanceBy, ← advanceBy_advanceBy] at hboth

/-- Behind the head, cursors that agree still do. -/
theorem advance (h : c.Agrees d (n + 1)) (hk : c.headKind = some k) :
    c.advance.Agrees d.advance n :=
  h.advanceBy (shows_one hk) (by omega)

/-- Behind what shows, cursors that agree have the same head. -/
theorem headKind_advanceBy (h : c.Agrees d n) (hc : c.Shows m) (hm : m < n) :
    (d.advanceBy m).headKind = (c.advanceBy m).headKind := h m hm hc

end Agrees

end Cursor

open Cursor

/-! ## Answers that are settled -/

section Settled

variable {α β : Type} {c : Cursor} {m n : Nat}

/-- Whatever agrees with the cursor on `n` tokens gets the answer. -/
def Cursor.Decides (c : Cursor) (n : Nat) (run answer : Cursor → β) : Prop :=
  ∀ d, c.Agrees d n → run d = answer d

/-- What is decided is the answer at the cursor itself. -/
theorem Cursor.Decides.self {run answer : Cursor → β} (h : c.Decides n run answer) :
    run c = answer c :=
  h c (.refl c n)

/-- What few tokens decide, more tokens decide. -/
theorem Cursor.Decides.mono {run answer : Cursor → β} (h : c.Decides m run answer)
    (hn : m ≤ n) : c.Decides n run answer :=
  fun d hd => h d (hd.mono hn)

/-- The answer shows in the tokens in front of the cursor: a result for `n` tokens in the first
`n + 2`, and a failure `m` tokens ahead in the first `m + 2`.  The result is given by the number of
tokens and the place where the run started. -/
inductive Cursor.Settles (c : Cursor) (run : Cursor → Except Failure β)
    (result : α → Nat → Cursor → β) : Prop
  | done (v : α) (n : Nat) (hshows : c.Shows n)
      (h : c.Decides (n + 2) run fun d => .ok (result v n d))
  | failed (production : Production) (m : Nat) (hshows : c.Shows m)
      (h : c.Decides (m + 2) run fun d => .error (.expecting production (d.advanceBy m)))

/-- The answer of the rule shows in the tokens in front of the cursor; that it does not apply shows
in the first `reach` of them. -/
inductive Rule.LocalAt (rule : Rule α) (reach : Nat) (c : Cursor) : Prop
  | noMatch (h : c.Decides reach rule fun _ => .ok .noMatch)
  | settled (h : c.Settles rule fun (v : α) n _ => .matched v n)

/-- **One run behind another part.**  What settles behind the first tokens settles from the cursor
on, if a failure there is a failure of the whole. -/
theorem Cursor.Settles.behind {γ δ : Type} {inner : Cursor → Except Failure β}
    {outer : Cursor → Except Failure γ} {result : α → Nat → Cursor → β}
    {result' : δ → Nat → Cursor → γ} (hn : c.Shows n) (h : (c.advanceBy n).Settles inner result)
    (failed : ∀ d f, c.Agrees d (n + 2) → inner (d.advanceBy n) = .error f → outer d = .error f)
    (done : ∀ v m, (c.advanceBy n).Shows m →
      (∀ d, c.Agrees d (n + m + 2) → inner (d.advanceBy n) = .ok (result v m (d.advanceBy n))) →
      c.Settles outer result') : c.Settles outer result' := by
  cases h with
  | done v m hm h => exact done v m hm fun d hd => h _ (hd.advanceBy hn (by omega))
  | failed production m hm h =>
      refine .failed production (n + m) (hn.add hm) fun d hd => ?_
      rw [failed d _ (hd.mono (by omega)) (h _ (hd.advanceBy hn (by omega))), advanceBy_advanceBy]

/-- What settles behind the head settles from the cursor on, if a failure there is a failure of the
whole. -/
theorem Cursor.Settles.behind_head {γ δ : Type} {k : Kind} {inner : Cursor → Except Failure β}
    {outer : Cursor → Except Failure γ} {result : α → Nat → Cursor → β}
    {result' : δ → Nat → Cursor → γ} (hk : c.headKind = some k) (h : c.advance.Settles inner result)
    (failed : ∀ d f, d.headKind = some k → inner d.advance = .error f → outer d = .error f)
    (done : ∀ v m, c.Shows (m + 1) →
      (∀ d, c.Agrees d (m + 3) → inner d.advance = .ok (result v m d.advance)) →
      c.Settles outer result') : c.Settles outer result' := by
  refine h.behind (n := 1) (shows_one hk) ?_ ?_
  · intro d f hd hf
    exact failed d f ((hd.headKind (by omega)).trans hk) hf
  · intro v m hm hv
    exact done v m (hm.cons hk) fun d hd => hv d (hd.mono (by omega))

/-- What settles between a head and a closing mark settles from the head on, if what stands behind
the mark does. -/
theorem Cursor.Settles.enclosed {γ δ : Type} {k : Kind}
    {inner : Cursor → Except Failure (α × Nat)} {outer : Cursor → Except Failure γ}
    {result : δ → Nat → Cursor → γ} (last : Punctuator) (production : Production)
    (whole : α → Nat → Cursor → Except Failure γ) (hk : c.headKind = some k)
    (h : c.advance.Settles inner fun v n _ => (v, n))
    (failed : ∀ d f, d.headKind = some k → inner d.advance = .error f → outer d = .error f)
    (read : ∀ d v n, d.headKind = some k → inner d.advance = .ok (v, n) →
      outer d = if (d.advanceBy (n + 1)).isPunctuator last then whole v n d
        else .error (.expecting production (d.advanceBy (n + 1))))
    (done : ∀ v n, c.Shows (n + 2) → (∀ d, c.Agrees d (n + 3) → outer d = whole v n d) →
      c.Settles outer result) : c.Settles outer result := by
  refine h.behind_head hk failed fun v n hn hv => ?_
  have mark {d : Cursor} (hd : c.Agrees d (n + 3)) :
      outer d = if (c.advanceBy (n + 1)).isPunctuator last then whole v n d
        else .error (.expecting production (d.advanceBy (n + 1))) := by
    rw [read d v n ((hd.headKind (by omega)).trans hk) (hv d hd),
      isPunctuator_congr (hd.headKind_advanceBy hn (by omega))]
  cases hclose : (c.advanceBy (n + 1)).isPunctuator last with
  | true =>
      refine done v n (hn.add (shows_one (isPunctuator_iff.1 hclose))) fun d hd => ?_
      rw [mark hd, if_pos hclose]
  | false =>
      refine .failed production (n + 1) hn fun d hd => ?_
      rw [mark hd, hclose, if_neg Bool.false_ne_true]

/-- What a loop leads to, with where it stops. -/
def stopResult (v : α) (n : Nat) (c : Cursor) : α × Cursor := (v, c.advanceBy n)

/-- A loop that goes on behind the first tokens settles from the cursor on. -/
theorem Cursor.Settles.resume {loop outer : Cursor → Except Failure (α × Cursor)} (hn : c.Shows n)
    (h : (c.advanceBy n).Settles loop stopResult)
    (houter : ∀ d, c.Agrees d (n + 2) → outer d = loop (d.advanceBy n)) :
    c.Settles outer stopResult := by
  refine h.behind hn (fun d f hd hf => (houter d hd).trans hf) fun v m hm hv => ?_
  refine .done v (n + m) (hn.add hm) fun d hd => ?_
  rw [houter d (hd.mono (by omega)), hv d hd, stopResult, advanceBy_advanceBy]
  rfl

/-- What another run answers as well settles it. -/
theorem Cursor.Settles.congr {run other : Cursor → Except Failure β} {result : α → Nat → Cursor → β}
    (h : c.Settles run result) (heq : ∀ d, c.Agrees d 1 → other d = run d) :
    c.Settles other result := by
  cases h with
  | done v n hn h => exact .done v n hn fun d hd => (heq d (hd.mono (by omega))).trans (h d hd)
  | failed production m hm h =>
      exact .failed production m hm fun d hd => (heq d (hd.mono (by omega))).trans (h d hd)

/-- A match shows in the tokens in front of the cursor. -/
theorem Rule.LocalAt.decides_of_matched {rule : Rule α} {reach : Nat} {v : α}
    (h : rule.LocalAt reach c) (hmatch : rule c = .ok (.matched v n)) :
    c.Decides (n + 2) rule fun _ => .ok (.matched v n) := by
  cases h with
  | noMatch h => cases hmatch.symm.trans h.self
  | settled h =>
      cases h with
      | done v' n' hn h =>
          cases hmatch.symm.trans h.self
          exact h
      | failed production m hm h => cases hmatch.symm.trans h.self

/-- That a rule does not apply shows in the tokens in front of the cursor. -/
theorem Rule.LocalAt.decides_of_noMatch {rule : Rule α} {reach : Nat} (h : rule.LocalAt reach c)
    (hnone : rule c = .ok .noMatch) : c.Decides reach rule fun _ => .ok .noMatch := by
  cases h with
  | noMatch h => exact h
  | settled h =>
      cases h with
      | done v n hn h => cases hnone.symm.trans h.self
      | failed production m hm h => cases hnone.symm.trans h.self

/-- A failure shows in the tokens in front of the cursor. -/
theorem Rule.LocalAt.decides_of_error {rule : Rule α} {reach : Nat} {f : Failure}
    (h : rule.LocalAt reach c) (herror : rule c = .error f) :
    ∃ production m, c.Shows m ∧ f = .expecting production (c.advanceBy m) ∧
      c.Decides (m + 2) rule fun d => .error (.expecting production (d.advanceBy m)) := by
  cases h with
  | noMatch h => cases herror.symm.trans h.self
  | settled h =>
      cases h with
      | done v n hn h => cases herror.symm.trans h.self
      | failed production m hm h =>
          cases herror.symm.trans h.self
          exact ⟨production, m, hm, rfl, h⟩

/-- What shows in few tokens shows in more. -/
theorem Rule.LocalAt.mono {rule : Rule α} {reach reach' : Nat} (h : rule.LocalAt reach c)
    (hle : reach ≤ reach') : rule.LocalAt reach' c := by
  cases h with
  | noMatch h => exact .noMatch (h.mono hle)
  | settled h => exact .settled h

/-- A rule that has to match settles. -/
theorem Rule.LocalAt.required {rule : Rule α} (h : rule.LocalAt 2 c) (production : Production) :
    c.Settles (fun d => (rule d).required production d) fun v n _ => (v, n) := by
  cases h with
  | noMatch h =>
      refine .failed production 0 (shows_zero c) fun d hd => ?_
      simp only [h d hd, advanceBy_zero]
      rfl
  | settled h =>
      cases h with
      | done v n hn h => exact .done v n hn fun d hd => by rw [h d hd]; rfl
      | failed production' m hm h => exact .failed production' m hm fun d hd => by rw [h d hd]; rfl

/-- A rule, and a loop that goes on with its value behind the match. -/
def Rule.thenLoop (rule : Rule α) (loop : α → Cursor → Except Failure (β × Cursor)) : Rule β :=
  fun c =>
    match rule c with
    | .ok (.matched v n) =>
        match loop v (c.advanceBy n) with
        | .ok (whole, stop) => .ok (.matched whole (stop.since c))
        | .error f => .error f
    | .ok .noMatch => .ok .noMatch
    | .error f => .error f

/-- A local rule stays local with a loop behind it that settles. -/
theorem Rule.LocalAt.thenLoop {rule : Rule α} {loop : α → Cursor → Except Failure (β × Cursor)}
    {reach : Nat} (h : rule.LocalAt reach c)
    (hloop : ∀ v n, rule c = .ok (.matched v n) →
      (c.advanceBy n).Settles (loop v) stopResult) : (rule.thenLoop loop).LocalAt reach c := by
  cases h with
  | noMatch h => exact .noMatch fun d hd => by rw [Rule.thenLoop, h d hd]
  | settled h =>
      cases h with
      | failed production m hm h =>
          exact .settled (.failed production m hm fun d hd => by rw [Rule.thenLoop, h d hd])
      | done v n hn h =>
          refine .settled ((hloop v n h.self).behind hn ?_ ?_)
          · intro d f hd hf
            rw [Rule.thenLoop, h d hd]
            simp only [hf]
          · intro whole m hm hwhole
            refine .done whole (n + m) (hn.add hm) fun d hd => ?_
            rw [Rule.thenLoop, h d (hd.mono (by omega))]
            simp only [hwhole d hd, stopResult, advanceBy_advanceBy,
              (hd.shows (hn.add hm) (by omega)).since]

end Settled

/-! ## Trivia -/

/-- Skipping trivia looks one token behind them. -/
theorem Cursor.exists_decides_skipTrivia (c : Cursor) :
    ∃ m, c.Shows m ∧ c.Decides (m + 1) skipTrivia (·.advanceBy m) := by
  fun_induction skipTrivia c with
  | case1 c k hk _ htrivia ih =>
      obtain ⟨m, hm, h⟩ := ih
      refine ⟨m + 1, hm.cons hk, fun d hd => ?_⟩
      have hkd := (hd.headKind (by omega)).trans hk
      rw [skipTrivia]
      split
      · next k' hk' =>
          cases hkd.symm.trans hk'
          rw [if_pos htrivia, h _ (hd.advance hk)]
          exact d.advanceBy_advance m
      · next hnone => rw [hnone] at hkd; cases hkd
  | case2 c k hk _ htrivia =>
      refine ⟨0, shows_zero c, fun d hd => ?_⟩
      have hkd := (hd.headKind (by omega)).trans hk
      rw [skipTrivia]
      simp only [advanceBy_zero]
      split
      · next k' hk' =>
          cases hkd.symm.trans hk'
          exact if_neg htrivia
      · rfl
  | case3 c hnone =>
      refine ⟨0, shows_zero c, fun d hd => ?_⟩
      have hkd := (hd.headKind (by omega)).trans hnone
      rw [skipTrivia]
      simp only [advanceBy_zero]
      split
      · next k hk => rw [hk] at hkd; cases hkd
      · rfl

/-- Passing the head and the trivia behind it looks one token behind them. -/
theorem Cursor.exists_decides_next {c : Cursor} {k : Kind} (hk : c.headKind = some k) :
    ∃ m, c.Shows m ∧ c.Decides (m + 1) next (·.advanceBy m) := by
  obtain ⟨m, hm, h⟩ := c.advance.exists_decides_skipTrivia
  refine ⟨m + 1, hm.cons hk, fun d hd => ?_⟩
  rw [next, h _ (hd.advance hk)]
  exact d.advanceBy_advance m

/-- Behind the trivia that they skip, cursors still agree. -/
theorem Cursor.exists_passes_skipTrivia_agrees (c : Cursor) :
    ∃ w, (∀ k ∈ w, k.isTrivia = true) ∧ c.Passes w c.skipTrivia ∧
      ∀ d n, c.Agrees d (w.length + (n + 1)) → c.skipTrivia.Agrees d.skipTrivia (n + 1) := by
  obtain ⟨w, hw, hpasses, -⟩ := exists_passes_skipTrivia c
  obtain ⟨m, hm, h⟩ := c.exists_decides_skipTrivia
  have hlength : w.length = m := by
    rw [← hpasses.since, ← hm.since, ← h.self]
  refine ⟨w, hw, hpasses, fun d n hd => ?_⟩
  rw [h d (hd.mono (by omega)), h.self]
  exact hd.advanceBy hm (by omega)

end ExprFront
