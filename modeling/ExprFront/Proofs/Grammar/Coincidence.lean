/-
# Cursors in front of the same tokens

Cursors agree if the kinds in front of them do.  They coincide if the tokens do, spans included, and
then errors are reported alike.  An error behind the last token is reported where that token ends,
so for it the token before the point of failure has to coincide too; as no rule fails where it
starts, there is one.

The main fact is `Rule.isLocal_of`: a rule that looks a few tokens ahead and fails only behind its
cursor answers the same at every cursor with those tokens in front, its errors included.
-/
import ExprFront.Proofs.Grammar.Commitment

namespace ExprFront

open Cursor

variable {α β : Type}

/-! ## Coincidence -/

namespace Cursor

variable {c d : Cursor} {m n : Nat}

/-- The first `n` tokens are the same, spans included, or those up to a common end are: up to the
same end of input, or to where both run out of tokens. -/
def Coincides (c d : Cursor) (n : Nat) : Prop :=
  ∀ m, m < n → c.Shows m → (d.advanceBy m).current = (c.advanceBy m).current

/-- The token further on, among the tokens from the cursor on. -/
theorem current_advanceBy (c : Cursor) (m : Nat) :
    (c.advanceBy m).current = (c.tokens.toList.drop c.position)[m]? := by
  rw [current, position_advanceBy, tokens_advanceBy, List.getElem?_drop, Array.getElem?_toList]
  rcases Nat.le_total (c.position + m) c.tokens.size with h | h
  · rw [Nat.min_eq_left h]
  · rw [Nat.min_eq_right h, Array.getElem?_eq_none h, Array.getElem?_eq_none (Nat.le_refl _)]

/-- The same tokens coincide. -/
theorem Coincides.of_take (h : (d.tokens.toList.drop d.position).take n =
    (c.tokens.toList.drop c.position).take n) : c.Coincides d n := by
  intro m hm _
  rw [current_advanceBy, current_advanceBy, ← List.getElem?_take_of_lt hm, h,
    List.getElem?_take_of_lt hm]

/-- What coincides, agrees. -/
theorem Coincides.agrees (h : c.Coincides d n) : c.Agrees d n := by
  intro m hm hshows
  rw [headKind, head, h m hm hshows]
  rfl

/-- What coincides, coincides in part. -/
theorem Coincides.mono (h : c.Coincides d n) (hm : m ≤ n) : c.Coincides d m :=
  fun j hj => h j (Nat.lt_of_lt_of_le hj hm)

/-- Moving over what shows gets that much further. -/
theorem Shows.position_advanceBy (h : c.Shows m) : (c.advanceBy m).position = c.position + m := by
  have hsince := h.since
  have hle := c.position_le_advanceBy m
  rw [Cursor.since] at hsince
  omega

/-- Where the tokens run out, the last of them is the one before. -/
theorem Shows.back?_eq (h : c.Shows (m + 1)) (hend : (c.advanceBy (m + 1)).current = none) :
    c.tokens.back? = (c.advanceBy m).current := by
  have hfirst := (h.mono (Nat.le_succ m)).position_advanceBy
  have hnext := h.position_advanceBy
  have hle := (c.advanceBy (m + 1)).position_le
  rw [current, Array.getElem?_eq_none_iff] at hend
  rw [tokens_advanceBy] at hend hle
  have hsize : c.tokens.size - 1 = (c.advanceBy m).position := by omega
  rw [Array.back?_eq_getElem?, current, tokens_advanceBy, hsize]

/-- **What coincides is reported alike**, if there is a token before the point. -/
theorem Coincides.expectedAt_eq (h : c.Coincides d (m + 2)) (hshows : c.Shows (m + 1))
    (production : Production) :
    ParseError.expectedAt production (d.advanceBy (m + 1)) =
      .expectedAt production (c.advanceBy (m + 1)) := by
  have hcurrent := h (m + 1) (by omega) hshows
  have hlast : (c.advanceBy (m + 1)).current = none → d.tokens.back? = c.tokens.back? := by
    intro hend
    rw [hshows.back?_eq hend, (h.agrees.shows hshows (by omega)).back?_eq (hcurrent.trans hend)]
    exact h m (by omega) (hshows.mono (by omega))
  rw [ParseError.expectedAt, hcurrent, ParseError.expectedAt]
  split
  · rfl
  · next hend =>
      rw [endLocation, tokens_advanceBy, hlast hend, endLocation, tokens_advanceBy]

end Cursor

/-! ## Local rules -/

/-- The rule answers by the tokens in front of its cursor: a match of `n` tokens by the kinds of the
first `n + 2`, that it does not apply by those of the first two, and an error `k` tokens ahead, the
report included, by the first `k + 2` tokens. -/
structure Rule.LooksAhead (rule : Rule α) : Prop where
  matched : ∀ (c d : Cursor) v n, rule c = .ok (.matched v n) → c.Agrees d (n + 2) →
    rule d = .ok (.matched v n)
  noMatch : ∀ c d : Cursor, rule c = .ok .noMatch → c.Agrees d 2 → rule d = .ok .noMatch
  error : ∀ c f, rule c = .error f → ∃ production k, 0 < k ∧
    f = .expected production (c.position + k) ∧
    ∀ d : Cursor, c.Coincides d (k + 2) → rule d = .error (.expected production (d.position + k)) ∧
      Failure.report (.expected production (d.position + k)) d.tokens = f.report c.tokens

/-- The rule looks ahead, and never behind an end of input: at every position up to one, what stands
behind it makes no difference to the answer or to how an error is reported. -/
structure Rule.IsLocal (rule : Rule α) : Prop extends rule.LooksAhead where
  behind_end : ∀ (front rest rest' : List Token) (last : Token) (position : Nat),
    last.kind = .endOfInput → position ≤ front.length →
      rule (.atPosition (front ++ last :: rest).toArray position) =
          rule (.atPosition (front ++ last :: rest').toArray position) ∧
        ∀ f, rule (.atPosition (front ++ last :: rest).toArray position) = .error f →
          f.report (front ++ last :: rest).toArray = f.report (front ++ last :: rest').toArray

/-- At cursors in front of the same tokens a rule that looks ahead answers the same. -/
theorem Rule.LooksAhead.eq_or_error {rule : Rule α} (h : rule.LooksAhead) {c d : Cursor}
    (hd : ∀ n, c.Coincides d n) :
    (∃ o, rule c = .ok o ∧ rule d = .ok o) ∨
      ∃ production k, rule c = .error (.expected production (c.position + k)) ∧
        rule d = .error (.expected production (d.position + k)) ∧
        Failure.report (.expected production (d.position + k)) d.tokens =
          Failure.report (.expected production (c.position + k)) c.tokens := by
  cases hrule : rule c with
  | ok o =>
      cases o with
      | matched v n => exact .inl ⟨_, rfl, h.matched c d v n hrule (hd _).agrees⟩
      | noMatch => exact .inl ⟨_, rfl, h.noMatch c d hrule (hd _).agrees⟩
  | error f =>
      obtain ⟨production, k, -, rfl, herror⟩ := h.error c f hrule
      obtain ⟨hd, hreport⟩ := herror d (hd _)
      exact .inr ⟨production, k, rfl, hd, hreport⟩

section End

variable {front : List Token} {last : Token} {position : Nat}

/-- The cursor at a position up to an end of input is at that position. -/
theorem Cursor.position_atPosition_of_le (h : position ≤ front.length) (rest : List Token) :
    (Cursor.atPosition (front ++ last :: rest).toArray position).position = position := by
  simp only [atPosition, List.size_toArray, List.length_append]
  omega

/-- Up to an end of input, what stands behind it makes no difference to the tokens ahead. -/
theorem Cursor.coincides_of_end (hlast : last.kind = .endOfInput) (hle : position ≤ front.length)
    (rest rest' : List Token) (n : Nat) :
    (Cursor.atPosition (front ++ last :: rest).toArray position).Coincides
      (.atPosition (front ++ last :: rest').toArray position) n := by
  have hcurrent (rest : List Token) (m : Nat) (hm : position + m ≤ front.length) :
      ((Cursor.atPosition (front ++ last :: rest).toArray position).advanceBy m).current =
        (front ++ [last])[position + m]? := by
    rw [current_advanceBy, position_atPosition_of_le hle, List.getElem?_drop]
    show (front ++ last :: rest)[position + m]? = _
    rw [List.append_cons, List.getElem?_append_left]
    rw [List.length_append, List.length_singleton]
    omega
  intro m _ hshows
  have hm : position + m ≤ front.length := by
    -- Otherwise the end of input would be among what shows.
    refine Nat.le_of_not_lt fun hlt => ?_
    refine hshows (front.length - position) (by omega) ?_
    rw [headKind, head, hcurrent rest _ (by omega), Nat.add_sub_cancel' hle,
      List.getElem?_concat_length]
    simp [Option.filter, Token.isEnd, hlast, Kind.isEnd]
  rw [hcurrent rest m hm, hcurrent rest' m hm]

/-- A rule that looks ahead does not look behind an end of input. -/
theorem Rule.LooksAhead.isLocal {rule : Rule α} (h : rule.LooksAhead) : rule.IsLocal where
  toLooksAhead := h
  behind_end front rest rest' last position hlast hle := by
    rcases h.eq_or_error (coincides_of_end hlast hle rest rest') with
      ⟨o, ho, ho'⟩ | ⟨production, k, hf, hf', hreport⟩
    · rw [ho, ho']
      exact ⟨rfl, nofun⟩
    · rw [position_atPosition_of_le hle] at hf hf' hreport
      rw [position_atPosition_of_le hle] at hreport
      rw [hf, hf']
      refine ⟨rfl, fun g hg => ?_⟩
      cases hg
      exact hreport.symm

end End

/-- **A rule is local** if its answers show in the tokens ahead and it fails only behind its
cursor. -/
theorem Rule.isLocal_of {rule : Rule α} {commits : Kind → Bool}
    (hlocal : ∀ c, rule.LocalAt 2 c) (hfails : rule.FailsBehind commits) : rule.IsLocal := by
  refine LooksAhead.isLocal ⟨?_, ?_, ?_⟩
  · exact fun c d v n hmatch hd => (hlocal c).decides_of_matched hmatch d hd
  · exact fun c d hnone hd => (hlocal c).decides_of_noMatch hnone d hd
  · intro c f hf
    obtain ⟨production, m, hm, rfl, hdecides⟩ := (hlocal c).decides_of_error hf
    obtain ⟨_, _, hsame, hpos⟩ := (hfails c _ hf).isBehind
    cases hsame
    rw [hm.position_advanceBy] at hpos
    obtain ⟨k, rfl⟩ : ∃ k, m = k + 1 := ⟨m - 1, by omega⟩
    refine ⟨production, k + 1, Nat.succ_pos k, ?_, fun d hd => ?_⟩
    · rw [Failure.expecting, hm.position_advanceBy]
    have hshows := hd.agrees.shows hm (by omega)
    have hfailure : Failure.expected production (d.position + (k + 1)) =
        .expecting production (d.advanceBy (k + 1)) := by
      rw [Failure.expecting, hshows.position_advanceBy]
    rw [hfailure]
    refine ⟨hdecides d hd.agrees, ?_⟩
    rw [← tokens_advanceBy d (k + 1), Failure.report_expecting, ← tokens_advanceBy c (k + 1),
      Failure.report_expecting]
    exact (hd.mono (by omega)).expectedAt_eq hm production

end ExprFront
