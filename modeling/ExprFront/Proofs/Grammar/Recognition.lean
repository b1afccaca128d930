/-
# Rules and their languages

A language is a relation between lists of kinds and values.  `Recognizes` says that a rule matches
exactly what a language has: it is stated on tokens and positions, and `recognizes_of_covers` gives
it from statements on cursors.
-/
import ExprFront.Grammar.Error
import ExprFront.Proofs.Grammar.Passing

namespace ExprFront

variable {α : Type} {language : List Kind → α → Prop}

namespace Cursor

variable {c d : Cursor} {k : Kind} {w : List Kind}

/-! ## Covering and avoiding -/

/-- The `n` tokens at the cursor are there, and their kinds have the value. -/
def Covers (c : Cursor) (n : Nat) (language : List Kind → α → Prop) (v : α) : Prop :=
  ∃ w, w.length = n ∧ c.Passes w (c.advanceBy n) ∧ language w v

/-- Kinds that are passed and have the value are covered. -/
theorem Passes.covers {v : α} (h : c.Passes w d) (hw : language w v) :
    c.Covers w.length language v :=
  ⟨w, rfl, h.advanceBy_length.symm ▸ h, hw⟩

/-- The token at the cursor is none of those that `p` singles out. -/
def Avoids (c : Cursor) (p : Kind → Bool) : Prop := ∀ k, c.headKind = some k → p k = false

/-- A head that is not singled out is avoided. -/
theorem avoids_of_headKind {p : Kind → Bool} (h : c.headKind = some k) (hk : p k = false) :
    c.Avoids p := by
  intro m hm
  cases h.symm.trans hm
  exact hk

/-- Where there is no head, everything is avoided. -/
theorem avoids_of_headKind_eq_none (h : c.headKind = none) (p : Kind → Bool) : c.Avoids p := by
  intro m hm
  rw [h] at hm
  cases hm

end Cursor

/-- What is required and found was matched. -/
theorem Grammar.eq_of_required {r : RuleResult α} {production : Production} {c : Cursor} {v : α}
    {n : Nat} (h : r.required production c = .ok (v, n)) : r = .ok (.matched v n) := by
  unfold RuleResult.required at h
  split at h
  · cases h; rfl
  · cases h
  · cases h

/-! ## Recognizing -/

/-- The rule recognizes the language: it matches only what the language has, wherever it runs, it
matches whatever the language has, and the language has one value for each list of kinds. -/
structure Recognizes (rule : Rule α) (language : List Kind → α → Prop) : Prop where
  sound : ∀ (tokens : Array Token) (position : Nat) (v : α) (n : Nat),
    rule (.atPosition tokens position) = .ok (.matched v n) →
      1 ≤ n ∧ position + n ≤ tokens.size ∧
        (∀ t ∈ tokens.extract position (position + n), t.kind ≠ .endOfInput) ∧
        language ((tokens.extract position (position + n)).toList.map (·.kind)) v
  complete : ∀ (tokens : Array Token) (v : α), language (tokens.toList.map (·.kind)) v →
    rule (.atPosition tokens 0) = .ok (.matched v tokens.size)
  unambiguous : ∀ (w : List Kind) (v v' : α), language w v → language w v' → v = v'

variable {rule : Rule α}

/-- What a rule matches at a cursor is passed there, and holds no end of input. -/
theorem Recognizes.exists_passes (h : Recognizes rule language) {c : Cursor} {v : α} {n : Nat}
    (hmatch : rule c = .ok (.matched v n)) :
    ∃ w, w.length = n ∧ c.Passes w (c.advanceBy n) ∧ .endOfInput ∉ w ∧ language w v := by
  have hc : Cursor.atPosition c.tokens c.position = c :=
    Cursor.eq_of_position rfl (Nat.min_eq_left c.position_le)
  obtain ⟨-, hle, hend, hv⟩ := h.sound c.tokens c.position v n (hc.symm ▸ hmatch)
  rw [← Cursor.take_kinds] at hv
  have hremaining : n ≤ c.remaining := by
    rw [Cursor.remaining]
    omega
  refine ⟨_, ?_, Cursor.passes_take hremaining, ?_, hv⟩
  · rw [List.length_take, Cursor.length_kinds, Nat.min_eq_left hremaining]
  · intro hmem
    rw [Cursor.take_kinds] at hmem
    obtain ⟨t, ht, hkind⟩ := List.mem_map.1 hmem
    exact hend t (Array.mem_toList_iff.1 ht) hkind

/-- A rule recognizes a language if its matches cover what the language has, and if it matches
whatever the language has in front of an end. -/
theorem recognizes_of_covers (hne : ∀ w v, language w v → w ≠ [])
    (hend : ∀ w v, language w v → .endOfInput ∉ w)
    (sound : ∀ c v n, rule c = .ok (.matched v n) → c.Covers n language v)
    (complete : ∀ c d w v, language w v → c.Passes w d → d.headKind = none →
      rule c = .ok (.matched v w.length)) :
    Recognizes rule language := by
  have hcomplete (tokens : Array Token) (v : α) (hv : language (tokens.toList.map (·.kind)) v) :
      rule (.atPosition tokens 0) = .ok (.matched v tokens.size) := by
    have hkinds : (Cursor.atPosition tokens 0).kinds = tokens.toList.map (·.kind) ++ [] := by
      simp [Cursor.kinds, Cursor.atPosition]
    obtain ⟨hpasses, hrest⟩ := Cursor.passes_of_kinds_eq hkinds
    rw [complete _ _ _ v hv hpasses (by rw [Cursor.headKind_eq, hrest]; rfl)]
    simp
  refine ⟨?_, hcomplete, ?_⟩
  · intro tokens position v n h
    obtain ⟨w, rfl, hpasses, hw⟩ := sound _ v n h
    have hpos : 0 < w.length := List.length_pos_iff.2 (hne w v hw)
    have hle := hpasses.length_le
    simp only [Cursor.remaining, Cursor.atPosition] at hle
    have hsegment : (tokens.extract position (position + w.length)).toList.map (·.kind) = w := by
      have hkinds := Cursor.take_kinds (.atPosition tokens position) w.length
      have hmin : min position tokens.size = position := by omega
      rw [hpasses.kinds_eq, List.take_left] at hkinds
      simpa only [Cursor.atPosition, hmin] using hkinds.symm
    refine ⟨hpos, by omega, ?_, hsegment.symm ▸ hw⟩
    intro t ht hkind
    refine hend w v hw ?_
    rw [← hsegment, ← hkind]
    exact List.mem_map_of_mem (Array.mem_toList_iff.2 ht)
  · -- Any tokens of the kinds will do: the rule answers both values at their start.
    intro w v v' hv hv'
    let tokens : List Token := w.map fun k => ⟨k, 0, 0, .start⟩
    have hkinds : tokens.toArray.toList.map (·.kind) = w := by
      rw [List.map_map]
      exact List.map_id' w
    have h := hcomplete tokens.toArray v (hkinds.symm ▸ hv)
    rw [hcomplete tokens.toArray v' (hkinds.symm ▸ hv')] at h
    exact (Outcome.matched.inj (Except.ok.inj h)).1.symm

end ExprFront
