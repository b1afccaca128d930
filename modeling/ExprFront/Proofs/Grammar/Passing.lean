/-
# The kinds that a cursor passes

Rules look at the kinds of the tokens from their cursor on, and at nothing else.  `Cursor.kinds`
lists them, and `Cursor.Passes c w d` says that moving from `c` to `d` passes tokens of exactly the
kinds `w`.  What each movement of a cursor passes is a lemma here, so that later proofs never open
the movements.
-/
import ExprFront.Cursor

namespace ExprFront

/-- The name that a token of the kind can be read as.  A contextual keyword reads as the plain name
of its spelling. -/
def Kind.name? : Kind → Option Identifier
  | .identifier name => some name
  | .keyword (.contextual word) => some (.plain word.spelling)
  | _ => none

/-- Trivia are no end of input. -/
theorem Kind.ne_endOfInput_of_isTrivia {k : Kind} (h : k.isTrivia = true) : k ≠ .endOfInput := by
  rintro rfl
  cases h

/-- No end of input is among trivia. -/
theorem Kind.endOfInput_notMem_of_isTrivia {trivia : List Kind}
    (h : ∀ k ∈ trivia, k.isTrivia = true) : .endOfInput ∉ trivia :=
  fun hmem => Kind.ne_endOfInput_of_isTrivia (h _ hmem) rfl

/-- What reads as a name is no trivia. -/
theorem Kind.isTrivia_eq_false_of_name? {k : Kind} {name : Identifier} (h : k.name? = some name) :
    k.isTrivia = false := by
  cases k <;> first | rfl | cases h

/-- What reads as a name is not the end of input. -/
theorem Kind.endOfInput_ne_of_name? {k : Kind} {name : Identifier} (h : k.name? = some name) :
    .endOfInput ≠ k := by
  rintro rfl
  cases h

namespace Cursor

variable {c d e : Cursor} {k : Kind} {u w rest : List Kind}

/-! ## The kinds from a cursor on -/

/-- The kinds of the tokens from the cursor on. -/
def kinds (c : Cursor) : List Kind := (c.tokens.toList.drop c.position).map (·.kind)

/-- A cursor is its tokens and its position. -/
theorem eq_of_position (htokens : c.tokens = d.tokens) (hposition : c.position = d.position) :
    c = d := by
  cases c
  cases d
  simp_all

/-- Moving passes as many kinds, if there are that many. -/
@[simp]
theorem kinds_advanceBy (c : Cursor) (n : Nat) : (c.advanceBy n).kinds = c.kinds.drop n := by
  rw [kinds, kinds, position_advanceBy, tokens_advanceBy, ← List.map_drop, List.drop_drop]
  rcases Nat.le_total (c.position + n) c.tokens.size with h | h
  · rw [Nat.min_eq_left h]
  · rw [Nat.min_eq_right h, List.drop_of_length_le (by simp), List.drop_of_length_le (by simpa)]

/-- There are as many kinds as tokens remain. -/
theorem length_kinds (c : Cursor) : c.kinds.length = c.remaining := by
  simp [kinds, remaining]

/-- Moving by nothing stays. -/
@[simp]
theorem advanceBy_zero (c : Cursor) : c.advanceBy 0 = c :=
  eq_of_position rfl (by simp [c.position_le])

/-- Moving twice is moving by the sum. -/
theorem advanceBy_advanceBy (c : Cursor) (m n : Nat) :
    (c.advanceBy m).advanceBy n = c.advanceBy (m + n) := by
  refine eq_of_position rfl ?_
  simp only [position_advanceBy, tokens_advanceBy]
  omega

/-- The head is the first kind, unless that is the end of input. -/
theorem headKind_eq (c : Cursor) : c.headKind = c.kinds.head?.filter (!·.isEnd) := by
  have hcurrent : c.kinds.head? = c.current.map (·.kind) := by
    rw [kinds, List.head?_map, List.head?_drop, current, Array.getElem?_toList]
  rw [headKind, head, hcurrent]
  cases c.current with
  | none => rfl
  | some t =>
      cases ht : t.isEnd with
      | true => simp [Option.filter, ht, show t.kind.isEnd = true from ht]
      | false => simp [Option.filter, ht, show t.kind.isEnd = false from ht]

/-- There is a head exactly where the first kind is not the end of input. -/
theorem headKind_eq_some_iff :
    c.headKind = some k ↔ ∃ rest, c.kinds = k :: rest ∧ k ≠ .endOfInput := by
  have hend : (!k.isEnd) = true ↔ k ≠ .endOfInput := by
    cases k <;> simp [Kind.isEnd]
  rw [headKind_eq, Option.filter_eq_some_iff, List.head?_eq_some_iff, hend, exists_and_right]

/-- There is no head at the end of input. -/
theorem headKind_eq_none_of_kinds (h : c.kinds = .endOfInput :: rest) : c.headKind = none := by
  rw [headKind_eq, h]
  rfl

/-! ## Passing -/

/-- Moving from `c` to `d` passes the kinds `w`. -/
structure Passes (c : Cursor) (w : List Kind) (d : Cursor) : Prop where
  kinds_eq : c.kinds = w ++ d.kinds
  stop_eq : d = c.advanceBy w.length

/-- Where the kinds stand, they can be passed. -/
theorem passes_of_kinds_eq (h : c.kinds = w ++ rest) :
    Passes c w (c.advanceBy w.length) ∧ (c.advanceBy w.length).kinds = rest := by
  have hrest : (c.advanceBy w.length).kinds = rest := by
    rw [kinds_advanceBy, h, List.drop_left]
  exact ⟨⟨by rw [hrest, h], rfl⟩, hrest⟩

/-- The first kinds from a cursor on are those of the tokens there. -/
theorem take_kinds (c : Cursor) (n : Nat) :
    c.kinds.take n = (c.tokens.extract c.position (c.position + n)).toList.map (·.kind) := by
  rw [kinds, ← List.map_take, Array.toList_extract, List.extract_eq_take_drop,
    Nat.add_sub_cancel_left]

/-- As many kinds as remain can be passed. -/
theorem passes_take {n : Nat} (h : n ≤ c.remaining) :
    Passes c (c.kinds.take n) (c.advanceBy n) := by
  refine ⟨?_, ?_⟩
  · rw [kinds_advanceBy, List.take_append_drop]
  · rw [List.length_take, length_kinds, Nat.min_eq_left h]

namespace Passes

/-- Staying passes nothing. -/
protected theorem nil (c : Cursor) : Passes c [] c := ⟨rfl, c.advanceBy_zero.symm⟩

/-- Passing some kinds and then others passes all of them. -/
protected theorem trans (h : Passes c u d) (h' : Passes d w e) : Passes c (u ++ w) e := by
  refine ⟨?_, ?_⟩
  · rw [h.kinds_eq, h'.kinds_eq, List.append_assoc]
  · rw [h'.stop_eq, h.stop_eq, advanceBy_advanceBy, List.length_append]

/-- One step passes the head. -/
protected theorem head (h : c.headKind = some k) : Passes c [k] c.advance := by
  obtain ⟨rest, hrest, -⟩ := headKind_eq_some_iff.1 h
  exact (passes_of_kinds_eq (w := [k]) hrest).1

/-- Passing the head and what follows it. -/
protected theorem cons (h : c.headKind = some k) (h' : Passes c.advance w d) :
    Passes c (k :: w) d :=
  (Passes.head h).trans h'

/-- The kinds that are passed in two parts. -/
protected theorem split (h : Passes c (u ++ w) e) :
    Passes c u (c.advanceBy u.length) ∧ Passes (c.advanceBy u.length) w e := by
  obtain ⟨hkinds, rfl⟩ := h
  rw [List.append_assoc] at hkinds
  obtain ⟨hu, hrest⟩ := passes_of_kinds_eq hkinds
  refine ⟨hu, hrest, ?_⟩
  rw [advanceBy_advanceBy, List.length_append]

/-- No more kinds are passed than remain. -/
theorem length_le (h : Passes c w d) : w.length ≤ c.remaining := by
  rw [← length_kinds, h.kinds_eq, List.length_append]
  exact Nat.le_add_right _ _

/-- As many tokens are passed as there are kinds. -/
theorem since (h : Passes c w d) : d.since c = w.length := by
  have := h.length_le
  rw [h.stop_eq, Cursor.since, position_advanceBy]
  rw [remaining] at this
  omega

/-- Where kinds are passed, the first of them is the head, unless it is the end of input. -/
theorem headKind (h : Passes c (k :: w) d) (hk : k ≠ .endOfInput) : c.headKind = some k :=
  headKind_eq_some_iff.2 ⟨_, h.kinds_eq, hk⟩

/-- Behind the head the remaining kinds are passed. -/
theorem tail (h : Passes c (k :: w) d) : Passes c.advance w d :=
  (Passes.split (u := [k]) h).2

/-- What is passed behind a cursor is passed by moving. -/
theorem advanceBy_length (h : Passes c w d) : c.advanceBy w.length = d := h.stop_eq.symm

/-- What is passed between two kinds, and where the second of them stands. -/
theorem between {first last : Kind} (h : Passes c (first :: w ++ [last]) d)
    (hlast : last ≠ .endOfInput) :
    Passes c.advance w (c.advanceBy (w.length + 1)) ∧
      (c.advanceBy (w.length + 1)).headKind = some last ∧ c.advanceBy (w.length + 2) = d := by
  obtain ⟨hfirst, hrest⟩ := h.split
  refine ⟨hfirst.tail, hrest.headKind hlast, ?_⟩
  rw [h.stop_eq, List.length_append]
  rfl

/-- A kind, what is passed behind it and a kind behind that are passed together. -/
theorem enclose {first last : Kind} (hfirst : c.headKind = some first)
    (h : Passes c.advance w (c.advance.advanceBy w.length))
    (hlast : (c.advanceBy (w.length + 1)).headKind = some last) :
    Passes c (first :: w ++ [last]) (c.advanceBy (w.length + 2)) := by
  have hopen := Passes.cons hfirst h
  have hstop : c.advanceBy (w.length + 1) = c.advance.advanceBy w.length := hopen.stop_eq.symm
  rw [hstop] at hlast
  have hall := hopen.trans (.head hlast)
  have hend : c.advanceBy (w.length + 2) = (c.advance.advanceBy w.length).advance := by
    rw [hall.stop_eq, List.length_append]
    rfl
  exact hend ▸ hall

end Passes

/-! ## Looking at the head -/

/-- A mark is there exactly if it is the head. -/
theorem isPunctuator_iff {mark : Punctuator} :
    c.isPunctuator mark = true ↔ c.headKind = some (.punctuator mark) := by
  simp [isPunctuator]

/-- An operator is there exactly if it is the head. -/
theorem operator?_eq_some_iff {text : String} :
    c.operator? = some text ↔ c.headKind = some (.operator text) := by
  refine ⟨headKind_of_operator?, fun h => ?_⟩
  rw [operator?, h]

/-- A name is read off the head. -/
theorem identifier?_eq_bind (c : Cursor) : c.identifier? true = c.headKind.bind Kind.name? := by
  unfold identifier?
  split
  · next h => rw [h]; rfl
  · next h => rw [h]; rfl
  · next hname hword =>
      cases hk : c.headKind with
      | none => rfl
      | some k =>
          cases k with
          | identifier name => exact absurd hk (hname name)
          | keyword word =>
              cases word with
              | reserved word => rfl
              | contextual word => exact absurd hk (hword word)
          | _ => rfl

/-- A name can be read exactly where the head reads as one. -/
theorem identifier?_eq_some_iff {name : Identifier} :
    c.identifier? true = some name ↔ ∃ k, c.headKind = some k ∧ k.name? = some name := by
  rw [identifier?_eq_bind, Option.bind_eq_some_iff]

/-! ## Skipping trivia -/

/-- Skipping passes trivia, and stops where there are none. -/
theorem exists_passes_skipTrivia (c : Cursor) :
    ∃ w, (∀ k ∈ w, k.isTrivia = true) ∧ Passes c w c.skipTrivia ∧
      ∀ k, c.skipTrivia.headKind = some k → k.isTrivia = false := by
  fun_induction skipTrivia c with
  | case1 c k hk _ htrivia ih =>
      obtain ⟨w, hw, hpasses, hstop⟩ := ih
      refine ⟨k :: w, ?_, hpasses.cons hk, hstop⟩
      intro m hm
      rcases List.mem_cons.1 hm with rfl | hm
      · exact htrivia
      · exact hw m hm
  | case2 c k hk _ htrivia =>
      refine ⟨[], by simp, .nil c, fun m hm => ?_⟩
      cases hk.symm.trans hm
      simpa using htrivia
  | case3 c hnone =>
      refine ⟨[], by simp, .nil c, fun m hm => ?_⟩
      rw [hnone] at hm
      cases hm

/-- Skipping stops behind all the trivia that stand here. -/
theorem skipTrivia_eq_of_passes (h : Passes c w d) (hw : ∀ k ∈ w, k.isTrivia = true)
    (hd : ∀ k, d.headKind = some k → k.isTrivia = false) : c.skipTrivia = d := by
  induction w generalizing c with
  | nil =>
      obtain rfl : c = d := by rw [h.stop_eq]; simp
      rw [skipTrivia]
      split
      · next k hk => simp [hd k hk]
      · rfl
  | cons k w ih =>
      have htrivia := hw k (by simp)
      have hk := h.headKind (Kind.ne_endOfInput_of_isTrivia htrivia)
      rw [skipTrivia]
      split
      · next m hm =>
          cases hk.symm.trans hm
          rw [if_pos htrivia]
          exact ih h.tail fun m hm => hw m (List.mem_cons_of_mem _ hm)
      · next hnone => rw [hnone] at hk; cases hk

end Cursor

end ExprFront
