/-
# Texts one behind the other

Where two texts meet, the last lexeme of the first one may run together with what follows it.  If it
does not, the two of them split into the lexemes of the first and then of the second:
`Splits.append`.  Whether it does shows in the kinds, and away from the seam nothing changes unless
a number comes to stand behind a point, which is what `Spaced.append` says.
-/
import ExprFront.Proofs.Stream.Normal
import ExprFront.Proofs.Stream.Cutting

namespace ExprFront

/-! ## Spaced kinds -/

/-- What may stand behind a kind in front of others may do so without the end of input. -/
theorem Kind.LeadsTo.append {k : Kind} {u w : List Kind} (h : k.LeadsTo (u ++ [.endOfInput]))
    (hu : u ≠ []) (hw : ∀ m ∈ w.head?, m.category ≠ .number) :
    k.LeadsTo (u ++ (w ++ [.endOfInput])) := by
  obtain ⟨hnext, hfraction⟩ := h
  obtain ⟨next, u, rfl⟩ := List.exists_cons_of_ne_nil hu
  refine ⟨hnext, fun hinteger m tail htail => ?_⟩
  cases u with
  | cons m' u =>
      rw [List.cons_append, List.cons_append, List.cons.injEq, List.cons.injEq] at htail
      obtain ⟨rfl, rfl, -⟩ := htail
      exact hfraction hinteger m' (u ++ [.endOfInput]) rfl
  | nil =>
      -- The point is the last kind in front of `w`.
      cases w with
      | nil =>
          obtain ⟨-, rfl, -⟩ : _ ∧ Kind.endOfInput = m ∧ _ := by simpa using htail
          nofun
      | cons m' w =>
          obtain ⟨-, rfl, -⟩ : _ ∧ m' = m ∧ _ := by simpa using htail
          exact hw m' rfl

/-- **Spaced kinds may stand in front of spaced kinds** if the last of them may, and if no number
comes first. -/
theorem Spaced.append {u w : List Kind} (hu : Spaced u) (hw : Spaced w)
    (hlast : ∀ k ∈ u.getLast?, k.LeadsTo (w ++ [.endOfInput]))
    (hfirst : ∀ m ∈ w.head?, m.category ≠ .number) : Spaced (u ++ w) := by
  induction u with
  | nil => exact hw
  | cons k u ih =>
      obtain ⟨hvalid, hend, hleads, htail⟩ := hu
      by_cases hnil : u = []
      · subst hnil
        exact ⟨hvalid, hend, hlast k rfl, hw⟩
      · rw [List.getLast?_cons_of_ne_nil hnil] at hlast
        refine ⟨hvalid, hend, ?_, ih htail hlast⟩
        show k.LeadsTo ((u ++ w) ++ [.endOfInput])
        rw [List.append_assoc]
        exact hleads.append hnil hfirst

/-! ## Splitting both texts -/

/-- **Two texts split, one behind the other, as each of them does**, if the kinds of both are
spaced. -/
theorem Splits.append {s t : List Char} {xs ys : List Lexeme} (hs : Splits s xs)
    (ht : Splits t ys) (h : Spaced (xs.map (·.kind) ++ ys.map (·.kind))) :
    Splits (s ++ t) (xs ++ ys) := by
  induction hs with
  | nil => exact ht
  | @cons c text rest x xs first hspelled tail ih =>
      obtain ⟨-, -, hleads, hrest⟩ := h
      have hsplits := ih hrest
      have hstop : x.kind.StopsBefore (rest ++ t) := by
        rw [stopsBefore_iff_leadsTo hsplits, List.map_append]
        exact hleads
      obtain ⟨text', htext, hbegins⟩ := first.before hspelled hstop
      have hwhole : c :: (text ++ t) = c :: text' := by
        rw [htext, ← List.cons_append, hspelled, List.append_assoc]
      rw [List.cons_append, List.cons_append, hwhole]
      exact .cons hbegins htext hsplits

/-- The text splits into lexemes of the kinds. -/
def SplitsInto (text : List Char) (kinds : List Kind) : Prop :=
  ∃ xs, Splits text xs ∧ xs.map (·.kind) = kinds

namespace SplitsInto

variable {s t : List Char} {u w : List Kind}

/-- What a text splits into is spaced. -/
theorem spaced (h : SplitsInto s u) : Spaced u := by
  obtain ⟨xs, hsplits, rfl⟩ := h
  exact spaced_of_splits hsplits

/-- The printed text of spaced kinds splits into them. -/
theorem of_spaced (h : Spaced u) (htext : s = u.flatMap (·.text.toList)) : SplitsInto s u :=
  ⟨u.map Kind.lexeme, htext ▸ splits_of_spaced h, Kind.map_kind_lexeme u⟩

/-- Two texts split, one behind the other, into the kinds of both if these are spaced. -/
theorem append (hs : SplitsInto s u) (ht : SplitsInto t w) (h : Spaced (u ++ w)) :
    SplitsInto (s ++ t) (u ++ w) := by
  obtain ⟨xs, hxs, rfl⟩ := hs
  obtain ⟨ys, hys, rfl⟩ := ht
  exact ⟨xs ++ ys, hxs.append hys h, List.map_append⟩

/-- No kind that a text splits into is the end of input. -/
theorem endOfInput_notMem (h : SplitsInto s u) : .endOfInput ∉ u := by
  obtain ⟨body, hbody, hend⟩ := (normal_append_endOfInput_iff.2 h.spaced).ends
  rw [List.append_cancel_right hbody]
  exact hend

end SplitsInto

/-- The kinds of the tokens of a source are those that its text splits into, and the end of
input. -/
theorem Token.exists_tokenize_iff {source : String} {kinds : List Kind} :
    (∃ tokens, Token.tokenize source = .ok tokens ∧
      tokens.map (·.kind) = kinds ++ [.endOfInput]) ↔ SplitsInto source.toList kinds := by
  rw [Token.exists_tokens_iff]
  constructor
  · rintro ⟨xs, hsplits, hkinds⟩
    exact ⟨xs, hsplits, (List.append_cancel_right hkinds).symm⟩
  · rintro ⟨xs, hsplits, rfl⟩
    exact ⟨xs, hsplits, rfl⟩

end ExprFront
