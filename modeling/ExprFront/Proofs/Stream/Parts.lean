/-
# Tokens of the parts of a source

A source can be cut in two where one of its tokens starts.  Both parts split into the tokens that
they cover: the scanner looks past the first part only for what would prolong its last lexeme, and
nothing before the second part matters to it.  The tokens of the second part are those of the
source, seen from the place of the cut.  The main fact is `tokenize_parts`.
-/
import ExprFront.Proofs.Stream.Rendering

namespace ExprFront

/-! ## Locations seen from one another -/

namespace Location

variable {l o : Location}

/-- The location as it is counted if the text starts at `o`: the line of `o` is the first one, and
on that line the column of `o` is the first. -/
def seenFrom (l o : Location) : Location :=
  ⟨l.line + 1 - o.line, if l.line = o.line then l.column + 1 - o.column else l.column⟩

/-- The location is `o` or lies behind it. -/
structure AtOrBehind (l o : Location) : Prop where
  line_le : o.line ≤ l.line
  column_le : l.line = o.line → o.column ≤ l.column

/-- Every location is at itself. -/
theorem AtOrBehind.refl (l : Location) : l.AtOrBehind l := ⟨Nat.le_refl _, fun _ => Nat.le_refl _⟩

/-- Seen from itself, a location is where a text starts. -/
theorem seenFrom_self (l : Location) : l.seenFrom l = .start := by
  simp [seenFrom, start]

/-- A step leads on, and seen from further back it is the same step. -/
theorem AtOrBehind.step (h : l.AtOrBehind o) (c : Char) (next : Option Char) :
    (l.step c next).AtOrBehind o ∧ (l.step c next).seenFrom o = (l.seenFrom o).step c next := by
  obtain ⟨hline, hcolumn⟩ := h
  unfold Location.step
  split
  · -- The line that begins here is not that of `o`, so its columns stay.
    have hne : l.line + 1 ≠ o.line := by omega
    refine ⟨⟨Nat.le_succ_of_le hline, fun heq => absurd heq hne⟩, ?_⟩
    simp only [seenFrom, if_neg hne, mk.injEq, and_true]
    omega
  · refine ⟨⟨hline, fun heq => Nat.le_succ_of_le (hcolumn heq)⟩, ?_⟩
    simp only [seenFrom, mk.injEq, true_and]
    split
    · next heq =>
        have := hcolumn heq
        omega
    · rfl

/-- **Reading leads on, and seen from further back it leads to the same location.** -/
theorem AtOrBehind.after (h : l.AtOrBehind o) (text : List Char) :
    (l.after text).AtOrBehind o ∧ (l.after text).seenFrom o = (l.seenFrom o).after text := by
  induction text generalizing l with
  | nil => exact ⟨h, rfl⟩
  | cons c rest ih =>
      obtain ⟨hstep, hseen⟩ := h.step c rest.head?
      rw [after_cons, after_cons, ← hseen]
      exact ih hstep

end Location

/-! ## Tokens seen from a place -/

/-- The place as it is counted if the text starts at `o`. -/
def Place.seenFrom (p o : Place) : Place :=
  ⟨p.offset - o.offset, p.location.seenFrom o.location⟩

/-- The place is `o` or lies behind it. -/
structure Place.AtOrBehind (p o : Place) : Prop where
  offset_le : o.offset ≤ p.offset
  location : p.location.AtOrBehind o.location

/-- Reading a text leads on, and seen from further back it leads to the same place. -/
theorem Place.AtOrBehind.after {p o : Place} (h : p.AtOrBehind o) (text : List Char) :
    (p.after text).AtOrBehind o ∧ (p.after text).seenFrom o = (p.seenFrom o).after text := by
  obtain ⟨hoffset, hlocation⟩ := h
  obtain ⟨hbehind, hseen⟩ := hlocation.after text
  refine ⟨⟨Nat.le_trans hoffset (Nat.le_add_right _ _), hbehind⟩, ?_⟩
  simp only [seenFrom, Place.after, hseen, mk.injEq, and_true]
  omega

namespace Token

/-- Where the token starts. -/
def place (t : Token) : Place := ⟨t.span.start, t.span.location⟩

/-- The token as it is placed if the text starts at `o`. -/
def seenFrom (t : Token) (o : Place) : Token :=
  ⟨t.kind, t.span.start - o.offset, t.span.stop - o.offset, t.span.location.seenFrom o.location⟩

/-- Placed tokens, seen from further back, are placed where their place is seen. -/
theorem map_seenFrom_placed {o : Place} (xs : List Lexeme) :
    ∀ {p : Place}, p.AtOrBehind o →
      (placed p xs).map (·.seenFrom o) = placed (p.seenFrom o) xs ∧
        ∀ t ∈ placed p xs, t.place.AtOrBehind o := by
  induction xs with
  | nil =>
      intro p hp
      refine ⟨rfl, fun t ht => ?_⟩
      rw [List.mem_singleton.1 ht]
      exact hp
  | cons x xs ih =>
      intro p hp
      obtain ⟨hbehind, hseen⟩ := hp.after x.spelling
      obtain ⟨hmap, hall⟩ := ih hbehind
      refine ⟨?_, List.forall_mem_cons.2 ⟨hp, hall⟩⟩
      rw [placed, List.map_cons, hmap, placed, ← hseen]
      rfl

/-- Where so many lexemes are placed, the tokens up to there end alike, and those from there on
are placed behind them. -/
theorem placed_append (p : Place) (xs ys : List Lexeme) :
    (placed p (xs ++ ys)).take xs.length ++
        [⟨.endOfInput, (p.behind xs).to (p.behind xs)⟩] = placed p xs ∧
      (placed p (xs ++ ys)).drop xs.length = placed (p.behind xs) ys := by
  induction xs generalizing p with
  | nil => exact ⟨rfl, rfl⟩
  | cons x xs ih =>
      obtain ⟨hfront, hrest⟩ := ih (p.after x.spelling)
      exact ⟨congrArg (_ :: ·) hfront, hrest⟩

/-- The first of placed tokens is at the place. -/
theorem exists_placed_eq_cons (p : Place) (xs : List Lexeme) :
    ∃ t rest, placed p xs = t :: rest ∧ t.place = p := by
  cases xs with
  | nil => exact ⟨_, _, rfl, rfl⟩
  | cons x xs => exact ⟨_, _, rfl, rfl⟩

end Token

/-! ## Cutting a text -/

/-- What splits into lexemes and further ones splits behind the first of them. -/
theorem Splits.exists_cut {text : List Char} {xs ys : List Lexeme} (h : Splits text (xs ++ ys)) :
    ∃ rest, SplitsOff text xs rest ∧ Splits rest ys := by
  induction xs generalizing text with
  | nil => exact ⟨text, .nil text, h⟩
  | cons x xs ih =>
      cases h with
      | cons first spelled tail =>
          obtain ⟨rest, hoff, hrest⟩ := ih tail
          exact ⟨rest, .cons first spelled hoff, hrest⟩

/-- The offset behind lexemes is what their spellings take. -/
theorem Place.offset_behind (p : Place) (xs : List Lexeme) :
    (p.behind xs).offset = p.offset + utf8Length (spelled xs) := by
  induction xs generalizing p with
  | nil => rfl
  | cons x xs ih =>
      rw [spelled_cons, utf8Length_append, ← Nat.add_assoc]
      exact ih (p.after x.spelling)

namespace Token

/-- The part of the source before the token. -/
def textBefore (source : String) (t : Token) : String :=
  String.Pos.Raw.extract source 0 ⟨t.span.start⟩

/-- The part of the source from the token on. -/
def textFrom (source : String) (t : Token) : String :=
  String.Pos.Raw.extract source ⟨t.span.start⟩ ⟨source.utf8ByteSize⟩

/-- Where the source is cut in two, a token that starts there has the first part before it and the
other one from it on. -/
theorem toList_textBefore_textFrom {source : String} {u v : List Char} {t : Token}
    (h : source.toList = u ++ v) (ht : t.span.start = utf8Length u) :
    (t.textBefore source).toList = u ∧ (t.textFrom source).toList = v := by
  constructor
  · rw [textBefore, ht]
    exact extract_utf8Length (u := []) h
  · have hwhole : source.utf8ByteSize = utf8Length (u ++ v) := by
      rw [utf8ByteSize_eq_utf8Length, h]
    rw [textFrom, ht, hwhole]
    exact extract_utf8Length (w := []) (by rw [h, List.append_nil])

end Token

/-! ## Main statement -/

/-- **A source can be cut where a token starts.**  The part before the token has the tokens before
it, at the same places, with the end of input where the token starts.  The part from it on has the
token and those behind it, each of them seen from where the token starts; all of them lie there or
behind, so nothing is cut off.  The parts are the source. -/
theorem tokenize_parts {source : String} {tokens : List Token}
    (h : Token.tokenize source = .ok tokens) {k : Nat} {t : Token} (ht : tokens[k]? = some t) :
    t.textBefore source ++ t.textFrom source = source ∧
      Token.tokenize (t.textBefore source) =
        .ok (tokens.take k ++ [⟨.endOfInput, t.place.to t.place⟩]) ∧
      Token.tokenize (t.textFrom source) = .ok ((tokens.drop k).map (·.seenFrom t.place)) ∧
      ∀ u ∈ tokens.drop k, u.place.AtOrBehind t.place := by
  obtain ⟨zs, hsplits, rfl⟩ := Token.tokenize_eq_ok_iff.1 h
  -- The lexemes before the token, and those from it on.
  obtain ⟨xs, ys, rfl, rfl⟩ : ∃ xs ys, zs = xs ++ ys ∧ k = xs.length := by
    have hk : k ≤ zs.length := by
      have hlt := (List.getElem?_eq_some_iff.1 ht).1
      have hlength := congrArg List.length (Token.map_kind_placed .start zs)
      simp only [List.length_map, List.length_append, List.length_singleton] at hlength
      omega
    exact ⟨zs.take k, zs.drop k, (List.take_append_drop k zs).symm,
      (List.length_take_of_le hk).symm⟩
  obtain ⟨rest, hoff, hrest⟩ := hsplits.exists_cut
  obtain ⟨hfront, hback⟩ := Token.placed_append .start xs ys
  have hplace : t.place = Place.start.behind xs := by
    obtain ⟨t', tail, hplaced, ht'⟩ := Token.exists_placed_eq_cons (Place.start.behind xs) ys
    rw [← Nat.add_zero xs.length, ← List.getElem?_drop, hback, hplaced] at ht
    obtain rfl : t' = t := Option.some.inj ht
    exact ht'
  have hself : t.place.AtOrBehind t.place := ⟨Nat.le_refl _, .refl _⟩
  have hstart : t.place.seenFrom t.place = .start := by
    rw [Place.seenFrom, Nat.sub_self, Location.seenFrom_self]
    rfl
  obtain ⟨hseen, hall⟩ := Token.map_seenFrom_placed ys hself
  have hoffset : t.span.start = utf8Length (spelled xs) := by
    show t.place.offset = _
    rw [hplace, Place.offset_behind]
    exact Nat.zero_add _
  obtain ⟨hbefore, hfrom⟩ := Token.toList_textBefore_textFrom hoff.text_eq hoffset
  rw [← hplace] at hfront hback
  rw [hback]
  refine ⟨?_, ?_, ?_, hall⟩
  · rw [← String.toList_inj, String.toList_append, hbefore, hfrom, hoff.text_eq]
  · rw [hfront]
    exact Token.tokenize_eq_ok_iff.2 ⟨xs, hbefore.symm ▸ hoff.splits, rfl⟩
  · rw [hseen, hstart]
    exact Token.tokenize_eq_ok_iff.2 ⟨ys, hfrom.symm ▸ hrest, rfl⟩

/-- A source of three lines, cut in front of the name on its second line: what stood there in the
third column comes to stand in the first, and what stood on the third line is on the second. -/
theorem tokenize_parts_lines :
    let source := "a\n  b.c\n d"
    let t : Token := ⟨.identifier (.plain "b"), ⟨4, 5, ⟨2, 3⟩⟩⟩
    let tokens : List Token :=
      [⟨.identifier (.plain "a"), ⟨0, 1, ⟨1, 1⟩⟩⟩, ⟨.whitespace "\n  ", ⟨1, 4, ⟨1, 2⟩⟩⟩, t,
        ⟨.punctuator .dot, ⟨5, 6, ⟨2, 4⟩⟩⟩, ⟨.identifier (.plain "c"), ⟨6, 7, ⟨2, 5⟩⟩⟩,
        ⟨.whitespace "\n ", ⟨7, 9, ⟨2, 6⟩⟩⟩, ⟨.identifier (.plain "d"), ⟨9, 10, ⟨3, 2⟩⟩⟩,
        ⟨.endOfInput, ⟨10, 10, ⟨3, 3⟩⟩⟩]
    Token.tokenize source = .ok tokens ∧ tokens[2]? = some t ∧
      Token.tokenize "a\n  " =
        .ok [⟨.identifier (.plain "a"), ⟨0, 1, ⟨1, 1⟩⟩⟩, ⟨.whitespace "\n  ", ⟨1, 4, ⟨1, 2⟩⟩⟩,
          ⟨.endOfInput, ⟨4, 4, ⟨2, 3⟩⟩⟩] ∧
      Token.tokenize "b.c\n d" =
        .ok [⟨.identifier (.plain "b"), ⟨0, 1, ⟨1, 1⟩⟩⟩, ⟨.punctuator .dot, ⟨1, 2, ⟨1, 2⟩⟩⟩,
          ⟨.identifier (.plain "c"), ⟨2, 3, ⟨1, 3⟩⟩⟩, ⟨.whitespace "\n ", ⟨3, 5, ⟨1, 4⟩⟩⟩,
          ⟨.identifier (.plain "d"), ⟨5, 6, ⟨2, 2⟩⟩⟩, ⟨.endOfInput, ⟨6, 6, ⟨2, 3⟩⟩⟩] := by
  intro source t tokens
  have htokens : Token.tokenize source = .ok tokens := by cbv
  obtain ⟨-, hbefore, hfrom, -⟩ := tokenize_parts htokens (k := 2) (t := t) rfl
  have hfirst : t.textBefore source = "a\n  " := by decide +kernel
  have hsecond : t.textFrom source = "b.c\n d" := by decide +kernel
  rw [hfirst] at hbefore
  rw [hsecond] at hfrom
  exact ⟨htokens, rfl, hbefore, hfrom⟩

end ExprFront
