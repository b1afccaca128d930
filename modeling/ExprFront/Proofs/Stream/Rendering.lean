/-
# Tokens and the text that they cover

The tokens of a source cover it, one behind the other.  Each is rendered as what it covers, but for
the raw tabs of a string, so the renderings of all tokens give the source back but for those tabs.
Where a rendering ends the next token begins, but for the columns that those tabs add.

The main facts are `tokenize_renders` and `tokenize_endLocation`.
-/
import Mathlib
import ExprFront.Proofs.Lexeme.Rendering
import ExprFront.Proofs.Stream.Normal
import ExprFront.Proofs.Stream.Tiling

namespace ExprFront

/-! ## Tokens and their lexemes -/

/-- The characters of the source that the token covers. -/
def Token.spelling (source : String) (t : Token) : List Char :=
  (String.Pos.Raw.extract source ⟨t.span.start⟩ ⟨t.span.stop⟩).toList

/-- The lexeme of a token in the source: its kind and the characters that it covers. -/
def Token.lexeme (source : String) (t : Token) : Lexeme := ⟨t.kind, t.spelling source⟩

/-- Where the source is cut in three, the offsets of the cuts give the part between them. -/
theorem extract_utf8Length {source : String} {u v w : List Char} (h : source.toList = u ++ v ++ w) :
    (String.Pos.Raw.extract source ⟨utf8Length u⟩ ⟨utf8Length (u ++ v)⟩).toList = v := by
  have hbytes (text : List Char) : utf8Length text = String.utf8Len text := by
    rw [← utf8ByteSize_ofList_eq, String.utf8ByteSize_ofList]
  rw [← source.ofList_toList, h, utf8Length_append, hbytes, hbytes, String.extract_of_valid,
    String.toList_ofList]

/-- The part of the source between two places. -/
theorem Token.spelling_to {source : String} {p q : Place} {u v w : List Char} {k : Kind}
    (h : source.toList = u ++ v ++ w) (hp : p.offset = utf8Length u)
    (hq : q.offset = utf8Length (u ++ v)) : Token.spelling source ⟨k, p.to q⟩ = v := by
  rw [spelling, Place.to, hp, hq, extract_utf8Length h]

/-- **The lexemes of placed tokens are those that were placed**, with an empty one at the end. -/
theorem Token.map_lexeme_placed {source : String} {xs : List Lexeme} :
    ∀ {u : List Char} {p : Place}, source.toList = u ++ spelled xs → p.offset = utf8Length u →
      (Token.placed p xs).map (·.lexeme source) = xs ++ [⟨.endOfInput, []⟩] := by
  induction xs with
  | nil =>
      intro u p hu hp
      have hspelling : Token.spelling source ⟨.endOfInput, p.to p⟩ = [] :=
        spelling_to (w := []) (by simpa using hu) hp (by simpa using hp)
      rw [placed, List.map_singleton, lexeme, hspelling]
      rfl
  | cons x xs ih =>
      intro u p hu hp
      rw [spelled_cons, ← List.append_assoc] at hu
      have hafter : (p.after x.spelling).offset = utf8Length (u ++ x.spelling) := by
        rw [Place.after, hp, utf8Length_append]
      rw [placed, List.map_cons, ih hu hafter, lexeme, spelling_to hu hp hafter]
      rfl

/-- A placed token that is not the end of input covers a lexeme, and the next one stands where that
leads. -/
theorem Token.exists_next_placed {xs : List Lexeme} {t : Token} :
    ∀ {p : Place} {i : Nat}, (Token.placed p xs)[i]? = some t → t.kind ≠ .endOfInput →
      ∃ x next, xs[i]? = some x ∧ (Token.placed p xs)[i + 1]? = some next ∧
        next.span.start = t.span.stop ∧
        next.span.location = t.span.location.after x.spelling := by
  have first (p : Place) (xs : List Lexeme) : ∃ next, (Token.placed p xs)[0]? = some next ∧
      next.span.start = p.offset ∧ next.span.location = p.location := by
    cases xs with
    | nil => exact ⟨_, rfl, rfl, rfl⟩
    | cons x xs => exact ⟨_, rfl, rfl, rfl⟩
  induction xs with
  | nil =>
      intro p i ht hk
      have hmem : t ∈ [⟨.endOfInput, p.to p⟩] := List.mem_of_getElem? ht
      rw [List.mem_singleton.1 hmem] at hk
      exact absurd rfl hk
  | cons x xs ih =>
      intro p i ht hk
      cases i with
      | zero =>
          obtain rfl : _ = t := Option.some.inj ht
          obtain ⟨next, hnext, hplace⟩ := first (p.after x.spelling) xs
          exact ⟨x, next, rfl, hnext, hplace⟩
      | succ i => exact ih ht hk

/-! ## Tokens of a source -/

/-- Everything that a text splits into is read off the front of some text. -/
theorem Splits.begins_of_mem {text : List Char} {xs : List Lexeme} (h : Splits text xs) :
    ∀ x ∈ xs, ∃ c rest, Lexeme.Begins c rest x := by
  induction h with
  | nil => exact nofun
  | @cons c text rest x xs first hspelled tail ih =>
      exact List.forall_mem_cons.2 ⟨⟨c, text, first⟩, ih⟩

/-- A text is what spells the lexemes that it splits into. -/
theorem Splits.text_eq {text : List Char} {xs : List Lexeme} (h : Splits text xs) :
    text = spelled xs := by
  induction h with
  | nil => rfl
  | cons first hspelled tail ih => rw [hspelled, ih, spelled_cons, ← ih]

/-- The lexemes of the tokens of a source are those that it splits into. -/
theorem Token.exists_splits_of_tokenize {source : String} {tokens : List Token}
    (h : Token.tokenize source = .ok tokens) :
    ∃ xs, Splits source.toList xs ∧ tokens = Token.placed .start xs ∧
      tokens.map (·.lexeme source) = xs ++ [⟨.endOfInput, []⟩] := by
  obtain ⟨xs, hsplits, rfl⟩ := Token.tokenize_eq_ok_iff.1 h
  exact ⟨xs, hsplits, rfl, Token.map_lexeme_placed (u := []) hsplits.text_eq rfl⟩

/-- A token of a source covers a lexeme that is read off the front of some text, or is the end. -/
theorem Token.begins_or_end_of_tokenize {source : String} {tokens : List Token}
    (h : Token.tokenize source = .ok tokens) {t : Token} (ht : t ∈ tokens) :
    (∃ c rest, Lexeme.Begins c rest (t.lexeme source)) ∨ t.lexeme source = ⟨.endOfInput, []⟩ := by
  obtain ⟨xs, hsplits, -, hlexemes⟩ := exists_splits_of_tokenize h
  have hmem : t.lexeme source ∈ xs ++ [⟨.endOfInput, []⟩] := by
    rw [← hlexemes]
    exact List.mem_map_of_mem ht
  rw [List.mem_append, List.mem_singleton] at hmem
  exact hmem.imp_left (hsplits.begins_of_mem _)

/-- A token of a source is rendered as it is spelled, but for the raw tabs of a string. -/
theorem Token.text_eq_rendering {source : String} {tokens : List Token}
    (h : Token.tokenize source = .ok tokens) {t : Token} (ht : t ∈ tokens) :
    t.text.toList = t.kind.rendering (t.spelling source) := by
  rcases begins_or_end_of_tokenize h ht with ⟨c, rest, hbegins⟩ | hend
  · exact hbegins.text_eq_rendering
  · obtain ⟨hkind, hspelling⟩ := Lexeme.mk.inj hend
    rw [Token.text, hkind, hspelling]
    rfl

/-- The tokens of a source cover it, one behind the other. -/
theorem Token.flatMap_spelling {source : String} {tokens : List Token}
    (h : Token.tokenize source = .ok tokens) :
    tokens.flatMap (·.spelling source) = source.toList := by
  obtain ⟨xs, hsplits, -, hlexemes⟩ := exists_splits_of_tokenize h
  have hspelled : spelled (tokens.map (·.lexeme source)) = tokens.flatMap (·.spelling source) :=
    List.flatMap_map _ _ _
  rw [← hspelled, hlexemes, spelled, List.flatMap_append, ← spelled, ← hsplits.text_eq]
  exact List.append_nil _

/-- How many raw tabs the token has in the source, if it is a string. -/
def Token.rawTabs (source : String) (t : Token) : Nat := t.kind.rawTabs (t.spelling source)

/-- A token's rendering ends where its spelling does, but for the columns that raw tabs add. -/
theorem Token.endLocation_eq {source : String} {tokens : List Token}
    (h : Token.tokenize source = .ok tokens) {t : Token} (ht : t ∈ tokens) :
    t.endLocation = (t.span.location.after (t.spelling source)).right (t.rawTabs source) := by
  rcases begins_or_end_of_tokenize h ht with ⟨c, rest, hbegins⟩ | hend
  · exact hbegins.after_text t.span.location
  · obtain ⟨hkind, hspelling⟩ := Lexeme.mk.inj hend
    rw [endLocation, rawTabs, Token.text, hkind, hspelling]
    rfl

/-- Where the spelling of a token ends, the next token begins. -/
theorem Token.exists_next {source : String} {tokens : List Token}
    (h : Token.tokenize source = .ok tokens) {i : Nat} {t : Token} (ht : tokens[i]? = some t)
    (hk : t.kind ≠ .endOfInput) :
    ∃ next, tokens[i + 1]? = some next ∧ next.span.start = t.span.stop ∧
      next.span.location = t.span.location.after (t.spelling source) := by
  obtain ⟨xs, -, rfl, hlexemes⟩ := exists_splits_of_tokenize h
  obtain ⟨x, next, hx, hnext, hstart, hlocation⟩ := exists_next_placed ht hk
  have hlexeme : t.lexeme source = x := by
    have hi := congrArg (·[i]?) hlexemes
    simp only [List.getElem?_map, ht, Option.map_some] at hi
    rw [List.getElem?_append_left (List.getElem?_eq_some_iff.1 hx).1, hx] at hi
    exact Option.some.inj hi
  subst hlexeme
  exact ⟨next, hnext, hstart, hlocation⟩

/-! ## Main statements -/

/-- Where nothing gets shorter, lists put together are the same only if their parts are. -/
theorem flatMap_eq_flatMap_iff {α β : Type} {f g : α → List β} {l : List α}
    (h : ∀ a ∈ l, (g a).length ≤ (f a).length) :
    l.flatMap f = l.flatMap g ↔ ∀ a ∈ l, f a = g a := by
  refine ⟨fun heq => ?_, List.flatMap_congr⟩
  induction l with
  | nil => exact nofun
  | cons a l ih =>
      obtain ⟨ha, hl⟩ := List.forall_mem_cons.1 h
      have hlengths : (l.flatMap g).length ≤ (l.flatMap f).length := by
        rw [List.length_flatMap, List.length_flatMap]
        exact List.sum_le_sum hl
      have hwhole := congrArg List.length heq
      rw [List.flatMap_cons, List.flatMap_cons] at heq
      simp only [List.flatMap_cons, List.length_append] at hwhole
      obtain ⟨hfirst, hrest⟩ := List.append_inj heq (by omega)
      exact List.forall_mem_cons.2 ⟨hfirst, ih hl hrest⟩

/-- **Tokens render their source.**  Each token of a source is rendered as the part of the source
that it covers, but a raw tab in a string is rendered as an escape.  These parts are the source, one
behind the other, so the renderings of all tokens are the source with those tabs escaped; they are
the source itself exactly if no string has a raw tab. -/
theorem tokenize_renders {source : String} {tokens : List Token}
    (h : Token.tokenize source = .ok tokens) :
    (∀ t ∈ tokens, t.text.toList = t.kind.rendering (t.spelling source)) ∧
      tokens.flatMap (·.spelling source) = source.toList ∧
      (Kind.textOf (tokens.map (·.kind))).toList =
        tokens.flatMap (fun t => t.kind.rendering (t.spelling source)) ∧
      (Kind.textOf (tokens.map (·.kind)) = source ↔
        ∀ t ∈ tokens, t.kind.isString = true → '\t' ∉ t.spelling source) := by
  have hall : (Kind.textOf (tokens.map (·.kind))).toList =
      tokens.flatMap (fun t => t.kind.rendering (t.spelling source)) := by
    rw [Kind.toList_textOf, List.flatMap_map]
    exact List.flatMap_congr fun t ht => Token.text_eq_rendering h ht
  refine ⟨fun t ht => Token.text_eq_rendering h ht, Token.flatMap_spelling h, hall, ?_⟩
  rw [← String.toList_inj, hall, ← Token.flatMap_spelling h,
    flatMap_eq_flatMap_iff fun t _ => t.kind.length_le_length_rendering _]
  simp only [Kind.rendering_eq_self_iff]

/-- The tab between the quotes is rendered as an escape, the one behind them as it is. -/
theorem tokenize_renders_tab :
    let source := "\"\t\"\t"
    let tokens : List Token :=
      [⟨.literal (.string "\t"), ⟨0, 3, ⟨1, 1⟩⟩⟩, ⟨.whitespace "\t", ⟨3, 4, ⟨1, 4⟩⟩⟩,
        ⟨.endOfInput, ⟨4, 4, ⟨1, 5⟩⟩⟩]
    Token.tokenize source = .ok tokens ∧
      (Kind.textOf (tokens.map (·.kind))).toList = ['"', '\\', 't', '"', '\t'] := by
  intro source tokens
  have htokens : Token.tokenize source = .ok tokens := by cbv
  obtain ⟨-, -, hall, -⟩ := tokenize_renders htokens
  refine ⟨htokens, hall.trans ?_⟩
  decide +kernel

/-- **Where a token ends, the next one begins.**  Each token of a source but the last is followed by
another one.  The location that the rendering of the one reaches is the location of the other, but
for one column more for each raw tab of a string. -/
theorem tokenize_endLocation {source : String} {tokens : List Token}
    (h : Token.tokenize source = .ok tokens) {i : Nat} {t : Token} (ht : tokens[i]? = some t)
    (hk : t.kind ≠ .endOfInput) :
    ∃ next, tokens[i + 1]? = some next ∧
      t.endLocation = next.span.location.right (t.rawTabs source) := by
  obtain ⟨next, hnext, -, hlocation⟩ := Token.exists_next h ht hk
  refine ⟨next, hnext, ?_⟩
  rw [hlocation]
  exact Token.endLocation_eq h (List.mem_of_getElem? ht)

/-- A string with a raw tab is rendered one column further than where the name behind it begins. -/
theorem tokenize_endLocation_tab :
    let source := "\"\t\"x"
    let t : Token := ⟨.literal (.string "\t"), ⟨0, 3, ⟨1, 1⟩⟩⟩
    let next : Token := ⟨.identifier (.plain "x"), ⟨3, 4, ⟨1, 4⟩⟩⟩
    Token.tokenize source = .ok [t, next, ⟨.endOfInput, ⟨4, 4, ⟨1, 5⟩⟩⟩] ∧
      t.endLocation = next.span.location.right 1 := by
  intro source t next
  have htokens : Token.tokenize source = .ok [t, next, ⟨.endOfInput, ⟨4, 4, ⟨1, 5⟩⟩⟩] := by cbv
  obtain ⟨other, hother, hend⟩ := tokenize_endLocation htokens (i := 0) rfl (by decide)
  obtain rfl : next = other := Option.some.inj hother
  have htabs : t.rawTabs source = 1 := by decide +kernel
  exact ⟨htokens, htabs ▸ hend⟩

end ExprFront
