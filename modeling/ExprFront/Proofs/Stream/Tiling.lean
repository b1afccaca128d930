/-
# Tokens tile their source

The spans of the tokens of a source lie one behind the other, from its first byte to its last, and
each token is located where the source says that its first byte is.  The scanner computes the
locations lexeme by lexeme, so what has to be seen is that no lexeme ends between a carriage return
and the line feed behind it: that is `Lexeme.Begins.isSeam`.  The main facts are `tokenize_tiles`
and, for the sources that are refused, `tokenize_eq_error_iff`.
-/
import Mathlib
import ExprFront.Proofs.Stream.Lines
import ExprFront.Proofs.Stream.Cutting

namespace ExprFront

open Spelling

/-! ## Offsets in a source -/

/-- The length of a text in bytes. -/
theorem utf8ByteSize_ofList_eq (text : List Char) :
    (String.ofList text).utf8ByteSize = utf8Length text := by
  induction text with
  | nil => rfl
  | cons c text ih =>
      rw [String.ofList_cons, String.utf8ByteSize_append, String.utf8ByteSize_singleton, ih,
        utf8Length_cons]

/-- The length of a source in bytes. -/
theorem utf8ByteSize_eq_utf8Length (source : String) :
    source.utf8ByteSize = utf8Length source.toList := by
  rw [← utf8ByteSize_ofList_eq, String.ofList_toList]

/-- Behind every front part of a source a character starts, or the source ends. -/
theorem isValid_utf8Length {source : String} {u v : List Char} (h : source.toList = u ++ v) :
    String.Pos.Raw.IsValid source ⟨utf8Length u⟩ := by
  refine String.Pos.Raw.isValid_iff_exists_append.2 ⟨String.ofList u, String.ofList v, ?_, ?_⟩
  · rw [← String.ofList_append, ← h, String.ofList_toList]
  · rw [← utf8ByteSize_ofList_eq]
    rfl

/-- What is not empty takes bytes. -/
theorem utf8Length_pos {text : List Char} (h : text ≠ []) : 0 < utf8Length text := by
  cases text with
  | nil => exact absurd rfl h
  | cons c text =>
      have := c.utf8Size_pos
      rw [utf8Length_cons]
      omega

/-! ## Tiling -/

/-- The tokens tile the source from the offset on: each of them is located where the source says,
covers at least one character and ends where the next begins, and the last of them, which alone is
an end of input, is the empty one at the end. -/
inductive Tiles (source : String) : Nat → List Token → Prop
  | last {t : Token} (kind : t.kind = .endOfInput) (start : t.span.start = source.utf8ByteSize)
      (stop : t.span.stop = source.utf8ByteSize)
      (location : t.span.location = .ofOffset source.toList t.span.start) :
      Tiles source t.span.start [t]
  | cons {t : Token} {rest : List Token} (kind : t.kind ≠ .endOfInput)
      (nonempty : t.span.start < t.span.stop)
      (start : String.Pos.Raw.IsValid source ⟨t.span.start⟩)
      (stop : String.Pos.Raw.IsValid source ⟨t.span.stop⟩)
      (location : t.span.location = .ofOffset source.toList t.span.start)
      (tail : Tiles source t.span.stop rest) : Tiles source t.span.start (t :: rest)

/-! ## Seams between lexemes -/

/-- Behind a text without carriage returns every cut is a seam. -/
theorem isSeam_of_notMem {u : List Char} (h : '\r' ∉ u) (v : List Char) : IsSeam u v :=
  fun hlast => absurd (List.mem_of_getLast? hlast) h

/-- A cut is a seam or not by the last character before it. -/
theorem isSeam_append {u v : List Char} (hv : v ≠ []) (t w : List Char) :
    IsSeam (u ++ t ++ v) w ↔ IsSeam v w := by
  rw [IsSeam, IsSeam, List.getLast?_append_of_ne_nil _ hv]

/-- Behind a comment's last delimiter every cut is a seam. -/
theorem Spelling.Nested.isSeam {body : List Char} (h : Nested body) (v : List Char) :
    IsSeam body v := by
  have hlast : body.getLast? = some '/' := by
    induction h with
    | close => rfl
    | char h tail ih =>
        rw [← List.singleton_append, List.getLast?_append_of_ne_nil _ tail.ne_nil, ih]
    | @inner body rest nested tail _ ih =>
        rw [show '/' :: '*' :: (body ++ rest) = ['/', '*'] ++ body ++ rest from rfl,
          List.getLast?_append_of_ne_nil _ tail.ne_nil, ih]
  intro hreturn
  rw [hlast] at hreturn
  cases hreturn

namespace Lexeme

/-- **No lexeme ends inside a line break.** -/
theorem Begins.isSeam {c : Char} {text rest : List Char} {x : Lexeme} (h : Begins c text x)
    (hspelled : c :: text = x.spelling ++ rest) : IsSeam x.spelling rest := by
  cases h with
  | blanks hc =>
      -- All the blanks are taken, so no line feed is left behind a carriage return.
      obtain ⟨run, tail, hrun, -, hstop, hx⟩ := exists_of_blanks hc text
      rw [hx] at hspelled ⊢
      obtain rfl : tail = rest := List.append_cancel_left (hrun.symm.trans hspelled)
      intro _ hfeed
      have := hstop _ hfeed
      cases this
  | lineComment text =>
      obtain ⟨run, tail, -, ⟨body, rfl, hbody⟩, -, hx⟩ := exists_of_lineComment text
      rw [hx]
      refine isSeam_of_notMem ?_ rest
      simp only [List.mem_cons, not_or]
      refine ⟨by decide, by decide, fun hmem => ?_⟩
      cases hbody _ hmem
  | blockComment hx =>
      obtain ⟨body, tail, -, nested, rfl⟩ := blockComment_eq_ok_iff.1 hx
      exact (isSeam_append (u := ['/']) nested.ne_nil ['*'] rest).2 (nested.isSeam rest)
  | string hx =>
      unfold Lexeme.string at hx
      split at hx
      · cases hx
        exact (isSeam_append (u := ['"']) (by simp) _ rest).2 (isSeam_of_notMem (by decide) rest)
      all_goals cases hx
  | backtickedName hx =>
      obtain ⟨name, tail, -, -, rfl⟩ := backtickedName_eq_ok_iff.1 hx
      exact (isSeam_append (u := ['\x60']) (by simp) name rest).2
        (isSeam_of_notMem (by decide) rest)
  | number hc =>
      obtain ⟨run, tail, -, -, hshape⟩ := exists_of_number hc text
      have hrun : (Lexeme.number (c :: text)).spelling = run := by
        rcases hshape with ⟨-, -, hx⟩ | ⟨-, hx⟩
        · rw [hx]
        · rw [hx]
      rw [hrun]
      refine isSeam_of_notMem (fun hmem => ?_) rest
      rcases hshape with ⟨hshape, -⟩ | ⟨⟨whole, part, rfl, hwhole, hpart⟩, -⟩
      · cases hshape.chars _ hmem
      · simp only [List.mem_append, List.mem_cons] at hmem
        rcases hmem with hmem | hmem | hmem
        · cases hwhole.chars _ hmem
        · cases hmem
        · cases hpart.chars _ hmem
  | mark hm =>
      refine isSeam_of_notMem ?_ rest
      rw [List.mem_singleton]
      rintro rfl
      cases hm
  | operator hc hopen =>
      obtain ⟨run, tail, -, hrun, -, hx⟩ := exists_of_operator hc hopen
      rw [hx]
      exact isSeam_of_notMem (fun hmem => by cases hrun.chars _ hmem) rest
  | word hc =>
      obtain ⟨run, tail, -, hrun, -, hx⟩ := exists_of_word hc text
      rw [hx]
      exact isSeam_of_notMem (fun hmem => by cases hrun.continues _ hmem) rest

end Lexeme

/-! ## Tiling by tokens -/

/-- Placing goes on where reading leads. -/
theorem Place.after_after {u v : List Char} (h : IsSeam u v) (p : Place) :
    (p.after u).after v = p.after (u ++ v) := by
  rw [after, after, after, Location.after_append h, utf8Length_append, Nat.add_assoc]

/-- Where reading leads from the start of a source, its location is that of the offset. -/
theorem Place.location_after {source : String} {u v : List Char} (h : source.toList = u ++ v)
    (hseam : IsSeam u v) :
    (Place.start.after u).location = .ofOffset source.toList (utf8Length u) := by
  rw [h, Location.ofOffset_append hseam]
  rfl

/-- The offset that reading leads to from the start of a source. -/
theorem Place.offset_after (u : List Char) : (Place.start.after u).offset = utf8Length u :=
  Nat.zero_add _

/-- Behind a seam the front of the text is a seam as well. -/
theorem IsSeam.left {u v w : List Char} (h : IsSeam u (v ++ w)) (hv : v ≠ []) : IsSeam u v := by
  intro hlast hfeed
  obtain ⟨tail, rfl⟩ := List.head?_eq_some_iff.1 hfeed
  exact h hlast rfl

/-- Behind its first lexeme a text goes on at a seam. -/
theorem IsSeam.behind_lexeme {u text rest : List Char} {c : Char} {x : Lexeme}
    (first : Lexeme.Begins c text x) (hspelled : c :: text = x.spelling ++ rest) :
    IsSeam (u ++ x.spelling) rest := by
  have hne := Lexeme.spelling_ne_nil_of_first (Lexeme.first_eq_ok_iff.2 first)
  have hrest := first.isSeam hspelled
  rwa [← List.append_nil u, isSeam_append hne]

/-- What a text splits into tiles the source that it ends. -/
theorem tiles_placed {source : String} {text : List Char} {xs : List Lexeme} (h : Splits text xs) :
    ∀ u, source.toList = u ++ text → IsSeam u text →
      Tiles source (utf8Length u) (Token.placed (Place.start.after u) xs) := by
  induction h with
  | nil =>
      intro u hu hseam
      have hlocation := Place.location_after hu hseam
      have hend : utf8Length u = source.utf8ByteSize := by
        rw [utf8ByteSize_eq_utf8Length, hu, List.append_nil]
      rw [← Place.offset_after u] at hlocation hend ⊢
      exact .last (t := ⟨.endOfInput, (Place.start.after u).to (Place.start.after u)⟩) rfl hend hend
        hlocation
  | @cons c text rest x xs first spelled tail ih =>
      intro u hu hseam
      have hne := Lexeme.spelling_ne_nil_of_first (Lexeme.first_eq_ok_iff.2 first)
      rw [spelled] at hu hseam
      have hsource : source.toList = u ++ x.spelling ++ rest := by rw [hu, List.append_assoc]
      have htail := ih _ hsource (.behind_lexeme first spelled)
      have hlocation := Place.location_after hu hseam
      have hstart := isValid_utf8Length hu
      have hstop := isValid_utf8Length hsource
      have hpos := utf8Length_pos hne
      have hnext := Place.after_after (hseam.left hne) .start
      rw [Token.placed, hnext]
      rw [← Place.offset_after u] at hlocation hstart ⊢
      rw [← Place.offset_after] at hstop htail
      refine .cons (t := ⟨x.kind, (Place.start.after u).to (Place.start.after (u ++ x.spelling))⟩)
        ?_ ?_ hstart hstop hlocation htail
      · exact first.kind_ne_endOfInput
      · show (Place.start.after u).offset < (Place.start.after (u ++ x.spelling)).offset
        rw [Place.offset_after, Place.offset_after, utf8Length_append]
        omega

/-! ## Sources that are refused -/

/-- A text is at fault where it begins, or behind a backslash or a backtick. -/
theorem Lexeme.Refuses.point {text : List Char} {cause : LexicalCause} {words : String}
    {before : Nat} (h : Refuses text cause words before) :
    before = 0 ∨ ∃ d, (text.take before).getLast? = some d ∧ d ≠ '\r' := by
  -- What stands up to a backslash behind the run of a string ends in the backslash.
  have slash (run rest : List Char) :
      (('"' :: (run ++ '\\' :: rest)).take (run.length + 2)).getLast? = some '\\' := by
    rw [show '"' :: (run ++ '\\' :: rest) = ('"' :: run ++ ['\\']) ++ rest by simp,
      List.take_left' (by simp), List.getLast?_concat]
  cases h with
  | unexpectedCharacter | unterminatedComment | unterminatedString | unterminatedName =>
      exact .inl rfl
  | @unterminatedEscape run hrun => exact .inr ⟨'\\', slash run [], by decide⟩
  | @invalidEscape run c rest hrun hc => exact .inr ⟨'\\', slash run (c :: rest), by decide⟩
  | expectedName hrest => exact .inr ⟨'\x60', rfl, by decide⟩

/-- The faulty point of a refused text is at a seam, and reading leads there. -/
theorem Lexeme.Refuses.isSeam {u text : List Char} {cause : LexicalCause} {words : String}
    {before : Nat} (h : Refuses text cause words before) (hseam : IsSeam u text) :
    IsSeam (u ++ text.take before) (text.drop before) ∧
      (Place.start.after u).location.after (text.take before) =
        (Place.start.after (u ++ text.take before)).location := by
  rcases h.point with rfl | ⟨d, hlast, hd⟩
  · rw [List.take_zero, List.drop_zero, List.append_nil]
    exact ⟨hseam, rfl⟩
  · have hne : text.take before ≠ [] := by
      rintro hnil
      rw [hnil] at hlast
      cases hlast
    constructor
    · rw [← List.append_nil u, isSeam_append hne, IsSeam, hlast]
      exact fun hreturn => absurd (Option.some.inj hreturn) hd
    · rw [← List.take_append_drop before text] at hseam
      rw [← Place.after_after (hseam.left hne)]
      rfl

/-- Lexemes that come off the front of a text lead to a seam. -/
theorem SplitsOff.isSeam {text rest : List Char} {xs : List Lexeme} (h : SplitsOff text xs rest) :
    ∀ u, IsSeam u text → IsSeam (u ++ spelled xs) rest ∧
      (Place.start.after u).behind xs = Place.start.after (u ++ spelled xs) := by
  induction h with
  | nil rest =>
      intro u hseam
      rw [spelled_nil, List.append_nil]
      exact ⟨hseam, rfl⟩
  | @cons c text tail rest x xs first hspelled further ih =>
      intro u hseam
      have hne := Lexeme.spelling_ne_nil_of_first (Lexeme.first_eq_ok_iff.2 first)
      rw [hspelled] at hseam
      obtain ⟨hrest, hbehind⟩ := ih (u ++ x.spelling) (.behind_lexeme first hspelled)
      rw [List.append_assoc, ← spelled_cons] at hrest hbehind
      refine ⟨hrest, ?_⟩
      rw [← hbehind, ← Place.after_after (hseam.left hne)]
      rfl

/-- The location of a refused rest's faulty point is the one that the source gives it. -/
theorem location_of_refuses {source : String} {xs : List Lexeme} {rest : List Char}
    {cause : LexicalCause} {words : String} {before : Nat} (h : SplitsOff source.toList xs rest)
    (hrest : Lexeme.Refuses rest cause words before) :
    (Place.start.behind xs).location.after (rest.take before) =
      .ofOffset source.toList (utf8Length (spelled xs ++ rest.take before)) := by
  obtain ⟨hseam, hbehind⟩ := h.isSeam [] nofun
  obtain ⟨hpoint, hlocation⟩ := hrest.isSeam hseam
  have hsource : source.toList = spelled xs ++ rest.take before ++ rest.drop before := by
    rw [h.text_eq, List.append_assoc, List.take_append_drop]
  rw [← Place.location_after hsource hpoint]
  exact (congrArg (fun p => p.location.after (rest.take before)) hbehind).trans hlocation

/-- **The faulty point of a source** is at a seam of it, and the error is located there. -/
theorem exists_seam_of_scan {source : String} {text : List Char} {e : LexicalError} :
    ∀ u, source.toList = u ++ text → IsSeam u text →
      Token.scan (Place.start.after u) [] text = .error e →
      ∃ v rest, source.toList = v ++ rest ∧ IsSeam v rest ∧
        e.location = (Place.start.after v).location := by
  intro u hu hseam h
  obtain ⟨xs, rest, before, hsplits, hrest, hlocation⟩ := Token.scan_eq_error_iff.1 h
  obtain ⟨hfront, hbehind⟩ := hsplits.isSeam u hseam
  obtain ⟨hpoint, hplace⟩ := hrest.isSeam hfront
  refine ⟨u ++ spelled xs ++ rest.take before, rest.drop before, ?_, hpoint, ?_⟩
  · rw [hu, hsplits.text_eq, List.append_assoc, List.append_assoc, List.take_append_drop]
  · rw [hlocation, hbehind, hplace]

/-! ## Sources -/

/-- **Tokens tile their source.**  Whatever the source is, either its tokens tile it from the first
byte on, or it is refused at a place where a character starts or the source ends; each token and
the error are located where the source says. -/
theorem tokenize_tiles (source : String) :
    (∃ tokens, Token.tokenize source = .ok tokens ∧ Tiles source 0 tokens) ∨
      ∃ e offset, Token.tokenize source = .error e ∧
        String.Pos.Raw.IsValid source ⟨offset⟩ ∧
        e.location = .ofOffset source.toList offset := by
  have hseam : IsSeam [] source.toList := nofun
  have hstart : Token.tokenize source = Token.scan (Place.start.after []) [] source.toList := rfl
  cases h : Token.tokenize source with
  | ok tokens =>
      obtain ⟨xs, hsplits, rfl⟩ := Token.tokenize_eq_ok_iff.1 h
      exact .inl ⟨_, rfl, tiles_placed hsplits [] rfl hseam⟩
  | error e =>
      obtain ⟨v, rest, hsource, hv, he⟩ := exists_seam_of_scan [] rfl hseam (hstart ▸ h)
      refine .inr ⟨e, utf8Length v, rfl, isValid_utf8Length hsource, ?_⟩
      rw [he, Place.location_after hsource hv]

/-- Bytes are more than characters in the first token, and the second ends a line. -/
theorem tokenize_tiles_lines :
    let source := "\"é\t\"\r\nb"
    let tokens : List Token := [⟨.literal (.string "é\t"), ⟨0, 5, ⟨1, 1⟩⟩⟩,
      ⟨.whitespace "\r\n", ⟨5, 7, ⟨1, 5⟩⟩⟩, ⟨.identifier (.plain "b"), ⟨7, 8, ⟨2, 1⟩⟩⟩,
      ⟨.endOfInput, ⟨8, 8, ⟨2, 2⟩⟩⟩]
    Token.tokenize source = .ok tokens ∧ Tiles source 0 tokens := by
  intro source tokens
  have htokens : Token.tokenize source = .ok tokens := by cbv
  refine ⟨htokens, ?_⟩
  rcases tokenize_tiles source with ⟨_, h, htiles⟩ | ⟨e, _, h, -⟩
  · cases htokens.symm.trans h
    exact htiles
  · cases htokens.symm.trans h

/-- **Rejection is exact.**  A source is refused exactly if lexemes come off its front, which by
itself is accepted as their tokens, and what is left is refused: for the one cause of the error and
no other, in the words of its message, at a point whose location in the source is the error's. -/
theorem tokenize_eq_error_iff {source : String} {e : LexicalError} :
    Token.tokenize source = .error e ↔
      ∃ xs rest before, SplitsOff source.toList xs rest ∧
        source.toList = spelled xs ++ rest ∧ rest ≠ [] ∧
        Token.tokenize (String.ofList (spelled xs)) = .ok (Token.placed .start xs) ∧
        Lexeme.Refuses rest e.cause e.message before ∧
        (∀ cause' words' before', Lexeme.Refuses rest cause' words' before' →
          cause' = e.cause ∧ words' = e.message ∧ before' = before) ∧
        e.location = .ofOffset source.toList (utf8Length (spelled xs ++ rest.take before)) := by
  constructor
  · intro h
    obtain ⟨xs, rest, before, hsplits, hrest, hlocation⟩ := Token.scan_eq_error_iff.1 h
    have haccepted : Token.tokenize (String.ofList (spelled xs)) = .ok (Token.placed .start xs) :=
      Token.tokenize_eq_ok_iff.2 ⟨xs, by rw [String.toList_ofList]; exact hsplits.splits, rfl⟩
    refine ⟨xs, rest, before, hsplits, hsplits.text_eq, ?_, haccepted, hrest, ?_, ?_⟩
    · rintro rfl
      cases hrest
    · exact fun cause' words' before' h' => hrest.unique h'
    · rw [hlocation, location_of_refuses hsplits hrest]
  · rintro ⟨xs, rest, before, hsplits, -, -, -, hrest, -, hlocation⟩
    refine Token.scan_eq_error_iff.2 ⟨xs, rest, before, hsplits, hrest, ?_⟩
    rw [hlocation, location_of_refuses hsplits hrest]

end ExprFront
