/-
# Nodes printed on one line

Trivia are not kept in nodes.  What is printed has single spaces where some are needed, strings
write their tabs and line breaks as escapes, and nothing else can hold any.  So the text of a node
is one line without tabs, and it ends with no trivia.

The main fact is `Entry.Prints.parseSource_line`: what an accepted source is printed as is one line
that is read as the same node, with or without a line break behind it.
-/
import ExprFront.Proofs.RoundTrip.Expression
import ExprFront.Proofs.RoundTrip.Pattern
import ExprFront.Proofs.Session.Composition
import ExprFront.Proofs.Grammar.Trivia

namespace ExprFront

open Spelling

/-! ## Texts on one line -/

/-- The only blanks in the text are spaces. -/
def OnOneLine (text : List Char) : Prop := ∀ c ∈ text, isBlank c = true → c = ' '

-- The characters of the text are tested, not all that there are.
instance (text : List Char) : Decidable (OnOneLine text) :=
  List.decidableBAll (fun c => isBlank c = true → c = ' ') text

/-- A text without blanks is on one line. -/
theorem onOneLine_of_isBlank {text : List Char} (h : ∀ c ∈ text, isBlank c = false) :
    OnOneLine text := by
  intro c hc hblank
  rw [h c hc] at hblank
  cases hblank

/-- The same, as a test of the characters. -/
theorem onOneLine_of_all {text : List Char} (h : (text.all fun c => !isBlank c) = true) :
    OnOneLine text := by
  refine onOneLine_of_isBlank fun c hc => ?_
  simpa using List.all_eq_true.1 h c hc

/-- Texts on one line are on one line together. -/
theorem OnOneLine.append {s t : List Char} (hs : OnOneLine s) (ht : OnOneLine t) :
    OnOneLine (s ++ t) := by
  intro c hc
  rcases List.mem_append.1 hc with hc | hc
  · exact hs c hc
  · exact ht c hc

/-- On one line there are no line breaks and no tabs. -/
theorem OnOneLine.notMem {text : List Char} (h : OnOneLine text) :
    '\n' ∉ text ∧ '\r' ∉ text ∧ '\t' ∉ text := by
  refine ⟨fun hmem => ?_, fun hmem => ?_, fun hmem => ?_⟩
  · exact absurd (h '\n' hmem rfl) (by decide)
  · exact absurd (h '\r' hmem rfl) (by decide)
  · exact absurd (h '\t' hmem rfl) (by decide)

/-- What may stand in a word is no blank. -/
theorem isBlank_eq_false_of_continuesWord {c : Char} (h : continuesWord c = true) :
    isBlank c = false := by
  rw [← Bool.not_eq_true]
  intro hblank
  have hspecial : isSpecial c = true := by simp [isSpecial, hblank]
  rw [isSpecial_eq_false_of_continuesWord h] at hspecial
  cases hspecial

/-- A word is on one line. -/
theorem Spelling.IsWord.onOneLine {text : List Char} (h : IsWord text) : OnOneLine text :=
  onOneLine_of_isBlank fun c hc => isBlank_eq_false_of_continuesWord (h.continues c hc)

/-- A numeral is on one line. -/
theorem Spelling.IsNumeral.onOneLine {text : List Char} (h : IsNumeral text) : OnOneLine text := by
  refine onOneLine_of_isBlank fun c hc => isBlank_eq_false_of_continuesWord ?_
  have hchar := h.chars c hc
  simp only [isNumberChar, Bool.or_eq_true] at hchar
  rcases hchar with hdigit | hunderscore
  · exact continuesWord_of_isDigit hdigit
  · simp [continuesWord, hunderscore]

/-- A character that needs no escape is no blank but a space. -/
theorem Quoted.eq_space_of_letter?_eq_none {c : Char} (h : letter? c = none)
    (hblank : isBlank c = true) : c = ' ' := by
  simp only [isBlank, Bool.or_eq_true, beq_iff_eq, or_assoc] at hblank
  rcases hblank with rfl | rfl | rfl | rfl
  · rfl
  all_goals cases h

/-- No letter of an escape is a blank. -/
theorem Quoted.isBlank_eq_false_of_letter? {v l : Char} (h : letter? v = some l) :
    isBlank l = false := by
  unfold letter? at h
  split at h <;> cases h <;> rfl

/-- What is written between quotes is on one line, whatever the value is. -/
theorem Quoted.onOneLine_encode (value : List Char) : OnOneLine (encode value) := by
  induction value with
  | nil => nofun
  | cons v value ih =>
      rw [encode_cons]
      refine OnOneLine.append ?_ ih
      unfold encodeChar
      split
      · next l hl =>
          refine onOneLine_of_isBlank fun c hc => ?_
          rcases List.mem_pair.1 hc with rfl | rfl
          · rfl
          · exact isBlank_eq_false_of_letter? hl
      · next hnone =>
          intro c hc hblank
          obtain rfl := List.mem_singleton.1 hc
          exact eq_space_of_letter?_eq_none hnone hblank

/-! ## Kinds on one line -/

/-- A valid literal is on one line. -/
theorem Literal.onOneLine_text {value : Literal} (h : value.Valid) :
    OnOneLine value.text.toList := by
  cases value with
  | integer text => exact IsNumeral.onOneLine h
  | floating text =>
      obtain ⟨whole, part, htext, hwhole, hpart⟩ := h
      have hpoint : OnOneLine ['.'] := onOneLine_of_all rfl
      rw [Literal.text, htext]
      exact hwhole.onOneLine.append (hpoint.append hpart.onOneLine)
  | string value =>
      rw [Literal.text, String.toList_ofList]
      have hquote : OnOneLine ['"'] := onOneLine_of_all rfl
      exact hquote.append ((Quoted.onOneLine_encode value.toList).append hquote)
  | boolean value => cases value <;> exact onOneLine_of_all rfl
  | nil => exact onOneLine_of_all rfl

/-- A valid name is on one line, between backticks or not. -/
theorem Identifier.onOneLine_text {i : Identifier} (h : i.Valid) : OnOneLine i.text.toList := by
  have hname : OnOneLine i.name.toList := h.1.onOneLine
  have hbacktick : OnOneLine ['`'] := onOneLine_of_all rfl
  unfold text
  split
  · rw [String.toList_append, String.toList_append]
    exact (hbacktick.append hname).append hbacktick
  · exact hname

/-- **Every valid kind is on one line unless it is trivia.** -/
theorem Kind.onOneLine_text {k : Kind} (hvalid : k.Valid) (htrivia : k.isTrivia = false) :
    OnOneLine k.text.toList := by
  cases k with
  | identifier name => exact Identifier.onOneLine_text hvalid
  | keyword word => exact word.isWord_spelling.onOneLine
  | literal value => exact Literal.onOneLine_text hvalid
  | operator text =>
      exact onOneLine_of_isBlank fun c hc =>
        isBlank_eq_false_of_isOperatorChar (hvalid.1.chars c hc)
  | punctuator mark => cases mark <;> exact onOneLine_of_all rfl
  | whitespace text => cases htrivia
  | comment text => cases htrivia
  | endOfInput => exact onOneLine_of_all rfl

/-! ## Lines -/

/-- The only trivia among the kinds are single spaces. -/
def OnlySpaces (w : List Kind) : Prop := ∀ k ∈ w, k.isTrivia = true → k = .space

/-- The kinds make one line: they are spaced, the only trivia among them are spaces, and none are at
the end. -/
structure IsLine (w : List Kind) : Prop where
  spaced : Spaced w
  eq_space : OnlySpaces w
  getLast : ∀ k ∈ w.getLast?, k.isTrivia = false

/-- Spaced kinds are valid. -/
theorem Spaced.valid {w : List Kind} (h : Spaced w) : ∀ k ∈ w, k.Valid := by
  induction w with
  | nil => nofun
  | cons k w ih =>
      obtain ⟨hvalid, -, -, htail⟩ := h
      intro m hm
      rcases List.mem_cons.1 hm with rfl | hm
      · exact hvalid
      · exact ih htail m hm

/-- The text of a line is on one line. -/
theorem IsLine.onOneLine {w : List Kind} (h : IsLine w) :
    OnOneLine (w.flatMap (·.text.toList)) := by
  intro c hc hblank
  obtain ⟨k, hk, hck⟩ := List.mem_flatMap.1 hc
  by_cases htrivia : k.isTrivia = true
  · rw [h.eq_space k hk htrivia] at hck
    exact List.mem_singleton.1 hck
  · exact Kind.onOneLine_text (h.spaced.valid k hk) (Bool.eq_false_iff.2 htrivia) c hck hblank

/-- Whitespace may stand behind whatever is no trivia. -/
theorem Kind.leadsTo_whitespace {k : Kind} (hk : k.isTrivia = false) (text : String)
    (rest : List Kind) : k.LeadsTo (.whitespace text :: rest) := by
  refine ⟨fun next hnext => ?_, fun _ m tail htail => ?_⟩
  · obtain rfl : Kind.whitespace text = next := by simpa using hnext
    refine ⟨fun _ => ⟨nofun, nofun⟩, fun _ => ⟨nofun, nofun⟩, fun _ => ⟨nofun, fun _ => nofun⟩,
      fun hspace => ?_, fun hline => ?_⟩
    · exact absurd hspace (Kind.category_ne_whitespace hk)
    · exact absurd (Kind.category_of_isLineComment hline) (Kind.category_ne_comment hk)
  · cases htail

/-- A line break may stand behind a line. -/
theorem IsLine.append_lineBreak {w : List Kind} (h : IsLine w) :
    Spaced (w ++ [.whitespace "\n"]) := by
  have hbreak : Spaced [.whitespace "\n"] := by
    refine ⟨⟨by decide, by simp [isBlank]⟩, nofun, ?_, trivial⟩
    refine ⟨fun next hnext => ?_, fun hinteger => absurd hinteger (by decide)⟩
    obtain rfl : Kind.endOfInput = next := by simpa using hnext
    exact compatible_endOfInput _
  refine h.spaced.append hbreak (fun k hk => ?_) (by simp [Kind.category])
  exact Kind.leadsTo_whitespace (h.getLast k hk) _ _

/-! ## Printed nodes -/

/-- Without kinds there are no trivia. -/
theorem onlySpaces_nil : OnlySpaces [] := nofun

/-- What is no trivia may be put in front. -/
theorem OnlySpaces.cons {k : Kind} {w : List Kind} (hk : k.isTrivia = false) (hw : OnlySpaces w) :
    OnlySpaces (k :: w) := by
  intro m hm htrivia
  rcases List.mem_cons.1 hm with rfl | hm
  · rw [hk] at htrivia
    cases htrivia
  · exact hw m hm htrivia

/-- A space may be put in front. -/
theorem OnlySpaces.space {w : List Kind} (hw : OnlySpaces w) : OnlySpaces (.space :: w) := by
  intro m hm htrivia
  rcases List.mem_cons.1 hm with rfl | hm
  · rfl
  · exact hw m hm htrivia

mutual

/-- An expression is printed without trivia but spaces. -/
theorem Expression.onlySpaces_emit (e : Expression) {tail : List Kind} (h : OnlySpaces tail) :
    OnlySpaces (e.emit tail) := by
  cases e with
  | inOut name => exact .cons rfl (.cons rfl h)
  | prefixed operator operand => exact .cons rfl (operand.onlySpaces_emit h)
  | plain operand => exact operand.onlySpaces_emit h

/-- An operand is printed without trivia but spaces. -/
theorem Operand.onlySpaces_emit (o : Operand) {tail : List Kind} (h : OnlySpaces tail) :
    OnlySpaces (o.emit tail) := by
  cases o with
  | name name => exact .cons rfl h
  | literal value => exact .cons rfl h
  | parenthesized inner => exact .cons rfl (inner.onlySpaces_emit (.cons rfl h))
  | call callee arguments =>
      refine callee.onlySpaces_emit (.cons rfl ?_)
      exact Expression.onlySpaces_emitList arguments (.cons rfl h)
  | member base name => exact base.onlySpaces_emit (.cons rfl (.cons rfl h))
  | postfixed operand operator => exact operand.onlySpaces_emit (.cons rfl h)

/-- A list is printed without trivia but spaces. -/
theorem Expression.onlySpaces_emitList (es : List Expression) {tail : List Kind}
    (h : OnlySpaces tail) : OnlySpaces (Expression.emitList es tail) := by
  cases es with
  | nil => exact h
  | cons e rest => exact e.onlySpaces_emit (Expression.onlySpaces_emitMore rest h)

/-- Further members are printed with a space behind each comma. -/
theorem Expression.onlySpaces_emitMore (es : List Expression) {tail : List Kind}
    (h : OnlySpaces tail) : OnlySpaces (Expression.emitMore es tail) := by
  cases es with
  | nil => exact h
  | cons e rest =>
      exact .cons rfl (.space (e.onlySpaces_emit (Expression.onlySpaces_emitMore rest h)))

end

/-- Where a kind is printed, trivia are scanned just if the kind is trivia. -/
theorem Kind.isTrivia_reread (k : Kind) : k.reread.isTrivia = k.isTrivia := by
  cases k with
  | identifier i =>
      show i.kind.isTrivia = false
      unfold Identifier.kind Kind.ofWord
      repeat' split
      all_goals rfl
  | _ => rfl

/-- Kinds are scanned without trivia but spaces where they are printed without others. -/
theorem OnlySpaces.reread {w : List Kind} (h : OnlySpaces w) :
    OnlySpaces (w.map Kind.reread) := by
  intro m hm htrivia
  obtain ⟨k, hk, rfl⟩ := List.mem_map.1 hm
  rw [Kind.isTrivia_reread] at htrivia
  rw [h k hk htrivia]
  rfl

/-- A printed expression does not end with trivia. -/
theorem Expression.getLast_emit {e : Expression} (h : e.WellFormed) :
    ∀ k ∈ ((e.emit []).map Kind.reread).getLast?, k.isTrivia = false := by
  intro k hk
  cases e with
  | inOut name =>
      obtain rfl : (Kind.identifier name).reread = k := by simpa [Expression.emit] using hk
      exact Kind.isTrivia_reread (.identifier name)
  | prefixed operator operand =>
      have hw := operand.derives_emit h.2
      rw [Expression.emit, List.map_cons, List.getLast?_cons_of_ne_nil hw.ne_nil] at hk
      exact (hw.getLast_operand k hk).1
  | plain operand => exact ((operand.derives_emit h).getLast_operand k hk).1

/-- A printed list does not end with trivia. -/
theorem Expression.getLast_emitList {es : List Expression} (hne : es ≠ [])
    (h : AllWellFormed es) :
    ∀ k ∈ ((emitList es []).map Kind.reread).getLast?, k.isTrivia = false := by
  induction es with
  | nil => exact absurd rfl hne
  | cons e rest ih =>
      by_cases hrest : rest = []
      · subst hrest
        exact Expression.getLast_emit h.1
      · -- The last kind is that of the further members.
        have hw := Expression.derives_emitList rest h.2 hrest
        have hmore : (emitList (e :: rest) []).map Kind.reread =
            (e.emit []).map Kind.reread ++
              .punctuator .comma :: .space :: (emitList rest []).map Kind.reread := by
          rw [emitList, e.map_reread_emit, emitMore_eq hrest]
          rfl
        rw [hmore, List.getLast?_append_of_ne_nil _ (by simp), List.getLast?_cons_cons,
          List.getLast?_cons_of_ne_nil hw.ne_nil]
        exact ih hrest h.2

/-- **A well-formed expression is printed as a line.** -/
theorem Expression.isLine_emit {e : Expression} (h : e.WellFormed) :
    IsLine ((e.emit []).map Kind.reread) where
  spaced := e.spaced_emit h [] trivial (canFollow_end true)
  eq_space := (e.onlySpaces_emit onlySpaces_nil).reread
  getLast := Expression.getLast_emit h

/-- **A list of well-formed expressions is printed as a line.** -/
theorem Expression.isLine_emitList {es : List Expression} (hne : es ≠ [])
    (h : AllWellFormed es) : IsLine ((emitList es []).map Kind.reread) where
  spaced := Expression.spaced_emitList es h [] trivial (canFollow_end true)
  eq_space := (Expression.onlySpaces_emitList es onlySpaces_nil).reread
  getLast := Expression.getLast_emitList hne h

/-- There are no trivia in a type. -/
theorem DerivesType.isTrivia_eq_false {w : List Kind} {t : TypeExpr} (h : DerivesType w t) :
    ∀ k ∈ w, k.isTrivia = false := by
  have hsignificant := h.significant_eq
  rw [Kind.significant, List.filter_eq_self] at hsignificant
  intro k hk
  simpa using hsignificant k hk

/-- **A well-formed pattern is printed as a line.** -/
theorem Pattern.isLine_spell {p : Pattern} (h : p.WellFormed) :
    IsLine (p.name.kind :: p.spellAscription) := by
  have hname := Kind.isTrivia_eq_false_of_name? h.1.name?_kind
  have hspaced := p.spaced_spell h
  obtain ⟨name, _ | ⟨t, isInout⟩⟩ := p
  · refine ⟨hspaced, .cons hname onlySpaces_nil, fun k hk => ?_⟩
    obtain rfl : name.kind = k := by simpa [Pattern.spellAscription] using hk
    exact hname
  · have htype := t.derives_spell 0
    have honly : OnlySpaces (t.spell 0 []) := fun k hk htrivia => by
      rw [htype.isTrivia_eq_false k hk] at htrivia
      cases htrivia
    -- Whatever stands before the type, the last kind is one of the type.
    have hlast (front : List Kind) :
        ∀ k ∈ (front ++ t.spell 0 []).getLast?, k.isTrivia = false := by
      intro k hk
      obtain ⟨m, rest, hspell, -⟩ := htype.exists_cons
      rw [List.getLast?_append_of_ne_nil _ (by rw [hspell]; simp)] at hk
      exact htype.isTrivia_eq_false k (List.mem_of_getLast? hk)
    cases isInout with
    | false =>
        exact ⟨hspaced, .cons hname (.cons rfl (.space honly)),
          hlast [name.kind, .punctuator .colon, .space]⟩
    | true =>
        exact ⟨hspaced, .cons hname (.cons rfl (.space (.cons rfl (.space honly)))),
          hlast [name.kind, .punctuator .colon, .space, .keyword (.reserved .kwInout), .space]⟩

/-! ## Reading lines -/

/-- The entry prints what it reads: as a line that its language has for the value. -/
structure Entry.Prints {α : Type} (entry : Entry α) (language : List Kind → α → Prop)
    (text : α → String) : Prop where
  reads : entry.Reads language
  exists_line : ∀ source v, entry.parseSource source = .ok v →
    ∃ w, IsLine w ∧ language w v ∧ (text v).toList = w.flatMap (·.text.toList)

namespace Entry

/-- **What an accepted source is printed as is one line**, and it is read as the same node, with or
without a line break behind it. -/
theorem Prints.parseSource_line {α : Type} {entry : Entry α} {language : List Kind → α → Prop}
    {text : α → String} (h : entry.Prints language text) {source : String} {v : α}
    (hv : entry.parseSource source = .ok v) :
    OnOneLine (text v).toList ∧ entry.parseSource (text v) = .ok v ∧
      entry.parseSource (text v ++ "\n") = .ok v := by
  obtain ⟨w, hline, hw, htext⟩ := h.exists_line source v hv
  have hsplits : SplitsInto (text v).toList w := .of_spaced hline.spaced htext
  have hbroken : SplitsInto (text v ++ "\n").toList (w ++ [.whitespace "\n"]) := by
    refine .of_spaced hline.append_lineBreak ?_
    rw [String.toList_append, htext, List.flatMap_append, List.flatMap_singleton]
    rfl
  have hbreak : ∀ k ∈ [Kind.whitespace "\n"], k.isTrivia = true := by simp [Kind.isTrivia]
  have hnone : ∀ k ∈ ([] : List Kind), k.isTrivia = true := List.forall_mem_nil _
  refine ⟨?_, ?_, ?_⟩
  · rw [htext]
    exact hline.onOneLine
  · exact h.reads.parseSource_eq_ok_iff.2 ⟨w, hsplits, [], w, [], by simp, hnone, hnone, hw⟩
  · exact h.reads.parseSource_eq_ok_iff.2 ⟨_, hbroken, [], w, _, rfl, hnone, hbreak, hw⟩

/-- The entry for expressions prints what it reads. -/
theorem prints_expression :
    Entry.expression.Prints (fun w e => Derives w (.expression e)) Expression.text where
  reads := reads_expression
  exists_line source e he := by
    have h := Expression.wellFormed_of_parseSource he
    exact ⟨_, Expression.isLine_emit h, e.derives_emit h, Kind.toList_textOf_reread _⟩

/-- The entry for lists prints what it reads. -/
theorem prints_expressionList :
    Entry.expressionList.Prints (fun w es => Derives w (.members es)) Expression.textList where
  reads := reads_expressionList
  exists_line source es hes := by
    obtain ⟨hne, h⟩ := Expression.allWellFormed_of_parseSource hes
    exact ⟨_, Expression.isLine_emitList hne h, Expression.derives_emitList es h hne,
      Kind.toList_textOf_reread _⟩

/-- The entry for patterns prints what it reads. -/
theorem prints_pattern : Entry.pattern.Prints DerivesPattern Pattern.text where
  reads := reads_pattern
  exists_line source p hp := by
    have h := Pattern.wellFormed_of_parseSource hp
    exact ⟨_, Pattern.isLine_spell h, p.derives_spell h, p.toList_text⟩

end Entry

end ExprFront
