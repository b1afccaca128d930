/-
# Patterns that survive printing

The printer writes one mark for each optional type, and the scanner reads a run of them as one
token.  `TypeExpr.spell` lists the kinds that are scanned where a type is printed, with the marks
behind it gathered.  A pattern is read back if it is well formed, and only such patterns are read.
-/
import ExprFront.Proofs.Grammar.PatternLanguage
import ExprFront.Proofs.RoundTrip.Rereading
import ExprFront.Proofs.Session.Source

namespace ExprFront

open Spelling

/-! ## Nodes -/

/-- Every name in the type is valid as a token: a plain one is no keyword at all. -/
def TypeExpr.WellFormed : TypeExpr → Prop
  | .named name => name.Valid
  | .array element => element.WellFormed
  | .optional wrapped => wrapped.WellFormed

/-- The name of the pattern is well formed, and so is its type, if it has one. -/
def Pattern.WellFormed (p : Pattern) : Prop :=
  p.name.WellFormed ∧ ∀ a ∈ p.ascription, a.type.WellFormed

/-- Marks of optionality bring no names. -/
theorem TypeExpr.wellFormed_optionals {t : TypeExpr} {n : Nat} :
    (t.optionals n).WellFormed ↔ t.WellFormed := by
  induction n generalizing t with
  | zero => rfl
  | succ n ih => exact ih

/-- A type that is derived from legible kinds is well formed. -/
theorem DerivesType.wellFormed {w : List Kind} {t : TypeExpr} (h : DerivesType w t)
    (hw : Legible w) : t.WellFormed := by
  induction h with
  | named name => exact hw.head
  | array element ih => exact ih hw.left.tail
  | marked mark wrapped ih => exact TypeExpr.wellFormed_optionals.2 (ih hw.left)

/-- **A pattern that is derived from legible kinds is well formed.** -/
theorem DerivesPattern.wellFormed {w : List Kind} {p : Pattern} (h : DerivesPattern w p)
    (hw : Legible w) : p.WellFormed := by
  cases h with
  | bare hname => exact ⟨Kind.wellFormed_of_name? hw.head hname, nofun⟩
  | ascribed hname ascription =>
      refine ⟨Kind.wellFormed_of_name? hw.head hname, fun a ha => ?_⟩
      cases ha
      cases ascription with
      | plain htrivia type => exact type.wellFormed hw.tail.tail.right
      | inout htrivia htrivia' type => exact type.wellFormed hw.tail.tail.right.tail.right

/-! ## Kinds of a printed type -/

/-- The kind that is scanned where `n + 1` marks of optionality are printed. -/
def Kind.marks (n : Nat) : Kind := .ofOperatorRun (List.replicate (n + 1) '?')

/-- The kinds that are scanned where `n` marks are printed, in front of `tail`. -/
def TypeExpr.spellMarks : Nat → List Kind → List Kind
  | 0, tail => tail
  | n + 1, tail => .marks n :: tail

/-- The kinds that are scanned where a type and `n` further marks are printed, in front
of `tail`. -/
def TypeExpr.spell : TypeExpr → Nat → List Kind → List Kind
  | .named name, n, tail => .identifier name :: spellMarks n tail
  | .array element, n, tail =>
      .punctuator .leftBracket :: element.spell 0 (.punctuator .rightBracket :: spellMarks n tail)
  | .optional wrapped, n, tail => wrapped.spell (n + 1) tail

/-- Question marks are a run of operator characters. -/
theorem isOperatorRun_replicate (n : Nat) :
    IsOperatorRun (List.replicate (n + 1) '?') := by
  have slash_notMem {s : List Char} (h : '/' ∈ s) : ¬ s <:+: List.replicate (n + 1) '?' :=
    fun hsub => absurd (List.eq_of_mem_replicate (hsub.subset h)) (by decide)
  refine ⟨by simp, ?_, slash_notMem (by simp), slash_notMem (by simp)⟩
  intro c hc
  rw [List.eq_of_mem_replicate hc]
  decide

/-- A run of question marks is scanned as a mark of so many. -/
theorem Kind.isMark_marks (n : Nat) : IsMark (Kind.marks n) (n + 1) := by
  cases n with
  | zero => exact .question
  | succ n =>
      -- Two marks or more are spelled like an operator.
      have hnone : Punctuator.ofOperatorRun? (List.replicate (n + 1 + 1) '?') = none := rfl
      rw [Kind.marks, Kind.ofOperatorRun, hnone]
      have hmark : IsMark (.operator (String.ofList (List.replicate (n + 1 + 1) '?'))) _ :=
        .operator (by simp)
      simpa using hmark

namespace TypeExpr

/-- Marks are scanned from as many question marks. -/
theorem flatMap_text_spellMarks (n : Nat) (tail : List Kind) :
    (spellMarks n tail).flatMap (·.text.toList) =
      List.replicate n '?' ++ tail.flatMap (·.text.toList) := by
  cases n with
  | zero => rfl
  | succ n => rw [spellMarks, List.flatMap_cons, Kind.marks, Kind.text_ofOperatorRun]

/-- The kinds that are scanned have the text that is printed. -/
theorem flatMap_text_spell (t : TypeExpr) (n : Nat) (tail : List Kind) :
    (t.spell n tail).flatMap (·.text.toList) =
      (t.emit []).flatMap (·.text.toList) ++
        (List.replicate n '?' ++ tail.flatMap (·.text.toList)) := by
  induction t generalizing n tail with
  | named name => simp [spell, emit, flatMap_text_spellMarks]
  | array element ih =>
      have hemit := element.emit_append [] [.punctuator .rightBracket]
      rw [List.nil_append] at hemit
      simp [spell, emit, hemit, ih, flatMap_text_spellMarks]
  | optional wrapped ih =>
      -- The mark of this type is printed first and becomes the first of the gathered ones.
      have hemit := wrapped.emit_append [] [.punctuator .question]
      have hquestion : (Kind.punctuator .question).text.toList = ['?'] := rfl
      rw [List.nil_append] at hemit
      simp [spell, emit, hemit, ih, hquestion, List.replicate_succ]

/-- Marks behind what stands for a type make it optional so many times. -/
theorem derives_spellMarks {w : List Kind} {t : TypeExpr} (h : DerivesType w t) (n : Nat) :
    DerivesType (w ++ spellMarks n []) (t.optionals n) := by
  cases n with
  | zero => rwa [spellMarks, List.append_nil]
  | succ n => exact .marked (Kind.isMark_marks n) h

/-- What follows marks is left as it is. -/
theorem spellMarks_append (n : Nat) (u v : List Kind) :
    spellMarks n (u ++ v) = spellMarks n u ++ v := by
  cases n <;> rfl

/-- What follows a type is left as it is. -/
theorem spell_append (t : TypeExpr) (n : Nat) (u v : List Kind) :
    t.spell n (u ++ v) = t.spell n u ++ v := by
  induction t generalizing n u with
  | named name => simp [spell, spellMarks_append]
  | array element ih => simp [spell, spellMarks_append, ← ih]
  | optional wrapped ih => exact ih (n + 1) u

/-- **What is scanned where a type is printed stands for that type**, with the marks behind it. -/
theorem derives_spell (t : TypeExpr) (n : Nat) : DerivesType (t.spell n []) (t.optionals n) := by
  induction t generalizing n with
  | named name => exact derives_spellMarks (.named name) n
  | array element ih =>
      have hw := derives_spellMarks (.array (ih 0)) n
      rw [spell, ← List.nil_append (.punctuator .rightBracket :: spellMarks n []), spell_append]
      simpa [optionals] using hw
  | optional wrapped ih => exact ih (n + 1)

/-- Marks may stand in front of spaced kinds that may follow an operand, and they may follow
one. -/
theorem spaced_spellMarks (n : Nat) {tail : List Kind} (htail : Spaced tail)
    (hfollow : CanFollow true (tail ++ [.endOfInput])) :
    Spaced (spellMarks n tail) ∧ CanFollow false (spellMarks n tail ++ [.endOfInput]) := by
  cases n with
  | zero => exact ⟨htail, hfollow.weaken false⟩
  | succ n =>
      obtain ⟨hvalid, hcategory⟩ := Kind.valid_ofOperatorRun (isOperatorRun_replicate n)
      refine ⟨⟨hvalid, ?_, ?_, htail⟩, _, _, rfl, .inr (.inr ⟨hcategory, rfl⟩), ?_⟩
      · intro hend
        rw [Kind.marks] at hend
        rw [hend] at hcategory
        cases hcategory
      · refine Kind.leadsTo_of_canFollow hfollow ?_ ?_ fun _ => rfl
        · rw [Kind.marks, hcategory]
          nofun
        · rw [Kind.marks, hcategory]
          nofun
      · intro hdot
        rw [Kind.marks] at hdot
        rw [hdot] at hcategory
        cases hcategory

/-- A well-formed type is scanned as spaced kinds, in front of kinds that may follow it. -/
theorem spaced_spell {t : TypeExpr} (h : t.WellFormed) (n : Nat) {tail : List Kind}
    (htail : Spaced tail) (hfollow : CanFollow true (tail ++ [.endOfInput])) :
    Spaced (t.spell n tail) := by
  induction t generalizing n tail with
  | named name =>
      obtain ⟨hmarks, hfollow'⟩ := spaced_spellMarks n htail hfollow
      refine ⟨h, nofun, Kind.leadsTo_of_canFollow hfollow' ?_ ?_ ?_, hmarks⟩
      all_goals
        obtain ⟨name, backticked⟩ := name
        cases backticked <;> nofun
  | array element ih =>
      obtain ⟨hmarks, -⟩ := spaced_spellMarks n htail hfollow
      refine spaced_cons_of_mark trivial rfl (ih h 0 ?_ ?_)
      · exact spaced_cons_of_mark trivial rfl hmarks
      · exact canFollow_of_mark rfl nofun
  | optional wrapped ih => exact ih h (n + 1) htail hfollow

end TypeExpr

/-! ## Kinds of a printed pattern -/

/-- The kinds that are scanned where an ascription is printed. -/
def Ascription.spell (a : Ascription) : List Kind :=
  .punctuator .colon :: .space ::
    if a.isInout then .keyword (.reserved .kwInout) :: .space :: a.type.spell 0 []
    else a.type.spell 0 []

/-- The kinds that are scanned behind the name of a printed pattern. -/
def Pattern.spellAscription (p : Pattern) : List Kind :=
  match p.ascription with
  | some a => a.spell
  | none => []

/-- The kinds that are scanned where a pattern is printed have its text. -/
theorem Pattern.toList_text (p : Pattern) :
    p.text.toList = (p.name.kind :: p.spellAscription).flatMap (·.text.toList) := by
  have htype (t : TypeExpr) : (t.emit []).flatMap (·.text.toList) =
      (t.spell 0 []).flatMap (·.text.toList) := by
    rw [t.flatMap_text_spell]
    simp
  rw [Pattern.text, Kind.toList_textOf, Pattern.emit, Pattern.spellAscription, List.flatMap_cons,
    List.flatMap_cons, p.name.text_kind]
  congr 1
  cases p.ascription with
  | none => rfl
  | some a =>
      simp only [Ascription.emit, Ascription.spell]
      split
      · simp [htype]
      · simp [htype]

/-- The kinds that are scanned where an ascription is printed stand for it. -/
theorem Ascription.derives_spell (a : Ascription) : DerivesAscription a.spell a := by
  obtain ⟨t, isInout⟩ := a
  have hspace : ∀ k ∈ [Kind.space], k.isTrivia = true := by simp [Kind.space, Kind.isTrivia]
  have htype := t.derives_spell 0
  cases isInout with
  | true => exact .inout hspace hspace htype
  | false => exact .plain hspace htype

/-- The kinds that are scanned where a well-formed pattern is printed stand for it. -/
theorem Pattern.derives_spell {p : Pattern} (h : p.WellFormed) :
    DerivesPattern (p.name.kind :: p.spellAscription) p := by
  obtain ⟨name, ascription⟩ := p
  cases ascription with
  | none => exact .bare h.1.name?_kind
  | some a => exact .ascribed h.1.name?_kind a.derives_spell

/-- A space may stand in front of a type and other spaced kinds that do not begin with
whitespace. -/
theorem spaced_cons_space {rest : List Kind} (h : Spaced rest)
    (hrest : ∀ next ∈ (rest ++ [Kind.endOfInput]).head?, next.category ≠ .whitespace) :
    Spaced (.space :: rest) :=
  ⟨Kind.valid_space, nofun, Kind.leadsTo_space hrest, h⟩

/-- The kinds that are scanned where a well-formed ascription is printed are spaced. -/
theorem Ascription.spaced_spell {a : Ascription} (h : a.type.WellFormed) : Spaced a.spell := by
  have htype : Spaced (a.type.spell 0 []) :=
    TypeExpr.spaced_spell h 0 trivial (canFollow_end true)
  obtain ⟨k, rest, hspell, htrivia, -, hend⟩ := (a.type.derives_spell 0).exists_cons
  have hhead : ∀ next ∈ (a.type.spell 0 [] ++ [Kind.endOfInput]).head?,
      next.category ≠ .whitespace := by
    rw [hspell]
    intro next hnext
    obtain rfl : k = next := by simpa using hnext
    exact Kind.category_ne_whitespace htrivia
  refine spaced_cons_of_mark trivial rfl ?_
  split
  · have hrest := spaced_cons_space htype hhead
    refine spaced_cons_space ⟨trivial, nofun, Kind.leadsTo_space_of_word rfl, hrest⟩ ?_
    intro next hnext
    obtain rfl : Kind.keyword (.reserved .kwInout) = next := by simpa using hnext
    nofun
  · exact spaced_cons_space htype hhead

/-- **The kinds that are scanned where a well-formed pattern is printed are spaced.** -/
theorem Pattern.spaced_spell {p : Pattern} (h : p.WellFormed) :
    Spaced (p.name.kind :: p.spellAscription) := by
  obtain ⟨name, ascription⟩ := p
  cases ascription with
  | none => exact spaced_cons_of_name h.1 trivial (canFollow_end true)
  | some a =>
      have hfollow : CanFollow true (a.spell ++ [.endOfInput]) := canFollow_of_mark rfl nofun
      exact spaced_cons_of_name h.1 (a.spaced_spell (h.2 a rfl)) hfollow

/-! ## Reading what is printed -/

open Cursor

/-- The entry for patterns recognizes the patterns. -/
theorem Entry.recognizes_pattern : Recognizes (Entry.pattern.rule .standard) DerivesPattern :=
  Grammar.recognizes_pattern

/-- What is read as a pattern is well formed. -/
theorem Pattern.wellFormed_of_parseSource {source : String} {p : Pattern}
    (h : Entry.pattern.parseSource source = .ok p) : p.WellFormed := by
  obtain ⟨before, w, after, hnormal, hw⟩ :=
    Entry.exists_normal_of_parseSource Entry.recognizes_pattern h
  exact hw.wellFormed hnormal.legible.right.left

/-- **A well-formed pattern is read back from its text.** -/
theorem Pattern.parseSource_text {p : Pattern} (h : p.WellFormed) :
    Entry.pattern.parseSource p.text = .ok p := by
  have htrivia := Kind.isTrivia_eq_false_of_name? h.1.name?_kind
  refine Entry.parseSource_of_spaced Entry.recognizes_pattern p.toList_text (p.spaced_spell h)
    htrivia ?_
  intro c d hpasses hend
  exact Grammar.pattern_of_derives (p.derives_spell h) hpasses
    (avoids_of_headKind_eq_none hend _) (avoids_of_headKind_eq_none hend _)

/-! ## Exactly the well-formed patterns -/

/-- The name that a type is built on.  Arrays and marks of optionality wrap one type each, so there
is exactly one name in a type, at whatever depth. -/
def TypeExpr.innermost : TypeExpr → Identifier
  | .named name => name
  | .array element => element.innermost
  | .optional wrapped => wrapped.innermost

/-- A type is well formed if the name that it is built on is valid as a token. -/
theorem TypeExpr.wellFormed_iff (t : TypeExpr) : t.WellFormed ↔ t.innermost.Valid := by
  induction t with
  | named name => exact Iff.rfl
  | array element ih => exact ih
  | optional wrapped ih => exact ih

/-- A name is valid as a token if it is well formed and, where it is plain, no contextual keyword
either. -/
theorem Identifier.valid_iff (i : Identifier) :
    i.Valid ↔ i.WellFormed ∧
      (i.backticked = false → ∀ word : ContextualWord, word.spelling ≠ i.name) := by
  constructor
  · intro h
    refine ⟨⟨h.1, fun hplain => ⟨(h.2 hplain).1, ?_⟩⟩, ?_⟩
    · intro word
      exact (h.2 hplain).2 (.reserved word)
    · intro hplain word
      exact (h.2 hplain).2 (.contextual word)
  · rintro ⟨h, hcontextual⟩
    refine ⟨h.1, fun hplain => ⟨(h.2 hplain).1, ?_⟩⟩
    intro word
    cases word with
    | reserved word => exact (h.2 hplain).2 word
    | contextual word => exact hcontextual hplain word

/-- **Exactly the well-formed patterns survive printing.**  The name may be a contextual keyword,
the name in the type may not.  Neither the nesting of the type nor `inout` matters. -/
theorem parseSource_patternText_iff (p : Pattern) :
    Entry.pattern.parseSource p.text = .ok p ↔
      p.name.WellFormed ∧ ∀ a ∈ p.ascription,
        a.type.innermost.WellFormed ∧
          (a.type.innermost.backticked = false →
            ∀ word : ContextualWord, word.spelling ≠ a.type.innermost.name) := by
  have hshape : p.WellFormed ↔ p.name.WellFormed ∧ ∀ a ∈ p.ascription,
      a.type.innermost.WellFormed ∧
        (a.type.innermost.backticked = false →
          ∀ word : ContextualWord, word.spelling ≠ a.type.innermost.name) := by
    simp only [Pattern.WellFormed, TypeExpr.wellFormed_iff, Identifier.valid_iff]
  rw [← hshape]
  constructor
  · exact Pattern.wellFormed_of_parseSource
  · exact Pattern.parseSource_text

end ExprFront
