/-
# The language of patterns and types

```text
pattern    → name | name ascription
ascription → `:` trivia* type | `:` trivia* `inout` trivia* type
type       → identifier | `[` type `]` | type mark
```

A mark is one token: the mark `?`, or an operator that is spelled by question marks only and makes
the type optional once for each of them.  As suffixes of operands do, the marks behind a type extend
it one by one.

The main fact, `Grammar.recognizes_pattern_ascription_type`, says that the three rules match exactly
these languages, and that a type only depends on how many marks stand behind it.
-/
import ExprFront.Grammar.Pattern
import ExprFront.Proofs.Grammar.Recognition
import ExprFront.Proofs.Grammar.Unfolding

namespace ExprFront

open Cursor

/-! ## Derivations -/

/-- A token of the kind makes a type optional so many times. -/
inductive IsMark : Kind → Nat → Prop
  | question : IsMark (.punctuator .question) 1
  | operator {text : String} (h : ∀ c ∈ text.toList, c = '?') :
      IsMark (.operator text) text.toList.length

/-- The kinds stand for the type. -/
inductive DerivesType : List Kind → TypeExpr → Prop
  | named (name : Identifier) : DerivesType [.identifier name] (.named name)
  | array {w : List Kind} {t : TypeExpr} (element : DerivesType w t) :
      DerivesType (.punctuator .leftBracket :: w ++ [.punctuator .rightBracket]) (.array t)
  | marked {w : List Kind} {t : TypeExpr} {k : Kind} {n : Nat} (mark : IsMark k n)
      (wrapped : DerivesType w t) : DerivesType (w ++ [k]) (t.optionals n)

/-- The kinds stand for the ascription. -/
inductive DerivesAscription : List Kind → Ascription → Prop
  | plain {trivia w : List Kind} {t : TypeExpr} (htrivia : ∀ k ∈ trivia, k.isTrivia = true)
      (type : DerivesType w t) : DerivesAscription (.punctuator .colon :: (trivia ++ w)) ⟨t, false⟩
  | inout {trivia trivia' w : List Kind} {t : TypeExpr}
      (htrivia : ∀ k ∈ trivia, k.isTrivia = true) (htrivia' : ∀ k ∈ trivia', k.isTrivia = true)
      (type : DerivesType w t) :
      DerivesAscription
        (.punctuator .colon :: (trivia ++ .keyword (.reserved .kwInout) :: (trivia' ++ w)))
        ⟨t, true⟩

/-- The kinds stand for the pattern. -/
inductive DerivesPattern : List Kind → Pattern → Prop
  | bare {k : Kind} {name : Identifier} (hname : k.name? = some name) :
      DerivesPattern [k] ⟨name, none⟩
  | ascribed {k : Kind} {name : Identifier} {w : List Kind} {a : Ascription}
      (hname : k.name? = some name) (ascription : DerivesAscription w a) :
      DerivesPattern (k :: w) ⟨name, some a⟩

/-- Tokens of the kinds are marks that make a type optional so many times in all. -/
inductive AreMarks : List Kind → Nat → Prop
  | nil : AreMarks [] 0
  | cons {k : Kind} {marks : List Kind} {m n : Nat} (mark : IsMark k m) (rest : AreMarks marks n) :
      AreMarks (k :: marks) (m + n)

/-! ## What a derivation looks like -/

/-- Whether a token of the kind is a mark. -/
def Kind.isMark : Kind → Bool
  | .punctuator .question => true
  | .operator text => text.toList.all (· == '?')
  | _ => false

/-- What makes a type optional is a mark. -/
theorem IsMark.isMark {k : Kind} {n : Nat} (h : IsMark k n) : k.isMark = true := by
  cases h with
  | question => rfl
  | operator h => simpa [Kind.isMark] using h

/-- A mark is no end of input. -/
theorem IsMark.ne_endOfInput {k : Kind} {n : Nat} (h : IsMark k n) : k ≠ .endOfInput := by
  cases h <;> nofun

/-- What a type begins with is no trivia and no keyword, and it is not the end of input. -/
theorem DerivesType.exists_cons {w : List Kind} {t : TypeExpr} (h : DerivesType w t) :
    ∃ k rest, w = k :: rest ∧ k.isTrivia = false ∧ (∀ word, k ≠ .keyword word) ∧
      k ≠ .endOfInput := by
  induction h with
  | named name => exact ⟨_, _, rfl, rfl, nofun, nofun⟩
  | array element ih => exact ⟨_, _, rfl, rfl, nofun, nofun⟩
  | marked mark wrapped ih =>
      obtain ⟨k, rest, rfl, hk⟩ := ih
      exact ⟨k, _, rfl, hk⟩

/-- Where a type is passed, its first kind is the head. -/
theorem DerivesType.headKind {c d : Cursor} {w : List Kind} {t : TypeExpr} (h : DerivesType w t)
    (hpasses : c.Passes w d) :
    ∃ k, c.headKind = some k ∧ k.isTrivia = false ∧ ∀ word, k ≠ .keyword word := by
  obtain ⟨k, rest, rfl, htrivia, hkeyword, hend⟩ := h.exists_cons
  exact ⟨k, hpasses.headKind hend, htrivia, hkeyword⟩

/-- Marks behind a type make it optional as often as they say together. -/
theorem DerivesType.append_marks {w marks : List Kind} {t : TypeExpr} {n : Nat}
    (h : DerivesType w t) (hmarks : AreMarks marks n) :
    DerivesType (w ++ marks) (t.optionals n) := by
  induction hmarks generalizing w t with
  | nil => simpa [TypeExpr.optionals] using h
  | @cons k marks m n mark rest ih =>
      have hall := ih (.marked mark h)
      rwa [TypeExpr.optionals_optionals, List.append_assoc, List.singleton_append] at hall

/-- No type reaches over the end of input. -/
theorem DerivesType.endOfInput_notMem {w : List Kind} {t : TypeExpr} (h : DerivesType w t) :
    .endOfInput ∉ w := by
  induction h with
  | named name => simp
  | array element ih => simp [ih]
  | marked mark wrapped ih => simp [ih, mark.ne_endOfInput.symm]

/-- No ascription reaches over the end of input. -/
theorem DerivesAscription.endOfInput_notMem {w : List Kind} {a : Ascription}
    (h : DerivesAscription w a) : .endOfInput ∉ w := by
  cases h with
  | plain htrivia type =>
      simp [Kind.endOfInput_notMem_of_isTrivia htrivia, type.endOfInput_notMem]
  | inout htrivia htrivia' type =>
      simp [Kind.endOfInput_notMem_of_isTrivia htrivia, Kind.endOfInput_notMem_of_isTrivia htrivia',
        type.endOfInput_notMem]

/-- No pattern reaches over the end of input. -/
theorem DerivesPattern.endOfInput_notMem {w : List Kind} {p : Pattern} (h : DerivesPattern w p) :
    .endOfInput ∉ w := by
  cases h with
  | bare hname => simp [Kind.endOfInput_ne_of_name? hname]
  | ascribed hname ascription =>
      simp [Kind.endOfInput_ne_of_name? hname, ascription.endOfInput_notMem]

namespace Grammar

variable {c d stop : Cursor} {w : List Kind} {t : TypeExpr}

/-! ## Marks -/

/-- A mark at the cursor is read and the loop goes on behind it. -/
theorem optionalMarks_of_isMark {k : Kind} {n : Nat} (hk : c.headKind = some k)
    (hmark : IsMark k n) : optionalMarks t c = optionalMarks (t.optionals n) c.advance := by
  cases hmark with
  | question =>
      rw [optionalMarks]
      split <;> simp_all
      rfl
  | @operator text h =>
      rw [optionalMarks]
      split
      · simp_all
      · next text' hk' =>
          cases hk.symm.trans hk'
          exact if_pos (by simpa using h)
      · simp_all

/-- The marks end where no mark stands. -/
theorem optionalMarks_of_avoids (h : c.Avoids Kind.isMark) : optionalMarks t c = (t, c) := by
  rw [optionalMarks]
  split
  · next hk => cases h _ hk
  · next hk => exact if_neg (Bool.eq_false_iff.1 (h _ hk))
  · rfl

/-- What is read as marks continues the type before them. -/
theorem passes_of_optionalMarks {t' : TypeExpr} (h : optionalMarks t c = (t', stop)) :
    ∃ w, c.Passes w stop ∧ ∀ u, DerivesType u t → DerivesType (u ++ w) t' := by
  fun_induction optionalMarks t c with
  | case1 t c hk _ ih =>
      obtain ⟨w, hpasses, hw⟩ := ih h
      refine ⟨_, hpasses.cons hk, fun u hu => ?_⟩
      rw [← List.singleton_append, ← List.append_assoc]
      exact hw _ (.marked .question hu)
  | case2 t c text hk _ hall ih =>
      obtain ⟨w, hpasses, hw⟩ := ih h
      refine ⟨_, hpasses.cons hk, fun u hu => ?_⟩
      rw [← List.singleton_append, ← List.append_assoc]
      exact hw _ (.marked (.operator (by simpa using hall)) hu)
  | case3 =>
      cases h
      exact ⟨[], .nil _, fun u hu => by rwa [List.append_nil]⟩
  | case4 =>
      cases h
      exact ⟨[], .nil _, fun u hu => by rwa [List.append_nil]⟩

/-! ## Types -/

/-- What is read as the marks behind the beginning of a type is derived. -/
theorem covers_of_withOptionalMarks {t' : TypeExpr} {n : Nat} (hpasses : c.Passes w d)
    (hw : DerivesType w t) (h : withOptionalMarks c t d = .matched t' n) :
    c.Covers n DerivesType t' := by
  cases hmarks : optionalMarks t d with
  | mk marked last =>
      rw [withOptionalMarks, hmarks] at h
      cases h
      obtain ⟨w', hpasses', hw'⟩ := passes_of_optionalMarks hmarks
      have hall := hpasses.trans hpasses'
      exact hall.since ▸ hall.covers (hw' w hw)

/-- **What is matched as a type is derived.** -/
theorem covers_of_type {n : Nat} (h : type c = .ok (.matched t n)) :
    c.Covers n DerivesType t := by
  fun_induction type c generalizing t n with
  | case1 c name hk =>
      exact covers_of_withOptionalMarks (.head hk) (.named name) (Except.ok.inj h)
  | case2 c hk hlt element m helement hclose ih =>
      obtain ⟨w, rfl, hpasses, hw⟩ := ih (eq_of_required helement)
      have hall := hpasses.enclose hk (isPunctuator_iff.1 hclose)
      exact covers_of_withOptionalMarks hall (.array hw) (Except.ok.inj h)
  | case3 => cases h
  | case4 => cases h
  | case5 => cases h

/-- A type between brackets is read as an array. -/
theorem type_of_leftBracket {n : Nat} (hopen : c.headKind = some (.punctuator .leftBracket))
    (helement : type c.advance = .ok (.matched t n))
    (hclose : (c.advanceBy (n + 1)).headKind = some (.punctuator .rightBracket)) :
    type c = .ok (withOptionalMarks c (.array t) (c.advanceBy (n + 2))) := by
  rw [type_eq_of_leftBracket hopen, helement]
  exact if_pos (isPunctuator_iff.2 hclose)

/-- A type is read up to any of its prefixes that is a type, and then its marks are. -/
theorem type_eq_of_derivesType (h : DerivesType w t) :
    ∀ c d : Cursor, c.Passes w d → type c = .ok (withOptionalMarks c t d) := by
  induction h with
  | named name =>
      intro c d hpasses
      rw [← hpasses.advanceBy_length]
      exact type_eq_of_identifier (hpasses.headKind (by simp))
  | @array w t hw ih =>
      intro c d hpasses
      have hk := hpasses.headKind (by simp)
      obtain ⟨hinner, hclose, hend⟩ := hpasses.between (by simp)
      -- The closing bracket is no mark, so the element is matched as a whole.
      have helement : type c.advance = .ok (.matched t w.length) := by
        have havoids : Avoids _ Kind.isMark := avoids_of_headKind hclose rfl
        rw [ih _ _ hinner, withOptionalMarks, optionalMarks_of_avoids havoids]
        exact congrArg (fun n => Except.ok (Outcome.matched t n)) hinner.since
      rw [type_of_leftBracket hk helement hclose, hend]
  | @marked w t k n hmark hw ih =>
      -- By `ih` the loop over the marks is about to read at this one: that is one turn of it.
      intro c d hpasses
      obtain ⟨hwrapped, hpasses⟩ := hpasses.split
      have hk := hpasses.headKind hmark.ne_endOfInput
      obtain rfl : (c.advanceBy w.length).advance = d := hpasses.advanceBy_length
      rw [ih _ _ hwrapped, withOptionalMarks, optionalMarks_of_isMark hk hmark]
      rfl

/-- A type in front of something that is no mark is matched as a whole. -/
theorem type_of_derivesType (h : DerivesType w t) (hpasses : c.Passes w d)
    (hd : d.Avoids Kind.isMark) : type c = .ok (.matched t w.length) := by
  rw [type_eq_of_derivesType h c d hpasses, withOptionalMarks, optionalMarks_of_avoids hd]
  show Except.ok (Outcome.matched t (d.since c)) = _
  rw [hpasses.since]

/-! ## Ascriptions -/

/-- A keyword is there exactly if it is the head. -/
theorem isKeyword_iff {word : Keyword} :
    c.isKeyword word = true ↔ c.headKind = some (.keyword word) := by
  simp [isKeyword]

/-- What is matched as the end of an ascription is a type up to there. -/
theorem exists_of_ascribedType {isInout : Bool} {start : Cursor} {a : Ascription} {n : Nat}
    (h : ascribedType isInout start c = .ok (.matched a n)) :
    ∃ w t stop, start.Passes w stop ∧ DerivesType w t ∧ a = ⟨t, isInout⟩ ∧ n = stop.since c := by
  unfold ascribedType at h
  split at h
  · next t m ht =>
      cases h
      obtain ⟨w, rfl, hpasses, hw⟩ := covers_of_type (eq_of_required ht)
      exact ⟨w, t, _, hpasses, hw, rfl, rfl⟩
  · cases h

/-- **What is matched as an ascription is derived.** -/
theorem covers_of_typeAscription {a : Ascription} {n : Nat}
    (h : typeAscription c = .ok (.matched a n)) : c.Covers n DerivesAscription a := by
  unfold typeAscription at h
  split at h
  · next hcolon =>
      obtain ⟨trivia, htrivia, hskip, -⟩ := exists_passes_skipTrivia c.advance
      have hnext : c.Passes (.punctuator .colon :: trivia) c.next :=
        hskip.cons (isPunctuator_iff.1 hcolon)
      split at h
      · next hinout =>
          obtain ⟨w, t, stop, hpasses, hw, rfl, rfl⟩ := exists_of_ascribedType h
          obtain ⟨trivia', htrivia', hskip', -⟩ := exists_passes_skipTrivia c.next.advance
          have hall := hnext.trans ((hskip'.trans hpasses).cons (isKeyword_iff.1 hinout))
          exact hall.since ▸ hall.covers (.inout htrivia htrivia' hw)
      · obtain ⟨w, t, stop, hpasses, hw, rfl, rfl⟩ := exists_of_ascribedType h
        have hall := hnext.trans hpasses
        exact hall.since ▸ hall.covers (.plain htrivia hw)
  · cases h

/-- The type at the end of an ascription is read. -/
theorem ascribedType_of_derivesType {isInout : Bool} (h : DerivesType w t)
    (hpasses : c.Passes w d) (hd : d.Avoids Kind.isMark) (start : Cursor) :
    ascribedType isInout c start = .ok (.matched ⟨t, isInout⟩ (d.since start)) := by
  rw [ascribedType, type_of_derivesType h hpasses hd]
  show Except.ok (Outcome.matched _ ((c.advanceBy w.length).since start)) = _
  rw [hpasses.advanceBy_length]

/-- **What is derived as an ascription is matched**, wherever no mark follows. -/
theorem typeAscription_of_derives {a : Ascription} (h : DerivesAscription w a)
    (hpasses : c.Passes w d) (hd : d.Avoids Kind.isMark) :
    typeAscription c = .ok (.matched a w.length) := by
  cases h with
  | @plain trivia w t htrivia hw =>
      obtain ⟨htrivia', htype⟩ := hpasses.tail.split
      obtain ⟨k, hk, hnontrivia, hkeyword⟩ := hw.headKind htype
      have hnext : c.next = c.advance.advanceBy trivia.length :=
        skipTrivia_eq_of_passes htrivia' htrivia fun m hm => by
          cases hk.symm.trans hm
          exact hnontrivia
      rw [typeAscription, if_pos (isPunctuator_iff.2 (hpasses.headKind (by simp))), hnext, if_neg,
        ascribedType_of_derivesType hw htype hd, hpasses.since]
      -- A type begins with no keyword, so what follows the colon is not taken for `inout`.
      rw [isKeyword_iff, hk]
      exact fun h => hkeyword _ (Option.some.inj h)
  | @inout trivia trivia' w t htrivia htrivia' hw =>
      obtain ⟨hskip, hpasses'⟩ := hpasses.tail.split
      obtain ⟨hskip', htype⟩ := hpasses'.tail.split
      obtain ⟨k, hk, hnontrivia, -⟩ := hw.headKind htype
      have hinout := hpasses'.headKind (by simp)
      have hnext : c.next = c.advance.advanceBy trivia.length :=
        skipTrivia_eq_of_passes hskip htrivia fun m hm => by
          cases hinout.symm.trans hm
          rfl
      have hnext' : c.next.next = (c.advance.advanceBy trivia.length).advance.advanceBy
          trivia'.length := by
        rw [hnext]
        exact skipTrivia_eq_of_passes hskip' htrivia' fun m hm => by
          cases hk.symm.trans hm
          exact hnontrivia
      rw [typeAscription, if_pos (isPunctuator_iff.2 (hpasses.headKind (by simp))), hnext', hnext,
        if_pos (isKeyword_iff.2 hinout), ascribedType_of_derivesType hw htype hd, hpasses.since]

/-! ## Patterns -/

/-- **What is matched as a pattern is derived.** -/
theorem covers_of_pattern {p : Pattern} {n : Nat} (h : pattern c = .ok (.matched p n)) :
    c.Covers n DerivesPattern p := by
  unfold pattern at h
  split at h
  · next name hname =>
      obtain ⟨k, hk, hread⟩ := identifier?_eq_some_iff.1 hname
      split at h
      · next a m ha =>
          cases h
          obtain ⟨w, rfl, hpasses, hw⟩ := covers_of_typeAscription ha
          have hall := hpasses.cons hk
          exact hall.since ▸ hall.covers (.ascribed hread hw)
      · cases h
        have hall := Passes.head hk
        exact hall.since ▸ hall.covers (.bare hread)
      · cases h
  · cases h

/-- **What is derived as a pattern is matched**, wherever no ascription and no mark follows. -/
theorem pattern_of_derives {p : Pattern} (h : DerivesPattern w p) (hpasses : c.Passes w d)
    (hmark : d.Avoids Kind.isMark) (hcolon : d.Avoids (· == .punctuator .colon)) :
    pattern c = .ok (.matched p w.length) := by
  cases h with
  | @bare k name hname =>
      have hk := hpasses.headKind (Kind.endOfInput_ne_of_name? hname).symm
      obtain rfl : c.advance = d := hpasses.advanceBy_length
      have hnone : typeAscription c.advance = .ok .noMatch := by
        rw [typeAscription, if_neg]
        rw [isPunctuator_iff]
        intro hhead
        have := hcolon _ hhead
        simp at this
      rw [pattern, identifier?_eq_some_iff.2 ⟨k, hk, hname⟩]
      simp only [hnone, hpasses.since]
  | @ascribed k name w a hname ha =>
      have hk := hpasses.headKind (Kind.endOfInput_ne_of_name? hname).symm
      have hmatch := typeAscription_of_derives ha hpasses.tail hmark
      rw [pattern, identifier?_eq_some_iff.2 ⟨k, hk, hname⟩]
      simp only [hmatch, hpasses.tail.advanceBy_length, hpasses.since]

/-! ## The languages of the rules -/

/-- The rule for types recognizes the types. -/
theorem recognizes_type : Recognizes type DerivesType := by
  refine recognizes_of_covers ?_ (fun _ _ h => h.endOfInput_notMem) (fun _ _ _ => covers_of_type) ?_
  · intro w t h
    obtain ⟨k, rest, rfl, -⟩ := h.exists_cons
    exact List.cons_ne_nil k rest
  · intro c d w t hw hpasses hnone
    exact type_of_derivesType hw hpasses (avoids_of_headKind_eq_none hnone _)

/-- The rule for ascriptions recognizes the ascriptions. -/
theorem recognizes_typeAscription : Recognizes typeAscription DerivesAscription := by
  refine recognizes_of_covers ?_ (fun _ _ h => h.endOfInput_notMem)
    (fun _ _ _ => covers_of_typeAscription) ?_
  · intro w a h
    cases h <;> exact List.cons_ne_nil _ _
  · intro c d w a hw hpasses hnone
    exact typeAscription_of_derives hw hpasses (avoids_of_headKind_eq_none hnone _)

/-- The rule for patterns recognizes the patterns. -/
theorem recognizes_pattern : Recognizes pattern DerivesPattern := by
  refine recognizes_of_covers ?_ (fun _ _ h => h.endOfInput_notMem)
    (fun _ _ _ => covers_of_pattern) ?_
  · intro w p h
    cases h <;> exact List.cons_ne_nil _ _
  · intro c d w p hw hpasses hnone
    exact pattern_of_derives hw hpasses (avoids_of_headKind_eq_none hnone _)
      (avoids_of_headKind_eq_none hnone _)

/-- **The rules for patterns, ascriptions and types accept exactly their languages**, and the marks
behind a type nest it as often as they say, however they are split into tokens. -/
theorem recognizes_pattern_ascription_type :
    Recognizes pattern DerivesPattern ∧ Recognizes typeAscription DerivesAscription ∧
      Recognizes type DerivesType ∧
      ∀ (w marks : List Kind) (t : TypeExpr) (n : Nat) (tokens : Array Token),
        DerivesType w t → AreMarks marks n → tokens.toList.map (·.kind) = w ++ marks →
          type (.atPosition tokens 0) = .ok (.matched (t.optionals n) tokens.size) := by
  refine ⟨recognizes_pattern, recognizes_typeAscription, recognizes_type, ?_⟩
  intro w marks t n tokens hw hmarks hkinds
  refine recognizes_type.complete tokens _ ?_
  rw [hkinds]
  exact hw.append_marks hmarks

/-- Three marks make a name the same type, whether the first two or the last two of them are one
token. -/
theorem type_threeMarks :
    let name : Identifier := .plain "T"
    let tokens (kinds : List Kind) : Array Token :=
      (kinds.map fun k => ⟨k, 0, 0, .start⟩ : List Token).toArray
    let thrice : TypeExpr := .optional (.optional (.optional (.named name)))
    AreMarks [.operator "??", .punctuator .question] 3 ∧
      AreMarks [.punctuator .question, .operator "??"] 3 ∧
      type (.atPosition (tokens [.identifier name, .operator "??", .punctuator .question]) 0) =
        .ok (.matched thrice 3) ∧
      type (.atPosition (tokens [.identifier name, .punctuator .question, .operator "??"]) 0) =
        .ok (.matched thrice 3) := by
  intro name tokens thrice
  have htwo : IsMark (.operator "??") 2 := .operator (by simp)
  have hfirst : AreMarks [.operator "??", .punctuator .question] 3 :=
    .cons htwo (.cons .question .nil)
  have hlast : AreMarks [.punctuator .question, .operator "??"] 3 :=
    .cons .question (.cons htwo .nil)
  exact ⟨hfirst, hlast,
    recognizes_pattern_ascription_type.2.2.2 [.identifier name] _ _ _ _ (.named name) hfirst rfl,
    recognizes_pattern_ascription_type.2.2.2 [.identifier name] _ _ _ _ (.named name) hlast rfl⟩

end Grammar

end ExprFront
