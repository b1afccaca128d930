/-
# Which tokens are accepted

A list of tokens without an end of input is accepted with a value if it parses to that value once
an end of input stands behind it.  For the three entry points this has nothing to do with sessions:
`Entry.accepts_iff` says that the accepted lists are the sentences, that is, what the language of
the entry has with trivia around it.
-/
import Mathlib.Data.List.Basic
import ExprFront.Proofs.Session.Source
import ExprFront.Proofs.Grammar.PatternLanguage

namespace ExprFront

open Cursor

variable {α : Type} {entry : Entry α} {language : List Kind → α → Prop} {v : α}

/-! ## Tokens in front of an end of input -/

namespace Token

/-- No end of input is among the kinds of tokens without one. -/
theorem endOfInput_notMem_map_kind {w : List Token} (h : ∀ t ∈ w, t.kind ≠ .endOfInput) :
    .endOfInput ∉ w.map (·.kind) := by
  rw [List.mem_map]
  rintro ⟨t, ht, hkind⟩
  exact h t ht hkind

/-- The kinds of tokens and an end of input behind them. -/
theorem map_kind_append_end (w : List Token) {last : Token} (hlast : last.kind = .endOfInput) :
    (w ++ [last]).map (·.kind) = w.map (·.kind) ++ [.endOfInput] := by
  rw [List.map_append, List.map_singleton, hlast]

/-- No end of input is added to tokens that end with one. -/
theorem withEnd_append_end (w : List Token) {last : Token} (hlast : last.kind = .endOfInput) :
    withEnd (w ++ [last]) = w ++ [last] :=
  withEnd_of_map_kind (map_kind_append_end w hlast)

/-- The cursor at the first of the tokens. -/
abbrev startCursor (tokens : List Token) : Cursor := (Session.start .standard tokens).cursor

/-- From the start on stand the kinds of the tokens, if they end with an end of input. -/
theorem kinds_startCursor (w : List Token) {last : Token} (hlast : last.kind = .endOfInput) :
    (startCursor (w ++ [last])).kinds = w.map (·.kind) ++ [.endOfInput] := by
  rw [Entry.kinds_cursor_start, withEnd_append_end w hlast, map_kind_append_end w hlast]

end Token

/-! ## Accepted tokens and sentences -/

/-- The tokens hold no end of input, and in front of one they parse to the value. -/
def Entry.Accepts (entry : Entry α) (w : List Token) (v : α) : Prop :=
  (∀ t ∈ w, t.kind ≠ .endOfInput) ∧
    ∀ last : Token, last.kind = .endOfInput → entry.parseTokens (w ++ [last]) = .ok v

/-- The kinds are what the language has for the value, with trivia around it. -/
def Sentence (language : List Kind → α → Prop) (w : List Kind) (v : α) : Prop :=
  ∃ before core after, w = before ++ (core ++ after) ∧ (∀ k ∈ before, k.isTrivia = true) ∧
    (∀ k ∈ after, k.isTrivia = true) ∧ language core v

/-- The entry reads the language: its rule recognizes it, no phrase of it begins with trivia, and
trivia behind a phrase keep it from no match. -/
structure Entry.Reads (entry : Entry α) (language : List Kind → α → Prop) : Prop where
  recognizes : Recognizes (entry.rule .standard) language
  exists_cons : ∀ w v, language w v → ∃ k rest, w = k :: rest ∧ k.isTrivia = false
  endOfInput_notMem : ∀ w v, language w v → .endOfInput ∉ w
  trailing : ∀ (c d : Cursor) (w after : List Kind) (v : α), language w v →
    (∀ k ∈ after, k.isTrivia = true) → c.Passes (w ++ after) d → d.headKind = none →
    ∃ n, entry.rule .standard c = .ok (.matched v n) ∧ (c.advanceBy n).skipTrivia = d

/-- No end of input is in a sentence. -/
theorem Entry.Reads.endOfInput_notMem_of_sentence (h : entry.Reads language) {w : List Kind}
    (hw : Sentence language w v) : .endOfInput ∉ w := by
  obtain ⟨before, core, after, rfl, hbefore, hafter, hcore⟩ := hw
  simp [Kind.endOfInput_notMem_of_isTrivia hbefore, Kind.endOfInput_notMem_of_isTrivia hafter,
    h.endOfInput_notMem _ _ hcore]

/-- In front of an end of input, tokens without one parse to a value exactly if they are a
sentence. -/
theorem Entry.Reads.parseTokens_append_iff (h : entry.Reads language) {w : List Token}
    {last : Token} (hw : .endOfInput ∉ w.map (·.kind)) (hlast : last.kind = .endOfInput) :
    entry.parseTokens (w ++ [last]) = .ok v ↔ Sentence language (w.map (·.kind)) v := by
  constructor
  · intro hv
    obtain ⟨before, core, after, rest, hall, hcore, hbefore, hafter⟩ :=
      exists_of_parseTokens h.recognizes hv
    rw [Token.withEnd_append_end w hlast, Token.map_kind_append_end w hlast,
      ← List.append_assoc core, ← List.append_assoc before] at hall
    obtain ⟨hall, -, -⟩ := (List.append_cons_inj_of_notMem hw (by simp)).1 hall
    exact ⟨before, core, after, hall, hbefore, hafter, hcore⟩
  · rintro ⟨before, core, after, hall, hbefore, hafter, hcore⟩
    have hstart : (Token.startCursor (w ++ [last])).kinds =
        before ++ (core ++ after ++ [.endOfInput]) := by
      rw [Token.kinds_startCursor w hlast, hall, List.append_assoc]
    obtain ⟨hpasses, hrest⟩ := passes_of_kinds_eq hstart
    obtain ⟨hpasses', hrest'⟩ := passes_of_kinds_eq hrest
    have hnone := headKind_eq_none_of_kinds hrest'
    obtain ⟨k, tail, hk, hnontrivia⟩ := h.exists_cons _ _ hcore
    have hskip := skipTrivia_eq_of_passes hpasses hbefore fun m hm => by
      obtain ⟨rest, hkrest, -⟩ := headKind_eq_some_iff.1 hm
      rw [hrest, hk] at hkrest
      cases hkrest
      exact hnontrivia
    obtain ⟨n, hmatch, hbehind⟩ := h.trailing _ _ _ _ _ hcore hafter hpasses' hnone
    refine (parseTokens_eq_ok_iff h.recognizes).2 ⟨n, ?_, ?_⟩
    · rw [hskip, hmatch]
    · rw [hskip, hbehind, hnone]

/-- **The accepted tokens are the sentences.** -/
theorem Entry.Reads.accepts_iff (h : entry.Reads language) {w : List Token} :
    entry.Accepts w v ↔ Sentence language (w.map (·.kind)) v := by
  constructor
  · rintro ⟨hend, hv⟩
    have hw := Token.endOfInput_notMem_map_kind hend
    exact (h.parseTokens_append_iff hw rfl).1 (hv ⟨.endOfInput, 0, 0, .start⟩ rfl)
  · intro hw
    have hend := h.endOfInput_notMem_of_sentence hw
    refine ⟨fun t ht hkind => hend ?_, fun last hlast => (h.parseTokens_append_iff hend hlast).2 hw⟩
    exact hkind ▸ List.mem_map_of_mem ht

/-! ## The three entry points -/

/-- At an end no trivia are skipped. -/
theorem Cursor.skipTrivia_of_headKind_eq_none {d : Cursor} (hd : d.headKind = none) :
    d.skipTrivia = d := by
  refine skipTrivia_eq_of_passes (.nil d) (by simp) fun k hk => ?_
  rw [hd] at hk
  cases hk

/-- Trivia behind a match of all the kinds are skipped. -/
theorem Cursor.Passes.skipTrivia_advanceBy {c d : Cursor} {w after : List Kind}
    (h : c.Passes (w ++ after) d) (hafter : ∀ k ∈ after, k.isTrivia = true)
    (hd : d.headKind = none) : (c.advanceBy w.length).skipTrivia = d := by
  refine skipTrivia_eq_of_passes h.split.2 hafter fun k hk => ?_
  rw [hd] at hk
  cases hk

/-- Behind a match, what stands there is trivia or the end. -/
theorem Cursor.Passes.avoids_of_trivia {c d : Cursor} {w after : List Kind} {p : Kind → Bool}
    (h : c.Passes (w ++ after) d) (hafter : ∀ k ∈ after, k.isTrivia = true)
    (hd : d.headKind = none) (hp : ∀ k, k.isTrivia = true → p k = false) :
    (c.advanceBy w.length).Avoids p := by
  cases after with
  | nil =>
      rw [List.append_nil] at h
      rw [h.advanceBy_length]
      exact avoids_of_headKind_eq_none hd p
  | cons k after =>
      have htrivia := hafter k (by simp)
      exact avoids_of_headKind (h.split.2.headKind (Kind.ne_endOfInput_of_isTrivia htrivia))
        (hp k htrivia)

/-- Trivia behind an expression go on with it, or no trivia do. -/
theorem Derives.expression_append_trivia {w after : List Kind} {e : Expression}
    (h : Derives w (.expression e)) (hafter : ∀ k ∈ after, k.isTrivia = true) :
    Derives (w ++ after) (.expression e) ∨ ∀ k, k.isTrivia = true → e.isExtendedBy k = false := by
  cases h with
  | inOut hname htrivia =>
      refine .inl (.inOut hname fun t ht => ?_)
      rcases List.mem_append.1 ht with ht | ht
      · exact htrivia t ht
      · exact hafter t ht
  | prefixed operator operand =>
      refine .inr fun k hk => ?_
      cases k <;> first | rfl | cases hk
  | plain operand =>
      refine .inr fun k hk => ?_
      cases k <;> first | rfl | cases hk

/-- Trivia behind a list go on with it, or no trivia do. -/
theorem Derives.members_append_trivia {w after : List Kind} {es : List Expression}
    (h : Derives w (.members es)) (hafter : ∀ k ∈ after, k.isTrivia = true) :
    Derives (w ++ after) (.members es) ∨
      ∀ k, k.isTrivia = true → Expression.isListExtendedBy k es = false := by
  have comma {k : Kind} (hk : k.isTrivia = true) : (k == .punctuator .comma) = false := by
    rw [beq_eq_false_iff_ne]
    rintro rfl
    cases hk
  generalize hp : Phrase.members es = p at h
  induction h generalizing es with
  | @single w e member =>
      cases hp
      rcases member.expression_append_trivia hafter with hmore | hnone
      · exact .inl (.single hmore)
      · refine .inr fun k hk => ?_
        simp [Expression.isListExtendedBy, comma hk, hnone k hk]
  | @more u trivia w e es member htrivia rest _ ih =>
      cases hp
      rcases ih rfl with hmore | hnone
      · refine .inl ?_
        rw [List.append_assoc, List.cons_append, List.append_assoc]
        exact .more member htrivia hmore
      · refine .inr fun k hk => ?_
        have hlast := hnone k hk
        rwa [Expression.isListExtendedBy, List.getLast?_cons_of_ne_nil rest.members_ne_nil]
  | _ => cases hp

namespace Entry

/-- The entry for expressions reads the expressions. -/
theorem reads_expression : Entry.expression.Reads fun w e => Derives w (.expression e) where
  recognizes := recognizes_expression
  exists_cons w e h := by
    obtain ⟨k, rest, rfl, hk⟩ := h.exists_cons
    exact ⟨k, rest, rfl, Phrase.isTrivia_eq_false_of_beginsWith hk⟩
  endOfInput_notMem w e h := h.endOfInput_notMem
  trailing c d w after e h hafter hpasses hd := by
    rcases h.expression_append_trivia hafter with hmore | hnone
    · refine ⟨_, hmore.isReadFrom c d hpasses (avoids_of_headKind_eq_none hd _), ?_⟩
      rw [hpasses.advanceBy_length, skipTrivia_of_headKind_eq_none hd]
    · refine ⟨_, h.isReadFrom c _ hpasses.split.1 (hpasses.avoids_of_trivia hafter hd hnone), ?_⟩
      exact hpasses.skipTrivia_advanceBy hafter hd

/-- The entry for lists reads the lists. -/
theorem reads_expressionList :
    Entry.expressionList.Reads fun w es => Derives w (.members es) where
  recognizes := recognizes_expressionList
  exists_cons w es h := by
    obtain ⟨k, rest, rfl, hk⟩ := h.exists_cons
    exact ⟨k, rest, rfl, Phrase.isTrivia_eq_false_of_beginsWith hk⟩
  endOfInput_notMem w es h := h.endOfInput_notMem
  trailing c d w after es h hafter hpasses hd := by
    rcases h.members_append_trivia hafter with hmore | hnone
    · refine ⟨_, expressionList_of_isReadFrom hmore.isReadFrom hpasses
        (avoids_of_headKind_eq_none hd _), ?_⟩
      rw [hpasses.advanceBy_length, skipTrivia_of_headKind_eq_none hd]
    · refine ⟨_, expressionList_of_isReadFrom h.isReadFrom hpasses.split.1
        (hpasses.avoids_of_trivia hafter hd hnone), ?_⟩
      exact hpasses.skipTrivia_advanceBy hafter hd

/-- The entry for patterns reads the patterns. -/
theorem reads_pattern : Entry.pattern.Reads DerivesPattern where
  recognizes := Grammar.recognizes_pattern
  exists_cons w p h := by
    cases h with
    | bare hname => exact ⟨_, _, rfl, Kind.isTrivia_eq_false_of_name? hname⟩
    | ascribed hname ascription => exact ⟨_, _, rfl, Kind.isTrivia_eq_false_of_name? hname⟩
  endOfInput_notMem w p h := h.endOfInput_notMem
  trailing c d w after p h hafter hpasses hd := by
    have hmark := hpasses.avoids_of_trivia (p := Kind.isMark) hafter hd fun k hk => by
      cases k <;> first | rfl | cases hk
    have hcolon := hpasses.avoids_of_trivia (p := (· == .punctuator .colon)) hafter hd
      fun k hk => by cases k <;> first | rfl | cases hk
    refine ⟨_, Grammar.pattern_of_derives h hpasses.split.1 hmark hcolon, ?_⟩
    exact hpasses.skipTrivia_advanceBy hafter hd

end Entry

end ExprFront
