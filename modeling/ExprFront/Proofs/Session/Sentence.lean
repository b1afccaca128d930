/-
# Which sources are accepted

A source is accepted if its text splits into a sentence, that is, into what the language of the
entry has with trivia around it: `Entry.Reads.parseSource_eq_ok_iff`.  On which side trivia stand
shows in the first and in the last of the tokens.
-/
import ExprFront.Proofs.Session.Acceptance
import ExprFront.Proofs.Stream.Joining

namespace ExprFront

variable {α : Type} {entry : Entry α} {language : List Kind → α → Prop} {v : α} {w : List Kind}

/-! ## Sources and sentences -/

/-- Tokens whose kinds end with an end of input have such a token behind the others. -/
theorem Token.exists_eq_append_end {tokens : List Token}
    (h : tokens.map (·.kind) = w ++ [.endOfInput]) :
    ∃ body last, tokens = body ++ [last] ∧ body.map (·.kind) = w ∧ last.kind = .endOfInput := by
  obtain ⟨body, ends, rfl, hbody, hends⟩ := List.map_eq_append_iff.1 h
  obtain ⟨last, rfl, hlast⟩ := List.map_eq_singleton_iff.1 hends
  exact ⟨body, last, rfl, hbody, hlast⟩

/-- **The accepted sources are those that split into sentences.** -/
theorem Entry.Reads.parseSource_eq_ok_iff (h : entry.Reads language) {source : String} :
    entry.parseSource source = .ok v ↔
      ∃ w, SplitsInto source.toList w ∧ Sentence language w v := by
  have parses {tokens : List Token} {w : List Kind} (hsplits : SplitsInto source.toList w)
      (hkinds : tokens.map (·.kind) = w ++ [.endOfInput]) :
      entry.parseTokens tokens = .ok v ↔ Sentence language w v := by
    obtain ⟨body, last, rfl, rfl, hlast⟩ := Token.exists_eq_append_end hkinds
    exact h.parseTokens_append_iff hsplits.endOfInput_notMem hlast
  rw [parseSource]
  constructor
  · intro hv
    cases htokens : Token.tokenize source with
    | error e =>
        rw [htokens] at hv
        cases hv
    | ok tokens =>
        rw [htokens] at hv
        obtain ⟨xs, hsplits, rfl⟩ := Token.tokenize_eq_ok_iff.1 htokens
        have hsplits' : SplitsInto source.toList (xs.map (·.kind)) := ⟨xs, hsplits, rfl⟩
        exact ⟨_, hsplits', (parses hsplits' (Token.map_kind_placed .start xs)).1 hv⟩
  · rintro ⟨w, hsplits, hw⟩
    obtain ⟨tokens, htokens, hkinds⟩ := Token.exists_tokenize_iff.2 hsplits
    rw [htokens]
    exact (parses hsplits hkinds).2 hw

/-! ## Trivia on one side -/

/-- Where kinds do not begin with trivia, no trivia are in front. -/
theorem eq_nil_of_head {before : List Kind} (hbefore : ∀ k ∈ before, k.isTrivia = true)
    (hfirst : ∀ k ∈ (before ++ w).head?, k.isTrivia = false) : before = [] := by
  cases before with
  | nil => rfl
  | cons k before =>
      have htrivia := hbefore k List.mem_cons_self
      rw [hfirst k rfl] at htrivia
      cases htrivia

/-- A sentence that does not begin with trivia has none in front. -/
theorem Sentence.exists_of_head (h : Sentence language w v)
    (hfirst : ∀ k ∈ w.head?, k.isTrivia = false) :
    ∃ core after, w = core ++ after ∧ (∀ k ∈ after, k.isTrivia = true) ∧ language core v := by
  obtain ⟨before, core, after, rfl, hbefore, hafter, hcore⟩ := h
  obtain rfl := eq_nil_of_head hbefore hfirst
  exact ⟨core, after, rfl, hafter, hcore⟩

/-- A sentence that does not end with trivia has none behind. -/
theorem Sentence.exists_of_getLast (h : Sentence language w v)
    (hlast : ∀ k ∈ w.getLast?, k.isTrivia = false) :
    ∃ before core, w = before ++ core ∧ (∀ k ∈ before, k.isTrivia = true) ∧ language core v := by
  obtain ⟨before, core, after, rfl, hbefore, hafter, hcore⟩ := h
  rcases List.eq_nil_or_concat after with rfl | ⟨after, k, rfl⟩
  · exact ⟨before, core, by rw [List.append_nil], hbefore, hcore⟩
  · have htrivia := hafter k (by simp)
    rw [hlast k (by simp [List.getLast?_append])] at htrivia
    cases htrivia

/-- A sentence with trivia on neither side is in the language. -/
theorem Sentence.of_head_of_getLast (h : Sentence language w v)
    (hfirst : ∀ k ∈ w.head?, k.isTrivia = false) (hlast : ∀ k ∈ w.getLast?, k.isTrivia = false) :
    language w v := by
  obtain ⟨before, core, rfl, hbefore, hcore⟩ := h.exists_of_getLast hlast
  obtain rfl := eq_nil_of_head hbefore hfirst
  exact hcore

/-! ## The first and the last token -/

/-- The first token of the source is no trivia. -/
def StartsSignificant (source : String) : Prop :=
  ∃ t rest, Token.tokenize source = .ok (t :: rest) ∧ t.isTrivia = false

/-- The last token of the source in front of its end of input is no trivia. -/
def EndsSignificant (source : String) : Prop :=
  ∃ front t last, Token.tokenize source = .ok (front ++ [t, last]) ∧ t.isTrivia = false

/-- Whether a source starts with trivia shows in its tokens. -/
theorem startsSignificant_iff (source : String) :
    StartsSignificant source ↔
      ∃ tokens ∈ (Token.tokenize source).toOption, ∃ t ∈ tokens.head?, t.isTrivia = false := by
  unfold StartsSignificant
  cases Token.tokenize source with
  | error e => simp [Except.toOption]
  | ok tokens => simp [Except.toOption, List.head?_eq_some_iff]

/-- An element is the last but one of a list if another one stands behind it, and nothing else. -/
theorem getLast?_dropLast_eq_some_iff {l : List α} {a : α} :
    l.dropLast.getLast? = some a ↔ ∃ front last, l = front ++ [a, last] := by
  rw [List.getLast?_eq_some_iff]
  constructor
  · rintro ⟨front, hfront⟩
    rcases List.eq_nil_or_concat l with rfl | ⟨init, last, rfl⟩
    · simp at hfront
    · rw [List.concat_eq_append, List.dropLast_concat] at hfront
      rw [List.concat_eq_append, hfront, List.append_assoc]
      exact ⟨front, last, rfl⟩
  · rintro ⟨front, last, rfl⟩
    exact ⟨front, by simp [List.dropLast_append_of_ne_nil]⟩

/-- Whether a source ends with trivia shows in its tokens. -/
theorem endsSignificant_iff (source : String) :
    EndsSignificant source ↔
      ∃ tokens ∈ (Token.tokenize source).toOption,
        ∃ t ∈ tokens.dropLast.getLast?, t.isTrivia = false := by
  unfold EndsSignificant
  cases Token.tokenize source with
  | error e => simp [Except.toOption]
  | ok tokens =>
      simp only [Except.toOption, Option.mem_def, Option.some.injEq, exists_eq_left',
        Except.ok.injEq, getLast?_dropLast_eq_some_iff]
      constructor
      · rintro ⟨front, t, last, htokens, ht⟩
        exact ⟨t, ⟨front, last, htokens⟩, ht⟩
      · rintro ⟨t, ⟨front, last, htokens⟩, ht⟩
        exact ⟨front, t, last, htokens, ht⟩

instance (source : String) : Decidable (StartsSignificant source) :=
  decidable_of_iff _ (startsSignificant_iff source).symm

instance (source : String) : Decidable (EndsSignificant source) :=
  decidable_of_iff _ (endsSignificant_iff source).symm

/-- The tokens of a source that splits are of the kinds, with the end of input behind them. -/
theorem SplitsInto.map_kind_tokenize {source : String} {tokens : List Token}
    (h : SplitsInto source.toList w) (htokens : Token.tokenize source = .ok tokens) :
    tokens.map (·.kind) = w ++ [.endOfInput] := by
  obtain ⟨tokens', htokens', hkinds⟩ := Token.exists_tokenize_iff.2 h
  cases htokens.symm.trans htokens'
  exact hkinds

/-- Where a source does not start with trivia, the first of its kinds is none. -/
theorem StartsSignificant.head {source : String} (h : StartsSignificant source)
    (hsplits : SplitsInto source.toList w) : ∀ k ∈ w.head?, k.isTrivia = false := by
  obtain ⟨t, rest, htokens, ht⟩ := h
  have hkinds := hsplits.map_kind_tokenize htokens
  intro k hk
  obtain ⟨w', rfl⟩ := List.head?_eq_some_iff.1 hk
  obtain ⟨rfl, -⟩ := List.cons.inj hkinds
  exact ht

/-- Where a source does not end with trivia, the last of its kinds is none. -/
theorem EndsSignificant.getLast {source : String} (h : EndsSignificant source)
    (hsplits : SplitsInto source.toList w) : ∀ k ∈ w.getLast?, k.isTrivia = false := by
  obtain ⟨front, t, last, htokens, ht⟩ := h
  have hkinds := hsplits.map_kind_tokenize htokens
  intro k hk
  obtain ⟨w', rfl⟩ := List.getLast?_eq_some_iff.1 hk
  rw [List.map_append, List.append_assoc] at hkinds
  obtain ⟨-, hend⟩ := List.append_inj' hkinds rfl
  obtain ⟨rfl, -⟩ := List.cons.inj hend
  exact ht

/-- Where the first of the kinds is no trivia, a source does not start with any. -/
theorem SplitsInto.startsSignificant {source : String} {k : Kind}
    (h : SplitsInto source.toList (k :: w)) (hk : k.isTrivia = false) :
    StartsSignificant source := by
  obtain ⟨tokens, htokens, hkinds⟩ := Token.exists_tokenize_iff.2 h
  obtain ⟨t, rest, rfl, rfl, -⟩ := List.map_eq_cons_iff.1 hkinds
  exact ⟨t, rest, htokens, hk⟩

/-- Where the last of the kinds is no trivia, a source does not end with any. -/
theorem SplitsInto.endsSignificant {source : String} {k : Kind}
    (h : SplitsInto source.toList (w ++ [k])) (hk : k.isTrivia = false) :
    EndsSignificant source := by
  obtain ⟨tokens, htokens, hkinds⟩ := Token.exists_tokenize_iff.2 h
  obtain ⟨body, last, rfl, hbody, -⟩ := Token.exists_eq_append_end hkinds
  obtain ⟨front, t, rfl, -, ht⟩ := List.map_eq_append_iff.1 hbody
  obtain ⟨t, rfl, rfl⟩ := List.map_eq_singleton_iff.1 ht
  rw [List.append_assoc] at htokens
  exact ⟨front, t, last, htokens, hk⟩

end ExprFront
