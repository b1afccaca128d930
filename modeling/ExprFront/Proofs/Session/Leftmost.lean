/-
# Errors are leftmost

Tokens that are not accepted are refused with an error that can be acted on and comes in time.  What
stands in front of the token that it points at, with anything there that starts the expected
construct, is the beginning of accepted tokens; and no accepted tokens begin with what reaches one
token further than that.  The main result is `Entry.reportsLeftmost_standard`.
-/
import Mathlib
import ExprFront.Proofs.Grammar.Locality
import ExprFront.Proofs.Grammar.Repair
import ExprFront.Proofs.Session.Acceptance

namespace ExprFront

open Cursor

variable {α : Type} {entry : Entry α} {language : List Kind → α → Prop}

/-! ## Where a run stops -/

/-- With anything behind them that starts the production, the kinds are the beginning of a sentence.
Where the end of input is expected, they are a sentence as they are. -/
def Repairable (language : List Kind → α → Prop) (production : Production) (u : List Kind) : Prop :=
  (production = .endOfInput → ∃ v, Sentence language u v) ∧
    (production ≠ .endOfInput →
      ∀ k, production.StartsWith k → ∃ tail v, Sentence language (u ++ k :: tail) v)

/-- The entry refuses the tokens behind those of the kinds `u`, where it expects the production.
It refuses all tokens that agree with them up to one token further. -/
structure Entry.StopsBehind (entry : Entry α) (language : List Kind → α → Prop)
    (tokens : List Token) (u : List Kind) (production : Production) (d : Cursor) : Prop where
  passes : (Token.startCursor tokens).Passes u d
  endOfInput_notMem : .endOfInput ∉ u
  error : entry.parseTokens tokens = .error (.expectedAt production d)
  repairable : Repairable language production u
  refuses : ∀ tokens', (Token.startCursor tokens).Agrees (Token.startCursor tokens')
    (u.length + 2) → ∀ v, entry.parseTokens tokens' ≠ .ok v

/-- What the errors of an entry rest on: its rule recognizes the language and reads locally, where
it fails it awaits the rest of a phrase, and what starts its production is a phrase. -/
structure Entry.Reports (entry : Entry α) (language : List Kind → α → Prop) : Prop where
  reads : entry.Reads language
  localAt : ∀ c, Rule.LocalAt (entry.rule .standard) 2 c
  awaits : ∀ c f, entry.rule .standard c = .error f → c.Awaits f fun w => ∃ v, language w v
  starts : ∀ k, entry.production.StartsWith k → ∃ v, language [k] v
  production_ne : entry.production ≠ .endOfInput

namespace Entry

variable {tokens : List Token} {before : List Kind}

section Cases

variable (h : entry.Reports language) (hbefore : ∀ k ∈ before, k.isTrivia = true)
  (hpasses : (Token.startCursor tokens).Passes before (Token.startCursor tokens).skipTrivia)
  (hagrees : ∀ d n, (Token.startCursor tokens).Agrees d (before.length + (n + 1)) →
    (Token.startCursor tokens).skipTrivia.Agrees d.skipTrivia (n + 1))

include h hbefore hpasses hagrees

/-- Where the rule does not apply, the run stops in front of it. -/
theorem stopsBehind_of_noMatch
    (hnone : entry.rule .standard (Token.startCursor tokens).skipTrivia = .ok .noMatch) :
    entry.StopsBehind language tokens before entry.production
      (Token.startCursor tokens).skipTrivia where
  passes := hpasses
  endOfInput_notMem := Kind.endOfInput_notMem_of_isTrivia hbefore
  error := by rw [parseTokens_eq h.reads.recognizes rfl, hnone]
  repairable := by
    refine ⟨fun hend => absurd hend h.production_ne, fun _ k hk => ?_⟩
    obtain ⟨v, hv⟩ := h.starts k hk
    exact ⟨[], v, before, [k], [], rfl, hbefore, by simp, hv⟩
  refuses tokens' htokens v := by
    have hnone' := (h.localAt _).decides_of_noMatch hnone _ (hagrees _ 1 htokens)
    rw [parseTokens_eq h.reads.recognizes rfl, hnone']
    intro hok
    cases hok

/-- Where the rule fails, the run stops. -/
theorem exists_stopsBehind_of_error {f : Failure}
    (herror : entry.rule .standard (Token.startCursor tokens).skipTrivia = .error f) :
    ∃ u production d, entry.StopsBehind language tokens u production d := by
  obtain ⟨production, w, d, rfl, hw, hproduction, hrepair⟩ := h.awaits _ _ herror
  obtain ⟨production', m, hm, hf, hlocal⟩ := (h.localAt _).decides_of_error herror
  -- The two descriptions of the failure are of the same place.
  have hlength : w.length = m := by
    rw [← hw.since, ← hm.since, Cursor.since, Cursor.since]
    exact congrArg (· - _) (Failure.expected.inj hf).2
  have hwend : .endOfInput ∉ w := by
    obtain ⟨k, hk⟩ := Production.exists_startsWith hproduction
    obtain ⟨tail, v, hv⟩ := hrepair k hk
    exact fun hmem => h.reads.endOfInput_notMem _ v hv (List.mem_append_left _ hmem)
  refine ⟨before ++ w, production, d, hpasses.trans hw, ?_, ?_, ?_, ?_⟩
  · simp [Kind.endOfInput_notMem_of_isTrivia hbefore, hwend]
  · have htokens : (Token.startCursor tokens).skipTrivia.tokens = d.tokens := by
      rw [hw.stop_eq, tokens_advanceBy]
    rw [parseTokens_eq h.reads.recognizes rfl, herror]
    exact congrArg Except.error (htokens ▸ Failure.report_expecting production d)
  · refine ⟨fun hend => absurd hend hproduction, fun _ k hk => ?_⟩
    obtain ⟨tail, v, hv⟩ := hrepair k hk
    exact ⟨tail, v, before, w ++ k :: tail, [], by simp, hbefore, by simp, hv⟩
  · intro tokens' htokens v
    rw [List.length_append, hlength] at htokens
    have herror' := hlocal _ (hagrees _ (m + 1) (htokens.mono (by omega)))
    rw [parseTokens_eq h.reads.recognizes rfl, herror']
    intro hok
    cases hok

/-- Where something stands behind a match, the run stops. -/
theorem exists_stopsBehind_of_matched {v : α} {n : Nat}
    (hmatch : entry.rule .standard (Token.startCursor tokens).skipTrivia = .ok (.matched v n))
    (hend : ((Token.startCursor tokens).skipTrivia.advanceBy n).skipTrivia.headKind ≠ none) :
    ∃ u production d, entry.StopsBehind language tokens u production d := by
  obtain ⟨w, rfl, hw, hwend, hv⟩ := h.reads.recognizes.exists_passes hmatch
  obtain ⟨after, hafter, hskip, hbehind⟩ := exists_passes_skipTrivia_agrees
    ((Token.startCursor tokens).skipTrivia.advanceBy w.length)
  refine ⟨_, .endOfInput, _, hpasses.trans (hw.trans hskip), ?_, ?_, ?_, ?_⟩
  · simp [Kind.endOfInput_notMem_of_isTrivia hbefore, hwend,
      Kind.endOfInput_notMem_of_isTrivia hafter]
  · rw [parseTokens_eq h.reads.recognizes rfl, hmatch]
    exact if_neg hend
  · exact ⟨fun _ => ⟨v, before, w, after, rfl, hbefore, hafter, hv⟩, fun hne => absurd rfl hne⟩
  · intro tokens' htokens v'
    simp only [List.length_append] at htokens
    have hstart := hagrees _ (w.length + after.length + 1) (htokens.mono (by omega))
    have hmatch' := (h.localAt _).decides_of_matched hmatch _ (hstart.mono (by omega))
    have hstop := hbehind _ 1 (hstart.advanceBy (hw.shows hwend) (by omega))
    rw [parseTokens_eq h.reads.recognizes rfl, hmatch']
    simp only
    rw [if_neg (by rw [hstop.headKind (by omega)]; exact hend)]
    intro hok
    cases hok

end Cases

/-- **Tokens are accepted, or the run stops behind some of them.** -/
theorem Reports.exists_stopsBehind (h : entry.Reports language) (tokens : List Token)
    (hnot : ∀ v, entry.parseTokens tokens ≠ .ok v) :
    ∃ u production d, entry.StopsBehind language tokens u production d := by
  obtain ⟨before, hbefore, hpasses, hagrees⟩ :=
    exists_passes_skipTrivia_agrees (Token.startCursor tokens)
  cases hrule : entry.rule .standard (Token.startCursor tokens).skipTrivia with
  | error f => exact exists_stopsBehind_of_error h hbefore hpasses hagrees hrule
  | ok outcome =>
      cases outcome with
      | noMatch => exact ⟨_, _, _, stopsBehind_of_noMatch h hbefore hpasses hagrees hrule⟩
      | matched v n =>
          refine exists_stopsBehind_of_matched h hbefore hpasses hagrees hrule fun hend => ?_
          exact hnot v ((parseTokens_eq_ok_iff h.reads.recognizes).2 ⟨n, hrule, hend⟩)

/-! ## What the errors say -/

/-- The error points at the token with the index `k`: it is placed there, it names the construct
that is expected and what stands there instead.  With a token there that starts the construct, the
tokens in front of it are the beginning of accepted ones; where the end of input is expected they
are accepted as they are.  No accepted tokens agree with these up to one token behind the index. -/
structure Pinpoints (entry : Entry α) (tokens : List Token) (e : ParseError)
    (production : Production) (k : Nat) : Prop where
  expected : e.expected? = some production
  placed : ∃ t, tokens[k]? = some t ∧ e.location = t.span.location ∧
    e.message = s!"expected {production.text}, found {t.kind.describe}"
  complete : production = .endOfInput → ∃ v, entry.Accepts (tokens.take k) v
  repaired : production ≠ .endOfInput → (∃ kind, production.StartsWith kind) ∧
    ∀ t : Token, production.StartsWith t.kind →
      ∃ tail v, entry.Accepts (tokens.take k ++ t :: tail) v
  leftmost : ∀ w' v, entry.Accepts w' v →
    ¬ (tokens.map (·.kind)).take (k + 2) <+: w'.map (·.kind) ++ [.endOfInput]

/-- The entry refuses whatever it does not accept with an error that points at a token. -/
def ReportsLeftmost (entry : Entry α) : Prop :=
  ∀ (w : List Token) (last : Token), (∀ t ∈ w, t.kind ≠ .endOfInput) → last.kind = .endOfInput →
    (¬ ∃ v, entry.Accepts w v) →
    ∃ e production k, entry.parseTokens (w ++ [last]) = .error e ∧
      entry.Pinpoints (w ++ [last]) e production k

namespace StopsBehind

variable {w : List Token} {last : Token} {u : List Kind} {production : Production} {d : Cursor}

/-- A run stops at one of the tokens, and in front of it stand tokens of the kinds that it has
passed. -/
theorem take (h : entry.StopsBehind language (w ++ [last]) u production d)
    (hlast : last.kind = .endOfInput) :
    u.length ≤ w.length ∧ ((w ++ [last]).take u.length).map (·.kind) = u := by
  have hkinds := h.passes.kinds_eq
  rw [Token.kinds_startCursor w hlast] at hkinds
  obtain ⟨x, hx⟩ : ∃ x, w.map (·.kind) = u ++ x := by
    rcases List.append_eq_append_iff.1 hkinds with ⟨x, rfl, hx⟩ | ⟨x, hx, -⟩
    · -- What is passed does not reach over the end of input.
      cases x with
      | nil => exact ⟨[], by simp⟩
      | cons k x =>
          obtain ⟨rfl, -⟩ := List.cons.inj hx
          exact absurd (by simp) h.endOfInput_notMem
    · exact ⟨x, hx⟩
  have hle : u.length ≤ w.length := by
    have := congrArg List.length hx
    simp only [List.length_map, List.length_append] at this
    omega
  refine ⟨hle, ?_⟩
  rw [List.take_append_of_le_length hle, List.map_take, hx, List.take_left]

/-- The token that a run stops at. -/
theorem exists_current (h : entry.StopsBehind language (w ++ [last]) u production d)
    (hlast : last.kind = .endOfInput) :
    ∃ t, (w ++ [last])[u.length]? = some t ∧ d.current = some t := by
  obtain ⟨hle, -⟩ := h.take hlast
  have hlt : u.length < (w ++ [last]).length := by
    rw [List.length_append, List.length_singleton]
    omega
  refine ⟨_, List.getElem?_eq_getElem hlt, ?_⟩
  rw [← List.getElem?_eq_getElem hlt, h.passes.stop_eq, current]
  simp [Session.start, Session.cursor, atPosition, Token.withEnd_append_end w hlast,
    Nat.min_eq_left (Nat.le_succ_of_le hle)]

end StopsBehind

/-- **Tokens that are not accepted are refused by an error that points at one of them.** -/
theorem Reports.reportsLeftmost (h : entry.Reports language) : entry.ReportsLeftmost := by
  intro w last hw hlast hnot
  have hend := Token.endOfInput_notMem_map_kind hw
  have hrefused (v : α) : entry.parseTokens (w ++ [last]) ≠ .ok v := by
    rw [ne_eq, h.reads.parseTokens_append_iff hend hlast, ← h.reads.accepts_iff]
    exact fun hv => hnot ⟨v, hv⟩
  obtain ⟨u, production, d, hstop⟩ := h.exists_stopsBehind _ hrefused
  obtain ⟨hle, htake⟩ := hstop.take hlast
  obtain ⟨t, ht, hcurrent⟩ := hstop.exists_current hlast
  refine ⟨_, production, u.length, hstop.error, ?_⟩
  rw [ParseError.expectedAt, hcurrent]
  refine ⟨rfl, ⟨t, ht, rfl, rfl⟩, fun hproduction => ?_, fun hproduction => ?_, ?_⟩
  · obtain ⟨v, hv⟩ := hstop.repairable.1 hproduction
    exact ⟨v, h.reads.accepts_iff.2 (by rwa [htake])⟩
  · refine ⟨Production.exists_startsWith hproduction, fun s hs => ?_⟩
    obtain ⟨tail, v, hv⟩ := hstop.repairable.2 hproduction s.kind hs
    refine ⟨tail.map fun k => ⟨k, 0, 0, .start⟩, v, h.reads.accepts_iff.2 ?_⟩
    simpa [htake, Function.comp_def] using hv
  · intro w' v hv hprefix
    refine hstop.refuses (w' ++ [last]) (Agrees.of_prefix ?_ ?_) v (hv.2 last hlast)
    · rw [Token.kinds_startCursor w hlast, Token.kinds_startCursor w' hlast]
      simpa [hlast] using hprefix
    · simp [Token.kinds_startCursor w hlast]

/-! ## The three entry points -/

/-- The entry for expressions reports as it should. -/
theorem reports_expression : Entry.expression.Reports fun w e => Derives w (.expression e) where
  reads := reads_expression
  localAt := Grammar.localAt_expression_standard
  awaits _ _ h := Grammar.awaits_of_expression (fun d _ => Layer.repairableAt_standard d) h
  starts _ hk := Grammar.derives_of_startsWith hk
  production_ne := nofun

/-- The entry for lists reports as it should. -/
theorem reports_expressionList :
    Entry.expressionList.Reports fun w es => Derives w (.members es) where
  reads := reads_expressionList
  localAt := Grammar.localAt_expressionList_standard
  awaits _ _ h := Grammar.awaits_of_expressionList (fun d _ => Layer.repairableAt_standard d) h
  starts _ hk := by
    obtain ⟨e, he⟩ := Grammar.derives_of_startsWith hk
    exact ⟨_, .single he⟩
  production_ne := nofun

/-- The entry for patterns reports as it should. -/
theorem reports_pattern : Entry.pattern.Reports DerivesPattern where
  reads := reads_pattern
  localAt c := (Grammar.localAt_pattern c).mono (Nat.le_succ 1)
  awaits _ _ h := Grammar.awaits_of_pattern h
  starts _ hk := by
    cases hk with
    | pattern name => exact ⟨_, .bare (k := .identifier name) rfl⟩
  production_ne := nofun

/-- **Errors are leftmost and can be acted on**, for the three entry points. -/
theorem reportsLeftmost_standard : Entry.expression.ReportsLeftmost ∧
    Entry.expressionList.ReportsLeftmost ∧ Entry.pattern.ReportsLeftmost :=
  ⟨reports_expression.reportsLeftmost, reports_expressionList.reportsLeftmost,
    reports_pattern.reportsLeftmost⟩

/-- In `a+(b)` the operator is what is found where the end of input is expected.  It is the
parenthesis behind it that no accepted tokens have there: without that the operator is a postfix
one. -/
theorem reportsLeftmost_standard_operator :
    let tokens : List Token := [⟨.identifier (.plain "a"), ⟨0, 1, ⟨1, 1⟩⟩⟩,
      ⟨.operator "+", ⟨1, 2, ⟨1, 2⟩⟩⟩, ⟨.punctuator .leftParen, ⟨2, 3, ⟨1, 3⟩⟩⟩,
      ⟨.identifier (.plain "b"), ⟨3, 4, ⟨1, 4⟩⟩⟩, ⟨.punctuator .rightParen, ⟨4, 5, ⟨1, 5⟩⟩⟩]
    let last : Token := ⟨.endOfInput, ⟨5, 5, ⟨1, 6⟩⟩⟩
    let e : ParseError := ⟨.expected .endOfInput (.operator "+"), ⟨1, 2⟩⟩
    Entry.expression.parseTokens (tokens ++ [last]) = .error e ∧
      Entry.expression.Pinpoints (tokens ++ [last]) e .endOfInput 1 := by
  intro tokens last e
  have herror : Entry.expression.parseTokens (tokens ++ [last]) = .error e := by cbv
  refine ⟨herror, ?_⟩
  have hnot : ¬ ∃ v, Entry.expression.Accepts tokens v := by
    rintro ⟨v, -, hv⟩
    cases herror.symm.trans (hv last rfl)
  obtain ⟨e', production, k, herror', hpoints⟩ :=
    reportsLeftmost_standard.1 tokens last (by simp [tokens]) rfl hnot
  cases herror.symm.trans herror'
  obtain rfl : Production.endOfInput = production := Option.some.inj hpoints.expected
  obtain ⟨t, ht, hlocation, -⟩ := hpoints.placed
  -- No other of the tokens is located there.
  have honly : ∀ k < 6, (tokens ++ [last])[k]?.map (·.span.location) = some ⟨1, 2⟩ → k = 1 := by
    decide
  obtain ⟨hlt, -⟩ := List.getElem?_eq_some_iff.1 ht
  obtain rfl := honly k hlt (by rw [ht]; exact congrArg some hlocation.symm)
  exact hpoints

end Entry

end ExprFront
