/-
# What a session has done does not matter

The rules look at a few tokens in front of their cursor and at nothing else, neither at how many
tokens lie behind it nor at what stands behind an end of input.  So a session answers as one that
starts with the tokens that are left, and it gets as much further: `Session.perform_restart`.

The main fact is `local_and_independent_of_history`, which states both for all six rules of the
standard layer and for every operation of every run.
-/
import ExprFront.Proofs.Grammar.Coincidence
import ExprFront.Proofs.Session.Run

namespace ExprFront

open Cursor

variable {α β : Type}

/-! ## Operations look ahead -/

/-- A rule with another value looks as far ahead. -/
theorem Rule.LooksAhead.map {rule : Rule α} (h : rule.LooksAhead) (g : α → β) :
    Rule.LooksAhead fun c => (rule c).map (·.map g) := by
  refine ⟨?_, ?_, ?_⟩
  · intro c d v n hmatch hd
    obtain ⟨u, hu, rfl⟩ := RuleResult.map_eq_matched_iff.1 hmatch
    exact RuleResult.map_eq_matched_iff.2 ⟨u, h.matched c d u n hu hd, rfl⟩
  · intro c d hnone hd
    exact RuleResult.map_eq_noMatch_iff.2
      (h.noMatch c d (RuleResult.map_eq_noMatch_iff.1 hnone) hd)
  · intro c f hf
    obtain ⟨production, k, hpos, hk, herror⟩ := h.error c f (RuleResult.map_eq_error_iff.1 hf)
    refine ⟨production, k, hpos, hk, fun d hd => ?_⟩
    obtain ⟨hd, hreport⟩ := herror d hd
    exact ⟨RuleResult.map_eq_error_iff.2 hd, hreport⟩

namespace Grammar

/-- Expressions are local. -/
theorem isLocal_expression : Rule.IsLocal (expression .standard) :=
  Rule.isLocal_of localAt_expression_standard failsBehind_expression

/-- Lists are local. -/
theorem isLocal_expressionList : Rule.IsLocal (expressionList .standard) :=
  Rule.isLocal_of localAt_expressionList_standard failsBehind_expressionList

/-- Operands are local. -/
theorem isLocal_operand : Rule.IsLocal (operand .standard) :=
  Rule.isLocal_of (fun c => (localAt_operand_standard c).mono (Nat.le_succ 1)) failsBehind_operand

/-- Patterns are local. -/
theorem isLocal_pattern : Rule.IsLocal pattern :=
  Rule.isLocal_of (fun c => (localAt_pattern c).mono (Nat.le_succ 1)) failsBehind_pattern

/-- Ascriptions are local. -/
theorem isLocal_typeAscription : Rule.IsLocal typeAscription :=
  Rule.isLocal_of (fun c => (localAt_typeAscription c).mono (Nat.le_succ 1))
    failsBehind_typeAscription

/-- Types are local. -/
theorem isLocal_type : Rule.IsLocal type :=
  Rule.isLocal_of (fun c => (localAt_type c).mono (Nat.le_succ 1)) failsBehind_type

end Grammar

/-- Skipping trivia looks ahead. -/
theorem Operation.looksAhead_skipTrivia :
    Rule.LooksAhead (Operation.skipTrivia.entry.rule .standard) := by
  refine ⟨?_, nofun, nofun⟩
  intro c d v n hmatch hd
  cases hmatch
  obtain ⟨m, hm, hskip⟩ := c.exists_decides_skipTrivia
  have hcount : c.skipTrivia.since c = m := by rw [hskip.self, hm.since]
  rw [hcount] at hd ⊢
  show Except.ok (Outcome.matched Node.nothing (d.skipTrivia.since d)) = _
  rw [hskip d (hd.mono (by omega)), (hd.shows hm (by omega)).since]

/-- Asking for the end of input looks ahead. -/
theorem Operation.looksAhead_expectEnd :
    Rule.LooksAhead (Operation.expectEnd.entry.rule .standard) := by
  have same {c d : Cursor} {n : Nat} (hd : c.Agrees d (n + 1)) :
      Operation.expectEnd.entry.rule .standard d = Operation.expectEnd.entry.rule .standard c := by
    have hhead : d.head.isNone = c.head.isNone := by
      rw [← Option.isNone_map (f := Token.kind), ← Option.isNone_map (f := Token.kind)]
      exact congrArg Option.isNone (hd.headKind (Nat.succ_pos n))
    simp only [entry, hhead]
  refine ⟨?_, ?_, ?_⟩
  · intro c d v n hmatch hd
    rw [same hd, hmatch]
  · intro c d hnone hd
    rw [same hd, hnone]
  · intro c f hf
    cases hf

/-- **Every operation looks ahead.** -/
theorem Operation.looksAhead (op : Operation) : Rule.LooksAhead (op.entry.rule .standard) := by
  cases op with
  | expression => exact Grammar.isLocal_expression.toLooksAhead.map _
  | expressionList => exact Grammar.isLocal_expressionList.toLooksAhead.map _
  | pattern => exact Grammar.isLocal_pattern.toLooksAhead.map _
  | typeAscription => exact Grammar.isLocal_typeAscription.toLooksAhead.map _
  | skipTrivia => exact looksAhead_skipTrivia
  | expectEnd => exact looksAhead_expectEnd

/-! ## Starting with the tokens that are left -/

namespace Token

/-- Tokens that end get no other end. -/
theorem withEnd_eq_self {tokens : List Token}
    (h : (tokens.map (·.kind)).getLast? = some .endOfInput) : withEnd tokens = tokens := by
  obtain ⟨body, hbody⟩ := List.getLast?_eq_some_iff.1 h
  exact withEnd_of_map_kind hbody

/-- Where tokens are left, they end as all of them do. -/
theorem withEnd_drop {tokens : List Token} {n : Nat} (h : n < tokens.length) :
    withEnd (tokens.drop n) = (withEnd tokens).drop n := by
  have hlast : (tokens.drop n).getLast? = tokens.getLast? := by
    rw [List.getLast?_drop, if_neg (Nat.not_le.2 h)]
  unfold withEnd
  rw [hlast]
  split
  · next hnone =>
      rw [List.getLast?_eq_none_iff.1 hnone] at h
      cases h
  · split
    · rfl
    · rw [List.drop_append_of_le_length (Nat.le_of_lt h)]

end Token

namespace Session

variable {s : Session} {tokens : List Token}

/-- A session that starts with the tokens that are left. -/
def restart (s : Session) : Session := start s.layer (s.tokens.toList.drop s.position)

/-- The tokens that are left end. -/
theorem RunsOver.tokens_restart {layer : Layer} (h : RunsOver layer tokens s) :
    s.restart.tokens.toList = s.tokens.toList.drop s.position := by
  have hends : ((s.tokens.toList.drop s.position).map (·.kind)).getLast? = some .endOfInput := by
    rw [List.map_drop, List.getLast?_drop, if_neg, h.ends]
    rw [List.length_map, Array.length_toList]
    exact Nat.not_le.2 h.position_lt
  exact Token.withEnd_eq_self hends

/-- A session and the one that starts with the tokens that are left are in front of the same
tokens. -/
theorem RunsOver.coincides_restart {layer : Layer} (h : RunsOver layer tokens s) (n : Nat) :
    s.cursor.Coincides s.restart.cursor n := by
  refine Coincides.of_take ?_
  have hleft : s.restart.cursor.tokens.toList.drop s.restart.cursor.position =
      s.cursor.tokens.toList.drop s.cursor.position := by
    rw [position_cursor h.position_lt]
    show s.restart.tokens.toList.drop (min 0 _) = s.tokens.toList.drop s.position
    rw [Nat.zero_min, List.drop_zero, h.tokens_restart]
  rw [hleft]

/-- **A session answers as one that starts with the tokens that are left**, and gets as much
further. -/
theorem RunsOver.perform_restart (h : RunsOver .standard tokens s) (op : Operation) :
    (s.perform op).result = (s.restart.perform op).result ∧
      (s.perform op).session.position =
        s.position + (s.restart.perform op).session.position := by
  have hrestart : RunsOver .standard (s.tokens.toList.drop s.position) s.restart := by
    rw [restart, h.layer_eq]
    exact runsOver_start .standard _
  have hcoincides := h.coincides_restart
  rcases op.looksAhead.eq_or_error hcoincides with ⟨o, ho, ho'⟩ | ⟨production, k, hf, hf', hreport⟩
  · cases o with
    | matched v n =>
        obtain ⟨hresult, hsession⟩ := h.perform_of_matched ho
        obtain ⟨hresult', hsession'⟩ := hrestart.perform_of_matched ho'
        rw [hresult, hresult', hsession, hsession']
        exact ⟨rfl, congrArg (s.position + ·) (Nat.zero_add n).symm⟩
    | noMatch =>
        have hpeek : s.restart.cursor.current = s.cursor.current := by
          simpa using hcoincides 1 0 Nat.zero_lt_one (shows_zero _)
        obtain ⟨t, ht⟩ := exists_peek h.position_lt
        have hexpected : ParseError.expectedAt op.entry.production s.cursor =
            .expectedAt op.entry.production s.restart.cursor := by
          rw [ParseError.expectedAt, show s.cursor.current = some t from ht, ParseError.expectedAt,
            hpeek, show s.cursor.current = some t from ht]
        rw [← h.layer_eq] at ho
        rw [← hrestart.layer_eq] at ho'
        rw [perform_eq_parse, perform_eq_parse, parse, ho, parse, ho', hexpected]
        exact ⟨rfl, rfl⟩
  · rw [← h.layer_eq] at hf
    rw [← hrestart.layer_eq] at hf'
    rw [perform_eq_parse, perform_eq_parse, parse, hf, parse, hf']
    exact ⟨congrArg Except.error hreport.symm, rfl⟩

/-- Before the end that was added, the tokens that are left are left of those that were given. -/
theorem RunsOver.restart_eq {layer : Layer} (h : RunsOver layer tokens s)
    (hlt : s.position < tokens.length) : s.restart = start layer (tokens.drop s.position) := by
  have htokens : s.tokens.toList = Token.withEnd tokens := by rw [h.tokens_eq]
  have hleft := h.tokens_restart
  rw [restart, h.layer_eq] at hleft ⊢
  rw [start, start, Session.mk.injEq]
  refine ⟨rfl, ?_, rfl⟩
  rw [Token.withEnd_drop hlt, ← htokens]
  exact congrArg List.toArray hleft

/-- How a session over the standard layer goes on: as one that starts with the tokens that are
left. -/
structure IndependentOfHistory (tokens : List Token) (s : Session) : Prop where
  /-- Each operation has the result that it has there. -/
  result_eq : ∀ op, (s.perform op).result = (s.restart.perform op).result
  /-- It leads as much further. -/
  position_eq : ∀ op, (s.perform op).session.position =
    s.position + (s.restart.perform op).session.position
  /-- As long as tokens that were given are left, these are the ones to start with. -/
  restart_eq : s.position < tokens.length → s.restart = start .standard (tokens.drop s.position)

end Session

/-! ## The standard layer -/

/-- **Rules are local, and history does not matter.**  Each rule of the standard layer answers by
the tokens in front of its cursor, up to an end of input at most.  In every state that a run
reaches, each operation has the result that it has where a session starts with the tokens that are
left, and the position is moved as far. -/
theorem local_and_independent_of_history :
    (Rule.IsLocal (Grammar.expression .standard) ∧
      Rule.IsLocal (Grammar.expressionList .standard) ∧
      Rule.IsLocal (Grammar.operand .standard) ∧ Rule.IsLocal Grammar.pattern ∧
      Rule.IsLocal Grammar.typeAscription ∧ Rule.IsLocal Grammar.type) ∧
    ∀ (tokens : List Token) (ops : List Operation),
      ((Session.start .standard tokens).after ops).IndependentOfHistory tokens := by
  refine ⟨⟨Grammar.isLocal_expression, Grammar.isLocal_expressionList, Grammar.isLocal_operand,
    Grammar.isLocal_pattern, Grammar.isLocal_typeAscription, Grammar.isLocal_type⟩, ?_⟩
  intro tokens ops
  have h := Session.runsOver_after .standard tokens ops
  exact ⟨fun op => (h.perform_restart op).1, fun op => (h.perform_restart op).2, h.restart_eq⟩

end ExprFront
