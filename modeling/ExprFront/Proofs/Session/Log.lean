/-
# The log of a run

Every operation of a session reports one event at most.  A rule of the grammar that succeeds reports
where it was and what it claimed, trivia are reported exactly if there are some, and what fails
reports its own error.

So the log alone tells what a run did.  `Event.replay` follows the movements in it, and after every
part of the run it is where the session is.  The main fact is `Session.faithful_log`.
-/
import ExprFront.Proofs.Session.Run
import ExprFront.Proofs.Grammar.Progress

namespace ExprFront

open Cursor

variable {α : Type}

/-! ## Reading a log -/

namespace Event

/-- The error that the event reports. -/
def error? : Event → Option ParseError
  | .advance _ _ => none
  | .failed error => some error

/-- Where the event leads from the position, if the last token is at `last`. -/
def move (last position : Nat) : Event → Nat
  | .advance _ consumed => min (position + consumed) last
  | .failed _ => position

/-- Where the events lead from the position, one after the other. -/
def replay (last : Nat) (events : List Event) (position : Nat) : Nat :=
  events.foldl (move last) position

/-- A replay goes on where its first part leads. -/
theorem replay_append (last : Nat) (events more : List Event) (position : Nat) :
    replay last (events ++ more) position = replay last more (replay last events position) :=
  List.foldl_append

end Event

/-- The error that a turn ends with. -/
def Turn.error? (t : Turn α) : Option ParseError :=
  match t.result with
  | .ok _ => none
  | .error e => some e

/-! ## What a rule counts -/

/-- A rule that recognizes a language counts at least one token. -/
theorem Recognizes.one_le {rule : Rule α} {language : List Kind → α → Prop}
    (h : Recognizes rule language) {c : Cursor} {v : α} {n : Nat}
    (hmatch : rule c = .ok (.matched v n)) : 1 ≤ n := by
  obtain ⟨w, rfl, -, -, hne⟩ := h.exists_passes_ne_nil hmatch
  exact List.length_pos_iff.2 hne

/-- **A rule of the grammar counts at least one token**, whatever the layer claims. -/
theorem Operation.one_le_of_isParse {op : Operation} (hop : op.isParse = true) {layer : Layer}
    {c : Cursor} {v : Node} {n : Nat} (hc : c.position < c.tokens.size)
    (h : op.entry.rule layer c = .ok (.matched v n)) : 1 ≤ n := by
  cases op with
  | expression =>
      obtain ⟨e, he, -⟩ := RuleResult.map_eq_matched_iff.1 h
      exact Grammar.one_le_of_expression he
  | expressionList =>
      obtain ⟨es, hes, -⟩ := RuleResult.map_eq_matched_iff.1 h
      exact (Grammar.bounds_of_expressionList hes).2.1 hc
  | pattern =>
      obtain ⟨p, hp, -⟩ := RuleResult.map_eq_matched_iff.1 h
      exact Grammar.recognizes_pattern.one_le hp
  | typeAscription =>
      obtain ⟨a, ha, -⟩ := RuleResult.map_eq_matched_iff.1 h
      exact Grammar.recognizes_typeAscription.one_le ha
  | skipTrivia => cases hop
  | expectEnd => cases hop

namespace Session

variable {s : Session} {layer : Layer} {tokens : List Token} {op : Operation}

/-! ## What an operation reports -/

/-- A turn of the session that stays, moves or fails, with what it reports. -/
inductive Reported (s : Session) : Turn Node → Prop
  | stayed (v : Node) : Reported s ⟨.ok v, s, []⟩
  | moved (v : Node) {n : Nat} (hn : 1 ≤ n) :
      Reported s ⟨.ok v, s.moveTo (min (s.position + n) (s.tokens.size - 1)),
        [.advance s.position n]⟩
  | failed (e : ParseError) : Reported s ⟨.error e, s, [.failed e]⟩

/-- A movement is reported, unless it is one of no tokens. -/
theorem advance_eq (s : Session) (v : α) (n : Nat) :
    n = 0 ∧ s.advance v n = ⟨.ok v, s, []⟩ ∨
      1 ≤ n ∧ s.advance v n = ⟨.ok v, s.moveTo (min (s.position + n) (s.tokens.size - 1)),
        [.advance s.position n]⟩ := by
  by_cases hn : n = 0
  · exact .inl ⟨hn, if_pos hn⟩
  · exact .inr ⟨Nat.one_le_iff_ne_zero.2 hn, if_neg hn⟩

/-- Every operation stays, moves or fails, and reports it. -/
theorem reported_perform (s : Session) (op : Operation) : Reported s (s.perform op) := by
  rw [perform_eq_parse]
  rcases s.parse_eq_advance_or_fail op.entry with ⟨v, n, -, hparse⟩ | ⟨-, e, hparse⟩
  · rcases s.advance_eq v n with ⟨-, hadvance⟩ | ⟨hn, hadvance⟩
    · rw [hparse, hadvance]
      exact .stayed v
    · rw [hparse, hadvance]
      exact .moved v hn
  · rw [hparse]
    exact .failed e

/-- **A rule of the grammar that succeeds reports its match.** -/
theorem RunsOver.events_of_isParse (h : RunsOver layer tokens s) (hop : op.isParse = true)
    {v : Node} (hv : (s.perform op).result = .ok v) : ∃ n, 1 ≤ n ∧
      op.entry.rule layer s.cursor = .ok (.matched v n) ∧
      (s.perform op).events = [.advance s.position n] := by
  have hcursor : s.cursor.position < s.cursor.tokens.size := by
    rw [position_cursor h.position_lt]
    exact h.position_lt
  rw [perform_eq_parse] at hv ⊢
  rcases s.parse_eq_advance_or_fail op.entry with ⟨u, n, hrule, hparse⟩ | ⟨-, e, hparse⟩
  · rw [hparse, result_advance] at hv
    cases hv
    have hn := Operation.one_le_of_isParse hop hcursor hrule
    rcases s.advance_eq v n with ⟨hzero, -⟩ | ⟨-, hadvance⟩
    · omega
    · refine ⟨n, hn, h.layer_eq ▸ hrule, ?_⟩
      rw [hparse, hadvance]
  · rw [hparse] at hv
    cases hv

/-- **Skipping trivia is reported as far as it moves the session**, and not at all if it does
not. -/
theorem RunsOver.events_of_skipTrivia (h : RunsOver layer tokens s) :
    (s.perform .skipTrivia).session = s ∧ (s.perform .skipTrivia).events = [] ∨
      ∃ n, 1 ≤ n ∧ (s.perform .skipTrivia).session = s.moveTo (s.position + n) ∧
        (s.perform .skipTrivia).events = [.advance s.position n] := by
  have hperform : s.perform .skipTrivia =
      s.advance .nothing (s.cursor.skipTrivia.since s.cursor) := perform_eq_parse s .skipTrivia
  rw [hperform]
  rcases s.advance_eq Node.nothing (s.cursor.skipTrivia.since s.cursor) with
    ⟨-, hadvance⟩ | ⟨hn, hadvance⟩
  · rw [hadvance]
    exact .inl ⟨rfl, rfl⟩
  · -- The end of input is no trivia, so the last token is not passed.
    obtain ⟨w, hw, hpasses, -⟩ := exists_passes_skipTrivia s.cursor
    rw [hpasses.since] at hn hadvance ⊢
    rw [hadvance, h.min_position hpasses (Kind.endOfInput_notMem_of_isTrivia hw)]
    exact .inr ⟨_, hn, rfl, rfl⟩

/-- What asks for the end of input never reports a movement. -/
theorem events_of_expectEnd {v : Node} (hv : (s.perform .expectEnd).result = .ok v) :
    (s.perform .expectEnd).events = [] := by
  show (s.expectEnd.map _).events = []
  by_cases hend : s.isAtEnd = true
  · rw [expectEnd, if_pos hend]
    rfl
  · have hfails : (s.perform .expectEnd).result =
        .error (.expectedAt .endOfInput s.cursor) := by
      show (s.expectEnd.map _).result = _
      rw [expectEnd, if_neg hend]
      rfl
    rw [hfails] at hv
    cases hv

/-- **An entry point passes on the error of its rule**, and reports it. -/
theorem RunsOver.perform_of_error (h : RunsOver layer tokens s) {f : Failure}
    (hf : op.entry.rule layer s.cursor = .error f) :
    (s.perform op).result = .error (f.report s.tokens) ∧
      (s.perform op).events = [.failed (f.report s.tokens)] := by
  rw [← h.layer_eq] at hf
  rw [perform_eq_parse, parse, hf]
  exact ⟨rfl, rfl⟩

/-- What a turn reports leads where it leads. -/
theorem Reported.position_eq {t : Turn Node} (h : Reported s t) :
    t.session.position = Event.replay (s.tokens.size - 1) t.events s.position := by
  cases h <;> rfl

/-- **A turn reports one event at most**, and a movement with the position where it begins. -/
theorem Reported.events_eq {t : Turn Node} (h : Reported s t) :
    t.events = [] ∨ ∃ event, t.events = [event] ∧ ∀ p n, event = .advance p n → p = s.position := by
  cases h with
  | stayed v => exact .inl rfl
  | moved v hn =>
      refine .inr ⟨_, rfl, fun p n hevent => ?_⟩
      cases hevent
      rfl
  | failed e =>
      refine .inr ⟨_, rfl, fun p n hevent => ?_⟩
      cases hevent

/-- A turn never reports two events. -/
theorem Reported.length_events_le {t : Turn Node} (h : Reported s t) : t.events.length ≤ 1 := by
  rcases h.events_eq with hevents | ⟨event, hevents, -⟩
  · rw [hevents]
    exact Nat.zero_le 1
  · rw [hevents]
    exact Nat.le_refl 1

/-- A turn that fails reports its error, and nothing else. -/
theorem Reported.events_of_error {t : Turn Node} (h : Reported s t) {e : ParseError}
    (he : t.result = .error e) : t.events = [.failed e] := by
  cases h <;> cases he
  rfl

/-- The error that a turn reports is the one that it ends with. -/
theorem Reported.error_eq {t : Turn Node} (h : Reported s t) :
    t.events.filterMap Event.error? = t.error?.toList := by
  cases h <;> rfl

/-! ## The log of a run -/

/-- The events that the operations report, in order. -/
def log (s : Session) (ops : List Operation) : List Event := (s.run ops).flatMap (·.events)

/-- The log begins with what the first operation reports. -/
theorem log_cons (s : Session) (op : Operation) (ops : List Operation) :
    s.log (op :: ops) = (s.perform op).events ++ (s.perform op).session.log ops := by
  rw [log, run, List.flatMap_cons]
  rfl

/-- The log of a run goes on with what its second part reports. -/
theorem log_append (s : Session) (ops more : List Operation) :
    s.log (ops ++ more) = s.log ops ++ (s.after ops).log more := by
  rw [log, run_append, List.flatMap_append]
  rfl

/-- The last token has the same index after an operation. -/
theorem RunsOver.size_perform (h : RunsOver layer tokens s) (op : Operation) :
    (s.perform op).session.tokens.size = s.tokens.size := by
  rw [(h.perform op).tokens_eq, h.tokens_eq]

/-- **The log leads where the run leads.** -/
theorem RunsOver.replay_log (h : RunsOver layer tokens s) (ops : List Operation) :
    Event.replay (s.tokens.size - 1) (s.log ops) s.position = (s.after ops).position := by
  induction ops generalizing s with
  | nil => rfl
  | cons op ops ih =>
      have hbehind := ih (h.perform op)
      rw [h.size_perform, (s.reported_perform op).position_eq] at hbehind
      rw [log_cons, Event.replay_append, hbehind, after_cons]

/-- **Each movement in the log begins where the events before it lead.** -/
theorem RunsOver.position_eq_replay (h : RunsOver layer tokens s) {ops : List Operation}
    {before behind : List Event} {p n : Nat}
    (hlog : s.log ops = before ++ .advance p n :: behind) :
    p = Event.replay (s.tokens.size - 1) before s.position := by
  induction ops generalizing s before with
  | nil => exact absurd hlog (by simp [log, run])
  | cons op ops ih =>
      have hreported := s.reported_perform op
      have hmoves := hreported.position_eq
      rw [log_cons] at hlog
      rcases hreported.events_eq with hevents | ⟨event, hevents, hbegins⟩
      · rw [hevents] at hlog hmoves
        have hp := ih (h.perform op) hlog
        rw [h.size_perform, hmoves] at hp
        exact hp
      · rw [hevents] at hlog hmoves
        cases before with
        | nil =>
            obtain ⟨hevent, -⟩ := List.cons.inj hlog
            exact hbegins p n hevent
        | cons first before =>
            obtain ⟨rfl, hrest⟩ := List.cons.inj hlog
            have hp := ih (h.perform op) hrest
            rw [h.size_perform, hmoves] at hp
            exact hp

/-- **The errors in the log are those of the operations that failed**, in their order. -/
theorem errors_log (s : Session) (ops : List Operation) :
    (s.log ops).filterMap Event.error? = (s.run ops).filterMap Turn.error? := by
  induction ops generalizing s with
  | nil => rfl
  | cons op ops ih =>
      rw [log_cons, List.filterMap_append, (s.reported_perform op).error_eq, ih, run,
        List.filterMap_cons]
      cases (s.perform op).error? <;> rfl

/-- There are as many reports of errors as operations that failed. -/
theorem countP_log (s : Session) (ops : List Operation) :
    (s.log ops).countP (·.error?.isSome) = (s.run ops).countP (·.error?.isSome) := by
  have hlength := congrArg List.length (s.errors_log ops)
  rwa [List.length_filterMap_eq_countP, List.length_filterMap_eq_countP] at hlength

/-! ## Logs tell what runs did -/

/-- What the log of a run over the tokens says, and what it will say about the next operation. -/
structure FaithfulLog (layer : Layer) (tokens : List Token) (s : Session) (ops : List Operation) :
    Prop where
  /-- The next operation stays, moves or fails, and reports it. -/
  reported : ∀ op, Reported (s.after ops) ((s.after ops).perform op)
  /-- It reports one event at most. -/
  length_events_le : ∀ op, ((s.after ops).perform op).events.length ≤ 1
  /-- A rule of the grammar that succeeds reports where it was and the count of its match, which is
  one token at least. -/
  of_isParse : ∀ (op : Operation) v, op.isParse = true →
    ((s.after ops).perform op).result = .ok v → ∃ n, 1 ≤ n ∧
      op.entry.rule layer (s.after ops).cursor = .ok (.matched v n) ∧
      ((s.after ops).perform op).events = [.advance (s.after ops).position n]
  /-- Skipping trivia is reported as far as it moves the session, and not at all if it does not. -/
  of_skipTrivia : ((s.after ops).perform .skipTrivia).session = s.after ops ∧
      ((s.after ops).perform .skipTrivia).events = [] ∨
    ∃ n, 1 ≤ n ∧
      ((s.after ops).perform .skipTrivia).session =
        (s.after ops).moveTo ((s.after ops).position + n) ∧
      ((s.after ops).perform .skipTrivia).events = [.advance (s.after ops).position n]
  /-- Asking for the end of input is not reported where it succeeds. -/
  of_expectEnd : ∀ v, ((s.after ops).perform .expectEnd).result = .ok v →
    ((s.after ops).perform .expectEnd).events = []
  /-- What fails reports the location and the message of its own error. -/
  of_error : ∀ op e, ((s.after ops).perform op).result = .error e →
    ((s.after ops).perform op).events = [.failed e] ∧
      (Event.failed e).text =
        s!"DEBUG parse failed line={e.location.line} column={e.location.column} " ++
          s!"err={e.display}"
  /-- An error that the rule passes on, in whatever words and wherever located, is the one that the
  operation returns and reports. -/
  of_own : ∀ op e, op.entry.rule layer (s.after ops).cursor = .error (.own e) →
    ((s.after ops).perform op).result = .error e ∧
      ((s.after ops).perform op).events = [.failed e]
  /-- The log holds what each operation of the run reported, in order. -/
  log_append : ∀ op, s.log (ops ++ [op]) = s.log ops ++ ((s.after ops).perform op).events
  /-- It leads to the position behind the run. -/
  replay_eq : Event.replay ((Token.withEnd tokens).length - 1) (s.log ops) 0 =
    (s.after ops).position
  /-- Each movement in it begins where the events before it lead. -/
  position_eq : ∀ before p n behind, s.log ops = before ++ .advance p n :: behind →
    p = Event.replay ((Token.withEnd tokens).length - 1) before 0
  /-- The errors in it are those of the operations that failed, one for each. -/
  errors_eq : (s.log ops).filterMap Event.error? = (s.run ops).filterMap Turn.error?
  countP_eq : (s.log ops).countP (·.error?.isSome) = (s.run ops).countP (·.error?.isSome)

/-- **The log of a run is faithful**, whatever the layer claims and whatever has been done. -/
theorem faithful_log (layer : Layer) (tokens : List Token) (ops : List Operation) :
    FaithfulLog layer tokens (start layer tokens) ops where
  reported op := reported_perform _ op
  length_events_le op := (reported_perform _ op).length_events_le
  of_isParse _ _ hop hv := (runsOver_after layer tokens ops).events_of_isParse hop hv
  of_skipTrivia := (runsOver_after layer tokens ops).events_of_skipTrivia
  of_expectEnd _ hv := events_of_expectEnd hv
  of_error op _ he := ⟨(reported_perform _ op).events_of_error he, rfl⟩
  of_own _ _ he := by simpa using (runsOver_after layer tokens ops).perform_of_error he
  log_append op := by
    rw [Session.log_append, log_cons]
    exact congrArg _ (List.append_nil _)
  replay_eq := (runsOver_start layer tokens).replay_log ops
  position_eq _ _ _ _ hlog := (runsOver_start layer tokens).position_eq_replay hlog
  errors_eq := errors_log _ ops
  countP_eq := countP_log _ ops

/-- Behind a comment stands a name, and the layer refuses it in words of its own, at a place of its
own.  The log tells that the comment was skipped, and then just these words and that place. -/
theorem faithful_log_refusing :
    let error : ParseError := ⟨.own "no operand here" none, ⟨7, 9⟩⟩
    let s := start (.refusing error) [⟨.comment "/**/", ⟨0, 4, ⟨1, 1⟩⟩⟩,
      ⟨.identifier (.plain "a"), ⟨4, 5, ⟨1, 5⟩⟩⟩]
    s.log [.skipTrivia, .expression] = [.advance 0 1, .failed error] ∧
      ((s.after [.skipTrivia]).perform .expression).result = .error error ∧
      error.expected? = none ∧
      (Event.failed error).text = "DEBUG parse failed line=7 column=9 " ++
        "err=Parse error at line 7, column 9: no operand here" ∧
      (s.after [.skipTrivia, .expression]).position = 1 := by
  intro error s
  have hskip : s.log [.skipTrivia] = [.advance 0 1] := by decide +kernel
  have h : FaithfulLog (.refusing error) _ s [.skipTrivia] := faithful_log _ _ _
  have hcursor : (s.after [.skipTrivia]).cursor = .atPosition s.tokens 1 := by
    have hposition : 1 = (s.after [.skipTrivia]).position := h.replay_eq ▸ hskip ▸ rfl
    rw [cursor, (runsOver_after _ _ _).tokens_eq, ← hposition]
    rfl
  have hrule : Operation.expression.entry.rule (.refusing error)
      (s.after [.skipTrivia]).cursor = .error (.own error) := by
    rw [hcursor]
    rfl
  obtain ⟨hresult, hevents⟩ := h.of_own .expression error hrule
  have hlog : s.log [.skipTrivia, .expression] = [.advance 0 1, .failed error] := by
    rw [← hevents]
    exact (h.log_append .expression).trans (congrArg (· ++ _) hskip)
  have hall : FaithfulLog (.refusing error) _ s [.skipTrivia, .expression] := faithful_log _ _ _
  have hreplay := hall.replay_eq
  rw [hlog] at hreplay
  have htext := (h.of_error .expression error hresult).2
  exact ⟨hlog, hresult, rfl, htext.trans (by decide +kernel), hreplay.symm⟩

end Session

end ExprFront
