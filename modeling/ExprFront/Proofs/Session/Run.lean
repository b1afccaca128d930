/-
# Runs of operations

Every operation of a session is an entry point: skipping trivia is a rule that always matches, and
asking for the end of input is one that matches nothing there.  So one account of what an entry
point does, `Session.parse_eq_advance_or_fail`, covers them all, and what each operation preserves
is preserved by a whole run.

The main fact is `Session.disciplined_and_exact_after`.  Over every layer a session stays among its
tokens, never goes back and is left alone by what fails.  Over the standard layer it moves by what
the rules read and no further, and stays at the first end of input for good.
-/
import ExprFront.Proofs.Session.Source
import ExprFront.Proofs.Grammar.PatternLanguage

namespace ExprFront

open Cursor

variable {α β : Type}

/-! ## Operations as entry points -/

/-- The entry with another value. -/
def Entry.map (g : α → β) (entry : Entry α) : Entry β :=
  ⟨fun layer c => (entry.rule layer c).map (·.map g), entry.production⟩

@[simp]
theorem Entry.rule_map (g : α → β) (entry : Entry α) (layer : Layer) (c : Cursor) :
    (entry.map g).rule layer c = (entry.rule layer c).map (·.map g) := rfl

namespace Operation

/-- Whether the operation runs a rule of the grammar. -/
def isParse : Operation → Bool
  | .expression | .expressionList | .pattern | .typeAscription => true
  | .skipTrivia | .expectEnd => false

/-- The entry that the operation runs. -/
def entry : Operation → Entry Node
  | .expression => Entry.expression.map .expression
  | .expressionList => Entry.expressionList.map .expressionList
  | .pattern => Entry.pattern.map .pattern
  | .typeAscription => Entry.typeAscription.map .typeAscription
  | .skipTrivia => ⟨fun _ c => .ok (.matched .nothing (c.skipTrivia.since c)), .endOfInput⟩
  | .expectEnd =>
      ⟨fun _ c => .ok (if c.head.isNone then .matched .nothing 0 else .noMatch), .endOfInput⟩

end Operation

namespace Session

variable {s : Session} {layer : Layer} {tokens : List Token}

/-- Another value makes no difference to what an entry point does. -/
theorem parse_map (s : Session) (f : α → β) (entry : Entry α) :
    (s.parse entry).map f = s.parse (entry.map f) := by
  simp only [parse, Entry.rule_map]
  cases entry.rule s.layer s.cursor with
  | error f => rfl
  | ok outcome =>
      cases outcome with
      | noMatch => rfl
      | matched v n =>
          show (s.advance v n).map f = s.advance (f v) n
          unfold advance
          split <;> rfl

/-- **Every operation runs its entry.** -/
theorem perform_eq_parse (s : Session) (op : Operation) : s.perform op = s.parse op.entry := by
  cases op with
  | expression => exact s.parse_map _ _
  | expressionList => exact s.parse_map _ _
  | pattern => exact s.parse_map _ _
  | typeAscription => exact s.parse_map _ _
  | skipTrivia =>
      show s.skipTrivia.map _ = s.advance _ _
      unfold skipTrivia advance
      split <;> rfl
  | expectEnd =>
      have hrule : Operation.expectEnd.entry.rule s.layer s.cursor =
          .ok (if s.isAtEnd then .matched .nothing 0 else .noMatch) := rfl
      show s.expectEnd.map _ = s.parse _
      rw [expectEnd, parse, hrule]
      by_cases hend : s.isAtEnd = true
      · rw [if_pos hend, if_pos hend]
        rfl
      · rw [if_neg hend, if_neg hend]
        rfl

/-! ## One operation -/

/-- The session at another position. -/
def moveTo (s : Session) (position : Nat) : Session := { s with position := position }

/-- **What an entry point does.**  It moves on where its rule matches, and fails where it does
not. -/
theorem parse_eq_advance_or_fail (s : Session) (entry : Entry α) :
    (∃ v n, entry.rule s.layer s.cursor = .ok (.matched v n) ∧ s.parse entry = s.advance v n) ∨
      (∀ v n, entry.rule s.layer s.cursor ≠ .ok (.matched v n)) ∧
        ∃ e, s.parse entry = s.fail e := by
  rw [parse]
  cases entry.rule s.layer s.cursor with
  | error f =>
      refine .inr ⟨fun v n h => ?_, _, rfl⟩
      cases h
  | ok outcome =>
      cases outcome with
      | noMatch =>
          refine .inr ⟨fun v n h => ?_, _, rfl⟩
          cases h
      | matched v n => exact .inl ⟨v, n, rfl, rfl⟩

/-- Among its tokens a session moves up to the last of them. -/
theorem session_advance (h : s.position < s.tokens.size) (v : α) (n : Nat) :
    (s.advance v n).session = s.moveTo (min (s.position + n) (s.tokens.size - 1)) := by
  unfold advance
  split
  · next hzero =>
      have hstay : min (s.position + n) (s.tokens.size - 1) = s.position := by omega
      rw [hstay]
      rfl
  · rfl

/-- An operation moves the session or leaves it alone. -/
theorem exists_session_perform (h : s.position < s.tokens.size) (op : Operation) :
    ∃ position, (s.perform op).session = s.moveTo position ∧ s.position ≤ position ∧
      position < s.tokens.size := by
  rw [perform_eq_parse]
  rcases s.parse_eq_advance_or_fail op.entry with ⟨v, n, -, hparse⟩ | ⟨-, e, hparse⟩
  · rw [hparse]
    refine ⟨_, session_advance h v n, ?_, ?_⟩ <;> omega
  · rw [hparse]
    exact ⟨s.position, rfl, Nat.le_refl _, h⟩

/-! ## Whole runs -/

/-- The session behind the operations. -/
def after (s : Session) (ops : List Operation) : Session :=
  ops.foldl (fun s op => (s.perform op).session) s

@[simp]
theorem after_nil (s : Session) : s.after [] = s := rfl

@[simp]
theorem after_cons (s : Session) (op : Operation) (ops : List Operation) :
    s.after (op :: ops) = (s.perform op).session.after ops := rfl

/-- A run goes on in the session behind its first part. -/
theorem run_append (s : Session) (ops more : List Operation) :
    s.run (ops ++ more) = s.run ops ++ (s.after ops).run more := by
  induction ops generalizing s with
  | nil => rfl
  | cons op ops ih => rw [List.cons_append, run, ih, run, List.cons_append, after_cons]

/-- What each operation preserves, a run preserves. -/
theorem after_induction {p : Session → Prop} (step : ∀ s op, p s → p (s.perform op).session)
    (h : p s) (ops : List Operation) : p (s.after ops) := by
  induction ops generalizing s with
  | nil => exact h
  | cons op ops ih => exact ih (step s op h)

/-- The session runs over the tokens, with the layer. -/
structure RunsOver (layer : Layer) (tokens : List Token) (s : Session) : Prop where
  layer_eq : s.layer = layer
  tokens_eq : s.tokens = (Token.withEnd tokens).toArray
  position_lt : s.position < s.tokens.size

/-- A session that starts runs over its tokens. -/
theorem runsOver_start (layer : Layer) (tokens : List Token) :
    RunsOver layer tokens (start layer tokens) := by
  refine ⟨rfl, rfl, ?_⟩
  show 0 < (Token.withEnd tokens).toArray.size
  have hlast := Token.getLast?_map_kind_withEnd tokens
  rw [List.size_toArray, List.length_pos_iff]
  intro hnil
  rw [hnil] at hlast
  cases hlast

/-- An operation stays among the tokens. -/
theorem RunsOver.perform (h : RunsOver layer tokens s) (op : Operation) :
    RunsOver layer tokens (s.perform op).session := by
  obtain ⟨position, hsession, -, hlt⟩ := exists_session_perform h.position_lt op
  rw [hsession]
  exact ⟨h.layer_eq, h.tokens_eq, hlt⟩

/-- **A run stays among the tokens.** -/
theorem runsOver_after (layer : Layer) (tokens : List Token) (ops : List Operation) :
    RunsOver layer tokens ((start layer tokens).after ops) :=
  after_induction (fun _ op h => h.perform op) (runsOver_start layer tokens) ops

/-- Among its tokens, a session is where its cursor is. -/
theorem position_cursor (h : s.position < s.tokens.size) : s.cursor.position = s.position :=
  Nat.min_eq_left (Nat.le_of_lt h)

/-- A session among its tokens is at one of them. -/
theorem exists_peek (h : s.position < s.tokens.size) : ∃ t, s.peek = some t := by
  refine ⟨s.tokens[s.position], ?_⟩
  rw [peek, Cursor.current, position_cursor h]
  exact Array.getElem?_eq_getElem h

end Session

/-! ## Any layer -/

/-- The tokens with an end of input: one is added exactly if they do not end with one. -/
theorem Token.withEnd_eq (tokens : List Token) :
    ((∃ t, tokens.getLast? = some t ∧ t.kind = .endOfInput) ∧ withEnd tokens = tokens) ∨
      ((∀ t, tokens.getLast? = some t → t.kind ≠ .endOfInput) ∧
        ∃ last, last.kind = .endOfInput ∧ withEnd tokens = tokens ++ [last]) := by
  unfold withEnd
  cases hlast : tokens.getLast? with
  | none =>
      rw [List.getLast?_eq_none_iff] at hlast
      rw [hlast]
      exact .inr ⟨nofun, _, rfl, rfl⟩
  | some t =>
      have hend : t.isEnd = true ↔ t.kind = .endOfInput := by
        rw [isEnd]
        cases t.kind <;> simp [Kind.isEnd]
      by_cases ht : t.kind = .endOfInput
      · exact .inl ⟨⟨t, rfl, ht⟩, if_pos (hend.2 ht)⟩
      · refine .inr ⟨?_, _, rfl, if_neg (mt hend.1 ht)⟩
        intro u hu
        cases hu
        exact ht

namespace Session

/-- How a session over the tokens behaves, whatever its layer is. -/
structure Disciplined (layer : Layer) (tokens : List Token) (s : Session) : Prop where
  /-- Its tokens are those, with an end of input added exactly if they do not end with one. -/
  tokens_eq : ((∃ t, tokens.getLast? = some t ∧ t.kind = .endOfInput) ∧ s.tokens.toList = tokens) ∨
    ((∀ t, tokens.getLast? = some t → t.kind ≠ .endOfInput) ∧
      ∃ last, last.kind = .endOfInput ∧ s.tokens.toList = tokens ++ [last])
  /-- It is at one of them. -/
  position_lt : s.position < s.tokens.size
  exists_peek : ∃ t, s.peek = some t
  /-- No operation goes back. -/
  position_le : ∀ op, s.position ≤ (s.perform op).session.position
  /-- What fails leaves it alone, and so does asking for the end of input. -/
  of_error : ∀ op e, (s.perform op).result = .error e → (s.perform op).session = s
  of_expectEnd : (s.perform .expectEnd).session = s
  /-- What succeeds has matched, and it moves by what the match claims, up to the last token. -/
  of_ok : ∀ op v, (s.perform op).result = .ok v → ∃ n,
    op.entry.rule layer s.cursor = .ok (.matched v n) ∧
      (s.perform op).session = s.moveTo (min (s.position + n) (s.tokens.size - 1))

/-- What runs over tokens behaves. -/
theorem RunsOver.disciplined {layer : Layer} {tokens : List Token} {s : Session}
    (h : RunsOver layer tokens s) : Disciplined layer tokens s where
  tokens_eq := by
    rw [h.tokens_eq]
    exact Token.withEnd_eq tokens
  position_lt := h.position_lt
  exists_peek := Session.exists_peek h.position_lt
  position_le op := by
    obtain ⟨position, hsession, hle, -⟩ := exists_session_perform h.position_lt op
    rw [hsession]
    exact hle
  of_error op e hresult := by
    rw [perform_eq_parse] at hresult ⊢
    rcases s.parse_eq_advance_or_fail op.entry with ⟨v, n, -, hparse⟩ | ⟨-, e', hparse⟩
    · rw [hparse, result_advance] at hresult
      cases hresult
    · rw [hparse]
      rfl
  of_expectEnd := by
    show s.expectEnd.session = s
    rw [expectEnd]
    split <;> rfl
  of_ok op v hresult := by
    rw [perform_eq_parse] at hresult ⊢
    rcases s.parse_eq_advance_or_fail op.entry with ⟨u, n, hrule, hparse⟩ | ⟨-, e, hparse⟩
    · rw [hparse, result_advance] at hresult
      cases hresult
      refine ⟨n, h.layer_eq ▸ hrule, ?_⟩
      rw [hparse]
      exact session_advance h.position_lt v n
    · rw [hparse] at hresult
      cases hresult

end Session

/-! ## The standard layer -/

/-- What a rule that recognizes a language matches is passed, and it is not nothing. -/
theorem Recognizes.exists_passes_ne_nil {rule : Rule α} {language : List Kind → α → Prop}
    (h : Recognizes rule language) {c : Cursor} {v : α} {n : Nat}
    (hmatch : rule c = .ok (.matched v n)) :
    ∃ w, w.length = n ∧ c.Passes w (c.advanceBy n) ∧ .endOfInput ∉ w ∧ w ≠ [] := by
  have hc : Cursor.atPosition c.tokens c.position = c :=
    Cursor.eq_of_position rfl (Nat.min_eq_left c.position_le)
  obtain ⟨hpos, -⟩ := h.sound c.tokens c.position v n (hc.symm ▸ hmatch)
  obtain ⟨w, rfl, hpasses, hw, -⟩ := h.exists_passes hmatch
  exact ⟨w, rfl, hpasses, hw, List.length_pos_iff.1 hpos⟩

/-- The same of an entry with another value. -/
theorem Recognizes.exists_passes_map {entry : Entry α} {f : α → β}
    {language : List Kind → α → Prop} (h : Recognizes (entry.rule .standard) language) {c : Cursor}
    {v : β} {n : Nat} (hmatch : (entry.map f).rule .standard c = .ok (.matched v n)) :
    ∃ w, w.length = n ∧ c.Passes w (c.advanceBy n) ∧ .endOfInput ∉ w ∧ w ≠ [] := by
  obtain ⟨u, hu, -⟩ := RuleResult.map_eq_matched_iff.1 hmatch
  exact h.exists_passes_ne_nil hu

/-- What a rule of the grammar matches is passed, holds no end of input and is not nothing. -/
theorem Operation.exists_passes_of_isParse {op : Operation} (hop : op.isParse = true) {c : Cursor}
    {v : Node} {n : Nat} (h : op.entry.rule .standard c = .ok (.matched v n)) :
    ∃ w, w.length = n ∧ c.Passes w (c.advanceBy n) ∧ .endOfInput ∉ w ∧ w ≠ [] := by
  cases op with
  | expression => exact recognizes_expression.exists_passes_map h
  | expressionList => exact recognizes_expressionList.exists_passes_map h
  | pattern => exact Grammar.recognizes_pattern.exists_passes_map h
  | typeAscription => exact Grammar.recognizes_typeAscription.exists_passes_map h
  | skipTrivia => cases hop
  | expectEnd => cases hop

/-- **What an operation matches is passed, and holds no end of input.** -/
theorem Operation.exists_passes {op : Operation} {c : Cursor} {v : Node} {n : Nat}
    (h : op.entry.rule .standard c = .ok (.matched v n)) :
    ∃ w, w.length = n ∧ c.Passes w (c.advanceBy n) ∧ .endOfInput ∉ w := by
  by_cases hop : op.isParse = true
  · obtain ⟨w, hlength, hpasses, hw, -⟩ := exists_passes_of_isParse hop h
    exact ⟨w, hlength, hpasses, hw⟩
  · cases op with
    | expression | expressionList | pattern | typeAscription => exact absurd rfl hop
    | skipTrivia =>
        obtain ⟨w, hw, hpasses, -⟩ := exists_passes_skipTrivia c
        cases h
        rw [hpasses.since, hpasses.advanceBy_length]
        exact ⟨w, rfl, hpasses, Kind.endOfInput_notMem_of_isTrivia hw⟩
    | expectEnd =>
        simp only [entry] at h
        split at h
        · cases h
          rw [advanceBy_zero]
          exact ⟨[], rfl, .nil c, by simp⟩
        · cases h

/-- At an end nothing is passed but an end of input. -/
theorem Cursor.Passes.eq_nil_of_headKind {c d : Cursor} {w : List Kind} (h : c.Passes w d)
    (hw : .endOfInput ∉ w) (hend : c.headKind = none) : w = [] := by
  cases w with
  | nil => rfl
  | cons k w =>
      have hk : k ≠ .endOfInput := by
        rintro rfl
        exact hw List.mem_cons_self
      rw [h.headKind hk] at hend
      cases hend

namespace Session

variable {s : Session} {tokens : List Token}

/-- The tokens of a session that runs over tokens end. -/
theorem RunsOver.ends {layer : Layer} (h : RunsOver layer tokens s) : s.Ends := by
  rw [Ends, h.tokens_eq]
  exact Token.getLast?_map_kind_withEnd tokens

/-- The clamp does not act on kinds that are passed without an end of input. -/
theorem RunsOver.min_position {layer : Layer} (h : RunsOver layer tokens s) {w : List Kind}
    {d : Cursor} (hpasses : s.cursor.Passes w d) (hw : .endOfInput ∉ w) :
    min (s.position + w.length) (s.tokens.size - 1) = s.position + w.length := by
  have hlt := h.position_lt
  by_cases hnil : w = []
  · rw [hnil, List.length_nil]
    omega
  · have hstop := position_lt_of_passes h.ends hpasses hw hnil
    rw [hpasses.stop_eq, position_advanceBy, position_cursor hlt] at hstop
    simp only [cursor, atPosition] at hstop
    omega

/-- **The clamp does not act.**  What matches moves a session by what the match claims. -/
theorem RunsOver.perform_of_matched (h : RunsOver .standard tokens s) {op : Operation} {v : Node}
    {n : Nat} (hmatch : op.entry.rule .standard s.cursor = .ok (.matched v n)) :
    (s.perform op).result = .ok v ∧ (s.perform op).session = s.moveTo (s.position + n) := by
  obtain ⟨w, rfl, hpasses, hw⟩ := Operation.exists_passes hmatch
  rw [perform_eq_parse, parse_of_matched (h.layer_eq.symm ▸ hmatch), result_advance,
    session_advance h.position_lt, h.min_position hpasses hw]
  exact ⟨rfl, rfl⟩

/-- An operation over the standard layer moves by a match or leaves the session alone. -/
theorem RunsOver.session_perform (h : RunsOver .standard tokens s) (op : Operation) :
    (∃ v n, op.entry.rule .standard s.cursor = .ok (.matched v n) ∧
      (s.perform op).session = s.moveTo (s.position + n)) ∨ (s.perform op).session = s := by
  rcases s.parse_eq_advance_or_fail op.entry with ⟨v, n, hrule, -⟩ | ⟨-, e, hparse⟩
  · rw [h.layer_eq] at hrule
    exact .inl ⟨v, n, hrule, (h.perform_of_matched hrule).2⟩
  · rw [perform_eq_parse, hparse]
    exact .inr rfl

/-- An operation passes no end of input. -/
theorem RunsOver.endOfInput_notMem_perform (h : RunsOver .standard tokens s)
    (hend : .endOfInput ∉ (s.tokens.toList.take s.position).map (·.kind)) (op : Operation) :
    .endOfInput ∉ ((s.perform op).session.tokens.toList.take
      (s.perform op).session.position).map (·.kind) := by
  rcases h.session_perform op with ⟨v, n, hrule, hsession⟩ | hsession
  · obtain ⟨w, rfl, hpasses, hw⟩ := Operation.exists_passes hrule
    rw [hsession]
    show .endOfInput ∉ (s.tokens.toList.take (s.position + w.length)).map (·.kind)
    have hkinds : ((s.tokens.toList.drop s.position).take w.length).map (·.kind) = w := by
      have hcursor := hpasses.kinds_eq
      rw [kinds, position_cursor h.position_lt] at hcursor
      rw [List.map_take]
      exact (congrArg (List.take w.length) hcursor).trans List.take_left
    rw [List.take_add, List.map_append, hkinds, List.mem_append, not_or]
    exact ⟨hend, hw⟩
  · rw [hsession]
    exact hend

/-- At an end of input, what matches is empty. -/
theorem eq_zero_of_isAtEnd (hend : s.isAtEnd = true) {op : Operation} {v : Node} {n : Nat}
    (hmatch : op.entry.rule .standard s.cursor = .ok (.matched v n)) : n = 0 := by
  obtain ⟨w, rfl, hpasses, hw⟩ := Operation.exists_passes hmatch
  rw [hpasses.eq_nil_of_headKind hw ((isAtEnd_iff s).1 hend)]
  rfl

/-- **At an end of input no operation moves.** -/
theorem RunsOver.perform_of_isAtEnd (h : RunsOver .standard tokens s) (hend : s.isAtEnd = true)
    (op : Operation) : (s.perform op).session = s := by
  rcases h.session_perform op with ⟨v, n, hrule, hsession⟩ | hsession
  · rw [hsession, eq_zero_of_isAtEnd hend hrule]
    rfl
  · exact hsession

/-- At an end of input the rules of the grammar do not match. -/
theorem RunsOver.exists_error_of_isAtEnd (h : RunsOver .standard tokens s)
    (hend : s.isAtEnd = true) {op : Operation} (hop : op.isParse = true) :
    ∃ e, (s.perform op).result = .error e := by
  rw [perform_eq_parse]
  rcases s.parse_eq_advance_or_fail op.entry with ⟨v, n, hrule, -⟩ | ⟨-, e, hparse⟩
  · rw [h.layer_eq] at hrule
    obtain ⟨w, -, hpasses, hw, hne⟩ := Operation.exists_passes_of_isParse hop hrule
    exact absurd (hpasses.eq_nil_of_headKind hw ((isAtEnd_iff s).1 hend)) hne
  · rw [hparse]
    exact ⟨e, rfl⟩

/-- How a session over the standard layer moves. -/
structure Exact (s : Session) : Prop where
  /-- No end of input lies behind it. -/
  endOfInput_notMem : .endOfInput ∉ (s.tokens.toList.take s.position).map (·.kind)
  /-- It moves by what a match claims. -/
  of_matched : ∀ op v n, op.entry.rule .standard s.cursor = .ok (.matched v n) →
    (s.perform op).result = .ok v ∧ (s.perform op).session = s.moveTo (s.position + n)
  /-- At an end of input it stays there, whatever is tried. -/
  after_of_isAtEnd : s.isAtEnd = true → ∀ ops, s.after ops = s
  /-- There the rules of the grammar fail, and the other two operations succeed. -/
  result_of_isAtEnd : s.isAtEnd = true →
    (∀ op : Operation, op.isParse = true → ∃ e, (s.perform op).result = .error e) ∧
      (s.perform .skipTrivia).result = .ok .nothing ∧ (s.perform .expectEnd).result = .ok .nothing

/-- No run passes an end of input. -/
theorem endOfInput_notMem_after (tokens : List Token) (ops : List Operation) :
    .endOfInput ∉ (((start .standard tokens).after ops).tokens.toList.take
      ((start .standard tokens).after ops).position).map (·.kind) := by
  refine (after_induction (p := fun s => RunsOver .standard tokens s ∧
    .endOfInput ∉ (s.tokens.toList.take s.position).map (·.kind)) ?_ ?_ ops).2
  · rintro s op ⟨h, hend⟩
    exact ⟨h.perform op, h.endOfInput_notMem_perform hend op⟩
  · exact ⟨runsOver_start .standard tokens, by simp [start]⟩

/-- What runs over tokens with the standard layer moves exactly. -/
theorem RunsOver.exact (h : RunsOver .standard tokens s)
    (hbehind : .endOfInput ∉ (s.tokens.toList.take s.position).map (·.kind)) : Exact s where
  endOfInput_notMem := hbehind
  of_matched op v n hmatch := h.perform_of_matched hmatch
  after_of_isAtEnd hend ops := by
    refine after_induction (p := (· = s)) ?_ rfl ops
    rintro _ op rfl
    exact h.perform_of_isAtEnd hend op
  result_of_isAtEnd hend := by
    refine ⟨fun op hop => h.exists_error_of_isAtEnd hend hop, ?_, ?_⟩
    · rw [perform_eq_parse, parse_of_matched rfl, result_advance]
    · show s.expectEnd.result.map _ = _
      rw [expectEnd, if_pos hend]
      rfl

/-- **Runs are disciplined and exact.**  Whatever has been done, the next operation of a run is
carried out by a session that stays among its tokens, never goes back and is left alone by what
fails; over the standard layer it moves by exactly what the rules read, and stays at the first end
of input for good. -/
theorem disciplined_and_exact_after (tokens : List Token) (ops : List Operation) :
    (∀ layer op, (start layer tokens).run (ops ++ [op]) =
        (start layer tokens).run ops ++ [((start layer tokens).after ops).perform op]) ∧
      (∀ layer, Disciplined layer tokens ((start layer tokens).after ops)) ∧
      Exact ((start .standard tokens).after ops) := by
  refine ⟨fun layer op => ?_, fun layer => ?_, ?_⟩
  · rw [run_append]
    rfl
  · exact (runsOver_after layer tokens ops).disciplined
  · exact (runsOver_after .standard tokens ops).exact (endOfInput_notMem_after tokens ops)

end Session

end ExprFront
