/-
# Parsing whole sources

A session that parses a whole source runs its entry point between two runs of trivia.  For rules
that recognize a language the clamp of a session never acts, as they read no end of input, so a
session moves exactly as its cursors do.  The main fact is `Entry.parseTokens_eq`.
-/
import ExprFront.Session
import ExprFront.Proofs.Grammar.Completeness
import ExprFront.Proofs.Stream.Normal

namespace ExprFront

open Cursor

/-! ## The end of the tokens -/

/-- The tokens of a session end with an end of input. -/
theorem Token.getLast?_map_kind_withEnd (tokens : List Token) :
    ((Token.withEnd tokens).map (·.kind)).getLast? = some .endOfInput := by
  unfold Token.withEnd
  split
  · rfl
  · next t ht =>
      split
      · next hend =>
          have hkind : t.kind = .endOfInput := by
            cases hk : t.kind <;> simp_all [Token.isEnd, Kind.isEnd]
          rw [List.getLast?_map, ht, Option.map_some, hkind]
      · simp

/-- Tokens that end with an end of input get no other one. -/
theorem Token.withEnd_of_map_kind {tokens : List Token} {body : List Kind}
    (h : tokens.map (·.kind) = body ++ [.endOfInput]) : Token.withEnd tokens = tokens := by
  have hlast : (tokens.map (·.kind)).getLast? = some .endOfInput := by rw [h]; simp
  rw [List.getLast?_map, Option.map_eq_some_iff] at hlast
  obtain ⟨t, ht, hkind⟩ := hlast
  unfold Token.withEnd
  split
  · next hnone => rw [hnone] at ht; cases ht
  · next t' ht' =>
      cases ht.symm.trans ht'
      rw [if_pos]
      rw [Token.isEnd, hkind]
      rfl

/-! ## Movements of a session -/

namespace Session

/-- The tokens of the session end with an end of input. -/
def Ends (s : Session) : Prop := (s.tokens.toList.map (·.kind)).getLast? = some .endOfInput

/-- A session starts with tokens that end. -/
theorem ends_start (layer : Layer) (tokens : List Token) : (start layer tokens).Ends :=
  Token.getLast?_map_kind_withEnd tokens

variable {s : Session} {α : Type} {w : List Kind} {d : Cursor}

/-- Moving does not change the tokens. -/
theorem tokens_advance (s : Session) (v : α) (n : Nat) :
    (s.advance v n).session.tokens = s.tokens := by
  unfold advance
  split <;> rfl

/-- Moving does not change the layer. -/
theorem layer_advance (s : Session) (v : α) (n : Nat) :
    (s.advance v n).session.layer = s.layer := by
  unfold advance
  split <;> rfl

/-- Where tokens end, they end after a movement. -/
theorem Ends.advance (hs : s.Ends) (v : α) (n : Nat) : (s.advance v n).session.Ends := by
  rw [Ends, tokens_advance]
  exact hs

/-- Moving answers the value that it is given. -/
@[simp]
theorem result_advance (s : Session) (v : α) (n : Nat) : (s.advance v n).result = .ok v := by
  unfold advance
  split <;> rfl

/-- Where the tokens end, what is passed without an end of input leaves tokens behind it. -/
theorem position_lt_of_passes (hs : s.Ends) (hpasses : s.cursor.Passes w d)
    (hw : .endOfInput ∉ w) (hne : w ≠ []) : d.position < s.tokens.size := by
  have hkinds : (s.tokens.toList.map (·.kind)).drop s.cursor.position = w ++ d.kinds := by
    rw [← hpasses.kinds_eq, kinds, List.map_drop]
    rfl
  have hne' : (s.tokens.toList.map (·.kind)).drop s.cursor.position ≠ [] := by
    rw [hkinds]
    exact List.append_ne_nil_of_left_ne_nil hne _
  have hlast := List.getLast?_drop (l := s.tokens.toList.map (·.kind)) (i := s.cursor.position)
  rw [if_neg (by simpa using hne'), hs] at hlast
  -- Otherwise the last kind that is passed would be the end of input.
  have hremaining : d.kinds ≠ [] := by
    intro hnil
    rw [hnil, List.append_nil] at hkinds
    rw [hkinds] at hlast
    exact hw (List.mem_of_getLast? hlast)
  have htokens : d.tokens = s.tokens := by rw [hpasses.stop_eq]; rfl
  have := List.length_pos_iff.2 hremaining
  rw [length_kinds, remaining, htokens] at this
  omega

/-- **The clamp does not act** on a movement that passes no end of input. -/
theorem cursor_advance (hs : s.Ends) (v : α) (hpasses : s.cursor.Passes w d)
    (hw : .endOfInput ∉ w) : (s.advance v w.length).session.cursor = d := by
  unfold advance
  split
  · next hzero =>
      rw [← hpasses.advanceBy_length, hzero, advanceBy_zero]
  · next hzero =>
      have hlt := position_lt_of_passes hs hpasses hw fun hnil => hzero (by rw [hnil]; rfl)
      rw [hpasses.stop_eq] at hlt ⊢
      refine eq_of_position rfl ?_
      simp only [position_advanceBy, cursor, atPosition] at hlt ⊢
      omega

/-- A session skips trivia as its cursor does. -/
theorem cursor_skipTrivia (hs : s.Ends) : s.skipTrivia.session.cursor = s.cursor.skipTrivia := by
  obtain ⟨w, hw, hpasses, -⟩ := exists_passes_skipTrivia s.cursor
  have hend := Kind.endOfInput_notMem_of_isTrivia hw
  rw [skipTrivia, hpasses.since]
  exact cursor_advance hs () hpasses hend

/-- A session is at the end where its cursor has no head. -/
theorem isAtEnd_iff (s : Session) : s.isAtEnd = true ↔ s.cursor.headKind = none := by
  rw [isAtEnd, Option.isNone_iff_eq_none, headKind, Option.map_eq_none_iff]

/-- An entry point whose rule matches answers the value and moves behind the match. -/
theorem parse_of_matched {entry : Entry α} {v : α} {n : Nat}
    (h : entry.rule s.layer s.cursor = .ok (.matched v n)) : s.parse entry = s.advance v n := by
  rw [parse, h]

end Session

/-! ## Sources -/

namespace Entry

variable {α : Type} {entry : Entry α} {language : List Kind → α → Prop} {tokens : List Token}
  {v : α}

/-- **How tokens are parsed.**  The entry runs behind the trivia at the start, and behind its match
only trivia may stand; otherwise the error is reported where the run stopped. -/
theorem parseTokens_eq (h : Recognizes (entry.rule .standard) language) {c : Cursor}
    (hc : (Session.start .standard tokens).cursor.skipTrivia = c) :
    entry.parseTokens tokens =
      match entry.rule .standard c with
      | .ok (.matched v n) =>
          if (c.advanceBy n).skipTrivia.headKind = none then .ok v
          else .error (.expectedAt .endOfInput (c.advanceBy n).skipTrivia)
      | .ok .noMatch => .error (.expectedAt entry.production c)
      | .error f => .error (f.report c.tokens) := by
  have hs := Session.ends_start .standard tokens
  have hopened := (Session.cursor_skipTrivia hs).trans hc
  have hends : (Session.start .standard tokens).skipTrivia.session.Ends := hs.advance () _
  have hlayer : (Session.start .standard tokens).skipTrivia.session.layer = .standard :=
    Session.layer_advance _ () _
  rw [parseTokens]
  generalize (Session.start .standard tokens).skipTrivia.session = s at hends hlayer hopened
  subst hopened
  rw [← hlayer]
  cases hrule : entry.rule s.layer s.cursor with
  | error f => simp only [Session.parse, hrule]; rfl
  | ok outcome =>
      cases outcome with
      | noMatch => simp only [Session.parse, hrule]; rfl
      | matched v n =>
          have hfinal : (s.advance v n).session.skipTrivia.session.cursor =
              (s.cursor.advanceBy n).skipTrivia := by
            obtain ⟨w, rfl, hpasses, hw, -⟩ := h.exists_passes (hlayer ▸ hrule)
            rw [Session.cursor_skipTrivia (hends.advance v _),
              Session.cursor_advance hends v hpasses hw]
          simp only [Session.parse_of_matched hrule, Session.result_advance]
          rw [← hfinal]
          by_cases hend : (s.advance v n).session.skipTrivia.session.isAtEnd = true
          · rw [Session.expectEnd, if_pos hend, if_pos ((Session.isAtEnd_iff _).1 hend)]
            rfl
          · rw [Session.expectEnd, if_neg hend, if_neg (mt (Session.isAtEnd_iff _).2 hend)]
            rfl

/-- **What a source parses to.**  The entry matches behind the trivia at the start, and only trivia
stand behind its match. -/
theorem parseTokens_eq_ok_iff (h : Recognizes (entry.rule .standard) language) :
    entry.parseTokens tokens = .ok v ↔
      ∃ n, entry.rule .standard (Session.start .standard tokens).cursor.skipTrivia =
          .ok (.matched v n) ∧
        ((Session.start .standard tokens).cursor.skipTrivia.advanceBy n).skipTrivia.headKind =
          none := by
  rw [parseTokens_eq h rfl]
  split
  · next value n hmatch =>
      rw [hmatch]
      constructor
      · intro hok
        split at hok
        · next hend =>
            cases hok
            exact ⟨n, rfl, hend⟩
        · cases hok
      · rintro ⟨m, hvalue, hend⟩
        cases hvalue
        exact if_pos hend
  · next hnone =>
      rw [hnone]
      exact ⟨nofun, nofun⟩
  · next f herror =>
      rw [herror]
      exact ⟨nofun, nofun⟩

/-- The kinds in front of a session that starts are those of all its tokens. -/
theorem kinds_cursor_start (layer : Layer) (tokens : List Token) :
    (Session.start layer tokens).cursor.kinds = (Token.withEnd tokens).map (·.kind) := by
  simp [kinds, Session.cursor, Session.start, atPosition]

/-- What a source parses to is in the language of its entry, and only trivia stand around it. -/
theorem exists_of_parseTokens (h : Recognizes (entry.rule .standard) language)
    (hv : entry.parseTokens tokens = .ok v) :
    ∃ before w after rest, (Token.withEnd tokens).map (·.kind) =
        before ++ (w ++ (after ++ .endOfInput :: rest)) ∧ language w v ∧
      (∀ k ∈ before, k.isTrivia = true) ∧ ∀ k ∈ after, k.isTrivia = true := by
  obtain ⟨n, hmatch, hend⟩ := (parseTokens_eq_ok_iff h).1 hv
  obtain ⟨before, hbefore, hskip, -⟩ :=
    exists_passes_skipTrivia (Session.start .standard tokens).cursor
  obtain ⟨w, rfl, hpasses, hwend, hw⟩ := h.exists_passes hmatch
  obtain ⟨after, hafter, hskip', -⟩ := exists_passes_skipTrivia
    ((Session.start .standard tokens).cursor.skipTrivia.advanceBy w.length)
  have hkinds := (hskip.trans (hpasses.trans hskip')).kinds_eq
  rw [kinds_cursor_start, List.append_assoc, List.append_assoc] at hkinds
  have hlast := Token.getLast?_map_kind_withEnd tokens
  rw [hkinds] at hlast
  rw [headKind_eq] at hend
  generalize ((Session.start .standard tokens).cursor.skipTrivia.advanceBy
    w.length).skipTrivia.kinds = final at hkinds hlast hend
  cases final with
  | nil =>
      -- The last kind of all would be trivia or a part of the match, but it is the end of input.
      rw [List.append_nil] at hlast
      have hmem := List.mem_of_getLast? hlast
      rw [List.mem_append, List.mem_append] at hmem
      rcases hmem with hmem | hmem | hmem
      · exact absurd hmem (Kind.endOfInput_notMem_of_isTrivia hbefore)
      · exact absurd hmem hwend
      · exact absurd hmem (Kind.endOfInput_notMem_of_isTrivia hafter)
  | cons k rest =>
      have hk : k = .endOfInput := by
        cases k <;> simp [Option.filter, Kind.isEnd] at hend ⊢
      subst hk
      exact ⟨before, w, after, rest, hkinds, hw, hbefore, hafter⟩

/-- A match between trivia is what the source parses to. -/
theorem parseTokens_of_matched (h : Recognizes (entry.rule .standard) language) {k : Kind}
    {before w after : List Kind}
    (hkinds : tokens.map (·.kind) = before ++ (k :: w ++ (after ++ [.endOfInput])))
    (hbefore : ∀ k ∈ before, k.isTrivia = true) (hk : k.isTrivia = false)
    (hafter : ∀ k ∈ after, k.isTrivia = true)
    (hmatch : ∀ c d : Cursor, c.Passes (k :: w) d → d.kinds = after ++ [.endOfInput] →
      entry.rule .standard c = .ok (.matched v (w.length + 1))) :
    entry.parseTokens tokens = .ok v := by
  have hstart : (Session.start .standard tokens).cursor.kinds =
      before ++ (k :: w ++ (after ++ [.endOfInput])) := by
    have hbody : tokens.map (·.kind) = before ++ (k :: w ++ after) ++ [.endOfInput] := by
      rw [hkinds]
      simp only [List.append_assoc]
    rw [kinds_cursor_start, Token.withEnd_of_map_kind hbody, hkinds]
  obtain ⟨hpasses₁, hkinds₁⟩ := passes_of_kinds_eq hstart
  obtain ⟨hpasses₂, hkinds₂⟩ := passes_of_kinds_eq hkinds₁
  obtain ⟨hpasses₃, hkinds₃⟩ := passes_of_kinds_eq hkinds₂
  have hend := headKind_eq_none_of_kinds hkinds₃
  have hskip := skipTrivia_eq_of_passes hpasses₁ hbefore fun m hm => by
    obtain ⟨rest, hrest, -⟩ := headKind_eq_some_iff.1 hm
    rw [hkinds₁] at hrest
    cases hrest
    exact hk
  have hskip' := skipTrivia_eq_of_passes hpasses₃ hafter fun m hm => by
    rw [hend] at hm
    cases hm
  refine (parseTokens_eq_ok_iff h).2 ⟨w.length + 1, ?_, ?_⟩
  · rw [hskip]
    exact hmatch _ _ hpasses₂ hkinds₂
  · rw [hskip]
    exact hskip' ▸ hend

/-- **What an accepted source is.**  Its kinds are normal, and a part of them has the value. -/
theorem exists_normal_of_parseSource (h : Recognizes (entry.rule .standard) language)
    {source : String} (hv : entry.parseSource source = .ok v) :
    ∃ before w after, Normal (before ++ (w ++ after)) ∧ language w v := by
  unfold parseSource at hv
  split at hv
  · next tokens htokens =>
      obtain ⟨xs, hsplits, hkinds⟩ := Token.exists_tokens_iff.1 ⟨tokens, htokens, rfl⟩
      obtain ⟨before, w, after, rest, hall, hw, -⟩ := exists_of_parseTokens h hv
      rw [Token.withEnd_of_map_kind hkinds, hkinds] at hall
      refine ⟨before, w, after ++ .endOfInput :: rest, ?_, hw⟩
      rw [← hall]
      exact normal_append_endOfInput_iff.2 (spaced_of_splits hsplits)
  · cases hv

/-- **A source that spells a match** is accepted with that match. -/
theorem parseSource_of_spaced (h : Recognizes (entry.rule .standard) language) {k : Kind}
    {w : List Kind} {source : String}
    (hsource : source.toList = (k :: w).flatMap (·.text.toList)) (hspaced : Spaced (k :: w))
    (hk : k.isTrivia = false)
    (hmatch : ∀ c d : Cursor, c.Passes (k :: w) d → d.headKind = none →
      entry.rule .standard c = .ok (.matched v (w.length + 1))) :
    entry.parseSource source = .ok v := by
  obtain ⟨tokens, htokens, hkinds⟩ :
      ∃ tokens, Token.tokenize source = .ok tokens ∧
        tokens.map (·.kind) = [] ++ (k :: w ++ ([] ++ [.endOfInput])) := by
    refine Token.exists_tokens_iff.2 ⟨(k :: w).map Kind.lexeme, ?_, ?_⟩
    · rw [hsource]
      exact splits_of_spaced hspaced
    · rw [Kind.map_kind_lexeme]
      rfl
  rw [parseSource, htokens]
  refine parseTokens_of_matched h hkinds (by simp) hk (by simp) ?_
  intro c d hpasses hend
  exact hmatch c d hpasses (headKind_eq_none_of_kinds hend)

end Entry

end ExprFront
