/-
# Normal lists of kinds

A list of kinds is normal if it ends with its only end of input, every kind in it is valid, and no
two neighbours run together when they are printed one behind the other; one case needs three
neighbours.  The normal lists are exactly those that the scanner reads back from their printed text,
and exactly those that it returns.
-/
import Mathlib.Data.List.Chain
import ExprFront.Proofs.Stream.Splitting

namespace ExprFront

/-! ## Neighbours -/

/-- The text of `next` does not run together with the text of `k` before it. -/
structure Compatible (k next : Kind) : Prop where
  word : k.category = .word → next.category ≠ .word ∧ next.category ≠ .number
  number : k.category = .number →
    next.category ≠ .number ∧ (next.category = .word → next.text.toList.head? ≠ some '_')
  operatorRun : k.category = .operatorRun → next.category ≠ .operatorRun ∧
    (k.text.toList.getLast? = some '/' → next.category ≠ .comment)
  whitespace : k.category = .whitespace → next.category ≠ .whitespace
  lineComment : k.isLineComment = true → next = .endOfInput ∨
    next.category = .whitespace ∧ ∃ c ∈ next.text.toList.head?, isLineEnd c = true

/-- **Normal lists of kinds.** -/
structure Normal (kinds : List Kind) : Prop where
  ends : ∃ body, kinds = body ++ [.endOfInput] ∧ .endOfInput ∉ body
  valid : ∀ k ∈ kinds, k.Valid
  compatible : kinds.IsChain Compatible
  point : ∀ text k, k.category = .number →
    ¬ [.literal (.integer text), .punctuator .dot, k] <:+: kinds

/-- What may stand behind a kind, in terms of all the kinds behind it. -/
def Kind.LeadsTo (k : Kind) (following : List Kind) : Prop :=
  (∀ next ∈ following.head?, Compatible k next) ∧
    (k.isInteger = true → ∀ m tail, following = .punctuator .dot :: m :: tail →
      m.category ≠ .number)

/-- Valid kinds, each of which may stand before those behind it and before the end. -/
def Spaced : List Kind → Prop
  | [] => True
  | k :: rest => k.Valid ∧ k ≠ .endOfInput ∧ k.LeadsTo (rest ++ [.endOfInput]) ∧ Spaced rest

/-- The end of input may stand behind every kind. -/
theorem compatible_endOfInput (k : Kind) : Compatible k .endOfInput where
  word _ := ⟨nofun, nofun⟩
  number _ := ⟨nofun, nofun⟩
  operatorRun _ := ⟨nofun, nofun⟩
  whitespace _ := nofun
  lineComment _ := .inl rfl

/-- An integer is a number that is given by its text. -/
theorem Kind.isInteger_iff {k : Kind} :
    k.isInteger = true ↔ ∃ text, k = .literal (.integer text) := by
  unfold Kind.isInteger
  split <;> simp_all

/-- A line comment is a comment. -/
theorem Kind.category_of_isLineComment {k : Kind} (h : k.isLineComment = true) :
    k.category = .comment := by
  unfold Kind.isLineComment at h
  split at h
  · rfl
  · cases h

/-- Normality, one kind at a time. -/
theorem normal_cons_iff {k : Kind} {rest : List Kind} (hrest : rest ≠ []) :
    Normal (k :: rest) ↔ k.Valid ∧ k ≠ .endOfInput ∧ k.LeadsTo rest ∧ Normal rest := by
  constructor
  · rintro ⟨⟨body, hbody, hend⟩, hvalid, hcompatible, hpoint⟩
    cases body with
    | nil =>
        cases hbody
        exact absurd rfl hrest
    | cons b body =>
        cases hbody
        rw [List.mem_cons, not_or] at hend
        rw [List.isChain_cons] at hcompatible
        refine ⟨hvalid k (by simp), fun hk => hend.1 hk.symm, ⟨hcompatible.1, ?_⟩,
          ⟨body, rfl, hend.2⟩, fun m hm => hvalid m (List.mem_cons_of_mem _ hm), hcompatible.2, ?_⟩
        · rintro hk m tail htail hm
          obtain ⟨text, rfl⟩ := Kind.isInteger_iff.1 hk
          rw [htail] at hpoint
          exact hpoint text m hm ⟨[], tail, rfl⟩
        · intro text m hm h
          exact hpoint text m hm (h.trans (List.suffix_cons _ _).isInfix)
  · rintro ⟨hk, hend, ⟨hhead, hfraction⟩, ⟨body, rfl, hbody⟩, hvalid, hcompatible, hpoint⟩
    refine ⟨⟨k :: body, rfl, ?_⟩, ?_, List.isChain_cons.2 ⟨hhead, hcompatible⟩, ?_⟩
    · rw [List.mem_cons, not_or]
      exact ⟨fun h => hend h.symm, hbody⟩
    · intro m hm
      rcases List.mem_cons.1 hm with rfl | hm
      · exact hk
      · exact hvalid m hm
    · intro text m hm h
      rcases List.infix_cons_iff.1 h with h | h
      · obtain ⟨rfl, tail, htail⟩ := List.cons_prefix_cons.1 h
        exact hfraction rfl m tail htail.symm hm
      · exact hpoint text m hm h

/-- A list is normal if what stands before its end is spaced. -/
theorem normal_append_endOfInput_iff {body : List Kind} :
    Normal (body ++ [.endOfInput]) ↔ Spaced body := by
  induction body with
  | nil =>
      refine ⟨fun _ => trivial, fun _ => ⟨⟨[], rfl, by simp⟩, ?_, List.isChain_singleton _, ?_⟩⟩
      · intro k hk
        obtain rfl : k = .endOfInput := by simpa using hk
        trivial
      · intro text k hk h
        have := h.length_le
        simp at this
  | cons k body ih =>
      rw [List.cons_append, normal_cons_iff (by simp), ih]
      rfl

/-! ## Neighbours in a text that splits -/

/-- A point is read as a mark whatever follows it. -/
theorem Lexeme.Begins.eq_point {rest : List Char} {x : Lexeme} (h : Lexeme.Begins '.' rest x) :
    x = ⟨.punctuator .dot, ['.']⟩ := by
  have hpoint : Lexeme.Begins '.' rest ⟨.punctuator .dot, ['.']⟩ := .mark rfl
  have heq := (Lexeme.first_eq_ok_iff.2 h).symm.trans (Lexeme.first_eq_ok_iff.2 hpoint)
  cases heq
  rfl

/-- A text begins with a fraction exactly if it splits into a point and a number first. -/
theorem startsFraction_iff {text : List Char} {xs : List Lexeme} (h : Splits text xs) :
    Lexeme.startsFraction text = true ↔
      ∃ m tail, xs.map (·.kind) ++ [.endOfInput] = .punctuator .dot :: m :: tail ∧
        m.category = .number := by
  constructor
  · intro hfraction
    unfold Lexeme.startsFraction at hfraction
    split at hfraction
    · next d rest =>
        cases h with
        | cons first spelled tail =>
            obtain rfl := first.eq_point
            cases spelled
            cases tail with
            | @cons _ _ _ y ys first' _ _ =>
                exact ⟨y.kind, ys.map (·.kind) ++ [.endOfInput], rfl,
                  first'.startsLike.isDigit.1 hfraction⟩
    · cases hfraction
  · rintro ⟨m, kinds, hkinds, hm⟩
    cases h with
    | nil => cases hkinds
    | @cons c _ rest x xs first spelled tail =>
        have hx : x.kind = .punctuator .dot := (List.cons.inj hkinds).1
        have hc : c = '.' := by
          have hhead := first.head?_text
          rw [hx] at hhead
          exact (Option.some.inj hhead).symm
        subst hc
        obtain rfl := first.eq_point
        cases spelled
        cases tail with
        | nil =>
            -- Behind the point there is the end of input, which is no number.
            cases hkinds
            cases hm
        | @cons d _ _ y ys first' _ _ =>
            have hy : y.kind = m := (List.cons.inj (List.cons.inj hkinds).2).1
            rw [← hy] at hm
            exact first'.startsLike.isDigit.2 hm

/-- Two tokens that follow each other in a text do not run together. -/
theorem compatible_of_stopsBefore {k : Kind} {c : Char} {rest : List Char} {x : Lexeme}
    (first : Lexeme.Begins c rest x) (hstop : k.StopsBefore (c :: rest)) :
    Compatible k x.kind := by
  have hlike := first.startsLike
  have hhead := first.head?_text
  constructor
  · intro hk
    simp only [Kind.StopsBefore, hk, stops_cons] at hstop
    rw [← not_or, ← hlike.continuesWord, hstop]
    decide
  · intro hk
    simp only [Kind.StopsBefore, hk, stops_cons] at hstop
    have hnumber := hlike.isNumberChar.not.1 (by simp [hstop.1])
    rw [not_or] at hnumber
    refine ⟨hnumber.1, fun hword hunderscore => hnumber.2 ⟨hword, ?_⟩⟩
    exact Option.some.inj (hhead.symm.trans hunderscore)
  · intro hk
    simp only [Kind.StopsBefore, hk] at hstop
    -- An operator character that does not prolong the run opens a comment.
    refine ⟨fun hrun => ?_, fun hlast hcomment => ?_⟩
    · have hopen := (hstop c rfl (hlike.isOperatorChar.2 (.inl hrun))).1
      rw [List.tail_cons, hlike.opensComment, hrun] at hopen
      cases hopen
    · exact (hstop c rfl (hlike.isOperatorChar.2 (.inr hcomment))).2 hlast
  · intro hk hblank
    simp only [Kind.StopsBefore, hk, stops_cons] at hstop
    rw [hlike.isBlank.2 hblank] at hstop
    cases hstop
  · intro hk
    simp only [Kind.StopsBefore, Kind.category_of_isLineComment hk, stops_cons] at hstop
    have hline : isLineEnd c = true := by simpa using hstop hk
    refine .inr ⟨hlike.isBlank.1 ?_, c, hhead, hline⟩
    simp only [isLineEnd, Bool.or_eq_true, beq_iff_eq] at hline
    rcases hline with rfl | rfl <;> rfl

/-- A token that does not run together with the one before it does not prolong that one. -/
theorem stopsBefore_of_compatible {k : Kind} {c : Char} {rest : List Char} {x : Lexeme}
    (first : Lexeme.Begins c rest x) (hnext : Compatible k x.kind)
    (hfraction : k.isInteger = true → Lexeme.startsFraction (c :: rest) = false) :
    k.StopsBefore (c :: rest) := by
  have hlike := first.startsLike
  have hhead := first.head?_text
  unfold Kind.StopsBefore
  split
  · next hk =>
      rw [stops_cons, ← Bool.not_eq_true, hlike.continuesWord, not_or]
      exact hnext.word hk
  · next hk =>
      refine ⟨?_, hfraction⟩
      rw [stops_cons, ← Bool.not_eq_true, hlike.isNumberChar, not_or]
      refine ⟨(hnext.number hk).1, ?_⟩
      rintro ⟨hword, rfl⟩
      exact (hnext.number hk).2 hword hhead
  · next hk =>
      intro d hd hop
      obtain rfl : c = d := by simpa using hd
      rcases hlike.isOperatorChar.1 hop with hrun | hcomment
      · exact absurd hrun (hnext.operatorRun hk).1
      · exact ⟨hlike.opensComment.2 hcomment,
          fun hlast => (hnext.operatorRun hk).2 hlast hcomment⟩
  · next hk =>
      rw [stops_cons, ← Bool.not_eq_true, hlike.isBlank]
      exact hnext.whitespace hk
  · intro hk
    rcases hnext.lineComment hk with hend | ⟨-, d, hd, hline⟩
    · rw [hend] at hhead
      cases hhead
    · obtain rfl : c = d := Option.some.inj (hhead.symm.trans hd)
      simp [hline]
  · trivial

/-- Nothing prolongs a token at the end of the text. -/
theorem Kind.stopsBefore_nil (k : Kind) : k.StopsBefore [] := by
  unfold Kind.StopsBefore
  split
  · exact stops_nil _
  · exact ⟨stops_nil _, fun _ => rfl⟩
  · intro c hc
    cases hc
  · exact stops_nil _
  · exact fun _ => stops_nil _
  · trivial

/-- **Maximal munch, seen from the kinds.**  Whether a text that splits prolongs the token before it
shows in the kinds that it splits into. -/
theorem stopsBefore_iff_leadsTo {text : List Char} {xs : List Lexeme} (h : Splits text xs)
    (k : Kind) : k.StopsBefore text ↔ k.LeadsTo (xs.map (·.kind) ++ [.endOfInput]) := by
  have hfraction : (k.isInteger = true → Lexeme.startsFraction text = false) ↔
      (k.isInteger = true → ∀ m tail,
        xs.map (·.kind) ++ [.endOfInput] = .punctuator .dot :: m :: tail →
          m.category ≠ .number) := by
    refine imp_congr_right fun _ => ?_
    rw [← Bool.not_eq_true, startsFraction_iff h]
    simp only [not_exists, not_and, ne_eq]
  rw [Kind.LeadsTo, ← hfraction]
  cases h with
  | nil =>
      refine ⟨fun _ => ⟨?_, fun _ => rfl⟩, fun _ => k.stopsBefore_nil⟩
      intro next hnext
      obtain rfl : Kind.endOfInput = next := by simpa using hnext
      exact compatible_endOfInput k
  | @cons c rest _ x xs first spelled tail =>
      constructor
      · intro hstop
        refine ⟨?_, fun hk => ?_⟩
        · intro next hnext
          obtain rfl : x.kind = next := by simpa using hnext
          exact compatible_of_stopsBefore first hstop
        · obtain ⟨text, rfl⟩ := Kind.isInteger_iff.1 hk
          exact hstop.2 rfl
      · rintro ⟨hnext, hfraction⟩
        exact stopsBefore_of_compatible first (hnext x.kind rfl) hfraction

/-! ## Printing and scanning -/

/-- The lexeme that spells a kind the way it is printed. -/
def Kind.lexeme (k : Kind) : Lexeme := ⟨k, k.text.toList⟩

/-- The lexemes that spell kinds are of these kinds. -/
theorem Kind.map_kind_lexeme (kinds : List Kind) :
    (kinds.map Kind.lexeme).map (·.kind) = kinds := by
  rw [List.map_map]
  exact List.map_id kinds

/-- The printed text of kinds, one character at a time. -/
theorem Kind.toList_textOf (kinds : List Kind) :
    (Kind.textOf kinds).toList = kinds.flatMap (·.text.toList) := by
  simp [Kind.textOf, List.flatMap_map]

/-- What a text splits into is spaced. -/
theorem spaced_of_splits {text : List Char} {xs : List Lexeme} (h : Splits text xs) :
    Spaced (xs.map (·.kind)) := by
  induction h with
  | nil => trivial
  | @cons c text rest x xs first spelled tail ih =>
      obtain ⟨hvalid, hstop⟩ := first.valid spelled
      exact ⟨hvalid, first.kind_ne_endOfInput, (stopsBefore_iff_leadsTo tail x.kind).1 hstop, ih⟩

/-- The printed text of spaced kinds splits into them. -/
theorem splits_of_spaced {kinds : List Kind} (h : Spaced kinds) :
    Splits (kinds.flatMap (·.text.toList)) (kinds.map Kind.lexeme) := by
  induction kinds with
  | nil => exact .nil
  | cons k kinds ih =>
      obtain ⟨hvalid, hend, hleads, htail⟩ := h
      have hsplits := ih htail
      have hstop : k.StopsBefore (kinds.flatMap (·.text.toList)) := by
        rw [stopsBefore_iff_leadsTo hsplits, Kind.map_kind_lexeme]
        exact hleads
      obtain ⟨c, t, htext, hbegins⟩ := Lexeme.readsBack_of_valid hvalid hend hstop
      rw [List.flatMap_cons, List.map_cons, Kind.lexeme, htext, List.cons_append]
      exact .cons hbegins rfl hsplits

/-- **Scanning inverts printing exactly on the normal lists.**  A list of kinds is normal if and
only if its printed text is accepted and has tokens of these kinds, and the tokens of every accepted
source have normal kinds. -/
theorem tokenize_textOf_iff_normal :
    (∀ kinds, (∃ tokens, Token.tokenize (Kind.textOf kinds) = .ok tokens ∧
        tokens.map (·.kind) = kinds) ↔ Normal kinds) ∧
      ∀ source tokens, Token.tokenize source = .ok tokens → Normal (tokens.map (·.kind)) := by
  have normal_of_accepted (source : String) (kinds : List Kind)
      (h : ∃ tokens, Token.tokenize source = .ok tokens ∧ tokens.map (·.kind) = kinds) :
      Normal kinds := by
    obtain ⟨xs, hsplits, rfl⟩ := Token.exists_tokens_iff.1 h
    exact normal_append_endOfInput_iff.2 (spaced_of_splits hsplits)
  refine ⟨fun kinds => ⟨normal_of_accepted _ kinds, fun h => ?_⟩, ?_⟩
  · obtain ⟨body, rfl, -⟩ := h.ends
    have hsplits := splits_of_spaced (normal_append_endOfInput_iff.1 h)
    refine Token.exists_tokens_iff.2 ⟨body.map Kind.lexeme, ?_, ?_⟩
    · rw [Kind.toList_textOf]
      simpa [Kind.text] using hsplits
    · rw [Kind.map_kind_lexeme]
  · intro source tokens h
    exact normal_of_accepted source _ ⟨tokens, h, rfl⟩

end ExprFront
