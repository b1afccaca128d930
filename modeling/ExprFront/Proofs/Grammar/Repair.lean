/-
# What an error asks for

A rule that fails names a construct and the place where it expected it.  Such an error can be acted
on: what was read up to that place, with anything there that starts the construct, is the beginning
of something that the rule accepts.  `Cursor.Awaits` says so of a failure; it is carried through the
rules in the way their matches are.
-/
import ExprFront.Proofs.Grammar.Soundness
import ExprFront.Proofs.Grammar.PatternLanguage

namespace ExprFront

open Cursor

/-- A token of the kind starts the construct.  Nothing starts the end of input. -/
inductive Production.StartsWith : Production → Kind → Prop
  | expression (name : Identifier) : StartsWith .expression (.identifier name)
  | pattern (name : Identifier) : StartsWith .pattern (.identifier name)
  | typeAscription : StartsWith .typeAscription (.punctuator .colon)
  | type (name : Identifier) : StartsWith .type (.identifier name)
  | memberName (name : Identifier) : StartsWith .memberName (.identifier name)
  | closingParen : StartsWith .closingParen (.punctuator .rightParen)
  | closingBracket : StartsWith .closingBracket (.punctuator .rightBracket)

/-- There is something that starts the construct, unless it is the end of input. -/
theorem Production.exists_startsWith {production : Production} (h : production ≠ .endOfInput) :
    ∃ k, production.StartsWith k := by
  cases production with
  | expression => exact ⟨_, .expression (.plain "x")⟩
  | pattern => exact ⟨_, .pattern (.plain "x")⟩
  | typeAscription => exact ⟨_, .typeAscription⟩
  | type => exact ⟨_, .type (.plain "x")⟩
  | memberName => exact ⟨_, .memberName (.plain "x")⟩
  | closingParen => exact ⟨_, .closingParen⟩
  | closingBracket => exact ⟨_, .closingBracket⟩
  | endOfInput => exact absurd rfl h

/-- Only a closing parenthesis starts itself. -/
theorem Production.eq_of_closingParen (k : Kind) (h : closingParen.StartsWith k) :
    k = .punctuator .rightParen := by
  cases h
  rfl

/-- Only a closing bracket starts itself. -/
theorem Production.eq_of_closingBracket (k : Kind) (h : closingBracket.StartsWith k) :
    k = .punctuator .rightBracket := by
  cases h
  rfl

/-! ## Failures that can be repaired -/

/-- The failure names what is missing behind the kinds from the cursor up to it: whatever starts
that construct makes them the beginning of something that the language has. -/
def Cursor.Awaits (c : Cursor) (f : Failure) (language : List Kind → Prop) : Prop :=
  ∃ production u d, f = .expecting production d ∧ c.Passes u d ∧ production ≠ .endOfInput ∧
    ∀ k, production.StartsWith k → ∃ tail, language (u ++ k :: tail)

section Awaiting

variable {α : Type} {c d : Cursor} {f : Failure} {language language' : List Kind → Prop}
  {production : Production} {u w : List Kind}

/-- What is missing at the cursor is awaited there. -/
theorem Cursor.awaits_expecting (hproduction : production ≠ .endOfInput)
    (h : ∀ k, production.StartsWith k → ∃ tail, language (k :: tail)) :
    c.Awaits (.expecting production c) language :=
  ⟨production, [], c, rfl, .nil c, hproduction, h⟩

/-- What is awaited behind some kinds is awaited behind them. -/
theorem Cursor.Awaits.behind (hpasses : c.Passes u d)
    (h : d.Awaits f fun w => language (u ++ w)) : c.Awaits f language := by
  obtain ⟨production, w, e, rfl, hpasses', hproduction, h⟩ := h
  refine ⟨production, u ++ w, e, rfl, hpasses.trans hpasses', hproduction, fun k hk => ?_⟩
  obtain ⟨tail, htail⟩ := h k hk
  exact ⟨tail, by rwa [List.append_assoc]⟩

/-- A failure of a part is a failure of the whole, if the whole can be completed wherever the part
is. -/
theorem Cursor.Awaits.imp (h : c.Awaits f language)
    (complete : ∀ w, language w → ∃ rest, language' (w ++ rest)) : c.Awaits f language' := by
  obtain ⟨production, u, d, rfl, hpasses, hproduction, h⟩ := h
  refine ⟨production, u, d, rfl, hpasses, hproduction, fun k hk => ?_⟩
  obtain ⟨tail, htail⟩ := h k hk
  obtain ⟨rest, hrest⟩ := complete _ htail
  exact ⟨tail ++ rest, by simpa using hrest⟩

/-- What is missing behind an opening kind and what follows it is the closing one. -/
theorem Cursor.awaits_closing {first last : Kind} (hfirst : c.headKind = some first)
    (hpasses : c.advance.Passes w (c.advance.advanceBy w.length))
    (hproduction : production ≠ .endOfInput) (hlast : ∀ k, production.StartsWith k → k = last)
    (h : language (first :: w ++ [last])) :
    c.Awaits (.expecting production (c.advanceBy (w.length + 1))) language := by
  have hopen := Passes.cons hfirst hpasses
  have hstop : c.advanceBy (w.length + 1) = c.advance.advanceBy w.length :=
    hopen.advanceBy_length
  rw [hstop]
  refine .behind hopen (awaits_expecting hproduction fun k hk => ?_)
  rw [hlast k hk]
  exact ⟨[], h⟩

/-- A rule that has to match awaits what it requires, or what it awaits itself. -/
theorem Cursor.awaits_of_required {r : RuleResult α} (hproduction : production ≠ .endOfInput)
    (hfail : ∀ f, r = .error f → c.Awaits f language)
    (hnone : ∀ k, production.StartsWith k → ∃ tail, language (k :: tail))
    (h : r.required production c = .error f) : c.Awaits f language := by
  unfold RuleResult.required at h
  split at h
  · cases h
  · cases h
    exact awaits_expecting hproduction hnone
  · cases h
    exact hfail _ rfl

end Awaiting

/-- Where the layer fails at the cursor, it awaits the rest of an operand. -/
def Layer.RepairableAt (layer : Layer) (c : Cursor) : Prop :=
  ∀ f, layer c = .error f → c.Awaits f fun w => ∃ o, Derives w (.operand o)

namespace Grammar

variable {c : Cursor} {f : Failure}

/-! ## Expressions and lists -/

/-- What starts an expression is one. -/
theorem derives_of_startsWith {k : Kind} (h : Production.expression.StartsWith k) :
    ∃ e, Derives [k] (.expression e) := by
  cases h with
  | expression name => exact ⟨_, .plain (.name (k := .identifier name) rfl)⟩

/-- **An expression that fails awaits the rest of one.** -/
theorem awaits_of_expression
    (hlayer : ∀ d : Cursor, d.remaining ≤ c.remaining → Layer.RepairableAt .standard d)
    (h : expression .standard c = .error f) :
    c.Awaits f fun w => ∃ e, Derives w (.expression e) := by
  have layer {d : Cursor} (hd : operand .standard d = .error f) : Layer.standard d = .error f := by
    unfold operand at hd
    split at hd
    · cases hd
    · exact hd
  unfold expression at h
  split at h
  · split at h <;> cases h
  · split at h
    · next operator hoperator =>
        split at h
        · cases h
        · cases h
        · next hf =>
            cases h
            have hrest := hlayer _ c.remaining_advance_le f (layer hf)
            refine .behind (.head (operator?_eq_some_iff.1 hoperator)) (hrest.imp ?_)
            rintro w ⟨o, ho⟩
            exact ⟨[], _, by simpa using Derives.prefixed operator ho⟩
    · split at h
      · cases h
      · next hf =>
          cases h
          refine (hlayer c (Nat.le_refl _) f (layer hf)).imp ?_
          rintro w ⟨o, ho⟩
          exact ⟨[], _, by simpa using Derives.plain ho⟩

/-- Further members that fail await the rest of the list. -/
theorem awaits_of_furtherMembers {done : List Expression} {u : List Kind} {e : Expression}
    (hlayer : ∀ d : Cursor, d.remaining < c.remaining → Layer.RepairableAt .standard d)
    (hu : Derives u (.expression e)) (h : furtherMembers .standard done c = .error f) :
    c.Awaits f fun w => ∃ es, Derives (u ++ w) (.members es) := by
  fun_induction furtherMembers .standard done c generalizing u e with
  | case1 done c hcomma e' n he hle hlt ih =>
      obtain ⟨w, rfl, hpasses, hw⟩ := covers_of_expression
        (fun d _ => Layer.soundAt_standard d) (eq_of_required he)
      obtain ⟨trivia, htrivia, hskip, -⟩ := exists_passes_skipTrivia c.advance
      have hrest := ih (fun d hd => hlayer d (by omega)) hw h
      refine .behind ((hskip.trans hpasses).cons (isPunctuator_iff.1 hcomma)) (hrest.imp ?_)
      rintro w' ⟨es, hes⟩
      exact ⟨[], _, by simpa using Derives.more hu htrivia hes⟩
  | case2 done c hcomma f' he =>
      cases h
      obtain ⟨trivia, htrivia, hskip, -⟩ := exists_passes_skipTrivia c.advance
      have hlt := remaining_next_lt (isPunctuator_iff.1 hcomma)
      have member {w : List Kind} (hw : ∃ e, Derives w (.expression e)) :
          ∃ es, Derives (u ++ (.punctuator .comma :: trivia ++ w)) (.members es) := by
        obtain ⟨e', he'⟩ := hw
        exact ⟨_, .more hu htrivia (.single he')⟩
      refine .behind (hskip.cons (isPunctuator_iff.1 hcomma)) ?_
      refine awaits_of_required (by simp) (fun f hf => ?_) (fun k hk => ?_) he
      · refine (awaits_of_expression (fun d hd => hlayer d (by omega)) hf).imp fun w hw => ?_
        exact ⟨[], by simpa using member hw⟩
      · exact ⟨[], member (derives_of_startsWith hk)⟩
  | case3 => cases h

/-- **A list that fails awaits the rest of one.** -/
theorem awaits_of_expressionList
    (hlayer : ∀ d : Cursor, d.remaining ≤ c.remaining → Layer.RepairableAt .standard d)
    (h : expressionList .standard c = .error f) :
    c.Awaits f fun w => ∃ es, Derives w (.members es) := by
  unfold expressionList at h
  split at h
  · next e n he =>
      split at h
      · cases h
      · next hmore =>
          cases h
          obtain ⟨w, rfl, hpasses, hw⟩ := covers_of_expression
            (fun d _ => Layer.soundAt_standard d) he
          have hfewer := c.remaining_advanceBy_le w.length
          exact .behind hpasses
            (awaits_of_furtherMembers (fun d hd => hlayer d (by omega)) hw hmore)
  · cases h
  · next he =>
      cases h
      refine (awaits_of_expression hlayer he).imp ?_
      rintro w ⟨e, hw⟩
      exact ⟨[], _, by simpa using Derives.single hw⟩

/-! ## Operands of the standard layer -/

/-- A primary that fails awaits the rest of an operand. -/
theorem awaits_of_primary
    (hlayer : ∀ d : Cursor, d.remaining < c.remaining → Layer.RepairableAt .standard d)
    (h : primary .standard c = .error f) :
    c.Awaits f fun w => ∃ o, Derives w (.operand o) := by
  unfold primary at h
  split at h
  · cases h
  · next hk =>
      have hlt := remaining_advance_lt hk
      -- Whatever expression stands behind the parenthesis, a closing one completes it.
      have close {w : List Kind} (hw : ∃ e, Derives w (.expression e)) :
          ∃ o, Derives (.punctuator .leftParen :: w ++ [.punctuator .rightParen])
            (.operand o) := by
        obtain ⟨e, he⟩ := hw
        exact ⟨_, .parenthesized he⟩
      split at h
      · next e n he =>
          split at h
          · cases h
          · cases h
            obtain ⟨w, rfl, hpasses, hw⟩ := covers_of_expression
              (fun d _ => Layer.soundAt_standard d) (eq_of_required he)
            exact awaits_closing hk hpasses (by simp) Production.eq_of_closingParen (close ⟨e, hw⟩)
      · next he =>
          cases h
          refine .behind (.head hk) (awaits_of_required (by simp) (fun f hf => ?_)
            (fun k hk => ?_) he)
          · refine (awaits_of_expression (fun d hd => hlayer d (by omega)) hf).imp fun w hw => ?_
            exact ⟨[.punctuator .rightParen], by simpa using close hw⟩
          · exact ⟨[.punctuator .rightParen], by simpa using close (derives_of_startsWith hk)⟩
  · split at h <;> cases h

/-- Arguments that fail await the rest of a list. -/
theorem awaits_of_arguments
    (hlayer : ∀ d : Cursor, d.remaining ≤ c.remaining → Layer.RepairableAt .standard d)
    (h : arguments .standard c = .error f) :
    c.Awaits f fun w => ∃ es, Derives w (.members es) := by
  unfold arguments at h
  split at h
  · cases h
  · refine awaits_of_required (by simp) (fun f hf => awaits_of_expressionList hlayer hf)
      (fun k hk => ?_) h
    obtain ⟨e, he⟩ := derives_of_startsWith hk
    exact ⟨[], _, .single he⟩

/-- **Suffixes that fail await the rest of the operand.** -/
theorem awaits_of_suffixes {o : Operand} {u : List Kind}
    (hlayer : ∀ d : Cursor, d.remaining < c.remaining → Layer.RepairableAt .standard d)
    (hu : Derives u (.operand o)) (hclosed : o.isPostfixed = true → startsOperand c = false)
    (h : suffixes .standard o c = .error f) :
    c.Awaits f fun w => ∃ o', Derives (u ++ w) (.operand o') := by
  fun_induction suffixes .standard o c generalizing u with
  | case1 o c hk es n he hlt hclose ih =>
      obtain ⟨w, rfl, hpasses, hcall⟩ := passes_of_arguments
        (fun d _ => Layer.soundAt_standard d) he
      have hcalled := hpasses.enclose hk (isPunctuator_iff.1 hclose)
      have hrest := ih (fun d hd => hlayer d (Nat.lt_trans hd hlt))
        (hcall u o hu (isPostfixed_eq_false_of_leftParen hk hclosed))
        (fun hcall => by cases hcall) h
      refine .behind hcalled (hrest.imp ?_)
      rintro w' ⟨o', ho'⟩
      exact ⟨[], o', by simpa using ho'⟩
  | case2 o c hk es n he hlt hclose =>
      cases h
      obtain ⟨w, rfl, hpasses, hcall⟩ := passes_of_arguments
        (fun d _ => Layer.soundAt_standard d) he
      exact awaits_closing hk hpasses (by simp) Production.eq_of_closingParen
        ⟨_, hcall u o hu (isPostfixed_eq_false_of_leftParen hk hclosed)⟩
  | case3 o c hk f' he =>
      cases h
      have hlt := remaining_advance_lt hk
      refine .behind (.head hk)
        ((awaits_of_arguments (fun d hd => hlayer d (by omega)) he).imp ?_)
      rintro w ⟨es, hes⟩
      have hcall := Derives.call hu (isPostfixed_eq_false_of_leftParen hk hclosed) hes
      exact ⟨[.punctuator .rightParen], _, by simpa using hcall⟩
  | case4 o c hk name hname hlt ih =>
      obtain ⟨k, hname, hread⟩ := identifier?_eq_some_iff.1 hname
      have hmember := Passes.cons hk (.head hname)
      have hrest := ih (fun d hd => hlayer d (Nat.lt_trans hd hlt)) (.member hu hread)
        (fun hmember => by cases hmember) h
      have hend : c.advanceBy 2 = c.advance.advance := hmember.advanceBy_length
      rw [hend] at hrest
      refine .behind hmember (hrest.imp ?_)
      rintro w ⟨o', ho'⟩
      exact ⟨[], o', by simpa using ho'⟩
  | case5 o c hk hname =>
      cases h
      refine .behind (.head hk) (awaits_expecting (by simp) fun k hk' => ?_)
      cases hk' with
      | memberName name => exact ⟨[], _, .member hu (k := .identifier name) rfl⟩
  | case6 => cases h
  | case7 o c operator hk hlt hstart ih =>
      have hrest := ih (fun d hd => hlayer d (Nat.lt_trans hd hlt)) (.postfixed operator hu)
        (fun _ => Bool.eq_false_iff.2 hstart) h
      refine .behind (.head hk) (hrest.imp ?_)
      rintro w ⟨o', ho'⟩
      exact ⟨[], o', by simpa using ho'⟩
  | case8 => cases h

end Grammar

/-- **Where the standard layer fails, it awaits the rest of an operand.** -/
theorem Layer.repairableAt_standard (c : Cursor) : Layer.RepairableAt .standard c := by
  induction hn : c.remaining using Nat.strongRecOn generalizing c with
  | _ n ih =>
      subst hn
      intro f h
      have hlayer (d : Cursor) (hd : d.remaining < c.remaining) : RepairableAt .standard d :=
        ih _ hd d rfl
      rw [Layer.standard_eq] at h
      unfold Grammar.primaryWithSuffixes at h
      split at h
      · next o n ho =>
          split at h
          · cases h
          · next hsuffixes =>
              cases h
              obtain ⟨⟨w, rfl, hpasses, hw⟩, hopen⟩ := Grammar.covers_of_primary
                (fun d _ => Layer.soundAt_standard d) ho
              have hfewer := Grammar.remaining_lt_of_primary ho
              exact .behind hpasses (Grammar.awaits_of_suffixes
                (fun d hd => hlayer d (by omega)) hw (by simp [hopen]) hsuffixes)
      · cases h
      · next hprimary =>
          cases h
          exact Grammar.awaits_of_primary hlayer hprimary

namespace Grammar

variable {c : Cursor} {f : Failure}

/-! ## Types, ascriptions and patterns -/

/-- What starts a type is one. -/
theorem derivesType_of_startsWith {k : Kind} (h : Production.type.StartsWith k) :
    ∃ t, DerivesType [k] t := by
  cases h with
  | type name => exact ⟨_, .named name⟩

/-- **A type that fails awaits the rest of one.** -/
theorem awaits_of_type (h : type c = .error f) : c.Awaits f fun w => ∃ t, DerivesType w t := by
  -- Whatever type stands behind the bracket, a closing one completes it.
  have close {w : List Kind} (hw : ∃ t, DerivesType w t) :
      ∃ t, DerivesType (.punctuator .leftBracket :: w ++ [.punctuator .rightBracket]) t := by
    obtain ⟨t, ht⟩ := hw
    exact ⟨_, .array ht⟩
  fun_induction type c generalizing f with
  | case1 => cases h
  | case2 => cases h
  | case3 c hk hlt element n helement hclose ih =>
      cases h
      obtain ⟨w, rfl, hpasses, hw⟩ := covers_of_type (eq_of_required helement)
      exact awaits_closing hk hpasses (by simp) Production.eq_of_closingBracket (close ⟨_, hw⟩)
  | case4 c hk hlt f' helement ih =>
      cases h
      refine .behind (.head hk) (awaits_of_required (by simp) (fun f hf => ?_)
        (fun k hk => ?_) helement)
      · refine (ih hf).imp fun w hw => ?_
        exact ⟨[.punctuator .rightBracket], by simpa using close hw⟩
      · exact ⟨[.punctuator .rightBracket], by simpa using close (derivesType_of_startsWith hk)⟩
  | case5 => cases h

/-- The end of an ascription that fails awaits the rest of a type. -/
theorem awaits_of_ascribedType {isInout : Bool} {start : Cursor}
    (h : ascribedType isInout start c = .error f) :
    start.Awaits f fun w => ∃ t, DerivesType w t := by
  unfold ascribedType at h
  split at h
  · cases h
  · next ht =>
      cases h
      exact awaits_of_required (by simp) (fun f hf => awaits_of_type hf)
        (fun k hk => ⟨[], derivesType_of_startsWith hk⟩) ht

/-- **An ascription that fails awaits the rest of one.** -/
theorem awaits_of_typeAscription (h : typeAscription c = .error f) :
    c.Awaits f fun w => ∃ a, DerivesAscription w a := by
  unfold typeAscription at h
  split at h
  · next hcolon =>
      obtain ⟨trivia, htrivia, hskip, -⟩ := exists_passes_skipTrivia c.advance
      have hnext : c.Passes (.punctuator .colon :: trivia) c.next :=
        hskip.cons (isPunctuator_iff.1 hcolon)
      split at h
      · next hinout =>
          obtain ⟨trivia', htrivia', hskip', -⟩ := exists_passes_skipTrivia c.next.advance
          refine .behind (hnext.trans (hskip'.cons (isKeyword_iff.1 hinout)))
            ((awaits_of_ascribedType h).imp ?_)
          rintro w ⟨t, ht⟩
          exact ⟨[], _, by simpa using DerivesAscription.inout htrivia htrivia' ht⟩
      · refine .behind hnext ((awaits_of_ascribedType h).imp ?_)
        rintro w ⟨t, ht⟩
        exact ⟨[], _, by simpa using DerivesAscription.plain htrivia ht⟩
  · cases h

/-- **A pattern that fails awaits the rest of one.** -/
theorem awaits_of_pattern (h : pattern c = .error f) :
    c.Awaits f fun w => ∃ p, DerivesPattern w p := by
  unfold pattern at h
  split at h
  · next name hname =>
      obtain ⟨k, hk, hread⟩ := identifier?_eq_some_iff.1 hname
      split at h
      · cases h
      · cases h
      · next ha =>
          cases h
          refine .behind (.head hk) ((awaits_of_typeAscription ha).imp ?_)
          rintro w ⟨a, ha⟩
          exact ⟨[], _, by simpa using DerivesPattern.ascribed hread ha⟩
  · cases h

end Grammar

end ExprFront
