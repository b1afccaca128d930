/-
# How far the rules look

A rule reads the tokens in front of it one by one, and it never looks further than one token behind
the next one.  So what it answers shows in a short part of the tokens: a match of `n` tokens in the
first `n + 2`, an error `m` tokens ahead in the first `m + 2`, and that a rule does not apply in the
first two.  What stands behind an end of input never shows.

The rules for expressions and lists are local over any layer whose operands are, and so is the
description of the standard layer; that layer then is local by induction on the tokens that remain.
-/
import ExprFront.Proofs.Grammar.Agreement
import ExprFront.Proofs.Grammar.Completeness
import ExprFront.Proofs.Grammar.PatternLanguage

namespace ExprFront

open Cursor

namespace Grammar

variable {layer : Layer} {c : Cursor}

/-! ## Expressions and lists -/

/-- In-out arguments are read locally. -/
theorem localAt_expression_of_ampersand (hk : c.headKind = some (.punctuator .ampersand)) :
    Rule.LocalAt (expression layer) 2 c := by
  have enter {d : Cursor} {n : Nat} (hd : c.Agrees d (n + 2)) :
      d.isPunctuator .ampersand = true ∧ d.advance.identifier? true = c.advance.identifier? true :=
    ⟨isPunctuator_iff.2 ((hd.headKind (by omega)).trans hk),
      identifier?_congr ((hd.advance hk).headKind (by omega))⟩
  cases hname : c.advance.identifier? true with
  | none =>
      refine .noMatch fun d hd => ?_
      obtain ⟨hsigil, hname'⟩ := enter (n := 0) hd
      rw [expression, if_pos hsigil, hname', hname]
  | some name =>
      obtain ⟨k, hname', -⟩ := identifier?_eq_some_iff.1 hname
      obtain ⟨m, hm, hnext⟩ := exists_decides_next hname'
      refine .settled (.done (.inOut name) (m + 1) (hm.cons hk) fun d hd => ?_)
      obtain ⟨hsigil, hname'⟩ := enter hd
      have hstop : d.advance.next = d.advanceBy (m + 1) := by
        rw [hnext _ ((hd.advance hk).mono (by omega))]
        exact d.advanceBy_advance m
      rw [expression, if_pos hsigil, hname', hname, hstop]
      simp only [(hd.shows (hm.cons hk) (by omega)).since]

/-- A prefix operator and its operand are read locally, if the operand is. -/
theorem localAt_expression_of_operator {operator : String}
    (hk : c.headKind = some (.operator operator))
    (hlayer : Rule.LocalAt (operand layer) 1 c.advance) : Rule.LocalAt (expression layer) 2 c := by
  have enter {d : Cursor} (hd : d.headKind = some (.operator operator)) :
      d.headKind ≠ some (.punctuator .ampersand) ∧ d.operator? = some operator :=
    ⟨by rw [hd]; simp, operator?_eq_some_iff.2 hd⟩
  cases hlayer with
  | noMatch h =>
      refine .noMatch fun d hd => ?_
      obtain ⟨hsigil, hoperator⟩ := enter ((hd.headKind (by omega)).trans hk)
      rw [expression_of_not_ampersand hsigil, hoperator]
      simp only [h _ (hd.advance hk)]
  | settled h =>
      refine .settled (h.behind_head hk ?_ ?_)
      · intro d f hd hf
        obtain ⟨hsigil, hoperator⟩ := enter hd
        rw [expression_of_not_ampersand hsigil, hoperator]
        simp only [hf]
      · intro o m hm ho
        refine .done (.prefixed operator o) (m + 1) hm fun d hd => ?_
        obtain ⟨hsigil, hoperator⟩ := enter ((hd.headKind (by omega)).trans hk)
        rw [expression_of_not_ampersand hsigil, hoperator]
        simp only [ho d hd, (hd.shows hm (by omega)).since]

/-- An operand is read locally as an expression, if it is. -/
theorem localAt_expression_of_operand (hsigil : c.headKind ≠ some (.punctuator .ampersand))
    (hoperator : c.operator? = none) (hlayer : Rule.LocalAt (operand layer) 1 c) :
    Rule.LocalAt (expression layer) 2 c := by
  have enter {d : Cursor} {n : Nat} (hd : c.Agrees d (n + 1)) :
      expression layer d = (operand layer d).map (·.map .plain) := by
    have hkd := hd.headKind (by omega)
    rw [expression_of_not_ampersand (hkd ▸ hsigil), operator?_congr hkd, hoperator]
    cases operand layer d <;> rfl
  cases hlayer with
  | noMatch h =>
      refine .noMatch fun d hd => ?_
      rw [enter hd, h d (hd.mono (by omega))]
      rfl
  | settled h =>
      cases h with
      | done o n hn h =>
          refine .settled (.done (.plain o) n hn fun d hd => ?_)
          rw [enter hd, h d hd]
          rfl
      | failed production m hm h =>
          refine .settled (.failed production m hm fun d hd => ?_)
          rw [enter hd, h d hd]
          rfl

/-- **Expressions are read locally**, if the operands are. -/
theorem localAt_expression
    (hlayer : ∀ d : Cursor, d.remaining ≤ c.remaining → Rule.LocalAt (operand layer) 1 d) :
    Rule.LocalAt (expression layer) 2 c := by
  by_cases hsigil : c.headKind = some (.punctuator .ampersand)
  · exact localAt_expression_of_ampersand hsigil
  · cases hoperator : c.operator? with
    | some operator =>
        exact localAt_expression_of_operator (headKind_of_operator? hoperator)
          (hlayer _ c.remaining_advance_le)
    | none => exact localAt_expression_of_operand hsigil hoperator (hlayer _ (Nat.le_refl _))

/-- Further members are read locally, if the operands behind the first comma are. -/
theorem settles_furtherMembers (done : List Expression)
    (hlayer : ∀ d : Cursor, d.remaining < c.remaining → Rule.LocalAt (operand layer) 1 d) :
    c.Settles (furtherMembers layer done) stopResult := by
  -- Each member leaves fewer tokens to the loop.
  induction hn : c.remaining using Nat.strongRecOn generalizing c done with
  | _ n ih =>
      subst hn
      by_cases hcomma : c.headKind = some (.punctuator .comma)
      · have hfewer := remaining_next_lt hcomma
        obtain ⟨m, hm, hnext⟩ := exists_decides_next hcomma
        have hstop : c.next = c.advanceBy m := hnext.self
        have hmember := (localAt_expression (c := c.next)
          fun d hd => hlayer d (by omega)).required .expression
        rw [hstop] at hmember hfewer
        have enter {d : Cursor} (hd : c.Agrees d (m + 2)) :
            d.headKind = some (.punctuator .comma) ∧ d.next = d.advanceBy m :=
          ⟨(hd.headKind (by omega)).trans hcomma, hnext d (hd.mono (by omega))⟩
        refine hmember.behind hm ?_ ?_
        · intro d f hd hf
          obtain ⟨hcomma, hnext⟩ := enter hd
          rw [furtherMembers_eq_of_comma hcomma, hnext]
          simp only [hf]
        · intro e n hn he
          have hrest := remaining_advanceBy_le (c.advanceBy m) n
          rw [advanceBy_advanceBy] at hrest
          have hmore := ih (c := c.advanceBy (m + n)) _ (by omega) (e :: done)
            (fun d hd => hlayer d (by omega)) rfl
          refine hmore.resume (hm.add hn) fun d hd => ?_
          obtain ⟨hcomma, hnext⟩ := enter (hd.mono (by omega))
          rw [furtherMembers_eq_of_comma hcomma, hnext]
          simp only [he d hd, advanceBy_advanceBy]
      · refine .done done.reverse 0 (shows_zero c) fun d hd => ?_
        rw [furtherMembers, dif_neg]
        · simp only [stopResult, advanceBy_zero]
        · rw [isPunctuator_iff, hd.headKind (by omega)]
          exact hcomma

/-- A list is an expression and a loop over further members. -/
theorem expressionList_eq_thenLoop : expressionList layer =
    Rule.thenLoop (expression layer) fun e => furtherMembers layer [e] := by
  funext c
  unfold expressionList Rule.thenLoop
  cases expression layer c with
  | error f => rfl
  | ok outcome =>
      cases outcome with
      | noMatch => rfl
      | matched e n =>
          cases hmore : furtherMembers layer [e] (c.advanceBy n) <;> simp only [hmore]

/-- **Lists are read locally**, if the operands are. -/
theorem localAt_expressionList
    (hlayer : ∀ d : Cursor, d.remaining ≤ c.remaining → Rule.LocalAt (operand layer) 1 d) :
    Rule.LocalAt (expressionList layer) 2 c := by
  rw [expressionList_eq_thenLoop]
  refine (localAt_expression hlayer).thenLoop fun e n _ => ?_
  have hrest := c.remaining_advanceBy_le n
  exact settles_furtherMembers [e] fun d hd => hlayer d (by omega)

/-! ## Operands of the standard layer -/

/-- Primaries are read locally, if the operands behind the first token are. -/
theorem localAt_primary
    (hlayer : ∀ d : Cursor, d.remaining < c.remaining → Rule.LocalAt (operand layer) 1 d) :
    Rule.LocalAt (primary layer) 1 c := by
  by_cases hk : c.headKind = some (.punctuator .leftParen)
  · have hfewer := remaining_advance_lt hk
    have hinner := (localAt_expression (c := c.advance)
      fun d hd => hlayer d (by omega)).required .expression
    refine .settled (hinner.enclosed .rightParen .closingParen
      (fun e n _ => .ok (.matched (.parenthesized e) (n + 2))) hk ?_ ?_ ?_)
    · intro d f hd hf
      rw [primary_eq_of_leftParen hd]
      simp only [hf]
    · intro d e n hd he
      rw [primary_eq_of_leftParen hd]
      simp only [he]
    · intro e n hn hwhole
      exact .done (.parenthesized e) (n + 2) hn fun d hd => hwhole d (hd.mono (by omega))
  · rcases primary_of_not_leftParen layer hk with hnone | ⟨k, o, hhead, hone⟩
    · refine .noMatch fun d hd => ?_
      rw [primary_congr_headKind hk (hd.headKind (by omega)), hnone]
    · refine .settled (.done o 1 (shows_one hhead) fun d hd => ?_)
      rw [primary_congr_headKind hk (hd.headKind (by omega)), hone]

/-- Arguments are read locally, if the operands are. -/
theorem settles_arguments
    (hlayer : ∀ d : Cursor, d.remaining ≤ c.remaining → Rule.LocalAt (operand layer) 1 d) :
    c.Settles (arguments layer) fun es n _ => (es, n) := by
  cases hclose : c.isPunctuator .rightParen with
  | true =>
      refine .done [] 0 (shows_zero c) fun d hd => ?_
      rw [arguments, isPunctuator_congr (hd.headKind (by omega)), hclose]
      rfl
  | false =>
      refine ((localAt_expressionList hlayer).required .expression).congr fun d hd => ?_
      rw [arguments, isPunctuator_congr (hd.headKind (by omega)), hclose]
      rfl

section Turns

variable {o : Operand}

/-- The suffix loop settles where it takes no turn. -/
theorem settles_suffixes_of_avoids (h : c.Avoids takesTurn) :
    c.Settles (suffixes layer o) stopResult := by
  refine .done o 0 (shows_zero c) fun d hd => ?_
  rw [suffixes_eq_of_avoids fun k hk => h k ((hd.headKind (by omega)).symm.trans hk)]
  simp only [stopResult, advanceBy_zero]

/-- The suffix loop settles at an opening parenthesis, if it does behind the closing one. -/
theorem settles_suffixes_of_leftParen (hk : c.headKind = some (.punctuator .leftParen))
    (hlayer : ∀ d : Cursor, d.remaining < c.remaining → Rule.LocalAt (operand layer) 1 d)
    (further : ∀ n o, (c.advanceBy n).remaining < c.remaining →
      (c.advanceBy n).Settles (suffixes layer o) stopResult) :
    c.Settles (suffixes layer o) stopResult := by
  have hfewer := remaining_advance_lt hk
  have hinner := settles_arguments (c := c.advance) fun d hd => hlayer d (by omega)
  refine hinner.enclosed .rightParen .closingParen
    (fun es n d => suffixes layer (.call o es) (d.advanceBy (n + 2))) hk ?_ ?_ ?_
  · intro d f hd hf
    rw [suffixes_eq_of_leftParen hd]
    simp only [hf]
  · intro d es n hd hes
    rw [suffixes_eq_of_leftParen hd]
    simp only [hes]
  · intro es n hn hturn
    have hlt := remaining_advanceBy_succ_lt hk (n + 1)
    exact (further (n + 2) (.call o es) hlt).resume hn fun d hd => hturn d (hd.mono (by omega))

/-- The suffix loop settles at a point, if it does behind the name. -/
theorem settles_suffixes_of_dot (hk : c.headKind = some (.punctuator .dot))
    (further : ∀ n o, (c.advanceBy n).remaining < c.remaining →
      (c.advanceBy n).Settles (suffixes layer o) stopResult) :
    c.Settles (suffixes layer o) stopResult := by
  have enter {d : Cursor} {n : Nat} (hd : c.Agrees d (n + 2)) :
      d.headKind = some (.punctuator .dot) ∧
        d.advance.identifier? true = c.advance.identifier? true :=
    ⟨(hd.headKind (by omega)).trans hk, identifier?_congr ((hd.advance hk).headKind (by omega))⟩
  cases hname : c.advance.identifier? true with
  | none =>
      refine .failed .memberName 1 (shows_one hk) fun d hd => ?_
      obtain ⟨hdot, hname'⟩ := enter hd
      rw [suffixes_eq_of_dot hdot, hname', hname]
      rfl
  | some name =>
      obtain ⟨k, hk', -⟩ := identifier?_eq_some_iff.1 hname
      have hlt := remaining_advanceBy_succ_lt hk 1
      refine (further 2 (.member o name) hlt).resume ((shows_one hk').cons hk) fun d hd => ?_
      obtain ⟨hdot, hname'⟩ := enter hd
      rw [suffixes_eq_of_dot hdot, hname', hname]

/-- The suffix loop settles at an operator, if it does behind it. -/
theorem settles_suffixes_of_operator {operator : String}
    (hk : c.headKind = some (.operator operator))
    (further : ∀ n o, (c.advanceBy n).remaining < c.remaining →
      (c.advanceBy n).Settles (suffixes layer o) stopResult) :
    c.Settles (suffixes layer o) stopResult := by
  have turn {d : Cursor} {n : Nat} (hd : c.Agrees d (n + 2)) : suffixes layer o d =
      if startsOperand c.advance then .ok (o, d)
      else suffixes layer (.postfixed o operator) (d.advanceBy 1) := by
    rw [suffixes_eq_of_operator ((hd.headKind (by omega)).trans hk),
      startsOperand_congr ((hd.advance hk).headKind (by omega))]
    rfl
  cases hstart : startsOperand c.advance with
  | true =>
      refine .done o 0 (shows_zero c) fun d hd => ?_
      rw [turn (n := 0) hd, if_pos hstart]
      simp only [stopResult, advanceBy_zero]
  | false =>
      have hlt := remaining_advance_lt hk
      refine (further 1 (.postfixed o operator) hlt).resume (shows_one hk) fun d hd => ?_
      rw [turn hd, hstart, if_neg Bool.false_ne_true]

end Turns

/-- **Suffixes are read locally**, if the operands behind the first token are. -/
theorem settles_suffixes (o : Operand)
    (hlayer : ∀ d : Cursor, d.remaining < c.remaining → Rule.LocalAt (operand layer) 1 d) :
    c.Settles (suffixes layer o) stopResult := by
  -- Each turn leaves fewer tokens to the loop.
  induction hn : c.remaining using Nat.strongRecOn generalizing c o with
  | _ n ih =>
      subst hn
      have further (n : Nat) (o : Operand) (hn : (c.advanceBy n).remaining < c.remaining) :
          (c.advanceBy n).Settles (suffixes layer o) stopResult :=
        ih _ hn o (fun d hd => hlayer d (by omega)) rfl
      cases hk : c.headKind with
      | none => exact settles_suffixes_of_avoids (avoids_of_headKind_eq_none hk _)
      | some k =>
          cases hturn : takesTurn k with
          | false => exact settles_suffixes_of_avoids (avoids_of_headKind hk hturn)
          | true =>
              unfold takesTurn at hturn
              split at hturn
              · exact settles_suffixes_of_leftParen hk hlayer further
              · exact settles_suffixes_of_dot hk further
              · exact settles_suffixes_of_operator hk further
              · cases hturn

/-- A whole operand is a primary and the loop over its suffixes. -/
theorem primaryWithSuffixes_eq_thenLoop : primaryWithSuffixes layer =
    Rule.thenLoop (primary layer) fun o => suffixes layer o := by
  funext c
  unfold primaryWithSuffixes Rule.thenLoop
  cases primary layer c with
  | error f => rfl
  | ok outcome =>
      cases outcome with
      | noMatch => rfl
      | matched o n => cases hmore : suffixes layer o (c.advanceBy n) <;> simp only [hmore]

/-- Whole operands are read locally, if the operands behind the first token are. -/
theorem localAt_primaryWithSuffixes
    (hlayer : ∀ d : Cursor, d.remaining < c.remaining → Rule.LocalAt (operand layer) 1 d) :
    Rule.LocalAt (primaryWithSuffixes layer) 1 c := by
  rw [primaryWithSuffixes_eq_thenLoop]
  refine (localAt_primary hlayer).thenLoop fun o n ho => ?_
  have hfewer := remaining_lt_of_primary ho
  exact settles_suffixes o fun d hd => hlayer d (by omega)

/-- No match of the standard layer is empty, so the rule for operands is that layer. -/
theorem operand_standard (c : Cursor) : operand .standard c = Layer.standard c := by
  unfold operand
  split
  · next o h =>
      obtain ⟨w, hw, -, hderives⟩ := Layer.soundAt_standard c o 0 h
      exact absurd (List.length_eq_zero_iff.1 hw) hderives.ne_nil
  · rfl

/-- **Operands are read locally**, over the standard layer. -/
theorem localAt_operand_standard (c : Cursor) : Rule.LocalAt (operand .standard) 1 c := by
  -- The layer consults itself only where fewer tokens remain.
  induction hn : c.remaining using Nat.strongRecOn generalizing c with
  | _ n ih =>
      subst hn
      have hlayer : operand .standard = primaryWithSuffixes .standard := by
        funext d
        rw [operand_standard, Layer.standard_eq]
      rw [hlayer]
      exact localAt_primaryWithSuffixes fun d hd => ih _ hd d rfl

/-- Expressions are read locally, over the standard layer. -/
theorem localAt_expression_standard (c : Cursor) : Rule.LocalAt (expression .standard) 2 c :=
  localAt_expression fun d _ => localAt_operand_standard d

/-- Lists are read locally, over the standard layer. -/
theorem localAt_expressionList_standard (c : Cursor) :
    Rule.LocalAt (expressionList .standard) 2 c :=
  localAt_expressionList fun d _ => localAt_operand_standard d

/-! ## Types, ascriptions and patterns -/

/-- Reading marks looks one token behind them. -/
theorem exists_decides_optionalMarks (t : TypeExpr) (c : Cursor) :
    ∃ marked m, c.Shows m ∧
      c.Decides (m + 1) (optionalMarks t) fun d => (marked, d.advanceBy m) := by
  have turn {t t' : TypeExpr} {c : Cursor} {k : Kind} {n : Nat} (hk : c.headKind = some k)
      (hmark : IsMark k n) (ht : t.optionals n = t')
      (h : ∃ marked m, c.advance.Shows m ∧
        c.advance.Decides (m + 1) (optionalMarks t') fun d => (marked, d.advanceBy m)) :
      ∃ marked m, c.Shows m ∧
        c.Decides (m + 1) (optionalMarks t) fun d => (marked, d.advanceBy m) := by
    obtain ⟨marked, m, hm, h⟩ := h
    refine ⟨marked, m + 1, hm.cons hk, fun d hd => ?_⟩
    rw [optionalMarks_of_isMark ((hd.headKind (by omega)).trans hk) hmark, ht,
      h _ (hd.advance hk)]
    exact congrArg _ (d.advanceBy_advance m)
  have stop {t : TypeExpr} {c : Cursor} (h : c.Avoids Kind.isMark) : ∃ marked m, c.Shows m ∧
      c.Decides (m + 1) (optionalMarks t) fun d => (marked, d.advanceBy m) := by
    refine ⟨t, 0, shows_zero c, fun d hd => ?_⟩
    rw [optionalMarks_of_avoids fun k hk => h k ((hd.headKind (by omega)).symm.trans hk)]
    simp only [advanceBy_zero]
  fun_induction optionalMarks t c with
  | case1 t c hk _ ih => exact turn hk .question rfl ih
  | case2 t c text hk _ hall ih => exact turn hk (.operator (by simpa using hall)) rfl ih
  | case3 t c text hk _ hall => exact stop (avoids_of_headKind hk (Bool.eq_false_iff.2 hall))
  | case4 t c hquestion hoperator =>
      refine stop fun k hk => ?_
      unfold Kind.isMark
      split
      · exact absurd hk hquestion
      · exact absurd hk (hoperator _)
      · rfl

/-- With the marks behind it, a type whose beginning shows is read locally. -/
theorem settles_of_withOptionalMarks {run : Rule TypeExpr} {n : Nat} {t : TypeExpr}
    (hn : c.Shows n)
    (hrun : ∀ d, c.Agrees d (n + 1) → run d = .ok (withOptionalMarks d t (d.advanceBy n))) :
    c.Settles run fun t n _ => .matched t n := by
  obtain ⟨marked, m, hm, h⟩ := exists_decides_optionalMarks t (c.advanceBy n)
  have hall := hn.add hm
  refine .done marked (n + m) hall fun d hd => ?_
  rw [hrun d (hd.mono (by omega)), withOptionalMarks, h _ (hd.advanceBy hn (by omega))]
  simp only [advanceBy_advanceBy, (hd.shows hall (by omega)).since]

/-- An array is read locally, if its element is. -/
theorem localAt_type_of_leftBracket (hk : c.headKind = some (.punctuator .leftBracket))
    (helement : Rule.LocalAt type 1 c.advance) : Rule.LocalAt type 1 c := by
  have hinner := (helement.mono (Nat.le_succ 1)).required .type
  refine .settled (hinner.enclosed .rightBracket .closingBracket
    (fun t n d => .ok (withOptionalMarks d (.array t) (d.advanceBy (n + 2)))) hk ?_ ?_ ?_)
  · intro d f hd hf
    rw [type_eq_of_leftBracket hd]
    simp only [hf]
  · intro d t n hd ht
    rw [type_eq_of_leftBracket hd]
    simp only [ht]
  · intro t n hn hwhole
    exact settles_of_withOptionalMarks hn hwhole

/-- **Types are read locally.** -/
theorem localAt_type (c : Cursor) : Rule.LocalAt type 1 c := by
  have elsewhere {c : Cursor} (h : c.Avoids beginsType) : Rule.LocalAt type 1 c :=
    .noMatch fun d hd => type_eq_of_avoids fun k hk =>
      h k ((hd.headKind (by omega)).symm.trans hk)
  induction hn : c.remaining using Nat.strongRecOn generalizing c with
  | _ n ih =>
      subst hn
      cases hk : c.headKind with
      | none => exact elsewhere (avoids_of_headKind_eq_none hk _)
      | some k =>
          cases hbegins : beginsType k with
          | false => exact elsewhere (avoids_of_headKind hk hbegins)
          | true =>
              unfold beginsType at hbegins
              split at hbegins
              · exact .settled (settles_of_withOptionalMarks (shows_one hk) fun d hd =>
                  type_eq_of_identifier ((hd.headKind (by omega)).trans hk))
              · exact localAt_type_of_leftBracket hk (ih _ (remaining_advance_lt hk) _ rfl)
              · cases hbegins

/-- The type at the end of an ascription is read locally. -/
theorem settles_of_ascribedType {run : Rule Ascription} {n : Nat} (isInout : Bool)
    (hn : c.Shows n)
    (hrun : ∀ d, c.Agrees d (n + 1) → run d = ascribedType isInout (d.advanceBy n) d) :
    c.Settles run fun a n _ => .matched a n := by
  have htype := ((localAt_type (c.advanceBy n)).mono (Nat.le_succ 1)).required .type
  refine htype.behind hn ?_ ?_
  · intro d f hd hf
    rw [hrun d (hd.mono (by omega)), ascribedType]
    simp only [hf]
  · intro t m hm ht
    have hall := hn.add hm
    refine .done ⟨t, isInout⟩ (n + m) hall fun d hd => ?_
    rw [hrun d (hd.mono (by omega)), ascribedType]
    simp only [ht d hd, advanceBy_advanceBy, (hd.shows hall (by omega)).since]

/-- **Ascriptions are read locally.** -/
theorem localAt_typeAscription (c : Cursor) : Rule.LocalAt typeAscription 1 c := by
  by_cases hcolon : c.headKind = some (.punctuator .colon)
  · obtain ⟨m, hm, hnext⟩ := exists_decides_next hcolon
    have enter {d : Cursor} (hd : c.Agrees d (m + 1)) : typeAscription d =
        if (c.advanceBy m).isKeyword (.reserved .kwInout) then
          ascribedType true (d.advanceBy m).next d
        else ascribedType false (d.advanceBy m) d := by
      have hcolon' := isPunctuator_iff.2 ((hd.headKind (by omega)).trans hcolon)
      have hword : (d.advanceBy m).isKeyword (.reserved .kwInout) =
          (c.advanceBy m).isKeyword (.reserved .kwInout) := by
        rw [isKeyword, hd.headKind_advanceBy hm (by omega), isKeyword]
      rw [typeAscription, if_pos hcolon', hnext d hd, hword]
    cases hinout : (c.advanceBy m).isKeyword (.reserved .kwInout) with
    | false =>
        refine .settled (settles_of_ascribedType false hm fun d hd => ?_)
        rw [enter hd, hinout, if_neg Bool.false_ne_true]
    | true =>
        obtain ⟨m', hm', hnext'⟩ := exists_decides_next (isKeyword_iff.1 hinout)
        refine .settled (settles_of_ascribedType true (hm.add hm') fun d hd => ?_)
        rw [enter (hd.mono (by omega)), if_pos hinout, hnext' _ (hd.advanceBy hm (by omega))]
        simp only [advanceBy_advanceBy]
  · refine .noMatch fun d hd => ?_
    rw [typeAscription, isPunctuator_congr (hd.headKind (by omega)),
      if_neg (mt isPunctuator_iff.1 hcolon)]

/-- **Patterns are read locally.** -/
theorem localAt_pattern (c : Cursor) : Rule.LocalAt pattern 1 c := by
  have same {d : Cursor} (hd : d.headKind = c.headKind) :
      d.identifier? true = c.identifier? true := identifier?_congr hd
  cases hname : c.identifier? true with
  | none =>
      refine .noMatch fun d hd => ?_
      rw [pattern, same (hd.headKind (by omega)), hname]
  | some name =>
      obtain ⟨k, hk, -⟩ := identifier?_eq_some_iff.1 hname
      cases localAt_typeAscription c.advance with
      | noMatch h =>
          refine .settled (.done ⟨name, none⟩ 1 (shows_one hk) fun d hd => ?_)
          rw [pattern, same (hd.headKind (by omega)), hname]
          simp only [h _ ((hd.advance hk).mono (by omega))]
          exact congrArg (fun n => Except.ok (Outcome.matched _ n))
            (hd.shows (shows_one hk) (by omega)).since
      | settled h =>
          refine .settled (h.behind_head hk ?_ ?_)
          · intro d f hd hf
            rw [pattern, same (hd.trans hk.symm), hname]
            simp only [hf]
          · intro a m hm ha
            refine .done ⟨name, some a⟩ (m + 1) hm fun d hd => ?_
            rw [pattern, same (hd.headKind (by omega)), hname]
            simp only [ha d hd, advanceBy_advance, (hd.shows hm (by omega)).since]

end Grammar

end ExprFront
