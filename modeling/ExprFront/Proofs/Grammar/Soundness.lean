/-
# What the rules for expressions match

Whatever a rule matches is derived: a match of `n` tokens covers `n` kinds that stand for its value.
Each rule is taken over any layer of operands that has this property where the rule consults it; the
standard layer then has it everywhere, by induction on the tokens that remain.
-/
import ExprFront.Grammar.Operand
import ExprFront.Proofs.Grammar.Derivation
import ExprFront.Proofs.Grammar.Recognition

namespace ExprFront

/-- What the layer matches at the cursor is derived. -/
def Layer.SoundAt (layer : Layer) (c : Cursor) : Prop :=
  ∀ o n, layer c = .ok (.matched o n) → c.Covers n Derives (.operand o)

namespace Grammar

open Cursor

variable {layer : Layer} {c stop : Cursor}

/-! ## Expressions and lists -/

/-- A match of an operand is a match of the layer. -/
theorem layer_eq_of_operand {o : Operand} {n : Nat} (h : operand layer c = .ok (.matched o n)) :
    layer c = .ok (.matched o n) := by
  unfold operand at h
  split at h
  · cases h
  · exact h

/-- **What is matched as an expression is derived.** -/
theorem covers_of_expression {e : Expression} {n : Nat}
    (hlayer : ∀ d : Cursor, d.remaining ≤ c.remaining → layer.SoundAt d)
    (h : expression layer c = .ok (.matched e n)) : c.Covers n Derives (.expression e) := by
  unfold expression at h
  split at h
  · next hsigil =>
      split at h
      · next name hname =>
          -- The trivia behind the name count for the match.
          cases h
          obtain ⟨k, hk, hread⟩ := identifier?_eq_some_iff.1 hname
          obtain ⟨trivia, htrivia, hskip, -⟩ := exists_passes_skipTrivia c.advance.advance
          have hpasses := Passes.cons (isPunctuator_iff.1 hsigil) (hskip.cons hk)
          exact hpasses.since ▸ hpasses.covers (.inOut hread htrivia)
      · cases h
  · split at h
    · next operator hoperator =>
        split at h
        · next o m ho =>
            cases h
            obtain ⟨w, rfl, hpasses, hw⟩ :=
              hlayer c.advance c.remaining_advance_le o m (layer_eq_of_operand ho)
            have hall := Passes.cons (operator?_eq_some_iff.1 hoperator) hpasses
            have hstop : c.advanceBy (w.length + 1) = c.advance.advanceBy w.length :=
              hall.advanceBy_length
            rw [hstop, hall.since]
            exact hall.covers (.prefixed operator hw)
        · cases h
        · cases h
    · split at h
      · next outcome ho =>
          cases outcome with
          | noMatch => cases h
          | matched o m =>
              cases h
              obtain ⟨w, rfl, hpasses, hw⟩ :=
                hlayer c (Nat.le_refl _) o n (layer_eq_of_operand ho)
              exact hpasses.covers (.plain hw)
      · cases h

/-- What is matched as further members continues the list before it. -/
theorem passes_of_furtherMembers {done members : List Expression}
    (hlayer : ∀ d : Cursor, d.remaining < c.remaining → layer.SoundAt d)
    (h : furtherMembers layer done c = .ok (members, stop)) :
    ∃ w es, members = done.reverse ++ es ∧ c.Passes w stop ∧
      ∀ u e, Derives u (.expression e) → Derives (u ++ w) (.members (e :: es)) := by
  -- The loop knows only what it has read, so the statement quantifies over the member before it.
  fun_induction furtherMembers layer done c with
  | case1 done c hcomma e n he hle hlt ih =>
      obtain ⟨w, rfl, hpasses, hw⟩ := covers_of_expression
        (fun d hd => hlayer d (by omega)) (eq_of_required he)
      obtain ⟨w', es, rfl, hpasses', hes⟩ := ih (fun d hd => hlayer d (by omega)) h
      obtain ⟨trivia, htrivia, hskip, -⟩ := exists_passes_skipTrivia c.advance
      refine ⟨_, e :: es, by simp,
        (hskip.trans (hpasses.trans hpasses')).cons (isPunctuator_iff.1 hcomma), ?_⟩
      intro u e' hu
      exact .more hu htrivia (hes w e hw)
  | case2 => cases h
  | case3 done c hcomma =>
      cases h
      refine ⟨[], [], by simp, .nil _, fun u e hu => ?_⟩
      rw [List.append_nil]
      exact .single hu

/-- **What is matched as a list is derived.** -/
theorem covers_of_expressionList {es : List Expression} {n : Nat}
    (hlayer : ∀ d : Cursor, d.remaining ≤ c.remaining → layer.SoundAt d)
    (h : expressionList layer c = .ok (.matched es n)) : c.Covers n Derives (.members es) := by
  unfold expressionList at h
  split at h
  · next e m he =>
      split at h
      · next members stop hmembers =>
          cases h
          obtain ⟨w, rfl, hpasses, hw⟩ := covers_of_expression hlayer he
          have hfewer : (c.advanceBy w.length).remaining ≤ c.remaining :=
            c.remaining_advanceBy_le _
          obtain ⟨w', es', rfl, hpasses', hes⟩ :=
            passes_of_furtherMembers (fun d hd => hlayer d (by omega)) hmembers
          have hall := hpasses.trans hpasses'
          exact hall.since ▸ hall.covers (hes w e hw)
      · cases h
  · cases h
  · cases h

/-! ## Operands of the standard layer -/

/-- What is matched as a primary is derived, and it is no postfix operator. -/
theorem covers_of_primary {o : Operand} {n : Nat}
    (hlayer : ∀ d : Cursor, d.remaining < c.remaining → layer.SoundAt d)
    (h : primary layer c = .ok (.matched o n)) :
    c.Covers n Derives (.operand o) ∧ o.isPostfixed = false := by
  unfold primary at h
  split at h
  · next value hk =>
      cases h
      exact ⟨⟨[_], rfl, .head hk, .literal value⟩, rfl⟩
  · next hk =>
      split at h
      · next e m he =>
          split at h
          · next hclose =>
              cases h
              have hlt := remaining_advance_lt hk
              obtain ⟨w, rfl, hpasses, hw⟩ := covers_of_expression
                (fun d hd => hlayer d (by omega)) (eq_of_required he)
              have hall := hpasses.enclose hk (isPunctuator_iff.1 hclose)
              exact ⟨⟨_, by simp, hall, .parenthesized hw⟩, rfl⟩
          · cases h
      · cases h
  · split at h
    · next name hname =>
        cases h
        obtain ⟨k, hk, hread⟩ := identifier?_eq_some_iff.1 hname
        exact ⟨⟨[k], rfl, .head hk, .name hread⟩, rfl⟩
    · cases h

/-- What is matched as arguments makes a call of any operand that is no postfix operator. -/
theorem passes_of_arguments {es : List Expression} {n : Nat}
    (hlayer : ∀ d : Cursor, d.remaining ≤ c.remaining → layer.SoundAt d)
    (h : arguments layer c = .ok (es, n)) :
    ∃ w, w.length = n ∧ c.Passes w (c.advanceBy n) ∧
      ∀ u o, Derives u (.operand o) → o.isPostfixed = false →
        Derives (u ++ (.punctuator .leftParen :: w ++ [.punctuator .rightParen]))
          (.operand (.call o es)) := by
  unfold arguments at h
  split at h
  · cases h
    exact ⟨[], rfl, by simpa using Passes.nil c, fun u o hu ho => .callEmpty hu ho⟩
  · obtain ⟨w, hn, hpasses, hw⟩ := covers_of_expressionList hlayer (eq_of_required h)
    exact ⟨w, hn, hpasses, fun u o hu ho => .call hu ho hw⟩

/-- An operand in front of an opening parenthesis ends in no postfix operator: the operator would
not have been read as a suffix, as the parenthesis starts an operand. -/
theorem isPostfixed_eq_false_of_leftParen {o : Operand}
    (hk : c.headKind = some (.punctuator .leftParen))
    (hclosed : o.isPostfixed = true → startsOperand c = false) : o.isPostfixed = false := by
  have hstart : startsOperand c = true := by rw [startsOperand, hk]
  rw [Bool.eq_false_iff]
  intro hpostfixed
  rw [hclosed hpostfixed] at hstart
  cases hstart

/-- **What is matched as suffixes continues the operand before them.**  An operand that ends in a
postfix operator is never followed by a parenthesis here, as the operator would not have been read
as a suffix. -/
theorem passes_of_suffixes {o whole : Operand}
    (hlayer : ∀ d : Cursor, d.remaining < c.remaining → layer.SoundAt d)
    (hclosed : o.isPostfixed = true → startsOperand c = false)
    (h : suffixes layer o c = .ok (whole, stop)) :
    ∃ w, c.Passes w stop ∧ ∀ u, Derives u (.operand o) → Derives (u ++ w) (.operand whole) := by
  fun_induction suffixes layer o c with
  | case1 o c hk es n he hlt hclose ih =>
      have hfewer := remaining_advance_lt hk
      have ho := isPostfixed_eq_false_of_leftParen hk hclosed
      obtain ⟨w, rfl, hpasses, hcall⟩ := passes_of_arguments (fun d hd => hlayer d (by omega)) he
      obtain ⟨w', hpasses', hw'⟩ :=
        ih (fun d hd => hlayer d (Nat.lt_trans hd hlt)) (fun hcall => by cases hcall) h
      have hcalled := hpasses.enclose hk (isPunctuator_iff.1 hclose)
      refine ⟨_, hcalled.trans hpasses', fun u hu => ?_⟩
      rw [← List.append_assoc]
      exact hw' _ (hcall u o hu ho)
  | case2 => cases h
  | case3 => cases h
  | case4 o c hk name hname hlt ih =>
      obtain ⟨k, hname, hread⟩ := identifier?_eq_some_iff.1 hname
      obtain ⟨w, hpasses, hw⟩ :=
        ih (fun d hd => hlayer d (Nat.lt_trans hd hlt)) (fun hmember => by cases hmember) h
      have hmember := Passes.cons hk (.head hname)
      have hend : c.advanceBy 2 = c.advance.advance := hmember.advanceBy_length
      rw [hend] at hpasses
      refine ⟨_, hmember.trans hpasses, fun u hu => ?_⟩
      rw [← List.append_assoc]
      exact hw _ (.member hu hread)
  | case5 => cases h
  | case6 o c =>
      -- An operand starts behind the operator, which is left for the expression that follows.
      cases h
      exact ⟨[], .nil _, fun u hu => by rwa [List.append_nil]⟩
  | case7 o c operator hk hlt hstart ih =>
      obtain ⟨w, hpasses, hw⟩ := ih (fun d hd => hlayer d (Nat.lt_trans hd hlt))
        (fun _ => Bool.eq_false_iff.2 hstart) h
      refine ⟨_, hpasses.cons hk, fun u hu => ?_⟩
      rw [← List.singleton_append, ← List.append_assoc]
      exact hw _ (.postfixed operator hu)
  | case8 o c =>
      cases h
      exact ⟨[], .nil _, fun u hu => by rwa [List.append_nil]⟩

/-- What is matched as a whole operand is derived. -/
theorem covers_of_primaryWithSuffixes {o : Operand} {n : Nat}
    (hlayer : ∀ d : Cursor, d.remaining < c.remaining → layer.SoundAt d)
    (h : primaryWithSuffixes layer c = .ok (.matched o n)) : c.Covers n Derives (.operand o) := by
  unfold primaryWithSuffixes at h
  split at h
  · next start m hstart =>
      split at h
      · next whole stop hsuffixes =>
          cases h
          have hfewer := remaining_lt_of_primary hstart
          obtain ⟨⟨w, rfl, hpasses, hw⟩, hopen⟩ := covers_of_primary hlayer hstart
          obtain ⟨w', hpasses', hw'⟩ := passes_of_suffixes
            (fun d hd => hlayer d (by omega)) (by simp [hopen]) hsuffixes
          have hall := hpasses.trans hpasses'
          exact hall.since ▸ hall.covers (hw' w hw)
      · cases h
  · cases h
  · cases h

end Grammar

/-- **What the standard layer matches is derived**, at every cursor. -/
theorem Layer.soundAt_standard (c : Cursor) : Layer.SoundAt .standard c := by
  -- The layer consults itself only where fewer tokens remain.
  induction hn : c.remaining using Nat.strongRecOn generalizing c with
  | _ n ih =>
      intro o m h
      rw [Layer.standard_eq] at h
      exact Grammar.covers_of_primaryWithSuffixes
        (fun d hd => ih d.remaining (hn ▸ hd) d rfl) h

end ExprFront
