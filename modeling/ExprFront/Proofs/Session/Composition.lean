/-
# Sources made of sources

Accepted sources are put together as the nodes that they stand for: lists behind a comma,
expressions in parentheses, suffixes behind operands and operators in front of them.  The parts may
hold trivia wherever these are accepted, but at a seam there are none, and no lexeme grows over it.

The main fact is `parseSource_composed`.
-/
import Mathlib
import ExprFront.Proofs.Session.Sentence
import ExprFront.Proofs.RoundTrip.Expression

namespace ExprFront

open Spelling

/-! ## Derivations put together -/

/-- Lists with a comma between them are one list. -/
theorem Derives.members_append {u trivia w : List Kind} {es fs : List Expression}
    (hu : Derives u (.members es)) (htrivia : ∀ t ∈ trivia, t.isTrivia = true)
    (hw : Derives w (.members fs)) :
    Derives (u ++ .punctuator .comma :: (trivia ++ w)) (.members (es ++ fs)) := by
  generalize hp : Phrase.members es = p at hu
  induction hu generalizing es with
  | single member =>
      cases hp
      exact .more member htrivia hw
  | @more u trivia' w' e es member htrivia' rest _ ih =>
      cases hp
      rw [List.append_assoc, List.cons_append, List.append_assoc]
      exact .more member htrivia' (ih rfl)
  | _ => cases hp

/-- An operand ends in a name, a literal, a parenthesis or a postfix operator. -/
theorem Derives.getLast_operand {u : List Kind} {o : Operand} (h : Derives u (.operand o)) :
    ∀ k ∈ u.getLast?, k.isTrivia = false ∧
      (k.category = .operatorRun → o.isPostfixed = true) := by
  have name {k : Kind} {name : Identifier} {b : Bool} (hname : k.name? = some name) :
      k.isTrivia = false ∧ (k.category = .operatorRun → b = true) := by
    refine ⟨Kind.isTrivia_eq_false_of_name? hname, fun hrun => ?_⟩
    exact absurd hrun (Kind.category_of_beginsOperand (Kind.beginsOperand_of_name? hname)).1
  intro k hk
  cases h with
  | name hname =>
      obtain rfl : _ = k := by simpa using hk
      exact name hname
  | literal value =>
      obtain rfl : _ = k := by simpa using hk
      refine ⟨rfl, fun hrun => ?_⟩
      exact absurd hrun (Kind.category_of_beginsOperand rfl).1
  | parenthesized inner =>
      rw [List.getLast?_concat] at hk
      cases hk
      exact ⟨rfl, nofun⟩
  | callEmpty callee hcallee =>
      obtain rfl : _ = k := by simpa using hk
      exact ⟨rfl, nofun⟩
  | call callee hcallee arguments =>
      rw [← List.append_assoc, List.getLast?_concat] at hk
      cases hk
      exact ⟨rfl, nofun⟩
  | member base hname =>
      obtain rfl : _ = k := by simpa using hk
      exact name hname
  | postfixed operator operand =>
      obtain rfl : _ = k := by simpa using hk
      exact ⟨rfl, fun _ => rfl⟩

/-! ## Seams -/

/-- What may follow an operand begins with no number. -/
theorem CanFollow.head_ne_number {isPostfixed : Bool} {w : List Kind}
    (h : CanFollow isPostfixed (w ++ [.endOfInput])) : ∀ m ∈ w.head?, m.category ≠ .number := by
  obtain ⟨k, rest, heq, hk, -⟩ := h
  intro m hm
  obtain ⟨w', rfl⟩ := List.head?_eq_some_iff.1 hm
  obtain ⟨rfl, -⟩ := List.cons.inj heq
  rcases hk with hk | hk | ⟨hk, -⟩ <;> simp [hk]

namespace SplitsInto

variable {s t : List Char} {u w : List Kind}

/-- **A text in front of one that may follow it.**  The last kind of the first text is no trivia,
and what may follow such an operand stands behind it. -/
theorem append_of_canFollow (isPostfixed : Bool) (hs : SplitsInto s u) (ht : SplitsInto t w)
    (hlast : ∀ k ∈ u.getLast?, k.isTrivia = false ∧
      (k.category = .operatorRun → isPostfixed = true))
    (hfollow : CanFollow isPostfixed (w ++ [.endOfInput])) : SplitsInto (s ++ t) (u ++ w) := by
  refine hs.append ht (hs.spaced.append ht.spaced (fun k hk => ?_) hfollow.head_ne_number)
  obtain ⟨htrivia, hrun⟩ := hlast k hk
  exact Kind.leadsTo_of_canFollow hfollow (Kind.category_ne_whitespace htrivia)
    (Kind.category_ne_comment htrivia) hrun

/-- A mark that is no operator run may stand in front of any text. -/
theorem cons_mark (mark : Punctuator) (hmark : (Kind.punctuator mark).category = .mark)
    (hs : SplitsInto s u) : SplitsInto (mark.symbol.toList ++ s) (.punctuator mark :: u) := by
  have hsingle : SplitsInto mark.symbol.toList [.punctuator mark] :=
    .of_spaced (spaced_cons_of_mark trivial hmark trivial) (by simp [Kind.text])
  exact hsingle.append hs (spaced_cons_of_mark trivial hmark hs.spaced)

/-- Where a text does not end with trivia, a comma and any text may stand behind it. -/
theorem append_comma (hs : SplitsInto s u) (hlast : ∀ k ∈ u.getLast?, k.isTrivia = false)
    (ht : SplitsInto t w) : SplitsInto (s ++ (',' :: t)) (u ++ .punctuator .comma :: w) :=
  hs.append_of_canFollow true (ht.cons_mark .comma rfl)
    (fun k hk => ⟨hlast k hk, fun _ => rfl⟩) (canFollow_of_mark rfl nofun)

/-- A source that does not end with trivia may stand in parentheses. -/
theorem parenthesized {source : String} (hs : SplitsInto source.toList u)
    (hlast : ∀ k ∈ u.getLast?, k.isTrivia = false) :
    SplitsInto ("(" ++ source ++ ")").toList
      (.punctuator .leftParen :: u ++ [.punctuator .rightParen]) := by
  have hclosing : SplitsInto [')'] [.punctuator .rightParen] :=
    .of_spaced (spaced_cons_of_mark trivial rfl trivial) rfl
  have hclosed := hs.append_of_canFollow true hclosing (fun k hk => ⟨hlast k hk, fun _ => rfl⟩)
    (canFollow_of_mark rfl nofun)
  rw [String.toList_append, String.toList_append]
  exact hclosed.cons_mark .leftParen rfl

end SplitsInto

/-- A plain name is read as one token. -/
theorem splitsInto_name {name : String} (h : (Identifier.plain name).WellFormed) :
    SplitsInto name.toList [(Identifier.plain name).kind] := by
  have htext : (Identifier.plain name).kind.text = name := (Identifier.plain name).text_kind
  refine .of_spaced (spaced_cons_of_name h trivial (canFollow_end true)) ?_
  rw [List.flatMap_singleton, htext]

/-- An operator is read as one token. -/
theorem splitsInto_operator {operator : String} (h : IsOperator operator.toList) :
    SplitsInto operator.toList [.operator operator] := by
  have hspaced : Spaced [.operator operator] :=
    ⟨h, nofun, Kind.leadsTo_of_operatorRun rfl (by simp [Kind.category]), trivial⟩
  exact .of_spaced hspaced (by simp [Kind.text])

/-! ## Composed sources -/

namespace Entry

variable {s t : String} {o : Operand}

/-- The text splits into trivia and then into what derives the operand. -/
theorem exists_derives_of_parseSource (hs : Entry.expression.parseSource s = .ok (.plain o))
    (hend : EndsSignificant s) :
    ∃ before u, SplitsInto s.toList (before ++ u) ∧ (∀ k ∈ before, k.isTrivia = true) ∧
      Derives u (.operand o) := by
  obtain ⟨w, hsplits, hsentence⟩ := reads_expression.parseSource_eq_ok_iff.1 hs
  obtain ⟨before, u, rfl, hbefore, hu⟩ := hsentence.exists_of_getLast (hend.getLast hsplits)
  cases hu with
  | plain operand => exact ⟨before, u, hsplits, hbefore, operand⟩

/-- **A suffix behind an operand.**  What may follow the operand and goes on with its derivation is
read as a part of it. -/
theorem parseSource_suffixed {suffix : String} {o' : Operand} {w : List Kind}
    (hs : Entry.expression.parseSource s = .ok (.plain o)) (hend : EndsSignificant s)
    (hsuffix : SplitsInto suffix.toList w)
    (hfollow : CanFollow o.isPostfixed (w ++ [.endOfInput]))
    (hderives : ∀ u, Derives u (.operand o) → Derives (u ++ w) (.operand o')) :
    Entry.expression.parseSource (s ++ suffix) = .ok (.plain o') := by
  obtain ⟨before, u, hsplits, hbefore, hu⟩ := exists_derives_of_parseSource hs hend
  refine reads_expression.parseSource_eq_ok_iff.2 ⟨before ++ u ++ w, ?_, ?_⟩
  · rw [String.toList_append]
    refine hsplits.append_of_canFollow o.isPostfixed hsuffix (fun k hk => ?_) hfollow
    rw [List.getLast?_append_of_ne_nil _ hu.ne_nil] at hk
    exact hu.getLast_operand k hk
  · exact ⟨before, u ++ w, [], by simp, hbefore, nofun, .plain (hderives u hu)⟩

/-- A member of an operand. -/
theorem parseSource_member {m : String}
    (hs : Entry.expression.parseSource s = .ok (.plain o)) (hend : EndsSignificant s)
    (hm : (Identifier.plain m).WellFormed) :
    Entry.expression.parseSource (s ++ "." ++ m) = .ok (.plain (.member o (.plain m))) := by
  have hsuffix : SplitsInto ("." ++ m).toList [.punctuator .dot, (Identifier.plain m).kind] := by
    rw [String.toList_append]
    exact (splitsInto_name hm).cons_mark .dot rfl
  rw [String.append_assoc]
  refine parseSource_suffixed hs hend hsuffix ⟨_, _, rfl, .inl rfl, fun _ k hk => ?_⟩
    fun u hu => .member hu hm.name?_kind
  obtain rfl : (Identifier.plain m).kind = k := by simpa using hk
  rcases hm.category_kind with h | h <;> simp [h]

/-- A call of an operand without arguments. -/
theorem parseSource_callEmpty (hs : Entry.expression.parseSource s = .ok (.plain o))
    (hend : EndsSignificant s) (ho : o.isPostfixed = false) :
    Entry.expression.parseSource (s ++ "()") = .ok (.plain (.call o [])) := by
  have hsuffix : SplitsInto "()".toList [.punctuator .leftParen, .punctuator .rightParen] :=
    .of_spaced (spaced_cons_of_mark trivial rfl (spaced_cons_of_mark trivial rfl trivial)) rfl
  exact parseSource_suffixed hs hend hsuffix (canFollow_of_mark rfl nofun)
    fun u hu => .callEmpty hu ho

/-- A postfix operator behind an operand. -/
theorem parseSource_postfixed {operator : String}
    (hs : Entry.expression.parseSource s = .ok (.plain o)) (hend : EndsSignificant s)
    (ho : o.isPostfixed = false) (hoperator : IsOperator operator.toList) :
    Entry.expression.parseSource (s ++ operator) = .ok (.plain (.postfixed o operator)) :=
  parseSource_suffixed hs hend (splitsInto_operator hoperator)
    ⟨_, _, rfl, .inr (.inr ⟨rfl, ho⟩), nofun⟩ fun _ hu => .postfixed operator hu

/-- A call of an operand with the members of a list. -/
theorem parseSource_call {es : List Expression}
    (hs : Entry.expression.parseSource s = .ok (.plain o)) (hend : EndsSignificant s)
    (ho : o.isPostfixed = false) (ht : Entry.expressionList.parseSource t = .ok es)
    (htfirst : StartsSignificant t) (htlast : EndsSignificant t) :
    Entry.expression.parseSource (s ++ "(" ++ t ++ ")") = .ok (.plain (.call o es)) := by
  obtain ⟨w, hsplits, hsentence⟩ := reads_expressionList.parseSource_eq_ok_iff.1 ht
  have hw := hsentence.of_head_of_getLast (htfirst.head hsplits) (htlast.getLast hsplits)
  have hsuffix := hsplits.parenthesized (htlast.getLast hsplits)
  have hassoc : s ++ "(" ++ t ++ ")" = s ++ ("(" ++ t ++ ")") := by
    simp only [String.append_assoc]
  rw [hassoc]
  exact parseSource_suffixed hs hend hsuffix (canFollow_of_mark rfl nofun)
    fun u hu => .call hu ho hw

/-- An expression in parentheses. -/
theorem parseSource_parenthesized {e : Expression}
    (hs : Entry.expression.parseSource s = .ok e) (hfirst : StartsSignificant s)
    (hlast : EndsSignificant s) :
    Entry.expression.parseSource ("(" ++ s ++ ")") = .ok (.plain (.parenthesized e)) := by
  obtain ⟨w, hsplits, hsentence⟩ := reads_expression.parseSource_eq_ok_iff.1 hs
  have hw := hsentence.of_head_of_getLast (hfirst.head hsplits) (hlast.getLast hsplits)
  have henclosed := hsplits.parenthesized (hlast.getLast hsplits)
  refine reads_expression.parseSource_eq_ok_iff.2 ⟨_, henclosed, [], _, [], ?_, nofun, nofun,
    .plain (.parenthesized hw)⟩
  rw [List.nil_append, List.append_nil]

/-- The source in so many pairs of parentheses. -/
def inParentheses : Nat → String → String
  | 0, s => s
  | n + 1, s => "(" ++ inParentheses n s ++ ")"

/-- **Parentheses nest to any depth**, and each pair of them is one node. -/
theorem parseSource_inParentheses {e : Expression} (hs : Entry.expression.parseSource s = .ok e)
    (hfirst : StartsSignificant s) (hlast : EndsSignificant s) (n : Nat) :
    Entry.expression.parseSource (inParentheses n s) =
        .ok ((fun e => .plain (.parenthesized e))^[n] e) ∧
      StartsSignificant (inParentheses n s) ∧ EndsSignificant (inParentheses n s) := by
  induction n with
  | zero => exact ⟨hs, hfirst, hlast⟩
  | succ n ih =>
      obtain ⟨hparse, hfirst, hlast⟩ := ih
      obtain ⟨w, hsplits, -⟩ := reads_expression.parseSource_eq_ok_iff.1 hparse
      have henclosed := hsplits.parenthesized (hlast.getLast hsplits)
      rw [Function.iterate_succ_apply']
      exact ⟨parseSource_parenthesized hparse hfirst hlast, henclosed.startsSignificant rfl,
        henclosed.endsSignificant rfl⟩

/-- A prefix operator in front of an operand. -/
theorem parseSource_prefixed {operator : String}
    (hs : Entry.expression.parseSource s = .ok (.plain o)) (hfirst : StartsSignificant s)
    (hoperator : IsOperator operator.toList) :
    Entry.expression.parseSource (operator ++ s) = .ok (.prefixed operator o) := by
  obtain ⟨w, hsplits, hsentence⟩ := reads_expression.parseSource_eq_ok_iff.1 hs
  obtain ⟨u, after, rfl, hafter, hu⟩ := hsentence.exists_of_head (hfirst.head hsplits)
  cases hu with
  | plain hu =>
      have hleads : (Kind.operator operator).LeadsTo (u ++ after ++ [.endOfInput]) := by
        obtain ⟨k, rest, rfl, hk⟩ := hu.exists_cons
        refine Kind.leadsTo_of_operatorRun rfl fun m hm => ?_
        obtain rfl : k = m := by simpa using hm
        obtain ⟨hrun, hcomment, -⟩ := Kind.category_of_beginsOperand hk
        exact ⟨hrun, hcomment⟩
      have hspaced : Spaced (.operator operator :: (u ++ after)) :=
        ⟨hoperator, nofun, hleads, hsplits.spaced⟩
      refine reads_expression.parseSource_eq_ok_iff.2 ⟨.operator operator :: (u ++ after), ?_,
        [], .operator operator :: u, after, rfl, nofun, hafter, .prefixed operator hu⟩
      rw [String.toList_append]
      exact (splitsInto_operator hoperator).append hsplits hspaced

/-- A list, a comma and a list. -/
theorem parseSource_comma {es fs : List Expression}
    (hs : Entry.expressionList.parseSource s = .ok es) (hlast : EndsSignificant s)
    (ht : Entry.expressionList.parseSource t = .ok fs) :
    Entry.expressionList.parseSource (s ++ "," ++ t) = .ok (es ++ fs) := by
  obtain ⟨u, hu, hsentence⟩ := reads_expressionList.parseSource_eq_ok_iff.1 hs
  obtain ⟨before, u, rfl, hbefore, hes⟩ := hsentence.exists_of_getLast (hlast.getLast hu)
  obtain ⟨w, hw, trivia, w', after, rfl, htrivia, hafter, hfs⟩ :=
    reads_expressionList.parseSource_eq_ok_iff.1 ht
  have hjoined : SplitsInto (s ++ "," ++ t).toList
      (before ++ u ++ .punctuator .comma :: (trivia ++ (w' ++ after))) := by
    rw [String.append_assoc, String.toList_append, String.toList_append]
    exact hu.append_comma (hlast.getLast hu) hw
  refine reads_expressionList.parseSource_eq_ok_iff.2 ⟨_, hjoined, before, _, after, ?_, hbefore,
    hafter, hes.members_append htrivia hfs⟩
  simp only [List.append_assoc, List.cons_append]

end Entry

/-- **Sources are put together as their nodes are.**

A source that does not end with trivia may stand in front of a comma and another list.  One that
neither starts nor ends with them may stand in parentheses.  An operand that does not end with them
may get a member, and a call or a postfix operator unless it ends in a postfix operator already; one
that does not start with them may get a prefix operator. -/
theorem parseSource_composed :
    (∀ s t es fs, Entry.expressionList.parseSource s = .ok es → EndsSignificant s →
        Entry.expressionList.parseSource t = .ok fs →
        Entry.expressionList.parseSource (s ++ "," ++ t) = .ok (es ++ fs)) ∧
      (∀ s e, Entry.expression.parseSource s = .ok e → StartsSignificant s → EndsSignificant s →
        Entry.expression.parseSource ("(" ++ s ++ ")") = .ok (.plain (.parenthesized e))) ∧
      (∀ s o, Entry.expression.parseSource s = .ok (.plain o) → EndsSignificant s →
        (∀ m, (Identifier.plain m).WellFormed →
          Entry.expression.parseSource (s ++ "." ++ m) =
            .ok (.plain (.member o (.plain m)))) ∧
        (o.isPostfixed = false →
          Entry.expression.parseSource (s ++ "()") = .ok (.plain (.call o [])) ∧
          (∀ t es, Entry.expressionList.parseSource t = .ok es → StartsSignificant t →
            EndsSignificant t →
            Entry.expression.parseSource (s ++ "(" ++ t ++ ")") = .ok (.plain (.call o es))) ∧
          ∀ operator, IsOperator operator.toList →
            Entry.expression.parseSource (s ++ operator) =
              .ok (.plain (.postfixed o operator)))) ∧
      ∀ s o operator, Entry.expression.parseSource s = .ok (.plain o) → StartsSignificant s →
        IsOperator operator.toList →
        Entry.expression.parseSource (operator ++ s) = .ok (.prefixed operator o) := by
  refine ⟨?comma, ?parentheses, ?suffixes, ?operator⟩
  case comma =>
    intro s t es fs hs hlast ht
    exact Entry.parseSource_comma hs hlast ht
  case parentheses =>
    intro s e hs hfirst hlast
    exact Entry.parseSource_parenthesized hs hfirst hlast
  case suffixes =>
    intro s o hs hlast
    refine ⟨fun m hm => Entry.parseSource_member hs hlast hm, fun ho => ⟨?_, ?_, ?_⟩⟩
    · exact Entry.parseSource_callEmpty hs hlast ho
    · intro t es ht htfirst htlast
      exact Entry.parseSource_call hs hlast ho ht htfirst htlast
    · intro operator hoperator
      exact Entry.parseSource_postfixed hs hlast ho hoperator
  case operator =>
    intro s o operator hs hfirst hoperator
    exact Entry.parseSource_prefixed hs hfirst hoperator

/-- Trivia inside the parts stay where they are: behind an in-out member, in front of a list and
behind it, and behind a comma of arguments. -/
theorem parseSource_composed_trivia :
    let members := "&a /* in out */, b"
    let more := "\n&c // the last"
    let call := "f(a, // first\n b)"
    let a : Expression := .plain (.name (.plain "a"))
    let b : Expression := .plain (.name (.plain "b"))
    let f : Operand := .call (.name (.plain "f")) [a, b]
    Entry.expressionList.parseSource (members ++ "," ++ more) =
        .ok ([.inOut (.plain "a"), b] ++ [.inOut (.plain "c")]) ∧
      Entry.expression.parseSource ("(" ++ call ++ ")") = .ok (.plain (.parenthesized (.plain f))) ∧
      Entry.expression.parseSource (call ++ "." ++ "get") =
        .ok (.plain (.member f (.plain "get"))) ∧
      Entry.expression.parseSource (call ++ "()") = .ok (.plain (.call f [])) ∧
      Entry.expression.parseSource (call ++ "(" ++ members ++ ")") =
        .ok (.plain (.call f [.inOut (.plain "a"), b])) ∧
      Entry.expression.parseSource (call ++ "!") = .ok (.plain (.postfixed f "!")) ∧
      Entry.expression.parseSource ("!" ++ call) = .ok (.prefixed "!" f) := by
  intro members more call a b f
  have hmembers : Entry.expressionList.parseSource members = .ok [.inOut (.plain "a"), b] := by cbv
  have hmore : Entry.expressionList.parseSource more = .ok [.inOut (.plain "c")] := by cbv
  have hexpression : Entry.expression.parseSource call = .ok (.plain f) := by cbv
  have hmembers' : StartsSignificant members ∧ EndsSignificant members := by decide +kernel
  have hcall' : StartsSignificant call ∧ EndsSignificant call := by decide +kernel
  have hget : (Identifier.plain "get").WellFormed :=
    ⟨by decide, fun _ => ⟨by decide, fun word => by cases word <;> decide⟩⟩
  have hbang : IsOperator "!".toList :=
    ⟨⟨by decide, by simp [isOperatorChar], by decide, by decide⟩, by decide⟩
  obtain ⟨hcomma, hparentheses, hsuffixes, hoperator⟩ := parseSource_composed
  obtain ⟨hmember, hothers⟩ := hsuffixes call f hexpression hcall'.2
  obtain ⟨hempty, hcall, hpostfix⟩ := hothers rfl
  exact ⟨hcomma members more _ _ hmembers hmembers'.2 hmore,
    hparentheses call _ hexpression hcall'.1 hcall'.2, hmember "get" hget, hempty,
    hcall members _ hmembers hmembers'.1 hmembers'.2, hpostfix "!" hbang,
    hoperator call f "!" hexpression hcall'.1 hbang⟩

end ExprFront
