/-
# Tokens without their end

Tokens may come without their end of input.  A session then adds one, and a cursor that runs out of
tokens reports one; either way it is placed where the rendering of the last token ends.  That is
where the scanner places it, but for the columns that the raw tabs of a string add.

So it makes no difference to a rule whether the end of input is there, and none to its errors but
for those columns: that is `ignoresEnd_standard`.
-/
import ExprFront.Proofs.Grammar.Coincidence
import ExprFront.Proofs.Session.Acceptance
import ExprFront.Proofs.Stream.Rendering

namespace ExprFront

open Cursor

variable {α : Type}

/-! ## Ends further to the right -/

/-- The same token, located so many columns further on its line. -/
def Token.right (t : Token) (n : Nat) : Token :=
  ⟨t.kind, ⟨t.span.start, t.span.stop, t.span.location.right n⟩⟩

/-- An error that finds the end of input lies so many columns further on its line; any other one
stays where it is. -/
def ParseError.endRight (e : ParseError) (n : Nat) : ParseError :=
  match e.cause with
  | .expected _ .endOfInput => ⟨e.cause, e.location.right n⟩
  | _ => e

/-- An error that finds another token stays where it is. -/
theorem ParseError.endRight_of_ne {production : Production} {k : Kind} {l : Location}
    (h : k ≠ .endOfInput) (n : Nat) :
    (⟨.expected production k, l⟩ : ParseError).endRight n = ⟨.expected production k, l⟩ := by
  unfold endRight
  split
  · next heq =>
      cases heq
      exact absurd rfl h
  · rfl

/-- The rule makes no difference between the tokens and the same ones with an end of input behind
them.  It answers the same at every position, and its failures are reported the same, but for so
many columns if it is the end of input that is found. -/
structure Rule.IgnoresEnd (rule : Rule α) (front : List Token) (last : Token) (n : Nat) :
    Prop where
  eq : ∀ p, p ≤ front.length →
    rule (.atPosition front.toArray p) = rule (.atPosition (front ++ [last]).toArray p)
  report_eq : ∀ p f, p ≤ front.length → rule (.atPosition front.toArray p) = .error f →
    f.report front.toArray = (f.report (front ++ [last]).toArray).endRight n

/-! ## Answers -/

/-- A local rule answers the same at the same position in front of the same kinds. -/
theorem Rule.LocalAt.eq_of_agrees {rule : Rule α} {reach : Nat} {c d : Cursor}
    (h : rule.LocalAt reach c) (hd : ∀ n, c.Agrees d n) (hposition : c.position = d.position) :
    rule c = rule d := by
  cases hrule : rule c with
  | ok o =>
      cases o with
      | matched v n => exact (h.decides_of_matched hrule d (hd _)).symm
      | noMatch => exact (h.decides_of_noMatch hrule d (hd _)).symm
  | error f =>
      obtain ⟨production, m, hm, rfl, hdecides⟩ := h.decides_of_error hrule
      have hm' := (hd m).shows hm (Nat.le_refl m)
      have hsame : (c.advanceBy m).position = (d.advanceBy m).position := by
        rw [hm.position_advanceBy, hm'.position_advanceBy, hposition]
      rw [hdecides d (hd _), Failure.expecting, hsame]
      rfl

section End

variable {front : List Token} {last : Token} {n p : Nat}

/-- The kinds from a position on. -/
theorem Cursor.kinds_atPosition {tokens : List Token} (h : p ≤ tokens.length) :
    (atPosition tokens.toArray p).kinds = (tokens.drop p).map (·.kind) := by
  simp only [kinds, atPosition, List.size_toArray, Nat.min_eq_left h]

/-- The token at a position. -/
theorem Cursor.current_atPosition {tokens : List Token} (h : p ≤ tokens.length) :
    (atPosition tokens.toArray p).current = tokens[p]? := by
  simp only [current, atPosition, List.size_toArray, Nat.min_eq_left h, List.getElem?_toArray]

/-- An end of input behind the tokens is no head. -/
theorem Cursor.agrees_append_end (hlast : last.kind = .endOfInput) (hp : p ≤ front.length)
    (n : Nat) :
    (atPosition front.toArray p).Agrees (.atPosition (front ++ [last]).toArray p) n := by
  intro m _ _
  have hp' : p ≤ (front ++ [last]).length := Nat.le_trans hp (front.prefix_append _).length_le
  rw [headKind_advanceBy_eq, headKind_advanceBy_eq, kinds_atPosition hp, kinds_atPosition hp',
    List.drop_append_of_le_length hp, List.map_append, List.map_singleton, hlast]
  generalize (front.drop p).map (·.kind) = w
  rcases Nat.lt_trichotomy m w.length with h | rfl | h
  · rw [List.getElem?_append_left h]
  · rw [List.getElem?_concat_length, List.getElem?_eq_none (Nat.le_refl _)]
    rfl
  · have hlength : (w ++ [Kind.endOfInput]).length ≤ m := by
      rw [List.length_append]
      exact h
    rw [List.getElem?_eq_none hlength, List.getElem?_eq_none (Nat.le_of_lt h)]

/-! ## Reports -/

/-- Behind the last token an error is located where a session places the end that it adds. -/
theorem Cursor.endLocation_of_withEnd {c : Cursor} (hc : c.tokens = front.toArray)
    (hend : Token.withEnd front = front ++ [last.right n]) :
    c.endLocation = last.span.location.right n := by
  rw [endLocation, hc, List.back?_toArray]
  unfold Token.withEnd at hend
  split at hend
  · next hnone =>
      rw [List.getLast?_eq_none_iff.1 hnone] at hend ⊢
      exact congrArg (·.span.location) (List.singleton_inj.1 hend)
  · next t ht =>
      rw [ht]
      split at hend
      · have hlength := congrArg List.length hend
        rw [List.length_append, List.length_singleton] at hlength
        omega
      · exact congrArg (·.span.location) (List.singleton_inj.1 (List.append_cancel_left hend))

/-- **An end of input behind the tokens is reported as running out of them is**, but for where it
is located. -/
theorem Failure.report_append_end (production : Production) (hlast : last.kind = .endOfInput)
    (hfront : ∀ t ∈ front, t.kind ≠ .endOfInput)
    (hend : Token.withEnd front = front ++ [last.right n]) (hp : p ≤ front.length) :
    (expected production p).report front.toArray =
      ((expected production p).report (front ++ [last]).toArray).endRight n := by
  have hp' : p ≤ (front ++ [last]).length := Nat.le_trans hp (front.prefix_append _).length_le
  simp only [report, ParseError.expectedAt, current_atPosition hp, current_atPosition hp']
  rcases Nat.lt_or_eq_of_le hp with hlt | heq
  · rw [List.getElem?_append_left hlt, List.getElem?_eq_getElem hlt]
    exact (ParseError.endRight_of_ne (hfront _ (List.getElem_mem hlt)) n).symm
  · rw [heq, List.getElem?_concat_length, List.getElem?_eq_none (Nat.le_refl _)]
    have hlocation := endLocation_of_withEnd (c := atPosition front.toArray front.length) rfl hend
    simp only [hlocation, hlast]
    rfl

/-- A local rule ignores the end of input behind tokens that have no other one. -/
theorem Rule.ignoresEnd_of {rule : Rule α} {reach : Nat} (hlocal : ∀ c, rule.LocalAt reach c)
    (hlast : last.kind = .endOfInput) (hfront : ∀ t ∈ front, t.kind ≠ .endOfInput)
    (hend : Token.withEnd front = front ++ [last.right n]) : rule.IgnoresEnd front last n where
  eq p hp := by
    refine (hlocal _).eq_of_agrees (agrees_append_end hlast hp) ?_
    rw [position_atPosition_of_le hp]
    exact Nat.min_eq_left hp
  report_eq p f hp hf := by
    obtain ⟨production, m, -, rfl, -⟩ := (hlocal _).decides_of_error hf
    exact Failure.report_append_end production hlast hfront hend (advanceBy _ m).position_le

end End

/-! ## Tokens of a source -/

namespace Token

variable {source : String} {front : List Token} {last : Token}

/-- Only an end of input is the end. -/
theorem isEnd_of_ne {t : Token} (h : t.kind ≠ .endOfInput) : ¬ t.isEnd = true := by
  intro hend
  unfold isEnd Kind.isEnd at hend
  split at hend
  · next hkind => exact h hkind
  · cases hend

/-- How many raw tabs the last of the tokens has in the source, if it is a string. -/
def lastTabs (source : String) (tokens : List Token) : Nat :=
  match tokens.getLast? with
  | some t => t.rawTabs source
  | none => 0

/-- The last token that is placed is an empty end of input. -/
theorem getLast?_placed (p : Place) (xs : List Lexeme) :
    ∃ q : Place, (placed p xs).getLast? = some ⟨.endOfInput, q.to q⟩ := by
  induction xs generalizing p with
  | nil => exact ⟨p, rfl⟩
  | cons x xs ih =>
      obtain ⟨q, hq⟩ := ih (p.after x.spelling)
      refine ⟨q, ?_⟩
      rw [placed, List.getLast?_cons, hq]
      rfl

/-- The tokens of a source end with an empty end of input, and have no other one. -/
theorem ends_of_tokenize (h : tokenize source = .ok (front ++ [last])) :
    last.kind = .endOfInput ∧ last.span.stop = last.span.start ∧
      ∀ t ∈ front, t.kind ≠ .endOfInput := by
  obtain ⟨xs, hsplits, hplaced, hlexemes⟩ := exists_splits_of_tokenize h
  obtain ⟨q, hq⟩ := getLast?_placed .start xs
  rw [← hplaced, List.getLast?_concat] at hq
  obtain rfl : last = ⟨.endOfInput, q.to q⟩ := Option.some.inj hq
  refine ⟨rfl, rfl, fun t ht => ?_⟩
  rw [List.map_append] at hlexemes
  have hmem : t.lexeme source ∈ xs := by
    rw [← List.append_inj_left' hlexemes rfl]
    exact List.mem_map_of_mem ht
  obtain ⟨c, rest, hbegins⟩ := hsplits.begins_of_mem _ hmem
  exact hbegins.kind_ne_endOfInput

/-- The last of the tokens may stand behind others. -/
theorem lastTabs_concat (source : String) (front : List Token) (t : Token) :
    lastTabs source (front ++ [t]) = t.rawTabs source := by
  rw [lastTabs, List.getLast?_concat]

/-- **A session ends tokens as the scanner does**, but for the columns that raw tabs add. -/
theorem withEnd_of_tokenize (h : tokenize source = .ok (front ++ [last])) :
    withEnd front = front ++ [last.right (lastTabs source front)] := by
  obtain ⟨hkind, hempty, hfront⟩ := ends_of_tokenize h
  unfold withEnd
  split
  · next hnone =>
      obtain rfl := List.getLast?_eq_none_iff.1 hnone
      obtain ⟨xs, -, hplaced, hlexemes⟩ := exists_splits_of_tokenize h
      obtain rfl : xs = [] := by simpa using congrArg List.length hlexemes
      obtain rfl : last = ⟨.endOfInput, Place.start.to .start⟩ := List.singleton_inj.1 hplaced
      rfl
  · next t ht =>
      obtain ⟨init, rfl⟩ := List.getLast?_eq_some_iff.1 ht
      have hk : t.kind ≠ .endOfInput := hfront t (by simp)
      obtain ⟨next, hnext, hstart, hlocation⟩ := exists_next h (i := init.length) (by simp) hk
      obtain rfl : last = next := by simpa using hnext
      have hright : t.endLocation = last.span.location.right (t.rawTabs source) := by
        rw [hlocation]
        exact endLocation_eq h (by simp)
      rw [if_neg (isEnd_of_ne hk), lastTabs_concat, right, hkind, hempty, hstart, hright]

end Token

/-! ## The standard layer -/

/-- **A missing end of input makes no difference.**  Over the tokens of a source, every rule of the
standard layer answers the same whether their end of input is there or not.  So are its failures
reported, and a session holds the same tokens; but where the last token is a string, the end of
input that is found or added lies one column further for each of its raw tabs. -/
theorem Grammar.ignoresEnd_standard {source : String} {front : List Token} {last : Token}
    (h : Token.tokenize source = .ok (front ++ [last])) :
    Rule.IgnoresEnd (expression .standard) front last (Token.lastTabs source front) ∧
      Rule.IgnoresEnd (expressionList .standard) front last (Token.lastTabs source front) ∧
      Rule.IgnoresEnd (operand .standard) front last (Token.lastTabs source front) ∧
      Rule.IgnoresEnd pattern front last (Token.lastTabs source front) ∧
      Rule.IgnoresEnd typeAscription front last (Token.lastTabs source front) ∧
      Rule.IgnoresEnd type front last (Token.lastTabs source front) ∧
      (Session.start .standard (front ++ [last])).tokens = (front ++ [last]).toArray ∧
      (Session.start .standard front).tokens =
        (front ++ [last.right (Token.lastTabs source front)]).toArray := by
  obtain ⟨hlast, -, hfront⟩ := Token.ends_of_tokenize h
  have hend := Token.withEnd_of_tokenize h
  refine ⟨?_, ?_, ?_, ?_, ?_, ?_, ?_, ?_⟩
  · exact Rule.ignoresEnd_of localAt_expression_standard hlast hfront hend
  · exact Rule.ignoresEnd_of localAt_expressionList_standard hlast hfront hend
  · exact Rule.ignoresEnd_of localAt_operand_standard hlast hfront hend
  · exact Rule.ignoresEnd_of localAt_pattern hlast hfront hend
  · exact Rule.ignoresEnd_of localAt_typeAscription hlast hfront hend
  · exact Rule.ignoresEnd_of localAt_type hlast hfront hend
  · rw [Session.start, Token.withEnd_append_end front hlast]
  · rw [Session.start, hend]

/-- Behind a string with a raw tab the missing parenthesis is reported one column further without
the end of input. -/
theorem Grammar.ignoresEnd_standard_tab :
    let source := "f(\"\t\""
    let front : List Token :=
      [⟨.identifier (.plain "f"), ⟨0, 1, ⟨1, 1⟩⟩⟩, ⟨.punctuator .leftParen, ⟨1, 2, ⟨1, 2⟩⟩⟩,
        ⟨.literal (.string "\t"), ⟨2, 5, ⟨1, 3⟩⟩⟩]
    let last : Token := ⟨.endOfInput, ⟨5, 5, ⟨1, 6⟩⟩⟩
    Token.tokenize source = .ok (front ++ [last]) ∧
      let failure := Failure.expected .closingParen 3
      expression .standard (.atPosition front.toArray 0) = .error failure ∧
      expression .standard (.atPosition (front ++ [last]).toArray 0) = .error failure ∧
      failure.report front.toArray = ⟨.expected .closingParen .endOfInput, ⟨1, 7⟩⟩ := by
  intro source front last
  have htokens : Token.tokenize source = .ok (front ++ [last]) := by cbv
  have htabs : Token.lastTabs source front = 1 := by decide +kernel
  obtain ⟨hexpression, -⟩ := ignoresEnd_standard htokens
  have hbare : expression .standard (.atPosition front.toArray 0) =
      .error (.expected .closingParen 3) := by cbv
  refine ⟨htokens, hbare, ?_, ?_⟩
  · rw [← hexpression.eq 0 (Nat.zero_le _), hbare]
  · rw [hexpression.report_eq 0 _ (Nat.zero_le _) hbare, htabs]
    rfl

end ExprFront
