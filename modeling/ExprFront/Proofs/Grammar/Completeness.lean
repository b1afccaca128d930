/-
# What is derived is matched

The rules are greedy, so a phrase is read as a whole wherever the kind behind it does not go on with
it.  An operand is read in steps: at each of its prefixes the standard layer is about to read
suffixes there, `Operand.resume`, and a derivation step is one turn of that loop.

Together with the lemmas on what is matched this gives the main facts: the three rules accept
exactly their languages, and no list of kinds stands for two nodes.
-/
import ExprFront.Proofs.Grammar.Soundness
import ExprFront.Proofs.Grammar.Unfolding

namespace ExprFront

open Cursor Grammar

/-! ## What goes on with a phrase -/

/-- Whether a token of the kind goes on with an operand, or makes an operator before it a prefix
operator. -/
def Kind.extendsOperand : Kind → Bool
  | .identifier _ => true
  | .keyword _ => true
  | .literal _ => true
  | .operator _ => true
  | .punctuator .leftParen => true
  | .punctuator .ampersand => true
  | .punctuator .dot => true
  | _ => false

/-- Whether a token of the kind goes on with the expression. -/
def Expression.isExtendedBy (k : Kind) : Expression → Bool
  | .inOut _ => k.isTrivia
  | _ => k.extendsOperand

/-- Whether a token of the kind goes on with the list. -/
def Expression.isListExtendedBy (k : Kind) (es : List Expression) : Bool :=
  k == .punctuator .comma || es.getLast?.any (isExtendedBy k)

/-- A closing parenthesis goes on with no expression. -/
theorem Expression.isExtendedBy_rightParen (e : Expression) :
    e.isExtendedBy (.punctuator .rightParen) = false := by
  cases e <;> rfl

/-- A comma goes on with no expression. -/
theorem Expression.isExtendedBy_comma (e : Expression) :
    e.isExtendedBy (.punctuator .comma) = false := by
  cases e <;> rfl

/-- A closing parenthesis goes on with no list. -/
theorem Expression.isListExtendedBy_rightParen (es : List Expression) :
    isListExtendedBy (.punctuator .rightParen) es = false := by
  rw [isListExtendedBy]
  cases es.getLast? with
  | none => rfl
  | some e => exact e.isExtendedBy_rightParen

/-- No phrase begins with trivia. -/
theorem Phrase.isTrivia_eq_false_of_beginsWith {p : Phrase} {k : Kind}
    (h : p.beginsWith k = true) : k.isTrivia = false := by
  cases k with
  | whitespace text => cases p <;> cases h
  | comment text => cases p <;> cases h
  | _ => rfl

variable {c d : Cursor} {k : Kind}

/-- Where nothing goes on with an operand, no operand starts. -/
theorem Cursor.Avoids.startsOperand_eq_false (h : c.Avoids Kind.extendsOperand) :
    startsOperand c = false := by
  rw [Bool.eq_false_iff]
  intro hstart
  cases hk : c.headKind with
  | none => simp [startsOperand, hk] at hstart
  | some k =>
      have hextends := h k hk
      rw [startsOperand, hk] at hstart
      split at hstart
      · next heq => cases heq; cases hextends
      · next heq => cases heq; cases hextends
      · next heq => cases heq; cases hextends
      · next heq => cases heq; cases hextends
      · next heq => cases heq; cases hextends
      · cases hstart

/-! ## Turns of the suffix loop -/

section Suffixes

variable {layer : Layer} {c d : Cursor} {o : Operand}

/-- Suffixes end where nothing goes on with an operand. -/
theorem Grammar.suffixes_of_avoids (h : c.Avoids Kind.extendsOperand) :
    suffixes layer o c = .ok (o, c) := by
  refine suffixes_eq_of_avoids fun k hk => ?_
  have hextends := h k hk
  unfold takesTurn
  split
  · cases hextends
  · cases hextends
  · cases hextends
  · rfl

/-- A call is one turn. -/
theorem Grammar.suffixes_call {es : List Expression} {n : Nat}
    (hopen : c.headKind = some (.punctuator .leftParen))
    (hes : arguments layer c.advance = .ok (es, n))
    (hclose : (c.advanceBy (n + 1)).headKind = some (.punctuator .rightParen)) :
    suffixes layer o c = suffixes layer (.call o es) (c.advanceBy (n + 2)) := by
  rw [suffixes_eq_of_leftParen hopen, hes]
  exact if_pos (isPunctuator_iff.2 hclose)

/-- A member is one turn. -/
theorem Grammar.suffixes_member {k : Kind} {name : Identifier}
    (hdot : c.headKind = some (.punctuator .dot)) (hk : c.advance.headKind = some k)
    (hname : k.name? = some name) :
    suffixes layer o c = suffixes layer (.member o name) (c.advanceBy 2) := by
  rw [suffixes_eq_of_dot hdot, identifier?_eq_some_iff.2 ⟨k, hk, hname⟩]

/-- A postfix operator is one turn, if no operand starts behind it. -/
theorem Grammar.suffixes_postfixed {operator : String}
    (hoperator : c.headKind = some (.operator operator))
    (hstart : startsOperand c.advance = false) :
    suffixes layer o c = suffixes layer (.postfixed o operator) c.advance := by
  rw [suffixes_eq_of_operator hoperator, hstart, if_neg Bool.false_ne_true]

end Suffixes

/-! ## Reading phrases -/

/-- What the standard layer answers at `c` once it has read `o` and is about to read suffixes
at `d`. -/
def Operand.resume (o : Operand) (c d : Cursor) : RuleResult Operand :=
  match suffixes .standard o d with
  | .ok (whole, stop) => .ok (.matched whole (stop.since c))
  | .error f => .error f

/-- The kinds are read as the phrase, wherever nothing goes on with it behind them. -/
def Phrase.IsReadFrom (w : List Kind) : Phrase → Prop
  | .operand o => ∀ c d : Cursor, c.Passes w d →
      (o.isPostfixed = true → startsOperand d = false) → Layer.standard c = o.resume c d
  | .expression e => ∀ c d : Cursor, c.Passes w d → d.Avoids (fun k => e.isExtendedBy k) →
      Grammar.expression .standard c = .ok (.matched e w.length)
  | .members es => ∀ (c d : Cursor) (done : List Expression), c.Passes w d →
      d.Avoids (fun k => Expression.isListExtendedBy k es) →
      ∃ e n, Grammar.expression .standard c = .ok (.matched e n) ∧
        furtherMembers .standard (e :: done) (c.advanceBy n) = .ok (done.reverse ++ es, d)

section Reading

variable {c d : Cursor} {u w : List Kind} {e : Expression} {es : List Expression} {o : Operand}
  {k : Kind} {name : Identifier}

/-- The first kind of what is derived is the head where that is passed. -/
theorem Derives.headKind {p : Phrase} (h : Derives w p) (hpasses : c.Passes w d) :
    ∃ k, c.headKind = some k ∧ p.beginsWith k = true := by
  obtain ⟨k, rest, rfl, hk⟩ := h.exists_cons
  refine ⟨k, hpasses.headKind ?_, hk⟩
  rintro rfl
  exact h.endOfInput_notMem (by simp)

/-! ## Reading primaries -/

/-- A name is a primary. -/
theorem primary_of_name? {layer : Layer} (hk : c.headKind = some k)
    (hname : k.name? = some name) : primary layer c = .ok (.matched (.name name) 1) := by
  have hread : c.identifier? true = some name := identifier?_eq_some_iff.2 ⟨k, hk, hname⟩
  rw [primary, hk, hread]
  cases k <;> first | rfl | cases hname

/-- An expression between parentheses is a primary. -/
theorem primary_parenthesized {layer : Layer} {n : Nat}
    (hopen : c.headKind = some (.punctuator .leftParen))
    (he : expression layer c.advance = .ok (.matched e n))
    (hclose : (c.advanceBy (n + 1)).headKind = some (.punctuator .rightParen)) :
    primary layer c = .ok (.matched (.parenthesized e) (n + 2)) := by
  rw [primary_eq_of_leftParen hopen, he]
  exact if_pos (isPunctuator_iff.2 hclose)

/-- Behind its primary an operand goes on with suffixes. -/
theorem standard_of_primary {n : Nat} (h : primary .standard c = .ok (.matched o n)) :
    Layer.standard c = o.resume c (c.advanceBy n) := by
  rw [Layer.standard_eq, primaryWithSuffixes, h]
  rfl

/-- A name is read. -/
theorem isReadFrom_name (hname : k.name? = some name) :
    Phrase.IsReadFrom [k] (.operand (.name name)) := by
  intro c d hpasses _
  have hk : c.headKind = some k := hpasses.headKind (Kind.endOfInput_ne_of_name? hname).symm
  rw [← hpasses.advanceBy_length]
  exact standard_of_primary (primary_of_name? hk hname)

/-- A literal is read. -/
theorem isReadFrom_literal (value : Literal) :
    Phrase.IsReadFrom [.literal value] (.operand (.literal value)) := by
  intro c d hpasses _
  have hk : c.headKind = some (.literal value) := hpasses.headKind (by simp)
  have hprimary : primary .standard c = .ok (.matched (.literal value) 1) := by
    rw [primary, hk]
  rw [← hpasses.advanceBy_length]
  exact standard_of_primary hprimary

/-- An expression between parentheses is read. -/
theorem isReadFrom_parenthesized (he : Phrase.IsReadFrom w (.expression e)) :
    Phrase.IsReadFrom (.punctuator .leftParen :: w ++ [.punctuator .rightParen])
      (.operand (.parenthesized e)) := by
  intro c d hpasses _
  obtain ⟨hinner, hclose, hend⟩ := hpasses.between (by simp)
  have he := he _ _ hinner (avoids_of_headKind hclose e.isExtendedBy_rightParen)
  rw [← hend]
  exact standard_of_primary (primary_parenthesized (hpasses.headKind (by simp)) he hclose)

/-! ## Reading lists -/

/-- Further members end where there is no comma. -/
theorem furtherMembers_of_avoids {layer : Layer} {done : List Expression}
    (h : c.Avoids (· == .punctuator .comma)) :
    furtherMembers layer done c = .ok (done.reverse, c) := by
  rw [furtherMembers, dif_neg]
  rw [isPunctuator_iff]
  intro hcomma
  have := h _ hcomma
  simp at this

/-- Behind a comma the next member is read. -/
theorem furtherMembers_of_comma {layer : Layer} {done : List Expression} {n : Nat}
    (hcomma : c.headKind = some (.punctuator .comma))
    (he : expression layer c.next = .ok (.matched e n)) :
    furtherMembers layer done c = furtherMembers layer (e :: done) (c.next.advanceBy n) := by
  rw [furtherMembers_eq_of_comma hcomma, he]
  rfl

/-- What goes on with a list of one member is a comma or goes on with that member. -/
theorem Cursor.Avoids.single (h : d.Avoids fun k => Expression.isListExtendedBy k [e]) :
    d.Avoids (· == .punctuator .comma) ∧ d.Avoids fun k => e.isExtendedBy k := by
  refine ⟨fun k hk => ?_, fun k hk => ?_⟩
  all_goals
    have hextended := h k hk
    simp only [Expression.isListExtendedBy, List.getLast?_singleton, Option.any_some,
      Bool.or_eq_false_iff] at hextended
  · exact hextended.1
  · exact hextended.2

/-- What goes on with the rest of a list goes on with the list. -/
theorem Cursor.Avoids.tail (hes : es ≠ [])
    (h : d.Avoids fun k => Expression.isListExtendedBy k (e :: es)) :
    d.Avoids fun k => Expression.isListExtendedBy k es := by
  intro k hk
  have hextended : Expression.isListExtendedBy k (e :: es) = false := h k hk
  rwa [Expression.isListExtendedBy, List.getLast?_cons_of_ne_nil hes] at hextended

/-- A list of one member is read. -/
theorem isReadFrom_single (he : Phrase.IsReadFrom w (.expression e)) :
    Phrase.IsReadFrom w (.members [e]) := by
  intro c d done hpasses hd
  obtain ⟨hcomma, hmember⟩ := hd.single
  refine ⟨e, w.length, he c d hpasses hmember, ?_⟩
  rw [hpasses.advanceBy_length, furtherMembers_of_avoids hcomma, List.reverse_cons]

/-- A list of several members is read. -/
theorem isReadFrom_more {trivia : List Kind} (htrivia : ∀ t ∈ trivia, t.isTrivia = true)
    (hw : Derives w (.members es)) (he : Phrase.IsReadFrom u (.expression e))
    (hes : Phrase.IsReadFrom w (.members es)) :
    Phrase.IsReadFrom (u ++ .punctuator .comma :: (trivia ++ w)) (.members (e :: es)) := by
  intro c d done hpasses hd
  obtain ⟨hfirst, hpasses⟩ := hpasses.split
  have hcomma := hpasses.headKind (by simp)
  obtain ⟨hskip, hrest⟩ := hpasses.tail.split
  -- The trivia behind the comma end where the next member begins.
  have hnext : (c.advanceBy u.length).next =
      (c.advanceBy u.length).advance.advanceBy trivia.length := by
    refine skipTrivia_eq_of_passes hskip htrivia fun k hk => ?_
    obtain ⟨k', hk', hbegins⟩ := hw.headKind hrest
    cases hk.symm.trans hk'
    exact Phrase.isTrivia_eq_false_of_beginsWith hbegins
  obtain ⟨e', n, he', hmore⟩ := hes _ d (e :: done) hrest (hd.tail hw.members_ne_nil)
  refine ⟨e, u.length, he _ _ hfirst (avoids_of_headKind hcomma e.isExtendedBy_comma), ?_⟩
  rw [furtherMembers_of_comma hcomma (hnext ▸ he'), hnext, hmore, List.reverse_cons,
    List.append_assoc, List.singleton_append]

/-- A list that nothing goes on with is matched by the rule for lists. -/
theorem expressionList_of_isReadFrom (hread : Phrase.IsReadFrom w (.members es))
    (hpasses : c.Passes w d) (hd : d.Avoids (fun k => Expression.isListExtendedBy k es)) :
    expressionList .standard c = .ok (.matched es w.length) := by
  obtain ⟨e, n, he, hmore⟩ := hread c d [] hpasses hd
  rw [expressionList, he]
  simp only [hmore, hpasses.since, List.reverse_nil, List.nil_append]

/-! ## Reading suffixes -/

/-- An operand that nothing goes on with is read as it is. -/
theorem Operand.resume_of_avoids (h : d.Avoids Kind.extendsOperand) :
    o.resume c d = .ok (.matched o (d.since c)) := by
  rw [Operand.resume, suffixes_of_avoids h]

/-- A turn of the loop leaves what is answered as it is. -/
theorem Operand.resume_congr {o o' : Operand} {d d' : Cursor}
    (h : suffixes .standard o d = suffixes .standard o' d') : o.resume c d = o'.resume c d' := by
  rw [Operand.resume, h, Operand.resume]

/-- Where nothing stands before the closing parenthesis there are no arguments. -/
theorem arguments_of_rightParen (hpasses : c.Passes [] d)
    (hclose : d.headKind = some (.punctuator .rightParen)) :
    arguments .standard c = .ok ([], 0) := by
  obtain rfl : c = d := by
    rw [hpasses.stop_eq]
    simp
  exact if_pos (isPunctuator_iff.2 hclose)

/-- The arguments of a call are read up to its closing parenthesis. -/
theorem arguments_of_isReadFrom (hw : Derives w (.members es))
    (hread : Phrase.IsReadFrom w (.members es)) (hpasses : c.Passes w d)
    (hclose : d.headKind = some (.punctuator .rightParen)) :
    arguments .standard c = .ok (es, w.length) := by
  have hlist := expressionList_of_isReadFrom hread hpasses
    (avoids_of_headKind hclose (Expression.isListExtendedBy_rightParen es))
  obtain ⟨k, hk, hbegins⟩ := hw.headKind hpasses
  rw [arguments, if_neg, hlist]
  · rfl
  · rw [isPunctuator_iff, hk]
    rintro ⟨⟩
    cases hbegins

/-- A call is read, if its arguments are read up to its closing parenthesis. -/
theorem isReadFrom_call (ho : o.isPostfixed = false) (hcallee : Phrase.IsReadFrom u (.operand o))
    (harguments : ∀ c d : Cursor, c.Passes w d → d.headKind = some (.punctuator .rightParen) →
      arguments .standard c = .ok (es, w.length)) :
    Phrase.IsReadFrom (u ++ (.punctuator .leftParen :: w ++ [.punctuator .rightParen]))
      (.operand (.call o es)) := by
  intro c d hpasses _
  obtain ⟨hfirst, hpasses⟩ := hpasses.split
  obtain ⟨hinner, hclose, hend⟩ := hpasses.between (by simp)
  have hes := harguments _ _ hinner hclose
  have hnever : o.isPostfixed = true → startsOperand (c.advanceBy u.length) = false := by
    simp [ho]
  rw [hcallee _ _ hfirst hnever, ← hend]
  exact Operand.resume_congr (suffixes_call (hpasses.headKind (by simp)) hes hclose)

/-- A member is read. -/
theorem isReadFrom_member (hname : k.name? = some name)
    (hbase : Phrase.IsReadFrom u (.operand o)) :
    Phrase.IsReadFrom (u ++ [.punctuator .dot, k]) (.operand (.member o name)) := by
  intro c d hpasses _
  obtain ⟨hfirst, hpasses⟩ := hpasses.split
  have hdot := hpasses.headKind (by simp)
  have hk := hpasses.tail.headKind (Kind.endOfInput_ne_of_name? hname).symm
  have hstart : startsOperand (c.advanceBy u.length) = false := by
    rw [startsOperand, hdot]
  rw [hbase _ _ hfirst fun _ => hstart, ← hpasses.advanceBy_length]
  exact Operand.resume_congr (suffixes_member hdot hk hname)

/-- A postfix operator is read. -/
theorem isReadFrom_postfixed (operator : String) (hoperand : Phrase.IsReadFrom u (.operand o)) :
    Phrase.IsReadFrom (u ++ [.operator operator]) (.operand (.postfixed o operator)) := by
  intro c d hpasses hd
  obtain ⟨hfirst, hpasses⟩ := hpasses.split
  have hoperator := hpasses.headKind (by simp)
  have hstart : startsOperand (c.advanceBy u.length) = false := by
    rw [startsOperand, hoperator]
  rw [hoperand _ _ hfirst fun _ => hstart]
  -- By `hd` no operand starts behind the operator: otherwise it would not be a suffix.
  obtain rfl : (c.advanceBy u.length).advance = d := hpasses.advanceBy_length
  exact Operand.resume_congr (suffixes_postfixed hoperator (hd rfl))

/-! ## Reading expressions -/

/-- An operand alone is matched by the rule for operands. -/
theorem operand_of_isReadFrom (hw : Derives w (.operand o))
    (hread : Phrase.IsReadFrom w (.operand o)) (hpasses : c.Passes w d)
    (hd : d.Avoids Kind.extendsOperand) : operand .standard c = .ok (.matched o w.length) := by
  have hlayer : Layer.standard c = .ok (.matched o w.length) := by
    rw [hread c d hpasses fun _ => hd.startsOperand_eq_false, Operand.resume_of_avoids hd,
      hpasses.since]
  rw [operand, hlayer]
  split
  · next hzero =>
      -- The rule refuses a layer that matches without reading; this one has read `w`.
      obtain ⟨-, hempty⟩ := Outcome.matched.inj (Except.ok.inj hzero)
      exact absurd (List.length_eq_zero_iff.1 hempty) hw.ne_nil
  · rfl

/-- What starts an operand begins no in-out argument and no prefix operator. -/
theorem expression_eq_of_beginsOperand (hk : c.headKind = some k)
    (hbegins : k.beginsOperand = true) :
    expression .standard c = (operand .standard c).map (·.map .plain) := by
  have hsigil : c.isPunctuator .ampersand = false := by
    rw [Bool.eq_false_iff, ne_eq, isPunctuator_iff, hk]
    rintro ⟨⟩
    cases hbegins
  have hoperator : c.operator? = none := by
    rw [operator?, hk]
    cases k <;> first | rfl | cases hbegins
  rw [expression, hsigil, hoperator]
  rw [if_neg Bool.false_ne_true]
  cases operand .standard c <;> rfl

/-- An in-out argument is read, with the trivia behind it. -/
theorem isReadFrom_inOut {trivia : List Kind} (hname : k.name? = some name)
    (htrivia : ∀ t ∈ trivia, t.isTrivia = true) :
    Phrase.IsReadFrom (.punctuator .ampersand :: k :: trivia) (.expression (.inOut name)) := by
  intro c d hpasses hd
  have hk : c.advance.headKind = some k :=
    hpasses.tail.headKind (Kind.endOfInput_ne_of_name? hname).symm
  have hskip : c.advance.advance.skipTrivia = d :=
    skipTrivia_eq_of_passes hpasses.tail.tail htrivia hd
  rw [expression, if_pos (isPunctuator_iff.2 (hpasses.headKind (by simp))),
    identifier?_eq_some_iff.2 ⟨k, hk, hname⟩]
  show Except.ok (Outcome.matched _ (c.advance.advance.skipTrivia.since c)) = _
  rw [hskip, hpasses.since]

/-- A prefix operator and its operand are read. -/
theorem isReadFrom_prefixed (operator : String) (hw : Derives w (.operand o))
    (hread : Phrase.IsReadFrom w (.operand o)) :
    Phrase.IsReadFrom (.operator operator :: w) (.expression (.prefixed operator o)) := by
  intro c d hpasses hd
  have hhead : c.headKind = some (.operator operator) := hpasses.headKind (by simp)
  have hsigil : c.isPunctuator .ampersand = false := by
    rw [Bool.eq_false_iff, ne_eq, isPunctuator_iff, hhead]
    simp
  rw [expression, hsigil, operator?_eq_some_iff.2 hhead,
    operand_of_isReadFrom hw hread hpasses.tail hd]
  show Except.ok (Outcome.matched _ ((c.advanceBy (w.length + 1)).since c)) = _
  rw [show c.advanceBy (w.length + 1) = d from hpasses.advanceBy_length, hpasses.since]

/-- An operand is read as an expression. -/
theorem isReadFrom_plain (hw : Derives w (.operand o))
    (hread : Phrase.IsReadFrom w (.operand o)) : Phrase.IsReadFrom w (.expression (.plain o)) := by
  intro c d hpasses hd
  obtain ⟨k, hk, hbegins⟩ := hw.headKind hpasses
  rw [expression_eq_of_beginsOperand hk hbegins, operand_of_isReadFrom hw hread hpasses hd]
  rfl

/-! ## Reading what is derived -/

/-- **What is derived is read**, by induction on the derivation. -/
theorem Derives.isReadFrom {p : Phrase} (h : Derives w p) : p.IsReadFrom w := by
  induction h with
  | inOut hname htrivia => exact isReadFrom_inOut hname htrivia
  | prefixed operator operand ih => exact isReadFrom_prefixed operator operand ih
  | plain operand ih => exact isReadFrom_plain operand ih
  | name hname => exact isReadFrom_name hname
  | literal value => exact isReadFrom_literal value
  | parenthesized inner ih => exact isReadFrom_parenthesized ih
  | callEmpty callee hcallee ih =>
      exact isReadFrom_call (w := []) hcallee ih fun c d => arguments_of_rightParen
  | call callee hcallee arguments ih iharguments =>
      exact isReadFrom_call hcallee ih fun c d => arguments_of_isReadFrom arguments iharguments
  | member base hname ih => exact isReadFrom_member hname ih
  | postfixed operator operand ih => exact isReadFrom_postfixed operator ih
  | single member ih => exact isReadFrom_single ih
  | more member htrivia rest ih ihrest => exact isReadFrom_more htrivia rest ih ihrest

end Reading

/-! ## The languages of the rules -/

section Standard

/-- The rule for expressions recognizes the expressions. -/
theorem recognizes_expression :
    Recognizes (Grammar.expression .standard) fun w e => Derives w (.expression e) := by
  refine recognizes_of_covers (fun _ _ h => h.ne_nil) (fun _ _ h => h.endOfInput_notMem) ?_ ?_
  · intro c e n h
    exact covers_of_expression (fun d _ => Layer.soundAt_standard d) h
  · intro c d w e hw hpasses hnone
    exact hw.isReadFrom c d hpasses (avoids_of_headKind_eq_none hnone _)

/-- The rule for lists recognizes the lists. -/
theorem recognizes_expressionList :
    Recognizes (Grammar.expressionList .standard) fun w es => Derives w (.members es) := by
  refine recognizes_of_covers (fun _ _ h => h.ne_nil) (fun _ _ h => h.endOfInput_notMem) ?_ ?_
  · intro c es n h
    exact covers_of_expressionList (fun d _ => Layer.soundAt_standard d) h
  · intro c d w es hw hpasses hnone
    exact expressionList_of_isReadFrom hw.isReadFrom hpasses (avoids_of_headKind_eq_none hnone _)

/-- The rule for operands recognizes the operands. -/
theorem recognizes_operand :
    Recognizes (Grammar.operand .standard) fun w o => Derives w (.operand o) := by
  refine recognizes_of_covers (fun _ _ h => h.ne_nil) (fun _ _ h => h.endOfInput_notMem) ?_ ?_
  · intro c o n h
    exact Layer.soundAt_standard c o n (layer_eq_of_operand h)
  · intro c d w o hw hpasses hnone
    exact operand_of_isReadFrom hw hw.isReadFrom hpasses (avoids_of_headKind_eq_none hnone _)

/-- **The rules accept exactly their languages**, over the standard layer. -/
theorem recognizes_standard :
    Recognizes (Grammar.expression .standard) (fun w e => Derives w (.expression e)) ∧
      Recognizes (Grammar.expressionList .standard) (fun w es => Derives w (.members es)) ∧
      Recognizes (Grammar.operand .standard) (fun w o => Derives w (.operand o)) :=
  ⟨recognizes_expression, recognizes_expressionList, recognizes_operand⟩

end Standard

end ExprFront
