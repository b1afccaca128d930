/-
# Where trivia may stand

Inside a phrase trivia stand only in gaps: behind a comma, behind a colon, behind `inout`, and
behind the name of an in-out argument.  `Gap.run` follows the kinds of a phrase and says whether a
gap is open behind them; it stops where trivia stand outside a gap.

The main facts, put together as `TriviaLaws`, are that a phrase of the languages of expressions,
lists and patterns stays one without its trivia, that all its trivia stand in gaps, and that more
trivia may stand in each of its gaps.
-/
import Mathlib.Data.List.Basic
import Mathlib.Data.List.Induction
import ExprFront.Proofs.Grammar.Derivation
import ExprFront.Proofs.Grammar.PatternLanguage

namespace ExprFront

/-! ## Gaps -/

/-- Kinds behind which trivia may stand. -/
inductive OpensGap : List Kind → Prop
  | comma : OpensGap [.punctuator .comma]
  | colon : OpensGap [.punctuator .colon]
  | inoutWord : OpensGap [.keyword (.reserved .kwInout)]
  | inOutName {k : Kind} {name : Identifier} (hname : k.name? = some name) :
      OpensGap [.punctuator .ampersand, k]

/-- Nothing but trivia stands between the end of the kinds and what opens a gap. -/
def EndsInGap (u : List Kind) : Prop :=
  ∃ before opener trivia, u = before ++ (opener ++ trivia) ∧ OpensGap opener ∧
    ∀ k ∈ trivia, k.isTrivia = true

/-- What stands behind some kinds: no gap, an `&` that a name has to follow, or a gap. -/
inductive Gap where
  | closed | sigil | opened
  deriving DecidableEq

namespace Gap

/-- What stands behind one kind more.  Trivia may stand in a gap only. -/
def step (g : Gap) : Kind → Option Gap
  | .whitespace _ | .comment _ => if g = opened then some opened else none
  | .punctuator .ampersand => some sigil
  | .punctuator .comma | .punctuator .colon | .keyword (.reserved .kwInout) => some opened
  | k => if g = sigil ∧ k.name?.isSome then some opened else some closed

/-- What stands behind the kinds, if their trivia stand in gaps. -/
def run (g : Gap) : List Kind → Option Gap
  | [] => some g
  | k :: w => (g.step k).bind (·.run w)

variable {g : Gap} {k : Kind} {u w : List Kind}

/-- One kind is one step. -/
theorem run_cons_of_step {g' : Gap} (h : g.step k = some g') : g.run (k :: w) = g'.run w := by
  rw [run, h]
  rfl

/-- Kinds are followed one part behind the other. -/
theorem run_append (g : Gap) (u w : List Kind) : g.run (u ++ w) = (g.run u).bind (·.run w) := by
  induction u generalizing g with
  | nil => rfl
  | cons k u ih =>
      rw [List.cons_append, run, run]
      cases g.step k with
      | none => rfl
      | some g' => exact ih g'

/-- Kinds behind others are followed from where those lead. -/
theorem run_append_of_run {g' : Gap} (h : g.run u = some g') : g.run (u ++ w) = g'.run w := by
  rw [run_append, h]
  rfl

/-- The front of what can be followed can be followed. -/
theorem exists_of_run_append {g' : Gap} (h : g.run (u ++ w) = some g') :
    ∃ m, g.run u = some m ∧ m.run w = some g' := by
  rw [run_append] at h
  exact Option.bind_eq_some_iff.1 h

/-- Trivia stand in a gap. -/
theorem eq_opened_of_step {g' : Gap} (htrivia : k.isTrivia = true) (h : g.step k = some g') :
    g = opened := by
  cases k with
  | whitespace text | comment text =>
      simp only [step] at h
      split at h
      · assumption
      · cases h
  | _ => cases htrivia

/-- A gap stays open behind trivia. -/
theorem run_opened_of_isTrivia (h : ∀ k ∈ u, k.isTrivia = true) : opened.run u = some opened := by
  induction u with
  | nil => rfl
  | cons k u ih =>
      have hk := h k (by simp)
      have hstep : opened.step k = some opened := by
        cases k <;> first | rfl | cases hk
      rw [run_cons_of_step hstep]
      exact ih fun m hm => h m (List.mem_cons_of_mem _ hm)

/-- A name closes a gap, unless it belongs to an in-out argument. -/
theorem step_of_name? {name : Identifier} (hname : k.name? = some name) :
    g.step k = if g = sigil then some opened else some closed := by
  cases k with
  | identifier name => simp [step, Kind.name?]
  | keyword word =>
      cases word with
      | reserved word => cases hname
      | contextual word => simp [step, Kind.name?]
  | _ => cases hname

/-- Not behind `&`, a name closes a gap. -/
theorem step_of_name?_of_ne {name : Identifier} (hg : g ≠ sigil) (hname : k.name? = some name) :
    g.step k = some closed := by
  rw [step_of_name? hname, if_neg hg]

/-- An opening parenthesis closes a gap. -/
theorem step_leftParen (g : Gap) : g.step (.punctuator .leftParen) = some closed := by
  simp [step, Kind.name?]

/-- A closing parenthesis closes a gap. -/
theorem step_rightParen (g : Gap) : g.step (.punctuator .rightParen) = some closed := by
  simp [step, Kind.name?]

/-- No gap is open behind a closing parenthesis. -/
theorem step_rightParen_ne (g : Gap) : g.step (.punctuator .rightParen) ≠ some opened := by
  rw [step_rightParen]
  decide

/-- An operator closes a gap. -/
theorem step_operator (g : Gap) (operator : String) :
    g.step (.operator operator) = some closed := by
  simp [step, Kind.name?]

/-- A comma opens a gap. -/
theorem step_comma (g : Gap) : g.step (.punctuator .comma) = some opened := rfl

/-- What opens a gap leads into it. -/
theorem run_of_opensGap (h : OpensGap u) : g.run u = some opened := by
  cases h with
  | comma => rfl
  | colon => rfl
  | inoutWord => rfl
  | inOutName hname =>
      have hsigil : g.step (.punctuator .ampersand) = some sigil := rfl
      rw [run_cons_of_step hsigil, run_cons_of_step (step_of_name? hname)]
      rfl

/-- What stands behind kinds shows in the last of them. -/
theorem run_append_singleton (g : Gap) (u : List Kind) (k : Kind) :
    g.run (u ++ [k]) = (g.run u).bind (·.step k) := by
  rw [run_append]
  congr 1
  funext m
  rw [run]
  cases m.step k <;> rfl

/-- A name has to follow only directly behind `&`. -/
theorem exists_of_run_eq_sigil (hg : g ≠ sigil) (h : g.run u = some sigil) :
    ∃ before, u = before ++ [.punctuator .ampersand] := by
  rcases List.eq_nil_or_concat' u with rfl | ⟨before, k, rfl⟩
  · exact absurd (Option.some.inj h) hg
  · rw [run_append_singleton] at h
    obtain ⟨m, -, hstep⟩ := Option.bind_eq_some_iff.1 h
    refine ⟨before, ?_⟩
    unfold step at hstep
    split at hstep
    · split at hstep <;> cases hstep
    · split at hstep <;> cases hstep
    · rfl
    · cases hstep
    · cases hstep
    · cases hstep
    · split at hstep <;> cases hstep

/-- Where a gap is open, the kinds end in one. -/
theorem endsInGap_of_run (h : closed.run u = some opened) : EndsInGap u := by
  induction u using List.reverseRecOn with
  | nil => cases h
  | append_singleton u k ih =>
      have single {opener : List Kind} (hopener : OpensGap opener) (before : List Kind) :
          EndsInGap (before ++ opener) :=
        ⟨before, opener, [], by rw [List.append_nil], hopener, by simp⟩
      rw [run_append_singleton] at h
      obtain ⟨m, hm, hstep⟩ := Option.bind_eq_some_iff.1 h
      have inGap (htrivia : k.isTrivia = true) : EndsInGap (u ++ [k]) := by
        obtain rfl := eq_opened_of_step htrivia hstep
        obtain ⟨before, opener, trivia, rfl, hopener, hall⟩ := ih hm
        refine ⟨before, opener, trivia ++ [k], by simp only [List.append_assoc], hopener, ?_⟩
        intro t ht
        rcases List.mem_append.1 ht with ht | ht
        · exact hall t ht
        · rw [List.mem_singleton.1 ht]
          exact htrivia
      unfold step at hstep
      split at hstep
      · exact inGap rfl
      · exact inGap rfl
      · cases hstep
      · exact single .comma u
      · exact single .colon u
      · exact single .inoutWord u
      · split at hstep
        · next hname =>
            obtain ⟨rfl, hname⟩ := hname
            obtain ⟨before, rfl⟩ := exists_of_run_eq_sigil (by decide) hm
            obtain ⟨name, hname⟩ := Option.isSome_iff_exists.1 hname
            rw [List.append_assoc]
            exact single (.inOutName hname) before
        · cases hstep

/-- **Where the kinds end in a gap, one is open.** -/
theorem run_eq_opened_of_endsInGap {g' : Gap} (h : EndsInGap u)
    (hu : g.run u = some g') : g' = opened := by
  obtain ⟨before, opener, trivia, rfl, hopener, htrivia⟩ := h
  obtain ⟨m, -, hm⟩ := exists_of_run_append hu
  rw [run_append_of_run (run_of_opensGap hopener), run_opened_of_isTrivia htrivia] at hm
  exact (Option.some.inj hm).symm

end Gap

/-! ## Phrases without their trivia -/

/-- The kinds that are no trivia. -/
def Kind.significant (w : List Kind) : List Kind := w.filter (!·.isTrivia)

namespace Kind

/-- Trivia are not significant. -/
theorem significant_of_isTrivia {w : List Kind} (h : ∀ k ∈ w, k.isTrivia = true) :
    significant w = [] := by
  rw [significant, List.filter_eq_nil_iff]
  intro k hk
  simp [h k hk]

@[simp]
theorem significant_append (u w : List Kind) :
    significant (u ++ w) = significant u ++ significant w :=
  List.filter_append ..

@[simp]
theorem significant_cons_of_not {k : Kind} (h : k.isTrivia = false) (w : List Kind) :
    significant (k :: w) = k :: significant w :=
  List.filter_cons_of_pos (by rw [h]; rfl)

@[simp]
theorem significant_nil : significant [] = [] := rfl

end Kind

/-- **A phrase stays one without its trivia.** -/
theorem Derives.significant {w : List Kind} {p : Phrase} (h : Derives w p) :
    Derives (Kind.significant w) p := by
  induction h with
  | @inOut k name trivia hname htrivia =>
      have hk := Kind.isTrivia_eq_false_of_name? hname
      rw [Kind.significant_cons_of_not rfl, Kind.significant_cons_of_not hk,
        Kind.significant_of_isTrivia htrivia]
      exact .inOut hname (List.forall_mem_nil _)
  | prefixed operator operand ih =>
      rw [Kind.significant_cons_of_not rfl]
      exact .prefixed operator ih
  | plain operand ih => exact .plain ih
  | name hname =>
      rw [Kind.significant_cons_of_not (Kind.isTrivia_eq_false_of_name? hname)]
      exact .name hname
  | literal value => exact .literal value
  | parenthesized inner ih =>
      rw [Kind.significant_append, Kind.significant_cons_of_not rfl]
      exact .parenthesized ih
  | callEmpty callee hcallee ih =>
      rw [Kind.significant_append]
      exact .callEmpty ih hcallee
  | call callee hcallee arguments ih iharguments =>
      rw [Kind.significant_append, Kind.significant_append, Kind.significant_cons_of_not rfl]
      exact .call ih hcallee iharguments
  | member base hname ih =>
      have hk := Kind.isTrivia_eq_false_of_name? hname
      rw [Kind.significant_append, Kind.significant_cons_of_not rfl,
        Kind.significant_cons_of_not hk]
      exact .member ih hname
  | postfixed operator operand ih =>
      rw [Kind.significant_append]
      exact .postfixed operator ih
  | single member ih => exact .single ih
  | more member htrivia rest ih ihrest =>
      rw [Kind.significant_append, Kind.significant_cons_of_not rfl, Kind.significant_append,
        Kind.significant_of_isTrivia htrivia]
      exact .more ih (List.forall_mem_nil _) ihrest

/-- A type has no trivia. -/
theorem DerivesType.significant_eq {w : List Kind} {t : TypeExpr} (h : DerivesType w t) :
    Kind.significant w = w := by
  induction h with
  | named name => rfl
  | array element ih =>
      rw [Kind.significant_append, Kind.significant_cons_of_not rfl, ih]
      rfl
  | marked mark wrapped ih =>
      rw [Kind.significant_append, ih]
      cases mark <;> rfl

/-- An ascription stays one without its trivia. -/
theorem DerivesAscription.significant {w : List Kind} {a : Ascription}
    (h : DerivesAscription w a) : DerivesAscription (Kind.significant w) a := by
  cases h with
  | plain htrivia type =>
      rw [Kind.significant_cons_of_not rfl, Kind.significant_append,
        Kind.significant_of_isTrivia htrivia, type.significant_eq]
      exact .plain (List.forall_mem_nil _) type
  | inout htrivia htrivia' type =>
      rw [Kind.significant_cons_of_not rfl, Kind.significant_append,
        Kind.significant_of_isTrivia htrivia, Kind.significant_cons_of_not rfl,
        Kind.significant_append, Kind.significant_of_isTrivia htrivia', type.significant_eq]
      exact .inout (List.forall_mem_nil _) (List.forall_mem_nil _) type

/-- A pattern stays one without its trivia. -/
theorem DerivesPattern.significant {w : List Kind} {p : Pattern} (h : DerivesPattern w p) :
    DerivesPattern (Kind.significant w) p := by
  cases h with
  | bare hname =>
      rw [Kind.significant_cons_of_not (Kind.isTrivia_eq_false_of_name? hname)]
      exact .bare hname
  | ascribed hname ascription =>
      rw [Kind.significant_cons_of_not (Kind.isTrivia_eq_false_of_name? hname)]
      exact .ascribed hname ascription.significant

/-! ## The gaps of a phrase -/

/-- Whether a gap is open behind the expression. -/
def Expression.gap : Expression → Gap
  | .inOut _ => .opened
  | _ => .closed

/-- Whether a gap is open behind the phrase. -/
def Phrase.gap : Phrase → Gap
  | .expression e => e.gap
  | .operand _ => .closed
  | .members es => (es.getLast?.map Expression.gap).getD .closed

open Gap

/-- **The trivia of a phrase stand in gaps**, and its last member says whether one is open behind
it. -/
theorem Derives.run_eq {w : List Kind} {p : Phrase} (h : Derives w p) {g : Gap} (hg : g ≠ sigil) :
    g.run w = some p.gap := by
  induction h generalizing g with
  | @inOut k name trivia hname htrivia =>
      have hsigil : g.step (.punctuator .ampersand) = some sigil := rfl
      rw [run_cons_of_step hsigil, run_cons_of_step (step_of_name? hname)]
      exact run_opened_of_isTrivia htrivia
  | prefixed operator operand ih =>
      rw [run_cons_of_step (step_operator g operator)]
      exact ih (by decide)
  | plain operand ih => exact ih hg
  | name hname =>
      rw [run_cons_of_step (step_of_name?_of_ne hg hname)]
      rfl
  | literal value => simp [run, step, Kind.name?, Phrase.gap]
  | parenthesized inner ih =>
      rw [List.cons_append, run_cons_of_step (step_leftParen g),
        run_append_of_run (ih (by decide)), run_cons_of_step (step_rightParen _)]
      rfl
  | callEmpty callee hcallee ih =>
      rw [run_append_of_run (ih hg), run_cons_of_step (step_leftParen _),
        run_cons_of_step (step_rightParen _)]
      rfl
  | call callee hcallee arguments ih iharguments =>
      rw [run_append_of_run (ih hg), List.cons_append, run_cons_of_step (step_leftParen _),
        run_append_of_run (iharguments (by decide)), run_cons_of_step (step_rightParen _)]
      rfl
  | member base hname ih =>
      have hdot : closed.step (.punctuator .dot) = some closed := rfl
      rw [run_append_of_run (ih hg), Phrase.gap, run_cons_of_step hdot,
        run_cons_of_step (step_of_name?_of_ne (by decide) hname)]
      rfl
  | postfixed operator operand ih =>
      rw [run_append_of_run (ih hg)]
      rfl
  | single member ih =>
      rw [ih hg]
      rfl
  | @more u trivia w e es member htrivia rest ih ihrest =>
      rw [run_append_of_run (ih hg), run_cons_of_step (step_comma _),
        run_append_of_run (run_opened_of_isTrivia htrivia), ihrest (by decide)]
      simp [Phrase.gap, List.getLast?_cons_of_ne_nil rest.members_ne_nil]

/-- Behind any front part of a type no gap is open. -/
theorem DerivesType.run_eq {u w : List Kind} {t : TypeExpr} (h : DerivesType (u ++ w) t) {g : Gap}
    (hg : g ≠ sigil) (hu : u ≠ []) : g.run u = some closed := by
  -- Every single kind of a type closes a gap.
  have closes : ∀ k ∈ u ++ w, ∀ g : Gap, g ≠ sigil → g.step k = some closed := by
    clear hu
    generalize u ++ w = s at h
    induction h with
    | named name =>
        intro k hk g hg
        rw [List.mem_singleton.1 hk]
        exact step_of_name?_of_ne hg rfl
    | array element ih =>
        intro k hk g hg
        simp only [List.cons_append, List.mem_cons, List.mem_append, List.not_mem_nil,
          or_false] at hk
        rcases hk with rfl | hk | rfl
        · simp [step, Kind.name?]
        · exact ih k hk g hg
        · simp [step, Kind.name?]
    | marked mark wrapped ih =>
        intro k hk g hg
        rcases List.mem_append.1 hk with hk | hk
        · exact ih k hk g hg
        · rw [List.mem_singleton.1 hk]
          cases mark <;> simp [step, Kind.name?]
  clear h
  induction u generalizing g with
  | nil => exact absurd rfl hu
  | cons k u ih =>
      rw [run_cons_of_step (closes k (by simp) g hg)]
      cases u with
      | nil => rfl
      | cons m u => exact ih (by decide) (by simp) fun k hk => closes k (List.mem_cons_of_mem _ hk)

/-- The trivia of a pattern stand in gaps. -/
theorem DerivesPattern.run_eq {w : List Kind} {p : Pattern} (h : DerivesPattern w p) :
    closed.run w = some closed := by
  have type {w : List Kind} {t : TypeExpr} (h : DerivesType w t) : opened.run w = some closed := by
    obtain ⟨k, rest, rfl, -⟩ := h.exists_cons
    exact DerivesType.run_eq (w := []) (by rwa [List.append_nil]) (by decide) (by simp)
  have hcolon : closed.step (.punctuator .colon) = some opened := rfl
  have hinout : opened.step (.keyword (.reserved .kwInout)) = some opened := rfl
  cases h with
  | bare hname =>
      rw [run_cons_of_step (step_of_name?_of_ne (by decide) hname)]
      rfl
  | ascribed hname ascription =>
      rw [run_cons_of_step (step_of_name?_of_ne (by decide) hname)]
      cases ascription with
      | plain htrivia ht =>
          rw [run_cons_of_step hcolon, run_append_of_run (run_opened_of_isTrivia htrivia), type ht]
      | inout htrivia htrivia' ht =>
          rw [run_cons_of_step hcolon, run_append_of_run (run_opened_of_isTrivia htrivia),
            run_cons_of_step hinout, run_append_of_run (run_opened_of_isTrivia htrivia'), type ht]

/-! ## More trivia in a gap -/

/-- A list in two parts that is cut elsewhere: the cut is in the first part or at its end, or it is
inside the second part. -/
theorem exists_of_append_eq_append {u w a b : List Kind} (h : u ++ w = a ++ b) :
    (∃ x, a = u ++ x ∧ w = x ++ b) ∨ ∃ x, x ≠ [] ∧ u = a ++ x ∧ b = x ++ w := by
  rcases List.append_eq_append_iff.1 h with ⟨x, ha, hw⟩ | ⟨x, hu, hb⟩
  · exact .inl ⟨x, ha, hw⟩
  · cases x with
    | nil =>
        rw [List.append_nil] at hu
        exact .inl ⟨[], by rw [hu, List.append_nil], hb.symm⟩
    | cons k x => exact .inr ⟨k :: x, by simp, hu, hb⟩

/-- What begins a list stands in front of its first part. -/
theorem exists_of_append_eq_cons {u w rest : List Kind} {k : Kind} (h : u ++ w = k :: rest)
    (hu : u ≠ []) : ∃ x, u = k :: x ∧ rest = x ++ w := by
  rcases List.append_eq_cons_iff.1 h with ⟨rfl, -⟩ | hcut
  · exact absurd rfl hu
  · exact hcut

/-- A gap is open only behind something. -/
theorem Gap.ne_nil_of_run {u : List Kind} (h : closed.run u = some opened) : u ≠ [] := by
  rintro rfl
  cases h

/-- A gap between two kinds that close gaps is a gap of what stands between them. -/
theorem exists_of_gap_between {first last : Kind} {x y w : List Kind} {g : Gap}
    (h : x ++ y = first :: w ++ [last]) (hx : x ≠ []) (hgap : g.run x = some opened)
    (hfirst : g.step first = some closed)
    (hlast : ∀ m, closed.run w = some m → m.step last ≠ some opened) :
    ∃ u v, w = u ++ v ∧ x = first :: u ∧ y = v ++ [last] ∧ closed.run u = some opened := by
  rw [List.cons_append] at h
  obtain ⟨u, rfl, htail⟩ := exists_of_append_eq_cons h hx
  rw [run_cons_of_step hfirst] at hgap
  rcases exists_of_append_eq_append htail.symm with ⟨v, hw, hy⟩ | ⟨v, hv, rfl, hlast'⟩
  · exact ⟨u, v, hw, rfl, hy, hgap⟩
  · -- The gap would be open behind the last kind.
    exfalso
    obtain ⟨hnil, -⟩ | ⟨hsingle, -⟩ := List.append_eq_singleton_iff.1 hlast'.symm
    · exact hv hnil
    · rw [hsingle, run_append_singleton] at hgap
      obtain ⟨m, hm, hstep⟩ := Option.bind_eq_some_iff.1 hgap
      exact hlast m hm hstep

/-- A cut in a gap of kinds behind trivia is a cut in the trivia, or in a gap of the kinds. -/
theorem exists_of_gap_behind_trivia {x y trivia w : List Kind} (h : x ++ y = trivia ++ w)
    (hgap : opened.run x = some opened) (htrivia : ∀ k ∈ trivia, k.isTrivia = true) :
    (∃ v, trivia = x ++ v ∧ y = v ++ w) ∨
      ∃ u, u ≠ [] ∧ x = trivia ++ u ∧ w = u ++ y ∧ opened.run u = some opened := by
  rcases exists_of_append_eq_append h with hcut | ⟨u, hu, rfl, hw⟩
  · exact .inl hcut
  · rw [run_append_of_run (run_opened_of_isTrivia htrivia)] at hgap
    exact .inr ⟨u, hu, rfl, hw, hgap⟩

/-- One more among trivia leaves trivia. -/
theorem Kind.isTrivia_insert {x y : List Kind} {t : Kind} (h : ∀ k ∈ x ++ y, k.isTrivia = true)
    (ht : t.isTrivia = true) : ∀ k ∈ x ++ t :: y, k.isTrivia = true := by
  intro k hk
  rw [List.mem_append, List.mem_cons] at hk
  rcases hk with hk | rfl | hk
  · exact h k (List.mem_append_left y hk)
  · exact ht
  · exact h k (List.mem_append_right x hk)

/-- A gap of an operand and what follows it is a gap of the operand, or one behind it. -/
theorem Derives.exists_of_gap {a b u w : List Kind} {o : Operand} (ho : Derives a (.operand o))
    {g : Gap} (hg : g ≠ sigil) (hgap : g.run u = some opened) (h : u ++ w = a ++ b) :
    (∃ x, a = u ++ x ∧ w = x ++ b) ∨
      ∃ x, x ≠ [] ∧ u = a ++ x ∧ b = x ++ w ∧ closed.run x = some opened := by
  rcases exists_of_append_eq_append h with hcut | ⟨x, hx, rfl, hb⟩
  · exact .inl hcut
  · rw [run_append_of_run (ho.run_eq hg)] at hgap
    exact .inr ⟨x, hx, rfl, hb, hgap⟩

/-- **In each of its gaps a phrase may hold more trivia.** -/
theorem Derives.insert {u w : List Kind} {p : Phrase} {t : Kind} (h : Derives (u ++ w) p)
    {g : Gap} (hg : g ≠ sigil) (hu : u ≠ []) (hgap : g.run u = some opened)
    (ht : t.isTrivia = true) : Derives (u ++ t :: w) p := by
  generalize hs : u ++ w = s at h
  induction h generalizing u w g with
  | @inOut k name trivia hname htrivia =>
      obtain ⟨x, rfl, hrest⟩ := exists_of_append_eq_cons hs hu
      -- Directly behind the sigil no gap is open.
      cases x with
      | nil => cases hgap
      | cons b x =>
          obtain ⟨y, hy, rfl⟩ := exists_of_append_eq_cons hrest.symm (List.cons_ne_nil b x)
          rw [hy]
          exact .inOut hname (Kind.isTrivia_insert htrivia ht)
  | prefixed operator operand ih =>
      obtain ⟨x, rfl, hrest⟩ := exists_of_append_eq_cons hs hu
      rw [run_cons_of_step (step_operator g operator)] at hgap
      exact .prefixed operator (ih (by decide) (ne_nil_of_run hgap) hgap hrest.symm)
  | plain operand ih => exact .plain (ih hg hu hgap hs)
  | @name k name hname =>
      obtain ⟨rfl, -⟩ | ⟨rfl, -⟩ := List.append_eq_singleton_iff.1 hs
      · exact absurd rfl hu
      · rw [run_cons_of_step (step_of_name?_of_ne hg hname)] at hgap
        cases hgap
  | literal value =>
      obtain ⟨rfl, -⟩ | ⟨rfl, -⟩ := List.append_eq_singleton_iff.1 hs
      · exact absurd rfl hu
      · simp [run, step, Kind.name?] at hgap
  | parenthesized inner ih =>
      obtain ⟨x, y, rfl, rfl, rfl, hx⟩ := exists_of_gap_between hs hu hgap (step_leftParen g)
        fun m _ => step_rightParen_ne m
      have hinner := ih (by decide) (ne_nil_of_run hx) hx rfl
      simpa using Derives.parenthesized hinner
  | @callEmpty a o callee hcallee ih =>
      rcases callee.exists_of_gap hg hgap hs with ⟨x, rfl, rfl⟩ | ⟨x, hx, rfl, hb, hgap⟩
      · simpa using Derives.callEmpty (ih hg hu hgap rfl) hcallee
      · -- Nothing stands between the parentheses that could open a gap.
        obtain ⟨y, z, hy, -, -, hrun⟩ := exists_of_gap_between (w := []) hb.symm hx hgap
          (step_leftParen _) fun m _ => step_rightParen_ne m
        exact absurd (List.append_eq_nil_iff.1 hy.symm).1 (ne_nil_of_run hrun)
  | @call a w₀ o es callee hcallee arguments ih iharguments =>
      rcases callee.exists_of_gap hg hgap hs with ⟨x, rfl, rfl⟩ | ⟨x, hx, rfl, hb, hgap⟩
      · simpa using Derives.call (ih hg hu hgap rfl) hcallee arguments
      · obtain ⟨y, z, rfl, rfl, rfl, hrun⟩ := exists_of_gap_between hb.symm hx hgap
          (step_leftParen _) fun m _ => step_rightParen_ne m
        have hmore := iharguments (by decide) (ne_nil_of_run hrun) hrun rfl
        simpa using Derives.call callee hcallee hmore
  | @member a o k name base hname ih =>
      rcases base.exists_of_gap hg hgap hs with ⟨x, rfl, rfl⟩ | ⟨x, hx, rfl, hb, hgap⟩
      · simpa using Derives.member (ih hg hu hgap rfl) hname
      · -- The name behind the point does not belong to an in-out argument.
        obtain ⟨y, z, hy, -, -, hrun⟩ := exists_of_gap_between (w := []) hb.symm hx hgap rfl
          fun m hm => by
            cases hm
            rw [step_of_name? hname]
            decide
        exact absurd (List.append_eq_nil_iff.1 hy.symm).1 (ne_nil_of_run hrun)
  | @postfixed a o operator operand ih =>
      rcases operand.exists_of_gap hg hgap hs with ⟨x, rfl, rfl⟩ | ⟨x, hx, rfl, hb, hgap⟩
      · simpa using Derives.postfixed operator (ih hg hu hgap rfl)
      · obtain ⟨rfl, -⟩ | ⟨rfl, -⟩ := List.append_eq_singleton_iff.1 hb.symm
        · exact absurd rfl hx
        · simp [run, step, Kind.name?] at hgap
  | single member ih => exact .single (ih hg hu hgap hs)
  | @more a trivia w₀ e es member htrivia rest ih ihrest =>
      rcases exists_of_append_eq_append hs with ⟨x, rfl, rfl⟩ | ⟨x, hx, rfl, hb⟩
      · simpa using Derives.more (ih hg hu hgap rfl) htrivia rest
      · obtain ⟨x, rfl, hrest⟩ := exists_of_append_eq_cons hb.symm hx
        rw [run_append_of_run (member.run_eq hg), run_cons_of_step (step_comma _)] at hgap
        rcases exists_of_gap_behind_trivia hrest.symm hgap htrivia with
          ⟨y, rfl, rfl⟩ | ⟨y, hy, rfl, rfl, hrun⟩
        · simpa using Derives.more member (Kind.isTrivia_insert htrivia ht) rest
        · have hmore := ihrest (by decide) hy hrun rfl
          simpa using Derives.more member htrivia hmore

/-- Behind the trivia in front of a type there is room for more, and nowhere in the type. -/
theorem exists_of_gap_before_type {x y trivia w : List Kind} {t : TypeExpr}
    (h : x ++ y = trivia ++ w) (hgap : opened.run x = some opened)
    (htrivia : ∀ k ∈ trivia, k.isTrivia = true) (hw : DerivesType w t) :
    ∃ v, trivia = x ++ v ∧ y = v ++ w := by
  rcases exists_of_gap_behind_trivia h hgap htrivia with hcut | ⟨u, hu, -, rfl, hrun⟩
  · exact hcut
  · rw [hw.run_eq (by decide) hu] at hrun
    cases hrun

/-- **In each of its gaps a pattern may hold more trivia.** -/
theorem DerivesPattern.insert {u w : List Kind} {p : Pattern} {t : Kind}
    (h : DerivesPattern (u ++ w) p) (hgap : closed.run u = some opened) (ht : t.isTrivia = true) :
    DerivesPattern (u ++ t :: w) p := by
  have hcolon : closed.step (.punctuator .colon) = some opened := rfl
  have hinout : opened.step (.keyword (.reserved .kwInout)) = some opened := rfl
  generalize hs : u ++ w = s at h
  cases h with
  | bare hname =>
      obtain ⟨rfl, -⟩ | ⟨rfl, -⟩ := List.append_eq_singleton_iff.1 hs
      · cases hgap
      · rw [run_cons_of_step (step_of_name?_of_ne (by decide) hname)] at hgap
        cases hgap
  | ascribed hname ascription =>
      obtain ⟨x, rfl, hrest⟩ := exists_of_append_eq_cons hs (ne_nil_of_run hgap)
      rw [run_cons_of_step (step_of_name?_of_ne (by decide) hname)] at hgap
      refine .ascribed hname ?_
      cases ascription with
      | plain htrivia hw =>
          obtain ⟨x, rfl, htail⟩ := exists_of_append_eq_cons hrest.symm (ne_nil_of_run hgap)
          rw [run_cons_of_step hcolon] at hgap
          obtain ⟨y, rfl, rfl⟩ := exists_of_gap_before_type htail.symm hgap htrivia hw
          simpa using DerivesAscription.plain (Kind.isTrivia_insert htrivia ht) hw
      | inout htrivia htrivia' hw =>
          obtain ⟨x, rfl, htail⟩ := exists_of_append_eq_cons hrest.symm (ne_nil_of_run hgap)
          rw [run_cons_of_step hcolon] at hgap
          rcases exists_of_gap_behind_trivia htail.symm hgap htrivia with
            ⟨y, rfl, rfl⟩ | ⟨y, hy, rfl, hb, hrun⟩
          · simpa using DerivesAscription.inout (Kind.isTrivia_insert htrivia ht) htrivia' hw
          · obtain ⟨z, rfl, hlast⟩ := exists_of_append_eq_cons hb.symm hy
            rw [run_cons_of_step hinout] at hrun
            obtain ⟨z, rfl, rfl⟩ := exists_of_gap_before_type hlast.symm hrun htrivia' hw
            simpa using DerivesAscription.inout htrivia (Kind.isTrivia_insert htrivia' ht) hw

/-! ## Trivia in a language -/

/-- What the phrases of a language have to do with trivia: they stay phrases without them, all
their trivia stand in gaps, and each gap takes more. -/
structure TriviaLaws {α : Type} (language : List Kind → α → Prop) : Prop where
  significant : ∀ w v, language w v → language (Kind.significant w) v
  placed : ∀ w v, language w v → ∃ g, closed.run w = some g
  insert : ∀ u w v t, language (u ++ w) v → closed.run u = some opened → t.isTrivia = true →
    language (u ++ t :: w) v

/-- Phrases of one sort obey the laws of trivia. -/
theorem Derives.triviaLaws {α : Type} (phrase : α → Phrase) :
    TriviaLaws fun w v => Derives w (phrase v) where
  significant _ _ h := h.significant
  placed _ _ h := ⟨_, h.run_eq (by decide)⟩
  insert _ _ _ _ h hgap ht := h.insert (by decide) (ne_nil_of_run hgap) hgap ht

/-- Patterns obey the laws of trivia. -/
theorem DerivesPattern.triviaLaws : TriviaLaws DerivesPattern where
  significant _ _ h := h.significant
  placed _ _ h := ⟨_, h.run_eq⟩
  insert _ _ _ _ h hgap ht := h.insert hgap ht

end ExprFront
