/-
# Scanning what is printed

The printer writes every plain name as a name, but where the name is a contextual keyword the
scanner reads that keyword.  `Kind.reread` is the kind that the scanner reads for the text of a
kind; the text stays the same.

The kinds that are read have to be spaced.  What may stand behind a kind is stated in terms of the
kinds that follow it, the end of input included.
-/
import ExprFront.Proofs.RoundTrip.WellFormed

namespace ExprFront

/-! ## Kinds as they are scanned -/

/-- The kind that is scanned where a name is printed. -/
def Identifier.kind (i : Identifier) : Kind :=
  if i.backticked then .identifier i else Kind.ofWord i.name

/-- The kind that is scanned where a kind is printed. -/
def Kind.reread : Kind → Kind
  | .identifier i => i.kind
  | k => k

/-- A name is scanned from its own text. -/
theorem Identifier.text_kind (i : Identifier) : i.kind.text = i.text := by
  unfold Identifier.kind Identifier.text
  split
  · next h => simp [Kind.text, Identifier.text, h]
  · exact Kind.text_ofWord i.name

/-- Kinds are scanned from the text that they are printed as. -/
theorem Kind.flatMap_text_reread (kinds : List Kind) :
    (kinds.map reread).flatMap (·.text.toList) = kinds.flatMap (·.text.toList) := by
  have htext (k : Kind) : k.reread.text = k.text := by
    cases k with
    | identifier i => exact i.text_kind
    | _ => rfl
  rw [List.flatMap_map]
  simp only [htext]

/-- The text of kinds is that of the kinds that are scanned from it. -/
theorem Kind.toList_textOf_reread (kinds : List Kind) :
    (Kind.textOf kinds).toList = (kinds.map reread).flatMap (·.text.toList) := by
  rw [toList_textOf, flatMap_text_reread]

namespace Identifier.WellFormed

variable {i : Identifier}

/-- What is scanned where a well-formed name is printed is read as that name. -/
theorem name?_kind (h : i.WellFormed) : i.kind.name? = some i := by
  obtain ⟨name, backticked⟩ := i
  cases backticked with
  | true => rfl
  | false =>
      obtain ⟨hliteral, hreserved⟩ := h.2 rfl
      simp only [wordLiterals, List.mem_cons, List.not_mem_nil, or_false, not_or] at hliteral
      show (Kind.ofWord name).name? = some (plain name)
      rw [Kind.ofWord, if_neg hliteral.1, if_neg hliteral.2.1, if_neg hliteral.2.2]
      cases hk : Keyword.ofWord? name with
      | none => rfl
      | some k =>
          -- Only a contextual keyword is left, and that is read as the name it is spelled like.
          have hspelling := Keyword.spelling_of_ofWord? hk
          cases k with
          | reserved word => exact absurd hspelling (hreserved word)
          | contextual word => exact congrArg (some ∘ plain) hspelling

/-- What is scanned where a well-formed name is printed is valid. -/
theorem valid_kind (h : i.WellFormed) : i.kind.Valid := by
  unfold Identifier.kind
  split
  · next hbackticked => exact ⟨h.1, fun hplain => by simp [hbackticked] at hplain⟩
  · rw [← String.ofList_toList (s := i.name)]
    exact (Kind.valid_ofWord h.1).1

/-- What is scanned where a well-formed name is printed is a word or stands between backticks. -/
theorem category_kind (h : i.WellFormed) :
    i.kind.category = .word ∨ i.kind.category = .backticked := by
  unfold Identifier.kind
  split
  · next hbackticked => exact .inr (if_pos hbackticked)
  · rw [← String.ofList_toList (s := i.name)]
    exact .inl (Kind.valid_ofWord h.1).2

end Identifier.WellFormed

/-! ## What may stand behind a kind -/

namespace Kind

variable {k : Kind} {following : List Kind}

/-- Behind a kind that is no number only the next kind matters. -/
theorem leadsTo_of_compatible (hk : k.category ≠ .number)
    (h : ∀ next ∈ following.head?, Compatible k next) : k.LeadsTo following := by
  refine ⟨h, fun hinteger => ?_⟩
  obtain ⟨text, rfl⟩ := isInteger_iff.1 hinteger
  exact absurd rfl hk

/-- What is no comment is no line comment. -/
theorem not_isLineComment (hk : k.category ≠ .comment) : ¬ k.isLineComment = true :=
  fun hline => hk (category_of_isLineComment hline)

/-- Anything may stand behind a mark that is no operator run. -/
theorem leadsTo_of_mark (hk : k.category = .mark) : k.LeadsTo following := by
  refine leadsTo_of_compatible (by simp [hk]) fun next _ => ?_
  constructor
  case lineComment => exact fun hline => absurd hline (not_isLineComment (by simp [hk]))
  all_goals simp [hk]

/-- Behind an operator run stands no operator run and no comment. -/
theorem leadsTo_of_operatorRun (hk : k.category = .operatorRun)
    (hfollowing : ∀ next ∈ following.head?,
      next.category ≠ .operatorRun ∧ next.category ≠ .comment) : k.LeadsTo following := by
  refine leadsTo_of_compatible (by simp [hk]) fun next hnext => ?_
  obtain ⟨hrun, hcomment⟩ := hfollowing next hnext
  constructor
  case operatorRun => exact fun _ => ⟨hrun, fun _ => hcomment⟩
  case lineComment => exact fun hline => absurd hline (not_isLineComment (by simp [hk]))
  all_goals simp [hk]

/-- Whitespace and comments are trivia. -/
theorem isTrivia_of_category (h : k.category = .whitespace ∨ k.category = .comment) :
    k.isTrivia = true := by
  cases k with
  | identifier name =>
      obtain ⟨name, backticked⟩ := name
      cases backticked <;> rcases h with h | h <;> cases h
  | literal value => cases value <;> rcases h with h | h <;> cases h
  | punctuator mark => cases mark <;> rcases h with h | h <;> cases h
  | whitespace text => rfl
  | comment text => rfl
  | _ => rcases h with h | h <;> cases h

/-- What is no trivia is no whitespace. -/
theorem category_ne_whitespace (hk : k.isTrivia = false) : k.category ≠ .whitespace := by
  intro hwhitespace
  rw [isTrivia_of_category (.inl hwhitespace)] at hk
  cases hk

/-- What is no trivia is no comment. -/
theorem category_ne_comment (hk : k.isTrivia = false) : k.category ≠ .comment := by
  intro hcomment
  rw [isTrivia_of_category (.inr hcomment)] at hk
  cases hk

/-- One space is whitespace. -/
theorem valid_space : Kind.space.Valid := by
  refine ⟨by simp, ?_⟩
  simp only [String.reduceToList, List.mem_singleton, forall_eq]
  rfl

/-- A space may stand behind every word. -/
theorem leadsTo_space_of_word {rest : List Kind} (hk : k.category = .word) :
    k.LeadsTo (.space :: rest) := by
  refine leadsTo_of_compatible (by simp [hk]) fun next hnext => ?_
  obtain rfl : Kind.space = next := by simpa using hnext
  constructor
  case word => exact fun _ => ⟨nofun, nofun⟩
  case lineComment => exact fun hline => absurd hline (not_isLineComment (by simp [hk]))
  all_goals simp [hk]

/-- Behind a space stands no whitespace. -/
theorem leadsTo_space (hfollowing : ∀ next ∈ following.head?, next.category ≠ .whitespace) :
    Kind.space.LeadsTo following := by
  refine ⟨fun next hnext => ⟨nofun, nofun, nofun, fun _ => hfollowing next hnext, nofun⟩, nofun⟩

end Kind

/-- What may stand behind an operand: a mark that is no operator run, the end, or an operator run
unless the operand ends in a postfix operator.  Behind a point there stands no number. -/
def CanFollow (isPostfixed : Bool) (following : List Kind) : Prop :=
  ∃ k rest, following = k :: rest ∧
    (k.category = .mark ∨ k.category = .endOfInput ∨
      k.category = .operatorRun ∧ isPostfixed = false) ∧
    (k = .punctuator .dot → ∀ m ∈ rest.head?, m.category ≠ .number)

/-- What may stand behind a postfix operator may stand behind every operand. -/
theorem CanFollow.weaken {following : List Kind} (h : CanFollow true following)
    (isPostfixed : Bool) : CanFollow isPostfixed following := by
  obtain ⟨k, rest, rfl, hk, hdot⟩ := h
  refine ⟨k, rest, rfl, ?_, hdot⟩
  rcases hk with hk | hk | ⟨-, hk⟩
  · exact .inl hk
  · exact .inr (.inl hk)
  · cases hk

/-- The end of input may stand behind every operand. -/
theorem canFollow_end (isPostfixed : Bool) : CanFollow isPostfixed [.endOfInput] :=
  ⟨_, _, rfl, .inr (.inl rfl), nofun⟩

/-- A mark other than a point may stand behind every operand. -/
theorem canFollow_of_mark {isPostfixed : Bool} {k : Kind} {rest : List Kind}
    (hk : k.category = .mark) (hdot : k ≠ .punctuator .dot) : CanFollow isPostfixed (k :: rest) :=
  ⟨k, rest, rfl, .inl hk, fun h => absurd h hdot⟩

/-- What may stand behind an operand may stand behind its last kind. -/
theorem Kind.leadsTo_of_canFollow {k : Kind} {isPostfixed : Bool} {following : List Kind}
    (h : CanFollow isPostfixed following) (hwhitespace : k.category ≠ .whitespace)
    (hcomment : k.category ≠ .comment) (hrun : k.category = .operatorRun → isPostfixed = true) :
    k.LeadsTo following := by
  obtain ⟨m, rest, rfl, hm, hdot⟩ := h
  constructor
  · intro next hnext
    obtain rfl : m = next := by simpa using hnext
    refine ⟨fun _ => ?_, fun _ => ?_, fun hk => ?_, fun hk => absurd hk hwhitespace,
      fun hk => absurd hk (not_isLineComment hcomment)⟩
    · rcases hm with hm | hm | ⟨hm, -⟩ <;> simp [hm]
    · rcases hm with hm | hm | ⟨hm, -⟩ <;> simp [hm]
    · rcases hm with hm | hm | ⟨-, hm⟩
      · simp [hm]
      · simp [hm]
      · rw [hrun hk] at hm
        cases hm
  · intro _ m' tail htail
    cases htail
    exact hdot rfl m' rfl

/-! ## Kinds in front of spaced kinds -/

/-- A mark that is no operator run may stand in front of spaced kinds. -/
theorem spaced_cons_of_mark {k : Kind} {rest : List Kind} (hvalid : k.Valid)
    (hk : k.category = .mark) (h : Spaced rest) : Spaced (k :: rest) := by
  refine ⟨hvalid, ?_, Kind.leadsTo_of_mark hk, h⟩
  rintro rfl
  cases hk

/-- A well-formed name may stand in front of spaced kinds that may follow an operand. -/
theorem spaced_cons_of_name {name : Identifier} {isPostfixed : Bool} {rest : List Kind}
    (h : name.WellFormed) (hrest : Spaced rest)
    (hfollow : CanFollow isPostfixed (rest ++ [.endOfInput])) : Spaced (name.kind :: rest) := by
  have hcategory := h.category_kind
  refine ⟨h.valid_kind, ?_, Kind.leadsTo_of_canFollow hfollow ?_ ?_ ?_, hrest⟩
  · intro hend
    rw [hend] at hcategory
    rcases hcategory with h | h <;> cases h
  · rcases hcategory with h | h <;> simp [h]
  · rcases hcategory with h | h <;> simp [h]
  · rcases hcategory with h | h <;> simp [h]

/-- A valid literal may stand in front of spaced kinds that may follow an operand. -/
theorem spaced_cons_of_literal {value : Literal} {isPostfixed : Bool} {rest : List Kind}
    (h : value.Valid) (hrest : Spaced rest)
    (hfollow : CanFollow isPostfixed (rest ++ [.endOfInput])) :
    Spaced (.literal value :: rest) := by
  refine ⟨h, nofun, Kind.leadsTo_of_canFollow hfollow ?_ ?_ ?_, hrest⟩
  · cases value <;> nofun
  · cases value <;> nofun
  · cases value <;> nofun

end ExprFront
