/-
# Reading and printing one token

The scanner reads valid kinds only, and it reads each of them.  `Begins.valid` says what holds of a
lexeme that is read, and `readsBack_of_valid` that the text of a valid kind is read as that kind
wherever the text behind it does not prolong it.  What the next token looks like shows in its first
characters: that is `Begins.startsLike`.
-/
import ExprFront.Proofs.Lexeme.Validity

namespace ExprFront

open Spelling

/-! ## The text behind a token -/

/-- Whether the kind is a number without a fraction. -/
def Kind.isInteger : Kind → Bool
  | .literal (.integer _) => true
  | _ => false

/-- The text does not prolong a token of the kind that stands before it. -/
def Kind.StopsBefore (k : Kind) (rest : List Char) : Prop :=
  match k.category with
  | .word => Stops continuesWord rest
  | .number =>
      Stops isNumberChar rest ∧ (k.isInteger = true → Lexeme.startsFraction rest = false)
  | .operatorRun => Lexeme.StopsRun k.text.toList rest
  | .whitespace => Stops isBlank rest
  | .comment => k.isLineComment = true → Stops (!isLineEnd ·) rest
  | _ => True

/-- A mark that is no run of operator characters is spelled by the character that it is read
from. -/
theorem Punctuator.exists_ofChar? {mark : Punctuator} (h : mark.isOperatorRun = false) :
    ∃ c, mark.symbol.toList = [c] ∧ Punctuator.ofChar? c = some mark := by
  cases mark with
  | ampersand | equal | arrow | question => cases h
  | leftParen => exact ⟨'(', rfl, rfl⟩
  | rightParen => exact ⟨')', rfl, rfl⟩
  | leftBracket => exact ⟨'[', rfl, rfl⟩
  | rightBracket => exact ⟨']', rfl, rfl⟩
  | leftBrace => exact ⟨'{', rfl, rfl⟩
  | rightBrace => exact ⟨'}', rfl, rfl⟩
  | dot => exact ⟨'.', rfl, rfl⟩
  | comma => exact ⟨',', rfl, rfl⟩
  | colon => exact ⟨':', rfl, rfl⟩
  | semicolon => exact ⟨';', rfl, rfl⟩
  | «at» => exact ⟨'@', rfl, rfl⟩
  | hash => exact ⟨'#', rfl, rfl⟩

/-- A mark that is read from one character is no run of operator characters. -/
theorem Punctuator.isOperatorRun_of_ofChar? {c : Char} {mark : Punctuator}
    (h : Punctuator.ofChar? c = some mark) : mark.isOperatorRun = false := by
  unfold Punctuator.ofChar? at h
  split at h
  all_goals cases h
  all_goals rfl

namespace Lexeme

/-! ## What is read is valid -/

/-- **A lexeme that is read is of a valid kind, and the text behind it does not prolong it.** -/
theorem Begins.valid {c : Char} {rest tail : List Char} {x : Lexeme} (h : Begins c rest x)
    (htail : c :: rest = x.spelling ++ tail) : x.kind.Valid ∧ x.kind.StopsBefore tail := by
  cases h with
  | blanks hc =>
      obtain ⟨run, tail', hrun, hshape, hstop, hx⟩ := exists_of_blanks hc rest
      rw [hx] at htail ⊢
      obtain rfl : tail' = tail := List.append_cancel_left (hrun.symm.trans htail)
      exact ⟨by simpa [Kind.Valid] using hshape, hstop⟩
  | lineComment rest =>
      obtain ⟨run, tail', hrun, hshape, hstop, hx⟩ := exists_of_lineComment rest
      rw [hx] at htail ⊢
      obtain rfl : tail' = tail := List.append_cancel_left (hrun.symm.trans htail)
      exact ⟨.inl (by simpa using hshape), fun _ => hstop⟩
  | blockComment hx =>
      -- Nothing prolongs a block comment: it ends at its last delimiter.
      obtain ⟨body, tail', rfl, nested, rfl⟩ := blockComment_eq_ok_iff.1 hx
      refine ⟨.inr ⟨body, String.toList_ofList, nested⟩, fun hline => ?_⟩
      simp [Kind.isLineComment] at hline
  | string hx =>
      obtain ⟨value, hvalue⟩ := exists_of_string hx
      rw [hvalue]
      exact ⟨trivial, trivial⟩
  | backtickedName hx =>
      obtain ⟨name, tail', rfl, hname, rfl⟩ := backtickedName_eq_ok_iff.1 hx
      exact ⟨⟨by simpa using hname, nofun⟩, trivial⟩
  | number hc =>
      obtain ⟨run, tail', hrun, hstop, ⟨hshape, hpoint, hx⟩ | ⟨hshape, hx⟩⟩ :=
        exists_of_number hc rest
      · rw [hx] at htail ⊢
        obtain rfl : tail' = tail := List.append_cancel_left (hrun.symm.trans htail)
        exact ⟨by simpa [Kind.Valid, Literal.Valid] using hshape, hstop, fun _ => hpoint⟩
      · rw [hx] at htail ⊢
        obtain rfl : tail' = tail := List.append_cancel_left (hrun.symm.trans htail)
        exact ⟨by simpa [Kind.Valid, Literal.Valid] using hshape, hstop, nofun⟩
  | mark hm =>
      refine ⟨trivial, ?_⟩
      simp [Kind.StopsBefore, Kind.category, Punctuator.isOperatorRun_of_ofChar? hm]
  | operator hc hopen =>
      -- The run may be a mark such as `->`; its category is that of a run all the same.
      obtain ⟨run, tail', hrun, hshape, hstop, hx⟩ := exists_of_operator hc hopen
      rw [hx] at htail ⊢
      obtain rfl : tail' = tail := List.append_cancel_left (hrun.symm.trans htail)
      obtain ⟨hvalid, hcategory⟩ := Kind.valid_ofOperatorRun hshape
      refine ⟨hvalid, ?_⟩
      simpa [Kind.StopsBefore, hcategory, Kind.text_ofOperatorRun] using hstop
  | word hc =>
      obtain ⟨run, tail', hrun, hshape, hstop, hx⟩ := exists_of_word hc rest
      rw [hx] at htail ⊢
      obtain rfl : tail' = tail := List.append_cancel_left (hrun.symm.trans htail)
      obtain ⟨hvalid, hcategory⟩ := Kind.valid_ofWord hshape
      refine ⟨hvalid, ?_⟩
      simpa [Kind.StopsBefore, hcategory] using hstop

/-! ## What is valid is read -/

/-- The text of the kind is read as that kind in front of the given text. -/
def ReadsBack (k : Kind) (rest : List Char) : Prop :=
  ∃ c t, k.text.toList = c :: t ∧ Begins c (t ++ rest) ⟨k, c :: t⟩

/-- Kinds of words are read back. -/
theorem readsBack_of_word {k : Kind} {rest : List Char} (hk : k.Valid)
    (hword : k.category = .word) (hstop : Stops continuesWord rest) : ReadsBack k rest := by
  obtain ⟨hshape, hread⟩ := Kind.ofWord_text hk hword
  cases htext : k.text.toList with
  | nil => rw [htext] at hshape; exact hshape.elim
  | cons c t =>
      rw [htext] at hshape
      refine ⟨c, t, htext, ?_⟩
      have h : Begins c (t ++ rest) (word (c :: t ++ rest)) := .word hshape.1
      rwa [word_append hshape hstop, ← htext, String.ofList_toList, hread, htext] at h

/-- Kinds of operator runs are read back. -/
theorem readsBack_of_operatorRun {k : Kind} {rest : List Char} (hk : k.Valid)
    (hrun : k.category = .operatorRun) (hstop : StopsRun k.text.toList rest) :
    ReadsBack k rest := by
  obtain ⟨hshape, hread⟩ := Kind.ofOperatorRun_text hk hrun
  have htake := operatorRun_append hshape.chars hshape.noLineComment hshape.noBlockComment hstop
  cases htext : k.text.toList with
  | nil => exact absurd htext hshape.ne_nil
  | cons c t =>
      rw [htext] at htake hread
      have hc : isOperatorChar c = true := hshape.chars c (by simp [htext])
      -- the run would be empty if a comment began at its first character
      have hopen : opensComment c (t ++ rest).head? = false := by
        rw [List.cons_append, operatorRun] at htake
        split at htake
        · next h => simpa [hc] using h
        · cases htake
      refine ⟨c, t, htext, ?_⟩
      have h : Begins c (t ++ rest) (operator (c :: t ++ rest)) := .operator hc hopen
      rwa [operator, htake, hread] at h

/-- Integers are read back. -/
theorem readsBack_integer {run rest : List Char} (hrun : IsNumeral run)
    (hrest : Stops isNumberChar rest) (hpoint : startsFraction rest = false) :
    ReadsBack (.literal (.integer (String.ofList run))) rest := by
  cases run with
  | nil => exact hrun.elim
  | cons c t =>
      refine ⟨c, t, String.toList_ofList, ?_⟩
      have h : Begins c (t ++ rest) (number (c :: t ++ rest)) := .number hrun.1
      rwa [number_append_integer hrun hrest hpoint] at h

/-- Numbers with a fraction are read back. -/
theorem readsBack_floating {run rest : List Char} (hrun : IsFraction run)
    (hrest : Stops isNumberChar rest) :
    ReadsBack (.literal (.floating (String.ofList run))) rest := by
  have htake := number_append_fraction hrun hrest
  obtain ⟨whole, part, rfl, hwhole, -⟩ := hrun
  cases whole with
  | nil => exact hwhole.elim
  | cons c whole =>
      refine ⟨c, whole ++ '.' :: part, String.toList_ofList, ?_⟩
      have h : Begins c (whole ++ '.' :: part ++ rest)
          (number (c :: whole ++ '.' :: part ++ rest)) := .number hwhole.1
      rwa [htake] at h

/-- Strings are read back whatever follows them. -/
theorem readsBack_string (value : String) (rest : List Char) :
    ReadsBack (.literal (.string value)) rest := by
  refine ⟨'"', Quoted.encode value.toList ++ ['"'], by simp [Kind.text, Literal.text], ?_⟩
  refine .string ?_
  rw [List.append_assoc]
  exact (string_append value.toList rest).trans (by simp)

/-- Names between backticks are read back whatever follows them. -/
theorem readsBack_backticked {name : String} (hname : IsWord name.toList) (rest : List Char) :
    ReadsBack (.identifier ⟨name, true⟩) rest := by
  refine ⟨'\x60', name.toList ++ ['\x60'], by simp [Kind.text, Identifier.text], ?_⟩
  refine .backtickedName (backtickedName_eq_ok_iff.2 ⟨name.toList, rest, by simp, hname, ?_⟩)
  simp

/-- Marks of one character are read back whatever follows them. -/
theorem readsBack_mark {mark : Punctuator} (hmark : mark.isOperatorRun = false)
    (rest : List Char) : ReadsBack (.punctuator mark) rest := by
  obtain ⟨c, hsymbol, hc⟩ := Punctuator.exists_ofChar? hmark
  exact ⟨c, [], hsymbol, .mark hc⟩

/-- Whitespace is read back. -/
theorem readsBack_whitespace {run rest : List Char} (hrun : IsWhitespace run)
    (hrest : Stops isBlank rest) : ReadsBack (.whitespace (String.ofList run)) rest := by
  cases run with
  | nil => exact absurd rfl hrun.1
  | cons c t =>
      refine ⟨c, t, String.toList_ofList, ?_⟩
      have h : Begins c (t ++ rest) (blanks (c :: t ++ rest)) := .blanks (hrun.2 c (by simp))
      rwa [blanks_append hrun hrest] at h

/-- Line comments are read back. -/
theorem readsBack_lineComment {run rest : List Char} (hrun : IsLineComment run)
    (hrest : Stops (!isLineEnd ·) rest) : ReadsBack (.comment (String.ofList run)) rest := by
  have htake := lineComment_append hrun hrest
  obtain ⟨body, rfl, -⟩ := hrun
  refine ⟨'/', '/' :: body, String.toList_ofList, ?_⟩
  rw [← htake]
  exact .lineComment (body ++ rest)

/-- Block comments are read back whatever follows them. -/
theorem readsBack_blockComment {run : List Char} (hrun : IsBlockComment run) (rest : List Char) :
    ReadsBack (.comment (String.ofList run)) rest := by
  obtain ⟨body, rfl, nested⟩ := hrun
  refine ⟨'/', '*' :: body, String.toList_ofList, ?_⟩
  exact .blockComment (blockComment_eq_ok_iff.2 ⟨body, rest, rfl, nested, rfl⟩)

/-- **The text of a valid kind is read as that kind** if the text behind it does not prolong it. -/
theorem readsBack_of_valid {k : Kind} {rest : List Char} (hk : k.Valid) (hend : k ≠ .endOfInput)
    (hstop : k.StopsBefore rest) : ReadsBack k rest := by
  have ofList (text : String) : ∃ run, text = String.ofList run :=
    ⟨text.toList, String.ofList_toList.symm⟩
  cases k with
  | identifier name =>
      obtain ⟨name, backticked⟩ := name
      cases backticked with
      | true => exact readsBack_backticked hk.1 rest
      | false => exact readsBack_of_word hk rfl hstop
  | keyword word => exact readsBack_of_word hk rfl hstop
  | literal value =>
      cases value with
      | integer text =>
          obtain ⟨run, rfl⟩ := ofList text
          have hrun : IsNumeral run := by simpa [Kind.Valid, Literal.Valid] using hk
          exact readsBack_integer hrun hstop.1 (hstop.2 rfl)
      | floating text =>
          obtain ⟨run, rfl⟩ := ofList text
          have hrun : IsFraction run := by simpa [Kind.Valid, Literal.Valid] using hk
          exact readsBack_floating hrun hstop.1
      | string value => exact readsBack_string value rest
      | boolean value => exact readsBack_of_word hk rfl hstop
      | nil => exact readsBack_of_word hk rfl hstop
  | operator text => exact readsBack_of_operatorRun hk rfl hstop
  | punctuator mark =>
      cases hmark : mark.isOperatorRun with
      | true =>
          have hrun : (Kind.punctuator mark).category = .operatorRun := by
            simp [Kind.category, hmark]
          simp only [Kind.StopsBefore, hrun] at hstop
          exact readsBack_of_operatorRun hk hrun hstop
      | false => exact readsBack_mark hmark rest
  | whitespace text =>
      obtain ⟨run, rfl⟩ := ofList text
      have hrun : IsWhitespace run := by simpa [Kind.Valid] using hk
      exact readsBack_whitespace hrun hstop
  | comment text =>
      obtain ⟨run, rfl⟩ := ofList text
      have hrun : IsLineComment run ∨ IsBlockComment run := by simpa [Kind.Valid] using hk
      rcases hrun with hrun | hrun
      · refine readsBack_lineComment hrun (hstop ?_)
        obtain ⟨body, rfl, -⟩ := hrun
        simp [Kind.isLineComment]
      · exact readsBack_blockComment hrun rest
  | endOfInput => exact absurd rfl hend

/-! ## What the first characters show -/

/-- The category of a token, read off its first character and the one behind it. -/
structure StartsLike (c : Char) (next : Option Char) (category : Category) : Prop where
  continuesWord : continuesWord c = true ↔ category = .word ∨ category = .number
  isNumberChar : isNumberChar c = true ↔ category = .number ∨ category = .word ∧ c = '_'
  isDigit : c.isDigit = true ↔ category = .number
  isBlank : isBlank c = true ↔ category = .whitespace
  isOperatorChar : isOperatorChar c = true ↔ category = .operatorRun ∨ category = .comment
  opensComment : opensComment c next = true ↔ category = .comment

/-- A special character is neither a digit nor an underscore. -/
theorem isNumberChar_eq_false_of_isSpecial {c : Char} (h : isSpecial c = true) :
    isNumberChar c = false := by
  have hcontinues := continuesWord_eq_false_of_isSpecial h
  rw [← Bool.not_eq_true]
  intro hc
  rw [isNumberChar, Bool.or_eq_true, beq_iff_eq] at hc
  rcases hc with hc | rfl
  · rw [continuesWord_of_isDigit hc] at hcontinues
    cases hcontinues
  · cases hcontinues

/-- What a special character shows, given which of the special classes it is in. -/
theorem startsLike_of_isSpecial {c : Char} {next : Option Char} {category : Category}
    (h : isSpecial c = true) (hword : category ≠ .word) (hnumber : category ≠ .number)
    (hblank : isBlank c = true ↔ category = .whitespace)
    (hop : isOperatorChar c = true ↔ category = .operatorRun ∨ category = .comment)
    (hopen : opensComment c next = true ↔ category = .comment) : StartsLike c next category := by
  have hnum := isNumberChar_eq_false_of_isSpecial h
  have hdigit : c.isDigit = false := by
    rw [isNumberChar, Bool.or_eq_false_iff] at hnum
    exact hnum.1
  exact ⟨by simp [continuesWord_eq_false_of_isSpecial h, hword, hnumber],
    by simp [hnum, hword, hnumber], by simp [hdigit, hnumber], hblank, hop, hopen⟩

/-- What a character that is not special shows. -/
theorem startsLike_of_not_isSpecial {c : Char} {next : Option Char} {category : Category}
    (h : continuesWord c = true) (hcategory : category = .word ∨ category = .number)
    (hdigit : c.isDigit = true ↔ category = .number) : StartsLike c next category := by
  have hspecial := isSpecial_eq_false_of_continuesWord h
  simp only [isSpecial, Bool.or_eq_false_iff] at hspecial
  obtain ⟨⟨⟨⟨hblank, hop⟩, -⟩, -⟩, -⟩ := hspecial
  have hopen : opensComment c next = false := by
    rw [← Bool.not_eq_true, opensComment_iff]
    rintro ⟨rfl, -⟩
    cases hop
  refine ⟨by simp [h, hcategory], ?_, hdigit, ?_, ?_, ?_⟩
  · rw [isNumberChar, Bool.or_eq_true, hdigit, beq_iff_eq]
    rcases hcategory with rfl | rfl <;> simp
  · rcases hcategory with rfl | rfl <;> simp [hblank]
  · rcases hcategory with rfl | rfl <;> simp [hop]
  · rcases hcategory with rfl | rfl <;> simp [hopen]

/-- **The first characters of a lexeme show its category.** -/
theorem Begins.startsLike {c : Char} {rest : List Char} {x : Lexeme} (h : Begins c rest x) :
    StartsLike c rest.head? x.kind.category := by
  cases h with
  | blanks hc =>
      show StartsLike c rest.head? .whitespace
      simp only [isBlank, Bool.or_eq_true, beq_iff_eq, or_assoc] at hc
      rcases hc with rfl | rfl | rfl | rfl
      all_goals
        exact startsLike_of_isSpecial (by decide) (by decide) (by decide) (by decide) (by decide)
          (by simp [opensComment])
  | lineComment rest =>
      show StartsLike '/' (some '/') .comment
      exact startsLike_of_isSpecial (by decide) (by decide) (by decide) (by decide) (by decide)
        (by decide)
  | blockComment hx =>
      obtain ⟨body, tail, -, -, rfl⟩ := blockComment_eq_ok_iff.1 hx
      show StartsLike '/' (some '*') .comment
      exact startsLike_of_isSpecial (by decide) (by decide) (by decide) (by decide) (by decide)
        (by decide)
  | string hx =>
      obtain ⟨value, hvalue⟩ := exists_of_string hx
      rw [hvalue]
      show StartsLike '"' rest.head? .string
      exact startsLike_of_isSpecial (by decide) (by decide) (by decide) (by decide) (by decide)
        (by simp [opensComment])
  | backtickedName hx =>
      obtain ⟨name, tail, -, -, rfl⟩ := backtickedName_eq_ok_iff.1 hx
      show StartsLike '\x60' _ .backticked
      exact startsLike_of_isSpecial (by decide) (by decide) (by decide) (by decide) (by decide)
        (by simp [opensComment])
  | number hc =>
      have hcategory : (Lexeme.number (c :: rest)).kind.category = .number := by
        obtain ⟨run, tail, -, -, ⟨-, -, hx⟩ | ⟨-, hx⟩⟩ := exists_of_number hc rest
        · rw [hx]; rfl
        · rw [hx]; rfl
      rw [hcategory]
      exact startsLike_of_not_isSpecial (continuesWord_of_isDigit hc) (.inr rfl) (by simp [hc])
  | mark hm =>
      unfold Punctuator.ofChar? at hm
      split at hm
      all_goals cases hm
      all_goals
        show StartsLike _ rest.head? .mark
        exact startsLike_of_isSpecial (by decide) (by decide) (by decide) (by decide) (by decide)
          (by simp [opensComment])
  | operator hc hopen =>
      obtain ⟨run, tail, -, hrun, -, hx⟩ := exists_of_operator hc hopen
      rw [hx, (Kind.valid_ofOperatorRun hrun).2]
      have hblank := isBlank_eq_false_of_isOperatorChar hc
      exact startsLike_of_isSpecial (by simp [isSpecial, hc]) (by decide) (by decide)
        (by simp [hblank]) (by simp [hc]) (by simp [hopen])
  | word hc =>
      obtain ⟨run, tail, -, hrun, -, hx⟩ := exists_of_word hc rest
      rw [hx, (Kind.valid_ofWord hrun).2]
      have hdigit := isDigit_eq_false_of_startsWord hc
      exact startsLike_of_not_isSpecial (continuesWord_of_startsWord hc) (.inl rfl)
        (by simp [hdigit])

/-- **A lexeme is rendered as it was spelled**, but for the tabs that a string may hold. -/
theorem Begins.text_eq {c : Char} {rest : List Char} {x : Lexeme} (h : Begins c rest x) :
    x.kind.text.toList = x.spelling ∨ c = '"' ∧ ∃ value, x.kind = .literal (.string value) := by
  cases h with
  | blanks hc => exact .inl String.toList_ofList
  | lineComment rest => exact .inl String.toList_ofList
  | blockComment hx =>
      obtain ⟨body, tail, -, -, rfl⟩ := blockComment_eq_ok_iff.1 hx
      exact .inl String.toList_ofList
  | string hx => exact .inr ⟨rfl, exists_of_string hx⟩
  | backtickedName hx =>
      obtain ⟨name, tail, -, -, rfl⟩ := backtickedName_eq_ok_iff.1 hx
      exact .inl (by simp [Kind.text, Identifier.text])
  | number hc =>
      obtain ⟨run, tail, -, -, ⟨-, -, hx⟩ | ⟨-, hx⟩⟩ := exists_of_number hc rest
      · rw [hx]; exact .inl String.toList_ofList
      · rw [hx]; exact .inl String.toList_ofList
  | mark hm => exact .inl (Punctuator.symbol_of_ofChar? hm)
  | operator hc hopen => exact .inl (Kind.text_ofOperatorRun _)
  | word hc => exact .inl (by simp [Lexeme.word, Kind.text_ofWord])

/-- The first character of a lexeme is the first of its rendering. -/
theorem Begins.head?_text {c : Char} {rest : List Char} {x : Lexeme} (h : Begins c rest x) :
    x.kind.text.toList.head? = some c := by
  rcases h.text_eq with htext | ⟨rfl, value, hvalue⟩
  · obtain ⟨tail, htail⟩ := spelling_prefix_of_first (first_eq_ok_iff.2 h)
    have hne := spelling_ne_nil_of_first (first_eq_ok_iff.2 h)
    rw [htext]
    cases hx : x.spelling with
    | nil => exact absurd hx hne
    | cons d spelling =>
        rw [hx] at htail
        cases htail
        rfl
  · simp [hvalue, Kind.text, Literal.text]

/-- No lexeme is the end of input. -/
theorem Begins.kind_ne_endOfInput {c : Char} {rest : List Char} {x : Lexeme}
    (h : Begins c rest x) : x.kind ≠ .endOfInput := by
  intro hend
  have hhead := h.head?_text
  rw [hend] at hhead
  cases hhead

end Lexeme

end ExprFront
