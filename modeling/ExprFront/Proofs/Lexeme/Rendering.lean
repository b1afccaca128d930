/-
# How a lexeme is rendered

A lexeme is rendered as it is spelled.  The one exception is a raw tab in a string: the value of the
string is written anew, and then the tab is written as an escape.  Reading a body and writing its
value changes nothing else, which is `Quoted.encode_value_of_read`.

The main facts are `Lexeme.Begins.text_eq_rendering` and `Lexeme.Begins.after_text`: the rendering
is the spelling with those tabs escaped, and it ends where the spelling does but for the columns
that they add.
-/
import ExprFront.Proofs.Lexeme.Reading
import ExprFront.Proofs.Lexeme.Refusal

namespace ExprFront

open Spelling

/-! ## Raw tabs -/

/-- The text with an escape in place of each tab. -/
def Spelling.escapeTabs (text : List Char) : List Char :=
  text.flatMap fun c => if c = '\t' then ['\\', 't'] else [c]

namespace Spelling

@[simp]
theorem escapeTabs_nil : escapeTabs [] = [] := rfl

/-- A tab is written as an escape. -/
@[simp]
theorem escapeTabs_tab_cons (text : List Char) :
    escapeTabs ('\t' :: text) = '\\' :: 't' :: escapeTabs text := rfl

/-- Every other character is left as it is. -/
theorem escapeTabs_cons_of_ne {c : Char} (h : c ≠ '\t') (text : List Char) :
    escapeTabs (c :: text) = c :: escapeTabs text := by
  rw [escapeTabs, List.flatMap_cons, if_neg h]
  rfl

/-- Texts one behind the other are escaped one behind the other. -/
theorem escapeTabs_append (u v : List Char) :
    escapeTabs (u ++ v) = escapeTabs u ++ escapeTabs v :=
  List.flatMap_append

/-- Each tab makes the text longer by one character. -/
theorem length_escapeTabs (text : List Char) :
    (escapeTabs text).length = text.length + text.count '\t' := by
  induction text with
  | nil => rfl
  | cons c text ih =>
      by_cases hc : c = '\t'
      · subst hc
        rw [escapeTabs_tab_cons, List.count_cons_self]
        simp only [List.length_cons, ih]
        omega
      · rw [escapeTabs_cons_of_ne hc, List.count_cons_of_ne hc]
        simp only [List.length_cons, ih]
        omega

/-- Only a text without tabs is left as it is. -/
theorem escapeTabs_eq_self_iff {text : List Char} : escapeTabs text = text ↔ '\t' ∉ text := by
  rw [← List.count_eq_zero]
  constructor
  · intro h
    have hlength := length_escapeTabs text
    rw [h] at hlength
    omega
  · intro h
    induction text with
    | nil => rfl
    | cons c text ih =>
        have hc : c ≠ '\t' := by
          rintro rfl
          simp at h
        rw [List.count_cons_of_ne hc] at h
        rw [escapeTabs_cons_of_ne hc, ih h]

/-- Escaping tabs brings no line break. -/
theorem isLineEnd_eq_false_of_mem_escapeTabs {text : List Char}
    (h : ∀ c ∈ text, isLineEnd c = false) : ∀ c ∈ escapeTabs text, isLineEnd c = false := by
  intro c hc
  obtain ⟨d, hd, hc⟩ := List.mem_flatMap.1 hc
  by_cases htab : d = '\t'
  · rw [if_pos htab] at hc
    rcases List.mem_pair.1 hc with rfl | rfl
    · decide
    · decide
  · rw [if_neg htab, List.mem_singleton] at hc
    exact hc ▸ h d hd

/-- No line ends between the quotes of a string. -/
theorem IsQuotedRun.isLineEnd_eq_false {run : List Char} (h : IsQuotedRun run) :
    ∀ c ∈ run, isLineEnd c = false := by
  induction h with
  | nil => exact nofun
  | @plain c rest hc tail ih =>
      refine List.forall_mem_cons.2 ⟨?_, ih⟩
      simp only [List.mem_cons, List.not_mem_nil, or_false, not_or] at hc
      simp [isLineEnd, hc]
  | @escape c rest hc tail ih =>
      refine List.forall_mem_cons.2 ⟨by decide, List.forall_mem_cons.2 ⟨?_, ih⟩⟩
      simp only [Quoted.letters, List.mem_cons, List.not_mem_nil, or_false] at hc
      rcases hc with rfl | rfl | rfl | rfl | rfl
      all_goals decide

end Spelling

/-! ## Strings that are read and written -/

namespace Quoted

/-- A character that stands for itself is written as it is, but for the tab. -/
theorem encodeChar_of_plain {c : Char} (h : c ∉ ['"', '\\', '\n', '\r']) :
    encodeChar c = escapeTabs [c] := by
  simp only [List.mem_cons, List.not_mem_nil, or_false, not_or] at h
  obtain ⟨hquote, hslash, hfeed, hreturn⟩ := h
  by_cases htab : c = '\t'
  · subst htab
    rfl
  · simp [encodeChar, letter?, escapeTabs, htab]

/-- What an escape stands for is written as that escape. -/
theorem encodeChar_of_value? {v l : Char} (h : value? l = some v) : encodeChar v = ['\\', l] := by
  rw [encodeChar, letter?_eq_some_iff.2 h]

/-- A body with one more piece in front of it comes from the body without it. -/
theorem exists_of_extend_eq_ok {v : Char} {piece : List Char} {r : Except Fault Body} {b : Body}
    (h : extend v piece r = .ok b) : ∃ b', r = .ok b' ∧ b = b'.cons v piece := by
  cases r with
  | ok b' =>
      cases h
      exact ⟨b', rfl, rfl⟩
  | error f => cases h

/-- **Reading a body and writing its value changes raw tabs only.** -/
theorem encode_value_of_read {s : List Char} {b : Body} (h : read s = .ok b) :
    IsQuotedRun b.spelling ∧ encode b.value = escapeTabs b.spelling := by
  fun_induction read s generalizing b with
  | case1 | case2 | case4 | case6 => cases h
  | case3 l rest v hv ih =>
      obtain ⟨b, hb, rfl⟩ := exists_of_extend_eq_ok h
      obtain ⟨hrun, hvalue⟩ := ih hb
      have hl : l ≠ '\t' := by
        rintro rfl
        cases hv
      refine ⟨.escape ((exists_value?_iff l).1 ⟨v, hv⟩) hrun, ?_⟩
      show encode (v :: b.value) = escapeTabs ('\\' :: l :: b.spelling)
      rw [encode_cons, encodeChar_of_value? hv, hvalue, escapeTabs_cons_of_ne (by decide),
        escapeTabs_cons_of_ne hl]
      rfl
  | case5 rest =>
      cases h
      exact ⟨.nil, rfl⟩
  | case7 c rest hslash hescape hquote hend ih =>
      obtain ⟨b, hb, rfl⟩ := exists_of_extend_eq_ok h
      obtain ⟨hrun, hvalue⟩ := ih hb
      -- A backslash would have been read with what stands behind it.
      have hbackslash : c ≠ '\\' := by
        rintro rfl
        cases rest with
        | nil => exact hslash rfl rfl
        | cons d rest => exact hescape d rest rfl rfl
      have hc : c ∉ ['"', '\\', '\n', '\r'] := by
        simp only [List.mem_cons, List.not_mem_nil, or_false, not_or]
        exact ⟨hquote, hbackslash, not_or.1 hend⟩
      refine ⟨.plain hc hrun, ?_⟩
      show encode (c :: b.value) = escapeTabs ([c] ++ b.spelling)
      rw [encode_cons, encodeChar_of_plain hc, hvalue, escapeTabs_append]

end Quoted

/-! ## Lexemes -/

/-- Whether the kind is a string. -/
def Kind.isString : Kind → Bool
  | .literal (.string _) => true
  | _ => false

/-- How a token of the kind is rendered if the source spells it that way. -/
def Kind.rendering (k : Kind) (spelling : List Char) : List Char :=
  if k.isString then escapeTabs spelling else spelling

/-- A string is a string literal. -/
theorem Kind.isString_iff {k : Kind} :
    k.isString = true ↔ ∃ value, k = .literal (.string value) := by
  unfold isString
  split
  · simp
  · next h => simpa using h

/-- A spelling is rendered as it is unless it has raw tabs in a string. -/
theorem Kind.rendering_eq_self_iff {k : Kind} {spelling : List Char} :
    k.rendering spelling = spelling ↔ (k.isString = true → '\t' ∉ spelling) := by
  unfold rendering
  split
  · next h => simp [h, escapeTabs_eq_self_iff]
  · next h => simp [h]

/-- How many raw tabs the spelling of a string has.  Elsewhere a tab is no raw one. -/
def Kind.rawTabs (k : Kind) (spelling : List Char) : Nat :=
  if k.isString then spelling.count '\t' else 0

/-- A rendering is not shorter than the spelling. -/
theorem Kind.length_le_length_rendering (k : Kind) (spelling : List Char) :
    spelling.length ≤ (k.rendering spelling).length := by
  unfold rendering
  split
  · rw [length_escapeTabs]
    omega
  · exact Nat.le_refl _

namespace Lexeme

/-- What is read as a string begins with a quote. -/
theorem Begins.eq_string {c : Char} {rest : List Char} {x : Lexeme} (h : Begins c rest x)
    (hstring : x.kind.isString = true) : c = '"' ∧ Lexeme.string rest = .ok x := by
  obtain ⟨value, hvalue⟩ := Kind.isString_iff.1 hstring
  have hhead := h.head?_text
  rw [hvalue] at hhead
  obtain rfl : '"' = c := by simpa [Kind.text, Literal.text] using hhead
  cases h with
  | string hx => exact ⟨rfl, hx⟩
  | blanks hc => cases hc
  | number hc => cases hc
  | mark hm => cases hm
  | operator hc => cases hc
  | word hc => cases hc

/-- A string is spelled on one line, and written as it is spelled but for raw tabs. -/
theorem text_of_string {rest : List Char} {x : Lexeme} (h : Lexeme.string rest = .ok x) :
    (∀ c ∈ x.spelling, isLineEnd c = false) ∧ x.kind.text.toList = escapeTabs x.spelling := by
  unfold Lexeme.string at h
  split at h
  · next b hb =>
      cases h
      obtain ⟨hrun, hvalue⟩ := Quoted.encode_value_of_read hb
      constructor
      · intro c hc
        rw [List.mem_append, List.mem_cons, List.mem_singleton] at hc
        rcases hc with (rfl | hc) | rfl
        · decide
        · exact hrun.isLineEnd_eq_false c hc
        · decide
      · simp [Kind.text, Literal.text, hvalue, escapeTabs_append, escapeTabs_cons_of_ne]
  all_goals cases h

/-- **A lexeme is rendered as it is spelled**, but for the raw tabs of a string. -/
theorem Begins.text_eq_rendering {c : Char} {rest : List Char} {x : Lexeme} (h : Begins c rest x) :
    x.kind.text.toList = x.kind.rendering x.spelling := by
  unfold Kind.rendering
  split
  · next hstring => exact (text_of_string (h.eq_string hstring).2).2
  · next hstring =>
      rcases h.text_eq with htext | ⟨-, hvalue⟩
      · exact htext
      · exact absurd (Kind.isString_iff.2 hvalue) hstring

end Lexeme

/-! ## Where renderings end -/

namespace Location

/-- The location so many columns further on the line. -/
def right (l : Location) (n : Nat) : Location := ⟨l.line, l.column + n⟩

/-- Moving right twice is moving by the sum. -/
theorem right_right (l : Location) (m n : Nat) : (l.right m).right n = l.right (m + n) := by
  rw [right, right, right, Nat.add_assoc]

/-- What holds no line break leads to the right. -/
theorem after_of_isLineEnd_eq_false {text : List Char} (h : ∀ c ∈ text, isLineEnd c = false)
    (l : Location) : l.after text = l.right text.length := by
  induction text generalizing l with
  | nil => rfl
  | cons c text ih =>
      obtain ⟨hc, htext⟩ := List.forall_mem_cons.1 h
      have hbreak : breaksLine c text.head? = false := by
        simp only [isLineEnd, Bool.or_eq_false_iff] at hc
        simp [breaksLine, hc]
      have hstep : l.step c text.head? = l.right 1 := by
        rw [step, hbreak]
        rfl
      rw [after_cons, hstep, ih htext, right_right, List.length_cons, Nat.add_comm]

end Location

/-- **A rendering ends where its spelling does**, but for the columns that raw tabs add. -/
theorem Lexeme.Begins.after_text {c : Char} {rest : List Char} {x : Lexeme} (h : Begins c rest x)
    (l : Location) :
    l.after x.kind.text.toList = (l.after x.spelling).right (x.kind.rawTabs x.spelling) := by
  rw [h.text_eq_rendering, Kind.rendering, Kind.rawTabs]
  split
  · next hstring =>
      obtain ⟨hline, -⟩ := text_of_string (h.eq_string hstring).2
      rw [Location.after_of_isLineEnd_eq_false (isLineEnd_eq_false_of_mem_escapeTabs hline),
        Location.after_of_isLineEnd_eq_false hline, Location.right_right, length_escapeTabs]
  · rfl

end ExprFront
