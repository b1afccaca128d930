/-
# Lines and columns of a whole source

`Location.after` says where reading a text leads, one character at a time.  `Location.ofOffset`
says where an offset of a source lies: its line is given by the line breaks that end up to there,
its column by the characters behind the last of them.  The main fact, `Location.ofOffset_append`,
is that both agree wherever a source is cut without parting a carriage return from its line feed.
-/
import ExprFront.Location

namespace ExprFront

/-! ## Line breaks and characters of a source -/

/-- The offsets at which the line breaks of a text end, if the text starts at `offset`.  A line
break is a line feed, or a carriage return that no line feed follows. -/
def lineEnds (offset : Nat) : List Char → List Nat
  | [] => []
  | c :: rest =>
      if c = '\n' ∨ c = '\r' ∧ rest.head? ≠ some '\n' then
        (offset + c.utf8Size) :: lineEnds (offset + c.utf8Size) rest
      else lineEnds (offset + c.utf8Size) rest

/-- The offsets at which the characters of a text start, if the text starts at `offset`. -/
def charStarts (offset : Nat) : List Char → List Nat
  | [] => []
  | c :: rest => offset :: charStarts (offset + c.utf8Size) rest

/-- The location of an offset in a source. -/
def Location.ofOffset (source : List Char) (offset : Nat) : Location :=
  let ends := (lineEnds 0 source).filter (· ≤ offset)
  let lineStart := ends.getLastD 0
  let before := (charStarts 0 source).filter fun s => lineStart ≤ s ∧ s < offset
  ⟨1 + ends.length, 1 + before.length⟩

/-- Each character has one start. -/
theorem length_charStarts (offset : Nat) (text : List Char) :
    (charStarts offset text).length = text.length := by
  induction text generalizing offset with
  | nil => rfl
  | cons c rest ih => rw [charStarts, List.length_cons, List.length_cons, ih]

/-- Line breaks end inside the text. -/
theorem bounds_of_mem_lineEnds {offset e : Nat} {text : List Char} (h : e ∈ lineEnds offset text) :
    offset < e ∧ e ≤ offset + utf8Length text := by
  induction text generalizing offset with
  | nil => cases h
  | cons c rest ih =>
      have hc := c.utf8Size_pos
      have hrest (h : e ∈ lineEnds (offset + c.utf8Size) rest) :
          offset < e ∧ e ≤ offset + utf8Length (c :: rest) := by
        have := ih h
        rw [utf8Length_cons]
        omega
      rw [lineEnds] at h
      split at h
      · rcases List.mem_cons.1 h with rfl | h
        · rw [utf8Length_cons]
          omega
        · exact hrest h
      · exact hrest h

/-- Characters start inside the text. -/
theorem bounds_of_mem_charStarts {offset s : Nat} {text : List Char}
    (h : s ∈ charStarts offset text) : offset ≤ s ∧ s < offset + utf8Length text := by
  induction text generalizing offset with
  | nil => cases h
  | cons c rest ih =>
      have hc := c.utf8Size_pos
      rw [utf8Length_cons]
      rcases List.mem_cons.1 h with rfl | h
      · omega
      · have := ih h
        omega

/-! ## Seams -/

/-- Cutting between the texts parts no carriage return from the line feed behind it. -/
def IsSeam (u v : List Char) : Prop := u.getLast? = some '\r' → v.head? ≠ some '\n'

/-- A cut stays a seam if characters are taken off the front. -/
theorem IsSeam.tail {c d : Char} {u v : List Char} (h : IsSeam (c :: d :: u) v) :
    IsSeam (d :: u) v := by
  intro hlast
  exact h (by rwa [List.getLast?_cons_cons])

/-- At a seam the character behind it does not matter to the line break before it. -/
theorem IsSeam.endsLine_iff {c : Char} {v : List Char} (h : IsSeam [c] v) :
    (c = '\n' ∨ c = '\r' ∧ v.head? ≠ some '\n') ↔ c = '\n' ∨ c = '\r' := by
  refine or_congr_right (and_iff_left_of_imp fun hc => h ?_)
  rw [hc]
  rfl

/-- What is read in two parts at a seam leads to the same location. -/
theorem Location.after_append {u v : List Char} (h : IsSeam u v) (l : Location) :
    l.after (u ++ v) = (l.after u).after v := by
  induction u generalizing l with
  | nil => rfl
  | cons c u ih =>
      cases u with
      | nil =>
          have hbreak : breaksLine c v.head? = breaksLine c none := by
            rw [Bool.eq_iff_iff]
            simpa [breaksLine] using h.endsLine_iff
          rw [List.singleton_append, after_cons, step, hbreak]
          rfl
      | cons d u => exact ih h.tail (l.step c (some d))

/-- The line breaks of a text in two parts are those of the parts. -/
theorem lineEnds_append {u v : List Char} (h : IsSeam u v) (offset : Nat) :
    lineEnds offset (u ++ v) = lineEnds offset u ++ lineEnds (offset + utf8Length u) v := by
  induction u generalizing offset with
  | nil => rfl
  | cons c u ih =>
      have hrest : lineEnds (offset + c.utf8Size) (u ++ v) =
          lineEnds (offset + c.utf8Size) u ++ lineEnds (offset + utf8Length (c :: u)) v := by
        cases u with
        | nil => simp [lineEnds]
        | cons d u => rw [ih h.tail, utf8Length_cons c, ← Nat.add_assoc]
      have hbreak : (c = '\n' ∨ c = '\r' ∧ (u ++ v).head? ≠ some '\n') ↔
          c = '\n' ∨ c = '\r' ∧ u.head? ≠ some '\n' := by
        cases u with
        | nil => simpa using h.endsLine_iff
        | cons d u => rfl
      simp only [List.cons_append, lineEnds, hrest, hbreak]
      split <;> rfl

/-- The characters of a text in two parts are those of the parts. -/
theorem charStarts_append (u v : List Char) (offset : Nat) :
    charStarts offset (u ++ v) = charStarts offset u ++ charStarts (offset + utf8Length u) v := by
  induction u generalizing offset with
  | nil => rfl
  | cons c u ih =>
      rw [List.cons_append, charStarts, charStarts, ih, utf8Length_cons, Nat.add_assoc,
        List.cons_append]

/-! ## Reading and looking up -/

/-- Where reading leads, from the line breaks that are passed: they count the lines, and the
characters behind the last of them count the column. -/
theorem Location.after_eq (l : Location) (offset : Nat) (text : List Char) :
    l.after text = ⟨l.line + (lineEnds offset text).length,
      match (lineEnds offset text).getLast? with
      | none => l.column + text.length
      | some e => 1 + ((charStarts offset text).filter (e ≤ ·)).length⟩ := by
  induction text generalizing l offset with
  | nil => rfl
  | cons c rest ih =>
      have hc := c.utf8Size_pos
      have hbreak : breaksLine c rest.head? = true ↔
          c = '\n' ∨ c = '\r' ∧ rest.head? ≠ some '\n' := by
        simp [breaksLine]
      -- The character itself starts before every line break that ends behind it.
      have hfilter {e : Nat} (he : offset < e) :
          (charStarts offset (c :: rest)).filter (e ≤ ·) =
            (charStarts (offset + c.utf8Size) rest).filter (e ≤ ·) := by
        rw [charStarts, List.filter_cons_of_neg (by simpa using he)]
      have hlater {e : Nat} (he : (lineEnds (offset + c.utf8Size) rest).getLast? = some e) :
          offset < e := by
        have := bounds_of_mem_lineEnds (List.mem_of_getLast? he)
        omega
      rw [after_cons, ih (l.step c rest.head?) (offset + c.utf8Size), step, lineEnds]
      split
      · next h =>
          rw [if_pos (hbreak.1 h), List.length_cons, List.getLast?_cons]
          cases hlast : (lineEnds (offset + c.utf8Size) rest).getLast? with
          | none =>
              have hall : (charStarts (offset + c.utf8Size) rest).filter
                  (offset + c.utf8Size ≤ ·) = charStarts (offset + c.utf8Size) rest :=
                List.filter_eq_self.2 fun s hs => by
                  simpa using (bounds_of_mem_charStarts hs).1
              have hlt : offset < offset + c.utf8Size := by omega
              simp [hfilter hlt, hall, length_charStarts]
              omega
          | some e =>
              simp [hfilter (hlater hlast)]
              omega
      · next h =>
          rw [if_neg (mt hbreak.2 h)]
          cases hlast : (lineEnds (offset + c.utf8Size) rest).getLast? with
          | none =>
              simp
              omega
          | some e => simp [hfilter (hlater hlast)]

/-- **Reading up to a seam leads to the location of the offset there.** -/
theorem Location.ofOffset_append {u v : List Char} (h : IsSeam u v) :
    ofOffset (u ++ v) (utf8Length u) = start.after u := by
  have hends : (lineEnds 0 (u ++ v)).filter (· ≤ utf8Length u) = lineEnds 0 u := by
    have hbefore : (lineEnds 0 u).filter (· ≤ utf8Length u) = lineEnds 0 u :=
      List.filter_eq_self.2 fun e he => by
        have := bounds_of_mem_lineEnds he
        simp only [decide_eq_true_eq]
        omega
    have hbehind : (lineEnds (0 + utf8Length u) v).filter (· ≤ utf8Length u) = [] :=
      List.filter_eq_nil_iff.2 fun e he => by
        have := bounds_of_mem_lineEnds he
        simp only [decide_eq_true_eq]
        omega
    rw [lineEnds_append h, List.filter_append, hbefore, hbehind, List.append_nil]
  have hstarts (lineStart : Nat) :
      (charStarts 0 (u ++ v)).filter (fun s => lineStart ≤ s ∧ s < utf8Length u) =
        (charStarts 0 u).filter (lineStart ≤ ·) := by
    have hbefore : (charStarts 0 u).filter (fun s => lineStart ≤ s ∧ s < utf8Length u) =
        (charStarts 0 u).filter (lineStart ≤ ·) :=
      List.filter_congr fun s hs => by
        have := bounds_of_mem_charStarts hs
        simp only [decide_eq_decide]
        omega
    have hbehind : (charStarts (0 + utf8Length u) v).filter
        (fun s => lineStart ≤ s ∧ s < utf8Length u) = [] :=
      List.filter_eq_nil_iff.2 fun s hs => by
        have := bounds_of_mem_charStarts hs
        simp only [decide_eq_true_eq]
        omega
    rw [charStarts_append, List.filter_append, hbefore, hbehind, List.append_nil]
  rw [ofOffset, hends, after_eq start 0 u]
  simp only [hstarts, start, List.getLastD_eq_getLast?]
  cases lineEnds 0 u |>.getLast? with
  | none =>
      have hall : (charStarts 0 u).filter (0 ≤ ·) = charStarts 0 u :=
        List.filter_eq_self.2 fun s hs => by simp
      simp only [Option.getD_none, hall, length_charStarts]
  | some e => rfl

end ExprFront
