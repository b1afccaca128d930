/-
# The longest spelling

What each loop of the scanner takes from the front of a text.  A loop is given a spelling of its
shape and the text behind it; if that text cannot prolong the spelling, the loop takes the spelling
and nothing else.  Conversely what a loop takes has the loop's shape, and the text behind it does
not prolong it.
-/
import Mathlib.Data.List.TakeWhile
import ExprFront.Proofs.Lexeme.Spelling

namespace ExprFront

/-! ## Where a run of one class ends -/

/-- The text does not begin with a character of the class. -/
def Stops (p : Char → Bool) (rest : List Char) : Prop := ∀ c ∈ rest.head?, p c = false

theorem stops_nil (p : Char → Bool) : Stops p [] := by
  intro c hc
  cases hc

@[simp]
theorem stops_cons {p : Char → Bool} {c : Char} {rest : List Char} :
    Stops p (c :: rest) ↔ p c = false := by
  simp [Stops]

/-- What is left behind a run does not go on with it. -/
theorem stops_dropWhile (p : Char → Bool) (s : List Char) : Stops p (s.dropWhile p) := by
  intro c hc
  have h := List.head?_dropWhile_not p s
  rw [Option.mem_def] at hc
  simpa [hc] using h

/-- A run that is not prolonged is what the class takes. -/
theorem takeWhile_append_of_stops {p : Char → Bool} {run rest : List Char}
    (hrun : ∀ c ∈ run, p c = true) (hrest : Stops p rest) : (run ++ rest).takeWhile p = run := by
  rw [List.takeWhile_append_of_pos hrun]
  cases rest with
  | nil => simp
  | cons c rest => simp [stops_cons.1 hrest]

/-- Behind a run that is not prolonged the class leaves the rest. -/
theorem dropWhile_append_of_stops {p : Char → Bool} {run rest : List Char}
    (hrun : ∀ c ∈ run, p c = true) (hrest : Stops p rest) : (run ++ rest).dropWhile p = rest := by
  rw [List.dropWhile_append_of_pos hrun]
  cases rest with
  | nil => simp
  | cons c rest => simp [stops_cons.1 hrest]

namespace Lexeme

open Spelling

/-! ## Whitespace and line comments -/

/-- All of the whitespace is taken. -/
theorem blanks_append {run rest : List Char} (hrun : IsWhitespace run)
    (hrest : Stops isBlank rest) :
    blanks (run ++ rest) = ⟨.whitespace (String.ofList run), run⟩ := by
  rw [blanks, takeWhile_append_of_stops hrun.2 hrest]

/-- What whitespace takes is whitespace, and none follows it. -/
theorem exists_of_blanks {c : Char} (hc : isBlank c = true) (rest : List Char) :
    ∃ run tail, c :: rest = run ++ tail ∧ IsWhitespace run ∧ Stops isBlank tail ∧
      blanks (c :: rest) = ⟨.whitespace (String.ofList run), run⟩ :=
  ⟨(c :: rest).takeWhile isBlank, (c :: rest).dropWhile isBlank,
    List.takeWhile_append_dropWhile.symm,
    ⟨by simp [hc], fun _ hd => List.mem_takeWhile_imp hd⟩, stops_dropWhile _ _, rfl⟩

/-- All of the line is taken. -/
theorem lineComment_append {run rest : List Char} (hrun : IsLineComment run)
    (hrest : Stops (!isLineEnd ·) rest) :
    lineComment (run ++ rest) = ⟨.comment (String.ofList run), run⟩ := by
  have hall : ∀ c ∈ run, (!isLineEnd c) = true := by
    obtain ⟨body, rfl, hbody⟩ := hrun
    intro c hc
    simp only [List.mem_cons] at hc
    rcases hc with rfl | rfl | hc
    · decide
    · decide
    · simp [hbody c hc]
  rw [lineComment, takeWhile_append_of_stops hall hrest]

/-- What a line comment takes is one, and its line ends there. -/
theorem exists_of_lineComment (rest : List Char) :
    ∃ run tail, '/' :: '/' :: rest = run ++ tail ∧ IsLineComment run ∧
      Stops (!isLineEnd ·) tail ∧
      lineComment ('/' :: '/' :: rest) = ⟨.comment (String.ofList run), run⟩ := by
  have hbody : ∀ c ∈ rest.takeWhile (!isLineEnd ·), isLineEnd c = false := by
    intro c hc
    simpa using List.mem_takeWhile_imp hc
  refine ⟨'/' :: '/' :: rest.takeWhile (!isLineEnd ·), rest.dropWhile (!isLineEnd ·), ?_,
    ⟨_, rfl, hbody⟩, stops_dropWhile _ _, ?_⟩
  · simp
  · simp [lineComment, isLineEnd]

/-! ## Block comments -/

/-- The length of a block comment where the innermost open one has just closed: `depth` more of them
are open, and `taken` characters lie behind. -/
def blockLengthBehind (depth taken : Nat) (s : List Char) : Option Nat :=
  match depth with
  | 0 => some taken
  | outer + 1 => blockLength outer taken s

/-- Where a block comment begins, one more is open. -/
theorem blockLength_open (depth taken : Nat) (s : List Char) :
    blockLength depth taken ('/' :: '*' :: s) = blockLength (depth + 1) (taken + 2) s := by
  rw [blockLength]

/-- Where a block comment ends, one fewer is open. -/
theorem blockLength_close (depth taken : Nat) (s : List Char) :
    blockLength depth taken ('*' :: '/' :: s) = blockLengthBehind depth (taken + 2) s := by
  cases depth <;> simp [blockLength, blockLengthBehind]

/-- Where no comment begins or ends, one character is passed. -/
theorem blockLength_char {c : Char} {s : List Char} (h : atDelimiter (c :: s) = false)
    (depth taken : Nat) :
    blockLength depth taken (c :: s) = blockLength depth (taken + 1) s := by
  rw [blockLength]
  · rintro tail rfl rfl
    simp [atDelimiter] at h
  · rintro tail rfl rfl
    simp [atDelimiter] at h

/-- A text with a character more behind it begins and ends comments at the same places. -/
theorem atDelimiter_append {c : Char} {s : List Char} (h : s ≠ []) (rest : List Char) :
    atDelimiter (c :: (s ++ rest)) = atDelimiter (c :: s) := by
  cases s with
  | nil => exact absurd rfl h
  | cons d s =>
      unfold atDelimiter
      split <;> simp_all

/-- **A properly nested text closes one comment.** -/
theorem blockLength_append {body : List Char} (h : Nested body) (depth taken : Nat)
    (rest : List Char) :
    blockLength depth taken (body ++ rest) =
      blockLengthBehind depth (taken + body.length) rest := by
  induction h generalizing depth taken rest with
  | close => exact blockLength_close depth taken rest
  | @char c s h tail ih =>
      have hchar : atDelimiter (c :: (s ++ rest)) = false := by
        rw [atDelimiter_append tail.ne_nil, h]
      rw [List.cons_append, blockLength_char hchar, ih, List.length_cons, Nat.add_right_comm,
        Nat.add_assoc]
  | @inner body s nested tail ihbody ihtail =>
      rw [List.cons_append, List.cons_append, blockLength_open, List.append_assoc, ihbody,
        blockLengthBehind, ihtail]
      congr 1
      simp only [List.length_cons, List.length_append]
      omega

/-- The text closes that many comments, one after the other. -/
inductive ClosesAll : Nat → List Char → Prop
  | nil : ClosesAll 0 []
  | cons {n : Nat} {body rest : List Char} (nested : Nested body) (tail : ClosesAll n rest) :
      ClosesAll (n + 1) (body ++ rest)

/-- There is text up to where the first open comment closes. -/
theorem ClosesAll.ne_nil {n : Nat} {s : List Char} (h : ClosesAll (n + 1) s) : s ≠ [] := by
  cases h with
  | cons nested tail => simp [nested.ne_nil]

/-- A character inside the first open comment. -/
theorem ClosesAll.char {n : Nat} {c : Char} {s : List Char} (h : ClosesAll (n + 1) s)
    (hc : atDelimiter (c :: s) = false) : ClosesAll (n + 1) (c :: s) := by
  cases h with
  | cons nested tail =>
      rw [atDelimiter_append nested.ne_nil] at hc
      exact .cons (.char hc nested) tail

/-- A comment that begins inside the first open one. -/
theorem ClosesAll.inner {n : Nat} {s : List Char} (h : ClosesAll (n + 2) s) :
    ClosesAll (n + 1) ('/' :: '*' :: s) := by
  cases h with
  | @cons _ body rest nested tail =>
      cases tail with
      | @cons _ body' rest' nested' tail' =>
          rw [← List.append_assoc]
          exact .cons (.inner nested nested') tail'

/-- What a block comment takes closes every comment that is open. -/
theorem closesAll_of_blockLength {depth taken n : Nat} {s : List Char}
    (h : blockLength depth taken s = some n) :
    ∃ run rest, s = run ++ rest ∧ n = taken + run.length ∧ ClosesAll (depth + 1) run := by
  -- Each case is one step of the scan: the end of the text, an opening, the last closing, another
  -- closing, and a character that does neither.
  fun_induction blockLength depth taken s with
  | case1 => cases h
  | case2 depth taken s ih =>
      obtain ⟨run, rest, rfl, rfl, hrun⟩ := ih h
      exact ⟨_, rest, rfl, by simp only [List.length_cons]; omega, hrun.inner⟩
  | case3 taken s =>
      cases h
      exact ⟨['*', '/'], s, rfl, rfl, .cons .close .nil⟩
  | case4 taken s outer ih =>
      obtain ⟨run, rest, rfl, rfl, hrun⟩ := ih h
      exact ⟨['*', '/'] ++ run, rest, rfl, by simp; omega, .cons .close hrun⟩
  | case5 depth taken c s hopen hclose ih =>
      obtain ⟨run, rest, rfl, rfl, hrun⟩ := ih h
      have hc : atDelimiter (c :: run) = false := by
        rw [← atDelimiter_append hrun.ne_nil rest]
        unfold atDelimiter
        split <;> simp_all
      exact ⟨c :: run, rest, rfl, by simp only [List.length_cons]; omega, hrun.char hc⟩

/-- **A block comment is taken exactly up to where it closes.** -/
theorem blockComment_eq_ok_iff {s : List Char} {x : Lexeme} :
    blockComment ('/' :: '*' :: s) = .ok x ↔
      ∃ body rest, s = body ++ rest ∧ Nested body ∧
        x = ⟨.comment (String.ofList ('/' :: '*' :: body)), '/' :: '*' :: body⟩ := by
  have htake (body rest : List Char) :
      List.take (2 + body.length) ('/' :: '*' :: (body ++ rest)) = '/' :: '*' :: body := by
    rw [Nat.add_comm]
    simp
  unfold blockComment
  constructor
  · intro h
    split at h
    · next n hn =>
        obtain ⟨run, rest, hs, rfl, hrun⟩ := closesAll_of_blockLength hn
        cases hrun with
        | @cons _ body tail nested none =>
            cases none
            simp only [List.drop_succ_cons, List.drop_zero, List.append_nil] at hs
            subst hs
            rw [List.append_nil, htake] at h
            cases h
            exact ⟨body, rest, rfl, nested, rfl⟩
    · cases h
  · rintro ⟨body, rest, rfl, nested, rfl⟩
    simp only [List.drop_succ_cons, List.drop_zero, blockLength_append nested, blockLengthBehind,
      htake]

/-! ## Strings and names between backticks -/

/-- A character that needs no escape is none of those that end a body or begin an escape. -/
theorem ne_of_letter?_eq_none {c : Char} (h : Quoted.letter? c = none) :
    c ≠ '"' ∧ c ≠ '\\' ∧ c ≠ '\n' ∧ c ≠ '\r' := by
  refine ⟨?_, ?_, ?_, ?_⟩ <;> rintro rfl <;> simp [Quoted.letter?] at h

/-- **What is written is read back.** -/
theorem read_encode_append (value rest : List Char) :
    Quoted.read (Quoted.encode value ++ '"' :: rest) = .ok ⟨value, Quoted.encode value⟩ := by
  induction value with
  | nil => simp [Quoted.read]
  | cons v value ih =>
      rw [Quoted.encode_cons, Quoted.encodeChar]
      cases hl : Quoted.letter? v with
      | some l =>
          have hv := Quoted.letter?_eq_some_iff.1 hl
          simp [Quoted.read, hv, ih, Quoted.extend, Quoted.Body.cons]
      | none =>
          obtain ⟨hquote, hslash, hfeed, hreturn⟩ := ne_of_letter?_eq_none hl
          simp [Quoted.read, hquote, hslash, hfeed, hreturn, ih, Quoted.extend, Quoted.Body.cons]

/-- A written string is taken up to its closing quote. -/
theorem string_append (value rest : List Char) :
    string (Quoted.encode value ++ '"' :: rest) =
      .ok ⟨.literal (.string (String.ofList value)), '"' :: Quoted.encode value ++ ['"']⟩ := by
  rw [string, read_encode_append]

/-- What a string takes is a string literal. -/
theorem exists_of_string {rest : List Char} {x : Lexeme} (h : string rest = .ok x) :
    ∃ value, x.kind = .literal (.string value) := by
  unfold string at h
  split at h
  · cases h
    exact ⟨_, rfl⟩
  all_goals cases h

/-- **A name between backticks is taken exactly if it is a word and the backtick closes it.** -/
theorem backtickedName_eq_ok_iff {s : List Char} {x : Lexeme} :
    backtickedName s = .ok x ↔
      ∃ name rest, s = name ++ '\x60' :: rest ∧ IsWord name ∧
        x = ⟨.identifier ⟨String.ofList name, true⟩, '\x60' :: name ++ ['\x60']⟩ := by
  constructor
  · intro h
    have hs := List.takeWhile_append_dropWhile (p := continuesWord) (l := s)
    unfold backtickedName at h
    split at h
    · cases h
    · next c hc =>
        split at h
        · next rest hd =>
            cases h
            rw [hd] at hs
            refine ⟨_, rest, hs.symm, ?_, rfl⟩
            cases s with
            | nil => simp at hc
            | cons d s =>
                have hd : startsWord d = true := by
                  obtain ⟨hcd, hword⟩ := Option.filter_eq_some_iff.1 hc
                  cases hcd
                  exact hword
                rw [List.takeWhile_cons_of_pos (continuesWord_of_startsWord hd)]
                exact ⟨hd, fun _ he => List.mem_takeWhile_imp he⟩
        · cases h
  · rintro ⟨name, rest, rfl, hname, rfl⟩
    have hstop : Stops continuesWord ('\x60' :: rest) := stops_cons.2 (by decide)
    -- The scanner looks at the first character before it takes the run; a word has one.
    have hhead : (name ++ '\x60' :: rest).head?.filter startsWord = name.head? := by
      cases name with
      | nil => exact hname.elim
      | cons c name => simp [hname.1]
    unfold backtickedName
    rw [hhead, takeWhile_append_of_stops hname.continues hstop,
      dropWhile_append_of_stops hname.continues hstop]
    cases name with
    | nil => exact hname.elim
    | cons c name => rfl

/-! ## Numbers -/

/-- Whether the text begins with a point and a digit, as the second part of a fraction does. -/
def startsFraction : List Char → Bool
  | '.' :: c :: _ => c.isDigit
  | _ => false

/-- A numeral is taken as an integer if no fraction follows. -/
theorem number_append_integer {run rest : List Char} (hrun : IsNumeral run)
    (hrest : Stops isNumberChar rest) (hpoint : startsFraction rest = false) :
    number (run ++ rest) = ⟨.literal (.integer (String.ofList run)), run⟩ := by
  unfold number
  rw [takeWhile_append_of_stops hrun.chars hrest, dropWhile_append_of_stops hrun.chars hrest]
  split
  · next c tail =>
      have hc : c.isDigit = false := hpoint
      simp [hc]
  · rfl

/-- Two numerals with a point between them are taken together. -/
theorem number_append_fraction {run rest : List Char} (hrun : IsFraction run)
    (hrest : Stops isNumberChar rest) :
    number (run ++ rest) = ⟨.literal (.floating (String.ofList run)), run⟩ := by
  obtain ⟨whole, part, rfl, hwhole, hpart⟩ := hrun
  have hstop : Stops isNumberChar ('.' :: (part ++ rest)) := stops_cons.2 (by decide)
  unfold number
  rw [List.append_assoc, List.cons_append, takeWhile_append_of_stops hwhole.chars hstop,
    dropWhile_append_of_stops hwhole.chars hstop]
  cases part with
  | nil => exact hpart.elim
  | cons c part =>
      have htake := takeWhile_append_of_stops hpart.chars hrest
      rw [List.cons_append] at htake
      simp only [List.cons_append, hpart.1, if_true, htake]

/-- What a number takes is a numeral or a fraction, and nothing prolongs it. -/
theorem exists_of_number {c : Char} (hc : c.isDigit = true) (rest : List Char) :
    ∃ run tail, c :: rest = run ++ tail ∧ Stops isNumberChar tail ∧
      (IsNumeral run ∧ startsFraction tail = false ∧
          number (c :: rest) = ⟨.literal (.integer (String.ofList run)), run⟩ ∨
        IsFraction run ∧
          number (c :: rest) = ⟨.literal (.floating (String.ofList run)), run⟩) := by
  have hs := List.takeWhile_append_dropWhile (p := isNumberChar) (l := c :: rest)
  have hstop := stops_dropWhile isNumberChar (c :: rest)
  have hwhole : IsNumeral ((c :: rest).takeWhile isNumberChar) := by
    rw [List.takeWhile_cons_of_pos (by simp [isNumberChar, hc])]
    exact ⟨hc, fun _ hd => List.mem_takeWhile_imp hd⟩
  unfold number
  split
  · next d tail hd =>
      rw [hd] at hs hstop
      split
      · next hdigit =>
          have hpart : IsNumeral ((d :: tail).takeWhile isNumberChar) := by
            rw [List.takeWhile_cons_of_pos (by simp [isNumberChar, hdigit])]
            exact ⟨hdigit, fun _ he => List.mem_takeWhile_imp he⟩
          refine ⟨_, (d :: tail).dropWhile isNumberChar, ?_, stops_dropWhile _ _,
            .inr ⟨⟨_, _, rfl, hwhole, hpart⟩, rfl⟩⟩
          rw [List.append_assoc, List.cons_append, List.takeWhile_append_dropWhile, hs]
      · next hdigit =>
          exact ⟨_, _, hs.symm, hstop, .inl ⟨hwhole, by simpa [startsFraction] using hdigit, rfl⟩⟩
  · next hd =>
      refine ⟨_, _, hs.symm, hstop, .inl ⟨hwhole, ?_, rfl⟩⟩
      unfold startsFraction
      split
      · next d tail he => exact absurd he (hd d tail)
      · rfl

/-! ## Words -/

/-- All of the word is taken. -/
theorem word_append {run rest : List Char} (hrun : IsWord run)
    (hrest : Stops continuesWord rest) :
    word (run ++ rest) = ⟨.ofWord (String.ofList run), run⟩ := by
  rw [word, takeWhile_append_of_stops hrun.continues hrest]

/-- What a word takes is a word, and nothing prolongs it. -/
theorem exists_of_word {c : Char} (hc : startsWord c = true) (rest : List Char) :
    ∃ run tail, c :: rest = run ++ tail ∧ IsWord run ∧ Stops continuesWord tail ∧
      word (c :: rest) = ⟨.ofWord (String.ofList run), run⟩ := by
  refine ⟨(c :: rest).takeWhile continuesWord, (c :: rest).dropWhile continuesWord,
    List.takeWhile_append_dropWhile.symm, ?_, stops_dropWhile _ _, rfl⟩
  rw [List.takeWhile_cons_of_pos (continuesWord_of_startsWord hc)]
  exact ⟨hc, fun _ hd => List.mem_takeWhile_imp hd⟩

/-! ## Operators -/

/-- The text does not prolong the run: it begins with no operator character, or with a comment, and
then the run does not end in a slash that would begin the comment earlier. -/
def StopsRun (run rest : List Char) : Prop :=
  ∀ c ∈ rest.head?, isOperatorChar c = true →
    opensComment c rest.tail.head? = true ∧ run.getLast? ≠ some '/'

/-- What opens a comment is a slash, and a slash or a star behind it. -/
theorem opensComment_iff {c : Char} {next : Option Char} :
    opensComment c next = true ↔ c = '/' ∧ (next = some '/' ∨ next = some '*') := by
  simp [opensComment]

/-- No comment opens at the first character of a run that holds none and is not prolonged. -/
theorem opensComment_eq_false_of_stopsRun {a : Char} {run rest : List Char}
    (hline : ¬ ['/', '/'] <:+: a :: run) (hblock : ¬ ['/', '*'] <:+: a :: run)
    (hrest : StopsRun (a :: run) rest) : opensComment a (run ++ rest).head? = false := by
  rw [← Bool.not_eq_true, opensComment_iff]
  rintro ⟨rfl, hnext⟩
  cases run with
  | nil =>
      -- The run is a single slash: then no operator character may follow it.
      cases rest with
      | nil => simp at hnext
      | cons c rest =>
          have hc : isOperatorChar c = true := by
            rcases hnext with hnext | hnext <;> cases hnext <;> decide
          exact (hrest c rfl hc).2 rfl
  | cons b run =>
      rcases hnext with hnext | hnext <;> cases hnext
      · exact hline ⟨[], run, rfl⟩
      · exact hblock ⟨[], run, rfl⟩

/-- What does not prolong a run does not prolong its end. -/
theorem StopsRun.tail {a : Char} {run rest : List Char} (h : StopsRun (a :: run) rest) :
    StopsRun run rest := by
  intro c hc hop
  refine ⟨(h c hc hop).1, fun hlast => (h c hc hop).2 ?_⟩
  rw [List.getLast?_cons, hlast]
  rfl

/-- All of the run is taken. -/
theorem operatorRun_append {run rest : List Char} (hchars : ∀ c ∈ run, isOperatorChar c = true)
    (hline : ¬ ['/', '/'] <:+: run) (hblock : ¬ ['/', '*'] <:+: run)
    (hrest : StopsRun run rest) : operatorRun (run ++ rest) = run := by
  induction run with
  | nil =>
      cases rest with
      | nil => rfl
      | cons c rest =>
          rw [List.nil_append, operatorRun]
          cases hc : isOperatorChar c with
          | false => simp
          | true =>
              have hopen := (hrest c rfl hc).1
              rw [List.tail_cons] at hopen
              simp [hopen]
  | cons a run ih =>
      have hopen := opensComment_eq_false_of_stopsRun hline hblock hrest
      have htail : operatorRun (run ++ rest) = run := by
        apply ih
        · exact fun c hc => hchars c (List.mem_cons_of_mem a hc)
        · exact fun h => hline (h.trans (List.suffix_cons a run).isInfix)
        · exact fun h => hblock (h.trans (List.suffix_cons a run).isInfix)
        · exact hrest.tail
      rw [List.cons_append, operatorRun, hchars a List.mem_cons_self, hopen, htail]
      rfl

/-- What an operator takes consists of operator characters. -/
theorem isOperatorChar_of_mem_operatorRun {s : List Char} {c : Char} (h : c ∈ operatorRun s) :
    isOperatorChar c = true := by
  induction s with
  | nil => cases h
  | cons a s ih =>
      unfold operatorRun at h
      split at h
      · next ha =>
          rcases List.mem_cons.1 h with rfl | h
          · exact (Bool.and_eq_true_iff.1 ha).1
          · exact ih h
      · cases h

/-- No comment begins inside what an operator takes. -/
theorem not_infix_operatorRun {d : Char} (hd : opensComment '/' (some d) = true) (s : List Char) :
    ¬ ['/', d] <:+: operatorRun s := by
  induction s with
  | nil => simp [operatorRun]
  | cons a s ih =>
      unfold operatorRun
      split
      · next ha =>
          rw [List.infix_cons_iff]
          rintro (h | h)
          · -- The run goes on with `d`, so `d` stood in the text when `a` was taken.
            obtain ⟨rfl, tail, htail⟩ : '/' = a ∧ [d] <+: operatorRun s := by
              simpa [List.cons_prefix_cons] using h
            obtain ⟨more, hmore⟩ := operatorRun_prefix s
            have hhead : s.head? = some d := by
              rw [← hmore, ← htail]
              rfl
            simp [hhead, hd] at ha
          · exact ih h
      · simp

/-- What follows an operator does not prolong it. -/
theorem stopsRun_of_operatorRun {s rest : List Char} (h : operatorRun s ++ rest = s) :
    StopsRun (operatorRun s) rest := by
  induction s with
  | nil =>
      obtain ⟨-, rfl⟩ := List.append_eq_nil_iff.1 h
      intro c hc
      cases hc
  | cons a s ih =>
      unfold operatorRun at h ⊢
      split at h
      · next ha =>
          rw [if_pos ha]
          have htail : operatorRun s ++ rest = s := by simpa using h
          intro c hc hop
          refine ⟨(ih htail c hc hop).1, fun hlast => ?_⟩
          cases hrun : operatorRun s with
          | nil =>
              -- The run is `a` alone: a comment behind it would have begun one character earlier.
              rw [hrun] at hlast htail
              obtain rfl : a = '/' := by simpa using hlast
              have hopen := (ih (by rw [hrun, htail]) c hc hop).1
              obtain ⟨rfl, -⟩ := opensComment_iff.1 hopen
              rw [List.nil_append] at htail
              subst htail
              rw [Option.mem_def] at hc
              simp [hc, opensComment] at ha
          | cons b run =>
              refine (ih htail c hc hop).2 ?_
              rw [hrun] at hlast ⊢
              simpa using hlast
      · next ha =>
          rw [if_neg ha]
          obtain rfl : rest = a :: s := by simpa using h
          intro c hc hop
          obtain rfl : a = c := by simpa using hc
          rw [hop] at ha
          exact ⟨by simpa using ha, by simp⟩

/-- What an operator takes is a run of operator characters, and nothing prolongs it. -/
theorem exists_of_operator {c : Char} {rest : List Char} (hc : isOperatorChar c = true)
    (hopen : opensComment c rest.head? = false) :
    ∃ run tail, c :: rest = run ++ tail ∧ IsOperatorRun run ∧ StopsRun run tail ∧
      operator (c :: rest) = ⟨.ofOperatorRun run, run⟩ := by
  obtain ⟨tail, htail⟩ := operatorRun_prefix (c :: rest)
  refine ⟨_, tail, htail.symm, ⟨?_, fun d hd => isOperatorChar_of_mem_operatorRun hd,
    not_infix_operatorRun rfl _, not_infix_operatorRun rfl _⟩, stopsRun_of_operatorRun htail, rfl⟩
  simp [operatorRun, hc, hopen]

end Lexeme
end ExprFront
