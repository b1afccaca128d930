/-
# Lexemes at the front of a text

A lexeme that leaves nothing is read as one that leaves the rest: the scanner looks past it, but
only for what would prolong it, and where less text stands behind it nothing more does.  So the
front of a text splits into the lexemes that come off it, which is the main fact,
`SplitsOff.splits`.
-/
import ExprFront.Proofs.Stream.Splitting

namespace ExprFront

open Spelling

/-! ## The text that comes off -/

/-- The text that the lexemes are spelled by. -/
def spelled (xs : List Lexeme) : List Char := xs.flatMap (·.spelling)

@[simp]
theorem spelled_nil : spelled [] = [] := rfl

@[simp]
theorem spelled_cons (x : Lexeme) (xs : List Lexeme) :
    spelled (x :: xs) = x.spelling ++ spelled xs := List.flatMap_cons

/-- What comes off is the front of the text. -/
theorem SplitsOff.text_eq {text rest : List Char} {xs : List Lexeme}
    (h : SplitsOff text xs rest) : text = spelled xs ++ rest := by
  induction h with
  | nil rest => rfl
  | cons first spelled further ih => rw [spelled, ih, spelled_cons, List.append_assoc]

/-! ## Lexemes with less text behind them -/

/-- A text that does not begin with a character of the class has no front that does. -/
theorem Stops.left {p : Char → Bool} {q r : List Char} (h : Stops p (q ++ r)) : Stops p q := by
  cases q with
  | nil => exact stops_nil p
  | cons c q => exact stops_cons.2 (stops_cons.1 h)

/-- A text that begins no fraction has no front that does. -/
theorem Lexeme.startsFraction_left {q r : List Char} (h : startsFraction (q ++ r) = false) :
    startsFraction q = false := by
  unfold startsFraction at h ⊢
  split
  · exact h
  · rfl

/-- The front of a text opens a comment just if the whole text does. -/
def OpensAlike (q r : List Char) : Prop :=
  ∀ c ∈ q.head?, Lexeme.opensComment c q.tail.head? = Lexeme.opensComment c (q ++ r).tail.head?

/-- **What a text does not prolong, its front does not prolong**, if both open a comment alike. -/
theorem Kind.StopsBefore.left {k : Kind} {q r : List Char} (h : k.StopsBefore (q ++ r))
    (hopen : OpensAlike q r) : k.StopsBefore q := by
  unfold StopsBefore at h ⊢
  split
  · next hk =>
      simp only [hk] at h
      exact h.left
  · next hk =>
      simp only [hk] at h
      exact ⟨h.1.left, fun hinteger => Lexeme.startsFraction_left (h.2 hinteger)⟩
  · next hk =>
      simp only [hk] at h
      intro c hc hop
      rw [hopen c hc]
      refine h c ?_ hop
      rw [Option.mem_def] at hc ⊢
      rw [List.head?_append, hc]
      rfl
  · next hk =>
      simp only [hk] at h
      exact h.left
  · next hk =>
      simp only [hk] at h
      exact fun hline => (h hline).left
  · trivial

/-- A string is read up to the quote that closes it, whatever stands behind that. -/
theorem Lexeme.string_eq_ok {text : List Char} {x : Lexeme} (h : string text = .ok x) :
    ∃ run rest, text = run ++ '"' :: rest ∧ x.spelling = '"' :: run ++ ['"'] ∧
      ∀ rest', string (run ++ '"' :: rest') = .ok x := by
  obtain ⟨run, rest, r, rfl, hrun, hstop⟩ := Quoted.exists_run text
  obtain ⟨value, hvalue⟩ := Quoted.exists_read_append hrun
  have hread (rest' : List Char) : string (run ++ '"' :: rest') =
      .ok ⟨.literal (.string (String.ofList value)), '"' :: run ++ ['"']⟩ := by
    rw [string, hvalue, Quoted.Stop.read_eq (.closed rest')]
    simp [Quoted.behind]
  cases hstop with
  | closed rest =>
      rw [hread] at h
      cases h
      exact ⟨run, rest, rfl, rfl, hread⟩
  | openEnded hrest =>
      rw [string_of_stop hrun (.openEnded hrest)] at h
      cases h
  | danglingEscape =>
      rw [string_of_stop hrun .danglingEscape] at h
      cases h
  | badEscape rest hc =>
      rw [string_of_stop hrun (.badEscape rest hc)] at h
      cases h

/-- **A lexeme is read as well in front of any text that does not prolong it.** -/
theorem Lexeme.Begins.before {c : Char} {text rest : List Char} {x : Lexeme} (h : Begins c text x)
    (hspelled : c :: text = x.spelling ++ rest) {q : List Char} (hstop : x.kind.StopsBefore q) :
    ∃ text', c :: text' = x.spelling ++ q ∧ Begins c text' x := by
  rcases h.text_eq with htext | ⟨rfl, value, hvalue⟩
  · -- Its kind is valid, and what is valid is read wherever nothing prolongs it.
    obtain ⟨hvalid, -⟩ := h.valid hspelled
    obtain ⟨d, t, hd, hbegins⟩ := readsBack_of_valid hvalid h.kind_ne_endOfInput hstop
    rw [htext] at hd
    obtain rfl : c = d := by
      rw [hd] at hspelled
      exact (List.cons.inj hspelled).1
    rw [← hd] at hbegins
    exact ⟨t ++ q, by rw [hd, List.cons_append], hbegins⟩
  · cases h with
    | string hx =>
        obtain ⟨run, rest, rfl, hspelling, hread⟩ := string_eq_ok hx
        refine ⟨run ++ '"' :: q, ?_, .string (hread q)⟩
        rw [hspelling]
        simp
    | blanks hc => cases hc
    | number hc => cases hc
    | mark hm => cases hm
    | operator hc => cases hc
    | word hc => cases hc

/-- The first characters of a lexeme show whether it is a comment, whatever stands behind them. -/
theorem Splits.opensAlike {q r : List Char} {xs : List Lexeme} (h : Splits q xs)
    (h' : SplitsOff (q ++ r) xs r) : OpensAlike q r := by
  cases h with
  | nil => exact nofun
  | @cons c text rest x xs first hspelled tail =>
      rw [List.cons_append] at h'
      cases h' with
      | cons first' hspelled' further =>
          intro d hd
          obtain rfl : c = d := by simpa using hd
          rw [List.tail_cons, List.cons_append, List.tail_cons, Bool.eq_iff_iff,
            first.startsLike.opensComment, first'.startsLike.opensComment]

/-- **The front of a text splits into the lexemes that come off it.** -/
theorem SplitsOff.splits {text rest : List Char} {xs : List Lexeme}
    (h : SplitsOff text xs rest) : Splits (spelled xs) xs := by
  induction h with
  | nil rest => exact .nil
  | cons first hspelled further ih =>
      have hfurther := further
      rw [further.text_eq] at hspelled hfurther
      have hstop := (first.valid hspelled).2.left (ih.opensAlike hfurther)
      obtain ⟨text', htext, hbegins⟩ := first.before hspelled hstop
      rw [spelled_cons, ← htext]
      exact .cons hbegins htext ih

end ExprFront
