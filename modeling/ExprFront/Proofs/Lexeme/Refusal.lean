/-
# Where no token begins

A text that begins with no lexeme is refused for one of seven causes.  `Lexeme.Refuses` states what
the text looks like for each of them, in which words it is refused, and how many of its characters
precede the point at fault.  The main fact, `Lexeme.first_eq_error_iff`, is that a text is refused
for a cause exactly if it looks that way, so no text is refused for two.

The body of a string needs the most care.  Every text has a longest front that a body may have
between its quotes, and what stands behind that front decides: `Quoted.exists_run`.
-/
import ExprFront.Proofs.Lexeme.Beginning

namespace ExprFront

open Spelling

/-! ## Bodies of strings -/

/-- The letters that stand for a character behind a backslash. -/
def Quoted.letters : List Char := ['n', 't', 'r', '\\', '"']

/-- A letter stands for a character exactly if it is one of those. -/
theorem Quoted.exists_value?_iff (c : Char) : (∃ v, value? c = some v) ↔ c ∈ letters := by
  unfold value?
  split <;> simp_all [letters]

/-- A letter that is none of those stands for nothing. -/
theorem Quoted.value?_eq_none_iff (c : Char) : value? c = none ↔ c ∉ letters := by
  rw [← exists_value?_iff, ← Option.ne_none_iff_exists', not_not]

/-- What may stand between the quotes of a string: characters that stand for themselves, a tab
included, and escapes. -/
inductive Spelling.IsQuotedRun : List Char → Prop
  | nil : IsQuotedRun []
  /-- A character that stands for itself. -/
  | plain {c : Char} {rest : List Char} (hc : c ∉ ['"', '\\', '\n', '\r'])
      (tail : IsQuotedRun rest) : IsQuotedRun (c :: rest)
  /-- A backslash and a letter. -/
  | escape {c : Char} {rest : List Char} (hc : c ∈ Quoted.letters)
      (tail : IsQuotedRun rest) : IsQuotedRun ('\\' :: c :: rest)

namespace Quoted

/-- What may stand behind a run that goes no further, and what reading the body answers there. -/
inductive Stop : List Char → Except Fault Body → Prop
  | closed (rest : List Char) : Stop ('"' :: rest) (.ok ⟨[], []⟩)
  /-- The text ends, or its line does. -/
  | openEnded {rest : List Char} (h : ∀ c ∈ rest.head?, isLineEnd c = true) :
      Stop rest (.error .openEnded)
  /-- The text ends behind a backslash. -/
  | danglingEscape : Stop ['\\'] (.error (.danglingEscape 1))
  /-- The character behind a backslash stands for nothing. -/
  | badEscape {c : Char} (rest : List Char) (hc : c ∉ letters) :
      Stop ('\\' :: c :: rest) (.error (.badEscape c 1))

/-- A body that is read from behind a run, with the run and its value in front of it, or the fault
seen from in front of the run. -/
def behind (value run : List Char) : Except Fault Body → Except Fault Body
  | .ok b => .ok ⟨value ++ b.value, run ++ b.spelling⟩
  | .error f => .error (f.shift run.length)

/-- One piece more in front of a run. -/
theorem extend_behind (v : Char) (piece value run : List Char) (r : Except Fault Body) :
    extend v piece (behind value run r) = behind (v :: value) (piece ++ run) r := by
  cases r with
  | ok b => simp [extend, behind, Body.cons]
  | error f => cases f <;> simp [extend, behind, Fault.shift, Nat.add_assoc]

/-- **Reading passes a run**, whatever stands behind it. -/
theorem exists_read_append {run : List Char} (h : IsQuotedRun run) :
    ∃ value, ∀ rest, read (run ++ rest) = behind value run (read rest) := by
  induction h with
  | nil =>
      refine ⟨[], fun rest => ?_⟩
      rw [List.nil_append]
      cases read rest with
      | ok b => rfl
      | error f => cases f <;> simp [behind, Fault.shift]
  | @plain c run hc tail ih =>
      obtain ⟨value, hvalue⟩ := ih
      simp only [List.mem_cons, List.not_mem_nil, or_false, not_or] at hc
      obtain ⟨hquote, hslash, hfeed, hreturn⟩ := hc
      refine ⟨c :: value, fun rest => ?_⟩
      rw [List.cons_append, read]
      · rw [if_neg hquote, if_neg (by simp [hfeed, hreturn]), hvalue, extend_behind]
        rfl
      · exact fun h _ => hslash h
      · exact fun _ _ h _ => hslash h
  | @escape c run hc tail ih =>
      obtain ⟨value, hvalue⟩ := ih
      obtain ⟨v, hv⟩ := (exists_value?_iff c).2 hc
      refine ⟨v :: value, fun rest => ?_⟩
      rw [List.cons_append, List.cons_append, read, hv]
      show extend v ['\\', c] (read (run ++ rest)) = _
      rw [hvalue, extend_behind]
      rfl

/-- What reading answers where a run stops. -/
theorem Stop.read_eq {rest : List Char} {r : Except Fault Body} (h : Stop rest r) :
    read rest = r := by
  cases h with
  | closed rest => simp [read]
  | @openEnded rest h =>
      cases rest with
      | nil => rfl
      | cons c rest =>
          have hc : c = '\n' ∨ c = '\r' := by simpa [isLineEnd] using h c rfl
          rcases hc with rfl | rfl
          · simp [read]
          · simp [read]
  | danglingEscape => rfl
  | badEscape rest hc => rw [read, (value?_eq_none_iff _).2 hc]

/-- **Every text has a longest run in front**, and behind that the body stops. -/
theorem exists_run (s : List Char) :
    ∃ run rest r, s = run ++ rest ∧ IsQuotedRun run ∧ Stop rest r := by
  -- The cases are those of reading: the end of the text, the three kinds of escape, the closing
  -- quote, the end of the line, and a character that stands for itself.
  fun_induction read s with
  | case1 =>
      refine ⟨[], [], _, rfl, .nil, .openEnded fun c hc => ?_⟩
      cases hc
  | case2 => exact ⟨[], ['\\'], _, rfl, .nil, .danglingEscape⟩
  | case3 c rest v hv ih =>
      obtain ⟨run, tail, r, rfl, hrun, hstop⟩ := ih
      exact ⟨'\\' :: c :: run, tail, r, rfl, .escape ((exists_value?_iff c).1 ⟨v, hv⟩) hrun, hstop⟩
  | case4 c rest hv =>
      exact ⟨[], _, _, rfl, .nil, .badEscape rest ((value?_eq_none_iff c).1 hv)⟩
  | case5 rest => exact ⟨[], _, _, rfl, .nil, .closed rest⟩
  | case6 c rest hslash hescape hquote hend =>
      refine ⟨[], _, _, rfl, .nil, .openEnded ?_⟩
      intro d hd
      obtain rfl : c = d := by simpa using hd
      simpa [isLineEnd] using hend
  | case7 c rest hslash hescape hquote hend ih =>
      obtain ⟨run, tail, r, rfl, hrun, hstop⟩ := ih
      refine ⟨c :: run, tail, r, rfl, .plain ?_ hrun, hstop⟩
      have hbackslash : c ≠ '\\' := by
        rintro rfl
        cases run with
        | nil =>
            cases tail with
            | nil => exact hslash rfl rfl
            | cons d tail => exact hescape d tail rfl rfl
        | cons d run => exact hescape d (run ++ tail) rfl rfl
      simp only [List.mem_cons, List.not_mem_nil, or_false, not_or]
      exact ⟨hquote, hbackslash, not_or.1 hend⟩

end Quoted

namespace Lexeme

/-! ## Refused texts -/

/-- The text begins with no token, for the cause and in the words, and so many of its characters
precede the point at fault. -/
inductive Refuses : List Char → LexicalCause → String → Nat → Prop
  /-- No token begins with the character, whatever stands behind it. -/
  | unexpectedCharacter {c : Char} (rest : List Char) (h : ∀ text x, ¬ Begins c text x) :
      Refuses (c :: rest) (.unexpectedCharacter c)
        ("Unexpected character: '" ++ String.singleton c ++ "'") 0
  /-- A block comment opens, and nothing closes it. -/
  | unterminatedComment {rest : List Char}
      (h : ∀ front, front <+: '/' :: '*' :: rest → ¬ IsBlockComment front) :
      Refuses ('/' :: '*' :: rest) .unterminatedComment "Unterminated block comment" 0
  /-- Behind the body of a string its line ends, or the text does. -/
  | unterminatedString {run rest : List Char} (hrun : IsQuotedRun run)
      (hrest : ∀ c ∈ rest.head?, isLineEnd c = true) :
      Refuses ('"' :: (run ++ rest)) .unterminatedString "Unterminated string" 0
  /-- The text ends behind a backslash. -/
  | unterminatedEscape {run : List Char} (hrun : IsQuotedRun run) :
      Refuses ('"' :: (run ++ ['\\'])) .unterminatedEscape "Unterminated escape sequence"
        (run.length + 2)
  /-- The character behind a backslash stands for nothing. -/
  | invalidEscape {run : List Char} {c : Char} (rest : List Char) (hrun : IsQuotedRun run)
      (hc : c ∉ Quoted.letters) :
      Refuses ('"' :: (run ++ '\\' :: c :: rest)) (.invalidEscape c)
        ("Invalid escape sequence: '\\" ++ String.singleton c ++ "'") (run.length + 2)
  /-- No word begins behind a backtick. -/
  | expectedName {rest : List Char} (hrest : Stops startsWord rest) :
      Refuses ('\x60' :: rest) .expectedName "Expected identifier after '`'" 1
  /-- A word behind a backtick ends without another backtick. -/
  | unterminatedName {name rest : List Char} (hname : IsWord name)
      (hrest : Stops continuesWord rest) (hopen : rest.head? ≠ some '\x60') :
      Refuses ('\x60' :: (name ++ rest)) .unterminatedName "Unterminated backticked identifier" 0

/-! ## One form after the other -/

/-- What a string answers where the run of its body stops. -/
theorem string_of_stop {run rest : List Char} {f : Quoted.Fault} (hrun : IsQuotedRun run)
    (hstop : Quoted.Stop rest (.error f)) :
    string (run ++ rest) =
      match f.shift run.length with
      | .openEnded => .error ⟨.unterminatedString, 0⟩
      | .danglingEscape before => .error ⟨.unterminatedEscape, before + 1⟩
      | .badEscape c before => .error ⟨.invalidEscape c, before + 1⟩ := by
  obtain ⟨value, hvalue⟩ := Quoted.exists_read_append hrun
  rw [string, hvalue, hstop.read_eq]
  cases f <;> rfl

/-- A string that is refused is refused for one of the three causes of strings. -/
theorem refuses_of_string {body : List Char} {f : LexicalFault} (h : string body = .error f) :
    Refuses ('"' :: body) f.cause f.cause.message f.before := by
  obtain ⟨run, rest, r, rfl, hrun, hstop⟩ := Quoted.exists_run body
  cases hstop with
  | closed rest =>
      obtain ⟨value, hvalue⟩ := Quoted.exists_read_append hrun
      rw [string, hvalue, Quoted.Stop.read_eq (.closed rest)] at h
      cases h
  | openEnded hrest =>
      rw [string_of_stop hrun (.openEnded hrest)] at h
      cases h
      exact .unterminatedString hrun hrest
  | danglingEscape =>
      rw [string_of_stop hrun .danglingEscape] at h
      cases h
      exact .unterminatedEscape hrun
  | badEscape rest hc =>
      rw [string_of_stop hrun (.badEscape rest hc)] at h
      cases h
      exact .invalidEscape rest hrun hc

/-- A block comment is refused exactly if no front of the text is one. -/
theorem blockComment_eq_error_iff {s : List Char} {f : LexicalFault} :
    blockComment ('/' :: '*' :: s) = .error f ↔
      f = ⟨.unterminatedComment, 0⟩ ∧
        ∀ front, front <+: '/' :: '*' :: s → ¬ IsBlockComment front := by
  have hopen : (∃ x, blockComment ('/' :: '*' :: s) = .ok x) ↔
      ∃ front, front <+: '/' :: '*' :: s ∧ IsBlockComment front := by
    constructor
    · rintro ⟨x, hx⟩
      obtain ⟨body, rest, rfl, nested, -⟩ := blockComment_eq_ok_iff.1 hx
      exact ⟨'/' :: '*' :: body, ⟨rest, rfl⟩, body, rfl, nested⟩
    · rintro ⟨front, ⟨rest, hrest⟩, body, rfl, nested⟩
      have hs : s = body ++ rest := by simpa using hrest.symm
      exact ⟨_, blockComment_eq_ok_iff.2 ⟨body, rest, hs, nested, rfl⟩⟩
  cases hx : blockComment ('/' :: '*' :: s) with
  | ok x =>
      obtain ⟨front, hfront, hcomment⟩ := hopen.1 ⟨x, hx⟩
      constructor
      · intro h
        cases h
      · rintro ⟨-, hnone⟩
        exact absurd hcomment (hnone front hfront)
  | error g =>
      -- There is one cause only for which a comment is refused.
      have hg : g = ⟨.unterminatedComment, 0⟩ := by
        unfold blockComment at hx
        split at hx
        · cases hx
        · cases hx
          rfl
      rw [hg]
      constructor
      · intro h
        cases h
        refine ⟨rfl, fun front hfront hcomment => ?_⟩
        obtain ⟨x, hx'⟩ := hopen.2 ⟨front, hfront, hcomment⟩
        rw [hx] at hx'
        cases hx'
      · rintro ⟨rfl, -⟩
        rfl

/-- What stands behind a backtick, if no name does. -/
theorem backtickedName_of_stops {s : List Char} (h : Stops startsWord s) :
    backtickedName s = .error ⟨.expectedName, 1⟩ := by
  have hnone : s.head?.filter startsWord = none := by
    rw [Option.filter_eq_none_iff]
    intro c hc
    rw [h c hc]
    exact Bool.false_ne_true
  rw [backtickedName, hnone]

/-- A word behind a backtick, and what stands behind it. -/
theorem backtickedName_append {name rest : List Char} (hname : IsWord name)
    (hrest : Stops continuesWord rest) (hopen : rest.head? ≠ some '\x60') :
    backtickedName (name ++ rest) = .error ⟨.unterminatedName, 0⟩ := by
  cases name with
  | nil => exact hname.elim
  | cons c name =>
      have hsome : ((c :: name) ++ rest).head?.filter startsWord = some c := by
        simp [hname.1]
      rw [backtickedName, hsome, dropWhile_append_of_stops hname.continues hrest]
      cases rest with
      | nil => rfl
      | cons d rest =>
          dsimp only
          split
          · next hcons => exact absurd (congrArg List.head? hcons) hopen
          · rfl

/-- A name between backticks that is refused is refused for one of the two causes of names. -/
theorem refuses_of_backtickedName {s : List Char} {f : LexicalFault}
    (h : backtickedName s = .error f) :
    Refuses ('\x60' :: s) f.cause f.cause.message f.before := by
  by_cases hstop : Stops startsWord s
  · rw [backtickedName_of_stops hstop] at h
    cases h
    exact .expectedName hstop
  · cases s with
    | nil => exact absurd (stops_nil _) hstop
    | cons c s =>
        have hc : startsWord c = true := by simpa using hstop
        obtain ⟨name, rest, hs, hname, hrest, -⟩ := exists_of_word hc s
        rw [hs] at h ⊢
        by_cases hopen : rest.head? = some '\x60'
        · obtain ⟨tail, rfl⟩ := List.head?_eq_some_iff.1 hopen
          rw [backtickedName_eq_ok_iff.2 ⟨name, tail, rfl, hname, rfl⟩] at h
          cases h
        · rw [backtickedName_append hname hrest hopen] at h
          cases h
          exact .unterminatedName hname hrest hopen

/-! ## All texts -/

/-- A character begins a token as soon as it is special, a digit or the beginning of a word. -/
theorem exists_begins {c : Char} (h : isSpecial c = true ∨ c.isDigit = true ∨ startsWord c = true) :
    ∃ text x, Begins c text x := by
  rcases h with h | h | h
  · simp only [isSpecial, Bool.or_eq_true, beq_iff_eq, or_assoc] at h
    rcases h with h | h | h | rfl | rfl
    · exact ⟨[], _, .blanks h⟩
    · have hopen : opensComment c ([] : List Char).head? = false := by
        rw [opensComment]
        exact Bool.and_false _
      exact ⟨[], _, .operator h hopen⟩
    · obtain ⟨m, hm⟩ := Option.isSome_iff_exists.1 h
      exact ⟨[], _, .mark hm⟩
    · exact ⟨_, _, .string (string_append [] [])⟩
    · have hname : IsWord ['a'] := by decide
      exact ⟨_, _, .backtickedName (backtickedName_eq_ok_iff.2 ⟨['a'], [], rfl, hname, rfl⟩)⟩
  · exact ⟨[], _, .number h⟩
  · exact ⟨[], _, .word h⟩

/-- Where no token begins with the character, it is unexpected. -/
theorem first_of_unexpected {c : Char} (h : ∀ text x, ¬ Begins c text x) (rest : List Char) :
    first c rest = .error ⟨.unexpectedCharacter c, 0⟩ := by
  have hnone : ¬ (isSpecial c = true ∨ c.isDigit = true ∨ startsWord c = true) := by
    intro hsome
    obtain ⟨text, x, hx⟩ := exists_begins hsome
    exact h text x hx
  simp only [not_or, Bool.not_eq_true] at hnone
  obtain ⟨hspecial, hdigit, hword⟩ := hnone
  rw [first_of_not_isSpecial hspecial, hdigit, hword]
  rfl

/-- A character that is neither special nor a digit nor the beginning of a word begins no token. -/
theorem not_begins {c : Char} (hspecial : isSpecial c = false) (hdigit : c.isDigit = false)
    (hword : startsWord c = false) (text : List Char) (x : Lexeme) : ¬ Begins c text x := by
  intro hx
  have hfirst := first_eq_ok_iff.2 hx
  rw [first_of_not_isSpecial hspecial, hdigit, hword] at hfirst
  cases hfirst

/-- What is refused is refused for one of the causes, in its words. -/
theorem refuses_of_first {c : Char} {rest : List Char} {f : LexicalFault}
    (h : first c rest = .error f) : Refuses (c :: rest) f.cause f.cause.message f.before := by
  unfold first at h
  split at h
  · cases h
  split at h
  · cases h
  split at h
  · next hc =>
      obtain ⟨rfl, hrest⟩ := hc
      obtain ⟨tail, rfl⟩ := List.head?_eq_some_iff.1 hrest
      obtain ⟨rfl, hnone⟩ := blockComment_eq_error_iff.1 h
      exact .unterminatedComment hnone
  split at h
  · next hc =>
      subst hc
      exact refuses_of_string h
  split at h
  · next hc =>
      subst hc
      exact refuses_of_backtickedName h
  split at h
  · cases h
  split at h
  · cases h
  split at h
  · cases h
  split at h
  · cases h
  · next hblank _ _ hquote htick hdigit _ hmark hop hword =>
      cases h
      simp only [Bool.not_eq_true] at hblank hdigit hop hword
      refine .unexpectedCharacter rest (not_begins ?_ hdigit hword)
      simp [isSpecial, hblank, hop, hmark, hquote, htick]

/-- What looks like a refused text is refused, for that cause and in its words. -/
theorem Refuses.first_eq {c : Char} {rest : List Char} {cause : LexicalCause} {words : String}
    {before : Nat} (h : Refuses (c :: rest) cause words before) :
    first c rest = .error ⟨cause, before⟩ ∧ words = cause.message := by
  have comment (s : List Char) : first '/' ('*' :: s) = blockComment ('/' :: '*' :: s) := by
    simp [first, isBlank]
  have string (s : List Char) : first '"' s = string s := by simp [first, isBlank]
  have name (s : List Char) : first '\x60' s = backtickedName s := by simp [first, isBlank]
  cases h with
  | unexpectedCharacter rest h => exact ⟨first_of_unexpected h rest, rfl⟩
  | unterminatedComment h =>
      rw [comment]
      exact ⟨blockComment_eq_error_iff.2 ⟨rfl, h⟩, rfl⟩
  | unterminatedString hrun hrest =>
      rw [string]
      exact ⟨string_of_stop hrun (.openEnded hrest), rfl⟩
  | unterminatedEscape hrun =>
      rw [string]
      exact ⟨string_of_stop hrun .danglingEscape, rfl⟩
  | invalidEscape rest hrun hc =>
      rw [string]
      exact ⟨string_of_stop hrun (.badEscape rest hc), rfl⟩
  | expectedName hrest =>
      rw [name]
      exact ⟨backtickedName_of_stops hrest, rfl⟩
  | unterminatedName hname hrest hopen =>
      rw [name]
      exact ⟨backtickedName_append hname hrest hopen, rfl⟩

/-- **A text is refused for a cause exactly if it looks that way**, and in the words of that
cause. -/
theorem first_eq_error_iff {c : Char} {rest : List Char} {f : LexicalFault} :
    first c rest = .error f ↔ Refuses (c :: rest) f.cause f.cause.message f.before :=
  ⟨refuses_of_first, fun h => h.first_eq.1⟩

/-- **No text is refused for two causes**, in two wordings or at two points. -/
theorem Refuses.unique {s : List Char} {cause cause' : LexicalCause} {words words' : String}
    {before before' : Nat} (h : Refuses s cause words before)
    (h' : Refuses s cause' words' before') :
    cause' = cause ∧ words' = words ∧ before' = before := by
  cases s with
  | nil => cases h
  | cons c rest =>
      obtain ⟨hfirst, rfl⟩ := h.first_eq
      obtain ⟨hfirst', rfl⟩ := h'.first_eq
      rw [hfirst] at hfirst'
      cases hfirst'
      exact ⟨rfl, rfl, rfl⟩

end Lexeme

end ExprFront
