/-
# The first lexeme of a text

`Lexeme.first` reads one token off the front of a text and says which characters spelled it.  Its
first character, and for comments the second, decide the kind; after that each kind takes the
longest spelling that it can.

The main facts are `Lexeme.spelling_prefix_of_first` and `Lexeme.spelling_ne_nil_of_first`: what
spells a lexeme is the front of the text and is not empty, so reading always gets further.
-/
import ExprFront.Token.Basic
import ExprFront.Token.Error
import ExprFront.Unicode.Letter

namespace ExprFront

/-! ## Classes of characters -/

/-- The four characters of whitespace. -/
def isBlank (c : Char) : Bool := c == ' ' || c == '\t' || c == '\n' || c == '\r'

/-- The characters that end a line comment. -/
def isLineEnd (c : Char) : Bool := c == '\n' || c == '\r'

/-- The characters of operators. -/
def isOperatorChar (c : Char) : Bool :=
  c == '/' || c == '=' || c == '-' || c == '+' || c == '!' || c == '*' || c == '%' || c == '<' ||
    c == '>' || c == '&' || c == '|' || c == '^' || c == '~' || c == '?'

/-- The characters of numbers, the point apart. -/
def isNumberChar (c : Char) : Bool := c.isDigit || c == '_'

/-- What a word may begin with. -/
def startsWord (c : Char) : Bool := isAlphabetic c || c == '_'

/-- What a word may go on with. -/
def continuesWord (c : Char) : Bool := isAlphanumeric c || c == '_'

/-- What begins a word may stand anywhere in it. -/
theorem continuesWord_of_startsWord {c : Char} (h : startsWord c = true) :
    continuesWord c = true := by
  simp only [startsWord, continuesWord, Bool.or_eq_true] at h ⊢
  exact h.imp_left isAlphanumeric_of_isAlphabetic

/-! ## Lexemes -/

/-- A token kind and the characters that spelled it. -/
structure Lexeme where
  kind : Kind
  spelling : List Char
  deriving DecidableEq, Repr

namespace Lexeme

/-! ### Blanks and comments -/

/-- All the whitespace that the text begins with. -/
def blanks (s : List Char) : Lexeme :=
  ⟨.whitespace (String.ofList (s.takeWhile isBlank)), s.takeWhile isBlank⟩

/-- The line that the text begins with, without its line break. -/
def lineComment (s : List Char) : Lexeme :=
  ⟨.comment (String.ofList (s.takeWhile (!isLineEnd ·))), s.takeWhile (!isLineEnd ·)⟩

/-- How many characters a block comment takes: `taken` of them lie behind, and inside the outermost
comment `depth` more comments are open.  Block comments nest, and the depth is counted without a
bound; a count in 32 bits with a sign would not hold that of `2 ^ 31` openers in each other. -/
def blockLength (depth taken : Nat) : List Char → Option Nat
  | [] => none
  | '/' :: '*' :: rest => blockLength (depth + 1) (taken + 2) rest
  | '*' :: '/' :: rest =>
      match depth with
      | 0 => some (taken + 2)
      | outer + 1 => blockLength outer (taken + 2) rest
  | _ :: rest => blockLength depth (taken + 1) rest

/-- The block comment that the text begins with. -/
def blockComment (s : List Char) : Except LexicalFault Lexeme :=
  match blockLength 0 2 (s.drop 2) with
  | some n => .ok ⟨.comment (String.ofList (s.take n)), s.take n⟩
  | none => .error ⟨.unterminatedComment, 0⟩

/-! ### Literals -/

/-- The string that begins behind an opening quote. -/
def string (body : List Char) : Except LexicalFault Lexeme :=
  match Quoted.read body with
  | .ok b => .ok ⟨.literal (.string (String.ofList b.value)), '"' :: b.spelling ++ ['"']⟩
  | .error .openEnded => .error ⟨.unterminatedString, 0⟩
  | .error (.danglingEscape before) => .error ⟨.unterminatedEscape, before + 1⟩
  | .error (.badEscape c before) => .error ⟨.invalidEscape c, before + 1⟩

/-- The number that the text begins with.  A point belongs to it only if a digit follows. -/
def number (s : List Char) : Lexeme :=
  let whole := s.takeWhile isNumberChar
  match s.dropWhile isNumberChar with
  | '.' :: c :: rest =>
      if c.isDigit then
        let spelling := whole ++ '.' :: (c :: rest).takeWhile isNumberChar
        ⟨.literal (.floating (String.ofList spelling)), spelling⟩
      else ⟨.literal (.integer (String.ofList whole)), whole⟩
  | _ => ⟨.literal (.integer (String.ofList whole)), whole⟩

/-! ### Words and operators -/

/-- The word that the text begins with. -/
def word (s : List Char) : Lexeme :=
  ⟨.ofWord (String.ofList (s.takeWhile continuesWord)), s.takeWhile continuesWord⟩

/-- The name that begins behind an opening backtick.  Any word may be a name there. -/
def backtickedName (rest : List Char) : Except LexicalFault Lexeme :=
  match rest.head?.filter startsWord with
  | none => .error ⟨.expectedName, 1⟩
  | some _ =>
      let name := rest.takeWhile continuesWord
      match rest.dropWhile continuesWord with
      | '\x60' :: _ => .ok ⟨.identifier ⟨String.ofList name, true⟩, '\x60' :: name ++ ['\x60']⟩
      | _ => .error ⟨.unterminatedName, 0⟩

/-- Whether a comment begins with the character `c` when `next` is the character behind it. -/
def opensComment (c : Char) (next : Option Char) : Bool :=
  c == '/' && (next == some '/' || next == some '*')

/-- All the operator characters that the text begins with, up to a comment. -/
def operatorRun : List Char → List Char
  | [] => []
  | c :: rest =>
      if isOperatorChar c && !opensComment c rest.head? then c :: operatorRun rest else []

/-- The operator that the text begins with. -/
def operator (s : List Char) : Lexeme := ⟨.ofOperatorRun (operatorRun s), operatorRun s⟩

/-! ### The choice between them -/

/-- The first lexeme of the text `c :: rest`. -/
def first (c : Char) (rest : List Char) : Except LexicalFault Lexeme :=
  if isBlank c then .ok (blanks (c :: rest))
  else if c = '/' ∧ rest.head? = some '/' then .ok (lineComment (c :: rest))
  else if c = '/' ∧ rest.head? = some '*' then blockComment (c :: rest)
  else if c = '"' then string rest
  else if c = '\x60' then backtickedName rest
  else if c.isDigit then .ok (number (c :: rest))
  else
    match Punctuator.ofChar? c with
    | some mark => .ok ⟨.punctuator mark, [c]⟩
    | none =>
        if isOperatorChar c then .ok (operator (c :: rest))
        else if startsWord c then .ok (word (c :: rest))
        else .error ⟨.unexpectedCharacter c, 0⟩

/-! ### What spells a lexeme -/

/-- A string's body is spelled by what stands before its closing quote. -/
theorem eq_spelling_append_of_read {s : List Char} {b : Quoted.Body} (h : Quoted.read s = .ok b) :
    ∃ rest, s = b.spelling ++ '"' :: rest := by
  fun_induction Quoted.read s generalizing b with
  | case1 => cases h
  | case2 => cases h
  | case3 c rest v hv ih =>
      cases hr : Quoted.read rest with
      | error f => simp [hr, Quoted.extend] at h
      | ok b' =>
          obtain ⟨tail, htail⟩ := ih hr
          simp only [hr, Quoted.extend, Except.ok.injEq] at h
          exact ⟨tail, by simp [← h, Quoted.Body.cons, htail]⟩
  | case4 => cases h
  | case5 rest =>
      simp only [Except.ok.injEq] at h
      exact ⟨rest, by simp [← h]⟩
  | case6 => cases h
  | case7 c rest _ _ _ _ ih =>
      cases hr : Quoted.read rest with
      | error f => simp [hr, Quoted.extend] at h
      | ok b' =>
          obtain ⟨tail, htail⟩ := ih hr
          simp only [hr, Quoted.extend, Except.ok.injEq] at h
          exact ⟨tail, by simp [← h, Quoted.Body.cons, htail]⟩

/-- A run of operator characters is the front of its text. -/
theorem operatorRun_prefix (s : List Char) : operatorRun s <+: s := by
  induction s with
  | nil => exact List.prefix_rfl
  | cons c rest ih =>
      unfold operatorRun
      split
      · exact List.prefix_cons_inj c |>.2 ih
      · exact List.nil_prefix

/-- A block comment takes more characters than its opener. -/
theorem taken_lt_blockLength {depth taken n : Nat} {s : List Char}
    (h : blockLength depth taken s = some n) : taken < n := by
  fun_induction blockLength depth taken s with
  | case1 => cases h
  | case2 _ _ _ ih => have := ih h; omega
  | case3 => cases h; omega
  | case4 _ _ _ ih => have := ih h; omega
  | case5 _ _ _ _ _ _ ih => have := ih h; omega

/-- A number is spelled by the front of its text. -/
theorem number_spelling_prefix (s : List Char) : (number s).spelling <+: s := by
  have hs := List.takeWhile_append_dropWhile (p := isNumberChar) (l := s)
  unfold number
  split
  · next c rest hd =>
      split
      · rw [hd] at hs
        conv => rhs; rw [← hs]
        exact List.prefix_append_right_inj _ |>.2
          (List.prefix_cons_inj _ |>.2 (List.takeWhile_prefix _))
      · exact List.takeWhile_prefix _
  · exact List.takeWhile_prefix _

/-- A string is spelled by the front of its text. -/
theorem string_spelling_prefix {body : List Char} {x : Lexeme} (h : string body = .ok x) :
    x.spelling <+: '"' :: body := by
  unfold string at h
  split at h
  · next b hb =>
      obtain ⟨rest, hrest⟩ := eq_spelling_append_of_read hb
      cases h
      exact ⟨rest, by simp [hrest]⟩
  all_goals cases h

/-- A name between backticks is spelled by the front of its text. -/
theorem backtickedName_spelling_prefix {rest : List Char} {x : Lexeme}
    (h : backtickedName rest = .ok x) : x.spelling <+: '\x60' :: rest := by
  have hs := List.takeWhile_append_dropWhile (p := continuesWord) (l := rest)
  unfold backtickedName at h
  split at h
  · cases h
  · split at h
    · next tail hd =>
        cases h
        rw [hd] at hs
        exact ⟨tail, by simpa using hs⟩
    · cases h

/-- **What spells a lexeme is the front of the text.** -/
theorem spelling_prefix_of_first {c : Char} {rest : List Char} {x : Lexeme}
    (h : first c rest = .ok x) : x.spelling <+: c :: rest := by
  unfold first at h
  split at h
  · cases h; exact List.takeWhile_prefix _
  split at h
  · cases h; exact List.takeWhile_prefix _
  split at h
  · unfold blockComment at h
    split at h
    · cases h; exact List.take_prefix _ _
    · cases h
  split at h
  · next hc => subst hc; exact string_spelling_prefix h
  split at h
  · next hc => subst hc; exact backtickedName_spelling_prefix h
  split at h
  · cases h; exact number_spelling_prefix _
  split at h
  · cases h; exact ⟨rest, rfl⟩
  split at h
  · cases h; exact operatorRun_prefix _
  split at h
  · cases h; exact List.takeWhile_prefix _
  · cases h

/-- **A lexeme is spelled by at least one character.** -/
theorem spelling_ne_nil_of_first {c : Char} {rest : List Char} {x : Lexeme}
    (h : first c rest = .ok x) : x.spelling ≠ [] := by
  unfold first at h
  split at h
  · next hc => cases h; simp [blanks, hc]
  split at h
  · next hc => cases h; obtain ⟨rfl, -⟩ := hc; simp [lineComment, isLineEnd]
  split at h
  · unfold blockComment at h
    split at h
    · next n hn =>
        cases h
        have := taken_lt_blockLength hn
        cases n with
        | zero => omega
        | succ n => simp
    · cases h
  split at h
  · unfold string at h
    split at h
    · cases h; simp
    all_goals cases h
  split at h
  · unfold backtickedName at h
    split at h
    · cases h
    split at h
    · cases h; simp
    · cases h
  split at h
  · next hc =>
      cases h
      have hn : isNumberChar c = true := by simp [isNumberChar, hc]
      unfold number
      split
      · split <;> simp [hn]
      · simp [hn]
  split at h
  · cases h; simp
  split at h
  · next hslash hstar _ _ _ _ _ hop =>
      cases h
      have hopen : opensComment c rest.head? = false := by
        simp only [opensComment, Bool.and_eq_false_iff, beq_eq_false_iff_ne, Bool.or_eq_false_iff]
        by_cases hc : c = '/'
        · exact .inr ⟨fun e => hslash ⟨hc, e⟩, fun e => hstar ⟨hc, e⟩⟩
        · exact .inl hc
      simp [operator, operatorRun, hop, hopen]
  split at h
  · next hw =>
      cases h
      simp [word, continuesWord_of_startsWord hw]
  · cases h

end Lexeme

end ExprFront
