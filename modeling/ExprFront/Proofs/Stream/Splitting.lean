/-
# Texts that split into lexemes

`Splits` relates a text to the lexemes that it splits into, one behind the other.  `SplitsOff` is
the same for a text that they leave a rest of.  Lexemes come off every text until nothing is left or
the rest is refused, so these are the two ways in which scanning a text ends.

The main facts are `Token.tokenize_eq_ok_iff`, that tokenizing a source is splitting its characters
and placing the lexemes, with the end of input behind them, and `Token.scan_eq_error_iff`, that a
text is refused exactly if lexemes come off its front and the rest is refused.
-/
import ExprFront.Token.Stream
import ExprFront.Proofs.Lexeme.Reading
import ExprFront.Proofs.Lexeme.Refusal

namespace ExprFront

/-! ## Splitting -/

/-- The text splits into the lexemes. -/
inductive Splits : List Char → List Lexeme → Prop
  | nil : Splits [] []
  | cons {c : Char} {text rest : List Char} {x : Lexeme} {xs : List Lexeme}
      (first : Lexeme.Begins c text x) (spelled : c :: text = x.spelling ++ rest)
      (tail : Splits rest xs) : Splits (c :: text) (x :: xs)

/-- The lexemes come off the front of the text, one behind the other, and leave the rest. -/
inductive SplitsOff : List Char → List Lexeme → List Char → Prop
  | nil (rest : List Char) : SplitsOff rest [] rest
  | cons {c : Char} {text tail rest : List Char} {x : Lexeme} {xs : List Lexeme}
      (first : Lexeme.Begins c text x) (spelled : c :: text = x.spelling ++ tail)
      (further : SplitsOff tail xs rest) : SplitsOff (c :: text) (x :: xs) rest

/-- What leaves nothing splits. -/
theorem SplitsOff.splits_of_nil {text rest : List Char} {xs : List Lexeme}
    (h : SplitsOff text xs rest) (hrest : rest = []) : Splits text xs := by
  induction h with
  | nil rest =>
      rw [hrest]
      exact .nil
  | cons first spelled further ih => exact .cons first spelled (ih hrest)

/-- The text that a lexeme leaves is what stands behind its spelling. -/
theorem Lexeme.Begins.append_drop {c : Char} {rest : List Char} {x : Lexeme}
    (h : Lexeme.Begins c rest x) :
    c :: rest = x.spelling ++ (c :: rest).drop x.spelling.length :=
  List.prefix_iff_eq_append.1 (Lexeme.spelling_prefix_of_first (Lexeme.first_eq_ok_iff.2 h)) |>.symm

/-- **Lexemes come off every text** until nothing is left or the rest is refused. -/
theorem exists_splitsOff (text : List Char) :
    ∃ xs rest, SplitsOff text xs rest ∧
      (rest = [] ∨ ∃ cause before, Lexeme.Refuses rest cause cause.message before) := by
  induction hn : text.length using Nat.strongRecOn generalizing text with
  | ind n ih =>
      cases text with
      | nil => exact ⟨[], [], .nil [], .inl rfl⟩
      | cons c text =>
          cases hx : Lexeme.first c text with
          | error f =>
              exact ⟨[], _, .nil _, .inr ⟨f.cause, f.before, Lexeme.first_eq_error_iff.1 hx⟩⟩
          | ok x =>
              have hlt : ((c :: text).drop x.spelling.length).length < n := by
                have := List.length_pos_iff.2 (Lexeme.spelling_ne_nil_of_first hx)
                simp only [List.length_drop, ← hn, List.length_cons]
                omega
              obtain ⟨xs, rest, hsplits, hrest⟩ := ih _ hlt _ rfl
              have hbegins := Lexeme.first_eq_ok_iff.1 hx
              exact ⟨x :: xs, rest, .cons hbegins hbegins.append_drop hsplits, hrest⟩

/-! ## Placing -/

/-- The tokens of the lexemes where the first of them starts at `p`. -/
def Token.placed (p : Place) : List Lexeme → List Token
  | [] => [⟨.endOfInput, p.to p⟩]
  | x :: xs =>
      ⟨x.kind, p.to (p.after x.spelling)⟩ :: Token.placed (p.after x.spelling) xs

/-- Placing keeps the kinds. -/
theorem Token.map_kind_placed (p : Place) (xs : List Lexeme) :
    (Token.placed p xs).map (·.kind) = xs.map (·.kind) ++ [.endOfInput] := by
  induction xs generalizing p with
  | nil => rfl
  | cons x xs ih => simp [Token.placed, ih]

/-- The place behind the lexemes, if the first of them starts at `p`. -/
def Place.behind (p : Place) (xs : List Lexeme) : Place :=
  xs.foldl (fun p x => p.after x.spelling) p

/-! ## Scanning -/

/-- A text that splits is accepted. -/
theorem Token.scan_of_splits {text : List Char} {xs : List Lexeme} (h : Splits text xs)
    (p : Place) : Token.scan p [] text = .ok (Token.placed p xs) := by
  induction h generalizing p with
  | nil => rw [Token.scan_nil]; rfl
  | @cons c text rest x xs hfirst hspelled tail ih =>
      rw [Token.scan_cons_of_ok (Lexeme.first_eq_ok_iff.2 hfirst), Token.scan_eq_map, hspelled,
        List.drop_left, ih]
      rfl

/-- What is refused behind lexemes is refused where they lead. -/
theorem Token.scan_of_splitsOff {text rest : List Char} {xs : List Lexeme} {cause : LexicalCause}
    {words : String} {before : Nat} (h : SplitsOff text xs rest)
    (hrest : Lexeme.Refuses rest cause words before) (p : Place) :
    Token.scan p [] text = .error ⟨cause, (p.behind xs).location.after (rest.take before)⟩ := by
  induction h generalizing p with
  | nil rest =>
      cases rest with
      | nil => cases hrest
      | cons c rest =>
          exact Token.scan_cons_of_error (f := ⟨cause, before⟩) hrest.first_eq.1
  | @cons c text tail rest x xs first hspelled further ih =>
      rw [Token.scan_cons_of_ok (Lexeme.first_eq_ok_iff.2 first), Token.scan_eq_map, hspelled,
        List.drop_left, ih hrest]
      rfl

/-- **A text is accepted exactly if it splits**, and its tokens are the placed lexemes. -/
theorem Token.scan_eq_ok_iff {p : Place} {text : List Char} {tokens : List Token} :
    Token.scan p [] text = .ok tokens ↔ ∃ xs, Splits text xs ∧ tokens = Token.placed p xs := by
  constructor
  · intro h
    obtain ⟨xs, rest, hsplits, hnil | ⟨cause, before, hrest⟩⟩ := exists_splitsOff text
    · have hwhole := hsplits.splits_of_nil hnil
      rw [Token.scan_of_splits hwhole] at h
      cases h
      exact ⟨xs, hwhole, rfl⟩
    · rw [Token.scan_of_splitsOff hsplits hrest] at h
      cases h
  · rintro ⟨xs, hsplits, rfl⟩
    exact Token.scan_of_splits hsplits p

/-- **A text is refused exactly if lexemes come off its front and the rest is refused.** -/
theorem Token.scan_eq_error_iff {p : Place} {text : List Char} {e : LexicalError} :
    Token.scan p [] text = .error e ↔
      ∃ xs rest before, SplitsOff text xs rest ∧ Lexeme.Refuses rest e.cause e.message before ∧
        e.location = (p.behind xs).location.after (rest.take before) := by
  constructor
  · intro h
    obtain ⟨xs, rest, hsplits, hnil | ⟨cause, before, hrest⟩⟩ := exists_splitsOff text
    · rw [Token.scan_of_splits (hsplits.splits_of_nil hnil)] at h
      cases h
    · rw [Token.scan_of_splitsOff hsplits hrest] at h
      cases h
      exact ⟨xs, rest, before, hsplits, hrest, rfl⟩
  · obtain ⟨cause, location⟩ := e
    rintro ⟨xs, rest, before, hsplits, hrest, rfl⟩
    exact Token.scan_of_splitsOff hsplits hrest p

/-- **Tokenizing is splitting and placing.** -/
theorem Token.tokenize_eq_ok_iff {source : String} {tokens : List Token} :
    Token.tokenize source = .ok tokens ↔
      ∃ xs, Splits source.toList xs ∧ tokens = Token.placed .start xs :=
  Token.scan_eq_ok_iff

/-- The kinds of the tokens of a source are those of its lexemes, and the end of input. -/
theorem Token.exists_tokens_iff {source : String} {kinds : List Kind} :
    (∃ tokens, Token.tokenize source = .ok tokens ∧ tokens.map (·.kind) = kinds) ↔
      ∃ xs, Splits source.toList xs ∧ kinds = xs.map (·.kind) ++ [.endOfInput] := by
  constructor
  · rintro ⟨tokens, htokens, rfl⟩
    obtain ⟨xs, hsplits, rfl⟩ := Token.tokenize_eq_ok_iff.1 htokens
    exact ⟨xs, hsplits, Token.map_kind_placed .start xs⟩
  · rintro ⟨xs, hsplits, rfl⟩
    exact ⟨_, Token.tokenize_eq_ok_iff.2 ⟨xs, hsplits, rfl⟩, Token.map_kind_placed .start xs⟩

end ExprFront
