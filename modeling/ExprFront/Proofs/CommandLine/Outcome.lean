/-
# What a call comes to

A command is handed a source in place or in a file, and it makes no difference which.  It either
ends with status 0 and reports nothing, or ends with status 1, prints nothing and reports one error.
A source that cannot be split into tokens is reported by every command at the same place and in the
same words.  A source that can be split is listed line by line, and the lines tell the tokens.

The main fact is `Reply.whole_and_lossless`.
-/
import Mathlib
import ExprFront.Proofs.CommandLine.FixedPoint
import ExprFront.Proofs.Listing.Tokens

namespace ExprFront

variable {α ε : Type} {source : String} {command : Command} {args : List String}
  {content : FileContent} {read : List String → Option Request}

/-! ## Handing a source to a command -/

/-- The arguments, and what is found at the path in them, hand a source to a command: in place, or
in a file with the text of the source.  No log is asked for. -/
inductive Request.Hands (read : List String → Option Request) (command : Command)
    (source : String) : List String → FileContent → Prop
  | inline {args : List String} {content : FileContent}
      (h : read args = some (.run false command (.inline source))) :
      Hands read command source args content
  | file {args : List String} {path : String}
      (h : read args = some (.run false command (.file path))) :
      Hands read command source args (.bytes source.toUTF8)

/-- **The program can be handed every source for every command**, in a file with whatever path. -/
theorem Request.hands_file {name path : String} (hname : Command.ofName? name = some command)
    (hpath : path.toList.head? ≠ some '-') (source : String) :
    Request.Hands ofArguments? command source [name, "--file", path] (.bytes source.toUTF8) :=
  .file (Request.ofArguments?_file hname hpath)

/-- However a source is handed to a command, the command replies to the source. -/
theorem Request.Hands.reply_eq (h : Request.Hands read command source args content) :
    Reply.ofArguments read args content = command.reply false source := by
  cases h with
  | inline hargs =>
      rw [Reply.ofArguments, hargs]
      rfl
  | file hargs => exact Reply.ofArguments_file hargs source

/-! ## Errors -/

/-- The error of a result, as it is displayed, if there is one. -/
def displayed (display : ε → String) : Except ε α → Option String
  | .ok _ => none
  | .error e => some (display e)

/-- The error that a command has to report about a source, as it is displayed, if there is one. -/
def Command.refusal? (source : String) : Command → Option String
  | .tokens => displayed LexicalError.display (Token.tokenize source)
  | .expression => displayed ParseError.display (Entry.expression.parseSource source)
  | .expressionList => displayed ParseError.display (Entry.expressionList.parseSource source)
  | .pattern => displayed ParseError.display (Entry.pattern.parseSource source)

/-- What a displayed error begins with. -/
def Command.stage : Command → String
  | .tokens => "Lexer"
  | _ => "Parse"

/-- What a displayed error says behind its first word. -/
def LexicalError.report (e : LexicalError) : String :=
  s!" error at line {e.location.line}, column {e.location.column}: {e.message}"

/-- A lexical error that is displayed as such. -/
theorem LexicalError.display_eq (e : LexicalError) : e.display = "Lexer" ++ e.report := by
  have hword : "Lexer error at line " = "Lexer" ++ " error at line " := by decide
  unfold display report
  simp only [toString]
  rw [hword]
  simp only [String.append_assoc]

/-- A lexical error that is displayed as a parse error. -/
theorem ParseError.display_ofLexical (e : LexicalError) :
    (ParseError.ofLexical e).display = "Parse" ++ e.report := by
  have hword : "Parse error at line " = "Parse" ++ " error at line " := by decide
  unfold display LexicalError.report
  simp only [toString]
  rw [hword]
  simp only [String.append_assoc]
  rfl

/-- **Every command reports a lexical error**, and all of them at the same place in the same
words. -/
theorem Command.refusal?_of_error {e : LexicalError} (h : Token.tokenize source = .error e)
    (command : Command) : command.refusal? source = some (command.stage ++ e.report) := by
  have hentry {β : Type} (entry : Entry β) :
      displayed ParseError.display (entry.parseSource source) = some ("Parse" ++ e.report) := by
    rw [Entry.parseSource, h, ← ParseError.display_ofLexical]
    rfl
  cases command with
  | tokens =>
      rw [refusal?, h, stage, ← LexicalError.display_eq]
      rfl
  | expression => exact hentry .expression
  | expressionList => exact hentry .expressionList
  | pattern => exact hentry .pattern

/-! ## Whole replies -/

/-- A reply is whole: with nothing to report it succeeds and writes nothing to standard error; with
an error to report it fails and writes just the error, on standard error. -/
def Reply.IsWhole (r : Reply) : Option String → Prop
  | none => r.exit = 0 ∧ r.stderr = ""
  | some text => r.exit = 1 ∧ r.stdout = "" ∧ r.stderr = text ++ "\n"

/-- The reply about a node is whole, as long as nothing is logged. -/
theorem Reply.isWhole_ofNode (text : α → String) (outline : α → Outline)
    (result : Except ParseError α) :
    (Reply.ofNode false text outline result).IsWhole (displayed ParseError.display result) := by
  cases result with
  | ok node => exact ⟨rfl, rfl⟩
  | error e =>
      have hlog : ¬(false = true ∧ e.expected?.isSome = true) := by simp
      rw [ofNode, if_neg hlog]
      exact ⟨rfl, rfl, rfl⟩

/-- **What a command replies is whole.** -/
theorem Command.isWhole_reply (command : Command) (source : String) :
    (command.reply false source).IsWhole (command.refusal? source) := by
  cases command with
  | tokens =>
      rw [reply, refusal?]
      cases Token.tokenize source with
      | ok tokens => exact ⟨rfl, rfl⟩
      | error e => exact ⟨rfl, rfl, rfl⟩
  | expression => exact Reply.isWhole_ofNode _ _ _
  | expressionList => exact Reply.isWhole_ofNode _ _ _
  | pattern => exact Reply.isWhole_ofNode _ _ _

/-! ## The listing of the tokens -/

/-- The lines that list tokens. -/
def Token.lines (tokens : List Token) : String :=
  String.join (tokens.map fun t => t.listing ++ "\n")

/-- What is listed of a source that splits. -/
theorem Command.reply_tokens {verbose : Bool} {tokens : List Token}
    (h : Token.tokenize source = .ok tokens) :
    Command.tokens.reply verbose source = .success (Token.lines tokens) := by
  rw [reply, h]
  rfl

/-- The command `tokens` refuses just what cannot be split. -/
theorem Command.exit_tokens_iff {verbose : Bool} :
    (Command.tokens.reply verbose source).exit = 1 ↔ ∃ e, Token.tokenize source = .error e := by
  rw [reply]
  cases Token.tokenize source with
  | ok tokens =>
      refine iff_of_false Nat.zero_ne_one ?_
      rintro ⟨e, he⟩
      cases he
  | error e => exact iff_of_true rfl ⟨e, rfl⟩

/-- There is a token, if only the end of input. -/
theorem Token.ne_nil_of_tokenize {tokens : List Token} (h : Token.tokenize source = .ok tokens) :
    tokens ≠ [] := by
  obtain ⟨xs, -, rfl⟩ := Token.tokenize_eq_ok_iff.1 h
  intro hnil
  have hkinds := Token.map_kind_placed .start xs
  rw [hnil] at hkinds
  simp at hkinds

/-- **The lines tell the tokens.**  A source whose listing is that of some tokens has these
tokens. -/
theorem Token.tokenize_of_stdout {tokens : List Token} (hne : tokens ≠ [])
    (h : (Command.tokens.reply false source).stdout = Token.lines tokens) :
    Token.tokenize source = .ok tokens := by
  cases htokens : Token.tokenize source with
  | ok found =>
      rw [Command.reply_tokens htokens] at h
      rw [Token.join_listing_inj h]
  | error e =>
      -- Nothing is listed, but there is a token.
      have hempty : (Command.tokens.reply false source).stdout = "" := by
        rw [Command.reply, htokens]
        rfl
      rw [hempty] at h
      have hnone : Token.lines [] = Token.lines tokens := h
      exact absurd (Token.join_listing_inj hnone).symm hne

/-! ## Main statement -/

/-- **Commands are all or nothing, and the listing of tokens loses nothing.**  However arguments are
read and a source is handed to a command, the reply is the same.  It is either a success without a
report or a failure that prints nothing and reports the error.  A source that cannot be split into
tokens is refused by every command, by each at the same place and in the same words, and `tokens`
refuses no other.  On success `tokens` prints a line for each token in order; the lines hold no line
breaks of their own, and no source with other tokens has the same lines. -/
theorem Reply.whole_and_lossless (h : Request.Hands read command source args content) :
    let r := Reply.ofArguments read args content
    ((r.exit = 0 ∧ r.stderr = "" ∧ command.refusal? source = none) ∨
      ∃ text, command.refusal? source = some text ∧
        r.exit = 1 ∧ r.stdout = "" ∧ r.stderr = text ++ "\n") ∧
    (∀ args' content', Request.Hands read command source args' content' →
      Reply.ofArguments read args' content' = r) ∧
    (∀ e, Token.tokenize source = .error e →
      r.exit = 1 ∧ r.stderr = command.stage ++ e.report ++ "\n") ∧
    (command = .tokens →
      (r.exit = 1 ↔ ∃ e, Token.tokenize source = .error e) ∧
      ∀ tokens, Token.tokenize source = .ok tokens →
        r.stdout = String.join (tokens.map fun t => t.listing ++ "\n") ∧
        (∀ t ∈ tokens, '\n' ∉ t.listing.toList ∧ '\r' ∉ t.listing.toList) ∧
        ∀ source' args' content', Request.Hands read .tokens source' args' content' →
          (Reply.ofArguments read args' content').stdout = r.stdout →
          Token.tokenize source' = .ok tokens) := by
  intro r
  have hreply : r = command.reply false source := h.reply_eq
  have hwhole : r.IsWhole (command.refusal? source) := hreply ▸ command.isWhole_reply source
  refine ⟨?_, fun args' content' h' => h'.reply_eq.trans hreply.symm, ?_, ?_⟩
  · cases hrefusal : command.refusal? source with
    | none =>
        rw [hrefusal] at hwhole
        exact .inl ⟨hwhole.1, hwhole.2, rfl⟩
    | some text =>
        rw [hrefusal] at hwhole
        exact .inr ⟨text, rfl, hwhole⟩
  · intro e he
    rw [Command.refusal?_of_error he] at hwhole
    exact ⟨hwhole.1, hwhole.2.2⟩
  · rintro rfl
    refine ⟨hreply ▸ Command.exit_tokens_iff, fun tokens htokens => ?_⟩
    rw [hreply, Command.reply_tokens htokens]
    refine ⟨rfl, fun t _ => ?_, fun source' args' content' h' hstdout => ?_⟩
    · have hline := t.onOneLine_listing.notMem
      exact ⟨hline.1, hline.2.1⟩
    · rw [h'.reply_eq] at hstdout
      exact Token.tokenize_of_stdout (Token.ne_nil_of_tokenize htokens) hstdout

/-- A name and a line break in a file are listed on three lines, and so they are if they stand in
the arguments. -/
theorem Reply.whole_and_lossless_name :
    let args := ["tokens", "--file", "names/a"]
    let content := FileContent.bytes "a\n".toUTF8
    let reply := Reply.ofArguments Request.ofArguments?
    Request.Hands Request.ofArguments? .tokens "a\n" args content ∧
      (reply args content).stdout =
        "Identifier \x7b name: \"a\", backticked: false \x7d 1:1 [0..1]\n" ++
          "Whitespace(\"\\n\") 1:2 [1..2]\n" ++ "Eof 2:1 [2..2]\n" ∧
      reply ["tokens", "a\n"] .missing = reply args content := by
  intro args content reply
  have hargs : Request.Hands Request.ofArguments? .tokens "a\n" args content :=
    Request.hands_file rfl (by decide) "a\n"
  have hinline : Request.Hands Request.ofArguments? .tokens "a\n" ["tokens", "a\n"] .missing :=
    .inline (by decide)
  have htokens : Token.tokenize "a\n" =
      .ok [⟨.identifier (.plain "a"), ⟨0, 1, ⟨1, 1⟩⟩⟩, ⟨.whitespace "\n", ⟨1, 2, ⟨1, 2⟩⟩⟩,
        ⟨.endOfInput, ⟨2, 2, ⟨2, 1⟩⟩⟩] := by cbv
  obtain ⟨-, hsame, -, hlisting⟩ := Reply.whole_and_lossless hargs
  obtain ⟨-, hlist⟩ := hlisting rfl
  refine ⟨hargs, (hlist _ htokens).1.trans ?_, hsame _ _ hinline⟩
  decide +kernel

end ExprFront
