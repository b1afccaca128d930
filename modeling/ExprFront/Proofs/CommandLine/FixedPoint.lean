/-
# Replies that read themselves

A command that reads a node writes its text first, on a line of its own, and then its outline.  The
text is one line and is read as the same node, so the command gives the same reply to that line,
with or without a line break behind it.  The main fact is `Reply.fixed_point`.
-/
import Mathlib
import ExprFront.CommandLine.Reply
import ExprFront.Proofs.RoundTrip.Line

namespace ExprFront

variable {α : Type} {entry : Entry α} {language : List Kind → α → Prop} {text : α → String}
  {outline : α → Outline} {source : String} {verbose : Bool}
  {read : List String → Option Request}

/-! ## The first line -/

/-- The standard output up to its first line break. -/
def Reply.firstLine (r : Reply) : String :=
  String.ofList (r.stdout.toList.takeWhile (· != '\n'))

/-- The text of the node that the command reads from a source, if it reads one. -/
def Command.rendering? (source : String) : Command → Option String
  | .tokens => none
  | .expression => (Entry.expression.parseSource source).toOption.map Expression.text
  | .expressionList => (Entry.expressionList.parseSource source).toOption.map Expression.textList
  | .pattern => (Entry.pattern.parseSource source).toOption.map Pattern.text

/-- A text without a line break is the first line of what begins with it and a line break. -/
theorem Reply.firstLine_success {line : String} (h : '\n' ∉ line.toList) (rest : String) :
    (Reply.success (line ++ "\n" ++ rest)).firstLine = line := by
  have hall : ∀ c ∈ line.toList, (c != '\n') = true := by
    intro c hc
    rw [bne_iff_ne]
    rintro rfl
    exact h hc
  have hbreak : Stops (· != '\n') ('\n' :: rest.toList) := stops_cons.2 rfl
  have hline : (line ++ "\n" ++ rest).toList.takeWhile (· != '\n') = line.toList := by
    rw [String.toList_append, String.toList_append, List.append_assoc]
    exact takeWhile_append_of_stops hall hbreak
  show String.ofList ((line ++ "\n" ++ rest).toList.takeWhile _) = line
  rw [hline, String.ofList_toList]

/-! ## Commands -/

/-- Only a node is replied to with status 0. -/
theorem Reply.exists_of_exit_ofNode {result : Except ParseError α}
    (h : (Reply.ofNode verbose text outline result).exit = 0) : ∃ v, result = .ok v := by
  cases result with
  | ok v => exact ⟨v, rfl⟩
  | error e =>
      have hfailure : (Reply.ofNode verbose text outline (.error e)).exit = 1 := by
        show (if verbose ∧ e.expected?.isSome then failure _ else failure _).exit = 1
        split <;> rfl
      rw [hfailure] at h
      cases h

/-- What the command answers, if it reads a node: the text of the node on the first line, and the
same answer again to that line. -/
structure Reply.ReadsItself (command : Command) (source : String) (r : Reply) : Prop where
  rendering : command.rendering? source = some r.firstLine
  onOneLine : '\n' ∉ r.firstLine.toList ∧ '\r' ∉ r.firstLine.toList ∧ '\t' ∉ r.firstLine.toList
  stdout_eq : ∃ rest, r.stdout = r.firstLine ++ "\n" ++ rest
  stderr_eq : r.stderr = ""
  again : ∀ verbose, ∀ ending ∈ ["", "\n"], command.reply verbose (r.firstLine ++ ending) = r

/-- **An entry that prints what it reads replies with a line that it replies to alike.** -/
theorem Entry.Prints.readsItself (h : entry.Prints language text) {command : Command}
    (hreply : ∀ verbose source, command.reply verbose source =
      .ofNode verbose text outline (entry.parseSource source))
    (hrendering : command.rendering? source = (entry.parseSource source).toOption.map text)
    (hexit : (command.reply verbose source).exit = 0) :
    (command.reply verbose source).ReadsItself command source := by
  rw [hreply] at hexit ⊢
  obtain ⟨v, hv⟩ := Reply.exists_of_exit_ofNode hexit
  obtain ⟨hline, hagain, hbroken⟩ := h.parseSource_line hv
  have hfirst : (Reply.ofNode verbose text outline (.ok v)).firstLine = text v := by
    show (Reply.success (text v ++ "\n" ++ (outline v).indented 0 ++ "\n")).firstLine = text v
    rw [String.append_assoc]
    exact Reply.firstLine_success hline.notMem.1 _
  rw [hv]
  refine ⟨?_, ?_, ?_, rfl, ?_⟩
  · rw [hrendering, hv, hfirst]
    rfl
  · rw [hfirst]
    exact hline.notMem
  · refine ⟨(outline v).indented 0 ++ "\n", ?_⟩
    rw [hfirst, ← String.append_assoc]
    rfl
  · intro verbose ending hending
    rw [hreply, hfirst]
    rcases List.mem_pair.1 hending with rfl | rfl
    · rw [String.append_empty, hagain]
      rfl
    · rw [hbroken]
      rfl

/-- **What a command writes about a node it writes about that node's text as well.** -/
theorem Command.readsItself_reply {command : Command} (hcommand : command ≠ .tokens)
    (hexit : (command.reply verbose source).exit = 0) :
    (command.reply verbose source).ReadsItself command source := by
  cases command with
  | tokens => exact absurd rfl hcommand
  | expression =>
      exact Entry.prints_expression.readsItself (fun _ _ => rfl) rfl hexit
  | expressionList =>
      exact Entry.prints_expressionList.readsItself (fun _ _ => rfl) rfl hexit
  | pattern => exact Entry.prints_pattern.readsItself (fun _ _ => rfl) rfl hexit

/-! ## Files -/

/-- A file that holds the text of a source is read as that source. -/
theorem fromUTF8?_toUTF8 (source : String) : String.fromUTF8? source.toUTF8 = some source := by
  unfold String.fromUTF8?
  split
  · rfl
  · next h => exact absurd source.isValidUTF8 h

/-- A command over a file replies as it does over the source that the file holds. -/
theorem Reply.ofArguments_file {args : List String} {command : Command} {path : String}
    (hargs : read args = some (.run verbose command (.file path))) (source : String) :
    Reply.ofArguments read args (.bytes source.toUTF8) = command.reply verbose source := by
  rw [ofArguments, hargs]
  show command.replyToFile verbose path (.bytes source.toUTF8) = _
  rw [Command.replyToFile, fromUTF8?_toUTF8]

/-- What does not begin with a dash is a value. -/
theorem Argument.ofString_of_head {text : String} (h : text.toList.head? ≠ some '-') :
    Argument.ofString text = .value text := by
  unfold ofString
  split
  · next heq => rw [heq] at h; exact absurd rfl h
  · next heq => rw [heq] at h; exact absurd rfl h
  · next heq => rw [heq] at h; exact absurd rfl h
  · rfl

/-- The name of a command, `--file` and a path ask for what the command answers about that file. -/
theorem Request.ofArguments?_file {name path : String} {command : Command}
    (hname : Command.ofName? name = some command) (hpath : path.toList.head? ≠ some '-') :
    Request.ofArguments? [name, "--file", path] = some (.run false command (.file path)) := by
  have hvalue : Argument.ofString name = .value name := by
    unfold Command.ofName? at hname
    split at hname <;> first | rfl | cases hname
  have hfile : Argument.ofString "--file" = .long "file" none := by decide
  have hoptions : readOptions ⟨false, none, none⟩ ["--file", path] =
      .ok ⟨false, none, some path⟩ := by
    simp [readOptions, hfile, Argument.ofString_of_head hpath, readFile]
  simp [ofArguments?, readCommand, hvalue, hname, hoptions, ofOptions]

/-- **Replies read themselves.**  However arguments are read, a command that reads a node from a
file and ends with status 0 writes the text of the node on its first line, which holds neither line
breaks nor tabs.  Over a file with just that line, with or without its line break, it gives the same
reply. -/
theorem Reply.fixed_point {args : List String} {command : Command} {path : String}
    (hargs : read args = some (.run verbose command (.file path)))
    (hcommand : command ≠ .tokens)
    (hexit : (Reply.ofArguments read args (.bytes source.toUTF8)).exit = 0) :
    let r := Reply.ofArguments read args (.bytes source.toUTF8)
    command.rendering? source = some r.firstLine ∧
      ('\n' ∉ r.firstLine.toList ∧ '\r' ∉ r.firstLine.toList ∧ '\t' ∉ r.firstLine.toList) ∧
      (∃ rest, r.stdout = r.firstLine ++ "\n" ++ rest) ∧ r.stderr = "" ∧
      ∀ args' verbose' path',
        read args' = some (.run verbose' command (.file path')) → ∀ ending ∈ ["", "\n"],
          Reply.ofArguments read args' (.bytes (r.firstLine ++ ending).toUTF8) = r := by
  rw [Reply.ofArguments_file hargs] at hexit ⊢
  have hreads := Command.readsItself_reply hcommand hexit
  refine ⟨hreads.rendering, hreads.onOneLine, hreads.stdout_eq, hreads.stderr_eq, ?_⟩
  intro args' verbose' path' hargs' ending hending
  rw [Reply.ofArguments_file hargs']
  exact hreads.again verbose' ending hending

/-- The first line has neither the comment nor the line break of the file, and the raw tab of the
string has become an escape.  A file with just that line has the same reply. -/
theorem Reply.fixed_point_call :
    let source := "f(\"\t\", // the rest\n  b)"
    let line := "f(\"\\t\", b)"
    let args := ["expr", "--file", "calls/f"]
    let reply (text : String) := Reply.ofArguments Request.ofArguments? args (.bytes text.toUTF8)
    Request.ofArguments? args = some (.run false .expression (.file "calls/f")) ∧
      (reply source).exit = 0 ∧ (reply source).firstLine = line ∧
      reply line = reply source ∧ reply (line ++ "\n") = reply source := by
  intro source line args reply
  have hargs : Request.ofArguments? args = some (.run false .expression (.file "calls/f")) :=
    Request.ofArguments?_file rfl (by decide)
  have haccepted : Entry.expression.parseSource source =
      .ok (.plain (.call (.name (.plain "f"))
        [.plain (.literal (.string "\t")), .plain (.name (.plain "b"))])) := by cbv
  have hexit : (reply source).exit = 0 := by
    show (Reply.ofArguments _ args (.bytes source.toUTF8)).exit = 0
    rw [Reply.ofArguments_file hargs, Command.reply, haccepted]
    rfl
  obtain ⟨hrendering, -, -, -, hagain⟩ := Reply.fixed_point hargs (by decide) hexit
  have hfirst : (reply source).firstLine = line := by
    rw [Command.rendering?, haccepted] at hrendering
    refine (Option.some.inj hrendering).symm.trans ?_
    decide +kernel
  rw [hfirst] at hagain
  exact ⟨hargs, hexit, hfirst, hagain args false "calls/f" hargs "" (by simp),
    hagain args false "calls/f" hargs "\n" (by simp)⟩

end ExprFront
