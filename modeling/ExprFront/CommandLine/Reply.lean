/-
# Replies on the command line

A reply is an exit status and what is written to the two output streams.  A request that succeeds
writes to standard output only and ends with status 0.  One that fails writes its error only and
ends with status 1.  Arguments that make no request end with status 2.

Which request the arguments of a call make is for a reader of arguments to say, so what is said
about replies holds for any reader.  The program has `Request.ofArguments?`.
-/
import ExprFront.CommandLine.Request
import ExprFront.Listing.Nodes
import ExprFront.Session

namespace ExprFront

/-- An exit status and the texts of both output streams. -/
structure Reply where
  exit : Nat
  stdout : String
  stderr : String
  deriving DecidableEq, Repr

/-- What is found at a path. -/
inductive FileContent where
  | missing
  | unreadable (reason : String)
  | bytes (content : ByteArray)

/-! ## Listings -/

/-- The line of a token listing. -/
def Token.listing (t : Token) : String :=
  s!"{t.kind.outline.compact} {t.span.location.line}:{t.span.location.column} " ++
    s!"[{t.span.start}..{t.span.stop}]"

namespace Reply

/-- The reply of a success. -/
def success (output : String) : Reply := ⟨0, output, ""⟩

/-- The reply of a failure. -/
def failure (message : String) : Reply := ⟨1, "", message ++ "\n"⟩

/-- How to call the program. -/
def usage : String :=
  "Usage: arbor [-v] <tokens|expr|list|pattern> <SOURCE | --file FILE>\n"

/-- The reply to arguments that make no request. -/
def misuse : Reply := ⟨2, "", usage⟩

end Reply

/-! ## Commands -/

/-- The rendering of a node and its outline, or the error.  With `verbose` a failure of the grammar
is logged before it is reported; what stands for it in the text is `Event.text`, whose format is one
of this library. -/
def Reply.ofNode {α : Type} (verbose : Bool) (text : α → String) (outline : α → Outline) :
    Except ParseError α → Reply
  | .ok node => .success (text node ++ "\n" ++ (outline node).indented 0 ++ "\n")
  | .error e =>
      if verbose ∧ e.expected?.isSome then
        .failure ((Event.failed e).text ++ "\n" ++ e.display)
      else .failure e.display

/-- What a command answers about a source. -/
def Command.reply (verbose : Bool) (source : String) : Command → Reply
  | .tokens =>
      match Token.tokenize source with
      | .ok ts => .success (String.join (ts.map fun t => t.listing ++ "\n"))
      | .error e => .failure e.display
  | .expression =>
      .ofNode verbose Expression.text Expression.outline (Entry.expression.parseSource source)
  | .expressionList =>
      .ofNode verbose Expression.textList (fun es => .sequence (Expression.outlines es))
        (Entry.expressionList.parseSource source)
  | .pattern => .ofNode verbose Pattern.text Pattern.outline (Entry.pattern.parseSource source)

/-! ## Requests -/

/-- What a command answers about a file. -/
def Command.replyToFile (verbose : Bool) (path : String) (command : Command) :
    FileContent → Reply
  | .missing => .failure ("Error: file not found: " ++ path)
  | .unreadable reason => .failure ("Error reading " ++ path ++ ": " ++ reason)
  | .bytes content =>
      match String.fromUTF8? content with
      | some source => command.reply verbose source
      | none => .failure ("Error reading " ++ path ++ ": stream did not contain valid UTF-8")

/-- The reply to a request, where `content` is what is found at the path that it names. -/
def Request.reply (content : FileContent) : Request → Reply
  | .version => .success "arbor 0.3.0\n"
  | .help => .success Reply.usage
  | .run verbose command (.inline source) => command.reply verbose source
  | .run verbose command (.file path) => command.replyToFile verbose path content

section Reader

variable (read : List String → Option Request)

/-- The path of the file that the arguments ask to read, if they do. -/
def Request.pathOf? (args : List String) : Option String :=
  match read args with
  | some (.run _ _ (.file path)) => some path
  | _ => none

/-- The reply to the arguments of a call, where `content` is what is found at the path in them. -/
def Reply.ofArguments (args : List String) (content : FileContent) : Reply :=
  match read args with
  | some request => request.reply content
  | none => .misuse

end Reader

end ExprFront
