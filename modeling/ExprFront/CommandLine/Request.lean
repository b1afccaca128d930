/-
# Requests on the command line

```text
tokens | expr | list | pattern   (source | --file path)   with -v or --verbose anywhere
```

Arguments are read in order, and the first that is at fault, or that asks for help or the version,
decides.  A separator `--` ends the options; a single `-` is a value.  The flag may be given once
before the command and once behind it, the file once behind it, and the version is asked for before
the command only.  This is how the program reads its arguments; replies are defined over any way to
read them.
-/

namespace ExprFront

/-! ## Requests -/

/-- What to do with a source. -/
inductive Command where
  | tokens | expression | expressionList | pattern
  deriving DecidableEq, Repr

/-- Where a source comes from. -/
inductive Input where
  | inline (source : String)
  | file (path : String)
  deriving DecidableEq, Repr

/-- What the command line asks for. -/
inductive Request where
  | version
  | help
  | run (verbose : Bool) (command : Command) (input : Input)
  deriving DecidableEq, Repr

/-- The command of that name. -/
def Command.ofName? : String → Option Command
  | "tokens" => some .tokens
  | "expr" => some .expression
  | "list" => some .expressionList
  | "pattern" => some .pattern
  | _ => none

/-! ## Arguments -/

/-- The form of one argument. -/
inductive Argument where
  /-- `--` -/
  | separator
  /-- `--name` or `--name=value` -/
  | long (name : String) (value : Option String)
  /-- `-abc` -/
  | short (letters : List Char)
  /-- Anything else, a single `-` included. -/
  | value (text : String)
  deriving DecidableEq, Repr

/-- The form of an argument. -/
def Argument.ofString (text : String) : Argument :=
  match text.toList with
  | ['-', '-'] => .separator
  | '-' :: '-' :: body =>
      match body.dropWhile (· != '=') with
      | [] => .long (String.ofList body) none
      | _ :: attached =>
          .long (String.ofList (body.takeWhile (· != '='))) (some (String.ofList attached))
  | '-' :: c :: rest => .short (c :: rest)
  | _ => .value text

namespace Request

/-- Why reading stops before the arguments end. -/
inductive Stop where
  | misuse
  | asked (request : Request)
  deriving DecidableEq, Repr

/-- Reads the flag `verbose`, which may not be given twice. -/
def readVerbose (verbose : Bool) : Except Stop Bool :=
  if verbose then .error .misuse else .ok true

/-- Reads a cluster of one-letter flags. -/
def readLetters (beforeCommand : Bool) (verbose : Bool) : List Char → Except Stop Bool
  | [] => .ok verbose
  | c :: rest =>
      if c = 'v' then
        match readVerbose verbose with
        | .ok now => readLetters beforeCommand now rest
        | .error stop => .error stop
      else if c = 'h' then .error (.asked .help)
      else if c = 'V' ∧ beforeCommand then .error (.asked .version)
      else .error .misuse

/-- Reads a long flag. -/
def readLong (beforeCommand : Bool) (verbose : Bool) (name : String) : Except Stop Bool :=
  if name = "verbose" then readVerbose verbose
  else if name = "help" then .error (.asked .help)
  else if name = "version" ∧ beforeCommand then .error (.asked .version)
  else .error .misuse

/-! ## Behind the command -/

/-- What has been read behind a command. -/
structure Options where
  verbose : Bool
  source : Option String
  file : Option String

/-- The request that a command and its options make: one source, from one place. -/
def ofOptions (command : Command) (verbose : Bool) (o : Options) : Except Stop Request :=
  match o.source, o.file with
  | some source, none => .ok (.run (verbose || o.verbose) command (.inline source))
  | none, some path => .ok (.run (verbose || o.verbose) command (.file path))
  | _, _ => .error .misuse

/-- Reads the one source that may be given. -/
def readSource (o : Options) (text : String) : Except Stop Options :=
  match o.source with
  | none => .ok { o with source := some text }
  | some _ => .error .misuse

/-- Reads the one file that may be given. -/
def readFile (o : Options) (path : String) : Except Stop Options :=
  match o.file with
  | none => .ok { o with file := some path }
  | some _ => .error .misuse

/-- Reads the arguments behind the separator: all of them are values. -/
def readValues (o : Options) : List String → Except Stop Options
  | [] => .ok o
  | text :: rest =>
      match readSource o text with
      | .ok now => readValues now rest
      | .error stop => .error stop

/-- Reads the arguments behind the command. -/
def readOptions (o : Options) : List String → Except Stop Options
  | [] => .ok o
  | text :: rest =>
      match Argument.ofString text with
      | .separator => readValues o rest
      | .short letters =>
          match readLetters false o.verbose letters with
          | .ok verbose => readOptions { o with verbose := verbose } rest
          | .error stop => .error stop
      | .long "file" (some path) =>
          match readFile o path with
          | .ok now => readOptions now rest
          | .error stop => .error stop
      | .long "file" none =>
          match rest with
          | [] => .error .misuse
          | next :: further =>
              match Argument.ofString next with
              | .value path =>
                  match readFile o path with
                  | .ok now => readOptions now further
                  | .error stop => .error stop
              | _ => .error .misuse
      | .long _ (some _) => .error .misuse
      | .long name none =>
          match readLong false o.verbose name with
          | .ok verbose => readOptions { o with verbose := verbose } rest
          | .error stop => .error stop
      | .value source =>
          match readSource o source with
          | .ok now => readOptions now rest
          | .error stop => .error stop

/-! ## Before the command -/

/-- Reads the arguments up to the command and then those behind it. -/
def readCommand (verbose : Bool) : List String → Except Stop Request
  | [] => .error .misuse
  | text :: rest =>
      match Argument.ofString text with
      | .separator => .error .misuse
      | .short letters =>
          match readLetters true verbose letters with
          | .ok now => readCommand now rest
          | .error stop => .error stop
      | .long _ (some _) => .error .misuse
      | .long name none =>
          match readLong true verbose name with
          | .ok now => readCommand now rest
          | .error stop => .error stop
      | .value name =>
          match Command.ofName? name with
          | some command =>
              match readOptions ⟨false, none, none⟩ rest with
              | .ok o => ofOptions command verbose o
              | .error stop => .error stop
          | none =>
              if name = "help" ∧ (rest.all fun t => (Command.ofName? t).isSome) ∧ rest.length ≤ 1
              then .ok .help
              else .error .misuse

/-- The request that the arguments make, if they make one. -/
def ofArguments? (args : List String) : Option Request :=
  match readCommand false args with
  | .ok request => some request
  | .error (.asked request) => some request
  | .error .misuse => none

end Request

end ExprFront
