/-
# The program

Reads the file that the arguments ask for, if they ask for one, and writes the reply.
-/
import ExprFront.CommandLine.Reply

/-- What is found at a path of the file system. -/
def ExprFront.FileContent.find (path : String) : IO ExprFront.FileContent := do
  try discard (IO.FS.realPath path) catch _ => return .missing
  try
    return .bytes (← IO.FS.readBinFile path)
  catch e =>
    match e with
    | .inappropriateType _ code details => return .unreadable s!"{details} (os error {code})"
    | .permissionDenied _ code details => return .unreadable s!"{details} (os error {code})"
    | _ => return .unreadable (toString e)

/-- Answers one call. -/
def main (args : List String) : IO UInt32 := do
  let content ←
    match ExprFront.Request.pathOf? ExprFront.Request.ofArguments? args with
    | some path => ExprFront.FileContent.find path
    | none => pure .missing
  let reply := ExprFront.Reply.ofArguments ExprFront.Request.ofArguments? args content
  IO.print reply.stdout
  IO.eprint reply.stderr
  return reply.exit.toUInt32
