/-
# Text in listings

A listing shows a text between quotes on one line.  Control characters and others that do not show
as themselves are spelled out, so the quoted text holds neither line breaks nor marks that would
join the characters around them.
-/
import ExprFront.Unicode.Display

namespace ExprFront
namespace Escaped

/-- A character by its code point: `\u`, then the hexadecimal digits between braces. -/
def codePoint (c : Char) : List Char :=
  '\\' :: 'u' :: '\x7b' :: Nat.toDigits 16 c.toNat ++ ['\x7d']

/-- One character of a quoted text. -/
def char (c : Char) : List Char :=
  match c with
  | '\x00' => ['\\', '0']
  | '\t' => ['\\', 't']
  | '\r' => ['\\', 'r']
  | '\n' => ['\\', 'n']
  | '"' => ['\\', '"']
  | '\\' => ['\\', '\\']
  | _ => if showsItself c then [c] else codePoint c

/-- A text between quotes. -/
def quote (text : String) : String :=
  String.ofList ('"' :: text.toList.flatMap char ++ ['"'])

end Escaped

end ExprFront
