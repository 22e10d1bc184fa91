-- How a message shows a character: between single quotes, with a backslash escape
-- for what would not be seen or would be mistaken for the frame.
import Befunge.Text.Unprintable

namespace Befunge.Quoted

/-- The text of an unprintable character: its code in lowercase hexadecimal, in braces. -/
def escapeCode (c : Char) : List Char :=
  '\\' :: 'u' :: '\x7b' :: (Nat.toDigits 16 c.toNat ++ ['\x7d'])

/-- The text of a character between quotes. A double quote needs no escape there. -/
def escape (c : Char) : List Char :=
  match c with
  | '\x00' => ['\\', '0']
  | '\t' => ['\\', 't']
  | '\r' => ['\\', 'r']
  | '\n' => ['\\', 'n']
  | '\'' => ['\\', '\'']
  | '\\' => ['\\', '\\']
  | c => if Unprintable.holds c then escapeCode c else [c]

/-- The text of a character with its quotes. -/
def text (c : Char) : String := String.ofList ('\'' :: (escape c ++ ['\'']))

end Befunge.Quoted
