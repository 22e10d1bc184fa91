-- The tokens of JSON text, and how they are written. The text of a value is the text
-- of its tokens with nothing between them.
import Befunge.Json.Basic
import Befunge.Text.Decimal

namespace Befunge.Json

/-- A token: a mark, or a value without parts. -/
inductive Token where
  | openArray
  | closeArray
  | openObject
  | closeObject
  | comma
  | colon
  | scalar (s : Scalar)
  deriving DecidableEq

/-! ## The tokens of a value -/

mutual

/-- The tokens of a value. -/
def tokens : Json → List Token
  | .scalar s => [.scalar s]
  | .array items => .openArray :: (itemTokens items ++ [.closeArray])
  | .object members => .openObject :: (memberTokens members ++ [.closeObject])

/-- The tokens of some items, with a comma between any two. -/
def itemTokens : List Json → List Token
  | [] => []
  | [item] => tokens item
  | item :: next :: rest => tokens item ++ .comma :: itemTokens (next :: rest)

/-- The tokens of some members, with a comma between any two. -/
def memberTokens : List (Option String × Json) → List Token
  | [] => []
  | [(key, value)] => .scalar (.text key) :: .colon :: tokens value
  | (key, value) :: next :: rest =>
    .scalar (.text key) :: .colon :: (tokens value ++ .comma :: memberTokens (next :: rest))

end

/-! ## Writing strings -/

/-- The text of a character in a string. Only quotes, backslashes and control characters are
escaped. -/
def escape (c : Char) : List Char :=
  match c with
  | '"' => ['\\', '"']
  | '\\' => ['\\', '\\']
  | '\x08' => ['\\', 'b']
  | '\t' => ['\\', 't']
  | '\n' => ['\\', 'n']
  | '\x0c' => ['\\', 'f']
  | '\r' => ['\\', 'r']
  | c =>
    if c.toNat < 0x20 then
      ['\\', 'u', '0', '0', Nat.digitChar (c.toNat / 16), Nat.digitChar (c.toNat % 16)]
    else [c]

/-- The text of a string between its quotes. A string that is the text of nothing is written as
half of a surrogate pair. -/
def quotedText : Option String → List Char
  | some s => s.toList.flatMap escape
  | none => ['\\', 'u', 'd', '8', '0', '0']

/-! ## Writing tokens -/

/-- The text of a number with an exponent. -/
def decimalText (negative : Bool) (digits : Nat) (power : Int) : List Char :=
  (if negative then ['-'] else []) ++ (Decimal.ofNat digits ++ 'e' :: Decimal.ofInt power)

def Scalar.write : Scalar → List Char
  | null => ['n', 'u', 'l', 'l']
  | bool true => ['t', 'r', 'u', 'e']
  | bool false => ['f', 'a', 'l', 's', 'e']
  | int n => Decimal.ofInt n
  | decimal negative digits power => decimalText negative digits power
  | text s => '"' :: (quotedText s ++ ['"'])

def Token.write : Token → List Char
  | openArray => ['[']
  | closeArray => [']']
  | openObject => ['\x7b']
  | closeObject => ['\x7d']
  | comma => [',']
  | colon => [':']
  | scalar s => s.write

/-- The text of a value. -/
def write (j : Json) : List Char := (tokens j).flatMap Token.write

end Befunge.Json
