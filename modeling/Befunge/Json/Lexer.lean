-- Cutting JSON text into tokens. Each scan takes the longest text that its rule
-- allows and gives what follows it.
import Befunge.Json.Token

namespace Befunge.Json

/-! ## Numbers -/

/-- One digit or more, and what follows them. -/
def scanDigits (s : List Char) : Option (List Char × List Char) :=
  match s.takeWhile Char.isDigit with
  | [] => none
  | digits => some (digits, s.dropWhile Char.isDigit)

/-- The digits of a fraction, none if there is no fraction, and what follows them. -/
def scanFraction : List Char → Option (List Char × List Char)
  | '.' :: rest => scanDigits rest
  | rest => some ([], rest)

/-- The sign at the start of an exponent, true for a minus sign, and what follows it. -/
def scanSign : List Char → Bool × List Char
  | '+' :: rest => (false, rest)
  | '-' :: rest => (true, rest)
  | rest => (false, rest)

/-- An exponent, none if there is none, and what follows it. -/
def scanExponent (s : List Char) : Option (Option Int × List Char) :=
  match s with
  | [] => some (none, [])
  | c :: rest =>
    if c = 'e' ∨ c = 'E' then
      let (negative, rest) := scanSign rest
      match scanDigits rest with
      | some (digits, rest) =>
        let size := Decimal.readNat digits
        some (some (if negative then -(size : Int) else size), rest)
      | none => none
    else some (none, c :: rest)

/-- The number that is written with these parts. Minus zero is no integer. -/
def numeral (negative : Bool) (whole fraction : List Char) (exponent : Option Int) : Scalar :=
  let size := Decimal.readNat whole
  if fraction = [] ∧ exponent = none ∧ ¬(negative ∧ size = 0) then
    .int (if negative then -(size : Int) else size)
  else
    .decimal negative (Decimal.readNat (whole ++ fraction))
      (exponent.getD 0 - fraction.length)

/-- A number after its sign, and what follows it. A zero stands alone before the point. -/
def scanNumber (negative : Bool) (s : List Char) : Option (Scalar × List Char) := do
  let (whole, rest) ← scanDigits s
  if whole.head? = some '0' ∧ whole.length ≠ 1 then none
  else
    let (fraction, rest) ← scanFraction rest
    let (exponent, rest) ← scanExponent rest
    some (numeral negative whole fraction exponent, rest)

/-! ## Strings -/

/-- A part of a string: a character, or an escaped unit of sixteen bits. -/
inductive Piece where
  | char (c : Char)
  | unit (n : Nat)
  deriving DecidableEq

/-- The character that an escape of one letter stands for. -/
def unescape? : Char → Option Char
  | '"' => some '"'
  | '\\' => some '\\'
  | '/' => some '/'
  | 'b' => some '\x08'
  | 'f' => some '\x0c'
  | 'n' => some '\n'
  | 'r' => some '\r'
  | 't' => some '\t'
  | _ => none

/-- The value of a hexadecimal digit, in either case. -/
def hexValue? (c : Char) : Option Nat :=
  if '0' ≤ c ∧ c ≤ '9' then some (c.toNat - '0'.toNat)
  else if 'a' ≤ c ∧ c ≤ 'f' then some (c.toNat - 'a'.toNat + 10)
  else if 'A' ≤ c ∧ c ≤ 'F' then some (c.toNat - 'A'.toNat + 10)
  else none

/-- The unit that four hexadecimal digits stand for. -/
def unit? (a b c d : Char) : Option Nat := do
  let a ← hexValue? a
  let b ← hexValue? b
  let c ← hexValue? c
  let d ← hexValue? d
  some (((a * 16 + b) * 16 + c) * 16 + d)

/-- A scan of a string with one more part in front. -/
def Piece.before (p : Piece) (scan : Option (List Piece × List Char)) :
    Option (List Piece × List Char) :=
  scan.map fun (pieces, rest) => (p :: pieces, rest)

/-- The parts of a string after its opening quote, and what follows its closing quote. -/
def scanString : List Char → Option (List Piece × List Char)
  | [] => none
  | '"' :: rest => some ([], rest)
  | '\\' :: 'u' :: a :: b :: c :: d :: rest =>
    match unit? a b c d with
    | some n => (Piece.unit n).before (scanString rest)
    | none => none
  | '\\' :: letter :: rest =>
    match unescape? letter with
    | some c => (Piece.char c).before (scanString rest)
    | none => none
  | c :: rest =>
    if c = '\\' ∨ c.toNat < 0x20 then none else (Piece.char c).before (scanString rest)

/-- Tells whether a unit is the first half of a surrogate pair. -/
def isFirstHalf (n : Nat) : Bool := 0xd800 ≤ n && n < 0xdc00

/-- Tells whether a unit is the second half of a surrogate pair. -/
def isSecondHalf (n : Nat) : Bool := 0xdc00 ≤ n && n < 0xe000

/-- The character that a surrogate pair stands for. -/
def ofHalves (n m : Nat) : Char := Char.ofNat ((n - 0xd800) * 0x400 + (m - 0xdc00) + 0x10000)

/-- The characters that the parts of a string stand for. There are none if half of a surrogate
pair stands alone. -/
def assemble : List Piece → Option (List Char)
  | [] => some []
  | .char c :: rest => (assemble rest).map (c :: ·)
  | .unit n :: rest =>
    if isFirstHalf n then
      match rest with
      | .unit m :: rest =>
        if isSecondHalf m then (assemble rest).map (ofHalves n m :: ·) else none
      | _ => none
    else if isSecondHalf n then none
    else (assemble rest).map (Char.ofNat n :: ·)

/-- The value of a string with the given parts. -/
def textOf (pieces : List Piece) : Option String := (assemble pieces).map String.ofList

/-! ## Tokens -/

/-- Tells whether a character may stand between tokens. -/
def isBlank (c : Char) : Bool := c = ' ' || c = '\t' || c = '\n' || c = '\r'

/-- The token at the start of a text, and what follows it. -/
def scanToken : List Char → Option (Token × List Char)
  | '[' :: rest => some (.openArray, rest)
  | ']' :: rest => some (.closeArray, rest)
  | '\x7b' :: rest => some (.openObject, rest)
  | '\x7d' :: rest => some (.closeObject, rest)
  | ',' :: rest => some (.comma, rest)
  | ':' :: rest => some (.colon, rest)
  | 'n' :: 'u' :: 'l' :: 'l' :: rest => some (.scalar .null, rest)
  | 't' :: 'r' :: 'u' :: 'e' :: rest => some (.scalar (.bool true), rest)
  | 'f' :: 'a' :: 'l' :: 's' :: 'e' :: rest => some (.scalar (.bool false), rest)
  | '"' :: rest => (scanString rest).map fun (pieces, rest) => (.scalar (.text (textOf pieces)), rest)
  | '-' :: rest => (scanNumber true rest).map fun (s, rest) => (.scalar s, rest)
  | s => (scanNumber false s).map fun (s, rest) => (.scalar s, rest)

/-- The tokens of a text, by at most as many scans as `fuel`. -/
def lexWithin : Nat → List Char → Option (List Token)
  | 0, _ => none
  | fuel + 1, s =>
    match s.dropWhile isBlank with
    | [] => some []
    | s => do
      let (token, rest) ← scanToken s
      let tokens ← lexWithin fuel rest
      some (token :: tokens)

/-- The tokens of a text. Every token takes a character, so the length of the text bounds the
number of scans. -/
def lex (s : List Char) : Option (List Token) := lexWithin (s.length + 1) s

end Befunge.Json
