-- The instructions of the language and the characters that stand for them. A
-- character stands for one instruction or for none.
import Befunge.Heading
import Befunge.Value

namespace Befunge

/-! ## Operators -/

/-- An operator on two numbers. -/
inductive Operator where
  | add
  | subtract
  | multiply
  | divide
  | modulo
  | greater
  deriving DecidableEq

/-- The result of an operator on `b`, the deeper of the two numbers, and `a`, the upper one. -/
def Operator.apply (b a : Value) : Operator → Value
  | add => b + a
  | subtract => b - a
  | multiply => b * a
  | divide => Value.quotient b a
  | modulo => Value.remainder b a
  | greater => Value.ofBool (b > a)

/-! ## Instructions -/

/-- An instruction of a program. -/
inductive Instruction where
  /-- Push a digit. -/
  | digit (value : Nat)
  /-- Replace the two upper numbers by the result of an operator. -/
  | operate (op : Operator)
  /-- Replace the upper number by one if it is zero, and else by zero. -/
  | not
  /-- Take a heading. -/
  | turn (heading : Heading)
  /-- Take a heading at random. -/
  | turnRandomly
  /-- Pop a number and head right if it is zero, and else left. -/
  | branchAcross
  /-- Pop a number and head down if it is zero, and else up. -/
  | branchAlong
  /-- Begin or end string mode. -/
  | quote
  /-- Push the upper number again. -/
  | duplicate
  /-- Exchange the two upper numbers. -/
  | swap
  /-- Drop the upper number. -/
  | discard
  /-- Pop a number and write its decimal text. -/
  | writeNumber
  /-- Pop a number and write the character with that code. -/
  | writeCharacter
  /-- Jump over the next cell. -/
  | bridge
  /-- Pop a row, a column and a code, and put that character into the cell there. -/
  | put
  /-- Pop a row and a column, and push the code of the cell there. -/
  | get
  /-- Do nothing. -/
  | blank
  deriving DecidableEq

/-- The character that halts a program. It stands for no instruction. -/
def haltCell : Char := '@'

/-- The character that begins and ends string mode. -/
def quoteCell : Char := '"'

/-- The instruction that a character stands for. -/
def Instruction.ofChar? : Char → Option Instruction
  | '0' => some (digit 0)
  | '1' => some (digit 1)
  | '2' => some (digit 2)
  | '3' => some (digit 3)
  | '4' => some (digit 4)
  | '5' => some (digit 5)
  | '6' => some (digit 6)
  | '7' => some (digit 7)
  | '8' => some (digit 8)
  | '9' => some (digit 9)
  | '+' => some (operate .add)
  | '-' => some (operate .subtract)
  | '*' => some (operate .multiply)
  | '/' => some (operate .divide)
  | '%' => some (operate .modulo)
  | '\x60' => some (operate .greater)
  | '!' => some not
  | '>' => some (turn .right)
  | '<' => some (turn .left)
  | '^' => some (turn .up)
  | 'v' => some (turn .down)
  | '?' => some turnRandomly
  | '_' => some branchAcross
  | '|' => some branchAlong
  | '"' => some quote
  | ':' => some duplicate
  | '\\' => some swap
  | '$' => some discard
  | '.' => some writeNumber
  | ',' => some writeCharacter
  | '#' => some bridge
  | 'p' => some put
  | 'g' => some get
  | ' ' => some blank
  | _ => none

end Befunge
