-- What can be wrong with a program: a cell that holds no instruction, or a number
-- that is not the code of a character where one is needed.
import Befunge.Point
import Befunge.Text.Quoted
import Befunge.Value

namespace Befunge

/-! ## Codes and categories -/

/-- What a fault is about. -/
inductive Category where
  | program
  | value
  deriving DecidableEq

def Category.name : Category → String
  | program => "program"
  | value => "value"

/-- The number of a kind of fault. -/
structure Code where
  number : UInt16
  deriving DecidableEq

namespace Code

/-- The code of an unknown instruction. -/
def unknownInstruction : Code := ⟨100⟩

/-- The code of an invalid value. -/
def invalidValue : Code := ⟨200⟩

/-- The category of a code: the two hundreds are about values, and all others about the
program. -/
def category (code : Code) : Category :=
  if 200 ≤ code.number ∧ code.number ≤ 299 then .value else .program

/-- The text of a code. -/
def text (code : Code) : String := "E" ++ Decimal.text code.number.toNat

end Code

/-! ## Faults -/

/-- A fault of a program. It ends the run. -/
inductive Fault where
  /-- A cell outside string mode holds a character that stands for no instruction. -/
  | unknownInstruction (cell : Char) (place : Point)
  /-- A number cannot be used where the context needs it. -/
  | invalidValue (value : Value) (context : String)
  deriving DecidableEq

namespace Fault

def code : Fault → Code
  | unknownInstruction _ _ => .unknownInstruction
  | invalidValue _ _ => .invalidValue

def category (f : Fault) : Category := f.code.category

/-- The text of a fault. -/
def message : Fault → String
  | unknownInstruction cell place =>
    "unknown operation " ++ Quoted.text cell ++ " at " ++ place.text
  | invalidValue value context =>
    "invalid value " ++ Decimal.text value.toInt ++ ": " ++ context

/-- The context of a number that was to be written as a character. -/
def outputContext : String := "output character is not a character code"

/-- The context of a number that was to be put into a cell. -/
def cellContext : String := "grid cell is not a character code"

end Fault

end Befunge
