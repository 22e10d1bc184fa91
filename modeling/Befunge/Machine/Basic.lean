-- The machine: all that a running program has.
import Befunge.Playfield
import Befunge.Point
import Befunge.Stack

namespace Befunge

/-- Whether a program still runs. -/
inductive Status where
  | running
  | halted
  deriving DecidableEq

def Status.name : Status → String
  | running => "running"
  | halted => "halted"

/-- A machine, with a random source of type `ρ`. -/
structure Machine (ρ : Type) where
  field : Playfield
  stack : Stack
  position : Point
  heading : Heading
  stringMode : Bool
  output : String
  status : Status
  steps : UInt64
  random : ρ
  deriving DecidableEq

namespace Machine

variable {ρ : Type}

/-! ## Starting -/

/-- The machine at the start of a program. -/
def start (field : Playfield) (random : ρ) : Machine ρ where
  field := field
  stack := Stack.empty
  position := Point.origin
  heading := .right
  stringMode := false
  output := ""
  status := .running
  steps := 0
  random := random

/-- A machine without a program: its playfield is one blank cell. -/
def fresh (random : ρ) : Machine ρ := start (Playfield.ofSource "") random

/-- The machine at the start of the program with the given source. The random source goes on
from where it is. -/
def load (m : Machine ρ) (source : String) : Machine ρ := start (Playfield.ofSource source) m.random

/-! ## The stack -/

def push (m : Machine ρ) (v : Value) : Machine ρ := { m with stack := m.stack.push v }

/-- The number `n` places below the top of the stack. -/
def peek (m : Machine ρ) (n : Nat) : Value := m.stack.peek n

def drop (m : Machine ρ) (n : Nat) : Machine ρ := { m with stack := m.stack.drop n }

/-- The top number of the stack, and the machine without it. -/
def pop (m : Machine ρ) : Value × Machine ρ := (m.peek 0, m.drop 1)

/-! ## The pointer -/

/-- The machine with its pointer one cell further. The pointer may leave the playfield. -/
def advance (m : Machine ρ) : Machine ρ := { m with position := m.position.advance m.heading }

/-- The machine with its pointer brought onto the playfield. -/
def settle (m : Machine ρ) : Machine ρ :=
  { m with
    position :=
      ⟨Int64.ofNat (Torus.wrap m.position.x.toInt m.field.width),
        Int64.ofNat (Torus.wrap m.position.y.toInt m.field.height)⟩ }

/-- The cell under the pointer. -/
def cell (m : Machine ρ) : Char := m.field.read m.position.x.toInt m.position.y.toInt

end Machine

end Befunge
