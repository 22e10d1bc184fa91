-- A snapshot: all that a machine has but its random source, in plain data.
import Befunge.Machine.Basic

namespace Befunge

/-- The state of a machine at one moment. Rows run from top to bottom and numbers from bottom
to top. The width is not part of it: it is the length of every row. -/
structure Snapshot where
  rows : List String
  stack : List Value
  position : Point
  heading : Heading
  stringMode : Bool
  output : String
  status : Status
  steps : UInt64
  deriving DecidableEq

/-- The snapshot of a machine. -/
def Machine.snapshot {ρ : Type} (m : Machine ρ) : Snapshot where
  rows := m.field.rows
  stack := m.stack.values
  position := m.position
  heading := m.heading
  stringMode := m.stringMode
  output := m.output
  status := m.status
  steps := m.steps

end Befunge
