-- The log of a run: what a machine reports while it works.
import Befunge.Fault

namespace Befunge

/-- How much an event of the log matters. -/
inductive Level where
  | trace
  | debug
  | warn
  deriving DecidableEq

def Level.name : Level → String
  | trace => "TRACE"
  | debug => "DEBUG"
  | warn => "WARN"

/-- An event of the log. -/
inductive Event where
  /-- A program was laid out on a playfield of this size. -/
  | loaded (width height : Nat)
  /-- A cell is about to be executed. -/
  | step (place : Point) (cell : Char) (heading : Heading)
  /-- The program halted after this many steps, with an output of this many bytes. -/
  | halted (steps : UInt64) (outputBytes : Nat)
  /-- The cell could not be executed. -/
  | aborted (fault : Fault)
  /-- The run ended with a fault. -/
  | failed (fault : Fault)
  deriving DecidableEq

/-- A value in a line of the log. -/
inductive Datum where
  | number (n : Int)
  | text (s : String)
  deriving DecidableEq

/-- A line of the log: how much it matters, what it says, and named values. -/
structure Line where
  level : Level
  message : String
  data : List (String × Datum)
  deriving DecidableEq

namespace Event

def level : Event → Level
  | loaded _ _ => .debug
  | step _ _ _ => .trace
  | halted _ _ => .debug
  | aborted _ => .warn
  | failed _ => .debug

def message : Event → String
  | loaded _ _ => "program loaded"
  | step _ _ _ => "step"
  | halted _ _ => "program halted"
  | aborted _ => "run aborted"
  | failed _ => "run failed"

/-- The values that go with an event. A character is shown as messages show it. -/
def data : Event → List (String × Datum)
  | loaded width height => [("width", .number width), ("height", .number height)]
  | step place cell heading =>
    [("x", .number place.x.toInt), ("y", .number place.y.toInt),
      ("ch", .text (Quoted.text cell)), ("direction", .text heading.name)]
  | halted steps bytes => [("steps", .number steps.toNat), ("output_len", .number bytes)]
  | aborted fault => [("err", .text fault.message), ("code", .text fault.code.text)]
  | failed fault => [("code", .text fault.code.text)]

/-- The line that an event writes. -/
def line (e : Event) : Line := ⟨e.level, e.message, e.data⟩

end Event

end Befunge
