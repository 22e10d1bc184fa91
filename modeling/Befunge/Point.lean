-- The place of the pointer. Coordinates are words and may lie outside the
-- playfield: they are brought onto it only when a cell is looked up.
import Befunge.Heading
import Befunge.Text.Decimal

namespace Befunge

/-- A column `x` and a row `y`. -/
structure Point where
  x : Int64
  y : Int64
  deriving DecidableEq

namespace Point

/-- The place where every program starts. -/
def origin : Point := ⟨0, 0⟩

instance : Inhabited Point := ⟨origin⟩

/-- The place one cell further along a heading. -/
def advance (p : Point) (h : Heading) : Point := ⟨p.x + h.delta.1, p.y + h.delta.2⟩

/-- The text of a place: both coordinates in round brackets. -/
def text (p : Point) : String :=
  "(" ++ Decimal.text p.x.toInt ++ ", " ++ Decimal.text p.y.toInt ++ ")"

end Point

end Befunge
