-- The plainest random source: words at a constant distance.
import Befunge.Random.Source

namespace Befunge

/-- A source whose words grow by a constant, wrapping around. -/
structure Progression where
  next : UInt64
  increment : UInt64
  deriving DecidableEq

instance : RandomSource Progression where
  draw p := (p.next, { p with next := p.next + p.increment })
  period := UInt64.size

end Befunge
