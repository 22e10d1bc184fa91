-- Random sources and the choice of a heading. A source is a state that gives one
-- word after another; a heading takes as many words as it needs.
import Befunge.Heading

namespace Befunge

/-- A state that gives one random word at a time. After `period` words the source is where it
was, so a search through `period` words has seen them all. -/
class RandomSource (ρ : Type) where
  draw : ρ → UInt64 × ρ
  period : Nat

namespace RandomSource

variable {ρ : Type} [RandomSource ρ]

/-- The source after `n` words. -/
def skip : Nat → ρ → ρ
  | 0, r => r
  | n + 1, r => skip n (draw r).2

/-- A word is refused if its third highest bit is set. -/
def refused (v : UInt64) : Bool := v.toNat.testBit 61

/-- The heading that a word chooses: its two highest bits are the number. -/
def chosen (v : UInt64) : Heading := Heading.ofNumber (v.toNat >>> 62)

/-- The heading chosen by the first word that is not refused, among the next `n` words. -/
def sampleWithin : Nat → ρ → Option (Heading × ρ)
  | 0, _ => none
  | n + 1, r =>
    let (v, next) := draw r
    if refused v then sampleWithin n next else some (chosen v, next)

/-- The heading chosen by the first word that is not refused. There is none if the source
gives refused words only. -/
def sample (r : ρ) : Option (Heading × ρ) := sampleWithin (period ρ) r

end RandomSource

end Befunge
