-- Values that can be kept without loss of kind: every string is a text, every number
-- has a finite double, and nesting is bounded.
import Befunge.Json.Basic

namespace Befunge.Json

/-- The least size that rounds to infinity as a number of double precision. -/
def doubleLimit : Nat := Nat.pow 2 1024 - Nat.pow 2 970

/-- Tells whether `digits` times a power of ten has a finite double. The number of digits tells
first whether the size is far from the limit. -/
def isFinite (digits : Nat) (power : Int) : Bool :=
  let places := (Nat.toDigits 10 digits).length + power
  if digits = 0 ∨ places ≤ 308 then true
  else if places ≠ 309 then false
  else digits * Nat.pow 10 power.toNat < doubleLimit * Nat.pow 10 (-power).toNat

def Scalar.isStorable : Scalar → Bool
  | null => true
  | bool _ => true
  | int n => n.natAbs < doubleLimit
  | decimal _ digits power => isFinite digits power
  | text s => s.isSome

/-- Tells whether a value can be kept, with arrays and objects nested at most `room` deep. -/
def isStorable : Nat → Json → Bool
  | _, .scalar s => s.isStorable
  | 0, _ => false
  | room + 1, .array items => items.all fun item => isStorable room item
  | room + 1, .object members =>
    members.all fun member => member.1.isSome && isStorable room member.2

end Befunge.Json
