-- The numbers of a program: 64-bit words in two's complement. Sums, differences
-- and products wrap around; division by zero gives zero.
namespace Befunge

/-- A number on the stack. -/
abbrev Value := Int64

namespace Value

/-! ## Division -/

/-- The quotient of `b` by `a`, rounded toward zero; zero if `a` is zero. The quotient that
does not fit, of the least value by minus one, wraps around to the least value. -/
def quotient (b a : Value) : Value := if a = 0 then 0 else b / a

/-- The remainder of `b` by `a`, with the sign of `b`; zero if `a` is zero. -/
def remainder (b a : Value) : Value := if a = 0 then 0 else b % a

/-! ## Truth values and characters -/

/-- A truth value as a number: one if it holds and zero if it does not. -/
def ofBool (b : Bool) : Value := if b then 1 else 0

/-- The code of a character. -/
def ofChar (c : Char) : Value := Int64.ofNat c.toNat

/-- The character with a given code. A negative number, a surrogate and a number above the
last character are the code of none. -/
def toChar? (v : Value) : Option Char :=
  let n := v.toInt.toNat
  if 0 ≤ v.toInt ∧ n.isValidChar then some (Char.ofNat n) else none

/-! ## Laws -/

theorem toInt_eq_zero_iff {v : Value} : v.toInt = 0 ↔ v = 0 := by
  rw [← Int64.toInt_inj, Int64.toInt_zero]

theorem toInt_ofBool (b : Bool) : (ofBool b).toInt = if b then 1 else 0 := by
  cases b <;> decide

theorem toInt_ofChar (c : Char) : (ofChar c).toInt = c.toNat := by
  have hc : c.toNat < 2 ^ 32 := c.val.toNat_lt
  exact Int64.toInt_ofNat_of_lt (by omega)

/-- A character is the one with its code. -/
theorem toChar?_ofChar (c : Char) : toChar? (ofChar c) = some c := by
  unfold toChar?
  simp only [toInt_ofChar, Int.toNat_natCast]
  rw [if_pos ⟨by omega, c.valid⟩, Char.ofNat_toNat]

theorem ofChar_ne_zero {c : Char} (hc : c ≠ '\x00') : ofChar c ≠ 0 := by
  intro h
  have hzero := toInt_ofChar c
  rw [h, Int64.toInt_zero] at hzero
  apply hc
  rw [← Char.ofNat_toNat c, ← Int.natCast_inj.1 (hzero : ((0 : Nat) : Int) = c.toNat)]

end Value

end Befunge
