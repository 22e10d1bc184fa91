-- The decimal text of an integer: a minus sign if it is negative, then the
-- digits of its size, with no leading zero. `readNat` reads digits back.
namespace Befunge.Decimal

/-! ## Writing -/

/-- The decimal digits of a natural number, most significant first. -/
def ofNat (n : Nat) : List Char := Nat.toDigits 10 n

/-- The decimal digits of an integer, after a minus sign if it is negative. -/
def ofInt : Int → List Char
  | .ofNat n => ofNat n
  | .negSucc n => '-' :: ofNat (n + 1)

/-- The decimal text of an integer. -/
def text (v : Int) : String := String.ofList (ofInt v)

/-! ## Reading -/

/-- The number that a list of decimal digits stands for. -/
def readNat (ds : List Char) : Nat := Nat.ofDigitChars 10 ds 0

theorem readNat_ofNat (n : Nat) : readNat (ofNat n) = n :=
  Nat.ofDigitChars_toDigits (by decide) (by decide)

theorem isDigit_of_mem_ofNat {n : Nat} {c : Char} (h : c ∈ ofNat n) : c.isDigit :=
  Nat.isDigit_of_mem_toDigits (by decide) (by decide) h

theorem ofNat_ne_nil (n : Nat) : ofNat n ≠ [] := Nat.toDigits_ne_nil

end Befunge.Decimal
