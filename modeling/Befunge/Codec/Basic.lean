-- Types with a JSON form, and the forms of plain values. Reading is strict: a value
-- of one kind is never taken for another, and a number must fit its type.
import Befunge.Json.Reader

namespace Befunge

/-- A type whose values have a JSON form. -/
class Codec (α : Type) where
  toJson : α → Json
  ofJson? : Json → Option α

namespace Codec

variable {α : Type} [Codec α]

/-- The JSON text of a value. -/
def encode (a : α) : String := String.ofList (toJson a).write

/-- The value with a given JSON text. The text may have blanks between its tokens, and the
members of its objects in any order. -/
def decode? (s : String) : Option α := (Json.read? s.toList).bind ofJson?

/-! ## Numbers -/

/-- The integer that a value is, if it lies from `low` to `high`. -/
def intWithin? (low high : Int) : Json → Option Int
  | .scalar (.int n) => if low ≤ n ∧ n ≤ high then some n else none
  | _ => none

instance : Codec Int64 where
  toJson v := .int v.toInt
  ofJson? j := (intWithin? Int64.minValue.toInt Int64.maxValue.toInt j).map Int64.ofInt

instance : Codec UInt64 where
  toJson v := .int v.toNat
  ofJson? j := (intWithin? 0 (UInt64.size - 1) j).map fun n => UInt64.ofNat n.toNat

instance : Codec UInt16 where
  toJson v := .int v.toNat
  ofJson? j := (intWithin? 0 (UInt16.size - 1) j).map fun n => UInt16.ofNat n.toNat

/-- Sizes are read up to the greatest word. -/
instance : Codec Nat where
  toJson v := .int v
  ofJson? j := (intWithin? 0 (UInt64.size - 1) j).map Int.toNat

/-! ## Other plain values -/

instance : Codec Bool where
  toJson := .bool
  ofJson?
    | .scalar (.bool b) => some b
    | _ => none

instance : Codec String where
  toJson := .text
  ofJson?
    | .scalar (.text s) => s
    | _ => none

/-- A character is a string of length one. -/
instance : Codec Char where
  toJson c := .text (String.singleton c)
  ofJson?
    | .scalar (.text (some s)) =>
      match s.toList with
      | [c] => some c
      | _ => none
    | _ => none

instance : Codec (List α) where
  toJson items := .array (items.map toJson)
  ofJson?
    | .array items => items.mapM ofJson?
    | _ => none

instance : Codec (Array α) where
  toJson items := .array (items.toList.map toJson)
  ofJson?
    | .array items => (items.mapM ofJson?).map List.toArray
    | _ => none

/-- A value that may be absent is `null` where it is. -/
instance : Codec (Option α) where
  toJson
    | some a => toJson a
    | none => .null
  ofJson?
    | .scalar .null => some none
    | j => (ofJson? j).map some

/-! ## Names -/

/-- The value among `all` that a JSON value names. The name is a string, or the only key of an
object whose value there is `null`. -/
def named? (all : List α) (name : α → String) : Json → Option α
  | .scalar (.text (some s)) => all.find? fun a => name a = s
  | .object [(some s, .scalar .null)] => all.find? fun a => name a = s
  | _ => none

end Codec

end Befunge
