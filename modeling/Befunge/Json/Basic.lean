-- JSON values. A text is `none` if it is written with half of a surrogate pair: such
-- a string is well formed as JSON, but it is the text of nothing.
namespace Befunge

namespace Json

/-- A value without parts. -/
inductive Scalar where
  | null
  | bool (b : Bool)
  /-- A number that is written without a fraction and without an exponent. -/
  | int (n : Int)
  /-- Any other number: `digits` times the power of ten with exponent `power`, negative or not. -/
  | decimal (negative : Bool) (digits : Nat) (power : Int)
  | text (s : Option String)
  deriving DecidableEq

end Json

/-- A JSON value. The members of an object keep their order, and a key may occur twice. -/
inductive Json where
  | scalar (s : Json.Scalar)
  | array (items : List Json)
  | object (members : List (Option String × Json))

namespace Json

def null : Json := .scalar .null

def bool (b : Bool) : Json := .scalar (.bool b)

def int (n : Int) : Json := .scalar (.int n)

def text (s : String) : Json := .scalar (.text (some s))

/-- The object with the given members. -/
def ofMembers (members : List (String × Json)) : Json :=
  .object (members.map fun m => (some m.1, m.2))

end Json

end Befunge
