-- Records in JSON: an object with a member for each field, or an array of the fields
-- in their order.
import Befunge.Json.Basic

namespace Befunge.Json

/-- The values of the members with a given key. -/
def valuesOf (key : String) (members : List (Option String × Json)) : List Json :=
  (members.filter fun m => m.1 = some key).map (·.2)

/-- The value of the member with a given key, none if there is no such member. A key that occurs
twice is refused. -/
def member? (key : String) (members : List (Option String × Json)) : Option (Option Json) :=
  match valuesOf key members with
  | [] => some none
  | [v] => some (some v)
  | _ => none

/-- The values of the fields of a record, none for a field that is absent. An object may have
further members, whose values do not matter. An array has at most one item for each field and
at least `least` items. -/
def fields? (names : List String) (least : Nat) : Json → Option (List (Option Json))
  | .object members =>
    if members.all (·.1.isSome) then names.mapM fun name => member? name members else none
  | .array items =>
    if least ≤ items.length ∧ items.length ≤ names.length then
      some (items.map some ++ List.replicate (names.length - items.length) none)
    else none
  | .scalar _ => none

end Befunge.Json
