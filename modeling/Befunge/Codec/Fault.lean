-- The JSON forms of headings, places and faults.
import Befunge.Codec.Basic
import Befunge.Fault
import Befunge.Json.Record
import Befunge.Json.Storable

namespace Befunge

open Codec

/-! ## Headings and places -/

instance : Codec Heading where
  toJson h := .text h.name
  ofJson? := named? Heading.all Heading.name

instance : Codec Point where
  toJson p := Json.ofMembers [("x", toJson p.x), ("y", toJson p.y)]
  ofJson? j := do
    match ← Json.fields? ["x", "y"] 2 j with
    | [some x, some y] => some ⟨← ofJson? x, ← ofJson? y⟩
    | _ => none

/-! ## Codes -/

instance : Codec Category where
  toJson c := .text c.name
  ofJson? := named? [.program, .value] Category.name

instance : Codec Code where
  toJson c := toJson c.number
  ofJson? j := (ofJson? j).map Code.mk

/-! ## Faults -/

namespace Fault

/-- The kind of a fault about an unknown instruction. -/
def unknownKind : String := "unknown_operation"

/-- The kind of a fault about an invalid value. -/
def invalidKind : String := "invalid_value"

/-- The fault of a given kind whose fields are a record. -/
def ofKind? (kind : String) (fields : Json) : Option Fault :=
  if kind = unknownKind then do
    match ← Json.fields? ["ch", "x", "y"] 3 fields with
    | [some cell, some x, some y] =>
      some (.unknownInstruction (← ofJson? cell) ⟨← ofJson? x, ← ofJson? y⟩)
    | _ => none
  else if kind = invalidKind then do
    match ← Json.fields? ["value", "context"] 2 fields with
    | [some value, some context] => some (.invalidValue (← ofJson? value) (← ofJson? context))
    | _ => none
  else none

/-- The fault that a value stands for. The kind is a member among the fields, or the first item
before them, and the rest is kept until the kind is known. So all of it must be storable, with
arrays and objects nested at most `room` deep, the value itself counted. -/
def read? (room : Nat) (j : Json) : Option Fault :=
  if j.isStorable room then
    match j with
    | .object members => do
      match ← Json.member? "kind" members with
      | some kind => ofKind? (← ofJson? kind) (.object (members.filter (·.1 ≠ some "kind")))
      | none => none
    | .array (kind :: fields) => do ofKind? (← ofJson? kind) (.array fields)
    | _ => none
  else none

/-- The deepest nesting of arrays and objects in a text that holds a fault. -/
def nesting : Nat := 127

end Fault

instance : Codec Fault where
  toJson
    | .unknownInstruction cell place =>
      Json.ofMembers [("kind", .text Fault.unknownKind), ("ch", toJson cell),
        ("x", toJson place.x), ("y", toJson place.y)]
    | .invalidValue value context =>
      Json.ofMembers [("kind", .text Fault.invalidKind), ("value", toJson value),
        ("context", toJson context)]
  ofJson? := Fault.read? Fault.nesting

end Befunge
