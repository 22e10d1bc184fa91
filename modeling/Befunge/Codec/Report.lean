-- The JSON forms of the options of a run and of its report.
import Befunge.Codec.Machine
import Befunge.Report

namespace Befunge

open Codec

/-- The seed may be left out. -/
instance : Codec Options where
  toJson o := Json.ofMembers [("seed", toJson o.seed)]
  ofJson? j := do
    match ← Json.fields? ["seed"] 0 j with
    | [some seed] => (ofJson? seed).map Options.mk
    | [none] => some ⟨none⟩
    | _ => none

/-- The fault of a report, which may be absent, and which lies one level deep in it. -/
def Report.readFault? : Option Json → Option (Option Fault)
  | none => some none
  | some (.scalar .null) => some none
  | some j => (Fault.read? (Fault.nesting - 1) j).map some

/-- A report without a fault is written without that member. -/
instance : Codec Report where
  toJson r :=
    Json.ofMembers ([("success", toJson r.success), ("output", toJson r.output)] ++
      (r.fault.toList.map fun f => ("error", toJson f)) ++ [("state", toJson r.state)])
  ofJson? j := do
    match ← Json.fields? ["success", "output", "error", "state"] 4 j with
    | [some success, some output, fault, some state] =>
      some
        { success := ← ofJson? success
          output := ← ofJson? output
          fault := ← Report.readFault? fault
          state := ← ofJson? state }
    | _ => none

end Befunge
