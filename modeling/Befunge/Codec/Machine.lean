-- The JSON forms of the parts of a machine and of its snapshot.
import Befunge.Codec.Fault
import Befunge.Machine.Snapshot

namespace Befunge

open Codec

instance : Codec Status where
  toJson s := .text s.name
  ofJson? := named? [.running, .halted] Status.name

/-- The numbers of a stack are written from bottom to top. -/
instance : Codec Stack where
  toJson s := Json.ofMembers [("values", toJson s.values)]
  ofJson? j := do
    match ← Json.fields? ["values"] 1 j with
    | [some values] => (ofJson? values).map Stack.ofValues
    | _ => none

/-- The cells of a playfield are taken as they are: its shape is not checked. -/
instance : Codec Playfield where
  toJson g := Json.ofMembers [("cells", toJson g.cells), ("width", toJson g.width)]
  ofJson? j := do
    match ← Json.fields? ["cells", "width"] 2 j with
    | [some cells, some width] => some ⟨← ofJson? cells, ← ofJson? width⟩
    | _ => none

instance : Codec Snapshot where
  toJson s :=
    Json.ofMembers [("grid", toJson s.rows), ("stack", toJson s.stack),
      ("position", toJson s.position), ("direction", toJson s.heading),
      ("string_mode", toJson s.stringMode), ("output", toJson s.output),
      ("status", toJson s.status), ("steps", toJson s.steps)]
  ofJson? j := do
    match ← Json.fields? ["grid", "stack", "position", "direction", "string_mode", "output",
        "status", "steps"] 8 j with
    | [some rows, some stack, some position, some heading, some stringMode, some output,
        some status, some steps] =>
      some
        { rows := ← ofJson? rows
          stack := ← ofJson? stack
          position := ← ofJson? position
          heading := ← ofJson? heading
          stringMode := ← ofJson? stringMode
          output := ← ofJson? output
          status := ← ofJson? status
          steps := ← ofJson? steps }
    | _ => none

end Befunge
