-- Running a source as a whole: the options of a run, its report and its log.
import Befunge.Machine.Run
import Befunge.Machine.Snapshot
import Befunge.Random.ChaCha

namespace Befunge

/-! ## Options -/

/-- The options of a run. Without a seed, the run takes a key from its surroundings. -/
structure Options where
  seed : Option UInt64
  deriving DecidableEq

/-- A machine for a run. Without a seed, the key of its random source is `entropy`. -/
def Options.machine (o : Options) (entropy : ChaCha.Key) : Machine ChaCha :=
  Machine.fresh ((o.seed.map ChaCha.ofSeed).getD (ChaCha.ofKey entropy))

/-! ## Reports -/

/-- The report of a run: whether the program halted, what it wrote until its end, the fault that
ended it, and the state it left. -/
structure Report where
  success : Bool
  output : String
  fault : Option Fault
  state : Snapshot
  deriving DecidableEq

/-- The report of a run that has come to its end. -/
def Report.ofEnding {ρ : Type} (e : Ending ρ) : Report where
  success := e.fault.isNone
  output := e.machine.output
  fault := e.fault
  state := e.machine.snapshot

/-- The events at the end of a run. -/
def Ending.events {ρ : Type} (e : Ending ρ) : List Event :=
  match e.fault with
  | none => [.halted e.machine.steps e.machine.output.utf8ByteSize]
  | some f => [.failed f]

/-! ## Runs of a source -/

/-- The output of a source, or its fault, if its run ends within `limit` cycles. -/
def interpretWithin (limit : Nat) (o : Options) (entropy : ChaCha.Key) (source : String) :
    Option (Except Fault String) :=
  ((o.machine entropy).interpretWithin limit source).map Ending.result

namespace Machine

variable {ρ : Type} [RandomSource ρ]

/-- The report of a source on a machine, if its run ends within `limit` cycles. -/
def reportWithin (limit : Nat) (m : Machine ρ) (source : String) : Option Report :=
  (m.interpretWithin limit source).map Report.ofEnding

/-- The log of a source on a machine and its report, if its run ends within `limit` cycles. -/
def logWithin (limit : Nat) (m : Machine ρ) (source : String) : Option (List Event × Report) :=
  let m := m.load source
  let c := m.watchFor limit
  c.ending?.map fun e =>
    (.loaded m.field.width m.field.height :: (c.events ++ e.events), Report.ofEnding e)

end Machine

/-- The report of a source, if its run ends within `limit` cycles. -/
def reportWithin (limit : Nat) (o : Options) (entropy : ChaCha.Key) (source : String) :
    Option Report :=
  (o.machine entropy).reportWithin limit source

/-- The log of a source and its report, if its run ends within `limit` cycles. -/
def logWithin (limit : Nat) (o : Options) (entropy : ChaCha.Key) (source : String) :
    Option (List Event × Report) :=
  (o.machine entropy).logWithin limit source

end Befunge
