-- A session: calls on one machine, one after another. Each call gives a reply and
-- leaves the machine to the next.
import Befunge.Machine.Run
import Befunge.Machine.Snapshot

namespace Befunge

/-- A call on a machine. The calls that run a program to its end say within how many cycles. -/
inductive Call where
  | load (source : String)
  | execute (cell : Char)
  | executeAll (text : String)
  | step
  | steps (count : Nat)
  | run (limit : Nat)
  | interpret (limit : Nat) (source : String)
  | push (value : Value)
  | pop
  | read (x y : Int)
  | size
  | isEmpty
  | snapshot
  deriving DecidableEq

/-- What a call replies. -/
inductive Reply where
  /-- The call is done and has nothing to tell. -/
  | done
  /-- Executing a character stopped the machine. -/
  | stopped (stop : Stop)
  /-- So many characters were executed, and the next one may have stopped the machine. -/
  | executed (count : Nat) (stop : Option Stop)
  /-- What the last cycle came to. -/
  | turn (turn : Turn)
  /-- The output of a program that ended, or its fault. -/
  | result (result : Except Fault String)
  /-- The program did not end within the limit. -/
  | unfinished
  | value (value : Value)
  | cell (cell : Char)
  | size (width height : Nat)
  | truth (holds : Bool)
  | snapshot (snapshot : Snapshot)

namespace Machine

variable {ρ : Type} [RandomSource ρ]

/-- The reply to a run that came to `p`, and the machine it left. -/
def ended (p : Progress ρ) : Reply × Machine ρ :=
  match p.ending? with
  | some e => (.result e.result, e.machine)
  | none => (.unfinished, p.machine)

/-- The reply to a call, and the machine it leaves. -/
def answer (m : Machine ρ) : Call → Reply × Machine ρ
  | .load source => (.done, m.load source)
  | .execute c =>
    let e := m.execute c
    match e.stop with
    | none => (.done, e.machine)
    | some s => (.stopped s, e.machine)
  | .executeAll text =>
    let (count, e) := m.executeAll 0 text.toList
    (.executed count e.stop, e.machine)
  | .step => (.turn m.step.turn, m.step.machine)
  | .steps n =>
    let p := m.runFor n
    (.turn p.turn, p.machine)
  | .run limit => ended (m.runFor limit)
  | .interpret limit source => ended ((m.load source).runFor limit)
  | .push v => (.done, m.push v)
  | .pop => (.value m.pop.1, m.pop.2)
  | .read x y => (.cell (m.field.read x y), m)
  | .size => (.size m.field.width m.field.height, m)
  | .isEmpty => (.truth m.stack.isEmpty, m)
  | .snapshot => (.snapshot m.snapshot, m)

/-- The replies to some calls in a row, and the machine that is left. -/
def answers (m : Machine ρ) : List Call → List Reply × Machine ρ
  | [] => ([], m)
  | call :: rest =>
    let (reply, next) := m.answer call
    let (replies, last) := next.answers rest
    (reply :: replies, last)

end Machine

end Befunge
