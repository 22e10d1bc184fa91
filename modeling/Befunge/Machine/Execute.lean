-- What one instruction does to a machine, and what makes it stop.
import Befunge.Fault
import Befunge.Instruction
import Befunge.Machine.Basic
import Befunge.Random.Source

namespace Befunge

/-- Why a machine stops before its program halts. -/
inductive Stop where
  /-- The program is at fault. -/
  | fault (fault : Fault)
  /-- The random source never chooses a heading. -/
  | stalled
  deriving DecidableEq

/-- The machine after an instruction, and why it stopped there, if it did. -/
structure Effect (ρ : Type) where
  machine : Machine ρ
  stop : Option Stop

namespace Effect

variable {ρ : Type}

/-- The effect of an instruction that succeeds. -/
def done (m : Machine ρ) : Effect ρ := ⟨m, none⟩

/-- The effect of an instruction that fails. What it had popped by then stays popped. -/
def fail (m : Machine ρ) (f : Fault) : Effect ρ := ⟨m, some (.fault f)⟩

/-- The pointer moves on after an instruction that succeeds, and stays after one that does
not. -/
def advance (e : Effect ρ) : Effect ρ :=
  match e.stop with
  | none => done e.machine.advance
  | some _ => e

end Effect

namespace Machine

variable {ρ : Type} [RandomSource ρ]

/-- The effect of an instruction, without the move that follows it. -/
def perform (m : Machine ρ) : Instruction → Effect ρ
  | .digit n => .done (m.push (Int64.ofNat n))
  | .operate op => .done ((m.drop 2).push (op.apply (m.peek 1) (m.peek 0)))
  | .not => .done ((m.drop 1).push (Value.ofBool (m.peek 0 = 0)))
  | .turn h => .done { m with heading := h }
  | .turnRandomly =>
    match RandomSource.sample m.random with
    | some (h, next) => .done { m with heading := h, random := next }
    | none => ⟨m, some .stalled⟩
  | .branchAcross => .done { m.drop 1 with heading := if m.peek 0 = 0 then .right else .left }
  | .branchAlong => .done { m.drop 1 with heading := if m.peek 0 = 0 then .down else .up }
  | .quote => .done { m with stringMode := !m.stringMode }
  | .duplicate => .done (((m.drop 1).push (m.peek 0)).push (m.peek 0))
  | .swap => .done (((m.drop 2).push (m.peek 0)).push (m.peek 1))
  | .discard => .done (m.drop 1)
  | .writeNumber =>
    .done { m.drop 1 with output := m.output ++ Decimal.text (m.peek 0).toInt }
  | .writeCharacter =>
    match Value.toChar? (m.peek 0) with
    | some c => .done { m.drop 1 with output := m.output.push c }
    | none => .fail (m.drop 1) (.invalidValue (m.peek 0) Fault.outputContext)
  | .bridge => .done m.advance
  | .put =>
    match Value.toChar? (m.peek 2) with
    | some c =>
      .done { m.drop 3 with field := m.field.write (m.peek 1).toInt (m.peek 0).toInt c }
    | none => .fail (m.drop 3) (.invalidValue (m.peek 2) Fault.cellContext)
  | .get =>
    .done ((m.drop 2).push (Value.ofChar (m.field.read (m.peek 1).toInt (m.peek 0).toInt)))
  | .blank => .done m

/-- The effect of a character, as if it were under the pointer. In string mode every character
but the quote is pushed; else it must stand for an instruction. -/
def execute (m : Machine ρ) (c : Char) : Effect ρ :=
  if m.stringMode ∧ c ≠ quoteCell then .done (m.push (Value.ofChar c)).advance
  else
    match Instruction.ofChar? c with
    | some i => (m.perform i).advance
    | none => .fail m (.unknownInstruction c m.position)

/-- The effect of the characters of a text, one after another up to the first that fails, with
the number of those that succeeded. `count` is the number before the text. -/
def executeAll (m : Machine ρ) (count : Nat) : List Char → Nat × Effect ρ
  | [] => (count, .done m)
  | c :: rest =>
    let e := m.execute c
    match e.stop with
    | none => e.machine.executeAll (count + 1) rest
    | some _ => (count, e)

end Machine

end Befunge
