-- The cycle of fetching and executing a cell, and runs of many cycles. A run without
-- a bound is a run within some bound, so a program that never halts has no result.
import Befunge.Machine.Event
import Befunge.Machine.Execute

namespace Befunge

/-! ## One cycle -/

/-- What a cycle came to. -/
inductive Turn where
  | running
  | halted
  | stopped (stop : Stop)
  deriving DecidableEq

/-- A machine after some cycles, and what the last one came to. -/
structure Progress (ρ : Type) where
  machine : Machine ρ
  turn : Turn

/-- A machine after some cycles, with their events. -/
structure Cycle (ρ : Type) extends Progress ρ where
  events : List Event

namespace Machine

variable {ρ : Type} [RandomSource ρ]

/-- The machine with one more cell counted. -/
def count (m : Machine ρ) : Machine ρ := { m with steps := m.steps + 1 }

/-- A cycle of a running machine whose pointer is on the playfield: the cell under it is
executed. The halting cell halts the program, in string mode too, and the pointer stays on it.
A cell that fails is not counted. -/
def visit (m : Machine ρ) : Cycle ρ :=
  if m.cell = haltCell then ⟨⟨{ m with status := .halted }, .halted⟩, []⟩
  else
    let fetch := Event.step m.position m.cell m.heading
    let e := m.execute m.cell
    match e.stop with
    | none => ⟨⟨e.machine.count, .running⟩, [fetch]⟩
    | some (.fault f) => ⟨⟨e.machine, .stopped (.fault f)⟩, [fetch, .aborted f]⟩
    | some .stalled => ⟨⟨e.machine, .stopped .stalled⟩, [fetch]⟩

/-- One cycle: the pointer is brought onto the playfield and the cell under it is executed. A
halted machine does nothing. -/
def step (m : Machine ρ) : Cycle ρ :=
  match m.status with
  | .halted => ⟨⟨m, .halted⟩, []⟩
  | .running => m.settle.visit

/-! ## Many cycles -/

/-- At most `n` cycles, up to the first that does not leave the machine running. -/
def runFor : Nat → Machine ρ → Progress ρ
  | 0, m => ⟨m, .running⟩
  | n + 1, m =>
    let c := m.step
    match c.turn with
    | .running => runFor n c.machine
    | _ => c.toProgress

/-- At most `n` cycles with their events. The events before them are `before`, the last one
first. -/
def watchFrom (before : List Event) : Nat → Machine ρ → Cycle ρ
  | 0, m => ⟨⟨m, .running⟩, before.reverse⟩
  | n + 1, m =>
    let c := m.step
    let before := c.events.reverse ++ before
    match c.turn with
    | .running => watchFrom before n c.machine
    | _ => ⟨c.toProgress, before.reverse⟩

/-- At most `n` cycles, with their events. -/
def watchFor (n : Nat) (m : Machine ρ) : Cycle ρ := watchFrom [] n m

/-- Each of at most `n` cycles, up to the first that does not leave the machine running. -/
def cycles : Nat → Machine ρ → List (Cycle ρ)
  | 0, _ => []
  | n + 1, m =>
    let c := m.step
    match c.turn with
    | .running => c :: cycles n c.machine
    | _ => [c]

end Machine

/-! ## Whole runs -/

/-- The end of a run: the machine, and the fault that ended it, if one did. -/
structure Ending (ρ : Type) where
  machine : Machine ρ
  fault : Option Fault

namespace Ending

variable {ρ : Type}

/-- The output of a program that halted, or its fault. -/
def result (e : Ending ρ) : Except Fault String :=
  match e.fault with
  | none => .ok e.machine.output
  | some f => .error f

end Ending

/-- The end of a run, if it has come to one. A machine that still runs or that waits for a
heading forever has not. -/
def Progress.ending? {ρ : Type} (p : Progress ρ) : Option (Ending ρ) :=
  match p.turn with
  | .halted => some ⟨p.machine, none⟩
  | .stopped (.fault f) => some ⟨p.machine, some f⟩
  | .stopped .stalled => none
  | .running => none

namespace Machine

variable {ρ : Type} [RandomSource ρ]

/-- The end of the run, if it comes within `limit` cycles. -/
def runWithin (limit : Nat) (m : Machine ρ) : Option (Ending ρ) := (m.runFor limit).ending?

/-- The end of the run of a source, if it comes within `limit` cycles. -/
def interpretWithin (limit : Nat) (m : Machine ρ) (source : String) : Option (Ending ρ) :=
  (m.load source).runWithin limit

/-! ## Laws of runs -/

theorem step_of_halted {m : Machine ρ} (h : m.status = .halted) : m.step = ⟨⟨m, .halted⟩, []⟩ := by
  simp [step, h]

theorem step_of_running {m : Machine ρ} (h : m.status = .running) : m.step = m.settle.visit := by
  simp [step, h]

theorem runFor_succ_of_running {n : Nat} {m : Machine ρ} (h : m.step.turn = .running) :
    m.runFor (n + 1) = m.step.machine.runFor n := by
  simp [runFor, h]

theorem runFor_succ_of_ne {n : Nat} {m : Machine ρ} (h : m.step.turn ≠ .running) :
    m.runFor (n + 1) = m.step.toProgress := by
  rw [runFor]
  split
  · rename_i hrun
    exact absurd hrun h
  · rfl

/-- A run that is still running goes on from where it is. -/
theorem runFor_add_of_running {n k : Nat} {m : Machine ρ} (h : (m.runFor n).turn = .running) :
    m.runFor (n + k) = (m.runFor n).machine.runFor k := by
  induction n generalizing m with
  | zero => rw [Nat.zero_add]; rfl
  | succ n ih =>
    by_cases hstep : m.step.turn = .running
    · rw [runFor_succ_of_running hstep] at h ⊢
      rw [Nat.succ_add, runFor_succ_of_running hstep, ih h]
    · rw [runFor_succ_of_ne hstep] at h
      exact absurd h hstep

/-- A run that has stopped running stays as it is. -/
theorem runFor_add_of_ne {n k : Nat} {m : Machine ρ} (h : (m.runFor n).turn ≠ .running) :
    m.runFor (n + k) = m.runFor n := by
  induction n generalizing m with
  | zero => exact absurd rfl h
  | succ n ih =>
    by_cases hstep : m.step.turn = .running
    · rw [runFor_succ_of_running hstep] at h
      rw [Nat.succ_add, runFor_succ_of_running hstep, runFor_succ_of_running hstep, ih h]
    · rw [Nat.succ_add, runFor_succ_of_ne hstep, runFor_succ_of_ne hstep]

/-- The events before a run stay in front of its own. -/
theorem watchFrom_events (before : List Event) (n : Nat) (m : Machine ρ) :
    (watchFrom before n m).events = before.reverse ++ (watchFor n m).events := by
  unfold watchFor
  induction n generalizing before m with
  | zero => simp [watchFrom]
  | succ n ih =>
    simp only [watchFrom]
    split
    · rw [ih, ih (m.step.events.reverse ++ [])]
      simp
    · simp

/-- Watching a run does not change it. -/
theorem watchFrom_toProgress (before : List Event) (n : Nat) (m : Machine ρ) :
    (watchFrom before n m).toProgress = m.runFor n := by
  induction n generalizing before m with
  | zero => rfl
  | succ n ih =>
    simp only [watchFrom, runFor]
    split
    · exact ih _ _
    · rfl

/-- The events of a run are those of its cycles. -/
theorem watchFor_events (n : Nat) (m : Machine ρ) :
    (watchFor n m).events = (m.cycles n).flatMap (·.events) := by
  induction n generalizing m with
  | zero => rfl
  | succ n ih =>
    unfold watchFor
    simp only [watchFrom, cycles]
    split
    · rw [watchFrom_events, ih]
      simp
    · simp

end Machine

end Befunge
