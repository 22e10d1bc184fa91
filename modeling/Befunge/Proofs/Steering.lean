-- Ways to keep the pointer on the playfield. The machine lets it run off the edge and
-- brings it back when a cell is fetched. A machine that brings it back with the rule of
-- one addition, and one whose pointer never leaves the playfield, do the same.
import Befunge.Proofs.Pointer
import Befunge.Random.Progression

namespace Befunge

/-! ## Machines with a steering of their own -/

/-- What is made of the place of the pointer before a cell is fetched, and by one move along a
heading. -/
structure Steering where
  fetch : Playfield → Point → Point
  move : Playfield → Point → Heading → Point

namespace Steering

/-- The pointer moves freely, and a fetch takes the remainder of both coordinates. -/
def free : Steering where
  fetch := Playfield.settle
  move _ p h := p.advance h

/-- The pointer moves freely, and a fetch adds the size to a negative coordinate once before it
takes the remainder. -/
def freeOnce : Steering where
  fetch := Playfield.settleOnce
  move _ p h := p.advance h

/-- The same rule is applied after every single move, and a fetch takes the place as it is. -/
def inside : Steering where
  fetch _ p := p
  move g p h := g.settleOnce (p.advance h)

variable {ρ : Type}

def moved (s : Steering) (m : Machine ρ) : Machine ρ :=
  { m with position := s.move m.field m.position m.heading }

def fetched (s : Steering) (m : Machine ρ) : Machine ρ :=
  { m with position := s.fetch m.field m.position }

def advance (s : Steering) (e : Effect ρ) : Effect ρ :=
  match e.stop with
  | none => .done (s.moved e.machine)
  | some _ => e

variable [RandomSource ρ]

/-- The bridge is the only instruction that makes a move of its own. -/
def perform (s : Steering) (m : Machine ρ) : Instruction → Effect ρ
  | .bridge => .done (s.moved m)
  | i => m.perform i

def execute (s : Steering) (m : Machine ρ) (c : Char) : Effect ρ :=
  if m.stringMode ∧ c ≠ quoteCell then s.advance (.done (m.push (Value.ofChar c)))
  else
    match Instruction.ofChar? c with
    | some i => s.advance (s.perform m i)
    | none => .fail m (.unknownInstruction c m.position)

def visit (s : Steering) (m : Machine ρ) : Cycle ρ :=
  if m.cell = haltCell then ⟨⟨{ m with status := .halted }, .halted⟩, []⟩
  else
    let fetch := Event.step m.position m.cell m.heading
    let e := s.execute m m.cell
    match e.stop with
    | none => ⟨⟨e.machine.count, .running⟩, [fetch]⟩
    | some (.fault f) => ⟨⟨e.machine, .stopped (.fault f)⟩, [fetch, .aborted f]⟩
    | some .stalled => ⟨⟨e.machine, .stopped .stalled⟩, [fetch]⟩

/-- One cycle of the machine with a given steering. -/
def cycle (s : Steering) (m : Machine ρ) : Cycle ρ :=
  match m.status with
  | .halted => ⟨⟨m, .halted⟩, []⟩
  | .running => s.visit (s.fetched m)

/-! ## Free steering -/

theorem free_perform (m : Machine ρ) (i : Instruction) : free.perform m i = m.perform i := by
  cases i <;> rfl

theorem free_execute (m : Machine ρ) (c : Char) : free.execute m c = m.execute c := by
  unfold execute Machine.execute
  simp only [free_perform]
  rfl

theorem free_visit (m : Machine ρ) : free.visit m = m.visit := by
  unfold visit Machine.visit
  rewrite [free_execute]
  rfl

/-- The machine steers freely. -/
theorem free_cycle (m : Machine ρ) : free.cycle m = m.step := by
  unfold cycle Machine.step
  rw [free_visit]
  rfl

/-- While the pointer is at most two cells outside the playfield, one addition is enough. -/
theorem freeOnce_cycle {m : Machine ρ} (hg : m.field.Addressable)
    (hp : m.field.Nearby 2 m.position) : freeOnce.cycle m = m.step := by
  have hfetch : freeOnce.fetched m = free.fetched m :=
    congrArg (fun p => { m with position := p }) (hg.settleOnce_eq_settle hp)
  rw [← free_cycle]
  unfold cycle
  rw [hfetch]
  rfl

end Steering

/-! ## Steering inside the playfield -/

namespace Machine

variable {ρ : Type} {m : Machine ρ}

theorem settle_eq_self (hg : m.field.Addressable) (hp : m.field.Nearby 0 m.position) :
    m.settle = m :=
  congrArg (fun p => { m with position := p }) (hg.settle_eq_self hp)

end Machine

namespace Steering

variable {ρ : Type} {m : Machine ρ}

theorem inside_moved (hg : m.field.Addressable) (hp : m.field.Nearby 1 m.position) :
    inside.moved m.settle = m.advance.settle := by
  have h0 := hg.nearby_settle m.position
  have h1 := (hg.nearby_advance h0 (by omega) m.heading).mono (l := 2) (by omega)
  have hplace : m.field.settleOnce ((m.field.settle m.position).advance m.heading) =
      m.field.settle (m.position.advance m.heading) := by
    rw [hg.settleOnce_eq_settle h1, hg.settle_advance hp (by omega)]
  exact congrArg (fun p => { m with position := p }) hplace

/-- The effect of an instruction with the pointer brought onto the playfield. -/
def settled (e : Effect ρ) : Effect ρ := ⟨e.machine.settle, e.stop⟩

theorem settled_eq_self {e : Effect ρ} (hg : e.machine.field.Addressable)
    (hp : e.machine.field.Nearby 0 e.machine.position) : settled e = e := by
  unfold settled
  rw [Machine.settle_eq_self hg hp]

theorem inside_advance {e : Effect ρ} (hg : e.machine.field.Addressable)
    (hp : e.machine.field.Nearby 1 e.machine.position) :
    inside.advance (settled e) = settled e.advance := by
  obtain ⟨m, stop⟩ := e
  cases stop with
  | none => exact congrArg Effect.done (inside_moved hg hp)
  | some s => rfl

variable [RandomSource ρ]

theorem inside_perform (hg : m.field.Addressable) (hp : m.field.Nearby 0 m.position)
    (i : Instruction) : inside.perform m i = settled (m.perform i) := by
  by_cases hi : i = .bridge
  · subst hi
    have hmoved := inside_moved hg (hp.mono (l := 1) (by omega))
    rw [Machine.settle_eq_self hg hp] at hmoved
    exact congrArg Effect.done hmoved
  · have hsame : inside.perform m i = m.perform i := by
      cases i with
      | bridge => exact absurd rfl hi
      | _ => rfl
    rw [hsame, settled_eq_self (Machine.addressable_perform hg i)]
    rw [m.perform_position hi]
    exact hp.congr (m.perform_width i) (m.perform_height i)

theorem inside_execute (hg : m.field.Addressable) (hp : m.field.Nearby 0 m.position) (c : Char) :
    inside.execute m c = settled (m.execute c) := by
  unfold execute Machine.execute
  split
  · have hpush : settled (.done (m.push (Value.ofChar c))) = .done (m.push (Value.ofChar c)) :=
      settled_eq_self (e := .done (m.push _)) hg hp
    rw [← hpush]
    exact inside_advance (e := .done (m.push _)) hg (hp.mono (by omega))
  · cases Instruction.ofChar? c with
    | none => exact (settled_eq_self (e := .fail m _) hg hp).symm
    | some i =>
      simp only
      rw [inside_perform hg hp]
      apply inside_advance (Machine.addressable_perform hg i)
      exact (Machine.nearby_perform hg hp i).congr (m.perform_width i) (m.perform_height i)

theorem inside_visit (hg : m.field.Addressable) (hp : m.field.Nearby 0 m.position) :
    inside.visit m = ⟨⟨m.visit.machine.settle, m.visit.turn⟩, m.visit.events⟩ := by
  unfold visit Machine.visit
  rw [inside_execute hg hp]
  split
  · have hself : ({ m with status := .halted } : Machine ρ).settle = { m with status := .halted } :=
      Machine.settle_eq_self (m := { m with status := .halted }) hg hp
    simp only [hself]
  · rcases m.execute m.cell with ⟨next, _ | (_ | _)⟩ <;> rfl

/-- A cycle with the pointer kept inside does what a cycle of the machine does, and leaves the
pointer where a fetch would bring it. -/
theorem inside_cycle (hg : m.field.Addressable) :
    inside.cycle m.settle = ⟨⟨m.step.machine.settle, m.step.turn⟩, m.step.events⟩ := by
  have hs : m.settle.status = m.status := rfl
  unfold cycle Machine.step
  rw [hs]
  cases m.status with
  | halted => rfl
  | running => exact inside_visit (m := m.settle) hg (hg.nearby_settle m.position)

theorem inside_after (hg : m.field.Addressable) (n : Nat) :
    Machine.afterBy inside.cycle m.settle n = (m.after n).settle := by
  induction n with
  | zero => rfl
  | succ n ih =>
    rw [Machine.afterBy_succ, ih, inside_cycle (Machine.addressable_after hg n),
      Machine.after_succ]

theorem freeOnce_after (hg : m.field.Addressable) (hp : m.field.Nearby 2 m.position) (n : Nat) :
    Machine.afterBy freeOnce.cycle m n = m.after n := by
  induction n with
  | zero => rw [Machine.afterBy_zero, Machine.after_zero]
  | succ n ih =>
    have hcycle := freeOnce_cycle (Machine.addressable_after hg n) (Machine.nearby_after hg hp n)
    rw [Machine.afterBy_succ, ih, hcycle, Machine.after_succ]

end Steering

namespace Machine

open Steering

variable {ρ : Type} [RandomSource ρ]

/-- On a playfield whose sizes are far from the largest word, one addition before the remainder
gives the same run, cycle by cycle. So does a pointer that is brought back after every move, but
for the place of the pointer, which is then the place where the machine fetches next. -/
theorem running_off_the_edge_is_harmless (m : Machine ρ) {source : String}
    (hw : (Playfield.ofSource source).width < 2 ^ 62)
    (hh : (Playfield.ofSource source).height < 2 ^ 62) (n : Nat) :
    let s := m.load source
    (afterBy freeOnce.cycle s n = s.after n ∧
      freeOnce.cycle (afterBy freeOnce.cycle s n) = (s.after n).step) ∧
    afterBy inside.cycle s n = (s.after n).settle ∧
      (inside.cycle (afterBy inside.cycle s n)).turn = (s.after n).step.turn ∧
      (inside.cycle (afterBy inside.cycle s n)).events = (s.after n).step.events ∧
      s.field.Nearby 0 (afterBy inside.cycle s n).position := by
  intro s
  have hg : s.field.Addressable := Playfield.addressable_ofSource hw hh
  have h0 : s.field.Nearby 0 s.position := hg.nearby_origin
  have hgn := addressable_after hg n
  have hfree := freeOnce_after hg (h0.mono (by omega)) n
  have hinside : afterBy inside.cycle s n = (s.after n).settle := by
    rw [← inside_after hg n, settle_eq_self hg h0]
  refine ⟨⟨hfree, ?_⟩, hinside, ?_, ?_, ?_⟩
  · rw [hfree]
    exact freeOnce_cycle hgn (nearby_after hg (h0.mono (by omega)) n)
  · rw [hinside, inside_cycle hgn]
  · rw [hinside, inside_cycle hgn]
  · rw [hinside]
    exact (hgn.nearby_settle _).congr (after_width s n).symm (after_height s n).symm

/-- A bridge on a playfield of one cell jumps over itself. -/
theorem a_bridge_over_itself_is_harmless :
    let s := (Machine.fresh (⟨0, 1⟩ : Progression)).load "#"
    (s.after 1).position = ⟨2, 0⟩ ∧
    (afterBy freeOnce.cycle s 1 = s.after 1 ∧
      freeOnce.cycle (afterBy freeOnce.cycle s 1) = (s.after 1).step) ∧
    afterBy inside.cycle s 1 = (s.after 1).settle ∧
      (inside.cycle (afterBy inside.cycle s 1)).turn = (s.after 1).step.turn ∧
      (inside.cycle (afterBy inside.cycle s 1)).events = (s.after 1).step.events ∧
      s.field.Nearby 0 (afterBy inside.cycle s 1).position :=
  ⟨by decide, running_off_the_edge_is_harmless _ (by decide) (by decide) 1⟩

end Machine

end Befunge
