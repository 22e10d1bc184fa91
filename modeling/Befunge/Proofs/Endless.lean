-- Underflow is invisible. A stack that gives zero where it is empty behaves like one
-- with endlessly many zeros at its bottom, so zeros that really lie there change
-- nothing. The machine with an endless stack is defined here beside the machine.
import Befunge.Proofs.Stepping
import Befunge.Random.Progression
import Mathlib.Data.Stream.Init

namespace Befunge

/-! ## Stacks with zeros at the bottom -/

namespace Stack

/-- The stack with `k` zeros put under it. -/
def onZeros (k : Nat) (s : Stack) : Stack := ofValues (List.replicate k 0 ++ s.values)

/-- Two stacks are alike if one is the other with some zeros put under it. -/
def Alike (s t : Stack) : Prop := ∃ k, t = s.onZeros k ∨ s = t.onZeros k

/-- The numbers of a stack from the top down, and zeros without end below them. -/
def endless (s : Stack) : Stream' Value := Stream'.appendStream' s.items (Stream'.const 0)

theorem items_onZeros (k : Nat) (s : Stack) :
    (s.onZeros k).items = s.items ++ List.replicate k 0 := by
  simp [onZeros, ofValues, values]

theorem get_endless (s : Stack) (n : Nat) : s.endless.get n = s.peek n := by
  unfold endless peek
  rw [List.getD_eq_getElem?_getD]
  rcases Nat.lt_or_ge n s.items.length with h | h
  · rw [Stream'.get_append_left n s.items _ h, List.getElem?_eq_getElem h]
    rfl
  · obtain ⟨k, rfl⟩ := Nat.exists_eq_add_of_le h
    rw [Stream'.get_append_right, List.getElem?_eq_none h]
    rfl

theorem endless_drop (s : Stack) (k : Nat) : (s.drop k).endless = s.endless.drop k := by
  apply Stream'.ext
  intro n
  rw [Stream'.get_drop, get_endless, get_endless]
  unfold peek drop
  rw [List.getD_eq_getElem?_getD, List.getD_eq_getElem?_getD, List.getElem?_drop]

theorem replicate_zero_append (k : Nat) :
    Stream'.appendStream' (List.replicate k (0 : Value)) (Stream'.const 0) = Stream'.const 0 := by
  induction k with
  | zero => rfl
  | succ k ih => rw [List.replicate_succ, Stream'.cons_append_stream, ih, ← Stream'.const_eq]

theorem endless_onZeros (k : Nat) (s : Stack) : (s.onZeros k).endless = s.endless := by
  unfold endless
  rw [items_onZeros, Stream'.append_append_stream, replicate_zero_append]

theorem eq_onZeros_of_endless {s t : Stack} (hl : s.items.length ≤ t.items.length)
    (h : s.endless = t.endless) : t = s.onZeros (t.items.length - s.items.length) := by
  have hitems : t.items = s.items ++ List.replicate (t.items.length - s.items.length) 0 := by
    apply List.ext_getElem
    · simp only [List.length_append, List.length_replicate]
      omega
    · intro n hn _
      have hp : s.peek n = t.peek n := by rw [← get_endless, h, get_endless]
      simp only [peek, List.getD_eq_getElem?_getD, List.getElem?_eq_getElem hn] at hp
      rw [List.getElem_append]
      split
      · rename_i hs
        simpa [hs] using hp.symm
      · rename_i hs
        simpa [hs] using hp.symm
  rw [← items_onZeros] at hitems
  cases t
  exact congrArg Stack.mk hitems

/-- Two stacks are alike if and only if they are the same once both are continued by zeros
without end. -/
theorem alike_iff_endless {s t : Stack} : s.Alike t ↔ s.endless = t.endless := by
  constructor
  · rintro ⟨k, rfl | rfl⟩
    · rw [endless_onZeros]
    · rw [endless_onZeros]
  · intro h
    rcases Nat.le_total s.items.length t.items.length with hl | hl
    · exact ⟨_, Or.inl (eq_onZeros_of_endless hl h)⟩
    · exact ⟨_, Or.inr (eq_onZeros_of_endless hl h.symm)⟩

end Stack

/-! ## The machine with an endless stack -/

/-- A machine whose stack never ends. The top number comes first. -/
structure Endless (ρ : Type) where
  field : Playfield
  stack : Stream' Value
  position : Point
  heading : Heading
  stringMode : Bool
  output : String
  status : Status
  steps : UInt64
  random : ρ

namespace Endless

variable {ρ : Type}

def push (m : Endless ρ) (v : Value) : Endless ρ := { m with stack := Stream'.cons v m.stack }

/-- The number `n` places below the top of the stack. -/
def peek (m : Endless ρ) (n : Nat) : Value := m.stack.get n

def drop (m : Endless ρ) (n : Nat) : Endless ρ := { m with stack := m.stack.drop n }

def advance (m : Endless ρ) : Endless ρ := { m with position := m.position.advance m.heading }

def settle (m : Endless ρ) : Endless ρ :=
  { m with
    position :=
      ⟨Int64.ofNat (Torus.wrap m.position.x.toInt m.field.width),
        Int64.ofNat (Torus.wrap m.position.y.toInt m.field.height)⟩ }

def cell (m : Endless ρ) : Char := m.field.read m.position.x.toInt m.position.y.toInt

variable [RandomSource ρ]

/-- The machine after an instruction, and why it stopped there, if it did. No number is ever
missing. -/
def perform (m : Endless ρ) : Instruction → Endless ρ × Option Stop
  | .digit n => (m.push (Int64.ofNat n), none)
  | .operate op => ((m.drop 2).push (op.apply (m.peek 1) (m.peek 0)), none)
  | .not => ((m.drop 1).push (Value.ofBool (m.peek 0 = 0)), none)
  | .turn h => ({ m with heading := h }, none)
  | .turnRandomly =>
    match RandomSource.sample m.random with
    | some (h, next) => ({ m with heading := h, random := next }, none)
    | none => (m, some .stalled)
  | .branchAcross => ({ m.drop 1 with heading := if m.peek 0 = 0 then .right else .left }, none)
  | .branchAlong => ({ m.drop 1 with heading := if m.peek 0 = 0 then .down else .up }, none)
  | .quote => ({ m with stringMode := !m.stringMode }, none)
  | .duplicate => (m.push (m.peek 0), none)
  | .swap => (((m.drop 2).push (m.peek 0)).push (m.peek 1), none)
  | .discard => (m.drop 1, none)
  | .writeNumber =>
    ({ m.drop 1 with output := m.output ++ Decimal.text (m.peek 0).toInt }, none)
  | .writeCharacter =>
    match Value.toChar? (m.peek 0) with
    | some c => ({ m.drop 1 with output := m.output.push c }, none)
    | none => (m.drop 1, some (.fault (.invalidValue (m.peek 0) Fault.outputContext)))
  | .bridge => (m.advance, none)
  | .put =>
    match Value.toChar? (m.peek 2) with
    | some c =>
      ({ m.drop 3 with field := m.field.write (m.peek 1).toInt (m.peek 0).toInt c }, none)
    | none => (m.drop 3, some (.fault (.invalidValue (m.peek 2) Fault.cellContext)))
  | .get =>
    ((m.drop 2).push (Value.ofChar (m.field.read (m.peek 1).toInt (m.peek 0).toInt)), none)
  | .blank => (m, none)

/-- The pointer moves on after what succeeds. -/
def moveOn : Endless ρ × Option Stop → Endless ρ × Option Stop
  | (m, none) => (m.advance, none)
  | (m, some s) => (m, some s)

def execute (m : Endless ρ) (c : Char) : Endless ρ × Option Stop :=
  if m.stringMode ∧ c ≠ quoteCell then moveOn (m.push (Value.ofChar c), none)
  else
    match Instruction.ofChar? c with
    | some i => moveOn (m.perform i)
    | none => (m, some (.fault (.unknownInstruction c m.position)))

/-- What a cycle of a running machine comes to, and the machine after it. -/
def visit (m : Endless ρ) : Turn × Endless ρ :=
  if m.cell = haltCell then (.halted, { m with status := .halted })
  else
    match m.execute m.cell with
    | (next, none) => (.running, { next with steps := next.steps + 1 })
    | (next, some s) => (.stopped s, next)

def step (m : Endless ρ) : Turn × Endless ρ :=
  match m.status with
  | .halted => (.halted, m)
  | .running => m.settle.visit

def runFor : Nat → Endless ρ → Turn × Endless ρ
  | 0, m => (.running, m)
  | n + 1, m =>
    match m.step with
    | (.running, next) => runFor n next
    | (t, next) => (t, next)

/-- The reply to a run that came to some turn. -/
def ended : Turn × Endless ρ → Reply × Endless ρ
  | (.halted, m) => (.result (.ok m.output), m)
  | (.stopped (.fault f), m) => (.result (.error f), m)
  | (.stopped .stalled, m) => (.unfinished, m)
  | (.running, m) => (.unfinished, m)

/-- The reply to a move, and the machine it leaves. -/
def play (m : Endless ρ) : Move → Reply × Endless ρ
  | .execute c =>
    match m.execute c with
    | (next, none) => (.done, next)
    | (next, some s) => (.stopped s, next)
  | .step => (.turn m.step.1, m.step.2)
  | .push v => (.done, m.push v)
  | .pop => (.value (m.peek 0), m.drop 1)
  | .run limit => ended (m.runFor limit)

def plays (m : Endless ρ) : List Move → List Reply × Endless ρ
  | [] => ([], m)
  | a :: moves =>
    let (r, next) := m.play a
    let (rs, last) := next.plays moves
    (r :: rs, last)

end Endless

/-! ## The machine on top of zeros is the endless one -/

/-- The machine with its stack continued by zeros without end. -/
def Machine.endless {ρ : Type} (m : Machine ρ) : Endless ρ where
  field := m.field
  stack := m.stack.endless
  position := m.position
  heading := m.heading
  stringMode := m.stringMode
  output := m.output
  status := m.status
  steps := m.steps
  random := m.random

namespace Machine

variable {ρ : Type}

theorem endless_peek (m : Machine ρ) (n : Nat) : m.endless.peek n = m.peek n :=
  m.stack.get_endless n

theorem endless_push (m : Machine ρ) (v : Value) : (m.push v).endless = m.endless.push v := rfl

theorem endless_drop (m : Machine ρ) (k : Nat) : (m.drop k).endless = m.endless.drop k := by
  simp only [endless, drop, Endless.drop, Stack.endless_drop]

/-- Popping a number and pushing it again may leave one zero more on an empty stack, which is no
difference on an endless one. -/
theorem endless_drop_push (m : Machine ρ) : ((m.drop 1).push (m.peek 0)).endless = m.endless := by
  have hs : Stream'.cons (m.stack.peek 0) (m.stack.endless.drop 1) = m.stack.endless := by
    rw [← Stack.get_endless]
    exact Stream'.eta _
  rw [endless_push, endless_drop]
  simp only [endless, Endless.push, Endless.drop, peek, hs]

theorem endless_moveOn (e : Effect ρ) :
    Endless.moveOn (e.machine.endless, e.stop) = (e.advance.machine.endless, e.advance.stop) := by
  obtain ⟨m, stop⟩ := e
  cases stop <;> rfl

theorem endless_ended (p : Progress ρ) :
    Endless.ended (p.turn, p.machine.endless) = ((ended p).1, (ended p).2.endless) := by
  obtain ⟨m, turn⟩ := p
  rcases turn with _ | _ | (_ | _) <;> rfl

variable [RandomSource ρ]

theorem endless_perform (m : Machine ρ) (i : Instruction) :
    m.endless.perform i = ((m.perform i).machine.endless, (m.perform i).stop) := by
  cases i with
  | digit n | turn h | quote | bridge | blank => rfl
  | operate op | not | swap | discard =>
    simp only [perform, Endless.perform, endless_peek, Effect.done, endless_push, endless_drop]
  | get =>
    simp only [perform, Endless.perform, endless_peek, Effect.done, endless_push, endless_drop]
    rfl
  | branchAcross | branchAlong | writeNumber =>
    simp only [perform, Endless.perform, endless_peek, Effect.done]
    simp only [endless, drop, Endless.drop, Stack.endless_drop]
  | duplicate =>
    simp only [perform, Endless.perform, endless_peek, Effect.done]
    rw [endless_push, endless_drop_push]
  | turnRandomly =>
    have hr : m.endless.random = m.random := rfl
    simp only [perform, Endless.perform, hr]
    cases RandomSource.sample m.random <;> rfl
  | writeCharacter =>
    simp only [perform, Endless.perform, endless_peek]
    cases Value.toChar? (m.peek 0) with
    | none => simp only [Effect.fail, endless_drop]
    | some c => simp only [Effect.done, endless, drop, Endless.drop, Stack.endless_drop]
  | put =>
    simp only [perform, Endless.perform, endless_peek]
    cases Value.toChar? (m.peek 2) with
    | none => simp only [Effect.fail, endless_drop]
    | some c => simp only [Effect.done, endless, drop, Endless.drop, Stack.endless_drop]

theorem endless_execute (m : Machine ρ) (c : Char) :
    m.endless.execute c = ((m.execute c).machine.endless, (m.execute c).stop) := by
  have hm : m.endless.stringMode = m.stringMode := rfl
  unfold execute Endless.execute
  rw [hm]
  split
  · rfl
  · cases Instruction.ofChar? c with
    | none => rfl
    | some i =>
      simp only
      rw [endless_perform, endless_moveOn]

theorem endless_visit (m : Machine ρ) :
    m.endless.visit = (m.visit.turn, m.visit.machine.endless) := by
  have hc : m.endless.cell = m.cell := rfl
  unfold visit Endless.visit
  rw [hc, endless_execute]
  split
  · rfl
  · rcases m.execute m.cell with ⟨next, _ | (_ | _)⟩ <;> rfl

theorem endless_step (m : Machine ρ) : m.endless.step = (m.step.turn, m.step.machine.endless) := by
  have hs : m.endless.status = m.status := rfl
  unfold step Endless.step
  rw [hs]
  cases m.status with
  | halted => rfl
  | running => exact endless_visit m.settle

theorem endless_runFor (n : Nat) (m : Machine ρ) :
    m.endless.runFor n = ((m.runFor n).turn, (m.runFor n).machine.endless) := by
  induction n generalizing m with
  | zero => rfl
  | succ n ih =>
    simp only [runFor, Endless.runFor, endless_step]
    obtain ⟨⟨next, turn⟩, events⟩ := m.step
    cases turn with
    | running => exact ih next
    | halted => rfl
    | stopped s => rfl

theorem endless_play (m : Machine ρ) (a : Move) :
    m.endless.play a = ((m.answer a.call).1, (m.answer a.call).2.endless) := by
  cases a with
  | execute c =>
    simp only [Endless.play, Move.call, answer, endless_execute]
    cases (m.execute c).stop <;> rfl
  | step => simp only [Endless.play, Move.call, answer, endless_step]
  | push v => rfl
  | pop => simp only [Endless.play, Move.call, answer, pop, endless_peek, endless_drop]
  | run limit => simp only [Endless.play, Move.call, answer, endless_runFor, endless_ended]

/-- The machine with the endless stack gives the same replies to any moves, and it is left as the
machine is, its stack continued by zeros without end. -/
theorem endless_plays (m : Machine ρ) (moves : List Move) :
    m.endless.plays moves = ((m.plays moves).1, (m.plays moves).2.endless) := by
  induction moves generalizing m with
  | nil => rfl
  | cons a moves ih =>
    rw [plays_cons, Endless.plays, endless_play]
    simp only [ih]

end Machine

/-! ## Machines that differ by zeros at the bottom -/

namespace Machine

variable {ρ : Type}

/-- Two machines are alike if they differ only by zeros at the bottom of their stacks. -/
def Alike (m m' : Machine ρ) : Prop :=
  m' = { m with stack := m'.stack } ∧ m.stack.Alike m'.stack

theorem alike_iff_endless {m m' : Machine ρ} : m.Alike m' ↔ m.endless = m'.endless := by
  unfold Alike
  rw [Stack.alike_iff_endless]
  cases m
  cases m'
  simp only [endless, mk.injEq, Endless.mk.injEq]
  grind

variable [RandomSource ρ]

/-- Machines that are alike reply alike to any moves, also to those that fail, and are alike after
each of them. Both reply as the machine does whose stack goes on with zeros without end. -/
theorem zeros_at_the_bottom_are_invisible {m m' : Machine ρ} (h : m.Alike m')
    (moves : List Move) :
    (m.plays moves).1 = (m'.plays moves).1 ∧
      (∀ n, (m.plays (moves.take n)).2.Alike (m'.plays (moves.take n)).2) ∧
      m.endless.plays moves = ((m.plays moves).1, (m.plays moves).2.endless) := by
  have hplays : ∀ some : List Move, (m.plays some).1 = (m'.plays some).1 ∧
      (m.plays some).2.endless = (m'.plays some).2.endless := by
    intro some
    have hsame := endless_plays m some
    rw [alike_iff_endless.1 h, endless_plays] at hsame
    exact ⟨(congrArg Prod.fst hsame).symm, (congrArg Prod.snd hsame).symm⟩
  refine ⟨(hplays moves).1, ?_, endless_plays m moves⟩
  intro n
  exact alike_iff_endless.2 (hplays (moves.take n)).2

theorem zeros_under_a_lone_number_are_invisible :
    let m := (Machine.fresh (⟨0, 1⟩ : Progression)).push (-1)
    let m' := { m with stack := m.stack.onZeros 3 }
    let moves := [.execute ',', .execute ':', .execute 'p', .step, .pop, .run 5]
    m.Alike m' ∧ (m.plays moves).1 = (m'.plays moves).1 ∧
      (∀ n, (m.plays (moves.take n)).2.Alike (m'.plays (moves.take n)).2) ∧
      m.endless.plays moves = ((m.plays moves).1, (m.plays moves).2.endless) :=
  ⟨⟨rfl, 3, Or.inl rfl⟩, zeros_at_the_bottom_are_invisible ⟨rfl, 3, Or.inl rfl⟩ _⟩

end Machine

end Befunge
