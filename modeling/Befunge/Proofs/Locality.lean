-- Locality. A program depends on its playfield only through the cells that it fetches and
-- those that it gets. Two runs on playfields that differ in other cells go the same way, and
-- what one of them overwrites is the same in both from then on.
import Befunge.Proofs.Cells
import Befunge.Proofs.Pointer
import Befunge.Random.Progression

namespace Befunge

namespace Machine

variable {ρ : Type}

/-! ## What a cycle looks at and what it overwrites -/

/-- The instruction that a character stands for at this time. In string mode there is only the
quote. -/
def means? (m : Machine ρ) (c : Char) : Option Instruction :=
  if m.stringMode ∧ c ≠ quoteCell then none else Instruction.ofChar? c

/-- The instruction of the next cycle. -/
def instruction? (m : Machine ρ) : Option Instruction :=
  match m.status with
  | .running => m.means? m.settle.cell
  | .halted => none

/-- The cells that the next cycle looks at: the one that is fetched, and the one that is got. -/
def looksAt (m : Machine ρ) : Set Spot :=
  {s | m.status = .running ∧
        s = m.field.spot m.settle.position.x.toInt m.settle.position.y.toInt ∨
      m.instruction? = some .get ∧ s = m.field.spot (m.peek 1).toInt (m.peek 0).toInt}

/-- The cell that the next cycle overwrites, if it puts a character. -/
def overwrites (m : Machine ρ) : Set Spot :=
  {s | m.instruction? = some .put ∧ (Value.toChar? (m.peek 2)).isSome ∧
      s = m.field.spot (m.peek 1).toInt (m.peek 0).toInt}

instance (m : Machine ρ) (s : Spot) : Decidable (s ∈ m.looksAt) :=
  inferInstanceAs (Decidable (_ ∨ _))

instance (m : Machine ρ) (s : Spot) : Decidable (s ∈ m.overwrites) :=
  inferInstanceAs (Decidable (_ ∧ _))

/-- A playfield with the cell overwritten that an instruction overwrites. -/
def puts (m : Machine ρ) (i : Option Instruction) (g : Playfield) : Playfield :=
  match i, Value.toChar? (m.peek 2) with
  | some .put, some c => g.write (m.peek 1).toInt (m.peek 0).toInt c
  | _, _ => g

/-- The machine on another playfield. -/
def on (m : Machine ρ) (g : Playfield) : Machine ρ := { m with field := g }

theorem means?_halt (m : Machine ρ) : m.means? haltCell = none := by
  unfold means?
  split
  · rfl
  · rfl

theorem instruction?_of_running {m : Machine ρ} (h : m.status = .running) :
    m.instruction? = m.means? m.settle.cell := by
  unfold instruction?
  rw [h]

theorem puts_of_ne (m : Machine ρ) {i : Option Instruction} (hi : i ≠ some .put)
    (g : Playfield) : m.puts i g = g := by
  unfold puts
  split
  · exact absurd rfl hi
  · rfl

theorem advance_on (e : Effect ρ) (g : Playfield) :
    Effect.advance ⟨e.machine.on g, e.stop⟩ = ⟨e.advance.machine.on g, e.advance.stop⟩ := by
  obtain ⟨next, stop⟩ := e
  cases stop <;> rfl

variable {m : Machine ρ} {g : Playfield}

theorem agree_puts {D : Set Spot} (h : m.field.AgreeOutside D g) :
    (m.puts m.instruction? m.field).AgreeOutside (D \ m.overwrites) (m.puts m.instruction? g) := by
  unfold puts
  split
  · rename_i c _ _
    apply (h.write _ _ c).mono
    rintro s ⟨hD, hs⟩
    exact ⟨hD, fun hmem => hs hmem.2.2⟩
  · rename_i hnot
    apply h.mono
    intro s hD
    refine ⟨hD, ?_⟩
    rintro ⟨hi, hc, _⟩
    obtain ⟨c, hc⟩ := Option.isSome_iff_exists.1 hc
    exact hnot c hi hc

variable [RandomSource ρ]

/-- The cells that the first `n` cycles overwrite. -/
def overwrittenBefore (m : Machine ρ) (n : Nat) : Set Spot :=
  {s | ∃ k < n, s ∈ (m.after k).overwrites}

/-! ## The same cycle on another playfield -/

theorem perform_on (m : Machine ρ) {i : Instruction} (hget : i = .get →
      g.read (m.peek 1).toInt (m.peek 0).toInt = m.field.read (m.peek 1).toInt (m.peek 0).toInt) :
    (m.on g).perform i = ⟨(m.perform i).machine.on (m.puts (some i) g), (m.perform i).stop⟩ := by
  cases i with
  | get =>
    exact congrArg (fun c => Effect.done (((m.drop 2).push (Value.ofChar c)).on g)) (hget rfl)
  | put =>
    have hpeek : (m.on g).peek 2 = m.peek 2 := rfl
    unfold perform puts
    simp only [hpeek]
    cases Value.toChar? (m.peek 2) <;> rfl
  | turnRandomly =>
    have hrandom : (m.on g).random = m.random := rfl
    unfold perform
    simp only [hrandom]
    cases RandomSource.sample m.random <;> rfl
  | writeCharacter =>
    have hpeek : (m.on g).peek 0 = m.peek 0 := rfl
    unfold perform
    simp only [hpeek]
    cases Value.toChar? (m.peek 0) <;> rfl
  | _ => rfl

theorem execute_on (m : Machine ρ) {c : Char} (hget : m.means? c = some .get →
      g.read (m.peek 1).toInt (m.peek 0).toInt = m.field.read (m.peek 1).toInt (m.peek 0).toInt) :
    (m.on g).execute c =
      ⟨(m.execute c).machine.on (m.puts (m.means? c) g), (m.execute c).stop⟩ := by
  unfold means? at hget
  unfold execute means?
  have hmode : (m.on g).stringMode = m.stringMode := rfl
  rw [hmode]
  split
  · rfl
  · rename_i hnot
    rw [if_neg hnot] at hget
    cases hi : Instruction.ofChar? c with
    | none => rfl
    | some i =>
      simp only
      rw [perform_on m (fun h => hget (h ▸ hi)), advance_on]

theorem execute_puts (m : Machine ρ) (c : Char) :
    (m.execute c).machine.field = m.puts (m.means? c) m.field :=
  congrArg (fun e : Effect ρ => e.machine.field) (execute_on m (fun _ => rfl))

theorem visit_on (m : Machine ρ)
    (hfetch : g.read m.position.x.toInt m.position.y.toInt = m.cell)
    (hget : m.means? m.cell = some .get →
      g.read (m.peek 1).toInt (m.peek 0).toInt = m.field.read (m.peek 1).toInt (m.peek 0).toInt) :
    (m.on g).visit =
      ⟨⟨m.visit.machine.on (m.puts (m.means? m.cell) g), m.visit.turn⟩, m.visit.events⟩ := by
  have hcell : (m.on g).cell = m.cell := hfetch
  unfold visit
  rw [hcell, execute_on m hget]
  split
  · rename_i hhalt
    rw [hhalt, means?_halt]
    rfl
  · rcases m.execute m.cell with ⟨next, _ | (_ | _)⟩ <;> rfl

/-- A cycle on another playfield of the same size, where the cells that it looks at are the same,
does the same, and overwrites the same cell. -/
theorem step_on (m : Machine ρ) (hw : g.width = m.field.width) (hh : g.height = m.field.height)
    (hfetch : m.status = .running →
      g.read m.settle.position.x.toInt m.settle.position.y.toInt = m.settle.cell)
    (hget : m.instruction? = some .get →
      g.read (m.peek 1).toInt (m.peek 0).toInt = m.field.read (m.peek 1).toInt (m.peek 0).toInt) :
    (m.on g).step =
      ⟨⟨m.step.machine.on (m.puts m.instruction? g), m.step.turn⟩, m.step.events⟩ := by
  cases hs : m.status with
  | halted =>
    have hnone : m.instruction? = none := by
      unfold instruction?
      rw [hs]
    rw [step_of_halted hs, step_of_halted (m := m.on g) hs, hnone]
    rfl
  | running =>
    have hsettle : (m.on g).settle = m.settle.on g :=
      congrArg (fun p => { m with field := g, position := p })
        (congrFun (Playfield.settle_congr hw hh) m.position)
    rw [instruction?_of_running hs] at hget ⊢
    rw [step_of_running hs, step_of_running (m := m.on g) hs, hsettle,
      visit_on m.settle (hfetch hs) hget]
    rfl

theorem step_puts (m : Machine ρ) : m.step.machine.field = m.puts m.instruction? m.field := by
  have hself := step_on (g := m.field) m rfl rfl (fun _ => rfl) (fun _ => rfl)
  exact congrArg (fun c : Cycle ρ => c.machine.field) hself

/-! ## The same run on another playfield -/

theorem step_agrees {D : Set Spot} (h : m.field.AgreeOutside D g)
    (hunseen : ∀ s ∈ m.looksAt, s ∉ D) :
    (m.on g).step.turn = m.step.turn ∧ (m.on g).step.events = m.step.events ∧
      (m.on g).step.machine = m.step.machine.on (m.on g).step.machine.field ∧
      m.step.machine.field.AgreeOutside (D \ m.overwrites) (m.on g).step.machine.field := by
  have hstep := step_on m h.width_eq h.height_eq
    (fun hs => h.read_eq _ _ (hunseen _ (Or.inl ⟨hs, rfl⟩)))
    (fun hi => h.read_eq _ _ (hunseen _ (Or.inr ⟨hi, rfl⟩)))
  rw [hstep]
  refine ⟨rfl, rfl, rfl, ?_⟩
  rw [step_puts]
  exact agree_puts h

theorem diff_overwrittenBefore (m : Machine ρ) (D : Set Spot) (n : Nat) :
    (D \ m.overwrittenBefore n) \ (m.after n).overwrites ⊆ D \ m.overwrittenBefore (n + 1) := by
  rintro s ⟨⟨hD, hbefore⟩, hnow⟩
  refine ⟨hD, ?_⟩
  rintro ⟨k, hk, hs⟩
  by_cases hkn : k = n
  · subst hkn
    exact hnow hs
  · exact hbefore ⟨k, by omega, hs⟩

/-- Two machines that are alike but for the cells in `D` go on alike for as long as the first looks
at no cell of `D` that it has not overwritten before. They then differ at most in the cells of `D`
that are not overwritten yet. -/
theorem what_is_not_looked_at_has_no_influence {m m' : Machine ρ} {D : Set Spot}
    (hm : m' = m.on m'.field) (hD : m.field.AgreeOutside D m'.field) (n : Nat)
    (hunseen : ∀ k < n, ∀ s ∈ (m.after k).looksAt, s ∈ D → s ∈ m.overwrittenBefore k) :
    (∀ k < n, (m'.after k).step.turn = (m.after k).step.turn ∧
      (m'.after k).step.events = (m.after k).step.events) ∧
    ∀ k ≤ n, m'.after k = (m.after k).on (m'.after k).field ∧
      (m.after k).field.AgreeOutside (D \ m.overwrittenBefore k) (m'.after k).field := by
  have hunseen' : ∀ k < n, ∀ s ∈ (m.after k).looksAt, s ∉ D \ m.overwrittenBefore k := by
    intro k hk s hs hnot
    exact hnot.2 (hunseen k hk s hs hnot.1)
  have hrun : ∀ k ≤ n, m'.after k = (m.after k).on (m'.after k).field ∧
      (m.after k).field.AgreeOutside (D \ m.overwrittenBefore k) (m'.after k).field := by
    intro k
    induction k with
    | zero =>
      intro _
      rw [after_zero, after_zero]
      refine ⟨hm, hD.mono ?_⟩
      intro s hs
      refine ⟨hs, ?_⟩
      rintro ⟨k, hk, _⟩
      omega
    | succ k ih =>
      intro hk
      obtain ⟨hsame, hagree⟩ := ih (by omega)
      obtain ⟨_, _, hmachine, hnext⟩ := step_agrees hagree (hunseen' k (by omega))
      rw [← hsame] at hmachine hnext
      rw [after_succ, after_succ]
      exact ⟨hmachine, hnext.mono (diff_overwrittenBefore m D k)⟩
  refine ⟨?_, hrun⟩
  intro k hk
  obtain ⟨hsame, hagree⟩ := hrun k (by omega)
  obtain ⟨hturn, hevents, _⟩ := step_agrees hagree (hunseen' k hk)
  rw [← hsame] at hturn hevents
  exact ⟨hturn, hevents⟩

/-- A program that jumps over a cell, puts a character into it and gets it back. What the cell
holds at the start is never looked at. -/
theorem a_cell_jumped_over_has_no_influence :
    let m := (Machine.fresh (⟨0, 1⟩ : Progression)).load "#?010p10g@"
    let m' := m.on (m.field.write 1 0 'x')
    (∀ k < 9, (m'.after k).step.turn = (m.after k).step.turn ∧
      (m'.after k).step.events = (m.after k).step.events) ∧
    ∀ k ≤ 9, m'.after k = (m.after k).on (m'.after k).field ∧
      (m.after k).field.AgreeOutside ({(1, 0)} \ m.overwrittenBefore k) (m'.after k).field := by
  intro m m'
  have hg : m.field.WellFormed := Playfield.wellFormed_ofSource _
  have hlooks : ∀ k < 9, (1, 0) ∈ (m.after k).looksAt → 4 < k := by
    decide
  have hputs : (1, 0) ∈ (m.after 4).overwrites := by
    decide
  apply what_is_not_looked_at_has_no_influence rfl (Playfield.agreeOutside_write hg 1 0 'x') 9
  rintro k hk s hs rfl
  exact ⟨4, hlooks k hk hs, hputs⟩

end Machine

end Befunge
