-- Whole runs. A run makes cycles for as long as they leave the machine running, so it may never
-- end. It ends just where the bounded runs get on no more, and a run that is taken up again after
-- some cycles ends as it would have without the break. So all ways to run a source agree.
import Befunge.Proofs.Stepping
import Befunge.Report

namespace Befunge

/-! ## Results within a limit -/

/-- What a run with a limit comes to, for some limit. -/
def Yields {α : Type} (within : Nat → Option α) (a : α) : Prop := ∃ limit, within limit = some a

theorem yields_map_iff {α β : Type} {within : Nat → Option α} {f : α → β} {b : β} :
    Yields (fun limit => (within limit).map f) b ↔ ∃ a, Yields within a ∧ f a = b := by
  unfold Yields
  simp only [Option.map_eq_some_iff]
  constructor
  · rintro ⟨limit, a, ha, hb⟩
    exact ⟨a, ⟨limit, ha⟩, hb⟩
  · rintro ⟨a, ⟨limit, ha⟩, hb⟩
    exact ⟨limit, a, ha, hb⟩

/-! ## The last cycle -/

/-- What the last cycle of a run comes to, if a fault ended it or none did. -/
def Turn.last : Option Fault → Turn
  | none => .halted
  | some f => .stopped (.fault f)

theorem Turn.last_ne_running (fault : Option Fault) : Turn.last fault ≠ .running := by
  cases fault <;> simp [last]

namespace Ending

variable {ρ : Type} {e : Ending ρ}

theorem result_eq_ok_iff {out : String} :
    e.result = .ok out ↔ e.fault = none ∧ e.machine.output = out := by
  unfold result
  cases e.fault <;> simp

theorem result_eq_error_iff {f : Fault} : e.result = .error f ↔ e.fault = some f := by
  unfold result
  cases e.fault <;> simp

end Ending

theorem ending?_eq_some_iff {ρ : Type} {p : Progress ρ} {e : Ending ρ} :
    p.ending? = some e ↔ p = ⟨e.machine, .last e.fault⟩ := by
  obtain ⟨m, turn⟩ := p
  obtain ⟨m', fault⟩ := e
  unfold Progress.ending? Turn.last
  rcases turn with _ | _ | (f | _) <;> cases fault <;> simp

/-! ## Cycle by cycle -/

namespace Machine

variable {ρ : Type} [RandomSource ρ] {m : Machine ρ} {e e' : Ending ρ}

/-- At most `n` cycles, one after the other, up to the first that does not leave the machine
running. -/
def stepped (m : Machine ρ) : Nat → Progress ρ
  | 0 => ⟨m, .running⟩
  | n + 1 =>
    let p := m.stepped n
    match p.turn with
    | .running => p.machine.step.toProgress
    | _ => p

theorem runFor_one (m : Machine ρ) : m.runFor 1 = m.step.toProgress := by
  by_cases hturn : m.step.turn = .running
  · rw [runFor_succ_of_running hturn]
    exact congrArg (Progress.mk m.step.machine) hturn.symm
  · exact runFor_succ_of_ne hturn

/-- A run makes its cycles one after the other. -/
theorem stepped_eq_runFor (m : Machine ρ) (n : Nat) : m.stepped n = m.runFor n := by
  induction n with
  | zero => rfl
  | succ n ih =>
    simp only [stepped, ih]
    split
    · rename_i hrun
      rw [runFor_add_of_running hrun, runFor_one]
    · rename_i hne
      exact (runFor_add_of_ne hne).symm

/-! ## Runs without a bound -/

/-- The run of a machine comes to an end: in its first cycle, which halts or fails, or after that
cycle, if it leaves the machine running. -/
inductive RunsTo : Machine ρ → Ending ρ → Prop where
  | ends {m : Machine ρ} {fault : Option Fault} (h : m.step.turn = .last fault) :
    RunsTo m ⟨m.step.machine, fault⟩
  | goesOn {m : Machine ρ} {e : Ending ρ} (h : m.step.turn = .running)
    (rest : RunsTo m.step.machine e) : RunsTo m e

/-- A run ends if and only if bounded runs come to its end. -/
theorem runsTo_iff_runFor : m.RunsTo e ↔ ∃ n, m.runFor n = ⟨e.machine, .last e.fault⟩ := by
  constructor
  · intro h
    induction h with
    | @ends m fault h =>
      have hne : m.step.turn ≠ .running := h ▸ Turn.last_ne_running fault
      exact ⟨1, (runFor_succ_of_ne hne).trans (congrArg (Progress.mk m.step.machine) h)⟩
    | goesOn h _ ih =>
      obtain ⟨n, hn⟩ := ih
      exact ⟨n + 1, (runFor_succ_of_running h).trans hn⟩
  · rintro ⟨n, hn⟩
    induction n generalizing m with
    | zero => exact absurd (congrArg Progress.turn hn).symm (Turn.last_ne_running e.fault)
    | succ n ih =>
      by_cases hturn : m.step.turn = .running
      · rw [runFor_succ_of_running hturn] at hn
        exact .goesOn hturn (ih hn)
      · rw [runFor_succ_of_ne hturn] at hn
        obtain ⟨last, fault⟩ := e
        obtain rfl : m.step.machine = last := congrArg Progress.machine hn
        exact .ends (congrArg Progress.turn hn)

/-- A run ends if and only if it does so within some limit. -/
theorem runsTo_iff_yields : m.RunsTo e ↔ Yields (runWithin · m) e := by
  rw [runsTo_iff_runFor]
  unfold Yields runWithin
  simp only [ending?_eq_some_iff]

/-- A run comes to an end of some kind if and only if bounded runs do. -/
theorem exists_runsTo_iff (fault : Option Fault) :
    (∃ e, m.RunsTo e ∧ e.fault = fault) ↔ ∃ n, (m.runFor n).turn = .last fault := by
  constructor
  · rintro ⟨e, he, rfl⟩
    obtain ⟨n, hn⟩ := runsTo_iff_runFor.1 he
    exact ⟨n, congrArg Progress.turn hn⟩
  · rintro ⟨n, hn⟩
    refine ⟨⟨(m.runFor n).machine, fault⟩, runsTo_iff_runFor.2 ⟨n, ?_⟩, rfl⟩
    exact congrArg (Progress.mk (m.runFor n).machine) hn

/-- A bounded run that has ended stays as it is within every larger bound. -/
theorem runFor_of_le {n k : Nat} (h : (m.runFor n).turn ≠ .running) (hk : n ≤ k) :
    m.runFor k = m.runFor n := by
  obtain ⟨j, rfl⟩ := Nat.exists_eq_add_of_le hk
  exact runFor_add_of_ne h

/-- A bounded run that has ended shows the only end that the run can come to. -/
theorem runsTo_iff_eq {n : Nat} (h : m.runFor n = ⟨e.machine, .last e.fault⟩) :
    m.RunsTo e' ↔ e' = e := by
  constructor
  · intro h'
    obtain ⟨k, hk⟩ := runsTo_iff_runFor.1 h'
    have hstays : m.runFor n = m.runFor k := by
      rcases Nat.le_total n k with hle | hle
      · exact (runFor_of_le (by rw [h]; exact Turn.last_ne_running _) hle).symm
      · exact runFor_of_le (by rw [hk]; exact Turn.last_ne_running _) hle
    have he := ending?_eq_some_iff.2 h
    rw [hstays, ending?_eq_some_iff.2 hk] at he
    exact Option.some.inj he
  · rintro rfl
    exact runsTo_iff_runFor.2 ⟨n, h⟩

/-- A run that is broken off and taken up again ends as it does from its start. -/
theorem runsTo_runFor_iff {n : Nat} (h : (m.runFor n).turn = .running) :
    (m.runFor n).machine.RunsTo e ↔ m.RunsTo e := by
  rw [runsTo_iff_runFor, runsTo_iff_runFor]
  constructor
  · rintro ⟨k, hk⟩
    exact ⟨n + k, (runFor_add_of_running h).trans hk⟩
  · rintro ⟨k, hk⟩
    rcases Nat.lt_or_ge k n with hlt | hge
    · -- A run that had ended before would not be running now.
      have hend : (m.runFor k).turn = .last e.fault := congrArg Progress.turn hk
      have hne := Turn.last_ne_running e.fault
      rw [runFor_of_le (hend ▸ hne) (Nat.le_of_lt hlt), hend] at h
      exact absurd h hne
    · obtain ⟨j, rfl⟩ := Nat.exists_eq_add_of_le hge
      exact ⟨j, (runFor_add_of_running h).symm.trans hk⟩

end Machine

/-! ## The drivers of a source -/

namespace Options

/-- A source is loaded, and at most `n` cycles are made, one after the other, up to the first that
does not leave the machine running. -/
def bounded (o : Options) (entropy : ChaCha.Key) (source : String) (n : Nat) : Progress ChaCha :=
  ((o.machine entropy).load source).stepped n

/-- The run of a source returns its output or its fault. -/
def Returns (o : Options) (entropy : ChaCha.Key) (source : String) (x : Except Fault String) :
    Prop :=
  Yields (interpretWithin · o entropy source) x

/-- The run of a source returns its report. -/
def Reports (o : Options) (entropy : ChaCha.Key) (source : String) (r : Report) : Prop :=
  Yields (reportWithin · o entropy source) r

/-- The two drivers of a source agree with its bounded runs. -/
structure DriversAgree (o : Options) (entropy : ChaCha.Key) (source : String) : Prop where
  ok_iff : (∃ out, o.Returns entropy source (.ok out)) ↔
    ∃ n, (o.bounded entropy source n).turn = .halted
  success_iff : (∃ r, o.Reports entropy source r ∧ r.success = true) ↔
    ∃ n, (o.bounded entropy source n).turn = .halted
  of_halted : ∀ n, (o.bounded entropy source n).turn = .halted →
    let m := (o.bounded entropy source n).machine
    (∀ x, o.Returns entropy source x ↔ x = .ok m.output) ∧
      ∀ r, o.Reports entropy source r ↔ r = ⟨true, m.output, none, m.snapshot⟩
  error_iff : ∀ f, o.Returns entropy source (.error f) ↔
    ∃ n, (o.bounded entropy source n).turn = .stopped (.fault f)
  fault_iff : ∀ f, (∃ r, o.Reports entropy source r ∧ r.fault = some f) ↔
    ∃ n, (o.bounded entropy source n).turn = .stopped (.fault f)
  of_fault : ∀ n f, (o.bounded entropy source n).turn = .stopped (.fault f) →
    let m := (o.bounded entropy source n).machine
    (∀ x, o.Returns entropy source x ↔ x = .error f) ∧
      ∀ r, o.Reports entropy source r ↔ r = ⟨false, m.output, some f, m.snapshot⟩
  stays : ∀ n, (o.bounded entropy source n).turn ≠ .running →
    ∀ k, n ≤ k → o.bounded entropy source k = o.bounded entropy source n
  /-- A run that goes on without end, or waits for a heading without end, returns nothing. -/
  of_endless : (∀ n, (o.bounded entropy source n).turn = .running ∨
      (o.bounded entropy source n).turn = .stopped .stalled) →
    (∀ x, ¬o.Returns entropy source x) ∧ ∀ r, ¬o.Reports entropy source r
  /-- A run that is broken off may be taken up again, as a whole run or as a bounded one. -/
  goes_on : ∀ n, (o.bounded entropy source n).turn = .running →
    (∀ e, Yields (Machine.runWithin · (o.bounded entropy source n).machine) e ↔
      Yields (Machine.runWithin · ((o.machine entropy).load source)) e) ∧
    ∀ k, (o.bounded entropy source n).machine.stepped k = o.bounded entropy source (n + k)

variable {o : Options} {entropy : ChaCha.Key} {source : String}

theorem bounded_eq (o : Options) (entropy : ChaCha.Key) (source : String) (n : Nat) :
    o.bounded entropy source n = ((o.machine entropy).load source).runFor n :=
  Machine.stepped_eq_runFor _ n

theorem returns_iff {x : Except Fault String} :
    o.Returns entropy source x ↔
      ∃ e, ((o.machine entropy).load source).RunsTo e ∧ e.result = x := by
  simp only [Machine.runsTo_iff_yields]
  exact yields_map_iff

theorem reports_iff {r : Report} :
    o.Reports entropy source r ↔
      ∃ e, ((o.machine entropy).load source).RunsTo e ∧ Report.ofEnding e = r := by
  simp only [Machine.runsTo_iff_yields]
  exact yields_map_iff

/-- A bounded run that has ended shows what both drivers return, and nothing else is returned. -/
theorem drivers_of_bounded {n : Nat} (fault : Option Fault)
    (h : (o.bounded entropy source n).turn = .last fault) :
    let e : Ending ChaCha := ⟨(o.bounded entropy source n).machine, fault⟩
    (∀ x, o.Returns entropy source x ↔ x = e.result) ∧
      ∀ r, o.Reports entropy source r ↔ r = Report.ofEnding e := by
  intro e
  have hend : ((o.machine entropy).load source).runFor n = ⟨e.machine, .last e.fault⟩ :=
    (o.bounded_eq entropy source n).symm.trans (congrArg (Progress.mk e.machine) h)
  constructor
  · intro x
    simp only [returns_iff, Machine.runsTo_iff_eq hend, exists_eq_left, eq_comm]
  · intro r
    simp only [reports_iff, Machine.runsTo_iff_eq hend, exists_eq_left, eq_comm]

/-- All drivers compute the same run. With any options, and any key if they have no seed, a run
returns an output if and only if its report tells of success, and if and only if some bounded run of
the source halts; it returns a fault if and only if its report has that fault, and if and only if
some bounded run fails with it. The output and the state are those of every bounded run that has
ended, and all larger bounds show the same. If every bounded run is still running, neither driver
returns. A bounded run that is still running may be taken up again, to the same end and through the
same bounded runs. -/
theorem all_drivers_compute_the_same_run (o : Options) (entropy : ChaCha.Key) (source : String) :
    o.DriversAgree entropy source where
  ok_iff := by
    simp only [returns_iff, Ending.result_eq_ok_iff, bounded_eq]
    refine Iff.trans ?_ (Machine.exists_runsTo_iff none)
    constructor
    · rintro ⟨out, e, he, hfault, _⟩
      exact ⟨e, he, hfault⟩
    · rintro ⟨e, he, hfault⟩
      exact ⟨_, e, he, hfault, rfl⟩
  success_iff := by
    simp only [reports_iff, bounded_eq]
    refine Iff.trans ?_ (Machine.exists_runsTo_iff none)
    constructor
    · rintro ⟨_, ⟨e, he, rfl⟩, hsuccess⟩
      exact ⟨e, he, Option.isNone_iff_eq_none.1 hsuccess⟩
    · rintro ⟨e, he, hfault⟩
      exact ⟨_, ⟨e, he, rfl⟩, Option.isNone_iff_eq_none.2 hfault⟩
  of_halted _ h := drivers_of_bounded none h
  error_iff f := by
    simp only [returns_iff, Ending.result_eq_error_iff, bounded_eq]
    exact Machine.exists_runsTo_iff (some f)
  fault_iff f := by
    simp only [reports_iff, bounded_eq]
    refine Iff.trans ?_ (Machine.exists_runsTo_iff (some f))
    constructor
    · rintro ⟨_, ⟨e, he, rfl⟩, hfault⟩
      exact ⟨e, he, hfault⟩
    · rintro ⟨e, he, hfault⟩
      exact ⟨_, ⟨e, he, rfl⟩, hfault⟩
  of_fault _ f h := drivers_of_bounded (some f) h
  stays n h k hk := by
    rw [bounded_eq] at h
    rw [bounded_eq, bounded_eq]
    exact Machine.runFor_of_le h hk
  of_endless h := by
    have hnone : ∀ e, ¬((o.machine entropy).load source).RunsTo e := by
      intro e he
      obtain ⟨n, hlast⟩ := (Machine.exists_runsTo_iff e.fault).1 ⟨e, he, rfl⟩
      have hturn := h n
      rw [bounded_eq, hlast] at hturn
      cases hf : e.fault <;> simp [hf, Turn.last] at hturn
    constructor
    · intro x hx
      obtain ⟨e, he, _⟩ := returns_iff.1 hx
      exact hnone e he
    · intro r hr
      obtain ⟨e, he, _⟩ := reports_iff.1 hr
      exact hnone e he
  goes_on n h := by
    rw [bounded_eq] at h
    constructor
    · intro e
      rw [bounded_eq, ← Machine.runsTo_iff_yields, ← Machine.runsTo_iff_yields]
      exact Machine.runsTo_runFor_iff h
    · intro k
      rw [bounded_eq, bounded_eq, Machine.stepped_eq_runFor]
      exact (Machine.runFor_add_of_running h).symm

end Options

end Befunge
