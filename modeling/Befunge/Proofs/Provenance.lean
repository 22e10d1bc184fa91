-- Where the cells of a playfield come from. At every moment of a session the playfield has the
-- size of the program that was loaded last, and a cell holds the last character that was put
-- there since, or else the one that the program had there.
import Befunge.Proofs.Layout
import Befunge.Proofs.Locality
import Befunge.Proofs.Remainder

namespace Befunge

theorem Torus.wrap_eq_iff_modEq {c : Int} {d i : Nat} (h : i < d) :
    wrap c d = i ↔ c ≡ i [ZMOD d] := by
  have hring : 0 ≤ (i : Int) ∧ (i : Int) < d := by omega
  rw [eq_comm, ← Int.natCast_inj, eq_wrap_iff (by omega), and_iff_right hring, Int.modEq_comm]

/-! ## What has happened to a playfield -/

/-- A character that was put into a playfield, with the coordinates that were popped for it. -/
structure Edit where
  x : Value
  y : Value
  cell : Char

/-- Coordinates mean the cell in column `i` and row `j` of a playfield of some size. -/
def Edit.Meets (e : Edit) (width height i j : Nat) : Prop :=
  e.x.toInt ≡ i [ZMOD width] ∧ e.y.toInt ≡ j [ZMOD height]

instance (e : Edit) (width height i j : Nat) : Decidable (e.Meets width height i j) :=
  inferInstanceAs (Decidable (_ ∧ _))

/-- The source that was loaded last, if one was, and what has been put into its playfield since
then, the last character first. -/
structure History where
  source : Option String
  edits : List Edit

namespace History

/-- Before any program is loaded. -/
def unloaded : History := ⟨none, []⟩

/-- Right after a program was loaded. -/
def loaded (source : String) : History := ⟨some source, []⟩

/-- The history with one character more, if one was put. -/
def add (h : History) (e : Option Edit) : History := { h with edits := e.toList ++ h.edits }

/-- The width of the playfield that was laid out last. -/
def width (h : History) : Nat :=
  match h.source with
  | none => 1
  | some source => (Playfield.ofSource source).width

/-- The height of the playfield that was laid out last. -/
def height (h : History) : Nat :=
  match h.source with
  | none => 1
  | some source => (Playfield.ofSource source).height

/-- The character that the source has in column `i` and row `j`, and a blank after the end of a
line. -/
def sourceCell (h : History) (i j : Nat) : Char :=
  match h.source with
  | none => ' '
  | some source => ((Lines.split source.toList).getD j []).getD i ' '

/-- The character that belongs in column `i` and row `j`: the last one that was put there, or else
the one of the source. -/
def cell (h : History) (i j : Nat) : Char :=
  match h.edits.find? fun e => e.Meets h.width h.height i j with
  | some e => e.cell
  | none => h.sourceCell i j

/-- A playfield is what its history makes of it. -/
structure Describes (h : History) (g : Playfield) : Prop where
  wellFormed : g.WellFormed
  width_eq : g.width = h.width
  height_eq : g.height = h.height
  at?_eq : ∀ i j, i < g.width → j < g.height → g.at? (i, j) = some (h.cell i j)

/-! ## A playfield and its history -/

variable {h : History} {g : Playfield}

theorem describes_unloaded : unloaded.Describes (Playfield.ofSource "") where
  wellFormed := Playfield.wellFormed_ofSource ""
  width_eq := by decide
  height_eq := by decide
  at?_eq := by
    intro i j hi hj
    have hw : (Playfield.ofSource "").width = 1 := by decide
    have hh : (Playfield.ofSource "").height = 1 := by decide
    have hi0 : i = 0 := by omega
    have hj0 : j = 0 := by omega
    subst hi0 hj0
    decide

theorem describes_loaded (source : String) :
    (loaded source).Describes (Playfield.ofSource source) where
  wellFormed := Playfield.wellFormed_ofSource source
  width_eq := rfl
  height_eq := rfl
  at?_eq := by
    intro i j hi hj
    unfold Playfield.ofSource at hj
    rw [Playfield.height_ofLines] at hj
    exact Playfield.at?_ofLines _ hj hi

/-- The last character that was put into a cell belongs there. -/
theorem cell_add (h : History) (e : Edit) (i j : Nat) :
    (h.add (some e)).cell i j = if e.Meets h.width h.height i j then e.cell else h.cell i j := by
  have hfind : (h.add (some e)).cell i j =
      match (e :: h.edits).find? fun e => e.Meets h.width h.height i j with
      | some e => e.cell
      | none => h.sourceCell i j := rfl
  rw [hfind, List.find?_cons]
  by_cases hm : e.Meets h.width h.height i j
  · simp [hm]
  · simp only [hm, decide_false, if_false]
    rfl

theorem Describes.write (hd : h.Describes g) (e : Edit) :
    (h.add (some e)).Describes (g.write e.x.toInt e.y.toInt e.cell) where
  wellFormed := hd.wellFormed.write _ _ _
  width_eq := (g.width_write _ _ _).trans hd.width_eq
  height_eq := (g.height_write _ _ _).trans hd.height_eq
  at?_eq := by
    intro i j hi hj
    rw [Playfield.width_write] at hi
    rw [Playfield.height_write] at hj
    have hmeets : (i, j) = g.spot e.x.toInt e.y.toInt ↔ e.Meets h.width h.height i j := by
      unfold Playfield.spot Edit.Meets
      rw [Prod.mk.injEq, eq_comm, Torus.wrap_eq_iff_modEq hi, eq_comm,
        Torus.wrap_eq_iff_modEq hj, hd.width_eq, hd.height_eq]
    rw [Playfield.write_eq hd.wellFormed,
      Playfield.at?_set hd.wellFormed (Playfield.spot_lt hd.wellFormed _ _), cell_add]
    simp only [hmeets]
    split
    · rfl
    · exact hd.at?_eq i j hi hj

/-- Every coordinate means a cell. -/
theorem Describes.in_range (hd : h.Describes g) (x y : Int) :
    g.read? x y = some (g.read x y) ∧ ∀ c, g.write? x y c = some (g.write x y c) := by
  have hlocate := hd.wellFormed.locate?_eq x y
  obtain ⟨hx, hy⟩ := Playfield.spot_lt hd.wellFormed x y
  have hread : g.read? x y = g.at? (g.spot x y) := by
    unfold Playfield.read?
    rw [hlocate]
    rfl
  refine ⟨?_, ?_⟩
  · rw [Playfield.read_eq hd.wellFormed, hread, hd.at?_eq _ _ hx hy]
    rfl
  · intro c
    unfold Playfield.write? Playfield.write
    rw [hlocate]

end History

/-! ## Keeping the history of a session -/

namespace Machine

variable {ρ : Type}

/-- The character that an instruction puts, with the coordinates that it pops first. -/
def edit? (m : Machine ρ) (i : Option Instruction) : Option Edit :=
  match i, Value.toChar? (m.peek 2) with
  | some .put, some c => some ⟨m.peek 1, m.peek 0, c⟩
  | _, _ => none

theorem describes_puts {h : History} {g : Playfield} (hd : h.Describes g) (m : Machine ρ)
    (i : Option Instruction) : (h.add (m.edit? i)).Describes (m.puts i g) := by
  unfold edit? puts
  rcases i with _ | i
  · exact hd
  · cases i with
    | put =>
      cases Value.toChar? (m.peek 2) with
      | none => exact hd
      | some c => exact hd.write ⟨m.peek 1, m.peek 0, c⟩
    | _ => exact hd

variable [RandomSource ρ]

/-- The history after executing a character. -/
def recordExecute (m : Machine ρ) (h : History) (c : Char) : History := h.add (m.edit? (m.means? c))

/-- The history after a cycle. -/
def recordStep (m : Machine ρ) (h : History) : History := h.add (m.edit? m.instruction?)

/-- The history after the characters of a text, up to the first that fails. -/
def recordAll (m : Machine ρ) (h : History) : List Char → History
  | [] => h
  | c :: rest =>
    match (m.execute c).stop with
    | none => (m.execute c).machine.recordAll (m.recordExecute h c) rest
    | some _ => m.recordExecute h c

/-- The history after at most `n` cycles, up to the first that does not leave the machine
running. -/
def recordRun (m : Machine ρ) (h : History) : Nat → History
  | 0 => h
  | n + 1 =>
    match m.step.turn with
    | .running => m.step.machine.recordRun (m.recordStep h) n
    | _ => m.recordStep h

/-- The history after a call. -/
def record (m : Machine ρ) (h : History) : Call → History
  | .load source => .loaded source
  | .execute c => m.recordExecute h c
  | .executeAll text => m.recordAll h text.toList
  | .step => m.recordStep h
  | .steps n => m.recordRun h n
  | .run limit => m.recordRun h limit
  | .interpret limit source => (m.load source).recordRun (.loaded source) limit
  | .push _ | .pop | .read _ _ | .size | .isEmpty | .snapshot => h

/-- The history after some calls in a row. -/
def history (m : Machine ρ) (h : History) : List Call → History
  | [] => h
  | call :: rest => (m.answer call).2.history (m.record h call) rest

/-! ## The history is kept right -/

variable {m : Machine ρ} {h : History}

theorem describes_execute (hd : h.Describes m.field) (c : Char) :
    (m.recordExecute h c).Describes (m.execute c).machine.field := by
  rw [execute_puts]
  exact describes_puts hd m _

theorem describes_step (hd : h.Describes m.field) :
    (m.recordStep h).Describes m.step.machine.field := by
  rw [step_puts]
  exact describes_puts hd m _

theorem describes_executeAll (hd : h.Describes m.field) (count : Nat) (text : List Char) :
    (m.recordAll h text).Describes (m.executeAll count text).2.machine.field := by
  induction text generalizing m h count with
  | nil => exact hd
  | cons c rest ih =>
    have hnext := describes_execute hd c
    simp only [executeAll, recordAll]
    cases (m.execute c).stop with
    | none => exact ih hnext (count + 1)
    | some s => exact hnext

theorem describes_runFor (hd : h.Describes m.field) (n : Nat) :
    (m.recordRun h n).Describes (m.runFor n).machine.field := by
  induction n generalizing m h with
  | zero => exact hd
  | succ n ih =>
    have hnext := describes_step hd
    simp only [runFor, recordRun]
    cases m.step.turn with
    | running => exact ih hnext
    | halted => exact hnext
    | stopped s => exact hnext

theorem describes_answer (hd : h.Describes m.field) (call : Call) :
    (m.record h call).Describes (m.answer call).2.field := by
  cases call with
  | load source => exact History.describes_loaded source
  | execute c =>
    rw [answer_execute]
    exact describes_execute hd c
  | executeAll text => exact describes_executeAll hd 0 text.toList
  | step => exact describes_step hd
  | steps n => exact describes_runFor hd n
  | run limit =>
    simp only [answer, ended_machine]
    exact describes_runFor hd limit
  | interpret limit source =>
    simp only [answer, ended_machine]
    exact describes_runFor (m := m.load source) (History.describes_loaded source) limit
  | push v => exact hd
  | pop => exact hd
  | read x y => exact hd
  | size => exact hd
  | isEmpty => exact hd
  | snapshot => exact hd

theorem describes_answers (hd : h.Describes m.field) (calls : List Call) :
    (m.history h calls).Describes (m.answers calls).2.field := by
  induction calls generalizing m h with
  | nil => exact hd
  | cons call rest ih => exact ih (describes_answer hd call)

/-! ## What fails writes nothing -/

theorem execute_field_of_stop {c : Char} (hstop : (m.execute c).stop ≠ none) :
    (m.execute c).machine.field = m.field := by
  obtain ⟨n, hmachine⟩ := execute_of_stop hstop
  rw [hmachine]
  rfl

theorem step_field_of_stop {stop : Stop} (h : m.step.turn = .stopped stop) :
    m.step.machine.field = m.field := by
  obtain ⟨_, _, hstop, hmachine⟩ := step_of_turn_stopped h
  rw [hmachine]
  exact execute_field_of_stop (m := m.settle) (by simp [hstop])

/-- At every moment of a session, the playfield is well formed and has the size of the program that
was loaded last, or of one cell. A cell holds the last character that was put there since, and
else the one that the program had there. So all coordinates mean a cell, and what fails writes
nothing. A call with a limit stands for every moment of its run. -/
theorem every_cell_has_its_last_writer (r : ρ) (calls : List Call) :
    let m := ((Machine.fresh r).answers calls).2
    ((Machine.fresh r).history .unloaded calls).Describes m.field ∧
      (∀ x y, m.field.read? x y = some (m.field.read x y) ∧
        ∀ c, m.field.write? x y c = some (m.field.write x y c)) ∧
      (∀ c, (m.execute c).stop ≠ none → (m.execute c).machine.field = m.field) ∧
      ∀ stop, m.step.turn = .stopped stop → m.step.machine.field = m.field := by
  intro m
  have hd : ((Machine.fresh r).history .unloaded calls).Describes m.field :=
    describes_answers (m := Machine.fresh r) History.describes_unloaded calls
  exact ⟨hd, hd.in_range, fun _ => execute_field_of_stop, fun _ => step_field_of_stop⟩

/-- A line feed that a program puts into a cell adds no row. -/
example : let m := ((Machine.fresh (⟨0, 1⟩ : Progression)).answers [.interpret 9 "25*00p@"]).2
    m.field.rows = ["\n5*00p@"] ∧ m.field.height = 1 := by
  decide

end Machine

end Befunge
