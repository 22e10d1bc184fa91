-- Snapshots are complete. A snapshot leaves out the random source of a machine and the width of its
-- playfield, and the width is the length of every row. So the text of a snapshot is enough to build
-- the machine again on its random source, and two machines with the same text cannot be told apart.
import Befunge.Proofs.Provenance
import Befunge.Proofs.RoundTrip

namespace Befunge

open Codec

/-! ## From a snapshot to a machine -/

/-- The playfield with the given rows. It is as wide as the first one. -/
def Playfield.ofRows (rows : List String) : Playfield where
  cells := (rows.map fun row => row.toList.toArray).toArray
  width := (rows.headD "").toList.length

/-- The machine that a snapshot shows, on a random source. -/
def Snapshot.machine {ρ : Type} (s : Snapshot) (random : ρ) : Machine ρ where
  field := Playfield.ofRows s.rows
  stack := Stack.ofValues s.stack
  position := s.position
  heading := s.heading
  stringMode := s.stringMode
  output := s.output
  status := s.status
  steps := s.steps
  random := random

/-- The rows of a well-formed playfield are all that there is to it. -/
theorem Playfield.ofRows_rows {g : Playfield} (hg : g.WellFormed) : ofRows g.rows = g := by
  obtain ⟨⟨cells⟩, width⟩ := g
  cases cells with
  | nil => exact absurd hg.height_pos (Nat.lt_irrefl 0)
  | cons row rest =>
    have hwidth : row.size = width := hg.row_size 0 row rfl
    simp [ofRows, rows, Function.comp_def, hwidth]

namespace Machine

variable {ρ : Type} {m m' : Machine ρ}

theorem machine_snapshot (hg : m.field.WellFormed) : m.snapshot.machine m.random = m := by
  unfold Snapshot.machine snapshot
  rw [Playfield.ofRows_rows hg, Stack.ofValues_values]

/-- The machine that the text of a snapshot tells of. -/
def restore? (text : String) (random : ρ) : Option (Machine ρ) :=
  (decode? text : Option Snapshot).map (·.machine random)

/-- A machine is built again from the text of its snapshot and its random source. -/
theorem restore?_encode_snapshot (hg : m.field.WellFormed) :
    restore? (encode m.snapshot) m.random = some m := by
  unfold restore?
  rw [decode?_encode_eq, ofJson?_toJson, Option.map_some, machine_snapshot hg]

/-! ## Machines with the same snapshot -/

variable [RandomSource ρ]

/-- In every session the playfield stays well formed. -/
theorem Reachable.wellFormed (h : m.Reachable) : m.field.WellFormed := by
  obtain ⟨r, calls, rfl⟩ := h
  exact (describes_answers (m := fresh r) History.describes_unloaded calls).wellFormed

/-- A snapshot is complete. At every moment of every session its text and the random source are
enough to build the machine again, its width included. So two machines of any sessions, with the
same text and with sources in the same state, give the same replies to any further calls, and have
the same text after each of them. -/
theorem a_snapshot_is_complete (hm : m.Reachable) (hm' : m'.Reachable)
    (htext : encode m.snapshot = encode m'.snapshot) (hrandom : m.random = m'.random)
    (calls : List Call) :
    (m.answers calls).1 = (m'.answers calls).1 ∧
      (∀ k, encode (m.answers (calls.take k)).2.snapshot =
        encode (m'.answers (calls.take k)).2.snapshot) ∧
      restore? (encode m.snapshot) m.random = some m := by
  have hrestore := restore?_encode_snapshot hm.wellFormed
  have hrestore' := restore?_encode_snapshot hm'.wellFormed
  rw [← htext, ← hrandom, hrestore] at hrestore'
  obtain rfl := Option.some.inj hrestore'
  exact ⟨rfl, fun _ => rfl, hrestore⟩

/-- Two programs are overwritten by the same two cells, a line feed and a quote. What they were
before cannot be told any more. -/
theorem an_overwritten_program_is_forgotten :
    let puts := [Call.push 10, .push 0, .push 0, .execute 'p', .push 34, .push 1, .push 0,
      .execute 'p']
    let m := ((fresh (⟨0, 1⟩ : Progression)).answers (.load "ab" :: puts)).2
    let m' := ((fresh (⟨0, 1⟩ : Progression)).answers (.load "@" :: .load "cd" :: puts)).2
    m.snapshot.rows = ["\n\""] ∧ encode m.snapshot = encode m'.snapshot ∧
      m.random = m'.random ∧ ∀ calls, (m.answers calls).1 = (m'.answers calls).1 ∧
        (∀ k, encode (m.answers (calls.take k)).2.snapshot =
          encode (m'.answers (calls.take k)).2.snapshot) ∧
        restore? (encode m.snapshot) m.random = some m := by
  intro puts m m'
  have hm : m.Reachable := ⟨⟨0, 1⟩, .load "ab" :: puts, rfl⟩
  have hm' : m'.Reachable := ⟨⟨0, 1⟩, .load "@" :: .load "cd" :: puts, rfl⟩
  have hsnapshot : m.snapshot = m'.snapshot := by decide +kernel
  have htext : encode m.snapshot = encode m'.snapshot := congrArg encode hsnapshot
  have hrandom : m.random = m'.random := by decide
  have hrows : m.snapshot.rows = ["\n\""] := by decide
  exact ⟨hrows, htext, hrandom, a_snapshot_is_complete hm hm' htext hrandom⟩

end Machine

end Befunge
