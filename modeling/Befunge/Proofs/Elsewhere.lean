-- The pointer elsewhere. The same moves keep two places as far apart on the torus as they are, as
-- long as no coordinate leaves the words. Executing a character with the pointer at another place
-- does the same, and makes the same moves from there.
import Befunge.Proofs.Locality
import Mathlib.Data.Int.ModEq

namespace Befunge

/-! ## Moves -/

/-- A number that a word can hold. -/
def IsWord (n : Int) : Prop := -2 ^ 63 ≤ n ∧ n < 2 ^ 63

instance (n : Int) : Decidable (IsWord n) := inferInstanceAs (Decidable (_ ∧ _))

namespace Point

/-- The place that some moves lead to. -/
def travel (p : Point) (moves : List Heading) : Point := moves.foldl advance p

/-- None of some moves leads to a coordinate that is no word. -/
def HasRoom (p : Point) : List Heading → Prop
  | [] => True
  | h :: moves =>
    (IsWord (p.x.toInt + h.delta.1.toInt) ∧ IsWord (p.y.toInt + h.delta.2.toInt)) ∧
      (p.advance h).HasRoom moves

instance decidableHasRoom (p : Point) : (moves : List Heading) → Decidable (p.HasRoom moves)
  | [] => isTrue trivial
  | h :: moves =>
    have := decidableHasRoom (p.advance h) moves
    inferInstanceAs (Decidable (_ ∧ _))

end Point

/-! ## Places that lie apart -/

theorem Torus.wrap_congr {a b : Int} {d : Nat} (h : a ≡ b [ZMOD d]) : wrap a d = wrap b d :=
  congrArg Int.toNat h

namespace Playfield

/-- The second place lies `dx` columns and `dy` rows from the first, counted around the torus. -/
structure Offset (g : Playfield) (dx dy : Int) (p q : Point) : Prop where
  x_modEq : q.x.toInt ≡ p.x.toInt + dx [ZMOD g.width]
  y_modEq : q.y.toInt ≡ p.y.toInt + dy [ZMOD g.height]

/-- Two places mean the same cell: their columns are the same modulo the width, and their rows
modulo the height. -/
def SameCell (g : Playfield) (p q : Point) : Prop :=
  g.spot p.x.toInt p.y.toInt = g.spot q.x.toInt q.y.toInt

instance (g : Playfield) (p q : Point) : Decidable (g.SameCell p q) :=
  inferInstanceAs (Decidable (_ = _))

variable {g g' : Playfield} {p q : Point} {dx dy : Int}

theorem Offset.congr (h : g.Offset dx dy p q) (hw : g'.width = g.width)
    (hh : g'.height = g.height) : g'.Offset dx dy p q := by
  obtain ⟨hx, hy⟩ := h
  rw [← hw] at hx
  rw [← hh] at hy
  exact ⟨hx, hy⟩

theorem Offset.advance (hpq : g.Offset dx dy p q) {h : Heading} (hp : p.HasRoom [h])
    (hq : q.HasRoom [h]) : g.Offset dx dy (p.advance h) (q.advance h) := by
  obtain ⟨⟨⟨px0, px1⟩, py0, py1⟩, _⟩ := hp
  obtain ⟨⟨⟨qx0, qx1⟩, qy0, qy1⟩, _⟩ := hq
  constructor
  · unfold Point.advance
    rw [Point.toInt_add_of_range px0 px1, Point.toInt_add_of_range qx0 qx1, Int.add_right_comm]
    exact hpq.x_modEq.add_right _
  · unfold Point.advance
    rw [Point.toInt_add_of_range py0 py1, Point.toInt_add_of_range qy0 qy1, Int.add_right_comm]
    exact hpq.y_modEq.add_right _

/-- The same moves keep two places as far apart as they are. -/
theorem Offset.travel {moves : List Heading} (hpq : g.Offset dx dy p q) (hp : p.HasRoom moves)
    (hq : q.HasRoom moves) : g.Offset dx dy (p.travel moves) (q.travel moves) := by
  induction moves generalizing p q with
  | nil => exact hpq
  | cons h moves ih => exact ih (hpq.advance ⟨hp.1, trivial⟩ ⟨hq.1, trivial⟩) hp.2 hq.2

theorem sameCell_iff_offset (hg : g.WellFormed) : g.SameCell p q ↔ g.Offset 0 0 p q := by
  constructor
  · intro hsame
    have hx := (Torus.wrap_eq_iff hg.width_pos).1 (congrArg Prod.fst hsame)
    have hy := (Torus.wrap_eq_iff hg.height_pos).1 (congrArg Prod.snd hsame)
    constructor
    · rw [Int.add_zero]
      exact hx.symm
    · rw [Int.add_zero]
      exact hy.symm
  · rintro ⟨hx, hy⟩
    rw [Int.add_zero] at hx hy
    unfold SameCell spot
    rw [Torus.wrap_congr hx, Torus.wrap_congr hy]

theorem SameCell.congr (h : g.SameCell p q) (hw : g'.width = g.width)
    (hh : g'.height = g.height) : g'.SameCell p q := by
  unfold SameCell
  rw [spot_congr hw hh, spot_congr hw hh]
  exact h

/-- The same moves lead from places that mean the same cell to places that do. -/
theorem SameCell.travel (hg : g.WellFormed) (hsame : g.SameCell p q) {moves : List Heading}
    (hp : p.HasRoom moves) (hq : q.HasRoom moves) :
    g.SameCell (p.travel moves) (q.travel moves) := by
  rw [sameCell_iff_offset hg] at hsame ⊢
  exact hsame.travel hp hq

theorem sameCell_settle (hg : g.WellFormed) (hx : IsWord (Torus.wrap p.x.toInt g.width))
    (hy : IsWord (Torus.wrap p.y.toInt g.height)) : g.SameCell (g.settle p) p := by
  have hring : ∀ (c : Int) {d : Nat}, 0 < d → IsWord (Torus.wrap c d) →
      Torus.wrap (Int64.ofNat (Torus.wrap c d)).toInt d = Torus.wrap c d := by
    intro c d hd hc
    obtain ⟨_, hlt⟩ := hc
    have hkeep := Torus.wrap_wrap_add c 0 hd
    rw [Int64.toInt_ofNat_of_lt (by omega)]
    simpa using hkeep
  unfold SameCell spot settle place
  rw [hring _ hg.width_pos hx, hring _ hg.height_pos hy]

/-- On a small playfield, two moves from a place on it do not lead out of the words. -/
theorem Addressable.hasRoom (hg : g.Addressable) {k : Int} {moves : List Heading}
    (hp : g.Nearby k p) (hk : k + moves.length ≤ 2) : p.HasRoom moves := by
  induction moves generalizing p k with
  | nil => trivial
  | cons h moves ih =>
    rw [List.length_cons] at hk
    obtain ⟨d1, d2, d3, d4⟩ := h.delta_range
    obtain ⟨h1, h2, h3, h4⟩ := hp
    have hw := hg.width_lt
    have hh := hg.height_lt
    refine ⟨⟨⟨?_, ?_⟩, ?_, ?_⟩, ?_⟩
    · omega
    · omega
    · omega
    · omega
    · apply ih (hg.nearby_advance ⟨h1, h2, h3, h4⟩ (by omega) h)
      omega

end Playfield

/-! ## The pointer elsewhere -/

/-- The same reason to stop, told of another place. -/
def Stop.at (p : Point) : Stop → Stop
  | .fault (.unknownInstruction c _) => .fault (.unknownInstruction c p)
  | s => s

namespace Machine

variable {ρ : Type}

/-- The machine with its pointer at another place and another count of cells. -/
def elsewhere (m : Machine ρ) (p : Point) (steps : UInt64) : Machine ρ :=
  { m with position := p, steps := steps }

theorem advance_elsewhere (e : Effect ρ) (p : Point) (k : UInt64) :
    Effect.advance ⟨e.machine.elsewhere p k, e.stop⟩ =
      ⟨e.advance.machine.elsewhere
        (match e.stop with
          | none => p.advance e.machine.heading
          | some _ => p) k, e.advance.stop⟩ := by
  obtain ⟨next, stop⟩ := e
  cases stop <;> rfl

theorem advance_stop (e : Effect ρ) : e.advance.stop = e.stop := by
  obtain ⟨next, stop⟩ := e
  cases stop <;> rfl

theorem advance_heading (e : Effect ρ) : e.advance.machine.heading = e.machine.heading := by
  obtain ⟨next, stop⟩ := e
  cases stop <;> rfl

variable [RandomSource ρ]

/-- The moves that executing a character makes: none if it fails, two across a bridge, and else
one along the heading that is then taken. -/
def moves (m : Machine ρ) (c : Char) : List Heading :=
  match (m.execute c).stop with
  | some _ => []
  | none =>
    (if m.means? c = some .bridge then [m.heading] else []) ++ [(m.execute c).machine.heading]

/-- Executing a character does not lead the pointer out of the words. -/
def HasRoom (m : Machine ρ) (c : Char) : Prop := m.position.HasRoom (m.moves c)

instance (m : Machine ρ) (c : Char) : Decidable (m.HasRoom c) :=
  Point.decidableHasRoom m.position (m.moves c)

theorem perform_elsewhere (m : Machine ρ) (i : Instruction) (p : Point) (k : UInt64) :
    (m.elsewhere p k).perform i =
      ⟨(m.perform i).machine.elsewhere (if i = .bridge then p.advance m.heading else p) k,
        (m.perform i).stop⟩ := by
  cases i with
  | turnRandomly =>
    have hrandom : (m.elsewhere p k).random = m.random := rfl
    unfold perform
    simp only [hrandom]
    cases RandomSource.sample m.random <;> rfl
  | writeCharacter =>
    have hpeek : (m.elsewhere p k).peek 0 = m.peek 0 := rfl
    unfold perform
    simp only [hpeek]
    cases Value.toChar? (m.peek 0) <;> rfl
  | put =>
    have hpeek : (m.elsewhere p k).peek 2 = m.peek 2 := rfl
    unfold perform
    simp only [hpeek]
    cases Value.toChar? (m.peek 2) <;> rfl
  | _ => rfl

/-- No instruction of its own says where it stopped. -/
theorem perform_stop_at (m : Machine ρ) (i : Instruction) (p : Point) :
    (m.perform i).stop.map (·.at p) = (m.perform i).stop := by
  cases i with
  | turnRandomly =>
    unfold perform
    cases RandomSource.sample m.random <;> rfl
  | writeCharacter =>
    unfold perform
    cases Value.toChar? (m.peek 0) <;> rfl
  | put =>
    unfold perform
    cases Value.toChar? (m.peek 2) <;> rfl
  | _ => rfl

/-- Executing a character with the pointer at another place does the same, and makes the same
moves from there. -/
theorem execute_elsewhere (m : Machine ρ) (c : Char) (p : Point) (k : UInt64) :
    (m.elsewhere p k).execute c =
      ⟨(m.execute c).machine.elsewhere (p.travel (m.moves c)) k,
        (m.execute c).stop.map (·.at p)⟩ := by
  have hmode : (m.elsewhere p k).stringMode = m.stringMode := rfl
  unfold moves means? execute
  rw [hmode]
  split
  · rfl
  · cases Instruction.ofChar? c with
    | none => rfl
    | some i =>
      simp only [perform_elsewhere, advance_elsewhere, advance_stop, advance_heading,
        perform_stop_at, Option.some.injEq]
      by_cases hi : i = .bridge
      · subst hi
        rfl
      · rw [if_neg hi, if_neg hi]
        cases (m.perform i).stop <;> rfl

theorem moves_elsewhere (m : Machine ρ) (c : Char) (p : Point) (k : UInt64) :
    (m.elsewhere p k).moves c = m.moves c := by
  have hmeans : (m.elsewhere p k).means? c = m.means? c := rfl
  unfold moves
  rw [hmeans, execute_elsewhere]
  cases (m.execute c).stop <;> rfl

theorem length_moves_le (m : Machine ρ) (c : Char) : (m.moves c).length ≤ 2 := by
  unfold moves
  split
  · simp
  · split <;> simp

theorem execute_position (m : Machine ρ) (c : Char) :
    (m.execute c).machine.position = m.position.travel (m.moves c) :=
  congrArg (fun e : Effect ρ => e.machine.position) (execute_elsewhere m c m.position m.steps)

/-- An unknown instruction is told of the place of the pointer. -/
theorem execute_stop_at (m : Machine ρ) (c : Char) :
    (m.execute c).stop.map (·.at m.position) = (m.execute c).stop :=
  (congrArg Effect.stop (execute_elsewhere m c m.position m.steps)).symm

end Machine

end Befunge
