-- Storage. To a program its playfield is a store that `p` puts numbers into and `g` gets them from.
-- Coordinates are addresses: those that are equal modulo the size mean the same cell. Only codes of
-- characters can be stored.
import Befunge.Proofs.Failing
import Befunge.Proofs.Provenance

namespace Befunge

/-! ## Overwriting cells one after another -/

namespace Playfield

variable {g g' : Playfield}

/-- Two pairs of coordinates mean the same cell: the columns are equal modulo the width, and the
rows modulo the height. -/
def Meet (g : Playfield) (x y x' y' : Value) : Prop :=
  x'.toInt ≡ x.toInt [ZMOD g.width] ∧ y'.toInt ≡ y.toInt [ZMOD g.height]

instance (g : Playfield) (x y x' y' : Value) : Decidable (g.Meet x y x' y') :=
  inferInstanceAs (Decidable (_ ∧ _))

theorem meet_iff (hg : g.WellFormed) {x y x' y' : Value} :
    g.Meet x y x' y' ↔ g.spot x'.toInt y'.toInt = g.spot x.toInt y.toInt := by
  unfold Meet spot Int.ModEq
  rw [Prod.mk.injEq, Torus.wrap_eq_iff hg.width_pos, Torus.wrap_eq_iff hg.height_pos]

/-- Playfields of one size are equal if the same is read at all coordinates. -/
theorem eq_of_read_eq (hg : g.WellFormed) (hg' : g'.WellFormed) (hw : g'.width = g.width)
    (hh : g'.height = g.height) (h : ∀ x y, g'.read x y = g.read x y) : g' = g := by
  have hcells : g'.cells = g.cells := by
    apply Array.ext hh
    intro i hi' hi
    have hrow := Array.getElem?_eq_getElem hi
    have hrow' := Array.getElem?_eq_getElem hi'
    have hsize := hg.row_size i _ hrow
    have hsize' := hg'.row_size i _ hrow'
    apply Array.ext (by omega)
    intro j hj' hj
    have hcell : g'.at? (j, i) = g.at? (j, i) := by
      rw [at?_eq_read hg (by omega) hi, at?_eq_read hg' (by omega) hi', h]
    unfold at? at hcell
    rw [hrow, hrow', Option.bind_some, Option.bind_some, Array.getElem?_eq_getElem hj,
      Array.getElem?_eq_getElem hj'] at hcell
    exact Option.some.inj hcell
  obtain ⟨cells, width⟩ := g
  obtain ⟨cells', width'⟩ := g'
  rw [Playfield.mk.injEq]
  exact ⟨hcells, hw⟩

theorem read_write_write (hg : g.WellFormed) (x y : Int) (c : Char) (x' y' : Int) (d : Char)
    (a b : Int) :
    ((g.write x y c).write x' y' d).read a b =
      if g.spot a b = g.spot x' y' then d
      else if g.spot a b = g.spot x y then c
      else g.read a b := by
  have hspot := spot_congr (g.width_write x y c) (g.height_write x y c)
  rw [read_write (hg.write x y c), hspot, hspot, read_write hg]

/-- Of two characters that are put into one cell, the later one remains. -/
theorem write_write (hg : g.WellFormed) {x y x' y' : Int} (hsame : g.spot x' y' = g.spot x y)
    (c d : Char) : (g.write x y c).write x' y' d = g.write x' y' d := by
  apply eq_of_read_eq (hg.write x' y' d) ((hg.write x y c).write x' y' d)
  · simp only [width_write]
  · simp only [height_write]
  · intro a b
    rw [read_write_write hg, read_write hg, hsame]
    by_cases h : g.spot a b = g.spot x y
    · rw [if_pos h, if_pos h]
    · rw [if_neg h, if_neg h, if_neg h]

/-- Characters that are put into two cells can be put in any order. -/
theorem write_comm (hg : g.WellFormed) {x y x' y' : Int} (hne : g.spot x' y' ≠ g.spot x y)
    (c d : Char) : (g.write x y c).write x' y' d = (g.write x' y' d).write x y c := by
  apply eq_of_read_eq ((hg.write x' y' d).write x y c) ((hg.write x y c).write x' y' d)
  · simp only [width_write]
  · simp only [height_write]
  · intro a b
    rw [read_write_write hg, read_write_write hg]
    by_cases h' : g.spot a b = g.spot x' y'
    · rw [if_pos h', if_neg (fun h => hne (h'.symm.trans h)), if_pos h']
    · rw [if_neg h', if_neg h']

/-- Putting the character that is there already changes nothing. -/
theorem write_read (hg : g.WellFormed) {x y x' y' : Int} (hsame : g.spot x' y' = g.spot x y) :
    g.write x' y' (g.read x y) = g := by
  apply eq_of_read_eq hg (hg.write x' y' _) (width_write g _ _ _) (height_write g _ _ _)
  intro a b
  rw [read_write hg]
  by_cases h : g.spot a b = g.spot x' y'
  · rw [if_pos h, read_eq hg, read_eq hg, h, hsame]
  · rw [if_neg h]

end Playfield

/-! ## Codes -/

namespace Value

/-- A character has a code. -/
theorem isCharacterCode_ofChar (c : Char) : IsCharacterCode (ofChar c).toInt := by
  by_contra h
  have hnone := toChar?_eq_none_iff.2 h
  rw [toChar?_ofChar] at hnone
  cases hnone

/-- The code of the character with a code is that code. -/
theorem ofChar_ofNat {v : Value} (h : IsCharacterCode v.toInt) :
    ofChar (Char.ofNat v.toInt.toNat) = v := by
  obtain ⟨hpos, hvalid⟩ := isCharacterCode_iff.1 h
  have hcode : (Char.ofNat v.toInt.toNat).toNat = v.toInt.toNat := by
    unfold Char.ofNat
    rw [dif_pos hvalid]
    rfl
  rw [← Int64.toInt_inj, toInt_ofChar, hcode]
  exact Int.toNat_of_nonneg hpos

end Value

/-! ## Putting and getting -/

namespace Machine

variable {ρ : Type} {m : Machine ρ}

/-- The machine with a cell of its playfield overwritten. -/
def overwrite (m : Machine ρ) (x y : Value) (c : Char) : Machine ρ :=
  { m with field := m.field.write x.toInt y.toInt c }

theorem overwrite_advance (m : Machine ρ) (x y : Value) (c : Char) :
    m.advance.overwrite x y c = (m.overwrite x y c).advance := rfl

variable [RandomSource ρ]

/-- A number and two coordinates are pushed, and `p` is executed. -/
def putAt (m : Machine ρ) (v x y : Value) : Effect ρ := (((m.push v).push x).push y).execute 'p'

/-- Two coordinates are pushed, and `g` is executed. -/
def getAt (m : Machine ρ) (x y : Value) : Effect ρ := ((m.push x).push y).execute 'g'

/-- The number that `g` leaves on the stack. -/
def stored (m : Machine ρ) (x y : Value) : Value := (m.getAt x y).machine.peek 0

theorem putAt_of_code (hmode : m.stringMode = false) {v : Value} (hv : IsCharacterCode v.toInt)
    (x y : Value) :
    m.putAt v x y = .done (m.overwrite x y (Char.ofNat v.toInt.toNat)).advance := by
  have hcode : Value.toChar? ((((m.push v).push x).push y).peek 2) =
      some (Char.ofNat v.toInt.toNat) := Value.toChar?_of_isCharacterCode hv
  unfold putAt
  rw [execute_of_instruction (m := ((m.push v).push x).push y) hmode (i := .put) rfl,
    perform_put hcode]
  rfl

theorem putAt_of_not_code (hmode : m.stringMode = false) {v : Value}
    (hv : ¬IsCharacterCode v.toInt) (x y : Value) :
    m.putAt v x y = .fail m (.invalidValue v Fault.cellContext) :=
  execute_of_fails (m := ((m.push v).push x).push y) hmode (.put rfl hv)

theorem writeCharacter_of_code (hmode : m.stringMode = false) {v : Value}
    (hv : IsCharacterCode v.toInt) :
    (m.push v).execute ',' =
      .done { m with output := m.output.push (Char.ofNat v.toInt.toNat) }.advance := by
  have hcode : Value.toChar? ((m.push v).peek 0) = some (Char.ofNat v.toInt.toNat) :=
    Value.toChar?_of_isCharacterCode hv
  rw [execute_of_instruction (m := m.push v) hmode (i := .writeCharacter) rfl,
    perform_writeCharacter hcode]
  rfl

theorem getAt_eq (hmode : m.stringMode = false) (x y : Value) :
    m.getAt x y = .done (m.push (Value.ofChar (m.field.read x.toInt y.toInt))).advance := by
  unfold getAt
  rw [execute_of_instruction (m := (m.push x).push y) hmode (i := .get) rfl]
  rfl

theorem stored_eq (hmode : m.stringMode = false) (x y : Value) :
    m.stored x y = Value.ofChar (m.field.read x.toInt y.toInt) := by
  unfold stored
  rw [getAt_eq hmode]
  rfl

/-- What is got is the code of a character, so it can be put again. -/
theorem isCharacterCode_stored (hmode : m.stringMode = false) (x y : Value) :
    IsCharacterCode (m.stored x y).toInt := by
  rw [stored_eq hmode]
  exact Value.isCharacterCode_ofChar _

/-- A machine that has put something is still outside of string mode. -/
theorem stringMode_putAt (hmode : m.stringMode = false) (v x y : Value) :
    (m.putAt v x y).machine.stringMode = false := by
  by_cases hv : IsCharacterCode v.toInt
  · rw [putAt_of_code hmode hv]
    exact hmode
  · rw [putAt_of_not_code hmode hv]
    exact hmode

/-- Putting takes its three numbers from the stack, whether it fails or not. -/
theorem stack_putAt (hmode : m.stringMode = false) (v x y : Value) :
    (m.putAt v x y).machine.stack = m.stack := by
  by_cases hv : IsCharacterCode v.toInt
  · rw [putAt_of_code hmode hv]
    rfl
  · rw [putAt_of_not_code hmode hv]
    rfl

/-- A number that was put is got at the coordinates of its cell, and at all others what was got
there before. -/
theorem stored_putAt (hg : m.field.WellFormed) (hmode : m.stringMode = false)
    (v x y x' y' : Value) :
    (m.putAt v x y).machine.stored x' y' =
      if IsCharacterCode v.toInt ∧ m.field.Meet x y x' y' then v else m.stored x' y' := by
  by_cases hv : IsCharacterCode v.toInt
  · have hread : (m.putAt v x y).machine.field.read x'.toInt y'.toInt =
        if m.field.Meet x y x' y' then Char.ofNat v.toInt.toNat
        else m.field.read x'.toInt y'.toInt := by
      rw [putAt_of_code hmode hv]
      simp only [Playfield.meet_iff hg]
      exact Playfield.read_write hg _ _ _ _ _
    rw [stored_eq (stringMode_putAt hmode v x y), hread, stored_eq hmode]
    by_cases hmeet : m.field.Meet x y x' y'
    · rw [if_pos hmeet, if_pos ⟨hv, hmeet⟩, Value.ofChar_ofNat hv]
    · rw [if_neg hmeet, if_neg (fun h => hmeet h.2)]
  · rw [putAt_of_not_code hmode hv, if_neg (fun h => hv h.1)]
    rfl

/-- What is got can be put back where it was, or under other coordinates of its cell, and no cell
changes. -/
theorem put_stored (hg : m.field.WellFormed) (hmode : m.stringMode = false) {x y x' y' : Value}
    (hmeet : m.field.Meet x y x' y') :
    (((m.getAt x y).machine.push x').push y').execute 'p' = .done m.advance.advance := by
  have hput : (((m.getAt x y).machine.push x').push y').execute 'p' =
      m.advance.putAt (m.stored x y) x' y' := by
    rw [stored_eq hmode, getAt_eq hmode]
    rfl
  have hchar : Char.ofNat (m.stored x y).toInt.toNat = m.field.read x.toInt y.toInt := by
    rw [stored_eq hmode, Value.toInt_ofChar, Int.toNat_natCast, Char.ofNat_toNat]
  have hwrite : m.advance.overwrite x' y' (m.field.read x.toInt y.toInt) = m.advance := by
    have hfield := Playfield.write_read hg ((Playfield.meet_iff hg).1 hmeet)
    unfold overwrite
    exact congrArg (fun g => { m.advance with field := g }) hfield
  rw [hput, putAt_of_code (m := m.advance) hmode (isCharacterCode_stored hmode x y), hchar, hwrite]

theorem putAt_putAt (hmode : m.stringMode = false) {v v' : Value} (hv : IsCharacterCode v.toInt)
    (hv' : IsCharacterCode v'.toInt) (x y x' y' : Value) :
    (m.putAt v x y).machine.putAt v' x' y' =
      .done ((m.overwrite x y (Char.ofNat v.toInt.toNat)).overwrite x' y'
        (Char.ofNat v'.toInt.toNat)).advance.advance := by
  have hfirst : (m.putAt v x y).machine =
      (m.overwrite x y (Char.ofNat v.toInt.toNat)).advance := by
    rw [putAt_of_code hmode hv]
    rfl
  have hmode' : (m.overwrite x y (Char.ofNat v.toInt.toNat)).advance.stringMode = false := hmode
  rw [hfirst, putAt_of_code hmode' hv', overwrite_advance]

/-- Two numbers that are put into different cells can be put in any order. -/
theorem putAt_comm (hg : m.field.WellFormed) (hmode : m.stringMode = false) {v v' : Value}
    (hv : IsCharacterCode v.toInt) (hv' : IsCharacterCode v'.toInt) {x y x' y' : Value}
    (hmeet : ¬m.field.Meet x y x' y') :
    (m.putAt v x y).machine.putAt v' x' y' = (m.putAt v' x' y').machine.putAt v x y := by
  have hfield := Playfield.write_comm hg (fun h => hmeet ((Playfield.meet_iff hg).2 h))
    (Char.ofNat v.toInt.toNat) (Char.ofNat v'.toInt.toNat)
  rw [putAt_putAt hmode hv hv', putAt_putAt hmode hv' hv]
  exact congrArg (fun g => Effect.done { m with field := g }.advance.advance) hfield

/-- Of two numbers that are put into one cell, the later one remains, as if it had been put alone.
-/
theorem putAt_again (hg : m.field.WellFormed) (hmode : m.stringMode = false) {v v' : Value}
    (hv : IsCharacterCode v.toInt) (hv' : IsCharacterCode v'.toInt) {x y x' y' : Value}
    (hmeet : m.field.Meet x y x' y') :
    (m.putAt v x y).machine.putAt v' x' y' = .done (m.putAt v' x' y').machine.advance := by
  have hfield := Playfield.write_write hg ((Playfield.meet_iff hg).1 hmeet)
    (Char.ofNat v.toInt.toNat) (Char.ofNat v'.toInt.toNat)
  rw [putAt_putAt hmode hv hv', putAt_of_code hmode hv']
  exact congrArg (fun g => Effect.done { m with field := g }.advance.advance) hfield

/-- To a program its playfield is a store. The code of a character that was put under some
coordinates is got under all that mean the same cell, and under all others what was got before; a
number that is no code fails to be put and changes no cell. What is got is always a code, so it can
be written and be put anywhere; put back under coordinates of its own cell, it changes nothing but
the place of the pointer. Two numbers that are put into different cells can be put in any order, and
of two that are put into one cell the later one remains, as if it had been put alone. -/
theorem the_playfield_is_a_store (hg : m.field.WellFormed) (hmode : m.stringMode = false) :
    (∀ v x y, (m.putAt v x y).stop =
        (if IsCharacterCode v.toInt then none
          else some (.fault (.invalidValue v Fault.cellContext))) ∧
      (¬IsCharacterCode v.toInt → (m.putAt v x y).machine.field = m.field)) ∧
    (∀ x y, (m.getAt x y).stop = none ∧
      (m.getAt x y).machine.stack = m.stack.push (m.stored x y) ∧
      IsCharacterCode (m.stored x y).toInt ∧
      ∀ m' : Machine ρ, m'.stringMode = false →
        ((m'.push (m.stored x y)).execute ',').stop = none ∧
          ∀ x' y', (m'.putAt (m.stored x y) x' y').stop = none) ∧
    (∀ v x y x' y', let got := (m.putAt v x y).machine.getAt x' y'
      got.stop = none ∧ got.machine.stack = m.stack.push
        (if IsCharacterCode v.toInt ∧ m.field.Meet x y x' y' then v else m.stored x' y')) ∧
    (∀ x y x' y', m.field.Meet x y x' y' →
      (((m.getAt x y).machine.push x').push y').execute 'p' = .done m.advance.advance) ∧
    ∀ v x y v' x' y', IsCharacterCode v.toInt → IsCharacterCode v'.toInt →
      (¬m.field.Meet x y x' y' →
        (m.putAt v x y).machine.putAt v' x' y' = (m.putAt v' x' y').machine.putAt v x y) ∧
      (m.field.Meet x y x' y' →
        (m.putAt v x y).machine.putAt v' x' y' = .done (m.putAt v' x' y').machine.advance) := by
  refine ⟨?_, ?_, ?_, ?_, ?_⟩
  · intro v x y
    by_cases hv : IsCharacterCode v.toInt
    · rw [putAt_of_code hmode hv, if_pos hv]
      exact ⟨rfl, fun h => absurd hv h⟩
    · rw [putAt_of_not_code hmode hv, if_neg hv]
      exact ⟨rfl, fun _ => rfl⟩
  · intro x y
    have hcode := isCharacterCode_stored hmode x y
    refine ⟨?_, ?_, hcode, ?_⟩
    · rw [getAt_eq hmode]
      rfl
    · rw [stored_eq hmode, getAt_eq hmode]
      rfl
    · intro m' hmode'
      rw [writeCharacter_of_code hmode' hcode]
      refine ⟨rfl, ?_⟩
      intro x' y'
      rw [putAt_of_code hmode' hcode]
      rfl
  · intro v x y x' y' got
    have hmode' := stringMode_putAt hmode v x y
    have hgot : got = .done ((m.putAt v x y).machine.push
        ((m.putAt v x y).machine.stored x' y')).advance := by
      rw [stored_eq hmode']
      exact getAt_eq hmode' x' y'
    rw [hgot, stored_putAt hg hmode]
    refine ⟨rfl, ?_⟩
    rw [← stack_putAt hmode v x y]
    rfl
  · intro x y x' y' hmeet
    exact put_stored hg hmode hmeet
  · intro v x y v' x' y' hv hv'
    exact ⟨putAt_comm hg hmode hv hv', putAt_again hg hmode hv hv'⟩

/-- A letter that is put beyond the left edge and below the last row is got beyond the right edge
and above the first row, and not with the axes exchanged. A surrogate is not put. -/
theorem a_letter_is_found_across_the_edges :
    let m := (Machine.fresh (⟨0, 1⟩ : Progression)).load "abc\ndef"
    let after := (m.putAt 65 (-1) 7).machine
    (m.field.Meet (-1) 7 5 (-3) ∧ ¬m.field.Meet (-1) 7 7 (-1) ∧
        ¬IsCharacterCode (0xd800 : Value).toInt) ∧
      (after.getAt 5 (-3)).machine.stack = m.stack.push 65 ∧
      (after.getAt 7 (-1)).machine.stack = m.stack.push (m.stored 7 (-1)) ∧
      (m.putAt 0xd800 0 0).machine.field = m.field ∧
      (((m.getAt (-1) 7).machine.push 5).push (-3)).execute 'p' =
        .done m.advance.advance ∧
      after.putAt 66 7 (-1) = (m.putAt 66 7 (-1)).machine.putAt 65 (-1) 7 ∧
      after.putAt 66 5 (-3) = .done (m.putAt 66 5 (-3)).machine.advance := by
  intro m after
  have hg : m.field.WellFormed := Playfield.wellFormed_ofSource _
  obtain ⟨hput, _, hgot, hback, htwo⟩ := the_playfield_is_a_store (m := m) hg rfl
  have hmeet : m.field.Meet (-1) 7 5 (-3) := by decide
  have hother : ¬m.field.Meet (-1) 7 7 (-1) := by decide
  have hcode : IsCharacterCode (65 : Value).toInt := by decide
  have hcode' : IsCharacterCode (66 : Value).toInt := by decide
  have hsurrogate : ¬IsCharacterCode (0xd800 : Value).toInt := by decide
  have hfound := (hgot 65 (-1) 7 5 (-3)).2
  rw [if_pos ⟨hcode, hmeet⟩] at hfound
  have hkept := (hgot 65 (-1) 7 7 (-1)).2
  rw [if_neg (fun h => hother h.2)] at hkept
  exact ⟨⟨hmeet, hother, hsurrogate⟩, hfound, hkept, (hput 0xd800 0 0).2 hsurrogate,
    hback _ _ _ _ hmeet, (htwo _ _ _ _ _ _ hcode hcode').1 hother,
    (htwo _ _ _ _ _ _ hcode hcode').2 hmeet⟩

end Machine

end Befunge
