-- Fair choices. A `?` draws words until one is not refused. If the words of its source lie at a
-- constant distance, each heading has the same share of them, and whether a word is ever taken can
-- be read off the distance and the next word.
import Befunge.Proofs.Chance
import Mathlib.Data.Finset.Card
import Mathlib.Data.Nat.Count
import Mathlib.Data.Nat.ModEq
import Mathlib.Data.Nat.Prime.Basic
import Mathlib.Order.Interval.Finset.Nat
import Mathlib.Tactic.Ring

namespace Befunge

/-! ## Remainders at a constant distance -/

section

variable {d n : Nat}

theorem injOn_progression (h : n.Coprime d) (a : Nat) :
    Set.InjOn (fun k => (a + k * d) % n) (Finset.range n) := by
  intro k hk l hl hkl
  have hmod : k * d ≡ l * d [MOD n] := Nat.ModEq.add_left_cancel' a hkl
  have hcancel : k ≡ l [MOD n] := hmod.cancel_right_of_coprime h
  exact hcancel.eq_of_lt_of_lt (Finset.mem_range.1 hk) (Finset.mem_range.1 hl)

/-- Numbers at a distance that has no factor in common with `n` go through all remainders. -/
theorem image_progression (h : n.Coprime d) (a : Nat) :
    (Finset.range n).image (fun k => (a + k * d) % n) = Finset.range n := by
  apply Finset.eq_of_subset_of_card_le
  · intro r hr
    obtain ⟨k, hk, rfl⟩ := Finset.mem_image.1 hr
    have hlt := Finset.mem_range.1 hk
    exact Finset.mem_range.2 (Nat.mod_lt _ (by omega))
  · rw [Finset.card_image_of_injOn (injOn_progression h a)]

/-- So every property of remainders has among `n` of these numbers the share that it has among all
remainders. -/
theorem count_progression (h : n.Coprime d) (a : Nat) (P : Nat → Prop) [DecidablePred P] :
    Nat.count (fun k => P ((a + k * d) % n)) n = Nat.count P n := by
  have hinj := injOn_progression h a
  rw [Nat.count_eq_card_filter_range, Nat.count_eq_card_filter_range]
  calc
    _ = (((Finset.range n).filter fun k => P ((a + k * d) % n)).image
          fun k => (a + k * d) % n).card :=
      (Finset.card_image_of_injOn (hinj.mono (Finset.coe_subset.2 (Finset.filter_subset _ _)))).symm
    _ = (((Finset.range n).image fun k => (a + k * d) % n).filter P).card := by
      rw [Finset.filter_image]
    _ = _ := by rw [image_progression h a]

theorem count_div_eq {b q : Nat} (hb : 0 < b) (h : (q + 1) * b ≤ n) :
    Nat.count (fun u => u / b = q) n = b := by
  have hfilter : ((Finset.range n).filter fun u => u / b = q) =
      Finset.Ico (q * b) ((q + 1) * b) := by
    ext u
    rw [Finset.mem_filter, Finset.mem_range, Finset.mem_Ico, Nat.div_eq_iff hb]
    rw [Nat.add_mul, Nat.one_mul] at h ⊢
    omega
  rw [Nat.count_eq_card_filter_range, hfilter, Nat.card_Ico, Nat.add_mul, Nat.one_mul]
  omega

end

/-! ## Words and the headings they choose -/

/-- The number of a heading in a random choice. -/
def Heading.number : Heading → Nat
  | up => 0
  | down => 1
  | left => 2
  | right => 3

theorem Heading.number_lt (h : Heading) : h.number < 4 := by cases h <;> decide

theorem Heading.all_number (h : Heading) : all[h.number]? = some h := by cases h <;> rfl

/-- No two numbers below four choose the same heading. -/
theorem Heading.ofNumber_eq_iff {n : Nat} (hn : n < 4) (h : Heading) :
    ofNumber n = h ↔ n = h.number := by
  rw [← all_getElem? h n hn, ← all_number h]
  exact List.getElem?_inj hn nodup_all

namespace RandomSource

section

variable {ρ : Type} [RandomSource ρ] {r r' : ρ} {h : Heading} {n : Nat}

/-- The word that a source gives after `n` others. -/
def wordAfter (n : Nat) (r : ρ) : UInt64 := (draw (skip n r)).1

/-- The word is not refused, and it chooses the heading. -/
def Selects (v : UInt64) (h : Heading) : Prop := refused v = false ∧ chosen v = h

instance (v : UInt64) (h : Heading) : Decidable (Selects v h) :=
  inferInstanceAs (Decidable (_ ∧ _))

/-- Of the eight parts into which the two highest bits and the one after them divide the words, each
heading is chosen by one. -/
theorem selects_iff (v : UInt64) (h : Heading) : Selects v h ↔ v.toNat / 2 ^ 61 = 2 * h.number := by
  have hlt := v.toNat_lt
  have hrefused : refused v = false ↔ v.toNat / 2 ^ 61 % 2 = 0 := by
    unfold refused
    rw [Nat.testBit_eq_decide_div_mod_eq, decide_eq_false_iff_not]
    omega
  have hchosen : chosen v = h ↔ v.toNat / 2 ^ 61 / 2 = h.number := by
    have hpow : 2 ^ 62 = 2 ^ 61 * 2 := rfl
    unfold chosen
    rw [Nat.shiftRight_eq_div_pow, Heading.ofNumber_eq_iff (by omega), hpow,
      Nat.div_div_eq_div_mul]
  unfold Selects
  rw [hrefused, hchosen]
  omega

/-! ## Drawing until a word is taken -/

/-- The choice of a heading. It draws words until one is not refused: `Decides n r h r'` says that
it refuses `n` words of the source `r` and takes the next one, which chooses `h`, and that it leaves
the source `r'`. A choice that refuses every word does not end. -/
inductive Decides : Nat → ρ → Heading → ρ → Prop where
  | take {r : ρ} (h : refused (draw r).1 = false) : Decides 0 r (chosen (draw r).1) (draw r).2
  | refuse {r r' : ρ} {h : Heading} {n : Nat} (hr : refused (draw r).1 = true)
    (hnext : Decides n (draw r).2 h r') : Decides (n + 1) r h r'

theorem decides_iff :
    Decides n r h r' ↔
      (∀ k < n, refused (wordAfter k r) = true) ∧ Selects (wordAfter n r) h ∧
        skip (n + 1) r = r' := by
  induction n generalizing r with
  | zero =>
    constructor
    · rintro ⟨hr⟩
      exact ⟨fun k hk => absurd hk (Nat.not_lt_zero k), ⟨hr, rfl⟩, rfl⟩
    · rintro ⟨_, ⟨hr, rfl⟩, rfl⟩
      exact .take hr
  | succ n ih =>
    constructor
    · rintro (_ | ⟨hr, hnext⟩)
      obtain ⟨hbefore, htaken, hskip⟩ := ih.1 hnext
      refine ⟨?_, htaken, hskip⟩
      intro k hk
      cases k with
      | zero => exact hr
      | succ k => exact hbefore k (by omega)
    · rintro ⟨hbefore, htaken, hskip⟩
      refine .refuse (hbefore 0 (Nat.succ_pos n)) (ih.2 ⟨?_, htaken, hskip⟩)
      intro k hk
      exact hbefore (k + 1) (Nat.succ_lt_succ hk)

/-- A choice that comes to a word that is not refused ends there at the latest. -/
theorem exists_decides {k : Nat} (hk : refused (wordAfter k r) = false) :
    ∃ n h r', Decides n r h r' := by
  have hex : ∃ n, refused (wordAfter n r) = false := ⟨k, hk⟩
  refine ⟨Nat.find hex, _, _, decides_iff.2 ⟨?_, ⟨Nat.find_spec hex, rfl⟩, rfl⟩⟩
  intro j hj
  exact Bool.eq_true_of_not_eq_false (Nat.find_min hex hj)

theorem Decides.le (hdecides : Decides n r h r') {k : Nat}
    (hk : refused (wordAfter k r) = false) : n ≤ k := by
  obtain ⟨hbefore, _⟩ := decides_iff.1 hdecides
  by_contra hn
  rw [hbefore k (by omega)] at hk
  cases hk

theorem sampleWithin_succ (limit : Nat) (r : ρ) :
    sampleWithin (limit + 1) r =
      if refused (draw r).1 then sampleWithin limit (draw r).2
      else some (chosen (draw r).1, (draw r).2) := rfl

/-- A search through `limit` words finds what the choice takes after fewer refusals. -/
theorem sampleWithin_eq_some_iff {limit : Nat} :
    sampleWithin limit r = some (h, r') ↔ ∃ n < limit, Decides n r h r' := by
  induction limit generalizing r with
  | zero =>
    constructor
    · rintro ⟨⟩
    · rintro ⟨n, hn, _⟩
      exact absurd hn (Nat.not_lt_zero n)
  | succ limit ih =>
    rw [sampleWithin_succ]
    by_cases hr : refused (draw r).1 = true
    · rw [if_pos hr, ih]
      constructor
      · rintro ⟨n, hn, hnext⟩
        exact ⟨n + 1, Nat.succ_lt_succ hn, .refuse hr hnext⟩
      · rintro ⟨n, hn, hdecides⟩
        cases hdecides with
        | take hfree => exact absurd hr (by simp [hfree])
        | refuse _ hnext => exact ⟨_, Nat.lt_of_succ_lt_succ hn, hnext⟩
    · rw [if_neg hr]
      constructor
      · intro htaken
        cases htaken
        exact ⟨0, Nat.succ_pos limit, .take (by simpa using hr)⟩
      · rintro ⟨n, hn, hdecides⟩
        cases hdecides with
        | take _ => rfl
        | refuse hrefused _ => exact absurd hrefused hr

theorem skip_add (n k : Nat) (r : ρ) : skip (n + k) r = skip k (skip n r) := by
  induction n generalizing r with
  | zero =>
    rw [Nat.zero_add]
    rfl
  | succ n ih =>
    rw [Nat.succ_add]
    exact ih _

/-- The second source is the first one, some words further on. -/
def LeadsTo (r r' : ρ) : Prop := ∃ n, r' = skip n r

theorem leadsTo_refl (r : ρ) : LeadsTo r r := ⟨0, rfl⟩

theorem LeadsTo.trans {r'' : ρ} (h : LeadsTo r r') (h' : LeadsTo r' r'') : LeadsTo r r'' := by
  obtain ⟨n, rfl⟩ := h
  obtain ⟨k, rfl⟩ := h'
  exact ⟨n + k, (skip_add n k r).symm⟩

theorem leadsTo_of_sample (hs : sample r = some (h, r')) : LeadsTo r r' := by
  obtain ⟨n, _, hdecides⟩ := sampleWithin_eq_some_iff.1 hs
  obtain ⟨_, _, hskip⟩ := decides_iff.1 hdecides
  exact ⟨n + 1, hskip.symm⟩

theorem leadsTo_of_choose {hs : List Heading} (h : choose n r = some (hs, r')) : LeadsTo r r' := by
  induction n generalizing r hs with
  | zero =>
    cases h
    exact leadsTo_refl _
  | succ n ih =>
    obtain ⟨_, _, _, hsample, hrest, _⟩ := choose_succ_eq_some_iff.1 h
    exact (leadsTo_of_sample hsample).trans (ih hrest)

end

/-! ## Words at a constant distance -/

variable {p q : Progression} {t : Nat}

theorem toNat_wordAfter (n : Nat) (p : Progression) :
    (wordAfter n p).toNat = (p.next.toNat + n * p.increment.toNat) % 2 ^ 64 := by
  induction n generalizing p with
  | zero =>
    have hword : wordAfter 0 p = p.next := rfl
    rw [hword, Nat.zero_mul, Nat.add_zero, Nat.mod_eq_of_lt p.next.toNat_lt]
  | succ n ih =>
    have hword : wordAfter (n + 1) p =
        wordAfter n (⟨p.next + p.increment, p.increment⟩ : Progression) := rfl
    rw [hword, ih, UInt64.toNat_add, Nat.mod_add_mod, Nat.succ_mul, Nat.add_assoc,
      Nat.add_comm p.increment.toNat]

theorem refused_wordAfter (n : Nat) (p : Progression) :
    refused (wordAfter n p) =
      decide ((p.next.toNat + n * p.increment.toNat) / 2 ^ 61 % 2 = 1) := by
  unfold refused
  rw [toNat_wordAfter, Nat.testBit_mod_two_pow, Nat.testBit_eq_decide_div_mod_eq]
  simp

theorem refused_first (p : Progression) : refused (wordAfter 0 p) = p.next.toNat.testBit 61 := rfl

/-- If the distance is a multiple of `2 ^ 62`, all words are refused or none is. -/
theorem refused_wordAfter_of_dvd (h : 2 ^ 62 ∣ p.increment.toNat) (n : Nat) :
    refused (wordAfter n p) = p.next.toNat.testBit 61 := by
  obtain ⟨d, hd⟩ := h
  have hdistance : n * p.increment.toNat = 2 ^ 61 * (2 * (n * d)) := by
    rw [hd]
    ring
  rw [← refused_first, refused_wordAfter, refused_wordAfter, hdistance,
    Nat.add_mul_div_left _ _ (by decide), Nat.add_mul_mod_self_left, Nat.zero_mul, Nat.add_zero]

/-- The distance of the words is an odd multiple of `2 ^ t`, and small enough for the words to
differ in the bit that refuses them. -/
structure Strides (p : Progression) (t : Nat) : Prop where
  le : t ≤ 61
  dvd : 2 ^ t ∣ p.increment.toNat
  not_dvd : ¬2 ^ (t + 1) ∣ p.increment.toNat

theorem exists_strides (h : ¬2 ^ 62 ∣ p.increment.toNat) : ∃ t, Strides p t := by
  have hex : ∃ t, ¬2 ^ (t + 1) ∣ p.increment.toNat := ⟨61, h⟩
  refine ⟨Nat.find hex, Nat.find_min' hex h, ?_, Nat.find_spec hex⟩
  cases ht : Nat.find hex with
  | zero => exact Nat.one_dvd _
  | succ t =>
    have hmin := Nat.find_min hex (m := t) (by omega)
    exact not_not.1 hmin

theorem Strides.exists_odd (hp : Strides p t) :
    ∃ d, p.increment.toNat = 2 ^ t * d ∧ d % 2 = 1 := by
  obtain ⟨d, hd⟩ := hp.dvd
  refine ⟨d, hd, ?_⟩
  by_contra heven
  obtain ⟨c, hc⟩ : 2 ∣ d := by omega
  apply hp.not_dvd
  exact ⟨c, by rw [hd, hc, Nat.pow_succ, Nat.mul_assoc]⟩

theorem increment_skip (n : Nat) (p : Progression) : (skip n p).increment = p.increment := by
  induction n generalizing p with
  | zero => rfl
  | succ n ih => exact ih _

theorem LeadsTo.increment_eq (h : LeadsTo p q) : q.increment = p.increment := by
  obtain ⟨n, rfl⟩ := h
  exact increment_skip n p

theorem Strides.of_leadsTo (hp : Strides p t) (h : LeadsTo p q) : Strides q t := by
  obtain ⟨hle, hdvd, hnot⟩ := hp
  rw [← h.increment_eq] at hdvd hnot
  exact ⟨hle, hdvd, hnot⟩

/-- Of `2 ^ (64 - t)` words in a row, each heading is chosen by the same number. -/
theorem Strides.count_selects (hp : Strides p t) (k : Nat) (h : Heading) :
    Nat.count (fun n => Selects (wordAfter (k + n) p) h) (2 ^ (64 - t)) = 2 ^ (61 - t) := by
  obtain ⟨d, hd, hodd⟩ := hp.exists_odd
  have hle := hp.le
  have h64 : 2 ^ 64 = 2 ^ t * 2 ^ (64 - t) := (pow_mul_pow_sub 2 (by omega)).symm
  have h61 : 2 ^ 61 = 2 ^ t * 2 ^ (61 - t) := (pow_mul_pow_sub 2 hle).symm
  have h3 : 2 ^ (64 - t) = 8 * 2 ^ (61 - t) := by
    rw [show 64 - t = 3 + (61 - t) by omega, Nat.pow_add]
  -- The `t` lowest bits are those of the first word, and the others go through all remainders.
  have hselects : ∀ n, Selects (wordAfter (k + n) p) h ↔
      (p.next.toNat / 2 ^ t + k * d + n * d) % 2 ^ (64 - t) / 2 ^ (61 - t) = 2 * h.number := by
    intro n
    have hword : p.next.toNat + (k + n) * p.increment.toNat =
        p.next.toNat + 2 ^ t * (k * d + n * d) := by
      rw [hd]
      ring
    rw [selects_iff, toNat_wordAfter, hword, h61, ← Nat.div_div_eq_div_mul, h64,
      Nat.mod_mul_right_div_self, Nat.add_mul_div_left _ _ (Nat.two_pow_pos t), Nat.add_assoc]
  have hcoprime : (2 ^ (64 - t)).Coprime d :=
    Nat.Coprime.pow_left _ (Nat.coprime_two_left.2 (Nat.odd_iff.2 hodd))
  have hnumber := h.number_lt
  have hbound : (2 * h.number + 1) * 2 ^ (61 - t) ≤ 2 ^ (64 - t) := by
    rw [h3]
    exact Nat.mul_le_mul_right _ (by omega)
  simp only [hselects]
  rw [count_progression hcoprime _ fun u => u / 2 ^ (61 - t) = 2 * h.number]
  exact count_div_eq (Nat.two_pow_pos _) hbound

/-- Of all words, each heading is chosen by the same number. -/
theorem count_selects_ofNat (h : Heading) :
    Nat.count (fun v => Selects (UInt64.ofNat v) h) (2 ^ 64) = 2 ^ 61 := by
  -- They are the words of the source that counts.
  have hcounts : Strides ⟨0, 1⟩ 0 := ⟨by decide, by decide, by decide⟩
  have hword : ∀ v, wordAfter (0 + v) (⟨0, 1⟩ : Progression) = UInt64.ofNat v := by
    intro v
    apply UInt64.toNat_inj.1
    rw [toNat_wordAfter, UInt64.toNat_ofNat']
    simp
  have hcount := hcounts.count_selects 0 h
  simp only [hword] at hcount
  exact hcount

/-- A refused word is followed by one that is not, `2 ^ (61 - t)` words later at the latest. -/
theorem Strides.exists_not_refused (hp : Strides p t) (k : Nat) :
    ∃ n ≤ 2 ^ (61 - t), refused (wordAfter (k + n) p) = false := by
  obtain ⟨d, hd, hodd⟩ := hp.exists_odd
  have hle := hp.le
  cases hk : refused (wordAfter k p) with
  | false => exact ⟨0, Nat.zero_le _, hk⟩
  | true =>
    refine ⟨2 ^ (61 - t), Nat.le_refl _, ?_⟩
    have h61 : 2 ^ 61 = 2 ^ (61 - t) * 2 ^ t := (Nat.pow_sub_mul_pow 2 hle).symm
    have hword : p.next.toNat + (k + 2 ^ (61 - t)) * p.increment.toNat =
        p.next.toNat + k * p.increment.toNat + 2 ^ 61 * d := by
      rw [Nat.add_mul, h61, Nat.mul_assoc, ← hd, Nat.add_assoc]
    rw [refused_wordAfter, decide_eq_true_iff] at hk
    rw [refused_wordAfter, decide_eq_false_iff_not, hword, Nat.add_mul_div_left _ _ (by decide)]
    omega

/-- The choice of a heading is as the search through all words finds it: a word that is not among
the first `2 ^ 64` is not the first of its value. -/
theorem sample_eq_some_iff {h : Heading} : sample p = some (h, q) ↔ ∃ n, Decides n p h q := by
  unfold sample
  rw [sampleWithin_eq_some_iff]
  constructor
  · rintro ⟨n, _, hdecides⟩
    exact ⟨n, hdecides⟩
  · rintro ⟨n, hdecides⟩
    refine ⟨n, ?_, hdecides⟩
    obtain ⟨hbefore, ⟨htaken, _⟩, _⟩ := decides_iff.1 hdecides
    by_contra hn
    have hperiod : RandomSource.period Progression = 2 ^ 64 := rfl
    obtain ⟨k, rfl⟩ := Nat.exists_eq_add_of_le (Nat.le_of_not_lt hn)
    rw [hperiod] at hbefore htaken
    have hsame : wordAfter (2 ^ 64 + k) p = wordAfter k p := by
      apply UInt64.toNat_inj.1
      rw [toNat_wordAfter, toNat_wordAfter, Nat.add_mul, ← Nat.add_assoc, Nat.add_right_comm,
        Nat.add_mul_mod_self_left]
    have hrefused := hbefore k (by omega)
    rw [← hsame, htaken] at hrefused
    cases hrefused

end RandomSource

/-! ## Choices of a session -/

open RandomSource

/-- The choice that a `?` asks for ends after `n` refused words, and the `?` sets its heading. -/
def Execution.DecidesAfter {ρ : Type} [RandomSource ρ] (x : Execution ρ) (n : Nat) : Prop :=
  ∃ h r, Decides n x.machine.random h r ∧
    x.machine.execute x.cell = .done { x.machine with heading := h, random := r }.advance

namespace Machine

variable {ρ : Type} [RandomSource ρ]

theorem leadsTo_of_mem_executionsAll {m : Machine ρ} {text : List Char} {x : Execution ρ}
    (hx : x ∈ m.executionsAll text) : LeadsTo m.random x.machine.random := by
  induction text generalizing m with
  | nil => cases hx
  | cons c rest ih =>
    rw [executionsAll] at hx
    rcases List.mem_cons.1 hx with rfl | hx
    · exact leadsTo_refl m.random
    · cases hstop : (m.execute c).stop with
      | none =>
        rw [hstop] at hx
        exact (leadsTo_of_choose (draws_execute m c)).trans (ih hx)
      | some s =>
        rw [hstop] at hx
        cases hx

theorem leadsTo_of_mem_fetched {m : Machine ρ} {x : Execution ρ} (hx : x ∈ m.fetched) :
    LeadsTo m.random x.machine.random := by
  unfold fetched at hx
  split at hx
  · rw [List.mem_singleton] at hx
    subst hx
    exact leadsTo_refl m.random
  · cases hx

theorem leadsTo_of_mem_executionsRun {m : Machine ρ} {n : Nat} {x : Execution ρ}
    (hx : x ∈ m.executionsRun n) : LeadsTo m.random x.machine.random := by
  induction n generalizing m with
  | zero => cases hx
  | succ n ih =>
    rw [executionsRun] at hx
    rcases List.mem_append.1 hx with hx | hx
    · exact leadsTo_of_mem_fetched hx
    · cases hturn : m.step.turn with
      | running =>
        rw [hturn] at hx
        exact (leadsTo_of_choose (draws_step m)).trans (ih hx)
      | halted =>
        rw [hturn] at hx
        cases hx
      | stopped s =>
        rw [hturn] at hx
        cases hx

theorem leadsTo_of_mem_executionsOf {m : Machine ρ} {call : Call} {x : Execution ρ}
    (hx : x ∈ m.executionsOf call) : LeadsTo m.random x.machine.random := by
  cases call with
  | execute c =>
    rw [executionsOf, List.mem_singleton] at hx
    subst hx
    exact leadsTo_refl m.random
  | executeAll text => exact leadsTo_of_mem_executionsAll hx
  | step => exact leadsTo_of_mem_fetched hx
  | steps n => exact leadsTo_of_mem_executionsRun hx
  | run limit => exact leadsTo_of_mem_executionsRun hx
  | interpret limit source => exact leadsTo_of_mem_executionsRun (m := m.load source) hx
  | _ => cases hx

/-- In every session a source only goes on: each character that is executed finds it some words
further on. -/
theorem leadsTo_of_mem_executions {m : Machine ρ} {calls : List Call} {x : Execution ρ}
    (hx : x ∈ m.executions calls) : LeadsTo m.random x.machine.random := by
  induction calls generalizing m with
  | nil => cases hx
  | cons call rest ih =>
    rw [executions] at hx
    rcases List.mem_append.1 hx with hx | hx
    · exact leadsTo_of_mem_executionsOf hx
    · exact (leadsTo_of_choose (draws_answer m call)).trans (ih hx)

/-! ## Choices on words at a constant distance -/

variable {x : Execution Progression}

theorem decidesAfter_iff (hx : x.asks = true) {n : Nat} :
    x.DecidesAfter n ↔ ∃ h r, Decides n x.machine.random h r := by
  constructor
  · rintro ⟨h, r, hdecides, _⟩
    exact ⟨h, r, hdecides⟩
  · rintro ⟨h, r, hdecides⟩
    refine ⟨h, r, hdecides, ?_⟩
    have hsample := sample_eq_some_iff.2 ⟨n, hdecides⟩
    rw [execute_of_asks (of_decide_eq_true hx), hsample]

/-- A `?` stops the machine if its choice does not end, and only then. -/
theorem stop_eq_none_iff_decidesAfter (hx : x.asks = true) :
    (x.machine.execute x.cell).stop = none ↔ ∃ n, x.DecidesAfter n := by
  constructor
  · intro hstop
    rw [execute_of_asks (of_decide_eq_true hx)] at hstop
    cases hsample : sample x.machine.random with
    | none =>
      rw [hsample] at hstop
      cases hstop
    | some p =>
      obtain ⟨n, hdecides⟩ := sample_eq_some_iff.1 hsample
      exact ⟨n, (decidesAfter_iff hx).2 ⟨_, _, hdecides⟩⟩
  · rintro ⟨n, h, r, _, hexecute⟩
    rw [hexecute]
    rfl

/-- If the words differ in the bit that refuses them, a `?` ends. -/
theorem decidesAfter_of_strides {t : Nat} (hthere : Strides x.machine.random t)
    (hx : x.asks = true) :
    (∃ n, x.DecidesAfter n) ∧ ∀ n, x.DecidesAfter n → n ≤ 2 ^ (61 - t) := by
  obtain ⟨k, hk, hfree⟩ := hthere.exists_not_refused 0
  rw [Nat.zero_add] at hfree
  refine ⟨?_, ?_⟩
  · obtain ⟨n, hdecides⟩ := exists_decides hfree
    exact ⟨n, (decidesAfter_iff hx).2 hdecides⟩
  · rintro n ⟨h, r, hdecides, _⟩
    exact Nat.le_trans (hdecides.le hfree) hk

/-- If they do not, a `?` ends with the next word or not at all. -/
theorem decidesAfter_of_dvd (hthere : 2 ^ 62 ∣ x.machine.random.increment.toNat)
    (hx : x.asks = true) :
    ((∃ n, x.DecidesAfter n) ↔ x.machine.random.next.toNat.testBit 61 = false) ∧
      ∀ n, x.DecidesAfter n → n = 0 := by
  have hfirst : ∀ n, x.DecidesAfter n → x.machine.random.next.toNat.testBit 61 = false := by
    rintro n ⟨h, r, hdecides, _⟩
    obtain ⟨_, ⟨htaken, _⟩, _⟩ := decides_iff.1 hdecides
    rw [refused_wordAfter_of_dvd hthere] at htaken
    exact htaken
  refine ⟨⟨?_, ?_⟩, ?_⟩
  · rintro ⟨n, hafter⟩
    exact hfirst n hafter
  · intro hfree
    rw [← refused_first] at hfree
    obtain ⟨n, hdecides⟩ := exists_decides hfree
    exact ⟨n, (decidesAfter_iff hx).2 hdecides⟩
  · intro n hafter
    have hfree := hfirst n hafter
    rw [← refused_first] at hfree
    obtain ⟨h, r, hdecides, _⟩ := hafter
    exact Nat.le_zero.1 (hdecides.le hfree)

/-- A source whose words lie at the distance `i` is fair, and a choice on it ends if it can. If `i`
is no multiple of `2 ^ 62`, let `2 ^ t` be the largest power of two that divides it: then each
heading is chosen by `2 ^ (61 - t)` of any `2 ^ (64 - t)` words in a row, and every `?` of every
session ends after at most `2 ^ (61 - t)` refused words. If `i` is such a multiple, a `?` ends if
the next word is not refused, with that word, and else it does not end. A machine stops as stalled
where a `?` does not end, and at no other. Of all words each heading is chosen by `2 ^ 61`. -/
theorem choices_are_fair_and_end_if_they_can (m : Machine Progression) (calls : List Call) :
    let p := m.random
    let i := p.increment.toNat
    (∀ n, (wordAfter n p).toNat = (p.next.toNat + n * i) % 2 ^ 64) ∧
    (¬2 ^ 62 ∣ i → ∃ t ≤ 61, (2 ^ t ∣ i ∧ ¬2 ^ (t + 1) ∣ i) ∧
      (∀ k h, Nat.count (fun n => Selects (wordAfter (k + n) p) h) (2 ^ (64 - t)) =
        2 ^ (61 - t)) ∧
      ∀ x ∈ m.executions calls, x.asks = true →
        (∃ n, x.DecidesAfter n) ∧ ∀ n, x.DecidesAfter n → n ≤ 2 ^ (61 - t)) ∧
    (2 ^ 62 ∣ i → ∀ x ∈ m.executions calls, x.asks = true →
      ((∃ n, x.DecidesAfter n) ↔ x.machine.random.next.toNat.testBit 61 = false) ∧
        ∀ n, x.DecidesAfter n → n = 0) ∧
    (∀ x ∈ m.executions calls, x.asks = true →
      ((x.machine.execute x.cell).stop = none ↔ ∃ n, x.DecidesAfter n)) ∧
    ∀ h, Nat.count (fun v => Selects (UInt64.ofNat v) h) (2 ^ 64) = 2 ^ 61 := by
  intro p i
  refine ⟨fun n => toNat_wordAfter n p, ?_, ?_, ?_, count_selects_ofNat⟩
  · intro hi
    obtain ⟨t, hstrides⟩ := exists_strides hi
    refine ⟨t, hstrides.le, ⟨hstrides.dvd, hstrides.not_dvd⟩, hstrides.count_selects, ?_⟩
    intro x hx hasks
    exact decidesAfter_of_strides (hstrides.of_leadsTo (leadsTo_of_mem_executions hx)) hasks
  · intro hi x hx hasks
    apply decidesAfter_of_dvd _ hasks
    rw [(leadsTo_of_mem_executions hx).increment_eq]
    exact hi
  · intro x _ hasks
    exact stop_eq_none_iff_decidesAfter hasks

/-- The first word of two sources is refused. On the one another word follows that is not, and on
the other no such word ever comes. -/
theorem a_refused_word_may_be_followed_by_refused_ones_only :
    let m := Machine.fresh (⟨0x2000000000000000, 0x6000000000000000⟩ : Progression)
    let m' := Machine.fresh (⟨0x2000000000000000, 0x4000000000000000⟩ : Progression)
    (¬2 ^ 62 ∣ m.random.increment.toNat ∧ 2 ^ 62 ∣ m'.random.increment.toNat) ∧
      (∃ n, Execution.DecidesAfter ⟨m, '?'⟩ n) ∧ ¬∃ n, Execution.DecidesAfter ⟨m', '?'⟩ n := by
  intro m m'
  have hi : ¬2 ^ 62 ∣ m.random.increment.toNat := by decide
  have hi' : 2 ^ 62 ∣ m'.random.increment.toNat := by decide
  obtain ⟨_, hends, _⟩ := choices_are_fair_and_end_if_they_can m [.execute '?']
  obtain ⟨_, _, hstuck, _⟩ := choices_are_fair_and_end_if_they_can m' [.execute '?']
  obtain ⟨_, _, _, _, hdecides⟩ := hends hi
  obtain ⟨hiff, _⟩ := hstuck hi' ⟨m', '?'⟩ List.mem_cons_self rfl
  refine ⟨⟨hi, hi'⟩, (hdecides ⟨m, '?'⟩ List.mem_cons_self rfl).1, ?_⟩
  intro h
  exact absurd (hiff.1 h) (by decide)

end Machine

end Befunge
