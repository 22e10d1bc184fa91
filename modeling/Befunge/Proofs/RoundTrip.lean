-- Reading back what was written. Every value that has a JSON form is read from its own text, so
-- different values have different texts, and what is read from any text and written again stays as
-- it is from then on. Each form is read back on its own, and the text of a form is dealt with once.
import Befunge.Codec.Report
import Befunge.Json.ReaderLemmas

namespace Befunge

/-! ## Members of records -/

namespace Json

/-- The member with a key among members whose keys are all different. -/
theorem member?_of_nodup {members : List (String × Json)} (h : (members.map Prod.fst).Nodup)
    (key : String) :
    member? key (members.map fun m => (some m.1, m.2)) = some (members.lookup key) := by
  induction members with
  | nil => rfl
  | cons m rest ih =>
    obtain ⟨k, v⟩ := m
    rw [List.map_cons, List.nodup_cons] at h
    have hrest := ih h.2
    by_cases hk : key = k
    · subst hk
      -- The key does not occur again.
      have hnone : valuesOf key (rest.map fun m => (some m.1, m.2)) = [] := by
        unfold valuesOf
        rw [List.map_eq_nil_iff, List.filter_eq_nil_iff]
        intro m hm hkey
        obtain ⟨n, hn, rfl⟩ := List.mem_map.1 hm
        simp only [decide_eq_true_eq, Option.some.injEq] at hkey
        exact h.1 (List.mem_map.2 ⟨n, hn, hkey⟩)
      unfold member? valuesOf at *
      simp [hnone]
    · have hne : (key == k) = false := by simpa using hk
      rw [List.lookup_cons, hne, ← hrest]
      unfold member? valuesOf
      simp [Ne.symm hk]

/-- Reading the fields of a record that is written as an object whose keys are all different. -/
theorem bind_fields?_ofMembers {α : Type} {members : List (String × Json)}
    (h : (members.map Prod.fst).Nodup) (names : List String) (least : Nat)
    (next : List (Option Json) → Option α) :
    (fields? names least (ofMembers members)).bind next =
      next (names.map fun name => members.lookup name) := by
  have hkeys : (members.map fun m => (some m.1, m.2)).all (·.1.isSome) = true := by simp
  have hfields : fields? names least (ofMembers members) =
      some (names.map fun name => members.lookup name) := by
    unfold fields? ofMembers
    simp only [hkeys, if_true, member?_of_nodup h]
    induction names with
    | nil => rfl
    | cons name rest ih => simp [ih]
  rw [hfields, Option.bind_some]

end Json

namespace Codec

/-! ## Plain values -/

/-- A type whose values are read back from their JSON forms. -/
class Lawful (α : Type) [Codec α] : Prop where
  ofJson?_toJson : ∀ a : α, ofJson? (toJson a) = some a

export Lawful (ofJson?_toJson)

attribute [simp] ofJson?_toJson

instance : Lawful Int64 where
  ofJson?_toJson v := by
    have hread : intWithin? Int64.minValue.toInt Int64.maxValue.toInt (.int v.toInt) =
        some v.toInt := if_pos ⟨v.minValue_le_toInt, v.toInt_le⟩
    show (intWithin? _ _ (.int v.toInt)).map _ = _
    rw [hread, Option.map_some, Int64.ofInt_toInt]

theorem intWithin?_nat {size n : Nat} (h : n < size) :
    intWithin? 0 (size - 1) (.int n) = some (n : Int) := if_pos ⟨by omega, by omega⟩

instance : Lawful UInt64 where
  ofJson?_toJson v := by
    show (intWithin? _ _ (.int v.toNat)).map _ = _
    rw [intWithin?_nat v.toNat_lt_size, Option.map_some, Int.toNat_natCast, UInt64.ofNat_toNat]

instance : Lawful UInt16 where
  ofJson?_toJson v := by
    show (intWithin? _ _ (.int v.toNat)).map _ = _
    rw [intWithin?_nat v.toNat_lt_size, Option.map_some, Int.toNat_natCast, UInt16.ofNat_toNat]

/-- A size is read back if a word can hold it. -/
theorem ofJson?_toJson_nat {n : Nat} (h : n < UInt64.size) : ofJson? (toJson n) = some n := by
  show (intWithin? _ _ (.int n)).map _ = _
  rw [intWithin?_nat h, Option.map_some, Int.toNat_natCast]

theorem lt_of_ofJson?_nat {j : Json} {n : Nat} (h : ofJson? j = some n) : n < UInt64.size := by
  obtain ⟨v, hv, rfl⟩ := Option.map_eq_some_iff.1 h
  unfold intWithin? at hv
  split at hv
  · split at hv
    · cases hv
      omega
    · cases hv
  · cases hv

instance : Lawful Bool where
  ofJson?_toJson _ := rfl

instance : Lawful String where
  ofJson?_toJson _ := rfl

instance : Lawful Char where
  ofJson?_toJson c := by
    show (match (String.singleton c).toList with | [c] => some c | _ => none) = some c
    simp

section

variable {α : Type} [Codec α] [Lawful α]

theorem mapM_ofJson? (items : List α) : (items.map toJson).mapM ofJson? = some items := by
  induction items with
  | nil => rfl
  | cons item rest ih => simp [ih]

instance : Lawful (List α) where
  ofJson?_toJson items := mapM_ofJson? items

instance : Lawful (Array α) where
  ofJson?_toJson items := by
    show ((items.toList.map toJson).mapM ofJson?).map List.toArray = some items
    rw [mapM_ofJson?, Option.map_some, Array.toArray_toList]

end

/-- A number is never `null`. -/
instance : Lawful (Option UInt64) where
  ofJson?_toJson
    | none => rfl
    | some v => by
      show (ofJson? (toJson v)).map some = some (some v)
      rw [ofJson?_toJson, Option.map_some]

end Codec

open Codec

/-! ## Named values -/

instance : Lawful Heading where
  ofJson?_toJson h := by cases h <;> rfl

instance : Lawful Status where
  ofJson?_toJson s := by cases s <;> rfl

instance : Lawful Category where
  ofJson?_toJson c := by cases c <;> rfl

/-! ## Records -/

instance : Lawful Code where
  ofJson?_toJson c := by
    show (ofJson? (toJson c.number)).map Code.mk = some c
    rw [ofJson?_toJson, Option.map_some]

instance : Lawful Point where
  ofJson?_toJson p := by
    refine (Json.bind_fields?_ofMembers (by simp) _ _ _).trans ?_
    show (ofJson? (toJson p.x)).bind _ = some p
    simp

instance : Lawful Stack where
  ofJson?_toJson s := by
    refine (Json.bind_fields?_ofMembers (by simp) _ _ _).trans ?_
    show (ofJson? (toJson s.values)).map _ = some s
    simp

instance : Lawful Options where
  ofJson?_toJson o := by
    refine (Json.bind_fields?_ofMembers (by simp) _ _ _).trans ?_
    show (ofJson? (toJson o.seed)).map _ = some o
    simp

/-- A playfield of any shape is read back, if a word can hold its width. -/
theorem Playfield.ofJson?_toJson {g : Playfield} (h : g.width < UInt64.size) :
    ofJson? (toJson g) = some g := by
  refine (Json.bind_fields?_ofMembers (by simp) _ _ _).trans ?_
  show (ofJson? (toJson g.cells)).bind _ = some g
  simp [ofJson?_toJson_nat h]

/-- Only a width that a word can hold is read. -/
theorem Playfield.width_lt_of_ofJson? {j : Json} {g : Playfield} (h : ofJson? j = some g) :
    g.width < UInt64.size := by
  change (Json.fields? ["cells", "width"] 2 j).bind _ = some g at h
  obtain ⟨fields, _, hread⟩ := Option.bind_eq_some_iff.1 h
  split at hread
  · obtain ⟨cells, _, hrest⟩ := Option.bind_eq_some_iff.1 hread
    obtain ⟨width, hwidth, hg⟩ := Option.bind_eq_some_iff.1 hrest
    cases hg
    exact lt_of_ofJson?_nat hwidth
  · cases hread

instance : Lawful Snapshot where
  ofJson?_toJson s := by
    refine (Json.bind_fields?_ofMembers (by simp) _ _ _).trans ?_
    show (ofJson? (toJson s.rows)).bind _ = some s
    simp

/-! ## Faults -/

namespace Fault

theorem isStorable_scalar (room : Nat) (s : Json.Scalar) :
    (Json.scalar s).isStorable room = s.isStorable := by cases room <;> rfl

theorem isStorable_text (room : Nat) (s : String) : (Json.text s).isStorable room = true :=
  isStorable_scalar room _

theorem isStorable_word (room : Nat) (v : Int64) : (toJson v).isStorable room = true := by
  have h0 := v.le_toInt
  have h1 := v.toInt_lt
  have hlimit : 2 ^ 64 ≤ Json.doubleLimit := by decide +kernel
  have hsize : v.toInt.natAbs < Json.doubleLimit := by omega
  rw [show toJson v = .scalar (.int v.toInt) from rfl, isStorable_scalar]
  simp only [Json.Scalar.isStorable, hsize, decide_true]

/-- A fault is written with its kind in front, which is read first and then taken away. -/
theorem read?_ofMembers {room : Nat} (kind : String) {fields : List (String × Json)}
    (hkeys : ((("kind", .text kind) :: fields).map Prod.fst).Nodup)
    (hfields : ∀ m ∈ fields, m.2.isStorable room = true) :
    read? (room + 1) (Json.ofMembers (("kind", .text kind) :: fields)) =
      ofKind? kind (Json.ofMembers fields) := by
  have hstorable :
      (Json.ofMembers (("kind", .text kind) :: fields)).isStorable (room + 1) = true := by
    show List.all _ _ = true
    simpa [isStorable_text] using fun k v hm => hfields (k, v) hm
  have hrest : ((("kind", Json.text kind) :: fields).map fun m => (some m.1, m.2)).filter
      (·.1 ≠ some "kind") = fields.map fun m => (some m.1, m.2) := by
    rw [List.map_cons, List.filter_cons_of_neg (by simp), List.filter_eq_self]
    intro m hm
    obtain ⟨n, hn, rfl⟩ := List.mem_map.1 hm
    have hne : n.1 ≠ "kind" := fun h => (List.nodup_cons.1 hkeys).1 (List.mem_map.2 ⟨n, hn, h⟩)
    simpa using hne
  unfold read?
  rw [if_pos hstorable]
  show (Json.member? "kind" _).bind _ = _
  rw [Json.member?_of_nodup hkeys, Option.bind_some, List.lookup_cons_self]
  show ofKind? kind (.object _) = _
  rw [hrest]
  rfl

/-- A fault is read back wherever one more level may be nested. -/
theorem read?_toJson (room : Nat) (f : Fault) : read? (room + 1) (toJson f) = some f := by
  cases f with
  | unknownInstruction cell place =>
    have hcell : (toJson cell).isStorable room = true := isStorable_text room _
    refine (read?_ofMembers unknownKind (by simp) (by simp [hcell, isStorable_word])).trans ?_
    unfold ofKind?
    rw [if_pos rfl]
    refine (Json.bind_fields?_ofMembers (by simp) _ _ _).trans ?_
    show (ofJson? (toJson cell)).bind _ = _
    simp
  | invalidValue value context =>
    have hcontext : (toJson context).isStorable room = true := isStorable_text room _
    refine (read?_ofMembers invalidKind (by simp) (by simp [hcontext, isStorable_word])).trans ?_
    unfold ofKind?
    rw [if_neg (by decide), if_pos rfl]
    refine (Json.bind_fields?_ofMembers (by simp) _ _ _).trans ?_
    show (ofJson? (toJson value)).bind _ = _
    simp

end Fault

instance : Lawful Fault where
  ofJson?_toJson := Fault.read?_toJson _

/-- The fault of a report lies one level deep, and one level more may be nested there. -/
theorem Report.readFault?_toJson (f : Fault) :
    Report.readFault? (some (toJson f)) = some (some f) := by
  have hread : Report.readFault? (some (toJson f)) =
      (Fault.read? (125 + 1) (toJson f)).map some := by cases f <;> rfl
  rw [hread, Fault.read?_toJson, Option.map_some]

instance : Lawful Report where
  ofJson?_toJson r := by
    obtain ⟨success, output, fault, state⟩ := r
    cases fault with
    | none =>
      have hfault : Report.readFault? none = some none := rfl
      refine (Json.bind_fields?_ofMembers (by simp) _ _ _).trans ?_
      show (ofJson? (toJson success)).bind _ = some _
      simp [List.lookup_cons, hfault]
    | some f =>
      refine (Json.bind_fields?_ofMembers (by simp) _ _ _).trans ?_
      show (ofJson? (toJson success)).bind _ = some _
      simp [List.lookup_cons, Report.readFault?_toJson]

/-! ## Texts -/

namespace Codec

variable {α : Type} [Codec α]

/-- The text of a form is read as that form. -/
theorem decode?_encode_eq (a : α) : (decode? (encode a) : Option α) = ofJson? (toJson a) := by
  unfold decode? encode
  rw [String.toList_ofList, Json.read?_write, Option.bind_some]

/-- The text that a text becomes when it is read and written again. -/
def rewrite? (α : Type) [Codec α] (s : String) : Option String :=
  (decode? s : Option α).map encode

/-- What is written is read back, for the values of a type that fit. -/
structure RoundTrips (α : Type) [Codec α] (Fits : α → Prop) : Prop where
  /-- A value is read back from its text. -/
  reads_back : ∀ a : α, Fits a → decode? (encode a) = some a
  /-- Different values have different texts. -/
  tells_apart : ∀ a b : α, Fits a → Fits b → encode a = encode b → a = b
  /-- Whatever is read fits. -/
  reads_fitting : ∀ (s : String) (a : α), decode? s = some a → Fits a
  /-- A text that is accepted is written again as a text that stays as it is. -/
  settles : ∀ s t : String, rewrite? α s = some t → rewrite? α t = some t

/-- The form of each value that fits is read as that value, and nothing else is read, so the same
holds of the texts. -/
theorem RoundTrips.of_forms {Fits : α → Prop}
    (hback : ∀ a : α, Fits a → ofJson? (toJson a) = some a)
    (hfits : ∀ (j : Json) (a : α), ofJson? j = some a → Fits a) : RoundTrips α Fits := by
  have hreads : ∀ a : α, Fits a → decode? (encode a) = some a := fun a ha =>
    (decode?_encode_eq a).trans (hback a ha)
  have hreadsFitting : ∀ (s : String) (a : α), decode? s = some a → Fits a := by
    intro s a h
    obtain ⟨j, _, hj⟩ := Option.bind_eq_some_iff.1 h
    exact hfits j a hj
  refine ⟨hreads, ?_, hreadsFitting, ?_⟩
  · intro a b ha hb hab
    have hsame : some a = some b := by rw [← hreads a ha, ← hreads b hb, hab]
    exact Option.some.inj hsame
  · intro s t h
    obtain ⟨a, ha, rfl⟩ := Option.map_eq_some_iff.1 h
    unfold rewrite?
    rw [hreads a (hreadsFitting s a ha), Option.map_some]

theorem Lawful.roundTrips [Lawful α] : RoundTrips α fun _ => True :=
  .of_forms (fun a _ => ofJson?_toJson a) fun _ _ _ => trivial

end Codec

/-- Every value is read back from its text. For every type with a JSON form, the text of a value is
read as that value, different values have different texts, and a text that is accepted becomes, when
it is read and written, one that stays as it is. Cells and strings may hold any characters and a
playfield may have any shape. Only the width of a playfield is not a word of the machine already, so
for playfields it has to fit one, and every width that is read does. -/
theorem every_value_is_read_back_from_its_text :
    RoundTrips Heading (fun _ => True) ∧
    RoundTrips Status (fun _ => True) ∧
    RoundTrips Point (fun _ => True) ∧
    RoundTrips Code (fun _ => True) ∧
    RoundTrips Category (fun _ => True) ∧
    RoundTrips Fault (fun _ => True) ∧
    RoundTrips Playfield (fun g => g.width < UInt64.size) ∧
    RoundTrips Stack (fun _ => True) ∧
    RoundTrips Snapshot (fun _ => True) ∧
    RoundTrips Options (fun _ => True) ∧
    RoundTrips Report (fun _ => True) :=
  ⟨Lawful.roundTrips, Lawful.roundTrips, Lawful.roundTrips, Lawful.roundTrips, Lawful.roundTrips,
    Lawful.roundTrips,
    .of_forms (fun _ => Playfield.ofJson?_toJson) fun _ _ => Playfield.width_lt_of_ofJson?,
    Lawful.roundTrips, Lawful.roundTrips, Lawful.roundTrips, Lawful.roundTrips⟩

/-- A playfield whose rows are no rows of its width, with a quote and a zero character in it, is
read back. -/
theorem a_ragged_playfield_is_read_back :
    (decode? (encode (⟨#[#['"', '\x00'], #[]], 7⟩ : Playfield)) : Option Playfield) =
      some ⟨#[#['"', '\x00'], #[]], 7⟩ := by
  obtain ⟨_, _, _, _, _, _, hfield, _⟩ := every_value_is_read_back_from_its_text
  exact hfield.reads_back _ (by decide)

end Befunge
