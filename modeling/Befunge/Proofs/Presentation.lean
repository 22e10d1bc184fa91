-- Presentation does not matter. A record is read from every text that shows its members, in any
-- order, among further members and with any blanks, and so are the records inside of it. A text in
-- which a member of a record occurs twice, or in which one is missing, is refused.
import Befunge.Json.Arrangement
import Befunge.Proofs.RoundTrip

namespace Befunge

/-! ## Plain values -/

namespace Codec

/-- A type whose forms are no objects, so that there is nothing to arrange in them. -/
class Flat (α : Type) [Codec α] : Prop where
  presents_toJson_iff : ∀ {a : α} {j : Json}, Json.Presents (toJson a) j ↔ j = toJson a

export Flat (presents_toJson_iff)

attribute [simp] presents_toJson_iff

instance : Flat Int64 := ⟨Json.presents_scalar_iff⟩

instance : Flat UInt64 := ⟨Json.presents_scalar_iff⟩

instance : Flat Nat := ⟨Json.presents_scalar_iff⟩

instance : Flat Bool := ⟨Json.presents_scalar_iff⟩

instance : Flat Char := ⟨Json.presents_scalar_iff⟩

instance : Flat String := ⟨Json.presents_scalar_iff⟩

instance : Flat Heading := ⟨Json.presents_scalar_iff⟩

instance : Flat Status := ⟨Json.presents_scalar_iff⟩

instance {α : Type} [Codec α] : Flat (List α) := ⟨Json.presents_array_iff⟩

instance {α : Type} [Codec α] : Flat (Array α) := ⟨Json.presents_array_iff⟩

instance : Flat (Option UInt64) where
  presents_toJson_iff {a _} := by
    cases a with
    | none => exact Json.presents_scalar_iff
    | some v => exact Json.presents_scalar_iff

end Codec

open Codec

/-! ## Records in any order -/

/-- If no member of a record is an object, it is read as if the members had been left as they
were. -/
theorem Json.Arranges.fields?_eq_of_flat {reserved : List String} {base all : List (String × Json)}
    (h : Arranges reserved base all) (hflat : ∀ {members}, PresentsEach base members → members = base)
    {names : List String} (hnames : ∀ name ∈ names, name ∈ reserved ∨ name ∈ base.map Prod.fst)
    (least : Nat) :
    fields? names least (ofMembers all) = fields? names least (ofMembers base) := by
  obtain ⟨members, each, hfields⟩ := h.fields?_eq
  rw [hfields names least hnames, hflat each]

theorem Point.ofJson?_of_presents {p : Point} {j : Json} (h : Json.Presents (toJson p) j) :
    ofJson? j = some p := by
  obtain ⟨all, hall, rfl⟩ := Json.presents_ofMembers_iff.1 h
  show (Json.fields? ["x", "y"] 2 _).bind _ = _
  rw [hall.fields?_eq_of_flat (by simp) (by simp)]
  exact ofJson?_toJson p

theorem Stack.ofJson?_of_presents {s : Stack} {j : Json} (h : Json.Presents (toJson s) j) :
    ofJson? j = some s := by
  obtain ⟨all, hall, rfl⟩ := Json.presents_ofMembers_iff.1 h
  show (Json.fields? ["values"] 1 _).bind _ = _
  rw [hall.fields?_eq_of_flat (by simp) (by simp)]
  exact ofJson?_toJson s

theorem Playfield.ofJson?_of_presents {g : Playfield} (hg : g.width < UInt64.size) {j : Json}
    (h : Json.Presents (toJson g) j) : ofJson? j = some g := by
  obtain ⟨all, hall, rfl⟩ := Json.presents_ofMembers_iff.1 h
  show (Json.fields? ["cells", "width"] 2 _).bind _ = _
  rw [hall.fields?_eq_of_flat (by simp) (by simp)]
  exact Playfield.ofJson?_toJson hg

/-- The position of a snapshot is a record of its own. -/
theorem Snapshot.ofJson?_of_presents {s : Snapshot} {j : Json} (h : Json.Presents (toJson s) j) :
    ofJson? j = some s := by
  obtain ⟨all, hall, rfl⟩ := Json.presents_ofMembers_iff.1 h
  obtain ⟨members, each, hfields⟩ := hall.fields?_eq
  obtain ⟨position, hposition, rfl⟩ : ∃ position, Json.Presents (toJson s.position) position ∧
      members = [("grid", toJson s.rows), ("stack", toJson s.stack), ("position", position),
        ("direction", toJson s.heading), ("string_mode", toJson s.stringMode),
        ("output", toJson s.output), ("status", toJson s.status), ("steps", toJson s.steps)] := by
    simpa using each
  have hread := Point.ofJson?_of_presents hposition
  show (Json.fields? ["grid", "stack", "position", "direction", "string_mode", "output", "status",
    "steps"] 8 _).bind _ = _
  rw [hfields _ _ (by simp)]
  refine (Json.bind_fields?_ofMembers (by simp) _ _ _).trans ?_
  show (ofJson? (toJson s.rows)).bind _ = some s
  simp [hread]

/-! ## Faults in any order -/

namespace Fault

theorem isStorable_of_isPlain {s : Json.Scalar} (h : s.IsPlain) (room : Nat) :
    (Json.scalar s).isStorable room = true := by
  cases h with
  | null => exact isStorable_scalar room _
  | bool b => exact isStorable_scalar room _
  | word v => exact isStorable_word room v
  | text s => exact isStorable_text room s

/-- Wherever the kind of a fault stands, it is found and taken away, and the fields are read from
the rest. -/
theorem read?_of_arranges (room : Nat) {kind : String} {fields all : List (String × Json)}
    (h : Json.Arranges [] (("kind", .text kind) :: fields) all)
    (hflat : ∀ {members}, Json.PresentsEach (("kind", .text kind) :: fields) members →
      members = ("kind", .text kind) :: fields)
    (hkeys : ((("kind", Json.text kind) :: fields).map Prod.fst).Nodup)
    (hfields : ∀ m ∈ fields, m.2.isStorable room = true) :
    ∃ rest, read? (room + 1) (Json.ofMembers all) = ofKind? kind rest ∧
      ∀ names least, (∀ name ∈ names, name ∈ fields.map Prod.fst) →
        Json.fields? names least rest = Json.fields? names least (Json.ofMembers fields) := by
  obtain ⟨members, each, hmem, hmember⟩ := h.member?_eq
  obtain rfl := hflat each
  have hstorable : (Json.ofMembers all).isStorable (room + 1) = true := by
    show List.all _ _ = true
    rw [List.all_map, List.all_eq_true]
    intro m hm
    rcases hmem m hm with hm | ⟨s, hs, hm⟩
    · rcases List.mem_cons.1 hm with rfl | hm
      · simp [isStorable_text]
      · simp [hfields m hm]
    · simp [hm, isStorable_of_isPlain hs]
  have hkind : Json.member? "kind" (all.map fun m => (some m.1, m.2)) =
      some (some (.text kind)) := by
    rw [hmember "kind" (by simp), Json.member?_of_nodup hkeys, List.lookup_cons_self]
  refine ⟨.object ((all.map fun m => (some m.1, m.2)).filter (·.1 ≠ some "kind")), ?_, ?_⟩
  · unfold read?
    rw [if_pos hstorable]
    show (Json.member? "kind" _).bind _ = _
    rw [hkind]
    rfl
  · intro names least hnames
    refine Json.fields?_congr (by simp) (by simp) ?_ least
    intro name hname
    have hne : name ≠ "kind" := fun heq =>
      (List.nodup_cons.1 hkeys).1 (heq ▸ hnames name hname)
    unfold Json.member?
    rw [Json.valuesOf_filter_ne hne]
    refine (hmember name (.inr (List.mem_cons_of_mem _ (hnames name hname)))).trans ?_
    unfold Json.member? Json.valuesOf
    simp [Ne.symm hne]

/-- A fault is read however its members are arranged. -/
theorem read?_of_presents {f : Fault} {j : Json} (h : Json.Presents (toJson f) j) (room : Nat) :
    read? (room + 1) j = some f := by
  rw [← read?_toJson room f]
  cases f with
  | unknownInstruction cell place =>
    obtain ⟨all, hall, rfl⟩ := Json.presents_ofMembers_iff.1 h
    have hcell : (toJson cell).isStorable room = true := isStorable_text room _
    obtain ⟨rest, hread, hrest⟩ := read?_of_arranges room hall (by simp [Json.text])
      (by simp) (by simp [hcell, isStorable_word])
    refine hread.trans (Eq.trans ?_ (read?_ofMembers unknownKind (by simp)
      (by simp [hcell, isStorable_word])).symm)
    simp only [ofKind?, if_true]
    rw [hrest _ _ (by simp)]
  | invalidValue value context =>
    obtain ⟨all, hall, rfl⟩ := Json.presents_ofMembers_iff.1 h
    have hcontext : (toJson context).isStorable room = true := isStorable_text room _
    obtain ⟨rest, hread, hrest⟩ := read?_of_arranges room hall (by simp [Json.text])
      (by simp) (by simp [hcontext, isStorable_word])
    refine hread.trans (Eq.trans ?_ (read?_ofMembers invalidKind (by simp)
      (by simp [hcontext, isStorable_word])).symm)
    have hkind : ¬invalidKind = unknownKind := by decide
    simp only [ofKind?, hkind, if_false, if_true]
    rw [hrest _ _ (by simp)]

end Fault

/-! ## Absent members -/

/-- The ways to write the members of a record with an optional one: as they are, with `null` for the
optional one if it is absent, and without the optional one if it is `null`. -/
inductive Json.Omits (optional : List String) :
    List (String × Json) → List (String × Json) → Prop where
  | same (members : List (String × Json)) : Omits optional members members
  | asNull {key : String} {members : List (String × Json)} (h : key ∈ optional)
    (absent : key ∉ members.map Prod.fst) : Omits optional members ((key, .null) :: members)
  | leftOut {key : String} {members : List (String × Json)} (h : key ∈ optional) :
    Omits optional ((key, .null) :: members) members

/-- The object `j` shows `a`: it has the members of the form of `a`, in any order and among further
ones, and the objects inside of it are arranged in the same way. An optional member that is absent
is `null` or left out. -/
def Codec.Shows {α : Type} [Codec α] (optional : List String) (a : α) (j : Json) : Prop :=
  ∃ base members all, toJson a = Json.ofMembers base ∧ Json.Omits optional base members ∧
    Json.Arranges optional members all ∧ j = Json.ofMembers all

theorem Codec.Shows.presents {α : Type} [Codec α] {a : α} {j : Json} (h : Shows [] a j) :
    Json.Presents (toJson a) j := by
  obtain ⟨base, members, all, hbase, homits, hall, rfl⟩ := h
  rw [hbase]
  cases homits with
  | same => exact .object hall
  | asNull h => simp at h
  | leftOut h => simp at h

theorem Options.seed_eq_none {o : Options} (h : toJson o.seed = .null) : o = ⟨none⟩ := by
  obtain ⟨_ | v⟩ := o
  · rfl
  · cases h

/-- A seed that was not given is `null` or left out. -/
theorem Options.ofJson?_of_shows {o : Options} {j : Json} (h : Shows ["seed"] o j) :
    ofJson? j = some o := by
  obtain ⟨base, members, all, hbase, homits, hall, rfl⟩ := h
  obtain rfl : [("seed", toJson o.seed)] = base := Json.ofMembers_injective hbase
  show (Json.fields? ["seed"] 0 _).bind _ = _
  generalize hseed : toJson o.seed = seed at homits
  cases homits with
  | same =>
    subst hseed
    rw [hall.fields?_eq_of_flat (by simp) (by simp)]
    exact ofJson?_toJson o
  | asNull h absent =>
    obtain rfl := List.mem_singleton.1 h
    simp at absent
  | leftOut h =>
    rw [hall.fields?_eq_of_flat (by simp) (by simp), Options.seed_eq_none hseed]
    rfl

/-- A report is read from its members, if its fault and its state are read from theirs. -/
theorem Report.ofJson?_ofMembers {r : Report} {members : List (String × Json)}
    (hkeys : (members.map Prod.fst).Nodup)
    (hsuccess : members.lookup "success" = some (toJson r.success))
    (houtput : members.lookup "output" = some (toJson r.output))
    (hfault : readFault? (members.lookup "error") = some r.fault)
    {state : Json} (hstate : members.lookup "state" = some state)
    (hread : ofJson? state = some r.state) :
    (ofJson? (Json.ofMembers members) : Option Report) = some r := by
  refine (Json.bind_fields?_ofMembers hkeys _ _ _).trans ?_
  simp [hsuccess, houtput, hfault, hstate, hread]

theorem Report.readFault?_of_presents {f : Fault} {j : Json} (h : Json.Presents (toJson f) j) :
    readFault? (some j) = some (some f) := by
  have hread : Fault.read? (125 + 1) j = some f := Fault.read?_of_presents h 125
  unfold readFault?
  split
  · rename_i heq
    cases heq
  · rename_i heq
    cases heq
    simp [Fault.read?] at hread
  · rename_i heq
    cases heq
    show (Fault.read? (125 + 1) j).map some = _
    rw [hread, Option.map_some]

theorem Report.ofJson?_of_arranges {r : Report} {base all : List (String × Json)}
    (h : Json.Arranges ["error"] base all)
    (hnames : ∀ name ∈ ["success", "output", "state"], name ∈ base.map Prod.fst)
    (hread : ∀ members, Json.PresentsEach base members →
      ofJson? (Json.ofMembers members) = some r) :
    ofJson? (Json.ofMembers all) = some r := by
  obtain ⟨members, each, hfields⟩ := h.fields?_eq
  show (Json.fields? ["success", "output", "error", "state"] 4 _).bind _ = _
  rw [hfields]
  · exact hread members each
  · intro name hname
    by_cases herror : name = "error"
    · exact .inl (by simp [herror])
    · exact .inr (hnames name (by simpa [herror] using hname))

/-- A fault that is absent is `null` or left out. -/
theorem Report.ofJson?_of_shows {r : Report} {j : Json} (h : Shows ["error"] r j) :
    ofJson? j = some r := by
  obtain ⟨base, members, all, hbase, homits, hall, rfl⟩ := h
  obtain ⟨success, output, _ | f, state⟩ := r
  · obtain rfl : [("success", toJson success), ("output", toJson output),
        ("state", toJson state)] = base := Json.ofMembers_injective hbase
    cases homits with
    | same =>
      refine ofJson?_of_arranges hall (by simp) fun members each => ?_
      obtain ⟨state', hstate, rfl⟩ : ∃ state', Json.Presents (toJson state) state' ∧
          members = [("success", toJson success), ("output", toJson output),
            ("state", state')] := by
        simpa using each
      exact ofJson?_ofMembers (by simp) rfl rfl rfl rfl (Snapshot.ofJson?_of_presents hstate)
    | asNull h absent =>
      obtain rfl := List.mem_singleton.1 h
      refine ofJson?_of_arranges hall (by simp) fun members each => ?_
      obtain ⟨state', hstate, rfl⟩ : ∃ state', Json.Presents (toJson state) state' ∧
          members = [("error", .null), ("success", toJson success), ("output", toJson output),
            ("state", state')] := by
        simpa [Json.null] using each
      exact ofJson?_ofMembers (by simp) rfl rfl rfl rfl (Snapshot.ofJson?_of_presents hstate)
  · obtain rfl : [("success", toJson success), ("output", toJson output), ("error", toJson f),
        ("state", toJson state)] = base := Json.ofMembers_injective hbase
    cases homits with
    | same =>
      refine ofJson?_of_arranges hall (by simp) fun members each => ?_
      obtain ⟨error, state', herror, hstate, rfl⟩ : ∃ error state',
          Json.Presents (toJson f) error ∧ Json.Presents (toJson state) state' ∧
          members = [("success", toJson success), ("output", toJson output), ("error", error),
            ("state", state')] := by
        simpa [and_assoc] using each
      exact ofJson?_ofMembers (by simp) rfl rfl (readFault?_of_presents herror) rfl
        (Snapshot.ofJson?_of_presents hstate)
    | asNull h absent =>
      obtain rfl := List.mem_singleton.1 h
      simp at absent

/-! ## Members that must be there, and once -/

/-- If a place is written as an object, each of its members is there once. -/
def Point.IsSound (j : Json) : Prop :=
  ∀ members, j = .object members → Json.Complete ["x", "y"] ["x", "y"] members

/-- If a stack is written as an object, its one member is there once. -/
def Stack.IsSound (j : Json) : Prop :=
  ∀ members, j = .object members → Json.Complete ["values"] ["values"] members

/-- If a playfield is written as an object, each of its members is there once. -/
def Playfield.IsSound (j : Json) : Prop :=
  ∀ members, j = .object members → Json.Complete ["cells", "width"] ["cells", "width"] members

/-- If a snapshot is written as an object, each of its members is there once, and so it is with its
place. -/
def Snapshot.IsSound (j : Json) : Prop :=
  ∀ members, j = .object members →
    Json.Complete
      ["grid", "stack", "position", "direction", "string_mode", "output", "status", "steps"]
      ["grid", "stack", "position", "direction", "string_mode", "output", "status", "steps"]
      members ∧
    ∀ place ∈ Json.valuesOf "position" members, Point.IsSound place

/-- If a fault is written as an object, its kind is there once, and so is each of the members that
this kind has. -/
def Fault.IsSound (j : Json) : Prop :=
  ∀ members, j = .object members →
    Json.Complete ["kind"] ["kind"] members ∧
    (.text unknownKind ∈ Json.valuesOf "kind" members →
      Json.Complete ["ch", "x", "y"] ["ch", "x", "y"] members) ∧
    (.text invalidKind ∈ Json.valuesOf "kind" members →
      Json.Complete ["value", "context"] ["value", "context"] members)

/-- If options are written as an object, the seed is not there twice. It may be missing. -/
def Options.IsSound (j : Json) : Prop :=
  ∀ members, j = .object members → Json.Complete ["seed"] [] members

/-- If a report is written as an object, none of its members is there twice, and only its fault may
be missing. So it is with its fault and its state. -/
def Report.IsSound (j : Json) : Prop :=
  ∀ members, j = .object members →
    Json.Complete ["success", "output", "error", "state"] ["success", "output", "state"] members ∧
    (∀ fault ∈ Json.valuesOf "error" members, Fault.IsSound fault) ∧
    ∀ state ∈ Json.valuesOf "state" members, Snapshot.IsSound state

theorem Point.isSound_of_ofJson? {p : Point} {j : Json} (h : ofJson? j = some p) : IsSound j := by
  rintro members rfl
  obtain ⟨fields, hfields, hnext⟩ := Option.bind_eq_some_iff.1 h
  split at hnext
  · exact Json.complete_of_fields? hfields rfl
  · cases hnext

theorem Stack.isSound_of_ofJson? {s : Stack} {j : Json} (h : ofJson? j = some s) : IsSound j := by
  rintro members rfl
  obtain ⟨fields, hfields, hnext⟩ := Option.bind_eq_some_iff.1 h
  split at hnext
  · exact Json.complete_of_fields? hfields rfl
  · cases hnext

theorem Playfield.isSound_of_ofJson? {g : Playfield} {j : Json} (h : ofJson? j = some g) :
    IsSound j := by
  rintro members rfl
  obtain ⟨fields, hfields, hnext⟩ := Option.bind_eq_some_iff.1 h
  split at hnext
  · exact Json.complete_of_fields? hfields rfl
  · cases hnext

theorem Snapshot.isSound_of_ofJson? {s : Snapshot} {j : Json} (h : ofJson? j = some s) :
    IsSound j := by
  rintro members rfl
  obtain ⟨fields, hfields, hnext⟩ := Option.bind_eq_some_iff.1 h
  split at hnext
  · refine ⟨Json.complete_of_fields? hfields rfl, ?_⟩
    obtain ⟨rows, _, hnext⟩ := Option.bind_eq_some_iff.1 hnext
    obtain ⟨stack, _, hnext⟩ := Option.bind_eq_some_iff.1 hnext
    obtain ⟨place, hplace, _⟩ := Option.bind_eq_some_iff.1 hnext
    have hvalues := Json.fields?_object hfields
    simp only [List.forall₂_cons, Option.toList_some, List.forall₂_nil_right_iff, and_true] at hvalues
    simpa [hvalues] using Point.isSound_of_ofJson? hplace
  · cases hnext

namespace Fault

theorem complete_of_ofKind?_unknown {f : Fault} {members : List (Option String × Json)}
    (h : ofKind? unknownKind (.object members) = some f) :
    Json.Complete ["ch", "x", "y"] ["ch", "x", "y"] members := by
  simp only [ofKind?, if_true] at h
  obtain ⟨fields, hfields, hnext⟩ := Option.bind_eq_some_iff.1 h
  split at hnext
  · exact Json.complete_of_fields? hfields rfl
  · cases hnext

theorem complete_of_ofKind?_invalid {f : Fault} {members : List (Option String × Json)}
    (h : ofKind? invalidKind (.object members) = some f) :
    Json.Complete ["value", "context"] ["value", "context"] members := by
  have hkind : ¬invalidKind = unknownKind := by decide
  simp only [ofKind?, hkind, if_false, if_true] at h
  obtain ⟨fields, hfields, hnext⟩ := Option.bind_eq_some_iff.1 h
  split at hnext
  · exact Json.complete_of_fields? hfields rfl
  · cases hnext

theorem isSound_of_read? {f : Fault} {room : Nat} {j : Json} (h : read? room j = some f) :
    IsSound j := by
  rintro members rfl
  unfold read? at h
  split at h
  · obtain ⟨found, hfound, h⟩ := Option.bind_eq_some_iff.1 h
    split at h
    · rename_i kind
      have hvalues : Json.valuesOf "kind" members = [kind] := Json.member?_eq_some_iff.1 hfound
      obtain ⟨name, hname, h⟩ := Option.bind_eq_some_iff.1 h
      rw [hvalues]
      refine ⟨⟨by simp [hvalues], by simp [hvalues]⟩, ?_, ?_⟩
      · intro hkind
        obtain rfl := List.mem_singleton.1 hkind
        obtain rfl : unknownKind = name := Option.some.inj hname
        exact (complete_of_ofKind?_unknown h).of_filter (by simp)
      · intro hkind
        obtain rfl := List.mem_singleton.1 hkind
        obtain rfl : invalidKind = name := Option.some.inj hname
        exact (complete_of_ofKind?_invalid h).of_filter (by simp)
    · cases h
  · cases h

end Fault

theorem Options.isSound_of_ofJson? {o : Options} {j : Json} (h : ofJson? j = some o) :
    IsSound j := by
  rintro members rfl
  obtain ⟨fields, hfields, _⟩ := Option.bind_eq_some_iff.1 h
  exact ⟨Json.once_of_fields? hfields, by simp⟩

theorem Report.isSound_of_readFault? {fault : Option Fault} {j : Json}
    (h : readFault? (some j) = some fault) : Fault.IsSound j := by
  unfold readFault? at h
  split at h
  · rename_i heq
    cases heq
  · rename_i heq
    cases heq
    intro members heq
    cases heq
  · rename_i heq
    cases heq
    obtain ⟨f, hf, _⟩ := Option.map_eq_some_iff.1 h
    exact Fault.isSound_of_read? hf

theorem Report.isSound_of_ofJson? {r : Report} {j : Json} (h : ofJson? j = some r) :
    IsSound j := by
  rintro members rfl
  obtain ⟨fields, hfields, hnext⟩ := Option.bind_eq_some_iff.1 h
  split at hnext
  · rename_i success output fault state
    have hvalues := Json.fields?_object hfields
    simp only [List.forall₂_cons, Option.toList_some, List.forall₂_nil_right_iff, and_true] at hvalues
    obtain ⟨hsuccess, houtput, herror, hstate⟩ := hvalues
    obtain ⟨_, _, hnext⟩ := Option.bind_eq_some_iff.1 hnext
    obtain ⟨_, _, hnext⟩ := Option.bind_eq_some_iff.1 hnext
    obtain ⟨_, hfault, hnext⟩ := Option.bind_eq_some_iff.1 hnext
    obtain ⟨_, hread, _⟩ := Option.bind_eq_some_iff.1 hnext
    refine ⟨⟨Json.once_of_fields? hfields, by simp [hsuccess, houtput, hstate]⟩, ?_, ?_⟩
    · intro j hj
      rw [herror, Option.mem_toList] at hj
      obtain rfl := hj
      exact isSound_of_readFault? hfault
    · simpa [hstate] using Snapshot.isSound_of_ofJson? hread
  · cases hnext

/-! ## Texts -/

/-- The values of a type that fit are read however they are presented, and a text is refused if its
members are not as they have to be. -/
structure Codec.Presentable (α : Type) [Codec α] (Fits : α → Prop) (optional : List String)
    (IsSound : Json → Prop) : Prop where
  /-- A value is read from every text of every object that shows it. -/
  accepts : ∀ (a : α) (j : Json) (s : String), Fits a → Shows optional a j →
    Json.Spells (Json.tokens j) s.toList → decode? s = some a
  /-- A text is refused if a member occurs twice in it, or if one that is required is missing. -/
  refuses : ∀ (j : Json) (s : String), Json.Spells (Json.tokens j) s.toList → ¬IsSound j →
    (decode? s : Option α) = none

theorem Codec.decode?_of_spells {α : Type} [Codec α] {j : Json} {s : String}
    (h : Json.Spells (Json.tokens j) s.toList) : (decode? s : Option α) = ofJson? j := by
  unfold decode?
  rw [Json.read?_of_spells h, Option.bind_some]

theorem Codec.Presentable.of_forms {α : Type} [Codec α] {Fits : α → Prop} {optional : List String}
    {IsSound : Json → Prop}
    (hshows : ∀ {a : α} {j : Json}, Fits a → Shows optional a j → ofJson? j = some a)
    (hsound : ∀ {a : α} {j : Json}, ofJson? j = some a → IsSound j) :
    Presentable α Fits optional IsSound := by
  constructor
  · intro a j s ha hj hs
    rw [decode?_of_spells hs]
    exact hshows ha hj
  · intro j s hs hj
    rw [decode?_of_spells hs, Option.eq_none_iff_forall_ne_some]
    intro a ha
    exact hj (hsound ha)

/-- Presentation does not matter. A value of a record type is read from every text that shows its
members: in any order, the kind of a fault anywhere among them, with further members of other keys,
with any blanks between the tokens, with any escapes in the strings, and with the same freedom in
the records inside of it. A seed or a fault that is absent may be `null` or left out. A text is
refused if a member of such a record occurs in it twice, or if any other one is missing. -/
theorem records_are_read_however_they_are_presented :
    Presentable Point (fun _ => True) [] Point.IsSound ∧
    Presentable Stack (fun _ => True) [] Stack.IsSound ∧
    Presentable Playfield (fun g => g.width < UInt64.size) [] Playfield.IsSound ∧
    Presentable Snapshot (fun _ => True) [] Snapshot.IsSound ∧
    Presentable Options (fun _ => True) ["seed"] Options.IsSound ∧
    Presentable Report (fun _ => True) ["error"] Report.IsSound ∧
    Presentable Fault (fun _ => True) [] Fault.IsSound := by
  refine ⟨?_, ?_, ?_, ?_, ?_, ?_, ?_⟩
  · exact .of_forms (fun _ h => Point.ofJson?_of_presents h.presents) Point.isSound_of_ofJson?
  · exact .of_forms (fun _ h => Stack.ofJson?_of_presents h.presents) Stack.isSound_of_ofJson?
  · exact .of_forms (fun hg h => Playfield.ofJson?_of_presents hg h.presents)
      Playfield.isSound_of_ofJson?
  · exact .of_forms (fun _ h => Snapshot.ofJson?_of_presents h.presents)
      Snapshot.isSound_of_ofJson?
  · exact .of_forms (fun _ => Options.ofJson?_of_shows) Options.isSound_of_ofJson?
  · exact .of_forms (fun _ => Report.ofJson?_of_shows) Report.isSound_of_ofJson?
  · exact .of_forms (fun _ h => Fault.read?_of_presents h.presents _) Fault.isSound_of_read?

/-- With every token on a line of its own, a text spells its tokens. -/
theorem Json.spells_lines (ts : List Token) :
    Spells ts (ts.flatMap fun t => '\n' :: t.write) := by
  induction ts with
  | nil => exact .done (by simp)
  | cons t rest ih =>
    have ends : EndsNumber (rest.flatMap fun t => '\n' :: t.write) := by
      cases rest with
      | nil => simp [EndsNumber]
      | cons next more =>
        intro c hc
        simp at hc
        subst hc
        decide
    have hblank : ∀ c ∈ ['\n'], isBlank c := by simp [isBlank]
    simpa using Spells.token hblank (.own t) (fun _ => ends) ih

/-- A fault is read with its members in the reverse order, behind a note. With `y` twice it is not
read. -/
theorem a_fault_is_read_with_its_kind_last :
    let fault := Fault.unknownInstruction 'a' ⟨1, -2⟩
    let members := [("note", .null), ("y", toJson (-2 : Int64)), ("x", toJson (1 : Int64)),
      ("ch", toJson 'a'), ("kind", .text Fault.unknownKind)]
    let j := Json.ofMembers members
    let twice := Json.ofMembers (("y", toJson (-2 : Int64)) :: members)
    let text := fun j : Json => String.ofList ((Json.tokens j).flatMap fun t => '\n' :: t.write)
    Shows [] fault j ∧ decode? (text j) = some fault ∧
      ¬Fault.IsSound twice ∧ (decode? (text twice) : Option Fault) = none := by
  intro fault members j twice text
  obtain ⟨_, _, _, _, _, _, hfault⟩ := records_are_read_however_they_are_presented
  have hspells : ∀ j, Json.Spells (Json.tokens j) (text j).toList := by
    intro j
    rw [String.toList_ofList]
    exact Json.spells_lines _
  have hshows : Shows [] fault j := by
    have each : Json.PresentsEach members.tail.reverse members.tail.reverse := by
      simp [members, Json.text]
    have order : members.Perm (members.tail.reverse ++ Json.furtherMembers [("note", .null)]) :=
      List.reverse_perm (members.tail.reverse ++ Json.furtherMembers [("note", .null)])
    exact ⟨_, _, members, rfl, .same _, .intro [("note", .null)] each (by simp)
      (by simpa using Json.Scalar.IsPlain.null) order, rfl⟩
  have hsound : ¬Fault.IsSound twice := by
    intro h
    obtain ⟨_, hmembers, _⟩ := h _ rfl
    have honce := (hmembers (by simp [members, Json.valuesOf])).once "y" (by simp)
    simp [members, Json.valuesOf] at honce
  exact ⟨hshows, hfault.accepts _ _ _ trivial hshows (hspells j), hsound,
    hfault.refuses _ _ (hspells twice) hsound⟩

end Befunge
