-- The same members in another object. Reading a record looks at the members with its own keys only,
-- so their order does not matter, and neither do further members. Each of its own keys has to be
-- there, and once.
import Befunge.Json.Record
import Mathlib.Data.List.Forall2

namespace Befunge.Json

/-! ## The members with a key -/

theorem member?_eq_some_iff {key : String} {members : List (Option String × Json)}
    {value : Option Json} :
    member? key members = some value ↔ valuesOf key members = value.toList := by
  unfold member?
  rcases valuesOf key members with _ | ⟨v, _ | ⟨w, rest⟩⟩ <;> cases value <;> simp

theorem member?_perm {members members' : List (Option String × Json)} (h : members.Perm members')
    (key : String) : member? key members = member? key members' := by
  have hvalues : (valuesOf key members).Perm (valuesOf key members') := (h.filter _).map _
  unfold member?
  rcases hv : valuesOf key members with _ | ⟨v, _ | ⟨w, rest⟩⟩
  · rw [hv, List.nil_perm] at hvalues
    rw [hvalues]
  · rw [hv, List.singleton_perm] at hvalues
    rw [← hvalues]
  · rw [hv] at hvalues
    rcases hv' : valuesOf key members' with _ | ⟨v', _ | ⟨w', rest'⟩⟩
    · simp [hv'] at hvalues
    · simp [hv'] at hvalues
    · rfl

/-- Members whose keys are all other ones do not matter. -/
theorem member?_append {key : String} {further : List (Option String × Json)}
    (h : ∀ m ∈ further, m.1 ≠ some key) (members : List (Option String × Json)) :
    member? key (members ++ further) = member? key members := by
  have hnone : further.filter (fun m => m.1 = some key) = [] := by
    rw [List.filter_eq_nil_iff]
    intro m hm
    simpa using h m hm
  unfold member? valuesOf
  rw [List.filter_append, hnone, List.append_nil]

theorem valuesOf_filter_ne {key other : String} (h : key ≠ other)
    (members : List (Option String × Json)) :
    valuesOf key (members.filter (·.1 ≠ some other)) = valuesOf key members := by
  unfold valuesOf
  rw [List.filter_filter]
  congr 1
  apply List.filter_congr
  intro m _
  by_cases hm : m.1 = some key <;> simp [hm, h]

theorem mapM_member?_congr {members members' : List (Option String × Json)} {names : List String}
    (h : ∀ name ∈ names, member? name members = member? name members') :
    (names.mapM fun name => member? name members) =
      names.mapM fun name => member? name members' := by
  induction names with
  | nil => rfl
  | cons name rest ih =>
    rw [List.mapM_cons, List.mapM_cons, h name (by simp),
      ih fun n hn => h n (List.mem_cons_of_mem _ hn)]

theorem mapM_member?_eq_some {members : List (Option String × Json)} {names : List String}
    {fields : List (Option Json)}
    (h : (names.mapM fun name => member? name members) = some fields) :
    List.Forall₂ (fun name value => valuesOf name members = value.toList) names fields := by
  induction names generalizing fields with
  | nil =>
    cases h
    exact .nil
  | cons name rest ih =>
    rw [List.mapM_cons] at h
    obtain ⟨value, hvalue, h⟩ := Option.bind_eq_some_iff.1 h
    obtain ⟨values, hvalues, h⟩ := Option.bind_eq_some_iff.1 h
    cases h
    exact .cons (member?_eq_some_iff.1 hvalue) (ih hvalues)

theorem fields?_congr {members members' : List (Option String × Json)}
    (hkeys : members.all (·.1.isSome)) (hkeys' : members'.all (·.1.isSome)) {names : List String}
    (h : ∀ name ∈ names, member? name members = member? name members') (least : Nat) :
    fields? names least (.object members) = fields? names least (.object members') := by
  simp only [fields?, hkeys, hkeys', if_true]
  exact mapM_member?_congr h

/-- The fields that are read are all that an object has under their names. -/
theorem fields?_object {names : List String} {least : Nat}
    {members : List (Option String × Json)} {fields : List (Option Json)}
    (h : fields? names least (.object members) = some fields) :
    List.Forall₂ (fun name value => valuesOf name members = value.toList) names fields := by
  simp only [fields?] at h
  split at h
  · exact mapM_member?_eq_some h
  · cases h

/-! ## Objects that show the same members -/

/-- The values that a further member may have: a string that is a text, a truth value, `null` or a
word. -/
inductive Scalar.IsPlain : Scalar → Prop where
  | null : IsPlain .null
  | bool (b : Bool) : IsPlain (.bool b)
  | word (v : Int64) : IsPlain (.int v.toInt)
  | text (s : String) : IsPlain (.text (some s))

/-- The members of a list of further ones. -/
def furtherMembers (further : List (String × Scalar)) : List (String × Json) :=
  further.map fun m => (m.1, .scalar m.2)

mutual

/-- The second value is the first one with its objects arranged anew: at any depth an object may have
its members in another order and among further ones. -/
inductive Presents : Json → Json → Prop where
  | scalar (s : Scalar) : Presents (.scalar s) (.scalar s)
  | array (items : List Json) : Presents (.array items) (.array items)
  | object {base all : List (String × Json)} (h : Arranges [] base all) :
    Presents (ofMembers base) (ofMembers all)

/-- The same keys in the same order, each with its value arranged anew. -/
inductive PresentsEach : List (String × Json) → List (String × Json) → Prop where
  | nil : PresentsEach [] []
  | cons {key : String} {value value' : Json} {rest rest' : List (String × Json)}
    (h : Presents value value') (more : PresentsEach rest rest') :
    PresentsEach ((key, value) :: rest) ((key, value') :: rest')

/-- The members `all` are those of `base` in any order and among further ones, whose keys are none
of theirs and none of the reserved ones. -/
inductive Arranges : List String → List (String × Json) → List (String × Json) → Prop where
  | intro {reserved : List String} {base members all : List (String × Json)}
    (further : List (String × Scalar)) (each : PresentsEach base members)
    (keys : ∀ m ∈ further, m.1 ∉ reserved ∧ m.1 ∉ base.map Prod.fst)
    (plain : ∀ m ∈ further, m.2.IsPlain)
    (order : all.Perm (members ++ furtherMembers further)) :
    Arranges reserved base all

end

/-! ## Taking such objects apart -/

@[simp]
theorem presentsEach_nil_iff {members : List (String × Json)} :
    PresentsEach [] members ↔ members = [] := by
  constructor
  · intro h
    cases h
    rfl
  · rintro rfl
    exact .nil

@[simp]
theorem presentsEach_cons_iff {key : String} {value : Json} {rest members : List (String × Json)} :
    PresentsEach ((key, value) :: rest) members ↔
      ∃ value' rest', Presents value value' ∧ PresentsEach rest rest' ∧
        members = (key, value') :: rest' := by
  constructor
  · intro h
    cases h with
    | cons h more => exact ⟨_, _, h, more, rfl⟩
  · rintro ⟨value', rest', h, more, rfl⟩
    exact .cons h more

@[simp]
theorem presents_scalar_iff {s : Scalar} {j : Json} : Presents (.scalar s) j ↔ j = .scalar s := by
  constructor
  · generalize hi : Json.scalar s = i
    intro h
    cases h with
    | scalar => rfl
    | array => rfl
    | object => cases hi
  · rintro rfl
    exact .scalar s

@[simp]
theorem presents_array_iff {items : List Json} {j : Json} :
    Presents (.array items) j ↔ j = .array items := by
  constructor
  · generalize hi : Json.array items = i
    intro h
    cases h with
    | scalar => rfl
    | array => rfl
    | object => cases hi
  · rintro rfl
    exact .array items

theorem ofMembers_injective {members members' : List (String × Json)}
    (h : ofMembers members = ofMembers members') : members = members' := by
  refine (List.map_inj_right ?_).1 (Json.object.inj h)
  rintro ⟨k, v⟩ ⟨k', v'⟩ hkv
  simpa using hkv

theorem presents_ofMembers_iff {base : List (String × Json)} {j : Json} :
    Presents (ofMembers base) j ↔ ∃ all, Arranges [] base all ∧ j = ofMembers all := by
  constructor
  · generalize hi : ofMembers base = i
    intro h
    cases h with
    | scalar => cases hi
    | array => cases hi
    | object h =>
      rw [ofMembers_injective hi]
      exact ⟨_, h, rfl⟩
  · rintro ⟨all, h, rfl⟩
    exact .object h

/-- What is found in an arranged object: each member is one of the object itself or a plain further
one, and under a key of the object there is what was there before. -/
theorem Arranges.member?_eq {reserved : List String} {base all : List (String × Json)}
    (h : Arranges reserved base all) :
    ∃ members, PresentsEach base members ∧
      (∀ m ∈ all, m ∈ members ∨ ∃ s, Scalar.IsPlain s ∧ m.2 = .scalar s) ∧
      ∀ name, name ∈ reserved ∨ name ∈ base.map Prod.fst →
        member? name (all.map fun m => (some m.1, m.2)) =
          member? name (members.map fun m => (some m.1, m.2)) := by
  obtain ⟨further, each, keys, plain, order⟩ := h
  refine ⟨_, each, ?_, ?_⟩
  · intro m hm
    rcases List.mem_append.1 (order.subset hm) with hm | hm
    · exact .inl hm
    · obtain ⟨n, hn, rfl⟩ := List.mem_map.1 hm
      exact .inr ⟨n.2, plain n hn, rfl⟩
  · intro name hname
    rw [member?_perm (order.map _), List.map_append]
    apply member?_append
    intro m hm heq
    obtain ⟨n, hn, rfl⟩ := List.mem_map.1 hm
    obtain ⟨f, hf, rfl⟩ := List.mem_map.1 hn
    cases heq
    rcases hname with hname | hname
    · exact (keys f hf).1 hname
    · exact (keys f hf).2 hname

/-- A record is read from its own members. -/
theorem Arranges.fields?_eq {reserved : List String} {base all : List (String × Json)}
    (h : Arranges reserved base all) :
    ∃ members, PresentsEach base members ∧
      ∀ names least, (∀ name ∈ names, name ∈ reserved ∨ name ∈ base.map Prod.fst) →
        fields? names least (ofMembers all) = fields? names least (ofMembers members) := by
  obtain ⟨members, each, _, hmember⟩ := h.member?_eq
  refine ⟨members, each, ?_⟩
  intro names least hnames
  exact fields?_congr (by simp) (by simp) (fun name hname => hmember name (hnames name hname)) least

/-! ## Objects that have all their members -/

/-- Among the members of an object no known key occurs twice, and every required one occurs. -/
structure Complete (known required : List String) (members : List (Option String × Json)) :
    Prop where
  once : ∀ key ∈ known, (valuesOf key members).length ≤ 1
  present : ∀ key ∈ required, valuesOf key members ≠ []

/-- The fields that are read do not occur twice. -/
theorem once_of_fields? {names : List String} {least : Nat}
    {members : List (Option String × Json)} {fields : List (Option Json)}
    (h : fields? names least (.object members) = some fields) :
    ∀ key ∈ names, (valuesOf key members).length ≤ 1 := by
  have hvalues := fields?_object h
  clear h
  induction hvalues with
  | nil => simp
  | cons hvalue _ ih =>
    rw [List.forall_mem_cons, hvalue]
    exact ⟨Option.length_toList_le, ih⟩

/-- If all the fields of an object are read, they are there, and once. -/
theorem complete_of_fields? {names : List String} {least : Nat}
    {members : List (Option String × Json)} {fields : List (Option Json)}
    (h : fields? names least (.object members) = some fields)
    (hfields : fields.all Option.isSome = true) : Complete names names members := by
  refine ⟨once_of_fields? h, ?_⟩
  have hvalues := fields?_object h
  clear h
  induction hvalues with
  | nil => simp
  | cons hvalue _ ih =>
    rw [List.all_cons, Bool.and_eq_true] at hfields
    obtain ⟨v, rfl⟩ := Option.isSome_iff_exists.1 hfields.1
    rw [List.forall_mem_cons, hvalue]
    exact ⟨by simp, ih hfields.2⟩

/-- The member with another key is not one of those that are complete. -/
theorem Complete.of_filter {key : String} {names : List String}
    {members : List (Option String × Json)}
    (h : Complete names names (members.filter (·.1 ≠ some key))) (hkey : key ∉ names) :
    Complete names names members := by
  have hvalues : ∀ name ∈ names,
      valuesOf name (members.filter (·.1 ≠ some key)) = valuesOf name members := by
    intro name hname
    refine valuesOf_filter_ne ?_ members
    rintro rfl
    exact hkey hname
  obtain ⟨once, present⟩ := h
  constructor
  · intro name hname
    rw [← hvalues name hname]
    exact once name hname
  · intro name hname
    rw [← hvalues name hname]
    exact present name hname

end Befunge.Json
