import ChartNormal.Json.Record
import ChartNormal.Proofs.Distinct
import ChartNormal.Proofs.Report

/-!
# Reading the fields of a record

A record is written as its fields, each under a name of its own, and then the free-form members. Where none of these has
the name of a field (`Written`), the fields and the other members read as they were written. A free-form member with the
name of a field that is written makes the field unreadable (`field?_ofFields_twice`).
-/

namespace ChartNormal

/-- A free-form object without members under `names`, and without repeated keys inside its values. -/
def Object.Free (o : Object) (names : List String) : Prop := ∀ e ∈ o.entries, e.1 ∉ names ∧ e.2.distinctKeys = true

theorem Object.Free.contains_eq_false {o : Object} {names : List String} (h : Object.Free o names) {key : String}
    (hkey : key ∈ names) : o.contains key = false := by
  rw [OrderedMap.contains_eq_false_iff]
  intro hmem
  obtain ⟨e, he, rfl⟩ := List.mem_map.1 hmem
  exact (h e he).1 hkey

theorem Object.Free.insert {o : Object} {names : List String} (h : Object.Free o names) {key : String} {j : Json}
    (hkey : key ∉ names) (hj : j.distinctKeys = true) : Object.Free (OrderedMap.insert o key j) names := by
  intro e he
  rcases OrderedMap.mem_insert he with rfl | he
  · exact ⟨hkey, hj⟩
  · exact h e he

theorem Object.Free.restrict {o : Object} {names : List String} (h : Object.Free o names) (keep : String → Bool) :
    Object.Free (OrderedMap.restrict o keep) names :=
  fun e he => h e (OrderedMap.mem_restrict.1 he).1

theorem Object.Free.mono {o : Object} {names names' : List String} (h : Object.Free o names) (hsub : names' ⊆ names) :
    Object.Free o names' :=
  fun e he => ⟨fun hkey => (h e he).1 (hsub hkey), (h e he).2⟩

theorem Object.Free.append {o : Object} {names names' : List String} (h : Object.Free o names)
    (h' : ∀ key ∈ names', o.contains key = false) : Object.Free o (names ++ names') := by
  refine fun e he => ⟨fun hkey => ?_, (h e he).2⟩
  rcases List.mem_append.1 hkey with hkey | hkey
  · exact (h e he).1 hkey
  · exact OrderedMap.contains_eq_false_iff.1 (h' _ hkey) (OrderedMap.mem_keys_of_mem he)

theorem Object.free_empty (names : List String) : Object.Free ∅ names := by
  intro e he
  cases he

/-- A name that is read, written in one of two ways. -/
theorem Json.of_name? {α : Type} {read : String → Option α} {j : Json} {a : α} (h : j.name? read = some a) :
    ∃ s, read s = some a := by
  unfold name? at h
  split at h
  exacts [⟨_, h⟩, ⟨_, h⟩, by cases h]

/-! ### Lists -/

theorem mapM_eq_some_iff {α β : Type} {f : α → Option β} {l : List α} {bs : List β} :
    l.mapM f = some bs ↔ List.Forall₂ (fun a b => f a = some b) l bs := by
  induction l generalizing bs with
  | nil => cases bs <;> simp
  | cons a l ih =>
    rw [List.mapM_cons]
    cases ha : f a with
    | none => cases bs <;> simp [ha]
    | some b =>
      cases hl : l.mapM f with
      | none => cases bs <;> simp [ha, ← ih, hl]
      | some bs' => cases bs <;> simp [ha, ← ih, hl]

namespace Json

variable {α : Type} {read : Json → Option α}

theorem list?_map {l : List α} (write : α → Json) (h : ∀ a ∈ l, read (write a) = some a) :
    list? read (.arr (l.map write)) = some l :=
  mapM_eq_some_iff.2 (List.forall₂_map_left_iff.2 (List.forall₂_same.2 h))

/-- The items that a list was read from. -/
theorem of_list? {j : Json} (hj : j.distinctKeys = true) {l : List α} (h : j.list? read = some l) :
    ∀ a ∈ l, ∃ j' : Json, j'.distinctKeys = true ∧ read j' = some a := by
  intro a ha
  cases j with
  | arr items =>
    obtain ⟨j', hmem, hread⟩ := exists_of_forall₂ (mapM_eq_some_iff.1 h) ha
    exact ⟨j', distinctKeys_arr_iff.1 hj j' hmem, hread⟩
  | _ => cases h

/-- Fields of a closed record have no repeated keys inside, also where they are given as an array. -/
theorem distinctKeys_of_fields? {j : Json} (hj : j.distinctKeys = true) {names : List String} {members : Members}
    (h : j.fields? names = some members) {e : String × Json} (he : e ∈ members) : e.2.distinctKeys = true := by
  cases j with
  | obj members' =>
    obtain rfl := Option.some.inj h
    exact (distinctKeys_obj_iff.1 hj).2 e he
  | arr items =>
    rw [fields?] at h
    split at h
    · obtain rfl := Option.some.inj h
      exact distinctKeys_arr_iff.1 hj e.2 (List.of_mem_zip he).2
    · cases h
  | _ => cases h

end Json

/-! ### Fields -/

namespace Members

variable {α : Type} {members : Members} {key : String} {read : Json → Option α} {j : Json}

/-- Where no key repeats, a field is what a look-up finds. -/
theorem field?_of_nodup (h : (members.map Prod.fst).Nodup) (key : String) :
    field? members key = some (members.lookup key) := by
  rw [field?, OrderedMap.filter_of_nodup h]
  cases members.lookup key <;> rfl

theorem field?_entries (o : Object) (key : String) : field? o.entries key = some (o.get? key) := field?_of_nodup o.nodup key

theorem required?_of_field? (h : field? members key = some (some j)) : required? members key read = read j := by
  rw [required?, h]

theorem optional?_of_missing (h : field? members key = some none) : optional? members key read = some none := by
  rw [optional?, h]

theorem optional?_of_null (h : field? members key = some (some .null)) : optional? members key read = some none := by
  rw [optional?, h]

theorem optional?_of_field? (h : field? members key = some (some j)) (hj : j ≠ .null) :
    optional? members key read = (read j).map some := by
  rw [optional?, h]
  cases j with
  | null => exact absurd rfl hj
  | _ => rfl

theorem default?_of_missing (h : field? members key = some none) (default : α) :
    default? members key default read = some default := by
  rw [default?, h]

theorem default?_of_field? (h : field? members key = some (some j)) (default : α) :
    default? members key default read = read j := by
  rw [default?, h]

/-! ### Look-ups -/

/-- What a look-up says about an optional field: `null` counts as missing. -/
def typed? (read : Json → Option α) : Option Json → Option (Option α)
  | none | some .null => some none
  | some j => (read j).map some

theorem eq_bind_of_typed? (hnull : read .null = none) {j : Option Json} {x : Option α} (h : typed? read j = some x) :
    x = j.bind read := by
  unfold typed? at h
  split at h
  · exact (Option.some.inj h).symm
  · rw [Option.bind_some, hnull]
    exact (Option.some.inj h).symm
  · obtain ⟨a, ha, rfl⟩ := Option.map_eq_some_iff.1 h
    exact ha.symm

section Nodup

variable (h : (members.map Prod.fst).Nodup) (key : String) (read : Json → Option α)

include h

theorem required?_of_nodup : required? members key read = (members.lookup key).bind read := by
  rw [required?, field?_of_nodup h]
  cases members.lookup key <;> rfl

theorem optional?_of_nodup : optional? members key read = typed? read (members.lookup key) := by
  unfold optional?
  rw [field?_of_nodup h]
  cases members.lookup key with
  | none => rfl
  | some j => cases j <;> rfl

theorem default?_of_nodup (default : α) :
    default? members key default read = (members.lookup key).elim (some default) read := by
  rw [default?, field?_of_nodup h]
  cases members.lookup key <;> rfl

end Nodup

/-! ### What a field was read from -/

theorem mem_of_field? (h : field? members key = some (some j)) : (key, j) ∈ members := by
  rw [field?] at h
  split at h
  · cases h
  · next e he =>
    obtain rfl := Option.some.inj (Option.some.inj h)
    have hmem : e ∈ members.filter (·.1 = key) := he ▸ List.mem_singleton_self e
    have hkey : e.1 = key := by simpa using (List.mem_filter.1 hmem).2
    exact hkey ▸ (List.mem_filter.1 hmem).1
  · cases h

theorem lookup_of_field? {v : Option Json} (h : field? members key = some v) : members.lookup key = v := by
  rw [OrderedMap.lookup_eq_head?]
  rw [field?] at h
  split at h
  · next hnil => rw [hnil, ← Option.some.inj h]; rfl
  · next e he => rw [he, ← Option.some.inj h]; rfl
  · cases h

theorem required?_eq_some_iff {a : α} :
    required? members key read = some a ↔ ∃ j, field? members key = some (some j) ∧ read j = some a := by
  constructor
  · intro h
    rw [required?] at h
    split at h
    · next j hj => exact ⟨j, hj, h⟩
    · cases h
  · rintro ⟨j, hj, h⟩
    rw [required?_of_field? hj, h]

theorem optional?_cases {x : Option α} (h : optional? members key read = some x) :
    (x = none ∧ (field? members key = some none ∨ field? members key = some (some .null))) ∨
      ∃ j a, field? members key = some (some j) ∧ j ≠ .null ∧ read j = some a ∧ x = some a := by
  rw [optional?] at h
  split at h
  · cases h
  · next hfield => exact .inl ⟨(Option.some.inj h).symm, .inl hfield⟩
  · next hfield => exact .inl ⟨(Option.some.inj h).symm, .inr hfield⟩
  · next j hnull hfield =>
    obtain ⟨a, ha, rfl⟩ := Option.map_eq_some_iff.1 h
    exact .inr ⟨j, a, hfield, fun hj => hnull (hj ▸ rfl), ha, rfl⟩

theorem default?_cases {default a : α} (h : default? members key default read = some a) :
    (a = default ∧ field? members key = some none) ∨ ∃ j, field? members key = some (some j) ∧ read j = some a := by
  rw [default?] at h
  split at h
  · cases h
  · next hfield => exact .inl ⟨(Option.some.inj h).symm, hfield⟩
  · next j hfield => exact .inr ⟨j, hfield, h⟩

theorem of_required? {a : α} (h : required? members key read = some a) : ∃ j, (key, j) ∈ members ∧ read j = some a := by
  obtain ⟨j, hfield, hread⟩ := required?_eq_some_iff.1 h
  exact ⟨j, mem_of_field? hfield, hread⟩

theorem of_optional? {x : Option α} (h : optional? members key read = some x) :
    ∀ a ∈ x, ∃ j, (key, j) ∈ members ∧ j ≠ .null ∧ read j = some a := by
  rintro a rfl
  rcases optional?_cases h with ⟨hx, -⟩ | ⟨j, b, hfield, hnull, hread, hx⟩
  · cases hx
  · obtain rfl := Option.some.inj hx
    exact ⟨j, mem_of_field? hfield, hnull, hread⟩

theorem of_default? {default a : α} (h : default? members key default read = some a) :
    a = default ∨ ∃ j, (key, j) ∈ members ∧ read j = some a := by
  rcases default?_cases h with ⟨ha, -⟩ | ⟨j, hfield, hread⟩
  · exact .inl ha
  · exact .inr ⟨j, mem_of_field? hfield, hread⟩

/-! ### Written records -/

section Fields

variable {fields : List (String × Option Json)} {rest : Object} {v : Option Json}

theorem filter_fields (hnames : (fields.map Prod.fst).Nodup) (hmem : (key, v) ∈ fields) :
    (fields.filterMap fun e => e.2.map (e.1, ·)).filter (·.1 = key) = v.toList.map (key, ·) := by
  induction fields with
  | nil => cases hmem
  | cons e fields ih =>
    rw [List.map_cons, List.nodup_cons] at hnames
    rcases List.mem_cons.1 hmem with rfl | hmem
    · have hrest : (fields.filterMap fun e => e.2.map (e.1, ·)).filter (·.1 = key) = [] := by
        rw [List.filter_eq_nil_iff]
        intro e he hkey
        obtain ⟨e', he', heq⟩ := List.mem_filterMap.1 he
        obtain ⟨_, -, rfl⟩ := Option.map_eq_some_iff.1 heq
        obtain rfl : e'.1 = key := by simpa using hkey
        exact hnames.1 (List.mem_map.2 ⟨e', he', rfl⟩)
      cases v with
      | none => exact hrest
      | some j => simp [hrest]
    · have hne : e.1 ≠ key := by
        rintro rfl
        exact hnames.1 (List.mem_map.2 ⟨_, hmem, rfl⟩)
      rw [← ih hnames.2 hmem]
      cases hv : e.2 with
      | none => simp [hv]
      | some j => simp [hv, hne]

/-- What stands under the name of a field. -/
theorem filter_ofFields (hnames : (fields.map Prod.fst).Nodup) (hmem : (key, v) ∈ fields) :
    (ofFields fields rest).filter (·.1 = key) = (v.toList ++ (rest.get? key).toList).map (key, ·) := by
  rw [ofFields, List.filter_append, filter_fields hnames hmem, OrderedMap.filter_of_nodup rest.nodup, List.map_append]
  rfl

/-- What stands under any other name. -/
theorem filter_ofFields_rest (hkey : key ∉ fields.map Prod.fst) :
    (ofFields fields rest).filter (·.1 = key) = (rest.get? key).toList.map (key, ·) := by
  have hfields : (fields.filterMap fun e => e.2.map (e.1, ·)).filter (·.1 = key) = [] := by
    rw [List.filter_eq_nil_iff]
    intro e he hek
    obtain ⟨e', he', heq⟩ := List.mem_filterMap.1 he
    obtain ⟨_, -, rfl⟩ := Option.map_eq_some_iff.1 heq
    obtain rfl : e'.1 = key := by simpa using hek
    exact hkey (List.mem_map.2 ⟨e', he', rfl⟩)
  rw [ofFields, List.filter_append, hfields, List.nil_append, OrderedMap.filter_of_nodup rest.nodup]
  rfl

theorem nodup_ofFields (hnames : (fields.map Prod.fst).Nodup) :
    ((ofFields fields ∅).map Prod.fst).Nodup := by
  refine hnames.sublist ?_
  rw [show ofFields fields ∅ = fields.filterMap fun e => e.2.map (e.1, ·) from List.append_nil _]
  clear hnames
  induction fields with
  | nil => exact .slnil
  | cons e fields ih =>
    cases he : e.2 with
    | none => simpa [he] using ih.trans (List.sublist_cons_self _ _)
    | some v => simpa [he] using ih

theorem field?_ofFields (hnames : (fields.map Prod.fst).Nodup) (hmem : (key, v) ∈ fields)
    (hrest : rest.contains key = false) : field? (ofFields fields rest) key = some v := by
  have hnone : rest.get? key = none := by
    rwa [OrderedMap.contains, Option.isSome_eq_false_iff, Option.isNone_iff_eq_none] at hrest
  rw [field?, filter_ofFields hnames hmem, hnone]
  cases v <;> rfl

theorem field?_ofFields_twice (hnames : (fields.map Prod.fst).Nodup) (hmem : (key, some j) ∈ fields)
    (hrest : rest.contains key = true) : field? (ofFields fields rest) key = none := by
  obtain ⟨j', hj'⟩ := Option.isSome_iff_exists.1 hrest
  rw [field?, filter_ofFields hnames hmem, hj']
  rfl

theorem field?_ofFields_rest (hkey : key ∉ fields.map Prod.fst) :
    field? (ofFields fields rest) key = some (rest.get? key) := by
  rw [field?, filter_ofFields_rest hkey]
  cases rest.get? key <;> rfl

/-- A record as it is written, in which no free-form member has the name of a field. -/
structure Written (members : Members) (fields : List (String × Option Json)) (rest : Object) : Prop where
  eq : members = ofFields fields rest
  names : (fields.map Prod.fst).Nodup
  free : Object.Free rest (fields.map Prod.fst)

namespace Written

variable (h : Written members fields rest)

include h

theorem field? (hmem : (key, v) ∈ fields) : members.field? key = some v := by
  rw [h.eq]
  exact field?_ofFields h.names hmem (h.free.contains_eq_false (List.mem_map.2 ⟨_, hmem, rfl⟩))

theorem required? (hmem : (key, some j) ∈ fields) : members.required? key read = read j :=
  required?_of_field? (h.field? hmem)

theorem default? (hmem : (key, some j) ∈ fields) (default : α) : members.default? key default read = read j :=
  default?_of_field? (h.field? hmem) default

/-- A field that may be missing reads as it is written. -/
theorem optional? {x : Option α} (write : α → Json) (hmem : (key, x.map write) ∈ fields)
    (hread : ∀ a ∈ x, read (write a) = some a) (hnull : ∀ a ∈ x, write a ≠ .null) :
    members.optional? key read = some x := by
  have hfield := h.field? hmem
  cases x with
  | none => exact optional?_of_missing hfield
  | some a => rw [optional?_of_field? hfield (hnull a rfl), hread a rfl, Option.map_some]

theorem nodup : (members.map Prod.fst).Nodup := by
  have hfields : ((ofFields fields ∅).map Prod.fst).Nodup := nodup_ofFields h.names
  rw [show ofFields fields ∅ = fields.filterMap fun e => e.2.map (e.1, ·) from List.append_nil _] at hfields
  rw [h.eq, ofFields, List.map_append]
  refine List.nodup_append.2 ⟨hfields, rest.nodup, fun key hkey key' hkey' heq => ?_⟩
  obtain ⟨e, he, rfl⟩ := List.mem_map.1 hkey
  obtain ⟨e', he', rfl⟩ := List.mem_map.1 hkey'
  obtain ⟨e₀, he₀, hwritten⟩ := List.mem_filterMap.1 he
  obtain ⟨_, -, rfl⟩ := Option.map_eq_some_iff.1 hwritten
  exact (h.free e' he').1 (heq ▸ List.mem_map.2 ⟨e₀, he₀, rfl⟩)

/-- The free-form members are those that are no fields. -/
theorem others : members.others (fields.map Prod.fst) = rest := by
  have hfields : (fields.filterMap fun e => e.2.map (e.1, ·)).filter (fun e => e.1 ∉ fields.map Prod.fst) = [] := by
    rw [List.filter_eq_nil_iff]
    intro e he
    obtain ⟨e', he', heq⟩ := List.mem_filterMap.1 he
    obtain ⟨_, -, rfl⟩ := Option.map_eq_some_iff.1 heq
    simpa using ⟨e'.2, he'⟩
  have hrest : rest.entries.filter (fun e => e.1 ∉ fields.map Prod.fst) = rest.entries :=
    List.filter_eq_self.2 fun e he => by simpa using (h.free e he).1
  have hsettle : (rest.entries.map fun e => (e.1, e.2.settle)) = rest.entries :=
    Json.map_settle fun e he => Json.settle_eq_self (h.free e he).2
  refine OrderedMap.ext ?_
  rw [h.eq, Members.others, ofFields, List.filter_append, hfields, hrest, List.nil_append, hsettle,
    OrderedMap.entries_ofList rest.nodup]

end Written

end Fields

/-! ### Free-form members -/

theorem free_others (members : Members) (known : List String) : Object.Free (others members known) known := by
  intro e he
  obtain ⟨e, hmem, rfl⟩ := List.mem_map.1 (OrderedMap.mem_ofList he)
  exact ⟨by simpa using (List.mem_filter.1 hmem).2, Json.distinctKeys_settle e.2⟩

theorem isEmpty_others_nil (members : Members) : (others members []).isEmpty = members.isEmpty := by
  rw [others, OrderedMap.isEmpty_ofList, List.isEmpty_map]
  simp

/-- Where no key repeats, the free-form members are what was given. -/
theorem entries_others {known : List String} (h : (Json.obj members).distinctKeys = true) :
    (others members known).entries = members.filter fun e => e.1 ∉ known := by
  obtain ⟨hkeys, hvalues⟩ := Json.distinctKeys_obj_iff.1 h
  have hsettle : ((members.filter fun e => e.1 ∉ known).map fun e => (e.1, e.2.settle)) =
      members.filter fun e => e.1 ∉ known :=
    Json.map_settle fun e he => Json.settle_eq_self (hvalues e (List.mem_filter.1 he).1)
  rw [others, hsettle, OrderedMap.entries_ofList (hkeys.sublist (List.filter_sublist.map _))]

/-- Of an object whose keys do not repeat only what is inside the values is settled. -/
theorem others_entries (o : Object) (known : List String) :
    others o.entries known = (OrderedMap.restrict o (· ∉ known)).mapValues fun _ => Json.settle := by
  refine OrderedMap.ext (OrderedMap.entries_ofList ?_)
  exact ((OrderedMap.restrict o (· ∉ known)).mapValues fun _ => Json.settle).nodup

theorem get?_others {known : List String} (h : (Json.obj members).distinctKeys = true) (hkey : key ∉ known) :
    (others members known).get? key = members.lookup key := by
  ext j
  rw [OrderedMap.get?_eq_some_iff, entries_others h, List.mem_filter,
    OrderedMap.lookup_eq_some_iff (Json.distinctKeys_obj_iff.1 h).1]
  simp [hkey]

end Members

end ChartNormal
