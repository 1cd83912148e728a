import ChartNormal.Proofs.Readback.RoundTrip
import Mathlib.Data.List.Perm.Basic

/-!
# Stages that are written as they were given

Every object reads as some stage. One that reads as none of the known kinds is kept whole. A stage of a known kind keeps
what its kind has a field for, and other members are lost, also inside its records (`Transform.verbatim_iff_plain`).
-/

namespace ChartNormal

namespace Json

variable {members : Members} {key : String}

theorem get?_settle (members : Members) (key : String) :
    (Json.obj members).settle.get? key = (members.filter (·.1 = key)).getLast?.map fun e => e.2.settle := by
  change (OrderedMap.ofList (settleMembers members)).get? key = _
  rw [OrderedMap.get?_ofList, settleMembers_eq, List.filter_map, List.getLast?_map, Option.map_map]
  rfl

/-- A field that is given once is settled by itself. -/
theorem get?_settle_of_field? {v : Option Json} (h : members.field? key = some v) :
    (Json.obj members).settle.get? key = v.map settle := by
  rw [get?_settle]
  rw [Members.field?] at h
  split at h
  · next hnil => rw [hnil, ← Option.some.inj h]; rfl
  · next e he => rw [he, ← Option.some.inj h]; rfl
  · cases h

theorem isSome_get?_settle : ((Json.obj members).settle.get? key).isSome = true ↔ key ∈ members.map Prod.fst := by
  rw [get?_settle, Option.isSome_map, List.getLast?_isSome]
  constructor
  · intro h
    obtain ⟨e, he⟩ := List.exists_mem_of_ne_nil _ h
    obtain ⟨hmem, hkey⟩ := List.mem_filter.1 he
    exact List.mem_map.2 ⟨e, hmem, by simpa using hkey⟩
  · intro h
    obtain ⟨e, he, rfl⟩ := List.mem_map.1 h
    exact List.ne_nil_of_mem (List.mem_filter.2 ⟨he, by simp⟩)

theorem get?_record {fields : List (String × Option Json)} (hnames : (fields.map Prod.fst).Nodup) {v : Option Json}
    (hmem : (key, v) ∈ fields) : (record fields).get? key = v :=
  Members.lookup_of_field? (Members.field?_ofFields hnames hmem rfl)

theorem get?_record_of_notMem {fields : List (String × Option Json)} (hkey : key ∉ fields.map Prod.fst) :
    (record fields).get? key = none :=
  Members.lookup_of_field? (Members.field?_ofFields_rest hkey)

/-! ### Closed records -/

/-- An object that has no members but these. -/
def OnlyHas (names : List String) (j : Json) : Prop := ∃ members, j = .obj members ∧ ∀ e ∈ members, e.1 ∈ names

/-- What becomes of the members of an object can be said field by field, if others do not get lost. -/
theorem forall_record_iff {R : String → Option Json → Option Json → Prop} {members : Members}
    {fields : List (String × Option Json)} (hnames : (fields.map Prod.fst).Nodup) (hmissing : ∀ key, R key none none)
    (hlost : ∀ key v, R key (some v) none → key ∈ fields.map Prod.fst) :
    (∀ key, R key ((Json.obj members).settle.get? key) ((record fields).get? key)) ↔
      (Json.obj members).OnlyHas (fields.map Prod.fst) ∧
        ∀ e ∈ fields, R e.1 ((Json.obj members).settle.get? e.1) e.2 := by
  constructor
  · intro h
    refine ⟨⟨members, rfl, fun e he => ?_⟩, fun e he => get?_record hnames he ▸ h e.1⟩
    by_contra hkey
    obtain ⟨v, hv⟩ := Option.isSome_iff_exists.1 (isSome_get?_settle.2 (List.mem_map.2 ⟨e, he, rfl⟩))
    have hR := h e.1
    rw [hv, get?_record_of_notMem hkey] at hR
    exact hkey (hlost _ _ hR)
  · rintro ⟨⟨members', hmembers, honly⟩, h⟩ key
    obtain rfl := Json.obj.inj hmembers
    by_cases hkey : key ∈ fields.map Prod.fst
    · obtain ⟨e, he, rfl⟩ := List.mem_map.1 hkey
      rw [get?_record hnames he]
      exact h e he
    · have hnone : (Json.obj members).settle.get? key = none := by
        rw [← Option.not_isSome_iff_eq_none, isSome_get?_settle]
        intro hmem
        obtain ⟨e, he, rfl⟩ := List.mem_map.1 hmem
        exact hkey (honly e he)
      rw [hnone, get?_record_of_notMem hkey]
      exact hmissing key

/-! ### Equality of objects -/

theorem sameOption_eq_none {x y : Option Json} (h : sameOption same x y = true) : x = none ↔ y = none := by
  cases x <;> cases y <;> simp_all [sameOption]

/-- Objects are equal if a look-up of any key finds equal values, or none, in both. -/
theorem same_obj_iff {a b : Members} (ha : (a.map Prod.fst).Nodup) (hb : (b.map Prod.fst).Nodup) :
    (Json.obj a).same (.obj b) = true ↔ ∀ key, sameOption same (a.lookup key) (b.lookup key) = true := by
  rw [same, Bool.and_eq_true, decide_eq_true_eq, sameMembers_iff]
  constructor
  · rintro ⟨hlength, hmem⟩ key
    cases hkey : a.lookup key with
    | some v =>
      obtain ⟨w, hw, hsame⟩ := hmem _ ((OrderedMap.lookup_eq_some_iff ha).1 hkey)
      rw [hw]
      exact hsame
    | none =>
      -- as many keys, and all of them there: the keys are the same
      have hsubset : a.map Prod.fst ⊆ b.map Prod.fst := by
        intro k hk
        obtain ⟨e, he, rfl⟩ := List.mem_map.1 hk
        obtain ⟨w, hw, -⟩ := hmem e he
        exact List.mem_map.2 ⟨_, (OrderedMap.lookup_eq_some_iff hb).1 hw, rfl⟩
      have hperm := (List.subperm_of_subset ha hsubset).perm_of_length_le (by simp [hlength])
      rw [OrderedMap.lookup_eq_none_iff, hperm.mem_iff, ← OrderedMap.lookup_eq_none_iff] at hkey
      rw [hkey]
      rfl
  · intro h
    have hperm : (a.map Prod.fst).Perm (b.map Prod.fst) := by
      refine (List.perm_ext_iff_of_nodup ha hb).2 fun key => not_iff_not.1 ?_
      rw [← OrderedMap.lookup_eq_none_iff, ← OrderedMap.lookup_eq_none_iff]
      exact sameOption_eq_none (h key)
    refine ⟨by simpa using hperm.length_eq, fun e he => ?_⟩
    have hkey := h e.1
    rw [(OrderedMap.lookup_eq_some_iff ha).2 he] at hkey
    cases hw : b.lookup e.1 with
    | none => rw [hw] at hkey; cases hkey
    | some w => exact ⟨w, rfl, by rwa [hw] at hkey⟩

/-- A record is equal to the object that was given if each key has the same value in both. -/
theorem same_record_iff {fields : List (String × Option Json)} (hnames : (fields.map Prod.fst).Nodup) :
    (Json.obj members).settle.same (record fields) = true ↔
      ∀ key, sameOption same ((Json.obj members).settle.get? key) ((record fields).get? key) = true :=
  same_obj_iff (OrderedMap.nodup _) (Members.nodup_ofFields hnames)

/-! ### Values that are read and written -/

theorem ofObject_others (members : Members) : Json.ofObject (Members.others members []) = (Json.obj members).settle := by
  rw [settle, settleMembers_eq, ofObject, Members.others, List.filter_eq_self.2 (by simp)]

theorem eq_str_of_string? {v : Json} {s : String} (h : v.string? = some s) : v = .str s := by
  cases v with
  | str t => exact congrArg Json.str (Option.some.inj h)
  | _ => cases h

theorem eq_strings_of_list? {v : Json} {l : List String} (h : v.list? string? = some l) : v = strings l := by
  cases v with
  | arr items =>
    have hitems : List.Forall₂ (fun j s => j = Json.str s) items l := (mapM_eq_some_iff.1 h).imp fun _ _ => eq_str_of_string?
    rw [← List.forall₂_map_right_iff, List.forall₂_eq_eq_eq] at hitems
    rw [strings, hitems]
  | _ => cases h

theorem distinctKeys_strings (l : List String) : (strings l).distinctKeys = true := by
  rw [strings, distinctKeys_arr_iff]
  intro j hj
  obtain ⟨s, -, rfl⟩ := List.mem_map.1 hj
  rfl

theorem get?_settle_string {s : String} (h : members.required? key string? = some s) :
    (Json.obj members).settle.get? key = some (.str s) := by
  obtain ⟨v, hv, hs⟩ := Members.required?_eq_some_iff.1 h
  rw [get?_settle_of_field? hv, eq_str_of_string? hs]
  rfl

theorem get?_settle_strings {v : Json} {l : List String} (hv : members.field? key = some (some v))
    (h : v.list? string? = some l) : (Json.obj members).settle.get? key = some (.strings l) := by
  rw [get?_settle_of_field? hv, eq_strings_of_list? h, Option.map_some, settle_eq_self (distinctKeys_strings l)]

/-- A name stays what it is if it is written as a string. -/
theorem name_same_iff {α : Type} {read : String → Option α} {name : α → String} {v : Json} {a : α}
    (h : v.name? read = some a) (hname : ∀ s, read s = some a → name a = s) :
    v.settle.same (.str (name a)) = true ↔ ∃ s, v = .str s := by
  unfold name? at h
  split at h
  · next s => simp [settle, same, hname s h]
  · simp [settle, same]
  · cases h

end Json

theorem Bin.same_toJson_iff {v : Json} {b : Bin} (h : ofJson? v = some b) :
    v.settle.same b.toJson = true ↔ v ≠ .obj [("binned", .null)] := by
  rcases Option.or_eq_some_iff.1 h with hflag | ⟨-, h⟩
  · obtain ⟨on, hon, rfl⟩ := Option.map_eq_some_iff.1 hflag
    cases v with
    | bool on' =>
      obtain rfl := Option.some.inj hon
      simp [Json.settle, toJson, Json.same]
    | _ => cases hon
  rcases Option.or_eq_some_iff.1 h with hname | ⟨hname, hparams⟩
  · unfold Json.name? at hname
    split at hname
    · next s =>
      rw [Option.ite_none_right_eq_some] at hname
      obtain ⟨rfl, hb⟩ := hname
      obtain rfl := Option.some.inj hb
      simp [Json.settle, toJson, Json.same]
    · next s =>
      rw [Option.ite_none_right_eq_some] at hname
      obtain ⟨rfl, hb⟩ := hname
      obtain rfl := Option.some.inj hb
      simp [Json.settle, toJson, Json.same]
    · cases hname
  · obtain ⟨p, hp, rfl⟩ := Option.map_eq_some_iff.1 hparams
    cases v with
    | obj members =>
      obtain rfl := Option.some.inj hp
      rw [toJson, Json.ofObject_others, Json.same_self (Json.distinctKeys_settle _)]
      refine ⟨fun _ hv => ?_, fun _ => rfl⟩
      rw [hv] at hname
      cases hname
    | _ => cases hp

namespace Transform

/-! ### What is kept -/

/-- The keys of a stage that may have null for a value. -/
def optionalKeys : Transform → List String
  | stack .. => ["offset"]
  | impute .. => ["value"]
  | _ => []

/-- The value under a key stays the same, or is null and left out. -/
def KeepsValue (optional : List String) (key : String) (v w : Option Json) : Prop :=
  sameOption Json.same v w = true ∨ key ∈ optional ∧ v = some .null ∧ w = none

/-- The members of a column of an aggregate stage are kept, but for null under `field`. -/
def KeepsColumn (given written : Json) : Prop := ∀ key, KeepsValue ["field"] key (given.get? key) (written.get? key)

/-- What may become of the value under a key: it is kept, or its columns are, or it is an empty list of groups, which an
aggregate stage always has and an impute stage never. -/
inductive Keeps (t : Transform) (key : String) : Option Json → Option Json → Prop
  | value {v w : Option Json} (h : KeepsValue t.optionalKeys key v w) : Keeps t key v w
  | columns {columns : List AggregateColumn} {groupby : List String} (ht : t = .aggregate columns groupby)
      (hkey : key = "aggregate") {items items' : List Json} (h : List.Forall₂ KeepsColumn items items') :
    Keeps t key (some (.arr items)) (some (.arr items'))
  | grouped {columns : List AggregateColumn} {groupby : List String} (ht : t = .aggregate columns groupby)
      (hkey : key = "groupby") : Keeps t key none (some (.arr []))
  | ungrouped {field k : String} {groupby : List String} {value : Option Json} (ht : t = .impute field k groupby value)
      (hkey : key = "groupby") : Keeps t key (some (.arr [])) none

/-- The stage is written with the keys and values that it was given. -/
def Verbatim (t : Transform) (given : Json) : Prop := ∀ key, t.Keeps key (given.get? key) (t.toJson.get? key)

/-- What was read as `t` has no other members than `t` has fields, its records are objects of which the same holds, and
names are written as strings. -/
def Plain (j : Json) : Transform → Prop
  | bin _ => j.OnlyHas ["bin", "field", "as"] ∧ j.get? "bin" ≠ some (.obj [("binned", .null)])
  | timeUnit _ => j.OnlyHas ["timeUnit", "field", "as"]
  | aggregate .. => j.OnlyHas ["aggregate", "groupby"] ∧
    ∀ items, j.get? "aggregate" = some (.arr items) →
      ∀ c ∈ items, c.OnlyHas ["op", "field", "as"] ∧ ∃ op, c.get? "op" = some (.str op)
  | calculate _ => j.OnlyHas ["calculate", "as"]
  | stack .. => j.OnlyHas ["groupby", "field", "sortby", "output", "offset"] ∧
    (∀ output, j.get? "output" = some output → output.OnlyHas ["start", "end"]) ∧
    ∀ offset, j.get? "offset" = some offset → offset = .null ∨ ∃ s, offset = .str s
  | impute .. => j.OnlyHas ["impute", "key", "groupby", "value"]
  | other _ => True

theorem keepsValue_some_iff {optional : List String} {key : String} {v w : Json} :
    KeepsValue optional key (some v) (some w) ↔ v.same w = true := by
  simp [KeepsValue, sameOption]

/-- An optional field is kept if what is written for a value is the value that was read. -/
theorem keepsValue_of_optional? {α : Type} {members : Members} {optional : List String} {key : String}
    {read : Json → Option α} {write : α → Json} {x : Option α} (hkey : key ∈ optional)
    (h : members.optional? key read = some x) (hwrite : ∀ v a, read v = some a → v.settle.same (write a) = true) :
    KeepsValue optional key ((Json.obj members).settle.get? key) (x.map write) := by
  rcases Members.optional?_cases h with ⟨rfl, hmissing | hnull⟩ | ⟨v, a, hv, -, ha, rfl⟩
  · rw [Json.get?_settle_of_field? hmissing]
    exact .inl rfl
  · rw [Json.get?_settle_of_field? hnull]
    exact .inr ⟨hkey, rfl, rfl⟩
  · rw [Json.get?_settle_of_field? hv]
    exact keepsValue_some_iff.2 (hwrite v a ha)

theorem keeps_of_same {t : Transform} {key : String} {v w : Option Json} (h : sameOption Json.same v w = true) :
    t.Keeps key v w :=
  .value (.inl h)

theorem keeps_str (t : Transform) (key s : String) : t.Keeps key (some (.str s)) (some (.str s)) :=
  keeps_of_same (by simp [sameOption, Json.same])

theorem keeps_strings (t : Transform) (key : String) (l : List String) :
    t.Keeps key (some (.strings l)) (some (.strings l)) :=
  keeps_of_same (Json.same_self (Json.distinctKeys_strings l))

/-- A value that is written is the same, or a list of columns. -/
theorem Keeps.written {t : Transform} {key : String} {v w : Json} (h : t.Keeps key (some v) (some w)) :
    v.same w = true ∨
      key = "aggregate" ∧ ∃ items items', v = .arr items ∧ w = .arr items' ∧ List.Forall₂ KeepsColumn items items' := by
  cases h with
  | value h => exact .inl (keepsValue_some_iff.1 h)
  | columns _ hkey h => exact .inr ⟨hkey, _, _, rfl, rfl, h⟩

theorem keeps_some_iff {t : Transform} {key : String} {v w : Json} (h : key ≠ "aggregate") :
    t.Keeps key (some v) (some w) ↔ v.same w = true :=
  ⟨fun hkeeps => hkeeps.written.resolve_right fun hcolumns => h hcolumns.1, fun hsame => keeps_of_same hsame⟩

/-- A key may get lost only if it is optional, or the groups of an impute stage. -/
theorem Keeps.lost {t : Transform} {key : String} {v : Json} (h : t.Keeps key (some v) none) :
    key ∈ t.optionalKeys ∨ key = "groupby" ∧ ∃ field k groupby value, t = .impute field k groupby value := by
  cases h with
  | value h =>
    rcases h with hsame | ⟨hkey, -⟩
    · cases hsame
    · exact .inl hkey
  | ungrouped ht hkey => exact .inr ⟨hkey, _, _, _, _, ht⟩

/-! ### Kinds of stages -/

section Kinds

variable {members : Members}

/-- A stage with fields is kept if it has no other members, and if each field is kept. -/
theorem verbatim_iff_fields {t : Transform} {fields : List (String × Option Json)} (ht : t.toJson = .record fields)
    (hnames : (fields.map Prod.fst).Nodup) (hoptional : ∀ key ∈ t.optionalKeys, key ∈ fields.map Prod.fst)
    (hgroupby : ∀ field key groupby value, t = .impute field key groupby value → "groupby" ∈ fields.map Prod.fst) :
    t.Verbatim (Json.obj members).settle ↔
      (Json.obj members).OnlyHas (fields.map Prod.fst) ∧
        ∀ e ∈ fields, t.Keeps e.1 ((Json.obj members).settle.get? e.1) e.2 := by
  rw [Verbatim, ht]
  refine Json.forall_record_iff hnames (fun _ => keeps_of_same rfl) fun key v hlost => ?_
  rcases hlost.lost with hkey | ⟨rfl, _, _, _, _, himpute⟩
  · exact hoptional key hkey
  · exact hgroupby _ _ _ _ himpute

theorem verbatim_bin_iff {s : BinStage} (h : BinStage.ofJson? (.obj members) = some s) :
    (bin s).Verbatim (Json.obj members).settle ↔ (bin s).Plain (.obj members) := by
  simp only [BinStage.ofJson?, Json.fields?, Option.bind_eq_bind, Option.bind_some, Option.bind_eq_some_iff,
    Option.some.injEq] at h
  obtain ⟨b, hbin, field, hfield, as, has, rfl⟩ := h
  obtain ⟨v, hv, hb⟩ := Members.required?_eq_some_iff.1 hbin
  refine (verbatim_iff_fields rfl (by simp) (by simp [optionalKeys]) (by simp)).trans (and_congr Iff.rfl ?_)
  rw [List.forall_mem_cons, List.forall_mem_cons, List.forall_mem_singleton, Json.get?_settle_of_field? hv,
    Json.get?_settle_string hfield, Json.get?_settle_string has, and_iff_left ⟨keeps_str .., keeps_str ..⟩]
  change Keeps _ "bin" (some v.settle) (some b.toJson) ↔ members.lookup "bin" ≠ _
  rw [keeps_some_iff (by decide), Bin.same_toJson_iff hb, Members.lookup_of_field? hv, ne_eq, ne_eq, Option.some.injEq]

theorem verbatim_timeUnit_iff {s : TimeUnitStage} (h : TimeUnitStage.ofJson? (.obj members) = some s) :
    (timeUnit s).Verbatim (Json.obj members).settle ↔ (timeUnit s).Plain (.obj members) := by
  simp only [TimeUnitStage.ofJson?, Json.fields?, Option.bind_eq_bind, Option.bind_some, Option.bind_eq_some_iff,
    Option.some.injEq] at h
  obtain ⟨unit, hunit, field, hfield, as, has, rfl⟩ := h
  refine (verbatim_iff_fields rfl (by simp) (by simp [optionalKeys]) (by simp)).trans (and_iff_left ?_)
  rw [List.forall_mem_cons, List.forall_mem_cons, List.forall_mem_singleton, Json.get?_settle_string hunit,
    Json.get?_settle_string hfield, Json.get?_settle_string has]
  exact ⟨keeps_str .., keeps_str .., keeps_str ..⟩

theorem verbatim_calculate_iff {s : CalculateStage} (h : CalculateStage.ofJson? (.obj members) = some s) :
    (calculate s).Verbatim (Json.obj members).settle ↔ (calculate s).Plain (.obj members) := by
  simp only [CalculateStage.ofJson?, Json.fields?, Option.bind_eq_bind, Option.bind_some, Option.bind_eq_some_iff,
    Option.some.injEq] at h
  obtain ⟨expression, hexpression, as, has, rfl⟩ := h
  refine (verbatim_iff_fields rfl (by simp) (by simp [optionalKeys]) (by simp)).trans (and_iff_left ?_)
  rw [List.forall_mem_cons, List.forall_mem_singleton, Json.get?_settle_string hexpression, Json.get?_settle_string has]
  exact ⟨keeps_str .., keeps_str ..⟩

theorem bounds_same_iff {v : Json} {start stop : String} (h : bounds? v = some (start, stop)) :
    v.settle.same (.record [("start", some (.str start)), ("end", some (.str stop))]) = true ↔
      v.OnlyHas ["start", "end"] := by
  cases v with
  | obj members =>
    simp only [bounds?, Json.fields?, Option.bind_eq_bind, Option.bind_some, Option.bind_eq_some_iff, Option.some.injEq,
      Prod.mk.injEq] at h
    obtain ⟨_, hstart, _, hstop, rfl, rfl⟩ := h
    refine (Json.same_record_iff (by simp)).trans
      ((Json.forall_record_iff (R := fun _ v w => sameOption Json.same v w = true) (by simp) (fun _ => rfl)
        (fun _ _ hlost => absurd hlost Bool.false_ne_true)).trans (and_iff_left ?_))
    rw [List.forall_mem_cons, List.forall_mem_singleton, Json.get?_settle_string hstart, Json.get?_settle_string hstop]
    simp [sameOption, Json.same]
  | arr items => simp [Json.settle, Json.same, Json.record, Json.OnlyHas]
  | _ => cases h

/-- A stack stage has an offset that is missing, or null, or a name. -/
theorem keeps_offset_iff {t : Transform} (ht : "offset" ∈ t.optionalKeys) {offset : Option StackOffset}
    (h : members.optional? "offset" (Json.name? StackOffset.ofName?) = some offset) :
    t.Keeps "offset" ((Json.obj members).settle.get? "offset") (offset.map fun o => .str o.name) ↔
      ∀ v, members.lookup "offset" = some v → v = .null ∨ ∃ s, v = .str s := by
  rcases Members.optional?_cases h with ⟨rfl, hfield | hfield⟩ | ⟨v, o, hfield, hnull, ho, rfl⟩
  · rw [Json.get?_settle_of_field? hfield, Members.lookup_of_field? hfield]
    exact iff_of_true (keeps_of_same rfl) (by simp)
  · rw [Json.get?_settle_of_field? hfield, Members.lookup_of_field? hfield]
    exact iff_of_true (.value (.inr ⟨ht, rfl, rfl⟩)) (by simp)
  · rw [Json.get?_settle_of_field? hfield, Members.lookup_of_field? hfield]
    have hname : ∀ s, StackOffset.ofName? s = some o → o.name = s := fun s hs => by simpa using List.find?_some hs
    change t.Keeps "offset" (some v.settle) (some (.str o.name)) ↔ _
    rw [keeps_some_iff (by decide), Json.name_same_iff ho hname]
    simp only [Option.some.injEq, forall_eq', hnull, false_or]

theorem verbatim_stack_iff {t : Transform} (h : stack? (.obj members) = some t) :
    t.Verbatim (Json.obj members).settle ↔ t.Plain (.obj members) := by
  simp only [stack?, Json.fields?, Option.bind_eq_bind, Option.bind_some, Option.bind_eq_some_iff,
    Option.some.injEq] at h
  obtain ⟨groupby, hgroupby, field, hfield, sortby, hsortby, ⟨start, stop⟩, houtput, offset, hoffset, rfl⟩ := h
  obtain ⟨g, hg, hgroupby⟩ := Members.required?_eq_some_iff.1 hgroupby
  obtain ⟨l, hl, hsortby⟩ := Members.required?_eq_some_iff.1 hsortby
  obtain ⟨o, ho, houtput⟩ := Members.required?_eq_some_iff.1 houtput
  refine (verbatim_iff_fields rfl (by simp) (by simp [optionalKeys]) (by simp)).trans (and_congr Iff.rfl ?_)
  rw [List.forall_mem_cons, List.forall_mem_cons, List.forall_mem_cons, List.forall_mem_cons, List.forall_mem_singleton,
    Json.get?_settle_strings hg hgroupby, Json.get?_settle_string hfield, Json.get?_settle_strings hl hsortby,
    Json.get?_settle_of_field? ho, and_iff_right (keeps_strings ..), and_iff_right (keeps_str ..),
    and_iff_right (keeps_strings ..)]
  refine and_congr ?_ (keeps_offset_iff List.mem_cons_self hoffset)
  change Keeps _ "output" (some o.settle) _ ↔ ∀ output, members.lookup "output" = some output → _
  rw [keeps_some_iff (by decide), bounds_same_iff houtput, Members.lookup_of_field? ho]
  simp

theorem keepsColumn_iff {c : Json} {column : AggregateColumn} (h : AggregateColumn.ofJson? c = some column) :
    KeepsColumn c.settle column.toJson ↔ c.OnlyHas ["op", "field", "as"] ∧ ∃ op, c.get? "op" = some (.str op) := by
  cases c with
  | obj members =>
    simp only [AggregateColumn.ofJson?, Json.fields?, Option.bind_eq_bind, Option.bind_some, Option.bind_eq_some_iff,
      Option.some.injEq] at h
    obtain ⟨op, hop, field, hfield, as, has, rfl⟩ := h
    obtain ⟨v, hv, hop⟩ := Members.required?_eq_some_iff.1 hop
    refine (Json.forall_record_iff (R := KeepsValue ["field"]) (by simp) (fun _ => .inl rfl) (fun key v hlost => ?_)).trans
      (and_congr Iff.rfl ?_)
    · rcases hlost with hsame | ⟨hkey, -⟩
      · cases hsame
      · simp [List.mem_singleton.1 hkey]
    · have hname : ∀ s, AggregateOp.ofName? s = some op → op.name = s := fun s hs => by simpa using List.find?_some hs
      have hstr : ∀ v s, Json.string? v = some s → v.settle.same (.str s) = true := by
        intro v s hs
        rw [Json.eq_str_of_string? hs]
        simp [Json.settle, Json.same]
      rw [List.forall_mem_cons, List.forall_mem_cons, List.forall_mem_singleton,
        and_iff_right (keepsValue_of_optional? List.mem_cons_self hfield hstr), Json.get?_settle_string has,
        and_iff_left (keepsValue_some_iff.2 (by simp [Json.same])), Json.get?_settle_of_field? hv]
      change KeepsValue _ "op" (some v.settle) (some (.str op.name)) ↔ ∃ op, members.lookup "op" = _
      rw [keepsValue_some_iff, Json.name_same_iff hop hname, Members.lookup_of_field? hv]
      simp
  | arr items =>
    refine iff_of_false (fun hkeeps => ?_) (fun hplain => ?_)
    · rcases hkeeps "op" with hsame | ⟨hkey, -⟩
      · cases hsame
      · exact absurd hkey (by decide)
    · obtain ⟨⟨_, hmembers, -⟩, -⟩ := hplain
      cases hmembers
  | _ => cases h

theorem keepsColumn_of_same {c : Json} {column : AggregateColumn} (h : c.settle.same column.toJson = true) :
    KeepsColumn c.settle column.toJson := by
  cases c with
  | obj members => exact fun key => .inl ((Json.same_record_iff (by simp)).1 h key)
  | num n => cases n <;> cases h
  | _ => cases h

theorem forall₂_keepsColumn_iff {items : List Json} {columns : List AggregateColumn}
    (h : List.Forall₂ (fun c column => AggregateColumn.ofJson? c = some column) items columns) :
    List.Forall₂ KeepsColumn (items.map Json.settle) (columns.map AggregateColumn.toJson) ↔
      ∀ c ∈ items, c.OnlyHas ["op", "field", "as"] ∧ ∃ op, c.get? "op" = some (.str op) := by
  induction h with
  | nil => simp
  | cons hc _ ih => rw [List.map_cons, List.map_cons, List.forall₂_cons, keepsColumn_iff hc, ih, List.forall_mem_cons]

theorem keeps_columns_iff {v : Json} {columns : List AggregateColumn} {groupby : List String}
    (h : v.list? AggregateColumn.ofJson? = some columns) :
    (aggregate columns groupby).Keeps "aggregate" (some v.settle) (some (.arr (columns.map AggregateColumn.toJson))) ↔
      ∀ items, v = .arr items → ∀ c ∈ items, c.OnlyHas ["op", "field", "as"] ∧ ∃ op, c.get? "op" = some (.str op) := by
  cases v with
  | arr items =>
    have hread := mapM_eq_some_iff.1 h
    rw [Json.settle, Json.settleItems_eq]
    simp only [Json.arr.injEq, forall_eq']
    rw [← forall₂_keepsColumn_iff hread]
    refine ⟨fun hkeeps => ?_, .columns rfl rfl⟩
    rcases hkeeps.written with hsame | ⟨-, _, _, hitems, hcolumns, hkept⟩
    · refine List.forall₂_map_left_iff.2 (List.forall₂_map_right_iff.2 ?_)
      have hsame := Json.sameItems_iff.1 hsame
      rw [List.forall₂_map_left_iff, List.forall₂_map_right_iff] at hsame
      exact hsame.imp fun _ _ => keepsColumn_of_same
    · rw [Json.arr.inj hitems, Json.arr.inj hcolumns]
      exact hkept
  | _ => cases h

theorem verbatim_aggregate_iff {t : Transform} (h : aggregate? (.obj members) = some t) :
    t.Verbatim (Json.obj members).settle ↔ t.Plain (.obj members) := by
  simp only [aggregate?, Json.fields?, Option.bind_eq_bind, Option.bind_some, Option.bind_eq_some_iff,
    Option.some.injEq] at h
  obtain ⟨columns, hcolumns, groupby, hgroupby, rfl⟩ := h
  obtain ⟨v, hv, hcolumns⟩ := Members.required?_eq_some_iff.1 hcolumns
  refine (verbatim_iff_fields rfl (by simp) (by simp [optionalKeys]) (by simp)).trans (and_congr Iff.rfl ?_)
  have hgroups : (aggregate columns groupby).Keeps "groupby" ((Json.obj members).settle.get? "groupby")
      (some (.strings groupby)) := by
    rcases Members.default?_cases hgroupby with ⟨rfl, hfield⟩ | ⟨g, hfield, hg⟩
    · rw [Json.get?_settle_of_field? hfield]
      exact .grouped rfl rfl
    · rw [Json.get?_settle_strings hfield hg]
      exact keeps_strings ..
  rw [List.forall_mem_cons, List.forall_mem_singleton, and_iff_left hgroups, Json.get?_settle_of_field? hv]
  refine (keeps_columns_iff hcolumns).trans ?_
  change _ ↔ ∀ items, members.lookup "aggregate" = some (.arr items) → _
  rw [Members.lookup_of_field? hv]
  simp only [Option.some.injEq]

theorem verbatim_impute_iff {t : Transform} (h : impute? (.obj members) = some t) :
    t.Verbatim (Json.obj members).settle ↔ t.Plain (.obj members) := by
  simp only [impute?, Json.fields?, Option.bind_eq_bind, Option.bind_some, Option.bind_eq_some_iff,
    Option.some.injEq] at h
  obtain ⟨field, hfield, key, hkey, groupby, hgroupby, value, hvalue, rfl⟩ := h
  refine (verbatim_iff_fields rfl (by simp) (by simp [optionalKeys]) (by simp)).trans (and_iff_left ?_)
  rw [List.forall_mem_cons, List.forall_mem_cons, List.forall_mem_cons, List.forall_mem_singleton,
    Json.get?_settle_string hfield, Json.get?_settle_string hkey]
  refine ⟨keeps_str .., keeps_str .., ?_, ?_⟩
  · rcases Members.default?_cases hgroupby with ⟨rfl, hmissing⟩ | ⟨g, hg, hgroupby⟩
    · rw [Json.get?_settle_of_field? hmissing]
      exact keeps_of_same rfl
    · rw [Json.get?_settle_strings hg hgroupby]
      cases groupby with
      | nil => exact .ungrouped rfl rfl
      | cons k ks => exact keeps_strings ..
  · have hany : ∀ v a, Json.any? v = some a → v.settle.same a = true := by
      intro v a ha
      rw [← Option.some.inj ha]
      exact Json.same_self (Json.distinctKeys_settle v)
    have hkept : KeepsValue ["value"] "value" ((Json.obj members).settle.get? "value") (value.map id) :=
      keepsValue_of_optional? List.mem_cons_self hvalue hany
    rw [Option.map_id] at hkept
    exact .value hkept

theorem verbatim_other (members : Members) :
    (other (Members.others members [])).Verbatim (Json.obj members).settle := by
  intro key
  rw [toJson, Json.ofObject_others]
  refine keeps_of_same (sameOption_self fun v hv => ?_)
  rw [Json.get?_settle, Option.mem_def, Option.map_eq_some_iff] at hv
  obtain ⟨e, -, rfl⟩ := hv
  exact Json.same_self (Json.distinctKeys_settle e.2)

end Kinds

/-- **A stage is kept as it was given if it is plain.** Every object reads as a stage. What is written for it has the keys
and values of the object, where a repeated key counts once, with its last value; null under an optional key may be left
out, and an empty list of groups be left out or added. This is so exactly when the object reads as none of the known
kinds, or all its members are fields of its kind, its records are objects of which the same holds, and its names are
strings. -/
theorem verbatim_iff_plain (members : Members) :
    ∃ t, ofJson? (.obj members) = some t ∧ (t.Verbatim (Json.obj members).settle ↔ t.Plain (.obj members)) := by
  obtain ⟨t, h⟩ : ∃ t, ofJson? (.obj members) = some t :=
    Option.isSome_iff_exists.1 (by simp [ofJson?, Json.object?])
  refine ⟨t, h, ?_⟩
  rcases Option.or_eq_some_iff.1 h with hbin | ⟨-, h⟩
  · obtain ⟨s, hs, rfl⟩ := Option.map_eq_some_iff.1 hbin
    exact verbatim_bin_iff hs
  rcases Option.or_eq_some_iff.1 h with htimeUnit | ⟨-, h⟩
  · obtain ⟨s, hs, rfl⟩ := Option.map_eq_some_iff.1 htimeUnit
    exact verbatim_timeUnit_iff hs
  rcases Option.or_eq_some_iff.1 h with haggregate | ⟨-, h⟩
  · exact verbatim_aggregate_iff haggregate
  rcases Option.or_eq_some_iff.1 h with hcalculate | ⟨-, h⟩
  · obtain ⟨s, hs, rfl⟩ := Option.map_eq_some_iff.1 hcalculate
    exact verbatim_calculate_iff hs
  rcases Option.or_eq_some_iff.1 h with hstack | ⟨-, h⟩
  · exact verbatim_stack_iff hstack
  rcases Option.or_eq_some_iff.1 h with himpute | ⟨-, hother⟩
  · exact verbatim_impute_iff himpute
  · obtain ⟨o, ho, rfl⟩ := Option.map_eq_some_iff.1 hother
    obtain rfl := Option.some.inj ho
    exact iff_of_true (verbatim_other members) trivial

/-- An impute stage that says how values are found loses it: it has no field for `method`. -/
theorem impute_loses_method :
    let given : Json := .obj
      [("impute", .str "sales"), ("key", .str "month"), ("groupby", .strings ["region"]), ("method", .str "mean")]
    ∃ t, ofJson? given = some t ∧ given.get? "method" = some (.str "mean") ∧ t.toJson.get? "method" = none ∧
      ¬ t.Verbatim given := by
  refine ⟨.impute "sales" "month" ["region"] none, rfl, rfl, rfl, fun h => ?_⟩
  rcases (h "method").lost with hkey | ⟨hkey, -⟩
  · exact absurd hkey (by decide)
  · exact absurd hkey (by decide)

end Transform

end ChartNormal
