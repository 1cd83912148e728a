import ChartNormal.Proofs.MergePaths
import ChartNormal.Proofs.PartSlots
import ChartNormal.Proofs.Readback.Config

/-!
# The configuration in effect

A configuration that comes from a user's is written out with all its defaults. Read again, on its own or over the
defaults, it is the same one (`ofUser?_effective`). In the sections the defaults below are plain values, and all of them
are written on top, so a section is read from what was written (`ReadsByKey.merge`). The only default that is an object is
the setting of the middle of a box; it is part of what was merged over it before (`merge_merge_below`).
-/

namespace ChartNormal

/-! ### Readers that do not look at the order of keys -/

/-- What is read depends on what stands under each key, and on the order of the members that are not known. -/
def ReadsByKey {α : Type} (read : Json → Option α) (known : List String) : Prop :=
  ∀ members members' : Members, (members.map Prod.fst).Nodup → (members'.map Prod.fst).Nodup →
    (∀ key, members.lookup key = members'.lookup key) → members.others known = members'.others known →
    read (.obj members) = read (.obj members')

theorem Members.others_mergeMembers {known : List String} {below top : Members} (htop : (top.map Prod.fst).Nodup)
    (hbelow : below.map Prod.fst ⊆ known) : (Json.mergeMembers below top).others known = top.others known := by
  have hnone : below.filter (fun e => e.1 ∉ known) = [] := by
    rw [List.filter_eq_nil_iff]
    intro e he
    simpa using hbelow (List.mem_map_of_mem he)
  rw [others, others, Json.filter_mergeMembers htop fun key _ hkey => hbelow hkey, hnone, List.nil_append]

/-- The fields that are present are among the keys of the record. -/
theorem Members.subset_keys_ofFields (names : List String) {fields : List (String × Option Json)} {rest : Object}
    (h : ∀ key ∈ names, ∃ j, (key, some j) ∈ fields) : names ⊆ (ofFields fields rest).map Prod.fst := by
  intro key hkey
  obtain ⟨j, hj⟩ := h key hkey
  exact List.mem_map.2 ⟨(key, j), List.mem_append_left _ (List.mem_filterMap.2 ⟨_, hj, rfl⟩), rfl⟩

/-- Plain defaults that are all written over do not show. -/
theorem ReadsByKey.merge {α : Type} {read : Json → Option α} {known : List String} (h : ReadsByKey read known)
    {below top : Members}
    (hbelow : (below.map Prod.fst).Nodup ∧ below.map Prod.fst ⊆ known ∧ ∀ e ∈ below, e.2.isObject = false)
    (htop : (top.map Prod.fst).Nodup) (hkeys : below.map Prod.fst ⊆ top.map Prod.fst) :
    read (Json.merge (.obj below) (.obj top)) = read (.obj top) := by
  obtain ⟨hnodup, hknown, hplain⟩ := hbelow
  exact h _ _ (Json.nodup_mergeMembers hnodup top) htop (Json.lookup_mergeMembers_plain hnodup htop hplain hkeys)
    (Members.others_mergeMembers htop hknown)

section ByKey

variable {members members' : Members} (hnodup : (members.map Prod.fst).Nodup) (hnodup' : (members'.map Prod.fst).Nodup)
  (hlookup : ∀ key, members.lookup key = members'.lookup key) {α : Type} (key : String) (read : Json → Option α)

include hnodup hnodup' hlookup

theorem Members.required?_by_key : members.required? key read = members'.required? key read := by
  rw [required?_of_nodup hnodup, required?_of_nodup hnodup', hlookup]

theorem Members.optional?_by_key : members.optional? key read = members'.optional? key read := by
  rw [optional?_of_nodup hnodup, optional?_of_nodup hnodup', hlookup]

theorem Members.default?_by_key (default : α) : members.default? key default read = members'.default? key default read := by
  rw [default?_of_nodup hnodup, default?_of_nodup hnodup', hlookup]

end ByKey

theorem OverlayConfig.readsByKey : ReadsByKey ofJson? fieldNames := by
  intro members members' hnodup hnodup' hlookup _
  rw [ofJson?, ofJson?, Json.fields?, Json.fields?, Option.bind_eq_bind, Option.bind_some, Option.bind_some,
    Members.default?_by_key hnodup hnodup' hlookup "line", Members.optional?_by_key hnodup hnodup' hlookup "area"]

theorem BoxConfig.readsByKey : ReadsByKey ofJson? ["size", "extent", "color"] := by
  intro members members' hnodup hnodup' hlookup hothers
  have hrequired {α : Type} (key : String) (read : Json → Option α) :=
    Members.required?_by_key hnodup hnodup' hlookup key read
  rw [ofJson?, ofJson?, Json.members?, Json.members?, Option.bind_eq_bind, Option.bind_some, Option.bind_some,
    hrequired "size", hrequired "extent", Members.optional?_by_key hnodup hnodup' hlookup "color", hothers]

theorem ErrorBarConfig.readsByKey : ReadsByKey ofJson? fieldNames := by
  intro members members' hnodup hnodup' hlookup _
  have hrequired {α : Type} (key : String) (read : Json → Option α) :=
    Members.required?_by_key hnodup hnodup' hlookup key read
  have hoptional {α : Type} (key : String) (read : Json → Option α) :=
    Members.optional?_by_key hnodup hnodup' hlookup key read
  rw [ofJson?, ofJson?, Json.fields?, Json.fields?, Option.bind_eq_bind, Option.bind_some, Option.bind_some,
    hrequired "center", hoptional "extent", hrequired "rule", hrequired "ticks", hoptional "bar", hoptional "line",
    hoptional "point"]

theorem ErrorBandConfig.readsByKey : ReadsByKey ofJson? fieldNames := by
  intro members members' hnodup hnodup' hlookup _
  have hrequired {α : Type} (key : String) (read : Json → Option α) :=
    Members.required?_by_key hnodup hnodup' hlookup key read
  have hoptional {α : Type} (key : String) (read : Json → Option α) :=
    Members.optional?_by_key hnodup hnodup' hlookup key read
  rw [ofJson?, ofJson?, Json.fields?, Json.fields?, Option.bind_eq_bind, Option.bind_some, Option.bind_some,
    hrequired "center", hoptional "extent", hrequired "band", hrequired "borders", hoptional "interpolate",
    hoptional "tension"]

namespace Config

/-! ### Sections over their defaults -/

theorem overlay_merge (c : OverlayConfig) :
    OverlayConfig.ofJson? (Json.merge defaults.overlay.toJson c.toJson) = some c := by
  refine (OverlayConfig.readsByKey.merge (by decide) ?_ ?_).trans c.ofJson?_toJson
  · exact Members.nodup_ofFields (by decide : OverlayConfig.fieldNames.Nodup)
  · exact Members.subset_keys_ofFields ["line"] (by simp)

theorem box_merge {c : BoxConfig} (h : Object.Free c.mark ["size", "extent", "color"]) :
    BoxConfig.ofJson? (Json.merge defaults.box.toJson c.toJson) = some c := by
  refine (BoxConfig.readsByKey.merge (by decide) ?_ ?_).trans (BoxConfig.ofJson?_toJson h)
  · exact Members.Written.nodup ⟨rfl, by simp, h⟩
  · exact Members.subset_keys_ofFields ["size", "extent"] (by simp)

theorem errorbar_merge {c : ErrorBarConfig} (h : ∀ s ∈ errorBarParts c, s.DistinctKeys) :
    ErrorBarConfig.ofJson? (Json.merge defaults.errorbar.toJson c.toJson) = some c := by
  refine (ErrorBarConfig.readsByKey.merge (by decide) ?_ ?_).trans (ErrorBarConfig.ofJson?_toJson h)
  · exact Members.nodup_ofFields (by decide : ErrorBarConfig.fieldNames.Nodup)
  · exact Members.subset_keys_ofFields ["center", "rule", "ticks"] (by simp)

theorem errorband_merge {c : ErrorBandConfig} (h : c.band.DistinctKeys ∧ c.borders.DistinctKeys) :
    ErrorBandConfig.ofJson? (Json.merge defaults.errorband.toJson c.toJson) = some c := by
  refine (ErrorBandConfig.readsByKey.merge (by decide) ?_ ?_).trans (ErrorBandConfig.ofJson?_toJson h)
  · exact Members.nodup_ofFields (by decide : ErrorBandConfig.fieldNames.Nodup)
  · exact Members.subset_keys_ofFields ["center", "band", "borders"] (by simp)

/-! ### The whole configuration -/

/-- The sections that the user does not mention are the default ones. -/
structure DefaultsElsewhere (c : Config) (u : Json) : Prop where
  stack : u.get? "stack" = none → c.stack = defaults.stack
  overlay : u.get? "overlay" = none → c.overlay = defaults.overlay
  box : u.get? "box" = none → c.box = defaults.box
  boxWhisker : u.get? "boxWhisker" = none → c.boxWhisker = defaults.boxWhisker
  boxMid : u.get? "boxMid" = none → c.boxMid = defaults.boxMid
  errorbar : u.get? "errorbar" = none → c.errorbar = defaults.errorbar
  errorband : u.get? "errorband" = none → c.errorband = defaults.errorband

/-- The defaults, as they are written. -/
def defaultMembers : Members := Members.ofFields defaults.sections defaults.extra

theorem keys_defaultMembers : defaultMembers.map Prod.fst ⊆ fieldNames := by decide

theorem nodup_defaultMembers : (defaultMembers.map Prod.fst).Nodup := by decide

theorem readFrom_defaultMembers : defaults.ReadFrom defaultMembers :=
  (readFrom_iff nodup_defaultMembers).2 (by decide)

/-- What a user gives is an object, and it is read after the defaults were merged below it. -/
theorem readFrom_of_ofUser? {u : Json} {c : Config} (h : ofUser? u = some c) :
    ∃ members, u = .obj members ∧ ofJson? (.obj (Json.mergeMembers defaultMembers members)) = some c := by
  cases u with
  | obj members => exact ⟨members, rfl, h⟩
  | _ => cases h

section Effective

variable {members : Members} {c : Config} (hkeys : (Json.obj members).distinctKeys = true)
  (h : c.ReadFrom (Json.mergeMembers defaultMembers members))

include hkeys h

theorem defaultsElsewhere_of_readFrom : c.DefaultsElsewhere (.obj members) := by
  have hbelow {key : String} (hnone : (Json.obj members).get? key = none) :
      (Json.mergeMembers defaultMembers members).lookup key = defaultMembers.lookup key := by
    rw [Json.lookup_mergeMembers (Json.distinctKeys_obj_iff.1 hkeys).1, show members.lookup key = none from hnone]
  have hd := readFrom_defaultMembers
  constructor
  · exact fun hnone => Option.some.inj ((hbelow hnone ▸ h.stack).symm.trans hd.stack)
  · exact fun hnone => Option.some.inj ((hbelow hnone ▸ h.overlay).symm.trans hd.overlay)
  · exact fun hnone => Option.some.inj ((hbelow hnone ▸ h.box).symm.trans hd.box)
  · exact fun hnone => Option.some.inj ((hbelow hnone ▸ h.boxWhisker).symm.trans hd.boxWhisker)
  · exact fun hnone => Option.some.inj ((hbelow hnone ▸ h.boxMid).symm.trans hd.boxMid)
  · exact fun hnone => Option.some.inj ((hbelow hnone ▸ h.errorbar).symm.trans hd.errorbar)
  · exact fun hnone => Option.some.inj ((hbelow hnone ▸ h.errorband).symm.trans hd.errorband)

theorem extra_of_readFrom : c.extra.entries = members.filter fun e => e.1 ∉ fieldNames := by
  have hothers := Members.others_mergeMembers (Json.distinctKeys_obj_iff.1 hkeys).1 keys_defaultMembers
  rw [← h.extra, hothers, Members.entries_others hkeys]

/-- The setting of the middle of a box has its default in it, or is a flag. -/
theorem boxMid_merge : Json.merge defaults.boxMid.toJson c.boxMid.toJson = c.boxMid.toJson := by
  obtain ⟨hnodup, hvalues⟩ := Json.distinctKeys_obj_iff.1 hkeys
  have hdefault : defaultMembers.lookup "boxMid" = some defaults.boxMid.toJson := by decide
  have hdistinct : defaults.boxMid.toJson.distinctKeys = true := by decide
  have hread := h.boxMid
  rw [Json.lookup_mergeMembers hnodup, hdefault] at hread
  cases hj : members.lookup "boxMid" with
  | none =>
    rw [hj] at hread
    rw [PartSetting.toJson_of_ofJson? hdistinct hread, Json.merge_self hdistinct]
  | some j =>
    rw [hj] at hread
    have hjKeys := hvalues _ ((OrderedMap.lookup_eq_some_iff hnodup).1 hj)
    rw [PartSetting.toJson_of_ofJson? (Json.distinctKeys_merge hdistinct hjKeys) hread,
      Json.merge_merge_below hdistinct hjKeys]

end Effective

/-- A legible configuration reads the same over the defaults, if the default of the middle of a box is part of its own. -/
theorem ofUser?_toJson {c : Config} (h : c.Legible)
    (hmid : Json.merge defaults.boxMid.toJson c.boxMid.toJson = c.boxMid.toJson) : ofUser? c.toJson = some c := by
  have hw := h.written
  have hsection {α : Type} {key : String} {default a : α} {read : Json → Option α} (d j : Json)
      (hbelow : defaultMembers.lookup key = some d) (hmem : (key, some j) ∈ c.sections)
      (hread : read (Json.merge d j) = some a) :
      ((Json.mergeMembers defaultMembers (Members.ofFields c.sections c.extra)).lookup key).elim (some default) read =
        some a := by
    rw [Json.lookup_mergeMembers hw.nodup, Members.lookup_of_field? (hw.field? hmem), hbelow]
    exact hread
  change ofJson? (.obj (Json.mergeMembers defaultMembers (Members.ofFields c.sections c.extra))) = some c
  refine (readFrom_iff (Json.nodup_mergeMembers nodup_defaultMembers _)).1 ?_
  constructor
  · exact hsection (.str defaults.stack.name) (.str c.stack.name) (by decide) (by simp [sections]) c.stack.ofName?_name
  · exact hsection _ _ (by decide) (by simp [sections]) (overlay_merge c.overlay)
  · exact hsection _ _ (by decide) (by simp [sections]) (box_merge h.box)
  · refine hsection (.bool true) c.boxWhisker.toJson (by decide) (by simp [sections]) ?_
    rw [Json.merge_of_not_isObject rfl, PartSetting.ofJson?_toJson h.boxWhisker]
  · exact hsection _ _ (by decide) (by simp [sections]) (hmid.symm ▸ PartSetting.ofJson?_toJson h.boxMid)
  · exact hsection _ _ (by decide) (by simp [sections]) (errorbar_merge h.errorbar)
  · exact hsection _ _ (by decide) (by simp [sections]) (errorband_merge h.errorband)
  · rw [Members.others_mergeMembers hw.nodup keys_defaultMembers]
    exact hw.others

/-- **The configuration in effect.** What a user gives, without the known sections, is kept as it is and in its order, and
sections that are not given are the default ones. Written out, the configuration reads back as it is; and given by the user
in that form, with the defaults below it once more, it stays the same. -/
theorem ofUser?_effective {u : Json} {c : Config} (hu : u.distinctKeys = true) (h : ofUser? u = some c) :
    (∃ members, u = .obj members ∧ c.extra.entries = members.filter fun e => e.1 ∉ fieldNames) ∧
      c.DefaultsElsewhere u ∧ ofJson? c.toJson = some c ∧ ofUser? c.toJson = some c := by
  obtain ⟨members, rfl, hread⟩ := readFrom_of_ofUser? h
  have hlegible := legible_of_ofJson? hread
  rw [← readFrom_iff (Json.nodup_mergeMembers nodup_defaultMembers _)] at hread
  refine ⟨⟨members, rfl, extra_of_readFrom hu hread⟩, defaultsElsewhere_of_readFrom hu hread, ofJson?_toJson hlegible, ?_⟩
  exact ofUser?_toJson hlegible (boxMid_merge hu hread)

/-- Sections as arrays and with `null`, an object over the default of the middle of a box, and two sections of the user's
own. -/
theorem ofUser?_effective_sections :
    let axis : String × Json := ("axis", .obj [("grid", .bool false)])
    let range : String × Json := ("range", .arr [.num (.int 1)])
    let u : Json := .obj
      [axis, ("boxMid", .obj [("size", .num (.int 2))]), ("overlay", .arr [.bool true]), range,
        ("box", .obj [("opacity", .num (.int 1)), ("color", .null), ("extent", .str "min-max")])]
    ∃ c, (u.distinctKeys = true ∧ ofUser? u = some c) ∧ c.extra.entries = [axis, range] ∧
      c.errorbar = defaults.errorbar ∧ c.box.size = defaults.box.size ∧ c.box.extent = .named .minMax ∧
      ofJson? c.toJson = some c ∧ ofUser? c.toJson = some c := by
  intro axis range u
  have hu : u.distinctKeys = true := by decide
  have hbox : (ofUser? u).map (fun c => (c.box.size, c.box.extent)) = some (defaults.box.size, .named .minMax) := by
    decide +kernel +zetaReduce
  obtain ⟨c, h, hbox⟩ := Option.map_eq_some_iff.1 hbox
  obtain ⟨⟨members, hmembers, hextra⟩, hdefaults, hread, huser⟩ := ofUser?_effective hu h
  obtain rfl := Json.obj.inj hmembers
  exact ⟨c, ⟨hu, h⟩, hextra, hdefaults.errorbar rfl, congrArg Prod.fst hbox, congrArg Prod.snd hbox, hread, huser⟩

end Config

end ChartNormal
