import ChartNormal.Config
import ChartNormal.Proofs.Merge

/-!
# The slots of parts in a configuration

A user's configuration holds the settings of parts at fixed places. What is written into a slot that the user leaves alone
reaches the setting of that part and nothing else (`ofUser?_setAt`), merged with the default that stands there: an empty
object keeps a default that is an object, and takes the place of a flag.
-/

namespace ChartNormal

theorem Members.others_place {members : Members} {known : List String} {k : String} (hk : k ∈ known) (v : Json) :
    others (OrderedMap.place k v members) known = others members known := by
  rw [others, others, OrderedMap.filter_place hk]

/-! ### Slots -/

/-- A place in the configuration for the setting of a part. -/
inductive PartSlot where
  | boxWhisker
  | boxMid
  | rule
  | ticks
  | bar
  | line
  | point
  | band
  | borders
deriving DecidableEq, Repr

namespace PartSlot

/-- The tag of the composite mark. -/
def tag : PartSlot → String
  | boxWhisker | boxMid => "box-plot"
  | rule | ticks | bar | line | point => "errorbar"
  | band | borders => "errorband"

def part : PartSlot → String
  | boxWhisker => "boxWhisker"
  | boxMid => "boxMid"
  | rule => "rule"
  | ticks => "ticks"
  | bar => "bar"
  | line => "line"
  | point => "point"
  | band => "band"
  | borders => "borders"

/-- The keys that lead to the slot. -/
def path : PartSlot → List String
  | boxWhisker => ["boxWhisker"]
  | boxMid => ["boxMid"]
  | slot => [slot.tag, slot.part]

/-- The configuration with a setting in the slot. -/
def put (s : PartSetting) (c : Config) : PartSlot → Config
  | boxWhisker => { c with boxWhisker := s }
  | boxMid => { c with boxMid := s }
  | rule => { c with errorbar := { c.errorbar with rule := s } }
  | ticks => { c with errorbar := { c.errorbar with ticks := s } }
  | bar => { c with errorbar := { c.errorbar with bar := some s } }
  | line => { c with errorbar := { c.errorbar with line := some s } }
  | point => { c with errorbar := { c.errorbar with point := some s } }
  | band => { c with errorband := { c.errorband with band := s } }
  | borders => { c with errorband := { c.errorband with borders := s } }

/-- A slot stands at the top of the configuration, or in the section of its mark. -/
theorem path_cases (slot : PartSlot) :
    slot = boxWhisker ∨ slot = boxMid ∨ slot.tag = "errorbar" ∧ slot.path = ["errorbar", slot.part] ∨
      slot.tag = "errorband" ∧ slot.path = ["errorband", slot.part] := by
  cases slot <;> decide

theorem put_errorbar {slot : PartSlot} (h : slot.tag = "errorbar") (s : PartSetting) (c : Config) :
    slot.put s c = { c with errorbar := (slot.put s c).errorbar } := by
  cases slot with
  | rule | ticks | bar | line | point => rfl
  | boxWhisker | boxMid | band | borders => exact absurd h (by decide)

theorem put_errorband {slot : PartSlot} (h : slot.tag = "errorband") (s : PartSetting) (c : Config) :
    slot.put s c = { c with errorband := (slot.put s c).errorband } := by
  cases slot with
  | band | borders => rfl
  | boxWhisker | boxMid | rule | ticks | bar | line | point => exact absurd h (by decide)

theorem part?_put (slot : PartSlot) (s : PartSetting) (c : Config) : (slot.put s c).part? slot.tag slot.part = some s := by
  cases slot <;> rfl

/-- The settings of other parts stay. -/
theorem part?_put_of_ne (slot : PartSlot) (s : PartSetting) (c : Config) {tag part : String}
    (h : ¬ (tag = slot.tag ∧ part = slot.part)) : (slot.put s c).part? tag part = c.part? tag part := by
  unfold Config.part?
  cases slot <;> split <;> try rfl
  -- what is left is the slot itself
  all_goals exact absurd ⟨rfl, rfl⟩ h

end PartSlot

/-! ### Reading a configuration -/

theorem Json.given_of_opens {key k : String} {members : Members} (h : Opens [key, k] (.obj members))
    (hsome : (members.lookup key).isSome = true) :
    ∃ given, members.lookup key = some (.obj given) ∧ at? [key, k] (.obj members) = given.lookup k ∧
      ∀ v, setAt v [key, k] (.obj members) = .obj (OrderedMap.place key (.obj (OrderedMap.place k v given)) members) := by
  obtain ⟨_, hm, hopen⟩ := h
  obtain rfl := Json.obj.inj hm
  obtain ⟨j, hj⟩ := Option.isSome_iff_exists.1 hsome
  obtain ⟨given, rfl, -⟩ := hopen j hj
  refine ⟨given, hj, ?_, fun v => ?_⟩
  · change (members.lookup key).bind (at? [k]) = _
    rw [hj]
    exact Option.bind_fun_some _
  · change Json.obj (OrderedMap.place key (setAt v [k] ((members.lookup key).getD (.obj []))) members) = _
    rw [hj]
    rfl

open Members (typed?)
open OrderedMap (place)

theorem PartSetting.typed?_ofJson? {j : Json} {s : PartSetting} (h : ofJson? j = some s) :
    typed? ofJson? (some j) = some (some s) := by
  cases j with
  | null => cases h
  | _ => exact congrArg (Option.map some) h

namespace ErrorBarConfig

/-- The section is what stands under the keys of its fields. -/
structure ReadFrom (members : Members) (c : ErrorBarConfig) : Prop where
  center : (members.lookup "center").bind (Json.name? Center.ofName?) = some c.center
  extent : typed? Extent.ofJson? (members.lookup "extent") = some c.extent
  rule : (members.lookup "rule").bind PartSetting.ofJson? = some c.rule
  ticks : (members.lookup "ticks").bind PartSetting.ofJson? = some c.ticks
  bar : typed? PartSetting.ofJson? (members.lookup "bar") = some c.bar
  line : typed? PartSetting.ofJson? (members.lookup "line") = some c.line
  point : typed? PartSetting.ofJson? (members.lookup "point") = some c.point

theorem readFrom_iff {members : Members} (hkeys : (members.map Prod.fst).Nodup) {c : ErrorBarConfig} :
    c.ReadFrom members ↔ ofJson? (.obj members) = some c := by
  simp only [ofJson?, Json.fields?, Members.required?_of_nodup hkeys, Members.optional?_of_nodup hkeys, Option.bind_eq_bind,
    Option.bind_some]
  constructor
  · intro h
    rw [h.center, h.extent, h.rule, h.ticks, h.bar, h.line, h.point]
    rfl
  · intro h
    obtain ⟨_, hcenter, h⟩ := Option.bind_eq_some_iff.1 h
    obtain ⟨_, hextent, h⟩ := Option.bind_eq_some_iff.1 h
    obtain ⟨_, hrule, h⟩ := Option.bind_eq_some_iff.1 h
    obtain ⟨_, hticks, h⟩ := Option.bind_eq_some_iff.1 h
    obtain ⟨_, hbar, h⟩ := Option.bind_eq_some_iff.1 h
    obtain ⟨_, hline, h⟩ := Option.bind_eq_some_iff.1 h
    obtain ⟨_, hpoint, h⟩ := Option.bind_eq_some_iff.1 h
    obtain rfl := Option.some.inj h
    exact ⟨hcenter, hextent, hrule, hticks, hbar, hline, hpoint⟩

variable {c : Config} {slot : PartSlot} {members : Members} (htag : slot.tag = "errorbar")
  (h : c.errorbar.ReadFrom members)

include htag h

theorem ReadFrom.part? : c.part? slot.tag slot.part = (members.lookup slot.part).bind PartSetting.ofJson? := by
  cases slot with
  | rule => exact h.rule.symm
  | ticks => exact h.ticks.symm
  | bar => exact Members.eq_bind_of_typed? rfl h.bar
  | line => exact Members.eq_bind_of_typed? rfl h.line
  | point => exact Members.eq_bind_of_typed? rfl h.point
  | boxWhisker | boxMid | band | borders => exact absurd htag (by decide)

theorem ReadFrom.place {v : Json} {s : PartSetting} (hv : PartSetting.ofJson? v = some s) :
    (slot.put s c).errorbar.ReadFrom (place slot.part v members) := by
  have hv' := PartSetting.typed?_ofJson? hv
  obtain ⟨hcenter, hextent, hrule, hticks, hbar, hline, hpoint⟩ := h
  cases slot with
  | rule | ticks | bar | line | point =>
    constructor <;> simpa [PartSlot.part, PartSlot.put, OrderedMap.lookup_place]
  | boxWhisker | boxMid | band | borders => exact absurd htag (by decide)

end ErrorBarConfig

namespace ErrorBandConfig

/-- The section is what stands under the keys of its fields. -/
structure ReadFrom (members : Members) (c : ErrorBandConfig) : Prop where
  center : (members.lookup "center").bind (Json.name? Center.ofName?) = some c.center
  extent : typed? Extent.ofJson? (members.lookup "extent") = some c.extent
  band : (members.lookup "band").bind PartSetting.ofJson? = some c.band
  borders : (members.lookup "borders").bind PartSetting.ofJson? = some c.borders
  interpolate : typed? Json.string? (members.lookup "interpolate") = some c.interpolate
  tension : typed? Json.double? (members.lookup "tension") = some c.tension

theorem readFrom_iff {members : Members} (hkeys : (members.map Prod.fst).Nodup) {c : ErrorBandConfig} :
    c.ReadFrom members ↔ ofJson? (.obj members) = some c := by
  simp only [ofJson?, Json.fields?, Members.required?_of_nodup hkeys, Members.optional?_of_nodup hkeys, Option.bind_eq_bind,
    Option.bind_some]
  constructor
  · intro h
    rw [h.center, h.extent, h.band, h.borders, h.interpolate, h.tension]
    rfl
  · intro h
    obtain ⟨_, hcenter, h⟩ := Option.bind_eq_some_iff.1 h
    obtain ⟨_, hextent, h⟩ := Option.bind_eq_some_iff.1 h
    obtain ⟨_, hband, h⟩ := Option.bind_eq_some_iff.1 h
    obtain ⟨_, hborders, h⟩ := Option.bind_eq_some_iff.1 h
    obtain ⟨_, hinterpolate, h⟩ := Option.bind_eq_some_iff.1 h
    obtain ⟨_, htension, h⟩ := Option.bind_eq_some_iff.1 h
    obtain rfl := Option.some.inj h
    exact ⟨hcenter, hextent, hband, hborders, hinterpolate, htension⟩

variable {c : Config} {slot : PartSlot} {members : Members} (htag : slot.tag = "errorband")
  (h : c.errorband.ReadFrom members)

include htag h

theorem ReadFrom.part? : c.part? slot.tag slot.part = (members.lookup slot.part).bind PartSetting.ofJson? := by
  cases slot with
  | band => exact h.band.symm
  | borders => exact h.borders.symm
  | boxWhisker | boxMid | rule | ticks | bar | line | point => exact absurd htag (by decide)

theorem ReadFrom.place {v : Json} {s : PartSetting} (hv : PartSetting.ofJson? v = some s) :
    (slot.put s c).errorband.ReadFrom (place slot.part v members) := by
  obtain ⟨hcenter, hextent, hband, hborders, hinterpolate, htension⟩ := h
  cases slot with
  | band | borders => constructor <;> simpa [PartSlot.part, PartSlot.put, OrderedMap.lookup_place]
  | boxWhisker | boxMid | rule | ticks | bar | line | point => exact absurd htag (by decide)

end ErrorBandConfig

namespace Config

/-- The configuration is what stands under the keys of its fields, or else the default. -/
structure ReadFrom (members : Members) (c : Config) : Prop where
  stack : (members.lookup "stack").elim (some defaults.stack) (Json.name? StackOffset.ofName?) = some c.stack
  overlay : (members.lookup "overlay").elim (some defaults.overlay) OverlayConfig.ofJson? = some c.overlay
  box : (members.lookup "box").elim (some defaults.box) BoxConfig.ofJson? = some c.box
  boxWhisker : (members.lookup "boxWhisker").elim (some defaults.boxWhisker) PartSetting.ofJson? = some c.boxWhisker
  boxMid : (members.lookup "boxMid").elim (some defaults.boxMid) PartSetting.ofJson? = some c.boxMid
  errorbar : (members.lookup "errorbar").elim (some defaults.errorbar) ErrorBarConfig.ofJson? = some c.errorbar
  errorband : (members.lookup "errorband").elim (some defaults.errorband) ErrorBandConfig.ofJson? = some c.errorband
  extra : members.others fieldNames = c.extra

theorem readFrom_iff {members : Members} (hkeys : (members.map Prod.fst).Nodup) {c : Config} :
    c.ReadFrom members ↔ ofJson? (.obj members) = some c := by
  simp only [ofJson?, Json.members?, Members.default?_of_nodup hkeys, Option.bind_eq_bind, Option.bind_some]
  constructor
  · intro h
    rw [h.stack, h.overlay, h.box, h.boxWhisker, h.boxMid, h.errorbar, h.errorband, h.extra]
    rfl
  · intro h
    obtain ⟨_, hstack, h⟩ := Option.bind_eq_some_iff.1 h
    obtain ⟨_, hoverlay, h⟩ := Option.bind_eq_some_iff.1 h
    obtain ⟨_, hbox, h⟩ := Option.bind_eq_some_iff.1 h
    obtain ⟨_, hwhisker, h⟩ := Option.bind_eq_some_iff.1 h
    obtain ⟨_, hmid, h⟩ := Option.bind_eq_some_iff.1 h
    obtain ⟨_, hbar, h⟩ := Option.bind_eq_some_iff.1 h
    obtain ⟨_, hband, h⟩ := Option.bind_eq_some_iff.1 h
    obtain rfl := Option.some.inj h
    exact ⟨hstack, hoverlay, hbox, hwhisker, hmid, hbar, hband, rfl⟩

variable {c : Config} {members : Members} (hkeys : (Json.obj members).distinctKeys = true)

include hkeys

/-- A section that is given as an object is read from it. -/
theorem ReadFrom.section_of_lookup (h : c.ReadFrom members) {key : String} {given : Members}
    (hj : members.lookup key = some (.obj given)) :
    (given.map Prod.fst).Nodup ∧ (key = "errorbar" → c.errorbar.ReadFrom given) ∧
      (key = "errorband" → c.errorband.ReadFrom given) := by
  obtain ⟨hnodup, hvalues⟩ := Json.distinctKeys_obj_iff.1 hkeys
  have hgiven := (Json.distinctKeys_obj_iff.1 (hvalues _ ((OrderedMap.lookup_eq_some_iff hnodup).1 hj))).1
  refine ⟨hgiven, ?_, ?_⟩
  · rintro rfl
    have hread := h.errorbar
    rw [hj] at hread
    exact (ErrorBarConfig.readFrom_iff hgiven).2 hread
  · rintro rfl
    have hread := h.errorband
    rw [hj] at hread
    exact (ErrorBandConfig.readFrom_iff hgiven).2 hread

variable {slot : PartSlot} (hfull : ∀ key ∈ fieldNames, (members.lookup key).isSome = true)
  (hopen : Json.Opens slot.path (.obj members)) (h : c.ReadFrom members)

include hfull hopen h

/-- The setting is read from the slot. -/
theorem ReadFrom.part? : c.part? slot.tag slot.part = (Json.at? slot.path (.obj members)).bind PartSetting.ofJson? := by
  rcases slot.path_cases with rfl | rfl | ⟨htag, hpath⟩ | ⟨htag, hpath⟩
  · obtain ⟨j, hj⟩ := Option.isSome_iff_exists.1 (hfull "boxWhisker" (by decide))
    have hread := h.boxWhisker
    rw [hj] at hread
    rw [PartSlot.path, Json.at?, Json.get?, hj]
    exact hread.symm
  · obtain ⟨j, hj⟩ := Option.isSome_iff_exists.1 (hfull "boxMid" (by decide))
    have hread := h.boxMid
    rw [hj] at hread
    rw [PartSlot.path, Json.at?, Json.get?, hj]
    exact hread.symm
  · rw [hpath] at hopen ⊢
    obtain ⟨given, hj, hat, -⟩ := Json.given_of_opens hopen (hfull "errorbar" (by decide))
    rw [hat]
    exact ((h.section_of_lookup hkeys hj).2.1 rfl).part? htag
  · rw [hpath] at hopen ⊢
    obtain ⟨given, hj, hat, -⟩ := Json.given_of_opens hopen (hfull "errorband" (by decide))
    rw [hat]
    exact ((h.section_of_lookup hkeys hj).2.2 rfl).part? htag

/-- A setting that is written into the slot is read from it, and all else is as before. -/
theorem ReadFrom.setAt {v : Json} {s : PartSetting} (hv : PartSetting.ofJson? v = some s) :
    ofJson? (Json.setAt v slot.path (.obj members)) = some (slot.put s c) := by
  have hnodup := (Json.distinctKeys_obj_iff.1 hkeys).1
  have hplace (key : String) (j : Json) := OrderedMap.nodup_place key j hnodup
  have hextra (key : String) (hkey : key ∈ fieldNames) (j : Json) :
      Members.others (place key j members) fieldNames = c.extra := (Members.others_place hkey j).trans h.extra
  rcases slot.path_cases with rfl | rfl | ⟨htag, hpath⟩ | ⟨htag, hpath⟩
  · refine (readFrom_iff (hplace "boxWhisker" v)).1 ?_
    obtain ⟨hstack, hoverlay, hbox, -, hmid, hbar, hband, -⟩ := h
    constructor <;> simp [PartSlot.put, OrderedMap.lookup_place, hextra "boxWhisker" (by decide), *]
  · refine (readFrom_iff (hplace "boxMid" v)).1 ?_
    obtain ⟨hstack, hoverlay, hbox, hwhisker, -, hbar, hband, -⟩ := h
    constructor <;> simp [PartSlot.put, OrderedMap.lookup_place, hextra "boxMid" (by decide), *]
  · rw [hpath] at hopen ⊢
    obtain ⟨given, hj, -, hset⟩ := Json.given_of_opens hopen (hfull "errorbar" (by decide))
    obtain ⟨hgiven, hread, -⟩ := h.section_of_lookup hkeys hj
    have hsection := (ErrorBarConfig.readFrom_iff (OrderedMap.nodup_place _ _ hgiven)).1 ((hread rfl).place htag hv)
    rw [hset, slot.put_errorbar htag]
    refine (readFrom_iff (hplace "errorbar" _)).1 ?_
    obtain ⟨hstack, hoverlay, hbox, hwhisker, hmid, -, hband, -⟩ := h
    constructor <;> simp [OrderedMap.lookup_place, hextra "errorbar" (by decide), *]
  · rw [hpath] at hopen ⊢
    obtain ⟨given, hj, -, hset⟩ := Json.given_of_opens hopen (hfull "errorband" (by decide))
    obtain ⟨hgiven, -, hread⟩ := h.section_of_lookup hkeys hj
    have hsection := (ErrorBandConfig.readFrom_iff (OrderedMap.nodup_place _ _ hgiven)).1 ((hread rfl).place htag hv)
    rw [hset, slot.put_errorband htag]
    refine (readFrom_iff (hplace "errorband" _)).1 ?_
    obtain ⟨hstack, hoverlay, hbox, hwhisker, hmid, hbar, -, -⟩ := h
    constructor <;> simp [OrderedMap.lookup_place, hextra "errorband" (by decide), *]

/-! ### Settings over the defaults -/

omit hkeys hfull hopen h

theorem opens_defaults (slot : PartSlot) : Json.Opens slot.path defaults.toJson := by
  have hsection {key k : String} {given : Members} (hj : defaults.toJson.get? key = some (.obj given)) :
      Json.Opens [key, k] defaults.toJson := by
    refine ⟨_, rfl, fun j hj' => ?_⟩
    obtain rfl := Option.some.inj (hj.symm.trans hj')
    exact ⟨given, rfl, fun _ _ => trivial⟩
  rcases slot.path_cases with rfl | rfl | ⟨-, hpath⟩ | ⟨-, hpath⟩
  · exact ⟨_, rfl, fun _ _ => trivial⟩
  · exact ⟨_, rfl, fun _ _ => trivial⟩
  · exact hpath ▸ hsection rfl
  · exact hpath ▸ hsection rfl

theorem part?_defaults (slot : PartSlot) :
    defaults.part? slot.tag slot.part = (Json.at? slot.path defaults.toJson).bind PartSetting.ofJson? := by
  cases slot <;> rfl

/-- **Slots.** A part whose slot the user leaves alone has its default setting, and what is written into the slot becomes
its setting, over the default. -/
theorem ofUser?_setAt {user : Json} (hkeys : user.distinctKeys = true) (hopen : Json.Opens slot.path user)
    (hnone : Json.at? slot.path user = none) (h : ofUser? user = some c) :
    c.part? slot.tag slot.part = defaults.part? slot.tag slot.part ∧
      ∀ v s, PartSetting.ofJson? (Json.mergeInto (Json.at? slot.path defaults.toJson) v) = some s →
        ofUser? (Json.setAt v slot.path user) = some (slot.put s c) := by
  have hdefaults : defaults.toJson.distinctKeys = true := by decide
  have hmerged := Json.distinctKeys_merge hdefaults hkeys
  have hopenMerged := Json.opens_merge hkeys (opens_defaults slot) hopen
  have hat := Json.at?_merge hkeys (opens_defaults slot) hopen hnone
  have hset := Json.merge_setAt hkeys (opens_defaults slot) hopen hnone
  obtain ⟨given, rfl⟩ : ∃ given, user = .obj given := by
    cases slot <;> exact hopen.imp fun _ h => h.1
  -- no section is missing after the merge
  obtain ⟨below, hbelow, hnames⟩ :
      ∃ below, defaults.toJson = .obj below ∧ ∀ key ∈ fieldNames, (below.lookup key).isSome = true :=
    ⟨_, rfl, by decide⟩
  have hobj : defaults.toJson.merge (.obj given) = .obj (Json.mergeMembers below given) := by rw [hbelow]; rfl
  have hfull : ∀ key ∈ fieldNames, ((Json.mergeMembers below given).lookup key).isSome = true := by
    intro key hkey
    rw [Json.lookup_mergeMembers (Json.distinctKeys_obj_iff.1 hkeys).1]
    split
    · rfl
    · exact hnames key hkey
  rw [ofUser?, hobj] at h
  rw [hobj] at hmerged hopenMerged hat hset
  have hread := (readFrom_iff (Json.distinctKeys_obj_iff.1 hmerged).1).2 h
  refine ⟨?_, fun v s hv => ?_⟩
  · rw [hread.part? hmerged hfull hopenMerged, hat, part?_defaults]
  · rw [ofUser?, hset]
    exact hread.setAt hmerged hfull hopenMerged hv

end Config

end ChartNormal
