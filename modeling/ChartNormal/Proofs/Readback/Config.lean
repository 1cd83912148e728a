import ChartNormal.Proofs.Readback.Parts

/-!
# Configurations that read back

Each section of a legible configuration is read as it was written, and so is the whole (`Config.ofJson?_toJson`).
-/

namespace ChartNormal

theorem AreaOverlay.ofName?_name (a : AreaOverlay) : ofName? a.name = some a := by cases a <;> rfl

namespace PartSetting

/-- A setting is written as the value that it was read from. -/
theorem toJson_of_ofJson? {j : Json} (hj : j.distinctKeys = true) {s : PartSetting} (h : ofJson? j = some s) :
    s.toJson = j := by
  cases j with
  | bool on => exact Option.some.inj h ▸ rfl
  | obj members =>
    obtain rfl := Option.some.inj h
    refine congrArg Json.obj ((Members.entries_others hj).trans ?_)
    simp
  | _ => cases h

theorem ofJson?_toJson {s : PartSetting} (h : s.DistinctKeys) : ofJson? s.toJson = some s := by
  cases s with
  | flag on => rfl
  | mark props =>
    refine congrArg (some ∘ mark) (OrderedMap.ext ((Members.entries_others h).trans ?_))
    simp [PartSetting.props]

theorem toJson_ne_null (s : PartSetting) : s.toJson ≠ .null := by
  cases s <;> simp [toJson, Json.ofObject]

end PartSetting

theorem OverlayConfig.ofJson?_toJson (c : OverlayConfig) : ofJson? c.toJson = some c := by
  obtain ⟨members, hmembers⟩ : ∃ members : Members, c.toJson = .obj members := ⟨_, rfl⟩
  have hw : Members.Written members [("line", some (.bool c.line)), ("area", c.area.map fun a => .str a.name)] ∅ :=
    ⟨(Json.obj.inj hmembers).symm, (by decide : fieldNames.Nodup), Object.free_empty _⟩
  have hline : members.default? "line" false Json.bool? = some c.line := hw.default? (j := .bool c.line) (by simp) false
  have harea : members.optional? "area" (Json.name? AreaOverlay.ofName?) = some c.area :=
    hw.optional? (fun a => .str a.name) (by simp) (fun a _ => a.ofName?_name) (by simp)
  rw [hmembers, ofJson?, Json.fields?, Option.bind_eq_bind, Option.bind_some, hline, harea]
  rfl

theorem BoxConfig.ofJson?_toJson {c : BoxConfig} (h : Object.Free c.mark ["size", "extent", "color"]) :
    ofJson? c.toJson = some c := by
  obtain ⟨members, hmembers⟩ : ∃ members : Members, c.toJson = .obj members := ⟨_, rfl⟩
  have hw : Members.Written members
      [("size", some (.ofDouble c.size)), ("extent", some c.extent.toJson), ("color", c.color.map .str)] c.mark :=
    ⟨(Json.obj.inj hmembers).symm, by simp, h⟩
  have hsize : members.required? "size" Json.double? = some c.size := hw.required? (j := .ofDouble c.size) (by simp)
  have hextent : members.required? "extent" Extent.ofJson? = some c.extent :=
    (hw.required? (j := c.extent.toJson) (by simp)).trans c.extent.ofJson?_toJson
  have hcolor : members.optional? "color" Json.string? = some c.color :=
    hw.optional? .str (by simp) (fun _ _ => rfl) (by simp)
  have hmark : members.others ["size", "extent", "color"] = c.mark := hw.others
  rw [hmembers, ofJson?, Json.members?, Option.bind_eq_bind, Option.bind_some, hsize, hextent, hcolor, hmark]
  rfl

theorem ErrorBarConfig.ofJson?_toJson {c : ErrorBarConfig} (h : ∀ s ∈ Config.errorBarParts c, s.DistinctKeys) :
    ofJson? c.toJson = some c := by
  obtain ⟨members, hmembers⟩ : ∃ members : Members, c.toJson = .obj members := ⟨_, rfl⟩
  have hw : Members.Written members _ ∅ :=
    ⟨(Json.obj.inj hmembers).symm, (by decide : fieldNames.Nodup), Object.free_empty _⟩
  have hcenter : members.required? "center" (Json.name? Center.ofName?) = some c.center :=
    (hw.required? (j := .str c.center.name) (by simp)).trans c.center.ofName?_name
  have hextent : members.optional? "extent" Extent.ofJson? = some c.extent :=
    hw.optional? Extent.toJson (by simp) (fun e _ => e.ofJson?_toJson) (fun e _ => e.toJson_ne_null)
  have hpart {s : PartSetting} (hs : s ∈ Config.errorBarParts c) : PartSetting.ofJson? s.toJson = some s :=
    PartSetting.ofJson?_toJson (h s hs)
  have hrule : members.required? "rule" PartSetting.ofJson? = some c.rule :=
    (hw.required? (j := c.rule.toJson) (by simp)).trans (hpart (by simp [Config.errorBarParts]))
  have hticks : members.required? "ticks" PartSetting.ofJson? = some c.ticks :=
    (hw.required? (j := c.ticks.toJson) (by simp)).trans (hpart (by simp [Config.errorBarParts]))
  have hoptional {key : String} {x : Option PartSetting} (hmem : (key, x.map PartSetting.toJson) ∈ _)
      (hx : ∀ s ∈ x, s ∈ Config.errorBarParts c) : members.optional? key PartSetting.ofJson? = some x :=
    hw.optional? PartSetting.toJson hmem (fun s hs => hpart (hx s hs)) (fun s _ => s.toJson_ne_null)
  have hbar : members.optional? "bar" PartSetting.ofJson? = some c.bar :=
    hoptional (by simp) (by simp +contextual [Config.errorBarParts])
  have hline : members.optional? "line" PartSetting.ofJson? = some c.line :=
    hoptional (by simp) (by simp +contextual [Config.errorBarParts])
  have hpoint : members.optional? "point" PartSetting.ofJson? = some c.point :=
    hoptional (by simp) (by simp +contextual [Config.errorBarParts])
  rw [hmembers, ofJson?, Json.fields?, Option.bind_eq_bind, Option.bind_some, hcenter, hextent, hrule, hticks, hbar, hline,
    hpoint]
  rfl

theorem ErrorBandConfig.ofJson?_toJson {c : ErrorBandConfig} (h : c.band.DistinctKeys ∧ c.borders.DistinctKeys) :
    ofJson? c.toJson = some c := by
  obtain ⟨members, hmembers⟩ : ∃ members : Members, c.toJson = .obj members := ⟨_, rfl⟩
  have hw : Members.Written members _ ∅ :=
    ⟨(Json.obj.inj hmembers).symm, (by decide : fieldNames.Nodup), Object.free_empty _⟩
  have hcenter : members.required? "center" (Json.name? Center.ofName?) = some c.center :=
    (hw.required? (j := .str c.center.name) (by simp)).trans c.center.ofName?_name
  have hextent : members.optional? "extent" Extent.ofJson? = some c.extent :=
    hw.optional? Extent.toJson (by simp) (fun e _ => e.ofJson?_toJson) (fun e _ => e.toJson_ne_null)
  have hband : members.required? "band" PartSetting.ofJson? = some c.band :=
    (hw.required? (j := c.band.toJson) (by simp)).trans (PartSetting.ofJson?_toJson h.1)
  have hborders : members.required? "borders" PartSetting.ofJson? = some c.borders :=
    (hw.required? (j := c.borders.toJson) (by simp)).trans (PartSetting.ofJson?_toJson h.2)
  have hinterpolate : members.optional? "interpolate" Json.string? = some c.interpolate :=
    hw.optional? .str (by simp) (fun _ _ => rfl) (by simp)
  have htension : members.optional? "tension" Json.double? = some c.tension :=
    hw.optional? .ofDouble (by simp) (fun _ _ => rfl) (by simp [Json.ofDouble])
  rw [hmembers, ofJson?, Json.fields?, Option.bind_eq_bind, Option.bind_some, hcenter, hextent, hband, hborders,
    hinterpolate, htension]
  rfl

namespace Config

/-- The sections of a configuration, as they are written. -/
def sections (c : Config) : List (String × Option Json) :=
  [("stack", some (.str c.stack.name)),
    ("overlay", some c.overlay.toJson),
    ("box", some c.box.toJson),
    ("boxWhisker", some c.boxWhisker.toJson),
    ("boxMid", some c.boxMid.toJson),
    ("errorbar", some c.errorbar.toJson),
    ("errorband", some c.errorband.toJson)]

theorem Legible.written {c : Config} (h : c.Legible) : (Members.ofFields c.sections c.extra).Written c.sections c.extra :=
  ⟨rfl, (by decide : fieldNames.Nodup), h.extra⟩

theorem ofJson?_toJson {c : Config} (h : c.Legible) : ofJson? c.toJson = some c := by
  have hw := h.written
  set members := Members.ofFields c.sections c.extra
  have hstack : members.default? "stack" defaults.stack (Json.name? StackOffset.ofName?) = some c.stack :=
    (hw.default? (j := .str c.stack.name) (by simp [sections]) _).trans c.stack.ofName?_name
  have hoverlay : members.default? "overlay" defaults.overlay OverlayConfig.ofJson? = some c.overlay :=
    (hw.default? (j := c.overlay.toJson) (by simp [sections]) _).trans c.overlay.ofJson?_toJson
  have hbox : members.default? "box" defaults.box BoxConfig.ofJson? = some c.box :=
    (hw.default? (j := c.box.toJson) (by simp [sections]) _).trans (BoxConfig.ofJson?_toJson h.box)
  have hwhisker : members.default? "boxWhisker" defaults.boxWhisker PartSetting.ofJson? = some c.boxWhisker :=
    (hw.default? (j := c.boxWhisker.toJson) (by simp [sections]) _).trans (PartSetting.ofJson?_toJson h.boxWhisker)
  have hmid : members.default? "boxMid" defaults.boxMid PartSetting.ofJson? = some c.boxMid :=
    (hw.default? (j := c.boxMid.toJson) (by simp [sections]) _).trans (PartSetting.ofJson?_toJson h.boxMid)
  have hbar : members.default? "errorbar" defaults.errorbar ErrorBarConfig.ofJson? = some c.errorbar :=
    (hw.default? (j := c.errorbar.toJson) (by simp [sections]) _).trans (ErrorBarConfig.ofJson?_toJson h.errorbar)
  have hband : members.default? "errorband" defaults.errorband ErrorBandConfig.ofJson? = some c.errorband :=
    (hw.default? (j := c.errorband.toJson) (by simp [sections]) _).trans (ErrorBandConfig.ofJson?_toJson h.errorband)
  have hextra : members.others fieldNames = c.extra := hw.others
  change ofJson? (.obj members) = some c
  rw [ofJson?, Json.members?, Option.bind_eq_bind, Option.bind_some, hstack, hoverlay, hbox, hwhisker, hmid, hbar, hband,
    hextra]
  rfl

end Config

end ChartNormal
