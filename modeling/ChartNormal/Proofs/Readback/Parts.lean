import ChartNormal.Proofs.Composite.Parts
import ChartNormal.Proofs.Composite.Precedence
import ChartNormal.Proofs.Readback.Node

/-!
# Parts of composite marks that read back

The parts that a composite mark is drawn with, and the pipeline below them, are legible where the mark itself is
(`legible_of_drawing`, `legible_pipeline`). Settings of a configuration go into the marks of parts, so they must have no
repeated keys inside; those of a configuration that is read never have (`Config.distinctKeys_of_ofJson?`).
-/

namespace ChartNormal

/-! ### Settings -/

def PartSetting.DistinctKeys (s : PartSetting) : Prop := (Json.ofObject s.props).distinctKeys = true

instance (s : PartSetting) : Decidable s.DistinctKeys := inferInstanceAs (Decidable (_ = true))

/-- The settings of parts have no repeated keys inside. -/
def Config.DistinctKeys (config : Config) : Prop :=
  ∀ tag part s, config.part? tag part = some s → s.DistinctKeys

theorem Object.Free.distinctKeys {o : Object} {names : List String} (h : Object.Free o names) :
    (Json.ofObject o).distinctKeys = true :=
  Json.distinctKeys_obj_iff.2 ⟨o.nodup, fun e he => (h e he).2⟩

namespace PartSetting

theorem distinctKeys_flag (on : Bool) : (flag on).DistinctKeys := rfl

theorem distinctKeys_of_ofJson? {j : Json} {s : PartSetting} (h : ofJson? j = some s) : s.DistinctKeys := by
  cases j with
  | bool on =>
    obtain rfl := Option.some.inj h
    exact distinctKeys_flag on
  | obj members =>
    obtain rfl := Option.some.inj h
    exact (Members.free_others members []).distinctKeys
  | _ => cases h

theorem distinctKeys_of_required? {members : Members} {key : String} {s : PartSetting}
    (h : members.required? key ofJson? = some s) : s.DistinctKeys := by
  obtain ⟨j, -, hj⟩ := Members.of_required? h
  exact distinctKeys_of_ofJson? hj

theorem distinctKeys_of_optional? {members : Members} {key : String} {x : Option PartSetting}
    (h : members.optional? key ofJson? = some x) : ∀ s ∈ x, s.DistinctKeys := by
  intro s hs
  obtain ⟨j, -, -, hj⟩ := Members.of_optional? h s hs
  exact distinctKeys_of_ofJson? hj

end PartSetting

namespace Config

/-- The parts of a section for error bars, those that are not set left out. -/
def errorBarParts (c : ErrorBarConfig) : List PartSetting :=
  [c.rule, c.ticks] ++ c.bar.toList ++ c.line.toList ++ c.point.toList

theorem distinctKeys_errorBar {j : Json} {c : ErrorBarConfig} (h : ErrorBarConfig.ofJson? j = some c) :
    ∀ s ∈ errorBarParts c, s.DistinctKeys := by
  simp only [ErrorBarConfig.ofJson?, Option.bind_eq_bind, Option.bind_eq_some_iff] at h
  obtain ⟨members, -, _, -, _, -, rule, hrule, ticks, hticks, bar, hbar, line, hline, point, hpoint, h⟩ := h
  obtain rfl := Option.some.inj h
  intro s hs
  simp only [errorBarParts, List.mem_append, List.mem_cons, List.not_mem_nil, or_false, Option.mem_toList] at hs
  rcases hs with (((rfl | rfl) | hs) | hs) | hs
  · exact PartSetting.distinctKeys_of_required? hrule
  · exact PartSetting.distinctKeys_of_required? hticks
  · exact PartSetting.distinctKeys_of_optional? hbar s hs
  · exact PartSetting.distinctKeys_of_optional? hline s hs
  · exact PartSetting.distinctKeys_of_optional? hpoint s hs

theorem distinctKeys_errorBand {j : Json} {c : ErrorBandConfig} (h : ErrorBandConfig.ofJson? j = some c) :
    c.band.DistinctKeys ∧ c.borders.DistinctKeys := by
  simp only [ErrorBandConfig.ofJson?, Option.bind_eq_bind, Option.bind_eq_some_iff] at h
  obtain ⟨members, -, _, -, _, -, band, hband, borders, hborders, _, -, _, -, h⟩ := h
  obtain rfl := Option.some.inj h
  exact ⟨PartSetting.distinctKeys_of_required? hband, PartSetting.distinctKeys_of_required? hborders⟩

/-- No free-form member of a configuration has the name of a field beside it, and no key is repeated inside a setting. -/
structure Legible (c : Config) : Prop where
  box : Object.Free c.box.mark ["size", "extent", "color"]
  boxWhisker : c.boxWhisker.DistinctKeys
  boxMid : c.boxMid.DistinctKeys
  errorbar : ∀ s ∈ errorBarParts c.errorbar, s.DistinctKeys
  errorband : c.errorband.band.DistinctKeys ∧ c.errorband.borders.DistinctKeys
  extra : Object.Free c.extra fieldNames

theorem free_box {j : Json} {c : BoxConfig} (h : BoxConfig.ofJson? j = some c) :
    Object.Free c.mark ["size", "extent", "color"] := by
  simp only [BoxConfig.ofJson?, Option.bind_eq_bind, Option.bind_eq_some_iff] at h
  obtain ⟨members, -, _, -, _, -, _, -, h⟩ := h
  obtain rfl := Option.some.inj h
  exact Members.free_others members _

/-- Every configuration that is read. -/
theorem legible_of_ofJson? {j : Json} {config : Config} (h : ofJson? j = some config) : config.Legible := by
  simp only [ofJson?, Option.bind_eq_bind, Option.bind_eq_some_iff] at h
  obtain ⟨members, -, _, -, _, -, box, hbox, whisker, hwhisker, mid, hmid, bar, hbar, band, hband, h⟩ := h
  obtain rfl := Option.some.inj h
  constructor
  · rcases Members.of_default? hbox with rfl | ⟨_, -, hj⟩
    exacts [Object.free_empty _, free_box hj]
  · rcases Members.of_default? hwhisker with rfl | ⟨_, -, hj⟩
    exacts [rfl, PartSetting.distinctKeys_of_ofJson? hj]
  · rcases Members.of_default? hmid with rfl | ⟨_, -, hj⟩
    exacts [rfl, PartSetting.distinctKeys_of_ofJson? hj]
  · rcases Members.of_default? hbar with rfl | ⟨_, -, hj⟩
    exacts [(by decide : ∀ s ∈ errorBarParts defaults.errorbar, s.DistinctKeys), distinctKeys_errorBar hj]
  · rcases Members.of_default? hband with rfl | ⟨_, -, hj⟩
    exacts [⟨rfl, rfl⟩, distinctKeys_errorBand hj]
  · exact Members.free_others members _

theorem Legible.distinctKeys {config : Config} (h : config.Legible) : config.DistinctKeys := by
  have hbar := h.errorbar
  intro tag part s hs
  unfold part? at hs
  split at hs
  · obtain rfl := Option.some.inj hs
    split
    exacts [rfl, h.box.distinctKeys]
  · exact Option.some.inj hs ▸ h.boxWhisker
  · exact Option.some.inj hs ▸ h.boxMid
  · exact hbar s (by simp [errorBarParts, ← Option.some.inj hs])
  · exact hbar s (by simp [errorBarParts, ← Option.some.inj hs])
  · exact hbar s (by simp [errorBarParts, show config.errorbar.bar = some s from hs])
  · exact hbar s (by simp [errorBarParts, show config.errorbar.line = some s from hs])
  · exact hbar s (by simp [errorBarParts, show config.errorbar.point = some s from hs])
  · exact Option.some.inj hs ▸ h.errorband.1
  · exact Option.some.inj hs ▸ h.errorband.2
  · obtain ⟨_, -, hj⟩ := Option.bind_eq_some_iff.1 hs
    exact PartSetting.distinctKeys_of_ofJson? hj

theorem distinctKeys_of_ofJson? {j : Json} {config : Config} (h : ofJson? j = some config) : config.DistinctKeys :=
  (legible_of_ofJson? h).distinctKeys

theorem distinctKeys_defaults : defaults.DistinctKeys :=
  distinctKeys_of_ofJson? (j := defaults.toJson) (by decide)

end Config

/-! ### Parts -/

namespace Composite

variable {config : Config}

theorem distinctKeys_midColor (h : config.DistinctKeys) : (BoxPlot.midColor config).distinctKeys = true := by
  rw [BoxPlot.midColor]
  cases hcolor : (config.part? BoxPlot.tag "boxMid").bind fun s => s.props.get? "color" with
  | none => rfl
  | some j =>
    obtain ⟨s, hs, hj⟩ := Option.bind_eq_some_iff.1 hcolor
    exact (Json.distinctKeys_obj_iff.1 (h _ _ s hs)).2 _ (OrderedMap.get?_eq_some_iff.1 hj)

theorem legible_size {e : Encoding} (h : e.Legible) (config : Config) : (BoxPlot.size e config).Legible := by
  rw [BoxPlot.size]
  cases hsize : e.get? .size with
  | none => rfl
  | some d => exact h _ (OrderedMap.get?_eq_some_iff.1 hsize)

theorem Recipe.legible_shared {r : Recipe} (hr : r ∈ Recipe.all) (hconfig : config.DistinctKeys) {p : Composite}
    (hp : p.shared.Legible) {d : Drawing} (hd : d ∈ r.drawings p config) : d.shared.Legible := by
  rcases Recipe.mem_all_iff.1 hr with rfl | rfl | rfl
  · simp only [Recipe.boxPlot, BoxPlot.drawings, List.mem_cons, List.not_mem_nil, or_false] at hd
    rcases hd with rfl | rfl | rfl | rfl
    · exact hp.restrict _
    · exact hp.restrict _
    · refine Encoding.Legible.insert ?_ (legible_size hp config)
      split
      · split
        exacts [hp, Encoding.Legible.insert hp rfl]
      · exact hp
    · refine Encoding.Legible.insert ?_ (legible_size hp config)
      exact Encoding.Legible.insert (hp.restrict _) (distinctKeys_midColor hconfig)
  · simp only [Recipe.errorBar, ErrorBar.drawings, List.mem_cons, List.not_mem_nil, or_false] at hd
    rcases hd with rfl | rfl | rfl | rfl | rfl | rfl <;> exact hp
  · simp only [Recipe.errorBand, ErrorBand.drawings, List.mem_cons, List.not_mem_nil, or_false] at hd
    rcases hd with rfl | rfl | rfl <;> exact hp

/-- Flags that are switched off where they are not given are free-form properties like any other. -/
theorem free_switchOff {keys names : List String} (hkeys : ∀ key ∈ keys, key ∉ names) {o : Object}
    (ho : Object.Free o names) : Object.Free (switchOff keys o) names := by
  induction keys generalizing o with
  | nil => exact ho
  | cons key keys ih =>
    rw [switchOff, List.foldl_cons]
    refine ih (fun k hk => hkeys k (List.mem_cons_of_mem _ hk)) ?_
    split
    exacts [ho, ho.insert (hkeys key List.mem_cons_self) rfl]

theorem legible_withoutOverlays {d : MarkDef} (h : d.Legible) : (withoutOverlays d).Legible := by
  rw [withoutOverlays_eq]
  exact free_switchOff (fun _ => not_mem_fieldNames_of_overlayFlags) h

theorem legible_partMark {p : Composite} {part : String} {base d : MarkDef} (h : p.partMark config part base = .ok d) :
    d.Legible := by
  rw [partMark] at h
  split at h
  · next d' hd' =>
    obtain rfl := Except.ok.inj h
    exact legible_withoutOverlays (MarkDef.legible_of_ofMembers? hd')
  · cases h

/-- A part of the axis inherits nothing but the scale and the guide of the axis. -/
theorem legible_partField {a : Axis} (h : a.definition.Legible) (stem : String) : (a.partField stem).Legible where
  bin _ hb := by cases hb
  aggregate _ ha := by cases ha
  scale := h.scale
  axis := h.axis
  legend _ hj := by cases hj
  sort _ hj := by cases hj
  props := Object.free_empty _

theorem legible_endField (a : Axis) (stem : String) : (a.endField stem).Legible where
  bin _ hb := by cases hb
  aggregate _ ha := by cases ha
  scale _ hj := by cases hj
  axis _ hj := by cases hj
  legend _ hj := by cases hj
  sort _ hj := by cases hj
  props := Object.free_empty _

theorem legible_partEncoding {p : Composite} (haxis : p.axis.definition.Legible) {shared : Encoding}
    (hshared : shared.Legible) (start : String) (stop : Option String) :
    (p.partEncoding start stop shared).Legible := by
  intro b hb
  rcases mem_partEncoding hb with hb | rfl | ⟨s, -, rfl⟩
  · exact hshared b hb
  · exact legible_partField haxis start
  · exact legible_endField p.axis s

theorem legible_of_drawing {r : Recipe} (hr : r ∈ Recipe.all) (hconfig : config.DistinctKeys) {p : Composite}
    (haxis : p.axis.definition.Legible) (hp : p.shared.Legible) {d : Drawing} (hd : d ∈ r.drawings p config)
    {v : UnitSpec} (hv : d.unit p config = .ok v) : v.Legible := by
  obtain ⟨m, hm⟩ := Recipe.primitive_base hr hd
  obtain ⟨mark, hmark, -, rfl⟩ := Drawing.unit_eq_ok hm hv
  have hencoding : (p.partEncoding d.start d.stop d.shared).Legible :=
    legible_partEncoding haxis (r.legible_shared hr hconfig hp hd) d.start d.stop
  exact UnitSpec.legible_of_bare (legible_partMark hmark) (hencoding.restrict _)

theorem legible_pipeline {p : Composite} {before : List Transform} (hbefore : ∀ t ∈ before, t.Legible)
    (hbins : ∀ s ∈ p.extraction.bins, Bin.ofJson? s.bin.toJson = some s.bin) (columns : List AggregateColumn)
    (calculates : List CalculateStage) : ∀ t ∈ p.pipeline before columns calculates, t.Legible := by
  intro t ht
  simp only [pipeline, List.mem_append, List.mem_cons, List.mem_map] at ht
  rcases ht with ((ht | ⟨s, hs, rfl⟩) | ⟨s, -, rfl⟩) | rfl | ⟨s, -, rfl⟩
  · exact hbefore t ht
  · exact Transform.legible_bin (hbins s hs)
  · exact Transform.legible_timeUnit s
  · exact Transform.legible_aggregate ..
  · exact Transform.legible_calculate s

/-- The axis of a legible unit, and what its parts share. -/
theorem legible_along {u : UnitSpec} (hu : u.Legible) {o : Orient} {d : FieldDef}
    (hd : (accepted u.encoding).field? o.continuous = some d) (field : String) :
    (along u o d field).axis.definition.Legible ∧ (along u o d field).shared.Legible ∧
      ∀ s ∈ (along u o d field).extraction.bins, Bin.ofJson? s.bin.toJson = some s.bin := by
  have haccepted : (accepted u.encoding).Legible := hu.encoding.restrict _
  have hlegible := haccepted.field? hd
  have hrest : ((accepted u.encoding).without [o.continuous]).Legible := haccepted.restrict _
  refine ⟨?_, hrest.extract, hrest.bins⟩
  exact { hlegible with aggregate := fun a ha => by cases ha }

end Composite

end ChartNormal
