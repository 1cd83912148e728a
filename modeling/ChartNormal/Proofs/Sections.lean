import ChartNormal.Proofs.Composite.Parts
import ChartNormal.Proofs.Lockstep

/-!
# Sections of the configuration

Each standard composite mark reads its own sections of the configuration and no other: the settings of its parts are
never looked up among the unknown sections, since each of its parts has a setting in a known one (`Config.AgreeOn.part?`).
Primitive marks read nothing but the overlays. So normalization depends on the overlays and on the sections of the
composite marks that are used (`normalize_congr`).
-/

namespace ChartNormal

/-- The same sections for the composite mark with this tag. Of a primitive mark nothing is asked. -/
structure Config.AgreeOn (tag : String) (c c' : Config) : Prop where
  boxPlot : tag = BoxPlot.tag → c.box = c'.box ∧ c.boxWhisker = c'.boxWhisker ∧ c.boxMid = c'.boxMid
  errorBar : tag = ErrorBar.tag → c.errorbar = c'.errorbar
  errorBand : tag = ErrorBand.tag → c.errorband = c'.errorband

variable {c c' : Config}

/-! ### The settings of a part -/

open Composite in
/-- The setting of a registered part stands in a section of its mark. -/
theorem Config.AgreeOn.part? {tag part : String} {mark : CompositeMark} (h : c.AgreeOn tag c')
    (hmark : Registry.standard.get? tag = some mark) (hpart : part ∈ mark.parts) : c.part? tag part = c'.part? tag part := by
  rw [get?_standard] at hmark
  split at hmark
  · next htag =>
    obtain rfl := Option.some.inj hmark
    obtain ⟨hbox, hwhisker, hmid⟩ := h.boxPlot htag
    simp only [BoxPlot.parts, List.mem_cons, List.not_mem_nil, or_false] at hpart
    rcases hpart with rfl | rfl | rfl <;> simp [Config.part?, htag, BoxPlot.tag, hbox, hwhisker, hmid]
  split at hmark
  · next htag =>
    obtain rfl := Option.some.inj hmark
    have hband := h.errorBand htag
    simp only [ErrorBand.parts, List.mem_cons, List.not_mem_nil, or_false] at hpart
    rcases hpart with rfl | rfl <;> simp [Config.part?, htag, ErrorBand.tag, hband]
  split at hmark
  · next htag =>
    obtain rfl := Option.some.inj hmark
    have hbar := h.errorBar htag
    simp only [ErrorBar.parts, List.mem_cons, List.not_mem_nil, or_false] at hpart
    rcases hpart with rfl | rfl | rfl | rfl | rfl <;> simp [Config.part?, htag, ErrorBar.tag, hbar]
  · cases hmark

namespace Composite

section Part

variable {p : Composite} {part : String} (h : c.part? p.tag part = c'.part? p.tag part)

include h

theorem isDrawn_congr : p.isDrawn c part = p.isDrawn c' part := by
  rw [isDrawn, isDrawn, h]

theorem partMark_congr (base : MarkDef) : p.partMark c part base = p.partMark c' part base := by
  rw [partMark, partMark, partProps_eq, partProps_eq, h]

end Part

theorem Drawing.unit_congr {p : Composite} {d : Drawing} (h : c.part? p.tag d.part = c'.part? p.tag d.part) :
    d.unit p c = d.unit p c' := by
  rw [Drawing.unit, Drawing.unit, partUnit, partUnit, partMark_congr h]

theorem layer_of_drawings {p : Composite} {drawings : List Drawing}
    (hdrawn : ∀ d ∈ drawings, p.isDrawn c d.part = p.isDrawn c' d.part)
    (hunit : ∀ d ∈ drawings, d.unit p c = d.unit p c') (u : UnitSpec) (columns : List AggregateColumn)
    (calculates : List CalculateStage) :
    p.layer c u drawings columns calculates = p.layer c' u drawings columns calculates := by
  have hfilter : drawings.filter (p.isDrawn c ·.part) = drawings.filter (p.isDrawn c' ·.part) := List.filter_congr hdrawn
  have hunits : (drawings.filter (p.isDrawn c' ·.part)).mapM (Drawing.unit p c) =
      (drawings.filter (p.isDrawn c' ·.part)).mapM (Drawing.unit p c') :=
    mapM_congr fun d hd => hunit d (List.mem_filter.1 hd).1
  change List.mapM (Drawing.unit p c) _ >>= _ = List.mapM (Drawing.unit p c') _ >>= _
  rw [hfilter, hunits]

theorem layer_congr {p : Composite} {drawings : List Drawing}
    (h : ∀ d ∈ drawings, c.part? p.tag d.part = c'.part? p.tag d.part) (u : UnitSpec) (columns : List AggregateColumn)
    (calculates : List CalculateStage) :
    p.layer c u drawings columns calculates = p.layer c' u drawings columns calculates :=
  layer_of_drawings (fun d hd => isDrawn_congr (h d hd)) (fun d hd => Drawing.unit_congr (h d hd)) u columns calculates

/-! ### The standard marks -/

namespace Recipe

variable {r : Recipe} (hr : r ∈ all) (h : c.AgreeOn r.tag c')

include hr h

theorem part?_congr {p : Composite} {d : Drawing} (hd : d ∈ r.drawings p c') :
    c.part? r.tag d.part = c'.part? r.tag d.part := by
  obtain ⟨mark, hmark, hpart⟩ := part_registered hr hd
  exact h.part? hmark hpart

theorem warnings_congr (p : Composite) : r.warnings p c = r.warnings p c' := by
  rcases mem_all_iff.1 hr with rfl | rfl | rfl
  · obtain ⟨hbox, -, -⟩ := h.boxPlot rfl
    simp only [boxPlot, BoxPlot.whiskerWarnings, BoxPlot.requested, hbox]
  · simp only [errorBar, h.errorBar rfl]
  · simp only [errorBand, ErrorBand.interpolationWarnings, ErrorBand.interpolation, h.errorBand rfl]

theorem drawings_congr (p : Composite) : r.drawings p c = r.drawings p c' := by
  rcases mem_all_iff.1 hr with rfl | rfl | rfl
  · obtain ⟨hbox, -, -⟩ := h.boxPlot rfl
    -- the encoding of the middle reads the setting of the part too, for its color
    have hmid : c.part? BoxPlot.tag "boxMid" = c'.part? BoxPlot.tag "boxMid" :=
      h.part? (get?_standard _) (by decide)
    simp only [boxPlot, BoxPlot.drawings, BoxPlot.boxEncoding, BoxPlot.midEncoding, BoxPlot.midColor, BoxPlot.size, hbox,
      hmid]
  · rfl
  · simp only [errorBand, ErrorBand.drawings, ErrorBand.base, ErrorBand.interpolation, h.errorBand rfl]

theorem columns_congr {p : Composite} (htag : p.tag = r.tag) : r.columns p c = r.columns p c' := by
  rcases mem_all_iff.1 hr with rfl | rfl | rfl
  · obtain ⟨hbox, -, -⟩ := h.boxPlot rfl
    simp only [boxPlot, BoxPlot.whisker, BoxPlot.requested, hbox]
  · -- the center is a column only where a part draws it
    have hcenter : ErrorBar.drawsCenter p c = ErrorBar.drawsCenter p c' := by
      have hline : c.part? p.tag "line" = c'.part? p.tag "line" := htag ▸ h.part? (get?_standard _) (by decide)
      have hpoint : c.part? p.tag "point" = c'.part? p.tag "point" := htag ▸ h.part? (get?_standard _) (by decide)
      rw [ErrorBar.drawsCenter, ErrorBar.drawsCenter, isDrawn_congr hline, isDrawn_congr hpoint]
    simp only [errorBar, barInterval, h.errorBar rfl, hcenter]
  · simp only [errorBand, bandInterval, h.errorBand rfl]

theorem calculates_congr (p : Composite) : r.calculates p c = r.calculates p c' := by
  rcases mem_all_iff.1 hr with rfl | rfl | rfl
  · obtain ⟨hbox, -, -⟩ := h.boxPlot rfl
    simp only [boxPlot, BoxPlot.whisker, BoxPlot.requested, hbox]
  · simp only [errorBar, barInterval, h.errorBar rfl]
  · simp only [errorBand, bandInterval, h.errorBand rfl]

/-- A composite mark is expanded alike where its own sections are the same. -/
theorem expand_congr {u : UnitSpec} (htag : u.mark.type = r.tag) : r.expand u c = r.expand u c' := by
  rw [expand, expand]
  refine Report.bind_congr fun p ws hp => ?_
  have hp : p.tag = r.tag := by
    obtain ⟨o, d, field, -, -, -, rfl⟩ := resolve_eq_noted hp
    exact (type_toDef u.mark).trans htag
  rw [warnings_congr hr h, drawings_congr hr h, columns_congr hr h hp, calculates_congr hr h]
  refine Report.bind_congr fun _ _ _ => ?_
  rw [layer_congr fun d hd => hp ▸ part?_congr hr h hd]

end Recipe

end Composite

namespace Normalizer

open Composite

variable {u : UnitSpec}

/-! ### Runs -/

theorem settle_congr (h : c.overlay = c'.overlay) (u : UnitSpec) (m : Primitive) : u.settle c m = u.settle c' m := by
  have hoverlays : u.overlays c m = u.overlays c' m := by
    unfold UnitSpec.overlays
    rw [h]
  unfold UnitSpec.settle
  rw [hoverlays]

theorem settled_congr (h : c.overlay = c'.overlay) (u : UnitSpec) : u.settled c = u.settled c' := by
  unfold UnitSpec.settled
  split
  · exact settle_congr h u _
  · rfl

theorem expansion_congr (hoverlay : c.overlay = c'.overlay) {r : Recipe} (hr : Recipe.ofTag? u.mark.type = some r)
    (hexpand : r.expand u c = r.expand u c') : expansion c u = expansion c' u := by
  cases he : r.expand u c with
  | fail e =>
    have hfail : (expansion c u).failure? = some e := by rw [failure?_expansion hr, he]; rfl
    have hfail' : (expansion c' u).failure? = some e := by rw [failure?_expansion hr, ← hexpand, he]; rfl
    rw [Report.failure?_eq_some_iff.1 hfail, Report.failure?_eq_some_iff.1 hfail']
  | noted l ws =>
    obtain ⟨units, hl, hunits⟩ := parts_of_expand (Recipe.mem_all_of_ofTag? hr).1 he
    rw [expansion_eq hr he hl hunits, expansion_eq hr (hexpand ▸ he) hl hunits]
    simp only [settled_congr hoverlay]

theorem flatUnit_congr (hoverlay : c.overlay = c'.overlay)
    (h : ∀ r, Recipe.ofTag? u.mark.type = some r → r.expand u c = r.expand u c') :
    (standard c).flatUnit (expansion c) u = (standard c').flatUnit (expansion c') u := by
  rw [flatUnit_standard, flatUnit_standard]
  cases hr : Recipe.ofTag? u.mark.type with
  | some r => exact expansion_congr hoverlay hr (h r hr)
  | none =>
    cases u.mark.primitive? with
    | some m => simp only [settle_congr hoverlay]
    | none => rfl

/-- Runs that expand each composite mark alike are the same. -/
theorem normalize_of_expand (hoverlay : c.overlay = c'.overlay) {s : Spec}
    (h : ∀ u ∈ s.leaves, ∀ v : UnitSpec, v.mark = u.mark → ∀ r, Recipe.ofTag? u.mark.type = some r →
      r.expand v c = r.expand v c') : (standard c).normalize s = (standard c').normalize s := by
  have hrun : Report.Rel (· = ·) ((standard c).normalize s) ((standard c').normalize (s.mapMarks id)) := by
    refine spec_lockstep Spec.congruent_eq (fun u hu scope => Report.rel_eq_iff.2 ?_) .top
    have hmark := u.mark_flattened scope
    exact flatUnit_congr hoverlay fun r hr => h u hu _ hmark r (hmark ▸ hr)
  rw [s.mapMarks_id] at hrun
  exact Report.rel_eq_iff.1 hrun

theorem normalize_congr (hoverlay : c.overlay = c'.overlay) {s : Spec}
    (h : ∀ u ∈ s.leaves, c.AgreeOn u.mark.type c') : (standard c).normalize s = (standard c').normalize s := by
  refine normalize_of_expand hoverlay fun u hu v hv r hr => ?_
  obtain ⟨hmem, htag⟩ := Recipe.mem_all_of_ofTag? hr
  exact Recipe.expand_congr hmem (htag ▸ h u hu) (hv ▸ htag.symm)

/-- **Sections act where they apply.** Under the same overlays, configurations that agree on the sections of every
composite mark in use give the same result, or fail alike. So the stack offset and the unknown sections never count. -/
theorem normalize_of_agreeing_sections :
    (∀ (c c' : Config) (s : Spec), c.overlay = c'.overlay → (∀ u ∈ s.leaves, c.AgreeOn u.mark.type c') →
        (standard c).normalize s = (standard c').normalize s) ∧
      ∀ (c : Config) (s : Spec) (stack : StackOffset) (extra : Object),
        (standard { c with stack, extra }).normalize s = (standard c).normalize s := by
  refine ⟨fun c c' s hoverlay h => normalize_congr hoverlay h, fun c s stack extra => ?_⟩
  have hagree : ∀ u ∈ s.leaves, Config.AgreeOn u.mark.type { c with stack, extra } c :=
    fun u _ => ⟨fun _ => ⟨rfl, rfl, rfl⟩, fun _ => rfl, fun _ => rfl⟩
  refine normalize_congr ?_ hagree
  rfl

/-- Error bars over a line, under configurations that differ in all sections but those of error bars. An unknown section
with the tag of a mark does not count either. A box plot under the same two loses its middle. -/
theorem normalize_of_agreeing_sections_bars :
    let y : Channel × ChannelDef := (.y, .field { field := some "yield", type := .quantitative })
    let bars : Spec := .layer []
      [.unit { mark := .tag "errorbar", encoding := .ofList [y] }, .unit { mark := .tag "line", encoding := .ofList [y] }] ∅
    let box : Spec := .unit { mark := .tag "box-plot", encoding := .ofList [y] }
    let other : Config :=
      { stack := .normalize
        box := { size := .ofInt 3, color := some "red" }
        boxMid := .flag false
        errorband := { borders := .flag true }
        extra := .ofList [("errorbar", .obj [("bar", .bool true)])] }
    (∃ t ws, (standard .defaults).normalize bars = .noted t ws ∧ (standard other).normalize bars = .noted t ws) ∧
      Except.map (·.1.leaves.length) ((standard .defaults).normalize box) = .ok 4 ∧
      Except.map (·.1.leaves.length) ((standard other).normalize box) = .ok 3 := by
  intro y bars box other
  have hagree : ∀ u ∈ bars.leaves, Config.defaults.AgreeOn u.mark.type other := by
    intro u hu
    rcases List.mem_pair.1 (show u ∈ [_, _] from hu) with rfl | rfl
    · exact ⟨fun h => absurd h (by decide), fun _ => rfl, fun h => absurd h (by decide)⟩
    · exact ⟨fun h => absurd h (by decide), fun h => absurd h (by decide), fun h => absurd h (by decide)⟩
  have hsuccess : ((standard .defaults).normalize bars).failure? = none := by decide +kernel +zetaReduce
  obtain ⟨t, ws, h⟩ := Report.failure?_eq_none_iff.1 hsuccess
  refine ⟨⟨t, ws, h, ?_⟩, by decide +kernel, by decide +kernel⟩
  rw [← normalize_of_agreeing_sections.1 .defaults other bars rfl hagree]
  exact h

end Normalizer

end ChartNormal
