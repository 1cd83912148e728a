import ChartNormal.Proofs.NormalForm
import ChartNormal.Proofs.Validity
import ChartNormal.Proofs.Transpose.Expansion

/-!
# Normalizing the transposed chart

Every step of a run commutes with transposition, so normalizing the transposed chart gives the transposed result, with the
warnings about the transposed channels, and fails where normalizing the chart fails (`normalize_transposed`). What is
asked of a unit is that its composite mark, if it has one, can be transposed (`Composite.Transposable`).
-/

namespace ChartNormal

/-! ### Units -/

namespace UnitSpec

theorem overlays_transpose (u : UnitSpec) (config : Config) (m : Primitive) :
    u.transpose.overlays config m = u.overlays config m := by
  have hflag : ∀ name, (u.transpose.mark.def?.bind (·.flag? name)) = u.mark.def?.bind (·.flag? name) := by
    intro name
    rw [transpose]
    cases u.mark <;> rfl
  unfold overlays
  simp only [hflag]

theorem overlaidMark_transpose (u : UnitSpec) (m : Primitive) :
    u.transpose.overlaidMark m = (u.overlaidMark m).transpose := by
  rw [overlaidMark, overlaidMark, transpose, Mark.toDef_transpose]
  split <;> rfl

theorem drawn_transpose (u : UnitSpec) (m : Primitive) : u.transpose.drawn m = (u.drawn m).transpose := by
  rw [drawn, drawn, ← Encoding.settle_transpose, ← Encoding.promoteSecondary_transpose]
  rfl

theorem lineOverlay_transpose (color : Option String) (e : Encoding) :
    lineOverlay color e.transpose = (lineOverlay color e).transpose :=
  congrArg (fun e => { lineOverlay color ∅ with encoding := e }) (e.supportedBy_transpose .line)

theorem pointOverlay_transpose (color : Option String) (e : Encoding) :
    pointOverlay color e.transpose = (pointOverlay color e).transpose :=
  congrArg (fun e => { pointOverlay color ∅ with encoding := e }) (e.supportedBy_transpose .point)

theorem settle_transpose (u : UnitSpec) (config : Config) (m : Primitive) :
    u.transpose.settle config m = (u.settle config m).transpose := by
  have hdrawn : (u.transpose.encoding.promoteSecondary).settle m = (u.drawn m).transpose := u.drawn_transpose m
  have hcolor : (u.overlaidMark m).transpose.color = (u.overlaidMark m).color := rfl
  unfold settle
  simp only [overlays_transpose, overlaidMark_transpose, hdrawn, hcolor, lineOverlay_transpose, pointOverlay_transpose]
  rcases u.overlays config m with ⟨line, point⟩
  cases line <;> cases point <;> rfl

theorem settleWarnings_transpose (u : UnitSpec) (m : Primitive) :
    u.transpose.settleWarnings m = (u.settleWarnings m).map Warning.transpose := by
  rw [settleWarnings, settleWarnings, ← Encoding.settleWarnings_transpose, ← Encoding.promoteSecondary_transpose]
  rfl

theorem settled_transpose (u : UnitSpec) (config : Config) :
    u.transpose.settled config = (u.settled config).transpose := by
  have hmark : u.transpose.mark.primitive? = u.mark.primitive? := u.mark.primitive?_transpose
  rw [settled, settled, hmark]
  cases u.mark.primitive? with
  | none => rfl
  | some m => exact u.settle_transpose config m

theorem settledWarnings_transpose (u : UnitSpec) :
    u.transpose.settledWarnings = u.settledWarnings.map Warning.transpose := by
  have hmark : u.transpose.mark.primitive? = u.mark.primitive? := u.mark.primitive?_transpose
  rw [settledWarnings, settledWarnings, hmark]
  cases u.mark.primitive? with
  | none => rfl
  | some m => exact u.settleWarnings_transpose m

/-! ### Rows and columns -/

theorem hasFacetChannel_transpose (u : UnitSpec) : u.transpose.hasFacetChannel = u.hasFacetChannel := by
  have hchannels : u.transpose.encoding.channels = u.encoding.channels.map Channel.transpose :=
    u.encoding.channels_transpose
  rw [hasFacetChannel, hasFacetChannel, hchannels, List.any_map]
  exact congrArg _ (funext Channel.isFacet_transpose)

theorem without_facets_transpose (u : UnitSpec) :
    u.transpose.encoding.without [.row, .column] = (u.encoding.without [.row, .column]).transpose :=
  u.encoding.without_transpose [.row, .column]

theorem cell_transpose (u : UnitSpec) : u.transpose.cell = u.cell.transpose := by
  rw [cell, without_facets_transpose]
  rfl

theorem withoutFacets_transpose (u : UnitSpec) : u.transpose.withoutFacets = u.withoutFacets.transpose := by
  rw [withoutFacets, without_facets_transpose]
  rfl

/-- Rows and columns stay where they are. -/
theorem facetField?_transpose (u : UnitSpec) {c : Channel} (hc : c.transpose = c) :
    u.transpose.facetField? c = u.facetField? c := by
  have hfield := u.encoding.field?_transpose c
  rw [hc] at hfield
  exact congrArg (Option.filter FieldDef.hasField) hfield

theorem contains_transpose (u : UnitSpec) {c : Channel} (hc : c.transpose = c) :
    u.transpose.encoding.contains c = u.encoding.contains c := by
  have hcontains := u.encoding.contains_transpose c
  rwa [hc] at hcontains

theorem facetMapping_transpose (u : UnitSpec) : u.transpose.facetMapping = u.facetMapping := by
  rw [facetMapping, facetMapping, u.facetField?_transpose rfl, u.facetField?_transpose rfl]

theorem emptyFacets_transpose (u : UnitSpec) : u.transpose.emptyFacets = u.emptyFacets := by
  simp only [emptyFacets, List.filter_cons, List.filter_nil, u.contains_transpose (c := .row) rfl,
    u.contains_transpose (c := .column) rfl, u.facetField?_transpose (c := .row) rfl,
    u.facetField?_transpose (c := .column) rfl]

theorem facets_transpose (u : UnitSpec) : u.transpose.facets = u.facets := by
  simp only [facets, List.filter_cons, List.filter_nil, u.contains_transpose (c := .row) rfl,
    u.contains_transpose (c := .column) rfl]

end UnitSpec

namespace Normalizer

open Composite

variable {config : Config} {u : UnitSpec}

/-! ### Runs -/

/-- Rows and columns are not among the channels that a composite mark accepts. -/
theorem transposable_congr {v : UnitSpec} (h : Transposable config u) (hmark : v.mark = u.mark)
    (he : v.encoding = u.encoding.without [.row, .column]) : Transposable config v := by
  rw [Transposable, hmark, he, accepted_without]
  exact h

theorem expansion_transpose {r : Recipe} (hr : Recipe.ofTag? u.mark.type = some r) (hu : Transposable config u) :
    expansion config u.transpose = (expansion config u).transposeBy Spec.transpose := by
  have hr' : Recipe.ofTag? u.transpose.mark.type = some r := by
    rw [← hr]
    exact congrArg _ u.mark.type_transpose
  obtain ⟨hmem, htag⟩ := Recipe.mem_all_of_ofTag? hr
  have hexpand := Recipe.expand_transpose hmem htag.symm hu
  cases h : r.expand u config with
  | fail e =>
    have hfail : (expansion config u).failure? = some e := by rw [failure?_expansion hr, h]; rfl
    have hfail' : (expansion config u.transpose).failure? = some e.transpose := by
      rw [failure?_expansion hr', hexpand, h]; rfl
    rw [Report.failure?_eq_some_iff.1 hfail, Report.failure?_eq_some_iff.1 hfail']
    rfl
  | noted l ws =>
    obtain ⟨units, hl, hunits⟩ := parts_of_expand hmem h
    rw [h, Report.transposeBy_noted] at hexpand
    have hl' : l.transpose.layers = (units.map UnitSpec.transpose).map .unit := by
      rw [LayerSpec.transpose, hl, List.map_map, List.map_map]
      rfl
    obtain ⟨units', hl'', hunits'⟩ := parts_of_expand hmem hexpand
    obtain rfl : units.map UnitSpec.transpose = units' :=
      List.map_injective_iff.2 (fun _ _ h => Spec.unit.inj h) (hl'.symm.trans hl'')
    rw [expansion_eq hr' hexpand hl' hunits', expansion_eq hr h hl hunits, Report.transposeBy_noted,
      Spec.transpose_layer, List.map_append, List.map_map, List.map_map, List.flatMap_map, List.map_flatMap]
    simp only [Function.comp_def, UnitSpec.settled_transpose, UnitSpec.settledWarnings_transpose]
    rfl

theorem flatUnit_transpose (hu : Transposable config u) :
    (standard config).flatUnit (expansion config) u.transpose =
      ((standard config).flatUnit (expansion config) u).transposeBy Spec.transpose := by
  have htype : u.transpose.mark.type = u.mark.type := u.mark.type_transpose
  have hmark : u.transpose.mark.primitive? = u.mark.primitive? := u.mark.primitive?_transpose
  rw [flatUnit_standard, flatUnit_standard, htype, hmark]
  cases hr : Recipe.ofTag? u.mark.type with
  | some r => exact expansion_transpose hr hu
  | none =>
    cases u.mark.primitive? with
    | none => rfl
    | some m =>
      show Report.noted _ _ = Report.noted _ _
      rw [u.settle_transpose, u.settleWarnings_transpose]

/-- The warnings about dropped rows and columns are the same for the transposed chart. -/
theorem facetDropped_bind (drop : Channel → Bool) (r : Report Spec) :
    (Report.noted () (([.row, .column].filter drop).map .facetDropped) >>= fun _ => r.transposeBy Spec.transpose) =
      (Report.noted () (([.row, .column].filter drop).map .facetDropped) >>= fun _ => r).transposeBy Spec.transpose := by
  have hwarnings : (([.row, .column].filter drop).map Warning.facetDropped).map Warning.transpose =
      ([.row, .column].filter drop).map Warning.facetDropped := by
    rw [List.map_map]
    refine List.map_congr_left fun c hc => ?_
    have hfacet := (List.mem_filter.1 hc).1
    revert hfacet
    cases c <;> decide
  conv_lhs => rw [← hwarnings, ← Report.transposeBy_noted id ()]
  exact Report.transposeBy_bind fun _ _ _ => rfl

theorem unit_transpose (scope : Scope) (hu : Transposable config u) :
    (standard config).unit (expansion config) scope u.transpose =
      ((standard config).unit (expansion config) scope u).transposeBy Spec.transpose := by
  rw [unit, unit, u.hasFacetChannel_transpose]
  cases hf : u.hasFacetChannel with
  | false => exact flatUnit_transpose hu
  | true =>
    simp only [Bool.not_true, Bool.false_eq_true, if_false]
    by_cases hscope : scope = .top
    · have hcell : Transposable config u.cell := transposable_congr hu rfl rfl
      rw [if_pos hscope, if_pos hscope, u.emptyFacets_transpose, u.cell_transpose, flatUnit_transpose hcell,
        u.facetMapping_transpose]
      refine Eq.trans ?_ (facetDropped_bind ..)
      refine congrArg (Report.noted () (u.emptyFacets.map .facetDropped) >>= ·) (funext fun _ => ?_)
      exact Report.transposeBy_bind fun t _ _ => rfl
    · have hrest : Transposable config u.withoutFacets := transposable_congr hu rfl rfl
      rw [if_neg hscope, if_neg hscope, u.facets_transpose, u.withoutFacets_transpose, flatUnit_transpose hrest]
      exact facetDropped_bind ..

theorem specs_transpose {layers : List Spec}
    (h : ∀ s ∈ layers, (standard config).spec (expansion config) .layer s.transpose =
      ((standard config).spec (expansion config) .layer s).transposeBy Spec.transpose) :
    (standard config).specs (expansion config) (layers.map Spec.transpose) =
      ((standard config).specs (expansion config) layers).transposeBy (List.map Spec.transpose) := by
  induction layers with
  | nil => rfl
  | cons s rest ih =>
    have hrest := ih fun s hs => h s (List.mem_cons_of_mem _ hs)
    rw [List.map_cons, specs_cons, specs_cons, h s List.mem_cons_self, hrest]
    refine Report.transposeBy_bind fun t _ _ => ?_
    exact Report.transposeBy_bind fun ts _ _ => rfl

theorem spec_transpose {s : Spec} (scope : Scope) (hs : ∀ u ∈ s.leaves, Transposable config u) :
    (standard config).spec (expansion config) scope s.transpose =
      ((standard config).spec (expansion config) scope s).transposeBy Spec.transpose := by
  induction s generalizing scope with
  | unit u =>
    rw [Spec.transpose_unit, spec, spec]
    exact unit_transpose scope (hs u (by simp))
  | layer transform layers outer ih =>
    have hlayers : ∀ s ∈ layers, ∀ u ∈ s.leaves, Transposable config u := by
      intro s hmem u hu
      exact hs u (by rw [Spec.leaves_layer]; exact List.mem_flatMap.2 ⟨s, hmem, hu⟩)
    rw [Spec.transpose_layer, spec, spec, specs_transpose fun s hmem => ih s hmem .layer (hlayers s hmem)]
    refine Report.transposeBy_bind fun ts _ _ => ?_
    rw [Report.transposeBy_pure, Spec.transpose_layer]
  | facet transform mapping child outer ih =>
    cases scope with
    | top =>
      rw [Spec.transpose_facet, spec, spec, ih .facet hs]
      exact Report.transposeBy_bind fun t _ _ => rfl
    | layer => rfl
    | facet => rfl

/-- **Transposition.** Normalizing the transposed chart succeeds exactly where normalizing the chart does, and returns the
transposed result with the warnings about the transposed channels. -/
theorem normalize_transposed {s : Spec} (hs : ∀ u ∈ s.leaves, Transposable config u) :
    ((∃ t ws, (standard config).normalize s.transpose = .noted t ws) ↔
        ∃ t ws, (standard config).normalize s = .noted t ws) ∧
      ∀ t ws, (standard config).normalize s = .noted t ws →
        (standard config).normalize s.transpose = .noted t.transpose (ws.map Warning.transpose) := by
  have hrun : (standard config).normalize s.transpose = ((standard config).normalize s).transposeBy Spec.transpose :=
    spec_transpose .top hs
  rw [hrun]
  cases (standard config).normalize s with
  | fail e =>
    refine ⟨iff_of_false ?_ ?_, ?_⟩
    · rintro ⟨t, ws, h⟩
      cases h
    · rintro ⟨t, ws, h⟩
      cases h
    · intro t ws h
      cases h
  | noted t ws =>
    refine ⟨iff_of_true ⟨_, _, rfl⟩ ⟨_, _, rfl⟩, fun t' ws' h => ?_⟩
    obtain ⟨rfl, rfl⟩ := Report.noted_inj.1 h
    rfl

/-- Two continuous axes, between which the mark decides, over a rule with the far end of a range only. -/
theorem normalize_transposed_boxPlot :
    let a : ChannelDef := .field { field := some "a", type := .quantitative }
    let b : ChannelDef := .field { field := some "b", type := .quantitative }
    let box : UnitSpec :=
      { mark := .defined { type := "box-plot", orient := some .vertical }
        encoding := .ofList [(.x, a), (.y, b), (.x2, a)] }
    let rule : UnitSpec := { mark := .tag "rule", encoding := .ofList [(.x2, a)] }
    let s : Spec := .layer [] [.unit box, .unit rule] ∅
    (∀ u ∈ s.leaves, Transposable .defaults u) ∧
      ∃ t ws, (standard .defaults).normalize s = .noted t ws ∧
        (standard .defaults).normalize s.transpose = .noted t.transpose (ws.map Warning.transpose) := by
  intro a b box rule s
  have hbox : Transposable .defaults box := by
    intro mark hmark
    obtain rfl : (⟨BoxPlot.expand, BoxPlot.parts⟩ : CompositeMark) = mark :=
      Option.some.inj ((get?_standard BoxPlot.tag).symm.trans hmark)
    refine ⟨fun _ => .inl rfl, fun part hpart => ?_⟩
    have hpart : part = "box" ∨ part = "boxWhisker" ∨ part = "boxMid" := by simpa [BoxPlot.parts] using hpart
    rcases hpart with rfl | rfl | rfl
    all_goals exact ⟨rfl, rfl⟩
  have hrule : Transposable .defaults rule := by
    intro mark hmark
    cases (get?_standard "rule").symm.trans hmark
  have hs : ∀ u ∈ s.leaves, Transposable .defaults u := by
    intro u hu
    rcases List.mem_pair.1 (show u ∈ [box, rule] from hu) with rfl | rfl
    exacts [hbox, hrule]
  have hsuccess : ((standard .defaults).normalize s).failure? = none := by decide +kernel +zetaReduce
  obtain ⟨t, ws, h⟩ := Report.failure?_eq_none_iff.1 hsuccess
  exact ⟨hs, t, ws, h, (normalize_transposed hs).2 t ws h⟩

end Normalizer

end ChartNormal
