import ChartNormal.Proofs.NormalForm
import ChartNormal.Proofs.Reorder.Expansion

/-!
# Runs under another order of channels

Two specifications that differ in the order in which channels are declared fail alike, or come to results that differ in
nothing but the order of channels, of warnings, and of what a composite mark extracts from its channels
(`normalize_reordered`). `Alike` says so node by node along what was given, so that stages that were given stay where
they are.
-/

namespace ChartNormal

namespace UnitSpec

open Composite

variable {u v : UnitSpec} (h : u.Reorders v)

include h

/-! ### Settled units -/

theorem drawn_reorders (m : Primitive) : (u.drawn m).Reorders (v.drawn m) :=
  Encoding.settle_reorders (Encoding.promoteSecondary_reorders h.encoding) m

theorem settleWarnings_reorders (m : Primitive) : (u.settleWarnings m).Perm (v.settleWarnings m) :=
  Encoding.settleWarnings_reorders (Encoding.promoteSecondary_reorders h.encoding) m

/-- The overlays are those of the mark, over the channels that are drawn. -/
theorem settle_reorders (config : Config) (m : Primitive) : (u.settle config m).Reorders (v.settle config m) := by
  have hdrawn := drawn_reorders h m
  have hoverlays : u.overlays config m = v.overlays config m := by
    unfold overlays
    rw [h.mark]
  have hmark : u.overlaidMark m = v.overlaidMark m := by rw [overlaidMark, overlaidMark, h.mark]
  have hbase : Spec.Reorders (.unit { mark := .defined (u.overlaidMark m), encoding := u.drawn m })
      (.unit { mark := .defined (v.overlaidMark m), encoding := v.drawn m }) :=
    .unit ⟨rfl, congrArg Mark.defined hmark, hdrawn, rfl⟩
  have hline : Spec.Reorders (.unit (lineOverlay (u.overlaidMark m).color (u.drawn m)))
      (.unit (lineOverlay (v.overlaidMark m).color (v.drawn m))) :=
    .unit ⟨rfl, by rw [hmark]; rfl, hdrawn.restrict _, rfl⟩
  have hpoint : Spec.Reorders (.unit (pointOverlay (u.overlaidMark m).color (u.drawn m)))
      (.unit (pointOverlay (v.overlaidMark m).color (v.drawn m))) :=
    .unit ⟨rfl, by rw [hmark]; rfl, hdrawn.restrict _, rfl⟩
  unfold settle
  rw [hoverlays, h.transform, h.outer]
  rcases v.overlays config m with ⟨line, point⟩
  cases line <;> cases point
  · exact .unit ⟨rfl, h.mark, hdrawn, rfl⟩
  · exact .layer (.cons hbase (.cons hpoint .nil))
  · exact .layer (.cons hbase (.cons hline .nil))
  · exact .layer (.cons hbase (.cons hline (.cons hpoint .nil)))

theorem settled_reorders (config : Config) : (u.settled config).Reorders (v.settled config) := by
  rw [settled, settled, h.mark]
  cases v.mark.primitive? with
  | none => exact .unit h
  | some m => exact settle_reorders h config m

theorem settledWarnings_reorders : u.settledWarnings.Perm v.settledWarnings := by
  rw [settledWarnings, settledWarnings, h.mark]
  cases v.mark.primitive? with
  | none => exact .refl _
  | some m => exact settleWarnings_reorders h m

/-! ### Facet channels -/

theorem hasFacetChannel_reorders : u.hasFacetChannel = v.hasFacetChannel := h.encoding.keys.any_eq

theorem facetField?_reorders (c : Channel) : u.facetField? c = v.facetField? c := by
  rw [facetField?, facetField?, Encoding.field?_reorders h.encoding]

theorem facetMapping_reorders : u.facetMapping = v.facetMapping := by
  rw [facetMapping, facetMapping, facetField?_reorders h, facetField?_reorders h]

theorem emptyFacets_reorders : u.emptyFacets = v.emptyFacets := by
  simp only [emptyFacets, h.encoding.contains, facetField?_reorders h]

theorem facets_reorders : u.facets = v.facets := by
  simp only [facets, h.encoding.contains]

theorem cell_reorders : u.cell.Reorders v.cell :=
  ⟨rfl, h.mark, h.encoding.restrict _, by rw [cell, cell, h.outer]⟩

theorem withoutFacets_reorders : u.withoutFacets.Reorders v.withoutFacets :=
  ⟨h.transform, h.mark, h.encoding.restrict _, h.outer⟩

end UnitSpec

namespace Normalizer

open Composite

/-- Two results for a unit without facet channels. -/
inductive FlatAlike (u : UnitSpec) : Spec → Spec → Prop
  | primitive {m : Primitive} {t t' : Spec} (hm : u.mark.primitive? = some m) (h : t.Reorders t') : FlatAlike u t t'
  | composite {r : Recipe} {transform transform' : List Transform} {layers layers' : List Spec}
      (hr : Recipe.ofTag? u.mark.type = some r) (htransform : PipelinesAlike u.transform transform transform')
      (h : List.Forall₂ Spec.Reorders layers layers') :
      FlatAlike u (.layer transform layers u.outer) (.layer transform' layers' u.outer)

/-- Two results for a specification in a scope, node by node. -/
inductive Alike : Scope → Spec → Spec → Spec → Prop
  | flat {scope : Scope} {u : UnitSpec} {t t' : Spec} (hf : u.hasFacetChannel = false) (h : FlatAlike u t t') :
      Alike scope (.unit u) t t'
  | wrap {u : UnitSpec} {t t' : Spec} {outer : Object} (hf : u.hasFacetChannel = true)
      (houter : outer = u.outer.restrict (· ∉ UnitSpec.cellProperties)) (h : FlatAlike u.cell t t') :
      Alike .top (.unit u) (.facet u.transform u.facetMapping t outer) (.facet u.transform u.facetMapping t' outer)
  | drop {scope : Scope} {u : UnitSpec} {t t' : Spec} (hs : scope ≠ .top) (hf : u.hasFacetChannel = true)
      (h : FlatAlike u.withoutFacets t t') : Alike scope (.unit u) t t'
  | layer {scope : Scope} {transform : List Transform} {layers : List Spec} {results : List (Spec × Spec)}
      {outer : Object} (h : List.Forall₂ (fun s t => Alike .layer s t.1 t.2) layers results) :
      Alike scope (.layer transform layers outer) (.layer transform (results.map Prod.fst) outer)
        (.layer transform (results.map Prod.snd) outer)
  | facet {transform : List Transform} {mapping : FacetMapping} {child t t' : Spec} {outer : Object}
      (h : Alike .facet child t t') :
      Alike .top (.facet transform mapping child outer) (.facet transform mapping t outer)
        (.facet transform mapping t' outer)

variable {config : Config} {u v : UnitSpec}

/-! ### Units -/

theorem settled_parts_reorders (config : Config) {units units' : List UnitSpec}
    (h : List.Forall₂ UnitSpec.Reorders units units') :
    List.Forall₂ Spec.Reorders (units.map (·.settled config)) (units'.map (·.settled config)) ∧
      (units.flatMap (·.settledWarnings)).Perm (units'.flatMap (·.settledWarnings)) := by
  induction h with
  | nil => exact ⟨.nil, .nil⟩
  | cons hv _ ih =>
    rw [List.flatMap_cons, List.flatMap_cons]
    exact ⟨.cons (UnitSpec.settled_reorders hv config) ih.1, (UnitSpec.settledWarnings_reorders hv).append ih.2⟩

theorem expansion_agree {r : Recipe} (hr : Recipe.ofTag? u.mark.type = some r) (h : u.Reorders v) :
    Report.Agree (FlatAlike u) (expansion config u) (expansion config v) := by
  have hr' : Recipe.ofTag? v.mark.type = some r := h.mark ▸ hr
  have hmem := (Recipe.mem_all_of_ofTag? hr).1
  have hagree := Recipe.expand_agree hmem h config
  generalize hu : r.expand u config = x, hv : r.expand v config = y at hagree
  cases hagree with
  | fail f =>
    have hfail {w : UnitSpec} (hw : Recipe.ofTag? w.mark.type = some r) (he : r.expand w config = .fail f) :
        expansion config w = .fail f := by
      rw [← Report.failure?_eq_some_iff, failure?_expansion hw, he]
      rfl
    rw [hfail hr hu, hfail hr' hv]
    exact .fail f
  | @noted l l' ws ws' hl hws =>
    obtain ⟨htransform, ⟨units, units', hlayers, hlayers', hunits⟩, houter, houter'⟩ := hl
    obtain ⟨parts, hparts, hall⟩ := parts_of_expand hmem hu
    obtain ⟨parts', hparts', hall'⟩ := parts_of_expand hmem hv
    have hinj : Function.Injective (List.map Spec.unit) := List.map_injective_iff.2 fun _ _ => Spec.unit.inj
    obtain rfl : units = parts := hinj (hlayers.symm.trans hparts)
    obtain rfl : units' = parts' := hinj (hlayers'.symm.trans hparts')
    obtain ⟨hsettled, hwarnings⟩ := settled_parts_reorders config hunits
    rw [expansion_eq hr hu hparts hall, expansion_eq hr' hv hparts' hall', houter, houter']
    exact .noted (.composite hr htransform hsettled) (hws.append hwarnings)

theorem flatUnit_agree (h : u.Reorders v) :
    Report.Agree (FlatAlike u) ((standard config).flatUnit (expansion config) u)
      ((standard config).flatUnit (expansion config) v) := by
  rw [flatUnit_standard, flatUnit_standard, ← h.mark]
  cases hr : Recipe.ofTag? u.mark.type with
  | some r => exact expansion_agree hr h
  | none =>
    cases hm : u.mark.primitive? with
    | none => exact .fail _
    | some m =>
      exact .noted (.primitive hm (UnitSpec.settle_reorders h config m)) (UnitSpec.settleWarnings_reorders h m)

theorem unit_agree (scope : Scope) (h : u.Reorders v) :
    Report.Agree (Alike scope (.unit u)) ((standard config).unit (expansion config) scope u)
      ((standard config).unit (expansion config) scope v) := by
  rw [unit, unit, ← UnitSpec.hasFacetChannel_reorders h]
  cases hf : u.hasFacetChannel with
  | false =>
    rw [Bool.not_false, if_pos rfl, if_pos rfl]
    exact (flatUnit_agree h).imp fun t t' _ _ ht => .flat hf ht
  | true =>
    rw [Bool.not_true, if_neg Bool.false_ne_true, if_neg Bool.false_ne_true]
    by_cases hs : scope = .top
    · subst hs
      rw [if_pos rfl, if_pos rfl, UnitSpec.emptyFacets_reorders h, ← UnitSpec.facetMapping_reorders h, ← h.transform,
        ← h.outer]
      refine .warned (.refl _) ((flatUnit_agree (UnitSpec.cell_reorders h)).bind fun t t' ht => .pure ?_)
      exact .wrap hf rfl ht
    · rw [if_neg hs, if_neg hs, UnitSpec.facets_reorders h]
      refine .warned (.refl _) ((flatUnit_agree (UnitSpec.withoutFacets_reorders h)).imp fun t t' _ _ ht => ?_)
      exact .drop hs hf ht

/-! ### Trees -/

theorem specs_agree {layers layers' : List Spec} (h : List.Forall₂ Spec.Reorders layers layers')
    (hspec : ∀ s ∈ layers, ∀ s', s.Reorders s' →
      Report.Agree (Alike .layer s) ((standard config).spec (expansion config) .layer s)
        ((standard config).spec (expansion config) .layer s')) :
    Report.Agree (fun ts ts' => ∃ results : List (Spec × Spec),
        ts = results.map Prod.fst ∧ ts' = results.map Prod.snd ∧
          List.Forall₂ (fun s t => Alike .layer s t.1 t.2) layers results)
      ((standard config).specs (expansion config) layers) ((standard config).specs (expansion config) layers') := by
  induction h with
  | nil => exact .pure ⟨[], rfl, rfl, .nil⟩
  | @cons s s' rest rest' hs _ ih =>
    rw [specs_cons, specs_cons]
    refine (hspec s List.mem_cons_self s' hs).bind fun t t' ht => ?_
    refine (ih fun s hs => hspec s (List.mem_cons_of_mem _ hs)).bind ?_
    rintro _ _ ⟨results, rfl, rfl, hresults⟩
    exact .pure ⟨(t, t') :: results, rfl, rfl, .cons ht hresults⟩

theorem spec_agree {s s' : Spec} (h : s.Reorders s') (scope : Scope) :
    Report.Agree (Alike scope s) ((standard config).spec (expansion config) scope s)
      ((standard config).spec (expansion config) scope s') := by
  induction s generalizing s' scope with
  | unit u =>
    cases h with
    | unit h => exact unit_agree scope h
  | layer transform layers outer ih =>
    cases h with
    | layer h =>
      rw [spec, spec]
      refine (specs_agree h fun s hs s' hss' => ih s hs hss' .layer).bind ?_
      rintro _ _ ⟨results, rfl, rfl, hresults⟩
      exact .pure (.layer hresults)
  | facet transform mapping child outer ih =>
    cases h with
    | facet h =>
      cases scope with
      | top =>
        rw [spec, spec]
        exact (ih h .facet).bind fun t t' ht => .pure (.facet ht)
      | layer => exact .fail _
      | facet => exact .fail _

/-- **Order of channels.** Specifications that differ in the order of the channels of their units fail alike, or have
results that differ in the order of channels, and in the order of what is extracted from the channels of a unit with a
composite mark; the warnings are the same in some order. -/
theorem normalize_reordered (config : Config) {s s' : Spec} (h : s.Reorders s') :
    Report.Agree (Alike .top s) ((standard config).normalize s) ((standard config).normalize s') :=
  spec_agree h .top

/-- Error bars with two binned channels and a rule with its far end first, in two orders. -/
theorem normalize_reordered_bars :
    let x : Channel × ChannelDef := (.x, .field { field := some "site", type := .nominal })
    let y : Channel × ChannelDef := (.y, .field { field := some "yield", type := .quantitative })
    let color : Channel × ChannelDef :=
      (.color, .field { field := some "age", type := .quantitative, bin := some (.flag true) })
    let size : Channel × ChannelDef :=
      (.size, .field { field := some "depth", type := .quantitative, bin := some (.flag true) })
    let x2 : Channel × ChannelDef := (.x2, .field { field := some "end", type := .nominal })
    let chart (bars rule : List (Channel × ChannelDef)) : Spec := .layer []
      [.unit { mark := .tag "errorbar", encoding := .ofList bars }, .unit { mark := .tag "rule", encoding := .ofList rule }]
      ∅
    let s := chart [x, y, color, size] [x2, y]
    let s' := chart [size, color, y, x] [y, x2]
    ∃ t t' ws ws', (standard .defaults).normalize s = .noted t ws ∧ (standard .defaults).normalize s' = .noted t' ws' ∧
      t ≠ t' ∧ Alike .top s t t' ∧ ws.Perm ws' := by
  intro x y color size x2 chart s s'
  have hbars : OrderedMap.Reorders (.ofList [x, y, color, size] : Encoding) (.ofList [size, color, y, x]) :=
    OrderedMap.reorders_iff.2 fun c => by cases c <;> rfl
  have hrule : OrderedMap.Reorders (.ofList [x2, y] : Encoding) (.ofList [y, x2]) :=
    OrderedMap.reorders_iff.2 fun c => by cases c <;> rfl
  have h : s.Reorders s' :=
    .layer (.cons (.unit ⟨rfl, rfl, hbars, rfl⟩) (.cons (.unit ⟨rfl, rfl, hrule, rfl⟩) .nil))
  have hagree := normalize_reordered .defaults h
  have hfirst : ((standard .defaults).normalize s).failure? = none := by decide
  have hdiffer : Except.map (·.1.leaves.map (·.encoding.channels)) ((standard .defaults).normalize s) ≠
      Except.map (·.1.leaves.map (·.encoding.channels)) ((standard .defaults).normalize s') := by decide
  generalize (standard .defaults).normalize s = r, (standard .defaults).normalize s' = r' at *
  cases hagree with
  | fail f => cases hfirst
  | @noted t t' ws ws' ht hws =>
    refine ⟨t, t', ws, ws', rfl, rfl, fun heq => hdiffer ?_, ht, hws⟩
    rw [heq]
    rfl

end Normalizer

end ChartNormal
