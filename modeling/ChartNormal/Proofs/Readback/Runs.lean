import ChartNormal.Proofs.Conservation
import ChartNormal.Proofs.Readback.Parts
import ChartNormal.Proofs.Readback.Tree

/-!
# Reading back what normalization returns

Every step of a run keeps nodes sound, whatever it makes of the marks and encodings, so the result reads back as it is
written unless a free-form property of a unit clashes with the field of the node that the unit becomes
(`UnitSpec.ClashesAt`): `layer` where it becomes a layer, `facet` and `spec` where it is wrapped into a facet.
-/

namespace ChartNormal

/-- A free-form property has the name of a field of the node that the unit becomes in its place. -/
def UnitSpec.ClashesAt (config : Config) (scope : Scope) (u : UnitSpec) : Prop :=
  if scope = .top ∧ u.hasFacetChannel = true then u.outer.contains "facet" = true ∨ u.outer.contains "spec" = true
  else u.BecomesLayer config ∧ u.outer.contains "layer" = true

namespace Normalizer

open Composite

variable {config : Config} {u v : UnitSpec} {t : Spec}

/-! ### Units -/

theorem legible_overlaidMark (hu : u.Legible) (m : Primitive) : (u.overlaidMark m).Legible := by
  have hpoint : (u.mark.toDef.withProp "point" (.bool false)).Legible := hu.mark.withProp (by decide) false
  unfold UnitSpec.overlaidMark
  split
  · exact hpoint.withProp (by decide) false
  · exact hpoint

theorem sound_settle (hu : u.Legible) (m : Primitive) {scope : Scope} :
    ∀ node ∈ (u.settle config m).nodes scope, node.2.Sound := by
  have hdrawn : (u.drawn m).Legible := hu.encoding.promoteSecondary.settle m
  -- the units of an overlay begin afresh
  have hfresh : ∀ {mark : Mark} {e : Encoding}, mark.Legible → e.Legible →
      Spec.Sound (.unit { mark := mark, encoding := e }) := fun hmark he => .unit (UnitSpec.legible_of_bare hmark he)
  have hoverlay : ∀ w, w = UnitSpec.lineOverlay (u.overlaidMark m).color (u.drawn m) ∨
      w = UnitSpec.pointOverlay (u.overlaidMark m).color (u.drawn m) → Spec.Sound (.unit w) := by
    rintro w (rfl | rfl)
    · exact hfresh (Object.Free.insert (Object.free_empty _) (by decide) rfl) (hdrawn.restrict _)
    · exact hfresh (Object.free_empty _) (hdrawn.restrict _)
  rcases UnitSpec.settle_cases u config m with ⟨-, hs⟩ | ⟨-, above, hs, habove⟩
  · rw [hs, Spec.nodes_unit]
    intro node hnode
    rw [List.mem_singleton.1 hnode]
    exact .unit { hu with encoding := hdrawn }
  · rw [hs, Spec.nodes_layer, List.forall_mem_cons]
    refine ⟨.layer hu.transform (hu.outer.mono (by simp)) hu.ofUnit.notFacet fun _ => hu.ofUnit, fun node hnode => ?_⟩
    rw [List.flatMap_map, List.mem_flatMap] at hnode
    obtain ⟨w, hw, hnode⟩ := hnode
    rw [Spec.nodes_unit, List.mem_singleton] at hnode
    rw [hnode]
    rcases List.mem_cons.1 hw with rfl | hw
    · exact hfresh (legible_overlaidMark hu m) hdrawn
    · exact hoverlay w (habove w hw)

theorem Flat.sound (hconfig : config.DistinctKeys) (hu : u.Legible) (h : Flat config u t) {scope : Scope} :
    ∀ node ∈ t.nodes scope, node.2.Sound := by
  cases h with
  | primitive hm => exact sound_settle hu _
  | @composite r l ws units hr h hl hunits =>
    have hmem := (Recipe.mem_all_of_ofTag? hr).1
    obtain ⟨p, _, units', hp, hdrawn, rfl⟩ := Recipe.expand_eq_noted h
    obtain rfl : units' = units := List.map_injective_iff.2 (fun _ _ => Spec.unit.inj) hl
    obtain ⟨o, d, field, -, hd, -, rfl⟩ := resolve_eq_noted hp
    obtain ⟨haxis, hshared, hbins⟩ := legible_along hu hd field
    rw [Spec.nodes_layer, List.forall_mem_cons]
    refine ⟨.layer (legible_pipeline hu.transform hbins _ _) (hu.outer.mono (by simp)) hu.ofUnit.notFacet
      fun _ => hu.ofUnit, fun node hnode => ?_⟩
    rw [List.flatMap_map, List.mem_flatMap] at hnode
    obtain ⟨v, hv, hnode⟩ := hnode
    obtain ⟨m, hm⟩ := hunits v hv
    obtain ⟨dr, hdr, hunit⟩ := exists_of_forall₂ hdrawn hv
    rw [UnitSpec.settled, hm.primitive] at hnode
    exact sound_settle (legible_of_drawing hmem hconfig haxis hshared (List.mem_filter.1 hdr).1 hunit) m node hnode

theorem not_clashes_of_bare {s : Spec} (h : s.Bare) : ¬ s.Clashes := by
  obtain ⟨-, houter⟩ := h
  cases s with
  | unit u => exact id
  | layer transform layers outer =>
    obtain rfl : outer = ∅ := houter
    intro h
    cases h
  | facet transform mapping child outer =>
    obtain rfl : outer = ∅ := houter
    rintro (h | h) <;> cases h

/-- Of the node that takes the place of a unit, only the root can clash. -/
theorem clashes_carriedBy_iff (h : u.CarriedBy config t) {scope : Scope} :
    (∃ node ∈ t.nodes scope, node.2.Clashes) ↔ u.BecomesLayer config ∧ u.outer.contains "layer" = true := by
  have htail : (t.nodes scope).tail = (t.nodes .layer).tail := by cases t <;> rfl
  have hroot : (∃ node ∈ t.nodes scope, node.2.Clashes) ↔ t.Clashes := by
    rw [Spec.nodes_eq_cons, htail]
    simp only [List.mem_cons, exists_eq_or_imp]
    refine or_iff_left ?_
    rintro ⟨node, hnode, hclash⟩
    exact not_clashes_of_bare (h.inner node hnode) hclash
  rw [hroot, ← h.kind.2, ← h.outer]
  cases t with
  | unit w => exact iff_of_false id fun h => by cases h.1
  | layer transform layers outer => exact (and_iff_right rfl).symm
  | facet transform mapping child outer => cases h.kind.1

/-! ### Runs -/

theorem legible_cell (hu : u.Legible) : u.cell.Legible where
  transform t ht := by cases ht
  mark := hu.mark
  encoding := hu.encoding.restrict _
  outer := hu.outer.restrict _
  ofUnit := hu.ofUnit.restrict (· ∈ UnitSpec.cellProperties)

theorem legible_withoutFacets (hu : u.Legible) : u.withoutFacets.Legible :=
  { hu with encoding := hu.encoding.restrict _ }

theorem legible_facetMapping (hu : u.Legible) : u.facetMapping.Legible := by
  have hfield : ∀ c, ∀ d ∈ u.facetField? c, d.Legible := fun c d hd =>
    hu.encoding.field? (Option.filter_eq_some_iff.1 hd).1
  exact ⟨hfield .row, hfield .column⟩

/-- A property that moves into the cell is none of the fields of a node. -/
theorem contains_outside_cell {key : String} (h : key ∉ UnitSpec.cellProperties) (o : Object) :
    (o.restrict (· ∉ UnitSpec.cellProperties)).contains key = o.contains key := by
  rw [OrderedMap.contains, OrderedMap.get?_restrict, if_pos (by simpa using h), OrderedMap.contains]

/-- The node is a unit whose free-form properties clash where it stands. -/
def ClashesIn (config : Config) : Scope × Spec → Prop
  | (scope, .unit u) => u.ClashesAt config scope
  | _ => False

theorem exists_clashesIn_unit {scope : Scope} :
    (∃ node ∈ (Spec.unit u).nodes scope, ClashesIn config node) ↔ u.ClashesAt config scope := by
  simp [ClashesIn]

theorem clashesAt_iff_of_not_faceted {scope : Scope} (h : ¬ (scope = .top ∧ u.hasFacetChannel = true)) :
    u.ClashesAt config scope ↔ u.BecomesLayer config ∧ u.outer.contains "layer" = true := by
  rw [UnitSpec.ClashesAt, if_neg h]

/-- Of width, height and projection, the free-form properties of the cell, none can clash. -/
theorem not_clashes_cell (h : u.cell.CarriedBy config t) {scope : Scope} :
    ¬ ∃ node ∈ t.nodes scope, node.2.Clashes := by
  rw [clashes_carriedBy_iff h]
  rintro ⟨-, hlayer⟩
  rw [UnitSpec.cell, OrderedMap.contains, OrderedMap.get?_restrict, if_neg (by decide)] at hlayer
  cases hlayer

theorem sound_of_spec (hconfig : config.DistinctKeys) {scope : Scope} {s : Spec} {ws : List Warning}
    (h : (standard config).spec (expansion config) scope s = .noted t ws) :
    (∀ node ∈ s.nodes scope, node.2.Sound) → ∀ node ∈ t.nodes scope, node.2.Sound := by
  refine spec_rules (P := fun scope s t =>
    (∀ node ∈ s.nodes scope, node.2.Sound) → ∀ node ∈ t.nodes scope, node.2.Sound) ?_ ?_ ?_ ?_ ?_ h
  · intro scope u t _ ht hs
    cases hs (scope, .unit u) (by simp) with
    | unit hu => exact ht.sound hconfig hu
  · intro u t _ ht hs
    cases hs (.top, .unit u) (by simp) with
    | unit hu =>
      rw [Spec.nodes_facet, List.forall_mem_cons]
      refine ⟨.facet hu.transform (legible_facetMapping hu) ((hu.outer.mono (by simp)).restrict _) fun _ => ?_,
        ht.sound hconfig (legible_cell hu)⟩
      exact hu.ofUnit.restrict (· ∉ UnitSpec.cellProperties)
  · intro scope u t _ _ ht hs
    cases hs (scope, .unit u) (by simp) with
    | unit hu => exact ht.sound hconfig (legible_withoutFacets hu)
  · intro scope transform layers ts outer hts hs
    rw [Spec.nodes_layer, List.forall_mem_cons] at hs ⊢
    obtain ⟨hroot, hs⟩ := hs
    refine ⟨?_, fun node hnode => ?_⟩
    · cases hroot with
      | layer htransform houter hfacet hclash => exact .layer htransform houter hfacet hclash
    · obtain ⟨t, ht, hnode⟩ := List.mem_flatMap.1 hnode
      obtain ⟨s, hmem, hst⟩ := exists_of_forall₂ hts ht
      exact hst (fun n hn => hs n (List.mem_flatMap.2 ⟨s, hmem, hn⟩)) node hnode
  · intro transform mapping child t outer ht hs
    rw [Spec.nodes_facet, List.forall_mem_cons] at hs ⊢
    refine ⟨?_, ht hs.2⟩
    cases hs.1 with
    | facet htransform hmapping houter hclash => exact .facet htransform hmapping houter hclash

theorem clashes_of_spec {scope : Scope} {s : Spec} {ws : List Warning}
    (h : (standard config).spec (expansion config) scope s = .noted t ws) :
    (∀ node ∈ s.nodes scope, ¬ node.2.Clashes) →
      ((∃ node ∈ t.nodes scope, node.2.Clashes) ↔ ∃ node ∈ s.nodes scope, ClashesIn config node) := by
  refine spec_rules (P := fun scope s t => (∀ node ∈ s.nodes scope, ¬ node.2.Clashes) →
    ((∃ node ∈ t.nodes scope, node.2.Clashes) ↔ ∃ node ∈ s.nodes scope, ClashesIn config node)) ?_ ?_ ?_ ?_ ?_ h
  · intro scope u t hf ht _
    rw [clashes_carriedBy_iff ht.carriedBy, exists_clashesIn_unit, clashesAt_iff_of_not_faceted (by simp [hf])]
  · intro u t hf ht _
    have hfacet : (u.outer.restrict (· ∉ UnitSpec.cellProperties)).contains "facet" = u.outer.contains "facet" :=
      contains_outside_cell (by decide) _
    have hspec : (u.outer.restrict (· ∉ UnitSpec.cellProperties)).contains "spec" = u.outer.contains "spec" :=
      contains_outside_cell (by decide) _
    rw [exists_clashesIn_unit, UnitSpec.ClashesAt, if_pos ⟨rfl, hf⟩, Spec.nodes_facet, ← hfacet, ← hspec]
    simp only [List.mem_cons, exists_eq_or_imp]
    exact or_iff_left (not_clashes_cell ht.carriedBy)
  · intro scope u t hscope _ ht _
    rw [clashes_carriedBy_iff ht.carriedBy, exists_clashesIn_unit, clashesAt_iff_of_not_faceted (by simp [hscope])]
    exact Iff.rfl
  · intro scope transform layers ts outer hts hs
    rw [Spec.nodes_layer, List.forall_mem_cons] at hs
    obtain ⟨hroot, hs⟩ := hs
    rw [Spec.nodes_layer, Spec.nodes_layer]
    simp only [List.mem_cons, exists_eq_or_imp]
    refine or_congr (iff_of_false hroot id) ?_
    clear hroot
    induction hts with
    | nil => simp
    | cons hst _ ih =>
      rw [List.flatMap_cons, List.forall_mem_append] at hs
      simp only [List.flatMap_cons, List.mem_append, or_and_right, exists_or]
      exact or_congr (hst hs.1) (ih hs.2)
  · intro transform mapping child t outer ht hs
    rw [Spec.nodes_facet, List.forall_mem_cons] at hs
    rw [Spec.nodes_facet, Spec.nodes_facet]
    simp only [List.mem_cons, exists_eq_or_imp]
    exact or_congr (iff_of_false hs.1 id) (ht hs.2)

/-- **Reading back.** What normalization returns reads as itself where it is written, exactly when no property of a unit
clashes with a field of the node that the unit becomes. Where it does not, anything that reads is a different
specification. -/
theorem normalize_readback {v : Json} (hv : v.distinctKeys = true) {s : Spec} (hs : Spec.ofJson? v = some s)
    (hconfig : config.DistinctKeys) {ws : List Warning} (h : (standard config).normalize s = .noted t ws) :
    (Spec.ofJson? t.toJson = some t ↔ ∀ node ∈ s.nodes .top, ¬ ClashesIn config node) ∧
      ∀ t', Spec.ofJson? t.toJson = some t' → t'.same t = true → t' = t := by
  have hread : ∀ node ∈ s.nodes .top, node.2.Sound ∧ ¬ node.2.Clashes := Spec.sound_of_ofJson? hv hs
  have hsound := sound_of_spec hconfig h fun node hnode => (hread node hnode).1
  have hclash := clashes_of_spec h fun node hnode => (hread node hnode).2
  by_cases hc : ∃ node ∈ t.nodes .top, node.2.Clashes
  · obtain ⟨node, hnode, hcl⟩ := hc
    obtain ⟨node', hnode', hin⟩ := hclash.1 ⟨node, hnode, hcl⟩
    have hdiffers {t' : Spec} (ht' : Spec.ofJson? t.toJson = some t') : t' ≠ t ∧ t'.same t = false :=
      Spec.differs_of_clash hsound hnode hcl ht'
    refine ⟨iff_of_false (fun hself => (hdiffers hself).1 rfl) fun hnone => hnone node' hnode' hin, ?_⟩
    intro t' ht' hsame
    exact absurd hsame (Bool.eq_false_iff.1 (hdiffers ht').2)
  · have hself : Spec.ofJson? t.toJson = some t :=
      Spec.ofJson?_toJson fun node hnode => ⟨hsound node hnode, fun hcl => hc ⟨node, hnode, hcl⟩⟩
    refine ⟨iff_of_true hself fun node hnode hin => hc (hclash.2 ⟨node, hnode, hin⟩), fun t' ht' _ => ?_⟩
    exact Option.some.inj (ht'.symm.trans hself)

/-- A line with points in rows: the facet carries `layer` along as a property, which is no field of a facet, and the line
below it becomes a layer. -/
theorem normalize_readback_rows :
    let v : Json := .obj [("mark", .obj [("type", .str "line"), ("point", .bool true)]),
      ("encoding", .obj [("row", .obj [("field", .str "site"), ("type", .str "nominal")]),
        ("y", .obj [("field", .str "yield"), ("type", .str "quantitative")])]),
      ("layer", .num (.int 1)), ("width", .num (.int 200))]
    ∃ s t ws, Spec.ofJson? v = some s ∧ (standard .defaults).normalize s = .noted t ws ∧
      Spec.ofJson? t.toJson = some t := by
  intro v
  let s : Spec := .unit
    { mark := .defined { type := "line", props := .ofList [("point", .bool true)] }
      encoding := .ofList [(.row, .field { field := some "site", type := .nominal }),
        (.y, .field { field := some "yield", type := .quantitative })]
      outer := .ofList [("layer", .num (.int 1)), ("width", .num (.int 200))] }
  have hs : Spec.ofJson? v = some s := rfl
  have hnormalized : ((standard .defaults).normalize s).failure? = none := rfl
  obtain ⟨t, ws, h⟩ := Report.failure?_eq_none_iff.1 hnormalized
  have hclash : ∀ node ∈ s.nodes .top, ¬ ClashesIn .defaults node := by
    rw [Spec.nodes_unit, List.forall_mem_singleton, ClashesIn, UnitSpec.ClashesAt, if_pos ⟨rfl, rfl⟩]
    decide
  exact ⟨s, t, ws, hs, h, (normalize_readback rfl hs Config.distinctKeys_defaults h).1.2 hclash⟩

/-- A line with points and a property `layer`. It becomes a layer, which is written with the key `layer` twice and reads
as nothing. -/
theorem normalize_readback_fails :
    let v : Json := .obj [("mark", .obj [("type", .str "line"), ("point", .bool true)]), ("layer", .num (.int 1))]
    v.distinctKeys = true ∧ ∃ s t, Spec.ofJson? v = some s ∧ (standard .defaults).normalize s = .noted t [] ∧
      t.toJson = .obj [
        ("layer", .arr [.obj [("mark", .obj [("type", .str "line"), ("point", .bool false)])],
          .obj [("mark", .obj [("type", .str "point"), ("filled", .bool true), ("style", .str "pointOverlay")])]]),
        ("layer", .num (.int 1))] ∧
      Spec.ofJson? t.toJson = none :=
  ⟨rfl, _, _, rfl, rfl, rfl, rfl⟩

end Normalizer

end ChartNormal
