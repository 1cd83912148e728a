import ChartNormal.Proofs.NormalForm
import Mathlib.Data.Multiset.Filter

/-!
# What a run carries along

Stages and properties that are not interpreted move between nodes, when a unit becomes a facet, a layer, or a layer inside a
facet. `Replaces` says where they end up: the node that takes the place of a unit begins with its stages and keeps its
properties, but for those of a single cell, and the nodes inside it have none. So the properties of a tree stay the same
(`Spec.properties`), each as often as it was given.
-/

namespace ChartNormal

namespace Spec

def transform : Spec → List Transform
  | .unit u => u.transform
  | .layer transform _ _ => transform
  | .facet transform _ _ _ => transform

def outer : Spec → Object
  | .unit u => u.outer
  | .layer _ _ outer => outer
  | .facet _ _ _ outer => outer

def isLayer : Spec → Bool
  | .layer .. => true
  | _ => false

/-- The node has no stages and no properties of its own. -/
def Bare (s : Spec) : Prop := s.transform = [] ∧ s.outer = ∅

/-- The properties that the nodes of a tree carry along. -/
def properties (s : Spec) : Multiset (String × Json) := (s.nodes .top).flatMap fun node => node.2.outer.entries

theorem flatMap_outer_nodes (s : Spec) (scope : Scope) :
    (↑((s.nodes scope).flatMap fun node => node.2.outer.entries) : Multiset (String × Json)) = s.properties := by
  cases s <;> rfl

theorem properties_unit (u : UnitSpec) : (unit u).properties = ↑u.outer.entries := by
  simp [properties, outer]

theorem properties_layer (transform : List Transform) (layers : List Spec) (outer : Object) :
    (layer transform layers outer).properties = ↑outer.entries + (layers.map properties).sum := by
  rw [properties, nodes_layer, List.flatMap_cons, List.flatMap_assoc, ← Multiset.coe_add]
  congr 1
  induction layers with
  | nil => rfl
  | cons s rest ih =>
    rw [List.flatMap_cons, ← Multiset.coe_add, flatMap_outer_nodes, ih, List.map_cons, List.sum_cons]

theorem properties_facet (transform : List Transform) (mapping : FacetMapping) (child : Spec) (outer : Object) :
    (facet transform mapping child outer).properties = ↑outer.entries + child.properties := by
  rw [properties, nodes_facet, List.flatMap_cons, ← Multiset.coe_add, flatMap_outer_nodes]
  rfl

/-- Where the nodes inside a tree are bare, only the root has properties. -/
theorem properties_of_bare {s : Spec} {scope : Scope} (h : ∀ node ∈ (s.nodes scope).tail, node.2.Bare) :
    s.properties = ↑s.outer.entries := by
  have htail : ((s.nodes scope).tail.flatMap fun node => node.2.outer.entries) = [] := by
    rw [List.flatMap_eq_nil_iff]
    intro node hn
    rw [(h node hn).2]
    rfl
  rw [← flatMap_outer_nodes s scope, nodes_eq_cons, List.flatMap_cons, htail, List.append_nil]

theorem bare_nodes_of_root {s : Spec} {scope : Scope} (hroot : s.Bare)
    (h : ∀ node ∈ (s.nodes scope).tail, node.2.Bare) : ∀ node ∈ s.nodes scope, node.2.Bare := by
  rw [nodes_eq_cons]
  intro node hn
  rcases List.mem_cons.1 hn with rfl | hn
  · exact hroot
  · exact h node hn

end Spec

/-- The unit becomes a layer: it has a composite mark, or is a line or an area with something drawn over it. -/
def UnitSpec.BecomesLayer (config : Config) (u : UnitSpec) : Prop :=
  (Composite.Recipe.ofTag? u.mark.type).isSome = true ∨ ¬ u.mark.Plain config

/-- The node `t` takes the place of the unit `u`. -/
structure UnitSpec.CarriedBy (config : Config) (u : UnitSpec) (t : Spec) : Prop where
  kind : t.isFacet = false ∧ (t.isLayer = true ↔ u.BecomesLayer config)
  transform : u.transform <+: t.transform
  /-- Only a composite mark adds stages. -/
  stages : Composite.Recipe.ofTag? u.mark.type = none → t.transform = u.transform
  outer : t.outer = u.outer
  inner : ∀ node ∈ (t.nodes .layer).tail, node.2.Bare

namespace Normalizer

/-- Node by node, what the nodes of a specification in a scope become. -/
inductive Replaces (config : Config) : Scope → Spec → Spec → Prop
  | unit {scope : Scope} {u : UnitSpec} {t : Spec} (hfacets : scope = .top → u.hasFacetChannel = false)
      (h : u.CarriedBy config t) : Replaces config scope (.unit u) t
  /-- Width, height and projection go to what stands inside the facet, and everything else stays outside. -/
  | wrap {u v : UnitSpec} {t : Spec} {mapping : FacetMapping} {outer : Object} (hfacets : u.hasFacetChannel = true)
      (hmark : v.mark = u.mark) (htransform : v.transform = [])
      (hinner : v.outer = u.outer.restrict (· ∈ ["width", "height", "projection"]))
      (houter : outer = u.outer.restrict (· ∉ ["width", "height", "projection"])) (h : v.CarriedBy config t) :
      Replaces config .top (.unit u) (.facet u.transform mapping t outer)
  | layer {scope : Scope} {transform : List Transform} {layers ts : List Spec} {outer : Object}
      (h : List.Forall₂ (Replaces config .layer) layers ts) :
      Replaces config scope (.layer transform layers outer) (.layer transform ts outer)
  | facet {transform : List Transform} {mapping : FacetMapping} {child t : Spec} {outer : Object}
      (h : Replaces config .facet child t) :
      Replaces config .top (.facet transform mapping child outer) (.facet transform mapping t outer)

variable {config : Config} {u v : UnitSpec} {t : Spec}

/-! ### Units -/

theorem nodes_map_unit {units : List UnitSpec} {transform : List Transform} {outer : Object} {node : Scope × Spec}
    (h : node ∈ ((Spec.layer transform (units.map .unit) outer).nodes .layer).tail) : ∃ v ∈ units, node.2 = .unit v := by
  rw [Spec.nodes_layer, List.tail_cons, List.flatMap_map, List.mem_flatMap] at h
  obtain ⟨v, hv, h⟩ := h
  rw [Spec.nodes_unit, List.mem_singleton] at h
  exact ⟨v, hv, by rw [h]⟩

/-- The units of an overlay begin afresh. -/
theorem carriedBy_settle {m : Primitive} (hm : u.mark.primitive? = some m) :
    u.CarriedBy config (u.settle config m) := by
  have hnone := ofTag?_of_primitive hm
  have hlayer : u.BecomesLayer config ↔ u.overlays config m ≠ (false, false) := by
    rw [UnitSpec.BecomesLayer, hnone, plain_iff_overlays hm]
    simp
  rcases UnitSpec.settle_cases u config m with ⟨ho, hs⟩ | ⟨ho, above, hs, habove⟩
  · rw [hs]
    refine ⟨⟨rfl, ?_⟩, List.prefix_rfl, fun _ => rfl, rfl, fun node hn => by cases hn⟩
    rw [hlayer]
    exact ⟨fun h => (by cases h), fun h => absurd ho h⟩
  · rw [hs]
    refine ⟨⟨rfl, iff_of_true rfl (hlayer.2 ho)⟩, List.prefix_rfl, fun _ => rfl, rfl, fun node hn => ?_⟩
    obtain ⟨v, hv, hnode⟩ := nodes_map_unit hn
    rw [hnode]
    rcases List.mem_cons.1 hv with rfl | hv
    · exact ⟨rfl, rfl⟩
    · rcases habove v hv with rfl | rfl <;> exact ⟨rfl, rfl⟩

/-- A part has no stages and no properties, and neither has what it is settled to. -/
theorem bare_settled {m : Primitive} (hm : v.mark.primitive? = some m) (htransform : v.transform = [])
    (houter : v.outer = ∅) : ∀ node ∈ (v.settled config).nodes .layer, node.2.Bare := by
  rw [UnitSpec.settled, hm]
  have h : v.CarriedBy config (v.settle config m) := carriedBy_settle hm
  refine Spec.bare_nodes_of_root ⟨?_, h.outer.trans houter⟩ h.inner
  rw [h.stages (ofTag?_of_primitive hm), htransform]

theorem bare_of_drawing {r : Composite.Recipe} (hr : r ∈ Composite.Recipe.all) {p : Composite}
    {dr : Composite.Drawing} (hdr : dr ∈ r.drawings p config) (hv : dr.unit p config = .ok v) :
    v.transform = [] ∧ v.outer = ∅ := by
  obtain ⟨m, hm⟩ := Composite.Recipe.primitive_base hr hdr
  obtain ⟨mark, -, -, rfl⟩ := Composite.Drawing.unit_eq_ok hm hv
  exact ⟨rfl, rfl⟩

theorem Flat.carriedBy (h : Flat config u t) : u.CarriedBy config t := by
  cases h with
  | primitive hm => exact carriedBy_settle hm
  | @composite r l ws units hr h hl hunits =>
    obtain ⟨p, _, units', -, hdrawn, rfl⟩ := Composite.Recipe.expand_eq_noted h
    obtain rfl : units' = units := List.map_injective_iff.2 (fun _ _ => Spec.unit.inj) hl
    refine ⟨⟨rfl, iff_of_true rfl (.inl (by rw [hr]; rfl))⟩, ?_, ?_, rfl, fun node hn => ?_⟩
    · simp only [Spec.transform, Composite.pipeline, List.append_assoc]
      exact List.prefix_append ..
    · intro hnone
      rw [hr] at hnone
      cases hnone
    · rw [Spec.nodes_layer, List.tail_cons, List.flatMap_map, List.mem_flatMap] at hn
      obtain ⟨v, hv, hn⟩ := hn
      obtain ⟨m, hm⟩ := hunits v hv
      obtain ⟨dr, hdr, hunit⟩ := exists_of_forall₂ hdrawn hv
      have hbare := bare_of_drawing (Composite.Recipe.mem_all_of_ofTag? hr).1 (List.mem_filter.1 hdr).1 hunit
      exact bare_settled hm.primitive hbare.1 hbare.2 node hn

theorem properties_carriedBy (h : u.CarriedBy config t) : t.properties = ↑u.outer.entries := by
  rw [Spec.properties_of_bare h.inner, h.outer]

/-! ### Runs -/

theorem replaces_of_spec {scope : Scope} {s : Spec} {ws : List Warning}
    (h : (standard config).spec (expansion config) scope s = .noted t ws) : Replaces config scope s t := by
  refine spec_rules (P := Replaces config) ?_ ?_ ?_ ?_ ?_ h
  · intro scope u t hf ht
    exact .unit (fun _ => hf) ht.carriedBy
  · intro u t hf ht
    exact .wrap (v := u.cell) hf rfl rfl rfl rfl ht.carriedBy
  · intro scope u t hs _ ht
    -- the facet channels that are lost carry neither stages nor properties
    obtain ⟨hkind, htransform, hstages, houter, hinner⟩ := ht.carriedBy
    exact .unit (fun hs' => absurd hs' hs) ⟨hkind, htransform, hstages, houter, hinner⟩
  · intro scope transform layers ts outer hts
    exact .layer hts
  · intro transform mapping child t outer ht
    exact .facet ht

theorem restrict_add_restrict (o : Object) (keep : String → Bool) :
    (↑(o.restrict fun k => !keep k).entries + ↑(o.restrict keep).entries : Multiset (String × Json)) =
      ↑o.entries := by
  rw [OrderedMap.entries_restrict, OrderedMap.entries_restrict, Multiset.coe_add, Multiset.coe_eq_coe]
  exact (List.perm_append_comm).trans (List.filter_append_perm (fun e => keep e.1) o.entries)

theorem properties_of_spec {scope : Scope} {s : Spec} {ws : List Warning}
    (h : (standard config).spec (expansion config) scope s = .noted t ws) : t.properties = s.properties := by
  refine spec_rules (P := fun _ s t => t.properties = s.properties) ?_ ?_ ?_ ?_ ?_ h
  · intro scope u t _ ht
    rw [properties_carriedBy ht.carriedBy, Spec.properties_unit]
  · intro u t _ ht
    rw [Spec.properties_facet, properties_carriedBy ht.carriedBy, Spec.properties_unit]
    have hsplit := restrict_add_restrict u.outer (· ∈ UnitSpec.cellProperties)
    simpa [UnitSpec.cell] using hsplit
  · intro scope u t _ _ ht
    rw [properties_carriedBy ht.carriedBy, Spec.properties_unit]
    rfl
  · intro scope transform layers ts outer hts
    rw [Spec.properties_layer, Spec.properties_layer]
    congr 2
    induction hts with
    | nil => rfl
    | cons hst _ ih => rw [List.map_cons, List.map_cons, hst, ih]
  · intro transform mapping child t outer ht
    rw [Spec.properties_facet, Spec.properties_facet, ht]

/-- **Nothing is lost.** The properties of the result are those of what was given, each as often, and each node is replaced
by one that carries its stages and properties along. -/
theorem normalize_keeps_properties {s : Spec} {ws : List Warning} (h : (standard config).normalize s = .noted t ws) :
    t.properties = s.properties ∧ Replaces config .top s t :=
  ⟨properties_of_spec h, replaces_of_spec h⟩

/-- Error bars with points on the line through their centres: a layer of overlays in the layer of parts in a facet. -/
theorem normalize_keeps_properties_errorBars :
    let bars : Spec := .unit
      { transform := [.calculate ⟨"datum.a / 2", "half"⟩]
        mark := .defined
          { type := "errorbar", props := .ofList [("line", .obj [("point", .bool true)])] }
        encoding := .ofList [(.row, .field { field := some "site", type := .nominal }),
          (.x, .field { field := some "year", type := .ordinal }),
          (.y, .field { field := some "half", type := .quantitative })]
        outer := .ofList [("width", .num (.int 200)), ("title", .str "Yields")] }
    ∃ t ws, (standard .defaults).normalize bars = .noted t ws ∧
      t.properties = bars.properties ∧ Replaces .defaults .top bars t := by
  intro bars
  have hfirst : ((standard .defaults).normalize bars).failure? = none := rfl
  obtain ⟨t, ws, h⟩ := Report.failure?_eq_none_iff.1 hfirst
  exact ⟨t, ws, h, normalize_keeps_properties h⟩

end Normalizer

end ChartNormal
