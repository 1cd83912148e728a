import ChartNormal.Proofs.Standard

/-!
# Normal form

A specification is in normal form when facets stand at the top only, and each unit has a primitive mark that asks for no
overlay and binds only channels that the mark supports, each to something that is drawn. Normalization leads there,
through every kind of step (`facets_of_spec`, `normal_of_spec`).
-/

namespace ChartNormal

/-- Something is asked to be drawn over the mark: by its own property `name` if that is a boolean, else by what is
configured. -/
def Mark.asksFor (m : Mark) (name : String) (configured : Bool) : Bool :=
  (m.def?.bind (·.flag? name)).getD configured

/-- A line asks for no points, and an area neither for a line nor for points. -/
structure Mark.Plain (config : Config) (m : Mark) : Prop where
  line : m.type = "line" → m.asksFor "point" config.overlay.line = false
  area : m.type = "area" → m.asksFor "line" config.overlay.area.isSome = false ∧
    m.asksFor "point" (config.overlay.area = some .linePoint) = false

structure UnitSpec.Normal (config : Config) (u : UnitSpec) : Prop where
  primitive : ∃ m, Primitive.ofName? u.mark.type = some m
  noFacet : .row ∉ u.encoding.channels ∧ .column ∉ u.encoding.channels
  supported : ∀ m, Primitive.ofName? u.mark.type = some m → ∀ c ∈ u.encoding.channels, c.supports m = true
  bound : ∀ b ∈ u.encoding.entries, b.2.Normal b.1
  plain : u.mark.Plain config

def Spec.isFacet : Spec → Bool
  | .facet .. => true
  | _ => false

structure Spec.NormalForm (config : Config) (s : Spec) : Prop where
  /-- No node below the root is a facet. -/
  facets : ∀ node ∈ (s.nodes .top).tail, node.2.isFacet = false
  units : ∀ u ∈ s.leaves, u.Normal config

/-! ### Overlays -/

theorem eq_of_name_eq {m m' : Primitive} (h : m.name = m'.name) : m = m' := by
  have hm := Primitive.ofName?_name m
  rw [h, Primitive.ofName?_name] at hm
  exact (Option.some.inj hm).symm

theorem plain_iff_overlays {config : Config} {u : UnitSpec} {m : Primitive} (hm : u.mark.primitive? = some m) :
    u.mark.Plain config ↔ u.overlays config m = (false, false) := by
  have htype : u.mark.type = m.name := (Primitive.ofName?_eq_some hm).symm
  constructor
  · rintro ⟨hline, harea⟩
    cases m with
    | line => exact Prod.ext rfl (hline htype)
    | area => exact Prod.ext (harea htype).1 (harea htype).2
    | _ => rfl
  · intro h
    refine ⟨fun hl => ?_, fun ha => ?_⟩
    · obtain rfl : m = .line := eq_of_name_eq (htype.symm.trans hl)
      exact congrArg Prod.snd h
    · obtain rfl : m = .area := eq_of_name_eq (htype.symm.trans ha)
      exact ⟨congrArg Prod.fst h, congrArg Prod.snd h⟩

theorem asksFor_withProp (d : MarkDef) (name : String) (configured : Bool) :
    (Mark.defined (d.withProp name (.bool false))).asksFor name configured = false := by
  simp [Mark.asksFor, Mark.def?, MarkDef.flag?, MarkDef.withProp, OrderedMap.get?_insert, Json.bool?]

theorem asksFor_withProp_of_ne (d : MarkDef) {name key : String} (h : name ≠ key) (v : Json) (configured : Bool) :
    (Mark.defined (d.withProp key v)).asksFor name configured = (Mark.defined d).asksFor name configured := by
  simp [Mark.asksFor, Mark.def?, MarkDef.flag?, MarkDef.withProp, OrderedMap.get?_insert, h]

theorem type_overlaidMark (u : UnitSpec) (m : Primitive) : (u.overlaidMark m).type = u.mark.type := by
  unfold UnitSpec.overlaidMark
  split <;> exact Composite.type_toDef u.mark

theorem plain_overlaidMark {u : UnitSpec} {m : Primitive} (hm : u.mark.primitive? = some m) (config : Config) :
    (Mark.defined (u.overlaidMark m)).Plain config := by
  have htype : (u.overlaidMark m).type = m.name :=
    (type_overlaidMark u m).trans (Primitive.ofName?_eq_some hm).symm
  refine ⟨fun h => ?_, fun h => ?_⟩
  · obtain rfl : m = .line := eq_of_name_eq (htype.symm.trans h)
    exact asksFor_withProp ..
  · obtain rfl : m = .area := eq_of_name_eq (htype.symm.trans h)
    refine ⟨asksFor_withProp .., ?_⟩
    exact (asksFor_withProp_of_ne _ (by decide) _ _).trans (asksFor_withProp ..)

/-! ### Settled units -/

namespace UnitSpec

variable {config : Config} {u v : UnitSpec} {m : Primitive}

/-- What the mark draws of the encoding. -/
def drawn (u : UnitSpec) (m : Primitive) : Encoding := u.encoding.promoteSecondary.settle m

theorem hasFacetChannel_eq_false_iff :
    u.hasFacetChannel = false ↔ .row ∉ u.encoding.channels ∧ .column ∉ u.encoding.channels := by
  rw [hasFacetChannel, List.any_eq_false]
  constructor
  · intro h
    exact ⟨fun hc => h _ hc rfl, fun hc => h _ hc rfl⟩
  · rintro ⟨hrow, hcolumn⟩ c hc hf
    cases c with
    | row => exact hrow hc
    | column => exact hcolumn hc
    | _ => cases hf

theorem facetField?_eq_some_iff {c : Channel} {d : FieldDef} :
    u.facetField? c = some d ↔ u.encoding.get? c = some (.field d) ∧ d.hasField = true := by
  rw [facetField?, Option.filter_eq_some_iff, Encoding.field?, Option.bind_eq_some_iff]
  refine and_congr_left fun _ => ⟨?_, fun h => ⟨_, h, rfl⟩⟩
  rintro ⟨def', h, hd⟩
  cases def' <;> cases hd
  exact h

/-- The mark under its overlays. -/
def overlaid (u : UnitSpec) (m : Primitive) : UnitSpec :=
  { mark := .defined (u.overlaidMark m), encoding := u.drawn m }

/-- A unit stays one, or becomes a layer of the mark under its overlays and the overlays. -/
theorem settle_cases (u : UnitSpec) (config : Config) (m : Primitive) :
    (u.overlays config m = (false, false) ∧ u.settle config m = .unit { u with encoding := u.drawn m }) ∨
      (u.overlays config m ≠ (false, false) ∧
        ∃ above : List UnitSpec, u.settle config m = .layer u.transform ((u.overlaid m :: above).map .unit) u.outer ∧
          ∀ v ∈ above, v = lineOverlay (u.overlaidMark m).color (u.drawn m) ∨
            v = pointOverlay (u.overlaidMark m).color (u.drawn m)) := by
  unfold settle
  rcases u.overlays config m with ⟨line, point⟩
  cases line <;> cases point
  · exact .inl ⟨rfl, rfl⟩
  · exact .inr ⟨by decide, [pointOverlay (u.overlaidMark m).color (u.drawn m)], rfl, by simp⟩
  · exact .inr ⟨by decide, [lineOverlay (u.overlaidMark m).color (u.drawn m)], rfl, by simp⟩
  · exact .inr ⟨by decide, [lineOverlay (u.overlaidMark m).color (u.drawn m),
      pointOverlay (u.overlaidMark m).color (u.drawn m)], rfl, by simp⟩

theorem leaves_map_unit (units : List UnitSpec) : (units.map Spec.unit).flatMap Spec.leaves = units := by
  rw [List.flatMap_map]
  exact List.flatMap_singleton' units

theorem mem_leaves_settle (h : v ∈ (u.settle config m).leaves) :
    (u.overlays config m = (false, false) ∧ v = { u with encoding := u.drawn m }) ∨ v = u.overlaid m ∨
      v = lineOverlay (u.overlaidMark m).color (u.drawn m) ∨
      v = pointOverlay (u.overlaidMark m).color (u.drawn m) := by
  rcases settle_cases u config m with ⟨ho, hs⟩ | ⟨-, above, hs, habove⟩
  · rw [hs, Spec.leaves_unit, List.mem_singleton] at h
    exact .inl ⟨ho, h⟩
  · rw [hs, Spec.leaves_layer, leaves_map_unit, List.mem_cons] at h
    rcases h with h | h
    · exact .inr (.inl h)
    · exact .inr (.inr (habove v h))

theorem channels_drawn {c : Channel} (hc : c ∈ (u.drawn m).channels) :
    c ∈ u.encoding.channels ∨ ∃ c₂, c.secondary? = some c₂ := by
  obtain ⟨⟨c', d⟩, hd, rfl⟩ := List.mem_map.1 (Encoding.channels_settle_subset _ _ hc)
  obtain ⟨c₀, hd, hc₀⟩ := Encoding.mem_promoteSecondary.1 hd
  rcases Encoding.promoted_cases u.encoding c₀ with ⟨h₀, -⟩ | ⟨p, hp, -, h₀⟩
  · rw [h₀] at hc₀
    exact .inl (List.mem_map.2 ⟨_, hd, hc₀⟩)
  · obtain rfl : p = c' := h₀.symm.trans hc₀
    exact .inr ⟨c₀, hp⟩

theorem noFacet_drawn (h : u.hasFacetChannel = false) :
    .row ∉ (u.drawn m).channels ∧ .column ∉ (u.drawn m).channels := by
  obtain ⟨hrow, hcolumn⟩ := hasFacetChannel_eq_false_iff.1 h
  refine ⟨fun hc => ?_, fun hc => ?_⟩
  · rcases channels_drawn hc with hc | ⟨c₂, hc⟩
    · exact hrow hc
    · cases hc
  · rcases channels_drawn hc with hc | ⟨c₂, hc⟩
    · exact hcolumn hc
    · cases hc

/-- A unit is normal if its encoding is settled under its mark and has no facet channel, and the mark is plain. -/
theorem Normal.of_settled (hm : v.mark.primitive? = some m) (he : v.encoding.Settled m)
    (hf : .row ∉ v.encoding.channels ∧ .column ∉ v.encoding.channels) (hp : v.mark.Plain config) :
    v.Normal config := by
  refine ⟨⟨m, hm⟩, hf, ?_, fun b hb => (he b hb).2, hp⟩
  intro m' hm' c hc
  obtain rfl : m = m' := Option.some.inj (hm.symm.trans hm')
  obtain ⟨b, hb, rfl⟩ := List.mem_map.1 hc
  exact (he b hb).1

theorem Normal.settled (h : v.Normal config) (hm : v.mark.primitive? = some m) : v.encoding.Settled m :=
  fun b hb => ⟨h.supported m hm b.1 (OrderedMap.mem_keys_of_mem hb), h.bound b hb⟩

theorem noFacet_supportedBy {e : Encoding} (h : .row ∉ e.channels ∧ .column ∉ e.channels) :
    .row ∉ (e.supportedBy m).channels ∧ .column ∉ (e.supportedBy m).channels := by
  have hsub : ∀ c, c ∈ (e.supportedBy m).channels → c ∈ e.channels := by
    intro c hc
    obtain ⟨b, hb, rfl⟩ := List.mem_map.1 hc
    exact List.mem_map.2 ⟨b, (OrderedMap.mem_restrict.1 hb).1, rfl⟩
  exact ⟨fun hc => h.1 (hsub _ hc), fun hc => h.2 (hsub _ hc)⟩

theorem normal_of_mem_settle (hm : u.mark.primitive? = some m) (hf : u.hasFacetChannel = false)
    (h : v ∈ (u.settle config m).leaves) : v.Normal config := by
  have he : (u.drawn m).Settled m := Encoding.settled_settle _ m
  rcases mem_leaves_settle h with ⟨ho, rfl⟩ | rfl | rfl | rfl
  · exact .of_settled hm he (noFacet_drawn hf) ((plain_iff_overlays hm).2 ho)
  · have hbase : (u.overlaid m).mark.primitive? = some m :=
      (congrArg Primitive.ofName? (type_overlaidMark u m)).trans hm
    exact .of_settled hbase he (noFacet_drawn hf) (plain_overlaidMark hm config)
  · exact .of_settled (m := .line) rfl he.restrict (noFacet_supportedBy (noFacet_drawn hf))
      ((plain_iff_overlays (m := .line) rfl).2 rfl)
  · exact .of_settled (m := .point) rfl he.restrict (noFacet_supportedBy (noFacet_drawn hf))
      ((plain_iff_overlays (m := .point) rfl).2 rfl)

theorem isFacet_of_mem_nodes_settle {scope : Scope} {node : Scope × Spec}
    (h : node ∈ (u.settle config m).nodes scope) : node.2.isFacet = false := by
  rcases settle_cases u config m with ⟨-, hs⟩ | ⟨-, above, hs, -⟩
  · rw [hs, Spec.nodes_unit, List.mem_singleton] at h
    rw [h]; rfl
  · rw [hs, Spec.nodes_layer, List.mem_cons, List.flatMap_map, List.mem_flatMap] at h
    rcases h with rfl | ⟨v, -, h⟩
    · rfl
    · rw [Spec.nodes_unit, List.mem_singleton] at h
      rw [h]; rfl

end UnitSpec

/-! ### Runs -/

namespace Normalizer

variable {config : Config} {u : UnitSpec} {t : Spec}

/-- The units of an expansion are those that its parts are settled to. -/
theorem mem_leaves_parts {units : List UnitSpec} (hunits : ∀ w ∈ units, ∃ m, Composite.IsPart w m)
    {transform : List Transform} {outer : Object} {v : UnitSpec}
    (hv : v ∈ (Spec.layer transform (units.map (·.settled config)) outer).leaves) :
    ∃ w m, Composite.IsPart w m ∧ v ∈ (w.settle config m).leaves := by
  rw [Spec.leaves_layer, List.flatMap_map, List.mem_flatMap] at hv
  obtain ⟨w, hw, hv⟩ := hv
  obtain ⟨m, hm⟩ := hunits w hw
  rw [UnitSpec.settled, hm.primitive] at hv
  exact ⟨w, m, hm, hv⟩

theorem Flat.normal (h : Flat config u t) (hf : u.hasFacetChannel = false) : ∀ v ∈ t.leaves, v.Normal config := by
  intro v hv
  cases h with
  | primitive hm => exact UnitSpec.normal_of_mem_settle hm hf hv
  | composite hr _ hl hunits =>
    obtain ⟨w, m, hm, hv⟩ := mem_leaves_parts hunits hv
    exact UnitSpec.normal_of_mem_settle hm.primitive hm.flat hv

theorem Flat.noFacet (h : Flat config u t) {scope : Scope} {node : Scope × Spec} (hn : node ∈ t.nodes scope) :
    node.2.isFacet = false := by
  cases h with
  | primitive hm => exact UnitSpec.isFacet_of_mem_nodes_settle hn
  | composite hr _ hl hunits =>
    rw [Spec.nodes_layer, List.mem_cons, List.flatMap_map, List.mem_flatMap] at hn
    rcases hn with rfl | ⟨w, hw, hn⟩
    · rfl
    · obtain ⟨m, hm⟩ := hunits w hw
      rw [UnitSpec.settled, hm.primitive] at hn
      exact UnitSpec.isFacet_of_mem_nodes_settle hn

theorem hasFacetChannel_without (u : UnitSpec) :
    .row ∉ (u.encoding.without [.row, .column]).channels ∧ .column ∉ (u.encoding.without [.row, .column]).channels := by
  constructor <;>
  · intro hc
    obtain ⟨b, hb, hc⟩ := List.mem_map.1 hc
    have := (OrderedMap.mem_restrict.1 hb).2
    simp [hc] at this

theorem hasFacetChannel_cell (u : UnitSpec) : u.cell.hasFacetChannel = false :=
  UnitSpec.hasFacetChannel_eq_false_iff.2 (hasFacetChannel_without u)

theorem hasFacetChannel_withoutFacets (u : UnitSpec) : u.withoutFacets.hasFacetChannel = false :=
  UnitSpec.hasFacetChannel_eq_false_iff.2 (hasFacetChannel_without u)

/-- Facets that are left stand at the top, wherever the tree stands. -/
theorem facets_of_spec {scope : Scope} {s : Spec} {ws : List Warning}
    (h : (standard config).spec (expansion config) scope s = .noted t ws) :
    ∀ node ∈ t.nodes scope, node.2.isFacet = true → node.1 = .top := by
  refine spec_rules (P := fun scope _ t => ∀ node ∈ t.nodes scope, node.2.isFacet = true → node.1 = .top)
    ?_ ?_ ?_ ?_ ?_ h
  · intro scope u t _ ht node hn hfacet
    rw [ht.noFacet hn] at hfacet
    cases hfacet
  · intro u t _ ht node hn hfacet
    rcases List.mem_cons.1 (Spec.nodes_facet .. ▸ hn) with rfl | hn
    · rfl
    · rw [ht.noFacet hn] at hfacet
      cases hfacet
  · intro scope u t _ _ ht node hn hfacet
    rw [ht.noFacet hn] at hfacet
    cases hfacet
  · intro scope transform layers ts outer hts node hn hfacet
    rw [Spec.nodes_layer, List.mem_cons, List.mem_flatMap] at hn
    rcases hn with rfl | ⟨t, ht, hn⟩
    · cases hfacet
    · obtain ⟨s, -, hst⟩ := exists_of_forall₂ hts ht
      exact hst node hn hfacet
  · intro transform mapping child t outer ih node hn hfacet
    rcases List.mem_cons.1 (Spec.nodes_facet .. ▸ hn) with rfl | hn
    · rfl
    · exact ih node hn hfacet

theorem normal_of_spec {scope : Scope} {s : Spec} {ws : List Warning}
    (h : (standard config).spec (expansion config) scope s = .noted t ws) : ∀ v ∈ t.leaves, v.Normal config := by
  refine spec_rules (P := fun _ _ t => ∀ v ∈ t.leaves, v.Normal config) ?_ ?_ ?_ ?_ ?_ h
  · intro scope u t hf ht
    exact ht.normal hf
  · intro u t _ ht
    exact ht.normal (hasFacetChannel_cell u)
  · intro scope u t _ _ ht
    exact ht.normal (hasFacetChannel_withoutFacets u)
  · intro scope transform layers ts outer hts v hv
    rw [Spec.leaves_layer, List.mem_flatMap] at hv
    obtain ⟨t, ht, hv⟩ := hv
    obtain ⟨s, -, hst⟩ := exists_of_forall₂ hts ht
    exact hst v hv
  · intro transform mapping child t outer ih
    exact ih

/-- **Normal form.** Whatever a specification is normalized to is in normal form under the same configuration. -/
theorem normalForm_of_normalize {s : Spec} {ws : List Warning} (h : (standard config).normalize s = .noted t ws) :
    t.NormalForm config := by
  refine ⟨fun node hn => ?_, normal_of_spec h⟩
  rw [← Bool.not_eq_true]
  intro hfacet
  exact Spec.ne_top_of_mem_tail hn (facets_of_spec h node (List.mem_of_mem_tail hn) hfacet)

/-- A facet of areas under error bands, with channels that are dropped and overlays that the configuration asks for. -/
theorem normalForm_of_areasAndBands :
    ∃ t ws, (standard { overlay := { area := some .linePoint } }).normalize
        (.facet [] {}
          (.layer []
            [.unit
              { mark := .tag "area"
                encoding := .ofList [(.row, .value .null), (.detail, .fields [{ type := .nominal }]),
                  (.y, .field { field := some "yield", type := .quantitative })] },
              .unit
              { mark := .tag "errorband"
                encoding := .ofList [(.y, .field { field := some "yield", type := .quantitative })] }] ∅) ∅) =
        .noted t ws ∧
      t.NormalForm { overlay := { area := some .linePoint } } := by
  refine (Report.failure?_eq_none_iff.1 ?_).imp fun t => Exists.imp fun ws h => ⟨h, normalForm_of_normalize h⟩
  rfl

end Normalizer

end ChartNormal
