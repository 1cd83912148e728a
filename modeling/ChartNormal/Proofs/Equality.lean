import ChartNormal.Proofs.NormalForm
import ChartNormal.Proofs.Readback.RoundTrip
import ChartNormal.Proofs.Reorder.Encoding

/-!
# Equality and the order of properties

A specification is equal to itself where no key repeats inside its values. Normalization keeps it so, as long as all marks
are primitive (`Normalizer.same_self_of_spec`), and then the order of the properties of its marks does not count
(`Spec.MarksReorder.same`).
-/

namespace ChartNormal

/-! ### Equality with itself, part by part -/

theorem sameList_self_iff {α : Type} {eq : α → α → Bool} {l : List α} :
    sameList eq l l = true ↔ ∀ a ∈ l, eq a a = true := by
  refine ⟨fun h a ha => ?_, sameList_self⟩
  rw [sameList, Bool.and_eq_true, List.all_eq_true] at h
  obtain ⟨i, hi, rfl⟩ := List.mem_iff_getElem.1 ha
  exact h.2 (l[i], l[i]) (List.mem_iff_getElem.2 ⟨i, by simpa using hi, by simp⟩)

theorem OrderedMap.same_self_iff {κ α : Type} [DecidableEq κ] {eq : α → α → Bool} {m : OrderedMap κ α} :
    m.same eq m = true ↔ ∀ e ∈ m.entries, eq e.2 e.2 = true := by
  refine ⟨fun h e he => ?_, same_self⟩
  rw [OrderedMap.same, Bool.and_eq_true, List.all_eq_true] at h
  simpa [get?_eq_some_iff.2 he] using h.2 e he

/-- The order of a map does not count. -/
theorem OrderedMap.Reorders.same {κ α : Type} [DecidableEq κ] {eq : α → α → Bool} {m n : OrderedMap κ α}
    (h : m.Reorders n) (hself : m.same eq m = true) : m.same eq n = true := by
  rw [OrderedMap.same, Bool.and_eq_true, List.all_eq_true]
  refine ⟨decide_eq_true h.length_eq, fun e he => ?_⟩
  rw [← h.get? e.1, get?_eq_some_iff.2 he]
  exact same_self_iff.1 hself e he

theorem MarkDef.same_props (d : MarkDef) (props : Object) : d.same { d with props } = Object.same d.props props := by
  have hextent : sameOption Extent.same d.extent d.extent = true := sameOption_self fun e _ => e.same_self
  have hopacity : sameOption Double.same d.opacity d.opacity = true := sameOption_self fun x _ => x.same_self
  have htension : sameOption Double.same d.tension d.tension = true := sameOption_self fun x _ => x.same_self
  simp [MarkDef.same, hextent, hopacity, htension]

theorem Mark.same_self_iff {m : Mark} : m.same m = true ↔ ∀ e ∈ m.toDef.props.entries, e.2.same e.2 = true := by
  cases m with
  | tag name => exact iff_of_true (decide_eq_true rfl) (List.forall_mem_nil _)
  | defined d =>
    have hprops : d.same d = Object.same d.props d.props := d.same_props d.props
    rw [Mark.same, hprops]
    exact OrderedMap.same_self_iff

theorem UnitSpec.same_self_iff {u : UnitSpec} :
    u.same u = true ↔ sameList Transform.same u.transform u.transform = true ∧ u.mark.same u.mark = true ∧
      OrderedMap.same ChannelDef.same u.encoding u.encoding = true ∧ Object.same u.outer u.outer = true := by
  simp [UnitSpec.same, and_assoc]

theorem Spec.sameAll_self_iff {layers : List Spec} : sameAll layers layers = true ↔ ∀ s ∈ layers, s.same s = true := by
  induction layers with
  | nil => simp [sameAll]
  | cons s rest ih => rw [sameAll, Bool.and_eq_true, ih, List.forall_mem_cons]

theorem OrderedMap.same_self_restrict {κ α : Type} [DecidableEq κ] {eq : α → α → Bool} {m : OrderedMap κ α}
    (h : m.same eq m = true) (keep : κ → Bool) : (m.restrict keep).same eq (m.restrict keep) = true :=
  same_self fun e he => same_self_iff.1 h e (mem_restrict.1 he).1

/-! ### Marks with their properties in another order -/

/-- The same mark, with its free-form properties in some order. -/
inductive Mark.Reorders : Mark → Mark → Prop
  | tag (name : String) : Reorders (.tag name) (.tag name)
  | defined {d : MarkDef} {props : Object} (h : d.props.Reorders props) : Reorders (.defined d) (.defined { d with props })

theorem Mark.Reorders.refl (m : Mark) : m.Reorders m := by
  cases m with
  | tag name => exact .tag name
  | defined d => exact .defined (.refl _)

theorem Mark.Reorders.same {m m' : Mark} (h : m.Reorders m') (hself : m.same m = true) : m.same m' = true := by
  cases h with
  | tag name => exact hself
  | @defined d props h =>
    rw [Mark.same, d.same_props]
    exact h.same (OrderedMap.same_self_iff.2 (Mark.same_self_iff.1 hself))

namespace Spec

/-- The same tree, with the free-form properties of each mark in some order. -/
inductive MarksReorder : Spec → Spec → Prop
  | unit {u : UnitSpec} {mark : Mark} (h : u.mark.Reorders mark) : MarksReorder (.unit u) (.unit { u with mark })
  | layer {transform : List Transform} {layers layers' : List Spec} {outer : Object}
      (h : List.Forall₂ MarksReorder layers layers') :
      MarksReorder (.layer transform layers outer) (.layer transform layers' outer)
  | facet {transform : List Transform} {mapping : FacetMapping} {child child' : Spec} {outer : Object}
      (h : MarksReorder child child') :
      MarksReorder (.facet transform mapping child outer) (.facet transform mapping child' outer)

theorem sameAll_of_forall₂ {layers layers' : List Spec} (h : List.Forall₂ (fun s t => s.same t = true) layers layers') :
    sameAll layers layers' = true := by
  induction h with
  | nil => rfl
  | cons hs _ ih => rw [sameAll, hs, ih]; rfl

theorem MarksReorder.same {s t : Spec} (h : s.MarksReorder t) (hself : s.same s = true) : s.same t = true := by
  induction s generalizing t with
  | unit u =>
    cases h with
    | unit h =>
      obtain ⟨htransform, hmark, hencoding, houter⟩ := UnitSpec.same_self_iff.1 hself
      have hmark' : u.mark.same _ = true := h.same hmark
      rw [Spec.same, UnitSpec.same, htransform, hmark', hencoding, houter]
      rfl
  | layer transform layers outer ih =>
    cases h with
    | layer h =>
      rw [Spec.same, Bool.and_eq_true, Bool.and_eq_true] at hself ⊢
      refine ⟨⟨hself.1.1, sameAll_of_forall₂ ?_⟩, hself.2⟩
      have hlayers := sameAll_self_iff.1 hself.1.2
      refine ((List.forall₂_and_left layers _).2 ⟨fun s hs => hs, h⟩).imp fun s t hst => ?_
      exact ih s hst.1 hst.2 (hlayers s hst.1)
  | facet transform mapping child outer ih =>
    cases h with
    | facet h =>
      rw [Spec.same, Bool.and_eq_true, Bool.and_eq_true] at hself ⊢
      exact ⟨⟨hself.1.1, ih h hself.1.2⟩, hself.2⟩

end Spec

/-! ### Settled units -/

theorem ChannelDef.same_self_settled? {c : Channel} {d d' : ChannelDef} (h : d.same d = true)
    (hd : d.settled? c = some d') : d'.same d' = true := by
  rcases eq_of_settled? hd with rfl | ⟨defs, rfl, rfl⟩
  · exact h
  · exact sameList_self fun f hf => sameList_self_iff.1 h f (List.mem_filter.1 hf).1

namespace UnitSpec

variable {u : UnitSpec}

theorem same_self_drawn (h : OrderedMap.same ChannelDef.same u.encoding u.encoding = true) (m : Primitive) :
    OrderedMap.same ChannelDef.same (u.drawn m) (u.drawn m) = true := by
  refine OrderedMap.same_self ?_
  rintro ⟨c, d⟩ hb
  obtain ⟨d', hmem, hd⟩ := OrderedMap.mem_filterMapValues.1 hb
  obtain ⟨c₀, hmem, -⟩ := Encoding.mem_promoteSecondary.1 hmem
  split at hd
  · exact ChannelDef.same_self_settled? (OrderedMap.same_self_iff.1 h _ hmem) hd
  · cases hd

theorem same_self_overlaidMark (h : u.mark.same u.mark = true) (m : Primitive) :
    Mark.same (.defined (u.overlaidMark m)) (.defined (u.overlaidMark m)) = true := by
  have hflag : ∀ {d : MarkDef} (key : String), (∀ e ∈ d.props.entries, e.2.same e.2 = true) →
      ∀ e ∈ (d.withProp key (.bool false)).props.entries, e.2.same e.2 = true := by
    intro d key hd e he
    rcases OrderedMap.mem_insert he with rfl | he
    · rfl
    · exact hd e he
  have hpoint := hflag "point" (Mark.same_self_iff.1 h)
  refine Mark.same_self_iff.2 ?_
  unfold overlaidMark
  split
  · exact hflag "line" hpoint
  · exact hpoint

theorem same_self_settle (h : u.same u = true) (config : Config) (m : Primitive) :
    (u.settle config m).same (u.settle config m) = true := by
  obtain ⟨htransform, hmark, hencoding, houter⟩ := same_self_iff.1 h
  have hdrawn := same_self_drawn hencoding m
  -- the units of an overlay begin afresh
  have hfresh : ∀ {mark : Mark} {e : Encoding}, mark.same mark = true → OrderedMap.same ChannelDef.same e e = true →
      UnitSpec.same { mark, encoding := e } { mark, encoding := e } = true :=
    fun hmark he => same_self_iff.2 ⟨rfl, hmark, he, rfl⟩
  rcases settle_cases u config m with ⟨-, hs⟩ | ⟨-, above, hs, habove⟩
  · rw [hs, Spec.same]
    exact same_self_iff.2 ⟨htransform, hmark, hdrawn, houter⟩
  · have hunits : ∀ v ∈ u.overlaid m :: above, v.same v = true := by
      refine List.forall_mem_cons.2 ⟨hfresh (same_self_overlaidMark hmark m) hdrawn, fun v hv => ?_⟩
      rcases habove v hv with rfl | rfl
      · refine hfresh (Mark.same_self_iff.2 ?_) (OrderedMap.same_self_restrict hdrawn _)
        exact List.forall_mem_singleton.2 rfl
      · refine hfresh (Mark.same_self_iff.2 ?_) (OrderedMap.same_self_restrict hdrawn _)
        exact List.forall_mem_nil _
    have hlayers : Spec.sameAll ((u.overlaid m :: above).map .unit) ((u.overlaid m :: above).map .unit) = true :=
      Spec.sameAll_self (List.forall_mem_map.2 hunits)
    rw [hs, Spec.same, htransform, hlayers, houter]
    rfl

theorem same_self_facetMapping (h : OrderedMap.same ChannelDef.same u.encoding u.encoding = true) :
    u.facetMapping.same u.facetMapping = true := by
  have hfield : ∀ c, sameOption FieldDef.same (u.facetField? c) (u.facetField? c) = true := by
    intro c
    refine sameOption_self fun d hd => ?_
    obtain ⟨hget, -⟩ := facetField?_eq_some_iff.1 hd
    exact OrderedMap.same_self_iff.1 h _ (OrderedMap.get?_eq_some_iff.1 hget)
  rw [FacetMapping.same, facetMapping, hfield, hfield]
  rfl

end UnitSpec

/-! ### Runs -/

namespace Normalizer

variable {config : Config}

theorem Flat.same_self {u : UnitSpec} {t : Spec} (ht : Flat config u t) {m : Primitive} (hm : u.mark.primitive? = some m)
    (hu : u.same u = true) : t.same t = true := by
  cases ht with
  | primitive hm' => exact UnitSpec.same_self_settle hu config _
  | composite hr h hl hunits =>
    rw [ofTag?_of_primitive hm] at hr
    cases hr

theorem same_self_of_spec {scope : Scope} {s t : Spec} {ws : List Warning}
    (h : (standard config).spec (expansion config) scope s = .noted t ws) :
    (∀ u ∈ s.leaves, ∃ m, u.mark.primitive? = some m) → s.same s = true → t.same t = true := by
  refine spec_rules (P := fun _ s t => (∀ u ∈ s.leaves, ∃ m, u.mark.primitive? = some m) → s.same s = true →
    t.same t = true) ?_ ?_ ?_ ?_ ?_ h
  · intro scope u t _ ht hmarks hu
    obtain ⟨m, hm⟩ := hmarks u List.mem_cons_self
    exact ht.same_self hm hu
  · intro u t _ ht hmarks hu
    obtain ⟨m, hm⟩ := hmarks u List.mem_cons_self
    obtain ⟨htransform, hmark, hencoding, houter⟩ := UnitSpec.same_self_iff.1 hu
    have hcell : u.cell.same u.cell = true := UnitSpec.same_self_iff.2
      ⟨rfl, hmark, OrderedMap.same_self_restrict hencoding _, OrderedMap.same_self_restrict houter _⟩
    have houtside := OrderedMap.same_self_restrict houter (· ∉ UnitSpec.cellProperties)
    rw [Spec.same, htransform, UnitSpec.same_self_facetMapping hencoding, ht.same_self hm hcell, Object.same, houtside]
    rfl
  · intro scope u t _ _ ht hmarks hu
    obtain ⟨m, hm⟩ := hmarks u List.mem_cons_self
    obtain ⟨htransform, hmark, hencoding, houter⟩ := UnitSpec.same_self_iff.1 hu
    exact ht.same_self hm
      (UnitSpec.same_self_iff.2 ⟨htransform, hmark, OrderedMap.same_self_restrict hencoding _, houter⟩)
  · intro scope transform layers ts outer hts hmarks hs
    rw [Spec.same, Bool.and_eq_true, Bool.and_eq_true, Spec.sameAll_self_iff] at hs ⊢
    refine ⟨⟨hs.1.1, fun t ht => ?_⟩, hs.2⟩
    have hall := (List.forall₂_and_left layers ts).2 ⟨fun s hs => hs, hts⟩
    obtain ⟨s, -, hmem, hst⟩ := exists_of_forall₂ hall ht
    refine hst (fun u hu => hmarks u ?_) (hs.1.2 s hmem)
    rw [Spec.leaves_layer]
    exact List.mem_flatMap.2 ⟨s, hmem, hu⟩
  · intro transform mapping child t outer ht hmarks hs
    rw [Spec.same, Bool.and_eq_true, Bool.and_eq_true] at hs ⊢
    exact ⟨⟨hs.1.1, ht hmarks hs.1.2⟩, hs.2⟩

end Normalizer

end ChartNormal
