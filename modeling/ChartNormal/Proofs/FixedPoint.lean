import ChartNormal.Spec.Same
import ChartNormal.Proofs.NormalForm

/-!
# Normalizing again

On a specification in normal form only the promotion of range ends is left to do (`spec_of_normal`). A second pass
therefore changes nothing exactly when no unit has a range end that stands alone, and that happens exactly when a unit
that was given loses the near end of a range (`UnitSpec.LosesPrimary`): its near end is bound to nothing that is drawn,
which keeps the far end from being promoted in the first pass.
-/

namespace ChartNormal

namespace UnitSpec

/-- The unit with its range ends promoted. -/
def promoted (u : UnitSpec) : UnitSpec := { u with encoding := u.encoding.promoteSecondary }

/-- The mark is a primitive one that draws the far end of a range, and the near end is bound to nothing that is drawn. -/
def LosesPrimary (u : UnitSpec) : Prop := ∃ m, u.mark.primitive? = some m ∧ u.encoding.LosesPrimary m

theorem promoted_eq_self_iff {u : UnitSpec} : u.promoted = u ↔ ¬ u.encoding.HasOrphan := by
  rw [← Encoding.promoteSecondary_eq_self_iff]
  constructor
  · intro h
    exact congrArg UnitSpec.encoding h
  · intro h
    rw [promoted, h]

theorem not_hasOrphan_of_same {u : UnitSpec} (h : u.promoted.same u = true) : ¬ u.encoding.HasOrphan := by
  rintro ⟨c, c₂, hsec, hc₂, hc⟩
  have hget := Encoding.get?_promoteSecondary_primary (e := u.encoding) hsec
  rw [OrderedMap.contains, Option.isSome_eq_false_iff, Option.isNone_iff_eq_none] at hc
  obtain ⟨d, hd⟩ := Option.isSome_iff_exists.1 hc₂
  rw [hc, Option.none_or, hd, OrderedMap.get?_eq_some_iff] at hget
  simp only [UnitSpec.same, OrderedMap.same, promoted, Bool.and_eq_true, List.all_eq_true] at h
  have := h.1.2.2 _ hget
  rw [hc] at this
  cases this

end UnitSpec

namespace Spec

mutual

/-- The tree with the range ends of all its units promoted. -/
def promoted : Spec → Spec
  | .unit u => .unit u.promoted
  | .layer transform layers outer => .layer transform (promotedAll layers) outer
  | .facet transform mapping child outer => .facet transform mapping (promoted child) outer

def promotedAll : List Spec → List Spec
  | [] => []
  | s :: rest => promoted s :: promotedAll rest

end

theorem promotedAll_eq (layers : List Spec) : promotedAll layers = layers.map promoted := by
  induction layers with
  | nil => rfl
  | cons s rest ih => rw [promotedAll, ih, List.map_cons]

theorem promoted_layer (transform : List Transform) (layers : List Spec) (outer : Object) :
    (layer transform layers outer).promoted = .layer transform (layers.map promoted) outer := by
  rw [promoted, promotedAll_eq]

theorem promoted_eq_self_iff {s : Spec} : s.promoted = s ↔ ∀ u ∈ s.leaves, ¬ u.encoding.HasOrphan := by
  induction s with
  | unit u => simp [promoted, UnitSpec.promoted_eq_self_iff]
  | layer transform layers outer ih =>
    have hmap : layers.map promoted = layers ↔ ∀ s ∈ layers, s.promoted = s := by
      rw [← List.map_id layers, List.map_map, List.map_inj_left]
      simp
    rw [promoted_layer, layer.injEq, hmap]
    simp only [true_and, and_true, leaves_layer, List.mem_flatMap, forall_exists_index, and_imp]
    constructor
    · intro h u s hs hu
      exact (ih s hs).1 (h s hs) u hu
    · intro h s hs
      exact (ih s hs).2 fun u hu => h u s hs hu
  | facet transform mapping child outer ih => simp [promoted, ih]

theorem sameAll_eq {as bs : List Spec} (h : sameAll as bs = true) : List.Forall₂ (fun a b => a.same b = true) as bs := by
  induction as generalizing bs with
  | nil =>
    cases bs with
    | nil => exact .nil
    | cons b bs => cases h
  | cons a as ih =>
    cases bs with
    | nil => cases h
    | cons b bs =>
      rw [sameAll, Bool.and_eq_true] at h
      exact .cons h.1 (ih h.2)

/-- A range end that is promoted makes a specification differ, also where the order of channels does not count. -/
theorem promoted_eq_self_of_same {s : Spec} (h : s.promoted.same s = true) : s.promoted = s := by
  induction s with
  | unit u => exact congrArg _ (UnitSpec.promoted_eq_self_iff.2 (UnitSpec.not_hasOrphan_of_same h))
  | layer transform layers outer ih =>
    rw [promoted_layer] at h ⊢
    simp only [same, Bool.and_eq_true] at h
    have hall := List.forall₂_map_left_iff.1 (sameAll_eq h.1.2)
    have hmap : layers.map promoted = layers.map id :=
      List.map_congr_left fun s hs => ih s hs ((List.forall₂_same.1 hall) s hs)
    rw [hmap, List.map_id]
  | facet transform mapping child outer ih =>
    simp only [promoted, same, Bool.and_eq_true] at h ⊢
    rw [ih h.1.2]

end Spec

/-! ### Where a range end is left alone -/

namespace UnitSpec

variable {config : Config} {u v : UnitSpec} {m : Primitive}

/-- Lines and points draw no ranges. -/
theorem not_hasOrphan_supportedBy {e : Encoding} (hm : m = .line ∨ m = .point) : ¬ (e.supportedBy m).HasOrphan := by
  rintro ⟨c, c₂, hsec, hc₂, -⟩
  obtain ⟨d, hd⟩ := OrderedMap.contains_iff.1 hc₂
  have hsupports : c₂.supports m = true := (OrderedMap.mem_restrict.1 hd).2
  rcases Channel.secondary?_eq_some_iff.1 hsec with ⟨-, rfl⟩ | ⟨-, rfl⟩ <;> rcases hm with rfl | rfl <;>
    cases hsupports

/-- A range end is left alone under the overlays or not at all. -/
theorem exists_hasOrphan_settle_iff :
    (∃ v ∈ (u.settle config m).leaves, v.encoding.HasOrphan) ↔ u.encoding.LosesPrimary m := by
  rw [← Encoding.hasOrphan_settle_iff]
  constructor
  · rintro ⟨v, hv, horphan⟩
    rcases mem_leaves_settle hv with ⟨-, rfl⟩ | rfl | rfl | rfl
    · exact horphan
    · exact horphan
    · exact absurd horphan (not_hasOrphan_supportedBy (.inl rfl))
    · exact absurd horphan (not_hasOrphan_supportedBy (.inr rfl))
  · intro horphan
    rcases settle_cases u config m with ⟨-, hs⟩ | ⟨-, above, hs, -⟩
    · exact ⟨{ u with encoding := u.drawn m }, by rw [hs]; exact List.mem_singleton_self _, horphan⟩
    · refine ⟨u.overlaid m, ?_, horphan⟩
      rw [hs, Spec.leaves_layer, leaves_map_unit]
      exact List.mem_cons_self

theorem losesPrimary_iff (hm : u.mark.primitive? = some m) : u.LosesPrimary ↔ u.encoding.LosesPrimary m := by
  constructor
  · rintro ⟨m', hm', h⟩
    obtain rfl : m = m' := Option.some.inj (hm.symm.trans hm')
    exact h
  · exact fun h => ⟨m, hm, h⟩

/-- Facet channels are no part of a range. -/
theorem losesPrimary_congr (hmark : v.mark = u.mark) (he : v.encoding = u.encoding.without [.row, .column]) :
    v.LosesPrimary ↔ u.LosesPrimary := by
  have hget : ∀ {c c₂}, Channel.secondary? c = some c₂ →
      v.encoding.get? c = u.encoding.get? c ∧ v.encoding.get? c₂ = u.encoding.get? c₂ := by
    intro c c₂ h
    rw [he, Encoding.without, OrderedMap.get?_restrict, OrderedMap.get?_restrict]
    rcases Channel.secondary?_eq_some_iff.1 h with ⟨rfl, rfl⟩ | ⟨rfl, rfl⟩ <;> exact ⟨rfl, rfl⟩
  rw [LosesPrimary, LosesPrimary, hmark]
  constructor
  · rintro ⟨m, hm, c, c₂, d, d₂, h, hs, hd, hv, hd₂, hv₂⟩
    exact ⟨m, hm, c, c₂, d, d₂, h, hs, (hget h).1 ▸ hd, hv, (hget h).2 ▸ hd₂, hv₂⟩
  · rintro ⟨m, hm, c, c₂, d, d₂, h, hs, hd, hv, hd₂, hv₂⟩
    exact ⟨m, hm, c, c₂, d, d₂, h, hs, (hget h).1.trans hd, hv, (hget h).2.trans hd₂, hv₂⟩

end UnitSpec

namespace Normalizer

variable {config : Config} {u : UnitSpec} {s t : Spec} {ws : List Warning}

/-! ### The second pass -/

theorem unit_of_normal (h : u.Normal config) (scope : Scope) :
    (standard config).unit (expansion config) scope u = .noted (.unit u.promoted) [] := by
  obtain ⟨m, hm⟩ := h.primitive
  have he : u.encoding.promoteSecondary.Settled m := (h.settled hm).promoteSecondary
  have hsettle : u.settle config m = .unit u.promoted := by
    rcases UnitSpec.settle_cases u config m with ⟨-, hs⟩ | ⟨ho, -⟩
    · rw [hs, UnitSpec.drawn, he.settle_eq, UnitSpec.promoted]
    · exact absurd ((plain_iff_overlays hm).1 h.plain) ho
  rw [unit, UnitSpec.hasFacetChannel_eq_false_iff.2 h.noFacet]
  exact (flatUnit_primitive hm _).trans (by rw [hsettle, UnitSpec.settleWarnings, he.settleWarnings_eq])

/-- Where facets are allowed and the units are normal, only promotion is left to do, and there is nothing to warn of. -/
theorem spec_of_normal {scope : Scope} (hf : ∀ node ∈ s.nodes scope, node.2.isFacet = true → node.1 = .top)
    (hu : ∀ u ∈ s.leaves, u.Normal config) :
    (standard config).spec (expansion config) scope s = .noted s.promoted [] := by
  induction s generalizing scope with
  | unit u => exact unit_of_normal (hu u (List.mem_singleton_self u)) scope
  | layer transform layers outer ih =>
    have hlayers : ∀ s ∈ layers,
        (standard config).spec (expansion config) .layer (id s) = .noted s.promoted [] := by
      intro s hs
      refine ih s hs (fun node hn => hf node ?_) (fun u hu' => hu u ?_)
      · rw [Spec.nodes_layer]
        exact List.mem_cons_of_mem _ (List.mem_flatMap.2 ⟨s, hs, hn⟩)
      · rw [Spec.leaves_layer]
        exact List.mem_flatMap.2 ⟨s, hs, hu'⟩
    have hspecs := specs_map hlayers
    rw [List.map_id, List.flatMap_eq_nil_iff.2 fun _ _ => rfl] at hspecs
    rw [spec, Spec.promoted_layer]
    exact Report.bind_eq_noted.2 ⟨_, [], [], hspecs, rfl, rfl⟩
  | facet transform mapping child outer ih =>
    obtain rfl : scope = .top := hf _ (Spec.nodes_facet .. ▸ List.mem_cons_self) rfl
    have hchild := ih (fun node hn => hf node (Spec.nodes_facet .. ▸ List.mem_cons_of_mem _ hn)) hu
    exact Report.bind_eq_noted.2 ⟨_, [], [], hchild, rfl, rfl⟩

theorem normalize_of_normal (h : (standard config).normalize s = .noted t ws) :
    (standard config).normalize t = .noted t.promoted [] :=
  spec_of_normal (facets_of_spec h) (normal_of_spec h)

/-! ### What a run leaves alone -/

/-- Range ends are left alone under primitive marks only: the parts of a composite mark keep both ends. -/
theorem Flat.exists_hasOrphan_iff (h : Flat config u t) :
    (∃ v ∈ t.leaves, v.encoding.HasOrphan) ↔ u.LosesPrimary := by
  cases h with
  | primitive hm => rw [UnitSpec.exists_hasOrphan_settle_iff, UnitSpec.losesPrimary_iff hm]
  | composite hr _ _ hunits =>
    constructor
    · rintro ⟨v, hv, horphan⟩
      obtain ⟨w, m, hm, hv⟩ := mem_leaves_parts hunits hv
      exact absurd (UnitSpec.exists_hasOrphan_settle_iff.1 ⟨v, hv, horphan⟩) hm.ranged
    · rintro ⟨m, hm, -⟩
      rw [ofTag?_of_primitive hm] at hr
      cases hr

theorem exists_hasOrphan_iff {scope : Scope} (h : (standard config).spec (expansion config) scope s = .noted t ws) :
    (∃ v ∈ t.leaves, v.encoding.HasOrphan) ↔ ∃ u ∈ s.leaves, u.LosesPrimary := by
  have hunit : ∀ {u v : UnitSpec} {t : Spec}, Flat config v t → (v.LosesPrimary ↔ u.LosesPrimary) →
      ((∃ w ∈ t.leaves, w.encoding.HasOrphan) ↔ ∃ w ∈ (Spec.unit u).leaves, w.LosesPrimary) := by
    intro u v t ht huv
    rw [ht.exists_hasOrphan_iff, huv]
    simp
  refine spec_rules
    (P := fun _ s t => (∃ v ∈ t.leaves, v.encoding.HasOrphan) ↔ ∃ u ∈ s.leaves, u.LosesPrimary) ?_ ?_ ?_ ?_ ?_ h
  · intro scope u t _ ht
    exact hunit ht Iff.rfl
  · intro u t _ ht
    simpa only [Spec.leaves_facet] using hunit ht (UnitSpec.losesPrimary_congr (u := u) rfl rfl)
  · intro scope u t _ _ ht
    exact hunit ht (UnitSpec.losesPrimary_congr (u := u) rfl rfl)
  · intro scope transform layers ts outer hts
    simp only [Spec.leaves_layer, List.mem_flatMap]
    constructor
    · rintro ⟨v, ⟨t, ht, hv⟩, horphan⟩
      obtain ⟨s, hs, hst⟩ := exists_of_forall₂ hts ht
      obtain ⟨u, hu, hloses⟩ := hst.1 ⟨v, hv, horphan⟩
      exact ⟨u, ⟨s, hs, hu⟩, hloses⟩
    · rintro ⟨u, ⟨s, hs, hu⟩, hloses⟩
      obtain ⟨t, ht, hst⟩ := exists_of_forall₂ hts.flip hs
      obtain ⟨v, hv, horphan⟩ := hst.2 ⟨u, hu, hloses⟩
      exact ⟨v, ⟨t, ht, hv⟩, horphan⟩
  · intro transform mapping child t outer ih
    exact ih

/-- **Normalizing again** succeeds without a warning, and returns what it is given exactly when no unit of the first
specification loses the near end of a range. Where it does not, the two are different specifications. -/
theorem normalize_again_eq_iff (h : (standard config).normalize s = .noted t ws) :
    ∃ t', (standard config).normalize t = .noted t' [] ∧ (t' = t ↔ ∀ u ∈ s.leaves, ¬ u.LosesPrimary) ∧
      (t'.same t = true → t' = t) := by
  refine ⟨t.promoted, normalize_of_normal h, ?_, Spec.promoted_eq_self_of_same⟩
  rw [Spec.promoted_eq_self_iff]
  simpa using not_congr (exists_hasOrphan_iff h)

theorem normalize_again_errorBars :
    let bars : Spec := .unit
      { mark := .tag "errorbar"
        encoding := .ofList [(.row, .field { field := some "site", type := .nominal }),
          (.x, .field { field := some "year", type := .ordinal }),
          (.y, .field { field := some "yield", type := .quantitative })] }
    ∃ t ws, (standard .defaults).normalize bars = .noted t ws ∧ (standard .defaults).normalize t = .noted t [] := by
  intro bars
  obtain ⟨t, ws, h⟩ := Report.failure?_eq_none_iff.1 (rfl : ((standard .defaults).normalize bars).failure? = none)
  obtain ⟨t', ht', hiff, -⟩ := normalize_again_eq_iff h
  have hbars : ∀ u ∈ bars.leaves, ¬ u.LosesPrimary := by
    rintro u hu ⟨m, hm, -⟩
    obtain rfl := List.mem_singleton.1 hu
    cases hm
  rw [hiff.2 hbars] at ht'
  exact ⟨t, ws, h, ht'⟩

/-- A rule from a near end without data to the far end `a`. The far end is kept as such, since there is a near end when
ends are promoted, and the near end is dropped after that; so the far end is promoted when it comes back. -/
theorem normalize_again_ne :
    let rule (bindings : List (Channel × ChannelDef)) : Spec :=
      .unit { mark := .tag "rule", encoding := .ofList bindings }
    let a : ChannelDef := .field { field := some "a", type := .quantitative }
    (standard .defaults).normalize (rule [(.x, .field { type := .quantitative }), (.x2, a)]) =
        .noted (rule [(.x2, a)]) [.emptyField .x] ∧
      (standard .defaults).normalize (rule [(.x2, a)]) = .noted (rule [(.x, a)]) [] ∧
      (rule [(.x, a)]).same (rule [(.x2, a)]) = false :=
  ⟨rfl, rfl, rfl⟩

end Normalizer

end ChartNormal
