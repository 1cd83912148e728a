import ChartNormal.Proofs.Composite.Resolution
import ChartNormal.Proofs.NormalForm

/-!
# Valid specifications

Normalization succeeds exactly on the specifications without a flaw, and fails with the flaw of the first node, in
document order, that has one (`failure?_spec`). What a node is wrapped into or loses on the way never matters, nor do the
nodes below a composite mark's expansion.
-/

namespace ChartNormal

open Composite

/-- The mark is a primitive one, or a composite one that can be expanded. -/
def UnitSpec.Valid (config : Config) (u : UnitSpec) : Prop :=
  (∃ m, u.mark.primitive? = some m) ∨ ∃ r, Recipe.ofTag? u.mark.type = some r ∧ r.Expandable u config

namespace Normalizer

variable {config : Config} {u : UnitSpec}

/-- What is wrong with a node where it stands, apart from the nodes below it. -/
inductive Flaw (config : Config) : Scope × Spec → Failure → Prop
  | facetInLayer {transform : List Transform} {mapping : FacetMapping} {child : Spec} {outer : Object} :
      Flaw config (.layer, .facet transform mapping child outer) (.invalid .facetInLayer)
  | facetInFacet {transform : List Transform} {mapping : FacetMapping} {child : Spec} {outer : Object} :
      Flaw config (.facet, .facet transform mapping child outer) (.invalid .facetInFacet)
  | unknownMark {scope : Scope} {u : UnitSpec} (hr : Recipe.ofTag? u.mark.type = none)
      (hm : u.mark.primitive? = none) : Flaw config (scope, .unit u) (.unknownMark u.mark.type)
  | composite {scope : Scope} {u : UnitSpec} {r : Recipe} {f : Failure} (hr : Recipe.ofTag? u.mark.type = some r)
      (h : r.Flaw u config f) : Flaw config (scope, .unit u) f

/-- The flaw of a unit, computed. -/
def unitFlaw? (config : Config) (u : UnitSpec) : Option Failure :=
  match Recipe.ofTag? u.mark.type, u.mark.primitive? with
  | some r, _ => (r.expand u config).failure?
  | none, some _ => none
  | none, none => some (.unknownMark u.mark.type)

def flaw? (config : Config) : Scope × Spec → Option Failure
  | (.layer, .facet ..) => some (.invalid .facetInLayer)
  | (.facet, .facet ..) => some (.invalid .facetInFacet)
  | (_, .unit u) => unitFlaw? config u
  | _ => none

theorem unitFlaw?_eq_none_iff : unitFlaw? config u = none ↔ u.Valid config := by
  rw [unitFlaw?, UnitSpec.Valid]
  cases hr : Recipe.ofTag? u.mark.type with
  | some r =>
    have hm : u.mark.primitive? = none := by
      rw [Option.eq_none_iff_forall_ne_some]
      intro m hm
      rw [ofTag?_of_primitive hm] at hr
      cases hr
    simpa [hm] using Recipe.failure?_expand_eq_none_iff
  | none => cases u.mark.primitive? <;> simp

theorem flaw?_unit (scope : Scope) (u : UnitSpec) : flaw? config (scope, .unit u) = unitFlaw? config u := by
  cases scope <;> rfl

/-- A node has one flaw at most. -/
theorem flaw?_eq_some_iff {node : Scope × Spec} {f : Failure} : flaw? config node = some f ↔ Flaw config node f := by
  constructor
  · intro h
    obtain ⟨scope, s⟩ := node
    cases s with
    | unit u =>
      rw [flaw?_unit, unitFlaw?] at h
      split at h
      · next r hr => exact .composite hr (Recipe.failure?_expand_eq_some_iff.1 h)
      · cases h
      · next hr hm =>
        cases h
        exact .unknownMark hr hm
    | layer => cases scope <;> cases h
    | facet =>
      cases scope with
      | top => cases h
      | layer => cases h; exact .facetInLayer
      | facet => cases h; exact .facetInFacet
  · intro h
    cases h with
    | facetInLayer => rfl
    | facetInFacet => rfl
    | unknownMark hr hm => rw [flaw?_unit, unitFlaw?, hr, hm]
    | composite hr h => rw [flaw?_unit, unitFlaw?, hr]; exact Recipe.failure?_expand_eq_some_iff.2 h

theorem flaw?_eq_none_iff {node : Scope × Spec} :
    flaw? config node = none ↔
      (node.2.isFacet = true → node.1 = .top) ∧ ∀ u, node.2 = .unit u → u.Valid config := by
  obtain ⟨scope, s⟩ := node
  cases s with
  | unit u => simp [flaw?_unit, unitFlaw?_eq_none_iff, Spec.isFacet]
  | layer => cases scope <;> simp [flaw?, Spec.isFacet]
  | facet => cases scope <;> simp [flaw?, Spec.isFacet]

/-! ### Runs -/

theorem accepted_without (e : Encoding) : accepted (e.without [.row, .column]) = accepted e := by
  refine OrderedMap.ext ?_
  rw [accepted, accepted, Encoding.only, Encoding.only, Encoding.without, OrderedMap.entries_restrict,
    OrderedMap.entries_restrict, OrderedMap.entries_restrict, List.filter_filter]
  refine List.filter_congr fun b _ => ?_
  generalize b.1 = c
  cases c <;> decide

theorem failure?_flatUnit (u : UnitSpec) :
    ((standard config).flatUnit (expansion config) u).failure? = unitFlaw? config u := by
  rw [flatUnit_standard, unitFlaw?]
  cases hr : Recipe.ofTag? u.mark.type with
  | some r => exact failure?_expansion hr
  | none => cases u.mark.primitive? <;> rfl

/-- Facet channels do not count. -/
theorem unitFlaw?_congr {v : UnitSpec} (hmark : v.mark = u.mark)
    (he : v.encoding = u.encoding.without [.row, .column]) : unitFlaw? config v = unitFlaw? config u := by
  have hr : ∀ r : Recipe, (r.expand v config).failure? = (r.expand u config).failure? :=
    fun r => Recipe.failure?_expand_congr hmark (he ▸ accepted_without u.encoding)
  simp only [unitFlaw?, hmark, hr]

theorem failure?_unit (scope : Scope) (u : UnitSpec) :
    ((standard config).unit (expansion config) scope u).failure? = unitFlaw? config u := by
  rw [unit]
  split
  · exact failure?_flatUnit u
  · split
    · rw [Report.failure?_noted_bind, Report.failure?_bind_eq_left fun _ => rfl, failure?_flatUnit]
      exact unitFlaw?_congr rfl rfl
    · rw [Report.failure?_noted_bind, failure?_flatUnit]
      exact unitFlaw?_congr rfl rfl

/-- The first flaw in document order is the failure. -/
theorem failure?_spec (scope : Scope) (s : Spec) :
    ((standard config).spec (expansion config) scope s).failure? = (s.nodes scope).findSome? (flaw? config) := by
  induction s generalizing scope with
  | unit u =>
    rw [spec, failure?_unit, Spec.nodes_unit, List.findSome?_singleton, flaw?_unit]
  | layer transform layers outer ih =>
    have hnode : flaw? config (scope, .layer transform layers outer) = none := by cases scope <;> rfl
    rw [spec, Spec.nodes_layer, List.findSome?_cons, hnode, ← failure?_specs fun s hs => ih s hs .layer]
    exact Report.failure?_bind_eq_left fun _ => rfl
  | facet transform mapping child outer ih =>
    rw [Spec.nodes_facet, List.findSome?_cons]
    cases scope with
    | top =>
      refine Eq.trans ?_ (ih .facet)
      exact Report.failure?_bind_eq_left fun _ => rfl
    | layer => rfl
    | facet => rfl

/-- **Validity.** Normalization succeeds exactly when no facet stands below the root and every unit is valid, and it fails
with the flaw of the first node that has one. -/
theorem normalize_first_flaw (config : Config) (s : Spec) :
    ((∃ t ws, (standard config).normalize s = .noted t ws) ↔
        (∀ node ∈ (s.nodes .top).tail, node.2.isFacet = false) ∧ ∀ u ∈ s.leaves, u.Valid config) ∧
      ∀ f, (standard config).normalize s = .fail f ↔
        ∃ before node after, s.nodes .top = before ++ node :: after ∧
          (∀ n ∈ before, ∀ g, ¬ Flaw config n g) ∧ Flaw config node f := by
  constructor
  · rw [← Report.failure?_eq_none_iff, normalize_standard, failure?_spec, List.findSome?_eq_none_iff]
    simp only [flaw?_eq_none_iff]
    constructor
    · intro h
      refine ⟨fun node hn => ?_, fun u hu => ?_⟩
      · rw [← Bool.not_eq_true]
        intro hfacet
        exact Spec.ne_top_of_mem_tail hn ((h node (List.mem_of_mem_tail hn)).1 hfacet)
      · obtain ⟨place, hp⟩ := (Spec.mem_leaves_iff .top).1 hu
        exact (h _ hp).2 u rfl
    · rintro ⟨hfacets, hunits⟩ node hn
      refine ⟨fun hfacet => ?_, fun u hu => hunits u ((Spec.mem_leaves_iff .top).2 ⟨node.1, hu ▸ hn⟩)⟩
      rw [Spec.nodes_eq_cons, List.mem_cons] at hn
      rcases hn with rfl | hn
      · rfl
      · rw [hfacets node hn] at hfacet
        cases hfacet
  · intro f
    rw [← Report.failure?_eq_some_iff, normalize_standard, failure?_spec, List.findSome?_eq_some_iff]
    have hnone : ∀ n, flaw? config n = none ↔ ∀ g, ¬ Flaw config n g := by
      intro n
      simp only [Option.eq_none_iff_forall_ne_some, ne_eq, flaw?_eq_some_iff]
    simp only [hnone, flaw?_eq_some_iff, and_comm]

end Normalizer

end ChartNormal
