import ChartNormal.Normalize
import ChartNormal.Proofs.Report

/-!
# Trees of specifications

The nodes of a tree in document order, each with where it stands (`Spec.nodes`), its units (`Spec.leaves`), and what
normalization does to the layers of a layer, one after another.
-/

namespace ChartNormal

namespace Spec

/-! ### Induction -/

/-- A layer has a property when it passes from each of its layers, and a facet when it passes from its child. -/
@[elab_as_elim, induction_eliminator]
theorem ind {motive : Spec → Prop} (unit : ∀ u, motive (.unit u))
    (layer : ∀ transform layers outer, (∀ s ∈ layers, motive s) → motive (.layer transform layers outer))
    (facet : ∀ transform mapping child outer, motive child → motive (.facet transform mapping child outer))
    (s : Spec) : motive s := by
  refine @Spec.rec motive (fun layers => ∀ s ∈ layers, motive s) unit layer facet ?_ ?_ s
  · intro s hs
    cases hs
  · intro s rest hs hrest t ht
    rcases List.mem_cons.1 ht with rfl | ht
    · exact hs
    · exact hrest t ht

/-! ### Nodes and units -/

mutual

/-- The nodes of a tree in document order, each with where it stands, the root in `scope`. -/
def nodes (scope : Scope) : Spec → List (Scope × Spec)
  | .unit u => [(scope, .unit u)]
  | .layer transform layers outer => (scope, .layer transform layers outer) :: nodesAll layers
  | .facet transform mapping child outer => (scope, .facet transform mapping child outer) :: nodes .facet child

def nodesAll : List Spec → List (Scope × Spec)
  | [] => []
  | s :: rest => nodes .layer s ++ nodesAll rest

end

mutual

/-- The units of a tree, in document order. -/
def leaves : Spec → List UnitSpec
  | .unit u => [u]
  | .layer _ layers _ => leavesAll layers
  | .facet _ _ child _ => leaves child

def leavesAll : List Spec → List UnitSpec
  | [] => []
  | s :: rest => leaves s ++ leavesAll rest

end

theorem nodesAll_eq (layers : List Spec) : nodesAll layers = layers.flatMap (nodes .layer) := by
  induction layers with
  | nil => rfl
  | cons s rest ih => rw [nodesAll, ih, List.flatMap_cons]

theorem leavesAll_eq (layers : List Spec) : leavesAll layers = layers.flatMap leaves := by
  induction layers with
  | nil => rfl
  | cons s rest ih => rw [leavesAll, ih, List.flatMap_cons]

@[simp] theorem leaves_unit (u : UnitSpec) : (unit u).leaves = [u] := rfl

@[simp] theorem leaves_layer (transform : List Transform) (layers : List Spec) (outer : Object) :
    (layer transform layers outer).leaves = layers.flatMap leaves := by
  rw [leaves, leavesAll_eq]

@[simp] theorem leaves_facet (transform : List Transform) (mapping : FacetMapping) (child : Spec)
    (outer : Object) : (facet transform mapping child outer).leaves = child.leaves := rfl

@[simp] theorem nodes_unit (scope : Scope) (u : UnitSpec) : (unit u).nodes scope = [(scope, unit u)] := rfl

@[simp] theorem nodes_layer (scope : Scope) (transform : List Transform) (layers : List Spec) (outer : Object) :
    (layer transform layers outer).nodes scope =
      (scope, layer transform layers outer) :: layers.flatMap (nodes .layer) := by
  rw [nodes, nodesAll_eq]

@[simp] theorem nodes_facet (scope : Scope) (transform : List Transform) (mapping : FacetMapping) (child : Spec)
    (outer : Object) :
    (facet transform mapping child outer).nodes scope =
      (scope, facet transform mapping child outer) :: child.nodes .facet := rfl

/-- The root comes first. -/
theorem nodes_eq_cons (s : Spec) (scope : Scope) : s.nodes scope = (scope, s) :: (s.nodes scope).tail := by
  cases s <;> rfl

/-- The units of a tree are the nodes that are units. -/
theorem mem_leaves_iff {s : Spec} {u : UnitSpec} (scope : Scope) :
    u ∈ s.leaves ↔ ∃ place, (place, unit u) ∈ s.nodes scope := by
  induction s generalizing scope with
  | unit v => simp
  | layer transform layers outer ih =>
    simp only [leaves_layer, List.mem_flatMap, nodes_layer, List.mem_cons, Prod.mk.injEq, reduceCtorEq, and_false,
      false_or]
    constructor
    · rintro ⟨s, hs, hu⟩
      obtain ⟨place, hp⟩ := (ih s hs .layer).1 hu
      exact ⟨place, s, hs, hp⟩
    · rintro ⟨place, s, hs, hp⟩
      exact ⟨s, hs, (ih s hs .layer).2 ⟨place, hp⟩⟩
  | facet transform mapping child outer ih =>
    simp only [leaves_facet, nodes_facet, List.mem_cons, Prod.mk.injEq, reduceCtorEq, and_false, false_or]
    exact ih .facet

theorem ne_top_of_mem_nodes {s : Spec} {scope : Scope} (hscope : scope ≠ .top) {node : Scope × Spec}
    (h : node ∈ s.nodes scope) : node.1 ≠ .top := by
  induction s generalizing scope with
  | unit u =>
    rw [nodes_unit, List.mem_singleton] at h
    exact h ▸ hscope
  | layer transform layers outer ih =>
    rw [nodes_layer, List.mem_cons, List.mem_flatMap] at h
    rcases h with rfl | ⟨s, hs, h⟩
    · exact hscope
    · exact ih s hs (by decide) h
  | facet transform mapping child outer ih =>
    rcases List.mem_cons.1 (nodes_facet .. ▸ h) with rfl | h
    · exact hscope
    · exact ih (by decide) h

/-- Only the root can stand at the top. -/
theorem ne_top_of_mem_tail {s : Spec} {scope : Scope} {node : Scope × Spec} (h : node ∈ (s.nodes scope).tail) :
    node.1 ≠ .top := by
  cases s with
  | unit u => cases h
  | layer transform layers outer =>
    rw [nodes_layer, List.tail_cons, List.mem_flatMap] at h
    obtain ⟨s, -, h⟩ := h
    exact ne_top_of_mem_nodes (by decide) h
  | facet transform mapping child outer => exact ne_top_of_mem_nodes (show Scope.facet ≠ .top by decide) h

end Spec

namespace Normalizer

variable {n : Normalizer} {expand : UnitSpec → Report Spec}

theorem spec_unit_of_flat {u : UnitSpec} (h : u.hasFacetChannel = false) (scope : Scope) :
    n.spec expand scope (.unit u) = n.flatUnit expand u := by
  rw [spec, unit, h, Bool.not_false, if_pos rfl]

/-! ### The layers of a layer -/

theorem specs_cons (s : Spec) (rest : List Spec) :
    n.specs expand (s :: rest) =
      n.spec expand .layer s >>= fun t => n.specs expand rest >>= fun ts => pure (t :: ts) := rfl

/-- The layers are normalized one by one, and their warnings stand in the order of the layers. -/
theorem specs_eq_noted_iff {layers ts : List Spec} {ws : List Warning} :
    n.specs expand layers = .noted ts ws ↔
      ∃ results : List (Spec × List Warning),
        List.Forall₂ (fun s r => n.spec expand .layer s = .noted r.1 r.2) layers results ∧
          ts = results.map Prod.fst ∧ ws = results.flatMap Prod.snd := by
  induction layers generalizing ts ws with
  | nil =>
    simp only [List.forall₂_nil_left_iff, exists_eq_left, List.map_nil, List.flatMap_nil]
    exact Report.pure_eq_noted.trans (and_congr_left' eq_comm)
  | cons s rest ih =>
    rw [specs_cons, Report.bind_eq_noted]
    constructor
    · rintro ⟨t, w₁, w₂, hs, h, rfl⟩
      obtain ⟨ts', hrest, rfl⟩ := Report.bind_pure_eq_noted.1 h
      obtain ⟨results, hresults, rfl, rfl⟩ := ih.1 hrest
      exact ⟨(t, w₁) :: results, .cons hs hresults, rfl, rfl⟩
    · rintro ⟨results, hresults, rfl, rfl⟩
      obtain ⟨r, results, hs, hrest, rfl⟩ := List.forall₂_cons_left_iff.1 hresults
      refine ⟨r.1, r.2, results.flatMap Prod.snd, hs, ?_, List.flatMap_cons⟩
      exact Report.bind_pure_eq_noted.2 ⟨_, ih.2 ⟨results, hrest, rfl, rfl⟩, rfl⟩

theorem forall₂_of_specs {layers ts : List Spec} {ws : List Warning} (h : n.specs expand layers = .noted ts ws) :
    List.Forall₂ (fun s t => ∃ w, n.spec expand .layer s = .noted t w) layers ts := by
  obtain ⟨results, hresults, rfl, -⟩ := specs_eq_noted_iff.1 h
  exact List.forall₂_map_right_iff.2 (hresults.imp fun s r hr => ⟨r.2, hr⟩)

/-- The layers are given by a list of what they come from, such as the parts of a composite mark. -/
theorem specs_map {ι : Type} {l : List ι} {g f : ι → Spec} {w : ι → List Warning}
    (h : ∀ i ∈ l, n.spec expand .layer (g i) = .noted (f i) (w i)) :
    n.specs expand (l.map g) = .noted (l.map f) (l.flatMap w) := by
  refine specs_eq_noted_iff.2 ⟨l.map fun i => (f i, w i), ?_, ?_, ?_⟩
  · rw [List.forall₂_map_left_iff, List.forall₂_map_right_iff, List.forall₂_same]
    exact h
  · rw [List.map_map]
    rfl
  · rw [List.flatMap_map]

/-- The first failure counts, where each layer fails with the first failure of a list of its own. -/
theorem failure?_specs {ι : Type} {layers : List Spec} {parts : Spec → List ι} {flaw : ι → Option Failure}
    (h : ∀ s ∈ layers, (n.spec expand .layer s).failure? = (parts s).findSome? flaw) :
    (n.specs expand layers).failure? = (layers.flatMap parts).findSome? flaw := by
  induction layers with
  | nil => rfl
  | cons s rest ih =>
    rw [specs_cons, List.flatMap_cons, List.findSome?_append, ← h s List.mem_cons_self,
      ← ih fun s hs => h s (List.mem_cons_of_mem _ hs)]
    refine Report.failure?_bind fun _ _ _ => ?_
    exact Report.failure?_bind_eq_left fun _ => rfl

end Normalizer

end ChartNormal
