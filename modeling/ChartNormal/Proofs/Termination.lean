import ChartNormal.Proofs.Lockstep
import ChartNormal.Proofs.NormalForm
import ChartNormal.Proofs.Validity

/-!
# Termination

Normalizing a node normalizes others: the layers of a layer, the child of a facet, and the layers that a composite mark
expands into (`Calls`). The last are not parts of the node, and for the standard marks they are units with primitive marks,
so the recursion is well-founded. `round` is the recursion without a bound on its depth; `spec` is its only solution, and
what it returns is at most three levels deeper than what it is given.
-/

namespace ChartNormal

/-! ### Depth -/

namespace Spec

mutual

/-- The number of levels of a tree. -/
def depth : Spec → Nat
  | .unit _ => 1
  | .layer _ layers _ => depthAll layers + 1
  | .facet _ _ child _ => depth child + 1

def depthAll : List Spec → Nat
  | [] => 0
  | s :: rest => max (depth s) (depthAll rest)

end

theorem depthAll_le_iff {layers : List Spec} {k : Nat} : depthAll layers ≤ k ↔ ∀ s ∈ layers, s.depth ≤ k := by
  induction layers with
  | nil => simp [depthAll]
  | cons s rest ih => simp only [depthAll, Nat.max_le, ih, List.forall_mem_cons]

theorem depth_layer_le_iff {transform : List Transform} {layers : List Spec} {outer : Object} {k : Nat} :
    (layer transform layers outer).depth ≤ k + 1 ↔ ∀ s ∈ layers, s.depth ≤ k := by
  rw [depth, Nat.add_le_add_iff_right, depthAll_le_iff]

end Spec

namespace UnitSpec

theorem depth_settle_le (u : UnitSpec) (config : Config) (m : Primitive) : (u.settle config m).depth ≤ 2 := by
  rcases settle_cases u config m with ⟨-, hs⟩ | ⟨-, above, hs, -⟩
  · rw [hs, Spec.depth]
    omega
  · rw [hs, Spec.depth_layer_le_iff]
    intro s hs
    obtain ⟨v, -, rfl⟩ := List.mem_map.1 hs
    exact Nat.le_refl 1

end UnitSpec

namespace Normalizer

open Composite

/-! ### The recursion without a bound -/

/-- The runs of several nodes, one after another. -/
def runAll (run : Spec → Report Spec) : List Spec → Report (List Spec)
  | [] => pure []
  | s :: rest => do
    let t ← run s
    let ts ← runAll run rest
    pure (t :: ts)

/-- Expands a composite mark, and runs what it expands into. -/
def expandBy (n : Normalizer) (run : Spec → Report Spec) (u : UnitSpec) : Report Spec := do
  let l ← n.registry.dispatch u n.config
  let layers ← runAll run l.layers
  pure (.layer l.transform layers l.outer)

/-- One round of normalization, with `run` for what is normalized in turn. -/
def round (n : Normalizer) (run : Scope → Spec → Report Spec) (scope : Scope) : Spec → Report Spec
  | .unit u => n.unit (n.expandBy (run .layer)) scope u
  | .layer transform layers outer => do
    let layers ← runAll (run .layer) layers
    pure (.layer transform layers outer)
  | .facet transform mapping child outer =>
    match scope with
    | .top => do
      let child ← run .facet child
      pure (.facet transform mapping child outer)
    | .layer => .fail (.invalid .facetInLayer)
    | .facet => .fail (.invalid .facetInFacet)

/-- `Calls n t s`: the node `t` is normalized in the round of `s`, each in its scope. -/
inductive Calls (n : Normalizer) : Scope × Spec → Scope × Spec → Prop
  | layer {scope : Scope} {transform : List Transform} {layers : List Spec} {outer : Object} {t : Spec}
      (ht : t ∈ layers) : Calls n (.layer, t) (scope, .layer transform layers outer)
  | facet {transform : List Transform} {mapping : FacetMapping} {child : Spec} {outer : Object} :
      Calls n (.facet, child) (.top, .facet transform mapping child outer)
  | expansion {scope : Scope} {u : UnitSpec} {l : LayerSpec} {ws : List Warning} {t : Spec}
      (h : n.registry.dispatch (u.flattened scope) n.config = .noted l ws) (ht : t ∈ l.layers) :
      Calls n (.layer, t) (scope, .unit u)

section Round

variable {n : Normalizer} {run run' : Scope → Spec → Report Spec}

theorem runAll_congr {f g : Spec → Report Spec} {layers : List Spec} (h : ∀ t ∈ layers, f t = g t) :
    runAll f layers = runAll g layers := by
  induction layers with
  | nil => rfl
  | cons s rest ih =>
    rw [runAll, runAll, h s List.mem_cons_self, ih fun t ht => h t (List.mem_cons_of_mem _ ht)]

theorem unit_congr {expand expand' : UnitSpec → Report Spec} {scope : Scope} {u : UnitSpec}
    (h : expand (u.flattened scope) = expand' (u.flattened scope)) : n.unit expand scope u = n.unit expand' scope u := by
  have hflat : n.flatUnit expand (u.flattened scope) = n.flatUnit expand' (u.flattened scope) := by
    rw [flatUnit, flatUnit, h]
  exact Report.rel_eq_iff.1 (unit_lockstep (g := id) Spec.congruent_eq (Report.rel_eq_iff.2 hflat))

theorem expandBy_congr {f g : Spec → Report Spec} {u : UnitSpec}
    (h : ∀ l ws, n.registry.dispatch u n.config = .noted l ws → ∀ t ∈ l.layers, f t = g t) :
    n.expandBy f u = n.expandBy g u := by
  rw [expandBy, expandBy]
  refine Report.bind_congr fun l ws hl => ?_
  rw [runAll_congr (h l ws hl)]

/-- A round runs nothing but what it calls. -/
theorem round_congr {scope : Scope} {s : Spec} (h : ∀ c, Calls n c (scope, s) → run c.1 c.2 = run' c.1 c.2) :
    n.round run scope s = n.round run' scope s := by
  cases s with
  | unit u => exact unit_congr (expandBy_congr fun l ws hl t ht => h (.layer, t) (.expansion hl ht))
  | layer transform layers outer =>
    have hall : runAll (run .layer) layers = runAll (run' .layer) layers :=
      runAll_congr fun t ht => h (.layer, t) (.layer ht)
    rw [round, round, hall]
  | facet transform mapping child outer =>
    cases scope with
    | top => rw [round, round, h (.facet, child) .facet]
    | layer => rfl
    | facet => rfl

/-- Where the calls are well-founded, the recursion has one solution at most. -/
theorem eq_of_round (hwf : WellFounded (Calls n)) (h : run = n.round run) (h' : run' = n.round run') : run = run' := by
  funext scope s
  refine hwf.induction (C := fun c => run c.1 c.2 = run' c.1 c.2) (scope, s) ?_
  rintro ⟨scope, s⟩ ih
  calc run scope s = n.round run scope s := congrFun (congrFun h scope) s
    _ = n.round run' scope s := round_congr ih
    _ = run' scope s := (congrFun (congrFun h' scope) s).symm

theorem runAll_spec (expand : UnitSpec → Report Spec) (layers : List Spec) :
    runAll (n.spec expand .layer) layers = n.specs expand layers := by
  induction layers with
  | nil => rfl
  | cons s rest ih => rw [runAll, specs_cons, ih]

end Round

/-! ### The standard marks -/

variable {config : Config} {u : UnitSpec}

/-- Whatever the properties of a mark and the configuration hold, no part is a composite mark again. -/
theorem parts_of_dispatch {l : LayerSpec} {ws : List Warning} (h : Registry.standard.dispatch u config = .noted l ws) :
    ∃ units : List UnitSpec, l.layers = units.map .unit ∧ ∀ v ∈ units, ∃ m, IsPart v m := by
  rw [dispatch_standard] at h
  cases hr : Recipe.ofTag? u.mark.type with
  | none =>
    rw [hr] at h
    cases h
  | some r =>
    rw [hr] at h
    exact parts_of_expand (Recipe.mem_all_of_ofTag? hr).1 h

theorem dispatch_primitive {m : Primitive} (hm : u.mark.primitive? = some m) (config : Config) :
    Registry.standard.dispatch u config = .fail (.unknownMark u.mark.type) := by
  rw [dispatch_standard, ofTag?_of_primitive hm]

theorem spec_part_congr {l : LayerSpec} {ws : List Warning} (h : Registry.standard.dispatch u config = .noted l ws)
    (expand expand' : UnitSpec → Report Spec) :
    ∀ t ∈ l.layers, (standard config).spec expand .layer t = (standard config).spec expand' .layer t := by
  intro t ht
  obtain ⟨units, hl, hunits⟩ := parts_of_dispatch h
  obtain ⟨v, hv, rfl⟩ := List.mem_map.1 (hl ▸ ht)
  obtain ⟨m, hm⟩ := hunits v hv
  rw [spec_part hm, spec_part hm]

/-- One level of expansion is enough, so any bound on the levels is as good as none. -/
theorem expand_succ (depth : Nat) (u : UnitSpec) :
    (standard config).expand (depth + 1) u =
      (standard config).expandBy ((standard config).spec (expansion config) .layer) u := by
  have hexpand : (standard config).expand (depth + 1) u =
      (standard config).expandBy ((standard config).spec ((standard config).expand depth) .layer) u := by
    simp only [expand, expandBy, runAll_spec]
  rw [hexpand]
  exact expandBy_congr fun l ws hl => spec_part_congr hl _ _

theorem spec_eq_round :
    (standard config).spec (expansion config) =
      (standard config).round ((standard config).spec (expansion config)) := by
  funext scope s
  cases s with
  | unit u => exact unit_congr (expand_succ (maxExpansion - 1) (u.flattened scope))
  | layer transform layers outer => rw [spec, round, runAll_spec]
  | facet transform mapping child outer => cases scope <;> rfl

theorem acc_primitive {m : Primitive} (hm : u.mark.primitive? = some m) (scope : Scope) :
    Acc (Calls (standard config)) (scope, .unit u) := by
  refine .intro _ fun c hc => ?_
  cases hc with
  | expansion h ht =>
    rw [show (standard config).registry = Registry.standard from rfl,
      dispatch_primitive (by rw [UnitSpec.mark_flattened]; exact hm)] at h
    cases h

/-- No chain of calls goes on without end. -/
theorem wellFounded_calls (config : Config) : WellFounded (Calls (standard config)) := by
  refine ⟨fun ⟨scope, s⟩ => ?_⟩
  induction s generalizing scope with
  | unit u =>
    refine .intro _ fun c hc => ?_
    cases hc with
    | expansion h ht =>
      obtain ⟨units, hl, hunits⟩ := parts_of_dispatch h
      obtain ⟨v, hv, rfl⟩ := List.mem_map.1 (hl ▸ ht)
      obtain ⟨m, hm⟩ := hunits v hv
      exact acc_primitive hm.primitive .layer
  | layer transform layers outer ih =>
    refine .intro _ fun c hc => ?_
    cases hc with
    | layer ht => exact ih _ ht .layer
  | facet transform mapping child outer ih =>
    refine .intro _ fun c hc => ?_
    cases hc with
    | facet => exact ih .facet

/-- The bound on expansions is not what a run fails with. -/
theorem normalize_ne_endless (config : Config) (s : Spec) (tag : String) :
    (standard config).normalize s ≠ .fail (.endlessExpansion tag) := by
  intro h
  have hflaw := Report.failure?_eq_some_iff.2 h
  rw [normalize_standard, failure?_spec] at hflaw
  obtain ⟨node, -, hnode⟩ := List.exists_of_findSome?_eq_some hflaw
  cases flaw?_eq_some_iff.1 hnode with
  | composite hr h => cases h

/-! ### Growth -/

theorem Flat.depth_le {t : Spec} (h : Flat config u t) : t.depth ≤ 3 := by
  cases h with
  | primitive hm => exact Nat.le_succ_of_le (UnitSpec.depth_settle_le u config _)
  | composite hr h hl hunits =>
    rw [Spec.depth_layer_le_iff]
    intro s hs
    obtain ⟨v, hv, rfl⟩ := List.mem_map.1 hs
    obtain ⟨m, hm⟩ := hunits v hv
    rw [UnitSpec.settled, hm.primitive]
    exact UnitSpec.depth_settle_le v config m

/-- Below the top a tree grows by two levels at most; the facet around a unit at the top is a third one. -/
theorem depth_spec_le {scope : Scope} {s t : Spec} {ws : List Warning}
    (h : (standard config).spec (expansion config) scope s = .noted t ws) :
    t.depth ≤ s.depth + if scope = .top then 3 else 2 := by
  refine spec_rules (P := fun scope s t => t.depth ≤ s.depth + if scope = .top then 3 else 2) ?_ ?_ ?_ ?_ ?_ h
  · intro scope u t _ ht
    have := ht.depth_le
    rw [Spec.depth]
    split <;> omega
  · intro u t _ ht
    have := ht.depth_le
    rw [Spec.depth, Spec.depth, if_pos rfl]
    omega
  · intro scope u t hs _ ht
    have := ht.depth_le
    rw [Spec.depth, if_neg hs]
    omega
  · intro scope transform layers ts outer hts
    have hall : (Spec.layer transform ts outer).depth ≤ (Spec.layer transform layers outer).depth + 2 := by
      rw [Spec.depth.eq_2 transform layers outer, Nat.add_right_comm, Spec.depth_layer_le_iff]
      intro t ht
      obtain ⟨s, hs, hst⟩ := exists_of_forall₂ hts ht
      have hle : s.depth ≤ Spec.depthAll layers := Spec.depthAll_le_iff.1 (Nat.le_refl _) s hs
      simp only [reduceCtorEq, if_false] at hst
      omega
    split <;> omega
  · intro transform mapping child t outer ih
    simp only [reduceCtorEq, if_false] at ih
    rw [Spec.depth, Spec.depth, if_pos rfl]
    omega

/-- **Termination.** The parts that a composite mark expands into have primitive marks, which are not registered; so the
calls of the recursion are well-founded, the recursion without a bound has a solution, only one, which normalization
computes, and no tree grows by more than three levels. -/
theorem normalize_terminates (config : Config) :
    (∀ u l ws, Registry.standard.dispatch u config = .noted l ws → ∀ t ∈ l.layers, ∃ v m,
        t = .unit v ∧ v.mark.primitive? = some m ∧ Registry.standard.contains v.mark.type = false) ∧
      WellFounded (Calls (standard config)) ∧
      (∀ run, run = (standard config).round run ↔ run = (standard config).spec (expansion config)) ∧
      (∀ s tag, (standard config).normalize s ≠ .fail (.endlessExpansion tag)) ∧
      ∀ s t ws, (standard config).normalize s = .noted t ws → t.depth ≤ s.depth + 3 := by
  refine ⟨fun u l ws h t ht => ?_, wellFounded_calls config, fun run => ⟨fun h => ?_, ?_⟩, normalize_ne_endless config,
    fun s t ws h => depth_spec_le h⟩
  · obtain ⟨units, hl, hunits⟩ := parts_of_dispatch h
    obtain ⟨v, hv, rfl⟩ := List.mem_map.1 (hl ▸ ht)
    obtain ⟨m, hm⟩ := hunits v hv
    refine ⟨v, m, rfl, hm.primitive, ?_⟩
    rw [contains_standard, ofTag?_of_primitive hm.primitive]
    rfl
  · exact eq_of_round (wellFounded_calls config) h spec_eq_round
  · rintro rfl
    exact spec_eq_round

/-- Error bars with points on the line through their centres, in a row: a facet, the layer of the parts and the layer of the
overlays. -/
theorem normalize_terminates_errorBars :
    let bars : Spec := .unit
      { mark := .defined
          { type := "errorbar"
            props := .ofList [("line", .obj [("type", .str "errorbar"), ("point", .bool true)])] }
        encoding := .ofList [(.row, .field { field := some "site", type := .nominal }),
          (.x, .field { field := some "year", type := .ordinal }),
          (.y, .field { field := some "yield", type := .quantitative })] }
    ∃ t ws, (standard .defaults).normalize bars = .noted t ws ∧ bars.depth + 3 ≤ t.depth ∧ t.depth ≤ bars.depth + 3 := by
  intro bars
  have hdepth : Except.map (·.1.depth) ((standard .defaults).normalize bars) = .ok (bars.depth + 3) := rfl
  cases h : (standard .defaults).normalize bars with
  | fail e =>
    rw [h] at hdepth
    cases hdepth
  | noted t ws =>
    rw [h] at hdepth
    have hbound := (normalize_terminates .defaults).2.2.2.2 bars t ws h
    exact ⟨t, ws, rfl, Nat.le_of_eq (Except.ok.inj hdepth).symm, hbound⟩

end Normalizer

end ChartNormal
