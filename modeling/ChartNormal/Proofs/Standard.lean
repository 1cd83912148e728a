import ChartNormal.Proofs.Composite.Parts
import ChartNormal.Proofs.Tree

/-!
# Runs of the standard normalizer

With the standard composite marks a unit without facet channels has one of two outcomes: it is settled as it is, or it is
expanded and each of its parts is settled (`Flat`). A unit with facet channels is wrapped into a facet at the top and loses
them elsewhere. `spec_rules` is the induction over what a run returns, one rule for each of these steps.
-/

namespace ChartNormal

namespace UnitSpec

/-- The unit settled under its own mark. -/
def settled (config : Config) (u : UnitSpec) : Spec :=
  match u.mark.primitive? with
  | some m => u.settle config m
  | none => .unit u

def settledWarnings (u : UnitSpec) : List Warning :=
  match u.mark.primitive? with
  | some m => u.settleWarnings m
  | none => []

end UnitSpec

namespace Normalizer

open Composite

/-- The normalizer with the standard composite marks. -/
def standard (config : Config) : Normalizer := { config }

/-- What the standard normalizer makes of a unit with a composite mark. -/
def expansion (config : Config) (u : UnitSpec) : Report Spec := (standard config).expand maxExpansion u

variable {config : Config} {u v : UnitSpec}

/-! ### Units without facet channels -/

theorem ofTag?_of_primitive {tag : String} {m : Primitive} (h : Primitive.ofName? tag = some m) :
    Recipe.ofTag? tag = none := by
  rw [← Primitive.ofName?_eq_some h, Recipe.ofTag?_eq_none_iff]
  cases m <;> decide

theorem flatUnit_standard (expand : UnitSpec → Report Spec) (u : UnitSpec) :
    (standard config).flatUnit expand u =
      match Recipe.ofTag? u.mark.type, u.mark.primitive? with
      | some _, _ => expand u
      | none, some m => .noted (u.settle config m) (u.settleWarnings m)
      | none, none => .fail (.unknownMark u.mark.type) := by
  rw [flatUnit, show (standard config).registry = Registry.standard from rfl, contains_standard]
  cases Recipe.ofTag? u.mark.type with
  | some r => rfl
  | none => cases u.mark.primitive? <;> rfl

/-- No composite mark has the name of a primitive one. -/
def AvoidsPrimitives (n : Normalizer) : Prop :=
  ∀ tag m, Primitive.ofName? tag = some m → n.registry.contains tag = false

theorem avoidsPrimitives_standard : (standard config).AvoidsPrimitives := fun tag m hm => by
  rw [show (standard config).registry = Registry.standard from rfl, contains_standard, ofTag?_of_primitive hm]
  rfl

section Primitives

variable {n : Normalizer} (hn : n.AvoidsPrimitives)

include hn

theorem flatUnit_of_primitive {m : Primitive} (hm : u.mark.primitive? = some m) (expand : UnitSpec → Report Spec) :
    n.flatUnit expand u = .noted (u.settle n.config m) (u.settleWarnings m) := by
  rw [flatUnit, hn _ m hm, if_neg Bool.false_ne_true, hm]

/-- A part is settled without a further expansion. -/
theorem spec_of_part {m : Primitive} (hv : IsPart v m) (expand : UnitSpec → Report Spec) (scope : Scope) :
    n.spec expand scope (.unit v) = .noted (v.settled n.config) v.settledWarnings := by
  rw [spec_unit_of_flat hv.flat, UnitSpec.settled, UnitSpec.settledWarnings, hv.primitive]
  exact flatUnit_of_primitive hn hv.primitive expand

theorem specs_of_parts {units : List UnitSpec} (h : ∀ v ∈ units, ∃ m, IsPart v m) (expand : UnitSpec → Report Spec) :
    n.specs expand (units.map .unit) =
      .noted (units.map (·.settled n.config)) (units.flatMap (·.settledWarnings)) := by
  refine specs_map fun v hv => ?_
  obtain ⟨m, hm⟩ := h v hv
  exact spec_of_part hn hm expand .layer

end Primitives

theorem flatUnit_primitive {m : Primitive} (hm : u.mark.primitive? = some m) (expand : UnitSpec → Report Spec) :
    (standard config).flatUnit expand u = .noted (u.settle config m) (u.settleWarnings m) :=
  flatUnit_of_primitive avoidsPrimitives_standard hm expand

theorem spec_part {m : Primitive} (hv : IsPart v m) (expand : UnitSpec → Report Spec) (scope : Scope) :
    (standard config).spec expand scope (.unit v) = .noted (v.settled config) v.settledWarnings :=
  spec_of_part avoidsPrimitives_standard hv expand scope

theorem specs_parts {units : List UnitSpec} (h : ∀ v ∈ units, ∃ m, IsPart v m) (expand : UnitSpec → Report Spec) :
    (standard config).specs expand (units.map .unit) =
      .noted (units.map (·.settled config)) (units.flatMap (·.settledWarnings)) :=
  specs_of_parts avoidsPrimitives_standard h expand

/-- The layer that the expansion of a composite mark is settled to. -/
theorem expansion_eq {r : Recipe} (hr : Recipe.ofTag? u.mark.type = some r) {l : LayerSpec} {ws : List Warning}
    (h : r.expand u config = .noted l ws) {units : List UnitSpec} (hl : l.layers = units.map .unit)
    (hunits : ∀ v ∈ units, ∃ m, IsPart v m) :
    expansion config u =
      .noted (.layer l.transform (units.map (·.settled config)) l.outer)
        (ws ++ units.flatMap (·.settledWarnings)) := by
  obtain ⟨depth, hdepth⟩ : ∃ depth, maxExpansion = depth + 1 := ⟨maxExpansion - 1, rfl⟩
  rw [expansion, hdepth, expand, show (standard config).registry = Registry.standard from rfl, dispatch_standard, hr]
  refine Report.bind_eq_noted.2 ⟨l, ws, units.flatMap (·.settledWarnings), h, ?_, rfl⟩
  rw [hl, specs_parts hunits]
  exact Report.bind_pure_eq_noted.2 ⟨_, rfl, rfl⟩

theorem failure?_expansion {r : Recipe} (hr : Recipe.ofTag? u.mark.type = some r) :
    (expansion config u).failure? = (r.expand u config).failure? := by
  cases h : r.expand u config with
  | fail e =>
    obtain ⟨depth, hdepth⟩ : ∃ depth, maxExpansion = depth + 1 := ⟨maxExpansion - 1, rfl⟩
    rw [expansion, hdepth, expand, show (standard config).registry = Registry.standard from rfl, dispatch_standard, hr]
    show (r.expand u config >>= _).failure? = _
    rw [h]
    rfl
  | noted l ws =>
    obtain ⟨units, hl, hunits⟩ := parts_of_expand (Recipe.mem_all_of_ofTag? hr).1 h
    rw [expansion_eq hr h hl hunits]
    rfl

/-- What becomes of a unit without facet channels. -/
inductive Flat (config : Config) (u : UnitSpec) : Spec → Prop
  | primitive {m : Primitive} (hm : u.mark.primitive? = some m) : Flat config u (u.settle config m)
  | composite {r : Recipe} {l : LayerSpec} {ws : List Warning} {units : List UnitSpec}
      (hr : Recipe.ofTag? u.mark.type = some r) (h : r.expand u config = .noted l ws)
      (hl : l.layers = units.map .unit) (hunits : ∀ v ∈ units, ∃ m, IsPart v m) :
      Flat config u (.layer l.transform (units.map (·.settled config)) l.outer)

/-- A composite mark that is normalized has been expanded, and its parts settled one after another. -/
theorem flatUnit_composite {r : Recipe} (hr : Recipe.ofTag? u.mark.type = some r) {t : Spec} {ws : List Warning}
    (h : (standard config).flatUnit (expansion config) u = .noted t ws) :
    ∃ (l : LayerSpec) (ws' : List Warning) (units : List UnitSpec), r.expand u config = .noted l ws' ∧
      l.layers = units.map .unit ∧ (∀ v ∈ units, ∃ m, IsPart v m) ∧
      t = .layer l.transform (units.map (·.settled config)) l.outer ∧
      ws = ws' ++ units.flatMap (·.settledWarnings) := by
  rw [flatUnit_standard, hr] at h
  change expansion config u = _ at h
  cases he : r.expand u config with
  | fail e =>
    have hfail := @failure?_expansion config u r hr
    rw [h, he] at hfail
    cases hfail
  | noted l ws' =>
    obtain ⟨units, hl, hunits⟩ := parts_of_expand (Recipe.mem_all_of_ofTag? hr).1 he
    rw [expansion_eq hr he hl hunits] at h
    obtain ⟨ht, hws⟩ := Report.noted_inj.1 h
    exact ⟨l, ws', units, rfl, hl, hunits, ht.symm, hws.symm⟩

theorem flat_of_flatUnit {t : Spec} {ws : List Warning}
    (h : (standard config).flatUnit (expansion config) u = .noted t ws) : Flat config u t := by
  cases hr : Recipe.ofTag? u.mark.type with
  | some r =>
    obtain ⟨l, ws', units, he, hl, hunits, rfl, -⟩ := flatUnit_composite hr h
    exact .composite hr he hl hunits
  | none =>
    rw [flatUnit_standard, hr] at h
    cases hm : u.mark.primitive? with
    | some m =>
      rw [hm] at h
      obtain ⟨rfl, -⟩ := Report.noted_inj.1 h
      exact .primitive hm
    | none =>
      rw [hm] at h
      cases h

/-! ### Induction over a run -/

theorem normalize_standard (config : Config) (s : Spec) :
    (standard config).normalize s = (standard config).spec (expansion config) .top s := rfl

/-- **Rule induction.** What holds after each step of a run holds of what the run returns. -/
theorem spec_rules {P : Scope → Spec → Spec → Prop}
    (flat : ∀ scope u t, u.hasFacetChannel = false → Flat config u t → P scope (.unit u) t)
    (wrap : ∀ u t, u.hasFacetChannel = true → Flat config u.cell t →
      P .top (.unit u)
        (.facet u.transform u.facetMapping t (u.outer.restrict (· ∉ UnitSpec.cellProperties))))
    (drop : ∀ scope u t, scope ≠ .top → u.hasFacetChannel = true → Flat config u.withoutFacets t →
      P scope (.unit u) t)
    (layer : ∀ scope transform layers ts outer, List.Forall₂ (P .layer) layers ts →
      P scope (.layer transform layers outer) (.layer transform ts outer))
    (facet : ∀ transform mapping child t outer, P .facet child t →
      P .top (.facet transform mapping child outer) (.facet transform mapping t outer))
    {scope : Scope} {s t : Spec} {ws : List Warning}
    (h : (standard config).spec (expansion config) scope s = .noted t ws) : P scope s t := by
  induction s generalizing scope t ws with
  | unit u =>
    rw [spec, unit] at h
    by_cases hf : u.hasFacetChannel = true
    · rw [if_neg (by simp [hf])] at h
      by_cases hs : scope = .top
      · subst hs
        rw [if_pos rfl] at h
        obtain ⟨_, _, _, -, h, -⟩ := Report.bind_eq_noted.1 h
        obtain ⟨t, ht, rfl⟩ := Report.bind_pure_eq_noted.1 h
        exact wrap u t hf (flat_of_flatUnit ht)
      · rw [if_neg hs] at h
        obtain ⟨_, _, _, -, h, -⟩ := Report.bind_eq_noted.1 h
        exact drop scope u t hs hf (flat_of_flatUnit h)
    · rw [if_pos (by simp [hf])] at h
      exact flat scope u t (by simpa using hf) (flat_of_flatUnit h)
  | layer transform layers outer ih =>
    rw [spec] at h
    obtain ⟨ts, hts, rfl⟩ := Report.bind_pure_eq_noted.1 h
    have hall := (List.forall₂_and_left layers ts).2 ⟨fun s hs => hs, forall₂_of_specs hts⟩
    refine layer scope transform layers ts outer (hall.imp ?_)
    rintro s t ⟨hs, w, ht⟩
    exact ih s hs ht
  | facet transform mapping child outer ih =>
    cases scope with
    | top =>
      rw [spec] at h
      obtain ⟨t, ht, rfl⟩ := Report.bind_pure_eq_noted.1 h
      exact facet transform mapping child t outer (ih ht)
    | layer => rw [spec] at h; cases h
    | facet => rw [spec] at h; cases h

end Normalizer

end ChartNormal
