import ChartNormal.Proofs.Standard

/-!
# Two runs side by side

Two normalizers run over trees that differ in the marks of their units only. Every step but that of a unit without facet
channels is then the same in both runs, so their results are related as those steps relate them (`spec_lockstep`). In the
other direction, two runs over one tree that return the same agree on each of its units (`flatUnit_of_same_result`).
-/

namespace ChartNormal

/-! ### Reports with the same warnings -/

namespace Report

variable {α β γ δ : Type} {R : α → β → Prop} {S : γ → δ → Prop}

/-- Both fail alike, or both return: related values with the same warnings. -/
abbrev Rel (R : α → β → Prop) : Report α → Report β → Prop := Related (· = ·) R

theorem Rel.pure {a : α} {b : β} (h : R a b) : Rel R (pure a) (pure b) := .noted h rfl

/-- One step after another. -/
theorem Rel.bind {r : Report α} {r' : Report β} {f : α → Report γ} {g : β → Report δ} (h : Rel R r r')
    (hnext : ∀ a b, R a b → Rel S (f a) (g b)) : Rel S (r >>= f) (r' >>= g) :=
  Related.bind (fun hv hw => by rw [hv, hw]) h hnext

/-- Warnings first, and then a step. -/
theorem Rel.warned (ws : List Warning) {r : Report γ} {r' : Report δ} (h : Rel S r r') :
    Rel S (Report.noted () ws >>= fun _ => r) (Report.noted () ws >>= fun _ => r') :=
  Rel.bind (R := fun _ _ => True) (.noted trivial rfl) fun _ _ _ => h

theorem rel_eq_iff {r r' : Report α} : Rel (· = ·) r r' ↔ r = r' := by
  constructor
  · intro h
    cases h with
    | fail f => rfl
    | noted h hws => rw [h, hws]
  · rintro rfl
    cases r with
    | fail f => exact .fail f
    | noted a ws => exact .noted rfl rfl

end Report

/-! ### Other marks -/

namespace UnitSpec

/-- The unit without facet channels that normalization goes on with. -/
def flattened (scope : Scope) (u : UnitSpec) : UnitSpec :=
  if !u.hasFacetChannel then u else if scope = .top then u.cell else u.withoutFacets

theorem mark_flattened (scope : Scope) (u : UnitSpec) : (u.flattened scope).mark = u.mark := by
  unfold flattened
  split
  · rfl
  · split <;> rfl

/-- What is made of the result for the flat unit: a facet of it where facet channels have become one. -/
def wrapped (scope : Scope) (u : UnitSpec) (t : Spec) : Spec :=
  if u.hasFacetChannel && scope = .top then
    .facet u.transform u.facetMapping t (u.outer.restrict (· ∉ cellProperties))
  else t

theorem wrapped_injective (scope : Scope) (u : UnitSpec) : Function.Injective (u.wrapped scope) := by
  intro t t' h
  unfold wrapped at h
  split at h
  · cases h
    rfl
  · exact h

theorem leaves_wrapped (scope : Scope) (u : UnitSpec) (t : Spec) : (u.wrapped scope t).leaves = t.leaves := by
  unfold wrapped
  split
  · exact Spec.leaves_facet ..
  · rfl

/-- The unit with another mark. -/
def mapMark (g : Mark → Mark) (u : UnitSpec) : UnitSpec := { u with mark := g u.mark }

end UnitSpec

namespace Spec

mutual

/-- The tree with other marks in its units. -/
def mapMarks (g : Mark → Mark) : Spec → Spec
  | .unit u => .unit (u.mapMark g)
  | .layer transform layers outer => .layer transform (mapMarksAll g layers) outer
  | .facet transform mapping child outer => .facet transform mapping (mapMarks g child) outer

def mapMarksAll (g : Mark → Mark) : List Spec → List Spec
  | [] => []
  | s :: rest => mapMarks g s :: mapMarksAll g rest

end

theorem mapMarksAll_eq (g : Mark → Mark) (layers : List Spec) : mapMarksAll g layers = layers.map (mapMarks g) := by
  induction layers with
  | nil => rfl
  | cons s rest ih => rw [mapMarksAll, ih, List.map_cons]

theorem mapMarks_layer (g : Mark → Mark) (transform : List Transform) (layers : List Spec) (outer : Object) :
    (layer transform layers outer).mapMarks g = .layer transform (layers.map (mapMarks g)) outer := by
  rw [mapMarks, mapMarksAll_eq]

theorem mapMarks_id (s : Spec) : s.mapMarks id = s := by
  induction s with
  | unit u => rfl
  | layer transform layers outer ih =>
    have hlayers : layers.map (mapMarks id) = layers.map id := List.map_congr_left ih
    rw [mapMarks_layer, hlayers, List.map_id]
  | facet transform mapping child outer ih => rw [mapMarks, ih]

/-- Nodes are related when what stands below them is. -/
structure Congruent (R : Spec → Spec → Prop) : Prop where
  layer : ∀ {transform ts ts' outer}, List.Forall₂ R ts ts' → R (.layer transform ts outer) (.layer transform ts' outer)
  facet : ∀ {transform mapping t t' outer}, R t t' →
    R (.facet transform mapping t outer) (.facet transform mapping t' outer)

theorem congruent_eq : Congruent (· = ·) := by
  refine ⟨fun h => ?_, fun h => by rw [h]⟩
  rw [List.forall₂_eq_eq_eq] at h
  rw [h]

end Spec

namespace Normalizer

section Lockstep

variable {n n' : Normalizer} {expand expand' : UnitSpec → Report Spec} {g : Mark → Mark} {R : Spec → Spec → Prop}

/-- Facet channels are handled alike, whatever the mark. -/
theorem unit_lockstep (hR : Spec.Congruent R) {scope : Scope} {u : UnitSpec}
    (h : Report.Rel R (n.flatUnit expand (u.flattened scope)) (n'.flatUnit expand' ((u.flattened scope).mapMark g))) :
    Report.Rel R (n.unit expand scope u) (n'.unit expand' scope (u.mapMark g)) := by
  have hfacets : (u.mapMark g).hasFacetChannel = u.hasFacetChannel := rfl
  unfold UnitSpec.flattened at h
  unfold unit
  rw [hfacets]
  split
  · next hf => rwa [if_pos hf] at h
  · next hf =>
    rw [if_neg hf] at h
    split
    · next hscope =>
      rw [if_pos hscope] at h
      exact .warned _ (h.bind fun t t' ht => .pure (hR.facet ht))
    · next hscope =>
      rw [if_neg hscope] at h
      exact .warned _ h

theorem specs_lockstep {layers : List Spec}
    (h : ∀ s ∈ layers, Report.Rel R (n.spec expand .layer s) (n'.spec expand' .layer (s.mapMarks g))) :
    Report.Rel (List.Forall₂ R) (n.specs expand layers) (n'.specs expand' (layers.map (Spec.mapMarks g))) := by
  induction layers with
  | nil => exact .pure .nil
  | cons s rest ih =>
    rw [List.map_cons, specs_cons, specs_cons]
    refine (h s List.mem_cons_self).bind fun t t' ht => ?_
    refine (ih fun s hs => h s (List.mem_cons_of_mem _ hs)).bind fun ts ts' hts => ?_
    exact .pure (.cons ht hts)

/-- **Lockstep.** What relates the results for each unit of a tree, once it is flat, relates the results for the tree. -/
theorem spec_lockstep (hR : Spec.Congruent R) {s : Spec}
    (h : ∀ u ∈ s.leaves, ∀ scope,
      Report.Rel R (n.flatUnit expand (u.flattened scope)) (n'.flatUnit expand' ((u.flattened scope).mapMark g)))
    (scope : Scope) : Report.Rel R (n.spec expand scope s) (n'.spec expand' scope (s.mapMarks g)) := by
  induction s generalizing scope with
  | unit u => exact unit_lockstep hR (h u (by simp) scope)
  | layer transform layers outer ih =>
    have hlayers : ∀ s ∈ layers, Report.Rel R (n.spec expand .layer s) (n'.spec expand' .layer (s.mapMarks g)) := by
      intro s hs
      refine ih s hs (fun u hu => h u ?_) .layer
      rw [Spec.leaves_layer]
      exact List.mem_flatMap.2 ⟨s, hs, hu⟩
    rw [Spec.mapMarks_layer, spec, spec]
    exact (specs_lockstep hlayers).bind fun ts ts' hts => .pure (hR.layer hts)
  | facet transform mapping child outer ih =>
    cases scope with
    | top => exact (ih h .facet).bind fun t t' ht => .pure (hR.facet ht)
    | layer => exact .fail _
    | facet => exact .fail _

end Lockstep

/-! ### Two runs with one result -/

section SameResult

variable {n n' : Normalizer} {expand expand' : UnitSpec → Report Spec} {t : Spec} {ws ws' : List Warning}

/-- A unit that is normalized has been flattened first, with warnings about facet channels. -/
theorem unit_eq_noted {scope : Scope} {u : UnitSpec} (h : n.unit expand scope u = .noted t ws) :
    ∃ (t' : Spec) (ws' : List Warning) (cs : List Channel), n.flatUnit expand (u.flattened scope) = .noted t' ws' ∧
      t = u.wrapped scope t' ∧ ws = cs.map .facetDropped ++ ws' := by
  unfold unit at h
  unfold UnitSpec.flattened UnitSpec.wrapped
  cases hf : u.hasFacetChannel with
  | false =>
    rw [hf] at h
    exact ⟨t, ws, [], h, rfl, rfl⟩
  | true =>
    rw [hf] at h
    by_cases hscope : scope = .top
    · subst hscope
      obtain ⟨_, _, ws', hdrop, hcell, rfl⟩ := Report.bind_eq_noted.1 h
      obtain ⟨-, rfl⟩ := Report.noted_inj.1 hdrop
      obtain ⟨t', ht', rfl⟩ := Report.bind_pure_eq_noted.1 hcell
      exact ⟨t', ws', _, ht', rfl, rfl⟩
    · simp only [Bool.not_true, Bool.false_eq_true, if_false, if_neg hscope] at h ⊢
      obtain ⟨_, _, ws', hdrop, hflat, rfl⟩ := Report.bind_eq_noted.1 h
      obtain ⟨-, rfl⟩ := Report.noted_inj.1 hdrop
      exact ⟨t, ws', _, hflat, by simp [hscope], rfl⟩

theorem exists_of_forall₂_both {α β : Type} {R S : α → β → Prop} {l : List α} {bs : List β} (h : List.Forall₂ R l bs)
    (h' : List.Forall₂ S l bs) {a : α} (ha : a ∈ l) : ∃ b, R a b ∧ S a b := by
  induction h with
  | nil => cases ha
  | cons hab _ ih =>
    obtain ⟨hab', htail⟩ := List.forall₂_cons.1 h'
    rcases List.mem_cons.1 ha with rfl | ha
    · exact ⟨_, hab, hab'⟩
    · exact ih htail ha

/-- **Same parts.** Two runs over a tree that return the same do so for each of its units. -/
theorem flatUnit_of_same_result {s : Spec} {scope : Scope} (h : n.spec expand scope s = .noted t ws)
    (h' : n'.spec expand' scope s = .noted t ws') {u : UnitSpec} (hu : u ∈ s.leaves) :
    ∃ scope t ws ws', n.flatUnit expand (u.flattened scope) = .noted t ws ∧
      n'.flatUnit expand' (u.flattened scope) = .noted t ws' := by
  induction s generalizing scope t ws ws' with
  | unit v =>
    obtain rfl := List.mem_singleton.1 hu
    obtain ⟨t₁, w, _, hflat, rfl, -⟩ := unit_eq_noted h
    obtain ⟨t₂, w', _, hflat', ht, -⟩ := unit_eq_noted h'
    obtain rfl := UnitSpec.wrapped_injective scope u ht
    exact ⟨scope, t₁, w, w', hflat, hflat'⟩
  | layer transform layers outer ih =>
    obtain ⟨ts, hts, rfl⟩ := Report.bind_pure_eq_noted.1 h
    obtain ⟨ts', hts', ht⟩ := Report.bind_pure_eq_noted.1 h'
    cases ht
    rw [Spec.leaves_layer, List.mem_flatMap] at hu
    obtain ⟨s, hs, hu⟩ := hu
    obtain ⟨t, ⟨w, ht⟩, w', ht'⟩ := exists_of_forall₂_both (forall₂_of_specs hts) (forall₂_of_specs hts') hs
    exact ih s hs ht ht' hu
  | facet transform mapping child outer ih =>
    cases scope with
    | top =>
      obtain ⟨t₁, ht₁, rfl⟩ := Report.bind_pure_eq_noted.1 h
      obtain ⟨t₂, ht₂, ht⟩ := Report.bind_pure_eq_noted.1 h'
      cases ht
      exact ih ht₁ ht₂ hu
    | layer => cases h
    | facet => cases h

end SameResult

end Normalizer

end ChartNormal
