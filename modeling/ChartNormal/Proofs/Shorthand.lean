import ChartNormal.Proofs.Termination

/-!
# Shorthand and explicit forms

A unit with rows or columns is short for a facet around a unit without them (`normalize_unit_of_spellsOut`), and a unit
with a composite mark for the layer that the mark expands to (`spec_of_dispatch`). The second holds at every place of a
tree: what one node contributes to the warnings can be exchanged without an effect on anything else (`spec_fill`).
-/

namespace ChartNormal

/-! ### A facet that is written out -/

/-- The facet that a unit with rows or columns is short for. -/
structure FacetSpec.SpellsOut (f : FacetSpec) (u : UnitSpec) : Prop where
  transform : f.transform = u.transform
  row : ∀ d, f.mapping.row = some d ↔ u.encoding.get? .row = some (.field d) ∧ d.hasField = true
  column : ∀ d, f.mapping.column = some d ↔ u.encoding.get? .column = some (.field d) ∧ d.hasField = true
  child : f.child = .unit
    { mark := u.mark
      encoding := u.encoding.without [.row, .column]
      outer := u.outer.restrict (· ∈ ["width", "height", "projection"]) }
  outer : f.outer = u.outer.restrict (· ∉ ["width", "height", "projection"])

namespace UnitSpec

variable {u : UnitSpec}

/-- The rows and columns that are something else than one field of the data. -/
def rejectedFacets (u : UnitSpec) : List Channel :=
  [.row, .column].filter fun c => (u.encoding.get? c).any fun d => !d.field?.any FieldDef.hasField

theorem rejectedFacets_eq (u : UnitSpec) : u.rejectedFacets = u.emptyFacets := by
  refine List.filter_congr fun c _ => ?_
  rw [OrderedMap.contains, facetField?, Encoding.field?]
  cases u.encoding.get? c with
  | none => rfl
  | some d => cases d <;> simp [ChannelDef.field?]

theorem hasFacetChannel_iff :
    u.hasFacetChannel = true ↔ .row ∈ u.encoding.channels ∨ .column ∈ u.encoding.channels := by
  rw [← Bool.not_eq_false, hasFacetChannel_eq_false_iff]
  tauto

end UnitSpec

/-- There is one facet that spells a unit out. -/
theorem FacetSpec.SpellsOut.toSpec_eq {f : FacetSpec} {u : UnitSpec} (h : f.SpellsOut u) :
    f.toSpec =
      .facet u.transform u.facetMapping (.unit u.cell) (u.outer.restrict (· ∉ UnitSpec.cellProperties)) := by
  have hrow : f.mapping.row = u.facetField? .row :=
    Option.ext fun d => (h.row d).trans UnitSpec.facetField?_eq_some_iff.symm
  have hcolumn : f.mapping.column = u.facetField? .column :=
    Option.ext fun d => (h.column d).trans UnitSpec.facetField?_eq_some_iff.symm
  rw [FacetSpec.toSpec, h.transform, h.child, h.outer, UnitSpec.facetMapping, ← hrow, ← hcolumn]
  rfl

/-! ### A node and the rest of its tree -/

namespace Spec

/-- A tree with a node taken out. -/
inductive Context where
  | hole
  | layer (transform : List Transform) (before : List Spec) (inner : Context) (after : List Spec) (outer : Object)
  | facet (transform : List Transform) (mapping : FacetMapping) (inner : Context) (outer : Object)

def Context.fill (s : Spec) : Context → Spec
  | hole => s
  | layer transform before inner after outer => .layer transform (before ++ inner.fill s :: after) outer
  | facet transform mapping inner outer => .facet transform mapping (inner.fill s) outer

end Spec

namespace Report

variable {α β : Type} {ws ws' : List Warning}

/-- Both fail alike, or both return the same, the first with the warnings `ws` where the second has `ws'`. -/
def Spliced (ws ws' : List Warning) : Report α → Report α → Prop :=
  Related (fun v v' => ∃ before after, v = before ++ ws ++ after ∧ v' = before ++ ws' ++ after) (· = ·)

theorem Spliced.whole (a : α) : Spliced ws ws' (.noted a ws) (.noted a ws') :=
  .noted rfl ⟨[], [], by simp, by simp⟩

theorem Spliced.bind_left {r r' : Report α} (h : Spliced ws ws' r r') (f : α → Report β) :
    Spliced ws ws' (r >>= f) (r' >>= f) := by
  have hstep : ∀ a b, a = b → Rel (· = ·) (f a) (f b) := fun a b hab => rel_eq_iff.2 (congrArg f hab)
  refine Related.bind ?_ h hstep
  rintro v v' w w' ⟨before, after, rfl, rfl⟩ rfl
  exact ⟨before, after ++ w, List.append_assoc .., List.append_assoc ..⟩

theorem Spliced.bind_right (r : Report α) {f g : α → Report β} (h : ∀ a, Spliced ws ws' (f a) (g a)) :
    Spliced ws ws' (r >>= f) (r >>= g) := by
  have hstep : ∀ a b, a = b → Spliced ws ws' (f a) (g b) := by
    rintro a _ rfl
    exact h a
  refine Related.bind ?_ (rel_eq_iff.2 (Eq.refl r)) hstep
  rintro v v' w w' rfl ⟨before, after, rfl, rfl⟩
  exact ⟨v ++ before, after, by simp only [List.append_assoc], by simp only [List.append_assoc]⟩

end Report

namespace Normalizer

open Composite Report

section Fill

variable {n : Normalizer} {expand : UnitSpec → Report Spec} {s s' : Spec} {ws ws' : List Warning}

theorem specs_splice (before after : List Spec)
    (h : Spliced ws ws' (n.spec expand .layer s) (n.spec expand .layer s')) :
    Spliced ws ws' (n.specs expand (before ++ s :: after)) (n.specs expand (before ++ s' :: after)) := by
  induction before with
  | nil => exact h.bind_left _
  | cons b before ih => exact .bind_right _ fun t => ih.bind_left _

/-- What a node contributes to a run stands in the same place of the run of every tree around it. -/
theorem spec_fill (h : ∀ scope, Spliced ws ws' (n.spec expand scope s) (n.spec expand scope s')) (C : Spec.Context)
    (scope : Scope) : Spliced ws ws' (n.spec expand scope (C.fill s)) (n.spec expand scope (C.fill s')) := by
  induction C generalizing scope with
  | hole => exact h scope
  | layer transform before inner after outer ih => exact (specs_splice before after (ih .layer)).bind_left _
  | facet transform mapping inner outer ih =>
    cases scope with
    | top => exact (ih .facet).bind_left _
    | layer => exact .fail _
    | facet => exact .fail _

end Fill

/-! ### Both forms -/

variable {config : Config} {u : UnitSpec}

theorem normalize_unit_of_spellsOut (hu : .row ∈ u.encoding.channels ∨ .column ∈ u.encoding.channels) {f : FacetSpec}
    (hf : f.SpellsOut u) :
    (standard config).normalize (.unit u) = (do
      Report.noted () (u.rejectedFacets.map .facetDropped)
      (standard config).normalize f.toSpec) := by
  rw [hf.toSpec_eq, u.rejectedFacets_eq, normalize_standard, normalize_standard, spec, spec,
    spec_unit_of_flat (hasFacetChannel_cell u), unit, UnitSpec.hasFacetChannel_iff.2 hu, Bool.not_true,
    if_neg Bool.false_ne_true, if_pos rfl]

/-- Wherever a unit with a composite mark stands, it has the result of the layer that it expands to, after the warnings of
the expansion. -/
theorem spec_of_dispatch (hf : u.hasFacetChannel = false) {l : LayerSpec} {ws : List Warning}
    (h : Registry.standard.dispatch u config = .noted l ws) :
    ∃ t wl, ∀ scope, (standard config).spec (expansion config) scope l.toSpec = .noted t wl ∧
      (standard config).spec (expansion config) scope (.unit u) = .noted t (ws ++ wl) := by
  obtain ⟨units, hl, hunits⟩ := parts_of_dispatch h
  rw [dispatch_standard] at h
  cases hr : Recipe.ofTag? u.mark.type with
  | none =>
    rw [hr] at h
    cases h
  | some r =>
    rw [hr] at h
    refine ⟨.layer l.transform (units.map (·.settled config)) l.outer, units.flatMap (·.settledWarnings),
      fun scope => ⟨?_, ?_⟩⟩
    · rw [LayerSpec.toSpec, spec, hl, specs_parts hunits]
      exact bind_pure_eq_noted.2 ⟨_, rfl, rfl⟩
    · rw [spec_unit_of_flat hf, flatUnit_standard, hr]
      exact expansion_eq hr h hl hunits

/-- **Shorthand.** A unit with rows or columns has the result of the facet it is short for, after a warning for each of
them that is not a field of the data. A unit with a composite mark and without rows and columns has the result of the layer
that it expands to, after the warnings of the expansion. That layer can stand in for the unit anywhere in a tree: the tree
fails alike or returns the same, and of its warnings only those of the expansion are gone. -/
theorem normalize_shorthand (config : Config) :
    (∀ (u : UnitSpec) (f : FacetSpec), (.row ∈ u.encoding.channels ∨ .column ∈ u.encoding.channels) → f.SpellsOut u →
        (standard config).normalize (.unit u) = (do
          Report.noted () (u.rejectedFacets.map .facetDropped)
          (standard config).normalize f.toSpec)) ∧
      ∀ (u : UnitSpec) (l : LayerSpec) (ws : List Warning),
        .row ∉ u.encoding.channels → .column ∉ u.encoding.channels →
        Registry.standard.dispatch u config = .noted l ws →
          ∃ t wl, (standard config).normalize l.toSpec = .noted t wl ∧
            (standard config).normalize (.unit u) = .noted t (ws ++ wl) ∧
            ∀ C : Spec.Context,
              Spliced (ws ++ wl) wl ((standard config).normalize (C.fill (.unit u)))
                ((standard config).normalize (C.fill l.toSpec)) := by
  refine ⟨fun u f hu hf => normalize_unit_of_spellsOut hu hf, fun u l ws hrow hcolumn h => ?_⟩
  obtain ⟨t, wl, hrun⟩ := spec_of_dispatch (UnitSpec.hasFacetChannel_eq_false_iff.2 ⟨hrow, hcolumn⟩) h
  refine ⟨t, wl, (hrun .top).1, (hrun .top).2, fun C => ?_⟩
  rw [normalize_standard, normalize_standard]
  refine spec_fill (fun scope => ?_) C .top
  rw [(hrun scope).1, (hrun scope).2]
  exact .whole t

/-- Box plots in rows, with a constant where the columns should be; and error bars over a line, inside a facet, whose
expansion drops a shape and whose layer drops a list of colors. -/
theorem normalize_shorthand_bars :
    let y : Channel × ChannelDef := (.y, .field { field := some "yield", type := .quantitative })
    let site : FieldDef := { field := some "site", type := .nominal }
    let boxes : UnitSpec :=
      { mark := .tag "box-plot"
        encoding := .ofList [(.row, .field site), y, (.column, .value .null)]
        outer := .ofList [("width", .str "container"), ("background", .str "white")] }
    let rows : FacetSpec :=
      { mapping := { row := some site }
        child := .unit
          { mark := .tag "box-plot", encoding := .ofList [y], outer := .ofList [("width", .str "container")] }
        outer := .ofList [("background", .str "white")] }
    let bars : UnitSpec :=
      { mark := .tag "errorbar", encoding := .ofList [y, (.shape, .field site), (.color, .fields [site])] }
    let line : Spec := .unit { mark := .tag "line", encoding := .ofList [y, (.shape, .field site)] }
    let C : Spec.Context := .facet [] { column := some site } (.layer [] [line] .hole [] ∅) ∅
    rows.SpellsOut boxes ∧ ((standard .defaults).normalize rows.toSpec).failure? = none ∧
      (standard .defaults).normalize (.unit boxes) = (do
        Report.noted () [.facetDropped .column]
        (standard .defaults).normalize rows.toSpec) ∧
      ∃ l t, Registry.standard.dispatch bars .defaults = .noted l [.incompatibleChannel .shape "errorbar"] ∧
        (standard .defaults).normalize l.toSpec = .noted t [.listNotSupported .color] ∧
        ((standard .defaults).normalize (C.fill (.unit bars))).failure? = none ∧
        Spliced [.incompatibleChannel .shape "errorbar", .listNotSupported .color] [.listNotSupported .color]
          ((standard .defaults).normalize (C.fill (.unit bars))) ((standard .defaults).normalize (C.fill l.toSpec)) := by
  intro y site boxes rows bars line C
  have hspells : rows.SpellsOut boxes :=
    { transform := rfl
      row := fun d => show boxes.facetField? .row = some d ↔ _ from UnitSpec.facetField?_eq_some_iff
      column := fun d => show boxes.facetField? .column = some d ↔ _ from UnitSpec.facetField?_eq_some_iff
      child := rfl
      outer := rfl }
  have hrows : ((standard .defaults).normalize rows.toSpec).failure? = none := by decide +kernel +zetaReduce
  have hwarned : Except.map (·.2) (Registry.standard.dispatch bars .defaults) =
      .ok [.incompatibleChannel .shape "errorbar"] := by decide +kernel +zetaReduce
  have hwarned' : Except.map (·.2) ((standard .defaults).normalize (.unit bars)) =
      .ok [.incompatibleChannel .shape "errorbar", .listNotSupported .color] := by decide +kernel +zetaReduce
  have hfill : ((standard .defaults).normalize (C.fill (.unit bars))).failure? = none := by decide +kernel +zetaReduce
  refine ⟨hspells, hrows, (normalize_shorthand .defaults).1 boxes rows (by decide) hspells, ?_⟩
  cases h : Registry.standard.dispatch bars .defaults with
  | fail e => rw [h] at hwarned; cases hwarned
  | noted l ws =>
    rw [h] at hwarned
    cases hwarned
    obtain ⟨t, wl, hl, hu, hC⟩ := (normalize_shorthand .defaults).2 bars l _ (by decide) (by decide) h
    rw [hu] at hwarned'
    cases hwarned'
    exact ⟨l, t, rfl, hl, hfill, hC C⟩

end Normalizer

end ChartNormal
