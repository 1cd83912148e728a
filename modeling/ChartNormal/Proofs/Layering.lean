import ChartNormal.Proofs.NormalForm

/-!
# Layers on their own

The place of a node matters to facets and to units with facet channels, and to nothing else: what stands below a layer is
inside a layer, wherever that layer stands (`spec_of_unfaceted`). Unless a layer holds such a node itself, its layers
can be normalized one by one, each as a specification of its own (`normalize_layer`).
-/

namespace ChartNormal

namespace Normalizer

variable {n : Normalizer} {expand : UnitSpec → Report Spec}

theorem spec_of_unfaceted {s : Spec} (hfacet : s.isFacet = false) (hunit : ∀ u, s = .unit u → u.hasFacetChannel = false)
    (scope scope' : Scope) : n.spec expand scope s = n.spec expand scope' s := by
  cases s with
  | unit u => rw [spec_unit_of_flat (hunit u rfl), spec_unit_of_flat (hunit u rfl)]
  | layer transform layers outer => rw [spec, spec]
  | facet transform mapping child outer => cases hfacet

section Layer

variable {transform : List Transform} {layers : List Spec} {outer : Object}

theorem spec_layer_eq_noted_iff {scope : Scope} {t : Spec} {ws : List Warning} :
    n.spec expand scope (.layer transform layers outer) = .noted t ws ↔
      ∃ results : List (Spec × List Warning),
        List.Forall₂ (fun s r => n.spec expand .layer s = .noted r.1 r.2) layers results ∧
          t = .layer transform (results.map Prod.fst) outer ∧ ws = results.flatMap Prod.snd := by
  rw [spec, Report.bind_pure_eq_noted]
  constructor
  · rintro ⟨ts, hts, rfl⟩
    obtain ⟨results, hresults, rfl, rfl⟩ := specs_eq_noted_iff.1 hts
    exact ⟨results, hresults, rfl, rfl⟩
  · rintro ⟨results, hresults, rfl, rfl⟩
    exact ⟨_, specs_eq_noted_iff.2 ⟨results, hresults, rfl, rfl⟩, rfl⟩

theorem spec_layer_eq_fail_iff {scope : Scope} {e : Failure} :
    n.spec expand scope (.layer transform layers outer) = .fail e ↔
      ∃ before s after, layers = before ++ s :: after ∧
        (∀ b ∈ before, ∃ t ws, n.spec expand .layer b = .noted t ws) ∧ n.spec expand .layer s = .fail e := by
  -- a layer has no failure of its own
  have hfirst : (n.spec expand scope (.layer transform layers outer)).failure? =
      layers.findSome? fun s => (n.spec expand .layer s).failure? := by
    have hspecs : (n.specs expand layers).failure? =
        (layers.flatMap fun s => [s]).findSome? fun s => (n.spec expand .layer s).failure? :=
      failure?_specs fun s _ => (List.findSome?_singleton).symm
    rw [List.flatMap_singleton'] at hspecs
    rw [spec, ← hspecs]
    exact Report.failure?_bind_eq_left fun _ => rfl
  rw [← Report.failure?_eq_some_iff, hfirst, List.findSome?_eq_some_iff]
  simp only [Report.failure?_eq_some_iff, Report.failure?_eq_none_iff, and_comm]

end Layer

/-- **Layers on their own.** A layer without facets and units with facet channels among its layers is normalized by
normalizing each of them as a specification of its own: it keeps its stages and properties, the results and their
warnings stand in the order of the layers, and it fails exactly where one of them does, with the first failure. What stands
deeper in the tree does not matter. -/
theorem normalize_layer (config : Config) {transform : List Transform} {layers : List Spec} {outer : Object}
    (hfacets : ∀ s ∈ layers, s.isFacet = false) (hunits : ∀ u, .unit u ∈ layers → u.hasFacetChannel = false) :
    (∀ t ws, (standard config).normalize (.layer transform layers outer) = .noted t ws ↔
        ∃ results : List (Spec × List Warning),
          List.Forall₂ (fun s r => (standard config).normalize s = .noted r.1 r.2) layers results ∧
            t = .layer transform (results.map Prod.fst) outer ∧ ws = results.flatMap Prod.snd) ∧
      ∀ e, (standard config).normalize (.layer transform layers outer) = .fail e ↔
        ∃ before s after, layers = before ++ s :: after ∧
          (∀ b ∈ before, ∃ t ws, (standard config).normalize b = .noted t ws) ∧
            (standard config).normalize s = .fail e := by
  -- each layer is at the top what it is inside the layer
  have hplace : ∀ s ∈ layers, (standard config).normalize s = (standard config).spec (expansion config) .layer s :=
    fun s hs => spec_of_unfaceted (hfacets s hs) (fun u hu => hunits u (hu ▸ hs)) .top .layer
  constructor
  · intro t ws
    rw [normalize_standard, spec_layer_eq_noted_iff]
    refine exists_congr fun results => and_congr_left fun _ => ?_
    constructor
    · intro h
      refine ((List.forall₂_and_left _ _).2 ⟨hplace, h⟩).imp fun s r hr => ?_
      rw [hr.1, hr.2]
    · intro h
      refine ((List.forall₂_and_left _ _).2 ⟨hplace, h⟩).imp fun s r hr => ?_
      rw [← hr.1, hr.2]
  · intro e
    rw [normalize_standard, spec_layer_eq_fail_iff]
    refine exists_congr fun before => exists_congr fun s => exists_congr fun after => and_congr_right fun hlayers => ?_
    have hbefore : ∀ b ∈ before, b ∈ layers := fun b hb => hlayers ▸ List.mem_append_left _ hb
    have hs : s ∈ layers := hlayers ▸ List.mem_append_right _ List.mem_cons_self
    rw [hplace s hs]
    exact and_congr_left' (forall₂_congr fun b hb => by rw [hplace b (hbefore b hb)])

/-- Error bars and a layer with a row to drop, each with a warning of its own. A mark that is none stops them before the
box plot without an axis is reached. -/
theorem normalize_layer_bars :
    let y : Channel × ChannelDef := (.y, .field { field := some "yield", type := .quantitative })
    let site : FieldDef := { field := some "site", type := .nominal }
    let bars : Spec := .unit { mark := .tag "errorbar", encoding := .ofList [y, (.shape, .field site)] }
    let lines : Spec := .layer [] [.unit { mark := .tag "line", encoding := .ofList [y, (.row, .field site)] }] ∅
    let pie : Spec := .unit { mark := .tag "pie" }
    let box : Spec := .unit { mark := .tag "box-plot" }
    (∃ t t', (standard .defaults).normalize bars = .noted t [.incompatibleChannel .shape "errorbar"] ∧
        (standard .defaults).normalize lines = .noted t' [.facetDropped .row] ∧
        (standard .defaults).normalize (.layer [] [bars, lines] ∅) =
          .noted (.layer [] [t, t'] ∅) [.incompatibleChannel .shape "errorbar", .facetDropped .row]) ∧
      (standard .defaults).normalize (.layer [] [bars, lines, pie, box] ∅) = .fail (.unknownMark "pie") ∧
      (standard .defaults).normalize box = .fail (.invalid (.noContinuousAxis "box-plot")) := by
  intro y site bars lines pie box
  have hbars : Except.map (·.2) ((standard .defaults).normalize bars) = .ok [.incompatibleChannel .shape "errorbar"] := by
    decide +kernel +zetaReduce
  have hlines : Except.map (·.2) ((standard .defaults).normalize lines) = .ok [.facetDropped .row] := by
    decide +kernel +zetaReduce
  have hpie : ((standard .defaults).normalize pie).failure? = some (.unknownMark "pie") := by decide +kernel +zetaReduce
  have hbox : ((standard .defaults).normalize box).failure? = some (.invalid (.noContinuousAxis "box-plot")) := by
    decide +kernel +zetaReduce
  obtain ⟨t, ht⟩ : ∃ t, (standard .defaults).normalize bars = .noted t [.incompatibleChannel .shape "errorbar"] := by
    cases h : (standard .defaults).normalize bars with
    | fail e => rw [h] at hbars; cases hbars
    | noted t ws => rw [h] at hbars; cases hbars; exact ⟨t, rfl⟩
  obtain ⟨t', ht'⟩ : ∃ t', (standard .defaults).normalize lines = .noted t' [.facetDropped .row] := by
    cases h : (standard .defaults).normalize lines with
    | fail e => rw [h] at hlines; cases hlines
    | noted t ws => rw [h] at hlines; cases hlines; exact ⟨t, rfl⟩
  have hfacets : ∀ s ∈ [bars, lines, pie, box], s.isFacet = false := by decide +kernel +zetaReduce
  have hunits : ∀ u, .unit u ∈ [bars, lines, pie, box] → u.hasFacetChannel = false := by
    intro u hu
    simp only [bars, lines, pie, box, List.mem_cons, Spec.unit.injEq, reduceCtorEq, List.not_mem_nil, or_false,
      false_or] at hu
    rcases hu with rfl | rfl | rfl <;> decide
  refine ⟨⟨t, t', ht, ht', ?_⟩, ?_, Report.failure?_eq_some_iff.1 hbox⟩
  · have hlayer := @normalize_layer .defaults [] [bars, lines] ∅
      (fun s hs => hfacets s (List.mem_append_left [pie, box] hs))
      (fun u hu => hunits u (List.mem_append_left [pie, box] hu))
    exact (hlayer.1 _ _).2 ⟨[(t, _), (t', _)], .cons ht (.cons ht' .nil), rfl, rfl⟩
  · refine ((normalize_layer .defaults hfacets hunits).2 _).2
      ⟨[bars, lines], pie, [box], rfl, ?_, Report.failure?_eq_some_iff.1 hpie⟩
    exact List.forall_mem_cons.2 ⟨⟨t, _, ht⟩, List.forall_mem_singleton.2 ⟨t', _, ht'⟩⟩

end Normalizer

end ChartNormal
