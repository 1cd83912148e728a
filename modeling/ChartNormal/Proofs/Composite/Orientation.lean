import ChartNormal.Proofs.Composite.Grouping
import ChartNormal.Proofs.Composite.Resolution

/-!
# Orientation of the parts

Where only one axis is continuous it decides the orientation of a composite mark, and that of its parts: each binds the axis
to a column of the same type, and the other axis does not turn continuous when its bins, time units and aggregates are
extracted (`OnlyContinuous.part`). So a part is oriented like the mark it belongs to.
-/

namespace ChartNormal

namespace Composite

/-- The labels of the columns that parts bind the axis to, by the tag of the mark. -/
def axisLabels (tag : String) : List String :=
  if tag = BoxPlot.tag then ["lowerWhisker", "lowerBox", "midBox", "upperBox"]
  else if tag = ErrorBar.tag then ["lower", "center", "upper"]
  else ["lower", "upper"]

theorem Recipe.start_mem_axisLabels {r : Recipe} (hr : r ∈ Recipe.all) {p : Composite} {config : Config} {dr : Drawing}
    (hdr : dr ∈ r.drawings p config) : dr.start ∈ axisLabels r.tag := by
  have hstarts : (r.drawings p config).map (·.start) ⊆ axisLabels r.tag := by
    rcases Recipe.mem_all_iff.1 hr with rfl | rfl | rfl
    · change ["lowerWhisker", "upperBox", "lowerBox", "midBox"] ⊆ axisLabels BoxPlot.tag
      decide
    · change ["lower", "center", "lower", "upper", "lower", "center"] ⊆ axisLabels ErrorBar.tag
      decide
    · change ["lower", "lower", "upper"] ⊆ axisLabels ErrorBand.tag
      decide
  exact hstarts (List.mem_map_of_mem hdr)

theorem isContinuous_partField {a : Axis} (h : a.definition.isContinuous = true) (stem : String) :
    (a.partField stem).isContinuous = true := by
  have htype : (a.partField stem).type = a.definition.type := rfl
  rw [FieldDef.isContinuous] at h ⊢
  rw [htype]
  cases hq : a.definition.type with
  | quantitative => rfl
  | temporal => rfl
  | ordinal => rw [hq] at h; cases h
  | nominal => rw [hq] at h; cases h

theorem orient_eq_of_only {e : Encoding} {mark : MarkDef} {tag : String} {o o' : Orient} (h : OnlyContinuous e o)
    (ho : orient e mark tag = .ok o') : o' = o := by
  rw [orient_of_only h, forcedOrient] at ho
  split at ho
  · split at ho
    · exact (Except.ok.inj ho).symm
    · cases ho
  · exact (Except.ok.inj ho).symm

section Part

variable {r : Recipe} (hr : r ∈ Recipe.all) {u : UnitSpec} {o : Orient} {d : FieldDef} {field : String} {config : Config}
  {dr : Drawing} (hdr : dr ∈ r.drawings (along u o d field) config) {v : UnitSpec}
  (hv : dr.unit (along u o d field) config = .ok v)

include hr hdr hv

/-- Every mark draws the axis. -/
theorem field?_axis_part : v.encoding.field? o.continuous = some ((along u o d field).axis.partField dr.start) := by
  obtain ⟨m, hm⟩ := Recipe.primitive_base hr hdr
  obtain ⟨mark, -, -, rfl⟩ := Drawing.unit_eq_ok hm hv
  have hsupports : o.continuous.supports m = true := by cases o <;> exact Channel.supports_primary rfl m
  rw [Encoding.field?, Encoding.supportedBy, OrderedMap.get?_restrict, if_pos hsupports, get?_axis_partEncoding hr hdr]
  rfl

/-- On the other axis a part binds a field only where the unit does, and it is continuous only where that is. -/
theorem isContinuous_discrete_part (h : isContinuous (accepted u.encoding) o.discrete = false) :
    isContinuous v.encoding o.discrete = false := by
  rw [isContinuous, Option.any_eq_false] at h ⊢
  intro d' hd'
  obtain ⟨b, hb, hfield⟩ := Option.bind_eq_some_iff.1 hd'
  have hne : o.discrete ≠ o.continuous := by cases o <;> decide
  have hne₂ : o.discrete ≠ o.secondary := by cases o <;> decide
  rcases binding_of_drawing hr hdr hv hne hne₂ hb with ⟨b₀, hb₀, rfl⟩ | ⟨hconstant, -⟩
  · cases b₀ with
    | fields defs => cases hfield
    | value v => cases hfield
    | field d₀ =>
      obtain rfl : d₀.renamed = d' := Option.some.inj hfield
      rw [FieldDef.isContinuous_renamed]
      exact h d₀ (by rw [Encoding.field?, hb₀]; rfl)
  · exact absurd hconstant (by cases o <;> decide)

theorem OnlyContinuous.part (h : OnlyContinuous (accepted u.encoding) o)
    (hd : (accepted u.encoding).field? o.continuous = some d) :
    ((along u o d field).axis.partField dr.start).isContinuous = true ∧ OnlyContinuous v.encoding o := by
  have hcontinuous : d.isContinuous = true := by
    have hc := h.1
    rwa [isContinuous, hd, Option.any_some] at hc
  have hpart : ((along u o d field).axis.partField dr.start).isContinuous = true :=
    isContinuous_partField hcontinuous dr.start
  refine ⟨hpart, ?_, isContinuous_discrete_part hr hdr hv h.2⟩
  rw [isContinuous, field?_axis_part hr hdr hv, Option.any_some, hpart]

end Part

/-- **Orientation of the parts.** Where only one axis is continuous the mark is oriented along it. Every part of the
expansion binds it to a continuous column of the field, of the same type, and is oriented along it on its own. -/
theorem orient_of_part {u : UnitSpec} {config : Config} {l : LayerSpec} {ws : List Warning} {o : Orient}
    (h : Registry.standard.dispatch u config = .noted l ws) (ho : OnlyContinuous (accepted u.encoding) o) :
    orient (accepted u.encoding) u.mark.toDef u.mark.type = .ok o ∧
    ∃ (d : FieldDef) (field : String) (units : List UnitSpec),
      (accepted u.encoding).field? o.continuous = some d ∧ d.field = some field ∧ l.layers = units.map .unit ∧
      ∀ v ∈ units,
        (∃ label ∈ axisLabels u.mark.type, ∃ d', v.encoding.field? o.continuous = some d' ∧
          d'.field = some (Column.derived label field) ∧ d'.type = d.type ∧ d'.isContinuous = true) ∧
        orient v.encoding { type := u.mark.type } u.mark.type = .ok o := by
  obtain ⟨r, o', d, field, _, units, hr, ho', hd, hfield, rfl, hunits, rfl⟩ := dispatch_eq_noted h
  obtain ⟨hr, htag⟩ := Recipe.mem_all_of_ofTag? hr
  obtain rfl := orient_eq_of_only ho ho'
  refine ⟨ho', d, field, units, hd, hfield, rfl, fun v hv => ?_⟩
  obtain ⟨dr, hdr, hv⟩ := exists_of_forall₂ hunits hv
  have hdr := (List.mem_filter.1 hdr).1
  obtain ⟨hpart, honly⟩ := ho.part hr hdr hv hd
  refine ⟨⟨dr.start, ?_, _, field?_axis_part hr hdr hv, rfl, rfl, hpart⟩, ?_⟩
  · rw [← htag]
    exact Recipe.start_mem_axisLabels hr hdr
  · rw [orient_of_only honly]
    rfl

/-- A box plot along `x`: its other channels hold bins of numbers, a count, a list and a value. -/
theorem orient_of_part_binned :
    let u : UnitSpec :=
      { mark := .tag "box-plot"
        encoding := .ofList
          [(.x, .field { field := some "yield", type := .quantitative }),
            (.y, .field { field := some "age", type := .quantitative, bin := some (.flag true) }),
            (.size, .field { type := .quantitative, aggregate := some (.op .count) }),
            (.detail, .fields [{ field := some "year", type := .temporal, timeUnit := some "month" }]),
            (.color, .value (.str "red"))] }
    OnlyContinuous (accepted u.encoding) .horizontal ∧
      ∃ (l : LayerSpec) (ws : List Warning) (units : List UnitSpec),
        Registry.standard.dispatch u .defaults = .noted l ws ∧ l.layers = units.map .unit ∧ units.length = 4 ∧
        ∀ v ∈ units, orient v.encoding { type := "box-plot" } "box-plot" = .ok .horizontal := by
  intro u
  have honly : OnlyContinuous (accepted u.encoding) .horizontal := ⟨rfl, rfl⟩
  have hrun : Except.map (·.1.layers.length) (Registry.standard.dispatch u .defaults) = .ok 4 := by
    decide +kernel +zetaReduce
  obtain ⟨l, ws, h, hlength⟩ := Report.exists_noted_of_map hrun
  obtain ⟨-, d, field, units, -, -, hunits, hall⟩ := orient_of_part h honly
  rw [hunits, List.length_map] at hlength
  exact ⟨honly, l, ws, units, h, hunits, hlength, fun v hv => (hall v hv).2⟩

end Composite

end ChartNormal
