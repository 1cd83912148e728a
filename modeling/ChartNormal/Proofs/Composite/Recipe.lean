import ChartNormal.Registry
import ChartNormal.Proofs.Record

/-!
# Composite marks as recipes

The standard composite marks are expanded alike: the axis is resolved, and a layer is drawn over one pipeline. A `Recipe`
holds what differs between them, and `dispatch_standard` says that the registry follows the recipe with the tag of the
mark. What is true of `Recipe.expand` is then true of all three.

Main statements: `resolve_eq_noted` says what an axis is resolved to, `layer_eq_ok` what a layer is made of, and
`type_partMark` that a part keeps the type of the mark it is made of, whatever its settings say.
-/

namespace ChartNormal

namespace Composite

/-- What sets one composite mark apart from another. -/
structure Recipe where
  tag : String
  policy : AggregatePolicy
  warnings : Composite → Config → List Warning
  drawings : Composite → Config → List Drawing
  columns : Composite → Config → List AggregateColumn
  calculates : Composite → Config → List CalculateStage

namespace Recipe

def expand (r : Recipe) (u : UnitSpec) (config : Config) : Report LayerSpec := do
  let p ← resolve u r.policy
  Report.noted () (r.warnings p config)
  p.layer config u (r.drawings p config) (r.columns p config) (r.calculates p config)

def boxPlot : Recipe where
  tag := BoxPlot.tag
  policy := .refuse
  warnings p config := BoxPlot.whiskerWarnings p.mark config
  drawings := BoxPlot.drawings
  columns p config := BoxPlot.columns p.axis.field (BoxPlot.whisker p.mark config)
  calculates p config := BoxPlot.calculates p.axis.field (BoxPlot.whisker p.mark config)

/-- The interval of an error bar. -/
def barInterval (p : Composite) (config : Config) : Interval :=
  Interval.resolve p.mark config.errorbar.center config.errorbar.extent

def errorBar : Recipe where
  tag := ErrorBar.tag
  policy := .warn
  warnings p config := Interval.warnings p.mark config.errorbar.center config.errorbar.extent ErrorBar.tag
  drawings p _ := ErrorBar.drawings p
  columns p config := (barInterval p config).columns p.axis.field (ErrorBar.drawsCenter p config)
  calculates p config := (barInterval p config).calculates p.axis.field

/-- The interval of an error band. -/
def bandInterval (p : Composite) (config : Config) : Interval :=
  Interval.resolve p.mark config.errorband.center config.errorband.extent

def errorBand : Recipe where
  tag := ErrorBand.tag
  policy := .warn
  warnings p config :=
    Interval.warnings p.mark config.errorband.center config.errorband.extent ErrorBand.tag ++
      ErrorBand.interpolationWarnings p config
  drawings := ErrorBand.drawings
  columns p config := (bandInterval p config).columns p.axis.field false
  calculates p config := (bandInterval p config).calculates p.axis.field

/-- The recipes of the standard registry. -/
def all : List Recipe := [boxPlot, errorBar, errorBand]

theorem mem_all_iff {r : Recipe} : r ∈ all ↔ r = boxPlot ∨ r = errorBar ∨ r = errorBand := by
  simp only [all, List.mem_cons, List.not_mem_nil, or_false]

def ofTag? (tag : String) : Option Recipe := all.find? (·.tag = tag)

theorem mem_all_of_ofTag? {tag : String} {r : Recipe} (h : ofTag? tag = some r) : r ∈ all ∧ r.tag = tag :=
  ⟨List.mem_of_find?_eq_some h, by simpa using List.find?_some h⟩

theorem ofTag?_eq_none_iff {tag : String} :
    ofTag? tag = none ↔ tag ≠ BoxPlot.tag ∧ tag ≠ ErrorBar.tag ∧ tag ≠ ErrorBand.tag := by
  simp only [ofTag?, all, List.find?_eq_none, List.forall_mem_cons, List.not_mem_nil, decide_eq_true_eq, boxPlot,
    errorBar, errorBand, ne_eq, eq_comm (b := tag), false_imp_iff, implies_true, and_true]

end Recipe

/-! ### The standard registry -/

theorem get?_standard (tag : String) :
    Registry.standard.get? tag =
      if tag = BoxPlot.tag then some ⟨BoxPlot.expand, BoxPlot.parts⟩
      else if tag = ErrorBand.tag then some ⟨ErrorBand.expand, ErrorBand.parts⟩
      else if tag = ErrorBar.tag then some ⟨ErrorBar.expand, ErrorBar.parts⟩
      else none := by
  have he : Registry.standard.entries =
      [(BoxPlot.tag, ⟨BoxPlot.expand, BoxPlot.parts⟩), (ErrorBand.tag, ⟨ErrorBand.expand, ErrorBand.parts⟩),
        (ErrorBar.tag, ⟨ErrorBar.expand, ErrorBar.parts⟩)] := rfl
  rw [Registry.get?, he]
  simp only [OrderedMap.lookup_cons, List.lookup_nil]

/-- The standard expanders follow the recipes. -/
theorem exists_recipe {e : String × CompositeMark} (h : e ∈ Registry.standard.entries) :
    ∃ r ∈ Recipe.all, e.2.expand = r.expand := by
  have he : e ∈ [(BoxPlot.tag, ⟨BoxPlot.expand, BoxPlot.parts⟩), (ErrorBand.tag, ⟨ErrorBand.expand, ErrorBand.parts⟩),
      (ErrorBar.tag, ⟨ErrorBar.expand, ErrorBar.parts⟩)] := h
  simp only [List.mem_cons, List.not_mem_nil, or_false] at he
  rcases he with rfl | rfl | rfl
  · exact ⟨Recipe.boxPlot, Recipe.mem_all_iff.2 (.inl rfl), rfl⟩
  · exact ⟨Recipe.errorBand, Recipe.mem_all_iff.2 (.inr (.inr rfl)), rfl⟩
  · exact ⟨Recipe.errorBar, Recipe.mem_all_iff.2 (.inr (.inl rfl)), rfl⟩

theorem dispatch_standard (u : UnitSpec) (config : Config) :
    Registry.standard.dispatch u config =
      match Recipe.ofTag? u.mark.type with
      | some r => r.expand u config
      | none => .fail (.unknownMark u.mark.type) := by
  rw [Registry.dispatch, get?_standard]
  by_cases hbox : u.mark.type = BoxPlot.tag
  · rw [hbox]; rfl
  by_cases hband : u.mark.type = ErrorBand.tag
  · rw [hband]; rfl
  by_cases hbar : u.mark.type = ErrorBar.tag
  · rw [hbar]; rfl
  rw [if_neg hbox, if_neg hband, if_neg hbar, Recipe.ofTag?_eq_none_iff.2 ⟨hbox, hbar, hband⟩]

theorem contains_standard (tag : String) : Registry.standard.contains tag = (Recipe.ofTag? tag).isSome := by
  rw [Registry.contains, get?_standard]
  by_cases hbox : tag = BoxPlot.tag
  · rw [hbox]; rfl
  by_cases hband : tag = ErrorBand.tag
  · rw [hband]; rfl
  by_cases hbar : tag = ErrorBar.tag
  · rw [hbar]; rfl
  rw [if_neg hbox, if_neg hband, if_neg hbar, Recipe.ofTag?_eq_none_iff.2 ⟨hbox, hbar, hband⟩]
  rfl

/-! ### The axis -/

theorem type_toDef (m : Mark) : m.toDef.type = m.type := by
  cases m <;> rfl

/-- The composite mark of `u` that summarises `field`, bound by `d`, along the axis that `o` makes continuous. -/
def along (u : UnitSpec) (o : Orient) (d : FieldDef) (field : String) : Composite where
  mark := u.mark.toDef
  axis :=
    { orient := o
      definition := { d with aggregate := none }
      field
      isSingle := !(accepted u.encoding).hasField o.discrete }
  extraction := Encoding.extract ((accepted u.encoding).without [o.continuous])

@[simp] theorem orient_along (u : UnitSpec) (o : Orient) (d : FieldDef) (field : String) :
    (along u o d field).axis.orient = o := rfl

@[simp] theorem channel_along (u : UnitSpec) (o : Orient) (d : FieldDef) (field : String) :
    (along u o d field).axis.channel = o.continuous := rfl

theorem axisResolve_eq_noted {e : Encoding} {o : Orient} {tag : String} {policy : AggregatePolicy} {a : Axis}
    {ws : List Warning} (h : Axis.resolve e o tag policy = .noted a ws) :
    ∃ d field, e.field? o.continuous = some d ∧ d.field = some field ∧
      a = { orient := o, definition := { d with aggregate := none }, field, isSingle := !e.hasField o.discrete } := by
  rw [Axis.resolve] at h
  split at h
  · cases h
  · next d hd =>
    split at h
    · cases h
    · next field hf =>
      obtain ⟨_, _, _, -, h, -⟩ := Report.bind_eq_noted.1 h
      obtain ⟨rfl, -⟩ := Report.pure_eq_noted.1 h
      exact ⟨d, field, hd, hf, rfl⟩

theorem resolve_eq_noted {u : UnitSpec} {policy : AggregatePolicy} {p : Composite} {ws : List Warning}
    (h : resolve u policy = .noted p ws) :
    ∃ o d field, orient (accepted u.encoding) u.mark.toDef u.mark.type = .ok o ∧
      (accepted u.encoding).field? o.continuous = some d ∧ d.field = some field ∧ p = along u o d field := by
  rw [resolve, type_toDef] at h
  obtain ⟨_, _, _, -, h, -⟩ := Report.bind_eq_noted.1 h
  obtain ⟨o, _, _, ho, h, -⟩ := Report.bind_eq_noted.1 h
  obtain ⟨ho, -⟩ := Report.lift_eq_noted.1 ho
  obtain ⟨a, _, _, ha, h, -⟩ := Report.bind_eq_noted.1 h
  obtain ⟨d, field, hd, hf, rfl⟩ := axisResolve_eq_noted ha
  obtain ⟨rfl, -⟩ := Report.noted_inj.1 h
  exact ⟨o, d, field, ho, hd, hf, rfl⟩

/-! ### The layer -/

/-- The unit that a drawing becomes. -/
def Drawing.unit (p : Composite) (config : Config) (d : Drawing) : Except Failure UnitSpec :=
  p.partUnit config d.part d.base d.start d.stop d.shared

theorem layer_eq_ok {p : Composite} {config : Config} {u : UnitSpec} {drawings : List Drawing}
    {columns : List AggregateColumn} {calculates : List CalculateStage} {l : LayerSpec}
    (h : p.layer config u drawings columns calculates = .ok l) :
    ∃ units, List.Forall₂ (fun d v => d.unit p config = .ok v) (drawings.filter (p.isDrawn config ·.part)) units ∧
      l = { transform := p.pipeline u.transform columns calculates, layers := units.map .unit, outer := u.outer } := by
  change (drawings.filter (p.isDrawn config ·.part)).mapM (Drawing.unit p config) >>= _ = _ at h
  cases hm : (drawings.filter (p.isDrawn config ·.part)).mapM (Drawing.unit p config) with
  | error e => rw [hm] at h; cases h
  | ok units =>
    rw [hm] at h
    exact ⟨units, mapM_eq_ok_iff.1 hm, (Except.ok.inj h).symm⟩

theorem Recipe.expand_eq_noted {r : Recipe} {u : UnitSpec} {config : Config} {l : LayerSpec} {ws : List Warning}
    (h : r.expand u config = .noted l ws) :
    ∃ p ws' units, resolve u r.policy = .noted p ws' ∧
      List.Forall₂ (fun d v => Drawing.unit p config d = .ok v)
        ((r.drawings p config).filter (p.isDrawn config ·.part)) units ∧
      l = { transform := p.pipeline u.transform (r.columns p config) (r.calculates p config)
            layers := units.map .unit
            outer := u.outer } := by
  obtain ⟨p, ws', _, hp, h, -⟩ := Report.bind_eq_noted.1 h
  obtain ⟨_, _, _, -, h, -⟩ := Report.bind_eq_noted.1 h
  obtain ⟨h, -⟩ := Report.lift_eq_noted.1 h
  obtain ⟨units, hunits, rfl⟩ := layer_eq_ok h
  exact ⟨p, ws', units, hp, hunits, rfl⟩

/-- All that a run of the standard registry does when it succeeds. -/
theorem dispatch_eq_noted {u : UnitSpec} {config : Config} {l : LayerSpec} {ws : List Warning}
    (h : Registry.standard.dispatch u config = .noted l ws) :
    ∃ r o d field p units, Recipe.ofTag? u.mark.type = some r ∧
      orient (accepted u.encoding) u.mark.toDef u.mark.type = .ok o ∧
      (accepted u.encoding).field? o.continuous = some d ∧ d.field = some field ∧ p = along u o d field ∧
      List.Forall₂ (fun d v => Drawing.unit p config d = .ok v)
        ((r.drawings p config).filter (p.isDrawn config ·.part)) units ∧
      l = { transform := p.pipeline u.transform (r.columns p config) (r.calculates p config)
            layers := units.map .unit
            outer := u.outer } := by
  rw [dispatch_standard] at h
  split at h
  · next r hr =>
    obtain ⟨p, _, units, hp, hunits, hl⟩ := Recipe.expand_eq_noted h
    obtain ⟨o, d, field, ho, hd, hfield, hp⟩ := resolve_eq_noted hp
    exact ⟨r, o, d, field, p, units, hr, ho, hd, hfield, hp, hunits, hl⟩
  · cases h

/-! ### The mark of a part -/

theorem type_of_ofMembers? {o : Object} {d : MarkDef} (h : MarkDef.ofMembers? o.entries = some d) :
    o.get? "type" = some (.str d.type) := by
  simp only [MarkDef.ofMembers?, Option.bind_eq_bind, Option.bind_eq_some_iff, Option.some.injEq] at h
  obtain ⟨type, htype, _, -, _, -, _, -, _, -, _, -, _, -, _, -, _, -, _, -, rfl⟩ := h
  rw [Members.required?, Members.field?_entries] at htype
  cases ho : o.get? "type" with
  | none => simp [ho] at htype
  | some j =>
    cases j with
    | str s => simp_all [Json.string?]
    | _ => simp [ho, Json.string?] at htype

/-- Writes a value under `key`, if there is one. -/
def put (key : String) (value : Option Json) (o : Object) : Object :=
  match value with
  | some v => o.insert key v
  | none => o

/-- Writes the properties of a setting, if there is one. -/
def putSetting (s : Option PartSetting) (o : Object) : Object :=
  match s with
  | some s => o.extend s.props
  | none => o

/-- The properties of a part, written one layer after another. -/
theorem partProps_eq (p : Composite) (config : Config) (part : String) (base : MarkDef) :
    p.partProps config part base =
      (base.toObject
        |> putSetting (config.part? p.tag part)
        |> put "color" (p.mark.color.map .str)
        |> put "opacity" (p.mark.opacity.map .ofDouble)
        |> put "style" (some (.str (partStyle p.tag part)))
        |> putSetting (p.mark.part? part)
        |> put "type" (some (.str base.type))
        |> put "orient" (base.orient.map fun o => .str o.name)) := rfl

theorem get?_type_partProps (p : Composite) (config : Config) (part : String) (base : MarkDef) :
    (p.partProps config part base).get? "type" = some (.str base.type) := by
  rw [partProps]
  cases base.orient with
  | none => simp only [Option.map_none, OrderedMap.get?_insert, if_true]
  | some o => simp [OrderedMap.get?_insert]

theorem type_withoutOverlays (d : MarkDef) : (withoutOverlays d).type = d.type := by
  rw [withoutOverlays]
  split <;> rfl

/-- A part keeps the type of the mark it is made of, whatever its settings say. -/
theorem type_partMark {p : Composite} {config : Config} {part : String} {base d : MarkDef}
    (h : p.partMark config part base = .ok d) : d.type = base.type := by
  rw [partMark] at h
  split at h
  · next d' hd' =>
    have htype := type_of_ofMembers? hd'
    rw [get?_type_partProps] at htype
    cases h
    rw [type_withoutOverlays]
    exact (Json.str.inj (Option.some.inj htype)).symm
  · cases h

theorem Drawing.unit_eq_ok {p : Composite} {config : Config} {d : Drawing} {v : UnitSpec} {m : Primitive}
    (hm : Primitive.ofName? d.base.type = some m) (h : d.unit p config = .ok v) :
    ∃ mark, p.partMark config d.part d.base = .ok mark ∧ mark.type = d.base.type ∧
      v = { mark := .defined mark, encoding := (p.partEncoding d.start d.stop d.shared).supportedBy m } := by
  rw [Drawing.unit, partUnit] at h
  cases hmark : p.partMark config d.part d.base with
  | error e => rw [hmark] at h; cases h
  | ok mark =>
    have htype := type_partMark hmark
    rw [hmark] at h
    refine ⟨mark, rfl, htype, ?_⟩
    have hv := Except.ok.inj h
    rw [htype, hm] at hv
    exact hv.symm

end Composite

end ChartNormal
