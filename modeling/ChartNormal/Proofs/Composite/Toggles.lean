import ChartNormal.Proofs.Composite.Recipe

/-!
# Switching one part

A mark definition may hold a setting for each part of a composite mark, among its other properties. Only the part itself
reads it. The layers of the expansion are blocks of units, one for each part and in a fixed order (`Recipe.inBlocks`), and
marks that differ in the setting of one part differ in its block alone (`Recipe.block_withProps`). Their pipelines are the
same, but for a column of error bars: where the ends of the interval do without the center, it is aggregated for the parts
that draw it (`Recipe.columns_withProps`).
-/

namespace ChartNormal

/-- The definitions differ at most in the property under `key`. -/
def MarkDef.SameBut (key : String) (m m' : MarkDef) : Prop :=
  ∃ props : Object, m' = { m with props } ∧ ∀ k, k ≠ key → props.get? k = m.props.get? k

/-- The units differ at most in the property of the mark under `key`. A bare tag has no properties. -/
structure UnitSpec.SameBut (key : String) (u u' : UnitSpec) : Prop where
  transform : u'.transform = u.transform
  encoding : u'.encoding = u.encoding
  outer : u'.outer = u.outer
  mark : u.mark.toDef.SameBut key u'.mark.toDef

/-! ### Whether a part is drawn -/

namespace Composite

/-- A part is shown if its setting is `true` or a non-empty object. Any other value but `false` leaves it to the
configuration. -/
inductive Shown (m : MarkDef) (config : Config) (part : String) : Prop
  | on (h : m.props.get? part = some (.bool true))
  | styled {members : Members} (h : m.props.get? part = some (.obj members)) (hne : members ≠ [])
  | configured (hflag : ∀ b, m.props.get? part ≠ some (.bool b))
      (hstyle : ∀ members, m.props.get? part = some (.obj members) → members = [])
      (h : (config.part? m.type part).any PartSetting.isEnabled = true)

theorem isDrawn_iff_shown {p : Composite} {config : Config} {part : String} :
    p.isDrawn config part = true ↔ Shown p.mark config part := by
  -- a setting that does not decide leaves the question to the configuration
  have hdefer (hnone : (p.mark.part? part).filter PartSetting.isExplicit = none)
      (hflag : ∀ b, p.mark.props.get? part ≠ some (.bool b))
      (hstyle : ∀ members, p.mark.props.get? part = some (.obj members) → members = []) :
      p.isDrawn config part = true ↔ Shown p.mark config part := by
    rw [isDrawn, hnone]
    refine ⟨.configured hflag hstyle, fun h => ?_⟩
    cases h with
    | on h => exact absurd h (hflag true)
    | styled h hne => exact absurd (hstyle _ h) hne
    | configured _ _ h => exact h
  cases hj : p.mark.props.get? part with
  | none => exact hdefer (by rw [MarkDef.part?, hj]; rfl) (by simp [hj]) (by simp [hj])
  | some j =>
    cases j with
    | bool b =>
      have hdrawn : p.isDrawn config part = b := by rw [isDrawn, MarkDef.part?, hj]; rfl
      rw [hdrawn]
      refine ⟨fun hb => .on (hb ▸ hj), fun h => ?_⟩
      cases h with
      | on h => simpa [hj] using h
      | styled h hne => simp [hj] at h
      | configured hflag _ _ => exact absurd hj (hflag b)
    | obj members =>
      have hpart : p.mark.part? part = some (.mark (Members.others members [])) := by rw [MarkDef.part?, hj]; rfl
      cases members with
      | nil => exact hdefer (by rw [hpart]; rfl) (by simp [hj]) (by simp [hj])
      | cons e members =>
        have hne : (Members.others (e :: members) []).isEmpty = false := Members.isEmpty_others_nil _
        have hdrawn : p.isDrawn config part = true := by
          simp [isDrawn, hpart, Option.filter, PartSetting.isExplicit, PartSetting.isEnabled, hne]
        exact iff_of_true hdrawn (.styled hj (List.cons_ne_nil _ _))
    | null | num | str | arr => exact hdefer (by rw [MarkDef.part?, hj]; rfl) (by simp [hj]) (by simp [hj])

/-! ### What a part reads of the mark -/

/-- The same mark with other properties. -/
def withProps (p : Composite) (props : Object) : Composite := { p with mark := { p.mark with props } }

section Props

variable {p : Composite} {props : Object} {part : String} (h : props.get? part = p.mark.props.get? part) (config : Config)

include h

theorem part?_withProps : (p.withProps props).mark.part? part = p.mark.part? part :=
  congrArg (·.bind PartSetting.ofJson?) h

theorem isDrawn_withProps : (p.withProps props).isDrawn config part = p.isDrawn config part := by
  rw [isDrawn, isDrawn, part?_withProps h]
  rfl

theorem partMark_withProps (base : MarkDef) :
    (p.withProps props).partMark config part base = p.partMark config part base := by
  rw [partMark, partMark, partProps_eq, partProps_eq, part?_withProps h]
  rfl

end Props

theorem Drawing.unit_withProps {p : Composite} {props : Object} {d : Drawing}
    (h : props.get? d.part = p.mark.props.get? d.part) (config : Config) :
    d.unit (p.withProps props) config = d.unit p config := by
  rw [Drawing.unit, Drawing.unit, partUnit, partUnit, partMark_withProps h]
  rfl

namespace Recipe

variable {r : Recipe} (hr : r ∈ all) (p : Composite) (props : Object) (config : Config)

include hr

theorem drawings_withProps : r.drawings (p.withProps props) config = r.drawings p config := by
  rcases mem_all_iff.1 hr with rfl | rfl | rfl <;> rfl

theorem calculates_withProps : r.calculates (p.withProps props) config = r.calculates p config := by
  rcases mem_all_iff.1 hr with rfl | rfl | rfl <;> rfl

end Recipe

/-! ### The blocks of the parts -/

/-- The parts of a mark in the order in which they are drawn, with the number of their units. -/
def layout (tag : String) : List (String × Nat) :=
  if tag = BoxPlot.tag then [("boxWhisker", 2), ("box", 1), ("boxMid", 1)]
  else if tag = ErrorBar.tag then [("bar", 1), ("line", 1), ("ticks", 2), ("rule", 1), ("point", 1)]
  else [("band", 1), ("borders", 2)]

/-- The layers are one block of units after another, in the order of the layout. A part that is shown has all its units,
and one that is not has none. -/
structure InBlocks (m : MarkDef) (config : Config) (layers : List Spec) (block : String → List UnitSpec) : Prop where
  layers_eq : layers = ((layout m.type).flatMap fun e => block e.1).map .unit
  shown : ∀ e ∈ layout m.type, Shown m config e.1 → (block e.1).length = e.2
  hidden : ∀ e ∈ layout m.type, ¬ Shown m config e.1 → block e.1 = []

namespace Recipe

/-- The drawings of one part. -/
def drawingsOf (r : Recipe) (p : Composite) (config : Config) (part : String) : List Drawing :=
  (r.drawings p config).filter (·.part = part)

/-- The units of one part, if it is drawn. -/
def block (r : Recipe) (p : Composite) (config : Config) (part : String) : List UnitSpec :=
  if p.isDrawn config part = true then (r.drawingsOf p config part).filterMap fun d => (d.unit p config).toOption else []

section Part

variable {r : Recipe} {p : Composite} {config : Config} {part : String}

theorem mem_drawingsOf {d : Drawing} : d ∈ r.drawingsOf p config part ↔ d ∈ r.drawings p config ∧ d.part = part := by
  rw [drawingsOf, List.mem_filter, decide_eq_true_iff]

theorem filterMap_drawingsOf :
    ((r.drawingsOf p config part).filter (p.isDrawn config ·.part)).filterMap (fun d => (d.unit p config).toOption) =
      r.block p config part := by
  have hpart : ∀ d ∈ r.drawingsOf p config part, part = d.part := fun d hd => (mem_drawingsOf.1 hd).2.symm
  rw [block]
  split
  · next hdrawn => rw [List.filter_eq_self.2 fun d hd => hpart d hd ▸ hdrawn]
  · next hdrawn => rw [List.filter_eq_nil_iff.2 fun d hd => hpart d hd ▸ hdrawn, List.filterMap_nil]

theorem block_withProps (hr : r ∈ all) {props : Object} (h : props.get? part = p.mark.props.get? part) :
    r.block (p.withProps props) config part = r.block p config part := by
  rw [block, block, isDrawn_withProps h, drawingsOf, drawings_withProps hr, ← drawingsOf]
  split
  · refine List.filterMap_congr fun d hd => ?_
    obtain rfl := (mem_drawingsOf.1 hd).2
    rw [Drawing.unit_withProps h]
  · rfl

end Part

variable {r : Recipe} (hr : r ∈ all) {p : Composite} {config : Config}

include hr

theorem flatMap_drawingsOf : ((layout r.tag).flatMap fun e => r.drawingsOf p config e.1) = r.drawings p config := by
  rcases mem_all_iff.1 hr with rfl | rfl | rfl <;> rfl

theorem length_drawingsOf {e : String × Nat} (he : e ∈ layout r.tag) : (r.drawingsOf p config e.1).length = e.2 := by
  have hall : (layout r.tag).map (fun e => (r.drawingsOf p config e.1).length) = (layout r.tag).map (·.2) := by
    rcases mem_all_iff.1 hr with rfl | rfl | rfl <;> rfl
  exact List.map_inj_left.1 hall e he

theorem inBlocks {units : List UnitSpec} (htag : r.tag = p.mark.type)
    (hunits : List.Forall₂ (fun d v => Drawing.unit p config d = .ok v)
      ((r.drawings p config).filter (p.isDrawn config ·.part)) units) :
    InBlocks p.mark config (units.map .unit) (r.block p config) := by
  refine ⟨?_, fun e he hshown => ?_, fun e _ hhidden => ?_⟩
  · have hflat : units = (layout r.tag).flatMap fun e => r.block p config e.1 :=
      calc units
        _ = ((r.drawings p config).filter (p.isDrawn config ·.part)).filterMap fun d => (d.unit p config).toOption :=
          eq_filterMap_of_forall₂ hunits
        _ = (layout r.tag).flatMap fun e => ((r.drawingsOf p config e.1).filter (p.isDrawn config ·.part)).filterMap
              fun d => (d.unit p config).toOption := by
          rw [← flatMap_drawingsOf hr, List.filter_flatMap, List.filterMap_flatMap]
        _ = (layout r.tag).flatMap fun e => r.block p config e.1 := by simp only [filterMap_drawingsOf]
    rw [hflat, htag]
  · rw [← htag] at he
    have hdrawn := isDrawn_iff_shown.2 hshown
    rw [block, if_pos hdrawn, List.filterMap_length_eq_length.2, length_drawingsOf hr he]
    intro d hd
    obtain ⟨hd, hpart⟩ := mem_drawingsOf.1 hd
    have hmem : d ∈ (r.drawings p config).filter (p.isDrawn config ·.part) := List.mem_filter.2 ⟨hd, hpart ▸ hdrawn⟩
    obtain ⟨v, -, hv⟩ := exists_of_forall₂ hunits.flip hmem
    rw [show d.unit p config = .ok v from hv]
    rfl
  · rw [block, if_neg (mt isDrawn_iff_shown.1 hhidden)]

end Recipe

/-! ### The column of the center -/

/-- The column of the center of an interval. -/
def centerColumn (i : Interval) (field : String) : AggregateColumn :=
  { op := i.centerOp, field := some field, as := Column.derived "center" field }

theorem columns_center (i : Interval) (field : String) :
    i.columns field true = i.columns field false ∨
      (i.extent = .ci ∨ i.extent = .iqr) ∧ i.columns field true = centerColumn i field :: i.columns field false := by
  obtain ⟨center, extent⟩ := i
  cases extent with
  | stderr => exact .inl rfl
  | stdev => exact .inl rfl
  | ci => exact .inr ⟨.inl rfl, rfl⟩
  | iqr => exact .inr ⟨.inr rfl, rfl⟩

/-- One aggregate of the second pipeline has the column besides those it has in the first. -/
def AddsColumn (column : AggregateColumn) (stages stages' : List Transform) : Prop :=
  ∃ before after columns columns' groupby,
    stages = before ++ .aggregate (columns ++ columns') groupby :: after ∧
    stages' = before ++ .aggregate (columns ++ column :: columns') groupby :: after

/-- The center of error bars is a column of one pipeline alone: the ends are aggregated without it, and the part under
`part` may draw it. -/
structure CenterToggled (u : UnitSpec) (config : Config) (part : String) (stages stages' : List Transform) : Prop where
  tag : u.mark.type = ErrorBar.tag
  part : part = "line" ∨ part = "point"
  column : ∃ (o : Orient) (d : FieldDef) (field : String) (i : Interval),
    orient (accepted u.encoding) u.mark.toDef u.mark.type = .ok o ∧
    (accepted u.encoding).field? o.continuous = some d ∧ d.field = some field ∧
    i = Interval.resolve u.mark.toDef config.errorbar.center config.errorbar.extent ∧ (i.extent = .ci ∨ i.extent = .iqr) ∧
    (AddsColumn (centerColumn i field) stages stages' ∨ AddsColumn (centerColumn i field) stages' stages)

theorem drawsCenter_withProps {p : Composite} {props : Object} {part : String}
    (h : ∀ k, k ≠ part → props.get? k = p.mark.props.get? k) (hpart : ¬ (part = "line" ∨ part = "point"))
    (config : Config) : ErrorBar.drawsCenter (p.withProps props) config = ErrorBar.drawsCenter p config := by
  have hline : "line" ≠ part := fun he => hpart (.inl he.symm)
  have hpoint : "point" ≠ part := fun he => hpart (.inr he.symm)
  rw [ErrorBar.drawsCenter, ErrorBar.drawsCenter, isDrawn_withProps (h _ hline), isDrawn_withProps (h _ hpoint)]

theorem Recipe.columns_withProps {r : Recipe} (hr : r ∈ Recipe.all) {p : Composite} {props : Object} {part : String}
    (h : ∀ k, k ≠ part → props.get? k = p.mark.props.get? k) (config : Config) :
    r.columns (p.withProps props) config = r.columns p config ∨
      r.tag = ErrorBar.tag ∧ (part = "line" ∨ part = "point") ∧
      ((barInterval p config).extent = .ci ∨ (barInterval p config).extent = .iqr) ∧
      let center := centerColumn (barInterval p config) p.axis.field
      (r.columns (p.withProps props) config = center :: r.columns p config ∨
        r.columns p config = center :: r.columns (p.withProps props) config) := by
  rcases Recipe.mem_all_iff.1 hr with rfl | rfl | rfl
  · exact .inl rfl
  · have hcolumns : errorBar.columns (p.withProps props) config =
        (barInterval p config).columns p.axis.field (ErrorBar.drawsCenter (p.withProps props) config) := rfl
    rw [hcolumns, show errorBar.columns p config = (barInterval p config).columns p.axis.field _ from rfl]
    by_cases hpart : part = "line" ∨ part = "point"
    · rcases columns_center (barInterval p config) p.axis.field with hsame | ⟨hextent, hcenter⟩
      · left
        cases ErrorBar.drawsCenter (p.withProps props) config <;> cases ErrorBar.drawsCenter p config <;> simp only [hsame]
      · cases ErrorBar.drawsCenter (p.withProps props) config <;> cases ErrorBar.drawsCenter p config
        · exact .inl rfl
        · exact .inr ⟨rfl, hpart, hextent, .inr hcenter⟩
        · exact .inr ⟨rfl, hpart, hextent, .inl hcenter⟩
        · exact .inl rfl
    · rw [drawsCenter_withProps h hpart]
      exact .inl rfl
  · exact .inl rfl

theorem addsColumn_pipeline (p : Composite) (before : List Transform) (column : AggregateColumn)
    (columns : List AggregateColumn) (calculates : List CalculateStage) :
    AddsColumn column (p.pipeline before columns calculates) (p.pipeline before (column :: columns) calculates) :=
  ⟨_, _, _, _, _, rfl, rfl⟩

/-! ### Two runs -/

theorem along_of_sameBut {u u' : UnitSpec} {props : Object} (hencoding : u'.encoding = u.encoding)
    (hmark : u'.mark.toDef = { u.mark.toDef with props }) (o : Orient) (d : FieldDef) (field : String) :
    along u' o d field = (along u o d field).withProps props := by
  rw [along, hmark, hencoding]
  rfl

/-- **Parts are switched one by one.** Where units that differ in the setting of one part can both be expanded, the blocks
of the other parts are the same, and so are the outer properties. The pipelines are the same too, or the center of error
bars is a column of one of them. -/
theorem toggles_one_block {u u' : UnitSpec} {config : Config} {part : String} {l l' : LayerSpec} {ws ws' : List Warning}
    (hsame : u.SameBut part u') (h : Registry.standard.dispatch u config = .noted l ws)
    (h' : Registry.standard.dispatch u' config = .noted l' ws') :
    ∃ block block' : String → List UnitSpec,
      InBlocks u.mark.toDef config l.layers block ∧ InBlocks u'.mark.toDef config l'.layers block' ∧
      (∀ q, q ≠ part → block q = block' q) ∧ l.outer = l'.outer ∧
      (l.transform = l'.transform ∨ CenterToggled u config part l.transform l'.transform) := by
  obtain ⟨htransform, hencoding, houter, props, hmark, hprops⟩ := hsame
  have htype : u'.mark.type = u.mark.type := by rw [← type_toDef, hmark, ← type_toDef u.mark]
  obtain ⟨r, o, d, field, _, units, hr, ho, hd, hfield, rfl, hunits, rfl⟩ := dispatch_eq_noted h
  obtain ⟨r', o', d', field', _, units', hr', ho', hd', hfield', rfl, hunits', rfl⟩ := dispatch_eq_noted h'
  -- neither the recipe nor the axis depends on the properties
  rw [htype, hr] at hr'
  obtain rfl := Option.some.inj hr'
  rw [hmark, htype, hencoding] at ho'
  obtain rfl : o = o' := Except.ok.inj (ho.symm.trans ho')
  rw [hencoding, hd] at hd'
  obtain rfl := Option.some.inj hd'
  obtain rfl : field = field' := Option.some.inj (hfield.symm.trans hfield')
  rw [along_of_sameBut hencoding hmark] at hunits' ⊢
  obtain ⟨hr, htag⟩ := Recipe.mem_all_of_ofTag? hr
  have htag' : r.tag = u.mark.toDef.type := htag.trans (type_toDef u.mark).symm
  refine ⟨r.block (along u o d field) config, r.block ((along u o d field).withProps props) config,
    Recipe.inBlocks hr htag' hunits, ?_, fun q hq => (Recipe.block_withProps hr (hprops q hq)).symm, houter.symm, ?_⟩
  · rw [hmark]
    exact Recipe.inBlocks hr htag' hunits'
  · rw [Recipe.calculates_withProps hr, htransform]
    rcases Recipe.columns_withProps hr (p := along u o d field) hprops config with hcolumns | ⟨hbar, hpart, hextent, hcolumns⟩
    · left
      rw [hcolumns]
      rfl
    · refine .inr ⟨htag.symm.trans hbar, hpart, o, d, field, _, ho, hd, hfield, rfl, hextent, ?_⟩
      rcases hcolumns with hcolumns | hcolumns
      · left
        rw [hcolumns]
        exact addsColumn_pipeline ..
      · right
        rw [hcolumns]
        exact addsColumn_pipeline ..

/-- Points on error bars. A text is no setting and the configuration has none, so they are not drawn; properties draw them,
and the center that they need is aggregated. The rule and the ticks stay. -/
theorem toggles_one_block_point :
    let m : MarkDef :=
      { type := "errorbar"
        extent := some (.named .ci)
        props := .ofList [("point", .str "red"), ("ticks", .bool true)] }
    let e : Encoding := .ofList
      [(.x, .field { field := some "site", type := .nominal }), (.y, .field { field := some "yield", type := .quantitative })]
    let u : UnitSpec := { mark := .defined m, encoding := e }
    let u' : UnitSpec := { mark := .defined (m.withProp "point" (.obj [("color", .str "red")])), encoding := e }
    u.SameBut "point" u' ∧
      ∃ l ws l' ws', Registry.standard.dispatch u .defaults = .noted l ws ∧
        Registry.standard.dispatch u' .defaults = .noted l' ws' ∧ l.layers.length = 3 ∧ l'.layers.length = 4 ∧
        CenterToggled u .defaults "point" l.transform l'.transform ∧
        ∃ block block', InBlocks u.mark.toDef .defaults l.layers block ∧
          InBlocks u'.mark.toDef .defaults l'.layers block' ∧ ∀ q, q ≠ "point" → block q = block' q := by
  intro m e u u'
  have hsame : u.SameBut "point" u' :=
    ⟨rfl, rfl, rfl, _, rfl, fun k hk => (OrderedMap.get?_insert _ _ k _).trans (if_neg hk)⟩
  have hlength : Except.map (·.1.layers.length) (Registry.standard.dispatch u .defaults) = .ok 3 := by
    decide +kernel +zetaReduce
  have hlength' : Except.map (·.1.layers.length) (Registry.standard.dispatch u' .defaults) = .ok 4 := by
    decide +kernel +zetaReduce
  have hne : Except.map (·.1.transform) (Registry.standard.dispatch u .defaults) ≠
      Except.map (·.1.transform) (Registry.standard.dispatch u' .defaults) := by decide +kernel +zetaReduce
  obtain ⟨l, ws, h, hlength⟩ := Report.exists_noted_of_map hlength
  obtain ⟨l', ws', h', hlength'⟩ := Report.exists_noted_of_map hlength'
  rw [h, h'] at hne
  obtain ⟨block, block', hblocks, hblocks', hothers, -, htransform⟩ := toggles_one_block hsame h h'
  have hcenter := htransform.resolve_left fun heq => hne (congrArg Except.ok heq)
  exact ⟨hsame, l, ws, l', ws', h, h', hlength, hlength', hcenter, block, block', hblocks, hblocks', hothers⟩

end Composite

end ChartNormal
