import ChartNormal.Proofs.Composite.Recipe

/-!
# Whose property a part is drawn with

The mark of a part is read from properties of several sources, written over each other in one object. `property?` says
for each key on its own which source is heard: type and orientation of the mark it is made of, then the part's setting in
the composite mark, its style, colour and opacity of the composite mark, the configuration, and last the mark it is made
of (`get?_partProps`). A mark is read from such a look-up key by key (`ReadFrom`), where `null` unsets a typed property
without making room for the sources behind it.
-/

namespace ChartNormal

/-! ### Marks read from look-ups -/

namespace Members

theorem get?_others_entries (o : Object) (known : List String) (key : String) :
    (others o.entries known).get? key = if key ∈ known then none else (o.get? key).map Json.settle := by
  rw [others_entries, OrderedMap.get?_mapValues, OrderedMap.get?_restrict]
  by_cases hkey : key ∈ known
  · simp [hkey]
  · simp [hkey]

end Members

namespace MarkDef

open Members (typed?)

/-- The definition is what `look` says, key by key. -/
structure ReadFrom (look : String → Option Json) (d : MarkDef) : Prop where
  type : (look "type").bind Json.string? = some d.type
  orient : typed? (Json.name? Orient.ofName?) (look "orient") = some d.orient
  extent : typed? Extent.ofJson? (look "extent") = some d.extent
  center : typed? (Json.name? Center.ofName?) (look "center") = some d.center
  color : typed? Json.string? (look "color") = some d.color
  opacity : typed? Json.double? (look "opacity") = some d.opacity
  filled : typed? Json.bool? (look "filled") = some d.filled
  style : typed? Json.string? (look "style") = some d.style
  interpolate : typed? Json.string? (look "interpolate") = some d.interpolate
  tension : typed? Json.double? (look "tension") = some d.tension
  props : ∀ key, d.props.get? key = if key ∈ fieldNames then none else (look key).map Json.settle

/-- Reading an object is reading its look-ups, up to the order of the free-form properties. -/
theorem readFrom_get?_iff {o : Object} {d : MarkDef} :
    ReadFrom o.get? d ↔
      ∃ props, ofMembers? o.entries = some { d with props } ∧ ∀ key, props.get? key = d.props.get? key := by
  have hget (key : String) : o.entries.lookup key = o.get? key := rfl
  simp only [ofMembers?, Members.required?_of_nodup o.nodup, Members.optional?_of_nodup o.nodup, hget]
  constructor
  · intro h
    refine ⟨Members.others o.entries fieldNames, ?_, fun key => ?_⟩
    · rw [h.type, h.orient, h.extent, h.center, h.color, h.opacity, h.filled, h.style, h.interpolate, h.tension]
      rfl
    · rw [Members.get?_others_entries, h.props key]
  · rintro ⟨props, h, hprops⟩
    simp only [Option.bind_eq_bind, Option.bind_eq_some_iff, Option.some.injEq] at h
    obtain ⟨_, htype, _, horient, _, hextent, _, hcenter, _, hcolor, _, hopacity, _, hfilled, _, hstyle, _, hinterpolate,
      _, htension, hd⟩ := h
    cases d
    cases hd
    refine ⟨Option.bind_eq_some_iff.2 htype, horient, hextent, hcenter, hcolor, hopacity, hfilled, hstyle, hinterpolate,
      htension, fun key => ?_⟩
    rw [← hprops key, Members.get?_others_entries]

end MarkDef

namespace Composite

variable (p : Composite) (config : Config) (part : String) (base : MarkDef)

/-! ### Sources -/

/-- A source that has a value for one key. -/
def under (key : String) (value : Option Json) (k : String) : Option Json := if k = key then value else none

/-- A source that has the properties of a setting. -/
def setting (s : Option PartSetting) (k : String) : Option Json := s.bind (·.props.get? k)

/-- The property of a part under `key`, from the first source that has one. -/
def property? (key : String) : Option Json :=
  (under "orient" (base.orient.map fun o => .str o.name) key).or <|
  (under "type" (some (.str base.type)) key).or <|
  (setting (p.mark.part? part) key).or <|
  (under "style" (some (.str (partStyle p.tag part))) key).or <|
  (under "opacity" (p.mark.opacity.map .ofDouble) key).or <|
  (under "color" (p.mark.color.map .str) key).or <|
  (setting (config.part? p.tag part) key).or <|
  base.toObject.get? key

theorem get?_put (key : String) (value : Option Json) (o : Object) (k : String) :
    (put key value o).get? k = (under key value k).or (o.get? k) := by
  rw [under]
  cases value with
  | none => rw [ite_self]; rfl
  | some v =>
    rw [put, OrderedMap.get?_insert]
    split <;> rfl

theorem get?_putSetting (s : Option PartSetting) (o : Object) (k : String) :
    (putSetting s o).get? k = (setting s k).or (o.get? k) := by
  cases s with
  | none => rfl
  | some s => exact OrderedMap.get?_extend o s.props k

theorem get?_partProps : (p.partProps config part base).get? = p.property? config part base := by
  funext key
  rw [partProps_eq, get?_put, get?_put, get?_putSetting, get?_put, get?_put, get?_put, get?_putSetting, property?]

/-! ### Overlays -/

/-- The overlays that a mark of this type could ask for. -/
def overlayFlags (type : String) : List String :=
  match Primitive.ofName? type with
  | some .line => ["point"]
  | some .area => ["point", "line"]
  | _ => []

theorem not_mem_fieldNames_of_overlayFlags {type key : String} (h : key ∈ overlayFlags type) :
    key ∉ MarkDef.fieldNames := by
  have hkey : key = "point" ∨ key = "line" := by
    rw [overlayFlags] at h
    split at h <;> simp_all
  rcases hkey with rfl | rfl <;> decide

/-- The properties with those of `keys` that are missing set to `false`. -/
def switchOff (keys : List String) (o : Object) : Object :=
  keys.foldl (fun o k => if o.contains k then o else o.insert k (.bool false)) o

theorem withoutOverlays_eq (d : MarkDef) :
    withoutOverlays d = { d with props := switchOff (overlayFlags d.type) d.props } := by
  unfold withoutOverlays overlayFlags
  cases Primitive.ofName? d.type with
  | none => rfl
  | some m => cases m <;> rfl

theorem get?_switchOff (keys : List String) (o : Object) (key : String) :
    (switchOff keys o).get? key = (o.get? key).or (if key ∈ keys then some (.bool false) else none) := by
  induction keys generalizing o with
  | nil => simp [switchOff]
  | cons k keys ih =>
    change (switchOff keys (if o.contains k then o else o.insert k (.bool false))).get? key = _
    rw [ih]
    by_cases hkey : key = k
    · subst hkey
      cases ho : o.get? key with
      | some j => simp [OrderedMap.contains, ho]
      | none => simp [OrderedMap.contains, ho, OrderedMap.get?_insert]
    · have hother : OrderedMap.get? (if o.contains k then o else o.insert k (.bool false)) key = o.get? key := by
        split
        · rfl
        · rw [OrderedMap.get?_insert, if_neg hkey]
      simp [hother, hkey]

/-- **Precedence.** A part is drawn with the mark that its properties read as, each taken from the first source that has
it, and with `false` for the overlays it could ask for and says nothing about. Properties that are no mark are refused. -/
theorem partMark_by_precedence (p : Composite) (config : Config) (part : String) (base : MarkDef) :
    (∀ d, MarkDef.ReadFrom (p.property? config part base) d →
      ∃ props, p.partMark config part base = .ok { d with props } ∧
        ∀ key, props.get? key =
          if key ∈ overlayFlags base.type ∧ p.property? config part base key = none then some (.bool false)
          else d.props.get? key) ∧
      ((∀ d, ¬ MarkDef.ReadFrom (p.property? config part base) d) →
        p.partMark config part base = .error (.invalidPart part)) := by
  rw [← get?_partProps]
  constructor
  · intro d hd
    have htype : d.type = base.type := by
      have htype := hd.type
      rw [get?_type_partProps] at htype
      exact (Option.some.inj htype).symm
    obtain ⟨props, hread, hprops⟩ := MarkDef.readFrom_get?_iff.1 hd
    refine ⟨switchOff (overlayFlags base.type) props, ?_, fun key => ?_⟩
    · rw [partMark, hread, ← htype]
      exact congrArg Except.ok (withoutOverlays_eq _)
    · rw [get?_switchOff, hprops key, hd.props key]
      by_cases hflag : key ∈ overlayFlags base.type
      · rw [if_neg (not_mem_fieldNames_of_overlayFlags hflag)]
        cases (p.partProps config part base).get? key <;> simp [hflag]
      · simp [hflag]
  · intro hnone
    rw [partMark]
    split
    · next d hd => exact absurd (MarkDef.readFrom_get?_iff.2 ⟨d.props, hd, fun _ => rfl⟩) (hnone d)
    · rfl

/-- The ticks of a red error bar. Their own `null` unsets the colour, also the grey one that is configured, and their type
and orientation are not theirs to say. With a number for a colour there is no mark. -/
theorem partMark_by_precedence_ticks :
    let value : FieldDef := { field := some "value", type := .quantitative }
    let bar (color : Json) : MarkDef :=
      { type := "errorbar", color := some "red"
        props := .ofList [("ticks", .obj [("color", color), ("type", .str "rule"), ("size", .num (.int 8))])] }
    let u (color : Json) : UnitSpec := { mark := .defined (bar color), encoding := .ofList [(.y, .field value)] }
    let config : Config :=
      { errorbar := { ticks := .mark (.ofList [("color", .str "grey"), ("filled", .bool true), ("size", .null)]) } }
    let base : MarkDef := { type := "tick", orient := some .horizontal }
    let p (color : Json) : Composite := along (u color) .vertical value "value"
    let ticks : MarkDef :=
      { type := "tick", orient := some .horizontal, filled := some true, style := some "errorbar-ticks"
        props := .ofList [("size", .num (.int 8))] }
    (∀ color, resolve (u color) .warn = .noted (p color) []) ∧
      (∃ props, (p .null).partMark config "ticks" base = .ok { ticks with props } ∧
        ∀ key, props.get? key = ticks.props.get? key) ∧
      (p (.num (.int 0))).partMark config "ticks" base = .error (.invalidPart "ticks") := by
  intro value bar u config base p ticks
  refine ⟨fun color => rfl, ?_, ?_⟩
  · have hread : MarkDef.ReadFrom ((p .null).property? config "ticks" base) ticks := by
      rw [← get?_partProps, MarkDef.readFrom_get?_iff]
      exact ⟨ticks.props, by decide +kernel +zetaReduce, fun _ => rfl⟩
    obtain ⟨props, hmark, hprops⟩ := (partMark_by_precedence (p .null) config "ticks" base).1 ticks hread
    exact ⟨props, hmark, fun key => (hprops key).trans (if_neg fun h => List.not_mem_nil h.1)⟩
  · refine (partMark_by_precedence (p (.num (.int 0))) config "ticks" base).2 fun d hd => ?_
    rw [← get?_partProps] at hd
    have hcolor := hd.color
    have hzero : ((p (.num (.int 0))).partProps config "ticks" base).get? "color" = some (.num (.int 0)) := by
      decide +kernel +zetaReduce
    rw [hzero] at hcolor
    cases hcolor

end Composite

end ChartNormal
