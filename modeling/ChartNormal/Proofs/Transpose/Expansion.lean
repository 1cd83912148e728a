import ChartNormal.Proofs.Composite.Parts
import ChartNormal.Proofs.Transpose.Axis

/-!
# Transposed composite marks

Once its axis is resolved, a composite mark is drawn in the same way along both axes: the parts of the transposed mark are
the transposed parts, over the same pipeline (`Recipe.expand_transpose`). The settings of a part must leave its
orientation alone, since they are not transposed.
-/

namespace ChartNormal

/-! ### The properties of a part -/

namespace MarkDef

/-- A property of the transposed mark. -/
def transposeProp (key : String) (j : Json) : Json :=
  if key = "orient" then
    match j.name? Orient.ofName? with
    | some o => .str o.flip.name
    | none => j
  else j

theorem transposeProp_of_ne {key : String} (h : key ≠ "orient") (j : Json) : transposeProp key j = j := if_neg h

theorem transposeProp_orient (o : Orient) : transposeProp "orient" (.str o.name) = .str o.flip.name := by
  cases o <;> rfl

theorem mapValues_transposeProp {o : Object} (h : o.contains "orient" = false) : o.mapValues transposeProp = o := by
  refine OrderedMap.ext ?_
  rw [OrderedMap.entries_mapValues]
  refine (List.map_congr_left fun e he => ?_).trans (List.map_id _)
  have hne : e.1 ≠ "orient" := by
    intro hkey
    exact OrderedMap.contains_eq_false_iff.1 h (hkey ▸ OrderedMap.mem_keys_of_mem he)
  rw [transposeProp_of_ne hne]
  rfl

theorem map_ofFields (g : String → Json → Json) (fields : List (String × Option Json)) (rest : Object) :
    (Members.ofFields fields rest).map (fun e => (e.1, g e.1 e.2)) =
      Members.ofFields (fields.map fun e => (e.1, e.2.map (g e.1))) (rest.mapValues g) := by
  rw [Members.ofFields, Members.ofFields, List.map_append, List.map_filterMap, List.filterMap_map,
    OrderedMap.entries_mapValues]
  congr 1
  refine List.filterMap_congr fun e _ => ?_
  simp only [Function.comp_def, Option.map_map]

theorem toMembers_transpose {d : MarkDef} (h : d.props.contains "orient" = false) :
    d.transpose.toMembers = d.toMembers.map fun e => (e.1, transposeProp e.1 e.2) := by
  have horient : (d.orient.map fun o => Json.str o.name).map (transposeProp "orient") =
      (d.orient.map Orient.flip).map fun o => Json.str o.name := by
    rw [Option.map_map, Option.map_map]
    exact Option.map_congr fun o _ => transposeProp_orient o
  have hother : ∀ {key : String}, key ≠ "orient" → transposeProp key = id :=
    fun hkey => funext (transposeProp_of_ne hkey)
  rw [toMembers, toMembers, map_ofFields, mapValues_transposeProp h]
  simp (disch := decide) only [List.map_cons, List.map_nil, horient, hother, Option.map_id, id]
  rfl

/-- A value that names an orientation names the other one, and any other value stays. -/
theorem name?_transposeProp (j : Json) :
    (transposeProp "orient" j).name? Orient.ofName? = (j.name? Orient.ofName?).map Orient.flip := by
  rw [transposeProp, if_pos rfl]
  cases h : j.name? Orient.ofName? with
  | none => exact h
  | some o => cases o <;> rfl

theorem transposeProp_eq_null_iff {j : Json} : transposeProp "orient" j = .null ↔ j = .null := by
  rw [transposeProp, if_pos rfl]
  cases h : j.name? Orient.ofName? with
  | none => rfl
  | some o =>
    refine iff_of_false (fun hj => by cases hj) ?_
    rintro rfl
    cases h

section Read

variable (o : Object)

theorem field?_transposeProp (key : String) :
    Members.field? (o.mapValues transposeProp).entries key = some ((o.get? key).map (transposeProp key)) := by
  rw [Members.field?_entries, OrderedMap.get?_mapValues]

theorem field?_transposeProp_of_ne {key : String} (h : key ≠ "orient") :
    Members.field? (o.mapValues transposeProp).entries key = Members.field? o.entries key := by
  rw [field?_transposeProp, Members.field?_entries]
  cases o.get? key with
  | none => rfl
  | some j => rw [Option.map_some, transposeProp_of_ne h]

theorem optional?_transposeProp {α : Type} {key : String} (h : key ≠ "orient") (read : Json → Option α) :
    Members.optional? (o.mapValues transposeProp).entries key read = Members.optional? o.entries key read := by
  rw [Members.optional?, Members.optional?, field?_transposeProp_of_ne o h]

theorem optional?_transposeProp_orient :
    Members.optional? (o.mapValues transposeProp).entries "orient" (Json.name? Orient.ofName?) =
      (Members.optional? o.entries "orient" (Json.name? Orient.ofName?)).map (Option.map Orient.flip) := by
  have hnew := field?_transposeProp o "orient"
  have hold := Members.field?_entries o "orient"
  cases hj : o.get? "orient" with
  | none =>
    rw [hj] at hnew hold
    rw [Members.optional?_of_missing hnew, Members.optional?_of_missing hold]
    rfl
  | some j =>
    rw [hj] at hnew hold
    by_cases hnull : j = .null
    · subst hnull
      rw [Members.optional?_of_null hnew, Members.optional?_of_null hold]
      rfl
    · rw [Members.optional?_of_field? hnew (mt transposeProp_eq_null_iff.1 hnull),
        Members.optional?_of_field? hold hnull, name?_transposeProp, Option.map_map, Option.map_map]
      rfl

theorem others_transposeProp {known : List String} (h : "orient" ∈ known) :
    Members.others (o.mapValues transposeProp).entries known = Members.others o.entries known := by
  rw [Members.others, Members.others, OrderedMap.entries_mapValues, List.filter_map, List.map_map]
  congr 1
  refine List.map_congr_left fun e he => ?_
  have hkeep : e.1 ∉ known := by simpa using (List.mem_filter.1 he).2
  have hne : e.1 ≠ "orient" := by
    rintro hkey
    exact hkeep (hkey ▸ h)
  rw [Function.comp, transposeProp_of_ne hne]

theorem ofMembers?_transpose : ofMembers? (o.mapValues transposeProp).entries = (ofMembers? o.entries).map transpose := by
  have htype : Members.required? (o.mapValues transposeProp).entries "type" Json.string? =
      Members.required? o.entries "type" Json.string? := by
    rw [Members.required?, Members.required?, field?_transposeProp_of_ne o (by decide)]
  unfold ofMembers?
  rw [htype, optional?_transposeProp_orient, others_transposeProp o (by decide),
    optional?_transposeProp o (by decide : "extent" ≠ "orient"),
    optional?_transposeProp o (by decide : "center" ≠ "orient"),
    optional?_transposeProp o (by decide : "color" ≠ "orient"),
    optional?_transposeProp o (by decide : "opacity" ≠ "orient"),
    optional?_transposeProp o (by decide : "filled" ≠ "orient"),
    optional?_transposeProp o (by decide : "style" ≠ "orient"),
    optional?_transposeProp o (by decide : "interpolate" ≠ "orient"),
    optional?_transposeProp o (by decide : "tension" ≠ "orient")]
  simp only [Option.bind_eq_bind, Option.map_bind, Option.bind_map, Function.comp_def, Option.map_some]
  rfl

end Read

theorem toObject_transpose {d : MarkDef} (h : d.props.contains "orient" = false) :
    d.transpose.toObject = d.toObject.mapValues transposeProp := by
  rw [toObject, toObject, OrderedMap.ofList_mapValues, toMembers_transpose h]

end MarkDef

namespace Composite

/-- The setting, if there is one, leaves the orientation of the part alone. -/
def Unoriented (s : Option PartSetting) : Prop := s.any (·.props.contains "orient") = false

theorem mapValues_put (key : String) (value : Option Json) (o : Object) :
    (put key value o).mapValues MarkDef.transposeProp =
      put key (value.map (MarkDef.transposeProp key)) (o.mapValues MarkDef.transposeProp) := by
  cases value with
  | none => rfl
  | some v => exact OrderedMap.insert_mapValues ..

theorem mapValues_put_of_ne {key : String} (h : key ≠ "orient") (value : Option Json) (o : Object) :
    (put key value o).mapValues MarkDef.transposeProp = put key value (o.mapValues MarkDef.transposeProp) := by
  have hvalue : value.map (MarkDef.transposeProp key) = value := by
    cases value with
    | none => rfl
    | some v => rw [Option.map_some, MarkDef.transposeProp_of_ne h]
  rw [mapValues_put, hvalue]

theorem mapValues_putSetting {s : Option PartSetting} (h : Unoriented s) (o : Object) :
    (putSetting s o).mapValues MarkDef.transposeProp = putSetting s (o.mapValues MarkDef.transposeProp) := by
  cases s with
  | none => rfl
  | some s =>
    have hprops : s.props.mapValues MarkDef.transposeProp = s.props := MarkDef.mapValues_transposeProp h
    rw [putSetting, putSetting, OrderedMap.extend_mapValues, hprops]

variable {p : Composite} {config : Config} {part : String}

theorem partProps_transpose {base : MarkDef} (hconfig : Unoriented (config.part? p.tag part))
    (hmark : Unoriented (p.mark.part? part)) (hbase : base.props.contains "orient" = false) :
    p.transpose.partProps config part base.transpose =
      (p.partProps config part base).mapValues MarkDef.transposeProp := by
  have horient : (base.orient.map fun o => Json.str o.name).map (MarkDef.transposeProp "orient") =
      base.transpose.orient.map fun o => Json.str o.name := by
    rw [MarkDef.transpose, Option.map_map, Option.map_map]
    exact Option.map_congr fun o _ => MarkDef.transposeProp_orient o
  rw [partProps_eq, partProps_eq, mapValues_put, horient, mapValues_put_of_ne (by decide), mapValues_putSetting hmark,
    mapValues_put_of_ne (by decide), mapValues_put_of_ne (by decide), mapValues_put_of_ne (by decide),
    mapValues_putSetting hconfig, MarkDef.toObject_transpose hbase]
  rfl

theorem withoutOverlays_transpose (d : MarkDef) : withoutOverlays d.transpose = (withoutOverlays d).transpose := by
  unfold withoutOverlays
  rw [show d.transpose.type = d.type from rfl]
  split <;> rfl

theorem partMark_transpose {base : MarkDef} (hconfig : Unoriented (config.part? p.tag part))
    (hmark : Unoriented (p.mark.part? part)) (hbase : base.props.contains "orient" = false) :
    p.transpose.partMark config part base.transpose =
      exceptTransposeBy MarkDef.transpose (p.partMark config part base) := by
  rw [partMark, partMark, partProps_transpose hconfig hmark hbase, MarkDef.ofMembers?_transpose]
  cases MarkDef.ofMembers? (p.partProps config part base).entries with
  | none => rfl
  | some d =>
    rw [Option.map_some]
    exact congrArg Except.ok (withoutOverlays_transpose d)

/-! ### Parts -/

theorem partEncoding_transpose (p : Composite) (start : String) (stop : Option String) (shared : Encoding) :
    p.transpose.partEncoding start stop shared.transpose = (p.partEncoding start stop shared).transpose := by
  have hchannel : p.transpose.axis.channel = p.axis.channel.transpose := Orient.continuous_flip _
  have hsecondary : p.transpose.axis.orient.secondary = p.axis.orient.secondary.transpose := Orient.secondary_flip _
  have hempty : (∅ : Encoding) = Encoding.transpose ∅ := rfl
  unfold partEncoding
  rw [hchannel, hsecondary, hempty, Encoding.insert_transpose]
  cases stop with
  | none => exact Encoding.extend_transpose ..
  | some stop =>
    show OrderedMap.extend (OrderedMap.insert _ _ _) _ = _
    rw [Encoding.insert_transpose, Encoding.extend_transpose]
    rfl

/-- What the transposed mark draws. -/
def Drawing.transpose (d : Drawing) : Drawing :=
  { d with base := d.base.transpose, shared := d.shared.transpose }

theorem Drawing.unit_transpose {d : Drawing} (hconfig : Unoriented (config.part? p.tag d.part))
    (hmark : Unoriented (p.mark.part? d.part)) (hbase : d.base.props.contains "orient" = false) :
    d.transpose.unit p.transpose config = exceptTransposeBy UnitSpec.transpose (d.unit p config) := by
  rw [Drawing.unit, Drawing.unit, partUnit, partUnit, Drawing.transpose, partMark_transpose hconfig hmark hbase,
    partEncoding_transpose]
  cases p.partMark config d.part d.base with
  | error e => rfl
  | ok mark =>
    show Except.ok _ = Except.ok _
    rw [show mark.transpose.type = mark.type from rfl]
    cases Primitive.ofName? mark.type with
    | none => rfl
    | some m =>
      have hsupported := (p.partEncoding d.start d.stop d.shared).supportedBy_transpose m
      exact congrArg (fun e => (.ok { mark := .defined mark.transpose, encoding := e } : Except Failure UnitSpec)) hsupported

/-! ### The drawings of the standard marks -/

theorem shared_transpose (p : Composite) : p.transpose.shared = p.shared.transpose := rfl

theorem withValue_transpose (e : Encoding) (c : Channel) (v : Json) :
    e.transpose.withValue c.transpose v = (e.withValue c v).transpose :=
  e.insert_transpose c (.value v)

theorem boxSize_transpose (shared : Encoding) (config : Config) :
    BoxPlot.size shared.transpose config = BoxPlot.size shared config := by
  have hsize : shared.transpose.get? .size = shared.get? .size := shared.get?_transpose .size
  rw [BoxPlot.size, BoxPlot.size, hsize]

theorem boxEncoding_transpose (shared : Encoding) (config : Config) :
    BoxPlot.boxEncoding shared.transpose config = (BoxPlot.boxEncoding shared config).transpose := by
  have hcolor : shared.transpose.contains .color = shared.contains .color := shared.contains_transpose .color
  unfold BoxPlot.boxEncoding
  rw [boxSize_transpose, hcolor]
  cases config.box.color with
  | none => exact Encoding.insert_transpose shared .size _
  | some color =>
    cases shared.contains .color with
    | true => exact Encoding.insert_transpose shared .size _
    | false =>
      refine (congrArg (fun e : Encoding => OrderedMap.insert e .size _) ?_).trans (Encoding.insert_transpose _ .size _)
      exact withValue_transpose shared .color _

theorem midEncoding_transpose (shared : Encoding) (config : Config) :
    BoxPlot.midEncoding shared.transpose config = (BoxPlot.midEncoding shared config).transpose := by
  have hwithout : shared.transpose.without [.size, .color] = (shared.without [.size, .color]).transpose :=
    shared.without_transpose [.size, .color]
  unfold BoxPlot.midEncoding
  rw [boxSize_transpose, hwithout]
  refine (congrArg (fun e : Encoding => OrderedMap.insert e .size _) ?_).trans (Encoding.insert_transpose _ .size _)
  exact withValue_transpose _ .color _

theorem bandBase_transpose (p : Composite) (config : Config) (curve flat : String) :
    ErrorBand.base p.transpose config curve flat = (ErrorBand.base p config curve flat).transpose := by
  unfold ErrorBand.base
  rw [show p.transpose.axis.isSingle = p.axis.isSingle from rfl]
  cases p.axis.isSingle <;> rfl

theorem Recipe.drawings_transpose {r : Recipe} (hr : r ∈ Recipe.all) (p : Composite) (config : Config) :
    r.drawings p.transpose config = (r.drawings p config).map Drawing.transpose := by
  rcases Recipe.mem_all_iff.1 hr with rfl | rfl | rfl
  · have hplain : p.shared.transpose.without [.color, .size] = (p.shared.without [.color, .size]).transpose :=
      p.shared.without_transpose [.color, .size]
    simp only [Recipe.boxPlot, BoxPlot.drawings, shared_transpose, hplain, boxEncoding_transpose,
      midEncoding_transpose]
    rfl
  · rfl
  · simp only [Recipe.errorBand, ErrorBand.drawings, bandBase_transpose]
    rfl

theorem intervalWarnings_transpose (mark : MarkDef) (center : Center) (extent : Option Extent) (tag : String) :
    Interval.warnings mark.transpose center extent tag =
      (Interval.warnings mark center extent tag).map Warning.transpose := by
  have hextent : (Interval.extentWarnings mark extent tag).map Warning.transpose =
      Interval.extentWarnings mark extent tag := by
    unfold Interval.extentWarnings
    split
    · split <;> rfl
    · rfl
  have hcenter : ∀ i, (Interval.centerWarnings mark i tag).map Warning.transpose =
      Interval.centerWarnings mark i tag := by
    intro i
    unfold Interval.centerWarnings
    split
    · rfl
    · split <;> rfl
  rw [Interval.warnings, Interval.warnings, List.map_append, hextent, hcenter]
  rfl

/-- None of the warnings about a standard mark names a channel. -/
theorem Recipe.warnings_transpose {r : Recipe} (hr : r ∈ Recipe.all) (p : Composite) (config : Config) :
    r.warnings p.transpose config = (r.warnings p config).map Warning.transpose := by
  rcases Recipe.mem_all_iff.1 hr with rfl | rfl | rfl
  · show BoxPlot.whiskerWarnings p.mark config = (BoxPlot.whiskerWarnings p.mark config).map Warning.transpose
    unfold BoxPlot.whiskerWarnings
    split <;> rfl
  · exact intervalWarnings_transpose ..
  · have hflat : (ErrorBand.interpolationWarnings p config).map Warning.transpose =
        ErrorBand.interpolationWarnings p config := by
      unfold ErrorBand.interpolationWarnings
      split
      · rw [List.map_map]; rfl
      · rfl
    simp only [Recipe.errorBand, List.map_append, hflat]
    exact congrArg (· ++ _) (intervalWarnings_transpose ..)

theorem Recipe.columns_transpose {r : Recipe} (hr : r ∈ Recipe.all) (p : Composite) (config : Config) :
    r.columns p.transpose config = r.columns p config := by
  rcases Recipe.mem_all_iff.1 hr with rfl | rfl | rfl <;> rfl

theorem Recipe.calculates_transpose {r : Recipe} (hr : r ∈ Recipe.all) (p : Composite) (config : Config) :
    r.calculates p.transpose config = r.calculates p config := by
  rcases Recipe.mem_all_iff.1 hr with rfl | rfl | rfl <;> rfl

theorem contains_interpolation (mark : MarkDef) (config : Config) :
    (OrderedMap.ofList (ErrorBand.interpolation mark config)).contains "orient" = false := by
  unfold ErrorBand.interpolation
  cases mark.interpolate.or config.errorband.interpolate <;> cases mark.tension.or config.errorband.tension <;> rfl

theorem Recipe.base_unoriented {r : Recipe} (hr : r ∈ Recipe.all) {p : Composite} {config : Config} {d : Drawing}
    (hd : d ∈ r.drawings p config) : d.base.props.contains "orient" = false := by
  have hband : ∀ curve flat, (ErrorBand.base p config curve flat).props.contains "orient" = false := by
    intro curve flat
    rw [ErrorBand.base]
    split
    exacts [rfl, contains_interpolation p.mark config]
  rcases Recipe.mem_all_iff.1 hr with rfl | rfl | rfl
  · simp only [Recipe.boxPlot, BoxPlot.drawings, List.mem_cons, List.not_mem_nil, or_false] at hd
    rcases hd with rfl | rfl | rfl | rfl <;> rfl
  · simp only [Recipe.errorBar, ErrorBar.drawings, List.mem_cons, List.not_mem_nil, or_false] at hd
    rcases hd with rfl | rfl | rfl | rfl | rfl | rfl <;> rfl
  · simp only [Recipe.errorBand, ErrorBand.drawings, List.mem_cons, List.not_mem_nil, or_false] at hd
    rcases hd with rfl | rfl | rfl <;> exact hband _ _

end Composite

/-! ### Layers -/

mutual

/-- The chart with its axes exchanged. -/
def Spec.transpose : Spec → Spec
  | .unit u => .unit u.transpose
  | .layer transform layers outer => .layer transform (transposeAll layers) outer
  | .facet transform mapping child outer => .facet transform mapping child.transpose outer

def Spec.transposeAll : List Spec → List Spec
  | [] => []
  | s :: rest => s.transpose :: transposeAll rest

end

theorem Spec.transposeAll_eq (layers : List Spec) : transposeAll layers = layers.map transpose := by
  induction layers with
  | nil => rfl
  | cons s rest ih => rw [transposeAll, ih, List.map_cons]

@[simp] theorem Spec.transpose_unit (u : UnitSpec) : (Spec.unit u).transpose = .unit u.transpose := rfl

@[simp] theorem Spec.transpose_layer (transform : List Transform) (layers : List Spec) (outer : Object) :
    (Spec.layer transform layers outer).transpose = .layer transform (layers.map transpose) outer := by
  rw [transpose, transposeAll_eq]

@[simp] theorem Spec.transpose_facet (transform : List Transform) (mapping : FacetMapping) (child : Spec)
    (outer : Object) :
    (Spec.facet transform mapping child outer).transpose = .facet transform mapping child.transpose outer := rfl

def LayerSpec.transpose (l : LayerSpec) : LayerSpec := { l with layers := l.layers.map Spec.transpose }

namespace Composite

/-- What transposing the marks of `u` takes: the axis is decided, and no setting of a part is about its orientation. -/
def Transposable (config : Config) (u : UnitSpec) : Prop :=
  ∀ mark, Registry.standard.get? u.mark.type = some mark →
    AxisDecided (accepted u.encoding) u.mark.toDef u.mark.type ∧
      ∀ part ∈ mark.parts, Unoriented (config.part? u.mark.type part) ∧ Unoriented (u.mark.toDef.part? part)

theorem mapM_transpose {α : Type} {l : List α} {f : α → α} {g g' : α → Except Failure UnitSpec}
    (h : ∀ a ∈ l, g' (f a) = exceptTransposeBy UnitSpec.transpose (g a)) :
    (l.map f).mapM g' = exceptTransposeBy (List.map UnitSpec.transpose) (l.mapM g) := by
  induction l with
  | nil => rfl
  | cons a l ih =>
    have hl := ih fun b hb => h b (List.mem_cons_of_mem a hb)
    rw [List.map_cons, List.mapM_cons, List.mapM_cons, h a List.mem_cons_self, hl]
    cases g a with
    | error e => rfl
    | ok b =>
      cases l.mapM g with
      | error e => rfl
      | ok bs => rfl

theorem layer_transpose {p : Composite} {config : Config} {drawings : List Drawing} (u : UnitSpec)
    (columns : List AggregateColumn) (calculates : List CalculateStage)
    (h : ∀ d ∈ drawings, d.transpose.unit p.transpose config = exceptTransposeBy UnitSpec.transpose (d.unit p config)) :
    p.transpose.layer config u.transpose (drawings.map Drawing.transpose) columns calculates =
      exceptTransposeBy LayerSpec.transpose (p.layer config u drawings columns calculates) := by
  have hdrawn : (drawings.map Drawing.transpose).filter (p.transpose.isDrawn config ·.part) =
      (drawings.filter (p.isDrawn config ·.part)).map Drawing.transpose := List.filter_map ..
  have hunits : ((drawings.filter (p.isDrawn config ·.part)).map Drawing.transpose).mapM
      (Drawing.unit p.transpose config) = exceptTransposeBy (List.map UnitSpec.transpose)
        ((drawings.filter (p.isDrawn config ·.part)).mapM (Drawing.unit p config)) :=
    mapM_transpose fun d hd => h d (List.mem_filter.1 hd).1
  change List.mapM (Drawing.unit p.transpose config) _ >>= _ =
    exceptTransposeBy _ (List.mapM (Drawing.unit p config) _ >>= _)
  rw [hdrawn, hunits]
  cases (drawings.filter (p.isDrawn config ·.part)).mapM (Drawing.unit p config) with
  | error e => rfl
  | ok units =>
    refine congrArg (fun layers => (.ok { transform := _, layers, outer := u.outer } : Except Failure LayerSpec)) ?_
    rw [List.map_map, List.map_map]
    rfl

/-- The transposed mark is drawn by the transposed parts, over the same pipeline. -/
theorem Recipe.expand_transpose {r : Recipe} (hr : r ∈ Recipe.all) {u : UnitSpec} {config : Config}
    (htag : u.mark.type = r.tag) (hu : Transposable config u) :
    r.expand u.transpose config = (r.expand u config).transposeBy LayerSpec.transpose := by
  have hparts : ∀ p ws d, resolve u r.policy = .noted p ws → d ∈ r.drawings p config →
      d.transpose.unit p.transpose config = exceptTransposeBy UnitSpec.transpose (d.unit p config) := by
    intro p ws d hp hd
    obtain ⟨mark, hmark, hpart⟩ := r.part_registered hr hd
    obtain ⟨o, b, field, -, -, -, rfl⟩ := resolve_eq_noted hp
    obtain ⟨hconfig, hset⟩ := (hu mark (htag ▸ hmark)).2 d.part hpart
    refine Drawing.unit_transpose ?_ hset (r.base_unoriented hr hd)
    show Unoriented (config.part? u.mark.toDef.type d.part)
    rw [type_toDef]
    exact hconfig
  obtain ⟨mark, hmark⟩ : ∃ mark, Registry.standard.get? r.tag = some mark := by
    rcases Recipe.mem_all_iff.1 hr with rfl | rfl | rfl <;> exact ⟨_, get?_standard _⟩
  rw [expand, expand, resolve_transpose _ (hu mark (htag ▸ hmark)).1]
  refine Report.transposeBy_bind fun p ws hp => ?_
  rw [r.warnings_transpose hr, r.columns_transpose hr, r.calculates_transpose hr, r.drawings_transpose hr,
    ← Report.transposeBy_noted id]
  refine Report.transposeBy_bind fun _ _ _ => ?_
  rw [layer_transpose u _ _ fun d hd => hparts p ws d hp hd]
  exact Report.transposeBy_lift ..

end Composite

end ChartNormal
