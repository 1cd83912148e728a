import ChartNormal.Stack
import ChartNormal.Proofs.Extraction

/-!
# When a unit stacks, and by which stages

A unit is a candidate for stacking (`Stack.Candidate`) if it is an aggregated bar or area with one measure axis, whose
offset is not switched off, and with a named field on `color` or `detail`. A candidate stacks unless a range or a scale
stands in the way, and then there is one warning (`Stack.stacks_iff_conditions`).

The stages look the channels up again. On an encoding that the mark has settled they find what the decision has found: an
axis that is bound to data is bound to one field with a column, and so is `order`, or to a list of such fields. So the
stages are the stack that was decided on (`Stack.transforms_match_range`).
-/

namespace ChartNormal

/-- A definition has a column exactly when it refers to data. -/
theorem FieldDef.isSome_columnBy? (d : FieldDef) (bins : String → String) : (d.columnBy? bins).isSome = d.hasField := by
  unfold columnBy? hasField
  cases d.field with
  | none => cases d.isCount <;> rfl
  | some field => cases d.pendingBin? <;> cases d.aggregate <;> cases d.timeUnit <;> rfl

theorem FieldDef.isSome_binColumn? (d : FieldDef) (which : BinColumn) : (d.binColumn? which).isSome = d.hasField :=
  d.isSome_columnBy? _

namespace Encoding

variable {e : Encoding} {c : Channel}

theorem field?_eq_some_iff {d : FieldDef} : e.field? c = some d ↔ e.get? c = some (.field d) := by
  rw [field?, Option.bind_eq_some_iff]
  constructor
  · rintro ⟨def', hget, hd⟩
    cases def' <;> cases hd
    exact hget
  · exact fun hget => ⟨_, hget, rfl⟩

theorem isAggregate_iff : e.isAggregate = true ↔ ∃ d ∈ e.defs, ∃ op, d.aggregate = some (.op op) := by
  have hop (d : FieldDef) : d.op?.isSome = true ↔ ∃ op, d.aggregate = some (.op op) := by
    unfold FieldDef.op?
    cases d.aggregate with
    | none => simp
    | some a => cases a <;> simp [Aggregate.op?]
  simp only [isAggregate, defs, List.any_eq_true, List.mem_flatMap, hop]
  constructor
  · rintro ⟨b, hb, d, hd, h⟩
    exact ⟨d, ⟨b, hb, hd⟩, h⟩
  · rintro ⟨d, ⟨b, hb, hd⟩, h⟩
    exact ⟨b, hb, d, hd, h⟩

end Encoding

namespace Stack

variable {mark : Primitive} {e : Encoding} {scales : Scales} {config : Config}

/-! ### The conditions -/

/-- Of the two axes, `axis` is bound to one field that is a measure, and `other` is not. -/
structure SoleMeasure (e : Encoding) (axis other : Channel) (d : FieldDef) : Prop where
  axes : axis = .x ∧ other = .y ∨ axis = .y ∧ other = .x
  bound : e.get? axis = some (.field d)
  measure : d.isMeasure = true
  sole : ∀ d', e.get? other = some (.field d') → d'.isMeasure = false

/-- All that stacking along `axis` takes, but for the range and the scale of that axis. -/
structure Candidate (mark : Primitive) (e : Encoding) (config : Config) (axis other : Channel) (d : FieldDef) : Prop
    extends SoleMeasure e axis other d where
  stackable : mark = .bar ∨ mark = .area
  aggregated : ∃ f ∈ e.defs, ∃ op, f.aggregate = some (.op op)
  enabled : d.stack.getD config.stack ≠ .disabled
  segmented : ∃ c f, (c, f) ∈ e.bindings ∧ c ∈ [Channel.color, .detail] ∧ ∃ name, f.column? = some name

/-- The column by which a definition tells segments apart. A single field on an ordinal scale goes by the labels of its
bins, any other by where they start. -/
def segment? (e : Encoding) (scales : Scales) (b : Channel × FieldDef) : Option String :=
  b.2.binColumn? (if e.field? b.1 = some b.2 ∧ scales b.1 = some .ordinal then .range else .start)

/-- How a candidate stacks. -/
structure Describes (mark : Primitive) (e : Encoding) (scales : Scales) (config : Config) (axis other : Channel)
    (d : FieldDef) (s : Stack) : Prop where
  field : s.field = axis
  groupby : s.groupby = if e.hasField other then some other else none
  offset : s.offset = d.stack.getD config.stack
  impute : s.impute = true ↔ mark = .area
  segments : s.segments = (e.bindings.filter (·.1 ∈ [Channel.color, .detail])).filterMap (segment? e scales)

/-- The axis has no second channel, and no scale or a linear one. -/
structure Clear (e : Encoding) (scales : Scales) (axis : Channel) : Prop where
  unranged : ∀ c₂, axis.secondary? = some c₂ → e.contains c₂ = false
  linear : ∀ scale, scales axis = some scale → scale = .linear

/-- The warning about what stands in the way; a range is noted before the scale is looked at. -/
inductive Obstructed (e : Encoding) (scales : Scales) (axis : Channel) : Warning → Prop
  | ranged {c₂ : Channel} (h : axis.secondary? = some c₂) (hc₂ : e.contains c₂ = true) :
    Obstructed e scales axis (.stackRanged axis)
  | nonLinear {scale : Scale} (unranged : ∀ c₂, axis.secondary? = some c₂ → e.contains c₂ = false)
      (h : scales axis = some scale) (hscale : scale ≠ .linear) : Obstructed e scales axis (.stackNonLinear scale.name)

/-! ### The decision -/

theorem isMeasure_iff {c : Channel} : isMeasure e c = true ↔ ∃ d, e.get? c = some (.field d) ∧ d.isMeasure = true := by
  rw [isMeasure, Option.any_eq_true]
  exact exists_congr fun d => and_congr_left fun _ => Encoding.field?_eq_some_iff

theorem isMeasure_eq_false_iff {c : Channel} :
    isMeasure e c = false ↔ ∀ d, e.get? c = some (.field d) → d.isMeasure = false := by
  rw [← Bool.not_eq_true, isMeasure_iff]
  simp

theorem axes?_eq_some_iff {axis other : Channel} : axes? e = some (axis, other) ↔ ∃ d, SoleMeasure e axis other d := by
  constructor
  · intro h
    unfold axes? at h
    split at h
    · next hx hy =>
      obtain ⟨d, hd, hm⟩ := isMeasure_iff.1 hx
      cases h
      exact ⟨d, .inl ⟨rfl, rfl⟩, hd, hm, isMeasure_eq_false_iff.1 hy⟩
    · next hx hy =>
      obtain ⟨d, hd, hm⟩ := isMeasure_iff.1 hy
      cases h
      exact ⟨d, .inr ⟨rfl, rfl⟩, hd, hm, isMeasure_eq_false_iff.1 hx⟩
    · cases h
  · rintro ⟨d, haxes, hd, hm, hsole⟩
    have haxis := isMeasure_iff.2 ⟨d, hd, hm⟩
    have hother := isMeasure_eq_false_iff.2 hsole
    rcases haxes with ⟨rfl, rfl⟩ | ⟨rfl, rfl⟩ <;> rw [axes?, haxis, hother]

theorem isStackGroup_iff {c : Channel} : c.isStackGroup = true ↔ c ∈ [Channel.color, .detail] := by
  cases c <;> decide

/-- The columns of one channel, definition by definition. -/
theorem segmentsOf_eq {b : Channel × ChannelDef} (hb : b ∈ e.entries) :
    segmentsOf scales b.1 b.2 = b.2.fieldDefs.filterMap fun d => segment? e scales (b.1, d) := by
  obtain ⟨c, def'⟩ := b
  have hget := OrderedMap.get?_eq_some_iff.2 hb
  cases def' with
  | field d =>
    have hfield : e.field? c = some d := Encoding.field?_eq_some_iff.2 hget
    simp only [segmentsOf, ChannelDef.fieldDefs, segment?, hfield, true_and, List.filterMap_cons, List.filterMap_nil]
    cases d.binColumn? _ <;> rfl
  | fields defs =>
    have hfield : e.field? c = none := by rw [Encoding.field?, hget]; rfl
    simp only [segmentsOf, ChannelDef.fieldDefs, segment?, hfield, reduceCtorEq, false_and, if_false]
    rfl
  | value v => rfl

theorem segmentColumns_eq (e : Encoding) (scales : Scales) :
    segmentColumns e scales = (e.bindings.filter (·.1 ∈ [Channel.color, .detail])).filterMap (segment? e scales) := by
  rw [segmentColumns, Encoding.bindings, List.filter_flatMap, List.filterMap_flatMap]
  refine List.flatMap_congr fun b hb => ?_
  rw [List.filter_map, List.filterMap_map]
  by_cases hc : b.1 ∈ [Channel.color, .detail]
  · rw [if_pos (isStackGroup_iff.2 hc), segmentsOf_eq hb, List.filter_eq_self.2 (by simpa using fun _ _ => hc)]
    rfl
  · rw [if_neg (mt isStackGroup_iff.1 hc), List.filter_eq_nil_iff.2 (by simpa using fun _ _ => hc), List.filterMap_nil]

theorem segmentColumns_ne_nil_iff :
    segmentColumns e scales ≠ [] ↔
      ∃ c f, (c, f) ∈ e.bindings ∧ c ∈ [Channel.color, .detail] ∧ ∃ name, f.column? = some name := by
  have hname (c : Channel) (f : FieldDef) : ¬ segment? e scales (c, f) = none ↔ ∃ name, f.column? = some name := by
    rw [← ne_eq, ← Option.isSome_iff_ne_none, ← Option.isSome_iff_exists, segment?, FieldDef.column?,
      FieldDef.isSome_binColumn?, FieldDef.isSome_binColumn?]
  rw [segmentColumns_eq, ne_eq, List.filterMap_eq_nil_iff]
  simp only [List.mem_filter, decide_eq_true_eq, not_forall, exists_prop, and_assoc, Prod.exists, hname]

theorem isStackable_iff : isStackable mark = true ↔ mark = .bar ∨ mark = .area := by
  simp [isStackable]

theorem guard_eq_some_iff {p : Prop} [Decidable p] {u : Unit} : (guard p : Option Unit) = some u ↔ p := by
  unfold guard
  split
  · next hp => exact iff_of_true rfl hp
  · next hp => exact iff_of_false (fun hfail => by cases hfail) hp

theorem candidate?_eq_some_iff {s : Stack} :
    candidate? mark e scales config = some s ↔
      ∃ axis other d, Candidate mark e config axis other d ∧ Describes mark e scales config axis other d s := by
  constructor
  · intro h
    obtain ⟨_, hmark, h⟩ := Option.bind_eq_some_iff.1 h
    obtain ⟨⟨axis, other⟩, haxes, h⟩ := Option.bind_eq_some_iff.1 h
    obtain ⟨_, henabled, h⟩ := Option.bind_eq_some_iff.1 h
    obtain ⟨_, hsegmented, hs⟩ := Option.bind_eq_some_iff.1 h
    obtain ⟨d, hd⟩ := axes?_eq_some_iff.1 haxes
    rw [guard_eq_some_iff, Bool.and_eq_true, isStackable_iff, Encoding.isAggregate_iff] at hmark
    rw [guard_eq_some_iff, Encoding.field?_eq_some_iff.2 hd.bound, Option.bind_some] at henabled
    rw [guard_eq_some_iff, segmentColumns_ne_nil_iff] at hsegmented
    rw [Encoding.field?_eq_some_iff.2 hd.bound, Option.bind_some] at hs
    obtain rfl := Option.some.inj hs
    exact ⟨axis, other, d, ⟨hd, hmark.1, hmark.2, henabled, hsegmented⟩,
      ⟨rfl, rfl, rfl, decide_eq_true_iff, segmentColumns_eq e scales⟩⟩
  · rintro ⟨axis, other, d, h, hs⟩
    have hmark : (isStackable mark && e.isAggregate) = true := by
      rw [Bool.and_eq_true, isStackable_iff, Encoding.isAggregate_iff]
      exact ⟨h.stackable, h.aggregated⟩
    have hstack : ((e.field? axis).bind FieldDef.stack).getD config.stack = d.stack.getD config.stack := by
      rw [Encoding.field?_eq_some_iff.2 h.bound, Option.bind_some]
    refine Option.bind_eq_some_iff.2 ⟨(), guard_eq_some_iff.2 hmark, ?_⟩
    refine Option.bind_eq_some_iff.2 ⟨(axis, other), axes?_eq_some_iff.2 ⟨d, h.toSoleMeasure⟩, ?_⟩
    refine Option.bind_eq_some_iff.2 ⟨(), guard_eq_some_iff.2 (hstack ▸ h.enabled), ?_⟩
    refine Option.bind_eq_some_iff.2 ⟨(), guard_eq_some_iff.2 (segmentColumns_ne_nil_iff.2 h.segmented), ?_⟩
    obtain ⟨groupby, field, segments, offset, impute⟩ := s
    obtain ⟨rfl, rfl, rfl, himpute, rfl⟩ := hs
    simp only [segmentColumns_eq, hstack, ← himpute, Bool.decide_eq_true]

theorem ranged_eq_false_iff {axis : Channel} :
    axis.secondary?.any (e.contains ·) = false ↔ ∀ c₂, axis.secondary? = some c₂ → e.contains c₂ = false := by
  cases axis.secondary? <;> simp

theorem obstacle?_eq_some_iff {s : Stack} {w : Warning} :
    obstacle? e scales s = some w ↔ Obstructed e scales s.field w := by
  unfold obstacle?
  cases hranged : s.field.secondary?.any (e.contains ·) with
  | true =>
    obtain ⟨c₂, hc₂, hcontains⟩ := (Option.any_eq_true ..).1 hranged
    rw [if_pos rfl, Option.some.injEq]
    constructor
    · rintro rfl
      exact .ranged hc₂ hcontains
    · rintro (⟨-, -⟩ | ⟨hunranged, -, -⟩)
      · rfl
      · rw [hunranged c₂ hc₂] at hcontains
        cases hcontains
  | false =>
    have hunranged := ranged_eq_false_iff.1 hranged
    rw [if_neg Bool.false_ne_true]
    constructor
    · intro h
      split at h
      · next scale hscale =>
        rw [Option.ite_none_left_eq_some, Option.some.injEq] at h
        obtain ⟨hne, rfl⟩ := h
        exact .nonLinear hunranged hscale hne
      · cases h
    · rintro (⟨hc₂, hcontains⟩ | ⟨-, hscale, hne⟩)
      · rw [hunranged _ hc₂] at hcontains
        cases hcontains
      · rw [hscale]
        exact if_neg hne

theorem clear_iff {axis : Channel} : Clear e scales axis ↔ ∀ w, ¬ Obstructed e scales axis w := by
  constructor
  · rintro ⟨hunranged, hlinear⟩ w (⟨hc₂, hcontains⟩ | ⟨-, hscale, hne⟩)
    · rw [hunranged _ hc₂] at hcontains
      cases hcontains
    · exact hne (hlinear _ hscale)
  · intro h
    have hunranged : ∀ c₂, axis.secondary? = some c₂ → e.contains c₂ = false := fun c₂ hc₂ =>
      Bool.eq_false_iff.2 fun hcontains => h _ (.ranged hc₂ hcontains)
    exact ⟨hunranged, fun scale hscale => by_contra fun hne => h _ (.nonLinear hunranged hscale hne)⟩

theorem obstacle?_eq_none_iff {s : Stack} : obstacle? e scales s = none ↔ Clear e scales s.field := by
  rw [Option.eq_none_iff_forall_ne_some, clear_iff]
  exact forall_congr' fun w => not_congr obstacle?_eq_some_iff

theorem of?_eq_some_iff {s : Stack} :
    of? mark e scales config = some s ↔
      ∃ axis other d, Candidate mark e config axis other d ∧ Clear e scales axis ∧
        Describes mark e scales config axis other d s := by
  rw [of?, Option.filter_eq_some_iff, candidate?_eq_some_iff, Option.isNone_iff_eq_none, obstacle?_eq_none_iff]
  constructor
  · rintro ⟨⟨axis, other, d, hd, hs⟩, hclear⟩
    exact ⟨axis, other, d, hd, hs.field ▸ hclear, hs⟩
  · rintro ⟨axis, other, d, hd, hclear, hs⟩
    exact ⟨⟨axis, other, d, hd, hs⟩, hs.field ▸ hclear⟩

theorem mem_warnings_iff {w : Warning} :
    w ∈ warnings mark e scales config ↔
      ∃ axis other d, Candidate mark e config axis other d ∧ Obstructed e scales axis w := by
  rw [warnings, Option.mem_toList, Option.bind_eq_some_iff]
  simp only [candidate?_eq_some_iff, obstacle?_eq_some_iff]
  constructor
  · rintro ⟨s, ⟨axis, other, d, hd, hs⟩, hw⟩
    exact ⟨axis, other, d, hd, hs.field ▸ hw⟩
  · rintro ⟨axis, other, d, hd, hw⟩
    exact ⟨⟨if e.hasField other then some other else none, axis, _, d.stack.getD config.stack, decide (mark = .area)⟩,
      ⟨axis, other, d, hd, ⟨rfl, rfl, rfl, decide_eq_true_iff, rfl⟩⟩, hw⟩

/-- **When a unit stacks.** An encoding gives a stack exactly when all conditions are met, and it is the stack that they
describe. There is one warning at most, exactly when all conditions are met but for the range and the scale of the axis. -/
theorem stacks_iff_conditions (mark : Primitive) (e : Encoding) (scales : Scales) (config : Config) :
    (∀ s, of? mark e scales config = some s ↔
      ∃ axis other d, Candidate mark e config axis other d ∧ Clear e scales axis ∧
        Describes mark e scales config axis other d s) ∧
    (warnings mark e scales config).length ≤ 1 ∧
    (warnings mark e scales config ≠ [] ↔
      ∃ axis other d, Candidate mark e config axis other d ∧ ¬ Clear e scales axis) ∧
    ∀ w, w ∈ warnings mark e scales config ↔
      ∃ axis other d, Candidate mark e config axis other d ∧ Obstructed e scales axis w := by
  refine ⟨fun s => of?_eq_some_iff, Option.length_toList_le, ?_, fun w => mem_warnings_iff⟩
  constructor
  · intro h
    obtain ⟨w, hw⟩ := List.exists_mem_of_ne_nil _ h
    obtain ⟨axis, other, d, hd, hw⟩ := mem_warnings_iff.1 hw
    exact ⟨axis, other, d, hd, fun hclear => clear_iff.1 hclear w hw⟩
  · rintro ⟨axis, other, d, hd, hclear⟩
    rw [clear_iff, not_forall_not] at hclear
    obtain ⟨w, hw⟩ := hclear
    exact List.ne_nil_of_mem (mem_warnings_iff.2 ⟨axis, other, d, hd, hw⟩)

/-! ### The stages -/

/-- A definition that refers to data has a column. -/
theorem exists_column? {d : FieldDef} (h : d.hasField = true) : ∃ name, d.column? = some name :=
  Option.isSome_iff_exists.1 ((d.isSome_binColumn? .start).trans h)

theorem exists_sortColumn? {d : FieldDef} (h : d.hasField = true) : ∃ name, sortColumn? d = some name := by
  obtain ⟨name, hname⟩ := exists_column? h
  rw [sortColumn?, hname]
  exact ⟨_, rfl⟩

section Settled

variable (hsettled : e.Settled mark)

include hsettled

theorem normal_of_get? {c : Channel} {def' : ChannelDef} (h : e.get? c = some def') : def'.Normal c :=
  (hsettled _ (OrderedMap.get?_eq_some_iff.1 h)).2

/-- A single field has a column. -/
theorem column?_of_settled {c : Channel} {d : FieldDef} (h : e.get? c = some (.field d)) : ∃ name, d.column? = some name :=
  exists_column? ((normal_of_get? hsettled h).data d List.mem_cons_self)

/-- Where lists are not taken, a channel with data is bound to a single field. -/
theorem field_of_hasField {c : Channel} (hc : c.acceptsList = false) (h : e.hasField c = true) :
    ∃ d, e.get? c = some (.field d) := by
  obtain ⟨def', hget, hany⟩ := (Option.any_eq_true ..).1 h
  cases def' with
  | field d => exact ⟨d, hget⟩
  | fields defs =>
    have hlist := ((normal_of_get? hsettled hget).list defs rfl).1
    rw [← ChannelDef.acceptsList_iff, hc] at hlist
    cases hlist
  | value v => cases hany

/-- There is something to sort by: what `order` is bound to, or the segments. -/
theorem sortColumns_ne_nil {s : Stack} (h : s.segments ≠ []) : s.sortColumns e ≠ [] := by
  unfold sortColumns
  split
  · next d hget =>
    obtain ⟨name, hname⟩ := exists_sortColumn? ((normal_of_get? hsettled hget).data d List.mem_cons_self)
    simp [hname]
  · next defs hget =>
    have hnormal := normal_of_get? hsettled hget
    obtain ⟨d, hd⟩ := List.exists_mem_of_ne_nil defs (hnormal.list defs rfl).2
    obtain ⟨name, hname⟩ := exists_sortColumn? (hnormal.data d hd)
    exact List.ne_nil_of_mem (List.mem_filterMap.2 ⟨d, hd, hname⟩)
  · simpa using h

/-- The groups have a key exactly when the other axis is bound to data. -/
theorem groupColumns_cases {s : Stack} {other : Channel} (hother : other.acceptsList = false)
    (h : s.groupby = if e.hasField other then some other else none) :
    (s.groupby = some other ∧
        ∃ d key, e.get? other = some (.field d) ∧ d.column? = some key ∧ s.groupColumns e = [key]) ∨
      (s.groupby = none ∧ s.groupColumns e = []) := by
  cases hdata : e.hasField other with
  | true =>
    rw [hdata, if_pos rfl] at h
    obtain ⟨d, hd⟩ := field_of_hasField hsettled hother hdata
    obtain ⟨key, hkey⟩ := column?_of_settled hsettled hd
    refine .inl ⟨h, d, key, hd, hkey, ?_⟩
    rw [groupColumns, h, Option.bind_some, Encoding.field?_eq_some_iff.2 hd, Option.bind_some, hkey]
    rfl
  | false =>
    rw [hdata, if_neg Bool.false_ne_true] at h
    exact .inr ⟨h, by rw [groupColumns, h]; rfl⟩

end Settled

theorem stackStart_eq (field : String) : Column.stackStart field = field ++ "_start" := String.append_assoc

theorem stackEnd_eq (field : String) : Column.stackEnd field = field ++ "_end" := String.append_assoc

theorem column?_eq {s : Stack} {d : FieldDef} {field : String} (hd : e.get? s.field = some (.field d))
    (hfield : d.column? = some field) : s.column? e = some field := by
  rw [column?, Encoding.field?_eq_some_iff.2 hd, Option.bind_some, hfield]

theorem transforms_eq {s : Stack} {field : String} (h : s.column? e = some field) :
    s.transforms e =
      .stack (s.groupColumns e) field (s.sortColumns e) (Column.stackStart field) (Column.stackEnd field)
          (if s.offset = .zero then none else some s.offset) ::
        if s.impute then (s.groupColumns e).head?.toList.map (.impute field · s.segments (some (.num (.int 0)))) else [] := by
  rw [transforms, h]
  cases s.impute <;> cases s.groupColumns e <;> rfl

/-- **The stages are the stack that was decided on.** On an encoding that the mark has settled, the stack stage writes the
range of the stacked column, with the offset unless it is the default, and is sorted by something. It groups by the column
of the channel for that, if there is one. For an area that is grouped, a stage follows that fills in the segments missing
under that key; nothing else follows. -/
theorem transforms_match_range {mark : Primitive} {e : Encoding} {scales : Scales} {config : Config} {s : Stack}
    (h : of? mark (e.settle mark) scales config = some s) :
    ∃ (d : FieldDef) (field start stop : String) (groupby sortby : List String) (rest : List Transform),
      (e.settle mark).get? s.field = some (.field d) ∧ d.column? = some field ∧
      s.range? (e.settle mark) = some (start, stop) ∧ start = field ++ "_start" ∧ stop = field ++ "_end" ∧
      s.transforms (e.settle mark) =
        .stack groupby field sortby start stop (if s.offset = .zero then none else some s.offset) :: rest ∧
      sortby ≠ [] ∧ (s.groupby = none → groupby = [] ∧ rest = []) ∧
      ∀ c, s.groupby = some c →
        ∃ d' key, (e.settle mark).get? c = some (.field d') ∧ d'.column? = some key ∧ groupby = [key] ∧
          rest = if mark = .area then [.impute field key s.segments (some (.num (.int 0)))] else [] := by
  obtain ⟨axis, other, d, hd, -, hs⟩ := of?_eq_some_iff.1 h
  have hsettled := e.settled_settle mark
  obtain ⟨field, hfield⟩ := column?_of_settled hsettled hd.bound
  have hbound : (e.settle mark).get? s.field = some (.field d) := by rw [hs.field, hd.bound]
  have hcolumn := column?_eq hbound hfield
  have hsegments : s.segments ≠ [] := by
    rw [hs.segments, ← segmentColumns_eq]
    exact segmentColumns_ne_nil_iff.2 hd.segmented
  have hother : other.acceptsList = false := by
    rcases hd.axes with ⟨-, rfl⟩ | ⟨-, rfl⟩ <;> rfl
  refine ⟨d, field, _, _, _, _, _, hbound, hfield, by rw [range?, hcolumn]; rfl, stackStart_eq field, stackEnd_eq field,
    transforms_eq hcolumn, sortColumns_ne_nil hsettled hsegments, ?_⟩
  rcases groupColumns_cases hsettled hother hs.groupby with ⟨hgroupby, d', key, hd', hkey, hcolumns⟩ | ⟨hgroupby, hcolumns⟩
  · rw [hgroupby, hcolumns]
    refine ⟨fun hnone => absurd hnone (Option.some_ne_none other), fun c hc => ?_⟩
    obtain rfl := Option.some.inj hc
    refine ⟨d', key, hd', hkey, rfl, ?_⟩
    simp only [hs.impute, List.head?_cons, Option.toList_some, List.map_cons, List.map_nil]
  · rw [hgroupby, hcolumns]
    exact ⟨fun _ => ⟨rfl, ite_self []⟩, fun c hc => absurd hc.symm (Option.some_ne_none c)⟩

/-- An area over months. Its shape is dropped, and so is the first field to order by, which has no data. -/
theorem transforms_match_range_months :
    let e : Encoding := .ofList
      [(.x, .field { field := some "date", type := .temporal, timeUnit := some "month" }),
        (.shape, .field { field := some "kind", type := .nominal }),
        (.y, .field { field := some "people", type := .quantitative, aggregate := some (.op .sum) }),
        (.color, .field { field := some "series", type := .nominal }),
        (.order, .fields [{ type := .ordinal }, { field := some "rank", type := .ordinal }])]
    let s : Stack := { groupby := some .x, field := .y, segments := ["series"], offset := .zero, impute := true }
    of? .area (e.settle .area) (fun _ => none) .defaults = some s ∧
      s.range? (e.settle .area) = some ("sum_people_start", "sum_people_end") ∧
      ∃ sortby, sortby ≠ [] ∧ s.transforms (e.settle .area) =
        [.stack ["month_date"] "sum_people" sortby "sum_people_start" "sum_people_end" none,
          .impute "sum_people" "month_date" ["series"] (some (.num (.int 0)))] := by
  intro e s
  have h : of? .area (e.settle .area) (fun _ => none) .defaults = some s := by decide +kernel +zetaReduce
  obtain ⟨d, field, _, _, _, sortby, _, hd, hfield, hrange, rfl, rfl, hstages, hsortby, -, hgrouped⟩ :=
    transforms_match_range h
  obtain ⟨d', key, hd', hkey, rfl, rfl⟩ := hgrouped .x rfl
  obtain rfl : "sum_people" = field := by
    have hcolumn : s.column? (e.settle .area) = some "sum_people" := by decide +kernel +zetaReduce
    exact Option.some.inj (hcolumn.symm.trans (column?_eq hd hfield))
  obtain rfl : "month_date" = key := by
    have hcolumn : ((e.settle .area).field? .x).bind FieldDef.column? = some "month_date" := by
      decide +kernel +zetaReduce
    rw [Encoding.field?_eq_some_iff.2 hd'] at hcolumn
    exact Option.some.inj (hcolumn.symm.trans hkey)
  exact ⟨h, hrange, sortby, hsortby, hstages⟩

end Stack

end ChartNormal
