import ChartNormal.Proofs.Composite.Roles

/-!
# Extraction accounts for every definition

A definition makes one entry of the aggregate stage, a column if it has an operation and else a key of the groups
(`FieldDef.entry`). What is left of it is a plain reference to that entry (`FieldDef.renamed`), from which nothing more can
be extracted: the channels keep their order and their constants, and extracting twice is extracting once
(`Encoding.extract_extract`).
-/

namespace ChartNormal

namespace FieldDef

/-- The column that the stage of the definition writes, or that it reads if it has no stage. A composite tag does not
count, and without a field the name is empty. -/
def entryName (d : FieldDef) : String := d.withoutTag.outputName

/-- What the definition adds to the aggregate stage: a column to compute, or a key of the groups. -/
def entry (d : FieldDef) : AggregateColumn ⊕ String :=
  match d.op? with
  | some op => .inl { op, field := d.field, as := d.entryName }
  | none => .inr d.entryName

/-- What is left of the definition: a reference to its entry, which is binned if the definition was. -/
def renamed (d : FieldDef) : FieldDef := d.withoutTag.extracted

/-- The aggregate is no operation. -/
def isTagged (d : FieldDef) : Bool := d.aggregate.isSome && d.op?.isNone

variable (d : FieldDef)

/-! ### One definition -/

theorem isLeft_entry : d.entry.isLeft = d.op?.isSome := by
  rw [entry]
  cases d.op? <;> rfl

theorem elim_entry : d.entry.elim (·.as) id = d.entryName := by
  rw [entry]
  cases d.op? <;> rfl

theorem getLeft?_entry : d.entry.getLeft? = d.withoutTag.aggregateColumn? := by
  rw [entry, aggregateColumn?, op?_withoutTag]
  cases d.op? <;> rfl

theorem getRight?_entry : d.entry.getRight? = d.withoutTag.groupKey? := by
  rw [entry, groupKey?, op?_withoutTag]
  cases d.op? <;> rfl

theorem tagWarning?_eq (c : Channel) (mark : String) :
    d.tagWarning? c mark = if d.isTagged then d.aggregate.map fun a => .foreignAggregate c a.name mark else none := by
  rw [tagWarning?, isTagged, op?]
  cases d.aggregate with
  | none => rfl
  | some a => cases a <;> rfl

/-! ### What is left of it -/

@[simp] theorem field_renamed : d.renamed.field = some d.entryName := rfl

@[simp] theorem type_renamed : d.renamed.type = d.type := rfl

@[simp] theorem timeUnit_renamed : d.renamed.timeUnit = none := rfl

@[simp] theorem aggregate_renamed : d.renamed.aggregate = none := rfl

@[simp] theorem op?_renamed : d.renamed.op? = none := rfl

@[simp] theorem isBinned_renamed : d.renamed.isBinned = d.isBinned := by
  have hbin : d.renamed.bin = if d.isBinned then some .binned else none := rfl
  rw [isBinned, hbin]
  cases d.isBinned <;> rfl

/-- Bins are there already, or there are none. -/
@[simp] theorem pendingBin?_renamed : d.renamed.pendingBin? = none := by
  have hbin : d.renamed.bin = if d.isBinned then some .binned else none := rfl
  rw [pendingBin?, hbin]
  cases d.isBinned <;> rfl

theorem isContinuous_renamed : d.renamed.isContinuous = d.isContinuous := by
  rw [isContinuous, isContinuous, type_renamed, isBinned_renamed]

/-- With no modifier left, every name of the definition is that of its field. -/
theorem columnBy?_renamed (bins : String → String) : d.renamed.columnBy? bins = some d.entryName := by
  simp [columnBy?]

theorem column?_renamed : d.renamed.column? = some d.entryName := by
  rw [column?, binColumn?, columnBy?_renamed]

theorem withoutTag_renamed : d.renamed.withoutTag = d.renamed := rfl

@[simp] theorem entryName_renamed : d.renamed.entryName = d.entryName := by
  rw [entryName, withoutTag_renamed, outputName, output?, columnBy?_renamed, Option.getD_some]

theorem renamed_renamed : d.renamed.renamed = d.renamed := by
  have hbin : d.renamed.bin = if d.isBinned then some .binned else none := rfl
  have hagain : d.renamed.renamed =
      { d.renamed with
        field := some d.renamed.entryName
        bin := if d.renamed.isBinned then some .binned else none } := rfl
  rw [hagain, entryName_renamed, isBinned_renamed, ← hbin]
  rfl

theorem binStage?_renamed : d.renamed.binStage? = none := by
  simp [binStage?]

theorem timeUnitStage?_renamed : d.renamed.timeUnitStage? = none := by
  simp [timeUnitStage?]

theorem aggregateColumn?_renamed : d.renamed.aggregateColumn? = none := by
  simp [aggregateColumn?]

theorem tagWarning?_renamed (c : Channel) (mark : String) : d.renamed.tagWarning? c mark = none := rfl

end FieldDef

theorem ChannelDef.mapFields_mapFields (d : ChannelDef) (f g : FieldDef → FieldDef) :
    (d.mapFields f).mapFields g = d.mapFields (g ∘ f) := by
  cases d <;> simp [mapFields]

namespace Encoding

/-- The definitions of all channels, in their order. -/
def defs (e : Encoding) : List FieldDef := e.entries.flatMap fun b => b.2.fieldDefs

/-- The same, each with its channel. -/
def bindings (e : Encoding) : List (Channel × FieldDef) := e.entries.flatMap fun b => b.2.fieldDefs.map (b.1, ·)

variable (e : Encoding)

/-! ### All definitions -/

theorem encoding_extract : e.extract.encoding = e.mapValues fun _ d => d.mapFields FieldDef.renamed := by
  refine OrderedMap.ext ?_
  simp only [extract, OrderedMap.entries_mapValues, List.map_map, Function.comp_def, ChannelDef.mapFields_mapFields]
  rfl

theorem channels_extract : e.extract.encoding.channels = e.channels := by
  rw [encoding_extract, channels, channels, OrderedMap.keys, OrderedMap.keys, OrderedMap.entries_mapValues, List.map_map]
  rfl

theorem get?_extract (c : Channel) :
    e.extract.encoding.get? c = (e.get? c).map (ChannelDef.mapFields FieldDef.renamed) := by
  rw [encoding_extract, OrderedMap.get?_mapValues]

theorem value_extract_iff {c : Channel} {v : Json} :
    e.extract.encoding.get? c = some (.value v) ↔ e.get? c = some (.value v) := by
  rw [get?_extract]
  cases e.get? c with
  | none => simp
  | some d => cases d <;> simp [ChannelDef.mapFields]

theorem defs_extract : e.extract.encoding.defs = e.defs.map FieldDef.renamed := by
  rw [encoding_extract, defs, defs, OrderedMap.entries_mapValues, List.flatMap_map, List.map_flatMap]
  simp only [ChannelDef.fieldDefs_mapFields]

/-- What is extracted is read off the definitions one by one. -/
theorem filterMap_withoutTag {α : Type} (read : FieldDef → Option α) :
    ((e.mapValues fun _ d => d.mapFields FieldDef.withoutTag).entries.flatMap fun b => b.2.fieldDefs).filterMap read =
      e.defs.filterMap fun d => read d.withoutTag := by
  rw [defs_withoutTag, List.filterMap_map]
  rfl

theorem bins_extract : e.extract.bins = e.defs.filterMap (·.withoutTag.binStage?) :=
  e.filterMap_withoutTag FieldDef.binStage?

theorem timeUnits_extract : e.extract.timeUnits = e.defs.filterMap (·.withoutTag.timeUnitStage?) :=
  e.filterMap_withoutTag FieldDef.timeUnitStage?

theorem aggregate_extract : e.extract.aggregate = e.defs.filterMap (·.entry.getLeft?) := by
  simp only [FieldDef.getLeft?_entry]
  exact e.filterMap_withoutTag FieldDef.aggregateColumn?

theorem groupby_extract : e.extract.groupby = e.defs.filterMap (·.entry.getRight?) := by
  simp only [FieldDef.getRight?_entry]
  exact e.filterMap_withoutTag FieldDef.groupKey?

theorem extractWarnings_eq (mark : String) :
    e.extractWarnings mark = e.bindings.filterMap fun b => b.2.tagWarning? b.1 mark := by
  rw [extractWarnings, bindings, List.filterMap_flatMap]
  simp only [List.filterMap_map, Function.comp_def]

/-- There is one warning for each aggregate that is no operation. -/
theorem forall₂_extractWarnings (mark : String) :
    List.Forall₂ (fun b w => ∃ tag, b.2.aggregate = some (.composite tag) ∧ w = .foreignAggregate b.1 tag mark)
      (e.bindings.filter (·.2.isTagged)) (e.extractWarnings mark) := by
  rw [extractWarnings_eq]
  induction e.bindings with
  | nil => exact .nil
  | cons b l ih =>
    rw [List.filter_cons, List.filterMap_cons, FieldDef.tagWarning?_eq]
    cases htag : b.2.isTagged with
    | false => exact ih
    | true =>
      cases hagg : b.2.aggregate with
      | none => simp [FieldDef.isTagged, hagg] at htag
      | some a =>
        cases a with
        | op o => simp [FieldDef.isTagged, FieldDef.op?, Aggregate.op?, hagg] at htag
        | composite tag => exact .cons ⟨tag, hagg, rfl⟩ ih

/-! ### Extracting again -/

theorem extract_extract : e.extract.encoding.extract.encoding = e.extract.encoding := by
  rw [encoding_extract e.extract.encoding, encoding_extract]
  refine OrderedMap.ext ?_
  have hrenamed : FieldDef.renamed ∘ FieldDef.renamed = FieldDef.renamed := funext FieldDef.renamed_renamed
  simp only [OrderedMap.entries_mapValues, List.map_map, Function.comp_def, ChannelDef.mapFields_mapFields]
  simp only [← Function.comp_def, hrenamed]

theorem filterMap_extract_eq_nil {α : Type} {read : FieldDef → Option α} (h : ∀ d : FieldDef, read d.renamed = none) :
    e.extract.encoding.defs.filterMap read = [] := by
  rw [defs_extract, List.filterMap_map, List.filterMap_eq_nil_iff]
  exact fun d _ => h d

theorem extractWarnings_extract (mark : String) : e.extract.encoding.extractWarnings mark = [] := by
  rw [extractWarnings, List.flatMap_eq_nil_iff]
  intro b hb
  rw [encoding_extract, OrderedMap.entries_mapValues] at hb
  obtain ⟨b, -, rfl⟩ := List.mem_map.1 hb
  rw [ChannelDef.fieldDefs_mapFields, List.filterMap_map, List.filterMap_eq_nil_iff]
  exact fun d _ => d.tagWarning?_renamed b.1 mark

/-- **Extraction accounts for every definition.** The channels stay, in their order, and so do constants. Each definition
becomes one column of the aggregate, if it has an operation, or else one key of the groups, in the order of the definitions,
and is left as a reference to it that is continuous exactly if it was. There is one warning for each aggregate that is no
operation. From what is left nothing more is extracted. -/
theorem extract_accounts (mark : String) :
    (e.extract.encoding.channels = e.channels ∧
      (∀ c v, e.extract.encoding.get? c = some (.value v) ↔ e.get? c = some (.value v)) ∧
      ∀ c, e.extract.encoding.get? c = (e.get? c).map (ChannelDef.mapFields FieldDef.renamed)) ∧
    (e.extract.aggregate = e.defs.filterMap (·.entry.getLeft?) ∧
      e.extract.groupby = e.defs.filterMap (·.entry.getRight?) ∧
      List.Forall₂ (fun b w => ∃ tag, b.2.aggregate = some (.composite tag) ∧ w = .foreignAggregate b.1 tag mark)
        (e.bindings.filter (·.2.isTagged)) (e.extractWarnings mark)) ∧
    (∀ d ∈ e.defs, (d.entry.isLeft = true ↔ d.op?.isSome = true) ∧
      (∃ name, d.entry.elim (·.as) id = name ∧ d.renamed.field = some name ∧ d.renamed.column? = some name) ∧
      d.renamed.isContinuous = d.isContinuous) ∧
    e.extract.encoding.extract.bins = [] ∧ e.extract.encoding.extract.timeUnits = [] ∧
      e.extract.encoding.extract.aggregate = [] ∧ (∀ mark', e.extract.encoding.extractWarnings mark' = []) ∧
      e.extract.encoding.extract.encoding = e.extract.encoding := by
  refine ⟨⟨e.channels_extract, fun _ _ => e.value_extract_iff, e.get?_extract⟩,
    ⟨e.aggregate_extract, e.groupby_extract, e.forall₂_extractWarnings mark⟩, fun d _ => ⟨?_, ?_, ?_⟩, ?_, ?_, ?_,
    e.extractWarnings_extract, e.extract_extract⟩
  · rw [d.isLeft_entry]
  · exact ⟨d.entryName, d.elim_entry, d.field_renamed, d.column?_renamed⟩
  · exact d.isContinuous_renamed
  · rw [bins_extract]
    exact e.filterMap_extract_eq_nil FieldDef.binStage?_renamed
  · rw [timeUnits_extract]
    exact e.filterMap_extract_eq_nil FieldDef.timeUnitStage?_renamed
  · rw [aggregate_extract]
    simp only [FieldDef.getLeft?_entry]
    exact e.filterMap_extract_eq_nil FieldDef.aggregateColumn?_renamed

end Encoding

end ChartNormal
