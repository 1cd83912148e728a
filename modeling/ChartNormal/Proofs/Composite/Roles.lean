import ChartNormal.Proofs.Composite.Columns
import ChartNormal.Proofs.Readback.Encoding

/-!
# What a definition is extracted to

The name of a derived column is a label, an underscore and the name of a field. Labels and fields may hold underscores
themselves, and `Column.derived_eq_derived_iff` says which pairs of them make the same name. `FieldDef.role` is what a
definition becomes in the pipeline of a composite mark: a key of the groups, with or without a stage before it, or a
column of the aggregate. Everything that is extracted from an encoding is read off the roles of its definitions
(`mem_written_extract`, `mem_groupby_iff`).
-/

namespace ChartNormal

/-! ### Labels and fields -/

namespace Column

/-- The label `a` before `f` makes the same name as the label `b` before `g`: they are the same, or one label goes on into
the field of the other. -/
def ReadsAs (a f b g : String) : Prop :=
  (a = b ∧ f = g) ∨ (∃ rest, b = derived a rest ∧ f = derived rest g) ∨ ∃ rest, a = derived b rest ∧ g = derived rest f

theorem toList_derived (a f : String) : (derived a f).toList = a.toList ++ '_' :: f.toList := by
  simp [derived]

theorem derived_eq_derived_iff {a f b g : String} : derived a f = derived b g ↔ ReadsAs a f b g := by
  simp only [ReadsAs, ← String.toList_inj, toList_derived]
  constructor
  · intro h
    -- the shorter label ends at an underscore of the longer one, or both end at the same
    rcases List.append_eq_append_iff.1 h with ⟨cut, hb, hf⟩ | ⟨cut, ha, hg⟩
    · cases cut with
      | nil =>
        simp only [List.append_nil, List.nil_append, List.cons.injEq, true_and] at hb hf
        exact .inl ⟨hb.symm, hf⟩
      | cons c cut =>
        obtain ⟨rfl, hf⟩ := List.cons.inj hf
        exact .inr (.inl ⟨String.ofList cut, by simpa using hb, by simpa using hf⟩)
    · cases cut with
      | nil =>
        simp only [List.append_nil, List.nil_append, List.cons.injEq, true_and] at ha hg
        exact .inl ⟨ha, hg.symm⟩
      | cons c cut =>
        obtain ⟨rfl, hg⟩ := List.cons.inj hg
        exact .inr (.inr ⟨String.ofList cut, by simpa using ha, by simpa using hg⟩)
  · rintro (⟨ha, hf⟩ | ⟨rest, hb, hf⟩ | ⟨rest, ha, hg⟩)
    · rw [ha, hf]
    · simp [hb, hf]
    · simp [ha, hg]

theorem underscore_mem_derived (a f : String) : '_' ∈ (derived a f).toList := by
  simp [toList_derived]

theorem derived_ne_empty (a f : String) : derived a f ≠ "" := by
  intro h
  have hmem := underscore_mem_derived a f
  simp [h] at hmem

/-- Labels without an underscore tell their columns apart. -/
theorem eq_of_derived_eq {a f b g : String} (ha : '_' ∉ a.toList) (hb : '_' ∉ b.toList) (h : derived a f = derived b g) :
    a = b ∧ f = g := by
  rcases derived_eq_derived_iff.1 h with h | ⟨rest, rfl, -⟩ | ⟨rest, rfl, -⟩
  · exact h
  · exact absurd (underscore_mem_derived a rest) hb
  · exact absurd (underscore_mem_derived b rest) ha

end Column

theorem AggregateOp.name_clean (o : AggregateOp) : '_' ∉ o.name.toList := by cases o <;> decide

theorem AggregateOp.name_injective : Function.Injective AggregateOp.name := by
  intro o o' h
  have hread := o.ofName?_name
  rw [h, o'.ofName?_name] at hread
  exact (Option.some.inj hread).symm

theorem AggregateOp.name_ne_bin (o : AggregateOp) : o.name ≠ "bin" := by cases o <;> decide

namespace Bin

theorem word_cases (b : Bin) : b.word = "bin" ∨ ∃ rest, b.word = Column.derived "bin" rest := by
  cases b with
  | flag on => exact .inl rfl
  | binned => exact .inl rfl
  | params p =>
    cases hp : p.entries with
    | nil => exact .inl (by simp [word, hp])
    | cons e rest =>
      -- the word begins with the underscore before the first parameter
      refine .inr ⟨Column.variableName (e.1 ++ "_" ++ paramText e.2) ++
        String.join (rest.map fun e => Column.variableName ("_" ++ e.1 ++ "_" ++ paramText e.2)), ?_⟩
      rw [← String.toList_inj, Column.toList_derived]
      simp [word, hp, Column.variableName]

theorem derived_word (b : Bin) (f : String) : ∃ rest, Column.derived b.word f = Column.derived "bin" rest := by
  rcases b.word_cases with h | ⟨rest, h⟩
  · exact ⟨f, by rw [h]⟩
  · exact ⟨Column.derived rest f, by rw [h]; exact Column.derived_eq_derived_iff.2 (.inr (.inr ⟨rest, rfl, rfl⟩))⟩

/-- No label without an underscore makes the name of a binned column, unless it is the word itself. -/
theorem derived_word_ne {a : String} (ha : '_' ∉ a.toList) (hbin : a ≠ "bin") (b : Bin) (f g : String) :
    Column.derived b.word f ≠ Column.derived a g := by
  intro h
  obtain ⟨rest, hrest⟩ := b.derived_word f
  exact hbin (Column.eq_of_derived_eq ha (by decide) (h.symm.trans hrest)).1

end Bin

/-! ### Roles -/

/-- What a column is computed from. -/
inductive Computation where
  | bin (bin : Bin) (field : String)
  | timeUnit (unit field : String)
  | aggregate (op : AggregateOp) (field : Option String)
  | calculate (expression : String)
deriving DecidableEq

/-- What a definition becomes in the pipeline. -/
inductive Role where
  /-- Bins of a field that are grouped by. -/
  | bin (bin : Bin) (field : String)
  /-- A time unit of a field that is grouped by. -/
  | timeUnit (unit field : String)
  /-- A field that is grouped by as it is. -/
  | key (field : String)
  /-- No field, and grouped by all the same. -/
  | blank
  | op (op : AggregateOp) (field : String)
  /-- An operation on a field that asks for bins too. The column is named after the bins. -/
  | binnedOp (bin : Bin) (op : AggregateOp) (field : String)
  /-- The count of rows. -/
  | rows
  /-- Another operation without a field. -/
  | blankOp (op : AggregateOp)
deriving DecidableEq

namespace Role

/-- The label and the field that the name of the column is made of. -/
def label? : Role → Option (String × String)
  | bin b f | binnedOp b _ f => some (b.word, f)
  | timeUnit t f => some (t, f)
  | op o f => some (o.name, f)
  | rows => some ("count", "*")
  | key _ | blank | blankOp _ => none

def column : Role → String
  | bin b f | binnedOp b _ f => Column.derived b.word f
  | timeUnit t f => Column.derived t f
  | key f => f
  | op o f => Column.derived o.name f
  | rows => Column.count
  | blank | blankOp _ => ""

def computation? : Role → Option Computation
  | bin b f => some (.bin b f)
  | timeUnit t f => some (.timeUnit t f)
  | op o f | binnedOp _ o f => some (.aggregate o (some f))
  | rows => some (.aggregate .count none)
  | blankOp o => some (.aggregate o none)
  | key _ | blank => none

/-- The column is grouped by. -/
def isKey : Role → Bool
  | bin _ _ | timeUnit _ _ | key _ | blank => true
  | op _ _ | binnedOp _ _ _ | rows | blankOp _ => false

theorem column_of_label? {ρ : Role} {a f : String} (h : ρ.label? = some (a, f)) : ρ.column = Column.derived a f := by
  cases ρ <;> cases h <;> rfl

end Role

namespace FieldDef

def role (d : FieldDef) : Role :=
  match d.op?, d.field, d.pendingBin?, d.timeUnit with
  | none, none, _, _ => .blank
  | none, some f, some b, _ => .bin b f
  | none, some f, none, some t => .timeUnit t f
  | none, some f, none, none => .key f
  | some .count, none, _, _ => .rows
  | some o, none, _, _ => .blankOp o
  | some o, some f, some b, _ => .binnedOp b o f
  | some o, some f, none, _ => .op o f

theorem field_withoutTag (d : FieldDef) : d.withoutTag.field = d.field := rfl

theorem pendingBin?_withoutTag (d : FieldDef) : d.withoutTag.pendingBin? = d.pendingBin? := rfl

theorem timeUnit_withoutTag (d : FieldDef) : d.withoutTag.timeUnit = d.timeUnit := rfl

theorem op?_withoutTag (d : FieldDef) : d.withoutTag.op? = d.op? := by
  rw [op?, withoutTag]
  cases d.op? <;> rfl

theorem outputName_withoutTag (d : FieldDef) : d.withoutTag.outputName = d.role.column := by
  have haggregate : d.withoutTag.aggregate = d.op?.map .op := rfl
  rw [outputName, output?, columnBy?, isCount, pendingBin?_withoutTag, field_withoutTag, timeUnit_withoutTag, haggregate,
    role]
  cases d.op? with
  | none => cases d.field <;> cases d.pendingBin? <;> cases d.timeUnit <;> rfl
  | some o => cases o <;> cases d.field <;> cases d.pendingBin? <;> rfl

theorem groupKey?_withoutTag (d : FieldDef) :
    d.withoutTag.groupKey? = if d.role.isKey then some d.role.column else none := by
  rw [groupKey?, op?_withoutTag, outputName_withoutTag, role]
  cases d.op? with
  | none => cases d.field <;> cases d.pendingBin? <;> cases d.timeUnit <;> rfl
  | some o => cases o <;> cases d.field <;> cases d.pendingBin? <;> rfl

theorem binStage?_withoutTag (d : FieldDef) :
    d.withoutTag.binStage? =
      match d.role with
      | .bin b f => some ⟨b, f, d.role.column⟩
      | _ => none := by
  rw [binStage?, op?_withoutTag, outputName_withoutTag, pendingBin?_withoutTag, field_withoutTag, role]
  cases d.op? with
  | none => cases d.field <;> cases d.pendingBin? <;> cases d.timeUnit <;> rfl
  | some o => cases o <;> cases d.field <;> cases d.pendingBin? <;> rfl

theorem timeUnitStage?_withoutTag (d : FieldDef) :
    d.withoutTag.timeUnitStage? =
      match d.role with
      | .timeUnit t f => some ⟨t, f, d.role.column⟩
      | _ => none := by
  rw [timeUnitStage?, op?_withoutTag, outputName_withoutTag, pendingBin?_withoutTag, timeUnit_withoutTag,
    field_withoutTag, role]
  cases d.op? with
  | none => cases d.field <;> cases d.pendingBin? <;> cases d.timeUnit <;> rfl
  | some o => cases o <;> cases d.field <;> cases d.pendingBin? <;> rfl

theorem aggregateColumn?_withoutTag (d : FieldDef) :
    d.withoutTag.aggregateColumn? =
      match d.role.computation? with
      | some (.aggregate o f) => some ⟨o, f, d.role.column⟩
      | _ => none := by
  rw [aggregateColumn?, op?_withoutTag, outputName_withoutTag, field_withoutTag, role]
  cases d.op? with
  | none => cases d.field <;> cases d.pendingBin? <;> cases d.timeUnit <;> rfl
  | some o => cases o <;> cases d.field <;> cases d.pendingBin? <;> rfl

end FieldDef

/-! ### Extraction -/

namespace Encoding

def roles (e : Encoding) : List Role := (e.entries.flatMap fun b => b.2.fieldDefs).map FieldDef.role

variable {e : Encoding}

theorem defs_withoutTag (e : Encoding) :
    ((e.mapValues fun _ d => d.mapFields FieldDef.withoutTag).entries.flatMap fun b => b.2.fieldDefs) =
      (e.entries.flatMap fun b => b.2.fieldDefs).map FieldDef.withoutTag := by
  rw [OrderedMap.entries_mapValues, List.flatMap_map, List.map_flatMap]
  simp only [ChannelDef.fieldDefs_mapFields]

/-- Of what is extracted by `read`, something has a property: then it is extracted from one of the definitions. -/
theorem exists_extracted_iff {α : Type} (read : FieldDef → Option α) (P : α → Prop) :
    (∃ a ∈ ((e.mapValues fun _ d => d.mapFields FieldDef.withoutTag).entries.flatMap fun b => b.2.fieldDefs).filterMap
        read, P a) ↔
      ∃ d ∈ e.entries.flatMap (fun b => b.2.fieldDefs), ∃ a, read d.withoutTag = some a ∧ P a := by
  simp only [defs_withoutTag, List.mem_filterMap, List.mem_map, exists_exists_and_eq_and]
  constructor
  · rintro ⟨a, ⟨d, hd, ha⟩, h⟩
    exact ⟨d, hd, a, ha, h⟩
  · rintro ⟨d, hd, a, ha, h⟩
    exact ⟨a, ⟨d, hd, ha⟩, h⟩

theorem mem_groupby_iff {name : String} :
    name ∈ e.extract.groupby ↔ ∃ ρ ∈ e.roles, ρ.isKey = true ∧ ρ.column = name := by
  have h := exists_extracted_iff (e := e) FieldDef.groupKey? (· = name)
  simp only [exists_eq_right, FieldDef.groupKey?_withoutTag, Option.ite_none_right_eq_some, Option.some.injEq] at h
  simpa only [extract, roles, List.mem_map, exists_exists_and_eq_and] using h

theorem mem_aggregate_iff {name : String} :
    name ∈ e.extract.aggregate.map (·.as) ↔ ∃ ρ ∈ e.roles, ρ.isKey = false ∧ ρ.column = name := by
  have hrole (d : FieldDef) :
      (∃ c, d.withoutTag.aggregateColumn? = some c ∧ c.as = name) ↔ d.role.isKey = false ∧ d.role.column = name := by
    rw [FieldDef.aggregateColumn?_withoutTag]
    cases d.role <;> simp [Role.isKey, Role.computation?]
  have h := exists_extracted_iff (e := e) FieldDef.aggregateColumn? (·.as = name)
  simp only [hrole] at h
  simpa only [extract, roles, List.mem_map, exists_exists_and_eq_and] using h

end Encoding

/-- The columns that are written, each with what it is computed from. -/
def Extraction.written (x : Extraction) : List (String × Computation) :=
  x.bins.map (fun s => (s.as, .bin s.bin s.field)) ++ x.timeUnits.map (fun s => (s.as, .timeUnit s.timeUnit s.field)) ++
    x.aggregate.map fun c => (c.as, .aggregate c.op c.field)

theorem Encoding.mem_written_extract {e : Encoding} {name : String} {c : Computation} :
    (name, c) ∈ e.extract.written ↔ ∃ ρ ∈ e.roles, ρ.column = name ∧ ρ.computation? = some c := by
  have hrole (d : FieldDef) :
      (∃ s, d.withoutTag.binStage? = some s ∧ (s.as, Computation.bin s.bin s.field) = (name, c)) ∨
      (∃ s, d.withoutTag.timeUnitStage? = some s ∧ (s.as, Computation.timeUnit s.timeUnit s.field) = (name, c)) ∨
      (∃ a, d.withoutTag.aggregateColumn? = some a ∧ (a.as, Computation.aggregate a.op a.field) = (name, c)) ↔
      d.role.column = name ∧ d.role.computation? = some c := by
    rw [FieldDef.binStage?_withoutTag, FieldDef.timeUnitStage?_withoutTag, FieldDef.aggregateColumn?_withoutTag]
    cases d.role <;> simp [Role.computation?, Role.column]
  rw [Extraction.written, List.mem_append, List.mem_append, List.mem_map, List.mem_map, List.mem_map, or_assoc]
  simp only [extract]
  rw [exists_extracted_iff FieldDef.binStage?, exists_extracted_iff FieldDef.timeUnitStage?,
    exists_extracted_iff FieldDef.aggregateColumn?]
  simp only [← exists_or, ← and_or_left, hrole, roles, List.mem_map, exists_exists_and_eq_and]

end ChartNormal
