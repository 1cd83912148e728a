import ChartNormal.Proofs.Composite.Roles
import ChartNormal.Spec.Same

/-!
# Ambiguous columns

A pipeline is ambiguous when two of its stages compute different things under one name, or when an aggregated or calculated
column has the name of a key of the groups. Columns of operations and of the mark itself keep apart from each other and from
bins. What is left are the names that a user chooses freely, time units and fields that are grouped by as they are, bins
whose parameters spell alike, definitions with bins and an operation at once, and those without a field. `Role.Clashes` and
`Role.ClashesWith` list them, and `columns_unambiguous_iff` says that there are no others.
-/

namespace ChartNormal

/-! ### Ambiguity -/

/-- The same computation; the order in which the parameters of bins are given does not count. -/
inductive Computation.Same : Computation → Computation → Prop
  | refl (c : Computation) : Same c c
  | bin {b b' : Bin} {f : String} (h : b.same b' = true) : Same (.bin b f) (.bin b' f)

/-- The columns that a stage of an expansion writes, each with what it is computed from. -/
def Transform.writes : Transform → List (String × Computation)
  | .bin s => [(s.as, .bin s.bin s.field)]
  | .timeUnit s => [(s.as, .timeUnit s.timeUnit s.field)]
  | .aggregate columns _ => columns.map fun c => (c.as, .aggregate c.op c.field)
  | .calculate s => [(s.as, .calculate s.calculate)]
  | .stack .. | .impute .. | .other _ => []

structure Unambiguous (stages : List Transform) : Prop where
  /-- What is written under one name is computed in one way. -/
  computations : ∀ c ∈ stages.flatMap Transform.writes, ∀ c' ∈ stages.flatMap Transform.writes,
    c.1 = c'.1 → c.2.Same c'.2
  /-- No aggregated or calculated column has the name of a key. -/
  keys : ∀ columns groupby, .aggregate columns groupby ∈ stages → ∀ key ∈ groupby,
    key ∉ columns.map (·.as) ∧ ∀ s, .calculate s ∈ stages → s.as ≠ key

namespace Role

open Column

/-- Two definitions that make a pipeline ambiguous. -/
inductive Clashes : Role → Role → Prop
  /-- Bins of two fields, or with different parameters, under one name. -/
  | bins {b b' : Bin} {f f' : String} (h : ReadsAs b.word f b'.word f') (hne : f = f' → b ≠ b' ∧ b.same b' = false) :
      Clashes (.bin b f) (.bin b' f')
  /-- A time unit in the name of another column. -/
  | timeUnit {t f a g : String} {ρ : Role} (hρ : ρ.label? = some (a, g)) (hne : ρ ≠ .timeUnit t f)
      (h : ReadsAs t f a g) : Clashes (.timeUnit t f) ρ
  /-- A field that is grouped by and has the name of an aggregated column. -/
  | key {a g : String} {ρ : Role} (hρ : ρ.label? = some (a, g)) (hop : ρ.isKey = false) :
      Clashes (.key (derived a g)) ρ
  /-- An operation that writes under the name of bins. -/
  | binnedOp {b b' : Bin} {o : AggregateOp} {f f' : String} (h : ReadsAs b.word f b'.word f') :
      Clashes (.binnedOp b o f) (.bin b' f')
  | binnedOps {b b' : Bin} {o o' : AggregateOp} {f f' : String} (h : ReadsAs b.word f b'.word f')
      (hne : o = o' → f ≠ f') : Clashes (.binnedOp b o f) (.binnedOp b' o' f')
  /-- The count of rows and the count of a field named like it. -/
  | rows : Clashes .rows (.op .count "*")
  /-- An operation without a field, and a key without one. -/
  | blank {o : AggregateOp} : Clashes .blank (.blankOp o)
  | unnamed {o : AggregateOp} : Clashes (.key "") (.blankOp o)
  | blankOps {o o' : AggregateOp} (hne : o ≠ o') : Clashes (.blankOp o) (.blankOp o')

/-- A definition that makes a pipeline ambiguous together with a column of the mark itself. -/
inductive ClashesWith (names : List String) : Role → Prop
  | timeUnit {t f : String} (h : derived t f ∈ names) : ClashesWith names (.timeUnit t f)
  | key {f : String} (h : f ∈ names) : ClashesWith names (.key f)

/-- Two columns of one name that are computed differently. -/
def Differ (ρ ρ' : Role) : Prop :=
  ∃ c c', ρ.computation? = some c ∧ ρ'.computation? = some c' ∧ ρ.column = ρ'.column ∧ ¬ c.Same c'

/-- An aggregated column with the name of a key. -/
def Overwrites (ρ ρ' : Role) : Prop := ρ.isKey = true ∧ ρ'.isKey = false ∧ ρ.column = ρ'.column

variable {ρ ρ' : Role}

theorem Clashes.differ_or_overwrites (h : ρ.Clashes ρ') : ρ.Differ ρ' ∨ ρ.Overwrites ρ' := by
  cases h with
  | bins h hne =>
    refine .inl ⟨_, _, rfl, rfl, derived_eq_derived_iff.2 h, fun hsame => ?_⟩
    cases hsame with
    | refl => exact (hne rfl).1 rfl
    | bin hb => rw [(hne rfl).2] at hb; cases hb
  | timeUnit hρ hne h =>
    have hname := (derived_eq_derived_iff.2 h).trans (column_of_label? hρ).symm
    cases ρ' with
    | key | blank | blankOp => cases hρ
    | timeUnit t' f' =>
      refine .inl ⟨_, _, rfl, rfl, hname, fun hsame => ?_⟩
      cases hsame
      exact hne rfl
    | _ => exact .inl ⟨_, _, rfl, rfl, hname, nofun⟩
  | key hρ hop => exact .inr ⟨rfl, hop, (column_of_label? hρ).symm⟩
  | binnedOp h => exact .inl ⟨_, _, rfl, rfl, derived_eq_derived_iff.2 h, nofun⟩
  | binnedOps h hne =>
    refine .inl ⟨_, _, rfl, rfl, derived_eq_derived_iff.2 h, fun hsame => ?_⟩
    cases hsame
    exact hne rfl rfl
  | rows => exact .inl ⟨_, _, rfl, rfl, rfl, nofun⟩
  | blank => exact .inr ⟨rfl, rfl, rfl⟩
  | unnamed => exact .inr ⟨rfl, rfl, rfl⟩
  | blankOps hne =>
    refine .inl ⟨_, _, rfl, rfl, rfl, fun hsame => ?_⟩
    cases hsame
    exact hne rfl

theorem Clashes.column_eq (h : ρ.Clashes ρ') : ρ.column = ρ'.column := by
  rcases h.differ_or_overwrites with ⟨-, -, -, -, hname, -⟩ | ⟨-, -, hname⟩ <;> exact hname

theorem not_clashes_self (ρ : Role) : ¬ ρ.Clashes ρ := by
  intro h
  rcases h.differ_or_overwrites with ⟨c, c', hc, hc', -, hne⟩ | ⟨hkey, hop, -⟩
  · obtain rfl := Option.some.inj (hc.symm.trans hc')
    exact hne (.refl c)
  · rw [hkey] at hop
    cases hop

theorem not_clashes_of_nodup {ρs : List Role} (h : (ρs.map column).Nodup) (hρ : ρ ∈ ρs) (hρ' : ρ' ∈ ρs) :
    ¬ ρ.Clashes ρ' := by
  intro hclash
  obtain rfl := List.inj_on_of_nodup_map h hρ hρ' hclash.column_eq
  exact not_clashes_self ρ hclash

theorem ClashesWith.key_mem {names : List String} (h : ρ.ClashesWith names) : ρ.isKey = true ∧ ρ.column ∈ names := by
  cases h with
  | timeUnit h => exact ⟨rfl, h⟩
  | key h => exact ⟨rfl, h⟩

/-! ### Names that keep apart -/

/-- Only an operation that asks for bins too is named like bins. -/
theorem column_bin_ne {b : Bin} {f : String} (hop : ρ.isKey = false) (h : ∀ b o f, ρ ≠ .binnedOp b o f) :
    derived b.word f ≠ ρ.column := by
  cases ρ with
  | binnedOp b o f => exact absurd rfl (h b o f)
  | op o g => exact b.derived_word_ne o.name_clean o.name_ne_bin f g
  | rows => exact b.derived_word_ne (a := "count") (by decide) (by decide) f "*"
  | blankOp o => exact derived_ne_empty _ _
  | _ => cases hop

theorem label?_cases (hop : ρ.isKey = false) : (∃ a g, ρ.label? = some (a, g)) ∨ ∃ o, ρ = .blankOp o := by
  cases ρ with
  | blankOp o => exact .inr ⟨o, rfl⟩
  | op | binnedOp | rows => exact .inl ⟨_, _, rfl⟩
  | _ => cases hop

theorem clashes_of_overwrites (h : ρ.Overwrites ρ') : ρ.Clashes ρ' ∨ ρ'.Clashes ρ := by
  obtain ⟨hkey, hop, hname⟩ := h
  rcases label?_cases hop with ⟨a, g, hlabel⟩ | ⟨o, rfl⟩
  · have hcolumn := hname.trans (column_of_label? hlabel)
    cases ρ with
    | bin b f =>
      by_cases hbinned : ∃ b o f, ρ' = .binnedOp b o f
      · obtain ⟨b', o, f', rfl⟩ := hbinned
        exact .inr (.binnedOp (derived_eq_derived_iff.1 hname.symm))
      · refine absurd hname (column_bin_ne hop fun b o f h => hbinned ⟨b, o, f, h⟩)
    | timeUnit t f =>
      refine .inl (.timeUnit hlabel ?_ (derived_eq_derived_iff.1 hcolumn))
      rintro rfl
      cases hop
    | key f =>
      obtain rfl : f = derived a g := hcolumn
      exact .inl (.key hlabel hop)
    | blank => exact absurd hcolumn.symm (derived_ne_empty a g)
    | _ => cases hkey
  · cases ρ with
    | bin b f => exact absurd hname (derived_ne_empty _ _)
    | timeUnit t f => exact absurd hname (derived_ne_empty _ _)
    | key f =>
      obtain rfl : f = "" := hname
      exact .inl .unnamed
    | blank => exact .inl .blank
    | _ => cases hkey

/-- Operations without bins are told apart by their names. -/
theorem clashes_of_operations (hop : ρ.isKey = false) (hop' : ρ'.isKey = false) (hname : ρ.column = ρ'.column)
    (hne : ρ.computation? ≠ ρ'.computation?) : ρ.Clashes ρ' ∨ ρ'.Clashes ρ := by
  have hcount {o : AggregateOp} {f : String} (h : derived o.name f = Column.count) : o = .count ∧ f = "*" :=
    (eq_of_derived_eq (g := "*") o.name_clean (AggregateOp.name_clean .count) h).imp_left
      fun h => AggregateOp.name_injective h
  cases ρ with
  | binnedOp b o f =>
    cases ρ' with
    | binnedOp b' o' f' =>
      refine .inl (.binnedOps (derived_eq_derived_iff.1 hname) ?_)
      rintro rfl rfl
      exact hne rfl
    | _ => exact absurd hname (column_bin_ne hop' fun _ _ _ => nofun)
  | op o f =>
    cases ρ' with
    | binnedOp b' o' f' => exact absurd hname.symm (column_bin_ne hop fun _ _ _ => nofun)
    | op o' f' =>
      obtain ⟨ho, rfl⟩ := eq_of_derived_eq o.name_clean o'.name_clean hname
      obtain rfl := AggregateOp.name_injective ho
      exact absurd rfl hne
    | rows =>
      obtain ⟨rfl, rfl⟩ := hcount hname
      exact .inr .rows
    | blankOp o' => exact absurd hname (derived_ne_empty _ _)
    | _ => cases hop'
  | rows =>
    cases ρ' with
    | binnedOp b' o' f' => exact absurd hname.symm (column_bin_ne hop fun _ _ _ => nofun)
    | op o' f' =>
      obtain ⟨rfl, rfl⟩ := hcount hname.symm
      exact .inl .rows
    | rows => exact absurd rfl hne
    | blankOp o' => exact absurd hname (derived_ne_empty "count" "*")
    | _ => cases hop'
  | blankOp o =>
    cases ρ' with
    | blankOp o' =>
      refine .inl (.blankOps ?_)
      rintro rfl
      exact hne rfl
    | binnedOp b' o' f' => exact absurd hname.symm (derived_ne_empty _ _)
    | op o' f' => exact absurd hname.symm (derived_ne_empty _ _)
    | rows => exact absurd hname.symm (derived_ne_empty "count" "*")
    | _ => cases hop'
  | _ => cases hop

/-- Among the stages before the aggregate, time units may clash with all, and bins with each other. -/
theorem clashes_of_stages (hkey : ρ.isKey = true) (hkey' : ρ'.isKey = true) (h : ρ.Differ ρ') :
    ρ.Clashes ρ' ∨ ρ'.Clashes ρ := by
  obtain ⟨c, c', hc, hc', hname, hne⟩ := h
  cases ρ with
  | bin b f =>
    obtain rfl := Option.some.inj hc
    cases ρ' with
    | bin b' f' =>
      obtain rfl := Option.some.inj hc'
      refine .inl (.bins (derived_eq_derived_iff.1 hname) ?_)
      rintro rfl
      refine ⟨?_, Bool.eq_false_iff.2 fun hsame => hne (.bin hsame)⟩
      rintro rfl
      exact hne (.refl _)
    | timeUnit t' f' => exact .inr (.timeUnit rfl nofun (derived_eq_derived_iff.1 hname.symm))
    | key | blank => cases hc'
    | _ => cases hkey'
  | timeUnit t f =>
    obtain rfl := Option.some.inj hc
    cases ρ' with
    | bin b' f' => exact .inl (.timeUnit rfl nofun (derived_eq_derived_iff.1 hname))
    | timeUnit t' f' =>
      obtain rfl := Option.some.inj hc'
      refine .inl (.timeUnit rfl ?_ (derived_eq_derived_iff.1 hname))
      intro heq
      cases heq
      exact hne (.refl _)
    | key | blank => cases hc'
    | _ => cases hkey'
  | key | blank => cases hc
  | _ => cases hkey

theorem clashes_of_differ (h : ρ.Differ ρ') : ρ.Clashes ρ' ∨ ρ'.Clashes ρ := by
  have hdiffer := h
  obtain ⟨c, c', hc, hc', hname, hne⟩ := h
  cases hkey : ρ.isKey with
  | true =>
    cases hkey' : ρ'.isKey with
    | true => exact clashes_of_stages hkey hkey' hdiffer
    | false => exact clashes_of_overwrites ⟨hkey, hkey', hname⟩
  | false =>
    cases hkey' : ρ'.isKey with
    | true => exact (clashes_of_overwrites ⟨hkey', hkey, hname.symm⟩).symm
    | false =>
      refine clashes_of_operations hkey hkey' hname fun heq => hne ?_
      obtain rfl := Option.some.inj (hc.symm.trans (heq.trans hc'))
      exact .refl c

end Role

namespace Composite

open Column

/-! ### Columns of the mark itself -/

/-- The columns that a mark aggregates and calculates on its own. -/
def own (columns : List AggregateColumn) (calculates : List CalculateStage) : List (String × Computation) :=
  columns.map (fun c => (c.as, .aggregate c.op c.field)) ++ calculates.map fun s => (s.as, .calculate s.calculate)

/-- The labels of such columns. -/
def stems : List String :=
  ["lowerBox", "upperBox", "midBox", "lowerWhisker", "upperWhisker", "min", "max", "iqrRange", "center", "extent", "lower",
    "upper"]

theorem stem_clean {stem : String} (h : stem ∈ stems) : '_' ∉ stem.toList ∧ stem ≠ "bin" ∧ stem ≠ "count" := by
  revert stem
  decide

/-- Each column of the mark is named by a stem before the field of the axis, no two alike, and the smallest and the largest
value are what operations of these names compute. -/
structure OwnColumns (field : String) (cs : List (String × Computation)) : Prop where
  labels : ∃ labels : List String, cs.map Prod.fst = labels.map (derived · field) ∧ labels.Nodup ∧ labels ⊆ stems
  operation : ∀ c ∈ cs, ∀ o : AggregateOp, c.1 = derived o.name field → c.2 = .aggregate o (some field)

theorem op_of_stem {o : AggregateOp} (h : o.name ∈ stems) : o = .min ∨ o = .max := by
  cases o <;> revert h <;> decide

theorem OwnColumns.of_labels {field : String} (cs : List (String × Computation)) (hnodup : (cs.map Prod.fst).Nodup)
    (hstems : cs.map Prod.fst ⊆ stems) (hmin : ∀ c, ("min", c) ∈ cs → c = .aggregate .min (some field))
    (hmax : ∀ c, ("max", c) ∈ cs → c = .aggregate .max (some field)) :
    OwnColumns field (cs.map fun c => (derived c.1 field, c.2)) := by
  refine ⟨⟨cs.map Prod.fst, by simp [Function.comp_def], hnodup, hstems⟩, fun c hc o h => ?_⟩
  obtain ⟨⟨stem, c⟩, hmem, rfl⟩ := List.mem_map.1 hc
  have hstem : stem ∈ stems := hstems (List.mem_map_of_mem (f := Prod.fst) hmem)
  obtain ⟨rfl, -⟩ := eq_of_derived_eq (stem_clean hstem).1 o.name_clean h
  rcases op_of_stem hstem with rfl | rfl
  · exact hmin c hmem
  · exact hmax c hmem

theorem ownColumns_boxPlot (field : String) (w : BoxPlot.Whisker) :
    OwnColumns field (own (BoxPlot.columns field w) (BoxPlot.calculates field w)) := by
  cases w with
  | minMax =>
    exact .of_labels [("lowerBox", _), ("upperBox", _), ("midBox", _), ("lowerWhisker", _), ("upperWhisker", _)]
      (by simp) (by simp [stems]) (by simp) (by simp)
  | iqr k =>
    exact .of_labels [("lowerBox", _), ("upperBox", _), ("midBox", _), ("min", _), ("max", _), ("iqrRange", _),
      ("upperWhisker", _), ("lowerWhisker", _)] (by simp) (by simp [stems]) (by simp [BoxPlot.column])
      (by simp [BoxPlot.column])

theorem ownColumns_interval (i : Interval) (field : String) (needsCenter : Bool) :
    OwnColumns field (own (i.columns field needsCenter) (i.calculates field)) := by
  obtain ⟨center, extent⟩ := i
  cases extent with
  | stderr | stdev =>
    exact .of_labels [("center", _), ("extent", _), ("upper", _), ("lower", _)]
      (by simp) (by simp [stems]) (by simp) (by simp)
  | ci | iqr =>
    cases needsCenter with
    | false => exact .of_labels [("lower", _), ("upper", _)] (by simp) (by simp [stems]) (by simp) (by simp)
    | true => exact .of_labels [("center", _), ("lower", _), ("upper", _)] (by simp) (by simp [stems]) (by simp) (by simp)

theorem Recipe.ownColumns {r : Recipe} (hr : r ∈ Recipe.all) (p : Composite) (config : Config) :
    OwnColumns p.axis.field (own (r.columns p config) (r.calculates p config)) := by
  rcases Recipe.mem_all_iff.1 hr with rfl | rfl | rfl
  · exact ownColumns_boxPlot p.axis.field (BoxPlot.whisker p.mark config)
  · exact ownColumns_interval (barInterval p config) p.axis.field _
  · exact ownColumns_interval (bandInterval p config) p.axis.field false

section Own

variable {field : String} {cs : List (String × Computation)} (hcs : OwnColumns field cs) {ρ : Role}

include hcs

theorem exists_stem {c : String × Computation} (hc : c ∈ cs) : ∃ stem ∈ stems, c.1 = derived stem field := by
  obtain ⟨labels, hlabels, -, hsub⟩ := hcs.labels
  obtain ⟨stem, hstem, h⟩ := List.mem_map.1 (hlabels ▸ List.mem_map_of_mem (f := Prod.fst) hc)
  exact ⟨stem, hsub hstem, h.symm⟩

/-- One name, one column. -/
theorem own_eq_of_name_eq {c c' : String × Computation} (hc : c ∈ cs) (hc' : c' ∈ cs) (h : c.1 = c'.1) : c = c' := by
  obtain ⟨labels, hlabels, hnodup, -⟩ := hcs.labels
  have hinj : Function.Injective (derived · field) := by
    intro a b hab
    have hlist := congrArg String.toList hab
    simp only [toList_derived] at hlist
    exact String.toList_inj.1 (List.append_cancel_right hlist)
  exact List.inj_on_of_nodup_map (hlabels ▸ hnodup.map hinj) hc hc' h

/-- A role in the name of one of the columns is a time unit, a key, or the operation that computes the column. -/
theorem role_of_own {c : String × Computation} (hc : c ∈ cs) (hname : ρ.column = c.1) :
    ρ.ClashesWith (cs.map Prod.fst) ∨ ρ.isKey = false ∧ ρ.computation? = some c.2 := by
  obtain ⟨stem, hstem, hc₁⟩ := exists_stem hcs hc
  obtain ⟨hclean, hbin, hcount⟩ := stem_clean hstem
  have hmem : ρ.column ∈ cs.map Prod.fst := hname ▸ List.mem_map_of_mem hc
  have hcolumn := hname.trans hc₁
  cases ρ with
  | bin b f => exact absurd hcolumn (b.derived_word_ne hclean hbin f field)
  | timeUnit t f => exact .inl (.timeUnit hmem)
  | key f => exact .inl (.key hmem)
  | blank => exact absurd hcolumn.symm (derived_ne_empty _ _)
  | op o f =>
    obtain ⟨-, rfl⟩ := eq_of_derived_eq o.name_clean hclean hcolumn
    exact .inr ⟨rfl, congrArg some (hcs.operation c hc o hname.symm).symm⟩
  | binnedOp b o f => exact absurd hcolumn (b.derived_word_ne hclean hbin f field)
  | rows => exact absurd (eq_of_derived_eq (a := "count") (f := "*") (by decide) hclean hcolumn).1.symm hcount
  | blankOp o => exact absurd hcolumn.symm (derived_ne_empty _ _)

end Own

/-! ### The pipeline -/

section Pipeline

variable {p : Composite} {columns : List AggregateColumn} {calculates : List CalculateStage}

theorem writes_pipeline :
    (p.pipeline [] columns calculates).flatMap Transform.writes = p.extraction.written ++ own columns calculates := by
  simp [pipeline, Extraction.written, own, Transform.writes, List.flatMap_map, ← List.map_eq_flatMap]

theorem aggregate_mem_pipeline {cs : List AggregateColumn} {groupby : List String} :
    .aggregate cs groupby ∈ p.pipeline [] columns calculates ↔
      cs = p.extraction.aggregate ++ columns ∧ groupby = p.extraction.groupby := by
  simp [pipeline]

theorem calculate_mem_pipeline {s : CalculateStage} :
    .calculate s ∈ p.pipeline [] columns calculates ↔ s ∈ calculates := by
  simp [pipeline]

theorem unambiguous_pipeline_iff :
    Unambiguous (p.pipeline [] columns calculates) ↔
      (∀ c ∈ p.extraction.written ++ own columns calculates, ∀ c' ∈ p.extraction.written ++ own columns calculates,
        c.1 = c'.1 → c.2.Same c'.2) ∧
      ∀ key ∈ p.extraction.groupby,
        key ∉ p.extraction.aggregate.map (·.as) ∧ key ∉ (own columns calculates).map Prod.fst := by
  have hown (key : String) : key ∉ (own columns calculates).map Prod.fst ↔
      key ∉ columns.map (·.as) ∧ ∀ s ∈ calculates, s.as ≠ key := by
    simp [own, Function.comp_def]
  constructor
  · rintro ⟨hcomputations, hkeys⟩
    rw [writes_pipeline] at hcomputations
    refine ⟨hcomputations, fun key hkey => ?_⟩
    obtain ⟨hcolumns, hcalculates⟩ := hkeys _ _ (aggregate_mem_pipeline.2 ⟨rfl, rfl⟩) key hkey
    rw [List.map_append, List.mem_append, not_or] at hcolumns
    exact ⟨hcolumns.1, (hown key).2 ⟨hcolumns.2, fun s hs => hcalculates s (calculate_mem_pipeline.2 hs)⟩⟩
  · rintro ⟨hcomputations, hkeys⟩
    rw [← writes_pipeline] at hcomputations
    refine ⟨hcomputations, fun cs groupby hmem key hkey => ?_⟩
    obtain ⟨rfl, rfl⟩ := aggregate_mem_pipeline.1 hmem
    obtain ⟨haggregate, hnames⟩ := hkeys key hkey
    obtain ⟨hcolumns, hcalculates⟩ := (hown key).1 hnames
    rw [List.map_append, List.mem_append, not_or]
    exact ⟨⟨haggregate, hcolumns⟩, fun s hs => hcalculates s (calculate_mem_pipeline.1 hs)⟩

variable {e : Encoding} (hp : p.extraction = e.extract) {field : String}
  (hown : OwnColumns field (own columns calculates))

include hp

theorem clashFree_of_unambiguous (h : Unambiguous (p.pipeline [] columns calculates)) :
    (∀ ρ ∈ e.roles, ∀ ρ' ∈ e.roles, ¬ ρ.Clashes ρ') ∧
      ∀ ρ ∈ e.roles, ¬ ρ.ClashesWith ((own columns calculates).map Prod.fst) := by
  obtain ⟨hcomputations, hkeys⟩ := unambiguous_pipeline_iff.1 h
  rw [hp] at hcomputations hkeys
  refine ⟨fun ρ hρ ρ' hρ' hclash => ?_, fun ρ hρ hclash => ?_⟩
  · rcases hclash.differ_or_overwrites with ⟨c, c', hc, hc', hname, hne⟩ | ⟨hkey, hop, hname⟩
    · have hmem := List.mem_append_left (own columns calculates) (Encoding.mem_written_extract.2 ⟨ρ, hρ, rfl, hc⟩)
      have hmem' := List.mem_append_left (own columns calculates) (Encoding.mem_written_extract.2 ⟨ρ', hρ', rfl, hc'⟩)
      exact hne (hcomputations _ hmem _ hmem' hname)
    · have haggregate := Encoding.mem_aggregate_iff.2 ⟨ρ', hρ', hop, hname.symm⟩
      exact (hkeys _ (Encoding.mem_groupby_iff.2 ⟨ρ, hρ, hkey, rfl⟩)).1 haggregate
  · obtain ⟨hkey, hmem⟩ := hclash.key_mem
    exact (hkeys _ (Encoding.mem_groupby_iff.2 ⟨ρ, hρ, hkey, rfl⟩)).2 hmem

include hown

theorem unambiguous_of_clashFree (hroles : ∀ ρ ∈ e.roles, ∀ ρ' ∈ e.roles, ¬ ρ.Clashes ρ')
    (hnames : ∀ ρ ∈ e.roles, ¬ ρ.ClashesWith ((own columns calculates).map Prod.fst)) :
    Unambiguous (p.pipeline [] columns calculates) := by
  have hfree {ρ ρ' : Role} (hρ : ρ ∈ e.roles) (hρ' : ρ' ∈ e.roles) : ¬ (ρ.Clashes ρ' ∨ ρ'.Clashes ρ) :=
    not_or.2 ⟨hroles ρ hρ ρ' hρ', hroles ρ' hρ' ρ hρ⟩
  -- a definition that shares its column with the mark computes the same
  have hshared {ρ : Role} (hρ : ρ ∈ e.roles) {c : String × Computation} (hc : c ∈ own columns calculates)
      (hname : ρ.column = c.1) : ρ.isKey = false ∧ ρ.computation? = some c.2 :=
    (role_of_own hown hc hname).resolve_left (hnames ρ hρ)
  rw [unambiguous_pipeline_iff, hp]
  refine ⟨?_, fun key hmem => ?_⟩
  · rintro ⟨name, c⟩ hc ⟨name', c'⟩ hc' (rfl : name = name')
    rcases List.mem_append.1 hc with hc | hc
    · obtain ⟨ρ, hρ, hname, hcomp⟩ := Encoding.mem_written_extract.1 hc
      rcases List.mem_append.1 hc' with hc' | hc'
      · obtain ⟨ρ', hρ', hname', hcomp'⟩ := Encoding.mem_written_extract.1 hc'
        by_contra hne
        have hdiffer : ρ.Differ ρ' := ⟨c, c', hcomp, hcomp', hname.trans hname'.symm, hne⟩
        exact hfree hρ hρ' (Role.clashes_of_differ hdiffer)
      · obtain rfl : c = c' := Option.some.inj (hcomp.symm.trans (hshared hρ hc' hname).2)
        exact .refl c
    · rcases List.mem_append.1 hc' with hc' | hc'
      · obtain ⟨ρ', hρ', hname', hcomp'⟩ := Encoding.mem_written_extract.1 hc'
        obtain rfl : c' = c := Option.some.inj (hcomp'.symm.trans (hshared hρ' hc hname').2)
        exact .refl c'
      · obtain rfl : c = c' := congrArg Prod.snd (own_eq_of_name_eq hown hc hc' rfl)
        exact .refl c
  · obtain ⟨ρ, hρ, hkey, rfl⟩ := Encoding.mem_groupby_iff.1 hmem
    refine ⟨fun hmem => ?_, fun hmem => ?_⟩
    · obtain ⟨ρ', hρ', hop, hname⟩ := Encoding.mem_aggregate_iff.1 hmem
      exact hfree hρ hρ' (Role.clashes_of_overwrites ⟨hkey, hop, hname.symm⟩)
    · obtain ⟨c, hc, hname⟩ := List.mem_map.1 hmem
      have hop := (hshared hρ hc hname.symm).1
      rw [hkey] at hop
      cases hop

end Pipeline

/-- **Unambiguous columns.** The stages that an expansion adds to those of the unit are unambiguous exactly when no two
definitions on the channels besides the axis clash, and none of them clashes with a column of the mark itself. -/
theorem columns_unambiguous_iff {u : UnitSpec} {config : Config} {l : LayerSpec} {ws : List Warning}
    (h : Registry.standard.dispatch u config = .noted l ws) :
    ∃ r p ws' stages, Recipe.ofTag? u.mark.type = some r ∧ resolve u r.policy = .noted p ws' ∧
      l.transform = u.transform ++ stages ∧
      (Unambiguous stages ↔
        (∀ ρ ∈ Encoding.roles ((accepted u.encoding).without [p.axis.channel]),
          (∀ ρ' ∈ Encoding.roles ((accepted u.encoding).without [p.axis.channel]), ¬ ρ.Clashes ρ') ∧
            ¬ ρ.ClashesWith ((r.columns p config).map (·.as) ++ (r.calculates p config).map (·.as)))) := by
  rw [dispatch_standard] at h
  split at h
  · next r htag =>
    have hr := (Recipe.mem_all_of_ofTag? htag).1
    obtain ⟨p, ws', units, hp, -, rfl⟩ := Recipe.expand_eq_noted h
    obtain ⟨o, d, field, -, -, -, hextract⟩ := resolve_eq_noted hp
    have hx : p.extraction = Encoding.extract ((accepted u.encoding).without [p.axis.channel]) := by
      rw [hextract]
      rfl
    have hown := Recipe.ownColumns hr p config
    have hnames : (own (r.columns p config) (r.calculates p config)).map Prod.fst =
        (r.columns p config).map (·.as) ++ (r.calculates p config).map (·.as) := by
      simp [own, Function.comp_def]
    refine ⟨r, p, ws', p.pipeline [] (r.columns p config) (r.calculates p config), htag, hp, by simp [pipeline], ?_⟩
    rw [← hnames]
    constructor
    · intro h
      obtain ⟨hroles, hfree⟩ := clashFree_of_unambiguous hx h
      exact fun ρ hρ => ⟨hroles ρ hρ, hfree ρ hρ⟩
    · intro h
      exact unambiguous_of_clashFree hx hown (fun ρ hρ => (h ρ hρ).1) fun ρ hρ => (h ρ hρ).2
  · cases h

/-- The smallest yield is computed for the whiskers and for the size alike. -/
theorem columns_unambiguous_boxPlot :
    ∃ l ws,
      Registry.standard.dispatch
          { mark := .tag "box-plot"
            encoding := .ofList
              [(.x, .field { field := some "date", type := .ordinal, timeUnit := some "month" }),
                (.y, .field { field := some "yield", type := .quantitative }),
                (.color, .field { field := some "age", type := .quantitative, bin := some (.flag true) }),
                (.size, .field { field := some "yield", type := .quantitative, aggregate := some (.op .min) }),
                (.detail, .field { field := some "site", type := .nominal })] } .defaults = .noted l ws ∧
        Unambiguous l.transform := by
  refine (Report.failure?_eq_none_iff.1 ?_).imp fun l => Exists.imp fun ws h => ⟨h, ?_⟩
  · rfl
  · obtain ⟨r, p, ws', stages, htag, hp, htransform, hiff⟩ := columns_unambiguous_iff h
    obtain rfl : Recipe.boxPlot = r := Option.some.inj htag
    obtain ⟨rfl, -⟩ := Report.noted_inj.1 (hp.symm.trans rfl)
    rw [htransform]
    have hfree : ∀ ρ ∈ [Role.timeUnit "month" "date", .bin (.flag true) "age", .op .min "yield", .key "site"],
        ρ.isKey = true → ρ.column ∉ ["lowerBox_yield", "upperBox_yield", "midBox_yield", "min_yield", "max_yield",
          "iqrRange_yield", "upperWhisker_yield", "lowerWhisker_yield"] := by decide
    refine hiff.2 fun ρ hρ => ⟨fun ρ' hρ' => Role.not_clashes_of_nodup ?_ hρ hρ', fun hclash => ?_⟩
    · decide +kernel
    · exact hfree ρ hρ hclash.key_mem.1 hclash.key_mem.2

/-- Bins of two fields share a column, and the lower end of the bars has the name of a field that is grouped by. -/
theorem columns_ambiguous :
    ∃ l ws,
      Registry.standard.dispatch
          { mark := .tag "errorbar"
            encoding := .ofList
              [(.x, .field { field := some "age", type := .quantitative
                             bin := some (.params (.ofList [("maxbins", .num (.int 10))])) }),
                (.y, .field { field := some "yield", type := .quantitative }),
                (.color, .field { field := some "maxbins_10_age", type := .quantitative, bin := some (.flag true) }),
                (.detail, .field { field := some "lower_yield", type := .nominal })] } .defaults = .noted l ws ∧
        (∃ s s', .bin s ∈ l.transform ∧ .bin s' ∈ l.transform ∧ s.as = s'.as ∧ s.field ≠ s'.field) ∧
        (∃ columns groupby s, .aggregate columns groupby ∈ l.transform ∧ .calculate s ∈ l.transform ∧ s.as ∈ groupby) ∧
        ¬ Unambiguous l.transform := by
  refine ⟨_, _, rfl, ?_, ?_, fun h => ?_⟩
  · exact ⟨_, _, .head _, .tail _ (.head _), by decide +kernel, by decide⟩
  · exact ⟨_, _, _, .tail _ (.tail _ (.head _)), .tail _ (.tail _ (.tail _ (.tail _ (.head _)))), by decide +kernel⟩
  · have hkey := h.keys _ _ (.tail _ (.tail _ (.head _))) "lower_yield" (by decide +kernel)
    exact hkey.2 _ (.tail _ (.tail _ (.tail _ (.tail _ (.head _))))) rfl

end Composite

end ChartNormal
