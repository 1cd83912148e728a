import ChartNormal.Proofs.Composite.Ambiguity
import ChartNormal.Proofs.Extraction
import ChartNormal.Proofs.Tree

/-!
# What a composite mark groups by

All definitions on the accepted channels besides the continuous axis are taken account of, also those that refer to no data:
they are grouped by, or aggregated, under the empty name, and bound by the parts. So only the data is taken account of
exactly when every definition refers to data (`accountsFor_hasField_iff`), where primitive marks drop the others.
-/

namespace ChartNormal

namespace FieldDef

theorem filterMap_getRight?_entry (l : List FieldDef) :
    l.filterMap (·.entry.getRight?) = (l.filter (·.op?.isNone)).map entryName := by
  induction l with
  | nil => rfl
  | cons d l ih =>
    rw [List.filterMap_cons, List.filter_cons, entry, ih]
    cases d.op? <;> rfl

theorem getLeft?_entry_eq_some_iff {d : FieldDef} {c : AggregateColumn} :
    d.entry.getLeft? = some c ↔ d.op? = some c.op ∧ d.field = c.field ∧ d.entryName = c.as := by
  obtain ⟨op, field, as⟩ := c
  rw [entry]
  cases d.op? <;> simp

theorem hasField_eq (d : FieldDef) : d.hasField = (d.field.isSome || d.op? = some .count) := by
  rw [hasField, isCount, op?]
  cases d.aggregate with
  | none => rfl
  | some a => cases a <;> simp [Aggregate.op?]

theorem entryName_of_hasField_eq_false {d : FieldDef} (h : d.hasField = false) : d.entryName = "" := by
  obtain ⟨hfield, hcount⟩ : d.field = none ∧ d.op? ≠ some .count := by simpa [hasField_eq] using h
  rw [entryName, outputName_withoutTag, role, hfield]
  cases hop : d.op? with
  | none => rfl
  | some o =>
    cases o with
    | count => exact absurd hop hcount
    | _ => rfl

end FieldDef

namespace Composite

/-- The accepted channels besides the axis that `o` makes continuous. -/
def beside (u : UnitSpec) (o : Orient) : Encoding := (accepted u.encoding).without [o.continuous]

variable {u : UnitSpec} {o : Orient} {config : Config}

theorem get?_beside {c : Channel} (hc : c ≠ o.continuous) : (beside u o).get? c = (accepted u.encoding).get? c := by
  rw [beside, Encoding.without, OrderedMap.get?_restrict, if_pos (by simpa using hc)]

theorem mem_defs_beside {c : Channel} (hc : c ≠ o.continuous) {b : ChannelDef}
    (hb : (accepted u.encoding).get? c = some b) {d : FieldDef} (hd : d ∈ b.fieldDefs) : d ∈ (beside u o).defs := by
  rw [← get?_beside hc] at hb
  exact List.mem_flatMap.2 ⟨(c, b), OrderedMap.get?_eq_some_iff.1 hb, hd⟩

/-! ### Parts -/

/-- Besides the axis and the far end along it, a part binds what is left of the definitions of the unit, or a constant. -/
theorem binding_of_drawing {r : Recipe} (hr : r ∈ Recipe.all) {d : FieldDef} {field : String} {dr : Drawing}
    (hdr : dr ∈ r.drawings (along u o d field) config) {v : UnitSpec}
    (hv : dr.unit (along u o d field) config = .ok v) {c : Channel} (hc : c ≠ o.continuous) (hc₂ : c ≠ o.secondary)
    {b : ChannelDef} (hb : v.encoding.get? c = some b) :
    (∃ b₀, (accepted u.encoding).get? c = some b₀ ∧ b = b₀.mapFields FieldDef.renamed) ∨
      c ∈ [Channel.color, .size] ∧ b.isValue = true := by
  obtain ⟨m, hm⟩ := Recipe.primitive_base hr hdr
  obtain ⟨mark, -, -, rfl⟩ := Drawing.unit_eq_ok hm hv
  have hmem := (OrderedMap.mem_restrict.1 (OrderedMap.get?_eq_some_iff.1 hb)).1
  rcases mem_partEncoding hmem with hmem | haxis | ⟨stop, -, hend⟩
  · rcases Recipe.sharedOrConstant hr hdr hmem with hmem | hconstant
    · have hshared : (beside u o).extract.encoding.get? c = some b := OrderedMap.get?_eq_some_iff.2 hmem
      rw [Encoding.get?_extract, get?_beside hc] at hshared
      obtain ⟨b₀, hb₀, rfl⟩ := Option.map_eq_some_iff.1 hshared
      exact .inl ⟨b₀, hb₀, rfl⟩
    · exact .inr hconstant
  · exact absurd (congrArg Prod.fst haxis) hc
  · exact absurd (congrArg Prod.fst hend) hc₂

/-! ### The aggregate -/

/-- The layer `l` that `u` becomes along `o` takes account of those definitions besides the axis that `keep` keeps, and of no
others. In their order they are the keys of the groups, or columns of the aggregate where they have an operation; all other
columns are of the axis. What a part binds on a channel is what is left of them, or a constant. -/
structure AccountsFor (keep : FieldDef → Bool) (u : UnitSpec) (o : Orient) (field : String) (l : LayerSpec) : Prop where
  stage : ∃ stages columns own groupby, l.transform = u.transform ++ stages ∧
    (∀ cs keys, .aggregate cs keys ∈ stages ↔ cs = columns ++ own ∧ keys = groupby) ∧
    groupby = (((beside u o).defs.filter keep).filter (·.op?.isNone)).map FieldDef.entryName ∧
    columns = ((beside u o).defs.filter keep).filterMap (·.entry.getLeft?) ∧ ∀ c ∈ own, c.field = some field
  bound : ∀ v, .unit v ∈ l.layers → ∀ c, c ≠ o.continuous → c ≠ o.secondary → ∀ b, v.encoding.get? c = some b →
    (∃ b₀, (accepted u.encoding).get? c = some b₀ ∧
      b.fieldDefs = (b₀.fieldDefs.filter keep).map FieldDef.renamed) ∨ b.isValue = true

namespace AccountsFor

variable {keep keep' : FieldDef → Bool} {field : String} {l : LayerSpec}

theorem congr (hkeep : ∀ d ∈ (beside u o).defs, keep d = keep' d) (h : AccountsFor keep u o field l) :
    AccountsFor keep' u o field l := by
  obtain ⟨stages, columns, own, groupby, htransform, hstage, hkeys, hcolumns, hown⟩ := h.stage
  have hkept : (beside u o).defs.filter keep = (beside u o).defs.filter keep' := List.filter_congr hkeep
  rw [hkept] at hkeys hcolumns
  refine ⟨⟨stages, columns, own, groupby, htransform, hstage, hkeys, hcolumns, hown⟩, fun v hv c hc hc₂ b hb => ?_⟩
  rcases h.bound v hv c hc hc₂ b hb with ⟨b₀, hb₀, hdefs⟩ | hvalue
  · refine .inl ⟨b₀, hb₀, hdefs.trans ?_⟩
    rw [List.filter_congr fun d hd => hkeep d (mem_defs_beside hc hb₀ hd)]
  · exact .inr hvalue

theorem groups (h : AccountsFor keep u o field l) :
    ∃ columns, .aggregate columns ((((beside u o).defs.filter keep).filter (·.op?.isNone)).map FieldDef.entryName) ∈
      l.transform := by
  obtain ⟨stages, columns, own, groupby, htransform, hstage, rfl, -, -⟩ := h.stage
  refine ⟨columns ++ own, ?_⟩
  rw [htransform]
  exact List.mem_append_right _ ((hstage _ _).2 ⟨rfl, rfl⟩)

/-- A layer that takes account of all definitions does not leave out those without data. -/
theorem forall_hasField (hall : AccountsFor (fun _ => true) u o field l) (h : AccountsFor FieldDef.hasField u o field l) :
    ∀ d ∈ (beside u o).defs, d.hasField = true := by
  obtain ⟨stages, columns, own, groupby, htransform, hstage, hkeys, hcolumns, hown⟩ := hall.stage
  obtain ⟨stages', columns', own', groupby', htransform', hstage', hkeys', hcolumns', hown'⟩ := h.stage
  obtain rfl : stages = stages' := List.append_cancel_left (htransform.symm.trans htransform')
  obtain ⟨hsame, rfl⟩ := (hstage' _ _).1 ((hstage _ _).2 ⟨rfl, rfl⟩)
  rw [List.filter_true] at hkeys hcolumns
  intro d hd
  cases hop : d.op? with
  | none =>
    -- as many keys as definitions to group by
    have hlength : (((beside u o).defs.filter (·.op?.isNone)).filter FieldDef.hasField).length =
        ((beside u o).defs.filter (·.op?.isNone)).length := by
      have hcount := congrArg List.length (hkeys'.symm.trans hkeys)
      rw [List.length_map, List.length_map, List.filter_comm] at hcount
      exact hcount
    exact List.length_filter_eq_length_iff.1 hlength d (List.mem_filter.2 ⟨hd, by rw [hop]; rfl⟩)
  | some op =>
    -- whatever has the same column has the same operation and the same field
    have hmem : { op, field := d.field, as := d.entryName } ∈ columns' ++ own' := by
      rw [← hsame, hcolumns]
      exact List.mem_append_left _ (List.mem_filterMap.2 ⟨d, hd, FieldDef.getLeft?_entry_eq_some_iff.2 ⟨hop, rfl, rfl⟩⟩)
    rw [FieldDef.hasField_eq, hop]
    rcases List.mem_append.1 hmem with hmem | hmem
    · rw [hcolumns'] at hmem
      obtain ⟨d', hd', hentry⟩ := List.mem_filterMap.1 hmem
      obtain ⟨hop', hfield, -⟩ := FieldDef.getLeft?_entry_eq_some_iff.1 hentry
      have hdata := (List.mem_filter.1 hd').2
      rw [FieldDef.hasField_eq, hop', hfield] at hdata
      exact hdata
    · have hfield : d.field = some field := hown' _ hmem
      rw [hfield]
      rfl

end AccountsFor

theorem field_boxPlot (field : String) (w : BoxPlot.Whisker) : ∀ c ∈ BoxPlot.columns field w, c.field = some field := by
  cases w <;> simp [BoxPlot.columns, BoxPlot.column]

theorem field_interval (i : Interval) (field : String) (needsCenter : Bool) :
    ∀ c ∈ i.columns field needsCenter, c.field = some field := by
  obtain ⟨center, extent⟩ := i
  cases extent <;> cases needsCenter <;> simp [Interval.columns]

theorem Recipe.field_columns {r : Recipe} (hr : r ∈ Recipe.all) (p : Composite) (config : Config) :
    ∀ c ∈ r.columns p config, c.field = some p.axis.field := by
  rcases Recipe.mem_all_iff.1 hr with rfl | rfl | rfl
  · exact field_boxPlot p.axis.field _
  · exact field_interval (barInterval p config) p.axis.field _
  · exact field_interval (bandInterval p config) p.axis.field false

theorem accountsFor_of_dispatch {l : LayerSpec} {ws : List Warning}
    (h : Registry.standard.dispatch u config = .noted l ws) :
    ∃ o d field, orient (accepted u.encoding) u.mark.toDef u.mark.type = .ok o ∧
      (accepted u.encoding).field? o.continuous = some d ∧ d.field = some field ∧
      AccountsFor (fun _ => true) u o field l := by
  obtain ⟨r, o, d, field, _, units, hr, ho, hd, hfield, rfl, hunits, rfl⟩ := dispatch_eq_noted h
  obtain ⟨hr, -⟩ := Recipe.mem_all_of_ofTag? hr
  let p := along u o d field
  refine ⟨o, d, field, ho, hd, hfield, ⟨p.pipeline [] (r.columns p config) (r.calculates p config), p.extraction.aggregate,
    r.columns p config, p.extraction.groupby, by simp [p, pipeline], fun cs keys => aggregate_mem_pipeline, ?_, ?_, ?_⟩, ?_⟩
  · rw [List.filter_true, ← FieldDef.filterMap_getRight?_entry]
    exact (beside u o).groupby_extract
  · rw [List.filter_true]
    exact (beside u o).aggregate_extract
  · exact Recipe.field_columns hr _ config
  · intro v hv c hc hc₂ b hb
    obtain ⟨v', hv', hunit⟩ := List.mem_map.1 hv
    obtain rfl := Spec.unit.inj hunit
    obtain ⟨dr, hdr, hv⟩ := exists_of_forall₂ hunits hv'
    rcases binding_of_drawing hr (List.mem_filter.1 hdr).1 hv hc hc₂ hb with ⟨b₀, hb₀, rfl⟩ | ⟨-, hvalue⟩
    · exact .inl ⟨b₀, hb₀, by rw [List.filter_true, ChannelDef.fieldDefs_mapFields]⟩
    · exact .inr hvalue

theorem accountsFor_hasField_iff {field : String} {l : LayerSpec} (h : AccountsFor (fun _ => true) u o field l) :
    AccountsFor FieldDef.hasField u o field l ↔ ∀ d ∈ (beside u o).defs, d.hasField = true :=
  ⟨h.forall_hasField, fun hdata => h.congr fun d hd => (hdata d hd).symm⟩

/-- **Grouping by data.** An expansion takes account of every definition besides the axis, and one without data goes by
the empty name. It takes account of those with data alone exactly when there are no others. -/
theorem groups_by_data_iff {l : LayerSpec} {ws : List Warning} (h : Registry.standard.dispatch u config = .noted l ws) :
    ∃ o d field, orient (accepted u.encoding) u.mark.toDef u.mark.type = .ok o ∧
      (accepted u.encoding).field? o.continuous = some d ∧ d.field = some field ∧
      AccountsFor (fun _ => true) u o field l ∧
      (∀ d ∈ (beside u o).defs, d.hasField = false → d.entryName = "") ∧
      (AccountsFor FieldDef.hasField u o field l ↔ ∀ d ∈ (beside u o).defs, d.hasField = true) := by
  obtain ⟨o, d, field, ho, hd, hfield, hall⟩ := accountsFor_of_dispatch h
  exact ⟨o, d, field, ho, hd, hfield, hall, fun _ _ => FieldDef.entryName_of_hasField_eq_false,
    accountsFor_hasField_iff hall⟩

/-- Every definition has data, the count of rows among them. -/
theorem groups_by_data_boxPlot :
    let u : UnitSpec :=
      { mark := .tag "box-plot"
        encoding := .ofList
          [(.x, .field { field := some "site", type := .nominal }),
            (.y, .field { field := some "yield", type := .quantitative }),
            (.size, .field { type := .quantitative, aggregate := some (.op .count) }),
            (.detail, .fields
              [{ field := some "year", type := .ordinal, aggregate := some (.composite "errorbar") },
                { field := some "variety", type := .nominal }])] }
    ∃ l ws, Registry.standard.dispatch u .defaults = .noted l ws ∧
      (∃ columns, .aggregate columns ["site", "year", "variety"] ∈ l.transform) ∧
      AccountsFor FieldDef.hasField u .vertical "yield" l := by
  intro u
  have hsuccess : (Registry.standard.dispatch u .defaults).failure? = none := by decide +kernel +zetaReduce
  have hvertical : orient (accepted u.encoding) u.mark.toDef u.mark.type = .ok .vertical := by decide +kernel +zetaReduce
  have hyield : ((accepted u.encoding).field? .y).bind FieldDef.field = some "yield" := by decide +kernel +zetaReduce
  have hdefs : ∀ d ∈ (beside u .vertical).defs, d.hasField = true := by decide +kernel +zetaReduce
  have hkeys : (((beside u .vertical).defs.filter FieldDef.hasField).filter (·.op?.isNone)).map FieldDef.entryName =
      ["site", "year", "variety"] := by decide +kernel +zetaReduce
  obtain ⟨l, ws, h⟩ := Report.failure?_eq_none_iff.1 hsuccess
  obtain ⟨o, d, field, ho, hd, hfield, -, -, hiff⟩ := groups_by_data_iff h
  obtain rfl := Except.ok.inj (hvertical.symm.trans ho)
  rw [show (accepted u.encoding).field? .y = some d from hd, Option.bind_some, hfield] at hyield
  obtain rfl := Option.some.inj hyield
  have hdata := hiff.2 hdefs
  exact ⟨l, ws, h, hkeys ▸ hdata.groups, hdata⟩

/-- The color has no data. A bar drops it; error bars are grouped by a column with the empty name and bind it. -/
theorem groups_by_missing_data :
    let u : UnitSpec :=
      { mark := .tag "errorbar"
        encoding := .ofList
          [(.x, .field { field := some "site", type := .nominal }),
            (.y, .field { field := some "yield", type := .quantitative }),
            (.color, .field { type := .nominal })] }
    (u.encoding.settle .bar).channels = [.x, .y] ∧
      ∃ l ws, Registry.standard.dispatch u .defaults = .noted l ws ∧
        (∃ columns, .aggregate columns ["site", ""] ∈ l.transform) ∧
        (∃ v ∈ l.layers.flatMap Spec.leaves,
          v.encoding.get? .color = some (.field { field := some "", type := .nominal })) ∧
        ¬ AccountsFor FieldDef.hasField u .vertical "yield" l := by
  intro u
  have hbar : (u.encoding.settle .bar).channels = [.x, .y] := by decide +kernel +zetaReduce
  have hcolors : Except.map (fun run => (run.1.layers.flatMap Spec.leaves).map (·.encoding.get? .color))
      (Registry.standard.dispatch u .defaults) = .ok [some (.field { field := some "", type := .nominal })] := by
    decide +kernel +zetaReduce
  have hvertical : orient (accepted u.encoding) u.mark.toDef u.mark.type = .ok .vertical := by decide +kernel +zetaReduce
  have hyield : ((accepted u.encoding).field? .y).bind FieldDef.field = some "yield" := by decide +kernel +zetaReduce
  have hdefs : ¬ ∀ d ∈ (beside u .vertical).defs, d.hasField = true := by decide +kernel +zetaReduce
  have hkeys : (((beside u .vertical).defs.filter fun _ => true).filter (·.op?.isNone)).map FieldDef.entryName =
      ["site", ""] := by decide +kernel +zetaReduce
  obtain ⟨l, ws, h, hcolors⟩ := Report.exists_noted_of_map hcolors
  obtain ⟨o, d, field, ho, hd, hfield, hall⟩ := accountsFor_of_dispatch h
  obtain rfl := Except.ok.inj (hvertical.symm.trans ho)
  rw [show (accepted u.encoding).field? .y = some d from hd, Option.bind_some, hfield] at hyield
  obtain rfl := Option.some.inj hyield
  refine ⟨hbar, l, ws, h, hkeys ▸ hall.groups, ?_, fun hdata => hdefs (hall.forall_hasField hdata)⟩
  exact List.mem_map.1 (hcolors ▸ List.mem_singleton_self _)

end Composite

end ChartNormal
