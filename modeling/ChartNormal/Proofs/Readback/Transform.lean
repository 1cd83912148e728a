import ChartNormal.Transform
import ChartNormal.Proofs.Readback.Encoding

/-!
# Transforms that read back

A stage is read as the first kind whose fields it has. A stage that is written has the fields of its own kind and lacks one
that each earlier kind requires, so it reads back as the same stage; one that was read as none of the kinds is kept as
it is, and reads as none of them again.
-/

namespace ChartNormal

theorem Json.list?_strings (l : List String) : list? string? (strings l) = some l := list?_map .str fun _ _ => rfl

theorem AggregateColumn.ofJson?_toJson (c : AggregateColumn) : ofJson? c.toJson = some c := by
  obtain ⟨op, field, as⟩ := c
  cases field <;>
  · show (AggregateOp.ofName? op.name).bind _ = _
    rw [op.ofName?_name]
    rfl

namespace Transform

/-- The stage reads back as it is written. -/
def Legible (t : Transform) : Prop := ofJson? t.toJson = some t

theorem legible_bin {s : BinStage} (h : Bin.ofJson? s.bin.toJson = some s.bin) : (bin s).Legible := by
  have hs : BinStage.ofJson? s.toJson = some s := by
    show (Bin.ofJson? s.bin.toJson).bind _ = _
    rw [h]
    rfl
  show ((BinStage.ofJson? s.toJson).map bin).or _ = _
  rw [hs]
  rfl

theorem legible_timeUnit (s : TimeUnitStage) : (timeUnit s).Legible := rfl

theorem legible_calculate (s : CalculateStage) : (calculate s).Legible := rfl

theorem legible_aggregate (columns : List AggregateColumn) (groupby : List String) :
    (aggregate columns groupby).Legible := by
  have hcolumns : Json.list? AggregateColumn.ofJson? (.arr (columns.map AggregateColumn.toJson)) = some columns :=
    Json.list?_map AggregateColumn.toJson fun c _ => c.ofJson?_toJson
  have haggregate : aggregate? (aggregate columns groupby).toJson = some (aggregate columns groupby) := by
    show (Json.list? AggregateColumn.ofJson? (.arr (columns.map AggregateColumn.toJson))).bind (fun columns =>
      (Json.list? Json.string? (.strings groupby)).bind fun groupby => some (aggregate columns groupby)) = _
    rw [hcolumns, Json.list?_strings]
    rfl
  show (none : Option Transform).or ((none : Option Transform).or ((aggregate? _).or _)) = _
  rw [haggregate]
  rfl

theorem legible_stack (groupby : List String) (field : String) (sortby : List String) (start stop : String)
    (offset : Option StackOffset) : (stack groupby field sortby start stop offset).Legible := by
  have hstack : stack? (stack groupby field sortby start stop offset).toJson =
      some (stack groupby field sortby start stop offset) := by
    cases offset with
    | none =>
      show (Json.list? Json.string? (.strings groupby)).bind (fun groupby =>
        (Json.list? Json.string? (.strings sortby)).bind fun sortby =>
          some (stack groupby field sortby start stop none)) = _
      rw [Json.list?_strings, Json.list?_strings]
      rfl
    | some o =>
      show (Json.list? Json.string? (.strings groupby)).bind (fun groupby =>
        (Json.list? Json.string? (.strings sortby)).bind fun sortby =>
          ((StackOffset.ofName? o.name).map some).bind fun offset =>
            some (stack groupby field sortby start stop offset)) = _
      rw [Json.list?_strings, Json.list?_strings, o.ofName?_name]
      rfl
  have hearlier : ofJson? (stack groupby field sortby start stop offset).toJson =
      (stack? (stack groupby field sortby start stop offset).toJson).or
        ((impute? (stack groupby field sortby start stop offset).toJson).or
          ((stack groupby field sortby start stop offset).toJson.object?.map other)) := by
    cases offset <;> rfl
  rw [Legible, hearlier, hstack]
  rfl

theorem legible_impute (field key : String) (groupby : List String) {value : Option Json}
    (h : ∀ j ∈ value, FieldDef.IsValue j) : (impute field key groupby value).Legible := by
  obtain ⟨members, hmembers⟩ : ∃ members : Members, (impute field key groupby value).toJson = .obj members := ⟨_, rfl⟩
  have hw : members.Written [("impute", some (.str field)), ("key", some (.str key)),
      ("groupby", Json.unlessEmpty (groupby.map .str)), ("value", value.map id)] ∅ :=
    ⟨by simpa [toJson, Json.record] using hmembers.symm, by simp, Object.free_empty _⟩
  have hfield : members.required? "impute" Json.string? = some field := hw.required? (j := .str field) (by simp)
  have hkey : members.required? "key" Json.string? = some key := hw.required? (j := .str key) (by simp)
  have hgroupby : members.default? "groupby" [] (Json.list? Json.string?) = some groupby := by
    cases groupby with
    | nil => exact Members.default?_of_missing (hw.field? (v := none) (by simp [Json.unlessEmpty])) []
    | cons g gs =>
      have hmem : members.field? "groupby" = some (some (.strings (g :: gs))) :=
        hw.field? (by simp [Json.unlessEmpty, Json.strings])
      exact (Members.default?_of_field? hmem []).trans (Json.list?_strings (g :: gs))
  have hvalue : members.optional? "value" Json.any? = some value :=
    hw.optional? id (by simp) (fun j hj => congrArg some (Json.settle_eq_self (h j hj).1)) fun j hj => (h j hj).2
  have himpute : impute? (.obj members) = some (impute field key groupby value) := by
    simp only [impute?, Json.fields?, Option.bind_eq_bind, Option.bind_some, hfield, hkey, hgroupby, hvalue]
  have hstack : stack? (.obj members) = none := by
    have hmissing : members.required? "field" Json.string? = none := by
      rw [Members.required?, hw.eq, Members.field?_ofFields_rest (by simp)]
      rfl
    simp [stack?, Json.fields?, hmissing]
  have hearlier : ofJson? (impute field key groupby value).toJson =
      (stack? (impute field key groupby value).toJson).or
        ((impute? (impute field key groupby value).toJson).or
          ((impute field key groupby value).toJson.object?.map other)) := by
    cases groupby <;> cases value <;> rfl
  rw [Legible, hearlier, hmembers, hstack, himpute]
  rfl

theorem legible_of_ofJson? {j : Json} (hj : j.distinctKeys = true) {t : Transform} (h : ofJson? j = some t) :
    t.Legible := by
  rcases Option.or_eq_some_iff.1 h with hbin | ⟨-, h'⟩
  · obtain ⟨s, hs, rfl⟩ := Option.map_eq_some_iff.1 hbin
    obtain ⟨members, hmembers, hs⟩ := Option.bind_eq_some_iff.1 hs
    obtain ⟨b, hb, hs⟩ := Option.bind_eq_some_iff.1 hs
    obtain ⟨field, -, hs⟩ := Option.bind_eq_some_iff.1 hs
    obtain ⟨as, -, hs⟩ := Option.bind_eq_some_iff.1 hs
    obtain rfl := Option.some.inj hs
    obtain ⟨j', hmem, hread⟩ := Members.of_required? hb
    exact legible_bin (Bin.ofJson?_toJson (Json.distinctKeys_of_fields? hj hmembers hmem) hread)
  rcases Option.or_eq_some_iff.1 h' with htimeUnit | ⟨-, h'⟩
  · obtain ⟨s, -, rfl⟩ := Option.map_eq_some_iff.1 htimeUnit
    exact legible_timeUnit s
  rcases Option.or_eq_some_iff.1 h' with haggregate | ⟨-, h'⟩
  · simp only [aggregate?, Option.bind_eq_bind, Option.bind_eq_some_iff, Option.some.injEq] at haggregate
    obtain ⟨_, -, columns, -, groupby, -, rfl⟩ := haggregate
    exact legible_aggregate columns groupby
  rcases Option.or_eq_some_iff.1 h' with hcalculate | ⟨-, h'⟩
  · obtain ⟨s, -, rfl⟩ := Option.map_eq_some_iff.1 hcalculate
    exact legible_calculate s
  rcases Option.or_eq_some_iff.1 h' with hstack | ⟨-, h'⟩
  · simp only [stack?, Option.bind_eq_bind, Option.bind_eq_some_iff, Option.some.injEq] at hstack
    obtain ⟨_, -, groupby, -, field, -, sortby, -, ⟨start, stop⟩, -, offset, -, rfl⟩ := hstack
    exact legible_stack groupby field sortby start stop offset
  rcases Option.or_eq_some_iff.1 h' with himpute | ⟨-, hother⟩
  · simp only [impute?, Option.bind_eq_bind, Option.bind_eq_some_iff, Option.some.injEq] at himpute
    obtain ⟨members, -, field, -, key, -, groupby, -, value, hvalue, rfl⟩ := himpute
    exact legible_impute field key groupby (FieldDef.isValue_of_any? hvalue)
  · obtain ⟨o, ho, rfl⟩ := Option.map_eq_some_iff.1 hother
    cases j with
    | obj members =>
      have hentries : Json.ofObject o = .obj members := by
        obtain rfl := Option.some.inj ho
        rw [Json.ofObject, Members.entries_others hj]
        simp
      rw [Legible, toJson, hentries]
      exact h
    | _ => cases ho

end Transform

end ChartNormal
