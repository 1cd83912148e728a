import ChartNormal.Encoding.Extraction
import ChartNormal.Encoding.Support
import ChartNormal.Proofs.Encoding
import ChartNormal.Proofs.Record

/-!
# Encodings that read back

A field definition reads back as it is written when its parts do and none of its free-form properties has the name of a
typed one (`FieldDef.Legible`). Definitions that are read from values without repeated keys are of this kind, and what
normalization makes of an encoding stays so: dropping and promoting channels, and extracting the transforms behind them.
-/

namespace ChartNormal

/-! ### Field definitions -/

theorem FieldType.ofName?_name (t : FieldType) : ofName? t.name = some t := by cases t <;> rfl

theorem StackOffset.ofName?_name (o : StackOffset) : ofName? o.name = some o := by cases o <;> rfl

theorem AggregateOp.ofName?_name (o : AggregateOp) : ofName? o.name = some o := by cases o <;> decide

namespace Bin

theorem toJson_ne_null (b : Bin) : b.toJson ≠ .null := by
  cases b <;> simp [toJson, Json.ofObject]

/-- An object that was read as parameters is not the name of the binned column, and reads as the same parameters again. -/
theorem ofJson?_toJson {j : Json} (hj : j.distinctKeys = true) {b : Bin} (h : ofJson? j = some b) :
    ofJson? b.toJson = some b := by
  rcases Option.or_eq_some_iff.1 h with hflag | ⟨hflag, h⟩
  · obtain ⟨on, -, rfl⟩ := Option.map_eq_some_iff.1 hflag
    rfl
  rcases Option.or_eq_some_iff.1 h with hname | ⟨hname, hparams⟩
  · obtain ⟨s, hs⟩ := Json.of_name? hname
    obtain rfl : binned = b := by
      split at hs
      exacts [Option.some.inj hs, by cases hs]
    rfl
  · obtain ⟨p, hp, rfl⟩ := Option.map_eq_some_iff.1 hparams
    cases j with
    | obj members =>
      have hentries : Json.ofObject p = .obj members := by
        obtain rfl := Option.some.inj hp
        rw [Json.ofObject, Members.entries_others hj]
        simp
      rw [toJson, hentries]
      exact h
    | _ => cases hp

end Bin

namespace Aggregate

theorem ofJson?_op (o : AggregateOp) : ofJson? (op o).toJson = some (op o) := by
  show ((AggregateOp.ofName? o.name).map op).or _ = _
  rw [o.ofName?_name]
  rfl

theorem ofJson?_toJson {j : Json} {a : Aggregate} (h : ofJson? j = some a) : ofJson? a.toJson = some a := by
  rcases Option.or_eq_some_iff.1 h with hop | ⟨hop, htag⟩
  · obtain ⟨o, -, rfl⟩ := Option.map_eq_some_iff.1 hop
    exact ofJson?_op o
  · obtain ⟨tag, hstring, rfl⟩ := Option.map_eq_some_iff.1 htag
    cases j with
    | str s =>
      obtain rfl := Option.some.inj hstring
      exact h
    | _ => cases hstring

end Aggregate

namespace FieldDef

/-- A value without repeated keys that is not taken for a missing one. -/
def IsValue (j : Json) : Prop := j.distinctKeys = true ∧ j ≠ .null

/-- Each part reads back, and no free-form property has the name of a typed one. -/
structure Legible (d : FieldDef) : Prop where
  bin : ∀ b ∈ d.bin, Bin.ofJson? b.toJson = some b
  aggregate : ∀ a ∈ d.aggregate, Aggregate.ofJson? a.toJson = some a
  scale : ∀ j ∈ d.scale, IsValue j
  axis : ∀ j ∈ d.axis, IsValue j
  legend : ∀ j ∈ d.legend, IsValue j
  sort : ∀ j ∈ d.sort, IsValue j
  props : Object.Free d.props fieldNames

theorem ofJson?_toJson {d : FieldDef} (h : d.Legible) : ofJson? d.toJson = some d := by
  obtain ⟨members, hmembers⟩ : ∃ members : Members, d.toJson = .obj members := ⟨_, rfl⟩
  have hw : Members.Written members _ d.props :=
    ⟨(Json.obj.inj hmembers).symm, (by decide : fieldNames.Nodup), h.props⟩
  have hany : ∀ {key : String} {x : Option Json}, (∀ j ∈ x, IsValue j) → (key, x.map id) ∈ _ →
      members.optional? key Json.any? = some x := fun hx hmem =>
    hw.optional? id hmem (fun j hj => congrArg some (Json.settle_eq_self (hx j hj).1)) fun j hj => (hx j hj).2
  have hfield : members.optional? "field" Json.string? = some d.field :=
    hw.optional? .str (by simp) (fun _ _ => rfl) (by simp)
  have htype : members.required? "type" (Json.name? FieldType.ofName?) = some d.type :=
    (hw.required? (j := .str d.type.name) (by simp)).trans d.type.ofName?_name
  have hbin : members.optional? "bin" Bin.ofJson? = some d.bin :=
    hw.optional? Bin.toJson (by simp) h.bin fun b _ => b.toJson_ne_null
  have htimeUnit : members.optional? "timeUnit" Json.string? = some d.timeUnit :=
    hw.optional? .str (by simp) (fun _ _ => rfl) (by simp)
  have haggregate : members.optional? "aggregate" Aggregate.ofJson? = some d.aggregate :=
    hw.optional? Aggregate.toJson (by simp) h.aggregate (by simp [Aggregate.toJson])
  have hscale : members.optional? "scale" Json.any? = some d.scale := hany h.scale (by simp)
  have haxis : members.optional? "axis" Json.any? = some d.axis := hany h.axis (by simp)
  have hlegend : members.optional? "legend" Json.any? = some d.legend := hany h.legend (by simp)
  have hsort : members.optional? "sort" Json.any? = some d.sort := hany h.sort (by simp)
  have htitle : members.optional? "title" Json.string? = some d.title :=
    hw.optional? .str (by simp) (fun _ _ => rfl) (by simp)
  have hstack : members.optional? "stack" (Json.name? StackOffset.ofName?) = some d.stack :=
    hw.optional? (fun o => .str o.name) (by simp) (fun o _ => o.ofName?_name) (by simp)
  have hprops : members.others fieldNames = d.props := hw.others
  rw [hmembers, ofJson?]
  simp only [Json.members?, Option.bind_eq_bind, Option.bind_some, hfield, htype, hbin, htimeUnit, haggregate, hscale,
    haxis, hlegend, hsort, htitle, hstack, hprops]

theorem isValue_of_any? {members : Members} {key : String} {x : Option Json}
    (h : members.optional? key Json.any? = some x) : ∀ j ∈ x, IsValue j := by
  intro j hj
  obtain ⟨j', -, hnull, hread⟩ := Members.of_optional? h j hj
  obtain rfl := Option.some.inj hread
  exact ⟨j'.distinctKeys_settle, Json.settle_ne_null hnull⟩

theorem legible_of_ofJson? {j : Json} (hj : j.distinctKeys = true) {d : FieldDef} (h : ofJson? j = some d) :
    d.Legible := by
  simp only [ofJson?, Option.bind_eq_bind, Option.bind_eq_some_iff, Option.some.injEq] at h
  obtain ⟨members, hmembers, _, -, _, -, bin, hbin, _, -, aggregate, haggregate, scale, hscale, axis, haxis, legend,
    hlegend, sort, hsort, _, -, _, -, rfl⟩ := h
  have hvalues : ∀ e ∈ members, e.2.distinctKeys = true := by
    cases j with
    | obj members' =>
      obtain rfl := Option.some.inj hmembers
      exact (Json.distinctKeys_obj_iff.1 hj).2
    | _ => cases hmembers
  exact
    { bin := fun b hb => by
        obtain ⟨j', hmem, -, hread⟩ := Members.of_optional? hbin b hb
        exact Bin.ofJson?_toJson (hvalues _ hmem) hread
      aggregate := fun a ha => by
        obtain ⟨j', -, -, hread⟩ := Members.of_optional? haggregate a ha
        exact Aggregate.ofJson?_toJson hread
      scale := isValue_of_any? hscale
      axis := isValue_of_any? haxis
      legend := isValue_of_any? hlegend
      sort := isValue_of_any? hsort
      props := Members.free_others members fieldNames }

theorem Legible.withoutTag {d : FieldDef} (h : d.Legible) : d.withoutTag.Legible where
  bin := h.bin
  aggregate a ha := by
    obtain ⟨o, -, rfl⟩ := Option.map_eq_some_iff.1 ha
    exact Aggregate.ofJson?_op o
  scale := h.scale
  axis := h.axis
  legend := h.legend
  sort := h.sort
  props := h.props

theorem Legible.extracted {d : FieldDef} (h : d.Legible) : d.extracted.Legible where
  bin b hb := by
    rw [FieldDef.extracted] at hb
    split at hb
    · obtain rfl := Option.some.inj hb
      rfl
    · cases hb
  aggregate a ha := by cases ha
  scale := h.scale
  axis := h.axis
  legend := h.legend
  sort := h.sort
  props := h.props

end FieldDef

/-! ### Channels -/

namespace ChannelDef

def Legible : ChannelDef → Prop
  | fields defs => ∀ d ∈ defs, d.Legible
  | field d => d.Legible
  | value v => v.distinctKeys = true

theorem ofJson?_toJson {c : ChannelDef} (h : c.Legible) : ofJson? c.toJson = some c := by
  cases c with
  | fields defs =>
    rw [toJson, ofJson?, Json.list?_map FieldDef.toJson fun d hd => FieldDef.ofJson?_toJson (h d hd)]
    rfl
  | field d =>
    show ((FieldDef.ofJson? d.toJson).map field).or _ = _
    rw [FieldDef.ofJson?_toJson h]
    rfl
  | value v => exact congrArg (fun j => some (value j)) (Json.settle_eq_self h)

theorem legible_of_ofJson? {j : Json} (hj : j.distinctKeys = true) {c : ChannelDef} (h : ofJson? j = some c) :
    c.Legible := by
  rcases Option.or_eq_some_iff.1 h with hfields | ⟨-, h⟩
  · obtain ⟨defs, hdefs, rfl⟩ := Option.map_eq_some_iff.1 hfields
    intro d hd
    obtain ⟨j', hj', hread⟩ := Json.of_list? hj hdefs d hd
    exact FieldDef.legible_of_ofJson? hj' hread
  rcases Option.or_eq_some_iff.1 h with hfield | ⟨-, hvalue⟩
  · obtain ⟨d, hd, rfl⟩ := Option.map_eq_some_iff.1 hfield
    exact FieldDef.legible_of_ofJson? hj hd
  · obtain ⟨v, hv, rfl⟩ := Option.map_eq_some_iff.1 hvalue
    obtain ⟨members, -, hv⟩ := Option.bind_eq_some_iff.1 hv
    obtain ⟨j', -, hread⟩ := Members.of_required? hv
    obtain rfl := Option.some.inj hread
    exact j'.distinctKeys_settle

theorem Legible.settled? {c : ChannelDef} (h : c.Legible) {channel : Channel} {c' : ChannelDef}
    (hc' : c.settled? channel = some c') : c'.Legible := by
  rcases eq_of_settled? hc' with rfl | ⟨defs, rfl, rfl⟩
  · exact h
  · exact fun d hd => h d (List.mem_filter.1 hd).1

theorem Legible.mapFields {c : ChannelDef} (h : c.Legible) {f : FieldDef → FieldDef}
    (hf : ∀ d : FieldDef, d.Legible → (f d).Legible) : (c.mapFields f).Legible := by
  cases c with
  | fields defs =>
    intro d hd
    obtain ⟨d, hmem, rfl⟩ := List.mem_map.1 hd
    exact hf d (h d hmem)
  | field d => exact hf d h
  | value v => exact h

theorem Legible.fieldDefs {c : ChannelDef} (h : c.Legible) : ∀ d ∈ c.fieldDefs, d.Legible := by
  cases c with
  | fields defs => exact h
  | field d => exact fun d' hd' => List.mem_singleton.1 hd' ▸ h
  | value v => exact fun d hd => by cases hd

end ChannelDef

/-! ### Encodings -/

namespace Encoding

def Legible (e : Encoding) : Prop := ∀ b ∈ e.entries, b.2.Legible

theorem ofJson?_toJson {e : Encoding} (h : e.Legible) : ofJson? e.toJson = some e := by
  have hbindings : (e.entries.map fun b => (b.1.name, b.2.toJson)).mapM (fun m => do
      let c ← Channel.ofName? m.1
      let d ← ChannelDef.ofJson? m.2
      some (c, d)) = some e.entries := by
    refine mapM_eq_some_iff.2 (List.forall₂_map_left_iff.2 (List.forall₂_same.2 fun b hb => ?_))
    simp only [Channel.ofName?_name, ChannelDef.ofJson?_toJson (h b hb), Option.bind_eq_bind, Option.bind_some]
  rw [ofJson?, toJson, Json.members?, Option.bind_eq_bind, Option.bind_some, hbindings, Option.bind_eq_bind,
    Option.bind_some, OrderedMap.ofList_entries]

theorem legible_of_ofJson? {j : Json} (hj : j.distinctKeys = true) {e : Encoding} (h : ofJson? j = some e) :
    e.Legible := by
  simp only [ofJson?, Option.bind_eq_bind, Option.bind_eq_some_iff, Option.some.injEq] at h
  obtain ⟨members, hmembers, bindings, hbindings, rfl⟩ := h
  have hvalues : ∀ m ∈ members, m.2.distinctKeys = true := by
    cases j with
    | obj members' =>
      obtain rfl := Option.some.inj hmembers
      exact (Json.distinctKeys_obj_iff.1 hj).2
    | _ => cases hmembers
  intro b hb
  obtain ⟨m, hm, hread⟩ := exists_of_forall₂ (mapM_eq_some_iff.1 hbindings) (OrderedMap.mem_ofList hb)
  simp only [Option.bind_eq_some_iff, Option.some.injEq] at hread
  obtain ⟨c, -, d, hd, rfl⟩ := hread
  exact ChannelDef.legible_of_ofJson? (hvalues m hm) hd

variable {e : Encoding}

theorem legible_empty : Legible ∅ := by
  intro b hb
  cases hb

theorem Legible.restrict (h : e.Legible) (keep : Channel → Bool) : Legible (OrderedMap.restrict e keep) :=
  fun b hb => h b (OrderedMap.mem_restrict.1 hb).1

theorem Legible.insert (h : e.Legible) {c : Channel} {d : ChannelDef} (hd : d.Legible) :
    Legible (OrderedMap.insert e c d) := by
  intro b hb
  rcases OrderedMap.mem_insert hb with rfl | hb
  exacts [hd, h b hb]

theorem Legible.promoteSecondary (h : e.Legible) : e.promoteSecondary.Legible := by
  intro b hb
  rw [entries_promoteSecondary] at hb
  obtain ⟨b, hmem, rfl⟩ := List.mem_map.1 hb
  exact h b hmem

theorem Legible.settle (h : e.Legible) (m : Primitive) : (e.settle m).Legible := by
  rintro ⟨c, d⟩ hb
  obtain ⟨d', hmem, hd⟩ := OrderedMap.mem_filterMapValues.1 hb
  split at hd
  · exact (h _ hmem).settled? hd
  · cases hd

theorem Legible.mapFields (h : e.Legible) {f : FieldDef → FieldDef} (hf : ∀ d : FieldDef, d.Legible → (f d).Legible) :
    Legible (OrderedMap.mapValues (fun _ d => d.mapFields f) e) := by
  intro b hb
  obtain ⟨b, hmem, rfl⟩ := List.mem_map.1 hb
  exact (h b hmem).mapFields hf

theorem Legible.field? (h : e.Legible) {c : Channel} {d : FieldDef} (hd : e.field? c = some d) : d.Legible := by
  obtain ⟨b, hb, hd⟩ := Option.bind_eq_some_iff.1 hd
  have hlegible := h _ (OrderedMap.get?_eq_some_iff.1 hb)
  cases b with
  | field d' =>
    obtain rfl := Option.some.inj hd
    exact hlegible
  | _ => cases hd

theorem Legible.extract (h : e.Legible) : e.extract.encoding.Legible :=
  (h.mapFields fun _ hd => hd.withoutTag).mapFields fun _ hd => hd.extracted

/-- The bins that are extracted were requested by some definition. -/
theorem Legible.bins (h : e.Legible) : ∀ s ∈ e.extract.bins, Bin.ofJson? s.bin.toJson = some s.bin := by
  intro s hs
  obtain ⟨d, hd, hstage⟩ := List.mem_filterMap.1 hs
  obtain ⟨b, hb, hd⟩ := List.mem_flatMap.1 hd
  have hlegible := ((h.mapFields fun _ hd => hd.withoutTag) b hb).fieldDefs d hd
  rw [FieldDef.binStage?] at hstage
  split at hstage
  · next bin field hop hbin hfield =>
    obtain rfl := Option.some.inj hstage
    exact hlegible.bin bin (Option.filter_eq_some_iff.1 hbin).1
  · cases hstage

end Encoding

end ChartNormal
