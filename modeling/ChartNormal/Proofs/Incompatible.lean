import ChartNormal.Proofs.Lockstep
import ChartNormal.Proofs.NormalForm
import ChartNormal.Proofs.Validity

/-!
# Channels that a composite mark does not accept

A composite mark drops them before it is expanded, and notes each (`incompatible_resolve`). Its parts are then settled
under marks of their own, which accept other channels than it does. But a part binds only what its mark supports, and the
near end of its range is always there (`cleanPart_of_drawing`), so that settling it adds no note about a channel. What a
part binds besides the accepted channels is the far end of its range.
-/

namespace ChartNormal

/-! ### Warnings about channels -/

namespace Warning

/-- The warning is about a channel that the mark does not take. -/
def isIncompatible : Warning → Bool
  | incompatibleChannel .. => true
  | _ => false

/-- The warnings about channels that a mark does not take. -/
def incompatible (ws : List Warning) : List Warning := ws.filter isIncompatible

theorem incompatible_append (ws ws' : List Warning) :
    incompatible (ws ++ ws') = incompatible ws ++ incompatible ws' := List.filter_append ..

theorem incompatible_eq_nil_iff {ws : List Warning} : incompatible ws = [] ↔ ∀ w ∈ ws, w.isIncompatible = false := by
  simp [incompatible, List.filter_eq_nil_iff]

theorem incompatible_map {α : Type} {f : α → Warning} (h : ∀ a, (f a).isIncompatible = false) (l : List α) :
    incompatible (l.map f) = [] := by
  rw [incompatible_eq_nil_iff]
  intro w hw
  obtain ⟨a, -, rfl⟩ := List.mem_map.1 hw
  exact h a

end Warning

open Warning

theorem ChannelDef.incompatible_dropped (c : Channel) (d : ChannelDef) : incompatible (d.dropped c) = [] := by
  cases d with
  | fields defs =>
    rw [dropped]
    split
    · exact incompatible_map (fun _ => rfl) _
    · rfl
  | field f =>
    rw [dropped]
    split <;> rfl
  | value v => rfl

theorem Encoding.incompatible_extractWarnings (e : Encoding) (mark : String) :
    incompatible (e.extractWarnings mark) = [] := by
  rw [incompatible_eq_nil_iff]
  intro w hw
  obtain ⟨b, -, hw⟩ := List.mem_flatMap.1 hw
  obtain ⟨d, -, hw⟩ := List.mem_filterMap.1 hw
  rw [FieldDef.tagWarning?] at hw
  split at hw <;> cases hw
  rfl

/-- A mark that supports all channels has nothing to note about them. -/
theorem Encoding.incompatible_settleWarnings {e : Encoding} {m : Primitive}
    (h : ∀ b ∈ e.entries, b.1.supports m = true) : incompatible (e.settleWarnings m) = [] := by
  rw [incompatible_eq_nil_iff]
  intro w hw
  obtain ⟨b, hb, hw⟩ := List.mem_flatMap.1 hw
  rw [if_pos (h b hb)] at hw
  exact incompatible_eq_nil_iff.1 (ChannelDef.incompatible_dropped b.1 b.2) w hw

namespace Composite

theorem incompatible_acceptedWarnings (e : Encoding) (tag : String) :
    incompatible (acceptedWarnings e tag) = acceptedWarnings e tag := by
  refine List.filter_eq_self.2 fun w hw => ?_
  obtain ⟨c, -, rfl⟩ := List.mem_map.1 hw
  rfl

theorem incompatible_axisResolve {e : Encoding} {o : Orient} {tag : String} {policy : AggregatePolicy} {a : Axis}
    {ws : List Warning} (h : Axis.resolve e o tag policy = .noted a ws) : incompatible ws = [] := by
  rw [Axis.resolve] at h
  split at h
  · cases h
  · split at h
    · cases h
    · obtain ⟨_, hcheck, -⟩ := Report.bind_pure_eq_noted.1 h
      unfold Axis.checkAggregate at hcheck
      split at hcheck
      · obtain ⟨-, rfl⟩ := Report.pure_eq_noted.1 hcheck
        rfl
      · split at hcheck
        · obtain ⟨-, rfl⟩ := Report.pure_eq_noted.1 hcheck
          rfl
        · split at hcheck
          · cases hcheck
          · cases hcheck
            rfl

theorem incompatible_resolve {u : UnitSpec} {policy : AggregatePolicy} {p : Composite} {ws : List Warning}
    (h : resolve u policy = .noted p ws) : incompatible ws = acceptedWarnings u.encoding u.mark.type := by
  rw [resolve, type_toDef] at h
  obtain ⟨_, _, _, haccept, horient, rfl⟩ := Report.bind_eq_noted.1 h
  obtain ⟨-, rfl⟩ := Report.noted_inj.1 haccept
  obtain ⟨o, _, _, ho, haxis, rfl⟩ := Report.bind_eq_noted.1 horient
  obtain ⟨-, rfl⟩ := Report.lift_eq_noted.1 ho
  obtain ⟨a, _, _, ha, hextract, rfl⟩ := Report.bind_eq_noted.1 haxis
  obtain ⟨-, rfl⟩ := Report.noted_inj.1 hextract
  rw [incompatible_append, incompatible_append, incompatible_append, incompatible_axisResolve ha,
    Encoding.incompatible_extractWarnings, incompatible_acceptedWarnings]
  exact List.append_nil _

theorem Recipe.incompatible_warnings {r : Recipe} (hr : r ∈ Recipe.all) (p : Composite) (config : Config) :
    incompatible (r.warnings p config) = [] := by
  have hinterval (mark : MarkDef) (center : Center) (extent : Option Extent) (tag : String) :
      incompatible (Interval.warnings mark center extent tag) = [] := by
    rw [Interval.warnings, incompatible_append, Interval.extentWarnings, Interval.centerWarnings]
    split <;> split_ifs <;> rfl
  rcases Recipe.mem_all_iff.1 hr with rfl | rfl | rfl
  · simp only [Recipe.boxPlot, BoxPlot.whiskerWarnings]
    split <;> rfl
  · exact hinterval ..
  · simp only [Recipe.errorBand, incompatible_append, hinterval, List.nil_append, ErrorBand.interpolationWarnings]
    split
    · exact incompatible_map (fun _ => rfl) _
    · rfl

theorem Recipe.incompatible_expand {r : Recipe} (hr : r ∈ Recipe.all) {u : UnitSpec} {config : Config} {l : LayerSpec}
    {ws : List Warning} (h : r.expand u config = .noted l ws) :
    incompatible ws = acceptedWarnings u.encoding u.mark.type := by
  obtain ⟨p, _, _, hp, hrest, rfl⟩ := Report.bind_eq_noted.1 h
  obtain ⟨_, _, _, hwarn, hlayer, rfl⟩ := Report.bind_eq_noted.1 hrest
  obtain ⟨-, rfl⟩ := Report.noted_inj.1 hwarn
  obtain ⟨-, rfl⟩ := Report.lift_eq_noted.1 hlayer
  rw [incompatible_append, incompatible_append, incompatible_resolve hp, Recipe.incompatible_warnings hr]
  exact List.append_nil _

/-! ### What parts bind -/

/-- The far ends of the ranges that parts span. -/
def rangeEnds : List String := ["lowerBox", "upperWhisker", "upperBox", "upper"]

theorem Recipe.stop_mem_rangeEnds {r : Recipe} (hr : r ∈ Recipe.all) {p : Composite} {config : Config} {d : Drawing}
    (hd : d ∈ r.drawings p config) {s : String} (hs : d.stop = some s) : s ∈ rangeEnds := by
  rcases Recipe.mem_all_iff.1 hr with rfl | rfl | rfl
  · simp only [Recipe.boxPlot, BoxPlot.drawings, List.mem_cons, List.not_mem_nil, or_false] at hd
    rcases hd with rfl | rfl | rfl | rfl <;> cases hs <;> decide
  · simp only [Recipe.errorBar, ErrorBar.drawings, List.mem_cons, List.not_mem_nil, or_false] at hd
    rcases hd with rfl | rfl | rfl | rfl | rfl | rfl <;> cases hs <;> decide
  · simp only [Recipe.errorBand, ErrorBand.drawings, List.mem_cons, List.not_mem_nil, or_false] at hd
    obtain rfl | rfl | rfl := hd
    · cases hs
      decide
    · cases hs
    · cases hs

/-- A binding that the expansion of `u` makes itself: the far end of a range along the continuous axis. -/
def RangeEnd (u : UnitSpec) (b : Channel × ChannelDef) : Prop :=
  ∃ o d field stem, orient (accepted u.encoding) u.mark.toDef u.mark.type = .ok o ∧
    (accepted u.encoding).field? o.continuous = some d ∧ d.field = some field ∧ stem ∈ rangeEnds ∧
    b = (o.secondary, .field { field := some (Column.derived stem field), type := d.type })

/-- A range end is kept as it is. -/
theorem RangeEnd.of_settled? {u : UnitSpec} {c : Channel} {d d' : ChannelDef} (h : RangeEnd u (c, d))
    (hd : d.settled? c = some d') : RangeEnd u (c, d') := by
  rcases ChannelDef.eq_of_settled? hd with rfl | ⟨defs, rfl, -⟩
  · exact h
  · obtain ⟨_, _, _, _, -, -, -, -, hb⟩ := h
    cases hb

/-- A part of `u` that its mark draws with all its channels. -/
structure CleanPart (u v : UnitSpec) (m : Primitive) : Prop where
  primitive : v.mark.primitive? = some m
  ranged : ¬ v.encoding.HasOrphan
  supported : ∀ b ∈ v.encoding.entries, b.1.supports m = true
  bound : ∀ b ∈ v.encoding.entries, b.1 ∈ channels ∨ RangeEnd u b

section Drawn

variable {r : Recipe} (hr : r ∈ Recipe.all) {u : UnitSpec} {o : Orient} {d : FieldDef} {field : String}
  {config : Config} {dr : Drawing} (hdr : dr ∈ r.drawings (along u o d field) config)

include hr hdr

/-- The near end of a range is there whenever the far end is. -/
theorem not_hasOrphan_partEncoding (m : Primitive) :
    ¬ (((along u o d field).partEncoding dr.start dr.stop dr.shared).supportedBy m).HasOrphan := by
  rintro ⟨c, c₂, hsec, hc₂, hc⟩
  obtain ⟨e, he⟩ := OrderedMap.contains_iff.1 hc₂
  have hc₂ : c₂ = o.secondary := by
    rcases channel_partEncoding hr hdr (OrderedMap.mem_restrict.1 he).1 with h | h
    · exact absurd h (not_mem_channels_of_secondary? hsec)
    · exact h
  obtain rfl : c = o.continuous := Channel.eq_of_secondary? hsec (by rw [hc₂]; cases o <;> rfl)
  rw [OrderedMap.contains, Encoding.supportedBy, OrderedMap.get?_restrict, if_pos (Channel.supports_primary hsec m),
    get?_axis_partEncoding hr hdr] at hc
  cases hc

theorem cleanPart_of_drawing (ho : orient (accepted u.encoding) u.mark.toDef u.mark.type = .ok o)
    (hd : (accepted u.encoding).field? o.continuous = some d) (hfield : d.field = some field) {v : UnitSpec}
    (hv : dr.unit (along u o d field) config = .ok v) : ∃ m, CleanPart u v m := by
  obtain ⟨m, hm⟩ := Recipe.primitive_base hr hdr
  obtain ⟨mark, -, htype, rfl⟩ := Drawing.unit_eq_ok hm hv
  refine ⟨m, by rw [Mark.primitive?, Mark.type, htype, hm], not_hasOrphan_partEncoding hr hdr m,
    fun b hb => (OrderedMap.mem_restrict.1 hb).2, fun b hb => ?_⟩
  rcases mem_partEncoding (OrderedMap.mem_restrict.1 hb).1 with hb | rfl | ⟨s, hs, rfl⟩
  · exact .inl (Recipe.sharedOrConstant hr hdr hb).channel.1
  · exact .inl (show o.continuous ∈ channels by cases o <;> decide)
  · exact .inr ⟨o, d, field, s, ho, hd, hfield, Recipe.stop_mem_rangeEnds hr hdr hs, rfl⟩

end Drawn

theorem cleanParts_of_expand {r : Recipe} (hr : r ∈ Recipe.all) {u : UnitSpec} {config : Config} {l : LayerSpec}
    {ws : List Warning} (h : r.expand u config = .noted l ws) {units : List UnitSpec}
    (hl : l.layers = units.map .unit) : ∀ v ∈ units, ∃ m, CleanPart u v m := by
  obtain ⟨p, _, units', hp, hunits, rfl⟩ := Recipe.expand_eq_noted h
  obtain ⟨o, d, field, ho, hd, hfield, rfl⟩ := resolve_eq_noted hp
  obtain rfl : units' = units := List.map_injective_iff.2 (fun _ _ => Spec.unit.inj) hl
  intro v hv
  obtain ⟨dr, hdr, hv⟩ := exists_of_forall₂ hunits hv
  exact cleanPart_of_drawing hr (List.mem_filter.1 hdr).1 ho hd hfield hv

variable {config : Config} {u w : UnitSpec} {m : Primitive}

theorem CleanPart.incompatible_settledWarnings (h : CleanPart u w m) : incompatible w.settledWarnings = [] := by
  unfold UnitSpec.settledWarnings UnitSpec.settleWarnings
  rw [h.primitive, Encoding.promoteSecondary_eq_self_iff.2 h.ranged]
  exact Encoding.incompatible_settleWarnings h.supported

/-- Overlays bind nothing else. -/
theorem CleanPart.bound_of_mem_leaves (h : CleanPart u w m) {v : UnitSpec} (hv : v ∈ (w.settled config).leaves)
    {b : Channel × ChannelDef} (hb : b ∈ v.encoding.entries) : b.1 ∈ channels ∨ RangeEnd u b := by
  rw [UnitSpec.settled, h.primitive] at hv
  have hdrawn : b ∈ (w.encoding.settle m).entries := by
    rw [← Encoding.promoteSecondary_eq_self_iff.2 h.ranged]
    rcases UnitSpec.mem_leaves_settle hv with ⟨-, rfl⟩ | rfl | rfl | rfl
    · exact hb
    · exact hb
    · exact (OrderedMap.mem_restrict.1 hb).1
    · exact (OrderedMap.mem_restrict.1 hb).1
  obtain ⟨d, hd, hsettled⟩ := OrderedMap.mem_filterMapValues.1 hdrawn
  rw [Option.ite_none_right_eq_some] at hsettled
  exact (h.bound _ hd).imp_right (·.of_settled? hsettled.2)

/-! ### Facet channels -/

theorem acceptedWarnings_without (e : Encoding) (tag : String) :
    acceptedWarnings (e.without [.row, .column]) tag =
      (e.channels.filter (· ∉ [.row, .column] ++ channels)).map (.incompatibleChannel · tag) := by
  rw [acceptedWarnings, Encoding.channels, Encoding.channels, OrderedMap.keys, OrderedMap.keys, Encoding.without,
    OrderedMap.entries_restrict, List.filter_map, List.filter_map, List.filter_filter]
  refine congrArg _ (congrArg _ (List.filter_congr fun b _ => ?_))
  change (decide (b.1 ∉ channels) && decide (b.1 ∉ [Channel.row, .column])) = decide (b.1 ∉ [.row, .column] ++ channels)
  generalize b.1 = c
  cases c <;> decide

end Composite

theorem UnitSpec.encoding_flattened (scope : Scope) (u : UnitSpec) :
    (u.flattened scope).encoding = u.encoding.without [.row, .column] := by
  unfold flattened
  split
  · next hf =>
    obtain ⟨hrow, hcolumn⟩ := hasFacetChannel_eq_false_iff.1 (by simpa using hf)
    refine (OrderedMap.ext (List.filter_eq_self.2 fun b hb => ?_)).symm
    have hc := OrderedMap.mem_keys_of_mem hb
    simp [show b.1 ≠ .row from fun h => hrow (h ▸ hc), show b.1 ≠ .column from fun h => hcolumn (h ▸ hc)]
  · split <;> rfl

namespace Normalizer

open Composite

/-- **A composite mark reports each channel that it does not accept once.** In declaration order and whatever the parts it
expands into, with no other warning of the kind; and no unit of the result binds such a channel, but for the far end of a
range that the expansion itself spans along the continuous axis. Facet channels are not the mark's to report. -/
theorem reports_unaccepted_channels_once {config : Config} {scope : Scope} {u : UnitSpec} {t : Spec}
    {ws : List Warning} (hu : Registry.standard.contains u.mark.type = true)
    (h : (standard config).spec (expansion config) scope (.unit u) = .noted t ws) :
    ws.filter Warning.isIncompatible =
        (u.encoding.channels.filter (· ∉ [.row, .column] ++ channels)).map (.incompatibleChannel · u.mark.type) ∧
      ∀ v ∈ t.leaves, ∀ b ∈ v.encoding.entries, b.1 ∈ channels ∨ RangeEnd u b := by
  rw [contains_standard, Option.isSome_iff_exists] at hu
  obtain ⟨r, hr⟩ := hu
  obtain ⟨t', ws', cs, hflat, rfl, rfl⟩ := unit_eq_noted h
  have hmark := UnitSpec.mark_flattened scope u
  obtain ⟨l, ws₀, units, he, hl, -, rfl, rfl⟩ := flatUnit_composite (hmark ▸ hr) hflat
  have hall := (Recipe.mem_all_of_ofTag? hr).1
  have hclean := cleanParts_of_expand hall he hl
  constructor
  · change incompatible _ = _
    have hparts : incompatible (units.flatMap (·.settledWarnings)) = [] := by
      rw [incompatible_eq_nil_iff]
      intro w hw
      obtain ⟨v, hv, hw⟩ := List.mem_flatMap.1 hw
      obtain ⟨m, hm⟩ := hclean v hv
      exact incompatible_eq_nil_iff.1 hm.incompatible_settledWarnings w hw
    rw [incompatible_append, incompatible_append, incompatible_map (fun _ => rfl), hparts,
      Recipe.incompatible_expand hall he, hmark, UnitSpec.encoding_flattened, acceptedWarnings_without, List.append_nil,
      List.nil_append]
  · intro v hv b hb
    rw [UnitSpec.leaves_wrapped, Spec.leaves_layer, List.flatMap_map, List.mem_flatMap] at hv
    obtain ⟨w, hw, hv⟩ := hv
    obtain ⟨m, hm⟩ := hclean w hw
    have hbound := hm.bound_of_mem_leaves hv hb
    rwa [RangeEnd, hmark, UnitSpec.encoding_flattened, accepted_without] at hbound

/-- A box plot by rows: its shapes, far end and tooltips are reported once for its four parts, three of which have a far
end of their own. -/
theorem reports_unaccepted_channels_boxPlot :
    let yield : FieldDef := { field := some "yield", type := .quantitative }
    let site : FieldDef := { field := some "site", type := .nominal }
    let u : UnitSpec :=
      { mark := .tag "box-plot"
        encoding := .ofList [(.row, .field site), (.shape, .field site), (.y2, .field yield), (.x, .field site),
          (.y, .field yield), (.size, .value .null), (.tooltip, .fields [site])] }
    ∃ t ws, (standard .defaults).spec (expansion .defaults) .top (.unit u) = .noted t ws ∧
      ws.filter Warning.isIncompatible = [.incompatibleChannel .shape "box-plot", .incompatibleChannel .y2 "box-plot",
        .incompatibleChannel .tooltip "box-plot"] ∧
      t.leaves.map (fun v => v.encoding.contains .y2) = [true, true, true, false] ∧
      ∀ v ∈ t.leaves, ∀ b ∈ v.encoding.entries, b.1 ∈ channels ∨ RangeEnd u b := by
  intro yield site u
  have hrun : Except.map (fun r : Spec × List Warning => r.1.leaves.map fun v => v.encoding.contains .y2)
      ((standard .defaults).spec (expansion .defaults) .top (.unit u)) = .ok [true, true, true, false] := by
    decide +kernel +zetaReduce
  obtain ⟨t, ws, h, hleaves⟩ := Report.exists_noted_of_map hrun
  obtain ⟨hws, hbound⟩ := reports_unaccepted_channels_once rfl h
  refine ⟨t, ws, h, hws.trans ?_, hleaves, hbound⟩
  decide +kernel +zetaReduce

end Normalizer

end ChartNormal
