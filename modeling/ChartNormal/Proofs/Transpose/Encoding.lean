import ChartNormal.Encoding.Extraction
import ChartNormal.Proofs.Encoding
import ChartNormal.Proofs.Report

/-!
# Transposed encodings

To transpose a chart is to exchange its axes: `x` with `y` and `x2` with `y2` in every encoding, each binding in its place,
and the orientation of every mark definition. Neither what a mark draws of an encoding nor the transforms behind it
prefer one axis: promotion, settling and extraction commute with transposition, and so do the warnings they give.
-/

namespace ChartNormal

namespace Channel

/-- The channel along the other axis. -/
def transpose : Channel → Channel
  | x => y
  | y => x
  | x2 => y2
  | y2 => x2
  | c => c

@[simp] theorem transpose_transpose (c : Channel) : c.transpose.transpose = c := by cases c <;> rfl

theorem transpose_injective : Function.Injective transpose :=
  Function.LeftInverse.injective transpose_transpose

@[simp] theorem supports_transpose (c : Channel) (m : Primitive) : c.transpose.supports m = c.supports m := by
  cases c <;> rfl

@[simp] theorem acceptsList_transpose (c : Channel) : c.transpose.acceptsList = c.acceptsList := by
  cases c <;> rfl

@[simp] theorem isFacet_transpose (c : Channel) : c.transpose.isFacet = c.isFacet := by
  cases c <;> rfl

end Channel

/-! ### Reports -/

def Warning.transpose : Warning → Warning
  | .incompatibleChannel c mark => .incompatibleChannel c.transpose mark
  | .emptyField c => .emptyField c.transpose
  | .listNotSupported c => .listNotSupported c.transpose
  | .facetDropped c => .facetDropped c.transpose
  | .foreignAggregate c aggregate mark => .foreignAggregate c.transpose aggregate mark
  | .stackRanged c => .stackRanged c.transpose
  | w => w

def Failure.transpose : Failure → Failure
  | .invalid (.orientConflict o composite) => .invalid (.orientConflict o.flip composite)
  | f => f

/-- The outcome for the transposed chart, whose value is the transposed one. -/
def exceptTransposeBy {α β : Type} (f : α → β) : Except Failure α → Except Failure β
  | .error e => .error e.transpose
  | .ok a => .ok (f a)

namespace Report

variable {α α' β β' : Type}

/-- The report on the transposed chart, whose value is the transposed one. -/
def transposeBy (f : α → β) : Report α → Report β
  | .error e => .error e.transpose
  | .ok (a, ws) => .ok (f a, ws.map Warning.transpose)

@[simp] theorem transposeBy_fail (f : α → β) (e : Failure) :
    (fail e : Report α).transposeBy f = fail e.transpose := rfl

@[simp] theorem transposeBy_noted (f : α → β) (a : α) (ws : List Warning) :
    (noted a ws).transposeBy f = noted (f a) (ws.map Warning.transpose) := rfl

@[simp] theorem transposeBy_pure (f : α → β) (a : α) :
    (pure a : Report α).transposeBy f = (pure (f a) : Report β) := rfl

theorem transposeBy_lift (f : α → β) (x : Except Failure α) :
    (liftM (exceptTransposeBy f x) : Report β) = (liftM x : Report α).transposeBy f := by
  cases x <;> rfl

/-- One step after another: it is enough that each of them commutes with transposition. -/
theorem transposeBy_bind {r : Report α} {f : α → α'} {g : α → Report β} {g' : α' → Report β'} {h : β → β'}
    (hg : ∀ a ws, r = noted a ws → g' (f a) = (g a).transposeBy h) :
    (r.transposeBy f >>= g') = (r >>= g).transposeBy h := by
  change Report.bind _ g' = (Report.bind r g).transposeBy h
  cases r with
  | fail e => rfl
  | noted a ws =>
    rw [transposeBy_noted]
    change Report.bind (.ok _) g' = (Report.bind (.ok _) g).transposeBy h
    rw [Report.bind, Report.bind, hg a ws rfl]
    cases g a with
    | fail e => rfl
    | noted b ws' =>
      change Except.ok _ = Except.ok _
      rw [List.map_append]

end Report

/-! ### Encodings -/

namespace Encoding

/-- The same definitions in the same places, each along the other axis. -/
def transpose (e : Encoding) : Encoding := e.mapKeys Channel.transpose Channel.transpose_injective

theorem entries_transpose (e : Encoding) :
    e.transpose.entries = e.entries.map fun b => (b.1.transpose, b.2) := rfl

theorem channels_transpose (e : Encoding) : e.transpose.channels = e.channels.map Channel.transpose :=
  OrderedMap.keys_mapKeys _ e

theorem get?_transpose (e : Encoding) (c : Channel) : e.transpose.get? c.transpose = e.get? c :=
  OrderedMap.get?_mapKeys _ e c

theorem contains_transpose (e : Encoding) (c : Channel) : e.transpose.contains c.transpose = e.contains c := by
  rw [OrderedMap.contains, OrderedMap.contains, get?_transpose]

theorem field?_transpose (e : Encoding) (c : Channel) : e.transpose.field? c.transpose = e.field? c := by
  rw [field?, field?, get?_transpose]

theorem hasField_transpose (e : Encoding) (c : Channel) : e.transpose.hasField c.transpose = e.hasField c := by
  rw [hasField, hasField, get?_transpose]

theorem insert_transpose (e : Encoding) (c : Channel) (d : ChannelDef) :
    OrderedMap.insert e.transpose c.transpose d = transpose (OrderedMap.insert e c d) :=
  OrderedMap.insert_mapKeys _ e c d

theorem extend_transpose (e e' : Encoding) :
    OrderedMap.extend e.transpose e'.transpose = transpose (OrderedMap.extend e e') :=
  OrderedMap.extend_mapKeys _ e e'

/-- A choice of channels that prefers no axis. -/
theorem restrict_transpose (e : Encoding) {keep keep' : Channel → Bool} (h : ∀ c, keep' c.transpose = keep c) :
    OrderedMap.restrict e.transpose keep' = transpose (OrderedMap.restrict e keep) := by
  rw [transpose, OrderedMap.restrict_mapKeys]
  simp only [h]
  rfl

theorem supportedBy_transpose (e : Encoding) (m : Primitive) :
    e.transpose.supportedBy m = (e.supportedBy m).transpose :=
  e.restrict_transpose fun c => c.supports_transpose m

theorem without_transpose (e : Encoding) (cs : List Channel) :
    e.transpose.without (cs.map Channel.transpose) = (e.without cs).transpose := by
  refine e.restrict_transpose fun c => ?_
  simp only [List.mem_map_of_injective Channel.transpose_injective]

theorem promoted_transpose (e : Encoding) (c : Channel) :
    e.transpose.promoted c.transpose = (e.promoted c).transpose := by
  have hx : e.transpose.contains .y = e.contains .x := e.contains_transpose .x
  have hy : e.transpose.contains .x = e.contains .y := e.contains_transpose .y
  cases c with
  | x2 =>
    rw [promoted, Channel.transpose, promoted, hx]
    cases e.contains .x <;> rfl
  | y2 =>
    rw [promoted, Channel.transpose, promoted, hy]
    cases e.contains .y <;> rfl
  | _ => rfl

theorem promoteSecondary_transpose (e : Encoding) :
    e.transpose.promoteSecondary = e.promoteSecondary.transpose := by
  refine OrderedMap.ext ?_
  rw [entries_promoteSecondary, entries_transpose, entries_transpose, entries_promoteSecondary, List.map_map,
    List.map_map]
  refine List.map_congr_left fun b _ => ?_
  exact Prod.ext (e.promoted_transpose b.1) rfl

end Encoding

/-! ### What a mark draws -/

namespace ChannelDef

theorem settled?_transpose (c : Channel) (d : ChannelDef) : d.settled? c.transpose = d.settled? c := by
  cases d <;> simp [settled?]

theorem dropped_transpose (c : Channel) (d : ChannelDef) :
    d.dropped c.transpose = (d.dropped c).map Warning.transpose := by
  cases d with
  | fields defs =>
    rw [dropped, dropped, Channel.acceptsList_transpose]
    split
    · rw [List.map_map]; rfl
    · rfl
  | field f =>
    rw [dropped, dropped]
    split <;> rfl
  | value v => rfl

end ChannelDef

namespace Encoding

theorem settle_transpose (e : Encoding) (m : Primitive) : e.transpose.settle m = (e.settle m).transpose := by
  rw [settle, transpose, OrderedMap.filterMapValues_mapKeys]
  simp only [Channel.supports_transpose, ChannelDef.settled?_transpose]
  rfl

theorem settleWarnings_transpose (e : Encoding) (m : Primitive) :
    e.transpose.settleWarnings m = (e.settleWarnings m).map Warning.transpose := by
  rw [settleWarnings, settleWarnings, entries_transpose, List.flatMap_map, List.map_flatMap]
  refine List.flatMap_congr fun b _ => ?_
  rw [Channel.supports_transpose, ChannelDef.dropped_transpose]
  split <;> rfl

end Encoding

/-! ### The transforms behind an encoding -/

def Extraction.transpose (x : Extraction) : Extraction := { x with encoding := x.encoding.transpose }

namespace Encoding

theorem mapValues_transpose (e : Encoding) (f : ChannelDef → ChannelDef) :
    OrderedMap.mapValues (fun _ => f) e.transpose = transpose (OrderedMap.mapValues (fun _ => f) e) :=
  OrderedMap.mapValues_mapKeys _ f e

theorem extract_transpose (e : Encoding) : e.transpose.extract = e.extract.transpose := by
  have hdefs : ∀ e : Encoding, (e.transpose.entries.flatMap fun b => b.2.fieldDefs) =
      e.entries.flatMap fun b => b.2.fieldDefs := by
    intro e
    rw [entries_transpose, List.flatMap_map]
  unfold extract Extraction.transpose
  simp only [mapValues_transpose, hdefs]

theorem tagWarning?_transpose (c : Channel) (mark : String) (d : FieldDef) :
    d.tagWarning? c.transpose mark = (d.tagWarning? c mark).map Warning.transpose := by
  rw [FieldDef.tagWarning?, FieldDef.tagWarning?]
  split <;> rfl

theorem extractWarnings_transpose (e : Encoding) (mark : String) :
    e.transpose.extractWarnings mark = (e.extractWarnings mark).map Warning.transpose := by
  rw [extractWarnings, extractWarnings, entries_transpose, List.flatMap_map, List.map_flatMap]
  refine List.flatMap_congr fun b _ => ?_
  rw [List.map_filterMap]
  exact List.filterMap_congr fun d _ => tagWarning?_transpose b.1 mark d

end Encoding

end ChartNormal
