import ChartNormal.Proofs.NormalForm

/-!
# What is dropped with a warning

Of an encoding a primitive mark drops the channels that it does not support, lists where one definition is taken, and
fields without data. Each of these is noted. A list is also dropped when no field is left of it, and the empty list has
none to begin with, so it goes without a warning. `settleWarnings_eq_nil_iff_settle` says that this is the only such case:
there is no warning exactly when nothing but empty lists is dropped.
-/

namespace ChartNormal

namespace ChannelDef

variable {c : Channel} {d : ChannelDef}

/-- An empty list, on a channel that takes lists. -/
def isEmptyList (c : Channel) : ChannelDef → Bool
  | fields defs => c.acceptsList && defs.isEmpty
  | field _ | value _ => false

theorem isEmptyList_iff : d.isEmptyList c = true ↔ c ∈ [Channel.detail, .order, .tooltip] ∧ d = .fields [] := by
  cases d with
  | fields defs => simp only [isEmptyList, Bool.and_eq_true, acceptsList_iff, List.isEmpty_iff, fields.injEq]
  | field f => simp [isEmptyList]
  | value v => simp [isEmptyList]

theorem not_normal_of_isEmptyList (h : d.isEmptyList c = true) : ¬ d.Normal c := by
  obtain ⟨-, rfl⟩ := isEmptyList_iff.1 h
  intro hn
  exact (hn.list [] rfl).2 rfl

theorem settled?_of_isEmptyList (h : d.isEmptyList c = true) : d.settled? c = none := by
  obtain ⟨-, rfl⟩ := isEmptyList_iff.1 h
  simp [settled?]

/-- A definition is kept as it is, or something of it is dropped with a warning, or it is an empty list. -/
theorem dropped_eq_nil_iff : d.dropped c = [] ↔ d.Normal c ∨ d.isEmptyList c = true := by
  constructor
  · intro h
    cases d with
    | fields defs =>
      cases hc : c.acceptsList with
      | false => simp [dropped, hc] at h
      | true =>
        have hdata : ∀ f ∈ defs, f.hasField = true := by simpa [dropped, hc] using h
        by_cases hdefs : defs = []
        · exact .inr (isEmptyList_iff.2 ⟨acceptsList_iff.1 hc, congrArg fields hdefs⟩)
        · refine .inl ⟨fun defs' hd => ?_, hdata⟩
          obtain rfl := fields.inj hd
          exact ⟨acceptsList_iff.1 hc, hdefs⟩
    | field f =>
      have hdata : f.hasField = true := by simpa [dropped] using h
      exact .inl ⟨by simp, by simpa [fieldDefs] using hdata⟩
    | value v => exact .inl ⟨by simp, by simp [fieldDefs]⟩
  · rintro (h | h)
    · exact dropped_of_normal h
    · obtain ⟨hc, rfl⟩ := isEmptyList_iff.1 h
      simp [dropped, acceptsList_iff.2 hc]

end ChannelDef

namespace Encoding

variable {e : Encoding} {m : Primitive}

/-- The encoding without the empty lists that channels for lists are bound to. -/
def withoutEmptyLists (e : Encoding) : Encoding :=
  e.filterMapValues fun c d => if d.isEmptyList c then none else some d

theorem mem_withoutEmptyLists {b : Channel × ChannelDef} :
    b ∈ e.withoutEmptyLists.entries ↔ b ∈ e.entries ∧ b.2.isEmptyList b.1 = false := by
  obtain ⟨c, d⟩ := b
  rw [withoutEmptyLists, OrderedMap.mem_filterMapValues]
  constructor
  · rintro ⟨d', hd', h⟩
    rw [Option.ite_none_left_eq_some, Option.some.injEq] at h
    obtain ⟨hempty, rfl⟩ := h
    exact ⟨hd', by simpa using hempty⟩
  · rintro ⟨hd, hempty⟩
    exact ⟨d, hd, by simp [show d.isEmptyList c = false from hempty]⟩

theorem withoutEmptyLists_eq_self_iff :
    e.withoutEmptyLists = e ↔ ∀ c ∈ [Channel.detail, .order, .tooltip], e.get? c ≠ some (.fields []) := by
  constructor
  · intro h c hc hget
    have hmem : (c, ChannelDef.fields []) ∈ e.withoutEmptyLists.entries := by
      rw [h]
      exact OrderedMap.get?_eq_some_iff.1 hget
    rw [mem_withoutEmptyLists, ChannelDef.isEmptyList_iff.2 ⟨hc, rfl⟩] at hmem
    cases hmem.2
  · intro h
    refine OrderedMap.filterMapValues_eq_self fun b hb => if_neg fun hempty => ?_
    obtain ⟨hc, hd⟩ := ChannelDef.isEmptyList_iff.1 hempty
    exact h b.1 hc (OrderedMap.get?_eq_some_iff.2 (hd ▸ hb))

theorem settle_eq_self_iff : e.settle m = e ↔ e.Settled m :=
  ⟨fun h => h ▸ settled_settle e m, Settled.settle_eq⟩

/-- Channels for lists are supported by every mark. -/
theorem supports_of_isEmptyList {c : Channel} {d : ChannelDef} (h : d.isEmptyList c = true) (m : Primitive) :
    c.supports m = true := by
  obtain ⟨hc, -⟩ := ChannelDef.isEmptyList_iff.1 h
  simp only [List.mem_cons, List.not_mem_nil, or_false] at hc
  rcases hc with rfl | rfl | rfl <;> cases m <;> rfl

theorem settleWarnings_eq_nil_iff :
    e.settleWarnings m = [] ↔
      ∀ b ∈ e.entries, b.1.supports m = true ∧ (b.2.Normal b.1 ∨ b.2.isEmptyList b.1 = true) := by
  rw [settleWarnings, List.flatMap_eq_nil_iff]
  refine forall₂_congr fun b _ => ?_
  split
  · next hs => rw [ChannelDef.dropped_eq_nil_iff, and_iff_right hs]
  · next hs => simp [hs]

theorem settleWarnings_eq_nil_iff_settle : e.settleWarnings m = [] ↔ e.settle m = e.withoutEmptyLists := by
  rw [settleWarnings_eq_nil_iff]
  constructor
  · intro h
    refine OrderedMap.ext (List.filterMap_congr fun b hb => congrArg (Option.map (b.1, ·)) ?_)
    change (if b.1.supports m then b.2.settled? b.1 else none) = if b.2.isEmptyList b.1 then none else some b.2
    obtain ⟨hs, hn | hempty⟩ := h b hb
    · rw [if_pos hs, ChannelDef.settled?_of_normal hn, if_neg fun hempty => ChannelDef.not_normal_of_isEmptyList hempty hn]
    · rw [if_pos hs, if_pos hempty, ChannelDef.settled?_of_isEmptyList hempty]
  · intro h b hb
    cases hempty : b.2.isEmptyList b.1 with
    | true => exact ⟨supports_of_isEmptyList hempty m, .inr rfl⟩
    | false =>
      obtain ⟨hs, hn⟩ := settled_settle e m b (h ▸ mem_withoutEmptyLists.2 ⟨hb, hempty⟩)
      exact ⟨hs, .inl hn⟩

end Encoding

namespace Report

variable {α : Type}

theorem strict_noted_eq_ok_iff {a b : α} {ws : List Warning} : (noted a ws).strict = .ok b ↔ a = b ∧ ws = [] := by
  cases ws with
  | nil => simp [noted, strict]
  | cons w ws => simp [noted, strict]

end Report

namespace Normalizer

/-- **Dropping is noted, but for empty lists.** A primitive mark gives no warning exactly when all that it drops of an
encoding are empty lists on `detail`, `order` or `tooltip`. So it changes nothing exactly when there is no warning and no
such list, and strict mode accepts a unit whose encoding, after promotion, loses empty lists at most. -/
theorem drops_without_warning_iff (e : Encoding) (m : Primitive) :
    (e.settleWarnings m = [] ↔ e.settle m = e.withoutEmptyLists) ∧
      (e.settle m = e ↔ e.settleWarnings m = [] ∧
        ∀ c ∈ [Channel.detail, .order, .tooltip], e.get? c ≠ some (.fields [])) ∧
      ∀ (config : Config) (u : UnitSpec), u.mark.primitive? = some m → u.hasFacetChannel = false →
        ((∃ t, ((standard config).normalize (.unit u)).strict = .ok t) ↔
          u.drawn m = u.encoding.promoteSecondary.withoutEmptyLists) := by
  refine ⟨Encoding.settleWarnings_eq_nil_iff_settle, ?_, ?_⟩
  · rw [← Encoding.withoutEmptyLists_eq_self_iff, Encoding.settleWarnings_eq_nil_iff_settle]
    constructor
    · intro h
      have hwarn := (Encoding.settle_eq_self_iff.1 h).settleWarnings_eq
      rw [Encoding.settleWarnings_eq_nil_iff_settle, h] at hwarn
      exact ⟨h.trans hwarn, hwarn.symm⟩
    · rintro ⟨h, hself⟩
      exact h.trans hself
  · intro config u hm hf
    rw [normalize_standard, spec_unit_of_flat hf, flatUnit_primitive hm, UnitSpec.drawn,
      ← Encoding.settleWarnings_eq_nil_iff_settle]
    simp only [Report.strict_noted_eq_ok_iff]
    exact ⟨fun ⟨_, _, hws⟩ => hws, fun hws => ⟨_, rfl, hws⟩⟩

/-- A bar that keeps all its channels, and one with an empty list of tooltips besides, which strict mode accepts too. A
tooltip without data is noted, and refused. -/
theorem drops_without_warning_bar :
    let x : Channel × ChannelDef := (.x, .field { field := some "site", type := .nominal })
    let bar (defs : List FieldDef) : UnitSpec := { mark := .tag "bar", encoding := .ofList [x, (.tooltip, .fields defs)] }
    let defs : List FieldDef := [{ field := some "yield", type := .quantitative }]
    ((bar defs).encoding.settle .bar = (bar defs).encoding ↔ (bar defs).encoding.settleWarnings .bar = [] ∧
        ∀ c ∈ [Channel.detail, .order, .tooltip], (bar defs).encoding.get? c ≠ some (.fields [])) ∧
      (bar defs).encoding.settle .bar = (bar defs).encoding ∧
      (∃ t, ((standard .defaults).normalize (.unit (bar []))).strict = .ok t) ∧
      ¬ ∃ t, ((standard .defaults).normalize (.unit (bar [{ type := .nominal }]))).strict = .ok t := by
  intro x bar defs
  have hstrict (defs : List FieldDef) := (drops_without_warning_iff ∅ .bar).2.2 .defaults (bar defs) rfl rfl
  refine ⟨(drops_without_warning_iff (bar defs).encoding .bar).2.1, ?_, ?_, ?_⟩
  · decide +kernel +zetaReduce
  · rw [hstrict]
    decide +kernel +zetaReduce
  · rw [hstrict]
    decide +kernel +zetaReduce

/-- An empty list is dropped without a warning, and strict mode accepts what is left. -/
theorem empty_list_drops_silently :
    let e : Encoding := .ofList [(.detail, .fields [])]
    e.settleWarnings .bar = [] ∧ e.settle .bar ≠ e ∧
      ((standard .defaults).normalize (.unit { mark := .tag "bar", encoding := e })).strict.toOption.map Spec.leaves =
        some [{ mark := .tag "bar", encoding := ∅ }] := by
  decide +kernel

end Normalizer

end ChartNormal
