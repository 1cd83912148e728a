import ChartNormal.Encoding.Support
import ChartNormal.Proofs.OrderedMap

/-!
# What promotion and settling leave of an encoding

A definition that a mark keeps is a constant, a field with data, or a non-empty list of such fields on a channel that
takes lists (`ChannelDef.Normal`), and settling such definitions again changes nothing. Promotion renames a range end that
stands alone; it changes nothing exactly when there is none (`promoteSecondary_eq_self_iff`). Settling can leave a range
end alone that promotion has passed over: `hasOrphan_settle_iff` says when.
-/

namespace ChartNormal

namespace ChannelDef

/-- A list stands on a channel that takes one and is not empty, and each field refers to data. -/
structure Normal (c : Channel) (d : ChannelDef) : Prop where
  list : ∀ defs, d = .fields defs → c ∈ [.detail, .order, .tooltip] ∧ defs ≠ []
  data : ∀ f ∈ d.fieldDefs, f.hasField = true

/-- Nothing is drawn of the definition on a channel that takes no lists: it is a list, or a field without data. -/
def isVoid : ChannelDef → Bool
  | fields _ => true
  | field d => !d.hasField
  | value _ => false

theorem acceptsList_iff {c : Channel} : c.acceptsList = true ↔ c ∈ [Channel.detail, .order, .tooltip] := by
  cases c <;> decide

/-- What is kept is the definition as it is, or a list without the fields that have no data. -/
theorem eq_of_settled? {c : Channel} {d d' : ChannelDef} (h : d.settled? c = some d') :
    d' = d ∨ ∃ defs, d = .fields defs ∧ d' = .fields (defs.filter FieldDef.hasField) := by
  cases d with
  | fields defs =>
    simp only [settled?, Option.ite_none_right_eq_some, Option.some.injEq] at h
    exact .inr ⟨defs, rfl, h.2.symm⟩
  | field f =>
    simp only [settled?, Option.ite_none_right_eq_some, Option.some.injEq] at h
    exact .inl h.2.symm
  | value v => exact .inl (Option.some.inj h).symm

theorem normal_of_settled? {c : Channel} {d d' : ChannelDef} (h : d.settled? c = some d') : d'.Normal c := by
  cases d with
  | fields defs =>
    simp only [settled?, Option.ite_none_right_eq_some, Bool.and_eq_true, Option.some.injEq] at h
    obtain ⟨⟨hc, hne⟩, rfl⟩ := h
    refine ⟨?_, fun f hf => (List.mem_filter.1 hf).2⟩
    rintro defs' hdefs
    obtain rfl := ChannelDef.fields.inj hdefs
    exact ⟨acceptsList_iff.1 hc, by simpa using hne⟩
  | field f =>
    simp only [settled?, Option.ite_none_right_eq_some, Option.some.injEq] at h
    obtain ⟨hf, rfl⟩ := h
    exact ⟨by simp, by simpa [fieldDefs] using hf⟩
  | value v =>
    obtain rfl := Option.some.inj h
    exact ⟨by simp, by simp [fieldDefs]⟩

theorem settled?_of_normal {c : Channel} {d : ChannelDef} (h : d.Normal c) : d.settled? c = some d := by
  cases d with
  | fields defs =>
    obtain ⟨hc, hne⟩ := h.list defs rfl
    have hall : defs.filter FieldDef.hasField = defs := List.filter_eq_self.2 h.data
    simp [settled?, hall, acceptsList_iff.2 hc, hne]
  | field f => simp [settled?, h.data f (by simp [fieldDefs])]
  | value v => rfl

theorem dropped_of_normal {c : Channel} {d : ChannelDef} (h : d.Normal c) : d.dropped c = [] := by
  cases d with
  | fields defs =>
    have hall : defs.filter (fun f => !f.hasField) = [] :=
      List.filter_eq_nil_iff.2 fun f hf => by simp [h.data f hf]
    simp [dropped, hall, acceptsList_iff.2 (h.list defs rfl).1]
  | field f => simp [dropped, h.data f (by simp [fieldDefs])]
  | value v => rfl

/-- Where lists are not taken, what is left of a definition does not depend on the channel. -/
theorem settled?_eq_none_iff {c : Channel} (hc : c.acceptsList = false) {d : ChannelDef} :
    d.settled? c = none ↔ d.isVoid = true := by
  cases d <;> simp [settled?, isVoid, hc]

theorem normal_of_not_acceptsList {c c' : Channel} (hc : c.acceptsList = false) {d : ChannelDef} (h : d.Normal c) :
    d.Normal c' := by
  refine ⟨fun defs hd => ?_, h.data⟩
  have := acceptsList_iff.2 (h.list defs hd).1
  rw [hc] at this
  cases this

end ChannelDef

namespace Channel

/-- The two ends of a range along an axis. -/
theorem secondary?_eq_some_iff {c c₂ : Channel} :
    c.secondary? = some c₂ ↔ (c = .x ∧ c₂ = .x2) ∨ (c = .y ∧ c₂ = .y2) := by
  cases c <;> cases c₂ <;> decide

theorem eq_of_secondary? {c c' c₂ : Channel} (h : c.secondary? = some c₂) (h' : c'.secondary? = some c₂) : c = c' := by
  rcases secondary?_eq_some_iff.1 h with ⟨rfl, rfl⟩ | ⟨rfl, rfl⟩
  · rcases secondary?_eq_some_iff.1 h' with ⟨rfl, -⟩ | ⟨-, hc₂⟩
    · rfl
    · cases hc₂
  · rcases secondary?_eq_some_iff.1 h' with ⟨-, hc₂⟩ | ⟨rfl, -⟩
    · cases hc₂
    · rfl

theorem supports_primary {c c₂ : Channel} (h : c.secondary? = some c₂) (m : Primitive) : c.supports m = true := by
  rcases secondary?_eq_some_iff.1 h with ⟨rfl, -⟩ | ⟨rfl, -⟩ <;> cases m <;> decide

theorem acceptsList_primary {c c₂ : Channel} (h : c.secondary? = some c₂) : c.acceptsList = false := by
  rcases secondary?_eq_some_iff.1 h with ⟨rfl, -⟩ | ⟨rfl, -⟩ <;> rfl

theorem acceptsList_secondary {c c₂ : Channel} (h : c.secondary? = some c₂) : c₂.acceptsList = false := by
  rcases secondary?_eq_some_iff.1 h with ⟨-, rfl⟩ | ⟨-, rfl⟩ <;> rfl

end Channel

namespace Encoding

variable {e : Encoding}

/-! ### Promotion -/

/-- A channel keeps its name, or is a range end that gets the name of the other end, which is not there. -/
theorem promoted_cases (e : Encoding) (c : Channel) :
    (e.promoted c = c ∧ ∀ p, p.secondary? = some c → e.contains p = true) ∨
      ∃ p, p.secondary? = some c ∧ e.contains p = false ∧ e.promoted c = p := by
  cases c with
  | x2 =>
    cases hx : e.contains .x with
    | true => exact .inl ⟨by simp [promoted, hx], fun p hp => Channel.eq_of_secondary? (c := .x) rfl hp ▸ hx⟩
    | false => exact .inr ⟨.x, rfl, hx, by simp [promoted, hx]⟩
  | y2 =>
    cases hy : e.contains .y with
    | true => exact .inl ⟨by simp [promoted, hy], fun p hp => Channel.eq_of_secondary? (c := .y) rfl hp ▸ hy⟩
    | false => exact .inr ⟨.y, rfl, hy, by simp [promoted, hy]⟩
  | _ => exact .inl ⟨rfl, fun p hp => by simp [Channel.secondary?_eq_some_iff] at hp⟩

theorem promoted_injOn {a b : Channel} (ha : a ∈ e.keys) (hb : b ∈ e.keys) (h : e.promoted a = e.promoted b) :
    a = b := by
  rcases promoted_cases e a with ⟨ha', -⟩ | ⟨p, hp, hpe, hap⟩ <;>
    rcases promoted_cases e b with ⟨hb', -⟩ | ⟨q, hq, hqe, hbq⟩
  · rw [← ha', h, hb']
  · -- `a` would be the end that is not there
    rw [ha', hbq] at h
    exact absurd (h ▸ ha) (OrderedMap.contains_eq_false_iff.1 hqe)
  · rw [hap, hb'] at h
    exact absurd (h ▸ hb) (OrderedMap.contains_eq_false_iff.1 hpe)
  · rw [hap, hbq] at h
    rw [h, hq] at hp
    exact (Option.some.inj hp).symm

theorem entries_promoteSecondary (e : Encoding) :
    e.promoteSecondary.entries = e.entries.map fun b => (e.promoted b.1, b.2) := by
  refine OrderedMap.entries_ofList ?_
  have hkeys : (e.entries.map fun b => (e.promoted b.1, b.2)).map Prod.fst = e.keys.map e.promoted := by
    rw [OrderedMap.keys, List.map_map, List.map_map]; rfl
  rw [hkeys]
  exact List.Nodup.map_on (fun a ha b hb h => promoted_injOn ha hb h) e.nodup

theorem mem_promoteSecondary {c : Channel} {d : ChannelDef} :
    (c, d) ∈ e.promoteSecondary.entries ↔ ∃ c₀, (c₀, d) ∈ e.entries ∧ e.promoted c₀ = c := by
  rw [entries_promoteSecondary, List.mem_map]
  constructor
  · rintro ⟨⟨c₀, d₀⟩, h, he⟩
    obtain ⟨rfl, rfl⟩ := Prod.mk.injEq .. ▸ he
    exact ⟨c₀, h, rfl⟩
  · rintro ⟨c₀, h, rfl⟩
    exact ⟨(c₀, d), h, rfl⟩

section Range

variable {c c₂ : Channel} (h : c.secondary? = some c₂)

include h

theorem promoted_primary : e.promoted c = c := by
  rcases Channel.secondary?_eq_some_iff.1 h with ⟨rfl, -⟩ | ⟨rfl, -⟩ <;> rfl

theorem promoted_secondary : e.promoted c₂ = if e.contains c then c₂ else c := by
  rcases Channel.secondary?_eq_some_iff.1 h with ⟨rfl, rfl⟩ | ⟨rfl, rfl⟩ <;> rfl

theorem get?_promoteSecondary_primary : e.promoteSecondary.get? c = (e.get? c).or (e.get? c₂) := by
  ext d
  rw [OrderedMap.get?_eq_some_iff, mem_promoteSecondary, Option.or_eq_some_iff]
  constructor
  · rintro ⟨c₀, hd, hc⟩
    rcases promoted_cases e c₀ with ⟨h₀, -⟩ | ⟨p, hp, hpe, h₀⟩
    · rw [h₀] at hc
      exact .inl (OrderedMap.get?_eq_some_iff.2 (hc ▸ hd))
    · obtain rfl : p = c := h₀.symm.trans hc
      obtain rfl : c₂ = c₀ := Option.some.inj (h.symm.trans hp)
      exact .inr ⟨by simpa [OrderedMap.contains] using hpe, OrderedMap.get?_eq_some_iff.2 hd⟩
  · rintro (hd | ⟨hc, hd⟩)
    · exact ⟨c, OrderedMap.get?_eq_some_iff.1 hd, promoted_primary h⟩
    · refine ⟨c₂, OrderedMap.get?_eq_some_iff.1 hd, ?_⟩
      rw [promoted_secondary h, if_neg (by simp [OrderedMap.contains, hc])]

theorem get?_promoteSecondary_secondary :
    e.promoteSecondary.get? c₂ = if e.contains c then e.get? c₂ else none := by
  ext d
  rw [OrderedMap.get?_eq_some_iff, mem_promoteSecondary]
  constructor
  · rintro ⟨c₀, hd, hc⟩
    rcases promoted_cases e c₀ with ⟨h₀, hall⟩ | ⟨p, hp, -, h₀⟩
    · obtain rfl : c₀ = c₂ := h₀.symm.trans hc
      rw [if_pos (hall c h), OrderedMap.get?_eq_some_iff]
      exact hd
    · -- no range end is the far end of another range
      obtain rfl : p = c₂ := h₀.symm.trans hc
      rcases Channel.secondary?_eq_some_iff.1 h with ⟨-, rfl⟩ | ⟨-, rfl⟩ <;> cases hp
  · intro hd
    rw [Option.ite_none_right_eq_some] at hd
    refine ⟨c₂, OrderedMap.get?_eq_some_iff.1 hd.2, ?_⟩
    rw [promoted_secondary h, if_pos hd.1]

end Range

/-- The far end of a range stands without the near one. -/
def HasOrphan (e : Encoding) : Prop :=
  ∃ c c₂, Channel.secondary? c = some c₂ ∧ e.contains c₂ = true ∧ e.contains c = false

theorem promoteSecondary_eq_self_iff : e.promoteSecondary = e ↔ ¬ e.HasOrphan := by
  constructor
  · rintro he ⟨c, c₂, h, hc₂, hc⟩
    have hget := get?_promoteSecondary_primary (e := e) h
    rw [OrderedMap.contains, Option.isSome_eq_false_iff, Option.isNone_iff_eq_none] at hc
    rw [he, hc, Option.none_or] at hget
    rw [OrderedMap.contains, ← hget] at hc₂
    cases hc₂
  · intro he
    refine OrderedMap.ext ?_
    rw [entries_promoteSecondary]
    refine (List.map_congr_left fun b hb => ?_).trans (List.map_id _)
    rcases promoted_cases e b.1 with ⟨hb', -⟩ | ⟨p, hp, hpe, -⟩
    · rw [hb']; rfl
    · exact absurd ⟨p, b.1, hp, OrderedMap.contains_iff.2 ⟨b.2, hb⟩, hpe⟩ he

/-! ### Settling -/

/-- Every channel is one that the mark supports, and is bound to something drawn. -/
def Settled (m : Primitive) (e : Encoding) : Prop := ∀ b ∈ e.entries, b.1.supports m = true ∧ b.2.Normal b.1

variable {m : Primitive}

theorem get?_settle (e : Encoding) (m : Primitive) (c : Channel) :
    (e.settle m).get? c = (e.get? c).bind fun d => if c.supports m then d.settled? c else none :=
  OrderedMap.get?_filterMapValues ..

theorem settled_settle (e : Encoding) (m : Primitive) : (e.settle m).Settled m := by
  rintro ⟨c, d⟩ h
  obtain ⟨a, -, ha⟩ := OrderedMap.mem_filterMapValues.1 h
  rw [Option.ite_none_right_eq_some] at ha
  exact ⟨ha.1, ChannelDef.normal_of_settled? ha.2⟩

theorem channels_settle_subset (e : Encoding) (m : Primitive) : (e.settle m).channels ⊆ e.channels := by
  intro c hc
  obtain ⟨⟨c', d⟩, h, rfl⟩ := List.mem_map.1 hc
  obtain ⟨a, ha, -⟩ := OrderedMap.mem_filterMapValues.1 h
  exact List.mem_map.2 ⟨(c', a), ha, rfl⟩

theorem Settled.settle_eq (h : e.Settled m) : e.settle m = e := by
  refine OrderedMap.filterMapValues_eq_self fun b hb => ?_
  obtain ⟨hs, hn⟩ := h b hb
  rw [if_pos hs, ChannelDef.settled?_of_normal hn]

theorem Settled.settleWarnings_eq (h : e.Settled m) : e.settleWarnings m = [] := by
  rw [settleWarnings, List.flatMap_eq_nil_iff]
  intro b hb
  obtain ⟨hs, hn⟩ := h b hb
  rw [if_pos hs, ChannelDef.dropped_of_normal hn]

theorem Settled.restrict (h : e.Settled m) {m' : Primitive} : (e.supportedBy m').Settled m' := by
  intro b hb
  obtain ⟨hb, hs⟩ := OrderedMap.mem_restrict.1 hb
  exact ⟨hs, (h b hb).2⟩

/-- The near end of a range is supported by every mark and takes what the far end takes. -/
theorem Settled.promoteSecondary (h : e.Settled m) : e.promoteSecondary.Settled m := by
  rintro ⟨c, d⟩ hd
  obtain ⟨c₀, hd, hc⟩ := mem_promoteSecondary.1 hd
  obtain ⟨hs, hn⟩ := h _ hd
  rcases promoted_cases e c₀ with ⟨h₀, -⟩ | ⟨p, hp, -, h₀⟩
  · rw [h₀] at hc
    exact hc ▸ ⟨hs, hn⟩
  · obtain rfl : p = c := h₀.symm.trans hc
    exact ⟨Channel.supports_primary hp m, ChannelDef.normal_of_not_acceptsList (Channel.acceptsList_secondary hp) hn⟩

/-- The near end of a range is bound to nothing that is drawn, and the mark draws the far end. -/
def LosesPrimary (e : Encoding) (m : Primitive) : Prop :=
  ∃ c c₂ d d₂, Channel.secondary? c = some c₂ ∧ c₂.supports m = true ∧
    e.get? c = some d ∧ d.isVoid = true ∧ e.get? c₂ = some d₂ ∧ d₂.isVoid = false

theorem hasOrphan_settle_iff : (e.promoteSecondary.settle m).HasOrphan ↔ e.LosesPrimary m := by
  constructor
  · rintro ⟨c, c₂, h, hc₂, hc⟩
    rw [OrderedMap.contains, get?_settle, get?_promoteSecondary_secondary h] at hc₂
    rw [OrderedMap.contains, get?_settle, get?_promoteSecondary_primary h] at hc
    cases hd : e.get? c with
    | none => simp [OrderedMap.contains, hd] at hc₂
    | some d =>
      cases hd₂ : e.get? c₂ with
      | none => simp [OrderedMap.contains, hd₂] at hc₂
      | some d₂ =>
        simp only [OrderedMap.contains, hd, hd₂, Option.isSome_some, if_true, Option.bind_some] at hc₂
        simp only [hd, Option.some_or, Option.bind_some, Channel.supports_primary h m, if_true,
          Option.isSome_eq_false_iff, Option.isNone_iff_eq_none] at hc
        rw [ChannelDef.settled?_eq_none_iff (Channel.acceptsList_primary h)] at hc
        split at hc₂
        · next hs =>
          refine ⟨c, c₂, d, d₂, h, hs, hd, hc, hd₂, ?_⟩
          rw [← Bool.not_eq_true, ← ChannelDef.settled?_eq_none_iff (Channel.acceptsList_secondary h)]
          intro hnone
          rw [hnone] at hc₂
          cases hc₂
        · cases hc₂
  · rintro ⟨c, c₂, d, d₂, h, hs, hd, hv, hd₂, hv₂⟩
    refine ⟨c, c₂, h, ?_, ?_⟩
    · have hnone : d₂.settled? c₂ ≠ none := by
        rw [ne_eq, ChannelDef.settled?_eq_none_iff (Channel.acceptsList_secondary h), hv₂]
        decide
      rw [OrderedMap.contains, get?_settle, get?_promoteSecondary_secondary h]
      simpa [OrderedMap.contains, hd, hd₂, hs, Option.isSome_iff_ne_none] using hnone
    · have hnone : d.settled? c = none :=
        (ChannelDef.settled?_eq_none_iff (Channel.acceptsList_primary h)).2 hv
      rw [OrderedMap.contains, get?_settle, get?_promoteSecondary_primary h]
      simp [hd, hnone]

end Encoding

end ChartNormal
