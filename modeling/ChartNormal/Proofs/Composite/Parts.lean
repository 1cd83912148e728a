import ChartNormal.Normalize
import ChartNormal.Proofs.Composite.Recipe
import ChartNormal.Proofs.Encoding

/-!
# The parts of a composite mark

Every part is drawn by a primitive mark, and binds the continuous axis, the far end of a range along it, and channels that
all parts share or that are set to a constant. So parts need no second expansion, have no facet channels, and keep
both ends of their ranges (`parts_of_expand`).
-/

namespace ChartNormal

namespace Composite

/-! ### The drawings of the standard marks -/

theorem primitive_bandBase {p : Composite} {config : Config} {curve flat : String} {a b : Primitive}
    (hcurve : Primitive.ofName? curve = some a) (hflat : Primitive.ofName? flat = some b) :
    ∃ m, Primitive.ofName? (ErrorBand.base p config curve flat).type = some m := by
  rw [ErrorBand.base]
  split
  exacts [⟨b, hflat⟩, ⟨a, hcurve⟩]

theorem Recipe.primitive_base {r : Recipe} (hr : r ∈ Recipe.all) {p : Composite} {config : Config} {d : Drawing}
    (hd : d ∈ r.drawings p config) : ∃ m, Primitive.ofName? d.base.type = some m := by
  rcases Recipe.mem_all_iff.1 hr with rfl | rfl | rfl
  · simp only [Recipe.boxPlot, BoxPlot.drawings, List.mem_cons, List.not_mem_nil, or_false] at hd
    rcases hd with rfl | rfl | rfl | rfl
    exacts [⟨.rule, rfl⟩, ⟨.rule, rfl⟩, ⟨.bar, rfl⟩, ⟨.tick, rfl⟩]
  · simp only [Recipe.errorBar, ErrorBar.drawings, List.mem_cons, List.not_mem_nil, or_false] at hd
    rcases hd with rfl | rfl | rfl | rfl | rfl | rfl
    exacts [⟨.bar, rfl⟩, ⟨.line, rfl⟩, ⟨.tick, rfl⟩, ⟨.tick, rfl⟩, ⟨.rule, rfl⟩, ⟨.point, rfl⟩]
  · simp only [Recipe.errorBand, ErrorBand.drawings, List.mem_cons, List.not_mem_nil, or_false] at hd
    rcases hd with rfl | rfl | rfl
    exacts [primitive_bandBase (a := .area) (b := .rect) rfl rfl, primitive_bandBase (a := .line) (b := .rule) rfl rfl,
      primitive_bandBase (a := .line) (b := .rule) rfl rfl]

/-- What is drawn are the registered parts. -/
theorem Recipe.part_registered {r : Recipe} (hr : r ∈ Recipe.all) {p : Composite} {config : Config} {d : Drawing}
    (hd : d ∈ r.drawings p config) : ∃ mark, Registry.standard.get? r.tag = some mark ∧ d.part ∈ mark.parts := by
  rcases Recipe.mem_all_iff.1 hr with rfl | rfl | rfl
  · refine ⟨_, get?_standard _, ?_⟩
    simp only [Recipe.boxPlot, BoxPlot.drawings, List.mem_cons, List.not_mem_nil, or_false] at hd
    rcases hd with rfl | rfl | rfl | rfl <;> simp [BoxPlot.parts]
  · refine ⟨_, get?_standard _, ?_⟩
    simp only [Recipe.errorBar, ErrorBar.drawings, List.mem_cons, List.not_mem_nil, or_false] at hd
    rcases hd with rfl | rfl | rfl | rfl | rfl | rfl <;> simp [ErrorBar.parts]
  · refine ⟨_, get?_standard _, ?_⟩
    simp only [Recipe.errorBand, ErrorBand.drawings, List.mem_cons, List.not_mem_nil, or_false] at hd
    rcases hd with rfl | rfl | rfl <;> simp [ErrorBand.parts]

/-- A binding that all parts share, or a colour or size set to a constant. -/
def SharedOrConstant (p : Composite) (b : Channel × ChannelDef) : Prop :=
  b ∈ p.shared.entries ∨ b.1 ∈ [Channel.color, .size] ∧ b.2.isValue = true

theorem sharedOrConstant_size (p : Composite) (config : Config) :
    p.SharedOrConstant (.size, BoxPlot.size p.shared config) := by
  rw [BoxPlot.size]
  cases h : p.shared.get? .size with
  | some d => exact .inl (OrderedMap.get?_eq_some_iff.1 h)
  | none => exact .inr ⟨by simp, rfl⟩

theorem sharedOrConstant_boxEncoding {p : Composite} {config : Config} {b : Channel × ChannelDef}
    (hb : b ∈ (BoxPlot.boxEncoding p.shared config).entries) : p.SharedOrConstant b := by
  rcases OrderedMap.mem_insert hb with rfl | hb
  · exact sharedOrConstant_size p config
  · split at hb
    · split at hb
      · exact .inl hb
      · rcases OrderedMap.mem_insert hb with rfl | hb
        · exact .inr ⟨by simp, rfl⟩
        · exact .inl hb
    · exact .inl hb

theorem sharedOrConstant_midEncoding {p : Composite} {config : Config} {b : Channel × ChannelDef}
    (hb : b ∈ (BoxPlot.midEncoding p.shared config).entries) : p.SharedOrConstant b := by
  rcases OrderedMap.mem_insert hb with rfl | hb
  · exact sharedOrConstant_size p config
  · rcases OrderedMap.mem_insert hb with rfl | hb
    · exact .inr ⟨by simp, rfl⟩
    · exact .inl (OrderedMap.mem_restrict.1 hb).1

theorem Recipe.sharedOrConstant {r : Recipe} (hr : r ∈ Recipe.all) {p : Composite} {config : Config} {d : Drawing}
    (hd : d ∈ r.drawings p config) {b : Channel × ChannelDef} (hb : b ∈ d.shared.entries) :
    p.SharedOrConstant b := by
  rcases Recipe.mem_all_iff.1 hr with rfl | rfl | rfl
  · simp only [Recipe.boxPlot, BoxPlot.drawings, List.mem_cons, List.not_mem_nil, or_false] at hd
    rcases hd with rfl | rfl | rfl | rfl
    · exact .inl (OrderedMap.mem_restrict.1 hb).1
    · exact .inl (OrderedMap.mem_restrict.1 hb).1
    · exact sharedOrConstant_boxEncoding hb
    · exact sharedOrConstant_midEncoding hb
  · simp only [Recipe.errorBar, ErrorBar.drawings, List.mem_cons, List.not_mem_nil, or_false] at hd
    rcases hd with rfl | rfl | rfl | rfl | rfl | rfl <;> exact .inl hb
  · simp only [Recipe.errorBand, ErrorBand.drawings, List.mem_cons, List.not_mem_nil, or_false] at hd
    rcases hd with rfl | rfl | rfl <;> exact .inl hb

/-! ### The channels of a part -/

theorem mem_partEncoding {p : Composite} {start : String} {stop : Option String} {shared : Encoding}
    {b : Channel × ChannelDef} (hb : b ∈ (p.partEncoding start stop shared).entries) :
    b ∈ shared.entries ∨ b = (p.axis.channel, .field (p.axis.partField start)) ∨
      ∃ s, stop = some s ∧ b = (p.axis.orient.secondary, .field (p.axis.endField s)) := by
  rcases OrderedMap.mem_extend hb with hb | hb
  · exact .inl hb
  · cases stop with
    | none =>
      rcases OrderedMap.mem_insert hb with hb | hb
      · exact .inr (.inl hb)
      · cases hb
    | some s =>
      rcases OrderedMap.mem_insert hb with hb | hb
      · exact .inr (.inr ⟨s, rfl, hb⟩)
      · rcases OrderedMap.mem_insert hb with hb | hb
        · exact .inr (.inl hb)
        · cases hb

/-- What the parts share are accepted channels other than the continuous axis. -/
theorem mem_shared_along {u : UnitSpec} {o : Orient} {d : FieldDef} {field : String} {b : Channel × ChannelDef}
    (hb : b ∈ (along u o d field).shared.entries) : b.1 ∈ channels ∧ b.1 ≠ o.continuous := by
  simp only [shared, along, Encoding.extract, OrderedMap.entries_mapValues, List.mem_map] at hb
  obtain ⟨_, ⟨b, hb, rfl⟩, rfl⟩ := hb
  obtain ⟨hb, ho⟩ := OrderedMap.mem_restrict.1 hb
  obtain ⟨-, hc⟩ := OrderedMap.mem_restrict.1 hb
  exact ⟨by simpa using hc, by simpa using ho⟩

theorem SharedOrConstant.channel {u : UnitSpec} {o : Orient} {d : FieldDef} {field : String}
    {b : Channel × ChannelDef} (hb : (along u o d field).SharedOrConstant b) :
    b.1 ∈ channels ∧ b.1 ≠ o.continuous := by
  rcases hb with hb | ⟨hb, -⟩
  · exact mem_shared_along hb
  · simp only [List.mem_cons, List.not_mem_nil, or_false] at hb
    rcases hb with hb | hb <;> rw [hb] <;> cases o <;> decide

theorem not_mem_channels_of_secondary? {c c₂ : Channel} (h : c.secondary? = some c₂) : c₂ ∉ channels := by
  rcases Channel.secondary?_eq_some_iff.1 h with ⟨-, rfl⟩ | ⟨-, rfl⟩ <;> decide

/-! ### Units that draw a part -/

/-- What normalization relies on: a primitive mark, no facet channel, and no range that loses its near end. -/
structure IsPart (v : UnitSpec) (m : Primitive) : Prop where
  primitive : v.mark.primitive? = some m
  flat : v.hasFacetChannel = false
  ranged : ¬ v.encoding.LosesPrimary m

section Drawn

variable {r : Recipe} (hr : r ∈ Recipe.all) {u : UnitSpec} {o : Orient} {d : FieldDef} {field : String}
  {config : Config} {dr : Drawing} (hdr : dr ∈ r.drawings (along u o d field) config)

include hr hdr

theorem get?_axis_partEncoding :
    ((along u o d field).partEncoding dr.start dr.stop dr.shared).get? o.continuous =
      some (.field ((along u o d field).axis.partField dr.start)) := by
  have hshared : dr.shared.get? o.continuous = none := by
    rw [Option.eq_none_iff_forall_ne_some]
    intro x hx
    exact (Recipe.sharedOrConstant hr hdr (OrderedMap.get?_eq_some_iff.1 hx)).channel.2 rfl
  have hne : o.continuous ≠ o.secondary := by cases o <;> decide
  unfold partEncoding
  rw [OrderedMap.get?_extend, hshared, Option.none_or]
  cases dr.stop with
  | none => rw [OrderedMap.get?_insert, channel_along, if_pos rfl]
  | some s =>
    rw [OrderedMap.get?_insert, orient_along, if_neg hne, OrderedMap.get?_insert, channel_along, if_pos rfl]

theorem channel_partEncoding {b : Channel × ChannelDef}
    (hb : b ∈ ((along u o d field).partEncoding dr.start dr.stop dr.shared).entries) :
    b.1 ∈ channels ∨ b.1 = o.secondary := by
  rcases mem_partEncoding hb with hb | rfl | ⟨s, -, rfl⟩
  · exact .inl (Recipe.sharedOrConstant hr hdr hb).channel.1
  · exact .inl (show o.continuous ∈ channels by cases o <;> decide)
  · exact .inr rfl

theorem isPart_of_drawing {v : UnitSpec} (hv : dr.unit (along u o d field) config = .ok v) : ∃ m, IsPart v m := by
  obtain ⟨m, hm⟩ := Recipe.primitive_base hr hdr
  obtain ⟨mark, -, htype, rfl⟩ := Drawing.unit_eq_ok hm hv
  refine ⟨m, by rw [Mark.primitive?, Mark.type, htype, hm], ?_, ?_⟩
  · rw [UnitSpec.hasFacetChannel, List.any_eq_false]
    intro c hc
    obtain ⟨b, hb, rfl⟩ := List.mem_map.1 hc
    rcases channel_partEncoding hr hdr (OrderedMap.mem_restrict.1 hb).1 with hb | hb
    · revert hb; generalize b.1 = c; cases c <;> decide
    · rw [hb]; cases o <;> decide
  · -- the only far end is that of the continuous axis, which is bound to a column
    rintro ⟨c, c₂, e, e₂, hsec, -, he, hvoid, he₂, -⟩
    have hc₂ := OrderedMap.mem_restrict.1 (OrderedMap.get?_eq_some_iff.1 he₂)
    obtain rfl : c₂ = o.secondary := by
      rcases channel_partEncoding hr hdr hc₂.1 with h | h
      · exact absurd h (not_mem_channels_of_secondary? hsec)
      · exact h
    obtain rfl : c = o.continuous := Channel.eq_of_secondary? hsec (by cases o <;> rfl)
    have hget := OrderedMap.get?_eq_some_iff.2 (OrderedMap.mem_restrict.1 (OrderedMap.get?_eq_some_iff.1 he)).1
    rw [get?_axis_partEncoding hr hdr] at hget
    cases hget
    cases hvoid

end Drawn

/-- The parts of a standard mark, whatever the settings and the configuration. -/
theorem parts_of_expand {r : Recipe} (hr : r ∈ Recipe.all) {u : UnitSpec} {config : Config} {l : LayerSpec}
    {ws : List Warning} (h : r.expand u config = .noted l ws) :
    ∃ units : List UnitSpec, l.layers = units.map .unit ∧ ∀ v ∈ units, ∃ m, IsPart v m := by
  obtain ⟨p, ws', units, hp, hunits, rfl⟩ := Recipe.expand_eq_noted h
  obtain ⟨o, d, field, -, -, -, rfl⟩ := resolve_eq_noted hp
  refine ⟨units, rfl, fun v hv => ?_⟩
  obtain ⟨dr, hdr, hv⟩ := exists_of_forall₂ hunits hv
  exact isPart_of_drawing hr (List.mem_filter.1 hdr).1 hv

end Composite

end ChartNormal
