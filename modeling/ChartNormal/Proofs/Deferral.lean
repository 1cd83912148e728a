import ChartNormal.Proofs.Composite.Precedence
import ChartNormal.Proofs.PartSlots
import ChartNormal.Proofs.Sections
import ChartNormal.Proofs.Validity

/-!
# Empty settings of parts

An empty object as the setting of a part leaves it open whether the part is drawn. In a mark that is left to the
configuration, but in a configuration nothing is asked after it: the object takes the place of the default, and the part is
not drawn. So an empty object in a slot of the configuration is neutral unless the default of the slot is the flag `true`
(`isDrawn_unflag`), and then each mark that leaves the part open loses it (`isDrawn_of_lost`).
-/

namespace ChartNormal

open Composite

/-! ### Objects in place of flags -/

namespace Composite

/-- The properties that a setting adds to a part. -/
def style (s : Option PartSetting) : Object := (s.map PartSetting.props).getD ∅

theorem putSetting_eq (s : Option PartSetting) (o : Object) : putSetting s o = o.extend (style s) := by
  cases s <;> rfl

theorem setting_eq (s : Option PartSetting) (key : String) : setting s key = (style s).get? key := by
  cases s <;> rfl

theorem style_of_not_explicit {s : Option PartSetting} (h : s.filter PartSetting.isExplicit = none) : style s = ∅ := by
  cases s with
  | none => rfl
  | some s =>
    cases s with
    | flag on => rfl
    | mark props =>
      have hempty : props.isEmpty = true := by simpa [PartSetting.isExplicit] using h
      exact OrderedMap.ext (List.isEmpty_iff.1 hempty)

end Composite

namespace PartSlot

variable (slot : PartSlot) (c : Config)

/-- The configuration with an object in the slot: the properties that stand there, and so an empty one for a flag. -/
def unflag : Config := slot.put (.mark (style (c.part? slot.tag slot.part))) c

theorem style_unflag (tag part : String) : style ((slot.unflag c).part? tag part) = style (c.part? tag part) := by
  by_cases h : tag = slot.tag ∧ part = slot.part
  · obtain ⟨rfl, rfl⟩ := h
    rw [unflag, part?_put]
    rfl
  · rw [unflag, part?_put_of_ne _ _ _ h]

/-- The object decides as the setting did, unless that was the flag `true`. -/
theorem isEnabled_unflag {tag part : String}
    (h : tag = slot.tag → part = slot.part → c.part? tag part ≠ some (.flag true)) :
    ((slot.unflag c).part? tag part).any PartSetting.isEnabled = (c.part? tag part).any PartSetting.isEnabled := by
  by_cases hslot : tag = slot.tag ∧ part = slot.part
  · obtain ⟨rfl, rfl⟩ := hslot
    rw [unflag, part?_put]
    cases hs : c.part? slot.tag slot.part with
    | none => rfl
    | some s =>
      cases s with
      | flag on =>
        cases on with
        | false => rfl
        | true => exact absurd hs (h rfl rfl)
      | mark props => rfl
  · rw [unflag, part?_put_of_ne _ _ _ hslot]

/-- A mark that leaves a part to the configuration, where it is drawn by a flag. -/
structure Lost (m : MarkDef) : Prop where
  tag : m.type = slot.tag
  flag : c.part? slot.tag slot.part = some (.flag true)
  deferred : (m.part? slot.part).filter PartSetting.isExplicit = none

variable {slot c} {p : Composite}

theorem lost_iff {m : MarkDef} :
    slot.Lost c m ↔ m.type = slot.tag ∧ c.part? slot.tag slot.part = some (.flag true) ∧
      (m.part? slot.part).any PartSetting.isExplicit = false := by
  have hdeferred : (m.part? slot.part).filter PartSetting.isExplicit = none ↔
      (m.part? slot.part).any PartSetting.isExplicit = false := by
    cases m.part? slot.part <;> simp
  rw [← hdeferred]
  exact ⟨fun h => ⟨h.tag, h.flag, h.deferred⟩, fun ⟨htag, hflag, h⟩ => ⟨htag, hflag, h⟩⟩

/-- The slots of the parts that are drawn by default, without properties of their own. -/
theorem default_flag_iff :
    Config.defaults.part? slot.tag slot.part = some (.flag true) ↔ slot ∈ [.boxWhisker, .rule, .band] := by
  cases slot <;> decide

theorem isDrawn_unflag {part : String} (h : part = slot.part → ¬ slot.Lost c p.mark) :
    p.isDrawn (slot.unflag c) part = p.isDrawn c part := by
  unfold isDrawn
  split
  · rfl
  · next hdeferred =>
    refine slot.isEnabled_unflag c fun htag hpart hflag => h hpart ⟨htag, ?_, hpart ▸ hdeferred⟩
    rw [← htag, ← hpart, hflag]

theorem isDrawn_of_lost (h : slot.Lost c p.mark) :
    p.isDrawn c slot.part = true ∧ p.isDrawn (slot.unflag c) slot.part = false := by
  have htag : p.tag = slot.tag := h.tag
  rw [isDrawn, isDrawn, h.deferred, htag, unflag, part?_put, h.flag]
  exact ⟨rfl, rfl⟩

theorem isDrawn_of_unflag {part : String} (h : p.isDrawn (slot.unflag c) part = true) : p.isDrawn c part = true := by
  by_cases hlost : part = slot.part ∧ slot.Lost c p.mark
  · obtain ⟨rfl, hlost⟩ := hlost
    exact (isDrawn_of_lost hlost).1
  · rwa [isDrawn_unflag fun hpart hl => hlost ⟨hpart, hl⟩] at h

/-- The parts that are drawn are among those that were. -/
theorem filter_unflag (drawings : List Drawing) :
    drawings.filter (p.isDrawn (slot.unflag c) ·.part) =
      (drawings.filter (p.isDrawn c ·.part)).filter (p.isDrawn (slot.unflag c) ·.part) := by
  rw [List.filter_filter]
  refine List.filter_congr fun d _ => ?_
  cases hd : p.isDrawn (slot.unflag c) d.part with
  | false => rfl
  | true => rw [isDrawn_of_unflag hd, Bool.and_true]

/-! ### Expansions -/

theorem unit_unflag (d : Drawing) : d.unit p (slot.unflag c) = d.unit p c := by
  have hprops : p.partProps (slot.unflag c) d.part d.base = p.partProps c d.part d.base := by
    simp only [partProps_eq, putSetting_eq, style_unflag]
  rw [Drawing.unit, Drawing.unit, partUnit, partUnit, partMark, partMark, hprops]

end PartSlot

namespace Composite.Recipe

variable {slot : PartSlot} {c : Config} {r : Recipe} (hr : r ∈ all) (p : Composite)

include hr

theorem drawings_unflag : r.drawings p (slot.unflag c) = r.drawings p c := by
  rcases mem_all_iff.1 hr with rfl | rfl | rfl
  · have hmid : BoxPlot.midColor (slot.unflag c) = BoxPlot.midColor c := by
      have hstyle := slot.style_unflag c BoxPlot.tag "boxMid"
      have hget (s : Option PartSetting) : (s.bind fun s => s.props.get? "color") = (style s).get? "color" := setting_eq s _
      rw [BoxPlot.midColor, BoxPlot.midColor, hget, hget, hstyle]
    have hbox : (slot.unflag c).box = c.box := by cases slot <;> rfl
    simp only [boxPlot, BoxPlot.drawings, BoxPlot.boxEncoding, BoxPlot.midEncoding, BoxPlot.size, hbox, hmid]
  · rfl
  · cases slot <;> rfl

theorem warnings_unflag : r.warnings p (slot.unflag c) = r.warnings p c := by
  rcases mem_all_iff.1 hr with rfl | rfl | rfl <;> cases slot <;> rfl

theorem calculates_unflag : r.calculates p (slot.unflag c) = r.calculates p c := by
  rcases mem_all_iff.1 hr with rfl | rfl | rfl <;> cases slot <;> rfl

variable {p}

theorem columns_unflag (h : ¬ slot.Lost c p.mark) : r.columns p (slot.unflag c) = r.columns p c := by
  rcases mem_all_iff.1 hr with rfl | rfl | rfl
  · cases slot <;> rfl
  · have hcenter : ErrorBar.drawsCenter p (slot.unflag c) = ErrorBar.drawsCenter p c := by
      rw [ErrorBar.drawsCenter, ErrorBar.drawsCenter, slot.isDrawn_unflag fun _ => h, slot.isDrawn_unflag fun _ => h]
    have hinterval : barInterval p (slot.unflag c) = barInterval p c := by cases slot <;> rfl
    simp only [errorBar, hinterval, hcenter]
  · cases slot <;> rfl

/-- A mark that loses no part is expanded alike. -/
theorem expand_unflag {u : UnitSpec} (h : ¬ slot.Lost c u.mark.toDef) : r.expand u (slot.unflag c) = r.expand u c := by
  rw [expand, expand]
  refine Report.bind_congr fun p ws hp => ?_
  obtain ⟨o, d, field, -, -, -, rfl⟩ := resolve_eq_noted hp
  rw [warnings_unflag hr, drawings_unflag hr, columns_unflag hr h, calculates_unflag hr]
  refine Report.bind_congr fun _ _ _ => ?_
  rw [layer_of_drawings (fun _ _ => PartSlot.isDrawn_unflag fun _ => h) fun _ _ => PartSlot.unit_unflag _]

end Composite.Recipe

/-! ### Failures -/

namespace Composite

variable {p : Composite} {c : Config}

theorem readable_oriented (type : String) (o : Orient) :
    ∃ b, MarkDef.ofMembers? (MarkDef.toObject { type, orient := some o }).entries = some b := by
  cases o <;> exact ⟨_, rfl⟩

theorem readable_bandBase (p : Composite) (c : Config) (curve flat : String) :
    ∃ b, MarkDef.ofMembers? (ErrorBand.base p c curve flat).toObject.entries = some b := by
  unfold ErrorBand.base ErrorBand.interpolation
  split
  · exact ⟨_, rfl⟩
  · cases p.axis.orient <;> cases p.mark.interpolate.or c.errorband.interpolate <;>
      cases p.mark.tension.or c.errorband.tension <;> exact ⟨_, rfl⟩

/-- The bases of the standard marks are marks themselves. -/
theorem Recipe.readable_base {r : Recipe} (hr : r ∈ Recipe.all) {d : Drawing} (hd : d ∈ r.drawings p c) :
    ∃ b, MarkDef.ReadFrom d.base.toObject.get? b := by
  obtain ⟨b, hb⟩ : ∃ b, MarkDef.ofMembers? d.base.toObject.entries = some b := by
    rcases Recipe.mem_all_iff.1 hr with rfl | rfl | rfl
    · simp only [Recipe.boxPlot, BoxPlot.drawings, List.mem_cons, List.not_mem_nil, or_false] at hd
      rcases hd with rfl | rfl | rfl | rfl
      exacts [⟨_, rfl⟩, ⟨_, rfl⟩, readable_oriented .., readable_oriented ..]
    · simp only [Recipe.errorBar, ErrorBar.drawings, List.mem_cons, List.not_mem_nil, or_false] at hd
      rcases hd with rfl | rfl | rfl | rfl | rfl | rfl
      exacts [readable_oriented .., ⟨_, rfl⟩, readable_oriented .., readable_oriented .., ⟨_, rfl⟩, ⟨_, rfl⟩]
    · simp only [Recipe.errorBand, ErrorBand.drawings, List.mem_cons, List.not_mem_nil, or_false] at hd
      rcases hd with rfl | rfl | rfl
      exacts [readable_bandBase .., readable_bandBase .., readable_bandBase ..]
  exact ⟨b, MarkDef.readFrom_get?_iff.2 ⟨b.props, hb, fun _ => rfl⟩⟩

/-- Colour, opacity and style of a composite mark fit any mark. -/
theorem exists_readFrom {part : String} {base b : MarkDef} (hb : MarkDef.ReadFrom base.toObject.get? b)
    (hmark : style (p.mark.part? part) = ∅) (hconfig : style (c.part? p.tag part) = ∅) :
    ∃ d, MarkDef.ReadFrom (p.property? c part base) d := by
  have hproperty (key : String) : p.property? c part base key =
      (under "orient" (base.orient.map fun o => .str o.name) key).or ((under "type" (some (.str base.type)) key).or
        ((under "style" (some (.str (partStyle p.tag part))) key).or ((under "opacity" (p.mark.opacity.map .ofDouble) key).or
          ((under "color" (p.mark.color.map .str) key).or (base.toObject.get? key))))) := by
    rw [property?, setting_eq, setting_eq, hmark, hconfig]
    rfl
  refine ⟨{ b with
    type := base.type
    orient := base.orient.or b.orient
    style := some (partStyle p.tag part)
    opacity := p.mark.opacity.or b.opacity
    color := p.mark.color.or b.color }, ?_, ?_, ?_, ?_, ?_, ?_, ?_, ?_, ?_, ?_, fun key => ?_⟩ <;> rw [hproperty]
  · rfl
  · cases ho : base.orient with
    | none => exact hb.orient
    | some o => cases o <;> rfl
  · exact hb.extent
  · exact hb.center
  · cases p.mark.color with
    | none => exact hb.color
    | some => rfl
  · cases p.mark.opacity with
    | none => exact hb.opacity
    | some => rfl
  · exact hb.filled
  · rfl
  · exact hb.interpolate
  · exact hb.tension
  · rw [hb.props key]
    by_cases hkey : key ∈ MarkDef.fieldNames
    · rw [if_pos hkey, if_pos hkey]
    · have hnone (k : String) (hk : k ∈ MarkDef.fieldNames) (v : Option Json) : under k v key = none := by
        refine if_neg ?_
        rintro rfl
        exact hkey hk
      rw [if_neg hkey, if_neg hkey, hnone "orient" (by decide), hnone "type" (by decide), hnone "style" (by decide),
        hnone "opacity" (by decide), hnone "color" (by decide)]
      rfl

theorem exists_unit_of_deferred {r : Recipe} (hr : r ∈ Recipe.all) {d : Drawing} (hd : d ∈ r.drawings p c)
    (hmark : style (p.mark.part? d.part) = ∅) (hconfig : style (c.part? p.tag d.part) = ∅) : ∃ v, d.unit p c = .ok v := by
  obtain ⟨b, hb⟩ := Recipe.readable_base hr hd
  obtain ⟨m, hm⟩ := exists_readFrom hb hmark hconfig
  rw [← get?_partProps] at hm
  obtain ⟨props, hread, -⟩ := MarkDef.readFrom_get?_iff.1 hm
  exact Readable.exists_unit ⟨_, hread⟩

/-- Steps that succeed can be left out without a change to the failure. -/
theorem failure?_mapM_filter {α β γ : Type} {f : α → Except Failure β} {keep : α → Bool} {l : List α}
    (h : ∀ a ∈ l, keep a = false → ∃ b, f a = .ok b) (g g' : List β → γ) :
    (liftM ((l.filter keep).mapM f >>= fun bs => pure (g bs)) : Report γ).failure? =
      (liftM (l.mapM f >>= fun bs => pure (g' bs)) : Report γ).failure? := by
  induction l generalizing g g' with
  | nil => rfl
  | cons a l ih =>
    have ih := ih fun a ha => h a (List.mem_cons_of_mem _ ha)
    have hok (l : List α) (b : β) (g : List β → γ) :
        ((Except.ok b >>= fun b => l.mapM f >>= fun bs => pure (b :: bs)) >>= fun bs => pure (g bs) : Except Failure γ) =
          l.mapM f >>= fun bs => pure (g (b :: bs)) := by
      cases l.mapM f <;> rfl
    cases hkeep : keep a with
    | false =>
      obtain ⟨b, hb⟩ := h a List.mem_cons_self hkeep
      rw [List.filter_cons_of_neg (by simp [hkeep]), List.mapM_cons, hb, hok]
      exact ih _ _
    | true =>
      rw [List.filter_cons_of_pos hkeep, List.mapM_cons, List.mapM_cons]
      cases f a with
      | error e => rfl
      | ok b =>
        rw [hok, hok]
        exact ih _ _

theorem Recipe.failure?_expand_unflag {slot : PartSlot} {r : Recipe} (hr : r ∈ Recipe.all) (u : UnitSpec) :
    (r.expand u (slot.unflag c)).failure? = (r.expand u c).failure? := by
  by_cases hlost : slot.Lost c u.mark.toDef
  · rcases resolved_or_axisFlaw u r.policy with ⟨p, hp⟩ | ⟨why, hwhy⟩
    · have hmark : p.mark = u.mark.toDef := by
        cases hp
        rfl
      rw [← hmark] at hlost
      have hunit : Drawing.unit p (slot.unflag c) = Drawing.unit p c := funext PartSlot.unit_unflag
      rw [Recipe.failure?_expand hp, Recipe.failure?_expand hp, drawings_unflag hr]
      change (liftM (List.mapM (Drawing.unit p (slot.unflag c)) ((r.drawings p c).filter _) >>= _) : Report _).failure? =
        (liftM (List.mapM (Drawing.unit p c) ((r.drawings p c).filter _) >>= _) : Report _).failure?
      rw [hunit, PartSlot.filter_unflag]
      refine failure?_mapM_filter (fun d hd hnot => ?_) _ _
      obtain ⟨hd, hdrawn⟩ := List.mem_filter.1 hd
      have hpart : d.part = slot.part := by
        by_contra hne
        rw [PartSlot.isDrawn_unflag fun h => absurd h hne, hdrawn] at hnot
        cases hnot
      refine exists_unit_of_deferred hr hd (style_of_not_explicit (hpart ▸ hlost.deferred)) ?_
      rw [hpart, show p.tag = slot.tag from hlost.tag, hlost.flag]
      rfl
    · have haxis (config : Config) : (r.expand u config).failure? = some (.invalid why) :=
        Recipe.Flaw.failure?_expand (.axis hwhy)
      rw [haxis, haxis]
  · rw [expand_unflag hr hlost]

theorem Recipe.exists_drawing {slot : PartSlot} {r : Recipe} (hr : Recipe.ofTag? slot.tag = some r) (p : Composite)
    (c : Config) : ∃ d ∈ r.drawings p c, d.part = slot.part := by
  cases slot with
  | boxWhisker | boxMid =>
    obtain rfl := Option.some.inj hr
    simp [Recipe.boxPlot, BoxPlot.drawings, PartSlot.part]
  | rule | ticks | bar | line | point =>
    obtain rfl := Option.some.inj hr
    simp [Recipe.errorBar, ErrorBar.drawings, PartSlot.part]
  | band | borders =>
    obtain rfl := Option.some.inj hr
    simp [Recipe.errorBand, ErrorBand.drawings, PartSlot.part]

end Composite

/-! ### Runs -/

namespace Normalizer

variable {slot : PartSlot} {c : Config}

theorem failure?_normalize_unflag (slot : PartSlot) (c : Config) (s : Spec) :
    ((standard (slot.unflag c)).normalize s).failure? = ((standard c).normalize s).failure? := by
  have hunit (u : UnitSpec) : unitFlaw? (slot.unflag c) u = unitFlaw? c u := by
    unfold unitFlaw?
    cases hr : Recipe.ofTag? u.mark.type with
    | some r => exact Recipe.failure?_expand_unflag (Recipe.mem_all_of_ofTag? hr).1 u
    | none => cases u.mark.primitive? <;> rfl
  have hflaw : flaw? (slot.unflag c) = flaw? c := by
    funext ⟨scope, s⟩
    cases s with
    | unit u => rw [flaw?_unit, flaw?_unit, hunit]
    | layer => cases scope <;> rfl
    | facet => cases scope <;> rfl
  rw [normalize_standard, normalize_standard, failure?_spec, failure?_spec, hflaw]

/-- A part that is lost is missing in the result. -/
theorem flatUnit_of_lost {u : UnitSpec} (hlost : slot.Lost c u.mark.toDef) {t t' : Spec} {ws ws' : List Warning}
    (h : (standard c).flatUnit (expansion c) u = .noted t ws)
    (h' : (standard (slot.unflag c)).flatUnit (expansion (slot.unflag c)) u = .noted t' ws') : t ≠ t' := by
  have htype : u.mark.type = slot.tag := (type_toDef u.mark).symm.trans hlost.tag
  obtain ⟨r, hr⟩ : ∃ r, Recipe.ofTag? slot.tag = some r := by cases slot <;> exact ⟨_, rfl⟩
  have hmem := (Recipe.mem_all_of_ofTag? hr).1
  obtain ⟨l, _, units, he, hl, -, rfl, -⟩ := flatUnit_composite (htype ▸ hr) h
  obtain ⟨l', _, units', he', hl', -, rfl, -⟩ := flatUnit_composite (htype ▸ hr) h'
  obtain ⟨p, _, drawn, hp, hdrawn, rfl⟩ := Recipe.expand_eq_noted he
  obtain ⟨p', _, drawn', hp', hdrawn', rfl⟩ := Recipe.expand_eq_noted he'
  obtain rfl : p = p' := (Report.noted_inj.1 (hp.symm.trans hp')).1
  intro ht
  rw [Recipe.drawings_unflag hmem, PartSlot.filter_unflag] at hdrawn'
  have hlength : drawn'.length = drawn.length := by
    injection ht with _ hlayers
    have hunits : drawn.length = units.length := by simpa using congrArg List.length hl
    have hunits' : drawn'.length = units'.length := by simpa using congrArg List.length hl'
    rw [hunits, hunits']
    simpa using (congrArg List.length hlayers).symm
  -- so no part that was drawn is missing
  rw [← hdrawn.length_eq, ← hdrawn'.length_eq, List.length_filter_eq_length_iff] at hlength
  have hlost : slot.Lost c p.mark := by
    obtain ⟨_, _, _, -, -, -, rfl⟩ := resolve_eq_noted hp
    exact hlost
  obtain ⟨hon, hoff⟩ := PartSlot.isDrawn_of_lost hlost
  obtain ⟨d, hd, hpart⟩ := Recipe.exists_drawing hr p c
  have hshown := hlength d (List.mem_filter.2 ⟨hd, by rw [hpart, hon]⟩)
  rw [hpart, hoff] at hshown
  cases hshown

theorem normalize_unflag_iff (s : Spec) :
    (standard (slot.unflag c)).normalize s = (standard c).normalize s ↔
      (∃ f, (standard c).normalize s = .fail f) ∨ ∀ u ∈ s.leaves, ¬ slot.Lost c u.mark.toDef := by
  constructor
  · intro heq
    cases hrun : (standard c).normalize s with
    | fail f => exact .inl ⟨f, rfl⟩
    | noted t ws =>
      refine .inr fun u hu hlost => ?_
      obtain ⟨scope, t₀, w, w', hflat, hflat'⟩ := flatUnit_of_same_result hrun (heq.trans hrun) hu
      exact flatUnit_of_lost ((u.mark_flattened scope).symm ▸ hlost) hflat hflat' rfl
  · rintro (⟨f, hf⟩ | hnone)
    · have hfail := failure?_normalize_unflag slot c s
      rw [hf, Report.failure?_fail, Report.failure?_eq_some_iff] at hfail
      rw [hfail, hf]
    · have hoverlay : (slot.unflag c).overlay = c.overlay := by cases slot <;> rfl
      refine normalize_of_expand hoverlay fun u hu v hv r hr => ?_
      exact Recipe.expand_unflag (Recipe.mem_all_of_ofTag? hr).1 (hv ▸ hnone u hu)

/-- What an empty object comes to in a slot that has its default. -/
theorem ofJson?_mergeInto_default (slot : PartSlot) :
    PartSetting.ofJson? (Json.mergeInto (Json.at? slot.path Config.defaults.toJson) (.obj [])) =
      some (.mark (style (Config.defaults.part? slot.tag slot.part))) := by
  cases slot <;> rfl

/-- **An empty object defers, but for flags.** In a slot that the user leaves alone it changes no result, unless the default
of the slot is the flag `true`, as it is for the whiskers of box plots, the rules of error bars and error bands themselves.
Then it changes the result of each run that succeeds and has a unit with this mark that leaves the part open. -/
theorem empty_setting_defers_iff (slot : PartSlot) {user : Json} (hkeys : user.distinctKeys = true)
    (hopen : Json.Opens slot.path user) (hnone : Json.at? slot.path user = none) (h : Config.ofUser? user = some c) :
    ∃ c', Config.ofUser? (Json.setAt (.obj []) slot.path user) = some c' ∧
      ∀ s, (standard c').normalize s = (standard c).normalize s ↔
        (∃ f, (standard c).normalize s = .fail f) ∨ slot ∉ [.boxWhisker, .rule, .band] ∨
          ∀ u ∈ s.leaves, u.mark.type = slot.tag → (u.mark.toDef.part? slot.part).any PartSetting.isExplicit = true := by
  obtain ⟨hdefault, hset⟩ := Config.ofUser?_setAt hkeys hopen hnone h
  refine ⟨slot.unflag c, ?_, fun s => ?_⟩
  · rw [PartSlot.unflag, hdefault]
    exact hset _ _ (ofJson?_mergeInto_default slot)
  rw [normalize_unflag_iff]
  refine or_congr_right ?_
  simp only [PartSlot.lost_iff, hdefault, PartSlot.default_flag_iff, type_toDef]
  constructor
  · intro hnone
    by_cases hslot : slot ∈ [.boxWhisker, .rule, .band]
    · refine .inr fun u hu htag => ?_
      rw [← Bool.not_eq_false]
      exact fun hdeferred => hnone u hu ⟨htag, hslot, hdeferred⟩
    · exact .inl hslot
  · rintro (hslot | hexplicit) u hu ⟨htag, hmem, hdeferred⟩
    · exact hslot hmem
    · rw [hexplicit u hu htag] at hdeferred
      cases hdeferred

/-- Error bars around a median. An empty object for their ticks changes no result; one for their rules changes none where
the mark asks for the rule itself, and takes the rule away where it does not. -/
theorem empty_setting_defers_errorBars :
    let given : Members := [("center", .str "median")]
    let user : Json := .obj [("errorbar", .obj given)]
    let c : Config := { errorbar := { center := .median } }
    let bars (mark : Mark) : Spec :=
      .unit { mark, encoding := .ofList [(.y, .field { field := some "yield", type := .quantitative })] }
    Config.ofUser? user = some c ∧
      (∃ c', Config.ofUser? (.obj [("errorbar", .obj (given ++ [("ticks", .obj [])]))]) = some c' ∧
        ∀ s, (standard c').normalize s = (standard c).normalize s) ∧
      ∃ c', Config.ofUser? (.obj [("errorbar", .obj (given ++ [("rule", .obj [])]))]) = some c' ∧
        (standard c').normalize (bars (.defined { type := "errorbar", props := .ofList [("rule", .bool true)] })) =
          (standard c).normalize (bars (.defined { type := "errorbar", props := .ofList [("rule", .bool true)] })) ∧
        (standard c').normalize (bars (.tag "errorbar")) ≠ (standard c).normalize (bars (.tag "errorbar")) := by
  intro given user c bars
  have hkeys : user.distinctKeys = true := by decide
  have hopen (key : String) : Json.Opens ["errorbar", key] user := by
    refine ⟨_, rfl, fun j hj => ?_⟩
    obtain rfl := Option.some.inj (Option.mem_def.1 hj)
    exact ⟨given, rfl, fun _ _ => trivial⟩
  have hc : Config.ofUser? user = some c := by decide +kernel +zetaReduce
  refine ⟨hc, ?_, ?_⟩
  · obtain ⟨c', hc', hiff⟩ := empty_setting_defers_iff .ticks hkeys (hopen "ticks") rfl hc
    exact ⟨c', hc', fun s => (hiff s).2 (.inr (.inl (by decide)))⟩
  · obtain ⟨c', hc', hiff⟩ := empty_setting_defers_iff .rule hkeys (hopen "rule") rfl hc
    refine ⟨c', hc', (hiff _).2 (.inr (.inr fun u hu _ => ?_)), fun heq => ?_⟩
    · obtain rfl := List.mem_singleton.1 hu
      decide +kernel +zetaReduce
    · have hsuccess : ((standard c).normalize (bars (.tag "errorbar"))).failure? = none := by decide +kernel +zetaReduce
      rcases (hiff _).1 heq with ⟨f, hf⟩ | hslot | hexplicit
      · rw [hf] at hsuccess
        cases hsuccess
      · exact hslot (by decide)
      · have hnone := hexplicit _ (List.mem_singleton_self _) rfl
        cases hnone

/-- The whiskers of a box plot, two of its four parts, are not drawn under a configuration that holds an empty object for
them and nothing else. -/
theorem empty_setting_drops_whiskers :
    let box : Spec :=
      .unit { mark := .tag "box-plot", encoding := .ofList [(.y, .field { field := some "yield", type := .quantitative })] }
    let bare : Config := { boxWhisker := .mark ∅ }
    Config.ofUser? (.obj []) = some .defaults ∧ Config.ofUser? (.obj [("boxWhisker", .obj [])]) = some bare ∧
      Except.map (·.1.leaves.length) ((standard .defaults).normalize box) = .ok 4 ∧
      Except.map (·.1.leaves.length) ((standard bare).normalize box) = .ok 2 := by
  decide +kernel

end Normalizer

end ChartNormal
