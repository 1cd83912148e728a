import ChartNormal.Proofs.Composite.Recipe

/-!
# When a composite mark can be expanded

A mark can be expanded when its continuous axis is clear and has a field, and the properties of each part that is drawn
make a mark (`Recipe.Expandable`). Otherwise it has a flaw, and the failure is the one that goes with it
(`Recipe.Flaw`); flaws of the axis come before those of the parts. The conditions are on the accepted channels and on
the mark alone.
-/

namespace ChartNormal

namespace Composite

/-! ### The axis -/

section Axis

variable (e : Encoding) (mark : MarkDef) (tag : String)

/-- The axis that `o` makes continuous is continuous, and the other one is not. -/
def OnlyContinuous (o : Orient) : Prop := isContinuous e o.continuous = true ∧ isContinuous e o.discrete = false

/-- The axis along `o` is aggregated by the tag of the mark. -/
def IsTagged (o : Orient) : Prop := aggregate? e o.continuous = some (.composite tag)

/-- There is a continuous axis; of two, not both are aggregated by the tag; with one, the mark asks for no other. -/
structure Orientable : Prop where
  continuous : isContinuous e .x = true ∨ isContinuous e .y = true
  tags : isContinuous e .x = true → isContinuous e .y = true → ¬ ∀ o, IsTagged e tag o
  agrees : ∀ o, OnlyContinuous e o → ∀ o', mark.orient = some o' → o' = o

/-- The axis that is summarised: the only continuous one; of two the one with the tag, if the other has no aggregate, else
the one that the mark asks for, else `y`. -/
inductive Summarises : Orient → Prop
  | only {o : Orient} (h : OnlyContinuous e o) : Summarises o
  | tagged {o : Orient} (h : ∀ c : Orient, isContinuous e c.continuous = true) (ho : IsTagged e tag o)
      (hother : aggregate? e o.discrete = none) : Summarises o
  | asked (h : ∀ c : Orient, isContinuous e c.continuous = true)
      (hnone : ∀ o, ¬ (IsTagged e tag o ∧ aggregate? e o.discrete = none)) : Summarises (mark.orient.getD .vertical)

/-- Why no axis can be summarised. -/
inductive AxisFlaw (policy : AggregatePolicy) : Invalid → Prop
  | discrete (hx : isContinuous e .x = false) (hy : isContinuous e .y = false) :
      AxisFlaw policy (.noContinuousAxis tag)
  | bothTagged (hx : isContinuous e .x = true) (hy : isContinuous e .y = true) (h : ∀ o, IsTagged e tag o) :
      AxisFlaw policy (.bothAggregated tag)
  | conflict {o o' : Orient} (h : OnlyContinuous e o) (hmark : mark.orient = some o') (hne : o' ≠ o) :
      AxisFlaw policy (.orientConflict o' tag)
  | noField {o : Orient} {d : FieldDef} (h : Orientable e mark tag) (ho : Summarises e mark tag o)
      (hd : e.field? o.continuous = some d) (hfield : d.field = none) : AxisFlaw policy (.noContinuousAxis tag)
  | aggregate {o : Orient} {d : FieldDef} {field : String} {a : Aggregate} (h : Orientable e mark tag)
      (ho : Summarises e mark tag o) (hd : e.field? o.continuous = some d) (hfield : d.field = some field)
      (ha : d.aggregate = some a) (hne : a ≠ .composite tag) (hpolicy : policy = .refuse) :
      AxisFlaw policy (.axisAggregate a.name)

variable {e mark tag} {o : Orient}

theorem Summarises.isContinuous (h : Summarises e mark tag o) : isContinuous e o.continuous = true := by
  cases h with
  | only h => exact h.1
  | tagged h => exact h o
  | asked h => exact h _

theorem Summarises.exists_field (h : Summarises e mark tag o) : ∃ d, e.field? o.continuous = some d := by
  have hc := h.isContinuous
  rw [Composite.isContinuous, Option.any_eq_true] at hc
  exact hc.imp fun _ h => h.1

theorem orient_of_only (h : OnlyContinuous e o) : orient e mark tag = forcedOrient o mark tag := by
  obtain ⟨hc, hd⟩ := h
  cases o with
  | vertical => rw [orient, show isContinuous e .x = false from hd, show isContinuous e .y = true from hc]
  | horizontal => rw [orient, show isContinuous e .x = true from hc, show isContinuous e .y = false from hd]

theorem orient_of_both (h : ∀ c : Orient, isContinuous e c.continuous = true) :
    orient e mark tag = chosenOrient (aggregate? e .x) (aggregate? e .y) mark tag := by
  rw [orient, show isContinuous e .x = true from h .horizontal, show isContinuous e .y = true from h .vertical]

theorem orient_of_summarises (h : Orientable e mark tag) (ho : Summarises e mark tag o) :
    orient e mark tag = .ok o := by
  cases ho with
  | only hc =>
    rw [orient_of_only hc, forcedOrient]
    cases hm : mark.orient with
    | none => rfl
    | some o' => rw [h.agrees o hc o' hm]; exact if_pos rfl
  | tagged hc ho hother =>
    rw [orient_of_both hc]
    cases o with
    | vertical =>
      change aggregate? e .y = _ at ho
      change aggregate? e .x = _ at hother
      simp [chosenOrient, ho, hother]
    | horizontal =>
      change aggregate? e .x = _ at ho
      change aggregate? e .y = _ at hother
      simp [chosenOrient, ho, hother]
  | asked hc hnone =>
    have hboth : ¬ (aggregate? e .x = some (.composite tag) ∧ aggregate? e .y = some (.composite tag)) := by
      rintro ⟨hx, hy⟩
      exact h.tags (hc .horizontal) (hc .vertical) fun o => by cases o <;> assumption
    have hy : ¬ (aggregate? e .x = none ∧ aggregate? e .y = some (.composite tag)) :=
      fun h => hnone .vertical ⟨h.2, h.1⟩
    have hx : ¬ (aggregate? e .y = none ∧ aggregate? e .x = some (.composite tag)) :=
      fun h => hnone .horizontal ⟨h.2, h.1⟩
    rw [orient_of_both hc, chosenOrient, if_neg hboth, if_neg hy, if_neg hx]

/-- Where there is no flaw in the orientation, some axis is summarised. -/
theorem Orientable.exists_summarises (h : Orientable e mark tag) : ∃ o, Summarises e mark tag o := by
  cases hx : isContinuous e .x with
  | true =>
    cases hy : isContinuous e .y with
    | true =>
      have hc : ∀ c : Orient, isContinuous e c.continuous = true := fun c => by cases c <;> assumption
      by_cases htag : ∃ o, IsTagged e tag o ∧ aggregate? e o.discrete = none
      · obtain ⟨o, ho, hother⟩ := htag
        exact ⟨o, .tagged hc ho hother⟩
      · exact ⟨_, .asked hc fun o ho => htag ⟨o, ho⟩⟩
    | false => exact ⟨.horizontal, .only ⟨hx, hy⟩⟩
  | false =>
    rcases h.continuous with hx' | hy
    · rw [hx] at hx'; cases hx'
    · exact ⟨.vertical, .only ⟨hy, hx⟩⟩

theorem orientable_or_axisFlaw (policy : AggregatePolicy) :
    Orientable e mark tag ∨ ∃ why, AxisFlaw e mark tag policy why := by
  by_cases hagrees : ∀ o, OnlyContinuous e o → ∀ o', mark.orient = some o' → o' = o
  · by_cases hcontinuous : isContinuous e .x = true ∨ isContinuous e .y = true
    · by_cases htags : isContinuous e .x = true → isContinuous e .y = true → ¬ ∀ o, IsTagged e tag o
      · exact .inl ⟨hcontinuous, htags, hagrees⟩
      · simp only [Classical.not_imp, not_not] at htags
        obtain ⟨hx, hy, h⟩ := htags
        exact .inr ⟨_, .bothTagged hx hy h⟩
    · simp only [not_or, Bool.not_eq_true] at hcontinuous
      exact .inr ⟨_, .discrete hcontinuous.1 hcontinuous.2⟩
  · simp only [not_forall] at hagrees
    obtain ⟨o, ho, o', hm, hne⟩ := hagrees
    exact .inr ⟨_, .conflict ho hm hne⟩

end Axis

/-! ### Resolution -/

variable {u v : UnitSpec} {policy : AggregatePolicy} {config : Config}

/-- The axis of `u` is clear, has a field, and no aggregate that the policy refuses. -/
inductive Resolved (u : UnitSpec) (policy : AggregatePolicy) : Composite → Prop
  | intro {o : Orient} {d : FieldDef} {field : String}
      (h : Orientable (accepted u.encoding) u.mark.toDef u.mark.type)
      (ho : Summarises (accepted u.encoding) u.mark.toDef u.mark.type o)
      (hd : (accepted u.encoding).field? o.continuous = some d) (hfield : d.field = some field)
      (hpolicy : policy = .refuse → ∀ a, d.aggregate = some a → a = .composite u.mark.type) :
      Resolved u policy (along u o d field)

theorem failure?_checkAggregate {aggregate : Option Aggregate} {tag : String}
    (h : policy = .refuse → ∀ a, aggregate = some a → a = .composite tag) :
    (Axis.checkAggregate aggregate tag policy).failure? = none := by
  cases aggregate with
  | none => rfl
  | some a =>
    simp only [Axis.checkAggregate]
    split
    · rfl
    · next ha =>
      cases policy with
      | warn => rfl
      | refuse => exact absurd (h rfl a rfl) ha

theorem failure?_axisResolve {e : Encoding} {o : Orient} {d : FieldDef} {field tag : String}
    (hd : e.field? o.continuous = some d) (hfield : d.field = some field) :
    (Axis.resolve e o tag policy).failure? = (Axis.checkAggregate d.aggregate tag policy).failure? := by
  rw [Axis.resolve, hd]
  simp only [hfield]
  exact Report.failure?_bind_eq_left fun _ => rfl

theorem failure?_resolve {o : Orient} (ho : orient (accepted u.encoding) u.mark.toDef u.mark.type = .ok o) :
    (resolve u policy).failure? = (Axis.resolve (accepted u.encoding) o u.mark.type policy).failure? := by
  rw [resolve, type_toDef, ho, Report.failure?_noted_bind, Report.lift_ok, Report.failure?_noted_bind]
  exact Report.failure?_bind_eq_left fun _ => rfl

theorem resolve_of_resolved {p : Composite} (h : Resolved u policy p) : ∃ ws, resolve u policy = .noted p ws := by
  obtain @⟨o, d, field, h, ho, hd, hfield, hpolicy⟩ := h
  have horient := orient_of_summarises h ho
  have hnone : (resolve u policy).failure? = none := by
    rw [failure?_resolve horient, failure?_axisResolve hd hfield, failure?_checkAggregate hpolicy]
  obtain ⟨p, ws, hp⟩ := Report.failure?_eq_none_iff.1 hnone
  obtain ⟨o', d', field', ho', hd', hfield', rfl⟩ := resolve_eq_noted hp
  obtain rfl : o = o' := Except.ok.inj (horient.symm.trans ho')
  obtain rfl : d = d' := Option.some.inj (hd.symm.trans hd')
  obtain rfl : field = field' := Option.some.inj (hfield.symm.trans hfield')
  exact ⟨ws, hp⟩

theorem resolve_of_axisFlaw {why : Invalid}
    (h : AxisFlaw (accepted u.encoding) u.mark.toDef u.mark.type policy why) :
    (resolve u policy).failure? = some (.invalid why) := by
  have hfail : ∀ f, orient (accepted u.encoding) u.mark.toDef u.mark.type = .error f →
      (resolve u policy).failure? = some f := by
    intro f hf
    rw [resolve, type_toDef, hf]
    rfl
  cases h with
  | discrete hx hy => exact hfail _ (by rw [orient, hx, hy])
  | bothTagged hx hy h =>
    refine hfail _ ?_
    rw [orient, hx, hy]
    exact if_pos ⟨h .horizontal, h .vertical⟩
  | conflict h hmark hne =>
    refine hfail _ ?_
    rw [orient_of_only h, forcedOrient, hmark]
    exact if_neg hne
  | noField h ho hd hfield =>
    rw [failure?_resolve (orient_of_summarises h ho), Axis.resolve, hd]
    simp only [hfield]
    rfl
  | aggregate h ho hd hfield ha hne hpolicy =>
    rw [failure?_resolve (orient_of_summarises h ho), failure?_axisResolve hd hfield, ha, hpolicy, Axis.checkAggregate,
      if_neg hne]
    rfl

theorem resolved_or_axisFlaw (u : UnitSpec) (policy : AggregatePolicy) :
    (∃ p, Resolved u policy p) ∨ ∃ why, AxisFlaw (accepted u.encoding) u.mark.toDef u.mark.type policy why := by
  rcases orientable_or_axisFlaw policy with h | hflaw
  · obtain ⟨o, ho⟩ := h.exists_summarises
    obtain ⟨d, hd⟩ := ho.exists_field
    cases hfield : d.field with
    | none => exact .inr ⟨_, .noField h ho hd hfield⟩
    | some field =>
      by_cases hpolicy : policy = .refuse → ∀ a, d.aggregate = some a → a = .composite u.mark.type
      · exact .inl ⟨_, .intro h ho hd hfield hpolicy⟩
      · simp only [not_forall] at hpolicy
        obtain ⟨hrefuse, a, ha, hne⟩ := hpolicy
        exact .inr ⟨_, .aggregate h ho hd hfield ha hne hrefuse⟩
  · exact .inr hflaw

/-! ### The parts -/

/-- The properties of the drawing, put together, make a mark. -/
def Readable (p : Composite) (config : Config) (d : Drawing) : Prop :=
  ∃ mark, MarkDef.ofMembers? (p.partProps config d.part d.base).entries = some mark

namespace Recipe

/-- The axis is resolved, and each part that is drawn has properties that make a mark. -/
def Expandable (r : Recipe) (u : UnitSpec) (config : Config) : Prop :=
  ∃ p, Resolved u r.policy p ∧ ∀ d ∈ r.drawings p config, p.isDrawn config d.part = true → p.Readable config d

/-- Why a mark cannot be expanded: its axis, or the first of the drawn parts whose properties make no mark. -/
inductive Flaw (r : Recipe) (u : UnitSpec) (config : Config) : Failure → Prop
  | axis {why : Invalid} (h : AxisFlaw (accepted u.encoding) u.mark.toDef u.mark.type r.policy why) :
      Flaw r u config (.invalid why)
  | part {p : Composite} {before after : List Drawing} {d : Drawing} (hp : Resolved u r.policy p)
      (hdrawn : (r.drawings p config).filter (p.isDrawn config ·.part) = before ++ d :: after)
      (hbefore : ∀ x ∈ before, p.Readable config x) (hd : ¬ p.Readable config d) :
      Flaw r u config (.invalidPart d.part)

end Recipe

theorem Readable.exists_unit {p : Composite} {d : Drawing} (h : p.Readable config d) :
    ∃ v, d.unit p config = .ok v := by
  obtain ⟨mark, hmark⟩ := h
  rw [Drawing.unit, partUnit, partMark, hmark]
  exact ⟨_, rfl⟩

theorem unit_of_not_readable {p : Composite} {d : Drawing} (h : ¬ p.Readable config d) :
    d.unit p config = .error (.invalidPart d.part) := by
  have hnone : MarkDef.ofMembers? (p.partProps config d.part d.base).entries = none :=
    Option.eq_none_iff_forall_ne_some.2 fun mark hmark => h ⟨mark, hmark⟩
  rw [Drawing.unit, partUnit, partMark, hnone]
  rfl

section Expand

variable {r : Recipe} {p : Composite}

/-- Once the axis is resolved, only the parts can fail. -/
theorem Recipe.failure?_expand (hp : Resolved u r.policy p) :
    (r.expand u config).failure? =
      (liftM (p.layer config u (r.drawings p config) (r.columns p config) (r.calculates p config)) :
        Report LayerSpec).failure? := by
  obtain ⟨ws, hws⟩ := resolve_of_resolved hp
  rw [Recipe.expand, hws, Report.failure?_noted_bind, Report.failure?_noted_bind]

theorem Recipe.Expandable.failure?_expand (h : r.Expandable u config) : (r.expand u config).failure? = none := by
  obtain ⟨p, hp, hread⟩ := h
  have hunits : ∀ d ∈ (r.drawings p config).filter (p.isDrawn config ·.part), ∃ v, Drawing.unit p config d = .ok v := by
    intro d hd
    obtain ⟨hd, hdrawn⟩ := List.mem_filter.1 hd
    exact (hread d hd hdrawn).exists_unit
  obtain ⟨units, hunits⟩ := exists_mapM_eq_ok hunits
  rw [Recipe.failure?_expand hp]
  change (liftM (List.mapM (Drawing.unit p config) _ >>= _) : Report LayerSpec).failure? = none
  rw [hunits]
  rfl

theorem Recipe.Flaw.failure?_expand {f : Failure} (h : r.Flaw u config f) :
    (r.expand u config).failure? = some f := by
  cases h with
  | axis h =>
    have hfail := Report.failure?_eq_some_iff.1 (resolve_of_axisFlaw h)
    rw [Recipe.expand, hfail]
    rfl
  | part hp hdrawn hbefore hd =>
    rw [Recipe.failure?_expand hp]
    change (liftM (List.mapM (Drawing.unit _ config) _ >>= _) : Report LayerSpec).failure? = _
    rw [hdrawn, mapM_append_cons (fun x hx => (hbefore x hx).exists_unit) (unit_of_not_readable hd)]
    rfl

theorem Recipe.expandable_or_flaw (r : Recipe) (u : UnitSpec) (config : Config) :
    r.Expandable u config ∨ ∃ f, r.Flaw u config f := by
  classical
  rcases resolved_or_axisFlaw u r.policy with ⟨p, hp⟩ | ⟨why, hwhy⟩
  · cases hfind : ((r.drawings p config).filter (p.isDrawn config ·.part)).find? (¬ p.Readable config ·) with
    | none =>
      refine .inl ⟨p, hp, fun d hd hdrawn => ?_⟩
      simpa using List.find?_eq_none.1 hfind d (List.mem_filter.2 ⟨hd, hdrawn⟩)
    | some d =>
      obtain ⟨hd, before, after, hdrawn, hbefore⟩ := List.find?_eq_some_iff_append.1 hfind
      exact .inr ⟨_, .part hp hdrawn (fun x hx => by simpa using hbefore x hx) (by simpa using hd)⟩
  · exact .inr ⟨_, .axis hwhy⟩

/-- The failure of an expansion is that of its flaw. -/
theorem Recipe.failure?_expand_eq_some_iff {f : Failure} :
    (r.expand u config).failure? = some f ↔ r.Flaw u config f := by
  refine ⟨fun hf => ?_, fun h => h.failure?_expand⟩
  rcases r.expandable_or_flaw u config with h | ⟨f', h⟩
  · rw [h.failure?_expand] at hf
    cases hf
  · rw [h.failure?_expand] at hf
    exact Option.some.inj hf ▸ h

theorem Recipe.failure?_expand_eq_none_iff : (r.expand u config).failure? = none ↔ r.Expandable u config := by
  refine ⟨fun hnone => ?_, fun h => h.failure?_expand⟩
  rcases r.expandable_or_flaw u config with h | ⟨f, h⟩
  · exact h
  · rw [h.failure?_expand] at hnone
    cases hnone

theorem Resolved.congr (hmark : v.mark = u.mark) (he : accepted v.encoding = accepted u.encoding)
    (h : Resolved v policy p) : Resolved u policy p := by
  obtain @⟨o, d, field, h, ho, hd, hfield, hpolicy⟩ := h
  have halong : along v o d field = along u o d field := by rw [along, along, hmark, he]
  rw [hmark, he] at h ho
  rw [he] at hd
  rw [hmark] at hpolicy
  exact halong ▸ .intro h ho hd hfield hpolicy

theorem Recipe.Flaw.congr (hmark : v.mark = u.mark) (he : accepted v.encoding = accepted u.encoding) {f : Failure}
    (h : r.Flaw v config f) : r.Flaw u config f := by
  cases h with
  | axis h => exact .axis (hmark ▸ he ▸ h)
  | part hp hdrawn hbefore hd => exact .part (hp.congr hmark he) hdrawn hbefore hd

/-- Only the mark and the accepted channels count. -/
theorem Recipe.failure?_expand_congr (hmark : v.mark = u.mark) (he : accepted v.encoding = accepted u.encoding) :
    (r.expand v config).failure? = (r.expand u config).failure? := by
  ext f
  rw [failure?_expand_eq_some_iff, failure?_expand_eq_some_iff]
  exact ⟨.congr hmark he, .congr hmark.symm he.symm⟩

end Expand

end Composite

end ChartNormal
