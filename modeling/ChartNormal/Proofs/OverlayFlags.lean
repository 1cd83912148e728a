import ChartNormal.Proofs.Equality
import ChartNormal.Proofs.Lockstep

/-!
# Overlays as flags

The overlays of a configuration are short for flags on the marks they apply to (`Mark.annotated`). With the flags written
out and no overlays configured, a unit is settled as before, except that the properties of the mark under its overlays may
stand in another order: a flag that was there is overwritten in its place, and one that was not is added at the end
(`UnitSpec.settle_annotated`).
-/

namespace ChartNormal

namespace Mark

/-- The mark with a property switched on, if that is asked for and the property is no boolean yet. -/
def flagged (m : Mark) (name : String) (on : Bool) : Mark :=
  if on && (m.toDef.flag? name).isNone then .defined (m.toDef.withProp name (.bool true)) else m

/-- The mark with the flags that the overlays stand for. -/
def annotated (overlay : OverlayConfig) (m : Mark) : Mark :=
  match m.primitive? with
  | some .line => m.flagged "point" overlay.line
  | some .area => (m.flagged "line" overlay.area.isSome).flagged "point" (overlay.area = some .linePoint)
  | _ => m

variable {m : Mark} {name : String}

/-! ### One flag -/

theorem asksFor_eq (m : Mark) (name : String) (configured : Bool) :
    m.asksFor name configured = (m.toDef.flag? name).getD configured := by
  cases m <;> rfl

/-- The flag takes the place of what is configured. -/
theorem asksFor_flagged (m : Mark) (name : String) (on : Bool) :
    (m.flagged name on).asksFor name false = m.asksFor name on := by
  rw [flagged, asksFor_eq m]
  split
  · next h =>
    obtain ⟨rfl, hnone⟩ := Bool.and_eq_true_iff.1 h
    rw [Option.isNone_iff_eq_none.1 hnone]
    simp [asksFor_eq, toDef, MarkDef.flag?, MarkDef.withProp, OrderedMap.get?_insert, Json.bool?]
  · next h =>
    rw [asksFor_eq]
    cases on with
    | false => rfl
    | true =>
      cases hflag : m.toDef.flag? name with
      | none => rw [hflag] at h; exact absurd rfl h
      | some b => rfl

theorem asksFor_flagged_of_ne {key : String} (h : name ≠ key) (on configured : Bool) :
    (m.flagged key on).asksFor name configured = m.asksFor name configured := by
  unfold flagged
  split
  · rw [asksFor_withProp_of_ne _ h, asksFor_eq, asksFor_eq m]
    rfl
  · rfl

/-- Where nothing is drawn over the mark there is nothing to write out. -/
theorem flagged_eq_self {on : Bool} (h : m.asksFor name on = false) : m.flagged name on = m := by
  rw [asksFor_eq] at h
  refine if_neg fun hon => ?_
  obtain ⟨rfl, hnone⟩ := Bool.and_eq_true_iff.1 hon
  rw [Option.isNone_iff_eq_none.1 hnone] at h
  cases h

theorem toDef_flagged (m : Mark) (name : String) (on : Bool) :
    ∃ props, (m.flagged name on).toDef = { m.toDef with props } ∧ ∀ k, k ≠ name → props.get? k = m.toDef.props.get? k := by
  unfold flagged
  split
  · refine ⟨_, rfl, fun k hk => ?_⟩
    rw [OrderedMap.get?_insert, if_neg hk]
  · exact ⟨_, rfl, fun _ _ => rfl⟩

/-! ### The flags of a mark -/

variable {p : Primitive} (overlay : OverlayConfig)

theorem toDef_annotated (hm : m.primitive? = some p) :
    ∃ props, (m.annotated overlay).toDef = { m.toDef with props } ∧
      ∀ k, k ≠ "point" → (p = .area → k ≠ "line") → props.get? k = m.toDef.props.get? k := by
  rw [annotated, hm]
  cases p with
  | line =>
    obtain ⟨props, hd, hprops⟩ := m.toDef_flagged "point" overlay.line
    exact ⟨props, hd, fun k hk _ => hprops k hk⟩
  | area =>
    obtain ⟨props, hd, hprops⟩ := m.toDef_flagged "line" overlay.area.isSome
    obtain ⟨props', hd', hprops'⟩ := (m.flagged "line" overlay.area.isSome).toDef_flagged "point"
      (overlay.area = some .linePoint)
    rw [hd] at hd' hprops'
    exact ⟨props', hd', fun k hk hline => (hprops' k hk).trans (hprops k (hline rfl))⟩
  | _ => exact ⟨_, rfl, fun _ _ _ => rfl⟩

theorem type_annotated (hm : m.primitive? = some p) : (m.annotated overlay).type = m.type := by
  obtain ⟨props, hd, -⟩ := toDef_annotated overlay hm
  rw [← Composite.type_toDef, hd]
  exact Composite.type_toDef m

end Mark

namespace UnitSpec

variable {u : UnitSpec} {p : Primitive} (hm : u.mark.primitive? = some p) (config : Config)

include hm

theorem overlays_annotated :
    (u.mapMark (Mark.annotated config.overlay)).overlays { config with overlay := {} } p = u.overlays config p := by
  cases p with
  | line =>
    refine Prod.ext rfl ?_
    change (u.mark.annotated config.overlay).asksFor "point" false = u.mark.asksFor "point" config.overlay.line
    rw [Mark.annotated, hm]
    exact Mark.asksFor_flagged ..
  | area =>
    refine Prod.ext ?_ ?_
    · change (u.mark.annotated config.overlay).asksFor "line" false = u.mark.asksFor "line" config.overlay.area.isSome
      rw [Mark.annotated, hm]
      exact (Mark.asksFor_flagged_of_ne (by decide) _ _).trans (Mark.asksFor_flagged ..)
    · change (u.mark.annotated config.overlay).asksFor "point" false =
        u.mark.asksFor "point" (config.overlay.area = some .linePoint)
      rw [Mark.annotated, hm]
      exact (Mark.asksFor_flagged ..).trans (Mark.asksFor_flagged_of_ne (by decide) _ _)
  | _ => rfl

theorem annotated_eq_self (h : u.overlays config p = (false, false)) : u.mark.annotated config.overlay = u.mark := by
  have hplain := (plain_iff_overlays hm).2 h
  have htype : u.mark.type = p.name := (Primitive.ofName?_eq_some hm).symm
  rw [Mark.annotated, hm]
  cases p with
  | line => exact Mark.flagged_eq_self (hplain.line htype)
  | area =>
    obtain ⟨hline, hpoint⟩ := hplain.area htype
    rw [Mark.flagged_eq_self hline, Mark.flagged_eq_self hpoint]
  | _ => rfl

/-- Under its overlays a mark has lost its flags again. -/
theorem overlaidMark_annotated :
    ∃ props, (u.mapMark (Mark.annotated config.overlay)).overlaidMark p = { u.overlaidMark p with props } ∧
      (u.overlaidMark p).props.Reorders props := by
  obtain ⟨props, hd, hprops⟩ := Mark.toDef_annotated config.overlay hm
  have hmark : (u.mapMark (Mark.annotated config.overlay)).mark = u.mark.annotated config.overlay := rfl
  unfold overlaidMark
  rw [hmark, hd]
  split
  · -- both flags of an area are overwritten, and nothing else was written out
    refine ⟨_, rfl, OrderedMap.reorders_iff.2 fun k => ?_⟩
    simp only [MarkDef.withProp, OrderedMap.get?_insert]
    split
    · rfl
    · next hline =>
      split
      · rfl
      · next hpoint => exact (hprops k hpoint fun _ => hline).symm
  · next harea =>
    refine ⟨_, rfl, OrderedMap.reorders_iff.2 fun k => ?_⟩
    simp only [MarkDef.withProp, OrderedMap.get?_insert]
    split
    · rfl
    · next hpoint => exact (hprops k hpoint fun h => absurd h harea).symm

theorem settle_annotated :
    (u.settle config p).MarksReorder
      ((u.mapMark (Mark.annotated config.overlay)).settle { config with overlay := {} } p) := by
  obtain ⟨props, hbase, hprops⟩ := overlaidMark_annotated hm config
  have hrefl : ∀ v : UnitSpec, (Spec.unit v).MarksReorder (.unit v) := fun v => .unit (.refl v.mark)
  unfold settle
  rw [overlays_annotated hm, hbase]
  cases ho : u.overlays config p with
  | mk line point =>
    cases line <;> cases point
    · -- nothing is drawn over the mark, so there is no flag to write out
      have hmark : u.mark.Reorders (u.mark.annotated config.overlay) := by
        rw [annotated_eq_self hm config ho]
        exact .refl _
      exact .unit hmark
    · exact .layer (.cons (.unit (.defined hprops)) (.cons (hrefl _) .nil))
    · exact .layer (.cons (.unit (.defined hprops)) (.cons (hrefl _) .nil))
    · exact .layer (.cons (.unit (.defined hprops)) (.cons (hrefl _) (.cons (hrefl _) .nil)))

end UnitSpec

namespace Normalizer

/-- **Overlays as flags.** Where all marks are primitive, configured overlays do what flags on the marks do: with the flags
written out and no overlays configured, a specification fails alike, or has the same result with the same warnings. Only
properties of marks may stand in another order, which makes no difference to equality. -/
theorem normalize_annotated (config : Config) {s : Spec} (hs : ∀ u ∈ s.leaves, ∃ m, u.mark.primitive? = some m) :
    Report.Rel (fun t t' => t.MarksReorder t' ∧ (s.same s = true → t.same t' = true))
      ((standard config).normalize s)
      ((standard { config with overlay := {} }).normalize (s.mapMarks (Mark.annotated config.overlay))) := by
  have hrun : Report.Rel Spec.MarksReorder ((standard config).normalize s)
      ((standard { config with overlay := {} }).normalize (s.mapMarks (Mark.annotated config.overlay))) := by
    refine spec_lockstep ⟨.layer, .facet⟩ (fun u hu scope => ?_) .top
    obtain ⟨m, hm⟩ := hs u hu
    rw [← u.mark_flattened scope] at hm
    have hm' : ((u.flattened scope).mapMark (Mark.annotated config.overlay)).mark.primitive? = some m :=
      (congrArg Primitive.ofName? (Mark.type_annotated config.overlay hm)).trans hm
    rw [flatUnit_primitive hm, flatUnit_primitive hm']
    exact .noted (UnitSpec.settle_annotated hm config) rfl
  refine hrun.imp fun t t' ws ht h => ⟨h, fun hself => h.same ?_⟩
  exact same_self_of_spec ht hs hself

/-- Areas and a line inside a facet, where a flag is missing, is a boolean, or is something else. Without the flags and
without overlays they stay as they are. -/
theorem normalize_annotated_areas :
    let y : Encoding := .ofList [(.y, .field { field := some "yield", type := .quantitative })]
    let config : Config := { overlay := { line := true, area := some .linePoint } }
    let areas : Spec := .facet [] { row := some { field := some "site", type := .nominal } }
      (.layer []
        [.unit { mark := .tag "area", encoding := y },
          .unit
            { mark := .defined { type := "area", props := .ofList [("point", .bool false), ("line", .str "on")] }
              encoding := y },
          .unit { mark := .defined { type := "line", props := .ofList [("point", .null)] }, encoding := y }] ∅) ∅
    (∃ t t' ws, (standard config).normalize areas = .noted t ws ∧
        (standard { config with overlay := {} }).normalize (areas.mapMarks (Mark.annotated config.overlay)) = .noted t' ws ∧
        t.same t' = true) ∧
      Except.map (·.1.leaves.length) ((standard config).normalize areas) = .ok 7 ∧
      Except.map (·.1.leaves.length) ((standard { config with overlay := {} }).normalize areas) = .ok 3 := by
  intro y config areas
  have hmarks : ∀ u ∈ areas.leaves, ∃ m, u.mark.primitive? = some m := by
    have hsome : ∀ u ∈ areas.leaves, u.mark.primitive?.isSome = true := by decide +kernel +zetaReduce
    exact fun u hu => Option.isSome_iff_exists.1 (hsome u hu)
  have hself : areas.same areas = true := by decide +kernel +zetaReduce
  have hsuccess : ((standard config).normalize areas).failure? = none := by decide +kernel +zetaReduce
  refine ⟨?_, by decide +kernel +zetaReduce, by decide +kernel +zetaReduce⟩
  have hrel := normalize_annotated config hmarks
  obtain ⟨t, ws, ht⟩ := Report.failure?_eq_none_iff.1 hsuccess
  rw [ht] at hrel
  generalize hr : (standard { config with overlay := {} }).normalize (areas.mapMarks (Mark.annotated config.overlay)) = r
  rw [hr] at hrel
  cases hrel with
  | @noted t t' ws ws' h hws => exact ⟨t, t', ws, ht, by rw [hws], h.2 hself⟩

end Normalizer

end ChartNormal
