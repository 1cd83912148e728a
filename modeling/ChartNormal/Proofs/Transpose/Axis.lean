import ChartNormal.Proofs.Composite.Resolution
import ChartNormal.Proofs.Transpose.Encoding

/-!
# The transposed axis of a composite mark

The continuous axis of the transposed chart is the other one, and what is extracted along it is the same, as long as it is
not the default that decides between two continuous axes (`orient_transpose`, `resolve_transpose`).
-/

namespace ChartNormal

/-! ### Marks and units -/

def MarkDef.transpose (d : MarkDef) : MarkDef := { d with orient := d.orient.map Orient.flip }

def Mark.transpose : Mark → Mark
  | .tag name => .tag name
  | .defined d => .defined d.transpose

@[simp] theorem Mark.type_transpose (m : Mark) : m.transpose.type = m.type := by cases m <;> rfl

@[simp] theorem Mark.primitive?_transpose (m : Mark) : m.transpose.primitive? = m.primitive? :=
  congrArg Primitive.ofName? m.type_transpose

@[simp] theorem Mark.toDef_transpose (m : Mark) : m.transpose.toDef = m.toDef.transpose := by cases m <;> rfl

def UnitSpec.transpose (u : UnitSpec) : UnitSpec :=
  { u with mark := u.mark.transpose, encoding := u.encoding.transpose }

namespace Orient

@[simp] theorem continuous_flip (o : Orient) : o.flip.continuous = o.continuous.transpose := by cases o <;> rfl

@[simp] theorem discrete_flip (o : Orient) : o.flip.discrete = o.discrete.transpose := by cases o <;> rfl

@[simp] theorem secondary_flip (o : Orient) : o.flip.secondary = o.secondary.transpose := by cases o <;> rfl

end Orient

namespace Composite

/-! ### The axis -/

theorem accepted_transpose (e : Encoding) : accepted e.transpose = (accepted e).transpose := by
  rw [accepted, accepted, Encoding.only, Encoding.only]
  refine e.restrict_transpose fun c => ?_
  cases c <;> rfl

theorem acceptedWarnings_transpose (e : Encoding) (tag : String) :
    acceptedWarnings e.transpose tag = (acceptedWarnings e tag).map Warning.transpose := by
  have hkeep : ∀ c : Channel, decide (c.transpose ∉ channels) = decide (c ∉ channels) := by
    intro c
    cases c <;> rfl
  rw [acceptedWarnings, acceptedWarnings, Encoding.channels_transpose, List.filter_map, List.map_map, List.map_map]
  simp only [Function.comp_def, hkeep]
  rfl

theorem isContinuous_transpose (e : Encoding) (c : Channel) :
    isContinuous e.transpose c.transpose = isContinuous e c := by
  rw [isContinuous, isContinuous, Encoding.field?_transpose]

theorem aggregate?_transpose (e : Encoding) (c : Channel) : aggregate? e.transpose c.transpose = aggregate? e c := by
  rw [aggregate?, aggregate?, Encoding.field?_transpose]

/-- Of two continuous axes the mark asks for one, or one alone has the tag and the other no aggregate. -/
def AxisDecided (e : Encoding) (mark : MarkDef) (tag : String) : Prop :=
  (∀ o : Orient, isContinuous e o.continuous = true) →
    mark.orient.isSome = true ∨ ∃ o, IsTagged e tag o ∧ aggregate? e o.discrete = none

theorem forcedOrient_transpose (o : Orient) (mark : MarkDef) (tag : String) :
    forcedOrient o.flip mark.transpose tag = exceptTransposeBy Orient.flip (forcedOrient o mark tag) := by
  rw [forcedOrient, forcedOrient, MarkDef.transpose]
  cases mark.orient with
  | none => rfl
  | some o' => cases o <;> cases o' <;> rfl

theorem chosenOrient_transpose {x y : Option Aggregate} {mark : MarkDef} {tag : String}
    (h : mark.orient.isSome = true ∨ (x = none ∧ y = some (.composite tag)) ∨ (y = none ∧ x = some (.composite tag))) :
    chosenOrient y x mark.transpose tag = exceptTransposeBy Orient.flip (chosenOrient x y mark tag) := by
  unfold chosenOrient
  by_cases hboth : x = some (Aggregate.composite tag) ∧ y = some (Aggregate.composite tag)
  · rw [if_pos hboth.symm, if_pos hboth]
    rfl
  · rw [if_neg fun h => hboth h.symm, if_neg hboth]
    by_cases hy : x = none ∧ y = some (Aggregate.composite tag)
    · rw [if_neg (by simp [hy]), if_pos hy, if_pos hy]
      rfl
    · by_cases hx : y = none ∧ x = some (Aggregate.composite tag)
      · rw [if_pos hx, if_neg hy, if_pos hx]
        rfl
      · have hmark : mark.orient.isSome = true := by
          rcases h with h | h | h
          exacts [h, absurd h hy, absurd h hx]
        obtain ⟨o, ho⟩ := Option.isSome_iff_exists.1 hmark
        simp only [if_neg hx, if_neg hy, MarkDef.transpose, ho]
        rfl

theorem orient_transpose {e : Encoding} {mark : MarkDef} {tag : String} (h : AxisDecided e mark tag) :
    orient e.transpose mark.transpose tag = exceptTransposeBy Orient.flip (orient e mark tag) := by
  have hx : isContinuous e.transpose .x = isContinuous e .y := isContinuous_transpose e .y
  have hy : isContinuous e.transpose .y = isContinuous e .x := isContinuous_transpose e .x
  have hax : aggregate? e.transpose .x = aggregate? e .y := aggregate?_transpose e .y
  have hay : aggregate? e.transpose .y = aggregate? e .x := aggregate?_transpose e .x
  rw [orient, orient, hx, hy, hax, hay]
  cases hcx : isContinuous e .x with
  | true =>
    cases hcy : isContinuous e .y with
    | true =>
      refine chosenOrient_transpose ?_
      refine (h fun o => by cases o <;> assumption).imp_right ?_
      rintro ⟨o, htag, hother⟩
      cases o with
      | vertical => exact .inl ⟨hother, htag⟩
      | horizontal => exact .inr ⟨hother, htag⟩
    | false => exact forcedOrient_transpose .horizontal mark tag
  | false =>
    cases hcy : isContinuous e .y with
    | true => exact forcedOrient_transpose .vertical mark tag
    | false => rfl

end Composite

def Axis.transpose (a : Axis) : Axis := { a with orient := a.orient.flip }

theorem Axis.checkAggregate_transpose (aggregate : Option Aggregate) (tag : String)
    (policy : Composite.AggregatePolicy) :
    (checkAggregate aggregate tag policy).transposeBy id = checkAggregate aggregate tag policy := by
  cases aggregate with
  | none => rfl
  | some a =>
    simp only [checkAggregate]
    split
    · rfl
    · cases policy <;> rfl

theorem Axis.resolve_transpose (e : Encoding) (o : Orient) (tag : String) (policy : Composite.AggregatePolicy) :
    Axis.resolve e.transpose o.flip tag policy = (Axis.resolve e o tag policy).transposeBy Axis.transpose := by
  rw [Axis.resolve, Axis.resolve, Orient.continuous_flip, Orient.discrete_flip, Encoding.field?_transpose,
    Encoding.hasField_transpose]
  cases e.field? o.continuous with
  | none => rfl
  | some d =>
    cases hfield : d.field with
    | none => simp only [hfield]; rfl
    | some field =>
      simp only [hfield]
      conv_lhs => rw [← Axis.checkAggregate_transpose]
      exact Report.transposeBy_bind fun _ _ _ => rfl

namespace Composite

def transpose (p : Composite) : Composite :=
  { mark := p.mark.transpose, axis := p.axis.transpose, extraction := p.extraction.transpose }

theorem resolve_transpose {u : UnitSpec} (policy : AggregatePolicy)
    (h : AxisDecided (accepted u.encoding) u.mark.toDef u.mark.type) :
    resolve u.transpose policy = (resolve u policy).transposeBy transpose := by
  have hmark : u.transpose.mark.toDef = u.mark.toDef.transpose := u.mark.toDef_transpose
  have htype : u.mark.toDef.transpose.type = u.mark.type := type_toDef u.mark
  have hencoding : accepted u.transpose.encoding = (accepted u.encoding).transpose := accepted_transpose u.encoding
  have hwarnings : acceptedWarnings u.transpose.encoding u.mark.type =
      (acceptedWarnings u.encoding u.mark.type).map Warning.transpose := acceptedWarnings_transpose u.encoding _
  rw [resolve, resolve, type_toDef u.mark]
  simp only [hmark, htype, hencoding, hwarnings]
  rw [orient_transpose h, ← Report.transposeBy_noted id, Report.transposeBy_lift]
  refine Report.transposeBy_bind fun _ _ _ => Report.transposeBy_bind fun o _ _ => ?_
  rw [Axis.resolve_transpose]
  refine Report.transposeBy_bind fun a _ _ => ?_
  have hrest : (accepted u.encoding).transpose.without [a.transpose.channel] =
      ((accepted u.encoding).without [a.channel]).transpose := by
    rw [← Encoding.without_transpose, List.map_singleton, Axis.channel, Axis.channel, ← Orient.continuous_flip]
    rfl
  rw [hrest, Encoding.extract_transpose, Encoding.extractWarnings_transpose, Report.transposeBy_noted]
  rfl

end Composite

end ChartNormal
