import ChartNormal.Proofs.FixedPoint

/-!
# Three passes

A second pass may only rename the far end of a range whose near end is missing, in its place (`Spec.RenamesEnds`). That
leaves no such end, so a third pass changes nothing.
-/

namespace ChartNormal

namespace Encoding

/-- The far end of a range gets the name of the near end if that is missing in `e`; any other channel keeps its name. -/
inductive RenamesEnd (e : Encoding) : Channel → Channel → Prop
  | kept {c : Channel} (h : ∀ near, Channel.secondary? near = some c → e.contains near = true) : RenamesEnd e c c
  | renamed {near far : Channel} (h : Channel.secondary? near = some far) (hmissing : e.contains near = false) :
      RenamesEnd e far near

variable {e : Encoding}

theorem renamesEnd_promoted (c : Channel) : e.RenamesEnd c (e.promoted c) := by
  rcases promoted_cases e c with ⟨hc, hall⟩ | ⟨near, hnear, hmissing, hc⟩
  · rw [hc]
    exact .kept hall
  · rw [hc]
    exact .renamed hnear hmissing

/-- A near end that was missing is there, or the far end was missing too. -/
theorem not_hasOrphan_promoteSecondary : ¬ e.promoteSecondary.HasOrphan := by
  rintro ⟨c, c₂, h, hc₂, hc⟩
  rw [OrderedMap.contains, get?_promoteSecondary_secondary h] at hc₂
  rw [OrderedMap.contains, get?_promoteSecondary_primary h] at hc
  cases hd : e.get? c with
  | some d => simp [hd] at hc
  | none => simp [OrderedMap.contains, hd] at hc₂

end Encoding

/-- The bindings of `v` are those of `u` in their order, with range ends renamed; nothing else differs. -/
structure UnitSpec.RenamesEnds (u v : UnitSpec) : Prop where
  transform : v.transform = u.transform
  mark : v.mark = u.mark
  bindings : List.Forall₂ (fun b b' => u.encoding.RenamesEnd b.1 b'.1 ∧ b'.2 = b.2)
    u.encoding.entries v.encoding.entries
  outer : v.outer = u.outer

theorem UnitSpec.renamesEnds_promoted (u : UnitSpec) : u.RenamesEnds u.promoted := by
  refine ⟨rfl, rfl, ?_, rfl⟩
  rw [promoted, Encoding.entries_promoteSecondary, List.forall₂_map_right_iff, List.forall₂_same]
  exact fun b _ => ⟨Encoding.renamesEnd_promoted b.1, rfl⟩

namespace Spec

/-- Two trees that differ in the names of range ends at most. -/
inductive RenamesEnds : Spec → Spec → Prop
  | unit {u v : UnitSpec} (h : u.RenamesEnds v) : RenamesEnds (.unit u) (.unit v)
  | layer {transform : List Transform} {layers layers' : List Spec} {outer : Object}
      (h : List.Forall₂ RenamesEnds layers layers') :
      RenamesEnds (.layer transform layers outer) (.layer transform layers' outer)
  | facet {transform : List Transform} {mapping : FacetMapping} {child child' : Spec} {outer : Object}
      (h : RenamesEnds child child') :
      RenamesEnds (.facet transform mapping child outer) (.facet transform mapping child' outer)

theorem renamesEnds_promoted (s : Spec) : s.RenamesEnds s.promoted := by
  induction s with
  | unit u => exact .unit u.renamesEnds_promoted
  | layer transform layers outer ih =>
    rw [promoted_layer]
    refine .layer ?_
    rw [List.forall₂_map_right_iff, List.forall₂_same]
    exact ih
  | facet transform mapping child outer ih => exact .facet ih

theorem leaves_promoted (s : Spec) : s.promoted.leaves = s.leaves.map UnitSpec.promoted := by
  induction s with
  | unit u => rfl
  | layer transform layers outer ih =>
    rw [promoted_layer, leaves_layer, leaves_layer, List.flatMap_map, List.map_flatMap]
    exact List.flatMap_congr ih
  | facet transform mapping child outer ih => exact ih

theorem promoted_promoted (s : Spec) : s.promoted.promoted = s.promoted := by
  rw [promoted_eq_self_iff, leaves_promoted]
  intro u hu
  obtain ⟨v, -, rfl⟩ := List.mem_map.1 hu
  exact Encoding.not_hasOrphan_promoteSecondary

end Spec

namespace Normalizer

variable {config : Config} {s t : Spec} {ws : List Warning}

/-- **Three passes.** The second pass succeeds without a warning and renames range ends at most, and the third returns what
the second returned. -/
theorem normalize_third_pass (h : (standard config).normalize s = .noted t ws) :
    ∃ t', (standard config).normalize t = .noted t' [] ∧ t.RenamesEnds t' ∧
      (standard config).normalize t' = .noted t' [] := by
  have hsecond := normalize_of_normal h
  have hthird := normalize_of_normal hsecond
  rw [t.promoted_promoted] at hthird
  exact ⟨t.promoted, hsecond, t.renamesEnds_promoted, hthird⟩

/-- A rule whose near end is dropped by the first pass, and whose far end is renamed by the second. -/
theorem normalize_third_pass_rule :
    let rule (bindings : List (Channel × ChannelDef)) : Spec :=
      .unit { mark := .tag "rule", encoding := .ofList bindings }
    let a : ChannelDef := .field { field := some "a", type := .quantitative }
    (standard .defaults).normalize (rule [(.x, .field { type := .quantitative }), (.x2, a)]) =
        .noted (rule [(.x2, a)]) [.emptyField .x] ∧
      ∃ t', (standard .defaults).normalize (rule [(.x2, a)]) = .noted t' [] ∧ (rule [(.x2, a)]).RenamesEnds t' ∧
        t' ≠ rule [(.x2, a)] ∧ (standard .defaults).normalize t' = .noted t' [] := by
  intro rule a
  have hfirst : (standard .defaults).normalize (rule [(.x, .field { type := .quantitative }), (.x2, a)]) =
      .noted (rule [(.x2, a)]) [.emptyField .x] := rfl
  obtain ⟨t', hsecond, hrenames, hthird⟩ := normalize_third_pass hfirst
  refine ⟨hfirst, t', hsecond, hrenames, ?_, hthird⟩
  have hrenamed : (standard .defaults).normalize (rule [(.x2, a)]) = .noted (rule [(.x, a)]) [] := rfl
  obtain ⟨rfl, -⟩ := Report.noted_inj.1 (hsecond.symm.trans hrenamed)
  intro h
  exact absurd (congrArg (fun s => s.leaves.map (·.encoding.contains .x)) h) (by decide)

end Normalizer

end ChartNormal
