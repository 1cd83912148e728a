import ChartNormal.Proofs.Composite.Recipe
import ChartNormal.Proofs.Reorder.Encoding

/-!
# Composite marks under another order of channels

Two runs agree (`Report.Agree`) when they fail alike, or return related values with the same warnings in some order. A
composite mark whose channels are declared in another order is resolved along the same axis, draws the same parts and
computes the same columns of its own. Only what is extracted from the other channels stands in another order
(`Recipe.expand_agree`).
-/

namespace ChartNormal

/-! ### Runs that agree -/

namespace Report

variable {α β γ δ : Type} {R : α → β → Prop} {S : γ → δ → Prop}

/-- Both fail alike, or both return: related values, and the same warnings in some order. -/
abbrev Agree (R : α → β → Prop) : Report α → Report β → Prop := Related List.Perm R

theorem Agree.of_eq {r r' : Report α} (h : r = r') : Agree (· = ·) r r' := by
  subst h
  cases r with
  | fail f => exact .fail f
  | noted a ws => exact .noted rfl (.refl ws)

theorem Agree.pure {a : α} {b : β} (h : R a b) : Agree R (pure a) (pure b) := .noted h (.refl [])

/-- One step after another. -/
theorem Agree.bind {r : Report α} {r' : Report β} {f : α → Report γ} {g : β → Report δ} (h : Agree R r r')
    (hnext : ∀ a b, R a b → Agree S (f a) (g b)) : Agree S (r >>= f) (r' >>= g) :=
  Related.bind List.Perm.append h hnext

/-- Warnings first, and then a step. -/
theorem Agree.warned {ws ws' : List Warning} {f : Report γ} {g : Report δ} (hws : ws.Perm ws') (h : Agree S f g) :
    Agree S (Report.noted () ws >>= fun _ => f) (Report.noted () ws' >>= fun _ => g) :=
  Agree.bind (R := fun _ _ => True) (.noted trivial hws) fun _ _ _ => h

theorem lift_bind (x : Except Failure α) (f : α → Except Failure β) :
    (liftM (x >>= f) : Report β) = liftM x >>= fun a => liftM (f a) := by
  cases x with
  | error e => rfl
  | ok a =>
    show (liftM (f a) : Report β) = Report.bind (.noted a []) fun a => liftM (f a)
    cases hf : f a with
    | error e => simp only [Report.noted, Report.bind, hf]; rfl
    | ok b => simp only [Report.noted, Report.bind, hf]; rfl

/-- Steps that note nothing, one for each member of a list. -/
theorem agree_mapM {l : List α} {l' : List β} {f : α → Except Failure γ} {g : β → Except Failure δ}
    (h : List.Forall₂ R l l') (hstep : ∀ a b, R a b → Agree S (liftM (f a)) (liftM (g b))) :
    Agree (List.Forall₂ S) (liftM (l.mapM f)) (liftM (l'.mapM g)) := by
  induction h with
  | nil => exact .pure .nil
  | @cons a b l l' hab _ ih =>
    rw [List.mapM_cons, List.mapM_cons, lift_bind, lift_bind]
    refine (hstep a b hab).bind fun c d hcd => ?_
    rw [lift_bind, lift_bind]
    exact ih.bind fun cs ds hrest => .pure (.cons hcd hrest)

end Report

/-! ### Units -/

/-- The same unit with the channels in some order. -/
structure UnitSpec.Reorders (u v : UnitSpec) : Prop where
  transform : u.transform = v.transform
  mark : u.mark = v.mark
  encoding : u.encoding.Reorders v.encoding
  outer : u.outer = v.outer

/-- The same tree with the channels of each unit in some order. -/
inductive Spec.Reorders : Spec → Spec → Prop
  | unit {u v : UnitSpec} (h : u.Reorders v) : Reorders (.unit u) (.unit v)
  | layer {transform : List Transform} {layers layers' : List Spec} {outer : Object}
      (h : List.Forall₂ Reorders layers layers') :
      Reorders (.layer transform layers outer) (.layer transform layers' outer)
  | facet {transform : List Transform} {mapping : FacetMapping} {child child' : Spec} {outer : Object}
      (h : Reorders child child') :
      Reorders (.facet transform mapping child outer) (.facet transform mapping child' outer)

namespace Composite

/-! ### The axis -/

section Axis

variable {e e' : Encoding} (h : e.Reorders e')

include h

theorem accepted_reorders : (accepted e).Reorders (accepted e') := h.restrict _

theorem acceptedWarnings_reorders (tag : String) : (acceptedWarnings e tag).Perm (acceptedWarnings e' tag) :=
  (h.keys.filter _).map _

theorem orient_reorders (mark : MarkDef) (tag : String) : orient e mark tag = orient e' mark tag := by
  simp only [orient, isContinuous, aggregate?, Encoding.field?_reorders h]

theorem axisResolve_reorders (o : Orient) (tag : String) (policy : AggregatePolicy) :
    Axis.resolve e o tag policy = Axis.resolve e' o tag policy := by
  simp only [Axis.resolve, Encoding.field?_reorders h, Encoding.hasField_reorders h]

end Axis

/-- The same mark and axis, and what is extracted in some order. -/
structure Reorders (p q : Composite) : Prop where
  mark : p.mark = q.mark
  axis : p.axis = q.axis
  extraction : p.extraction.Reorders q.extraction

theorem resolve_agree {u v : UnitSpec} (h : u.Reorders v) (policy : AggregatePolicy) :
    Report.Agree Reorders (resolve u policy) (resolve v policy) := by
  have haccepted := accepted_reorders h.encoding
  rw [resolve, resolve, h.mark]
  refine .warned (acceptedWarnings_reorders h.encoding _) ?_
  refine (Report.Agree.of_eq (congrArg _ (orient_reorders haccepted _ _))).bind fun o _ ho => ?_
  subst ho
  refine (Report.Agree.of_eq (axisResolve_reorders haccepted _ _ _)).bind fun a _ ha => ?_
  subst ha
  have hrest := haccepted.restrict (· ∉ [a.channel])
  exact .noted ⟨rfl, rfl, Encoding.extract_reorders hrest⟩ (Encoding.extractWarnings_reorders hrest _)

/-! ### The parts -/

section Parts

variable {p q : Composite} (h : p.Reorders q) (config : Config)

include h

theorem tag_reorders : p.tag = q.tag := by rw [tag, tag, h.mark]

theorem isDrawn_reorders (part : String) : p.isDrawn config part = q.isDrawn config part := by
  rw [isDrawn, isDrawn, tag_reorders h, h.mark]

theorem partMark_reorders (part : String) (base : MarkDef) : p.partMark config part base = q.partMark config part base := by
  rw [partMark, partMark, partProps_eq, partProps_eq, tag_reorders h, h.mark]

/-- The same drawing, with the channels it shares in some order. -/
structure Drawing.Reorders (d d' : Drawing) : Prop where
  part : d.part = d'.part
  base : d.base = d'.base
  start : d.start = d'.start
  stop : d.stop = d'.stop
  shared : d.shared.Reorders d'.shared

theorem partEncoding_reorders (start : String) (stop : Option String) {e e' : Encoding} (he : e.Reorders e') :
    (p.partEncoding start stop e).Reorders (q.partEncoding start stop e') := by
  unfold partEncoding
  rw [h.axis]
  exact OrderedMap.Reorders.extend (.refl _) he

theorem Drawing.unit_agree {d d' : Drawing} (hd : d.Reorders d') :
    Report.Agree UnitSpec.Reorders (liftM (d.unit p config)) (liftM (d'.unit q config)) := by
  rw [Drawing.unit, Drawing.unit, hd.part, hd.base, hd.start, hd.stop, partUnit, partUnit,
    partMark_reorders h config d'.part d'.base, Report.lift_bind, Report.lift_bind]
  refine (Report.Agree.of_eq rfl).bind fun mark _ hmark => ?_
  subst hmark
  have hencoding := partEncoding_reorders h d'.start d'.stop hd.shared
  refine .pure ⟨rfl, rfl, ?_, rfl⟩
  cases Primitive.ofName? mark.type with
  | none => exact hencoding
  | some m => exact hencoding.restrict _

theorem filter_drawn_reorders {ds ds' : List Drawing} (hds : List.Forall₂ Drawing.Reorders ds ds') :
    List.Forall₂ Drawing.Reorders (ds.filter (p.isDrawn config ·.part)) (ds'.filter (q.isDrawn config ·.part)) := by
  induction hds with
  | nil => exact .nil
  | @cons d d' _ _ hd _ ih =>
    rw [List.filter_cons, List.filter_cons, isDrawn_reorders h config, hd.part]
    split
    · exact .cons hd ih
    · exact ih

end Parts

/-! ### The layer -/

/-- Pipelines over the same stages, with the same columns and expressions of the mark itself. What is extracted from the
channels stands in some order: bins, time units, aggregated columns and keys. -/
inductive PipelinesAlike (before : List Transform) : List Transform → List Transform → Prop
  | intro {p q : Composite} (h : p.extraction.Reorders q.extraction) (columns : List AggregateColumn)
      (calculates : List CalculateStage) :
      PipelinesAlike before (p.pipeline before columns calculates) (q.pipeline before columns calculates)

/-- Two layers that a unit is expanded to. -/
structure LayersAlike (u : UnitSpec) (l l' : LayerSpec) : Prop where
  transform : PipelinesAlike u.transform l.transform l'.transform
  layers : ∃ units units', l.layers = units.map .unit ∧ l'.layers = units'.map .unit ∧
    List.Forall₂ UnitSpec.Reorders units units'
  outer : l.outer = u.outer ∧ l'.outer = u.outer

theorem layer_agree {p q : Composite} (h : p.Reorders q) (config : Config) {u v : UnitSpec} (huv : u.Reorders v)
    {ds ds' : List Drawing} (hds : List.Forall₂ Drawing.Reorders ds ds') (columns : List AggregateColumn)
    (calculates : List CalculateStage) :
    Report.Agree (LayersAlike u) (liftM (p.layer config u ds columns calculates))
      (liftM (q.layer config v ds' columns calculates)) := by
  have hunits := Report.agree_mapM (filter_drawn_reorders h config hds) fun d d' => Drawing.unit_agree h config
  change Report.Agree _ (liftM (List.mapM (Drawing.unit p config) _ >>= _))
    (liftM (List.mapM (Drawing.unit q config) _ >>= _))
  rw [Report.lift_bind, Report.lift_bind]
  refine hunits.bind fun units units' hunits => .pure ?_
  refine ⟨?_, ⟨units, units', rfl, rfl, hunits⟩, rfl, huv.outer.symm⟩
  rw [← huv.transform]
  exact .intro h.extraction columns calculates

section Recipes

variable {p q : Composite} (h : p.Reorders q) (config : Config) {r : Recipe} (hr : r ∈ Recipe.all)

include h

theorem shared_reorders : p.shared.Reorders q.shared := h.extraction.encoding

theorem boxSize_reorders : BoxPlot.size p.shared config = BoxPlot.size q.shared config := by
  rw [BoxPlot.size, BoxPlot.size, (shared_reorders h).get?]

theorem boxEncoding_reorders : (BoxPlot.boxEncoding p.shared config).Reorders (BoxPlot.boxEncoding q.shared config) := by
  have hshared := shared_reorders h
  rw [BoxPlot.boxEncoding, BoxPlot.boxEncoding, boxSize_reorders h]
  refine OrderedMap.Reorders.insert ?_ _ _
  cases config.box.color with
  | none => exact hshared
  | some color =>
    simp only [hshared.contains]
    split
    · exact hshared
    · exact hshared.insert _ _

theorem midEncoding_reorders : (BoxPlot.midEncoding p.shared config).Reorders (BoxPlot.midEncoding q.shared config) := by
  rw [BoxPlot.midEncoding, BoxPlot.midEncoding, boxSize_reorders h]
  exact ((((shared_reorders h).restrict _).insert _ _).insert _ _)

include hr

theorem Recipe.drawings_reorders :
    List.Forall₂ Drawing.Reorders (r.drawings p config) (r.drawings q config) := by
  have hshared := shared_reorders h
  have hsame {e e' : Encoding} (he : e.Reorders e') {part : String} {base : MarkDef} {start : String}
      {stop : Option String} : Drawing.Reorders ⟨part, base, start, stop, e⟩ ⟨part, base, start, stop, e'⟩ :=
    ⟨rfl, rfl, rfl, rfl, he⟩
  rcases Recipe.mem_all_iff.1 hr with rfl | rfl | rfl
  · have hplain := hshared.restrict (· ∉ [Channel.color, .size])
    simp only [Recipe.boxPlot, BoxPlot.drawings, h.axis]
    exact .cons (hsame hplain) (.cons (hsame hplain) (.cons (hsame (boxEncoding_reorders h config))
      (.cons (hsame (midEncoding_reorders h config)) .nil)))
  · simp only [Recipe.errorBar, ErrorBar.drawings, h.axis]
    exact .cons (hsame hshared) (.cons (hsame hshared) (.cons (hsame hshared) (.cons (hsame hshared)
      (.cons (hsame hshared) (.cons (hsame hshared) .nil)))))
  · simp only [Recipe.errorBand, ErrorBand.drawings, ErrorBand.base, h.axis, h.mark]
    exact .cons (hsame hshared) (.cons (hsame hshared) (.cons (hsame hshared) .nil))

theorem Recipe.warnings_reorders : r.warnings p config = r.warnings q config := by
  rcases Recipe.mem_all_iff.1 hr with rfl | rfl | rfl
  · simp only [Recipe.boxPlot, h.mark]
  · simp only [Recipe.errorBar, h.mark]
  · simp only [Recipe.errorBand, ErrorBand.interpolationWarnings, h.mark, h.axis]

theorem Recipe.columns_reorders : r.columns p config = r.columns q config := by
  rcases Recipe.mem_all_iff.1 hr with rfl | rfl | rfl
  · simp only [Recipe.boxPlot, h.mark, h.axis]
  · simp only [Recipe.errorBar, Recipe.barInterval, ErrorBar.drawsCenter, isDrawn_reorders h, h.mark, h.axis]
  · simp only [Recipe.errorBand, Recipe.bandInterval, h.mark, h.axis]

theorem Recipe.calculates_reorders : r.calculates p config = r.calculates q config := by
  rcases Recipe.mem_all_iff.1 hr with rfl | rfl | rfl
  · simp only [Recipe.boxPlot, h.mark, h.axis]
  · simp only [Recipe.errorBar, Recipe.barInterval, h.mark, h.axis]
  · simp only [Recipe.errorBand, Recipe.bandInterval, h.mark, h.axis]

end Recipes

theorem Recipe.expand_agree {r : Recipe} (hr : r ∈ Recipe.all) {u v : UnitSpec} (h : u.Reorders v) (config : Config) :
    Report.Agree (LayersAlike u) (r.expand u config) (r.expand v config) := by
  rw [Recipe.expand, Recipe.expand]
  refine (resolve_agree h r.policy).bind fun p q hpq => ?_
  rw [warnings_reorders hpq config hr, columns_reorders hpq config hr, calculates_reorders hpq config hr]
  exact .warned (.refl _) (layer_agree hpq config h (drawings_reorders hpq config hr) _ _)

end Composite

end ChartNormal
