import ChartNormal.Proofs.Readback.Tree

/-!
# Round trips

Equality of specifications looks values up by their keys, and so holds of a specification and itself only where no key
repeats. All that reading makes is of this kind, since it settles free-form values (`same_self` of each type). A
specification that was read therefore comes back from what it is written as, and is equal to itself
(`Spec.reads_back_of_read`).
-/

namespace ChartNormal

/-! ### Equality with itself -/

theorem Double.same_self (x : Double) : x.same x = true := by simp [same]

theorem sameOption_self {α : Type} {eq : α → α → Bool} {x : Option α} (h : ∀ a ∈ x, eq a a = true) :
    sameOption eq x x = true := by
  cases x with
  | none => rfl
  | some a => exact h a rfl

theorem sameList_self {α : Type} {eq : α → α → Bool} {l : List α} (h : ∀ a ∈ l, eq a a = true) :
    sameList eq l l = true := by
  rw [sameList, Bool.and_eq_true, List.all_eq_true]
  refine ⟨decide_eq_true rfl, fun p hp => ?_⟩
  obtain ⟨i, hi, rfl⟩ := List.mem_iff_getElem.1 hp
  simp [h]

theorem OrderedMap.same_self {κ α : Type} [DecidableEq κ] {eq : α → α → Bool} {m : OrderedMap κ α}
    (h : ∀ e ∈ m.entries, eq e.2 e.2 = true) : m.same eq m = true := by
  rw [OrderedMap.same, Bool.and_eq_true, List.all_eq_true]
  refine ⟨decide_eq_true rfl, fun e he => ?_⟩
  rw [get?_eq_some_iff.2 he]
  exact h e he

namespace Json

theorem sameItems_iff {a b : List Json} : sameItems a b = true ↔ List.Forall₂ (fun v w => v.same w = true) a b := by
  induction a generalizing b with
  | nil => cases b <;> simp [sameItems]
  | cons v a ih => cases b <;> simp [sameItems, ih]

theorem sameMembers_iff {a b : Members} :
    sameMembers a b = true ↔ ∀ e ∈ a, ∃ w, b.lookup e.1 = some w ∧ e.2.same w = true := by
  induction a with
  | nil => simp [sameMembers]
  | cons e a ih =>
    rw [sameMembers, Bool.and_eq_true, ih, List.forall_mem_cons]
    refine and_congr_left fun _ => ?_
    cases b.lookup e.1 <;> simp

theorem same_self {j : Json} (h : j.distinctKeys = true) : j.same j = true := by
  induction j using Json.ind with
  | null => rfl
  | bool b => simp [same]
  | num n =>
    cases n with
    | int n => simp [same]
    | float x => exact x.same_self
  | str s => simp [same]
  | arr items ih =>
    exact sameItems_iff.2 (List.forall₂_same.2 fun j hj => ih j hj (distinctKeys_arr_iff.1 h j hj))
  | obj members ih =>
    obtain ⟨hkeys, hvalues⟩ := distinctKeys_obj_iff.1 h
    have hmembers : sameMembers members members = true :=
      sameMembers_iff.2 fun e he => ⟨e.2, (OrderedMap.lookup_eq_some_iff hkeys).2 he, ih e he (hvalues e he)⟩
    rw [same, hmembers, decide_eq_true rfl]
    rfl

end Json

theorem Object.Free.same_self {o : Object} {names : List String} (h : Object.Free o names) : Object.same o o = true :=
  OrderedMap.same_self fun e he => Json.same_self (h e he).2

theorem Extent.same_self (e : Extent) : e.same e = true := by
  cases e with
  | scalar k => exact k.same_self
  | named n => simp [same]

theorem Mark.Legible.same_self {m : Mark} (h : m.Legible) : m.same m = true := by
  cases m with
  | tag name => simp [Mark.same]
  | defined d =>
    have hextent : sameOption Extent.same d.extent d.extent = true := sameOption_self fun e _ => e.same_self
    have hopacity : sameOption Double.same d.opacity d.opacity = true := sameOption_self fun x _ => x.same_self
    have htension : sameOption Double.same d.tension d.tension = true := sameOption_self fun x _ => x.same_self
    have hprops : Object.same d.props d.props = true := Object.Free.same_self h
    simp [Mark.same, MarkDef.same, hextent, hopacity, htension, hprops]

theorem Json.free_of_object? {j : Json} {o : Object} (h : j.object? = some o) : Object.Free o [] := by
  cases j with
  | obj members =>
    obtain rfl := Option.some.inj h
    exact Members.free_others members []
  | _ => cases h

theorem Bin.same_self {j : Json} {b : Bin} (h : ofJson? j = some b) : b.same b = true := by
  cases b with
  | flag on => simp [same]
  | binned => rfl
  | params p =>
    rcases Option.or_eq_some_iff.1 h with hflag | ⟨-, h⟩
    · obtain ⟨on, -, hon⟩ := Option.map_eq_some_iff.1 hflag
      cases hon
    rcases Option.or_eq_some_iff.1 h with hname | ⟨-, hparams⟩
    · obtain ⟨s, hs⟩ := Json.of_name? hname
      split at hs <;> cases hs
    · obtain ⟨p', hp, hp'⟩ := Option.map_eq_some_iff.1 hparams
      obtain rfl := params.inj hp'
      exact (Json.free_of_object? hp).same_self

theorem FieldDef.Legible.same_self {d : FieldDef} (h : d.Legible) : d.same d = true := by
  have hvalue {x : Option Json} (hx : ∀ j ∈ x, IsValue j) : sameOption Json.same x x = true :=
    sameOption_self fun j hj => Json.same_self (hx j hj).1
  have hbin : sameOption Bin.same d.bin d.bin = true := sameOption_self fun b hb => Bin.same_self (h.bin b hb)
  simp [FieldDef.same, hbin, hvalue h.scale, hvalue h.axis, hvalue h.legend, hvalue h.sort, h.props.same_self]

theorem ChannelDef.Legible.same_self {c : ChannelDef} (h : c.Legible) : c.same c = true := by
  cases c with
  | fields defs => exact sameList_self fun d hd => (h d hd).same_self
  | field d => exact FieldDef.Legible.same_self h
  | value v => exact Json.same_self h

namespace Transform

theorem same_self_of_ofJson? {j : Json} {t : Transform} (h : ofJson? j = some t) : t.same t = true := by
  rcases Option.or_eq_some_iff.1 h with hbin | ⟨-, h⟩
  · obtain ⟨s, hs, rfl⟩ := Option.map_eq_some_iff.1 hbin
    obtain ⟨members, -, hs⟩ := Option.bind_eq_some_iff.1 hs
    obtain ⟨b, hb, hs⟩ := Option.bind_eq_some_iff.1 hs
    obtain ⟨field, -, hs⟩ := Option.bind_eq_some_iff.1 hs
    obtain ⟨as, -, hs⟩ := Option.bind_eq_some_iff.1 hs
    obtain rfl := Option.some.inj hs
    obtain ⟨j', -, hread⟩ := Members.of_required? hb
    simp [same, Bin.same_self hread]
  rcases Option.or_eq_some_iff.1 h with htimeUnit | ⟨-, h⟩
  · obtain ⟨s, -, rfl⟩ := Option.map_eq_some_iff.1 htimeUnit
    simp [same]
  rcases Option.or_eq_some_iff.1 h with haggregate | ⟨-, h⟩
  · simp only [aggregate?, Option.bind_eq_bind, Option.bind_eq_some_iff, Option.some.injEq] at haggregate
    obtain ⟨_, -, columns, -, groupby, -, rfl⟩ := haggregate
    simp [same]
  rcases Option.or_eq_some_iff.1 h with hcalculate | ⟨-, h⟩
  · obtain ⟨s, -, rfl⟩ := Option.map_eq_some_iff.1 hcalculate
    simp [same]
  rcases Option.or_eq_some_iff.1 h with hstack | ⟨-, h⟩
  · simp only [stack?, Option.bind_eq_bind, Option.bind_eq_some_iff, Option.some.injEq] at hstack
    obtain ⟨_, -, groupby, -, field, -, sortby, -, ⟨start, stop⟩, -, offset, -, rfl⟩ := hstack
    simp [same]
  rcases Option.or_eq_some_iff.1 h with himpute | ⟨-, hother⟩
  · simp only [impute?, Option.bind_eq_bind, Option.bind_eq_some_iff, Option.some.injEq] at himpute
    obtain ⟨members, -, field, -, key, -, groupby, -, value, hvalue, rfl⟩ := himpute
    have hsame : sameOption Json.same value value = true :=
      sameOption_self fun j hj => Json.same_self (FieldDef.isValue_of_any? hvalue j hj).1
    simp [same, hsame]
  · obtain ⟨o, ho, rfl⟩ := Option.map_eq_some_iff.1 hother
    exact (Json.free_of_object? ho).same_self

end Transform

theorem sameList_transforms_self {ts : List Transform} (h : ∀ t ∈ ts, t.Legible) :
    sameList Transform.same ts ts = true :=
  sameList_self fun t ht => Transform.same_self_of_ofJson? (h t ht)

theorem UnitSpec.Legible.same_self {u : UnitSpec} (h : u.Legible) : u.same u = true := by
  have hencoding : OrderedMap.same ChannelDef.same u.encoding u.encoding = true :=
    OrderedMap.same_self fun b hb => (h.encoding b hb).same_self
  simp [UnitSpec.same, sameList_transforms_self h.transform, h.mark.same_self, hencoding, h.outer.same_self]

theorem FacetMapping.Legible.same_self {m : FacetMapping} (h : m.Legible) : m.same m = true := by
  have hrow : sameOption FieldDef.same m.row m.row = true := sameOption_self fun d hd => (h.1 d hd).same_self
  have hcolumn : sameOption FieldDef.same m.column m.column = true := sameOption_self fun d hd => (h.2 d hd).same_self
  simp [FacetMapping.same, hrow, hcolumn]

namespace Spec

theorem sameAll_self {layers : List Spec} (h : ∀ s ∈ layers, s.same s = true) : sameAll layers layers = true := by
  induction layers with
  | nil => rfl
  | cons s rest ih =>
    rw [sameAll, h s List.mem_cons_self, ih fun s hs => h s (List.mem_cons_of_mem _ hs)]
    rfl

theorem same_self {s : Spec} {scope : Scope} (h : ∀ node ∈ s.nodes scope, node.2.Sound) : s.same s = true := by
  induction s generalizing scope with
  | unit u =>
    cases h (scope, .unit u) (by simp) with
    | unit hu => exact hu.same_self
  | layer transform layers outer ih =>
    simp only [nodes_layer, List.forall_mem_cons, List.mem_flatMap] at h
    have hlayers : sameAll layers layers = true :=
      sameAll_self fun s hs => ih s hs fun node hnode => h.2 node ⟨s, hs, hnode⟩
    cases h.1 with
    | layer htransform houter _ _ =>
      simp [same, sameList_transforms_self htransform, hlayers, houter.same_self]
  | facet transform mapping child outer ih =>
    simp only [nodes_facet, List.forall_mem_cons] at h
    cases h.1 with
    | facet htransform hmapping houter _ =>
      simp [same, sameList_transforms_self htransform, hmapping.same_self, ih h.2, houter.same_self]

/-- **Round trip.** What a value without repeated keys reads as is written as a value that reads as the same specification
again, node for node and in the same order, and it is equal to itself. -/
theorem reads_back_of_read {v : Json} (hv : v.distinctKeys = true) {s : Spec} (h : ofJson? v = some s) :
    ofJson? s.toJson = some s ∧ s.same s = true := by
  have hsound : ∀ node ∈ s.nodes .top, node.2.Sound ∧ ¬ node.2.Clashes := sound_of_ofJson? hv h
  exact ⟨ofJson?_toJson hsound, same_self fun node hnode => (hsound node hnode).1⟩

/-- A facet of layers with stages given as arrays, names given as keys over null, integers where a number may have a
fraction, members that are dropped, and a property with the name of a field of another kind of node. -/
theorem reads_back_of_read_facet :
    let stages : Json := .arr
      [.arr [.obj [("maxbins", .num (.int 5))], .str "a", .str "bin_a"],
        .obj [("timeUnit", .str "year"), ("field", .str "d"), ("as", .str "year_d"), ("note", .null)],
        .obj [("impute", .str "a"), ("key", .str "d"), ("groupby", .arr []), ("value", .num (.int 0))],
        .obj [("filter", .str "datum.a > 0")]]
    let encoding : Json := .obj
      [("x", .obj [("type", .obj [("ordinal", .null)]), ("field", .str "year_d"), ("aggregate", .str "boxplot")]),
        ("detail", .arr [.obj [("type", .str "nominal"), ("bin", .obj [("binned", .null)])]]),
        ("color", .obj [("value", .str "red"), ("condition", .str "dropped")])]
    let v : Json := .obj
      [("facet", .arr [.obj [("type", .str "nominal"), ("field", .str "site"), ("scale", .null)]]),
        ("transform", stages),
        ("spec", .obj
          [("layer", .arr
            [.obj
              [("mark", .obj [("type", .str "boxplot"), ("extent", .num (.int 2)), ("opacity", .num (.int 1))]),
                ("encoding", encoding), ("layer", .num (.int 1))]])])]
    ∃ s, v.distinctKeys = true ∧ ofJson? v = some s ∧ ofJson? s.toJson = some s ∧ s.same s = true := by
  intro stages encoding v
  have hread : (ofJson? v).isSome = true := rfl
  have hkeys : v.distinctKeys = true := rfl
  obtain ⟨s, hs⟩ := Option.isSome_iff_exists.1 hread
  exact ⟨s, hkeys, hs, reads_back_of_read hkeys hs⟩

end Spec

end ChartNormal
