import ChartNormal.Spec.Json
import ChartNormal.Proofs.Readback.Mark
import ChartNormal.Proofs.Readback.Transform

/-!
# Nodes and how they are read

The kind of a node is not written: it is read from the fields that are there, a facet before a layer before a unit. The
free-form properties of a unit have neither what a facet nor what a layer is read from (`Object.OfUnit`), but they may well
have one of the names, and clash when the unit becomes a node of that kind (`Spec.Clashes`). A node is sound when its
fields read back and no earlier kind is read in its place (`Spec.Sound`).
-/

namespace ChartNormal

/-! ### Fields of nodes -/

namespace FacetMapping

def Legible (m : FacetMapping) : Prop := (∀ d ∈ m.row, d.Legible) ∧ ∀ d ∈ m.column, d.Legible

theorem ofJson?_toJson {m : FacetMapping} (h : m.Legible) : ofJson? m.toJson = some m := by
  obtain ⟨members, hmembers⟩ : ∃ members : Members, m.toJson = .obj members := ⟨_, rfl⟩
  have hw : members.Written _ ∅ :=
    ⟨(Json.obj.inj hmembers).symm, (by decide : fieldNames.Nodup), Object.free_empty _⟩
  have hrow : members.optional? "row" FieldDef.ofJson? = some m.row :=
    hw.optional? FieldDef.toJson (by simp) (fun d hd => FieldDef.ofJson?_toJson (h.1 d hd)) (by simp [FieldDef.toJson])
  have hcolumn : members.optional? "column" FieldDef.ofJson? = some m.column :=
    hw.optional? FieldDef.toJson (by simp) (fun d hd => FieldDef.ofJson?_toJson (h.2 d hd)) (by simp [FieldDef.toJson])
  rw [hmembers, ofJson?]
  simp only [Json.fields?, Option.bind_eq_bind, Option.bind_some, hrow, hcolumn]

theorem legible_of_ofJson? {j : Json} (hj : j.distinctKeys = true) {m : FacetMapping} (h : ofJson? j = some m) :
    m.Legible := by
  simp only [ofJson?, Option.bind_eq_bind, Option.bind_eq_some_iff, Option.some.injEq] at h
  obtain ⟨members, hmembers, row, hrow, column, hcolumn, rfl⟩ := h
  constructor
  · intro d hd
    obtain ⟨j', hmem, -, hread⟩ := Members.of_optional? hrow d hd
    exact FieldDef.legible_of_ofJson? (Json.distinctKeys_of_fields? hj hmembers hmem) hread
  · intro d hd
    obtain ⟨j', hmem, -, hread⟩ := Members.of_optional? hcolumn d hd
    exact FieldDef.legible_of_ofJson? (Json.distinctKeys_of_fields? hj hmembers hmem) hread

end FacetMapping

namespace Members

variable {members : Members} {fields : List (String × Option Json)} {rest : Object}

theorem Written.transforms? (hw : members.Written fields rest) {ts : List Transform}
    (hmem : transformsField ts ∈ fields) (h : ∀ t ∈ ts, t.Legible) : members.transforms? = some ts := by
  have hfield := hw.field? hmem
  cases ts with
  | nil => exact default?_of_missing hfield []
  | cons t ts => exact (default?_of_field? hfield []).trans (Json.list?_map Transform.toJson h)

theorem legible_of_transforms? (h : (Json.obj members).distinctKeys = true) {ts : List Transform}
    (hts : members.transforms? = some ts) : ∀ t ∈ ts, t.Legible := by
  intro t ht
  rcases of_default? hts with rfl | ⟨j, hmem, hread⟩
  · cases ht
  · obtain ⟨j', hj', hread⟩ := Json.of_list? ((Json.distinctKeys_obj_iff.1 h).2 _ hmem) hread t ht
    exact Transform.legible_of_ofJson? hj' hread

end Members

/-! ### What a node is read as -/

theorem Spec.ofJsons?_eq (items : List Json) : ofJsons? items = items.mapM ofJson? := by
  induction items with
  | nil => rfl
  | cons j rest ih => rw [ofJsons?, ih, List.mapM_cons]; rfl

theorem Spec.childrenOf_eq (members : Members) :
    childrenOf members = (members.filter (·.1 = "spec")).map fun e => ofJson? e.2 := by
  induction members with
  | nil => rfl
  | cons e rest ih =>
    rw [childrenOf, ih, List.filter_cons]
    by_cases h : e.1 = "spec" <;> simp [h]

theorem Spec.listsOf_eq (members : Members) :
    listsOf members = (members.filter (·.1 = "layer")).map fun e => Json.list? ofJson? e.2 := by
  induction members with
  | nil => rfl
  | cons e rest ih =>
    obtain ⟨k, j⟩ := e
    have hlist : listsOf ((k, j) :: rest) =
        if k = "layer" then Json.list? ofJson? j :: listsOf rest else listsOf rest := by
      cases j with
      | arr items => rw [listsOf, ofJsons?_eq]; rfl
      | _ => rfl
    rw [hlist, ih, List.filter_cons]
    by_cases h : k = "layer" <;> simp [h]

theorem FacetSpec.ofMembers?_eq_some_iff {members : Members} {children : List (Option Spec)} {f : FacetSpec} :
    ofMembers? members children = some f ↔
      members.transforms? = some f.transform ∧ members.required? "facet" FacetMapping.ofJson? = some f.mapping ∧
        children = [some f.child] ∧ members.others ["transform", "facet", "spec"] = f.outer := by
  simp only [ofMembers?, Option.bind_eq_bind, Option.bind_eq_some_iff]
  constructor
  · rintro ⟨transform, ht, mapping, hm, h⟩
    split at h
    · obtain rfl := Option.some.inj h
      exact ⟨ht, hm, rfl, rfl⟩
    · cases h
  · rintro ⟨ht, hm, rfl, ho⟩
    exact ⟨_, ht, _, hm, by rw [ho]⟩

theorem LayerSpec.ofMembers?_eq_some_iff {members : Members} {lists : List (Option (List Spec))} {l : LayerSpec} :
    ofMembers? members lists = some l ↔
      members.transforms? = some l.transform ∧ lists = [some l.layers] ∧
        members.others ["transform", "layer"] = l.outer := by
  simp only [ofMembers?, Option.bind_eq_bind, Option.bind_eq_some_iff]
  constructor
  · rintro ⟨transform, ht, h⟩
    split at h
    · obtain rfl := Option.some.inj h
      exact ⟨ht, rfl, rfl⟩
    · cases h
  · rintro ⟨ht, rfl, ho⟩
    exact ⟨_, ht, by rw [ho]⟩

theorem UnitSpec.ofJson?_eq_some_iff {members : Members} {u : UnitSpec} :
    ofJson? (.obj members) = some u ↔
      members.transforms? = some u.transform ∧ members.required? "mark" Mark.ofJson? = some u.mark ∧
        members.default? "encoding" ∅ Encoding.ofJson? = some u.encoding ∧
        members.others ["transform", "mark", "encoding"] = u.outer := by
  simp only [ofJson?, Json.members?, Option.bind_eq_bind, Option.bind_some, Option.bind_eq_some_iff, Option.some.injEq]
  constructor
  · rintro ⟨transform, ht, mark, hm, encoding, he, rfl⟩
    exact ⟨ht, hm, he, rfl⟩
  · rintro ⟨ht, hm, he, ho⟩
    exact ⟨_, ht, _, hm, _, he, by rw [ho]⟩

/-- The three ways to read a node. -/
theorem Spec.ofJson?_obj (members : Members) :
    ofJson? (.obj members) =
      ((FacetSpec.ofMembers? members (childrenOf members)).map FacetSpec.toSpec).or
        (((LayerSpec.ofMembers? members (listsOf members)).map LayerSpec.toSpec).or
          ((UnitSpec.ofJson? (.obj members)).map unit)) := by
  rw [ofJson?]

theorem Spec.ofJson?_cases {members : Members} {s : Spec} (h : ofJson? (.obj members) = some s) :
    (∃ f, FacetSpec.ofMembers? members (childrenOf members) = some f ∧
        facet f.transform f.mapping f.child f.outer = s) ∨
      FacetSpec.ofMembers? members (childrenOf members) = none ∧
        ((∃ l, LayerSpec.ofMembers? members (listsOf members) = some l ∧ layer l.transform l.layers l.outer = s) ∨
          LayerSpec.ofMembers? members (listsOf members) = none ∧
            ∃ u, UnitSpec.ofJson? (.obj members) = some u ∧ unit u = s) := by
  rw [ofJson?_obj] at h
  rcases Option.or_eq_some_iff.1 h with h | ⟨hfacet, h⟩
  · exact .inl (Option.map_eq_some_iff.1 h)
  refine .inr ⟨Option.map_eq_none_iff.1 hfacet, ?_⟩
  rcases Option.or_eq_some_iff.1 h with h | ⟨hlayer, h⟩
  · exact .inl (Option.map_eq_some_iff.1 h)
  · exact .inr ⟨Option.map_eq_none_iff.1 hlayer, Option.map_eq_some_iff.1 h⟩

namespace Object

/-- The properties have what a facet is read from. -/
def ReadsAsFacet (o : Object) : Prop :=
  (∃ j m, o.get? "facet" = some j ∧ FacetMapping.ofJson? j = some m) ∧
    ∃ j s, o.get? "spec" = some j ∧ Spec.ofJson? j = some s

/-- The properties have what a layer is read from. -/
def ReadsAsLayer (o : Object) : Prop := ∃ j layers, o.get? "layer" = some j ∧ Json.list? Spec.ofJson? j = some layers

/-- The free-form properties that a unit can have: no mark, and what makes neither a facet nor a layer. -/
structure OfUnit (o : Object) : Prop where
  noMark : o.contains "mark" = false
  notFacet : ¬ ReadsAsFacet o
  notLayer : ¬ ReadsAsLayer o

theorem ofUnit_empty : OfUnit ∅ where
  noMark := rfl
  notFacet := by
    rintro ⟨⟨j, m, h, -⟩, -⟩
    cases h
  notLayer := by
    rintro ⟨j, layers, h, -⟩
    cases h

theorem OfUnit.restrict {o : Object} (h : OfUnit o) (keep : String → Bool) :
    OfUnit (OrderedMap.restrict o keep) := by
  have hget : ∀ {key : String} {j : Json}, (OrderedMap.restrict o keep).get? key = some j → o.get? key = some j := by
    intro key j hj
    rw [OrderedMap.get?_restrict] at hj
    split at hj
    exacts [hj, by cases hj]
  refine ⟨?_, ?_, ?_⟩
  · rw [OrderedMap.contains, Option.isSome_eq_false_iff, Option.isNone_iff_eq_none, Option.eq_none_iff_forall_ne_some]
    intro j hj
    have hmark := h.noMark
    rw [OrderedMap.contains, hget hj] at hmark
    cases hmark
  · rintro ⟨⟨j, m, hj, hm⟩, j', s, hj', hs⟩
    exact h.notFacet ⟨⟨j, m, hget hj, hm⟩, j', s, hget hj', hs⟩
  · rintro ⟨j, layers, hj, hlayers⟩
    exact h.notLayer ⟨j, layers, hget hj, hlayers⟩

end Object

section Unread

variable {fields : List (String × Option Json)} {rest : Object}

/-- Without the fields of a facet, one is read from free-form properties only. -/
theorem FacetSpec.ofMembers?_eq_none (hfacet : "facet" ∉ fields.map Prod.fst) (hspec : "spec" ∉ fields.map Prod.fst)
    (h : ¬ Object.ReadsAsFacet rest) :
    ofMembers? (Members.ofFields fields rest) (Spec.childrenOf (Members.ofFields fields rest)) = none := by
  rw [Option.eq_none_iff_forall_ne_some]
  intro f hf
  obtain ⟨-, hmapping, hchildren, -⟩ := ofMembers?_eq_some_iff.1 hf
  rw [Members.required?, Members.field?_ofFields_rest hfacet] at hmapping
  rw [Spec.childrenOf_eq, Members.filter_ofFields_rest hspec] at hchildren
  cases hj : rest.get? "facet" with
  | none => rw [hj] at hmapping; cases hmapping
  | some j =>
    cases hj' : rest.get? "spec" with
    | none => rw [hj'] at hchildren; cases hchildren
    | some j' =>
      rw [hj] at hmapping
      rw [hj'] at hchildren
      exact h ⟨⟨j, f.mapping, hj, hmapping⟩, j', f.child, hj', (List.cons.inj hchildren).1⟩

theorem LayerSpec.ofMembers?_eq_none (hlayer : "layer" ∉ fields.map Prod.fst) (h : ¬ Object.ReadsAsLayer rest) :
    ofMembers? (Members.ofFields fields rest) (Spec.listsOf (Members.ofFields fields rest)) = none := by
  rw [Option.eq_none_iff_forall_ne_some]
  intro l hl
  obtain ⟨-, hlists, -⟩ := ofMembers?_eq_some_iff.1 hl
  rw [Spec.listsOf_eq, Members.filter_ofFields_rest hlayer] at hlists
  cases hj : rest.get? "layer" with
  | none => rw [hj] at hlists; cases hlists
  | some j =>
    rw [hj] at hlists
    exact h ⟨j, l.layers, hj, (List.cons.inj hlists).1⟩

theorem UnitSpec.ofJson?_eq_none (hmark : "mark" ∉ fields.map Prod.fst) (h : rest.contains "mark" = false) :
    ofJson? (.obj (Members.ofFields fields rest)) = none := by
  rw [Option.eq_none_iff_forall_ne_some]
  intro u hu
  obtain ⟨-, hm, -⟩ := ofJson?_eq_some_iff.1 hu
  rw [OrderedMap.contains, Option.isSome_eq_false_iff, Option.isNone_iff_eq_none] at h
  rw [Members.required?, Members.field?_ofFields_rest hmark, h] at hm
  cases hm

end Unread

/-! ### Sound nodes -/

structure UnitSpec.Legible (u : UnitSpec) : Prop where
  transform : ∀ t ∈ u.transform, t.Legible
  mark : u.mark.Legible
  encoding : u.encoding.Legible
  outer : Object.Free u.outer ["transform", "mark", "encoding"]
  ofUnit : Object.OfUnit u.outer

/-- A unit without stages and free-form properties. -/
theorem UnitSpec.legible_of_bare {mark : Mark} {encoding : Encoding} (hmark : mark.Legible)
    (hencoding : encoding.Legible) : Legible { mark := mark, encoding := encoding } where
  transform t ht := by cases ht
  mark := hmark
  encoding := hencoding
  outer := Object.free_empty _
  ofUnit := Object.ofUnit_empty

theorem UnitSpec.ofJson?_toJson {u : UnitSpec} (h : u.Legible) : ofJson? u.toJson = some u := by
  obtain ⟨members, hmembers⟩ : ∃ members : Members, u.toJson = .obj members := ⟨_, rfl⟩
  have hw : members.Written [transformsField u.transform, ("mark", some u.mark.toJson),
      ("encoding", if u.encoding.isEmpty then none else some u.encoding.toJson)] u.outer :=
    ⟨(Json.obj.inj hmembers).symm, (by decide : ["transform", "mark", "encoding"].Nodup), h.outer⟩
  have hmark : members.required? "mark" Mark.ofJson? = some u.mark :=
    (hw.required? (by simp)).trans (Mark.ofJson?_toJson h.mark)
  have hencoding : members.default? "encoding" ∅ Encoding.ofJson? = some u.encoding := by
    have hfield : members.field? "encoding" =
        some (if u.encoding.isEmpty then none else some u.encoding.toJson) := hw.field? (by simp)
    by_cases hempty : u.encoding.isEmpty = true
    · have hnone : ∅ = u.encoding := OrderedMap.ext (List.isEmpty_iff.1 hempty).symm
      rw [if_pos hempty] at hfield
      exact (Members.default?_of_missing hfield ∅).trans (congrArg some hnone)
    · rw [if_neg hempty] at hfield
      exact (Members.default?_of_field? hfield ∅).trans (Encoding.ofJson?_toJson h.encoding)
  rw [hmembers, ofJson?_eq_some_iff]
  exact ⟨hw.transforms? (by simp) h.transform, hmark, hencoding, hw.others⟩

namespace Spec

/-- A free-form property of the node has the name of a field of its kind. -/
def Clashes : Spec → Prop
  | .unit _ => False
  | .layer _ _ outer => outer.contains "layer" = true
  | .facet _ _ _ outer => outer.contains "facet" = true ∨ outer.contains "spec" = true

/-- The fields of the node read back, and none of an earlier kind is read in its place. Only the free-form properties of a
unit can clash with the fields of the node that it becomes. -/
inductive Sound : Spec → Prop
  | unit {u : UnitSpec} (h : u.Legible) : Sound (.unit u)
  | layer {transform : List Transform} {layers : List Spec} {outer : Object} (htransform : ∀ t ∈ transform, t.Legible)
      (houter : Object.Free outer ["transform"]) (hfacet : ¬ Object.ReadsAsFacet outer)
      (hclash : outer.contains "layer" = true → Object.OfUnit outer) : Sound (.layer transform layers outer)
  | facet {transform : List Transform} {mapping : FacetMapping} {child : Spec} {outer : Object}
      (htransform : ∀ t ∈ transform, t.Legible) (hmapping : mapping.Legible) (houter : Object.Free outer ["transform"])
      (hclash : outer.contains "facet" = true ∨ outer.contains "spec" = true → Object.OfUnit outer) :
      Sound (.facet transform mapping child outer)

end Spec

end ChartNormal
