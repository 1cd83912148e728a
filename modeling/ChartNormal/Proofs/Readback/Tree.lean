import ChartNormal.Spec.Same
import ChartNormal.Proofs.Readback.Node
import ChartNormal.Proofs.Tree

/-!
# Specifications that read back

A tree of sound nodes reads back as it is written, as long as no free-form property of a layer or a facet has the name of
one of its fields (`Spec.ofJson?_toJson`). Where one has, the node is written with a key twice and does not read at all,
and what the tree reads as, if anything, is another one (`Spec.differs_of_clash`). What is read from a value without
repeated keys is sound and has no such node (`Spec.sound_of_ofJson?`).
-/

namespace ChartNormal

namespace Spec

/-! ### Reading back -/

theorem toJsons_eq (layers : List Spec) : toJsons layers = layers.map toJson := by
  induction layers with
  | nil => rfl
  | cons s rest ih => rw [toJsons, ih, List.map_cons]

theorem toJson_layer (transform : List Transform) (layers : List Spec) (outer : Object) :
    (layer transform layers outer).toJson =
      .obj (Members.ofFields [transformsField transform, ("layer", some (.arr (layers.map toJson)))] outer) := by
  rw [toJson, toJsons_eq]

theorem toJson_facet (transform : List Transform) (mapping : FacetMapping) (child : Spec) (outer : Object) :
    (facet transform mapping child outer).toJson =
      .obj (Members.ofFields
        [transformsField transform, ("facet", some mapping.toJson), ("spec", some child.toJson)] outer) := by
  rw [toJson]

theorem ofJson?_unit {u : UnitSpec} (h : u.Legible) : ofJson? (unit u).toJson = some (unit u) := by
  have hread := UnitSpec.ofJson?_toJson h
  rw [toJson, UnitSpec.toJson] at *
  rw [ofJson?_obj, hread, FacetSpec.ofMembers?_eq_none (by simp [transformsField]) (by simp [transformsField])
    h.ofUnit.notFacet, LayerSpec.ofMembers?_eq_none (by simp [transformsField]) h.ofUnit.notLayer]
  rfl

section Nodes

variable {transform : List Transform} {layers : List Spec} {mapping : FacetMapping} {child : Spec} {outer : Object}

theorem ofJson?_layer (h : Sound (layer transform layers outer)) (hclash : ¬ Clashes (layer transform layers outer))
    (hlayers : ∀ s ∈ layers, ofJson? s.toJson = some s) :
    ofJson? (layer transform layers outer).toJson = some (layer transform layers outer) := by
  cases h with
  | layer htransform houter hfacet hclash' =>
    have hkey : outer.contains "layer" = false := by simpa [Clashes] using hclash
    obtain ⟨fields, hfields⟩ : ∃ fields : List (String × Option Json),
      fields = [transformsField transform, ("layer", some (.arr (layers.map toJson)))] := ⟨_, rfl⟩
    have hw : Members.Written (Members.ofFields fields outer) fields outer := by
      have hfree : Object.Free outer (["transform"] ++ ["layer"]) := houter.append (by simpa using hkey)
      subst hfields
      exact ⟨rfl, by simp [transformsField], hfree⟩
    have hlists : listsOf (Members.ofFields fields outer) = [some layers] := by
      have hnone : outer.get? "layer" = none := by simpa [OrderedMap.contains] using hkey
      have hmem : ("layer", some (Json.arr (layers.map toJson))) ∈ fields := by simp [hfields]
      rw [listsOf_eq, Members.filter_ofFields hw.names hmem, hnone]
      simp [Json.list?_map toJson hlayers]
    have hlayer : LayerSpec.ofMembers? (Members.ofFields fields outer) (listsOf (Members.ofFields fields outer)) =
        some ⟨transform, layers, outer⟩ := by
      refine LayerSpec.ofMembers?_eq_some_iff.2 ⟨hw.transforms? (by simp [hfields]) htransform, hlists, ?_⟩
      exact (congrArg _ (by simp [hfields, transformsField])).trans hw.others
    rw [toJson_layer, ← hfields, ofJson?_obj, hlayer, FacetSpec.ofMembers?_eq_none (by simp [hfields, transformsField])
      (by simp [hfields, transformsField]) hfacet]
    rfl

theorem ofJson?_facet (h : Sound (facet transform mapping child outer))
    (hclash : ¬ Clashes (facet transform mapping child outer)) (hchild : ofJson? child.toJson = some child) :
    ofJson? (facet transform mapping child outer).toJson = some (facet transform mapping child outer) := by
  cases h with
  | facet htransform hmapping houter hclash' =>
    have hkeys : outer.contains "facet" = false ∧ outer.contains "spec" = false := by simpa [Clashes] using hclash
    obtain ⟨fields, hfields⟩ : ∃ fields : List (String × Option Json), fields =
      [transformsField transform, ("facet", some mapping.toJson), ("spec", some child.toJson)] := ⟨_, rfl⟩
    have hw : Members.Written (Members.ofFields fields outer) fields outer := by
      have hfree : Object.Free outer (["transform"] ++ ["facet", "spec"]) := houter.append (by simpa using hkeys)
      subst hfields
      exact ⟨rfl, by simp [transformsField], hfree⟩
    have hchildren : childrenOf (Members.ofFields fields outer) = [some child] := by
      have hnone : outer.get? "spec" = none := by simpa [OrderedMap.contains] using hkeys.2
      have hmem : ("spec", some child.toJson) ∈ fields := by simp [hfields]
      rw [childrenOf_eq, Members.filter_ofFields hw.names hmem, hnone]
      simp [hchild]
    have hfacet : FacetSpec.ofMembers? (Members.ofFields fields outer) (childrenOf (Members.ofFields fields outer)) =
        some ⟨transform, mapping, child, outer⟩ := by
      refine FacetSpec.ofMembers?_eq_some_iff.2 ⟨hw.transforms? (by simp [hfields]) htransform, ?_, hchildren, ?_⟩
      · exact (hw.required? (by simp [hfields])).trans (FacetMapping.ofJson?_toJson hmapping)
      · exact (congrArg _ (by simp [hfields, transformsField])).trans hw.others
    rw [toJson_facet, ← hfields, ofJson?_obj, hfacet]
    rfl

/-- A layer that is written with its field twice does not read. -/
theorem ofJson?_layer_of_clash (h : Sound (layer transform layers outer))
    (hclash : Clashes (layer transform layers outer)) : ofJson? (layer transform layers outer).toJson = none := by
  cases h with
  | layer htransform houter hfacet hofUnit =>
    have hunit := hofUnit hclash
    obtain ⟨fields, hfields⟩ : ∃ fields : List (String × Option Json),
      fields = [transformsField transform, ("layer", some (.arr (layers.map toJson)))] := ⟨_, rfl⟩
    have hlayer : LayerSpec.ofMembers? (Members.ofFields fields outer) (listsOf (Members.ofFields fields outer)) =
        none := by
      obtain ⟨j, hj⟩ := Option.isSome_iff_exists.1 hclash
      have hmem : ("layer", some (Json.arr (layers.map toJson))) ∈ fields := by simp [hfields]
      rw [Option.eq_none_iff_forall_ne_some]
      intro l hl
      obtain ⟨-, hlists, -⟩ := LayerSpec.ofMembers?_eq_some_iff.1 hl
      rw [listsOf_eq, Members.filter_ofFields (by simp [hfields, transformsField]) hmem, hj] at hlists
      cases (List.cons.inj hlists).2
    rw [toJson_layer, ← hfields, ofJson?_obj, hlayer, FacetSpec.ofMembers?_eq_none (by simp [hfields, transformsField])
      (by simp [hfields, transformsField]) hfacet, UnitSpec.ofJson?_eq_none (by simp [hfields, transformsField])
      hunit.noMark]
    rfl

/-- A facet that is written with one of its fields twice does not read. -/
theorem ofJson?_facet_of_clash (h : Sound (facet transform mapping child outer))
    (hclash : Clashes (facet transform mapping child outer)) :
    ofJson? (facet transform mapping child outer).toJson = none := by
  cases h with
  | facet htransform hmapping houter hofUnit =>
    have hunit := hofUnit hclash
    obtain ⟨fields, hfields⟩ : ∃ fields : List (String × Option Json), fields =
      [transformsField transform, ("facet", some mapping.toJson), ("spec", some child.toJson)] := ⟨_, rfl⟩
    have hnames : (fields.map Prod.fst).Nodup := by simp [hfields, transformsField]
    have hfacet : FacetSpec.ofMembers? (Members.ofFields fields outer) (childrenOf (Members.ofFields fields outer)) =
        none := by
      rw [Option.eq_none_iff_forall_ne_some]
      intro f hf
      obtain ⟨-, hmapping', hchildren, -⟩ := FacetSpec.ofMembers?_eq_some_iff.1 hf
      rcases hclash with hkey | hkey
      · have hmem : ("facet", some mapping.toJson) ∈ fields := by simp [hfields]
        rw [Members.required?, Members.field?_ofFields_twice hnames hmem hkey] at hmapping'
        cases hmapping'
      · obtain ⟨j, hj⟩ := Option.isSome_iff_exists.1 hkey
        have hmem : ("spec", some child.toJson) ∈ fields := by simp [hfields]
        rw [childrenOf_eq, Members.filter_ofFields hnames hmem, hj] at hchildren
        cases (List.cons.inj hchildren).2
    rw [toJson_facet, ← hfields, ofJson?_obj, hfacet, LayerSpec.ofMembers?_eq_none (by simp [hfields, transformsField])
      hunit.notLayer, UnitSpec.ofJson?_eq_none (by simp [hfields, transformsField]) hunit.noMark]
    rfl

end Nodes

theorem ofJson?_toJson {s : Spec} {scope : Scope} (h : ∀ node ∈ s.nodes scope, node.2.Sound ∧ ¬ node.2.Clashes) :
    ofJson? s.toJson = some s := by
  induction s generalizing scope with
  | unit u =>
    cases (h (scope, .unit u) (by simp)).1 with
    | unit hu => exact ofJson?_unit hu
  | layer transform layers outer ih =>
    simp only [nodes_layer, List.forall_mem_cons, List.mem_flatMap] at h
    exact ofJson?_layer h.1.1 h.1.2 fun s hs => ih s hs fun node hnode => h.2 node ⟨s, hs, hnode⟩
  | facet transform mapping child outer ih =>
    simp only [nodes_facet, List.forall_mem_cons] at h
    exact ofJson?_facet h.1.1 h.1.2 (ih h.2)

/-! ### Clashes -/

theorem same_of_sameAll {layers ls : List Spec} (hread : List.Forall₂ (fun s l => ofJson? s.toJson = some l) layers ls)
    (h : sameAll ls layers = true) {s : Spec} (hs : s ∈ layers) : ∃ l, ofJson? s.toJson = some l ∧ l.same s = true := by
  induction hread with
  | nil => cases hs
  | cons hl hrest ih =>
    rw [sameAll, Bool.and_eq_true] at h
    rcases List.mem_cons.1 hs with rfl | hs
    · exact ⟨_, hl, h.1⟩
    · exact ih h.2 hs

/-- A layer that reads as one reads each of its layers. -/
theorem forall₂_of_ofJson?_layer {transform transform' : List Transform} {layers ls : List Spec} {outer outer' : Object}
    (hclash : ¬ Clashes (layer transform layers outer))
    (h : ofJson? (layer transform layers outer).toJson = some (layer transform' ls outer')) :
    List.Forall₂ (fun s l => ofJson? s.toJson = some l) layers ls := by
  have hnone : outer.get? "layer" = none := by simpa [Clashes, OrderedMap.contains] using hclash
  rw [toJson_layer] at h
  rcases ofJson?_cases h with ⟨f, -, hf⟩ | ⟨-, ⟨l, hl, heq⟩ | ⟨-, u, -, hu⟩⟩
  · cases hf
  · obtain ⟨-, hlists, -⟩ := LayerSpec.ofMembers?_eq_some_iff.1 hl
    rw [listsOf_eq, Members.filter_ofFields (by simp [transformsField]) (v := some (.arr (layers.map toJson))) (by simp),
      hnone] at hlists
    obtain rfl : l.layers = ls := (Spec.layer.inj heq).2.1
    exact List.forall₂_map_left_iff.1 (mapM_eq_some_iff.1 (List.cons.inj hlists).1)
  · cases hu

/-- A facet that reads as one reads its child. -/
theorem ofJson?_child_of_facet {transform transform' : List Transform} {mapping mapping' : FacetMapping}
    {child child' : Spec} {outer outer' : Object} (hclash : ¬ Clashes (facet transform mapping child outer))
    (h : ofJson? (facet transform mapping child outer).toJson = some (facet transform' mapping' child' outer')) :
    ofJson? child.toJson = some child' := by
  have hnone : outer.get? "spec" = none := by
    have hkeys : outer.contains "facet" = false ∧ outer.contains "spec" = false := by simpa [Clashes] using hclash
    simpa [OrderedMap.contains] using hkeys.2
  rw [toJson_facet] at h
  rcases ofJson?_cases h with ⟨f, hf, heq⟩ | ⟨-, ⟨l, -, hl⟩ | ⟨-, u, -, hu⟩⟩
  · obtain ⟨-, -, hchildren, -⟩ := FacetSpec.ofMembers?_eq_some_iff.1 hf
    rw [childrenOf_eq, Members.filter_ofFields (by simp [transformsField]) (v := some child.toJson) (by simp),
      hnone] at hchildren
    obtain rfl : f.child = child' := (Spec.facet.inj heq).2.2.1
    exact (List.cons.inj hchildren).1
  · cases hl
  · cases hu

/-- A tree with a node that clashes is not what it reads as, also where the order of keys does not count. -/
theorem differs_of_clash {s t : Spec} {scope : Scope} (h : ∀ node ∈ s.nodes scope, node.2.Sound)
    {node : Scope × Spec} (hnode : node ∈ s.nodes scope) (hclash : node.2.Clashes) (ht : ofJson? s.toJson = some t) :
    t ≠ s ∧ t.same s = false := by
  induction s generalizing scope t with
  | unit u =>
    rw [nodes_unit, List.mem_singleton] at hnode
    subst hnode
    cases hclash
  | layer transform layers outer ih =>
    simp only [nodes_layer, List.forall_mem_cons, List.mem_flatMap] at h
    by_cases hroot : Clashes (layer transform layers outer)
    · rw [ofJson?_layer_of_clash h.1 hroot] at ht
      cases ht
    rw [nodes_layer, List.mem_cons, List.mem_flatMap] at hnode
    obtain ⟨s, hs, hnode⟩ : ∃ s ∈ layers, node ∈ s.nodes .layer :=
      hnode.resolve_left fun heq => hroot (by subst heq; exact hclash)
    have hdiffers {l : Spec} (hl : ofJson? s.toJson = some l) : l ≠ s ∧ l.same s = false :=
      ih s hs (fun n hn => h.2 n ⟨s, hs, hn⟩) hnode hl
    cases t with
    | layer transform' ls outer' =>
      have hread := forall₂_of_ofJson?_layer hroot ht
      refine ⟨fun heq => ?_, Bool.eq_false_iff.2 fun hsame => ?_⟩
      · obtain rfl := (Spec.layer.inj heq).2.1
        exact (hdiffers (List.forall₂_same.1 hread s hs)).1 rfl
      · simp only [same, Bool.and_eq_true] at hsame
        obtain ⟨l, hl, hls⟩ := same_of_sameAll hread hsame.1.2 hs
        exact Bool.eq_false_iff.1 (hdiffers hl).2 hls
    | unit u => exact ⟨nofun, rfl⟩
    | facet transform' mapping' child' outer' => exact ⟨nofun, rfl⟩
  | facet transform mapping child outer ih =>
    simp only [nodes_facet, List.forall_mem_cons] at h
    by_cases hroot : Clashes (facet transform mapping child outer)
    · rw [ofJson?_facet_of_clash h.1 hroot] at ht
      cases ht
    rw [nodes_facet, List.mem_cons] at hnode
    have hnode := hnode.resolve_left fun heq => hroot (by subst heq; exact hclash)
    cases t with
    | facet transform' mapping' child' outer' =>
      have hdiffers := ih h.2 hnode (ofJson?_child_of_facet hroot ht)
      refine ⟨fun heq => hdiffers.1 (Spec.facet.inj heq).2.2.1, Bool.eq_false_iff.2 fun hsame => ?_⟩
      simp only [same, Bool.and_eq_true] at hsame
      exact Bool.eq_false_iff.1 hdiffers.2 hsame.1.2
    | unit u => exact ⟨nofun, rfl⟩
    | layer transform' ls outer' => exact ⟨nofun, rfl⟩

/-! ### What is read -/

section Read

variable {members : Members} (hm : (Json.obj members).distinctKeys = true) {ts : List Transform}
  (hts : members.transforms? = some ts)

include hm hts

theorem notFacet_of_unread (h : FacetSpec.ofMembers? members (childrenOf members) = none) {known : List String}
    (hfacet : "facet" ∉ known) (hspec : "spec" ∉ known) : ¬ Object.ReadsAsFacet (members.others known) := by
  have hkeys := (Json.distinctKeys_obj_iff.1 hm).1
  rintro ⟨⟨j, m, hj, hread⟩, j', s, hj', hread'⟩
  rw [Members.get?_others hm hfacet] at hj
  rw [Members.get?_others hm hspec] at hj'
  have hmapping : members.required? "facet" FacetMapping.ofJson? = some m := by
    rw [Members.required?, Members.field?_of_nodup hkeys, hj]
    exact hread
  have hchildren : childrenOf members = [some s] := by
    rw [childrenOf_eq, OrderedMap.filter_of_nodup hkeys, hj', ← hread']
    rfl
  have hsome : FacetSpec.ofMembers? members (childrenOf members) =
      some ⟨ts, m, s, members.others ["transform", "facet", "spec"]⟩ :=
    FacetSpec.ofMembers?_eq_some_iff.2 ⟨hts, hmapping, hchildren, rfl⟩
  rw [h] at hsome
  cases hsome

theorem notLayer_of_unread (h : LayerSpec.ofMembers? members (listsOf members) = none) {known : List String}
    (hlayer : "layer" ∉ known) : ¬ Object.ReadsAsLayer (members.others known) := by
  have hkeys := (Json.distinctKeys_obj_iff.1 hm).1
  rintro ⟨j, layers, hj, hread⟩
  rw [Members.get?_others hm hlayer] at hj
  have hlists : listsOf members = [some layers] := by
    rw [listsOf_eq, OrderedMap.filter_of_nodup hkeys, hj, ← hread]
    rfl
  have hsome : LayerSpec.ofMembers? members (listsOf members) =
      some ⟨ts, layers, members.others ["transform", "layer"]⟩ :=
    LayerSpec.ofMembers?_eq_some_iff.2 ⟨hts, hlists, rfl⟩
  rw [h] at hsome
  cases hsome

end Read

theorem legible_of_unit {members : Members} (hm : (Json.obj members).distinctKeys = true) {u : UnitSpec}
    (hfacet : FacetSpec.ofMembers? members (childrenOf members) = none)
    (hlayer : LayerSpec.ofMembers? members (listsOf members) = none) (h : UnitSpec.ofJson? (.obj members) = some u) :
    u.Legible := by
  obtain ⟨hts, hmark, hencoding, houter⟩ := UnitSpec.ofJson?_eq_some_iff.1 h
  have hfree := Members.free_others members ["transform", "mark", "encoding"]
  rw [houter] at hfree
  refine
    { transform := Members.legible_of_transforms? hm hts
      mark := ?_
      encoding := ?_
      outer := hfree
      ofUnit := ⟨hfree.contains_eq_false (by simp), ?_, ?_⟩ }
  · obtain ⟨j, -, hread⟩ := Members.of_required? hmark
    exact Mark.legible_of_ofJson? hread
  · rcases Members.of_default? hencoding with he | ⟨j, hmem, hread⟩
    · rw [he]
      exact Encoding.legible_empty
    · exact Encoding.legible_of_ofJson? ((Json.distinctKeys_obj_iff.1 hm).2 _ hmem) hread
  · rw [← houter]
    exact notFacet_of_unread hm hts hfacet (by simp) (by simp)
  · rw [← houter]
    exact notLayer_of_unread hm hts hlayer (by simp)

theorem exists_members {v : Json} {s : Spec} (h : ofJson? v = some s) : ∃ members, v = .obj members := by
  cases v with
  | obj members => exact ⟨members, rfl⟩
  | _ => cases h

theorem sound_layer_of_read {members : Members} (hm : (Json.obj members).distinctKeys = true) {l : LayerSpec}
    (hfacet : FacetSpec.ofMembers? members (childrenOf members) = none)
    (h : LayerSpec.ofMembers? members (listsOf members) = some l) :
    Sound (layer l.transform l.layers l.outer) ∧ ¬ Clashes (layer l.transform l.layers l.outer) := by
  obtain ⟨hts, -, houter⟩ := LayerSpec.ofMembers?_eq_some_iff.1 h
  have hfree := Members.free_others members ["transform", "layer"]
  have hno : l.outer.contains "layer" = false := by
    rw [← houter]
    exact hfree.contains_eq_false (by simp)
  refine ⟨.layer (Members.legible_of_transforms? hm hts) (houter ▸ hfree.mono (by simp)) ?_ ?_, by simp [Clashes, hno]⟩
  · rw [← houter]
    exact notFacet_of_unread hm hts hfacet (by simp) (by simp)
  · intro hclash
    rw [hno] at hclash
    cases hclash

theorem sound_facet_of_read {members : Members} (hm : (Json.obj members).distinctKeys = true) {f : FacetSpec}
    (h : FacetSpec.ofMembers? members (childrenOf members) = some f) :
    Sound (facet f.transform f.mapping f.child f.outer) ∧ ¬ Clashes (facet f.transform f.mapping f.child f.outer) := by
  obtain ⟨hts, hmapping, -, houter⟩ := FacetSpec.ofMembers?_eq_some_iff.1 h
  have hfree := Members.free_others members ["transform", "facet", "spec"]
  have hno : ¬ Clashes (facet f.transform f.mapping f.child f.outer) := by
    rw [← houter]
    rintro (hkey | hkey)
    · rw [hfree.contains_eq_false (by simp)] at hkey
      cases hkey
    · rw [hfree.contains_eq_false (by simp)] at hkey
      cases hkey
  obtain ⟨j, hmem, hread⟩ := Members.of_required? hmapping
  have hlegible := FacetMapping.legible_of_ofJson? ((Json.distinctKeys_obj_iff.1 hm).2 _ hmem) hread
  refine ⟨.facet (Members.legible_of_transforms? hm hts) hlegible (houter ▸ hfree.mono (by simp)) ?_, hno⟩
  exact fun hclash => absurd hclash hno

/-- What is read from a value without repeated keys. -/
theorem sound_of_ofJson? {v : Json} (hv : v.distinctKeys = true) {s : Spec} (h : ofJson? v = some s) {scope : Scope} :
    ∀ node ∈ s.nodes scope, node.2.Sound ∧ ¬ node.2.Clashes := by
  induction s generalizing v scope with
  | unit u =>
    obtain ⟨members, rfl⟩ := exists_members h
    rcases ofJson?_cases h with ⟨f, -, hf⟩ | ⟨hfacet, ⟨l, -, hl⟩ | ⟨hlayer, u', hu, heq⟩⟩
    · cases hf
    · cases hl
    · obtain rfl := Spec.unit.inj heq
      intro node hnode
      rw [nodes_unit, List.mem_singleton] at hnode
      subst hnode
      exact ⟨.unit (legible_of_unit hv hfacet hlayer hu), id⟩
  | layer transform layers outer ih =>
    obtain ⟨members, rfl⟩ := exists_members h
    rcases ofJson?_cases h with ⟨f, -, hf⟩ | ⟨hfacet, ⟨l, hl, heq⟩ | ⟨-, u, -, hu⟩⟩
    · cases hf
    · obtain ⟨rfl, rfl, rfl⟩ := Spec.layer.inj heq
      obtain ⟨-, hlists, -⟩ := LayerSpec.ofMembers?_eq_some_iff.1 hl
      rw [listsOf_eq, List.map_eq_singleton_iff] at hlists
      obtain ⟨e, he, hread⟩ := hlists
      have hmem : e ∈ members := (List.mem_filter.1 (he ▸ List.mem_singleton_self e)).1
      rw [nodes_layer, List.forall_mem_cons]
      refine ⟨sound_layer_of_read hv hfacet hl, fun node hnode => ?_⟩
      obtain ⟨s, hs, hnode⟩ := List.mem_flatMap.1 hnode
      obtain ⟨j, hj, hs'⟩ := Json.of_list? ((Json.distinctKeys_obj_iff.1 hv).2 e hmem) hread s hs
      exact ih s hs hj hs' node hnode
    · cases hu
  | facet transform mapping child outer ih =>
    obtain ⟨members, rfl⟩ := exists_members h
    rcases ofJson?_cases h with ⟨f, hf, heq⟩ | ⟨-, ⟨l, -, hl⟩ | ⟨-, u, -, hu⟩⟩
    · obtain ⟨rfl, rfl, rfl, rfl⟩ := Spec.facet.inj heq
      obtain ⟨-, -, hchildren, -⟩ := FacetSpec.ofMembers?_eq_some_iff.1 hf
      rw [childrenOf_eq, List.map_eq_singleton_iff] at hchildren
      obtain ⟨e, he, hread⟩ := hchildren
      have hmem : e ∈ members := (List.mem_filter.1 (he ▸ List.mem_singleton_self e)).1
      rw [nodes_facet, List.forall_mem_cons]
      exact ⟨sound_facet_of_read hv hf, ih ((Json.distinctKeys_obj_iff.1 hv).2 e hmem) hread⟩
    · cases hl
    · cases hu

end Spec

end ChartNormal
