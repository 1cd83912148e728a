import ChartNormal.Encoding.Basic
import ChartNormal.Proofs.Record

/-!
# The order of declaration

Everything derived from an encoding follows the order of its channels. What an edit does to that order is said on the list
of channels alone (`Edit.order`), and what it does to a definition on the look-up of one channel (`Edit.binding`). The two
together determine an encoding (`OrderedMap.ext_get?`), and both pass from one edit to any sequence of edits
(`channels_edited`, `get?_edited`).
-/

namespace ChartNormal

namespace Encoding

/-! ### One edit -/

inductive Edit where
  | insert (c : Channel) (d : ChannelDef)
  | remove (c : Channel)
  | restrict (keep : Channel → Bool)
  | without (cs : List Channel)
  | only (cs : List Channel)
  | extend (other : Encoding)
  | rebuild

namespace Edit

def apply (e : Encoding) : Edit → Encoding
  | insert c d => e.insert c d
  | remove c => (e.remove c).2
  | restrict keep => e.restrict keep
  | without cs => e.without cs
  | only cs => e.only cs
  | extend other => e.extend other
  | rebuild => .ofList e.entries

/-- What an edit makes of the channels in their order. -/
def order (l : List Channel) : Edit → List Channel
  | insert c _ => if c ∈ l then l else l ++ [c]
  | remove c => l.erase c
  | restrict keep => l.filter keep
  | without cs => l.filter (· ∉ cs)
  | only cs => l.filter (· ∈ cs)
  | extend other => l ++ other.channels.filter (· ∉ l)
  | rebuild => l

/-- What an edit makes of that which one channel is bound to. -/
def binding (c : Channel) (d : Option ChannelDef) : Edit → Option ChannelDef
  | insert c' d' => if c = c' then some d' else d
  | remove c' => if c = c' then none else d
  | restrict keep => if keep c then d else none
  | without cs => if c ∈ cs then none else d
  | only cs => if c ∈ cs then d else none
  | extend other => (other.get? c).or d
  | rebuild => d

theorem channels_apply (e : Encoding) (edit : Edit) : (edit.apply e).channels = edit.order e.channels := by
  cases edit with
  | insert c d => exact OrderedMap.keys_insert e c d
  | remove c => exact OrderedMap.keys_erase e c
  | restrict keep => exact OrderedMap.keys_restrict e keep
  | without cs => exact OrderedMap.keys_restrict e _
  | only cs => exact OrderedMap.keys_restrict e _
  | extend other => exact OrderedMap.keys_extend e other
  | rebuild => rw [apply, OrderedMap.ofList_entries, order]

theorem get?_apply (e : Encoding) (edit : Edit) (c : Channel) :
    (edit.apply e).get? c = edit.binding c (e.get? c) := by
  cases edit with
  | insert c' d => exact OrderedMap.get?_insert e c' c d
  | remove c' => exact OrderedMap.get?_erase e c' c
  | restrict keep => exact OrderedMap.get?_restrict e keep c
  | without cs =>
    refine (OrderedMap.get?_restrict e _ c).trans ?_
    by_cases h : c ∈ cs <;> simp [binding, h]
  | only cs =>
    refine (OrderedMap.get?_restrict e _ c).trans ?_
    by_cases h : c ∈ cs <;> simp [binding, h]
  | extend other => exact OrderedMap.get?_extend e other c
  | rebuild => rw [apply, OrderedMap.ofList_entries, binding]

end Edit

/-! ### Sequences of edits -/

def edited (e : Encoding) (edits : List Edit) : Encoding := edits.foldl Edit.apply e

theorem channels_edited (e : Encoding) (edits : List Edit) :
    (e.edited edits).channels = edits.foldl Edit.order e.channels :=
  (List.foldl_hom channels fun e edit => (Edit.channels_apply e edit).symm).symm

theorem get?_edited (e : Encoding) (edits : List Edit) (c : Channel) :
    (e.edited edits).get? c = edits.foldl (Edit.binding c) (e.get? c) :=
  (List.foldl_hom (OrderedMap.get? · c) fun e edit => (Edit.get?_apply e edit c).symm).symm

/-- To remove a channel is to leave it out. -/
theorem remove_eq_without (e : Encoding) (c : Channel) : e.remove c = (e.get? c, e.without [c]) := by
  have hkeep : (fun c' => decide (c' ≠ c)) = fun c' => decide (c' ∉ [c]) := by
    funext c'
    simp only [ne_eq, List.mem_singleton]
  rw [OrderedMap.remove, OrderedMap.erase_eq_restrict, hkeep, without]

/-- The channels are those that are declared; one that is declared again stays in its first place. -/
theorem channels_of_ofJson? {j : Json} {e : Encoding} (h : ofJson? j = some e) :
    ∃ (members : Members) (cs : List Channel),
      j = .obj members ∧ members.map Prod.fst = cs.map Channel.name ∧ e.channels = cs.eraseDups := by
  simp only [ofJson?, Option.bind_eq_bind, Option.bind_eq_some_iff, Option.some.injEq] at h
  obtain ⟨members, hmembers, bindings, hbindings, rfl⟩ := h
  refine ⟨members, bindings.map Prod.fst, ?_, ?_, OrderedMap.keys_ofList bindings⟩
  · cases j with
    | obj members' => rw [Option.some.inj hmembers]
    | _ => cases hmembers
  · rw [List.map_map, ← List.forall₂_eq_eq_eq, List.forall₂_map_left_iff, List.forall₂_map_right_iff]
    refine (mapM_eq_some_iff.1 hbindings).imp fun member b hread => ?_
    simp only [Option.bind_eq_some_iff, Option.some.injEq] at hread
    obtain ⟨c, hc, d, -, rfl⟩ := hread
    exact (Channel.ofName?_eq_some hc).symm

/-- **Encodings as ordered maps.** An encoding that is read has each declared channel once, and so it is after any edits.
These act on the order of the channels and on the definition of each channel by simple rules: a channel that is there
keeps its place and gets the new definition, new ones go last in their order, and the rest stays in order when channels
are taken away. Extending is associative, restriction distributes over it, to remove a channel is to leave it out, and an
encoding is collected from its entries as it is. -/
theorem ordered_map_laws :
    (∀ (j : Json) (e : Encoding), ofJson? j = some e →
      (∃ (members : Members) (cs : List Channel),
        j = .obj members ∧ members.map Prod.fst = cs.map Channel.name ∧ e.channels = cs.eraseDups) ∧
      ∀ edits : List Edit,
        (e.edited edits).channels.Nodup ∧
        (e.edited edits).channels = edits.foldl Edit.order e.channels ∧
        ∀ c, (e.edited edits).get? c = edits.foldl (Edit.binding c) (e.get? c)) ∧
    (∀ a b c : Encoding, (a.extend b).extend c = a.extend (b.extend c)) ∧
    (∀ (a b : Encoding) (keep : Channel → Bool),
      (a.extend b).restrict keep = (a.restrict keep).extend (b.restrict keep)) ∧
    (∀ (e : Encoding) (c : Channel), e.remove c = (e.get? c, e.without [c])) ∧
    ∀ e : Encoding, OrderedMap.ofList e.entries = e := by
  refine ⟨fun j e he => ⟨channels_of_ofJson? he, fun edits => ?_⟩, OrderedMap.extend_assoc, OrderedMap.restrict_extend,
    remove_eq_without, OrderedMap.ofList_entries⟩
  exact ⟨(e.edited edits).nodup, channels_edited e edits, get?_edited e edits⟩

/-- The second `y` is read in the place of the first. `size` is taken away and comes back last, while `x`, which is still
there, is bound anew in its place. -/
theorem ordered_map_laws_size :
    let a : FieldDef := { field := some "a", type := .nominal }
    let j : Json := .obj
      [("size", .obj [("value", .num (.int 3))]), ("y", .obj [("value", .num (.int 0))]),
        ("x", .obj [("field", .str "a"), ("type", .str "nominal")]), ("y", .obj [("value", .num (.int 1))])]
    let e : Encoding := .ofList [(.size, .value (.num (.int 3))), (.y, .value (.num (.int 1))), (.x, .field a)]
    let edits : List Edit :=
      [.remove .size, .extend (.ofList [(.size, .field a), (.x, .value .null)]), .insert .color (.field a), .rebuild,
        .without [.color], .insert .y (.field a), .only [.x, .size, .y]]
    ofJson? j = some e ∧ (e.edited edits).channels = [.y, .x, .size] ∧ (e.edited edits).channels.Nodup ∧
      (e.edited edits).get? .x = some (.value .null) ∧ (e.edited edits).get? .y = some (.field a) := by
  intro a j e edits
  have hj : ofJson? j = some e := by decide +kernel +zetaReduce
  obtain ⟨hnodup, hchannels, hget⟩ := (ordered_map_laws.1 j e hj).2 edits
  have horder : edits.foldl Edit.order e.channels = [.y, .x, .size] := by decide +kernel +zetaReduce
  have hx : edits.foldl (Edit.binding .x) (e.get? .x) = some (.value .null) := by decide +kernel +zetaReduce
  have hy : edits.foldl (Edit.binding .y) (e.get? .y) = some (.field a) := by decide +kernel +zetaReduce
  exact ⟨hj, hchannels.trans horder, hnodup, (hget .x).trans hx, (hget .y).trans hy⟩

end Encoding

end ChartNormal
