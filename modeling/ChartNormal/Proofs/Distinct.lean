import ChartNormal.Json.Basic
import ChartNormal.Proofs.OrderedMap

/-!
# Values without repeated keys

`settle` makes every key of an object unique, at every depth (`distinctKeys_settle`), and leaves a value alone in which no
key repeats (`settle_eq_self`).
-/

namespace ChartNormal

namespace Json

/-! ### Induction -/

/-- An array has a property when it passes from its items, and an object when it passes from the values of its members. -/
@[elab_as_elim]
theorem ind {motive : Json → Prop} (null : motive .null) (bool : ∀ b, motive (.bool b)) (num : ∀ n, motive (.num n))
    (str : ∀ s, motive (.str s)) (arr : ∀ items, (∀ j ∈ items, motive j) → motive (.arr items))
    (obj : ∀ members, (∀ e ∈ members, motive e.2) → motive (.obj members)) (j : Json) : motive j := by
  refine @Json.rec motive (fun items => ∀ j ∈ items, motive j) (fun members => ∀ e ∈ members, motive e.2)
    (fun e => motive e.2) null bool num str arr obj ?_ ?_ ?_ ?_ ?_ j
  · intro j hj
    cases hj
  · intro j rest hj hrest
    exact List.forall_mem_cons.2 ⟨hj, hrest⟩
  · intro e he
    cases he
  · intro e rest he hrest
    exact List.forall_mem_cons.2 ⟨he, hrest⟩
  · intro k j hj
    exact hj

mutual

/-- No object repeats a key, at any depth. -/
def distinctKeys : Json → Bool
  | .arr items => distinctItems items
  | .obj members => decide (members.map Prod.fst).Nodup && distinctMembers members
  | _ => true

def distinctItems : List Json → Bool
  | [] => true
  | j :: rest => j.distinctKeys && distinctItems rest

def distinctMembers : Members → Bool
  | [] => true
  | (_, j) :: rest => j.distinctKeys && distinctMembers rest

end

theorem distinctItems_iff {items : List Json} : distinctItems items = true ↔ ∀ j ∈ items, j.distinctKeys = true := by
  induction items with
  | nil => simp [distinctItems]
  | cons j rest ih => rw [distinctItems, Bool.and_eq_true, ih, List.forall_mem_cons]

theorem distinctMembers_iff {members : Members} :
    distinctMembers members = true ↔ ∀ e ∈ members, e.2.distinctKeys = true := by
  induction members with
  | nil => simp [distinctMembers]
  | cons e rest ih => rw [distinctMembers, Bool.and_eq_true, ih, List.forall_mem_cons]

theorem distinctKeys_arr_iff {items : List Json} :
    (Json.arr items).distinctKeys = true ↔ ∀ j ∈ items, j.distinctKeys = true := by
  rw [distinctKeys, distinctItems_iff]

theorem distinctKeys_obj_iff {members : Members} :
    (Json.obj members).distinctKeys = true ↔
      (members.map Prod.fst).Nodup ∧ ∀ e ∈ members, e.2.distinctKeys = true := by
  rw [distinctKeys, Bool.and_eq_true, decide_eq_true_eq, distinctMembers_iff]

/-! ### Settled values -/

theorem settleItems_eq (items : List Json) : settleItems items = items.map settle := by
  induction items with
  | nil => rfl
  | cons j rest ih => rw [settleItems, ih, List.map_cons]

theorem settleMembers_eq (members : Members) : settleMembers members = members.map fun e => (e.1, e.2.settle) := by
  induction members with
  | nil => rfl
  | cons e rest ih => rw [settleMembers, ih, List.map_cons]

/-- Settling values whose keys are distinct changes none of them. -/
theorem map_settle {members : Members} (h : ∀ e ∈ members, e.2.settle = e.2) :
    (members.map fun e => (e.1, e.2.settle)) = members := by
  refine (List.map_congr_left fun e he => ?_).trans (List.map_id members)
  rw [h e he]
  rfl

theorem settle_eq_self {j : Json} (h : j.distinctKeys = true) : j.settle = j := by
  induction j using Json.ind with
  | null | bool | num | str => rfl
  | arr items ih =>
    have hitems : items.map settle = items.map id :=
      List.map_congr_left fun j hj => ih j hj (distinctKeys_arr_iff.1 h j hj)
    rw [settle, settleItems_eq, hitems, List.map_id]
  | obj members ih =>
    obtain ⟨hkeys, hvalues⟩ := distinctKeys_obj_iff.1 h
    rw [settle, settleMembers_eq, map_settle fun e he => ih e he (hvalues e he), OrderedMap.entries_ofList hkeys]

theorem distinctKeys_settle (j : Json) : j.settle.distinctKeys = true := by
  induction j using Json.ind with
  | null | bool | num | str => rfl
  | arr items ih =>
    rw [settle, settleItems_eq, distinctKeys_arr_iff]
    intro j hj
    obtain ⟨j, hmem, rfl⟩ := List.mem_map.1 hj
    exact ih j hmem
  | obj members ih =>
    rw [settle, settleMembers_eq, distinctKeys_obj_iff]
    refine ⟨OrderedMap.nodup _, fun e he => ?_⟩
    obtain ⟨e, hmem, rfl⟩ := List.mem_map.1 (OrderedMap.mem_ofList he)
    exact ih e hmem

theorem settle_ne_null {j : Json} (h : j ≠ .null) : j.settle ≠ .null := by
  cases j with
  | null => exact absurd rfl h
  | _ => intro hj; cases hj

end Json

end ChartNormal
