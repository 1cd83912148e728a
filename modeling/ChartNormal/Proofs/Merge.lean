import ChartNormal.Json.Merge
import ChartNormal.Proofs.Record

/-!
# Merged objects

What stands under a key of a merged object is what both sides say about it (`lookup_mergeMembers`), and writing one more
key on top is writing it into the merged object (`mergeMembers_place`). Along a path of keys the same holds at any depth:
`merge_setAt` moves a value from the end of a path that is vacant on top to the end of the path in the merged value.
-/

namespace ChartNormal

namespace OrderedMap

variable {κ α : Type} [DecidableEq κ]

theorem place_place (key : κ) (v w : α) (l : List (κ × α)) : place key v (place key w l) = place key v l := by
  induction l with
  | nil => simp [place]
  | cons e l ih =>
    by_cases he : e.1 = key
    · simp [place, he]
    · simp [place, he, ih]

/-- Under a key that is there a value can be written sooner or later. -/
theorem place_comm {key k : κ} (hne : k ≠ key) (v w : α) {l : List (κ × α)} (h : key ∈ l.map Prod.fst) :
    place key v (place k w l) = place k w (place key v l) := by
  induction l with
  | nil => cases h
  | cons e l ih =>
    by_cases he : e.1 = key
    · simp [place, he, Ne.symm hne]
    · have hl : key ∈ l.map Prod.fst := by
        rcases List.mem_cons.1 h with h | h
        · exact absurd h.symm he
        · exact h
      by_cases hk : e.1 = k
      · simp [place, hk, hne]
      · simp [place, he, hk, ih hl]

theorem filter_place {key : κ} {known : List κ} (h : key ∈ known) (v : α) (l : List (κ × α)) :
    (place key v l).filter (fun e => e.1 ∉ known) = l.filter fun e => e.1 ∉ known := by
  induction l with
  | nil => simp [place, h]
  | cons e l ih =>
    rw [place]
    split
    · next he => simp [he, h]
    · simp only [List.filter_cons, ih]

end OrderedMap

namespace Json

/-- What a key holds after a merge. -/
def mergeInto (old : Option Json) (j : Json) : Json :=
  match old with
  | some old => merge old j
  | none => j

theorem mergeMembers_cons (below : Members) (k : String) (j : Json) (rest : Members) :
    mergeMembers below ((k, j) :: rest) = mergeMembers (OrderedMap.place k (mergeInto (below.lookup k) j) below) rest := rfl

theorem nodup_mergeMembers {below : Members} (h : (below.map Prod.fst).Nodup) (top : Members) :
    ((mergeMembers below top).map Prod.fst).Nodup := by
  induction top generalizing below with
  | nil => exact h
  | cons e top ih => exact ih (OrderedMap.nodup_place _ _ h)

theorem lookup_mergeMembers {top : Members} (h : (top.map Prod.fst).Nodup) (below : Members) (key : String) :
    (mergeMembers below top).lookup key =
      match top.lookup key with
      | some j => some (mergeInto (below.lookup key) j)
      | none => below.lookup key := by
  induction top generalizing below with
  | nil => rfl
  | cons e top ih =>
    obtain ⟨k, j⟩ := e
    rw [List.map_cons, List.nodup_cons] at h
    rw [mergeMembers_cons, ih h.2, OrderedMap.lookup_cons, OrderedMap.lookup_place]
    by_cases hk : key = k
    · subst hk
      rw [OrderedMap.lookup_eq_none_iff.2 h.1, if_pos rfl, if_pos rfl]
    · rw [if_neg hk, if_neg hk]

theorem distinctKeys_merge {base j : Json} (hbase : base.distinctKeys = true) (hj : j.distinctKeys = true) :
    (merge base j).distinctKeys = true := by
  induction j using Json.ind generalizing base with
  | null | bool | num | str | arr => exact hj
  | obj top ih =>
    cases base with
    | obj below =>
      obtain ⟨hbelow, hbelowValues⟩ := distinctKeys_obj_iff.1 hbase
      obtain ⟨htop, htopValues⟩ := distinctKeys_obj_iff.1 hj
      have hnodup := nodup_mergeMembers hbelow top
      refine distinctKeys_obj_iff.2 ⟨hnodup, ?_⟩
      rintro ⟨key, value⟩ he
      have hlookup := (OrderedMap.lookup_eq_some_iff hnodup).2 he
      rw [lookup_mergeMembers htop] at hlookup
      split at hlookup
      · next j hj =>
        have hmem := (OrderedMap.lookup_eq_some_iff htop).1 hj
        obtain rfl := Option.some.inj hlookup
        cases hold : below.lookup key with
        | none => exact htopValues _ hmem
        | some old =>
          exact ih _ hmem (hbelowValues _ ((OrderedMap.lookup_eq_some_iff hbelow).1 hold)) (htopValues _ hmem)
      · exact hbelowValues _ ((OrderedMap.lookup_eq_some_iff hbelow).1 hlookup)
    | _ => exact hj

/-- A key that is below and not on top keeps its place. -/
theorem place_mergeMembers {key : String} (v : Json) {below top : Members} (hbelow : key ∈ below.map Prod.fst)
    (htop : key ∉ top.map Prod.fst) :
    OrderedMap.place key v (mergeMembers below top) = mergeMembers (OrderedMap.place key v below) top := by
  induction top generalizing below with
  | nil => rfl
  | cons e top ih =>
    obtain ⟨k, j⟩ := e
    rw [List.map_cons, List.mem_cons, not_or] at htop
    have hne : k ≠ key := Ne.symm htop.1
    have hmem : key ∈ (OrderedMap.place k (mergeInto (below.lookup k) j) below).map Prod.fst := by
      rw [OrderedMap.map_fst_place]
      split
      · exact hbelow
      · exact List.mem_append_left _ hbelow
    rw [mergeMembers_cons, mergeMembers_cons, ih hmem htop.2, OrderedMap.place_comm hne _ _ hbelow,
      OrderedMap.lookup_place, if_neg hne]

/-- Written on top, or into what is merged. -/
theorem mergeMembers_place {top : Members} (h : (top.map Prod.fst).Nodup) (below : Members) (key : String) (j : Json) :
    mergeMembers below (OrderedMap.place key j top) =
      OrderedMap.place key (mergeInto (below.lookup key) j) (mergeMembers below top) := by
  induction top generalizing below with
  | nil => rfl
  | cons e top ih =>
    obtain ⟨k, j₀⟩ := e
    rw [List.map_cons, List.nodup_cons] at h
    rw [OrderedMap.place]
    split
    · next hk =>
      subst hk
      have hmem : k ∈ (OrderedMap.place k (mergeInto (below.lookup k) j₀) below).map Prod.fst := by
        rw [OrderedMap.map_fst_place]
        split
        · assumption
        · simp
      rw [mergeMembers_cons, mergeMembers_cons, place_mergeMembers _ hmem h.1, OrderedMap.place_place]
    · next hk => rw [mergeMembers_cons, mergeMembers_cons, ih h.2, OrderedMap.lookup_place, if_neg (Ne.symm hk)]

/-! ### Paths -/

/-- The value at the end of a path of keys. -/
def at? : List String → Json → Option Json
  | [], j => some j
  | key :: path, j => (j.get? key).bind (at? path)

/-- Writes `value` at the end of a path, with objects on the way where there is nothing. -/
def setAt (value : Json) : List String → Json → Json
  | [], _ => value
  | key :: path, j =>
    .obj (OrderedMap.place key (setAt value path ((j.get? key).getD (.obj []))) (j.members?.getD []))

/-- As far as it goes, the path leads through objects. -/
def Opens : List String → Json → Prop
  | [], _ => True
  | key :: path, j => ∃ members, j = .obj members ∧ ∀ j' ∈ members.lookup key, Opens path j'

theorem merge_empty {j : Json} {key : String} {path : List String} (h : Opens (key :: path) j) :
    merge j (.obj []) = j := by
  obtain ⟨members, rfl, -⟩ := h
  rfl

theorem opens_merge {path : List String} {base j : Json} (hkeys : j.distinctKeys = true) (hbase : Opens path base)
    (h : Opens path j) : Opens path (merge base j) := by
  induction path generalizing base j with
  | nil => trivial
  | cons key path ih =>
    obtain ⟨below, rfl, hbelow⟩ := hbase
    obtain ⟨members, rfl, hmembers⟩ := h
    obtain ⟨hnodup, hvalues⟩ := distinctKeys_obj_iff.1 hkeys
    refine ⟨_, rfl, fun j' hj' => ?_⟩
    rw [Option.mem_def, lookup_mergeMembers hnodup] at hj'
    split at hj'
    · next j hj =>
      obtain rfl := Option.some.inj hj'
      cases hold : below.lookup key with
      | none => exact hmembers j hj
      | some old => exact ih (hvalues _ ((OrderedMap.lookup_eq_some_iff hnodup).1 hj)) (hbelow old hold) (hmembers j hj)
    · exact hbelow j' hj'

/-- Where there is nothing on top, the merged value has what is below. -/
theorem at?_merge {path : List String} {base j : Json} (hkeys : j.distinctKeys = true) (hbase : Opens path base)
    (h : Opens path j) (hnone : at? path j = none) : at? path (merge base j) = at? path base := by
  induction path generalizing base j with
  | nil => cases hnone
  | cons key path ih =>
    obtain ⟨below, rfl, hbelow⟩ := hbase
    obtain ⟨members, rfl, hmembers⟩ := h
    obtain ⟨hnodup, hvalues⟩ := distinctKeys_obj_iff.1 hkeys
    change ((mergeMembers below members).lookup key).bind (at? path) = (below.lookup key).bind (at? path)
    rw [lookup_mergeMembers hnodup]
    split
    · next j hj =>
      have hnone : at? path j = none := by
        change (members.lookup key).bind (at? path) = none at hnone
        rwa [hj] at hnone
      cases hold : below.lookup key with
      | none => exact hnone
      | some old =>
        exact ih (hvalues _ ((OrderedMap.lookup_eq_some_iff hnodup).1 hj)) (hbelow old hold) (hmembers j hj) hnone
    · rfl

theorem merge_setAt {path : List String} {base j : Json} (hkeys : j.distinctKeys = true) (hbase : Opens path base)
    (h : Opens path j) (hnone : at? path j = none) (value : Json) :
    merge base (setAt value path j) = setAt (mergeInto (at? path base) value) path (merge base j) := by
  induction path generalizing base j with
  | nil => cases hnone
  | cons key path ih =>
    obtain ⟨below, rfl, hbelow⟩ := hbase
    obtain ⟨members, rfl, hmembers⟩ := h
    obtain ⟨hnodup, hvalues⟩ := distinctKeys_obj_iff.1 hkeys
    change
      Json.obj (mergeMembers below (OrderedMap.place key (setAt value path ((members.lookup key).getD (.obj []))) members)) =
        Json.obj (OrderedMap.place key
          (setAt (mergeInto ((below.lookup key).bind (at? path)) value) path
            (((mergeMembers below members).lookup key).getD (.obj []))) (mergeMembers below members))
    rw [mergeMembers_place hnodup, lookup_mergeMembers hnodup]
    refine congrArg Json.obj (congrArg (OrderedMap.place key · _) ?_)
    have hnone : (members.lookup key).bind (at? path) = none := hnone
    cases path with
    | nil => exact congrArg (mergeInto · value) (Option.bind_fun_some ..).symm
    | cons k path =>
      cases hold : below.lookup key with
      | none => cases members.lookup key <;> rfl
      | some old =>
        have hopen := hbelow old hold
        cases hj : members.lookup key with
        | none =>
          refine (ih rfl hopen ⟨[], rfl, by simp⟩ rfl).trans ?_
          rw [merge_empty hopen]
          rfl
        | some j =>
          rw [hj] at hnone
          have hdistinct := hvalues _ ((OrderedMap.lookup_eq_some_iff hnodup).1 hj)
          exact ih hdistinct hopen (hmembers j hj) hnone

end Json

end ChartNormal
