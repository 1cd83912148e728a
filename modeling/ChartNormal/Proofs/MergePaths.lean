import ChartNormal.Proofs.Merge

/-!
# A merged value, path by path

At a path where the top has a value, the merged value has that one merged into what is below (`at?_merge_some`). So it is
the value on top, unless both sides have objects there. Where the top has nothing, the last value of the top on the way
decides: if both sides are objects up to there, the rest of the path is looked up below (`at?_merge_none`). Merging
what is there already changes nothing (`mergeMembers_eq_self`), hence a merge can be repeated, and a value merges into
itself. Nor does it change anything to merge the result over the same value once more (`merge_merge_below`).
-/

namespace ChartNormal

namespace OrderedMap

variable {κ α : Type} [DecidableEq κ]

/-- What stands under a key can be written there again. -/
theorem place_of_lookup {key : κ} {v : α} {l : List (κ × α)} (h : l.lookup key = some v) : place key v l = l := by
  induction l with
  | nil => cases h
  | cons e l ih =>
    obtain ⟨k, w⟩ := e
    rw [lookup_cons] at h
    rw [place]
    by_cases hk : key = k
    · rw [if_pos hk] at h
      rw [if_pos hk.symm, hk, Option.some.inj h]
    · rw [if_neg hk] at h
      rw [if_neg (Ne.symm hk), ih h]

end OrderedMap

namespace Json

/-- Objects are the values that have keys. -/
def isObject : Json → Bool
  | .obj _ => true
  | _ => false

theorem isObject_iff {j : Json} : j.isObject = true ↔ ∃ members, j = .obj members := by
  cases j <;> simp [isObject]

theorem merge_of_not_isObject {base j : Json} (h : (base.isObject && j.isObject) = false) : merge base j = j := by
  cases j with
  | obj top =>
    cases base with
    | obj below => cases h
    | _ => rfl
  | _ => rfl

/-- The keys below in their order, and then those that only the top has. -/
theorem keys_mergeMembers {top : Members} (h : (top.map Prod.fst).Nodup) (below : Members) :
    (mergeMembers below top).map Prod.fst =
      below.map Prod.fst ++ (top.map Prod.fst).filter (· ∉ below.map Prod.fst) := by
  induction top generalizing below with
  | nil => exact (List.append_nil _).symm
  | cons e top ih =>
    obtain ⟨k, j⟩ := e
    rw [List.map_cons, List.nodup_cons] at h
    rw [mergeMembers_cons, ih h.2, OrderedMap.map_fst_place, List.map_cons, List.filter_cons]
    by_cases hk : k ∈ below.map Prod.fst
    · rw [if_pos hk, if_neg (by simpa using hk)]
    · -- the new key stands last below, and does not come again on top
      have hrest : (top.map Prod.fst).filter (· ∉ below.map Prod.fst ++ [k]) =
          (top.map Prod.fst).filter (· ∉ below.map Prod.fst) := by
        refine List.filter_congr fun key hkey => ?_
        have hne : key ≠ k := fun heq => h.1 (heq ▸ hkey)
        simp only [List.mem_append, List.mem_singleton, hne, or_false]
      rw [if_neg hk, if_pos (by simpa using hk), hrest, List.append_assoc, List.singleton_append]

/-! ### Paths -/

theorem at?_append (p q : List String) (j : Json) : at? (p ++ q) j = (at? p j).bind (at? q) := by
  induction p generalizing j with
  | nil => rfl
  | cons key p ih =>
    rw [List.cons_append, at?, at?, Option.bind_assoc]
    exact congrArg _ (funext ih)

/-- Nothing stands below a value that is no object. -/
theorem get?_of_not_isObject {j : Json} (h : j.isObject = false) (key : String) : j.get? key = none := by
  cases j with
  | obj members => cases h
  | _ => rfl

theorem at?_merge_some {path : List String} {base j v : Json} (hkeys : j.distinctKeys = true)
    (hv : at? path j = some v) : at? path (merge base j) = some (mergeInto (at? path base) v) := by
  induction path generalizing base j with
  | nil =>
    obtain rfl := Option.some.inj hv
    rfl
  | cons key path ih =>
    obtain ⟨j', hj', h⟩ := Option.bind_eq_some_iff.1 hv
    cases j with
    | obj top =>
      obtain ⟨hnodup, hvalues⟩ := distinctKeys_obj_iff.1 hkeys
      have hj' : top.lookup key = some j' := hj'
      cases hbase : base.isObject with
      | true =>
        obtain ⟨below, rfl⟩ := isObject_iff.1 hbase
        change ((mergeMembers below top).lookup key).bind (at? path) =
          some (mergeInto ((below.lookup key).bind (at? path)) v)
        rw [lookup_mergeMembers hnodup, hj']
        cases below.lookup key with
        | none => exact h
        | some old => exact ih (hvalues _ ((OrderedMap.lookup_eq_some_iff hnodup).1 hj')) h
      | false =>
        rw [merge_of_not_isObject (by rw [hbase]; rfl), at?, at?, get?_of_not_isObject hbase, Option.bind_none]
        change (top.lookup key).bind (at? path) = some v
        rw [hj']
        exact h
    | _ => cases hj'

/-- The path leads to an object. -/
def holdsObject (path : List String) (j : Json) : Bool := (at? path j).any isObject

/-- `q` is the longest part of the path `p`, from its start, at which there is a value. -/
structure Reaches (j : Json) (p q : List String) : Prop where
  isPrefix : q <+: p
  held : (at? q j).isSome = true
  longest : ∀ q', q' <+: p → (at? q' j).isSome = true → q'.length ≤ q.length

theorem exists_reaches (j : Json) (p : List String) : ∃ q, j.Reaches p q := by
  induction p generalizing j with
  | nil => exact ⟨[], List.prefix_rfl, rfl, fun q' hq' _ => hq'.length_le⟩
  | cons key p ih =>
    cases hj : j.get? key with
    | none =>
      refine ⟨[], List.nil_prefix, rfl, fun q' hq' hheld => ?_⟩
      cases q' with
      | nil => exact Nat.le_refl 0
      | cons k q' =>
        obtain ⟨rfl, -⟩ := List.cons_prefix_cons.1 hq'
        rw [at?, hj] at hheld
        cases hheld
    | some j' =>
      obtain ⟨q, hprefix, hheld, hlongest⟩ := ih j'
      refine ⟨key :: q, List.cons_prefix_cons.2 ⟨rfl, hprefix⟩, ?_, fun q' hq' hheld' => ?_⟩
      · rw [at?, hj]
        exact hheld
      · cases q' with
        | nil => exact Nat.zero_le _
        | cons k q' =>
          obtain ⟨rfl, hrest⟩ := List.cons_prefix_cons.1 hq'
          rw [at?, hj] at hheld'
          exact Nat.succ_le_succ (hlongest q' hrest hheld')

/-- The value that the path reaches does not have the key that comes next. -/
theorem Reaches.get?_eq_none {j v : Json} {q rest : List String} {key : String} (h : j.Reaches (q ++ key :: rest) q)
    (hv : at? q j = some v) : v.get? key = none := by
  by_contra hsome
  have hheld : (at? (q ++ [key]) j).isSome = true := by
    rw [at?_append, hv, Option.bind_some, at?]
    obtain ⟨w, hw⟩ := Option.ne_none_iff_exists'.1 hsome
    rw [hw]
    rfl
  have hprefix : q ++ [key] <+: q ++ key :: rest := (List.prefix_append_right_inj q).2 ⟨rest, rfl⟩
  have hle := h.longest _ hprefix hheld
  rw [List.length_append, List.length_singleton] at hle
  omega

theorem get?_mergeInto {old : Option Json} {v : Json} (hkeys : v.distinctKeys = true) {key : String}
    (h : v.get? key = none) :
    (mergeInto old v).get? key = if v.isObject && old.any isObject then old.bind (·.get? key) else none := by
  cases old with
  | none => rw [Option.any_none, Bool.and_false, if_neg Bool.false_ne_true]; exact h
  | some old =>
    rw [Option.any_some, Option.bind_some]
    cases hobj : old.isObject && v.isObject with
    | true =>
      rw [Bool.and_eq_true] at hobj
      obtain ⟨⟨below, rfl⟩, top, rfl⟩ := hobj.imp isObject_iff.1 isObject_iff.1
      change (mergeMembers below top).lookup key = below.lookup key
      rw [lookup_mergeMembers (distinctKeys_obj_iff.1 hkeys).1, show top.lookup key = none from h]
    | false =>
      rw [Bool.and_comm, hobj, if_neg Bool.false_ne_true, mergeInto, merge_of_not_isObject hobj, h]

theorem distinctKeys_of_at? {path : List String} {j v : Json} (hkeys : j.distinctKeys = true)
    (hv : at? path j = some v) : v.distinctKeys = true := by
  induction path generalizing j with
  | nil => exact Option.some.inj hv ▸ hkeys
  | cons key path ih =>
    obtain ⟨j', hj', h⟩ := Option.bind_eq_some_iff.1 hv
    cases j with
    | obj members =>
      obtain ⟨hnodup, hvalues⟩ := distinctKeys_obj_iff.1 hkeys
      exact ih (hvalues _ ((OrderedMap.lookup_eq_some_iff hnodup).1 hj')) h
    | _ => cases hj'

theorem at?_merge_none {p q : List String} {base j : Json} (hkeys : j.distinctKeys = true) (hnone : at? p j = none)
    (hq : j.Reaches p q) :
    at? p (merge base j) = if holdsObject q j && holdsObject q base then at? p base else none := by
  obtain ⟨v, hv⟩ := Option.isSome_iff_exists.1 hq.held
  obtain ⟨rest, rfl⟩ := hq.isPrefix
  cases rest with
  | nil =>
    rw [List.append_nil, hv] at hnone
    cases hnone
  | cons key rest =>
    rw [at?_append, at?_merge_some hkeys hv, Option.bind_some, at?,
      get?_mergeInto (distinctKeys_of_at? hkeys hv) (hq.get?_eq_none hv), holdsObject, holdsObject, hv, Option.any_some]
    split
    · rw [at?_append, Option.bind_assoc]
      rfl
    · rfl

/-! ### Merging again -/

/-- Members that are there already, and merge into themselves, change nothing. -/
theorem mergeMembers_eq_self {below top : Members}
    (h : ∀ e ∈ top, ∃ old, below.lookup e.1 = some old ∧ merge old e.2 = old) : mergeMembers below top = below := by
  induction top with
  | nil => rfl
  | cons e top ih =>
    obtain ⟨⟨old, hold, hmerge⟩, hrest⟩ := List.forall_mem_cons.1 h
    rw [mergeMembers_cons, hold, mergeInto, hmerge, OrderedMap.place_of_lookup hold]
    exact ih hrest

theorem merge_self {j : Json} (hkeys : j.distinctKeys = true) : merge j j = j := by
  induction j using Json.ind with
  | null | bool | num | str | arr => rfl
  | obj members ih =>
    obtain ⟨hnodup, hvalues⟩ := distinctKeys_obj_iff.1 hkeys
    refine congrArg Json.obj (mergeMembers_eq_self fun e he => ⟨e.2, ?_, ih e he (hvalues e he)⟩)
    exact (OrderedMap.lookup_eq_some_iff hnodup).2 he

theorem merge_merge {base j : Json} (hkeys : j.distinctKeys = true) : merge (merge base j) j = merge base j := by
  induction j using Json.ind generalizing base with
  | null | bool | num | str | arr => rfl
  | obj top ih =>
    cases hbase : base.isObject with
    | false =>
      have hmerge : merge base (.obj top) = .obj top := merge_of_not_isObject (by rw [hbase]; rfl)
      rw [hmerge, merge_self hkeys]
    | true =>
      obtain ⟨below, rfl⟩ := isObject_iff.1 hbase
      obtain ⟨hnodup, hvalues⟩ := distinctKeys_obj_iff.1 hkeys
      refine congrArg Json.obj (mergeMembers_eq_self fun e he => ⟨mergeInto (below.lookup e.1) e.2, ?_, ?_⟩)
      · rw [lookup_mergeMembers hnodup, (OrderedMap.lookup_eq_some_iff hnodup).2 he]
      · cases below.lookup e.1 with
        | none => exact merge_self (hvalues e he)
        | some old => exact ih e he (hvalues e he)

/-- What was merged over a value can be merged over it again. -/
theorem merge_merge_below {base j : Json} (hbase : base.distinctKeys = true) (hj : j.distinctKeys = true) :
    merge base (merge base j) = merge base j := by
  induction j using Json.ind generalizing base with
  | null | bool | num | str | arr => cases base <;> rfl
  | obj top ih =>
    cases hobject : base.isObject with
    | false => exact merge_of_not_isObject (by rw [hobject]; rfl)
    | true =>
      obtain ⟨below, rfl⟩ := isObject_iff.1 hobject
      obtain ⟨hbelow, hbelowValues⟩ := distinctKeys_obj_iff.1 hbase
      obtain ⟨htop, htopValues⟩ := distinctKeys_obj_iff.1 hj
      have hmerged := nodup_mergeMembers hbelow top
      refine congrArg Json.obj (OrderedMap.eq_of_lookup ?_ (nodup_mergeMembers hbelow _) fun key => ?_)
      · rw [keys_mergeMembers hmerged, keys_mergeMembers htop, List.filter_append, List.filter_filter]
        simp
      · rw [lookup_mergeMembers hmerged, lookup_mergeMembers htop]
        cases hold : below.lookup key with
        | none => cases top.lookup key <;> rfl
        | some old =>
          have holdKeys := hbelowValues _ ((OrderedMap.lookup_eq_some_iff hbelow).1 hold)
          cases hnew : top.lookup key with
          | none => exact congrArg some (merge_self holdKeys)
          | some new =>
            have hmem := (OrderedMap.lookup_eq_some_iff htop).1 hnew
            exact congrArg some (ih _ hmem holdKeys (htopValues _ hmem))

/-! ### Plain values below -/

/-- Where the top has all the keys, values below that are no objects do not show. -/
theorem lookup_mergeMembers_plain {below top : Members} (hbelow : (below.map Prod.fst).Nodup)
    (htop : (top.map Prod.fst).Nodup) (hplain : ∀ e ∈ below, e.2.isObject = false)
    (hkeys : below.map Prod.fst ⊆ top.map Prod.fst) (key : String) :
    (mergeMembers below top).lookup key = top.lookup key := by
  rw [lookup_mergeMembers htop]
  cases hnew : top.lookup key with
  | none => exact OrderedMap.lookup_eq_none_iff.2 fun hmem => OrderedMap.lookup_eq_none_iff.1 hnew (hkeys hmem)
  | some j =>
    cases hold : below.lookup key with
    | none => rfl
    | some old =>
      have hold := hplain _ ((OrderedMap.lookup_eq_some_iff hbelow).1 hold)
      exact congrArg some (merge_of_not_isObject (by rw [hold]; rfl))

/-- Members under keys that are not known come from the top, in its order. -/
theorem filter_mergeMembers {known : List String} {below top : Members} (htop : (top.map Prod.fst).Nodup)
    (hknown : ∀ key ∈ top.map Prod.fst, key ∈ below.map Prod.fst → key ∈ known) :
    (mergeMembers below top).filter (fun e => e.1 ∉ known) =
      below.filter (fun e => e.1 ∉ known) ++ top.filter fun e => e.1 ∉ known := by
  induction top generalizing below with
  | nil => simp [mergeMembers]
  | cons e top ih =>
    obtain ⟨k, j⟩ := e
    rw [List.map_cons, List.nodup_cons] at htop
    obtain ⟨hk, hrest⟩ := List.forall_mem_cons.1 hknown
    rw [mergeMembers_cons, ih htop.2]
    · by_cases hmem : k ∈ known
      · rw [OrderedMap.filter_place hmem, List.filter_cons_of_neg (by simpa using hmem)]
      · have hfresh : k ∉ below.map Prod.fst := fun h => hmem (hk h)
        rw [OrderedMap.lookup_eq_none_iff.2 hfresh, OrderedMap.place_of_notMem _ hfresh, List.filter_append,
          List.filter_cons_of_pos (by simpa using hmem), List.filter_cons_of_pos (by simpa using hmem), List.filter_nil,
          List.append_assoc, List.singleton_append]
        rfl
    · intro key hkey hplace
      refine hrest key hkey ?_
      rw [OrderedMap.map_fst_place] at hplace
      split at hplace
      · exact hplace
      · rcases List.mem_append.1 hplace with h | h
        · exact h
        · exact absurd (List.mem_singleton.1 h ▸ hkey) htop.1

/-! ### The law of paths -/

/-- **Merging, path by path.** Where the top has a value, the merged value has it too, unless both sides have objects there:
then the keys below come first, in their order, and those that only the top has follow. Where the top has nothing, its
last value on the way decides: if both sides have objects there, the path leads on below, and else it leads nowhere.
So a merge can be repeated, and a value merges into itself, in the same order of keys. -/
theorem merge_by_paths {base top : Json} (hbase : base.distinctKeys = true) (htop : top.distinctKeys = true) :
    (∀ p v, at? p top = some v →
      ((holdsObject p base && v.isObject) = false → at? p (merge base top) = some v) ∧
      ∀ below members, at? p base = some (.obj below) → v = .obj members →
        ∃ merged, at? p (merge base top) = some (.obj merged) ∧
          merged.map Prod.fst = below.map Prod.fst ++ (members.map Prod.fst).filter (· ∉ below.map Prod.fst)) ∧
    (∀ p, at? p top = none →
      (∃ q, top.Reaches p q) ∧
      ∀ q, top.Reaches p q →
        at? p (merge base top) = if holdsObject q top && holdsObject q base then at? p base else none) ∧
    merge (merge base top) top = merge base top ∧ merge base base = base := by
  refine ⟨fun p v hv => ⟨fun hobj => ?_, ?_⟩, fun p hnone => ⟨exists_reaches top p, fun q hq => ?_⟩,
    merge_merge htop, merge_self hbase⟩
  · rw [at?_merge_some htop hv]
    cases hold : at? p base with
    | none => rfl
    | some old =>
      rw [holdsObject, hold, Option.any_some] at hobj
      rw [mergeInto, merge_of_not_isObject hobj]
  · rintro below members hbelow rfl
    have hnodup := (distinctKeys_obj_iff.1 (distinctKeys_of_at? htop hv)).1
    exact ⟨mergeMembers below members, by rw [at?_merge_some htop hv, hbelow]; rfl, keys_mergeMembers hnodup below⟩
  · exact at?_merge_none htop hnone hq

/-- Settings of a box plot over defaults: a part that is switched off takes its colour with it, and a new one comes last. -/
theorem merge_by_paths_box :
    let base : Json := .obj
      [("box", .obj [("size", .num (.int 14)), ("mid", .obj [("color", .str "white")])]), ("grid", .null)]
    let top : Json := .obj [("axis", .obj []), ("box", .obj [("extent", .str "min-max"), ("mid", .bool false)])]
    (base.distinctKeys = true ∧ top.distinctKeys = true) ∧
      at? ["box", "mid"] (merge base top) = some (.bool false) ∧
      at? ["box", "mid", "color"] (merge base top) = none ∧
      (∃ merged, at? ["box"] (merge base top) = some (.obj merged) ∧ merged.map Prod.fst = ["size", "mid", "extent"]) ∧
      merge (merge base top) top = merge base top := by
  intro base top
  have hkeys : base.distinctKeys = true ∧ top.distinctKeys = true := by decide
  obtain ⟨hsome, hnone, hagain, -⟩ := merge_by_paths hkeys.1 hkeys.2
  have hreach : top.Reaches ["box", "mid", "color"] ["box", "mid"] := by
    refine ⟨by decide, rfl, fun q hq hheld => ?_⟩
    by_contra hlong
    obtain rfl := hq.eq_of_length_le (Nat.not_le.1 hlong)
    cases hheld
  refine ⟨hkeys, (hsome _ _ rfl).1 rfl, ?_, ?_, hagain⟩
  · exact (hnone _ rfl).2 _ hreach
  · exact (hsome ["box"] _ rfl).2 _ _ rfl rfl

end Json

end ChartNormal
