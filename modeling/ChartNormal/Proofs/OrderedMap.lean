import ChartNormal.OrderedMap
import Mathlib.Data.List.Nodup

/-!
# Look-ups in ordered maps

An entry of a map is what a look-up of its key gives (`get?_eq_some_iff`), so that two views of a map, its list of entries
and its look-ups, can be exchanged. Each operation is described through look-ups; `ofList` and `extend` write entries
one after another, and where no key repeats they leave the list as it is (`entries_ofList`). Keys and look-ups together
determine a map (`ext_get?`), which gives the laws of `extend`: it is associative, and restriction distributes over it.
-/

namespace ChartNormal

namespace OrderedMap

variable {κ α β : Type}

/-! ### Members -/

theorem mem_keys_of_mem {m : OrderedMap κ α} {e : κ × α} (h : e ∈ m.entries) : e.1 ∈ m.keys :=
  List.mem_map.2 ⟨e, h, rfl⟩

theorem mem_restrict {m : OrderedMap κ α} {keep : κ → Bool} {e : κ × α} :
    e ∈ (m.restrict keep).entries ↔ e ∈ m.entries ∧ keep e.1 = true := by
  rw [entries_restrict, List.mem_filter]

theorem keys_restrict (m : OrderedMap κ α) (keep : κ → Bool) : (m.restrict keep).keys = m.keys.filter keep := by
  rw [keys, keys, entries_restrict, List.filter_map]
  rfl

theorem mem_filterMapValues {f : κ → α → Option β} {m : OrderedMap κ α} {k : κ} {b : β} :
    (k, b) ∈ (m.filterMapValues f).entries ↔ ∃ a, (k, a) ∈ m.entries ∧ f k a = some b := by
  rw [entries_filterMapValues, List.mem_filterMap]
  constructor
  · rintro ⟨⟨k', a⟩, ha, he⟩
    obtain ⟨b', hb', he⟩ := Option.map_eq_some_iff.1 he
    obtain ⟨rfl, rfl⟩ := Prod.mk.injEq .. ▸ he
    exact ⟨a, ha, hb'⟩
  · rintro ⟨a, ha, hb⟩
    exact ⟨(k, a), ha, by simp [hb]⟩

/-- Nothing is lost when every value is kept as it is. -/
theorem filterMapValues_eq_self {f : κ → α → Option α} {m : OrderedMap κ α}
    (h : ∀ e ∈ m.entries, f e.1 e.2 = some e.2) : m.filterMapValues f = m := by
  refine ext ?_
  rw [entries_filterMapValues]
  refine Eq.trans (List.filterMap_congr fun e he => ?_) List.filterMap_some
  rw [h e he, Option.map_some]

section Keyed

variable [DecidableEq κ]

/-! ### Entries and look-ups -/

lemma lookup_eq_some_iff {l : List (κ × α)} (h : (l.map Prod.fst).Nodup) {k : κ} {v : α} :
    l.lookup k = some v ↔ (k, v) ∈ l := by
  induction l with
  | nil => simp
  | cons e l ih =>
    obtain ⟨k₀, v₀⟩ := e
    rw [List.map_cons, List.nodup_cons] at h
    rw [lookup_cons, List.mem_cons, Prod.mk.injEq]
    by_cases hk : k = k₀
    · subst hk
      have hl : (k, v) ∉ l := fun hv => h.1 (List.mem_map.2 ⟨_, hv, rfl⟩)
      simp [hl, eq_comm]
    · simp [hk, ih h.2]

theorem get?_eq_some_iff {m : OrderedMap κ α} {k : κ} {v : α} : m.get? k = some v ↔ (k, v) ∈ m.entries :=
  lookup_eq_some_iff m.nodup

/-- Where no key repeats, what stands under a key is what a look-up finds. -/
lemma filter_of_nodup {l : List (κ × α)} (h : (l.map Prod.fst).Nodup) (key : κ) :
    l.filter (·.1 = key) = (l.lookup key).toList.map (key, ·) := by
  induction l with
  | nil => rfl
  | cons e l ih =>
    obtain ⟨k, v⟩ := e
    rw [List.map_cons, List.nodup_cons] at h
    rw [lookup_cons, List.filter_cons]
    by_cases hk : k = key
    · have hrest : l.filter (·.1 = key) = [] := by
        rw [List.filter_eq_nil_iff]
        intro e he hek
        exact h.1 (hk ▸ List.mem_map.2 ⟨e, he, by simpa using hek⟩)
      simp [hk, hrest]
    · simpa [hk, eq_comm (a := key)] using ih h.2

theorem lookup_eq_none_iff {key : κ} {l : List (κ × α)} : l.lookup key = none ↔ key ∉ l.map Prod.fst := by
  rw [List.lookup_eq_none_iff, List.mem_map]
  constructor
  · rintro h ⟨e, he, rfl⟩
    simpa using h e he
  · intro h e he
    rw [bne_iff_ne]
    rintro rfl
    exact h ⟨e, he, rfl⟩

/-- A look-up finds the first one. -/
theorem lookup_eq_head? (l : List (κ × α)) (key : κ) : l.lookup key = (l.filter (·.1 = key)).head?.map Prod.snd := by
  induction l with
  | nil => rfl
  | cons e l ih =>
    rw [lookup_cons, List.filter_cons]
    by_cases hkey : e.1 = key
    · rw [if_pos hkey.symm, if_pos (decide_eq_true hkey)]
      rfl
    · rw [if_neg (Ne.symm hkey), if_neg (by simpa using hkey), ih]

/-- A list is its keys, and what stands under each of them. -/
theorem eq_of_lookup {l l' : List (κ × α)} (hkeys : l.map Prod.fst = l'.map Prod.fst) (hnodup : (l.map Prod.fst).Nodup)
    (h : ∀ key, l.lookup key = l'.lookup key) : l = l' := by
  induction l generalizing l' with
  | nil => exact (List.map_eq_nil_iff.1 hkeys.symm).symm
  | cons e l ih =>
    obtain ⟨k, v⟩ := e
    obtain ⟨⟨k', v'⟩, rest, rfl, rfl, hrest⟩ := List.map_eq_cons_iff.1 hkeys.symm
    rw [List.map_cons, List.nodup_cons] at hnodup
    have hvalue := h k'
    rw [lookup_cons, lookup_cons, if_pos rfl, if_pos rfl] at hvalue
    rw [Option.some.inj hvalue, ih hrest.symm hnodup.2]
    intro key
    by_cases hk : key = k'
    · rw [lookup_eq_none_iff.2 (hk ▸ hnodup.1), lookup_eq_none_iff.2 (hrest ▸ hk ▸ hnodup.1)]
    · have hkey := h key
      rwa [lookup_cons, lookup_cons, if_neg hk, if_neg hk] at hkey

/-- A map is its keys in their order, and what a look-up finds under each of them. -/
theorem ext_get? {m n : OrderedMap κ α} (hkeys : m.keys = n.keys) (h : ∀ k, m.get? k = n.get? k) : m = n :=
  ext (eq_of_lookup hkeys m.nodup h)

theorem contains_iff_mem_keys {m : OrderedMap κ α} {k : κ} : m.contains k = true ↔ k ∈ m.keys := by
  simp only [contains, keys, Option.isSome_iff_exists, get?_eq_some_iff, List.mem_map, Prod.exists,
    exists_and_right, exists_eq_right]

theorem contains_iff {m : OrderedMap κ α} {k : κ} : m.contains k = true ↔ ∃ v, (k, v) ∈ m.entries := by
  simp only [contains, Option.isSome_iff_exists, get?_eq_some_iff]

theorem contains_eq_false_iff {m : OrderedMap κ α} {k : κ} : m.contains k = false ↔ k ∉ m.keys := by
  rw [← contains_iff_mem_keys, Bool.not_eq_true]

/-! ### Restriction and maps on values -/

theorem get?_restrict (m : OrderedMap κ α) (keep : κ → Bool) (k : κ) :
    (m.restrict keep).get? k = if keep k then m.get? k else none := by
  ext v
  rw [get?_eq_some_iff, mem_restrict, ← get?_eq_some_iff]
  split <;> simp_all

/-- Where no key repeats, the one entry that is taken out is all there is under the key. -/
lemma eraseP_of_nodup {l : List (κ × α)} (h : (l.map Prod.fst).Nodup) (key : κ) :
    l.eraseP (·.1 = key) = l.filter (·.1 ≠ key) := by
  induction l with
  | nil => rfl
  | cons e l ih =>
    rw [List.map_cons, List.nodup_cons] at h
    by_cases hkey : e.1 = key
    · have hrest : l.filter (·.1 ≠ key) = l := by
        refine List.filter_eq_self.2 fun e' he' => decide_eq_true ?_
        rintro rfl
        exact h.1 (hkey ▸ List.mem_map_of_mem he')
      rw [List.eraseP_cons_of_pos (by simpa using hkey), List.filter_cons_of_neg (by simpa using hkey), hrest]
    · rw [List.eraseP_cons_of_neg (by simpa using hkey), List.filter_cons_of_pos (by simpa using hkey), ih h.2]

theorem erase_eq_restrict (m : OrderedMap κ α) (key : κ) : m.erase key = m.restrict (· ≠ key) :=
  ext (eraseP_of_nodup m.nodup key)

theorem get?_erase (m : OrderedMap κ α) (key k : κ) : (m.erase key).get? k = if k = key then none else m.get? k := by
  rw [erase_eq_restrict, get?_restrict]
  by_cases hk : k = key <;> simp [hk]

theorem get?_filterMapValues (f : κ → α → Option β) (m : OrderedMap κ α) (k : κ) :
    (m.filterMapValues f).get? k = (m.get? k).bind (f k) := by
  ext b
  rw [get?_eq_some_iff, mem_filterMapValues, Option.bind_eq_some_iff]
  simp only [get?_eq_some_iff]

/-! ### Writing entries one after another -/

theorem get?_extend (m n : OrderedMap κ α) (k : κ) : (m.extend n).get? k = (n.get? k).or (m.get? k) := by
  obtain ⟨l, hl⟩ := n
  show (l.foldl (fun m e => m.insert e.1 e.2) m).get? k = (l.lookup k).or (m.get? k)
  induction l generalizing m with
  | nil => rfl
  | cons e l ih =>
    rw [List.map_cons, List.nodup_cons] at hl
    rw [List.foldl_cons, ih _ hl.2, get?_insert, lookup_cons]
    by_cases hk : k = e.1
    · -- the key is written here and not again later
      have hnone : l.lookup k = none := by
        rw [Option.eq_none_iff_forall_ne_some]
        intro v hv
        exact hl.1 (List.mem_map.2 ⟨_, (lookup_eq_some_iff hl.2).1 hv, hk⟩)
      simp [hk ▸ hnone, hk]
    · simp [hk]

theorem mem_extend {m n : OrderedMap κ α} {e : κ × α} (h : e ∈ (m.extend n).entries) :
    e ∈ n.entries ∨ e ∈ m.entries := by
  obtain ⟨k, v⟩ := e
  rw [← get?_eq_some_iff, get?_extend, Option.or_eq_some_iff] at h
  rcases h with h | ⟨-, h⟩
  · exact .inl (get?_eq_some_iff.1 h)
  · exact .inr (get?_eq_some_iff.1 h)

theorem mem_insert {m : OrderedMap κ α} {key : κ} {value : α} {e : κ × α} (h : e ∈ (m.insert key value).entries) :
    e = (key, value) ∨ e ∈ m.entries := by
  obtain ⟨k, v⟩ := e
  rw [← get?_eq_some_iff, get?_insert] at h
  split at h
  · next hk => exact .inl (by rw [hk, Option.some.inj h])
  · exact .inr (get?_eq_some_iff.1 h)

lemma place_of_notMem {key : κ} (value : α) {l : List (κ × α)} (h : key ∉ l.map Prod.fst) :
    place key value l = l ++ [(key, value)] := by
  induction l with
  | nil => rfl
  | cons e l ih =>
    rw [List.map_cons, List.mem_cons, not_or] at h
    rw [place, if_neg (Ne.symm h.1), ih h.2, List.cons_append]

lemma entries_foldl_insert (l : List (κ × α)) (m : OrderedMap κ α)
    (h : ((m.entries ++ l).map Prod.fst).Nodup) :
    (l.foldl (fun m e => m.insert e.1 e.2) m).entries = m.entries ++ l := by
  induction l generalizing m with
  | nil => simp
  | cons e l ih =>
    have hm : e.1 ∉ m.entries.map Prod.fst := by
      rw [List.map_append, List.map_cons] at h
      exact fun he => List.disjoint_of_nodup_append h he List.mem_cons_self
    have hins : (m.insert e.1 e.2).entries = m.entries ++ [e] := place_of_notMem e.2 hm
    rw [List.foldl_cons, ih, hins, List.append_assoc, List.singleton_append]
    rwa [hins, List.append_assoc, List.singleton_append]

theorem entries_ofList {l : List (κ × α)} (h : (l.map Prod.fst).Nodup) : (ofList l).entries = l :=
  entries_foldl_insert l ∅ h

theorem ofList_entries (m : OrderedMap κ α) : ofList m.entries = m := ext (entries_ofList m.nodup)

theorem isEmpty_insert (m : OrderedMap κ α) (key : κ) (value : α) : (m.insert key value).isEmpty = false := by
  rw [isEmpty, entries_insert]
  cases m.entries with
  | nil => rfl
  | cons e l =>
    rw [place]
    split <;> rfl

theorem isEmpty_foldl_insert (l : List (κ × α)) (m : OrderedMap κ α) :
    (l.foldl (fun m e => m.insert e.1 e.2) m).isEmpty = (m.isEmpty && l.isEmpty) := by
  induction l generalizing m with
  | nil => rw [List.foldl_nil, List.isEmpty_nil, Bool.and_true]
  | cons e l ih => rw [List.foldl_cons, ih, isEmpty_insert, List.isEmpty_cons, Bool.false_and, Bool.and_false]

theorem isEmpty_ofList (l : List (κ × α)) : (ofList l).isEmpty = l.isEmpty := isEmpty_foldl_insert l ∅

theorem mem_ofList {l : List (κ × α)} {e : κ × α} (h : e ∈ (ofList l).entries) : e ∈ l := by
  have hfold : ∀ m : OrderedMap κ α, e ∈ (l.foldl (fun m e => m.insert e.1 e.2) m).entries → e ∈ m.entries ∨ e ∈ l := by
    clear h
    induction l with
    | nil => exact fun m h => .inl h
    | cons e' l ih =>
      intro m h
      rcases ih _ h with h | h
      · rcases mem_insert h with rfl | h
        exacts [.inr List.mem_cons_self, .inl h]
      · exact .inr (List.mem_cons_of_mem _ h)
  rcases hfold ∅ h with h | h
  · cases h
  · exact h

/-- Of the entries under a key the last one counts. -/
theorem get?_ofList (l : List (κ × α)) (key : κ) :
    (ofList l).get? key = (l.filter (·.1 = key)).getLast?.map Prod.snd := by
  have hfold : ∀ m : OrderedMap κ α, (l.foldl (fun m e => m.insert e.1 e.2) m).get? key =
      ((l.filter (·.1 = key)).getLast?.map Prod.snd).or (m.get? key) := by
    induction l with
    | nil => exact fun m => rfl
    | cons e l ih =>
      intro m
      rw [List.foldl_cons, ih, get?_insert, List.filter_cons]
      by_cases hkey : e.1 = key
      · rw [if_pos hkey.symm, if_pos (decide_eq_true hkey), List.getLast?_cons]
        cases (l.filter (·.1 = key)).getLast? <;> rfl
      · rw [if_neg (Ne.symm hkey), if_neg (by simpa using hkey)]
  rw [ofList, hfold]
  exact Option.or_none

/-! ### The order of keys -/

/-- Keys that are there keep their places. Of the others each goes last when it is written for the first time. -/
theorem keys_foldl_insert (l : List (κ × α)) (m : OrderedMap κ α) :
    (l.foldl (fun m e => m.insert e.1 e.2) m).keys = m.keys ++ ((l.map Prod.fst).filter (· ∉ m.keys)).eraseDups := by
  induction l generalizing m with
  | nil => exact (List.append_nil _).symm
  | cons e l ih =>
    rw [List.foldl_cons, ih, keys_insert, List.map_cons]
    by_cases hmem : e.1 ∈ m.keys
    · rw [if_pos hmem, List.filter_cons_of_neg (by simpa using hmem)]
    · rw [if_neg hmem, List.filter_cons_of_pos (by simpa using hmem), List.eraseDups_cons, List.append_assoc,
        List.singleton_append, List.filter_filter]
      refine congrArg (fun rest => m.keys ++ e.1 :: List.eraseDups rest) (List.filter_congr fun k _ => ?_)
      simp [and_comm, Bool.beq_eq_decide_eq]

theorem keys_ofList (l : List (κ × α)) : (ofList l).keys = (l.map Prod.fst).eraseDups := by
  have hnew : (l.map Prod.fst).filter (· ∉ (∅ : OrderedMap κ α).keys) = l.map Prod.fst :=
    List.filter_eq_self.2 fun k _ => decide_eq_true List.not_mem_nil
  refine (keys_foldl_insert l ∅).trans ?_
  rw [hnew]
  rfl

lemma eraseDups_of_nodup {l : List κ} (h : l.Nodup) : l.eraseDups = l := by
  induction l with
  | nil => rfl
  | cons k l ih =>
    rw [List.nodup_cons] at h
    have hrest : l.filter (fun k' => !k' == k) = l := by
      refine List.filter_eq_self.2 fun k' hk' => ?_
      rw [Bool.not_eq_true', beq_eq_false_iff_ne]
      rintro rfl
      exact h.1 hk'
    rw [List.eraseDups_cons, hrest, ih h.2]

theorem keys_erase (m : OrderedMap κ α) (key : κ) : (m.erase key).keys = m.keys.erase key := by
  rw [keys, keys, entries_erase, List.erase_eq_eraseP', List.eraseP_map]
  rfl

theorem keys_extend (m n : OrderedMap κ α) : (m.extend n).keys = m.keys ++ n.keys.filter (· ∉ m.keys) := by
  rw [extend, keys_foldl_insert, eraseDups_of_nodup (n.nodup.filter _)]
  rfl

/-- On both sides the keys of `m` come first, then those that `n` adds to them, then those that only `o` has. -/
theorem extend_assoc (m n o : OrderedMap κ α) : (m.extend n).extend o = m.extend (n.extend o) := by
  refine ext_get? ?_ fun k => ?_
  · rw [keys_extend, keys_extend, keys_extend, keys_extend, List.filter_append, List.append_assoc, List.filter_filter]
    congr 2
    refine List.filter_congr fun k _ => ?_
    by_cases hk : k ∈ m.keys <;> simp [hk]
  · rw [get?_extend, get?_extend, get?_extend, get?_extend, Option.or_assoc]

theorem restrict_extend (m n : OrderedMap κ α) (keep : κ → Bool) :
    (m.extend n).restrict keep = (m.restrict keep).extend (n.restrict keep) := by
  refine ext_get? ?_ fun k => ?_
  · rw [keys_restrict, keys_extend, keys_extend, keys_restrict, keys_restrict, List.filter_append, List.filter_filter,
      List.filter_filter]
    congr 1
    refine List.filter_congr fun k _ => ?_
    cases hk : keep k <;> simp [hk]
  · rw [get?_restrict, get?_extend, get?_extend, get?_restrict, get?_restrict]
    split <;> rfl

end Keyed

/-! ### Other keys -/

/-- The same values in the same places, under other keys. -/
def mapKeys (f : κ → κ) (hf : Function.Injective f) (m : OrderedMap κ α) : OrderedMap κ α :=
  ⟨m.entries.map fun e => (f e.1, e.2), by
    have hkeys : (m.entries.map fun e => (f e.1, e.2)).map Prod.fst = m.keys.map f := by
      rw [keys, List.map_map, List.map_map]; rfl
    rw [hkeys]
    exact m.nodup.map hf⟩

lemma place_map [DecidableEq κ] {f : κ → κ} (hf : Function.Injective f) (key : κ) (value : α) (l : List (κ × α)) :
    place (f key) value (l.map fun e => (f e.1, e.2)) = (place key value l).map fun e => (f e.1, e.2) := by
  induction l with
  | nil => rfl
  | cons e l ih =>
    by_cases h : e.1 = key
    · rw [List.map_cons, place, place, if_pos h, if_pos (congrArg f h), List.map_cons]
    · rw [List.map_cons, place, place, if_neg h, if_neg (hf.ne h), ih, List.map_cons]

section MapKeys

variable {f : κ → κ} (hf : Function.Injective f)

@[simp] theorem entries_mapKeys (m : OrderedMap κ α) :
    (m.mapKeys f hf).entries = m.entries.map fun e => (f e.1, e.2) := rfl

theorem keys_mapKeys (m : OrderedMap κ α) : (m.mapKeys f hf).keys = m.keys.map f := by
  rw [keys, entries_mapKeys, keys, List.map_map, List.map_map]
  rfl

theorem restrict_mapKeys (m : OrderedMap κ α) (keep : κ → Bool) :
    (m.mapKeys f hf).restrict keep = (m.restrict fun k => keep (f k)).mapKeys f hf := by
  refine ext ?_
  rw [entries_restrict, entries_mapKeys, entries_mapKeys, entries_restrict, List.filter_map]
  rfl

theorem filterMapValues_mapKeys (g : κ → α → Option β) (m : OrderedMap κ α) :
    (m.mapKeys f hf).filterMapValues g = (m.filterMapValues fun k => g (f k)).mapKeys f hf := by
  refine ext ?_
  rw [entries_filterMapValues, entries_mapKeys, entries_mapKeys, entries_filterMapValues, List.filterMap_map,
    List.map_filterMap]
  refine List.filterMap_congr fun e _ => ?_
  rw [Function.comp, Option.map_map]
  rfl

theorem mapValues_mapKeys (g : α → β) (m : OrderedMap κ α) :
    (m.mapKeys f hf).mapValues (fun _ => g) = (m.mapValues fun _ => g).mapKeys f hf := by
  refine ext ?_
  rw [entries_mapValues, entries_mapKeys, entries_mapKeys, entries_mapValues, List.map_map, List.map_map]
  rfl

variable [DecidableEq κ]

theorem get?_mapKeys (m : OrderedMap κ α) (k : κ) : (m.mapKeys f hf).get? (f k) = m.get? k := by
  ext v
  rw [get?_eq_some_iff, get?_eq_some_iff, entries_mapKeys, List.mem_map]
  constructor
  · rintro ⟨⟨k', v'⟩, h, he⟩
    obtain ⟨hk, rfl⟩ := Prod.mk.injEq .. ▸ he
    exact hf hk ▸ h
  · exact fun h => ⟨(k, v), h, rfl⟩

theorem insert_mapKeys (m : OrderedMap κ α) (key : κ) (value : α) :
    (m.mapKeys f hf).insert (f key) value = (m.insert key value).mapKeys f hf :=
  ext (place_map hf key value m.entries)

theorem extend_mapKeys (m n : OrderedMap κ α) :
    (m.mapKeys f hf).extend (n.mapKeys f hf) = (m.extend n).mapKeys f hf := by
  rw [extend, extend, entries_mapKeys, List.foldl_map]
  generalize n.entries = l
  induction l generalizing m with
  | nil => rfl
  | cons e l ih => rw [List.foldl_cons, List.foldl_cons, insert_mapKeys, ih]

end MapKeys

/-! ### Other values -/

section MapValues

variable [DecidableEq κ] (g : κ → α → β)

theorem get?_mapValues (m : OrderedMap κ α) (k : κ) : (m.mapValues g).get? k = (m.get? k).map (g k) := by
  ext v
  rw [get?_eq_some_iff, entries_mapValues, List.mem_map, Option.map_eq_some_iff]
  constructor
  · rintro ⟨⟨k', v'⟩, h, he⟩
    obtain ⟨rfl, rfl⟩ := Prod.mk.injEq .. ▸ he
    exact ⟨v', get?_eq_some_iff.2 h, rfl⟩
  · rintro ⟨v', h, rfl⟩
    exact ⟨(k, v'), get?_eq_some_iff.1 h, rfl⟩

theorem insert_mapValues (m : OrderedMap κ α) (key : κ) (value : α) :
    (m.insert key value).mapValues g = (m.mapValues g).insert key (g key value) := by
  refine ext ?_
  rw [entries_mapValues, entries_insert, entries_insert, entries_mapValues]
  induction m.entries with
  | nil => rfl
  | cons e l ih =>
    by_cases h : e.1 = key
    · rw [List.map_cons, place, place, if_pos h, if_pos h, List.map_cons]
    · rw [List.map_cons, place, place, if_neg h, if_neg h, List.map_cons, ih]

theorem foldl_insert_mapValues (l : List (κ × α)) (m : OrderedMap κ α) :
    (l.foldl (fun m e => m.insert e.1 e.2) m).mapValues g =
      (l.map fun e => (e.1, g e.1 e.2)).foldl (fun m e => m.insert e.1 e.2) (m.mapValues g) := by
  induction l generalizing m with
  | nil => rfl
  | cons e l ih => rw [List.foldl_cons, ih, insert_mapValues, List.map_cons, List.foldl_cons]

theorem ofList_mapValues (l : List (κ × α)) : (ofList l).mapValues g = ofList (l.map fun e => (e.1, g e.1 e.2)) :=
  foldl_insert_mapValues g l ∅

theorem extend_mapValues (m n : OrderedMap κ α) :
    (m.extend n).mapValues g = (m.mapValues g).extend (n.mapValues g) :=
  foldl_insert_mapValues g n.entries m

end MapValues

end OrderedMap

end ChartNormal
