/-!
# Maps that keep the order of their keys

An `OrderedMap` is a list of keys and values in which no key stands twice. Writing under a key that is present keeps
its place; a new key goes last. `keys_insert` and `get?_insert` say so.
-/

namespace ChartNormal

structure OrderedMap (κ α : Type) where
  entries : List (κ × α)
  nodup : (entries.map Prod.fst).Nodup

namespace OrderedMap

variable {κ α β : Type}

theorem ext {m n : OrderedMap κ α} (h : m.entries = n.entries) : m = n := by
  cases m; cases n; cases h; rfl

instance [DecidableEq κ] [DecidableEq α] : DecidableEq (OrderedMap κ α) := fun m n =>
  decidable_of_iff (m.entries = n.entries) ⟨ext, fun h => h ▸ rfl⟩

instance : EmptyCollection (OrderedMap κ α) := ⟨⟨[], List.nodup_nil⟩⟩

instance : Inhabited (OrderedMap κ α) := ⟨∅⟩

def keys (m : OrderedMap κ α) : List κ := m.entries.map Prod.fst

def size (m : OrderedMap κ α) : Nat := m.entries.length

def isEmpty (m : OrderedMap κ α) : Bool := m.entries.isEmpty

section Keyed

variable [DecidableEq κ]

def get? (m : OrderedMap κ α) (key : κ) : Option α := m.entries.lookup key

def contains (m : OrderedMap κ α) (key : κ) : Bool := (m.get? key).isSome

/-- Writes `value` in the first place of `key`, or at the end. -/
def place (key : κ) (value : α) : List (κ × α) → List (κ × α)
  | [] => [(key, value)]
  | (k, v) :: rest => if k = key then (key, value) :: rest else (k, v) :: place key value rest

theorem map_fst_place (key : κ) (value : α) (l : List (κ × α)) :
    (place key value l).map Prod.fst =
      if key ∈ l.map Prod.fst then l.map Prod.fst else l.map Prod.fst ++ [key] := by
  induction l with
  | nil => simp [place]
  | cons e l ih =>
    by_cases h : e.1 = key
    · simp [place, h]
    · have h' : ¬ key = e.1 := fun hk => h hk.symm
      simp only [place, h, if_false, List.map_cons, ih, List.mem_cons, h', false_or]
      split <;> rfl

theorem nodup_place (key : κ) (value : α) {l : List (κ × α)} (h : (l.map Prod.fst).Nodup) :
    ((place key value l).map Prod.fst).Nodup := by
  rw [map_fst_place]
  split
  · exact h
  · rename_i hk
    exact List.nodup_append.2 ⟨h, by simp, by simpa using fun a b hab heq => hk (by simp [← heq]; exact ⟨b, hab⟩)⟩

theorem lookup_cons (k k₀ : κ) (v₀ : α) (l : List (κ × α)) :
    ((k₀, v₀) :: l).lookup k = if k = k₀ then some v₀ else l.lookup k := by
  by_cases h : k = k₀
  · simp [h]
  · simp [List.lookup_cons, h, show (k == k₀) = false by simpa using h]

theorem lookup_place (key k : κ) (value : α) (l : List (κ × α)) :
    (place key value l).lookup k = if k = key then some value else l.lookup k := by
  induction l with
  | nil => simp [place, lookup_cons]
  | cons e l ih =>
    obtain ⟨k₀, v₀⟩ := e
    by_cases h : k₀ = key
    · simp only [place, h, if_true, lookup_cons]
      split <;> rfl
    · simp only [place, h, if_false, lookup_cons, ih]
      by_cases hk : k = key
      · simp [hk, show ¬ key = k₀ from fun he => h he.symm]
      · simp [hk]

def insert (m : OrderedMap κ α) (key : κ) (value : α) : OrderedMap κ α :=
  ⟨place key value m.entries, nodup_place key value m.nodup⟩

@[simp] theorem entries_insert (m : OrderedMap κ α) (key : κ) (value : α) :
    (m.insert key value).entries = place key value m.entries := rfl

theorem keys_insert (m : OrderedMap κ α) (key : κ) (value : α) :
    (m.insert key value).keys = if key ∈ m.keys then m.keys else m.keys ++ [key] :=
  map_fst_place key value m.entries

theorem get?_insert (m : OrderedMap κ α) (key k : κ) (value : α) :
    (m.insert key value).get? k = if k = key then some value else m.get? k :=
  lookup_place key k value m.entries

/-- The entries written one after another: a key keeps its first place and takes its last value. -/
def ofList (l : List (κ × α)) : OrderedMap κ α := l.foldl (fun m e => m.insert e.1 e.2) ∅

/-- The entries of `n` written over those of `m`. -/
def extend (m n : OrderedMap κ α) : OrderedMap κ α := n.entries.foldl (fun m e => m.insert e.1 e.2) m

end Keyed

/-- The entries whose key passes, in their order. -/
def restrict (m : OrderedMap κ α) (keep : κ → Bool) : OrderedMap κ α :=
  ⟨m.entries.filter fun e => keep e.1, m.nodup.sublist (List.filter_sublist.map _)⟩

@[simp] theorem entries_restrict (m : OrderedMap κ α) (keep : κ → Bool) :
    (m.restrict keep).entries = m.entries.filter fun e => keep e.1 := rfl

/-- Without the one entry under `key`; those behind it move up. -/
def erase [DecidableEq κ] (m : OrderedMap κ α) (key : κ) : OrderedMap κ α :=
  ⟨m.entries.eraseP (·.1 = key), m.nodup.sublist (List.eraseP_sublist.map _)⟩

@[simp] theorem entries_erase [DecidableEq κ] (m : OrderedMap κ α) (key : κ) :
    (m.erase key).entries = m.entries.eraseP (·.1 = key) := rfl

/-- Takes an entry out, and gives the value that was there. -/
def remove [DecidableEq κ] (m : OrderedMap κ α) (key : κ) : Option α × OrderedMap κ α := (m.get? key, m.erase key)

def mapValues (f : κ → α → β) (m : OrderedMap κ α) : OrderedMap κ β :=
  ⟨m.entries.map fun e => (e.1, f e.1 e.2), by simpa [Function.comp_def] using m.nodup⟩

@[simp] theorem entries_mapValues (f : κ → α → β) (m : OrderedMap κ α) :
    (m.mapValues f).entries = m.entries.map fun e => (e.1, f e.1 e.2) := rfl

/-- Keeps the values that `f` keeps, under their keys and in their order. -/
def filterMapValues (f : κ → α → Option β) (m : OrderedMap κ α) : OrderedMap κ β :=
  ⟨m.entries.filterMap fun e => (f e.1 e.2).map (e.1, ·), by
    refine m.nodup.sublist ?_
    rw [List.map_filterMap]
    induction m.entries with
    | nil => exact .slnil
    | cons e l ih =>
      cases h : f e.1 e.2 with
      | none => simpa [h] using ih.trans (List.sublist_cons_self _ _)
      | some b => simpa [h] using ih⟩

@[simp] theorem entries_filterMapValues (f : κ → α → Option β) (m : OrderedMap κ α) :
    (m.filterMapValues f).entries = m.entries.filterMap fun e => (f e.1 e.2).map (e.1, ·) := rfl

end OrderedMap

end ChartNormal
