import ChartNormal.Proofs.Lockstep
import Mathlib.Data.String.Basic
import Mathlib.Tactic.SplitIfs

/-!
# Registries

What a registry holds after any sequence of calls is settled tag by tag, by the last call that names the tag
(`get?_run`), and its tags stand in the order of their bytes (`bytes_lt`). A normalizer whose composite marks are the
standard ones, under whatever tags, never comes to a mark that is not in the specification, so a tag that no unit
has can be registered and unregistered freely (`normalize_of_sameBut`).
-/

namespace ChartNormal

/-! ### The order of bytes -/

/-- The bytes of a text in UTF-8. -/
def bytes (s : String) : List UInt8 := s.toUTF8.data.toList

theorem bytes_eq (s : String) : bytes s = s.toList.flatMap String.utf8EncodeChar := by
  rw [bytes, String.toUTF8_eq_toByteArray, ← String.utf8Encode_toList, List.utf8Encode]
  simp

theorem cons_byte_lt {m n : Nat} (hm : m < 256) (hn : n < 256) (hle : m ≤ n) {x y : List UInt8} (h : m = n → x < y) :
    UInt8.ofNat m :: x < UInt8.ofNat n :: y := by
  rw [List.cons_lt_cons_iff]
  rcases Nat.lt_or_eq_of_le hle with hlt | rfl
  · exact .inl ((UInt8.ofNat_lt_iff_lt hm hn).2 hlt)
  · exact .inr ⟨rfl, h rfl⟩

/-- The codes of two characters differ before one of them ends, and the first byte that does is smaller. -/
theorem utf8EncodeChar_lt {a b : Char} (h : a < b) (x y : List UInt8) :
    String.utf8EncodeChar a ++ x < String.utf8EncodeChar b ++ y := by
  have hlt : a.val.toNat < b.val.toNat := h
  have hb : b.val.toNat < 0x110000 := by
    rcases b.valid with hvalid | hvalid
    · exact Nat.lt_trans hvalid (by decide)
    · exact hvalid.2
  unfold String.utf8EncodeChar
  generalize a.val.toNat = m at hlt ⊢
  generalize b.val.toNat = n at hlt hb ⊢
  dsimp only
  -- codes of two lengths differ in the first byte; all bytes alike would make the characters equal
  split_ifs
  all_goals
    simp only [List.cons_append, List.nil_append]
    repeat refine cons_byte_lt (by omega) (by omega) (by omega) fun _ => ?_
    omega

theorem flatMap_utf8EncodeChar_lt {l m : List Char} (h : l < m) :
    l.flatMap String.utf8EncodeChar < m.flatMap String.utf8EncodeChar := by
  induction l generalizing m with
  | nil =>
    cases m with
    | nil => cases h
    | cons b m =>
      obtain ⟨byte, rest, hcode⟩ := List.exists_cons_of_length_pos (String.length_utf8EncodeChar b ▸ b.utf8Size_pos)
      rw [List.flatMap_cons, hcode]
      exact List.nil_lt_cons ..
  | cons a l ih =>
    cases m with
    | nil => cases h
    | cons b m =>
      rw [List.flatMap_cons, List.flatMap_cons]
      rcases List.cons_lt_cons_iff.1 h with hlt | ⟨rfl, hlt⟩
      · exact utf8EncodeChar_lt hlt _ _
      · exact List.append_left_lt (ih hlt)

theorem bytes_lt {s t : String} (h : s < t) : bytes s < bytes t := by
  rw [bytes_eq, bytes_eq]
  exact flatMap_utf8EncodeChar_lt (String.lt_iff.1 h)

namespace Registry

/-! ### One call -/

theorem lookup_insertInto (tag : String) (mark : CompositeMark) (l : List (String × CompositeMark)) (key : String) :
    (insertInto tag mark l).lookup key = if key = tag then some mark else l.lookup key := by
  induction l with
  | nil => rw [insertInto, OrderedMap.lookup_cons]
  | cons e l ih =>
    obtain ⟨t, m⟩ := e
    rw [insertInto]
    split
    · rw [OrderedMap.lookup_cons]
    · split
      · next h =>
        subst h
        rw [OrderedMap.lookup_cons, OrderedMap.lookup_cons]
        split <;> rfl
      · next h =>
        rw [OrderedMap.lookup_cons, ih, OrderedMap.lookup_cons]
        by_cases hkey : key = t
        · rw [if_pos hkey, if_pos hkey, if_neg (fun heq => h (heq.symm.trans hkey))]
        · rw [if_neg hkey, if_neg hkey]

theorem get?_register (r : Registry) (tag : String) (mark : CompositeMark) (key : String) :
    (r.register tag mark).get? key = if key = tag then some mark else r.get? key :=
  lookup_insertInto tag mark r.entries key

theorem get?_unregister (r : Registry) (tag key : String) :
    (r.unregister tag).get? key = if key = tag then none else r.get? key := by
  rw [get?, get?, unregister]
  induction r.entries with
  | nil => simp
  | cons e l ih =>
    obtain ⟨t, m⟩ := e
    by_cases ht : t = tag
    · rw [List.filter_cons_of_neg (by simpa using ht), ih, OrderedMap.lookup_cons]
      split
      · rfl
      · next hkey => rw [if_neg (fun heq => hkey (heq.trans ht))]
    · rw [List.filter_cons_of_pos (by simpa using ht), OrderedMap.lookup_cons, OrderedMap.lookup_cons, ih]
      by_cases hkey : key = t
      · rw [if_pos hkey, if_pos hkey, if_neg (fun heq => ht (hkey.symm.trans heq))]
      · rw [if_neg hkey, if_neg hkey]

theorem mem_tags_iff {r : Registry} {tag : String} : tag ∈ r.tags ↔ r.contains tag = true := by
  rw [contains, get?, ← Option.ne_none_iff_isSome, Ne, OrderedMap.lookup_eq_none_iff, not_not, tags]

/-- An entry is taken away exactly where there is one. -/
theorem fst_remove (r : Registry) (tag : String) : (r.remove tag).1 = r.contains tag := by
  rw [Bool.eq_iff_iff, ← mem_tags_iff, remove, decide_eq_true_iff, unregister, List.length_filter_lt_length_iff_exists,
    tags, List.mem_map]
  simp

theorem mem_of_get? {r : Registry} {tag : String} {mark : CompositeMark} (h : r.get? tag = some mark) :
    (tag, mark) ∈ r.entries := by
  obtain ⟨l, l', hentries, -⟩ := List.lookup_eq_some_iff.1 h
  rw [hentries]
  exact List.mem_append_right _ List.mem_cons_self

def Ascending (r : Registry) : Prop := r.tags.Pairwise (· < ·)

theorem mem_map_insertInto {tag key : String} {mark : CompositeMark} {l : List (String × CompositeMark)} :
    key ∈ (insertInto tag mark l).map Prod.fst ↔ key = tag ∨ key ∈ l.map Prod.fst := by
  have h := lookup_insertInto tag mark l key
  rw [← not_iff_not, ← OrderedMap.lookup_eq_none_iff, h, not_or, ← OrderedMap.lookup_eq_none_iff]
  by_cases hkey : key = tag <;> simp [hkey]

theorem pairwise_insertInto (tag : String) (mark : CompositeMark) {l : List (String × CompositeMark)}
    (h : (l.map Prod.fst).Pairwise (· < ·)) : ((insertInto tag mark l).map Prod.fst).Pairwise (· < ·) := by
  induction l with
  | nil => exact List.pairwise_singleton ..
  | cons e l ih =>
    obtain ⟨t, m⟩ := e
    obtain ⟨hfirst, hrest⟩ := List.pairwise_cons.1 h
    rw [insertInto]
    split
    · next hlt =>
      refine List.pairwise_cons.2 ⟨fun key hkey => ?_, h⟩
      rcases List.mem_cons.1 hkey with rfl | hkey
      · exact hlt
      · exact String.lt_trans hlt (hfirst key hkey)
    · split
      · next heq => exact heq ▸ h
      · next hlt hne =>
        refine List.pairwise_cons.2 ⟨fun key hkey => ?_, ih hrest⟩
        rcases mem_map_insertInto.1 hkey with rfl | hkey
        · exact lt_of_le_of_ne (not_lt.1 hlt) (Ne.symm hne)
        · exact hfirst key hkey

/-! ### Histories -/

inductive Call where
  | register (tag : String) (mark : CompositeMark)
  | unregister (tag : String)

namespace Call

def tag : Call → String
  | register tag _ => tag
  | unregister tag => tag

/-- What a call leaves under its tag. -/
def mark? : Call → Option CompositeMark
  | register _ mark => some mark
  | unregister _ => none

def apply (r : Registry) : Call → Registry
  | register tag mark => r.register tag mark
  | unregister tag => (r.remove tag).2

theorem get?_apply (r : Registry) (call : Call) (key : String) :
    (call.apply r).get? key = if key = call.tag then call.mark? else r.get? key := by
  cases call with
  | register tag mark => exact get?_register r tag mark key
  | unregister tag => exact get?_unregister r tag key

theorem ascending_apply {r : Registry} (h : r.Ascending) (call : Call) : (call.apply r).Ascending := by
  cases call with
  | register tag mark => exact pairwise_insertInto tag mark h
  | unregister tag => exact h.sublist (List.filter_sublist.map _)

end Call

def run (r : Registry) (calls : List Call) : Registry := calls.foldl Call.apply r

/-- The last call that names a tag. -/
def lastNaming? (tag : String) (calls : List Call) : Option Call := calls.reverse.find? (·.tag = tag)

theorem lastNaming?_cons (tag : String) (call : Call) (calls : List Call) :
    lastNaming? tag (call :: calls) = (lastNaming? tag calls).or (if call.tag = tag then some call else none) := by
  rw [lastNaming?, List.reverse_cons, List.find?_append, List.find?_singleton, lastNaming?]
  simp only [decide_eq_true_iff]

/-- What stands under a tag is what the last call that names it has left there. -/
theorem get?_run (r : Registry) (calls : List Call) (key : String) :
    (r.run calls).get? key = (lastNaming? key calls).elim (r.get? key) Call.mark? := by
  induction calls generalizing r with
  | nil => rfl
  | cons call calls ih =>
    rw [lastNaming?_cons]
    refine (ih (call.apply r)).trans ?_
    cases lastNaming? key calls with
    | some last => rfl
    | none =>
      change (call.apply r).get? key = _
      rw [Call.get?_apply]
      by_cases h : key = call.tag
      · rw [if_pos h, if_pos h.symm]
        rfl
      · rw [if_neg h, if_neg (Ne.symm h)]
        rfl

theorem ascending_run {r : Registry} (h : r.Ascending) (calls : List Call) : (r.run calls).Ascending := by
  induction calls generalizing r with
  | nil => exact h
  | cons call calls ih => exact ih (Call.ascending_apply h call)

/-- The composite marks are drawn as the standard ones, under any tags but names of primitive marks. -/
def Standardized (r : Registry) : Prop :=
  ∀ e ∈ r.entries, Primitive.ofName? e.1 = none ∧ ∃ e' ∈ standard.entries, e.2.expand = e'.2.expand

theorem parts_of_dispatch {r : Registry} (hr : r.Standardized) {u : UnitSpec} {config : Config} {l : LayerSpec}
    {ws : List Warning} (h : r.dispatch u config = .noted l ws) :
    ∃ units : List UnitSpec, l.layers = units.map .unit ∧ ∀ v ∈ units, ∃ m, Composite.IsPart v m := by
  rw [dispatch] at h
  split at h
  · next mark hmark =>
    obtain ⟨-, e', he', hexpand⟩ := hr _ (mem_of_get? hmark)
    obtain ⟨recipe, hrecipe, hstandard⟩ := Composite.exists_recipe he'
    rw [hexpand, hstandard] at h
    exact Composite.parts_of_expand hrecipe h
  · cases h

end Registry

/-! ### Tags that are not in use -/

namespace Normalizer

/-- Two normalizers that differ at most in what is registered for one tag. -/
structure SameBut (tag : String) (n n' : Normalizer) : Prop where
  config : n'.config = n.config
  get? : ∀ t, t ≠ tag → n'.registry.get? t = n.registry.get? t

theorem avoidsPrimitives_of_standardized {n : Normalizer} (h : n.registry.Standardized) : n.AvoidsPrimitives := by
  intro tag m hm
  rw [← Bool.not_eq_true, ← Registry.mem_tags_iff]
  intro hmem
  obtain ⟨e, he, rfl⟩ := List.mem_map.1 hmem
  rw [(h e he).1] at hm
  cases hm

section SameBut

variable {tag : String} {n n' : Normalizer} (h : SameBut tag n n')

include h

theorem SameBut.contains {t : String} (ht : t ≠ tag) : n'.registry.contains t = n.registry.contains t := by
  rw [Registry.contains, Registry.contains, h.get? t ht]

theorem SameBut.avoidsPrimitives (htag : Primitive.ofName? tag = none) (hn : n.AvoidsPrimitives) :
    n'.AvoidsPrimitives := by
  intro t m hm
  have ht : t ≠ tag := by
    rintro rfl
    rw [htag] at hm
    cases hm
  rw [h.contains ht, hn t m hm]

variable (hn : n.registry.Standardized) (htag : Primitive.ofName? tag = none)

include hn htag

/-- The parts of a composite mark are primitive, so the tag does not come up in them. -/
theorem SameBut.expand_succ (depth : Nat) {u : UnitSpec} (hu : u.mark.type ≠ tag) :
    n'.expand (depth + 1) u = n.expand (depth + 1) u := by
  have havoid := avoidsPrimitives_of_standardized hn
  have hdispatch : n'.registry.dispatch u n'.config = n.registry.dispatch u n.config := by
    rw [Registry.dispatch, Registry.dispatch, h.get? _ hu, h.config]
  rw [expand, expand, hdispatch]
  refine Report.bind_congr fun l ws hl => ?_
  obtain ⟨units, hunits, hparts⟩ := Registry.parts_of_dispatch hn hl
  rw [hunits, specs_of_parts (h.avoidsPrimitives htag havoid) hparts, specs_of_parts havoid hparts, h.config]

theorem SameBut.flatUnit_eq (depth : Nat) {u : UnitSpec} (hu : u.mark.type ≠ tag) :
    n'.flatUnit (n'.expand (depth + 1)) u = n.flatUnit (n.expand (depth + 1)) u := by
  rw [flatUnit, flatUnit, h.contains hu, h.expand_succ hn htag depth hu, h.config]

theorem normalize_of_sameBut {s : Spec} (hs : ∀ u ∈ s.leaves, u.mark.type ≠ tag) : n'.normalize s = n.normalize s := by
  have hrun : Report.Rel (· = ·) (n'.normalize s) (n.normalize (s.mapMarks id)) := by
    refine spec_lockstep Spec.congruent_eq (fun u hu scope => Report.rel_eq_iff.2 ?_) .top
    refine h.flatUnit_eq hn htag (maxExpansion - 1) ?_
    rw [u.mark_flattened scope]
    exact hs u hu
  rw [s.mapMarks_id] at hrun
  exact Report.rel_eq_iff.1 hrun

end SameBut

theorem sameBut_register (config : Config) (r : Registry) (tag : String) (mark : CompositeMark) :
    SameBut tag { config, registry := r } { config, registry := r.register tag mark } :=
  ⟨rfl, fun t ht => (r.get?_register tag mark t).trans (if_neg ht)⟩

theorem sameBut_unregister (config : Config) (r : Registry) (tag : String) :
    SameBut tag { config, registry := r } { config, registry := r.unregister tag } :=
  ⟨rfl, fun t ht => (r.get?_unregister tag t).trans (if_neg ht)⟩

end Normalizer

namespace Registry

section Run

variable (start : Registry) (calls : List Call) (tag : String)

theorem contains_run_iff :
    (start.run calls).contains tag = true ↔
      (∃ mark, lastNaming? tag calls = some (.register tag mark)) ∨
        lastNaming? tag calls = none ∧ start.contains tag = true := by
  rw [contains, get?_run]
  cases hlast : lastNaming? tag calls with
  | none => simp [contains]
  | some call =>
    have htag : call.tag = tag := by simpa using List.find?_some hlast
    cases call with
    | register t mark =>
      obtain rfl : t = tag := htag
      simp [Call.mark?]
    | unregister t => simp [Call.mark?]

theorem partsOf_run {mark : CompositeMark} (h : lastNaming? tag calls = some (.register tag mark)) :
    (start.run calls).partsOf tag = .ok mark.parts := by
  rw [partsOf, get?_run, h]
  rfl

theorem partsOf_run_of_unnamed (h : lastNaming? tag calls = none) : (start.run calls).partsOf tag = start.partsOf tag := by
  rw [partsOf, get?_run, h]
  rfl

end Run

theorem partsOf_of_contains_eq_false {r : Registry} {tag : String} (h : r.contains tag = false) :
    r.partsOf tag = .error (.unregisteredMark tag) := by
  rw [contains, Option.isSome_eq_false_iff, Option.isNone_iff_eq_none] at h
  rw [partsOf, h]

/-- **Registries by their calls.** After any calls on an empty registry or the standard one, a tag is registered when the
last call that names it has registered it, or when no call names it and it was there before. Its parts are those of that
call, removing it says whether it was there, and the tags are listed each once and in the order of their bytes. And as long
as the marks are drawn as the standard ones, a tag that is not the mark of a unit has no influence on what
is made of a specification, not even on warnings or on how it fails. -/
theorem run_by_last_calls :
    (∀ start ∈ [empty, standard], ∀ (calls : List Call) (tag : String),
      ((start.run calls).contains tag = true ↔
        (∃ mark, lastNaming? tag calls = some (.register tag mark)) ∨
          lastNaming? tag calls = none ∧ start.contains tag = true) ∧
      (start.run calls).remove tag = ((start.run calls).contains tag, start.run (calls ++ [.unregister tag])) ∧
      (∀ mark, lastNaming? tag calls = some (.register tag mark) → (start.run calls).partsOf tag = .ok mark.parts) ∧
      (lastNaming? tag calls = none → (start.run calls).partsOf tag = start.partsOf tag) ∧
      ((start.run calls).contains tag = false → (start.run calls).partsOf tag = .error (.unregisteredMark tag)) ∧
      ((start.run calls).tags.Pairwise fun s t => bytes s < bytes t) ∧
      (tag ∈ (start.run calls).tags ↔ (start.run calls).contains tag = true)) ∧
    ∀ (r : Registry) (config : Config) (s : Spec) (tag : String) (mark : CompositeMark), r.Standardized →
      Primitive.ofName? tag = none → (∀ u ∈ s.leaves, u.mark.type ≠ tag) →
      Normalizer.normalize { config, registry := r.register tag mark } s = Normalizer.normalize { config, registry := r } s ∧
      Normalizer.normalize { config, registry := r.unregister tag } s = Normalizer.normalize { config, registry := r } s := by
  refine ⟨fun start hstart calls tag => ?_, fun r config s tag mark hr htag hs => ?_⟩
  · have hascending : start.Ascending := by
      rcases List.mem_pair.1 hstart with rfl | rfl
      · exact .nil
      · exact (by decide : standard.tags.Pairwise (· < ·))
    have hremove : start.run (calls ++ [.unregister tag]) = ((start.run calls).remove tag).2 := by
      rw [run, List.foldl_append]
      rfl
    refine ⟨contains_run_iff start calls tag, ?_, fun mark => partsOf_run start calls tag,
      partsOf_run_of_unnamed start calls tag, partsOf_of_contains_eq_false, ?_, mem_tags_iff⟩
    · rw [hremove, ← fst_remove]
    · exact (ascending_run hascending calls).imp bytes_lt
  · exact ⟨Normalizer.normalize_of_sameBut (Normalizer.sameBut_register config r tag mark) hr htag hs,
      Normalizer.normalize_of_sameBut (Normalizer.sameBut_unregister config r tag) hr htag hs⟩

/-- A tag that is registered twice, one that is taken away, and one that is not in ASCII; then error bars under another tag,
while something else is registered as error bars. -/
theorem run_by_last_calls_bars :
    let rule (parts : List String) : CompositeMark :=
      ⟨fun u _ => pure { layers := [.unit { mark := .tag "rule", encoding := u.encoding }] }, parts⟩
    let calls : List Call :=
      [.register "é" (rule []), .register "zone" (rule ["rule"]), .unregister "errorbar", .register "zone" (rule ["line"])]
    let r := standard.run calls
    let bars := empty.register "bars" ⟨ErrorBar.expand, ErrorBar.parts⟩
    let s : Spec := .unit
      { mark := .tag "bars", encoding := .ofList [(.y, .field { field := some "yield", type := .quantitative })] }
    r.tags = ["box-plot", "errorband", "zone", "é"] ∧ (r.tags.Pairwise fun s t => bytes s < bytes t) ∧
      r.contains "é" = true ∧ r.partsOf "zone" = .ok ["line"] ∧ (r.remove "errorbar").1 = r.contains "errorbar" ∧
      r.partsOf "errorbar" = .error (.unregisteredMark "errorbar") ∧
      ∃ t ws, Normalizer.normalize { registry := bars } s = .noted t ws ∧
        Normalizer.normalize { registry := bars.register "errorbar" (rule []) } s = .noted t ws := by
  intro rule calls r bars s
  obtain ⟨hruns, hlocal⟩ := run_by_last_calls
  have hrun := hruns standard (List.mem_cons_of_mem _ List.mem_cons_self) calls
  obtain ⟨hcontains, -, -, -, -, hbytes, -⟩ := hrun "é"
  obtain ⟨-, -, hparts, -⟩ := hrun "zone"
  obtain ⟨-, hremove, -, -, hmissing, -⟩ := hrun "errorbar"
  have hbars : bars.Standardized := by
    intro e he
    obtain rfl := List.mem_singleton.1 he
    exact ⟨by decide, _, List.mem_cons_of_mem _ (List.mem_cons_of_mem _ List.mem_cons_self), rfl⟩
  have hok : (Normalizer.normalize { registry := bars } s).failure? = none := by decide +kernel +zetaReduce
  obtain ⟨t, ws, ht⟩ := Report.failure?_eq_none_iff.1 hok
  have hunits : ∀ u ∈ s.leaves, u.mark.type ≠ "errorbar" := by
    intro u hu
    obtain rfl := List.mem_singleton.1 hu
    decide
  exact ⟨by decide, hbytes, hcontains.2 (.inl ⟨_, rfl⟩), hparts _ rfl, congrArg Prod.fst hremove, hmissing (by decide),
    t, ws, ht, (hlocal bars .defaults s "errorbar" (rule []) hbars (by decide) hunits).1.trans ht⟩

end Registry

end ChartNormal
