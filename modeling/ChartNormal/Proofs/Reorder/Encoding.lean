import ChartNormal.Encoding.Extraction
import ChartNormal.Encoding.Support
import ChartNormal.Proofs.Encoding
import Mathlib.Data.List.Perm.Basic

/-!
# Encodings that differ in the order of their channels

Two maps with the same entries in some order are those that cannot be told apart by look-ups (`OrderedMap.reorders_iff`).
Whatever is done to an encoding channel by channel keeps them so. A rule that looks up another channel sees the same in
both, and what is collected along the way is collected in another order (`Encoding.extract_reorders`).
-/

namespace ChartNormal

namespace OrderedMap

variable {κ α β : Type}

/-- The same entries in some order. -/
def Reorders (m n : OrderedMap κ α) : Prop := m.entries.Perm n.entries

namespace Reorders

variable {m n : OrderedMap κ α}

theorem keys (h : m.Reorders n) : m.keys.Perm n.keys := h.map Prod.fst

theorem restrict (h : m.Reorders n) (keep : κ → Bool) : (m.restrict keep).Reorders (n.restrict keep) := h.filter _

theorem mapValues (h : m.Reorders n) (f : κ → α → β) : (m.mapValues f).Reorders (n.mapValues f) := h.map _

theorem filterMapValues (h : m.Reorders n) (f : κ → α → Option β) :
    (m.filterMapValues f).Reorders (n.filterMapValues f) :=
  h.filterMap _

end Reorders

variable [DecidableEq κ] {m n m' n' : OrderedMap κ α}

/-- Only the order tells the maps apart that have the same under every key. -/
theorem reorders_iff : m.Reorders n ↔ ∀ k, m.get? k = n.get? k := by
  constructor
  · intro h k
    ext v
    rw [get?_eq_some_iff, get?_eq_some_iff, h.mem_iff]
  · intro h
    refine (List.perm_ext_iff_of_nodup m.nodup.of_map n.nodup.of_map).2 ?_
    rintro ⟨k, v⟩
    rw [← get?_eq_some_iff, ← get?_eq_some_iff, h k]

namespace Reorders

theorem get? (h : m.Reorders n) (k : κ) : m.get? k = n.get? k := reorders_iff.1 h k

theorem contains (h : m.Reorders n) (k : κ) : m.contains k = n.contains k := by
  rw [OrderedMap.contains, OrderedMap.contains, h.get? k]

theorem insert (h : m.Reorders n) (key : κ) (value : α) : (m.insert key value).Reorders (n.insert key value) := by
  rw [reorders_iff]
  intro k
  rw [get?_insert, get?_insert, h.get? k]

theorem extend (h : m.Reorders n) (h' : m'.Reorders n') : (m.extend m').Reorders (n.extend n') := by
  rw [reorders_iff]
  intro k
  rw [get?_extend, get?_extend, h.get? k, h'.get? k]

end Reorders

end OrderedMap

namespace Encoding

open OrderedMap

variable {e e' : Encoding} (h : e.Reorders e')

include h

/-! ### Look-ups -/

theorem field?_reorders (c : Channel) : e.field? c = e'.field? c := by
  rw [field?, field?, h.get? c]

theorem hasField_reorders (c : Channel) : e.hasField c = e'.hasField c := by
  rw [hasField, hasField, h.get? c]

theorem promoted_reorders (c : Channel) : e.promoted c = e'.promoted c := by
  cases c with
  | x2 => rw [promoted, promoted, h.contains]
  | y2 => rw [promoted, promoted, h.contains]
  | _ => rfl

/-! ### What a mark draws -/

theorem promoteSecondary_reorders : e.promoteSecondary.Reorders e'.promoteSecondary := by
  rw [OrderedMap.Reorders, entries_promoteSecondary, entries_promoteSecondary]
  simp only [promoted_reorders h]
  exact h.map _

theorem settle_reorders (m : Primitive) : (e.settle m).Reorders (e'.settle m) := h.filterMapValues _

theorem settleWarnings_reorders (m : Primitive) : (e.settleWarnings m).Perm (e'.settleWarnings m) := h.flatMap_right _

/-! ### Transforms behind an encoding -/

end Encoding

/-- The same stages and columns of each kind, each kind in some order. -/
structure Extraction.Reorders (x y : Extraction) : Prop where
  bins : x.bins.Perm y.bins
  timeUnits : x.timeUnits.Perm y.timeUnits
  aggregate : x.aggregate.Perm y.aggregate
  groupby : x.groupby.Perm y.groupby
  encoding : x.encoding.Reorders y.encoding

theorem Encoding.extract_reorders {e e' : Encoding} (h : e.Reorders e') : e.extract.Reorders e'.extract := by
  have huntagged := h.mapValues fun _ d => d.mapFields FieldDef.withoutTag
  have hdefs := huntagged.flatMap_right fun b : Channel × ChannelDef => b.2.fieldDefs
  exact
    { bins := hdefs.filterMap _
      timeUnits := hdefs.filterMap _
      aggregate := hdefs.filterMap _
      groupby := hdefs.filterMap _
      encoding := huntagged.mapValues _ }

theorem Encoding.extractWarnings_reorders {e e' : Encoding} (h : e.Reorders e') (mark : String) :
    (e.extractWarnings mark).Perm (e'.extractWarnings mark) :=
  h.flatMap_right _

end ChartNormal
