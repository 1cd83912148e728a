import ChartNormal.Mark.Definition
import ChartNormal.Proofs.Record

/-!
# Marks that read back

A mark definition reads back as it is written when none of its free-form properties has the name of a typed one. All
definitions that are read are of this kind, whatever they are read from.
-/

namespace ChartNormal

theorem Orient.ofName?_name (o : Orient) : ofName? o.name = some o := by cases o <;> rfl

theorem Center.ofName?_name (c : Center) : ofName? c.name = some c := by cases c <;> rfl

theorem Extent.ofJson?_toJson (e : Extent) : ofJson? e.toJson = some e := by
  cases e with
  | scalar k => rfl
  | named n => cases n <;> rfl

theorem Extent.toJson_ne_null (e : Extent) : e.toJson ≠ .null := by
  cases e <;> simp [toJson, Json.ofDouble]

namespace MarkDef

/-- No free-form property has the name of a typed one. -/
def Legible (d : MarkDef) : Prop := Object.Free d.props fieldNames

theorem ofMembers?_toMembers {d : MarkDef} (h : d.Legible) : ofMembers? d.toMembers = some d := by
  have hw : Members.Written d.toMembers _ d.props := ⟨rfl, (by decide : fieldNames.Nodup), h⟩
  have htype : Members.required? d.toMembers "type" Json.string? = some d.type :=
    hw.required? (j := .str d.type) (by simp)
  have horient : Members.optional? d.toMembers "orient" (Json.name? Orient.ofName?) = some d.orient :=
    hw.optional? (fun o => .str o.name) (by simp) (fun o _ => o.ofName?_name) (by simp)
  have hextent : Members.optional? d.toMembers "extent" Extent.ofJson? = some d.extent :=
    hw.optional? Extent.toJson (by simp) (fun e _ => e.ofJson?_toJson)
      (fun e _ => e.toJson_ne_null)
  have hcenter : Members.optional? d.toMembers "center" (Json.name? Center.ofName?) = some d.center :=
    hw.optional? (fun c => .str c.name) (by simp) (fun c _ => c.ofName?_name) (by simp)
  have hcolor : Members.optional? d.toMembers "color" Json.string? = some d.color :=
    hw.optional? .str (by simp) (fun _ _ => rfl) (by simp)
  have hopacity : Members.optional? d.toMembers "opacity" Json.double? = some d.opacity :=
    hw.optional? .ofDouble (by simp) (fun _ _ => rfl) (by simp [Json.ofDouble])
  have hfilled : Members.optional? d.toMembers "filled" Json.bool? = some d.filled :=
    hw.optional? .bool (by simp) (fun _ _ => rfl) (by simp)
  have hstyle : Members.optional? d.toMembers "style" Json.string? = some d.style :=
    hw.optional? .str (by simp) (fun _ _ => rfl) (by simp)
  have hinterpolate : Members.optional? d.toMembers "interpolate" Json.string? = some d.interpolate :=
    hw.optional? .str (by simp) (fun _ _ => rfl) (by simp)
  have htension : Members.optional? d.toMembers "tension" Json.double? = some d.tension :=
    hw.optional? .ofDouble (by simp) (fun _ _ => rfl) (by simp [Json.ofDouble])
  have hprops : Members.others d.toMembers fieldNames = d.props := hw.others
  rw [ofMembers?, htype, horient, hextent, hcenter, hcolor, hopacity, hfilled, hstyle, hinterpolate, htension, hprops]
  rfl

theorem legible_of_ofMembers? {members : Members} {d : MarkDef} (h : ofMembers? members = some d) : d.Legible := by
  simp only [ofMembers?, Option.bind_eq_bind, Option.bind_eq_some_iff, Option.some.injEq] at h
  obtain ⟨_, -, _, -, _, -, _, -, _, -, _, -, _, -, _, -, _, -, _, -, rfl⟩ := h
  exact Members.free_others members fieldNames

theorem Legible.withProp {d : MarkDef} (h : d.Legible) {key : String} (hkey : key ∉ fieldNames) (b : Bool) :
    (d.withProp key (.bool b)).Legible :=
  Object.Free.insert h hkey rfl

end MarkDef

namespace Mark

def Legible (m : Mark) : Prop := m.toDef.Legible

theorem ofJson?_toJson {m : Mark} (h : m.Legible) : ofJson? m.toJson = some m := by
  cases m with
  | tag name => rfl
  | defined d =>
    exact congrArg (Option.map defined) (MarkDef.ofMembers?_toMembers h)

theorem legible_of_ofJson? {j : Json} {m : Mark} (h : ofJson? j = some m) : m.Legible := by
  rcases Option.or_eq_some_iff.1 h with h | ⟨-, h⟩
  · obtain ⟨name, -, rfl⟩ := Option.map_eq_some_iff.1 h
    exact Object.free_empty _
  · obtain ⟨d, hd, rfl⟩ := Option.map_eq_some_iff.1 h
    obtain ⟨members, -, hd⟩ := Option.bind_eq_some_iff.1 hd
    exact MarkDef.legible_of_ofMembers? hd

end Mark

end ChartNormal
