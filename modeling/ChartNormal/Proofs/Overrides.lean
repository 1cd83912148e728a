import ChartNormal.Proofs.Composite.Precedence
import ChartNormal.Proofs.Equality

/-!
# Overrides one after another

An overridden definition is written out and read again, which changes how it is written: numbers get a fraction, names
become strings, and a `null` disappears. It still stands for the object that it was read from, whatever is written over
the two (`MarkDef.ofMembers?_extend`), and so overriding twice is overriding once with both objects
(`MarkDef.Legible.override?_override?`).
-/

namespace ChartNormal

/-! ### Fields of an object that is written over -/

namespace Members

variable {α : Type} {read : Json → Option α} {key : String} {known : List String} (m n : Object) {o : Object}

theorem field?_extend_of_none (ho : o.get? key = none) : field? (m.extend o).entries key = field? m.entries key := by
  rw [field?_entries, field?_entries, OrderedMap.get?_extend, ho, Option.none_or]

theorem field?_extend_of_some {j : Json} (ho : o.get? key = some j) :
    field? (m.extend o).entries key = some (some j) := by
  rw [field?_entries, OrderedMap.get?_extend, ho, Option.some_or]

variable (o)

theorem required?_extend (h : required? m.entries key read = required? n.entries key read) :
    required? (m.extend o).entries key read = required? (n.extend o).entries key read := by
  rw [required?, required?]
  cases ho : o.get? key with
  | none =>
    rw [field?_extend_of_none m ho, field?_extend_of_none n ho]
    exact h
  | some j => rw [field?_extend_of_some m ho, field?_extend_of_some n ho]

theorem optional?_extend (h : optional? m.entries key read = optional? n.entries key read) :
    optional? (m.extend o).entries key read = optional? (n.extend o).entries key read := by
  rw [optional?, optional?]
  cases ho : o.get? key with
  | none =>
    rw [field?_extend_of_none m ho, field?_extend_of_none n ho]
    exact h
  | some j => rw [field?_extend_of_some m ho, field?_extend_of_some n ho]

theorem others_extend :
    others (m.extend o).entries known = (others m.entries known).extend (others o.entries known) := by
  rw [others_entries, others_entries, others_entries, OrderedMap.restrict_extend, OrderedMap.extend_mapValues]

end Members

namespace MarkDef

/-- Objects that read as one definition still do when the same is written over both. -/
theorem ofMembers?_extend {m n : Object} {d : MarkDef} (hm : ofMembers? m.entries = some d)
    (hn : ofMembers? n.entries = some d) (o : Object) :
    ofMembers? (m.extend o).entries = ofMembers? (n.extend o).entries := by
  simp only [ofMembers?, Option.bind_eq_bind, Option.bind_eq_some_iff, Option.some.injEq] at hm hn
  obtain ⟨_, htype, _, horient, _, hextent, _, hcenter, _, hcolor, _, hopacity, _, hfilled, _, hstyle, _, hinterpolate,
    _, htension, rfl⟩ := hm
  obtain ⟨_, htype', _, horient', _, hextent', _, hcenter', _, hcolor', _, hopacity', _, hfilled', _, hstyle', _,
    hinterpolate', _, htension', hd⟩ := hn
  obtain ⟨rfl, rfl, rfl, rfl, rfl, rfl, rfl, rfl, rfl, rfl, hprops⟩ := MarkDef.mk.inj hd
  rw [ofMembers?, ofMembers?, Members.required?_extend m n o (htype.trans htype'.symm),
    Members.optional?_extend m n o (horient.trans horient'.symm),
    Members.optional?_extend m n o (hextent.trans hextent'.symm),
    Members.optional?_extend m n o (hcenter.trans hcenter'.symm),
    Members.optional?_extend m n o (hcolor.trans hcolor'.symm),
    Members.optional?_extend m n o (hopacity.trans hopacity'.symm),
    Members.optional?_extend m n o (hfilled.trans hfilled'.symm),
    Members.optional?_extend m n o (hstyle.trans hstyle'.symm),
    Members.optional?_extend m n o (hinterpolate.trans hinterpolate'.symm),
    Members.optional?_extend m n o (htension.trans htension'.symm), Members.others_extend, Members.others_extend, hprops]

/-! ### Overrides -/

section Legible

variable {d d₁ : MarkDef} (h : d.Legible)

include h

theorem Legible.ofMembers?_toObject : ofMembers? d.toObject.entries = some d := by
  have hw : Members.Written d.toMembers _ d.props := ⟨rfl, (by decide : fieldNames.Nodup), h⟩
  rw [toObject, OrderedMap.entries_ofList hw.nodup]
  exact ofMembers?_toMembers h

/-- It does not show that a definition is not read again where nothing is overridden. -/
theorem Legible.override?_eq (o : Object) : d.override? o = ofMembers? (d.toObject.extend o).entries := by
  rw [override?]
  split
  · next hempty =>
    have ho : o = ∅ := OrderedMap.ext (List.isEmpty_iff.1 hempty)
    rw [ho]
    exact h.ofMembers?_toObject.symm
  · rfl

theorem Legible.override?_override? {o₁ : Object} (h₁ : d.override? o₁ = some d₁) (o₂ : Object) :
    d₁.override? o₂ = d.override? (o₁.extend o₂) := by
  rw [h.override?_eq] at h₁
  have hd₁ : d₁.Legible := legible_of_ofMembers? h₁
  calc d₁.override? o₂ = ofMembers? (d₁.toObject.extend o₂).entries := hd₁.override?_eq o₂
    _ = ofMembers? ((d.toObject.extend o₁).extend o₂).entries := ofMembers?_extend hd₁.ofMembers?_toObject h₁ o₂
    _ = ofMembers? (d.toObject.extend (o₁.extend o₂)).entries := by rw [OrderedMap.extend_assoc]
    _ = d.override? (o₁.extend o₂) := (h.override?_eq _).symm

end Legible

/-! ### The order of overrides -/

theorem exists_same_of_reorders {m n : Object} (h : m.Reorders n) {d : MarkDef} (hm : ofMembers? m.entries = some d) :
    ∃ d', ofMembers? n.entries = some d' ∧ d.same d' = true := by
  have hread : ReadFrom m.get? d := readFrom_get?_iff.2 ⟨d.props, hm, fun _ => rfl⟩
  rw [funext h.get?] at hread
  obtain ⟨props, hn, hprops⟩ := readFrom_get?_iff.1 hread
  have hreorders : d.props.Reorders props := OrderedMap.reorders_iff.2 fun key => (hprops key).symm
  refine ⟨_, hn, ?_⟩
  rw [same_props]
  exact hreorders.same (OrderedMap.same_self fun e he => Json.same_self (legible_of_ofMembers? hm e he).2)

/-- Two orders of one object read as equal definitions, or both as none. -/
theorem sameOption_of_reorders {m n : Object} (h : m.Reorders n) :
    sameOption MarkDef.same (ofMembers? m.entries) (ofMembers? n.entries) = true := by
  cases hm : ofMembers? m.entries with
  | some d =>
    obtain ⟨d', hn, hsame⟩ := exists_same_of_reorders h hm
    rw [hn]
    exact hsame
  | none =>
    cases hn : ofMembers? n.entries with
    | none => rfl
    | some d' =>
      obtain ⟨d, hd, -⟩ := exists_same_of_reorders (List.Perm.symm h) hn
      rw [hm] at hd
      cases hd

/-- **Overrides compose.** To override a definition that is read, and what comes of it once more, is to override it once,
by the first object with the second written over it; the one fails where the other does. Any object that has, key by key,
the later value will do, up to the order of the free-form properties. And also where nothing is overridden the result is
what writing the definition and reading it again gives. -/
theorem override?_composes {j : Json} {d : MarkDef} (hd : ofJson? j = some d) (o₁ o₂ : Object) :
    (∀ d₁, d.override? o₁ = some d₁ →
      d₁.override? o₂ = d.override? (o₁.extend o₂) ∧
        ∀ o : Object, (∀ key, o.get? key = (o₂.get? key).or (o₁.get? key)) →
          sameOption MarkDef.same (d₁.override? o₂) (d.override? o) = true) ∧
      d.override? o₁ = ofJson? (.ofObject (d.toObject.extend o₁)) := by
  obtain ⟨members, -, hd⟩ := Option.bind_eq_some_iff.1 hd
  have hlegible : d.Legible := legible_of_ofMembers? hd
  refine ⟨fun d₁ h₁ => ?_, hlegible.override?_eq o₁⟩
  have hboth := hlegible.override?_override? h₁ o₂
  refine ⟨hboth, fun o ho => ?_⟩
  have hreorders : (o₁.extend o₂).Reorders o :=
    OrderedMap.reorders_iff.2 fun key => (OrderedMap.get?_extend o₁ o₂ key).trans (ho key).symm
  rw [hboth, hlegible.override?_eq, hlegible.override?_eq]
  exact sameOption_of_reorders (OrderedMap.Reorders.extend (.refl _) hreorders)

/-- An error bar loses its opacity and gets a numeric extent and a size, which is `null` in the end. With a flag for a
tension there is no mark, in one step or in two. -/
theorem override?_composes_errorbar :
    let j : Json := .obj
      [("type", .str "errorbar"), ("ticks", .obj [("color", .str "red")]), ("extent", .obj [("ci", .null)]),
        ("opacity", .num (.int 1))]
    let o₁ : Object := .ofList [("opacity", .null), ("size", .num (.int 8)), ("extent", .num (.int 2))]
    let o₂ : Object := .ofList [("size", .null), ("color", .str "grey"), ("center", .obj [("median", .null)])]
    let tense : Object := .ofList [("tension", .bool true)]
    let d₁ : MarkDef :=
      { type := "errorbar", extent := some (.scalar (.ofInt 2))
        props := .ofList [("ticks", .obj [("color", .str "red")]), ("size", .num (.int 8))] }
    ∃ d, ofJson? j = some d ∧ d.override? o₁ = some d₁ ∧
      d.override? (o₁.extend o₂) = some { d₁ with
        center := some .median, color := some "grey", props := d₁.props.insert "size" .null } ∧
      d.override? (o₁.extend tense) = none ∧ ofJson? (.ofObject (d.toObject.extend ∅)) = some d := by
  intro j o₁ o₂ tense d₁
  have hsome : (ofJson? j).isSome = true := by decide +kernel +zetaReduce
  obtain ⟨d, hd⟩ := Option.isSome_iff_exists.1 hsome
  have hbind : (ofJson? j).bind (·.override? o₁) = some d₁ := by decide +kernel +zetaReduce
  have h₁ : d.override? o₁ = some d₁ := by rwa [hd] at hbind
  refine ⟨d, hd, h₁, ?_, ?_, (override?_composes hd ∅ ∅).2.symm⟩
  · rw [← ((override?_composes hd o₁ o₂).1 d₁ h₁).1]
    decide +kernel +zetaReduce
  · rw [← ((override?_composes hd o₁ tense).1 d₁ h₁).1]
    decide +kernel +zetaReduce

end MarkDef

end ChartNormal
