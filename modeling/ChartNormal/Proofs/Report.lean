import ChartNormal.Report
import Mathlib.Data.List.Forall2

/-!
# Reports step by step

What a sequence of steps returns, and how it fails: a value is returned when every step returns one, the warnings are
noted in the order of the steps (`bind_eq_noted`), and the failure is that of the first step that fails
(`failure?_bind`). Two sequences of related steps have related results (`Related.bind`).
-/

namespace ChartNormal

namespace Report

variable {α β : Type}

/-- A report is a failure, or a value with its warnings. -/
@[elab_as_elim, cases_eliminator]
theorem casesFail {motive : Report α → Prop} (fail : ∀ e, motive (.fail e))
    (noted : ∀ a ws, motive (.noted a ws)) : ∀ r : Report α, motive r
  | .error e => fail e
  | .ok (a, ws) => noted a ws

theorem noted_inj {a b : α} {ws ws' : List Warning} : noted a ws = noted b ws' ↔ a = b ∧ ws = ws' := by
  constructor
  · intro h
    cases h
    exact ⟨rfl, rfl⟩
  · rintro ⟨rfl, rfl⟩
    rfl

theorem fail_inj {e e' : Failure} : (fail e : Report α) = fail e' ↔ e = e' := by
  constructor
  · intro h
    cases h
    rfl
  · rintro rfl
    rfl

theorem fail_ne_noted {e : Failure} {a : α} {ws : List Warning} : fail e ≠ noted a ws := by
  intro h
  cases h

theorem exists_noted_of_map {r : Report α} {f : α × List Warning → β} {b : β} (h : Except.map f r = .ok b) :
    ∃ a ws, r = noted a ws ∧ f (a, ws) = b := by
  cases r with
  | fail e => cases h
  | noted a ws => exact ⟨a, ws, rfl, Except.ok.inj h⟩

/-! ### One step after another -/

theorem bind_eq_noted {r : Report α} {f : α → Report β} {b : β} {ws : List Warning} :
    (r >>= f) = noted b ws ↔
      ∃ a ws₁ ws₂, r = noted a ws₁ ∧ f a = noted b ws₂ ∧ ws = ws₁ ++ ws₂ := by
  change Report.bind r f = _ ↔ _
  constructor
  · intro h
    cases r with
    | fail e => cases h
    | noted a ws₁ =>
      cases hf : f a with
      | fail e => rw [noted, Report.bind, hf] at h; cases h
      | noted b' ws₂ =>
        rw [noted, Report.bind, hf] at h
        cases h
        exact ⟨a, ws₁, ws₂, rfl, hf, rfl⟩
  · rintro ⟨a, ws₁, ws₂, rfl, hf, rfl⟩
    rw [noted, Report.bind, hf]
    rfl

/-- What follows counts only where the first step returns. -/
theorem bind_congr {r : Report α} {f g : α → Report β} (h : ∀ a ws, r = noted a ws → f a = g a) :
    (r >>= f) = (r >>= g) := by
  change Report.bind r f = Report.bind r g
  cases r with
  | fail e => rfl
  | noted a ws => rw [noted, Report.bind, Report.bind, h a ws rfl]

theorem pure_eq_noted {a b : α} {ws : List Warning} : (pure a : Report α) = noted b ws ↔ a = b ∧ ws = [] := by
  rw [eq_comm (a := ws)]
  exact noted_inj

/-- A step that is followed by nothing but a change of its value. -/
theorem bind_pure_eq_noted {r : Report α} {f : α → β} {b : β} {ws : List Warning} :
    (r >>= fun a => pure (f a)) = noted b ws ↔ ∃ a, r = noted a ws ∧ f a = b := by
  rw [bind_eq_noted]
  constructor
  · rintro ⟨a, ws₁, ws₂, hr, hf, rfl⟩
    obtain ⟨hb, rfl⟩ := pure_eq_noted.1 hf
    exact ⟨a, by rw [List.append_nil, hr], hb⟩
  · rintro ⟨a, hr, rfl⟩
    exact ⟨a, ws, [], hr, rfl, (List.append_nil ws).symm⟩

theorem lift_eq_noted {x : Except Failure α} {a : α} {ws : List Warning} :
    (liftM x : Report α) = noted a ws ↔ x = .ok a ∧ ws = [] := by
  rcases x with e | b
  · constructor
    · intro h; cases h
    · rintro ⟨h, -⟩; cases h
  · rw [Except.ok.injEq]
    exact pure_eq_noted

@[simp] theorem lift_ok (a : α) : (liftM (Except.ok a : Except Failure α) : Report α) = noted a [] := rfl

/-! ### Two reports side by side -/

section Related

variable {γ δ : Type} {R : α → β → Prop} {S : γ → δ → Prop}

/-- Both fail alike, or both return: related values with related warnings. -/
inductive Related (W : List Warning → List Warning → Prop) (R : α → β → Prop) : Report α → Report β → Prop
  | fail (f : Failure) : Related W R (.fail f) (.fail f)
  | noted {a : α} {b : β} {ws ws' : List Warning} (h : R a b) (hws : W ws ws') :
      Related W R (.noted a ws) (.noted b ws')

/-- The values can be related by what is known of the first report. -/
theorem Related.imp {W : List Warning → List Warning → Prop} {R' : α → β → Prop} {r : Report α} {r' : Report β}
    (h : Related W R r r') (himp : ∀ a b ws, r = .noted a ws → R a b → R' a b) : Related W R' r r' := by
  cases h with
  | fail f => exact .fail f
  | noted h hws => exact .noted (himp _ _ _ rfl h) hws

theorem Related.bind {U V W : List Warning → List Warning → Prop}
    (happend : ∀ {v v' w w'}, U v v' → V w w' → W (v ++ w) (v' ++ w')) {r : Report α} {r' : Report β}
    {f : α → Report γ} {g : β → Report δ} (h : Related U R r r') (hnext : ∀ a b, R a b → Related V S (f a) (g b)) :
    Related W S (r >>= f) (r' >>= g) := by
  cases h with
  | fail e => exact .fail e
  | @noted a b ws ws' h hws =>
    change Related W S (Report.bind (.noted a ws) f) (Report.bind (.noted b ws') g)
    have hstep := hnext a b h
    simp only [Report.noted, Report.bind]
    generalize f a = r, g b = r' at hstep
    cases hstep with
    | fail e => exact .fail e
    | noted h' hws' => exact .noted h' (happend hws hws')

end Related

/-! ### The first failure -/

/-- The failure, of a report that is one. -/
def failure? : Report α → Option Failure
  | .error e => some e
  | .ok _ => none

@[simp] theorem failure?_fail (e : Failure) : failure? (fail e : Report α) = some e := rfl

@[simp] theorem failure?_noted (a : α) (ws : List Warning) : failure? (noted a ws) = none := rfl

theorem failure?_eq_none_iff {r : Report α} : r.failure? = none ↔ ∃ a ws, r = noted a ws := by
  cases r with
  | fail e => simp [fail_ne_noted]
  | noted a ws => simp [noted_inj]

theorem failure?_eq_some_iff {r : Report α} {e : Failure} : r.failure? = some e ↔ r = fail e := by
  cases r with
  | fail e' => simp [fail_inj]
  | noted a ws => simp [fail_ne_noted.symm]

/-- When what follows fails in the same way whatever the first step returns, the first failure counts. -/
theorem failure?_bind {r : Report α} {f : α → Report β} {x : Option Failure}
    (h : ∀ a ws, r = noted a ws → (f a).failure? = x) : (r >>= f).failure? = r.failure?.or x := by
  change (Report.bind r f).failure? = _
  cases r with
  | fail e => rfl
  | noted a ws =>
    rw [← h a ws rfl]
    cases hf : f a with
    | fail e => rw [noted, Report.bind, hf]; rfl
    | noted b ws' => rw [noted, Report.bind, hf]; rfl

/-- What follows cannot fail. -/
theorem failure?_bind_eq_left {r : Report α} {f : α → Report β} (h : ∀ a, (f a).failure? = none) :
    (r >>= f).failure? = r.failure? :=
  (failure?_bind fun a _ _ => h a).trans (Option.or_none ..)

@[simp] theorem failure?_noted_bind (a : α) (ws : List Warning) (f : α → Report β) :
    (noted a ws >>= f).failure? = (f a).failure? := by
  refine (failure?_bind fun b ws' h => ?_).trans (Option.none_or ..)
  rw [(noted_inj.1 h).1]

end Report

/-! ### A list of steps -/

theorem mapM_eq_ok_iff {ε α β : Type} {f : α → Except ε β} {l : List α} {bs : List β} :
    l.mapM f = .ok bs ↔ List.Forall₂ (fun a b => f a = .ok b) l bs := by
  induction l generalizing bs with
  | nil => cases bs <;> simp [pure, Except.pure]
  | cons a l ih =>
    rw [List.mapM_cons]
    cases ha : f a with
    | error e => cases bs <;> simp [bind, Except.bind, ha]
    | ok b =>
      cases hl : l.mapM f with
      | error e => cases bs <;> simp [bind, Except.bind, ha, ← ih, hl]
      | ok bs' => cases bs <;> simp [bind, Except.bind, pure, Except.pure, ha, ← ih, hl]

theorem exists_of_forall₂ {α β : Type} {R : α → β → Prop} {l : List α} {bs : List β} (h : List.Forall₂ R l bs)
    {b : β} (hb : b ∈ bs) : ∃ a ∈ l, R a b := by
  induction h with
  | nil => cases hb
  | @cons a b' l bs hab _ ih =>
    rcases List.mem_cons.1 hb with rfl | hb
    · exact ⟨a, List.mem_cons_self, hab⟩
    · obtain ⟨a', ha', h⟩ := ih hb
      exact ⟨a', List.mem_cons_of_mem _ ha', h⟩

theorem eq_filterMap_of_forall₂ {ε α β : Type} {f : α → Except ε β} {l : List α} {bs : List β}
    (h : List.Forall₂ (fun a b => f a = .ok b) l bs) : bs = l.filterMap fun a => (f a).toOption := by
  induction h with
  | nil => rfl
  | cons hab _ ih => rw [List.filterMap_cons, hab, ih]; rfl

theorem exists_mapM_eq_ok {ε α β : Type} {f : α → Except ε β} {l : List α} (h : ∀ a ∈ l, ∃ b, f a = .ok b) :
    ∃ bs, l.mapM f = .ok bs := by
  induction l with
  | nil => exact ⟨[], rfl⟩
  | cons a l ih =>
    obtain ⟨b, hb⟩ := h a List.mem_cons_self
    obtain ⟨bs, hbs⟩ := ih fun a ha => h a (List.mem_cons_of_mem _ ha)
    exact ⟨b :: bs, by rw [List.mapM_cons, hb, hbs]; rfl⟩

theorem mapM_congr {ε α β : Type} {f g : α → Except ε β} {l : List α} (h : ∀ a ∈ l, f a = g a) :
    l.mapM f = l.mapM g := by
  induction l with
  | nil => rfl
  | cons a l ih =>
    rw [List.mapM_cons, List.mapM_cons, h a List.mem_cons_self, ih fun a ha => h a (List.mem_cons_of_mem _ ha)]

/-- The first error stops the list. -/
theorem mapM_append_cons {ε α β : Type} {f : α → Except ε β} {before after : List α} {a : α} {e : ε}
    (h : ∀ x ∈ before, ∃ b, f x = .ok b) (ha : f a = .error e) : (before ++ a :: after).mapM f = .error e := by
  obtain ⟨bs, hbs⟩ := exists_mapM_eq_ok h
  rw [List.mapM_append, hbs, List.mapM_cons, ha]
  rfl

end ChartNormal
