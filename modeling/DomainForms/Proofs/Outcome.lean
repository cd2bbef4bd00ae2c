import Mathlib.Data.List.Forall2

/-!
# Steps that may fail

A step that may fail gives a value or an error, and steps in a row give the value of the last one if
none of them fails.

* `Outcome.bind_eq_ok`: two steps in a row succeed when both do.
* `Outcome.mapM_eq_ok`, `Outcome.forM_eq_ok`: a step made for every item of a list succeeds when all
  of them do.
-/

namespace DomainForms.Outcome

variable {ε α β : Type}

@[simp] theorem ok_bind (a : α) (next : α → Except ε β) : (Except.ok a >>= next) = next a := rfl

@[simp] theorem error_bind (e : ε) (next : α → Except ε β) :
    ((Except.error e : Except ε α) >>= next) = .error e := rfl

@[simp] theorem pure_eq_ok (a : α) : (pure a : Except ε α) = .ok a := rfl

theorem bind_eq_ok {step : Except ε α} {next : α → Except ε β} {b : β} :
    (step >>= next) = .ok b ↔ ∃ a, step = .ok a ∧ next a = .ok b := by
  cases step with
  | error e => simp
  | ok a => simp

theorem eq_ok_get {step : Except ε α} (h : step.toOption.isSome = true) :
    step = .ok (step.toOption.get h) := by
  cases step with
  | error e => cases h
  | ok a => rfl

/-- **A step for every item succeeds when all of them do**, with the results in the same order. -/
theorem mapM_eq_ok {step : α → Except ε β} : ∀ {items : List α} {results : List β},
    items.mapM step = .ok results ↔ List.Forall₂ (fun a b => step a = .ok b) items results := by
  intro items
  induction items with
  | nil =>
    intro results
    rw [List.mapM_nil, pure_eq_ok, List.forall₂_nil_left_iff, Except.ok.injEq, eq_comm]
  | cons first rest ih =>
    intro results
    rw [List.mapM_cons, bind_eq_ok]
    constructor
    · rintro ⟨b, hb, h⟩
      obtain ⟨bs, hbs, h⟩ := bind_eq_ok.mp h
      cases h
      exact List.Forall₂.cons hb (ih.mp hbs)
    · intro h
      cases h with
      | cons hb hbs =>
        refine ⟨_, hb, ?_⟩
        rw [ih.mpr hbs]
        rfl

theorem exists_of_mem_forall₂ {R : α → β → Prop} {items : List α} {results : List β}
    (h : List.Forall₂ R items results) {a : α} (ha : a ∈ items) : ∃ b ∈ results, R a b := by
  induction h with
  | nil => cases ha
  | cons hfirst _ ih =>
    rcases List.mem_cons.mp ha with rfl | hm
    · exact ⟨_, List.mem_cons_self, hfirst⟩
    · obtain ⟨b, hb, hr⟩ := ih hm
      exact ⟨b, List.mem_cons_of_mem _ hb, hr⟩

theorem exists_of_mem_mapM {step : α → Except ε β} {items : List α} {results : List β}
    (h : items.mapM step = .ok results) {b : β} (hb : b ∈ results) :
    ∃ a ∈ items, step a = .ok b :=
  exists_of_mem_forall₂ (List.Forall₂.flip (R := fun b a => step a = .ok b) (mapM_eq_ok.mp h)) hb

theorem forM_eq_ok {check : α → Except ε Unit} : ∀ {items : List α},
    items.forM check = .ok () ↔ ∀ a ∈ items, check a = .ok () := by
  intro items
  induction items with
  | nil => simp
  | cons first rest ih =>
    rw [List.forM, bind_eq_ok, List.forall_mem_cons]
    constructor
    · rintro ⟨_, hfirst, hrest⟩
      exact ⟨hfirst, ih.mp hrest⟩
    · rintro ⟨hfirst, hrest⟩
      exact ⟨(), hfirst, ih.mpr hrest⟩

end DomainForms.Outcome
