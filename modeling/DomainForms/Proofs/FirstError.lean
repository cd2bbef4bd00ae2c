import DomainForms.Proofs.KnownType.Table
import DomainForms.Proofs.Target.Record

/-!
# The first error

A walk over a list that ends with the first error is described by two words: an item is the first
one with a property, and an item is the first one whose name occurs before it.  Every walk of a
compilation is one of the two.

* `Outcome.IsFirst`: the first item with a property.
* `Outcome.forM_eq_error`, `Outcome.mapM_eq_error`: a step for every item fails where the first one
  of them that fails does.
* `Outcome.FirstRepeat`: the first item whose name occurs before it.
* `firstRepeated?_eq_some`: the search for such an item finds it.
* `KnownTypes.ofList_eq_error`: when there is no table of known types.
-/

namespace DomainForms

namespace Outcome

variable {ε α β : Type}

/-! ## The first item with a property -/

/-- An item of a list has a property, and none before it has. -/
def IsFirst (P : α → Prop) (items : List α) (a : α) : Prop :=
  ∃ before behind, items = before ++ a :: behind ∧ P a ∧ ∀ b ∈ before, ¬ P b

section

variable {P Q : α → Prop} {items : List α} {a : α}

theorem IsFirst.mem (h : IsFirst P items a) : a ∈ items := by
  obtain ⟨before, behind, rfl, -, -⟩ := h
  exact List.mem_append_right _ List.mem_cons_self

theorem IsFirst.holds (h : IsFirst P items a) : P a := by
  obtain ⟨before, behind, -, ha, -⟩ := h
  exact ha

theorem not_isFirst_nil : ¬ IsFirst P [] a := by
  intro h
  cases h.mem

theorem isFirst_cons {b : α} :
    IsFirst P (b :: items) a ↔ (P b ∧ b = a) ∨ (¬ P b ∧ IsFirst P items a) := by
  constructor
  · rintro ⟨before, behind, heq, ha, hbefore⟩
    cases before with
    | nil =>
      obtain ⟨rfl, rfl⟩ := List.cons.inj heq
      exact Or.inl ⟨ha, rfl⟩
    | cons c before =>
      obtain ⟨rfl, rfl⟩ := List.cons.inj heq
      exact Or.inr ⟨hbefore b List.mem_cons_self, before, behind, rfl, ha,
        fun d hd => hbefore d (List.mem_cons_of_mem _ hd)⟩
  · rintro (⟨hb, rfl⟩ | ⟨hb, before, behind, rfl, ha, hbefore⟩)
    · exact ⟨[], items, rfl, hb, List.forall_mem_nil _⟩
    · refine ⟨b :: before, behind, rfl, ha, ?_⟩
      intro d hd
      rcases List.mem_cons.1 hd with rfl | hd
      · exact hb
      · exact hbefore d hd

theorem exists_isFirst_iff : (∃ a, IsFirst P items a) ↔ ∃ a ∈ items, P a := by
  induction items with
  | nil =>
    constructor
    · rintro ⟨a, ha⟩
      exact absurd ha not_isFirst_nil
    · rintro ⟨a, ha, -⟩
      cases ha
  | cons b items ih =>
    by_cases hb : P b
    · exact ⟨fun _ => ⟨b, List.mem_cons_self, hb⟩, fun _ => ⟨b, isFirst_cons.2 (Or.inl ⟨hb, rfl⟩)⟩⟩
    · simp [isFirst_cons, hb, ih]

theorem isFirst_congr (h : ∀ a ∈ items, P a ↔ Q a) : IsFirst P items a ↔ IsFirst Q items a := by
  induction items with
  | nil => exact iff_of_false not_isFirst_nil not_isFirst_nil
  | cons b items ih =>
    rw [isFirst_cons, isFirst_cons, h b List.mem_cons_self,
      ih fun c hc => h c (List.mem_cons_of_mem _ hc)]

end

theorem exists_split_of_forall₂ {R : α → β → Prop} {a : α} {behind : List α} :
    ∀ {before : List α} {others : List β}, List.Forall₂ R (before ++ a :: behind) others →
      ∃ before' b behind', others = before' ++ b :: behind' ∧ List.Forall₂ R before before' ∧
        R a b := by
  intro before
  induction before with
  | nil =>
    intro others h
    cases h with
    | cons ha _ => exact ⟨[], _, _, rfl, .nil, ha⟩
  | cons c before ih =>
    intro others h
    cases h with
    | cons hc hrest =>
      obtain ⟨before', b, behind', rfl, hbefore, ha⟩ := ih hrest
      exact ⟨_ :: before', b, behind', rfl, .cons hc hbefore, ha⟩

theorem IsFirst.of_forall₂ {R : α → β → Prop} {P : α → Prop} {Q : β → Prop} {items : List α}
    {others : List β} (h : List.Forall₂ R items others) (hPQ : ∀ a b, R a b → (P a ↔ Q b)) {a : α}
    (hf : IsFirst P items a) : ∃ b, IsFirst Q others b ∧ R a b := by
  obtain ⟨before, behind, rfl, ha, hbefore⟩ := hf
  obtain ⟨before', b, behind', rfl, hrel, hab⟩ := exists_split_of_forall₂ h
  refine ⟨b, ⟨before', behind', rfl, (hPQ a b hab).1 ha, ?_⟩, hab⟩
  intro b' hb' hq
  obtain ⟨a', ha', hr⟩ := exists_of_mem_forall₂ hrel.flip hb'
  exact hbefore a' ha' ((hPQ a' b' hr).2 hq)

/-! ## Steps that fail -/

/-- The error of a step, if it fails. -/
def error? : Except ε α → Option ε
  | .ok _ => none
  | .error e => some e

theorem error?_eq_some {step : Except ε α} {e : ε} : error? step = some e ↔ step = .error e := by
  cases step with
  | ok a => simp [error?]
  | error e' => simp [error?]

theorem bind_eq_error {step : Except ε α} {next : α → Except ε β} {e : ε} :
    (step >>= next) = .error e ↔ step = .error e ∨ ∃ a, step = .ok a ∧ next a = .error e := by
  cases step with
  | error e' => simp
  | ok a => simp

theorem exists_ok_iff {step : Except ε α} : (∃ a, step = .ok a) ↔ ¬ ∃ e, step = .error e := by
  cases step with
  | ok a => simp
  | error e => simp

/-- **A check of every item fails where the first one that fails does.** -/
theorem forM_eq_error {check : α → Except ε Unit} {e : ε} : ∀ {items : List α},
    items.forM check = .error e ↔
      ∃ a, IsFirst (fun a => ∃ e, check a = .error e) items a ∧ check a = .error e := by
  intro items
  induction items with
  | nil =>
    constructor
    · intro h
      cases h
    · rintro ⟨a, ha, -⟩
      exact absurd ha not_isFirst_nil
  | cons first rest ih =>
    rw [List.forM, bind_eq_error, ih]
    cases hfirst : check first with
    | error e' =>
      simp [isFirst_cons, hfirst]
    | ok u =>
      simp [isFirst_cons, hfirst]

/-- **A step for every item fails where the first one that fails does.** -/
theorem mapM_eq_error {step : α → Except ε β} {e : ε} : ∀ {items : List α},
    items.mapM step = .error e ↔
      ∃ a, IsFirst (fun a => ∃ e, step a = .error e) items a ∧ step a = .error e := by
  intro items
  induction items with
  | nil =>
    constructor
    · intro h
      cases h
    · rintro ⟨a, ha, -⟩
      exact absurd ha not_isFirst_nil
  | cons first rest ih =>
    rw [List.mapM_cons, bind_eq_error]
    cases hfirst : step first with
    | error e' =>
      simp [isFirst_cons, hfirst]
    | ok b =>
      simp [isFirst_cons, hfirst, bind_eq_error, ih]

theorem exists_firstError_iff {κ : Type} {step : α → Except ε β} {Fails : α → κ → Prop}
    {report : α → κ → ε} {items : List α}
    (h : ∀ a ∈ items, ∀ e, step a = .error e ↔ ∃ k, Fails a k ∧ e = report a k) {e : ε} :
    (∃ a, IsFirst (fun a => ∃ e, step a = .error e) items a ∧ step a = .error e) ↔
      ∃ a k, IsFirst (fun a => ∃ k, Fails a k) items a ∧ Fails a k ∧ e = report a k := by
  have hfails : ∀ a ∈ items, (∃ e, step a = .error e) ↔ ∃ k, Fails a k := by
    intro a ha
    simp only [h a ha]
    exact ⟨fun ⟨_, k, hk, _⟩ => ⟨k, hk⟩, fun ⟨k, hk⟩ => ⟨_, k, hk, rfl⟩⟩
  simp only [isFirst_congr hfails]
  refine exists_congr fun a => ?_
  constructor
  · rintro ⟨ha, hstep⟩
    obtain ⟨k, hk, rfl⟩ := (h a ha.mem e).1 hstep
    exact ⟨k, ha, hk, rfl⟩
  · rintro ⟨k, ha, hk⟩
    exact ⟨ha, (h a ha.mem e).2 ⟨k, hk⟩⟩

/-! ## The first item whose name repeats -/

/-- The name of an item of a list occurs before it, and the names before it are different. -/
def FirstRepeat (name : α → String) (items : List α) (a : α) : Prop :=
  ∃ before behind, items = before ++ a :: behind ∧ name a ∈ before.map name ∧
    (before.map name).Nodup

theorem FirstRepeat.not_nodup {name : α → String} {items : List α} {a : α}
    (h : FirstRepeat name items a) : ¬ (items.map name).Nodup := by
  obtain ⟨before, behind, rfl, ha, -⟩ := h
  rw [List.map_append, List.map_cons]
  intro hnd
  exact (List.nodup_append.1 hnd).2.2 _ ha _ List.mem_cons_self rfl

theorem FirstRepeat.of_forall₂ {R : α → β → Prop} {name : α → String} {name' : β → String}
    {items : List α} {others : List β} (h : List.Forall₂ R items others)
    (hname : ∀ a b, R a b → name a = name' b) {a : α} (hf : FirstRepeat name items a) :
    ∃ b, FirstRepeat name' others b ∧ R a b := by
  obtain ⟨before, behind, rfl, ha, hnd⟩ := hf
  obtain ⟨before', b, behind', rfl, hrel, hab⟩ := exists_split_of_forall₂ h
  have hnames : before.map name = before'.map name' := by
    rw [← List.forall₂_eq_eq_eq, List.forall₂_map_left_iff, List.forall₂_map_right_iff]
    exact hrel.imp fun a b => hname a b
  rw [hname a b hab, hnames] at ha
  rw [hnames] at hnd
  exact ⟨b, ⟨before', behind', rfl, ha, hnd⟩, hab⟩

theorem firstRepeat_map {name : α → String} {items : List α} {repeated : String} :
    FirstRepeat id (items.map name) repeated ↔
      ∃ a, FirstRepeat name items a ∧ name a = repeated := by
  have hrel : List.Forall₂ (fun a repeated => name a = repeated) items (items.map name) := by
    rw [List.forall₂_map_right_iff]
    exact List.forall₂_same.2 fun _ _ => rfl
  constructor
  · intro h
    exact h.of_forall₂ (R := fun repeated a => name a = repeated) hrel.flip fun _ _ he => he.symm
  · rintro ⟨a, h, rfl⟩
    obtain ⟨repeated, hrepeated, rfl⟩ := h.of_forall₂ hrel fun _ _ he => he
    exact hrepeated

end Outcome

open Outcome

/-- The search for a repeated name, where `seen` are the names that count as found before. -/
theorem firstRepeated?_eq_some_iff {α : Type} {name : α → String} {a : α} :
    ∀ {items : List α} {seen : List String}, firstRepeated? name seen items = some a ↔
      ∃ before behind, items = before ++ a :: behind ∧ name a ∈ seen ++ before.map name ∧
        (before.map name).Nodup ∧ ∀ b ∈ before, name b ∉ seen := by
  intro items
  induction items with
  | nil =>
    intro seen
    constructor
    · intro h
      cases h
    · rintro ⟨before, behind, h, -⟩
      cases before <;> cases h
  | cons first rest ih =>
    intro seen
    rw [firstRepeated?]
    by_cases hfirst : name first ∈ seen
    · rw [if_pos (List.contains_iff_mem.2 hfirst)]
      constructor
      · intro h
        cases h
        exact ⟨[], rest, rfl, List.mem_append_left _ hfirst, List.nodup_nil,
          List.forall_mem_nil _⟩
      · rintro ⟨before, behind, heq, -, -, hnew⟩
        cases before with
        | nil => rw [(List.cons.inj heq).1]
        | cons b before =>
          rw [(List.cons.inj heq).1] at hfirst
          exact absurd hfirst (hnew b List.mem_cons_self)
    · rw [if_neg (mt List.contains_iff_mem.1 hfirst), ih]
      constructor
      · rintro ⟨before, behind, rfl, ha, hnd, hnew⟩
        refine ⟨first :: before, behind, rfl, ?_, ?_, ?_⟩
        · simpa [or_left_comm] using ha
        · rw [List.map_cons, List.nodup_cons]
          refine ⟨?_, hnd⟩
          intro hm
          obtain ⟨b, hb, he⟩ := List.mem_map.1 hm
          exact hnew b hb (he ▸ List.mem_cons_self)
        · intro b hb
          rcases List.mem_cons.1 hb with rfl | hb
          · exact hfirst
          · exact fun hin => hnew b hb (List.mem_cons_of_mem _ hin)
      · rintro ⟨before, behind, heq, ha, hnd, hnew⟩
        cases before with
        | nil =>
          obtain ⟨rfl, rfl⟩ := List.cons.inj heq
          exact absurd (by simpa using ha) hfirst
        | cons b before =>
          obtain ⟨rfl, rfl⟩ := List.cons.inj heq
          rw [List.map_cons, List.nodup_cons] at hnd
          refine ⟨before, behind, rfl, ?_, hnd.2, ?_⟩
          · simpa [or_left_comm] using ha
          · intro c hc hin
            rcases List.mem_cons.1 hin with he | hin
            · exact hnd.1 (he ▸ List.mem_map_of_mem hc)
            · exact hnew c (List.mem_cons_of_mem _ hc) hin

/-- **The search for a repeated name finds the first one.** -/
theorem firstRepeated?_eq_some {α : Type} {name : α → String} {items : List α} {a : α} :
    firstRepeated? name [] items = some a ↔ FirstRepeat name items a := by
  rw [firstRepeated?_eq_some_iff, FirstRepeat]
  simp

theorem Outcome.exists_firstRepeat_iff {α : Type} {name : α → String} {items : List α} :
    (∃ a, FirstRepeat name items a) ↔ ¬ (items.map name).Nodup := by
  constructor
  · rintro ⟨a, ha⟩
    exact ha.not_nodup
  · intro hnd
    cases hsearch : firstRepeated? name [] items with
    | none => exact absurd (firstRepeated?_eq_none hsearch).1 hnd
    | some a => exact ⟨a, firstRepeated?_eq_some.1 hsearch⟩

/-! ## No table -/

namespace KnownTypes

/-- Refusing duplicates is a search for a repeated name. -/
theorem extend_eq : ∀ (types : List KnownType) (table : KnownTypes) (seen : List String),
    (∀ name, table.contains name = true ↔ name ∈ seen) →
      extend false table types = match firstRepeated? KnownType.fullName seen types with
        | some repeated => .error (.of (.duplicateType repeated.fullName))
        | none => .ok (types.foldl insert table) := by
  intro types
  induction types with
  | nil => intro table seen _; rfl
  | cons first rest ih =>
    intro table seen hseen
    rw [extend, firstRepeated?]
    by_cases hfirst : first.fullName ∈ seen
    · simp [(hseen _).2 hfirst, hfirst]
    · have hnot : table.contains first.fullName = false := by
        rw [Bool.eq_false_iff]
        exact mt (hseen _).1 hfirst
      simp only [hnot, Bool.not_false, Bool.and_false, Bool.false_eq_true, if_false,
        List.contains_iff_mem, hfirst, List.foldl_cons]
      refine ih _ _ fun name => ?_
      rw [contains_insert, hseen, List.mem_cons, eq_comm]

/-- **When there is no table of known types**: duplicates are refused, and a full name repeats. -/
theorem ofList_eq_error {allowDuplicates : Bool} {types : List KnownType} {e : Error} :
    ofList types allowDuplicates = .error e ↔ allowDuplicates = false ∧
      ∃ name, FirstRepeat id (types.map KnownType.fullName) name ∧ e = .of (.duplicateType name) := by
  cases allowDuplicates with
  | true =>
    have hok : ofList types true = .ok (types.foldl insert empty) :=
      ofList_eq_ok.2 ⟨nofun, rfl⟩
    simp [hok]
  | false =>
    have hempty : ∀ name, empty.contains name = true ↔ name ∈ ([] : List String) := by
      intro name
      simp [contains, get?, empty, NameMap.find?]
    rw [ofList, extend_eq types empty [] hempty]
    simp only [firstRepeat_map, true_and]
    cases hsearch : firstRepeated? KnownType.fullName [] types with
    | some repeated =>
      have hfirst := firstRepeated?_eq_some.1 hsearch
      constructor
      · intro h
        exact ⟨_, ⟨repeated, hfirst, rfl⟩, (Except.error.inj h).symm⟩
      · rintro ⟨_, ⟨type, htype, rfl⟩, rfl⟩
        rw [firstRepeated?_eq_some.2 htype] at hsearch
        cases hsearch
        rfl
    | none =>
      constructor
      · intro h
        cases h
      · rintro ⟨_, ⟨type, htype, rfl⟩, -⟩
        rw [firstRepeated?_eq_some.2 htype] at hsearch
        cases hsearch

theorem contains_ofList {allowDuplicates : Bool} {types : List KnownType} {table : KnownTypes}
    (h : ofList types allowDuplicates = .ok table) {name : String} :
    table.contains name = true ↔ name ∈ types.map KnownType.fullName := by
  have hfold : ∀ (types : List KnownType) (table : KnownTypes),
      (types.foldl insert table).contains name = true ↔
        name ∈ types.map KnownType.fullName ∨ table.contains name = true := by
    intro types
    induction types with
    | nil => intro table; simp
    | cons first rest ih =>
      intro table
      rw [List.foldl_cons, ih, contains_insert, List.map_cons, List.mem_cons]
      tauto
  obtain ⟨-, rfl⟩ := ofList_eq_ok.1 h
  rw [hfold]
  simp [contains, get?, empty, NameMap.find?]

end KnownTypes

end DomainForms
