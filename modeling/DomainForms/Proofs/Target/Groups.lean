import DomainForms.Proofs.Outcome
import DomainForms.Target.Generation
import Mathlib.Data.List.Perm.Basic

/-!
# Grouping by namespace

Generation opens a group for every namespace of the document, and then puts the types one after the
other into the group of their own namespace, opening it where there is none.  What this gives has a
closed form: a group for each name, in the order in which the names first occur, and in it the types
of that namespace, in the order in which they were generated.

* `Output.grouped`: the closed form.
* `Output.add_grouped`, `Output.foldl_add_grouped`: what one type changes, and what all give.
* `Model.generate_eq_ok`: generation gives the closed form.
* `Output.perm_types_grouped`: grouping loses no type and repeats none.
-/

namespace DomainForms

namespace Output

/-! ## The closed form -/

/-- A group for each of the names, which holds those of the types that lie in its namespace. -/
def grouped (names : List String) (types : List TypeDefinition) : Output :=
  ⟨names.eraseDups.map fun name => ⟨name, types.filter (·.scope = name)⟩⟩

theorem nodup_eraseDups (names : List String) : names.eraseDups.Nodup := by
  cases names with
  | nil => exact List.nodup_nil
  | cons first rest =>
    rw [List.eraseDups_cons, List.nodup_cons]
    refine ⟨?_, nodup_eraseDups _⟩
    rw [List.mem_eraseDups, List.mem_filter]
    simp
termination_by names.length
decreasing_by
  have := List.length_filter_le (fun name => !name == first) rest
  rw [List.length_cons]
  omega

theorem map_name_grouped (names : List String) (types : List TypeDefinition) :
    (grouped names types).groups.map Group.name = names.eraseDups := by
  rw [grouped, List.map_map]
  exact List.map_id _

variable {names : List String} {types : List TypeDefinition}

theorem opened_grouped (h : ∀ t ∈ types, t.scope ∈ names) (name : String) :
    (grouped names types).opened name = grouped (names ++ [name]) types := by
  have hany : (grouped names types).groups.any (·.name == name) = true ↔ name ∈ names := by
    simp [grouped]
  rw [opened]
  split
  · rename_i hopen
    have hnone : [name].removeAll names = [] := by simp [List.removeAll, hany.mp hopen]
    rw [grouped, grouped, List.eraseDups_append, hnone, List.eraseDups_nil, List.append_nil]
  · rename_i hclosed
    have hnew : name ∉ names := fun hm => hclosed (hany.mpr hm)
    have hsingle : [name].removeAll names = [name] := by simp [List.removeAll, hnew]
    have hempty : types.filter (·.scope = name) = [] := by
      rw [List.filter_eq_nil_iff]
      intro t ht he
      exact hnew (of_decide_eq_true he ▸ h t ht)
    rw [grouped, grouped, List.eraseDups_append, hsingle, List.map_append]
    simp [hempty, List.eraseDups_cons]

/-- **A further type goes behind the others of its namespace.** -/
theorem add_grouped (h : ∀ t ∈ types, t.scope ∈ names) (t : TypeDefinition) :
    (grouped names types).add t = grouped (names ++ [t.scope]) (types ++ [t]) := by
  rw [add, opened_grouped h, grouped, grouped, List.map_map]
  congr 1
  refine List.map_congr_left fun name _ => ?_
  rw [Function.comp_apply, List.filter_append]
  by_cases hname : name = t.scope
  · rw [if_pos hname, List.filter_singleton, hname]
    simp
  · rw [if_neg hname, List.filter_singleton]
    simp [Ne.symm hname]

/-- **The groups after all types were added.** -/
theorem foldl_add_grouped : ∀ (more : List TypeDefinition) {names : List String}
    {types : List TypeDefinition}, (∀ t ∈ types, t.scope ∈ names) →
    more.foldl add (grouped names types)
      = grouped (names ++ more.map TypeDefinition.scope) (types ++ more) := by
  intro more
  induction more with
  | nil => intro names types _; simp
  | cons first rest ih =>
    intro names types h
    have hstep : ∀ t ∈ types ++ [first], t.scope ∈ names ++ [first.scope] := by
      intro t ht
      rcases List.mem_append.1 ht with ht | ht
      · exact List.mem_append_left _ (h t ht)
      · rw [List.mem_singleton.1 ht]
        exact List.mem_append_right _ List.mem_cons_self
    rw [List.foldl_cons, add_grouped h, ih hstep, List.append_assoc, List.append_assoc]
    rfl

theorem foldl_opened_grouped : ∀ more names : List String,
    more.foldl opened (grouped names []) = grouped (names ++ more) [] := by
  intro more
  induction more with
  | nil => intro names; simp
  | cons first rest ih =>
    intro names
    rw [List.foldl_cons, opened_grouped (List.forall_mem_nil _), ih, List.append_assoc]
    rfl

/-! ## Nothing is lost or repeated -/

/-- Types that are sorted into different names are all there, once each. -/
theorem perm_flatMap_filter :
    ∀ {names : List String}, names.Nodup → ∀ {types : List TypeDefinition},
    (∀ t ∈ types, t.scope ∈ names) →
    (names.flatMap fun name => types.filter (·.scope = name)).Perm types := by
  intro names
  induction names with
  | nil =>
    intro _ types h
    rw [List.eq_nil_iff_forall_not_mem.2 fun t ht => List.not_mem_nil (h t ht)]
    exact List.Perm.refl _
  | cons first rest ih =>
    intro hnd types h
    rw [List.nodup_cons] at hnd
    -- the types of the other names are among those that do not have the first one
    have hrest : ∀ name ∈ rest, types.filter (·.scope = name)
        = (types.filter (fun t => !decide (t.scope = first))).filter (·.scope = name) := by
      intro name hm
      rw [List.filter_filter]
      refine List.filter_congr fun t _ => ?_
      have hne : name ≠ first := fun he => hnd.1 (he ▸ hm)
      by_cases ht : t.scope = name
      · simp [ht, hne]
      · simp [ht]
    have hothers : ∀ t ∈ types.filter (fun t => !decide (t.scope = first)), t.scope ∈ rest := by
      intro t ht
      obtain ⟨ht, hne⟩ := List.mem_filter.1 ht
      rcases List.mem_cons.1 (h t ht) with he | hm
      · simp [he] at hne
      · exact hm
    rw [List.flatMap_cons, List.flatMap_congr hrest]
    exact ((ih hnd.2 hothers).append_left _).trans (List.filter_append_perm _ types)

/-- **Grouping loses no type and repeats none.** -/
theorem perm_types_grouped (h : ∀ t ∈ types, t.scope ∈ names) :
    (grouped names types).types.Perm types := by
  rw [Output.types, grouped, List.flatMap_map]
  exact perm_flatMap_filter (nodup_eraseDups names) fun t ht => List.mem_eraseDups.2 (h t ht)

end Output

/-! ## Generated groups -/

/-- The full names of the namespaces that a document opens, in order. -/
def Document.scopeNames (d : Document) : List String :=
  d.namespaces.map fun scope => scope.name.fullName

namespace Model

variable {m : Model}

theorem placedTypes_eq_ok {scope : Namespace} {d : Declaration} {types : List TypeDefinition} :
    m.placedTypes scope d = .ok types ↔ m.declarationTypes scope.name d = .ok types := by
  rw [placedTypes]
  cases m.declarationTypes scope.name d with
  | ok generated => exact Iff.rfl
  | error e =>
    constructor
    · intro h
      cases h
    · intro h
      cases h

/-- **The types of a document are those of its declarations, one after the other.** -/
theorem types_eq_ok {types : List TypeDefinition} :
    m.types = .ok types ↔ ∃ lists, List.Forall₂ (fun (scope, d) list =>
      m.declarationTypes scope.name d = .ok list) m.document.declarations lists ∧
        lists.flatten = types := by
  rw [Model.types, Outcome.bind_eq_ok]
  refine exists_congr fun lists => ?_
  rw [Outcome.mapM_eq_ok, Outcome.pure_eq_ok, Except.ok.injEq]
  simp only [placedTypes_eq_ok]

theorem generate_eq_ok {o : Output} :
    m.generate = .ok o ↔ ∃ types, m.types = .ok types ∧
      .grouped (m.document.scopeNames ++ types.map TypeDefinition.scope) types = o := by
  have hempty : m.emptyGroups = .grouped m.document.scopeNames [] :=
    Output.foldl_opened_grouped m.document.scopeNames []
  rw [generate, Outcome.bind_eq_ok]
  refine exists_congr fun types => and_congr_right fun _ => ?_
  rw [hempty, Output.foldl_add_grouped types (List.forall_mem_nil _), Outcome.pure_eq_ok,
    Except.ok.injEq]
  rfl

/-- **The types of an output are the generated ones**, in another order. -/
theorem perm_types_of_generate {o : Output} (h : m.generate = .ok o) :
    ∃ types, m.types = .ok types ∧ o.types.Perm types := by
  obtain ⟨types, htypes, rfl⟩ := generate_eq_ok.mp h
  refine ⟨types, htypes, Output.perm_types_grouped fun t ht => ?_⟩
  exact List.mem_append_right _ (List.mem_map_of_mem ht)

end Model

end DomainForms
