import DomainForms.Proofs.Eval.WellFormed
import DomainForms.Proofs.Target.UniqueNames

/-!
# What is classified as a value is a struct

A name that is declared more than once means its last declaration, both to the table of known types
and to an evaluator: types of one full name lie in one group, where they keep the order of their
declarations.  Only interfaces lie elsewhere, and no interface is a value type.  So wherever a class
or struct is found under a name that is classified as a value type, it is a struct.

* `Output.filter_types_grouped`: types of one namespace keep their order.
* `Model.getLast?_outline_of_record?`, `KnownTypes.get?_ofList`: what an evaluator finds for a name,
  and what the table does.
* `Compiler.kind_eq_struct_of_isValue`: **a class is never classified as a value type.**
-/

namespace DomainForms

/-! ## The last of a name -/

theorem getLast?_filter_and {α : Type} {p q : α → Bool} {items : List α} {a : α}
    (h : (items.filter p).getLast? = some a) (hq : q a = true) :
    (items.filter fun x => p x && q x).getLast? = some a := by
  obtain ⟨init, hinit⟩ := List.getLast?_eq_some_iff.mp h
  simp only [Bool.and_comm (p _)]
  rw [← List.filter_filter, hinit, List.filter_append, List.filter_singleton, hq]
  simp

theorem flatMap_eq_of_nodup {α β : Type} {f : α → List β} {a : α} (hf : ∀ x, x ≠ a → f x = []) :
    ∀ {items : List α}, items.Nodup → a ∈ items → items.flatMap f = f a := by
  intro items
  induction items with
  | nil => intro _ hm; cases hm
  | cons first rest ih =>
    intro hnd hm
    rw [List.nodup_cons] at hnd
    rw [List.flatMap_cons]
    by_cases hfirst : first = a
    · subst hfirst
      have hrest : rest.flatMap f = [] := by
        rw [List.flatMap_eq_nil_iff]
        exact fun x hx => hf x fun he => hnd.1 (he ▸ hx)
      rw [hrest, List.append_nil]
    · rw [hf first hfirst, List.nil_append]
      exact ih hnd.2 ((List.mem_cons.mp hm).resolve_left (Ne.symm hfirst))

/-- **Types of one namespace keep their order.** -/
theorem Output.filter_types_grouped {names : List String} {types : List TypeDefinition}
    {p : TypeDefinition → Bool} {scope : String} (hp : ∀ t ∈ types, p t = true → t.scope = scope)
    (hscope : scope ∈ names) : (grouped names types).types.filter p = types.filter p := by
  have hother : ∀ name, name ≠ scope → (types.filter (·.scope = name)).filter p = [] := by
    intro name hne
    rw [List.filter_filter, List.filter_eq_nil_iff]
    intro t ht hboth
    obtain ⟨hpt, hname⟩ := Bool.and_eq_true_iff.mp hboth
    exact hne ((of_decide_eq_true hname).symm.trans (hp t ht hpt))
  rw [Output.types, grouped, List.flatMap_map, List.filter_flatMap,
    flatMap_eq_of_nodup hother (nodup_eraseDups names) (List.mem_eraseDups.mpr hscope),
    List.filter_filter]
  refine List.filter_congr fun t ht => ?_
  cases hpt : p t with
  | false => rfl
  | true => simp [hp t ht hpt]

open Text (IsPath)

theorem TypeDefinition.Realizes.entry_eq {before : String} {entry : String × TypeKind}
    {t : TypeDefinition} (h : t.Realizes before entry.1 entry.2) (hp : IsPath entry.1)
    (hplain : (!t.kind.isInterface) = true) : (t.fullName, t.kind) = entry := by
  have hne : t.kind ≠ .interfaceType := by
    rw [Ne, ← TypeKind.isInterface_iff]
    simpa using hplain
  rw [h.fullName_eq hp, if_neg hne, h.kind_eq]

theorem not_isInterface_of_isInstantiable {kind : TypeKind}
    (h : Evaluator.isInstantiable kind = true) : (!kind.isInterface) = true := by
  cases kind with
  | interfaceType => cases h
  | _ => rfl

namespace Model

variable {m : Model} {types : List TypeDefinition} {o : Output} {typeName : String}

theorem getLast?_types_of_record? (hpaths : ∀ entry ∈ m.document.outline, IsPath entry.1)
    (htypes : m.types = .ok types) (hgen : m.generate = .ok o) {t : TypeDefinition}
    (ht : (Evaluator.of o).record? typeName = some t) :
    (types.filter fun u => u.fullName == typeName && !u.kind.isInterface).getLast? = some t := by
  obtain ⟨hfind, hk⟩ := Evaluator.record?_eq_some.mp ht
  have hplain := not_isInterface_of_isInstantiable hk
  obtain ⟨types', htypes', rfl⟩ := generate_eq_ok.mp hgen
  cases htypes.symm.trans htypes'
  obtain ⟨hmem, hname⟩ := Evaluator.mem_types_of_find? hfind
  have hin : t ∈ types := (Output.perm_types_grouped fun u hu =>
    List.mem_append_right _ (List.mem_map_of_mem hu)).mem_iff.mp hmem
  -- what is no interface lies in the namespace of its full name
  have hscope : ∀ u ∈ types, (u.fullName == typeName && !u.kind.isInterface) = true →
      u.scope = (QualifiedName.parse typeName).parent.fullName := by
    intro u hu hboth
    obtain ⟨hfull, hinterface⟩ := Bool.and_eq_true_iff.mp hboth
    obtain ⟨entry, he, hreal⟩ := Outcome.exists_of_mem_forall₂ (realizes_of_types htypes).flip hu
    rw [hreal.scope_eq, ← hreal.entry_eq (hpaths entry he) hinterface, beq_iff_eq.mp hfull]
  have hopen : (QualifiedName.parse typeName).parent.fullName
      ∈ m.document.scopeNames ++ types.map TypeDefinition.scope := by
    rw [← hscope t hin (by rw [hname, hplain, beq_self_eq_true, Bool.and_true])]
    exact List.mem_append_right _ (List.mem_map_of_mem hin)
  rw [← Output.filter_types_grouped hscope hopen]
  refine getLast?_filter_and (q := fun u : TypeDefinition => !u.kind.isInterface) ?_ hplain
  rw [← Evaluator.find?_of]
  exact hfind

/-- **What an evaluator finds** is the last of its name in the outline, services left out. -/
theorem getLast?_outline_of_record? (hpaths : ∀ entry ∈ m.document.outline, IsPath entry.1)
    (hgen : m.generate = .ok o) {t : TypeDefinition}
    (ht : (Evaluator.of o).record? typeName = some t) :
    (m.document.outline.filter fun entry => entry.1 == typeName && !entry.2.isInterface).getLast?
      = some (typeName, t.kind) := by
  obtain ⟨-, rfl⟩ := Evaluator.mem_types_of_find? (Evaluator.record?_eq_some.mp ht).1
  obtain ⟨types, htypes, -⟩ := generate_eq_ok.mp hgen
  have hlast := getLast?_types_of_record? hpaths htypes hgen ht
  have hentries : (types.filter (!·.kind.isInterface)).map (fun t => (t.fullName, t.kind))
      = m.document.outline.filter (!·.2.isInterface) := by
    rw [← List.map_id (m.document.outline.filter (!·.2.isInterface))]
    refine ((realizes_of_types htypes).filter (!·.isInterface)).map_eq fun entry he u hu => ?_
    obtain ⟨he, hinterface⟩ := List.mem_filter.mp he
    rw [← hu.kind_eq] at hinterface
    exact hu.entry_eq (hpaths entry he) hinterface
  rw [← List.filter_filter] at hlast ⊢
  rw [← hentries, List.filter_map, List.getLast?_map]
  exact congrArg (Option.map fun t : TypeDefinition => (t.fullName, t.kind)) hlast

end Model

/-! ## The table -/

theorem KnownTypes.get?_ofList {allowDuplicates : Bool} {types : List KnownType}
    {table : KnownTypes} (h : ofList types allowDuplicates = .ok table) (name : String) :
    table.get? name = (types.filter (·.fullName == name)).getLast? := by
  obtain ⟨-, rfl⟩ := ofList_eq_ok.mp h
  rw [get?, entries_foldl_insert]
  show NameMap.find? name (.ofList _) = _
  rw [NameMap.find?_ofList, ← List.map_reverse, List.find?_map, Option.map_map, List.getLast?_filter]
  exact congrFun Option.map_id _

namespace Compiler

variable {c : Compiler} {source : String} {d : Document} {o : Output}

/-- **A class is never classified as a value type**: a class or struct that is found under the name of
a value type is a struct. -/
theorem kind_eq_struct_of_isValue (hparse : Document.parse source = .ok d)
    (h : c.compileDocument d = .ok o) {name : QualifiedName} {t : TypeDefinition}
    (ht : (Evaluator.of o).record? name.fullName = some t)
    (hvalue : (c.model d).isValue (.named name) = true) : t.kind = .structType := by
  obtain ⟨⟨table, htable⟩, hgen⟩ := compileDocument_eq_ok.mp h
  have houtline : (c.model d).document.outline = d.outline :=
    d.outline_withDefaults c.settings.defaultPropertyName
  have hlast := Model.getLast?_outline_of_record? (houtline ▸ fun entry he =>
    Document.isPath_of_mem_outline hparse he) hgen ht
  rw [houtline] at hlast
  -- the name is declared, so the table knows it
  have hget : table.get? name.fullName
      = ((d.outline.filter (·.1 == name.fullName)).getLast?).map
        fun entry => ⟨entry.1, entry.2.isValueType⟩ := by
    rw [knownTypes_model, Document.knownTypes_eq_outline] at htable
    rw [KnownTypes.get?_ofList htable, List.filter_map, List.getLast?_map]
    rfl
  cases hentry : (d.outline.filter (·.1 == name.fullName)).getLast? with
  | none =>
    rw [List.getLast?_eq_none_iff, List.filter_eq_nil_iff] at hentry
    obtain ⟨hin, hboth⟩ := List.mem_filter.mp (List.mem_of_getLast? hlast)
    exact absurd (Bool.and_eq_true_iff.mp hboth).1 (hentry _ hin)
  | some entry =>
    have hresolved : (c.model d).resolve ⟨[]⟩ (.named name)
        = .ok ⟨.ofName entry.1, entry.2.isValueType, .declared⟩ := by
      refine Model.resolveName_eq_ok.mpr
        ⟨table, htable, Or.inl ⟨⟨entry.1, entry.2.isValueType⟩, ?_, rfl⟩⟩
      rw [candidates_root, List.findSome?_singleton, hget, hentry]
      rfl
    rw [Model.isValue, Model.isValueType, hresolved] at hvalue
    have hkind : entry.2 = .structType ∨ entry.2 = .enumType := TypeKind.isValueType_iff.mp hvalue
    have hplain : (!entry.2.isInterface) = true := by
      rcases hkind with hkind | hkind <;> rw [hkind] <;> rfl
    have hsame := getLast?_filter_and (q := fun entry => !entry.2.isInterface) hentry hplain
    obtain rfl : (name.fullName, t.kind) = entry := Option.some.inj (hlast.symm.trans hsame)
    refine hkind.resolve_right fun henum => ?_
    have hinstantiable := (Evaluator.record?_eq_some.mp ht).2
    rw [show t.kind = .enumType from henum] at hinstantiable
    cases hinstantiable

end Compiler

end DomainForms
