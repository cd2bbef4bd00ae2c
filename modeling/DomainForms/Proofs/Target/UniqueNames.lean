import DomainForms.Proofs.Compilation
import DomainForms.Proofs.Target.Outline
import Mathlib.Data.List.Nodup

/-!
# When full names are unique

Where duplicates are refused, the declared full names are different, and so are the names of the
generated types that keep them.  The names of interfaces are different from each other as well,
because the prefix can be taken away again.  But nothing keeps the name of an interface from being
the declared name of another type, and this is the only way in which two types of an output come to
share a full name.

* `interfaceName_injective`: different services have different interfaces.
* `Compiler.perm_generated_names`: the full names of the interfaces and of all other types.
* `Output.lookups_agree_iff`: the first and the last type of a name are the same, for every name.
* `Compiler.distinct_fullNames_iff`: the full names of an output are different exactly if no
  interface has the name of a declared type.
-/

namespace DomainForms

open Text (IsPath)

/-! ## Names of interfaces -/

/-- Only the parent and the end of the last segment of an interface's name depend on the service. -/
theorem exists_segments_interfaceName (before : String) : ∃ init last, ∀ declared, IsPath declared →
    Text.segments (interfaceName before declared).toList
      = ((QualifiedName.parse declared).parent.segments.map String.toList ++ init)
        ++ [last ++ (QualifiedName.parse declared).simpleName.toList] := by
  obtain ⟨init, last, hsegments⟩ := Text.exists_segments_append before.toList
  refine ⟨init, last, fun declared hpath => ?_⟩
  have hproper := QualifiedName.parse_proper declared
  have hne := QualifiedName.segments_parse_ne_nil hpath
  have hsimple : '.' ∉ (QualifiedName.parse declared).simpleName.toList := by
    rw [QualifiedName.simpleName, List.getLast?_eq_some_getLast hne]
    exact (hproper _ (List.getLast_mem hne)).2
  rw [interfaceName, Text.segments_join_concat _ _ fun piece hm => (hproper.parent piece hm).2,
    String.toList_append, hsegments _ hsimple, List.append_assoc]

/-- **Different services have different interfaces.** -/
theorem interfaceName_injective {before a b : String} (ha : IsPath a) (hb : IsPath b)
    (h : interfaceName before a = interfaceName before b) : a = b := by
  obtain ⟨init, last, hsegments⟩ := exists_segments_interfaceName before
  have hcut := (hsegments a ha).symm.trans (h ▸ hsegments b hb)
  obtain ⟨hfront, hlast⟩ := List.append_singleton_inj.1 hcut
  have hparent :
      (QualifiedName.parse a).parent.segments = (QualifiedName.parse b).parent.segments :=
    List.map_injective_iff.2 (fun _ _ he => String.ext he) (List.append_cancel_right hfront)
  have hsimple : (QualifiedName.parse a).simpleName = (QualifiedName.parse b).simpleName :=
    String.ext (List.append_cancel_left hlast)
  rw [← QualifiedName.fullName_parse ha, ← QualifiedName.fullName_parse hb, QualifiedName.fullName,
    QualifiedName.fullName,
    ← QualifiedName.parent_concat_simpleName (QualifiedName.segments_parse_ne_nil ha),
    ← QualifiedName.parent_concat_simpleName (QualifiedName.segments_parse_ne_nil hb), hparent,
    hsimple]

/-! ## Interfaces and other types -/

/-- Whether a kind of type is that of interfaces. -/
def TypeKind.isInterface : TypeKind → Bool
  | interfaceType => true
  | _ => false

theorem TypeKind.isInterface_iff {kind : TypeKind} :
    kind.isInterface = true ↔ kind = .interfaceType := by
  cases kind <;> decide

namespace Document

/-- The declared full names of the services, in order. -/
def serviceNames (d : Document) : List String :=
  (d.outline.filter (·.2.isInterface)).map Prod.fst

/-- The declared full names of all types but the services, in order. -/
def plainNames (d : Document) : List String :=
  (d.outline.filter (!·.2.isInterface)).map Prod.fst

theorem isPath_of_mem_serviceNames {source : String} {d : Document} (h : parse source = .ok d)
    {name : String} (hn : name ∈ d.serviceNames) : IsPath name := by
  obtain ⟨entry, he, rfl⟩ := List.mem_map.1 hn
  exact isPath_of_mem_outline h (List.mem_filter.1 he).1

theorem perm_names (d : Document) :
    (d.serviceNames ++ d.plainNames).Perm (d.knownTypes.map KnownType.fullName) := by
  rw [map_fullName_knownTypes, serviceNames, plainNames, ← List.map_append]
  exact (List.filter_append_perm _ d.outline).map Prod.fst

theorem outline_withDefaults (filler : String) (d : Document) :
    (d.withDefaults filler).outline = d.outline := by
  have hdeclaration : ∀ scope (declaration : Declaration),
      (declaration.withDefaults filler).outline scope = declaration.outline scope := by
    intro scope declaration
    cases declaration with
    | record kind body => rfl
    | enumeration body => rfl
    | service body => simp [Declaration.withDefaults, Declaration.outline, Record.withDefaults]
  rw [outline, declarations_withDefaults, List.flatMap_map, outline]
  exact List.flatMap_congr fun _ _ => hdeclaration _ _

end Document

namespace Output

/-- The full names of the interfaces of an output. -/
def interfaceNames (o : Output) : List String :=
  (o.types.filter (·.kind.isInterface)).map TypeDefinition.fullName

/-- The full names of all other types of an output. -/
def plainNames (o : Output) : List String :=
  (o.types.filter (!·.kind.isInterface)).map TypeDefinition.fullName

theorem perm_fullNames (o : Output) :
    (o.interfaceNames ++ o.plainNames).Perm (o.types.map TypeDefinition.fullName) := by
  rw [interfaceNames, plainNames, ← List.map_append]
  exact (List.filter_append_perm _ o.types).map TypeDefinition.fullName

end Output

theorem TypeDefinition.RealizeAll.filter {before : String} {outline : List (String × TypeKind)}
    {types : List TypeDefinition} (h : RealizeAll before outline types) (p : TypeKind → Bool) :
    RealizeAll before (outline.filter (p ·.2)) (types.filter (p ·.kind)) := by
  induction h with
  | nil => exact .nil
  | cons ht _ ih =>
    rw [List.filter_cons, List.filter_cons, ht.kind_eq]
    split
    · exact .cons ht ih
    · exact ih

/-- **The full names of an output**: interfaces are named after the services, and all other types
have their declared names. -/
theorem Compiler.perm_generated_names {c : Compiler} {d : Document}
    (hpaths : ∀ entry ∈ d.outline, IsPath entry.1) {o : Output} (h : (c.model d).generate = .ok o) :
    o.interfaceNames.Perm (d.serviceNames.map (interfaceName c.settings.serviceInterfacePrefix)) ∧
      o.plainNames.Perm d.plainNames := by
  obtain ⟨types, htypes, hperm⟩ := Model.perm_types_of_generate h
  have hreal : TypeDefinition.RealizeAll c.settings.serviceInterfacePrefix d.outline types := by
    rw [← d.outline_withDefaults c.settings.defaultPropertyName]
    exact Model.realizes_of_types htypes
  have hinterfaces : (types.filter (·.kind.isInterface)).map TypeDefinition.fullName
      = d.serviceNames.map (interfaceName c.settings.serviceInterfacePrefix) := by
    rw [Document.serviceNames, List.map_map]
    refine (hreal.filter TypeKind.isInterface).map_eq fun entry he t ht => ?_
    obtain ⟨he, hk⟩ := List.mem_filter.1 he
    rw [ht.fullName_eq (hpaths entry he), ht.kind_eq, if_pos (TypeKind.isInterface_iff.1 hk)]
    rfl
  have hplain :
      (types.filter (!·.kind.isInterface)).map TypeDefinition.fullName = d.plainNames := by
    refine (hreal.filter (!·.isInterface)).map_eq fun entry he t ht => ?_
    obtain ⟨he, hk⟩ := List.mem_filter.1 he
    have hne : entry.2 ≠ .interfaceType := by
      rw [Ne, ← TypeKind.isInterface_iff]
      simpa using hk
    rw [ht.fullName_eq (hpaths entry he), ht.kind_eq, if_neg hne]
  rw [← hinterfaces, ← hplain]
  exact ⟨(hperm.filter _).map _, (hperm.filter _).map _⟩

/-! ## Looking up a full name -/

/-- The type that an evaluator knows by a name is the last one of that name. -/
theorem Evaluator.find?_of (o : Output) (name : String) :
    (Evaluator.of o).types.find? name = (o.types.filter (·.fullName == name)).getLast? := by
  rw [Evaluator.of, NameMap.find?_ofList, ← List.map_reverse, List.find?_map, Option.map_map,
    List.getLast?_filter]
  exact congrFun Option.map_id _

theorem TypeDefinition.length_named_le_one {types : List TypeDefinition}
    (h : (types.map TypeDefinition.fullName).Nodup) (name : String) :
    (types.filter (·.fullName == name)).length ≤ 1 := by
  have hnamed : (types.filter (·.fullName == name)).map TypeDefinition.fullName
      = List.replicate (types.filter (·.fullName == name)).length name := by
    rw [List.eq_replicate_iff]
    refine ⟨List.length_map _, fun found hf => ?_⟩
    obtain ⟨t, ht, rfl⟩ := List.mem_map.1 hf
    exact eq_of_beq (List.mem_filter.1 ht).2
  have hnd : ((types.filter (·.fullName == name)).map TypeDefinition.fullName).Nodup :=
    h.sublist (List.filter_sublist.map _)
  rwa [hnamed, List.nodup_replicate] at hnd

namespace Output

variable {o : Output}

/-- At most two types have a given name, if the interfaces have different names and so do the other
types. -/
theorem length_named_le_two (hinterfaces : o.interfaceNames.Nodup) (hplain : o.plainNames.Nodup)
    (name : String) : (o.types.filter (·.fullName == name)).length ≤ 2 := by
  have hone := TypeDefinition.length_named_le_one hinterfaces name
  have hother := TypeDefinition.length_named_le_one hplain name
  have hsplit := (List.filter_append_perm (·.kind.isInterface)
    (o.types.filter (·.fullName == name))).length_eq
  rw [List.filter_filter, List.filter_filter, List.length_append] at hsplit
  rw [List.filter_filter] at hone hother
  simp only [Bool.and_comm] at hone hother hsplit
  omega

/-- **The first and the last type of a name are the same for every name exactly if all full names
are different**, in an output whose interfaces have different names and whose other types do. -/
theorem lookups_agree_iff (hinterfaces : o.interfaceNames.Nodup) (hplain : o.plainNames.Nodup) :
    (∀ name, o.findType? name = (Evaluator.of o).types.find? name) ↔
      (o.types.map TypeDefinition.fullName).Nodup := by
  have hfirst : ∀ name, o.findType? name = (o.types.filter (·.fullName == name)).head? :=
    fun _ => List.head?_filter.symm
  simp only [hfirst, Evaluator.find?_of]
  constructor
  · intro h
    rw [← o.perm_fullNames.nodup_iff, List.nodup_append]
    refine ⟨hinterfaces, hplain, ?_⟩
    rintro name hi _ hp rfl
    obtain ⟨t, ht, hname⟩ := List.mem_map.1 hi
    obtain ⟨s, hs, hname'⟩ := List.mem_map.1 hp
    obtain ⟨ht, hkind⟩ := List.mem_filter.1 ht
    obtain ⟨hs, hkind'⟩ := List.mem_filter.1 hs
    have hne : t ≠ s := by
      rintro rfl
      rw [hkind] at hkind'
      cases hkind'
    -- an interface and another type of this name are all types of this name
    have htwo := length_named_le_two hinterfaces hplain name
    have hagree := h name
    have ht' : t ∈ o.types.filter (·.fullName == name) :=
      List.mem_filter.2 ⟨ht, beq_iff_eq.2 hname⟩
    have hs' : s ∈ o.types.filter (·.fullName == name) :=
      List.mem_filter.2 ⟨hs, beq_iff_eq.2 hname'⟩
    generalize o.types.filter (·.fullName == name) = named at htwo hagree ht' hs'
    match named with
    | [] => cases ht'
    | [x] => exact hne ((List.mem_singleton.1 ht').trans (List.mem_singleton.1 hs').symm)
    | [x, y] =>
      obtain rfl : x = y := Option.some.inj hagree
      simp only [List.mem_cons, List.not_mem_nil, or_false, or_self] at ht' hs'
      exact hne (ht'.trans hs'.symm)
    | _ :: _ :: _ :: _ => simp at htwo
  · intro h name
    have hone := TypeDefinition.length_named_le_one h name
    generalize o.types.filter (·.fullName == name) = named at hone
    match named with
    | [] => rfl
    | [x] => rfl
    | _ :: _ :: _ => simp at hone

end Output

/-! ## Compiled sources -/

namespace Compiler

variable {c : Compiler} {source : String} {d : Document} {o : Output}

theorem nodup_map_interfaceName (hdup : c.settings.allowDuplicateTypes = false)
    (hparse : Document.parse source = .ok d) (h : c.compileDocument d = .ok o) (before : String) :
    (d.serviceNames.map (interfaceName before)).Nodup := by
  have hnames := d.perm_names.nodup_iff.2 (nodup_knownTypes hdup h)
  refine List.Nodup.map_on (fun a ha b hb he => ?_) (List.nodup_append.1 hnames).1
  exact interfaceName_injective (Document.isPath_of_mem_serviceNames hparse ha)
    (Document.isPath_of_mem_serviceNames hparse hb) he

/-- **When full names are unique.**  Where duplicates are refused, the types of an output have
different full names exactly if no interface has the declared name of a record or an enumeration.
And exactly then do the first type of a name and the one that an evaluator knows agree, for every
name. -/
theorem distinct_fullNames_iff (hdup : c.settings.allowDuplicateTypes = false)
    (hparse : Document.parse source = .ok d) (h : c.compile source = .ok o) :
    ((o.types.map TypeDefinition.fullName).Nodup ↔ ∀ service ∈ d.serviceNames,
      interfaceName c.settings.serviceInterfacePrefix service ∉ d.plainNames) ∧
    ((∀ name, o.findType? name = (Evaluator.of o).types.find? name) ↔
      (o.types.map TypeDefinition.fullName).Nodup) := by
  have hdocument := compileDocument_of_compile hparse h
  obtain ⟨hinterfaces, hplain⟩ := perm_generated_names
    (fun _ he => Document.isPath_of_mem_outline hparse he) (compileDocument_eq_ok.mp hdocument).2
  have hinterfaces' : o.interfaceNames.Nodup :=
    hinterfaces.nodup_iff.2 (nodup_map_interfaceName hdup hparse hdocument _)
  have hplain' : o.plainNames.Nodup :=
    hplain.nodup_iff.2
      (List.nodup_append.1 (d.perm_names.nodup_iff.2 (nodup_knownTypes hdup hdocument))).2.1
  refine ⟨?_, Output.lookups_agree_iff hinterfaces' hplain'⟩
  rw [← o.perm_fullNames.nodup_iff, List.nodup_append, and_iff_right hinterfaces',
    and_iff_right hplain']
  constructor
  · intro hne service hs hp
    exact hne _ (hinterfaces.mem_iff.2 (List.mem_map_of_mem hs)) _ (hplain.mem_iff.2 hp) rfl
  · rintro hfree _ hi _ hp rfl
    obtain ⟨service, hs, rfl⟩ := List.mem_map.1 (hinterfaces.mem_iff.1 hi)
    exact hfree service hs (hplain.mem_iff.1 hp)

end Compiler

/-! ### A clash -/

namespace Clash

/-- A service, and a record with the name of its interface. -/
def source : String := "(namespace A(defapplicationservice X(defcommand C))(defdto IX))"

/-- What the source declares. -/
def document : Document := (Document.parse source).toOption.get (by decide +kernel)

/-- What the source compiles to, with standard settings. -/
def output : Output := (Compiler.standard.compile source).toOption.get (by decide +kernel)

theorem parse_source : Document.parse source = .ok document := by
  unfold document
  exact Outcome.eq_ok_get _

theorem compile_source : Compiler.standard.compile source = .ok output := by
  unfold output
  exact Outcome.eq_ok_get _

/-- The source compiles although duplicates are refused, to two types of one name, and looking up
that name does not always give the same type. -/
theorem fullNames_clash :
    Compiler.standard.settings.allowDuplicateTypes = false ∧
      Document.parse source = .ok document ∧ Compiler.standard.compile source = .ok output ∧
      ¬(output.types.map TypeDefinition.fullName).Nodup ∧
      ¬∀ name, output.findType? name = (Evaluator.of output).types.find? name := by
  have hiff := Compiler.distinct_fullNames_iff rfl parse_source compile_source
  have hclash : ¬∀ service ∈ document.serviceNames,
      interfaceName Compiler.standard.settings.serviceInterfacePrefix service
        ∉ document.plainNames := by
    decide +kernel
  have hshared := mt hiff.1.1 hclash
  exact ⟨rfl, parse_source, compile_source, hshared, mt hiff.2.1 hshared⟩

end Clash

end DomainForms
