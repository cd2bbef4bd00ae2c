import DomainForms.Proofs.Target.UniqueNames

/-!
# References between types

The data of a type, which are its fields, its constructor parameters and its readable properties,
refer to other types by name.  Where unknown names are refused, each of these names is a declared
full name or that of a system type.  A record or an enumeration has its declared full name in the
output, and so a reference to it leads there.  A service has not, since its interface goes by
another name: a reference to a service leads nowhere, and no other reference does.

* `Output.references`: the names that the data of an output refer to.
* `Model.known_or_system_of_resolve`: strict resolution gives declared names and system types.
* `TypeDefinition.IsRecord.dataTypes_eq`: the data of a record type have the types of its slots.
* `Compiler.dangles_iff_service`: which references lead nowhere.
-/

namespace DomainForms

/-! ## The names that data refer to -/

/-- The names in a type. -/
def TypeRef.names : TypeRef → List QualifiedName
  | named name => [name]
  | array element _ => element.names
  | _ => []

/-- The types of the data behind a member: of a field, of the parameters of a constructor, or of a
readable property. -/
def Member.dataTypes : Member → List TypeRef
  | field f => [f.type]
  | constructor c => c.parameters.map Parameter.type
  | accessor a => [a.type]
  | _ => []

/-- The types of all data of a type. -/
def TypeDefinition.dataTypes (t : TypeDefinition) : List TypeRef :=
  t.members.flatMap Member.dataTypes

namespace Output

/-- The names that the data of an output refer to. -/
def references (o : Output) : List QualifiedName :=
  o.types.flatMap fun t => t.dataTypes.flatMap TypeRef.names

/-- A name leads nowhere: it is neither the full name of a type of the output nor a system type. -/
def Dangles (o : Output) (name : QualifiedName) : Prop :=
  name.fullName ∉ o.types.map TypeDefinition.fullName ∧ systemValueType? name = none

end Output

/-! ## Resolved names -/

namespace Model

variable {m : Model}

/-- **Strict resolution gives known names only**: each name in a resolved type is one of the table
or a system type. -/
theorem known_or_system_of_resolve (hm : m.KnowsPaths)
    (hstrict : m.settings.strictTypeResolution = true) {scope : QualifiedName} :
    ∀ {type : TypeRef} {r : Resolved}, m.resolve scope type = .ok r → ∀ name ∈ r.type.names,
      (∃ table known, m.knownTypes = .ok table ∧ table.get? name.fullName = some known) ∨
        systemValueType? name ≠ none := by
  intro type
  induction type with
  | simple p => intro r h name hn; cases h; cases hn
  | nullable p => intro r h name hn; cases h; cases hn
  | string => intro r h name hn; cases h; cases hn
  | array element ranks ih =>
    intro r h name hn
    rw [resolve] at h
    obtain ⟨inner, hinner, h⟩ := Outcome.bind_eq_ok.1 h
    cases h
    exact ih hinner name hn
  | named written =>
    intro r h name hn
    obtain ⟨table, htable, ⟨known, hfind, rfl⟩ | ⟨-, ⟨isValueType, hs, rfl⟩ | ⟨-, hlax, -⟩⟩⟩ :=
      resolveName_eq_ok.1 h
    · obtain ⟨candidate, -, hget⟩ := List.exists_of_findSome?_eq_some hfind
      obtain ⟨rfl, hpath⟩ := hm htable hget
      obtain rfl := List.mem_singleton.1 hn
      exact Or.inl ⟨table, known, htable, by rwa [QualifiedName.fullName_parse hpath]⟩
    · obtain rfl := List.mem_singleton.1 hn
      exact Or.inr (by rw [hs]; exact Option.some_ne_none _)
    · rw [hstrict] at hlax
      cases hlax

end Model

/-! ## The data of generated types -/

/-- **The data of a record type have the types of its slots**, once for the fields, once for the
constructor and once for the readable properties. -/
theorem TypeDefinition.IsRecord.dataTypes_eq {t : TypeDefinition} {kind : RecordKind}
    {slots : List Slot} (h : t.IsRecord kind slots) :
    t.dataTypes = slots.map Slot.type ++ slots.map Slot.type ++ slots.map Slot.type := by
  obtain ⟨owner, body, -, hmembers⟩ := h.members_eq
  have hfields : (slots.mapIdx fun index s =>
      Member.field (s.toField kind.isSerializable index)).flatMap Member.dataTypes
        = slots.map Slot.type := by
    rw [List.mapIdx_eq_zipIdx_map, List.flatMap_map]
    calc slots.zipIdx.flatMap (fun entry => [entry.1.type])
        = slots.zipIdx.map (fun entry => entry.1.type) := List.map_eq_flatMap.symm
      _ = (slots.zipIdx.map Prod.fst).map Slot.type := List.map_map.symm
      _ = slots.map Slot.type := by rw [List.zipIdx_map_fst]
  have hparameters :
      (Member.constructor (constructorOf slots)).dataTypes = slots.map Slot.type := by
    rw [Member.dataTypes, constructorOf, List.map_map]
    rfl
  have haccessors : (slots.map fun s => Member.accessor s.toAccessor).flatMap Member.dataTypes
      = slots.map Slot.type := by
    rw [List.flatMap_map]
    exact List.map_eq_flatMap.symm
  rw [dataTypes, hmembers, List.flatMap_append, List.flatMap_append, List.flatMap_cons, hfields,
    hparameters, haccessors, ← List.append_assoc]
  exact List.append_nil _

namespace Model

variable {m : Model}

theorem exists_resolve_of_mem_dataTypes {o : Output} (h : m.generate = .ok o) :
    ∀ t ∈ o.types, ∀ type ∈ t.dataTypes,
      ∃ scope written r, m.resolve scope written = .ok r ∧ r.type = type := by
  refine forall_of_generate ?_ ?_ ?_ h
  · intro scope kind r t ht type htype
    obtain ⟨slots, hslots, hrec⟩ := isRecord_of_recordType ht
    rw [hrec.dataTypes_eq, List.mem_append, List.mem_append, or_self, or_self] at htype
    obtain ⟨s, hs, rfl⟩ := List.mem_map.1 htype
    obtain ⟨p, -, hp⟩ := Outcome.exists_of_mem_mapM hslots hs
    obtain ⟨-, resolved, hr, hstype, -⟩ := slot_eq_ok hp
    exact ⟨scope, _, resolved, hr, hstype.symm⟩
  · intro scope e t ht type htype
    obtain ⟨member, hm, htype⟩ := List.mem_flatMap.1 htype
    obtain ⟨value, rfl⟩ := (enumerationType_eq_ok ht).2.2.2 member hm
    cases htype
  · intro scope s type htype
    obtain ⟨member, hm, htype⟩ := List.mem_flatMap.1 htype
    obtain ⟨command, -, rfl⟩ := List.mem_map.1 hm
    cases htype

end Model

/-! ## References of compiled sources -/

namespace Compiler

variable {c : Compiler} {source : String} {d : Document} {o : Output}

theorem declared_or_system_of_mem_references
    (hstrict : c.settings.strictTypeResolution = true) (hparse : Document.parse source = .ok d)
    (h : c.compileDocument d = .ok o) {name : QualifiedName} (hname : name ∈ o.references) :
    name.fullName ∈ d.serviceNames ++ d.plainNames ∨ systemValueType? name ≠ none := by
  obtain ⟨-, hgen⟩ := compileDocument_eq_ok.mp h
  obtain ⟨t, ht, hname⟩ := List.mem_flatMap.1 hname
  obtain ⟨type, htype, hname⟩ := List.mem_flatMap.1 hname
  obtain ⟨scope, written, r, hr, rfl⟩ := Model.exists_resolve_of_mem_dataTypes hgen t ht type htype
  rcases Model.known_or_system_of_resolve (c.knowsPaths_model hparse) hstrict hr name hname with
    ⟨table, known, htable, hget⟩ | hsystem
  · rw [knownTypes_model] at htable
    obtain ⟨hknown, he⟩ := KnownTypes.mem_of_get?_ofList htable hget
    rw [d.perm_names.mem_iff, ← he]
    exact Or.inl (List.mem_map_of_mem hknown)
  · exact Or.inr hsystem

/-- **Which references lead nowhere.**  Where unknown names and duplicates are refused, a reference
in the data of an output leads nowhere exactly if it is the declared full name of a service, no
interface of the output has that name, and neither has a system type. -/
theorem dangles_iff_service (hstrict : c.settings.strictTypeResolution = true)
    (hdup : c.settings.allowDuplicateTypes = false) (hparse : Document.parse source = .ok d)
    (h : c.compile source = .ok o) {name : QualifiedName} (hname : name ∈ o.references) :
    o.Dangles name ↔ name.fullName ∈ d.serviceNames ∧
      name.fullName ∉ d.serviceNames.map (interfaceName c.settings.serviceInterfacePrefix) ∧
      systemValueType? name = none := by
  have hdocument := compileDocument_of_compile hparse h
  obtain ⟨hinterfaces, hplain⟩ := perm_generated_names
    (fun _ he => Document.isPath_of_mem_outline hparse he) (compileDocument_eq_ok.mp hdocument).2
  have hknown := declared_or_system_of_mem_references hstrict hparse hdocument hname
  have hdisjoint :=
    (List.nodup_append.1 (d.perm_names.nodup_iff.2 (nodup_knownTypes hdup hdocument))).2.2
  rw [Output.Dangles, ← o.perm_fullNames.mem_iff, List.mem_append, hinterfaces.mem_iff,
    hplain.mem_iff, not_or]
  constructor
  · rintro ⟨⟨hnot, hother⟩, hsystem⟩
    refine ⟨?_, hnot, hsystem⟩
    rcases hknown with hdeclared | hs
    · exact (List.mem_append.1 hdeclared).resolve_right hother
    · exact absurd hsystem hs
  · rintro ⟨hservice, hnot, hsystem⟩
    exact ⟨⟨hnot, fun hother => hdisjoint _ hservice _ hother rfl⟩, hsystem⟩

end Compiler

/-! ### A reference to a service -/

namespace Hotline

/-- A record whose one property is a service. -/
def source : String := "(namespace A(defapplicationservice S(defcommand C))(defdto D(S Svc)))"

/-- The compiler that refuses unknown names. -/
def compiler : Compiler := ⟨.strict, .empty, none⟩

/-- What the source declares. -/
def document : Document := (Document.parse source).toOption.get (by decide +kernel)

/-- What the source compiles to. -/
def output : Output := (compiler.compile source).toOption.get (by decide +kernel)

theorem parse_source : Document.parse source = .ok document := by
  unfold document
  exact Outcome.eq_ok_get _

theorem compile_source : compiler.compile source = .ok output := by
  unfold output
  exact Outcome.eq_ok_get _

theorem mem_references : (⟨["A", "S"]⟩ : QualifiedName) ∈ output.references := by decide +kernel

/-- The source compiles although unknown names are refused, and the type of its property leads
nowhere. -/
theorem service_dangles :
    compiler.settings.strictTypeResolution = true ∧
      compiler.settings.allowDuplicateTypes = false ∧
      Document.parse source = .ok document ∧ compiler.compile source = .ok output ∧
      (⟨["A", "S"]⟩ : QualifiedName) ∈ output.references ∧ output.Dangles ⟨["A", "S"]⟩ := by
  refine ⟨rfl, rfl, parse_source, compile_source, mem_references, ?_⟩
  refine (Compiler.dangles_iff_service rfl rfl parse_source compile_source mem_references).2 ?_
  decide +kernel

end Hotline

end DomainForms
