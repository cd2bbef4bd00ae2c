import DomainForms.Proofs.Diagnosis
import DomainForms.Proofs.Target.Transfer

/-!
# Further namespaces

Resolution asks the table only at full names that a written name may stand for.  So if namespaces are
appended to a document, and none of them declares such a full name, every type that is written in the
document still resolves to the same, and every declaration of the document still becomes the same
types.  The types of the appended declarations go behind them, also where they lie in a namespace of
the document.

* `Document.candidateNames`: the full names that the names written in a document may stand for.
* `Document.extended`: a document with further namespaces.
* `KnownTypes.get?_foldl_insert`: further types change the table at their own full names only.
* `Compiler.follows_of_extended`: types resolve as they did.
* `Output.exists_group_of_prefix`: types that come behind others stay behind them in each group.
* `Compiler.compileDocument_of_extended`: **what no name can mean changes no output.**
-/

namespace DomainForms

/-! ## Extended documents -/

/-- The full names that the names written in a document may stand for. -/
def Document.candidateNames (d : Document) : List String :=
  d.sites.flatMap fun s =>
    (s.property.type.toList.flatMap TypeRef.names).flatMap fun name =>
      candidates s.scope name.fullName

/-- A document with further namespaces behind its own ones. -/
def Document.extended (d : Document) (more : List Namespace) : Document :=
  { d with namespaces := d.namespaces ++ more }

/-- A document of namespaces alone. -/
def Document.ofNamespaces (more : List Namespace) : Document := ⟨none, more⟩

theorem Document.mem_candidateNames {d : Document} {scope : Namespace} {declaration : Declaration}
    (hd : (scope, declaration) ∈ d.declarations) {p : Property} (hp : p ∈ declaration.allProperties)
    {type : TypeRef} (htype : p.type = some type) {name : QualifiedName} (hname : name ∈ type.names)
    {candidate : String} (hcandidate : candidate ∈ candidates scope.name name.fullName) :
    candidate ∈ d.candidateNames := by
  have hsite : ⟨scope.name, declaration, p⟩ ∈ d.sites :=
    List.mem_flatMap.2 ⟨(scope, declaration), hd, List.mem_map_of_mem hp⟩
  refine List.mem_flatMap.2 ⟨_, hsite, List.mem_flatMap.2 ⟨name, ?_, hcandidate⟩⟩
  rw [htype]
  simpa using hname

section

variable (d : Document) (more : List Namespace)

theorem Document.declarations_extended : (d.extended more).declarations
    = d.declarations ++ (ofNamespaces more).declarations :=
  List.flatMap_append

theorem Document.knownTypes_extended : (d.extended more).knownTypes
    = d.knownTypes ++ (ofNamespaces more).knownTypes := by
  rw [knownTypes, declarations_extended, List.flatMap_append]
  rfl

theorem Document.scopeNames_extended : (d.extended more).scopeNames
    = d.scopeNames ++ (ofNamespaces more).scopeNames :=
  List.map_append

end

/-! ## The table -/

/-- **Further types change a table at their own full names only.** -/
theorem KnownTypes.get?_foldl_insert {name : String} : ∀ {types : List KnownType},
    name ∉ types.map KnownType.fullName → ∀ table : KnownTypes,
      (types.foldl insert table).get? name = table.get? name := by
  intro types
  induction types with
  | nil => intro _ table; rfl
  | cons first rest ih =>
    intro hnew table
    rw [List.map_cons, List.mem_cons, not_or] at hnew
    rw [List.foldl_cons, ih hnew.2, get?_insert, if_neg (Ne.symm hnew.1)]

theorem KnownTypes.exists_ofList_of_append {types more : List KnownType} {allowDuplicates : Bool}
    {table : KnownTypes} (h : ofList (types ++ more) allowDuplicates = .ok table) :
    ∃ first, ofList types allowDuplicates = .ok first ∧
      ∀ name ∉ more.map KnownType.fullName, first.get? name = table.get? name := by
  obtain ⟨hnodup, rfl⟩ := ofList_eq_ok.1 h
  refine ⟨types.foldl insert empty, ofList_eq_ok.2 ⟨fun hrefused => ?_, rfl⟩, fun name hnew => ?_⟩
  · have hall := hnodup hrefused
    rw [List.map_append] at hall
    exact hall.of_append_left
  · rw [List.foldl_append, get?_foldl_insert hnew]

/-! ## Groups -/

/-- **Types that come behind others stay behind them in each group.** -/
theorem Output.exists_group_of_prefix {names others : List String} {types more : List TypeDefinition}
    (hnames : ∀ name ∈ names, name ∈ others) :
    ∀ g ∈ (grouped names types).groups, ∃ g' ∈ (grouped others (types ++ more)).groups,
      g'.name = g.name ∧ g.types <+: g'.types := by
  intro g hg
  obtain ⟨name, hname, rfl⟩ := List.mem_map.1 hg
  rw [List.mem_eraseDups] at hname
  refine ⟨_, List.mem_map_of_mem (List.mem_eraseDups.2 (hnames name hname)), rfl, ?_⟩
  rw [List.filter_append]
  exact List.prefix_append _ _

/-! ## Compilations -/

namespace Compiler

variable {c : Compiler} {d : Document} {more : List Namespace}
  (hfree : ∀ name ∈ d.candidateNames, name ∉ (Document.ofNamespaces more).declaredNames)

include hfree

theorem exists_knownTypes_of_extended {table : KnownTypes}
    (h : (c.model (d.extended more)).knownTypes = .ok table) :
    ∃ first, (c.model d).knownTypes = .ok first ∧
      ∀ name ∈ d.candidateNames, first.get? name = table.get? name := by
  rw [knownTypes_model, Document.knownTypes_extended] at h
  obtain ⟨first, hfirst, hget⟩ := KnownTypes.exists_ofList_of_append h
  rw [← knownTypes_model] at hfirst
  exact ⟨first, hfirst, fun name hname => hget name (hfree name hname)⟩

/-- **The types written in a document resolve as they did.** -/
theorem follows_of_extended {table : KnownTypes}
    (h : (c.model (d.extended more)).knownTypes = .ok table) {scope : Namespace}
    {declaration : Declaration} (hd : (scope, declaration) ∈ d.declarations) {p : Property}
    (hp : p ∈ declaration.allProperties) {type : TypeRef} (htype : p.type = some type) :
    (c.model (d.extended more)).Follows (c.model d) scope.name type := by
  obtain ⟨first, hfirst, hget⟩ := exists_knownTypes_of_extended hfree h
  refine Model.follows_of_names fun name hname => Model.follows_of_table h hfirst ?_ id
  intro candidate hcandidate
  exact hget candidate (Document.mem_candidateNames hd hp htype hname hcandidate)

theorem exists_types_of_extended {table : KnownTypes}
    (h : (c.model (d.extended more)).knownTypes = .ok table) {types : List TypeDefinition}
    (htypes : (c.model (d.extended more)).types = .ok types) :
    ∃ own further, (c.model d).types = .ok own ∧ types = own ++ further := by
  obtain ⟨lists, hlists, rfl⟩ := types_eq_ok_written.1 htypes
  have hown := List.forall₂_take d.declarations.length hlists
  rw [Document.declarations_extended, List.take_left] at hown
  have hown' := Model.forall₂_of_follows (m := c.model (d.extended more)) (n := c.model d)
    ⟨rfl, rfl, rfl⟩ (fun _ => rfl)
    (fun _ _ hd _ hp _ htype => follows_of_extended hfree h hd hp htype) hown
  refine ⟨_, (lists.drop d.declarations.length).flatten,
    types_eq_ok_written.2 ⟨_, hown', rfl⟩, ?_⟩
  rw [← List.flatten_append, List.take_append_drop]

theorem exists_compileDocument_of_extended {o' : Output}
    (h : c.compileDocument (d.extended more) = .ok o') :
    ∃ o, c.compileDocument d = .ok o ∧
      ∀ g ∈ o.groups, ∃ g' ∈ o'.groups, g'.name = g.name ∧ g.types <+: g'.types := by
  obtain ⟨⟨table, htable⟩, hgenerate⟩ := compileDocument_eq_ok.1 h
  obtain ⟨types, htypes, rfl⟩ := Model.generate_eq_ok.1 hgenerate
  obtain ⟨own, further, hown, rfl⟩ := exists_types_of_extended hfree htable htypes
  obtain ⟨first, hfirst, -⟩ := exists_knownTypes_of_extended hfree htable
  refine ⟨_, compileDocument_eq_ok.2 ⟨⟨first, hfirst⟩, Model.generate_eq_ok.2 ⟨own, hown, rfl⟩⟩, ?_⟩
  refine Output.exists_group_of_prefix fun name hname => ?_
  rw [scopeNames_model, List.mem_append] at hname
  rw [scopeNames_model, Document.scopeNames_extended, List.map_append]
  rcases hname with hopened | hlies
  · exact List.mem_append_left _ (List.mem_append_left _ hopened)
  · exact List.mem_append_right _ (List.mem_append_left _ hlies)

/-- **What no name can mean changes no output.**  If a document compiles with further namespaces
behind its own ones, and these declare no full name that a name written in the document may stand
for, then the document compiles without them, and each of its groups is there in the output of both,
with the same types in front in the same order. -/
theorem compileDocument_of_extended {o' : Output}
    (h : c.compileDocument (d.extended more) = .ok o') :
    (∃ o, c.compileDocument d = .ok o) ∧
      ∀ o, c.compileDocument d = .ok o →
        ∀ g ∈ o.groups, ∃ g' ∈ o'.groups, g'.name = g.name ∧ g.types <+: g'.types := by
  obtain ⟨o, ho, hgroups⟩ := exists_compileDocument_of_extended hfree h
  refine ⟨⟨o, ho⟩, fun other hother => ?_⟩
  cases ho.symm.trans hother
  exact hgroups

end Compiler

/-! ### A shop with a cellar -/

namespace Cellar

/-- A command with properties of a declared type and of one that nothing declares. -/
def buying : Declaration :=
  .record .command ⟨"Buy", [⟨some "Key", some (.named ⟨["Key"]⟩), .none⟩,
    ⟨some "Wines", some (.arrayOf (.named ⟨["Wine"]⟩)), .none⟩], .none⟩

/-- A value type for keys. -/
def key : Declaration := .record .valueType ⟨"Key", [⟨none, some .string, .none⟩], .none⟩

/-- A document with one namespace. -/
def document : Document := ⟨none, [⟨⟨["Shop"]⟩, [buying, key], .none⟩]⟩

/-- The same namespace again with a further type, and another one with a type that has the name of
the unknown one. -/
def more : List Namespace :=
  [⟨⟨["Shop"]⟩, [.record .dto ⟨"Bill", [], .none⟩], .none⟩,
    ⟨⟨["Shop", "Cellar"]⟩, [.record .dto ⟨"Wine", [], .none⟩], .none⟩]

theorem compile_extended :
    (∀ name ∈ document.candidateNames, name ∉ (Document.ofNamespaces more).declaredNames) ∧
      ∃ o o', Compiler.standard.compileDocument document = .ok o ∧
        Compiler.standard.compileDocument (document.extended more) = .ok o' ∧
        ∀ g ∈ o.groups, ∃ g' ∈ o'.groups, g'.name = g.name ∧ g.types <+: g'.types := by
  have hfree : ∀ name ∈ document.candidateNames,
      name ∉ (Document.ofNamespaces more).declaredNames := by
    decide +kernel
  have hcompiles :
      (Compiler.standard.compileDocument (document.extended more)).toOption.isSome = true := by
    decide +kernel
  have ho' := Outcome.eq_ok_get hcompiles
  obtain ⟨⟨o, ho⟩, hgroups⟩ := Compiler.compileDocument_of_extended hfree ho'
  exact ⟨hfree, o, _, ho, ho', hgroups o ho⟩

end Cellar

end DomainForms
