import DomainForms.Proofs.Document.Names
import DomainForms.Proofs.Target.Record

/-!
# The outline of a document

Which types a document becomes, and under which names, can be read off its declarations without
generating anything.  Every type keeps its declared full name, except that the interface of a
service has a prefix before the last segment.  Since a declared full name is cut into segments and
joined again on the way, this takes names without empty segments, which all names of a source are.

* `Document.outline`: the declared full name and the kind of each type, in order.
* `Model.realizes_of_types`: the generated types follow the outline one by one.
* `Document.knownTypes_eq_outline`: so do the collected types.
* `TypeDefinition.Realizes.fullName_eq`: the full name of a generated type.
* `Model.groups_partition_types`: what the groups of a source are, and what lies in them.
-/

namespace DomainForms

open Text (IsPath)

/-! ## Outlines -/

/-- Whether instances of a kind of type are values. -/
def TypeKind.isValueType : TypeKind → Bool
  | structType => true
  | enumType => true
  | _ => false

theorem TypeKind.isValueType_iff {kind : TypeKind} :
    kind.isValueType = true ↔ kind = .structType ∨ kind = .enumType := by
  cases kind <;> decide

/-- The kind of type that a record becomes. -/
def RecordKind.typeKind (kind : RecordKind) : TypeKind :=
  if kind.isValueType then .structType else .classType

/-- The declared full names and the kinds of the types that a declaration becomes, in order. -/
def Declaration.outline (scope : QualifiedName) : Declaration → List (String × TypeKind)
  | .record kind body => [(scope.qualify body.name, kind.typeKind)]
  | .enumeration body => [(scope.qualify body.name, .enumType)]
  | .service body =>
    (scope.qualify body.name, .interfaceType) ::
      body.commands.map fun command => (scope.qualify command.name, RecordKind.command.typeKind)

/-- The declared full names and the kinds of the types that a document becomes, in order. -/
def Document.outline (d : Document) : List (String × TypeKind) :=
  d.declarations.flatMap fun (scope, declaration) => declaration.outline scope.name

/-- A full name with a text put before its last segment. -/
def interfaceName (before fullName : String) : String :=
  let path := QualifiedName.parse fullName
  Text.join (path.parent.segments ++ [before ++ path.simpleName])

/-! ## Collected types -/

theorem Declaration.knownTypes_eq_outline (scope : QualifiedName) (d : Declaration) :
    d.knownTypes scope = (d.outline scope).map fun entry => ⟨entry.1, entry.2.isValueType⟩ := by
  cases d with
  | record kind body => cases kind <;> rfl
  | enumeration body => rfl
  | service body =>
    simp only [knownTypes, outline, List.map_cons, List.map_map, nestedCommands]
    rfl

/-- **The collected types follow the outline**: structs and enumerations are the value types. -/
theorem Document.knownTypes_eq_outline (d : Document) :
    d.knownTypes = d.outline.map fun entry => ⟨entry.1, entry.2.isValueType⟩ := by
  simp only [knownTypes, outline, List.map_flatMap, Declaration.knownTypes_eq_outline]

theorem Document.map_fullName_knownTypes (d : Document) :
    d.knownTypes.map KnownType.fullName = d.outline.map Prod.fst := by
  rw [knownTypes_eq_outline, List.map_map]
  rfl

theorem Document.isPath_of_mem_outline {source : String} {d : Document} (h : parse source = .ok d)
    {entry : String × TypeKind} (he : entry ∈ d.outline) : IsPath entry.1 := by
  have hname : entry.1 ∈ d.knownTypes.map KnownType.fullName := by
    rw [map_fullName_knownTypes]
    exact List.mem_map_of_mem he
  obtain ⟨known, hk, hn⟩ := List.mem_map.1 hname
  rw [← hn]
  exact isPath_of_mem_knownTypes h hk

/-! ## Generated types -/

/-- A type is what an outline says: of the given kind, under the given full name, where `before`
stands before the names of interfaces. -/
structure TypeDefinition.Realizes (before declared : String) (kind : TypeKind)
    (t : TypeDefinition) : Prop where
  /-- The kind is the given one. -/
  kind_eq : t.kind = kind
  /-- The namespace is the one of the declared name. -/
  scope_eq : t.scope = (QualifiedName.parse declared).parent.fullName
  /-- The name is the last segment of the declared one, behind `before` if the type is an
  interface. -/
  name_eq : t.name = (if kind = .interfaceType then before else "")
    ++ (QualifiedName.parse declared).simpleName

/-- Types are what an outline says, one by one. -/
def TypeDefinition.RealizeAll (before : String) :
    List (String × TypeKind) → List TypeDefinition → Prop :=
  List.Forall₂ fun entry t => t.Realizes before entry.1 entry.2

namespace TypeDefinition

variable {before : String}

/-- **A type has its declared full name**, with the prefix before the last segment if it is an
interface. -/
theorem Realizes.fullName_eq {declared : String} {kind : TypeKind} {t : TypeDefinition}
    (h : t.Realizes before declared kind) (hp : IsPath declared) :
    t.fullName = if t.kind = .interfaceType then interfaceName before declared else declared := by
  have hproper := QualifiedName.parse_proper declared
  rw [TypeDefinition.fullName, h.scope_eq, QualifiedName.fullName_concat hproper.parent, h.name_eq,
    h.kind_eq]
  split
  · rfl
  · rw [String.empty_append,
      QualifiedName.parent_concat_simpleName (QualifiedName.segments_parse_ne_nil hp)]
    exact QualifiedName.fullName_parse hp

/-- What follows from the entry of each type alone is the same for whole lists. -/
theorem RealizeAll.map_eq {α : Type} {outline : List (String × TypeKind)}
    {types : List TypeDefinition} (h : RealizeAll before outline types) {f : String × TypeKind → α}
    {g : TypeDefinition → α} (hfg : ∀ entry ∈ outline, ∀ t : TypeDefinition,
      t.Realizes before entry.1 entry.2 → g t = f entry) :
    types.map g = outline.map f := by
  induction h with
  | nil => rfl
  | cons ht _ ih =>
    rw [List.map_cons, List.map_cons, hfg _ List.mem_cons_self _ ht,
      ih fun entry he => hfg entry (List.mem_cons_of_mem _ he)]

end TypeDefinition

namespace Model

variable {m : Model}

theorem realizes_of_recordType (before : String) {scope : QualifiedName} {kind : RecordKind}
    {r : Record} {t : TypeDefinition} (h : m.recordType scope kind r = .ok t) :
    t.Realizes before (scope.qualify r.name) kind.typeKind := by
  have hk : kind.typeKind ≠ .interfaceType := by cases kind <;> decide
  obtain ⟨hkind, hname, hscope, -⟩ := recordType_eq_ok h
  exact ⟨hkind, hscope, by rw [hname, if_neg hk, String.empty_append]⟩

theorem realizes_of_enumerationType (before : String) {scope : QualifiedName} {e : Enumeration}
    {t : TypeDefinition} (h : enumerationType scope e = .ok t) :
    t.Realizes before (scope.qualify e.name) .enumType := by
  obtain ⟨hkind, hname, hscope, -⟩ := enumerationType_eq_ok h
  exact ⟨hkind, hscope, by rw [hname, if_neg (by decide), String.empty_append]⟩

theorem realizes_interfaceType (settings : Settings) (scope : QualifiedName) (s : Service) :
    (interfaceType settings scope s).Realizes settings.serviceInterfacePrefix
      (scope.qualify s.name) .interfaceType := by
  rw [interfaceType]
  exact ⟨by dsimp only, by dsimp only, by rw [if_pos rfl]⟩

theorem realizes_of_declarationTypes {scope : QualifiedName} {d : Declaration}
    {types : List TypeDefinition} (h : m.declarationTypes scope d = .ok types) :
    TypeDefinition.RealizeAll m.settings.serviceInterfacePrefix (d.outline scope) types := by
  cases d with
  | record kind body =>
    obtain ⟨t, ht, h⟩ := Outcome.bind_eq_ok.mp h
    cases h
    exact .cons (realizes_of_recordType _ ht) .nil
  | enumeration body =>
    obtain ⟨t, ht, h⟩ := Outcome.bind_eq_ok.mp h
    cases h
    exact .cons (realizes_of_enumerationType _ ht) .nil
  | service body =>
    obtain ⟨commands, hcommands, h⟩ := Outcome.bind_eq_ok.mp h
    cases h
    refine .cons (realizes_interfaceType m.settings scope body) ?_
    rw [List.forall₂_map_left_iff]
    exact (Outcome.mapM_eq_ok.mp hcommands).imp fun r t ht => realizes_of_recordType _ ht

/-- **The generated types follow the outline**, one by one and in its order. -/
theorem realizes_of_types {types : List TypeDefinition} (h : m.types = .ok types) :
    TypeDefinition.RealizeAll m.settings.serviceInterfacePrefix m.document.outline types := by
  obtain ⟨lists, hlists, rfl⟩ := types_eq_ok.mp h
  rw [Document.outline, List.flatMap_def]
  refine List.rel_flatten ?_
  rw [List.forall₂_map_left_iff]
  exact hlists.imp fun _ _ hd => realizes_of_declarationTypes hd

end Model

/-! ## Groups of a source -/

/-- The names that a declaration declares: its own, and those of the commands inside it. -/
def Declaration.declaredNames (d : Declaration) : List String :=
  d.name :: d.nestedCommands.map Record.name

/-- The namespaces of the declared names with a dot, in order. -/
def Document.qualifiedScopes (d : Document) : List String :=
  d.declarations.flatMap fun (_, declaration) =>
    (declaration.declaredNames.filter Text.isDotted).map fun name =>
      (QualifiedName.parse name).parent.fullName

theorem Declaration.map_fst_outline (scope : QualifiedName) (d : Declaration) :
    (d.outline scope).map Prod.fst = d.declaredNames.map scope.qualify := by
  cases d with
  | record kind body => rfl
  | enumeration body => rfl
  | service body => simp [outline, declaredNames, name, nestedCommands]

theorem QualifiedName.filter_scopes_qualify {scope : QualifiedName} (hs : scope.Proper)
    (hne : scope.segments ≠ []) {known : List String} (hk : scope.fullName ∈ known) :
    ∀ {names : List String}, (∀ name ∈ names, Text.IsPath (scope.qualify name)) →
      (names.map fun name => (parse (scope.qualify name)).parent.fullName).removeAll known
        = ((names.filter Text.isDotted).map fun name => (parse name).parent.fullName).removeAll
            known := by
  intro names
  induction names with
  | nil => intro _; rw [List.filter_nil, List.map_nil, List.map_nil]
  | cons first rest ih =>
    intro h
    have hrest := ih fun name hm => h name (List.mem_cons_of_mem _ hm)
    rw [List.removeAll, List.removeAll] at hrest ⊢
    cases hd : Text.isDotted first with
    | true =>
      have hfirst : scope.qualify first = first := by rw [qualify, hd, Bool.true_or, if_pos rfl]
      rw [List.filter_cons_of_pos hd, List.map_cons, List.map_cons, List.filter_cons,
        List.filter_cons, hrest, hfirst]
    | false =>
      have hfirst : (parse (scope.qualify first)).parent = scope :=
        parent_parse_qualify hs hne hd (h first List.mem_cons_self)
      rw [List.filter_cons_of_neg (by rw [hd]; decide), List.map_cons, hfirst,
        List.filter_cons_of_neg (by simpa using hk), hrest]

/-- **The namespaces of all declared types**, beyond those that the source opens, are the ones of
the declared names with a dot. -/
theorem Document.removeAll_scopes {source : String} {d : Document} (h : parse source = .ok d) :
    (d.outline.map fun entry =>
        (QualifiedName.parse entry.1).parent.fullName).removeAll d.scopeNames
      = d.qualifiedScopes.removeAll d.scopeNames := by
  rw [outline, qualifiedScopes, List.map_flatMap, List.removeAll, List.removeAll,
    List.filter_flatMap, List.filter_flatMap]
  refine List.flatMap_congr fun (scope, declaration) hm => ?_
  obtain ⟨n, hn, hd⟩ := List.mem_flatMap.1 hm
  obtain ⟨x, hx, he⟩ := List.mem_map.1 hd
  cases he
  obtain ⟨hproper, hne⟩ := proper_of_mem_namespaces h hn
  have hpath : ∀ name ∈ declaration.declaredNames, Text.IsPath (scope.name.qualify name) := by
    intro name hname
    have hq : scope.name.qualify name ∈ (declaration.outline scope.name).map Prod.fst := by
      rw [Declaration.map_fst_outline]
      exact List.mem_map_of_mem hname
    obtain ⟨entry, hentry, he⟩ := List.mem_map.1 hq
    rw [← he]
    exact isPath_of_mem_outline h (List.mem_flatMap.2 ⟨_, hm, hentry⟩)
  have hmap : (declaration.outline scope.name).map
        (fun entry => (QualifiedName.parse entry.1).parent.fullName)
      = declaration.declaredNames.map
          fun name => (QualifiedName.parse (scope.name.qualify name)).parent.fullName := by
    have hnames := congrArg (List.map fun name => (QualifiedName.parse name).parent.fullName)
      (Declaration.map_fst_outline scope.name declaration)
    rwa [List.map_map, List.map_map, Function.comp_def, Function.comp_def] at hnames
  rw [hmap]
  exact QualifiedName.filter_scopes_qualify hproper hne (List.mem_map.2 ⟨scope, hn, rfl⟩) hpath

/-- **Generation loses, repeats and misplaces nothing.**  For any model of a source: the names of
the groups are different, and they are the namespaces of the source in the order of their first
occurrences, followed by the further namespaces of declared names with a dot, in that order too.
Every type lies in the group of its namespace.  The generated types correspond one by one to the
collected types, with the same full names but for the prefix of an interface, with a struct or an
enumeration exactly where a value type was collected, and with an interface exactly where a service
is declared.  All of them are in the groups, once each, and the types of a group are those of its
namespace, in the order of generation. -/
theorem Model.groups_partition_types {m : Model} {source : String}
    (hparse : Document.parse source = .ok m.document) {o : Output} (h : m.generate = .ok o) :
    (o.groups.map Group.name).Nodup ∧
      o.groups.map Group.name = m.document.scopeNames.eraseDups ++
        (m.document.qualifiedScopes.removeAll m.document.scopeNames).eraseDups ∧
      (∀ g ∈ o.groups, ∀ t ∈ g.types, t.scope = g.name) ∧
      ∃ types, m.types = .ok types ∧
        List.Forall₂ (fun known t =>
          (t.fullName = if t.kind = .interfaceType
            then interfaceName m.settings.serviceInterfacePrefix known.fullName
            else known.fullName) ∧
          (known.isValueType = true ↔ t.kind = .structType ∨ t.kind = .enumType))
          m.document.knownTypes types ∧
        types.map TypeDefinition.kind = m.document.outline.map Prod.snd ∧
        o.types.Perm types ∧
        ∀ g ∈ o.groups, g.types = types.filter (·.scope = g.name) := by
  obtain ⟨types, htypes, hperm⟩ := perm_types_of_generate h
  obtain ⟨types', htypes', rfl⟩ := generate_eq_ok.mp h
  obtain rfl : types = types' := Except.ok.inj (htypes.symm.trans htypes')
  have hreal := realizes_of_types htypes
  have hkinds : types.map TypeDefinition.kind = m.document.outline.map Prod.snd :=
    hreal.map_eq fun _ _ _ ht => ht.kind_eq
  have hscopes : types.map TypeDefinition.scope
      = m.document.outline.map fun entry => (QualifiedName.parse entry.1).parent.fullName :=
    hreal.map_eq fun _ _ _ ht => ht.scope_eq
  have hgroups : ∀ g ∈ (Output.grouped (m.document.scopeNames ++ types.map TypeDefinition.scope)
      types).groups, g.types = types.filter (·.scope = g.name) := by
    intro g hg
    obtain ⟨name, -, rfl⟩ := List.mem_map.1 hg
    rfl
  refine ⟨?_, ?_, ?_, types, htypes, ?_, hkinds, hperm, hgroups⟩
  · rw [Output.map_name_grouped]
    exact Output.nodup_eraseDups _
  · rw [Output.map_name_grouped, List.eraseDups_append, hscopes, Document.removeAll_scopes hparse]
  · intro g hg t ht
    rw [hgroups g hg] at ht
    exact of_decide_eq_true (List.mem_filter.1 ht).2
  · rw [Document.knownTypes_eq_outline, List.forall₂_map_left_iff]
    have hpaths := (List.forall₂_and_left _ _).2
      ⟨fun entry he => Document.isPath_of_mem_outline hparse he, hreal⟩
    refine hpaths.imp ?_
    rintro entry t ⟨hpath, ht⟩
    refine ⟨ht.fullName_eq hpath, ?_⟩
    rw [ht.kind_eq]
    exact TypeKind.isValueType_iff

/-! ### A market -/

namespace Market

/-- A source that opens a namespace twice, and declares types in namespaces that it never opens. -/
def source : String :=
  "(namespace B(defdto Q.X))(namespace A(defapplicationservice S(defcommand C.D)))(namespace B)"

/-- What the source declares. -/
def document : Document := (Document.parse source).toOption.get (by decide +kernel)

/-- The model of the source, with standard settings. -/
def model : Model := .of .empty .standard document

/-- What is generated for the source. -/
def output : Output := model.generate.toOption.get (by decide +kernel)

theorem parse_source : Document.parse source = .ok model.document := by
  have hdocument : model.document = document := rfl
  rw [hdocument, document]
  exact Outcome.eq_ok_get _

theorem generate_model : model.generate = .ok output := by
  unfold output
  exact Outcome.eq_ok_get _

theorem groups_market :
    Document.parse source = .ok model.document ∧ model.generate = .ok output ∧
      output.groups.map Group.name = ["B", "A", "Q", "C"] := by
  refine ⟨parse_source, generate_model, ?_⟩
  rw [(Model.groups_partition_types parse_source generate_model).2.1]
  decide +kernel

end Market

end DomainForms
