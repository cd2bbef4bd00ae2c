import DomainForms.Proofs.DeclarationOrder
import DomainForms.Proofs.Target.Outline

/-!
# Conventions

Conventions are laid over one another group by group, and a group replaces the one below it as a
whole.  So after any number of overrides a group is what the last override which gives it says, and
two overrides in a row are one.  What the conventions say in the end reaches commands and domain
events and nothing else: every record can be compared with itself, and commands and domain events
inherit the base types of their group in front of that.

* `Conventions.lastGiven`, `Conventions.group_foldl_override`: a group after several overrides.
* `Conventions.stacked`, `Conventions.override_stacked`: two overrides in one.
* `Document.origins`: the declared full names with the kinds of declarations they come from.
* `Model.comeFrom_of_declarationTypes`: what the types of a declaration inherit.
* `Compiler.inherits_by_conventions`: **which conventions reach which types.**
-/

namespace DomainForms

/-! ## Overrides -/

namespace Conventions

def groups : List (Conventions → Option (List QualifiedName)) := [domainEvents, commands]

/-- What the last of several overrides that gives a group says. -/
def lastGiven (group : Conventions → Option (List QualifiedName))
    (overrides : List (Option Conventions)) : Option (List QualifiedName) :=
  overrides.reverse.findSome? fun given => given.bind group

/-- Two overrides in one: the second one laid over the first one. -/
def stacked : Option Conventions → Option Conventions → Option Conventions
  | none, second => second
  | some first, second => some (first.override second)

section

variable {group : Conventions → Option (List QualifiedName)}

theorem lastGiven_cons (given : Option Conventions) (rest : List (Option Conventions)) :
    lastGiven group (given :: rest) = (lastGiven group rest).or (given.bind group) := by
  simp [lastGiven, List.findSome?_append]

theorem group_override (hgroup : group ∈ groups) (base : Conventions) (given : Option Conventions) :
    group (base.override given) = (given.bind group).or (group base) := by
  cases given with
  | none => rfl
  | some later =>
    rcases List.mem_cons.1 hgroup with rfl | hgroup
    · rfl
    · obtain rfl := List.mem_singleton.1 hgroup
      rfl

/-- **A group after several overrides** is what the last one that gives it says. -/
theorem group_foldl_override (hgroup : group ∈ groups) :
    ∀ (overrides : List (Option Conventions)) (base : Conventions),
      group (overrides.foldl override base) = (lastGiven group overrides).or (group base) := by
  intro overrides
  induction overrides with
  | nil => intro base; rfl
  | cons given rest ih =>
    intro base
    rw [List.foldl_cons, ih, group_override hgroup, lastGiven_cons, Option.or_assoc]

end

theorem override_stacked (base : Conventions) (first second : Option Conventions) :
    (base.override first).override second = base.override (stacked first second) := by
  cases first with
  | none => rfl
  | some first =>
    cases second with
    | none => rfl
    | some second => simp [stacked, override, Option.or_assoc]

end Conventions

/-! ## Where types come from -/

/-- The kind of type that a declaration of some kind becomes. -/
def Declaration.Kind.typeKind : Declaration.Kind → TypeKind
  | .record kind => kind.typeKind
  | .enumeration => .enumType
  | .service => .interfaceType

/-- The full names that a declaration declares, with the kinds of declarations they come from.  A
command inside a service is a command as any other. -/
def Declaration.origins (scope : QualifiedName) (d : Declaration) : List (String × Declaration.Kind) :=
  (scope.qualify d.name, d.kind) ::
    d.nestedCommands.map fun command => (scope.qualify command.name, .record .command)

def Document.origins (d : Document) : List (String × Declaration.Kind) :=
  d.declarations.flatMap fun (scope, declaration) => declaration.origins scope.name

/-- The base type of what can be compared with instances of a type. -/
def BaseType.equatable (fullName : String) : BaseType := ⟨"IEquatable", [fullName]⟩

def BaseType.ofName (name : QualifiedName) : BaseType := ⟨name.fullName, []⟩

/-- What a type inherits that comes from a declaration of some kind. -/
def Declaration.Kind.inherited (conventions : Conventions) (fullName : String) :
    Declaration.Kind → List BaseType
  | .record .command => conventions.commandBases.map .ofName ++ [.equatable fullName]
  | .record .domainEvent => conventions.domainEventBases.map .ofName ++ [.equatable fullName]
  | .record .valueType => [.equatable fullName]
  | .record .dto => [.equatable fullName]
  | .enumeration => []
  | .service => []

/-- A type comes from a declaration of some kind with some full name, and inherits what such types
inherit. -/
structure TypeDefinition.ComesFrom (before : String) (conventions : Conventions)
    (origin : String × Declaration.Kind) (t : TypeDefinition) : Prop where
  /-- The kind and the name of the type are those of the declaration. -/
  realizes : t.Realizes before origin.1 origin.2.typeKind
  /-- The base types follow from the kind of the declaration. -/
  baseTypes_eq : t.baseTypes = origin.2.inherited conventions origin.1

theorem TypeDefinition.map_baseTypes_of_comesFrom {before : String} {conventions : Conventions}
    {origins : List (String × Declaration.Kind)} {types : List TypeDefinition}
    (h : List.Forall₂ (ComesFrom before conventions) origins types) :
    types.map baseTypes = origins.map fun origin => origin.2.inherited conventions origin.1 := by
  induction h with
  | nil => rfl
  | cons ht _ ih => rw [List.map_cons, List.map_cons, ht.baseTypes_eq, ih]

namespace Model

variable {m : Model} {scope : QualifiedName}

theorem baseTypes_of_recordType {kind : RecordKind} {r : Record} {t : TypeDefinition}
    (h : m.recordType scope kind r = .ok t) :
    t.baseTypes = (Declaration.Kind.record kind).inherited m.conventions (scope.qualify r.name) := by
  rw [recordType] at h
  obtain ⟨slots, -, h⟩ := Outcome.bind_eq_ok.1 h
  cases hrepeated : firstRepeated? Slot.field [] slots with
  | some repeated => rw [hrepeated] at h; cases h
  | none =>
    rw [hrepeated] at h
    obtain ⟨members, -, h⟩ := Outcome.bind_eq_ok.1 h
    cases h
    cases kind <;> rfl

theorem comesFrom_of_recordType (before : String) {kind : RecordKind} {r : Record}
    {t : TypeDefinition} (h : m.recordType scope kind r = .ok t) :
    t.ComesFrom before m.conventions (scope.qualify r.name, .record kind) :=
  ⟨realizes_of_recordType before h, baseTypes_of_recordType h⟩

theorem comesFrom_of_enumerationType (before : String) {e : Enumeration} {t : TypeDefinition}
    (h : enumerationType scope e = .ok t) :
    t.ComesFrom before m.conventions (scope.qualify e.name, .enumeration) := by
  refine ⟨realizes_of_enumerationType before h, ?_⟩
  rw [enumerationType] at h
  split at h
  · cases h
  · cases h
    rfl

/-- **What the types of a declaration inherit**, those of commands inside a service included. -/
theorem comeFrom_of_declarationTypes {d : Declaration} {types : List TypeDefinition}
    (h : m.declarationTypes scope d = .ok types) :
    List.Forall₂ (TypeDefinition.ComesFrom m.settings.serviceInterfacePrefix m.conventions)
      (d.origins scope) types := by
  cases d with
  | record kind body =>
    obtain ⟨t, ht, h⟩ := Outcome.bind_eq_ok.1 h
    cases h
    exact .cons (comesFrom_of_recordType _ ht) .nil
  | enumeration body =>
    obtain ⟨t, ht, h⟩ := Outcome.bind_eq_ok.1 h
    cases h
    exact .cons (comesFrom_of_enumerationType _ ht) .nil
  | service body =>
    obtain ⟨commands, hcommands, h⟩ := Outcome.bind_eq_ok.1 h
    cases h
    refine .cons ⟨realizes_interfaceType m.settings scope body, rfl⟩ ?_
    rw [List.forall₂_map_left_iff]
    exact (Outcome.mapM_eq_ok.1 hcommands).imp fun _ _ ht => comesFrom_of_recordType _ ht

end Model

/-! ## Compiled documents -/

namespace Compiler

theorem comeFrom_of_types {c : Compiler} {d : Document} {types : List TypeDefinition}
    (h : (c.model d).types = .ok types) :
    List.Forall₂ (TypeDefinition.ComesFrom c.settings.serviceInterfacePrefix
      (c.conventions.override d.conventions)) d.origins types := by
  obtain ⟨lists, hlists, rfl⟩ := types_eq_ok_written.1 h
  rw [Document.origins, List.flatMap_def]
  refine List.rel_flatten ?_
  rw [List.forall₂_map_left_iff]
  exact hlists.imp fun _ _ hlist => Model.comeFrom_of_declarationTypes hlist

/-- **Which conventions reach which types.**  After any overrides, each group of base types is the one
of the last override that gives it, or else the one below all of them; so two overrides in a row are
one.  The types that a document compiles to come one by one from its declarations, where a command
inside a service counts as one.  Those of commands inherit the base types that the conventions give
to commands, in order, and then what makes them comparable with themselves; those of domain events
likewise; other records inherit only the latter, and enumerations and interfaces nothing. -/
theorem inherits_by_conventions :
    (∀ group ∈ Conventions.groups, ∀ overrides base,
      group (overrides.foldl Conventions.override base)
        = (Conventions.lastGiven group overrides).or (group base)) ∧
    (∀ (base : Conventions) (first second : Option Conventions),
      (base.override first).override second = base.override (Conventions.stacked first second)) ∧
    ∀ (c : Compiler) (d : Document) (o : Output), c.compileDocument d = .ok o →
      ∃ types, (c.model d).types = .ok types ∧ o.types.Perm types ∧
        List.Forall₂ (TypeDefinition.ComesFrom c.settings.serviceInterfacePrefix
          (c.conventions.override d.conventions)) d.origins types := by
  refine ⟨fun _ hgroup => Conventions.group_foldl_override hgroup, Conventions.override_stacked,
    fun c d o h => ?_⟩
  obtain ⟨types, htypes, hperm⟩ := Model.perm_types_of_generate (compileDocument_eq_ok.1 h).2
  exact ⟨types, htypes, hperm, comeFrom_of_types htypes⟩

end Compiler

/-! ### A clinic -/

namespace Clinic

def base : Conventions := ⟨some [⟨["Notice"]⟩], some [⟨["Request"]⟩, ⟨["Audited"]⟩], .none⟩

def conventions : Conventions := ⟨none, some [⟨["Clinic", "Order"]⟩], .none⟩

/-- A document with a command inside a service, a domain event, and types that no convention
reaches. -/
def document : Document :=
  ⟨some conventions, [⟨⟨["Clinic"]⟩,
    [.service ⟨"Desk", [⟨"Admit", [], .none⟩], .none⟩,
      .record .domainEvent ⟨"Admitted", [], .none⟩,
      .enumeration ⟨"Ward", ["North", "South"], .none⟩,
      .record .dto ⟨"Bed", [], .none⟩], .none⟩]⟩

def compiler : Compiler := ⟨.standard, base, none⟩

theorem inherited_clinic : ∃ o types, compiler.compileDocument document = .ok o ∧
    o.types.Perm types ∧ types.map TypeDefinition.baseTypes =
      [[],
        [⟨"Clinic.Order", []⟩, ⟨"IEquatable", ["Clinic.Admit"]⟩],
        [⟨"Notice", []⟩, ⟨"IEquatable", ["Clinic.Admitted"]⟩],
        [],
        [⟨"IEquatable", ["Clinic.Bed"]⟩]] := by
  have hcompiles : (compiler.compileDocument document).toOption.isSome = true := by
    decide +kernel
  have ho := Outcome.eq_ok_get hcompiles
  obtain ⟨types, -, hperm, hfrom⟩ := Compiler.inherits_by_conventions.2.2 _ _ _ ho
  refine ⟨_, types, ho, hperm, ?_⟩
  rw [TypeDefinition.map_baseTypes_of_comesFrom hfrom]
  decide +kernel

end Clinic

end DomainForms
