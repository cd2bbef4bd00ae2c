import DomainForms.Proofs.DeclarationOrder
import DomainForms.Proofs.Target.References

/-!
# Declarations under another model

What a declaration becomes depends on the model in few places: the names of members, the base types,
and what the types written in it resolve to.  So a declaration that one model generates is generated
by another one as the same types, wherever the second model gives the same names and base types and
resolves what the first one resolves.  For a name this only takes a table that knows the same at all
full names which the name may stand for.

* `Settings.SameNames`: settings that name members alike.
* `Model.Follows`: what one model resolves, another one resolves alike.
* `Model.follows_of_table`: this takes the same knowledge of the full names that may be meant.
* `Model.declarationTypes_of_follows`: **such a model generates the same types.**
-/

namespace DomainForms

/-- Settings that give the same names to members that no source names. -/
structure Settings.SameNames (s t : Settings) : Prop where
  /-- The property of a shorthand value type. -/
  defaultPropertyName_eq : t.defaultPropertyName = s.defaultPropertyName
  /-- What stands before the name of a service. -/
  serviceInterfacePrefix_eq : t.serviceInterfacePrefix = s.serviceInterfacePrefix
  /-- The operations of a service. -/
  serviceOperationName_eq : t.serviceOperationName = s.serviceOperationName

theorem Outcome.mapM_eq_ok_of_step {ε α β : Type} {step step' : α → Except ε β} {items : List α}
    {results : List β} (hstep : ∀ a ∈ items, ∀ b, step a = .ok b → step' a = .ok b)
    (h : items.mapM step = .ok results) : items.mapM step' = .ok results :=
  mapM_eq_ok.2 (((List.forall₂_and_left _ _).2 ⟨hstep, mapM_eq_ok.1 h⟩).imp fun _ _ hb =>
    hb.1 _ hb.2)

namespace Model

variable {m n : Model}

/-! ## Resolution -/

/-- What the first model resolves a type to, seen from a namespace, the second one does too. -/
def Follows (m n : Model) (scope : QualifiedName) (type : TypeRef) : Prop :=
  ∀ r, m.resolve scope type = .ok r → n.resolve scope type = .ok r

/-- **What a name takes to be resolved alike**: a table that knows the same at all full names that
the name may stand for, and settings that are not stricter. -/
theorem follows_of_table {scope name : QualifiedName} {table other : KnownTypes}
    (htable : m.knownTypes = .ok table) (hother : n.knownTypes = .ok other)
    (hget : ∀ candidate ∈ candidates scope name.fullName,
      other.get? candidate = table.get? candidate)
    (hstrict : n.settings.strictTypeResolution = true → m.settings.strictTypeResolution = true) :
    Follows m n scope (.named name) := by
  intro r h
  obtain ⟨table', htable', hr⟩ := resolveName_eq_ok.1 h
  cases htable.symm.trans htable'
  have hfind : (candidates scope name.fullName).findSome? table.get?
      = (candidates scope name.fullName).findSome? other.get? := by
    rw [← List.head?_filterMap, ← List.filterMap_congr hget, List.head?_filterMap]
  rw [hfind] at hr
  refine resolveName_eq_ok.2 ⟨other, hother, hr.imp_right fun ⟨hfind, hrest⟩ => ⟨hfind, ?_⟩⟩
  refine hrest.imp_right fun ⟨hsystem, hlax, hassumed⟩ => ⟨hsystem, ?_, hassumed⟩
  rw [Bool.eq_false_iff] at hlax ⊢
  exact mt hstrict hlax

theorem follows_of_names {scope : QualifiedName} : ∀ {type : TypeRef},
    (∀ name ∈ type.names, Follows m n scope (.named name)) → Follows m n scope type := by
  intro type
  induction type with
  | simple p => intro _ r h; exact h
  | nullable p => intro _ r h; exact h
  | string => intro _ r h; exact h
  | named name => intro hnames; exact hnames name (List.mem_singleton_self name)
  | array element ranks ih =>
    intro hnames r h
    rw [resolve] at h ⊢
    obtain ⟨inner, hinner, h⟩ := Outcome.bind_eq_ok.1 h
    rw [ih hnames inner hinner]
    exact h

/-! ## Generation -/

section

variable (hnames : m.settings.SameNames n.settings)
  (hbases : ∀ kind : RecordKind,
    kind.conventionBases n.conventions = kind.conventionBases m.conventions)
  {scope : QualifiedName}

include hnames

theorem slot_of_follows {p : Property} {s : Slot}
    (hfollows : Follows m n scope (p.type.getD .default)) (h : m.slot scope p = .ok s) :
    n.slot scope p = .ok s := by
  rw [slot] at h ⊢
  obtain ⟨resolved, hresolved, h⟩ := Outcome.bind_eq_ok.1 h
  rw [hfollows resolved hresolved, hnames.defaultPropertyName_eq]
  exact h

include hbases

theorem recordType_of_follows {kind : RecordKind} {r : Record} {t : TypeDefinition}
    (hfollows : ∀ p ∈ r.properties, Follows m n scope (p.type.getD .default))
    (h : m.recordType scope kind r = .ok t) : n.recordType scope kind r = .ok t := by
  rw [recordType] at h ⊢
  obtain ⟨slots, hslots, h⟩ := Outcome.bind_eq_ok.1 h
  have hslots' : r.properties.mapM (n.slot scope) = .ok slots :=
    Outcome.mapM_eq_ok_of_step (fun p hp _ => slot_of_follows hnames (hfollows p hp)) hslots
  rw [hslots', hbases]
  exact h

/-- **A model that resolves the same generates the same types.** -/
theorem declarationTypes_of_follows {d : Declaration} {types : List TypeDefinition}
    (hfollows : ∀ p ∈ d.allProperties, ∀ type, p.type = some type → Follows m n scope type)
    (h : m.declarationTypes scope d = .ok types) : n.declarationTypes scope d = .ok types := by
  -- a property without a written type has the default one, which resolves everywhere
  have hproperty : ∀ p ∈ d.allProperties, Follows m n scope (p.type.getD .default) := by
    intro p hp
    cases htype : p.type with
    | none => exact fun r hr => hr
    | some type => exact hfollows p hp type htype
  cases d with
  | record kind body =>
    rw [declarationTypes] at h ⊢
    obtain ⟨t, ht, h⟩ := Outcome.bind_eq_ok.1 h
    rw [recordType_of_follows hnames hbases (fun p hp => hproperty p (List.mem_append_left _ hp)) ht]
    exact h
  | enumeration body => exact h
  | service body =>
    have hinterface : interfaceType n.settings scope body = interfaceType m.settings scope body := by
      simp only [interfaceType, operationOf, hnames.serviceInterfacePrefix_eq,
        hnames.serviceOperationName_eq]
    rw [declarationTypes, serviceTypes] at h ⊢
    obtain ⟨commands, hcommands, h⟩ := Outcome.bind_eq_ok.1 h
    have hcommands' : body.commands.mapM (n.recordType scope .command) = .ok commands := by
      refine Outcome.mapM_eq_ok_of_step (fun r hr t ht => ?_) hcommands
      exact recordType_of_follows hnames hbases
        (fun p hp => hproperty p (List.mem_flatMap.2 ⟨r, hr, hp⟩)) ht
    rw [hcommands', hinterface]
    exact h

theorem forall₂_of_follows {declarations : List (Namespace × Declaration)}
    {lists : List (List TypeDefinition)}
    (hfollows : ∀ scope d, (scope, d) ∈ declarations → ∀ p ∈ d.allProperties, ∀ type,
      p.type = some type → Follows m n scope.name type)
    (h : List.Forall₂ (fun (scope, d) list => m.declarationTypes scope.name d = .ok list)
      declarations lists) :
    List.Forall₂ (fun (scope, d) list => n.declarationTypes scope.name d = .ok list)
      declarations lists := by
  have hmem : ∀ entry ∈ declarations, ∀ list, m.declarationTypes entry.1.name entry.2 = .ok list →
      n.declarationTypes entry.1.name entry.2 = .ok list := by
    rintro ⟨scope, d⟩ hd list hlist
    exact declarationTypes_of_follows hnames hbases (hfollows scope d hd) hlist
  exact ((List.forall₂_and_left _ _).2 ⟨hmem, h⟩).imp fun _ _ hlist => hlist.1 _ hlist.2

end

end Model

end DomainForms
