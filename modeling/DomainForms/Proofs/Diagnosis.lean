import DomainForms.Proofs.DeclarationOrder
import DomainForms.Proofs.FirstError
import DomainForms.Proofs.Target.References

/-!
# What a compilation answers

A compilation walks over the document three times: it collects the declared names, it resolves the
types of all properties, and it generates the types of all declarations.  The first walk that finds
something wrong ends it with the first error of that walk.  What each walk looks for can be said of
the document alone, without tables and generated types.

* `Document.Unknown`: a name that nothing declares.
* `Declaration.Flaw`: what is wrong with the members of a declaration.
* `Compiler.Refuses`, `Compiler.Accepts`: which error a document is answered with, and which documents
  have none.
* `Model.resolve_eq_error`, `Model.declarationTypes_eq_error`: what a single step of the second and of
  the third walk answers.  The third one resolves again, and meets no error there.
* `Compiler.compileDocument_outcome`: the answer of a whole compilation.
-/

namespace DomainForms

open Outcome

/-! ## Names -/

/-- The full names that a document declares, in order. -/
def Document.declaredNames (d : Document) : List String := d.knownTypes.map KnownType.fullName

/-- A name, seen from a namespace, that is declared under none of the full names which it may stand
for, and that is no system type. -/
def Document.Unknown (d : Document) (scope name : QualifiedName) : Prop :=
  (∀ candidate ∈ candidates scope name.fullName, candidate ∉ d.declaredNames) ∧
    systemValueType? name = none

/-- A type, seen from a namespace, with the innermost declared name in place of a written one. -/
def Document.expand (d : Document) (scope : QualifiedName) : TypeRef → TypeRef
  | .named name =>
    match (candidates scope name.fullName).find? (d.declaredNames.contains ·) with
    | some fullName => .ofName fullName
    | none => .named name
  | .array element ranks => .array (d.expand scope element) ranks
  | type => type

/-- A property of a document, with the declaration and the namespace around it. -/
structure Site where
  /-- The name of the namespace. -/
  scope : QualifiedName
  /-- The declaration, which is the service for a property of a command inside it. -/
  declaration : Declaration
  /-- The property. -/
  property : Property

/-- The properties of a document, in order. -/
def Document.sites (d : Document) : List Site :=
  d.declarations.flatMap fun (scope, declaration) =>
    declaration.allProperties.map (Site.mk scope.name declaration)

/-- The type of a property mentions an unknown name. -/
def Site.Mentions (d : Document) (s : Site) (name : QualifiedName) : Prop :=
  ∃ type, s.property.type = some type ∧ name ∈ type.names ∧ d.Unknown s.scope name

/-! ## Members -/

/-- An array that cannot be compared item by item: its brackets are not one pair with one dimension,
or its items are arrays. -/
def TypeRef.Unsupported : TypeRef → Prop
  | array element ranks => ranks ≠ [.single] ∨ element.isArray = true
  | _ => False

namespace Property

variable (settings : Settings) (p : Property)

/-- The name of a property, which may be left to the settings. -/
def nameIn : String := p.name.getD settings.defaultPropertyName

/-- The name of the field that a property is stored in. -/
def fieldIn : String := fieldName (p.nameIn settings)

/-- The type of a property, if it is written, is an array that cannot be compared. -/
def Unsupported : Prop := ∃ type, p.type = some type ∧ type.Unsupported

end Property

/-- What is wrong with the members of a record: two properties share a field, or else the type of a
property has no comparison. -/
inductive Record.Flaw (settings : Settings) (d : Document) (scope : QualifiedName) (r : Record) :
    Error.Cause → Prop
  | repeated {p : Property} : FirstRepeat (Property.fieldIn settings) r.properties p →
      Flaw settings d scope r (.duplicateMember (scope.qualify r.name) (p.nameIn settings))
  | shape {p : Property} {type : TypeRef} : (r.properties.map (Property.fieldIn settings)).Nodup →
      IsFirst Property.Unsupported r.properties p → p.type = some type →
      Flaw settings d scope r (.unsupportedArrayShape (scope.qualify r.name) (p.nameIn settings)
        (d.expand scope type).text)

/-- What is wrong with the members of a declaration: the flaw of a record, a value that an
enumeration has twice, or the flaw of the first flawed command of a service. -/
inductive Declaration.Flaw (settings : Settings) (d : Document) (scope : QualifiedName) :
    Declaration → Error.Cause → Prop
  | record {kind : RecordKind} {body : Record} {cause : Error.Cause} :
      body.Flaw settings d scope cause → Flaw settings d scope (.record kind body) cause
  | enumeration {body : Enumeration} {value : String} : FirstRepeat id body.values value →
      Flaw settings d scope (.enumeration body) (.duplicateMember (scope.qualify body.name) value)
  | service {body : Service} {command : Record} {cause : Error.Cause} :
      IsFirst (fun r => ∃ cause, r.Flaw settings d scope cause) body.commands command →
      command.Flaw settings d scope cause → Flaw settings d scope (.service body) cause

/-- A record without a flaw. -/
def Record.Sound (settings : Settings) (r : Record) : Prop :=
  (r.properties.map (Property.fieldIn settings)).Nodup ∧ ∀ p ∈ r.properties, ¬ p.Unsupported

/-- A declaration without a flaw. -/
def Declaration.Sound (settings : Settings) : Declaration → Prop
  | .record _ body => body.Sound settings
  | .enumeration body => body.values.Nodup
  | .service body => ∀ r ∈ body.commands, r.Sound settings

/-! ## Answers -/

/-- The place of a span inside a declaration. -/
def Declaration.placeOf (scope : QualifiedName) (d : Declaration) (span : Span) : Error.Context :=
  ⟨none, some span.line, some span.column, [d.frame scope]⟩

namespace Compiler

/-- The declared full names are different, or need not be. -/
def NamesApart (c : Compiler) (d : Document) : Prop :=
  c.settings.allowDuplicateTypes = true ∨ d.declaredNames.Nodup

/-- No property mentions an unknown name, or it may. -/
def NamesKnown (c : Compiler) (d : Document) : Prop :=
  c.settings.strictTypeResolution = true → ∀ s ∈ d.sites, ∀ name, ¬ s.Mentions d name

/-- The error that a document is answered with. -/
inductive Refuses (c : Compiler) (d : Document) : Error → Prop
  | duplicateType {name : String} : c.settings.allowDuplicateTypes = false →
      FirstRepeat id d.declaredNames name → Refuses c d (.of (.duplicateType name))
  | unresolvedType {s : Site} {name : QualifiedName} : c.NamesApart d →
      c.settings.strictTypeResolution = true →
      IsFirst (fun s => ∃ name, s.Mentions d name) d.sites s → s.Mentions d name →
      Refuses c d ⟨.unresolvedType name.fullName s.scope.fullName,
        some (s.declaration.placeOf s.scope s.property.span)⟩
  | flaw {scope : Namespace} {declaration : Declaration} {cause : Error.Cause} :
      c.NamesApart d → c.NamesKnown d →
      IsFirst (fun entry : Namespace × Declaration =>
        ∃ cause, entry.2.Flaw c.settings d entry.1.name cause) d.declarations (scope, declaration) →
      declaration.Flaw c.settings d scope.name cause →
      Refuses c d ⟨cause, some (declaration.placeOf scope.name declaration.span)⟩

/-- A document that is answered with an output. -/
structure Accepts (c : Compiler) (d : Document) : Prop where
  /-- No full name is declared twice, unless it may be. -/
  namesApart : c.NamesApart d
  /-- No name is unknown, unless it may be. -/
  namesKnown : c.NamesKnown d
  /-- No declaration has a flaw. -/
  sound : ∀ scope declaration, (scope, declaration) ∈ d.declarations →
    declaration.Sound c.settings

end Compiler

/-- A step whose errors have no place fails, seen from a declaration, with the place in it. -/
theorem Declaration.placed_eq_error {α β κ : Type} {step : Except Error α} {placed : Except Error β}
    {P : κ → Prop} {cause : κ → Error.Cause} {scope : QualifiedName} {d : Declaration} {span : Span}
    (hstep : ∀ e, step = .error e ↔ ∃ k, P k ∧ e = .of (cause k))
    (hok : ∀ a, step = .ok a → ∃ b, placed = .ok b)
    (herror : ∀ e, step = .error e →
      placed = .error (e.inDeclaration (d.frame scope) span.line span.column)) {e : Error} :
    placed = .error e ↔ ∃ k, P k ∧ e = ⟨cause k, some (d.placeOf scope span)⟩ := by
  constructor
  · intro h
    cases hs : step with
    | ok a =>
      obtain ⟨b, hb⟩ := hok a hs
      rw [hb] at h
      cases h
    | error inner =>
      obtain ⟨k, hk, rfl⟩ := (hstep inner).1 hs
      rw [herror _ hs] at h
      exact ⟨k, hk, (Except.error.inj h).symm⟩
  · rintro ⟨k, hk, rfl⟩
    exact herror _ ((hstep _).2 ⟨k, hk, rfl⟩)

/-! ## Resolution -/

section Resolution

variable {c : Compiler} {d : Document} {table : KnownTypes}
  (htable : (c.model d).knownTypes = .ok table)

include htable

theorem contains_table {name : String} :
    table.contains name = true ↔ name ∈ d.declaredNames := by
  rw [Compiler.knownTypes_model] at htable
  exact KnownTypes.contains_ofList htable

theorem get?_table_eq_none {name : String} : table.get? name = none ↔ name ∉ d.declaredNames := by
  rw [← contains_table htable, KnownTypes.contains]
  cases table.get? name <;> simp

theorem find?_of_findSome?_table : ∀ {names : List String} {known : KnownType},
    names.findSome? table.get? = some known →
      names.find? (d.declaredNames.contains ·) = some known.fullName := by
  intro names
  induction names with
  | nil => intro known h; cases h
  | cons first rest ih =>
    intro known h
    rw [List.findSome?_cons] at h
    cases hfirst : table.get? first with
    | some found =>
      rw [hfirst] at h
      cases h
      have hmem : first ∈ d.declaredNames := by
        rw [← contains_table htable, KnownTypes.contains, hfirst]
        rfl
      have htable' := htable
      rw [Compiler.knownTypes_model] at htable'
      rw [List.find?_cons_of_pos (List.contains_iff_mem.2 hmem),
        (KnownTypes.mem_of_get?_ofList htable' hfirst).2]
    | none =>
      rw [hfirst] at h
      have hnot := (get?_table_eq_none htable).1 hfirst
      rw [List.find?_cons_of_neg (mt List.contains_iff_mem.1 hnot)]
      exact ih h

theorem Model.resolveName_eq_error {scope name : QualifiedName} {e : Error} :
    (c.model d).resolveName scope name = .error e ↔
      c.settings.strictTypeResolution = true ∧ d.Unknown scope name ∧
        e = .of (.unresolvedType name.fullName scope.fullName) := by
  have hnone : (candidates scope name.fullName).findSome? table.get? = none ↔
      ∀ candidate ∈ candidates scope name.fullName, candidate ∉ d.declaredNames := by
    rw [List.findSome?_eq_none_iff]
    simp only [get?_table_eq_none htable]
  rw [Document.Unknown, ← hnone]
  unfold resolveName
  rw [htable, ok_bind]
  dsimp only
  cases (candidates scope name.fullName).findSome? table.get? with
  | some known => simp
  | none =>
    cases systemValueType? name with
    | some isValueType => simp
    | none =>
      have hsettings : (c.model d).settings = c.settings := rfl
      rw [hsettings]
      cases c.settings.strictTypeResolution <;> simp [eq_comm]

/-- **A type is refused under strict settings if it mentions an unknown name.** -/
theorem Model.resolve_eq_error {scope : QualifiedName} {e : Error} : ∀ {type : TypeRef},
    (c.model d).resolve scope type = .error e ↔
      c.settings.strictTypeResolution = true ∧ ∃ name ∈ type.names, d.Unknown scope name ∧
        e = .of (.unresolvedType name.fullName scope.fullName) := by
  intro type
  induction type with
  | simple p => simp [resolve, TypeRef.names]
  | nullable p => simp [resolve, TypeRef.names]
  | string => simp [resolve, TypeRef.names]
  | named name => simp [resolve, TypeRef.names, resolveName_eq_error htable]
  | array element ranks ih =>
    rw [resolve, bind_eq_error, ih]
    simp [TypeRef.names]

theorem Model.type_of_resolve {scope : QualifiedName} : ∀ {type : TypeRef} {r : Resolved},
    (c.model d).resolve scope type = .ok r → r.type = d.expand scope type := by
  intro type
  induction type with
  | simple p => intro r h; cases h; rfl
  | nullable p => intro r h; cases h; rfl
  | string => intro r h; cases h; rfl
  | array element ranks ih =>
    intro r h
    rw [resolve] at h
    obtain ⟨inner, hinner, h⟩ := bind_eq_ok.1 h
    cases h
    rw [ih hinner]
    rfl
  | named name =>
    intro r h
    obtain ⟨table', htable', hr⟩ := resolveName_eq_ok.1 h
    rw [htable] at htable'
    cases htable'
    rcases hr with ⟨known, hfind, rfl⟩ | ⟨hfind, hother⟩
    · rw [Document.expand, find?_of_findSome?_table htable hfind]
    · have hnone : (candidates scope name.fullName).find? (d.declaredNames.contains ·) = none := by
        rw [List.find?_eq_none]
        intro candidate hc hin
        exact (get?_table_eq_none htable).1 (List.findSome?_eq_none_iff.1 hfind candidate hc)
          (List.contains_iff_mem.1 hin)
      rw [Document.expand, hnone]
      rcases hother with ⟨isValueType, -, rfl⟩ | ⟨-, -, rfl⟩
      · rfl
      · rfl

end Resolution

/-! ## Comparisons -/

theorem TypeRef.compared_eq_none {element : TypeRef} {ranks : List Rank} :
    (array element ranks).singleDimensionElement?.bind elementComparison? = none ↔
      (array element ranks).Unsupported := by
  have helement : elementComparison? element = none ↔ element.isArray = true := by
    cases element <;> simp [elementComparison?, isArray]
  match ranks with
  | [] => simp [singleDimensionElement?, Unsupported]
  | [⟨dimensions⟩] =>
    by_cases hone : dimensions = 1
    · simp [singleDimensionElement?, Unsupported, Rank.single, hone, helement]
    · simp [singleDimensionElement?, Unsupported, Rank.single, hone]
  | _ :: _ :: _ => simp [singleDimensionElement?, Unsupported]

theorem Slot.comparison_eq_error {owner : String} {s : Slot} {e : Error} :
    s.comparison owner = .error e ↔ s.type.Unsupported ∧
      e = .of (.unsupportedArrayShape owner s.property s.type.text) := by
  obtain ⟨property, field, type, isValueType⟩ := s
  cases type with
  | array element ranks =>
    rw [← TypeRef.compared_eq_none]
    dsimp only [comparison]
    cases (TypeRef.array element ranks).singleDimensionElement?.bind elementComparison? with
    | some element => simp
    | none => simp [eq_comm]
  | simple p => simp [comparison, TypeRef.Unsupported]
  | string => simp [comparison, TypeRef.Unsupported]
  | nullable p => simp [comparison, TypeRef.Unsupported]
  | named name => simp [comparison, TypeRef.Unsupported]

/-- A comparison of all slots fails at the first slot that has none. -/
theorem conjunction_eq_error {owner : String} {e : Error} : ∀ {slots : List Slot} {start : Expr},
    conjunction owner start slots = .error e ↔ ∃ s, IsFirst (·.type.Unsupported) slots s ∧
      e = .of (.unsupportedArrayShape owner s.property s.type.text) := by
  intro slots
  induction slots with
  | nil =>
    intro start
    constructor
    · intro h
      cases h
    · rintro ⟨s, hs, -⟩
      exact absurd hs not_isFirst_nil
  | cons first rest ih =>
    intro start
    rw [conjunction, bind_eq_error, Slot.comparison_eq_error]
    simp only [ih, isFirst_cons]
    by_cases hfirst : first.type.Unsupported
    · have hnone : ¬ ∃ a, first.comparison owner = .ok a := by
        rintro ⟨a, ha⟩
        rw [Slot.comparison_eq_error.2 ⟨hfirst, rfl⟩] at ha
        cases ha
      simp only [not_exists] at hnone
      simp [hfirst, hnone]
    · cases hcomparison : first.comparison owner with
      | error e' => exact absurd (Slot.comparison_eq_error.1 hcomparison).1 hfirst
      | ok a => simp [hfirst]

theorem recordMembers_eq_error {kind : RecordKind} {owner : String} {slots : List Slot} {e : Error} :
    recordMembers kind owner slots = .error e ↔ ∃ s, IsFirst (·.type.Unsupported) slots s ∧
      e = .of (.unsupportedArrayShape owner s.property s.type.text) := by
  rw [← conjunction_eq_error, recordMembers, typedEqualsBody]
  cases conjunction owner (equalityStart kind.isValueType) slots <;> simp

/-! ## Slots -/

/-- A slot stores a property: under its name, in its field, with full names in its type. -/
structure Slot.Stores (settings : Settings) (d : Document) (scope : QualifiedName) (p : Property)
    (s : Slot) : Prop where
  property_eq : s.property = p.nameIn settings
  field_eq : s.field = p.fieldIn settings
  type_eq : s.type = d.expand scope (p.type.getD .default)

theorem Document.isArray_expand (d : Document) (scope : QualifiedName) (type : TypeRef) :
    (d.expand scope type).isArray = type.isArray := by
  cases type with
  | named name => rw [expand]; split <;> rfl
  | _ => rfl

theorem Document.unsupported_expand (d : Document) (scope : QualifiedName) (type : TypeRef) :
    (d.expand scope type).Unsupported ↔ type.Unsupported := by
  cases type with
  | named name => rw [expand]; split <;> rfl
  | array element ranks => rw [expand, TypeRef.Unsupported, isArray_expand, TypeRef.Unsupported]
  | _ => rfl

theorem Slot.Stores.unsupported_iff {settings : Settings} {d : Document} {scope : QualifiedName}
    {p : Property} {s : Slot} (h : s.Stores settings d scope p) :
    p.Unsupported ↔ s.type.Unsupported := by
  rw [h.type_eq, d.unsupported_expand, Property.Unsupported]
  cases p.type <;> simp [TypeRef.default, TypeRef.Unsupported]

/-- The flaws of a record, said of the slots that store its properties. -/
theorem Record.flaw_iff_slots {settings : Settings} {d : Document} {scope : QualifiedName}
    {r : Record} {slots : List Slot}
    (hstores : List.Forall₂ (fun p s => s.Stores settings d scope p) r.properties slots)
    {cause : Error.Cause} :
    r.Flaw settings d scope cause ↔
      (∃ s, FirstRepeat Slot.field slots s ∧
        cause = .duplicateMember (scope.qualify r.name) s.property) ∨
      (slots.map Slot.field).Nodup ∧ ∃ s, IsFirst (·.type.Unsupported) slots s ∧
        cause = .unsupportedArrayShape (scope.qualify r.name) s.property s.type.text := by
  have hback : List.Forall₂ (fun s p => s.Stores settings d scope p) slots r.properties :=
    hstores.flip
  have hfields : r.properties.map (Property.fieldIn settings) = slots.map Slot.field := by
    rw [← List.forall₂_eq_eq_eq, List.forall₂_map_left_iff, List.forall₂_map_right_iff]
    exact hstores.imp fun _ _ h => h.field_eq.symm
  constructor
  · intro hflaw
    cases hflaw with
    | repeated hp =>
      obtain ⟨s, hs, hstore⟩ := hp.of_forall₂ hstores fun _ _ h => h.field_eq.symm
      exact Or.inl ⟨s, hs, by rw [hstore.property_eq]⟩
    | shape hnodup hp htype =>
      obtain ⟨s, hs, hstore⟩ := hp.of_forall₂ hstores fun _ _ h => h.unsupported_iff
      rw [hfields] at hnodup
      exact Or.inr ⟨hnodup, s, hs, by rw [hstore.property_eq, hstore.type_eq, htype]; rfl⟩
  · rintro (⟨s, hs, rfl⟩ | ⟨hnodup, s, hs, rfl⟩)
    · obtain ⟨p, hp, hstore⟩ := hs.of_forall₂ hback fun _ _ h => h.field_eq
      rw [hstore.property_eq]
      exact .repeated hp
    · obtain ⟨p, hp, hstore⟩ := hs.of_forall₂ hback fun _ _ h => h.unsupported_iff.symm
      obtain ⟨type, htype, -⟩ := hp.holds
      rw [← hfields] at hnodup
      rw [hstore.property_eq, hstore.type_eq, htype]
      exact .shape hnodup hp htype

theorem Model.recordType_eq_error_of_slots {m : Model} {scope : QualifiedName} {kind : RecordKind}
    {r : Record} {slots : List Slot} (hslots : r.properties.mapM (m.slot scope) = .ok slots)
    {e : Error} :
    m.recordType scope kind r = .error e ↔
      (∃ s, FirstRepeat Slot.field slots s ∧
        e = .of (.duplicateMember (scope.qualify r.name) s.property)) ∨
      (slots.map Slot.field).Nodup ∧ ∃ s, IsFirst (·.type.Unsupported) slots s ∧
        e = .of (.unsupportedArrayShape (scope.qualify r.name) s.property s.type.text) := by
  have hmembers : recordMembers kind (scope.qualify r.name) slots = .error e ↔ _ :=
    recordMembers_eq_error
  rw [← hmembers, recordType, hslots, ok_bind]
  simp only [← firstRepeated?_eq_some]
  cases hsearch : firstRepeated? Slot.field [] slots with
  | some repeated =>
    have hrepeats := (firstRepeated?_eq_some.1 hsearch).not_nodup
    simp [hrepeats, eq_comm]
  | none =>
    have hnodup := (firstRepeated?_eq_none hsearch).1
    cases recordMembers kind (scope.qualify r.name) slots <;> simp [hnodup]

theorem enumerationType_eq_error {scope : QualifiedName} {body : Enumeration} {e : Error} :
    enumerationType scope body = .error e ↔ ∃ value, FirstRepeat id body.values value ∧
      e = .of (.duplicateMember (scope.qualify body.name) value) := by
  simp only [← firstRepeated?_eq_some]
  rw [enumerationType]
  cases firstRepeated? id [] body.values with
  | none => simp
  | some value => simp [eq_comm]

section Generation

variable {c : Compiler} {d : Document} {table : KnownTypes}
  (htable : (c.model d).knownTypes = .ok table) {scope : QualifiedName} {e : Error}

/-- The written types of properties can be resolved. -/
def Model.ResolvesTypes (m : Model) (scope : QualifiedName) (properties : List Property) : Prop :=
  ∀ p ∈ properties, ∀ type, p.type = some type → ∃ r, m.resolve scope type = .ok r

include htable

theorem Model.stores_of_slot {p : Property} {s : Slot} (h : (c.model d).slot scope p = .ok s) :
    s.Stores c.settings d scope p := by
  rw [slot] at h
  obtain ⟨r, hr, h⟩ := bind_eq_ok.1 h
  cases h
  exact ⟨rfl, rfl, type_of_resolve htable hr⟩

theorem Model.exists_slots {properties : List Property}
    (hall : (c.model d).ResolvesTypes scope properties) :
    ∃ slots, properties.mapM ((c.model d).slot scope) = .ok slots ∧
      List.Forall₂ (fun p s => s.Stores c.settings d scope p) properties slots := by
  cases hslots : properties.mapM ((c.model d).slot scope) with
  | ok slots =>
    exact ⟨slots, rfl, (mapM_eq_ok.1 hslots).imp fun _ _ h => stores_of_slot htable h⟩
  | error e =>
    -- a property whose type is not written gets the type of integers, which needs no resolution
    obtain ⟨p, hfirst, hp⟩ := mapM_eq_error.1 hslots
    rw [slot, bind_eq_error] at hp
    rcases hp with hp | ⟨r, -, hr⟩
    · cases htype : p.type with
      | none => rw [htype] at hp; cases hp
      | some type =>
        obtain ⟨r, hr⟩ := hall p hfirst.mem type htype
        rw [htype, Option.getD_some, hr] at hp
        cases hp
    · cases hr

/-- **What the type of a record fails with**, once its types can be resolved. -/
theorem Model.recordType_eq_error {kind : RecordKind} {r : Record}
    (hall : (c.model d).ResolvesTypes scope r.properties) :
    (c.model d).recordType scope kind r = .error e ↔
      ∃ cause, r.Flaw c.settings d scope cause ∧ e = .of cause := by
  obtain ⟨slots, hslots, hstores⟩ := exists_slots htable hall
  simp only [recordType_eq_error_of_slots hslots, Record.flaw_iff_slots hstores]
  constructor
  · rintro (⟨s, hs, rfl⟩ | ⟨hnodup, s, hs, rfl⟩)
    · exact ⟨_, Or.inl ⟨s, hs, rfl⟩, rfl⟩
    · exact ⟨_, Or.inr ⟨hnodup, s, hs, rfl⟩, rfl⟩
  · rintro ⟨_, ⟨s, hs, rfl⟩ | ⟨hnodup, s, hs, rfl⟩, rfl⟩
    · exact Or.inl ⟨s, hs, rfl⟩
    · exact Or.inr ⟨hnodup, s, hs, rfl⟩

/-- **What the types of a declaration fail with**, once its types can be resolved. -/
theorem Model.declarationTypes_eq_error {declaration : Declaration}
    (hall : (c.model d).ResolvesTypes scope declaration.allProperties) :
    (c.model d).declarationTypes scope declaration = .error e ↔
      ∃ cause, declaration.Flaw c.settings d scope cause ∧ e = .of cause := by
  cases declaration with
  | record kind body =>
    have hbody : (c.model d).ResolvesTypes scope body.properties := by
      intro p hp
      exact hall p (List.mem_append_left _ hp)
    rw [declarationTypes, bind_eq_error, recordType_eq_error htable hbody]
    constructor
    · rintro (⟨cause, hflaw, rfl⟩ | ⟨t, -, h⟩)
      · exact ⟨cause, .record hflaw, rfl⟩
      · cases h
    · rintro ⟨cause, hflaw, rfl⟩
      cases hflaw with
      | record hflaw => exact Or.inl ⟨cause, hflaw, rfl⟩
  | enumeration body =>
    rw [declarationTypes, bind_eq_error, enumerationType_eq_error]
    constructor
    · rintro (⟨value, hvalue, rfl⟩ | ⟨t, -, h⟩)
      · exact ⟨_, .enumeration hvalue, rfl⟩
      · cases h
    · rintro ⟨cause, hflaw, rfl⟩
      cases hflaw with
      | enumeration hvalue => exact Or.inl ⟨_, hvalue, rfl⟩
  | service body =>
    have hcommand : ∀ r ∈ body.commands, ∀ e, (c.model d).recordType scope .command r = .error e ↔
        ∃ cause, r.Flaw c.settings d scope cause ∧ e = .of cause := by
      intro r hr e
      refine recordType_eq_error htable ?_
      intro p hp
      exact hall p (List.mem_append_right _ (List.mem_flatMap.2 ⟨r, hr, hp⟩))
    rw [declarationTypes, serviceTypes, bind_eq_error, mapM_eq_error,
      exists_firstError_iff hcommand]
    constructor
    · rintro (⟨r, cause, hr, hflaw, rfl⟩ | ⟨types, -, h⟩)
      · exact ⟨cause, .service hr hflaw, rfl⟩
      · cases h
    · rintro ⟨cause, hflaw, rfl⟩
      cases hflaw with
      | service hr hflaw => exact Or.inl ⟨_, cause, hr, hflaw, rfl⟩

theorem Model.placedTypes_eq_error {around : Namespace} {declaration : Declaration}
    (hall : (c.model d).ResolvesTypes around.name declaration.allProperties) :
    (c.model d).placedTypes around declaration = .error e ↔
      ∃ cause, declaration.Flaw c.settings d around.name cause ∧
        e = ⟨cause, some (declaration.placeOf around.name declaration.span)⟩ := by
  refine Declaration.placed_eq_error (fun _ => declarationTypes_eq_error htable hall) ?_ ?_
  · intro types h
    exact ⟨types, placedTypes_eq_ok.2 h⟩
  · intro e h
    rw [placedTypes, h]

end Generation

/-! ## The written document -/

section Defaults

variable {m : Model} (scope : QualifiedName) (d : Declaration) (name : String)

theorem Declaration.frame_withDefaults : (d.withDefaults name).frame scope = d.frame scope := by
  cases d <;> rfl

theorem Declaration.span_withDefaults : (d.withDefaults name).span = d.span := by
  cases d <;> rfl

theorem Declaration.allProperties_withDefaults :
    (d.withDefaults name).allProperties = d.allProperties.map (Property.withDefaults name) := by
  cases d with
  | record kind body => simp [allProperties, properties, nestedCommands, withDefaults,
      Record.withDefaults]
  | enumeration body => rfl
  | service body => simp [allProperties, properties, nestedCommands, withDefaults,
      Record.withDefaults, List.flatMap_map, List.map_flatMap]

theorem Model.validateProperty_withDefaults (p : Property) :
    m.validateProperty scope (d.withDefaults name) (p.withDefaults name)
      = m.validateProperty scope d p := by
  rw [validateProperty, validateProperty, d.frame_withDefaults]
  cases htype : p.type <;> simp [Property.withDefaults, htype, TypeRef.default, resolve]

theorem Model.placedTypes_withDefaults (around : Namespace) :
    m.placedTypes (around.withDefaults m.settings.defaultPropertyName)
        (d.withDefaults m.settings.defaultPropertyName)
      = m.placedTypes around d := by
  rw [placedTypes, placedTypes, Namespace.withDefaults, declarationTypes_withDefaults,
    d.frame_withDefaults, d.span_withDefaults]

end Defaults

theorem Outcome.forM_flatMap {ε α β : Type} (check : β → Except ε Unit) (f : α → List β) :
    ∀ items : List α, (items.flatMap f).forM check = items.forM fun a => (f a).forM check := by
  intro items
  simp only [List.forM_eq_forM]
  induction items with
  | nil => rfl
  | cons first rest ih => rw [List.flatMap_cons, List.forM_append, List.forM_cons, ih]

namespace Compiler

variable {c : Compiler} {d : Document}

theorem validate_model (c : Compiler) (d : Document) : (c.model d).validate = (do
    let _ ← (c.model d).knownTypes
    d.sites.forM fun s => (c.model d).validateProperty s.scope s.declaration s.property) := by
  have hsites : d.sites.forM (fun s =>
      (c.model d).validateProperty s.scope s.declaration s.property)
        = (c.model d).document.declarations.forM fun (scope, declaration) =>
          declaration.allProperties.forM ((c.model d).validateProperty scope.name declaration) := by
    have hdeclarations : (c.model d).document.declarations = _ :=
      d.declarations_withDefaults c.settings.defaultPropertyName
    rw [hdeclarations, Document.sites, Outcome.forM_flatMap]
    simp only [List.forM_eq_forM, List.forM_map, Declaration.allProperties_withDefaults,
      Model.validateProperty_withDefaults]
    rfl
  rw [hsites]
  rfl

theorem types_model (c : Compiler) (d : Document) : (c.model d).types = (do
    let lists ← d.declarations.mapM fun (scope, declaration) =>
      (c.model d).placedTypes scope declaration
    return lists.flatten) := by
  have hdeclarations : (c.model d).document.declarations = d.declarations.map
      fun (scope, declaration) => (scope.withDefaults (c.model d).settings.defaultPropertyName,
        declaration.withDefaults (c.model d).settings.defaultPropertyName) :=
    d.declarations_withDefaults c.settings.defaultPropertyName
  rw [Model.types, hdeclarations, List.mapM_map]
  simp only [Function.comp_def, Model.placedTypes_withDefaults]

/-! ## The answer of a compilation -/

theorem knownTypes_eq_error {e : Error} :
    (c.model d).knownTypes = .error e ↔ c.settings.allowDuplicateTypes = false ∧
      ∃ name, FirstRepeat id d.declaredNames name ∧ e = .of (.duplicateType name) := by
  rw [knownTypes_model, KnownTypes.ofList_eq_error, Document.declaredNames]

theorem exists_knownTypes_iff :
    (∃ table, (c.model d).knownTypes = .ok table) ↔ c.NamesApart d := by
  have hrepeat : (∃ name, FirstRepeat id d.declaredNames name) ↔ ¬ d.declaredNames.Nodup := by
    rw [exists_firstRepeat_iff, List.map_id]
  rw [exists_ok_iff, NamesApart]
  simp only [knownTypes_eq_error]
  rw [← not_iff_not, not_not, not_or, Bool.not_eq_true, ← hrepeat]
  constructor
  · rintro ⟨_, hdup, name, hname, -⟩
    exact ⟨hdup, name, hname⟩
  · rintro ⟨hdup, name, hname⟩
    exact ⟨_, hdup, name, hname, rfl⟩

theorem validateProperty_eq_error {table : KnownTypes}
    (htable : (c.model d).knownTypes = .ok table) {s : Site} {e : Error} :
    (c.model d).validateProperty s.scope s.declaration s.property = .error e ↔
      c.settings.strictTypeResolution = true ∧ ∃ name, s.Mentions d name ∧
        e = ⟨.unresolvedType name.fullName s.scope.fullName,
          some (s.declaration.placeOf s.scope s.property.span)⟩ := by
  cases htype : s.property.type with
  | none => simp [Model.validateProperty, Site.Mentions, htype]
  | some type =>
    have hmentions : ∀ name, s.Mentions d name ↔ name ∈ type.names ∧ d.Unknown s.scope name := by
      intro name
      simp [Site.Mentions, htype]
    have hresolve : ∀ e, (c.model d).resolve s.scope type = .error e ↔
        ∃ name, (c.settings.strictTypeResolution = true ∧ s.Mentions d name) ∧
          e = .of (.unresolvedType name.fullName s.scope.fullName) := by
      intro e
      simp only [Model.resolve_eq_error htable, hmentions, and_assoc, exists_and_left]
    simp only [← exists_and_left, ← and_assoc]
    refine Declaration.placed_eq_error hresolve ?_ ?_
    · intro r h
      exact ⟨(), by simp only [Model.validateProperty, htype, h]⟩
    · intro e h
      simp only [Model.validateProperty, htype, h]

theorem resolvesTypes_of_namesKnown {table : KnownTypes}
    (htable : (c.model d).knownTypes = .ok table) (hknown : c.NamesKnown d) {scope : Namespace}
    {declaration : Declaration} (hd : (scope, declaration) ∈ d.declarations) :
    (c.model d).ResolvesTypes scope.name declaration.allProperties := by
  intro p hp type htype
  cases hresolve : (c.model d).resolve scope.name type with
  | ok r => exact ⟨r, rfl⟩
  | error e =>
    obtain ⟨hstrict, name, hmem, hunknown, -⟩ := (Model.resolve_eq_error htable).1 hresolve
    have hsite : ⟨scope.name, declaration, p⟩ ∈ d.sites :=
      List.mem_flatMap.2 ⟨(scope, declaration), hd, List.mem_map_of_mem hp⟩
    exact absurd ⟨type, htype, hmem, hunknown⟩ (hknown hstrict _ hsite name)

theorem validate_eq_error {e : Error} :
    (c.model d).validate = .error e ↔ (c.model d).knownTypes = .error e ∨
      c.NamesApart d ∧ c.settings.strictTypeResolution = true ∧
        ∃ s name, IsFirst (fun s => ∃ name, s.Mentions d name) d.sites s ∧ s.Mentions d name ∧
          e = ⟨.unresolvedType name.fullName s.scope.fullName,
            some (s.declaration.placeOf s.scope s.property.span)⟩ := by
  rw [validate_model, bind_eq_error, ← exists_knownTypes_iff, ← exists_and_right]
  refine or_congr_right (exists_congr fun table => and_congr_right fun htable => ?_)
  rw [forM_eq_error]
  by_cases hstrict : c.settings.strictTypeResolution = true
  · rw [and_iff_right hstrict]
    refine exists_firstError_iff fun s _ e => ?_
    rw [validateProperty_eq_error htable, and_iff_right hstrict]
  · simp [validateProperty_eq_error htable, hstrict]

theorem validate_eq_ok_iff : (c.model d).validate = .ok () ↔ c.NamesApart d ∧ c.NamesKnown d := by
  rw [validate_model, bind_eq_ok, ← exists_knownTypes_iff, ← exists_and_right]
  refine exists_congr fun table => and_congr_right fun htable => ?_
  have hok : ∀ {check : Except Error Unit}, check = .ok () ↔ ¬ ∃ e, check = .error e := by
    intro check
    rw [← exists_ok_iff]
    exact ⟨fun h => ⟨(), h⟩, fun ⟨_, h⟩ => h⟩
  rw [forM_eq_ok, NamesKnown]
  simp only [hok, validateProperty_eq_error htable]
  constructor
  · intro h hstrict s hs name hname
    exact h s hs ⟨_, hstrict, name, hname, rfl⟩
  · rintro h s hs ⟨_, hstrict, name, hname, -⟩
    exact h hstrict s hs name hname

theorem generate_eq_error (hapart : c.NamesApart d) (hknown : c.NamesKnown d) {e : Error} :
    (c.model d).generate = .error e ↔ ∃ (entry : Namespace × Declaration) (cause : Error.Cause),
      IsFirst (fun entry => ∃ cause, entry.2.Flaw c.settings d entry.1.name cause) d.declarations
        entry ∧ entry.2.Flaw c.settings d entry.1.name cause ∧
      e = ⟨cause, some (entry.2.placeOf entry.1.name entry.2.span)⟩ := by
  obtain ⟨table, htable⟩ := exists_knownTypes_iff.2 hapart
  have hgenerate : (c.model d).generate = .error e ↔
      d.declarations.mapM (fun (scope, declaration) =>
        (c.model d).placedTypes scope declaration) = .error e := by
    rw [Model.generate, types_model]
    cases d.declarations.mapM fun (scope, declaration) =>
      (c.model d).placedTypes scope declaration <;> simp
  rw [hgenerate, mapM_eq_error]
  refine exists_firstError_iff fun entry hentry e => ?_
  exact Model.placedTypes_eq_error htable (resolvesTypes_of_namesKnown htable hknown hentry)

theorem compileDocument_eq_error {e : Error} : c.compileDocument d = .error e ↔ c.Refuses d e := by
  rw [compileDocument, bind_eq_error]
  constructor
  · rintro (h | ⟨_, hvalid, h⟩)
    · rcases validate_eq_error.1 h with h | ⟨hapart, hstrict, s, name, hs, hname, rfl⟩
      · obtain ⟨hdup, name, hname, rfl⟩ := knownTypes_eq_error.1 h
        exact .duplicateType hdup hname
      · exact .unresolvedType hapart hstrict hs hname
    · obtain ⟨hapart, hknown⟩ := validate_eq_ok_iff.1 hvalid
      obtain ⟨⟨scope, declaration⟩, cause, hfirst, hflaw, rfl⟩ :=
        (generate_eq_error hapart hknown).1 h
      exact .flaw hapart hknown hfirst hflaw
  · intro h
    cases h with
    | duplicateType hdup hname =>
      exact Or.inl (validate_eq_error.2 (Or.inl (knownTypes_eq_error.2 ⟨hdup, _, hname, rfl⟩)))
    | unresolvedType hapart hstrict hs hname =>
      exact Or.inl (validate_eq_error.2 (Or.inr ⟨hapart, hstrict, _, _, hs, hname, rfl⟩))
    | flaw hapart hknown hfirst hflaw =>
      exact Or.inr ⟨(), validate_eq_ok_iff.2 ⟨hapart, hknown⟩,
        (generate_eq_error hapart hknown).2 ⟨_, _, hfirst, hflaw, rfl⟩⟩

end Compiler

/-! ## Documents without flaws -/

theorem Record.exists_flaw_iff {settings : Settings} {d : Document} {scope : QualifiedName}
    {r : Record} : (∃ cause, r.Flaw settings d scope cause) ↔ ¬ r.Sound settings := by
  constructor
  · rintro ⟨cause, hflaw⟩ ⟨hnodup, hshapes⟩
    cases hflaw with
    | repeated hp => exact hp.not_nodup hnodup
    | shape _ hp _ => exact hshapes _ hp.mem hp.holds
  · intro hunsound
    by_cases hnodup : (r.properties.map (Property.fieldIn settings)).Nodup
    · have hexists : ∃ p ∈ r.properties, p.Unsupported := by
        by_contra hnone
        exact hunsound ⟨hnodup, fun p hp hu => hnone ⟨p, hp, hu⟩⟩
      obtain ⟨p, hp⟩ := exists_isFirst_iff.2 hexists
      obtain ⟨type, htype, -⟩ := hp.holds
      exact ⟨_, .shape hnodup hp htype⟩
    · obtain ⟨p, hp⟩ := exists_firstRepeat_iff.2 hnodup
      exact ⟨_, .repeated hp⟩

theorem Declaration.exists_flaw_iff {settings : Settings} {d : Document} {scope : QualifiedName}
    {declaration : Declaration} :
    (∃ cause, declaration.Flaw settings d scope cause) ↔ ¬ declaration.Sound settings := by
  cases declaration with
  | record kind body =>
    have hbody : (∃ cause, body.Flaw settings d scope cause) ↔ ¬ body.Sound settings :=
      Record.exists_flaw_iff
    rw [Sound, ← hbody]
    refine exists_congr fun cause => ⟨fun h => ?_, .record⟩
    cases h with
    | record h => exact h
  | enumeration body =>
    have hvalues : body.values.Nodup ↔ (body.values.map id).Nodup := by rw [List.map_id]
    rw [Sound, hvalues, ← exists_firstRepeat_iff]
    constructor
    · rintro ⟨cause, h⟩
      cases h with
      | enumeration h => exact ⟨_, h⟩
    · rintro ⟨value, h⟩
      exact ⟨_, .enumeration h⟩
  | service body =>
    have hcommands : (¬ ∀ r ∈ body.commands, r.Sound settings) ↔
        ∃ r ∈ body.commands, ∃ cause, r.Flaw settings d scope cause := by
      simp only [Record.exists_flaw_iff, not_forall, exists_prop]
    rw [Sound, hcommands, ← exists_isFirst_iff]
    constructor
    · rintro ⟨cause, h⟩
      cases h with
      | service hr _ => exact ⟨_, hr⟩
    · rintro ⟨r, hr⟩
      obtain ⟨cause, hflaw⟩ := hr.holds
      exact ⟨cause, .service hr hflaw⟩

namespace Compiler

theorem exists_compileDocument_iff {c : Compiler} {d : Document} :
    (∃ o, c.compileDocument d = .ok o) ↔ c.Accepts d := by
  constructor
  · rintro ⟨o, h⟩
    obtain ⟨_, hvalid, hgenerate⟩ := bind_eq_ok.1 h
    obtain ⟨hapart, hknown⟩ := validate_eq_ok_iff.1 hvalid
    refine ⟨hapart, hknown, fun scope declaration hd => ?_⟩
    by_contra hunsound
    have hflawed : ∃ entry ∈ d.declarations, ∃ cause,
        entry.2.Flaw c.settings d entry.1.name cause :=
      ⟨(scope, declaration), hd, Declaration.exists_flaw_iff.2 hunsound⟩
    obtain ⟨entry, hfirst⟩ := exists_isFirst_iff.2 hflawed
    obtain ⟨cause, hflaw⟩ := hfirst.holds
    exact exists_ok_iff.1 ⟨o, hgenerate⟩
      ⟨_, (generate_eq_error hapart hknown).2 ⟨entry, cause, hfirst, hflaw, rfl⟩⟩
  · rintro ⟨hapart, hknown, hsound⟩
    have hgenerate : ∃ o, (c.model d).generate = .ok o := by
      refine exists_ok_iff.2 ?_
      rintro ⟨e, he⟩
      obtain ⟨entry, cause, hfirst, hflaw, -⟩ := (generate_eq_error hapart hknown).1 he
      exact Declaration.exists_flaw_iff.1 ⟨cause, hflaw⟩ (hsound entry.1 entry.2 hfirst.mem)
    obtain ⟨o, ho⟩ := hgenerate
    exact ⟨o, bind_eq_ok.2 ⟨(), validate_eq_ok_iff.2 ⟨hapart, hknown⟩, ho⟩⟩

/-- **The answer of a compilation**: an error if and only if the document is refused with it, and an
output if and only if it is accepted. -/
theorem compileDocument_outcome (c : Compiler) (d : Document) :
    (∀ e, c.compileDocument d = .error e ↔ c.Refuses d e) ∧
      ((∃ o, c.compileDocument d = .ok o) ↔ c.Accepts d) :=
  ⟨fun _ => compileDocument_eq_error, exists_compileDocument_iff⟩

end Compiler

end DomainForms
