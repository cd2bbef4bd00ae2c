import DomainForms.Proofs.Diagnosis

/-!
# Filling in what a document leaves open

Open names and types are filled in at two places: once for the whole document before it is compiled,
and once for every property when its slot is made.  The second place makes the first one
unnecessary: what is generated, or the error with its place, is the same without it.

Filling in is described by what it keeps.  `Document.Fills` relates a document to one with nothing
left open, part by part, and `Document.fills_iff` says that there is exactly one such document.

* `Document.Fills`: only open names and types differ.
* `Document.fills_iff`: filling in gives that document and no other.
* `Model.generate_withDefaults`: generation does not see whether a document was filled in.
* `Document.withDefaults_agrees`: **both places fill in the same, and once is enough.**
-/

namespace DomainForms

/-! ## What is kept -/

/-- The second property is the first one with its open parts filled in. -/
structure Property.Fills (filler : String) (p q : Property) : Prop where
  /-- A written name is kept. -/
  written_name : ∀ name, p.name = some name → q.name = some name
  /-- An open name becomes the given one. -/
  open_name : p.name = none → q.name = some filler
  /-- A written type is kept. -/
  written_type : ∀ type, p.type = some type → q.type = some type
  /-- An open type becomes the integer type. -/
  open_type : p.type = none → q.type = some (.simple .int)
  /-- The place is kept. -/
  span_eq : q.span = p.span

/-- The second record is the first one with the open parts of its properties filled in. -/
structure Record.Fills (filler : String) (r s : Record) : Prop where
  name_eq : s.name = r.name
  properties : List.Forall₂ (Property.Fills filler) r.properties s.properties
  span_eq : s.span = r.span

/-- The second declaration is the first one with the open parts of all properties filled in, those
of the commands inside a service included. -/
inductive Declaration.Fills (filler : String) : Declaration → Declaration → Prop
  | record {kind : RecordKind} {r s : Record} : r.Fills filler s →
      Fills filler (.record kind r) (.record kind s)
  | enumeration {e : Enumeration} : Fills filler (.enumeration e) (.enumeration e)
  | service {name : String} {span : Span} {commands others : List Record} :
      List.Forall₂ (Record.Fills filler) commands others →
      Fills filler (.service ⟨name, commands, span⟩) (.service ⟨name, others, span⟩)

/-- The second namespace is the first one with the open parts of its declarations filled in. -/
structure Namespace.Fills (filler : String) (n k : Namespace) : Prop where
  name_eq : k.name = n.name
  declarations : List.Forall₂ (Declaration.Fills filler) n.declarations k.declarations
  span_eq : k.span = n.span

/-- **The second document is the first one with its open names and types filled in**, and is the same
in everything else. -/
structure Document.Fills (filler : String) (d e : Document) : Prop where
  conventions_eq : e.conventions = d.conventions
  namespaces : List.Forall₂ (Namespace.Fills filler) d.namespaces e.namespaces

section

variable {filler : String}

theorem forall₂_iff_eq_map {α : Type} {R : α → α → Prop} {f : α → α}
    (h : ∀ a b, R a b ↔ b = f a) : ∀ {items others : List α},
      List.Forall₂ R items others ↔ others = items.map f := by
  intro items
  induction items with
  | nil => intro others; rw [List.forall₂_nil_left_iff, List.map_nil]
  | cons a items ih =>
    intro others
    rw [List.forall₂_cons_left_iff, List.map_cons]
    constructor
    · rintro ⟨b, rest, hab, hrest, rfl⟩
      rw [(h a b).1 hab, ih.1 hrest]
    · rintro rfl
      exact ⟨f a, items.map f, (h a _).2 rfl, ih.2 rfl, rfl⟩

theorem Property.fills_iff (p q : Property) : p.Fills filler q ↔ q = p.withDefaults filler := by
  obtain ⟨name, type, span⟩ := p
  constructor
  · obtain ⟨name', type', span'⟩ := q
    rintro ⟨hname, hname', htype, htype', rfl⟩
    cases name <;> cases type <;> simp_all [withDefaults, TypeRef.default]
  · rintro rfl
    refine ⟨?_, ?_, ?_, ?_, rfl⟩
    · rintro _ ⟨⟩
      rfl
    · rintro ⟨⟩
      rfl
    · rintro _ ⟨⟩
      rfl
    · rintro ⟨⟩
      rfl

theorem Record.fills_iff (r s : Record) : r.Fills filler s ↔ s = r.withDefaults filler := by
  obtain ⟨name, properties, span⟩ := s
  constructor
  · rintro ⟨rfl, hproperties, rfl⟩
    exact congrArg (Record.mk r.name · r.span) ((forall₂_iff_eq_map Property.fills_iff).1 hproperties)
  · rintro ⟨⟩
    exact ⟨rfl, (forall₂_iff_eq_map Property.fills_iff).2 rfl, rfl⟩

theorem Declaration.fills_iff (d e : Declaration) :
    d.Fills filler e ↔ e = d.withDefaults filler := by
  constructor
  · intro h
    cases h with
    | record h => rw [(Record.fills_iff _ _).1 h, withDefaults]
    | enumeration => rfl
    | service h => rw [(forall₂_iff_eq_map Record.fills_iff).1 h, withDefaults]
  · rintro rfl
    cases d with
    | record kind body => exact .record ((Record.fills_iff _ _).2 rfl)
    | enumeration body => exact .enumeration
    | service body => exact .service ((forall₂_iff_eq_map Record.fills_iff).2 rfl)

theorem Namespace.fills_iff (n k : Namespace) : n.Fills filler k ↔ k = n.withDefaults filler := by
  obtain ⟨name, declarations, span⟩ := k
  constructor
  · rintro ⟨rfl, hdeclarations, rfl⟩
    exact congrArg (Namespace.mk n.name · n.span)
      ((forall₂_iff_eq_map Declaration.fills_iff).1 hdeclarations)
  · rintro ⟨⟩
    exact ⟨rfl, (forall₂_iff_eq_map Declaration.fills_iff).2 rfl, rfl⟩

/-- **Filling in gives the one document that differs in open parts only.** -/
theorem Document.fills_iff (d e : Document) : d.Fills filler e ↔ e = d.withDefaults filler := by
  obtain ⟨conventions, namespaces⟩ := e
  constructor
  · rintro ⟨rfl, hnamespaces⟩
    exact congrArg (Document.mk d.conventions)
      ((forall₂_iff_eq_map Namespace.fills_iff).1 hnamespaces)
  · rintro ⟨⟩
    exact ⟨rfl, (forall₂_iff_eq_map Namespace.fills_iff).2 rfl⟩

end

/-! ## Once is enough -/

section

variable (n m : String)

theorem Property.withDefaults_withDefaults (p : Property) :
    (p.withDefaults n).withDefaults m = p.withDefaults n := rfl

theorem Record.withDefaults_withDefaults (r : Record) :
    (r.withDefaults n).withDefaults m = r.withDefaults n := by
  simp only [withDefaults, List.map_map, Function.comp_def, Property.withDefaults_withDefaults]

theorem Declaration.withDefaults_withDefaults (d : Declaration) :
    (d.withDefaults n).withDefaults m = d.withDefaults n := by
  cases d with
  | record kind body => rw [withDefaults, withDefaults, Record.withDefaults_withDefaults]
  | enumeration body => rfl
  | service body =>
    simp only [withDefaults, List.map_map, Function.comp_def, Record.withDefaults_withDefaults]

theorem Namespace.withDefaults_withDefaults (k : Namespace) :
    (k.withDefaults n).withDefaults m = k.withDefaults n := by
  simp only [withDefaults, List.map_map, Function.comp_def, Declaration.withDefaults_withDefaults]

theorem Document.withDefaults_withDefaults (d : Document) :
    (d.withDefaults n).withDefaults m = d.withDefaults n := by
  simp only [withDefaults, List.map_map, Function.comp_def, Namespace.withDefaults_withDefaults]

end

/-! ## Generation -/

namespace Model

variable (base : Conventions) (settings : Settings) (d : Document)

theorem knownTypes_of_withDefaults (filler : String) :
    (Model.of base settings (d.withDefaults filler)).knownTypes
      = (Model.of base settings d).knownTypes := by
  show KnownTypes.ofList (d.withDefaults filler).knownTypes _ = _
  rw [Document.knownTypes_withDefaults]
  rfl

theorem emptyGroups_withDefaults (filler : String) :
    (Model.of base settings (d.withDefaults filler)).emptyGroups
      = (Model.of base settings d).emptyGroups := by
  show ((d.namespaces.map (Namespace.withDefaults filler)).map _).foldl _ _ = _
  rw [List.map_map]
  rfl

/-- **Generation does not see whether the document was filled in**: it gives the same output, or the
same error at the same place. -/
theorem generate_withDefaults :
    (Model.of base settings (d.withDefaults settings.defaultPropertyName)).generate
      = (Model.of base settings d).generate := by
  generalize hfilled : Model.of base settings (d.withDefaults settings.defaultPropertyName) = filled
  have hplaced : filled.placedTypes = (Model.of base settings d).placedTypes := by
    subst hfilled
    funext scope declaration
    rw [placedTypes, placedTypes, declarationTypes_congr
      (m := Model.of base settings (d.withDefaults settings.defaultPropertyName))
      (n := Model.of base settings d) rfl
      (knownTypes_of_withDefaults base settings d _) fun _ => rfl]
  -- the types of the filled in document, declaration by declaration of the written one
  have htypes := Compiler.types_model ⟨settings, base, none⟩ d
  rw [show Compiler.model ⟨settings, base, none⟩ d = filled from hfilled, hplaced] at htypes
  rw [generate, generate, htypes, ← hfilled, emptyGroups_withDefaults]
  rfl

end Model

/-- **Both places that fill in open parts fill in the same, and once is enough.**  Generating from a
document gives the same output or the same error, with the same place, whether its open parts were
filled in before or not.  Filling in changes nothing but open names and types, and whatever name it
is given, a second time it changes nothing at all. -/
theorem Document.withDefaults_agrees (d : Document) :
    (∀ (base : Conventions) (settings : Settings),
      (Model.of base settings (d.withDefaults settings.defaultPropertyName)).generate
        = (Model.of base settings d).generate) ∧
    (∀ n m : String, (d.withDefaults n).withDefaults m = d.withDefaults n) ∧
    ∀ n : String, d.Fills n (d.withDefaults n) :=
  ⟨fun base settings => Model.generate_withDefaults base settings d,
    fun n m => d.withDefaults_withDefaults n m, fun _ => (d.fills_iff _).2 rfl⟩

end DomainForms
