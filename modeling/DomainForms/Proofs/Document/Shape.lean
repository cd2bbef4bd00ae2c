import DomainForms.Proofs.Diagnosis
import DomainForms.Proofs.Document.Names

/-!
# The shape of a document

A document can be built in ways that no source spells: with arrays of arrays, properties without a
type, services without commands, names that are reserved or empty.  None of these is left after
reading, and so a compilation that starts from a source never meets an array that it cannot compare.

* `Document.WellShaped`: what all documents of sources have in common.
* `Document.wellShaped_of_form`: every phrase of the grammar stands for such a document.
* `Declaration.WellShaped.duplicateMember_of_flaw`: such a declaration has flaws of one kind only.
* `Document.parse_wellShaped`: what reading gives, and which errors are left for a compilation.
-/

namespace DomainForms

open Grammar Outcome
open Text (IsPath)

/-! ## Shapes -/

/-- A name as a source declares it: no reserved word, and without empty segments. -/
structure IsName (name : String) : Prop where
  unreserved : isReserved name = false
  isPath : IsPath name

/-- A name as a source gives it to a member: without dots, and not empty. -/
structure IsMemberName (name : String) : Prop where
  undotted : Text.isDotted name = false
  isPath : IsPath name

/-- A path as a source writes it: it has segments, none of them is empty or dotted, and its full name
is no reserved word. -/
structure QualifiedName.WellShaped (name : QualifiedName) : Prop where
  unreserved : isReserved name.fullName = false
  segments_ne_nil : name.segments ≠ []
  proper : name.Proper

/-- Every array in a type has one pair of brackets with one dimension, and items that are no
arrays. -/
def TypeRef.WellShaped : TypeRef → Prop
  | array element ranks => ranks = [.single] ∧ element.isArray = false ∧ element.WellShaped
  | named name => name.WellShaped
  | _ => True

/-- A property without a type has no name either. -/
structure Property.WellShaped (p : Property) : Prop where
  name : ∀ name, p.name = some name → IsMemberName name
  type : ∀ type, p.type = some type → type.WellShaped
  name_eq_none : p.type = none → p.name = none

/-- Only the single property of a value type has no name. -/
structure Record.WellShaped (kind : RecordKind) (r : Record) : Prop where
  name : IsName r.name
  properties : ∀ p ∈ r.properties, p.WellShaped
  single : ∀ p ∈ r.properties, p.name = none → kind = .valueType ∧ r.properties = [p]

structure Enumeration.WellShaped (e : Enumeration) : Prop where
  name : IsName e.name
  values : ∀ value ∈ e.values, IsMemberName value

/-- A service has a command. -/
structure Service.WellShaped (s : Service) : Prop where
  name : IsName s.name
  commands : ∀ r ∈ s.commands, r.WellShaped .command
  commands_ne_nil : s.commands ≠ []

def Declaration.WellShaped : Declaration → Prop
  | record kind body => body.WellShaped kind
  | enumeration body => body.WellShaped
  | service body => body.WellShaped

structure Namespace.WellShaped (n : Namespace) : Prop where
  name : n.name.WellShaped
  declarations : ∀ d ∈ n.declarations, d.WellShaped

def Conventions.WellShaped (c : Conventions) : Prop :=
  ∀ base ∈ c.domainEventBases ++ c.commandBases, base.WellShaped

/-- **What all documents of sources have in common.** -/
structure Document.WellShaped (d : Document) : Prop where
  conventions : ∀ c, d.conventions = some c → c.WellShaped
  namespaces : ∀ n ∈ d.namespaces, n.WellShaped

/-! ## Phrases -/

theorem forall_of_repeated {α : Type} {rule : Rule α} {kinds : List Token.Kind} {items : List α}
    (hrow : Repeated rule kinds items) (hl : AllLexical kinds) {P : α → Prop}
    (h : ∀ {ks a}, rule ks a → AllLexical ks → P a) : ∀ a ∈ items, P a := by
  intro a ha
  obtain ⟨ks, hks, hsub⟩ := exists_of_mem_repeated hrow ha
  exact h hks fun kind hk => hl kind (hsub kind hk)

theorem isName_of_nameForm {kinds : List Token.Kind} {name : String} (h : NameForm kinds name)
    (hl : AllLexical kinds) : IsName name := by
  have hpath := isPath_of_nameForm h hl
  obtain ⟨hreserved⟩ := h
  exact ⟨hreserved, hpath⟩

theorem isMemberName_of_simpleForm {kinds : List Token.Kind} {name : String}
    (h : SimpleForm kinds name) (hl : AllLexical kinds) : IsMemberName name := by
  obtain ⟨hdot⟩ := h
  exact ⟨hdot, isPath_of_isLexical (hl _ (.head _))⟩

theorem IsName.wellShaped_parse {name : String} (h : IsName name) :
    (QualifiedName.parse name).WellShaped := by
  refine ⟨?_, QualifiedName.segments_parse_ne_nil h.isPath, QualifiedName.parse_proper name⟩
  rw [QualifiedName.fullName_parse h.isPath]
  exact h.unreserved

theorem TypeRef.wellShaped_of_form {symbol : TypeSymbol} {kinds : List Token.Kind} {t : TypeRef}
    (h : TypeForm symbol kinds t) (hl : AllLexical kinds) : t.WellShaped := by
  induction h with
  | primitive _ => trivial
  | nullable _ => trivial
  | string _ => trivial
  | named hreserved _ _ =>
    exact IsName.wellShaped_parse ⟨hreserved, isPath_of_isLexical (hl _ (.head _))⟩
  | parens _ ih => exact ih hl.left.tail
  | plain _ ih => exact ih hl
  | array _ hbase ih => exact ⟨rfl, hbase, ih hl.left⟩

/-- A property with all its parts. -/
structure Property.Full (p : Property) : Prop extends p.WellShaped where
  name_ne_none : p.name ≠ none

theorem Property.full_of_form {kinds : List Token.Kind} {p : Property} (h : PropertyForm kinds p)
    (hl : AllLexical kinds) : p.Full := by
  obtain ⟨htype, hname⟩ := h
  refine ⟨⟨?_, ?_, nofun⟩, nofun⟩
  · rintro _ ⟨rfl⟩
    exact isMemberName_of_simpleForm hname hl.right
  · rintro _ ⟨rfl⟩
    exact TypeRef.wellShaped_of_form htype hl.left

theorem Property.full_of_nextForm {kinds : List Token.Kind} {p : Property}
    (h : NextPropertyForm kinds p) (hl : AllLexical kinds) : p.Full := by
  obtain ⟨h⟩ := h
  exact full_of_form h hl.tail

theorem Property.full_of_listForm {kinds : List Token.Kind} {properties : List Property}
    (h : ListForm kinds properties) (hl : AllLexical kinds) : ∀ p ∈ properties, p.Full := by
  cases h with
  | empty => nofun
  | cons hfirst hrest =>
    intro p hp
    rcases List.mem_cons.1 hp with rfl | hp
    · exact full_of_form hfirst hl.tail.left
    · exact forall_of_repeated hrest hl.tail.right.left full_of_nextForm p hp

namespace Record

theorem wellShaped_of_full {kind : RecordKind} {r : Record} (hname : IsName r.name)
    (hfull : ∀ p ∈ r.properties, p.Full) : r.WellShaped kind :=
  ⟨hname, fun p hp => (hfull p hp).toWellShaped,
    fun p hp hnone => absurd hnone (hfull p hp).name_ne_none⟩

theorem wellShaped_of_rest {kind : RecordKind} {kinds : List Token.Kind} {r : Record}
    (h : RecordRest kinds r) (hl : AllLexical kinds) : r.WellShaped kind := by
  cases h with
  | bare hname => exact wellShaped_of_full (isName_of_nameForm hname hl.left) nofun
  | listed hname hlist =>
    exact wellShaped_of_full (isName_of_nameForm hname hl.left)
      (Property.full_of_listForm hlist hl.right.left)

theorem wellShaped_of_commandForm {kinds : List Token.Kind} {r : Record} (h : CommandForm kinds r)
    (hl : AllLexical kinds) : r.WellShaped .command := by
  obtain ⟨hrest⟩ := h
  exact wellShaped_of_rest hrest hl.tail.tail

/-- The shorthand of a value type leaves the name of its property open. -/
theorem wellShaped_of_shorthand {name : String} {type : Option TypeRef} (hname : IsName name)
    (htype : ∀ t, type = some t → t.WellShaped) :
    Record.WellShaped .valueType ⟨name, [⟨none, type, .none⟩], .none⟩ := by
  refine ⟨hname, ?_, ?_⟩
  · intro p hp
    obtain rfl := List.mem_singleton.1 hp
    exact ⟨nofun, htype, fun _ => rfl⟩
  · intro p hp _
    obtain rfl := List.mem_singleton.1 hp
    exact ⟨rfl, rfl⟩

theorem wellShaped_of_valueRest {kinds : List Token.Kind} {r : Record} (h : ValueRest kinds r)
    (hl : AllLexical kinds) : r.WellShaped .valueType := by
  cases h with
  | bare hname => exact wellShaped_of_shorthand (isName_of_nameForm hname hl.left) nofun
  | typed hname htype =>
    refine wellShaped_of_shorthand (isName_of_nameForm hname hl.left) ?_
    rintro _ ⟨rfl⟩
    exact TypeRef.wellShaped_of_form htype hl.right.left
  | listed hname hlist =>
    exact wellShaped_of_full (isName_of_nameForm hname hl.left)
      (Property.full_of_listForm hlist hl.right.left)

end Record

theorem Declaration.wellShaped_of_form {kinds : List Token.Kind} {d : Declaration}
    (h : DeclarationForm kinds d) (hl : AllLexical kinds) : d.WellShaped := by
  cases h with
  | valueType hbody => exact Record.wellShaped_of_valueRest hbody hl.tail.tail
  | command hbody => exact Record.wellShaped_of_rest hbody hl.tail.tail
  | domainEvent hbody => exact Record.wellShaped_of_rest hbody hl.tail.tail
  | dto hbody => exact Record.wellShaped_of_rest hbody hl.tail.tail
  | enumeration hbody =>
    obtain ⟨hname, hvalues⟩ := hbody
    have hrest := hl.tail.tail
    exact ⟨isName_of_nameForm hname hrest.left,
      forall_of_repeated hvalues hrest.right.tail.left isMemberName_of_simpleForm⟩
  | service hbody =>
    obtain ⟨hname, hcommands, hne⟩ := hbody
    have hrest := hl.tail.tail
    exact ⟨isName_of_nameForm hname hrest.left,
      forall_of_repeated hcommands hrest.right.left Record.wellShaped_of_commandForm, hne⟩

theorem Namespace.wellShaped_of_form {kinds : List Token.Kind} {n : Namespace}
    (h : NamespaceForm kinds n) (hl : AllLexical kinds) : n.WellShaped := by
  obtain ⟨hname, hdeclarations⟩ := h
  have hrest := hl.tail.tail
  exact ⟨(isName_of_nameForm hname hrest.left).wellShaped_parse,
    forall_of_repeated hdeclarations hrest.right.left Declaration.wellShaped_of_form⟩

theorem wellShaped_of_groupForm {kinds : List Token.Kind} {group : String × List QualifiedName}
    (h : GroupForm kinds group) (hl : AllLexical kinds) : ∀ base ∈ group.2, base.WellShaped := by
  obtain ⟨-, ⟨hnames⟩⟩ := h
  intro base hbase
  obtain ⟨name, hname, rfl⟩ := List.mem_map.1 hbase
  exact (forall_of_repeated hnames hl.tail.tail.tail.tail.left isName_of_nameForm name
    hname).wellShaped_parse

theorem Conventions.wellShaped_of_form {kinds : List Token.Kind} {c : Conventions}
    (h : ConventionsForm kinds c) (hl : AllLexical kinds) : c.WellShaped := by
  obtain @⟨_, groups, hgroups, -⟩ := h
  have hall := forall_of_repeated hgroups hl.tail.tail.left wellShaped_of_groupForm
  have hword : ∀ word, ∀ base ∈ (groups.lookup word).getD [], base.WellShaped := by
    intro word base hbase
    cases hlookup : groups.lookup word with
    | none => rw [hlookup] at hbase; cases hbase
    | some bases =>
      rw [hlookup] at hbase
      obtain ⟨before, behind, rfl, -⟩ := List.lookup_eq_some_iff.1 hlookup
      exact hall (word, bases) (List.mem_append_right _ List.mem_cons_self) base hbase
  intro base hbase
  rcases List.mem_append.1 hbase with hbase | hbase
  · exact hword _ base hbase
  · exact hword _ base hbase

theorem Document.wellShaped_of_form {kinds : List Token.Kind} {d : Document}
    (h : DocumentForm kinds d) (hl : AllLexical kinds) : d.WellShaped := by
  cases h with
  | bare hnamespaces =>
    exact ⟨nofun, forall_of_repeated hnamespaces hl Namespace.wellShaped_of_form⟩
  | conventional hconventions hnamespaces =>
    refine ⟨?_, forall_of_repeated hnamespaces hl.right Namespace.wellShaped_of_form⟩
    rintro _ ⟨rfl⟩
    exact Conventions.wellShaped_of_form hconventions hl.left

/-! ## Places -/

theorem Property.WellShaped.of_unplaced {p : Property} (h : p.unplaced.WellShaped) : p.WellShaped :=
  ⟨h.name, h.type, h.name_eq_none⟩

theorem Record.WellShaped.of_unplaced {kind : RecordKind} {r : Record}
    (h : r.unplaced.WellShaped kind) : r.WellShaped kind := by
  refine ⟨h.name, ?_, ?_⟩
  · intro p hp
    exact .of_unplaced (h.properties _ (List.mem_map_of_mem hp))
  · intro p hp hnone
    obtain ⟨hkind, hsingle⟩ := h.single p.unplaced (List.mem_map_of_mem hp) hnone
    obtain ⟨q, hq, -⟩ := List.map_eq_singleton_iff.1 hsingle
    rw [hq] at hp ⊢
    exact ⟨hkind, by rw [List.mem_singleton.1 hp]⟩

theorem Declaration.WellShaped.of_unplaced {d : Declaration} (h : d.unplaced.WellShaped) :
    d.WellShaped := by
  cases d with
  | record kind body => exact Record.WellShaped.of_unplaced h
  | enumeration body => exact ⟨h.name, h.values⟩
  | service body =>
    refine ⟨h.name, ?_, ?_⟩
    · intro r hr
      exact .of_unplaced (h.commands _ (List.mem_map_of_mem hr))
    · exact fun hnil => h.commands_ne_nil (List.map_eq_nil_iff.2 hnil)

theorem Document.WellShaped.of_unplaced {d : Document} (h : d.unplaced.WellShaped) :
    d.WellShaped := by
  refine ⟨?_, ?_⟩
  · intro c hc
    exact h.conventions c.unplaced (by rw [unplaced, hc]; rfl)
  · intro n hn
    have hshape := h.namespaces n.unplaced (List.mem_map_of_mem hn)
    refine ⟨hshape.name, fun d hd => ?_⟩
    exact .of_unplaced (hshape.declarations _ (List.mem_map_of_mem hd))

/-- **The document of a source is well shaped.** -/
theorem Document.wellShaped_of_parse {source : String} {d : Document} (h : parse source = .ok d) :
    d.WellShaped :=
  .of_unplaced (wellShaped_of_form (documentForm_of_parse h) fun _ => Token.isLexical_of_mem_sentence)

/-! ## Errors -/

theorem Property.WellShaped.not_unsupported {p : Property} (h : p.WellShaped) : ¬ p.Unsupported := by
  rintro ⟨type, htype, hunsupported⟩
  have hshape := h.type type htype
  cases type with
  | array element ranks =>
    obtain ⟨hranks, helement, -⟩ := hshape
    rcases hunsupported with hne | harray
    · exact hne hranks
    · rw [helement] at harray
      cases harray
  | _ => exact hunsupported

section

variable {settings : Settings} {d : Document} {scope : QualifiedName} {cause : Error.Cause}

theorem Record.WellShaped.duplicateMember_of_flaw {kind : RecordKind} {r : Record}
    (h : r.WellShaped kind) (hflaw : r.Flaw settings d scope cause) :
    ∃ owner member, cause = .duplicateMember owner member := by
  cases hflaw with
  | repeated _ => exact ⟨_, _, rfl⟩
  | shape _ hp _ => exact absurd hp.holds (h.properties _ hp.mem).not_unsupported

/-- **A declaration of a source has flaws of one kind only**: a member that it has twice. -/
theorem Declaration.WellShaped.duplicateMember_of_flaw {declaration : Declaration}
    (h : declaration.WellShaped) (hflaw : declaration.Flaw settings d scope cause) :
    ∃ owner member, cause = .duplicateMember owner member := by
  cases hflaw with
  | record hflaw => exact Record.WellShaped.duplicateMember_of_flaw h hflaw
  | enumeration _ => exact ⟨_, _, rfl⟩
  | service hr hflaw => exact (h.commands _ hr.mem).duplicateMember_of_flaw hflaw

end

theorem Document.WellShaped.declaration {d : Document} (h : d.WellShaped) {scope : Namespace}
    {declaration : Declaration} (hd : (scope, declaration) ∈ d.declarations) :
    declaration.WellShaped := by
  obtain ⟨n, hn, hmem⟩ := List.mem_flatMap.1 hd
  obtain ⟨_, hdeclaration, ⟨rfl, rfl⟩⟩ := List.mem_map.1 hmem
  exact (h.namespaces _ hn).declarations _ hdeclaration

/-- The errors that a compilation of a source can end with. -/
inductive Error.Cause.OfSource (settings : Settings) : Error.Cause → Prop
  | parse {production message : String} {offset line column : Nat} {lineText : String} :
      OfSource settings (.parse production message offset line column lineText)
  | duplicateType {name : String} : settings.allowDuplicateTypes = false →
      OfSource settings (.duplicateType name)
  | unresolvedType {name scope : String} : settings.strictTypeResolution = true →
      OfSource settings (.unresolvedType name scope)
  | duplicateMember {owner member : String} : OfSource settings (.duplicateMember owner member)

theorem Grammar.ofSource_of_run {α : Type} {p : Parser α} {source : String} {e : Error}
    (h : p.run source = .error e) (settings : Settings) : e.cause.OfSource settings := by
  rw [Parser.run] at h
  cases hp : p (Token.significant source) with
  | ok r => rw [hp] at h; cases h
  | error fault =>
    rw [hp] at h
    cases h
    exact .parse

namespace Compiler

variable {c : Compiler}

theorem ofSource_of_refuses {d : Document} (hd : d.WellShaped) {e : Error} (h : c.Refuses d e) :
    e.cause.OfSource c.settings := by
  cases h with
  | duplicateType hdup _ => exact .duplicateType hdup
  | unresolvedType _ hstrict _ _ => exact .unresolvedType hstrict
  | flaw _ _ hfirst hflaw =>
    obtain ⟨owner, member, rfl⟩ := (hd.declaration hfirst.mem).duplicateMember_of_flaw hflaw
    exact .duplicateMember

theorem cause_locate (e : Error) : (c.locate e).cause = e.cause := by
  rw [locate]
  cases c.sourceName <;> rfl

theorem ofSource_of_compile {source : String} {e : Error} (h : c.compile source = .error e) :
    e.cause.OfSource c.settings := by
  unfold compile at h
  cases hrun : Document.parse source >>= c.compileDocument with
  | ok o => rw [hrun] at h; cases h
  | error inner =>
    rw [hrun] at h
    cases h
    rw [cause_locate]
    rcases bind_eq_error.1 hrun with hparse | ⟨d, hparse, hcompile⟩
    · exact ofSource_of_run hparse c.settings
    · exact ofSource_of_refuses (Document.wellShaped_of_parse hparse)
        (compileDocument_eq_error.1 hcompile)

end Compiler

/-- **Reading gives well shaped documents only**, so that a compilation of a source never ends with
an array that cannot be compared or with a body that cannot be run; it ends with an unknown name only
under strict settings, and with a repeated full name only where these are refused. -/
theorem Document.parse_wellShaped (source : String) :
    (∀ d, Document.parse source = .ok d → d.WellShaped) ∧
      ∀ (c : Compiler) (e : Error), c.compile source = .error e →
        (∀ owner property shape, e.cause ≠ .unsupportedArrayShape owner property shape) ∧
        (∀ text, e.cause ≠ .evaluation text) ∧
        (∀ name scope, e.cause = .unresolvedType name scope →
          c.settings.strictTypeResolution = true) ∧
        ∀ name, e.cause = .duplicateType name → c.settings.allowDuplicateTypes = false := by
  refine ⟨fun d => wellShaped_of_parse, fun c e h => ?_⟩
  have hcause := Compiler.ofSource_of_compile h
  generalize e.cause = cause at hcause
  cases hcause with
  | parse => exact ⟨nofun, nofun, nofun, nofun⟩
  | duplicateType hdup => exact ⟨nofun, nofun, nofun, fun _ _ => hdup⟩
  | unresolvedType hstrict => exact ⟨nofun, nofun, fun _ _ _ => hstrict, nofun⟩
  | duplicateMember => exact ⟨nofun, nofun, nofun, nofun⟩

/-! ### A desk -/

namespace Desk

/-- A source with a shorthand, a service, an array and a type that nothing declares. -/
def source : String :=
  "(namespace A.Desk(defvaluetype Key)(defapplicationservice S(defcommand Ship(Key[] k,Crate c))))"

/-- The compiler that refuses unknown names. -/
def strictCompiler : Compiler := { Compiler.standard with settings := .strict }

/-- The source of the desk is read as a well shaped document, and refused for the unknown name. -/
theorem crate_refused :
    (∃ d, Document.parse source = .ok d ∧ d.WellShaped) ∧
      ∃ e, strictCompiler.compile source = .error e ∧
        e.cause = .unresolvedType "Crate" "A.Desk" ∧
        strictCompiler.settings.strictTypeResolution = true := by
  have hread : (Document.parse source).toOption.isSome = true := by decide +kernel
  have hrefused : error? (strictCompiler.compile source) = some
      ⟨.unresolvedType "Crate" "A.Desk",
        some ⟨none, some 1, some 85, ["defapplicationservice A.Desk.S"]⟩⟩ := by
    decide +kernel
  have hparse := eq_ok_get hread
  have hcompile := error?_eq_some.1 hrefused
  obtain ⟨hshape, herror⟩ := Document.parse_wellShaped source
  exact ⟨⟨_, hparse, hshape _ hparse⟩, _, hcompile, rfl,
    (herror strictCompiler _ hcompile).2.2.1 _ _ rfl⟩

end Desk

end DomainForms
