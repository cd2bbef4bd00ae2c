import DomainForms.Proofs.Document.Defaults
import DomainForms.Proofs.Document.Printer

/-!
# Printing a document that was built

A document need not come from a source: it may leave names and types open in any record.  The
printer leaves open what its shorthand form can leave open, the one property of a value type without
a name, and writes the default for everything else.  So the printed text spells another document,
`Document.inPrint`, which becomes the same one when all open parts are filled in.

What a document needs to be printed and read back is that its words are words for the lexer and that
its types and services have forms in the grammar: `Document.Spellable`.

* `Grammar.HasPhrase`: some row of words spells a tree.
* `Document.Spellable.hasPhrase`: what is printed of a spellable document has a phrase.
* `Document.print_inPrint`: the printed text is that of the document that it spells.
* `Document.parse_print_withDefaults`: **printing keeps what a document means.**
-/

namespace DomainForms

open Grammar

/-! ## Words -/

namespace Token

/-- A word that is read as one identifier, which may be dotted. -/
def IsIdentifier (word : String) : Prop := sentence word = [.ident word]

instance (word : String) : Decidable (IsIdentifier word) :=
  inferInstanceAs (Decidable (_ = _))

/-- An identifier without dots. -/
structure IsSimple (word : String) : Prop where
  isIdentifier : IsIdentifier word
  undotted : Text.isDotted word = false

/-- An identifier that is no reserved word. -/
structure IsDeclarable (word : String) : Prop where
  isIdentifier : IsIdentifier word
  unreserved : isReserved word = false

theorem IsIdentifier.isLexical {word : String} (h : IsIdentifier word) :
    (Kind.ident word).isLexical = true := by
  have hmem : Kind.ident word ∈ sentence word := by
    rw [h]
    exact .head _
  exact isLexical_of_mem_sentence hmem

end Token

open Token (IsSimple IsDeclarable)

/-! ## Documents that can be spelled -/

/-- A path of simple identifiers whose dotted text is no reserved word. -/
structure QualifiedName.Spellable (name : QualifiedName) : Prop where
  segments_ne_nil : name.segments ≠ []
  isSimple : ∀ segment ∈ name.segments, IsSimple segment
  unreserved : isReserved name.fullName = false

/-- An array has one pair of brackets with one dimension and items that are no arrays; a name is
spellable and spells no other type. -/
def TypeRef.Spellable : TypeRef → Prop
  | array element ranks => ranks = [.single] ∧ element.isArray = false ∧ element.Spellable
  | named name => name.Spellable ∧ Primitive.ofName? name.fullName = none ∧
      isStringName name.fullName = false
  | _ => True

/-- What a property has of a name and a type is spellable. -/
structure Property.Spellable (p : Property) : Prop where
  name : ∀ name, p.name = some name → IsSimple name
  type : ∀ type, p.type = some type → type.Spellable

structure Record.Spellable (r : Record) : Prop where
  name : IsDeclarable r.name
  properties : ∀ p ∈ r.properties, p.Spellable

structure Enumeration.Spellable (e : Enumeration) : Prop where
  name : IsDeclarable e.name
  values : ∀ value ∈ e.values, IsSimple value

/-- A service has a command. -/
structure Service.Spellable (s : Service) : Prop where
  name : IsDeclarable s.name
  commands : ∀ r ∈ s.commands, r.Spellable
  commands_ne_nil : s.commands ≠ []

def Declaration.Spellable : Declaration → Prop
  | record _ body => body.Spellable
  | enumeration body => body.Spellable
  | service body => body.Spellable

structure Namespace.Spellable (n : Namespace) : Prop where
  name : n.name.Spellable
  declarations : ∀ d ∈ n.declarations, d.Spellable

/-- The base types in the groups of conventions are spellable. -/
structure Conventions.Spellable (c : Conventions) : Prop where
  domainEvents : ∀ bases, c.domainEvents = some bases → ∀ base ∈ bases, base.Spellable
  commands : ∀ bases, c.commands = some bases → ∀ base ∈ bases, base.Spellable

/-- **A document that can be printed and read back**: properties may leave names and types open. -/
structure Document.Spellable (d : Document) : Prop where
  conventions : ∀ c, d.conventions = some c → c.Spellable
  namespaces : ∀ n ∈ d.namespaces, n.Spellable

/-! ## Phrases -/

theorem AllLexical.nil : AllLexical [] := nofun

theorem AllLexical.cons {kind : Token.Kind} {kinds : List Token.Kind} (h : kind.isLexical = true)
    (hl : AllLexical kinds) : AllLexical (kind :: kinds) :=
  List.forall_mem_cons.2 ⟨h, hl⟩

theorem AllLexical.append {kinds more : List Token.Kind} (h : AllLexical kinds)
    (hm : AllLexical more) : AllLexical (kinds ++ more) :=
  List.forall_mem_append.2 ⟨h, hm⟩

/-- Some row of words spells the tree. -/
def Grammar.HasPhrase {α : Type} (rule : Rule α) (a : α) : Prop :=
  ∃ kinds, rule kinds a ∧ AllLexical kinds

theorem Grammar.HasPhrase.repeated {α : Type} {rule : Rule α} : ∀ {items : List α},
    (∀ a ∈ items, HasPhrase rule a) → HasPhrase (Repeated rule) items := by
  intro items
  induction items with
  | nil => intro _; exact ⟨[], .nil, .nil⟩
  | cons a items ih =>
    intro h
    obtain ⟨⟨kinds, hform, hl⟩, hrest⟩ := List.forall_mem_cons.1 h
    obtain ⟨more, hforms, hm⟩ := ih hrest
    exact ⟨kinds ++ more, .cons hform hforms, hl.append hm⟩

theorem Token.IsDeclarable.hasPhrase {word : String} (h : IsDeclarable word) :
    HasPhrase NameForm word :=
  ⟨_, .mk h.unreserved, .cons h.isIdentifier.isLexical .nil⟩

theorem Token.IsSimple.hasPhrase {word : String} (h : IsSimple word) : HasPhrase SimpleForm word :=
  ⟨_, .mk h.undotted, .cons h.isIdentifier.isLexical .nil⟩

/-! ## Paths -/

namespace QualifiedName

theorem eq_dot_or_mem_of_mem_join {c : Char} : ∀ {pieces : List String},
    c ∈ (Text.join pieces).toList → c = '.' ∨ ∃ piece ∈ pieces, c ∈ piece.toList := by
  intro pieces
  induction pieces with
  | nil => intro h; cases h
  | cons first rest ih =>
    intro h
    cases rest with
    | nil => exact .inr ⟨first, .head _, h⟩
    | cons second rest =>
      rw [Text.join_cons_cons, String.toList_append, String.toList_append, List.append_assoc] at h
      rcases List.mem_append.1 h with h | h
      · exact .inr ⟨first, .head _, h⟩
      rcases List.mem_append.1 h with h | h
      · exact .inl (List.mem_singleton.1 h)
      · rcases ih h with hdot | ⟨piece, hpiece, hc⟩
        · exact .inl hdot
        · exact .inr ⟨piece, .tail _ hpiece, hc⟩

namespace Spellable

variable {name : QualifiedName}

theorem proper (h : name.Spellable) : name.Proper := by
  intro segment hm
  have hsimple := h.isSimple segment hm
  refine ⟨?_, by simpa [Text.isDotted] using hsimple.undotted⟩
  rintro rfl
  exact absurd hsimple.isIdentifier (by decide +kernel)

theorem isLexical_fullName (h : name.Spellable) :
    (Token.Kind.ident name.fullName).isLexical = true := by
  have hsegments : Text.segments name.fullName.toList = name.segments.map String.toList :=
    Text.segments_join name.segments h.segments_ne_nil fun piece hp => (h.proper piece hp).2
  have hpiece : ∀ piece ∈ name.segments,
      piece.toList.all Token.isNameChar = true ∧ Token.isSegment piece.toList = true := by
    intro piece hp
    have hlexical := (h.isSimple piece hp).isIdentifier.isLexical
    rw [Token.isLexical_ident, Text.segments_of_not_mem _ (h.proper piece hp).2] at hlexical
    simpa using hlexical
  rw [Token.isLexical_ident, hsegments, Bool.and_eq_true]
  refine ⟨List.all_eq_true.2 fun c hc => ?_, ?_⟩
  · rcases eq_dot_or_mem_of_mem_join hc with rfl | ⟨piece, hp, hm⟩
    · decide
    · exact List.all_eq_true.1 (hpiece piece hp).1 c hm
  · rw [List.all_map]
    exact List.all_eq_true.2 fun piece hp => (hpiece piece hp).2

theorem hasPhrase (h : name.Spellable) : HasPhrase NameForm name.fullName :=
  ⟨_, .mk h.unreserved, .cons h.isLexical_fullName .nil⟩

end Spellable

end QualifiedName

/-! ## Types and properties -/

/-- A spellable type has a phrase, and one without brackets if it is no array. -/
theorem TypeRef.Spellable.hasPhrase : ∀ {t : TypeRef}, t.Spellable →
    HasPhrase (TypeForm .type) t ∧ (t.isArray = false → HasPhrase (TypeForm .base) t) := by
  have of_base : ∀ {t : TypeRef}, HasPhrase (TypeForm .base) t →
      HasPhrase (TypeForm .type) t ∧ (t.isArray = false → HasPhrase (TypeForm .base) t) := by
    rintro t ⟨kinds, hform, hl⟩
    exact ⟨⟨kinds, .plain hform, hl⟩, fun _ => ⟨kinds, hform, hl⟩⟩
  intro t
  induction t with
  | simple p =>
    intro _
    exact of_base ⟨_, .primitive (ofName?_canonicalName p), .cons (isLexical_canonicalName p) .nil⟩
  | string => intro _; exact of_base ⟨[.ident "string"], .string rfl, .cons (by decide) .nil⟩
  | nullable p =>
    intro _
    exact of_base ⟨_, .nullable (ofName?_canonicalName p),
      .cons (isLexical_canonicalName p) (.cons rfl .nil)⟩
  | named name =>
    rintro ⟨hname, hprimitive, hstring⟩
    have hform := TypeForm.named hname.unreserved hprimitive hstring
    rw [ofName, QualifiedName.parse_fullName hname.proper] at hform
    exact of_base ⟨_, hform, .cons hname.isLexical_fullName .nil⟩
  | array element ranks ih =>
    rintro ⟨rfl, harray, helement⟩
    obtain ⟨kinds, hform, hl⟩ := (ih helement).2 harray
    refine ⟨⟨_, .array hform harray, hl.append (.cons rfl (.cons rfl .nil))⟩, ?_⟩
    intro hplain
    cases hplain

section

variable {filler : String} (hfiller : IsSimple filler)

include hfiller

theorem Property.Spellable.hasPhrase {p : Property} (h : p.Spellable) :
    HasPhrase PropertyForm (p.withDefaults filler).unplaced := by
  have htype : (p.type.getD .default).Spellable := by
    cases hp : p.type with
    | none => trivial
    | some type => exact h.type type hp
  have hname : IsSimple (p.name.getD filler) := by
    cases hp : p.name with
    | none => exact hfiller
    | some name => exact h.name name hp
  obtain ⟨kinds, htypeForm, hl⟩ := htype.hasPhrase.1
  obtain ⟨more, hnameForm, hm⟩ := hname.hasPhrase
  exact ⟨kinds ++ more, .mk htypeForm hnameForm, hl.append hm⟩

theorem Property.hasPhrase_list {properties : List Property}
    (h : ∀ p ∈ properties, p.Spellable) :
    HasPhrase ListForm
      ((properties.map (Property.withDefaults filler)).map Property.unplaced) := by
  cases properties with
  | nil => exact ⟨_, .empty, .cons rfl (.cons rfl .nil)⟩
  | cons first rest =>
    obtain ⟨hfirst, hrest⟩ := List.forall_mem_cons.1 h
    obtain ⟨kinds, hform, hl⟩ := hfirst.hasPhrase hfiller
    have hnext : HasPhrase (Repeated NextPropertyForm)
        ((rest.map (Property.withDefaults filler)).map Property.unplaced) := by
      refine .repeated fun p hp => ?_
      rw [List.map_map] at hp
      obtain ⟨q, hq, rfl⟩ := List.mem_map.1 hp
      obtain ⟨kinds, hform, hl⟩ := (hrest q hq).hasPhrase hfiller
      exact ⟨.comma :: kinds, .mk hform, .cons rfl hl⟩
    obtain ⟨more, hforms, hm⟩ := hnext
    exact ⟨_, .cons hform hforms, .cons rfl (hl.append (hm.append (.cons rfl .nil)))⟩

end

/-! ## What the printed text spells -/

/-- A value type with one property that has no name is printed in its shorthand form. -/
def Record.isShorthand (r : Record) : Bool :=
  match r.properties with
  | [p] => p.name.isNone
  | _ => false

/-- The value type that the printed text of a value type spells: everything is filled in except in
the shorthand form. -/
def Record.inPrint (filler : String) (r : Record) : Record :=
  if r.isShorthand then r else r.withDefaults filler

/-- The declaration that the printed text of a declaration spells. -/
def Declaration.inPrint (filler : String) : Declaration → Declaration
  | .record .valueType body => .record .valueType (body.inPrint filler)
  | d => d.withDefaults filler

def Namespace.inPrint (filler : String) (n : Namespace) : Namespace :=
  { n with declarations := n.declarations.map (Declaration.inPrint filler) }

/-- **The document that the printed text of a document spells.** -/
def Document.inPrint (filler : String) (d : Document) : Document :=
  { d with namespaces := d.namespaces.map (Namespace.inPrint filler) }

theorem Record.withDefaults_inPrint (filler : String) (r : Record) :
    (r.inPrint filler).withDefaults filler = r.withDefaults filler := by
  unfold inPrint
  split
  · rfl
  · exact r.withDefaults_withDefaults filler filler

theorem Declaration.withDefaults_inPrint (filler : String) (d : Declaration) :
    (d.inPrint filler).withDefaults filler = d.withDefaults filler := by
  have hfilled := d.withDefaults_withDefaults filler filler
  cases d with
  | record kind body =>
    cases kind with
    | valueType => exact congrArg (record .valueType) (body.withDefaults_inPrint filler)
    | _ => exact hfilled
  | _ => exact hfilled

theorem Namespace.withDefaults_inPrint (filler : String) (n : Namespace) :
    (n.inPrint filler).withDefaults filler = n.withDefaults filler := by
  simp only [withDefaults, inPrint, List.map_map, Function.comp_def,
    Declaration.withDefaults_inPrint]

/-- Nothing is lost by printing: the printed document leaves open less than the document. -/
theorem Document.withDefaults_inPrint (filler : String) (d : Document) :
    (d.inPrint filler).withDefaults filler = d.withDefaults filler := by
  simp only [withDefaults, inPrint, List.map_map, Function.comp_def,
    Namespace.withDefaults_inPrint]

/-! ## Its layout -/

section

variable (style : PrintStyle)

theorem Property.layoutList_withDefaults (properties : List Property) :
    layoutList style (properties.map (withDefaults style.defaultPropertyName))
      = layoutList style properties := by
  cases properties with
  | nil => rfl
  | cons first rest =>
    rw [List.map_cons, layoutList_cons, layoutList_cons, List.flatMap_map]
    rfl

namespace Declaration

theorem layoutCommand_withDefaults (properties : List Property) :
    layoutCommand style (properties.map (Property.withDefaults style.defaultPropertyName))
      = layoutCommand style properties := by
  unfold layoutCommand
  rw [List.isEmpty_map, Property.layoutList_withDefaults]

theorem layoutValue_of_not_isShorthand {r : Record} (h : r.isShorthand = false) :
    layoutValue style r.properties = Property.layoutList style r.properties := by
  obtain ⟨name, properties, span⟩ := r
  match properties with
  | [] => rfl
  | [⟨some _, _, _⟩] => rfl
  | [⟨none, _, _⟩] => cases h
  | ⟨none, none, _⟩ :: _ :: _ => rfl
  | ⟨none, some _, _⟩ :: _ :: _ => rfl
  | ⟨some _, _, _⟩ :: _ :: _ => rfl

theorem not_isShorthand_withDefaults (filler : String) (r : Record) :
    (r.withDefaults filler).isShorthand = false := by
  obtain ⟨name, properties, span⟩ := r
  match properties with
  | [] => rfl
  | [_] => rfl
  | _ :: _ :: _ => rfl

theorem layoutBody_inPrint (depth : Nat) (d : Declaration) :
    layoutBody style depth (d.inPrint style.defaultPropertyName) = layoutBody style depth d := by
  cases d with
  | record kind body =>
    cases kind with
    | valueType =>
      show layoutValue style (body.inPrint _).properties = layoutValue style _
      unfold Record.inPrint
      split
      · rfl
      · rename_i hlist
        rw [layoutValue_of_not_isShorthand style (Bool.eq_false_iff.2 hlist),
          layoutValue_of_not_isShorthand style (not_isShorthand_withDefaults _ body)]
        exact Property.layoutList_withDefaults style body.properties
    | command => exact layoutCommand_withDefaults style body.properties
    | domainEvent => exact Property.layoutList_withDefaults style body.properties
    | dto => exact Property.layoutList_withDefaults style body.properties
  | enumeration body => rfl
  | service body =>
    show (body.commands.map _).flatMap _ = body.commands.flatMap _
    rw [List.flatMap_map]
    congr 1
    funext r
    show layoutHead _ _ _ ++ layoutCommand style (r.properties.map _) ++ _ = _
    rw [layoutCommand_withDefaults]
    rfl

theorem layout_inPrint (gap : String) (depth : Nat) (d : Declaration) :
    (d.inPrint style.defaultPropertyName).layout style gap depth = d.layout style gap depth := by
  have hvalue : ∀ r : Record, (r.inPrint style.defaultPropertyName).name = r.name := by
    intro r
    unfold Record.inPrint
    split <;> rfl
  have hhead : (d.inPrint style.defaultPropertyName).kind = d.kind ∧
      (d.inPrint style.defaultPropertyName).name = d.name := by
    cases d with
    | record kind body =>
      cases kind with
      | valueType => exact ⟨rfl, hvalue body⟩
      | _ => exact ⟨rfl, rfl⟩
    | _ => exact ⟨rfl, rfl⟩
  unfold layout
  rw [layoutBody_inPrint, hhead.1, hhead.2]

end Declaration

theorem Namespace.layout_inPrint (gap : String) (n : Namespace) :
    (n.inPrint style.defaultPropertyName).layout style gap = n.layout style gap := by
  unfold layout inPrint
  simp only [List.flatMap_map, Declaration.layout_inPrint]

/-- **The printed text is that of the document that it spells.** -/
theorem Document.print_inPrint (d : Document) :
    (d.inPrint style.defaultPropertyName).print style = d.print style := by
  have hlayout : (d.inPrint style.defaultPropertyName).layout style = d.layout style := by
    obtain ⟨_ | conventions, namespaces⟩ := d
    · cases namespaces with
      | nil => rfl
      | cons first rest =>
        simp only [layout, inPrint, List.map_cons, List.flatMap_map, Namespace.layout_inPrint]
    · simp only [layout, inPrint, List.flatMap_map, Namespace.layout_inPrint]
  rw [print, print, hlayout]

end

/-! ## Its phrase -/

section

variable {filler : String} (hfiller : IsSimple filler)

include hfiller

theorem Record.Spellable.hasPhrase {r : Record} (h : r.Spellable) :
    HasPhrase RecordRest (r.withDefaults filler).unplaced := by
  obtain ⟨kinds, hname, hl⟩ := h.name.hasPhrase
  obtain ⟨more, hlist, hm⟩ := Property.hasPhrase_list hfiller h.properties
  exact ⟨_, .listed hname hlist, hl.append (hm.append (.cons rfl .nil))⟩

/-- A value type has a phrase in whichever form it is printed. -/
theorem Record.Spellable.hasPhrase_value {r : Record} (h : r.Spellable) :
    HasPhrase ValueRest (r.inPrint filler).unplaced := by
  obtain ⟨kinds, hname, hl⟩ := h.name.hasPhrase
  unfold inPrint
  split
  · rename_i hshort
    obtain ⟨name, properties, span⟩ := r
    match properties with
    | [] => cases hshort
    | _ :: _ :: _ => cases hshort
    | [⟨some _, _, _⟩] => cases hshort
    | [⟨none, none, _⟩] => exact ⟨_, .bare hname, hl.append (.cons rfl .nil)⟩
    | [⟨none, some type, span'⟩] =>
      have htype : type.Spellable := (h.properties _ (.head _)).type type rfl
      obtain ⟨more, hform, hm⟩ := htype.hasPhrase.1
      exact ⟨_, .typed hname hform, hl.append (hm.append (.cons rfl .nil))⟩
  · obtain ⟨more, hlist, hm⟩ := Property.hasPhrase_list hfiller h.properties
    exact ⟨_, .listed hname hlist, hl.append (hm.append (.cons rfl .nil))⟩

theorem Service.Spellable.hasPhrase {s : Service} (h : s.Spellable) :
    HasPhrase ServiceRest
      ⟨s.name, (s.commands.map (Record.withDefaults filler)).map Record.unplaced, .none⟩ := by
  obtain ⟨kinds, hname, hl⟩ := h.name.hasPhrase
  have hcommands : HasPhrase (Repeated CommandForm)
      ((s.commands.map (Record.withDefaults filler)).map Record.unplaced) := by
    refine .repeated fun r hr => ?_
    rw [List.map_map] at hr
    obtain ⟨command, hc, rfl⟩ := List.mem_map.1 hr
    obtain ⟨kinds, hform, hl⟩ := (h.commands command hc).hasPhrase hfiller
    exact ⟨_, .mk hform, .cons rfl (.cons (by decide) hl)⟩
  obtain ⟨more, hforms, hm⟩ := hcommands
  refine ⟨_, .mk hname hforms ?_, hl.append (hm.append (.cons rfl .nil))⟩
  simpa using h.commands_ne_nil

theorem Declaration.Spellable.hasPhrase {d : Declaration} (h : d.Spellable) :
    HasPhrase DeclarationForm (d.inPrint filler).unplaced := by
  cases d with
  | record kind body =>
    cases kind with
    | valueType =>
      obtain ⟨kinds, hform, hl⟩ := Record.Spellable.hasPhrase_value hfiller h
      exact ⟨_, .valueType hform, .cons rfl (.cons (by decide) hl)⟩
    | command =>
      obtain ⟨kinds, hform, hl⟩ := Record.Spellable.hasPhrase hfiller h
      exact ⟨_, .command hform, .cons rfl (.cons (by decide) hl)⟩
    | domainEvent =>
      obtain ⟨kinds, hform, hl⟩ := Record.Spellable.hasPhrase hfiller h
      exact ⟨_, .domainEvent hform, .cons rfl (.cons (by decide) hl)⟩
    | dto =>
      obtain ⟨kinds, hform, hl⟩ := Record.Spellable.hasPhrase hfiller h
      exact ⟨_, .dto hform, .cons rfl (.cons (by decide) hl)⟩
  | enumeration body =>
    obtain ⟨kinds, hname, hl⟩ := h.name.hasPhrase
    obtain ⟨more, hvalues, hm⟩ := HasPhrase.repeated fun value hv => (h.values value hv).hasPhrase
    exact ⟨_, .enumeration (.mk hname hvalues), .cons rfl (.cons (by decide)
      (hl.append (.cons rfl (hm.append (.cons rfl (.cons rfl .nil))))))⟩
  | service body =>
    obtain ⟨kinds, hform, hl⟩ := Service.Spellable.hasPhrase hfiller h
    exact ⟨_, .service hform, .cons rfl (.cons (by decide) hl)⟩

theorem Namespace.Spellable.hasPhrase {n : Namespace} (h : n.Spellable) :
    HasPhrase NamespaceForm (n.inPrint filler).unplaced := by
  obtain ⟨kinds, hname, hl⟩ := h.name.hasPhrase
  have hdeclarations : HasPhrase (Repeated DeclarationForm)
      ((n.declarations.map (Declaration.inPrint filler)).map Declaration.unplaced) := by
    refine .repeated fun d hd => ?_
    rw [List.map_map] at hd
    obtain ⟨declaration, hdeclaration, rfl⟩ := List.mem_map.1 hd
    exact (h.declarations declaration hdeclaration).hasPhrase hfiller
  obtain ⟨more, hforms, hm⟩ := hdeclarations
  have hform := NamespaceForm.mk hname hforms
  rw [QualifiedName.parse_fullName h.name.proper] at hform
  exact ⟨_, hform, .cons rfl (.cons (by decide) (hl.append (hm.append (.cons rfl .nil))))⟩

end

theorem Conventions.hasPhrase_group {word : String} (hw : word = "domainevents" ∨ word = "commands")
    {bases : List QualifiedName} (h : ∀ base ∈ bases, base.Spellable) :
    HasPhrase GroupForm (word, bases) := by
  have hnames : HasPhrase (Repeated NameForm) (bases.map QualifiedName.fullName) := by
    refine .repeated fun name hname => ?_
    obtain ⟨base, hbase, rfl⟩ := List.mem_map.1 hname
    exact (h base hbase).hasPhrase
  obtain ⟨kinds, hforms, hl⟩ := hnames
  have hbases : (bases.map QualifiedName.fullName).map QualifiedName.parse = bases := by
    rw [List.map_map]
    exact (List.map_congr_left fun base hbase =>
      QualifiedName.parse_fullName (h base hbase).proper).trans (List.map_id bases)
  have hform := GroupForm.mk hw (.mk hforms)
  rw [hbases] at hform
  have hword : (Token.Kind.keyword word).isLexical = true := by
    rcases hw with rfl | rfl <;> decide
  exact ⟨_, hform, .cons hword (.cons rfl (.cons (by decide) (.cons rfl
    (hl.append (.cons rfl (.cons rfl .nil))))))⟩

theorem Conventions.Spellable.hasPhrase {c : Conventions} (h : c.Spellable) :
    HasPhrase ConventionsForm c.unplaced := by
  obtain ⟨hnodup, hevents, hcommands⟩ := lookup_printed c.domainEvents c.commands
  have hgroups : HasPhrase (Repeated GroupForm)
      ((c.domainEvents.map ("domainevents", ·)).toList
        ++ (c.commands.map ("commands", ·)).toList) := by
    refine .repeated fun group hgroup => ?_
    rcases List.mem_append.1 hgroup with hgroup | hgroup
    · obtain ⟨bases, hbases, rfl⟩ := Option.map_eq_some_iff.1 (Option.mem_toList.1 hgroup)
      exact hasPhrase_group (.inl rfl) (h.domainEvents bases hbases)
    · obtain ⟨bases, hbases, rfl⟩ := Option.map_eq_some_iff.1 (Option.mem_toList.1 hgroup)
      exact hasPhrase_group (.inr rfl) (h.commands bases hbases)
  obtain ⟨kinds, hforms, hl⟩ := hgroups
  have hform := ConventionsForm.mk hforms hnodup
  rw [hevents, hcommands] at hform
  exact ⟨_, hform, .cons rfl (.cons (by decide) (hl.append (.cons rfl .nil)))⟩

/-- **What is printed of a spellable document has a phrase.** -/
theorem Document.Spellable.hasPhrase {d : Document} (h : d.Spellable) {filler : String}
    (hfiller : IsSimple filler) : HasPhrase DocumentForm (d.inPrint filler).unplaced := by
  have hnamespaces : HasPhrase (Repeated NamespaceForm)
      ((d.namespaces.map (Namespace.inPrint filler)).map Namespace.unplaced) := by
    refine .repeated fun n hn => ?_
    rw [List.map_map] at hn
    obtain ⟨scope, hscope, rfl⟩ := List.mem_map.1 hn
    exact (h.namespaces scope hscope).hasPhrase hfiller
  obtain ⟨more, hforms, hm⟩ := hnamespaces
  obtain ⟨_ | c, namespaces⟩ := d
  · exact ⟨more, .bare hforms, hm⟩
  · obtain ⟨kinds, hform, hl⟩ := (h.conventions c rfl).hasPhrase
    exact ⟨_, .conventional hform hforms, hl.append hm⟩

/-! ## Places do not matter for filling in -/

theorem Record.unplaced_withDefaults (filler : String) (r : Record) :
    (r.withDefaults filler).unplaced = r.unplaced.withDefaults filler := by
  simp only [unplaced, withDefaults, List.map_map]
  rfl

theorem Declaration.unplaced_withDefaults (filler : String) (d : Declaration) :
    (d.withDefaults filler).unplaced = d.unplaced.withDefaults filler := by
  cases d with
  | record kind body => exact congrArg (record kind) (body.unplaced_withDefaults filler)
  | enumeration body => rfl
  | service body =>
    simp only [unplaced, withDefaults, Service.unplaced, List.map_map, Function.comp_def,
      Record.unplaced_withDefaults]

theorem Document.unplaced_withDefaults (filler : String) (d : Document) :
    (d.withDefaults filler).unplaced = d.unplaced.withDefaults filler := by
  simp only [unplaced, withDefaults, Namespace.unplaced, Namespace.withDefaults, List.map_map,
    Function.comp_def, Declaration.unplaced_withDefaults]

/-- **Printing keeps what a document means.**  A spellable document that leaves names and types open
anywhere is printed, with any indentation, as a text that is read back; and the document that is read
becomes the printed one, up to places, when the open parts of both are filled in with the name that
was printed for them. -/
theorem Document.parse_print_withDefaults {d : Document} (h : d.Spellable) {filler : String}
    (hfiller : IsSimple filler) (width : Nat) :
    ∃ d', Document.parse (d.print ⟨width, filler⟩) = .ok d' ∧
      (d'.withDefaults filler).unplaced = (d.withDefaults filler).unplaced := by
  obtain ⟨kinds, hform, hl⟩ := h.hasPhrase hfiller
  obtain ⟨d', hparse, hsame⟩ := exists_parse_print_of_form hform hl ⟨width, filler⟩
  rw [show d.inPrint filler = d.inPrint (PrintStyle.mk width filler).defaultPropertyName from rfl,
    print_inPrint] at hparse
  refine ⟨d', hparse, ?_⟩
  calc (d'.withDefaults filler).unplaced
      = d'.unplaced.withDefaults filler := d'.unplaced_withDefaults filler
    _ = (d.inPrint filler).unplaced.withDefaults filler := by rw [hsame]
    _ = ((d.inPrint filler).withDefaults filler).unplaced :=
        ((d.inPrint filler).unplaced_withDefaults filler).symm
    _ = (d.withDefaults filler).unplaced := by rw [d.withDefaults_inPrint]

/-! ### A sketch -/

namespace Sketch

/-- A value type that leaves everything open. -/
def key : Declaration := .record .valueType ⟨"Key", [⟨none, none, .none⟩], .none⟩

/-- A data-transfer object with an open name and an open type. -/
def line : Declaration :=
  .record .dto ⟨"Line", [⟨none, some (.arrayOf (.named ⟨["Key"]⟩)), .none⟩,
    ⟨some "new", none, .none⟩], .none⟩

/-- A service whose command leaves everything open. -/
def desk : Declaration := .service ⟨"Desk", [⟨"Shop.Buy", [⟨none, none, .none⟩], .none⟩], .none⟩

/-- A document with open parts in three kinds of declarations. -/
def document : Document :=
  ⟨some ⟨none, some [⟨["Core", "Message"]⟩], .none⟩, [⟨⟨["Été"]⟩, [key, line, desk], .none⟩]⟩

/-- What is printed for open names. -/
def filler : String := "It"

theorem isSimple_filler : IsSimple filler := ⟨by decide +kernel, by decide⟩

theorem spellable_document : document.Spellable := by
  have hkey : QualifiedName.Spellable ⟨["Key"]⟩ := by
    refine ⟨nofun, ?_, by decide⟩
    rintro _ (_ | ⟨_, ⟨⟩⟩)
    exact ⟨by decide +kernel, by decide⟩
  have hmessage : QualifiedName.Spellable ⟨["Core", "Message"]⟩ := by
    refine ⟨nofun, ?_, by decide⟩
    rintro _ (_ | ⟨_, _ | ⟨_, ⟨⟩⟩⟩)
    · exact ⟨by decide +kernel, by decide⟩
    · exact ⟨by decide +kernel, by decide⟩
  have hscope : QualifiedName.Spellable ⟨["Été"]⟩ := by
    refine ⟨nofun, ?_, by decide⟩
    rintro _ (_ | ⟨_, ⟨⟩⟩)
    exact ⟨by decide +kernel, by decide⟩
  have hopen : Property.Spellable ⟨none, none, .none⟩ := ⟨nofun, nofun⟩
  have hitems : Property.Spellable ⟨none, some (.arrayOf (.named ⟨["Key"]⟩)), .none⟩ := by
    refine ⟨nofun, ?_⟩
    rintro _ ⟨⟩
    exact ⟨rfl, rfl, hkey, by decide, by decide⟩
  have hnew : Property.Spellable ⟨some "new", none, .none⟩ := by
    refine ⟨?_, nofun⟩
    rintro _ ⟨⟩
    exact ⟨by decide +kernel, by decide⟩
  have hdeclarations : key.Spellable ∧ line.Spellable ∧ desk.Spellable := by
    refine ⟨⟨⟨by decide +kernel, by decide⟩, ?_⟩, ⟨⟨by decide +kernel, by decide⟩, ?_⟩,
      ⟨by decide +kernel, by decide⟩, ?_, nofun⟩
    · exact List.forall_mem_singleton.2 hopen
    · exact List.forall_mem_cons.2 ⟨hitems, List.forall_mem_singleton.2 hnew⟩
    · exact List.forall_mem_singleton.2
        ⟨⟨by decide +kernel, by decide⟩, List.forall_mem_singleton.2 hopen⟩
  refine ⟨?_, List.forall_mem_singleton.2 ⟨hscope, ?_⟩⟩
  · rintro _ ⟨⟩
    refine ⟨nofun, ?_⟩
    rintro _ ⟨⟩
    exact List.forall_mem_singleton.2 hmessage
  · exact List.forall_mem_cons.2 ⟨hdeclarations.1, List.forall_mem_cons.2
      ⟨hdeclarations.2.1, List.forall_mem_singleton.2 hdeclarations.2.2⟩⟩

theorem sketch_read_back :
    document.Spellable ∧ IsSimple filler ∧
      line.layoutBody ⟨1, filler⟩ 1 ≠ [] ∧ key.layoutBody ⟨1, filler⟩ 1 = [] ∧
      ∃ d', Document.parse (document.print ⟨1, filler⟩) = .ok d' ∧
        (d'.withDefaults filler).unplaced = (document.withDefaults filler).unplaced :=
  ⟨spellable_document, isSimple_filler, nofun, rfl,
    Document.parse_print_withDefaults spellable_document isSimple_filler 1⟩

end Sketch

end DomainForms
