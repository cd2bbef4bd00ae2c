import DomainForms.KnownType
import DomainForms.Document.Defaults
import DomainForms.Proofs.Grammar.Documents
import DomainForms.Proofs.QualifiedName

/-!
# Names in a document

Every name in a document was a word of its source, so it has no empty segment and is the full name
of what it spells.  The same holds for the full names of the declared types, which are such a name
alone or behind the name of a namespace.

* `Text.IsPath`: a dotted text without empty segments.
* `isPath_of_isLexical`: identifiers are such texts.
* `Document.isPath_of_mem_knownTypes`: so are the full names of declared types.
-/

namespace DomainForms

open Grammar

/-! ## Paths -/

/-- No segment of a dotted text is empty. -/
def Text.IsPath (text : String) : Prop := ∀ segment ∈ Text.segments text.toList, segment ≠ []

open Text (IsPath)

namespace QualifiedName

theorem isPath_fullName {name : QualifiedName} (h : name.Proper) (hne : name.segments ≠ []) :
    IsPath name.fullName := by
  intro segment hm
  rw [fullName, Text.segments_join name.segments hne fun piece hp => (h piece hp).2] at hm
  obtain ⟨piece, hp, rfl⟩ := List.mem_map.1 hm
  intro he
  exact (h piece hp).1 (String.ext he)

theorem isPath_qualify {scope : QualifiedName} (hs : scope.Proper) {declared : String}
    (h : IsPath declared) : IsPath (scope.qualify declared) := by
  rw [qualify]
  split
  · exact h
  · rename_i hd
    have hne : scope.segments ≠ [] := by
      intro he
      simp [isEmpty, he] at hd
    intro segment hm
    have hdot : (".".toList : List Char) = ['.'] := rfl
    rw [String.toList_append, String.toList_append, hdot, List.append_assoc, List.singleton_append,
      Text.segments_append_dot] at hm
    rcases List.mem_append.1 hm with hm | hm
    · exact isPath_fullName hs hne segment hm
    · exact h segment hm

theorem segments_parse_ne_nil {text : String} (h : IsPath text) : (parse text).segments ≠ [] := by
  have hall : ∀ piece ∈ Text.segments text.toList, (!piece.isEmpty) = true := by
    intro piece hm
    simpa using h piece hm
  rw [parse, List.filter_eq_self.mpr hall]
  simpa using Text.segments_ne_nil text.toList

/-- **What a namespace declares under a name without a dot lies in the namespace itself.** -/
theorem parent_parse_qualify {scope : QualifiedName} (hs : scope.Proper)
    (hne : scope.segments ≠ []) {declared : String} (hd : Text.isDotted declared = false)
    (h : IsPath (scope.qualify declared)) : (parse (scope.qualify declared)).parent = scope := by
  have hdot : '.' ∉ declared.toList := by simpa [Text.isDotted] using hd
  have hfull : scope.qualify declared = scope.fullName ++ "." ++ declared := by
    rw [qualify, if_neg]
    simpa [hd, isEmpty] using hne
  have hjoin : Text.join (scope.segments ++ [declared]) = scope.qualify declared := by
    rw [hfull, Text.join_concat _ _ hne, fullName]
  have hproper : Proper ⟨scope.segments ++ [declared]⟩ := by
    intro segment hm
    rcases List.mem_append.1 hm with hm | hm
    · exact hs segment hm
    · rw [List.mem_singleton.1 hm]
      refine ⟨?_, hdot⟩
      rintro rfl
      refine h [] ?_ rfl
      rw [← hjoin, Text.segments_join_concat _ _ fun piece hp => (hs piece hp).2]
      exact List.mem_append_right _ (List.mem_singleton.2 rfl)
  rw [← hjoin]
  exact (congrArg parent (parse_fullName hproper)).trans (by rw [parent, List.dropLast_concat])

end QualifiedName

/-! ## Words -/

/-- Every word of a row of tokens is spelled as its class asks for. -/
def AllLexical (kinds : List Token.Kind) : Prop := ∀ kind ∈ kinds, kind.isLexical = true

theorem AllLexical.left {kinds more : List Token.Kind} (h : AllLexical (kinds ++ more)) :
    AllLexical kinds := fun kind hk => h kind (List.mem_append_left _ hk)

theorem AllLexical.right {kinds more : List Token.Kind} (h : AllLexical (kinds ++ more)) :
    AllLexical more := fun kind hk => h kind (List.mem_append_right _ hk)

theorem AllLexical.tail {kind : Token.Kind} {kinds : List Token.Kind}
    (h : AllLexical (kind :: kinds)) : AllLexical kinds := fun kind hk => h kind (.tail _ hk)

theorem isPath_of_isLexical {name : String} (h : (Token.Kind.ident name).isLexical = true) :
    IsPath name := by
  rw [Token.isLexical_ident] at h
  rintro segment hs rfl
  exact Bool.false_ne_true (List.all_eq_true.1 (Bool.and_eq_true_iff.1 h).2 _ hs)

theorem fullName_of_isLexical {name : String} (h : (Token.Kind.ident name).isLexical = true) :
    (QualifiedName.parse name).fullName = name :=
  QualifiedName.fullName_parse (isPath_of_isLexical h)

theorem exists_of_mem_repeated {α : Type} {rule : Rule α} {kinds : List Token.Kind}
    {items : List α} (h : Repeated rule kinds items) {a : α} (ha : a ∈ items) :
    ∃ ks, rule ks a ∧ ∀ kind ∈ ks, kind ∈ kinds := by
  induction h with
  | nil => exact absurd ha List.not_mem_nil
  | @cons kinds more b items hb _ ih =>
    rcases List.mem_cons.1 ha with rfl | ha
    · exact ⟨kinds, hb, fun _ => List.mem_append_left _⟩
    · obtain ⟨ks, hks, hsub⟩ := ih ha
      exact ⟨ks, hks, fun kind hk => List.mem_append_right _ (hsub kind hk)⟩

theorem isPath_of_nameForm {kinds : List Token.Kind} {name : String} (h : NameForm kinds name)
    (hl : AllLexical kinds) : IsPath name := by
  obtain ⟨-⟩ := h
  exact isPath_of_isLexical (hl _ (.head _))

/-! ## Declared names -/

theorem Record.isPath_name {kinds : List Token.Kind} {r : Record} (h : RecordRest kinds r)
    (hl : AllLexical kinds) : IsPath r.name := by
  cases h with
  | bare hname => exact isPath_of_nameForm hname hl.left
  | listed hname _ => exact isPath_of_nameForm hname hl.left

theorem Record.isPath_name_of_command {kinds : List Token.Kind} {r : Record}
    (h : CommandForm kinds r) (hl : AllLexical kinds) : IsPath r.name := by
  obtain ⟨hrest⟩ := h
  exact isPath_name hrest hl.tail.tail

namespace Declaration

theorem isPath_name {kinds : List Token.Kind} {d : Declaration} (h : DeclarationForm kinds d)
    (hl : AllLexical kinds) : IsPath d.name := by
  cases h with
  | valueType hrest =>
    cases hrest with
    | bare hname => exact isPath_of_nameForm hname hl.tail.tail.left
    | typed hname _ => exact isPath_of_nameForm hname hl.tail.tail.left
    | listed hname _ => exact isPath_of_nameForm hname hl.tail.tail.left
  | command hrest => exact Record.isPath_name hrest hl.tail.tail
  | domainEvent hrest => exact Record.isPath_name hrest hl.tail.tail
  | dto hrest => exact Record.isPath_name hrest hl.tail.tail
  | enumeration hrest =>
    obtain ⟨hname, -⟩ := hrest
    exact isPath_of_nameForm hname hl.tail.tail.left
  | service hrest =>
    obtain ⟨hname, -, -⟩ := hrest
    exact isPath_of_nameForm hname hl.tail.tail.left

theorem isPath_nestedCommand {kinds : List Token.Kind} {d : Declaration}
    (h : DeclarationForm kinds d) (hl : AllLexical kinds) {r : Record}
    (hr : r ∈ d.nestedCommands) : IsPath r.name := by
  cases h with
  | service hrest =>
    obtain ⟨-, hcommands, -⟩ := hrest
    obtain ⟨ks, hform, hsub⟩ := exists_of_mem_repeated hcommands hr
    exact Record.isPath_name_of_command hform fun kind hk => hl.tail.tail.right.left kind (hsub kind hk)
  | _ => cases hr

theorem isPath_of_mem_knownTypes {scope : QualifiedName} (hs : scope.Proper)
    {kinds : List Token.Kind} {d : Declaration} (h : DeclarationForm kinds d)
    (hl : AllLexical kinds) {known : KnownType} (hk : known ∈ d.knownTypes scope) :
    IsPath known.fullName := by
  rcases List.mem_cons.1 hk with rfl | hk
  · exact QualifiedName.isPath_qualify hs (isPath_name h hl)
  · obtain ⟨r, hr, rfl⟩ := List.mem_map.1 hk
    exact QualifiedName.isPath_qualify hs (isPath_nestedCommand h hl hr)

theorem knownTypes_unplaced (scope : QualifiedName) (d : Declaration) :
    d.unplaced.knownTypes scope = d.knownTypes scope := by
  cases d with
  | record kind body => rfl
  | enumeration body => rfl
  | service body => simp [knownTypes, unplaced, Service.unplaced, nestedCommands, name, kind, Record.unplaced]

theorem knownTypes_withDefaults (scope : QualifiedName) (filler : String) (d : Declaration) :
    (d.withDefaults filler).knownTypes scope = d.knownTypes scope := by
  cases d with
  | record kind body => rfl
  | enumeration body => rfl
  | service body => simp [knownTypes, withDefaults, nestedCommands, name, kind, Record.withDefaults]

end Declaration

/-! ## Declared types of a document -/

namespace Document

theorem knownTypes_eq (d : Document) :
    d.knownTypes = d.namespaces.flatMap fun n => n.declarations.flatMap (·.knownTypes n.name) := by
  rw [knownTypes, declarations, List.flatMap_assoc]
  simp only [List.flatMap_map]

theorem knownTypes_unplaced (d : Document) : d.unplaced.knownTypes = d.knownTypes := by
  simp only [knownTypes_eq, unplaced, List.flatMap_map, Namespace.unplaced,
    Declaration.knownTypes_unplaced]

theorem knownTypes_withDefaults (filler : String) (d : Document) :
    (d.withDefaults filler).knownTypes = d.knownTypes := by
  simp only [knownTypes_eq, withDefaults, List.flatMap_map, Namespace.withDefaults,
    Declaration.knownTypes_withDefaults]

theorem declarations_withDefaults (filler : String) (d : Document) :
    (d.withDefaults filler).declarations = d.declarations.map fun (scope, declaration) =>
      (scope.withDefaults filler, declaration.withDefaults filler) := by
  simp only [declarations, withDefaults, List.flatMap_map, List.map_flatMap, List.map_map,
    Namespace.withDefaults, Function.comp_def]

theorem exists_of_mem_namespaces {kinds : List Token.Kind} {d : Document} (h : DocumentForm kinds d)
    {n : Namespace} (hn : n ∈ d.namespaces) :
    ∃ ks, NamespaceForm ks n ∧ ∀ kind ∈ ks, kind ∈ kinds := by
  cases h with
  | bare hform => exact exists_of_mem_repeated hform hn
  | conventional _ hform =>
    obtain ⟨ks, hks, hsub⟩ := exists_of_mem_repeated hform hn
    exact ⟨ks, hks, fun kind hk => List.mem_append_right _ (hsub kind hk)⟩

theorem proper_of_mem_namespaces {source : String} {d : Document} (h : parse source = .ok d)
    {n : Namespace} (hn : n ∈ d.namespaces) : n.name.Proper ∧ n.name.segments ≠ [] := by
  have hmem : n.unplaced ∈ d.unplaced.namespaces := List.mem_map_of_mem hn
  obtain ⟨kinds, hform, hsub⟩ := exists_of_mem_namespaces (documentForm_of_parse h) hmem
  have hl : AllLexical kinds := fun kind hm => Token.isLexical_of_mem_sentence (hsub kind hm)
  change (n.unplaced).name.Proper ∧ (n.unplaced).name.segments ≠ []
  generalize n.unplaced = n at hform
  obtain ⟨hname, -⟩ := hform
  exact ⟨QualifiedName.parse_proper _,
    QualifiedName.segments_parse_ne_nil (isPath_of_nameForm hname hl.tail.tail.left)⟩

/-- **The full name of every type that a source declares is a path.** -/
theorem isPath_of_mem_knownTypes {source : String} {d : Document} (h : parse source = .ok d)
    {known : KnownType} (hk : known ∈ d.knownTypes) : IsPath known.fullName := by
  rw [← knownTypes_unplaced, knownTypes_eq] at hk
  obtain ⟨n, hn, hk⟩ := List.mem_flatMap.1 hk
  obtain ⟨declaration, hd, hk⟩ := List.mem_flatMap.1 hk
  obtain ⟨kinds, hform, hsub⟩ := exists_of_mem_namespaces (documentForm_of_parse h) hn
  have hl : AllLexical kinds := fun kind hm => Token.isLexical_of_mem_sentence (hsub kind hm)
  obtain ⟨-, hdeclarations⟩ := hform
  obtain ⟨ks, hdform, hdsub⟩ := exists_of_mem_repeated hdeclarations hd
  exact Declaration.isPath_of_mem_knownTypes (QualifiedName.parse_proper _) hdform
    (fun kind hm => hl.tail.tail.right.left kind (hdsub kind hm)) hk

end Document

end DomainForms
