import DomainForms.Document.Printer
import DomainForms.Proofs.Document.Names
import DomainForms.Proofs.Layout

/-!
# Printing and reading back

The canonical layout of a document that was read is again a phrase of the grammar, and it stands for
the same tree: names are printed as they were written, a primitive type under its canonical name, a
type without the parentheses around it, and the groups of conventions in a fixed order.  As no word
of a layout touches another, the printed text has just the tokens of the layout.

* `Layout.Writes`: a layout that is a phrase of a rule and in which no word touches another.
* `Declaration.writes_declaration`, `Document.writes_document`: canonical layouts.
* `Document.exists_parse_print`, `Declaration.exists_parse_print`: what is printed is read back.
-/

namespace DomainForms

open Grammar

/-! ## Layouts that are phrases -/

namespace Layout

theorem kinds_append (l more : Layout) : kinds (l ++ more) = kinds l ++ kinds more :=
  List.map_append

theorem kinds_tight (gap : String) (ks : List Token.Kind) : kinds (tight gap ks) = ks := by
  cases ks with
  | nil => rfl
  | cons kind ks =>
    show kind :: (ks.map _).map Piece.kind = _
    rw [List.map_map, show Piece.kind ∘ (Piece.mk "" ·) = id from rfl, List.map_id]

/-- A layout is a phrase of a rule, and may stand right behind a word. -/
structure Writes {α : Type} (rule : Rule α) (l : Layout) (a : α) : Prop where
  /-- The layout is a phrase. -/
  form : rule l.kinds a
  /-- No word touches another. -/
  spaced : Spaced true l

theorem Writes.repeated {α : Type} {rule : Rule α} {f : α → Layout}
    (hf : ∀ {kinds a}, rule kinds a → AllLexical kinds → Writes rule (f a) a)
    {kinds : List Token.Kind} {items : List α} (h : Repeated rule kinds items)
    (hl : AllLexical kinds) : Writes (Repeated rule) (items.flatMap f) items := by
  induction h with
  | nil => exact ⟨.nil, trivial⟩
  | @cons kinds more a items ha _ ih =>
    obtain ⟨hform, hspaced⟩ := hf ha hl.left
    obtain ⟨hforms, hspaceds⟩ := ih hl.right
    rw [List.flatMap_cons]
    refine ⟨?_, hspaced.append hspaceds⟩
    rw [kinds_append]
    exact .cons hform hforms

/-! ## Gaps -/

theorem isGap_empty : IsGap "" := nofun

theorem isGap_space : IsGap " " := by
  intro c hc
  rw [List.mem_singleton.1 hc]
  exact .inl rfl

theorem isGap_line : IsGap "\n" := by
  intro c hc
  rw [List.mem_singleton.1 hc]
  exact .inr rfl

theorem isGap_formGap : IsGap Document.formGap := by
  intro c hc
  rcases List.mem_cons.1 hc with rfl | hc
  · exact .inr rfl
  · rw [List.mem_singleton.1 hc]
    exact .inr rfl

theorem isGap_newLine (style : PrintStyle) (depth : Nat) : IsGap (style.newLine depth) := by
  intro c hc
  unfold PrintStyle.newLine at hc
  rw [String.toList_ofList] at hc
  rcases List.mem_cons.1 hc with rfl | hc
  · exact .inr rfl
  · exact .inl (List.eq_of_mem_replicate hc)

/-! ## Words and marks -/

theorem spaced_word {gap : String} (hg : IsGap gap) (hne : gap ≠ "") {name : String}
    (hl : (Token.Kind.ident name).isLexical = true) {touching : Bool} {rest : Layout}
    (h : Spaced true rest) : Spaced touching (⟨gap, .ident name⟩ :: rest) :=
  ⟨hg, hl, fun _ _ => hne, h⟩

theorem spaced_marks {ks : List Token.Kind}
    (h : ∀ kind ∈ ks, kind.isWord = false ∧ kind.isSpellable = true) :
    Spaced true (ks.map (Piece.mk "" ·)) := by
  induction ks with
  | nil => trivial
  | cons kind ks ih =>
    obtain ⟨hw, hs⟩ := h kind (.head _)
    exact .mark isGap_empty hs hw (ih fun kind hk => h kind (.tail _ hk)).of_true

theorem kinds_words (names : List String) : kinds (words names) = names.map .ident := by
  cases names with
  | nil => rfl
  | cons name names =>
    show .ident name :: (names.map _).map Piece.kind = _
    rw [List.map_map]
    rfl

theorem spaced_words {names : List String} (h : AllLexical (names.map .ident)) :
    Spaced false (words names) := by
  have hspaces : ∀ {names : List String}, AllLexical (names.map .ident) →
      Spaced true (names.map fun word => ⟨" ", .ident word⟩) := by
    intro names
    induction names with
    | nil => exact fun _ => trivial
    | cons name names ih =>
      intro h
      exact spaced_word isGap_space nofun (h _ (.head _)) (ih h.tail)
  cases names with
  | nil => trivial
  | cons name names => exact ⟨isGap_empty, h _ (.head _), nofun, hspaces h.tail⟩

end Layout

theorem kinds_of_repeated {rule : Rule String}
    (hrule : ∀ {kinds name}, rule kinds name → kinds = [.ident name]) {kinds : List Token.Kind}
    {names : List String} (h : Repeated rule kinds names) : kinds = names.map .ident := by
  induction h with
  | nil => rfl
  | cons hname _ ih =>
    rw [hrule hname, ih]
    rfl

/-! ## Types -/

namespace TypeRef

theorem ofName?_canonicalName (p : Primitive) : Primitive.ofName? p.canonicalName = some p := by
  cases p <;> decide

theorem isLexical_canonicalName (p : Primitive) :
    (Token.Kind.ident p.canonicalName).isLexical = true := by
  cases p <;> decide

theorem kinds_arrayOf (t : TypeRef) : (arrayOf t).kinds = t.kinds ++ [.lbracket, .rbracket] :=
  rfl

theorem typeForm_kinds {symbol : TypeSymbol} {kinds : List Token.Kind} {t : TypeRef}
    (h : TypeForm symbol kinds t) (hl : AllLexical kinds) :
    (t.isArray = false → TypeForm .base t.kinds t) ∧ TypeForm .type t.kinds t ∧
      AllLexical t.kinds := by
  -- A base of one word is its own canonical spelling, up to the name of a primitive.
  have word : ∀ {name : String} {t : TypeRef}, t.kinds = [.ident name] →
      TypeForm .base [.ident name] t → (Token.Kind.ident name).isLexical = true →
      (t.isArray = false → TypeForm .base t.kinds t) ∧ TypeForm .type t.kinds t ∧
        AllLexical t.kinds := by
    intro name t heq hform hname
    rw [heq]
    refine ⟨fun _ => hform, .plain hform, ?_⟩
    intro kind hk
    rw [List.mem_singleton.1 hk]
    exact hname
  induction h with
  | @primitive name p hp =>
    exact word rfl (.primitive (ofName?_canonicalName p)) (isLexical_canonicalName p)
  | @nullable name p hp =>
    have hform := TypeForm.nullable (ofName?_canonicalName p)
    refine ⟨fun _ => hform, .plain hform, ?_⟩
    intro kind hk
    rcases List.mem_cons.1 hk with rfl | hk
    · exact isLexical_canonicalName p
    · rw [List.mem_singleton.1 hk]
      rfl
  | string hname => exact word rfl (.string rfl) (by decide)
  | @named name hr hp hs =>
    have hname := hl _ (.head _)
    refine word ?_ (.named hr hp hs) hname
    show [Token.Kind.ident (QualifiedName.parse name).fullName] = _
    rw [fullName_of_isLexical hname]
  | parens _ ih => exact ih hl.tail.left
  | plain _ ih => exact ih hl
  | @array kinds t _ ha ih =>
    obtain ⟨hbase, -, hall⟩ := ih hl.left
    refine ⟨nofun, ?_, ?_⟩
    · rw [kinds_arrayOf]
      exact .array (hbase ha) ha
    · rw [kinds_arrayOf]
      intro kind hk
      rcases List.mem_append.1 hk with hk | hk
      · exact hall kind hk
      · rcases List.mem_cons.1 hk with rfl | hk
        · rfl
        · rw [List.mem_singleton.1 hk]
          rfl

theorem isWord_of_mem_rank {r : Rank} {kind : Token.Kind} (h : kind ∈ r.kinds) :
    kind.isWord = false ∧ kind.isSpellable = true := by
  rcases List.mem_cons.1 h with rfl | h
  · exact ⟨rfl, rfl⟩
  · rcases List.mem_append.1 h with h | h
    · rw [List.eq_of_mem_replicate h]
      exact ⟨rfl, rfl⟩
    · rw [List.mem_singleton.1 h]
      exact ⟨rfl, rfl⟩

/-- The canonical spelling of a type is one word with marks behind it. -/
theorem kinds_eq_cons (t : TypeRef) :
    ∃ name rest, t.kinds = .ident name :: rest ∧
      ∀ kind ∈ rest, kind.isWord = false ∧ kind.isSpellable = true := by
  induction t with
  | simple p => exact ⟨_, [], rfl, nofun⟩
  | string => exact ⟨_, [], rfl, nofun⟩
  | nullable p =>
    refine ⟨_, [.question], rfl, ?_⟩
    intro kind hk
    rw [List.mem_singleton.1 hk]
    exact ⟨rfl, rfl⟩
  | named name => exact ⟨_, [], rfl, nofun⟩
  | array element ranks ih =>
    obtain ⟨name, rest, heq, hrest⟩ := ih
    refine ⟨name, rest ++ ranks.flatMap Rank.kinds, ?_, ?_⟩
    · show element.kinds ++ _ = _
      rw [heq]
      rfl
    · intro kind hk
      rcases List.mem_append.1 hk with hk | hk
      · exact hrest kind hk
      · obtain ⟨r, -, hk⟩ := List.mem_flatMap.1 hk
        exact isWord_of_mem_rank hk

theorem spaced_tight {t : TypeRef} (hl : AllLexical t.kinds) {gap : String}
    (hg : Layout.IsGap gap) {touching : Bool} (hne : touching = true → gap ≠ "") :
    Layout.Spaced touching (Layout.tight gap t.kinds) := by
  obtain ⟨name, rest, heq, hrest⟩ := kinds_eq_cons t
  rw [heq] at hl ⊢
  exact ⟨hg, hl _ (.head _), fun ht _ => hne ht, Layout.spaced_marks hrest⟩

end TypeRef

/-! ## Properties -/

namespace Property

open Layout

theorem propertyForm_layout {kinds : List Token.Kind} {p : Property} (h : PropertyForm kinds p)
    (hl : AllLexical kinds) (style : PrintStyle) {gap : String} (hg : IsGap gap) (touching : Bool)
    (hne : touching = true → gap ≠ "") :
    PropertyForm (p.layout style gap).kinds p ∧ Spaced touching (p.layout style gap) := by
  obtain ⟨htype, hsimple⟩ := h
  obtain ⟨-, hform, hlexical⟩ := TypeRef.typeForm_kinds htype hl.left
  have hname := hl.right
  obtain ⟨hdot⟩ := hsimple
  constructor
  · unfold layout
    rw [kinds_append, kinds_tight]
    exact .mk hform (.mk hdot)
  · exact (TypeRef.spaced_tight hlexical hg hne).append
      (spaced_word isGap_space nofun (hname _ (.head _)) trivial)

theorem writes_nextProperty {kinds : List Token.Kind} {p : Property}
    (h : NextPropertyForm kinds p) (hl : AllLexical kinds) (style : PrintStyle) :
    Writes NextPropertyForm (⟨"", .comma⟩ :: p.layout style " ") p := by
  obtain ⟨h⟩ := h
  obtain ⟨hform, hspaced⟩ := propertyForm_layout h hl.tail style isGap_space false nofun
  exact ⟨.mk hform, .mark isGap_empty rfl rfl hspaced⟩

theorem layoutList_cons (style : PrintStyle) (first : Property) (rest : List Property) :
    layoutList style (first :: rest) =
      ⟨" ", .lparen⟩ :: (first.layout style "" ++
        (rest.flatMap (fun p => ⟨"", .comma⟩ :: p.layout style " ") ++ [⟨"", .rparen⟩])) :=
  List.append_assoc _ _ _

theorem writes_list {kinds : List Token.Kind} {properties : List Property}
    (h : ListForm kinds properties) (hl : AllLexical kinds) (style : PrintStyle) :
    Writes ListForm (layoutList style properties) properties := by
  cases h with
  | empty =>
    exact ⟨.empty, .mark isGap_space rfl rfl (.mark isGap_empty rfl rfl trivial)⟩
  | @cons _ _ first rest hfirst hrest =>
    obtain ⟨hform, hspaced⟩ := propertyForm_layout hfirst hl.tail.left style isGap_empty false nofun
    obtain ⟨hforms, hspaceds⟩ :=
      Writes.repeated (fun h hl => writes_nextProperty h hl style) hrest hl.tail.right.left
    have hclose : Spaced true [⟨"", .rparen⟩] := .mark isGap_empty rfl rfl trivial
    rw [layoutList_cons]
    refine ⟨?_, .mark isGap_space rfl rfl (hspaced.append (hspaceds.append hclose))⟩
    show ListForm (.lparen :: kinds (first.layout style "" ++ (_ ++ _))) _
    rw [kinds_append, kinds_append]
    exact .cons hform hforms

end Property

/-! ## Declarations -/

namespace Declaration

open Layout

theorem kinds_form (gap word name : String) (l : Layout) :
    Layout.kinds (layoutHead gap word name ++ l ++ [⟨"", .rparen⟩]) =
      .lparen :: .ident word :: ([.ident name] ++ (l.kinds ++ [.rparen])) := by
  rw [kinds_append, kinds_append]
  exact List.append_assoc _ _ _

theorem spaced_form {gap word name : String} (hg : IsGap gap)
    (hw : (Token.Kind.ident word).isLexical = true) (hn : (Token.Kind.ident name).isLexical = true)
    {l : Layout} (h : Spaced true l) :
    Spaced true (layoutHead gap word name ++ l ++ [⟨"", .rparen⟩]) := by
  have hhead : Spaced true (layoutHead gap word name) :=
    .mark hg rfl rfl ⟨isGap_empty, hw, nofun, spaced_word isGap_space nofun hn trivial⟩
  exact (hhead.append h).append (.mark isGap_empty rfl rfl trivial)

theorem isLexical_of_nameForm {kinds : List Token.Kind} {name : String} (h : NameForm kinds name)
    (hl : AllLexical kinds) :
    NameForm [.ident name] name ∧ (Token.Kind.ident name).isLexical = true := by
  obtain ⟨hr⟩ := h
  exact ⟨.mk hr, hl _ (.head _)⟩

/-- A layout that stands between the name of a declaration and its closing parenthesis. -/
structure WritesBody {α : Type} (rule : Rule α) (name : String) (l : Layout) (a : α) : Prop where
  /-- The layout with the name in front and the parenthesis behind is a phrase. -/
  form : rule ([.ident name] ++ (l.kinds ++ [.rparen])) a
  /-- The name is spelled as an identifier. -/
  lexical : (Token.Kind.ident name).isLexical = true
  /-- No word touches another. -/
  spaced : Spaced true l

theorem writes_record {kinds : List Token.Kind} {r : Record} (h : RecordRest kinds r)
    (hl : AllLexical kinds) (style : PrintStyle) :
    WritesBody RecordRest r.name (Property.layoutList style r.properties) r := by
  cases h with
  | bare hname =>
    obtain ⟨hform, hlexical⟩ := isLexical_of_nameForm hname hl.left
    exact ⟨.listed hform .empty, hlexical,
      .mark isGap_space rfl rfl (.mark isGap_empty rfl rfl trivial)⟩
  | listed hname hlist =>
    obtain ⟨hform, hlexical⟩ := isLexical_of_nameForm hname hl.left
    obtain ⟨hlistForm, hspaced⟩ := Property.writes_list hlist hl.right.left style
    exact ⟨.listed hform hlistForm, hlexical, hspaced⟩

/-- What a command is printed as: an empty list is left out. -/
theorem writes_command {kinds : List Token.Kind} {r : Record} (h : RecordRest kinds r)
    (hl : AllLexical kinds) (style : PrintStyle) :
    WritesBody RecordRest r.name (layoutCommand style r.properties) r := by
  unfold layoutCommand
  split
  · rename_i hempty
    obtain ⟨name, properties, span⟩ := r
    cases List.isEmpty_iff.1 hempty
    cases h with
    | bare hname =>
      obtain ⟨hform, hlexical⟩ := isLexical_of_nameForm hname hl.left
      exact ⟨.bare hform, hlexical, trivial⟩
    | listed hname hlist =>
      obtain ⟨hform, hlexical⟩ := isLexical_of_nameForm hname hl.left
      exact ⟨.bare hform, hlexical, trivial⟩
  · exact writes_record h hl style

/-- A list of properties is never printed in the shorthand form, because its properties have
names. -/
theorem layoutValue_of_list {kinds : List Token.Kind} {properties : List Property}
    (h : ListForm kinds properties) (style : PrintStyle) :
    layoutValue style properties = Property.layoutList style properties := by
  cases h with
  | empty => rfl
  | cons hfirst hrest =>
    obtain ⟨-, -⟩ := hfirst
    rfl

/-- What a value type is printed as, in whichever form it was written. -/
theorem writes_value {kinds : List Token.Kind} {r : Record} (h : ValueRest kinds r)
    (hl : AllLexical kinds) (style : PrintStyle) :
    WritesBody ValueRest r.name (layoutValue style r.properties) r := by
  cases h with
  | bare hname =>
    obtain ⟨hform, hlexical⟩ := isLexical_of_nameForm hname hl.left
    exact ⟨.bare hform, hlexical, trivial⟩
  | @typed _ _ _ t hname ht =>
    obtain ⟨hform, hlexical⟩ := isLexical_of_nameForm hname hl.left
    obtain ⟨-, htype, htypeLexical⟩ := TypeRef.typeForm_kinds ht hl.right.left
    refine ⟨?_, hlexical, TypeRef.spaced_tight htypeLexical isGap_space fun _ => nofun⟩
    show ValueRest ([.ident _] ++ ((tight " " t.kinds).kinds ++ [.rparen])) _
    rw [kinds_tight]
    exact .typed hform htype
  | listed hname hlist =>
    obtain ⟨hform, hlexical⟩ := isLexical_of_nameForm hname hl.left
    obtain ⟨hlistForm, hspaced⟩ := Property.writes_list hlist hl.right.left style
    show WritesBody ValueRest _ (layoutValue style _) _
    rw [layoutValue_of_list hlist]
    exact ⟨.listed hform hlistForm, hlexical, hspaced⟩

theorem writes_nestedCommand {kinds : List Token.Kind} {r : Record} (h : CommandForm kinds r)
    (hl : AllLexical kinds) (style : PrintStyle) (depth : Nat) :
    Writes CommandForm (layoutNested style depth r) r := by
  obtain ⟨h⟩ := h
  obtain ⟨hform, hname, hspaced⟩ := writes_command h hl.tail.tail style
  unfold layoutNested
  refine ⟨?_, spaced_form (isGap_newLine style depth) (by decide) hname hspaced⟩
  rw [kinds_form]
  exact .mk hform

theorem writes_enumeration {kinds : List Token.Kind} {e : Enumeration}
    (h : EnumerationRest kinds e) (hl : AllLexical kinds) :
    WritesBody EnumerationRest e.name (⟨" ", .lbracket⟩ :: words e.values ++ [⟨"", .rbracket⟩])
      e := by
  obtain ⟨hname, hvalues⟩ := h
  obtain ⟨hform, hlexical⟩ := isLexical_of_nameForm hname hl.left
  have hlexicals := hl.right.tail.left
  have hclose : Spaced true [⟨"", .rbracket⟩] := .mark isGap_empty rfl rfl trivial
  rw [kinds_of_repeated (by rintro _ _ ⟨-⟩; rfl) hvalues] at hlexicals hvalues
  refine ⟨?_, hlexical, .mark isGap_space rfl rfl ((spaced_words hlexicals).append hclose)⟩
  show EnumerationRest ([.ident _] ++ .lbracket :: (kinds (words _ ++ [⟨"", .rbracket⟩]) ++ _)) _
  rw [kinds_append, kinds_words, List.append_assoc]
  exact .mk hform hvalues

theorem writes_service {kinds : List Token.Kind} {s : Service} (h : ServiceRest kinds s)
    (hl : AllLexical kinds) (style : PrintStyle) (depth : Nat) :
    WritesBody ServiceRest s.name (s.commands.flatMap (layoutNested style depth)) s := by
  obtain ⟨hname, hcommands, hne⟩ := h
  obtain ⟨hform, hlexical⟩ := isLexical_of_nameForm hname hl.left
  obtain ⟨hforms, hspaced⟩ :=
    Writes.repeated (fun h hl => writes_nestedCommand h hl style depth) hcommands hl.right.left
  exact ⟨.mk hform hforms hne, hlexical, hspaced⟩

theorem writes_body {kind : Kind} {kinds : List Token.Kind} {d : Declaration}
    (h : BodyForm kind kinds d) (hl : AllLexical kinds) (style : PrintStyle) (depth : Nat) :
    d.kind = kind ∧ WritesBody (BodyForm kind) d.name (layoutBody style depth d) d := by
  cases h with
  | valueType h =>
    obtain ⟨hform, hname, hspaced⟩ := writes_value h hl style
    exact ⟨rfl, .valueType hform, hname, hspaced⟩
  | @record _ kind _ hkind h =>
    refine ⟨rfl, ?_⟩
    cases kind with
    | valueType => exact absurd rfl hkind
    | command =>
      obtain ⟨hform, hname, hspaced⟩ := writes_command h hl style
      exact ⟨.record hkind hform, hname, hspaced⟩
    | domainEvent =>
      obtain ⟨hform, hname, hspaced⟩ := writes_record h hl style
      exact ⟨.record hkind hform, hname, hspaced⟩
    | dto =>
      obtain ⟨hform, hname, hspaced⟩ := writes_record h hl style
      exact ⟨.record hkind hform, hname, hspaced⟩
  | enumeration h =>
    obtain ⟨hform, hname, hspaced⟩ := writes_enumeration h hl
    exact ⟨rfl, .enumeration hform, hname, hspaced⟩
  | service h =>
    obtain ⟨hform, hname, hspaced⟩ := writes_service h hl style (depth + 1)
    exact ⟨rfl, .service hform, hname, hspaced⟩

theorem isLexical_keyword (kind : Kind) : (Token.Kind.ident kind.keyword).isLexical = true := by
  obtain ⟨_ | _ | _ | _⟩ | _ | _ := kind <;> decide

/-- **A declaration that was read is printed as the same declaration.** -/
theorem writes_declaration {kinds : List Token.Kind} {d : Declaration} (h : DeclarationForm kinds d)
    (hl : AllLexical kinds) (style : PrintStyle) {gap : String} (hg : IsGap gap) (depth : Nat) :
    Writes DeclarationForm (d.layout style gap depth) d := by
  obtain ⟨kind, more, rfl, hbody⟩ := declarationForm_iff.1 h
  obtain ⟨rfl, hform, hname, hspaced⟩ := writes_body hbody hl.tail.tail style depth
  refine ⟨?_, spaced_form hg (isLexical_keyword d.kind) hname hspaced⟩
  unfold layout
  rw [kinds_form]
  exact declarationForm_iff.2 ⟨d.kind, _, rfl, hform⟩

end Declaration

/-! ## Conventions -/

namespace Conventions

open Layout

theorem map_fullName {names : List String} (h : AllLexical (names.map .ident)) :
    (names.map QualifiedName.parse).map QualifiedName.fullName = names := by
  induction names with
  | nil => rfl
  | cons name names ih =>
    rw [List.map_cons, List.map_cons, ih h.tail, fullName_of_isLexical (h _ (.head _))]

theorem layoutGroup_some (style : PrintStyle) (word : String) (bases : List QualifiedName) :
    layoutGroup style word (some bases) =
      ⟨style.newLine 1, .keyword word⟩ :: ⟨" ", .lbrace⟩ :: ⟨" ", .ident "inherit"⟩ ::
        ⟨" ", .lbracket⟩ ::
        (words (bases.map QualifiedName.fullName) ++ [⟨"", .rbracket⟩, ⟨" ", .rbrace⟩]) :=
  rfl

theorem newLine_ne_empty (style : PrintStyle) (depth : Nat) : style.newLine depth ≠ "" := by
  intro h
  have hlist := congrArg String.toList h
  unfold PrintStyle.newLine at hlist
  rw [String.toList_ofList] at hlist
  cases hlist

theorem writes_group {kinds : List Token.Kind} {bases : List QualifiedName}
    (h : BasesForm kinds bases) (hl : AllLexical kinds) (style : PrintStyle) {word : String}
    (hw : word = "domainevents" ∨ word = "commands") :
    Writes GroupForm (layoutGroup style word (some bases)) (word, bases) := by
  cases h with
  | @mk kinds names hnames =>
    have hlexicals := hl.tail.tail.tail.left
    rw [kinds_of_repeated (by rintro _ _ ⟨-⟩; rfl) hnames] at hlexicals hnames
    have hword : (Token.Kind.keyword word).isLexical = true := by
      rcases hw with rfl | rfl <;> decide
    have hclose : Spaced true [⟨"", .rbracket⟩, ⟨" ", .rbrace⟩] :=
      .mark isGap_empty rfl rfl (.mark isGap_space rfl rfl trivial)
    have hnamesSpaced : Spaced false (words names ++ [⟨"", .rbracket⟩, ⟨" ", .rbrace⟩]) :=
      (spaced_words hlexicals).append hclose
    have hinherit : Spaced false
        (⟨" ", .ident "inherit"⟩ :: ⟨" ", .lbracket⟩ ::
          (words names ++ [⟨"", .rbracket⟩, ⟨" ", .rbrace⟩])) :=
      spaced_word isGap_space nofun (by decide) (.mark isGap_space rfl rfl hnamesSpaced)
    rw [layoutGroup_some, map_fullName hlexicals]
    refine ⟨?_, isGap_newLine style 1, hword, fun _ _ => newLine_ne_empty style 1,
      .mark isGap_space rfl rfl hinherit⟩
    show GroupForm (.keyword word :: .lbrace :: .ident "inherit" :: .lbracket ::
      Layout.kinds (words names ++ _)) _
    rw [kinds_append, kinds_words]
    exact .mk hw (.mk hnames)

theorem writes_optional {kinds : List Token.Kind} {groups : List (String × List QualifiedName)}
    (h : Repeated GroupForm kinds groups) (hl : AllLexical kinds) (style : PrintStyle)
    {word : String} (hw : word = "domainevents" ∨ word = "commands") :
    Writes (Repeated GroupForm) (layoutGroup style word (groups.lookup word))
      ((groups.lookup word).map (word, ·)).toList := by
  cases hlookup : groups.lookup word with
  | none => exact ⟨.nil, trivial⟩
  | some bases =>
    obtain ⟨before, after, rfl, -⟩ := List.lookup_eq_some_iff.1 hlookup
    obtain ⟨ks, hform, hsub⟩ := exists_of_mem_repeated h (List.mem_append_right _ (.head _))
    have hlexical : AllLexical ks := fun kind hk => hl kind (hsub kind hk)
    obtain ⟨hgroup, hspaced⟩ : Writes GroupForm (layoutGroup style word (some bases)) (word, bases) := by
      cases hform with
      | mk _ hbases => exact writes_group hbases hlexical.tail style hw
    refine ⟨?_, hspaced⟩
    rw [← List.append_nil (Layout.kinds _)]
    exact .cons hgroup .nil

/-- The groups that are printed have different words and are the ones that were given. -/
theorem lookup_printed (events commands : Option (List QualifiedName)) :
    let printed := (events.map ("domainevents", ·)).toList ++ (commands.map ("commands", ·)).toList
    (printed.map Prod.fst).Nodup ∧ printed.lookup "domainevents" = events ∧
      printed.lookup "commands" = commands := by
  cases events <;> cases commands <;> exact ⟨by simp, rfl, rfl⟩

theorem writes_conventions {kinds : List Token.Kind} {c : Conventions}
    (h : ConventionsForm kinds c) (hl : AllLexical kinds) (style : PrintStyle) {gap : String}
    (hg : IsGap gap) : Writes ConventionsForm (c.layout style gap) c := by
  cases h with
  | @mk kinds groups hgroups hnodup =>
    have hl := hl.tail.tail.left
    obtain ⟨hevents, heventsSpaced⟩ := writes_optional hgroups hl style (.inl rfl)
    obtain ⟨hcommands, hcommandsSpaced⟩ := writes_optional hgroups hl style (.inr rfl)
    obtain ⟨hprinted, hlookupEvents, hlookupCommands⟩ :=
      lookup_printed (groups.lookup "domainevents") (groups.lookup "commands")
    have hclose : Spaced true [⟨"", .rparen⟩] := .mark isGap_empty rfl rfl trivial
    have hform := ConventionsForm.mk (hevents.append hcommands) hprinted
    rw [hlookupEvents, hlookupCommands] at hform
    have hlayout : layout style gap ⟨groups.lookup "domainevents", groups.lookup "commands", .none⟩ =
        ⟨gap, .lparen⟩ :: ⟨"", .ident "defconventions"⟩ ::
          (layoutGroup style "domainevents" (groups.lookup "domainevents") ++
            layoutGroup style "commands" (groups.lookup "commands") ++ [⟨"", .rparen⟩]) :=
      rfl
    rw [hlayout]
    refine ⟨?_, .mark hg rfl rfl ⟨isGap_empty, by decide, nofun,
      (heventsSpaced.append hcommandsSpaced).append hclose⟩⟩
    show ConventionsForm (.lparen :: .ident "defconventions" ::
      Layout.kinds (layoutGroup style _ _ ++ layoutGroup style _ _ ++ _)) _
    rw [kinds_append, kinds_append]
    exact hform

end Conventions

/-! ## Namespaces and documents -/

namespace Namespace

open Layout

theorem writes_namespace {kinds : List Token.Kind} {n : Namespace} (h : NamespaceForm kinds n)
    (hl : AllLexical kinds) (style : PrintStyle) {gap : String} (hg : IsGap gap) :
    Writes NamespaceForm (n.layout style gap) n := by
  cases h with
  | @mk _ _ name _ hname hdeclarations =>
    have hl := hl.tail.tail
    obtain ⟨hform, hlexical⟩ := Declaration.isLexical_of_nameForm hname hl.left
    obtain ⟨hforms, hspaced⟩ := Writes.repeated
      (fun h hl => Declaration.writes_declaration h hl style (isGap_newLine style 1) 1)
      hdeclarations hl.right.left
    unfold layout
    rw [fullName_of_isLexical hlexical]
    refine ⟨?_, Declaration.spaced_form hg (by decide) hlexical hspaced⟩
    rw [Declaration.kinds_form]
    exact .mk hform hforms

end Namespace

namespace Document

open Layout

theorem writes_document {kinds : List Token.Kind} {d : Document} (h : DocumentForm kinds d)
    (hl : AllLexical kinds) (style : PrintStyle) :
    ∃ l gap, d.layout style = l ++ [⟨gap, .eof⟩] ∧ IsGap gap ∧ Writes DocumentForm l d := by
  have later : ∀ {kinds n}, NamespaceForm kinds n → AllLexical kinds →
      Writes NamespaceForm (n.layout style formGap) n :=
    fun h hl => Namespace.writes_namespace h hl style isGap_formGap
  cases h with
  | bare hnamespaces =>
    cases hnamespaces with
    | nil => exact ⟨[], "", rfl, isGap_empty, .bare .nil, trivial⟩
    | cons hfirst hrest =>
      obtain ⟨hform, hspaced⟩ := Namespace.writes_namespace hfirst hl.left style isGap_empty
      obtain ⟨hforms, hspaceds⟩ := Writes.repeated later hrest hl.right
      refine ⟨_, "\n", rfl, isGap_line, ?_, hspaced.append hspaceds⟩
      rw [kinds_append]
      exact .bare (.cons hform hforms)
  | conventional hconventions hnamespaces =>
    obtain ⟨hform, hspaced⟩ := Conventions.writes_conventions hconventions hl.left style isGap_empty
    obtain ⟨hforms, hspaceds⟩ := Writes.repeated later hnamespaces hl.right
    refine ⟨_, "\n", rfl, isGap_line, ?_, hspaced.append hspaceds⟩
    rw [kinds_append]
    exact .conventional hform hforms

end Document

/-! ## Places do not show -/

theorem Property.layoutList_unplaced (style : PrintStyle) (properties : List Property) :
    layoutList style (properties.map unplaced) = layoutList style properties := by
  cases properties with
  | nil => rfl
  | cons first rest =>
    rw [List.map_cons, layoutList_cons, layoutList_cons, List.flatMap_map]
    rfl

namespace Declaration

theorem layoutValue_unplaced (style : PrintStyle) (properties : List Property) :
    layoutValue style (properties.map Property.unplaced) = layoutValue style properties := by
  cases properties with
  | nil => rfl
  | cons first rest =>
    cases rest with
    | nil => obtain ⟨_ | name, _ | type, span⟩ := first <;> rfl
    | cons second rest =>
      have hlist := Property.layoutList_unplaced style (first :: second :: rest)
      obtain ⟨_ | name, _ | type, span⟩ := first <;> exact hlist

theorem layoutCommand_unplaced (style : PrintStyle) (properties : List Property) :
    layoutCommand style (properties.map Property.unplaced) = layoutCommand style properties := by
  unfold layoutCommand
  rw [List.isEmpty_map, Property.layoutList_unplaced]

theorem layoutNested_unplaced (style : PrintStyle) (depth : Nat) (r : Record) :
    layoutNested style depth r.unplaced = layoutNested style depth r := by
  unfold layoutNested
  rw [show layoutCommand style r.unplaced.properties = _ from
    layoutCommand_unplaced style r.properties]
  rfl

theorem layoutBody_unplaced (style : PrintStyle) (depth : Nat) (d : Declaration) :
    layoutBody style depth d.unplaced = layoutBody style depth d := by
  cases d with
  | record kind body =>
    cases kind with
    | valueType => exact layoutValue_unplaced style body.properties
    | command => exact layoutCommand_unplaced style body.properties
    | domainEvent => exact Property.layoutList_unplaced style body.properties
    | dto => exact Property.layoutList_unplaced style body.properties
  | enumeration body => rfl
  | service body =>
    show (body.commands.map Record.unplaced).flatMap _ = body.commands.flatMap _
    rw [List.flatMap_map]
    congr 1
    funext r
    exact layoutNested_unplaced style (depth + 1) r

theorem layout_unplaced (style : PrintStyle) (gap : String) (depth : Nat) (d : Declaration) :
    d.unplaced.layout style gap depth = d.layout style gap depth := by
  have hkind : d.unplaced.kind = d.kind := by cases d <;> rfl
  have hname : d.unplaced.name = d.name := by cases d <;> rfl
  unfold layout
  rw [layoutBody_unplaced, hkind, hname]

end Declaration

theorem Namespace.layout_unplaced (style : PrintStyle) (gap : String) (n : Namespace) :
    n.unplaced.layout style gap = n.layout style gap := by
  have hdeclarations : n.unplaced.declarations.flatMap
      (Declaration.layout style (style.newLine 1) 1) =
        n.declarations.flatMap (Declaration.layout style (style.newLine 1) 1) := by
    show (n.declarations.map Declaration.unplaced).flatMap _ = _
    rw [List.flatMap_map]
    congr 1
    funext d
    exact Declaration.layout_unplaced style _ _ d
  unfold layout
  rw [hdeclarations]
  rfl

theorem Document.layout_unplaced (style : PrintStyle) (d : Document) :
    d.unplaced.layout style = d.layout style := by
  have hrest : ∀ namespaces : List Namespace,
      (namespaces.map Namespace.unplaced).flatMap (Namespace.layout style formGap) =
        namespaces.flatMap (Namespace.layout style formGap) := by
    intro namespaces
    rw [List.flatMap_map]
    congr 1
    funext n
    exact Namespace.layout_unplaced style formGap n
  obtain ⟨_ | conventions, namespaces⟩ := d
  · cases namespaces with
    | nil => rfl
    | cons first rest =>
      show Namespace.layout style "" first.unplaced ++ (rest.map _).flatMap _ ++ _ = _
      rw [hrest, Namespace.layout_unplaced]
      rfl
  · show Conventions.layout style "" conventions.unplaced ++ (namespaces.map _).flatMap _ ++ _ = _
    rw [hrest]
    rfl

/-! ## Reading back -/

theorem Layout.text_eof (l : Layout) (gap : String) : Layout.text (l ++ [⟨gap, .eof⟩]) = l.text ++ gap := by
  rw [Layout.text_append]
  congr 1
  exact String.append_empty

theorem Document.exists_parse_print_of_form {kinds : List Token.Kind} {d : Document}
    (h : DocumentForm kinds d.unplaced) (hl : AllLexical kinds) (style : PrintStyle) :
    ∃ d', Document.parse (d.print style) = .ok d' ∧ d'.unplaced = d.unplaced := by
  obtain ⟨l, gap, hlayout, hg, hform, hspaced⟩ := writes_document h hl style
  apply exists_parse_of_documentForm
  rw [layout_unplaced] at hlayout
  have hprint : d.print style = l.text ++ gap := by
    unfold print
    rw [hlayout, Layout.text_eof]
  rw [hprint, Layout.sentence_text hspaced.of_true hg]
  exact hform

/-- **A document that was read and is printed is read back**, in every style and up to places. -/
theorem Document.exists_parse_print {source : String} {d : Document}
    (h : Document.parse source = .ok d) (style : PrintStyle) :
    ∃ d', Document.parse (d.print style) = .ok d' ∧ d'.unplaced = d.unplaced :=
  exists_parse_print_of_form (documentForm_of_parse h)
    (fun _ hk => Token.isLexical_of_mem_sentence hk) style

/-- **A declaration that was read and is printed is read back**, up to places. -/
theorem Declaration.exists_parse_print {source : String} {d : Declaration}
    (h : Declaration.parse source = .ok d) :
    ∃ d', Declaration.parse d.print = .ok d' ∧ d'.unplaced = d.unplaced := by
  obtain ⟨hform, hspaced⟩ := writes_declaration (declarationForm_of_parse h)
    (fun kind hk => Token.isLexical_of_mem_sentence hk) .standard Layout.isGap_empty 0
  apply exists_parse_of_declarationForm
  rw [layout_unplaced] at hform hspaced
  have hprint : d.print = (d.layout .standard "" 0).text ++ "" := String.append_empty.symm
  rw [hprint, Layout.sentence_text hspaced.of_true Layout.isGap_empty]
  exact hform

/-- **Printing and reading back.**  What was read, a whole source or one declaration, is printed as a
text that is read as the same tree, up to places.  The style of a printed source does not matter. -/
theorem parse_print_unplaced :
    (∀ (source : String) (d : Document) (style : PrintStyle), Document.parse source = .ok d →
      ∃ d', Document.parse (d.print style) = .ok d' ∧ d'.unplaced = d.unplaced) ∧
    ∀ (source : String) (d : Declaration), Declaration.parse source = .ok d →
      ∃ d', Declaration.parse d.print = .ok d' ∧ d'.unplaced = d.unplaced :=
  ⟨fun _ _ style h => Document.exists_parse_print h style,
    fun _ _ h => Declaration.exists_parse_print h⟩

namespace Shop

/-- A source with one group of conventions and an array in parentheses. -/
def source : String :=
  "(defconventions :commands\x7binherit[A]\x7d)(namespace S(defdto L(((Int32)[])N)))"

theorem toBool_parse_source : (Document.parse source).toBool = true := by
  decide +kernel

theorem parse_print_source :
    ∃ d d', Document.parse source = .ok d ∧ Document.parse (d.print ⟨3, "It"⟩) = .ok d' ∧
      d'.unplaced = d.unplaced := by
  cases h : Document.parse source with
  | error e =>
    have hok := toBool_parse_source
    rw [h] at hok
    cases hok
  | ok d =>
    obtain ⟨d', hd', heq⟩ := parse_print_unplaced.1 source d ⟨3, "It"⟩ h
    exact ⟨d, d', rfl, hd', heq⟩

end Shop

end DomainForms
