import DomainForms.Proofs.Grammar.Keeps

/-!
# What is read before a fault can be completed

Every parser of the language keeps to the phrases of its rule: when it stops at a fault, some tokens
that can be written complete what it has read to a phrase.  This holds wherever a token is refused,
also where the choice between the two forms of a value type turns out to be the wrong one.

* `TypeRef.keeps_reader`: types, whose parentheses are closed one by one.
* `Declaration.keeps_valueProperties`: value types, in whichever form the look-ahead settles on.
* `Declaration.keeps_reader`: declarations.
* `Document.keeps_groups`: the groups of conventions, each at most once.
* `Document.keeps_reader`: **whole sources.**
-/

namespace DomainForms

open Grammar Grammar.Parser
open Token (Kind)

/-! ## Types -/

namespace TypeRef

theorem isPhraseToken_of_typeForm {symbol : TypeSymbol} {kinds : List Kind} {t : TypeRef}
    (h : TypeForm symbol kinds t) : ∀ kind ∈ kinds, kind.isPhraseToken = true := by
  induction h with
  | primitive _ => simp [Kind.isPhraseToken]
  | nullable _ => simp [Kind.isPhraseToken]
  | string _ => simp [Kind.isPhraseToken]
  | named _ _ _ => simp [Kind.isPhraseToken]
  | parens _ ih => simpa [Kind.isPhraseToken, or_imp, forall_and] using ih
  | plain _ ih => exact ih
  | array _ _ ih => simpa [Kind.isPhraseToken, or_imp, forall_and] using ih

theorem keeps_arraySuffix {kinds : List Kind} {base : TypeRef} (h : TypeForm .base kinds base)
    (tokens : List Token) :
    Keeps ((phrases (TypeForm .type)).leftQuotient kinds) (arraySuffix base) tokens := by
  have hplain : [] ∈ (phrases (TypeForm .type)).leftQuotient kinds :=
    ⟨base, by rw [List.append_nil]; exact .plain h⟩
  refine keeps_peek ?_
  split
  · exact keeps_pure base hplain
  rename_i hf
  split
  · exact keeps_fail _ _ (.of_mem hplain)
  rename_i ha
  have harray : [.lbracket, .rbracket] ∈ (phrases (TypeForm .type)).leftQuotient kinds :=
    ⟨.arrayOf base, .array h (Bool.eq_false_iff.2 ha)⟩
  refine (keeps_advance (Decidable.not_not.1 hf) rfl).mark ⟨[.rbracket], by decide, harray⟩
    fun s rest _ => keeps_peek ?_
  generalize hk : front rest = kind
  cases kind with
  | rbracket =>
    refine (keeps_advance hk rfl).mark (.of_mem harray) fun s rest _ => keeps_peek ?_
    split
    · exact keeps_fail _ _ (.of_mem harray)
    · exact keeps_pure _ harray
  | comma => exact keeps_fail _ _ ⟨[.rbracket], by decide, harray⟩
  | _ => exact keeps_unexpected _ _ ⟨[.rbracket], by decide, harray⟩

theorem keeps_nullableSuffix {name : String} (h : isReserved name = false) (tokens : List Token) :
    Keeps ((phrases (TypeForm .base)).leftQuotient [.ident name])
      (nullableSuffix (ofWritten name)) tokens := by
  have hplain : [] ∈ (phrases (TypeForm .base)).leftQuotient [.ident name] :=
    ⟨ofWritten name, typeForm_ofWritten h⟩
  refine keeps_peek ?_
  split
  · exact keeps_pure _ hplain
  rename_i hf
  generalize hb : ofWritten name = base
  cases base with
  | simple p =>
    have hnullable : [.question] ∈ (phrases (TypeForm .base)).leftQuotient [.ident name] :=
      ⟨.nullable p, .nullable (ofName?_of_ofWritten hb)⟩
    refine (keeps_advance (Decidable.not_not.1 hf) rfl).mark (.of_mem hnullable)
      fun s rest _ => keeps_peek ?_
    split
    · exact keeps_fail _ _ (.of_mem hnullable)
    · exact keeps_pure _ hnullable
  | _ => exact keeps_fail _ _ (.of_mem hplain)

theorem keeps_baseType (tokens : List Token) :
    Keeps (phrases (TypeForm .base)) baseType tokens := by
  have hviable : IsViable (phrases (TypeForm .base)) [] :=
    ⟨[.ident "A"], by decide, .ofName "A", .named (by decide) (by decide) (by decide)⟩
  refine keeps_peek ?_
  generalize hk : front tokens = kind
  cases kind with
  | ident name =>
    show Keeps _ (if isReserved name then _ else _) tokens
    split
    · exact keeps_fail _ _ hviable
    · rename_i hr
      have hn : isReserved name = false := Bool.eq_false_iff.2 hr
      exact (keeps_advance hk rfl).mark (.of_mem ⟨_, typeForm_ofWritten hn⟩)
        fun s rest _ => keeps_nullableSuffix hn rest
  | _ => exact keeps_unexpected _ _ hviable

theorem keeps_reader_lparen {t : Token} (ht : t.kind = .lparen) {tokens : List Token}
    (ih : Keeps (phrases (TypeForm .type)) reader tokens) :
    Keeps (phrases (TypeForm .type)) reader (t :: tokens) := by
  let inner : Parser TypeRef := reader >>= fun type => expect .rparen .typeRef >>= fun _ =>
    arraySuffix type
  have hclose : ∀ {kinds t}, TypeForm .type kinds t →
      .lparen :: kinds ++ [.rparen] ∈ phrases (TypeForm .type) :=
    fun h => ⟨_, .plain (.parens h)⟩
  have hinner : Keeps ((phrases (TypeForm .type)).leftQuotient [.lparen]) inner tokens := by
    refine ih.bind ?_ fun type rest hok => ?_
    · rintro kinds ⟨type, h⟩
      exact ⟨[.rparen], by decide, hclose h⟩
    obtain ⟨kinds, hk, h⟩ := reader_sound hok
    refine ⟨kinds, ⟨hk, isPhraseToken_of_typeForm h⟩, ?_⟩
    refine (keeps_expect rfl _).mark (.of_mem (hclose h)) fun s rest _ => ?_
    refine (keeps_arraySuffix (.parens h) rest).mono fun more hmem => ?_
    simpa [Language.mem_leftQuotient] using hmem
  have hparens : [.ident "A", .rparen] ∈ (phrases (TypeForm .type)).leftQuotient [.lparen] :=
    hclose (.plain (.named (by decide) (by decide) (by decide)))
  have houter : Keeps (phrases (TypeForm .type)) (advance >>= fun _ => inner) (t :: tokens) := by
    have hopen : front (t :: tokens) = .lparen := ht
    refine (keeps_advance hopen rfl).mark ⟨_, by decide, hparens⟩ fun s rest hok => ?_
    cases hok
    exact hinner
  exact houter.congr (reader_lparen ht tokens)

/-- **What is read of a type before a fault can be completed.** -/
theorem keeps_reader (tokens : List Token) : Keeps (phrases (TypeForm .type)) reader tokens := by
  have hplain : ∀ {tokens : List Token}, front tokens ≠ .lparen →
      Keeps (phrases (TypeForm .type)) reader tokens := by
    intro tokens hf
    refine ((keeps_baseType tokens).bind ?_ fun base rest hok => ?_).congr (reader_of_front hf)
    · rintro kinds ⟨base, h⟩
      exact .of_mem ⟨base, .plain h⟩
    · obtain ⟨kinds, hk, h⟩ := baseType_sound hok
      exact ⟨kinds, ⟨hk, isPhraseToken_of_typeForm h⟩, keeps_arraySuffix h rest⟩
  induction tokens with
  | nil => exact hplain nofun
  | cons t tokens ih =>
    by_cases ht : t.kind = .lparen
    · exact keeps_reader_lparen ht ih
    · exact hplain ht

end TypeRef

/-! ## Declarations -/

namespace Declaration

theorem keeps_property (tokens : List Token) : Keeps (phrases PropertyForm) property tokens := by
  refine keeps_here fun start => ?_
  refine ((TypeRef.keeps_reader tokens).seq
    (fun type rest _ => (keeps_simpleName .propertyList).map _) isViable_simple).mono ?_
  rintro _ ⟨_, ⟨_, ht⟩, _, ⟨_, hn⟩, rfl⟩
  exact ⟨_, .mk ht hn⟩

theorem keeps_nextProperty {tokens : List Token} (hf : front tokens = .comma) :
    Keeps (phrases NextPropertyForm) nextProperty tokens := by
  have hnext : ∀ kinds ∈ phrases PropertyForm,
      kinds ∈ (phrases NextPropertyForm).leftQuotient [.comma] := by
    rintro kinds ⟨p, hp⟩
    exact ⟨p, .mk hp⟩
  exact (keeps_advance hf rfl).mark ((keeps_property []).isViable.mono hnext)
    fun s rest _ => (keeps_property rest).mono hnext

theorem keeps_listClose (first : Property) (others : List Property) (tokens : List Token) :
    Keeps {[.rparen]} (do
      if (← peek) = .rparen then
        let _ ← advance
        return first :: others
      else
        unexpected .propertyList "',' or ')'" : Parser (List Property)) tokens := by
  refine keeps_peek ?_
  split
  · exact (keeps_advance ‹_› rfl).map _
  · exact keeps_unexpected _ _ (isViable_mark rfl)

theorem keeps_propertyList (tokens : List Token) :
    Keeps (phrases ListForm) propertyList tokens := by
  have hempty : [.rparen] ∈ (phrases ListForm).leftQuotient [.lparen] := ⟨[], .empty⟩
  refine (keeps_expect rfl _).mark ⟨_, by decide, hempty⟩ fun s tokens _ => keeps_peek ?_
  split
  · exact ((keeps_advance ‹_› rfl).map _).of_single hempty
  · have hclose : IsViable {[.rparen]} [] := isViable_mark rfl
    have hothers : IsViable (phrases (Repeated NextPropertyForm) * {[.rparen]}) [] :=
      .mul (nil_mem_repeated _) hclose
    refine ((keeps_property tokens).seq (fun first rest _ => ?_) hothers).mono ?_
    · refine (keeps_many (fun _ hf => ?_) rest).seq
        (fun others rest _ => keeps_listClose first others rest) hclose
      exact keeps_nextProperty (of_decide_eq_true hf)
    · rintro _ ⟨_, ⟨_, hp⟩, _, ⟨_, ⟨_, hps⟩, _, rfl, rfl⟩, rfl⟩
      exact ⟨_, .cons hp hps⟩

theorem keeps_recordClose (start : Span) (production : Production) (name : String)
    (properties : List Property) (tokens : List Token) :
    Keeps {[.rparen]} (recordClose start production name properties) tokens :=
  (keeps_expect rfl production).map _

theorem keeps_recordBody (start : Span) (production : Production) (tokens : List Token) :
    Keeps (phrases RecordRest) (recordBody start production) tokens := by
  have hlist : ∀ tokens, Keeps (1 + phrases ListForm) optionalList tokens := by
    intro tokens
    refine keeps_peek ?_
    split
    · exact (keeps_propertyList tokens).mono fun _ => Or.inr
    · exact keeps_pure [] (.inl rfl)
  have hclose : IsViable {[.rparen]} [] := isViable_mark rfl
  rw [recordBody_eq]
  refine ((keeps_qualifiedName production).seq (fun name rest _ => (hlist rest).seq
    (fun properties rest _ => keeps_recordClose start production name.1 properties rest) hclose)
    (.mul (.inl rfl) hclose)).mono ?_
  rintro _ ⟨_, ⟨name, hname⟩, _, ⟨_, rfl | ⟨properties, hlist⟩, _, rfl, rfl⟩, rfl⟩
  · exact ⟨_, .bare hname⟩
  · exact ⟨_, .listed hname hlist⟩

theorem keeps_shorthand (tokens : List Token) :
    Keeps (phrases (TypeForm .type)) shorthand tokens :=
  keeps_here fun _ => (TypeRef.keeps_reader tokens).map _

/-- Whichever form of a value type the look-ahead settles on, the parser keeps to that form. -/
theorem keeps_valueProperties (nameSpan : Span) (tokens : List Token) :
    Keeps (1 + phrases (TypeForm .type) + phrases ListForm) (valueProperties nameSpan) tokens := by
  have htype : Keeps (1 + phrases (TypeForm .type) + phrases ListForm) shorthand tokens :=
    (keeps_shorthand tokens).mono fun _ h => .inl (.inr h)
  have hlist : Keeps (1 + phrases (TypeForm .type) + phrases ListForm) propertyList tokens :=
    (keeps_propertyList tokens).mono fun _ => .inr
  generalize hk : front tokens = kind
  cases kind with
  | rparen =>
    exact (keeps_pure [⟨none, none, nameSpan⟩] (.inl (.inl rfl))).congr (valueProperties_bare _ hk)
  | lparen =>
    by_cases hw : wrapsType tokens.tail = true
    · exact htype.congr (by rw [valueProperties, hk]; exact if_pos hw)
    · exact hlist.congr (by rw [valueProperties, hk]; exact if_neg hw)
  | _ => exact htype.congr (by rw [valueProperties, hk])

theorem keeps_valueTypeBody (start : Span) (tokens : List Token) :
    Keeps (phrases ValueRest) (valueTypeBody start) tokens := by
  have hclose : IsViable {[.rparen]} [] := isViable_mark rfl
  rw [valueTypeBody_eq]
  refine ((keeps_qualifiedName .valueType).seq (fun name rest _ =>
    (keeps_valueProperties name.2 rest).seq (fun properties rest _ =>
      keeps_recordClose start .valueType name.1 properties rest) hclose)
    (.mul (.inl (.inl rfl)) hclose)).mono ?_
  rintro _ ⟨_, ⟨name, hname⟩, _, ⟨_, (rfl | ⟨t, ht⟩) | ⟨properties, hlist⟩, _, rfl, rfl⟩, rfl⟩
  · exact ⟨_, .bare hname⟩
  · exact ⟨_, .typed hname ht⟩
  · exact ⟨_, .listed hname hlist⟩

/-! ## Enumerations and services -/

theorem keeps_enumerationBody (start : Span) (tokens : List Token) :
    Keeps (phrases EnumerationRest) (enumerationBody start) tokens := by
  have hvalues := keeps_manyUntil readsFrom_value rfl fun tokens =>
    (keeps_simpleName .enumeration).map Prod.fst
  have hclose : IsViable {[.rparen]} [] := isViable_mark rfl
  have hrest : IsViable (phrases (Repeated SimpleForm) * {[.rbracket]} * {[.rparen]}) [] :=
    (IsViable.mul (nil_mem_repeated _) (isViable_mark rfl)).mul_nil hclose
  have hopen : IsViable {[.lbracket]} [] := isViable_mark rfl
  refine ((keeps_qualifiedName .enumeration).seq (fun name rest _ =>
    (keeps_expect rfl _).seq (fun s rest _ =>
      (hvalues rest).seq (fun values rest _ => (keeps_expect rfl _).map _) hclose) hrest)
    (hopen.mul_nil hrest)).mono ?_
  rintro _ ⟨_, ⟨name, hname⟩, _,
    ⟨_, rfl, _, ⟨_, ⟨_, ⟨values, hvalues⟩, _, rfl, rfl⟩, _, rfl, rfl⟩, rfl⟩, rfl⟩
  refine ⟨⟨name, values, .none⟩, ?_⟩
  simpa using EnumerationRest.mk hname hvalues

theorem keeps_nestedCommand {tokens : List Token} (hf : front tokens = .lparen) :
    Keeps (phrases CommandForm) nestedCommand tokens := by
  have hrest : ∀ kinds ∈ phrases RecordRest,
      kinds ∈ ((phrases CommandForm).leftQuotient [.lparen]).leftQuotient
        [.ident "defcommand"] := by
    rintro kinds ⟨command, h⟩
    exact ⟨command, .mk h⟩
  have hviable := (keeps_recordBody .none .command []).isViable.mono hrest
  refine (keeps_advance hf rfl).mark (hviable.of_leftQuotient (by decide)) fun start rest _ => ?_
  exact (keeps_expectWord (by decide) _).mark hviable fun s rest _ =>
    (keeps_recordBody start .command rest).mono hrest

/-- The commands of a service and its closing parenthesis. -/
def closedCommands : Language Token.Kind :=
  {kinds | ∃ more commands, commands ≠ [] ∧ Repeated CommandForm more commands ∧
    kinds = more ++ [.rparen]}

theorem isViable_commands {kinds : List Token.Kind} {commands : List Record}
    (h : Repeated CommandForm kinds commands) : IsViable closedCommands kinds := by
  let command : List Token.Kind := [.lparen, .ident "defcommand", .ident "A", .rparen]
  have hcommand : CommandForm command ⟨"A", [], .none⟩ := .mk (.bare (.mk (by decide)))
  refine ⟨command ++ [.rparen], by decide, kinds ++ command, commands ++ [⟨"A", [], .none⟩],
    by simp, h.append ?_, ?_⟩
  · exact .cons hcommand .nil
  · rw [List.append_assoc]

theorem keeps_commands (start : Span) (name : String) (tokens : List Token) :
    Keeps closedCommands (do
      let commands ← many (· = .lparen) nestedCommand
      if commands.isEmpty then
        fail .service .emptyService
      else
        let close ← expect .rparen .service
        return (⟨name, commands, start.through close⟩ : Service)) tokens := by
  have hmany : Keeps (phrases (Repeated CommandForm)) (many (· = .lparen) nestedCommand) tokens :=
    keeps_many (fun _ hf => keeps_nestedCommand (of_decide_eq_true hf)) tokens
  refine hmany.bind (fun _ ⟨_, hcommands⟩ => isViable_commands hcommands)
    fun commands rest hok => ?_
  obtain ⟨_, -, htakes⟩ := hmany.taken hok
  obtain ⟨-, kinds, hk, hcommands⟩ := many_sound readsFrom_nestedCommand hok
  refine ⟨kinds, htakes.of_spells hk, ?_⟩
  split
  · exact keeps_fail _ _ (isViable_commands hcommands).leftQuotient
  · rename_i hne
    refine ((keeps_expect rfl _).map _).of_single ⟨kinds, _, ?_, hcommands, rfl⟩
    simpa using hne

theorem keeps_serviceBody (start : Span) (tokens : List Token) :
    Keeps (phrases ServiceRest) (serviceBody start) tokens := by
  refine ((keeps_qualifiedName .service).seq (fun name rest _ => keeps_commands start name.1 rest)
    (isViable_commands .nil)).mono ?_
  rintro _ ⟨_, ⟨name, hname⟩, _, ⟨_, commands, hne, hcommands, rfl⟩, rfl⟩
  exact ⟨_, .mk hname hcommands hne⟩

/-! ## Any declaration -/

theorem keeps_body (start : Span) (kind : Kind) (tokens : List Token) :
    Keeps (phrases (BodyForm kind)) (body start kind) tokens := by
  cases kind with
  | record kind =>
    by_cases hkind : kind = .valueType
    · subst hkind
      refine ((keeps_valueTypeBody start tokens).map _).mono ?_
      rintro kinds ⟨_, h⟩
      exact ⟨_, .valueType h⟩
    · rw [body_record start hkind]
      refine ((keeps_recordBody start _ tokens).map _).mono ?_
      rintro kinds ⟨_, h⟩
      exact ⟨_, .record hkind h⟩
  | enumeration =>
    refine ((keeps_enumerationBody start tokens).map _).mono ?_
    rintro kinds ⟨_, h⟩
    exact ⟨_, .enumeration h⟩
  | service =>
    refine ((keeps_serviceBody start tokens).map _).mono ?_
    rintro kinds ⟨_, h⟩
    exact ⟨_, .service h⟩

theorem isSpellable_keyword (kind : Kind) : (Token.Kind.ident kind.keyword).isSpellable = true := by
  obtain ⟨_ | _ | _ | _⟩ | _ | _ := kind <;> decide

theorem mem_declaration {kind : Kind} {kinds : List Token.Kind}
    (h : kinds ∈ phrases (BodyForm kind)) :
    kinds ∈ ((phrases DeclarationForm).leftQuotient [.lparen]).leftQuotient
      [.ident (Kind.keyword kind)] := by
  obtain ⟨d, h⟩ := h
  exact ⟨d, declarationForm_iff.2 ⟨kind, kinds, rfl, h⟩⟩

/-- **What is read of a declaration before a fault can be completed.** -/
theorem keeps_reader (tokens : List Token) : Keeps (phrases DeclarationForm) reader tokens := by
  have hword : ∀ kind, IsViable (((phrases DeclarationForm).leftQuotient [.lparen]).leftQuotient
      [.ident (Kind.keyword kind)]) [] := fun kind =>
    (keeps_body .none kind []).isViable.mono fun _ => mem_declaration
  have hopen := (hword .service).of_leftQuotient (isSpellable_keyword .service)
  refine (keeps_expect rfl _).mark hopen fun start rest _ => keeps_peek ?_
  cases hkind : introduces? (front rest) with
  | none => exact keeps_unexpected _ _ hopen
  | some kind =>
    refine (keeps_advance (eq_of_introduces? hkind) rfl).mark (hword kind) fun s rest _ => ?_
    exact (keeps_body start kind rest).mono fun _ => mem_declaration

end Declaration

/-! ## Conventions -/

namespace Document

theorem mem_bases {kinds : List Token.Kind}
    (h : kinds ∈ phrases (Repeated NameForm) * {[.rbracket]} * {[.rbrace]}) :
    kinds ∈ (((phrases BasesForm).leftQuotient [.lbrace]).leftQuotient
      [.ident "inherit"]).leftQuotient [.lbracket] := by
  obtain ⟨_, ⟨_, ⟨names, hnames⟩, _, rfl, rfl⟩, _, rfl, rfl⟩ := h
  refine ⟨names.map QualifiedName.parse, ?_⟩
  simpa using BasesForm.mk hnames

theorem keeps_inheritBlock (tokens : List Token) :
    Keeps (phrases BasesForm) inheritBlock tokens := by
  have hnames := keeps_manyUntil readsFrom_name rfl fun tokens =>
    (keeps_qualifiedName .qualifiedName).map Prod.fst
  have hclose : IsViable {[.rbrace]} [] := isViable_mark rfl
  have hlist := ((hnames []).isViable.mul_nil hclose).mono fun _ => mem_bases
  have hword := hlist.of_leftQuotient rfl
  refine (keeps_expect rfl _).mark (hword.of_leftQuotient (by decide)) fun _ _ _ => ?_
  refine (keeps_expectWord (by decide) _).mark hword fun _ _ _ => ?_
  refine (keeps_expect rfl _).mark hlist fun _ rest _ => ?_
  exact ((hnames rest).seq (fun names rest _ => (keeps_expect rfl _).map _) hclose).mono
    fun _ => mem_bases

/-- Groups with different words, all of which are missing from the conventions. -/
def missingGroups (given : Conventions) : Language Token.Kind :=
  {kinds | ∃ gs, Repeated GroupForm kinds gs ∧ (gs.map Prod.fst).Nodup ∧
    ∀ g ∈ gs, given.group g.1 = none}

theorem nil_mem_missingGroups (given : Conventions) : [] ∈ missingGroups given :=
  ⟨[], .nil, .nil, nofun⟩

theorem mem_missingGroups {given : Conventions} {word : String} {kinds more : List Token.Kind}
    {bases : List QualifiedName} (hw : word = "domainevents" ∨ word = "commands")
    (hnone : given.group word = none) (hbases : kinds ∈ phrases BasesForm)
    (hmore : more ∈ missingGroups (given.withGroup word bases)) :
    .keyword word :: (kinds ++ more) ∈ missingGroups given := by
  obtain ⟨gs, hgs, hnodup, hfree⟩ := hmore
  obtain ⟨bases', hbases⟩ := hbases
  exact ⟨(word, bases') :: gs, .cons (.mk hw hbases) hgs, missing_cons hw hnone hgs hnodup hfree⟩

theorem keeps_groupRest {fuel : Nat} {given : Conventions} {word : String}
    (hw : word = "domainevents" ∨ word = "commands") (hnone : given.group word = none)
    (ih : ∀ (given : Conventions) (tokens : List Token),
      Keeps (missingGroups given) (groups fuel given) tokens) (tokens : List Token) :
    Keeps ((missingGroups given).leftQuotient [.keyword word])
      (inheritBlock >>= fun bases => groups fuel (given.withGroup word bases)) tokens := by
  have hbases := keeps_inheritBlock tokens
  refine hbases.bind (fun kinds hkinds => .of_mem ?_) fun bases rest hok => ?_
  · have hlast := nil_mem_missingGroups (given.withGroup word [])
    have hmem := mem_missingGroups hw hnone hkinds hlast
    rwa [List.append_nil] at hmem
  · obtain ⟨kinds, hkinds, htakes⟩ := hbases.taken hok
    exact ⟨kinds, htakes, (ih _ rest).mono fun more => mem_missingGroups hw hnone hkinds⟩

/-- The groups keep to those that are missing, by induction on the bound. -/
theorem keeps_groups (fuel : Nat) : ∀ (given : Conventions) (tokens : List Token),
    Keeps (missingGroups given) (groups fuel given) tokens := by
  induction fuel with
  | zero => exact fun given _ => keeps_pure given (nil_mem_missingGroups given)
  | succ fuel ih =>
    intro given tokens
    have hnil := nil_mem_missingGroups given
    by_cases hk : ∃ word, front tokens = .keyword word
    · obtain ⟨word, hf⟩ := hk
      by_cases hw : word = "domainevents" ∨ word = "commands"
      · obtain ⟨t, others, rfl, ht⟩ := exists_of_front hf nofun
        have hgroups := groups_keyword hw ht fuel given others
        cases hgiven : given.group word with
        | some bases =>
          rw [hgiven] at hgroups
          exact (keeps_fail _ _ (.of_mem hnil)).congr hgroups
        | none =>
          rw [hgiven] at hgroups
          have hrest := keeps_groupRest hw hgiven ih
          exact ((keeps_advance hf rfl).mark (hrest []).isViable fun _ rest _ => hrest rest).congr
            hgroups
      · exact (keeps_unexpected _ _ (.of_mem hnil)).congr (groups_of_other fuel given hf hw)
    · exact (keeps_pure given hnil).congr (groups_of_front _ _ fun word hf => hk ⟨word, hf⟩)

theorem keeps_conventionsBody (start : Span) (tokens : List Token) :
    Keeps ((phrases ConventionsForm).leftQuotient [.lparen]) (conventionsBody start) tokens := by
  have hclose : IsViable {[.rparen]} [] := isViable_mark rfl
  have hgroups : ∀ kinds ∈ missingGroups .empty * {[.rparen]},
      kinds ∈ ((phrases ConventionsForm).leftQuotient [.lparen]).leftQuotient
        [.ident "defconventions"] := by
    rintro _ ⟨_, ⟨gs, hgs, hnodup, -⟩, _, rfl, rfl⟩
    exact ⟨_, .mk hgs hnodup⟩
  have hviable := (IsViable.mul (nil_mem_missingGroups .empty) hclose).mono hgroups
  refine (keeps_expectWord (by decide) _).mark hviable fun s rest _ => ?_
  exact ((keeps_groups 3 .empty rest).seq (fun given rest _ => (keeps_expect rfl _).map _)
    hclose).mono hgroups

/-! ## Namespaces and whole sources -/

theorem keeps_namespaceBody (start : Span) (tokens : List Token) :
    Keeps ((phrases NamespaceForm).leftQuotient [.lparen]) (namespaceBody start) tokens := by
  have hclose : IsViable {[.rparen]} [] := isViable_mark rfl
  have hrest : ∀ kinds ∈ phrases NameForm * (phrases (Repeated DeclarationForm) * {[.rparen]}),
      kinds ∈ ((phrases NamespaceForm).leftQuotient [.lparen]).leftQuotient
        [.ident "namespace"] := by
    rintro _ ⟨_, ⟨name, hname⟩, _, ⟨_, ⟨declarations, hdeclarations⟩, _, rfl, rfl⟩, rfl⟩
    exact ⟨_, .mk hname hdeclarations⟩
  have hdeclarations : IsViable (phrases (Repeated DeclarationForm) * {[.rparen]}) [] :=
    .mul (nil_mem_repeated _) hclose
  refine (keeps_expectWord (by decide) _).mark ((isViable_name.mul_nil hdeclarations).mono hrest)
    fun s rest _ => ?_
  refine ((keeps_qualifiedName .scope).seq (fun name rest _ => ?_) hdeclarations).mono hrest
  exact (keeps_many (fun tokens _ => Declaration.keeps_reader tokens) rest).seq
    (fun declarations rest _ => (keeps_expect rfl _).map _) hclose

theorem keeps_laterForm {tokens : List Token} (hf : front tokens = .lparen) :
    Keeps (phrases NamespaceForm) laterForm tokens := by
  have hviable := (keeps_namespaceBody .none []).isViable
  refine (keeps_advance hf rfl).mark hviable fun start rest _ => keeps_peek ?_
  generalize front rest = kind
  by_cases hd : kind = .ident "defconventions"
  · subst hd
    exact keeps_fail _ _ hviable
  by_cases hn : kind = .ident "namespace"
  · subst hn
    exact keeps_namespaceBody start rest
  · simp only
    exact keeps_unexpected _ _ hviable

theorem keeps_leadingConventions (tokens : List Token) :
    Keeps (1 + phrases ConventionsForm) leadingConventions tokens := by
  by_cases hs : startsWithConventions tokens = true
  · have hopen : front tokens = .lparen := of_decide_eq_true (Bool.and_eq_true_iff.1 hs).1
    have hform : Keeps (phrases ConventionsForm)
        (advance >>= fun start => some <$> conventionsBody start) tokens :=
      (keeps_advance hopen rfl).mark (keeps_conventionsBody .none []).isViable
        fun start rest _ => (keeps_conventionsBody start rest).map some
    exact (hform.mono fun _ => .inr).congr (if_pos hs)
  · exact (keeps_pure none (.inl rfl)).congr (if_neg hs)

/-- **What is read of a source before a fault can be completed.** -/
theorem keeps_reader (tokens : List Token) : Keeps (phrases DocumentForm) reader tokens := by
  have hlast : IsViable (1 : Language Token.Kind) [] := .of_mem rfl
  have hforms : IsViable (phrases (Repeated NamespaceForm) * 1) [] :=
    .mul (nil_mem_repeated _) hlast
  refine ((keeps_leadingConventions tokens).seq (fun conventions rest _ => ?_) hforms).mono ?_
  · refine (keeps_many (fun tokens hf => keeps_laterForm (of_decide_eq_true hf)) rest).seq
      (fun namespaces rest _ => (keeps_endOfInput .document).map _) hlast
  · rw [mul_one]
    rintro _ ⟨_, rfl | ⟨c, hc⟩, _, ⟨namespaces, hnamespaces⟩, rfl⟩
    · exact ⟨_, .bare hnamespaces⟩
    · exact ⟨_, .conventional hc hnamespaces⟩

end Document

end DomainForms
