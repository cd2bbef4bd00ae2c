import DomainForms.Document.Parser
import DomainForms.Proofs.Grammar.Declarations
import DomainForms.Proofs.Token.Lexer

/-!
# Documents are read as the grammar has them

The parser of a whole source reads its rule: what it accepts is a phrase of the grammar with the tree
that the grammar gives it, and it accepts every phrase.

* `Document.reads_conventionsBody`: the groups of conventions, each at most once.
* `Document.reader_sound`, `Document.reader_complete`: a whole source.
* `typeRef_parse_iff`: a source that is just a type.
-/

namespace DomainForms

/-! ## Groups of conventions -/

namespace Conventions

/-- The group that a word names. -/
def group (c : Conventions) (word : String) : Option (List QualifiedName) :=
  if word = "domainevents" then c.domainEvents else c.commands

/-- Conventions with one more group. -/
def withGroup (c : Conventions) (word : String) (bases : List QualifiedName) : Conventions :=
  if word = "domainevents" then { c with domainEvents := some bases }
  else { c with commands := some bases }

/-- Conventions with groups added one by one. -/
def withGroups (c : Conventions) (groups : List (String × List QualifiedName)) : Conventions :=
  groups.foldl (fun c g => c.withGroup g.1 g.2) c

/-- The number of groups that are not given yet. -/
def missing (c : Conventions) : Nat :=
  (if c.domainEvents.isSome then 0 else 1) + (if c.commands.isSome then 0 else 1)

theorem group_withGroup_self (c : Conventions) (word : String) (bases : List QualifiedName) :
    (c.withGroup word bases).group word = some bases := by
  unfold withGroup group
  split <;> rfl

theorem group_withGroup_of_ne (c : Conventions) (bases : List QualifiedName) {word other : String}
    (hw : word = "domainevents" ∨ word = "commands")
    (ho : other = "domainevents" ∨ other = "commands") (hne : other ≠ word) :
    (c.withGroup word bases).group other = c.group other := by
  rcases hw with rfl | rfl
  · rcases ho with rfl | rfl
    · exact absurd rfl hne
    · rfl
  · rcases ho with rfl | rfl
    · rfl
    · exact absurd rfl hne

theorem missing_withGroup {c : Conventions} {word : String} (bases : List QualifiedName)
    (hw : word = "domainevents" ∨ word = "commands") (h : c.group word = none) :
    (c.withGroup word bases).missing + 1 = c.missing := by
  rcases hw with rfl | rfl
  · have hnone : c.domainEvents = none := h
    unfold missing
    rw [hnone]
    show 0 + (if c.commands.isSome then 0 else 1) + 1 = 1 + (if c.commands.isSome then 0 else 1)
    rw [Nat.zero_add, Nat.add_comm]
  · have hnone : c.commands = none := h
    unfold missing
    rw [hnone]
    rfl

theorem group_withGroups {word : String} (hw : word = "domainevents" ∨ word = "commands") :
    ∀ {groups : List (String × List QualifiedName)} (c : Conventions),
      (groups.map Prod.fst).Nodup →
      (∀ g ∈ groups, g.1 = "domainevents" ∨ g.1 = "commands") →
      (c.withGroups groups).group word = (groups.lookup word).or (c.group word) := by
  intro groups
  induction groups with
  | nil =>
    intro c _ _
    rfl
  | cons g groups ih =>
    intro c hn hv
    obtain ⟨other, bases⟩ := g
    obtain ⟨hnot, hnodup⟩ := List.nodup_cons.1 hn
    show ((c.withGroup other bases).withGroups groups).group word = _
    rw [ih _ hnodup fun g hg => hv g (.tail _ hg)]
    by_cases heq : word = other
    · subst heq
      have hnone : groups.lookup word = none := by
        rw [List.lookup_eq_none_iff]
        intro g hg
        rw [bne_iff_ne]
        rintro rfl
        exact hnot (List.mem_map.2 ⟨g, hg, rfl⟩)
      rw [hnone, group_withGroup_self, List.lookup_cons_self]
      rfl
    · rw [group_withGroup_of_ne c bases (hv _ (.head _)) hw heq, List.lookup_cons,
        beq_eq_false_iff_ne.2 heq]

end Conventions

namespace Document

open Grammar Grammar.Parser

theorem groups_keyword {t : Token} {word : String} (hw : word = "domainevents" ∨ word = "commands")
    (ht : t.kind = .keyword word) (fuel : Nat) (given : Conventions) (others : List Token) :
    groups (fuel + 1) given (t :: others) =
      if (given.group word).isSome then
        .error ⟨.conventionGroup, .repeatedGroup word, t :: others⟩
      else
        (inheritBlock >>= fun bases => groups fuel (given.withGroup word bases)) others := by
  obtain ⟨kind, span⟩ := t
  rcases hw with rfl | rfl
  · cases ht
    show (if given.domainEvents.isSome then _ else _ : Parser Conventions) _ = _
    rw [branch_apply]
    rfl
  · cases ht
    show (if given.commands.isSome then _ else _ : Parser Conventions) _ = _
    rw [branch_apply]
    rfl

theorem groups_of_front (fuel : Nat) (given : Conventions) {tokens : List Token}
    (h : ∀ word, front tokens ≠ .keyword word) : groups fuel given tokens = .ok (given, tokens) := by
  cases fuel with
  | zero => rfl
  | succ fuel =>
    unfold groups
    rw [peek_bind]
    generalize hk : front tokens = kind
    cases kind with
    | keyword word => exact absurd hk (h word)
    | _ => rfl

theorem groups_of_other (fuel : Nat) (given : Conventions) {tokens : List Token} {word : String}
    (hf : front tokens = .keyword word) (hw : ¬ (word = "domainevents" ∨ word = "commands")) :
    groups (fuel + 1) given tokens =
      unexpected .conventionGroup "':domainevents' or ':commands'" tokens := by
  obtain ⟨hd, hc⟩ := not_or.1 hw
  unfold groups
  rw [peek_bind, hf]
  simp only

theorem groups_of_keyword {fuel : Nat} {given c : Conventions} {tokens rest : List Token}
    {word : String} (hf : front tokens = .keyword word)
    (h : groups (fuel + 1) given tokens = .ok (c, rest)) :
    word = "domainevents" ∨ word = "commands" := by
  refine Decidable.byContradiction fun hno => ?_
  rw [groups_of_other fuel given hf hno] at h
  exact absurd h unexpected_ne_ok

theorem readsFrom_name :
    ReadsFrom (· ≠ .rbracket) (Prod.fst <$> qualifiedName .qualifiedName) id NameForm := by
  refine (reads_qualifiedName .qualifiedName).map.readsFrom ?_
  rintro _ _ ⟨h⟩
  exact ⟨_, _, rfl, rfl⟩

theorem reads_names :
    Reads (manyUntil .rbracket (Prod.fst <$> qualifiedName .qualifiedName)) (List.map id)
      (Closed NameForm .rbracket) :=
  readsFrom_name.manyUntil nofun

theorem reads_inheritBlock : Reads inheritBlock id BasesForm where
  sound := by
    intro tokens rest bases h
    obtain ⟨s₁, r₁, h₁, hr₁⟩ := bind_eq_ok.1 h
    obtain ⟨s₂, r₂, h₂, hr₂⟩ := bind_eq_ok.1 hr₁
    obtain ⟨s₃, r₃, h₃, hr₃⟩ := bind_eq_ok.1 hr₂
    obtain ⟨names, r₄, hnames, hr₄⟩ := bind_eq_ok.1 hr₃
    obtain ⟨s₅, r₅, h₅, hr₅⟩ := bind_eq_ok.1 hr₄
    obtain ⟨rfl, rfl⟩ := pure_eq_ok.1 hr₅
    obtain ⟨t₁, rfl, ht₁, -⟩ := exists_of_expect h₁ nofun
    obtain ⟨t₂, rfl, ht₂, -⟩ := expectWord_eq_ok.1 h₂
    obtain ⟨t₃, rfl, ht₃, -⟩ := exists_of_expect h₃ nofun
    obtain ⟨_, hm, hclosed⟩ := reads_names.sound hnames
    obtain ⟨t₅, rfl, ht₅, -⟩ := exists_of_expect h₅ nofun
    rw [List.map_id] at hclosed
    obtain ⟨hrepeated⟩ := hclosed
    refine ⟨_, .cons ht₁ (.cons ht₂ (.cons ht₃ (hm.append (.single ht₅)))), ?_⟩
    rw [List.append_assoc]
    exact .mk hrepeated
  complete := by
    rintro tokens rest _ _ ⟨hnames⟩ ⟨t₁, _, rfl, ht₁, t₂, _, rfl, ht₂, t₃, r₃, rfl, ht₃, hs⟩
    rw [List.append_cons] at hs
    obtain ⟨r₄, hm, t₅, r₅, rfl, ht₅, rfl⟩ := spells_append.1 hs
    obtain ⟨names, hread, rfl⟩ := reads_names.complete (.mk hnames) hm
    refine ⟨names.map QualifiedName.parse, ?_, ?_⟩
    · unfold inheritBlock
      rw [bind_of_ok (expect_of_kind ht₁ _ _),
        bind_of_ok (expectWord_eq_ok.2 ⟨t₂, rfl, ht₂, rfl⟩),
        bind_of_ok (expect_of_kind ht₃ _ _), bind_of_ok hread,
        bind_of_ok (expect_of_kind ht₅ _ _)]
      rfl
    · rw [List.map_id]
      rfl

theorem word_of_groupForm {kinds : List Token.Kind} {groups : List (String × List QualifiedName)}
    (h : Repeated GroupForm kinds groups) :
    ∀ g ∈ groups, g.1 = "domainevents" ∨ g.1 = "commands" := by
  induction h with
  | nil => exact fun g hg => absurd hg List.not_mem_nil
  | cons hg _ ih =>
    obtain ⟨hw, -⟩ := hg
    intro g hg
    rcases List.mem_cons.1 hg with rfl | hg
    · exact hw
    · exact ih g hg

theorem missing_cons {given : Conventions} {word : String} {bases bases' : List QualifiedName}
    {kinds : List Token.Kind} {gs : List (String × List QualifiedName)}
    (hw : word = "domainevents" ∨ word = "commands") (hnone : given.group word = none)
    (hgs : Repeated GroupForm kinds gs) (hnodup : (gs.map Prod.fst).Nodup)
    (hfree : ∀ g ∈ gs, (given.withGroup word bases').group g.1 = none) :
    (((word, bases) :: gs).map Prod.fst).Nodup ∧
      ∀ g ∈ (word, bases) :: gs, given.group g.1 = none := by
  have hne : ∀ g ∈ gs, g.1 ≠ word := by
    rintro g hg rfl
    have hgiven := hfree g hg
    rw [Conventions.group_withGroup_self] at hgiven
    cases hgiven
  refine ⟨List.nodup_cons.2 ⟨fun hmem => ?_, hnodup⟩, fun g hg => ?_⟩
  · obtain ⟨g, hg, heq⟩ := List.mem_map.1 hmem
    exact hne g hg heq
  · rcases List.mem_cons.1 hg with rfl | hg
    · exact hnone
    · rw [← hfree g hg, Conventions.group_withGroup_of_ne given bases' hw
        (word_of_groupForm hgs g hg) (hne g hg)]

/-- What is read as groups is a row of groups with different words, none of them given before. -/
theorem groups_sound :
    ∀ {fuel : Nat} {given c : Conventions} {tokens rest : List Token},
      groups fuel given tokens = .ok (c, rest) →
      ∃ kinds gs, Spells kinds tokens rest ∧ Repeated GroupForm kinds gs ∧
        (gs.map Prod.fst).Nodup ∧ (∀ g ∈ gs, given.group g.1 = none) ∧
        c = given.withGroups gs := by
  intro fuel
  induction fuel with
  | zero =>
    intro given c tokens rest h
    obtain ⟨rfl, rfl⟩ := pure_eq_ok.1 h
    exact ⟨[], [], rfl, .nil, .nil, nofun, rfl⟩
  | succ fuel ih =>
    intro given c tokens rest h
    by_cases hk : ∃ word, front tokens = .keyword word
    · obtain ⟨word, hf⟩ := hk
      have hw := groups_of_keyword hf h
      obtain ⟨t, others, rfl, ht⟩ := exists_of_front hf nofun
      rw [groups_keyword hw ht] at h
      split at h
      · cases h
      · rename_i hnone
        rw [Bool.not_eq_true, Option.isSome_eq_false_iff, Option.isNone_iff_eq_none] at hnone
        obtain ⟨bases, middle, hbases, hmore⟩ := bind_eq_ok.1 h
        obtain ⟨kinds, hkinds, hform⟩ := reads_inheritBlock.sound hbases
        obtain ⟨more, gs, hm, hgs, hnodup, hfree, rfl⟩ := ih hmore
        obtain ⟨hnodup', hfree'⟩ := missing_cons hw hnone hgs hnodup hfree
        exact ⟨_, (word, bases) :: gs, .cons ht (hkinds.append hm), .cons (.mk hw hform) hgs,
          hnodup', hfree', rfl⟩
    · rw [groups_of_front _ _ fun word hf => hk ⟨word, hf⟩] at h
      cases h
      exact ⟨[], [], rfl, .nil, .nil, nofun, rfl⟩

theorem groups_complete {rest : List Token} (hrest : ∀ word, front rest ≠ .keyword word) :
    ∀ {kinds : List Token.Kind} {gs : List (String × List QualifiedName)},
      Repeated GroupForm kinds gs → ∀ {fuel : Nat} {given : Conventions} {tokens : List Token},
      (gs.map Prod.fst).Nodup → (∀ g ∈ gs, given.group g.1 = none) → given.missing < fuel →
      Spells kinds tokens rest → groups fuel given tokens = .ok (given.withGroups gs, rest) := by
  intro kinds gs h
  induction h with
  | nil =>
    intro fuel given tokens _ _ _ hs
    cases hs
    exact groups_of_front _ _ hrest
  | @cons kinds more g gs hg hgs ih =>
    intro fuel given tokens hn hfree hfuel hs
    obtain ⟨hw, hbases⟩ := hg
    obtain ⟨hnot, hnodup⟩ := List.nodup_cons.1 hn
    obtain ⟨fuel, rfl⟩ := Nat.exists_eq_succ_of_ne_zero (Nat.ne_zero_of_lt hfuel)
    obtain ⟨middle, ⟨t, others, rfl, ht, hk⟩, hm⟩ := spells_append.1 hs
    obtain ⟨bases, hread, rfl⟩ := reads_inheritBlock.complete hbases hk
    have hnone := hfree _ (.head _)
    have hvalid := word_of_groupForm hgs
    -- the group that is read is missing no longer, so the fuel lasts for the others
    have hmissing := Conventions.missing_withGroup bases hw hnone
    rw [groups_keyword hw ht, hnone, Option.isSome_none, if_neg Bool.false_ne_true,
      bind_of_ok hread]
    refine ih hnodup ?_ (by omega) hm
    intro g hg
    rw [Conventions.group_withGroup_of_ne given bases hw (hvalid g hg), hfree g (.tail _ hg)]
    rintro rfl
    exact hnot (List.mem_map.2 ⟨g, hg, rfl⟩)

/-- The conventions that are built group by group are the ones that the grammar has. -/
theorem unplaced_withGroups {kinds : List Token.Kind} {gs : List (String × List QualifiedName)}
    {span : Span} (h : Repeated GroupForm kinds gs) (hn : (gs.map Prod.fst).Nodup) :
    ({ Conventions.empty.withGroups gs with span := span } : Conventions).unplaced =
      ⟨gs.lookup "domainevents", gs.lookup "commands", .none⟩ := by
  have hvalid := word_of_groupForm h
  have hevents := Conventions.group_withGroups (.inl rfl) .empty hn hvalid
  have hcommands := Conventions.group_withGroups (.inr rfl) .empty hn hvalid
  show (⟨(Conventions.empty.withGroups gs).group "domainevents",
    (Conventions.empty.withGroups gs).group "commands", .none⟩ : Conventions) = _
  rw [hevents, hcommands]
  show (⟨(gs.lookup "domainevents").or none, (gs.lookup "commands").or none, .none⟩ : Conventions) =
    _
  rw [Option.or_none, Option.or_none]

theorem reads_conventionsBody (start : Span) :
    Reads (conventionsBody start) Conventions.unplaced
      fun kinds c => ConventionsForm (.lparen :: kinds) c where
  sound := by
    intro tokens rest c h
    obtain ⟨s₁, r₁, hword, hr₁⟩ := bind_eq_ok.1 h
    obtain ⟨given, r₂, hgroups, hr₂⟩ := bind_eq_ok.1 hr₁
    obtain ⟨s₃, r₃, hclose, hr₃⟩ := bind_eq_ok.1 hr₂
    obtain ⟨rfl, rfl⟩ := pure_eq_ok.1 hr₃
    obtain ⟨t₁, rfl, ht₁, -⟩ := expectWord_eq_ok.1 hword
    obtain ⟨kinds, gs, hk, hgs, hn, -, rfl⟩ := groups_sound hgroups
    obtain ⟨t₃, rfl, ht₃, -⟩ := exists_of_expect hclose nofun
    refine ⟨_, .cons ht₁ (hk.append (.single ht₃)), ?_⟩
    rw [unplaced_withGroups hgs hn]
    exact .mk hgs hn
  complete := by
    intro tokens rest kinds c h hs
    cases h with
    | mk hgs hn =>
      obtain ⟨t₁, r₁, rfl, ht₁, hs⟩ := hs
      obtain ⟨r₂, hk, hclose⟩ := spells_append.1 hs
      have hfront := hclose.front_eq
      obtain ⟨t₃, r₃, rfl, ht₃, rfl⟩ := hclose
      have hread := groups_complete (by rw [hfront]; nofun) hgs hn (fun _ _ => by
        unfold Conventions.group
        split <;> rfl) (show Conventions.empty.missing < 3 by decide) hk
      refine ⟨_, bind_eq_ok.2 ⟨_, _, expectWord_eq_ok.2 ⟨t₁, rfl, ht₁, rfl⟩, bind_eq_ok.2 ⟨_, _, hread,
        bind_eq_ok.2 ⟨_, _, expect_of_kind ht₃ _ _, rfl⟩⟩⟩, ?_⟩
      exact unplaced_withGroups hgs hn

/-! ## Namespaces -/

theorem laterForm_namespace {t : Token} (ht : t.kind = .ident "namespace") (first : Token)
    (others : List Token) :
    laterForm (first :: t :: others) = namespaceBody first.span (t :: others) := by
  obtain ⟨kind, span⟩ := t
  cases ht
  rfl

theorem front_of_laterForm {first : Token} {tokens rest : List Token} {n : Namespace}
    (h : laterForm (first :: tokens) = .ok (n, rest)) : front tokens = .ident "namespace" := by
  unfold laterForm at h
  rw [advance_bind, peek_bind] at h
  generalize front tokens = kind at h
  by_cases hn : kind = .ident "namespace"
  · exact hn
  · by_cases hd : kind = .ident "defconventions"
    · subst hd
      exact absurd h fail_ne_ok
    · -- The remaining alternative is chosen by the two inequalities in the context.
      simp only at h
      exact absurd h unexpected_ne_ok

theorem readsFrom_declaration :
    ReadsFrom (· = .lparen) Declaration.reader Declaration.unplaced DeclarationForm := by
  refine Declaration.reads_reader.readsFrom ?_
  intro kinds d h
  obtain ⟨kind, more, rfl, -⟩ := Declaration.declarationForm_iff.1 h
  exact ⟨_, _, rfl, rfl⟩

theorem readsFrom_laterForm :
    ReadsFrom (· = .lparen) laterForm Namespace.unplaced NamespaceForm where
  first := by
    rintro _ _ ⟨-, -⟩
    exact ⟨_, _, rfl, rfl⟩
  sound := by
    intro tokens rest n hf h
    obtain ⟨first, _, rfl, hfirst⟩ := exists_of_front (of_decide_eq_true hf) nofun
    obtain ⟨t, others, rfl, ht⟩ := exists_of_front (front_of_laterForm h) nofun
    rw [laterForm_namespace ht] at h
    obtain ⟨s₁, r₁, hword, hr₁⟩ := bind_eq_ok.1 h
    obtain ⟨⟨name, s₂⟩, r₂, hname, hr₂⟩ := bind_eq_ok.1 hr₁
    obtain ⟨declarations, r₃, hdeclarations, hr₃⟩ := bind_eq_ok.1 hr₂
    obtain ⟨s₄, r₄, hclose, hr₄⟩ := bind_eq_ok.1 hr₃
    obtain ⟨rfl, rfl⟩ := pure_eq_ok.1 hr₄
    obtain ⟨t₁, heq, ht₁, -⟩ := expectWord_eq_ok.1 hword
    cases heq
    obtain ⟨kinds, hk, hform⟩ := (reads_qualifiedName .scope).sound hname
    obtain ⟨-, more, hm, hrepeated⟩ := many_sound readsFrom_declaration hdeclarations
    obtain ⟨t₄, rfl, ht₄, -⟩ := exists_of_expect hclose nofun
    exact ⟨_, .cons hfirst (.cons ht (hk.append (hm.append (.single ht₄)))), .mk hform hrepeated⟩
  complete := by
    rintro tokens rest _ _ ⟨hname, hdeclarations⟩ ⟨first, _, rfl, hfirst, t, others, rfl, ht, hs⟩
    obtain ⟨r₁, hk, hs⟩ := spells_append.1 hs
    obtain ⟨r₂, hm, hclose⟩ := spells_append.1 hs
    have hstop : decide (front r₂ = .lparen) = false := by
      rw [hclose.front_eq]
      rfl
    obtain ⟨t₄, r₃, rfl, ht₄, rfl⟩ := hclose
    obtain ⟨⟨name, s⟩, hreadName, rfl⟩ := (reads_qualifiedName .scope).complete hname hk
    obtain ⟨declarations, hread, rfl⟩ :=
      many_complete readsFrom_declaration hdeclarations hm hstop
    refine ⟨⟨.parse name, declarations, first.span.through t₄.span⟩, ?_, rfl⟩
    rw [laterForm_namespace ht]
    unfold namespaceBody
    rw [bind_of_ok (expectWord_eq_ok.2 ⟨t, rfl, ht, rfl⟩), bind_of_ok hreadName]
    show (many (· = .lparen) Declaration.reader >>= _) r₁ = _
    rw [bind_of_ok hread, bind_of_ok (expect_of_kind ht₄ _ _)]
    rfl

/-! ## Whole sources -/

theorem endOfInput_eq_ok {production : Production} {tokens rest : List Token} {u : Unit} :
    endOfInput production tokens = .ok (u, rest) ↔ front tokens = .eof ∧ rest = tokens := by
  unfold endOfInput
  rw [peek_bind, branch_apply]
  by_cases h : front tokens = .eof
  · rw [if_pos h, pure_eq_ok]
    exact ⟨fun ⟨_, hr⟩ => ⟨h, hr.symm⟩, fun ⟨_, hr⟩ => ⟨rfl, hr.symm⟩⟩
  · rw [if_neg h]
    exact ⟨fun hu => absurd hu unexpected_ne_ok, fun ⟨hf, _⟩ => absurd hf h⟩

theorem startsWithConventions_of_form {kinds : List Token.Kind} {c : Conventions}
    {tokens rest : List Token} (h : ConventionsForm kinds c) (hs : Spells kinds tokens rest) :
    startsWithConventions tokens = true := by
  obtain ⟨-, -⟩ := h
  obtain ⟨t, _, rfl, ht, t', others, rfl, ht', -⟩ := hs
  unfold startsWithConventions
  rw [Bool.and_eq_true]
  exact ⟨decide_eq_true ht, decide_eq_true ht'⟩

theorem startsWithConventions_of_namespaces {kinds : List Token.Kind} {ns : List Namespace}
    {tokens rest : List Token} (h : Repeated NamespaceForm kinds ns) (hs : Spells kinds tokens rest)
    (hrest : front rest = .eof) : startsWithConventions tokens = false := by
  unfold startsWithConventions
  cases h with
  | nil =>
    cases hs
    rw [hrest]
    rfl
  | cons hn _ =>
    obtain ⟨-, -⟩ := hn
    obtain ⟨t, _, rfl, ht, t', others, rfl, ht', -⟩ := hs
    rw [Bool.and_eq_false_iff]
    right
    rw [List.tail_cons, show front (t' :: others) = _ from ht']
    rfl

/-- **What is read as a source is a phrase of the grammar** with the end of the source behind it. -/
theorem reader_sound {tokens rest : List Token} {d : Document}
    (h : reader tokens = .ok (d, rest)) :
    front rest = .eof ∧ ∃ kinds, Spells kinds tokens rest ∧ DocumentForm kinds d.unplaced := by
  obtain ⟨conventions, r₁, hconventions, hr₁⟩ := bind_eq_ok.1 h
  obtain ⟨namespaces, r₂, hnamespaces, hr₂⟩ := bind_eq_ok.1 hr₁
  obtain ⟨_, r₃, hend, hr₃⟩ := bind_eq_ok.1 hr₂
  obtain ⟨rfl, rfl⟩ := pure_eq_ok.1 hr₃
  obtain ⟨hfront, rfl⟩ := endOfInput_eq_ok.1 hend
  obtain ⟨-, more, hm, hrepeated⟩ := many_sound readsFrom_laterForm hnamespaces
  refine ⟨hfront, ?_⟩
  unfold leadingConventions at hconventions
  split at hconventions
  · rename_i hstarts
    have hopen : front tokens = .lparen := of_decide_eq_true (Bool.and_eq_true_iff.1 hstarts).1
    obtain ⟨t, others, rfl, ht⟩ := exists_of_front hopen nofun
    rw [advance_bind] at hconventions
    obtain ⟨c, hc, rfl⟩ := map_eq_ok.1 hconventions
    obtain ⟨kinds, hk, hform⟩ := (reads_conventionsBody t.span).sound hc
    exact ⟨_, .append (.cons ht hk) hm, .conventional hform hrepeated⟩
  · cases hconventions
    exact ⟨_, hm, .bare hrepeated⟩

/-- **Every phrase of the grammar is read** in front of the end of the source. -/
theorem reader_complete {kinds : List Token.Kind} {tree : Document} {tokens rest : List Token}
    (h : DocumentForm kinds tree) (hs : Spells kinds tokens rest) (hrest : front rest = .eof) :
    ∃ d, reader tokens = .ok (d, rest) ∧ d.unplaced = tree := by
  have hstop : decide (front rest = .lparen) = false := by
    rw [hrest]
    rfl
  have hend : endOfInput .document rest = .ok ((), rest) := endOfInput_eq_ok.2 ⟨hrest, rfl⟩
  cases h with
  | bare hnamespaces =>
    have hleading : leadingConventions tokens = .ok (none, tokens) := by
      unfold leadingConventions
      rw [startsWithConventions_of_namespaces hnamespaces hs hrest]
      rfl
    obtain ⟨namespaces, hread, rfl⟩ := many_complete readsFrom_laterForm hnamespaces hs hstop
    refine ⟨⟨none, namespaces⟩, ?_, rfl⟩
    unfold reader
    rw [bind_of_ok hleading, bind_of_ok hread, bind_of_ok hend]
    rfl
  | conventional hconventions hnamespaces =>
    obtain ⟨middle, hk, hm⟩ := spells_append.1 hs
    have hstarts := startsWithConventions_of_form hconventions hk
    obtain ⟨namespaces, hread, rfl⟩ := many_complete readsFrom_laterForm hnamespaces hm hstop
    cases hconventions with
    | mk hgroups hnodup =>
      obtain ⟨t, others, rfl, ht, hk⟩ := hk
      obtain ⟨c, hc, hview⟩ := (reads_conventionsBody t.span).complete (.mk hgroups hnodup) hk
      have hleading : leadingConventions (t :: others) = .ok (some c, middle) := by
        unfold leadingConventions
        rw [if_pos hstarts, advance_bind]
        exact map_eq_ok.2 ⟨c, hc, rfl⟩
      refine ⟨⟨some c, namespaces⟩, ?_, ?_⟩
      · unfold reader
        rw [bind_of_ok hleading, bind_of_ok hread, bind_of_ok hend]
        rfl
      · rw [← hview]
        rfl

end Document

/-! ## Sources -/

namespace Grammar

open Grammar.Parser Token

/-- The tokens of a source spell its sentence, and the end stands behind it. -/
theorem spells_sentence (source : String) :
    ∃ rest, Spells (sentence source) (significant source) rest ∧ front rest = .eof := by
  obtain ⟨body, last, heq, hlast, hbody, -⟩ := significant_eq source
  refine ⟨[last], ?_, hlast⟩
  rw [heq, ← hbody]
  exact spells_of_append body [last]

/-- Tokens in front of the end of a source are all of its sentence, unless the end is among them. -/
theorem eq_sentence {source : String} {kinds : List Kind} {rest : List Token}
    (h : Spells kinds (significant source) rest) (hrest : front rest = .eof)
    (hlast : kinds.getLast? ≠ some .eof) : kinds = sentence source := by
  obtain ⟨body, last, heq, hl, hbody, hno⟩ := significant_eq source
  have hmap := h.map_kind
  rw [heq, List.map_append, hbody, List.map_singleton, hl] at hmap
  cases rest with
  | nil =>
    rw [List.map_nil, List.append_nil] at hmap
    rw [← hmap, List.getLast?_concat] at hlast
    exact absurd rfl hlast
  | cons t rest =>
    rw [List.map_cons, show t.kind = .eof from hrest] at hmap
    -- the end of the source stands behind the sentence only, so neither row is longer
    rcases List.append_eq_append_iff.1 hmap with ⟨as, hkinds, hend⟩ | ⟨as, hsentence, hend⟩
    · cases as with
      | nil => rw [hkinds, List.append_nil]
      | cons a as =>
        rw [List.cons_append, List.cons.injEq] at hend
        exact absurd (congrArg List.length hend.2) (by simp)
    · cases as with
      | nil => rw [hsentence, List.append_nil]
      | cons a as =>
        rw [List.cons_append, List.cons.injEq] at hend
        rw [hsentence, ← hend.1] at hno
        exact absurd (by simp) hno

theorem Repeated.getLast? {α : Type} {rule : Rule α} {last : Kind}
    (hlast : ∀ {kinds a}, rule kinds a → kinds.getLast? = some last) {kinds : List Kind}
    {items : List α} (h : Repeated rule kinds items) :
    kinds = [] ∨ kinds.getLast? = some last := by
  induction h with
  | nil => exact .inl rfl
  | @cons kinds more a items hitem _ ih =>
    right
    rcases ih with rfl | ih
    · rw [List.append_nil]
      exact hlast hitem
    · rw [List.getLast?_append, ih]
      rfl

theorem NamespaceForm.getLast? {kinds : List Kind} {n : Namespace} (h : NamespaceForm kinds n) :
    kinds.getLast? = some .rparen := by
  obtain ⟨-, -⟩ := h
  simp [List.getLast?_cons, List.getLast?_append]

theorem ConventionsForm.getLast? {kinds : List Kind} {c : Conventions}
    (h : ConventionsForm kinds c) : kinds.getLast? = some .rparen := by
  obtain ⟨-, -⟩ := h
  simp [List.getLast?_cons, List.getLast?_append]

theorem DocumentForm.getLast? {kinds : List Kind} {d : Document} (h : DocumentForm kinds d) :
    kinds.getLast? ≠ some .eof := by
  have hne : ∀ {kinds : List Kind}, kinds = [] ∨ kinds.getLast? = some .rparen →
      kinds.getLast? ≠ some .eof := by
    rintro kinds (rfl | hk)
    · nofun
    · rw [hk]
      nofun
  cases h with
  | bare hnamespaces => exact hne (hnamespaces.getLast? NamespaceForm.getLast?)
  | conventional hconventions hnamespaces =>
    rcases hnamespaces.getLast? NamespaceForm.getLast? with rfl | hlast
    · rw [List.append_nil]
      exact hne (.inr hconventions.getLast?)
    · refine hne (.inr ?_)
      rw [List.getLast?_append, hlast]
      rfl

theorem run_eq_ok {α : Type} {p : Parser α} {source : String} {a : α} :
    p.run source = .ok a ↔ ∃ rest, p (significant source) = .ok (a, rest) := by
  unfold run
  cases p (significant source) with
  | ok r =>
    obtain ⟨b, rest⟩ := r
    constructor
    · intro h
      cases h
      exact ⟨rest, rfl⟩
    · rintro ⟨_, h⟩
      cases h
      rfl
  | error fault => exact ⟨nofun, nofun⟩

theorem documentForm_of_parse {source : String} {d : Document}
    (h : Document.parse source = .ok d) : DocumentForm (sentence source) d.unplaced := by
  obtain ⟨rest, hread⟩ := run_eq_ok.1 h
  obtain ⟨hrest, kinds, hk, hform⟩ := Document.reader_sound hread
  rw [← eq_sentence hk hrest hform.getLast?]
  exact hform

theorem exists_parse_of_documentForm {source : String} {tree : Document}
    (h : DocumentForm (sentence source) tree) :
    ∃ d, Document.parse source = .ok d ∧ d.unplaced = tree := by
  obtain ⟨rest, hs, hrest⟩ := spells_sentence source
  obtain ⟨d, hread, hview⟩ := Document.reader_complete h hs hrest
  exact ⟨d, run_eq_ok.2 ⟨rest, hread⟩, hview⟩

theorem DeclarationForm.getLast? {kinds : List Kind} {d : Declaration}
    (h : DeclarationForm kinds d) : kinds.getLast? = some .rparen := by
  obtain ⟨kind, more, rfl, hbody⟩ := Declaration.declarationForm_iff.1 h
  have hlast : more.getLast? = some .rparen := by
    cases hbody with
    | valueType hrest => cases hrest <;> simp
    | record _ hrest => cases hrest <;> simp
    | enumeration hrest =>
      cases hrest
      simp [List.getLast?_cons]
    | service hrest =>
      cases hrest
      simp
  rw [List.getLast?_cons, List.getLast?_cons, hlast]
  rfl

theorem run_whole_eq_ok {α : Type} {p : Parser α} {production : Production} {source : String}
    {a : α} :
    (do
      let a ← p
      endOfInput production
      return a : Parser α).run source = .ok a ↔
      ∃ rest, p (significant source) = .ok (a, rest) ∧ front rest = .eof := by
  rw [run_eq_ok]
  constructor
  · rintro ⟨rest, h⟩
    obtain ⟨a', r₁, hread, hr₁⟩ := bind_eq_ok.1 h
    obtain ⟨_, r₂, hend, hr₂⟩ := bind_eq_ok.1 hr₁
    obtain ⟨rfl, rfl⟩ := pure_eq_ok.1 hr₂
    obtain ⟨hfront, rfl⟩ := Document.endOfInput_eq_ok.1 hend
    exact ⟨_, hread, hfront⟩
  · rintro ⟨rest, hread, hfront⟩
    have hend : endOfInput production rest = .ok ((), rest) :=
      Document.endOfInput_eq_ok.2 ⟨hfront, rfl⟩
    refine ⟨rest, ?_⟩
    rw [bind_of_ok hread, bind_of_ok hend]
    rfl

theorem declaration_parse_eq_ok {source : String} {d : Declaration} :
    Declaration.parse source = .ok d ↔
      ∃ rest, Declaration.reader (significant source) = .ok (d, rest) ∧ front rest = .eof :=
  run_whole_eq_ok

theorem declarationForm_of_parse {source : String} {d : Declaration}
    (h : Declaration.parse source = .ok d) : DeclarationForm (sentence source) d.unplaced := by
  obtain ⟨rest, hread, hrest⟩ := declaration_parse_eq_ok.1 h
  obtain ⟨kinds, hk, hform⟩ := Declaration.reads_reader.sound hread
  rw [← eq_sentence hk hrest (by rw [hform.getLast?]; nofun)]
  exact hform

theorem exists_parse_of_declarationForm {source : String} {tree : Declaration}
    (h : DeclarationForm (sentence source) tree) :
    ∃ d, Declaration.parse source = .ok d ∧ d.unplaced = tree := by
  obtain ⟨rest, hs, hrest⟩ := spells_sentence source
  obtain ⟨d, hread, hview⟩ := Declaration.reads_reader.complete h hs
  exact ⟨d, declaration_parse_eq_ok.2 ⟨rest, hread, hrest⟩, hview⟩

theorem TypeForm.getLast?_ne {symbol : TypeSymbol} {kinds : List Kind} {t : TypeRef}
    (h : TypeForm symbol kinds t) : kinds.getLast? ≠ some .eof := by
  induction h with
  | plain _ ih => exact ih
  | parens _ _ =>
    rw [List.getLast?_concat]
    nofun
  | _ => simp

/-- **A source is one type reference** exactly when its sentence is a phrase of that type. -/
theorem typeRef_parse_iff {source : String} {t : TypeRef} :
    TypeRef.parse source = .ok t ↔ TypeForm .type (sentence source) t := by
  unfold TypeRef.parse
  rw [run_whole_eq_ok]
  constructor
  · rintro ⟨rest, hread, hrest⟩
    obtain ⟨kinds, hk, hform⟩ := TypeRef.reader_sound hread
    rw [← eq_sentence hk hrest hform.getLast?_ne]
    exact hform
  · intro h
    obtain ⟨rest, hs, hrest⟩ := spells_sentence source
    -- the end of the source goes on with no type
    exact ⟨rest, TypeRef.reader_complete h hs (by rw [hrest]; nofun) (by rw [hrest]; nofun), hrest⟩

/-- A row of tokens is a phrase for at most one tree, because it is read in one way only. -/
theorem DocumentForm.unique {kinds : List Kind} {tree other : Document}
    (h : DocumentForm kinds tree) (h' : DocumentForm kinds other) : other = tree := by
  -- both trees are read from tokens of these kinds, placed nowhere
  have hs := spells_of_append (kinds.map fun kind => ⟨kind, .none⟩) []
  rw [List.map_map, show Token.kind ∘ (fun kind => ⟨kind, .none⟩) = id from rfl, List.map_id] at hs
  obtain ⟨d, hd, rfl⟩ := Document.reader_complete h hs rfl
  obtain ⟨d', hd', rfl⟩ := Document.reader_complete h' hs rfl
  rw [hd] at hd'
  cases hd'
  rfl

/-- **The language.**  A source is read exactly when its sentence is a phrase of the grammar, and the
document is then the tree of the phrase, up to places.  No row of tokens stands for two trees. -/
theorem parse_iff_documentForm (source : String) :
    (∀ tree, (∃ d, Document.parse source = .ok d ∧ d.unplaced = tree) ↔
      DocumentForm (sentence source) tree) ∧
    ∀ kinds tree other, DocumentForm kinds tree → DocumentForm kinds other → other = tree := by
  refine ⟨fun tree => ⟨?_, exists_parse_of_documentForm⟩, fun _ _ _ => DocumentForm.unique⟩
  rintro ⟨d, h, rfl⟩
  exact documentForm_of_parse h

end Grammar

end DomainForms
