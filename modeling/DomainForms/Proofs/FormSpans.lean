import DomainForms.Model
import DomainForms.Proofs.Grammar.Extents
import DomainForms.Proofs.Outcome
import DomainForms.Proofs.Token.Cuts

/-!
# The place of a form cuts out the form

Every part of a document that was read has a place in its source.  The text at the place of a form,
read on its own, gives the form again, and the text at the place of a property gives the property
wherever properties are listed.  What stands inside a form has its place strictly inside the place of
the form, and places of parts that follow each other follow each other in the source.

* `Span.Holds`: places inside a place, one behind the other.
* `Conventions.CutOut`, `Namespace.CutOut`, `Declaration.CutOut`, `Property.CutOut`: what is read at
  the place of a part.
* `Document.spans_cut_out`: **the places of a document that was read cut out its parts.**
-/

namespace DomainForms

open String (utf8Len)
open Grammar Token

/-! ## Places one behind the other -/

/-- Places that are not empty and lie strictly inside a place, one behind the other. -/
structure Span.Holds (outer : Span) (inner : List Span) : Prop where
  inside : ∀ s ∈ inner, outer.start < s.start ∧ s.start < s.stop ∧ s.stop < outer.stop
  ordered : inner.Pairwise fun s s' => s.stop ≤ s'.start

namespace Grammar

theorem stop_le_of_solid {tokens : List Token} (hs : Solid tokens) {first last : Token}
    (hfirst : tokens.head? = some first) (hlast : tokens.getLast? = some last) :
    first.span.stop ≤ last.span.stop := by
  have hmem := List.mem_of_getLast? hlast
  obtain ⟨others, rfl⟩ := List.head?_eq_some_iff.1 hfirst
  rcases List.mem_cons.1 hmem with rfl | hlater
  · exact Nat.le_refl _
  · have horder := (List.pairwise_cons.1 hs.ordered).1 last hlater
    have htakes := hs.start_lt_stop last hmem
    omega

theorem Spanned.exists_ends {tokens : List Token} {span : Span} (h : Spanned tokens span)
    (hs : Solid tokens) :
    span.start < span.stop ∧ (∃ t ∈ tokens, t.span.start = span.start) ∧
      ∃ t ∈ tokens, t.span.stop = span.stop := by
  obtain ⟨first, last, hfirst, hlast, rfl⟩ := h
  have hle := stop_le_of_solid hs hfirst hlast
  have hmem := List.mem_of_mem_head? hfirst
  have htakes := hs.start_lt_stop first hmem
  have hstop : (first.span.through last.span).stop = last.span.stop := Nat.max_eq_left hle
  refine ⟨?_, ⟨first, hmem, rfl⟩, ⟨last, List.mem_of_getLast? hlast, hstop.symm⟩⟩
  rw [hstop]
  exact Nat.lt_of_lt_of_le htakes hle

/-- Places in a row of solid tokens are not empty, lie between the ends of tokens, and stand one
behind the other. -/
theorem InRow.ordered {tokens : List Token} {spans : List Span} (h : InRow Spanned tokens spans)
    (hs : Solid tokens) :
    (∀ s ∈ spans, s.start < s.stop ∧ (∃ t ∈ tokens, t.span.start = s.start) ∧
      ∃ t ∈ tokens, t.span.stop = s.stop) ∧
    spans.Pairwise fun s s' => s.stop ≤ s'.start := by
  constructor
  · intro s hmem
    obtain ⟨front, used, behind, rfl, hspan⟩ := h.exists_of_mem hmem
    have hsub := sublist_middle front used behind
    obtain ⟨hlt, ⟨t, ht, hstart⟩, ⟨t', ht', hstop⟩⟩ := hspan.exists_ends (hs.sublist hsub)
    exact ⟨hlt, ⟨t, hsub.mem ht, hstart⟩, ⟨t', hsub.mem ht', hstop⟩⟩
  · induction h with
    | nil => exact .nil
    | @cons gap used tokens first spans hfirst hrow ih =>
      have hs' : Solid (used ++ tokens) := hs.sublist (List.sublist_append_right _ _)
      have hused : Solid used := hs'.sublist (List.sublist_append_left _ _)
      have htokens : Solid tokens := hs'.sublist (List.sublist_append_right _ _)
      refine List.pairwise_cons.2 ⟨fun s hmem => ?_, ih htokens⟩
      obtain ⟨front, used', behind, rfl, hspan⟩ := hrow.exists_of_mem hmem
      have hsub := sublist_middle front used' behind
      obtain ⟨-, -, ⟨t, ht, hstop⟩⟩ := hfirst.exists_ends hused
      obtain ⟨-, ⟨t', ht', hstart⟩, -⟩ := hspan.exists_ends (htokens.sublist hsub)
      rw [← hstop, ← hstart]
      exact (List.pairwise_append.1 hs'.ordered).2.2 t ht t' (hsub.mem ht')

/-- **The parts of a form have their places inside the place of the form.** -/
theorem Enclosed.holds {α : Type} {On : List Token → α → Prop} {items : List α} {span : Span}
    {place : α → Span} {tokens : List Token} (h : Enclosed span (InRow On · items) tokens)
    (hon : ∀ used a, On used a → Spanned used (place a)) (hs : Solid tokens) :
    span.Holds (items.map place) := by
  obtain ⟨first, inner, last, rfl, rfl, hrow⟩ := h
  have hsub := sublist_middle [first] inner [last]
  obtain ⟨hspans, hordered⟩ := (hrow.map hon).ordered (hs.sublist hsub)
  refine ⟨fun s hmem => ?_, hordered⟩
  obtain ⟨hlt, ⟨t, ht, hstart⟩, ⟨t', ht', hstop⟩⟩ := hspans s hmem
  -- the opening token stands before the parts, and the closing one behind them
  obtain ⟨hbefore, hrest⟩ := List.pairwise_cons.1 hs.ordered
  have hopen := hbefore t (List.mem_append_left _ ht)
  have hclose := (List.pairwise_append.1 hrest).2.2 t' ht' last (List.mem_singleton.2 rfl)
  have hfirst := hs.start_lt_stop first List.mem_cons_self
  have hlast := hs.start_lt_stop last (by simp)
  have hle : last.span.stop ≤ (first.span.through last.span).stop := Nat.le_max_left _ _
  have hstart' : (first.span.through last.span).start = first.span.start := rfl
  omega

end Grammar

/-! ## Texts of places -/

theorem Span.text_of_ends {source : String} {front text behind : List Char} {span : Span}
    (h : source.toList = front ++ (text ++ behind)) (hstart : span.start = utf8Len front)
    (hstop : span.stop = utf8Len (front ++ text)) : span.text source = String.ofList text := by
  rw [← text_behind front text h, Span.text, Span.text, Span.size, Span.size, hstart, hstop,
    start_behind, stop_behind, String.utf8Len_append]

/-- **The text at a place over tokens is read as these tokens**, whatever stands behind it and does
not go on with the last of them. -/
theorem Token.exists_text_of_spanned {source : String} {tokens : List Token} {span : Span}
    (h : Occurs source tokens) (hspan : Spanned tokens span) :
    ∃ text, span.text source = String.ofList text ∧
      ∀ other, (∀ t ∈ tokens.getLast?, t.kind.StopsAt other) →
        row (text ++ other) = tokens.map Token.kind ++ row other := by
  have hsolid := h.solid
  have hmem : ∀ t ∈ tokens, t ∈ significant source := fun t ht => h.mem_significant ht
  obtain ⟨before, behind, hsource, hbehind⟩ := h
  obtain ⟨first, last, hfirst, hlast, rfl⟩ := hspan
  have hne : tokens ≠ [] := by
    rintro rfl
    cases hfirst
  obtain ⟨front, text, rest, hcut, hfills⟩ := exists_fills hsource hne hbehind
  refine ⟨text, Span.text_of_ends hcut (hfills.start_eq first hfirst) ?_, fun other hother => ?_⟩
  · rw [← hfills.stop_eq last hlast]
    exact Nat.max_eq_left (stop_le_of_solid hsolid hfirst hlast)
  · have hsignificant : ∀ kind ∈ tokens.map Token.kind, (!kind.isTrivia) = true := by
      intro kind hkind
      obtain ⟨t, ht, rfl⟩ := List.mem_map.1 hkind
      exact (List.mem_filter.1 (hmem t ht)).2
    rw [hfills.row_append other hother, List.filter_eq_self.2 hsignificant]

theorem Grammar.sentence_of_row {text : List Char} {kinds : List Kind}
    (h : row text = kinds ++ [.eof]) (hlast : kinds.getLast? ≠ some .eof) :
    sentence (String.ofList text) = kinds := by
  have hkinds := map_kind_significant_eq_row (String.ofList text)
  rw [String.toList_ofList, h] at hkinds
  obtain ⟨used, rest, hsource, rfl, hrest⟩ := List.map_eq_append_iff.1 hkinds
  have hspells : Spells (used.map Token.kind) (significant (String.ofList text)) rest := by
    rw [hsource]
    exact spells_of_append used rest
  refine (eq_sentence hspells ?_ hlast).symm
  obtain ⟨last, rfl, hkind⟩ := List.map_eq_singleton_iff.1 hrest
  exact hkind

theorem Grammar.sentence_of_spanned {source : String} {tokens : List Token} {span : Span}
    (h : Occurs source tokens) (hspan : Spanned tokens span)
    (hlast : (tokens.map Token.kind).getLast? ≠ some .eof) :
    sentence (span.text source) = tokens.map Token.kind := by
  obtain ⟨text, htext, hrow⟩ := exists_text_of_spanned h hspan
  have hend := hrow [] fun t _ => t.kind.stopsAt_nil
  rw [List.append_nil] at hend
  rw [htext]
  exact sentence_of_row hend hlast

/-! ## Parts that are cut out -/

/-- The text at the place of conventions is a document that has nothing else. -/
def Conventions.CutOut (source : String) (c : Conventions) : Prop :=
  ∃ d, Document.parse (c.span.text source) = .ok d ∧ d.unplaced = ⟨some c.unplaced, []⟩

/-- The text at the place of a namespace is a document that has nothing else. -/
def Namespace.CutOut (source : String) (n : Namespace) : Prop :=
  ∃ d, Document.parse (n.span.text source) = .ok d ∧ d.unplaced = ⟨none, [n.unplaced]⟩

/-- The text at the place of a declaration is the declaration. -/
def Declaration.CutOut (source : String) (d : Declaration) : Prop :=
  ∃ d', Declaration.parse (d.span.text source) = .ok d' ∧ d'.unplaced = d.unplaced

/-- The text at the place of a property, put into the list of a data-transfer object, is its only
property. -/
def Property.CutOut (source : String) (p : Property) : Prop :=
  ∃ d, Declaration.parse ("(defdto X (" ++ p.span.text source ++ "))") = .ok d ∧
    d.unplaced = .record .dto ⟨"X", [p.unplaced], .none⟩

/-- What stands before a property in the list that it is put into. -/
theorem Token.row_listHead (text : List Char) :
    row ("(defdto X (".toList ++ text)
      = [.lparen, .ident "defdto", .ident "X", .lparen] ++ row text := by
  have hsplit : "(defdto X (".toList ++ text = '(' :: ([] ++ 'd' :: ("efdto".toList ++
      ([' '] ++ 'X' :: ([] ++ ([' '] ++ '(' :: ([] ++ text)))))) := rfl
  have hblank : ∀ c ∈ [' '], Text.isBlank c = true := List.forall_mem_singleton.2 (by decide)
  have hword : ∀ d ∈ "efdto".toList, continues 'd' d = true := List.all_eq_true.1 (by decide)
  have hmark : ∀ text : List Char, ∀ d ∈ text.head?, continues '(' d = false := fun _ _ _ => rfl
  have hspace : ∀ (c : Char) (text : List Char), c ≠ ';' →
      ∀ d ∈ ([' '] ++ text).head?, continues c d = false := by
    intro c text hc d hd
    cases hd
    exact not_continues hc (by decide) (by decide)
  rw [hsplit, row_token (by decide) (List.forall_mem_nil _) (hmark _),
    row_token (by decide) hword (hspace _ _ (by decide)), row_blanks hblank,
    row_token (by decide) (List.forall_mem_nil _) (hspace _ _ (by decide)), row_blanks hblank,
    row_token (by decide) (List.forall_mem_nil _) (hmark _)]
  rfl

section

variable {source : String} {tokens : List Token}

theorem Conventions.StandsOn.cutOut {c : Conventions} (h : c.StandsOn tokens)
    (ho : Occurs source tokens) : c.CutOut source := by
  refine exists_parse_of_documentForm ?_
  rw [sentence_of_spanned ho h.enclosed.spanned (by rw [h.form.getLast?]; nofun),
    ← List.append_nil (tokens.map Token.kind)]
  exact .conventional h.form .nil

theorem Namespace.StandsOn.cutOut {n : Namespace} (h : n.StandsOn tokens)
    (ho : Occurs source tokens) : n.CutOut source := by
  refine exists_parse_of_documentForm ?_
  rw [sentence_of_spanned ho h.declarations.spanned (by rw [h.form.getLast?]; nofun),
    ← List.append_nil (tokens.map Token.kind)]
  exact .bare (.cons h.form .nil)

theorem Declaration.cutOut_of_form {d : Declaration}
    (h : DeclarationForm (tokens.map Token.kind) d.unplaced) (hspan : Spanned tokens d.span)
    (ho : Occurs source tokens) : d.CutOut source := by
  refine exists_parse_of_declarationForm ?_
  rw [sentence_of_spanned ho hspan (by rw [h.getLast?]; nofun)]
  exact h

theorem Record.StandsOn.cutOut {r : Record} (h : r.StandsOn tokens) (ho : Occurs source tokens) :
    (Declaration.record .command r).CutOut source := by
  have hform := h.form
  generalize hkinds : tokens.map Token.kind = kinds at hform
  obtain ⟨hrest⟩ := hform
  refine Declaration.cutOut_of_form ?_ h.properties.spanned ho
  rw [hkinds]
  exact .command hrest

/-- Behind the phrase of a property, a parenthesis does not go on with its last token. -/
theorem Property.stopsAt_of_form {p : Property} (h : PropertyForm (tokens.map Token.kind) p)
    (ho : Occurs source tokens) :
    ∀ t ∈ tokens.getLast?, t.kind.StopsAt "))".toList := by
  intro t ht
  have hmem := ho.mem_significant (List.mem_of_getLast? ht)
  have hlexical := isLexical_of_mem_scan _ _ _ t (List.mem_filter.1 hmem).1
  have hlast : (tokens.map Token.kind).getLast? = some t.kind := by
    rw [List.getLast?_map, show tokens.getLast? = some t from ht]
    rfl
  generalize tokens.map Token.kind = kinds at h hlast
  obtain ⟨-, ⟨hdot⟩⟩ := h
  rw [List.getLast?_concat] at hlast
  rw [← Option.some.inj hlast] at hlexical ⊢
  exact Kind.stopsAt_ident hlexical (by decide) _

theorem Property.StandsOn.cutOut {p : Property} (h : p.StandsOn tokens)
    (hname : p.name.isSome = true) (ho : Occurs source tokens) : p.CutOut source := by
  have hform := h.form hname
  obtain ⟨text, htext, hrow⟩ := exists_text_of_spanned ho h.spanned
  have hend := hrow "))".toList (stopsAt_of_form hform ho)
  have hwhole : "(defdto X (" ++ p.span.text source ++ "))"
      = String.ofList ("(defdto X (".toList ++ (text ++ "))".toList)) := by
    apply String.ext
    rw [htext]
    simp only [String.toList_append, String.toList_ofList, List.append_assoc]
  have hmarks : row "))".toList = [.rparen, .rparen] ++ [.eof] := by decide
  have hsentence : sentence ("(defdto X (" ++ p.span.text source ++ "))")
      = [.lparen, .ident "defdto", .ident "X", .lparen]
        ++ (tokens.map Token.kind ++ [.rparen, .rparen]) := by
    rw [hwhole]
    refine sentence_of_row ?_ ?_
    · rw [row_listHead, hend, hmarks]
      simp only [List.append_assoc]
    · rw [List.getLast?_append, List.getLast?_append]
      nofun
  refine exists_parse_of_declarationForm ?_
  have hlist : ListForm (.lparen :: (tokens.map Token.kind ++ ([] ++ [.rparen]))) [p.unplaced] :=
    .cons hform .nil
  have hreserved : isReserved "X" = false := by decide
  have hdeclaration := DeclarationForm.dto (.listed (.mk hreserved) hlist)
  rw [hsentence]
  simpa using hdeclaration

/-! ## Whole documents -/

/-- What stands inside a form that occurs in a source occurs there itself. -/
theorem Grammar.Enclosed.exists_of_mem {α : Type} {On : List Token → α → Prop} {items : List α}
    {span : Span} (h : Enclosed span (InRow On · items) tokens) (ho : Occurs source tokens) {a : α}
    (ha : a ∈ items) : ∃ used, Occurs source used ∧ On used a := by
  obtain ⟨first, inner, last, rfl, -, hrow⟩ := h
  obtain ⟨front, used, behind, rfl, hon⟩ := hrow.exists_of_mem ha
  refine ⟨used, ?_, hon⟩
  have hsplit : first :: (front ++ (used ++ behind) ++ [last])
      = (first :: front) ++ (used ++ (behind ++ [last])) := by
    simp only [List.append_assoc, List.cons_append]
  rw [hsplit] at ho
  exact ho.part

theorem Declaration.StandsOn.cutOut_property {d : Declaration} (h : d.StandsOn tokens)
    (ho : Occurs source tokens) {p : Property} (hp : p ∈ d.allProperties)
    (hname : p.name.isSome = true) : p.CutOut source := by
  rcases List.mem_append.1 hp with hp | hp
  · obtain ⟨used, ho', hon⟩ := h.properties.exists_of_mem ho hp
    exact hon.cutOut hname ho'
  · obtain ⟨command, hcommand, hp⟩ := List.mem_flatMap.1 hp
    obtain ⟨used, ho', hon⟩ := h.commands.exists_of_mem ho hcommand
    obtain ⟨used', ho'', hon'⟩ := hon.properties.exists_of_mem ho' hp
    exact hon'.cutOut hname ho''

end

theorem Document.exists_occurs {On : List Token → Document → Prop} (hon : reader.TakesOn On)
    {source : String} {d : Document} (h : parse source = .ok d) :
    ∃ used, Occurs source used ∧ On used d := by
  obtain ⟨rest, hread⟩ := run_eq_ok.1 h
  obtain ⟨used, hsource, hused⟩ := hon hread
  refine ⟨used, ⟨[], rest, hsource, ?_⟩, hused⟩
  rintro rfl
  -- the end of the source would be the last token of the phrase
  obtain ⟨-, kinds, hk, hform⟩ := reader_sound hread
  obtain ⟨body, last, hbody, hlast, -⟩ := significant_eq source
  rw [hsource] at hk
  have hkinds := hk.map_kind_eq
  rw [List.append_nil] at hsource
  rw [← hsource, hbody, List.map_append, List.map_singleton, hlast] at hkinds
  exact hform.getLast? (by rw [← hkinds, List.getLast?_concat])

theorem Document.exists_standsOn {source : String} {d : Document} (h : parse source = .ok d) :
    ∃ used, Occurs source used ∧ d.StandsOn used :=
  exists_occurs takesOn_reader h

/-- **The places of a document that was read cut out its parts.**  What is read at the place of the
conventions, of a namespace, of a declaration, of a command inside a service or of a property with a
name is that part again, up to places.  The places of what stands inside a namespace, a declaration
or a command lie strictly inside its place, and parts that follow each other have places that do. -/
theorem Document.spans_cut_out {source : String} {d : Document} (h : parse source = .ok d) :
    (∀ c, d.conventions = some c → c.CutOut source) ∧
    (∀ n ∈ d.namespaces, n.CutOut source ∧ n.span.Holds (n.declarations.map Declaration.span)) ∧
    (∀ n ∈ d.namespaces, ∀ declaration ∈ n.declarations, declaration.CutOut source ∧
      declaration.span.Holds (declaration.properties.map Property.span) ∧
      declaration.span.Holds (declaration.nestedCommands.map Record.span)) ∧
    (∀ n ∈ d.namespaces, ∀ declaration ∈ n.declarations, ∀ command ∈ declaration.nestedCommands,
      (Declaration.record .command command).CutOut source ∧
      command.span.Holds (command.properties.map Property.span)) ∧
    (∀ n ∈ d.namespaces, ∀ declaration ∈ n.declarations, ∀ p ∈ declaration.allProperties,
      p.name.isSome = true → p.CutOut source) ∧
    (d.conventions.toList.map Conventions.span ++ d.namespaces.map Namespace.span).Pairwise
      fun s s' => s.stop ≤ s'.start := by
  obtain ⟨_, ho, front, behind, rfl, hconventions, hnamespaces⟩ := exists_standsOn h
  have hnamespace : ∀ n ∈ d.namespaces, ∃ used, Occurs source used ∧ n.StandsOn used := by
    intro n hn
    obtain ⟨before, used, rest, rfl, hon⟩ := hnamespaces.exists_of_mem hn
    rw [← List.append_assoc] at ho
    exact ⟨used, ho.part, hon⟩
  have hdeclaration : ∀ n ∈ d.namespaces, ∀ declaration ∈ n.declarations,
      ∃ used, Occurs source used ∧ declaration.StandsOn used := by
    intro n hn declaration hdeclaration
    obtain ⟨used, ho, hon⟩ := hnamespace n hn
    exact hon.declarations.exists_of_mem ho hdeclaration
  refine ⟨fun c hc => ?_, fun n hn => ?_, fun n hn declaration hd => ?_,
    fun n hn declaration hd command hcommand => ?_, fun n hn declaration hd p hp hname => ?_, ?_⟩
  · have hmem : c ∈ d.conventions.toList := by rw [hc]; exact List.mem_singleton.2 rfl
    obtain ⟨before, used, rest, rfl, hon⟩ := hconventions.exists_of_mem hmem
    rw [List.append_assoc, List.append_assoc] at ho
    exact hon.cutOut ho.part
  · obtain ⟨used, ho, hon⟩ := hnamespace n hn
    exact ⟨hon.cutOut ho, hon.declarations.holds (fun _ _ h => h.properties.spanned) ho.solid⟩
  · obtain ⟨used, ho, hon⟩ := hdeclaration n hn declaration hd
    exact ⟨Declaration.cutOut_of_form hon.form hon.properties.spanned ho,
      hon.properties.holds (fun _ _ h => h.spanned) ho.solid,
      hon.commands.holds (fun _ _ h => h.properties.spanned) ho.solid⟩
  · obtain ⟨used, ho, hon⟩ := hdeclaration n hn declaration hd
    obtain ⟨used', ho', hon'⟩ := hon.commands.exists_of_mem ho hcommand
    exact ⟨hon'.cutOut ho', hon'.properties.holds (fun _ _ h => h.spanned) ho'.solid⟩
  · obtain ⟨used, ho, hon⟩ := hdeclaration n hn declaration hd
    exact hon.cutOut_property ho hp hname
  · have hrow := (hconventions.map fun _ _ h => h.enclosed.spanned).append
      (hnamespaces.map fun _ _ h => h.declarations.spanned)
    exact (hrow.ordered ho.solid).2

/-! ## A source with a comment inside a property -/

namespace Kiosk

/-- Conventions, the shorthand form of a value type, and a service with a command. -/
def source : String :=
  "(defconventions)(namespace Été(defvaluetype P(int)[])(defapplicationservice T(defcommand C(int? ;a
n,P q))))"

/-- The document of the source. -/
def document : Document := (Document.parse source).toOption.get (by decide +kernel)

theorem parse_source : Document.parse source = .ok document := Outcome.eq_ok_get _

/-- The shorthand property is placed at the first token of its type; the other two are cut out, one
of them with the comment. -/
theorem properties_cut_out :
    Document.parse source = .ok document ∧
    (document.declarations.flatMap fun entry =>
        entry.2.allProperties.map fun p => (p.name, p.span.text source))
      = [(none, "("), (some "n", "int? ;a\nn"), (some "q", "P q")] ∧
    ∀ n ∈ document.namespaces, ∀ declaration ∈ n.declarations, ∀ p ∈ declaration.allProperties,
      p.name.isSome = true → p.CutOut source :=
  ⟨parse_source, by decide +kernel, (Document.spans_cut_out parse_source).2.2.2.2.1⟩

end Kiosk

end DomainForms
