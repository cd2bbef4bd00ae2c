import DomainForms.Proofs.Grammar.Documents
import DomainForms.Proofs.Token.Trivia

/-!
# Reading does not look at places

A parser looks at the kinds of tokens and copies their places into the tree.  So on tokens whose
places were taken away it does the same thing step by step, and gives the same tree or the same fault
without places.  This is kept by putting parsers in a row, by branching on what a token is and by
repeating, hence it holds of the whole reader, with its look-ahead.

Two sources with the same row of tokens become the same when the places are taken away.  They are
read alike: as trees that differ in places only, or with faults that differ in places only.

* `Grammar.Parser.PlaceFree`: one parser does without places what another one does with them.
* `Grammar.Parser.PlaceFree.bind`, `Grammar.Parser.PlaceFree.many`: how it is kept.
* `Document.placeFree_reader`: it holds of the reader of a document.
* `Grammar.layout_irrelevant`: spacing does not change the row of tokens, and the row of tokens
  decides how a source is read.
-/

namespace DomainForms

/-- A token without its place. -/
def Token.unplaced (t : Token) : Token := { t with span := .none }

namespace Grammar

open Token (Kind significant)

/-- A fault whose tokens have no places. -/
def Fault.unplaced (f : Fault) : Fault := { f with rest := f.rest.map Token.unplaced }

namespace Parser

variable {α β γ δ : Type}

/-- On tokens without places, `q` does what `p` does on tokens with places; `view` takes the places
out of a result. -/
structure PlaceFree (view : α → β) (p : Parser α) (q : Parser β) : Prop where
  /-- A result is one without places, and a fault is the same one. -/
  apply_eq (tokens : List Token) : q (tokens.map Token.unplaced) =
    match p tokens with
    | .ok (a, rest) => .ok (view a, rest.map Token.unplaced)
    | .error fault => .error fault.unplaced

/-! ## Steps -/

theorem front_unplaced (tokens : List Token) : front (tokens.map Token.unplaced) = front tokens := by
  cases tokens <;> rfl

theorem bind_of_error {p : Parser α} {next : α → Parser β} {tokens : List Token} {fault : Fault}
    (h : p tokens = .error fault) : (p >>= next) tokens = .error fault :=
  bind_eq_error.2 (Or.inl h)

theorem placeFree_pure {view : α → β} {a : α} {b : β} (h : view a = b) :
    PlaceFree view (pure a) (pure b) := by
  subst h
  exact ⟨fun _ => rfl⟩

theorem PlaceFree.bind {view : α → β} {view' : γ → δ} {p : Parser α} {q : Parser β}
    {next : α → Parser γ} {next' : β → Parser δ} (hp : PlaceFree view p q)
    (hnext : ∀ a, PlaceFree view' (next a) (next' (view a))) :
    PlaceFree view' (p >>= next) (q >>= next') := by
  refine ⟨fun tokens => ?_⟩
  have hfirst := hp.apply_eq tokens
  cases hr : p tokens with
  | error fault =>
    rw [hr] at hfirst
    rw [bind_of_error hr, bind_of_error hfirst]
  | ok r =>
    obtain ⟨a, rest⟩ := r
    rw [hr] at hfirst
    rw [bind_of_ok hr, bind_of_ok hfirst]
    exact (hnext a).apply_eq rest

theorem PlaceFree.map {view : α → β} {view' : γ → δ} {p : Parser α} {q : Parser β} {f : α → γ}
    {g : β → δ} (hp : PlaceFree view p q) (h : ∀ a, view' (f a) = g (view a)) :
    PlaceFree view' (f <$> p) (g <$> q) :=
  hp.bind fun a => placeFree_pure (h a)

theorem PlaceFree.branch {view : α → β} {p p' : Parser α} {q q' : Parser β} {c : Prop} [Decidable c]
    (h : PlaceFree view p q) (h' : PlaceFree view p' q') :
    PlaceFree view (if c then p else p') (if c then q else q') := by
  split
  · exact h
  · exact h'

theorem placeFree_peek : PlaceFree id peek peek := by
  refine ⟨fun tokens => ?_⟩
  show Except.ok (front (tokens.map Token.unplaced), _) = _
  rw [front_unplaced]
  rfl

theorem PlaceFree.peek {view : α → β} {next : Kind → Parser α} {next' : Kind → Parser β}
    (h : ∀ kind, PlaceFree view (next kind) (next' kind)) :
    PlaceFree view (Parser.peek >>= next) (Parser.peek >>= next') :=
  placeFree_peek.bind h

theorem placeFree_here : PlaceFree (fun _ => Span.none) here here := by
  refine ⟨fun tokens => ?_⟩
  cases tokens <;> rfl

theorem placeFree_advance : PlaceFree (fun _ => Span.none) advance advance := by
  refine ⟨fun tokens => ?_⟩
  cases tokens <;> rfl

theorem placeFree_fail (view : α → β) (production : Production) (cause : Cause) :
    PlaceFree view (fail production cause) (fail production cause) :=
  ⟨fun _ => rfl⟩

theorem placeFree_unexpected (view : α → β) (production : Production) (expected : String) :
    PlaceFree view (unexpected production expected) (unexpected production expected) := by
  refine ⟨fun tokens => ?_⟩
  show Except.error (Fault.mk production (.unexpected expected (front _)) _) = _
  rw [front_unplaced]
  rfl

/-! ## One token -/

theorem placeFree_expect (kind : Kind) (production : Production) :
    PlaceFree (fun _ => Span.none) (expect kind production) (expect kind production) :=
  .peek fun _ => .branch placeFree_advance (placeFree_unexpected ..)

theorem placeFree_expectWord (word : String) (production : Production) :
    PlaceFree (fun _ => Span.none) (expectWord word production) (expectWord word production) :=
  .peek fun _ => .branch placeFree_advance (placeFree_unexpected ..)

theorem placeFree_unrefused (refuse : String → Bool) (cause : String → Cause) (expected : String)
    (production : Production) :
    PlaceFree (Prod.map id fun _ => Span.none) (unrefused refuse cause expected production)
      (unrefused refuse cause expected production) := by
  refine .peek fun kind => ?_
  cases kind with
  | ident name =>
    exact .branch (placeFree_fail ..) (placeFree_advance.bind fun _ => placeFree_pure rfl)
  | _ => exact placeFree_unexpected ..

theorem placeFree_qualifiedName (production : Production) :
    PlaceFree (Prod.map id fun _ => Span.none) (qualifiedName production)
      (qualifiedName production) :=
  placeFree_unrefused ..

theorem placeFree_simpleName (production : Production) :
    PlaceFree (Prod.map id fun _ => Span.none) (simpleName production) (simpleName production) :=
  placeFree_unrefused ..

theorem placeFree_endOfInput (production : Production) :
    PlaceFree id (endOfInput production) (endOfInput production) :=
  .peek fun _ => .branch (placeFree_pure rfl) (placeFree_unexpected ..)

/-! ## Many items -/

section Many

variable {view : α → β} {item : Parser α} {item' : Parser β}

theorem PlaceFree.atMost (starts : Kind → Bool) (h : PlaceFree view item item') : ∀ fuel,
    PlaceFree (List.map view) (Parser.atMost starts item fuel) (Parser.atMost starts item' fuel) := by
  intro fuel
  induction fuel with
  | zero => exact placeFree_pure rfl
  | succ fuel ih =>
    refine .peek fun kind => .branch ?_ (placeFree_pure rfl)
    exact h.bind fun first => ih.bind fun others => placeFree_pure rfl

/-- The bound of a loop is the number of tokens, which does not depend on places. -/
theorem PlaceFree.many (starts : Kind → Bool) (h : PlaceFree view item item') :
    PlaceFree (List.map view) (Parser.many starts item) (Parser.many starts item') := by
  refine ⟨fun tokens => ?_⟩
  show Parser.atMost starts item' ((tokens.map Token.unplaced).length + 1) _ = _
  rw [List.length_map]
  exact (h.atMost starts (tokens.length + 1)).apply_eq tokens

theorem PlaceFree.manyUntil (close : Kind) (h : PlaceFree view item item') :
    PlaceFree (List.map view) (Parser.manyUntil close item) (Parser.manyUntil close item') :=
  (h.many _).bind fun _ => placeFree_advance.bind fun _ => placeFree_pure rfl

end Many

end Parser

end Grammar

open Grammar Grammar.Parser

/-! ## Types -/

namespace TypeRef

theorem openings_unplaced (tokens : List Token) :
    openings (tokens.map Token.unplaced)
      = ((openings tokens).1, (openings tokens).2.map Token.unplaced) := by
  induction tokens with
  | nil => rfl
  | cons t tokens ih =>
    by_cases ht : t.kind = .lparen
    · rw [List.map_cons, openings_lparen (show t.unplaced.kind = .lparen from ht), ih,
        openings_lparen ht]
    · have hfront : openings (t :: tokens) = (0, t :: tokens) := openings_of_front ht
      rw [hfront]
      exact openings_of_front ht

theorem placeFree_arraySuffix (base : TypeRef) :
    PlaceFree id (arraySuffix base) (arraySuffix base) := by
  refine .peek fun _ => .branch (placeFree_pure rfl) (.branch (placeFree_fail ..) ?_)
  refine placeFree_advance.bind fun _ => .peek fun kind => ?_
  cases kind with
  | rbracket =>
    exact placeFree_advance.bind fun _ => .peek fun _ =>
      .branch (placeFree_fail ..) (placeFree_pure rfl)
  | comma => exact placeFree_fail ..
  | _ => exact placeFree_unexpected ..

theorem placeFree_nullableSuffix (base : TypeRef) :
    PlaceFree id (nullableSuffix base) (nullableSuffix base) := by
  refine .peek fun _ => .branch (placeFree_pure rfl) ?_
  cases base with
  | simple p =>
    exact placeFree_advance.bind fun _ => .peek fun _ =>
      .branch (placeFree_fail ..) (placeFree_pure rfl)
  | _ => exact placeFree_fail ..

theorem placeFree_baseType : PlaceFree id baseType baseType := by
  refine .peek fun kind => ?_
  cases kind with
  | ident name =>
    exact .branch (placeFree_fail ..)
      (placeFree_advance.bind fun _ => placeFree_nullableSuffix (ofWritten name))
  | _ => exact placeFree_unexpected ..

theorem placeFree_closings : ∀ (depth : Nat) (type : TypeRef),
    PlaceFree id (closings depth type) (closings depth type) := by
  intro depth
  induction depth with
  | zero => intro type; exact placeFree_pure rfl
  | succ depth ih =>
    intro type
    exact (placeFree_expect ..).bind fun _ => (placeFree_arraySuffix type).bind ih

theorem placeFree_inside (depth : Nat) : PlaceFree id (inside depth) (inside depth) :=
  placeFree_baseType.bind fun base => (placeFree_arraySuffix base).bind (placeFree_closings depth)

theorem placeFree_reader : PlaceFree id reader reader := by
  refine ⟨fun tokens => ?_⟩
  rw [reader_eq_inside, reader_eq_inside, openings_unplaced]
  exact (placeFree_inside (openings tokens).1).apply_eq (openings tokens).2

/-! The look-ahead -/

theorem skipBrackets?_unplaced (tokens : List Token) :
    skipBrackets? (tokens.map Token.unplaced)
      = (skipBrackets? tokens).map (List.map Token.unplaced) := by
  cases tokens with
  | nil => rfl
  | cons t rest =>
    have hkind : t.unplaced.kind = t.kind := rfl
    by_cases ht : t.kind = .lbracket
    · cases rest with
      | nil => simp [skipBrackets?, hkind, ht]
      | cons close behind =>
        have hclose : close.unplaced.kind = close.kind := rfl
        by_cases hc : close.kind = .rbracket
        · simp [skipBrackets?, hkind, ht, hclose, hc]
        · simp [skipBrackets?, hkind, ht, hclose, hc]
    · simp [skipBrackets?, hkind, ht]

theorem skipClosings?_unplaced : ∀ (depth : Nat) (tokens : List Token),
    skipClosings? depth (tokens.map Token.unplaced)
      = (skipClosings? depth tokens).map (List.map Token.unplaced) := by
  intro depth
  induction depth with
  | zero => intro tokens; rfl
  | succ depth ih =>
    intro tokens
    cases tokens with
    | nil => rfl
    | cons t rest =>
      have hkind : t.unplaced.kind = t.kind := rfl
      rw [List.map_cons, skipClosings?, skipClosings?, hkind, skipBrackets?_unplaced]
      split
      · cases skipBrackets? rest with
        | none => rfl
        | some behind => exact ih behind
      · rfl

theorem skipQuestion_unplaced (tokens : List Token) :
    skipQuestion (tokens.map Token.unplaced) = (skipQuestion tokens).map Token.unplaced := by
  cases tokens with
  | nil => rfl
  | cons t rest =>
    have hkind : t.unplaced.kind = t.kind := rfl
    rw [List.map_cons, skipQuestion, skipQuestion, hkind]
    split <;> rfl

theorem skip?_unplaced (tokens : List Token) :
    skip? (tokens.map Token.unplaced) = (skip? tokens).map (List.map Token.unplaced) := by
  unfold skip?
  rw [openings_unplaced]
  obtain ⟨depth, inner⟩ := openings tokens
  cases inner with
  | nil => rfl
  | cons t rest =>
    obtain ⟨kind, span⟩ := t
    cases kind with
    | ident name =>
      show (skipBrackets? (skipQuestion (rest.map Token.unplaced))).bind (skipClosings? depth)
        = ((skipBrackets? (skipQuestion rest)).bind (skipClosings? depth)).map _
      rw [skipQuestion_unplaced, skipBrackets?_unplaced]
      cases skipBrackets? (skipQuestion rest) with
      | none => rfl
      | some behind => exact skipClosings?_unplaced depth behind
    | _ => rfl

end TypeRef

/-! ## Declarations -/

namespace Declaration

theorem placeFree_property : PlaceFree Property.unplaced property property :=
  placeFree_here.bind fun _ => TypeRef.placeFree_reader.bind fun _ =>
    (placeFree_simpleName _).bind fun _ => placeFree_pure rfl

theorem placeFree_nextProperty : PlaceFree Property.unplaced nextProperty nextProperty :=
  placeFree_advance.bind fun _ => placeFree_property

theorem placeFree_propertyList :
    PlaceFree (List.map Property.unplaced) propertyList propertyList := by
  refine (placeFree_expect ..).bind fun _ => .peek fun _ => .branch ?_ ?_
  · exact placeFree_advance.bind fun _ => placeFree_pure rfl
  · refine placeFree_property.bind fun _ => (placeFree_nextProperty.many _).bind fun _ => ?_
    refine .peek fun _ => .branch ?_ (placeFree_unexpected ..)
    exact placeFree_advance.bind fun _ => placeFree_pure rfl

theorem placeFree_recordBody (start : Span) (production : Production) :
    PlaceFree Record.unplaced (recordBody start production) (recordBody .none production) := by
  rw [recordBody_eq, recordBody_eq]
  refine (placeFree_qualifiedName production).bind fun _ => ?_
  have hlist : PlaceFree (List.map Property.unplaced) optionalList optionalList :=
    .peek fun _ => .branch placeFree_propertyList (placeFree_pure rfl)
  exact hlist.bind fun _ => (placeFree_expect ..).bind fun _ => placeFree_pure rfl

theorem wrapsType_unplaced (tokens : List Token) :
    wrapsType (tokens.map Token.unplaced) = wrapsType tokens := by
  unfold wrapsType
  rw [TypeRef.skip?_unplaced]
  cases TypeRef.skip? tokens with
  | none => rfl
  | some rest =>
    show decide (front (rest.map Token.unplaced) = .rparen) = _
    rw [front_unplaced]

theorem placeFree_shorthand : PlaceFree (List.map Property.unplaced) shorthand shorthand :=
  placeFree_here.bind fun _ => TypeRef.placeFree_reader.bind fun _ => placeFree_pure rfl

theorem placeFree_valueProperties (nameSpan : Span) :
    PlaceFree (List.map Property.unplaced) (valueProperties nameSpan) (valueProperties .none) := by
  refine ⟨fun tokens => ?_⟩
  unfold valueProperties
  rw [front_unplaced, ← List.map_tail, wrapsType_unplaced]
  cases front tokens with
  | rparen => rfl
  | lparen =>
    by_cases hw : wrapsType tokens.tail = true
    · simp only [hw, if_true]
      exact placeFree_shorthand.apply_eq tokens
    · simp only [hw]
      exact placeFree_propertyList.apply_eq tokens
  | _ => exact placeFree_shorthand.apply_eq tokens

theorem placeFree_valueTypeBody (start : Span) :
    PlaceFree Record.unplaced (valueTypeBody start) (valueTypeBody .none) :=
  (placeFree_qualifiedName _).bind fun _ => (placeFree_valueProperties _).bind fun _ =>
    (placeFree_expect ..).bind fun _ => placeFree_pure rfl

theorem placeFree_enumerationBody (start : Span) :
    PlaceFree Enumeration.unplaced (enumerationBody start) (enumerationBody .none) := by
  have hvalue : PlaceFree id (Prod.fst <$> simpleName .enumeration)
      (Prod.fst <$> simpleName .enumeration) :=
    (placeFree_simpleName _).map fun _ => rfl
  refine (placeFree_qualifiedName _).bind fun _ => (placeFree_expect ..).bind fun _ => ?_
  refine (hvalue.manyUntil .rbracket).bind fun values => (placeFree_expect ..).bind fun _ => ?_
  refine placeFree_pure ?_
  rw [List.map_id]
  rfl

theorem placeFree_nestedCommand : PlaceFree Record.unplaced nestedCommand nestedCommand :=
  placeFree_advance.bind fun start => (placeFree_expectWord ..).bind fun _ =>
    placeFree_recordBody start .command

theorem placeFree_serviceBody (start : Span) :
    PlaceFree Service.unplaced (serviceBody start) (serviceBody .none) := by
  refine (placeFree_qualifiedName _).bind fun _ => (placeFree_nestedCommand.many _).bind fun _ => ?_
  rw [List.isEmpty_map]
  refine .branch (placeFree_fail ..) ?_
  exact (placeFree_expect ..).bind fun _ => placeFree_pure rfl

theorem placeFree_body (start : Span) (kind : Kind) :
    PlaceFree unplaced (body start kind) (body .none kind) := by
  cases kind with
  | record kind =>
    cases kind with
    | valueType => exact (placeFree_valueTypeBody start).map fun _ => rfl
    | command => exact (placeFree_recordBody start _).map fun _ => rfl
    | domainEvent => exact (placeFree_recordBody start _).map fun _ => rfl
    | dto => exact (placeFree_recordBody start _).map fun _ => rfl
  | enumeration => exact (placeFree_enumerationBody start).map fun _ => rfl
  | service => exact (placeFree_serviceBody start).map fun _ => rfl

theorem placeFree_reader : PlaceFree unplaced reader reader := by
  refine (placeFree_expect ..).bind fun start => .peek fun kind => ?_
  cases introduces? kind with
  | some kind => exact placeFree_advance.bind fun _ => placeFree_body start kind
  | none => exact placeFree_unexpected ..

end Declaration

/-! ## Documents -/

namespace Document

theorem placeFree_inheritBlock : PlaceFree id inheritBlock inheritBlock := by
  have hname : PlaceFree id (Prod.fst <$> qualifiedName .qualifiedName)
      (Prod.fst <$> qualifiedName .qualifiedName) :=
    (placeFree_qualifiedName _).map fun _ => rfl
  refine (placeFree_expect ..).bind fun _ => (placeFree_expectWord ..).bind fun _ => ?_
  refine (placeFree_expect ..).bind fun _ => (hname.manyUntil .rbracket).bind fun names => ?_
  refine (placeFree_expect ..).bind fun _ => placeFree_pure ?_
  rw [List.map_id]
  rfl

theorem placeFree_groups : ∀ (fuel : Nat) (given : Conventions),
    PlaceFree Conventions.unplaced (groups fuel given) (groups fuel given.unplaced) := by
  intro fuel
  induction fuel with
  | zero => intro given; exact placeFree_pure rfl
  | succ fuel ih =>
    intro given
    have hgroup : ∀ (given' : List QualifiedName → Conventions),
        PlaceFree Conventions.unplaced
          (advance >>= fun _ => inheritBlock >>= fun bases => groups fuel (given' bases))
          (advance >>= fun _ => inheritBlock >>= fun bases =>
            groups fuel (given' bases).unplaced) :=
      fun given' => placeFree_advance.bind fun _ => placeFree_inheritBlock.bind fun bases =>
        ih (given' bases)
    refine .peek fun kind => ?_
    cases kind with
    | keyword word =>
      by_cases hd : word = "domainevents"
      · subst hd
        exact .branch (placeFree_fail ..) (hgroup fun bases => { given with domainEvents := bases })
      by_cases hc : word = "commands"
      · subst hc
        exact .branch (placeFree_fail ..) (hgroup fun bases => { given with commands := bases })
      · simp only
        exact placeFree_unexpected ..
    | _ => exact placeFree_pure rfl

theorem placeFree_conventionsBody (start : Span) :
    PlaceFree Conventions.unplaced (conventionsBody start) (conventionsBody .none) :=
  (placeFree_expectWord ..).bind fun _ => (placeFree_groups 3 .empty).bind fun _ =>
    (placeFree_expect ..).bind fun _ => placeFree_pure rfl

theorem placeFree_namespaceBody (start : Span) :
    PlaceFree Namespace.unplaced (namespaceBody start) (namespaceBody .none) :=
  (placeFree_expectWord ..).bind fun _ => (placeFree_qualifiedName _).bind fun _ =>
    (Declaration.placeFree_reader.many _).bind fun _ =>
      (placeFree_expect ..).bind fun _ => placeFree_pure rfl

theorem placeFree_laterForm : PlaceFree Namespace.unplaced laterForm laterForm := by
  refine placeFree_advance.bind fun start => .peek fun kind => ?_
  by_cases hd : kind = .ident "defconventions"
  · subst hd
    exact placeFree_fail ..
  by_cases hn : kind = .ident "namespace"
  · subst hn
    exact placeFree_namespaceBody start
  · simp only
    exact placeFree_unexpected ..

theorem startsWithConventions_unplaced (tokens : List Token) :
    startsWithConventions (tokens.map Token.unplaced) = startsWithConventions tokens := by
  unfold startsWithConventions
  rw [← List.map_tail, front_unplaced, front_unplaced]

theorem placeFree_leadingConventions :
    PlaceFree (Option.map Conventions.unplaced) leadingConventions leadingConventions := by
  have hform : PlaceFree (Option.map Conventions.unplaced)
      (advance >>= fun start => some <$> conventionsBody start)
      (advance >>= fun start => some <$> conventionsBody start) :=
    placeFree_advance.bind fun start => (placeFree_conventionsBody start).map fun _ => rfl
  refine ⟨fun tokens => ?_⟩
  unfold leadingConventions
  rw [startsWithConventions_unplaced]
  split
  · exact hform.apply_eq tokens
  · rfl

/-- **Reading a document does not look at places.** -/
theorem placeFree_reader : PlaceFree unplaced reader reader :=
  placeFree_leadingConventions.bind fun _ => (placeFree_laterForm.many _).bind fun _ =>
    (placeFree_endOfInput _).bind fun _ => placeFree_pure rfl

end Document

/-! ## Sources with the same tokens -/

namespace Grammar

open Token (significant tokenize IsSpacing)

/-- Two results of reading that differ in places only: trees that are the same without their places,
or parse errors with the same production and message. -/
inductive SameReading {α : Type} (view : α → α) : Except Error α → Except Error α → Prop
  | read {a b : α} : view a = view b → SameReading view (.ok a) (.ok b)
  | refused {production message : String} {offset line column offset' line' column' : Nat}
      {lineText lineText' : String} :
      SameReading view (.error (.of (.parse production message offset line column lineText)))
        (.error (.of (.parse production message offset' line' column' lineText')))

theorem map_unplaced (tokens : List Token) :
    tokens.map Token.unplaced = (tokens.map Token.kind).map fun kind => ⟨kind, .none⟩ := by
  rw [List.map_map]
  rfl

/-- Two sources with the same row of tokens are read alike by every parser that does not look at
places. -/
theorem Parser.PlaceFree.sameReading {α : Type} {view : α → α} {p : Parser α}
    (h : PlaceFree view p p) {source other : String}
    (hrow : (significant source).map Token.kind = (significant other).map Token.kind) :
    SameReading view (p.run source) (p.run other) := by
  have hsource := h.apply_eq (significant source)
  have hother := h.apply_eq (significant other)
  rw [map_unplaced, hrow, ← map_unplaced, hother] at hsource
  unfold run
  revert hsource
  cases p (significant source) with
  | ok r =>
    cases p (significant other) with
    | ok r' =>
      intro hsame
      obtain ⟨hview, -⟩ := Prod.mk.inj (Except.ok.inj hsame)
      exact .read hview.symm
    | error fault' => intro hsame; cases hsame
  | error fault =>
    cases p (significant other) with
    | ok r' => intro hsame; cases hsame
    | error fault' =>
      intro hsame
      obtain ⟨hproduction, hcause, -⟩ := Fault.mk.inj (Except.error.inj hsame)
      show SameReading view (.error (fault.toError source)) (.error (fault'.toError other))
      rw [Fault.toError, Fault.toError, hproduction, hcause]
      exact .refused

/-- **Layout never changes meaning.**  White space or a comment, put at an offset that lies inside no
token, leaves the row of tokens as it was; and two sources with the same row of tokens are read alike
as documents, as declarations and as type references. -/
theorem layout_irrelevant :
    (∀ before after spacing : String, IsSpacing spacing.toList →
      (∀ t ∈ tokenize (before ++ after),
        ¬ (t.span.start < before.utf8ByteSize ∧ before.utf8ByteSize < t.span.stop)) →
      (significant (before ++ spacing ++ after)).map Token.kind
        = (significant (before ++ after)).map Token.kind) ∧
    ∀ source other : String,
      (significant source).map Token.kind = (significant other).map Token.kind →
      SameReading Document.unplaced (Document.parse source) (Document.parse other) ∧
        SameReading Declaration.unplaced (Declaration.parse source) (Declaration.parse other) ∧
        SameReading id (TypeRef.parse source) (TypeRef.parse other) := by
  refine ⟨fun before after spacing => Token.map_kind_significant_insert, ?_⟩
  intro source other hrow
  have hdeclaration : PlaceFree Declaration.unplaced
      (Declaration.reader >>= fun d => endOfInput .declaration >>= fun _ => pure d)
      (Declaration.reader >>= fun d => endOfInput .declaration >>= fun _ => pure d) :=
    Declaration.placeFree_reader.bind fun _ => (placeFree_endOfInput _).bind fun _ =>
      placeFree_pure rfl
  have htype : PlaceFree id
      (TypeRef.reader >>= fun t => endOfInput .typeRef >>= fun _ => pure t)
      (TypeRef.reader >>= fun t => endOfInput .typeRef >>= fun _ => pure t) :=
    TypeRef.placeFree_reader.bind fun _ => (placeFree_endOfInput _).bind fun _ =>
      placeFree_pure rfl
  exact ⟨Document.placeFree_reader.sameReading hrow, hdeclaration.sameReading hrow,
    htype.sameReading hrow⟩

end Grammar

/-! ### A margin note -/

namespace Margin

open Token (significant tokenize IsSpacing)

/-- The first part of a source, up to a place between two tokens that touch. -/
def before : String := "(namespace Été(defenum E"

/-- The rest of the source. -/
def after : String := "[A]));done"

/-- A comment with the end of its line. -/
def note : String := ";[(\n"

theorem read_with_note :
    IsSpacing note.toList ∧
      (∀ t ∈ tokenize (before ++ after),
        ¬ (t.span.start < before.utf8ByteSize ∧ before.utf8ByteSize < t.span.stop)) ∧
      (significant (before ++ note ++ after)).map Token.kind
        = (significant (before ++ after)).map Token.kind ∧
      SameReading Document.unplaced (Document.parse (before ++ note ++ after))
        (Document.parse (before ++ after)) := by
  have hnote : IsSpacing note.toList := Or.inr ⟨['[', '('], by decide, by decide⟩
  have hplace : ∀ t ∈ tokenize (before ++ after),
      ¬ (t.span.start < before.utf8ByteSize ∧ before.utf8ByteSize < t.span.stop) := by
    decide +kernel
  have hrow := layout_irrelevant.1 before after note hnote hplace
  exact ⟨hnote, hplace, hrow, (layout_irrelevant.2 _ _ hrow).1⟩

end Margin

end DomainForms
