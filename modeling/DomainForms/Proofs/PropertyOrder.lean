import DomainForms.Proofs.DeclarationOrder
import DomainForms.Proofs.Diagnosis
import DomainForms.Proofs.Eval.HashSum
import DomainForms.Proofs.Target.Classification

/-!
# The order of properties

Records whose properties stand in another order have the same slots in another order.  They are
accepted alike, since neither repeated fields nor arrays without a comparison depend on the order,
and the types that they become differ in the order of their members alone.  Fields are kept by their
names, so instances that are made from the same arguments hold the same, and their hash codes are
the same sums.

* `Document.Reordered`: documents that differ in the order of properties only.
* `Model.exists_recordType_of_reordered`, `Model.declarationTypes_of_reordered`: what becomes of a
  record and of a declaration.
* `Compiler.exists_compileDocument_of_reordered`: **a reordered document compiles to reordered
  types.**
* `Compiler.hash_sum_of_value_fields`: the hash code is the sum over the fields of value types, and
  does not depend on the order of properties.
-/

namespace DomainForms

/-! ## Reordered documents -/

/-- A record with its properties in another order. -/
structure Record.Reordered (r s : Record) : Prop where
  /-- The name is the same. -/
  name_eq : s.name = r.name
  /-- The properties are the same, each as often. -/
  properties : r.properties.Perm s.properties

/-- A declaration whose properties, or those of its commands, stand in another order. -/
inductive Declaration.Reordered : Declaration → Declaration → Prop
  | record {kind : RecordKind} {r s : Record} : r.Reordered s →
      Reordered (.record kind r) (.record kind s)
  | enumeration (body : Enumeration) : Reordered (.enumeration body) (.enumeration body)
  | service {s u : Service} : u.name = s.name →
      List.Forall₂ Record.Reordered s.commands u.commands → Reordered (.service s) (.service u)

/-- A namespace with its declarations in the same order, whose properties stand in another order. -/
structure Namespace.Reordered (n m : Namespace) : Prop where
  /-- The name is the same. -/
  name_eq : m.name = n.name
  /-- The declarations are the same, with reordered properties. -/
  declarations : List.Forall₂ Declaration.Reordered n.declarations m.declarations

/-- A document whose properties stand in another order, wherever it places them. -/
structure Document.Reordered (d e : Document) : Prop where
  /-- The conventions are the same. -/
  conventions : d.unplaced.conventions = e.unplaced.conventions
  /-- The namespaces are the same, with reordered properties. -/
  namespaces : List.Forall₂ Namespace.Reordered d.unplaced.namespaces e.unplaced.namespaces

theorem Document.Reordered.scopeNames_eq {d e : Document} (h : d.Reordered e) :
    e.scopeNames = d.scopeNames := by
  have hnames : ∀ d : Document, d.scopeNames = d.unplaced.namespaces.map (·.name.fullName) := by
    intro d
    simp only [scopeNames, unplaced, List.map_map]
    rfl
  have hnamespaces := h.namespaces
  rw [hnames, hnames]
  generalize d.unplaced.namespaces = scopes, e.unplaced.namespaces = others at hnamespaces
  induction hnamespaces with
  | nil => rfl
  | cons hscope _ ih => rw [List.map_cons, List.map_cons, hscope.name_eq, ih]

theorem Document.Reordered.content {d e : Document} (h : d.Reordered e) :
    List.Forall₂ (fun a b => b.1 = a.1 ∧ a.2.Reordered b.2) d.content e.content := by
  have hcontent : ∀ d : Document, d.content
      = d.unplaced.namespaces.flatMap fun scope => scope.declarations.map (scope.name, ·) := by
    intro d
    simp only [Document.content, Document.declarations, unplaced, List.flatMap_map, List.map_flatMap,
      List.map_map, Namespace.unplaced, Function.comp_def]
  rw [hcontent, hcontent]
  refine List.rel_flatMap h.namespaces fun scope other hscope => ?_
  rw [hscope.name_eq, List.forall₂_map_left_iff, List.forall₂_map_right_iff]
  exact hscope.declarations.imp fun _ _ hd => ⟨rfl, hd⟩

theorem Declaration.Reordered.knownTypes_eq {a b : Declaration} (h : a.Reordered b)
    (scope : QualifiedName) : b.knownTypes scope = a.knownTypes scope := by
  cases h with
  | record hr => simp [knownTypes, Declaration.name, Declaration.kind, nestedCommands, hr.name_eq]
  | enumeration body => rfl
  | service hname hcommands =>
    have hnames : ∀ {rs ss : List Record}, List.Forall₂ Record.Reordered rs ss →
        ss.map Record.name = rs.map Record.name := by
      intro rs ss h
      induction h with
      | nil => rfl
      | cons hr _ ih => rw [List.map_cons, List.map_cons, hr.name_eq, ih]
    have hmap := congrArg (List.map fun name => KnownType.mk (scope.qualify name) false)
      (hnames hcommands)
    rw [List.map_map, List.map_map] at hmap
    rw [knownTypes, knownTypes, Declaration.name, Declaration.name, hname]
    exact congrArg _ hmap

theorem Document.Reordered.knownTypes_eq {d e : Document} (h : d.Reordered e) :
    e.knownTypes = d.knownTypes := by
  rw [Document.knownTypes_content, Document.knownTypes_content]
  have hcontent := h.content
  generalize d.content = items, e.content = others at hcontent
  induction hcontent with
  | nil => rfl
  | @cons a b _ _ hd _ ih =>
    obtain ⟨scope, declaration⟩ := a
    obtain ⟨scope', declaration'⟩ := b
    obtain ⟨hscope, hd⟩ := hd
    have hfirst : declaration'.knownTypes scope' = declaration.knownTypes scope := by
      rw [show scope' = scope from hscope, hd.knownTypes_eq]
    rw [List.flatMap_cons, List.flatMap_cons, ih]
    exact congrArg (· ++ _) hfirst

/-! ## Reordered types -/

/-- A type whose slots stand in another order, where the slots of value types are those of the hashed
types. -/
structure TypeDefinition.Reordered (hashed : TypeRef → Bool) (t u : TypeDefinition) : Prop where
  /-- The kind is the same. -/
  kind_eq : u.kind = t.kind
  /-- The name is the same. -/
  name_eq : u.name = t.name
  /-- The namespace is the same. -/
  scope_eq : u.scope = t.scope
  /-- The slots of a class or struct are the same, in another order. -/
  slots : Evaluator.isInstantiable t.kind = true → ∃ kind slots slots',
    t.IsGenerated kind slots ∧ u.IsGenerated kind slots' ∧ slots.Perm slots' ∧
      ∀ s ∈ slots, s.isValueType = hashed s.type

theorem TypeDefinition.Reordered.fullName_eq {hashed : TypeRef → Bool} {t u : TypeDefinition}
    (h : t.Reordered hashed u) : u.fullName = t.fullName := by
  rw [fullName, fullName, h.name_eq, h.scope_eq]

theorem exists_forall₂_of_step {α β : Type} {R : α → α → Prop} {S : β → β → Prop}
    {P Q : α → β → Prop} {as as' : List α} {bs : List β} (h : List.Forall₂ R as as')
    (hP : List.Forall₂ P as bs) (hstep : ∀ {a a' b}, R a a' → P a b → ∃ b', Q a' b' ∧ S b b') :
    ∃ bs', List.Forall₂ Q as' bs' ∧ List.Forall₂ S bs bs' := by
  induction h generalizing bs with
  | nil =>
    cases hP
    exact ⟨[], .nil, .nil⟩
  | cons hab _ ih =>
    cases hP with
    | cons hb hbs =>
      obtain ⟨b', hQ, hS⟩ := hstep hab hb
      obtain ⟨bs', hQs, hSs⟩ := ih hbs
      exact ⟨b' :: bs', .cons hQ hQs, .cons hS hSs⟩

namespace Model

variable {m : Model} {scope : QualifiedName}

theorem not_unsupported_of_recordType {kind : RecordKind} {r : Record} {t : TypeDefinition}
    (ht : m.recordType scope kind r = .ok t) {slots : List Slot}
    (hslots : r.properties.mapM (m.slot scope) = .ok slots) (hgen : t.IsGenerated kind slots) :
    ∀ s ∈ slots, ¬ s.type.Unsupported := by
  intro s hs hunsupported
  obtain ⟨first, hfirst⟩ := Outcome.exists_isFirst_iff (P := fun s : Slot => s.type.Unsupported)
    |>.mpr ⟨s, hs, hunsupported⟩
  have herror : m.recordType scope kind r = .error _ :=
    (recordType_eq_error_of_slots hslots).mpr (Or.inr ⟨hgen.nodup, first, hfirst, rfl⟩)
  rw [ht] at herror
  cases herror

/-- **A reordered record becomes a reordered type.** -/
theorem exists_recordType_of_reordered (hm : m.KnowsPaths) {kind : RecordKind} {r s : Record}
    (hr : r.Reordered s) {t : TypeDefinition} (ht : m.recordType scope kind r = .ok t) :
    ∃ u, m.recordType scope kind s = .ok u ∧ t.Reordered m.isValue u := by
  obtain ⟨slots, hslots, hgen⟩ := isGenerated_of_recordType ht
  obtain ⟨slots', hslots', hperm⟩ :=
    List.perm_comp_forall₂ hr.properties.symm (Outcome.mapM_eq_ok.mp hslots)
  rw [← Outcome.mapM_eq_ok] at hslots'
  cases hu : m.recordType scope kind s with
  | error e =>
    rcases (recordType_eq_error_of_slots hslots').mp hu with
      ⟨repeated, hrepeat, -⟩ | ⟨-, first, hfirst, -⟩
    · exact absurd ((hperm.map Slot.field).nodup_iff.mpr hgen.nodup) hrepeat.not_nodup
    · have hmem := hperm.mem_iff.mp hfirst.mem
      exact absurd hfirst.holds (not_unsupported_of_recordType ht hslots hgen first hmem)
  | ok u =>
    refine ⟨u, rfl, ?_⟩
    obtain ⟨slots'', hslots'', hgen'⟩ := isGenerated_of_recordType hu
    cases hslots'.symm.trans hslots''
    obtain ⟨hkind, hname, hscope, -⟩ := recordType_eq_ok ht
    obtain ⟨hkind', hname', hscope', -⟩ := recordType_eq_ok hu
    rw [hr.name_eq] at hname' hscope'
    refine ⟨hkind'.trans hkind.symm, hname'.trans hname.symm, hscope'.trans hscope.symm,
      fun _ => ⟨kind, slots, slots', hgen, hgen', hperm.symm, fun s hs => ?_⟩⟩
    obtain ⟨p, -, hp⟩ := Outcome.exists_of_mem_mapM hslots hs
    obtain ⟨-, resolved, hresolved, htype, hvalue⟩ := slot_eq_ok hp
    rw [htype, hvalue, isValue_resolved hm hresolved]

/-- **A reordered declaration becomes reordered types.** -/
theorem declarationTypes_of_reordered (hm : m.KnowsPaths) {a b : Declaration} (h : a.Reordered b)
    {types : List TypeDefinition} (htypes : m.declarationTypes scope a = .ok types) :
    ∃ types', m.declarationTypes scope b = .ok types' ∧
      List.Forall₂ (TypeDefinition.Reordered m.isValue) types types' := by
  cases h with
  | record hr =>
    obtain ⟨t, ht, htypes⟩ := Outcome.bind_eq_ok.mp htypes
    cases htypes
    obtain ⟨u, hu, hreordered⟩ := exists_recordType_of_reordered hm hr ht
    exact ⟨[u], Outcome.bind_eq_ok.mpr ⟨u, hu, rfl⟩, .cons hreordered .nil⟩
  | enumeration body =>
    refine ⟨types, htypes, ?_⟩
    obtain ⟨t, ht, hsingle⟩ := Outcome.bind_eq_ok.mp htypes
    cases hsingle
    refine .cons ⟨rfl, rfl, rfl, fun hk => ?_⟩ .nil
    rw [(enumerationType_eq_ok ht).1] at hk
    cases hk
  | @service s u hname hcommands =>
    obtain ⟨commands, hrecords, htypes⟩ := Outcome.bind_eq_ok.mp htypes
    cases htypes
    obtain ⟨commands', hrecords', hreordered⟩ := exists_forall₂_of_step hcommands
      (Outcome.mapM_eq_ok.mp hrecords) fun hr ht => exists_recordType_of_reordered hm hr ht
    refine ⟨interfaceType m.settings scope u :: commands',
      Outcome.bind_eq_ok.mpr ⟨commands', Outcome.mapM_eq_ok.mpr hrecords', rfl⟩,
      .cons ⟨rfl, ?_, ?_, fun hk => by cases hk⟩ hreordered⟩
    · simp only [interfaceType, hname]
    · simp only [interfaceType, hname]

end Model

/-! ## Reordered outputs -/

section

variable {hashed : TypeRef → Bool}

theorem TypeDefinition.reordered_filter {p : TypeDefinition → Bool}
    (hp : ∀ {t u : TypeDefinition}, t.Reordered hashed u → p u = p t)
    {types types' : List TypeDefinition} (h : List.Forall₂ (Reordered hashed) types types') :
    List.Forall₂ (Reordered hashed) (types.filter p) (types'.filter p) := by
  induction h with
  | nil => exact .nil
  | cons ht _ ih =>
    rw [List.filter_cons, List.filter_cons, hp ht]
    split
    · exact .cons ht ih
    · exact ih

theorem TypeDefinition.map_scope_of_reordered {types types' : List TypeDefinition}
    (h : List.Forall₂ (Reordered hashed) types types') : types.map scope = types'.map scope := by
  induction h with
  | nil => rfl
  | cons ht _ ih => rw [List.map_cons, List.map_cons, ht.scope_eq, ih]

theorem Output.reordered_grouped {types types' : List TypeDefinition}
    (h : List.Forall₂ (TypeDefinition.Reordered hashed) types types') (names : List String) :
    List.Forall₂ (TypeDefinition.Reordered hashed) (grouped names types).types
      (grouped names types').types := by
  rw [Output.types, Output.types, grouped, grouped, List.flatMap_map, List.flatMap_map]
  generalize names.eraseDups = scopes
  induction scopes with
  | nil => exact .nil
  | cons first rest ih =>
    rw [List.flatMap_cons, List.flatMap_cons]
    exact List.rel_append
      (TypeDefinition.reordered_filter (fun ht => by rw [ht.scope_eq]) h) ih

theorem exists_head?_of_forall₂ {α β : Type} {R : α → β → Prop} {as : List α} {bs : List β}
    (h : List.Forall₂ R as bs) {a : α} (ha : as.head? = some a) :
    ∃ b, bs.head? = some b ∧ R a b := by
  cases h with
  | nil => cases ha
  | cons hab _ =>
    cases ha
    exact ⟨_, rfl, hab⟩

/-- **An evaluator finds reordered types** under the same names. -/
theorem Evaluator.record?_of_reordered {o o' : Output}
    (h : List.Forall₂ (TypeDefinition.Reordered hashed) o.types o'.types) {typeName : String}
    {t : TypeDefinition} (ht : (Evaluator.of o).record? typeName = some t) :
    ∃ u, (Evaluator.of o').record? typeName = some u ∧ t.Reordered hashed u := by
  obtain ⟨hfind, hk⟩ := record?_eq_some.mp ht
  have hnamed := List.forall₂_reverse_iff.mpr (TypeDefinition.reordered_filter
    (p := (·.fullName == typeName)) (fun ht => by rw [ht.fullName_eq]) h)
  rw [find?_of, ← List.head?_reverse] at hfind
  obtain ⟨u, hu, hreordered⟩ := exists_head?_of_forall₂ hnamed hfind
  refine ⟨u, record?_eq_some.mpr ⟨?_, hreordered.kind_eq ▸ hk⟩, hreordered⟩
  rw [find?_of, ← List.head?_reverse, hu]

end

namespace Compiler

variable {c : Compiler} {source : String} {d e : Document} {o : Output}

/-- **A reordered document compiles to reordered types**, in the same order. -/
theorem exists_compileDocument_of_reordered (hparse : Document.parse source = .ok d)
    (h : d.Reordered e) (hok : c.compileDocument d = .ok o) :
    ∃ o', c.compileDocument e = .ok o' ∧
      List.Forall₂ (TypeDefinition.Reordered (c.model d).isValue) o.types o'.types := by
  obtain ⟨⟨table, htable⟩, hgen⟩ := compileDocument_eq_ok.mp hok
  have hknown : (c.model e).knownTypes = (c.model d).knownTypes := by
    rw [knownTypes_model, knownTypes_model, h.knownTypes_eq]
  have hsame : ∀ scope declaration, (c.model d).declarationTypes scope declaration
      = (c.model e).declarationTypes scope declaration :=
    Model.declarationTypes_congr rfl hknown.symm (Conventions.bases_override h.conventions)
  obtain ⟨types, htypes, rfl⟩ := Model.generate_eq_ok.mp hgen
  obtain ⟨lists, hlists, rfl⟩ := types_eq_ok.mp htypes
  have hstep : ∀ {item other : QualifiedName × Declaration} {list : List TypeDefinition},
      other.1 = item.1 ∧ item.2.Reordered other.2 →
        (c.model d).declarationTypes item.1 item.2 = .ok list →
          ∃ list', (c.model e).declarationTypes other.1 other.2 = .ok list' ∧
            List.Forall₂ (TypeDefinition.Reordered (c.model d).isValue) list list' := by
    rintro item other list ⟨hscope, hd⟩ hlist
    obtain ⟨list', hlist', hreordered⟩ :=
      Model.declarationTypes_of_reordered (c.knowsPaths_model hparse) hd hlist
    rw [hsame, ← hscope] at hlist'
    exact ⟨list', hlist', hreordered⟩
  obtain ⟨lists', hlists', hreordered⟩ := exists_forall₂_of_step h.content hlists hstep
  have hflat := List.rel_flatten hreordered
  have htypes' : (c.model e).types = .ok lists'.flatten := types_eq_ok.mpr ⟨lists', hlists', rfl⟩
  have hgen' := Model.generate_eq_ok.mpr ⟨_, htypes', rfl⟩
  have hscopes : lists'.flatten.map TypeDefinition.scope = lists.flatten.map TypeDefinition.scope :=
    (TypeDefinition.map_scope_of_reordered hflat).symm
  have hnames : (c.model e).document.scopeNames = (c.model d).document.scopeNames := by
    rw [scopeNames_model, scopeNames_model, h.scopeNames_eq]
  refine ⟨_, compileDocument_eq_ok.mpr ⟨⟨table, hknown.trans htable⟩, hgen'⟩, ?_⟩
  rw [hnames, hscopes]
  exact Output.reordered_grouped hflat _

end Compiler

/-! ## Instances of reordered types -/

namespace Evaluator

variable {e e' : Evaluator} {hashed : TypeRef → Bool} {typeName : String} {t t' : TypeDefinition}

/-- **Instances of reordered types that are made from the same arguments hold the same.** -/
theorem exists_construct_of_reordered (ht : e.record? typeName = some t)
    (ht' : e'.record? typeName = some t') (h : t.Reordered hashed t') {identity : Nat}
    {arguments arguments' : List Value} {x : Value}
    (hx : e.construct identity typeName arguments = .ok x)
    (hlen : arguments'.length = arguments.length)
    (hargs : (t.accessors.zip arguments).Perm (t'.accessors.zip arguments')) (identity' : Nat) :
    ∃ made made' fields, x = .object made typeName fields ∧
      e'.construct identity' typeName arguments' = .ok (.object made' typeName fields) := by
  obtain ⟨kind, slots, slots', hgen, hgen', hperm, -⟩ := h.slots (record?_eq_some.mp ht).2
  obtain ⟨hslots, made, rfl⟩ := exists_of_construct ht hgen hx
  obtain ⟨made', hx'⟩ := construct_of_length ht' hgen' identity'
    (hlen.trans (hslots.trans hperm.length_eq))
  refine ⟨made, made', _, rfl, ?_⟩
  have hnodup : (((slots.map Slot.field).zip arguments).map Prod.fst).Nodup := by
    rw [List.map_fst_zip (Nat.le_of_eq (by rw [List.length_map, hslots]))]
    exact hgen.nodup
  have hentries : ((slots.map Slot.field).zip arguments).Perm
      ((slots'.map Slot.field).zip arguments') := by
    rw [hgen.zip_fields, hgen'.zip_fields]
    exact hargs.map _
  rw [hx', NameMap.ofList_eq_of_perm hnodup hentries]

/-- **Evaluators of reordered types hash alike.** -/
theorem hashesAlike_of_reordered {o o' : Output}
    (h : List.Forall₂ (TypeDefinition.Reordered hashed) o.types o'.types) :
    (Evaluator.of o).HashesAlike (Evaluator.of o') hashed := by
  intro typeName t ht
  obtain ⟨t', ht', hreordered⟩ := record?_of_reordered h ht
  obtain ⟨-, hname⟩ := mem_types_of_find? (record?_eq_some.mp ht).1
  obtain ⟨kind, slots, slots', hgen, hgen', hperm, hvalue⟩ :=
    hreordered.slots (record?_eq_some.mp ht).2
  exact ⟨hname, t', kind, kind, slots, slots', ht', hreordered.fullName_eq.trans hname,
    hgen.toIsRecord, hgen'.toIsRecord, hperm, hvalue⟩

theorem hash_eq_of_get_eq (he : e.HashesBy hashed)
    (hlooked : ∀ type, hashed type = true → e.isIgnored type = false)
    (ht : e.record? typeName = some t) {a b : Value} (ha : e.isHashable t a = true)
    (hb : e.isHashable t b = true)
    (hget : ∀ f ∈ t.fields, hashed f.type = true → e.get b f.name = e.get a f.name) :
    e.hash b = e.hash a := by
  obtain ⟨codes, hcodes, hsum⟩ := hash_eq_sum he hlooked ht ha
  obtain ⟨codes', hcodes', hsum'⟩ := hash_eq_sum he hlooked ht hb
  have hsteps : (t.fields.filter fun f => hashed f.type).map (fun f => do e.hash (← e.get b f.name))
      = (t.fields.filter fun f => hashed f.type).map (fun f => do e.hash (← e.get a f.name)) := by
    refine List.map_congr_left fun f hf => ?_
    obtain ⟨hf, hvalue⟩ := List.mem_filter.mp hf
    rw [hget f hf hvalue]
  have hsame := congrArg (List.mapM id) hsteps
  simp only [List.mapM_map, Function.id_comp] at hsame
  rw [hcodes, hcodes', Except.ok.injEq] at hsame
  rw [hsum, hsum', hsame]

end Evaluator

namespace Compiler

variable {c : Compiler} {source : String} {document : Document} {o : Output}

/-- **Neither arrays nor classes are of value types.** -/
theorem not_isIgnored_of_isValue (hparse : Document.parse source = .ok document)
    (h : c.compileDocument document = .ok o) (type : TypeRef)
    (hvalue : (c.model document).isValue type = true) :
    (Evaluator.of o).isIgnored type = false := by
  cases type with
  | named name =>
    cases ht : (Evaluator.of o).record? name.fullName with
    | none => rw [Evaluator.isIgnored, ht]; rfl
    | some t =>
      rw [Evaluator.isIgnored, ht]
      simp [kind_eq_struct_of_isValue hparse h ht hvalue]
  | array element ranks => cases Model.isArray_of_isValue hvalue
  | _ => rfl

/-- **The hash code is the sum over the fields of value types**, wrapped to 64 bits.  Strings,
arrays and classes are not of value types, so the hash code does not depend on them; and where the
properties stand in another order, instances that are made from the same arguments have the same
hash code. -/
theorem hash_sum_of_value_fields (hparse : Document.parse source = .ok document)
    (h : c.compile source = .ok o) {typeName : String} {t : TypeDefinition}
    (ht : (Evaluator.of o).record? typeName = some t) :
    (∀ a, (Evaluator.of o).isHashable t a = true → ∃ codes x,
      (t.fields.filter fun f => (c.model document).isValue f.type).mapM (fun f => do
        (Evaluator.of o).hash (← (Evaluator.of o).get a f.name)) = .ok codes ∧
      (Evaluator.of o).hash a = .ok x ∧
      x.toInt = (codes.map Int64.toInt).sum.bmod Int64.size) ∧
    (∀ type, type = .string ∨ (Evaluator.of o).isIgnored type = true →
      (c.model document).isValue type = false) ∧
    (∀ a b, (Evaluator.of o).isHashable t a = true → (Evaluator.of o).isHashable t b = true →
      (∀ f ∈ t.fields, (c.model document).isValue f.type = true →
        (Evaluator.of o).get b f.name = (Evaluator.of o).get a f.name) →
      (Evaluator.of o).hash b = (Evaluator.of o).hash a) ∧
    (∀ source' document', Document.parse source' = .ok document' → document.Reordered document' →
      ∃ o' t', c.compile source' = .ok o' ∧ (Evaluator.of o').record? typeName = some t' ∧
        t.accessors.Perm t'.accessors ∧
        ∀ identity identity' arguments arguments' x,
          (Evaluator.of o).construct identity typeName arguments = .ok x →
          arguments'.length = arguments.length →
          (t.accessors.zip arguments).Perm (t'.accessors.zip arguments') →
          (Evaluator.of o).isHashable t x = true →
          ∃ x', (Evaluator.of o').construct identity' typeName arguments' = .ok x' ∧
            (Evaluator.of o').hash x' = (Evaluator.of o).hash x) := by
  have hdocument := compileDocument_of_compile hparse h
  have he : (Evaluator.of o).HashesBy (c.model document).isValue :=
    Evaluator.hashesBy_of_generate (c.knowsPaths_model hparse) (compileDocument_eq_ok.mp hdocument).2
  have hlooked := not_isIgnored_of_isValue hparse hdocument
  refine ⟨fun a ha => ?_, fun type htype => ?_, fun a b ha hb hget => ?_,
    fun source' document' hparse' hreordered => ?_⟩
  · obtain ⟨codes, hcodes, hsum⟩ := Evaluator.hash_eq_sum he hlooked ht ha
    exact ⟨codes, codes.sum, hcodes, hsum, toInt_sum codes⟩
  · rcases htype with rfl | htype
    · rfl
    · by_contra hvalue
      rw [Bool.not_eq_false] at hvalue
      rw [hlooked type hvalue] at htype
      cases htype
  · exact Evaluator.hash_eq_of_get_eq he hlooked ht ha hb hget
  · obtain ⟨o', hdocument', htypes⟩ :=
      exists_compileDocument_of_reordered hparse hreordered hdocument
    obtain ⟨t', ht', hreordered'⟩ := Evaluator.record?_of_reordered htypes ht
    obtain ⟨kind, slots, slots', hgen, hgen', hperm, -⟩ :=
      hreordered'.slots (Evaluator.record?_eq_some.mp ht).2
    refine ⟨o', t', compile_eq_ok_iff.mpr ⟨document', hparse', hdocument'⟩, ht', ?_, ?_⟩
    · rw [hgen.accessors_eq, hgen'.accessors_eq]
      exact hperm.map _
    · intro identity identity' arguments arguments' x hx hlen hargs hhashable
      obtain ⟨made, made', fields, rfl, hx'⟩ :=
        Evaluator.exists_construct_of_reordered ht ht' hreordered' hx hlen hargs identity'
      exact ⟨_, hx', Evaluator.hash_eq_hash (Evaluator.hashesAlike_of_reordered htypes) hlooked ht
        hhashable made'⟩

end Compiler

/-! ### Tickets -/

namespace Tickets

/-- The properties of a ticket. -/
def properties : List Property :=
  [⟨some "N", some (.simple .int), .none⟩, ⟨some "B", some (.simple .bool), .none⟩,
    ⟨some "S", some .string, .none⟩]

/-- A document with one type, which has the given properties. -/
def document (properties : List Property) : Document :=
  ⟨none, [⟨⟨["T"]⟩, [.record .dto ⟨"D", properties, .none⟩], .none⟩]⟩

/-- A source with two properties of value types, and a string. -/
def source : String := "(namespace T (defdto D (int N, bool B, string S)))"

/-- The document of the source. -/
def placed : Document := (Document.parse source).toOption.get (by decide +kernel)

/-- What the source compiles to. -/
def output : Output := (Compiler.standard.compile source).toOption.get (by decide +kernel)

/-- The type of tickets. -/
def ticket : TypeDefinition := ((Evaluator.of output).record? "T.D").get (by decide +kernel)

/-- A ticket. -/
def made : Value :=
  ((Evaluator.of output).construct 0 "T.D" [.int 2, .bool true, .str "a"]).toOption.get
    (by decide +kernel)

theorem parse_source : Document.parse source = .ok placed := by
  unfold placed
  exact Outcome.eq_ok_get _

theorem compile_source : Compiler.standard.compile source = .ok output := by
  unfold output
  exact Outcome.eq_ok_get _

theorem record_ticket : (Evaluator.of output).record? "T.D" = some ticket := by
  unfold ticket
  exact (Option.some_get _).symm

theorem construct_made :
    (Evaluator.of output).construct 0 "T.D" [.int 2, .bool true, .str "a"] = .ok made := by
  unfold made
  exact Outcome.eq_ok_get _

/-- The same properties the other way round. -/
def reversedSource : String := "(namespace T (defdto D (string S, bool B, int N)))"

/-- The document of the reversed source. -/
def reversed : Document := (Document.parse reversedSource).toOption.get (by decide +kernel)

/-- What the reversed source compiles to. -/
def reversedOutput : Output :=
  (Compiler.standard.compile reversedSource).toOption.get (by decide +kernel)

/-- The reversed type of tickets. -/
def reversedTicket : TypeDefinition :=
  ((Evaluator.of reversedOutput).record? "T.D").get (by decide +kernel)

theorem parse_reversedSource : Document.parse reversedSource = .ok reversed := by
  unfold reversed
  exact Outcome.eq_ok_get _

theorem compile_reversedSource :
    Compiler.standard.compile reversedSource = .ok reversedOutput := by
  unfold reversedOutput
  exact Outcome.eq_ok_get _

theorem record_reversedTicket :
    (Evaluator.of reversedOutput).record? "T.D" = some reversedTicket := by
  unfold reversedTicket
  exact (Option.some_get _).symm

theorem placed_reordered : placed.Reordered reversed := by
  have hplaced : placed.unplaced = document properties := by decide +kernel
  have hreversed : reversed.unplaced = document properties.reverse := by decide +kernel
  constructor
  · rw [hplaced, hreversed]
    rfl
  · rw [hplaced, hreversed]
    exact .cons ⟨rfl, .cons (.record ⟨rfl, (List.reverse_perm _).symm⟩) .nil⟩ .nil

/-- The accessors of a ticket. -/
def accessors : List Accessor :=
  [⟨"N", .simple .int, .everyone, .selfMember "_n"⟩,
    ⟨"B", .simple .bool, .everyone, .selfMember "_b"⟩,
    ⟨"S", .string, .everyone, .selfMember "_s"⟩]

theorem accessors_ticket : ticket.accessors = accessors := by
  decide +kernel

theorem accessors_reversedTicket : reversedTicket.accessors = accessors.reverse := by
  decide +kernel

theorem hash_ticket :
    Document.parse source = .ok placed ∧ Compiler.standard.compile source = .ok output ∧
      (Evaluator.of output).record? "T.D" = some ticket ∧
      (Evaluator.of output).isHashable ticket made = true ∧
      Document.parse reversedSource = .ok reversed ∧ placed.Reordered reversed ∧
      ∃ code x', (Evaluator.of output).hash made = .ok code ∧
        (Evaluator.of reversedOutput).construct 0 "T.D" [.str "a", .bool true, .int 2] = .ok x' ∧
        (Evaluator.of reversedOutput).hash x' = .ok code := by
  have hhashable : (Evaluator.of output).isHashable ticket made = true := by decide +kernel
  obtain ⟨hsum, -, -, hreordered⟩ :=
    Compiler.hash_sum_of_value_fields parse_source compile_source record_ticket
  obtain ⟨-, code, -, hcode, -⟩ := hsum made hhashable
  obtain ⟨o', t', hcompile, hrecord, -, hhash⟩ :=
    hreordered reversedSource reversed parse_reversedSource placed_reordered
  obtain rfl : reversedOutput = o' := Except.ok.inj (compile_reversedSource.symm.trans hcompile)
  obtain rfl : reversedTicket = t' := Option.some.inj (record_reversedTicket.symm.trans hrecord)
  have hargs : (ticket.accessors.zip [.int 2, .bool true, .str "a"]).Perm
      (reversedTicket.accessors.zip [Value.str "a", .bool true, .int 2]) := by
    rw [accessors_ticket, accessors_reversedTicket]
    exact (List.reverse_perm (accessors.zip [Value.int 2, .bool true, .str "a"])).symm
  obtain ⟨x', hx', hsame⟩ := hhash 0 0 [.int 2, .bool true, .str "a"]
    [.str "a", .bool true, .int 2] made construct_made rfl hargs hhashable
  exact ⟨parse_source, compile_source, record_ticket, hhashable, parse_reversedSource,
    placed_reordered, code, x', hcode, hx', hsame.trans hcode⟩

end Tickets

end DomainForms
