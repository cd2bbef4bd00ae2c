import DomainForms.Proofs.Eval.Settling

/-!
# Made instances

A constructor stores its arguments one by one.  The names of its parameters differ, because those of
the fields do and are made from them, so every field ends up with its own argument.  A member of the
instance is looked up among the fields first, and among the properties only then: a property that is
named like the field of another one cannot be read, and what is read in its place is that other
property's argument.

* `Stmt.execAll_stores`: a row of stores fills the fields in order.
* `Evaluator.construct_of_length`, `Evaluator.exists_of_construct`: **what constructors make.**
* `Evaluator.get_of_construct`: what the properties of a made instance return.
* `Compiler.get_construct_iff`: properties return the arguments of the constructor, exactly if no
  property is named like a field.
* `Compiler.construct_stores_arguments`: the fields always hold them.
-/

namespace DomainForms

/-! ## Stores -/

namespace NameMap

variable {α : Type} {keys : List String} {values : List α}

theorem perm_ofList_zip (hnd : keys.Nodup) (hlen : values.length = keys.length) :
    (ofList (keys.zip values)).Perm (keys.zip values) := by
  refine perm_ofList ?_
  rw [List.map_fst_zip (Nat.le_of_eq hlen.symm)]
  exact hnd

theorem find?_ofList_zip (hnd : keys.Nodup) (hlen : values.length = keys.length) {key : String}
    {value : α} (h : (key, value) ∈ keys.zip values) :
    find? key (ofList (keys.zip values)) = some value := by
  rw [find?_eq_some_iff (increasing_ofList _), (perm_ofList_zip hnd hlen).mem_iff]
  exact h

theorem find?_ofList_zip_eq_none {key : String} (h : key ∉ keys) :
    find? key (ofList (keys.zip values)) = none := by
  cases hfind : find? key (ofList (keys.zip values)) with
  | none => rfl
  | some value => exact absurd (List.of_mem_zip (mem_of_find?_ofList hfind)).1 h

end NameMap

/-- **A row of stores** fills the fields of an instance, one after the other. -/
theorem Stmt.execAll_stores (calls : Calls) {locals : NameMap Value} (typeName : String) :
    ∀ {slots : List Slot} {arguments : List Value}, arguments.length = slots.length →
      (∀ s v, (s, v) ∈ slots.zip arguments → locals.find? (parameterName s.property) = some v) →
        ∀ (identity : Nat) (fields : List (String × Value)), ∃ identity',
          Stmt.execAll calls ⟨.object identity typeName fields, locals⟩ (slots.map Slot.store)
          = .ok (⟨.object identity' typeName (((slots.map Slot.field).zip arguments).foldl
              (fun map (key, value) => NameMap.insert key value map) fields), locals⟩, none) := by
  intro slots
  induction slots with
  | nil => intro arguments _ _ identity fields; exact ⟨identity, rfl⟩
  | cons s rest ih =>
    intro arguments hlen hlocals identity fields
    cases arguments with
    | nil => cases hlen
    | cons v arguments =>
      have hv : (Expr.ident (parameterName s.property)).eval calls
          ⟨.object identity typeName fields, locals⟩ = .ok v := by
        rw [Expr.eval, hlocals s v List.mem_cons_self]
      have hrest : ∀ s v, (s, v) ∈ rest.zip arguments →
          locals.find? (parameterName s.property) = some v :=
        fun s v hm => hlocals s v (List.mem_cons_of_mem _ hm)
      obtain ⟨identity', hih⟩ := ih (Nat.succ.inj hlen) hrest
        (Frame.mk (.object identity typeName fields) locals).freshIdentity
        (NameMap.insert s.field v fields)
      refine ⟨identity', ?_⟩
      rw [List.map_cons, Stmt.execAll, Slot.store, Stmt.exec, hv]
      exact hih

namespace TypeDefinition.IsGenerated

variable {t : TypeDefinition} {kind : RecordKind} {slots : List Slot}

theorem nodup_parameters (h : t.IsGenerated kind slots) :
    (slots.map fun s => parameterName s.property).Nodup := by
  have hfields : slots.map Slot.field
      = (slots.map fun s => parameterName s.property).map ("_" ++ ·) := by
    rw [List.map_map]
    exact List.map_congr_left fun s hs => h.field_eq s hs
  have hnd := h.nodup
  rw [hfields] at hnd
  exact (List.pairwise_map.mp hnd).imp fun hne he => hne (congrArg _ he)

theorem zip_fields (h : t.IsGenerated kind slots) (arguments : List Value) :
    (slots.map Slot.field).zip arguments
      = (t.accessors.zip arguments).map fun (a, v) => (fieldName a.name, v) := by
  rw [h.accessors_eq, List.zip_map_left, List.zip_map_left, List.map_map]
  refine List.map_congr_left fun (s, v) hs => ?_
  exact congrArg (·, v) (h.field_eq s (List.of_mem_zip hs).1)

end TypeDefinition.IsGenerated

/-! ## Constructors -/

namespace Evaluator

variable {e : Evaluator} {typeName : String} {t : TypeDefinition} {kind : RecordKind}
  {slots : List Slot}

theorem construct_eq (ht : e.record? typeName = some t) (hrec : t.IsRecord kind slots)
    (identity : Nat) (arguments : List Value) :
    e.construct identity typeName arguments
      = if slots.length ≠ arguments.length then
          .error (.wrongArity typeName slots.length arguments.length)
        else do
          let (final, _) ← Stmt.execAll (e.callsFor arguments)
            (.of (.object identity typeName []) (slots.map Slot.toParameter) arguments)
            (slots.map Slot.store)
          return final.self := by
  obtain ⟨-, hk⟩ := record?_eq_some.mp ht
  rw [construct, lookup_of_record? ht, Outcome.ok_bind, hk, hrec.constructor?_eq]
  simp [constructorOf]

/-- **A constructor makes an instance from an argument for every property.**  Every field of the
instance holds its own argument. -/
theorem construct_of_length (ht : e.record? typeName = some t) (hgen : t.IsGenerated kind slots)
    (identity : Nat) {arguments : List Value} (hlen : arguments.length = slots.length) :
    ∃ identity', e.construct identity typeName arguments = .ok (.object identity' typeName
      (NameMap.ofList ((slots.map Slot.field).zip arguments))) := by
  let names := slots.map fun s => parameterName s.property
  have hnames : (slots.map Slot.toParameter).map Parameter.name = names := by
    rw [List.map_map]
    rfl
  have hlocals : ∀ s v, (s, v) ∈ slots.zip arguments →
      NameMap.find? (parameterName s.property) (.ofList (names.zip arguments)) = some v := by
    intro s v hm
    refine NameMap.find?_ofList_zip hgen.nodup_parameters (by rw [List.length_map, hlen]) ?_
    rw [List.zip_map_left]
    exact List.mem_map.mpr ⟨(s, v), hm, rfl⟩
  obtain ⟨identity', hexec⟩ :=
    Stmt.execAll_stores (e.callsFor arguments) typeName hlen hlocals identity []
  refine ⟨identity', ?_⟩
  rw [construct_eq ht hgen.toIsRecord, if_neg (by rw [hlen]; simp), Frame.of, hnames, hexec]
  rfl

theorem exists_of_construct (ht : e.record? typeName = some t) (hgen : t.IsGenerated kind slots)
    {identity : Nat} {arguments : List Value} {x : Value}
    (hx : e.construct identity typeName arguments = .ok x) :
    arguments.length = slots.length ∧ ∃ identity', x = .object identity' typeName
      (NameMap.ofList ((slots.map Slot.field).zip arguments)) := by
  have hlen : arguments.length = slots.length := by
    rw [construct_eq ht hgen.toIsRecord] at hx
    by_contra hne
    rw [if_pos (Ne.symm hne)] at hx
    cases hx
  obtain ⟨identity', hmade⟩ := construct_of_length ht hgen identity hlen
  rw [hmade] at hx
  exact ⟨hlen, identity', (Except.ok.inj hx).symm⟩

/-! ## Members of made instances -/

theorem callsFor_readsFields {arguments : List Value} {v : Value} (h : v ∈ arguments) :
    (e.callsFor arguments).ReadsFields := by
  have hpos : 0 < e.depth arguments := by
    have := size_add_memberCount_lt_depth (e := e) h
    omega
  obtain ⟨depth, hdepth⟩ := Nat.exists_eq_add_one_of_ne_zero (Nat.ne_of_gt hpos)
  intro identity typeName name fields value hfind
  rw [callsFor, hdepth]
  exact callsAt_readsFields depth hfind

/-- **A member that is named like a field is that field.** -/
theorem get_of_field {identity : Nat} {fields : List (String × Value)} {name : String} {v : Value}
    (h : NameMap.find? name fields = some v) :
    e.get (.object identity typeName fields) name = .ok v := by
  rw [get, readWith, h]

/-- **Any other property is read from its own field.** -/
theorem readWith_property {calls : Calls} (hreads : calls.ReadsFields)
    (ht : e.record? typeName = some t) (hgen : t.IsGenerated kind slots)
    {identity : Nat} {fields : List (String × Value)} {s : Slot} (hs : s ∈ slots) {v : Value}
    (hfield : NameMap.find? s.field fields = some v)
    (hproperty : NameMap.find? s.property fields = none) :
    e.readWith calls (.object identity typeName fields) s.property = .ok v := by
  have hsome : (t.accessors.find? (·.name == s.property)).isSome = true := by
    rw [List.find?_isSome]
    refine ⟨s.toAccessor, ?_, beq_self_eq_true s.property⟩
    rw [hgen.accessors_eq]
    exact List.mem_map_of_mem hs
  obtain ⟨a, ha⟩ := Option.isSome_iff_exists.mp hsome
  -- whichever property of this name comes first, it reads the field that is made from the name
  have hmem := List.mem_of_find?_eq_some ha
  rw [hgen.accessors_eq] at hmem
  obtain ⟨s', hs', rfl⟩ := List.mem_map.mp hmem
  have hname : s'.property = s.property := by
    simpa [Slot.toAccessor] using List.find?_some ha
  rw [hgen.field_eq s hs, ← hname, ← hgen.field_eq s' hs'] at hfield
  rw [readWith, hproperty, lookup_of_record? ht]
  simp only [Outcome.ok_bind, ha]
  exact hreads hfield

theorem get_of_property (ht : e.record? typeName = some t) (hgen : t.IsGenerated kind slots)
    {identity : Nat} {fields : List (String × Value)} {s : Slot} (hs : s ∈ slots) {v : Value}
    (hfield : NameMap.find? s.field fields = some v)
    (hproperty : NameMap.find? s.property fields = none) :
    e.get (.object identity typeName fields) s.property = .ok v := by
  have hreads : (e.callsFor [.object identity typeName fields]).ReadsFields :=
    callsFor_readsFields List.mem_cons_self
  rw [get]
  exact readWith_property hreads ht hgen hs hfield hproperty

/-- **A property of a made instance returns its own argument**, unless it is named like the field of
another one, whose argument it returns then. -/
theorem get_of_construct (ht : e.record? typeName = some t) (hgen : t.IsGenerated kind slots)
    {identity : Nat} {arguments : List Value} {x : Value}
    (hx : e.construct identity typeName arguments = .ok x) {a : Accessor} {v : Value}
    (ha : (a, v) ∈ t.accessors.zip arguments) :
    (∀ b w, (b, w) ∈ t.accessors.zip arguments → fieldName b.name = a.name →
      e.get x a.name = .ok w) ∧
      ((∀ b ∈ t.accessors, fieldName b.name ≠ a.name) → e.get x a.name = .ok v) := by
  obtain ⟨hlen, identity', rfl⟩ := exists_of_construct ht hgen hx
  have hslot : ∀ {b w}, (b, w) ∈ t.accessors.zip arguments → ∃ s ∈ slots, s.property = b.name ∧
      NameMap.find? s.field (.ofList ((slots.map Slot.field).zip arguments)) = some w := by
    intro b w hb
    rw [hgen.accessors_eq, List.zip_map_left] at hb
    obtain ⟨⟨s, w'⟩, hs, he⟩ := List.mem_map.mp hb
    cases he
    refine ⟨s, (List.of_mem_zip hs).1, rfl,
      NameMap.find?_ofList_zip hgen.nodup (by rw [List.length_map, hlen]) ?_⟩
    rw [List.zip_map_left]
    exact List.mem_map.mpr ⟨(s, w'), hs, rfl⟩
  refine ⟨fun b w hb hname => ?_, fun hname => ?_⟩
  · obtain ⟨s, hs, hproperty, hfield⟩ := hslot hb
    rw [hgen.field_eq s hs, hproperty, hname] at hfield
    exact get_of_field hfield
  · obtain ⟨s, hs, hproperty, hfield⟩ := hslot ha
    rw [← hproperty] at hname ⊢
    refine get_of_property ht hgen hs hfield (NameMap.find?_ofList_zip_eq_none fun hin => ?_)
    obtain ⟨s', hs', he⟩ := List.mem_map.mp hin
    rw [hgen.accessors_eq, List.forall_mem_map] at hname
    exact hname s' hs' ((hgen.field_eq s' hs').symm.trans he)

end Evaluator

/-! ## Compiled sources -/

/-- **Properties return what the constructor was given, exactly if no property is named like a
field.**  In an instance that was made of any class or struct that a source compiles to, a property
that is named like the field of another one returns the argument of that other one, and every other
property returns its own. -/
theorem Compiler.get_construct_iff {c : Compiler} {source : String} {o : Output}
    (h : c.compile source = .ok o) {typeName : String} {t : TypeDefinition}
    (ht : (Evaluator.of o).record? typeName = some t) :
    (∀ identity arguments x, (Evaluator.of o).construct identity typeName arguments = .ok x →
      ∀ a v, (a, v) ∈ t.accessors.zip arguments →
        (∀ b w, (b, w) ∈ t.accessors.zip arguments → fieldName b.name = a.name →
          (Evaluator.of o).get x a.name = .ok w) ∧
        ((∀ b ∈ t.accessors, fieldName b.name ≠ a.name) →
          (Evaluator.of o).get x a.name = .ok v)) ∧
      ((∀ identity arguments x, (Evaluator.of o).construct identity typeName arguments = .ok x →
        ∀ a v, (a, v) ∈ t.accessors.zip arguments → (Evaluator.of o).get x a.name = .ok v) ↔
        ∀ a ∈ t.accessors, ∀ b ∈ t.accessors, fieldName b.name ≠ a.name) := by
  obtain ⟨document, -, hgenerate⟩ := compile_eq_ok h
  obtain ⟨-, kind, slots, hgen⟩ :=
    Evaluator.exists_isGenerated (Evaluator.runsGenerated_of_generate hgenerate) ht
  have hread : ∀ identity arguments x,
      (Evaluator.of o).construct identity typeName arguments = .ok x →
        ∀ a v, (a, v) ∈ t.accessors.zip arguments →
          (∀ b w, (b, w) ∈ t.accessors.zip arguments → fieldName b.name = a.name →
            (Evaluator.of o).get x a.name = .ok w) ∧
          ((∀ b ∈ t.accessors, fieldName b.name ≠ a.name) →
            (Evaluator.of o).get x a.name = .ok v) :=
    fun _ _ _ hx _ _ ha => Evaluator.get_of_construct ht hgen hx ha
  refine ⟨hread, fun hall a ha b hb hname => ?_, fun hfree identity arguments x hx a v ha => ?_⟩
  · -- arguments that tell the names of the properties apart
    let arguments := t.accessors.map fun a => Value.str a.name
    have hlen : arguments.length = slots.length := by
      rw [List.length_map, hgen.accessors_eq, List.length_map]
    have hpair : ∀ {d : Accessor}, d ∈ t.accessors →
        (d, Value.str d.name) ∈ t.accessors.zip arguments := by
      intro d hd
      rw [← List.map_prod_left_eq_zip]
      exact List.mem_map.mpr ⟨d, hd, rfl⟩
    obtain ⟨identity', hx⟩ := Evaluator.construct_of_length ht hgen 0 hlen
    have hown := hall 0 arguments _ hx a _ (hpair ha)
    have hhidden := (hread 0 arguments _ hx a _ (hpair ha)).1 b _ (hpair hb) hname
    rw [hown, Except.ok.injEq, Value.str.injEq] at hhidden
    have hlonger := length_lt_length_fieldName b.name
    rw [hname, hhidden] at hlonger
    exact Nat.lt_irrefl _ hlonger
  · exact (hread identity arguments x hx a v ha).2 (hfree a (List.of_mem_zip ha).1)

/-! ### Hidden properties -/

namespace Hidden

/-- A source with a property that is named like the field of the one before. -/
def source : String := "(namespace T (defdto D (int X, int _x)))"

/-- What the source compiles to. -/
def output : Output := (Compiler.standard.compile source).toOption.get (by decide +kernel)

/-- The type with the two properties. -/
def type : TypeDefinition := ((Evaluator.of output).record? "T.D").get (by decide +kernel)

/-- An instance that was made from two numbers. -/
def made : Value :=
  ((Evaluator.of output).construct 0 "T.D" [.int 1, .int 2]).toOption.get (by decide +kernel)

theorem compile_source : Compiler.standard.compile source = .ok output := by
  unfold output
  exact Outcome.eq_ok_get _

theorem record_type : (Evaluator.of output).record? "T.D" = some type := by
  unfold type
  exact (Option.some_get _).symm

theorem construct_made :
    (Evaluator.of output).construct 0 "T.D" [.int 1, .int 2] = .ok made := by
  unfold made
  exact Outcome.eq_ok_get _

theorem accessors_type : type.accessors =
    [⟨"X", .simple .int, .everyone, .selfMember "_x"⟩,
      ⟨"_x", .simple .int, .everyone, .selfMember "__x"⟩] := by
  decide +kernel

theorem get_hidden :
    Compiler.standard.compile source = .ok output ∧
      (Evaluator.of output).record? "T.D" = some type ∧
      (Evaluator.of output).construct 0 "T.D" [.int 1, .int 2] = .ok made ∧
      (Evaluator.of output).get made "_x" = .ok (.int 1) := by
  refine ⟨compile_source, record_type, construct_made, ?_⟩
  have hread := (Compiler.get_construct_iff compile_source record_type).1 0 _ made construct_made
  rw [accessors_type] at hread
  exact (hread _ _ (List.mem_cons_of_mem _ List.mem_cons_self)).1 _ _ List.mem_cons_self
    (by decide +kernel)

end Hidden

/-! ## Stored arguments -/

/-- **A made instance holds every argument in the field of its own property**, and nothing else. -/
theorem Evaluator.exists_fields_of_construct {e : Evaluator} {typeName : String} {t : TypeDefinition}
    {kind : RecordKind} {slots : List Slot} (ht : e.record? typeName = some t)
    (hgen : t.IsGenerated kind slots) {identity : Nat} {arguments : List Value} {x : Value}
    (hx : e.construct identity typeName arguments = .ok x) :
    ∃ identity' fields, x = .object identity' typeName fields ∧ NameMap.Increasing fields ∧
      List.Perm fields ((t.accessors.zip arguments).map fun (a, v) => (fieldName a.name, v)) := by
  obtain ⟨hlen, identity', rfl⟩ := exists_of_construct ht hgen hx
  refine ⟨identity', _, rfl, NameMap.increasing_ofList _, ?_⟩
  rw [← hgen.zip_fields]
  exact NameMap.perm_ofList_zip hgen.nodup (by rw [List.length_map, hlen])

/-- **A constructor stores every argument in the field of its own property.**  For any class or struct
that a source compiles to, construction succeeds exactly if there is an argument for every property.
The instance is then of that type, and has as many fields as there are properties: the field that is
named after a property holds the argument of that property. -/
theorem Compiler.construct_stores_arguments {c : Compiler} {source : String} {o : Output}
    (h : c.compile source = .ok o) {typeName : String} {t : TypeDefinition}
    (ht : (Evaluator.of o).record? typeName = some t) (identity : Nat) (arguments : List Value) :
    ((∃ x, (Evaluator.of o).construct identity typeName arguments = .ok x) ↔
        arguments.length = t.accessors.length) ∧
      ∀ x, (Evaluator.of o).construct identity typeName arguments = .ok x →
        ∃ identity' fields, x = .object identity' typeName fields ∧ NameMap.Increasing fields ∧
          fields.length = t.accessors.length ∧
          List.Perm fields ((t.accessors.zip arguments).map fun (a, v) => (fieldName a.name, v)) ∧
          ∀ a v, (a, v) ∈ t.accessors.zip arguments →
            NameMap.find? (fieldName a.name) fields = some v := by
  obtain ⟨document, -, hgenerate⟩ := compile_eq_ok h
  obtain ⟨-, kind, slots, hgen⟩ :=
    Evaluator.exists_isGenerated (Evaluator.runsGenerated_of_generate hgenerate) ht
  have hcount : t.accessors.length = slots.length := by rw [hgen.accessors_eq, List.length_map]
  have harity : ∀ {x}, (Evaluator.of o).construct identity typeName arguments = .ok x →
      arguments.length = t.accessors.length :=
    fun hx => (Evaluator.exists_of_construct ht hgen hx).1.trans hcount.symm
  refine ⟨⟨fun ⟨x, hx⟩ => harity hx, fun hlen => ?_⟩, fun x hx => ?_⟩
  · obtain ⟨identity', hx⟩ := Evaluator.construct_of_length ht hgen identity (hlen.trans hcount)
    exact ⟨_, hx⟩
  · obtain ⟨identity', fields, rfl, hincreasing, hperm⟩ :=
      Evaluator.exists_fields_of_construct ht hgen hx
    refine ⟨identity', fields, rfl, hincreasing, ?_, hperm, fun a v ha => ?_⟩
    · rw [hperm.length_eq, List.length_map, List.length_zip, harity hx, Nat.min_self]
    · rw [NameMap.find?_eq_some_iff hincreasing, hperm.mem_iff]
      exact List.mem_map.2 ⟨(a, v), ha, rfl⟩

/-! ### Names that grow -/

namespace Capitals

/-- A source with properties whose first letters are outside of ASCII; the lower case of the first
one is two characters. -/
def source : String := "(namespace T (defvaluetype D (int İd, string Ödeme)))"

/-- What the source compiles to. -/
def output : Output := (Compiler.standard.compile source).toOption.get (by decide +kernel)

/-- The type with the two properties. -/
def type : TypeDefinition := ((Evaluator.of output).record? "T.D").get (by decide +kernel)

/-- An instance that was made from a number and a text. -/
def made : Value :=
  ((Evaluator.of output).construct 0 "T.D" [.int 1, .str "x"]).toOption.get (by decide +kernel)

theorem compile_source : Compiler.standard.compile source = .ok output := by
  unfold output
  exact Outcome.eq_ok_get _

theorem record_type : (Evaluator.of output).record? "T.D" = some type := by
  unfold type
  exact (Option.some_get _).symm

theorem construct_made :
    (Evaluator.of output).construct 0 "T.D" [.int 1, .str "x"] = .ok made := by
  unfold made
  exact Outcome.eq_ok_get _

theorem accessors_type : type.accessors =
    [⟨"İd", .simple .int, .everyone, .selfMember "_i̇d"⟩,
      ⟨"Ödeme", .string, .everyone, .selfMember "_ödeme"⟩] := by
  decide +kernel

theorem fields_made :
    Compiler.standard.compile source = .ok output ∧
      (Evaluator.of output).record? "T.D" = some type ∧
      ∃ identity fields, made = .object identity "T.D" fields ∧
        NameMap.find? "_i̇d" fields = some (.int 1) ∧
        NameMap.find? "_ödeme" fields = some (.str "x") := by
  refine ⟨compile_source, record_type, ?_⟩
  obtain ⟨identity, fields, hmade, -, -, -, hfind⟩ :=
    (Compiler.construct_stores_arguments compile_source record_type 0 _).2 made construct_made
  rw [accessors_type] at hfind
  exact ⟨identity, fields, hmade, hfind _ _ List.mem_cons_self,
    hfind _ _ (List.mem_cons_of_mem _ List.mem_cons_self)⟩

end Capitals

end DomainForms
