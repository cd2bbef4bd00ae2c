import DomainForms.Proofs.Diagnosis
import DomainForms.Proofs.Resolution.Session
import DomainForms.Proofs.Target.Classification
import Mathlib.Data.List.Induction

/-!
# A name means the innermost declaration

What a type stands for can be said of the document alone, without a table.  A name means the first
declared one of the full names that it has inside the namespace around it, inside the namespace
around that one, and so on outwards; it is of the sort of the last declaration with that full name.
Only a name asks for this, so only a type with a name in it is refused for a full name that repeats.

* `QualifiedName.outwards`, `QualifiedName.member`: the namespaces around a name, and the full name
  that it has inside one of them.
* `Document.Means`: what a name means.
* `Document.ResolvesTo`: what a type resolves to.
* `Model.resolve_innermost`: **a model resolves every type to that**, in every session.
-/

namespace DomainForms

open Outcome

/-! ## The namespaces around a name -/

namespace QualifiedName

/-- A namespace, the one around it, and so on to the outermost one, which has no name. -/
def outwards (scope : QualifiedName) : List QualifiedName :=
  if scope.isEmpty then [scope] else scope :: outwards scope.parent
termination_by scope.segments.length
decreasing_by
  rename_i h
  rw [parent, List.length_dropLast]
  have hne : scope.segments.length ≠ 0 := by simpa [isEmpty] using h
  omega

/-- The full name of what is written inside a namespace, also if it is dotted. -/
def member (scope : QualifiedName) (written : String) : String :=
  if scope.isEmpty then written else scope.fullName ++ "." ++ written

theorem outwards_root : outwards ⟨[]⟩ = [⟨[]⟩] := by
  rw [outwards]
  rfl

theorem outwards_concat (front : List String) (last : String) :
    outwards ⟨front ++ [last]⟩ = ⟨front ++ [last]⟩ :: outwards ⟨front⟩ := by
  rw [outwards, if_neg (by simp [isEmpty]), parent, List.dropLast_concat]

end QualifiedName

theorem candidates_concat (front : List String) (last written : String) :
    candidates ⟨front ++ [last]⟩ written
      = QualifiedName.member ⟨front ++ [last]⟩ written :: candidates ⟨front⟩ written := by
  rw [candidates, candidates, List.length_append, List.length_singleton, List.range_succ,
    List.reverse_concat, List.map_cons]
  refine congrArg₂ List.cons ?_ (List.map_congr_left fun depth hdepth => ?_)
  · rw [if_neg (Nat.succ_ne_zero _), List.take_of_length_le (by simp), QualifiedName.member,
      if_neg (by simp [QualifiedName.isEmpty])]
    rfl
  · have hle : depth ≤ front.length := by
      rw [List.mem_reverse, List.mem_range] at hdepth
      omega
    rw [List.take_append_of_le_length hle]

/-- **The full names that a written name may stand for** are those that it has inside the namespaces
around it, from the inside outwards. -/
theorem candidates_eq (scope : QualifiedName) (written : String) :
    candidates scope written = scope.outwards.map (·.member written) := by
  obtain ⟨segments⟩ := scope
  induction segments using List.reverseRecOn with
  | nil =>
    rw [QualifiedName.outwards_root]
    rfl
  | append_singleton front last ih =>
    rw [candidates_concat, QualifiedName.outwards_concat, List.map_cons, ih]

/-! ## What a name means -/

namespace Document

variable (d : Document) (settings : Settings) (scope : QualifiedName)

/-- The full names of a document are different, or do not have to be. -/
def Tabulates : Prop := settings.allowDuplicateTypes = false → d.declaredNames.Nodup

/-- A name, seen from a namespace, has this full name: the innermost one that is declared. -/
def IsInnermost (name : QualifiedName) (fullName : String) : Prop :=
  IsFirst (· ∈ d.declaredNames) (scope.outwards.map (·.member name.fullName)) fullName

/-- **What a name means**, seen from a namespace. -/
inductive Means (name : QualifiedName) : Except Error Resolved → Prop
  /-- Nothing, where a full name repeats that must not. -/
  | repeated {fullName : String} (hdup : settings.allowDuplicateTypes = false)
      (hrepeat : FirstRepeat id d.declaredNames fullName) :
      Means name (.error (.of (.duplicateType fullName)))
  /-- The innermost declared type, of the sort of its last declaration. -/
  | declared {fullName : String} {known : KnownType} (htable : d.Tabulates settings)
      (hfirst : d.IsInnermost scope name fullName)
      (hlast : (d.knownTypes.filter (·.fullName == fullName)).getLast? = some known) :
      Means name (.ok ⟨.ofName fullName, known.isValueType, .declared⟩)
  /-- A system type, where none is declared. -/
  | system {isValueType : Bool} (htable : d.Tabulates settings)
      (hnone : ∀ fullName, ¬ d.IsInnermost scope name fullName)
      (hsystem : systemValueType? name = some isValueType) :
      Means name (.ok ⟨.named name, isValueType, .system⟩)
  /-- Nothing that is known, which strict settings refuse. -/
  | unresolved (htable : d.Tabulates settings)
      (hnone : ∀ fullName, ¬ d.IsInnermost scope name fullName)
      (hsystem : systemValueType? name = none) (hstrict : settings.strictTypeResolution = true) :
      Means name (.error (.of (.unresolvedType name.fullName scope.fullName)))
  /-- Nothing that is known, which other settings take for a reference type. -/
  | assumed (htable : d.Tabulates settings)
      (hnone : ∀ fullName, ¬ d.IsInnermost scope name fullName)
      (hsystem : systemValueType? name = none) (hlenient : settings.strictTypeResolution = false) :
      Means name (.ok ⟨.named name, false, .assumed⟩)

/-- **What a type resolves to**, seen from a namespace. -/
inductive ResolvesTo : TypeRef → Except Error Resolved → Prop
  | simple (p : Primitive) : ResolvesTo (.simple p) (.ok ⟨.simple p, true, .intrinsic⟩)
  | nullable (p : Primitive) : ResolvesTo (.nullable p) (.ok ⟨.nullable p, true, .intrinsic⟩)
  | string : ResolvesTo .string (.ok ⟨.string, false, .intrinsic⟩)
  | array {element : TypeRef} {inner : Resolved} (ranks : List Rank)
      (h : ResolvesTo element (.ok inner)) :
      ResolvesTo (.array element ranks) (.ok ⟨.array inner.type ranks, false, .intrinsic⟩)
  | arrayRefused {element : TypeRef} {e : Error} (ranks : List Rank)
      (h : ResolvesTo element (.error e)) : ResolvesTo (.array element ranks) (.error e)
  | named {name : QualifiedName} {outcome : Except Error Resolved}
      (h : d.Means settings scope name outcome) : ResolvesTo (.named name) outcome

end Document

namespace Model

section Table

variable {types : List KnownType} {allowDuplicates : Bool} {table : KnownTypes}
  (htable : KnownTypes.ofList types allowDuplicates = .ok table) {names : List String}

include htable

theorem isSome_get?_table {name : String} :
    (table.get? name).isSome = true ↔ name ∈ types.map KnownType.fullName :=
  KnownTypes.contains_ofList htable

/-- **What a search of the table finds**: the last type with the first of the names that is there. -/
theorem findSome?_table_eq_some {known : KnownType} :
    names.findSome? table.get? = some known ↔ ∃ name,
      IsFirst (· ∈ types.map KnownType.fullName) names name ∧
        (types.filter (·.fullName == name)).getLast? = some known := by
  simp only [← KnownTypes.get?_ofList htable, List.findSome?_eq_some_iff, IsFirst,
    ← isSome_get?_table htable]
  constructor
  · rintro ⟨before, name, behind, hnames, hknown, hbefore⟩
    refine ⟨name, ⟨before, behind, hnames, by rw [hknown]; rfl, fun b hb => ?_⟩, hknown⟩
    rw [hbefore b hb]
    nofun
  · rintro ⟨name, ⟨before, behind, hnames, -, hbefore⟩, hknown⟩
    exact ⟨before, name, behind, hnames, hknown, fun b hb => by simpa using hbefore b hb⟩

theorem findSome?_table_eq_none :
    names.findSome? table.get? = none ↔
      ∀ name, ¬ IsFirst (· ∈ types.map KnownType.fullName) names name := by
  rw [← not_exists, exists_isFirst_iff, List.findSome?_eq_none_iff]
  simp only [← isSome_get?_table htable]
  simp

end Table

variable {base : Conventions} {settings : Settings} {d : Document} {scope : QualifiedName}

theorem exists_knownTypes_of_tabulates (base : Conventions) (h : d.Tabulates settings) :
    ∃ table, (of base settings d).knownTypes = .ok table :=
  ⟨_, KnownTypes.ofList_eq_ok.2 ⟨h, rfl⟩⟩

theorem tabulates_of_knownTypes {table : KnownTypes}
    (h : (of base settings d).knownTypes = .ok table) : d.Tabulates settings :=
  (KnownTypes.ofList_eq_ok.1 h).1

section

variable {table : KnownTypes} (htable : (of base settings d).knownTypes = .ok table)
  {name : QualifiedName}

include htable

theorem findSome?_candidates_eq_some {known : KnownType} :
    (candidates scope name.fullName).findSome? table.get? = some known ↔
      ∃ fullName, d.IsInnermost scope name fullName ∧
        (d.knownTypes.filter (·.fullName == fullName)).getLast? = some known := by
  rw [candidates_eq]
  exact findSome?_table_eq_some htable

theorem findSome?_candidates_eq_none :
    (candidates scope name.fullName).findSome? table.get? = none ↔
      ∀ fullName, ¬ d.IsInnermost scope name fullName := by
  rw [candidates_eq]
  exact findSome?_table_eq_none htable

end

theorem fullName_of_last {fullName : String} {known : KnownType}
    (h : (d.knownTypes.filter (·.fullName == fullName)).getLast? = some known) :
    known.fullName = fullName := by
  simpa using (List.mem_filter.1 (List.mem_of_getLast? h)).2

theorem means_resolveName (name : QualifiedName) :
    d.Means settings scope name ((of base settings d).resolveName scope name) := by
  unfold resolveName
  cases htable : (of base settings d).knownTypes with
  | error e =>
    obtain ⟨hdup, fullName, hrepeat, rfl⟩ := KnownTypes.ofList_eq_error.1 htable
    exact .repeated hdup hrepeat
  | ok table =>
    have htab := tabulates_of_knownTypes htable
    rw [ok_bind]
    dsimp only
    cases hfind : (candidates scope name.fullName).findSome? table.get? with
    | some known =>
      obtain ⟨fullName, hfirst, hlast⟩ := (findSome?_candidates_eq_some htable).1 hfind
      obtain rfl := fullName_of_last hlast
      exact .declared htab hfirst hlast
    | none =>
      have hnone := (findSome?_candidates_eq_none htable).1 hfind
      cases hsystem : systemValueType? name with
      | some isValueType => exact .system htab hnone hsystem
      | none =>
        have hsettings : (of base settings d).settings = settings := rfl
        rw [hsettings]
        cases hstrict : settings.strictTypeResolution with
        | true => exact .unresolved htab hnone hsystem hstrict
        | false => exact .assumed htab hnone hsystem hstrict

theorem resolveName_of_means {name : QualifiedName} {outcome : Except Error Resolved}
    (h : d.Means settings scope name outcome) :
    (of base settings d).resolveName scope name = outcome := by
  cases h with
  | repeated hdup hrepeat =>
    have htable : (of base settings d).knownTypes = .error _ :=
      KnownTypes.ofList_eq_error.2 ⟨hdup, _, hrepeat, rfl⟩
    rw [resolveName, htable]
    rfl
  | declared htab hfirst hlast =>
    obtain ⟨table, htable⟩ := exists_knownTypes_of_tabulates base htab
    have hfind := (findSome?_candidates_eq_some htable).2 ⟨_, hfirst, hlast⟩
    obtain rfl := fullName_of_last hlast
    exact resolveName_eq_ok.2 ⟨table, htable, Or.inl ⟨_, hfind, rfl⟩⟩
  | system htab hnone hsystem =>
    obtain ⟨table, htable⟩ := exists_knownTypes_of_tabulates base htab
    have hfind := (findSome?_candidates_eq_none htable).2 hnone
    exact resolveName_eq_ok.2 ⟨table, htable, Or.inr ⟨hfind, Or.inl ⟨_, hsystem, rfl⟩⟩⟩
  | unresolved htab hnone hsystem hstrict =>
    obtain ⟨table, htable⟩ := exists_knownTypes_of_tabulates base htab
    rw [resolveName, htable, ok_bind]
    dsimp only
    rw [(findSome?_candidates_eq_none htable).2 hnone, hsystem]
    exact if_pos hstrict
  | assumed htab hnone hsystem hlenient =>
    obtain ⟨table, htable⟩ := exists_knownTypes_of_tabulates base htab
    have hfind := (findSome?_candidates_eq_none htable).2 hnone
    exact resolveName_eq_ok.2 ⟨table, htable, Or.inr ⟨hfind, Or.inr ⟨hsystem, hlenient, rfl⟩⟩⟩

/-! ## What a type resolves to -/

theorem resolvesTo_resolve : ∀ type : TypeRef,
    d.ResolvesTo settings scope type ((of base settings d).resolve scope type) := by
  intro type
  induction type with
  | simple p => exact .simple p
  | nullable p => exact .nullable p
  | string => exact .string
  | named name => exact .named (means_resolveName name)
  | array element ranks ih =>
    rw [resolve]
    generalize (of base settings d).resolve scope element = outcome at ih ⊢
    cases outcome with
    | ok inner => exact .array ranks ih
    | error e => exact .arrayRefused ranks ih

theorem resolve_of_resolvesTo {type : TypeRef} {outcome : Except Error Resolved}
    (h : d.ResolvesTo settings scope type outcome) :
    (of base settings d).resolve scope type = outcome := by
  induction h with
  | simple p => rfl
  | nullable p => rfl
  | string => rfl
  | array ranks _ ih => rw [resolve, ih]; rfl
  | arrayRefused ranks _ ih => rw [resolve, ih]; rfl
  | named h => exact resolveName_of_means h

/-- A type is refused for a full name that repeats if it has a name in it. -/
theorem resolve_eq_duplicate {repeated : String} : ∀ {type : TypeRef},
    (of base settings d).resolve scope type = .error (.of (.duplicateType repeated)) ↔
      type.names ≠ [] ∧ settings.allowDuplicateTypes = false ∧
        FirstRepeat id d.declaredNames repeated := by
  intro type
  induction type with
  | simple p => simp [resolve, TypeRef.names]
  | nullable p => simp [resolve, TypeRef.names]
  | string => simp [resolve, TypeRef.names]
  | array element ranks ih =>
    rw [resolve, bind_eq_error, ih]
    simp [TypeRef.names]
  | named name =>
    constructor
    · intro h
      have hmeans : d.Means settings scope name ((of base settings d).resolve scope (.named name)) :=
        means_resolveName name
      rw [h] at hmeans
      cases hmeans with
      | repeated hdup hrepeat => exact ⟨List.cons_ne_nil _ _, hdup, hrepeat⟩
    · rintro ⟨-, hdup, hrepeat⟩
      exact resolveName_of_means (.repeated hdup hrepeat)

/-- **A name means the innermost declaration.**  A model resolves a type to what it resolves to by
the document alone; it refuses it for a full name that repeats exactly if there is a name in the
type and a full name repeats that must not; and questions asked one after the other are answered as
if each were the first one. -/
theorem resolve_innermost (base : Conventions) (settings : Settings) (d : Document) :
    (∀ scope type outcome, (of base settings d).resolve scope type = outcome ↔
      d.ResolvesTo settings scope type outcome) ∧
    (∀ scope type,
      (∃ repeated, (of base settings d).resolve scope type
        = .error (.of (.duplicateType repeated))) ↔
      type.names ≠ [] ∧ settings.allowDuplicateTypes = false ∧ ¬ d.declaredNames.Nodup) ∧
    ∀ questions, (((of base settings d).askAll questions).run none).1
      = questions.map (of base settings d).answer := by
  refine ⟨fun scope type outcome => ⟨fun h => ?_, resolve_of_resolvesTo⟩, fun scope type => ?_,
    fun questions => askAll_eq questions nofun⟩
  · rw [← h]
    exact resolvesTo_resolve type
  · simp only [resolve_eq_duplicate, exists_and_left, exists_firstRepeat_iff, List.map_id]

end Model

end DomainForms
