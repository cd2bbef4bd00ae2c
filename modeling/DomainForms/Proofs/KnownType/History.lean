import DomainForms.Proofs.FirstError
import Mathlib.Data.Finset.Card

/-!
# Tables and the insertions behind them

A table of known types is built in two ways: all at once from the collected types, or by inserting
one type after the other.  Both give the same table, and what a table holds is told by the row of
insertions that led to it: of several types with one full name, the last.

A table is a value, so a client may keep every table that it ever had and go on from any of them.
The invariant `KnownTypes.Reflects` ties one table to its own row of insertions.  An insertion keeps
it for the table that it makes and touches no other one, so it holds of all tables that are kept.

The table needs little of the map inside it.  `OrderedMap` lists what: whichever map has these laws,
it holds the same entries after the same insertions.

* `OrderedMap.entries_insertAll`: **the laws of an ordered map leave no choice.**
* `KnownTypes.Holds`: what a table answers after a row of insertions.
* `KnownTypes.tables_of_insertions`: **the two ways of building a table agree**, and every table that
  is kept holds its own insertions.
-/

namespace DomainForms

open Outcome (FirstRepeat firstRepeat_map)

/-! ## Ordered maps -/

namespace NameMap

/-- **Two maps are equal if the same is found in them**, where the names of both increase. -/
theorem eq_of_find? {α : Type} {map other : NameMap α} (h : Increasing map) (ho : Increasing other)
    (hfind : ∀ name, find? name map = find? name other) : map = other := by
  have hlt : ∀ {entries : NameMap α}, Increasing entries → entries.Nodup := by
    intro entries he
    refine he.imp ?_
    rintro a b hab rfl
    exact String.lt_irrefl _ hab
  have hmem : ∀ entry, entry ∈ map ↔ entry ∈ other := by
    rintro ⟨name, value⟩
    rw [← find?_eq_some_iff h, ← find?_eq_some_iff ho, hfind]
  refine List.Perm.eq_of_pairwise ?_ h ho ((List.perm_ext_iff_of_nodup (hlt h) (hlt ho)).2 hmem)
  intro a b _ _ hab hba
  exact absurd hba (String.lt_asymm hab)

end NameMap

/-- A map from names with versions: an insertion gives a new version, which differs from the old one
in what is found for the inserted name only, and the entries of a version are what is found in it, in
increasing order of the names. -/
structure OrderedMap (α : Type) where
  /-- The versions of the map. -/
  Version : Type
  /-- The version without entries. -/
  empty : Version
  /-- The version with one entry added or replaced. -/
  insert : String → α → Version → Version
  /-- What a version holds for a name. -/
  find? : String → Version → Option α
  /-- The entries of a version. -/
  entries : Version → List (String × α)
  find?_empty : ∀ name, find? name empty = none
  find?_insert : ∀ key value version name,
    find? name (insert key value version) = if key = name then some value else find? name version
  increasing : ∀ version, NameMap.Increasing (entries version)
  mem_entries : ∀ version name value,
    (name, value) ∈ entries version ↔ find? name version = some value

namespace OrderedMap

variable {α : Type}

/-- The version after a row of insertions. -/
def insertAll (M : OrderedMap α) (rows : List (String × α)) : M.Version :=
  rows.foldl (fun version (key, value) => M.insert key value version) M.empty

/-- The lists of entries in increasing order are such a map. -/
def ofLists (α : Type) : OrderedMap α where
  Version := { map : NameMap α // map.Increasing }
  empty := ⟨[], List.Pairwise.nil⟩
  insert key value map := ⟨map.1.insert key value, NameMap.increasing_insert key value _ map.2⟩
  find? name map := map.1.find? name
  entries map := map.1
  find?_empty _ := rfl
  find?_insert key value map name := NameMap.find?_insert key value name map.1
  increasing map := map.2
  mem_entries map _ _ := (NameMap.find?_eq_some_iff map.2).symm

theorem find?_entries (M : OrderedMap α) (version : M.Version) (name : String) :
    NameMap.find? name (M.entries version) = M.find? name version := by
  refine Option.ext fun value => ?_
  rw [NameMap.find?_eq_some_iff (M.increasing version), M.mem_entries]

theorem find?_foldl_insert (M : OrderedMap α) (name : String) :
    ∀ (rows : List (String × α)) (version : M.Version) (map : NameMap α),
      M.find? name version = NameMap.find? name map →
      M.find? name (rows.foldl (fun version (key, value) => M.insert key value version) version)
        = NameMap.find? name
          (rows.foldl (fun map (key, value) => NameMap.insert key value map) map) := by
  intro rows
  induction rows with
  | nil => intro version map h; exact h
  | cons row rows ih =>
    intro version map h
    obtain ⟨key, value⟩ := row
    refine ih _ _ ?_
    rw [M.find?_insert, NameMap.find?_insert, h]

/-- **The laws of an ordered map leave no choice**: after a row of insertions it has the entries that
the lists in increasing order have. -/
theorem entries_insertAll (M : OrderedMap α) (rows : List (String × α)) :
    M.entries (M.insertAll rows) = NameMap.ofList rows := by
  refine NameMap.eq_of_find? (M.increasing _) (NameMap.increasing_ofList rows) fun name => ?_
  rw [M.find?_entries]
  exact M.find?_foldl_insert name rows _ _ (M.find?_empty name)

end OrderedMap

namespace KnownTypes

/-! ## One table -/

/-- What a table answers after some types were inserted, one after the other. -/
structure Holds (table : KnownTypes) (inserted : List KnownType) : Prop where
  /-- The types are listed in increasing order of their full names. -/
  increasing : table.toList.Pairwise fun a b => a.fullName < b.fullName
  /-- The types that are listed are those that are found under their own full names. -/
  mem_toList : ∀ type, type ∈ table.toList ↔ table.get? type.fullName = some type
  /-- As many types are counted as different names were inserted. -/
  size_eq : table.size = (inserted.map KnownType.fullName).toFinset.card
  /-- The last type that was inserted with a name is found. -/
  get?_eq : ∀ name, table.get? name = (inserted.filter (·.fullName = name)).getLast?
  /-- What is found under a name has that name. -/
  fullName_eq : ∀ name type, table.get? name = some type → type.fullName = name
  /-- A name is known if something is found under it. -/
  contains_iff : ∀ name, table.contains name = true ↔ ∃ type, table.get? name = some type

/-- The invariant of a table with the insertions behind it: the map inside is in order and has every
type under its own full name, and of several types with one name the last is found. -/
structure Reflects (table : KnownTypes) (inserted : List KnownType) : Prop where
  increasing : NameMap.Increasing table.entries
  named : ∀ entry ∈ table.entries, entry.2.fullName = entry.1
  get?_eq : ∀ name, table.get? name = (inserted.filter (·.fullName = name)).getLast?

theorem reflects_empty : empty.Reflects [] where
  increasing := List.Pairwise.nil
  named := List.forall_mem_nil _
  get?_eq _ := rfl

section

variable {table : KnownTypes} {inserted : List KnownType} (h : table.Reflects inserted)

include h

/-- **An insertion keeps the invariant.** -/
theorem Reflects.insert (type : KnownType) :
    (table.insert type).Reflects (inserted ++ [type]) where
  increasing := NameMap.increasing_insert _ _ _ h.increasing
  named := by
    intro entry hentry
    rcases NameMap.mem_insert _ hentry with rfl | hentry
    · rfl
    · exact h.named entry hentry
  get?_eq := by
    intro name
    rw [get?_insert, h.get?_eq, List.filter_append, List.getLast?_append]
    by_cases hname : type.fullName = name <;> simp [hname]

theorem Reflects.pairwise_toList : table.toList.Pairwise fun a b => a.fullName < b.fullName := by
  refine List.pairwise_map.2 (h.increasing.imp_of_mem ?_)
  intro a b ha hb hab
  rwa [h.named a ha, h.named b hb]

theorem Reflects.mem_toList (type : KnownType) :
    type ∈ table.toList ↔ table.get? type.fullName = some type := by
  rw [get?, NameMap.find?_eq_some_iff h.increasing, toList, List.mem_map]
  constructor
  · rintro ⟨entry, hentry, rfl⟩
    rw [h.named entry hentry]
    exact hentry
  · intro hentry
    exact ⟨_, hentry, rfl⟩

theorem Reflects.fullName_eq {name : String} {type : KnownType}
    (hget : table.get? name = some type) : type.fullName = name :=
  h.named _ (NameMap.mem_of_find? _ hget)

theorem Reflects.mem_names (name : String) :
    name ∈ table.toList.map KnownType.fullName ↔ name ∈ inserted.map KnownType.fullName := by
  have hfound : name ∈ table.toList.map KnownType.fullName ↔ table.get? name ≠ none := by
    rw [List.mem_map, Option.ne_none_iff_exists']
    constructor
    · rintro ⟨type, htype, rfl⟩
      exact ⟨type, (h.mem_toList type).1 htype⟩
    · rintro ⟨type, hget⟩
      obtain rfl := h.fullName_eq hget
      exact ⟨type, (h.mem_toList type).2 hget, rfl⟩
  rw [hfound, h.get?_eq, Ne, List.getLast?_eq_none_iff, List.filter_eq_nil_iff]
  simp

/-- As many types are listed as names were inserted, because no name is listed twice. -/
theorem Reflects.size_eq : table.size = (inserted.map KnownType.fullName).toFinset.card := by
  have hnodup : (table.toList.map KnownType.fullName).Nodup := by
    refine List.pairwise_map.2 (h.pairwise_toList.imp ?_)
    exact fun hab => String.ne_of_lt hab
  have hnames : (table.toList.map KnownType.fullName).toFinset
      = (inserted.map KnownType.fullName).toFinset := by
    ext name
    rw [List.mem_toFinset, List.mem_toFinset, h.mem_names]
  calc table.size = (table.toList.map KnownType.fullName).length := by
        rw [List.length_map, toList, List.length_map, size]
    _ = (inserted.map KnownType.fullName).toFinset.card := by
        rw [← hnames, List.toFinset_card_of_nodup hnodup]

theorem Reflects.holds : table.Holds inserted where
  increasing := h.pairwise_toList
  mem_toList := h.mem_toList
  size_eq := h.size_eq
  get?_eq := h.get?_eq
  fullName_eq _ _ hget := h.fullName_eq hget
  contains_iff _ := Option.isSome_iff_exists

end

theorem Reflects.foldl_insert {table : KnownTypes} {inserted : List KnownType}
    (h : table.Reflects inserted) (types : List KnownType) :
    (types.foldl KnownTypes.insert table).Reflects (inserted ++ types) := by
  induction types generalizing table inserted with
  | nil => rwa [List.append_nil]
  | cons first rest ih =>
    rw [List.append_cons]
    exact ih (h.insert first)

/-! ## All tables that are kept -/

section

variable {σ τ : Type}

/-- Inserts a type into one of the values that are kept, and keeps the new value behind them. -/
def keep (insert : σ → KnownType → σ) (kept : List σ) (request : Nat × KnownType) : List σ :=
  match kept[request.1]? with
  | some value => kept ++ [insert value request.2]
  | none => kept

theorem prefix_keep (insert : σ → KnownType → σ) (kept : List σ) (request : Nat × KnownType) :
    kept <+: keep insert kept request := by
  unfold keep
  split
  · exact List.prefix_append _ _
  · exact List.prefix_rfl

theorem prefix_foldl_keep (insert : σ → KnownType → σ) :
    ∀ (requests : List (Nat × KnownType)) (kept : List σ),
      kept <+: requests.foldl (keep insert) kept := by
  intro requests
  induction requests with
  | nil => intro kept; exact List.prefix_rfl
  | cons request rest ih =>
    intro kept
    exact (prefix_keep insert kept request).trans (ih _)

theorem forall₂_keep {R : σ → τ → Prop} {insert : σ → KnownType → σ} {insert' : τ → KnownType → τ}
    (hinsert : ∀ a b type, R a b → R (insert a type) (insert' b type)) {kept : List σ}
    {others : List τ} (h : List.Forall₂ R kept others) (request : Nat × KnownType) :
    List.Forall₂ R (keep insert kept request) (keep insert' others request) := by
  obtain ⟨place, type⟩ := request
  have hlength : kept.length = others.length := h.length_eq
  unfold keep
  by_cases hplace : place < kept.length
  · have hplace' : place < others.length := hlength ▸ hplace
    rw [List.getElem?_eq_getElem hplace, List.getElem?_eq_getElem hplace']
    exact List.rel_append h (.cons (hinsert _ _ type (h.get hplace hplace')) .nil)
  · rw [List.getElem?_eq_none (Nat.le_of_not_lt hplace),
      List.getElem?_eq_none (hlength ▸ Nat.le_of_not_lt hplace)]
    exact h

theorem forall₂_foldl_keep {R : σ → τ → Prop} {insert : σ → KnownType → σ}
    {insert' : τ → KnownType → τ} (hinsert : ∀ a b type, R a b → R (insert a type) (insert' b type)) :
    ∀ (requests : List (Nat × KnownType)) {kept : List σ} {others : List τ},
      List.Forall₂ R kept others →
      List.Forall₂ R (requests.foldl (keep insert) kept) (requests.foldl (keep insert') others) := by
  intro requests
  induction requests with
  | nil => intro kept others h; exact h
  | cons request rest ih => intro kept others h; exact ih (forall₂_keep hinsert h request)

end

/-- The tables that are kept after some requests, each of which inserts a type into one of them.  At
first there is the empty table. -/
def keptTables (requests : List (Nat × KnownType)) : List KnownTypes :=
  requests.foldl (keep insert) [empty]

/-- The rows of insertions behind the tables that are kept. -/
def keptRows (requests : List (Nat × KnownType)) : List (List KnownType) :=
  requests.foldl (keep fun row type => row ++ [type]) [[]]

/-- **Every table that is kept reflects its own row of insertions.** -/
theorem reflects_kept (requests : List (Nat × KnownType)) :
    List.Forall₂ Reflects (keptTables requests) (keptRows requests) :=
  forall₂_foldl_keep (fun _ _ type h => h.insert type) requests (.cons reflects_empty .nil)

/-! ## The two ways of building a table -/

/-- **The two ways of building a table agree.**  With duplicates allowed, the table of a list of
types is the one that their insertions lead to.  With duplicates refused, it is the same table if no
full name repeats, and otherwise the error names the first type whose full name occurs before it.

That table holds the types of the list.  More generally, every table that is kept, while types are
inserted into this or that one of them, holds its own row of insertions, and stays in its place as it
is whatever is inserted later.  All this depends on the laws of an ordered map only: any other one
with them has the same entries. -/
theorem tables_of_insertions (types : List KnownType) (requests : List (Nat × KnownType)) :
    ofList types true = .ok (types.foldl insert empty) ∧
    (∀ table, ofList types false = .ok table ↔
      (types.map KnownType.fullName).Nodup ∧ table = types.foldl insert empty) ∧
    (∀ e, ofList types false = .error e ↔ ∃ type,
      FirstRepeat KnownType.fullName types type ∧ e = .of (.duplicateType type.fullName)) ∧
    (types.foldl insert empty).Holds types ∧
    List.Forall₂ Holds (keptTables requests) (keptRows requests) ∧
    (∀ later, keptTables requests <+: keptTables (requests ++ later)) ∧
    ∀ M : OrderedMap KnownType, M.entries (M.insertAll (types.map fun type => (type.fullName, type)))
      = (types.foldl insert empty).entries := by
  refine ⟨ofList_eq_ok.2 ⟨nofun, rfl⟩, fun table => ?_, fun e => ?_, ?_, ?_, fun later => ?_,
    fun M => ?_⟩
  · rw [ofList_eq_ok, eq_comm (a := table)]
    simp only [true_implies]
  · rw [ofList_eq_error]
    simp only [firstRepeat_map, true_and]
    constructor
    · rintro ⟨_, ⟨type, htype, rfl⟩, rfl⟩
      exact ⟨type, htype, rfl⟩
    · rintro ⟨type, htype, rfl⟩
      exact ⟨_, ⟨type, htype, rfl⟩, rfl⟩
  · exact (reflects_empty.foldl_insert types).holds
  · exact (reflects_kept requests).imp fun _ _ h => h.holds
  · rw [keptTables, keptTables, List.foldl_append]
    exact prefix_foldl_keep insert later _
  · rw [M.entries_insertAll, entries_foldl_insert]
    rfl

end KnownTypes

end DomainForms
