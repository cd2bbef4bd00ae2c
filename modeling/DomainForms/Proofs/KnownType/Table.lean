import DomainForms.KnownType.Table
import DomainForms.Proofs.NameMap

/-!
# Laws of the table of known types

A table is built by inserting the collected types one after the other.  Where duplicates are
refused, this succeeds exactly if the full names are different, and then the order of the types does
not matter.

* `KnownTypes.ofList_eq_ok`: when a table is built, and which one.
* `KnownTypes.mem_of_get?_ofList`: a type in a table was collected, under its own full name.
* `KnownTypes.ofList_of_perm`: types in another order give the same table.
-/

namespace DomainForms.KnownTypes

theorem get?_insert (table : KnownTypes) (type : KnownType) (name : String) :
    (table.insert type).get? name = if type.fullName = name then some type else table.get? name :=
  NameMap.find?_insert type.fullName type name table.entries

theorem contains_insert (table : KnownTypes) (type : KnownType) (name : String) :
    (table.insert type).contains name = true ↔
      type.fullName = name ∨ table.contains name = true := by
  rw [contains, contains, get?_insert]
  by_cases h : type.fullName = name <;> simp [h]

/-- **When types can be added**, and what this gives. -/
theorem extend_eq_ok {allowDuplicates : Bool} {extended : KnownTypes} :
    ∀ {types : List KnownType} {table : KnownTypes},
      extend allowDuplicates table types = .ok extended ↔
        (allowDuplicates = false → (types.map KnownType.fullName).Nodup ∧
          ∀ type ∈ types, ¬ table.contains type.fullName = true) ∧
        types.foldl insert table = extended := by
  intro types
  induction types with
  | nil => intro table; simp [extend]
  | cons first rest ih =>
    intro table
    rw [extend]
    cases allowDuplicates with
    | true => simpa using ih
    | false =>
      by_cases hfirst : table.contains first.fullName = true
      · simp [hfirst]
      · rw [if_neg (by simpa using hfirst), ih, List.foldl_cons]
        refine and_congr_left fun _ => imp_congr_right fun _ => ?_
        rw [List.map_cons, List.nodup_cons]
        constructor
        · rintro ⟨hnd, hnew⟩
          refine ⟨⟨fun hm => ?_, hnd⟩, List.forall_mem_cons.2 ⟨hfirst, fun type ht hin => ?_⟩⟩
          · obtain ⟨type, ht, he⟩ := List.mem_map.1 hm
            exact hnew type ht ((contains_insert _ _ _).2 (Or.inl he.symm))
          · exact hnew type ht ((contains_insert _ _ _).2 (Or.inr hin))
        · rintro ⟨⟨hnot, hnd⟩, hnew⟩
          refine ⟨hnd, fun type ht hin => ?_⟩
          rcases (contains_insert _ _ _).1 hin with he | hin
          · exact hnot (he ▸ List.mem_map_of_mem ht)
          · exact hnew type (List.mem_cons_of_mem _ ht) hin

theorem ofList_eq_ok {allowDuplicates : Bool} {types : List KnownType} {table : KnownTypes} :
    ofList types allowDuplicates = .ok table ↔
      (allowDuplicates = false → (types.map KnownType.fullName).Nodup) ∧
        types.foldl insert empty = table := by
  rw [ofList, extend_eq_ok]
  refine and_congr_left fun _ => imp_congr_right fun _ => and_iff_left ?_
  intro type _ h
  cases h

theorem entries_foldl_insert : ∀ (types : List KnownType) (table : KnownTypes),
    (types.foldl insert table).entries
      = (types.map fun type => (type.fullName, type)).foldl
          (fun map (key, value) => NameMap.insert key value map) table.entries := by
  intro types
  induction types with
  | nil => intro table; rfl
  | cons first rest ih => intro table; exact ih (table.insert first)

theorem mem_of_get?_ofList {allowDuplicates : Bool} {types : List KnownType} {table : KnownTypes}
    (h : ofList types allowDuplicates = .ok table) {name : String} {known : KnownType}
    (hget : table.get? name = some known) : known ∈ types ∧ known.fullName = name := by
  obtain ⟨-, rfl⟩ := ofList_eq_ok.1 h
  rw [get?, entries_foldl_insert] at hget
  obtain ⟨type, ht, he⟩ := List.mem_map.1 (NameMap.mem_of_find?_ofList hget)
  cases he
  exact ⟨ht, rfl⟩

/-- **Types in another order give the same table.** -/
theorem ofList_of_perm {types others : List KnownType} (h : types.Perm others) {table : KnownTypes}
    (hok : ofList types false = .ok table) : ofList others false = .ok table := by
  obtain ⟨hnd, rfl⟩ := ofList_eq_ok.1 hok
  have hnames : (types.map fun type => (type.fullName, type)).map Prod.fst
      = types.map KnownType.fullName := by
    rw [List.map_map]
    rfl
  refine ofList_eq_ok.2 ⟨fun hf => (h.map KnownType.fullName).nodup_iff.1 (hnd hf), ?_⟩
  rw [KnownTypes.mk.injEq, entries_foldl_insert, entries_foldl_insert]
  refine (NameMap.ofList_eq_of_perm ?_ (h.map _)).symm
  rw [hnames]
  exact hnd rfl

end DomainForms.KnownTypes
