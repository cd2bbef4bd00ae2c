import DomainForms.NameMap

/-!
# Laws of maps from names

What a map holds for a name after an insertion (`find?_insert`) needs no order of the entries.  That
a map built by insertions has one entry for each name does: its names increase
(`increasing_ofList`), so finding an entry and being an entry are the same
(`find?_eq_some_iff`).

* `find?_insert`, `find?_ofList`: what is found; of several entries with one name, it is the last.
* `increasing_insert`, `increasing_ofList`: the names increase.
* `perm_ofList`, `ofList_eq_of_perm`: without repeated names, a map is a rearrangement of its
  entries, and their order does not matter.
-/

namespace DomainForms.NameMap

variable {α : Type}

/-! ## Finding -/

/-- **An insertion changes what is found for its own name only.** -/
theorem find?_insert (key : String) (value : α) (name : String) : ∀ map : NameMap α,
    find? name (insert key value map) = if key = name then some value else find? name map := by
  intro map
  induction map with
  | nil => rfl
  | cons entry rest ih =>
    obtain ⟨first, held⟩ := entry
    rw [insert]
    split
    · rfl
    · split
      · rename_i hkey
        subst hkey
        rw [find?, find?]
        by_cases hname : key = name
        · rw [if_pos hname, if_pos hname]
        · rw [if_neg hname, if_neg hname, if_neg hname]
      · rename_i hkey
        rw [find?, find?, ih]
        by_cases hname : first = name
        · subst hname
          rw [if_pos rfl, if_pos rfl, if_neg hkey]
        · rw [if_neg hname, if_neg hname]

theorem mem_of_find? {name : String} {value : α} : ∀ map : NameMap α,
    find? name map = some value → (name, value) ∈ map := by
  intro map
  induction map with
  | nil => intro h; cases h
  | cons entry rest ih =>
    intro h
    obtain ⟨first, held⟩ := entry
    rw [find?] at h
    split at h
    · rename_i hname
      cases h
      rw [hname]
      exact List.mem_cons_self
    · exact List.mem_cons_of_mem _ (ih h)

theorem find?_foldl_insert (name : String) : ∀ entries map : List (String × α),
    find? name (entries.foldl (fun map (key, value) => insert key value map) map)
      = ((entries.reverse.find? (·.1 == name)).map Prod.snd).or (find? name map) := by
  intro entries
  induction entries with
  | nil => intro map; rfl
  | cons entry rest ih =>
    intro map
    obtain ⟨key, value⟩ := entry
    rw [List.foldl_cons, ih, find?_insert, List.reverse_cons, List.find?_append]
    cases rest.reverse.find? (·.1 == name) with
    | some found => rfl
    | none => by_cases hkey : key = name <;> simp [hkey]

/-- **Of several entries with one name, the last one is found.** -/
theorem find?_ofList (name : String) (entries : List (String × α)) :
    find? name (ofList entries) = (entries.reverse.find? (·.1 == name)).map Prod.snd := by
  rw [ofList, find?_foldl_insert, find?, Option.or_none]

theorem mem_of_find?_ofList {name : String} {value : α} {entries : List (String × α)}
    (h : find? name (ofList entries) = some value) : (name, value) ∈ entries := by
  rw [find?_ofList, Option.map_eq_some_iff] at h
  obtain ⟨⟨key, found⟩, hfind, rfl⟩ := h
  obtain rfl : key = name := by simpa using List.find?_some hfind
  exact List.mem_reverse.1 (List.mem_of_find?_eq_some hfind)

/-! ## Order -/

/-- The names of a map increase. -/
def Increasing (map : NameMap α) : Prop := map.Pairwise fun a b => a.1 < b.1

theorem mem_insert {key : String} {value : α} {entry : String × α} : ∀ map : NameMap α,
    entry ∈ insert key value map → entry = (key, value) ∨ entry ∈ map := by
  intro map
  induction map with
  | nil => intro h; exact Or.inl (List.mem_singleton.mp h)
  | cons head rest ih =>
    intro h
    obtain ⟨first, held⟩ := head
    rw [insert] at h
    split at h
    · exact List.mem_cons.mp h
    · split at h
      · rcases List.mem_cons.mp h with he | hm
        · exact Or.inl he
        · exact Or.inr (List.mem_cons_of_mem _ hm)
      · rcases List.mem_cons.mp h with he | hm
        · exact Or.inr (he ▸ List.mem_cons_self)
        · exact (ih hm).imp_right (List.mem_cons_of_mem _)

/-- **An insertion keeps the names increasing.** -/
theorem increasing_insert (key : String) (value : α) : ∀ map : NameMap α,
    Increasing map → Increasing (insert key value map) := by
  intro map
  induction map with
  | nil => intro _; exact List.pairwise_singleton _ _
  | cons head rest ih =>
    intro h
    obtain ⟨first, held⟩ := head
    have hhead : ∀ entry ∈ rest, first < entry.1 := (List.pairwise_cons.mp h).1
    have hrest : Increasing rest := (List.pairwise_cons.mp h).2
    rw [insert]
    split
    · rename_i hlt
      refine List.pairwise_cons.mpr ⟨?_, h⟩
      intro entry hm
      rcases List.mem_cons.mp hm with rfl | hm
      · exact hlt
      · exact String.lt_trans hlt (hhead entry hm)
    · split
      · rename_i heq
        subst heq
        exact List.pairwise_cons.mpr ⟨hhead, hrest⟩
      · rename_i hlt hne
        refine List.pairwise_cons.mpr ⟨?_, ih hrest⟩
        intro entry hm
        rcases mem_insert rest hm with rfl | hm
        · -- the name is neither below the first one nor equal to it
          by_cases hgt : first < key
          · exact hgt
          · exact absurd (String.le_antisymm (String.not_lt.mp hgt) (String.not_lt.mp hlt)) hne
        · exact hhead entry hm

theorem increasing_foldl_insert : ∀ (entries : List (String × α)) (map : NameMap α),
    Increasing map →
      Increasing (entries.foldl (fun map (key, value) => insert key value map) map) := by
  intro entries
  induction entries with
  | nil => intro map h; exact h
  | cons entry rest ih => intro map h; exact ih _ (increasing_insert _ _ map h)

theorem increasing_ofList (entries : List (String × α)) : Increasing (ofList entries) :=
  increasing_foldl_insert entries [] List.Pairwise.nil

/-- **Finding is membership**, in a map whose names increase. -/
theorem find?_eq_some_iff {name : String} {value : α} : ∀ {map : NameMap α}, Increasing map →
    (find? name map = some value ↔ (name, value) ∈ map) := by
  intro map h
  refine ⟨mem_of_find? map, ?_⟩
  induction map with
  | nil => intro hm; cases hm
  | cons head rest ih =>
    intro hm
    obtain ⟨first, held⟩ := head
    rw [find?]
    rcases List.mem_cons.mp hm with he | hm
    · cases he
      rw [if_pos rfl]
    · have hlt : first < name := (List.pairwise_cons.mp h).1 _ hm
      rw [if_neg (String.ne_of_lt hlt)]
      exact ih (List.pairwise_cons.mp h).2 hm

/-! ## Rearrangement -/

theorem perm_insert {key : String} (value : α) : ∀ map : NameMap α,
    key ∉ map.map Prod.fst → (insert key value map).Perm ((key, value) :: map) := by
  intro map
  induction map with
  | nil => intro _; exact List.Perm.refl _
  | cons head rest ih =>
    intro h
    obtain ⟨first, held⟩ := head
    rw [List.map_cons, List.mem_cons, not_or] at h
    rw [insert]
    split
    · exact List.Perm.refl _
    · rw [if_neg h.1]
      exact ((ih h.2).cons _).trans (List.Perm.swap _ _ _)

theorem perm_foldl_insert : ∀ entries map : List (String × α),
    (entries.map Prod.fst).Nodup → (∀ entry ∈ entries, entry.1 ∉ map.map Prod.fst) →
      (entries.foldl (fun map (key, value) => insert key value map) map).Perm (entries ++ map) := by
  intro entries
  induction entries with
  | nil => intro map _ _; exact List.Perm.refl _
  | cons entry rest ih =>
    intro map hnd hnew
    obtain ⟨key, value⟩ := entry
    rw [List.map_cons, List.nodup_cons] at hnd
    have hins : (insert key value map).Perm ((key, value) :: map) :=
      perm_insert value map (hnew _ List.mem_cons_self)
    have hnew' : ∀ entry ∈ rest, entry.1 ∉ (insert key value map).map Prod.fst := by
      intro entry hm hin
      rw [(hins.map Prod.fst).mem_iff, List.map_cons, List.mem_cons] at hin
      rcases hin with he | hin
      · exact hnd.1 (he ▸ List.mem_map_of_mem hm)
      · exact hnew entry (List.mem_cons_of_mem _ hm) hin
    exact (ih _ hnd.2 hnew').trans ((hins.append_left rest).trans List.perm_middle)

theorem perm_ofList {entries : List (String × α)} (h : (entries.map Prod.fst).Nodup) :
    (ofList entries).Perm entries := by
  have := perm_foldl_insert entries [] h (fun _ _ hin => by cases hin)
  rwa [List.append_nil] at this

/-- **The order of entries with different names does not matter.** -/
theorem ofList_eq_of_perm {entries others : List (String × α)} (hnd : (entries.map Prod.fst).Nodup)
    (h : entries.Perm others) : ofList entries = ofList others := by
  have hnd' : (others.map Prod.fst).Nodup := (h.map Prod.fst).nodup_iff.1 hnd
  refine List.Perm.eq_of_pairwise ?_ (increasing_ofList entries) (increasing_ofList others)
    ((perm_ofList hnd).trans (h.trans (perm_ofList hnd').symm))
  intro a b _ _ hab hba
  exact absurd hba (String.lt_asymm hab)

end DomainForms.NameMap
