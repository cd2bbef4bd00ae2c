import DomainForms.Name

/-!
# Dotted text and qualified names

A qualified name is read from its dotted text by cutting it at the dots, and written by joining the
segments again.  The two are inverse to each other as soon as no segment is empty and none holds a
dot, which is the case for every name that was read (`parse_proper`).

* `Text.segments_join`, `Text.join_segments`: cutting and joining are inverse.
* `QualifiedName.parse_fullName`: a proper name is read back from its full name.
* `QualifiedName.parse_fullName_parse`: reading, writing and reading again is reading once.
* `QualifiedName.parent_simpleName`: a name is its parent, a dot and its last segment.
-/

namespace DomainForms.Text

/-! ## Segments -/

theorem segments_ne_nil (text : List Char) : segments text ≠ [] := by
  cases text with
  | nil => simp [segments]
  | cons c rest =>
    rw [segments]
    split
    · simp
    · split <;> simp

theorem segments_of_not_mem : ∀ text : List Char, '.' ∉ text → segments text = [text] := by
  intro text
  induction text with
  | nil => intro _; rfl
  | cons c rest ih =>
    intro h
    rw [List.mem_cons, not_or] at h
    rw [segments, if_neg (Ne.symm h.1), ih h.2]

theorem segments_append_dot : ∀ left right : List Char,
    segments (left ++ '.' :: right) = segments left ++ segments right := by
  intro left right
  induction left with
  | nil => simp [segments]
  | cons c rest ih =>
    rw [List.cons_append, segments, segments, ih]
    split
    · rfl
    · cases hs : segments rest with
      | nil => exact absurd hs (segments_ne_nil rest)
      | cons first others => rfl

theorem not_mem_of_mem_segments : ∀ (text segment : List Char),
    segment ∈ segments text → '.' ∉ segment := by
  intro text
  induction text with
  | nil => intro segment h; simp_all [segments]
  | cons c rest ih =>
    intro segment h
    rw [segments] at h
    split at h
    · rcases List.mem_cons.mp h with rfl | hm
      · simp
      · exact ih segment hm
    · rename_i hc
      cases hs : segments rest with
      | nil => exact absurd hs (segments_ne_nil rest)
      | cons first others =>
        rw [hs] at h ih
        rcases List.mem_cons.mp h with rfl | hm
        · have := ih first List.mem_cons_self
          simp [this, Ne.symm hc]
        · exact ih segment (List.mem_cons_of_mem _ hm)

/-! ## Joining -/

theorem join_cons_cons (first second : String) (rest : List String) :
    join (first :: second :: rest) = first ++ "." ++ join (second :: rest) := rfl

theorem join_cons_of_ne_nil (first : String) {rest : List String} (h : rest ≠ []) :
    join (first :: rest) = first ++ "." ++ join rest := by
  cases rest with
  | nil => exact absurd rfl h
  | cons second others => rfl

theorem join_concat (pieces : List String) (last : String) (h : pieces ≠ []) :
    join (pieces ++ [last]) = join pieces ++ "." ++ last := by
  induction pieces with
  | nil => exact absurd rfl h
  | cons first rest ih =>
    cases rest with
    | nil => rfl
    | cons second others =>
      rw [List.cons_append, join_cons_of_ne_nil _ (by simp), ih (by simp), join_cons_cons,
        String.append_assoc, String.append_assoc, String.append_assoc, String.append_assoc,
        String.append_assoc]

/-- **A text is its segments, joined.** -/
theorem join_segments : ∀ text : List Char,
    join ((segments text).map String.ofList) = String.ofList text := by
  intro text
  induction text with
  | nil => rfl
  | cons c rest ih =>
    rw [segments]
    split
    · rename_i hc
      subst hc
      rw [List.map_cons, join_cons_of_ne_nil _ (by simpa using segments_ne_nil rest), ih]
      apply String.ext
      simp
    · cases hs : segments rest with
      | nil => exact absurd hs (segments_ne_nil rest)
      | cons first others =>
        rw [hs] at ih
        apply String.ext
        have h := congrArg String.toList ih
        cases others with
        | nil => simpa [join, separated] using h
        | cons second others =>
          simp only [List.map_cons, join_cons_cons, String.toList_append, String.toList_ofList] at h ⊢
          rw [List.cons_append, List.cons_append, h]

/-- Only the last of the joined pieces is cut further, if the others hold no dots. -/
theorem segments_join_concat (last : String) : ∀ front : List String,
    (∀ piece ∈ front, '.' ∉ piece.toList) →
    segments (join (front ++ [last])).toList = front.map String.toList ++ segments last.toList := by
  intro front
  induction front with
  | nil => intro _; rfl
  | cons first rest ih =>
    intro hp
    have hfirst : segments first.toList = [first.toList] :=
      segments_of_not_mem _ (hp first List.mem_cons_self)
    have hdot : (".".toList : List Char) = ['.'] := rfl
    rw [List.cons_append, join_cons_of_ne_nil _ (by simp), String.toList_append,
      String.toList_append, hdot, List.append_assoc, List.singleton_append, segments_append_dot,
      hfirst, ih (fun piece hm => hp piece (List.mem_cons_of_mem _ hm))]
    rfl

/-- **Joined pieces are cut where they were joined**, if they hold no dots themselves. -/
theorem segments_join (pieces : List String) (hne : pieces ≠ [])
    (hp : ∀ piece ∈ pieces, '.' ∉ piece.toList) :
    segments (join pieces).toList = pieces.map String.toList := by
  have hlast : segments (pieces.getLast hne).toList = [(pieces.getLast hne).toList] :=
    segments_of_not_mem _ (hp _ (List.getLast_mem hne))
  rw [← List.dropLast_concat_getLast hne,
    segments_join_concat _ _ (fun piece hm => hp piece (List.dropLast_subset _ hm)), hlast,
    List.map_append]
  rfl

theorem exists_segments_append : ∀ text : List Char, ∃ init last, ∀ more : List Char,
    '.' ∉ more → segments (text ++ more) = init ++ [last ++ more] := by
  intro text
  induction text with
  | nil => exact ⟨[], [], segments_of_not_mem⟩
  | cons c rest ih =>
    obtain ⟨init, last, h⟩ := ih
    by_cases hc : c = '.'
    · refine ⟨[] :: init, last, fun more hm => ?_⟩
      rw [List.cons_append, segments, if_pos hc, h more hm]
      rfl
    · cases init with
      | nil =>
        refine ⟨[], c :: last, fun more hm => ?_⟩
        rw [List.cons_append, segments, if_neg hc, h more hm]
        rfl
      | cons first others =>
        refine ⟨(c :: first) :: others, last, fun more hm => ?_⟩
        rw [List.cons_append, segments, if_neg hc, h more hm]
        rfl

theorem join_eq_empty_iff {pieces : List String} (h : ∀ piece ∈ pieces, piece ≠ "") :
    join pieces = "" ↔ pieces = [] := by
  constructor
  · intro he
    cases pieces with
    | nil => rfl
    | cons first rest =>
      have hfirst := h first List.mem_cons_self
      cases rest with
      | nil => exact absurd he hfirst
      | cons second others =>
        rw [join_cons_cons] at he
        have := congrArg String.toList he
        simp at this
  · intro he
    rw [he]
    rfl

end DomainForms.Text

namespace DomainForms.QualifiedName

/-! ## Proper names -/

/-- A name is **proper** when its segments can be told apart in its full name: none is empty, and
none holds a dot. -/
def Proper (name : QualifiedName) : Prop :=
  ∀ segment ∈ name.segments, segment ≠ "" ∧ '.' ∉ segment.toList

theorem parse_proper (text : String) : (parse text).Proper := by
  intro segment h
  obtain ⟨piece, hm, rfl⟩ := List.mem_map.mp h
  obtain ⟨hm, hne⟩ := List.mem_filter.mp hm
  refine ⟨?_, ?_⟩
  · intro he
    have : piece = [] := by simpa using congrArg String.toList he
    simp [this] at hne
  · rw [String.toList_ofList]
    exact Text.not_mem_of_mem_segments _ _ hm

/-- **A proper name is read back from its full name.** -/
theorem parse_fullName {name : QualifiedName} (h : name.Proper) : parse name.fullName = name := by
  obtain ⟨pieces⟩ := name
  by_cases hnil : pieces = []
  · subst hnil
    rfl
  · have hcut : Text.segments (Text.join pieces).toList = pieces.map String.toList :=
      Text.segments_join pieces hnil (fun piece hm => (h piece hm).2)
    have hall : ∀ piece ∈ pieces.map String.toList, (!piece.isEmpty) = true := by
      intro piece hm
      obtain ⟨s, hs, rfl⟩ := List.mem_map.mp hm
      have := (h s hs).1
      simpa using this
    rw [parse, fullName, hcut, List.filter_eq_self.mpr hall, List.map_map]
    simp

theorem parse_fullName_parse (text : String) : parse (parse text).fullName = parse text :=
  parse_fullName (parse_proper text)

theorem fullName_parse {text : String} (h : ∀ segment ∈ Text.segments text.toList, segment ≠ []) :
    (parse text).fullName = text := by
  have hall : ∀ piece ∈ Text.segments text.toList, (!piece.isEmpty) = true := by
    intro piece hm
    simpa using h piece hm
  rw [parse, fullName, List.filter_eq_self.mpr hall, Text.join_segments, String.ofList_toList]

/-- The full name of a proper name is put before another segment with a dot; the dot is missing if
the name is empty. -/
theorem fullName_concat {name : QualifiedName} (h : name.Proper) (last : String) :
    (if name.fullName.isEmpty then last else name.fullName ++ "." ++ last)
      = Text.join (name.segments ++ [last]) := by
  have hempty : name.fullName.isEmpty = true ↔ name.segments = [] := by
    rw [String.isEmpty_iff]
    exact Text.join_eq_empty_iff (fun piece hm => (h piece hm).1)
  split
  · rename_i he
    rw [hempty.mp he]
    rfl
  · rename_i he
    rw [Text.join_concat _ last (fun hf => he (hempty.mpr hf))]
    rfl

theorem Proper.parent {name : QualifiedName} (h : name.Proper) : name.parent.Proper :=
  fun segment hm => h segment (List.dropLast_subset _ hm)

theorem parent_concat_simpleName {name : QualifiedName} (h : name.segments ≠ []) :
    name.parent.segments ++ [name.simpleName] = name.segments := by
  rw [parent, simpleName, List.getLast?_eq_some_getLast h]
  exact List.dropLast_concat_getLast h

theorem parent_simpleName {name : QualifiedName} (h : name.Proper) :
    (if name.parent.fullName.isEmpty then name.simpleName
      else name.parent.fullName ++ "." ++ name.simpleName) = name.fullName := by
  rw [fullName_concat h.parent]
  by_cases hnil : name.segments = []
  · rw [parent, simpleName, fullName, hnil]
    rfl
  · rw [parent_concat_simpleName hnil, fullName]

end DomainForms.QualifiedName
