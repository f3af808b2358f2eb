import WorldPlugins.NameList

/-! # Which lists of names can be stored

A list of names is read back from its text exactly when no name has a comma and the list is not one empty name.
A text read as names always gives such a list, so the only thing that can go wrong is a name that is added.
-/

namespace WorldPlugins.NameList

theorem isStorable_iff (name : String) : isStorable name = true ↔ name ≠ "" ∧ ',' ∉ name.toList := by
  simp [isStorable]

theorem joinWith_eq (separator : Char) (names : List String) :
    joinWith separator names = (String.singleton separator).intercalate names := by
  apply String.toList_injective
  simp [joinWith]

/-- A text is cut as lists are in general. -/
theorem pieces_eq_splitOn (separator : Char) (cs : List Char) : pieces separator cs = cs.splitOn separator := by
  induction cs with
  | nil => rfl
  | cons c cs ih =>
    simp only [pieces, List.splitOn_cons_eq_if_modifyHead, ih, beq_iff_eq]
    cases hpieces : cs.splitOn separator with
    | nil => exact absurd (ih.trans hpieces) (pieces_ne_nil separator cs)
    | cons piece rest => rfl

theorem notMem_of_mem_pieces {separator : Char} {cs piece : List Char}
    (h : piece ∈ pieces separator cs) : separator ∉ piece := by
  induction cs generalizing piece with
  | nil =>
    simp only [pieces, List.mem_singleton] at h
    simp [h]
  | cons c cs ih =>
    unfold pieces at h
    split at h
    · rcases List.mem_cons.mp h with rfl | h
      · exact List.not_mem_nil
      · exact ih h
    · next hc =>
      obtain ⟨first, rest, hp⟩ := List.exists_cons_of_ne_nil (pieces_ne_nil separator cs)
      simp only [hp, List.mem_cons] at h ih
      rcases h with rfl | h
      · have hfirst : separator ∉ first := ih (.inl rfl)
        simp [Ne.symm hc, hfirst]
      · exact ih (.inr h)

theorem join_split (text : String) : join (split text) = text := by
  unfold split
  split
  · next hempty =>
    rw [hempty]
    rfl
  · have hchars : ((pieces ',' text.toList).map String.ofList).map String.toList = pieces ',' text.toList := by
      simp [Function.comp_def]
    rw [join, joinWith, hchars, pieces_eq_splitOn, List.intercalate_splitOn, String.ofList_toList]

theorem notMem_of_mem_split {text name : String} (h : name ∈ split text) : ',' ∉ name.toList := by
  unfold split at h
  split at h
  · exact absurd h List.not_mem_nil
  · obtain ⟨piece, hp, rfl⟩ := List.mem_map.mp h
    simpa using notMem_of_mem_pieces hp

/-- An empty text has no names, and any other one more than it has commas. -/
theorem length_split (text : String) :
    (split text).length = if text = "" then 0 else text.toList.count ',' + 1 := by
  unfold split
  split
  · rfl
  · rw [List.length_map, length_pieces]

theorem split_ne_singleton_empty (text : String) : split text ≠ [""] := by
  intro h
  have htext : text = "" := by
    rw [← join_split text, h]
    rfl
  have hlength := length_split text
  rw [h, if_pos htext] at hlength
  cases hlength

/-- A list of names is read back from its text if and only if no name has a comma and the list is not one empty
name. -/
theorem split_join_eq_self_iff (names : List String) :
    split (join names) = names ↔ (∀ name ∈ names, ',' ∉ name.toList) ∧ names ≠ [""] := by
  constructor
  · intro h
    constructor
    · intro name hname
      rw [← h] at hname
      exact notMem_of_mem_split hname
    · intro hone
      exact split_ne_singleton_empty _ (h.trans hone)
  · rintro ⟨hcomma, hone⟩
    by_cases hne : names = []
    · subst hne; rfl
    · have hpieces : pieces ',' (join names).toList = names.map String.toList := by
        rw [pieces_eq_splitOn, join, joinWith, String.toList_ofList,
          List.splitOn_intercalate ',' (by simpa using hcomma) (by simpa using hne)]
      have htext : join names ≠ "" := by
        intro hempty
        rw [hempty] at hpieces
        obtain ⟨name, hname, hchars⟩ := List.map_eq_singleton_iff.mp hpieces.symm
        rw [String.toList_eq_nil_iff.mp hchars] at hname
        exact hone hname
      rw [split, if_neg htext, hpieces]
      simp

theorem split_join_of_storable {names : List String} (h : ∀ name ∈ names, isStorable name = true) :
    split (join names) = names := by
  refine (split_join_eq_self_iff names).mpr ⟨?_, ?_⟩
  · intro name hname
    exact ((isStorable_iff name).mp (h name hname)).2
  · rintro rfl
    exact ((isStorable_iff "").mp (h "" List.mem_cons_self)).1 rfl

/-- Joining and splitting undo each other on the lists that can be stored.  A list of names comes back from its text if
and only if no name has a comma and the list is not one empty name.  Every text is that of the names in it; these have
no commas, and they are none if the text is empty and one more than its commas otherwise.  In particular names that may
be stored come back. -/
theorem lists_correspond_to_texts (names : List String) (text : String) :
    (split (join names) = names ↔ (∀ name ∈ names, ',' ∉ name.toList) ∧ names ≠ [""]) ∧
      join (split text) = text ∧ (∀ name ∈ split text, ',' ∉ name.toList) ∧
      (split text).length = (if text = "" then 0 else text.toList.count ',' + 1) ∧
      ((∀ name ∈ names, isStorable name = true) → split (join names) = names) :=
  ⟨split_join_eq_self_iff names, join_split text, fun _ => notMem_of_mem_split, length_split text,
    split_join_of_storable⟩

/-- Empty names are lost only if there is one alone. -/
example : split (join ["", ""]) = ["", ""] ∧ split (join [""]) = [] := by decide

end WorldPlugins.NameList
