import Mathlib.Data.String.Basic
import WorldPlugins.Keyed

/-! # Setting several entries

Of two entries set under one key the later remains, and entries under different keys may be set in either order.  The
keys of a map ascend, so it is determined by what is found in it.
-/

namespace WorldPlugins.Keyed

variable {α : Type}

@[simp] theorem insert_insert_self (entries : Keyed α) (key : String) (v w : α) :
    insert key v (insert key w entries) = insert key v entries := by
  induction entries with
  | nil => simp [insert]
  | cons entry rest ih =>
    obtain ⟨k, u⟩ := entry
    rw [insert]
    split
    · next h => simp [insert, h]
    split
    · next h hlt => simp [insert, h, hlt]
    · next h hlt => simp [insert, h, hlt, ih]

theorem insert_comm (entries : Keyed α) {key other : String} (h : key ≠ other) (v w : α) :
    insert key v (insert other w entries) = insert other w (insert key v entries) := by
  induction entries with
  | nil =>
    rcases lt_or_gt_of_ne h with hlt | hlt
    · simp [insert, h, Ne.symm h, hlt, lt_asymm hlt]
    · simp [insert, h, Ne.symm h, hlt, lt_asymm hlt]
  | cons entry rest ih =>
    obtain ⟨k, u⟩ := entry
    grind [insert]

def Ordered (entries : Keyed α) : Prop := entries.Pairwise fun e f => e.1 < f.1

theorem eq_or_mem_of_mem_insert {entries : Keyed α} {key : String} {value : α} {e : String × α}
    (h : e ∈ insert key value entries) : e = (key, value) ∨ e ∈ entries := by
  induction entries with
  | nil => exact .inl (List.mem_singleton.mp h)
  | cons entry rest ih =>
    obtain ⟨k, v⟩ := entry
    rw [insert] at h
    split at h
    · exact (List.mem_cons.mp h).imp_right (List.mem_cons_of_mem _)
    split at h
    · exact List.mem_cons.mp h
    · rcases List.mem_cons.mp h with rfl | h
      · exact .inr List.mem_cons_self
      · exact (ih h).imp_right (List.mem_cons_of_mem _)

theorem ordered_insert {entries : Keyed α} (h : Ordered entries) (key : String) (value : α) :
    Ordered (insert key value entries) := by
  induction entries with
  | nil => exact List.pairwise_singleton _ _
  | cons entry rest ih =>
    obtain ⟨k, v⟩ := entry
    obtain ⟨hbefore, hrest⟩ := List.pairwise_cons.mp h
    rw [insert]
    split
    · next hkey =>
      subst hkey
      exact List.pairwise_cons.mpr ⟨hbefore, hrest⟩
    split
    · next hlt =>
      refine List.pairwise_cons.mpr ⟨?_, h⟩
      rintro e (_ | ⟨_, he⟩)
      · exact hlt
      · exact lt_trans hlt (hbefore e he)
    · next hne hlt =>
      refine List.pairwise_cons.mpr ⟨?_, ih hrest⟩
      intro e he
      rcases eq_or_mem_of_mem_insert he with rfl | he
      · exact lt_of_le_of_ne (not_lt.mp hlt) (Ne.symm hne)
      · exact hbefore e he

private theorem ordered_foldl_insert (entries : List (String × α)) {before : Keyed α} (h : Ordered before) :
    Ordered (entries.foldl (fun done (key, value) => insert key value done) before) := by
  induction entries generalizing before with
  | nil => exact h
  | cons e entries ih => exact ih (ordered_insert h e.1 e.2)

/-- Whatever a map is made from, its keys ascend. -/
theorem ordered_ofList (entries : List (String × α)) : Ordered (ofList entries) :=
  ordered_foldl_insert entries List.Pairwise.nil

private theorem mem_of_mem_foldl_insert {entries : List (String × α)} {before : Keyed α} {e : String × α}
    (h : e ∈ entries.foldl (fun done (key, value) => insert key value done) before) : e ∈ before ∨ e ∈ entries := by
  induction entries generalizing before with
  | nil => exact .inl h
  | cons f entries ih =>
    rcases ih h with h | h
    · rcases eq_or_mem_of_mem_insert h with rfl | h
      · exact .inr List.mem_cons_self
      · exact .inl h
    · exact .inr (List.mem_cons_of_mem f h)

theorem mem_of_mem_ofList {entries : List (String × α)} {e : String × α} (h : e ∈ ofList entries) : e ∈ entries :=
  (mem_of_mem_foldl_insert h).resolve_left List.not_mem_nil

private theorem insert_of_lt {entries : Keyed α} {key : String} (h : ∀ e ∈ entries, e.1 < key) (value : α) :
    insert key value entries = entries ++ [(key, value)] := by
  induction entries with
  | nil => rfl
  | cons entry rest ih =>
    obtain ⟨k, v⟩ := entry
    have hk : k < key := h _ List.mem_cons_self
    rw [insert, if_neg (ne_of_gt hk), if_neg (lt_asymm hk), ih fun e he => h e (List.mem_cons_of_mem _ he),
      List.cons_append]

private theorem foldl_insert_of_ordered (before : Keyed α) {entries : Keyed α} (h : Ordered (before ++ entries)) :
    entries.foldl (fun done (key, value) => insert key value done) before = before ++ entries := by
  induction entries generalizing before with
  | nil => exact (List.append_nil before).symm
  | cons e entries ih =>
    obtain ⟨k, v⟩ := e
    have hlast : insert k v before = before ++ [(k, v)] :=
      insert_of_lt (fun f hf => (List.pairwise_append.mp h).2.2 f hf _ List.mem_cons_self) v
    rw [List.append_cons] at h ⊢
    rw [List.foldl_cons]
    dsimp only
    rw [hlast, ih _ h]

/-- Entries in ascending order of their keys are a map as they are. -/
theorem ofList_of_ordered {entries : Keyed α} (h : Ordered entries) : ofList entries = entries :=
  foldl_insert_of_ordered [] h

theorem get?_of_lt {entries : Keyed α} {key : String} (h : ∀ e ∈ entries, key < e.1) : get? entries key = none := by
  induction entries with
  | nil => rfl
  | cons entry rest ih =>
    obtain ⟨k, v⟩ := entry
    rw [get?_cons, if_neg (ne_of_lt (h _ List.mem_cons_self)), ih fun e he => h e (List.mem_cons_of_mem _ he)]

private theorem fst_le_of_get? {k : String} {v : α} {rest : Keyed α} (h : Ordered ((k, v) :: rest)) {key : String}
    (hkey : get? ((k, v) :: rest) key ≠ none) : k ≤ key := by
  by_contra hlt
  refine hkey (get?_of_lt ?_)
  rintro e (_ | ⟨_, he⟩)
  · exact not_le.mp hlt
  · exact lt_trans (not_le.mp hlt) ((List.pairwise_cons.mp h).1 e he)

/-- A map is determined by what is found under each key. -/
theorem Ordered.ext {entries others : Keyed α} (h : Ordered entries) (h' : Ordered others)
    (hget : ∀ key, get? entries key = get? others key) : entries = others := by
  induction entries generalizing others with
  | nil =>
    cases others with
    | nil => rfl
    | cons e others =>
      obtain ⟨k, v⟩ := e
      simpa [get?_cons] using hget k
  | cons entry rest ih =>
    obtain ⟨k, v⟩ := entry
    cases others with
    | nil => simpa [get?_cons] using hget k
    | cons e others =>
      obtain ⟨k', v'⟩ := e
      have hkey : k = k' := by
        refine le_antisymm (fst_le_of_get? h ?_) (fst_le_of_get? h' ?_)
        · simp [hget k', get?_cons]
        · simp [← hget k, get?_cons]
      subst hkey
      have hvalue : v = v' := by simpa [get?_cons] using hget k
      have hrest : rest = others := by
        refine ih (List.pairwise_cons.mp h).2 (List.pairwise_cons.mp h').2 fun key => ?_
        by_cases hk : key = k
        · subst hk
          rw [get?_of_lt (List.pairwise_cons.mp h).1, get?_of_lt (List.pairwise_cons.mp h').1]
        · simpa [get?_cons, hk] using hget key
      rw [hvalue, hrest]

theorem mem_keys_iff (entries : Keyed α) (key : String) :
    key ∈ entries.map Prod.fst ↔ ∃ value, get? entries key = some value := by
  induction entries with
  | nil => simp
  | cons entry rest ih =>
    obtain ⟨k, v⟩ := entry
    rw [List.map_cons, List.mem_cons, get?_cons, ih]
    by_cases h : key = k <;> simp [h]

/-- An entry of a map is what is found under its key. -/
theorem Ordered.get?_of_mem {entries : Keyed α} (h : Ordered entries) {e : String × α} (he : e ∈ entries) :
    get? entries e.1 = some e.2 := by
  induction entries with
  | nil => cases he
  | cons entry rest ih =>
    obtain ⟨k, v⟩ := entry
    obtain ⟨hbefore, hrest⟩ := List.pairwise_cons.mp h
    rw [get?_cons]
    rcases List.mem_cons.mp he with rfl | he
    · exact if_pos rfl
    · rw [if_neg (ne_of_gt (hbefore e he)), ih hrest he]

end WorldPlugins.Keyed
