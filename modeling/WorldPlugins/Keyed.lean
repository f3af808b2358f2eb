/-! # Entries under keys

A finite map from strings, as the list of its entries in ascending order of their keys.  `insert` keeps that
order and lets a later entry replace an earlier one of the same key.
-/

namespace WorldPlugins

/-- Entries in ascending order of their keys. -/
abbrev Keyed (α : Type) := List (String × α)

namespace Keyed

variable {α : Type}

def insert (key : String) (value : α) : Keyed α → Keyed α
  | [] => [(key, value)]
  | (k, v) :: rest =>
    if key = k then (key, value) :: rest
    else if key < k then (key, value) :: (k, v) :: rest
    else (k, v) :: insert key value rest

/-- The entries in the order of their keys; of several under one key the last counts. -/
def ofList (entries : List (String × α)) : Keyed α :=
  entries.foldl (fun done (key, value) => insert key value done) []

def get? (entries : Keyed α) (key : String) : Option α := entries.lookup key

@[simp] theorem get?_nil (key : String) : get? ([] : Keyed α) key = none := rfl

theorem get?_cons (k : String) (v : α) (rest : Keyed α) (key : String) :
    get? ((k, v) :: rest) key = if key = k then some v else get? rest key := by
  by_cases h : key = k
  · simp [get?, h]
  · simp [get?, List.lookup_cons, h, beq_eq_false_iff_ne.mpr h]

@[simp] theorem get?_insert_self (entries : Keyed α) (key : String) (value : α) :
    get? (insert key value entries) key = some value := by
  induction entries with
  | nil => simp [insert, get?_cons]
  | cons entry rest ih =>
    obtain ⟨k, v⟩ := entry
    unfold insert
    split
    · simp [get?_cons]
    · split
      · simp [get?_cons]
      · next h _ => simpa [get?_cons, h] using ih

theorem get?_insert_of_ne (entries : Keyed α) {key other : String} (value : α) (h : other ≠ key) :
    get? (insert key value entries) other = get? entries other := by
  induction entries with
  | nil => simp [insert, get?_cons, h]
  | cons entry rest ih =>
    obtain ⟨k, v⟩ := entry
    unfold insert
    split
    · next hk => subst hk; simp [get?_cons, h]
    · split
      · simp [get?_cons, h]
      · simp [get?_cons, ih]

end Keyed

end WorldPlugins
