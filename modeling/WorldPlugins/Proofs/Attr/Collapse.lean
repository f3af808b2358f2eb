import Mathlib.Data.List.Induction
import WorldPlugins.Attr.Fields
import WorldPlugins.Proofs.Attr.Stored

/-! # Setting a field of a list attribute

`withField` collapses duplicates before it writes: under every other name the last field is what remains.  So the
first reading of the new list is the last reading of the old one, and lists without duplicates stay as they are.
`Merges` says what a collapsed list is without saying how it is made.
-/

namespace WorldPlugins.Attr

private theorem find?_foldl_upsert (fields before : List Attr) (name : String) :
    (fields.foldl upsert before).find? (fun f => f.name == name) =
      (fields.reverse.find? fun f => f.name == name).or (before.find? fun f => f.name == name) := by
  induction fields generalizing before with
  | nil => simp
  | cons f fields ih =>
    rw [List.foldl_cons, ih, List.reverse_cons, List.find?_append, Option.or_assoc]
    congr 1
    by_cases h : name = f.name
    · subst h; simp
    · simp [find?_upsert_of_ne before h, Ne.symm h]

/-- Of several fields under one name the last remains. -/
theorem find?_collapse (fields : List Attr) (name : String) :
    (collapse fields).find? (fun f => f.name == name) = fields.reverse.find? fun f => f.name == name := by
  rw [collapse, find?_foldl_upsert]
  simp

private theorem get?_foldl_insert (fields : List Attr) (before : Keyed Attr) (name : String) :
    Keyed.get? ((fields.map fun f => (f.name, f)).foldl (fun done (key, f) => Keyed.insert key f done) before) name =
      (fields.reverse.find? fun f => f.name == name).or (Keyed.get? before name) := by
  induction fields generalizing before with
  | nil => simp
  | cons f fields ih =>
    rw [List.map_cons, List.foldl_cons, ih, List.reverse_cons, List.find?_append, Option.or_assoc]
    congr 1
    by_cases h : name = f.name
    · subst h; simp
    · simp [Keyed.get?_insert_of_ne _ _ h, Ne.symm h]

/-- In the map of fields the last field of each name is found. -/
theorem get?_byName (fields : List Attr) (name : String) :
    Keyed.get? (byName fields) name = fields.reverse.find? fun f => f.name == name := by
  rw [byName, Keyed.ofList, get?_foldl_insert, Keyed.get?_nil, Option.or_none]

theorem upsert_of_notMem {fields : List Attr} {field : Attr} (h : field.name ∉ fields.map name) :
    upsert fields field = fields ++ [field] := by
  induction fields with
  | nil => rfl
  | cons a fields ih =>
    obtain ⟨ha, hrest⟩ := List.ne_and_not_mem_of_not_mem_cons h
    rw [upsert, if_neg (Ne.symm ha), ih hrest, List.cons_append]

/-- The first field of a name makes room for the one that is set. -/
theorem upsert_append_cons {before : List Attr} {field a : Attr} (hbefore : ∀ b ∈ before, b.name ≠ field.name)
    (ha : a.name = field.name) (after : List Attr) :
    upsert (before ++ a :: after) field = before ++ field :: after := by
  induction before with
  | nil => rw [List.nil_append, upsert, if_pos ha, List.nil_append]
  | cons b before ih =>
    obtain ⟨hb, hrest⟩ := List.forall_mem_cons.mp hbefore
    rw [List.cons_append, upsert, if_neg hb, ih hrest, List.cons_append]

/-- Setting a field that is not kept changes nothing among those that are. -/
theorem filter_upsert_of_not (keep : String → Bool) (fields : List Attr) {field : Attr} (h : keep field.name = false) :
    (upsert fields field).filter (fun a => keep a.name) = fields.filter fun a => keep a.name := by
  induction fields with
  | nil => simp [upsert, h]
  | cons a fields ih =>
    by_cases ha : a.name = field.name
    · have hdropped : keep a.name = false := by rw [ha, h]
      simp [upsert, ha, h]
    · simp [upsert, ha, List.filter_cons, ih]

/-- Setting a field that is kept and keeping fields by their names can be done in either order. -/
theorem filter_upsert (keep : String → Bool) (fields : List Attr) {field : Attr} (h : keep field.name = true) :
    (upsert fields field).filter (fun a => keep a.name) =
      upsert (fields.filter fun a => keep a.name) field := by
  induction fields with
  | nil => simp [upsert, h]
  | cons a fields ih =>
    by_cases ha : a.name = field.name
    · have hkept : keep a.name = true := by rw [ha, h]
      simp [upsert, ha, h]
    · by_cases hkept : keep a.name = true
      · simp [upsert, ha, hkept, ih]
      · simp [upsert, ha, hkept, ih]

private theorem foldl_upsert_of_nodup (fields before : List Attr) (h : ((before ++ fields).map name).Nodup) :
    fields.foldl upsert before = before ++ fields := by
  induction fields generalizing before with
  | nil => simp
  | cons f fields ih =>
    have hf : f.name ∉ before.map name := by
      rw [List.map_append, List.map_cons] at h
      exact fun hmem => (List.nodup_append.mp h).2.2 _ hmem _ List.mem_cons_self rfl
    rw [List.foldl_cons, upsert_of_notMem hf, ih _ (by simpa using h)]
    simp

/-- Fields of different names are kept as they are. -/
theorem collapse_of_nodup {fields : List Attr} (h : (fields.map name).Nodup) : collapse fields = fields := by
  rw [collapse, foldl_upsert_of_nodup fields [] h, List.nil_append]

theorem eq_or_mem_of_mem_upsert {fields : List Attr} {field a : Attr} (h : a ∈ upsert fields field) :
    a = field ∨ a ∈ fields := by
  induction fields with
  | nil => exact .inl (List.mem_singleton.mp h)
  | cons b fields ih =>
    unfold upsert at h
    split at h
    · exact (List.mem_cons.mp h).imp_right (List.mem_cons_of_mem b)
    · rcases List.mem_cons.mp h with rfl | h
      · exact .inr List.mem_cons_self
      · exact (ih h).imp_right (List.mem_cons_of_mem b)

/-- Setting a field by name keeps the names different. -/
theorem nodup_upsert {fields : List Attr} (h : (fields.map name).Nodup) (field : Attr) :
    ((upsert fields field).map name).Nodup := by
  induction fields with
  | nil => simp [upsert]
  | cons a fields ih =>
    obtain ⟨ha, hrest⟩ := List.nodup_cons.mp h
    unfold upsert
    split
    · next hname =>
      rw [List.map_cons, ← hname]
      exact h
    · next hname =>
      refine List.nodup_cons.mpr ⟨?_, ih hrest⟩
      intro hmem
      obtain ⟨b, hb, hbname⟩ := List.mem_map.mp hmem
      rcases eq_or_mem_of_mem_upsert hb with rfl | hb
      · exact hname hbname.symm
      · exact ha (List.mem_map.mpr ⟨b, hb, hbname⟩)

private theorem nodup_foldl_upsert (fields before : List Attr) (h : (before.map name).Nodup) :
    ((fields.foldl upsert before).map name).Nodup := by
  induction fields generalizing before with
  | nil => exact h
  | cons f fields ih => exact ih _ (nodup_upsert h f)

/-- After collapsing there is one field of each name. -/
theorem nodup_collapse (fields : List Attr) : ((collapse fields).map name).Nodup :=
  nodup_foldl_upsert fields [] List.nodup_nil

/-- Of fields of different names one at most has a given name. -/
theorem filter_name_of_nodup {fields : List Attr} (h : (fields.map name).Nodup) (n : String) :
    fields.filter (fun f => f.name == n) = (fields.find? fun f => f.name == n).toList := by
  induction fields with
  | nil => rfl
  | cons a fields ih =>
    obtain ⟨ha, hrest⟩ := List.nodup_cons.mp h
    by_cases hname : a.name = n
    · have hnone : fields.filter (fun f => f.name == n) = [] := by
        rw [List.filter_eq_nil_iff]
        intro f hf
        rw [beq_iff_eq, ← hname]
        exact fun hsame => ha (hsame ▸ List.mem_map_of_mem hf)
      simp [hname, hnone]
    · simp [hname, ih hrest]

/-- A field that is set in a collapsed list is the only one of its name. -/
theorem filter_upsert_collapse (fields : List Attr) (field : Attr) :
    (upsert (collapse fields) field).filter (fun f => f.name == field.name) = [field] := by
  rw [filter_name_of_nodup (nodup_upsert (nodup_collapse fields) field), find?_upsert_self, Option.toList_some]

/-- Writing a name that is new puts it last, and any other stays where it is. -/
theorem map_name_upsert (fields : List Attr) (field : Attr) :
    (upsert fields field).map name =
      if field.name ∈ fields.map name then fields.map name else fields.map name ++ [field.name] := by
  induction fields with
  | nil => rfl
  | cons a fields ih =>
    rw [upsert]
    by_cases hname : a.name = field.name
    · simp [hname]
    · simp [hname, Ne.symm hname, ih]
      split <;> simp

theorem collapse_append (fields more : List Attr) : collapse (fields ++ more) = more.foldl upsert (collapse fields) :=
  List.foldl_append

theorem collapse_concat (fields : List Attr) (field : Attr) :
    collapse (fields ++ [field]) = upsert (collapse fields) field :=
  collapse_append fields [field]

/-- Collapsing on the way makes no difference. -/
theorem collapse_collapse_append (fields more : List Attr) :
    collapse (collapse fields ++ more) = collapse (fields ++ more) := by
  rw [collapse_append, collapse_of_nodup (nodup_collapse fields), collapse_append]

/-- Each name is kept once, where it first appears. -/
theorem map_name_collapse (fields : List Attr) : (collapse fields).map name = (fields.map name).eraseDups := by
  induction fields using List.reverseRecOn with
  | nil => rfl
  | append_singleton fields f ih =>
    rw [collapse_concat, map_name_upsert, ih, List.map_append, List.eraseDups_append, List.map_singleton]
    generalize fields.map name = names
    by_cases hknown : f.name ∈ names <;> simp [List.removeAll, List.eraseDups_cons, hknown]

/-- The list has one field for each name among `fields`: in the place of the first of that name, with the content of
the last. -/
structure Merges (fields merged : List Attr) : Prop where
  names : merged.map name = (fields.map name).eraseDups
  last : ∀ n, merged.filter (fun f => f.name == n) = (fields.filter fun f => f.name == n).getLast?.toList

theorem merges_collapse (fields : List Attr) : Merges fields (collapse fields) := by
  refine ⟨map_name_collapse fields, fun n => ?_⟩
  rw [filter_name_of_nodup (nodup_collapse fields), find?_collapse, List.getLast?_eq_head?_reverse,
    ← List.filter_reverse, List.head?_filter]

theorem withField_eq_ok_iff (a field updated : Attr) :
    a.withField field = .ok updated ↔
      ∃ fields, a.listValue = .ok fields ∧ updated = list a.name (upsert (collapse fields) field) := by
  unfold withField
  cases h : a.listValue with
  | error e => simp [bind, Except.bind]
  | ok fields => simp [bind, Except.bind, pure, Except.pure, eq_comm]

end WorldPlugins.Attr
