import WorldPlugins.Proofs.Attr.Collapse
import WorldPlugins.Proofs.Keyed

/-! # Setting fields one after another

Each step reads the list, collapses it, sets a field and writes the list again.  What a run of such steps leaves is the
old list with the new fields behind it, collapsed once: collapsing on the way makes no difference, and what is written
is read back.  So the two readings of a list, by its first and by its last field of a name, agree from then on.
-/

namespace WorldPlugins.Attr

open Json (Decoder)

theorem ordered_byName (fields : List Attr) : (byName fields).Ordered := Keyed.ordered_ofList _

/-- Collapsing a list leaves its map as it is. -/
theorem byName_collapse (fields : List Attr) : byName (collapse fields) = byName fields := by
  refine (ordered_byName _).ext (ordered_byName _) fun n => ?_
  have hagain := find?_collapse (collapse fields) n
  rw [collapse_of_nodup (nodup_collapse fields)] at hagain
  rw [get?_byName, get?_byName, ← hagain, find?_collapse]

theorem byName_append (fields more : List Attr) :
    byName (fields ++ more) = more.foldl (fun map f => Keyed.insert f.name f map) (byName fields) := by
  rw [byName, List.map_append, Keyed.ofList, List.foldl_append, List.foldl_map, byName, Keyed.ofList]

theorem fieldMap_of_listValue {a : Attr} {fields : List Attr} (h : a.listValue = .ok fields) :
    a.fieldMap = .ok (byName fields) := by
  simp [fieldMap, h, bind, Except.bind, pure, Except.pure]

theorem find_of_listValue {a : Attr} {fields : List Attr} (h : a.listValue = .ok fields) (n : String) :
    a.find n = (fields.find? fun f => f.name == n).elim (.error (.fieldNotFound n)) .ok := by
  cases hfound : fields.find? fun f => f.name == n <;> simp [find, h, hfound, bind, Except.bind, pure, Except.pure]

theorem upsert_upsert_self (fields : List Attr) (field : Attr) :
    upsert (upsert fields field) field = upsert fields field := by
  induction fields with
  | nil => simp [upsert]
  | cons a fields ih =>
    by_cases h : a.name = field.name
    · simp [upsert, h]
    · simp [upsert, h, ih]

theorem withField_eq_error_iff (a field : Attr) (e : AttrError) :
    a.withField field = .error e ↔ a.listValue = .error e := by
  unfold withField
  cases a.listValue <;> simp [bind, Except.bind, pure, Except.pure]

theorem withField_of_listValue {a : Attr} {fields : List Attr} (h : a.listValue = .ok fields) (field : Attr) :
    a.withField field = .ok (list a.name (collapse (fields ++ [field]))) := by
  rw [withField_eq_ok_iff]
  exact ⟨fields, h, by rw [collapse_concat]⟩

/-- Fields that are set one after another are collapsed into the list at once. -/
theorem foldlM_withField {a : Attr} {fields : List Attr} (h : a.listValue = .ok fields) {news : List Attr}
    (hnews : news ≠ []) : news.foldlM withField a = .ok (list a.name (collapse (fields ++ news))) := by
  induction news generalizing a fields with
  | nil => exact absurd rfl hnews
  | cons f news ih =>
    rw [List.foldlM_cons, withField_of_listValue h]
    change news.foldlM withField (list a.name (collapse (fields ++ [f]))) = _
    cases news with
    | nil => rfl
    | cons g news =>
      rw [ih (listValue_list _ _) (List.cons_ne_nil g news), name_list, collapse_collapse_append, List.append_assoc,
        List.singleton_append]

theorem foldlM_withField_of_error {a : Attr} {e : AttrError} (h : a.listValue = .error e) {news : List Attr}
    (hnews : news ≠ []) : news.foldlM withField a = .error e := by
  obtain ⟨f, news, rfl⟩ := List.exists_cons_of_ne_nil hnews
  rw [List.foldlM_cons, (withField_eq_error_iff a f e).mpr h]
  rfl

theorem listValue_of_type_ne {a : Attr} (h : a.type ≠ .attrList) :
    a.listValue = .error (.typeMismatch a.name .attrList a.type) := by
  rw [listValue, expect, if_neg h]
  rfl

theorem listValue_of_undecodable {a : Attr} (h : a.type = .attrList) {cause : Json.ReadError}
    (hcause : (Decoder.list decoder).ofString a.value = .error cause) :
    a.listValue = .error (.decoding a.name cause) := by
  rw [listValue, expect, if_pos h]
  simp [decodeValue, hcause, bind, Except.bind, Except.mapError]

/-- What becomes of a list attribute with these fields when others are set one after another. -/
structure Upserted (a : Attr) (fields news : List Attr) (updated : Attr) : Prop where
  type : updated.type = .attrList
  name : updated.name = a.name
  /-- In the place of the first field of each name there is the last, and nothing else. -/
  merges : ∃ merged, updated.listValue = .ok merged ∧ Merges (fields ++ news) merged ∧ (merged.map Attr.name).Nodup
  /-- The map of the fields is the old one, updated, and what is found under a name is what the map has there. -/
  maps : ∃ before after, a.fieldMap = .ok before ∧ updated.fieldMap = .ok after ∧
    after = news.foldl (fun map f => Keyed.insert f.name f map) before ∧
    ∀ n, updated.find n = (Keyed.get? after n).elim (.error (.fieldNotFound n)) .ok

theorem upserted_collapse {a : Attr} {fields : List Attr} (h : a.listValue = .ok fields) (news : List Attr) :
    Upserted a fields news (list a.name (collapse (fields ++ news))) := by
  have hwritten := listValue_list a.name (collapse (fields ++ news))
  have hmap := byName_collapse (fields ++ news)
  refine ⟨rfl, rfl, ⟨_, hwritten, merges_collapse _, nodup_collapse _⟩,
    ⟨_, _, fieldMap_of_listValue h, fieldMap_of_listValue hwritten, ?_, fun n => ?_⟩⟩
  · rw [hmap, byName_append]
  · rw [find_of_listValue hwritten, hmap, get?_byName, find?_collapse]

/-- Fields set one after another are an upsert in order, of which the last write of each name wins.  Setting a field
twice is setting it once.  An attribute of another type, or one whose value holds no fields, is refused. -/
theorem upserts_last_wins (a : Attr) (news : List Attr) (hnews : news ≠ []) :
    (∀ fields, a.listValue = .ok fields →
        ∃ updated, news.foldlM withField a = .ok updated ∧ Upserted a fields news updated) ∧
      (∀ field updated, a.withField field = .ok updated → updated.withField field = .ok updated) ∧
      (a.type ≠ .attrList → news.foldlM withField a = .error (.typeMismatch a.name .attrList a.type)) ∧
      ∀ cause, a.type = .attrList → (Decoder.list decoder).ofString a.value = .error cause →
        news.foldlM withField a = .error (.decoding a.name cause) := by
  refine ⟨fun fields h => ?_, fun field updated hset => ?_, fun htype => ?_, fun cause htype hcause => ?_⟩
  · exact ⟨_, foldlM_withField h hnews, upserted_collapse h news⟩
  · obtain ⟨fields, -, rfl⟩ := (withField_eq_ok_iff a field updated).mp hset
    rw [withField_of_listValue (listValue_list _ _), collapse_concat,
      collapse_of_nodup (nodup_upsert (nodup_collapse fields) field), upsert_upsert_self, name_list]
  · exact foldlM_withField_of_error (listValue_of_type_ne htype) hnews
  · exact foldlM_withField_of_error (listValue_of_undecodable htype hcause) hnews

def visits : Attr := .list "visits" [.string "hall" "1", .string "attic" "2", .string "hall" "3"]

/-- The later field of the hall takes the place of the earlier, and the cellar comes last.  A text has no fields, and
neither has a list whose value is not closed. -/
theorem upserts_last_wins_visits :
    let news : List Attr := [.string "attic" "4", .string "cellar" "5"]
    news ≠ [] ∧
      (∃ updated merged, visits.listValue = .ok [.string "hall" "1", .string "attic" "2", .string "hall" "3"] ∧
        news.foldlM withField visits = .ok updated ∧ updated.listValue = .ok merged ∧
        merged.map name = ["hall", "attic", "cellar"] ∧
        merged.filter (fun f => f.name == "attic") = [.string "attic" "4"]) ∧
      ((string "motd" "Hello").type ≠ .attrList ∧
        news.foldlM withField (string "motd" "Hello") = .error (.typeMismatch "motd" .attrList .string)) ∧
      ((Decoder.list decoder).ofString "[" = .error (.fault .endInList) ∧
        news.foldlM withField ⟨"visits", "[", .attrList⟩ = .error (.decoding "visits" (.fault .endInList))) := by
  intro news
  have hnews : news ≠ [] := List.cons_ne_nil _ _
  have hvisits : visits.listValue = .ok [.string "hall" "1", .string "attic" "2", .string "hall" "3"] :=
    listValue_list _ _
  have hopen : (Decoder.list decoder).ofString "[" = .error (.fault .endInList) := by rfl
  obtain ⟨updated, hset, -, -, ⟨merged, hvalue, hmerges, -⟩, -⟩ := (upserts_last_wins visits news hnews).1 _ hvisits
  refine ⟨hnews, ⟨updated, merged, hvisits, hset, hvalue, ?_, ?_⟩, ⟨nofun, ?_⟩, hopen, ?_⟩
  · rw [hmerges.names]
    decide
  · rw [hmerges.last]
    decide
  · exact (upserts_last_wins (string "motd" "Hello") news hnews).2.2.1 nofun
  · exact (upserts_last_wins ⟨"visits", "[", .attrList⟩ news hnews).2.2.2 _ rfl hopen

end WorldPlugins.Attr
