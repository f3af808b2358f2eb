import WorldPlugins.Proofs.Attr.Upserts
import WorldPlugins.Proofs.Text.Bytes

/-! # The two readings of a list, and maps written back

A field is found by name as the first of that name, and in the map of the fields there is the last.  A map is written
back as a list in ascending order of the names, whatever the order in which its entries are met, so the list tells the
map and nothing else.  On such a list the two readings agree.
-/

namespace WorldPlugins.Attr

variable {a : Attr} {fields : List Attr} {n : String}

theorem get?_byName_eq_getLast? (fields : List Attr) (n : String) :
    Keyed.get? (byName fields) n = (fields.filter fun f => f.name == n).getLast? := by
  rw [get?_byName, List.getLast?_filter]

theorem find_eq_head? (h : a.listValue = .ok fields) (n : String) :
    a.find n = (fields.filter fun f => f.name == n).head?.elim (.error (.fieldNotFound n)) .ok := by
  rw [find_of_listValue h, List.head?_filter]

/-- A field is found exactly if the map has one under its name. -/
theorem isOk_find_iff (h : a.listValue = .ok fields) (n : String) :
    (a.find n).isOk = true ↔ n ∈ (byName fields).map Prod.fst := by
  rw [find_eq_head? h, Keyed.mem_keys_iff, get?_byName_eq_getLast?]
  generalize fields.filter (fun f => f.name == n) = named
  cases named with
  | nil => simp [Except.isOk, Except.toBool]
  | cons f named => simp [Except.isOk, Except.toBool, List.getLast?_cons]

private theorem elim_fieldNotFound_inj {found other : Option Attr} :
    found.elim (Except.error (AttrError.fieldNotFound n)) .ok = other.elim (.error (.fieldNotFound n)) .ok ↔
      found = other := by
  cases found <;> cases other <;> simp

/-- Each entry of the map is under the name of its field. -/
theorem fst_of_mem_byName {e : String × Attr} (h : e ∈ byName fields) : e.1 = e.2.name := by
  obtain ⟨f, -, rfl⟩ := List.mem_map.mp (Keyed.mem_of_mem_ofList h)
  rfl

/-- The fields of the map, each under its name, are the map. -/
theorem map_fields_byName (fields : List Attr) :
    ((byName fields).map Prod.snd).map (fun f => (f.name, f)) = byName fields := by
  rw [List.map_map]
  calc (byName fields).map ((fun f => (f.name, f)) ∘ Prod.snd) = (byName fields).map id :=
        List.map_congr_left fun e he => Prod.ext (fst_of_mem_byName he).symm rfl
    _ = byName fields := List.map_id _

theorem byName_eq_iff {others : List Attr} :
    byName others = byName fields ↔ ∀ n, Keyed.get? (byName others) n = Keyed.get? (byName fields) n := by
  constructor
  · intro h n
    rw [h]
  · exact (ordered_byName others).ext (ordered_byName fields)

/-- The fields of the map ascend by their names. -/
theorem pairwise_fields_byName (fields : List Attr) :
    ((byName fields).map Prod.snd).Pairwise fun f g => f.name < g.name := by
  have hordered := ordered_byName fields
  rwa [← map_fields_byName fields, Keyed.Ordered, List.pairwise_map] at hordered

private theorem name_injOn_byName {f g : Attr} (hf : f ∈ (byName fields).map Prod.snd)
    (hg : g ∈ (byName fields).map Prod.snd) (hname : f.name = g.name) : f = g := by
  have hfound {k : Attr} (hk : k ∈ (byName fields).map Prod.snd) :
      Keyed.get? (byName fields) k.name = some k := by
    obtain ⟨e, he, rfl⟩ := List.mem_map.mp hk
    rw [← fst_of_mem_byName he]
    exact (ordered_byName fields).get?_of_mem he
  have hsame := hfound hf
  rw [hname, hfound hg] at hsame
  exact (Option.some.inj hsame).symm

/-- In whatever order the entries of the map are met, its fields are written in ascending order of their names. -/
theorem ofFieldMap_of_perm {order : List (String × Attr)} (h : order.Perm (byName fields)) (name : String) :
    ofFieldMap name order = list name ((byName fields).map Prod.snd) := by
  let le : Attr → Attr → Bool := fun f g => decide (f.name ≤ g.name)
  have htrans (f g k : Attr) (hfg : le f g = true) (hgk : le g k = true) : le f k = true :=
    decide_eq_true (le_trans (of_decide_eq_true hfg) (of_decide_eq_true hgk))
  have htotal (f g : Attr) : (le f g || le g f) = true := by
    simpa [le] using le_total f.name g.name
  have hsorted : ((order.map Prod.snd).mergeSort le).Pairwise fun f g => le f g = true :=
    List.pairwise_mergeSort htrans htotal _
  have hfields : ((byName fields).map Prod.snd).Pairwise fun f g => le f g = true :=
    (pairwise_fields_byName fields).imp fun h => decide_eq_true (le_of_lt h)
  have hperm : ((order.map Prod.snd).mergeSort le).Perm ((byName fields).map Prod.snd) :=
    (List.mergeSort_perm _ le).trans (h.map Prod.snd)
  have hsame : (order.map Prod.snd).mergeSort le = (byName fields).map Prod.snd := by
    refine List.Perm.eq_of_pairwise ?_ hsorted hfields hperm
    intro f g hf hg hfg hgf
    exact name_injOn_byName (hperm.mem_iff.mp hf) hg
      (le_antisymm (of_decide_eq_true hfg) (of_decide_eq_true hgf))
  exact congrArg (list name) hsame

theorem ofFieldMap_byName (name : String) (fields : List Attr) :
    ofFieldMap name (byName fields) = list name ((byName fields).map Prod.snd) :=
  ofFieldMap_of_perm (List.Perm.refl _) name

/-- The map of what is written is the map. -/
theorem fieldMap_ofFieldMap (name : String) (fields : List Attr) :
    (ofFieldMap name (byName fields)).fieldMap = .ok (byName fields) := by
  rw [ofFieldMap_byName, fieldMap_of_listValue (listValue_list _ _), byName, map_fields_byName,
    Keyed.ofList_of_ordered (ordered_byName fields)]

/-- In what is written there is one field of each name, the one in the map. -/
theorem find_ofFieldMap (name : String) (fields : List Attr) (n : String) :
    (ofFieldMap name (byName fields)).find n =
      (Keyed.get? (byName fields) n).elim (.error (.fieldNotFound n)) .ok := by
  let written := (byName fields).map Prod.snd
  have hnodup : (written.map Attr.name).Nodup :=
    List.pairwise_map.mpr ((pairwise_fields_byName fields).imp fun h => ne_of_lt h)
  have hmap : byName written = byName fields := by
    rw [byName, map_fields_byName, Keyed.ofList_of_ordered (ordered_byName fields)]
  have hfirst : written.find? (fun f => f.name == n) = Keyed.get? (byName fields) n := by
    rw [← hmap, get?_byName, ← find?_collapse, collapse_of_nodup hnodup]
  rw [ofFieldMap_byName, find_of_listValue (listValue_list _ _), ← hfirst]

/-- How the fields of a list attribute are found by name, and what its map has under a name. -/
structure Readings (a : Attr) (fields : List Attr) (map : Keyed Attr) : Prop where
  found : ∀ n, (a.find n).isOk = true ↔ n ∈ map.map Prod.fst
  first : ∀ n, a.find n = (fields.filter fun f => f.name == n).head?.elim (.error (.fieldNotFound n)) .ok
  last : ∀ n, Keyed.get? map n = (fields.filter fun f => f.name == n).getLast?
  agree : (∀ n, a.find n = (Keyed.get? map n).elim (.error (.fieldNotFound n)) .ok) ↔
    ∀ n, (fields.filter fun f => f.name == n).head? = (fields.filter fun f => f.name == n).getLast?

theorem readings_of_listValue (h : a.listValue = .ok fields) : Readings a fields (byName fields) := by
  refine ⟨isOk_find_iff h, find_eq_head? h, get?_byName_eq_getLast? fields, forall_congr' fun n => ?_⟩
  rw [find_eq_head? h, get?_byName_eq_getLast?, elim_fieldNotFound_inj]

/-- A list attribute has the entries of a map as its fields, in the order of the bytes of their names, and tells the map
by either reading. -/
structure Holds (written : Attr) (map : Keyed Attr) : Prop where
  fields : ∃ fields, written.listValue = .ok fields ∧ (fields.map fun f => (f.name, f)).Perm map ∧
    fields.Pairwise fun f g => f.name.toUTF8.data.toList < g.name.toUTF8.data.toList
  again : written.fieldMap = .ok map
  agree : ∀ n, written.find n = (Keyed.get? map n).elim (.error (.fieldNotFound n)) .ok

theorem holds_ofFieldMap (name : String) (fields : List Attr) :
    Holds (ofFieldMap name (byName fields)) (byName fields) := by
  refine ⟨⟨(byName fields).map Prod.snd, ?_, ?_, ?_⟩, fieldMap_ofFieldMap name fields, find_ofFieldMap name fields⟩
  · rw [ofFieldMap_byName, listValue_list]
  · rw [map_fields_byName]
  · exact (pairwise_fields_byName fields).imp fun h => (Text.toUTF8_lt_iff _ _).mpr h

/-- Of the fields of one name the first is found and the last is in the map, so the two agree on all names exactly if
the first and the last of each are the same.  Written back, the map is a list that holds it, whatever the order of its
entries and whichever list it is the map of, and reading and writing that again changes nothing. -/
theorem readings_and_map {a : Attr} {fields : List Attr} (h : a.listValue = .ok fields) :
    ∃ map, a.fieldMap = .ok map ∧ Readings a fields map ∧ ∀ name : String,
      Holds (ofFieldMap name map) map ∧
        (∀ (b : Attr) (map' : Keyed Attr) (order : List (String × Attr)), b.fieldMap = .ok map' →
          (∀ n, Keyed.get? map' n = Keyed.get? map n) → order.Perm map' →
            ofFieldMap name order = ofFieldMap name map) ∧
        (ofFieldMap name map).fieldMap.map (ofFieldMap name) = .ok (ofFieldMap name map) := by
  refine ⟨byName fields, fieldMap_of_listValue h, readings_of_listValue h, fun name =>
    ⟨holds_ofFieldMap name fields, fun b map' order hmap hsame horder => ?_, ?_⟩⟩
  · obtain ⟨others, hothers, hread⟩ := (bind_eq_ok_iff _ _ _).mp hmap
    cases hread
    rw [ofFieldMap_of_perm horder, byName_eq_iff.mpr hsame, ofFieldMap_byName]
  · rw [fieldMap_ofFieldMap]
    rfl

/-- The hall was visited twice: it is found at the first visit, and the map has the last.  The map is written back with
the attic before the hall, also if its entries are met the other way round. -/
theorem readings_and_map_visits :
    let fields : List Attr := [.string "hall" "1", .string "attic" "2", .string "hall" "3"]
    visits.listValue = .ok fields ∧ ∃ map, visits.fieldMap = .ok map ∧
      visits.find "hall" = .ok (.string "hall" "1") ∧ Keyed.get? map "hall" = some (.string "hall" "3") ∧
      ofFieldMap "copy" map.reverse = ofFieldMap "copy" map ∧
      (ofFieldMap "copy" map).find "hall" = .ok (.string "hall" "3") := by
  intro fields
  have hvisits : visits.listValue = .ok fields := listValue_list _ _
  obtain ⟨map, hmap, hreadings, hwritten⟩ := readings_and_map hvisits
  obtain ⟨hholds, hsame, -⟩ := hwritten "copy"
  have hlast : Keyed.get? map "hall" = some (.string "hall" "3") := hreadings.last "hall"
  refine ⟨hvisits, map, hmap, hreadings.first "hall", hlast, ?_, ?_⟩
  · exact hsame visits map map.reverse hmap (fun _ => rfl) (List.reverse_perm map)
  · rw [hholds.agree, hlast]
    rfl

end WorldPlugins.Attr
