import WorldPlugins.Proofs.Attr.Collapse
import WorldPlugins.Proofs.Keyed
import WorldPlugins.Proofs.Rpc.Addressing
import WorldPlugins.Proofs.Store.Requests

/-! # What a change of the world leaves alone

Writing, removing and delivering each change one thing only: the other attributes, and all that is asked about
players, stay.  Taking an attribute out of the world commutes with every change that is not about it.  A method that
reads changes nothing, and one that sends delivers one message.
-/

namespace WorldPlugins.Store

variable (s : Store) (thing other name : String) (attr : Attr)

@[simp] theorem thing?_setAttributes_self (attrs : List Attr) :
    (s.setAttributes thing attrs).thing? thing = some attrs := by
  simp [thing?, setAttributes]

theorem thing?_setAttributes_of_ne {thing other : String} (h : other ≠ thing) (attrs : List Attr) :
    (s.setAttributes thing attrs).thing? other = s.thing? other := by
  simp [thing?, setAttributes, Keyed.get?_insert_of_ne _ _ h]

@[simp] theorem attributes_setAttributes_self (attrs : List Attr) :
    (s.setAttributes thing attrs).attributes thing = attrs := by
  simp [attributes]

theorem attributes_setAttributes_of_ne {thing other : String} (h : other ≠ thing) (attrs : List Attr) :
    (s.setAttributes thing attrs).attributes other = s.attributes other := by
  rw [attributes, thing?_setAttributes_of_ne s h, attributes]

theorem thing?_eq_some_of_attr? {a : Attr} (h : s.attr? thing name = some a) :
    s.thing? thing = some (s.attributes thing) := by
  cases hthing : s.thing? thing with
  | none => simp [attr?, attributes, hthing] at h
  | some attrs => simp [attributes, hthing]

theorem name_of_attr? {a : Attr} (h : s.attr? thing name = some a) : a.name = name := by
  simpa using List.find?_some h

/-! What a store holds are its things. -/

theorem thing?_congr {s t : Store} (h : t.things = s.things) (thing : String) : t.thing? thing = s.thing? thing := by
  rw [thing?, h, thing?]

theorem attributes_congr {s t : Store} (h : t.things = s.things) (thing : String) :
    t.attributes thing = s.attributes thing := by
  rw [attributes, thing?_congr h, attributes]

theorem attr?_congr {s t : Store} (h : t.things = s.things) (thing name : String) :
    t.attr? thing name = s.attr? thing name := by
  rw [attr?, attributes_congr h, attr?]

theorem mem_names_iff : name ∈ (s.attributes thing).map Attr.name ↔ (s.attr? thing name).isSome = true := by
  simp [attr?]

@[simp] theorem attributes_withAttr_self :
    (s.withAttr thing attr).attributes thing = Attr.upsert (s.attributes thing) attr := by
  simp [withAttr]

@[simp] theorem attr?_withAttr_self : (s.withAttr thing attr).attr? thing attr.name = some attr := by
  simp [attr?]

/-- A new attribute comes last. -/
theorem attributes_withAttr_of_none {thing : String} {attr : Attr} (h : s.attr? thing attr.name = none) :
    (s.withAttr thing attr).attributes thing = s.attributes thing ++ [attr] := by
  have hnew : attr.name ∉ (s.attributes thing).map Attr.name := by
    rw [mem_names_iff, h]
    exact Bool.false_ne_true
  rw [attributes_withAttr_self, Attr.upsert_of_notMem hnew]

theorem attr?_withAttr_of_ne {thing other name : String} {attr : Attr}
    (h : ¬ (other = thing ∧ name = attr.name)) :
    (s.withAttr thing attr).attr? other name = s.attr? other name := by
  by_cases hthing : other = thing
  · subst hthing
    have hname : name ≠ attr.name := fun hname => h ⟨rfl, hname⟩
    rw [attr?, attributes_withAttr_self, Attr.find?_upsert_of_ne _ hname, attr?]
  · rw [attr?, withAttr, attributes_setAttributes_of_ne s hthing, attr?]

theorem fetch_eq_ok_iff (a : Attr) :
    s.fetch thing name = .ok a ↔
      thing ≠ "" ∧ name ≠ "" ∧ s.fault? .getAttr = none ∧ s.attr? thing name = some a := by
  unfold fetch attr? attributes
  split
  · next h => simp [h]
  split
  · next h => simp [h]
  next hthing hname =>
  cases s.fault? .getAttr with
  | some e => simp
  | none =>
    cases s.thing? thing with
    | none => simp
    | some attrs =>
      cases hfind : attrs.find? fun a => a.name == name with
      | none => simp [hfind]
      | some b => simp [hfind, hthing, hname]

theorem fetchCaller_eq_ok_iff (caller : String) :
    s.fetchCaller = .ok caller ↔ s.fault? .getCallerName = none ∧ caller = s.caller := by
  unfold fetchCaller
  cases s.fault? .getCallerName with
  | some e => simp
  | none => simp [eq_comm]

/-- Reading depends on the failures and on the thing that is read. -/
theorem fetch_congr {s t : Store} (hfailures : s.failures = t.failures) {thing : String}
    (hthing : s.thing? thing = t.thing? thing) (name : String) : s.fetch thing name = t.fetch thing name := by
  rw [fetch, fault?, hfailures, hthing, fetch, fault?]

@[simp] theorem attributes_without_self :
    (s.without thing name).attributes thing = (s.attributes thing).filter fun a => a.name != name := by
  simp [without]

@[simp] theorem attr?_without_self : (s.without thing name).attr? thing name = none := by
  simp [attr?]

theorem attr?_without_of_ne {thing other name rest : String} (h : ¬ (other = thing ∧ rest = name)) :
    (s.without thing name).attr? other rest = s.attr? other rest := by
  by_cases hthing : other = thing
  · subst hthing
    have hname : rest ≠ name := fun hname => h ⟨rfl, hname⟩
    rw [attr?, attributes_without_self, List.find?_filter, attr?]
    congr 1
    funext a
    by_cases ha : a.name = rest <;> simp [ha, hname]
  · rw [attr?, without, attributes_setAttributes_of_ne s hthing, attr?]

/-- Taking out what was not there before it was written leaves what was there before. -/
theorem attributes_without_withAttr {thing : String} {attr : Attr} (h : s.attr? thing attr.name = none)
    (other : String) : ((s.withAttr thing attr).without thing attr.name).attributes other = s.attributes other := by
  by_cases hthing : other = thing
  · subst hthing
    have hothers : ∀ a ∈ s.attributes other, (a.name != attr.name) = true := by
      intro a ha
      rw [bne_iff_ne]
      intro hname
      have hfound := (s.mem_names_iff other attr.name).mp (hname ▸ List.mem_map_of_mem ha)
      rw [h] at hfound
      cases hfound
    rw [attributes_without_self, attributes_withAttr_of_none s h, List.filter_append,
      List.filter_eq_self.mpr hothers]
    simp
  · rw [without, attributes_setAttributes_of_ne _ hthing, withAttr, attributes_setAttributes_of_ne s hthing]

/-- Taking an attribute out commutes with writing another. -/
theorem without_withAttr {thing other name : String} {attr : Attr}
    (h : ¬ (other = thing ∧ attr.name = name)) :
    (s.withAttr other attr).without thing name = (s.without thing name).withAttr other attr := by
  by_cases hthing : other = thing
  · subst hthing
    have hname : (attr.name != name) = true := by simpa using fun hname => h ⟨rfl, hname⟩
    have hfilter := Attr.filter_upsert (fun n => n != name) (s.attributes other) hname
    simp only [without, withAttr, attributes_setAttributes_self, hfilter]
    simp [setAttributes]
  · rw [without, withAttr, attributes_setAttributes_of_ne s (Ne.symm hthing), withAttr, without,
      attributes_setAttributes_of_ne s hthing]
    simp only [setAttributes, Keyed.insert_comm _ hthing]

theorem perform_of_reads {m : StoreMethod} (h : m.reads = true) {s t : Store} {params : Json.Members} {result : Json}
    (hperform : s.perform params m = .ok (result, t)) : t = s := by
  cases m with
  | getAttr =>
    obtain ⟨thing, -, hnamed⟩ := (bind_eq_ok_iff _ _ _).mp hperform
    obtain ⟨name, -, hlooked⟩ := (bind_eq_ok_iff _ _ _).mp hnamed
    obtain ⟨attrs, -, hfound⟩ := (bind_eq_ok_iff _ _ _).mp hlooked
    split at hfound <;> cases hfound
    rfl
  | getAttrNames =>
    obtain ⟨thing, -, hlooked⟩ := (bind_eq_ok_iff _ _ _).mp hperform
    obtain ⟨attrs, -, hfound⟩ := (bind_eq_ok_iff _ _ _).mp hlooked
    cases hfound
    rfl
  | getCallerName =>
    cases hperform
    rfl
  | getCallerTimezone =>
    cases hperform
    rfl
  | getRoles =>
    obtain ⟨player, -, hfound⟩ := (bind_eq_ok_iff _ _ _).mp hperform
    split at hfound <;> cases hfound
    rfl
  | _ => cases h

theorem perform_of_sends {m : StoreMethod} (h : m = .sendMessage ∨ m = .sendMessageToCaller) {s t : Store}
    {params : Json.Members} {result : Json} (hperform : s.perform params m = .ok (result, t)) :
    ∃ message, t = s.deliver message := by
  rcases h with rfl | rfl
  · obtain ⟨recipient, -, hread⟩ := (bind_eq_ok_iff _ _ _).mp hperform
    obtain ⟨message, -, hsent⟩ := (bind_eq_ok_iff _ _ _).mp hread
    cases hsent
    exact ⟨_, rfl⟩
  · obtain ⟨record, -, hread⟩ := (bind_eq_ok_iff _ _ _).mp hperform
    obtain ⟨table, -, hsent⟩ := (bind_eq_ok_iff _ _ _).mp hread
    cases hsent
    exact ⟨_, rfl⟩

end WorldPlugins.Store
