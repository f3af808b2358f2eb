import WorldPlugins.Calendar.Event
import WorldPlugins.Proofs.Attr.Collapse
import WorldPlugins.Proofs.Rpc.Conversations
import WorldPlugins.Proofs.Time.Representable

/-! # Events and the attributes that store them

The name of an event is what follows the first `#` of its attribute, whatever follows.  An event whose start can be
written is read back from its attribute.
-/

namespace WorldPlugins.Calendar.Event

@[simp] theorem toList_storedName (name : String) : (storedName name).toList = '#' :: name.toList := by
  rw [storedName, String.toList_append]
  rfl

theorem storedName_ne_empty (name : String) : storedName name ≠ "" := by
  intro h
  have hlist := toList_storedName name
  rw [h] at hlist
  cases hlist

@[simp] theorem isStoredName_storedName (name : String) : isStoredName (storedName name) = true := by
  simp [isStoredName]

@[simp] theorem nameOf_storedName (name : String) : nameOf (storedName name) = name := by
  rw [nameOf, toList_storedName]
  exact String.ofList_toList

theorem storedName_nameOf {stored : String} (h : isStoredName stored = true) : storedName (nameOf stored) = stored := by
  have hhead : stored.toList.head? = some '#' := of_decide_eq_true h
  obtain ⟨rest, hrest⟩ := List.head?_eq_some_iff.mp hhead
  rw [← String.toList_inj, toList_storedName, nameOf, hrest]
  exact congrArg ('#' :: ·) String.toList_ofList

theorem name_of_ofAttr {a : Attr} {e : Event} (h : ofAttr a = .ok e) : e.name = nameOf a.name := by
  obtain ⟨fields, -, hrest⟩ := (bind_eq_ok_iff _ _ _).mp h
  dsimp only at hrest
  split at hrest
  · cases hrest
  · obtain ⟨start, -, hevent⟩ := (bind_eq_ok_iff _ _ _).mp hrest
    cases hevent
    rfl

/-- An event whose start can be written is read back. -/
theorem ofAttr_toAttr (e : Event) (h : Time.isRepresentable e.start = true) : ofAttr e.toAttr = .ok e := by
  obtain ⟨name, description, start, location, owner⟩ := e
  have hmoment : (Attr.timestamp "startTimestamp" start).moment = .ok (.ofSeconds start) := Attr.moment_timestamp _ h
  cases owner with
  | none =>
    simp [ofAttr, toAttr, Attr.fieldMap, Attr.get?_byName, hmoment, Time.Moment.ofSeconds, bind, Except.bind, pure,
      Except.pure]
  | some owner =>
    simp [ofAttr, toAttr, Attr.fieldMap, Attr.get?_byName, hmoment, Time.Moment.ofSeconds, bind, Except.bind, pure,
      Except.pure]

end WorldPlugins.Calendar.Event
