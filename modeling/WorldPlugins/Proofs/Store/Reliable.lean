import WorldPlugins.Proofs.Store.Changes

/-! # Stores in which nothing is made to fail

There every method comes to what it is for: what is there is read, what is not there is said to be missing, and writing,
removing and sending succeed.
-/

namespace WorldPlugins.Store

def Reliable (s : Store) : Prop := s.failures = []

namespace Reliable

variable {s : Store} (hs : s.Reliable) {thing name : String}

include hs

theorem fault? (method : StoreMethod) : s.fault? method = none := by
  rw [Store.fault?, hs]
  rfl

theorem fetchCaller : s.fetchCaller = .ok s.caller := by rw [Store.fetchCaller, hs.fault?]

theorem fetchTimezone : s.fetchTimezone = .ok s.timezone := by rw [Store.fetchTimezone, hs.fault?]

theorem send (method : StoreMethod) (message : Sent) : s.send method message = (.ok (), s.deliver message) := by
  rw [Store.send, hs.fault?]

theorem write {attr : Attr} (hthing : thing ≠ "") (hname : attr.name ≠ "") :
    s.write thing attr = (.ok (), s.withAttr thing attr) := by
  rw [Store.write, if_neg hthing, if_neg hname, hs.fault?]

theorem remove (hthing : thing ≠ "") (hname : name ≠ "") {a : Attr} (ha : s.attr? thing name = some a) :
    s.remove thing name = (.ok (), s.without thing name) := by
  rw [Store.remove, if_neg hthing, if_neg hname, hs.fault?, s.thing?_eq_some_of_attr? thing name ha]

theorem fetch_of_some (hthing : thing ≠ "") (hname : name ≠ "") {a : Attr} (ha : s.attr? thing name = some a) :
    s.fetch thing name = .ok a :=
  (s.fetch_eq_ok_iff thing name a).mpr ⟨hthing, hname, hs.fault? _, ha⟩

theorem fetchNames (hthing : thing ≠ "") (hknown : (s.thing? thing).isSome = true) :
    s.fetchNames thing = .ok ((s.attributes thing).map Attr.name) := by
  obtain ⟨attrs, hattrs⟩ := Option.isSome_iff_exists.mp hknown
  rw [Store.fetchNames, if_neg hthing, hs.fault?, attributes, hattrs]
  rfl

end Reliable

/-- What is said to be missing is not there. -/
theorem attr?_of_isNotFound {s : Store} (hs : s.Reliable) {thing name : String} {e : RpcError}
    (h : s.fetch thing name = .error e) (he : e.isNotFound = true) :
    thing ≠ "" ∧ name ≠ "" ∧ s.attr? thing name = none := by
  unfold fetch at h
  split at h
  · cases h
    cases he
  split at h
  · cases h
    cases he
  next hthing hname =>
  refine ⟨hthing, hname, ?_⟩
  cases ha : s.attr? thing name with
  | none => rfl
  | some a =>
    rw [hs.fault?, s.thing?_eq_some_of_attr? thing name ha] at h
    rw [attr?] at ha
    simp [ha] at h

end WorldPlugins.Store
