import WorldPlugins.Proofs.Rpc.Conversations

/-! # What requests carry

A request about attributes names the thing that they are of, and the authority on which it asks.  A session may be
bound to ask about one thing only, on one authority and for methods of one kind.
-/

namespace WorldPlugins

open Json (Members)

def thingParams (thing : String) (asExtension : Bool) : List (String × Json) :=
  [("thingId", .string thing), (authorityKey, .bool asExtension)]

def attrParams (thing name : String) (asExtension : Bool) : List (String × Json) :=
  [("thingId", .string thing), ("name", .string name), (authorityKey, .bool asExtension)]

def writeParams (thing : String) (attr : Attr) (asExtension : Bool) : List (String × Json) :=
  [("thingId", .string thing), ("name", .string attr.name), ("value", .string attr.value),
    ("type", .string attr.type.name), (authorityKey, .bool asExtension)]

def rolesParams (player : String) (asExtension : Bool) : List (String × Json) :=
  [("playerName", .string player), (authorityKey, .bool asExtension)]

def messageParams (player message : String) : List (String × Json) :=
  [("playerName", .string player), ("message", .string message)]

namespace StoreMethod

def reads : StoreMethod → Bool
  | .getAttr => true
  | .getAttrNames => true
  | .getCallerName => true
  | .getCallerTimezone => true
  | .getRoles => true
  | _ => false

def keeps : StoreMethod → Bool
  | .setAttr => false
  | .removeAttr => false
  | _ => true

def any (_ : StoreMethod) : Bool := true

def namesAttr : StoreMethod → Bool
  | .getAttr => true
  | .setAttr => true
  | .removeAttr => true
  | _ => false

def namesThing (m : StoreMethod) : Bool := m.namesAttr || m == .getAttrNames

def namesAuthority (m : StoreMethod) : Bool := m.namesThing || m == .getRoles

theorem keeps_of_reads {m : StoreMethod} (h : m.reads = true) : m.keeps = true := by
  cases m with
  | setAttr => cases h
  | removeAttr => cases h
  | _ => rfl

end StoreMethod

/-- The parameters of a method name a thing, an attribute of it and an authority, so far as the method takes them, and
none of the names is empty. -/
structure Addressed (thing : String) (asExtension : Bool) (method : StoreMethod) (params : Members) : Prop where
  thing : method.namesThing = true → thing ≠ "" ∧ Keyed.get? params "thingId" = some (.string thing)
  name : method.namesAttr = true → ∃ name, name ≠ "" ∧ Keyed.get? params "name" = some (.string name)
  authority : method.namesAuthority = true → Keyed.get? params authorityKey = some (.bool asExtension)

section Addressed

variable {thing name : String} (asExtension : Bool)

theorem addressed_attrParams (hthing : thing ≠ "") (hname : name ≠ "") (m : StoreMethod) :
    Addressed thing asExtension m (Keyed.ofList (attrParams thing name asExtension)) := by
  refine ⟨fun _ => ⟨hthing, ?_⟩, fun _ => ⟨name, hname, ?_⟩, fun _ => ?_⟩ <;>
    simp (disch := decide) only [attrParams, Keyed.ofList, List.foldl, Keyed.get?_insert_self,
      Keyed.get?_insert_of_ne]

theorem addressed_writeParams {attr : Attr} (hthing : thing ≠ "") (hname : attr.name ≠ "") (m : StoreMethod) :
    Addressed thing asExtension m (Keyed.ofList (writeParams thing attr asExtension)) := by
  refine ⟨fun _ => ⟨hthing, ?_⟩, fun _ => ⟨attr.name, hname, ?_⟩, fun _ => ?_⟩ <;>
    simp (disch := decide) only [writeParams, Keyed.ofList, List.foldl, Keyed.get?_insert_self,
      Keyed.get?_insert_of_ne]

theorem addressed_thingParams (hthing : thing ≠ "") :
    Addressed thing asExtension .getAttrNames (Keyed.ofList (thingParams thing asExtension)) := by
  refine ⟨fun _ => ⟨hthing, ?_⟩, nofun, fun _ => ?_⟩ <;>
    simp (disch := decide) only [thingParams, Keyed.ofList, List.foldl, Keyed.get?_insert_self,
      Keyed.get?_insert_of_ne]

theorem addressed_rolesParams (thing player : String) :
    Addressed thing asExtension .getRoles (Keyed.ofList (rolesParams player asExtension)) := by
  refine ⟨nofun, nofun, fun _ => ?_⟩
  simp (disch := decide) only [rolesParams, Keyed.ofList, List.foldl, Keyed.get?_insert_self]

/-- A method that is not asked for on anybody's authority names nothing. -/
theorem addressed_of_none {m : StoreMethod} (h : m.namesAuthority = false) (thing : String) (params : Members) :
    Addressed thing asExtension m params := by
  cases m with
  | getCallerName => exact ⟨nofun, nofun, nofun⟩
  | getCallerTimezone => exact ⟨nofun, nofun, nofun⟩
  | sendMessage => exact ⟨nofun, nofun, nofun⟩
  | sendMessageToCaller => exact ⟨nofun, nofun, nofun⟩
  | _ => cases h

/-- The id of the plugin call comes in beside the other parameters. -/
theorem Addressed.insert_callId {m : StoreMethod} {params : Members} (h : Addressed thing asExtension m params)
    (callId : Json) : Addressed thing asExtension m (Keyed.insert callIdKey callId params) := by
  have hother : ∀ key, key ≠ callIdKey →
      Keyed.get? (Keyed.insert callIdKey callId params) key = Keyed.get? params key :=
    fun key hkey => Keyed.get?_insert_of_ne params callId hkey
  refine ⟨?_, ?_, ?_⟩
  · rw [hother "thingId" (by decide)]
    exact h.thing
  · rw [hother "name" (by decide)]
    exact h.name
  · rw [hother authorityKey (by decide)]
    exact h.authority

end Addressed

namespace Session

variable {α ε : Type} {thing : String} {asExtension : Bool} {kind kind' : StoreMethod → Bool}

/-- Whatever the replies, a session asks for methods of one kind only, about one thing and on one authority. -/
abbrev AsksFor (thing : String) (asExtension : Bool) (kind : StoreMethod → Bool) (x : Session α) : Prop :=
  x.AsksOnly fun method params =>
    ∃ m : StoreMethod, kind m = true ∧ m.name = method ∧ Addressed thing asExtension m params

theorem AsksFor.widen {x : Session α} (h : x.AsksFor thing asExtension kind)
    (hkind : ∀ m, kind m = true → kind' m = true) : x.AsksFor thing asExtension kind' := by
  refine h.mono ?_
  rintro method params ⟨m, hm, hname, haddressed⟩
  exact ⟨m, hkind m hm, hname, haddressed⟩

end Session

end WorldPlugins
