import WorldPlugins.Proofs.Attr.Upserts
import WorldPlugins.Proofs.Rpc.Methods
import WorldPlugins.Proofs.Store.Changes

/-! # Writing one field of a list

A list attribute is read, one of its fields is set, and the list is written back.  Any store may be at the other end:
whatever it replies, there are two requests at most, and the second is made only if the first reply gave a list.  With
a store in memory the list is changed in its place or nothing is changed at all, and each way of failing has an error
of its own.
-/

namespace WorldPlugins

open Json (Decoder)
open Session (outcome run_exchange)

/-- The round trips that writing a field of a list may take: none if a name is empty, one that asks for the list, and
one more that writes it only if the list was given. -/
inductive FieldTrips (callId thing name : String) (field : Attr) (asExtension : Bool) : List RoundTrip → Prop
  | refused (hempty : thing = "" ∨ name = "") : FieldTrips callId thing name field asExtension []
  | read {reading : RoundTrip} (hnames : thing ≠ "" ∧ name ≠ "")
      (hasks : reading.Asks callId .getAttr (attrParams thing name asExtension)) :
      FieldTrips callId thing name field asExtension [reading]
  | written {reading writing : RoundTrip} {current updated : Attr} {fields merged : List Attr}
      (hnames : thing ≠ "" ∧ name ≠ "") (hasks : reading.Asks callId .getAttr (attrParams thing name asExtension))
      (hgives : reading.Gives Attr.decoder current) (hlist : current.type = .attrList)
      (hfields : current.listValue = .ok fields)
      (hwrites : writing.Asks callId .setAttr (writeParams thing updated asExtension))
      (hname : updated.name = current.name) (hmerged : updated.listValue = .ok merged)
      (hmerges : Attr.Merges (fields ++ [field]) merged) :
      FieldTrips callId thing name field asExtension [reading, writing]

theorem fieldTrips_of_conversation {callId thing name : String} {field : Attr} {asExtension : Bool}
    {trips : List RoundTrip} {r : Except RpcError Unit}
    (h : (Client.setField thing name field asExtension).run.Conversation callId trips r) :
    FieldTrips callId thing name field asExtension trips := by
  rcases Client.conversation_setField thing name asExtension h with
    ⟨rfl, hempty⟩ | ⟨hnames, reading, rest, rfl, hasks, rfl | ⟨writing, current, updated, rfl, hgives, hset, hwrites⟩⟩
  · exact .refused hempty
  · exact .read hnames hasks
  · obtain ⟨fields, hfields, rfl⟩ := (Attr.withField_eq_ok_iff current field updated).mp hset
    rw [← Attr.collapse_concat] at hwrites
    exact .written hnames hasks hgives (Attr.type_of_listValue hfields) hfields hwrites rfl
      (Attr.listValue_list _ _) (Attr.merges_collapse _)

namespace Store

/-- Why writing a field of a list fails, with the error of each way. -/
inductive FieldRefusal (s : Store) (thing name : String) : RpcError → Prop
  | noThing (hthing : thing = "") : FieldRefusal s thing name (.parameters (.empty "thingId"))
  | noName (hthing : thing ≠ "") (hname : name = "") : FieldRefusal s thing name (.parameters (.empty "name"))
  | unreadable {failure : ErrorObject} (hnames : thing ≠ "" ∧ name ≠ "")
      (hfailure : Keyed.get? s.failures "getAttr" = some failure) :
      FieldRefusal s thing name (.remote failure.code failure.message)
  | missingThing (hnames : thing ≠ "" ∧ name ≠ "") (hread : Keyed.get? s.failures "getAttr" = none)
      (hmissing : s.thing? thing = none) : FieldRefusal s thing name (.remote (-32004) ("Thing " ++ thing ++ " not found"))
  | missingAttr {attrs : List Attr} (hnames : thing ≠ "" ∧ name ≠ "") (hread : Keyed.get? s.failures "getAttr" = none)
      (hattrs : s.thing? thing = some attrs) (hmissing : ∀ a ∈ attrs, a.name ≠ name) :
      FieldRefusal s thing name (.remote (-32004) ("Attribute " ++ name ++ " not found"))
  | scalar {current : Attr} (hnames : thing ≠ "" ∧ name ≠ "") (hread : Keyed.get? s.failures "getAttr" = none)
      (hcurrent : s.attr? thing name = some current) (htype : current.type ≠ .attrList) :
      FieldRefusal s thing name (.attr (.typeMismatch name .attrList current.type))
  | broken {current : Attr} {cause : Json.ReadError} (hnames : thing ≠ "" ∧ name ≠ "")
      (hread : Keyed.get? s.failures "getAttr" = none) (hcurrent : s.attr? thing name = some current)
      (htype : current.type = .attrList) (hcause : (Decoder.list Attr.decoder).ofString current.value = .error cause) :
      FieldRefusal s thing name (.attr (.decoding name cause))
  | unwritable {current : Attr} {fields : List Attr} {failure : ErrorObject} (hnames : thing ≠ "" ∧ name ≠ "")
      (hread : Keyed.get? s.failures "getAttr" = none) (hcurrent : s.attr? thing name = some current)
      (hfields : current.listValue = .ok fields) (hfailure : Keyed.get? s.failures "setAttr" = some failure) :
      FieldRefusal s thing name (.remote failure.code failure.message)

variable {s t : Store} {thing name : String} {field : Attr} {e : RpcError}

theorem fault?_eq_some {m : StoreMethod} {failure : ErrorObject} (h : Keyed.get? s.failures m.name = some failure) :
    s.fault? m = some (.remote failure.code failure.message) := by
  rw [fault?, h]
  rfl

theorem fault?_eq_none {m : StoreMethod} (h : Keyed.get? s.failures m.name = none) : s.fault? m = none := by
  rw [fault?, h]
  rfl

theorem FieldRefusal.writeField (h : FieldRefusal s thing name e) (field : Attr) :
    s.writeField thing name field = (.error e, s) := by
  have hread {current : Attr} (hnames : thing ≠ "" ∧ name ≠ "") (hfailure : Keyed.get? s.failures "getAttr" = none)
      (hcurrent : s.attr? thing name = some current) : s.fetch thing name = .ok current :=
    (s.fetch_eq_ok_iff thing name current).mpr ⟨hnames.1, hnames.2, fault?_eq_none hfailure, hcurrent⟩
  unfold Store.writeField
  cases h with
  | noThing hthing => rw [fetch, if_pos hthing]
  | noName hthing hname => rw [fetch, if_neg hthing, if_pos hname]
  | unreadable hnames hfailure => rw [fetch, if_neg hnames.1, if_neg hnames.2, fault?_eq_some hfailure]
  | missingThing hnames hfailure hmissing =>
    rw [fetch, if_neg hnames.1, if_neg hnames.2, fault?_eq_none hfailure, hmissing]
    rfl
  | @missingAttr attrs hnames hfailure hattrs hmissing =>
    have hnone : attrs.find? (·.name == name) = none := by
      rw [List.find?_eq_none]
      exact fun a ha => by simpa using hmissing a ha
    rw [fetch, if_neg hnames.1, if_neg hnames.2, fault?_eq_none hfailure, hattrs]
    dsimp only
    rw [hnone]
    rfl
  | scalar hnames hfailure hcurrent htype =>
    have herror := (Attr.withField_eq_error_iff _ field _).mpr (Attr.listValue_of_type_ne htype)
    rw [hread hnames hfailure hcurrent]
    dsimp only
    rw [herror, name_of_attr? s thing name hcurrent]
  | broken hnames hfailure hcurrent htype hcause =>
    have herror := (Attr.withField_eq_error_iff _ field _).mpr (Attr.listValue_of_undecodable htype hcause)
    rw [hread hnames hfailure hcurrent]
    dsimp only
    rw [herror, name_of_attr? s thing name hcurrent]
  | unwritable hnames hfailure hcurrent hfields hwrite =>
    rw [hread hnames hfailure hcurrent]
    dsimp only
    rw [Attr.withField_of_listValue hfields]
    dsimp only
    rw [write, if_neg hnames.1, Attr.name_list, name_of_attr? s thing name hcurrent, if_neg hnames.2,
      fault?_eq_some hwrite]

/-- One list attribute of a thing has a field set, in its place and under its name, and nothing else is changed. -/
structure FieldWritten (thing name : String) (field : Attr) (s t : Store) : Prop where
  place : ∃ before current after updated,
    s.thing? thing = some (before ++ current :: after) ∧ t.thing? thing = some (before ++ updated :: after) ∧
      (∀ a ∈ before, a.name ≠ name) ∧ current.name = name ∧ updated.name = name ∧
      current.type = .attrList ∧ updated.type = .attrList ∧
      ∃ fields merged, current.listValue = .ok fields ∧ updated.listValue = .ok merged ∧
        Attr.Merges (fields ++ [field]) merged
  others : ∀ other, other ≠ thing → t.thing? other = s.thing? other
  rest : t = { s with things := t.things }

theorem fieldWritten_withAttr {current : Attr} {fields : List Attr} (hcurrent : s.attr? thing name = some current)
    (hfields : current.listValue = .ok fields) (field : Attr) :
    FieldWritten thing name field s
      (s.withAttr thing (.list current.name (Attr.collapse (fields ++ [field])))) := by
  obtain ⟨hname, before, after, hattrs, hbefore⟩ := List.find?_eq_some_iff_append.mp hcurrent
  have hname : current.name = name := beq_iff_eq.mp hname
  have hbefore : ∀ a ∈ before, a.name ≠ name := fun a ha => by simpa using hbefore a ha
  let updated := Attr.list current.name (Attr.collapse (fields ++ [field]))
  have hupdated : updated.name = name := hname
  have hplace : Attr.upsert (before ++ current :: after) updated = before ++ updated :: after :=
    Attr.upsert_append_cons (hupdated ▸ hbefore) (hname.trans hupdated.symm) after
  refine ⟨⟨before, current, after, updated, ?_, ?_, hbefore, hname, hupdated, Attr.type_of_listValue hfields, rfl,
    fields, _, hfields, Attr.listValue_list _ _, Attr.merges_collapse _⟩,
    fun other h => thing?_setAttributes_of_ne s h _, rfl⟩
  · rw [thing?_eq_some_of_attr? s thing name hcurrent, hattrs]
  · rw [withAttr, thing?_setAttributes_self, hattrs, hplace]

/-- Writing a field is refused with its reason and changes nothing, or it is done. -/
theorem writeField_cases (s : Store) (thing name : String) (field : Attr) :
    (∃ e, FieldRefusal s thing name e ∧ s.writeField thing name field = (.error e, s)) ∨
      ∃ t, FieldWritten thing name field s t ∧ s.writeField thing name field = (.ok (), t) := by
  have refused {e : RpcError} (h : FieldRefusal s thing name e) :
      (∃ e, FieldRefusal s thing name e ∧ s.writeField thing name field = (.error e, s)) ∨
        ∃ t, FieldWritten thing name field s t ∧ s.writeField thing name field = (.ok (), t) :=
    .inl ⟨e, h, h.writeField field⟩
  by_cases hthing : thing = ""
  · exact refused (.noThing hthing)
  by_cases hname : name = ""
  · exact refused (.noName hthing hname)
  have hnames : thing ≠ "" ∧ name ≠ "" := ⟨hthing, hname⟩
  cases hread : Keyed.get? s.failures "getAttr" with
  | some failure => exact refused (.unreadable hnames hread)
  | none =>
  cases hattrs : s.thing? thing with
  | none => exact refused (.missingThing hnames hread hattrs)
  | some attrs =>
  cases hcurrent : s.attr? thing name with
  | none =>
    refine refused (.missingAttr hnames hread hattrs fun a ha => ?_)
    rw [attr?, attributes, hattrs, List.find?_eq_none] at hcurrent
    simpa using hcurrent a ha
  | some current =>
  by_cases htype : current.type = .attrList
  · cases hvalue : (Decoder.list Attr.decoder).ofString current.value with
    | error cause => exact refused (.broken hnames hread hcurrent htype hvalue)
    | ok fields =>
      have hfields : current.listValue = .ok fields := by
        rw [Attr.listValue, Attr.expect, if_pos htype]
        simp [Attr.decodeValue, hvalue, bind, Except.bind, Except.mapError]
      cases hwrite : Keyed.get? s.failures "setAttr" with
      | some failure => exact refused (.unwritable hnames hread hcurrent hfields hwrite)
      | none =>
        refine .inr ⟨_, fieldWritten_withAttr hcurrent hfields field, ?_⟩
        have hfetch : s.fetch thing name = .ok current :=
          (s.fetch_eq_ok_iff thing name current).mpr ⟨hthing, hname, fault?_eq_none hread, hcurrent⟩
        have hset : current.name ≠ "" := by rwa [name_of_attr? s thing name hcurrent]
        rw [writeField, hfetch]
        dsimp only
        rw [Attr.withField_of_listValue hfields]
        dsimp only
        rw [write, if_neg hthing, Attr.name_list, if_neg hset, fault?_eq_none hwrite]
  · exact refused (.scalar hnames hread hcurrent htype)

end Store

/-- Against any store, writing a field of a list asks for the list and then writes it at most once, on the authority that
it was given, and what it writes is the list that the store gave with that field set.  With a store in memory either the
list is changed in its place and nothing else is, or the call fails with the error of its reason and nothing is
changed. -/
theorem field_written_or_refused (thing name : String) (field : Attr) (asExtension : Bool) (callId : String)
    (number : Nat) :
    (∀ {σ : Type} (wire : Wire σ) (state : σ),
        let trips := ((Client.setField thing name field asExtension).run.run wire.noted.exchange callId number
          (state, [])).state.2
        trips.map RoundTrip.request =
            ((Client.setField thing name field asExtension).run.run wire.exchange callId number state).sent ∧
          FieldTrips callId thing name field asExtension trips) ∧
      ∀ s : Store,
        let played := (Client.setField thing name field asExtension).run.run Store.exchange callId number s
        (∀ e, played.value = .error e ↔ Store.FieldRefusal s thing name e) ∧
          (∀ e, played.value = .error e → played.state = s) ∧
          (played.value = .ok () → Store.FieldWritten thing name field s played.state) := by
  constructor
  · intro σ wire state
    obtain ⟨trips, hrun, hsent, hconversation⟩ :=
      (Client.setField thing name field asExtension).run.run_noted wire callId number state []
    dsimp only
    rw [hrun]
    exact ⟨hsent, fieldTrips_of_conversation hconversation⟩
  · intro s
    obtain ⟨hvalue, hstate⟩ := run_exchange callId (Client.setField thing name field asExtension).run number s
    have houtcome : (Client.setField thing name field asExtension).run.eval s = s.writeField thing name field :=
      Store.outcome_setField thing name asExtension s field
    dsimp only
    rw [hvalue, hstate, houtcome]
    rcases s.writeField_cases thing name field with ⟨e, hrefusal, hwrite⟩ | ⟨t, hwritten, hwrite⟩
    · rw [hwrite]
      refine ⟨fun e' => ⟨?_, fun h => ?_⟩, fun _ _ => rfl, nofun⟩
      · rintro ⟨⟩
        exact hrefusal
      · rw [h.writeField field] at hwrite
        cases hwrite
        rfl
    · rw [hwrite]
      refine ⟨fun e => ⟨nofun, fun h => ?_⟩, nofun, fun _ => hwritten⟩
      rw [h.writeField field] at hwrite
      cases hwrite

end WorldPlugins
