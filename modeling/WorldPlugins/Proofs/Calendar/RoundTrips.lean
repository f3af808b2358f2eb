import WorldPlugins.Calendar.Commands
import WorldPlugins.Proofs.Plugin.Serving
import WorldPlugins.Proofs.Rpc.Methods

/-! # What the calendar plugin asks

All is asked on the authority of the extension.  Listing events and looking at them only read and tell, whatever the
store replies.  An event is loaded only if the store gave it.
-/

namespace WorldPlugins.Calendar

open Session (Conversation AsksOnly)
open Client (asksFor_of_takesStep)

variable {callId : String} {trips : List RoundTrip} (ctx : Context) (name text : String)

/-- What handles a call depends on its method and on its subcommand. -/
theorem handler?_cases [Time.ZoneData] {config : Config} {call : Call} {handler : Handler Json}
    (h : plugin.handler? config call = some handler) :
    call.method = "event" ∧ ∃ subcommand command, call.subcommand? = some subcommand ∧
      EventCommand.ofName? subcommand = some command ∧ handler = command.run ⟨call, config⟩ := by
  unfold Plugin.handler? at h
  split at h
  · obtain ⟨family, hfamily, hfound⟩ := Option.bind_eq_some_iff.mp h
    by_cases hevent : call.method = "event"
    · rw [hevent] at hfamily
      cases hfamily
      obtain ⟨command, hcommand, rfl⟩ := Option.map_eq_some_iff.mp hfound
      obtain ⟨subcommand, hsub, hname⟩ := Option.bind_eq_some_iff.mp hcommand
      exact ⟨hevent, subcommand, command, hsub, hname, rfl⟩
    · simp [plugin, List.lookup_cons, beq_eq_false_iff_ne.mpr hevent] at hfamily
  · cases h

theorem eq_of_eventName {subcommand : String} {command : EventCommand}
    (h : EventCommand.ofName? subcommand = some command) :
    (command = .create → subcommand = "create") ∧ (command = .delete → subcommand = "delete") := by
  unfold EventCommand.ofName? at h
  split at h <;> cases h <;> simp

theorem asks_load : (load ctx name).run.AsksFor ctx.extension true StoreMethod.reads := by
  refine (asksFor_of_takesStep (Client.takesStep_getAttr ctx.extension _ true) rfl).lift.bindExcept ?_
  rintro (e | a)
  · dsimp only
    split <;> trivial
  · trivial

theorem reads_load : (load ctx name).run.Reads := (asks_load ctx name).reads

/-- Loading an event takes one round trip, if it comes through, and that gave the event. -/
theorem conversation_load {event : Event} (h : (load ctx name).run.Conversation callId trips (.ok event)) :
    ∃ (t : RoundTrip) (a : Attr), trips = [t] ∧
      t.Asks callId .getAttr (attrParams ctx.extension (Event.storedName name) true) ∧
      t.Gives Attr.decoder a ∧ Event.ofAttr a = .ok event := by
  rcases h.bind_cases with ⟨e, hr, -⟩ | ⟨q, first, second, rfl, hlift, hrest⟩
  · cases hr
  obtain ⟨q', hq, hget⟩ := hlift.of_lift
  cases hq
  cases q with
  | error e =>
    dsimp only at hrest
    split at hrest
    · cases hrest.of_throw.2
    · cases hrest.of_throw.2
  | ok a =>
    obtain ⟨rfl, hread⟩ := hrest.of_ofAttr
    rw [List.append_nil]
    rcases Client.conversation_getAttr _ _ _ hget with ⟨-, -, cause, hfailed⟩ | ⟨-, t, rfl, hasks, htells⟩
    · cases hfailed
    · exact ⟨t, a, rfl, hasks, htells.gives a rfl, (mapError_eq_ok_iff _ _ _).mp hread.symm⟩

private theorem asks_callerZone [Time.ZoneData] : callerZone.run.AsksFor ctx.extension true StoreMethod.reads :=
  (asksFor_of_takesStep (Client.takesStep_getCallerTimezone ctx.extension true) rfl).ofApi.bindExcept fun _ => trivial

theorem reads_callerZone [Time.ZoneData] : callerZone.run.Reads :=
  (asksFor_of_takesStep (Client.takesStep_getCallerTimezone "" true) rfl).reads.ofApi.bindExcept fun _ => trivial

private theorem asks_loadAll (names : List String) :
    (loadAll ctx names).run.AsksFor ctx.extension true StoreMethod.reads := by
  induction names with
  | nil => trivial
  | cons name names ih =>
    refine (asksFor_of_takesStep (Client.takesStep_getAttr ctx.extension name true) rfl).ofApi.bindExcept fun a => ?_
    refine AsksOnly.bindExcept trivial fun event => ?_
    exact ih.bindExcept fun _ => trivial

theorem reads_loadAll (names : List String) : (loadAll ctx names).run.Reads := (asks_loadAll ctx names).reads

theorem asks_list [Time.ZoneData] : (list ctx).run.AsksFor ctx.extension true StoreMethod.keeps := by
  refine ((asks_callerZone ctx).widen fun _ => StoreMethod.keeps_of_reads).bindExcept fun zone => ?_
  have hnames : (Client.getAttrNames ctx.extension true).run.AsksFor ctx.extension true StoreMethod.keeps :=
    asksFor_of_takesStep (Client.takesStep_getAttrNames ctx.extension true) rfl
  refine hnames.ofApi.bindExcept fun names => ?_
  split
  · exact Client.asks_told ctx.extension true _
  · refine ((asks_loadAll ctx _).widen fun _ => StoreMethod.keeps_of_reads).bindExcept fun events => ?_
    exact Client.asks_told ctx.extension true _

theorem asks_get [Time.ZoneData] : (get ctx name).run.AsksFor ctx.extension true StoreMethod.keeps := by
  refine ((asks_load ctx name).widen fun _ => StoreMethod.keeps_of_reads).bindExcept fun event => ?_
  refine ((asks_callerZone ctx).widen fun _ => StoreMethod.keeps_of_reads).bindExcept fun zone => ?_
  exact Client.asks_told ctx.extension true _

theorem asks_create [Time.ZoneData] (description startText location : String) :
    (create ctx name description startText location).run.AsksFor ctx.extension true StoreMethod.any := by
  refine ((Client.asks_hasAttr ctx.extension _ true).widen fun _ _ => rfl).ofApi.bindExcept fun has => ?_
  split
  · trivial
  · refine ((Client.asks_caller ctx.extension true).widen fun _ _ => rfl).bindExcept fun owner => ?_
    refine ((asks_callerZone ctx).widen fun _ _ => rfl).bindExcept fun zone => ?_
    split
    · trivial
    · refine (asksFor_of_takesStep (Client.takesStep_setAttr ctx.extension true _) rfl).ofApi.bindExcept fun _ => ?_
      exact (Client.asks_told ctx.extension true _).widen fun _ _ => rfl

theorem asks_delete : (delete ctx name).run.AsksFor ctx.extension true StoreMethod.any := by
  refine ((asks_load ctx name).widen fun _ _ => rfl).bindExcept fun event => ?_
  refine ((Client.asks_caller ctx.extension true).widen fun _ _ => rfl).bindExcept fun caller => ?_
  split
  · trivial
  · split
    · refine (asksFor_of_takesStep (Client.takesStep_removeAttr ctx.extension _ true) rfl).ofApi.bindExcept fun _ => ?_
      exact (Client.asks_told ctx.extension true _).widen fun _ _ => rfl
    · trivial

theorem asks_run [Time.ZoneData] (command : EventCommand) :
    (command.run ctx).run.AsksFor ctx.extension true StoreMethod.any := by
  unfold EventCommand.run
  split
  · exact asks_create ctx _ _ _ _
  · exact (asks_list ctx).widen fun _ _ => rfl
  · exact (asks_get ctx _).widen fun _ _ => rfl
  · exact asks_delete ctx _
  · trivial

end WorldPlugins.Calendar
