import WorldPlugins.Proofs.Calendar.RoundTrips
import WorldPlugins.Proofs.Chat.Commands
import WorldPlugins.Proofs.Chat.RoundTrips
import WorldPlugins.Proofs.Plugin.RoundTrips

/-! # Creating and deleting

The store need not be trusted: whatever bytes it replies, nothing is created but what the store said to be absent, and
nothing is deleted but a channel, or an event of the caller's, that the store gave before.
-/

namespace WorldPlugins

open Json (Decoder)
open Session (Conversation ChangesFor)

variable {trips : List RoundTrip} {r : Except PluginError Json}

def SaidAbsent (callId thing name : String) (trips : List RoundTrip) : Prop :=
  ∃ t ∈ trips, t.Asks callId .getAttr (attrParams thing name true) ∧ ∃ o, t.Refuses o ∧ o.code = -32004

namespace Calendar

/-- A change that `event` makes, with the round trips before it. -/
inductive Founded (call : Call) (before : List RoundTrip) (change : RoundTrip) : Prop
  | creating {name description start location : String} {attr : Attr}
      (harguments : call.arguments = ["create", name, description, start, location])
      (habsent : SaidAbsent call.id call.extension (Event.storedName name) before)
      (hname : attr.name = Event.storedName name)
      (hwrites : change.Asks call.id .setAttr (writeParams call.extension attr true)) : Founded call before change
  | deleting {name owner : String} {loading naming : RoundTrip} {attr : Attr} {event : Event}
      (harguments : call.arguments = ["delete", name])
      (hbefore : before = [loading, naming])
      (hloads : loading.Asks call.id .getAttr (attrParams call.extension (Event.storedName name) true))
      (hgives : loading.Gives Attr.decoder attr) (hevent : Event.ofAttr attr = .ok event)
      (howner : event.owner = some owner)
      (hasks : naming.Asks call.id .getCallerName []) (hcaller : naming.Gives Decoder.string owner)
      (hremoves : change.Asks call.id .removeAttr (attrParams call.extension (Event.storedName name) true)) :
      Founded call before change

variable {ctx : Context} {name description start location : String}

private theorem founded_create [Time.ZoneData]
    (harguments : ctx.call.arguments = ["create", name, description, start, location])
    (h : (create ctx name description start location).run.Conversation ctx.call.id trips r) :
    ChangesFor (fun before change _ => Founded ctx.call before change) trips := by
  refine ChangesFor.bind h (Client.reads_hasAttr ctx.extension (Event.storedName name) true).ofApi.keeps ?_
  intro has first rest hhas hrest
  cases has with
  | true => exact ChangesFor.of_throw hrest
  | false =>
    obtain ⟨q, hq, hget⟩ := hhas.of_ofApi
    rw [(mapError_eq_ok_iff _ _ _).mp hq.symm] at hget
    -- The absence is known from the first round trip; the two readings after it add nothing to the reasons.
    obtain ⟨t, rfl, hasks, hrefused⟩ := Client.conversation_hasAttr _ _ _ hget
    refine ChangesFor.bind hrest Client.reads_getCallerName.ofApi.keeps ?_
    intro owner second rest howner hrest
    refine ChangesFor.bind hrest reads_callerZone.keeps ?_
    intro zone third rest hzone hrest
    dsimp only at hrest
    split at hrest
    · exact ChangesFor.of_throw hrest
    · refine Client.changesFor_reported hrest ?_
      intro written q hset
      rcases Client.conversation_setAttr _ _ hset with ⟨hnone, -⟩ | ⟨change, hchange, hwrites⟩
      · exact .inl hnone
      · have habsent : SaidAbsent ctx.call.id ctx.call.extension (Event.storedName name)
            ([t] ++ (second ++ (third ++ []))) := ⟨t, by simp, hasks, hrefused⟩
        exact .inr ⟨change, hchange, fun after => .creating harguments habsent rfl hwrites⟩

private theorem founded_delete (harguments : ctx.call.arguments = ["delete", name])
    (h : (delete ctx name).run.Conversation ctx.call.id trips r) :
    ChangesFor (fun before change _ => Founded ctx.call before change) trips := by
  refine ChangesFor.bind h (reads_load ctx name).keeps ?_
  intro event first rest hload hrest
  obtain ⟨loading, a, rfl, hloads, hgives, hevent⟩ := conversation_load ctx name hload
  refine ChangesFor.bind hrest Client.reads_getCallerName.ofApi.keeps ?_
  intro caller second rest hcaller hrest
  obtain ⟨q, hq, hquery⟩ := hcaller.of_ofApi
  obtain ⟨naming, rfl, hasks, htells⟩ := Client.conversation_query hquery
  have hnamed := htells.gives caller ((mapError_eq_ok_iff _ _ _).mp hq.symm)
  split at hrest
  · exact ChangesFor.of_throw hrest
  · next owner howner =>
    split at hrest
    · next hsame =>
      subst hsame
      refine Client.changesFor_reported hrest ?_
      intro removed q hremove
      rcases Client.conversation_removeAttr _ _ _ hremove with ⟨hnone, -⟩ | ⟨change, hchange, hremoves⟩
      · exact .inl hnone
      · exact .inr ⟨change, hchange, fun after =>
          .deleting harguments rfl hloads hgives hevent howner hasks hnamed hremoves⟩
    · exact ChangesFor.of_throw hrest

/-- Whatever `event` changes, it has a reason to. -/
private theorem founded_event [Time.ZoneData] {subcommand : String} {command : EventCommand}
    (hsub : ctx.call.subcommand? = some subcommand) (hname : EventCommand.ofName? subcommand = some command)
    (h : (command.run ctx).run.Conversation ctx.call.id trips r) :
    ChangesFor (fun before change _ => Founded ctx.call before change) trips := by
  obtain ⟨hcreate, hdelete⟩ := eq_of_eventName hname
  unfold EventCommand.run at h
  split at h
  · next harguments =>
    rw [Call.eq_of_subcommand? hsub harguments, hcreate rfl] at harguments
    exact founded_create harguments h
  · exact .inl (h.keeps (asks_list ctx).keeps)
  · exact .inl (h.keeps (asks_get ctx _).keeps)
  · next harguments =>
    rw [Call.eq_of_subcommand? hsub harguments, hdelete rfl] at harguments
    exact founded_delete harguments h
  · exact ChangesFor.of_throw h

end Calendar

namespace Chat

/-- A change that creating or deleting a channel makes, with the round trips before it. -/
inductive Founded (call : Call) (before : List RoundTrip) (change : RoundTrip) : Prop
  | creating {name : String} {attr : Attr}
      (harguments : call.arguments = ["create", name])
      (habsent : SaidAbsent call.id call.extension name before)
      (hname : attr.name = name)
      (hwrites : change.Asks call.id .setAttr (writeParams call.extension attr false)) : Founded call before change
  | deleting {name : String} {loading : RoundTrip} {attr : Attr} {c : Channel}
      (harguments : call.arguments = ["delete", name])
      (hbefore : before = [loading])
      (hloads : loading.Asks call.id .getAttr (attrParams call.extension name true))
      (hgives : loading.Gives Attr.decoder attr) (hchannel : Channel.ofAttr attr = .ok c)
      (hremoves : change.Asks call.id .removeAttr (attrParams call.extension name false)) : Founded call before change

variable {ctx : Context} {name : String}

private theorem founded_create (harguments : ctx.call.arguments = ["create", name])
    (h : (Admin.create ctx name).run.Conversation ctx.call.id trips r) :
    ChangesFor (fun before change _ => Founded ctx.call before change) trips := by
  refine ChangesFor.bind h (reads_find? ctx name).keeps ?_
  intro found first rest hfind hrest
  obtain ⟨t, rfl, hasks, -, hmissing⟩ := conversation_find? ctx name hfind
  cases found with
  | some c => exact ChangesFor.of_throw hrest
  | none =>
    refine Client.changesFor_reported hrest ?_
    intro written q hset
    rcases Client.conversation_setAttr _ _ hset with ⟨hnone, -⟩ | ⟨change, hchange, hwrites⟩
    · exact .inl hnone
    · have habsent : SaidAbsent ctx.call.id ctx.call.extension name ([t] ++ []) :=
        ⟨t, by simp, hasks, hmissing rfl⟩
      exact .inr ⟨change, hchange, fun after => .creating harguments habsent rfl hwrites⟩

private theorem founded_delete (harguments : ctx.call.arguments = ["delete", name])
    (h : (Admin.delete ctx name).run.Conversation ctx.call.id trips r) :
    ChangesFor (fun before change _ => Founded ctx.call before change) trips := by
  refine ChangesFor.bind h (reads_find? ctx name).keeps ?_
  intro found first rest hfind hrest
  obtain ⟨t, rfl, hasks, hgives, -⟩ := conversation_find? ctx name hfind
  cases found with
  | none => exact ChangesFor.of_throw hrest
  | some c =>
    obtain ⟨a, ha, hchannel⟩ := hgives c rfl
    refine Client.changesFor_reported hrest ?_
    intro removed q hremove
    rcases Client.conversation_removeAttr _ _ _ hremove with ⟨hnone, -⟩ | ⟨change, hchange, hremoves⟩
    · exact .inl hnone
    · exact .inr ⟨change, hchange, fun after => .deleting harguments rfl hasks ha hchannel hremoves⟩

/-- Whatever the subcommands `create` and `delete` of `chatadmin` change, they have a reason to. -/
private theorem founded_admin {command : AdminCommand} {subcommand : String}
    (hsub : ctx.call.subcommand? = some subcommand) (hname : AdminCommand.ofName? subcommand = some command)
    (hcommand : command = .create ∨ command = .delete)
    (h : (command.run ctx).run.Conversation ctx.call.id trips r) :
    ChangesFor (fun before change _ => Founded ctx.call before change) trips := by
  obtain ⟨hcreate, hdelete, -⟩ := eq_of_adminName hname
  unfold AdminCommand.run at h
  split at h
  · next harguments =>
    rw [Call.eq_of_subcommand? hsub harguments, hcreate rfl] at harguments
    exact founded_create harguments h
  · next harguments =>
    rw [Call.eq_of_subcommand? hsub harguments, hdelete rfl] at harguments
    exact founded_delete harguments h
  · simp at hcommand
  · simp at hcommand
  · simp at hcommand
  · simp at hcommand
  · exact ChangesFor.of_throw h

end Chat

variable {σ : Type} {input : Text.Raw} {call : Call}

/-- Against any store, `event` and the subcommands `create` and `delete` of `chatadmin` change at most one attribute:
one that the store said to be absent, or one that the store gave and whose removal is up to the caller. -/
theorem creations_and_deletions_founded [Time.ZoneData] (config : Config) (wire : Wire σ) (state : σ)
    (hcall : Plugin.callOf? input = some call) :
    let eventTrips := Calendar.plugin.trips config wire input state
    let chatTrips := Chat.plugin.trips config wire input state
    (eventTrips.map RoundTrip.request = (Calendar.plugin.serve config wire.exchange input state).sent ∧
        ChangesFor (fun before change _ => Calendar.Founded call before change) eventTrips) ∧
      chatTrips.map RoundTrip.request = (Chat.plugin.serve config wire.exchange input state).sent ∧
        (call.method = "chatadmin" → call.subcommand? = some "create" ∨ call.subcommand? = some "delete" →
          ChangesFor (fun before change _ => Chat.Founded call before change) chatTrips) := by
  refine ⟨⟨(Plugin.serve_noted _ config wire input state).1, ?_⟩,
    (Plugin.serve_noted _ config wire input state).1, ?_⟩
  · rcases Plugin.trips_cases Calendar.plugin config wire input state with hnone |
      ⟨found, handler, r, hfound, hhandler, hconversation⟩
    · rw [hnone]
      exact .inl nofun
    · cases hfound.symm.trans hcall
      obtain ⟨-, subcommand, command, hsub, hname, rfl⟩ := Calendar.handler?_cases hhandler
      exact @Calendar.founded_event _ _ ⟨call, config⟩ _ _ _ hsub hname hconversation
  · intro hmethod hsubcommand
    rcases Plugin.trips_cases Chat.plugin config wire input state with hnone |
      ⟨found, handler, r, hfound, hhandler, hconversation⟩
    · rw [hnone]
      exact .inl nofun
    · cases hfound.symm.trans hcall
      obtain ⟨hchat, -⟩ | ⟨-, subcommand, command, hsub, hname, rfl⟩ | ⟨hguest, -⟩ :=
        Chat.handler?_cases hhandler
      · simp [hmethod] at hchat
      · have hcommand : command = .create ∨ command = .delete := by
          rw [hsub] at hsubcommand
          rcases hsubcommand with h | h <;> cases h <;> cases hname <;> simp
        exact @Chat.founded_admin _ _ ⟨call, config⟩ _ _ hsub hname hcommand hconversation
      · simp [hmethod] at hguest

def createPartyText : Text.Raw :=
  Plugin.textOfCall "event" "\"create\",\"party\",\"Bring snacks\",\"2020-09-13T21:26:40Z\",\"Lounge\""

def partyReplies : List (List UInt8) :=
  [Plugin.bytesOfReply "1" "error" "\x7b\"code\":-32004,\"message\":\"No such attribute\"\x7d",
    Plugin.bytesOfReply "2" "result" "\"Alice\"", Plugin.bytesOfReply "3" "result" "\"UTC\""]

def deleteLobbyText : Text.Raw := Plugin.textOfCall "chatadmin" "\"delete\",\"#lobby\""

def deletionReplies : List (List UInt8) :=
  [Plugin.bytesOfReply "1" "result" "\x7b\"name\":\"#lobby\",\"value\":\"[]\",\"type\":\"ATTRLIST\"\x7d"]

/-- An event is made, and a channel is removed. -/
theorem creations_and_deletions_founded_partyAndLobby :
    (∃ call before change after, Plugin.callOf? createPartyText = some call ∧
        Calendar.plugin.trips Config.standard Wire.canned createPartyText partyReplies = before ++ change :: after ∧
        Calendar.Founded call before change) ∧
      ∃ call before change after, Plugin.callOf? deleteLobbyText = some call ∧
        Chat.plugin.trips Config.standard Wire.canned deleteLobbyText deletionReplies = before ++ change :: after ∧
        Chat.Founded call before change := by
  have hparty : Plugin.callOf? createPartyText = some ⟨"call", "event", "ext",
      ["create", "party", "Bring snacks", "2020-09-13T21:26:40Z", "Lounge"]⟩ := by
    simp only [createPartyText, Plugin.textOfCall, Text.Raw.ofString, String.toList_append, String.reduceToList]
    decide +kernel
  have hlobby : Plugin.callOf? deleteLobbyText = some ⟨"call", "chatadmin", "ext", ["delete", "#lobby"]⟩ := by
    simp only [deleteLobbyText, Plugin.textOfCall, Text.Raw.ofString, String.toList_append, String.reduceToList]
    decide +kernel
  have hcreated : ∃ t ∈ Calendar.plugin.trips Config.standard Wire.canned createPartyText partyReplies, t.Changes := by
    simp only [createPartyText, Plugin.textOfCall, Text.Raw.ofString, String.toList_append, String.reduceToList]
    decide +kernel
  have hdeleted : ∃ t ∈ Chat.plugin.trips Config.standard Wire.canned deleteLobbyText deletionReplies, t.Changes := by
    simp only [deleteLobbyText, Plugin.textOfCall, Text.Raw.ofString, String.toList_append, String.reduceToList]
    decide +kernel
  constructor
  · have h := (creations_and_deletions_founded Config.standard Wire.canned partyReplies hparty).1.2
    obtain ⟨before, change, after, htrips, hfounded⟩ := h.exists_change hcreated
    exact ⟨_, before, change, after, hparty, htrips, hfounded⟩
  · have h := (creations_and_deletions_founded Config.standard Wire.canned deletionReplies hlobby).2.2 rfl (.inr rfl)
    obtain ⟨before, change, after, htrips, hfounded⟩ := h.exists_change hdeleted
    exact ⟨_, before, change, after, hlobby, htrips, hfounded⟩

end WorldPlugins
