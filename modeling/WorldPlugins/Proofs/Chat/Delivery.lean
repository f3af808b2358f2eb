import WorldPlugins.Proofs.Chat.Commands
import WorldPlugins.Proofs.Chat.RoundTrips
import WorldPlugins.Proofs.Plugin.RoundTrips

/-! # Who hears what is said

What a member says in a channel is sent to each of its members, one after another, and no reply to any of this stops
the rest.  Whether it is sent at all is decided before, by the round trips that show the channel to the caller; so
these and the sending are told apart by what came back and by nothing else.
-/

namespace WorldPlugins.Chat

open Session (Conversation AsksOnly)

variable {ctx : Context} {callId name text : String} {trips : List RoundTrip}

/-- The text is sent to one player after another, whatever comes back. -/
theorem conversation_tellAll {players : List String} {r : Except PluginError PUnit}
    (h : (tellAll text players).run.Conversation callId trips r) :
    List.Forall₂ (fun player t => t.Asks callId .sendMessage (messageParams player text)) players trips ∧
      r = .ok ⟨⟩ := by
  induction players generalizing trips with
  | nil =>
    obtain ⟨rfl, hr⟩ := h.of_pure
    exact ⟨.nil, hr⟩
  | cons player players ih =>
    rcases h.bind_cases with ⟨e, -, hfailed⟩ | ⟨a, first, second, rfl, hsent, hrest⟩
    · obtain ⟨a, ha, -⟩ := hfailed.of_lift
      cases ha
    · obtain ⟨q, -, horder⟩ := hsent.of_lift
      obtain ⟨t, rfl, hasks⟩ := Client.conversation_order horder
      obtain ⟨hothers, hr⟩ := ih hrest
      exact ⟨.cons hasks hothers, hr⟩

private theorem asksNoRoles_tellAll (ctx : Context) (text : String) (players : List String) :
    (do tellAll text players; Handler.done : Handler Json).run.AsksOnly fun method _ =>
      method ≠ StoreMethod.getRoles.name := by
  have htold : (tellAll text players).run.AsksFor ctx.extension true (· == .sendMessage) :=
    asks_tellAll ctx text players rfl
  refine AsksOnly.bindExcept (htold.mono ?_) fun _ => trivial
  rintro _ _ ⟨m, hm, rfl, -⟩
  rw [eq_of_beq hm]
  decide

/-- The round trips show a channel to a caller who is a member of it, and then there is the rest. -/
def Heard (ctx : Context) (name : String) (c : Channel) (caller : String) (trips rest : List RoundTrip) : Prop :=
  ∃ loading naming seeing, trips = loading :: naming :: (seeing ++ rest) ∧
    Sighting ctx name c caller loading naming seeing ∧ caller ∈ c.members

/-- What is said by a member who may see the channel is sent to all members. -/
private theorem say_of_heard {c : Channel} {caller : String} {rest : List RoundTrip} {r : Except PluginError Json}
    (hheard : Heard ctx name c caller trips rest) (h : (say ctx name text).run.Conversation ctx.call.id trips r) :
    List.Forall₂ (fun player t => t.Asks ctx.call.id .sendMessage
        (messageParams player ("[" ++ c.name ++ "] " ++ caller ++ ": " ++ text))) c.members rest ∧
      r = .ok (.string "") := by
  obtain ⟨loading, naming, seeing, rfl, hseen, hmember⟩ := hheard
  have htold := hseen.rest h (if_pos ((c.isMember_iff caller).mpr hmember)) (asksNoRoles_tellAll ctx _ _)
  rcases htold.bind_cases with ⟨e, -, hfailed⟩ | ⟨u, first, second, rfl, hsent, hdone⟩
  · cases (conversation_tellAll hfailed).2
  · obtain ⟨rfl, hr⟩ := hdone.of_pure
    rw [List.append_nil]
    exact ⟨(conversation_tellAll hsent).1, hr⟩

private theorem not_sendMessage_of_visibleChannel {r : Except PluginError (Channel × String)}
    (h : (visibleChannel ctx name).run.Conversation ctx.call.id trips r) :
    ∀ t ∈ trips, t.request.method ≠ "sendMessage" := by
  intro t ht
  obtain ⟨number, _, params, hrequest, m, hm, rfl⟩ := h.asks (reads_visibleChannel ctx name) t ht
  rw [hrequest]
  change m.name ≠ "sendMessage"
  cases m with
  | sendMessage => cases hm
  | _ => decide

/-- What anybody else says is refused, and sent to nobody. -/
private theorem say_of_not_heard {r : Except PluginError Json}
    (hunheard : ∀ c caller rest, ¬ Heard ctx name c caller trips rest)
    (h : (say ctx name text).run.Conversation ctx.call.id trips r) :
    (∀ t ∈ trips, t.request.method ≠ "sendMessage") ∧ ∃ e, r = .error e := by
  rcases h.bind_cases with ⟨e, hr, hfailed⟩ | ⟨⟨c, caller⟩, first, second, rfl, hfirst, hrest⟩
  · exact ⟨not_sendMessage_of_visibleChannel hfailed, e, hr⟩
  · obtain ⟨loading, naming, seeing, rfl, hseen⟩ := conversation_visibleChannel ctx name hfirst
    have hstranger : ¬ c.isMember caller = true := fun hmember =>
      hunheard c caller second ⟨loading, naming, seeing, rfl, hseen, (c.isMember_iff caller).mp hmember⟩
    dsimp only at hrest
    rw [if_neg hstranger] at hrest
    obtain ⟨rfl, hr⟩ := hrest.of_throw
    rw [List.append_nil]
    exact ⟨not_sendMessage_of_visibleChannel hfirst, _, hr⟩

/-- Whatever the store replies, what is said in a channel reaches each of its members once, in the order of the list,
if the replies show that channel to the caller and the caller is a member of it; then the call succeeds, even if some
of the members cannot be reached.  In every other case nobody is told anything, and the call fails. -/
theorem say_reaches_members {σ : Type} {input : Text.Raw} {call : Call} {name text : String} (config : Config)
    (wire : Wire σ) (state : σ) (hcall : Plugin.callOf? input = some call) (hmethod : call.method = "chat")
    (harguments : call.arguments = ["say", name, text]) :
    let ctx : Context := ⟨call, config⟩
    let trips := plugin.trips config wire input state
    let served := plugin.serve config wire.exchange input state
    trips.map RoundTrip.request = served.sent ∧
      (∀ c caller rest, Heard ctx name c caller trips rest →
        List.Forall₂ (fun player t => t.Asks call.id .sendMessage
            (messageParams player ("[" ++ c.name ++ "] " ++ caller ++ ": " ++ text))) c.members rest ∧
          served.value.isSuccess = true) ∧
      ((∀ c caller rest, ¬ Heard ctx name c caller trips rest) →
        (∀ r ∈ served.sent, r.method ≠ "sendMessage") ∧ served.value.isSuccess = false) := by
  intro ctx trips served
  have hsay : TalkCommand.say.run ctx = say ctx name text := by simp only [TalkCommand.run, ctx, harguments]
  have hhandler : plugin.handler? config call = some (say ctx name text) := by
    rw [← hsay]
    exact handler?_talk hmethod harguments rfl
  obtain ⟨id, r, hconversation, hresponse⟩ := Plugin.conversation_trips hcall hhandler wire state
  have hsent : trips.map RoundTrip.request = served.sent := (plugin.serve_noted config wire input state).1
  refine ⟨hsent, fun c caller rest hheard => ?_, fun hunheard => ?_⟩
  · obtain ⟨htold, rfl⟩ := say_of_heard hheard hconversation
    exact ⟨htold, by rw [hresponse]; rfl⟩
  · obtain ⟨hquiet, e, rfl⟩ := say_of_not_heard hunheard hconversation
    rw [← hsent]
    exact ⟨List.forall_mem_map.mpr hquiet, by rw [hresponse]; rfl⟩

def helloLobbyText : Text.Raw := Plugin.textOfCall "chat" "\"say\",\"#lobby\",\"hello\""

def silentReplies : List (List UInt8) :=
  let members := "\\\"name\\\":\\\"members\\\",\\\"value\\\":\\\"Bob,Alice\\\",\\\"type\\\":\\\"STRING\\\""
  let lobby := "\x7b\"name\":\"#lobby\",\"value\":\"[\x7b" ++ members ++ "\x7d]\",\"type\":\"ATTRLIST\"\x7d"
  [Plugin.bytesOfReply "1" "result" lobby, Plugin.bytesOfReply "2" "result" "\"Alice\""]

/-- Alice says something: both members are sent it, although there is no reply to either, and the call succeeds. -/
theorem say_reaches_members_lobby :
    let call : Call := ⟨"call", "chat", "ext", ["say", "#lobby", "hello"]⟩
    let trips := plugin.trips Config.standard Wire.canned helloLobbyText silentReplies
    let served := plugin.serve Config.standard Wire.canned.exchange helloLobbyText silentReplies
    (Plugin.callOf? helloLobbyText = some call ∧
        served.sent.map Request.method = ["getAttr", "getCallerName", "sendMessage", "sendMessage"]) ∧
      ∃ c caller rest, Heard ⟨call, Config.standard⟩ "#lobby" c caller trips rest ∧
        List.Forall₂ (fun player t => t.Asks call.id .sendMessage
          (messageParams player ("[" ++ c.name ++ "] " ++ caller ++ ": " ++ "hello"))) c.members rest ∧
        served.value.isSuccess = true := by
  intro call trips served
  have hcall : Plugin.callOf? helloLobbyText = some call := by
    simp only [helloLobbyText, Plugin.textOfCall, Text.Raw.ofString, String.toList_append, String.reduceToList]
    decide +kernel
  have hmethods : served.sent.map Request.method = ["getAttr", "getCallerName", "sendMessage", "sendMessage"] := by
    simp only [served, helloLobbyText, Plugin.textOfCall, Text.Raw.ofString, String.toList_append, String.reduceToList]
    decide +kernel
  refine ⟨⟨hcall, hmethods⟩, ?_⟩
  obtain ⟨-, hheard, hunheard⟩ :=
    say_reaches_members Config.standard Wire.canned silentReplies hcall rfl (rfl : call.arguments = ["say", _, _])
  by_contra hnone
  have hquiet := (hunheard fun c caller rest h => hnone ⟨c, caller, rest, h, hheard c caller rest h⟩).1
  have hsent : "sendMessage" ∈ served.sent.map Request.method := by simp [hmethods]
  obtain ⟨request, hrequest, hmethod⟩ := List.mem_map.mp hsent
  exact hquiet request hrequest hmethod

end WorldPlugins.Chat
