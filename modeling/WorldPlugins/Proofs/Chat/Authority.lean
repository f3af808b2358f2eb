import WorldPlugins.Proofs.Chat.Commands
import WorldPlugins.Proofs.Chat.RoundTrips
import WorldPlugins.Proofs.Plugin.RoundTrips

/-! # Who may change a channel through `chat`

The store need not be trusted: whatever bytes it replies, a `chat` call writes at most once, at its very end, and
only after a channel was given, the caller was named, and the access lists of that channel admitted the caller.  What
is written are the members of that channel with the caller at the end, or without the caller.
-/

namespace WorldPlugins.Chat

open Json (Decoder)
open Session (ChangesFor)

variable {ctx : Context} {name player : String} {trips : List RoundTrip} {r : Except PluginError Json}

private theorem keeps_told (text : String) :
    (do Client.sendToCaller text; Handler.done : Handler Json).run.Keeps :=
  (Client.keeps_tell _).ofApi.bindExcept fun _ => trivial

/-- The round trips that write the members of a channel: the attribute of that name is read once more, and what is
written is that attribute with these members in its only field of members. -/
structure Storing (ctx : Context) (channel : String) (names : List String) (reading writing : RoundTrip) : Prop where
  reads : reading.Asks ctx.call.id .getAttr (attrParams ctx.extension channel true)
  writes : ∃ current updated fields, reading.Gives Attr.decoder current ∧
    current.withField (Channel.namesField Channel.membersKey names) = .ok updated ∧
    writing.Asks ctx.call.id .setAttr (writeParams ctx.extension updated true) ∧
    updated.listValue = .ok fields ∧
    fields.filter (fun f => f.name == Channel.membersKey) = [.string "members" (NameList.join names)]

/-- The round trips by which the caller of `chat` becomes a member of a channel or ceases to be one: those before the
write, and the write. -/
inductive MemberChange (ctx : Context) : List RoundTrip → RoundTrip → Prop
  | joining {name caller : String} {c : Channel} {loading naming reading writing : RoundTrip}
      {seeing checking : List RoundTrip}
      (harguments : ctx.call.arguments = ["join", name])
      (hseen : Sighting ctx name c caller loading naming seeing)
      (hadmitted : Admission ctx.call.id ctx.config.superuser c.acl.join caller checking)
      (hnew : caller ∉ c.members)
      (hstored : Storing ctx c.name (c.members ++ [caller]) reading writing) :
      MemberChange ctx (loading :: naming :: (seeing ++ checking ++ [reading])) writing
  | leaving {name caller : String} {c : Channel} {loading naming reading writing : RoundTrip} {seeing : List RoundTrip}
      (harguments : ctx.call.arguments = ["leave", name])
      (hseen : Sighting ctx name c caller loading naming seeing)
      (hold : caller ∈ c.members)
      (hstored : Storing ctx c.name (c.members.erase caller) reading writing) :
      MemberChange ctx (loading :: naming :: (seeing ++ [reading])) writing

/-- The round trips change nothing, or only the last of them does: it makes the caller a member, or no member. -/
abbrev Authorised (ctx : Context) (trips : List RoundTrip) : Prop :=
  ChangesFor (fun before write after => after = [] ∧ MemberChange ctx before write) trips

private theorem changesFor_storeMembers {c : Channel} {p : List RoundTrip → RoundTrip → Prop}
    (h : (do Channel.storeMembers ctx c true; Handler.done : Handler Json).run.Conversation ctx.call.id trips r)
    (hp : ∀ reading writing, Storing ctx c.name c.members reading writing → p [reading] writing) :
    ChangesFor (fun before write after => after = [] ∧ p before write) trips := by
  have hstore : ∃ q : Except RpcError Unit,
      (Client.setField ctx.extension c.name c.membersField true).run.Conversation ctx.call.id trips q := by
    rcases h.bind_cases with ⟨e, -, hstore⟩ | ⟨a, first, second, rfl, hstore, hdone⟩
    · obtain ⟨q, -, hq⟩ := hstore.of_ofApi
      exact ⟨q, hq⟩
    · obtain ⟨rfl, -⟩ := hdone.of_pure
      obtain ⟨q, -, hq⟩ := hstore.of_ofApi
      rw [List.append_nil]
      exact ⟨q, hq⟩
  obtain ⟨q, hq⟩ := hstore
  rcases Client.conversation_setField _ _ _ hq with ⟨rfl, -⟩ | ⟨-, reading, rest, rfl, hreads, hrest⟩
  · exact .inl nofun
  have hquiet : ∀ t ∈ [reading], ¬ t.Changes := by simpa using Session.not_changes_of_asks hreads rfl
  rcases hrest with rfl | ⟨writing, current, updated, rfl, hgives, hfield, hwrites⟩
  · exact .inl hquiet
  · obtain ⟨fields, -, rfl⟩ := (Attr.withField_eq_ok_iff current _ updated).mp hfield
    have hstored : Storing ctx c.name c.members reading writing :=
      ⟨hreads, current, _, _, hgives, hfield, hwrites, Attr.listValue_list _ _,
        Attr.filter_upsert_collapse fields c.membersField⟩
    refine .inr ⟨[reading], writing, [], rfl, ?_, rfl, hp reading writing hstored⟩
    rw [List.append_nil]
    exact hquiet

private theorem authorised_join (harguments : ctx.call.arguments = ["join", name])
    (h : (join ctx name).run.Conversation ctx.call.id trips r) : Authorised ctx trips := by
  refine ChangesFor.bind h (reads_visibleChannel ctx name).keeps ?_
  rintro ⟨c, caller⟩ first rest hsee hrest
  obtain ⟨loading, naming, seeing, rfl, hseen⟩ := conversation_visibleChannel ctx name hsee
  refine ChangesFor.bind hrest (reads_may ctx caller .join c.acl).keeps ?_
  intro joins checking last hmay hlast
  cases joins with
  | false => exact ChangesFor.of_throw hlast
  | true =>
    rw [if_pos rfl] at hlast
    split at hlast
    · exact .inl (hlast.keeps (keeps_told _))
    · next hnew =>
      -- The list is read once more for the write, but the members written are those read before the checks.
      refine changesFor_storeMembers hlast ?_
      intro reading writing hstored
      have hnotMember : caller ∉ c.members := fun hold => hnew ((c.isMember_iff caller).mpr hold)
      rw [← List.append_assoc]
      exact .joining harguments hseen (conversation_may ctx caller hmay) hnotMember hstored

private theorem authorised_leave (harguments : ctx.call.arguments = ["leave", name])
    (h : (leave ctx name).run.Conversation ctx.call.id trips r) : Authorised ctx trips := by
  refine ChangesFor.bind h (reads_visibleChannel ctx name).keeps ?_
  rintro ⟨c, caller⟩ first last hsee hlast
  obtain ⟨loading, naming, seeing, rfl, hseen⟩ := conversation_visibleChannel ctx name hsee
  dsimp only at hlast
  split at hlast
  · next hold =>
    refine changesFor_storeMembers hlast ?_
    intro reading writing hstored
    exact .leaving harguments hseen ((c.isMember_iff caller).mp hold) hstored
  · exact .inl (hlast.keeps (keeps_told _))

private theorem authorised_run {subcommand : String} {command : TalkCommand}
    (hsub : ctx.call.subcommand? = some subcommand) (hname : TalkCommand.ofName? subcommand = some command)
    (h : (command.run ctx).run.Conversation ctx.call.id trips r) : Authorised ctx trips := by
  obtain ⟨hjoin, hleave⟩ := eq_of_talkName hname
  unfold TalkCommand.run at h
  split at h
  · exact .inl (h.keeps (asks_say ctx _ _).keeps)
  · next harguments =>
    rw [Call.eq_of_subcommand? hsub harguments, hjoin rfl] at harguments
    exact authorised_join harguments h
  · next harguments =>
    rw [Call.eq_of_subcommand? hsub harguments, hleave rfl] at harguments
    exact authorised_leave harguments h
  · exact .inl (h.keeps (asks_list ctx).keeps)
  · exact .inl (h.keeps (asks_mine ctx).keeps)
  · exact .inl (h.keeps (asks_members ctx _).keeps)
  · exact ChangesFor.of_throw h

/-- Against any store and under any configuration a `chat` request sends at most one request that changes anything.
It is the last one, and before it the caller was shown the channel and admitted to it. -/
theorem changes_authorised {σ : Type} {input : Text.Raw} (config : Config) (wire : Wire σ) (state : σ)
    (hmethod : Plugin.methodOf? input = some "chat") :
    let trips := plugin.trips config wire input state
    trips.map RoundTrip.request = (plugin.serve config wire.exchange input state).sent ∧
      ((∀ t ∈ trips, ¬ t.Changes) ∨ ∃ call before write, Plugin.callOf? input = some call ∧
        trips = before ++ [write] ∧ (∀ t ∈ before, ¬ t.Changes) ∧ MemberChange ⟨call, config⟩ before write) := by
  refine ⟨(plugin.serve_noted config wire input state).1, ?_⟩
  rcases Plugin.trips_cases plugin config wire input state with hnone |
    ⟨call, handler, r, hcall, hhandler, hconversation⟩
  · rw [hnone]
    exact .inl nofun
  · have hchat : call.method = "chat" :=
      Option.some.inj ((Plugin.methodOf?_of_callOf? hcall).symm.trans hmethod)
    obtain ⟨-, subcommand, command, hsub, hname, rfl⟩ | ⟨hadmin, -⟩ | ⟨hguest, -⟩ := handler?_cases hhandler
    · have hauthorised : Authorised ⟨call, config⟩ (plugin.trips config wire input state) :=
        authorised_run hsub hname hconversation
      rcases hauthorised with hquiet | ⟨before, write, after, htrips, hothers, rfl, hchange⟩
      · exact .inl hquiet
      · rw [List.append_nil] at hothers
        exact .inr ⟨call, before, write, hcall, htrips, hothers, hchange⟩
    · simp [hchat] at hadmin
    · simp [hchat] at hguest

def joinLobbyText : Text.Raw := Plugin.textOfCall "chat" "\"join\",\"#lobby\""

def lobbyReplies : List (List UInt8) :=
  let lobby := "\x7b\"name\":\"#lobby\",\"value\":\"[]\",\"type\":\"ATTRLIST\"\x7d"
  [Plugin.bytesOfReply "1" "result" lobby, Plugin.bytesOfReply "2" "result" "\"Alice\"",
    Plugin.bytesOfReply "3" "result" lobby]

/-- Alice joins, and the write comes last. -/
theorem changes_authorised_lobby :
    let trips := plugin.trips Config.standard Wire.canned joinLobbyText lobbyReplies
    Plugin.methodOf? joinLobbyText = some "chat" ∧ (∃ t ∈ trips, t.Changes) ∧
      ∃ call before write, Plugin.callOf? joinLobbyText = some call ∧ trips = before ++ [write] ∧
        MemberChange ⟨call, Config.standard⟩ before write := by
  have hmethod : Plugin.methodOf? joinLobbyText = some "chat" := by
    simp only [joinLobbyText, Plugin.textOfCall, Text.Raw.ofString, String.toList_append, String.reduceToList]
    decide +kernel
  have hchanges : ∃ t ∈ plugin.trips Config.standard Wire.canned joinLobbyText lobbyReplies, t.Changes := by
    simp only [joinLobbyText, Plugin.textOfCall, Text.Raw.ofString, String.toList_append, String.reduceToList]
    decide +kernel
  refine ⟨hmethod, hchanges, ?_⟩
  obtain ⟨-, hquiet | ⟨call, before, write, hcall, htrips, -, hchange⟩⟩ :=
    changes_authorised Config.standard Wire.canned lobbyReplies hmethod
  · obtain ⟨t, ht, hset⟩ := hchanges
    exact absurd hset (hquiet t ht)
  · exact ⟨call, before, write, hcall, htrips, hchange⟩

end WorldPlugins.Chat
