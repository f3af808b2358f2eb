import WorldPlugins.Proofs.Calendar.RoundTrips
import WorldPlugins.Proofs.Chat.Commands
import WorldPlugins.Proofs.Chat.RoundTrips
import WorldPlugins.Proofs.Store.Orderly

/-! # Calls that fail

Whatever input the plugins get and whichever methods of the store are made to fail, a call changes at most the one
attribute that it names.  A call that fails has told nobody anything, and has changed nothing unless it could not
confirm its change.
-/

namespace WorldPlugins

open Session (AsksOnly Careful outcome outcome_bind outcome_ofApi careful_bind careful_pure careful_throw careful_told
  careful_reported careful_of_outcome)
open Store (Orderly)

variable {target : Option (String × String)} {s : Store}

/-- An input is served in order if every handler that it may have keeps the world in order. -/
private theorem orderly_serve {plugin : Plugin} {config : Config} {input : Text.Raw}
    (h : ∀ call handler, Plugin.callOf? input = some call → plugin.handler? config call = some handler →
      Careful target s handler.run) :
    let played := plugin.serve config Store.exchange input s
    Orderly target s played.state played.value.isSuccess played.sent := by
  unfold Plugin.serve
  cases hselected : (Plugin.callOf? input).bind (plugin.handler? config) with
  | none =>
    obtain ⟨response, -, hroute⟩ := Plugin.route_unhandled hselected
    rw [hroute]
    exact Orderly.refl target s _ _
  | some handler =>
    obtain ⟨call, hcall, hhandler⟩ := Option.bind_eq_some_iff.mp hselected
    obtain ⟨id, hroute⟩ := Plugin.route_handled hcall hhandler
    rw [hroute]
    dsimp only
    rw [Session.run_bind]
    simp only [Session.pure_eq_done, Session.run_done, List.append_nil, Plugin.isSuccess_respond]
    exact h call handler hcall hhandler call.id 1

namespace Chat

def Command.channel? : Command → Option String
  | .create name => some name
  | .delete name => some name
  | .restrict _ name _ => some name
  | .add _ name => some name
  | .remove _ name => some name
  | .join name => some name
  | .leave name => some name
  | .welcome _ => some guestChannel
  | .observe => none

/-- The thing and the name of the attribute that a call may change. -/
def target? (call : Call) : Option (String × String) :=
  (Command.ofCall call).channel?.map fun name => (call.extension, name)

/-- Only the method and the arguments of a call decide what it may change. -/
private theorem target?_of_arguments {call : Call} {method name : String} {arguments : List String}
    (hmethod : call.method = method) (harguments : call.arguments = arguments)
    (hchannel : (Command.ofCall ⟨call.id, method, call.extension, arguments⟩).channel? = some name) :
    target? call = some (call.extension, name) := by
  subst hmethod harguments
  rw [target?, hchannel]
  rfl

variable {ctx : Context} {name : String}

private theorem careful_sendToCaller (text : String) :
    Careful target s (do Client.sendToCaller text; Handler.done : Handler Json).run :=
  careful_told (Session.delivers_order (.inr rfl) _ s)

private theorem careful_storeMembers {c : Channel} (hc : s.channel ctx.extension name = .ok c) (names : List String)
    (asExtension : Bool) :
    Careful (some (ctx.extension, name)) s
      (do Channel.storeMembers ctx { c with members := names } asExtension; Handler.done : Handler Json).run := by
  obtain ⟨a, b, hattr, hfield, hwrite⟩ := writeField_of_channel hc names
  have hfound : a.name = name := s.name_of_attr? ctx.extension name hattr
  have hname : b.name = name := by
    obtain ⟨fields, -, rfl⟩ := (Attr.withField_eq_ok_iff a _ b).mp hfield
    exact hfound
  -- Nothing is asked for after the write, so a call that fails here has not written.
  refine careful_of_outcome fun requests => ?_
  have hstored : outcome (Channel.storeMembers ctx { c with members := names } asExtension) s =
      ((s.writeField ctx.extension c.name (Channel.namesField Channel.membersKey names)).1.mapError .store,
        (s.writeField ctx.extension c.name (Channel.namesField Channel.membersKey names)).2) := by
    rw [Channel.storeMembers, outcome_ofApi, Store.outcome_setField]
    rfl
  rw [outcome_bind, hstored, hwrite]
  cases s.fault? .setAttr with
  | some e => exact Orderly.refl _ s _ requests
  | none =>
    have hchanged := Store.changedAt_withAttr s ctx.extension b
    rw [hname] at hchanged
    exact ⟨.inr ⟨_, _, rfl, hchanged⟩, rfl, nofun⟩

private theorem careful_say (text : String) : Careful target s (say ctx name text).run := by
  refine careful_bind (reads_visibleChannel ctx name) ?_
  rintro ⟨c, caller⟩ -
  dsimp only
  split
  · refine careful_of_outcome fun requests => ?_
    rw [outcome_bind, outcome_tellAll]
    obtain ⟨messages, htold⟩ := told_told ("[" ++ c.name ++ "] " ++ caller ++ ": " ++ text) c.members s
    dsimp only
    rw [htold]
    exact Orderly.delivered target s _ requests
  · exact careful_throw target s _

private theorem careful_join : Careful (some (ctx.extension, name)) s (join ctx name).run := by
  refine careful_bind (reads_visibleChannel ctx name) ?_
  rintro ⟨c, caller⟩ hseen
  rw [outcome_visibleChannel] at hseen
  have hc := ((s.seen_eq_ok_iff _ _ _ c caller).mp hseen).1
  refine careful_bind (reads_may ctx caller .join c.acl) ?_
  intro joins hjoins
  cases joins with
  | false => exact careful_throw _ s _
  | true =>
    rw [if_pos rfl]
    split
    · exact careful_sendToCaller _
    · exact careful_storeMembers hc _ true

private theorem careful_leave : Careful (some (ctx.extension, name)) s (leave ctx name).run := by
  refine careful_bind (reads_visibleChannel ctx name) ?_
  rintro ⟨c, caller⟩ hseen
  rw [outcome_visibleChannel] at hseen
  have hc := ((s.seen_eq_ok_iff _ _ _ c caller).mp hseen).1
  dsimp only
  split
  · exact careful_storeMembers hc _ true
  · exact careful_sendToCaller _

private theorem careful_tellChannels (channels : List Channel) (header : String) :
    Careful target s (tellChannels channels header).run := by
  unfold tellChannels
  split
  · exact careful_sendToCaller _
  · exact careful_told (Session.delivers_order (.inr rfl) _ s)

private theorem careful_list : Careful target s (list ctx).run :=
  careful_bind Client.reads_getCallerName.ofApi fun caller _ =>
    careful_bind (reads_visible ctx caller) fun channels _ => careful_tellChannels channels _

private theorem careful_mine : Careful target s (mine ctx).run :=
  careful_bind Client.reads_getCallerName.ofApi fun caller _ =>
    careful_bind (reads_visible ctx caller) fun _ _ => careful_tellChannels _ _

private theorem careful_members : Careful target s (members ctx name).run := by
  refine careful_bind (reads_visibleChannel ctx name) ?_
  rintro ⟨c, caller⟩ -
  dsimp only
  split
  · exact careful_told (Session.delivers_order (.inr rfl) _ s)
  · exact careful_sendToCaller _

private theorem careful_talk {subcommand : String} {command : TalkCommand} (hmethod : ctx.call.method = "chat")
    (hsub : ctx.call.subcommand? = some subcommand) (hname : TalkCommand.ofName? subcommand = some command) :
    Careful (target? ctx.call) s (command.run ctx).run := by
  obtain ⟨hjoin, hleave⟩ := eq_of_talkName hname
  unfold TalkCommand.run
  split
  · exact careful_say _
  · next name harguments =>
    rw [Call.eq_of_subcommand? hsub harguments, hjoin rfl] at harguments
    rw [target?_of_arguments hmethod harguments rfl]
    exact careful_join
  · next name harguments =>
    rw [Call.eq_of_subcommand? hsub harguments, hleave rfl] at harguments
    rw [target?_of_arguments hmethod harguments rfl]
    exact careful_leave
  · exact careful_list
  · exact careful_mine
  · exact careful_members
  · exact careful_throw _ s _

private theorem careful_create : Careful (some (ctx.extension, name)) s (Admin.create ctx name).run := by
  refine careful_bind (reads_find? ctx name) fun found _ => ?_
  cases found with
  | some c => exact careful_throw _ s _
  | none => exact careful_reported (Session.changesOne_setAttr _ (Channel.empty name).toAttr _ s) _

private theorem careful_delete : Careful (some (ctx.extension, name)) s (Admin.delete ctx name).run := by
  refine careful_bind (reads_find? ctx name) fun found _ => ?_
  cases found with
  | none => exact careful_throw _ s _
  | some c => exact careful_reported (Session.changesOne_removeAttr _ name _ s) _

private theorem careful_inspect : Careful target s (Admin.inspect ctx name).run :=
  careful_bind (reads_get ctx name) fun _ _ => careful_told (Session.delivers_order (.inr rfl) _ s)

private theorem careful_setAccess (action : Action) (arguments : List String) :
    Careful (some (ctx.extension, name)) s (Admin.setAccess ctx action name arguments).run := by
  refine careful_bind (reads_get ctx name) fun c hc => ?_
  rw [outcome_get] at hc
  obtain ⟨-, -, -, -, hname⟩ := stored_of_channel hc
  refine careful_bind trivial fun changed hchanged => ?_
  rw [Session.outcome_ofArgument] at hchanged
  have hsame : changed.name = name :=
    (Channel.name_applyArguments ((mapError_eq_ok_iff _ _ _).mp hchanged)).trans hname
  have hchange := Session.changesOne_setAttr ctx.extension changed.toAttr false s
  have hstored : changed.toAttr.name = name := hsame
  rw [hstored] at hchange
  exact careful_reported hchange _

private theorem careful_addMember (player : String) :
    Careful (some (ctx.extension, name)) s (Admin.addMember ctx player name).run := by
  refine careful_bind trivial fun _ _ => ?_
  refine careful_bind (reads_get ctx name) fun c hc => ?_
  rw [outcome_get] at hc
  split
  · exact careful_sendToCaller _
  · exact careful_storeMembers hc _ false

private theorem careful_removeMember (player : String) :
    Careful (some (ctx.extension, name)) s (Admin.removeMember ctx player name).run := by
  refine careful_bind trivial fun _ _ => ?_
  refine careful_bind (reads_get ctx name) fun c hc => ?_
  rw [outcome_get] at hc
  split
  · exact careful_storeMembers hc _ false
  · exact careful_sendToCaller _

private theorem careful_admin {subcommand : String} {command : AdminCommand} (hmethod : ctx.call.method = "chatadmin")
    (hsub : ctx.call.subcommand? = some subcommand) (hname : AdminCommand.ofName? subcommand = some command) :
    Careful (target? ctx.call) s (command.run ctx).run := by
  obtain ⟨hcreate, hdelete, hsee, hjoin, hadd, hremove⟩ := eq_of_adminName hname
  unfold AdminCommand.run
  split
  · next name harguments =>
    rw [Call.eq_of_subcommand? hsub harguments, hcreate rfl] at harguments
    rw [target?_of_arguments hmethod harguments rfl]
    exact careful_create
  · next name harguments =>
    rw [Call.eq_of_subcommand? hsub harguments, hdelete rfl] at harguments
    rw [target?_of_arguments hmethod harguments rfl]
    exact careful_delete
  · exact careful_inspect
  · next action first name argument arguments harguments =>
    cases action with
    | see =>
      rw [Call.eq_of_subcommand? hsub harguments, hsee rfl] at harguments
      rw [target?_of_arguments hmethod harguments rfl]
      exact careful_setAccess .see _
    | join =>
      rw [Call.eq_of_subcommand? hsub harguments, hjoin rfl] at harguments
      rw [target?_of_arguments hmethod harguments rfl]
      exact careful_setAccess .join _
  · next player name harguments =>
    rw [Call.eq_of_subcommand? hsub harguments, hadd rfl] at harguments
    rw [target?_of_arguments hmethod harguments rfl]
    exact careful_addMember player
  · next player name harguments =>
    rw [Call.eq_of_subcommand? hsub harguments, hremove rfl] at harguments
    rw [target?_of_arguments hmethod harguments rfl]
    exact careful_removeMember player
  · exact careful_throw _ s _

/-- A call that counts one argument and gives a payload has it in that argument. -/
private theorem payload_of_arguments {call : Call} {payload : Json.Members} (hcount : call.checkCount 1 = .ok ())
    (hpayload : call.eventPayload = .ok payload) :
    ∃ event, call.arguments = [event] ∧ Json.Decoder.members.ofString event = .ok payload := by
  unfold Call.checkCount at hcount
  split at hcount
  · next hlength =>
    obtain ⟨event, harguments⟩ := List.length_eq_one_iff.mp hlength
    refine ⟨event, harguments, ?_⟩
    rw [Call.eventPayload, Call.subcommand?, Call.argument?, harguments] at hpayload
    exact (mapError_eq_ok_iff _ _ _).mp hpayload
  · cases hcount

private theorem careful_welcome (hmethod : ctx.call.method = "chatguestautojoin") :
    Careful (target? ctx.call) s (welcome ctx).run := by
  refine careful_bind trivial fun _ hcount => ?_
  refine careful_bind trivial fun payload hpayload => ?_
  rw [Session.outcome_ofArgument] at hcount hpayload
  obtain ⟨event, harguments, hread⟩ := payload_of_arguments ((mapError_eq_ok_iff _ _ _).mp hcount)
    ((mapError_eq_ok_iff _ _ _).mp hpayload)
  cases hguest : payload.string? "yoinkedThingName" with
  | none => exact careful_throw _ s _
  | some guest =>
    dsimp only
    split
    · next hplayer =>
      have htarget : target? ctx.call = some (ctx.extension, guestChannel) := by
        rw [target?, Command.ofCall, hmethod, harguments]
        simp only [guest?, hread, hguest, Option.filter_some, hplayer, if_true]
        rfl
      rw [htarget]
      refine careful_bind (reads_get ctx guestChannel) fun c hc => ?_
      rw [outcome_get] at hc
      split
      · exact careful_pure _ s _
      · exact careful_storeMembers hc _ true
    · exact careful_pure _ s _

end Chat

namespace Calendar

def target? (call : Call) : Option (String × String) :=
  match call.method, call.arguments with
  | "event", ["create", name, _, _, _] => some (call.extension, Event.storedName name)
  | "event", ["delete", name] => some (call.extension, Event.storedName name)
  | _, _ => none

private theorem target?_of_arguments {call : Call} {method name : String} {arguments : List String}
    (hmethod : call.method = method) (harguments : call.arguments = arguments)
    (hevent : target? ⟨call.id, method, call.extension, arguments⟩ = some (call.extension, name)) :
    target? call = some (call.extension, name) := by
  subst hmethod harguments
  exact hevent

variable {ctx : Context} {name : String}

private theorem careful_create [Time.ZoneData] (description start location : String) :
    Careful (some (ctx.extension, Event.storedName name)) s (create ctx name description start location).run := by
  refine careful_bind (Client.reads_hasAttr ctx.extension (Event.storedName name) true).ofApi fun has _ => ?_
  cases has with
  | true => exact careful_throw _ s _
  | false =>
    refine careful_bind Client.reads_getCallerName.ofApi fun owner _ => ?_
    refine careful_bind reads_callerZone fun zone _ => ?_
    dsimp only
    split
    · exact careful_throw _ s _
    · next moment _ =>
      exact careful_reported
        (Session.changesOne_setAttr _ (Event.toAttr ⟨name, description, moment.seconds, location, some owner⟩) _ s) _

private theorem careful_list [Time.ZoneData] : Careful target s (list ctx).run := by
  refine careful_bind reads_callerZone fun zone _ => ?_
  refine careful_bind (Client.reads_getAttrNames ctx.extension true).ofApi fun names _ => ?_
  split
  · exact careful_told (Session.delivers_order (.inr rfl) _ s)
  · refine careful_bind (reads_loadAll ctx _) fun events _ => ?_
    exact careful_told (Session.delivers_order (.inr rfl) _ s)

private theorem careful_get [Time.ZoneData] : Careful target s (get ctx name).run := by
  refine careful_bind (reads_load ctx name) fun event _ => ?_
  refine careful_bind reads_callerZone fun zone _ => ?_
  exact careful_told (Session.delivers_order (.inr rfl) _ s)

private theorem careful_delete :
    Careful (some (ctx.extension, Event.storedName name)) s (delete ctx name).run := by
  refine careful_bind (reads_load ctx name) fun event _ => ?_
  refine careful_bind Client.reads_getCallerName.ofApi fun caller _ => ?_
  split
  · exact careful_throw _ s _
  · split
    · exact careful_reported (Session.changesOne_removeAttr _ (Event.storedName name) _ s) _
    · exact careful_throw _ s _

private theorem careful_event [Time.ZoneData] {subcommand : String} {command : EventCommand}
    (hmethod : ctx.call.method = "event") (hsub : ctx.call.subcommand? = some subcommand)
    (hname : EventCommand.ofName? subcommand = some command) :
    Careful (target? ctx.call) s (command.run ctx).run := by
  obtain ⟨hcreate, hdelete⟩ := eq_of_eventName hname
  unfold EventCommand.run
  split
  · next name description start location harguments =>
    rw [Call.eq_of_subcommand? hsub harguments, hcreate rfl] at harguments
    rw [target?_of_arguments hmethod harguments rfl]
    exact careful_create description start location
  · exact careful_list
  · exact careful_get
  · next name harguments =>
    rw [Call.eq_of_subcommand? hsub harguments, hdelete rfl] at harguments
    rw [target?_of_arguments hmethod harguments rfl]
    exact careful_delete
  · exact careful_throw _ s _

end Calendar

/-- Whatever bytes arrive and whichever methods of the store are made to fail, a call of either plugin changes at most
the attribute that it names.  If it fails, nobody was told anything, and that attribute did not change either, unless
only telling the caller of it failed. -/
theorem failures_leave_world_in_order [Time.ZoneData] (config : Config) (bytes : List UInt8) (s : Store) :
    let input := Text.decode bytes
    let chat := Chat.plugin.serve config Store.exchange input s
    let event := Calendar.plugin.serve config Store.exchange input s
    Orderly ((Plugin.callOf? input).bind Chat.target?) s chat.state chat.value.isSuccess chat.sent ∧
      Orderly ((Plugin.callOf? input).bind Calendar.target?) s event.state event.value.isSuccess event.sent := by
  intro input
  constructor
  · refine orderly_serve fun call handler hcall hhandler => ?_
    rw [hcall]
    rcases Chat.handler?_cases hhandler with ⟨hmethod, subcommand, command, hsub, hname, rfl⟩ |
      ⟨hmethod, subcommand, command, hsub, hname, rfl⟩ | ⟨hmethod, rfl⟩
    · exact @Chat.careful_talk s ⟨call, config⟩ _ _ hmethod hsub hname
    · exact @Chat.careful_admin s ⟨call, config⟩ _ _ hmethod hsub hname
    · exact @Chat.careful_welcome s ⟨call, config⟩ hmethod
  · refine orderly_serve fun call handler hcall hhandler => ?_
    rw [hcall]
    obtain ⟨hmethod, subcommand, command, hsub, hname, rfl⟩ := Calendar.handler?_cases hhandler
    exact @Calendar.careful_event s ⟨call, config⟩ _ _ _ hmethod hsub hname

end WorldPlugins
