import WorldPlugins.Chat.Guests
import WorldPlugins.Proofs.Chat.Reading

/-! # What the handlers of the chat plugin come to

One lemma for each handler: its result with a store in memory, and the store after it.  Each reads the world
first and ends in at most one change of it, except that making, removing and opening a channel also tells the
caller.
-/

namespace WorldPlugins.Chat

open Session (outcome outcome_bind outcome_ite)

def answered (r : Except RpcError Unit × Store) : Except PluginError Json × Store :=
  ((r.1.mapError .store).map fun _ => .string "", r.2)

def reported (r : Except RpcError Unit × Store) (text : String) : Except PluginError Json × Store :=
  match r with
  | (.ok _, t) => answered (t.tell text none)
  | (.error e, t) => (.error (.store e), t)

variable (ctx : Context) (name player text header : String) (s : Store)

private theorem outcome_answered (api : Api Unit) :
    outcome ((liftM api : Handler Unit) >>= fun _ => Handler.done) s = answered (outcome api s) := by
  rw [outcome_bind, Session.outcome_ofApi, answered]
  rcases outcome api s with ⟨e | ⟨⟩, t⟩ <;> rfl

private theorem outcome_told :
    outcome (do Client.sendToCaller text; Handler.done : Handler Json) s = answered (s.tell text none) := by
  rw [← Store.outcome_sendToCaller]
  exact outcome_answered s _

private theorem outcome_storeMembers (c : Channel) (asExtension : Bool) :
    outcome (do Channel.storeMembers ctx c asExtension; Handler.done : Handler Json) s =
      answered (s.writeField ctx.extension c.name c.membersField) := by
  rw [← Store.outcome_setField ctx.extension c.name asExtension]
  exact outcome_answered s _

private theorem outcome_reported (api : Api Unit) :
    outcome (do let _ ← (liftM api : Handler Unit); Client.sendToCaller text; Handler.done : Handler Json) s =
      reported (outcome api s) text := by
  rw [outcome_bind, Session.outcome_ofApi]
  rcases outcome api s with ⟨e | ⟨⟩, t⟩
  · rfl
  · exact outcome_told text t

/-- The world after telling players a text one after another, whether or not it reached them. -/
def told (text : String) (players : List String) (s : Store) : Store :=
  players.foldl (fun s player => (s.send .sendMessage ⟨player, some text, none, none, none⟩).2) s

theorem outcome_tellAll (players : List String) :
    outcome (tellAll text players) s = (.ok ⟨⟩, told text players s) := by
  induction players generalizing s with
  | nil => rfl
  | cons player players ih =>
    rw [tellAll, outcome_bind, Session.outcome_lift]
    have hsend : (Client.sendMessage player text).run.eval s =
        s.send .sendMessage ⟨player, some text, none, none, none⟩ := Store.outcome_sendMessage player text s
    rw [hsend]
    exact ih _

theorem outcome_say :
    outcome (say ctx name text) s =
      match s.seen ctx.config.privilege ctx.extension name with
      | .error e => (.error e, s)
      | .ok (c, caller) =>
        if c.isMember caller then
          (.ok (.string ""), told ("[" ++ c.name ++ "] " ++ caller ++ ": " ++ text) c.members s)
        else (.error (.refused (.notMember c.name)), s) := by
  rw [say, outcome_bind, outcome_visibleChannel]
  rcases s.seen ctx.config.privilege ctx.extension name with e | ⟨c, caller⟩
  · rfl
  · dsimp only
    rw [outcome_ite]
    split
    · rw [outcome_bind, outcome_tellAll]
      rfl
    · rfl

def joined (p : Privilege) (extension name : String) (s : Store) : Except PluginError Json × Store :=
  match s.seen p extension name with
  | .error e => (.error e, s)
  | .ok (c, caller) =>
    if s.lets p .join c.acl caller then
      if c.isMember caller then answered (s.tell ("You are already a member of " ++ c.name) none)
      else answered (s.writeField extension c.name (c.addMember caller).membersField)
    else (.error (.refused (.mayNotJoin c.name)), s)

theorem outcome_join : outcome (join ctx name) s = joined ctx.config.privilege ctx.extension name s := by
  rw [join, outcome_bind, outcome_visibleChannel, joined]
  rcases s.seen ctx.config.privilege ctx.extension name with e | ⟨c, caller⟩
  · rfl
  · dsimp only
    rw [outcome_bind, Store.outcome_may]
    dsimp only
    rw [outcome_ite, outcome_ite, outcome_told, outcome_storeMembers]
    rfl

def left (p : Privilege) (extension name : String) (s : Store) : Except PluginError Json × Store :=
  match s.seen p extension name with
  | .error e => (.error e, s)
  | .ok (c, caller) =>
    if c.isMember caller then
      answered (s.writeField extension c.name (c.removeMember caller).membersField)
    else answered (s.tell ("You are not a member of " ++ c.name) none)

theorem outcome_leave : outcome (leave ctx name) s = left ctx.config.privilege ctx.extension name s := by
  rw [leave, outcome_bind, outcome_visibleChannel, left]
  rcases s.seen ctx.config.privilege ctx.extension name with e | ⟨c, caller⟩
  · rfl
  · dsimp only
    rw [outcome_ite, outcome_told, outcome_storeMembers]
    rfl

private theorem outcome_tellChannels (channels : List Channel) :
    outcome (tellChannels channels header) s =
      if channels = [] then answered (s.tell "No channels found" none)
      else answered (s.tell (NameList.joinWith '\n' (sortedNames channels)) (some header)) := by
  rw [tellChannels, outcome_ite, outcome_told, ← Store.outcome_sendWithHeader]
  congr 1
  exact outcome_answered s _

def listed (p : Privilege) (extension header : String) (wanted : String → Channel → Bool) (s : Store) :
    Except PluginError Json × Store :=
  match s.fetchCaller with
  | .error e => (.error (.store e), s)
  | .ok caller =>
    match s.visible p caller extension with
    | .error e => (.error e, s)
    | .ok channels =>
      let channels := channels.filter (wanted caller)
      if channels = [] then answered (s.tell "No channels found" none)
      else answered (s.tell (NameList.joinWith '\n' (sortedNames channels)) (some header))

theorem outcome_list :
    outcome (list ctx) s =
      listed ctx.config.privilege ctx.extension "Channels:" (fun _ _ => true) s := by
  rw [list, outcome_bind, Session.outcome_ofApi, Store.outcome_getCallerName, listed]
  cases s.fetchCaller with
  | error e => rfl
  | ok caller =>
    dsimp only [Except.mapError]
    rw [outcome_bind, outcome_visible]
    cases s.visible ctx.config.privilege caller ctx.extension with
    | error e => rfl
    | ok channels =>
      dsimp only
      rw [outcome_tellChannels, List.filter_eq_self.mpr fun _ _ => rfl]

theorem outcome_mine :
    outcome (mine ctx) s =
      listed ctx.config.privilege ctx.extension "Your channels:" (fun caller c => c.isMember caller) s := by
  rw [mine, outcome_bind, Session.outcome_ofApi, Store.outcome_getCallerName, listed]
  cases s.fetchCaller with
  | error e => rfl
  | ok caller =>
    dsimp only [Except.mapError]
    rw [outcome_bind, outcome_visible]
    cases s.visible ctx.config.privilege caller ctx.extension with
    | error e => rfl
    | ok channels => exact outcome_tellChannels _ s _

theorem outcome_members :
    outcome (members ctx name) s =
      match s.seen ctx.config.privilege ctx.extension name with
      | .error e => (.error e, s)
      | .ok (c, caller) =>
        if c.isMember caller then
          answered (s.tell (NameList.joinWith '\n' c.members) (some ("Members of " ++ c.name)))
        else answered (s.tell ("You are not a member of " ++ c.name) none) := by
  rw [members, outcome_bind, outcome_visibleChannel]
  rcases s.seen ctx.config.privilege ctx.extension name with e | ⟨c, caller⟩
  · rfl
  · dsimp only
    rw [outcome_ite, outcome_told, ← Store.outcome_sendWithHeader]
    congr 1
    exact outcome_answered s _

def created (extension name : String) (s : Store) : Except PluginError Json × Store :=
  match s.channel? extension name with
  | .error e => (.error e, s)
  | .ok (some _) => (.error (.refused (.channelExists name)), s)
  | .ok none => reported (s.write extension (Channel.empty name).toAttr) ("Created channel " ++ name)

theorem outcome_create : outcome (Admin.create ctx name) s = created ctx.extension name s := by
  rw [Admin.create, outcome_bind, outcome_find?, created]
  rcases s.channel? ctx.extension name with e | _ | c
  · rfl
  · rw [← Store.outcome_setAttr ctx.extension false]
    exact outcome_reported _ s _
  · rfl

def deleted (extension name : String) (s : Store) : Except PluginError Json × Store :=
  match s.channel? extension name with
  | .error e => (.error e, s)
  | .ok none => (.error (.refused (.channelMissing name)), s)
  | .ok (some _) => reported (s.remove extension name) ("Deleted channel " ++ name)

theorem outcome_delete : outcome (Admin.delete ctx name) s = deleted ctx.extension name s := by
  rw [Admin.delete, outcome_bind, outcome_find?, deleted]
  rcases s.channel? ctx.extension name with e | _ | c
  · rfl
  · rfl
  · rw [← Store.outcome_removeAttr ctx.extension name false]
    exact outcome_reported _ s _

theorem outcome_inspect :
    outcome (Admin.inspect ctx name) s =
      match s.channel ctx.extension name with
      | .error e => (.error e, s)
      | .ok c =>
        answered (s.send .sendMessageToCaller
          ⟨s.caller, none, some "Channel details:", some (Admin.details c), none⟩) := by
  rw [Admin.inspect, outcome_bind, outcome_get]
  cases s.channel ctx.extension name with
  | error e => rfl
  | ok c =>
    dsimp only
    rw [← Store.outcome_sendRecord]
    exact outcome_answered s _

def restricted (extension : String) (action : Action) (name : String) (arguments : List String) (s : Store) :
    Except PluginError Json × Store :=
  match s.channel extension name with
  | .error e => (.error e, s)
  | .ok c =>
    match c.applyArguments action arguments with
    | .error e => (.error (.argument e), s)
    | .ok changed => reported (s.write extension changed.toAttr) ("Updated channel " ++ changed.name)

theorem outcome_setAccess (action : Action) (arguments : List String) :
    outcome (Admin.setAccess ctx action name arguments) s = restricted ctx.extension action name arguments s := by
  rw [Admin.setAccess, outcome_bind, outcome_get, restricted]
  cases s.channel ctx.extension name with
  | error e => rfl
  | ok c =>
    dsimp only
    rw [outcome_bind, Session.outcome_ofArgument]
    cases c.applyArguments action arguments with
    | error e => rfl
    | ok changed =>
      dsimp only [Except.mapError]
      rw [← Store.outcome_setAttr ctx.extension false]
      exact outcome_reported _ s _

private theorem outcome_checkPlayer (x : Handler Json) :
    outcome (do Channel.checkPlayer player; x : Handler Json) s =
      if NameList.isStorable player then outcome x s else (.error (.argument (.playerName player)), s) := by
  rw [outcome_bind, Session.outcome_ofArgument, Channel.checkPlayer]
  by_cases h : NameList.isStorable player = true
  · rw [if_pos h, if_pos h]
    rfl
  · rw [if_neg h, if_neg h]
    rfl

def added (extension player name : String) (s : Store) : Except PluginError Json × Store :=
  if NameList.isStorable player then
    match s.channel extension name with
    | .error e => (.error e, s)
    | .ok c =>
      if c.isMember player then answered (s.tell (player ++ " is already a member of " ++ c.name) none)
      else answered (s.writeField extension c.name (c.addMember player).membersField)
  else (.error (.argument (.playerName player)), s)

theorem outcome_addMember : outcome (Admin.addMember ctx player name) s = added ctx.extension player name s := by
  rw [Admin.addMember, outcome_checkPlayer, outcome_bind, outcome_get, added]
  cases s.channel ctx.extension name with
  | error e => rfl
  | ok c =>
    dsimp only
    rw [outcome_ite, outcome_told, outcome_storeMembers]
    rfl

def removed (extension player name : String) (s : Store) : Except PluginError Json × Store :=
  if NameList.isStorable player then
    match s.channel extension name with
    | .error e => (.error e, s)
    | .ok c =>
      if c.isMember player then
        answered (s.writeField extension c.name (c.removeMember player).membersField)
      else answered (s.tell (player ++ " is not a member of " ++ c.name) none)
  else (.error (.argument (.playerName player)), s)

theorem outcome_removeMember :
    outcome (Admin.removeMember ctx player name) s = removed ctx.extension player name s := by
  rw [Admin.removeMember, outcome_checkPlayer, outcome_bind, outcome_get, removed]
  cases s.channel ctx.extension name with
  | error e => rfl
  | ok c =>
    dsimp only
    rw [outcome_ite, outcome_told, outcome_storeMembers]
    rfl

/-- The guest that an event is about, if it is about the arrival of one. -/
def guest? (event : String) : Option String :=
  match Json.Decoder.members.ofString event with
  | .error _ => none
  | .ok payload =>
    (payload.string? "yoinkedThingName").filter fun name =>
      isGuestName name && payload.string? "yoinkedThingType" == some "Player"

def admitted (extension guest : String) (s : Store) : Except PluginError Json × Store :=
  match s.channel extension guestChannel with
  | .error e => (.error e, s)
  | .ok c =>
    if c.isMember guest then (.ok (.string ""), s)
    else answered (s.writeField extension c.name (c.addMember guest).membersField)

private theorem outcome_checkCount (expected : Nat) (x : Handler Json) :
    outcome (do ctx.call.checkCount expected; x : Handler Json) s =
      if ctx.call.arguments.length = expected then outcome x s
      else (.error (.argument (.count expected ctx.call.arguments.length)), s) := by
  rw [outcome_bind, Session.outcome_ofArgument, Call.checkCount]
  by_cases h : ctx.call.arguments.length = expected
  · rw [if_pos h, if_pos h]
    rfl
  · rw [if_neg h, if_neg h]
    rfl

theorem outcome_welcome :
    outcome (welcome ctx) s =
      match ctx.call.arguments with
      | [event] =>
        match Json.Decoder.members.ofString event with
        | .error e => (.error (.argument (.badPayload e)), s)
        | .ok payload =>
          match payload.string? "yoinkedThingName" with
          | none => (.error (.argument (.noPayloadField "yoinkedThingName")), s)
          | some name =>
            if isGuestName name && payload.string? "yoinkedThingType" == some "Player" then
              admitted ctx.extension name s
            else (.ok (.string ""), s)
      | arguments => (.error (.argument (.count 1 arguments.length)), s) := by
  rw [welcome, outcome_checkCount]
  match hargs : ctx.call.arguments with
  | [] => rfl
  | _ :: _ :: rest => simp
  | [event] =>
    rw [if_pos List.length_singleton, outcome_bind, Session.outcome_ofArgument, Call.eventPayload, Call.subcommand?,
      Call.argument?, hargs, List.getElem?_cons_zero]
    dsimp only
    cases Json.Decoder.members.ofString event with
    | error e => rfl
    | ok payload =>
      dsimp only [Except.mapError]
      cases payload.string? "yoinkedThingName" with
      | none => rfl
      | some name =>
        dsimp only
        rw [outcome_ite]
        split
        · rw [outcome_bind, outcome_get, admitted]
          cases s.channel ctx.extension guestChannel with
          | error e => rfl
          | ok c =>
            dsimp only
            rw [outcome_ite, outcome_storeMembers]
            rfl
        · rfl

end WorldPlugins.Chat
