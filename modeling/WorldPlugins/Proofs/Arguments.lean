import WorldPlugins.Proofs.Calendar.Event
import WorldPlugins.Proofs.Classification
import WorldPlugins.Proofs.Except
import WorldPlugins.Proofs.NameList
import WorldPlugins.Proofs.Rpc.Methods
import WorldPlugins.Proofs.Usage

/-! # Arguments are looked at before the store is asked

A call with arguments that the manual does not allow is answered at once, and the answer says what is wrong with them.
Any other call goes to the store, but for the arrival of a thing that is no guest.
-/

namespace WorldPlugins

open Plugin (Requests Reaches Stops written writtenError)

section Meets

variable {α β : Type} {ctx : Context} {name : String} {extension : String} {ps : List (ArgumentKind × String)}

/-- How a handler meets arguments with these things wrong: it fails with one of them.  If nothing is wrong, it is done
at once where there is nothing to do, and asks the store otherwise. -/
inductive Meets (extension : String) (rejects : ArgumentError → Prop) (idle : Prop) (x : Handler Json) : Prop
  | fails {cause : ArgumentError} (hcause : rejects cause) (h : x.run = .done (.error (.argument cause)))
  | rests (hfine : ∀ cause, ¬ rejects cause) (hidle : idle) (h : x.run = .done (.ok (.string "")))
  | asks (hfine : ∀ cause, ¬ rejects cause) (hbusy : ¬ idle) (h : extension ≠ "" → x.run.AsksFirst)

abbrev MeetsEach (extension : String) (ps : List (ArgumentKind × String)) (x : Handler Json) : Prop :=
  Meets extension (Rejected ps) (OfNoGuest ps) x

abbrev Usage.MetBy (u : Usage) (call : Call) (x : Handler Json) : Prop :=
  Meets call.extension (u.Rejects call.arguments) (OfNoGuest (u.kinds.zip call.arguments)) x

structure LooksUp (ctx : Context) (name : String) (x : Handler α) : Prop where
  fails : ¬ ArgumentKind.channel.Fits name → x.run = .done (.error (.argument .channelName))
  asks : ArgumentKind.channel.Fits name → ctx.extension ≠ "" → x.run.AsksFirst

theorem fits_channel_iff (name : String) :
    ArgumentKind.channel.Fits name ↔ Chat.Channel.isChannelName name = true := by
  rw [Chat.Channel.isChannelName, decide_eq_true_iff]
  rfl

theorem fits_player_iff (name : String) : ArgumentKind.player.Fits name ↔ NameList.isStorable name = true :=
  (NameList.isStorable_iff name).symm

theorem looksUp_find? (ctx : Context) (name : String) : LooksUp ctx name (Chat.Channel.find? ctx name) := by
  unfold Chat.Channel.find?
  constructor
  · intro hname
    rw [if_neg (mt (fits_channel_iff name).mpr hname)]
    rfl
  · intro hname hextension
    have hnonempty : name ≠ "" := by
      rintro rfl
      cases hname
    rw [if_pos ((fits_channel_iff name).mp hname)]
    exact (Client.asksFirst_getAttr hextension hnonempty true).lift.bindExcept _

theorem LooksUp.bind {x : Handler α} (h : LooksUp ctx name x) (f : α → Handler β) : LooksUp ctx name (x >>= f) := by
  constructor
  · intro hname
    rw [ExceptT.run_bind, h.fails hname]
    rfl
  · intro hname hextension
    exact (h.asks hname hextension).bindExcept f

/-- Only what is no mere word can be wrong. -/
private theorem rejected_filter (ps : List (ArgumentKind × String)) (cause : ArgumentError) :
    Rejected (ps.filter fun p => p.1 ≠ .word) cause ↔ Rejected ps cause := by
  constructor
  · rintro ⟨p, hp, h⟩
    exact ⟨p, (List.mem_filter.mp hp).1, h⟩
  · rintro ⟨⟨kind, text⟩, hp, h⟩
    refine ⟨_, List.mem_filter.mpr ⟨hp, ?_⟩, h⟩
    cases h <;> rfl

private theorem ofNoGuest_filter (ps : List (ArgumentKind × String)) :
    OfNoGuest (ps.filter fun p => p.1 ≠ .word) ↔ OfNoGuest ps := by
  constructor
  · rintro ⟨text, members, name, hp, h⟩
    exact ⟨text, members, name, (List.mem_filter.mp hp).1, h⟩
  · rintro ⟨text, members, name, hp, h⟩
    exact ⟨text, members, name, List.mem_filter.mpr ⟨hp, rfl⟩, h⟩

/-- Mere words are met like nothing at all. -/
theorem MeetsEach.of_filter {x : Handler Json} {qs : List (ArgumentKind × String)}
    (hps : ps.filter (fun p => p.1 ≠ .word) = qs) (h : MeetsEach extension qs x) : MeetsEach extension ps x := by
  subst hps
  cases h with
  | fails hcause h => exact .fails ((rejected_filter ps _).mp hcause) h
  | rests hfine hidle h =>
    exact .rests (fun cause => mt (rejected_filter ps cause).mpr (hfine cause)) ((ofNoGuest_filter ps).mp hidle) h
  | asks hfine hbusy h =>
    exact .asks (fun cause => mt (rejected_filter ps cause).mpr (hfine cause)) (mt (ofNoGuest_filter ps).mpr hbusy) h

/-- Arguments that will do are met by asking, unless something may have arrived. -/
theorem meets_of_fits {x : Handler Json} (hfits : ∀ p ∈ ps, p.1.Fits p.2) (harrival : ∀ text, (.arrival, text) ∉ ps)
    (h : extension ≠ "" → x.run.AsksFirst) : MeetsEach extension ps x := by
  refine .asks (not_rejected_of_fits hfits) ?_ h
  rintro ⟨text, members, name, hp, -⟩
  exact harrival text hp

theorem meets_words {x : Handler Json} (h : extension ≠ "" → x.run.AsksFirst) : MeetsEach extension [] x :=
  meets_of_fits (by simp) (by simp) h

theorem LooksUp.meets {x : Handler Json} (h : LooksUp ctx name x) :
    MeetsEach ctx.extension [(.channel, name)] x := by
  by_cases hname : ArgumentKind.channel.Fits name
  · exact meets_of_fits (by simpa using hname) (by simp) (h.asks hname)
  · exact .fails ⟨_, List.mem_cons_self, .channel hname⟩ (h.fails hname)

/-- The name of a player is looked at before that of a channel. -/
theorem LooksUp.meets_player {x : Handler Json} (h : LooksUp ctx name x) (player : String) :
    MeetsEach ctx.extension [(.player, player), (.channel, name)] (do Chat.Channel.checkPlayer player; x) := by
  unfold Chat.Channel.checkPlayer
  by_cases hplayer : ArgumentKind.player.Fits player
  · rw [if_pos ((fits_player_iff player).mp hplayer)]
    by_cases hname : ArgumentKind.channel.Fits name
    · exact meets_of_fits (by simpa using ⟨hplayer, hname⟩) (by simp) (h.asks hname)
    · exact .fails ⟨_, List.mem_cons_of_mem _ List.mem_cons_self, .channel hname⟩ (h.fails hname)
  · rw [if_neg (mt (fits_player_iff player).mpr hplayer)]
    exact .fails ⟨_, List.mem_cons_self, .player hplayer⟩ rfl

end Meets

section Places

variable {u : Usage} {call : Call} {n : Nat} {x : (Fin n → String) → Handler Json}

private theorem zip_places {kinds : List ArgumentKind} {arguments : List String} (hkinds : kinds.length = n)
    (h : n ≤ arguments.length) :
    kinds.zip (List.ofFn fun i : Fin n => arguments.get (i.castLE h)) = kinds.zip arguments := by
  apply List.ext_getElem
  · simp
    omega
  · intro i hi hi'
    simp

/-- Enough arguments are met as those that are looked at by place. -/
private theorem MeetsEach.of_places {y : Handler Json} (hkinds : u.kinds.length = n) (h : n ≤ call.arguments.length)
    (hcount : u.Takes call.arguments.length)
    (hy : MeetsEach call.extension (u.kinds.zip (List.ofFn fun i : Fin n => call.arguments.get (i.castLE h))) y) :
    u.MetBy call y := by
  have hrejects : u.Rejects call.arguments = Rejected (u.kinds.zip call.arguments) := by
    funext cause
    exact propext (Usage.rejects_iff hcount cause)
  rw [zip_places hkinds h] at hy
  rw [Usage.MetBy, hrejects]
  exact hy

/-- A handler that takes its arguments by place meets any arguments if it does so when there are enough. -/
theorem meets_exactly (hkinds : u.kinds.length = n) (hclosed : u.openEnded = false)
    (hx : ∀ a, MeetsEach call.extension (u.kinds.zip (List.ofFn a)) (x a)) : u.MetBy call (call.exactly n x) := by
  unfold Call.exactly
  subst hkinds
  split
  · next h => exact (hx _).of_places rfl h.ge (by simpa [Usage.Takes, hclosed] using h)
  · next h => exact .fails (.count hclosed h) rfl

theorem meets_atLeast (hkinds : u.kinds.length = n) (hopen : u.openEnded = true)
    (hx : ∀ a, MeetsEach call.extension (u.kinds.zip (List.ofFn a)) (x a)) : u.MetBy call (call.atLeast n x) := by
  unfold Call.atLeast
  subst hkinds
  split
  · next h => exact (hx _).of_places rfl h (by simpa [Usage.Takes, hopen] using h)
  · next h => exact .fails (.tooFew hopen (Nat.lt_of_not_le h)) rfl

end Places

namespace Chat

variable (ctx : Context)

theorem looksUp_get (name : String) : LooksUp ctx name (Channel.get ctx name) := (looksUp_find? ctx name).bind _

theorem looksUp_visibleChannel (name : String) : LooksUp ctx name (visibleChannel ctx name) :=
  (looksUp_get ctx name).bind _

theorem asksFirst_caller {α : Type} (f : String → Handler α) :
    (do let caller ← Client.getCallerName; f caller : Handler α).run.AsksFirst :=
  Client.asksFirst_getCallerName.ofApi.bindExcept f

theorem meets_talk (command : TalkCommand) : command.usage.MetBy ctx.call (command.run ctx) := by
  rw [TalkCommand.run_eq_byPlace]
  cases command with
  | list | mine =>
    dsimp only [TalkCommand.byPlace]
    refine meets_exactly rfl rfl fun a => ?_
    exact (meets_words fun _ => asksFirst_caller _).of_filter rfl
  | _ =>
    dsimp only [TalkCommand.byPlace]
    refine meets_exactly rfl rfl fun a => ?_
    exact ((looksUp_visibleChannel ctx (a 1)).bind _).meets.of_filter rfl

theorem meets_admin (command : AdminCommand) : command.usage.MetBy ctx.call (command.run ctx) := by
  rw [AdminCommand.run_eq_byPlace]
  cases command with
  | create | delete =>
    dsimp only [AdminCommand.byPlace]
    refine meets_exactly rfl rfl fun a => ?_
    exact ((looksUp_find? ctx (a 1)).bind _).meets.of_filter rfl
  | inspect =>
    dsimp only [AdminCommand.byPlace]
    refine meets_exactly rfl rfl fun a => ?_
    exact ((looksUp_get ctx (a 1)).bind _).meets.of_filter rfl
  | setAccess action =>
    dsimp only [AdminCommand.byPlace]
    refine meets_atLeast rfl rfl fun a => ?_
    exact ((looksUp_get ctx (a 1)).bind _).meets.of_filter rfl
  | addMember | removeMember =>
    dsimp only [AdminCommand.byPlace]
    refine meets_exactly rfl rfl fun a => ?_
    exact (((looksUp_get ctx (a 2)).bind _).meets_player (a 1)).of_filter rfl

private theorem ofArgument_ok {α : Type} (a : α) :
    (liftM (Except.ok a : Except ArgumentError α) : Handler α) = pure a := rfl

/-- The event is read first, then the name in it; only a guest who is a player is taken to the channel. -/
theorem meets_arrival {text : String} (harguments : ctx.call.arguments = [text]) :
    MeetsEach ctx.extension [(.arrival, text)] (welcome ctx) := by
  have hcount : ctx.call.checkCount 1 = .ok () := by
    rw [Call.checkCount, harguments]
    rfl
  have hpayload : ctx.call.eventPayload = (Json.Decoder.members.ofString text).mapError .badPayload := by
    rw [Call.eventPayload, Call.subcommand?_cons harguments]
  cases hread : Json.Decoder.members.ofString text with
  | error cause =>
    rw [hread] at hpayload
    refine .fails ⟨_, List.mem_singleton_self _, .noObject hread⟩ ?_
    rw [welcome, hcount, hpayload]
    rfl
  | ok members =>
    rw [hread] at hpayload
    have hany := Json.Decoder.ofString_members_eq_ok_iff.mp hread
    simp only [welcome, hcount, hpayload, Except.mapError, ofArgument_ok, pure_bind]
    cases hname : members.string? "yoinkedThingName" with
    | none =>
      refine .fails ⟨_, List.mem_singleton_self _, .noName hany ?_⟩ rfl
      rintro name ⟨-, hmember⟩
      cases ((Json.Members.string?_eq_some_iff _ _ _).mpr hmember).symm.trans hname
    | some name =>
      have harrival : Arrival text members name := ⟨hany, (Json.Members.string?_eq_some_iff _ _ _).mp hname⟩
      have hfine : ∀ cause, ¬ Rejected [(.arrival, text)] cause :=
        not_rejected_of_fits (by simpa using harrival.fits)
      have hguest : (isGuestName name && members.string? "yoinkedThingType" == some "Player") = true ↔
          "guest".toList <+: name.toList ∧ Keyed.get? members "yoinkedThingType" = some (.string "Player") := by
        rw [Bool.and_eq_true, isGuestName, List.isPrefixOf_iff_prefix, beq_iff_eq,
          Json.Members.string?_eq_some_iff]
      dsimp only
      split
      · next h =>
        have hbusy : ¬ OfNoGuest [(.arrival, text)] := fun hother => harrival.ofNoGuest_iff.mp hother (hguest.mp h)
        exact .asks hfine hbusy (((looksUp_get ctx guestChannel).bind _).asks rfl)
      · next h => exact .rests hfine (harrival.ofNoGuest_iff.mpr (mt hguest.mpr h)) rfl

theorem meets_welcome : welcomeUsage.MetBy ctx.call (welcome ctx) := by
  rw [welcome_eq_byPlace]
  refine meets_exactly rfl rfl fun a => ?_
  exact meets_arrival ⟨{ ctx.call with arguments := [a 0] }, ctx.config⟩ rfl

end Chat

namespace Calendar

variable (ctx : Context)

theorem asksFirst_load {name : String} (hextension : ctx.extension ≠ "") : (load ctx name).run.AsksFirst :=
  (Client.asksFirst_getAttr hextension (Event.storedName_ne_empty name) true).lift.bindExcept _

theorem asksFirst_create [Time.ZoneData] {name description start location : String} (hextension : ctx.extension ≠ "") :
    (create ctx name description start location).run.AsksFirst :=
  (Client.asksFirst_hasAttr hextension (Event.storedName_ne_empty name) true).ofApi.bindExcept _

theorem asksFirst_list [Time.ZoneData] : (list ctx).run.AsksFirst :=
  (Client.asksFirst_getCallerTimezone.ofApi.bindExcept _).bindExcept _

theorem meets_event [Time.ZoneData] (command : EventCommand) : command.usage.MetBy ctx.call (command.run ctx) := by
  rw [EventCommand.run_eq_byPlace]
  cases command with
  | create =>
    dsimp only [EventCommand.byPlace]
    refine meets_exactly rfl rfl fun a => ?_
    exact (meets_words fun hextension => asksFirst_create ctx hextension).of_filter rfl
  | list =>
    dsimp only [EventCommand.byPlace]
    refine meets_exactly rfl rfl fun a => ?_
    exact (meets_words fun _ => asksFirst_list ctx).of_filter rfl
  | get | delete =>
    dsimp only [EventCommand.byPlace]
    refine meets_exactly rfl rfl fun a => ?_
    exact (meets_words fun hextension => (asksFirst_load ctx hextension).bindExcept _).of_filter rfl

end Calendar

/-- A call is attended to by its usage.  Arguments that will not do are answered with an error of the arguments, and the
words are those of something that is wrong with them, unless there are none at all.  Of the arrival of a thing that is
no guest nothing is made.  In both cases the store is not asked; in any other it is, if the call has an extension. -/
structure Attended {σ : Type} (usage : Usage) (call : Call) (id : Option RequestId) (state : σ)
    (played : Played σ Response) : Prop where
  misused : ¬ usage.Accepts call.arguments → played.sent = [] ∧ played.state = state ∧
    ∃ message, played.value.text = written id "error" (writtenError (-32602) message) ∧
      (call.arguments ≠ [] → ∃ cause, usage.Rejects call.arguments cause ∧ message = cause.message)
  idle : usage.Accepts call.arguments → OfNoGuest (usage.kinds.zip call.arguments) → played.sent = [] ∧
    played.state = state ∧ played.value.text = written id "result" (.string "")
  asked : usage.Accepts call.arguments → ¬ OfNoGuest (usage.kinds.zip call.arguments) → call.extension ≠ "" →
    played.sent ≠ []

section Inputs

variable {σ : Type} {plugin : Plugin} {config : Config} {input : Text.Raw} {id : Option RequestId} {usage : Usage}
  {request : Request} {call : Call} {handler : Handler Json}

theorem attended_of_refused {played : Played σ Response} (hrefused : ¬ usage.Accepts call.arguments) {state : σ}
    (h : played.sent = [] ∧ played.state = state ∧
      ∃ message, played.value.text = written id "error" (writtenError (-32602) message) ∧
        (call.arguments ≠ [] → ∃ cause, usage.Rejects call.arguments cause ∧ message = cause.message)) :
    Attended usage call id state played where
  misused _ := h
  idle haccepts := absurd haccepts hrefused
  asked haccepts := absurd haccepts hrefused

theorem attended_of_reaches (h : Reaches plugin config input id call handler) (hmeets : usage.MetBy call handler)
    (exchange : Exchange σ) (state : σ) :
    Attended usage call id state (plugin.serve config exchange input state) := by
  rw [Plugin.serve, Plugin.route_of_reaches h]
  dsimp only
  cases hmeets with
  | @fails cause hcause hrun =>
    have hrefused : ¬ usage.Accepts call.arguments :=
      fun haccepts => (usage.accepts_iff call.arguments).mp haccepts cause hcause
    rw [hrun]
    exact attended_of_refused hrefused ⟨rfl, rfl, cause.message, rfl, fun _ => ⟨cause, hcause, rfl⟩⟩
  | rests hfine hidle hrun =>
    have haccepts := (usage.accepts_iff call.arguments).mpr hfine
    rw [hrun]
    exact ⟨fun hrefused => absurd haccepts hrefused, fun _ _ => ⟨rfl, rfl, rfl⟩, fun _ hbusy => absurd hidle hbusy⟩
  | asks hfine hbusy hasks =>
    have haccepts := (usage.accepts_iff call.arguments).mpr hfine
    refine ⟨fun hrefused => absurd haccepts hrefused, fun _ hidle => absurd hidle hbusy, fun _ _ hextension => ?_⟩
    exact ((hasks hextension).bind _).sent_ne_nil exchange call.id 1 state

/-- A call without any arguments is answered before its handler is looked for. -/
theorem attended_of_stops (h : Stops plugin config input .noArguments id) (harguments : call.arguments = [])
    (hkinds : usage.kinds ≠ []) (exchange : Exchange σ) (state : σ) :
    Attended usage call id state (plugin.serve config exchange input state) := by
  obtain ⟨e, hroute, hcode⟩ := Plugin.route_of_stops h
  have hrefused : ¬ usage.Accepts call.arguments := by
    rintro ⟨hcount, -⟩
    rw [harguments, Usage.Takes] at hcount
    split at hcount
    · exact hkinds (List.length_eq_zero_iff.mp (Nat.le_zero.mp hcount))
    · exact hkinds (List.length_eq_zero_iff.mp hcount.symm)
  rw [Plugin.serve, hroute]
  refine attended_of_refused hrefused ⟨rfl, rfl, e.message, ?_, fun hsome => absurd harguments hsome⟩
  have hnumber : e.code.number = -32602 := hcode
  rw [← hnumber]
  exact Plugin.text_failure id e.code.number e.message

/-- A command is attended to by its usage if it meets whatever arguments it may get by it. -/
theorem attended_of_command {Command : Type} {ofName? : String → Option Command} {usageOf : Command → Usage}
    {run : Context → Command → Handler Json}
    (hmeets : ∀ ctx command, (usageOf command).MetBy ctx.call (run ctx command))
    (hrequest : Requests input request) (hcall : request.Carries call)
    (hfamily : plugin.lookup request.method = some fun ctx => (ctx.call.subcommand?.bind ofName?).map (run ctx))
    (husage : (call.subcommand?.bind ofName?).map usageOf = some usage) (exchange : Exchange σ) (state : σ) :
    Attended usage call request.id state (plugin.serve config exchange input state) := by
  obtain ⟨command, hcommand, rfl⟩ := Option.map_eq_some_iff.mp husage
  have harguments : call.arguments ≠ [] := by
    intro hnone
    rw [Call.subcommand?, Call.argument?, hnone] at hcommand
    cases hcommand
  have hhandler := congrArg (Option.map (run ⟨call, config⟩)) hcommand
  exact attended_of_reaches (.intro hrequest hfamily hcall harguments hhandler) (hmeets ⟨call, config⟩ command)
    exchange state

end Inputs

/-- For every input with a call of a known command, and every way in which the store replies: if the arguments are not
as many as the command takes, or one that names a channel or a player or tells of an arrival will not do, whatever the
others are, then the answer is an error of the arguments, and the store is not asked for anything.  Nor is it for the
arrival of a thing that is no guest, which is answered with success.  Any other such call does ask the store, if it has
an extension. -/
theorem arguments_checked_first [Time.ZoneData] {σ : Type} {input : Text.Raw} {request : Request} {call : Call}
    (config : Config) (exchange : Exchange σ) (state : σ) (hrequest : Requests input request)
    (hcall : request.Carries call) :
    (∀ usage, Chat.manual call = some usage →
        Attended usage call request.id state (Chat.plugin.serve config exchange input state)) ∧
      ∀ usage, Calendar.manual call = some usage →
        Attended usage call request.id state (Calendar.plugin.serve config exchange input state) := by
  have hmethod : call.method = request.method := hcall.method
  constructor
  · intro usage husage
    unfold Chat.manual at husage
    split at husage
    · next h =>
      have hfamily : Chat.plugin.lookup request.method = some Chat.talkFamily := by
        rw [← hmethod, h]
        rfl
      exact attended_of_command Chat.meets_talk hrequest hcall hfamily husage exchange state
    · next h =>
      have hfamily : Chat.plugin.lookup request.method = some Chat.adminFamily := by
        rw [← hmethod, h]
        rfl
      exact attended_of_command Chat.meets_admin hrequest hcall hfamily husage exchange state
    · next h =>
      have hfamily : Chat.plugin.lookup request.method = some Chat.guestFamily := by
        rw [← hmethod, h]
        rfl
      cases husage
      by_cases harguments : call.arguments = []
      · exact attended_of_stops (.noArguments hrequest hfamily hcall harguments) harguments (List.cons_ne_nil _ _)
          exchange state
      · exact attended_of_reaches (.intro hrequest hfamily hcall harguments rfl) (Chat.meets_welcome ⟨call, config⟩)
          exchange state
    · cases husage
  · intro usage husage
    unfold Calendar.manual at husage
    split at husage
    · next h =>
      have hfamily : Calendar.plugin.lookup request.method = some Calendar.eventFamily := by
        rw [← hmethod, h]
        rfl
      exact attended_of_command (fun ctx => Calendar.meets_event ctx) hrequest hcall hfamily husage exchange state
    · cases husage

def addDaveAndEve : Text.Raw := Plugin.textOfCall "chatadmin" "\"add_member\",\"Dave,Eve\",\"#lobby\""

/-- The channel is not looked for, and the answer is about the player. -/
theorem arguments_checked_first_comma :
    ∃ request call, Requests addDaveAndEve request ∧ request.Carries call ∧
      Chat.manual call = some Chat.AdminCommand.addMember.usage ∧
      ¬ Chat.AdminCommand.addMember.usage.Accepts call.arguments ∧
      let played := Chat.plugin.serve Config.standard Wire.canned.exchange addDaveAndEve []
      played.sent = [] ∧ played.value.text = written (some (.number 1)) "error"
        (writtenError (-32602) "'Dave,Eve' is not a valid player name") := by
  have hread : ((Plugin.readRequest addDaveAndEve).toOption.map fun request =>
      (request.id, (Call.ofRequest request).toOption)) =
        some (some (.number 1), some ⟨"call", "chatadmin", "ext", ["add_member", "Dave,Eve", "#lobby"]⟩) := by
    simp only [addDaveAndEve, Plugin.textOfCall, Text.Raw.ofString, String.toList_append, String.reduceToList]
    decide +kernel
  obtain ⟨request, hrequest, hrest⟩ := Option.map_eq_some_iff.mp hread
  obtain ⟨hid, hcall⟩ := Prod.mk.inj hrest
  have hrequests := Plugin.readRequest_eq_ok_iff.mp ((toOption_eq_some_iff _ _).mp hrequest)
  rw [toOption_eq_some_iff, Call.ofRequest_eq_ok_iff] at hcall
  have hrefused : ¬ Chat.AdminCommand.addMember.usage.Accepts ["add_member", "Dave,Eve", "#lobby"] := by
    intro haccepts
    have hplayer := (haccepts.fits (.player, "Dave,Eve") (by decide)).2
    exact hplayer (by decide)
  refine ⟨request, _, hrequests, hcall, rfl, hrefused, ?_⟩
  obtain ⟨hsent, -, message, htext, hmessage⟩ :=
    ((arguments_checked_first Config.standard Wire.canned.exchange [] hrequests hcall).1 _ rfl).misused hrefused
  obtain ⟨cause, hcause, rfl⟩ := hmessage (List.cons_ne_nil _ _)
  refine ⟨hsent, ?_⟩
  have hnamed : cause = .playerName "Dave,Eve" := by
    obtain ⟨-, hcount⟩ | ⟨hopen, -⟩ | ⟨p, hp, h⟩ := hcause
    · exact absurd rfl hcount
    · cases hopen
    · simp only [Chat.AdminCommand.usage, List.zip_cons_cons, List.zip_nil_left, List.mem_cons, List.not_mem_nil,
        or_false] at hp
      rcases hp with rfl | rfl | rfl
      · cases h
      · cases h
        rfl
      · cases h with
        | channel hchannel => exact absurd rfl hchannel
  rw [htext, hid, hnamed]
  rfl

end WorldPlugins
