import WorldPlugins.Chat.Guests
import WorldPlugins.Proofs.Rpc.Methods

/-! # On whose authority the chat plugin asks

Talking and welcoming guests ask on the authority of the extension throughout.  Administration looks up channels on
that authority, but writes on the authority of the caller, and so it does the reading that is part of writing the
members.  Each of its commands follows one of a few scripts, whatever the store replies.
-/

namespace WorldPlugins.Chat

open Session (AsksOnly Follows)
open Client (asksFor_of_takesStep follows_of_takesStep)

variable (ctx : Context) (name player text : String)

theorem asks_find? : (Channel.find? ctx name).run.AsksFor ctx.extension true StoreMethod.reads := by
  unfold Channel.find?
  split
  · refine (asksFor_of_takesStep (Client.takesStep_getAttr ctx.extension name true) rfl).lift.bindExcept ?_
    rintro (e | a)
    · dsimp only
      split <;> trivial
    · exact AsksOnly.bindExcept trivial fun _ => trivial
  · trivial

theorem asks_get : (Channel.get ctx name).run.AsksFor ctx.extension true StoreMethod.reads := by
  refine (asks_find? ctx name).bindExcept ?_
  rintro (_ | c) <;> trivial

theorem asks_names : (Channel.names ctx).run.AsksFor ctx.extension true StoreMethod.reads :=
  (asksFor_of_takesStep (Client.takesStep_getAttrNames ctx.extension true) rfl).ofApi.bindExcept fun _ => trivial

theorem asks_may (action : Action) (acl : AccessControl) :
    (ctx.may action acl player).run.AsksFor ctx.extension true StoreMethod.reads := by
  have hroles : (storedRoles player).AsksFor ctx.extension true StoreMethod.reads :=
    (asksFor_of_takesStep (Client.takesStep_getRoles ctx.extension player true) rfl).bind fun _ => trivial
  refine AsksOnly.lift ?_
  unfold AccessControl.may AccessList.permits
  split
  · trivial
  · refine AsksOnly.bind ?_ ?_
    · unfold AccessList.passesRoles
      split
      · trivial
      · refine hroles.bind ?_
        rintro (e | held) <;> trivial
    · intro passes
      split <;> trivial

theorem asks_visibleChannel : (visibleChannel ctx name).run.AsksFor ctx.extension true StoreMethod.reads := by
  refine (asks_get ctx name).bindExcept fun c => ?_
  refine (Client.asks_caller ctx.extension true).bindExcept fun caller => ?_
  refine (asks_may ctx caller .see c.acl).bindExcept fun sees => ?_
  split <;> trivial

private theorem asks_visibleAmong (names : List String) :
    (Channel.visibleAmong ctx player names).run.AsksFor ctx.extension true StoreMethod.reads := by
  induction names with
  | nil => trivial
  | cons name names ih =>
    refine (asks_get ctx name).lift.bindExcept ?_
    rintro (e | c)
    · exact ih
    · refine (asks_may ctx player .see c.acl).bindExcept fun sees => ?_
      split
      · exact ih.bindExcept fun _ => trivial
      · exact ih

theorem asks_visible : (Channel.visible ctx player).run.AsksFor ctx.extension true StoreMethod.reads :=
  (asks_names ctx).bindExcept fun names => asks_visibleAmong ctx player names

theorem asks_tellAll (players : List String) {kind : StoreMethod → Bool} (hkind : kind .sendMessage = true) :
    (tellAll text players).run.AsksFor ctx.extension true kind := by
  induction players with
  | nil => trivial
  | cons player players ih =>
    refine AsksOnly.bindExcept (AsksOnly.lift ?_) fun _ => ih
    exact asksFor_of_takesStep (Client.takesStep_sendMessage ctx.extension player true text) hkind

private theorem asks_storeMembers (c : Channel) :
    (do Channel.storeMembers ctx c true; Handler.done : Handler Json).run.AsksFor ctx.extension true
      StoreMethod.any :=
  (Client.asks_setField ctx.extension c.name true c.membersField).ofApi.bindExcept fun _ => trivial

private theorem asks_tellChannels (channels : List Channel) (header : String) :
    (tellChannels channels header).run.AsksFor ctx.extension true StoreMethod.keeps := by
  unfold tellChannels
  split
  · exact Client.asks_told ctx.extension true _
  · exact Client.asks_told ctx.extension true _

theorem asks_say : (say ctx name text).run.AsksFor ctx.extension true StoreMethod.keeps := by
  refine ((asks_visibleChannel ctx name).widen fun _ => StoreMethod.keeps_of_reads).bindExcept ?_
  rintro ⟨c, caller⟩
  dsimp only
  split
  · exact (asks_tellAll ctx _ c.members rfl).bindExcept fun _ => trivial
  · trivial

theorem asks_join : (join ctx name).run.AsksFor ctx.extension true StoreMethod.any := by
  refine ((asks_visibleChannel ctx name).widen fun _ _ => rfl).bindExcept ?_
  rintro ⟨c, caller⟩
  refine ((asks_may ctx caller .join c.acl).widen fun _ _ => rfl).bindExcept fun joins => ?_
  split
  · split
    · exact (Client.asks_told ctx.extension true _).widen fun _ _ => rfl
    · exact asks_storeMembers ctx _
  · trivial

theorem asks_leave : (leave ctx name).run.AsksFor ctx.extension true StoreMethod.any := by
  refine ((asks_visibleChannel ctx name).widen fun _ _ => rfl).bindExcept ?_
  rintro ⟨c, caller⟩
  dsimp only
  split
  · exact asks_storeMembers ctx _
  · exact (Client.asks_told ctx.extension true _).widen fun _ _ => rfl

theorem asks_list : (list ctx).run.AsksFor ctx.extension true StoreMethod.keeps := by
  refine ((Client.asks_caller ctx.extension true).widen fun _ => StoreMethod.keeps_of_reads).bindExcept fun caller => ?_
  refine ((asks_visible ctx caller).widen fun _ => StoreMethod.keeps_of_reads).bindExcept fun channels => ?_
  exact asks_tellChannels ctx channels _

theorem asks_mine : (mine ctx).run.AsksFor ctx.extension true StoreMethod.keeps := by
  refine ((Client.asks_caller ctx.extension true).widen fun _ => StoreMethod.keeps_of_reads).bindExcept fun caller => ?_
  refine ((asks_visible ctx caller).widen fun _ => StoreMethod.keeps_of_reads).bindExcept fun channels => ?_
  exact asks_tellChannels ctx _ _

theorem asks_members : (members ctx name).run.AsksFor ctx.extension true StoreMethod.keeps := by
  refine ((asks_visibleChannel ctx name).widen fun _ => StoreMethod.keeps_of_reads).bindExcept ?_
  rintro ⟨c, caller⟩
  dsimp only
  split
  · exact Client.asks_told ctx.extension true _
  · exact Client.asks_told ctx.extension true _

theorem asks_run (command : TalkCommand) :
    (command.run ctx).run.AsksFor ctx.extension true StoreMethod.any := by
  unfold TalkCommand.run
  split
  · exact (asks_say ctx _ _).widen fun _ _ => rfl
  · exact asks_join ctx _
  · exact asks_leave ctx _
  · exact (asks_list ctx).widen fun _ _ => rfl
  · exact (asks_mine ctx).widen fun _ _ => rfl
  · exact (asks_members ctx _).widen fun _ _ => rfl
  · trivial

theorem asks_welcome : (welcome ctx).run.AsksFor ctx.extension true StoreMethod.any := by
  refine AsksOnly.bindExcept trivial fun _ => AsksOnly.bindExcept trivial fun payload => ?_
  split
  · trivial
  · split
    · refine ((asks_get ctx guestChannel).widen fun _ _ => rfl).bindExcept fun c => ?_
      split
      · trivial
      · exact asks_storeMembers ctx _
    · trivial

def AdminCommand.scripts : AdminCommand → List (List Step)
  | .create => [[⟨.getAttr, true⟩, ⟨.setAttr, false⟩, ⟨.sendMessageToCaller, false⟩]]
  | .delete => [[⟨.getAttr, true⟩, ⟨.removeAttr, false⟩, ⟨.sendMessageToCaller, false⟩]]
  | .inspect => [[⟨.getAttr, true⟩, ⟨.sendMessageToCaller, false⟩]]
  | .setAccess _ => [[⟨.getAttr, true⟩, ⟨.setAttr, false⟩, ⟨.sendMessageToCaller, false⟩]]
  | .addMember => [[⟨.getAttr, true⟩, ⟨.getAttr, false⟩, ⟨.setAttr, false⟩],
      [⟨.getAttr, true⟩, ⟨.sendMessageToCaller, false⟩]]
  | .removeMember => [[⟨.getAttr, true⟩, ⟨.getAttr, false⟩, ⟨.setAttr, false⟩],
      [⟨.getAttr, true⟩, ⟨.sendMessageToCaller, false⟩]]

private theorem follows_find? : Follows ctx.extension [[⟨.getAttr, true⟩]] (Channel.find? ctx name) := by
  unfold Channel.find?
  split
  · refine Client.follows_lift_bind (Client.takesStep_getAttr ctx.extension name true) (fun _ => ⟨_, rfl⟩) ?_
    rintro (e | a)
    · dsimp only
      split
      · exact Session.follows_pure none
      · exact Session.follows_throw _ _
    · exact (Session.follows_ofAttr _).bind [] [] fun c => Session.follows_pure (some c)
  · exact Session.follows_throw _ _

private theorem follows_get : Follows ctx.extension [[⟨.getAttr, true⟩]] (Channel.get ctx name) := by
  refine (follows_find? ctx name).bind [] [] ?_
  rintro (_ | c)
  · exact Session.follows_throw _ _
  · exact Session.follows_pure c

private theorem follows_told (params : List (String × Json)) :
    Follows ctx.extension [[⟨.sendMessageToCaller, false⟩]]
      (do let _ ← (liftM (Client.order .sendMessageToCaller params) : Handler Unit); Handler.done) :=
  (follows_of_takesStep (Client.takesStep_tell ctx.extension false params)).ofApi.bind [] [] fun _ =>
    Session.follows_pure _

private theorem follows_storeMembers (c : Channel) :
    Follows ctx.extension [[⟨.getAttr, false⟩, ⟨.setAttr, false⟩]]
      (do Channel.storeMembers ctx c false; Handler.done : Handler Json) :=
  (Client.follows_setField ctx.extension c.name false c.membersField).ofApi.bind [] [] fun _ => Session.follows_pure _

private theorem follows_create : Follows ctx.extension AdminCommand.create.scripts (Admin.create ctx name) := by
  refine (follows_find? ctx name).bind [⟨.setAttr, false⟩, ⟨.sendMessageToCaller, false⟩] [] ?_
  rintro (_ | c)
  · exact (follows_of_takesStep (Client.takesStep_setAttr ctx.extension false _)).ofApi.bind _ [] fun _ =>
      follows_told ctx _
  · exact Session.follows_throw _ _

private theorem follows_delete : Follows ctx.extension AdminCommand.delete.scripts (Admin.delete ctx name) := by
  refine (follows_find? ctx name).bind [⟨.removeAttr, false⟩, ⟨.sendMessageToCaller, false⟩] [] ?_
  rintro (_ | c)
  · exact Session.follows_throw _ _
  · exact (follows_of_takesStep (Client.takesStep_removeAttr ctx.extension name false)).ofApi.bind _ [] fun _ =>
      follows_told ctx _

private theorem follows_inspect : Follows ctx.extension AdminCommand.inspect.scripts (Admin.inspect ctx name) :=
  (follows_get ctx name).bind [⟨.sendMessageToCaller, false⟩] [] fun _ => follows_told ctx _

private theorem follows_setAccess (action : Action) (arguments : List String) :
    Follows ctx.extension (AdminCommand.setAccess action).scripts (Admin.setAccess ctx action name arguments) := by
  refine (follows_get ctx name).bind [⟨.setAttr, false⟩, ⟨.sendMessageToCaller, false⟩] [] fun c => ?_
  refine (Session.follows_ofArgument _).bind [⟨.setAttr, false⟩, ⟨.sendMessageToCaller, false⟩] [] fun changed => ?_
  exact (follows_of_takesStep (Client.takesStep_setAttr ctx.extension false _)).ofApi.bind _ [] fun _ =>
    follows_told ctx _

private theorem follows_addMember :
    Follows ctx.extension AdminCommand.addMember.scripts (Admin.addMember ctx player name) := by
  refine (Session.follows_ofArgument _).bind _ [_] fun _ => ?_
  refine (follows_get ctx name).bind [⟨.getAttr, false⟩, ⟨.setAttr, false⟩]
    [[⟨.sendMessageToCaller, false⟩]] fun c => ?_
  split
  · exact (follows_told ctx _).widen (by simp)
  · exact (follows_storeMembers ctx _).widen (by simp)

private theorem follows_removeMember :
    Follows ctx.extension AdminCommand.removeMember.scripts (Admin.removeMember ctx player name) := by
  refine (Session.follows_ofArgument _).bind _ [_] fun _ => ?_
  refine (follows_get ctx name).bind [⟨.getAttr, false⟩, ⟨.setAttr, false⟩]
    [[⟨.sendMessageToCaller, false⟩]] fun c => ?_
  split
  · exact (follows_storeMembers ctx _).widen (by simp)
  · exact (follows_told ctx _).widen (by simp)

theorem follows_run (command : AdminCommand) : Follows ctx.extension command.scripts (command.run ctx) := by
  have hmisused (cause : ArgumentError) :
      Follows ctx.extension command.scripts (Handler.misused cause : Handler Json) := by
    cases command <;> exact Session.follows_throw _ _
  unfold AdminCommand.run
  split
  · exact follows_create ctx _
  · exact follows_delete ctx _
  · exact follows_inspect ctx _
  · exact follows_setAccess ctx _ _ _
  · exact follows_addMember ctx _ _
  · exact follows_removeMember ctx _ _
  · exact hmisused _

end WorldPlugins.Chat
