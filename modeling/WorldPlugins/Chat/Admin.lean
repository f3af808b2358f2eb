import WorldPlugins.Chat.Channel

/-! # The `chatadmin` method

Making, changing and removing channels.  All writing is on the authority of the caller, so the world lets only
those do it who may change the extension.
-/

namespace WorldPlugins.Chat

inductive AdminCommand
  | create
  | delete
  | inspect
  | setAccess (action : Action)
  | addMember
  | removeMember
  deriving DecidableEq, Repr

namespace AdminCommand

def ofName? : String → Option AdminCommand
  | "create" => some .create
  | "delete" => some .delete
  | "inspect" => some .inspect
  | "set_visibility" => some (.setAccess .see)
  | "set_joinability" => some (.setAccess .join)
  | "add_member" => some .addMember
  | "remove_member" => some .removeMember
  | _ => none

def countError (given : Nat) : AdminCommand → ArgumentError
  | .create => .count 2 given
  | .delete => .count 2 given
  | .inspect => .count 2 given
  | .setAccess _ => .tooFew 3 given
  | .addMember => .count 3 given
  | .removeMember => .count 3 given

end AdminCommand

namespace Admin

def create (ctx : Context) (name : String) : Handler Json := do
  match ← Channel.find? ctx name with
  | some _ => Handler.refuse (.channelExists name)
  | none =>
    Client.setAttr ctx.extension (Channel.empty name).toAttr false
    Client.sendToCaller ("Created channel " ++ name)
    Handler.done

def delete (ctx : Context) (name : String) : Handler Json := do
  match ← Channel.find? ctx name with
  | none => Handler.refuse (.channelMissing name)
  | some _ =>
    Client.removeAttr ctx.extension name false
    Client.sendToCaller ("Deleted channel " ++ name)
    Handler.done

def details (c : Channel) : Record :=
  .ofPairs
    [("Name", c.name),
      ("Members", NameList.join c.members),
      ("Visible to roles", NameList.join c.acl.see.roles),
      ("Joinable by roles", NameList.join c.acl.join.roles),
      ("Visible to players", NameList.join c.acl.see.players),
      ("Joinable by players", NameList.join c.acl.join.players)]

def inspect (ctx : Context) (name : String) : Handler Json := do
  let channel ← Channel.get ctx name
  Client.sendRecord (details channel) "Channel details:"
  Handler.done

/-- Changes who may do something with a channel.  All arguments are checked before anything is written. -/
def setAccess (ctx : Context) (action : Action) (name : String) (arguments : List String) :
    Handler Json := do
  let channel ← Channel.get ctx name
  let changed ← channel.applyArguments action arguments
  Client.setAttr ctx.extension changed.toAttr false
  Client.sendToCaller ("Updated channel " ++ changed.name)
  Handler.done

def addMember (ctx : Context) (player name : String) : Handler Json := do
  Channel.checkPlayer player
  let channel ← Channel.get ctx name
  if channel.isMember player then
    Client.sendToCaller (player ++ " is already a member of " ++ channel.name)
    Handler.done
  else
    Channel.storeMembers ctx (channel.addMember player) false
    Handler.done

def removeMember (ctx : Context) (player name : String) : Handler Json := do
  Channel.checkPlayer player
  let channel ← Channel.get ctx name
  if channel.isMember player then
    Channel.storeMembers ctx (channel.removeMember player) false
    Handler.done
  else
    Client.sendToCaller (player ++ " is not a member of " ++ channel.name)
    Handler.done

end Admin

def AdminCommand.run (ctx : Context) (command : AdminCommand) : Handler Json :=
  match command, ctx.call.arguments with
  | .create, [_, name] => Admin.create ctx name
  | .delete, [_, name] => Admin.delete ctx name
  | .inspect, [_, name] => Admin.inspect ctx name
  | .setAccess action, _ :: name :: argument :: arguments =>
    Admin.setAccess ctx action name (argument :: arguments)
  | .addMember, [_, player, name] => Admin.addMember ctx player name
  | .removeMember, [_, player, name] => Admin.removeMember ctx player name
  | command, arguments => Handler.misused (command.countError arguments.length)

def adminFamily : Family := fun ctx =>
  (ctx.call.subcommand?.bind AdminCommand.ofName?).map fun command => command.run ctx

end WorldPlugins.Chat
