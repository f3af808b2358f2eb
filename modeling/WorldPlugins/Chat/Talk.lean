import WorldPlugins.Chat.Channel

/-! # The `chat` method

What players do with channels: talk, join, leave and look around.  A channel that the caller may not see answers
like one that does not exist.
-/

namespace WorldPlugins.Chat

inductive TalkCommand
  | say
  | join
  | leave
  | list
  | mine
  | members
  deriving DecidableEq, Repr

namespace TalkCommand

def ofName? : String → Option TalkCommand
  | "say" => some .say
  | "join" => some .join
  | "leave" => some .leave
  | "list" => some .list
  | "mine" => some .mine
  | "members" => some .members
  | _ => none

def arity : TalkCommand → Nat
  | .say => 3
  | .join => 2
  | .leave => 2
  | .list => 1
  | .mine => 1
  | .members => 2

end TalkCommand

/-- A channel that the caller may see, with the name of the caller. -/
def visibleChannel (ctx : Context) (name : String) : Handler (Channel × String) := do
  let channel ← Channel.get ctx name
  let caller ← Client.getCallerName
  if ← ctx.may .see channel.acl caller then pure (channel, caller)
  -- In the words for a missing channel, so that a hidden one does not show.
  else Handler.refuse (.channelNotFound name)

/-- Sends a text to players one after another, whether or not it reaches them. -/
def tellAll (text : String) : List String → Handler PUnit
  | [] => pure ⟨⟩
  | player :: players => do
    let _ ← ExceptT.lift (Client.sendMessage player text).run
    tellAll text players

def say (ctx : Context) (name text : String) : Handler Json := do
  let (channel, caller) ← visibleChannel ctx name
  if channel.isMember caller then
    tellAll ("[" ++ channel.name ++ "] " ++ caller ++ ": " ++ text) channel.members
    Handler.done
  else Handler.refuse (.notMember channel.name)

def join (ctx : Context) (name : String) : Handler Json := do
  let (channel, caller) ← visibleChannel ctx name
  if ← ctx.may .join channel.acl caller then
    if channel.isMember caller then
      Client.sendToCaller ("You are already a member of " ++ channel.name)
      Handler.done
    else
      Channel.storeMembers ctx (channel.addMember caller) true
      Handler.done
  else Handler.refuse (.mayNotJoin channel.name)

def leave (ctx : Context) (name : String) : Handler Json := do
  let (channel, caller) ← visibleChannel ctx name
  if channel.isMember caller then
    Channel.storeMembers ctx (channel.removeMember caller) true
    Handler.done
  else
    Client.sendToCaller ("You are not a member of " ++ channel.name)
    Handler.done

def sortedNames (channels : List Channel) : List String :=
  (channels.map Channel.name).mergeSort fun a b => a ≤ b

/-- Tells the caller the names of channels, one to a line. -/
def tellChannels (channels : List Channel) (header : String) : Handler Json := do
  if channels = [] then
    Client.sendToCaller "No channels found"
    Handler.done
  else
    Client.sendWithHeader (NameList.joinWith '\n' (sortedNames channels)) header
    Handler.done

def list (ctx : Context) : Handler Json := do
  let caller ← Client.getCallerName
  let channels ← Channel.visible ctx caller
  tellChannels channels "Channels:"

/-- Lists the channels that the caller may see and belongs to. -/
def mine (ctx : Context) : Handler Json := do
  let caller ← Client.getCallerName
  let channels ← Channel.visible ctx caller
  tellChannels (channels.filter fun c => c.isMember caller) "Your channels:"

/-- Lists the members of a channel that the caller belongs to. -/
def members (ctx : Context) (name : String) : Handler Json := do
  let (channel, caller) ← visibleChannel ctx name
  if channel.isMember caller then
    Client.sendWithHeader (NameList.joinWith '\n' channel.members) ("Members of " ++ channel.name)
    Handler.done
  else
    Client.sendToCaller ("You are not a member of " ++ channel.name)
    Handler.done

def TalkCommand.run (ctx : Context) (command : TalkCommand) : Handler Json :=
  match command, ctx.call.arguments with
  | .say, [_, name, text] => Chat.say ctx name text
  | .join, [_, name] => Chat.join ctx name
  | .leave, [_, name] => Chat.leave ctx name
  | .list, [_] => Chat.list ctx
  | .mine, [_] => Chat.mine ctx
  | .members, [_, name] => Chat.members ctx name
  | command, arguments => Handler.misused (.count command.arity arguments.length)

def talkFamily : Family := fun ctx =>
  (ctx.call.subcommand?.bind TalkCommand.ofName?).map fun command => command.run ctx

end WorldPlugins.Chat
