import WorldPlugins.NameList
import WorldPlugins.Plugin.Dispatch

/-! # Chat channels

A channel has members, and access lists for who may see and who may join it.  It is stored on the extension as a
list attribute named after it, with five fields that each hold a list of names.
-/

namespace WorldPlugins.Chat

structure Channel where
  name : String
  members : List String
  acl : AccessControl
  deriving DecidableEq, Repr, Inhabited

namespace Channel

def empty (name : String) : Channel := ⟨name, [], .unrestricted⟩

/-- The field with the names of members. -/
def membersKey : String := "members"

/-- The field with the roles that may do something. -/
def rolesKey : Action → String
  | .see => "visRoles"
  | .join => "joinRoles"

/-- The field with the players who may do something. -/
def playersKey : Action → String
  | .see => "visPlayers"
  | .join => "joinPlayers"

/-- The names in a field of a stored channel; none if the field is missing. -/
def storedNames (a : Attr) (key : String) : Except AttrError (List String) :=
  match a.find key with
  | .ok field => .ok (NameList.split field.value)
  | .error (.fieldNotFound _) => .ok []
  | .error e => .error e

/-- The channel in a stored attribute. -/
def ofAttr (a : Attr) : Except AttrError Channel := do
  let members ← storedNames a membersKey
  let seeRoles ← storedNames a (rolesKey .see)
  let seePlayers ← storedNames a (playersKey .see)
  let joinRoles ← storedNames a (rolesKey .join)
  let joinPlayers ← storedNames a (playersKey .join)
  pure ⟨a.name, members, ⟨⟨seeRoles, seePlayers⟩, ⟨joinRoles, joinPlayers⟩⟩⟩

def namesField (key : String) (names : List String) : Attr := .string key (NameList.join names)

def membersField (c : Channel) : Attr := namesField membersKey c.members

def toAttr (c : Channel) : Attr :=
  .list c.name
    [c.membersField,
      namesField (rolesKey .see) c.acl.see.roles,
      namesField (rolesKey .join) c.acl.join.roles,
      namesField (playersKey .see) c.acl.see.players,
      namesField (playersKey .join) c.acl.join.players]

def isMember (c : Channel) (player : String) : Bool := c.members.contains player

def addMember (c : Channel) (player : String) : Channel := { c with members := c.members ++ [player] }

/-- The channel without the first of its members of this name. -/
def removeMember (c : Channel) (player : String) : Channel :=
  { c with members := c.members.erase player }

/-- The value of an argument that starts with a given key. -/
def argumentValue? (key : String) (argument : String) : Option String :=
  if key.toList.isPrefixOf argument.toList then
    some (String.ofList (argument.toList.drop key.toList.length))
  else none

/-- The names in the value of an argument, none of them empty. -/
def argumentNames (argument value : String) : Except ArgumentError (List String) :=
  let names := NameList.split value
  if names.contains "" then .error (.emptyName argument) else .ok names

/-- The access list with its roles or players set by an argument `roles=…` or `players=…`. -/
def setByArgument (list : AccessList) (argument : String) : Except ArgumentError AccessList :=
  match argumentValue? "roles=" argument with
  | some value => do pure { list with roles := ← argumentNames argument value }
  | none =>
    match argumentValue? "players=" argument with
    | some value => do pure { list with players := ← argumentNames argument value }
    | none => .error (.unsupported argument)

/-- The channel with an access list changed by an argument. -/
def applyArgument (action : Action) (c : Channel) (argument : String) : Except ArgumentError Channel := do
  let list ← setByArgument (c.acl.list action) argument
  pure { c with acl := c.acl.setList list action }

/-- The channel with an access list changed by arguments one after another. -/
def applyArguments (c : Channel) (action : Action) (arguments : List String) :
    Except ArgumentError Channel :=
  arguments.foldlM (applyArgument action) c

/-- Refuses the name of a player that cannot be stored. -/
def checkPlayer (name : String) : Except ArgumentError Unit :=
  if NameList.isStorable name then .ok () else .error (.playerName name)

/-- Whether an attribute of the extension is a channel by its name. -/
def isChannelName (name : String) : Bool := name.toList.head? = some '#'

/-- The channel of this name, if there is one. -/
def find? (ctx : Context) (name : String) : Handler (Option Channel) := do
  if isChannelName name then
    match ← ExceptT.lift (Client.getAttr ctx.extension name true).run with
    | .ok a =>
      let c ← ofAttr a
      pure (some c)
    | .error e => if e.isNotFound then pure none else throw (.store e)
  else Handler.misused .channelName

/-- The channel of this name, which has to exist. -/
def get (ctx : Context) (name : String) : Handler Channel := do
  match ← find? ctx name with
  | some c => pure c
  | none => Handler.refuse (.channelNotFound name)

/-- The names of all channels, in the order of the store. -/
def names (ctx : Context) : Handler (List String) := do
  let all ← Client.getAttrNames ctx.extension true
  pure (all.filter isChannelName)

/-- Writes the members of a channel. -/
def storeMembers (ctx : Context) (c : Channel) (asExtension : Bool) : Handler PUnit :=
  Client.setField ctx.extension c.name c.membersField asExtension

/-- Of the channels with these names, those that a player may see; one that cannot be read is left out. -/
def visibleAmong (ctx : Context) (player : String) : List String → Handler (List Channel)
  | [] => pure []
  | name :: names => do
    match ← ExceptT.lift (get ctx name).run with
    | .error _ => visibleAmong ctx player names
    | .ok c =>
      if ← ctx.may .see c.acl player then
        let rest ← visibleAmong ctx player names
        pure (c :: rest)
      else visibleAmong ctx player names

def visible (ctx : Context) (player : String) : Handler (List Channel) := do
  visibleAmong ctx player (← names ctx)

end Channel

end WorldPlugins.Chat
