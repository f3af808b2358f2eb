import WorldPlugins.Chat.Admin
import WorldPlugins.Chat.Talk

/-! # The chat plugin

Guests are put into their channel when they arrive: the world calls `chatguestautojoin` with the event as its
only argument.  Together with talking and administration this is the whole plugin.
-/

namespace WorldPlugins.Chat

/-- The channel that every guest joins. -/
def guestChannel : String := "#guest"

def isGuestName (name : String) : Bool := "guest".toList.isPrefixOf name.toList

/-- Puts an arriving guest into the guest channel, and does nothing for any other thing. -/
def welcome (ctx : Context) : Handler Json := do
  ctx.call.checkCount 1
  let payload ← ctx.call.eventPayload
  match payload.string? "yoinkedThingName" with
  | none => Handler.misused (.noPayloadField "yoinkedThingName")
  | some name =>
    if isGuestName name && payload.string? "yoinkedThingType" == some "Player" then
      let channel ← Channel.get ctx guestChannel
      if channel.isMember name then Handler.done
      else
        Channel.storeMembers ctx (channel.addMember name) true
        Handler.done
    else Handler.done

def guestFamily : Family := fun ctx => some (welcome ctx)

def plugin : Plugin :=
  [("chat", talkFamily), ("chatadmin", adminFamily), ("chatguestautojoin", guestFamily)]

end WorldPlugins.Chat
