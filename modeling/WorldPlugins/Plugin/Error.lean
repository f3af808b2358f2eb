import WorldPlugins.Access

/-! # Why a plugin call fails

The arguments may be wrong, the store may fail, a stored attribute may be unreadable, or the plugin refuses.  The
caller gets the words and one of two codes: one for wrong arguments, one for all else.
-/

namespace WorldPlugins

/-- What is wrong with the arguments of a plugin call. -/
inductive ArgumentError
  | count (expected given : Nat)
  | tooFew (expected given : Nat)
  | noPayload
  | badPayload (cause : Json.ReadError)
  | noPayloadField (name : String)
  | channelName
  | playerName (name : String)
  | unsupported (argument : String)
  | emptyName (argument : String)
  | startTime (text : String)
  deriving DecidableEq, Repr

def ArgumentError.message : ArgumentError → String
  | .count expected given =>
    "Expected " ++ Text.showNatural expected ++ " plugin call arguments, got " ++ Text.showNatural given
  | .tooFew expected given =>
    "Expected at least " ++ Text.showNatural expected ++ " plugin call arguments, got " ++
      Text.showNatural given
  | .noPayload => "Missing event payload"
  | .badPayload cause => "Invalid event payload: " ++ cause.message
  | .noPayloadField name => "Event payload has no " ++ name
  | .channelName => "That is not a valid channel name"
  | .playerName name => "'" ++ name ++ "' is not a valid player name"
  | .unsupported argument => "Unsupported argument " ++ argument
  | .emptyName argument => "Empty name in argument " ++ argument
  | .startTime text => "Unrecognized start time " ++ text

/-- Why a plugin refuses. -/
inductive Refusal
  | channelNotFound (channel : String)
  | channelExists (channel : String)
  | channelMissing (channel : String)
  | notMember (channel : String)
  | mayNotJoin (channel : String)
  | eventExists (stored : String)
  | eventMissing (stored : String)
  | noOwner
  | notOwner
  | stated (message : String)
  deriving DecidableEq, Repr

def Refusal.message : Refusal → String
  | .channelNotFound channel => "Channel " ++ channel ++ " not found"
  | .channelExists channel => "Channel " ++ channel ++ " already exists"
  | .channelMissing channel => "Channel " ++ channel ++ " does not exist"
  | .notMember channel => "You do not belong to " ++ channel
  | .mayNotJoin channel => "You may not join " ++ channel
  | .eventExists stored => "Event '" ++ stored ++ "' already exists"
  | .eventMissing stored => "Event '" ++ stored ++ "' does not exist"
  | .noOwner => "Event is missing an owner"
  | .notOwner => "You are not the owner"
  | .stated message => message

/-- Why a plugin call fails. -/
inductive PluginError
  | argument (cause : ArgumentError)
  | store (cause : RpcError)
  | attr (cause : AttrError)
  | refused (cause : Refusal)
  deriving DecidableEq, Repr

namespace PluginError

def message : PluginError → String
  | .argument cause => cause.message
  | .store cause => cause.message
  | .attr cause => cause.message
  | .refused cause => cause.message

/-- The code that a failed plugin call is answered with. -/
def code : PluginError → ErrorCode
  | .argument _ => .invalidParams
  | _ => .internalError

def isNotFound : PluginError → Bool
  | .store cause => cause.isNotFound
  | _ => false

end PluginError

/-- What a plugin does for a call: a session that may fail. -/
abbrev Handler := ExceptT PluginError Session

instance : MonadLift Api Handler := ⟨fun api => ExceptT.mk do pure ((← api.run).mapError .store)⟩

instance : MonadLift (Except AttrError) Handler :=
  ⟨fun outcome => ExceptT.mk (pure (outcome.mapError .attr))⟩

instance : MonadLift (Except ArgumentError) Handler :=
  ⟨fun outcome => ExceptT.mk (pure (outcome.mapError .argument))⟩

namespace Handler

def misused {α : Type} (cause : ArgumentError) : Handler α := throw (.argument cause)

def refuse {α : Type} (cause : Refusal) : Handler α := throw (.refused cause)

/-- The result of a call that has told players all there is. -/
def done : Handler Json := pure (.string "")

end Handler

end WorldPlugins
