import WorldPlugins.Config
import WorldPlugins.Plugin.Call

/-! # From a request to a response

A plugin is a list of methods, each with its handlers.  `Plugin.route` decides what becomes of an input: either
it is answered at once, or a handler has a session with the store.  Every input gets exactly one response.
-/

namespace WorldPlugins

/-- What a handler knows of its call. -/
structure Context where
  call : Call
  config : Config

namespace Context

def extension (ctx : Context) : String := ctx.call.extension

/-- Whether the access lists let a player do something, by the roles that the store has. -/
def may (ctx : Context) (action : Action) (acl : AccessControl) (player : String) : Handler Bool :=
  ExceptT.lift (acl.may storedRoles ctx.config.privilege action player)

end Context

/-- The handlers of one method: what to do for a call, or nothing if its subcommand is unknown. -/
abbrev Family := Context → Option (Handler Json)

abbrev Plugin := List (String × Family)

/-- What becomes of an input. -/
inductive Routing
  | answered (response : Response)
  /-- The handler of this call has a session with the store. -/
  | handled (callId : String) (session : Session Response)

/-- Why a request is answered without a handler. -/
inductive RoutingError
  | unreadable (cause : Json.ReadError)
  | noRequest (cause : Json.Mismatch)
  | unknownMethod (method : String)
  | noCall (cause : CallError)
  | noArguments
  | unknownSubcommand (name : String)
  deriving DecidableEq, Repr

namespace RoutingError

def message : RoutingError → String
  | .unreadable cause => "Parse error: " ++ cause.message
  | .noRequest cause => "Invalid request: " ++ cause.message
  | .unknownMethod method => "Unrecognized method " ++ method
  | .noCall cause => "Invalid plugin call: " ++ cause.message
  | .noArguments => "At least one plugin call argument is required"
  | .unknownSubcommand name => "Unrecognized subcommand " ++ name

/-- The code that a request without handler is answered with. -/
def code : RoutingError → ErrorCode
  | .unreadable _ => .parseError
  | .noRequest _ => .invalidRequest
  | .unknownMethod _ => .methodNotFound
  | .noCall _ => .invalidParams
  | .noArguments => .invalidParams
  | .unknownSubcommand _ => .invalidParams

def response (id : Option RequestId) (e : RoutingError) : Response :=
  .failure id (.make e.code.number e.message)

end RoutingError

namespace Plugin

/-- The request in an input; or the id to answer with, as far as it can be told, and what is wrong. -/
def readRequest (input : Text.Raw) : Except (Option RequestId × RoutingError) Request :=
  match Json.Decoder.any.ofRaw input with
  | .error cause => .error (none, .unreadable cause)
  | .ok value =>
    match Request.decoder.ofJson value with
    | .ok request => .ok request
    | .error cause =>
      let id := ((value.object?.getD []).lookup "id").bind RequestId.ofJson?
      .error (id, .noRequest cause)

/-- The response that the outcome of a handler gives. -/
def respond (id : Option RequestId) : Except PluginError Json → Response
  | .ok result => .success id result
  | .error e => .failure id (.make e.code.number e.message)

def select (plugin : Plugin) (config : Config) (request : Request) :
    Except RoutingError (Call × Handler Json) := do
  let some family := plugin.lookup request.method | .error (.unknownMethod request.method)
  let call ← (Call.ofRequest request).mapError .noCall
  let some subcommand := call.subcommand? | .error .noArguments
  let some handler := family ⟨call, config⟩ | .error (.unknownSubcommand subcommand)
  pure (call, handler)

/-- What becomes of a request. -/
def routeRequest (plugin : Plugin) (config : Config) (request : Request) : Routing :=
  match plugin.select config request with
  | .error e => .answered (e.response request.id)
  | .ok (call, handler) =>
    .handled call.id do
      let outcome ← handler.run
      pure (respond request.id outcome)

def route (plugin : Plugin) (config : Config) (input : Text.Raw) : Routing :=
  match readRequest input with
  | .error (id, e) => .answered (e.response id)
  | .ok request => plugin.routeRequest config request

/-- Answers an input with the help of a store. -/
def serve {σ : Type} (plugin : Plugin) (config : Config) (exchange : Exchange σ) (input : Text.Raw)
    (state : σ) : Played σ Response :=
  match plugin.route config input with
  | .answered response => ⟨response, [], 1, state⟩
  | .handled callId session => session.run exchange callId 1 state

end Plugin

end WorldPlugins
