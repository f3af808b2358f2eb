import WorldPlugins.Calendar.Commands
import WorldPlugins.Chat.Guests
import WorldPlugins.Proofs.Plugin.Serving

/-! # One input, one response

Every input is answered with exactly one response, and the first thing wrong with it decides which.  The stages are
stated here without the dispatcher, each with what an input has passed when it gets there.  Only an input that passes
all of them reaches a handler, and only then is the store asked for anything.
-/

namespace WorldPlugins

namespace Plugin

/-- What may be wrong with an input before a handler gets it, in the order in which it is looked at. -/
inductive Stage
  | notJson
  | notRequest
  | unknownMethod
  | notCall
  | noArguments
  | unknownSubcommand
  deriving DecidableEq, Repr

def Stage.code : Stage → Int
  | .notJson => -32700
  | .notRequest => -32600
  | .unknownMethod => -32601
  | .notCall => -32602
  | .noArguments => -32602
  | .unknownSubcommand => -32602

/-- The id at the top of a value: a string, or an integer of 64 bits with a sign. -/
def idAtTop : Json → Option RequestId
  | .object members =>
    match Keyed.get? members "id" with
    | some (.number (.int n)) =>
      if -9223372036854775808 ≤ n ∧ n ≤ 9223372036854775807 then some (.number n) else none
    | some (.string s) => some (.text s)
    | _ => none
  | _ => none

def Requests (input : Text.Raw) (request : Request) : Prop :=
  ∃ value, Json.Decoder.any.ofRaw input = .ok value ∧ Request.decoder.ofJson value = .ok request

/-- An input passes all stages before this one and is found wrong there.  It is answered under this id. -/
inductive Stops (plugin : Plugin) (config : Config) (input : Text.Raw) : Stage → Option RequestId → Prop
  | notJson (hjson : ∀ value, Json.Decoder.any.ofRaw input ≠ .ok value) : Stops plugin config input .notJson none
  | notRequest {value : Json} (hjson : Json.Decoder.any.ofRaw input = .ok value)
      (hrequest : ∀ request, Request.decoder.ofJson value ≠ .ok request) :
      Stops plugin config input .notRequest (idAtTop value)
  | unknownMethod {request : Request} (hrequest : Requests input request)
      (hmethod : ∀ family, (request.method, family) ∉ plugin) :
      Stops plugin config input .unknownMethod request.id
  | notCall {request : Request} {family : Family} (hrequest : Requests input request)
      (hmethod : plugin.lookup request.method = some family) (hcall : ∀ call, ¬ request.Carries call) :
      Stops plugin config input .notCall request.id
  | noArguments {request : Request} {family : Family} {call : Call} (hrequest : Requests input request)
      (hmethod : plugin.lookup request.method = some family) (hcall : request.Carries call)
      (harguments : call.arguments = []) : Stops plugin config input .noArguments request.id
  | unknownSubcommand {request : Request} {family : Family} {call : Call} (hrequest : Requests input request)
      (hmethod : plugin.lookup request.method = some family) (hcall : request.Carries call)
      (harguments : call.arguments ≠ []) (hhandler : family ⟨call, config⟩ = none) :
      Stops plugin config input .unknownSubcommand request.id

/-- An input passes all stages: this handler gets its call.  It is answered under this id. -/
inductive Reaches (plugin : Plugin) (config : Config) (input : Text.Raw) :
    Option RequestId → Call → Handler Json → Prop
  | intro {request : Request} {family : Family} {call : Call} {handler : Handler Json}
      (hrequest : Requests input request) (hmethod : plugin.lookup request.method = some family)
      (hcall : request.Carries call) (harguments : call.arguments ≠ [])
      (hhandler : family ⟨call, config⟩ = some handler) : Reaches plugin config input request.id call handler

def written (id : Option RequestId) (key : String) (value : Json) : String :=
  (Json.object [("jsonrpc", .string "2.0"), ("id", (id.map RequestId.toJson).getD .null), (key, value)]).print

def writtenError (code : Int) (message : String) : Json :=
  .object [("code", .int code), ("message", .string message)]

theorem text_success (id : Option RequestId) (result : Json) :
    (Response.success id result).text = written id "result" result := rfl

theorem text_failure (id : Option RequestId) (code : Int) (message : String) :
    (Response.failure id (.make code message)).text = written id "error" (writtenError code message) := rfl

variable {plugin : Plugin} {config : Config} {input : Text.Raw} {request : Request} {id : Option RequestId}

theorem readRequest_eq_ok_iff : readRequest input = .ok request ↔ Requests input request := by
  unfold readRequest Requests
  cases hjson : Json.Decoder.any.ofRaw input with
  | error cause => simp
  | ok value => cases hrequest : Request.decoder.ofJson value <;> simp [hrequest]

theorem idAtTop_eq (value : Json) : ((value.object?.getD []).lookup "id").bind RequestId.ofJson? = idAtTop value := by
  cases value with
  | object members =>
    have hlookup : ((Json.object members).object?.getD []).lookup "id" = Keyed.get? members "id" := rfl
    rw [hlookup, idAtTop]
    cases Keyed.get? members "id" with
    | none => rfl
    | some id =>
      cases id with
      | number n =>
        cases n with
        | int n =>
          have hrange : Text.IsInt64 n ↔ -9223372036854775808 ≤ n ∧ n ≤ 9223372036854775807 := Iff.rfl
          simp only [Option.bind_some, RequestId.ofJson?, Text.int64?, hrange]
          split <;> rfl
        | float bits => rfl
      | _ => rfl
  | _ => rfl

private theorem lookup_eq_none_iff (plugin : Plugin) (method : String) :
    plugin.lookup method = none ↔ ∀ family, (method, family) ∉ plugin := by
  rw [List.lookup_eq_none_iff]
  constructor
  · intro h family hmem
    simpa using h (method, family) hmem
  · rintro h ⟨name, family⟩ hmem
    simp only [bne_iff_ne, ne_eq]
    rintro rfl
    exact h family hmem

/-- What is wrong at a stage is answered at once, with the code of the stage. -/
theorem route_of_stops {stage : Stage} (h : Stops plugin config input stage id) :
    ∃ e : RoutingError, plugin.route config input = .answered (e.response id) ∧ e.code.number = stage.code := by
  unfold route
  cases h with
  | notJson hjson =>
    cases hvalue : Json.Decoder.any.ofRaw input with
    | ok value => exact absurd hvalue (hjson value)
    | error cause => exact ⟨.unreadable cause, by simp [readRequest, hvalue], rfl⟩
  | @notRequest value hjson hrequest =>
    cases hfound : Request.decoder.ofJson value with
    | ok request => exact absurd hfound (hrequest request)
    | error cause => exact ⟨.noRequest cause, by simp [readRequest, hjson, hfound, ← idAtTop_eq], rfl⟩
  | @unknownMethod request hrequest hmethod =>
    have hlookup := (lookup_eq_none_iff plugin request.method).mpr hmethod
    refine ⟨.unknownMethod request.method, ?_, rfl⟩
    simp [readRequest_eq_ok_iff.mpr hrequest, routeRequest, select, hlookup]
  | @notCall request family hrequest hmethod hcall =>
    cases hfound : Call.ofRequest request with
    | ok call => exact absurd (Call.ofRequest_eq_ok_iff.mp hfound) (hcall call)
    | error cause =>
      refine ⟨.noCall cause, ?_, rfl⟩
      simp [readRequest_eq_ok_iff.mpr hrequest, routeRequest, select, hmethod, hfound, bind, Except.bind,
        Except.mapError]
  | @noArguments request family call hrequest hmethod hcall harguments =>
    have hsubcommand : call.subcommand? = none := by rw [Call.subcommand?, Call.argument?, harguments]; rfl
    refine ⟨.noArguments, ?_, rfl⟩
    simp [readRequest_eq_ok_iff.mpr hrequest, routeRequest, select, hmethod, Call.ofRequest_eq_ok_iff.mpr hcall, hsubcommand, bind, Except.bind,
      Except.mapError]
  | @unknownSubcommand request family call hrequest hmethod hcall harguments hhandler =>
    obtain ⟨subcommand, rest, hcons⟩ := List.exists_cons_of_ne_nil harguments
    have hsubcommand := Call.subcommand?_cons hcons
    refine ⟨.unknownSubcommand subcommand, ?_, rfl⟩
    simp [readRequest_eq_ok_iff.mpr hrequest, routeRequest, select, hmethod, Call.ofRequest_eq_ok_iff.mpr hcall, hsubcommand, hhandler, bind,
      Except.bind, Except.mapError]

theorem route_of_reaches {call : Call} {handler : Handler Json} (h : Reaches plugin config input id call handler) :
    plugin.route config input = .handled call.id (handler.run >>= fun r => pure (respond id r)) := by
  cases h with
  | @intro request family call handler hrequest hmethod hcall harguments hhandler =>
    obtain ⟨subcommand, rest, hcons⟩ := List.exists_cons_of_ne_nil harguments
    have hsubcommand := Call.subcommand?_cons hcons
    simp [route, readRequest_eq_ok_iff.mpr hrequest, routeRequest, select, hmethod, Call.ofRequest_eq_ok_iff.mpr hcall, hsubcommand, hhandler, bind,
      Except.bind, Except.mapError, pure, Except.pure]

/-- Every input is found wrong at a stage or reaches a handler. -/
theorem stops_or_reaches (plugin : Plugin) (config : Config) (input : Text.Raw) :
    (∃ stage id, Stops plugin config input stage id) ∨
      ∃ id call handler, Reaches plugin config input id call handler := by
  cases hjson : Json.Decoder.any.ofRaw input with
  | error cause => exact .inl ⟨_, _, .notJson (by simp [hjson])⟩
  | ok value =>
    cases hfound : Request.decoder.ofJson value with
    | error cause => exact .inl ⟨_, _, .notRequest hjson (by simp [hfound])⟩
    | ok request =>
      have hrequest : Requests input request := ⟨value, hjson, hfound⟩
      cases hmethod : plugin.lookup request.method with
      | none => exact .inl ⟨_, _, .unknownMethod hrequest ((lookup_eq_none_iff plugin _).mp hmethod)⟩
      | some family =>
        cases hcall : Call.ofRequest request with
        | error cause =>
          exact .inl ⟨_, _, .notCall hrequest hmethod (by simp [← Call.ofRequest_eq_ok_iff, hcall])⟩
        | ok call =>
          have hcall := Call.ofRequest_eq_ok_iff.mp hcall
          by_cases harguments : call.arguments = []
          · exact .inl ⟨_, _, .noArguments hrequest hmethod hcall harguments⟩
          · cases hhandler : family ⟨call, config⟩ with
            | none => exact .inl ⟨_, _, .unknownSubcommand hrequest hmethod hcall harguments hhandler⟩
            | some handler => exact .inr ⟨_, _, _, .intro hrequest hmethod hcall harguments hhandler⟩

end Plugin

def Call.exactly (c : Call) (n : Nat) (x : (Fin n → String) → Handler Json) : Handler Json :=
  if h : c.arguments.length = n then x fun i => c.arguments.get (i.cast h.symm)
  else Handler.misused (.count n c.arguments.length)

def Call.atLeast (c : Call) (n : Nat) (x : (Fin n → String) → Handler Json) : Handler Json :=
  if h : n ≤ c.arguments.length then x fun i => c.arguments.get (i.castLE h)
  else Handler.misused (.tooFew n c.arguments.length)

namespace Chat

def TalkCommand.byPlace (ctx : Context) : TalkCommand → Handler Json
  | .say => ctx.call.exactly 3 fun a => Chat.say ctx (a 1) (a 2)
  | .join => ctx.call.exactly 2 fun a => Chat.join ctx (a 1)
  | .leave => ctx.call.exactly 2 fun a => Chat.leave ctx (a 1)
  | .list => ctx.call.exactly 1 fun _ => Chat.list ctx
  | .mine => ctx.call.exactly 1 fun _ => Chat.mine ctx
  | .members => ctx.call.exactly 2 fun a => Chat.members ctx (a 1)

def AdminCommand.byPlace (ctx : Context) : AdminCommand → Handler Json
  | .create => ctx.call.exactly 2 fun a => Admin.create ctx (a 1)
  | .delete => ctx.call.exactly 2 fun a => Admin.delete ctx (a 1)
  | .inspect => ctx.call.exactly 2 fun a => Admin.inspect ctx (a 1)
  | .setAccess action => ctx.call.atLeast 3 fun a => Admin.setAccess ctx action (a 1) (ctx.call.arguments.drop 2)
  | .addMember => ctx.call.exactly 3 fun a => Admin.addMember ctx (a 1) (a 2)
  | .removeMember => ctx.call.exactly 3 fun a => Admin.removeMember ctx (a 1) (a 2)

theorem TalkCommand.run_eq_byPlace (ctx : Context) (command : TalkCommand) : command.run ctx = command.byPlace ctx := by
  obtain ⟨⟨id, method, extension, arguments⟩, config⟩ := ctx
  match arguments with
  | [] => cases command <;> rfl
  | [_] => cases command <;> rfl
  | [_, _] => cases command <;> rfl
  | [_, _, _] => cases command <;> rfl
  | _ :: _ :: _ :: _ :: rest => cases command <;> rfl

theorem AdminCommand.run_eq_byPlace (ctx : Context) (command : AdminCommand) :
    command.run ctx = command.byPlace ctx := by
  obtain ⟨⟨id, method, extension, arguments⟩, config⟩ := ctx
  match arguments with
  | [] => cases command <;> rfl
  | [_] => cases command <;> rfl
  | [_, _] => cases command <;> rfl
  | [_, _, _] => cases command <;> rfl
  | _ :: _ :: _ :: _ :: rest => cases command <;> rfl

/-- An arriving guest is looked for in the only argument. -/
theorem welcome_eq_byPlace (ctx : Context) :
    welcome ctx = ctx.call.exactly 1 fun a => welcome ⟨{ ctx.call with arguments := [a 0] }, ctx.config⟩ := by
  obtain ⟨⟨id, method, extension, arguments⟩, config⟩ := ctx
  match arguments with
  | [] => rfl
  | [_] => rfl
  | _ :: _ :: rest => rfl

end Chat

namespace Calendar

def EventCommand.byPlace [Time.ZoneData] (ctx : Context) : EventCommand → Handler Json
  | .create => ctx.call.exactly 5 fun a => Calendar.create ctx (a 1) (a 2) (a 3) (a 4)
  | .list => ctx.call.exactly 1 fun _ => Calendar.list ctx
  | .get => ctx.call.exactly 2 fun a => Calendar.get ctx (a 1)
  | .delete => ctx.call.exactly 2 fun a => Calendar.delete ctx (a 1)

theorem EventCommand.run_eq_byPlace [Time.ZoneData] (ctx : Context) (command : EventCommand) :
    command.run ctx = command.byPlace ctx := by
  obtain ⟨⟨id, method, extension, arguments⟩, config⟩ := ctx
  match arguments with
  | [] => cases command <;> rfl
  | [_] => cases command <;> rfl
  | [_, _] => cases command <;> rfl
  | [_, _, _] => cases command <;> rfl
  | [_, _, _, _] => cases command <;> rfl
  | [_, _, _, _, _] =>
    cases command with
    | create =>
      unfold byPlace Call.exactly EventCommand.run
      rw [dif_pos (show [_, _, _, _, _].length = 5 from rfl)]
      rfl
    | list | get | delete => rfl
  | _ :: _ :: _ :: _ :: _ :: _ :: rest => cases command <;> rfl

end Calendar

open Plugin (Stops Reaches written writtenError)

end WorldPlugins
