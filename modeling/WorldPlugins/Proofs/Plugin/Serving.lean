import Mathlib.Data.List.Basic
import WorldPlugins.Plugin.Dispatch
import WorldPlugins.Proofs.Except
import WorldPlugins.Proofs.Store.Sessions

/-! # Serving inputs with a store in memory

An input holds a call or not, and a call has a handler or not.  Without either the input is answered at once, in a
way that does not depend on the store, and the store stays; otherwise the outcome of the handler is the response.
Inputs served one after another go on with the store that the one before them left.
-/

namespace WorldPlugins

open Session (outcome)

/-- A request carries a call: its parameters hold texts under two of the reserved names, and a list of texts under the
third. -/
structure Request.Carries (request : Request) (call : Call) : Prop where
  method : call.method = request.method
  params : ∃ members, request.params = some (.object members) ∧
    Keyed.get? members "_plugin_call_id" = some (.string call.id) ∧
    Keyed.get? members "_extension_id" = some (.string call.extension) ∧
    Keyed.get? members "_plugin_call_arguments" = some (.array (call.arguments.map .string))

theorem Call.readArguments_eq_ok_iff {index : Nat} {values : List Json} {arguments : List String} :
    readArguments index values = .ok arguments ↔ values = arguments.map .string := by
  induction values generalizing index arguments with
  | nil => cases arguments <;> simp [readArguments]
  | cons value values ih =>
    rw [readArguments]
    cases hvalue : value.string? with
    | none =>
      have hother : ∀ s, value ≠ .string s := fun s h => by simp [h, Json.string?] at hvalue
      cases arguments <;> simp [hother]
    | some s =>
      cases Json.string?_eq_some_iff.mp hvalue
      rw [map_eq_ok_iff]
      cases arguments <;> simp [ih, and_comm]

theorem Call.ofMembers_eq_ok_iff {method : String} {params : Json.Members} {call : Call} :
    ofMembers method params = .ok call ↔ call.method = method ∧
      Keyed.get? params "_plugin_call_id" = some (.string call.id) ∧
      Keyed.get? params "_extension_id" = some (.string call.extension) ∧
      Keyed.get? params "_plugin_call_arguments" = some (.array (call.arguments.map .string)) := by
  unfold ofMembers
  constructor
  · intro h
    split at h
    case h_2 => cases h
    next id hid =>
    split at h
    case h_2 => cases h
    next extension hextension =>
    split at h
    case h_2 => cases h
    next values hvalues =>
    obtain ⟨arguments, harguments, hcall⟩ := (bind_eq_ok_iff _ _ _).mp h
    cases hcall
    obtain ⟨listed, hlisted, harray⟩ := Option.bind_eq_some_iff.mp hvalues
    cases Json.array?_eq_some_iff.mp harray
    cases readArguments_eq_ok_iff.mp harguments
    exact ⟨rfl, (Json.Members.string?_eq_some_iff _ _ _).mp hid, (Json.Members.string?_eq_some_iff _ _ _).mp hextension,
      hlisted⟩
  · rintro ⟨rfl, hid, hextension, harguments⟩
    have hvalues : (Keyed.get? params argumentsKey).bind Json.array? = some (call.arguments.map .string) :=
      Option.bind_eq_some_iff.mpr ⟨_, harguments, rfl⟩
    have hread : readArguments 0 (call.arguments.map .string) = .ok call.arguments := readArguments_eq_ok_iff.mpr rfl
    rw [callIdKey, extensionIdKey, (Json.Members.string?_eq_some_iff _ _ _).mpr hid,
      (Json.Members.string?_eq_some_iff _ _ _).mpr hextension, hvalues]
    dsimp only
    rw [hread]
    rfl

theorem Call.ofRequest_eq_ok_iff {request : Request} {call : Call} :
    Call.ofRequest request = .ok call ↔ request.Carries call := by
  unfold ofRequest
  constructor
  · intro h
    split at h
    · next members hmembers =>
      obtain ⟨hmethod, hcarried⟩ := ofMembers_eq_ok_iff.mp h
      obtain ⟨params, hparams, hobject⟩ := Option.bind_eq_some_iff.mp hmembers
      cases Json.object?_eq_some_iff.mp hobject
      exact ⟨hmethod, members, hparams, hcarried⟩
    · cases h
  · rintro ⟨hmethod, members, hparams, hcarried⟩
    have hmembers : request.members? = some members := by
      rw [Request.members?, hparams]
      rfl
    rw [hmembers]
    exact ofMembers_eq_ok_iff.mpr ⟨hmethod, hcarried⟩

theorem Call.subcommand?_cons {call : Call} {first : String} {rest : List String}
    (h : call.arguments = first :: rest) : call.subcommand? = some first := by
  rw [subcommand?, argument?, h]
  rfl

theorem Call.eq_of_subcommand? {call : Call} {subcommand first : String} {rest : List String}
    (hsub : call.subcommand? = some subcommand) (h : call.arguments = first :: rest) : first = subcommand :=
  Option.some.inj ((subcommand?_cons h).symm.trans hsub)

namespace Plugin

def callOf? (input : Text.Raw) : Option Call :=
  match readRequest input with
  | .ok request => (Call.ofRequest request).toOption
  | .error _ => none

def methodOf? (input : Text.Raw) : Option String :=
  match readRequest input with
  | .ok request => some request.method
  | .error _ => none

theorem methodOf?_of_callOf? {input : Text.Raw} {call : Call} (h : callOf? input = some call) :
    methodOf? input = some call.method := by
  unfold callOf? at h
  unfold methodOf?
  cases hread : readRequest input with
  | error failure => simp [hread] at h
  | ok request =>
    cases hcall : Call.ofRequest request with
    | error e => simp [hread, hcall, Except.toOption] at h
    | ok found =>
      simp only [hread, hcall, Except.toOption, Option.some.injEq] at h
      rw [← h, (Call.ofRequest_eq_ok_iff.mp hcall).method]

def textOfCall (method arguments : String) : Text.Raw := Text.Raw.ofString
  ("\x7b\"jsonrpc\":\"2.0\",\"id\":1,\"method\":\"" ++ method ++ "\",\"params\":\x7b\"_plugin_call_id\":\"call\"," ++
    "\"_extension_id\":\"ext\",\"_plugin_call_arguments\":[" ++ arguments ++ "]\x7d\x7d")

def textOfNamelessCall (method arguments : String) : Text.Raw := Text.Raw.ofString
  ("\x7b\"jsonrpc\":\"2.0\",\"id\":1,\"method\":\"" ++ method ++ "\",\"params\":\x7b\"_plugin_call_id\":\"call\"," ++
    "\"_extension_id\":\"\",\"_plugin_call_arguments\":[" ++ arguments ++ "]\x7d\x7d")

def handler? (plugin : Plugin) (config : Config) (call : Call) : Option (Handler Json) :=
  if call.subcommand?.isSome then (plugin.lookup call.method).bind fun family => family ⟨call, config⟩ else none

variable {plugin : Plugin} {config : Config}

theorem select_eq_ok_iff (request : Request) (call : Call) (handler : Handler Json) :
    plugin.select config request = .ok (call, handler) ↔
      Call.ofRequest request = .ok call ∧ plugin.handler? config call = some handler := by
  constructor
  · intro h
    unfold select at h
    cases hfamily : plugin.lookup request.method with
    | none => simp [hfamily] at h
    | some family =>
      cases hcall : Call.ofRequest request with
      | error e => simp [hfamily, hcall, bind, Except.bind, Except.mapError] at h
      | ok c =>
        cases hsub : c.subcommand? with
        | none => simp [hfamily, hcall, hsub, bind, Except.bind, Except.mapError] at h
        | some subcommand =>
          cases hfound : family ⟨c, config⟩ with
          | none => simp [hfamily, hcall, hsub, hfound, bind, Except.bind, Except.mapError] at h
          | some found =>
            simp only [hfamily, hcall, hsub, hfound, bind, Except.bind, Except.mapError, pure, Except.pure,
              Except.ok.injEq, Prod.mk.injEq] at h
            obtain ⟨rfl, rfl⟩ := h
            simp [handler?, hsub, (Call.ofRequest_eq_ok_iff.mp hcall).method, hfamily, hfound]
  · rintro ⟨hcall, hhandler⟩
    cases hsub : call.subcommand? with
    | none => simp [handler?, hsub] at hhandler
    | some subcommand =>
      rw [handler?, hsub, if_pos Option.isSome_some, (Call.ofRequest_eq_ok_iff.mp hcall).method] at hhandler
      obtain ⟨family, hfamily, hfound⟩ := Option.bind_eq_some_iff.mp hhandler
      simp [select, hfamily, hcall, hsub, hfound, bind, Except.bind, Except.mapError, pure, Except.pure]

@[simp] theorem isSuccess_respond (id : Option RequestId) (r : Except PluginError Json) :
    (respond id r).isSuccess = r.isOk := by
  cases r <;> rfl

variable {input : Text.Raw}

theorem route_handled {call : Call} {handler : Handler Json} (hcall : callOf? input = some call)
    (hhandler : plugin.handler? config call = some handler) :
    ∃ id, plugin.route config input = .handled call.id (handler.run >>= fun r => pure (respond id r)) := by
  unfold callOf? at hcall
  cases hread : readRequest input with
  | error failure => simp [hread] at hcall
  | ok request =>
    rw [hread] at hcall
    have hrequest : Call.ofRequest request = .ok call := by
      cases h : Call.ofRequest request with
      | error e => simp [h, Except.toOption] at hcall
      | ok c => simpa [h, Except.toOption] using hcall
    have hselect := (select_eq_ok_iff request call handler).mpr ⟨hrequest, hhandler⟩
    exact ⟨request.id, by simp [route, hread, routeRequest, hselect]⟩

theorem route_unhandled (h : (callOf? input).bind (plugin.handler? config) = none) :
    ∃ response : Response, response.isSuccess = false ∧ plugin.route config input = .answered response := by
  cases hread : readRequest input with
  | error failure =>
    obtain ⟨id, e⟩ := failure
    exact ⟨e.response id, rfl, by simp [route, hread]⟩
  | ok request =>
    cases hselect : plugin.select config request with
    | error e => exact ⟨e.response request.id, rfl, by simp [route, hread, routeRequest, hselect]⟩
    | ok selected =>
      obtain ⟨call, handler⟩ := selected
      obtain ⟨hcall, hhandler⟩ := (select_eq_ok_iff request call handler).mp hselect
      simp [callOf?, hread, hcall, Except.toOption, hhandler] at h

theorem serve_handled {call : Call} {handler : Handler Json} (hcall : callOf? input = some call)
    (hhandler : plugin.handler? config call = some handler) :
    ∃ id, ∀ s, (plugin.serve config Store.exchange input s).value = respond id (outcome handler s).1 ∧
      (plugin.serve config Store.exchange input s).state = (outcome handler s).2 := by
  obtain ⟨id, hroute⟩ := route_handled hcall hhandler
  refine ⟨id, ?_⟩
  intro s
  obtain ⟨hvalue, hstate⟩ := Session.run_exchange call.id (handler.run >>= fun r => pure (respond id r)) 1 s
  rw [Session.eval_bind] at hvalue hstate
  simp only [serve, hroute]
  exact ⟨hvalue, hstate⟩

theorem serve_unhandled (h : (callOf? input).bind (plugin.handler? config) = none) :
    ∃ response : Response, response.isSuccess = false ∧
      ∀ s, (plugin.serve config Store.exchange input s).value = response ∧
        (plugin.serve config Store.exchange input s).state = s := by
  obtain ⟨response, hfailed, hroute⟩ := route_unhandled h
  exact ⟨response, hfailed, fun s => by simp [serve, hroute]⟩

/-- With any store, the requests of a call are those of its handler. -/
theorem sent_handled {σ : Type} {call : Call} {handler : Handler Json} (hcall : callOf? input = some call)
    (hhandler : plugin.handler? config call = some handler) (exchange : Exchange σ) (state : σ) :
    (plugin.serve config exchange input state).sent = (handler.run.run exchange call.id 1 state).sent := by
  obtain ⟨id, hroute⟩ := route_handled hcall hhandler
  simp only [serve, hroute, Session.run_bind]
  exact List.append_nil _

/-- With any store, an input makes no requests, or those of its handler. -/
theorem sent_cases {σ : Type} (plugin : Plugin) (config : Config) (exchange : Exchange σ) (input : Text.Raw)
    (state : σ) :
    (plugin.serve config exchange input state).sent = [] ∨
      ∃ call handler, callOf? input = some call ∧ plugin.handler? config call = some handler ∧
        (plugin.serve config exchange input state).sent = (handler.run.run exchange call.id 1 state).sent := by
  cases hselected : (callOf? input).bind (plugin.handler? config) with
  | none =>
    obtain ⟨response, -, hroute⟩ := route_unhandled hselected
    exact .inl (by simp only [serve, hroute])
  | some handler =>
    obtain ⟨call, hcall, hhandler⟩ := Option.bind_eq_some_iff.mp hselected
    exact .inr ⟨call, handler, hcall, hhandler, sent_handled hcall hhandler exchange state⟩

def serveAll (plugin : Plugin) (config : Config) : List Text.Raw → Store → List Response × Store
  | [], s => ([], s)
  | input :: inputs, s =>
    let played := plugin.serve config Store.exchange input s
    let (responses, t) := plugin.serveAll config inputs played.state
    (played.value :: responses, t)

end Plugin

end WorldPlugins
