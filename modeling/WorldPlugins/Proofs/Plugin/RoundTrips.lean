import WorldPlugins.Proofs.Plugin.Serving
import WorldPlugins.Proofs.Rpc.Methods

/-! # The round trips of an input

Serving an input against any store takes the round trips of a conversation of its handler, and none if it has no
handler.
-/

namespace WorldPlugins.Plugin

open Session (Conversation)

variable {σ : Type} {plugin : Plugin} {config : Config} {input : Text.Raw}

/-- The round trips that serving an input takes with a store: the requests in order, each with what came back. -/
def trips (plugin : Plugin) (config : Config) (wire : Wire σ) (input : Text.Raw) (state : σ) : List RoundTrip :=
  (plugin.serve config wire.noted.exchange input (state, [])).state.2

/-- Noting the round trips changes neither the requests nor the response nor the store. -/
theorem serve_noted (plugin : Plugin) (config : Config) (wire : Wire σ) (input : Text.Raw) (state : σ) :
    (plugin.trips config wire input state).map RoundTrip.request =
        (plugin.serve config wire.exchange input state).sent ∧
      (plugin.serve config wire.noted.exchange input (state, [])).value =
        (plugin.serve config wire.exchange input state).value ∧
      (plugin.serve config wire.noted.exchange input (state, [])).state.1 =
        (plugin.serve config wire.exchange input state).state := by
  unfold trips serve
  cases plugin.route config input with
  | answered response => exact ⟨rfl, rfl, rfl⟩
  | handled callId session =>
    obtain ⟨trips, hrun, hsent, -⟩ := session.run_noted wire callId 1 state []
    dsimp only
    rw [hrun]
    exact ⟨hsent, rfl, rfl⟩

theorem trips_unhandled (h : (callOf? input).bind (plugin.handler? config) = none) (wire : Wire σ) (state : σ) :
    plugin.trips config wire input state = [] := by
  obtain ⟨response, -, hroute⟩ := route_unhandled h
  simp [trips, serve, hroute]

/-- The round trips of an input with a handler are a conversation of it, and its end is the response. -/
theorem conversation_trips {call : Call} {handler : Handler Json} (hcall : callOf? input = some call)
    (hhandler : plugin.handler? config call = some handler) (wire : Wire σ) (state : σ) :
    ∃ id r, handler.run.Conversation call.id (plugin.trips config wire input state) r ∧
      (plugin.serve config wire.exchange input state).value = respond id r := by
  obtain ⟨id, hroute⟩ := route_handled hcall hhandler
  obtain ⟨trips, hrun, -, hconversation⟩ :=
    Session.run_noted wire call.id (handler.run >>= fun r => pure (respond id r)) 1 state []
  obtain ⟨first, second, r, rfl, hfirst, hsecond⟩ := (Session.conversation_bind_iff _ _ _).mp hconversation
  obtain ⟨rfl, hresponse⟩ := (Session.conversation_done_iff _ _).mp hsecond
  refine ⟨id, r, ?_, ?_⟩
  · simp only [Plugin.trips, serve, hroute, hrun]
    simpa using hfirst
  · simp only [serve, hroute, hresponse]

/-- An input takes no round trips, or those of its handler. -/
theorem trips_cases (plugin : Plugin) (config : Config) (wire : Wire σ) (input : Text.Raw) (state : σ) :
    plugin.trips config wire input state = [] ∨
      ∃ call handler r, callOf? input = some call ∧ plugin.handler? config call = some handler ∧
        handler.run.Conversation call.id (plugin.trips config wire input state) r := by
  cases hselected : (callOf? input).bind (plugin.handler? config) with
  | none => exact .inl (trips_unhandled hselected wire state)
  | some handler =>
    obtain ⟨call, hcall, hhandler⟩ := Option.bind_eq_some_iff.mp hselected
    obtain ⟨-, r, hconversation, -⟩ := conversation_trips hcall hhandler wire state
    exact .inr ⟨call, handler, r, hcall, hhandler, hconversation⟩

def bytesOfReply (number key value : String) : List UInt8 :=
  ("\x7b\"jsonrpc\":\"2.0\",\"id\":" ++ number ++ ",\"" ++ key ++ "\":" ++ value ++ "\x7d").toUTF8.data.toList

end WorldPlugins.Plugin
