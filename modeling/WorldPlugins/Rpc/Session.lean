import WorldPlugins.Rpc.Error

/-! # Sessions

What a plugin does with the store is a tree: it is done, or it asks for a method with parameters and goes on
with the reply.  `Session.run` plays a session against a store.  It numbers the requests 1, 2, 3, …, puts the id
of the plugin call into each, and tells from each reply what the session gets to see.
-/

namespace WorldPlugins

open Json (Members)

/-- The reserved parameter with the id of the plugin call. -/
def callIdKey : String := "_plugin_call_id"

/-- The reserved parameter with the extension that the plugin serves. -/
def extensionIdKey : String := "_extension_id"

/-- The reserved parameter with the arguments of a plugin call. -/
def argumentsKey : String := "_plugin_call_arguments"

/-- The reserved parameter that asks for the authority of the extension and not of the caller. -/
def authorityKey : String := "_as_extension"

/-- A computation that may ask the store. -/
inductive Session (α : Type) where
  | done (value : α)
  | ask (method : String) (params : Members) (next : Except RpcError Json → Session α)

namespace Session

variable {α β : Type}

def bind : Session α → (α → Session β) → Session β
  | .done a, f => f a
  | .ask method params next, f => .ask method params fun reply => (next reply).bind f

instance : Monad Session where
  pure := .done
  bind := bind

@[simp] theorem pure_eq_done (a : α) : (pure a : Session α) = .done a := rfl

@[simp] theorem done_bind (a : α) (f : α → Session β) : (Session.done a >>= f) = f a := rfl

@[simp] theorem ask_bind (method : String) (params : Members) (next : Except RpcError Json → Session α)
    (f : α → Session β) :
    (Session.ask method params next >>= f) = .ask method params fun reply => next reply >>= f := rfl

/-- A session with nothing after it is that session. -/
theorem bind_done (x : Session α) : (x >>= .done) = x := by
  induction x with
  | done a => rfl
  | ask method params next ih => simp only [ask_bind, ih]

/-- Sessions one after another may be grouped in either way. -/
theorem bind_assoc {γ : Type} (x : Session α) (f : α → Session β) (g : β → Session γ) :
    (x >>= f >>= g) = x >>= fun a => f a >>= g := by
  induction x with
  | done a => rfl
  | ask method params next ih => simp only [ask_bind, ih]

instance : LawfulMonad Session :=
  LawfulMonad.mk' Session bind_done (fun _ _ => rfl) bind_assoc

/-- What a session sees of the outcome of one exchange: an error reply is a failure whatever its id, a reply to
another request is malformed, and a missing result is null. -/
def settle (id : RequestId) : Except RpcError Response → Except RpcError Json
  | .error e => .error e
  | .ok response =>
    match response.error with
    | some e => .error (.ofErrorObject e)
    -- Only a result is checked against the id of the request.
    | none =>
      if response.id = some id then .ok (response.result.getD .null)
      else .error (.malformed (.foreign response.id id))

end Session

/-- How a store with state `σ` takes a request. -/
abbrev Exchange (σ : Type) := Request → σ → Except RpcError Response × σ

/-- What came of a session. -/
structure Played (σ α : Type) where
  value : α
  /-- The requests sent, in order. -/
  sent : List Request
  /-- The number of the next request. -/
  next : Nat
  state : σ

namespace Session

variable {σ α : Type}

def request (callId : String) (number : Nat) (method : String) (params : Members) : Request :=
  .call (.number number) method (Keyed.insert callIdKey (.string callId) params)

/-- Plays a session against a store. -/
def run (exchange : Exchange σ) (callId : String) : Session α → (number : Nat) → σ → Played σ α
  | .done a, number, state => ⟨a, [], number, state⟩
  | .ask method params next, number, state =>
    let r := request callId number method params
    let (reply, state) := exchange r state
    let rest := (next (settle (.number number) reply)).run exchange callId (number + 1) state
    { rest with sent := r :: rest.sent }

@[simp] theorem run_done (exchange : Exchange σ) (callId : String) (a : α) (number : Nat) (state : σ) :
    (Session.done a).run exchange callId number state = ⟨a, [], number, state⟩ := rfl

/-- Playing one session after another is playing the first and going on with the second where it ended. -/
theorem run_bind {β : Type} (exchange : Exchange σ) (callId : String) (x : Session α) (f : α → Session β)
    (number : Nat) (state : σ) :
    (x >>= f).run exchange callId number state =
      let first := x.run exchange callId number state
      let second := (f first.value).run exchange callId first.next first.state
      { second with sent := first.sent ++ second.sent } := by
  induction x generalizing number state with
  | done a => rfl
  | ask method params next ih => simp only [ask_bind, run, ih, List.cons_append]

end Session

end WorldPlugins
