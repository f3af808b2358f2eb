import WorldPlugins.Plugin.Error
import WorldPlugins.Store

/-! # Sessions with a store in memory

A store in memory answers every request under its own id, and no method looks at the id of the plugin call.  So
what comes of a session depends on the store alone: `Session.eval` leaves out the numbers, and `Session.outcome`
is the same for sessions that may fail.  Each is a homomorphism, so a handler is computed step by step.
-/

namespace WorldPlugins

open Json (Decoder Members)

namespace Store

def reply (method : String) (params : Members) (s : Store) : Except RpcError Json × Store :=
  match Keyed.get? s.failures method with
  | some failure => (.error (.ofErrorObject failure), s)
  | none =>
    match StoreMethod.ofName? method with
    | none => (.error (.remote ErrorCode.methodNotFound.number ("Unrecognized method " ++ method)), s)
    | some known =>
      match perform params s known with
      | .ok (result, s) => (.ok result, s)
      | .error e => (.error (.ofErrorObject e), s)

section CallId

variable {key : String} (callId : Json) (params : Members)

private theorem get?_insert_callId (h : key ≠ callIdKey) :
    Keyed.get? (Keyed.insert callIdKey callId params) key = Keyed.get? params key :=
  Keyed.get?_insert_of_ne params callId h

private theorem string?_insert_callId (h : key ≠ callIdKey) :
    Members.string? (Keyed.insert callIdKey callId params) key = params.string? key := by
  rw [Members.string?, get?_insert_callId callId params h, Members.string?]

private theorem stringParam_insert_callId (h : key ≠ callIdKey) :
    stringParam (Keyed.insert callIdKey callId params) key = stringParam params key := by
  rw [stringParam, string?_insert_callId callId params h, stringParam]

private theorem payloadParam_insert_callId {α : Type} (d : Decoder α) (h : key ≠ callIdKey) :
    payloadParam d (Keyed.insert callIdKey callId params) key = payloadParam d params key := by
  rw [payloadParam, get?_insert_callId callId params h, payloadParam]

/-- No method looks at the id of the plugin call. -/
private theorem perform_insert_callId (s : Store) (m : StoreMethod) :
    perform (Keyed.insert callIdKey callId params) s m = perform params s m := by
  cases m <;>
    simp (disch := decide) only [perform, stringParam_insert_callId, string?_insert_callId,
      payloadParam_insert_callId]

end CallId

/-- A request of a session is answered under its own id, whatever its number. -/
theorem settle_exchange (s : Store) (callId : String) (number : Nat) (method : String) (params : Members) :
    Session.settle (.number number) (s.exchange (Session.request callId number method params)).1 =
        (s.reply method params).1 ∧
      (s.exchange (Session.request callId number method params)).2 = (s.reply method params).2 := by
  have hmembers : (Session.request callId number method params).members? =
      some (Keyed.insert callIdKey (.string callId) params) := rfl
  have hmethod : (Session.request callId number method params).method = method := rfl
  have hid : (Session.request callId number method params).id = some (.number number) := rfl
  simp only [exchange, answer, hmembers, hmethod, hid, Option.getD_some, execute,
    Keyed.get?_insert_self, perform_insert_callId, reply]
  cases hfailure : Keyed.get? s.failures method with
  | some failure => exact ⟨rfl, rfl⟩
  | none =>
    cases hknown : StoreMethod.ofName? method with
    | none => exact ⟨rfl, rfl⟩
    | some known =>
      cases hperform : perform params s known with
      | error e => simp [hperform, Session.settle, Response.failure]
      | ok outcome => simp [hperform, Session.settle, Response.success]

end Store

namespace Session

variable {α β : Type}

def eval : Session α → Store → α × Store
  | .done a, s => (a, s)
  | .ask method params next, s =>
    let (reply, s) := s.reply method params
    (next reply).eval s

/-- The numbers of requests and the id of the call make no difference. -/
theorem run_exchange (callId : String) (x : Session α) (number : Nat) (s : Store) :
    (x.run Store.exchange callId number s).value = (x.eval s).1 ∧
      (x.run Store.exchange callId number s).state = (x.eval s).2 := by
  induction x generalizing number s with
  | done a => exact ⟨rfl, rfl⟩
  | ask method params next ih =>
    obtain ⟨hreply, hstate⟩ := s.settle_exchange callId number method params
    simp only [run, eval, hreply, hstate]
    exact ih _ _ _

theorem eval_bind (x : Session α) (f : α → Session β) (s : Store) :
    (x >>= f).eval s = (f (x.eval s).1).eval (x.eval s).2 := by
  induction x generalizing s with
  | done a => rfl
  | ask method params next ih => simp only [ask_bind, eval, ih]

variable {ε : Type}

/-- What comes of a session that may fail, and the store after it. -/
def outcome (x : ExceptT ε Session α) (s : Store) : Except ε α × Store := x.run.eval s

@[simp] theorem outcome_pure (a : α) (s : Store) :
    outcome (pure a : ExceptT ε Session α) s = (.ok a, s) := rfl

@[simp] theorem outcome_throw (e : ε) (s : Store) :
    outcome (throw e : ExceptT ε Session α) s = (.error e, s) := rfl

/-- What follows is done only if nothing failed before. -/
theorem outcome_bind (x : ExceptT ε Session α) (f : α → ExceptT ε Session β) (s : Store) :
    outcome (x >>= f) s =
      match outcome x s with
      | (.ok a, s) => outcome (f a) s
      | (.error e, s) => (.error e, s) := by
  rw [outcome, ExceptT.run_bind, eval_bind, outcome]
  rcases x.run.eval s with ⟨a | e, t⟩ <;> rfl

theorem outcome_ite (c : Prop) [Decidable c] (x y : ExceptT ε Session α) (s : Store) :
    outcome (if c then x else y) s = if c then outcome x s else outcome y s :=
  apply_ite (fun z => outcome z s) c x y

@[simp] theorem outcome_lift (x : Session α) (s : Store) :
    outcome (ExceptT.lift x : ExceptT ε Session α) s = (.ok (x.eval s).1, (x.eval s).2) := by
  rw [outcome, ExceptT.run_lift, map_eq_pure_bind, eval_bind]
  rfl

@[simp] theorem outcome_ofApi (api : Api α) (s : Store) :
    outcome (liftM api : Handler α) s = ((outcome api s).1.mapError .store, (outcome api s).2) := by
  change (api.run >>= fun r => pure (r.mapError PluginError.store)).eval s = _
  rw [eval_bind]
  rfl

@[simp] theorem outcome_ofAttr (r : Except AttrError α) (s : Store) :
    outcome (liftM r : Handler α) s = (r.mapError .attr, s) := rfl

@[simp] theorem outcome_ofArgument (r : Except ArgumentError α) (s : Store) :
    outcome (liftM r : Handler α) s = (r.mapError .argument, s) := rfl

end Session

end WorldPlugins
