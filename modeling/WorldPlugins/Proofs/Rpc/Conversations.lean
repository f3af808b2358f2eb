import WorldPlugins.Plugin.Error
import WorldPlugins.Proofs.Except
import WorldPlugins.Rpc.Wire

/-! # Conversations

What passes between a session and a store that is not trusted: requests, each with the bytes that came back, if any
did.  A conversation is a path through the session as a tree, so what holds of every conversation holds against every
store, whatever it replies, and what came back decides how a conversation goes on.  `Session.AsksOnly` says of the
tree as a whole which requests it can ever make.
-/

namespace WorldPlugins

open Json (Decoder Members)

def Request.Changes (r : Request) : Prop := r.method = "setAttr" ∨ r.method = "removeAttr"

instance (r : Request) : Decidable r.Changes := inferInstanceAs (Decidable (_ ∨ _))

structure RoundTrip where
  request : Request
  reply : Except ConnectFault (List UInt8)

def Wire.noted {σ : Type} (wire : Wire σ) : Wire (σ × List RoundTrip) := fun request (state, trips) =>
  let (reply, state) := wire request state
  (reply, state, trips ++ [⟨request, reply⟩])

namespace RoundTrip

variable {α : Type}

def response (t : RoundTrip) : Except RpcError Response :=
  match t.reply with
  | .error cause => .error (.unreachable cause)
  | .ok bytes => Wire.readReply t.request.method bytes

def Asks (callId : String) (method : StoreMethod) (params : List (String × Json)) (t : RoundTrip) : Prop :=
  ∃ number : Nat, t.request = Session.request callId number method.name (Keyed.ofList params)

theorem Asks.method_eq {callId : String} {method : StoreMethod} {params : List (String × Json)} {t : RoundTrip}
    (h : t.Asks callId method params) : t.request.method = method.name := by
  obtain ⟨number, hrequest⟩ := h
  rw [hrequest]
  rfl

/-- What came back is a response without an error, has the id of the request, and its result decodes to a value. -/
def Gives (d : Decoder α) (a : α) (t : RoundTrip) : Prop :=
  ∃ bytes response, t.reply = .ok bytes ∧ Wire.readReply t.request.method bytes = .ok response ∧
    response.error = none ∧ response.id = t.request.id ∧ d.ofJson (response.result.getD .null) = .ok a

def Refuses (e : ErrorObject) (t : RoundTrip) : Prop :=
  ∃ bytes response, t.reply = .ok bytes ∧ Wire.readReply t.request.method bytes = .ok response ∧
    response.error = some e

def Changes (t : RoundTrip) : Prop := t.request.Changes

instance (t : RoundTrip) : Decidable t.Changes := inferInstanceAs (Decidable t.request.Changes)

/-- What a session makes of a round trip: a value only if it gives the value, and an absence only if the store said
so. -/
structure Tells (d : Decoder α) (t : RoundTrip) (r : Except RpcError α) : Prop where
  gives : ∀ a, r = .ok a → t.Gives d a
  refuses : ∀ e, r = .error e → e.isNotFound = true → ∃ o, t.Refuses o ∧ o.code = -32004

end RoundTrip

namespace Session

variable {σ α β ε : Type} {callId : String} {trips first second : List RoundTrip}

/-- A session may have a conversation, and then end with a value. -/
inductive Conversation (callId : String) : Session α → List RoundTrip → α → Prop
  | done (a : α) : Conversation callId (.done a) [] a
  | ask {method params next trips a} (number : Nat) (reply : Except ConnectFault (List UInt8))
      (rest : Conversation callId
        (next (settle (.number number) (RoundTrip.response ⟨request callId number method params, reply⟩))) trips a) :
      Conversation callId (.ask method params next) (⟨request callId number method params, reply⟩ :: trips) a

theorem conversation_done_iff (a b : α) :
    (Session.done a).Conversation callId trips b ↔ trips = [] ∧ b = a := by
  constructor
  · intro h
    cases h
    exact ⟨rfl, rfl⟩
  · rintro ⟨rfl, rfl⟩
    exact .done _

theorem conversation_ask_iff (method : String) (params : Members) (next : Except RpcError Json → Session α) (a : α) :
    (Session.ask method params next).Conversation callId trips a ↔
      ∃ number reply rest, trips = ⟨request callId number method params, reply⟩ :: rest ∧
        (next (settle (.number number) (RoundTrip.response ⟨request callId number method params, reply⟩))).Conversation
          callId rest a := by
  constructor
  · intro h
    cases h with
    | ask number reply rest => exact ⟨number, reply, _, rfl, rest⟩
  · rintro ⟨number, reply, rest, rfl, h⟩
    exact .ask number reply h

/-- A conversation of one session after another is one of the first and then one of the second. -/
theorem conversation_bind_iff (x : Session α) (f : α → Session β) (b : β) :
    (x >>= f).Conversation callId trips b ↔
      ∃ first second a, trips = first ++ second ∧ x.Conversation callId first a ∧
        (f a).Conversation callId second b := by
  induction x generalizing trips with
  | done a =>
    rw [done_bind]
    constructor
    · intro h
      exact ⟨[], trips, a, rfl, .done a, h⟩
    · rintro ⟨first, second, c, rfl, hfirst, hsecond⟩
      obtain ⟨rfl, rfl⟩ := (conversation_done_iff a c).mp hfirst
      exact hsecond
  | ask method params next ih =>
    rw [ask_bind, conversation_ask_iff]
    constructor
    · rintro ⟨number, reply, rest, rfl, h⟩
      obtain ⟨first, second, a, rfl, hfirst, hsecond⟩ := (ih _).mp h
      exact ⟨_ :: first, second, a, rfl, .ask number reply hfirst, hsecond⟩
    · rintro ⟨first, second, a, rfl, hfirst, hsecond⟩
      obtain ⟨number, reply, rest, rfl, h⟩ := (conversation_ask_iff _ _ _ _).mp hfirst
      exact ⟨number, reply, rest ++ second, rfl, (ih _).mpr ⟨rest, second, a, rfl, h, hsecond⟩⟩

private theorem number_of_request {number other : Nat} {method : String} {params : Members}
    (h : request callId number method params = request callId other method params) : number = other := by
  have hid : (number : Int) = other := by simpa [request, Request.call] using h
  exact Int.ofNat_inj.mp hid

/-- What came back decides how a session goes on: round trips of its first part that lead to a value lead to no
other, and the others are those of its second part. -/
theorem Conversation.rest {x : Session α} {f : α → Session β} {a : α} {b : β} (hx : x.Conversation callId first a)
    (h : (x >>= f).Conversation callId (first ++ second) b) : (f a).Conversation callId second b := by
  induction hx with
  | done a => exact h
  | ask number reply rest ih =>
    obtain ⟨other, reply', rest', htrips, hrest⟩ := (conversation_ask_iff _ _ _ _).mp h
    obtain ⟨htrip, rfl⟩ := List.cons.inj htrips
    obtain ⟨hrequest, rfl⟩ := RoundTrip.mk.inj htrip
    obtain rfl := number_of_request hrequest
    exact ih hrest

theorem Conversation.unique {x : Session α} {a b : α} (ha : x.Conversation callId trips a)
    (hb : x.Conversation callId trips b) : b = a := by
  have h : (x >>= .done).Conversation callId (trips ++ []) b := by rwa [bind_done, List.append_nil]
  exact ((conversation_done_iff a b).mp (ha.rest h)).2

theorem exchange_eq (wire : Wire σ) (r : Request) (state : σ) :
    wire.exchange r state = (RoundTrip.response ⟨r, (wire r state).1⟩, (wire r state).2) := by
  unfold Wire.exchange
  rcases wire r state with ⟨cause | bytes, next⟩
  · rfl
  · rfl

private theorem exchange_noted (wire : Wire σ) (r : Request) (state : σ) (before : List RoundTrip) :
    wire.noted.exchange r (state, before) =
      (RoundTrip.response ⟨r, (wire r state).1⟩, (wire r state).2, before ++ [⟨r, (wire r state).1⟩]) :=
  exchange_eq wire.noted r (state, before)

/-- Playing a session against a store is one of its conversations, and noting it down changes nothing. -/
theorem run_noted (wire : Wire σ) (callId : String) (x : Session α) (number : Nat) (state : σ)
    (before : List RoundTrip) :
    ∃ trips, x.run wire.noted.exchange callId number (state, before) =
        ⟨(x.run wire.exchange callId number state).value, (x.run wire.exchange callId number state).sent,
          (x.run wire.exchange callId number state).next, (x.run wire.exchange callId number state).state,
          before ++ trips⟩ ∧
      trips.map RoundTrip.request = (x.run wire.exchange callId number state).sent ∧
      x.Conversation callId trips (x.run wire.exchange callId number state).value := by
  -- What was noted before stays in front, so the induction is over any `before`.
  induction x generalizing number state before with
  | done a => exact ⟨[], by simp, rfl, .done a⟩
  | ask method params next ih =>
    let r := request callId number method params
    let trip : RoundTrip := ⟨r, (wire r state).1⟩
    obtain ⟨trips, hrun, hsent, hconversation⟩ := ih (settle (.number number) trip.response) (number + 1)
      (wire r state).2 (before ++ [trip])
    simp only [run, exchange_eq wire, exchange_noted]
    refine ⟨trip :: trips, ?_, ?_, .ask number _ hconversation⟩
    · rw [hrun, List.append_assoc]
      rfl
    · rw [List.map_cons, hsent]

/-- What may fail stops at its failure, or the rest follows. -/
theorem Conversation.bind_cases {x : ExceptT ε Session α} {f : α → ExceptT ε Session β} {r : Except ε β}
    (h : (x >>= f).run.Conversation callId trips r) :
    (∃ e, r = .error e ∧ x.run.Conversation callId trips (.error e)) ∨
      ∃ a first second, trips = first ++ second ∧ x.run.Conversation callId first (.ok a) ∧
        (f a).run.Conversation callId second r := by
  rw [ExceptT.run_bind, conversation_bind_iff] at h
  obtain ⟨first, second, outcome, rfl, hfirst, hsecond⟩ := h
  cases outcome with
  | ok a => exact .inr ⟨a, first, second, rfl, hfirst, hsecond⟩
  | error e =>
    obtain ⟨rfl, rfl⟩ := (conversation_done_iff _ _).mp hsecond
    rw [List.append_nil]
    exact .inl ⟨e, rfl, hfirst⟩

theorem Conversation.bindExcept {x : ExceptT ε Session α} {f : α → ExceptT ε Session β} {a : α} {r : Except ε β}
    (hx : x.run.Conversation callId first (.ok a)) (hf : (f a).run.Conversation callId second r) :
    (x >>= f).run.Conversation callId (first ++ second) r := by
  rw [ExceptT.run_bind, conversation_bind_iff]
  exact ⟨first, second, _, rfl, hx, hf⟩

theorem Conversation.restExcept {x : ExceptT ε Session α} {f : α → ExceptT ε Session β} {a : α} {r : Except ε β}
    (hx : x.run.Conversation callId first (.ok a)) (h : (x >>= f).run.Conversation callId (first ++ second) r) :
    (f a).run.Conversation callId second r := by
  rw [ExceptT.run_bind] at h
  exact hx.rest h

theorem Conversation.of_pure {a : α} {r : Except ε α}
    (h : (pure a : ExceptT ε Session α).run.Conversation callId trips r) : trips = [] ∧ r = .ok a :=
  (conversation_done_iff _ _).mp h

theorem Conversation.of_throw {e : ε} {r : Except ε α}
    (h : (throw e : ExceptT ε Session α).run.Conversation callId trips r) : trips = [] ∧ r = .error e :=
  (conversation_done_iff _ _).mp h

theorem Conversation.of_lift {x : Session α} {r : Except ε α}
    (h : (ExceptT.lift x : ExceptT ε Session α).run.Conversation callId trips r) :
    ∃ a, r = .ok a ∧ x.Conversation callId trips a := by
  rw [ExceptT.run_lift, map_eq_pure_bind, conversation_bind_iff] at h
  obtain ⟨first, second, a, rfl, hfirst, hsecond⟩ := h
  obtain ⟨rfl, rfl⟩ := (conversation_done_iff _ _).mp hsecond
  rw [List.append_nil]
  exact ⟨a, rfl, hfirst⟩

theorem Conversation.lift {x : Session α} {a : α} (h : x.Conversation callId trips a) :
    (ExceptT.lift x : ExceptT ε Session α).run.Conversation callId trips (.ok a) := by
  rw [ExceptT.run_lift, map_eq_pure_bind, conversation_bind_iff]
  exact ⟨trips, [], a, (List.append_nil trips).symm, h, .done _⟩

theorem Conversation.of_ofApi {api : Api α} {r : Except PluginError α}
    (h : (liftM api : Handler α).run.Conversation callId trips r) :
    ∃ q, r = q.mapError .store ∧ api.run.Conversation callId trips q := by
  change (api.run >>= fun q => pure (q.mapError PluginError.store)).Conversation callId trips r at h
  rw [conversation_bind_iff] at h
  obtain ⟨first, second, q, rfl, hfirst, hsecond⟩ := h
  obtain ⟨rfl, rfl⟩ := (conversation_done_iff _ _).mp hsecond
  rw [List.append_nil]
  exact ⟨q, rfl, hfirst⟩

theorem Conversation.ofApi {api : Api α} {a : α} (h : api.run.Conversation callId trips (.ok a)) :
    (liftM api : Handler α).run.Conversation callId trips (.ok a) := by
  change (api.run >>= fun q => pure (q.mapError PluginError.store)).Conversation callId trips (.ok a)
  rw [conversation_bind_iff]
  exact ⟨trips, [], .ok a, (List.append_nil trips).symm, h, .done _⟩

theorem Conversation.of_ofAttr {q : Except AttrError α} {r : Except PluginError α}
    (h : (liftM q : Handler α).run.Conversation callId trips r) : trips = [] ∧ r = q.mapError .attr :=
  (conversation_done_iff _ _).mp h

/-- Whatever the replies, a session makes only requests of this kind. -/
def AsksOnly (p : String → Members → Prop) : Session α → Prop
  | .done _ => True
  | .ask method params next => p method params ∧ ∀ reply, AsksOnly p (next reply)

variable {p q : String → Members → Prop}

theorem AsksOnly.mono {x : Session α} (h : x.AsksOnly p) (hpq : ∀ method params, p method params → q method params) :
    x.AsksOnly q := by
  induction x with
  | done a => trivial
  | ask method params next ih => exact ⟨hpq _ _ h.1, fun reply => ih reply (h.2 reply)⟩

theorem AsksOnly.bind {x : Session α} {f : α → Session β} (hx : x.AsksOnly p) (hf : ∀ a, (f a).AsksOnly p) :
    (x >>= f).AsksOnly p := by
  induction x with
  | done a => exact hf a
  | ask method params next ih => exact ⟨hx.1, fun reply => ih reply (hx.2 reply)⟩

theorem AsksOnly.bindExcept {x : ExceptT ε Session α} {f : α → ExceptT ε Session β} (hx : x.run.AsksOnly p)
    (hf : ∀ a, (f a).run.AsksOnly p) : (x >>= f).run.AsksOnly p := by
  rw [ExceptT.run_bind]
  refine hx.bind ?_
  rintro (e | a)
  · trivial
  · exact hf a

theorem AsksOnly.lift {x : Session α} (hx : x.AsksOnly p) : (ExceptT.lift x : ExceptT ε Session α).run.AsksOnly p := by
  rw [ExceptT.run_lift, map_eq_pure_bind]
  exact hx.bind fun _ => trivial

theorem AsksOnly.ofApi {api : Api α} (h : api.run.AsksOnly p) : (liftM api : Handler α).run.AsksOnly p := by
  change (api.run >>= fun q => pure (q.mapError PluginError.store)).AsksOnly p
  exact h.bind fun _ => trivial

/-- The requests of a session that is played are of this kind, and they are numbered one after another. -/
theorem AsksOnly.sent_getElem? {x : Session α} (hx : x.AsksOnly p) (exchange : Exchange σ) (number : Nat) (state : σ)
    (k : Nat) (r : Request) (hr : (x.run exchange callId number state).sent[k]? = some r) :
    ∃ method params, r = request callId (number + k) method params ∧ p method params := by
  induction x generalizing number state k with
  | done a => simp at hr
  | ask method params next ih =>
    cases k with
    | zero => exact ⟨method, params, (Option.some.inj hr).symm, hx.1⟩
    | succ k =>
      have hnumber : number + (k + 1) = number + 1 + k := by omega
      rw [hnumber]
      exact ih _ (hx.2 _) _ _ k hr

theorem AsksOnly.sent {x : Session α} (hx : x.AsksOnly p) (exchange : Exchange σ) (number : Nat) (state : σ) :
    ∀ r ∈ (x.run exchange callId number state).sent,
      ∃ number method params, r = request callId number method params ∧ p method params := by
  intro r hr
  obtain ⟨k, hk⟩ := List.mem_iff_getElem?.mp hr
  exact ⟨_, hx.sent_getElem? exchange number state k r hk⟩

/-- The requests of a conversation are of this kind. -/
theorem Conversation.asks {x : Session α} {a : α} (h : x.Conversation callId trips a) (hx : x.AsksOnly p) :
    ∀ t ∈ trips, ∃ number method params, t.request = request callId number method params ∧ p method params := by
  induction h with
  | done a => exact fun t ht => absurd ht List.not_mem_nil
  | ask number reply rest ih =>
    rintro t (_ | ⟨_, ht⟩)
    · exact ⟨number, _, _, rfl, hx.1⟩
    · exact ih (hx.2 _) t ht

def AsksFirst : Session α → Prop
  | .done _ => False
  | .ask _ _ _ => True

theorem AsksFirst.bind {x : Session α} (h : x.AsksFirst) (f : α → Session β) : (x >>= f).AsksFirst := by
  cases x with
  | done a => exact h.elim
  | ask method params next => trivial

theorem AsksFirst.bindExcept {x : ExceptT ε Session α} (h : x.run.AsksFirst) (f : α → ExceptT ε Session β) :
    (x >>= f).run.AsksFirst := by
  rw [ExceptT.run_bind]
  exact h.bind _

theorem AsksFirst.lift {x : Session α} (h : x.AsksFirst) : (ExceptT.lift x : ExceptT ε Session α).run.AsksFirst := by
  rw [ExceptT.run_lift, map_eq_pure_bind]
  exact h.bind _

theorem AsksFirst.ofApi {api : Api α} (h : api.run.AsksFirst) : (liftM api : Handler α).run.AsksFirst := by
  change (api.run >>= fun r => pure (r.mapError PluginError.store)).AsksFirst
  exact h.bind _

/-- A session that begins with a request sends it. -/
theorem AsksFirst.sent_ne_nil {x : Session α} (h : x.AsksFirst) (exchange : Exchange σ) (callId : String)
    (number : Nat) (state : σ) : (x.run exchange callId number state).sent ≠ [] := by
  cases x with
  | done a => exact h.elim
  | ask method params next => exact List.cons_ne_nil _ _

end Session

end WorldPlugins
