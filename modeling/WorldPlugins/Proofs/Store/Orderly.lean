import WorldPlugins.Proofs.Rpc.Methods
import WorldPlugins.Proofs.Store.Changes

/-! # Sessions that keep the world in order

A plugin call is about one attribute at most, and nothing else in the world may change but for messages.  If the call
fails, nobody was told anything, and the attribute changed only if the message that confirms the change is made to
fail.  The lemmas follow the way in which handlers are put together: they read first, and then tell or change.
-/

namespace WorldPlugins

open Session (outcome outcome_bind AsksOnly)

namespace Store

/-- One attribute of a thing was written or removed.  Every other keeps its content and its place. -/
structure ChangedAt (thing name : String) (s t : Store) : Prop where
  things : ∀ other, other ≠ thing → t.thing? other = s.thing? other
  attributes : (∃ attr, attr.name = name ∧ t.attributes thing = Attr.upsert (s.attributes thing) attr) ∨
    t.attributes thing = (s.attributes thing).filter fun a => a.name != name
  kept : (t.attributes thing).filter (fun a => a.name != name) = (s.attributes thing).filter fun a => a.name != name

theorem changedAt_withAttr (s : Store) (thing : String) (attr : Attr) :
    ChangedAt thing attr.name s (s.withAttr thing attr) := by
  refine ⟨fun other h => thing?_setAttributes_of_ne s h _, .inl ⟨attr, rfl, attributes_withAttr_self s thing attr⟩, ?_⟩
  rw [attributes_withAttr_self]
  exact Attr.filter_upsert_of_not (fun name => name != attr.name) _ (bne_self_eq_false _)

theorem changedAt_without (s : Store) (thing name : String) : ChangedAt thing name s (s.without thing name) := by
  refine ⟨fun other h => thing?_setAttributes_of_ne s h _, .inr (attributes_without_self s thing name), ?_⟩
  rw [attributes_without_self, List.filter_filter]
  simp only [Bool.and_self]

/-- Only one of these requests changes anything, and after it only the caller is told, which is made to fail. -/
def Unconfirmed (s : Store) (requests : List Request) : Prop :=
  ∃ before change confirmation failure, requests = before ++ [change, confirmation] ∧ (∀ r ∈ before, ¬ r.Changes) ∧
    change.Changes ∧ confirmation.method = "sendMessageToCaller" ∧
    Keyed.get? s.failures "sendMessageToCaller" = some failure

/-- What a plugin call about this attribute, if it is about any, may leave behind. -/
structure Orderly (target : Option (String × String)) (s t : Store) (succeeded : Bool) (requests : List Request) :
    Prop where
  things : t.things = s.things ∨ ∃ thing name, target = some (thing, name) ∧ ChangedAt thing name s t
  rest : t = { s with things := t.things, sent := t.sent }
  failed : succeeded = false → t.sent = s.sent ∧ (t.things = s.things ∨ Unconfirmed s requests)

variable {target : Option (String × String)} {s t : Store} {succeeded : Bool} {requests quiet : List Request}

theorem Orderly.refl (target : Option (String × String)) (s : Store) (succeeded : Bool) (requests : List Request) :
    Orderly target s s succeeded requests :=
  ⟨.inl rfl, rfl, fun _ => ⟨rfl, .inl rfl⟩⟩

theorem Orderly.delivered (target : Option (String × String)) (s : Store) (messages : List Sent)
    (requests : List Request) : Orderly target s { s with sent := messages } true requests :=
  ⟨.inl rfl, rfl, nofun⟩

/-- Requests that come before and change nothing make no difference. -/
theorem Orderly.after (h : Orderly target s t succeeded requests) (hquiet : ∀ r ∈ quiet, ¬ r.Changes) :
    Orderly target s t succeeded (quiet ++ requests) := by
  refine ⟨h.things, h.rest, fun hfailed => ⟨(h.failed hfailed).1, ?_⟩⟩
  rcases (h.failed hfailed).2 with hsame | ⟨before, change, confirmation, failure, rfl, hbefore, hrest⟩
  · exact .inl hsame
  · exact .inr ⟨quiet ++ before, change, confirmation, failure, (List.append_assoc _ _ _).symm,
      List.forall_mem_append.mpr ⟨hquiet, hbefore⟩, hrest⟩

end Store

namespace Session

open Store (Orderly ChangedAt)

variable {α β ε : Type} {target : Option (String × String)} {s : Store}

private theorem reply_of_reads {m : StoreMethod} (h : m.reads = true) (params : Json.Members) (s : Store) :
    (s.reply m.name params).2 = s := by
  unfold Store.reply
  rw [StoreMethod.ofName?_name]
  cases Keyed.get? s.failures m.name with
  | some failure => rfl
  | none =>
    dsimp only
    cases hperform : s.perform params m with
    | error e => rfl
    | ok answer => exact Store.perform_of_reads h hperform

/-- A session that only reads leaves the world as it is. -/
theorem eval_of_reads {x : Session α} (h : x.Reads) (s : Store) : (x.eval s).2 = s := by
  induction x generalizing s with
  | done a => rfl
  | ask method params next ih =>
    obtain ⟨⟨m, hm, rfl⟩, hnext⟩ := h
    rw [eval, ih _ (hnext _), reply_of_reads hm]

/-- Played with this store, a session about this attribute keeps the world in order. -/
def Careful (target : Option (String × String)) (s : Store) (x : Session (Except ε α)) : Prop :=
  ∀ callId number, let played := x.run Store.exchange callId number s
    Orderly target s played.state played.value.isOk played.sent

/-- Where requests make no difference, what comes of a session tells whether it keeps the world in order. -/
theorem careful_of_outcome {x : ExceptT ε Session α}
    (h : ∀ requests, Orderly target s (outcome x s).2 (outcome x s).1.isOk requests) : Careful target s x.run := by
  intro callId number
  obtain ⟨hvalue, hstate⟩ := run_exchange callId x.run number s
  dsimp only
  rw [hvalue, hstate]
  exact h _

theorem careful_throw (target : Option (String × String)) (s : Store) (e : ε) :
    Careful target s (throw e : ExceptT ε Session α).run :=
  careful_of_outcome fun requests => Orderly.refl target s _ requests

theorem careful_pure (target : Option (String × String)) (s : Store) (a : α) :
    Careful target s (pure a : ExceptT ε Session α).run :=
  careful_of_outcome fun requests => Orderly.refl target s _ requests

/-- After reading, the store is still the same, and the requests so far come in front of those of the rest. -/
private theorem run_bind_of_reads {x : ExceptT ε Session α} {f : α → ExceptT ε Session β} (hx : x.run.Reads)
    (s : Store) (callId : String) (number : Nat) :
    ∃ quiet next, (∀ r ∈ quiet, ¬ Request.Changes r) ∧
      (x >>= f).run.run Store.exchange callId number s =
        match (outcome x s).1 with
        | .error e => ⟨.error e, quiet, next, s⟩
        | .ok a =>
          let rest := (f a).run.run Store.exchange callId next s
          { rest with sent := quiet ++ rest.sent } := by
  obtain ⟨hvalue, hstate⟩ := run_exchange callId x.run number s
  rw [eval_of_reads hx] at hstate
  refine ⟨(x.run.run Store.exchange callId number s).sent, (x.run.run Store.exchange callId number s).next,
    hx.keeps.sent_keeps Store.exchange number s, ?_⟩
  rw [ExceptT.run_bind, run_bind]
  dsimp only
  rw [hstate, hvalue, ← outcome]
  cases (outcome x s).1 with
  | error e => simp
  | ok a => rfl

/-- What follows after reading is judged by what was read. -/
theorem careful_bind {x : ExceptT ε Session α} {f : α → ExceptT ε Session β} (hx : x.run.Reads)
    (hf : ∀ a, (outcome x s).1 = .ok a → Careful target s (f a).run) : Careful target s (x >>= f).run := by
  intro callId number
  obtain ⟨quiet, next, hquiet, hplayed⟩ := run_bind_of_reads (f := f) hx s callId number
  dsimp only
  rw [hplayed]
  cases ha : (outcome x s).1 with
  | error e => exact Orderly.refl target s false quiet
  | ok a => exact (hf a ha callId next).after hquiet

def Quiet (s : Store) (x : Session α) : Prop :=
  ∀ callId number, ∀ r ∈ (x.run Store.exchange callId number s).sent, ¬ r.Changes

theorem quiet_throw (s : Store) (e : ε) : Quiet s (throw e : ExceptT ε Session α).run := fun _ _ => nofun

theorem quiet_bind {x : ExceptT ε Session α} {f : α → ExceptT ε Session β} (hx : x.run.Reads)
    (hf : ∀ a, (outcome x s).1 = .ok a → Quiet s (f a).run) : Quiet s (x >>= f).run := by
  intro callId number
  obtain ⟨quiet, next, hquiet, hplayed⟩ := run_bind_of_reads (f := f) hx s callId number
  rw [hplayed]
  cases ha : (outcome x s).1 with
  | error e => exact hquiet
  | ok a => exact List.forall_mem_append.mpr ⟨hquiet, hf a ha callId next⟩

def Delivers (s : Store) (api : Api Unit) : Prop :=
  (∃ e, outcome api s = (.error e, s)) ∨ ∃ message, outcome api s = (.ok (), s.deliver message)

theorem delivers_order {m : StoreMethod} (h : m = .sendMessage ∨ m = .sendMessageToCaller)
    (params : List (String × Json)) (s : Store) : Delivers s (Client.order m params) := by
  unfold Delivers
  rw [Store.outcome_order]
  cases s.fault? m with
  | some e => exact .inl ⟨e, rfl⟩
  | none =>
    dsimp only
    cases hperform : s.perform (Keyed.ofList params) m with
    | error e => exact .inl ⟨_, rfl⟩
    | ok answer =>
      obtain ⟨message, hmessage⟩ := Store.perform_of_sends h hperform
      exact .inr ⟨message, by rw [← hmessage]⟩

theorem careful_told {api : Api Unit} (h : Delivers s api) :
    Careful target s (do let _ ← (liftM api : Handler Unit); Handler.done : Handler Json).run := by
  refine careful_of_outcome fun requests => ?_
  rw [outcome_bind, outcome_ofApi]
  rcases h with ⟨e, he⟩ | ⟨message, hmessage⟩
  · rw [he]
    exact Orderly.refl target s _ requests
  · rw [hmessage]
    exact Orderly.delivered target s _ requests

def ChangesOne (thing name : String) (s : Store) (api : Api Unit) : Prop :=
  (∃ e, outcome api s = (.error e, s)) ∨
    ∃ t, outcome api s = (.ok (), t) ∧ ChangedAt thing name s t ∧ t = { s with things := t.things } ∧
      ∀ callId number, ∃ r, (api.run.run Store.exchange callId number s).sent = [r] ∧ r.Changes

private theorem sent_bindExcept {σ : Type} (exchange : Exchange σ) (callId : String) (number : Nat) (state : σ)
    (x : ExceptT ε Session α) (f : α → ExceptT ε Session β) :
    ((x >>= f).run.run exchange callId number state).sent =
      (x.run.run exchange callId number state).sent ++
        match (x.run.run exchange callId number state).value with
        | .ok a => ((f a).run.run exchange callId (x.run.run exchange callId number state).next
            (x.run.run exchange callId number state).state).sent
        | .error _ => [] := by
  rw [ExceptT.run_bind, run_bind]
  dsimp only
  cases (x.run.run exchange callId number state).value <;> rfl

private theorem sent_ofApi {σ : Type} (exchange : Exchange σ) (callId : String) (number : Nat) (state : σ)
    (api : Api α) :
    ((liftM api : Handler α).run.run exchange callId number state).sent =
      (api.run.run exchange callId number state).sent := by
  change ((api.run >>= fun q => pure (q.mapError PluginError.store)).run exchange callId number state).sent = _
  rw [run_bind]
  exact List.append_nil _

private theorem sent_order {σ : Type} (exchange : Exchange σ) (callId : String) (number : Nat) (state : σ)
    (m : StoreMethod) (params : List (String × Json)) :
    ((Client.order m params).run.run exchange callId number state).sent =
      [request callId number m.name (Keyed.ofList params)] := by
  rw [Client.order, sent_bindExcept]
  split <;> rfl

theorem changesOne_setAttr (thing : String) (attr : Attr) (asExtension : Bool) (s : Store) :
    ChangesOne thing attr.name s (Client.setAttr thing attr asExtension) := by
  unfold ChangesOne
  rw [Store.outcome_setAttr, Store.write]
  by_cases hthing : thing = ""
  · exact .inl ⟨_, if_pos hthing⟩
  by_cases hname : attr.name = ""
  · rw [if_neg hthing]
    exact .inl ⟨_, if_pos hname⟩
  rw [if_neg hthing, if_neg hname]
  cases s.fault? .setAttr with
  | some e => exact .inl ⟨e, rfl⟩
  | none =>
    refine .inr ⟨_, rfl, Store.changedAt_withAttr s thing attr, rfl, fun callId number => ?_⟩
    have horder : Client.setAttr thing attr asExtension =
        Client.order .setAttr (writeParams thing attr asExtension) := by
      simp [Client.setAttr, Client.require, hthing, hname, writeParams]
    rw [horder, sent_order]
    exact ⟨_, rfl, .inl rfl⟩

theorem changesOne_removeAttr (thing name : String) (asExtension : Bool) (s : Store) :
    ChangesOne thing name s (Client.removeAttr thing name asExtension) := by
  unfold ChangesOne
  rw [Store.outcome_removeAttr, Store.remove]
  by_cases hthing : thing = ""
  · exact .inl ⟨_, if_pos hthing⟩
  by_cases hname : name = ""
  · rw [if_neg hthing]
    exact .inl ⟨_, if_pos hname⟩
  rw [if_neg hthing, if_neg hname]
  cases s.fault? .removeAttr with
  | some e => exact .inl ⟨e, rfl⟩
  | none =>
    cases s.thing? thing with
    | none => exact .inl ⟨_, rfl⟩
    | some attrs =>
      refine .inr ⟨_, rfl, Store.changedAt_without s thing name, rfl, fun callId number => ?_⟩
      have horder : Client.removeAttr thing name asExtension =
          Client.order .removeAttr (attrParams thing name asExtension) := by
        simp [Client.removeAttr, Client.require, hthing, hname, attrParams]
      rw [horder, sent_order]
      exact ⟨_, rfl, .inr rfl⟩

/-- Telling the caller of a change that was made may fail, and then the change stays. -/
private theorem orderly_confirmed {thing name : String} {t : Store} {r : Request} (hchanged : ChangedAt thing name s t)
    (hrest : t = { s with things := t.things }) (hchange : r.Changes) (text : String) (callId : String)
    (number : Nat) :
    let played := (do Client.sendToCaller text; Handler.done : Handler Json).run.run Store.exchange callId number t
    Orderly (some (thing, name)) s played.state played.value.isOk ([r] ++ played.sent) := by
  obtain ⟨hvalue, hstate⟩ :=
    run_exchange callId (do Client.sendToCaller text; Handler.done : Handler Json).run number t
  have hsent :
      ((do Client.sendToCaller text; Handler.done : Handler Json).run.run Store.exchange callId number t).sent =
        [request callId number "sendMessageToCaller" (Keyed.ofList [("message", .string text)])] := by
    rw [sent_bindExcept, sent_ofApi, Client.sendToCaller, sent_order]
    split <;> rfl
  have heval : (do Client.sendToCaller text; Handler.done : Handler Json).run.eval t =
      outcome (do let _ ← (liftM (Client.sendToCaller text) : Handler Unit); Handler.done : Handler Json) t := rfl
  rw [outcome_bind, outcome_ofApi, Store.outcome_sendToCaller, Store.tell, Store.send] at heval
  dsimp only
  rw [hvalue, hstate, hsent]
  cases hfault : t.fault? .sendMessageToCaller with
  | none =>
    rw [hfault] at heval
    rw [heval]
    refine ⟨.inr ⟨thing, name, rfl, hchanged.things, hchanged.attributes, hchanged.kept⟩, ?_,
      fun hfailed => Bool.noConfusion hfailed⟩
    rw [hrest]
    rfl
  | some e =>
    rw [hfault] at heval
    have hsame : t.sent = s.sent := by rw [hrest]
    have hkept : t = { s with things := t.things, sent := t.sent } := by
      rw [hsame]
      exact hrest
    rw [heval]
    refine ⟨.inr ⟨thing, name, rfl, hchanged⟩, hkept, fun _ => ⟨hsame, .inr ?_⟩⟩
    obtain ⟨failure, hfailure, -⟩ := Option.map_eq_some_iff.mp hfault
    rw [hrest] at hfailure
    exact ⟨[], r, _, failure, rfl, List.forall_mem_nil _, hchange, rfl, hfailure⟩

/-- A handler that ends with a change and a message to confirm it keeps the world in order.  If the message fails, the
change stays. -/
theorem careful_reported {thing name : String} {api : Api Unit} (h : ChangesOne thing name s api) (text : String) :
    Careful (some (thing, name)) s
      (do let _ ← (liftM api : Handler Unit); Client.sendToCaller text; Handler.done : Handler Json).run := by
  rcases h with ⟨e, he⟩ | ⟨t, ht, hchanged, hrest, hsent⟩
  · refine careful_of_outcome fun requests => ?_
    rw [outcome_bind, outcome_ofApi, he]
    exact Orderly.refl _ s _ requests
  intro callId number
  obtain ⟨r, hr, hchange⟩ := hsent callId number
  have hfirst : (liftM api : Handler Unit).run.eval s = (.ok (), t) := by
    rw [← outcome, outcome_ofApi, ht]
    rfl
  obtain ⟨hvalue, hstate⟩ := run_exchange callId (liftM api : Handler Unit).run number s
  rw [ExceptT.run_bind, run_bind]
  dsimp only
  rw [hstate, hvalue, hfirst, sent_ofApi, hr]
  exact orderly_confirmed hchanged hrest hchange text callId _

end Session

end WorldPlugins
