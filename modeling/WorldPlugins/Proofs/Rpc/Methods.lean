import WorldPlugins.Proofs.Rpc.Scripts

/-! # What the methods of the store ask

One lemma for each method: the round trip that it takes, if its parameters are not refused before, and what it makes
of the reply.  Nothing but an error of the store with the code for absence is ever taken for an absence.
-/

namespace WorldPlugins

open Json (Decoder Members)

namespace Session

variable {α : Type} {callId : String} {trips : List RoundTrip}

abbrev Reads (x : Session α) : Prop := x.AsksOnly fun method _ => ∃ m : StoreMethod, m.reads = true ∧ m.name = method

/-- A session that changes no attribute, though it may send messages. -/
abbrev Keeps (x : Session α) : Prop := x.AsksOnly fun method _ => method ≠ "setAttr" ∧ method ≠ "removeAttr"

theorem AsksFor.reads {thing : String} {asExtension : Bool} {x : Session α}
    (h : x.AsksFor thing asExtension StoreMethod.reads) : x.Reads := by
  refine h.mono ?_
  rintro _ _ ⟨m, hm, rfl, -⟩
  exact ⟨m, hm, rfl⟩

private theorem name_of_keeps {m : StoreMethod} (h : m.keeps = true) : m.name ≠ "setAttr" ∧ m.name ≠ "removeAttr" := by
  cases m with
  | setAttr => cases h
  | removeAttr => cases h
  | _ => decide

theorem AsksFor.keeps {thing : String} {asExtension : Bool} {x : Session α}
    (h : x.AsksFor thing asExtension StoreMethod.keeps) : x.Keeps := by
  refine h.mono ?_
  rintro _ _ ⟨m, hm, rfl, -⟩
  exact name_of_keeps hm

theorem AsksOnly.keeps {x : Session α} (h : x.Reads) : x.Keeps := by
  refine h.mono ?_
  rintro _ - ⟨m, hm, rfl⟩
  exact name_of_keeps (StoreMethod.keeps_of_reads hm)

/-- A round trip that asks for a method which changes nothing changes nothing. -/
theorem not_changes_of_asks {t : RoundTrip} {m : StoreMethod} {params : List (String × Json)}
    (h : t.Asks callId m params) (hm : m.keeps = true) : ¬ t.Changes := by
  rw [RoundTrip.Changes, Request.Changes, h.method_eq]
  exact not_or.mpr (name_of_keeps hm)

theorem Conversation.keeps {x : Session α} {a : α} (h : x.Conversation callId trips a) (hx : x.Keeps) :
    ∀ t ∈ trips, ¬ t.Changes := by
  intro t ht
  obtain ⟨number, method, params, hrequest, hset, hremove⟩ := h.asks hx t ht
  rw [RoundTrip.Changes, hrequest]
  exact not_or.mpr ⟨hset, hremove⟩

theorem AsksOnly.sent_keeps {σ : Type} {x : Session α} (hx : x.Keeps) (exchange : Exchange σ) (number : Nat)
    (state : σ) : ∀ r ∈ (x.run exchange callId number state).sent, ¬ r.Changes := by
  intro r hr
  obtain ⟨number, method, params, rfl, hset, hremove⟩ := hx.sent exchange number state r hr
  exact not_or.mpr ⟨hset, hremove⟩

/-- The round trips change nothing, or only one of them does, with its reasons in those before it. -/
def ChangesFor (p : List RoundTrip → RoundTrip → List RoundTrip → Prop) (trips : List RoundTrip) : Prop :=
  (∀ t ∈ trips, ¬ t.Changes) ∨
    ∃ before change after, trips = before ++ change :: after ∧ (∀ t ∈ before ++ after, ¬ t.Changes) ∧
      p before change after

variable {p : List RoundTrip → RoundTrip → List RoundTrip → Prop}

theorem ChangesFor.exists_change (h : ChangesFor p trips) (hchanges : ∃ t ∈ trips, t.Changes) :
    ∃ before change after, trips = before ++ change :: after ∧ p before change after := by
  rcases h with hquiet | ⟨before, change, after, htrips, -, hp⟩
  · obtain ⟨t, ht, hchange⟩ := hchanges
    exact absurd hchange (hquiet t ht)
  · exact ⟨before, change, after, htrips, hp⟩

/-- What comes before a change may be told piece by piece. -/
theorem ChangesFor.bind {β ε : Type} {x : ExceptT ε Session α} {f : α → ExceptT ε Session β} {r : Except ε β}
    (h : (x >>= f).run.Conversation callId trips r) (hx : x.run.Keeps)
    (hf : ∀ a first second, x.run.Conversation callId first (.ok a) → (f a).run.Conversation callId second r →
      ChangesFor (fun before => p (first ++ before)) second) : ChangesFor p trips := by
  rcases h.bind_cases with ⟨e, -, hfailed⟩ | ⟨a, first, second, rfl, hfirst, hsecond⟩
  · exact .inl (hfailed.keeps hx)
  · have hquiet := hfirst.keeps hx
    rcases hf a first second hfirst hsecond with hstill | ⟨before, change, after, rfl, hothers, hp⟩
    · exact .inl (List.forall_mem_append.mpr ⟨hquiet, hstill⟩)
    · refine .inr ⟨first ++ before, change, after, (List.append_assoc _ _ _).symm, ?_, hp⟩
      rw [List.append_assoc]
      exact List.forall_mem_append.mpr ⟨hquiet, hothers⟩

/-- A session that fails at once changes nothing. -/
theorem ChangesFor.of_throw {ε : Type} {e : ε} {r : Except ε α}
    (h : (throw e : ExceptT ε Session α).run.Conversation callId trips r) : ChangesFor p trips := by
  obtain ⟨rfl, -⟩ := Conversation.of_throw h
  exact .inl nofun

theorem settle_eq_ok_iff (id : RequestId) (reply : Except RpcError Response) (result : Json) :
    settle id reply = .ok result ↔
      ∃ response, reply = .ok response ∧ response.error = none ∧ response.id = some id ∧
        response.result.getD .null = result := by
  unfold settle
  cases reply with
  | error e => simp
  | ok response =>
    cases herror : response.error with
    | some e => simp [herror]
    | none => by_cases hid : response.id = some id <;> simp [herror, hid]

theorem response_eq_ok_iff (t : RoundTrip) (response : Response) :
    t.response = .ok response ↔
      ∃ bytes, t.reply = .ok bytes ∧ Wire.readReply t.request.method bytes = .ok response := by
  unfold RoundTrip.response
  cases t.reply with
  | error cause => simp
  | ok bytes => simp

/-- No connection fault and no garbage is an absence. -/
theorem isNotFound_of_response {t : RoundTrip} {e : RpcError} (h : t.response = .error e) : e.isNotFound = false := by
  unfold RoundTrip.response at h
  cases hreply : t.reply with
  | error cause =>
    simp only [hreply, Except.error.injEq] at h
    rw [← h]
    rfl
  | ok bytes =>
    simp only [hreply, Wire.readReply] at h
    split at h
    · cases h
      rfl
    · obtain ⟨cause, -, rfl⟩ := (mapError_eq_error_iff _ _ _).mp h
      rfl

/-- A session sees an absence only where the store answered with an error of that code. -/
theorem refuses_of_settle {t : RoundTrip} {id : RequestId} {e : RpcError} (h : settle id t.response = .error e)
    (he : e.isNotFound = true) : ∃ o, t.Refuses o ∧ o.code = -32004 := by
  unfold settle at h
  cases hresponse : t.response with
  | error cause =>
    simp only [hresponse, Except.error.injEq] at h
    rw [← h, isNotFound_of_response hresponse] at he
    cases he
  | ok response =>
    obtain ⟨bytes, hreply, hread⟩ := (response_eq_ok_iff t response).mp hresponse
    cases herror : response.error with
    | some o =>
      simp only [hresponse, herror, Except.error.injEq] at h
      rw [← h] at he
      exact ⟨o, ⟨bytes, response, hreply, hread, herror⟩, beq_iff_eq.mp he⟩
    | none =>
      by_cases hid : response.id = some id
      · simp [hresponse, herror, hid] at h
      · simp only [hresponse, herror, hid, if_false, Except.error.injEq] at h
        rw [← h] at he
        cases he

end Session

namespace Client

variable {α : Type} {callId : String} {trips : List RoundTrip}

open Session (Conversation)

theorem conversation_query {d : Decoder α} {method : StoreMethod} {params : List (String × Json)}
    {r : Except RpcError α} (h : (query d method params).run.Conversation callId trips r) :
    ∃ t : RoundTrip, trips = [t] ∧ t.Asks callId method params ∧ t.Tells d r := by
  obtain ⟨number, reply, rest, rfl, hrest⟩ := (Session.conversation_ask_iff _ _ _ _).mp h
  obtain ⟨rfl, hr⟩ := (Session.conversation_done_iff _ _).mp hrest
  refine ⟨_, rfl, ⟨number, rfl⟩, ?_, ?_⟩
  · rintro a rfl
    cases hsettled : Session.settle (.number number)
        (RoundTrip.response ⟨Session.request callId number method.name (Keyed.ofList params), reply⟩) with
    | error e => simp [hsettled] at hr
    | ok result =>
      obtain ⟨response, hresponse, herror, hid, rfl⟩ := (Session.settle_eq_ok_iff _ _ _).mp hsettled
      obtain ⟨bytes, hreply, hread⟩ := (Session.response_eq_ok_iff _ _).mp hresponse
      rw [hsettled] at hr
      exact ⟨bytes, response, hreply, hread, herror, hid, (mapError_eq_ok_iff _ _ _).mp hr.symm⟩
  · rintro e rfl he
    cases hsettled : Session.settle (.number number)
        (RoundTrip.response ⟨Session.request callId number method.name (Keyed.ofList params), reply⟩) with
    | error cause =>
      simp only [hsettled, Except.error.injEq] at hr
      rw [hr] at he
      exact Session.refuses_of_settle hsettled he
    | ok result =>
      rw [hsettled] at hr
      obtain ⟨cause, -, rfl⟩ := (mapError_eq_error_iff _ _ _).mp hr.symm
      cases he

/-- What a round trip gives is what comes of asking. -/
theorem conversation_query_of_gives {d : Decoder α} {method : StoreMethod} {params : List (String × Json)}
    {t : RoundTrip} {a : α} (hasks : t.Asks callId method params) (hgives : t.Gives d a) :
    (query d method params).run.Conversation callId [t] (.ok a) := by
  obtain ⟨request, reply⟩ := t
  obtain ⟨number, rfl⟩ := hasks
  obtain ⟨bytes, response, rfl, hread, herror, hid, hresult⟩ := hgives
  have hsettled := (Session.settle_eq_ok_iff (.number number) _ _).mpr
    ⟨response, (Session.response_eq_ok_iff _ _).mpr ⟨bytes, rfl, hread⟩, herror, hid, rfl⟩
  refine (Session.conversation_ask_iff _ _ _ _).mpr ⟨number, .ok bytes, [], rfl, ?_⟩
  rw [hsettled]
  refine (Session.conversation_done_iff _ _).mpr ⟨rfl, ?_⟩
  dsimp only
  rw [hresult]
  rfl

theorem conversation_order {method : StoreMethod} {params : List (String × Json)} {r : Except RpcError Unit}
    (h : (order method params).run.Conversation callId trips r) :
    ∃ t : RoundTrip, trips = [t] ∧ t.Asks callId method params := by
  rcases h.bind_cases with ⟨e, -, hquery⟩ | ⟨a, first, second, rfl, hquery, hdone⟩
  · obtain ⟨t, rfl, hasks, -⟩ := conversation_query hquery
    exact ⟨t, rfl, hasks⟩
  · obtain ⟨t, rfl, hasks, -⟩ := conversation_query hquery
    obtain ⟨rfl, -⟩ := Conversation.of_pure hdone
    exact ⟨t, rfl, hasks⟩

private theorem conversation_require {name value : String} {x : Unit → Api α} {r : Except RpcError α}
    (h : (require name value >>= x).run.Conversation callId trips r) :
    (trips = [] ∧ value = "" ∧ r = .error (.parameters (.empty name))) ∨
      value ≠ "" ∧ (x ()).run.Conversation callId trips r := by
  unfold require at h
  split at h
  · next hempty =>
    obtain ⟨htrips, hr⟩ := (Session.conversation_done_iff _ _).mp h
    exact .inl ⟨htrips, hempty, hr⟩
  · next hvalue => exact .inr ⟨hvalue, h⟩

section

variable {thing name player : String} {asExtension : Bool} {t : RoundTrip}

theorem conversation_getAttr_of_gives {a : Attr} (hthing : thing ≠ "") (hname : name ≠ "")
    (hasks : t.Asks callId .getAttr (attrParams thing name asExtension)) (hgives : t.Gives Attr.decoder a) :
    (getAttr thing name asExtension).run.Conversation callId [t] (.ok a) := by
  unfold getAttr require
  rw [if_neg hthing, if_neg hname]
  exact conversation_query_of_gives hasks hgives

theorem conversation_getRoles_of_gives {held : List String} (hplayer : player ≠ "")
    (hasks : t.Asks callId .getRoles (rolesParams player asExtension))
    (hgives : t.Gives (Decoder.list Decoder.string) held) :
    (getRoles player asExtension).run.Conversation callId [t] (.ok held) := by
  unfold getRoles require
  rw [if_neg hplayer]
  exact conversation_query_of_gives hasks hgives

end

section

variable {thing name : String}

theorem asksFirst_getAttr (hthing : thing ≠ "") (hname : name ≠ "") (asExtension : Bool) :
    (getAttr thing name asExtension).run.AsksFirst := by
  unfold getAttr require
  rw [if_neg hthing, if_neg hname]
  trivial

theorem asksFirst_hasAttr (hthing : thing ≠ "") (hname : name ≠ "") (asExtension : Bool) :
    (hasAttr thing name asExtension).run.AsksFirst :=
  ((asksFirst_getAttr hthing hname asExtension).bindExcept _).bind _

theorem asksFirst_getCallerName : getCallerName.run.AsksFirst := trivial

theorem asksFirst_getCallerTimezone : getCallerTimezone.run.AsksFirst := trivial

end

variable (thing name : String) (asExtension : Bool)

theorem reads_getAttrNames : (getAttrNames thing asExtension).run.Reads :=
  (asksFor_of_takesStep (takesStep_getAttrNames thing asExtension) rfl).reads

theorem reads_getCallerName : getCallerName.run.Reads :=
  (asksFor_of_takesStep (takesStep_getCallerName "" false) rfl).reads

theorem keeps_tell (params : List (String × Json)) : (order .sendMessageToCaller params).run.Keeps :=
  (asksFor_of_takesStep (takesStep_tell "" false params) rfl).keeps

/-- Reading an attribute is one round trip, or the parameters are refused because one of them is empty. -/
theorem conversation_getAttr {r : Except RpcError Attr}
    (h : (getAttr thing name asExtension).run.Conversation callId trips r) :
    (trips = [] ∧ (thing = "" ∨ name = "") ∧ ∃ cause, r = .error (.parameters cause)) ∨
      (thing ≠ "" ∧ name ≠ "") ∧ ∃ t : RoundTrip, trips = [t] ∧
        t.Asks callId .getAttr (attrParams thing name asExtension) ∧ t.Tells Attr.decoder r := by
  rcases conversation_require h with ⟨htrips, hempty, hr⟩ | ⟨hthing, h⟩
  · exact .inl ⟨htrips, .inl hempty, _, hr⟩
  rcases conversation_require h with ⟨htrips, hempty, hr⟩ | ⟨hname, h⟩
  · exact .inl ⟨htrips, .inr hempty, _, hr⟩
  · exact .inr ⟨⟨hthing, hname⟩, conversation_query h⟩

theorem reads_hasAttr : (hasAttr thing name asExtension).run.Reads := (asks_hasAttr thing name asExtension).reads

/-- An attribute is missing only if the store said so. -/
theorem conversation_hasAttr (h : (hasAttr thing name asExtension).run.Conversation callId trips (.ok false)) :
    ∃ t : RoundTrip, trips = [t] ∧ t.Asks callId .getAttr (attrParams thing name asExtension) ∧
      ∃ o, t.Refuses o ∧ o.code = -32004 := by
  rw [run_hasAttr, Session.conversation_bind_iff] at h
  obtain ⟨first, second, r, rfl, hget, hrest⟩ := h
  cases r with
  | ok a => cases ((Session.conversation_done_iff _ _).mp hrest).2
  | error e =>
    dsimp only at hrest
    split at hrest
    · next he =>
      obtain ⟨rfl, -⟩ := (Session.conversation_done_iff _ _).mp hrest
      rw [List.append_nil]
      rcases conversation_getAttr thing name asExtension hget with
        ⟨-, -, cause, hfailed⟩ | ⟨-, t, rfl, hasks, htells⟩
      · cases hfailed
        cases he
      · exact ⟨t, rfl, hasks, htells.refuses e rfl he⟩
    · cases ((Session.conversation_done_iff _ _).mp hrest).2

/-- Asking for the roles of a player is one round trip, or the parameters are refused because the name is empty. -/
theorem conversation_getRoles {player : String} {r : Except RpcError (List String)}
    (h : (getRoles player asExtension).run.Conversation callId trips r) :
    (trips = [] ∧ player = "" ∧ ∃ cause, r = .error (.parameters cause)) ∨
      player ≠ "" ∧ ∃ t : RoundTrip, trips = [t] ∧ t.Asks callId .getRoles (rolesParams player asExtension) ∧
        t.Tells (Decoder.list Decoder.string) r := by
  rcases conversation_require h with ⟨htrips, hempty, hr⟩ | ⟨hplayer, h⟩
  · exact .inl ⟨htrips, hempty, _, hr⟩
  · exact .inr ⟨hplayer, conversation_query h⟩

/-- Writing an attribute is one round trip, or the parameters are refused. -/
theorem conversation_setAttr {attr : Attr} {r : Except RpcError Unit}
    (h : (setAttr thing attr asExtension).run.Conversation callId trips r) :
    (trips = [] ∧ ∃ cause, r = .error (.parameters cause)) ∨
      ∃ t : RoundTrip, trips = [t] ∧ t.Asks callId .setAttr (writeParams thing attr asExtension) := by
  rcases conversation_require h with ⟨htrips, -, hr⟩ | ⟨-, h⟩
  · exact .inl ⟨htrips, _, hr⟩
  rcases conversation_require h with ⟨htrips, -, hr⟩ | ⟨-, h⟩
  · exact .inl ⟨htrips, _, hr⟩
  · exact .inr (conversation_order h)

/-- Removing an attribute is one round trip, or the parameters are refused. -/
theorem conversation_removeAttr {r : Except RpcError Unit}
    (h : (removeAttr thing name asExtension).run.Conversation callId trips r) :
    (trips = [] ∧ ∃ cause, r = .error (.parameters cause)) ∨
      ∃ t : RoundTrip, trips = [t] ∧ t.Asks callId .removeAttr (attrParams thing name asExtension) := by
  rcases conversation_require h with ⟨htrips, -, hr⟩ | ⟨-, h⟩
  · exact .inl ⟨htrips, _, hr⟩
  rcases conversation_require h with ⟨htrips, -, hr⟩ | ⟨-, h⟩
  · exact .inl ⟨htrips, _, hr⟩
  · exact .inr (conversation_order h)

/-- A handler that ends with a change and then tells the caller makes no change but this. -/
theorem changesFor_reported {p : List RoundTrip → RoundTrip → List RoundTrip → Prop} {api : Api Unit} {text : String}
    {r : Except PluginError Json}
    (h : (do let _ ← (liftM api : Handler Unit); sendToCaller text; Handler.done : Handler Json).run.Conversation
      callId trips r)
    (hapi : ∀ first q, api.run.Conversation callId first q →
      first = [] ∨ ∃ t, first = [t] ∧ ∀ after, p [] t after) : Session.ChangesFor p trips := by
  obtain ⟨q, first, second, rfl, hfirst, hquiet⟩ : ∃ q first second, trips = first ++ second ∧
      api.run.Conversation callId first q ∧ ∀ t ∈ second, ¬ t.Changes := by
    rcases h.bind_cases with ⟨e, -, hfailed⟩ | ⟨a, first, second, rfl, hdone, htold⟩
    · obtain ⟨q, -, hq⟩ := hfailed.of_ofApi
      exact ⟨q, trips, [], (List.append_nil trips).symm, hq, nofun⟩
    · obtain ⟨q, -, hq⟩ := hdone.of_ofApi
      have hkeeps : (do sendToCaller text; Handler.done : Handler Json).run.Keeps :=
        (keeps_tell _).ofApi.bindExcept fun _ => trivial
      exact ⟨q, first, second, rfl, hq, htold.keeps hkeeps⟩
  rcases hapi first q hfirst with rfl | ⟨t, rfl, ht⟩
  · exact .inl hquiet
  · exact .inr ⟨[], t, second, rfl, hquiet, ht second⟩

/-- Writing a field of a list asks for the list, unless a parameter is empty, and then writes it at most once: only if
the list was given and holds fields. -/
theorem conversation_setField {field : Attr} {r : Except RpcError Unit}
    (h : (setField thing name field asExtension).run.Conversation callId trips r) :
    (trips = [] ∧ (thing = "" ∨ name = "")) ∨
      (thing ≠ "" ∧ name ≠ "") ∧ ∃ (reading : RoundTrip) (rest : List RoundTrip), trips = reading :: rest ∧
        reading.Asks callId .getAttr (attrParams thing name asExtension) ∧
        (rest = [] ∨ ∃ (writing : RoundTrip) (current updated : Attr), rest = [writing] ∧
          reading.Gives Attr.decoder current ∧ current.withField field = .ok updated ∧
          writing.Asks callId .setAttr (writeParams thing updated asExtension)) := by
  rcases h.bind_cases with ⟨e, -, hread⟩ | ⟨current, first, second, rfl, hread, hrest⟩
  · rcases conversation_getAttr thing name asExtension hread with ⟨htrips, hempty, -⟩ | ⟨hnames, reading, rfl, hasks, -⟩
    · exact .inl ⟨htrips, hempty⟩
    · exact .inr ⟨hnames, reading, [], rfl, hasks, .inl rfl⟩
  rcases conversation_getAttr thing name asExtension hread with
    ⟨-, -, cause, hfailed⟩ | ⟨hnames, reading, rfl, hasks, htells⟩
  · cases hfailed
  refine .inr ⟨hnames, reading, second, rfl, hasks, ?_⟩
  cases hfield : current.withField field with
  | error e =>
    simp only [hfield] at hrest
    exact .inl (Conversation.of_throw hrest).1
  | ok updated =>
    simp only [hfield] at hrest
    rcases conversation_setAttr thing asExtension hrest with ⟨rfl, -⟩ | ⟨writing, rfl, hwrites⟩
    · exact .inl rfl
    · exact .inr ⟨writing, current, updated, rfl, htells.gives current rfl, hfield, hwrites⟩

end Client

end WorldPlugins
