import WorldPlugins.Proofs.Access
import WorldPlugins.Proofs.Chat.Requests

/-! # What the chat plugin asks

Looking up channels and checking access lists only read, whatever the store replies.  Each look-up is told from its
round trips: a channel is found only if the store gave it, it is missing only if the store said so, and a player passes
an access list only by privilege or by what the store replied to this very check.  The other way round, replies that
show a channel to the caller lead on to whatever is to be done with it.
-/

namespace WorldPlugins.Chat

open Json (Decoder)
open Session (Conversation AsksOnly)

variable {callId : String} {trips : List RoundTrip} (ctx : Context) (name player : String)

theorem reads_find? : (Channel.find? ctx name).run.Reads := (asks_find? ctx name).reads

theorem reads_get : (Channel.get ctx name).run.Reads := (asks_get ctx name).reads

/-- A look-up takes one round trip, if any; what it finds was given, and what it misses was said to be absent. -/
theorem conversation_find? {r : Option Channel}
    (h : (Channel.find? ctx name).run.Conversation callId trips (.ok r)) :
    ∃ t : RoundTrip, trips = [t] ∧ t.Asks callId .getAttr (attrParams ctx.extension name true) ∧
      (∀ c, r = some c → ∃ a, t.Gives Attr.decoder a ∧ Channel.ofAttr a = .ok c) ∧
      (r = none → ∃ o, t.Refuses o ∧ o.code = -32004) := by
  unfold Channel.find? at h
  split at h
  · rcases h.bind_cases with ⟨e, hr, -⟩ | ⟨q, first, second, rfl, hlift, hrest⟩
    · cases hr
    obtain ⟨q', hq, hget⟩ := hlift.of_lift
    cases hq
    cases q with
    | error e =>
      dsimp only at hrest
      split at hrest
      · next he =>
        obtain ⟨rfl, hr⟩ := hrest.of_pure
        cases hr
        rw [List.append_nil]
        rcases Client.conversation_getAttr _ _ _ hget with ⟨-, -, cause, hfailed⟩ | ⟨-, t, rfl, hasks, htells⟩
        · cases hfailed
          cases he
        · exact ⟨t, rfl, hasks, nofun, fun _ => htells.refuses e rfl he⟩
      · cases hrest.of_throw.2
    | ok a =>
      rcases hrest.bind_cases with ⟨e, hr, -⟩ | ⟨c, third, fourth, rfl, hread, hdone⟩
      · cases hr
      obtain ⟨rfl, hc⟩ := hread.of_ofAttr
      obtain ⟨rfl, hr⟩ := hdone.of_pure
      cases hr
      rcases Client.conversation_getAttr _ _ _ hget with ⟨-, -, cause, hfailed⟩ | ⟨-, t, rfl, hasks, htells⟩
      · cases hfailed
      · refine ⟨t, rfl, hasks, ?_, nofun⟩
        rintro d hd
        cases hd
        exact ⟨a, htells.gives a rfl, (mapError_eq_ok_iff _ _ _).mp hc.symm⟩
  · cases h.of_throw.2

theorem conversation_get {c : Channel} (h : (Channel.get ctx name).run.Conversation callId trips (.ok c)) :
    ∃ (t : RoundTrip) (a : Attr), trips = [t] ∧ t.Asks callId .getAttr (attrParams ctx.extension name true) ∧
      t.Gives Attr.decoder a ∧ Channel.ofAttr a = .ok c := by
  rcases h.bind_cases with ⟨e, hr, -⟩ | ⟨found, first, second, rfl, hfind, hrest⟩
  · cases hr
  cases found with
  | none => cases hrest.of_throw.2
  | some d =>
    obtain ⟨rfl, hd⟩ := hrest.of_pure
    cases hd
    obtain ⟨t, rfl, hasks, hgives, -⟩ := conversation_find? ctx name hfind
    obtain ⟨a, ha, hread⟩ := hgives c rfl
    exact ⟨t, a, rfl, hasks, ha, hread⟩

/-- Nothing is asked about a text that is not the name of a channel, nor without an extension. -/
private theorem get_eq_throw (h : ¬ (Channel.isChannelName name = true ∧ ctx.extension ≠ "")) :
    ∃ e, Channel.get ctx name = throw e := by
  unfold Channel.get Channel.find?
  by_cases hname : Channel.isChannelName name = true
  · have hextension : ctx.extension = "" := by_contra fun hextension => h ⟨hname, hextension⟩
    rw [if_pos hname, hextension]
    exact ⟨_, rfl⟩
  · rw [if_neg hname]
    exact ⟨_, rfl⟩

/-- The channel that the store gives is found. -/
private theorem conversation_get_of_gives {t : RoundTrip} {a : Attr} {c : Channel}
    (hname : Channel.isChannelName name = true) (hextension : ctx.extension ≠ "")
    (hasks : t.Asks callId .getAttr (attrParams ctx.extension name true)) (hgives : t.Gives Attr.decoder a)
    (hread : Channel.ofAttr a = .ok c) : (Channel.get ctx name).run.Conversation callId [t] (.ok c) := by
  have hnonempty : name ≠ "" := by
    rintro rfl
    cases hname
  have hget := Client.conversation_getAttr_of_gives hextension hnonempty hasks hgives
  have hfind : (Channel.find? ctx name).run.Conversation callId [t] (.ok (some c)) := by
    unfold Channel.find?
    rw [if_pos hname, ← List.append_nil [t]]
    refine hget.lift.bindExcept ?_
    dsimp only
    rw [hread]
    exact .done _
  rw [← List.append_nil [t]]
  exact hfind.bindExcept (.done _)

/-- How the round trips of a check let a player pass an access list. -/
inductive Admission (callId superuser : String) (l : AccessList) (player : String) : List RoundTrip → Prop
  /-- The superuser passes without a question. -/
  | privileged (hname : superuser ≠ "") (hplayer : player = superuser) : Admission callId superuser l player []
  /-- A list without roles asks for none. -/
  | named (hroles : l.roles = []) (hplayers : l.players = [] ∨ player ∈ l.players) :
      Admission callId superuser l player []
  /-- The store said, when asked for this check, that the player holds one of the roles. -/
  | holding {t : RoundTrip} {held : List String} {role : String}
      (hasks : t.Asks callId .getRoles (rolesParams player true))
      (hgives : t.Gives (Decoder.list Decoder.string) held) (hheld : role ∈ held) (hrole : role ∈ l.roles)
      (hplayers : l.players = [] ∨ player ∈ l.players) : Admission callId superuser l player [t]

theorem reads_may (action : Action) (acl : AccessControl) : (ctx.may action acl player).run.Reads :=
  (asks_may ctx player action acl).reads

private theorem grants_iff (config : Config) :
    config.privilege.grants player = true ↔ config.superuser ≠ "" ∧ player = config.superuser := by
  unfold Config.privilege Privilege.named Privilege.grants
  by_cases h : config.superuser = ""
  · simp [h]
  · simp only [h, if_false, beq_iff_eq, Option.some.injEq, ne_eq, not_false_eq_true, true_and]
    exact eq_comm

/-- Roles are asked for if the list has some and the player no privilege, and the reference decides by the answer. -/
private theorem conversation_permits {l : AccessList} {privileged : String → Bool} {passed : Bool}
    (h : (l.permits storedRoles privileged player).Conversation callId trips passed) :
    (¬ l.AsksRoles privileged player ∧ trips = [] ∧
        ∀ held : Except RpcError (List String), passed = true ↔ l.Admits privileged player held) ∨
      l.AsksRoles privileged player ∧ ∃ held, (Client.getRoles player true).run.Conversation callId trips held ∧
        (passed = true ↔ l.Admits privileged player held) := by
  by_cases hasks : l.AsksRoles privileged player
  · rw [AccessList.permits_of_asks _ _ _ _ hasks, map_eq_pure_bind] at h
    obtain ⟨first, second, reply, rfl, hreply, hpassed⟩ := (Session.conversation_bind_iff _ _ _).mp h
    obtain ⟨rfl, rfl⟩ := (Session.conversation_done_iff _ _).mp hpassed
    obtain ⟨asked, last, held, rfl, hheld, hdone⟩ := (Session.conversation_bind_iff _ _ _).mp hreply
    obtain ⟨rfl, rfl⟩ := (Session.conversation_done_iff _ _).mp hdone
    rw [List.append_nil, List.append_nil]
    exact .inr ⟨hasks, held, hheld, by rw [decide_eq_true_iff, AccessList.admits_mapError]⟩
  · have hpassed (reply : Except RoleLookupError (List String)) :
        trips = [] ∧ passed = decide (l.Admits privileged player reply) := by
      rw [AccessList.permits_of_not_asks _ _ _ _ hasks reply] at h
      exact (Session.conversation_done_iff _ _).mp h
    refine .inl ⟨hasks, (hpassed (.ok [])).1, fun held => ?_⟩
    rw [(hpassed (held.mapError fun cause => ⟨player, cause⟩)).2, decide_eq_true_iff, AccessList.admits_mapError]

/-- A player who is let through was admitted by the round trips of this check. -/
theorem conversation_may {action : Action} {acl : AccessControl}
    (h : (ctx.may action acl player).run.Conversation callId trips (.ok true)) :
    Admission callId ctx.config.superuser (acl.list action) player trips := by
  have hprivileged (hgrants : ctx.config.privilege.grants player = true) :
      Admission callId ctx.config.superuser (acl.list action) player [] := by
    obtain ⟨hname, hplayer⟩ := (grants_iff player ctx.config).mp hgrants
    exact .privileged hname hplayer
  obtain ⟨passed, hpassed, hpermits⟩ := h.of_lift
  cases hpassed
  rcases conversation_permits player hpermits with
    ⟨hasks, rfl, hadmits⟩ | ⟨⟨hgrants, hroles⟩, held, hheld, hadmits⟩
  · rcases (hadmits (.ok [])).mp rfl with hgrants | ⟨-, hplayers⟩
    · exact hprivileged hgrants
    · rcases (AccessList.not_asksRoles_iff _ _ _).mp hasks with hgrants | hroles
      · exact hprivileged hgrants
      · exact .named hroles hplayers
  · obtain ⟨hholds, hplayers⟩ := (hadmits.mp rfl).resolve_left (by simp [hgrants])
    cases held with
    | error e => exact (hholds.resolve_left hroles).elim
    | ok held =>
      obtain ⟨role, hheldRole, hrole⟩ := hholds.resolve_left hroles
      rcases Client.conversation_getRoles true hheld with ⟨-, -, cause, hfailed⟩ | ⟨-, t, rfl, hasks, htells⟩
      · cases hfailed
      · exact .holding hasks (htells.gives held rfl) hheldRole hrole hplayers

/-- Whoever was admitted is let through, if what follows asks for no roles. -/
private theorem Admission.rest {action : Action} {acl : AccessControl} {f : Bool → Handler Json} {e : PluginError}
    {r : Except PluginError Json} {checking rest : List RoundTrip}
    (hadmitted : Admission callId ctx.config.superuser (acl.list action) player checking)
    (h : (ctx.may action acl player >>= f).run.Conversation callId (checking ++ rest) r) (hfalse : f false = throw e)
    (hquiet : (f true).run.AsksOnly fun method _ => method ≠ StoreMethod.getRoles.name) :
    (f true).run.Conversation callId rest r := by
  rcases h.bind_cases with ⟨e, -, hfailed⟩ | ⟨passed, first, second, htrips, hmay, hrest⟩
  · obtain ⟨passed, hpassed, -⟩ := hfailed.of_lift
    cases hpassed
  obtain ⟨q, hq, hpermits⟩ := hmay.of_lift
  cases hq
  rcases conversation_permits player hpermits with
    ⟨hasks, rfl, hadmits⟩ | ⟨⟨hgrants, hroles⟩, held, hheld, hadmits⟩
  · rw [List.nil_append] at htrips
    subst htrips
    cases hadmitted with
    | privileged hname hplayer =>
      rwa [(hadmits (.ok [])).mpr (.inl ((grants_iff player ctx.config).mpr ⟨hname, hplayer⟩))] at hrest
    | named hopen hplayers => rwa [(hadmits (.ok [])).mpr (.inr ⟨.inl hopen, hplayers⟩)] at hrest
    | holding hask hgives hheld hrole hplayers =>
      have hgrants := ((AccessList.not_asksRoles_iff _ _ _).mp hasks).resolve_right (List.ne_nil_of_mem hrole)
      rw [(hadmits (.ok [])).mpr (.inl hgrants)] at hrest
      obtain ⟨number, method, params, hrequest, hmethod⟩ := hrest.asks hquiet _ List.mem_cons_self
      exact absurd ((congrArg Request.method hrequest).symm.trans hask.method_eq) hmethod
  · cases hadmitted with
    | privileged hname hplayer =>
      rw [(grants_iff player ctx.config).mpr ⟨hname, hplayer⟩] at hgrants
      cases hgrants
    | named hopen hplayers => exact absurd hopen hroles
    | holding hask hgives hheldRole hrole hplayers =>
      rcases Client.conversation_getRoles true hheld with ⟨rfl, -, cause, rfl⟩ | ⟨hplayer, t, rfl, -, -⟩
      · have hrefused : ¬ passed = true := fun hpassed =>
          ((hadmits.mp hpassed).resolve_left (by simp [hgrants])).1.elim hroles id
        rw [Bool.eq_false_iff.mpr hrefused, hfalse] at hrest
        obtain ⟨rfl, -⟩ := hrest.of_throw
        cases htrips
      · obtain ⟨rfl, rfl⟩ := List.cons.inj htrips
        obtain rfl := (Client.conversation_getRoles_of_gives hplayer hask hgives).unique hheld
        rwa [hadmits.mpr (.inr ⟨.inr ⟨_, hheldRole, hrole⟩, hplayers⟩)] at hrest

theorem reads_visibleChannel : (visibleChannel ctx name).run.Reads := (asks_visibleChannel ctx name).reads

theorem reads_visible : (Channel.visible ctx player).run.Reads := (asks_visible ctx player).reads

/-- The round trips that show a channel to the caller: the channel was given under its name, the caller was named, and
the caller was admitted to see it. -/
structure Sighting (ctx : Context) (name : String) (c : Channel) (caller : String) (loading naming : RoundTrip)
    (seeing : List RoundTrip) : Prop where
  loads : loading.Asks ctx.call.id .getAttr (attrParams ctx.extension name true)
  found : ∃ a, loading.Gives Attr.decoder a ∧ Channel.ofAttr a = .ok c
  asks : naming.Asks ctx.call.id .getCallerName []
  named : naming.Gives Decoder.string caller
  admitted : Admission ctx.call.id ctx.config.superuser c.acl.see caller seeing

theorem conversation_visibleChannel {c : Channel} {caller : String}
    (h : (visibleChannel ctx name).run.Conversation ctx.call.id trips (.ok (c, caller))) :
    ∃ (loading naming : RoundTrip) (seeing : List RoundTrip), trips = loading :: naming :: seeing ∧
      Sighting ctx name c caller loading naming seeing := by
  rcases h.bind_cases with ⟨e, hr, -⟩ | ⟨d, first, second, rfl, hget, hrest⟩
  · cases hr
  rcases hrest.bind_cases with ⟨e, hr, -⟩ | ⟨player, third, fourth, rfl, hname, hmay⟩
  · cases hr
  rcases hmay.bind_cases with ⟨e, hr, -⟩ | ⟨sees, fifth, sixth, rfl, hsees, hdone⟩
  · cases hr
  cases sees with
  | false => cases hdone.of_throw.2
  | true =>
    obtain ⟨rfl, hseen⟩ := hdone.of_pure
    cases hseen
    obtain ⟨loading, a, rfl, hloads, hgives, hread⟩ := conversation_get ctx name hget
    obtain ⟨r, hr, hquery⟩ := hname.of_ofApi
    obtain ⟨naming, rfl, hasks, htells⟩ := Client.conversation_query hquery
    rw [List.append_nil]
    refine ⟨loading, naming, fifth, rfl, hloads, ⟨a, hgives, hread⟩, hasks, ?_, conversation_may ctx _ hsees⟩
    cases r with
    | error e => cases hr
    | ok player =>
      cases hr
      exact htells.gives _ rfl

variable {ctx name}

/-- A channel that is shown to the caller is seen, and the rest follows. -/
theorem Sighting.rest {c : Channel} {caller : String} {loading naming : RoundTrip} {seeing rest : List RoundTrip}
    {f : Channel × String → Handler Json} {x : Handler Json} {r : Except PluginError Json}
    (hseen : Sighting ctx name c caller loading naming seeing)
    (h : (visibleChannel ctx name >>= f).run.Conversation ctx.call.id (loading :: naming :: (seeing ++ rest)) r)
    (hf : f (c, caller) = x) (hquiet : x.run.AsksOnly fun method _ => method ≠ StoreMethod.getRoles.name) :
    x.run.Conversation ctx.call.id rest r := by
  subst hf
  obtain ⟨a, hgives, hread⟩ := hseen.found
  have hasked : Channel.isChannelName name = true ∧ ctx.extension ≠ "" := by
    by_contra hrefused
    obtain ⟨e, hget⟩ := get_eq_throw ctx name hrefused
    rw [visibleChannel, hget] at h
    cases ((Session.conversation_done_iff _ _).mp h).1
  rw [visibleChannel, bind_assoc] at h
  have hnaming := (conversation_get_of_gives ctx name hasked.1 hasked.2 hseen.loads hgives hread).restExcept h
  rw [bind_assoc] at hnaming
  have hchecking := (Client.conversation_query_of_gives hseen.asks hseen.named).ofApi.restExcept hnaming
  rw [bind_assoc] at hchecking
  exact hseen.admitted.rest ctx caller hchecking rfl hquiet

end WorldPlugins.Chat
