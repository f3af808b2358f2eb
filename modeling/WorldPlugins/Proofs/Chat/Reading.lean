import WorldPlugins.Chat.Talk
import WorldPlugins.Proofs.Access
import WorldPlugins.Proofs.Chat.Channel
import WorldPlugins.Proofs.Store.Changes

/-! # What the chat plugin reads

Looking up channels and asking whether a player may see or join them change nothing in the world, so what comes
of them is a function of it.
-/

namespace WorldPlugins.Store

open Chat (Channel)
open Session (outcome outcome_bind)

variable (p : Privilege) (action : Action) (acl : AccessControl) (player extension name : String) (s : Store)

/-- Whether the access lists let a player do something, by the roles in the world. -/
def lets : Bool := ((acl.may storedRoles p action player).eval s).1

private theorem eval_storedRoles :
    (storedRoles player).eval s = ((s.fetchRoles player).mapError fun cause => ⟨player, cause⟩, s) := by
  have hroles : (Client.getRoles player true).run.eval s = (s.fetchRoles player, s) :=
    outcome_getRoles player true s
  rw [storedRoles, Session.eval_bind, hroles]
  rfl

private theorem eval_may_eq :
    (acl.may storedRoles p action player).eval s =
      (decide ((acl.list action).Admits p player (s.fetchRoles player)), s) := by
  unfold AccessControl.may
  by_cases h : (acl.list action).AsksRoles p player
  · rw [AccessList.permits_of_asks _ _ _ _ h, map_eq_pure_bind, Session.eval_bind, eval_storedRoles]
    simp only [AccessList.admits_mapError]
    rfl
  · rw [AccessList.permits_of_not_asks _ _ _ _ h ((s.fetchRoles player).mapError fun cause => ⟨player, cause⟩)]
    simp only [AccessList.admits_mapError]
    rfl

/-- Access is what the reference says of the roles that the world gives, if it gives any. -/
theorem lets_eq :
    s.lets p action acl player = decide ((acl.list action).Admits p player (s.fetchRoles player)) := by
  rw [lets, eval_may_eq]

@[simp] theorem lets_unrestricted : s.lets p action .unrestricted player = true := by
  rw [lets_eq, decide_eq_true_iff]
  cases action <;> exact .inr ⟨.inl rfl, .inl rfl⟩

/-- Access depends on the failures and on the roles. -/
theorem lets_congr {s t : Store} (hfailures : s.failures = t.failures) (hroles : s.roles = t.roles) :
    s.lets p action acl player = t.lets p action acl player := by
  have hfetch : s.fetchRoles player = t.fetchRoles player := by
    rw [fetchRoles, fault?, hfailures, hroles, fetchRoles, fault?]
  rw [lets_eq, lets_eq, hfetch]

theorem outcome_may (ctx : Context) :
    outcome (ctx.may action acl player) s = (.ok (s.lets ctx.config.privilege action acl player), s) := by
  rw [Context.may, Session.outcome_lift, lets, eval_may_eq]

def channel? : Except PluginError (Option Channel) :=
  if Channel.isChannelName name then
    match s.fetch extension name with
    | .ok a => ((Channel.ofAttr a).mapError .attr).map some
    | .error e => if e.isNotFound then .ok none else .error (.store e)
  else .error (.argument .channelName)

def channel : Except PluginError Channel :=
  match s.channel? extension name with
  | .ok (some c) => .ok c
  | .ok none => .error (.refused (.channelNotFound name))
  | .error e => .error e

/-- The channel of this name that the caller may see, with the name of the caller. -/
def seen : Except PluginError (Channel × String) :=
  match s.channel extension name with
  | .error e => .error e
  | .ok c =>
    match s.fetchCaller with
    | .error e => .error (.store e)
    | .ok caller =>
      if s.lets p .see c.acl caller then .ok (c, caller) else .error (.refused (.channelNotFound name))

def seenBy : Option Channel :=
  match s.channel extension name with
  | .ok c => if s.lets p .see c.acl player then some c else none
  | .error _ => none

def visible : Except PluginError (List Channel) :=
  match s.fetchNames extension with
  | .ok names => .ok ((names.filter Channel.isChannelName).filterMap fun name => s.seenBy p player extension name)
  | .error e => .error (.store e)

theorem channel?_eq_some_iff (c : Channel) :
    s.channel? extension name = .ok (some c) ↔
      Channel.isChannelName name ∧ ∃ a, s.fetch extension name = .ok a ∧ Channel.ofAttr a = .ok c := by
  unfold channel?
  by_cases hname : Channel.isChannelName name = true
  · cases s.fetch extension name with
    | error e => by_cases he : e.isNotFound = true <;> simp [hname, he]
    | ok a => cases hread : Channel.ofAttr a <;> simp [hname, hread, Except.mapError, Except.map]
  · simp [hname]

theorem channel_eq_ok_iff (c : Channel) :
    s.channel extension name = .ok c ↔ s.channel? extension name = .ok (some c) := by
  rw [channel]
  rcases s.channel? extension name with e | _ | found <;> simp

theorem seen_eq_ok_iff (c : Channel) (caller : String) :
    s.seen p extension name = .ok (c, caller) ↔
      s.channel extension name = .ok c ∧ s.fetchCaller = .ok caller ∧ s.lets p .see c.acl caller = true := by
  unfold seen
  cases s.channel extension name with
  | error e => simp
  | ok found =>
    cases s.fetchCaller with
    | error e => simp
    | ok asked =>
      by_cases hsee : s.lets p .see found.acl asked = true
      · simp only [hsee, if_true, Except.ok.injEq, Prod.mk.injEq]
        constructor
        · rintro ⟨rfl, rfl⟩
          exact ⟨rfl, rfl, hsee⟩
        · rintro ⟨rfl, rfl, -⟩
          exact ⟨rfl, rfl⟩
      · simp only [hsee, if_false, reduceCtorEq, Except.ok.injEq, false_iff]
        rintro ⟨rfl, rfl, hlets⟩
        exact hsee hlets

end WorldPlugins.Store

namespace WorldPlugins.Chat

open Session (outcome outcome_bind outcome_ite)

theorem Channel.ne_empty_of_isChannelName {name : String} (h : Channel.isChannelName name = true) : name ≠ "" := by
  rintro rfl
  cases h

/-- A channel that is looked up is read from the attribute of its name. -/
theorem stored_of_channel {extension name : String} {s : Store} {c : Channel}
    (h : s.channel extension name = .ok c) :
    ∃ a, s.fetch extension name = .ok a ∧ s.attr? extension name = some a ∧ Channel.ofAttr a = .ok c ∧
      c.name = name := by
  obtain ⟨-, a, hfetch, hread⟩ := (s.channel?_eq_some_iff extension name c).mp ((s.channel_eq_ok_iff _ _ c).mp h)
  obtain ⟨-, -, -, hattr⟩ := (s.fetch_eq_ok_iff extension name a).mp hfetch
  refine ⟨a, hfetch, hattr, hread, ?_⟩
  obtain ⟨fields, -, rfl⟩ := (Channel.ofAttr_eq_ok_iff a c).mp hread
  exact s.name_of_attr? extension name hattr

/-- There is only one channel to look up under a name. -/
theorem eq_of_channel {extension name : String} {s : Store} {a : Attr} {c found : Channel}
    (hattr : s.attr? extension name = some a) (hread : Channel.ofAttr a = .ok c)
    (h : s.channel extension name = .ok found) : found = c := by
  obtain ⟨b, -, hb, hbread, -⟩ := stored_of_channel h
  cases hattr.symm.trans hb
  cases hread.symm.trans hbread
  rfl

/-- Writing the members of a channel that was looked up fails only if the world makes it fail. -/
theorem writeField_of_channel {extension name : String} {s : Store} {c : Channel}
    (h : s.channel extension name = .ok c) (names : List String) :
    ∃ a b, s.attr? extension name = some a ∧ a.withField (Channel.namesField Channel.membersKey names) = .ok b ∧
      s.writeField extension c.name (Channel.namesField Channel.membersKey names) =
        match s.fault? .setAttr with
        | some e => (.error e, s)
        | none => (.ok (), s.withAttr extension b) := by
  obtain ⟨a, hfetch, hattr, hread, hname⟩ := stored_of_channel h
  obtain ⟨fields, hfields, -⟩ := (Channel.ofAttr_eq_ok_iff a c).mp hread
  obtain ⟨hextension, hne, -, -⟩ := (s.fetch_eq_ok_iff extension name a).mp hfetch
  obtain ⟨b, hfield⟩ : ∃ b, a.withField (Channel.namesField Channel.membersKey names) = .ok b :=
    ⟨_, (Attr.withField_eq_ok_iff a _ _).mpr ⟨fields, hfields, rfl⟩⟩
  have hempty : b.name ≠ "" := by
    rw [(Channel.ofAttr_withField hfields hfield).1, s.name_of_attr? extension name hattr]
    exact hne
  refine ⟨a, b, hattr, hfield, ?_⟩
  rw [hname, Store.writeField, hfetch]
  dsimp only
  rw [hfield]
  dsimp only
  cases hfault : s.fault? .setAttr with
  | some e => rw [Store.write, if_neg hextension, if_neg hempty, hfault]
  | none => rw [Store.write, if_neg hextension, if_neg hempty, hfault]

variable (ctx : Context) (name player : String) (s : Store)

theorem outcome_find? : outcome (Channel.find? ctx name) s = (s.channel? ctx.extension name, s) := by
  rw [Channel.find?, outcome_ite, Store.channel?]
  split
  · rw [outcome_bind, Session.outcome_lift]
    have hfetch : (Client.getAttr ctx.extension name true).run.eval s = (s.fetch ctx.extension name, s) :=
      Store.outcome_getAttr ctx.extension name true s
    rw [hfetch]
    cases s.fetch ctx.extension name with
    | error e =>
      dsimp only
      split <;> rfl
    | ok a =>
      dsimp only
      rw [outcome_bind, Session.outcome_ofAttr]
      cases Channel.ofAttr a <;> rfl
  · rfl

theorem outcome_get : outcome (Channel.get ctx name) s = (s.channel ctx.extension name, s) := by
  rw [Channel.get, outcome_bind, outcome_find?, Store.channel]
  rcases s.channel? ctx.extension name with e | _ | c <;> rfl

theorem outcome_visibleChannel :
    outcome (visibleChannel ctx name) s = (s.seen ctx.config.privilege ctx.extension name, s) := by
  rw [visibleChannel, outcome_bind, outcome_get, Store.seen]
  cases s.channel ctx.extension name with
  | error e => rfl
  | ok c =>
    dsimp only
    rw [outcome_bind, Session.outcome_ofApi, Store.outcome_getCallerName]
    cases s.fetchCaller with
    | error e => rfl
    | ok caller =>
      dsimp only [Except.mapError]
      rw [outcome_bind, Store.outcome_may]
      dsimp only
      split <;> rfl

theorem outcome_visibleAmong (names : List String) :
    outcome (Channel.visibleAmong ctx player names) s =
      (.ok (names.filterMap fun name => s.seenBy ctx.config.privilege player ctx.extension name), s) := by
  induction names with
  | nil => rfl
  | cons name names ih =>
    have hget : (Channel.get ctx name).run.eval s = (s.channel ctx.extension name, s) := outcome_get ctx name s
    rw [Channel.visibleAmong, outcome_bind, Session.outcome_lift, hget, List.filterMap_cons, Store.seenBy]
    cases s.channel ctx.extension name with
    | error e => exact ih
    | ok c =>
      dsimp only
      rw [outcome_bind, Store.outcome_may]
      dsimp only
      split
      · rw [outcome_bind, ih]
        rfl
      · exact ih

theorem outcome_visible :
    outcome (Channel.visible ctx player) s = (s.visible ctx.config.privilege player ctx.extension, s) := by
  rw [Channel.visible, outcome_bind, Channel.names, outcome_bind, Session.outcome_ofApi,
    Store.outcome_getAttrNames, Store.visible]
  cases s.fetchNames ctx.extension with
  | error e => rfl
  | ok names =>
    dsimp only [Except.mapError]
    rw [Session.outcome_pure]
    exact outcome_visibleAmong ctx player s _

end WorldPlugins.Chat
