import Mathlib.Data.List.Forall2
import WorldPlugins.Proofs.Rpc.Addressing

/-! # Sessions that follow a script

A script says which methods are asked for, in order, and on whose authority each.  What may fail follows one of
several scripts if, whatever the store replies, it goes through one of them, and stops before the end only by failing.
Each method of the store is one step, with parameters that are not empty: those are refused before.
-/

namespace WorldPlugins

open Json (Decoder Members)

/-- A method, and whether it is asked for on the authority of the extension.  What names no authority has that of the
caller here. -/
structure Step where
  method : StoreMethod
  asExtension : Bool
  deriving DecidableEq, Repr

def Step.TakenBy (thing : String) (step : Step) (asked : String × Members) : Prop :=
  step.method.name = asked.1 ∧ Addressed thing step.asExtension step.method asked.2

namespace Session

variable {α β ε : Type} {post : List (String × Members) → α → Prop}

def Takes : Session α → (List (String × Members) → α → Prop) → Prop
  | .done a, post => post [] a
  | .ask method params next, post => ∀ reply, (next reply).Takes fun asked a => post ((method, params) :: asked) a

theorem Takes.mono {post' : List (String × Members) → α → Prop} {x : Session α} (h : x.Takes post)
    (hpost : ∀ asked a, post asked a → post' asked a) : x.Takes post' := by
  induction x generalizing post post' with
  | done a => exact hpost [] a h
  | ask method params next ih => exact fun reply => ih reply (h reply) fun asked => hpost _

theorem Takes.bind {post : List (String × Members) → β → Prop} {x : Session α} {f : α → Session β}
    (h : x.Takes fun first a => (f a).Takes fun second => post (first ++ second)) : (x >>= f).Takes post := by
  induction x generalizing post with
  | done a => exact h
  | ask method params next ih => exact fun reply => ih reply (h reply)

/-- The requests of a session that is played are those that it asks for, numbered one after another. -/
theorem Takes.sent {σ : Type} {x : Session α} (h : x.Takes post) (exchange : Exchange σ) (callId : String)
    (number : Nat) (state : σ) :
    ∃ asked, post asked (x.run exchange callId number state).value ∧
      ∀ k r, (x.run exchange callId number state).sent[k]? = some r →
        ∃ q, asked[k]? = some q ∧ r = request callId (number + k) q.1 q.2 := by
  induction x generalizing post number state with
  | done a => exact ⟨[], h, by simp⟩
  | ask method params next ih =>
    obtain ⟨asked, hpost, hsent⟩ := ih _ (h _) (number + 1) (exchange (request callId number method params) state).2
    refine ⟨(method, params) :: asked, hpost, ?_⟩
    intro k r hr
    cases k with
    | zero => exact ⟨_, rfl, (Option.some.inj hr).symm⟩
    | succ k =>
      have hnumber : number + (k + 1) = number + 1 + k := by omega
      rw [hnumber]
      exact hsent k r hr

/-- There is always a way through a session. -/
theorem Takes.exists_asked {x : Session α} (h : x.Takes post) : ∃ asked a, post asked a := by
  induction x generalizing post with
  | done a => exact ⟨[], a, h⟩
  | ask method params next ih =>
    obtain ⟨asked, a, hpost⟩ := ih (.ok .null) (h (.ok .null))
    exact ⟨_, a, hpost⟩

theorem Takes.asksOnly {p : String → Members → Prop} {x : Session α} (h : x.Takes post)
    (hpost : ∀ asked a, post asked a → ∀ q ∈ asked, p q.1 q.2) : x.AsksOnly p := by
  induction x generalizing post with
  | done a => trivial
  | ask method params next ih =>
    refine ⟨?_, fun reply => ih reply (h reply) fun asked a hasked q hq =>
      hpost _ a hasked q (List.mem_cons_of_mem _ hq)⟩
    obtain ⟨asked, a, hasked⟩ := (h (.ok .null)).exists_asked
    exact hpost _ a hasked _ List.mem_cons_self

variable {thing : String} {first : List Step} {scripts rests : List (List Step)}

/-- Whatever the replies, what may fail goes through one of these scripts, or stops in it by failing. -/
def Follows (thing : String) (scripts : List (List Step)) (x : ExceptT ε Session α) : Prop :=
  x.run.Takes fun asked r => ∃ script ∈ scripts, ∃ part, part <+: script ∧
    List.Forall₂ (Step.TakenBy thing) part asked ∧ (r.isOk = true → part = script)

theorem Follows.widen {x : ExceptT ε Session α} (h : Follows thing rests x) (hsub : rests ⊆ scripts) :
    Follows thing scripts x := by
  refine h.mono ?_
  rintro asked r ⟨script, hscript, hpart⟩
  exact ⟨script, hsub hscript, hpart⟩

theorem follows_pure (a : α) : Follows thing [[]] (pure a : ExceptT ε Session α) :=
  ⟨[], List.mem_singleton_self _, [], List.prefix_refl _, .nil, fun _ => rfl⟩

/-- What fails at once stops at the beginning of any script. -/
theorem follows_throw (e : ε) (script : List Step) :
    Follows thing (script :: scripts) (throw e : ExceptT ε Session α) :=
  ⟨script, List.mem_cons_self, [], List.nil_prefix, .nil, nofun⟩

/-- A script is followed to its end before another begins. -/
theorem Follows.bind {x : ExceptT ε Session α} {f : α → ExceptT ε Session β} (hx : Follows thing [first] x)
    (rest : List Step) (rests : List (List Step)) (hf : ∀ a, Follows thing (rest :: rests) (f a)) :
    Follows thing ((rest :: rests).map (first ++ ·)) (x >>= f) := by
  rw [Follows, ExceptT.run_bind]
  refine Takes.bind (hx.mono ?_)
  rintro asked r ⟨script, hscript, part, hpart, htaken, hend⟩
  obtain rfl := List.mem_singleton.mp hscript
  cases r with
  | error e =>
    refine ⟨script ++ rest, List.mem_cons_self, part, hpart.trans (List.prefix_append _ _), ?_, nofun⟩
    rw [List.append_nil]
    exact htaken
  | ok a =>
    obtain rfl := hend rfl
    refine (hf a).mono ?_
    rintro later r ⟨script, hscript, part', hpart', htaken', hend'⟩
    refine ⟨part ++ script, List.mem_map_of_mem hscript, part ++ part',
      (List.prefix_append_right_inj part).mpr hpart', List.rel_append htaken htaken', ?_⟩
    intro hok
    rw [hend' hok]

theorem Follows.ofApi {api : Api α} (h : Follows thing scripts api) :
    Follows thing scripts (liftM api : Handler α) := by
  change (api.run >>= fun r => pure (r.mapError PluginError.store)).Takes _
  refine Takes.bind (h.mono ?_)
  rintro asked r ⟨script, hscript, part, hpart, htaken, hend⟩
  refine ⟨script, hscript, part, hpart, ?_, fun hok => hend ?_⟩
  · rw [List.append_nil]
    exact htaken
  · cases r with
    | error e => cases hok
    | ok a => rfl

theorem follows_ofAttr (q : Except AttrError α) : Follows thing [[]] (liftM q : Handler α) := by
  cases q with
  | error e => exact follows_throw _ _
  | ok a => exact follows_pure a

theorem follows_ofArgument (q : Except ArgumentError α) : Follows thing [[]] (liftM q : Handler α) := by
  cases q with
  | error e => exact follows_throw _ _
  | ok a => exact follows_pure a

/-- The requests of what is played are the first steps of one script. -/
theorem Follows.sent {σ : Type} {x : ExceptT ε Session α} (h : Follows thing scripts x) (exchange : Exchange σ)
    (callId : String) (number : Nat) (state : σ) :
    ∃ script ∈ scripts, ∀ k r, (x.run.run exchange callId number state).sent[k]? = some r →
      ∃ step method params, script[k]? = some step ∧ r = request callId (number + k) method params ∧
        step.TakenBy thing (method, params) := by
  obtain ⟨asked, ⟨script, hscript, part, hpart, htaken, -⟩, hsent⟩ := Takes.sent h exchange callId number state
  refine ⟨script, hscript, ?_⟩
  intro k r hr
  obtain ⟨q, hq, hrequest⟩ := hsent k r hr
  obtain ⟨hasked, rfl⟩ := List.getElem?_eq_some_iff.mp hq
  have hk : k < part.length := htaken.length_eq ▸ hasked
  have hstep : script[k]? = some part[k] := by
    rw [hpart.getElem hk]
    exact List.getElem?_eq_getElem _
  exact ⟨part[k], _, _, hstep, hrequest, htaken.get hk hasked⟩

end Session

namespace Client

open Session (Follows Takes AsksFor)

section TakesStep

variable {α : Type} {thing : String} {step : Step}

/-- Whatever the replies, the parameters are refused before anything is asked for, or one step of a script is taken. -/
abbrev TakesStep (thing : String) (step : Step) (api : Api α) : Prop :=
  api.run.Takes fun asked r =>
    (asked = [] ∧ ∃ cause, r = .error (.parameters cause)) ∨ List.Forall₂ (Step.TakenBy thing) [step] asked

theorem follows_of_takesStep {api : Api α} (h : TakesStep thing step api) : Follows thing [[step]] api := by
  refine h.mono ?_
  rintro asked r (⟨rfl, cause, rfl⟩ | htaken)
  · exact Session.follows_throw _ _
  · exact ⟨[step], List.mem_singleton_self _, [step], List.prefix_refl _, htaken, fun _ => rfl⟩

/-- A step whose outcome is looked at as a value, where a refusal of the parameters is passed on. -/
theorem follows_lift_bind {β ε : Type} {api : Api α} {f : Except RpcError α → ExceptT ε Session β}
    (h : TakesStep thing step api) (hrefused : ∀ cause, ∃ e, f (.error (.parameters cause)) = throw e)
    (hf : ∀ r, Follows thing [[]] (f r)) : Follows thing [[step]] (ExceptT.lift api.run >>= f) := by
  have hrun : (ExceptT.lift api.run >>= f).run = api.run >>= fun r => (f r).run := by
    rw [ExceptT.run_bind, ExceptT.run_lift, map_eq_pure_bind, bind_assoc]
    rfl
  rw [Follows, hrun]
  refine Takes.bind (h.mono ?_)
  rintro asked r (⟨rfl, cause, rfl⟩ | htaken)
  · obtain ⟨e, he⟩ := hrefused cause
    rw [he]
    exact Session.follows_throw e [step]
  · refine (hf r).mono ?_
    rintro later r ⟨script, hscript, part, hpart, hlater, hend⟩
    obtain rfl := List.mem_singleton.mp hscript
    obtain rfl := List.prefix_nil.mp hpart
    cases hlater
    rw [List.append_nil]
    exact ⟨[step], List.mem_singleton_self _, [step], List.prefix_refl _, htaken, fun _ => rfl⟩

theorem asksFor_of_takesStep {method : StoreMethod} {asExtension : Bool} {kind : StoreMethod → Bool} {api : Api α}
    (h : TakesStep thing ⟨method, asExtension⟩ api) (hkind : kind method = true) :
    api.run.AsksFor thing asExtension kind := by
  refine Takes.asksOnly h ?_
  rintro asked r (⟨rfl, -⟩ | htaken) q hq
  · cases hq
  · obtain ⟨q', rest, ⟨hname, haddressed⟩, hrest, rfl⟩ := List.forall₂_cons_left_iff.mp htaken
    cases hrest
    obtain rfl := List.mem_singleton.mp hq
    exact ⟨method, hkind, hname, haddressed⟩

private theorem takesStep_require {name value : String} {x : Unit → Api α}
    (h : value ≠ "" → TakesStep thing step (x ())) : TakesStep thing step (require name value >>= x) := by
  unfold require
  split
  · exact .inl ⟨rfl, _, rfl⟩
  · next hvalue => exact h hvalue

private theorem takesStep_query {d : Decoder α} {params : List (String × Json)}
    (h : Addressed thing step.asExtension step.method (Keyed.ofList params)) :
    TakesStep thing step (query d step.method params) :=
  fun _ => .inr (.cons ⟨rfl, h⟩ .nil)

private theorem takesStep_order {params : List (String × Json)}
    (h : Addressed thing step.asExtension step.method (Keyed.ofList params)) :
    TakesStep thing step (order step.method params) := by
  intro reply
  cases reply with
  | error e => exact .inr (.cons ⟨rfl, h⟩ .nil)
  | ok result => exact .inr (.cons ⟨rfl, h⟩ .nil)

end TakesStep

variable (thing name player : String) (asExtension : Bool) {kind : StoreMethod → Bool}

theorem takesStep_getAttr : TakesStep thing ⟨.getAttr, asExtension⟩ (getAttr thing name asExtension) := by
  refine takesStep_require fun hthing => takesStep_require fun hname => ?_
  exact takesStep_query (addressed_attrParams asExtension hthing hname _)

theorem takesStep_getAttrNames : TakesStep thing ⟨.getAttrNames, asExtension⟩ (getAttrNames thing asExtension) :=
  takesStep_require fun hthing => takesStep_query (addressed_thingParams asExtension hthing)

theorem takesStep_setAttr (attr : Attr) :
    TakesStep thing ⟨.setAttr, asExtension⟩ (setAttr thing attr asExtension) := by
  refine takesStep_require fun hthing => takesStep_require fun hname => ?_
  exact takesStep_order (addressed_writeParams asExtension hthing hname _)

theorem takesStep_removeAttr : TakesStep thing ⟨.removeAttr, asExtension⟩ (removeAttr thing name asExtension) := by
  refine takesStep_require fun hthing => takesStep_require fun hname => ?_
  exact takesStep_order (addressed_attrParams asExtension hthing hname _)

theorem takesStep_getRoles : TakesStep thing ⟨.getRoles, asExtension⟩ (getRoles player asExtension) :=
  takesStep_require fun _ => takesStep_query (addressed_rolesParams asExtension thing player)

theorem takesStep_getCallerName : TakesStep thing ⟨.getCallerName, asExtension⟩ getCallerName :=
  takesStep_query (addressed_of_none asExtension rfl thing _)

theorem takesStep_getCallerTimezone : TakesStep thing ⟨.getCallerTimezone, asExtension⟩ getCallerTimezone :=
  takesStep_query (addressed_of_none asExtension rfl thing _)

theorem takesStep_sendMessage (message : String) :
    TakesStep thing ⟨.sendMessage, asExtension⟩ (sendMessage player message) :=
  takesStep_order (addressed_of_none asExtension rfl thing _)

/-- Telling the caller is one step, whatever is told. -/
theorem takesStep_tell (params : List (String × Json)) :
    TakesStep thing ⟨.sendMessageToCaller, asExtension⟩ (order .sendMessageToCaller params) :=
  takesStep_order (addressed_of_none asExtension rfl thing _)

/-- Writing a field of a list reads the list and then writes it, on one authority. -/
theorem follows_setField (field : Attr) :
    Follows thing [[⟨.getAttr, asExtension⟩, ⟨.setAttr, asExtension⟩]] (setField thing name field asExtension) := by
  refine (follows_of_takesStep (takesStep_getAttr thing name asExtension)).bind [⟨.setAttr, asExtension⟩] []
    fun current => ?_
  split
  · exact follows_of_takesStep (takesStep_setAttr thing asExtension _)
  · exact Session.follows_throw _ _

theorem asks_setField (field : Attr) :
    (setField thing name field asExtension).run.AsksFor thing asExtension StoreMethod.any := by
  refine (asksFor_of_takesStep (takesStep_getAttr thing name asExtension) rfl).bindExcept fun current => ?_
  split
  · exact asksFor_of_takesStep (takesStep_setAttr thing asExtension _) rfl
  · trivial

/-- Looking whether there is an attribute is reading it. -/
theorem run_hasAttr : (hasAttr thing name asExtension).run =
    (getAttr thing name asExtension).run >>= fun r =>
      match r with
      | .ok _ => pure (.ok true)
      | .error e => if e.isNotFound then pure (.ok false) else pure (.error e) := by
  unfold hasAttr
  rw [ExceptT.run_tryCatch, ExceptT.run_bind, bind_assoc]
  congr 1
  funext r
  cases r with
  | ok a => rfl
  | error e =>
    simp only [Session.pure_eq_done, Session.done_bind]
    split <;> rfl

theorem asks_hasAttr : (hasAttr thing name asExtension).run.AsksFor thing asExtension StoreMethod.reads := by
  rw [run_hasAttr]
  refine (asksFor_of_takesStep (takesStep_getAttr thing name asExtension) rfl).bind ?_
  rintro (e | a)
  · dsimp only
    split <;> trivial
  · trivial

/-! Within handlers. -/

theorem asks_caller : (liftM getCallerName : Handler String).run.AsksFor thing asExtension StoreMethod.reads :=
  (asksFor_of_takesStep (takesStep_getCallerName thing asExtension) rfl).ofApi

/-- A handler may end by telling the caller something. -/
theorem asks_told (params : List (String × Json)) :
    (do let _ ← (liftM (order .sendMessageToCaller params) : Handler Unit); Handler.done).run.AsksFor
      thing asExtension StoreMethod.keeps :=
  (asksFor_of_takesStep (takesStep_tell thing asExtension params) rfl).ofApi.bindExcept fun _ => trivial

end Client

end WorldPlugins
