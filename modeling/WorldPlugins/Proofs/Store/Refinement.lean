import WorldPlugins.Proofs.Store.History
import WorldPlugins.Proofs.Store.Orderly

/-! # A store answers by its history

However a store is built and whatever it is asked, its attributes are those of its history: a request for attributes
that is well formed, and whose method is not made to fail, is answered by what was written last and in the order of
first writing.  A request that is answered with an error leaves the store as it is.
-/

namespace WorldPlugins

open Json (Members)

inductive Build
  | caller (name : String)
  | timezone (zone : String)
  | roles (player : String) (roles : List String)
  | thing (id : String)
  | attr (id : String) (attr : Attr)
  | failure (method : String) (code : Int) (message : String)
  deriving DecidableEq, Repr

namespace Build

def apply (s : Store) : Build → Store
  | .caller name => s.withCaller name
  | .timezone zone => s.withTimezone zone
  | .roles player held => s.withRoles player held
  | .thing id => s.withThing id
  | .attr id a => s.withAttr id a
  | .failure method code message => s.withFailure method code message

def change? : Build → Option Change
  | .thing id => some (.known id)
  | .attr id a => some (.written id a)
  | _ => none

def store (builds : List Build) : Store := builds.foldl apply .empty

def history (builds : List Build) : History := builds.foldl (fun h b => b.change?.toList ++ h) []

def Spares (builds : List Build) (method : String) : Prop := ∀ code message, Build.failure method code message ∉ builds

end Build

inductive AttrRequest
  | get (thing name : String)
  | names (thing : String)
  | set (thing : String) (attr : Attr)
  | remove (thing name : String)
  deriving DecidableEq, Repr

namespace AttrRequest

def ofParams? (params : Members) : StoreMethod → Option AttrRequest
  | .getAttr => do pure (.get (← params.string? "thingId") (← params.string? "name"))
  | .getAttrNames => do pure (.names (← params.string? "thingId"))
  | .setAttr => do
    let thing ← params.string? "thingId"
    let name ← params.string? "name"
    let value ← params.string? "value"
    let type ← (← params.string? "type") |> AttrType.ofName?
    pure (.set thing ⟨name, value, type⟩)
  | .removeAttr => do pure (.remove (← params.string? "thingId") (← params.string? "name"))
  | _ => none

/-- The request for attributes in a request, if that is well formed: it has the id of a plugin call, and all that its
method needs. -/
def of? (r : Request) : Option AttrRequest := do
  let params ← r.members?
  let _ ← Keyed.get? params callIdKey
  ofParams? params (← StoreMethod.ofName? r.method)

def change? : AttrRequest → Option Change
  | .set thing attr => some (.written thing attr)
  | .remove thing name => some (.removed thing name)
  | _ => none

theorem change?_ofParams? {method : StoreMethod} (h : method.keeps = true) (params : Members) :
    (ofParams? params method).bind change? = none := by
  cases method with
  | setAttr => cases h
  | removeAttr => cases h
  | _ => simp [ofParams?, change?, Option.bind_assoc]

end AttrRequest

namespace Response

def IsNotFound (a : Response) : Prop := ∃ e, a.error = some e ∧ e.code = ErrorCode.notFound.number

end Response

namespace AttrRequest

/-- What a well formed request has to be answered, by what happened before. -/
def AnsweredBy (h : History) (a : Response) : AttrRequest → Prop
  | .get thing name =>
    match h.lastWritten? thing name with
    | some attr => a.result = some attr.toJson
    | none => a.IsNotFound
  | .names thing =>
    if h.knows thing then
      ∃ names, a.result = some (.strings names) ∧ names.Pairwise (h.WrittenBefore thing) ∧
        ∀ name, name ∈ names ↔ (h.lastWritten? thing name).isSome = true
    else a.IsNotFound
  | .set _ _ => a.error = none
  | .remove thing _ => if h.knows thing then a.error = none else a.IsNotFound

end AttrRequest

namespace Change

/-- What a request did to the attributes, as its answer tells. -/
def of? (r : Request) (a : Response) : Option Change :=
  if a.isSuccess then (AttrRequest.of? r).bind AttrRequest.change? else none

end Change

def History.after (h : History) (answered : List (Request × Response)) : History :=
  answered.foldl (fun h (r, a) => (Change.of? r a).toList ++ h) h

namespace Store

def answerAll : List Request → Store → List (Request × Response) × Store
  | [], s => ([], s)
  | r :: rs, s =>
    let (a, t) := s.answer r
    let (answered, u) := answerAll rs t
    ((r, a) :: answered, u)

/-- What a request that succeeds makes of a store. -/
inductive Stepped (r : Request) (s : Store) : Store → Prop
  | wrote {thing : String} {attr : Attr} (hasked : AttrRequest.of? r = some (.set thing attr)) :
      Stepped r s (s.withAttr thing attr)
  | removed {thing name : String} (hasked : AttrRequest.of? r = some (.remove thing name))
      (hknown : (s.thing? thing).isSome = true) : Stepped r s (s.without thing name)
  | kept (messages : List Sent) (hasked : (AttrRequest.of? r).bind AttrRequest.change? = none) :
      Stepped r s { s with sent := messages }

variable {r : Request} {s t : Store}

private theorem stringParam_eq_ok_iff (params : Members) (name value : String) :
    stringParam params name = .ok value ↔ params.string? name = some value := by
  unfold stringParam
  cases params.string? name <;> simp

private theorem existing_eq_ok_iff (thing : String) (s : Store) (attrs : List Attr) :
    s.existing thing = .ok attrs ↔ s.thing? thing = some attrs := by
  unfold existing
  cases s.thing? thing <;> simp

private theorem of?_eq {params : Members} {callId : Json} {method : StoreMethod} (hparams : r.members? = some params)
    (hcall : Keyed.get? params callIdKey = some callId) (hmethod : StoreMethod.ofName? r.method = some method) :
    AttrRequest.of? r = AttrRequest.ofParams? params method := by
  simp [AttrRequest.of?, hparams, hcall, hmethod]

private theorem stepped_of_perform {params : Members} {method : StoreMethod} {result : Json}
    (hasked : AttrRequest.of? r = AttrRequest.ofParams? params method)
    (h : s.perform params method = .ok (result, t)) : Stepped r s t := by
  cases method with
  | setAttr =>
    obtain ⟨thing, hthing, h⟩ := (bind_eq_ok_iff _ _ _).mp h
    obtain ⟨name, hname, h⟩ := (bind_eq_ok_iff _ _ _).mp h
    obtain ⟨value, hvalue, h⟩ := (bind_eq_ok_iff _ _ _).mp h
    obtain ⟨typeName, htypeName, h⟩ := (bind_eq_ok_iff _ _ _).mp h
    rw [stringParam_eq_ok_iff] at hthing hname hvalue htypeName
    split at h
    · next type htype =>
      cases h
      refine .wrote ?_
      simp [hasked, AttrRequest.ofParams?, hthing, hname, hvalue, htypeName, htype]
    · cases h
  | removeAttr =>
    obtain ⟨thing, hthing, h⟩ := (bind_eq_ok_iff _ _ _).mp h
    obtain ⟨name, hname, h⟩ := (bind_eq_ok_iff _ _ _).mp h
    obtain ⟨attrs, hattrs, h⟩ := (bind_eq_ok_iff _ _ _).mp h
    rw [stringParam_eq_ok_iff] at hthing hname
    rw [existing_eq_ok_iff] at hattrs
    cases h
    have hsame : s.attributes thing = attrs := by rw [attributes, hattrs, Option.getD_some]
    rw [← hsame]
    refine .removed ?_ (by rw [hattrs]; rfl)
    simp [hasked, AttrRequest.ofParams?, hthing, hname]
  | sendMessage =>
    obtain ⟨message, rfl⟩ := perform_of_sends (.inl rfl) h
    exact .kept _ (by rw [hasked]; exact AttrRequest.change?_ofParams? rfl params)
  | sendMessageToCaller =>
    obtain ⟨message, rfl⟩ := perform_of_sends (.inr rfl) h
    exact .kept _ (by rw [hasked]; exact AttrRequest.change?_ofParams? rfl params)
  | _ =>
    obtain rfl := perform_of_reads rfl h
    exact .kept _ (by rw [hasked]; exact AttrRequest.change?_ofParams? rfl params)

/-- A request is answered with an error and nothing changes, or it succeeds and is a step. -/
theorem answer_cases (r : Request) (s : Store) :
    (∃ e, s.answer r = (.failure r.id e, s)) ∨
      ∃ result t, s.answer r = (.success r.id result, t) ∧ Stepped r s t := by
  cases hexecute : s.execute r.method (r.members?.getD []) with
  | error e => exact .inl ⟨e, by rw [answer, hexecute]⟩
  | ok outcome =>
    obtain ⟨result, t⟩ := outcome
    refine .inr ⟨result, t, by rw [answer, hexecute], ?_⟩
    unfold execute at hexecute
    cases hfailure : Keyed.get? s.failures r.method with
    | some failure => simp [hfailure] at hexecute
    | none =>
      cases hcall : Keyed.get? (r.members?.getD []) callIdKey with
      | none => simp [hfailure, hcall] at hexecute
      | some callId =>
        cases hmethod : StoreMethod.ofName? r.method with
        | none => simp [hfailure, hcall, hmethod] at hexecute
        | some method =>
          simp only [hfailure, hcall, hmethod] at hexecute
          cases hparams : r.members? with
          | none => simp [hparams] at hcall
          | some params =>
            rw [hparams, Option.getD_some] at hcall hexecute
            exact stepped_of_perform (of?_eq hparams hcall hmethod) hexecute

/-- A step makes of the history what its request asks for. -/
theorem Stepped.reflects {h : History} (hs : Reflects h s) (hstep : Stepped r s t) (id : Option RequestId)
    (result : Json) : Reflects ((Change.of? r (.success id result)).toList ++ h) t := by
  have hchange : Change.of? r (.success id result) = (AttrRequest.of? r).bind AttrRequest.change? := rfl
  rw [hchange]
  cases hstep with
  | wrote hasked =>
    rw [hasked]
    exact hs.withAttr _ _
  | removed hasked hknown =>
    rw [hasked]
    exact hs.without _ _ hknown
  | kept messages hasked =>
    rw [hasked]
    exact hs.of_things rfl

/-- However a request is answered, the store holds what happened then. -/
theorem reflects_answer {h : History} (hs : Reflects h s) (r : Request) :
    Reflects ((Change.of? r (s.answer r).1).toList ++ h) (s.answer r).2 := by
  rcases answer_cases r s with ⟨e, hanswer⟩ | ⟨result, t, hanswer, hstep⟩
  · rw [hanswer]
    exact hs
  · rw [hanswer]
    exact hstep.reflects hs r.id result

theorem reflects_store (builds : List Build) : Reflects (Build.history builds) (Build.store builds) := by
  have hsteps (s : Store) (h : History) (hs : Reflects h s) :
      Reflects (builds.foldl (fun h b => b.change?.toList ++ h) h) (builds.foldl Build.apply s) := by
    induction builds generalizing s h with
    | nil => exact hs
    | cons b builds ih =>
      refine ih _ _ ?_
      cases b with
      | thing id => exact hs.withThing id
      | attr id a => exact hs.withAttr id a
      | _ => exact hs.of_things rfl
  exact hsteps _ _ reflects_empty

theorem reflects_answerAll {h : History} (hs : Reflects h s) (requests : List Request) :
    Reflects (h.after (answerAll requests s).1) (answerAll requests s).2 := by
  induction requests generalizing s h with
  | nil => exact hs
  | cons r requests ih => exact ih (reflects_answer hs r)

theorem Stepped.failures (hstep : Stepped r s t) : t.failures = s.failures := by
  cases hstep with
  | wrote => rfl
  | removed => rfl
  | kept => rfl

theorem failures_answerAll (requests : List Request) (s : Store) : (answerAll requests s).2.failures = s.failures := by
  induction requests generalizing s with
  | nil => rfl
  | cons r requests ih =>
    have hone : (s.answer r).2.failures = s.failures := by
      rcases answer_cases r s with ⟨e, hanswer⟩ | ⟨result, t, hanswer, hstep⟩
      · rw [hanswer]
      · rw [hanswer]
        exact hstep.failures
    exact (ih _).trans hone

theorem failures_store {builds : List Build} {method : String} (h : Build.Spares builds method) :
    Keyed.get? (Build.store builds).failures method = none := by
  have hsteps (s : Store) (hs : Keyed.get? s.failures method = none) :
      Keyed.get? (builds.foldl Build.apply s).failures method = none := by
    induction builds generalizing s with
    | nil => exact hs
    | cons b builds ih =>
      refine ih (fun code message hmem => h code message (List.mem_cons_of_mem _ hmem)) _ ?_
      cases b with
      | failure other code message =>
        have hne : method ≠ other := by
          rintro rfl
          exact h code message List.mem_cons_self
        rw [Build.apply, withFailure, Keyed.get?_insert_of_ne _ _ hne]
        exact hs
      | _ => exact hs
  exact hsteps _ rfl

/-- What a change leaves alone: every other attribute, in its place, and without a change everything. -/
def ChangedBy (s t : Store) : Option Change → Prop
  | some (.written thing attr) => ChangedAt thing attr.name s t
  | some (.removed thing name) => ChangedAt thing name s t
  | _ => t.things = s.things

theorem Stepped.changedBy (hstep : Stepped r s t) (id : Option RequestId) (result : Json) :
    ChangedBy s t (Change.of? r (.success id result)) := by
  have hchange : Change.of? r (.success id result) = (AttrRequest.of? r).bind AttrRequest.change? := rfl
  rw [hchange]
  cases hstep with
  | wrote hasked =>
    rw [hasked]
    exact changedAt_withAttr s _ _
  | removed hasked hknown =>
    rw [hasked]
    exact changedAt_without s _ _
  | kept messages hasked =>
    rw [hasked]
    exact rfl

/-- A well formed request comes to its method, if that is not made to fail. -/
private theorem answer_of_wellFormed {q : AttrRequest} (hasked : AttrRequest.of? r = some q)
    (hspared : Keyed.get? s.failures r.method = none) :
    ∃ params method, AttrRequest.ofParams? params method = some q ∧
      (s.answer r).1 = match s.perform params method with
        | .ok (result, _) => .success r.id result
        | .error e => .failure r.id e := by
  obtain ⟨params, hparams, hrest⟩ := Option.bind_eq_some_iff.mp hasked
  obtain ⟨callId, hcall, hrest⟩ := Option.bind_eq_some_iff.mp hrest
  obtain ⟨method, hmethod, hrest⟩ := Option.bind_eq_some_iff.mp hrest
  refine ⟨params, method, hrest, ?_⟩
  simp only [answer, execute, hparams, Option.getD_some, hspared, hcall, hmethod]
  cases s.perform params method <;> rfl

private theorem isNotFound_failure (id : Option RequestId) (message : String) :
    (Response.failure id (notFound message)).IsNotFound :=
  ⟨_, rfl, rfl⟩

/-- A well formed request is answered by what happened before. -/
theorem Reflects.answeredBy {h : History} (hs : Reflects h s) {q : AttrRequest} (hasked : AttrRequest.of? r = some q)
    (hspared : Keyed.get? s.failures r.method = none) : q.AnsweredBy h (s.answer r).1 := by
  obtain ⟨params, method, hparams, hanswer⟩ := answer_of_wellFormed hasked hspared
  rw [hanswer]
  cases method with
  | getAttr =>
    obtain ⟨thing, hthing, hrest⟩ := Option.bind_eq_some_iff.mp hparams
    obtain ⟨name, hname, hq⟩ := Option.bind_eq_some_iff.mp hrest
    cases hq
    rw [← stringParam_eq_ok_iff] at hthing hname
    simp only [perform, hthing, hname, bind, Except.bind, existing, AttrRequest.AnsweredBy, ← hs.read, attr?,
      attributes]
    cases s.thing? thing with
    | none => exact isNotFound_failure _ _
    | some attrs =>
      simp only [Option.getD_some]
      cases attrs.find? fun a => a.name == name with
      | none => exact isNotFound_failure _ _
      | some attr => rfl
  | getAttrNames =>
    obtain ⟨thing, hthing, hq⟩ := Option.bind_eq_some_iff.mp hparams
    cases hq
    have hnames := hs.mem_names_iff thing
    have horder := hs.order thing
    rw [← stringParam_eq_ok_iff] at hthing
    simp only [perform, hthing, bind, Except.bind, existing, AttrRequest.AnsweredBy, ← hs.known]
    cases hknown : s.thing? thing with
    | none => exact isNotFound_failure _ _
    | some attrs =>
      simp only [attributes, hknown, Option.getD_some] at hnames horder
      exact ⟨_, rfl, horder, hnames⟩
  | setAttr =>
    obtain ⟨thing, hthing, hrest⟩ := Option.bind_eq_some_iff.mp hparams
    obtain ⟨name, hname, hrest⟩ := Option.bind_eq_some_iff.mp hrest
    obtain ⟨value, hvalue, hrest⟩ := Option.bind_eq_some_iff.mp hrest
    obtain ⟨typeName, htypeName, hrest⟩ := Option.bind_eq_some_iff.mp hrest
    obtain ⟨type, htype, hq⟩ := Option.bind_eq_some_iff.mp hrest
    cases hq
    rw [← stringParam_eq_ok_iff] at hthing hname hvalue htypeName
    simp only [perform, hthing, hname, hvalue, htypeName, htype, bind, Except.bind]
    rfl
  | removeAttr =>
    obtain ⟨thing, hthing, hrest⟩ := Option.bind_eq_some_iff.mp hparams
    obtain ⟨name, hname, hq⟩ := Option.bind_eq_some_iff.mp hrest
    cases hq
    rw [← stringParam_eq_ok_iff] at hthing hname
    simp only [perform, hthing, hname, bind, Except.bind, existing, AttrRequest.AnsweredBy, ← hs.known]
    cases s.thing? thing with
    | none => exact isNotFound_failure _ _
    | some attrs => rfl
  | _ => cases hparams

/-- What is written through the methods of a store is read back. -/
private theorem outcome_setAttr_getAttr {thing : String} {attr : Attr} (hthing : thing ≠ "") (hname : attr.name ≠ "")
    (hwrite : Keyed.get? s.failures "setAttr" = none) (hread : Keyed.get? s.failures "getAttr" = none)
    (writing reading : Bool) :
    Session.outcome (do Client.setAttr thing attr writing; Client.getAttr thing attr.name reading : Api Attr) s =
      (.ok attr, s.withAttr thing attr) := by
  have hnoFault : (s.withAttr thing attr).fault? .getAttr = none := by
    rw [fault?, StoreMethod.name]
    exact congrArg (Option.map _) hread
  have hfetch : (s.withAttr thing attr).fetch thing attr.name = .ok attr :=
    (fetch_eq_ok_iff _ thing attr.name attr).mpr ⟨hthing, hname, hnoFault, attr?_withAttr_self s thing attr⟩
  have hwritten : s.write thing attr = (.ok (), s.withAttr thing attr) := by
    rw [write, if_neg hthing, if_neg hname, fault?, StoreMethod.name, hwrite]
    rfl
  rw [Session.outcome_bind, outcome_setAttr, hwritten]
  dsimp only
  rw [outcome_getAttr, hfetch]

end Store

/-- However a store is built and whatever it was asked, it holds one attribute of each name, and any request is
answered under its id with either a result or an error.  An error changes nothing, and a success only the one attribute
that it is about.  A well formed request whose method is not made to fail is answered by what was last written, in the
order of first writing.  So what is written through the methods of the store is read back. -/
theorem answered_by_history (builds : List Build) (requests : List Request) :
    let answered := (Store.answerAll requests (Build.store builds)).1
    let s := (Store.answerAll requests (Build.store builds)).2
    let h := (Build.history builds).after answered
    (∀ thing, ((s.attributes thing).map Attr.name).Nodup) ∧
      (∀ r, let a := (s.answer r).1
        let t := (s.answer r).2
        a.id = r.id ∧ (a.result.isSome = !a.error.isSome) ∧ (a.error.isSome = true → t = s) ∧
          Store.ChangedBy s t (Change.of? r a) ∧
          ∀ q, AttrRequest.of? r = some q → Build.Spares builds r.method → q.AnsweredBy h a) ∧
      ∀ thing attr, thing ≠ "" → attr.name ≠ "" → Build.Spares builds "setAttr" → Build.Spares builds "getAttr" →
        ∀ writing reading callId number,
          ((do Client.setAttr thing attr writing; Client.getAttr thing attr.name reading : Api Attr).run.run
            Store.exchange callId number s).value = .ok attr := by
  intro answered s h
  have hs : Store.Reflects h s := Store.reflects_answerAll (Store.reflects_store builds) requests
  have hspared {method : String} (hspares : Build.Spares builds method) : Keyed.get? s.failures method = none := by
    rw [Store.failures_answerAll]
    exact Store.failures_store hspares
  refine ⟨hs.nodup, ?_, ?_⟩
  · intro r a t
    have hanswered : ∀ q, AttrRequest.of? r = some q → Build.Spares builds r.method → q.AnsweredBy h a :=
      fun q hasked hspares => hs.answeredBy hasked (hspared hspares)
    rcases Store.answer_cases r s with ⟨e, hanswer⟩ | ⟨result, u, hanswer, hstep⟩
    · have ha : a = .failure r.id e := congrArg Prod.fst hanswer
      have ht : t = s := congrArg Prod.snd hanswer
      rw [ha] at hanswered ⊢
      rw [ht]
      exact ⟨rfl, rfl, fun _ => rfl, rfl, hanswered⟩
    · have ha : a = .success r.id result := congrArg Prod.fst hanswer
      have ht : t = u := congrArg Prod.snd hanswer
      rw [ha] at hanswered ⊢
      rw [ht]
      exact ⟨rfl, rfl, nofun, hstep.changedBy r.id result, hanswered⟩
  · intro thing attr hthing hname hwrite hread writing reading callId number
    have houtcome := Store.outcome_setAttr_getAttr hthing hname (hspared hwrite) (hspared hread) writing reading
    rw [(Session.run_exchange callId _ number s).1]
    exact congrArg Prod.fst houtcome

end WorldPlugins
