import WorldPlugins.Proofs.Rpc.Replies

/-! # Replies to other requests

A reply may be a response with the id of another request.  No value is ever taken from it.  A result in it is reported
as a malformed response, but an error in it is believed: it is told as if the request that was sent had been refused,
and if it says that something is absent, then that is what the caller hears.
-/

namespace WorldPlugins

open Json (Decoder Members)

/-- A response, with the id of some other request. -/
structure Response.Stray (response : Response) (id : RequestId) : Prop where
  exists_id : ∃ other, response.id = some other
  ne : response.id ≠ some id

def strayError (response : Response) (id : RequestId) : RpcError :=
  match response.error with
  | some o => .ofErrorObject o
  | none => .malformed (.foreign response.id id)

section

variable (response : Response) (id : RequestId)

/-- Only without an error is it called malformed. -/
theorem strayError_isMalformed_iff : (∃ cause, strayError response id = .malformed cause) ↔ response.error = none := by
  unfold strayError
  cases response.error with
  | some o => simp [RpcError.ofErrorObject]
  | none => simp

/-- The code for absence is passed on like any other. -/
theorem strayError_isNotFound_iff :
    (strayError response id).isNotFound = true ↔ ∃ o, response.error = some o ∧ o.code = -32004 := by
  unfold strayError
  cases response.error with
  | some o => simp [RpcError.ofErrorObject, RpcError.isNotFound, ErrorCode.number]
  | none => simp [RpcError.isNotFound]

end

namespace Client

section

variable {α : Type} {d : Decoder α} {id : RequestId} {request : Request} {bytes : List UInt8} {response : Response}

theorem outcomeOf_of_stray (henvelope : Envelope bytes response) (hstray : response.Stray id) :
    outcomeOf d id ⟨request, .ok bytes⟩ = .error (strayError response id) := by
  have hjudged : Judged d request.method id (.ok bytes) (.error (strayError response id))
      (some (strayError response id).code) := by
    unfold strayError
    cases herror : response.error with
    | some o => exact .refused henvelope herror
    | none => exact .foreign henvelope herror hstray.ne
  exact (judged_iff.mp hjudged).1

end

section

variable {σ : Type} {wire : Wire σ} {callId : String} {number : Nat} {state : σ} {bytes : List UInt8}
  {response : Response}

private theorem value_call_of_stray {α : Type} (d : Decoder α) {method : String} {params : Members}
    (hreply : (wire (Session.request callId number method params) state).1 = .ok bytes)
    (henvelope : Envelope bytes response) (hstray : response.Stray (.number number)) :
    ((call d method params).run.run wire.exchange callId number state).value =
      .error (strayError response (.number number)) := by
  rw [run_call]
  dsimp only
  rw [hreply]
  exact outcomeOf_of_stray henvelope hstray

private theorem value_getAttr_of_stray {thing name : String} {asExtension : Bool} (hthing : thing ≠ "")
    (hname : name ≠ "")
    (hreply : (wire (Session.request callId number "getAttr" (Keyed.ofList (attrParams thing name asExtension)))
      state).1 = .ok bytes)
    (henvelope : Envelope bytes response) (hstray : response.Stray (.number number)) :
    ((getAttr thing name asExtension).run.run wire.exchange callId number state).value =
      .error (strayError response (.number number)) := by
  rcases getAttr_eq thing name asExtension with ⟨hempty, -⟩ | ⟨-, hget⟩
  · exact (hempty.elim hthing hname).elim
  · rw [hget]
    exact value_call_of_stray Attr.decoder hreply henvelope hstray

end

/-- Whenever the reply to a call is a response of another request, the call fails after that one request.  The failure
is a malformed response if and only if that response carries no error; otherwise it is that error, as if the request
had been refused.  So it is taken for an absence exactly if it says so of something else, and then looking for an
attribute answers that there is none. -/
theorem stray_replies {σ : Type} (wire : Wire σ) (callId : String) (number : Nat) (state : σ) (bytes : List UInt8)
    (response : Response) (henvelope : Envelope bytes response) (hstray : response.Stray (.number number)) :
    (∀ {α : Type} (d : Decoder α) (method : String) (params : Members),
      let request := Session.request callId number method params
      let played := (call d method params).run.run wire.exchange callId number state
      (wire request state).1 = .ok bytes →
        played.sent = [request] ∧
          ∃ e, played.value = .error e ∧
            (e = .malformed (.foreign response.id (.number number)) ↔ response.error = none) ∧
            ((∃ cause, e = .malformed cause) ↔ response.error = none) ∧
            (∀ o, response.error = some o → e = .remote o.code o.message) ∧
            (e.isNotFound = true ↔ ∃ o, response.error = some o ∧ o.code = -32004)) ∧
    ∀ (thing name : String) (asExtension : Bool),
      let request := Session.request callId number "getAttr" (Keyed.ofList (attrParams thing name asExtension))
      let looked := (hasAttr thing name asExtension).run.run wire.exchange callId number state
      thing ≠ "" → name ≠ "" → (wire request state).1 = .ok bytes →
        looked.value ≠ .ok true ∧ (looked.value = .ok false ↔ ∃ o, response.error = some o ∧ o.code = -32004) := by
  constructor
  · intro α d method params request played hreply
    refine ⟨?_, _, value_call_of_stray d hreply henvelope hstray, ?_, strayError_isMalformed_iff _ _, ?_,
      strayError_isNotFound_iff _ _⟩
    · exact congrArg Played.sent (run_call wire callId number state d method params)
    · constructor
      · exact fun h => (strayError_isMalformed_iff _ _).mp ⟨_, h⟩
      · intro herror
        rw [strayError, herror]
    · intro o herror
      rw [strayError, herror]
      rfl
  · intro thing name asExtension request looked hthing hname hreply
    have hread := value_getAttr_of_stray hthing hname hreply henvelope hstray
    obtain ⟨hmissing, hthere, -⟩ :=
      presence_eq_iff ((getAttr thing name asExtension).run.run wire.exchange callId number state).value
    have hlooked : looked.value = presence _ :=
      congrArg Played.value (run_hasAttr_eq wire callId number state thing name asExtension)
    rw [hlooked]
    constructor
    · intro htrue
      obtain ⟨a, ha⟩ := hthere.mp htrue
      cases hread.symm.trans ha
    · rw [hmissing, ← strayError_isNotFound_iff response (.number number), hread]
      simp

def strayAbsence : Response := .failure (some (.number 999)) (.make (-32004) "Attribute motd not found")

private theorem envelope_strayAbsence : Envelope strayAbsence.bytes strayAbsence := by
  have hid : Text.IsInt64 999 := by decide
  refine envelope_bytes ⟨?_, nofun, ?_⟩ (Response.whole_failure ?_ (by decide) _)
  · rintro i ⟨⟩
    exact ⟨hid, nofun⟩
  · rintro e ⟨⟩
    exact ⟨⟨by decide, nofun⟩, nofun⟩
  · rintro i ⟨⟩
    exact hid

private theorem strayAbsence_stray : strayAbsence.Stray (.number (1 : Nat)) :=
  ⟨⟨_, rfl⟩, by decide⟩

/-- Request 1 is told that `motd` is absent. -/
theorem stray_replies_motd :
    strayAbsence.Stray (.number (1 : Nat)) ∧ Envelope strayAbsence.bytes strayAbsence ∧
      ((hasAttr "ext" "motd" false).run.run Wire.canned.exchange "call" 1 [strayAbsence.bytes]).value = .ok false := by
  refine ⟨strayAbsence_stray, envelope_strayAbsence, ?_⟩
  have h := stray_replies Wire.canned "call" 1 [strayAbsence.bytes] _ _ envelope_strayAbsence strayAbsence_stray
  exact (h.2 "ext" "motd" false (by decide) (by decide) rfl).2.mpr ⟨_, rfl, rfl⟩

/-- An error in the reply to another request is no malformed response, and it is taken for an absence. -/
theorem stray_absence_believed :
    ∃ response : Response, Envelope response.bytes response ∧ response.Stray (.number (1 : Nat)) ∧
      ∃ e, ((getAttr "ext" "motd" false).run.run Wire.canned.exchange "call" 1 [response.bytes]).value = .error e ∧
        (∀ cause, e ≠ .malformed cause) ∧ e.isNotFound = true := by
  refine ⟨strayAbsence, envelope_strayAbsence, strayAbsence_stray, .remote (-32004) "Attribute motd not found", ?_, ?_,
    rfl⟩
  · exact value_getAttr_of_stray (by decide) (by decide) rfl envelope_strayAbsence strayAbsence_stray
  · exact fun cause => nofun

end Client

end WorldPlugins
