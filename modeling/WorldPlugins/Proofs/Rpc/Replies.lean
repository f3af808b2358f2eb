import WorldPlugins.Proofs.Envelopes
import WorldPlugins.Proofs.Rpc.Methods
import WorldPlugins.Proofs.Text.Bytes

/-! # What becomes of a reply

A call sends one request, and the bytes that come back decide its outcome.  They may be none, or not one response and
nothing else; the response may carry an error, have the id of another request, or a result of another shape.  Only what
passes all of this is a value, and only an error that the store itself reports can say that something is absent.
-/

namespace WorldPlugins

open Json (Decoder Members Mismatch ReadError)

def opening (bytes : List UInt8) : Json.Read (Response × Text.Raw) :=
  let text := Text.decode bytes
  Response.decoder.read (text.length + 1) Json.Reader.deepest text

/-- The bytes are one response, with nothing after it but blanks. -/
def Envelope (bytes : List UInt8) (response : Response) : Prop :=
  ∃ rest, opening bytes = .ok (response, rest) ∧ Json.Lexeme.skipSpace rest = []

/-- The outcome of a call, and the code of its failure if it fails, as the reply decides it. -/
inductive Judged {α : Type} (d : Decoder α) (method : String) (id : RequestId) :
    Except ConnectFault (List UInt8) → Except RpcError α → Option Int → Prop
  | unreached (cause : ConnectFault) : Judged d method id (.error cause) (.error (.unreachable cause)) (some (-32603))
  | empty : Judged d method id (.ok []) (.error (.malformed (.missing method))) (some (-32600))
  | misread {bytes : List UInt8} {cause : ReadError} (hbytes : bytes ≠ []) (h : opening bytes = .error cause) :
      Judged d method id (.ok bytes) (.error (.unreadable cause)) (some (-32700))
  | trailing {bytes : List UInt8} {response : Response} {rest : Text.Raw} (h : opening bytes = .ok (response, rest))
      (hrest : Json.Lexeme.skipSpace rest ≠ []) :
      Judged d method id (.ok bytes) (.error (.unreadable (.fault .trailingCharacters))) (some (-32700))
  /-- An error of the store is reported whatever else the response holds. -/
  | refused {bytes : List UInt8} {response : Response} {e : ErrorObject} (h : Envelope bytes response)
      (herror : response.error = some e) :
      Judged d method id (.ok bytes) (.error (.remote e.code e.message)) (some e.code)
  | foreign {bytes : List UInt8} {response : Response} (h : Envelope bytes response) (herror : response.error = none)
      (hid : response.id ≠ some id) :
      Judged d method id (.ok bytes) (.error (.malformed (.foreign response.id id))) (some (-32600))
  | unexpected {bytes : List UInt8} {response : Response} {cause : Mismatch} (h : Envelope bytes response)
      (herror : response.error = none) (hid : response.id = some id)
      (hresult : d.ofJson (response.result.getD .null) = .error cause) :
      Judged d method id (.ok bytes) (.error (.malformed (.unexpected method cause))) (some (-32600))
  | given {bytes : List UInt8} {response : Response} {a : α} (h : Envelope bytes response)
      (herror : response.error = none) (hid : response.id = some id)
      (hresult : d.ofJson (response.result.getD .null) = .ok a) : Judged d method id (.ok bytes) (.ok a) none

def failureCode {α : Type} : Except RpcError α → Option Int
  | .error e => some e.code
  | .ok _ => none

section

variable {bytes : List UInt8} {response : Response} {rest : Text.Raw} {method : String}

/-- Where there are bytes, they are read up to the end of a response, and then nothing may follow. -/
private theorem readReply_eq (hbytes : bytes ≠ []) :
    Wire.readReply method bytes = (opening bytes >>= fun (response, rest) => do
      Json.Reader.finish rest
      pure response).mapError .unreadable :=
  if_neg hbytes

private theorem ne_nil_of_opening (h : opening bytes = .ok (response, rest)) : bytes ≠ [] := by
  rintro rfl
  cases h

theorem readReply_of_misread {cause : ReadError} (hbytes : bytes ≠ []) (h : opening bytes = .error cause) :
    Wire.readReply method bytes = .error (.unreadable cause) := by
  rw [readReply_eq hbytes, h]
  rfl

theorem readReply_of_trailing (h : opening bytes = .ok (response, rest)) (hrest : Json.Lexeme.skipSpace rest ≠ []) :
    Wire.readReply method bytes = .error (.unreadable (.fault .trailingCharacters)) := by
  have hfinish : Json.Reader.finish rest = .error (.fault .trailingCharacters) := if_neg hrest
  rw [readReply_eq (ne_nil_of_opening h), h]
  simp only [bind, Except.bind, hfinish]
  rfl

theorem readReply_of_envelope (h : Envelope bytes response) : Wire.readReply method bytes = .ok response := by
  obtain ⟨rest, hopening, hrest⟩ := h
  have hfinish : Json.Reader.finish rest = .ok () := if_pos hrest
  rw [readReply_eq (ne_nil_of_opening hopening), hopening]
  simp only [bind, Except.bind, hfinish]
  rfl

/-- Bytes are none, no response, a response and more, or one response. -/
theorem reply_cases (bytes : List UInt8) :
    bytes = [] ∨ (bytes ≠ [] ∧ ∃ cause, opening bytes = .error cause) ∨
      (∃ response rest, opening bytes = .ok (response, rest) ∧ Json.Lexeme.skipSpace rest ≠ []) ∨
      ∃ response, Envelope bytes response := by
  by_cases hbytes : bytes = []
  · exact .inl hbytes
  cases hopening : opening bytes with
  | error cause => exact .inr (.inl ⟨hbytes, cause, rfl⟩)
  | ok opened =>
    obtain ⟨response, rest⟩ := opened
    by_cases hrest : Json.Lexeme.skipSpace rest = []
    · exact .inr (.inr (.inr ⟨response, rest, hopening, hrest⟩))
    · exact .inr (.inr (.inl ⟨response, rest, rfl, hrest⟩))

end

def Response.bytes (r : Response) : List UInt8 := r.text.toUTF8.data.toList

/-- The bytes of a response are that one response, if it nests no deeper than it is read and its numbers are whole. -/
theorem envelope_bytes {r : Response} (hfits : r.Fits (Json.Reader.deepest - 1)) (hwhole : r.stored.Whole) :
    Envelope r.bytes r := by
  have hread : Response.decoder.ofRaw (Text.decode r.bytes) = .ok r := by
    rw [Response.bytes, Text.decode_toUTF8]
    exact Response.lossless.ofString_print (by decide) hfits hwhole
  obtain ⟨⟨response, rest⟩, hopening, hread⟩ := (bind_eq_ok_iff _ _ _).mp hread
  obtain ⟨u, hfinish, hread⟩ := (bind_eq_ok_iff _ _ _).mp hread
  cases hread
  refine ⟨rest, hopening, ?_⟩
  by_contra hrest
  cases hfinish.symm.trans (if_neg hrest)

namespace Client

section

variable {α : Type} {d : Decoder α} {id : RequestId} {reply : Except ConnectFault (List UInt8)}
  {r : Except RpcError α} {code : Option Int}

def concluded (d : Decoder α) (method : String) : Except RpcError Json → Except RpcError α
  | .error e => .error e
  | .ok result => (d.ofJson result).mapError fun cause => .malformed (.unexpected method cause)

/-- What a call makes of a round trip. -/
def outcomeOf (d : Decoder α) (id : RequestId) (t : RoundTrip) : Except RpcError α :=
  concluded d t.request.method (Session.settle id t.response)

private theorem outcomeOf_of_unread {request : Request} {bytes : List UInt8} {e : RpcError}
    (h : Wire.readReply request.method bytes = .error e) : outcomeOf d id ⟨request, .ok bytes⟩ = .error e := by
  unfold outcomeOf RoundTrip.response
  dsimp only
  rw [h]
  rfl

private theorem outcomeOf_of_envelope {request : Request} {bytes : List UInt8} {response : Response}
    (h : Envelope bytes response) :
    outcomeOf d id ⟨request, .ok bytes⟩ = concluded d request.method (Session.settle id (.ok response)) := by
  unfold outcomeOf RoundTrip.response
  dsimp only
  rw [readReply_of_envelope h]

private theorem outcomeOf_of_judged {request : Request} (h : Judged d request.method id reply r code) :
    outcomeOf d id ⟨request, reply⟩ = r ∧ code = failureCode r := by
  cases h with
  | unreached cause => exact ⟨rfl, rfl⟩
  | empty => exact ⟨outcomeOf_of_unread (if_pos rfl), rfl⟩
  | misread hbytes hread => exact ⟨outcomeOf_of_unread (readReply_of_misread hbytes hread), rfl⟩
  | trailing hopening hrest => exact ⟨outcomeOf_of_unread (readReply_of_trailing hopening hrest), rfl⟩
  | refused henvelope herror =>
    rw [outcomeOf_of_envelope henvelope, Session.settle, herror]
    exact ⟨rfl, rfl⟩
  | foreign henvelope herror hid =>
    rw [outcomeOf_of_envelope henvelope, Session.settle, herror]
    dsimp only
    rw [if_neg hid]
    exact ⟨rfl, rfl⟩
  | unexpected henvelope herror hid hresult =>
    have hsettled := (Session.settle_eq_ok_iff id _ _).mpr ⟨_, rfl, herror, hid, rfl⟩
    rw [outcomeOf_of_envelope henvelope, hsettled, concluded, hresult]
    exact ⟨rfl, rfl⟩
  | given henvelope herror hid hresult =>
    have hsettled := (Session.settle_eq_ok_iff id _ _).mpr ⟨_, rfl, herror, hid, rfl⟩
    rw [outcomeOf_of_envelope henvelope, hsettled, concluded, hresult]
    exact ⟨rfl, rfl⟩

private theorem exists_judged (d : Decoder α) (method : String) (id : RequestId)
    (reply : Except ConnectFault (List UInt8)) : ∃ r code, Judged d method id reply r code := by
  cases reply with
  | error cause => exact ⟨_, _, .unreached cause⟩
  | ok bytes =>
    rcases reply_cases bytes with rfl | ⟨hbytes, cause, hread⟩ | ⟨response, rest, hopens, hrest⟩ |
      ⟨response, henvelope⟩
    · exact ⟨_, _, .empty⟩
    · exact ⟨_, _, .misread hbytes hread⟩
    · exact ⟨_, _, .trailing hopens hrest⟩
    cases herror : response.error with
    | some e => exact ⟨_, _, .refused henvelope herror⟩
    | none =>
      by_cases hid : response.id = some id
      · cases hresult : d.ofJson (response.result.getD .null) with
        | error cause => exact ⟨_, _, .unexpected henvelope herror hid hresult⟩
        | ok a => exact ⟨_, _, .given henvelope herror hid hresult⟩
      · exact ⟨_, _, .foreign henvelope herror hid⟩

/-- Every reply is judged in one way. -/
theorem judged_iff {request : Request} :
    Judged d request.method id reply r code ↔ outcomeOf d id ⟨request, reply⟩ = r ∧ code = failureCode r := by
  constructor
  · exact outcomeOf_of_judged
  · rintro ⟨rfl, rfl⟩
    obtain ⟨r, code, h⟩ := exists_judged d request.method id reply
    obtain ⟨rfl, rfl⟩ := outcomeOf_of_judged h
    exact h

/-- Something is absent exactly if the store reports an error with the code for it. -/
theorem exists_isNotFound_iff {request : Request} :
    (∃ e, outcomeOf d id ⟨request, reply⟩ = .error e ∧ e.isNotFound = true) ↔
      ∃ bytes response o, reply = .ok bytes ∧ Envelope bytes response ∧ response.error = some o ∧ o.code = -32004 := by
  constructor
  · rintro ⟨e, h, he⟩
    obtain ⟨code, hjudged⟩ : ∃ code, Judged d request.method id reply (.error e) code := ⟨_, judged_iff.mpr ⟨h, rfl⟩⟩
    cases hjudged with
    | refused henvelope herror => exact ⟨_, _, _, rfl, henvelope, herror, beq_iff_eq.mp he⟩
    | unreached | empty | misread | trailing | foreign | unexpected => cases he
  · rintro ⟨bytes, response, o, rfl, henvelope, herror, hcode⟩
    obtain ⟨h, -⟩ := outcomeOf_of_judged (Judged.refused (d := d) henvelope herror)
    exact ⟨_, h, beq_iff_eq.mpr hcode⟩

/-- A value comes only from a response without an error, to this request, with a result that decodes to it. -/
theorem outcomeOf_eq_ok_iff {request : Request} {a : α} :
    outcomeOf d id ⟨request, reply⟩ = .ok a ↔
      ∃ bytes response, reply = .ok bytes ∧ Envelope bytes response ∧ response.error = none ∧ response.id = some id ∧
        d.ofJson (response.result.getD .null) = .ok a := by
  constructor
  · intro h
    obtain ⟨code, hjudged⟩ : ∃ code, Judged d request.method id reply (.ok a) code := ⟨_, judged_iff.mpr ⟨h, rfl⟩⟩
    cases hjudged with
    | given henvelope herror hid hresult => exact ⟨_, _, rfl, henvelope, herror, hid, hresult⟩
  · rintro ⟨bytes, response, rfl, henvelope, herror, hid, hresult⟩
    exact (outcomeOf_of_judged (.given henvelope herror hid hresult)).1

end

section

variable {σ α : Type} (wire : Wire σ) (callId : String) (number : Nat) (state : σ)

/-- A call sends one request and concludes from the reply. -/
theorem run_call (d : Decoder α) (method : String) (params : Members) :
    (call d method params).run.run wire.exchange callId number state =
      let request := Session.request callId number method params
      ⟨outcomeOf d (.number number) ⟨request, (wire request state).1⟩, [request], number + 1, (wire request state).2⟩ := by
  dsimp only
  rw [call]
  simp only [ExceptT.run_mk, Session.run, Session.exchange_eq]
  rfl

variable (thing name : String) (asExtension : Bool)

def presence : Except RpcError Attr → Except RpcError Bool
  | .ok _ => .ok true
  | .error e => if e.isNotFound then .ok false else .error e

theorem presence_eq_iff (r : Except RpcError Attr) :
    (presence r = .ok false ↔ ∃ e, r = .error e ∧ e.isNotFound = true) ∧ (presence r = .ok true ↔ ∃ a, r = .ok a) ∧
      ∀ e, presence r = .error e ↔ r = .error e ∧ e.isNotFound = false := by
  cases r with
  | ok a => simp [presence]
  | error e =>
    by_cases he : e.isNotFound = true
    · refine ⟨by simp [presence, he], by simp [presence, he], fun other => ?_⟩
      simp only [presence, if_pos he, reduceCtorEq, Except.error.injEq, false_iff, not_and]
      rintro rfl
      simp [he]
    · refine ⟨by simp [presence, he], by simp [presence, he], fun other => ?_⟩
      simp only [presence, if_neg he, Except.error.injEq, iff_self_and]
      rintro rfl
      exact Bool.eq_false_iff.mpr he

theorem run_hasAttr_eq :
    (hasAttr thing name asExtension).run.run wire.exchange callId number state =
      let read := (getAttr thing name asExtension).run.run wire.exchange callId number state
      ⟨presence read.value, read.sent, read.next, read.state⟩ := by
  rw [run_hasAttr, Session.run_bind]
  dsimp only
  cases ((getAttr thing name asExtension).run.run wire.exchange callId number state).value with
  | ok a => simp [presence]
  | error e => by_cases he : e.isNotFound = true <;> simp [presence, he]

/-- Reading an attribute is refused before anything is sent if a name is empty, and else it is a call. -/
theorem getAttr_eq :
    ((thing = "" ∨ name = "") ∧ ∃ cause, getAttr thing name asExtension = throw (.parameters cause)) ∨
      (thing ≠ "" ∧ name ≠ "") ∧ getAttr thing name asExtension =
        call Attr.decoder "getAttr" (Keyed.ofList (attrParams thing name asExtension)) := by
  unfold getAttr require
  by_cases hthing : thing = ""
  · refine .inl ⟨.inl hthing, .empty "thingId", ?_⟩
    rw [if_pos hthing]
    rfl
  by_cases hname : name = ""
  · refine .inl ⟨.inr hname, .empty "name", ?_⟩
    rw [if_neg hthing, if_pos hname]
    rfl
  · refine .inr ⟨⟨hthing, hname⟩, ?_⟩
    rw [if_neg hthing, if_neg hname]
    rfl

/-- What reading an attribute comes to is decided by the reply, if the names are not empty. -/
private theorem value_getAttr :
    (¬ (thing ≠ "" ∧ name ≠ "") ∧ ∃ cause, ((getAttr thing name asExtension).run.run wire.exchange callId number
        state).value = .error (.parameters cause)) ∨
      (thing ≠ "" ∧ name ≠ "") ∧
        let request := Session.request callId number "getAttr" (Keyed.ofList (attrParams thing name asExtension))
        ((getAttr thing name asExtension).run.run wire.exchange callId number state).value =
          outcomeOf Attr.decoder (.number number) ⟨request, (wire request state).1⟩ := by
  rcases getAttr_eq thing name asExtension with ⟨hempty, cause, hget⟩ | ⟨hnames, hget⟩
  · refine .inl ⟨fun hnames => hempty.elim hnames.1 hnames.2, cause, ?_⟩
    rw [hget]
    rfl
  · refine .inr ⟨hnames, ?_⟩
    rw [hget, run_call]

end

end Client

end WorldPlugins
