import WorldPlugins.Message
import WorldPlugins.Proofs.Json.Lossless
import WorldPlugins.Rpc.Envelope

/-! # Envelopes on the wire

Requests, responses and structured messages are lossless: whatever is read of a text is read back from its written
form, so that form stands for all texts that hold the same.  A null where a member may be missing is read as if it were
missing, so no result is null once it was read.
-/

namespace WorldPlugins

open Json (Decoder Field Readable Whole)
open Json.Reader (deepest)
open Json.Decoder (lossless_string lossless_int64 lossless_list lossless_optional lossless_optional_any
  lossless_record lossless_tuple)

namespace RequestId

/-- A numeric id fits 64 bits with a sign. -/
def Fits : RequestId → Prop
  | .number n => Text.IsInt64 n
  | .text _ => True

theorem fits_of_ofJson? {v : Json} {id : RequestId} (h : ofJson? v = some id) : id.Fits := by
  unfold ofJson? at h
  split at h
  · next i =>
    rw [Text.int64?] at h
    split at h
    · next hi =>
      cases h
      exact hi
    · cases h
  · cases h
    trivial
  · cases h

theorem ofJson?_toJson {id : RequestId} (h : id.Fits) : ofJson? id.toJson = some id := by
  cases id with
  | number n =>
    have hn : Text.int64? n = some n := if_pos h
    rw [toJson, Json.int, ofJson?, hn]
    rfl
  | text s => rfl

theorem readable_toJson (id : RequestId) (levels : Nat) : Readable levels id.toJson := by
  cases id with
  | number n => exact .number levels (.int n)
  | text s => exact .string levels s

theorem toJson_ne_null (id : RequestId) : id.toJson ≠ .null := by
  cases id <;> exact nofun

theorem lossless : decoder.Lossless toJson 0 fun _ => Fits where
  fits {fuel levels s id rest} h := by
    obtain ⟨⟨v, u⟩, -, h⟩ := (bind_eq_ok_iff _ _ _).mp h
    dsimp only at h
    cases hv : ofJson? v with
    | none =>
      rw [hv] at h
      cases h
    | some found =>
      rw [hv] at h
      cases h
      exact fits_of_ofJson? hv
  written {fuel levels id rest} _ hfits hwhole hfuel hrest := by
    have hread := Json.value_written (readable_toJson id levels) hwhole hfuel hrest
    simp [decoder, Decoder.refine, hread, ofJson?_toJson hfits, bind, Except.bind, pure, Except.pure]

theorem lossless_optional : (Decoder.optional decoder).Lossless (fun id => (id.map toJson).getD .null) 0
    fun _ id => ∀ i ∈ id, i.Fits ∧ i.toJson ≠ .null :=
  Json.Decoder.lossless_optional lossless fun _ hnull => absurd hnull (toJson_ne_null _)

end RequestId

namespace Request

/-- The parameters nest no deeper than they are read, and are not null. -/
def Fits (levels : Nat) (r : Request) : Prop :=
  (∀ id ∈ r.id, id.Fits ∧ id.toJson ≠ .null) ∧ ∀ params ∈ r.params, Readable levels params ∧ params ≠ .null

theorem lossless : decoder.Lossless stored 1 fun levels => Fits (levels - 1) := by
  refine lossless_record Fits "struct Request" (fun fuel levels => ?_) (fun levels => ⟨nofun, nofun⟩)
    fun levels r _ hfits => ?_
  · simp only [List.forall_mem_cons]
    refine ⟨Field.keeps_of_lossless lossless_string ?_ _ _, Field.keeps_of_lossless RequestId.lossless_optional ?_ _ _,
      Field.keeps_of_lossless lossless_string ?_ _ _, Field.keeps_of_lossless lossless_optional_any ?_ _ _, nofun⟩
    · exact fun _ _ _ hr => hr
    · exact fun _ hid _ hr => ⟨hid, hr.2⟩
    · exact fun _ _ _ hr => hr
    · exact fun _ hparams _ hr => ⟨hr.1, hparams⟩
  · obtain ⟨version, id, method, params⟩ := r
    obtain ⟨hid, hparams⟩ := hfits
    have hlevels : 0 ≤ levels := Nat.zero_le levels
    refine ⟨("jsonrpc", .string version) :: ((id.toList.map fun id => ("id", id.toJson)) ++
      ("method", .string method) :: ((params.toList.map fun params => ("params", params)) ++ [])), by simp [stored],
      .member lossless_string hlevels trivial rfl rfl (.spareMember RequestId.lossless_optional hlevels hid rfl rfl
        (.member lossless_string hlevels trivial rfl rfl
          (.spareMember lossless_optional_any hlevels hparams rfl rfl (.nil _)))), ?_, ?_⟩
    · cases id <;> cases params <;> simp
    · cases id <;> cases params <;> rfl

end Request

namespace ErrorObject

/-- The code fits 64 bits with a sign, and the data nest no deeper than they are read and are not null. -/
def Fits (levels : Nat) (e : ErrorObject) : Prop :=
  Text.IsInt64 e.code ∧ ∀ data ∈ e.data, Readable levels data ∧ data ≠ .null

theorem lossless_message : (Decoder.optional Decoder.string).Lossless (fun message => (message.map Json.string).getD .null)
    0 fun _ message => ∀ m ∈ message, True ∧ Json.string m ≠ .null :=
  lossless_optional lossless_string fun _ => nofun

theorem lossless : decoder.Lossless stored 1 fun levels => Fits (levels - 1) := by
  refine lossless_record Fits "struct ErrorObject" (fun fuel levels => ?_) (fun levels => ⟨by decide, nofun⟩)
    fun levels e _ hfits => ?_
  · simp only [List.forall_mem_cons]
    refine ⟨Field.keeps_of_lossless lossless_int64 ?_ _ _, Field.keeps_of_lossless lossless_message ?_ _ _,
      Field.keeps_of_lossless lossless_optional_any ?_ _ _, nofun⟩
    · exact fun _ hcode _ he => ⟨hcode, he.2⟩
    · exact fun _ _ _ he => he
    · exact fun _ hdata _ he => ⟨he.1, hdata⟩
  · obtain ⟨code, message, data⟩ := e
    obtain ⟨hcode, hdata⟩ := hfits
    have hlevels : 0 ≤ levels := Nat.zero_le levels
    have hmessage : ∀ m ∈ some message, True ∧ Json.string m ≠ .null := fun m _ => ⟨trivial, nofun⟩
    refine ⟨("code", .int code) :: ("message", .string message) ::
      ((data.toList.map fun data => ("data", data)) ++ []), by simp [stored],
      .member lossless_int64 hlevels hcode rfl rfl (.member lossless_message hlevels hmessage rfl rfl
        (.spareMember lossless_optional_any hlevels hdata rfl rfl (.nil _))), ?_, ?_⟩
    · cases data <;> simp
    · cases data <;> rfl

theorem lossless_optional : (Decoder.optional decoder).Lossless (fun error => (error.map stored).getD .null) 1
    fun levels error => ∀ e ∈ error, e.Fits (levels - 1) ∧ e.stored ≠ .null :=
  Json.Decoder.lossless_optional lossless fun _ => nofun

end ErrorObject

namespace Response

/-- The result and the error nest no deeper than they are read, and the result is not null. -/
def Fits (levels : Nat) (r : Response) : Prop :=
  (∀ id ∈ r.id, id.Fits ∧ id.toJson ≠ .null) ∧ (∀ result ∈ r.result, Readable levels result ∧ result ≠ .null) ∧
    ∀ error ∈ r.error, error.Fits (levels - 1) ∧ error.stored ≠ .null

theorem lossless : decoder.Lossless stored 2 fun levels => Fits (levels - 1) := by
  refine lossless_record Fits "struct Response" (fun fuel levels => ?_) (fun levels => ⟨nofun, nofun, nofun⟩)
    fun levels r hlevels hfits => ?_
  · simp only [List.forall_mem_cons]
    refine ⟨Field.keeps_of_lossless lossless_string ?_ _ _, Field.keeps_of_lossless RequestId.lossless_optional ?_ _ _,
      Field.keeps_of_lossless lossless_optional_any ?_ _ _, Field.keeps_of_lossless ErrorObject.lossless_optional ?_ _ _,
      nofun⟩
    · exact fun _ _ _ hr => hr
    · exact fun _ hid _ hr => ⟨hid, hr.2⟩
    · exact fun _ hresult _ hr => ⟨hr.1, hresult, hr.2.2⟩
    · exact fun _ herror _ hr => ⟨hr.1, hr.2.1, herror⟩
  · obtain ⟨version, id, result, error⟩ := r
    obtain ⟨hid, hresult, herror⟩ := hfits
    have hlevels' : 0 ≤ levels := Nat.zero_le levels
    refine ⟨("jsonrpc", .string version) :: ("id", (id.map RequestId.toJson).getD .null) ::
      ((result.toList.map fun result => ("result", result)) ++
        ((error.toList.map fun error => ("error", error.stored)) ++ [])), by simp [stored],
      .member lossless_string hlevels' trivial rfl rfl (.member RequestId.lossless_optional hlevels' hid rfl rfl
        (.spareMember lossless_optional_any hlevels' hresult rfl rfl
          (.spareMember ErrorObject.lossless_optional hlevels herror rfl rfl (.nil _)))), ?_, ?_⟩
    · cases result <;> cases error <;> simp
    · cases result <;> cases error <;> rfl

end Response

private theorem lossless_strings : (Decoder.list Decoder.string).Lossless Json.strings 1
    fun _ strings => ∀ s ∈ strings, True :=
  lossless_list lossless_string

namespace Record

theorem lossless : decoder.Lossless toJson 2 fun _ _ => True := by
  refine lossless_record (fun _ _ => True) "struct Record" (fun fuel levels => ?_) (fun _ => trivial) fun levels r hlevels _ => ?_
  · simp only [List.forall_mem_cons]
    exact ⟨Field.keeps_of_lossless lossless_strings (fun _ _ _ _ => trivial) _ _,
      Field.keeps_of_lossless lossless_strings (fun _ _ _ _ => trivial) _ _, nofun⟩
  · exact ⟨[("keys", .strings r.keys), ("values", .strings r.values)], rfl,
      .member lossless_strings hlevels (fun _ _ => trivial) rfl rfl
        (.member lossless_strings hlevels (fun _ _ => trivial) rfl rfl (.nil _)), by simp, rfl⟩

end Record

namespace Column

theorem lossless : decoder.Lossless toJson 1 fun _ _ => True := by
  refine lossless_tuple (fun _ _ => True) "tuple struct Column" (fun fuel levels => ?_) (fun _ => trivial) fun levels c hlevels _ => ?_
  · simp only [List.forall_mem_cons]
    exact ⟨Field.keeps_of_lossless lossless_string (fun _ _ _ _ => trivial) _ _,
      Field.keeps_of_lossless lossless_string (fun _ _ _ _ => trivial) _ _, nofun⟩
  · exact ⟨[.string c.header, .string c.format], rfl,
      .cons (Field.writes_of_lossless lossless_string hlevels trivial _ _)
        (.cons (Field.writes_of_lossless lossless_string hlevels trivial _ _) (.nil _))⟩

end Column

namespace Table

theorem lossless : decoder.Lossless toJson 3 fun _ _ => True := by
  refine lossless_record (fun _ _ => True) "struct Table" (fun fuel levels => ?_) (fun _ => trivial) fun levels t hlevels _ => ?_
  · simp only [List.forall_mem_cons]
    exact ⟨Field.keeps_of_lossless (lossless_list Column.lossless) (fun _ _ _ _ => trivial) _ _,
      Field.keeps_of_lossless (lossless_list lossless_strings) (fun _ _ _ _ => trivial) _ _, nofun⟩
  · exact ⟨[("columns", .array (t.columns.map Column.toJson)), ("rows", .array (t.rows.map .strings))], rfl,
      .member (lossless_list Column.lossless) hlevels (fun _ _ => trivial) rfl rfl
        (.member (lossless_list lossless_strings) hlevels (fun _ _ _ _ => trivial) rfl rfl (.nil _)), by simp, rfl⟩

end Table

private theorem whole_int {i : Int} (h : Text.IsInt64 i) : (Json.int i).Whole :=
  .number ⟨h.1, Int.lt_of_le_of_lt h.2 (by decide)⟩

theorem RequestId.whole_toJson {id : RequestId} (h : id.Fits) : id.toJson.Whole := by
  cases id with
  | number n => exact whole_int h
  | text s => exact .string s

theorem RequestId.whole_optional {id : Option RequestId} (h : ∀ i ∈ id, i.Fits) :
    ((id.map RequestId.toJson).getD .null).Whole := by
  cases id with
  | none => exact .null
  | some id => exact whole_toJson (h id rfl)

theorem Request.whole_call {id : RequestId} (hid : id.Fits) (method : String) {params : Json.Members}
    (hparams : (Json.object params).Whole) : (call id method params).stored.Whole := by
  refine .object ?_
  simp only [call, Option.toList_some, List.map_cons, List.map_nil, List.cons_append, List.nil_append,
    List.forall_mem_cons]
  exact ⟨.string _, RequestId.whole_toJson hid, .string _, hparams, nofun⟩

theorem Response.whole_failure {id : Option RequestId} (hid : ∀ i ∈ id, i.Fits) {code : Int}
    (hcode : Text.IsInt64 code) (message : String) : (failure id (.make code message)).stored.Whole := by
  have herror : (ErrorObject.make code message).stored.Whole := by
    refine .object ?_
    simp only [ErrorObject.make, Option.toList_none, List.map_nil, List.append_nil, List.forall_mem_cons]
    exact ⟨whole_int hcode, .string _, nofun⟩
  refine .object ?_
  simp only [failure, Option.toList_none, Option.toList_some, List.map_cons, List.map_nil, List.append_nil,
    List.cons_append, List.nil_append, List.forall_mem_cons]
  exact ⟨.string _, RequestId.whole_optional hid, herror, nofun⟩

theorem Response.whole_success {id : Option RequestId} (hid : ∀ i ∈ id, i.Fits) {result : Json}
    (hresult : result.Whole) : (success id result).stored.Whole := by
  refine .object ?_
  simp only [success, Option.toList_none, Option.toList_some, List.map_cons, List.map_nil, List.append_nil,
    List.cons_append, List.nil_append, List.forall_mem_cons]
  exact ⟨.string _, RequestId.whole_optional hid, hresult, nofun⟩

/-- The written form of every envelope and of every structured message is a normal form, as long as its numbers are
whole.  So what one side makes, the other side reads back unchanged: each call, each failure, and each success whose
result is not null, if they nest no deeper than they are read. -/
theorem envelopes_canonical :
    (Request.decoder.Canonical Request.stored ∧ Response.decoder.Canonical Response.stored ∧
        ErrorObject.decoder.Canonical ErrorObject.stored ∧ RequestId.decoder.Canonical RequestId.toJson ∧
        Record.decoder.Canonical Record.toJson ∧ Table.decoder.Canonical Table.toJson ∧
        Column.decoder.Canonical Column.toJson) ∧
      (∀ (id : RequestId) (method : String) (params : Json.Members), id.Fits → (Json.object params).Whole →
          Readable (deepest - 1) (.object params) →
            Request.decoder.ofString (Request.call id method params).text = .ok (Request.call id method params)) ∧
      (∀ (id : Option RequestId) (code : Int) (message : String), (∀ i ∈ id, i.Fits) → Text.IsInt64 code →
          Response.decoder.ofString (Response.failure id (.make code message)).text =
            .ok (Response.failure id (.make code message))) ∧
      ∀ (id : Option RequestId) (result : Json), (∀ i ∈ id, i.Fits) → result ≠ .null → result.Whole →
        Readable (deepest - 1) result →
          Response.decoder.ofString (Response.success id result).text = .ok (Response.success id result) := by
  have hids {id : Option RequestId} (hid : ∀ i ∈ id, i.Fits) : ∀ i ∈ id, i.Fits ∧ i.toJson ≠ .null :=
    fun i hi => ⟨hid i hi, i.toJson_ne_null⟩
  refine ⟨⟨Request.lossless.canonical (by decide), Response.lossless.canonical (by decide),
    ErrorObject.lossless.canonical (by decide), RequestId.lossless.canonical (by decide),
    Record.lossless.canonical (by decide), Table.lossless.canonical (by decide),
    Column.lossless.canonical (by decide)⟩, ?_, ?_, ?_⟩
  · intro id method params hid hwhole hreadable
    refine Request.lossless.ofString_print (by decide) ⟨hids ?_, ?_⟩ (Request.whole_call hid method hwhole)
    · rintro i ⟨⟩
      exact hid
    · rintro v ⟨⟩
      exact ⟨hreadable, nofun⟩
  · intro id code message hid hcode
    refine Response.lossless.ofString_print (by decide) ⟨hids hid, nofun, ?_⟩ (Response.whole_failure hid hcode message)
    rintro e ⟨⟩
    exact ⟨⟨hcode, nofun⟩, nofun⟩
  · intro id result hid hnull hwhole hreadable
    refine Response.lossless.ofString_print (by decide) ⟨hids hid, ?_, nofun⟩ (Response.whole_success hid hwhole)
    rintro v ⟨⟩
    exact ⟨hreadable, hnull⟩

end WorldPlugins
