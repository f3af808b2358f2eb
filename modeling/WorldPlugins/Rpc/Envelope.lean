import WorldPlugins.Json.Decoder
import WorldPlugins.Json.Printer

/-! # Requests and responses

Both the plugin and the store are called by the envelopes of JSON-RPC 2.0.  A request has an id, a method and
parameters; the response to it has the same id, and a result or an error.
-/

namespace WorldPlugins

open Json (Decoder Field Members)

/-- The id of a request: a number or a text. -/
inductive RequestId
  | number (value : Int)
  | text (value : String)
  deriving DecidableEq, Repr

namespace RequestId

/-- An id as shown in messages. -/
def display : RequestId → String
  | .number n => Text.showInteger n
  | .text s => s

/-- An id as shown with its form. -/
def inspect : RequestId → String
  | .number n => "Number(" ++ Text.showInteger n ++ ")"
  | .text s => "String(" ++ Text.quoted s ++ ")"

/-- An id that may be missing, as shown with its form. -/
def inspectOptional : Option RequestId → String
  | none => "None"
  | some id => "Some(" ++ id.inspect ++ ")"

def toJson : RequestId → Json
  | .number n => .int n
  | .text s => .string s

/-- The id in a value that is one: a string, or an integer that fits 64 bits with a sign. -/
def ofJson? : Json → Option RequestId
  | .number (.int n) => (Text.int64? n).map .number
  | .string s => some (.text s)
  | _ => none

def decoder : Decoder RequestId :=
  Decoder.refine fun value =>
    match ofJson? value with
    | some id => .ok id
    | none => .error (.noVariant "RequestId")

end RequestId

inductive ErrorCode
  | parseError
  | invalidRequest
  | methodNotFound
  | invalidParams
  | internalError
  | notFound
  deriving DecidableEq, Repr

def ErrorCode.number : ErrorCode → Int
  | .parseError => -32700
  | .invalidRequest => -32600
  | .methodNotFound => -32601
  | .invalidParams => -32602
  | .internalError => -32603
  | .notFound => -32004

def protocolVersion : String := "2.0"

structure Request where
  version : String
  id : Option RequestId
  method : String
  params : Option Json
  deriving Repr

namespace Request

/-- A call with an id and an object of parameters. -/
def call (id : RequestId) (method : String) (params : Members) : Request :=
  ⟨protocolVersion, some id, method, some (.object params)⟩

def members? (r : Request) : Option Members := r.params.bind Json.object?

/-- A request as it is sent; an id or parameters that are missing are left out. -/
def stored (r : Request) : Json :=
  .object ([("jsonrpc", .string r.version)] ++
    (r.id.toList.map fun id => ("id", id.toJson)) ++
    [("method", .string r.method)] ++
    (r.params.toList.map fun params => ("params", params)))

def text (r : Request) : String := r.stored.print

def decoder : Decoder Request :=
  Decoder.record "struct Request"
    [Field.spare "jsonrpc" Decoder.string fun version r => { r with version },
     Field.spare "id" (Decoder.optional RequestId.decoder) fun id r => { r with id },
     Field.needed "method" Decoder.string fun method r => { r with method },
     Field.spare "params" (Decoder.optional Decoder.any) fun params r => { r with params }]
    ⟨protocolVersion, none, "", none⟩

end Request

/-- What a failed call is answered with. -/
structure ErrorObject where
  code : Int
  message : String
  data : Option Json
  deriving Repr

namespace ErrorObject

def make (code : Int) (message : String) : ErrorObject := ⟨code, message, none⟩

/-- An error as it is sent. -/
def stored (e : ErrorObject) : Json :=
  .object ([("code", .int e.code), ("message", .string e.message)] ++
    (e.data.toList.map fun data => ("data", data)))

/-- Reads an error; a message that is null is empty. -/
def decoder : Decoder ErrorObject :=
  Decoder.record "struct ErrorObject"
    [Field.needed "code" Decoder.int64 fun code e => { e with code },
     Field.spare "message" (Decoder.optional Decoder.string) fun message e =>
       { e with message := message.getD "" },
     Field.spare "data" (Decoder.optional Decoder.any) fun data e => { e with data }]
    ⟨0, "", none⟩

end ErrorObject

/-- The answer to a request. -/
structure Response where
  version : String
  id : Option RequestId
  result : Option Json
  error : Option ErrorObject
  deriving Repr

namespace Response

def success (id : Option RequestId) (result : Json) : Response :=
  ⟨protocolVersion, id, some result, none⟩

def failure (id : Option RequestId) (error : ErrorObject) : Response :=
  ⟨protocolVersion, id, none, some error⟩

def isSuccess (r : Response) : Bool := r.error.isNone

/-- An answer as it is sent; a missing id is written as null. -/
def stored (r : Response) : Json :=
  .object ([("jsonrpc", .string r.version), ("id", (r.id.map RequestId.toJson).getD .null)] ++
    (r.result.toList.map fun result => ("result", result)) ++
    (r.error.toList.map fun error => ("error", error.stored)))

def text (r : Response) : String := r.stored.print

def decoder : Decoder Response :=
  Decoder.record "struct Response"
    [Field.spare "jsonrpc" Decoder.string fun version r => { r with version },
     Field.spare "id" (Decoder.optional RequestId.decoder) fun id r => { r with id },
     Field.spare "result" (Decoder.optional Decoder.any) fun result r => { r with result },
     Field.spare "error" (Decoder.optional ErrorObject.decoder) fun error r => { r with error }]
    ⟨protocolVersion, none, none, none⟩

end Response

end WorldPlugins
