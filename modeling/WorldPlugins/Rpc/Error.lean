import WorldPlugins.Attr.Basic
import WorldPlugins.Files
import WorldPlugins.Rpc.Envelope

/-! # Why a call to the store fails

Locally, on the way, in the reply, or because the store says so.  Only an error that the store itself reports
can mean that something is absent.
-/

namespace WorldPlugins

/-- Why no connection to the store comes about. -/
inductive ConnectFault
  | noAddress
  | nulInPath
  /-- An address has no room for the path. -/
  | pathTooLong
  /-- An address has no room for the name. -/
  | nameTooLong
  /-- The path leads nowhere. -/
  | unreached (cause : PathFault)
  | refused
  deriving DecidableEq, Repr

def ConnectFault.message : ConnectFault → String
  | .noAddress => "Invalid argument (os error 22)"
  | .nulInPath => "paths must not contain interior null bytes"
  | .pathTooLong => "path must be shorter than SUN_LEN"
  | .nameTooLong => "abstract socket name must be shorter than SUN_LEN"
  | .unreached cause => cause.message
  | .refused => "Connection refused (os error 111)"

/-- What is wrong with a reply. -/
inductive ReplyFault
  /-- There was none. -/
  | missing (method : String)
  /-- It belongs to another request. -/
  | foreign (found : Option RequestId) (expected : RequestId)
  /-- Its result has another shape. -/
  | unexpected (method : String) (cause : Json.Mismatch)
  /-- It was judged elsewhere. -/
  | stated (message : String)
  deriving DecidableEq, Repr

def ReplyFault.message : ReplyFault → String
  | .missing method => "connection closed without a response to " ++ method
  | .foreign found expected =>
    "response id " ++ RequestId.inspectOptional found ++ " does not match request id " ++ expected.display
  | .unexpected method cause => "unexpected result for " ++ method ++ ": " ++ cause.message
  | .stated message => message

/-- What is wrong with the parameters of a call that is not even made. -/
inductive ParameterFault
  | empty (name : String)
  /-- It was judged elsewhere. -/
  | stated (message : String)
  deriving DecidableEq, Repr

def ParameterFault.message : ParameterFault → String
  | .empty name => "Parameter " ++ name ++ " must not be empty"
  | .stated message => message

/-- Why a call to the store fails. -/
inductive RpcError
  | unreachable (cause : ConnectFault)
  | unreadable (cause : Json.ReadError)
  | malformed (cause : ReplyFault)
  | parameters (cause : ParameterFault)
  | remote (code : Int) (message : String)
  | attr (cause : AttrError)
  deriving DecidableEq, Repr

namespace RpcError

def message : RpcError → String
  | .unreachable cause => "transport error: " ++ cause.message
  | .unreadable cause => "serialization error: " ++ cause.message
  | .malformed cause => "malformed response: " ++ cause.message
  | .parameters cause => cause.message
  | .remote _ message => message
  | .attr cause => cause.message

/-- The code of a failed call: the store's own, or the standard one for the fault. -/
def code : RpcError → Int
  | .unreachable _ => ErrorCode.internalError.number
  | .unreadable _ => ErrorCode.parseError.number
  | .malformed _ => ErrorCode.invalidRequest.number
  | .parameters _ => ErrorCode.invalidParams.number
  | .remote code _ => code
  | .attr _ => ErrorCode.internalError.number

/-- Whether the store reported something absent. -/
def isNotFound : RpcError → Bool
  | .remote code _ => code == ErrorCode.notFound.number
  | _ => false

/-- The failure that an error reply stands for. -/
def ofErrorObject (e : ErrorObject) : RpcError := .remote e.code e.message

end RpcError

end WorldPlugins
