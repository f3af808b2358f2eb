import WorldPlugins.Rpc.Session
import WorldPlugins.Text.Raw

/-! # Replies as bytes

A store at the other end of a socket takes one request and sends back some bytes, or cannot be reached.
-/

namespace WorldPlugins

/-- How a store with state `σ` answers a request in bytes. -/
abbrev Wire (σ : Type) := Request → σ → Except ConnectFault (List UInt8) × σ

namespace Wire

variable {σ : Type}

/-- The response in the bytes of a reply to a method. -/
def readReply (method : String) (bytes : List UInt8) : Except RpcError Response :=
  if bytes = [] then .error (.malformed (.missing method))
  else (Response.decoder.ofRaw (Text.decode bytes)).mapError .unreadable

def exchange (wire : Wire σ) : Exchange σ := fun request state =>
  match wire request state with
  | (.error cause, state) => (.error (.unreachable cause), state)
  | (.ok bytes, state) => (readReply request.method bytes, state)

/-- A store that gives prepared replies in order, and empty ones after the last. -/
def canned : Wire (List (List UInt8)) := fun _ replies =>
  match replies with
  | [] => (.ok [], [])
  | reply :: replies => (.ok reply, replies)

def unreachable (cause : ConnectFault) : Wire σ := fun _ state => (.error cause, state)

end Wire

end WorldPlugins
