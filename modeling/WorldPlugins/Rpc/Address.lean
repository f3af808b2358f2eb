import WorldPlugins.Files
import WorldPlugins.Rpc.Wire

/-! # Where the store listens

The text of a socket path stands for a file, or, if it starts with a NUL, for a name that has nothing to do with
files.  An address has room for few bytes, and what does not fit is refused before anything is looked up.
-/

namespace WorldPlugins

/-- Where a store can listen. -/
inductive Address
  | file (path : String)
  | name (text : String)
  deriving DecidableEq, Repr

namespace Address

/-- The bytes that an address has room for; one of them ends a path or starts a name. -/
def capacity : Nat := 108

/-- The character that starts a name and ends a path. -/
def nul : Char := Char.ofNat 0

def ofPath (path : String) : Except ConnectFault Address :=
  if nul ∈ path.toList then .error .nulInPath
  else if path.utf8ByteSize < capacity then .ok (.file path)
  else .error .pathTooLong

def ofName (name : String) : Except ConnectFault Address :=
  if name = "" then .error .noAddress
  else if name.utf8ByteSize < capacity then .ok (.name name)
  else .error .nameTooLong

/-- The address that a text stands for; no text at all is no address. -/
def ofText (text : String) : Except ConnectFault Address :=
  match text.toList with
  | [] => .error .noAddress
  | c :: cs => if c = nul then ofName (String.ofList cs) else ofPath text

/-- Connects to the store at an address.  Only a socket lets a program connect, and nobody listens at names. -/
def connect (files : Files) : Address → Except ConnectFault Unit
  | .name _ => .error .refused
  | .file path =>
    match files.find path with
    | .ok .socket => .ok ()
    | .ok _ => .error .refused
    | .error cause => .error (.unreached cause)

end Address

/-- The wire to the store behind a socket path, if the store listens at the sockets among some files. -/
def Wire.behind {σ : Type} (files : Files) (socketPath : String) (store : Wire σ) : Wire σ :=
  match (Address.ofText socketPath).bind (Address.connect files) with
  | .ok _ => store
  | .error cause => Wire.unreachable cause

end WorldPlugins
