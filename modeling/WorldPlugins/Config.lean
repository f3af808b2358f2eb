import WorldPlugins.Access
import WorldPlugins.Text.Raw
import WorldPlugins.Toml.Document

/-! # Configuration

Where the store listens and who is the superuser.  A file may set either; one that is missing, unreadable or
wrong anywhere sets neither.
-/

namespace WorldPlugins

/-- The settings of a plugin. -/
structure Config where
  socketPath : String
  /-- The player who passes every access list; nobody if empty. -/
  superuser : String
  deriving DecidableEq, Repr

namespace Config

def defaultSocketPath : String := "/tmp/groundsapi.sock"

def standard : Config := ⟨defaultSocketPath, Privilege.defaultSuperuser⟩

/-- A setting that is a string; `otherwise` if it is not set. -/
def setting (entries : Toml.Entries) (key otherwise : String) : Option String :=
  match entries.lookup key with
  | none => some otherwise
  | some (.text s) => some s
  | some _ => none

/-- The settings in a text, if nothing in it is wrong. -/
def ofText? (text : String) : Option Config := do
  let entries ← Toml.document text.toList
  pure ⟨← setting entries "socket_path" standard.socketPath,
    ← setting entries "superuser" standard.superuser⟩

def ofBytes (bytes : List UInt8) : Config :=
  (((Text.decode bytes).toString?).bind ofText?).getD standard

def load (contents : Option (List UInt8)) : Config := (contents.map ofBytes).getD standard

def withSocket (socket : Option String) (c : Config) : Config :=
  { c with socketPath := socket.getD c.socketPath }

def privilege (c : Config) : Privilege := .named c.superuser

end Config

end WorldPlugins
