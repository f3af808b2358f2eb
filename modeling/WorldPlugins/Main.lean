import WorldPlugins.Calendar.Commands
import WorldPlugins.Chat.Guests
import WorldPlugins.CommandLine

/-! # The plugin programs

The first argument names the plugin, `chat` or `events`; the others are its options.  One request is read from
the standard input and one response written to the standard output.
-/

namespace WorldPlugins

def fileContents (path : String) : IO (Option (List UInt8)) := do
  try
    let bytes ← IO.FS.readBinFile path
    return some bytes.toList
  catch _ => return none

/-- Sends a request to the store at an address and waits for its reply. -/
def sendTo (request : Request) : Address → IO (Except ConnectFault (List UInt8))
  | .name _ => return .error .refused
  | .file path => do
    try
      let handle ← IO.FS.Handle.mk path .readWrite
      handle.write request.text.toUTF8
      handle.flush
      let bytes ← handle.readBinToEnd
      return .ok bytes.toList
    catch
      | .noFileOrDirectory .. => return .error (.unreached .missing)
      | .inappropriateType _ 20 _ => return .error (.unreached .notDirectory)
      | _ => return .error .refused

/-- Sends a request to the store behind a socket path and waits for its reply. -/
def sendBehind (socketPath : String) (request : Request) : IO (Except ConnectFault (List UInt8)) :=
  match Address.ofText socketPath with
  | .ok address => sendTo request address
  | .error cause => return .error cause

/-- Plays a session with the store behind a socket path. -/
def Session.play {α : Type} (socketPath callId : String) : Session α → (number : Nat) → IO α
  | .done a, _ => pure a
  | .ask method params next, number => do
    let r := Session.request callId number method params
    let reply := match ← sendBehind socketPath r with
      | .ok bytes => Wire.readReply r.method bytes
      | .error cause => .error (.unreachable cause)
    (next (Session.settle (.number number) reply)).play socketPath callId (number + 1)

def pluginNamed : String → Option Plugin
  | "chat" => some Chat.plugin
  | "events" => some Calendar.plugin
  | _ => none

def answerOnce (plugin : Plugin) (options : Options) : IO Unit := do
  let contents ← match options.config with
    | none => pure none
    | some path => fileContents path
  let config := options.configuration fun _ => contents
  let input ← (← IO.getStdin).readBinToEnd
  let response ← match plugin.route config (Text.decode input.toList) with
    | .answered response => pure response
    | .handled callId session => session.play config.socketPath callId 1
  let out ← IO.getStdout
  out.write response.text.toUTF8
  out.flush

/-- Runs the plugin that the first argument names, and gives the exit code. -/
def runProgram : List String → IO UInt32
  | [] => return 2
  | name :: rest =>
    match pluginNamed name, Options.read rest with
    | some plugin, some options => do
      answerOnce plugin options
      return 0
    | _, _ => return 2

end WorldPlugins

def main (arguments : List String) : IO UInt32 := WorldPlugins.runProgram arguments
