import WorldPlugins.Plugin.Dispatch
import WorldPlugins.Rpc.Address

/-! # The command line

A plugin is started once per call.  It takes a configuration file, a socket that replaces the configured one, and
a switch for more logging; then it reads one request and writes one response.
-/

namespace WorldPlugins

structure Options where
  config : Option String
  socket : Option String
  verbose : Bool
  deriving DecidableEq, Repr

namespace Options

/-- An option that takes a path. -/
inductive PathOption
  | config
  | socket
  deriving DecidableEq, Repr

def unset : Options := ⟨none, none, false⟩

/-- The options with a path set; a path may be set once and is not empty. -/
def setPath (o : Options) (path : String) : PathOption → Option Options
  | .config => if path ≠ "" ∧ o.config = none then some { o with config := some path } else none
  | .socket => if path ≠ "" ∧ o.socket = none then some { o with socket := some path } else none

/-- The options with the switch set; it may be set once. -/
def setVerbose (o : Options) : Option Options :=
  if o.verbose then none else some { o with verbose := true }

def pathLetter? : Char → Option PathOption
  | 'c' => some .config
  | 's' => some .socket
  | _ => none

def pathName? : List Char → Option PathOption
  | ['c', 'o', 'n', 'f', 'i', 'g'] => some .config
  | ['s', 'o', 'c', 'k', 'e', 't'] => some .socket
  | _ => none

/-- What one argument leaves to the next: nothing, or the option whose path it has to be. -/
abbrev Step := Options × Option PathOption

def readLetters : Options → List Char → Option Step
  | o, [] => some (o, none)
  | o, c :: cs =>
    if c = 'v' then o.setVerbose.bind fun o => readLetters o cs
    else
      match pathLetter? c, cs with
      | none, _ => none
      | some option, [] => some (o, some option)
      | some option, '=' :: path => (o.setPath (String.ofList path) option).map (·, none)
      | some option, path => (o.setPath (String.ofList path) option).map (·, none)

def readName (o : Options) (text : List Char) : Option Step :=
  let name := text.takeWhile (· ≠ '=')
  match text.dropWhile (· ≠ '=') with
  | [] =>
    if name = ['v', 'e', 'r', 'b', 'o', 's', 'e'] then o.setVerbose.map (·, none)
    else (pathName? name).map fun option => (o, some option)
  | _ :: path =>
    (pathName? name).bind fun option => (o.setPath (String.ofList path) option).map (·, none)

/-- Whether an argument can be the path of the option before it: one that starts with a hyphen is an option. -/
def isPath (argument : String) : Bool := argument = "-" || argument.toList.head? ≠ some '-'

/-- Reads the arguments that follow those already read. -/
def readFrom : Step → List String → Option Options
  | (o, none), [] => some o
  | (_, some _), [] => none
  | (o, some option), path :: rest =>
    if isPath path then (o.setPath path option).bind fun o => readFrom (o, none) rest
    else none
  | (o, none), argument :: rest =>
    match argument.toList with
    | ['-', '-'] => if rest = [] then some o else none
    | '-' :: '-' :: text => (readName o text).bind fun step => readFrom step rest
    | '-' :: c :: cs => (readLetters o (c :: cs)).bind fun step => readFrom step rest
    | _ => none

def read (arguments : List String) : Option Options := readFrom (unset, none) arguments

/-- The configuration that the options lead to; `file` gives the contents of files. -/
def configuration (o : Options) (file : String → Option (List UInt8)) : Config :=
  (Config.load (o.config.bind file)).withSocket o.socket

end Options

/-- What a run of a plugin program comes to. -/
structure Execution (σ : Type) where
  exitCode : Nat
  output : String
  state : σ

/-- Runs a plugin program among files, at whose sockets a store listens. -/
def Plugin.execute {σ : Type} (plugin : Plugin) (arguments : List String) (files : Files) (store : Wire σ)
    (input : List UInt8) (state : σ) : Execution σ :=
  match Options.read arguments with
  | none => ⟨2, "", state⟩
  | some options =>
    let config := options.configuration files.contents?
    let wire := Wire.behind files config.socketPath store
    let played := plugin.serve config wire.exchange (Text.decode input) state
    ⟨0, played.value.text, played.state⟩

end WorldPlugins
