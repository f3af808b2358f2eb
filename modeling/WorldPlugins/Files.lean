import WorldPlugins.NameList

/-! # Files

What paths lead to.  A path is walked name by name, from the root or from the current directory, and each of its
names, an empty one too, has to be met in a directory.  So a slash after the name of anything else is as wrong as
a name below it.
-/

namespace WorldPlugins

/-- What can stand at the end of a path. -/
inductive Place
  | directory
  | file (contents : List UInt8)
  | socket
  | device
  deriving DecidableEq, Repr

/-- Why a path leads nowhere. -/
inductive PathFault
  | missing
  /-- A name is looked up in something that is no directory. -/
  | notDirectory
  deriving DecidableEq, Repr

def PathFault.message : PathFault → String
  | .missing => "No such file or directory (os error 2)"
  | .notDirectory => "Not a directory (os error 20)"

/-- The names that lead from the root to a place, without detours. -/
abbrev Route := List String

def Route.names (path : String) : List String := (NameList.pieces '/' path.toList).map String.ofList

/-- The route that a further name leads to; nothing is above the root. -/
def Route.follow (route : Route) (name : String) : Route :=
  if name = "" ∨ name = "." then route
  else if name = ".." then route.dropLast
  else route ++ [name]

/-- The files within reach of a program. -/
structure Files where
  /-- What stands at the end of a route; the directories on the way to it need no entry. -/
  entries : List (Route × Place)
  /-- Where paths start that do not start at the root. -/
  current : Route
  deriving Repr

namespace Files

def empty : Files := ⟨[], []⟩

/-- The files with one more place, at the end of a path from the root. -/
def add (files : Files) (path : String) (place : Place) : Files :=
  { files with entries := ((Route.names path).foldl Route.follow [], place) :: files.entries }

/-- Whether a route is the beginning of one that is needed. -/
def isOnTheWay (files : Files) (route : Route) : Bool :=
  route.isPrefixOf files.current || files.entries.any fun entry => route.isPrefixOf entry.1

/-- What stands at the end of a route. -/
def place? (files : Files) (route : Route) : Option Place :=
  match files.entries.lookup route with
  | some place => some place
  | none => if files.isOnTheWay route then some .directory else none

/-- The place at the end of a route, which has to be there. -/
def arrive (files : Files) (route : Route) : Except PathFault Place :=
  match files.place? route with
  | some place => .ok place
  | none => .error .missing

/-- One name further from a place, which has to be a directory. -/
def enter (files : Files) (route : Route) (name : String) : Except PathFault Route :=
  match files.arrive route with
  | .error cause => .error cause
  | .ok .directory => .ok (route.follow name)
  | .ok _ => .error .notDirectory

def start (files : Files) (path : String) : Route :=
  if path.toList.head? = some '/' then [] else files.current

/-- What a path leads to; the empty path leads nowhere. -/
def find (files : Files) (path : String) : Except PathFault Place :=
  if path = "" then .error .missing
  else ((Route.names path).foldlM files.enter (files.start path)).bind files.arrive

/-- The contents of the file that a path leads to. -/
def contents? (files : Files) (path : String) : Option (List UInt8) :=
  match files.find path with
  | .ok (.file contents) => some contents
  | _ => none

def systemDirectories : List String :=
  ["/bin", "/boot", "/dev", "/dev/fd", "/dev/pts", "/dev/shm", "/etc", "/home", "/lib", "/media", "/mnt", "/opt",
    "/proc", "/proc/self", "/root", "/run", "/run/lock", "/sbin", "/srv", "/sys", "/tmp", "/usr", "/usr/bin",
    "/usr/include", "/usr/lib", "/usr/local", "/usr/local/bin", "/usr/local/lib", "/usr/sbin", "/usr/share", "/var",
    "/var/cache", "/var/lib", "/var/lock", "/var/log", "/var/run", "/var/tmp"]

def systemDevices : List String :=
  ["/dev/full", "/dev/null", "/dev/ptmx", "/dev/random", "/dev/stderr", "/dev/stdin", "/dev/stdout", "/dev/tty",
    "/dev/urandom", "/dev/zero"]

/-- Files that every system has, and that set nothing. -/
def systemFiles : List String :=
  ["/bin/sh", "/etc/group", "/etc/hostname", "/etc/hosts", "/etc/passwd", "/etc/resolv.conf", "/etc/shadow",
    "/proc/self/exe", "/proc/version", "/usr/bin/env"]

/-- What every system has, for a program that runs in this directory. -/
def system (current : Route) : Files :=
  let files : Files := { empty with current := current }
  let files := systemDirectories.foldl (fun files path => files.add path .directory) files
  let files := systemDevices.foldl (fun files path => files.add path .device) files
  systemFiles.foldl (fun files path => files.add path (.file [])) files

end Files

end WorldPlugins
