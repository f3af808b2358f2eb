import WorldPlugins.Rpc.Client

/-! # Access lists

Who may see or join something.  A list restricts by role, by player, or both; an empty part restricts nothing.
A superuser passes every list, and whoever's roles cannot be looked up passes no list that asks for roles.
-/

namespace WorldPlugins

/-- What an access list is about. -/
inductive Action
  | see
  | join
  deriving DecidableEq, Repr

def Action.name : Action → String
  | .see => "see"
  | .join => "join"

/-- The roles and players that an action is open to. -/
structure AccessList where
  roles : List String
  players : List String
  deriving DecidableEq, Repr, Inhabited

namespace AccessList

def unrestricted : AccessList := ⟨[], []⟩

def isOpen (l : AccessList) : Bool := l.roles.isEmpty && l.players.isEmpty

def namesPlayer (l : AccessList) (player : String) : Bool := l.players.contains player

def admitsAnyRole (l : AccessList) (held : List String) : Bool := held.any l.roles.contains

end AccessList

structure AccessControl where
  see : AccessList
  join : AccessList
  deriving DecidableEq, Repr, Inhabited

namespace AccessControl

def unrestricted : AccessControl := ⟨.unrestricted, .unrestricted⟩

def list (acl : AccessControl) : Action → AccessList
  | .see => acl.see
  | .join => acl.join

def setList (acl : AccessControl) (list : AccessList) : Action → AccessControl
  | .see => { acl with see := list }
  | .join => { acl with join := list }

end AccessControl

/-- The one player who passes every list, if there is one. -/
structure Privilege where
  superuser : Option String
  deriving DecidableEq, Repr

namespace Privilege

def defaultSuperuser : String := "GOD"

/-- The privilege of the player with this name; nobody's if the name is empty. -/
def named (name : String) : Privilege := ⟨if name = "" then none else some name⟩

def grants (p : Privilege) (player : String) : Bool := p.superuser == some player

instance : Coe Privilege (String → Bool) := ⟨grants⟩

end Privilege

namespace AccessList

variable {m : Type → Type} [Monad m] {ε : Type}

/-- Whether the roles in a list, if there are any, include one that the player holds. -/
def passesRoles (rolesOf : String → m (Except ε (List String))) (l : AccessList) (player : String) :
    m Bool :=
  if l.roles.isEmpty then pure true
  else do
    match ← rolesOf player with
    | .ok held => pure (l.admitsAnyRole held)
    | .error _ => pure false

def passesPlayers (l : AccessList) (player : String) : Bool :=
  l.players.isEmpty || l.namesPlayer player

/-- Whether a player passes a list, where some players are privileged to pass every list.  Roles are looked up only
if the list has any. -/
def permits (rolesOf : String → m (Except ε (List String))) (privileged : String → Bool) (l : AccessList)
    (player : String) : m Bool :=
  if privileged player then pure true
  else do
    if ← l.passesRoles rolesOf player then pure (l.passesPlayers player) else pure false

end AccessList

namespace AccessControl

variable {m : Type → Type} [Monad m] {ε : Type}

def may (rolesOf : String → m (Except ε (List String))) (privileged : String → Bool) (action : Action)
    (acl : AccessControl) (player : String) : m Bool :=
  (acl.list action).permits rolesOf privileged player

end AccessControl

structure RoleLookupError where
  player : String
  cause : RpcError
  deriving DecidableEq, Repr

def RoleLookupError.message (e : RoleLookupError) : String :=
  "failed to look up roles of " ++ e.player ++ ": " ++ e.cause.message

/-- The roles of a player as the store has them, asked for with the authority of the extension. -/
def storedRoles (player : String) : Session (Except RoleLookupError (List String)) := do
  let reply ← (Client.getRoles player true).run
  pure (reply.mapError fun cause => ⟨player, cause⟩)

end WorldPlugins
