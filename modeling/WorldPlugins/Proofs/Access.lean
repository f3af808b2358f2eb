import WorldPlugins.Access

/-! # Access lists against their reference

Evaluating a list comes down to at most one question, and what is made of the answer is decided by a reference.  A
failed lookup is the least answer there is, so a list fails closed, and more roles never shut anybody out.
-/

namespace WorldPlugins

namespace AccessList

variable {m : Type → Type} [Monad m] [LawfulMonad m] {ε ε' : Type} (rolesOf : String → m (Except ε (List String)))
  (privileged : String → Bool) (l : AccessList) (player : String)

def Holds (l : AccessList) : Except ε (List String) → Prop
  | .ok held => ∃ role ∈ held, role ∈ l.roles
  | .error _ => False

instance (reply : Except ε (List String)) : Decidable (l.Holds reply) :=
  match reply with
  | .ok held => inferInstanceAs (Decidable (∃ role ∈ held, role ∈ l.roles))
  | .error _ => inferInstanceAs (Decidable False)

/-- Who passes a list, if this is what a lookup of their roles answers. -/
def Admits (reply : Except ε (List String)) : Prop :=
  privileged player = true ∨ (l.roles = [] ∨ l.Holds reply) ∧ (l.players = [] ∨ player ∈ l.players)

instance (reply : Except ε (List String)) : Decidable (l.Admits privileged player reply) :=
  inferInstanceAs (Decidable (_ ∨ _))

/-- Without privilege, a list with roles asks what roles the player holds. -/
def AsksRoles : Prop := privileged player = false ∧ l.roles ≠ []

instance : Decidable (l.AsksRoles privileged player) := inferInstanceAs (Decidable (_ ∧ _))

theorem not_asksRoles_iff : ¬ l.AsksRoles privileged player ↔ privileged player = true ∨ l.roles = [] := by
  rw [AsksRoles, Decidable.not_and_iff_not_or_not, Bool.not_eq_false, Decidable.not_not]

/-- One answer tells of all the roles that another one tells of, if that one is an answer at all. -/
inductive Widens : Except ε (List String) → Except ε' (List String) → Prop
  | failed (e : ε) (wide : Except ε' (List String)) : Widens (.error e) wide
  | more {held wide : List String} (h : held ⊆ wide) : Widens (.ok held) (.ok wide)

variable {l privileged player}

theorem Holds.widen {reply : Except ε (List String)} {wide : Except ε' (List String)} (h : l.Holds reply)
    (hwide : Widens reply wide) : l.Holds wide := by
  cases hwide with
  | failed e wide => exact h.elim
  | more hsubset =>
    obtain ⟨role, hheld, hrole⟩ := h
    exact ⟨role, hsubset hheld, hrole⟩

theorem Admits.widen {reply : Except ε (List String)} {wide : Except ε' (List String)}
    (h : l.Admits privileged player reply) (hwide : Widens reply wide) : l.Admits privileged player wide :=
  h.imp_right fun ⟨hroles, hplayers⟩ => ⟨hroles.imp_right (·.widen hwide), hplayers⟩

/-- What a failure says does not matter. -/
theorem admits_mapError (reply : Except ε (List String)) (f : ε → ε') :
    l.Admits privileged player (reply.mapError f) ↔ l.Admits privileged player reply := by
  cases reply <;> rfl

theorem Admits.without_roles {reply : Except ε (List String)} (h : l.Admits privileged player reply) :
    ({ l with roles := [] } : AccessList).Admits privileged player reply :=
  h.imp_right fun ⟨_, hplayers⟩ => ⟨.inl rfl, hplayers⟩

theorem Admits.without_players {reply : Except ε (List String)} (h : l.Admits privileged player reply) :
    ({ l with players := [] } : AccessList).Admits privileged player reply :=
  h.imp_right fun ⟨hroles, _⟩ => ⟨hroles, .inl rfl⟩

variable (l privileged player)

theorem passesPlayers_iff : l.passesPlayers player = true ↔ l.players = [] ∨ player ∈ l.players := by
  simp [passesPlayers, namesPlayer]

theorem admitsAnyRole_iff (held : List String) :
    l.admitsAnyRole held = true ↔ l.Holds (.ok held : Except ε (List String)) := by
  simp [admitsAnyRole, Holds]

theorem permits_of_not_asks (h : ¬ l.AsksRoles privileged player) (reply : Except ε (List String)) :
    l.permits rolesOf privileged player = pure (decide (l.Admits privileged player reply)) := by
  unfold permits Admits
  by_cases hprivileged : privileged player = true
  · simp [hprivileged]
  · have hroles := ((not_asksRoles_iff privileged l player).mp h).resolve_left hprivileged
    simp [hprivileged, passesRoles, hroles, ← passesPlayers_iff]

theorem permits_of_asks (h : l.AsksRoles privileged player) :
    l.permits rolesOf privileged player =
      (fun reply => decide (l.Admits privileged player reply)) <$> rolesOf player := by
  obtain ⟨hprivileged, hroles⟩ := h
  rw [permits, if_neg (by simp [hprivileged]), passesRoles, if_neg (by simpa using hroles), bind_assoc,
    map_eq_pure_bind]
  congr 1
  funext reply
  cases reply with
  | error e => simp [Admits, Holds, hprivileged, hroles]
  | ok held =>
    cases hheld : l.admitsAnyRole held <;>
      simp [Admits, hprivileged, hroles, hheld, ← admitsAnyRole_iff, ← passesPlayers_iff]

theorem permits_iff (rolesOf : String → Except ε (List String)) :
    l.permits (m := Id) rolesOf privileged player = true ↔ l.Admits privileged player (rolesOf player) := by
  by_cases h : l.AsksRoles privileged player
  · rw [permits_of_asks (m := Id) rolesOf privileged l player h]
    exact decide_eq_true_iff
  · rw [permits_of_not_asks (m := Id) rolesOf privileged l player h (rolesOf player)]
    exact decide_eq_true_iff

def noted (player : String) : StateT (List String) m (Except ε (List String)) := do
  modify (· ++ [player])
  rolesOf player

/-- The roles are looked up once if the list asks for them and never if it does not, and what comes of it is what the
reference says. -/
theorem run_permits_noted (log : List String) :
    (l.AsksRoles privileged player →
      (l.permits (noted rolesOf) privileged player).run log =
        (fun reply => (decide (l.Admits privileged player reply), log ++ [player])) <$> rolesOf player) ∧
    (¬ l.AsksRoles privileged player → ∀ reply : Except ε (List String),
      (l.permits (noted rolesOf) privileged player).run log =
        pure (decide (l.Admits privileged player reply), log)) := by
  refine ⟨fun h => ?_, fun h reply => ?_⟩
  · rw [permits_of_asks _ _ _ _ h]
    simp [noted]
  · rw [permits_of_not_asks _ _ _ _ h reply]
    rfl

end AccessList

namespace AccessControl

variable (acl : AccessControl) (list : AccessList) {action other : Action}

theorem list_setList_of_ne (h : action ≠ other) : (acl.setList list other).list action = acl.list action := by
  cases action <;> cases other <;> first | rfl | exact absurd rfl h

end AccessControl

open AccessList

/-- Access is what the reference says, whatever the lists, the player, the privilege and the lookup.  The roles are
looked up exactly once for a player without privilege and a list with roles, and not at all for others; a better answer
never shuts a player out, filling an empty part of a list never lets one in, and each action is decided by its own
list. -/
theorem access_meets_reference {ε ε' : Type} (privileged : String → Bool) (l : AccessList) (player : String) :
    (∀ rolesOf : String → Except ε (List String),
        l.permits (m := Id) rolesOf privileged player = true ↔ l.Admits privileged player (rolesOf player)) ∧
      (∀ {m : Type → Type} [Monad m] [LawfulMonad m] (rolesOf : String → m (Except ε (List String)))
          (log : List String),
          let run := (l.permits (noted rolesOf) privileged player).run log
          (privileged player = false ∧ l.roles ≠ [] →
              run = (fun reply => (decide (l.Admits privileged player reply), log ++ [player])) <$> rolesOf player) ∧
            (privileged player = true ∨ l.roles = [] →
              ∀ reply : Except ε (List String), run = pure (decide (l.Admits privileged player reply), log))) ∧
      (∀ (narrow : String → Except ε (List String)) (wide : String → Except ε' (List String)),
          Widens (narrow player) (wide player) → l.permits (m := Id) narrow privileged player = true →
            l.permits (m := Id) wide privileged player = true) ∧
      (∀ (rolesOf : String → Except ε (List String)) (roles players : List String),
          (({ l with roles } : AccessList).permits (m := Id) rolesOf privileged player = true →
            ({ l with roles := [] } : AccessList).permits (m := Id) rolesOf privileged player = true) ∧
          (({ l with players } : AccessList).permits (m := Id) rolesOf privileged player = true →
            ({ l with players := [] } : AccessList).permits (m := Id) rolesOf privileged player = true)) ∧
      ∀ {m : Type → Type} [Monad m] (rolesOf : String → m (Except ε (List String))) (acl : AccessControl)
        (action other : Action), action ≠ other →
          (acl.setList l other).may rolesOf privileged action player =
            (acl.list action).permits rolesOf privileged player := by
  refine ⟨permits_iff privileged l player, ?_, ?_, ?_, ?_⟩
  · intro m _ _ rolesOf log
    obtain ⟨hasks, hopen⟩ := run_permits_noted rolesOf privileged l player log
    exact ⟨hasks, fun h => hopen ((not_asksRoles_iff privileged l player).mpr h)⟩
  · intro narrow wide hwide
    rw [permits_iff, permits_iff]
    exact (·.widen hwide)
  · intro rolesOf roles players
    simp only [permits_iff]
    exact ⟨Admits.without_roles, Admits.without_players⟩
  · intro m _ rolesOf acl action other h
    rw [AccessControl.may, AccessControl.list_setList_of_ne acl l h]

end WorldPlugins
