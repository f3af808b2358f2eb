/-! # Results that may be errors

What it takes for a result to come out of two steps, or of a step whose errors are translated.
-/

namespace WorldPlugins

theorem mapError_eq_ok_iff {ε δ α : Type} (q : Except ε α) (f : ε → δ) (a : α) :
    q.mapError f = .ok a ↔ q = .ok a := by
  cases q with
  | error e => exact ⟨nofun, nofun⟩
  | ok b =>
    constructor
    · intro h
      cases h
      rfl
    · rintro ⟨⟩
      rfl

theorem mapError_eq_error_iff {ε δ α : Type} (q : Except ε α) (f : ε → δ) (d : δ) :
    q.mapError f = .error d ↔ ∃ e, q = .error e ∧ f e = d := by
  cases q with
  | error e =>
    constructor
    · intro h
      cases h
      exact ⟨e, rfl, rfl⟩
    · rintro ⟨e, ⟨⟩, rfl⟩
      rfl
  | ok b => exact ⟨nofun, nofun⟩

theorem bind_eq_ok_iff {ε α β : Type} (q : Except ε α) (f : α → Except ε β) (b : β) :
    (q >>= f) = .ok b ↔ ∃ a, q = .ok a ∧ f a = .ok b := by
  cases q <;> simp [bind, Except.bind]

theorem map_eq_ok_iff {ε α β : Type} (q : Except ε α) (f : α → β) (b : β) :
    q.map f = .ok b ↔ ∃ a, q = .ok a ∧ f a = b := by
  cases q <;> simp [Except.map]

theorem toOption_eq_some_iff {ε α : Type} (q : Except ε α) (a : α) : q.toOption = some a ↔ q = .ok a := by
  cases q <;> simp [Except.toOption]

end WorldPlugins
