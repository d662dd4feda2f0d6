/-!
# Success of checks in a row

When a computation that may be refused succeeds, told step by step, and for which reasons it is not
refused.
-/

set_option autoImplicit false

namespace DeviceTelemetry

variable {ε α β : Type}

theorem bind_eq_ok {x : Except ε α} {f : α → Except ε β} {b : β} :
    x >>= f = .ok b ↔ ∃ a, x = .ok a ∧ f a = .ok b := by
  cases x with
  | ok a => exact ⟨fun h => ⟨a, rfl, h⟩, fun ⟨a', same, h⟩ => by cases same; exact h⟩
  | error e => exact ⟨fun h => (nomatch h), fun ⟨a', same, h⟩ => (nomatch same)⟩

theorem exists_bind_ok {x : Except ε α} {f : α → Except ε β}
    (first : ∃ a, x = .ok a) (rest : ∀ a, ∃ b, f a = .ok b) : ∃ b, x >>= f = .ok b := by
  obtain ⟨a, rfl⟩ := first
  exact rest a

theorem mapError_eq_ok {ε' : Type} {x : Except ε α} {f : ε → ε'} {a : α} :
    x.mapError f = .ok a ↔ x = .ok a := by
  cases x with
  | ok a' =>
      constructor
      · intro same
        cases same
        rfl
      · intro same
        cases same
        rfl
  | error e => exact ⟨fun bad => (nomatch bad), fun bad => (nomatch bad)⟩

theorem pure_eq_ok {a a' : α} : (pure a : Except ε α) = .ok a' ↔ a = a' :=
  Except.ok.injEq a a' ▸ Iff.rfl

instance decidableExistsOk {P : α → Prop} [DecidablePred P] :
    (x : Except ε α) → Decidable (∃ a, x = .ok a ∧ P a)
  | .ok a =>
    decidable_of_iff (P a) ⟨fun h => ⟨a, rfl, h⟩, fun ⟨_, same, h⟩ => by cases same; exact h⟩
  | .error _ => isFalse fun ⟨_, bad, _⟩ => nomatch bad

theorem guard_eq_ok {c : Prop} [Decidable c] {e : ε} {f : β → Except ε α} {rest : Except ε α}
    {a : α} : (if c then throw e >>= f else rest) = .ok a ↔ ¬c ∧ rest = .ok a := by
  by_cases h : c
  · rw [if_pos h]
    exact ⟨fun bad => (nomatch bad), fun ⟨no, _⟩ => absurd h no⟩
  · rw [if_neg h]
    exact ⟨fun ok => ⟨h, ok⟩, fun ⟨_, ok⟩ => ok⟩

/-! ### Reasons that do not occur -/

theorem exists_error_iff {x : Except ε α} : (∃ e, x = .error e) ↔ ¬∃ a, x = .ok a := by
  cases x with
  | ok a => exact iff_of_false nofun fun refused => refused ⟨a, rfl⟩
  | error e => exact iff_of_true ⟨e, rfl⟩ nofun

theorem bind_eq_error {x : Except ε α} {f : α → Except ε β} {e : ε} :
    x >>= f = .error e ↔ x = .error e ∨ ∃ a, x = .ok a ∧ f a = .error e := by
  cases x with
  | ok a =>
      constructor
      · intro refused
        exact .inr ⟨a, rfl, refused⟩
      · rintro (first | ⟨a', same, refused⟩)
        · cases first
        · cases same
          exact refused
  | error e' =>
      constructor
      · intro refused
        exact .inl (congrArg _ (Except.error.inj refused))
      · rintro (first | ⟨a, same, -⟩)
        · exact congrArg _ (Except.error.inj first)
        · cases same

theorem guard_eq_error {c : Prop} [Decidable c] {e e' : ε} {f : β → Except ε α}
    {rest : Except ε α} :
    (if c then throw e' >>= f else rest) = .error e ↔ c ∧ e' = e ∨ ¬c ∧ rest = .error e := by
  by_cases h : c
  · rw [if_pos h]
    constructor
    · intro refused
      exact .inl ⟨h, Except.error.inj refused⟩
    · rintro (⟨-, rfl⟩ | ⟨no, -⟩)
      · rfl
      · exact absurd h no
  · rw [if_neg h]
    constructor
    · intro refused
      exact .inr ⟨h, refused⟩
    · rintro (⟨yes, -⟩ | ⟨-, refused⟩)
      · exact absurd yes h
      · exact refused

theorem bind_ne_error {x : Except ε α} {f : α → Except ε β} {e : ε} (first : x ≠ .error e)
    (rest : ∀ a, x = .ok a → f a ≠ .error e) : x >>= f ≠ .error e := by
  rw [ne_eq, bind_eq_error]
  rintro (refused | ⟨a, passed, refused⟩)
  · exact first refused
  · exact rest a passed refused

theorem mapError_ne_error {ε' : Type} {x : Except ε α} {f : ε → ε'} {e' : ε'}
    (other : ∀ e, x = .error e → f e ≠ e') : x.mapError f ≠ .error e' := by
  cases x with
  | ok a => exact nofun
  | error e => exact fun same => other e rfl (Except.error.inj same)

/-! ### Checked arithmetic -/

namespace Checked

/-- A number, unless it is too large for a word that has `size` values. -/
def word (size n : Nat) : Option Nat := if n < size then some n else none

/-- A difference, unless it is below zero. -/
def minus (a b : Nat) : Option Nat := if b ≤ a then some (a - b) else none

theorem word_eq {size n : Nat} (small : n < size) : word size n = some n := if_pos small

theorem word_eq_none {size n : Nat} (large : size ≤ n) : word size n = none :=
  if_neg (Nat.not_lt.mpr large)

theorem minus_eq {a b : Nat} (order : b ≤ a) : minus a b = some (a - b) := if_pos order

end Checked

end DeviceTelemetry
