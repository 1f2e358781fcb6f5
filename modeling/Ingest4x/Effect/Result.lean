import Mathlib.Tactic.Basic

/-! # Results

Computations that return a value or an error, and when they return a value. -/

namespace Result

variable {ε ε' α β : Type}

/-- A value that has to be there: `ok_or`. -/
def okOr (o : Option α) (error : ε) : Except ε α :=
  match o with
  | some a => .ok a
  | none => .error error

/-- A condition that has to hold. -/
def ensure (p : Prop) [Decidable p] (error : ε) : Except ε Unit :=
  if p then .ok () else .error error

/-- **A sequence returns a value** exactly when its parts do. -/
theorem bind_eq_ok {x : Except ε α} {f : α → Except ε β} {b : β} :
    (x >>= f) = .ok b ↔ ∃ a, x = .ok a ∧ f a = .ok b := by
  cases x with
  | error e =>
    refine ⟨fun h => ?_, ?_⟩
    · cases h
    · rintro ⟨a, ha, -⟩
      cases ha
  | ok a =>
    refine ⟨fun h => ⟨a, rfl, h⟩, ?_⟩
    rintro ⟨a', ha, h⟩
    cases ha
    exact h

theorem pure_eq_ok {a b : α} : (pure a : Except ε α) = .ok b ↔ a = b :=
  ⟨fun h => Except.ok.inj h, fun h => congrArg Except.ok h⟩

theorem okOr_eq_ok {o : Option α} {error : ε} {a : α} : okOr o error = .ok a ↔ o = some a := by
  cases o with
  | none => simp [okOr]
  | some a' => simp [okOr]

theorem ensure_eq_ok {p : Prop} [Decidable p] {error : ε} {u : Unit} :
    ensure p error = .ok u ↔ p := by
  rw [ensure]
  split <;> simp_all

theorem mapError_ok {f : ε → ε'} {a : α} : (Except.ok a).mapError f = .ok a := rfl

theorem mapError_error {f : ε → ε'} {e : ε} :
    (Except.error e : Except ε α).mapError f = .error (f e) := rfl

theorem mapError_eq_ok {f : ε → ε'} {x : Except ε α} {a : α} :
    x.mapError f = .ok a ↔ x = .ok a := by
  cases x with
  | error e => simp [mapError_error]
  | ok a' => simp [mapError_ok]

theorem map_eq_ok {f : α → β} {x : Except ε α} {b : β} :
    x.map f = .ok b ↔ ∃ a, x = .ok a ∧ f a = b := by
  cases x with
  | error error => exact iff_of_false nofun nofun
  | ok a =>
    constructor
    · rintro ⟨⟩
      exact ⟨a, rfl, rfl⟩
    · rintro ⟨_, ⟨⟩, rfl⟩
      rfl

/-- The second part of a pair that is returned. -/
theorem map_snd_eq_ok {x : Except ε (α × β)} {b : β} :
    x.map Prod.snd = .ok b ↔ ∃ a, x = .ok (a, b) := by
  cases x with
  | error e => simp [Except.map]
  | ok p =>
    obtain ⟨a, b'⟩ := p
    simp [Except.map]

theorem isSome_toOption {x : Except ε α} : x.toOption.isSome = true ↔ ∃ a, x = .ok a := by
  cases x with
  | error e => exact iff_of_false Bool.false_ne_true nofun
  | ok a => exact iff_of_true rfl ⟨a, rfl⟩

theorem map_toOption_eq_some {x : Except ε α} {f : α → β} {b : β} :
    x.toOption.map f = some b ↔ ∃ a, x = .ok a ∧ f a = b := by
  cases x with
  | error e => exact iff_of_false nofun nofun
  | ok a => simp [Except.toOption]

end Result
