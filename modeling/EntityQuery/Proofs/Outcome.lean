/-! # Outcomes that may be errors

A computation with several steps succeeds exactly if every step does, one after the other.
-/

namespace EntityQuery

variable {ε α β γ δ : Type}

theorem bind_eq_ok {x : Except ε α} {f : α → Except ε β} {b : β} :
    x >>= f = .ok b ↔ ∃ a, x = .ok a ∧ f a = .ok b := by
  cases x with
  | error e => simp [bind, Except.bind]
  | ok a => simp [bind, Except.bind]

theorem bind_eq_error {x : Except ε α} {f : α → Except ε β} {e : ε} :
    x >>= f = .error e ↔ x = .error e ∨ ∃ a, x = .ok a ∧ f a = .error e := by
  cases x with
  | error e' => simp [bind, Except.bind]
  | ok a => simp [bind, Except.bind]

theorem map_eq_ok {x : Except ε α} {f : α → β} {b : β} :
    x.map f = .ok b ↔ ∃ a, x = .ok a ∧ f a = b := by
  cases x <;> simp [Except.map]

theorem map_eq_error {x : Except ε α} {f : α → β} {e : ε} : x.map f = .error e ↔ x = .error e := by
  cases x <;> simp [Except.map]

theorem isOk_iff {x : Except ε α} : x.isOk = true ↔ ∃ a, x = .ok a := by
  cases x with
  | error e => simp [Except.isOk, Except.toBool]
  | ok a => simp [Except.isOk, Except.toBool]

theorem toOption_eq_some {x : Except ε α} {a : α} : x.toOption = some a ↔ x = .ok a := by
  cases x with
  | error e => simp [Except.toOption]
  | ok b => simp [Except.toOption]

/-- The computation has a result. -/
def Succeeds (x : Except ε α) : Prop := ∃ a, x = .ok a

@[simp] theorem succeeds_ok (a : α) : Succeeds (.ok a : Except ε α) := ⟨a, rfl⟩

@[simp] theorem not_succeeds_error (e : ε) : ¬ Succeeds (.error e : Except ε α) := by
  rintro ⟨a, isOk⟩
  cases isOk

/-- Two steps succeed if the first one does, and the second one after whatever that results in. -/
theorem succeeds_bind {x : Except ε α} {f : α → Except ε β} {p : Prop}
    (second : ∀ a, x = .ok a → (Succeeds (f a) ↔ p)) : Succeeds (x >>= f) ↔ Succeeds x ∧ p := by
  cases x with
  | error e => simp [Succeeds, bind, Except.bind]
  | ok a => simpa [bind, Except.bind] using second a rfl

@[simp] theorem ok_bind (a : α) (f : α → Except ε β) : (Except.ok a : Except ε α) >>= f = f a := rfl

@[simp] theorem error_bind (e : ε) (f : α → Except ε β) :
    (Except.error e : Except ε α) >>= f = .error e := rfl

/-- Computations that begin alike and go on alike are alike. -/
theorem bind_congr_ok {x : Except ε α} {f g : α → Except ε β}
    (same : ∀ a, x = .ok a → f a = g a) : x >>= f = x >>= g := by
  cases x with
  | error e => rfl
  | ok a => exact same a rfl

/-- Computations that agree in one view, and in another one wherever they agree in the first. -/
theorem map_congr_view {x : Except ε α} {y : Except ε β} {f : α → γ} {g : β → γ} {f' : α → δ}
    {g' : β → δ} (alike : x.map f = y.map g)
    (same : ∀ a b, x = .ok a → y = .ok b → f a = g b → f' a = g' b) : x.map f' = y.map g' := by
  cases x with
  | error failure =>
      cases y with
      | error failure' => simpa [Except.map] using alike
      | ok b => simp [Except.map] at alike
  | ok a =>
      cases y with
      | error failure => simp [Except.map] at alike
      | ok b => exact congrArg Except.ok (same a b rfl rfl (by simpa [Except.map] using alike))

theorem bind_ok_eq_map (x : Except ε α) (f : α → β) : (x >>= fun a => .ok (f a)) = x.map f := by
  cases x <;> rfl

theorem map_bind (x : Except ε α) (f : α → β) (g : β → Except ε γ) :
    x.map f >>= g = x >>= fun a => g (f a) := by
  cases x <;> rfl

end EntityQuery
