import QueryGate.Proofs.Outcome

/-! Computations that may fail: of what kind all of their failures are. -/
namespace QueryGate.Outcome
variable {ε ε' α β : Type} {P Q : ε → Prop}

/-- Every failure of a computation is of a kind. -/
def Fails (P : ε → Prop) (x : Except ε α) : Prop := ∀ e, x = .error e → P e

theorem fails_ok (a : α) : Fails P (.ok a) := fun _ h => absurd h nofun

theorem fails_error {e : ε} (h : P e) : Fails P (.error e : Except ε α) := by
  intro e' same
  rw [← Except.error.inj same]
  exact h

theorem Fails.mono {x : Except ε α} (h : Fails P x) (weaker : ∀ e, P e → Q e) : Fails Q x :=
  fun e fails => weaker e (h e fails)

theorem Fails.bind {x : Except ε α} {f : α → Except ε β} (h : Fails P x) (next : ∀ a, x = .ok a → Fails P (f a)) :
    Fails P (x >>= f) := by
  cases x with
  | error e => exact fails_error (h e rfl)
  | ok a => exact next a rfl

theorem Fails.map {x : Except ε α} (h : Fails P x) (f : α → β) : Fails P (f <$> x) := by
  cases x with
  | error e => exact fails_error (h e rfl)
  | ok a => exact fails_ok (f a)

theorem Fails.mapError {x : Except ε α} {f : ε → ε'} {P : ε' → Prop} (h : Fails (fun e => P (f e)) x) :
    Fails P (x.mapError f) := by
  cases x with
  | error e => exact fails_error (h e rfl)
  | ok a => exact fails_ok a

end QueryGate.Outcome
