import Mathlib.Data.List.Forall2
import QueryGate.Proofs.Outcome

/-! Two computations that may fail and go the same way: with results that are related, or with failures that are. -/
namespace QueryGate.Outcome
variable {ε α β α' β' γ : Type} {R : ε → ε → Prop} {T : α → β → Prop} {U : α' → β' → Prop}

/-- Both computations succeed and their results are related, or both fail and their failures are. -/
inductive Corresponds (R : ε → ε → Prop) (T : α → β → Prop) : Except ε α → Except ε β → Prop
  | ok {a : α} {b : β} (h : T a b) : Corresponds R T (.ok a) (.ok b)
  | error {e f : ε} (h : R e f) : Corresponds R T (.error e) (.error f)

namespace Corresponds

theorem refl (reflexive : ∀ e, R e e) (x : Except ε α) : Corresponds R Eq x x := by
  cases x with
  | error e => exact .error (reflexive e)
  | ok a => exact .ok rfl

theorem bind {x : Except ε α} {y : Except ε β} {f : α → Except ε α'} {g : β → Except ε β'}
    (h : Corresponds R T x y) (next : ∀ a b, T a b → Corresponds R U (f a) (g b)) :
    Corresponds R U (x >>= f) (y >>= g) := by
  cases h with
  | ok h => exact next _ _ h
  | error h => exact .error h

theorem bind_same {x y : Except ε γ} {f : γ → Except ε α} {g : γ → Except ε β} (h : Corresponds R Eq x y)
    (next : ∀ c, Corresponds R T (f c) (g c)) : Corresponds R T (x >>= f) (y >>= g) :=
  h.bind fun c _ same => same ▸ next c

theorem map_same {x y : Except ε α} (h : Corresponds R Eq x y) (f : α → γ) : Corresponds R Eq (f <$> x) (f <$> y) := by
  cases h with
  | ok h => exact .ok (congrArg f h)
  | error h => exact .error h

theorem mapM_same {S : α' → β' → Prop} {f : α' → Except ε γ} {g : β' → Except ε γ} {xs : List α'} {ys : List β'}
    (items : List.Forall₂ S xs ys) (each : ∀ x y, S x y → Corresponds R Eq (f x) (g y)) :
    Corresponds R Eq (xs.mapM f) (ys.mapM g) := by
  induction items with
  | nil => exact .ok rfl
  | cons first _ ih =>
    rw [List.mapM_cons, List.mapM_cons]
    apply (each _ _ first).bind_same
    intro c
    apply ih.bind_same
    intro cs
    exact .ok rfl

theorem same_or {x y : Except ε γ} (h : Corresponds R Eq x y) :
    (∃ c, x = .ok c ∧ y = .ok c) ∨ ∃ e f, x = .error e ∧ y = .error f ∧ R e f := by
  cases h with
  | ok h => exact .inl ⟨_, rfl, congrArg Except.ok h.symm⟩
  | error h => exact .inr ⟨_, _, rfl, rfl, h⟩

end Corresponds
end QueryGate.Outcome
