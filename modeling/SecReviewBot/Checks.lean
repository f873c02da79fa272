import Mathlib.Logic.Basic

/-!
# Checks that raise

A validator is a sequence of checks in `Except ε`. It accepts exactly when every check
holds, and `require_bind` peels the first of them off.
-/

namespace Checks

universe u v w

variable {ε : Type u} {α β : Type v}

/-- Goes on where the condition holds and raises the error otherwise. -/
def require (holds : Prop) [Decidable holds] (error : ε) : Except ε PUnit.{v + 1} :=
  if holds then .ok ⟨⟩ else .error error

theorem require_ok {holds : Prop} [Decidable holds] {error : ε} {r : PUnit.{v + 1}} :
    require holds error = .ok r ↔ holds := by
  by_cases h : holds <;> simp [require, h]

theorem bind_ok {x : Except ε α} {f : α → Except ε β} {b : β} :
    x >>= f = .ok b ↔ ∃ a, x = .ok a ∧ f a = .ok b := by
  cases x with
  | error e => simp [bind, Except.bind]
  | ok a => simp [bind, Except.bind]

theorem require_bind {holds : Prop} [Decidable holds] {error : ε} {rest : PUnit → Except ε β}
    {b : β} : (require holds error >>= rest) = .ok b ↔ holds ∧ rest ⟨⟩ = .ok b := by
  rw [bind_ok]
  constructor
  · rintro ⟨_, passed, later⟩
    exact ⟨require_ok.mp passed, later⟩
  · rintro ⟨passed, later⟩
    exact ⟨⟨⟩, require_ok.mpr passed, later⟩

end Checks
