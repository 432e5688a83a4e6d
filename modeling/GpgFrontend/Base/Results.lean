import Mathlib.Tactic.Common

/-!
# Sequencing fallible steps

A step gives a value or an error, and what comes after an error is not run.

- `bind_eq_ok`, `pure_eq_ok`: a sequence gives a value exactly when every step does.
-/

namespace GpgFrontend

theorem bind_eq_ok {ε α β : Type} {r : Except ε α} {next : α → Except ε β} {b : β} :
    (r >>= next) = .ok b ↔ ∃ a, r = .ok a ∧ next a = .ok b := by
  cases r with
  | error e =>
    constructor
    · intro h
      cases h
    · rintro ⟨a, h, -⟩
      cases h
  | ok a =>
    constructor
    · exact fun h => ⟨a, rfl, h⟩
    · rintro ⟨_, h, hnext⟩
      cases h
      exact hnext

theorem pure_eq_ok {ε α : Type} {a b : α} : (pure a : Except ε α) = .ok b ↔ a = b :=
  ⟨fun h => Except.ok.inj h, fun h => congrArg _ h⟩

end GpgFrontend
