import Mathlib.Logic.Basic

/-!
# Functions that check and then write

A function of this kind is a chain of checks in `Except ε`, each of which ends it with an error.  A chain that
ends in a value has passed every check; the lemmas here take it apart from the front.
-/

universe u

namespace Except

variable {ε : Type*} {α β : Type u}

theorem bind_eq_ok {x : Except ε α} {f : α → Except ε β} {b : β} :
    (x >>= f) = .ok b ↔ ∃ a, x = .ok a ∧ f a = .ok b := by
  constructor
  · intro h
    cases x with
    | error e => exact nomatch h
    | ok a => exact ⟨a, rfl, h⟩
  · rintro ⟨a, rfl, h⟩
    exact h

theorem map_eq_ok {x : Except ε α} {f : α → β} {b : β} :
    f <$> x = .ok b ↔ ∃ a, x = .ok a ∧ f a = b := by
  constructor
  · intro h
    cases x with
    | error e => exact nomatch h
    | ok a => exact ⟨a, rfl, Except.ok.inj h⟩
  · rintro ⟨a, rfl, h⟩
    rw [← h]
    rfl

theorem pure_eq_ok {a b : α} : (pure a : Except ε α) = .ok b ↔ a = b :=
  ⟨Except.ok.inj, congrArg _⟩

/-- three checks in a row, whatever they are, do not decide which value follows them -/
theorem eq_of_checks {x y z : Except ε α} {a b : β}
    (h : (x >>= fun _ => y >>= fun _ => z >>= fun _ => pure a) = .ok b) : a = b := by
  obtain ⟨_, -, h⟩ := bind_eq_ok.mp h
  obtain ⟨_, -, h⟩ := bind_eq_ok.mp h
  obtain ⟨_, -, h⟩ := bind_eq_ok.mp h
  exact pure_eq_ok.mp h

end Except
