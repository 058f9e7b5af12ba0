import Mathlib.Tactic

/-!
# Sequences of checks

A computation in `Except` succeeds when every step of it does.

* `bind_eq_ok` — a step and what follows.
* `check_eq_ok` — a condition that stops the sequence.
-/

namespace QCrate.Lib

theorem bind_eq_ok {ε α β : Type} {x : Except ε α} {f : α → Except ε β} {b : β} :
    x >>= f = .ok b ↔ ∃ a, x = .ok a ∧ f a = .ok b := by
  cases x with
  | error e => exact ⟨nofun, fun ⟨_, h, _⟩ => nomatch h⟩
  | ok a => exact ⟨fun h => ⟨a, rfl, h⟩, fun ⟨_, rfl, h⟩ => h⟩

theorem guard_eq_ok {ε α : Type*} {c : Prop} [Decidable c] {e : ε} {x : Except ε α} {a : α} :
    (if c then .error e else x) = .ok a ↔ ¬c ∧ x = .ok a := by
  by_cases h : c <;> simp [h]

/-- A check in the middle of a sequence. -/
theorem check_eq_ok {ε α β : Type} {c : Prop} [Decidable c] {e : ε} {f : α → Except ε β}
    {x : Except ε β} {b : β} :
    (if c then .error e >>= f else x) = .ok b ↔ ¬c ∧ x = .ok b :=
  guard_eq_ok

theorem elim_eq_ok {ε α β : Type} {x : Option α} {e : ε} {f : α → Except ε β} {b : β} :
    x.elim (.error e) f = .ok b ↔ ∃ a, x = some a ∧ f a = .ok b := by
  cases x <;> simp

theorem exists_of_any {ε α : Type} {x : Except ε α} {p : α → Bool}
    (h : x.toOption.any p = true) : ∃ a, x = .ok a ∧ p a = true := by
  cases x with
  | error e => cases h
  | ok a => exact ⟨a, rfl, h⟩

end QCrate.Lib
