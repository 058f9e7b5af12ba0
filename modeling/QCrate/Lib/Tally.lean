import Mathlib.Tactic

/-!
# Counting the cells of an array by their state

A table of `n` cells is a function on indices of which only `i < n` count, and `tally n f k` is
the number of cells in state `k`. Moving one cell from a state to another changes two tallies
by one; the rules below say so without naming the index range.
-/

namespace QCrate.Lib

variable {κ : Type*} [DecidableEq κ]

/-- The number of indices below `n` that `f` maps to `k`. -/
def tally (n : Nat) (f : Nat → κ) (k : κ) : Nat := (List.range n).countP (fun i => f i = k)

/-- The table with cell `i` rewritten. -/
def setCell {α : Type*} (f : Nat → α) (i : Nat) (a : α) : Nat → α :=
  fun j => if j = i then a else f j

@[simp] theorem setCell_same {α : Type*} (f : Nat → α) (i : Nat) (a : α) : setCell f i a i = a :=
  if_pos rfl

theorem setCell_ne {α : Type*} (f : Nat → α) {i j : Nat} (a : α) (h : j ≠ i) :
    setCell f i a j = f j :=
  if_neg h

@[simp] theorem tally_zero (f : Nat → κ) (k : κ) : tally 0 f k = 0 := rfl

theorem tally_succ (n : Nat) (f : Nat → κ) (k : κ) :
    tally (n + 1) f k = tally n f k + if f n = k then 1 else 0 := by
  unfold tally
  rw [List.range_succ, List.countP_append]
  by_cases h : f n = k <;> simp [h]

theorem tally_congr {n : Nat} {f g : Nat → κ} {k : κ} (h : ∀ i < n, (f i = k ↔ g i = k)) :
    tally n f k = tally n g k := by
  induction n with
  | zero => rfl
  | succ n ih =>
    rw [tally_succ, tally_succ, ih (fun i hi => h i (Nat.lt_succ_of_lt hi))]
    simp only [h n (Nat.lt_succ_self n)]

theorem tally_le (n : Nat) (f : Nat → κ) (k : κ) : tally n f k ≤ n := by
  unfold tally
  have h := List.countP_le_length (p := fun i => decide (f i = k)) (l := List.range n)
  rwa [List.length_range] at h

theorem tally_eq_zero {n : Nat} {f : Nat → κ} {k : κ} :
    tally n f k = 0 ↔ ∀ i < n, f i ≠ k := by
  simp [tally, List.countP_eq_zero]

theorem tally_const (n : Nat) (k : κ) : tally n (fun _ => k) k = n := by
  simp [tally]

/-- What a rewrite of cell `i` does to every tally: the old state of the cell leaves its own,
the new one enters its own. -/
theorem tally_setCell {n : Nat} {f : Nat → κ} {i : Nat} (hi : i < n) (a k : κ) :
    tally n (setCell f i a) k + (if f i = k then 1 else 0)
      = tally n f k + if a = k then 1 else 0 := by
  induction n with
  | zero => omega
  | succ n ih =>
    rw [tally_succ, tally_succ]
    rcases Nat.lt_succ_iff_lt_or_eq.mp hi with h | h
    · rw [setCell_ne f a (by omega)]
      have := ih h
      omega
    · subst h
      have hrest : tally i (setCell f i a) k = tally i f k :=
        tally_congr fun j hj => by rw [setCell_ne f a (by omega)]
      rw [hrest, setCell_same]
      omega

/-- The cell that leaves state `b` for another state. -/
theorem tally_leave {n : Nat} {f : Nat → κ} {i : Nat} {a b : κ} (hi : i < n) (hb : f i = b)
    (hab : a ≠ b) : tally n (setCell f i a) b + 1 = tally n f b := by
  have h := tally_setCell (f := f) hi a b
  rw [if_pos hb, if_neg hab] at h
  exact h

/-- The cell that enters state `a` from another state. -/
theorem tally_enter {n : Nat} {f : Nat → κ} {i : Nat} {a : κ} (hi : i < n) (hb : f i ≠ a) :
    tally n (setCell f i a) a = tally n f a + 1 := by
  have h := tally_setCell (f := f) hi a a
  rw [if_neg hb, if_pos rfl] at h
  exact h

/-- The states a cell neither leaves nor enters. -/
theorem tally_other {n : Nat} {f : Nat → κ} {i : Nat} {a k : κ} (hi : i < n) (hb : f i ≠ k)
    (ha : a ≠ k) : tally n (setCell f i a) k = tally n f k := by
  have h := tally_setCell (f := f) hi a k
  rw [if_neg hb, if_neg ha] at h
  exact h

end QCrate.Lib
