import Mathlib.Tactic.Common

/-!
# Search by halving

The first number that is not below something, when everything before a number below is below. The
test of a number may change a state and may fail, as a read through a cache does.

* `bisect` — the search with a plain test.
* `bisectFrom_eq` — a search whose test changes a state finds the same.
-/

namespace QCrate.Lib

/-- The search from `low` up to `high`. -/
def bisect (below : ℕ → Bool) : ℕ → ℕ → ℕ → ℕ
  | 0, low, _ => low
  | fuel + 1, low, high =>
    if low < high then
      let middle := (low + high) / 2
      if below middle then bisect below fuel (middle + 1) high else bisect below fuel low middle
    else low

/-- Where it ends everything before is below and nothing from there on is. -/
theorem bisect_spec {below : ℕ → Bool} {n : ℕ}
    (hmono : ∀ i j, i ≤ j → j < n → below j = true → below i = true) (fuel : ℕ) {low high : ℕ}
    (hhigh : high ≤ n) (hle : low ≤ high) (hfuel : high - low ≤ fuel)
    (hlow : ∀ i < low, below i = true) (hup : ∀ i, high ≤ i → i < n → below i = false) :
    bisect below fuel low high ≤ n ∧ (∀ i < bisect below fuel low high, below i = true) ∧
      ∀ i, bisect below fuel low high ≤ i → i < n → below i = false := by
  induction fuel generalizing low high with
  | zero =>
    have heq : high = low := by omega
    exact ⟨Nat.le_trans hle hhigh, hlow, heq ▸ hup⟩
  | succ fuel ih =>
    unfold bisect
    split
    · next hlt =>
      dsimp only
      cases hmiddle : below ((low + high) / 2) with
      | true =>
        rw [if_pos rfl]
        refine ih hhigh (by omega) (by omega) (fun i hi => ?_) hup
        exact hmono i _ (by omega) (by omega) hmiddle
      | false =>
        rw [if_neg Bool.false_ne_true]
        refine ih (by omega) (by omega) (by omega) hlow fun i hi hn => ?_
        by_contra hbelow
        rw [Bool.not_eq_false] at hbelow
        rw [hmono _ i hi hn hbelow] at hmiddle
        cases hmiddle
    · next hge =>
      have heq : high = low := by omega
      exact ⟨Nat.le_trans hle hhigh, hlow, heq ▸ hup⟩

variable {σ ε : Type*}

/-- The search with a test that changes a state and may fail. -/
def bisectFrom (probe : σ → ℕ → σ × Except ε Bool) : ℕ → σ → ℕ → ℕ → σ × Except ε ℕ
  | 0, s, low, _ => (s, .ok low)
  | fuel + 1, s, low, high =>
    if low < high then
      let middle := (low + high) / 2
      match probe s middle with
      | (s, .error e) => (s, .error e)
      | (s, .ok true) => bisectFrom probe fuel s (middle + 1) high
      | (s, .ok false) => bisectFrom probe fuel s low middle
    else (s, .ok low)

/-- A test that keeps an invariant makes a search that keeps it. -/
theorem bisectFrom_inv {probe : σ → ℕ → σ × Except ε Bool} {n : ℕ} {I : σ → Prop}
    (hprobe : ∀ s i, I s → i < n → I (probe s i).1) (fuel : ℕ) {s : σ} (hs : I s) {low high : ℕ}
    (hhigh : high ≤ n) : I (bisectFrom probe fuel s low high).1 := by
  induction fuel generalizing s low high with
  | zero => exact hs
  | succ fuel ih =>
    unfold bisectFrom
    split
    · next hlt =>
      have hmiddle := hprobe s ((low + high) / 2) hs (by omega)
      dsimp only
      generalize probe s ((low + high) / 2) = answer at hmiddle
      obtain ⟨s', answered⟩ := answer
      rcases answered with e | _ | _
      · exact hmiddle
      · exact ih hmiddle (by omega)
      · exact ih hmiddle hhigh
    · exact hs

/-- A test that keeps an invariant, and answers as a plain one under it, makes the same search. -/
theorem bisectFrom_eq {probe : σ → ℕ → σ × Except ε Bool} {below : ℕ → Bool} {n : ℕ}
    {I : σ → Prop}
    (hprobe : ∀ s i, I s → i < n → I (probe s i).1 ∧ (probe s i).2 = .ok (below i)) (fuel : ℕ)
    {s : σ} (hs : I s) {low high : ℕ} (hhigh : high ≤ n) :
    I (bisectFrom probe fuel s low high).1 ∧
      (bisectFrom probe fuel s low high).2 = .ok (bisect below fuel low high) := by
  induction fuel generalizing s low high with
  | zero => exact ⟨hs, rfl⟩
  | succ fuel ih =>
    unfold bisectFrom bisect
    split
    · next hlt =>
      have hmiddle := hprobe s ((low + high) / 2) hs (by omega)
      dsimp only
      generalize probe s ((low + high) / 2) = answer at hmiddle
      obtain ⟨s', answered⟩ := answer
      obtain ⟨hs', rfl⟩ := hmiddle
      cases below ((low + high) / 2) with
      | true => exact ih hs' hhigh
      | false => exact ih hs' (by omega)
    · exact ⟨hs, rfl⟩

end QCrate.Lib
