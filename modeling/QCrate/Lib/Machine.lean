import Mathlib.Tactic.TypeStar

/-!
# Machines and their runs

A machine is a partial step function: `step s a = none` says that action `a` cannot happen in `s`.
A run is a list of actions, so every statement about "any interleaving" quantifies over lists,
and a concrete schedule can be evaluated.

Two rules carry the inductions of the whole development.

* `run_invariant` — a predicate preserved by one step is preserved by a run.
* `meets_of_invariant` — when one step keeps an invariant and has a property, every step
  of a run has the property. Both rules take a side condition on the steps, for the results
  that only hold of runs whose steps are well behaved.

And one carries progress.

* `due_rounds` — when the one whose turn it is brings the end closer, rounds lead to it.
-/

namespace QCrate.Lib

/-- A transition system given by a partial step function. -/
structure Machine (σ α : Type*) where
  step : σ → α → Option σ

namespace Machine

variable {σ α : Type*} (M : Machine σ α)

/-- Perform the actions of a list in order. -/
def run : σ → List α → Option σ
  | s, [] => some s
  | s, a :: l => (M.step s a).bind (run · l)

/-- Every step of the run of `l` from `s` is related to its two states by `C`. -/
def Meets (C : σ → α → σ → Prop) : σ → List α → Prop
  | _, [] => True
  | s, a :: l => ∀ s', M.step s a = some s' → C s a s' ∧ Meets C s' l

instance meetsDecidable (C : σ → α → σ → Prop) [∀ s a s', Decidable (C s a s')] :
    ∀ (s : σ) (l : List α), Decidable (M.Meets C s l)
  | _, [] => isTrue trivial
  | s, a :: l =>
    match h : M.step s a with
    | none => isTrue fun s' hs => by rw [h] at hs; cases hs
    | some s₁ =>
      have := meetsDecidable C s₁ l
      decidable_of_iff (C s a s₁ ∧ M.Meets C s₁ l)
        ⟨fun hc s' hs => by rw [h] at hs; cases hs; exact hc, fun hm => hm s₁ h⟩

/-- The states a machine can be in when it starts from `s₀`. -/
def Reachable (s₀ s : σ) : Prop := ∃ l, M.run s₀ l = some s

@[simp] theorem run_nil (s : σ) : M.run s [] = some s := rfl

theorem run_cons {s s' : σ} {a : α} {l : List α} (h : M.run s (a :: l) = some s') :
    ∃ s₁, M.step s a = some s₁ ∧ M.run s₁ l = some s' :=
  Option.bind_eq_some_iff.mp h

theorem run_cons_of_step {s s₁ : σ} {a : α} {l : List α} (h : M.step s a = some s₁) :
    M.run s (a :: l) = M.run s₁ l := by
  simp [run, h]

theorem run_append (s : σ) (l₁ l₂ : List α) :
    M.run s (l₁ ++ l₂) = (M.run s l₁).bind (M.run · l₂) := by
  induction l₁ generalizing s with
  | nil => rfl
  | cons a l₁ ih =>
    simp only [List.cons_append, run]
    cases M.step s a with
    | none => rfl
    | some s₁ => exact ih s₁

theorem run_of_step {s s₁ : σ} {a : α} (h : M.step s a = some s₁) : M.run s [a] = some s₁ := by
  rw [M.run_cons_of_step h, run_nil]

variable {M} {C P : σ → α → σ → Prop} {I : σ → Prop}

theorem run_trans {s s₁ s₂ : σ} {l₁ l₂ : List α} (h₁ : M.run s l₁ = some s₁)
    (h₂ : M.run s₁ l₂ = some s₂) : M.run s (l₁ ++ l₂) = some s₂ := by
  rw [run_append, h₁]
  exact h₂

theorem Meets.and : ∀ {l : List α} {s : σ}, M.Meets C s l → M.Meets P s l →
    M.Meets (fun s a s' => C s a s' ∧ P s a s') s l
  | [], _, _, _ => trivial
  | _ :: _, _, hC, hP => fun s₁ h₁ =>
    ⟨⟨(hC s₁ h₁).1, (hP s₁ h₁).1⟩, (hC s₁ h₁).2.and (hP s₁ h₁).2⟩

/-- The two parts of a run meet what the run meets. -/
theorem Meets.append {l₁ l₂ : List α} {s s₁ : σ} (h : M.Meets C s (l₁ ++ l₂))
    (hrun : M.run s l₁ = some s₁) : M.Meets C s l₁ ∧ M.Meets C s₁ l₂ := by
  induction l₁ generalizing s with
  | nil =>
    cases hrun
    exact ⟨trivial, h⟩
  | cons b l₁ ih =>
    obtain ⟨s', hs', hrest⟩ := M.run_cons hrun
    obtain ⟨hb, htail⟩ := h s' hs'
    obtain ⟨h₁, h₂⟩ := ih htail hrest
    refine ⟨fun s'' hs'' => ?_, h₂⟩
    obtain rfl : s' = s'' := Option.some.inj (hs'.symm.trans hs'')
    exact ⟨hb, h₁⟩

/-- What a run meets, its step after `l₁` has. -/
theorem Meets.at {l₁ l₂ : List α} {s s₁ s₂ : σ} {a : α} (h : M.Meets C s (l₁ ++ a :: l₂))
    (hrun : M.run s l₁ = some s₁) (hstep : M.step s₁ a = some s₂) : C s₁ a s₂ :=
  ((h.append hrun).2 s₂ hstep).1

/-- One step keeps `I` whenever it meets `C`, so a run whose steps meet `C` keeps `I`. -/
theorem run_invariant
    (hstep : ∀ s a s', I s → M.step s a = some s' → C s a s' → I s') :
    ∀ {l : List α} {s s' : σ}, I s → M.Meets C s l → M.run s l = some s' → I s'
  | [], s, s', hs, _, h => by
    cases h
    exact hs
  | a :: l, s, s', hs, hC, h => by
    obtain ⟨s₁, h₁, h₂⟩ := M.run_cons h
    obtain ⟨hc, hrest⟩ := hC s₁ h₁
    exact run_invariant hstep (hstep s a s₁ hs h₁ hc) hrest h₂

/-- When steps that meet `C` keep `I` and have the property `P`, a run that meets `C` meets `P`. -/
theorem meets_of_invariant
    (hstep : ∀ s a s', I s → M.step s a = some s' → C s a s' → I s' ∧ P s a s') :
    ∀ {l : List α} {s : σ}, I s → M.Meets C s l → M.Meets P s l
  | [], _, _, _ => trivial
  | a :: l, s, hs, hC => by
    intro s₁ h₁
    obtain ⟨hc, hrest⟩ := hC s₁ h₁
    obtain ⟨hI, hP⟩ := hstep s a s₁ hs h₁ hc
    exact ⟨hP, meets_of_invariant hstep hI hrest⟩

/-- An invariant that every step keeps holds in every reachable state. -/
theorem Reachable.invariant {s₀ s : σ} (h : M.Reachable s₀ s) (h₀ : I s₀)
    (hstep : ∀ s a s', I s → M.step s a = some s' → I s') : I s := by
  obtain ⟨l, hl⟩ := h
  refine run_invariant (C := fun _ _ _ => True) (fun s a s' hs hst _ => hstep s a s' hs hst)
    h₀ ?_ hl
  clear hl
  induction l generalizing s₀ with
  | nil => trivial
  | cons a l ih => exact fun s₁ h₁ => ⟨trivial, ih (hstep s₀ a s₁ h₀ h₁)⟩

/-! ## Progress

Nothing is assumed about who moves how often. A round is a stretch of a run in which everybody
moves; what has `k` steps to go has at most `k - 1` to go after a round, when nobody can do harm and
the one whose turn it is brings it closer. -/

variable {τ : Type*} {Serves : τ → α → Prop} {Due : Nat → σ → Prop} {Waits : Nat → τ → σ → Prop}

theorem run_keeps (hkeep : ∀ s a s', I s → M.step s a = some s' → I s') {l : List α} {s s' : σ}
    (hs : I s) (h : M.run s l = some s') : I s' := by
  induction l generalizing s with
  | nil =>
    cases h
    exact hs
  | cons a l ih =>
    obtain ⟨s₁, h₁, h₂⟩ := M.run_cons h
    exact ih (hkeep s a s₁ hs h₁) h₂

/-- As long as nothing comes closer it stays the same one's turn. -/
theorem due_of_serves (hkeep : ∀ k s a s', Due k s → M.step s a = some s' → Due k s')
    (hstep : ∀ k t s a s', Waits (k + 1) t s → M.step s a = some s' →
      Due k s' ∨ Waits (k + 1) t s' ∧ ¬Serves t a)
    {k : Nat} {t : τ} {l : List α} {s s' : σ} (hs : Waits (k + 1) t s) (hl : ∃ a ∈ l, Serves t a)
    (h : M.run s l = some s') : Due k s' := by
  induction l generalizing s with
  | nil =>
    obtain ⟨a, ha, -⟩ := hl
    exact absurd ha List.not_mem_nil
  | cons a l ih =>
    obtain ⟨s₁, h₁, h₂⟩ := M.run_cons h
    rcases hstep k t s a s₁ hs h₁ with hdue | ⟨hwaits, hno⟩
    · exact run_keeps (hkeep k) hdue h₂
    · refine ih hwaits ?_ h₂
      obtain ⟨b, hb, hserves⟩ := hl
      rcases List.mem_cons.mp hb with rfl | hb
      · exact absurd hserves hno
      · exact ⟨b, hb, hserves⟩

/-- Rounds count down what is left to do. -/
theorem due_rounds (hkeep : ∀ k s a s', Due k s → M.step s a = some s' → Due k s')
    (hstep : ∀ k t s a s', Waits (k + 1) t s → M.step s a = some s' →
      Due k s' ∨ Waits (k + 1) t s' ∧ ¬Serves t a)
    (hturn : ∀ k s, Due (k + 1) s → Due k s ∨ ∃ t, Waits (k + 1) t s)
    {k : Nat} {rounds : List (List α)} {s s' : σ} (hs : Due k s) (hk : k ≤ rounds.length)
    (hall : ∀ l ∈ rounds, ∀ t, ∃ a ∈ l, Serves t a) (h : M.run s rounds.flatten = some s') :
    Due 0 s' := by
  induction rounds generalizing k s with
  | nil =>
    cases h
    obtain rfl : k = 0 := Nat.le_zero.mp hk
    exact hs
  | cons l rounds ih =>
    rw [List.flatten_cons, run_append] at h
    obtain ⟨s₁, h₁, h₂⟩ := Option.bind_eq_some_iff.mp h
    have hrest : ∀ l ∈ rounds, ∀ t, ∃ a ∈ l, Serves t a := fun l hl =>
      hall l (List.mem_cons_of_mem _ hl)
    cases k with
    | zero => exact ih (run_keeps (hkeep 0) hs h₁) (Nat.zero_le _) hrest h₂
    | succ k =>
      refine ih ?_ (Nat.le_of_succ_le_succ hk) hrest h₂
      rcases hturn k s hs with hdue | ⟨t, hwaits⟩
      · exact run_keeps (hkeep k) hdue h₁
      · exact due_of_serves hkeep hstep hwaits (hall l List.mem_cons_self t) h₁

end Machine

end QCrate.Lib
