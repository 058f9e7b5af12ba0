import Mathlib.Tactic

/-!
# Folds that stop at the first error

A loop that handles one input after another and gives up at the first failure is a `foldlM` in
`Except`. An invariant of the loop body is an invariant of the loop, and when the body says which
inputs it fails on, so does the loop.

* `foldlM_spec` — both at once.
-/

namespace QCrate.Lib

variable {σ α ε : Type*} {f : σ → α → Except ε σ}

/-- The fold meets an input that is bad for the state it is in. -/
def Breaks (f : σ → α → Except ε σ) (Bad : σ → α → Prop) (l : List α) (s : σ) : Prop :=
  ∃ before a after s₁, l = before ++ a :: after ∧ before.foldlM f s = .ok s₁ ∧ Bad s₁ a

@[simp] theorem foldlM_nil (s : σ) : [].foldlM f s = .ok s := rfl

theorem foldlM_cons_ok {a : α} {l : List α} {s s₁ : σ} (h : f s a = .ok s₁) :
    (a :: l).foldlM f s = l.foldlM f s₁ := by
  rw [List.foldlM_cons, h]
  rfl

theorem foldlM_cons_error {a : α} {l : List α} {s : σ} {e : ε} (h : f s a = .error e) :
    (a :: l).foldlM f s = .error e := by
  rw [List.foldlM_cons, h]
  rfl

theorem foldlM_append_ok {l₁ l₂ : List α} {s s₁ : σ} (h : l₁.foldlM f s = .ok s₁) :
    (l₁ ++ l₂).foldlM f s = l₂.foldlM f s₁ := by
  rw [List.foldlM_append, h]
  rfl

theorem breaks_singleton {Bad : σ → α → Prop} {a : α} {s : σ} :
    Breaks f Bad [a] s ↔ Bad s a := by
  constructor
  · rintro ⟨before, b, after, s₁, heq, hrun, hbad⟩
    cases before with
    | nil =>
      cases heq
      cases hrun
      exact hbad
    | cons c before => simp at heq
  · intro h
    exact ⟨[], a, [], s, rfl, rfl, h⟩

theorem breaks_cons {Bad : σ → α → Prop} {a : α} {l : List α} {s s₁ : σ} (h : f s a = .ok s₁) :
    Breaks f Bad (a :: l) s ↔ Bad s a ∨ Breaks f Bad l s₁ := by
  constructor
  · rintro ⟨before, b, after, s₂, heq, hrun, hbad⟩
    cases before with
    | nil =>
      cases heq
      cases hrun
      exact .inl hbad
    | cons c before =>
      cases heq
      rw [foldlM_cons_ok h] at hrun
      exact .inr ⟨before, b, after, s₂, rfl, hrun, hbad⟩
  · rintro (hbad | ⟨before, b, after, s₂, rfl, hrun, hbad⟩)
    · exact ⟨[], a, l, s, rfl, rfl, hbad⟩
    · refine ⟨a :: before, b, after, s₂, rfl, ?_, hbad⟩
      rw [foldlM_cons_ok h]
      exact hrun

theorem Breaks.append {Bad : σ → α → Prop} {l₁ : List α} {s : σ} (h : Breaks f Bad l₁ s)
    (l₂ : List α) : Breaks f Bad (l₁ ++ l₂) s := by
  obtain ⟨before, a, after, s₁, rfl, hrun, hbad⟩ := h
  exact ⟨before, a, after ++ l₂, s₁, by simp, hrun, hbad⟩

/-- A fold over `l₁ ++ [a]` breaks in `l₁` or at `a`. -/
theorem breaks_concat {Bad : σ → α → Prop} {l : List α} {a : α} {s s₁ : σ}
    (h : l.foldlM f s = .ok s₁) :
    Breaks f Bad (l ++ [a]) s ↔ Breaks f Bad l s ∨ Bad s₁ a := by
  constructor
  · rintro ⟨before, b, after, s₂, heq, hrun, hbad⟩
    rcases List.eq_nil_or_concat after with rfl | ⟨rest, c, rfl⟩
    · obtain ⟨rfl, hab⟩ := List.append_inj' heq rfl
      cases hab
      rw [h] at hrun
      cases hrun
      exact .inr hbad
    · have heq' : l ++ [a] = (before ++ b :: rest) ++ [c] := by simp [heq]
      obtain ⟨rfl, -⟩ := List.append_inj' heq' rfl
      exact .inl ⟨before, b, rest, s₂, rfl, hrun, hbad⟩
  · rintro (hl | hbad)
    · exact hl.append [a]
    · exact ⟨l, a, [], s₁, rfl, h, hbad⟩

/-- When the body keeps `I` on good inputs and fails with `E` on bad ones, so does the loop. -/
theorem foldlM_spec {I : σ → Prop} {E : ε → Prop} {Bad : σ → α → Prop}
    (hok : ∀ s a s', I s → f s a = .ok s' → I s' ∧ ¬ Bad s a)
    (herr : ∀ s a e, I s → f s a = .error e → E e ∧ Bad s a) {l : List α} {s : σ} (hs : I s) :
    (∃ s', l.foldlM f s = .ok s' ∧ I s' ∧ ¬ Breaks f Bad l s) ∨
      ∃ e, l.foldlM f s = .error e ∧ E e ∧ Breaks f Bad l s := by
  induction l generalizing s with
  | nil =>
    refine .inl ⟨s, rfl, hs, ?_⟩
    rintro ⟨before, a, after, -, h, -⟩
    simp at h
  | cons a l ih =>
    cases hfa : f s a with
    | error e =>
      obtain ⟨hE, hbad⟩ := herr s a e hs hfa
      exact .inr ⟨e, foldlM_cons_error hfa, hE, [], a, l, s, rfl, rfl, hbad⟩
    | ok s₁ =>
      obtain ⟨hs₁, hgood⟩ := hok s a s₁ hs hfa
      rw [foldlM_cons_ok hfa]
      rcases ih hs₁ with ⟨s', h, hI, hnot⟩ | ⟨e, h, hE, before, b, after, s₂, rfl, hrun, hbad⟩
      · refine .inl ⟨s', h, hI, ?_⟩
        rintro ⟨before, b, after, s₂, heq, hrun, hbad⟩
        cases before with
        | nil =>
          cases heq
          cases hrun
          exact hgood hbad
        | cons c before =>
          cases heq
          rw [foldlM_cons_ok hfa] at hrun
          exact hnot ⟨before, b, after, s₂, rfl, hrun, hbad⟩
      · refine .inr ⟨e, h, hE, a :: before, b, after, s₂, rfl, ?_, hbad⟩
        rw [foldlM_cons_ok hfa]
        exact hrun

/-- When each turn keeps `P` unless its input is bad, so does the loop. -/
theorem foldlM_iff {I P : σ → Prop} {Bad : σ → α → Prop}
    (h : ∀ s a s', I s → f s a = .ok s' → I s' ∧ (P s' ↔ P s ∧ ¬ Bad s a)) {l : List α}
    {s s' : σ} (hs : I s) (hl : l.foldlM f s = .ok s') : P s' ↔ P s ∧ ¬ Breaks f Bad l s := by
  induction l generalizing s with
  | nil =>
    cases hl
    refine (and_iff_left ?_).symm
    rintro ⟨before, a, after, -, heq, -⟩
    simp at heq
  | cons a l ih =>
    cases hfa : f s a with
    | error e =>
      rw [foldlM_cons_error hfa] at hl
      cases hl
    | ok s₁ =>
      obtain ⟨hs₁, hiff⟩ := h s a s₁ hs hfa
      rw [foldlM_cons_ok hfa] at hl
      rw [ih hs₁ hl, hiff, breaks_cons hfa, and_assoc, ← not_or]

/-- The part about the invariant alone. -/
theorem foldlM_invariant {I : σ → Prop} (h : ∀ s a s', I s → f s a = .ok s' → I s')
    {l : List α} {s s' : σ} (hs : I s) (hl : l.foldlM f s = .ok s') : I s' := by
  induction l generalizing s with
  | nil =>
    cases hl
    exact hs
  | cons a l ih =>
    cases hfa : f s a with
    | error e =>
      rw [foldlM_cons_error hfa] at hl
      cases hl
    | ok s₁ =>
      rw [foldlM_cons_ok hfa] at hl
      exact ih (h s a s₁ hs hfa) hl

end QCrate.Lib
