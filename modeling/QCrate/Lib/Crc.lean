import Mathlib.Algebra.CharP.Two
import Mathlib.Algebra.Polynomial.Div
import Mathlib.Tactic

/-!
# Cyclic redundancy checks

A register that is shifted bit by bit holds the remainder of the message by the generator, over
the field of two elements. Bit zero of the register is its highest coefficient, and the message
comes in words whose bit zero comes first.

* `reflected` — the polynomial of a word.
* `dvd_crcShift` — a shift multiplies by `X` modulo the generator.
* `reflected_crcUpdate` — after any message the register holds the remainder.
* `ofReflected_reflected` — a polynomial of this kind determines the word.
-/

namespace QCrate.Lib

open Polynomial

variable {w k : ℕ}

/-! ## Words as polynomials -/

/-- The polynomial of a word, its bit zero the highest coefficient. -/
noncomputable def reflected (c : BitVec w) : (ZMod 2)[X] :=
  ∑ i ∈ Finset.range w, if c.getLsbD i then X ^ (w - 1 - i) else 0

/-- The word of a polynomial that is one of a word. -/
noncomputable def ofReflected (w : ℕ) (q : (ZMod 2)[X]) : BitVec w := Function.invFun reflected q

@[simp] theorem reflected_zero : reflected (0#w) = 0 := by
  simp [reflected]

theorem reflected_xor (a b : BitVec w) : reflected (a ^^^ b) = reflected a + reflected b := by
  unfold reflected
  rw [← Finset.sum_add_distrib]
  refine Finset.sum_congr rfl fun i _ => ?_
  rw [BitVec.getLsbD_xor]
  cases a.getLsbD i <;> cases b.getLsbD i <;> simp [CharTwo.add_self_eq_zero]

theorem coeff_reflected (c : BitVec w) {i : ℕ} (hi : i < w) :
    (reflected c).coeff (w - 1 - i) = if c.getLsbD i then 1 else 0 := by
  unfold reflected
  rw [finsetSum_coeff, Finset.sum_eq_single i]
  · cases c.getLsbD i <;> simp
  · intro j hj hne
    rw [Finset.mem_range] at hj
    have hexp : w - 1 - i ≠ w - 1 - j := by omega
    cases c.getLsbD j <;> simp [coeff_X_pow, hexp]
  · intro h
    exact absurd (Finset.mem_range.mpr hi) h

theorem reflected_injective : Function.Injective (reflected : BitVec w → (ZMod 2)[X]) := by
  intro a b h
  apply BitVec.eq_of_getLsbD_eq
  intro i hi
  have hcoeff := congrArg (·.coeff (w - 1 - i)) h
  rw [coeff_reflected a hi, coeff_reflected b hi] at hcoeff
  cases ha : a.getLsbD i <;> cases hb : b.getLsbD i <;> simp_all

theorem ofReflected_reflected (c : BitVec w) : ofReflected w (reflected c) = c :=
  Function.leftInverse_invFun reflected_injective c

theorem degree_reflected_lt (c : BitVec w) : (reflected c).degree < w := by
  rw [← mem_degreeLT]
  refine Submodule.sum_mem _ fun i hi => ?_
  rw [Finset.mem_range] at hi
  rw [mem_degreeLT]
  split
  · rw [degree_X_pow]
    exact_mod_cast (by omega : w - 1 - i < w)
  · rw [degree_zero]
    exact WithBot.bot_lt_coe w

/-! ## The shift -/

/-- One bit of a reflected register with feedback `p`. -/
def crcShift (p c : BitVec w) : BitVec w := (c >>> 1) ^^^ (if c.getLsbD 0 then p else 0)

/-- The generator that the feedback stands for. -/
noncomputable def crcGenerator (p : BitVec w) : (ZMod 2)[X] := X ^ w + reflected p

theorem crcGenerator_monic (p : BitVec w) : (crcGenerator p).Monic :=
  monic_X_pow_add (degree_reflected_lt p)

/-- A shift to the right moves every coefficient up, and bit zero out. -/
theorem reflected_ushiftRight (c : BitVec w) (hw : 0 < w) :
    X * reflected c = reflected (c >>> 1) + if c.getLsbD 0 then X ^ w else 0 := by
  obtain ⟨w, rfl⟩ := Nat.exists_eq_succ_of_ne_zero hw.ne'
  have hout : c.getLsbD (1 + w) = false := BitVec.getLsbD_of_ge _ _ (by omega)
  unfold reflected
  rw [Finset.sum_range_succ', Finset.sum_range_succ]
  simp only [BitVec.getLsbD_ushiftRight, hout, Bool.false_eq_true, if_false, add_zero, mul_add,
    Finset.mul_sum, mul_ite, mul_zero, Nat.succ_sub_one, Nat.sub_zero, ← pow_succ']
  congr 1
  refine Finset.sum_congr rfl fun i hi => ?_
  rw [Finset.mem_range] at hi
  rw [Nat.add_comm 1 i, show w - (i + 1) + 1 = w - i by omega]

/-- A shift multiplies by `X` modulo the generator. -/
theorem dvd_crcShift (p c : BitVec w) (hw : 0 < w) :
    crcGenerator p ∣ X * reflected c - reflected (crcShift p c) := by
  unfold crcShift crcGenerator
  rw [reflected_xor, reflected_ushiftRight c hw]
  cases c.getLsbD 0 with
  | false => simp
  | true =>
    rw [if_pos rfl, if_pos rfl, add_sub_add_left_eq_sub, CharTwo.sub_eq_add]

/-- `n` shifts multiply by the power of `X`. -/
theorem dvd_iterate_crcShift (p : BitVec w) (hw : 0 < w) (n : ℕ) (c : BitVec w) :
    crcGenerator p ∣ X ^ n * reflected c - reflected ((crcShift p)^[n] c) := by
  induction n generalizing c with
  | zero => simp
  | succ n ih =>
    have hfirst := (dvd_crcShift p c hw).mul_left (X ^ n)
    have hsum := dvd_add hfirst (ih (crcShift p c))
    rw [Function.iterate_succ_apply]
    have hring : X ^ n * (X * reflected c - reflected (crcShift p c)) +
        (X ^ n * reflected (crcShift p c) - reflected ((crcShift p)^[n] (crcShift p c))) =
        X ^ (n + 1) * reflected c - reflected ((crcShift p)^[n] (crcShift p c)) := by
      ring
    rwa [hring] at hsum

/-! ## Messages -/

/-- The polynomial of a message of `k`-bit words. -/
noncomputable def messagePoly : List (BitVec k) → (ZMod 2)[X]
  | [] => 0
  | b :: rest => reflected b * X ^ (k * rest.length) + messagePoly rest

/-- The register after a message: each word is added to it and shifted through. -/
def crcUpdate (p c : BitVec w) (data : List (BitVec k)) : BitVec w :=
  data.foldl (fun c b => (crcShift p)^[k] (c ^^^ b.setWidth w)) c

/-- The remainder of a message behind a register. -/
noncomputable def crcRemainder (g : (ZMod 2)[X]) (c : BitVec w) (data : List (BitVec k)) :
    (ZMod 2)[X] :=
  (reflected c * X ^ (k * data.length) + messagePoly data * X ^ w) %ₘ g

/-- A word of the message enters at the top of the register. -/
theorem reflected_setWidth (b : BitVec k) (hk : k ≤ w) :
    X ^ k * reflected (b.setWidth w) = reflected b * X ^ w := by
  unfold reflected
  have hsplit : Finset.range w = Finset.range k ∪ Finset.Ico k w := by
    ext i
    simp only [Finset.mem_range, Finset.mem_union, Finset.mem_Ico]
    omega
  -- the bits above the word are 0
  have hhigh : ∑ i ∈ Finset.Ico k w,
      (if (b.setWidth w).getLsbD i then (X : (ZMod 2)[X]) ^ (w - 1 - i) else 0) = 0 := by
    refine Finset.sum_eq_zero fun i hi => ?_
    rw [Finset.mem_Ico] at hi
    simp [BitVec.getLsbD_setWidth, BitVec.getLsbD_of_ge b i hi.1]
  rw [hsplit, Finset.sum_union (Finset.disjoint_left.mpr fun i hi hi' => by
    rw [Finset.mem_range] at hi
    rw [Finset.mem_Ico] at hi'
    omega), hhigh, add_zero, Finset.mul_sum, Finset.sum_mul]
  refine Finset.sum_congr rfl fun i hi => ?_
  rw [Finset.mem_range] at hi
  have hbit : (b.setWidth w).getLsbD i = b.getLsbD i := by
    rw [BitVec.getLsbD_setWidth, decide_eq_true (by omega : i < w), Bool.true_and]
  rw [hbit]
  split
  · rw [← pow_add, ← pow_add]
    congr 1
    omega
  · simp

theorem dvd_crcUpdate (p : BitVec w) (hw : 0 < w) (hk : k ≤ w) (data : List (BitVec k))
    (c : BitVec w) : crcGenerator p ∣
      reflected c * X ^ (k * data.length) + messagePoly data * X ^ w -
        reflected (crcUpdate p c data) := by
  induction data generalizing c with
  | nil => simp [messagePoly, crcUpdate]
  | cons b rest ih =>
    have hword := (dvd_iterate_crcShift p hw k (c ^^^ b.setWidth w)).mul_right
      (X ^ (k * rest.length))
    have hsum := dvd_add hword (ih ((crcShift p)^[k] (c ^^^ b.setWidth w)))
    rw [reflected_xor, mul_add, reflected_setWidth b hk] at hsum
    -- the two differences add up, since the register between the words cancels
    have hring : (X ^ k * reflected c + reflected b * X ^ w -
          reflected ((crcShift p)^[k] (c ^^^ b.setWidth w))) * X ^ (k * rest.length) +
        (reflected ((crcShift p)^[k] (c ^^^ b.setWidth w)) * X ^ (k * rest.length) +
          messagePoly rest * X ^ w -
          reflected (crcUpdate p ((crcShift p)^[k] (c ^^^ b.setWidth w)) rest)) =
        reflected c * X ^ (k * (b :: rest).length) + messagePoly (b :: rest) * X ^ w -
          reflected (crcUpdate p c (b :: rest)) := by
      have hupdate : crcUpdate p c (b :: rest) =
          crcUpdate p ((crcShift p)^[k] (c ^^^ b.setWidth w)) rest := rfl
      rw [hupdate, messagePoly, List.length_cons]
      ring
    rwa [hring] at hsum

/-- After any message the register holds the remainder. -/
theorem reflected_crcUpdate (p : BitVec w) (hw : 0 < w) (hk : k ≤ w) (c : BitVec w)
    (data : List (BitVec k)) :
    reflected (crcUpdate p c data) = crcRemainder (crcGenerator p) c data := by
  have hdegree : (crcGenerator p).degree = w := by
    unfold crcGenerator
    rw [degree_add_eq_left_of_degree_lt]
    · exact degree_X_pow w
    · rw [degree_X_pow]
      exact degree_reflected_lt p
  obtain ⟨q, hq⟩ := dvd_crcUpdate p hw hk data c
  refine ((div_modByMonic_unique q _ (crcGenerator_monic p) ⟨?_, ?_⟩).2).symm
  · rw [← hq]
    ring
  · rw [hdegree]
    exact degree_reflected_lt _

theorem crcUpdate_eq (p : BitVec w) (hw : 0 < w) (hk : k ≤ w) (c : BitVec w)
    (data : List (BitVec k)) :
    crcUpdate p c data = ofReflected w (crcRemainder (crcGenerator p) c data) := by
  rw [← reflected_crcUpdate p hw hk, ofReflected_reflected]

end QCrate.Lib
