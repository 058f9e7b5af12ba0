import Mathlib.Tactic
import Mathlib.Data.Int.Log

/-!
# Decimal arithmetic in a context

Decimal fractions, and the rounding of an exact result to the digits of a context: to the nearest
value with that many digits, ties to the even one. Comparisons are exact.

The limits on exponents are left out: what is below the smallest exponent is below every half step
there is here.

* `Decimal` — a sign, a coefficient and an exponent.
* `context` — the result of an operation.
* `le_context_iff` — when a rounded result reaches a value.
-/

namespace QCrate.Lib

/-- A decimal fraction. Its sign is apart, since a zero may be negative. -/
structure Decimal where
  negative : Bool
  coefficient : ℕ
  exponent : ℤ
  deriving DecidableEq, Repr

/-- The number without its sign. -/
def Decimal.magnitude (d : Decimal) : ℚ :=
  d.coefficient * 10 ^ d.exponent

def Decimal.value (d : Decimal) : ℚ :=
  if d.negative then -d.magnitude else d.magnitude

def Decimal.ofInt (n : ℤ) : Decimal :=
  ⟨decide (n < 0), n.natAbs, 0⟩

/-- The digits behind the point of a number that has finitely many. -/
def places (x : ℚ) : ℕ :=
  max (padicValNat 2 x.den) (padicValNat 5 x.den)

/-- The decimal fraction of a result. Its zero is not negative: a difference of equal numbers is
positive zero. -/
def Decimal.ofRat (x : ℚ) : Decimal :=
  ⟨decide (x < 0), (|x| * 10 ^ places |x|).num.natAbs, -places |x|⟩

theorem Decimal.magnitude_nonneg (d : Decimal) : 0 ≤ d.magnitude := by
  unfold magnitude
  positivity

/-! ## Rounding to an integer -/

/-- The nearest integer, ties away from zero. -/
def roundHalfUp (x : ℚ) : ℤ :=
  if 0 ≤ x then ⌊x + 1 / 2⌋ else -⌊-x + 1 / 2⌋

/-- The nearest integer, ties to the even one. -/
def roundHalfEven (x : ℚ) : ℤ :=
  if x - ⌊x⌋ < 1 / 2 then ⌊x⌋
  else if 1 / 2 < x - ⌊x⌋ then ⌊x⌋ + 1
  else if ⌊x⌋ % 2 = 0 then ⌊x⌋
  else ⌊x⌋ + 1

theorem roundHalfUp_of_nonneg {x : ℚ} (hx : 0 ≤ x) : roundHalfUp x = ⌊x + 1 / 2⌋ :=
  if_pos hx

theorem roundHalfEven_intCast (n : ℤ) : roundHalfEven n = n := by
  unfold roundHalfEven
  rw [Int.floor_intCast, if_pos (by norm_num)]

theorem roundHalfEven_le (x : ℚ) : (roundHalfEven x : ℚ) ≤ x + 1 / 2 := by
  have hle := Int.floor_le x
  unfold roundHalfEven
  split
  · linarith
  · split
    · push_cast
      linarith
    · split
      · linarith
      · push_cast
        linarith

theorem le_roundHalfEven (x : ℚ) : x - 1 / 2 ≤ roundHalfEven x := by
  have hlt := Int.lt_floor_add_one x
  unfold roundHalfEven
  split
  · linarith
  · split
    · push_cast
      linarith
    · split
      · linarith
      · push_cast
        linarith

/-- Rounding does not cross an integer. -/
theorem roundHalfEven_le_of_le {x : ℚ} {n : ℤ} (h : x ≤ n) : roundHalfEven x ≤ n := by
  have hround := roundHalfEven_le x
  have hlt : (roundHalfEven x : ℚ) < n + 1 := by linarith
  exact Int.lt_add_one_iff.mp (by exact_mod_cast hlt)

theorem le_roundHalfEven_of_le {x : ℚ} {n : ℤ} (h : (n : ℚ) ≤ x) : n ≤ roundHalfEven x := by
  have hround := le_roundHalfEven x
  have hlt : (n : ℚ) < roundHalfEven x + 1 := by linarith
  exact Int.lt_add_one_iff.mp (by exact_mod_cast hlt)

/-- An even integer wins its ties. -/
theorem le_roundHalfEven_iff {x : ℚ} {n : ℤ} (hn : n % 2 = 0) :
    n ≤ roundHalfEven x ↔ (n : ℚ) - 1 / 2 ≤ x := by
  constructor
  · intro h
    have hcast : (n : ℚ) ≤ roundHalfEven x := by exact_mod_cast h
    linarith [roundHalfEven_le x]
  · intro h
    by_cases hx : (n : ℚ) ≤ x
    · exact le_roundHalfEven_of_le hx
    · have hfloor : ⌊x⌋ = n - 1 := by
        rw [Int.floor_eq_iff]
        push_cast
        constructor <;> linarith
      unfold roundHalfEven
      rw [hfloor]
      push_cast
      split_ifs <;> first | omega | linarith

/-! ## The context -/

/-- The weight of the last digit of a value with so many digits. -/
def ulp (precision : ℕ) (x : ℚ) : ℚ :=
  10 ^ (Int.log 10 |x| + 1 - precision)

/-- The exact result of an operation rounded to the digits of the context. -/
def context (precision : ℕ) (x : ℚ) : ℚ :=
  if x = 0 then 0 else roundHalfEven (x / ulp precision x) * ulp precision x

variable {p : ℕ} {x y : ℚ}

theorem ulp_pos (p : ℕ) (x : ℚ) : 0 < ulp p x :=
  zpow_pos (by norm_num) _

@[simp] theorem context_zero (p : ℕ) : context p 0 = 0 :=
  if_pos rfl

theorem context_of_ne (hx : x ≠ 0) : context p x = roundHalfEven (x / ulp p x) * ulp p x :=
  if_neg hx

/-- A value with no more digits than the context is not rounded. -/
theorem context_of_eq {n : ℤ} (h : x = n * ulp p x) : context p x = x := by
  by_cases hx : x = 0
  · rw [hx, context_zero]
  · have hdiv : x / ulp p x = n := by
      rw [div_eq_iff (ulp_pos p x).ne']
      exact h
    rw [context_of_ne hx, hdiv, roundHalfEven_intCast]
    exact h.symm

/-- A value with `j` digits behind the point, and no more in all than the context, is not
rounded. -/
theorem context_exact {j : ℕ} {n : ℤ} (h : x * 10 ^ j = n) (hlt : |x| < 10 ^ ((p : ℤ) - j)) :
    context p x = x := by
  by_cases hx : x = 0
  · rw [hx, context_zero]
  · have hlog : Int.log 10 |x| < (p : ℤ) - j := by
      rw [← Int.lt_zpow_iff_log_lt (by norm_num) (abs_pos.mpr hx)]
      exact_mod_cast hlt
    obtain ⟨d, hd⟩ := Int.eq_ofNat_of_zero_le
      (show 0 ≤ (p : ℤ) - j - (Int.log 10 |x| + 1) by omega)
    refine @context_of_eq p x (n * 10 ^ d) ?_
    have hten : (10 : ℚ) ≠ 0 := by norm_num
    have hj : (10 : ℚ) ^ (d : ℤ) * ulp p x = (10 ^ j)⁻¹ := by
      unfold ulp
      rw [← zpow_add₀ hten, ← zpow_natCast, ← zpow_neg]
      congr 1
      omega
    push_cast
    rw [mul_assoc, ← zpow_natCast, hj, ← h]
    field_simp

theorem context_nonneg (hx : 0 ≤ x) : 0 ≤ context p x := by
  by_cases h0 : x = 0
  · rw [h0, context_zero]
  · have hround : (0 : ℤ) ≤ roundHalfEven (x / ulp p x) :=
      le_roundHalfEven_of_le (by simpa using div_nonneg hx (ulp_pos p x).le)
    rw [context_of_ne h0]
    exact mul_nonneg (by exact_mod_cast hround) (ulp_pos p x).le

/-- The leading digit weighs `10 ^ (p - 1)` units of the last. -/
theorem mul_ulp (hp : 0 < p) (x : ℚ) : 10 ^ (p - 1) * ulp p x = 10 ^ Int.log 10 |x| := by
  unfold ulp
  rw [← zpow_natCast, ← zpow_add₀ (by norm_num)]
  congr 1
  omega

theorem log_le (hx : 0 < x) : (10 : ℚ) ^ Int.log 10 |x| ≤ x := by
  rw [abs_of_pos hx]
  exact_mod_cast Int.zpow_log_le_self (by norm_num) hx

theorem lt_log (hx : 0 < x) : x < (10 : ℚ) ^ (Int.log 10 |x| + 1) := by
  rw [abs_of_pos hx]
  exact_mod_cast Int.lt_zpow_succ_log_self (by norm_num) x

theorem ulp_le (hp : 0 < p) (hx : 0 < x) : ulp p x ≤ x / 10 ^ (p - 1) := by
  rw [le_div_iff₀ (by positivity), mul_comm, mul_ulp hp]
  exact log_le hx

/-- The error of the context is half a unit of the last digit. -/
theorem context_le (hx : 0 < x) : context p x ≤ x + ulp p x / 2 := by
  have hround := roundHalfEven_le (x / ulp p x)
  have hu := ulp_pos p x
  rw [context_of_ne hx.ne']
  calc (roundHalfEven (x / ulp p x) : ℚ) * ulp p x
      ≤ (x / ulp p x + 1 / 2) * ulp p x := mul_le_mul_of_nonneg_right hround hu.le
    _ = x + ulp p x / 2 := by field_simp

theorem le_context (hx : 0 < x) : x - ulp p x / 2 ≤ context p x := by
  have hround := le_roundHalfEven (x / ulp p x)
  have hu := ulp_pos p x
  rw [context_of_ne hx.ne']
  calc x - ulp p x / 2 = (x / ulp p x - 1 / 2) * ulp p x := by field_simp
    _ ≤ roundHalfEven (x / ulp p x) * ulp p x := mul_le_mul_of_nonneg_right hround hu.le

/-- Rounding does not leave the decade. -/
theorem log_le_context (hp : 0 < p) (hx : 0 < x) :
    (10 : ℚ) ^ Int.log 10 |x| ≤ context p x := by
  have hu := ulp_pos p x
  have hle : ((10 ^ (p - 1) : ℤ) : ℚ) ≤ x / ulp p x := by
    rw [le_div_iff₀ hu]
    push_cast
    rw [mul_ulp hp]
    exact log_le hx
  have hround : ((10 ^ (p - 1) : ℤ) : ℚ) ≤ roundHalfEven (x / ulp p x) := by
    exact_mod_cast le_roundHalfEven_of_le hle
  rw [context_of_ne hx.ne', ← mul_ulp hp]
  push_cast at hround
  exact mul_le_mul_of_nonneg_right hround hu.le

theorem context_le_log (hp : 0 < p) (hx : 0 < x) :
    context p x ≤ (10 : ℚ) ^ (Int.log 10 |x| + 1) := by
  have hu := ulp_pos p x
  have hpow : (10 : ℚ) ^ (Int.log 10 |x| + 1) = 10 ^ p * ulp p x := by
    obtain ⟨n, rfl⟩ : ∃ n, p = n + 1 := ⟨p - 1, by omega⟩
    rw [zpow_add_one₀ (by norm_num), ← mul_ulp hp, Nat.add_sub_cancel]
    ring
  have hle : x / ulp p x ≤ ((10 ^ p : ℤ) : ℚ) := by
    rw [div_le_iff₀ hu]
    push_cast
    rw [← hpow]
    exact (lt_log hx).le
  have hround : (roundHalfEven (x / ulp p x) : ℚ) ≤ ((10 ^ p : ℤ) : ℚ) := by
    exact_mod_cast roundHalfEven_le_of_le hle
  rw [context_of_ne hx.ne', hpow]
  push_cast at hround
  exact mul_le_mul_of_nonneg_right hround hu.le

/-- A rounded result reaches a value with an even last digit, not a power of ten, when the exact
one is at most half a unit of the last digit below it. -/
theorem le_context_iff (hp : 0 < p) (hx : 0 ≤ x) (hy : 0 < y) {n : ℤ} (hn : n % 2 = 0)
    (hyn : y = n * ulp p y) (hten : (10 : ℚ) ^ Int.log 10 |y| < y) :
    y ≤ context p x ↔ y - ulp p y / 2 ≤ x := by
  have hu := ulp_pos p y
  have hdecade : (10 : ℚ) ^ Int.log 10 |y| ≤ y - ulp p y := by
    have hlt : ((10 ^ (p - 1) : ℤ) : ℚ) < n := by
      rw [← mul_ulp hp] at hten
      push_cast
      exact lt_of_mul_lt_mul_right (hyn ▸ hten) hu.le
    have hle : ((10 ^ (p - 1) : ℤ) : ℚ) ≤ n - 1 := by
      exact_mod_cast Int.le_sub_one_of_lt (by exact_mod_cast hlt)
    calc (10 : ℚ) ^ Int.log 10 |y| = ((10 ^ (p - 1) : ℤ) : ℚ) * ulp p y := by
          rw [← mul_ulp hp]
          push_cast
          rfl
      _ ≤ (n - 1) * ulp p y := mul_le_mul_of_nonneg_right hle hu.le
      _ = y - ulp p y := by rw [sub_mul, ← hyn, one_mul]
  have hpow : (0 : ℚ) < 10 ^ Int.log 10 |y| := zpow_pos (by norm_num) _
  have hmono : ∀ {a b : ℤ}, a ≤ b → (10 : ℚ) ^ a ≤ 10 ^ b := fun h =>
    zpow_le_zpow_right₀ (by norm_num) h
  obtain rfl | hx := hx.eq_or_lt
  · rw [context_zero]
    constructor <;> intro h <;> linarith
  rcases lt_trichotomy (Int.log 10 |x|) (Int.log 10 |y|) with hlog | hlog | hlog
  · -- a smaller decade: neither side holds
    have hsmall := hmono (Int.add_one_le_of_lt hlog)
    have hcx := context_le_log hp hx
    have hxl := lt_log hx
    constructor <;> intro h <;> linarith
  · -- the same decade: the two are multiples of one unit
    have hulp : ulp p x = ulp p y := by
      unfold ulp
      rw [hlog]
    have hiff := le_roundHalfEven_iff (x := x / ulp p y) hn
    have hleft : y ≤ context p x ↔ n ≤ roundHalfEven (x / ulp p y) := by
      rw [context_of_ne hx.ne', hulp]
      nth_rewrite 1 [hyn]
      rw [mul_le_mul_iff_left₀ hu]
      exact Int.cast_le
    rw [hleft, hiff, le_div_iff₀ hu, sub_mul, ← hyn]
    constructor <;> intro h <;> linarith
  · -- a larger decade: both sides hold
    have hlarge := hmono (Int.add_one_le_of_lt hlog)
    have hcx := log_le_context hp hx
    have hxl := log_le hx
    have hyl := lt_log hy
    constructor <;> intro h <;> linarith

end QCrate.Lib
