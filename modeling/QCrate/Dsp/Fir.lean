import QCrate.Dsp.Chain

/-!
# The FIR filter

The filter sums 217 products of 18-bit samples and coefficients. The coefficients of the
repository are small enough for the 36-bit accumulator, and the quantizer narrows an accumulator
as the model does.

* `firCoefficients` — the tracked table.
* `windowDot_range` — a sum is bounded by the sum of the absolute coefficients.
* `roundSaturateAccumulator_toInt` — the biased shift of the quantizer is the rounding of the model.
* `fir_exact` — the filter behind an exact core is the model.
-/

namespace QCrate.Dsp

/-! ## The coefficients -/

/-- The words of `fir_decim16_q1_17.hex`. -/
def firTable : List ℕ :=
  [0x00003, 0x00003, 0x00004, 0x00004, 0x00005, 0x00005, 0x00005, 0x00005, 0x00004, 0x00003,
    0x00002, 0x00000, 0x3fffe, 0x3fffb, 0x3fff8, 0x3fff5, 0x3fff1, 0x3ffec, 0x3ffe8, 0x3ffe3,
    0x3ffde, 0x3ffd9, 0x3ffd5, 0x3ffd0, 0x3ffcd, 0x3ffca, 0x3ffc8, 0x3ffc7, 0x3ffc7, 0x3ffc9,
    0x3ffcd, 0x3ffd2, 0x3ffda, 0x3ffe3, 0x3ffef, 0x3fffc, 0x0000b, 0x0001d, 0x00030, 0x00044,
    0x00059, 0x0006f, 0x00086, 0x0009c, 0x000b2, 0x000c6, 0x000d8, 0x000e8, 0x000f5, 0x000fe,
    0x00102, 0x00101, 0x000fb, 0x000ef, 0x000dd, 0x000c4, 0x000a4, 0x0007e, 0x00051, 0x0001d,
    0x3ffe3, 0x3ffa4, 0x3ff61, 0x3ff1a, 0x3fed0, 0x3fe85, 0x3fe3a, 0x3fdf1, 0x3fdaa, 0x3fd69,
    0x3fd2e, 0x3fcfc, 0x3fcd4, 0x3fcb9, 0x3fcab, 0x3fcad, 0x3fcbf, 0x3fce4, 0x3fd1d, 0x3fd6a,
    0x3fdcc, 0x3fe44, 0x3fed2, 0x3ff76, 0x0002f, 0x000fc, 0x001dd, 0x002d0, 0x003d3, 0x004e4,
    0x00602, 0x00728, 0x00856, 0x00987, 0x00ab9, 0x00be8, 0x00d12, 0x00e32, 0x00f47, 0x0104b,
    0x0113e, 0x0121b, 0x012e1, 0x0138c, 0x0141b, 0x0148c, 0x014de, 0x01510, 0x01522, 0x01510,
    0x014de, 0x0148c, 0x0141b, 0x0138c, 0x012e1, 0x0121b, 0x0113e, 0x0104b, 0x00f47, 0x00e32,
    0x00d12, 0x00be8, 0x00ab9, 0x00987, 0x00856, 0x00728, 0x00602, 0x004e4, 0x003d3, 0x002d0,
    0x001dd, 0x000fc, 0x0002f, 0x3ff76, 0x3fed2, 0x3fe44, 0x3fdcc, 0x3fd6a, 0x3fd1d, 0x3fce4,
    0x3fcbf, 0x3fcad, 0x3fcab, 0x3fcb9, 0x3fcd4, 0x3fcfc, 0x3fd2e, 0x3fd69, 0x3fdaa, 0x3fdf1,
    0x3fe3a, 0x3fe85, 0x3fed0, 0x3ff1a, 0x3ff61, 0x3ffa4, 0x3ffe3, 0x0001d, 0x00051, 0x0007e,
    0x000a4, 0x000c4, 0x000dd, 0x000ef, 0x000fb, 0x00101, 0x00102, 0x000fe, 0x000f5, 0x000e8,
    0x000d8, 0x000c6, 0x000b2, 0x0009c, 0x00086, 0x0006f, 0x00059, 0x00044, 0x00030, 0x0001d,
    0x0000b, 0x3fffc, 0x3ffef, 0x3ffe3, 0x3ffda, 0x3ffd2, 0x3ffcd, 0x3ffc9, 0x3ffc7, 0x3ffc7,
    0x3ffc8, 0x3ffca, 0x3ffcd, 0x3ffd0, 0x3ffd5, 0x3ffd9, 0x3ffde, 0x3ffe3, 0x3ffe8, 0x3ffec,
    0x3fff1, 0x3fff5, 0x3fff8, 0x3fffb, 0x3fffe, 0x00000, 0x00002, 0x00003, 0x00004, 0x00005,
    0x00005, 0x00005, 0x00005, 0x00004, 0x00004, 0x00003, 0x00003]

/-- `load_hex` for the words of a table. -/
def loadHex (bits : ℕ) (words : List ℕ) : List ℤ :=
  words.map fun raw : ℕ => if raw &&& 2 ^ (bits - 1) ≠ 0 then (raw : ℤ) - 2 ^ bits else (raw : ℤ)

/-- `COEFFICIENT_BITS` -/
def coefficientBits : ℕ := 18

/-- The coefficients that `run_fixed_fir` loads when it is given none. -/
def firCoefficients : List ℤ := loadHex coefficientBits firTable

theorem sum_abs_firCoefficients : (firCoefficients.map abs).sum = 185292 := by decide +kernel

/-! ## The sums -/

/-- A sum of products is bounded by the sum of the absolute coefficients. -/
theorem abs_dot_le {bound : ℤ} (hbound : 0 ≤ bound) {samples : List ℤ}
    (hs : ∀ x ∈ samples, |x| ≤ bound) (coefficients : List ℤ) :
    |(List.zipWith (· * ·) samples coefficients).sum| ≤
      bound * (coefficients.map abs).sum := by
  induction coefficients generalizing samples with
  | nil => simp
  | cons c coefficients ih =>
    cases samples with
    | nil =>
      have hsum : 0 ≤ ((c :: coefficients).map abs).sum :=
        List.sum_nonneg fun x hx => by
          obtain ⟨y, -, rfl⟩ := List.mem_map.mp hx
          exact abs_nonneg y
      simpa using mul_nonneg hbound hsum
    | cons x samples =>
      have hrest := ih fun y hy => hs y (List.mem_cons_of_mem _ hy)
      rw [List.zipWith_cons_cons, List.sum_cons, List.map_cons, List.sum_cons, mul_add]
      refine (abs_add_le _ _).trans (add_le_add ?_ hrest)
      rw [abs_mul]
      exact mul_le_mul_of_nonneg_right (hs x List.mem_cons_self) (abs_nonneg c)

/-- Fewer taps have a smaller sum of absolute coefficients. -/
theorem sum_abs_take_le (n : ℕ) (coefficients : List ℤ) :
    ((coefficients.take n).map abs).sum ≤ (coefficients.map abs).sum := by
  conv_rhs => rw [← List.take_append_drop n coefficients]
  rw [List.map_append, List.sum_append]
  refine le_add_of_nonneg_right (List.sum_nonneg fun x hx => ?_)
  obtain ⟨y, -, rfl⟩ := List.mem_map.mp hx
  exact abs_nonneg y

theorem abs_toInt_le (x : BitVec 18) : |x.toInt| ≤ 2 ^ 17 := by
  have hlow := BitVec.le_toInt x
  have hhigh := BitVec.toInt_lt (x := x)
  rw [abs_le]
  constructor <;> omega

/-- Any sum over the taps fits 36 bits, also before the window is full. -/
theorem windowDot_range (samples : List (BitVec 18)) (inputIndex : ℕ) :
    |windowDot (samples.map BitVec.toInt) firCoefficients inputIndex| < 2 ^ 35 := by
  unfold windowDot
  dsimp only
  have hsamples : ∀ x ∈ (((samples.map BitVec.toInt).take (inputIndex + 1)).drop
      (inputIndex + 1 - min firTaps (inputIndex + 1))).reverse, |x| ≤ (2 : ℤ) ^ 17 := by
    intro x hx
    have hmem := List.mem_of_mem_take (List.mem_of_mem_drop (List.mem_reverse.mp hx))
    obtain ⟨y, -, rfl⟩ := List.mem_map.mp hmem
    exact abs_toInt_le y
  calc _ ≤ 2 ^ 17 * ((firCoefficients.take (min firTaps (inputIndex + 1))).map abs).sum :=
        abs_dot_le (by norm_num) hsamples _
    _ ≤ 2 ^ 17 * 185292 :=
        mul_le_mul_of_nonneg_left ((sum_abs_take_le _ _).trans_eq sum_abs_firCoefficients)
          (by norm_num)
    _ < 2 ^ 35 := by norm_num

/-! ## The quantizer -/

theorem Rtl.roundSaturateAccumulator_toInt (accumulator : BitVec 36) :
    (Rtl.roundSaturateAccumulator accumulator).toInt =
      saturate (roundShift accumulator.toInt 19) 16 := by
  have hlow := BitVec.le_toInt accumulator
  have hhigh := BitVec.toInt_lt (x := accumulator)
  have hadjusted := Rtl.biased_toInt 37 accumulator 262143 262144
    (by decide) (by decide) (by decide : _ = (262144 : ℤ)) fun b h₁ h₂ =>
      Int.bmod_eq_of_le (by norm_num; omega) (by norm_num; omega)
  unfold Rtl.roundSaturateAccumulator
  dsimp only
  rw [Rtl.clamp_toInt (v := 16) (by decide) (by decide) (by decide) (by decide) (by decide)
    (by decide), BitVec.toInt_sshiftRight, hadjusted, Int.shiftRight_eq_div_pow]
  exact congrArg (saturate · 16) (Rtl.biased_shift (p := accumulator.toInt) (k := 19) (by decide))

/-! ## The filter -/

/-- The output of `run_fixed_fir` at an index. -/
def firOutputAt (mixedI mixedQ : List ℤ) (outputIndex : ℕ) : FirOutput :=
  let inputIndex := (outputIndex + 1) * decimation - 1
  let sumI := windowDot mixedI firCoefficients inputIndex
  let sumQ := windowDot mixedQ firCoefficients inputIndex
  ⟨sumI, sumQ, narrow sumI, narrow sumQ⟩

/-- The model does not overflow either. -/
theorem firOutput_samples (mixedI mixedQ : List (BitVec 18)) (outputIndex : ℕ) :
    firOutput (mixedI.map BitVec.toInt) (mixedQ.map BitVec.toInt) firCoefficients outputIndex =
      .ok (firOutputAt (mixedI.map BitVec.toInt) (mixedQ.map BitVec.toInt) outputIndex) := by
  have hI := abs_lt.mp (windowDot_range mixedI ((outputIndex + 1) * decimation - 1))
  have hQ := abs_lt.mp (windowDot_range mixedQ ((outputIndex + 1) * decimation - 1))
  unfold firOutput
  dsimp only
  rw [if_neg (not_not.mpr ⟨by norm_num [firAccumulatorBits] at hI ⊢; omega,
      by norm_num [firAccumulatorBits] at hI ⊢; omega⟩),
    if_neg (not_not.mpr ⟨by norm_num [firAccumulatorBits] at hQ ⊢; omega,
      by norm_num [firAccumulatorBits] at hQ ⊢; omega⟩)]
  rfl

/-- The accumulator of an exact core holds the sum, and the quantizer behind it gives the output
of the model. -/
theorem quantized (mixed : List (BitVec 18)) (inputIndex : ℕ) :
    let sum := windowDot (mixed.map BitVec.toInt) firCoefficients inputIndex
    (BitVec.ofInt 36 sum).toInt = sum ∧
      (Rtl.roundSaturateAccumulator (BitVec.ofInt 36 sum)).toInt = narrow sum := by
  intro sum
  have hsum := abs_lt.mp (windowDot_range mixed inputIndex)
  have hfit : (BitVec.ofInt 36 sum).toInt = sum := by
    rw [BitVec.toInt_ofInt]
    exact Int.bmod_eq_of_le (by norm_num at hsum ⊢; omega) (by norm_num at hsum ⊢; omega)
  refine ⟨hfit, ?_⟩
  rw [Rtl.roundSaturateAccumulator_toInt, hfit]
  rfl

/-- Every sum over the coefficients of the repository fits the signed 36-bit accumulator, the
quantizer narrows any accumulator as the model does, and so the filter behind an exact core puts
out what `run_fixed_fir` returns. -/
theorem fir_exact :
    (∀ (samples : List (BitVec 18)) (inputIndex : ℕ),
      -2 ^ 35 ≤ windowDot (samples.map BitVec.toInt) firCoefficients inputIndex ∧
        windowDot (samples.map BitVec.toInt) firCoefficients inputIndex < 2 ^ 35) ∧
    (∀ accumulator : BitVec 36, (Rtl.roundSaturateAccumulator accumulator).toInt =
      saturate (roundShift accumulator.toInt 19) 16) ∧
    ∀ mixedI mixedQ : List (BitVec 18), mixedI.length = mixedQ.length →
      decimation ≤ mixedI.length → ∃ outputs,
        runFixedFir (mixedI.map BitVec.toInt) (mixedQ.map BitVec.toInt) firCoefficients =
          .ok outputs ∧
        outputs.length = mixedI.length / decimation ∧
        ∀ o ∈ outputs,
          (BitVec.ofInt 36 o.accumulatorI).toInt = o.accumulatorI ∧
          (BitVec.ofInt 36 o.accumulatorQ).toInt = o.accumulatorQ ∧
          (Rtl.roundSaturateAccumulator (BitVec.ofInt 36 o.accumulatorI)).toInt = o.outputI ∧
          (Rtl.roundSaturateAccumulator (BitVec.ofInt 36 o.accumulatorQ)).toInt = o.outputQ := by
  refine ⟨fun samples inputIndex => ?_, Rtl.roundSaturateAccumulator_toInt, ?_⟩
  · obtain ⟨hlow, hhigh⟩ := abs_lt.mp (windowDot_range samples inputIndex)
    exact ⟨hlow.le, hhigh⟩
  · intro mixedI mixedQ hlength hmin
    refine ⟨(List.range (mixedI.length / decimation)).map
      (firOutputAt (mixedI.map BitVec.toInt) (mixedQ.map BitVec.toInt)), ?_, ?_, ?_⟩
    · unfold runFixedFir
      rw [List.length_map, List.length_map, if_neg (not_not.mpr hlength),
        if_neg (Nat.not_lt.mpr hmin)]
      rw [funext (firOutput_samples mixedI mixedQ)]
      exact List.mapM_pure
    · rw [List.length_map, List.length_range]
    · intro o ho
      obtain ⟨outputIndex, -, rfl⟩ := List.mem_map.mp ho
      have hI := quantized mixedI ((outputIndex + 1) * decimation - 1)
      have hQ := quantized mixedQ ((outputIndex + 1) * decimation - 1)
      exact ⟨hI.1, hQ.1, hI.2, hQ.2⟩

theorem fir_exact_full :
    ∃ outputs, runFixedFir ((List.replicate 16 (-131072 : BitVec 18)).map BitVec.toInt)
        ((List.replicate 16 (131071 : BitVec 18)).map BitVec.toInt) firCoefficients = .ok outputs ∧
      outputs.length = 16 / decimation :=
  (fir_exact.2.2 (List.replicate 16 (-131072)) (List.replicate 16 131071) rfl (by decide)).imp
    fun _ h => ⟨h.1, h.2.1⟩

end QCrate.Dsp
