import QCrate.Host.DecimalText

/-!
# The centre frequency of a run

The streamer computes the frequency of the local oscillator from the active phase increment in
64-bit integers. `verify_run` takes it from the text that the profile compiler wrote with the
digits of a decimal context, and compares the two for equality.

* `realized_context` — the context rounds exactly where it does not matter.
* `center_frequency_agrees` — both name the same whole number of hertz.
-/

namespace QCrate.Host

open QCrate.Lib

/-! ## The streamer -/

/-- What `load_active_dsp_profile` reads of `struct qcrate_runtime_config_status`. -/
structure RuntimeConfigStatus where
  plStatus : BitVec 32
  plRejectReason : BitVec 32
  configId : BitVec 64
  loPhaseIncrement : BitVec 32
  frameLengthWords : BitVec 32
  frameCount : BitVec 32
  reason : BitVec 32
  deriving DecidableEq, Repr

/-- `QCRATE_CONFIG_REASON_NONE`, `QCRATE_DSP_CONFIG_STATUS_MASK`,
`QCRATE_DSP_CONFIG_STATUS_VALID` and `QCRATE_DSP_TIMEBASE_RATE_HZ`. -/
def configReasonNone : BitVec 32 := 0
def dspConfigStatusMask : BitVec 32 := 0xf
def dspConfigStatusValid : BitVec 32 := 4
def dspTimebaseRateHz : BitVec 64 := 200000000

/-- The frequency in 64-bit arithmetic, rounded. -/
def roundedHz (loPhaseIncrement : BitVec 32) : BitVec 64 :=
  (loPhaseIncrement.setWidth 64 * dspTimebaseRateHz + 0x80000000) >>> 32

/-- `load_active_dsp_profile`: the configuration id and the frequency as a signed number. -/
def loadActiveDspProfile (active : RuntimeConfigStatus) (words frames : BitVec 32) :
    Option (BitVec 64 × ℤ) :=
  if active.configId = 0 ∨ active.reason ≠ configReasonNone ∨ active.plRejectReason ≠ 0 ∨
      active.plStatus &&& dspConfigStatusMask ≠ dspConfigStatusValid ∨
      active.frameLengthWords ≠ words ∨ active.frameCount ≠ frames then none
  else some (active.configId, (roundedHz active.loPhaseIncrement).toInt)

theorem roundedHz_toNat (lo : BitVec 32) :
    lo.toNat * 200000000 + 2 ^ 31 < 2 ^ 64 ∧
      (roundedHz lo).toNat = (lo.toNat * 200000000 + 2 ^ 31) / 2 ^ 32 ∧
      (roundedHz lo).toInt = ((lo.toNat * 200000000 + 2 ^ 31) / 2 ^ 32 : ℕ) := by
  have hlt := lo.isLt
  have hsum : lo.toNat * 200000000 + 2 ^ 31 < 2 ^ 64 := by omega
  have hnat : (roundedHz lo).toNat = (lo.toNat * 200000000 + 2 ^ 31) / 2 ^ 32 := by
    have hlo : (lo.setWidth 64).toNat = lo.toNat := by
      rw [BitVec.toNat_setWidth, Nat.mod_eq_of_lt (by omega)]
    have hrate : dspTimebaseRateHz.toNat = 200000000 := rfl
    have hhalf : (0x80000000 : BitVec 64).toNat = 2 ^ 31 := rfl
    rw [roundedHz, BitVec.toNat_ushiftRight, BitVec.toNat_add, BitVec.toNat_mul, hlo, hrate, hhalf,
      Nat.mod_add_mod, Nat.mod_eq_of_lt hsum, Nat.shiftRight_eq_div_pow]
  refine ⟨hsum, hnat, ?_⟩
  rw [BitVec.toInt_eq_toNat_of_lt, hnat]
  rw [hnat]
  omega

/-! ## The host -/

/-- `int(Decimal(text).to_integral_value(rounding=ROUND_HALF_UP))` -/
def integralHz (value : Json) : Option ℤ := (toDecimal value).map fun d => roundHalfUp d.value

/-- `expected_center_hz` of `verify_run` -/
def expectedCenterHz (resolved : Json) : Option ℤ :=
  integralHz (((resolved.get "dsp").get "realized").get "lo_frequency_hz")

theorem isDecimal_context (p : ℕ) (x : ℚ) : IsDecimal (context p x) := by
  by_cases hx : x = 0
  · refine ⟨0, 0, ?_⟩
    rw [hx, context_zero]
    simp
  · rw [context_of_ne hx]
    unfold ulp
    rcases Int.eq_nat_or_neg (Int.log 10 |x| + 1 - p) with ⟨k, hk | hk⟩
    · refine ⟨roundHalfEven (x / 10 ^ (Int.log 10 |x| + 1 - p)) * 10 ^ k, 0, ?_⟩
      rw [hk, zpow_natCast]
      push_cast
      rw [pow_zero, div_one]
    · refine ⟨roundHalfEven (x / 10 ^ (Int.log 10 |x| + 1 - p)), k, ?_⟩
      rw [hk, zpow_neg, zpow_natCast, div_eq_mul_inv _ ((10 : ℚ) ^ k)]

/-- The exact frequency of a phase increment. -/
def exactHz (increment : ℕ) : ℚ := increment * 390625 / 2 ^ 23

theorem realizedFrequency_eq {increment : ℕ} (h : increment < 2 ^ 32) :
    realizedFrequency increment = context precision (exactHz increment) := by
  have hproduct : context precision (((increment : ℤ) : ℚ) * (sampleRateHz : ℤ)) =
      ((increment : ℤ) : ℚ) * (sampleRateHz : ℤ) := by
    refine @context_exact precision _ 0 ((increment : ℤ) * sampleRateHz) ?_ ?_
    · push_cast
      ring
    · have hle : (increment : ℚ) < 2 ^ 32 := by exact_mod_cast h
      have hnonneg : (0 : ℚ) ≤ ((increment : ℤ) : ℚ) * (sampleRateHz : ℤ) := by
        unfold sampleRateHz
        positivity
      rw [abs_of_nonneg hnonneg]
      unfold precision sampleRateHz
      push_cast
      linarith
  unfold realizedFrequency
  rw [hproduct]
  congr 1
  unfold exactHz sampleRateHz phaseModulus
  push_cast
  ring

/-- Rounding to the digits of the context first does not change the whole number of hertz. A tie
has one digit behind the point and is exact, and the other values are further from a tie than the
context is from them. -/
theorem realized_context {increment : ℕ} (h : increment < 2 ^ 32) :
    roundHalfUp (context precision (exactHz increment)) =
      ((increment * 200000000 + 2 ^ 31) / 2 ^ 32 : ℕ) := by
  obtain ⟨m, hm⟩ : ∃ m, m = (increment * 200000000 + 2 ^ 31) / 2 ^ 32 := ⟨_, rfl⟩
  have hdiv := Nat.div_mul_le_self (increment * 200000000 + 2 ^ 31) (2 ^ 32)
  have hmod := Nat.lt_mul_div_succ (increment * 200000000 + 2 ^ 31)
    (show 0 < 2 ^ 32 by norm_num)
  rw [← hm] at hdiv hmod ⊢
  clear hm
  have hlow : m * 2 ^ 23 ≤ increment * 390625 + 2 ^ 22 := by linarith
  have hhigh : increment * 390625 + 2 ^ 22 + 1 ≤ (m + 1) * 2 ^ 23 := by
    by_contra hnot
    have hle := Nat.le_of_lt_succ (Nat.lt_of_not_le hnot)
    linarith
  have hx0 : 0 ≤ exactHz increment := by
    unfold exactHz
    positivity
  have hxlt : exactHz increment < 2 * 10 ^ 8 := by
    have hle : (increment : ℚ) < 2 ^ 32 := by exact_mod_cast h
    unfold exactHz
    rw [div_lt_iff₀ (by norm_num)]
    linarith
  have hxlow : (m : ℚ) - 1 / 2 ≤ exactHz increment := by
    have hcast : (m : ℚ) * 2 ^ 23 ≤ increment * 390625 + 2 ^ 22 := by exact_mod_cast hlow
    unfold exactHz
    rw [le_div_iff₀ (by norm_num)]
    linarith
  have hxhigh : exactHz increment + 1 / 2 ^ 23 ≤ m + 1 / 2 := by
    have hcast : (increment : ℚ) * 390625 + 2 ^ 22 + 1 ≤ (m + 1) * 2 ^ 23 := by
      exact_mod_cast hhigh
    unfold exactHz
    rw [← add_div, div_le_iff₀ (by norm_num)]
    linarith
  rw [roundHalfUp_of_nonneg (context_nonneg hx0), Int.floor_eq_iff]
  rcases hx0.eq_or_lt with hzero | hpos
  · rw [← hzero] at hxlow hxhigh ⊢
    rw [context_zero]
    push_cast
    constructor <;> linarith
  -- 28 digits of a number below 2·10⁸ are exact to 10⁻¹⁹, far less than 2⁻²³
  have hulp : ulp precision (exactHz increment) ≤ 2 * 10 ^ 8 / 10 ^ 27 :=
    (ulp_le (by decide) hpos).trans (div_le_div_of_nonneg_right hxlt.le (by positivity))
  have hupper := @context_le precision _ hpos
  have hlower := @le_context precision _ hpos
  have hcontext : (m : ℚ) - 1 / 2 ≤ context precision (exactHz increment) := by
    rcases hxlow.eq_or_lt with htie | hlt
    · -- a tie has one digit behind the point
      have hexact : context precision (exactHz increment) = exactHz increment := by
        refine @context_exact precision _ 1 (10 * m - 5) ?_ ?_
        · rw [← htie]
          push_cast
          ring
        · rw [abs_of_pos hpos]
          refine hxlt.trans ?_
          unfold precision
          norm_num
      rw [hexact]
      exact hxlow
    · -- beyond the tie the fraction is at least one step of 2⁻²³ away from it
      have hstep : (m : ℚ) - 1 / 2 + 1 / 2 ^ 23 ≤ exactHz increment := by
        have hnat : m * 2 ^ 23 + 1 ≤ increment * 390625 + 2 ^ 22 := by
          have hcast : (m : ℚ) * 2 ^ 23 < increment * 390625 + 2 ^ 22 := by
            unfold exactHz at hlt
            rw [lt_div_iff₀ (by norm_num)] at hlt
            linarith
          exact_mod_cast hcast
        have hcast : (m : ℚ) * 2 ^ 23 + 1 ≤ increment * 390625 + 2 ^ 22 := by exact_mod_cast hnat
        unfold exactHz
        rw [le_div_iff₀ (by norm_num)]
        linarith
      linarith
  push_cast
  constructor <;> linarith

theorem integralHz_realized (lo : BitVec 32) :
    integralHz (.str (decimalString (.ofRat (realizedFrequency lo.toNat)))) =
      some (roundedHz lo).toInt := by
  have hrealized := realizedFrequency_eq lo.isLt
  obtain ⟨d, hparse, -, hvalue⟩ :=
    parse_decimalString (.ofRat (context precision (exactHz lo.toNat)))
  rw [integralHz, toDecimal, hrealized, hparse, Option.map_some, hvalue,
    value_ofRat (isDecimal_context precision (exactHz lo.toNat)), realized_context lo.isLt,
    (roundedHz_toNat lo).2.2]

/-- The streamer's frequency does not overflow, and it is the one that `verify_run` expects of
the profile with this increment. -/
theorem center_frequency_agrees (lo : BitVec 32) :
    lo.toNat * 200000000 + 2 ^ 31 < 2 ^ 64 ∧
      (roundedHz lo).toInt = ((lo.toNat * 200000000 + 2 ^ 31) / 2 ^ 32 : ℕ) ∧
      integralHz (.str (decimalString (.ofRat (realizedFrequency lo.toNat)))) =
        some (roundedHz lo).toInt ∧
      ∀ (repo : Repository) (document resolved : Json) (active : RuntimeConfigStatus)
        (words frames : BitVec 32) (configId : BitVec 64) (hz : ℤ),
        compileProfile repo document = .ok resolved →
        ((resolved.get "dsp").get "active").get "LO_PHASE_INCREMENT" = .int lo.toNat →
        active.loPhaseIncrement = lo →
        loadActiveDspProfile active words frames = some (configId, hz) →
        expectedCenterHz resolved = some hz := by
  refine ⟨(roundedHz_toNat lo).1, (roundedHz_toNat lo).2.2, integralHz_realized lo, ?_⟩
  intro repo document resolved active words frames configId hz hcompile hword hactive hload
  obtain ⟨name, r, geometry, sequence, contract, dspDigest, profileDigest, writes, -, -, rfl⟩ :=
    compileProfile_eq_ok hcompile
  have hlo : r.active.loPhaseIncrement = lo.toNat := Json.int.inj hword
  have hhz : (roundedHz lo).toInt = hz := by
    unfold loadActiveDspProfile at hload
    split at hload
    · cases hload
    · rw [← hactive]
      exact (Prod.mk.inj (Option.some.inj hload)).2
  have hexpected : expectedCenterHz (resolvedJson name r geometry sequence contract dspDigest
      profileDigest writes) =
      integralHz (.str (decimalString (.ofRat (realizedFrequency r.active.loPhaseIncrement)))) :=
    rfl
  rw [hexpected, hlo, integralHz_realized, hhz]

/-- A profile whose oscillator runs at the nearest phase increment to 1 MHz. -/
def tunedProfile : Json :=
  .obj [("format", .str profileFormat), ("name", .str "tuned"),
    ("dsp", .obj [("signal_frequency_hz", .int 0), ("signal_phase_turns", .int 0),
      ("signal_amplitude", .decimal ⟨false, 5, -1⟩), ("noise_amplitude", .decimal ⟨false, 5, -1⟩),
      ("noise_seed", .int 1), ("lo_frequency_hz", .int 1000000),
      ("lo_phase_turns", .int 0)]),
    ("acquisition", .obj [("frame_length_words", .int 1), ("frame_count", .int 1),
      ("stream_mode", .str "dsp")]),
    ("sequence", .obj [("source", .str "small.json")])]

/-- The status of the target when the profile is active. -/
def tunedStatus : RuntimeConfigStatus := ⟨4, 0, 1, 21474836, 1, 1, 0⟩

theorem center_frequency_agrees_tuned : ∃ resolved,
    compileProfile smallRepository tunedProfile = .ok resolved ∧
      expectedCenterHz resolved = some 1000000 := by
  have hrun : ((compileProfile smallRepository tunedProfile).toOption.any fun resolved =>
      (((resolved.get "dsp").get "active").get "LO_PHASE_INCREMENT").pyEq (.int 21474836)) =
        true := by
    decide +kernel
  obtain ⟨resolved, hcompile, hword⟩ := exists_of_any hrun
  obtain ⟨name, r, geometry, sequence, contract, dspDigest, profileDigest, writes, -, -, hr⟩ :=
    compileProfile_eq_ok hcompile
  have hint : ((resolved.get "dsp").get "active").get "LO_PHASE_INCREMENT" =
      .int r.active.loPhaseIncrement := by
    rw [hr]
    rfl
  have hincrement : r.active.loPhaseIncrement = 21474836 := by
    rw [hint] at hword
    unfold Json.pyEq at hword
    exact (eq_of_number (eq_of_beq hword) rfl).symm
  rw [hincrement] at hint
  exact ⟨resolved, hcompile, (center_frequency_agrees 21474836).2.2.2 smallRepository
    tunedProfile resolved tunedStatus 1 1 1 1000000 hcompile hint rfl (by decide)⟩

end QCrate.Host
