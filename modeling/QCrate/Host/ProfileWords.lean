import QCrate.Host.Profile
import QCrate.Lib.Checks

/-!
# Profiles against the firmware's validation

The profile compiler checks the amplitudes as decimals, the R5 checks the rounded words. Every other
check of the R5 follows from one of the profile's. The sum of the words exceeds `0x8000` exactly
when the two amplitudes add up to one and both lie on a half step: both are rounded up.

* `Requested.Accepted` — what both paths establish about the requested values.
* `HalfSteps` — both amplitudes on a half step, to the digits of the decimal context.
* `profile_words` — the runtime configuration is accepted when they are not.
-/

namespace QCrate.Host

open QCrate.Lib QCrate.R5

/-! ## Accepted values -/

/-- The checks on the requested values that the words depend on. -/
structure Requested.Accepted (r : Requested) : Prop where
  signal : 0 ≤ r.signalAmplitude.value ∧ r.signalAmplitude.value ≤ 1
  noise : 0 ≤ r.noiseAmplitude.value ∧ r.noiseAmplitude.value ≤ 1
  sum : context precision (r.signalAmplitude.value + r.noiseAmplitude.value) ≤ 1
  seed : 1 ≤ r.noiseSeed ∧ r.noiseSeed ≤ 0xFFFF

/-- The checks on the frame geometry. -/
structure GeometryAccepted (frameLength frameCount : ℤ) : Prop where
  length : 1 ≤ frameLength ∧ frameLength ≤ 262144
  count : 1 ≤ frameCount ∧ frameCount ≤ 255
  total : frameLength * frameCount ≤ 1000000

/-- A value reaches another up to half a unit of the last digit of the decimal context. -/
def Reaches (x y : ℚ) : Prop :=
  y - ulp precision y / 2 ≤ x

/-- Both amplitudes reach a half step, and the two half steps add up to full scale. -/
def HalfSteps (signal noise : ℚ) : Prop :=
  ∃ m : ℕ, 1 ≤ m ∧ m ≤ 32766 ∧ Reaches (signal * 2 ^ 15) (m + 1 / 2) ∧
    Reaches (noise * 2 ^ 15) ((32767 - m : ℕ) + 1 / 2)

/-! ## Rounded amplitudes -/

/-- A half step has an even last digit in the decimal context and is no power of ten. -/
theorem halfStep_even {m : ℕ} (h1 : 1 ≤ m) (hm : m ≤ 32766) :
    ∃ n : ℤ, n % 2 = 0 ∧ (m + 1 / 2 : ℚ) = n * ulp precision (m + 1 / 2) ∧
      (10 : ℚ) ^ Int.log 10 |(m + 1 / 2 : ℚ)| < m + 1 / 2 := by
  have h1' : (1 : ℚ) ≤ m := by exact_mod_cast h1
  have hm' : (m : ℚ) ≤ 32766 := by exact_mod_cast hm
  have hpos : (0 : ℚ) < m + 1 / 2 := by linarith
  have hle := log_le hpos
  have hlt := lt_log hpos
  have hlow : 0 ≤ Int.log 10 |(m + 1 / 2 : ℚ)| := by
    rw [abs_of_pos hpos]
    exact (Int.zpow_le_iff_le_log (by norm_num) hpos).mp (by push_cast; norm_num; linarith)
  have hhigh : Int.log 10 |(m + 1 / 2 : ℚ)| < 5 := by
    rw [abs_of_pos hpos]
    exact (Int.lt_zpow_iff_log_lt (by norm_num) hpos).mp (by push_cast; norm_num; linarith)
  unfold ulp precision
  generalize Int.log 10 |(m + 1 / 2 : ℚ)| = e at hle hlt hlow hhigh ⊢
  obtain ⟨k, rfl⟩ := Int.eq_ofNat_of_zero_le hlow
  have hk : k < 5 := by omega
  refine ⟨(2 * m + 1) * 5 * 10 ^ (26 - k), ?_, ?_, hle.lt_of_ne ?_⟩
  · interval_cases k <;> omega
  · interval_cases k <;> norm_num <;> ring
  · intro he
    have hodd : 2 * (10 : ℚ) ^ (k : ℤ) = 2 * m + 1 := by linarith
    interval_cases k <;> norm_num at hodd <;> norm_cast at hodd <;> omega

theorem le_rounded_iff {a : ℚ} (ha : 0 ≤ a) {m : ℕ} (h1 : 1 ≤ m) (hm : m ≤ 32766) :
    (m : ℤ) + 1 ≤ roundHalfUp (context precision (a * 2 ^ 15)) ↔
      Reaches (a * 2 ^ 15) (m + 1 / 2) := by
  have hx : 0 ≤ a * 2 ^ 15 := by positivity
  have hy : (0 : ℚ) < m + 1 / 2 := by positivity
  obtain ⟨n, hn, hyn, hten⟩ := halfStep_even h1 hm
  rw [roundHalfUp_of_nonneg (context_nonneg hx), Int.le_floor]
  unfold Reaches
  rw [← le_context_iff (by decide) hx hy hn hyn hten]
  push_cast
  constructor <;> intro h <;> linarith

theorem rounded_nonneg {a : ℚ} (ha : 0 ≤ a) :
    0 ≤ roundHalfUp (context precision (a * 2 ^ 15)) := by
  have h := context_nonneg (p := precision) (x := a * 2 ^ 15) (by positivity)
  rw [roundHalfUp_of_nonneg h, Int.le_floor, Int.cast_zero]
  exact add_nonneg h (by norm_num)

/-- The context adds less than a millionth to an amplitude. -/
theorem context_amplitude_le {a : ℚ} (ha : 0 ≤ a) :
    context precision (a * 2 ^ 15) ≤ a * 2 ^ 15 * (1 + 1 / 10 ^ 6) := by
  obtain rfl | ha := ha.eq_or_lt
  · simp
  · have hx : 0 < a * 2 ^ 15 := by positivity
    have hle := context_le (p := precision) hx
    have hulp := ulp_le (p := precision) (by decide) hx
    have hsmall : a * 2 ^ 15 / 10 ^ (precision - 1) ≤ a * 2 ^ 15 * (1 / 10 ^ 6) := by
      rw [div_eq_mul_one_div]
      exact mul_le_mul_of_nonneg_left (by norm_num [precision]) hx.le
    linarith

theorem sum_le {r : Requested} (h : r.Accepted) :
    r.signalAmplitude.value + r.noiseAmplitude.value ≤ 1 + 1 / 10 ^ 6 := by
  have hsum := h.sum
  obtain hz | hpos := (add_nonneg h.signal.1 h.noise.1).eq_or_lt
  · rw [← hz]
    norm_num
  · have hle := le_context (p := precision) hpos
    have hulp := ulp_le (p := precision) (by decide) hpos
    have htwo : r.signalAmplitude.value + r.noiseAmplitude.value ≤ 2 := by
      linarith [h.signal.2, h.noise.2]
    have hsmall : (r.signalAmplitude.value + r.noiseAmplitude.value) / 10 ^ (precision - 1) ≤
        2 * (1 / 10 ^ 6) := by
      rw [div_eq_mul_one_div]
      exact mul_le_mul htwo (by norm_num [precision]) (by positivity) (by norm_num)
    linarith

/-- Rounding adds at most one to the sum. -/
theorem rounded_add_le {r : Requested} (h : r.Accepted) :
    roundHalfUp (context precision (r.signalAmplitude.value * 2 ^ 15)) +
      roundHalfUp (context precision (r.noiseAmplitude.value * 2 ^ 15)) ≤ 32769 := by
  have hs := context_amplitude_le h.signal.1
  have hn := context_amplitude_le h.noise.1
  have hsum := sum_le h
  have hs₀ := context_nonneg (p := precision)
    (x := r.signalAmplitude.value * 2 ^ 15) (mul_nonneg h.signal.1 (by norm_num))
  have hn₀ := context_nonneg (p := precision)
    (x := r.noiseAmplitude.value * 2 ^ 15) (mul_nonneg h.noise.1 (by norm_num))
  rw [roundHalfUp_of_nonneg hs₀, roundHalfUp_of_nonneg hn₀]
  have hfs := Int.floor_le (context precision (r.signalAmplitude.value * 2 ^ 15) + 1 / 2)
  have hfn := Int.floor_le (context precision (r.noiseAmplitude.value * 2 ^ 15) + 1 / 2)
  have hlt : ((⌊context precision (r.signalAmplitude.value * 2 ^ 15) + 1 / 2⌋ +
      ⌊context precision (r.noiseAmplitude.value * 2 ^ 15) + 1 / 2⌋ : ℤ) : ℚ) < 32770 := by
    push_cast
    linarith
  have := Int.lt_add_one_iff.mp (by exact_mod_cast hlt : _ < (32769 : ℤ) + 1)
  exact this

/-- The rounded amplitudes exceed full scale exactly when both lie on a half step. -/
theorem amplitudeSum_iff {r : Requested} (h : r.Accepted) :
    32768 < q115 r.signalAmplitude.value + q115 r.noiseAmplitude.value ↔
      HalfSteps r.signalAmplitude.value r.noiseAmplitude.value := by
  have hle := rounded_add_le h
  have hs₀ := rounded_nonneg h.signal.1
  have hn₀ := rounded_nonneg h.noise.1
  have hs := fun {m} => le_rounded_iff h.signal.1 (m := m)
  have hn := fun {m} => le_rounded_iff h.noise.1 (m := m)
  unfold q115 HalfSteps
  dsimp only
  generalize roundHalfUp (context precision (r.signalAmplitude.value * 2 ^ 15)) = i at *
  generalize roundHalfUp (context precision (r.noiseAmplitude.value * 2 ^ 15)) = j at *
  constructor
  · intro hlt
    have hi : 2 ≤ i ∧ i ≤ 32767 ∧ i + j = 32769 := by omega
    refine ⟨(i - 1).toNat, by omega, by omega, ?_, ?_⟩
    · exact (hs (by omega) (by omega)).mp (by omega)
    · exact (hn (by omega) (by omega)).mp (by omega)
  · rintro ⟨m, h1, hm, hsm, hnm⟩
    have hi := (hs h1 hm).mpr hsm
    have hj := (hn (by omega) (by omega)).mpr hnm
    omega

/-! ## The validation of the words -/

/-- Reading a staged value back. -/
theorem toNat_ofInt {n : ℤ} (h0 : 0 ≤ n) (hlt : n < 2 ^ 32) :
    (BitVec.ofInt 32 n).toNat = n.toNat := by
  rw [BitVec.toNat_ofInt, Int.emod_eq_of_lt h0 (by exact_mod_cast hlt)]

theorem and_high_eq_zero {w : Word} (h : w.toNat < 2 ^ 16) : w &&& 0xFFFF0000 = 0 := by
  have hz : (0 : Word).toNat = 0 := rfl
  refine BitVec.eq_of_toNat_eq ?_
  rw [BitVec.toNat_and, hz]
  refine Nat.eq_of_testBit_eq fun i => ?_
  rw [Nat.testBit_and]
  by_cases hi : i < 16
  · have hmask : ∀ j < 16, (0xFFFF0000 : Word).toNat.testBit j = false := by decide
    rw [hmask i hi, Bool.and_false, Nat.zero_testBit]
  · have hpow : w.toNat < 2 ^ i := h.trans_le (Nat.pow_le_pow_right (by decide) (by omega))
    rw [Nat.testBit_lt_two_pow hpow, Bool.false_and, Nat.zero_testBit]

theorem configId_ne_zero {n : ℤ} (h : 1 ≤ n ∧ n ≤ 0xFFFFFFFFFFFFFFFF) :
    (BitVec.ofInt 32 (n / 2 ^ 32) ++ BitVec.ofInt 32 n : BitVec 64) ≠ 0 := by
  intro hz
  have hnat := congrArg BitVec.toNat hz
  rw [BitVec.toNat_append] at hnat
  obtain ⟨hhigh, hlow⟩ := Nat.or_eq_zero_iff.mp hnat
  rw [Nat.shiftLeft_eq] at hhigh
  rw [BitVec.toNat_ofInt] at hhigh hlow
  omega

/-- What is left of the validation when the words are in range. -/
theorem validate_eq_none {words : ConfigWords}
    (hid : (words.get configIdHighWord ++ words.get configIdLowWord : BitVec 64) ≠ 0)
    (hs : (words.get configSignalAmplitudeWord).toNat ≤ 0x7FFF)
    (hn : (words.get configNoiseAmplitudeWord).toNat ≤ 0x7FFF)
    (hseed : 1 ≤ (words.get configNoiseSeedWord).toNat ∧
      (words.get configNoiseSeedWord).toNat ≤ 0xFFFF)
    (hlen : 1 ≤ (words.get configFrameLengthWord).toNat ∧
      (words.get configFrameLengthWord).toNat ≤ 262144)
    (hcount : 1 ≤ (words.get configFrameCountWord).toNat ∧
      (words.get configFrameCountWord).toNat ≤ 255)
    (htotal : (words.get configFrameLengthWord).toNat * (words.get configFrameCountWord).toNat ≤
      1000000) :
    validateRuntimeConfig words = .none ↔
      (words.get configSignalAmplitudeWord).toNat + (words.get configNoiseAmplitudeWord).toNat ≤
        0x8000 := by
  have hget : ∀ k : Fin 11, words[k] = words.get k := fun _ => rfl
  unfold validateRuntimeConfig
  simp only [hget]
  generalize words.get configSignalAmplitudeWord = s at *
  generalize words.get configNoiseAmplitudeWord = n at *
  generalize words.get configNoiseSeedWord = seed at *
  generalize words.get configFrameLengthWord = len at *
  generalize words.get configFrameCountWord = count at *
  rw [if_neg hid, and_high_eq_zero (by omega), and_high_eq_zero (by omega),
    and_high_eq_zero (by omega)]
  have hproduct : (len.setWidth 64 * count.setWidth 64).toNat = len.toNat * count.toNat := by
    have hl : len.toNat % 2 ^ 64 = len.toNat := Nat.mod_eq_of_lt (by omega)
    have hc : count.toNat % 2 ^ 64 = count.toNat := Nat.mod_eq_of_lt (by omega)
    rw [BitVec.toNat_mul, BitVec.toNat_setWidth, BitVec.toNat_setWidth, hl, hc,
      Nat.mod_eq_of_lt (by omega)]
  have hseed0 : seed ≠ 0 := fun h => by
    rw [h] at hseed
    exact absurd hseed.1 (by decide)
  have hlen0 : len ≠ 0 := fun h => by
    rw [h] at hlen
    exact absurd hlen.1 (by decide)
  have hcount0 : count ≠ 0 := fun h => by
    rw [h] at hcount
    exact absurd hcount.1 (by decide)
  have hmaxWords : configMaxFrameWords.toNat = 262144 := rfl
  have hmaxFrames : configMaxFrames.toNat = 255 := rfl
  have hmaxTotal : configMaxTotalWords.toNat = 1000000 := rfl
  have hfull : (0x8000 : Word).toNat = 0x8000 := rfl
  have hhalf : (0x7FFF : Word).toNat = 0x7FFF := rfl
  rw [if_neg (by rw [BitVec.lt_def]; simp; omega), if_neg (by rw [BitVec.lt_def]; simp; omega)]
  -- the sum does not wrap, as both amplitudes are below 2 ^ 15
  have hadd : 0x8000 < s + n ↔ 0x8000 < s.toNat + n.toNat := by
    rw [BitVec.lt_def, BitVec.toNat_add, Nat.mod_eq_of_lt (by omega), hfull]
  by_cases hsum : 0x8000 < s + n
  · rw [if_pos hsum]
    exact ⟨nofun, fun hle => absurd (hadd.mp hsum) (by omega)⟩
  · rw [if_neg hsum, if_neg (by simpa using hseed0),
      if_neg (by rw [BitVec.lt_def]; exact fun h => h.elim hlen0 (by omega)),
      if_neg (by rw [BitVec.lt_def]; exact fun h => h.elim hcount0 (by omega)),
      if_neg (by rw [BitVec.lt_def]; omega)]
    exact ⟨fun _ => by rw [hadd] at hsum; omega, fun _ => rfl⟩

/-- What is left of the validation once the profile's checks hold. -/
theorem validate_words {v : ConfigValues} (hid : 1 ≤ v.configId ∧ v.configId ≤ 0xFFFFFFFFFFFFFFFF)
    (hs : 0 ≤ v.active.signalAmplitude ∧ v.active.signalAmplitude ≤ 0x7FFF)
    (hn : 0 ≤ v.active.noiseAmplitude ∧ v.active.noiseAmplitude ≤ 0x7FFF)
    (hseed : 1 ≤ v.active.noiseSeed ∧ v.active.noiseSeed ≤ 0xFFFF)
    (hg : GeometryAccepted v.frameLength v.frameCount) :
    validateRuntimeConfig v.words = .none ↔
      ¬32768 < v.active.signalAmplitude + v.active.noiseAmplitude := by
  obtain ⟨hlen, hcount, htotal⟩ := hg
  have hsn := toNat_ofInt hs.1 (by omega)
  have hnn := toNat_ofInt hn.1 (by omega)
  have hseedn := toNat_ofInt (n := v.active.noiseSeed) (by omega) (by omega)
  have hlenn := toNat_ofInt (n := v.frameLength) (by omega) (by omega)
  have hcountn := toNat_ofInt (n := v.frameCount) (by omega) (by omega)
  have hproduct : v.frameLength.toNat * v.frameCount.toNat ≤ 1000000 := by
    have hcast : ((v.frameLength.toNat * v.frameCount.toNat : ℕ) : ℤ) =
        v.frameLength * v.frameCount := by
      push_cast
      rw [Int.toNat_of_nonneg (by omega), Int.toNat_of_nonneg (by omega)]
    omega
  have hsw : (v.words.get configSignalAmplitudeWord).toNat = v.active.signalAmplitude.toNat := hsn
  have hnw : (v.words.get configNoiseAmplitudeWord).toNat = v.active.noiseAmplitude.toNat := hnn
  have hseedw : (v.words.get configNoiseSeedWord).toNat = v.active.noiseSeed.toNat := hseedn
  have hlenw : (v.words.get configFrameLengthWord).toNat = v.frameLength.toNat := hlenn
  have hcountw : (v.words.get configFrameCountWord).toNat = v.frameCount.toNat := hcountn
  have hidw : (v.words.get configIdHighWord ++ v.words.get configIdLowWord : BitVec 64) ≠ 0 :=
    configId_ne_zero hid
  rw [validate_eq_none hidw, hsw, hnw]
  · omega
  · rw [hsw]
    omega
  · rw [hnw]
    omega
  · rw [hseedw]
    omega
  · rw [hlenw]
    omega
  · rw [hcountw]
    omega
  · rw [hlenw, hcountw]
    exact hproduct

/-! ## Reading documents -/

theorem checkKeys_eq_ok {value : Json} {required : List String} {context : String}
    {fields : Fields} (h : checkKeys value required context = .ok fields) :
    value = .obj fields := by
  unfold checkKeys at h
  split at h
  next fs =>
    dsimp only at h
    split at h
    · cases h
      rfl
    · cases h
  · cases h

theorem integer_eq_ok {value : Json} {minimum maximum n : ℤ} {context : String} :
    integer value minimum maximum context = .ok n ↔
      value = .int n ∧ minimum ≤ n ∧ n ≤ maximum := by
  unfold integer
  split
  next m =>
    split
    next hm => exact ⟨fun h => by cases h; exact ⟨rfl, hm⟩, fun ⟨h, _⟩ => by cases h; rfl⟩
    next hm => exact ⟨nofun, fun ⟨h, hn⟩ => by cases h; exact absurd hn hm⟩
  next hne => exact ⟨nofun, fun ⟨h, _⟩ => absurd h (hne n)⟩

theorem decimalInRange_eq_ok {value d : Decimal} {minimum maximum : ℤ} {inclusive : Bool}
    {context : String} (h : decimalInRange value minimum maximum inclusive context = .ok d) :
    (minimum : ℚ) ≤ d.value ∧ d.value ≤ maximum := by
  unfold decimalInRange at h
  rw [guard_eq_ok, not_or, not_lt, not_not] at h
  obtain ⟨⟨hmin, hmax⟩, he⟩ := h
  cases he
  refine ⟨hmin, ?_⟩
  cases inclusive
  · exact le_of_lt hmax
  · exact hmax

theorem decimal_eq_ok {value : Json} {minimum maximum : ℤ} {inclusive : Bool} {context : String}
    {d : Decimal} (h : decimal value minimum maximum inclusive context = .ok d) :
    (minimum : ℚ) ≤ d.value ∧ d.value ≤ maximum := by
  unfold decimal at h
  split at h
  · exact decimalInRange_eq_ok h
  · exact decimalInRange_eq_ok h
  · cases h

theorem requestedOfSource_accepted {source : Json} {r : Requested}
    (h : requestedOfSource source = .ok r) : r.Accepted := by
  simp only [requestedOfSource, bind_eq_ok, check_eq_ok, not_lt] at h
  obtain ⟨dsp, -, sf, -, lf, -, sp, -, lp, -, sa, hsa, na, hna, hsum, seed, hseed, he⟩ := h
  cases he
  refine ⟨?_, ?_, hsum, (integer_eq_ok.mp hseed).2⟩
  · simpa using decimal_eq_ok hsa
  · simpa using decimal_eq_ok hna

theorem requestedOfResolved_accepted {fields : Fields} {r : Requested}
    (h : requestedOfResolved fields = .ok r) : r.Accepted := by
  simp only [requestedOfResolved, bind_eq_ok, check_eq_ok] at h
  obtain ⟨sf, -, lf, -, sp, -, lp, -, sa, -, na, -, seed, hseed, -, -, hsum, he⟩ := h
  cases he
  simp only [Bool.not_eq_true, Bool.not_eq_false', Bool.and_eq_true, decide_eq_true_eq] at hsum
  obtain ⟨⟨hs, hn⟩, hsum⟩ := hsum
  have hseed' : 1 ≤ seed ∧ seed ≤ 0xFFFF := by
    cases hi : integer (fields.get "noise_seed") 1 0xFFFF "resolved noise seed" with
    | error e =>
      rw [hi] at hseed
      cases hseed
    | ok n =>
      rw [hi] at hseed
      cases hseed
      exact (integer_eq_ok.mp hi).2
  exact ⟨hs, hn, hsum, hseed'⟩

theorem acquisitionOfSource_accepted {source : Json} {geometry : ℤ × ℤ}
    (h : acquisitionOfSource source = .ok geometry) : GeometryAccepted geometry.1 geometry.2 := by
  simp only [acquisitionOfSource, bind_eq_ok, check_eq_ok, not_lt] at h
  obtain ⟨acq, -, len, hlen, count, hcount, htotal, -, he⟩ := h
  cases he
  exact ⟨(integer_eq_ok.mp hlen).2, (integer_eq_ok.mp hcount).2, htotal⟩

/-! ## The active values -/

theorem phaseWord_range (value : ℚ) (scale : ℤ) :
    0 ≤ phaseWord value scale ∧ phaseWord value scale ≤ 0xFFFFFFFF := by
  unfold phaseWord
  dsimp only
  omega

theorem q115_range {a : ℚ} (ha : 0 ≤ a) : 0 ≤ q115 a ∧ q115 a ≤ 0x7FFF := by
  have h := rounded_nonneg ha
  unfold q115
  dsimp only
  omega

/-- The words of accepted values pass, unless both amplitudes were rounded up. -/
theorem Requested.Accepted.validate {r : Requested} (h : r.Accepted) {configId len count : ℤ}
    (hid : 1 ≤ configId ∧ configId ≤ 0xFFFFFFFFFFFFFFFF) (hg : GeometryAccepted len count) :
    validateRuntimeConfig (ConfigValues.words ⟨configId, r.active, len, count⟩) = .none ↔
      ¬HalfSteps r.signalAmplitude.value r.noiseAmplitude.value := by
  rw [validate_words (v := ⟨configId, r.active, len, count⟩) hid (q115_range h.signal.1)
    (q115_range h.noise.1) h.seed hg]
  exact not_congr (amplitudeSum_iff h)

/-! ## The configuration id as text -/

theorem hexDigit_digitChar {d : ℕ} (h : d < 16) : hexDigit (Nat.digitChar d) = some d := by
  have hall : ∀ e ∈ List.range 16, hexDigit (Nat.digitChar e) = some e := by decide
  exact hall d (List.mem_range.mpr h)

/-- One digit of a number in base sixteen. -/
def hexStep (n : ℕ) (c : Char) : Option ℕ :=
  (hexDigit c).bind fun d => if d < 16 then some (n * 16 + d) else none

theorem hexStep_digitChar (n : ℕ) {d : ℕ} (h : d < 16) :
    hexStep n (Nat.digitChar d) = some (n * 16 + d) := by
  unfold hexStep
  rw [hexDigit_digitChar h, Option.bind_some, if_pos h]

/-- The digits of a number are digits, and read back to it. -/
theorem toDigits_read (n : ℕ) :
    (∀ c ∈ Nat.toDigits 16 n, ∃ d < 16, c = Nat.digitChar d) ∧
      (Nat.toDigits 16 n).foldlM hexStep 0 = some n := by
  induction n using Nat.strong_induction_on with
  | _ n ih =>
    by_cases hn : n < 16
    · rw [Nat.toDigits_of_lt_base hn]
      refine ⟨fun c hc => ⟨n, hn, List.mem_singleton.mp hc⟩, ?_⟩
      simp [hexStep_digitChar 0 hn]
    · obtain ⟨hchars, hread⟩ := ih (n / 16) (by omega)
      have hsplit := Nat.toDigits_append_toDigits (b := 16) (n := n / 16) (d := n % 16) (by decide)
        (by omega) (by omega)
      rw [Nat.div_add_mod, Nat.toDigits_of_lt_base (by omega : n % 16 < 16)] at hsplit
      rw [← hsplit]
      refine ⟨fun c hc => ?_, ?_⟩
      · rcases List.mem_append.mp hc with hc | hc
        · exact hchars c hc
        · exact ⟨n % 16, by omega, List.mem_singleton.mp hc⟩
      · rw [List.foldlM_append, hread]
        simp [hexStep_digitChar (n / 16) (by omega : n % 16 < 16)]
        omega

/-- A text of hexadecimal digits. -/
def HexText (cs : List Char) : Prop :=
  ∀ c ∈ cs, ∃ d < 16, c = Nat.digitChar d

theorem HexText.plain {cs : List Char} (h : HexText cs) :
    ∀ c ∈ cs, ¬c.isWhitespace ∧ c ≠ '_' := by
  have hall : ∀ e ∈ List.range 16, ¬(Nat.digitChar e).isWhitespace ∧ Nat.digitChar e ≠ '_' := by
    decide
  intro c hc
  obtain ⟨d, hd, rfl⟩ := h c hc
  exact hall d (List.mem_range.mpr hd)

theorem trim_eq {cs : List Char} (h : ∀ c ∈ cs, ¬c.isWhitespace) : trim cs = cs := by
  have hself : ∀ l : List Char, (∀ c ∈ l, ¬c.isWhitespace) → l.dropWhile Char.isWhitespace = l := by
    intro l hl
    cases l with
    | nil => rfl
    | cons c l => exact List.dropWhile_cons_of_neg (hl c List.mem_cons_self)
  unfold trim
  rw [hself cs h, hself cs.reverse fun c hc => h c (List.mem_reverse.mp hc), List.reverse_reverse]

theorem removeUnderscores_eq {cs : List Char} (h : ∀ c ∈ cs, c ≠ '_') :
    removeUnderscores cs = some cs := by
  induction cs with
  | nil => rfl
  | cons c cs ih =>
    have hc := h c List.mem_cons_self
    have hcs := ih fun d hd => h d (List.mem_cons_of_mem _ hd)
    unfold removeUnderscores
    split
    · next he => cases he
    · next he => exact absurd (List.cons.inj he).1 hc
    · next he => exact absurd (List.cons.inj he).1 hc
    · next he => exact absurd (List.cons.inj he).1 hc
    · next he =>
      obtain ⟨rfl, rfl⟩ := List.cons.inj he
      rw [hcs]
      rfl

/-- `int("0x…", 0)` on the digits of a number. -/
theorem parseInt0_hexText (width n : ℕ) :
    parseInt0 ("0x" ++ hexText width n).toList = some (n : ℤ) := by
  have htext : ("0x" ++ hexText width n).toList = '0' :: 'x' ::
      (List.replicate (width - (Nat.toDigits 16 n).length) '0' ++ Nat.toDigits 16 n) := by
    unfold hexText
    simp
  obtain ⟨hchars, hread⟩ := toDigits_read n
  have hhex : HexText (List.replicate (width - (Nat.toDigits 16 n).length) '0' ++
      Nat.toDigits 16 n) := by
    intro c hc
    rcases List.mem_append.mp hc with hc | hc
    · exact ⟨0, by decide, List.eq_of_mem_replicate hc⟩
    · exact hchars c hc
  have hzeros : ∀ k : ℕ, (List.replicate k '0').foldlM hexStep 0 = some 0 := by
    intro k
    induction k with
    | zero => rfl
    | succ k ih =>
      rw [List.replicate_succ, List.foldlM_cons]
      exact ih
  have hne : List.replicate (width - (Nat.toDigits 16 n).length) '0' ++ Nat.toDigits 16 n ≠ [] := by
    intro he
    exact Nat.toDigits_ne_nil (List.append_eq_nil_iff.mp he).2
  have hvalue : digitsValue 16 hexDigit (List.replicate (width - (Nat.toDigits 16 n).length) '0' ++
      Nat.toDigits 16 n) = some n := by
    unfold digitsValue
    rw [if_neg hne]
    show List.foldlM hexStep 0 _ = some n
    rw [List.foldlM_append, hzeros]
    exact hread
  generalize List.replicate (width - (Nat.toDigits 16 n).length) '0' ++ Nat.toDigits 16 n = cs at *
  unfold parseInt0
  rw [htext, trim_eq]
  · show Option.map (fun m : ℕ => (m : ℤ)) ((removeUnderscores cs).bind (digitsValue 16 hexDigit)) =
      some (n : ℤ)
    rw [removeUnderscores_eq fun c hc => (hhex.plain c hc).2, Option.bind_some, hvalue]
    rfl
  · intro c hc
    rcases List.mem_cons.mp hc with rfl | hc
    · decide
    rcases List.mem_cons.mp hc with rfl | hc
    · decide
    exact (hhex.plain c hc).1

/-! ## Resolved documents -/

/-- A value of a document under a key. -/
def Json.get (document : Json) (key : String) : Json :=
  match document with
  | .obj fields => Fields.get fields key
  | _ => .null

/-- The configuration id of a resolved document. -/
def resolvedId (document : Json) : Except ProfileError ℤ :=
  configIdOf lacksBundle ((document.get "identity").get "dsp_config_id")

theorem commandValue_eq_ok {index : ℕ} {minimum maximum n : ℤ} {value : Json} :
    commandValue index minimum maximum value = .ok n ↔
      value = .int n ∧ minimum ≤ n ∧ n ≤ maximum := by
  unfold commandValue
  split
  next m =>
    split
    next hm => exact ⟨fun h => by cases h; exact ⟨rfl, hm⟩, fun ⟨h, _⟩ => by cases h; rfl⟩
    next hm => exact ⟨nofun, fun ⟨h, hn⟩ => by cases h; exact absurd hn hm⟩
  next hne => exact ⟨nofun, fun ⟨h, _⟩ => absurd h (hne n)⟩

theorem bundleField_eq_ok {document value : Json} {key : String}
    (h : bundleField document key = .ok value) :
    ∃ fields : Fields, document = .obj fields ∧ fields.lookup key = some value := by
  unfold bundleField at h
  split at h
  next fields =>
    cases hl : fields.lookup key with
    | none =>
      rw [hl] at h
      cases h
    | some v =>
      rw [hl] at h
      cases h
      exact ⟨fields, rfl, hl⟩
  · cases h

theorem bundleField_get {document value : Json} {key : String}
    (h : bundleField document key = .ok value) : document.get key = value := by
  obtain ⟨fields, rfl, hl⟩ := bundleField_eq_ok h
  simp only [Json.get, Fields.get, hl, Option.getD_some]

/-- The command of a document that the compiler resolved. -/
theorem configurationCommand_resolvedJson {name : String} {r : Requested} (h : r.Accepted)
    {geometry : ℤ × ℤ} (hg : GeometryAccepted geometry.1 geometry.2)
    {sequence contract writes : Json} {dspDigest profileDigest : BitVec 256}
    (hid : digestId dspDigest ≠ 0) :
    configurationCommand (resolvedJson name r geometry sequence contract dspDigest profileDigest
      writes) = .ok ⟨digestId dspDigest, r.active, geometry.1, geometry.2⟩ := by
  have hidRange : 1 ≤ digestId dspDigest ∧ digestId dspDigest ≤ 0xFFFFFFFFFFFFFFFF := by
    have hlt := (dspDigest.extractLsb' 192 64).isLt
    unfold digestId at hid ⊢
    omega
  have hread : configIdOf lacksBundle (.str ("0x" ++ hexText 16 (digestId dspDigest).toNat)) =
      .ok (digestId dspDigest) := by
    unfold configIdOf
    dsimp only
    rw [parseInt0_hexText, Int.toNat_of_nonneg (by omega)]
    rfl
  have hword : ∀ index value scale, commandValue index 0 0xFFFFFFFF (.int (phaseWord value scale)) =
      .ok (phaseWord value scale) := fun _ value scale =>
    commandValue_eq_ok.mpr ⟨rfl, phaseWord_range value scale⟩
  have hq : ∀ index {a : ℚ}, 0 ≤ a → commandValue index 0 0xFFFFFFFF (.int (q115 a)) =
      .ok (q115 a) := fun _ a ha =>
    commandValue_eq_ok.mpr ⟨rfl, (q115_range ha).1, (q115_range ha).2.trans (by norm_num)⟩
  obtain ⟨hlen, hcount, -⟩ := hg
  have hseed := h.seed
  have hsmall : ∀ index {n : ℤ}, 1 ≤ n → n ≤ 262144 →
      commandValue index 0 0xFFFFFFFF (.int n) = .ok n := fun _ n h1 h2 =>
    commandValue_eq_ok.mpr ⟨rfl, by omega, by omega⟩
  have hformat : ¬(!(Json.str resolvedFormat).pyEq (Json.str resolvedFormat)) = true := by
    simp [Json.pyEq]
  simp only [configurationCommand, bind_eq_ok, check_eq_ok]
  refine ⟨hformat, _, rfl, _, ⟨_, rfl, hread⟩, _, ⟨_, rfl, rfl⟩, _, rfl, _, rfl, _,
    rfl, _, rfl, _, rfl, _, rfl, _, rfl, _, rfl, _, rfl, _, rfl, _,
    commandValue_eq_ok.mpr ⟨rfl, hidRange⟩, _, hword 1 _ _, _, hword 2 _ _, _,
    hq 3 h.signal.1, _, hq 4 h.noise.1, _, hsmall 5 hseed.1 (hseed.2.trans (by norm_num)), _,
    hword 6 _ _, _,
    hword 7 _ _, _, hsmall 8 hlen.1 hlen.2, _, hsmall 9 hcount.1 (by omega), rfl⟩

/-- What `compile_profile` resolves to. -/
theorem compileProfile_eq_ok {repo : Repository} {document resolved : Json}
    (h : compileProfile repo document = .ok resolved) :
    ∃ name r geometry sequence contract dspDigest profileDigest writes,
      requestedOfSource (document.get "dsp") = .ok r ∧
      acquisitionOfSource (document.get "acquisition") = .ok geometry ∧
      resolved =
        resolvedJson name r geometry sequence contract dspDigest profileDigest writes := by
  simp only [compileProfile, bind_eq_ok, check_eq_ok] at h
  obtain ⟨root, hroot, -, name, -, r, hr, geometry, hg, source, -, sequence, -, contracts, -,
    writes, -, he⟩ := h
  obtain rfl := checkKeys_eq_ok hroot
  exact ⟨name, r, geometry, _, _, _, _, writes, hr, hg, (Except.ok.inj he).symm⟩

theorem compiled_words {repo : Repository} {document resolved : Json}
    (h : compileProfile repo document = .ok resolved) (hid : resolvedId resolved ≠ .ok 0) :
    ∃ r v, requestedOfSource (document.get "dsp") = .ok r ∧
      configurationCommand resolved = .ok v ∧ v.active = r.active ∧
      (validateRuntimeConfig v.words = .none ↔
        ¬HalfSteps r.signalAmplitude.value r.noiseAmplitude.value) := by
  obtain ⟨name, r, geometry, sequence, contract, dspDigest, profileDigest, writes, hr, hg, rfl⟩ :=
    compileProfile_eq_ok h
  have hr' := requestedOfSource_accepted hr
  have hg' := acquisitionOfSource_accepted hg
  have hid' : digestId dspDigest ≠ 0 := by
    intro hz
    refine hid ?_
    show configIdOf lacksBundle (.str ("0x" ++ hexText 16 (digestId dspDigest).toNat)) = .ok 0
    rw [hz]
    unfold configIdOf
    dsimp only
    rw [parseInt0_hexText]
    rfl
  have hlt := (dspDigest.extractLsb' 192 64).isLt
  refine ⟨r, _, hr, configurationCommand_resolvedJson hr' hg' hid', rfl, ?_⟩
  exact hr'.validate (by unfold digestId at hid' ⊢; omega) hg'

/-! ## Checked documents -/

theorem lookup_of_pyEq {xs ys : Fields} (h : Json.pyEqFields xs ys = true) {key : String} {n : ℤ}
    (hmem : (key, Json.int n) ∈ xs) :
    ∃ j, ys.lookup key = some j ∧ j.number? = some (n : ℚ) := by
  induction xs with
  | nil => cases hmem
  | cons x xs ih =>
    rw [Json.pyEqFields, Bool.and_eq_true] at h
    rcases List.mem_cons.mp hmem with rfl | hmem
    · have hx := h.1
      unfold Json.pyEqField at hx
      split at hx
      next j hj =>
        refine ⟨j, hj, ?_⟩
        cases j <;> simpa [Json.pyEq] using hx
      · cases hx
    · exact ih h.2 hmem

/-- A value that equals a word and is an integer is the word. -/
theorem eq_of_number {j : Json} {n m : ℤ} (hn : j.number? = some (n : ℚ)) (hm : j = .int m) :
    m = n := by
  rw [hm] at hn
  exact_mod_cast Option.some.inj hn

/-- The active values of a checked document are those of its requested values. -/
theorem active_eq {document : Json} {a : Active} {v : ConfigValues}
    (h : a.json.pyEq ((document.get "dsp").get "active") = true)
    (hv : configurationCommand document = .ok v) : v.active = a := by
  simp only [configurationCommand, bind_eq_ok, check_eq_ok] at hv
  obtain ⟨-, identity, -, id, -, active, ⟨dsp, hdsp, hactive⟩, acq, -, j₁, h₁, j₂, h₂, j₃, h₃, j₄,
    h₄, j₅, h₅, j₆, h₆, j₇, h₇, j₈, -, j₉, -, id', -, n₁, hn₁, n₂, hn₂, n₃, hn₃, n₄, hn₄, n₅, hn₅,
    n₆, hn₆, n₇, hn₇, n₈, -, n₉, -, he⟩ := hv
  rw [bundleField_get hdsp, bundleField_get hactive] at h
  obtain ⟨fields, rfl, -⟩ := bundleField_eq_ok h₁
  unfold Active.json at h
  rw [Json.pyEq, Bool.and_eq_true] at h
  have hvalue : ∀ {key : String} {n m : ℤ} {j : Json} {index : ℕ},
      bundleField (.obj fields) key = .ok j → commandValue index 0 0xFFFFFFFF j = .ok m →
      (key, n) ∈ a.fields → m = n := by
    intro key n m j index hj hm hmem
    obtain ⟨fs, hfs, hl⟩ := bundleField_eq_ok hj
    cases hfs
    obtain ⟨j', hl', hnum⟩ := lookup_of_pyEq h.2 (List.mem_map_of_mem hmem)
    rw [hl] at hl'
    cases hl'
    exact eq_of_number hnum (commandValue_eq_ok.mp hm).1
  cases he
  have e₁ := hvalue h₁ hn₁ (n := a.signalPhaseIncrement) (by simp [Active.fields])
  have e₂ := hvalue h₂ hn₂ (n := a.signalPhaseInitial) (by simp [Active.fields])
  have e₃ := hvalue h₃ hn₃ (n := a.signalAmplitude) (by simp [Active.fields])
  have e₄ := hvalue h₄ hn₄ (n := a.noiseAmplitude) (by simp [Active.fields])
  have e₅ := hvalue h₅ hn₅ (n := a.noiseSeed) (by simp [Active.fields])
  have e₆ := hvalue h₆ hn₆ (n := a.loPhaseIncrement) (by simp [Active.fields])
  have e₇ := hvalue h₇ hn₇ (n := a.loPhaseInitial) (by simp [Active.fields])
  subst e₁ e₂ e₃ e₄ e₅ e₆ e₇
  rfl

theorem configurationCommand_range {document : Json} {v : ConfigValues}
    (h : configurationCommand document = .ok v) :
    (1 ≤ v.configId ∧ v.configId ≤ 0xFFFFFFFFFFFFFFFF) ∧
      (document.get "acquisition").get "frame_length_words" = .int v.frameLength ∧
      (document.get "acquisition").get "frame_count" = .int v.frameCount := by
  simp only [configurationCommand, bind_eq_ok, check_eq_ok] at h
  obtain ⟨-, identity, -, id, -, active, -, acq, hacq, j₁, -, j₂, -, j₃, -, j₄, -, j₅, -, j₆, -,
    j₇, -, j₈, h₈, j₉, h₉, id', hid, n₁, -, n₂, -, n₃, -, n₄, -, n₅, -, n₆, -, n₇, -, n₈, hn₈, n₉,
    hn₉, he⟩ := h
  cases he
  refine ⟨(commandValue_eq_ok.mp hid).2, ?_, ?_⟩
  · rw [bundleField_get hacq, bundleField_get h₈, (commandValue_eq_ok.mp hn₈).1]
  · rw [bundleField_get hacq, bundleField_get h₉, (commandValue_eq_ok.mp hn₉).1]

theorem checked_words {repo : Repository} {document resolved : Json}
    (h : validateResolvedProfile repo document = .ok resolved) :
    ∃ fields r v, (document.get "dsp").get "requested" = .obj fields ∧
      requestedOfResolved fields = .ok r ∧ configurationCommand resolved = .ok v ∧
      v.active = r.active ∧
      (validateRuntimeConfig v.words = .none ↔
        ¬HalfSteps r.signalAmplitude.value r.noiseAmplitude.value) := by
  simp only [validateResolvedProfile, bind_eq_ok, check_eq_ok] at h
  obtain ⟨root, hroot, -, identity, -, dsp, hdsp, requested, hrequested, -, -, -, -, acq, hacq,
    sequence, -, contracts, -, -, r, hr, hactive, -, len, hlen, count, hcount, hgeometry, id, -, -,
    -, -, writes, -, -, v, hv, he⟩ := h
  cases he
  obtain rfl := checkKeys_eq_ok hroot
  have hget : ∀ key, Json.get (.obj root) key = Fields.get root key := fun _ => rfl
  have hdspEq : Json.get (.obj root) "dsp" = .obj dsp := checkKeys_eq_ok hdsp
  have hacqEq : Json.get (.obj root) "acquisition" = .obj acq := checkKeys_eq_ok hacq
  have hr' := requestedOfResolved_accepted hr
  have hv' : v.active = r.active := by
    refine active_eq ?_ hv
    rw [hdspEq]
    show r.active.json.pyEq (Fields.get dsp "active") = true
    simpa using hactive
  obtain ⟨hid, hl, hc⟩ := configurationCommand_range hv
  rw [hacqEq] at hl hc
  obtain ⟨hlenEq, hlenRange⟩ := integer_eq_ok.mp hlen
  obtain ⟨hcountEq, hcountRange⟩ := integer_eq_ok.mp hcount
  have hlen' : v.frameLength = len := Json.int.inj (hl.symm.trans hlenEq)
  have hcount' : v.frameCount = count := Json.int.inj (hc.symm.trans hcountEq)
  refine ⟨requested, r, v, ?_, hr, hv, hv', ?_⟩
  · rw [hdspEq]
    exact checkKeys_eq_ok hrequested
  · have hg : GeometryAccepted v.frameLength v.frameCount := by
      rw [hlen', hcount']
      refine ⟨hlenRange, hcountRange, ?_⟩
      simp only [Bool.or_eq_true, decide_eq_true_eq, not_or, not_lt] at hgeometry
      exact hgeometry.2
    have hvalid := hr'.validate hid hg
    rw [← hv'] at hvalid
    exact hvalid

/-- The runtime configuration of an accepted profile passes the R5's validation, unless both
amplitudes lie on half steps that add up to full scale. -/
theorem profile_words (repo : Repository) (document resolved : Json) :
    (compileProfile repo document = .ok resolved → resolvedId resolved ≠ .ok 0 →
      ∃ r v, requestedOfSource (document.get "dsp") = .ok r ∧
        configurationCommand resolved = .ok v ∧ v.active = r.active ∧
        (validateRuntimeConfig v.words = .none ↔
          ¬HalfSteps r.signalAmplitude.value r.noiseAmplitude.value)) ∧
    (validateResolvedProfile repo document = .ok resolved →
      ∃ fields r v, (document.get "dsp").get "requested" = .obj fields ∧
        requestedOfResolved fields = .ok r ∧ configurationCommand resolved = .ok v ∧
        v.active = r.active ∧
        (validateRuntimeConfig v.words = .none ↔
          ¬HalfSteps r.signalAmplitude.value r.noiseAmplitude.value)) :=
  ⟨compiled_words, checked_words⟩

/-! ## Two profiles -/

/-- A repository with one sequence and no register contract. -/
def smallRepository : Repository where
  resolveSequence source := .ok ⟨source, "", 0, 1, 100000000⟩
  loadContracts := .ok ⟨.int 217, .str "", .str "", 12288, []⟩
  sha256 _ := 1 <<< 192

/-- A profile with the given amplitudes. -/
def smallProfile (signal noise : Decimal) : Json :=
  .obj [("format", .str profileFormat), ("name", .str "small"),
    ("dsp", .obj [("signal_frequency_hz", .int 0), ("signal_phase_turns", .int 0),
      ("signal_amplitude", .decimal signal), ("noise_amplitude", .decimal noise),
      ("noise_seed", .int 1), ("lo_frequency_hz", .int 0), ("lo_phase_turns", .int 0)]),
    ("acquisition", .obj [("frame_length_words", .int 1), ("frame_count", .int 1),
      ("stream_mode", .str "dsp")]),
    ("sequence", .obj [("source", .str "small.json")])]

/-- A profile with two halves, compiled and checked again. -/
theorem profile_words_halves : ∃ resolved checked,
    compileProfile smallRepository (smallProfile ⟨false, 5, -1⟩ ⟨false, 5, -1⟩) = .ok resolved ∧
      validateResolvedProfile smallRepository resolved = .ok checked ∧
      (∃ r v, requestedOfSource ((smallProfile ⟨false, 5, -1⟩ ⟨false, 5, -1⟩).get "dsp") = .ok r ∧
        configurationCommand resolved = .ok v ∧ v.active = r.active ∧
        (validateRuntimeConfig v.words = .none ↔
          ¬HalfSteps r.signalAmplitude.value r.noiseAmplitude.value)) ∧
      ∃ fields r v, (resolved.get "dsp").get "requested" = .obj fields ∧
        requestedOfResolved fields = .ok r ∧ configurationCommand checked = .ok v ∧
        v.active = r.active ∧
        (validateRuntimeConfig v.words = .none ↔
          ¬HalfSteps r.signalAmplitude.value r.noiseAmplitude.value) := by
  have hrun : ((compileProfile smallRepository
      (smallProfile ⟨false, 5, -1⟩ ⟨false, 5, -1⟩)).toOption.any fun resolved =>
        decide ((resolvedId resolved).toOption = some 1) &&
          (validateResolvedProfile smallRepository resolved).toOption.any fun _ => true) =
            true := by
    decide +kernel
  obtain ⟨resolved, hcompile, hrest⟩ := exists_of_any hrun
  rw [Bool.and_eq_true, decide_eq_true_eq] at hrest
  obtain ⟨checked, hcheck, -⟩ := exists_of_any hrest.2
  have hid : resolvedId resolved ≠ .ok 0 := by
    intro h0
    rw [h0] at hrest
    exact absurd hrest.1 (by decide)
  exact ⟨resolved, checked, hcompile, hcheck,
    (profile_words smallRepository _ resolved).1 hcompile hid,
    (profile_words smallRepository resolved checked).2 hcheck⟩

/-- Amplitudes of three and 65533 half steps are accepted, and staged as 2 and 32767. -/
theorem profile_words_halfSteps : ¬∀ (repo : Repository) (document resolved : Json) v,
    compileProfile repo document = .ok resolved → resolvedId resolved ≠ .ok 0 →
      configurationCommand resolved = .ok v → validateRuntimeConfig v.words = .none := by
  intro h
  have hrun : ((compileProfile smallRepository
      (smallProfile ⟨false, 457763671875, -16⟩
        ⟨false, 9999542236328125, -16⟩)).toOption.any fun resolved =>
        decide ((resolvedId resolved).toOption = some 1) &&
          (configurationCommand resolved).toOption.any fun v =>
            decide (validateRuntimeConfig v.words = .amplitudeSum)) = true := by
    decide +kernel
  obtain ⟨resolved, hcompile, hrest⟩ := exists_of_any hrun
  rw [Bool.and_eq_true, decide_eq_true_eq] at hrest
  obtain ⟨v, hv, hsum⟩ := exists_of_any hrest.2
  rw [decide_eq_true_eq] at hsum
  have hid : resolvedId resolved ≠ .ok 0 := by
    intro h0
    rw [h0] at hrest
    exact absurd hrest.1 (by decide)
  have hnone := h _ _ resolved v hcompile hid hv
  rw [hsum] at hnone
  cases hnone

end QCrate.Host
