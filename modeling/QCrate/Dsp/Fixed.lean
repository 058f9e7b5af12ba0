import Mathlib.Tactic

/-!
# The fixed-point DSP model

`host/dsp_model/qcrate_dsp.py`, the bit-accurate path: the noise generator, the front end and the
decimating FIR. The arrays are lists of integers; every value stored fits the type of its array.

* `Words` — the integers a configuration is quantised to.
* `Tables` — the quarter sine and the coefficients.
* `runFixedFrontend`, `runFixedFir`, `packIqWords` — the model.
* `mixedAt` — the mixed sample at an index, in closed form; `outputAt` the output at an index.
-/

namespace QCrate.Dsp

def sampleRateHz : ℤ := 200000000
def decimation : ℕ := 16
def phaseModulus : ℤ := 2 ^ 32
def quarterPhase : ℤ := 2 ^ 30
def lutAddrBits : ℕ := 12
def quarterLutBits : ℕ := 10
def quarterLutSize : ℕ := 1025
def adcBits : ℕ := 16
def adcFracBits : ℕ := 15
def mixerBits : ℕ := 18
def mixerFracBits : ℕ := 17
def coefficientFracBits : ℕ := 17
def firAccumulatorBits : ℕ := 48
def outputBits : ℕ := 16
def outputFracBits : ℕ := 15
def firTaps : ℕ := 217

/-- The tracked tables: a quarter sine with non-negative entries and 18-bit coefficients. -/
structure Tables where
  sine : List ℤ
  fir : List ℤ
  sine_length : sine.length = quarterLutSize
  fir_length : fir.length = firTaps
  sine_range : ∀ x ∈ sine, 0 ≤ x ∧ x < 2 ^ 15
  fir_range : ∀ x ∈ fir, -2 ^ 17 ≤ x ∧ x < 2 ^ 17

/-- A sine that rises evenly, and a FIR that sums. -/
def rampTables : Tables where
  sine := (List.range quarterLutSize).map fun i : ℕ => ((31 * i : ℕ) : ℤ)
  fir := List.replicate firTaps 1
  sine_length := by rw [List.length_map, List.length_range]
  fir_length := List.length_replicate
  sine_range x hx := by
    obtain ⟨i, hi, rfl⟩ := List.mem_map.mp hx
    have hlt : i < 1025 := List.mem_range.mp hi
    exact ⟨Int.natCast_nonneg _, by push_cast; omega⟩
  fir_range x hx := by rw [List.eq_of_mem_replicate hx]; norm_num

/-- The integers that the front end works with. -/
structure Words where
  signalIncrement : ℤ
  signalInitial : ℤ
  signalAmplitude : ℤ
  noiseAmplitude : ℤ
  noiseSeed : ℕ
  loIncrement : ℤ
  loInitial : ℤ

/-! ## Arithmetic -/

/-- `saturate` -/
def saturate (value : ℤ) (bits : ℕ) : ℤ :=
  let minimum := -2 ^ (bits - 1)
  let maximum := 2 ^ (bits - 1) - 1
  min maximum (max minimum value)

/-- `round_shift` -/
def roundShift (value shift : ℤ) : ℤ :=
  if shift < 0 then value * 2 ^ (-shift).toNat
  else if shift = 0 then value
  else
    let rounded := (|value| + 2 ^ (shift.toNat - 1)) / 2 ^ shift.toNat
    if 0 ≤ value then rounded else -rounded

theorem saturate_range (value : ℤ) (bits : ℕ) :
    -2 ^ (bits - 1) ≤ saturate value bits ∧ saturate value bits < 2 ^ (bits - 1) := by
  have hpow : (0 : ℤ) < 2 ^ (bits - 1) := by positivity
  unfold saturate
  dsimp only
  omega

/-- `nco_lookup` -/
def ncoLookup (phaseWord : ℤ) (quarterLut : List ℤ) : ℤ :=
  let fullIndex := (phaseWord % phaseModulus / 2 ^ (32 - lutAddrBits)).toNat
  let quadrant := fullIndex / 2 ^ quarterLutBits
  let offset := fullIndex % 2 ^ quarterLutBits
  if quadrant = 0 then quarterLut.getD offset 0
  else if quadrant = 1 then quarterLut.getD (2 ^ quarterLutBits - offset) 0
  else if quadrant = 2 then -quarterLut.getD offset 0
  else -quarterLut.getD (2 ^ quarterLutBits - offset) 0

/-! ## Noise -/

/-- One step of the generator. -/
def lfsrStep (state : ℕ) : ℕ :=
  if state % 2 = 1 then (state / 2) ^^^ 0xB400 else state / 2

/-- `lfsr16_noise` from a state. -/
def lfsr16Noise : ℕ → ℕ → List ℤ
  | 0, _ => []
  | count + 1, state => ((lfsrStep state : ℕ) - 0x8000 : ℤ) :: lfsr16Noise count (lfsrStep state)

/-! ## The front end -/

structure FrontendSample where
  adc : ℤ
  loSin : ℤ
  loCos : ℤ
  mixedI : ℤ
  mixedQ : ℤ
  deriving DecidableEq

/-- One turn of the loop of `_run_fixed_frontend`. -/
def frontendSample (w : Words) (sineLut : List ℤ) (signalPhase loPhase noise : ℤ) :
    FrontendSample :=
  let sourceCos := ncoLookup (signalPhase + quarterPhase) sineLut
  let loCos := ncoLookup (loPhase + quarterPhase) sineLut
  let loSin := ncoLookup loPhase sineLut
  let source := saturate (roundShift (sourceCos * w.signalAmplitude) adcFracBits) adcBits
  let noise := saturate (roundShift (noise * w.noiseAmplitude) adcFracBits) adcBits
  let adc := saturate (source + noise) adcBits
  { adc, loSin, loCos
    mixedI := saturate (roundShift (adc * loCos) (2 * adcFracBits - mixerFracBits)) mixerBits
    mixedQ := saturate (roundShift (-adc * loSin) (2 * adcFracBits - mixerFracBits)) mixerBits }

/-- The loop of `_run_fixed_frontend`. -/
def frontendLoop (w : Words) (sineLut : List ℤ) : ℤ → ℤ → List ℤ → List FrontendSample
  | _, _, [] => []
  | signalPhase, loPhase, noise :: rest =>
    frontendSample w sineLut signalPhase loPhase noise ::
      frontendLoop w sineLut ((signalPhase + w.signalIncrement) % phaseModulus)
        ((loPhase + w.loIncrement) % phaseModulus) rest

/-- `_run_fixed_frontend` -/
def runFixedFrontend (w : Words) (sineLut : List ℤ) (noise : List ℤ) : List FrontendSample :=
  frontendLoop w sineLut w.signalInitial w.loInitial noise

/-! ## The filter -/

/-- `samples[::-1]` of the window that ends at an index, times the coefficients. -/
def windowDot (mixed coefficients : List ℤ) (inputIndex : ℕ) : ℤ :=
  let validTaps := min firTaps (inputIndex + 1)
  let samples := ((mixed.take (inputIndex + 1)).drop (inputIndex + 1 - validTaps)).reverse
  (List.zipWith (· * ·) samples (coefficients.take validTaps)).sum

structure DspError where
  message : String
  deriving DecidableEq

/-- One output of `run_fixed_fir`: the accumulators and the narrowed values. -/
structure FirOutput where
  accumulatorI : ℤ
  accumulatorQ : ℤ
  outputI : ℤ
  outputQ : ℤ
  deriving DecidableEq

def narrow (sum : ℤ) : ℤ :=
  saturate (roundShift sum (mixerFracBits + coefficientFracBits - outputFracBits)) outputBits

/-- One turn of the loop of `run_fixed_fir`. -/
def firOutput (mixedI mixedQ coefficients : List ℤ) (outputIndex : ℕ) : Except DspError FirOutput :=
  let inputIndex := (outputIndex + 1) * decimation - 1
  let limit : ℤ := 2 ^ (firAccumulatorBits - 1)
  let sumI := windowDot mixedI coefficients inputIndex
  let sumQ := windowDot mixedQ coefficients inputIndex
  if ¬(-limit ≤ sumI ∧ sumI < limit) then .error ⟨"I FIR accumulator exceeded 48 signed bits"⟩
  else if ¬(-limit ≤ sumQ ∧ sumQ < limit) then
    .error ⟨"Q FIR accumulator exceeded 48 signed bits"⟩
  else .ok ⟨sumI, sumQ, narrow sumI, narrow sumQ⟩

/-- `run_fixed_fir` -/
def runFixedFir (mixedI mixedQ coefficients : List ℤ) : Except DspError (List FirOutput) :=
  if mixedI.length ≠ mixedQ.length then
    .error ⟨"mixed I/Q inputs must be equal-length vectors"⟩
  else if mixedI.length < decimation then
    .error ⟨"FIR input must contain at least one decimation interval"⟩
  else (List.range (mixedI.length / decimation)).mapM (firOutput mixedI mixedQ coefficients)

/-- `pack_iq_words` -/
def packIqWords (outputs : List FirOutput) : List ℕ :=
  outputs.map fun o => (o.outputQ % 2 ^ 16).toNat <<< 16 ||| (o.outputI % 2 ^ 16).toNat

/-! ## Closed forms -/

/-- The phase after so many samples. -/
def phaseAt (initial increment : ℤ) (index : ℕ) : ℤ :=
  (initial + index * increment) % phaseModulus

/-- The noise at an index. -/
def noiseAt (seed index : ℕ) : ℤ :=
  (lfsrStep^[index + 1] seed : ℕ) - 0x8000

/-- The sample at an index. -/
def sampleAt (w : Words) (sineLut : List ℤ) (index : ℕ) : FrontendSample :=
  frontendSample w sineLut (phaseAt w.signalInitial w.signalIncrement index)
    (phaseAt w.loInitial w.loIncrement index) (noiseAt w.noiseSeed index)

theorem lfsr16Noise_eq (count seed : ℕ) :
    lfsr16Noise count seed = (List.range count).map (noiseAt seed) := by
  induction count generalizing seed with
  | zero => rfl
  | succ count ih =>
    rw [lfsr16Noise, ih, List.range_succ_eq_map, List.map_cons, List.map_map]
    rfl

theorem phaseAt_succ (initial increment : ℤ) (index : ℕ) :
    (phaseAt initial increment index + increment) % phaseModulus =
      phaseAt initial increment (index + 1) := by
  unfold phaseAt
  rw [Int.emod_add_emod]
  push_cast
  ring_nf

theorem phaseAt_zero {initial : ℤ} (increment : ℤ) (h : 0 ≤ initial ∧ initial < phaseModulus) :
    phaseAt initial increment 0 = initial := by
  unfold phaseAt
  rw [Nat.cast_zero, zero_mul, add_zero, Int.emod_eq_of_lt h.1 h.2]

/-- The phases are words. -/
structure Words.InRange (w : Words) : Prop where
  signal : 0 ≤ w.signalInitial ∧ w.signalInitial < phaseModulus
  lo : 0 ≤ w.loInitial ∧ w.loInitial < phaseModulus

variable {w : Words} {t : Tables}

theorem frontendLoop_eq (w : Words) (sineLut : List ℤ) (count start : ℕ) :
    frontendLoop w sineLut (phaseAt w.signalInitial w.signalIncrement start)
        (phaseAt w.loInitial w.loIncrement start)
        ((List.range count).map fun k => noiseAt w.noiseSeed (start + k)) =
      (List.range count).map fun k => sampleAt w sineLut (start + k) := by
  induction count generalizing start with
  | zero => rfl
  | succ count ih =>
    have hshift : ∀ {α : Type} (f : ℕ → α), (List.range (count + 1)).map (fun k => f (start + k)) =
        f start :: (List.range count).map fun k => f (start + 1 + k) := by
      intro α f
      rw [List.range_succ_eq_map, List.map_cons, List.map_map]
      refine congrArg _ (List.map_congr_left fun k _ => ?_)
      exact congrArg f (by simp only [Nat.succ_eq_add_one]; omega)
    rw [hshift, hshift, frontendLoop, phaseAt_succ, phaseAt_succ, ih (start + 1)]
    rfl

/-- The samples of a run. -/
theorem runFixedFrontend_eq (h : w.InRange) (sineLut : List ℤ) (count : ℕ) :
    runFixedFrontend w sineLut (lfsr16Noise count w.noiseSeed) =
      (List.range count).map (sampleAt w sineLut) := by
  have hloop := frontendLoop_eq w sineLut count 0
  rw [phaseAt_zero _ h.signal, phaseAt_zero _ h.lo] at hloop
  unfold runFixedFrontend
  rw [lfsr16Noise_eq]
  simpa only [Nat.zero_add] using hloop

/-- The sum over the taps at an index, for samples that are a function of the index. -/
def tapSum (f : ℕ → ℤ) (coefficients : List ℤ) (inputIndex : ℕ) : ℤ :=
  ((List.range (min firTaps (inputIndex + 1))).map fun tap =>
    f (inputIndex - tap) * coefficients.getD tap 0).sum

/-- The reversed window is the samples from the index backwards. -/
theorem windowDot_eq (f : ℕ → ℤ) {coefficients : List ℤ} (hlen : coefficients.length = firTaps)
    {count inputIndex : ℕ} (h : inputIndex < count) :
    windowDot ((List.range count).map f) coefficients inputIndex =
      tapSum f coefficients inputIndex := by
  unfold windowDot tapSum
  dsimp only
  congr 1
  refine List.ext_getElem ?_ fun tap h₁ h₂ => ?_
  · simp [hlen]
    omega
  · have htap : tap < min firTaps (inputIndex + 1) := by simpa using h₂
    have hcoef : tap < coefficients.length := by omega
    have hget : coefficients.getD tap 0 = coefficients[tap] := by
      rw [List.getD_eq_getElem?_getD, List.getElem?_eq_getElem hcoef, Option.getD_some]
    simp only [List.getElem_zipWith, List.getElem_reverse, List.getElem_drop, List.getElem_take,
      List.getElem_map, List.getElem_range, hget, List.length_drop, List.length_take,
      List.length_map, List.length_range]
    congr 2
    omega

/-! ## The accumulators fit -/

theorem sampleAt_mixed_range (w : Words) (sineLut : List ℤ) (index : ℕ) :
    |(sampleAt w sineLut index).mixedI| ≤ 2 ^ 17 ∧
      |(sampleAt w sineLut index).mixedQ| ≤ 2 ^ 17 := by
  have hrange : ∀ value, |saturate value mixerBits| ≤ 2 ^ 17 := fun value => by
    obtain ⟨hlow, hhigh⟩ := saturate_range value mixerBits
    rw [abs_le]
    exact ⟨hlow, hhigh.le⟩
  exact ⟨hrange _, hrange _⟩

theorem tapSum_range {f : ℕ → ℤ} (hf : ∀ k, |f k| ≤ 2 ^ 17) (t : Tables) (inputIndex : ℕ) :
    |tapSum f t.fir inputIndex| < 2 ^ 47 := by
  have hcoef : ∀ tap, |t.fir.getD tap 0| ≤ 2 ^ 17 := by
    intro tap
    rw [List.getD_eq_getElem?_getD]
    cases h : t.fir[tap]? with
    | none => norm_num
    | some c =>
      obtain ⟨hlow, hhigh⟩ := t.fir_range c (List.mem_of_getElem? h)
      rw [Option.getD_some, abs_le]
      exact ⟨hlow, hhigh.le⟩
  have hterm : ∀ x ∈ (List.range (min firTaps (inputIndex + 1))).map fun tap =>
      f (inputIndex - tap) * t.fir.getD tap 0, |x| ≤ 2 ^ 34 := by
    intro x hx
    obtain ⟨tap, -, rfl⟩ := List.mem_map.mp hx
    rw [abs_mul]
    calc |f (inputIndex - tap)| * |t.fir.getD tap 0| ≤ 2 ^ 17 * 2 ^ 17 :=
          mul_le_mul (hf _) (hcoef _) (abs_nonneg _) (by norm_num)
      _ = 2 ^ 34 := by norm_num
  have hlength : (((List.range (min firTaps (inputIndex + 1))).map fun tap =>
      f (inputIndex - tap) * t.fir.getD tap 0).length : ℤ) ≤ 217 := by
    rw [List.length_map, List.length_range]
    exact_mod_cast Nat.min_le_left firTaps (inputIndex + 1)
  have hupper := List.sum_le_card_nsmul _ (2 ^ 34 : ℤ) fun x hx => (abs_le.mp (hterm x hx)).2
  have hlower := List.card_nsmul_le_sum _ (-2 ^ 34 : ℤ) fun x hx => (abs_le.mp (hterm x hx)).1
  rw [nsmul_eq_mul] at hupper hlower
  unfold tapSum
  rw [abs_lt]
  constructor <;> linarith

/-- The output at an index, in closed form. -/
def outputAt (w : Words) (t : Tables) (outputIndex : ℕ) : FirOutput :=
  let inputIndex := (outputIndex + 1) * decimation - 1
  let sumI := tapSum (fun k => (sampleAt w t.sine k).mixedI) t.fir inputIndex
  let sumQ := tapSum (fun k => (sampleAt w t.sine k).mixedQ) t.fir inputIndex
  ⟨sumI, sumQ, narrow sumI, narrow sumQ⟩

theorem firOutput_eq (w : Words) (t : Tables) {count outputIndex : ℕ}
    (h : (outputIndex + 1) * decimation ≤ count) :
    firOutput ((List.range count).map fun k => (sampleAt w t.sine k).mixedI)
        ((List.range count).map fun k => (sampleAt w t.sine k).mixedQ) t.fir outputIndex =
      .ok (outputAt w t outputIndex) := by
  have hlt : (outputIndex + 1) * decimation - 1 < count := by
    unfold decimation at h ⊢
    omega
  have hI := abs_lt.mp (tapSum_range (fun k => (sampleAt_mixed_range w t.sine k).1) t
    ((outputIndex + 1) * decimation - 1))
  have hQ := abs_lt.mp (tapSum_range (fun k => (sampleAt_mixed_range w t.sine k).2) t
    ((outputIndex + 1) * decimation - 1))
  unfold firOutput
  dsimp only
  rw [windowDot_eq _ t.fir_length hlt, windowDot_eq _ t.fir_length hlt,
    if_neg (not_not.mpr ⟨hI.1.le, hI.2⟩), if_neg (not_not.mpr ⟨hQ.1.le, hQ.2⟩)]
  rfl

/-- The outputs of a run. -/
theorem runFixedFir_eq (w : Words) (t : Tables) {n : ℕ} (h : 1 ≤ n) :
    runFixedFir ((List.range (n * decimation)).map fun k => (sampleAt w t.sine k).mixedI)
        ((List.range (n * decimation)).map fun k => (sampleAt w t.sine k).mixedQ) t.fir =
      .ok ((List.range n).map (outputAt w t)) := by
  have hdiv : n * decimation / decimation = n :=
    Nat.mul_div_cancel _ (by decide)
  have hall : ∀ indices : List ℕ, (∀ i ∈ indices, i < n) →
      indices.mapM (firOutput
        ((List.range (n * decimation)).map fun k => (sampleAt w t.sine k).mixedI)
        ((List.range (n * decimation)).map fun k => (sampleAt w t.sine k).mixedQ) t.fir) =
      .ok (indices.map (outputAt w t)) := by
    intro indices hi
    induction indices with
    | nil => rfl
    | cons i indices ih =>
      rw [List.mapM_cons, firOutput_eq w t (Nat.mul_le_mul_right _ (hi i List.mem_cons_self)),
        ih fun j hj => hi j (List.mem_cons_of_mem _ hj)]
      rfl
  unfold runFixedFir
  rw [List.length_map, List.length_map, List.length_range, if_neg (by simp),
    if_neg (by unfold decimation; omega), hdiv]
  exact hall _ fun i hi => List.mem_range.mp hi

end QCrate.Dsp
