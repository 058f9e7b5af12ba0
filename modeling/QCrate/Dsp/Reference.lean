import QCrate.Dsp.Config

/-!
# The standard-library reference

`host/dsp_model/qcrate_dsp_reference.py`: one loop that generates, mixes, filters and packs as it
goes. It reads a configuration on its own and checks less of it.

* `generateWords` — the reference.
* `GenState.after_eq` — the state of the loop after so many turns, in closed form.
* `references_agree` — on a valid configuration it produces the first words of the model.
-/

namespace QCrate.Dsp.Reference

open QCrate.Lib QCrate.Host

structure ReferenceError where
  message : String
  deriving DecidableEq

/-! ## Arithmetic -/

/-- `saturate` -/
def saturate (value : ℤ) (bits : ℕ) : ℤ :=
  min (max value (-2 ^ (bits - 1))) (2 ^ (bits - 1) - 1)

/-- `round_shift` -/
def roundShift (value : ℤ) (shift : ℕ) : ℤ :=
  let rounded := (|value| + 2 ^ (shift - 1)) / 2 ^ shift
  if 0 ≤ value then rounded else -rounded

/-- `frequency_to_phase_word` -/
def frequencyToPhaseWord (frequencyHz : ℚ) (sampleRateHz : ℤ) : ℤ :=
  let scaled := context precision (context precision (frequencyHz * phaseModulus) / sampleRateHz)
  roundHalfUp scaled % 2 ^ 32

/-- The phase word of a phase in turns. -/
def turnsToPhaseWord (turns : ℚ) : ℤ :=
  roundHalfUp (context precision (turns * phaseModulus)) % 2 ^ 32

/-- `decimal_to_q1_15` -/
def decimalToQ115 (value : ℚ) : ℤ :=
  saturate (roundHalfUp (context precision (value * 2 ^ 15))) 16

/-- `nco_lookup` -/
def ncoLookup (phaseWord : ℤ) (quarterLut : List ℤ) : ℤ :=
  let fullIndex := (phaseWord % 2 ^ 32 / 2 ^ (32 - 12)).toNat
  let quadrant := fullIndex / 2 ^ 10
  let offset := fullIndex % 2 ^ 10
  if quadrant = 0 then quarterLut.getD offset 0
  else if quadrant = 1 then quarterLut.getD (2 ^ 10 - offset) 0
  else if quadrant = 2 then -quarterLut.getD offset 0
  else -quarterLut.getD (2 ^ 10 - offset) 0

/-- `lfsr_step` -/
def lfsrStep (state : ℕ) : ℕ :=
  let shifted := state / 2
  if state % 2 = 1 then shifted ^^^ 0xB400 else shifted

/-! ## The loop -/

structure GenState where
  lfsr : ℕ
  signalPhase : ℤ
  loPhase : ℤ
  mixedI : List ℤ
  mixedQ : List ℤ
  outputWords : List ℕ

/-- The sum over the taps that have a sample. -/
def tapSum (mixed coefficients : List ℤ) (inputIndex : ℕ) : ℤ :=
  ((List.range (min firTaps (inputIndex + 1))).map fun tap =>
    mixed.getD (inputIndex - tap) 0 * coefficients.getD tap 0).sum

/-- One turn of the loop. -/
def generateStep (w : Words) (sineLut coefficients : List ℤ) (st : GenState) (inputIndex : ℕ) :
    GenState :=
  let lfsr := lfsrStep st.lfsr
  let noiseQ115 : ℤ := (lfsr : ℤ) - 0x8000
  let sourceCosine := ncoLookup (st.signalPhase + quarterPhase) sineLut
  let loCosine := ncoLookup (st.loPhase + quarterPhase) sineLut
  let loSine := ncoLookup st.loPhase sineLut
  let source := saturate (roundShift (sourceCosine * w.signalAmplitude) 15) 16
  let noise := saturate (roundShift (noiseQ115 * w.noiseAmplitude) 15) 16
  let adc := saturate (source + noise) 16
  let mixedI := st.mixedI ++ [saturate (roundShift (adc * loCosine) 13) 18]
  let mixedQ := st.mixedQ ++ [saturate (roundShift (-adc * loSine) 13) 18]
  let outputWords :=
    if inputIndex % decimation = decimation - 1 then
      let outputI := saturate (roundShift (tapSum mixedI coefficients inputIndex) 19) 16
      let outputQ := saturate (roundShift (tapSum mixedQ coefficients inputIndex) 19) 16
      st.outputWords ++ [(outputQ % 2 ^ 16).toNat <<< 16 ||| (outputI % 2 ^ 16).toNat]
    else st.outputWords
  { lfsr, mixedI, mixedQ, outputWords
    signalPhase := (st.signalPhase + w.signalIncrement) % 2 ^ 32
    loPhase := (st.loPhase + w.loIncrement) % 2 ^ 32 }

/-- The state after so many turns. -/
def GenState.after (w : Words) (sineLut coefficients : List ℤ) (turns : ℕ) : GenState :=
  (List.range turns).foldl (generateStep w sineLut coefficients)
    ⟨w.noiseSeed, w.signalInitial, w.loInitial, [], [], []⟩

/-! ## Reading a configuration -/

structure Parsed where
  sampleRateHz : ℤ
  decimation : ℤ
  words : Words

/-- The words of the requested values under the keys of a document. A valid seed is positive. -/
def readWords (document : Json) (sampleRateHz : ℤ) : Except ReferenceError Words := do
  let e : ReferenceError := ⟨"invalid configuration"⟩
  let signalFrequency ← itemDecimal e document "signal_frequency_hz"
  let loFrequency ← itemDecimal e document "lo_frequency_hz"
  let signalPhase ← itemDecimal e document "signal_phase_turns"
  let loPhase ← itemDecimal e document "lo_phase_turns"
  let signalAmplitude ← itemDecimal e document "signal_amplitude"
  let noiseAmplitude ← itemDecimal e document "noise_amplitude"
  let seed ← itemInt e document "noise_seed"
  return {
    signalIncrement := frequencyToPhaseWord signalFrequency.value sampleRateHz
    signalInitial := turnsToPhaseWord signalPhase.value
    signalAmplitude := decimalToQ115 signalAmplitude.value
    noiseAmplitude := decimalToQ115 noiseAmplitude.value
    noiseSeed := seed.toNat
    loIncrement := frequencyToPhaseWord loFrequency.value sampleRateHz
    loInitial := turnsToPhaseWord loPhase.value }

/-- The words a resolved profile must carry, by name. -/
def expectedActive (w : Words) : List (String × ℤ) :=
  [("SIGNAL_PHASE_INCREMENT", w.signalIncrement), ("SIGNAL_PHASE_INITIAL", w.signalInitial),
    ("SIGNAL_AMPLITUDE_Q1_15", w.signalAmplitude), ("NOISE_AMPLITUDE_Q1_15", w.noiseAmplitude),
    ("NOISE_SEED", w.noiseSeed), ("LO_PHASE_INCREMENT", w.loIncrement),
    ("LO_PHASE_INITIAL", w.loInitial)]

/-- The two branches that read the configuration. -/
def parseConfig (config : Json) : Except ReferenceError Parsed := do
  let e : ReferenceError := ⟨"invalid configuration"⟩
  if (Json.str "qcrate-experiment-resolved-v1").pyEq (itemOrNull config "format") then
    let contract ← item e config "numerical_contract"
    let dsp ← item e config "dsp"
    let requested ← item e dsp "requested"
    let active ← item e dsp "active"
    let sampleRateHz ← itemInt e contract "sample_rate_hz"
    let decimation ← itemInt e contract "decimation"
    let words ← readWords requested sampleRateHz
    checkActive (fun name => (⟨s!"resolved {name} differs"⟩ : ReferenceError)) active
      (expectedActive words)
    return ⟨sampleRateHz, decimation, words⟩
  else
    let sampleRateHz ← itemInt e config "sample_rate_hz"
    let decimation ← itemInt e config "decimation"
    let words ← readWords config sampleRateHz
    return ⟨sampleRateHz, decimation, words⟩

/-- `generate_words` on the loaded configuration and tables. -/
def generateWords (t : Tables) (config : Json) (outputCount : ℤ) :
    Except ReferenceError (List ℕ) := do
  if outputCount < 1 then .error ⟨"output_count must be positive"⟩
  let parsed ← parseConfig config
  if parsed.sampleRateHz ≠ 200000000 ∨ parsed.decimation ≠ decimation then
    .error ⟨"DSP-2B requires the frozen 200 MHz, decimate-by-16 contract"⟩
  return (GenState.after parsed.words t.sine t.fir
    (outputCount * parsed.decimation).toNat).outputWords

/-! ## The same arithmetic -/

theorem saturate_eq (value : ℤ) (bits : ℕ) : saturate value bits = Dsp.saturate value bits := by
  unfold saturate Dsp.saturate
  rw [max_comm, min_comm]

theorem roundShift_eq (value : ℤ) {shift : ℕ} (h : 0 < shift) :
    roundShift value shift = Dsp.roundShift value shift := by
  have hneg : ¬(shift : ℤ) < 0 := by omega
  have hzero : (shift : ℤ) ≠ 0 := by omega
  unfold roundShift Dsp.roundShift
  rw [if_neg hneg, if_neg hzero, Int.toNat_natCast]

theorem lfsrStep_eq (state : ℕ) : lfsrStep state = Dsp.lfsrStep state := rfl

theorem ncoLookup_eq (phaseWord : ℤ) (lut : List ℤ) :
    ncoLookup phaseWord lut = Dsp.ncoLookup phaseWord lut := rfl

theorem decimalToQ115_eq (value : ℚ) : decimalToQ115 value = decimalToFixed value 16 15 := by
  unfold decimalToQ115 decimalToFixed
  rw [saturate_eq]

/-! ## The loop in closed form -/

/-- The mixed sample of a turn. -/
theorem generateStep_eq (w : Words) (sineLut coefficients : List ℤ) {s : GenState} {n : ℕ}
    (hlfsr : s.lfsr = Dsp.lfsrStep^[n] w.noiseSeed)
    (hsignal : s.signalPhase = phaseAt w.signalInitial w.signalIncrement n)
    (hlo : s.loPhase = phaseAt w.loInitial w.loIncrement n) :
    (generateStep w sineLut coefficients s n).lfsr = Dsp.lfsrStep^[n + 1] w.noiseSeed ∧
      (generateStep w sineLut coefficients s n).signalPhase =
        phaseAt w.signalInitial w.signalIncrement (n + 1) ∧
      (generateStep w sineLut coefficients s n).loPhase =
        phaseAt w.loInitial w.loIncrement (n + 1) ∧
      (generateStep w sineLut coefficients s n).mixedI =
        s.mixedI ++ [(sampleAt w sineLut n).mixedI] ∧
      (generateStep w sineLut coefficients s n).mixedQ =
        s.mixedQ ++ [(sampleAt w sineLut n).mixedQ] := by
  have hnext : lfsrStep s.lfsr = Dsp.lfsrStep^[n + 1] w.noiseSeed := by
    rw [lfsrStep_eq, hlfsr, Function.iterate_succ_apply']
  refine ⟨hnext, ?_, ?_, ?_, ?_⟩
  · rw [← phaseAt_succ, ← hsignal]
    rfl
  · rw [← phaseAt_succ, ← hlo]
    rfl
  · unfold generateStep sampleAt frontendSample noiseAt
    dsimp only
    rw [hnext, ← hsignal, ← hlo]
    simp only [saturate_eq, roundShift_eq _ (show 0 < 15 by decide),
      roundShift_eq _ (show 0 < 13 by decide), ncoLookup_eq]
    rfl
  · unfold generateStep sampleAt frontendSample noiseAt
    dsimp only
    rw [hnext, ← hsignal, ← hlo]
    simp only [saturate_eq, roundShift_eq _ (show 0 < 15 by decide),
      roundShift_eq _ (show 0 < 13 by decide), ncoLookup_eq]
    rfl

/-- The sum over the taps of the samples so far. -/
theorem tapSum_eq (f : ℕ → ℤ) (coefficients : List ℤ) {count inputIndex : ℕ}
    (h : inputIndex < count) :
    tapSum ((List.range count).map f) coefficients inputIndex =
      Dsp.tapSum f coefficients inputIndex := by
  unfold tapSum Dsp.tapSum
  refine congrArg List.sum (List.map_congr_left fun tap _ => ?_)
  have hget : ((List.range count).map f).getD (inputIndex - tap) 0 = f (inputIndex - tap) := by
    rw [List.getD_eq_getElem?_getD, List.getElem?_map,
      List.getElem?_range (show inputIndex - tap < count by omega)]
    rfl
  rw [hget]

/-- The output of a turn that completes an interval. -/
theorem generateStep_outputWords (w : Words) (t : Tables) {s : GenState} {n : ℕ}
    (hI : (generateStep w t.sine t.fir s n).mixedI =
      (List.range (n + 1)).map fun k => (sampleAt w t.sine k).mixedI)
    (hQ : (generateStep w t.sine t.fir s n).mixedQ =
      (List.range (n + 1)).map fun k => (sampleAt w t.sine k).mixedQ) :
    (generateStep w t.sine t.fir s n).outputWords =
      if n % decimation = decimation - 1 then s.outputWords ++ [wordAt w t (n / decimation)]
      else s.outputWords := by
  have hshape : (generateStep w t.sine t.fir s n).outputWords =
      if n % decimation = decimation - 1 then
        s.outputWords ++ [((saturate (roundShift (tapSum
            (generateStep w t.sine t.fir s n).mixedQ t.fir n) 19) 16) % 2 ^ 16).toNat <<< 16 |||
          ((saturate (roundShift (tapSum
            (generateStep w t.sine t.fir s n).mixedI t.fir n) 19) 16) % 2 ^ 16).toNat]
      else s.outputWords := rfl
  rw [hshape, hI, hQ, tapSum_eq _ _ (Nat.lt_succ_self n), tapSum_eq _ _ (Nat.lt_succ_self n)]
  split
  next hn =>
    have hindex : (n / decimation + 1) * decimation - 1 = n := by
      unfold decimation at hn ⊢
      omega
    unfold wordAt outputAt narrow
    dsimp only
    rw [hindex, saturate_eq, saturate_eq, roundShift_eq _ (by decide), roundShift_eq _ (by decide)]
    rfl
  · rfl

/-- The state after so many turns. -/
theorem GenState.after_eq {w : Words} (h : w.InRange) (t : Tables) (turns : ℕ) :
    GenState.after w t.sine t.fir turns =
      { lfsr := Dsp.lfsrStep^[turns] w.noiseSeed
        signalPhase := phaseAt w.signalInitial w.signalIncrement turns
        loPhase := phaseAt w.loInitial w.loIncrement turns
        mixedI := (List.range turns).map fun k => (sampleAt w t.sine k).mixedI
        mixedQ := (List.range turns).map fun k => (sampleAt w t.sine k).mixedQ
        outputWords := (List.range (turns / decimation)).map (wordAt w t) } := by
  induction turns with
  | zero =>
    rw [phaseAt_zero _ h.signal, phaseAt_zero _ h.lo]
    rfl
  | succ n ih =>
    have hstep : GenState.after w t.sine t.fir (n + 1) =
        generateStep w t.sine t.fir (GenState.after w t.sine t.fir n) n := by
      unfold GenState.after
      rw [List.range_succ, List.foldl_append]
      rfl
    have hparts := generateStep_eq w t.sine t.fir (s := GenState.after w t.sine t.fir n) (n := n)
      (by rw [ih]) (by rw [ih]) (by rw [ih])
    rw [← hstep] at hparts
    obtain ⟨h₁, h₂, h₃, h₄, h₅⟩ := hparts
    have hI : (GenState.after w t.sine t.fir (n + 1)).mixedI =
        (List.range (n + 1)).map fun k => (sampleAt w t.sine k).mixedI := by
      rw [h₄, ih, List.range_succ, List.map_append]
      rfl
    have hQ : (GenState.after w t.sine t.fir (n + 1)).mixedQ =
        (List.range (n + 1)).map fun k => (sampleAt w t.sine k).mixedQ := by
      rw [h₅, ih, List.range_succ, List.map_append]
      rfl
    have hout := generateStep_outputWords w t (s := GenState.after w t.sine t.fir n) (n := n)
      (by rw [← hstep]; exact hI) (by rw [← hstep]; exact hQ)
    rw [← hstep, ih] at hout
    have hwords : (GenState.after w t.sine t.fir (n + 1)).outputWords =
        (List.range ((n + 1) / decimation)).map (wordAt w t) := by
      rw [hout]
      dsimp only
      split
      next hn =>
        have hnext : (n + 1) / decimation = n / decimation + 1 := by
          unfold decimation at hn ⊢
          omega
        rw [hnext, List.range_succ, List.map_append]
        rfl
      next hn =>
        have hsame : (n + 1) / decimation = n / decimation := by
          unfold decimation at hn ⊢
          omega
        rw [hsame]
    rw [← h₁, ← h₂, ← h₃, ← hI, ← hQ, ← hwords]

/-! ## The same configuration -/

variable {ε ε' : Type} {e : ε} {document value : Json} {key : String}

theorem item_ok (e' : ε') (h : item e document key = .ok value) :
    item e' document key = .ok value := by
  unfold item at h ⊢
  split at h
  · rw [elim_eq_ok] at h ⊢
    simpa using h
  · cases h

theorem itemDecimal_ok (e' : ε') {d : Decimal} (h : itemDecimal e document key = .ok d) :
    itemDecimal e' document key = .ok d := by
  simp only [itemDecimal, bind_eq_ok, elim_eq_ok] at h ⊢
  obtain ⟨value, hitem, d', hd, he⟩ := h
  exact ⟨value, item_ok e' hitem, d', hd, by cases he; rfl⟩

theorem itemInt_ok (e' : ε') {n : ℤ} (h : itemInt e document key = .ok n) :
    itemInt e' document key = .ok n := by
  simp only [itemInt, bind_eq_ok, elim_eq_ok] at h ⊢
  obtain ⟨value, hitem, m, hm, he⟩ := h
  exact ⟨value, item_ok e' hitem, m, hm, by cases he; rfl⟩

/-- An integer field is read as itself. -/
theorem integerField_ok (e' : ε') {n : ℤ} (h : integerField document key = .ok n) :
    itemInt e' document key = .ok n := by
  unfold integerField at h
  split at h
  next m hm =>
    cases h
    unfold itemOrNull at hm
    simp only [itemInt, bind_eq_ok, elim_eq_ok]
    split at hm
    next fields =>
      refine ⟨.int n, ?_, n, rfl, rfl⟩
      cases hl : fields.lookup key with
      | none =>
        rw [hl] at hm
        cases hm
      | some j =>
        rw [hl] at hm
        unfold item
        dsimp only
        rw [hl]
        exact congrArg Except.ok hm
    · cases hm
  · cases h

theorem checkActive_ok (error : String → ε) (error' : String → ε') {active : Json}
    {words : List (String × ℤ)} (h : checkActive error active words = .ok ()) :
    checkActive error' active words = .ok () := by
  induction words with
  | nil => rfl
  | cons p words ih =>
    obtain ⟨name, value⟩ := p
    unfold checkActive at h ⊢
    split at h
    next hp =>
      rw [if_pos hp]
      exact ih h
    · cases h

/-- The words of the requested values are those of the configuration. -/
theorem readWords_ok {config : DspConfig} (h : config.Valid)
    (h₁ : itemDecimal e document "signal_frequency_hz" = .ok config.signalFrequencyHz)
    (h₂ : itemDecimal e document "lo_frequency_hz" = .ok config.loFrequencyHz)
    (h₃ : itemDecimal e document "signal_amplitude" = .ok config.signalAmplitude)
    (h₄ : itemDecimal e document "signal_phase_turns" = .ok config.signalPhaseTurns)
    (h₅ : itemDecimal e document "lo_phase_turns" = .ok config.loPhaseTurns)
    (h₆ : itemDecimal e document "noise_amplitude" = .ok config.noiseAmplitude)
    (h₇ : itemInt e document "noise_seed" = .ok config.noiseSeed) :
    readWords document config.sampleRateHz = .ok config.words := by
  simp only [readWords, bind_eq_ok]
  refine ⟨_, itemDecimal_ok _ h₁, _, itemDecimal_ok _ h₂, _, itemDecimal_ok _ h₄, _,
    itemDecimal_ok _ h₅, _, itemDecimal_ok _ h₃, _, itemDecimal_ok _ h₆, _, itemInt_ok _ h₇, ?_⟩
  rw [decimalToQ115_eq, decimalToQ115_eq, h.sampleRateHz]
  rfl

theorem expectedActive_eq {config : DspConfig} (h : config.Valid) :
    expectedActive config.words = config.expected := by
  have hseed : (config.noiseSeed.toNat : ℤ) = config.noiseSeed :=
    Int.toNat_of_nonneg (by have := h.noiseSeed; omega)
  unfold expectedActive DspConfig.expected DspConfig.words
  dsimp only
  rw [hseed, h.sampleRateHz]

/-- Both programs read the same configuration. -/
theorem parseConfig_ok {config : DspConfig} (h : loadConfig document = .ok config) :
    config.Valid ∧ parseConfig document =
      .ok ⟨config.sampleRateHz, config.decimation, config.words⟩ := by
  unfold loadConfig at h
  simp only [bind_eq_ok] at h
  obtain ⟨fields, -, h⟩ := h
  unfold parseConfig
  dsimp only
  split at h
  next hformat =>
    simp only [configFromResolvedDocument, bind_eq_ok, check_eq_ok] at h
    obtain ⟨format, -, -, contract, hcontract, dsp, hdsp, requested, hrequested, active, hactive,
      acquisition, -, rate, hrate, dec, hdec, len, -, count, -, sf, hsf, lf, hlf, sa, hsa, sp, hsp,
      lp, hlp, na, hna, seed, hseed, config', hvalid, u, hcheck, he⟩ := h
    obtain ⟨rfl, hconfig⟩ := validateConfig_eq_ok hvalid
    cases he
    have hresolved : (Json.str "qcrate-experiment-resolved-v1").pyEq
        (itemOrNull document "format") = true := hformat
    have hwords := readWords_ok hconfig hsf hlf hsa hsp hlp hna hseed
    refine ⟨hconfig, ?_⟩
    rw [if_pos hresolved]
    simp only [bind_eq_ok]
    refine ⟨contract, item_ok _ hcontract, dsp, item_ok _ hdsp, requested, item_ok _ hrequested,
      active, item_ok _ hactive, rate, itemInt_ok _ hrate, dec, itemInt_ok _ hdec, _, hwords, (),
      ?_, rfl⟩
    rw [expectedActive_eq hconfig]
    exact checkActive_ok _ _ hcheck
  next hformat =>
    simp only [bind_eq_ok, check_eq_ok] at h
    obtain ⟨-, -, rate, hrate, dec, hdec, len, -, count, -, seed, hseed, sf, hsf, lf, hlf, sa, hsa,
      sp, hsp, lp, hlp, na, hna, hvalid⟩ := h
    obtain ⟨rfl, hconfig⟩ := validateConfig_eq_ok hvalid
    have hplain : ¬(Json.str "qcrate-experiment-resolved-v1").pyEq
        (itemOrNull document "format") = true := hformat
    have hwords := readWords_ok hconfig hsf hlf hsa hsp hlp hna (integerField_ok _ hseed)
    refine ⟨hconfig, ?_⟩
    rw [if_neg hplain]
    simp only [bind_eq_ok]
    exact ⟨rate, integerField_ok _ hrate, dec, integerField_ok _ hdec, _, hwords, rfl⟩

/-! ## Agreement -/

/-- On a valid configuration the reference produces the first words of the model. -/
theorem references_agree (t : Tables) {document : Json} {config : DspConfig}
    (h : loadConfig document = .ok config) {n : ℤ} (h1 : 1 ≤ n)
    (hcount : n ≤ config.outputSamples) :
    ∃ words, runModel t config = .ok words ∧
      generateWords t document n = .ok (words.take n.toNat) := by
  obtain ⟨hconfig, hparse⟩ := parseConfig_ok h
  refine ⟨_, runModel_eq t hconfig, ?_⟩
  have hturns : (n * config.decimation).toNat / decimation = n.toNat := by
    rw [hconfig.decimation, Int.toNat_mul (by omega) (by simp), Int.toNat_natCast]
    exact Nat.mul_div_cancel _ (by decide)
  simp only [generateWords, bind_eq_ok, check_eq_ok]
  refine ⟨by omega, _, hparse, ?_, ?_⟩
  · rw [not_or, not_not, not_not]
    exact ⟨hconfig.sampleRateHz, hconfig.decimation⟩
  · rw [GenState.after_eq (words_inRange config), hturns, ← List.map_take, List.take_range,
      min_eq_left (by omega)]
    rfl

/-- A plain configuration of two output samples. -/
def smallConfig : Json :=
  .obj [("format", .str "qcrate-dsp-v1"), ("sample_rate_hz", .int 200000000),
    ("decimation", .int 16), ("frame_length", .int 2), ("frame_count", .int 1),
    ("signal_frequency_hz", .int 1000000), ("lo_frequency_hz", .int 750000),
    ("signal_amplitude", .decimal ⟨false, 5, -1⟩), ("signal_phase_turns", .int 0),
    ("lo_phase_turns", .int 0), ("noise_amplitude", .decimal ⟨false, 25, -2⟩),
    ("noise_seed", .int 1)]

theorem references_agree_small : ∃ config words, loadConfig smallConfig = .ok config ∧
    runModel rampTables config = .ok words ∧
    generateWords rampTables smallConfig 1 = .ok (words.take 1) := by
  have hload : ((loadConfig smallConfig).toOption.any fun config =>
      decide (config.outputSamples = 2)) = true := by
    decide +kernel
  obtain ⟨config, hconfig, hsamples⟩ := exists_of_any hload
  rw [decide_eq_true_eq] at hsamples
  obtain ⟨words, hrun, hgenerate⟩ :=
    references_agree rampTables hconfig (n := 1) le_rfl (by rw [hsamples]; norm_num)
  exact ⟨config, words, hconfig, hrun, hgenerate⟩

end QCrate.Dsp.Reference
