import QCrate.Dsp.Fixed
import QCrate.Host.Profile
import QCrate.Lib.Checks

/-!
# Configurations of the DSP model

`host/dsp_model/qcrate_dsp.py`: a configuration is read from a plain document or from a resolved
profile, checked, and quantised by the model.

* `DspConfig`, `validateConfig`, `configFromResolvedDocument`, `loadConfig`.
* `DspConfig.words` — the integers of a configuration.
* `runModel` — the packed words of the fixed path.
-/

namespace QCrate.Dsp

open QCrate.Lib QCrate.Host

/-! ## Reading values -/

/-- `int(text)` on the characters of the text. -/
def parseInt (text : List Char) : Option ℤ :=
  let (negative, body) := splitSign (trim text)
  let magnitude : Option ℕ := match body with
    | '_' :: _ => none
    | cs => (removeUnderscores cs).bind (digitsValue 10 hexDigit)
  magnitude.map fun n : ℕ => if negative then -(n : ℤ) else n

/-- `int(value)`: a decimal is truncated. -/
def pyInt : Json → Option ℤ
  | .bool b => some (if b then 1 else 0)
  | .int n => some n
  | .decimal d => some (if 0 ≤ d.value then ⌊d.value⌋ else -⌊-d.value⌋)
  | .str s => parseInt s.toList
  | _ => none

/-- `document[key]` -/
def item {ε : Type} (error : ε) (document : Json) (key : String) : Except ε Json :=
  match document with
  | .obj fields => (fields.lookup key).elim (.error error) .ok
  | _ => .error error

/-- `Decimal(document[key])` -/
def itemDecimal {ε : Type} (error : ε) (document : Json) (key : String) : Except ε Decimal := do
  let value ← item error document key
  (toDecimal value).elim (.error error) .ok

/-- `int(document[key])` -/
def itemInt {ε : Type} (error : ε) (document : Json) (key : String) : Except ε ℤ := do
  let value ← item error document key
  (pyInt value).elim (.error error) .ok

/-- `document.get(key)` -/
def itemOrNull (document : Json) (key : String) : Json :=
  match document with
  | .obj fields => (fields.lookup key).getD .null
  | _ => .null

/-! ## Quantisation -/

/-- `decimal_to_fixed` -/
def decimalToFixed (value : ℚ) (bits fractionalBits : ℕ) : ℤ :=
  saturate (roundHalfUp (context precision (value * 2 ^ fractionalBits))) bits

/-- `frequency_to_phase_word` -/
def frequencyToPhaseWord (frequencyHz : ℚ) (sampleRateHz : ℤ) : ℤ :=
  let scaled := context precision (context precision (frequencyHz * phaseModulus) / sampleRateHz)
  roundHalfUp scaled % phaseModulus

/-- `turns_to_phase_word` -/
def turnsToPhaseWord (turns : ℚ) : ℤ :=
  roundHalfUp (context precision (turns * phaseModulus)) % phaseModulus

/-! ## Configurations -/

structure DspConfig where
  sampleRateHz : ℤ
  decimation : ℤ
  frameLength : ℤ
  frameCount : ℤ
  signalFrequencyHz : Decimal
  loFrequencyHz : Decimal
  signalAmplitude : Decimal
  signalPhaseTurns : Decimal
  loPhaseTurns : Decimal
  noiseAmplitude : Decimal
  noiseSeed : ℤ

/-- `output_samples` -/
def DspConfig.outputSamples (config : DspConfig) : ℤ :=
  config.frameLength * config.frameCount

/-- The check of one frequency. -/
def checkFrequency (name : String) (frequency : Decimal) (nyquist : ℚ) : Except DspError Unit :=
  if frequency.value < 0 ∨ nyquist ≤ frequency.value then
    .error ⟨s!"{name} must be in [0, Nyquist)"⟩
  else .ok ()

/-- The check of one amplitude. -/
def checkAmplitude (name : String) (value : Decimal) : Except DspError Unit :=
  if value.value < 0 ∨ 1 < value.value then .error ⟨s!"{name} must be between 0 and 1"⟩
  else .ok ()

/-- `_validate_config` -/
def validateConfig (config : DspConfig) : Except DspError DspConfig := do
  if config.sampleRateHz ≠ sampleRateHz ∨ config.decimation ≠ decimation then
    .error ⟨s!"DSP v1 requires {sampleRateHz} Hz and decimation {decimation}"⟩
  if ¬(1 ≤ config.frameLength ∧ config.frameLength ≤ 262144) then
    .error ⟨"frame_length must be between 1 and 262144"⟩
  if ¬(1 ≤ config.frameCount ∧ config.frameCount ≤ 255) then
    .error ⟨"frame_count must be between 1 and 255"⟩
  if 1000000 < config.outputSamples then
    .error ⟨"total output words must not exceed 1000000"⟩
  let nyquist := context precision ((config.sampleRateHz : ℚ) / 2)
  checkFrequency "signal_frequency_hz" config.signalFrequencyHz nyquist
  checkFrequency "lo_frequency_hz" config.loFrequencyHz nyquist
  checkAmplitude "signal_amplitude" config.signalAmplitude
  checkAmplitude "noise_amplitude" config.noiseAmplitude
  if 1 < context precision (config.signalAmplitude.value + config.noiseAmplitude.value) then
    .error ⟨"signal plus noise amplitude must not exceed 1"⟩
  if ¬(1 ≤ config.noiseSeed ∧ config.noiseSeed ≤ 0xFFFF) then
    .error ⟨"noise_seed must be a nonzero 16-bit value"⟩
  return config

/-- The words a resolved profile must carry, by name. -/
def DspConfig.expected (config : DspConfig) : List (String × ℤ) :=
  [("SIGNAL_PHASE_INCREMENT",
      frequencyToPhaseWord config.signalFrequencyHz.value config.sampleRateHz),
    ("SIGNAL_PHASE_INITIAL", turnsToPhaseWord config.signalPhaseTurns.value),
    ("SIGNAL_AMPLITUDE_Q1_15",
      decimalToFixed config.signalAmplitude.value adcBits adcFracBits),
    ("NOISE_AMPLITUDE_Q1_15",
      decimalToFixed config.noiseAmplitude.value adcBits adcFracBits),
    ("NOISE_SEED", config.noiseSeed),
    ("LO_PHASE_INCREMENT", frequencyToPhaseWord config.loFrequencyHz.value config.sampleRateHz),
    ("LO_PHASE_INITIAL", turnsToPhaseWord config.loPhaseTurns.value)]

/-- Every expected word is the active one. -/
def checkActive {ε : Type} (error : String → ε) (active : Json) :
    List (String × ℤ) → Except ε Unit
  | [] => .ok ()
  | (name, value) :: rest =>
    if (Json.int value).pyEq (itemOrNull active name) then checkActive error active rest
    else .error (error name)

def resolvedDspFormat : String := "qcrate-experiment-resolved-v1"
def formatName : String := "qcrate-dsp-v1"

/-- `config_from_resolved_document` -/
def configFromResolvedDocument (document : Json) : Except DspError DspConfig := do
  let malformed : DspError := ⟨"malformed resolved profile"⟩
  let format ← item malformed document "format"
  if !(Json.str resolvedDspFormat).pyEq format then
    .error ⟨s!"resolved format must be '{resolvedDspFormat}'"⟩
  let contract ← item malformed document "numerical_contract"
  let dsp ← item malformed document "dsp"
  let requested ← item malformed dsp "requested"
  let active ← item malformed dsp "active"
  let acquisition ← item malformed document "acquisition"
  let sampleRateHz ← itemInt malformed contract "sample_rate_hz"
  let decimation ← itemInt malformed contract "decimation"
  let frameLength ← itemInt malformed acquisition "frame_length_words"
  let frameCount ← itemInt malformed acquisition "frame_count"
  let signalFrequencyHz ← itemDecimal malformed requested "signal_frequency_hz"
  let loFrequencyHz ← itemDecimal malformed requested "lo_frequency_hz"
  let signalAmplitude ← itemDecimal malformed requested "signal_amplitude"
  let signalPhaseTurns ← itemDecimal malformed requested "signal_phase_turns"
  let loPhaseTurns ← itemDecimal malformed requested "lo_phase_turns"
  let noiseAmplitude ← itemDecimal malformed requested "noise_amplitude"
  let noiseSeed ← itemInt malformed requested "noise_seed"
  let config ← validateConfig
    { sampleRateHz, decimation, frameLength, frameCount, signalFrequencyHz, loFrequencyHz,
      signalAmplitude, signalPhaseTurns, loPhaseTurns, noiseAmplitude, noiseSeed }
  checkActive (fun name => ⟨s!"resolved {name} differs"⟩) active config.expected
  return config

def configKeys : List String :=
  ["format", "sample_rate_hz", "decimation", "frame_length", "frame_count",
    "signal_frequency_hz", "lo_frequency_hz", "signal_amplitude", "signal_phase_turns",
    "lo_phase_turns", "noise_amplitude", "noise_seed"]

/-- An integer field of a plain document. -/
def integerField (document : Json) (field : String) : Except DspError ℤ :=
  match itemOrNull document field with
  | .int n => .ok n
  | _ => .error ⟨s!"{field} must be an integer"⟩

/-- The root of a document. -/
def rootFields (document : Json) : Except DspError Fields :=
  match document with
  | .obj fields => .ok fields
  | _ => .error ⟨"configuration root must be an object"⟩

/-- `load_config` on the loaded document. -/
def loadConfig (document : Json) : Except DspError DspConfig := do
  let fields ← rootFields document
  if (Json.str resolvedDspFormat).pyEq (itemOrNull document "format") then
    configFromResolvedDocument document
  else
    let keys := fields.map Prod.fst
    let unknown := (keys.filter fun key => key ∉ configKeys).insertionSort (· ≤ ·)
    let missing := (configKeys.filter fun key => key ∉ keys).insertionSort (· ≤ ·)
    if unknown ≠ [] ∨ missing ≠ [] then
      .error ⟨"configuration keys differ: missing=" ++ pyList missing ++ ", unknown=" ++
        pyList unknown⟩
    if !(Json.str formatName).pyEq (itemOrNull document "format") then
      .error ⟨s!"format must be '{formatName}'"⟩
    let sampleRateHz ← integerField document "sample_rate_hz"
    let decimation ← integerField document "decimation"
    let frameLength ← integerField document "frame_length"
    let frameCount ← integerField document "frame_count"
    let noiseSeed ← integerField document "noise_seed"
    let invalid : DspError := ⟨"invalid decimal"⟩
    let signalFrequencyHz ← itemDecimal invalid document "signal_frequency_hz"
    let loFrequencyHz ← itemDecimal invalid document "lo_frequency_hz"
    let signalAmplitude ← itemDecimal invalid document "signal_amplitude"
    let signalPhaseTurns ← itemDecimal invalid document "signal_phase_turns"
    let loPhaseTurns ← itemDecimal invalid document "lo_phase_turns"
    let noiseAmplitude ← itemDecimal invalid document "noise_amplitude"
    validateConfig
      { sampleRateHz, decimation, frameLength, frameCount, signalFrequencyHz, loFrequencyHz,
        signalAmplitude, signalPhaseTurns, loPhaseTurns, noiseAmplitude, noiseSeed }

/-! ## The model -/

/-- The words that `_run_fixed_frontend` takes from a configuration. -/
def DspConfig.words (config : DspConfig) : Words where
  signalIncrement := frequencyToPhaseWord config.signalFrequencyHz.value Dsp.sampleRateHz
  signalInitial := turnsToPhaseWord config.signalPhaseTurns.value
  signalAmplitude := decimalToFixed config.signalAmplitude.value adcBits adcFracBits
  noiseAmplitude := decimalToFixed config.noiseAmplitude.value adcBits adcFracBits
  noiseSeed := config.noiseSeed.toNat
  loIncrement := frequencyToPhaseWord config.loFrequencyHz.value Dsp.sampleRateHz
  loInitial := turnsToPhaseWord config.loPhaseTurns.value

/-- The packed words of `run_model`, fixed path. -/
def runModel (t : Tables) (config : DspConfig) : Except DspError (List ℕ) := do
  if ¬(1 ≤ config.noiseSeed ∧ config.noiseSeed ≤ 0xFFFF) then
    .error ⟨"LFSR seed must be a nonzero 16-bit value"⟩
  let noise := lfsr16Noise (config.outputSamples * config.decimation).toNat config.noiseSeed.toNat
  let frontend := runFixedFrontend config.words t.sine noise
  let fir ← runFixedFir (frontend.map (·.mixedI)) (frontend.map (·.mixedQ)) t.fir
  return packIqWords fir

/-! ## Valid configurations -/

/-- What the checks establish. -/
structure DspConfig.Valid (config : DspConfig) : Prop where
  sampleRateHz : config.sampleRateHz = Dsp.sampleRateHz
  decimation : config.decimation = Dsp.decimation
  outputSamples : 1 ≤ config.outputSamples
  noiseSeed : 1 ≤ config.noiseSeed ∧ config.noiseSeed ≤ 0xFFFF

theorem validateConfig_eq_ok {config config' : DspConfig}
    (h : validateConfig config = .ok config') :
    config' = config ∧ config.Valid := by
  simp only [validateConfig, bind_eq_ok, check_eq_ok, not_or, not_not] at h
  obtain ⟨⟨hrate, hdec⟩, hlen, hcount, -, -, -, -, -, -, -, -, -, -, hseed, he⟩ := h
  cases he
  exact ⟨rfl, hrate, hdec, by unfold DspConfig.outputSamples; nlinarith [hlen.1, hcount.1], hseed⟩

theorem words_inRange (config : DspConfig) : config.words.InRange where
  signal := ⟨Int.emod_nonneg _ (by decide), Int.emod_lt_of_pos _ (by decide)⟩
  lo := ⟨Int.emod_nonneg _ (by decide), Int.emod_lt_of_pos _ (by decide)⟩

/-- The packed word at an index. -/
def wordAt (w : Words) (t : Tables) (outputIndex : ℕ) : ℕ :=
  ((outputAt w t outputIndex).outputQ % 2 ^ 16).toNat <<< 16 |||
    ((outputAt w t outputIndex).outputI % 2 ^ 16).toNat

/-- The model always succeeds on a valid configuration, and this is its result. -/
theorem runModel_eq (t : Tables) {config : DspConfig} (h : config.Valid) :
    runModel t config =
      .ok ((List.range config.outputSamples.toNat).map (wordAt config.words t)) := by
  have hcount : (config.outputSamples * config.decimation).toNat =
      config.outputSamples.toNat * Dsp.decimation := by
    rw [h.decimation, Int.toNat_mul (by have := h.outputSamples; omega) (by simp),
      Int.toNat_natCast]
  have hfrontend : runFixedFrontend config.words t.sine (lfsr16Noise
      (config.outputSamples.toNat * Dsp.decimation) config.noiseSeed.toNat) = _ :=
    runFixedFrontend_eq (words_inRange config) t.sine _
  have hfir := runFixedFir_eq config.words t (n := config.outputSamples.toNat)
    (by have := h.outputSamples; omega)
  simp only [runModel, bind_eq_ok, check_eq_ok]
  refine ⟨not_not.mpr h.noiseSeed, (List.range config.outputSamples.toNat).map
    (outputAt config.words t), ?_, ?_⟩
  · rw [hcount, hfrontend, List.map_map, List.map_map]
    exact hfir
  · unfold packIqWords
    rw [List.map_map]
    rfl

end QCrate.Dsp
