import Mathlib.Tactic

/-!
# Validation of a runtime configuration

`common/config/qcrate_runtime_config.c` and the constants it takes from `qcrate_protocol.h`.
The eleven words of a CONFIG_STAGE payload are a `Vector`, so every word index is in range.
-/

namespace QCrate.R5

abbrev Word := BitVec 32

/-- `QCRATE_CONFIG_STAGE_WORDS` words. -/
abbrev ConfigWords := Vector Word 11

/-- `QCRATE_CONFIG_REASON_*` -/
inductive ConfigReason where
  | none | notStaged | zeroId | signalAmplitude | noiseAmplitude | amplitudeSum | zeroNoiseSeed
  | frameLength | frameCount | totalWords | sequenceState | streamState | shadowVerify
  | plRejected | activeVerify | commitTimeout
  deriving DecidableEq, Repr

def ConfigReason.code : ConfigReason → Word
  | .none => 0 | .notStaged => 1 | .zeroId => 2 | .signalAmplitude => 3 | .noiseAmplitude => 4
  | .amplitudeSum => 5 | .zeroNoiseSeed => 6 | .frameLength => 7 | .frameCount => 8
  | .totalWords => 9 | .sequenceState => 10 | .streamState => 11 | .shadowVerify => 12
  | .plRejected => 13 | .activeVerify => 14 | .commitTimeout => 15

theorem ConfigReason.code_inj {r r' : ConfigReason} : r.code = r'.code ↔ r = r' := by
  cases r <;> cases r' <;> decide

/-- The word indices are literals of `Fin 11`. -/
instance neZero_words : NeZero 11 := ⟨by decide⟩

def configIdLowWord : Fin 11 := 0
def configIdHighWord : Fin 11 := 1
def configSignalIncrementWord : Fin 11 := 2
def configSignalInitialWord : Fin 11 := 3
def configSignalAmplitudeWord : Fin 11 := 4
def configNoiseAmplitudeWord : Fin 11 := 5
def configNoiseSeedWord : Fin 11 := 6
def configLoIncrementWord : Fin 11 := 7
def configLoInitialWord : Fin 11 := 8
def configFrameLengthWord : Fin 11 := 9
def configFrameCountWord : Fin 11 := 10

def configMaxFrameWords : Word := 262144
def configMaxFrames : Word := 255
def configMaxTotalWords : BitVec 64 := 1000000

/-- `qcrate_validate_runtime_config` -/
def validateRuntimeConfig (words : ConfigWords) : ConfigReason :=
  let configId : BitVec 64 := words[configIdHighWord] ++ words[configIdLowWord]
  let signal := words[configSignalAmplitudeWord]
  let noise := words[configNoiseAmplitudeWord]
  let seed := words[configNoiseSeedWord]
  let length := words[configFrameLengthWord]
  let count := words[configFrameCountWord]
  if configId = 0 then .zeroId
  else if signal &&& 0xFFFF0000 ≠ 0 ∨ 0x7FFF < signal then .signalAmplitude
  else if noise &&& 0xFFFF0000 ≠ 0 ∨ 0x7FFF < noise then .noiseAmplitude
  else if 0x8000 < signal + noise then .amplitudeSum
  else if seed &&& 0xFFFF0000 ≠ 0 ∨ seed = 0 then .zeroNoiseSeed
  else if length = 0 ∨ configMaxFrameWords < length then .frameLength
  else if count = 0 ∨ configMaxFrames < count then .frameCount
  else if configMaxTotalWords < length.setWidth 64 * count.setWidth 64 then .totalWords
  else .none

end QCrate.R5
