import QCrate.Lib.Decimal
import QCrate.R5.RuntimeConfig

/-!
# Experiment profiles

`host/experiment_profiles/qcrate_profile.py`: a profile in human units is resolved into hardware
words, and a resolved profile is checked against its own requested values before it is applied.

* `Json` — a loaded document. Numbers with a fraction are decimals (`parse_float=Decimal`).
* `Repository` — what the compiler reads besides the document, and the hash.
* `compileProfile`, `validateResolvedProfile`, `configurationCommand`.
* `ConfigValues.words` — the words a configuration command stages.

A decimal that is not a number or infinite is refused where the source reads it: no such value
passes the range checks that follow.
-/

namespace QCrate.Host

open QCrate.Lib QCrate.R5

/-! ## Documents -/

inductive Json where
  | null
  | bool (b : Bool)
  | int (n : ℤ)
  | decimal (d : Decimal)
  | str (s : String)
  | arr (items : List Json)
  | obj (fields : List (String × Json))
  deriving Repr

abbrev Fields := List (String × Json)

structure ProfileError where
  message : String
  deriving DecidableEq, Repr

def Fields.get (fields : Fields) (key : String) : Json :=
  (fields.lookup key).getD .null

/-- The number a value is compared as: a boolean is an integer. -/
def Json.number? : Json → Option ℚ
  | .bool b => some (if b then 1 else 0)
  | .int n => some n
  | .decimal d => some d.value
  | _ => none

mutual

/-- Equality of two documents: numbers by value, objects in any order. -/
def Json.pyEq : Json → Json → Bool
  | .null, .null => true
  | .str s, .str t => s == t
  | .arr xs, .arr ys => Json.pyEqItems xs ys
  | .obj xs, .obj ys => xs.length == ys.length && Json.pyEqFields xs ys
  | .bool b, j => j.number? == some (if b then 1 else 0)
  | .int n, j => j.number? == some (n : ℚ)
  | .decimal d, j => j.number? == some d.value
  | _, _ => false

def Json.pyEqItems : List Json → List Json → Bool
  | [], [] => true
  | x :: xs, y :: ys => Json.pyEq x y && Json.pyEqItems xs ys
  | _, _ => false

def Json.pyEqFields : List (String × Json) → List (String × Json) → Bool
  | [], _ => true
  | x :: xs, ys => Json.pyEqField x ys && Json.pyEqFields xs ys

def Json.pyEqField : String × Json → List (String × Json) → Bool
  | (key, value), ys => match ys.lookup key with
    | some other => Json.pyEq value other
    | none => false

end

/-! ## Checks -/

def pyList (names : List String) : String :=
  "[" ++ ", ".intercalate (names.map fun s => "'" ++ s ++ "'") ++ "]"

/-- `_check_keys` -/
def checkKeys (value : Json) (required : List String) (context : String) :
    Except ProfileError Fields :=
  match value with
  | .obj fields =>
    let keys := fields.map Prod.fst
    let missing := (required.filter fun key => key ∉ keys).insertionSort (· ≤ ·)
    let unknown := (keys.filter fun key => key ∉ required).insertionSort (· ≤ ·)
    if missing = [] ∧ unknown = [] then .ok fields
    else .error ⟨s!"{context} keys differ: missing=" ++ pyList missing ++
      ", unknown=" ++ pyList unknown⟩
  | _ => .error ⟨s!"{context} must be an object"⟩

/-- `_integer` -/
def integer (value : Json) (minimum maximum : ℤ) (context : String) : Except ProfileError ℤ :=
  match value with
  | .int n =>
    if minimum ≤ n ∧ n ≤ maximum then .ok n
    else .error ⟨s!"{context} must be between {minimum} and {maximum}"⟩
  | _ => .error ⟨s!"{context} must be an integer"⟩

/-- The range check of `_decimal`. -/
def decimalInRange (result : Decimal) (minimum maximum : ℤ) (maximumInclusive : Bool)
    (context : String) : Except ProfileError Decimal :=
  let upperOk := if maximumInclusive then result.value ≤ maximum else result.value < maximum
  let relation := if maximumInclusive then "at most" else "less than"
  if result.value < minimum ∨ ¬upperOk then
    .error ⟨s!"{context} must be at least {minimum} and {relation} {maximum}"⟩
  else .ok result

/-- `_decimal` -/
def decimal (value : Json) (minimum maximum : ℤ) (maximumInclusive : Bool) (context : String) :
    Except ProfileError Decimal :=
  match value with
  | .int n => decimalInRange (.ofInt n) minimum maximum maximumInclusive context
  | .decimal d => decimalInRange d minimum maximum maximumInclusive context
  | _ => .error ⟨s!"{context} must be a JSON number"⟩

/-! ## Arithmetic -/

def sampleRateHz : ℤ := 200000000
def decimation : ℤ := 16
def phaseModulus : ℤ := 2 ^ 32

/-- The digits of Python's default decimal context. -/
def precision : ℕ := 28

/-- `_phase_word` -/
def phaseWord (value : ℚ) (scale : ℤ) : ℤ :=
  let scaled := context precision (context precision (value * phaseModulus) / scale)
  roundHalfUp scaled % 2 ^ 32

/-- `_q1_15` -/
def q115 (value : ℚ) : ℤ :=
  let scaled := roundHalfUp (context precision (value * 2 ^ 15))
  min (max scaled (-0x8000)) 0x7FFF

/-- A number that is not negative, in positional notation without trailing zeros. -/
def positional (magnitude : ℚ) : String :=
  let scaled := (magnitude * 10 ^ places magnitude).num.natAbs
  let fraction := Nat.toDigits 10 (scaled % 10 ^ places magnitude)
  let padded := List.replicate (places magnitude - fraction.length) '0' ++ fraction
  String.ofList (Nat.toDigits 10 (scaled / 10 ^ places magnitude)) ++
    if places magnitude = 0 then "" else "." ++ String.ofList padded

/-- `_decimal_string`. A negative zero keeps its sign. -/
def decimalString (value : Decimal) : String :=
  (if value.negative then "-" else "") ++ positional value.magnitude

/-! ## Numbers in texts -/

def digitsValue (base : ℕ) (digit : Char → Option ℕ) (cs : List Char) : Option ℕ :=
  if cs = [] then none
  else cs.foldlM (fun n c => (digit c).bind fun d => if d < base then some (n * base + d) else none)
    0

def hexDigit (c : Char) : Option ℕ :=
  if '0' ≤ c ∧ c ≤ '9' then some (c.toNat - '0'.toNat)
  else if 'a' ≤ c ∧ c ≤ 'f' then some (c.toNat - 'a'.toNat + 10)
  else if 'A' ≤ c ∧ c ≤ 'F' then some (c.toNat - 'A'.toNat + 10)
  else none

def trim (cs : List Char) : List Char :=
  ((cs.dropWhile Char.isWhitespace).reverse.dropWhile Char.isWhitespace).reverse

def splitSign : List Char → Bool × List Char
  | '-' :: cs => (true, cs)
  | '+' :: cs => (false, cs)
  | cs => (false, cs)

/-- Underscores stand one at a time between digits. -/
def removeUnderscores : List Char → Option (List Char)
  | [] => some []
  | ['_'] => none
  | '_' :: '_' :: _ => none
  | '_' :: cs => removeUnderscores cs
  | c :: cs => (removeUnderscores cs).map (c :: ·)

/-- `int(text, 0)` on the characters of the text. -/
def parseInt0 (text : List Char) : Option ℤ :=
  let (negative, body) := splitSign (trim text)
  let magnitude : Option ℕ := match body with
    | '0' :: 'x' :: cs | '0' :: 'X' :: cs => (removeUnderscores cs).bind (digitsValue 16 hexDigit)
    | '0' :: 'o' :: cs | '0' :: 'O' :: cs => (removeUnderscores cs).bind (digitsValue 8 hexDigit)
    | '0' :: 'b' :: cs | '0' :: 'B' :: cs => (removeUnderscores cs).bind (digitsValue 2 hexDigit)
    | '_' :: _ => none
    | cs => (removeUnderscores cs).bind fun ds =>
      if ds.head? = some '0' ∧ ds.any (· ≠ '0') = true then none else digitsValue 10 hexDigit ds
  magnitude.map fun n : ℕ => if negative then -(n : ℤ) else n

/-- `Decimal(text)` on the characters of the text. -/
def Decimal.parse (text : List Char) : Option Decimal :=
  let (negative, body) := splitSign ((trim text).filter (· ≠ '_'))
  let mantissa := body.takeWhile fun c => c ≠ 'e' ∧ c ≠ 'E'
  let exponent : Option ℤ := match body.drop mantissa.length with
    | [] => some 0
    | _ :: cs =>
      let (down, ds) := splitSign cs
      (digitsValue 10 hexDigit ds).map fun n : ℕ => if down then -(n : ℤ) else n
  let whole := mantissa.takeWhile (· ≠ '.')
  let fraction := (mantissa.drop whole.length).drop 1
  (digitsValue 10 hexDigit (whole ++ fraction)).bind fun n => exponent.map fun e =>
    ⟨negative, n, e - fraction.length⟩

def digitItem : Json → Option ℕ
  | .int n => if 0 ≤ n ∧ n ≤ 9 then some n.toNat else none
  | _ => none

/-- `Decimal(value)`: a number, a text, or a sign with digits and an exponent. -/
def toDecimal : Json → Option Decimal
  | .bool b => some (.ofInt (if b then 1 else 0))
  | .int n => some (.ofInt n)
  | .decimal d => some d
  | .str s => Decimal.parse s.toList
  | .arr [.int sign, .arr digits, .int exponent] =>
    if sign = 0 ∨ sign = 1 then
      (digits.mapM digitItem).map fun ds =>
        ⟨decide (sign = 1), ds.foldl (fun n d => n * 10 + d) 0, exponent⟩
    else none
  | _ => none

/-! ## The repository around a profile -/

structure RegisterField where
  name : String
  width : ℕ
  shadowOffset : ℤ

/-- The tracked table manifest and register contract. -/
structure Contracts where
  firTaps : Json
  firSha256 : Json
  sineSha256 : Json
  pageOffset : ℤ
  configurationFields : List RegisterField

structure SequenceIdentity where
  source : String
  imageSha256 : String
  payloadCrc32 : ℤ
  eventCount : ℤ
  tickHz : ℤ

structure Repository where
  resolveSequence : String → Except ProfileError SequenceIdentity
  loadContracts : Except ProfileError Contracts
  sha256 : Json → BitVec 256

def hexText (width n : ℕ) : String :=
  let digits := Nat.toDigits 16 n
  String.ofList (List.replicate (width - digits.length) '0' ++ digits)

/-- The configuration id: the first sixteen digits of the digest. -/
def digestId (digest : BitVec 256) : ℤ :=
  (digest.extractLsb' 192 64).toNat

def SequenceIdentity.json (s : SequenceIdentity) : Json :=
  .obj [("source", .str s.source), ("image_sha256", .str s.imageSha256),
    ("payload_crc32", .int s.payloadCrc32), ("event_count", .int s.eventCount),
    ("tick_hz", .int s.tickHz)]

/-- `_numerical_contract` -/
def numericalContract (tables : Contracts) : Json :=
  .obj [("format", .str "qcrate-dsp-v1"), ("sample_rate_hz", .int sampleRateHz),
    ("output_sample_rate_hz", .int (sampleRateHz / decimation)), ("decimation", .int decimation),
    ("phase_bits", .int 32), ("amplitude_format", .str "signed-q1.15"),
    ("mixer_format", .str "signed-q1.17"), ("coefficient_format", .str "signed-q1.17"),
    ("output_format", .str "complex-signed-q1.15"),
    ("rounding", .str "nearest-ties-away-from-zero"), ("overflow", .str "signed-saturation"),
    ("fir_taps", tables.firTaps), ("fir_sha256", tables.firSha256),
    ("sine_sha256", tables.sineSha256)]

/-! ## Requested and active values -/

/-- `dsp.requested` -/
structure Requested where
  signalFrequency : Decimal
  signalPhase : Decimal
  signalAmplitude : Decimal
  noiseAmplitude : Decimal
  noiseSeed : ℤ
  loFrequency : Decimal
  loPhase : Decimal

/-- `dsp.active` -/
structure Active where
  signalPhaseIncrement : ℤ
  signalPhaseInitial : ℤ
  signalAmplitude : ℤ
  noiseAmplitude : ℤ
  noiseSeed : ℤ
  loPhaseIncrement : ℤ
  loPhaseInitial : ℤ
  deriving DecidableEq

def Requested.active (r : Requested) : Active where
  signalPhaseIncrement := phaseWord r.signalFrequency.value sampleRateHz
  signalPhaseInitial := phaseWord r.signalPhase.value 1
  signalAmplitude := q115 r.signalAmplitude.value
  noiseAmplitude := q115 r.noiseAmplitude.value
  noiseSeed := r.noiseSeed
  loPhaseIncrement := phaseWord r.loFrequency.value sampleRateHz
  loPhaseInitial := phaseWord r.loPhase.value 1

def Active.fields (a : Active) : List (String × ℤ) :=
  [("SIGNAL_PHASE_INCREMENT", a.signalPhaseIncrement),
    ("SIGNAL_PHASE_INITIAL", a.signalPhaseInitial),
    ("SIGNAL_AMPLITUDE_Q1_15", a.signalAmplitude), ("NOISE_AMPLITUDE_Q1_15", a.noiseAmplitude),
    ("NOISE_SEED", a.noiseSeed), ("LO_PHASE_INCREMENT", a.loPhaseIncrement),
    ("LO_PHASE_INITIAL", a.loPhaseInitial)]

def Active.json (a : Active) : Json :=
  .obj (a.fields.map fun (name, value) => (name, .int value))

def realizedFrequency (increment : ℤ) : ℚ :=
  context precision (context precision (increment * sampleRateHz) / phaseModulus)

def realizedJson (a : Active) : Json :=
  let signal := realizedFrequency a.signalPhaseIncrement
  let lo := realizedFrequency a.loPhaseIncrement
  .obj [("signal_frequency_hz", .str (decimalString (.ofRat signal))),
    ("lo_frequency_hz", .str (decimalString (.ofRat lo))),
    ("baseband_frequency_hz",
      .str (decimalString (.ofRat (context precision (signal - lo)))))]

def Requested.json (r : Requested) : Json :=
  .obj [("signal_frequency_hz", .str (decimalString r.signalFrequency)),
    ("signal_phase_turns", .str (decimalString r.signalPhase)),
    ("signal_amplitude", .str (decimalString r.signalAmplitude)),
    ("noise_amplitude", .str (decimalString r.noiseAmplitude)),
    ("noise_seed", .int r.noiseSeed),
    ("lo_frequency_hz", .str (decimalString r.loFrequency)),
    ("lo_phase_turns", .str (decimalString r.loPhase))]

/-- `_register_writes`: a name of the contract without a value raises. -/
def registerWrites (active : List (String × ℤ)) (configId : ℤ) (registers : Contracts) :
    Except ProfileError Json := do
  let values := [("CONFIG_ID_LOW", configId % 2 ^ 32), ("CONFIG_ID_HIGH", configId / 2 ^ 32)] ++
    active
  let writes ← registers.configurationFields.mapM fun field =>
    match values.lookup field.name with
    | none => .error ⟨field.name⟩
    | some value =>
      if 0 ≤ value ∧ value < 2 ^ field.width then
        .ok (Json.obj [("name", .str field.name),
          ("offset", .int (registers.pageOffset + field.shadowOffset)), ("value", .int value)])
      else .error ⟨s!"resolved {field.name} does not fit {field.width} bits"⟩
  return .arr writes

def dspIdentityPayload (contract active : Json) : Json :=
  .obj [("format", .str "qcrate-dsp-config-identity-v1"), ("numerical_contract", contract),
    ("active", active)]

def profileIdentityPayload (digest acquisition imageSha256 eventCount tickHz : Json) : Json :=
  .obj [("format", .str "qcrate-experiment-identity-v1"), ("dsp_config_sha256", digest),
    ("acquisition", acquisition),
    ("sequence", .obj [("image_sha256", imageSha256), ("event_count", eventCount),
      ("tick_hz", tickHz)])]

def profileFormat : String := "qcrate-experiment-profile-v1"
def resolvedFormat : String := "qcrate-experiment-resolved-v1"

def nyquist : ℤ := 100000000

def dspSourceKeys : List String :=
  ["signal_frequency_hz", "signal_phase_turns", "signal_amplitude", "noise_amplitude",
    "noise_seed", "lo_frequency_hz", "lo_phase_turns"]

def activeKeys : List String :=
  ["SIGNAL_PHASE_INCREMENT", "SIGNAL_PHASE_INITIAL", "SIGNAL_AMPLITUDE_Q1_15",
    "NOISE_AMPLITUDE_Q1_15", "NOISE_SEED", "LO_PHASE_INCREMENT", "LO_PHASE_INITIAL"]

/-! ## Compiling a profile -/

/-- The DSP section of `compile_profile`. -/
def requestedOfSource (source : Json) : Except ProfileError Requested := do
  let dsp ← checkKeys source dspSourceKeys "dsp"
  let signalFrequency ← decimal (dsp.get "signal_frequency_hz") 0 nyquist false
    "dsp.signal_frequency_hz"
  let loFrequency ← decimal (dsp.get "lo_frequency_hz") 0 nyquist false "dsp.lo_frequency_hz"
  let signalPhase ← decimal (dsp.get "signal_phase_turns") 0 1 false "dsp.signal_phase_turns"
  let loPhase ← decimal (dsp.get "lo_phase_turns") 0 1 false "dsp.lo_phase_turns"
  let signalAmplitude ← decimal (dsp.get "signal_amplitude") 0 1 true "dsp.signal_amplitude"
  let noiseAmplitude ← decimal (dsp.get "noise_amplitude") 0 1 true "dsp.noise_amplitude"
  if 1 < context precision (signalAmplitude.value + noiseAmplitude.value) then
    .error ⟨"signal plus noise amplitude must not exceed 1"⟩
  let noiseSeed ← integer (dsp.get "noise_seed") 1 0xFFFF "dsp.noise_seed"
  return { signalFrequency, signalPhase, signalAmplitude, noiseAmplitude, noiseSeed, loFrequency,
           loPhase }

/-- The acquisition section of `compile_profile`. -/
def acquisitionOfSource (source : Json) : Except ProfileError (ℤ × ℤ) := do
  let acquisition ← checkKeys source ["frame_length_words", "frame_count", "stream_mode"]
    "acquisition"
  let frameLength ← integer (acquisition.get "frame_length_words") 1 262144
    "acquisition.frame_length_words"
  let frameCount ← integer (acquisition.get "frame_count") 1 255 "acquisition.frame_count"
  if 1000000 < frameLength * frameCount then
    .error ⟨"acquisition contains more than 1000000 output words"⟩
  if !(Json.str "dsp").pyEq (acquisition.get "stream_mode") then
    .error ⟨"DP-6 profile stream_mode must be 'dsp'"⟩
  return (frameLength, frameCount)

/-- `profile.name` -/
def profileName : Json → Except ProfileError String
  | .str s =>
    if 1 ≤ s.length ∧ s.length ≤ 128 then .ok s
    else .error ⟨"profile.name must contain between 1 and 128 characters"⟩
  | _ => .error ⟨"profile.name must contain between 1 and 128 characters"⟩

/-- `sequence.source` -/
def sequencePath (source : Json) : Except ProfileError String := do
  let sequence ← checkKeys source ["source"] "sequence"
  match sequence.get "source" with
  | .str s =>
    if s ≠ "" then .ok s
    else .error ⟨"sequence.source must be a nonempty repository-relative path"⟩
  | _ => .error ⟨"sequence.source must be a nonempty repository-relative path"⟩

def acquisitionJson (geometry : ℤ × ℤ) : Json :=
  .obj [("frame_length_words", .int geometry.1), ("frame_count", .int geometry.2),
    ("stream_mode", .str "dsp"), ("stream_mode_value", .int 1)]

/-- The document that `compile_profile` returns. -/
def resolvedJson (name : String) (r : Requested) (geometry : ℤ × ℤ) (sequence contract : Json)
    (dspDigest profileDigest : BitVec 256) (writes : Json) : Json :=
  .obj [("format", .str resolvedFormat), ("name", .str name),
    ("identity", .obj [("profile_sha256", .str (hexText 64 profileDigest.toNat)),
      ("dsp_config_sha256", .str (hexText 64 dspDigest.toNat)),
      ("dsp_config_id", .str ("0x" ++ hexText 16 (digestId dspDigest).toNat))]),
    ("numerical_contract", contract),
    ("dsp", .obj [("requested", r.json), ("active", r.active.json),
      ("realized", realizedJson r.active)]),
    ("acquisition", acquisitionJson geometry), ("sequence", sequence), ("register_writes", writes)]

/-- `compile_profile` on the loaded document. -/
def compileProfile (repo : Repository) (document : Json) : Except ProfileError Json := do
  let root ← checkKeys document ["format", "name", "dsp", "acquisition", "sequence"] "profile"
  if !(Json.str profileFormat).pyEq (root.get "format") then
    .error ⟨s!"profile.format must be '{profileFormat}'"⟩
  let name ← profileName (root.get "name")
  let requested ← requestedOfSource (root.get "dsp")
  let geometry ← acquisitionOfSource (root.get "acquisition")
  let source ← sequencePath (root.get "sequence")
  let sequence ← repo.resolveSequence source
  let contracts ← repo.loadContracts
  let contract := numericalContract contracts
  let dspDigest := repo.sha256 (dspIdentityPayload contract requested.active.json)
  let profileDigest := repo.sha256 (profileIdentityPayload (.str (hexText 64 dspDigest.toNat))
    (acquisitionJson geometry) (.str sequence.imageSha256) (.int sequence.eventCount)
    (.int sequence.tickHz))
  let writes ← registerWrites requested.active.fields (digestId dspDigest) contracts
  return resolvedJson name requested geometry sequence.json contract dspDigest profileDigest writes

/-! ## A resolved profile -/

/-- The values of a configuration command. -/
structure ConfigValues where
  configId : ℤ
  active : Active
  frameLength : ℤ
  frameCount : ℤ

/-- `int(value, 0)` with the error it is turned into. -/
def configIdOf (malformed : ProfileError) : Json → Except ProfileError ℤ
  | .str s => (parseInt0 s.toList).elim (.error malformed) .ok
  | _ => .error malformed

def lacksBundle : ProfileError :=
  ⟨"resolved profile lacks a valid configuration bundle"⟩

/-- A value of the bundle: a key that is not there is an error of the bundle. -/
def bundleField (document : Json) (key : String) : Except ProfileError Json :=
  match document with
  | .obj fields => (fields.lookup key).elim (.error lacksBundle) .ok
  | _ => .error lacksBundle

/-- The check of one value of the command. -/
def commandValue (index : ℕ) (minimum maximum : ℤ) (value : Json) : Except ProfileError ℤ :=
  match value with
  | .int n =>
    if minimum ≤ n ∧ n ≤ maximum then .ok n
    else .error ⟨s!"resolved configuration value {index} is out of range"⟩
  | _ => .error ⟨s!"resolved configuration value {index} is not an integer"⟩

/-- `configuration_command`, before the values are written out as arguments. -/
def configurationCommand (document : Json) : Except ProfileError ConfigValues := do
  if !(Json.str resolvedFormat).pyEq ((bundleField document "format").toOption.getD .null) then
    .error ⟨s!"resolved format must be '{resolvedFormat}'"⟩
  let identity ← bundleField document "identity"
  let configId ← bundleField identity "dsp_config_id" >>= configIdOf lacksBundle
  let active ← bundleField document "dsp" >>= (bundleField · "active")
  let acquisition ← bundleField document "acquisition"
  let signalPhaseIncrement ← bundleField active "SIGNAL_PHASE_INCREMENT"
  let signalPhaseInitial ← bundleField active "SIGNAL_PHASE_INITIAL"
  let signalAmplitude ← bundleField active "SIGNAL_AMPLITUDE_Q1_15"
  let noiseAmplitude ← bundleField active "NOISE_AMPLITUDE_Q1_15"
  let noiseSeed ← bundleField active "NOISE_SEED"
  let loPhaseIncrement ← bundleField active "LO_PHASE_INCREMENT"
  let loPhaseInitial ← bundleField active "LO_PHASE_INITIAL"
  let frameLength ← bundleField acquisition "frame_length_words"
  let frameCount ← bundleField acquisition "frame_count"
  let configId ← commandValue 0 1 0xFFFFFFFFFFFFFFFF (.int configId)
  let signalPhaseIncrement ← commandValue 1 0 0xFFFFFFFF signalPhaseIncrement
  let signalPhaseInitial ← commandValue 2 0 0xFFFFFFFF signalPhaseInitial
  let signalAmplitude ← commandValue 3 0 0xFFFFFFFF signalAmplitude
  let noiseAmplitude ← commandValue 4 0 0xFFFFFFFF noiseAmplitude
  let noiseSeed ← commandValue 5 0 0xFFFFFFFF noiseSeed
  let loPhaseIncrement ← commandValue 6 0 0xFFFFFFFF loPhaseIncrement
  let loPhaseInitial ← commandValue 7 0 0xFFFFFFFF loPhaseInitial
  let frameLength ← commandValue 8 0 0xFFFFFFFF frameLength
  let frameCount ← commandValue 9 0 0xFFFFFFFF frameCount
  return {
    configId, frameLength, frameCount
    active := { signalPhaseIncrement, signalPhaseInitial, signalAmplitude, noiseAmplitude,
                noiseSeed, loPhaseIncrement, loPhaseInitial } }

/-- The requested values of a resolved profile. -/
def requestedOfResolved (requested : Fields) : Except ProfileError Requested := do
  let malformed : ProfileError := ⟨"resolved requested DSP values are malformed"⟩
  let read (key : String) : Except ProfileError Decimal :=
    (toDecimal (requested.get key)).elim (.error malformed) .ok
  let signalFrequency ← read "signal_frequency_hz"
  let loFrequency ← read "lo_frequency_hz"
  let signalPhase ← read "signal_phase_turns"
  let loPhase ← read "lo_phase_turns"
  let signalAmplitude ← read "signal_amplitude"
  let noiseAmplitude ← read "noise_amplitude"
  let noiseSeed ← (integer (requested.get "noise_seed") 1 0xFFFF "resolved noise seed").mapError
    fun _ => malformed
  let inside (d : Decimal) (bound : ℚ) : Bool := decide (0 ≤ d.value ∧ d.value < bound)
  let unit (d : Decimal) : Bool := decide (0 ≤ d.value ∧ d.value ≤ 1)
  if !(inside signalFrequency nyquist && inside loFrequency nyquist) then
    .error ⟨"resolved frequencies are outside [0, Nyquist)"⟩
  if !(inside signalPhase 1 && inside loPhase 1) then
    .error ⟨"resolved phases are outside [0, 1) turns"⟩
  if !(unit signalAmplitude && unit noiseAmplitude &&
      decide (context precision (signalAmplitude.value + noiseAmplitude.value) ≤ 1)) then
    .error ⟨"resolved amplitudes violate the Q1.15 source contract"⟩
  return { signalFrequency, signalPhase, signalAmplitude, noiseAmplitude, noiseSeed, loFrequency,
           loPhase }

/-- `validate_resolved_profile` -/
def validateResolvedProfile (repo : Repository) (document : Json) : Except ProfileError Json := do
  let root ← checkKeys document ["format", "name", "identity", "numerical_contract", "dsp",
    "acquisition", "sequence", "register_writes"] "resolved profile"
  if !(Json.str resolvedFormat).pyEq (root.get "format") then
    .error ⟨s!"resolved format must be '{resolvedFormat}'"⟩
  let identity ← checkKeys (root.get "identity")
    ["profile_sha256", "dsp_config_sha256", "dsp_config_id"] "resolved identity"
  let dsp ← checkKeys (root.get "dsp") ["requested", "active", "realized"] "resolved dsp"
  let requestedFields ← checkKeys (dsp.get "requested") dspSourceKeys "resolved requested DSP"
  let _ ← checkKeys (dsp.get "realized") ["signal_frequency_hz", "lo_frequency_hz",
    "baseband_frequency_hz"] "resolved realized DSP"
  let _ ← checkKeys (dsp.get "active") activeKeys "resolved active DSP"
  let acquisition ← checkKeys (root.get "acquisition")
    ["frame_length_words", "frame_count", "stream_mode", "stream_mode_value"]
    "resolved acquisition"
  let sequence ← checkKeys (root.get "sequence")
    ["source", "image_sha256", "payload_crc32", "event_count", "tick_hz"] "resolved sequence"
  let contracts ← repo.loadContracts
  if !(numericalContract contracts).pyEq (root.get "numerical_contract") then
    .error ⟨"resolved numerical contract differs from tracked DSP tables"⟩
  let requested ← requestedOfResolved requestedFields
  let active := requested.active
  if !active.json.pyEq (dsp.get "active") then
    .error ⟨"resolved active DSP values differ from requested values"⟩
  if !(realizedJson active).pyEq (dsp.get "realized") then
    .error ⟨"resolved realized frequencies differ from active words"⟩
  let frameLength ← integer (acquisition.get "frame_length_words") 1 262144
    "resolved frame length"
  let frameCount ← integer (acquisition.get "frame_count") 1 255 "resolved frame count"
  if !(Json.str "dsp").pyEq (acquisition.get "stream_mode") ||
      !(Json.int 1).pyEq (acquisition.get "stream_mode_value") ||
      decide (1000000 < frameLength * frameCount) then
    .error ⟨"resolved acquisition geometry is invalid"⟩
  let configId ← configIdOf ⟨"resolved DSP configuration ID is malformed"⟩
    (identity.get "dsp_config_id")
  if !decide (1 ≤ configId ∧ configId ≤ 0xFFFFFFFFFFFFFFFF) then
    .error ⟨"resolved DSP configuration ID is out of range"⟩
  let dspDigest := repo.sha256 (dspIdentityPayload (root.get "numerical_contract")
    (dsp.get "active"))
  if !(Json.str (hexText 64 dspDigest.toNat)).pyEq (identity.get "dsp_config_sha256") ||
      decide (configId ≠ digestId dspDigest) then
    .error ⟨"resolved DSP identity does not match its active values"⟩
  let profileDigest := repo.sha256 (profileIdentityPayload (.str (hexText 64 dspDigest.toNat))
    (root.get "acquisition") (sequence.get "image_sha256") (sequence.get "event_count")
    (sequence.get "tick_hz"))
  if !(Json.str (hexText 64 profileDigest.toNat)).pyEq (identity.get "profile_sha256") then
    .error ⟨"resolved experiment identity does not match its contract"⟩
  let writes ← registerWrites active.fields configId contracts
  if !writes.pyEq (root.get "register_writes") then
    .error ⟨"resolved register writes differ from active DSP values"⟩
  let _ ← configurationCommand document
  return document

/-! ## The staged words -/

/-- The CONFIG_STAGE words of a command. -/
def ConfigValues.words (v : ConfigValues) : ConfigWords :=
  #v[.ofInt 32 v.configId, .ofInt 32 (v.configId / 2 ^ 32),
    .ofInt 32 v.active.signalPhaseIncrement, .ofInt 32 v.active.signalPhaseInitial,
    .ofInt 32 v.active.signalAmplitude, .ofInt 32 v.active.noiseAmplitude,
    .ofInt 32 v.active.noiseSeed, .ofInt 32 v.active.loPhaseIncrement,
    .ofInt 32 v.active.loPhaseInitial, .ofInt 32 v.frameLength, .ofInt 32 v.frameCount]

end QCrate.Host
