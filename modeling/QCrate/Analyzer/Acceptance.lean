import QCrate.Analyzer.Recorded
import QCrate.Host.ProfileWords
import QCrate.Lib.LittleEndian

/-!
# The acceptance of a run

`evaluate_run` of `qcrate_acceptance.py`, on the files of a run and the evidence of the faults. The
conversions of Python's numbers and the reference words of a configuration are parameters.

The verdict of the recorder alone does not see shots that were lost before the first one it heard
of. The acceptance also compares its count with the count of the sender, and that is enough.

* `writeManifest` — what the recorder says of a run.
* `evaluateRun` — the report.
* `accepted_run_whole` — what the report says about the run that was sent.
-/

namespace QCrate.Analyzer

open QCrate.Lib QCrate.DataPlane QCrate.Recorder SentRun
open QCrate.Host (hexText)
open QCrate.Receiver (crc32)

variable {F C : Type}

/-! ## The manifest -/

/-- What the clocks and the socket give `write_manifest`. -/
structure Measured (F : Type) where
  startNs : ℕ
  endNs : ℕ
  durationSeconds : F
  processCpuSeconds : F
  processCpuPercent : F
  shotRateHz : F
  samplePayloadMbps : F
  udpPayloadMbps : F
  requestedReceiveBuffer : ℕ
  actualReceiveBuffer : ℤ

/-- A number that is printed in hexadecimal, with leading zeros. -/
def hexField (width n : ℕ) : Json F := .str ("0x" ++ hexText width n)

/-- The `stream` object of the manifest. -/
def manifestStream : Option (Header × StreamInfo) → Json F
  | none => .null
  | some (header, profile) =>
    .object
      [("payload_format", .int header.payloadFormat),
        ("sample_bytes", .int header.sampleBytes),
        ("frame_samples", .int profile.frameSamples),
        ("sample_rate_numerator", .int profile.sampleRateNumerator),
        ("sample_rate_denominator", .int profile.sampleRateDenominator),
        ("timestamp_rate_numerator", .int profile.timestampRateNumerator),
        ("timestamp_rate_denominator", .int profile.timestampRateDenominator),
        ("center_frequency_hz", .int profile.centerFrequencyHz),
        ("channel_count", .int profile.channelCount),
        ("component_bits", .int profile.componentBits),
        ("fraction_bits", .int profile.fractionBits),
        ("timestamp_clock_id", .int profile.timestampClockId),
        ("config_id", hexField 16 profile.configId)]

/-- `write_manifest`: the fields of `run.json`. -/
def writeManifest (run : RunState) (clean : Bool) (m : Measured F) : Report F :=
  [("format", .str "qcrate-run-v1"),
    ("complete", .bool clean),
    ("run_id", hexField 16 (identity run).1),
    ("stream_id", hexField 8 (identity run).2),
    ("stream", manifestStream run.profile),
    ("terminal_received", .bool run.terminal.isSome),
    ("run_continuity_error", .bool run.runContinuityError),
    ("interrupted", .bool run.interrupted),
    ("timing", .object
      [("start_monotonic_ns", .int m.startNs),
        ("end_monotonic_ns", .int m.endNs),
        ("duration_seconds", .float m.durationSeconds),
        ("process_cpu_seconds", .float m.processCpuSeconds),
        ("process_cpu_percent", .float m.processCpuPercent)]),
    ("performance", .object
      [("shot_rate_hz", .float m.shotRateHz),
        ("sample_payload_mbps", .float m.samplePayloadMbps),
        ("udp_payload_mbps", .float m.udpPayloadMbps)]),
    ("shots_complete", .int run.completeShots),
    ("shots_incomplete", .int run.incompleteShots),
    ("datagrams_journaled", .int run.journalRecords),
    ("datagram_bytes_journaled", .int run.datagramBytes),
    ("valid_packets", .int run.validPackets),
    ("malformed_packets", .int run.malformedPackets),
    ("foreign_packets", .int run.foreignPackets),
    ("duplicate_packets", .int run.duplicatePackets),
    ("reordered_packets", .int run.reorderedPackets),
    ("conflicting_packets", .int run.conflictingPackets),
    ("late_packets", .int run.latePackets),
    ("preselection_overflow", .int run.pendingOverflow),
    ("kernel_receive_drops", .int run.kernelDrops),
    ("requested_receive_buffer_bytes", .int m.requestedReceiveBuffer),
    ("actual_receive_buffer_bytes", .int m.actualReceiveBuffer),
    ("sample_bytes_published", .int run.sampleOffset)]

/-! ## What the acceptance uses -/

/-- The conversions of numbers. -/
structure Conversions (F : Type) where
  /-- `float(value)` -/
  float : Json F → Except String F
  /-- `int(value)` -/
  int : Json F → Except String ℤ
  int_int : ∀ n, int (.int n) = .ok n
  /-- `a >= b` -/
  atLeast : F → F → Bool
  /-- `round(x, 6)` -/
  round6 : F → F
  /-- `f"{x:.3f}"` -/
  fixed3 : F → String

/-- The reference that the identity of a shot selects: `reference_config`, as a resolved path, and
`expected_words`, which gives as many words as it is asked for. -/
structure References (C : Type) where
  config : ShotRecord → Except String (Option C)
  words : C → ℕ → Except String (List ℕ)
  length_words : ∀ config count expected, words config count = .ok expected →
    expected.length = count

/-- What `evaluate_run` raises. -/
inductive EvaluationError where
  | run (e : RunError)
  | read (e : ReadError)
  | value (message : String)
  | buffer (bytes : ℕ)
  | faults (message : String)
  | faultDocument
  | faultFormat
  deriving DecidableEq, Repr

/-- `nested` -/
def nested (mapping default : Json F) : List String → Json F
  | [] => mapping
  | key :: keys =>
    match mapping with
    | .object fields => nested (fieldOr fields key default) default keys
    | _ => default

/-- `np.frombuffer(payload, dtype="<u4")` -/
def fromBuffer (payload : Bytes) : Option (List ℕ) :=
  if payload.length % 4 ≠ 0 then none
  else some (readTable 4 getLE (payload.length / 4) payload)

/-! ## The comparison with the reference -/

/-- What the loop over the complete shots keeps. -/
structure Comparison (C : Type) where
  references : List ((C × ℕ) × List ℕ) := []
  checkedWords : ℕ := 0
  mismatches : ℕ := 0
  crcMismatches : ℕ := 0
  unexpected : List ℕ := []

namespace Comparison

variable [DecidableEq C] (ref : References C) (samples : Bytes)

/-- The words of a key, from the dictionary when they are there. -/
def expected (c : Comparison C) (key : C × ℕ) : Except String (List ℕ × Comparison C) :=
  match c.references.lookup key with
  | some words => .ok (words, c)
  | none =>
    match ref.words key.1 key.2 with
    | .error message => .error message
    | .ok words => .ok (words, { c with references := c.references ++ [(key, words)] })

/-- How many words differ. -/
def differing (words expected : List ℕ) : ℕ := (words.zip expected).countP fun p => p.1 ≠ p.2

/-- The checksum of a payload. -/
def checkCrc (c : Comparison C) (shot : ShotRecord) (payload : Bytes) : Comparison C :=
  if crc32 payload ≠ shot.payloadCrc32 then { c with crcMismatches := c.crcMismatches + 1 } else c

/-- The words of a payload against the reference that the shot selects. -/
def compareWords (c : Comparison C) (shot : ShotRecord) (payload : Bytes) :
    Except EvaluationError (Comparison C) :=
  match ref.config shot with
  | .error message => .error (.value message)
  | .ok none => .ok { c with unexpected := c.unexpected.insert shot.configId }
  | .ok (some config) =>
    match fromBuffer payload with
    | none => .error (.buffer payload.length)
    | some words =>
      match c.expected ref (config, words.length) with
      | .error message => .error (.value message)
      | .ok (reference, c) =>
        .ok { c with
          mismatches := c.mismatches + differing words reference
          checkedWords := c.checkedWords + words.length }

/-- The body of the loop. -/
def shot (c : Comparison C) (shot : ShotRecord) : Except EvaluationError (Comparison C) :=
  match readSamples samples shot with
  | .error e => .error (.read e)
  | .ok payload => (c.checkCrc shot payload).compareWords ref shot payload

end Comparison

/-! ## The report -/

structure Check (F : Type) where
  name : String
  passed : Bool
  actual : Json F
  requirement : String

inductive AcceptanceResult where
  | pass | pending | fail
  deriving DecidableEq, Repr

/-- What `evaluate_run` returns, but for the figures of the health that it copies. -/
structure Summary (F : Type) where
  result : AcceptanceResult
  runId : ℕ
  streamId : ℕ
  minimumDuration : F
  cleanSoakPass : Bool
  faultAcceptanceComplete : Bool
  checks : List (Check F)
  durationSeconds : F
  referenceWordsChecked : ℕ
  referenceMismatches : ℕ
  recoveryTests : List (String × Json F)

def faultFormat : String := "qcrate-dp5d-faults-v1"

def requiredFaults : List String := ["receiver_restart", "analyzer_restart", "ethernet_disconnect"]

variable (py : Python F) (fl : Floats F) (conv : Conversions F)

/-- The results of the recovery tests, of the evidence if there is a file. -/
def faultResults (faults : Option Bytes) : Except EvaluationError (List (String × Json F)) :=
  match faults with
  | none => .ok (requiredFaults.map fun name => (name, .null))
  | some content =>
    match py.loads content with
    | .error message => .error (.faults message)
    | .ok (.object document) =>
      if !hasFormat document faultFormat then .error .faultFormat
      else
        match fieldOr document "cases" (.object []) with
        | .object cases =>
          .ok (requiredFaults.map fun name =>
            (name,
              match cases.lookup name with
              | some (.object fields) => fieldOr fields "pass" .null
              | _ => .null))
        | _ => .ok []
    | .ok _ => .error .faultDocument

/-- `value is b` -/
def Json.isBool (b : Bool) : Json F → Bool
  | .bool value => value == b
  | _ => false

/-- `run_complete` -/
def RunBundle.runComplete (b : RunBundle F) : Option Bool :=
  b.manifest.map fun fields => (fieldOr fields "complete" (.bool false)).truth py

/-- The sender report as a value, `None` when it is missing. -/
def RunBundle.sender (b : RunBundle F) : Json F :=
  match b.senderReport with
  | none => .null
  | some fields => .object fields

def RunBundle.senderDuration (b : RunBundle F) : Json F :=
  nested b.sender (.float (fl.ofInt 0)) ["timing", "capture_duration_seconds"]

def RunBundle.senderShots (b : RunBundle F) : Json F :=
  nested b.sender (.int (-1)) ["capture", "shots_transmitted"]

/-- A value that may be missing. -/
def orNull {α : Type} (json : α → Json F) (value : Option α) : Json F := (value.map json).getD .null

/-- The calls of `check`. -/
def checks (b : RunBundle F) (senderDuration minimumDuration : F) (senderShots : ℤ)
    (c : Comparison C) : List (Check F) :=
  let health := b.health py fl
  let timestamps := b.completeShots.map (·.firstSampleTimestamp)
  let senderComplete := b.senderReport.bind (·.lookup "complete")
  [⟨"recorder_complete", b.runComplete py = some true, orNull .bool (b.runComplete py),
      "run.json complete must be true"⟩,
    ⟨"sender_report", b.senderReport.isSome, .bool b.senderReport.isSome,
      "sender.json must be present and identity-matched"⟩,
    ⟨"sender_complete", senderComplete.any (·.truth py), senderComplete.getD .null,
      "qcrate-streamer must close the run cleanly"⟩,
    ⟨"capture_duration", conv.atLeast senderDuration minimumDuration,
      .float (conv.round6 senderDuration), ">= " ++ conv.fixed3 minimumDuration ++ " seconds"⟩,
    ⟨"complete_shots", 0 < health.completeShots, .int health.completeShots, "> 0"⟩,
    ⟨"incomplete_shots", health.incompleteShots = 0, .int health.incompleteShots, "0"⟩,
    ⟨"shot_identity_continuity", health.skippedShotIds = 0, .int health.skippedShotIds,
      "0 skipped IDs"⟩,
    ⟨"sender_recorder_shot_count", senderShots = health.completeShots,
      .object [("sender", .int senderShots), ("recorder", .int health.completeShots)], "equal"⟩,
    ⟨"record_integrity", health.recordIntegrityOk,
      .object
        [("missing_packets", .int health.missingPackets),
          ("malformed_packets", .int health.malformedPackets),
          ("conflicting_packets", .int health.conflictingPackets),
          ("kernel_receive_drops", .int health.kernelReceiveDrops),
          ("continuity_errors", .int health.continuityErrors)], "all zero"⟩,
    ⟨"acquisition_integrity", health.acquisitionIntegrityOk,
      .object
        [("missed_triggers", orNull .int health.missedTriggers),
          ("skipped_triggers", orNull .int health.skippedTriggers),
          ("dma_error_events", orNull .int health.dmaErrorEvents)], "all zero"⟩,
    ⟨"hardware_timestamps",
      !timestamps.isEmpty && (timestamps.zip timestamps.tail).all fun p => p.1 < p.2,
      .object
        [("first", orNull (fun t => .int (t : ℕ)) timestamps.head?),
          ("last", orNull (fun t => .int (t : ℕ)) timestamps.getLast?)],
      "present and strictly increasing"⟩,
    ⟨"published_payload_crc", c.crcMismatches = 0, .int c.crcMismatches,
      "0 mismatched shot payloads"⟩,
    ⟨"bit_exact_iq", c.unexpected.isEmpty && c.mismatches = 0,
      .object
        [("words_checked", .int c.checkedWords),
          ("mismatches", .int c.mismatches),
          ("unexpected_config_ids",
            .array ((c.unexpected.mergeSort (· ≤ ·)).map (hexField 16)))],
      "every published IQ word matches its identity-selected model"⟩]

/-- The summary of the checks and of the recovery tests. -/
def summarize (b : RunBundle F) (minimumDuration senderDuration : F) (c : Comparison C)
    (checks : List (Check F)) (faults : List (String × Json F)) : Summary F :=
  let cleanPass := checks.all (·.passed)
  let faultComplete := faults.all fun item => item.2.isBool true
  let faultFailed := faults.any fun item => item.2.isBool false
  { result :=
      if !cleanPass || faultFailed then .fail else if faultComplete then .pass else .pending
    runId := b.runId
    streamId := b.streamId
    minimumDuration := minimumDuration
    cleanSoakPass := cleanPass
    faultAcceptanceComplete := faultComplete
    checks := checks
    durationSeconds := senderDuration
    referenceWordsChecked := c.checkedWords
    referenceMismatches := c.mismatches
    recoveryTests := faults }

variable [DecidableEq C] (ref : References C)

/-- `evaluate_run`, on the files of a run and the contents of its samples. -/
def evaluateRun (f : Files) (samples : Bytes) (minimumDuration : F) (faults : Option Bytes) :
    Except EvaluationError (Summary F) :=
  match RunBundle.openRun py f with
  | .error e => .error (.run e)
  | .ok b =>
    match conv.float (b.senderDuration fl) with
    | .error message => .error (.value message)
    | .ok senderDuration =>
      match conv.int b.senderShots with
      | .error message => .error (.value message)
      | .ok senderShots =>
        match b.completeShots.foldlM (Comparison.shot ref samples) {} with
        | .error e => .error e
        | .ok c =>
          match faultResults py faults with
          | .error e => .error e
          | .ok faults =>
            .ok (summarize b minimumDuration senderDuration c
              (checks py fl conv b senderDuration minimumDuration senderShots c) faults)

/-! ## What the comparison says -/

namespace Comparison

/-- Nothing was found wrong. -/
structure Flawless (c : Comparison C) : Prop where
  crcMismatches : c.crcMismatches = 0
  mismatches : c.mismatches = 0
  unexpected : c.unexpected = []

/-- The dictionary holds what the reference gives. -/
def Remembers (c : Comparison C) : Prop :=
  ∀ key words, c.references.lookup key = some words → ref.words key.1 key.2 = .ok words

/-- A payload has the checksum of its shot, and it consists of the words of the reference. -/
structure Exact (shot : ShotRecord) (payload : Bytes) : Prop where
  crc : crc32 payload = shot.payloadCrc32
  words : ∃ config words, ref.config shot = .ok (some config) ∧
    fromBuffer payload = some words ∧ ref.words config words.length = .ok words

theorem eq_of_differing {words reference : List ℕ} (hlength : reference.length = words.length)
    (h : differing words reference = 0) : words = reference := by
  unfold differing at h
  rw [List.countP_eq_zero] at h
  refine List.ext_getElem hlength.symm fun i hi hi' => ?_
  have hmem : (words[i], reference[i]) ∈ words.zip reference := by
    rw [← List.getElem_zip (h := by rw [List.length_zip]; omega)]
    exact List.getElem_mem _
  simpa using h _ hmem

variable {ref} {samples : Bytes} {c c' : Comparison C}

/-- The dictionary changes nothing: the words are those of the reference. -/
theorem expected_ok (hr : c.Remembers ref) {key : C × ℕ} {words : List ℕ}
    (h : c.expected ref key = .ok (words, c')) :
    ref.words key.1 key.2 = .ok words ∧ c'.Remembers ref ∧ c'.crcMismatches = c.crcMismatches ∧
      c'.mismatches = c.mismatches ∧ c'.unexpected = c.unexpected := by
  unfold expected at h
  cases hl : c.references.lookup key with
  | some found =>
    rw [hl] at h
    cases h
    exact ⟨hr _ _ hl, hr, rfl, rfl, rfl⟩
  | none =>
    rw [hl] at h
    dsimp only at h
    cases hw : ref.words key.1 key.2 with
    | error message =>
      rw [hw] at h
      cases h
    | ok found =>
      rw [hw] at h
      cases h
      refine ⟨rfl, fun key' words' hlookup => ?_, rfl, rfl, rfl⟩
      rw [List.lookup_append] at hlookup
      rcases Option.or_eq_some_iff.mp hlookup with hold | ⟨-, hnew⟩
      · exact hr _ _ hold
      · rw [List.lookup_cons] at hnew
        split at hnew
        · next hkey =>
          rw [beq_iff_eq.mp hkey, hw]
          exact congrArg Except.ok (Option.some.inj hnew)
        · cases hnew

theorem compareWords_ok (hr : c.Remembers ref) {shot : ShotRecord} {payload : Bytes}
    (h : c.compareWords ref shot payload = .ok c') :
    c'.Remembers ref ∧ (c'.Flawless → c.Flawless ∧ ∃ config words,
      ref.config shot = .ok (some config) ∧ fromBuffer payload = some words ∧
        ref.words config words.length = .ok words) := by
  unfold compareWords at h
  cases hconfig : ref.config shot with
  | error message =>
    rw [hconfig] at h
    cases h
  | ok selected =>
    rw [hconfig] at h
    cases selected with
    | none =>
      cases h
      refine ⟨hr, fun hflawless => ?_⟩
      have hnil := hflawless.unexpected
      exact absurd hnil (List.ne_nil_of_mem List.mem_insert_self)
    | some config =>
      dsimp only at h
      cases hwords : fromBuffer payload with
      | none =>
        rw [hwords] at h
        cases h
      | some words =>
        rw [hwords] at h
        dsimp only at h
        cases hexpected : c.expected ref (config, words.length) with
        | error message =>
          rw [hexpected] at h
          cases h
        | ok found =>
          obtain ⟨reference, d⟩ := found
          rw [hexpected] at h
          cases h
          obtain ⟨hreference, hd, hcrcs, hmismatches, hunexpected⟩ := expected_ok hr hexpected
          refine ⟨hd, fun hflawless => ?_⟩
          have hsum : d.mismatches + differing words reference = 0 := hflawless.mismatches
          have heq := eq_of_differing (ref.length_words _ _ _ hreference)
            (Nat.eq_zero_of_add_eq_zero_left hsum)
          rw [← heq] at hreference
          exact ⟨⟨hcrcs.symm.trans hflawless.crcMismatches,
            hmismatches.symm.trans (Nat.eq_zero_of_add_eq_zero_right hsum),
            hunexpected.symm.trans hflawless.unexpected⟩, config, words, rfl, rfl, hreference⟩

/-- One shot: a comparison without a flaw had none before, and the shot is exact. -/
theorem shot_ok (hr : c.Remembers ref) {shot : ShotRecord}
    (h : c.shot ref samples shot = .ok c') :
    c'.Remembers ref ∧ (c'.Flawless → c.Flawless ∧
      ∃ payload, readSamples samples shot = .ok payload ∧ Exact ref shot payload) := by
  unfold Comparison.shot at h
  cases hread : readSamples samples shot with
  | error e =>
    rw [hread] at h
    cases h
  | ok payload =>
    rw [hread] at h
    have hr' : (c.checkCrc shot payload).Remembers ref := by
      unfold checkCrc
      split <;> exact hr
    obtain ⟨hremembers, hall⟩ := compareWords_ok hr' h
    refine ⟨hremembers, fun hflawless => ?_⟩
    obtain ⟨hbefore, hwords⟩ := hall hflawless
    by_cases hcrc : crc32 payload = shot.payloadCrc32
    · rw [checkCrc, if_neg (not_not.mpr hcrc)] at hbefore
      exact ⟨hbefore, payload, rfl, hcrc, hwords⟩
    · rw [checkCrc, if_pos hcrc] at hbefore
      exact absurd hbefore.crcMismatches (Nat.succ_ne_zero _)

/-- The loop: in a comparison without a flaw every shot is exact. -/
theorem shots_ok {shots : List ShotRecord} (hr : c.Remembers ref)
    (h : shots.foldlM (Comparison.shot ref samples) c = .ok c') (hf : c'.Flawless) :
    c.Flawless ∧ ∀ shot ∈ shots, ∃ payload, readSamples samples shot = .ok payload ∧
      Exact ref shot payload := by
  induction shots generalizing c with
  | nil =>
    cases h
    exact ⟨hf, fun _ hshot => absurd hshot List.not_mem_nil⟩
  | cons first shots ih =>
    rw [List.foldlM_cons] at h
    cases hfirst : Comparison.shot ref samples c first with
    | error e =>
      rw [hfirst] at h
      cases h
    | ok d =>
      rw [hfirst] at h
      obtain ⟨hd, hexact⟩ := shot_ok hr hfirst
      obtain ⟨hflawless, hrest⟩ := ih hd h
      obtain ⟨hc, hshot⟩ := hexact hflawless
      exact ⟨hc, List.forall_mem_cons.mpr ⟨hshot, hrest⟩⟩

end Comparison

/-! ## What a passed report says -/

/-- What the acceptance has found of a bundle whose checks have all passed. -/
structure Accepted (b : RunBundle F) (samples : Bytes) : Prop where
  complete : b.runComplete py = some true
  sender : (b.senderReport.bind (·.lookup "complete")).any (·.truth py) = true
  whole : b.incompleteShots = []
  counted : conv.int b.senderShots = .ok (b.completeShots.length : ℤ)
  exact : ∀ shot ∈ b.completeShots, ∃ payload, readSamples samples shot = .ok payload ∧
    Comparison.Exact ref shot payload

/-- Checks that have all passed. -/
theorem accepted_of_checks {b : RunBundle F} {samples : Bytes} {senderDuration minimumDuration : F}
    {senderShots : ℤ} {c : Comparison C} (hshots : conv.int b.senderShots = .ok senderShots)
    (hloop : b.completeShots.foldlM (Comparison.shot ref samples) {} = .ok c)
    (h : ∀ check ∈ checks py fl conv b senderDuration minimumDuration senderShots c,
      check.passed = true) : Accepted py conv ref b samples := by
  unfold checks at h
  simp only [List.forall_mem_cons, decide_eq_true_eq, Bool.and_eq_true, List.isEmpty_iff] at h
  obtain ⟨hcomplete, -, hsender, -, -, hincomplete, -, hcount, -, -, -, hcrc,
    ⟨hunexpected, hmismatches⟩, -⟩ := h
  refine ⟨hcomplete, hsender, List.length_eq_zero_iff.mp hincomplete, hshots.trans ?_, ?_⟩
  · exact congrArg Except.ok hcount
  · exact (Comparison.shots_ok (fun _ _ hnone => by cases hnone) hloop
      ⟨hcrc, hmismatches, hunexpected⟩).2

/-- A report that does not fail. -/
theorem evaluateRun_accepted {f : Files} {samples : Bytes} {minimumDuration : F}
    {faults : Option Bytes} {summary : Summary F}
    (h : evaluateRun py fl conv ref f samples minimumDuration faults = .ok summary)
    (hr : summary.result ≠ .fail) :
    ∃ b, RunBundle.openRun py f = .ok b ∧ Accepted py conv ref b samples := by
  unfold evaluateRun at h
  cases hopen : RunBundle.openRun py f with
  | error e =>
    rw [hopen] at h
    cases h
  | ok b =>
    rw [hopen] at h
    dsimp only at h
    cases hduration : conv.float (b.senderDuration fl) with
    | error message =>
      rw [hduration] at h
      cases h
    | ok senderDuration =>
      rw [hduration] at h
      dsimp only at h
      cases hshots : conv.int b.senderShots with
      | error message =>
        rw [hshots] at h
        cases h
      | ok senderShots =>
        rw [hshots] at h
        dsimp only at h
        cases hloop : b.completeShots.foldlM (Comparison.shot ref samples) {} with
        | error e =>
          rw [hloop] at h
          cases h
        | ok c =>
          rw [hloop] at h
          dsimp only at h
          cases hfaults : faultResults py faults with
          | error e =>
            rw [hfaults] at h
            cases h
          | ok results =>
            rw [hfaults] at h
            cases h
            -- everything could be read, so a verdict that is not FAIL has passed all checks
            have hpass : ∀ check ∈ checks py fl conv b senderDuration minimumDuration senderShots c,
                check.passed = true := by
              by_contra hnot
              refine hr (if_pos ?_)
              rw [← List.all_eq_true, Bool.not_eq_true] at hnot
              rw [hnot]
              rfl
            exact ⟨b, rfl, accepted_of_checks py fl conv ref hshots hloop hpass⟩

/-! ## A recording that is accepted -/

/-- A bundle has the reports that its files load. -/
theorem openRun_ok {run : RunState} {maxShotBytes now : ℕ}
    (hagree : FilesAgree maxShotBytes run.index run.samples) (hsound : run.Sound now)
    {runJson senderJson : Option ReportFile} {f : Files} (h : Left run runJson senderJson f)
    {b : RunBundle F} (hb : RunBundle.openRun py f = .ok b) :
    b.shots = run.index.map IndexRecord.stored ∧
      loadReports py f = .ok (b.manifest, b.senderReport) := by
  have hopen := (openRun_recording py hagree hsound h).1
  rw [hb] at hopen
  split at hopen
  · cases hl : loadReports py f with
    | error e =>
      rw [hl] at hopen
      cases hopen
    | ok reports =>
      rw [hl] at hopen
      cases hopen
      exact ⟨rfl, rfl⟩
  · cases hopen

theorem loadJsonReport_ok {name expectedFormat : String} {runId streamId : ℕ} {content : Bytes}
    {report : Report F}
    (h : loadJsonReport py name expectedFormat runId streamId content = .ok report) :
    py.loads content = .ok (.object report) := by
  unfold loadJsonReport at h
  split at h
  · cases h
  · next fields hfields =>
    rw [hfields]
    split_ifs at h
    split at h
    · cases h
    · split_ifs at h
      split at h
      · cases h
      · split_ifs at h
        cases h
        rfl
  · cases h

/-- What is loaded of reports that are there. -/
theorem loadReports_ok {f : Files} {runFile senderFile : ReportFile}
    (hrun : f.runJson = some runFile) (hsender : f.senderJson = some senderFile)
    {manifest senderReport : Option (Report F)}
    (h : loadReports py f = .ok (manifest, senderReport)) :
    (∃ report, manifest = some report ∧ py.loads runFile.content = .ok (.object report)) ∧
      ∃ report, senderReport = some report ∧
        py.loads senderFile.content = .ok (.object report) := by
  unfold loadReports at h
  rw [hrun, hsender] at h
  unfold loadIfExists at h
  dsimp only at h
  cases hm : loadJsonReport py "run.json" "qcrate-run-v1" f.runId f.streamId runFile.content with
  | error e =>
    rw [hm] at h
    cases h
  | ok report =>
    rw [hm] at h
    cases hs : loadJsonReport py "sender.json" "qcrate-sender-report-v1" f.runId f.streamId
        senderFile.content with
    | error e =>
      rw [hs] at h
      cases h
    | ok report' =>
      rw [hs] at h
      cases h
      exact ⟨⟨report, rfl, loadJsonReport_ok py hm⟩, report', rfl, loadJsonReport_ok py hs⟩

variable {R : SentRun} {source : Source} {items : List Item}

/-- A recording of which every shot is COMPLETE and none is missing has them all. -/
theorem files_of_counted {messages : List RunState.Message} (hd : Delivers R source messages items)
    (o : Options) (interrupted : Bool) (hclean : (record o messages interrupted).clean = true)
    (hincomplete : (record o messages interrupted).run.incompleteShots = 0)
    (hcomplete : (record o messages interrupted).run.completeShots = R.shots.length) :
    (record o messages interrupted).run.index.map (·.shotId) = R.shots.map SentShot.shotId ∧
      ∀ r ∈ (record o messages interrupted).run.index, r.state = .complete := by
  have hsession := record_session hd o interrupted
  generalize record o messages interrupted = out at hclean hincomplete hcomplete hsession
  cases hsession with
  | unheard _ _ hno =>
    rw [hno] at hclean
    cases hclean
  | stuck _ _ hno =>
    rw [hno] at hclean
    cases hclean
  | @ended _ _ _ S S' run h hf h' =>
    have hintact := (allIntact_iff h').mpr hincomplete
    have hlength : S'.log.length = R.shots.length :=
      (completeShots_eq h' hintact).symm.trans hcomplete
    obtain ⟨hheld, b, hunits, -⟩ := consecutive_of_intact hintact
    -- as many shots as were sent, one after the other, start with the first
    have hfirst : List.range' b S'.log.length = List.range' 0 R.shots.length := by
      rw [hlength]
      by_cases hzero : R.shots.length = 0
      · rw [hzero]
        rfl
      · obtain ⟨e, he, heu⟩ :=
          exists_unit hunits (show b ≤ b + S'.log.length - 1 by omega) (by omega)
        obtain ⟨s, hs, -⟩ := hheld e he
        obtain ⟨hlt, -⟩ := List.getElem?_eq_some_iff.mp hs
        rw [show b = 0 by omega]
    obtain ⟨hids, hstates, -⟩ := files_of_units h' hintact (hunits.trans hfirst)
    exact ⟨hids, hstates⟩

/-- How many records of each state the bundle has. -/
theorem counts_stored (index : List IndexRecord) :
    ((index.map IndexRecord.stored).filter (·.complete)).length =
        index.countP (·.state = .complete) ∧
      ((index.map IndexRecord.stored).filter (!·.complete)).length =
        index.countP (·.state = .incomplete) := by
  have hview : ∀ r : IndexRecord, r.stored.complete = decide (r.state = .complete) := by
    intro r
    show decide (r.state.view = .complete) = _
    cases r.state <;> rfl
  constructor
  · rw [← List.countP_eq_length_filter, List.countP_map]
    exact List.countP_congr fun r _ => by simp [hview]
  · rw [← List.countP_eq_length_filter, List.countP_map]
    refine List.countP_congr fun r _ => ?_
    simp only [Function.comp_apply, hview]
    cases r.state <;> simp

/-- The reports of a bundle whose files have both. -/
theorem openRun_reports {run : RunState} {maxShotBytes now : ℕ}
    (hagree : FilesAgree maxShotBytes run.index run.samples) (hsound : run.Sound now)
    {runFile senderFile : ReportFile} {f : Files}
    (hf : Left run (some runFile) (some senderFile) f) {manifest sender : Report F}
    (hrun : py.loads runFile.content = .ok (.object manifest))
    (hsender : py.loads senderFile.content = .ok (.object sender)) {b : RunBundle F}
    (hopen : RunBundle.openRun py f = .ok b) :
    b.manifest = some manifest ∧ b.senderReport = some sender := by
  obtain ⟨-, hreports⟩ := openRun_ok py hagree hsound hf hopen
  obtain ⟨hrunJson, hsenderJson⟩ : f.runJson = some runFile ∧ f.senderJson = some senderFile := by
    obtain ⟨index, -, rfl⟩ := Option.map_eq_some_iff.mp hf.files
    exact ⟨rfl, rfl⟩
  obtain ⟨⟨report, hmanifest, hreport⟩, report', hsenderReport, hreport'⟩ :=
    loadReports_ok py hrunJson hsenderJson hreports
  rw [hrun] at hreport
  rw [hsender] at hreport'
  cases hreport
  cases hreport'
  exact ⟨hmanifest, hsenderReport⟩

omit [DecidableEq C] in
/-- What is accepted of the recording of a run, when the sender counts the shots of the run. -/
theorem whole_of_accepted {messages : List RunState.Message}
    (hd : Delivers R source messages items) (o : Options) (interrupted : Bool)
    (horder : messages.Pairwise fun m m' => m.receiveNs ≤ m'.receiveNs)
    {m : Measured F} {runFile senderFile : ReportFile} {sender : Report F}
    (hrun : py.loads runFile.content = .ok (.object
      (writeManifest (record o messages interrupted).run (record o messages interrupted).clean m)))
    (hsender : py.loads senderFile.content = .ok (.object sender))
    (hsent : nested (.object sender) (.int (-1)) ["capture", "shots_transmitted"] =
      .int (R.shots.length : ℤ))
    {f : Files}
    (hf : Left (record o messages interrupted).run (some runFile) (some senderFile) f)
    {b : RunBundle F} (hopen : RunBundle.openRun py f = .ok b)
    (haccepted : Accepted py conv ref b (record o messages interrupted).run.samples) :
    b.shots.map (·.shotId) = R.shots.map SentShot.shotId ∧
      ∀ (k : ℕ) (s : SentShot), R.shots[k]? = some s → ∃ shot, b.shots[k]? = some shot ∧
        readSamples (record o messages interrupted).run.samples shot = .ok s.samples ∧
        Comparison.Exact ref shot s.samples := by
  obtain ⟨hfiles, -⟩ := Written.record_files o messages interrupted
  obtain ⟨now, hsound⟩ := record_sound o interrupted horder
  obtain ⟨hshots, hreports⟩ := openRun_ok py hfiles.agree hsound hf hopen
  obtain ⟨hmanifest, hsenderReport⟩ :=
    openRun_reports py hfiles.agree hsound hf hrun hsender hopen
  -- what the reports say
  have hclean : (record o messages interrupted).clean = true := by
    have hcomplete := haccepted.complete
    unfold RunBundle.runComplete at hcomplete
    rw [hmanifest] at hcomplete
    exact Option.some.inj hcomplete
  have hcounted : b.completeShots.length = R.shots.length := by
    have hsenderShots : b.senderShots = .int (R.shots.length : ℤ) := by
      unfold RunBundle.senderShots RunBundle.sender
      rw [hsenderReport]
      exact hsent
    have hcount := haccepted.counted
    rw [hsenderShots, conv.int_int] at hcount
    exact (Int.ofNat_inj.mp (Except.ok.inj hcount)).symm
  -- what the index says
  obtain ⟨hcompletes, hincompletes⟩ :=
    counts_stored (record o messages interrupted).run.index
  rw [← hshots] at hcompletes hincompletes
  obtain ⟨hids, hstates⟩ := files_of_counted hd o interrupted hclean
    (by rw [hfiles.incomplete, ← hincompletes]; exact congrArg List.length haccepted.whole)
    (by rw [hfiles.complete, ← hcompletes]; exact hcounted)
  obtain ⟨b', hopen', hids', hread, -⟩ := opens_of_sent py hfiles.agree hsound hids hstates
    (fun r hr s hs hid => samples_of_sent hd o interrupted hr hs hid) hf hreports
  rw [hopen] at hopen'
  cases hopen'
  refine ⟨hids', fun k s hs => ?_⟩
  obtain ⟨shot, hshot, hsamples⟩ := hread k s hs
  have hmem : shot ∈ b.completeShots := by
    refine List.mem_filter.mpr ⟨List.mem_of_getElem? hshot, ?_⟩
    by_contra hnot
    unfold readSamples at hsamples
    rw [Bool.not_eq_true] at hnot
    rw [hnot] at hsamples
    cases hsamples
  obtain ⟨payload, hpayload, hexact⟩ := haccepted.exact shot hmem
  rw [hsamples] at hpayload
  cases hpayload
  exact ⟨shot, hshot, hsamples, hexact⟩

/-- The acceptance of the recording of a run, with the manifest of the recorder and the count of the
sender: when it does not fail, the run that was sent was recorded whole, shot by shot as it was sent
and word by word as the reference says, whatever the network did. -/
theorem accepted_run_whole {messages : List RunState.Message}
    (hd : Delivers R source messages items) (o : Options) (interrupted : Bool)
    (horder : messages.Pairwise fun m m' => m.receiveNs ≤ m'.receiveNs)
    {m : Measured F} {runFile senderFile : ReportFile} {sender : Report F}
    (hrun : py.loads runFile.content = .ok (.object
      (writeManifest (record o messages interrupted).run (record o messages interrupted).clean m)))
    (hsender : py.loads senderFile.content = .ok (.object sender))
    (hsent : nested (.object sender) (.int (-1)) ["capture", "shots_transmitted"] =
      .int (R.shots.length : ℤ))
    {f : Files}
    (hf : Left (record o messages interrupted).run (some runFile) (some senderFile) f)
    {minimumDuration : F} {faults : Option Bytes} {summary : Summary F}
    (h : evaluateRun py fl conv ref f (record o messages interrupted).run.samples minimumDuration
      faults = .ok summary)
    (hr : summary.result ≠ .fail) :
    ∃ b, RunBundle.openRun py f = .ok b ∧ b.shots.map (·.shotId) = R.shots.map SentShot.shotId ∧
      ∀ (k : ℕ) (s : SentShot), R.shots[k]? = some s → ∃ shot, b.shots[k]? = some shot ∧
        readSamples (record o messages interrupted).run.samples shot = .ok s.samples ∧
        Comparison.Exact ref shot s.samples := by
  obtain ⟨b, hopen, haccepted⟩ := evaluateRun_accepted py fl conv ref h hr
  exact ⟨b, hopen, whole_of_accepted py conv ref hd o interrupted horder hrun hsender hsent hf hopen
    haccepted⟩

/-! Two shots and their reports. -/

def twoManifest : Report ℤ :=
  writeManifest (recordTwo twoShotRun.sent).run (recordTwo twoShotRun.sent).clean
    ⟨0, 300, 300, 1, 1, 1, 1, 1, 4096, 4096⟩

def twoSender : Report ℤ :=
  [("format", .str "qcrate-sender-report-v1"), ("complete", .bool true),
    ("run_id", hexField 16 1), ("stream_id", hexField 8 1),
    ("timing", .object [("capture_duration_seconds", .float 300)]),
    ("capture", .object [("shots_transmitted", .int 2)])]

/-- A Python that reads two reports, with whole numbers for floating-point ones. -/
def pairPython (manifest sender : Report ℤ) : Python ℤ where
  loads content := .ok (.object (if content = [1] then manifest else sender))
  integer
    | .str text =>
      match Host.parseInt0 text.toList with
      | some n => .ok n
      | none => .error "invalid literal for int()"
    | _ => .error "invalid literal for int()"
  nonzero n := n ≠ 0

def twoPython : Python ℤ := pairPython twoManifest twoSender

def wholeConversions : Conversions ℤ where
  float
    | .int n => .ok n
    | .float x => .ok x
    | _ => .error "could not convert to float"
  int
    | .int n => .ok n
    | .float x => .ok x
    | _ => .error "invalid literal for int()"
  int_int _ := rfl
  atLeast a b := b ≤ a
  round6 x := x
  fixed3 x := toString x ++ ".000"

/-- A reference of one word, whatever the configuration. -/
def steadyReferences (word : ℕ) : References ℕ where
  config shot := .ok (some shot.configId)
  words _ count := .ok (List.replicate count word)
  length_words := by
    intro config count expected h
    rw [← Except.ok.inj h]
    exact List.length_replicate

def twoFiles : Option Files :=
  filesOf (recordTwo twoShotRun.sent).run (some ⟨(1, 0, 0), [1]⟩) (some ⟨(2, 0, 0), [2]⟩)

theorem summary_of_result {outcome : Except EvaluationError (Summary F)} {result : AcceptanceResult}
    (h : outcome.toOption.map (·.result) = some result) :
    ∃ summary, outcome = .ok summary ∧ summary.result = result := by
  cases outcome with
  | error e => cases h
  | ok summary => exact ⟨summary, rfl, Option.some.inj h⟩

theorem accepted_run_whole_twoShots : ∃ f b, twoFiles = some f ∧
    RunBundle.openRun twoPython f = .ok b ∧
    b.shots.map (·.shotId) = twoShotRun.shots.map SentShot.shotId := by
  have hresult : (twoFiles.bind fun f => (evaluateRun twoPython wholeFloats wholeConversions
      (steadyReferences 0x04030201) f (recordTwo twoShotRun.sent).run.samples 300 none).toOption.map
        (·.result)) = some .pending := by
    decide +kernel
  obtain ⟨f, hf, hsummary⟩ := Option.bind_eq_some_iff.mp hresult
  obtain ⟨summary, hok, hpending⟩ := summary_of_result hsummary
  have horder : (carryItems twoShotRun (.inet 1 5000) (fun _ => 1) twoShotRun.sent).Pairwise
      fun m m' => m.receiveNs ≤ m'.receiveNs := by
    refine List.pairwise_map.mpr (List.pairwise_of_forall fun _ _ => ?_)
    exact UInt64.le_refl 1
  obtain ⟨b, hopen, hids, -⟩ := accepted_run_whole twoPython wholeFloats wholeConversions
    (steadyReferences 0x04030201) (delivers_carryItems _ _ sends_sent) { maxShotBytes := 4 } false
    horder rfl rfl rfl ⟨hf, by decide +kernel⟩ hok
    (by rw [hpending]; exact AcceptanceResult.noConfusion)
  exact ⟨f, b, hf, hopen, hids⟩

end QCrate.Analyzer
