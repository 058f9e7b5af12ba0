import QCrate.Analyzer.Index

/-!
# The analyzer: a run read as a whole

`RunBundle` of `qcrate_run.py`, and the health report that it shares with `RunIndex`. The
arithmetic of Python's `float` is a parameter.
-/

namespace QCrate.Analyzer

open QCrate.Lib QCrate.DataPlane

/-- What the code uses of floating-point numbers. -/
structure Floats (F : Type) where
  ofInt : ℤ → F
  div : F → F → F
  mul : F → F → F
  /-- `0 < x` -/
  positive : F → Bool
  /-- `0 ≤ x` -/
  nonnegative : F → Bool
  /-- `int(x)` -/
  truncate : F → ℤ

variable {F : Type} (py : Python F) (fl : Floats F)

/-! ## Numbers of a report -/

/-- A value that is an instance of `int` or `float`. Python counts `bool` among them. -/
def Json.number : Json F → Option F
  | .bool b => some (fl.ofInt (if b then 1 else 0))
  | .int n => some (fl.ofInt n)
  | .float x => some x
  | _ => none

/-- `_mapping_number`, of the mapping if there is one. -/
def mappingNumber (mapping : Option (Json F)) (key : String) (default : F) : F :=
  match mapping with
  | some (.object fields) => ((fields.lookup key).bind (·.number fl)).getD default
  | _ => default

/-- `_manifest_integer` -/
def manifestInteger (manifest : Option (Report F)) (key : String) : ℤ :=
  match manifest.bind (·.lookup key) with
  | some (.bool b) => if b then 1 else 0
  | some (.int n) => n
  | some (.float x) => fl.truncate x
  | _ => 0

/-- `value or fallback` -/
def orElse (value fallback : ℤ) : ℤ := if value ≠ 0 then value else fallback

def orElseFloat (value fallback : F) : F := if py.nonzero value then value else fallback

/-! ## Health -/

structure RunHealth (F : Type) where
  state : String
  durationSeconds : F
  durationSource : String
  completeShots : ℕ
  incompleteShots : ℕ
  skippedShotIds : ℕ
  shotRateHz : F
  samplePayloadMbps : F
  udpPayloadMbps : Option F
  datagrams : ℤ
  duplicatePackets : ℤ
  reorderedPackets : ℤ
  missingPackets : ℕ
  malformedPackets : ℤ
  conflictingPackets : ℤ
  foreignPackets : ℤ
  latePackets : ℤ
  preselectionOverflow : ℤ
  kernelReceiveDrops : ℤ
  continuityErrors : ℤ
  tokenQueueHighWater : Option ℤ
  dmaReadyHighWater : Option ℤ
  dmaStallCycles : Option ℤ
  missedTriggers : Option ℤ
  starvationEvents : Option ℤ
  skippedTriggers : Option ℤ
  dmaErrorEvents : Option ℤ
  recorderCpuPercent : Option F
  senderCpuPercent : Option F
  senderComplete : Option Bool

namespace RunHealth

def recordIntegrityOk (h : RunHealth F) : Bool :=
  !(h.incompleteShots ≠ 0 || h.skippedShotIds ≠ 0 || h.missingPackets ≠ 0 ||
    h.malformedPackets ≠ 0 || h.conflictingPackets ≠ 0 || h.kernelReceiveDrops ≠ 0 ||
    h.continuityErrors ≠ 0)

def acquisitionIntegrityOk (h : RunHealth F) : Bool :=
  !(h.skippedTriggers.getD 0 ≠ 0 || h.dmaErrorEvents.getD 0 ≠ 0 || h.missedTriggers.getD 0 ≠ 0)

def integrityOk (h : RunHealth F) : Bool :=
  h.recordIntegrityOk && h.acquisitionIntegrityOk && h.senderComplete ≠ some false

end RunHealth

/-- What `RunBundle` and `RunIndex` have counted of a run. -/
structure Counts where
  completeShots : ℕ
  incompleteShots : ℕ
  skippedShotIds : ℕ
  sampleBytes : ℕ
  datagrams : ℕ
  duplicatePackets : ℕ
  reorderedPackets : ℕ
  missingPackets : ℕ
  deriving DecidableEq, Repr

/-- A counter of the `health` object of the sender. -/
def senderNumber (senderHealth : Option (Json F)) (key : String) : Option ℤ :=
  match senderHealth with
  | some (.object _) => some (fl.truncate (mappingNumber fl senderHealth key (fl.ofInt 0)))
  | _ => none

/-- A value that is not negative. -/
def unlessNegative (x : F) : Option F := if fl.nonnegative x then some x else none

/-- The field of a report that is there and not empty. -/
def reportField (report : Option (Report F)) (key : String) : Option (Json F) :=
  match report with
  | some fields => if fields.isEmpty then none else fields.lookup key
  | none => none

/-- The report of `_build_health` before its state. -/
def healthReport (manifest senderReport : Option (Report F)) (measuredDuration : F)
    (counts : Counts) : RunHealth F :=
  let timing := reportField manifest "timing"
  let manifestDuration := mappingNumber fl timing "duration_seconds" (fl.ofInt 0)
  let duration := orElseFloat py manifestDuration measuredDuration
  let performance := reportField manifest "performance"
  let sampleMbps := mappingNumber fl performance "sample_payload_mbps" (fl.ofInt 0)
  let shotRate := mappingNumber fl performance "shot_rate_hz" (fl.ofInt 0)
  let senderHealth := reportField senderReport "health"
  let senderTiming := reportField senderReport "timing"
  let negative := fl.ofInt (-1)
  { state := "recording"
    durationSeconds := duration
    durationSource := if py.nonzero manifestDuration then "recorder" else "QIDX receive times"
    completeShots := counts.completeShots
    incompleteShots := counts.incompleteShots
    skippedShotIds := counts.skippedShotIds
    shotRateHz :=
      if !py.nonzero shotRate && fl.positive duration then
        fl.div (fl.ofInt counts.completeShots) duration
      else shotRate
    samplePayloadMbps :=
      if !py.nonzero sampleMbps && fl.positive duration then
        fl.div (fl.div (fl.mul (fl.ofInt counts.sampleBytes) (fl.ofInt 8)) duration)
          (fl.ofInt 1000000)
      else sampleMbps
    udpPayloadMbps := unlessNegative fl (mappingNumber fl performance "udp_payload_mbps" negative)
    datagrams := orElse (manifestInteger fl manifest "datagrams_journaled") counts.datagrams
    duplicatePackets :=
      orElse (manifestInteger fl manifest "duplicate_packets") counts.duplicatePackets
    reorderedPackets :=
      orElse (manifestInteger fl manifest "reordered_packets") counts.reorderedPackets
    missingPackets := counts.missingPackets
    malformedPackets := manifestInteger fl manifest "malformed_packets"
    conflictingPackets := manifestInteger fl manifest "conflicting_packets"
    foreignPackets := manifestInteger fl manifest "foreign_packets"
    latePackets := manifestInteger fl manifest "late_packets"
    preselectionOverflow := manifestInteger fl manifest "preselection_overflow"
    kernelReceiveDrops := manifestInteger fl manifest "kernel_receive_drops"
    continuityErrors :=
      if (reportField manifest "run_continuity_error").any (·.truth py) then 1 else 0
    tokenQueueHighWater := senderNumber fl senderHealth "token_queue_high_water"
    dmaReadyHighWater := senderNumber fl senderHealth "dma_ready_high_water"
    dmaStallCycles := senderNumber fl senderHealth "dma_stall_cycles"
    missedTriggers := senderNumber fl senderHealth "missed_triggers"
    starvationEvents := senderNumber fl senderHealth "starvation_events"
    skippedTriggers := senderNumber fl senderHealth "skipped_triggers"
    dmaErrorEvents := senderNumber fl senderHealth "dma_error_events"
    recorderCpuPercent :=
      unlessNegative fl (mappingNumber fl timing "process_cpu_percent" negative)
    senderCpuPercent :=
      unlessNegative fl (mappingNumber fl senderTiming "process_cpu_percent" negative)
    senderComplete :=
      match senderReport with
      | none => none
      | some [] => none
      | some fields => some ((fields.lookup "complete").any (·.truth py)) }

/-- `_build_health` -/
def buildHealth (manifest senderReport : Option (Report F)) (measuredDuration : F)
    (counts : Counts) : RunHealth F :=
  let health := healthReport py fl manifest senderReport measuredDuration counts
  let runComplete := manifest.map fun fields => (fieldOr fields "complete" (.bool false)).truth py
  { health with
    state :=
      if !health.integrityOk then "failed"
      else
        match runComplete with
        | none => "recording"
        | some complete =>
          if complete && health.senderComplete ≠ some false then "accepted" else "failed" }

/-- The receive times in seconds, where they are ordered and known. -/
def measuredDuration (firstReceive lastReceive : ℕ) : F :=
  if firstReceive ≤ lastReceive ∧ firstReceive ≠ 0 then
    fl.div (fl.ofInt ((lastReceive : ℤ) - firstReceive)) (fl.ofInt 1000000000)
  else fl.ofInt 0

/-! ## The bundle -/

structure RunBundle (F : Type) where
  runId : ℕ
  streamId : ℕ
  shots : List ShotRecord
  manifest : Option (Report F)
  senderReport : Option (Report F)

/-- The loop of `open` over the records. -/
def checkShots (sampleFileBytes : ℕ) : Option ℕ → ℕ → List ShotRecord → Except RunError Unit
  | _, _, [] => .ok ()
  | previous, last, shot :: shots =>
    if previous.any (shot.shotId ≤ ·) then .error .shotIdOrder
    else if !shot.complete then checkShots sampleFileBytes (some shot.shotId) last shots
    else if sampleFileBytes < shot.sampleOffset + shot.sampleBytes then
      .error (.exceedsSamples shot.shotId)
    else if shot.sampleOffset < last then .error (.overlapsSamples shot.shotId)
    else
      checkShots sampleFileBytes (some shot.shotId) (shot.sampleOffset + shot.sampleBytes) shots

/-- `_load_json_report` of a file that may be missing. -/
def loadIfExists (name expectedFormat : String) (runId streamId : ℕ) (file : Option ReportFile) :
    Except RunError (Option (Report F)) :=
  match file with
  | none => .ok none
  | some file => (loadJsonReport py name expectedFormat runId streamId file.content).map some

namespace RunBundle

/-- `RunBundle.open`, of a run that is not in progress. -/
def openRun (f : Files) : Except RunError (RunBundle F) :=
  if f.index.length < qidxHeaderBytes then .error .headerTruncated
  else if readBE 4 f.index 0 ≠ qidxMagic ∨ readBE 2 f.index 4 ≠ qidxVersion then
    .error .magicOrVersion
  else if readBE 2 f.index 6 ≠ qidxHeaderBytes ∨ readBE 2 f.index 8 ≠ qidxRecordBytes then
    .error .headerOrRecordSize
  else if readBE 6 f.index 10 ≠ 0 ∨ readBE 4 f.index 28 ≠ 0 then .error .headerReserved
  else if f.trailingBytes ≠ 0 then .error .truncatedRecord
  else
    match f.decodeRange 0 f.available with
    | .error e => .error e
    | .ok shots =>
      match checkShots f.sampleFileBytes none 0 shots with
      | .error e => .error e
      | .ok _ =>
        match loadIfExists py "run.json" "qcrate-run-v1" f.runId f.streamId f.runJson with
        | .error e => .error e
        | .ok manifest =>
          match loadIfExists py "sender.json" "qcrate-sender-report-v1" f.runId f.streamId
              f.senderJson with
          | .error e => .error e
          | .ok senderReport => .ok ⟨f.runId, f.streamId, shots, manifest, senderReport⟩

def completeShots (b : RunBundle F) : List ShotRecord := b.shots.filter (·.complete)

def incompleteShots (b : RunBundle F) : List ShotRecord := b.shots.filter (!·.complete)

/-- The smallest first receive time. -/
def firstReceive (b : RunBundle F) : ℕ := (b.shots.map (·.firstReceiveNs)).min?.getD 0

/-- The largest last receive time. -/
def lastReceive (b : RunBundle F) : ℕ := (b.shots.map (·.lastReceiveNs)).max?.getD 0

/-- The sums of `health`. -/
def counts (b : RunBundle F) : Counts :=
  { completeShots := b.completeShots.length
    incompleteShots := b.incompleteShots.length
    skippedShotIds :=
      ((b.shots.zip b.shots.tail).map fun pair => pair.2.shotId - pair.1.shotId - 1).sum
    sampleBytes := (b.completeShots.map (·.sampleBytes)).sum
    datagrams := (b.shots.map (·.datagrams)).sum
    duplicatePackets := (b.shots.map (·.duplicatePackets)).sum
    reorderedPackets := (b.shots.map (·.reorderedPackets)).sum
    missingPackets := (b.shots.map (·.missingPackets)).sum }

/-- `RunBundle.health` -/
def health (b : RunBundle F) : RunHealth F :=
  buildHealth py fl b.manifest b.senderReport (measuredDuration fl b.firstReceive b.lastReceive)
    b.counts

end RunBundle

namespace RunIndex

def counts (r : RunIndex F) : Counts :=
  { completeShots := r.completeCount
    incompleteShots := r.incompleteCount
    skippedShotIds := r.skippedShotIds
    sampleBytes := r.sampleBytes
    datagrams := r.datagrams
    duplicatePackets := r.duplicatePackets
    reorderedPackets := r.reorderedPackets
    missingPackets := r.missingPackets }

/-- `RunIndex.health` -/
def health (r : RunIndex F) : RunHealth F :=
  buildHealth py fl r.manifest r.senderReport
    (measuredDuration fl r.firstReceiveNs r.lastReceiveNs) r.counts

/-- `records(start, stop)`, the range of a catalog on the files `f`. -/
def records (r : RunIndex F) (f : Files) (start stop : ℕ) :
    Option (Except RunError (List ShotRecord)) :=
  if stop < start ∨ r.recordCount < stop then none else some (f.decodeRange start stop)

end RunIndex

end QCrate.Analyzer
