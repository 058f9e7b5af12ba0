import QCrate.DataPlane.Protocol

/-!
# The analyzer: the catalog of a run

`RunIndex` of `qcrate_run.py`, which scans the records appended to `shots.qidx` since it last
looked. A method that raises has changed the catalog up to the statement that raised, so each
returns the catalog beside its result.

The operating system is the contents of the four files at the call. `json.loads` and Python's
`int` are parameters.
-/

namespace QCrate.Analyzer

open QCrate.Lib QCrate.DataPlane

def qidxMagic : ℕ := 0x51494458
def qidxVersion : ℕ := 1
def qidxHeaderBytes : ℕ := 32
def qidxRecordBytes : ℕ := 128

/-- The records of one read. -/
def scanBatch : ℕ := 4096

/-! ## Errors -/

/-- What `qcrate_run.py` raises. -/
inductive RunError where
  | recordLength
  | recordReserved
  | shotState (state : ℕ)
  | issueBits (issues : ℕ)
  | completeFields
  | incompleteSamples
  | receiveTimes
  | shotIdOrder
  | exceedsSamples (shotId : ℕ)
  | overlapsSamples (shotId : ℕ)
  | headerTruncated
  | shrank
  | magicOrVersion
  | headerOrRecordSize
  | headerReserved
  | identityChanged
  | reportJson (message : String)
  | reportFormat (name : String)
  | reportRunId (name : String)
  | reportStreamId (name : String)
  | truncatedRecord
  deriving DecidableEq, Repr

/-! ## Records -/

inductive ShotState where
  | complete | incomplete
  deriving DecidableEq, Repr

structure ShotRecord where
  shotId : ℕ
  state : ShotState
  issues : ℕ
  firstPacketSequence : ℕ
  lastPacketSequence : ℕ
  firstSampleTimestamp : ℕ
  firstReceiveNs : ℕ
  lastReceiveNs : ℕ
  sampleOffset : ℕ
  sampleBytes : ℕ
  frameCount : ℕ
  frameSamples : ℕ
  dataPackets : ℕ
  datagrams : ℕ
  duplicatePackets : ℕ
  reorderedPackets : ℕ
  missingPackets : ℕ
  payloadCrc32 : ℕ
  sourceFlags : ℕ
  payloadFormat : ℕ
  sampleBytesPerWord : ℕ
  configId : ℕ
  deriving DecidableEq, Repr

namespace ShotRecord

def complete (r : ShotRecord) : Bool := r.state = .complete

/-- The state that a code stands for. -/
def stateOf : ℕ → Option ShotState
  | 1 => some .complete
  | 2 => some .incomplete
  | _ => none

/-- The tests that `decode` makes of the fields together. -/
def check (r : ShotRecord) : Except RunError ShotRecord :=
  if r.complete && (r.issues ≠ 0 || r.sampleOffset = uint64Max || r.sampleBytes = 0) then
    .error .completeFields
  else if !r.complete && (r.sampleOffset ≠ uint64Max || r.sampleBytes ≠ 0) then
    .error .incompleteSamples
  else if r.lastReceiveNs < r.firstReceiveNs then .error .receiveTimes
  else .ok r

/-- `ShotRecord.decode` -/
def decode (data : Bytes) : Except RunError ShotRecord :=
  if data.length ≠ qidxRecordBytes then .error .recordLength
  else if readBE 8 data 120 ≠ 0 then .error .recordReserved
  else
    match stateOf (readBE 4 data 8) with
    | none => .error (.shotState (readBE 4 data 8))
    | some state =>
      if 255 < readBE 4 data 12 then .error (.issueBits (readBE 4 data 12))
      else
        check
          { shotId := readBE 8 data 0
            state := state
            issues := readBE 4 data 12
            firstPacketSequence := readBE 8 data 16
            lastPacketSequence := readBE 8 data 24
            firstSampleTimestamp := readBE 8 data 32
            firstReceiveNs := readBE 8 data 40
            lastReceiveNs := readBE 8 data 48
            sampleOffset := readBE 8 data 56
            sampleBytes := readBE 8 data 64
            frameCount := readBE 4 data 72
            frameSamples := readBE 4 data 76
            dataPackets := readBE 4 data 80
            datagrams := readBE 4 data 84
            duplicatePackets := readBE 4 data 88
            reorderedPackets := readBE 4 data 92
            missingPackets := readBE 4 data 96
            payloadCrc32 := readBE 4 data 100
            sourceFlags := readBE 4 data 104
            payloadFormat := readBE 2 data 108
            sampleBytesPerWord := readBE 2 data 110
            configId := readBE 8 data 112 }

end ShotRecord

/-! ## Reports -/

/-- A value of `json.loads`, with floating-point numbers of type `F`. -/
inductive Json (F : Type) where
  | null
  | bool (b : Bool)
  | int (n : ℤ)
  | float (x : F)
  | str (s : String)
  | array (items : List (Json F))
  | object (fields : List (String × Json F))

/-- What the code uses of Python: `json.loads` of a file, `int(str(value), 0)`, and `bool` of a
floating-point number. -/
structure Python (F : Type) where
  loads : Bytes → Except String (Json F)
  integer : Json F → Except String ℤ
  nonzero : F → Bool

/-- The fields of a report. -/
abbrev Report (F : Type) := List (String × Json F)

variable {F : Type} (py : Python F)

/-- `bool` of a value. -/
def Json.truth : Json F → Bool
  | .null => false
  | .bool b => b
  | .int n => n ≠ 0
  | .float x => py.nonzero x
  | .str s => s ≠ ""
  | .array items => !items.isEmpty
  | .object fields => !fields.isEmpty

/-- A report on disk: inode, modification time and size, and its contents. -/
structure ReportFile where
  signature : ℕ × ℕ × ℕ
  content : Bytes
  deriving DecidableEq, Repr

/-- The field `name`, with a default. -/
def fieldOr (report : Report F) (name : String) (default : Json F) : Json F :=
  (report.lookup name).getD default

/-- `parsed.get("format") != expected_format`, of a string. -/
def hasFormat (report : Report F) (expectedFormat : String) : Bool :=
  match report.lookup "format" with
  | some (.str format) => format = expectedFormat
  | _ => false

/-- `_load_json_report` of a file that exists. -/
def loadJsonReport (name expectedFormat : String) (runId streamId : ℕ) (content : Bytes) :
    Except RunError (Report F) :=
  match py.loads content with
  | .error message => .error (.reportJson message)
  | .ok (.object report) =>
    if !hasFormat report expectedFormat then .error (.reportFormat name)
    else
      match py.integer (fieldOr report "run_id" (.str "0")) with
      | .error message => .error (.reportJson message)
      | .ok value =>
        if value ≠ runId then .error (.reportRunId name)
        else
          match py.integer (fieldOr report "stream_id" (.str "0")) with
          | .error message => .error (.reportJson message)
          | .ok value =>
            if value ≠ streamId then .error (.reportStreamId name) else .ok report
  | .ok _ => .error (.reportFormat name)

/-! ## Files -/

/-- The files of a run at one moment. -/
structure Files where
  index : Bytes
  sampleFileBytes : ℕ
  runJson : Option ReportFile
  senderJson : Option ReportFile
  deriving DecidableEq, Repr

namespace Files

def available (f : Files) : ℕ := (f.index.length - qidxHeaderBytes) / qidxRecordBytes

def trailingBytes (f : Files) : ℕ := (f.index.length - qidxHeaderBytes) % qidxRecordBytes

/-- The bytes of the record `ordinal`. -/
def recordBytes (f : Files) (ordinal : ℕ) : Bytes :=
  (f.index.drop (qidxHeaderBytes + ordinal * qidxRecordBytes)).take qidxRecordBytes

/-- The records from `start` up to `stop`. -/
def decodeRange (f : Files) (start stop : ℕ) : Except RunError (List ShotRecord) :=
  (List.range' start (stop - start)).mapM fun ordinal => ShotRecord.decode (f.recordBytes ordinal)

def runId (f : Files) : ℕ := readBE 8 f.index 16

def streamId (f : Files) : ℕ := readBE 4 f.index 24

end Files

/-! ## The catalog -/

/-- `RunIndex`. A report without a signature has not been seen. -/
structure RunIndex (F : Type) where
  cacheLimit : ℕ := 1024
  cache : List (ℕ × ShotRecord) := []
  runId : ℕ := 0
  streamId : ℕ := 0
  recordCount : ℕ := 0
  scannedCount : ℕ := 0
  completeCount : ℕ := 0
  incompleteCount : ℕ := 0
  manifest : Option (Report F) := none
  senderReport : Option (Report F) := none
  runSignature : Option (ℕ × ℕ × ℕ) := none
  senderSignature : Option (ℕ × ℕ × ℕ) := none
  previousShotId : Option ℕ := none
  previousSampleEnd : ℕ := 0
  firstReceiveNs : ℕ := 0
  lastReceiveNs : ℕ := 0
  skippedShotIds : ℕ := 0
  sampleBytes : ℕ := 0
  datagrams : ℕ := 0
  duplicatePackets : ℕ := 0
  reorderedPackets : ℕ := 0
  missingPackets : ℕ := 0

namespace RunIndex

/-- `run_complete` -/
def runComplete (r : RunIndex F) : Option Bool :=
  r.manifest.map fun manifest => (fieldOr manifest "complete" (.bool false)).truth py

/-- `_cache_record` -/
def cacheRecord (r : RunIndex F) (ordinal : ℕ) (shot : ShotRecord) : RunIndex F :=
  let cache := r.cache.filter (·.1 ≠ ordinal) ++ [(ordinal, shot)]
  { r with cache := cache.drop (cache.length - r.cacheLimit) }

/-- The records that a read has decoded enter the cache. -/
def cacheAll (r : RunIndex F) (start : ℕ) (shots : List ShotRecord) : RunIndex F :=
  (shots.zipIdx start).foldl (fun r item => r.cacheRecord item.2 item.1) r

/-- `_validate_header` -/
def validateHeader (r : RunIndex F) (f : Files) : RunIndex F × Option RunError :=
  if readBE 4 f.index 0 ≠ qidxMagic ∨ readBE 2 f.index 4 ≠ qidxVersion then
    (r, some .magicOrVersion)
  else if readBE 2 f.index 6 ≠ qidxHeaderBytes ∨ readBE 2 f.index 8 ≠ qidxRecordBytes then
    (r, some .headerOrRecordSize)
  else if readBE 6 f.index 10 ≠ 0 ∨ readBE 4 f.index 28 ≠ 0 then (r, some .headerReserved)
  else if r.runId ≠ 0 ∧ (f.runId ≠ r.runId ∨ f.streamId ≠ r.streamId) then
    (r, some .identityChanged)
  else ({ r with runId := f.runId, streamId := f.streamId }, none)

/-- The shot IDs between the previous one and the record's. -/
def skippedBefore : Option ℕ → ShotRecord → ℕ
  | none, _ => 0
  | some previous, shot => shot.shotId - previous - 1

/-- `_accumulate` after its test of the shot ID: the totals of every record. -/
def countRecord (r : RunIndex F) (shot : ShotRecord) : RunIndex F :=
  { r with
    skippedShotIds := r.skippedShotIds + skippedBefore r.previousShotId shot
    previousShotId := some shot.shotId
    firstReceiveNs := if r.firstReceiveNs = 0 then shot.firstReceiveNs else r.firstReceiveNs
    lastReceiveNs := max r.lastReceiveNs shot.lastReceiveNs
    datagrams := r.datagrams + shot.datagrams
    duplicatePackets := r.duplicatePackets + shot.duplicatePackets
    reorderedPackets := r.reorderedPackets + shot.reorderedPackets
    missingPackets := r.missingPackets + shot.missingPackets }

/-- `_accumulate` after that: the samples. -/
def countSamples (r : RunIndex F) (shot : ShotRecord) (sampleFileBytes : ℕ) :
    RunIndex F × Option RunError :=
  if shot.complete then
    if sampleFileBytes < shot.sampleOffset + shot.sampleBytes then
      (r, some (.exceedsSamples shot.shotId))
    else if shot.sampleOffset < r.previousSampleEnd then (r, some (.overlapsSamples shot.shotId))
    else
      ({ r with
        previousSampleEnd := shot.sampleOffset + shot.sampleBytes
        sampleBytes := r.sampleBytes + shot.sampleBytes
        completeCount := r.completeCount + 1 }, none)
  else ({ r with incompleteCount := r.incompleteCount + 1 }, none)

/-- The shot ID does not follow the previous one. -/
def repeatsShotId (r : RunIndex F) (shot : ShotRecord) : Bool :=
  r.previousShotId.any (shot.shotId ≤ ·)

/-- `_accumulate` -/
def accumulate (r : RunIndex F) (shot : ShotRecord) (sampleFileBytes : ℕ) :
    RunIndex F × Option RunError :=
  if r.repeatsShotId shot then (r, some .shotIdOrder)
  else (r.countRecord shot).countSamples shot sampleFileBytes

/-- The loop over the records of one read. -/
def accumulateAll (sampleFileBytes : ℕ) : RunIndex F → List ShotRecord →
    RunIndex F × Option RunError
  | r, [] => (r, none)
  | r, shot :: shots =>
    match r.accumulate shot sampleFileBytes with
    | (r, some e) => (r, some e)
    | (r, none) => accumulateAll sampleFileBytes r shots

/-- The loop over the unscanned records; every turn takes one at least. -/
def scan (f : Files) : ℕ → RunIndex F → RunIndex F × Option RunError
  | 0, r => (r, none)
  | fuel + 1, r =>
    if r.scannedCount < f.available then
      let stop := min f.available (r.scannedCount + scanBatch)
      match f.decodeRange r.scannedCount stop with
      | .error e => (r, some e)
      | .ok shots =>
        match (r.cacheAll r.scannedCount shots).accumulateAll f.sampleFileBytes shots with
        | (r, some e) => (r, some e)
        | (r, none) => scan f fuel { r with scannedCount := stop }
    else (r, none)

/-- The load of `_refresh_report`. A report that is gone loads as none. -/
def loadReport (r : RunIndex F) (name expectedFormat : String) (file : Option ReportFile) :
    Except RunError (Option (Report F)) :=
  match file with
  | none => .ok none
  | some file =>
    (loadJsonReport py name expectedFormat r.runId r.streamId file.content).map some

/-- `_refresh_report` of `run.json` -/
def refreshRun (r : RunIndex F) (f : Files) : RunIndex F × Except RunError Bool :=
  let signature := f.runJson.map (·.signature)
  if r.runSignature = signature then (r, .ok false)
  else
    match r.loadReport py "run.json" "qcrate-run-v1" f.runJson with
    | .error e => (r, .error e)
    | .ok report => ({ r with manifest := report, runSignature := signature }, .ok true)

/-- `_refresh_report` of `sender.json` -/
def refreshSender (r : RunIndex F) (f : Files) : RunIndex F × Except RunError Bool :=
  let signature := f.senderJson.map (·.signature)
  if r.senderSignature = signature then (r, .ok false)
  else
    match r.loadReport py "sender.json" "qcrate-sender-report-v1" f.senderJson with
    | .error e => (r, .error e)
    | .ok report => ({ r with senderReport := report, senderSignature := signature }, .ok true)

/-- The two reports of a run with an identity. -/
def refreshReports (r : RunIndex F) (f : Files) : RunIndex F × Except RunError Bool :=
  if r.runId = 0 then (r, .ok false)
  else
    match r.refreshRun py f with
    | (r, .error e) => (r, .error e)
    | (r, .ok changedRun) =>
      match r.refreshSender py f with
      | (r, .error e) => (r, .error e)
      | (r, .ok changedSender) => (r, .ok (changedRun || changedSender))

/-- `refresh` -/
def refresh (r : RunIndex F) (f : Files) : RunIndex F × Except RunError Bool :=
  if f.index.length < qidxHeaderBytes then
    if r.runId ≠ 0 then (r, .error .shrank) else (r, .ok false)
  else
    match r.validateHeader f with
    | (r, some e) => (r, .error e)
    | (r, none) =>
      if f.available < r.recordCount then (r, .error .shrank)
      else
        let changed := f.available ≠ r.recordCount
        match { r with recordCount := f.available }.scan f f.available with
        | (r, some e) => (r, .error e)
        | (r, none) =>
          match r.refreshReports py f with
          | (r, .error e) => (r, .error e)
          | (r, .ok changedReports) =>
            if r.runComplete py = some true ∧ f.trailingBytes ≠ 0 then (r, .error .truncatedRecord)
            else (r, .ok (changed || changedReports))

end RunIndex

end QCrate.Analyzer
