import QCrate.Recorder.State

/-!
# The recorder: closing a shot

`finalize_shot` looks at an entry from several sides and collects issue flags: what is missing,
what each packet says, how the DATA packets follow each other in frames, what SHOT_END promised,
and whether the shot continues the run. Each side is a definition of its own.
-/

namespace QCrate.Recorder

open QCrate.DataPlane

/-- `x + 1` in 64 bits. -/
def succ64 (x : ℕ) : ℕ := (x + 1) % 2 ^ 64

/-! ## Which packets are there -/

/-- The loop of `shot_sequence_complete`: the sequence expected at its end, unless a packet of the
interval was not the expected one. -/
def sequenceRun (first last : ℕ) : ℕ → List ℕ → Option ℕ
  | expected, [] => some expected
  | expected, q :: rest =>
    if q < first ∨ last < q then sequenceRun first last expected rest
    else if q ≠ expected then none
    else sequenceRun first last (succ64 expected) rest

/-- One turn of the loop of `count_missing`: the expected sequence and the count. -/
def missingStep (last : ℕ) (acc : ℕ × ℕ) (q : ℕ) : ℕ × ℕ :=
  if q < acc.1 ∨ last < q then acc else (succ64 q, acc.2 + (q - acc.1))

namespace ShotState

def sequences (shot : ShotState) : List ℕ := shot.packets.map (·.header.packetSequence)

/-- `shot_sequence_complete` -/
def sequenceComplete (shot : ShotState) : Bool :=
  match shot.info, shot.shotEnd with
  | some (info, _), some (last, _) =>
    !decide (last.packetSequence < info.packetSequence) &&
      sequenceRun info.packetSequence last.packetSequence info.packetSequence shot.sequences ==
        some (succ64 last.packetSequence)
  | _, _ => false

/-- `count_missing` -/
def countMissing (shot : ShotState) : ℕ :=
  match shot.info, shot.shotEnd with
  | some (info, _), some (last, _) =>
    if last.packetSequence < info.packetSequence then 1
    else
      let acc := shot.sequences.foldl (missingStep last.packetSequence) (info.packetSequence, 0)
      let missing :=
        if acc.1 ≤ last.packetSequence then acc.2 + (last.packetSequence - acc.1 + 1) else acc.2
      min (missing % 2 ^ 64) uint32Max
  | _, _ => 1

/-! ## What the metadata says -/

/-- The flags raised by what is known of the shot before its packets are looked at. -/
def shotIssues (shot : ShotState) : ℕ :=
  (if !shot.haveInfo || !shot.haveEnd then issueProtocol else 0) |||
    (match shot.info with
    | none => 0
    | some (header, info) =>
      if info.frameSamples = 0 ∨ info.sampleRateDenominator = 0 ∨
          info.timestampRateDenominator = 0 ∨
          (header.payloadFormat ≠ formatCounterU32Le ∧ header.payloadFormat ≠ formatIqS16Le) ∨
          header.sampleBytes ≠ 4 then issueProtocol else 0) |||
    (match shot.shotEnd with
    | none => 0
    | some (_, last) => if last.status ≠ shotComplete then issueSender else 0)

end ShotState

/-! ## The packets one by one -/

/-- The variables of the loop over all packets. -/
structure PacketScan where
  issues : ℕ := 0
  data : List PacketRecord := []
  firstDataSequence : ℕ := 0
  lastDataSequence : ℕ := 0
  firstTimestamp : ℕ := 0
  totalSamples : ℕ := 0
  payloadBytes : ℕ := 0
  sourceFlags : ℕ := 0
  deriving DecidableEq, Repr

/-- The flags a DATA packet may carry. -/
def dataFlagMask : ℕ :=
  flagTimestampValid ||| flagFrameStart ||| flagFrameEnd ||| flagDiscontinuityBefore |||
    flagSourceOverflow ||| flagSenderDrop

/-- The flags with which the sender reports a loss of its own. -/
def sourceFlagMask : ℕ := flagDiscontinuityBefore ||| flagSourceOverflow ||| flagSenderDrop

/-- A DATA packet the loop passes over. -/
def dataMalformed (infoFormat : ℕ) (p : PacketRecord) : Bool :=
  p.header.sampleCount = 0 || p.header.sampleBytes ≠ 4 || p.header.payloadFormat ≠ infoFormat ||
    p.header.flags &&& (uint32Max ^^^ dataFlagMask) ≠ 0 ||
    p.payloadSize ≠ p.header.sampleCount * p.header.sampleBytes

def infoMalformed (p : PacketRecord) : Bool :=
  p.datagram.length ≠ headerBytes + streamInfoBytes || p.header.flags ≠ 0 ||
    p.header.frameId ≠ 0 || p.header.sampleOffset ≠ 0 || p.header.sampleCount ≠ 0 ||
    p.header.timestampTicks ≠ 0

def endMalformed (p : PacketRecord) : Bool :=
  p.datagram.length ≠ headerBytes + shotEndBytes || p.header.payloadFormat ≠ formatNone ||
    p.header.flags ≠ 0 || p.header.frameId ≠ 0 || p.header.sampleOffset ≠ 0 ||
    p.header.sampleCount ≠ 0 || p.header.sampleBytes ≠ 0 || p.header.timestampTicks ≠ 0

namespace PacketScan

def raise (s : PacketScan) (issue : ℕ) (c : Bool) : PacketScan :=
  { s with issues := s.issues ||| (if c then issue else 0) }

/-- A well-formed DATA packet. -/
def addData (s : PacketScan) (p : PacketRecord) : PacketScan :=
  let stamped : Bool := p.header.flags &&& flagTimestampValid ≠ 0
  let first := s.data.isEmpty
  { issues := s.issues ||| (
      if first then (if !stamped || p.header.timestampTicks = 0 then issueTimestamp else 0)
      else (if stamped || p.header.timestampTicks ≠ 0 then issueTimestamp else 0))
    data := s.data ++ [p]
    firstDataSequence := if first then p.header.packetSequence else s.firstDataSequence
    lastDataSequence := p.header.packetSequence
    firstTimestamp := if first then p.header.timestampTicks else s.firstTimestamp
    totalSamples := s.totalSamples + p.header.sampleCount
    payloadBytes := s.payloadBytes + p.payloadSize
    sourceFlags := s.sourceFlags ||| (p.header.flags &&& sourceFlagMask) }

/-- One turn of the loop over all packets. -/
def step (infoFormat : ℕ) (s : PacketScan) (p : PacketRecord) : PacketScan :=
  match p.header.packetType with
  | .data => if dataMalformed infoFormat p then s.raise issueProtocol true else s.addData p
  | .streamInfo => s.raise issueProtocol (infoMalformed p)
  | .shotEnd => s.raise issueProtocol (endMalformed p)
  | .heartbeat => s.raise issueProtocol true

end PacketScan

def ShotState.scanPackets (shot : ShotState) : PacketScan :=
  shot.packets.foldl (PacketScan.step shot.infoFormat) {}

/-! ## Frames -/

/-- The variables of the loop over the DATA packets in frame order. -/
structure FrameScan where
  issues : ℕ := 0
  currentFrame : ℕ := uint32Max
  expectedOffset : ℕ := 0
  frameCount : ℕ := 0
  crc : BitVec 32 := BitVec.allOnes 32
  deriving DecidableEq, Repr

/-- `packet_frame_compare` puts `a` before `b`, or they are equal. -/
def frameLe (a b : PacketRecord) : Prop :=
  a.header.frameId < b.header.frameId ∨ (a.header.frameId = b.header.frameId ∧
    (a.header.sampleOffset < b.header.sampleOffset ∨
      (a.header.sampleOffset = b.header.sampleOffset ∧
        a.header.packetSequence ≤ b.header.packetSequence)))

instance : DecidableRel frameLe := fun _ _ => inferInstanceAs (Decidable (_ ∨ _))

/-- One turn of the loop over the DATA packets. -/
def FrameScan.step (frameSamples : ℕ) (s : FrameScan) (p : PacketRecord) : FrameScan :=
  let h := p.header
  let s :=
    if h.frameId ≠ s.currentFrame then
      { s with
        issues := s.issues |||
          (if s.currentFrame ≠ uint32Max ∧ (h.frameId ≠ (s.currentFrame + 1) % 2 ^ 32 ∨
            s.expectedOffset ≠ frameSamples) then issueFrame else 0) |||
          (if h.flags &&& flagFrameStart = 0 then issueFrame else 0)
        currentFrame := h.frameId, expectedOffset := 0, frameCount := s.frameCount + 1 }
    else s
  let expectedOffset := (h.sampleOffset + h.sampleCount) % 2 ^ 32
  { s with
    issues := s.issues |||
      (if h.sampleOffset ≠ s.expectedOffset then issueFrame else 0) |||
      (if h.flags &&& flagFrameEnd ≠ (if expectedOffset = frameSamples then flagFrameEnd else 0)
        then issueFrame else 0)
    expectedOffset := expectedOffset
    crc := crc32Update s.crc p.payload }

/-- The DATA packets in frame order. -/
def PacketScan.inFrameOrder (s : PacketScan) : List PacketRecord := s.data.insertionSort frameLe

/-- The loop over the DATA packets, with the tests around it. -/
def ShotState.scanFrames (shot : ShotState) (scan : PacketScan) : FrameScan :=
  if scan.data = [] then {}
  else
    let packets := scan.inFrameOrder
    let s := packets.foldl (FrameScan.step shot.frameSamples) {}
    { s with
      issues := s.issues |||
        (if packets.head?.any (·.header.frameId ≠ 0) then issueFrame else 0) |||
        (if s.expectedOffset ≠ shot.frameSamples then issueFrame else 0) }

/-! ## Verdict -/

/-- What finalization finds out about an entry. -/
structure Inspection where
  issueFlags : ℕ
  missing : ℕ
  scan : PacketScan
  frames : FrameScan
  crc : ℕ

/-- The flags raised by comparing with SHOT_END. -/
def ShotState.endIssues (shot : ShotState) (scan : PacketScan) (frames : FrameScan) (crc : ℕ) : ℕ :=
  match shot.shotEnd with
  | none => 0
  | some (_, last) =>
    (if last.endFlags &&& (uint32Max ^^^ (flagPayloadCrcValid ||| flagEndOfStream)) ≠ 0
      then issueProtocol else 0) |||
    (if last.totalFrames ≠ frames.frameCount ∨ last.totalSamples ≠ scan.totalSamples ∨
        last.totalDataPackets ≠ scan.data.length ∨ last.payloadBytes ≠ scan.payloadBytes ∨
        (scan.data ≠ [] ∧ (last.firstPacketSequence ≠ scan.firstDataSequence ∨
          last.lastPacketSequence ≠ scan.lastDataSequence)) then issueFrame else 0) |||
    (if last.endFlags &&& flagPayloadCrcValid = 0 ∨ last.payloadCrc32 ≠ crc then issueCrc else 0)

namespace RunState

/-- The shot does not have the profile of the run. -/
def profileDiffers (run : RunState) (shot : ShotState) : Bool :=
  match run.profile, shot.info with
  | some (header, profile), some (shotHeader, info) =>
    profile ≠ info || header.payloadFormat ≠ shotHeader.payloadFormat ||
      header.sampleBytes ≠ shotHeader.sampleBytes
  | _, _ => false

/-- The first packet of the shot is not the one that should follow the last published shot. -/
def sequenceBreaks (run : RunState) (shot : ShotState) : Bool :=
  match run.expectedSequence, shot.info with
  | some expected, some (header, _) => header.packetSequence ≠ expected
  | _, _ => false

/-- The shot does not come after the last published one. -/
def orderBreaks (run : RunState) (shotId firstTimestamp : ℕ) : Bool :=
  match run.lastShot with
  | some last =>
    shotId ≤ last.shotId || firstTimestamp = 0 || firstTimestamp ≤ last.timestamp
  | none => false

/-- The flags raised by comparing with the rest of the run. -/
def runIssues (run : RunState) (shot : ShotState) (firstTimestamp : ℕ) : ℕ :=
  (if run.profileDiffers shot then issueProtocol else 0) |||
    (if run.sequenceBreaks shot then issueContinuity else 0) |||
    (if run.orderBreaks shot.shotId firstTimestamp then issueContinuity else 0)

/-- The part of `finalize_shot` that finds issues, for sorted packets. -/
def inspect (run : RunState) (shot : ShotState) : Inspection :=
  let missing := shot.countMissing
  let scan := shot.scanPackets
  let frames := shot.scanFrames scan
  let crc := (frames.crc ^^^ BitVec.allOnes 32).toNat
  { issueFlags :=
      shot.issueFlags ||| (if missing ≠ 0 then issueMissing else 0) ||| shot.shotIssues |||
        scan.issues |||
        (if scan.data = [] ∨ run.maxShotBytes < scan.payloadBytes then issueFrame else 0) |||
        (if scan.sourceFlags ≠ 0 then issueSender else 0) ||| frames.issues |||
        shot.endIssues scan frames crc ||| run.runIssues shot scan.firstTimestamp
    missing := missing, scan := scan, frames := frames, crc := crc }

/-- The record `finalize_shot` writes. -/
def indexRecord (run : RunState) (shot : ShotState) (i : Inspection) : IndexRecord :=
  let intact : Bool := i.issueFlags = 0
  { shotId := shot.shotId
    state := if intact then .complete else .incomplete
    issueFlags := i.issueFlags
    firstPacketSequence := (shot.info.map (·.1.packetSequence)).getD 0
    lastPacketSequence := (shot.shotEnd.map (·.1.packetSequence)).getD 0
    firstSampleTimestamp := i.scan.firstTimestamp
    firstReceiveNs := shot.firstReceiveNs
    lastReceiveNs := shot.lastReceiveNs
    sampleFileOffset := if intact then run.sampleOffset else uint64Max
    sampleBytes := if intact then i.scan.payloadBytes else 0
    frameCount := i.frames.frameCount
    frameSamples := shot.frameSamples
    dataPackets := min i.scan.data.length uint32Max
    datagrams := shot.datagrams
    duplicatePackets := shot.duplicatePackets
    reorderedPackets := shot.reorderedPackets
    missingPackets := i.missing
    payloadCrc32 := i.crc
    sourceFlags := i.scan.sourceFlags
    payloadFormat := shot.infoFormat
    sampleBytesPerWord := shot.infoSampleBytes
    configId := (shot.info.map (·.2.configId)).getD 0 }

/-- The expectation a published shot leaves behind. -/
def nextSequence (run : RunState) (shot : ShotState) : Option ℕ :=
  match shot.shotEnd with
  | none => run.expectedSequence
  | some (last, _) =>
    if last.packetSequence = uint64Max then none else some (last.packetSequence + 1)

/-- The part of `finalize_shot` that publishes. -/
def publish (run : RunState) (shot : ShotState) (i : Inspection) : RunState :=
  let intact : Bool := i.issueFlags = 0
  { run with
    samples :=
      if intact then run.samples ++ i.scan.inFrameOrder.flatMap (·.payload) else run.samples
    sampleOffset := if intact then run.sampleOffset + i.scan.payloadBytes else run.sampleOffset
    completeShots := run.completeShots + if intact then 1 else 0
    incompleteShots := run.incompleteShots + if intact then 0 else 1
    index := run.index ++ [run.indexRecord shot i]
    expectedSequence := run.nextSequence shot
    lastShot :=
      if i.scan.firstTimestamp = 0 then run.lastShot
      else some ⟨shot.shotId, i.scan.firstTimestamp⟩
    duplicatePackets := run.duplicatePackets + shot.duplicatePackets
    reorderedPackets := run.reorderedPackets + shot.reorderedPackets
    conflictingPackets := run.conflictingPackets + shot.conflictingPackets }

/-- `finalize_shot`: the run with the shot published, or the shot that is not ready. -/
def finalizeShot (run : RunState) (shot : ShotState) (forced : Bool) : Except ShotState RunState :=
  let shot := shot.sortPackets
  if shot.countMissing ≠ 0 ∧ forced = false then
    .error { shot with issueFlags := shot.issueFlags ||| issueMissing }
  else .ok (run.publish shot (run.inspect shot))

end RunState

end QCrate.Recorder
