import QCrate.Receiver.Protocol
import QCrate.Recorder.State

/-!
# The receiver: one shot

`ShotAssembler` of `qcrate_receiver.py`. It follows the first shot whose STREAM_INFO it sees,
keeps what arrived before that in a window, and judges the shot as a whole at the end. The
SHA-256 of `hashlib` is a parameter. The verdict is a list of issues; a capture is complete when
there is none.
-/

namespace QCrate.Receiver

open QCrate.DataPlane
open QCrate.Recorder (Source)
open QCrate.Host (ValueError)

/-! ## State -/

def maxPendingDatagrams : ℕ := 4096

structure JournalRecord where
  receiveMonotonicNs : ℕ
  source : Source
  datagram : Bytes
  deriving DecidableEq, Repr

/-- What can be wrong with a shot. -/
inductive Issue where
  | malformedDatagram (e : ValueError)
  | packetError (sequence : ℕ) (e : ValueError)
  | conflictingContents (sequence : ℕ)
  | invalidStreamInfo (e : ValueError)
  | conflictingStreamInfo
  | streamInfoFormatChanged
  | invalidShotEnd (e : ValueError)
  | conflictingShotEnd
  | noStreamInfo
  | streamInfoMissing
  | shotEndMissing
  | malformedSelected (count : ℕ)
  | sequenceCollisions (count : ℕ)
  | pendingLimit (count : ℕ)
  | endPrecedesInfo
  | missingSequences (count : ℕ)
  | outsideInterval (count : ℕ)
  | noData
  | framesNotContiguous
  | noFrameStart (frame : ℕ)
  | sampleGap (frame offset : ℕ)
  | overlappingData (frame offset : ℕ)
  | noFrameEnd (frame : ℕ)
  | frameLength (frame actual expected : ℕ)
  | packetOrder
  | integrityFlags (flags : ℕ)
  | endStatus (status : ℕ)
  | noEndOfStream
  | totalFrames (actual expected : ℕ)
  | totalSamples (actual expected : ℕ)
  | totalDataPackets (actual expected : ℕ)
  | payloadBytes (actual expected : ℕ)
  | firstSequence
  | lastSequence
  | payloadCrc (actual expected : ℕ)
  deriving DecidableEq, Repr

/-- An issue that is there when `c` holds. -/
def issueIf (c : Prop) [Decidable c] (i : Issue) : List Issue := if c then [i] else []

@[simp] theorem issueIf_eq_nil {c : Prop} [Decidable c] {i : Issue} : issueIf c i = [] ↔ ¬ c := by
  unfold issueIf
  split <;> simp [*]

/-- `packet_key` -/
structure Identity where
  source : Source
  runId : ℕ
  streamId : ℕ
  shotId : ℕ
  deriving DecidableEq, Repr

def packetKey (record : JournalRecord) (header : Header) : Identity :=
  ⟨record.source, header.runId, header.streamId, header.shotId⟩

/-- What became of a datagram before a shot was selected. -/
structure Pending where
  record : JournalRecord
  header : Option Header
  packet : Except ValueError Packet

/-- `ShotAssembler` over digests of type `δ`. STREAM_INFO and SHOT_END are kept with their
headers. -/
structure ShotAssembler (δ : Type) where
  identity : Option Identity := none
  streamInfo : Option (Header × StreamInfo) := none
  shotEnd : Option (Header × ShotEnd) := none
  pending : List Pending := []
  seenSequences : List (ℕ × δ) := []
  dataPackets : List (ℕ × Packet) := []
  totalDatagrams : ℕ := 0
  validSelectedPackets : ℕ := 0
  foreignPackets : ℕ := 0
  malformedSelected : ℕ := 0
  malformedUnclassified : ℕ := 0
  duplicatePackets : ℕ := 0
  conflictingDuplicates : ℕ := 0
  reorderedPackets : ℕ := 0
  highestArrivalSequence : Option ℕ := none
  protocolErrors : List Issue := []
  pendingOverflow : ℕ := 0

namespace ShotAssembler

section Ingest

variable {δ : Type}

def addError (a : ShotAssembler δ) (i : Issue) : ShotAssembler δ :=
  { a with protocolErrors := a.protocolErrors ++ [i] }

/-- A new STREAM_INFO. -/
def acceptInfo (a : ShotAssembler δ) (packet : Packet) : ShotAssembler δ :=
  match decodeStreamInfo packet.payload with
  | .error e => a.addError (.invalidStreamInfo e)
  | .ok info =>
    match a.streamInfo with
    | none => { a with streamInfo := some (packet.header, info) }
    | some (header, known) =>
      if known ≠ info then a.addError .conflictingStreamInfo
      else if header.payloadFormat ≠ packet.header.payloadFormat ∨
          header.sampleBytes ≠ packet.header.sampleBytes then a.addError .streamInfoFormatChanged
      else a

/-- A new SHOT_END. -/
def acceptEnd (a : ShotAssembler δ) (packet : Packet) : ShotAssembler δ :=
  match decodeShotEnd packet.payload with
  | .error e => a.addError (.invalidShotEnd e)
  | .ok last =>
    match a.shotEnd with
    | none => { a with shotEnd := some (packet.header, last) }
    | some (_, known) => if known ≠ last then a.addError .conflictingShotEnd else a

/-- The bookkeeping of `_accept` for a new sequence. -/
def note (a : ShotAssembler δ) (sequence : ℕ) (digest : δ) : ShotAssembler δ :=
  { a with
    reorderedPackets :=
      a.reorderedPackets + if a.highestArrivalSequence.any (sequence < ·) then 1 else 0
    highestArrivalSequence := some (max sequence (a.highestArrivalSequence.getD sequence))
    seenSequences := a.seenSequences ++ [(sequence, digest)]
    validSelectedPackets := a.validSelectedPackets + 1 }

variable [DecidableEq δ] (sha256 : Bytes → δ)

/-- `_accept` -/
def accept (a : ShotAssembler δ) (packet : Packet) (datagram : Bytes) : ShotAssembler δ :=
  let sequence := packet.header.packetSequence
  match a.seenSequences.lookup sequence with
  | some previous =>
    if previous = sha256 datagram then { a with duplicatePackets := a.duplicatePackets + 1 }
    else { a with conflictingDuplicates := a.conflictingDuplicates + 1 }.addError
      (.conflictingContents sequence)
  | none =>
    let a := a.note sequence (sha256 datagram)
    match packet.header.packetType with
    | .streamInfo => a.acceptInfo packet
    | .data => { a with dataPackets := a.dataPackets ++ [(sequence, packet)] }
    | .shotEnd => a.acceptEnd packet
    | .heartbeat => a

/-- `_route`, with the identity it asserts. -/
def route (identity : Identity) (a : ShotAssembler δ) (item : Pending) : ShotAssembler δ :=
  match item.header with
  | none =>
    if item.record.source = identity.source then
      match item.packet with
      | .error e => { a with malformedSelected := a.malformedSelected + 1 }.addError
          (.malformedDatagram e)
      | .ok _ => { a with malformedSelected := a.malformedSelected + 1 }
    else { a with malformedUnclassified := a.malformedUnclassified + 1 }
  | some header =>
    if packetKey item.record header ≠ identity then
      { a with foreignPackets := a.foreignPackets + 1 }
    else
      match item.packet with
      | .error e => { a with malformedSelected := a.malformedSelected + 1 }.addError
          (.packetError header.packetSequence e)
      | .ok packet => a.accept sha256 packet item.record.datagram

/-- `_save_pending` -/
def savePending (a : ShotAssembler δ) (item : Pending) : ShotAssembler δ :=
  if maxPendingDatagrams ≤ a.pending.length then
    { a with pending := a.pending.drop 1 ++ [item], pendingOverflow := a.pendingOverflow + 1 }
  else { a with pending := a.pending ++ [item] }

/-- How `ingest` reads a datagram. -/
def read (record : JournalRecord) : Pending :=
  match decodeHeader record.datagram with
  | .error e => ⟨record, none, .error e⟩
  | .ok header => ⟨record, some header, decodePacket record.datagram⟩

/-- The item selects a shot. -/
def selects (item : Pending) : Option Identity :=
  match item.header, item.packet with
  | some header, .ok _ =>
    if header.packetType = .streamInfo then some (packetKey item.record header) else none
  | _, _ => none

/-- `ingest` -/
def ingest (a : ShotAssembler δ) (record : JournalRecord) : ShotAssembler δ :=
  let a := { a with totalDatagrams := a.totalDatagrams + 1 }
  let item := read record
  match a.identity with
  | some identity => a.route sha256 identity item
  | none =>
    match selects item with
    | none => a.savePending item
    | some identity =>
      (a.pending ++ [item]).foldl (route sha256 identity)
        { a with identity := some identity, pending := [] }

/-- The datagrams of a journal, one after the other. -/
def ingestAll (records : List JournalRecord) : ShotAssembler δ :=
  records.foldl (ingest sha256) {}

end Ingest

end ShotAssembler

/-! ## Sequences -/

/-- The variables of the loop of `find_missing_ranges`. -/
structure MissingScan where
  cursor : ℕ
  count : ℕ := 0
  ranges : List (ℕ × ℕ) := []

/-- One turn of that loop. -/
def MissingScan.step (first last : ℕ) (s : MissingScan) (value : ℕ) : MissingScan :=
  if value < first ∨ last < value then s
  else
    let s :=
      if s.cursor < value then
        { s with
          ranges := s.ranges ++ [(s.cursor, value - 1)], count := s.count + (value - s.cursor) }
      else s
    { s with cursor := max s.cursor (value + 1) }

/-- `find_missing_ranges` -/
def findMissingRanges (first last : ℕ) (present : List ℕ) : ℕ × List (ℕ × ℕ) :=
  if last < first then (0, [])
  else
    let s := (present.dedup.insertionSort (· ≤ ·)).foldl (MissingScan.step first last)
      ⟨first, 0, []⟩
    if s.cursor ≤ last then (s.count + (last - s.cursor + 1), s.ranges ++ [(s.cursor, last)])
    else (s.count, s.ranges)

/-! ## Frames -/

/-- A DATA packet under its sequence. -/
abbrev Chunk := ℕ × Packet

namespace Chunk

def frameId (c : Chunk) : ℕ := c.2.header.frameId

def offset (c : Chunk) : ℕ := c.2.header.sampleOffset

/-- The order of the tuples `(sample_offset, sequence, packet)`. -/
def le (a b : Chunk) : Prop := a.offset < b.offset ∨ (a.offset = b.offset ∧ a.1 ≤ b.1)

instance : DecidableRel le := fun _ _ => inferInstanceAs (Decidable (_ ∨ _))

/-- The entry of `logical_order` and `sequence_order`. -/
def position (c : Chunk) : ℕ × ℕ × ℕ := (c.frameId, c.offset, c.1)

end Chunk

/-- The variables of the loop over the chunks of a frame. -/
structure FrameWalk where
  expectedOffset : ℕ := 0
  issues : List Issue := []

/-- One turn of that loop. -/
def FrameWalk.step (frame : ℕ) (w : FrameWalk) (c : Chunk) : FrameWalk :=
  { expectedOffset := max w.expectedOffset (c.offset + c.2.header.sampleCount)
    issues := w.issues ++
      if w.expectedOffset < c.offset then [.sampleGap frame w.expectedOffset]
      else if c.offset < w.expectedOffset then [.overlappingData frame c.offset]
      else [] }

/-- What is wrong with the chunks of a frame. -/
def frameIssues (frameSamples : Option ℕ) (frame : ℕ) (chunks : List Chunk) : List Issue :=
  let walk := chunks.foldl (FrameWalk.step frame) {}
  issueIf (chunks.head?.any (·.2.header.flags &&& flagFrameStart = 0)) (.noFrameStart frame) ++
    walk.issues ++
    issueIf (chunks.getLast?.any (·.2.header.flags &&& flagFrameEnd = 0)) (.noFrameEnd frame) ++
    match frameSamples with
    | none => []
    | some expected =>
      issueIf (walk.expectedOffset ≠ expected) (.frameLength frame walk.expectedOffset expected)

/-- The flags with which the sender reports a loss. -/
def integrityMask : ℕ := flagDiscontinuityBefore ||| flagSourceOverflow ||| flagSenderDrop

/-- `binascii.crc32` -/
def crc32 (data : Bytes) : ℕ :=
  (crc32Update (BitVec.allOnes 32) data ^^^ BitVec.allOnes 32).toNat

/-! ## Verdict -/

/-- The DATA packets of a shot as `finalize` sorts them. -/
structure Ordered where
  chunks : List Chunk

namespace Ordered

/-- `frame_ids` -/
def frameIds (o : Ordered) : List ℕ := (o.chunks.map Chunk.frameId).dedup.insertionSort (· ≤ ·)

/-- The sorted chunks of one frame. -/
def frame (o : Ordered) (id : ℕ) : List Chunk :=
  (o.chunks.filter (·.frameId = id)).insertionSort Chunk.le

/-- The chunks in frame and sample order. -/
def logical (o : Ordered) : List Chunk := o.frameIds.flatMap o.frame

def reconstructed (o : Ordered) : Bytes := o.logical.flatMap (·.2.payload)

def payloadBySequence (o : Ordered) : Bytes := o.chunks.flatMap (·.2.payload)

def totalSamples (o : Ordered) : ℕ := (o.chunks.map (·.2.header.sampleCount)).sum

def sourceFlags (o : Ordered) : ℕ :=
  o.chunks.foldl (fun flags c => flags ||| (c.2.header.flags &&& integrityMask)) 0

/-- The issues of the DATA packets among themselves. -/
def issues (o : Ordered) (frameSamples : Option ℕ) : List Issue :=
  issueIf (o.chunks = []) .noData ++
    issueIf (o.frameIds ≠ List.range' (o.frameIds.headD 0) o.frameIds.length)
      .framesNotContiguous ++
    o.frameIds.flatMap (fun id => frameIssues frameSamples id (o.frame id)) ++
    issueIf (o.chunks.map Chunk.position ≠ o.logical.map Chunk.position) .packetOrder ++
    issueIf (o.sourceFlags ≠ 0) (.integrityFlags o.sourceFlags)

/-- The issues found by comparing with SHOT_END. -/
def endIssues (o : Ordered) (last : ShotEnd) : List Issue :=
  issueIf (last.status ≠ shotComplete) (.endStatus last.status) ++
    issueIf (last.endFlags &&& flagEndOfStream = 0) .noEndOfStream ++
    issueIf (o.frameIds.length ≠ last.totalFrames)
      (.totalFrames o.frameIds.length last.totalFrames) ++
    issueIf (o.totalSamples ≠ last.totalSamples) (.totalSamples o.totalSamples last.totalSamples) ++
    issueIf (o.chunks.length ≠ last.totalDataPackets)
      (.totalDataPackets o.chunks.length last.totalDataPackets) ++
    issueIf (o.payloadBySequence.length ≠ last.payloadBytes)
      (.payloadBytes o.payloadBySequence.length last.payloadBytes) ++
    issueIf (o.chunks.head?.any (·.1 ≠ last.firstPacketSequence)) .firstSequence ++
    issueIf (o.chunks.getLast?.any (·.1 ≠ last.lastPacketSequence)) .lastSequence ++
    issueIf (last.endFlags &&& flagPayloadCrcValid ≠ 0 ∧
        crc32 o.payloadBySequence ≠ last.payloadCrc32)
      (.payloadCrc (crc32 o.payloadBySequence) last.payloadCrc32)

end Ordered

/-- What `finalize` returns: the samples of a complete capture, and of the manifest the
verdict and its reasons. -/
structure Capture where
  samples : Option Bytes
  complete : Bool
  issues : List Issue

namespace ShotAssembler

variable {δ : Type}

/-- `ordered_data` -/
def ordered (a : ShotAssembler δ) : Ordered := ⟨a.dataPackets.insertionSort (·.1 ≤ ·.1)⟩

def sequences (a : ShotAssembler δ) : List ℕ := a.seenSequences.map (·.1)

/-- The issues of the sequence interval of the shot. -/
def intervalIssues (a : ShotAssembler δ) : List Issue :=
  match a.streamInfo, a.shotEnd with
  | some (info, _), some (last, _) =>
    let first := info.packetSequence
    let last := last.packetSequence
    if last < first then [.endPrecedesInfo]
    else
      let missing := (findMissingRanges first last a.sequences).1
      let outside := a.sequences.countP fun sequence => sequence < first ∨ last < sequence
      issueIf (missing ≠ 0) (.missingSequences missing) ++
        issueIf (outside ≠ 0) (.outsideInterval outside)
  | _, _ => []

/-- The `issues` of `finalize`. -/
def issues (a : ShotAssembler δ) : List Issue :=
  a.protocolErrors.eraseDups ++
    issueIf (a.identity = none) .noStreamInfo ++
    issueIf (a.streamInfo = none) .streamInfoMissing ++
    issueIf (a.shotEnd = none) .shotEndMissing ++
    issueIf (a.malformedSelected ≠ 0) (.malformedSelected a.malformedSelected) ++
    issueIf (a.conflictingDuplicates ≠ 0) (.sequenceCollisions a.conflictingDuplicates) ++
    issueIf (a.pendingOverflow ≠ 0) (.pendingLimit a.pendingOverflow) ++
    a.intervalIssues ++
    a.ordered.issues (a.streamInfo.map (·.2.frameSamples)) ++
    match a.shotEnd with
    | none => []
    | some (_, last) => a.ordered.endIssues last

/-- `finalize` -/
def finalize (a : ShotAssembler δ) : Capture :=
  let complete := a.issues.isEmpty
  { samples := if complete then some a.ordered.reconstructed else none
    complete := complete
    issues := a.issues }

end ShotAssembler

end QCrate.Receiver
