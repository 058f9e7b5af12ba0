import QCrate.DataPlane.Packetizer

/-!
# The recorder: state

The recorder keeps the shots it is putting together in a table of 256 entries, in the order in
which they were opened, and writes one index record for every entry it closes. Allocation and
file writes succeed here, so the only failure left is a full table.
-/

namespace QCrate.Recorder

open QCrate.DataPlane

/-! ## Constants -/

def maxActiveShots : ℕ := 256
def maxPendingPackets : ℕ := 4096
def maxUdpDatagram : ℕ := 65535

def issueProtocol : ℕ := 1
def issueMissing : ℕ := 2
def issueConflict : ℕ := 4
def issueFrame : ℕ := 8
def issueCrc : ℕ := 16
def issueSender : ℕ := 32
def issueTimestamp : ℕ := 64
def issueContinuity : ℕ := 128

/-! ## Arrivals -/

/-- `struct source_identity` -/
inductive Source where
  | inet (address : BitVec 32) (port : ℕ)
  | inet6 (address : BitVec 128) (port : ℕ)
  deriving DecidableEq, Repr

/-- `source_equal` -/
def sourceEqual (left right : Source) (comparePort : Bool) : Bool :=
  match left, right with
  | .inet a p, .inet b q => (!comparePort || p == q) && a == b
  | .inet6 a p, .inet6 b q => (!comparePort || p == q) && a == b
  | _, _ => false

theorem sourceEqual_self (source : Source) : sourceEqual source source true = true := by
  cases source <;> simp [sourceEqual]

/-- A datagram with its sender and its time of arrival. -/
structure Arrival where
  source : Source
  receiveNs : ℕ
  datagram : Bytes
  deriving DecidableEq, Repr

/-! ## Shots -/

/-- `struct packet_record` -/
structure PacketRecord where
  header : Header
  datagram : Bytes
  deriving DecidableEq, Repr

namespace PacketRecord

def payload (p : PacketRecord) : Bytes := p.datagram.drop p.header.headerBytes

def payloadSize (p : PacketRecord) : ℕ := p.datagram.length - p.header.headerBytes

end PacketRecord

/-- `struct shot_state`; `info` and `shotEnd` are there when `have_info` and `have_end` are set. -/
structure ShotState where
  shotId : ℕ
  packets : List PacketRecord := []
  firstReceiveNs : ℕ := 0
  lastReceiveNs : ℕ := 0
  highestArrival : Option ℕ := none
  info : Option (Header × StreamInfo) := none
  shotEnd : Option (Header × ShotEnd) := none
  issueFlags : ℕ := 0
  datagrams : ℕ := 0
  duplicatePackets : ℕ := 0
  reorderedPackets : ℕ := 0
  conflictingPackets : ℕ := 0
  deriving DecidableEq, Repr

namespace ShotState

def haveInfo (shot : ShotState) : Bool := shot.info.isSome

def haveEnd (shot : ShotState) : Bool := shot.shotEnd.isSome

/-- `info_header.payload_format`, zero without STREAM_INFO. -/
def infoFormat (shot : ShotState) : ℕ := (shot.info.map (·.1.payloadFormat)).getD 0

/-- `info_header.sample_bytes`, zero without STREAM_INFO. -/
def infoSampleBytes (shot : ShotState) : ℕ := (shot.info.map (·.1.sampleBytes)).getD 0

/-- `info.frame_samples`, zero without STREAM_INFO. -/
def frameSamples (shot : ShotState) : ℕ := (shot.info.map (·.2.frameSamples)).getD 0

/-- The bookkeeping of `add_packet` that does not depend on the packet's fate. -/
def touch (shot : ShotState) (receiveNs : ℕ) : ShotState :=
  { shot with
    datagrams := shot.datagrams + 1
    firstReceiveNs := if shot.firstReceiveNs = 0 then receiveNs else shot.firstReceiveNs
    lastReceiveNs := receiveNs }

/-- `add_packet`, with whether the packet is new. -/
def addPacket (shot : ShotState) (header : Header) (receiveNs : ℕ) (datagram : Bytes) :
    Bool × ShotState :=
  let shot := shot.touch receiveNs
  match shot.packets.find? (·.header.packetSequence = header.packetSequence) with
  | some packet =>
    if packet.datagram = datagram then
      (false, { shot with duplicatePackets := shot.duplicatePackets + 1 })
    else
      (false, { shot with
        conflictingPackets := shot.conflictingPackets + 1
        issueFlags := shot.issueFlags ||| issueConflict })
  | none =>
    let sequence := header.packetSequence
    let reordered := shot.highestArrival.any (sequence < ·)
    (true, { shot with
      packets := shot.packets ++ [⟨header, datagram⟩]
      reorderedPackets := shot.reorderedPackets + if reordered then 1 else 0
      highestArrival := if reordered then shot.highestArrival else some sequence })

/-- `qsort` with `packet_sequence_compare` -/
def sortPackets (shot : ShotState) : ShotState :=
  { shot with
    packets := shot.packets.insertionSort
      (fun a b => a.header.packetSequence ≤ b.header.packetSequence) }

end ShotState

/-! ## Index records -/

inductive IndexState where
  | complete | incomplete
  deriving DecidableEq, Repr

def IndexState.code : IndexState → ℕ
  | complete => 1
  | incomplete => 2

/-- `struct qcrate_index_record` -/
structure IndexRecord where
  shotId : ℕ
  state : IndexState
  issueFlags : ℕ
  firstPacketSequence : ℕ
  lastPacketSequence : ℕ
  firstSampleTimestamp : ℕ
  firstReceiveNs : ℕ
  lastReceiveNs : ℕ
  sampleFileOffset : ℕ
  sampleBytes : ℕ
  frameCount : ℕ
  frameSamples : ℕ
  dataPackets : ℕ
  datagrams : ℕ
  duplicatePackets : ℕ
  reorderedPackets : ℕ
  missingPackets : ℕ
  payloadCrc32 : ℕ
  sourceFlags : ℕ
  payloadFormat : ℕ
  sampleBytesPerWord : ℕ
  configId : ℕ
  deriving DecidableEq, Repr

/-! ## Run -/

/-- The sender and the stream the recorder has chosen. -/
structure Selection where
  source : Source
  runId : ℕ
  streamId : ℕ
  deriving DecidableEq, Repr

/-- What the recorder remembers of an END_OF_STREAM. -/
structure Terminal where
  isShotEnd : Bool
  sequence : ℕ
  shotId : ℕ
  deriving DecidableEq, Repr

/-- The last published shot with a timestamp. -/
structure LastShot where
  shotId : ℕ
  timestamp : ℕ
  deriving DecidableEq, Repr

/-- `struct run_state`. `samples` and `index` are what has been written to the two files;
`opened` is not in the source: the ids for which an entry was opened, in order. -/
structure RunState where
  maxShotBytes : ℕ
  sourceFilter : Option Source
  samples : Bytes := []
  index : List IndexRecord := []
  sampleOffset : ℕ := 0
  selected : Option Selection := none
  profile : Option (Header × StreamInfo) := none
  shots : List ShotState := []
  pending : List Arrival := []
  pendingOverflow : ℕ := 0
  expectedSequence : Option ℕ := none
  lastShot : Option LastShot := none
  terminal : Option Terminal := none
  runContinuityError : Bool := false
  interrupted : Bool := false
  journalRecords : ℕ := 0
  datagramBytes : ℕ := 0
  validPackets : ℕ := 0
  malformedPackets : ℕ := 0
  foreignPackets : ℕ := 0
  latePackets : ℕ := 0
  completeShots : ℕ := 0
  incompleteShots : ℕ := 0
  duplicatePackets : ℕ := 0
  reorderedPackets : ℕ := 0
  conflictingPackets : ℕ := 0
  kernelDrops : ℕ := 0
  opened : List ℕ := []

/-- The table with the entry of a shot overwritten. -/
def overwrite (shot : ShotState) : List ShotState → List ShotState
  | [] => []
  | s :: rest => if s.shotId = shot.shotId then shot :: rest else s :: overwrite shot rest

namespace RunState

/-- `find_shot` -/
def findShot (run : RunState) (shotId : ℕ) : Option ShotState :=
  run.shots.find? (·.shotId = shotId)

/-- `create_shot` -/
def createShot (run : RunState) (shotId : ℕ) : Option RunState :=
  if run.shots.length = maxActiveShots then none
  else some { run with
    shots := run.shots ++ [{ shotId := shotId }], opened := run.opened ++ [shotId] }

/-- What is written through the pointer `find_shot` or `create_shot` returned. -/
def putShot (run : RunState) (shot : ShotState) : RunState :=
  { run with shots := overwrite shot run.shots }

end RunState

end QCrate.Recorder
