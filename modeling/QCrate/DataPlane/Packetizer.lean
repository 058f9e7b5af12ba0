import QCrate.DataPlane.Protocol
import QCrate.Lib.Fold

/-!
# The packetizer

`packetize` turns one shot into STREAM_INFO, the DATA packets of its frames, and SHOT_END, and
hands them one by one to an `emit` callback that may fail. The packets do not depend on the
callback, so they are a list, and the two loops over frames and offsets are the recursions that
build it.

* `emitAll_collect` — a callback that accepts everything receives every object in order.
-/

namespace QCrate.DataPlane

open QCrate.Lib

/-! ## CRC-32 -/

/-- One bit of the reflected CRC-32. -/
def crcBit (crc : BitVec 32) : BitVec 32 := (crc >>> 1) ^^^ (0xedb88320#32 &&& -(crc &&& 1#32))

def crcByte (crc : BitVec 32) (b : UInt8) : BitVec 32 :=
  Nat.iterate crcBit 8 (crc ^^^ BitVec.ofNat 32 b.toNat)

/-- `crc32_update` -/
def crc32Update (crc : BitVec 32) (data : Bytes) : BitVec 32 := data.foldl crcByte crc

theorem crc32Update_append (crc : BitVec 32) (a b : Bytes) :
    crc32Update crc (a ++ b) = crc32Update (crc32Update crc a) b :=
  List.foldl_append ..

/-! ## Configuration -/

inductive PacketizerError where
  | badArgument | badSize | sequenceOverflow | codecError | emitError
  deriving DecidableEq, Repr

structure Config where
  payloadFormat : UInt16
  sampleBytes : UInt16
  streamId : UInt32
  runId : UInt64
  shotId : UInt64
  initialSequence : UInt64
  frameSamples : UInt32
  frameCount : UInt32
  sampleRateNumerator : UInt64
  sampleRateDenominator : UInt64
  timestampRateNumerator : UInt64
  timestampRateDenominator : UInt64
  centerFrequencyHz : Int64
  channelCount : UInt16
  componentBits : UInt16
  fractionBits : UInt16
  timestampClockId : UInt16
  configId : UInt64
  firstSampleTimestamp : UInt64
  firstSampleTimestampValid : Bool
  endOfStream : Bool
  deriving DecidableEq, Repr

structure PacketizerResult where
  totalDatagrams : ℕ
  dataPackets : ℕ
  firstDataSequence : ℕ
  lastDataSequence : ℕ
  nextSequence : ℕ
  totalSamples : ℕ
  payloadBytes : ℕ
  payloadCrc32 : ℕ
  deriving DecidableEq, Repr

namespace Config

def samplesPerPacket (c : Config) : ℕ := maxPayload / c.sampleBytes.toNat

def frameBytes (c : Config) : ℕ := c.frameSamples.toNat * c.sampleBytes.toNat

/-- `data_packets_per_frame` -/
def packetsPerFrame (c : Config) : ℕ :=
  (c.frameSamples.toNat + c.samplesPerPacket - 1) / c.samplesPerPacket

def totalSamples (c : Config) : ℕ := c.frameSamples.toNat * c.frameCount.toNat

def payloadBytes (c : Config) : ℕ := c.totalSamples * c.sampleBytes.toNat

/-- The tests `qcrate_data_packetize` makes before it emits anything. -/
def check (c : Config) (samples : Bytes) : Except PacketizerError Unit :=
  if c.frameSamples = 0 ∨ c.frameCount = 0 ∨ c.sampleBytes = 0 ∨ c.sampleRateDenominator = 0 ∨
      c.timestampRateDenominator = 0 then .error .badArgument
  else if (c.payloadFormat.toNat ≠ formatCounterU32Le ∧ c.payloadFormat.toNat ≠ formatIqS16Le) ∨
      c.sampleBytes ≠ 4 then .error .badArgument
  else if maxPayload < c.sampleBytes.toNat then .error .badSize
  else if c.samplesPerPacket = 0 then .error .badSize
  else if uint64Max / c.sampleBytes.toNat < c.frameSamples.toNat then .error .badSize
  else if uint64Max / c.frameBytes < c.frameCount.toNat then .error .badSize
  else if c.frameCount.toNat * c.frameBytes ≠ samples.length then .error .badSize
  else
    let dataPackets := c.packetsPerFrame * c.frameCount.toNat
    if uint64Max - 2 < dataPackets ∨ uint64Max - dataPackets - 2 < c.initialSequence.toNat then
      .error .sequenceOverflow
    else .ok ()

def streamInfo (c : Config) : StreamInfo :=
  { frameSamples := c.frameSamples.toNat
    sampleRateNumerator := c.sampleRateNumerator.toNat
    sampleRateDenominator := c.sampleRateDenominator.toNat
    timestampRateNumerator := c.timestampRateNumerator.toNat
    timestampRateDenominator := c.timestampRateDenominator.toNat
    centerFrequencyHz := c.centerFrequencyHz.toInt
    channelCount := c.channelCount.toNat
    componentBits := c.componentBits.toNat
    fractionBits := c.fractionBits.toNat
    timestampClockId := c.timestampClockId.toNat
    configId := c.configId.toNat }

end Config

/-! ## Packets -/

/-- A header and what follows it on the wire. -/
structure Packet where
  header : Header
  payload : Bytes
  deriving DecidableEq, Repr

def Packet.datagram (p : Packet) : Bytes := p.header.bytes ++ p.payload

namespace Config

/-- The header of a packet without sample position, format and timestamp. -/
def header (c : Config) (packetType : PacketType) (sequence : ℕ) : Header :=
  { headerBytes := headerBytes, packetType := packetType, payloadFormat := 0, flags := 0
    streamId := c.streamId.toNat, runId := c.runId.toNat, shotId := c.shotId.toNat
    packetSequence := sequence, frameId := 0, sampleOffset := 0, sampleCount := 0
    sampleBytes := 0, timestampTicks := 0 }

def infoPacket (c : Config) : Packet :=
  { header := { c.header .streamInfo c.initialSequence.toNat with
      payloadFormat := c.payloadFormat.toNat, sampleBytes := c.sampleBytes.toNat }
    payload := c.streamInfo.encode }

/-- The samples the packet at `offset` takes. -/
def sampleCountAt (c : Config) (offset : ℕ) : ℕ :=
  min (c.frameSamples.toNat - offset) c.samplesPerPacket

/-- The body of the inner loop. -/
def dataPacket (c : Config) (samples : Bytes) (frame offset sequence : ℕ) : Packet :=
  let count := c.sampleCountAt offset
  let firstSample := frame = 0 ∧ offset = 0
  { header := { c.header .data sequence with
      payloadFormat := c.payloadFormat.toNat
      flags :=
        (if firstSample ∧ c.firstSampleTimestampValid then flagTimestampValid else 0) |||
          (if offset = 0 then flagFrameStart else 0) |||
          (if offset + count = c.frameSamples.toNat then flagFrameEnd else 0)
      frameId := frame, sampleOffset := offset, sampleCount := count
      sampleBytes := c.sampleBytes.toNat
      timestampTicks :=
        if firstSample ∧ c.firstSampleTimestampValid then c.firstSampleTimestamp.toNat else 0 }
    payload := (samples.drop (frame * c.frameBytes + offset * c.sampleBytes.toNat)).take
      (count * c.sampleBytes.toNat) }

/-- The loop over the offsets of one frame; every turn advances, so `frameSamples` turns do. -/
def frameLoop (c : Config) (samples : Bytes) (frame : ℕ) : ℕ → ℕ → ℕ → List Packet
  | 0, _, _ => []
  | fuel + 1, offset, sequence =>
    if offset < c.frameSamples.toNat then
      c.dataPacket samples frame offset sequence ::
        c.frameLoop samples frame fuel (offset + c.sampleCountAt offset) (sequence + 1)
    else []

/-- The loop over frames, with the number of frames left. -/
def framesLoop (c : Config) (samples : Bytes) : ℕ → ℕ → ℕ → List Packet
  | 0, _, _ => []
  | left + 1, frame, sequence =>
    let packets := c.frameLoop samples frame c.frameSamples.toNat 0 sequence
    packets ++ c.framesLoop samples left (frame + 1) (sequence + packets.length)

def dataPackets (c : Config) (samples : Bytes) : List Packet :=
  c.framesLoop samples c.frameCount.toNat 0 (c.initialSequence.toNat + 1)

/-- `payload_crc32` of the packets sent so far. -/
def payloadCrc32 (packets : List Packet) : BitVec 32 :=
  packets.foldl (fun crc p => crc32Update crc p.payload) (BitVec.allOnes 32) ^^^ BitVec.allOnes 32

def result (c : Config) (samples : Bytes) : PacketizerResult :=
  let packets := c.dataPackets samples
  let first := c.initialSequence.toNat + 1
  { totalDatagrams := packets.length + 2
    dataPackets := packets.length
    firstDataSequence := first
    lastDataSequence := first + packets.length - 1
    nextSequence := first + packets.length + 1
    totalSamples := c.totalSamples
    payloadBytes := c.payloadBytes
    payloadCrc32 := (payloadCrc32 packets).toNat }

def shotEnd (c : Config) (samples : Bytes) : ShotEnd :=
  let result := c.result samples
  { status := shotComplete
    endFlags := flagPayloadCrcValid ||| (if c.endOfStream then flagEndOfStream else 0)
    totalFrames := c.frameCount.toNat
    totalSamples := result.totalSamples
    totalDataPackets := result.dataPackets
    firstPacketSequence := result.firstDataSequence
    lastPacketSequence := result.lastDataSequence
    payloadBytes := result.payloadBytes
    payloadCrc32 := result.payloadCrc32 }

def endPacket (c : Config) (samples : Bytes) : Packet :=
  { header := c.header .shotEnd (c.initialSequence.toNat + 1 + (c.dataPackets samples).length)
    payload := (c.shotEnd samples).encode }

/-- The packets of one shot in the order in which they are sent. -/
def shotPackets (c : Config) (samples : Bytes) : List Packet :=
  c.infoPacket :: (c.dataPackets samples ++ [c.endPacket samples])

end Config

/-! ## Emission -/

section Emission

variable {σ : Type} (emit : σ → Bytes → Bytes → Except σ σ)

/-- `emit_object` -/
def emitObject (p : Packet) (context : σ) : Except (PacketizerError × σ) σ :=
  match p.header.encode with
  | .error _ => .error (.codecError, context)
  | .ok encodedHeader =>
    match emit context encodedHeader p.payload with
    | .error context => .error (.emitError, context)
    | .ok context => .ok context

/-- Emit a list of objects up to the first that fails. -/
def emitAll (packets : List Packet) (context : σ) : Except (PacketizerError × σ) σ :=
  packets.foldlM (fun context p => emitObject emit p context) context

/-- `qcrate_data_packetize` -/
def packetize (c : Config) (samples : Bytes) (context : σ) :
    Except (PacketizerError × σ) (PacketizerResult × σ) :=
  match c.check samples with
  | .error e => .error (e, context)
  | .ok _ => (emitAll emit (c.shotPackets samples) context).map fun context =>
      (c.result samples, context)

/-- The heartbeat of `qcrate_data_emit_end_of_stream`. -/
def endOfStreamPacket (streamId : UInt32) (runId lastShotId packetSequence : UInt64) : Packet :=
  { header :=
      { headerBytes := headerBytes, packetType := .heartbeat, payloadFormat := formatNone
        flags := flagEndOfStream, streamId := streamId.toNat, runId := runId.toNat
        shotId := lastShotId.toNat, packetSequence := packetSequence.toNat, frameId := 0
        sampleOffset := 0, sampleCount := 0, sampleBytes := 0, timestampTicks := 0 }
    payload := [] }

/-- `qcrate_data_emit_end_of_stream` -/
def emitEndOfStream (streamId : UInt32) (runId lastShotId packetSequence : UInt64)
    (context : σ) : Except (PacketizerError × σ) (ℕ × σ) :=
  if streamId = 0 ∨ runId = 0 ∨ lastShotId = 0 then .error (.badArgument, context)
  else if packetSequence.toNat = uint64Max then .error (.sequenceOverflow, context)
  else
    (emitObject emit (endOfStreamPacket streamId runId lastShotId packetSequence) context).map
      fun context => (packetSequence.toNat + 1, context)

/-- A callback that only collects, as the recorder's input is made of what was sent. -/
def collect (sent : List Bytes) (encodedHeader payload : Bytes) :
    Except (List Bytes) (List Bytes) :=
  .ok (sent ++ [encodedHeader ++ payload])

end Emission

theorem emitObject_collect {p : Packet} (h : p.header.headerBytes = headerBytes)
    (sent : List Bytes) : emitObject collect p sent = .ok (sent ++ [p.datagram]) := by
  unfold emitObject Header.encode
  rw [if_neg (fun hb => hb.2 h)]
  rfl

theorem emitAll_collect {packets : List Packet}
    (h : ∀ p ∈ packets, p.header.headerBytes = headerBytes) (sent : List Bytes) :
    emitAll collect packets sent = .ok (sent ++ packets.map Packet.datagram) := by
  induction packets generalizing sent with
  | nil =>
    rw [List.map_nil, List.append_nil]
    rfl
  | cons p rest ih =>
    rw [emitAll, foldlM_cons_ok (emitObject_collect (h p List.mem_cons_self) sent)]
    have hrest := ih (fun q hq => h q (List.mem_cons_of_mem _ hq)) (sent ++ [p.datagram])
    rw [emitAll] at hrest
    rw [hrest]
    simp

end QCrate.DataPlane
