import QCrate.Lib.BigEndian

/-!
# Data Plane v1: headers and metadata objects

Every datagram starts with a fixed 64-byte header; STREAM_INFO and SHOT_END carry a fixed
64-byte object. Multi-byte fields are big endian. An encoder writes the low bytes of a field, so
a value survives the round trip when it fits its width, which `InRange` says field by field.

* `Header.decode_encode`, `StreamInfo.decode_encode`, `ShotEnd.decode_encode` — round trips.
* `Header.decode_inRange`, `StreamInfo.decode_inRange`, `ShotEnd.decode_inRange` — what a decoder
  accepts fits the wire.
-/

namespace QCrate.DataPlane

open QCrate.Lib

abbrev Bytes := List UInt8

/-! ## Constants -/

def magic : ℕ := 0x51434450
def version : ℕ := 1
def headerBytes : ℕ := 64
def maxDatagram : ℕ := 1400
def maxPayload : ℕ := 1336
def streamInfoBytes : ℕ := 64
def shotEndBytes : ℕ := 64

def formatNone : ℕ := 0
def formatCounterU32Le : ℕ := 1
def formatIqS16Le : ℕ := 2

def flagTimestampValid : ℕ := 1
def flagFrameStart : ℕ := 2
def flagFrameEnd : ℕ := 4
def flagDiscontinuityBefore : ℕ := 8
def flagPayloadCrcValid : ℕ := 16
def flagSourceOverflow : ℕ := 32
def flagSenderDrop : ℕ := 64
def flagEndOfStream : ℕ := 128

def shotComplete : ℕ := 0

/-- The largest 64-bit value. -/
def uint64Max : ℕ := 2 ^ 64 - 1

/-- The largest 32-bit value. -/
def uint32Max : ℕ := 2 ^ 32 - 1

inductive CodecError where
  | shortInput | badMagic | badVersion | badHeaderSize | badPacketType | badObjectSize
  deriving DecidableEq, Repr

inductive PacketType where
  | streamInfo | data | shotEnd | heartbeat
  deriving DecidableEq, Repr

namespace PacketType

def code : PacketType → ℕ
  | streamInfo => 1
  | data => 2
  | shotEnd => 3
  | heartbeat => 4

/-- `packet_type_valid`, with the type it admits. -/
def ofCode : ℕ → Option PacketType
  | 1 => some streamInfo
  | 2 => some data
  | 3 => some shotEnd
  | 4 => some heartbeat
  | _ => none

/-- The codes are different from each other. -/
@[simp] theorem ofCode_code (t : PacketType) : ofCode t.code = some t := by
  cases t <;> rfl

/-- A type fits its field of two bytes. -/
theorem code_lt (t : PacketType) : t.code < 256 ^ 2 := by
  cases t <;> decide

end PacketType

/-! ## Header -/

structure Header where
  headerBytes : ℕ
  packetType : PacketType
  payloadFormat : ℕ
  flags : ℕ
  streamId : ℕ
  runId : ℕ
  shotId : ℕ
  packetSequence : ℕ
  frameId : ℕ
  sampleOffset : ℕ
  sampleCount : ℕ
  sampleBytes : ℕ
  timestampTicks : ℕ
  deriving DecidableEq, Repr

namespace Header

/-- The 64 bytes of a header. -/
def bytes (h : Header) : Bytes :=
  putBE 4 magic ++ putBE 2 version ++ putBE 2 DataPlane.headerBytes ++ putBE 2 h.packetType.code ++
    putBE 2 h.payloadFormat ++ putBE 4 h.flags ++ putBE 4 h.streamId ++ putBE 8 h.runId ++
    putBE 8 h.shotId ++ putBE 8 h.packetSequence ++ putBE 4 h.frameId ++ putBE 4 h.sampleOffset ++
    putBE 2 h.sampleCount ++ putBE 2 h.sampleBytes ++ putBE 8 h.timestampTicks

/-- `qcrate_data_header_encode` -/
def encode (h : Header) : Except CodecError Bytes :=
  if h.headerBytes ≠ 0 ∧ h.headerBytes ≠ DataPlane.headerBytes then .error .badHeaderSize
  else .ok h.bytes

/-- `qcrate_data_header_decode` -/
def decode (input : Bytes) : Except CodecError Header :=
  if input.length < DataPlane.headerBytes then .error .shortInput
  else if readBE 4 input 0 ≠ magic then .error .badMagic
  else if readBE 2 input 4 ≠ version then .error .badVersion
  else
    let size := readBE 2 input 6
    if size ≠ DataPlane.headerBytes ∨ input.length < size then .error .badHeaderSize
    else
      match PacketType.ofCode (readBE 2 input 8) with
      | none => .error .badPacketType
      | some packetType =>
        .ok
          { headerBytes := size
            packetType := packetType
            payloadFormat := readBE 2 input 10
            flags := readBE 4 input 12
            streamId := readBE 4 input 16
            runId := readBE 8 input 20
            shotId := readBE 8 input 28
            packetSequence := readBE 8 input 36
            frameId := readBE 4 input 44
            sampleOffset := readBE 4 input 48
            sampleCount := readBE 2 input 52
            sampleBytes := readBE 2 input 54
            timestampTicks := readBE 8 input 56 }

/-- Every field fits its place on the wire. -/
structure InRange (h : Header) : Prop where
  headerBytes : h.headerBytes = DataPlane.headerBytes
  payloadFormat : h.payloadFormat < 256 ^ 2
  flags : h.flags < 256 ^ 4
  streamId : h.streamId < 256 ^ 4
  runId : h.runId < 256 ^ 8
  shotId : h.shotId < 256 ^ 8
  packetSequence : h.packetSequence < 256 ^ 8
  frameId : h.frameId < 256 ^ 4
  sampleOffset : h.sampleOffset < 256 ^ 4
  sampleCount : h.sampleCount < 256 ^ 2
  sampleBytes : h.sampleBytes < 256 ^ 2
  timestampTicks : h.timestampTicks < 256 ^ 8

/-- The header is 64 bytes long, whatever it says. -/
@[simp] theorem length_bytes (h : Header) : h.bytes.length = DataPlane.headerBytes := by
  simp [bytes, DataPlane.headerBytes]

/-- A header whose fields fit is read back, whatever payload follows. -/
theorem decode_encode {h : Header} (hr : h.InRange) (payload : Bytes) :
    decode (h.bytes ++ payload) = .ok h := by
  have hlen : ¬ (h.bytes ++ payload).length < DataPlane.headerBytes := by simp
  have hm : magic % 256 ^ 4 = magic := rfl
  have hv : version % 256 ^ 2 = version := rfl
  have hs : DataPlane.headerBytes % 256 ^ 2 = DataPlane.headerBytes := rfl
  unfold decode
  rw [if_neg hlen]
  simp only [bytes, List.append_assoc] at hlen ⊢
  simp (disch := simp) only [readBE_skip, readBE_putBE, length_putBE, Nat.reduceSub]
  rw [hm, hv, hs, Nat.mod_eq_of_lt h.packetType.code_lt, Nat.mod_eq_of_lt hr.payloadFormat,
    Nat.mod_eq_of_lt hr.flags, Nat.mod_eq_of_lt hr.streamId, Nat.mod_eq_of_lt hr.runId,
    Nat.mod_eq_of_lt hr.shotId, Nat.mod_eq_of_lt hr.packetSequence, Nat.mod_eq_of_lt hr.frameId,
    Nat.mod_eq_of_lt hr.sampleOffset, Nat.mod_eq_of_lt hr.sampleCount,
    Nat.mod_eq_of_lt hr.sampleBytes, Nat.mod_eq_of_lt hr.timestampTicks]
  simp only [ne_eq, not_true_eq_false, if_false, false_or, hlen, PacketType.ofCode_code]
  rw [← hr.headerBytes]

/-- What is decoded fits its fields, and was long enough. -/
theorem decode_inRange {input : Bytes} {h : Header} (hd : decode input = .ok h) :
    h.InRange ∧ DataPlane.headerBytes ≤ input.length := by
  unfold decode at hd
  split at hd
  · cases hd
  split at hd
  · cases hd
  split at hd
  · cases hd
  dsimp only at hd
  split at hd
  · cases hd
  split at hd
  · cases hd
  next hlen _ _ hsize _ _ _ =>
    cases hd
    rw [not_or, not_not] at hsize
    refine ⟨⟨hsize.1, ?_, ?_, ?_, ?_, ?_, ?_, ?_, ?_, ?_, ?_, ?_⟩, Nat.not_lt.mp hlen⟩
    all_goals exact readBE_lt ..

end Header

/-! ## STREAM_INFO -/

structure StreamInfo where
  frameSamples : ℕ
  sampleRateNumerator : ℕ
  sampleRateDenominator : ℕ
  timestampRateNumerator : ℕ
  timestampRateDenominator : ℕ
  centerFrequencyHz : ℤ
  channelCount : ℕ
  componentBits : ℕ
  fractionBits : ℕ
  timestampClockId : ℕ
  configId : ℕ
  deriving DecidableEq, Repr

/-- The conversion of `int64_t` to `uint64_t`. -/
def toU64 (x : ℤ) : ℕ := (x % 2 ^ 64).toNat

/-- The conversion of `uint64_t` to `int64_t`. -/
def toI64 (n : ℕ) : ℤ := if n < 2 ^ 63 then n else n - 2 ^ 64

/-- A signed number survives the two's complement. -/
theorem toI64_toU64 {x : ℤ} (h₁ : -2 ^ 63 ≤ x) (h₂ : x < 2 ^ 63) : toI64 (toU64 x) = x := by
  unfold toI64 toU64
  split <;> omega

/-- Eight bytes are a signed number of 64 bits. -/
theorem toI64_range {n : ℕ} (h : n < 256 ^ 8) : -2 ^ 63 ≤ toI64 n ∧ toI64 n < 2 ^ 63 := by
  unfold toI64
  split <;> omega

theorem toU64_lt (x : ℤ) : toU64 x < 256 ^ 8 := by
  unfold toU64
  omega

namespace StreamInfo

/-- `qcrate_data_stream_info_encode` -/
def encode (i : StreamInfo) : Bytes :=
  putBE 2 version ++ putBE 2 streamInfoBytes ++ putBE 4 i.frameSamples ++
    putBE 8 i.sampleRateNumerator ++ putBE 8 i.sampleRateDenominator ++
    putBE 8 i.timestampRateNumerator ++ putBE 8 i.timestampRateDenominator ++
    putBE 8 (toU64 i.centerFrequencyHz) ++ putBE 2 i.channelCount ++ putBE 2 i.componentBits ++
    putBE 2 i.fractionBits ++ putBE 2 i.timestampClockId ++ putBE 8 i.configId

/-- `qcrate_data_stream_info_decode` -/
def decode (input : Bytes) : Except CodecError StreamInfo :=
  if input.length < streamInfoBytes then .error .shortInput
  else if readBE 2 input 0 ≠ version then .error .badVersion
  else if readBE 2 input 2 ≠ streamInfoBytes then .error .badObjectSize
  else
    .ok
      { frameSamples := readBE 4 input 4
        sampleRateNumerator := readBE 8 input 8
        sampleRateDenominator := readBE 8 input 16
        timestampRateNumerator := readBE 8 input 24
        timestampRateDenominator := readBE 8 input 32
        centerFrequencyHz := toI64 (readBE 8 input 40)
        channelCount := readBE 2 input 48
        componentBits := readBE 2 input 50
        fractionBits := readBE 2 input 52
        timestampClockId := readBE 2 input 54
        configId := readBE 8 input 56 }

structure InRange (i : StreamInfo) : Prop where
  frameSamples : i.frameSamples < 256 ^ 4
  sampleRateNumerator : i.sampleRateNumerator < 256 ^ 8
  sampleRateDenominator : i.sampleRateDenominator < 256 ^ 8
  timestampRateNumerator : i.timestampRateNumerator < 256 ^ 8
  timestampRateDenominator : i.timestampRateDenominator < 256 ^ 8
  centerFrequencyHz : -2 ^ 63 ≤ i.centerFrequencyHz ∧ i.centerFrequencyHz < 2 ^ 63
  channelCount : i.channelCount < 256 ^ 2
  componentBits : i.componentBits < 256 ^ 2
  fractionBits : i.fractionBits < 256 ^ 2
  timestampClockId : i.timestampClockId < 256 ^ 2
  configId : i.configId < 256 ^ 8

/-- The payload of STREAM_INFO has its fixed length. -/
@[simp] theorem length_encode (i : StreamInfo) : i.encode.length = streamInfoBytes := by
  simp [encode, streamInfoBytes]

theorem decode_encode {i : StreamInfo} (hr : i.InRange) : decode i.encode = .ok i := by
  have hlen : ¬ i.encode.length < streamInfoBytes := by simp
  have hv : version % 256 ^ 2 = version := rfl
  have hs : streamInfoBytes % 256 ^ 2 = streamInfoBytes := rfl
  unfold decode
  rw [if_neg hlen]
  simp only [encode, List.append_assoc]
  simp (disch := simp) only [readBE_skip, readBE_putBE, readBE_putBE_last, length_putBE,
    Nat.reduceSub]
  rw [hv, hs, Nat.mod_eq_of_lt hr.frameSamples, Nat.mod_eq_of_lt hr.sampleRateNumerator,
    Nat.mod_eq_of_lt hr.sampleRateDenominator, Nat.mod_eq_of_lt hr.timestampRateNumerator,
    Nat.mod_eq_of_lt hr.timestampRateDenominator, Nat.mod_eq_of_lt (toU64_lt _),
    toI64_toU64 hr.centerFrequencyHz.1 hr.centerFrequencyHz.2, Nat.mod_eq_of_lt hr.channelCount,
    Nat.mod_eq_of_lt hr.componentBits, Nat.mod_eq_of_lt hr.fractionBits,
    Nat.mod_eq_of_lt hr.timestampClockId, Nat.mod_eq_of_lt hr.configId]
  simp only [ne_eq, not_true_eq_false, if_false]

theorem decode_inRange {input : Bytes} {i : StreamInfo} (hd : decode input = .ok i) :
    i.InRange := by
  unfold decode at hd
  split at hd
  · cases hd
  split at hd
  · cases hd
  split at hd
  · cases hd
  next _ _ _ =>
    cases hd
    refine ⟨?_, ?_, ?_, ?_, ?_, toI64_range (readBE_lt ..), ?_, ?_, ?_, ?_, ?_⟩
    all_goals exact readBE_lt ..

end StreamInfo

/-! ## SHOT_END -/

structure ShotEnd where
  status : ℕ
  endFlags : ℕ
  totalFrames : ℕ
  totalSamples : ℕ
  totalDataPackets : ℕ
  firstPacketSequence : ℕ
  lastPacketSequence : ℕ
  payloadBytes : ℕ
  payloadCrc32 : ℕ
  deriving DecidableEq, Repr

namespace ShotEnd

/-- `qcrate_data_shot_end_encode` -/
def encode (e : ShotEnd) : Bytes :=
  putBE 4 e.status ++ putBE 4 e.endFlags ++ putBE 4 e.totalFrames ++ putBE 4 0 ++
    putBE 8 e.totalSamples ++ putBE 8 e.totalDataPackets ++ putBE 8 e.firstPacketSequence ++
    putBE 8 e.lastPacketSequence ++ putBE 8 e.payloadBytes ++ putBE 4 e.payloadCrc32 ++ putBE 4 0

/-- `qcrate_data_shot_end_decode` -/
def decode (input : Bytes) : Except CodecError ShotEnd :=
  if input.length < shotEndBytes then .error .shortInput
  else if readBE 4 input 12 ≠ 0 ∨ readBE 4 input 60 ≠ 0 then .error .badObjectSize
  else
    .ok
      { status := readBE 4 input 0
        endFlags := readBE 4 input 4
        totalFrames := readBE 4 input 8
        totalSamples := readBE 8 input 16
        totalDataPackets := readBE 8 input 24
        firstPacketSequence := readBE 8 input 32
        lastPacketSequence := readBE 8 input 40
        payloadBytes := readBE 8 input 48
        payloadCrc32 := readBE 4 input 56 }

structure InRange (e : ShotEnd) : Prop where
  status : e.status < 256 ^ 4
  endFlags : e.endFlags < 256 ^ 4
  totalFrames : e.totalFrames < 256 ^ 4
  totalSamples : e.totalSamples < 256 ^ 8
  totalDataPackets : e.totalDataPackets < 256 ^ 8
  firstPacketSequence : e.firstPacketSequence < 256 ^ 8
  lastPacketSequence : e.lastPacketSequence < 256 ^ 8
  payloadBytes : e.payloadBytes < 256 ^ 8
  payloadCrc32 : e.payloadCrc32 < 256 ^ 4

@[simp] theorem length_encode (e : ShotEnd) : e.encode.length = shotEndBytes := by
  simp [encode, shotEndBytes]

theorem decode_encode {e : ShotEnd} (hr : e.InRange) : decode e.encode = .ok e := by
  have hlen : ¬ e.encode.length < shotEndBytes := by simp
  unfold decode
  rw [if_neg hlen]
  simp only [encode, List.append_assoc]
  simp (disch := simp) only [readBE_skip, readBE_putBE, readBE_putBE_last, length_putBE,
    Nat.reduceSub]
  rw [Nat.mod_eq_of_lt hr.status, Nat.mod_eq_of_lt hr.endFlags, Nat.mod_eq_of_lt hr.totalFrames,
    Nat.mod_eq_of_lt hr.totalSamples, Nat.mod_eq_of_lt hr.totalDataPackets,
    Nat.mod_eq_of_lt hr.firstPacketSequence, Nat.mod_eq_of_lt hr.lastPacketSequence,
    Nat.mod_eq_of_lt hr.payloadBytes, Nat.mod_eq_of_lt hr.payloadCrc32]
  simp

theorem decode_inRange {input : Bytes} {e : ShotEnd} (hd : decode input = .ok e) :
    e.InRange := by
  unfold decode at hd
  split at hd
  · cases hd
  split at hd
  · cases hd
  next _ _ =>
    cases hd
    refine ⟨?_, ?_, ?_, ?_, ?_, ?_, ?_, ?_, ?_⟩
    all_goals exact readBE_lt ..

end ShotEnd

end QCrate.DataPlane
