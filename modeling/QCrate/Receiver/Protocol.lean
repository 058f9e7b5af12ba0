import QCrate.DataPlane.Packetizer
import QCrate.Host.Protocol

/-!
# The receiver: Data Plane codec

`validate_payload` and `Packet` of `qcrate_data_protocol.py`, on the fields as the C structures
have them. The Python codec reads the same objects as the C one and rejects more of them: a header
with an unknown payload format, metadata of another length than its object, a zero denominator, an
unknown timestamp clock.

* `decodeHeader_eq_ok`, `decodeStreamInfo_eq_ok`, `decodeShotEnd_eq_ok` — the objects it accepts
  are those the C codec accepts that pass these tests.
-/

namespace QCrate.Receiver

open QCrate.Lib QCrate.DataPlane
open QCrate.Host (ValueError)

/-- The largest code of `TimestampClock`. -/
def timestampClockMax : ℕ := 3

/-- `Header.decode` -/
def decodeHeader (data : Bytes) : Except ValueError Header :=
  (Host.Header.decode data).map Host.Header.view

/-- `SAMPLE_BYTES` -/
def sampleBytesOf (payloadFormat : ℕ) : ℕ := if payloadFormat = formatNone then 0 else 4

/-- The payload size of a packet without samples. -/
def expectedPayload : PacketType → ℕ
  | .streamInfo => streamInfoBytes
  | .shotEnd => shotEndBytes
  | .heartbeat | .data => 0

/-- `validate_payload` -/
def validatePayload (header : Header) (payload : Bytes) : Except ValueError Unit :=
  let carriesFormat := header.packetType = .streamInfo ∨ header.packetType = .data
  if carriesFormat ∧ header.payloadFormat = formatNone then
    .error (.requiresSampleFormat header.packetType)
  else if ¬ carriesFormat ∧ header.payloadFormat ≠ formatNone then
    .error (.requiresFormatNone header.packetType)
  else if header.sampleBytes ≠ sampleBytesOf header.payloadFormat then
    .error (.bytesPerSample header.payloadFormat)
  else if header.flags &&& flagTimestampValid = 0 ∧ header.timestampTicks ≠ 0 then
    .error .ticksWithoutFlag
  else if header.packetType = .data then
    if header.sampleCount = 0 then .error .zeroSamples
    else if payload.length ≠ header.sampleCount * header.sampleBytes then
      .error (.dataPayload payload.length (header.sampleCount * header.sampleBytes))
    else if header.flags &&& flagFrameStart ≠ 0 ∧ header.sampleOffset ≠ 0 then
      .error .frameStartOffset
    else .ok ()
  else if header.sampleCount ≠ 0 then .error (.nonzeroSampleCount header.packetType)
  else if header.frameId ≠ 0 ∨ header.sampleOffset ≠ 0 then
    .error (.identifiesFrame header.packetType)
  else if payload.length ≠ expectedPayload header.packetType then
    .error (.payloadLength header.packetType payload.length (expectedPayload header.packetType))
  else .ok ()

/-- `Packet.decode` -/
def decodePacket (datagram : Bytes) : Except ValueError Packet :=
  if maxDatagram < datagram.length then .error .datagramTooLong
  else
    match decodeHeader datagram with
    | .error e => .error e
    | .ok header =>
      let payload := datagram.drop header.headerBytes
      match validatePayload header payload with
      | .error e => .error e
      | .ok _ => .ok ⟨header, payload⟩

/-- `StreamInfo.decode` -/
def decodeStreamInfo (payload : Bytes) : Except ValueError StreamInfo :=
  (Host.StreamInfo.decode payload).map Host.StreamInfo.view

/-- `ShotEnd.decode` -/
def decodeShotEnd (payload : Bytes) : Except ValueError ShotEnd := Host.ShotEnd.decode payload

/-! ## What the two codecs agree on -/

theorem map_eq_ok {ε α β : Type} {x : Except ε α} {f : α → β} {b : β} :
    x.map f = .ok b ↔ ∃ a, x = .ok a ∧ f a = b := by
  cases x with
  | error e => simp [Except.map]
  | ok a => simp [Except.map]

theorem decodeHeader_eq_ok {data : Bytes} {h : Header} :
    decodeHeader data = .ok h ↔ Header.decode data = .ok h ∧ h.payloadFormat ≤ formatIqS16Le := by
  rw [decodeHeader, map_eq_ok]
  constructor
  · rintro ⟨header, hd, rfl⟩
    exact ⟨Host.Header.decode_eq_ok_iff.mp hd,
      (Host.PayloadFormat.exists_ofCode_iff _).mp ⟨_, Host.PayloadFormat.ofCode_code _⟩⟩
  · rintro ⟨hd, hformat⟩
    obtain ⟨header, rfl⟩ := Host.Header.exists_view hformat
    exact ⟨header, Host.Header.decode_eq_ok_iff.mpr hd, rfl⟩

theorem decodeStreamInfo_eq_ok {payload : Bytes} {i : StreamInfo} :
    decodeStreamInfo payload = .ok i ↔ StreamInfo.decode payload = .ok i ∧
      payload.length = streamInfoBytes ∧ i.sampleRateDenominator ≠ 0 ∧
      i.timestampRateDenominator ≠ 0 ∧ i.timestampClockId ≤ timestampClockMax := by
  rw [decodeStreamInfo, map_eq_ok]
  constructor
  · rintro ⟨info, hd, rfl⟩
    obtain ⟨hlen, hcode, hrate⟩ := Host.StreamInfo.decode_eq_ok_iff.mp hd
    exact ⟨hcode, hlen, hrate⟩
  · rintro ⟨hcode, hlen, hrate⟩
    obtain ⟨info, rfl⟩ := Host.StreamInfo.exists_view hrate.2.2
    exact ⟨info, Host.StreamInfo.decode_eq_ok_iff.mpr ⟨hlen, hcode, hrate⟩, rfl⟩

theorem decodeShotEnd_eq_ok {payload : Bytes} {e : ShotEnd} :
    decodeShotEnd payload = .ok e ↔
      ShotEnd.decode payload = .ok e ∧ payload.length = shotEndBytes :=
  Host.ShotEnd.decode_eq_ok_iff.trans and_comm

theorem decodePacket_eq_ok {datagram : Bytes} {p : Packet} :
    decodePacket datagram = .ok p ↔ datagram.length ≤ maxDatagram ∧
      decodeHeader datagram = .ok p.header ∧ p.payload = datagram.drop p.header.headerBytes ∧
      validatePayload p.header p.payload = .ok () := by
  unfold decodePacket
  split
  · next hlen => simp [Nat.not_le.mpr hlen]
  next hlen =>
    cases decodeHeader datagram with
    | error e => simp
    | ok header =>
      dsimp only
      split
      · next e he =>
        refine ⟨nofun, ?_⟩
        rintro ⟨-, hh, hp, hv⟩
        cases hh
        rw [hp, he] at hv
        cases hv
      · next hv =>
        constructor
        · intro h
          cases h
          exact ⟨Nat.not_lt.mp hlen, rfl, rfl, hv⟩
        · rintro ⟨-, hh, hp, -⟩
          cases hh
          rw [← hp]

end QCrate.Receiver
