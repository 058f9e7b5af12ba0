import QCrate.DataPlane.Protocol

/-!
# The host's wire codec

`qcrate_data_protocol.py`. Formats and clocks are enumerations there, so a decoder refuses a code
that is not registered, and STREAM_INFO with a zero denominator is refused both ways. The C
decoders look at neither.

* `Header.decode_eq_ok_iff`, `StreamInfo.decode_eq_ok_iff`, `ShotEnd.decode_eq_ok_iff` — what the
  host accepts, in terms of what the C decoders accept.
* `Header.encode_eq`, `StreamInfo.encode_eq`, `ShotEnd.encode_eq` — the encoders agree.
-/

namespace QCrate.Host

open QCrate.Lib

abbrev Bytes := DataPlane.Bytes

abbrev PacketType := DataPlane.PacketType

/-! ## Enumerations -/

inductive PayloadFormat where
  | none | counterU32Le | iqS16Le
  deriving DecidableEq, Repr

namespace PayloadFormat

def code : PayloadFormat → ℕ
  | none => 0
  | counterU32Le => 1
  | iqS16Le => 2

/-- `PayloadFormat(value)` -/
def ofCode : ℕ → Option PayloadFormat
  | 0 => some none
  | 1 => some counterU32Le
  | 2 => some iqS16Le
  | _ => Option.none

/-- `SAMPLE_BYTES` -/
def sampleBytes : PayloadFormat → ℕ
  | none => 0
  | counterU32Le => 4
  | iqS16Le => 4

@[simp] theorem ofCode_code (f : PayloadFormat) : ofCode f.code = some f := by
  cases f <;> rfl

theorem code_of_ofCode {n : ℕ} {f : PayloadFormat} (h : ofCode n = some f) : f.code = n := by
  unfold ofCode at h
  split at h <;> cases h <;> rfl

theorem exists_ofCode_iff (n : ℕ) : (∃ f, ofCode n = some f) ↔ n ≤ 2 := by
  match n with
  | 0 | 1 | 2 => simp [ofCode]
  | n + 3 => simp [ofCode]

end PayloadFormat

inductive TimestampClock where
  | unspecified | qcrateTimebase | taiNs | monotonicNs
  deriving DecidableEq, Repr

namespace TimestampClock

def code : TimestampClock → ℕ
  | unspecified => 0
  | qcrateTimebase => 1
  | taiNs => 2
  | monotonicNs => 3

/-- `TimestampClock(value)` -/
def ofCode : ℕ → Option TimestampClock
  | 0 => some unspecified
  | 1 => some qcrateTimebase
  | 2 => some taiNs
  | 3 => some monotonicNs
  | _ => none

@[simp] theorem ofCode_code (c : TimestampClock) : ofCode c.code = some c := by
  cases c <;> rfl

theorem code_of_ofCode {n : ℕ} {c : TimestampClock} (h : ofCode n = some c) : c.code = n := by
  unfold ofCode at h
  split at h <;> cases h <;> rfl

theorem exists_ofCode_iff (n : ℕ) : (∃ c, ofCode n = some c) ↔ n ≤ 3 := by
  match n with
  | 0 | 1 | 2 | 3 => simp [ofCode]
  | n + 4 => simp [ofCode]

end TimestampClock

/-! ## Errors and fields -/

/-- The `ValueError`s of the codec, with what their texts mention. -/
inductive ValueError where
  | doesNotFit (name : String) (bits : ℕ)
  | shortHeader
  | badMagic (magic : ℕ)
  | unsupportedVersion (version : ℕ)
  | headerBytes
  | unsupportedPacketType (code : ℕ)
  | unsupportedPayloadFormat (code : ℕ)
  | datagramTooLong
  | requiresSampleFormat (packetType : PacketType)
  | requiresFormatNone (packetType : PacketType)
  | bytesPerSample (payloadFormat : ℕ)
  | ticksWithoutFlag
  | zeroSamples
  | dataPayload (actual expected : ℕ)
  | frameStartOffset
  | nonzeroSampleCount (packetType : PacketType)
  | identifiesFrame (packetType : PacketType)
  | payloadLength (packetType : PacketType) (actual expected : ℕ)
  | streamInfoLength
  | streamInfoVersion
  | zeroDenominator
  | centerFrequency
  | unsupportedClock (clock : ℕ)
  | shotEndLength
  | shotEndReserved
  deriving DecidableEq, Repr

/-- `unsigned` -/
def unsigned (value bits : ℕ) (name : String) : Except ValueError ℕ :=
  if value < 2 ^ bits then .ok value else .error (.doesNotFit name bits)

/-- The fields of a `struct.pack` call: bytes, value and name of each. -/
def pack : List (ℕ × ℕ × String) → Except ValueError Bytes
  | [] => .ok []
  | (width, value, name) :: rest => do
    let value ← unsigned value (8 * width) name
    return putBE width value ++ (← pack rest)

theorem unsigned_ok {value width : ℕ} (h : value < 256 ^ width) (name : String) :
    unsigned value (8 * width) name = .ok value := by
  refine if_pos ?_
  rw [pow_mul]
  exact h

/-- Fields that fit are written one after the other. -/
theorem pack_eq {fields : List (ℕ × ℕ × String)} (h : ∀ f ∈ fields, f.2.1 < 256 ^ f.1) :
    pack fields = .ok (fields.flatMap fun f => putBE f.1 f.2.1) := by
  induction fields with
  | nil => rfl
  | cons f rest ih =>
    obtain ⟨width, value, name⟩ := f
    have hrest := ih fun g hg => h g (List.mem_cons_of_mem _ hg)
    rw [pack, unsigned_ok (h _ List.mem_cons_self), hrest]
    rfl

/-! ## Header -/

structure Header where
  packetType : PacketType
  payloadFormat : PayloadFormat
  flags : ℕ
  streamId : ℕ
  runId : ℕ
  shotId : ℕ
  packetSequence : ℕ
  frameId : ℕ := 0
  sampleOffset : ℕ := 0
  sampleCount : ℕ := 0
  sampleBytes : ℕ := 0
  timestampTicks : ℕ := 0
  headerBytes : ℕ := DataPlane.headerBytes
  deriving DecidableEq, Repr

namespace Header

def encode (h : Header) : Except ValueError Bytes := do
  let encoded ← pack
    [(4, DataPlane.magic, "magic"), (2, DataPlane.version, "version"),
      (2, h.headerBytes, "header_bytes"), (2, h.packetType.code, "packet_type"),
      (2, h.payloadFormat.code, "payload_format"), (4, h.flags, "flags"),
      (4, h.streamId, "stream_id"), (8, h.runId, "run_id"), (8, h.shotId, "shot_id"),
      (8, h.packetSequence, "packet_sequence"), (4, h.frameId, "frame_id"),
      (4, h.sampleOffset, "sample_offset"), (2, h.sampleCount, "sample_count"),
      (2, h.sampleBytes, "sample_bytes"), (8, h.timestampTicks, "timestamp_ticks")]
  if h.headerBytes ≠ DataPlane.headerBytes then .error .headerBytes else .ok encoded

def decode (data : Bytes) : Except ValueError Header :=
  if data.length < DataPlane.headerBytes then .error .shortHeader
  else if readBE 4 data 0 ≠ DataPlane.magic then .error (.badMagic (readBE 4 data 0))
  else if readBE 2 data 4 ≠ DataPlane.version then .error (.unsupportedVersion (readBE 2 data 4))
  else if readBE 2 data 6 ≠ DataPlane.headerBytes then .error .headerBytes
  else
    match DataPlane.PacketType.ofCode (readBE 2 data 8),
      PayloadFormat.ofCode (readBE 2 data 10) with
    | none, _ => .error (.unsupportedPacketType (readBE 2 data 8))
    | some _, none => .error (.unsupportedPayloadFormat (readBE 2 data 10))
    | some packetType, some payloadFormat =>
      .ok
        { packetType := packetType
          payloadFormat := payloadFormat
          flags := readBE 4 data 12
          streamId := readBE 4 data 16
          runId := readBE 8 data 20
          shotId := readBE 8 data 28
          packetSequence := readBE 8 data 36
          frameId := readBE 4 data 44
          sampleOffset := readBE 4 data 48
          sampleCount := readBE 2 data 52
          sampleBytes := readBE 2 data 54
          timestampTicks := readBE 8 data 56
          headerBytes := readBE 2 data 6 }

/-- The fields as the C structure has them. -/
def view (h : Header) : DataPlane.Header :=
  { headerBytes := h.headerBytes, packetType := h.packetType
    payloadFormat := h.payloadFormat.code, flags := h.flags, streamId := h.streamId
    runId := h.runId, shotId := h.shotId, packetSequence := h.packetSequence
    frameId := h.frameId, sampleOffset := h.sampleOffset, sampleCount := h.sampleCount
    sampleBytes := h.sampleBytes, timestampTicks := h.timestampTicks }

theorem view_injective : Function.Injective view := by
  rintro ⟨⟩ ⟨⟩ h
  simp only [view, DataPlane.Header.mk.injEq] at h
  obtain ⟨rfl, rfl, hf, rfl, rfl, rfl, rfl, rfl, rfl, rfl, rfl, rfl, rfl⟩ := h
  have hformat := congrArg PayloadFormat.ofCode hf
  rw [PayloadFormat.ofCode_code, PayloadFormat.ofCode_code] at hformat
  cases hformat
  rfl

/-- The host accepts a header when the C decoder does and its format is registered. -/
theorem decode_eq_ok_iff {data : Bytes} {h : Header} :
    decode data = .ok h ↔ DataPlane.Header.decode data = .ok h.view := by
  constructor
  · intro hd
    unfold decode at hd
    split at hd
    · cases hd
    split at hd
    · cases hd
    split at hd
    · cases hd
    split at hd
    · cases hd
    next hlen hmagic hversion hsize =>
      split at hd
      · cases hd
      · cases hd
      · next packetType payloadFormat htype hformat =>
        cases hd
        have hsize' : ¬ (readBE 2 data 6 ≠ DataPlane.headerBytes ∨
            data.length < readBE 2 data 6) := by
          rw [not_not.mp hsize]
          omega
        unfold DataPlane.Header.decode
        rw [if_neg hlen, if_neg hmagic, if_neg hversion]
        dsimp only
        rw [if_neg hsize', htype]
        simp only [view, PayloadFormat.code_of_ofCode hformat]
  · intro hd
    unfold DataPlane.Header.decode at hd
    split at hd
    · cases hd
    split at hd
    · cases hd
    split at hd
    · cases hd
    dsimp only at hd
    split at hd
    · cases hd
    split at hd
    · cases hd
    next hlen hmagic hversion hsize _ packetType htype =>
      rw [not_or, not_not] at hsize
      have hview := Except.ok.inj hd
      have hformat : readBE 2 data 10 = h.payloadFormat.code :=
        congrArg DataPlane.Header.payloadFormat hview
      unfold decode
      rw [if_neg hlen, if_neg hmagic, if_neg hversion, if_neg (not_not.mpr hsize.1), htype,
        hformat, PayloadFormat.ofCode_code]
      refine congrArg Except.ok (view_injective ?_)
      rw [← hview]
      simp only [view, hformat]

/-- The header that shows a C header whose format is registered. -/
theorem exists_view {c : DataPlane.Header} (hc : c.payloadFormat ≤ 2) :
    ∃ h : Header, h.view = c := by
  obtain ⟨f, hf⟩ := (PayloadFormat.exists_ofCode_iff _).mpr hc
  refine ⟨{ c with payloadFormat := f }, ?_⟩
  simp only [view, PayloadFormat.code_of_ofCode hf]

/-- A header that fits the wire has the encoding of the C header. -/
theorem encode_eq {h : Header} (hr : h.view.InRange) : h.encode = .ok h.view.bytes := by
  have hb : h.headerBytes = DataPlane.headerBytes := hr.headerBytes
  have hm : DataPlane.magic < 256 ^ 4 := by decide
  have hv : DataPlane.version < 256 ^ 2 := by decide
  have hs : h.headerBytes < 256 ^ 2 := by
    rw [hb]
    decide
  unfold encode
  rw [pack_eq]
  · refine (if_neg (not_not.mpr hb)).trans (congrArg Except.ok ?_)
    simp [view, DataPlane.Header.bytes, hb]
  · simp only [List.forall_mem_cons, List.not_mem_nil, false_imp_iff, implies_true, and_true]
    exact ⟨hm, hv, hs, h.packetType.code_lt, hr.payloadFormat, hr.flags, hr.streamId, hr.runId,
      hr.shotId, hr.packetSequence, hr.frameId, hr.sampleOffset, hr.sampleCount, hr.sampleBytes,
      hr.timestampTicks⟩

end Header

/-! ## STREAM_INFO -/

structure StreamInfo where
  frameSamples : ℕ
  sampleRateNumerator : ℕ
  sampleRateDenominator : ℕ
  timestampRateNumerator : ℕ
  timestampRateDenominator : ℕ
  centerFrequencyHz : ℤ
  channelCount : ℕ
  componentBits : ℕ
  fractionBits : ℕ
  timestampClockId : TimestampClock
  configId : ℕ
  deriving DecidableEq, Repr

namespace StreamInfo

def encode (i : StreamInfo) : Except ValueError Bytes :=
  if i.sampleRateDenominator = 0 ∨ i.timestampRateDenominator = 0 then .error .zeroDenominator
  else if ¬ (-2 ^ 63 ≤ i.centerFrequencyHz ∧ i.centerFrequencyHz < 2 ^ 63) then
    .error .centerFrequency
  else
    pack
      [(2, DataPlane.version, "version"), (2, DataPlane.streamInfoBytes, "size"),
        (4, i.frameSamples, "frame_samples"),
        (8, i.sampleRateNumerator, "sample_rate_numerator"),
        (8, i.sampleRateDenominator, "sample_rate_denominator"),
        (8, i.timestampRateNumerator, "timestamp_rate_numerator"),
        (8, i.timestampRateDenominator, "timestamp_rate_denominator"),
        (8, DataPlane.toU64 i.centerFrequencyHz, "center_frequency_hz"),
        (2, i.channelCount, "channel_count"), (2, i.componentBits, "component_bits"),
        (2, i.fractionBits, "fraction_bits"),
        (2, i.timestampClockId.code, "timestamp_clock_id"), (8, i.configId, "config_id")]

def decode (payload : Bytes) : Except ValueError StreamInfo :=
  if payload.length ≠ DataPlane.streamInfoBytes then .error .streamInfoLength
  else if readBE 2 payload 0 ≠ DataPlane.version ∨
      readBE 2 payload 2 ≠ DataPlane.streamInfoBytes then .error .streamInfoVersion
  else if readBE 8 payload 16 = 0 ∨ readBE 8 payload 32 = 0 then .error .zeroDenominator
  else
    match TimestampClock.ofCode (readBE 2 payload 54) with
    | none => .error (.unsupportedClock (readBE 2 payload 54))
    | some clock =>
      .ok
        { frameSamples := readBE 4 payload 4
          sampleRateNumerator := readBE 8 payload 8
          sampleRateDenominator := readBE 8 payload 16
          timestampRateNumerator := readBE 8 payload 24
          timestampRateDenominator := readBE 8 payload 32
          centerFrequencyHz := DataPlane.toI64 (readBE 8 payload 40)
          channelCount := readBE 2 payload 48
          componentBits := readBE 2 payload 50
          fractionBits := readBE 2 payload 52
          timestampClockId := clock
          configId := readBE 8 payload 56 }

/-- The fields as the C structure has them. -/
def view (i : StreamInfo) : DataPlane.StreamInfo :=
  { frameSamples := i.frameSamples, sampleRateNumerator := i.sampleRateNumerator
    sampleRateDenominator := i.sampleRateDenominator
    timestampRateNumerator := i.timestampRateNumerator
    timestampRateDenominator := i.timestampRateDenominator
    centerFrequencyHz := i.centerFrequencyHz, channelCount := i.channelCount
    componentBits := i.componentBits, fractionBits := i.fractionBits
    timestampClockId := i.timestampClockId.code, configId := i.configId }

theorem view_injective : Function.Injective view := by
  rintro ⟨⟩ ⟨⟩ h
  simp only [view, DataPlane.StreamInfo.mk.injEq] at h
  obtain ⟨rfl, rfl, rfl, rfl, rfl, rfl, rfl, rfl, rfl, hc, rfl⟩ := h
  have hclock := congrArg TimestampClock.ofCode hc
  rw [TimestampClock.ofCode_code, TimestampClock.ofCode_code] at hclock
  cases hclock
  rfl

/-- What the host asks of an object beyond what the C decoder does. -/
def Registered (c : DataPlane.StreamInfo) : Prop :=
  c.sampleRateDenominator ≠ 0 ∧ c.timestampRateDenominator ≠ 0 ∧ c.timestampClockId ≤ 3

/-- On 64 bytes the host accepts what the C decoder does and `Registered` says. -/
theorem decode_eq_ok_iff {payload : Bytes} {i : StreamInfo} :
    decode payload = .ok i ↔ payload.length = DataPlane.streamInfoBytes ∧
      DataPlane.StreamInfo.decode payload = .ok i.view ∧ Registered i.view := by
  constructor
  · intro hd
    unfold decode at hd
    split at hd
    · cases hd
    split at hd
    · cases hd
    split at hd
    · cases hd
    next hlen hobject hrate =>
      split at hd
      · cases hd
      · next clock hclock =>
        cases hd
        rw [not_not] at hlen
        simp only [not_or, not_not] at hobject hrate
        refine ⟨hlen, ?_, hrate.1, hrate.2, ?_⟩
        · unfold DataPlane.StreamInfo.decode
          rw [if_neg (by omega), if_neg (not_not.mpr hobject.1), if_neg (not_not.mpr hobject.2)]
          simp only [view, TimestampClock.code_of_ofCode hclock]
        · simp only [view, TimestampClock.code_of_ofCode hclock]
          exact (TimestampClock.exists_ofCode_iff _).mp ⟨clock, hclock⟩
  · rintro ⟨hlen, hd, hrate⟩
    unfold DataPlane.StreamInfo.decode at hd
    split at hd
    · cases hd
    split at hd
    · cases hd
    split at hd
    · cases hd
    next hshort hversion hsize =>
      have hview := Except.ok.inj hd
      have hclock : readBE 2 payload 54 = i.timestampClockId.code :=
        congrArg DataPlane.StreamInfo.timestampClockId hview
      rw [← hview] at hrate
      unfold decode
      rw [if_neg (not_not.mpr hlen), if_neg (by rw [not_or]; exact ⟨hversion, hsize⟩),
        if_neg (by rw [not_or]; exact ⟨hrate.1, hrate.2.1⟩), hclock, TimestampClock.ofCode_code]
      refine congrArg Except.ok (view_injective ?_)
      rw [← hview]
      simp only [view, hclock]

theorem exists_view {c : DataPlane.StreamInfo} (hc : c.timestampClockId ≤ 3) :
    ∃ i : StreamInfo, i.view = c := by
  obtain ⟨k, hk⟩ := (TimestampClock.exists_ofCode_iff _).mpr hc
  refine ⟨{ c with timestampClockId := k }, ?_⟩
  simp only [view, TimestampClock.code_of_ofCode hk]

theorem encode_eq {i : StreamInfo} (hr : i.view.InRange) (hrate : Registered i.view) :
    i.encode = .ok i.view.encode := by
  have hv : DataPlane.version < 256 ^ 2 := by decide
  have hs : DataPlane.streamInfoBytes < 256 ^ 2 := by decide
  have hcenter : -2 ^ 63 ≤ i.centerFrequencyHz ∧ i.centerFrequencyHz < 2 ^ 63 :=
    hr.centerFrequencyHz
  unfold encode
  rw [if_neg (by rw [not_or]; exact ⟨hrate.1, hrate.2.1⟩), if_neg (not_not.mpr hcenter), pack_eq]
  · simp [view, DataPlane.StreamInfo.encode]
  · simp only [List.forall_mem_cons, List.not_mem_nil, false_imp_iff, implies_true, and_true]
    exact ⟨hv, hs, hr.frameSamples, hr.sampleRateNumerator, hr.sampleRateDenominator,
      hr.timestampRateNumerator, hr.timestampRateDenominator, DataPlane.toU64_lt _,
      hr.channelCount, hr.componentBits, hr.fractionBits, hr.timestampClockId, hr.configId⟩

end StreamInfo

/-! ## SHOT_END -/

/-- The host's class has the integer fields of the C structure. -/
abbrev ShotEnd := DataPlane.ShotEnd

namespace ShotEnd

def encode (e : ShotEnd) : Except ValueError Bytes :=
  pack
    [(4, e.status, "status"), (4, e.endFlags, "end_flags"), (4, e.totalFrames, "total_frames"),
      (4, 0, "reserved"), (8, e.totalSamples, "total_samples"),
      (8, e.totalDataPackets, "total_data_packets"),
      (8, e.firstPacketSequence, "first_packet_sequence"),
      (8, e.lastPacketSequence, "last_packet_sequence"), (8, e.payloadBytes, "payload_bytes"),
      (4, e.payloadCrc32, "payload_crc32"), (4, 0, "reserved")]

def decode (payload : Bytes) : Except ValueError ShotEnd :=
  if payload.length ≠ DataPlane.shotEndBytes then .error .shotEndLength
  else if readBE 4 payload 12 ≠ 0 ∨ readBE 4 payload 60 ≠ 0 then .error .shotEndReserved
  else
    .ok
      { status := readBE 4 payload 0
        endFlags := readBE 4 payload 4
        totalFrames := readBE 4 payload 8
        totalSamples := readBE 8 payload 16
        totalDataPackets := readBE 8 payload 24
        firstPacketSequence := readBE 8 payload 32
        lastPacketSequence := readBE 8 payload 40
        payloadBytes := readBE 8 payload 48
        payloadCrc32 := readBE 4 payload 56 }

theorem decode_eq_ok_iff {payload : Bytes} {e : ShotEnd} :
    decode payload = .ok e ↔
      payload.length = DataPlane.shotEndBytes ∧ DataPlane.ShotEnd.decode payload = .ok e := by
  unfold decode DataPlane.ShotEnd.decode
  by_cases hlen : payload.length = DataPlane.shotEndBytes
  · rw [if_neg (not_not.mpr hlen), if_neg (Nat.not_lt.mpr hlen.ge), and_iff_right hlen]
    by_cases hreserved : readBE 4 payload 12 ≠ 0 ∨ readBE 4 payload 60 ≠ 0
    · rw [if_pos hreserved, if_pos hreserved]
      exact ⟨nofun, nofun⟩
    · rw [if_neg hreserved, if_neg hreserved, Except.ok.injEq, Except.ok.injEq]
  · rw [if_pos hlen]
    exact ⟨nofun, fun h => absurd h.1 hlen⟩

theorem encode_eq {e : ShotEnd} (hr : e.InRange) :
    encode e = .ok (DataPlane.ShotEnd.encode e) := by
  have hz : 0 < 256 ^ 4 := by decide
  unfold encode
  rw [pack_eq]
  · simp [DataPlane.ShotEnd.encode]
  · simp only [List.forall_mem_cons, List.not_mem_nil, false_imp_iff, implies_true, and_true]
    exact ⟨hr.status, hr.endFlags, hr.totalFrames, hz, hr.totalSamples, hr.totalDataPackets,
      hr.firstPacketSequence, hr.lastPacketSequence, hr.payloadBytes, hr.payloadCrc32, hz⟩

end ShotEnd

end QCrate.Host
