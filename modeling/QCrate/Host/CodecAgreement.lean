import QCrate.Host.Protocol
import QCrate.Lib.WireFormat

/-!
# One wire format in two languages

Every registered value is encoded and decoded alike by the C codec and by the host's. The C
decoders do not look at the format of a header, the clock of STREAM_INFO or its denominators, and
exactly there the two part.

* `codecs_agree_iff` — the byte strings on which the two codecs are codecs of one format.
-/

namespace QCrate.Host

open QCrate.Lib

/-- The header codecs of the two languages on one byte string. -/
def SameHeader (b : Bytes) : Prop :=
  SameFormat DataPlane.Header.decode DataPlane.Header.encode Header.decode Header.encode
    Header.view b

/-- The STREAM_INFO codecs; the C encoder cannot fail. -/
def SameStreamInfo (b : Bytes) : Prop :=
  SameFormat DataPlane.StreamInfo.decode (fun i => .ok i.encode) StreamInfo.decode
    StreamInfo.encode StreamInfo.view b

/-- The SHOT_END codecs. -/
def SameShotEnd (b : Bytes) : Prop :=
  SameFormat DataPlane.ShotEnd.decode (fun e => .ok e.encode) ShotEnd.decode ShotEnd.encode id b

/-! ## Headers -/

/-- The fixed fields of a header are those of version 1. -/
def HeaderBytes (b : Bytes) : Prop :=
  DataPlane.headerBytes ≤ b.length ∧ readBE 4 b 0 = DataPlane.magic ∧
    readBE 2 b 4 = DataPlane.version ∧ readBE 2 b 6 = DataPlane.headerBytes ∧
    1 ≤ readBE 2 b 8 ∧ readBE 2 b 8 ≤ 4

/-- The types are the codes from one to four. -/
theorem exists_packetType_iff (n : ℕ) :
    (∃ t, DataPlane.PacketType.ofCode n = some t) ↔ 1 ≤ n ∧ n ≤ 4 := by
  match n with
  | 0 | 1 | 2 | 3 | 4 => simp [DataPlane.PacketType.ofCode]
  | n + 5 => simp [DataPlane.PacketType.ofCode]

/-- The C decoder accepts a header for its fixed fields, and takes the format as it is. -/
theorem decode_header_iff (b : Bytes) :
    Accepted (DataPlane.Header.decode b) ↔ HeaderBytes b := by
  rw [HeaderBytes, ← exists_packetType_iff]
  unfold DataPlane.Header.decode
  constructor
  · rintro ⟨h, hd⟩
    split at hd
    · cases hd
    split at hd
    · cases hd
    split at hd
    · cases hd
    dsimp only at hd
    split at hd
    · cases hd
    split at hd
    · cases hd
    next hlen hmagic hversion hsize _ packetType htype =>
      rw [not_or, not_not] at hsize
      exact ⟨Nat.not_lt.mp hlen, not_not.mp hmagic, not_not.mp hversion, hsize.1, _, htype⟩
  · rintro ⟨hlen, hmagic, hversion, hsize, packetType, htype⟩
    rw [if_neg (Nat.not_lt.mpr hlen), if_neg (not_not.mpr hmagic), if_neg (not_not.mpr hversion)]
    dsimp only
    rw [if_neg (by rw [hsize, not_or, not_not]; exact ⟨rfl, Nat.not_lt.mpr hlen⟩), htype]
    exact ⟨_, rfl⟩

theorem decode_format {b : Bytes} {c : DataPlane.Header} (h : DataPlane.Header.decode b = .ok c) :
    c.payloadFormat = readBE 2 b 10 := by
  unfold DataPlane.Header.decode at h
  split at h
  · cases h
  split at h
  · cases h
  split at h
  · cases h
  dsimp only at h
  split at h
  · cases h
  split at h
  · cases h
  · cases h
    rfl

/-- What the host decodes, both encode to the same bytes. -/
theorem header_roundTrip {b : Bytes} {h : Header} (hd : Header.decode b = .ok h) :
    RoundTrip DataPlane.Header.decode DataPlane.Header.encode Header.decode Header.encode
      h.view h := by
  have hr := (DataPlane.Header.decode_inRange (Header.decode_eq_ok_iff.mp hd)).1
  have hc : DataPlane.Header.decode h.view.bytes = .ok h.view := by
    have hcode := DataPlane.Header.decode_encode hr []
    rwa [List.append_nil] at hcode
  refine ⟨h.view.bytes, ?_, Header.encode_eq hr, hc, Header.decode_eq_ok_iff.mpr hc⟩
  exact if_neg fun hn => hn.2 hr.headerBytes

/-- The two decoders of a header differ in the payload format alone. -/
theorem sameHeader_iff (b : Bytes) : SameHeader b ↔ (HeaderBytes b → readBE 2 b 10 ≤ 2) := by
  have hstrict : ∀ b h, Header.decode b = .ok h → DataPlane.Header.decode b = .ok h.view :=
    fun b h => Header.decode_eq_ok_iff.mp
  rw [SameHeader, sameFormat_iff hstrict fun b h => header_roundTrip, decode_header_iff]
  constructor
  · intro hacc hb
    obtain ⟨h, hd⟩ := hacc hb
    rw [← decode_format (Header.decode_eq_ok_iff.mp hd)]
    exact (PayloadFormat.exists_ofCode_iff _).mp ⟨_, PayloadFormat.ofCode_code _⟩
  · intro hformat hb
    obtain ⟨c, hc⟩ := (decode_header_iff b).mpr hb
    obtain ⟨h, rfl⟩ := Header.exists_view ((decode_format hc).trans_le (hformat hb))
    exact ⟨h, Header.decode_eq_ok_iff.mpr hc⟩

/-! ## Metadata objects -/

/-- The fixed fields of a STREAM_INFO object are those of version 1. -/
def StreamInfoBytes (b : Bytes) : Prop :=
  b.length = DataPlane.streamInfoBytes ∧ readBE 2 b 0 = DataPlane.version ∧
    readBE 2 b 2 = DataPlane.streamInfoBytes

/-- Its denominators are not zero and its clock is registered. -/
def StreamInfoRates (b : Bytes) : Prop :=
  readBE 8 b 16 ≠ 0 ∧ readBE 8 b 32 ≠ 0 ∧ readBE 2 b 54 ≤ 3

/-- The C decoder takes whatever the host takes, and more. -/
theorem decode_streamInfo {b : Bytes} (h : StreamInfoBytes b) :
    ∃ c, DataPlane.StreamInfo.decode b = .ok c ∧
      (StreamInfo.Registered c ↔ StreamInfoRates b) := by
  unfold DataPlane.StreamInfo.decode
  rw [if_neg (Nat.not_lt.mpr h.1.ge), if_neg (not_not.mpr h.2.1), if_neg (not_not.mpr h.2.2)]
  exact ⟨_, rfl, Iff.rfl⟩

theorem streamInfoBytes_of_decode {b : Bytes} (hlen : b.length = DataPlane.streamInfoBytes)
    (h : Accepted (DataPlane.StreamInfo.decode b)) : StreamInfoBytes b := by
  obtain ⟨c, hd⟩ := h
  unfold DataPlane.StreamInfo.decode at hd
  split at hd
  · cases hd
  split at hd
  · cases hd
  split at hd
  · cases hd
  next hversion hsize => exact ⟨hlen, not_not.mp hversion, not_not.mp hsize⟩

/-- What the host decodes, both encode to the same bytes. -/
theorem streamInfo_roundTrip {b : Bytes} {i : StreamInfo} (hd : StreamInfo.decode b = .ok i) :
    RoundTrip DataPlane.StreamInfo.decode (fun i => .ok i.encode) StreamInfo.decode
      StreamInfo.encode i.view i := by
  obtain ⟨-, hcode, hrate⟩ := StreamInfo.decode_eq_ok_iff.mp hd
  have hr := DataPlane.StreamInfo.decode_inRange hcode
  have hc := DataPlane.StreamInfo.decode_encode hr
  exact ⟨_, rfl, StreamInfo.encode_eq hr hrate, hc,
    StreamInfo.decode_eq_ok_iff.mpr ⟨DataPlane.StreamInfo.length_encode _, hc, hrate⟩⟩

/-- The two decoders of STREAM_INFO differ in the rates and the clock alone. -/
theorem sameStreamInfo_iff {b : Bytes} (hlen : b.length = DataPlane.streamInfoBytes) :
    SameStreamInfo b ↔ (StreamInfoBytes b → StreamInfoRates b) := by
  have hstrict : ∀ b i, StreamInfo.decode b = .ok i →
      DataPlane.StreamInfo.decode b = .ok i.view :=
    fun b i hd => (StreamInfo.decode_eq_ok_iff.mp hd).2.1
  rw [SameStreamInfo, sameFormat_iff hstrict fun b i => streamInfo_roundTrip]
  constructor
  · intro hacc hb
    obtain ⟨c, hc, hiff⟩ := decode_streamInfo hb
    obtain ⟨i, hi⟩ := hacc ⟨c, hc⟩
    obtain ⟨-, hcode, hrate⟩ := StreamInfo.decode_eq_ok_iff.mp hi
    rw [hc] at hcode
    cases hcode
    exact hiff.mp hrate
  · intro hrates hacc
    have hb := streamInfoBytes_of_decode hlen hacc
    obtain ⟨c, hc, hiff⟩ := decode_streamInfo hb
    have hrate := hiff.mpr (hrates hb)
    obtain ⟨i, rfl⟩ := StreamInfo.exists_view hrate.2.2
    exact ⟨i, StreamInfo.decode_eq_ok_iff.mpr ⟨hlen, hc, hrate⟩⟩

theorem shotEnd_roundTrip {b : Bytes} {e : ShotEnd} (hd : ShotEnd.decode b = .ok e) :
    RoundTrip DataPlane.ShotEnd.decode (fun e => .ok e.encode) ShotEnd.decode ShotEnd.encode
      (id e) e := by
  have hr := DataPlane.ShotEnd.decode_inRange (ShotEnd.decode_eq_ok_iff.mp hd).2
  have hc := DataPlane.ShotEnd.decode_encode hr
  exact ⟨_, rfl, ShotEnd.encode_eq hr, hc,
    ShotEnd.decode_eq_ok_iff.mpr ⟨DataPlane.ShotEnd.length_encode _, hc⟩⟩

/-- The two decoders of SHOT_END agree. -/
theorem sameShotEnd {b : Bytes} (hlen : b.length = DataPlane.shotEndBytes) : SameShotEnd b := by
  have hstrict : ∀ b e, ShotEnd.decode b = .ok e → DataPlane.ShotEnd.decode b = .ok (id e) :=
    fun b e hd => (ShotEnd.decode_eq_ok_iff.mp hd).2
  refine (sameFormat_iff hstrict (fun b e => shotEnd_roundTrip) b).mpr ?_
  rintro ⟨e, he⟩
  exact ⟨e, ShotEnd.decode_eq_ok_iff.mpr ⟨hlen, he⟩⟩

/-! ## The agreement -/

/-- The two languages define one wire format, except for headers with an unregistered format and
for STREAM_INFO objects with a zero denominator or an unregistered clock. -/
theorem codecs_agree_iff (b : Bytes) :
    (SameHeader b ∧ (b.length = 64 → SameStreamInfo b ∧ SameShotEnd b)) ↔
      (HeaderBytes b → readBE 2 b 10 ≤ 2) ∧ (StreamInfoBytes b → StreamInfoRates b) := by
  rw [sameHeader_iff]
  refine and_congr_right fun _ => ?_
  constructor
  · exact fun h hb => (sameStreamInfo_iff hb.1).mp (h hb.1).1 hb
  · exact fun h hlen => ⟨(sameStreamInfo_iff hlen).mpr h, sameShotEnd hlen⟩

/-- STREAM_INFO of a counter stream whose clock id is not registered. -/
def unknownClock : DataPlane.StreamInfo :=
  { frameSamples := 8, sampleRateNumerator := 1, sampleRateDenominator := 1
    timestampRateNumerator := 1, timestampRateDenominator := 1, centerFrequencyHz := 0
    channelCount := 1, componentBits := 32, fractionBits := 0, timestampClockId := 9
    configId := 0 }

/-- The C decoder accepts a clock id that the host refuses. -/
theorem unknownClock_differs :
    DataPlane.StreamInfo.decode unknownClock.encode = .ok unknownClock ∧
      StreamInfo.decode unknownClock.encode = .error (.unsupportedClock 9) ∧
      ¬ SameStreamInfo unknownClock.encode := by
  have hc : DataPlane.StreamInfo.decode unknownClock.encode = .ok unknownClock := by
    decide +kernel
  have hp : StreamInfo.decode unknownClock.encode = .error (.unsupportedClock 9) := by
    decide +kernel
  refine ⟨hc, hp, fun h => ?_⟩
  obtain ⟨i, hi⟩ := h.accepted.mp ⟨_, hc⟩
  rw [hp] at hi
  cases hi

end QCrate.Host
