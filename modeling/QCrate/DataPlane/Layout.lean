import QCrate.DataPlane.Framing
import QCrate.Lib.Sorting

/-!
# How the packets of a shot lie in their frames

The receivers put the DATA packets of a shot into frame order and walk over each frame. `Tiles`
is what such a walk meets in a shot of the packetizer.

* `framePackets_tiles` — the packets of a frame tile it.
* `filter_dataPackets` — the packets with a frame id are the packets of that frame.
* `eq_of_sequence_eq` — a packet of a shot is known by its sequence.
-/

namespace QCrate.DataPlane

open QCrate.Lib

/-- The packets cover the samples of a frame from an offset on without gap or overlap, and their
flags say where the frame starts and ends. -/
inductive Tiles (frameSamples frame : ℕ) : ℕ → List Packet → Prop where
  | nil : Tiles frameSamples frame frameSamples []
  | cons {offset : ℕ} {p : Packet} {rest : List Packet} (hframe : p.header.frameId = frame)
      (hoffset : p.header.sampleOffset = offset) (hcount : 0 < p.header.sampleCount)
      (hstart : p.header.flags &&& flagFrameStart = 0 ↔ offset ≠ 0)
      (hend : p.header.flags &&& flagFrameEnd = 0 ↔
        offset + p.header.sampleCount ≠ frameSamples)
      (h : Tiles frameSamples frame (offset + p.header.sampleCount) rest) :
      Tiles frameSamples frame offset (p :: rest)

namespace Tiles

variable {frameSamples frame offset : ℕ} {l : List Packet}

theorem le (h : Tiles frameSamples frame offset l) : offset ≤ frameSamples := by
  induction h with
  | nil => exact le_rfl
  | cons _ _ _ _ _ _ ih => omega

theorem sum_sampleCount (h : Tiles frameSamples frame offset l) :
    offset + (l.map (·.header.sampleCount)).sum = frameSamples := by
  induction h with
  | nil => rfl
  | cons _ _ _ _ _ _ ih =>
    rw [List.map_cons, List.sum_cons]
    omega

theorem frameId_eq (h : Tiles frameSamples frame offset l) :
    ∀ p ∈ l, p.header.frameId = frame := by
  induction h with
  | nil => exact nofun
  | cons hf _ _ _ _ _ ih =>
    intro q hq
    rcases List.mem_cons.mp hq with rfl | hq
    · exact hf
    · exact ih q hq

/-- The last packet carries FRAME_END. -/
theorem getLast_frameEnd (h : Tiles frameSamples frame offset l) {p : Packet}
    (hp : l.getLast? = some p) : p.header.flags &&& flagFrameEnd ≠ 0 := by
  induction h with
  | nil => cases hp
  | @cons offset q rest _ _ _ _ hend h ih =>
    cases rest with
    | nil =>
      cases hp
      cases h
      exact fun h0 => hend.mp h0 rfl
    | cons r rest =>
      rw [List.getLast?_cons_cons] at hp
      exact ih hp

end Tiles

/-! ## Flags of a DATA packet -/

theorem and_flagFrameStart (a b d : Bool) :
    ((if a then flagTimestampValid else 0) ||| (if b then flagFrameStart else 0) |||
      (if d then flagFrameEnd else 0)) &&& flagFrameStart = 0 ↔ b = false := by
  cases a <;> cases b <;> cases d <;> decide

theorem and_flagFrameEnd (a b d : Bool) :
    ((if a then flagTimestampValid else 0) ||| (if b then flagFrameStart else 0) |||
      (if d then flagFrameEnd else 0)) &&& flagFrameEnd = 0 ↔ d = false := by
  cases a <;> cases b <;> cases d <;> decide

theorem and_flagTimestampValid (a b d : Bool) :
    ((if a then flagTimestampValid else 0) ||| (if b then flagFrameStart else 0) |||
      (if d then flagFrameEnd else 0)) &&& flagTimestampValid = 0 ↔ a = false := by
  cases a <;> cases b <;> cases d <;> decide

/-- Flags outside the three a packetizer sets. -/
theorem and_otherFlags {mask : ℕ} (hmask : mask &&& 7 = 0) (a b d : Bool) :
    ((if a then flagTimestampValid else 0) ||| (if b then flagFrameStart else 0) |||
      (if d then flagFrameEnd else 0)) &&& mask = 0 := by
  have h7 : ((if a then flagTimestampValid else 0) ||| (if b then flagFrameStart else 0) |||
      (if d then flagFrameEnd else 0)) &&& 7 = (if a then flagTimestampValid else 0) |||
      (if b then flagFrameStart else 0) ||| (if d then flagFrameEnd else 0) := by
    cases a <;> cases b <;> cases d <;> decide
  rw [← h7, Nat.and_assoc, Nat.and_comm 7, hmask, Nat.and_zero]

theorem foldl_crc32Update (packets : List Packet) (crc : BitVec 32) :
    packets.foldl (fun crc p => crc32Update crc p.payload) crc =
      crc32Update crc (packets.flatMap (·.payload)) := by
  induction packets generalizing crc with
  | nil => rfl
  | cons p packets ih => rw [List.foldl_cons, ih, List.flatMap_cons, crc32Update_append]

namespace Config

variable {c : Config} {samples : Bytes}

/-- The packets of one frame. -/
def framePackets (c : Config) (samples : Bytes) (frame : ℕ) : List Packet :=
  c.frameLoop samples frame c.frameSamples.toNat 0
    (c.initialSequence.toNat + 1 + frame * c.packetsPerFrame)

theorem frameLoop_tiles (h : c.Accepts samples) {frame fuel offset sequence : ℕ}
    (ho : offset ≤ c.frameSamples.toNat) (hf : c.frameSamples.toNat - offset ≤ fuel) :
    Tiles c.frameSamples.toNat frame offset (c.frameLoop samples frame fuel offset sequence) := by
  induction fuel generalizing offset sequence with
  | zero =>
    rw [show offset = c.frameSamples.toNat by omega]
    exact .nil
  | succ fuel ih =>
    rw [frameLoop]
    split
    · next hlt =>
      have hpos := h.sampleCountAt_pos hlt
      have hle := offset_add_sampleCountAt_le ho
      have hrest : Tiles c.frameSamples.toNat frame (offset + c.sampleCountAt offset)
          (c.frameLoop samples frame fuel (offset + c.sampleCountAt offset) (sequence + 1)) :=
        ih hle (by omega)
      refine .cons rfl rfl hpos ?_ ?_ hrest
      · have hiff := and_flagFrameStart (frame = 0 ∧ offset = 0 ∧ c.firstSampleTimestampValid)
          (offset = 0) (offset + c.sampleCountAt offset = c.frameSamples.toNat)
        simp only [dataPacket, decide_eq_true_eq, decide_eq_false_iff_not, and_assoc] at hiff ⊢
        exact hiff
      · have hiff := and_flagFrameEnd (frame = 0 ∧ offset = 0 ∧ c.firstSampleTimestampValid)
          (offset = 0) (offset + c.sampleCountAt offset = c.frameSamples.toNat)
        simp only [dataPacket, decide_eq_true_eq, decide_eq_false_iff_not, and_assoc] at hiff ⊢
        exact hiff
    · rw [show offset = c.frameSamples.toNat by omega]
      exact .nil

theorem framePackets_tiles (h : c.Accepts samples) (frame : ℕ) :
    Tiles c.frameSamples.toNat frame 0 (c.framePackets samples frame) :=
  frameLoop_tiles h (Nat.zero_le _) (by omega)

theorem frameLoop_length_zero (h : c.Accepts samples) (frame sequence : ℕ) :
    (c.frameLoop samples frame c.frameSamples.toNat 0 sequence).length = c.packetsPerFrame := by
  rw [frameLoop_length h (Nat.zero_le _) (by omega)]
  unfold packetsPerFrame
  rw [h.samplesPerPacket, Nat.sub_zero]
  rfl

theorem framesLoop_filter (h : c.Accepts samples) (left frame sequence id : ℕ) :
    (c.framesLoop samples left frame sequence).filter (·.header.frameId = id) =
      if frame ≤ id ∧ id < frame + left then
        c.frameLoop samples id c.frameSamples.toNat 0
          (sequence + (id - frame) * c.packetsPerFrame)
      else [] := by
  induction left generalizing frame sequence with
  | zero =>
    rw [if_neg (by omega)]
    rfl
  | succ left ih =>
    have hids : ∀ p ∈ c.frameLoop samples frame c.frameSamples.toNat 0 sequence,
        p.header.frameId = frame :=
      (frameLoop_tiles h (Nat.zero_le _) (by omega)).frameId_eq
    simp only [framesLoop, List.filter_append, ih, frameLoop_length_zero h]
    by_cases hid : id = frame
    · rw [List.filter_eq_self.mpr (by simpa [hid] using hids), if_neg (by omega),
        if_pos (by omega), List.append_nil, hid, Nat.sub_self, Nat.zero_mul, Nat.add_zero]
    · rw [List.filter_eq_nil_iff.mpr, List.nil_append]
      · by_cases hin : frame + 1 ≤ id ∧ id < frame + 1 + left
        · rw [if_pos hin, if_pos (by omega)]
          congr 1
          rw [Nat.add_assoc, Nat.add_comm c.packetsPerFrame, ← Nat.succ_mul]
          congr 2
          omega
        · rw [if_neg hin, if_neg (by omega)]
      · intro p hp
        simpa [hids p hp] using Ne.symm hid

/-- The packets with a frame id are the packets of that frame. -/
theorem filter_dataPackets (h : c.Accepts samples) {id : ℕ} (hid : id < c.frameCount.toNat) :
    (c.dataPackets samples).filter (·.header.frameId = id) = c.framePackets samples id := by
  unfold dataPackets framePackets
  rw [framesLoop_filter h, if_pos (by omega), Nat.sub_zero]

theorem framePackets_ne_nil (h : c.Accepts samples) (frame : ℕ) :
    c.framePackets samples frame ≠ [] := by
  intro hnil
  have hlen :=
    frameLoop_length_zero h frame (c.initialSequence.toNat + 1 + frame * c.packetsPerFrame)
  have hfs := h.frameSamples
  unfold framePackets at hnil
  rw [hnil] at hlen
  unfold packetsPerFrame at hlen
  rw [h.samplesPerPacket] at hlen
  have : 0 < (c.frameSamples.toNat + 334 - 1) / 334 := Nat.div_pos (by omega) (by norm_num)
  rw [← hlen] at this
  exact absurd this (lt_irrefl 0)

/-- The frame ids of a shot are those below its number of frames. -/
theorem mem_frameIds (h : c.Accepts samples) (id : ℕ) :
    (∃ p ∈ c.dataPackets samples, p.header.frameId = id) ↔ id < c.frameCount.toNat := by
  constructor
  · rintro ⟨p, hp, rfl⟩
    obtain ⟨f, o, q, hf, -, -, rfl⟩ := mem_dataPackets hp
    exact hf
  · intro hid
    obtain ⟨p, hp⟩ := List.exists_mem_of_ne_nil _ (framePackets_ne_nil h id)
    rw [← filter_dataPackets h hid, List.mem_filter] at hp
    exact ⟨p, hp.1, by simpa using hp.2⟩

/-- The sample counts of a shot add up to its samples. -/
theorem sum_sampleCount (h : c.Accepts samples) :
    ((c.dataPackets samples).map (·.header.sampleCount)).sum = c.totalSamples := by
  have hloop : ∀ left frame sequence,
      ((c.framesLoop samples left frame sequence).map (·.header.sampleCount)).sum =
        c.frameSamples.toNat * left := by
    intro left
    induction left with
    | zero => exact fun _ _ => rfl
    | succ left ih =>
      intro frame sequence
      have htiles : Tiles c.frameSamples.toNat frame 0
          (c.frameLoop samples frame c.frameSamples.toNat 0 sequence) :=
        frameLoop_tiles h (Nat.zero_le _) (by omega)
      have hsum := htiles.sum_sampleCount
      simp only [framesLoop, List.map_append, List.sum_append, ih]
      rw [Nat.mul_succ]
      omega
  exact hloop ..

/-! ## Sequences -/

theorem dataPackets_sequence (c : Config) (samples : Bytes) :
    (c.dataPackets samples).map (·.header.packetSequence) =
      List.range' (c.initialSequence.toNat + 1) (c.dataPackets samples).length :=
  framesLoop_sequence ..

/-- The packets of a shot are in sequence order. -/
theorem shotPackets_pairwise (c : Config) (samples : Bytes) :
    (c.shotPackets samples).Pairwise fun p q =>
      p.header.packetSequence < q.header.packetSequence := by
  rw [← List.pairwise_map, shotPackets_sequence]
  exact List.pairwise_lt_range' ..

theorem dataPackets_sequence_pairwise (c : Config) (samples : Bytes) :
    (c.dataPackets samples).Pairwise fun p q =>
      p.header.packetSequence < q.header.packetSequence := by
  rw [← List.pairwise_map, dataPackets_sequence]
  exact List.pairwise_lt_range' ..

/-- A packet of a shot is known by its sequence. -/
theorem eq_of_sequence_eq {p q : Packet} (hp : p ∈ c.shotPackets samples)
    (hq : q ∈ c.shotPackets samples) (h : p.header.packetSequence = q.header.packetSequence) :
    p = q :=
  eq_of_key_eq (k := fun p : Packet => p.header.packetSequence) (shotPackets_pairwise c samples)
    hp hq h

theorem packetType_of_mem {p : Packet} (hp : p ∈ c.shotPackets samples) :
    (p.header.packetType = .streamInfo ↔ p = c.infoPacket) ∧
      (p.header.packetType = .data ↔ p ∈ c.dataPackets samples) ∧
      (p.header.packetType = .shotEnd ↔ p = c.endPacket samples) := by
  have hdata : ∀ q ∈ c.dataPackets samples, q.header.packetType = .data := by
    intro q hq
    obtain ⟨f, o, s, -, -, -, rfl⟩ := mem_dataPackets hq
    rfl
  have hinfo : c.infoPacket.header.packetType = .streamInfo := rfl
  have hend : (c.endPacket samples).header.packetType = .shotEnd := rfl
  rcases mem_shotPackets hp with rfl | hp | rfl
  · rw [hinfo]
    exact ⟨by simp, ⟨nofun, fun h => by rw [hdata _ h] at hinfo; cases hinfo⟩,
      ⟨nofun, fun h => by rw [h, hend] at hinfo; cases hinfo⟩⟩
  · rw [hdata p hp]
    exact ⟨⟨nofun, fun h => by rw [h] at hp; rw [hdata _ hp] at hinfo; cases hinfo⟩, by simp [hp],
      ⟨nofun, fun h => by rw [h] at hp; rw [hdata _ hp] at hend; cases hend⟩⟩
  · rw [hend]
    exact ⟨⟨nofun, fun h => by rw [h, hinfo] at hend; cases hend⟩,
      ⟨nofun, fun h => by rw [hdata _ h] at hend; cases hend⟩, by simp⟩

theorem streamInfo_inRange (c : Config) : c.streamInfo.InRange where
  frameSamples := c.frameSamples.toNat_lt
  sampleRateNumerator := c.sampleRateNumerator.toNat_lt
  sampleRateDenominator := c.sampleRateDenominator.toNat_lt
  timestampRateNumerator := c.timestampRateNumerator.toNat_lt
  timestampRateDenominator := c.timestampRateDenominator.toNat_lt
  centerFrequencyHz := ⟨c.centerFrequencyHz.le_toInt, c.centerFrequencyHz.toInt_lt⟩
  channelCount := c.channelCount.toNat_lt
  componentBits := c.componentBits.toNat_lt
  fractionBits := c.fractionBits.toNat_lt
  timestampClockId := c.timestampClockId.toNat_lt
  configId := c.configId.toNat_lt

theorem shotEnd_inRange (h : c.Accepts samples) : (c.shotEnd samples).InRange := by
  have hseq := h.sequence
  have hlen := length_dataPackets h
  have hne := List.length_pos_iff.mpr (dataPackets_ne_nil h)
  have hbytes : c.payloadBytes ≤ uint64Max := by
    have hl := h.length
    have hle := h.lengthLe
    unfold Config.payloadBytes Config.totalSamples
    unfold Config.frameBytes at hl
    rw [Nat.mul_comm c.frameSamples.toNat, Nat.mul_assoc, hl]
    exact hle
  have hsamples : c.totalSamples ≤ c.payloadBytes := by
    unfold Config.payloadBytes
    rw [h.sampleBytes]
    omega
  unfold uint64Max at *
  refine ⟨Nat.pow_pos (by norm_num), ?_, c.frameCount.toNat_lt, ?_, ?_, ?_, ?_, ?_, ?_⟩
  · show (flagPayloadCrcValid ||| if c.endOfStream then flagEndOfStream else 0) < 256 ^ 4
    cases c.endOfStream <;> decide
  · show c.totalSamples < 256 ^ 8
    omega
  · show (c.dataPackets samples).length < 256 ^ 8
    omega
  · show c.initialSequence.toNat + 1 < 256 ^ 8
    omega
  · show c.initialSequence.toNat + 1 + (c.dataPackets samples).length - 1 < 256 ^ 8
    omega
  · show c.payloadBytes < 256 ^ 8
    omega
  · exact (Config.payloadCrc32 _).isLt

end Config

end QCrate.DataPlane
