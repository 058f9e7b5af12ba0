import QCrate.DataPlane.Packetizer

/-!
# How a shot is cut into packets

What a receiver may rely on when the packetizer has accepted a shot.

* `packetize_collect` — what comes out are the datagrams of `shotPackets`.
* `shotPackets_sequence` — packet sequences are consecutive.
* `dataPackets_payload` — the payloads are the sample buffer.
* `dataPackets_pairwise` — sequence order is frame and sample order.
* `decode_datagram` — a header survives the wire.
-/

namespace QCrate.DataPlane

open QCrate.Lib

namespace Config

/-- What the tests before the first packet establish. -/
structure Accepts (c : Config) (samples : Bytes) : Prop where
  frameSamples : 0 < c.frameSamples.toNat
  frameCount : 0 < c.frameCount.toNat
  sampleRateDenominator : c.sampleRateDenominator.toNat ≠ 0
  timestampRateDenominator : c.timestampRateDenominator.toNat ≠ 0
  format : c.payloadFormat.toNat = formatCounterU32Le ∨ c.payloadFormat.toNat = formatIqS16Le
  sampleBytes : c.sampleBytes.toNat = 4
  length : c.frameCount.toNat * c.frameBytes = samples.length
  lengthLe : samples.length ≤ uint64Max
  sequence : c.initialSequence.toNat + (c.packetsPerFrame * c.frameCount.toNat) + 2 ≤ uint64Max

variable {c : Config} {samples : Bytes}

theorem accepts_of_check (h : c.check samples = .ok ()) : c.Accepts samples := by
  unfold check at h
  split at h
  · cases h
  split at h
  · cases h
  split at h
  · cases h
  split at h
  · cases h
  split at h
  · cases h
  split at h
  · cases h
  split at h
  · cases h
  dsimp only at h
  split at h
  · cases h
  next hzero hformat _ _ _ hsize hlen hseq =>
    simp only [not_or, ← UInt32.toNat_inj, ← UInt64.toNat_inj, ← UInt16.toNat_inj] at hzero hformat
    obtain ⟨hfs, hfc, -, hsr, htr⟩ := hzero
    have hsb : c.sampleBytes = 4 := by simpa using hformat.2
    have hbytes : c.sampleBytes.toNat = 4 := by rw [hsb]; rfl
    have hlen' : c.frameCount.toNat * c.frameBytes = samples.length := by simpa using hlen
    have hfmt := hformat.1
    have hfb : 0 < c.frameBytes := by
      unfold frameBytes
      rw [hbytes]
      have : c.frameSamples.toNat ≠ 0 := hfs
      omega
    refine ⟨Nat.pos_of_ne_zero hfs, Nat.pos_of_ne_zero hfc, hsr, htr, ?_, hbytes, hlen', ?_, ?_⟩
    · omega
    · rw [← hlen']
      exact (Nat.le_div_iff_mul_le hfb).mp (Nat.not_lt.mp hsize)
    · rw [not_or] at hseq
      unfold uint64Max at *
      omega

namespace Accepts

/-- A sample has four bytes, so 334 of them fit a packet. -/
theorem samplesPerPacket (h : c.Accepts samples) : c.samplesPerPacket = 334 := by
  unfold Config.samplesPerPacket
  rw [h.sampleBytes]
  rfl

theorem frameBytes (h : c.Accepts samples) : c.frameBytes = c.frameSamples.toNat * 4 := by
  unfold Config.frameBytes
  rw [h.sampleBytes]

/-- A packet within a frame is never empty. -/
theorem sampleCountAt_pos (h : c.Accepts samples) {offset : ℕ}
    (ho : offset < c.frameSamples.toNat) : 0 < c.sampleCountAt offset := by
  unfold sampleCountAt
  rw [h.samplesPerPacket]
  omega

theorem sampleCountAt_le (h : c.Accepts samples) (offset : ℕ) : c.sampleCountAt offset ≤ 334 := by
  unfold sampleCountAt
  rw [h.samplesPerPacket]
  exact Nat.min_le_right ..

end Accepts

/-- A packet stays within its frame. -/
theorem offset_add_sampleCountAt_le {offset : ℕ} (ho : offset ≤ c.frameSamples.toNat) :
    offset + c.sampleCountAt offset ≤ c.frameSamples.toNat := by
  unfold sampleCountAt
  omega

/-! ## The two loops -/

/-- The packets of a frame start at offsets within it. -/
theorem mem_frameLoop {frame fuel offset sequence : ℕ} {p : Packet}
    (hp : p ∈ c.frameLoop samples frame fuel offset sequence) :
    ∃ o q, offset ≤ o ∧ o < c.frameSamples.toNat ∧ sequence ≤ q ∧
      p = c.dataPacket samples frame o q := by
  induction fuel generalizing offset sequence with
  | zero => cases hp
  | succ fuel ih =>
    rw [frameLoop] at hp
    split at hp
    · next ho =>
      rcases List.mem_cons.mp hp with rfl | hp
      · exact ⟨offset, sequence, le_rfl, ho, le_rfl, rfl⟩
      · obtain ⟨o, q, h₁, h₂, h₃, h₄⟩ := ih hp
        exact ⟨o, q, by omega, h₂, by omega, h₄⟩
    · cases hp

/-- The packets of the frames start within their frames. -/
theorem mem_framesLoop {left frame sequence : ℕ} {p : Packet}
    (hp : p ∈ c.framesLoop samples left frame sequence) :
    ∃ f o q, frame ≤ f ∧ f < frame + left ∧ o < c.frameSamples.toNat ∧ sequence ≤ q ∧
      p = c.dataPacket samples f o q := by
  induction left generalizing frame sequence with
  | zero => cases hp
  | succ left ih =>
    rcases List.mem_append.mp hp with hp | hp
    · obtain ⟨o, q, -, ho, hq, rfl⟩ := mem_frameLoop hp
      exact ⟨frame, o, q, le_rfl, by omega, ho, hq, rfl⟩
    · obtain ⟨f, o, q, h₁, h₂, h₃, h₄, rfl⟩ := ih hp
      exact ⟨f, o, q, by omega, by omega, h₃, by omega, rfl⟩

/-- The packets of a frame are numbered one after the other. -/
theorem frameLoop_sequence (frame fuel offset sequence : ℕ) :
    (c.frameLoop samples frame fuel offset sequence).map (·.header.packetSequence) =
      List.range' sequence (c.frameLoop samples frame fuel offset sequence).length := by
  induction fuel generalizing offset sequence with
  | zero => rfl
  | succ fuel ih =>
    rw [frameLoop]
    split
    · rw [List.map_cons, List.length_cons, List.range'_succ, ih]
      rfl
    · rfl

/-- So are those of all frames. -/
theorem framesLoop_sequence (left frame sequence : ℕ) :
    (c.framesLoop samples left frame sequence).map (·.header.packetSequence) =
      List.range' sequence (c.framesLoop samples left frame sequence).length := by
  induction left generalizing frame sequence with
  | zero => rfl
  | succ left ih =>
    simp only [framesLoop, List.map_append, List.length_append]
    rw [frameLoop_sequence, ih, List.range'_append_1]

/-- Enough fuel: the loop over one frame makes one turn for every packet of the frame. -/
theorem frameLoop_length (h : c.Accepts samples) {frame fuel offset sequence : ℕ}
    (ho : offset ≤ c.frameSamples.toNat) (hf : c.frameSamples.toNat - offset ≤ fuel) :
    (c.frameLoop samples frame fuel offset sequence).length =
      (c.frameSamples.toNat - offset + 333) / 334 := by
  induction fuel generalizing offset sequence with
  | zero =>
    rw [frameLoop, List.length_nil]
    omega
  | succ fuel ih =>
    rw [frameLoop]
    split
    · next hlt =>
      have hpos := h.sampleCountAt_pos hlt
      have hle := offset_add_sampleCountAt_le ho
      rw [List.length_cons, ih hle (by omega)]
      unfold sampleCountAt at *
      rw [h.samplesPerPacket] at *
      omega
    · rw [List.length_nil]
      omega

/-- Every frame is cut into the same number of packets. -/
theorem framesLoop_length (h : c.Accepts samples) (left frame sequence : ℕ) :
    (c.framesLoop samples left frame sequence).length = c.packetsPerFrame * left := by
  induction left generalizing frame sequence with
  | zero => rfl
  | succ left ih =>
    simp only [framesLoop, List.length_append]
    rw [frameLoop_length h (Nat.zero_le _) (by omega), ih, Nat.sub_zero]
    unfold packetsPerFrame
    rw [h.samplesPerPacket, Nat.mul_succ, Nat.add_comm]
    rfl

/-- The payloads of one frame are the rest of that frame. -/
theorem frameLoop_payload (h : c.Accepts samples) {frame fuel offset sequence : ℕ}
    (ho : offset ≤ c.frameSamples.toNat) (hf : c.frameSamples.toNat - offset ≤ fuel) :
    (c.frameLoop samples frame fuel offset sequence).flatMap (·.payload) =
      (samples.drop (frame * c.frameBytes + offset * 4)).take
        ((c.frameSamples.toNat - offset) * 4) := by
  induction fuel generalizing offset sequence with
  | zero =>
    have : c.frameSamples.toNat - offset = 0 := by omega
    rw [this]
    rfl
  | succ fuel ih =>
    rw [frameLoop]
    split
    · next hlt =>
      have hpos := h.sampleCountAt_pos hlt
      have hle := offset_add_sampleCountAt_le ho
      have hsplit : (c.frameSamples.toNat - offset) * 4 =
          c.sampleCountAt offset * 4 +
            (c.frameSamples.toNat - (offset + c.sampleCountAt offset)) * 4 := by omega
      rw [List.flatMap_cons, ih hle (by omega), hsplit, List.take_add, List.drop_drop]
      simp only [dataPacket, h.sampleBytes]
      congr 3
      omega
    · have : c.frameSamples.toNat - offset = 0 := by omega
      rw [this]
      rfl

/-- The payloads of the frames are the samples, none lost and none twice. -/
theorem framesLoop_payload (h : c.Accepts samples) (left frame sequence : ℕ) :
    (c.framesLoop samples left frame sequence).flatMap (·.payload) =
      (samples.drop (frame * c.frameBytes)).take (left * c.frameBytes) := by
  induction left generalizing frame sequence with
  | zero => simp [framesLoop]
  | succ left ih =>
    simp only [framesLoop, List.flatMap_append]
    rw [frameLoop_payload h (Nat.zero_le _) (by omega), ih, Nat.zero_mul, Nat.add_zero,
      Nat.sub_zero, ← h.frameBytes, Nat.succ_mul, Nat.succ_mul, Nat.add_comm (left * _),
      List.take_add, List.drop_drop]

/-- Frame and sample order. -/
def Precedes (p q : Packet) : Prop :=
  p.header.frameId < q.header.frameId ∨
    (p.header.frameId = q.header.frameId ∧ p.header.sampleOffset < q.header.sampleOffset)

theorem frameLoop_pairwise (h : c.Accepts samples) (frame fuel offset sequence : ℕ) :
    (c.frameLoop samples frame fuel offset sequence).Pairwise Precedes := by
  induction fuel generalizing offset sequence with
  | zero => exact .nil
  | succ fuel ih =>
    rw [frameLoop]
    split
    · next hlt =>
      refine .cons ?_ (ih _ _)
      intro q hq
      obtain ⟨o, s, ho, -, -, rfl⟩ := mem_frameLoop hq
      have hpos := h.sampleCountAt_pos hlt
      exact .inr ⟨rfl, show offset < o by omega⟩
    · exact .nil

/-- The packets come in the order of their frames and offsets. -/
theorem framesLoop_pairwise (h : c.Accepts samples) (left frame sequence : ℕ) :
    (c.framesLoop samples left frame sequence).Pairwise Precedes := by
  induction left generalizing frame sequence with
  | zero => exact .nil
  | succ left ih =>
    refine List.pairwise_append.mpr ⟨frameLoop_pairwise h .., ih .., ?_⟩
    intro p hp q hq
    obtain ⟨o, s, -, -, -, rfl⟩ := mem_frameLoop hp
    obtain ⟨f, o', s', hf, -, -, -, rfl⟩ := mem_framesLoop hq
    exact .inl (show frame < f by omega)

/-! ## The DATA packets of a shot -/

theorem length_dataPackets (h : c.Accepts samples) :
    (c.dataPackets samples).length = c.packetsPerFrame * c.frameCount.toNat :=
  framesLoop_length h ..

theorem mem_dataPackets {p : Packet} (hp : p ∈ c.dataPackets samples) :
    ∃ f o q, f < c.frameCount.toNat ∧ o < c.frameSamples.toNat ∧
      c.initialSequence.toNat + 1 ≤ q ∧ p = c.dataPacket samples f o q := by
  obtain ⟨f, o, q, -, hf, ho, hq, rfl⟩ := mem_framesLoop hp
  exact ⟨f, o, q, by omega, ho, hq, rfl⟩

theorem dataPackets_pairwise (h : c.Accepts samples) :
    (c.dataPackets samples).Pairwise Precedes :=
  framesLoop_pairwise h ..

/-- The payloads of a shot are its sample buffer. -/
theorem dataPackets_payload (h : c.Accepts samples) :
    (c.dataPackets samples).flatMap (·.payload) = samples := by
  unfold dataPackets
  rw [framesLoop_payload h, Nat.zero_mul, List.drop_zero, h.length]
  exact List.take_length

/-- The first DATA packet starts the first frame. -/
theorem dataPackets_cons (h : c.Accepts samples) : ∃ rest, c.dataPackets samples =
    c.dataPacket samples 0 0 (c.initialSequence.toNat + 1) :: rest := by
  have hfc := h.frameCount
  have hfs := h.frameSamples
  unfold dataPackets
  obtain ⟨left, hleft⟩ := Nat.exists_eq_add_of_lt hfc
  obtain ⟨fuel, hfuel⟩ := Nat.exists_eq_add_of_lt hfs
  rw [hleft, Nat.zero_add, framesLoop]
  simp only [hfuel, Nat.zero_add, frameLoop, Nat.zero_lt_succ, if_true]
  exact ⟨_, rfl⟩

theorem dataPackets_ne_nil (h : c.Accepts samples) : c.dataPackets samples ≠ [] := by
  obtain ⟨rest, hrest⟩ := dataPackets_cons h
  rw [hrest]
  exact List.cons_ne_nil _ _

/-- A payload is four bytes for each of its samples. -/
theorem payload_length (h : c.Accepts samples) {f o q : ℕ} (hf : f < c.frameCount.toNat)
    (ho : o < c.frameSamples.toNat) :
    (c.dataPacket samples f o q).payload.length = c.sampleCountAt o * 4 := by
  have hle := offset_add_sampleCountAt_le ho.le
  have hframe : (f + 1) * c.frameBytes ≤ samples.length := by
    rw [← h.length]
    exact Nat.mul_le_mul_right _ hf
  rw [h.frameBytes, Nat.succ_mul] at hframe
  simp only [dataPacket, h.sampleBytes, h.frameBytes, List.length_take, List.length_drop]
  omega

/-! ## The whole shot -/

/-- A shot is its DATA packets between STREAM_INFO and SHOT_END. -/
theorem length_shotPackets (c : Config) (samples : Bytes) :
    (c.shotPackets samples).length = (c.dataPackets samples).length + 2 := by
  simp [shotPackets]

/-- Packet sequences are consecutive from the initial one. -/
theorem shotPackets_sequence (c : Config) (samples : Bytes) :
    (c.shotPackets samples).map (·.header.packetSequence) =
      List.range' c.initialSequence.toNat (c.shotPackets samples).length := by
  have hdata : (c.dataPackets samples).map (·.header.packetSequence) =
      List.range' (c.initialSequence.toNat + 1) (c.dataPackets samples).length :=
    framesLoop_sequence ..
  rw [length_shotPackets, shotPackets, List.map_cons, List.map_append, hdata, List.range'_succ,
    List.range'_concat, Nat.one_mul]
  rfl

/-- The number after a shot still fits 64 bits. -/
theorem sequence_lt (h : c.Accepts samples) :
    c.initialSequence.toNat + (c.shotPackets samples).length ≤ uint64Max := by
  have hs := h.sequence
  rw [length_shotPackets, length_dataPackets h]
  omega

theorem mem_shotPackets {p : Packet} (hp : p ∈ c.shotPackets samples) :
    p = c.infoPacket ∨ p ∈ c.dataPackets samples ∨ p = c.endPacket samples := by
  rcases List.mem_cons.mp hp with rfl | hp
  · exact .inl rfl
  rcases List.mem_append.mp hp with hp | hp
  · exact .inr (.inl hp)
  · exact .inr (.inr (List.mem_singleton.mp hp))

/-- The sequence of a packet of the shot lies between the first and the last. -/
theorem sequence_mem {p : Packet} (hp : p ∈ c.shotPackets samples) :
    c.initialSequence.toNat ≤ p.header.packetSequence ∧
      p.header.packetSequence < c.initialSequence.toNat + (c.shotPackets samples).length := by
  have hmem : p.header.packetSequence ∈
      (c.shotPackets samples).map (·.header.packetSequence) := List.mem_map_of_mem hp
  rw [shotPackets_sequence, List.mem_range'_1] at hmem
  exact hmem

/-- The three flags fit the byte. -/
theorem flags_lt (a b d : Bool) :
    ((if a then flagTimestampValid else 0) ||| (if b then flagFrameStart else 0) |||
      (if d then flagFrameEnd else 0)) < 8 := by
  cases a <;> cases b <;> cases d <;> decide

/-- The header of a DATA packet fits its fields. -/
theorem dataPacket_inRange (h : c.Accepts samples) {f o q : ℕ} (hf : f < c.frameCount.toNat)
    (ho : o < c.frameSamples.toNat) (hq : q < 256 ^ 8) :
    (c.dataPacket samples f o q).header.InRange where
  headerBytes := rfl
  payloadFormat := c.payloadFormat.toNat_lt
  flags := by
    have hlt := flags_lt (f = 0 ∧ o = 0 ∧ c.firstSampleTimestampValid) (o = 0)
      (o + c.sampleCountAt o = c.frameSamples.toNat)
    simp only [dataPacket, decide_eq_true_eq, and_assoc] at hlt ⊢
    omega
  streamId := c.streamId.toNat_lt
  runId := c.runId.toNat_lt
  shotId := c.shotId.toNat_lt
  packetSequence := hq
  frameId := hf.trans c.frameCount.toNat_lt
  sampleOffset := ho.trans c.frameSamples.toNat_lt
  sampleCount := by
    have := h.sampleCountAt_le o
    simp only [dataPacket]
    omega
  sampleBytes := c.sampleBytes.toNat_lt
  timestampTicks := by
    simp only [dataPacket]
    split
    · exact c.firstSampleTimestamp.toNat_lt
    · decide

/-- So does the header of any packet of a shot. -/
theorem shotPackets_inRange (h : c.Accepts samples) {p : Packet}
    (hp : p ∈ c.shotPackets samples) : p.header.InRange := by
  have hseq : p.header.packetSequence < 256 ^ 8 := by
    have h₁ := (sequence_mem hp).2
    have h₂ := sequence_lt h
    unfold uint64Max at h₂
    omega
  have hz : ∀ w, 0 < 256 ^ w := fun w => Nat.pow_pos (by norm_num)
  rcases mem_shotPackets hp with rfl | hp | rfl
  · exact ⟨rfl, c.payloadFormat.toNat_lt, hz 4, c.streamId.toNat_lt, c.runId.toNat_lt,
      c.shotId.toNat_lt, hseq, hz 4, hz 4, hz 2, c.sampleBytes.toNat_lt, hz 8⟩
  · obtain ⟨f, o, q, hf, ho, -, rfl⟩ := mem_dataPackets hp
    exact dataPacket_inRange h hf ho hseq
  · exact ⟨rfl, hz 2, hz 4, c.streamId.toNat_lt, c.runId.toNat_lt, c.shotId.toNat_lt, hseq,
      hz 4, hz 4, hz 2, hz 2, hz 8⟩

/-- No payload is longer than a datagram allows. -/
theorem payload_length_le (h : c.Accepts samples) {p : Packet}
    (hp : p ∈ c.shotPackets samples) : p.payload.length ≤ maxPayload := by
  rcases mem_shotPackets hp with rfl | hp | rfl
  · simp [infoPacket, streamInfoBytes, maxPayload]
  · obtain ⟨f, o, q, hf, ho, -, rfl⟩ := mem_dataPackets hp
    have := h.sampleCountAt_le o
    rw [payload_length h hf ho, maxPayload]
    omega
  · simp [endPacket, shotEndBytes, maxPayload]

/-- A header survives the wire. -/
theorem decode_datagram (h : c.Accepts samples) {p : Packet} (hp : p ∈ c.shotPackets samples) :
    Header.decode p.datagram = .ok p.header :=
  Header.decode_encode (shotPackets_inRange h hp) p.payload

theorem datagram_length_le (h : c.Accepts samples) {p : Packet}
    (hp : p ∈ c.shotPackets samples) : p.datagram.length ≤ maxDatagram := by
  have := payload_length_le h hp
  simp only [Packet.datagram, List.length_append, Header.length_bytes]
  unfold headerBytes maxDatagram maxPayload at *
  omega

end Config

/-- What the packetizer hands to a callback that accepts everything. -/
theorem packetize_collect {c : Config} {samples : Bytes} (hc : c.check samples = .ok ()) :
    packetize collect c samples [] =
      .ok (c.result samples, (c.shotPackets samples).map Packet.datagram) := by
  unfold packetize
  rw [hc]
  dsimp only
  rw [emitAll_collect fun p hp =>
    (Config.shotPackets_inRange (Config.accepts_of_check hc) hp).headerBytes]
  rfl

end QCrate.DataPlane
