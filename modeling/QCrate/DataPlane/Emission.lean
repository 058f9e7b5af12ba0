import QCrate.DataPlane.Layout

/-!
# What a shot looks like on the wire

The datagrams of one call of `qcrate_data_packetize`, with any callback.

* `Framed` — the format that the README promises of the packets of a shot.
* `packetize_framed` — the packetizer keeps it, and a call fails where its callback does.
-/

namespace QCrate.DataPlane

open QCrate.Lib

/-! ## An interrupted call -/

section Traced

variable {σ : Type} (emit : σ → Bytes → Bytes → Except σ σ)

/-- The callback `emit`, with a list of the datagrams it has taken. -/
def traced (s : List Bytes × σ) (encodedHeader payload : Bytes) :
    Except (List Bytes × σ) (List Bytes × σ) :=
  match emit s.2 encodedHeader payload with
  | .error context => .error (s.1, context)
  | .ok context => .ok (s.1 ++ [encodedHeader ++ payload], context)

/-- The callback takes these packets one after the other. -/
inductive Takes : σ → List Packet → σ → Prop
  | nil (context : σ) : Takes context [] context
  | cons {context context₁ context' : σ} {p : Packet} {rest : List Packet}
      (first : emit context p.header.bytes p.payload = .ok context₁)
      (others : Takes context₁ rest context') : Takes context (p :: rest) context'

/-- The callback takes the packets in `before`, and then it refuses `p`. -/
def Refuses (context : σ) (before : List Packet) (p : Packet) (context' : σ) : Prop :=
  ∃ context₁, Takes emit context before context₁ ∧
    emit context₁ p.header.bytes p.payload = .error context'

variable {p : Packet} {packets : List Packet} {context context' : σ}

/-- A callback takes all packets, or there is a first one that it refuses. -/
theorem takes_or_refuses (packets : List Packet) (context : σ) :
    (∃ context', Takes emit context packets context') ∨
      ∃ before p rest context', packets = before ++ p :: rest ∧
        Refuses emit context before p context' := by
  induction packets generalizing context with
  | nil => exact .inl ⟨context, .nil context⟩
  | cons p rest ih =>
    cases hemit : emit context p.header.bytes p.payload with
    | error context' => exact .inr ⟨[], p, rest, context', rfl, context, .nil context, hemit⟩
    | ok context₁ =>
      rcases ih context₁ with ⟨last, hlast⟩ | ⟨before, q, after, last, rfl, c, htaken, hq⟩
      · exact .inl ⟨last, .cons hemit hlast⟩
      · exact .inr ⟨p :: before, q, after, last, rfl, c, .cons hemit htaken, hq⟩

theorem emitObject_eq (h : p.header.headerBytes = headerBytes) (context : σ) :
    emitObject emit p context =
      match emit context p.header.bytes p.payload with
      | .error context => .error (.emitError, context)
      | .ok context => .ok context := by
  have hencode : p.header.encode = .ok p.header.bytes := if_neg fun hb => hb.2 h
  cases hemit : emit context p.header.bytes p.payload <;> simp only [emitObject, hencode, hemit]

/-- Packets that the callback takes are out of the way, and all of them have been sent. -/
theorem emitAll_of_takes (ht : Takes emit context packets context')
    (h : ∀ p ∈ packets, p.header.headerBytes = headerBytes) (rest : List Packet)
    (sent : List Bytes) :
    emitAll emit (packets ++ rest) context = emitAll emit rest context' ∧
      emitAll (traced emit) (packets ++ rest) (sent, context) =
        emitAll (traced emit) rest (sent ++ packets.map Packet.datagram, context') := by
  induction ht generalizing sent with
  | nil context => exact ⟨rfl, by rw [List.map_nil, List.append_nil]; rfl⟩
  | @cons context context₁ context' p packets hfirst _ ih =>
    have hp := h p List.mem_cons_self
    have hobject := emitObject_eq emit hp context
    have htraced := emitObject_eq (traced emit) hp (sent, context)
    simp only [traced] at htraced
    rw [hfirst] at hobject htraced
    obtain ⟨hall, hsent⟩ := ih (fun q hq => h q (List.mem_cons_of_mem _ hq))
      (sent ++ [p.header.bytes ++ p.payload])
    refine ⟨(foldlM_cons_ok hobject).trans hall, ((foldlM_cons_ok htraced).trans hsent).trans ?_⟩
    rw [List.append_assoc]
    rfl

theorem emitAll_of_refuses {before rest : List Packet}
    (hr : Refuses emit context before p context')
    (h : ∀ q ∈ before ++ p :: rest, q.header.headerBytes = headerBytes) (sent : List Bytes) :
    emitAll emit (before ++ p :: rest) context = .error (.emitError, context') ∧
      emitAll (traced emit) (before ++ p :: rest) (sent, context) =
        .error (.emitError, (sent ++ before.map Packet.datagram, context')) := by
  obtain ⟨context₁, htaken, hrefused⟩ := hr
  obtain ⟨hall, hsent⟩ := emitAll_of_takes emit htaken
    (fun q hq => h q (List.mem_append_left _ hq)) (p :: rest) sent
  have hp := h p (List.mem_append_right _ List.mem_cons_self)
  have hobject := emitObject_eq emit hp context₁
  have htraced := emitObject_eq (traced emit) hp (sent ++ before.map Packet.datagram, context₁)
  simp only [traced] at htraced
  rw [hrefused] at hobject htraced
  constructor
  · rw [hall, emitAll, List.foldlM_cons, hobject]
    rfl
  · rw [hsent, emitAll, List.foldlM_cons, htraced]
    rfl

end Traced

/-! ## The framing of a shot -/

/-- What the packets of a shot promise: one STREAM_INFO, DATA packets that cut the sample buffer
frame by frame, and one SHOT_END that sums them up. -/
structure Framed (c : Config) (samples : Bytes) (data : List Packet) (last : Packet) : Prop where
  infoType : c.infoPacket.header.packetType = .streamInfo
  dataType : ∀ p ∈ data, p.header.packetType = .data
  lastType : last.header.packetType = .shotEnd
  sequences : (c.infoPacket :: (data ++ [last])).map (·.header.packetSequence) =
    List.range' c.initialSequence.toNat (data.length + 2)
  noWrap : c.initialSequence.toNat + (data.length + 2) ≤ uint64Max
  onWire : ∀ p ∈ c.infoPacket :: (data ++ [last]), Header.decode p.datagram = .ok p.header ∧
    p.datagram = p.header.bytes ++ p.payload
  payloadBounds : ∀ p ∈ data, p.payload ≠ [] ∧ p.payload.length ≤ maxPayload
  payloadSamples : ∀ p ∈ data, p.payload.length = p.header.sampleCount * c.sampleBytes.toNat
  inFrame : ∀ p ∈ data, p.header.frameId < c.frameCount.toNat ∧
    p.header.sampleOffset + p.header.sampleCount ≤ c.frameSamples.toNat
  flags : ∀ p ∈ data,
    (p.header.flags &&& flagFrameStart ≠ 0 ↔ p.header.sampleOffset = 0) ∧
    (p.header.flags &&& flagFrameEnd ≠ 0 ↔
      p.header.sampleOffset + p.header.sampleCount = c.frameSamples.toNat)
  frames : ∀ frame < c.frameCount.toNat, data.filter (·.header.frameId = frame) ≠ [] ∧
    Tiles c.frameSamples.toNat frame 0 (data.filter (·.header.frameId = frame))
  order : data.Pairwise Config.Precedes
  payloads : data.flatMap (·.payload) = samples
  shotEnd : ∃ e, ShotEnd.decode last.payload = .ok e ∧ e.status = shotComplete ∧
    e.totalFrames = c.frameCount.toNat ∧
    e.totalSamples = (data.map (·.header.sampleCount)).sum ∧ e.totalDataPackets = data.length ∧
    data.head?.map (·.header.packetSequence) = some e.firstPacketSequence ∧
    data.getLast?.map (·.header.packetSequence) = some e.lastPacketSequence ∧
    e.payloadBytes = samples.length ∧
    e.payloadCrc32 = (crc32Update (BitVec.allOnes 32) samples ^^^ BitVec.allOnes 32).toNat

namespace Config

variable {c : Config} {samples : Bytes}

theorem dataPacket_flags (c : Config) (samples : Bytes) (f o q : ℕ) :
    ((c.dataPacket samples f o q).header.flags &&& flagFrameStart ≠ 0 ↔ o = 0) ∧
    ((c.dataPacket samples f o q).header.flags &&& flagFrameEnd ≠ 0 ↔
      o + c.sampleCountAt o = c.frameSamples.toNat) := by
  have hstart := and_flagFrameStart (f = 0 ∧ o = 0 ∧ c.firstSampleTimestampValid) (o = 0)
    (o + c.sampleCountAt o = c.frameSamples.toNat)
  have hend := and_flagFrameEnd (f = 0 ∧ o = 0 ∧ c.firstSampleTimestampValid) (o = 0)
    (o + c.sampleCountAt o = c.frameSamples.toNat)
  simp only [decide_eq_true_eq, decide_eq_false_iff_not, ← and_assoc] at hstart hend
  exact ⟨hstart.not.trans not_not, hend.not.trans not_not⟩

theorem payloadBytes_eq (h : c.Accepts samples) : c.payloadBytes = samples.length := by
  rw [← h.length, Config.payloadBytes, totalSamples, Config.frameBytes,
    Nat.mul_comm c.frameSamples.toNat, Nat.mul_assoc]

theorem firstSequence_eq (h : c.Accepts samples) :
    (c.dataPackets samples).head?.map (·.header.packetSequence) =
      some (c.result samples).firstDataSequence := by
  obtain ⟨rest, hrest⟩ := dataPackets_cons h
  rw [hrest]
  rfl

theorem lastSequence_eq (h : c.Accepts samples) :
    (c.dataPackets samples).getLast?.map (·.header.packetSequence) =
      some (c.result samples).lastDataSequence := by
  have hpos := List.length_pos_iff.mpr (dataPackets_ne_nil h)
  rw [← List.getLast?_map, dataPackets_sequence, List.getLast?_range', if_neg (by omega)]
  simp only [result]

theorem shotPackets_framed (h : c.Accepts samples) :
    Framed c samples (c.dataPackets samples) (c.endPacket samples) where
  infoType := rfl
  dataType := by
    intro p hp
    obtain ⟨f, o, q, -, -, -, rfl⟩ := mem_dataPackets hp
    rfl
  lastType := rfl
  sequences := by
    rw [← length_shotPackets]
    exact shotPackets_sequence c samples
  noWrap := by
    rw [← length_shotPackets]
    exact sequence_lt h
  onWire := fun p hp => ⟨decode_datagram h hp, rfl⟩
  payloadBounds := by
    intro p hp
    obtain ⟨f, o, q, hf, ho, -, rfl⟩ := mem_dataPackets hp
    have hlength := payload_length h hf ho (q := q)
    have hpos := h.sampleCountAt_pos ho
    have hle := h.sampleCountAt_le o
    constructor
    · intro hnil
      rw [hnil, List.length_nil] at hlength
      omega
    · rw [hlength, maxPayload]
      omega
  payloadSamples := by
    intro p hp
    obtain ⟨f, o, q, hf, ho, -, rfl⟩ := mem_dataPackets hp
    rw [payload_length h hf ho, h.sampleBytes]
    rfl
  inFrame := by
    intro p hp
    obtain ⟨f, o, q, hf, ho, -, rfl⟩ := mem_dataPackets hp
    exact ⟨hf, offset_add_sampleCountAt_le ho.le⟩
  flags := by
    intro p hp
    obtain ⟨f, o, q, -, -, -, rfl⟩ := mem_dataPackets hp
    exact dataPacket_flags c samples f o q
  frames := by
    -- what has the frame's id is what the inner loop emits for it
    intro frame hframe
    rw [filter_dataPackets h hframe]
    exact ⟨framePackets_ne_nil h frame, framePackets_tiles h frame⟩
  order := dataPackets_pairwise h
  payloads := dataPackets_payload h
  shotEnd := by
    refine ⟨c.shotEnd samples, ShotEnd.decode_encode (shotEnd_inRange h), rfl, rfl,
      (sum_sampleCount h).symm, rfl, firstSequence_eq h, lastSequence_eq h, payloadBytes_eq h, ?_⟩
    simp only [Config.shotEnd, result, Config.payloadCrc32, foldl_crc32Update,
      dataPackets_payload h]

end Config

/-- A shot that the packetizer accepts is framed as promised. With a callback that takes everything
the call succeeds; with one that refuses a packet it fails there, with that callback's context, and
what has been sent are the packets before. -/
theorem packetize_framed {c : Config} {samples : Bytes} (hc : c.check samples = .ok ()) :
    ∃ data last, Framed c samples data last ∧
      (c.result samples).nextSequence = last.header.packetSequence + 1 ∧
      ∀ (σ : Type) (emit : σ → Bytes → Bytes → Except σ σ) (context : σ),
        (∃ context', Takes emit context (c.infoPacket :: (data ++ [last])) context' ∧
          packetize emit c samples context = .ok (c.result samples, context') ∧
          packetize (traced emit) c samples ([], context) =
            .ok (c.result samples,
              ((c.infoPacket :: (data ++ [last])).map Packet.datagram, context'))) ∨
        ∃ before p rest context', c.infoPacket :: (data ++ [last]) = before ++ p :: rest ∧
          Refuses emit context before p context' ∧
          packetize emit c samples context = .error (.emitError, context') ∧
          packetize (traced emit) c samples ([], context) =
            .error (.emitError, (before.map Packet.datagram, context')) := by
  have h := Config.accepts_of_check hc
  refine ⟨c.dataPackets samples, c.endPacket samples, Config.shotPackets_framed h, rfl, ?_⟩
  intro σ emit context
  have hheaders : ∀ p ∈ c.shotPackets samples, p.header.headerBytes = headerBytes :=
    fun p hp => (Config.shotPackets_inRange h hp).headerBytes
  unfold packetize
  rw [hc]
  dsimp only
  rcases takes_or_refuses emit (c.shotPackets samples) context with
    ⟨context', htaken⟩ | ⟨before, p, rest, context', hsplit, hrefused⟩
  · obtain ⟨hall, hsent⟩ := emitAll_of_takes emit htaken hheaders [] []
    rw [List.append_nil] at hall hsent
    rw [hall, hsent]
    exact .inl ⟨context', htaken, rfl, rfl⟩
  · rw [hsplit] at hheaders
    obtain ⟨hall, hsent⟩ := emitAll_of_refuses emit hrefused hheaders []
    rw [hsplit, hall, hsent]
    exact .inr ⟨before, p, rest, context', hsplit, hrefused, rfl, rfl⟩

/-- A frame of one sample. -/
def oneSample : Config :=
  { payloadFormat := 2, sampleBytes := 4, streamId := 1, runId := 1, shotId := 1
    initialSequence := 0, frameSamples := 1, frameCount := 1
    sampleRateNumerator := 12500000, sampleRateDenominator := 1
    timestampRateNumerator := 200000000, timestampRateDenominator := 1
    centerFrequencyHz := 0, channelCount := 1, componentBits := 16, fractionBits := 15
    timestampClockId := 1, configId := 7, firstSampleTimestamp := 100
    firstSampleTimestampValid := true, endOfStream := true }

/-- A callback that takes one packet and no other. -/
def takesOne (taken : ℕ) (_ _ : Bytes) : Except ℕ ℕ :=
  if taken = 0 then .ok 1 else .error 7

/-- The callback refuses the DATA packet of the shot, so the call fails with STREAM_INFO sent. -/
theorem packetize_framed_oneSample :
    (∃ data last, Framed oneSample [1, 2, 3, 4] data last ∧
      (oneSample.result [1, 2, 3, 4]).nextSequence = last.header.packetSequence + 1) ∧
    packetize takesOne oneSample [1, 2, 3, 4] 0 = .error (.emitError, 7) ∧
    packetize (traced takesOne) oneSample [1, 2, 3, 4] ([], 0) =
      .error (.emitError, ([oneSample.infoPacket.datagram], 7)) := by
  have hcheck : oneSample.check [1, 2, 3, 4] = .ok () := by decide
  obtain ⟨data, last, hframed, hnext, hemit⟩ := packetize_framed hcheck
  refine ⟨⟨data, last, hframed, hnext⟩, ?_⟩
  obtain ⟨q, rest, hcons⟩ : ∃ q rest, data ++ [last] = q :: rest := by
    cases data with
    | nil => exact ⟨last, [], rfl⟩
    | cons q data => exact ⟨q, data ++ [last], rfl⟩
  rw [hcons] at hemit
  rcases hemit ℕ takesOne 0 with ⟨context', htaken, -, -⟩ | ⟨before, p, after, context', hsplit,
    ⟨context₁, htaken, hrefused⟩, herror, htraced⟩
  · -- it takes STREAM_INFO, and then it takes nothing more
    rcases htaken with _ | ⟨⟨⟩, _ | ⟨hsecond, _⟩⟩
    cases hsecond
  · have hcontext : context' = 7 := by
      unfold takesOne at hrefused
      split at hrefused
      · cases hrefused
      · exact (Except.error.inj hrefused).symm
    have hbefore : before = [oneSample.infoPacket] := by
      rcases htaken with _ | ⟨⟨⟩, _ | ⟨hsecond, _⟩⟩
      · cases hrefused
      · injection hsplit with hinfo
        rw [hinfo]
      · cases hsecond
    subst hcontext
    rw [hbefore] at htraced
    exact ⟨herror, htraced⟩

end QCrate.DataPlane
