import QCrate.Recorder.SentRun
import Mathlib.Data.Nat.Bitwise
import Mathlib.Data.Prod.Lex

/-!
# What closing says about a shot of a run

An entry of the table that took in packets of one shot of a run, whatever their order, is complete
exactly when all packets of the shot are there; then every test of `finalize_shot` on the shot
itself passes but those on its timestamp and its size, and what it writes are the samples. An entry
with a packet missing is never intact.

* `Holds` — an entry and the packets it took in.
* `Holds.sequenceComplete_iff`, `Holds.inspect_whole`, `Holds.inspect_partial`.
-/

namespace QCrate.Recorder

open QCrate.Lib QCrate.DataPlane

/-- A packet as the recorder keeps it. -/
def kept (p : Packet) : PacketRecord := ⟨p.header, p.datagram⟩

/-- The entry took in the packets of the shot that are held, each once. -/
structure Holds (s : SentShot) (held : Packet → Bool) (shot : ShotState) : Prop where
  shotId : shot.shotId = s.shotId
  packets : shot.packets.Perm ((s.packets.filter held).map kept)
  info : shot.info =
    if held s.infoPacket then some (s.infoPacket.header, s.config.streamInfo) else none
  shotEnd : shot.shotEnd =
    if held s.endPacket then some (s.endPacket.header, s.config.shotEnd s.samples) else none
  issueFlags : shot.issueFlags = 0
  conflictingPackets : shot.conflictingPackets = 0

/-! ## Sequences -/

/-- `shot_sequence_complete` on increasing sequences of the interval. -/
theorem sequenceRun_eq {first last expected : ℕ} {l : List ℕ} (hl : l.Pairwise (· < ·))
    (hfirst : first ≤ expected) (hlast : last < uint64Max) (hexp : expected ≤ last + 1)
    (hmem : ∀ q ∈ l, expected ≤ q ∧ q ≤ last) :
    sequenceRun first last expected l = some (succ64 last) ↔
      ∀ v, expected ≤ v → v ≤ last → v ∈ l := by
  have hsucc : ∀ x, x ≤ last → succ64 x = x + 1 := fun x hx =>
    Nat.mod_eq_of_lt (by unfold uint64Max at hlast; omega)
  induction l generalizing expected with
  | nil =>
    rw [sequenceRun, hsucc last le_rfl, Option.some.injEq]
    refine ⟨fun h v hv hle => absurd hle (by omega), fun h => ?_⟩
    by_contra hne
    exact List.not_mem_nil (h expected le_rfl (by omega))
  | cons q l ih =>
    obtain ⟨hq, hl⟩ := List.pairwise_cons.mp hl
    have hqm := hmem q List.mem_cons_self
    rw [sequenceRun, if_neg (by omega)]
    by_cases hne : q = expected
    · subst hne
      have ih' : sequenceRun first last (q + 1) l = some (succ64 last) ↔
          ∀ v, q + 1 ≤ v → v ≤ last → v ∈ l :=
        ih hl (by omega) (by omega) fun v hv =>
          ⟨hq v hv, (hmem v (List.mem_cons_of_mem _ hv)).2⟩
      rw [if_neg (by simp), hsucc q hqm.2, ih']
      refine ⟨fun h v hv hle => ?_, fun h v hv hle => ?_⟩
      · by_cases hvq : v = q
        · exact hvq ▸ List.mem_cons_self
        · exact List.mem_cons_of_mem _ (h v (by omega) hle)
      · exact (List.mem_cons.mp (h v (by omega) hle)).resolve_left (by omega)
    · rw [if_pos hne]
      refine ⟨nofun, fun h => ?_⟩
      rcases List.mem_cons.mp (h expected le_rfl (by omega)) with he | hmem'
      · exact absurd he.symm hne
      · have := hq _ hmem'
        omega

/-- `count_missing` on increasing sequences of the interval. -/
theorem missing_eq {last : ℕ} {l : List ℕ} (hl : l.Pairwise (· < ·)) (hlast : last < uint64Max)
    {a : ℕ × ℕ} (hexp : a.1 ≤ last + 1) (hmem : ∀ q ∈ l, a.1 ≤ q ∧ q ≤ last) :
    (l.foldl (missingStep last) a).1 ≤ last + 1 ∧
      (l.foldl (missingStep last) a).2 + (last + 1 - (l.foldl (missingStep last) a).1) ≤
        a.2 + (last + 1 - a.1) ∧
      ((l.foldl (missingStep last) a).2 + (last + 1 - (l.foldl (missingStep last) a).1) = 0 ↔
        a.2 = 0 ∧ ∀ v, a.1 ≤ v → v ≤ last → v ∈ l) := by
  induction l generalizing a with
  | nil =>
    refine ⟨hexp, le_rfl, ?_⟩
    rw [List.foldl_nil, Nat.add_eq_zero_iff]
    refine and_congr_right fun _ => ⟨fun h v hv hle => absurd hle (by omega), fun h => ?_⟩
    by_contra hne
    exact List.not_mem_nil (h a.1 le_rfl (by omega))
  | cons q l ih =>
    obtain ⟨hq, hl⟩ := List.pairwise_cons.mp hl
    have hqm := hmem q List.mem_cons_self
    have hstep : missingStep last a q = (q + 1, a.2 + (q - a.1)) := by
      unfold missingStep succ64
      rw [if_neg (by omega), Nat.mod_eq_of_lt (by unfold uint64Max at hlast; omega)]
    obtain ⟨h₁, h₂, h₃⟩ := ih hl (a := (q + 1, a.2 + (q - a.1))) (by dsimp only; omega)
      fun v hv => ⟨hq v hv, (hmem v (List.mem_cons_of_mem _ hv)).2⟩
    rw [List.foldl_cons, hstep]
    refine ⟨h₁, by dsimp only at h₂; omega, h₃.trans ?_⟩
    dsimp only
    constructor
    · rintro ⟨hz, h⟩
      refine ⟨by omega, fun v hv hle => ?_⟩
      by_cases hvq : v = q
      · exact hvq ▸ List.mem_cons_self
      · exact List.mem_cons_of_mem _ (h v (by omega) hle)
    · rintro ⟨hz, h⟩
      have hqe : q = a.1 := by
        rcases List.mem_cons.mp (h a.1 le_rfl (by omega)) with he | hmem'
        · exact he.symm
        · have := hq _ hmem'
          omega
      exact ⟨by omega, fun v hv hle =>
        (List.mem_cons.mp (h v (by omega) hle)).resolve_left (by omega)⟩

namespace Holds

variable {s : SentShot} {held : Packet → Bool} {shot : ShotState}

theorem sequences_pairwise :
    ((s.packets.filter held).map (·.header.packetSequence)).Pairwise (· < ·) :=
  List.pairwise_map.mpr ((Config.shotPackets_pairwise s.config s.samples).filter _)

/-- Sorting puts the packets into the order in which they were sent. -/
theorem sortPackets_packets (h : Holds s held shot) :
    shot.sortPackets.packets = (s.packets.filter held).map kept := by
  refine insertionSort_eq_of_perm (k := fun p : PacketRecord => p.header.packetSequence)
    (fun _ _ => Iff.rfl) h.packets ?_
  exact List.pairwise_map.mpr ((Config.shotPackets_pairwise s.config s.samples).filter _)

theorem sort (h : Holds s held shot) : Holds s held shot.sortPackets where
  shotId := h.shotId
  packets := .of_eq h.sortPackets_packets
  info := h.info
  shotEnd := h.shotEnd
  issueFlags := h.issueFlags
  conflictingPackets := h.conflictingPackets

theorem sequences_eq (h : Holds s held shot) : shot.sortPackets.sequences =
    (s.packets.filter held).map (·.header.packetSequence) := by
  unfold ShotState.sequences
  rw [h.sortPackets_packets, List.map_map]
  rfl

theorem mem_sequences {q : ℕ} (hq : q ∈ (s.packets.filter held).map (·.header.packetSequence)) :
    s.infoPacket.header.packetSequence ≤ q ∧ q ≤ s.endPacket.header.packetSequence := by
  obtain ⟨p, hp, rfl⟩ := List.mem_map.mp hq
  have hmem := Config.sequence_mem (List.mem_of_mem_filter hp)
  have hlen : s.endPacket.header.packetSequence + 1 = s.firstSequence + s.packets.length :=
    s.nextSequence_eq
  unfold SentShot.firstSequence SentShot.packets at hlen
  refine ⟨hmem.1, ?_⟩
  omega

/-- Every sequence of the interval is there exactly when every packet is. -/
theorem forall_sequences :
    (∀ v, s.infoPacket.header.packetSequence ≤ v → v ≤ s.endPacket.header.packetSequence →
      v ∈ (s.packets.filter held).map (·.header.packetSequence)) ↔ ∀ p ∈ s.packets, held p := by
  have hseqs : s.packets.map (·.header.packetSequence) =
      List.range' s.infoPacket.header.packetSequence s.packets.length :=
    Config.shotPackets_sequence s.config s.samples
  have hlen : s.endPacket.header.packetSequence + 1 =
      s.infoPacket.header.packetSequence + s.packets.length := s.nextSequence_eq
  constructor
  · intro h p hp
    have hm : p.header.packetSequence ∈ s.packets.map (·.header.packetSequence) :=
      List.mem_map_of_mem hp
    rw [hseqs, List.mem_range'_1] at hm
    obtain ⟨q, hq, he⟩ := List.mem_map.mp (h _ hm.1 (by omega))
    rw [List.mem_filter] at hq
    rw [← Config.eq_of_sequence_eq hq.1 hp he]
    exact hq.2
  · intro h v hv hle
    have hm : v ∈ s.packets.map (·.header.packetSequence) := by
      rw [hseqs, List.mem_range'_1]
      omega
    rwa [List.filter_eq_self.mpr h]

theorem endSequence_lt : s.endPacket.header.packetSequence < uint64Max :=
  Nat.lt_of_succ_le s.nextSequence_le

theorem info_le_end :
    s.infoPacket.header.packetSequence ≤ s.endPacket.header.packetSequence := by
  have := s.firstSequence_lt
  have hend := s.endSequence
  have hinfo : s.infoPacket.header.packetSequence = s.firstSequence := rfl
  omega

/-- `shot_sequence_complete` -/
theorem sequenceComplete_iff (h : Holds s held shot) :
    shot.sortPackets.sequenceComplete = true ↔ ∀ p ∈ s.packets, held p := by
  have hle : s.infoPacket.header.packetSequence ≤ s.endPacket.header.packetSequence := info_le_end
  unfold ShotState.sequenceComplete
  rw [h.sort.info, h.sort.shotEnd]
  by_cases hi : held s.infoPacket = true
  · by_cases he : held s.endPacket = true
    · rw [if_pos hi, if_pos he]
      dsimp only
      rw [decide_eq_false (Nat.not_lt.mpr hle), Bool.not_false, Bool.true_and, beq_iff_eq,
        h.sequences_eq, sequenceRun_eq sequences_pairwise le_rfl endSequence_lt
          (Nat.le_succ_of_le hle) fun q hq => mem_sequences hq]
      exact forall_sequences
    · rw [if_pos hi, if_neg he]
      exact ⟨nofun, fun hall => absurd (hall _ s.end_mem) he⟩
  · rw [if_neg hi]
    exact ⟨nofun, fun hall => absurd (hall _ s.info_mem) hi⟩

/-- `count_missing` -/
theorem countMissing_eq_zero (h : Holds s held shot) :
    shot.sortPackets.countMissing = 0 ↔ ∀ p ∈ s.packets, held p := by
  have hle : s.infoPacket.header.packetSequence ≤ s.endPacket.header.packetSequence := info_le_end
  have hlt : s.endPacket.header.packetSequence < uint64Max := endSequence_lt
  unfold ShotState.countMissing
  rw [h.sort.info, h.sort.shotEnd]
  by_cases hi : held s.infoPacket = true
  · by_cases he : held s.endPacket = true
    · obtain ⟨h₁, h₂, h₃⟩ := missing_eq (@sequences_pairwise s held) hlt
        (a := (s.infoPacket.header.packetSequence, 0)) (Nat.le_succ_of_le hle)
        fun q hq => mem_sequences hq
      rw [if_pos hi, if_pos he]
      dsimp only at h₂ h₃ ⊢
      rw [if_neg (Nat.not_lt.mpr hle), h.sequences_eq]
      generalize (List.foldl _ _ _ : ℕ × ℕ) = acc at h₁ h₂ h₃ ⊢
      have hmissing : (if acc.1 ≤ s.endPacket.header.packetSequence then
          acc.2 + (s.endPacket.header.packetSequence - acc.1 + 1) else acc.2) =
          acc.2 + (s.endPacket.header.packetSequence + 1 - acc.1) := by
        split <;> omega
      unfold uint64Max at hlt
      rw [hmissing, Nat.mod_eq_of_lt (by omega), ← forall_sequences, Nat.min_eq_zero_iff, h₃,
        or_iff_left (by decide)]
      exact and_iff_right rfl
    · rw [if_pos hi, if_neg he]
      exact ⟨nofun, fun hall => absurd (hall _ s.end_mem) he⟩
  · rw [if_neg hi]
    exact ⟨nofun, fun hall => absurd (hall _ s.info_mem) hi⟩

end Holds

/-! ## The packets of a shot -/

namespace SentShot

variable (s : SentShot)

theorem kept_payload {p : Packet} (hp : p ∈ s.packets) : (kept p).payload = p.payload := by
  unfold PacketRecord.payload kept Packet.datagram
  dsimp only
  rw [(Config.shotPackets_inRange s.accepts hp).headerBytes, ← Header.length_bytes p.header,
    List.drop_left]

theorem kept_payloadSize {p : Packet} (hp : p ∈ s.packets) :
    (kept p).payloadSize = p.payload.length := by
  rw [← kept_payload s hp]
  unfold PacketRecord.payload PacketRecord.payloadSize
  rw [List.length_drop]

/-- The DATA packets: the first, and others without timestamp. -/
theorem dataPackets_eq : ∃ rest, s.config.dataPackets s.samples = s.firstData :: rest ∧
    ∀ p ∈ rest, p.header.flags &&& flagTimestampValid = 0 ∧ p.header.timestampTicks = 0 := by
  obtain ⟨rest, hrest⟩ := Config.dataPackets_cons s.accepts
  refine ⟨rest, hrest, fun p hp => ?_⟩
  have hmem : p ∈ s.config.dataPackets s.samples := by
    rw [hrest]
    exact List.mem_cons_of_mem _ hp
  have hpair := Config.dataPackets_pairwise s.accepts
  rw [hrest] at hpair
  have hprec := (List.pairwise_cons.mp hpair).1 p hp
  obtain ⟨f, o, q, -, -, -, rfl⟩ := Config.mem_dataPackets hmem
  have hnot : ¬ (f = 0 ∧ o = 0) := by
    rcases hprec with hlt | ⟨hf, hlt⟩
    · exact fun h => absurd (h.1 ▸ hlt) (lt_irrefl 0)
    · exact fun h => absurd (h.2 ▸ hlt) (lt_irrefl 0)
  constructor
  · have hflags := and_flagTimestampValid (f = 0 ∧ o = 0 ∧ s.config.firstSampleTimestampValid)
      (o = 0) (o + s.config.sampleCountAt o = s.config.frameSamples.toNat)
    simp only [decide_eq_true_eq, decide_eq_false_iff_not, ← and_assoc] at hflags
    exact hflags.mpr fun h => hnot h.1
  · exact if_neg fun h => hnot h.1

theorem firstData_ticks : s.firstData.header.timestampTicks = s.timestamp := by
  simp [firstData, Config.dataPacket, timestamp]

theorem firstData_stamped (h : s.timestamp ≠ 0) :
    s.firstData.header.flags &&& flagTimestampValid ≠ 0 := by
  have hvalid : s.config.firstSampleTimestampValid = true := by
    by_contra hv
    exact h (if_neg hv)
  have hflags := and_flagTimestampValid true true
    (0 + s.config.sampleCountAt 0 = s.config.frameSamples.toNat)
  simp only [decide_eq_true_eq, if_true] at hflags
  simp only [firstData, Config.dataPacket, hvalid, and_self, if_true]
  exact fun h0 => absurd (hflags.mp h0) (by simp)

/-- A DATA packet is well formed for the format of its shot. -/
theorem dataMalformed_eq {p : Packet} (hp : p ∈ s.config.dataPackets s.samples) :
    dataMalformed s.config.payloadFormat.toNat (kept p) = false := by
  have hsize := kept_payloadSize s (s.data_mem hp)
  obtain ⟨f, o, q, hf, ho, -, rfl⟩ := Config.mem_dataPackets hp
  have hpos := s.accepts.sampleCountAt_pos ho
  have hlen := Config.payload_length s.accepts hf ho (q := q)
  have hflags := @and_otherFlags (uint32Max ^^^ dataFlagMask) (by decide)
    (f = 0 ∧ o = 0 ∧ s.config.firstSampleTimestampValid) (o = 0)
    (o + s.config.sampleCountAt o = s.config.frameSamples.toNat)
  simp only [decide_eq_true_eq, ← and_assoc] at hflags
  rw [hlen] at hsize
  unfold dataMalformed
  rw [hsize]
  have hbytes := s.accepts.sampleBytes
  simp only [kept, Config.dataPacket, Config.header, hflags, hbytes]
  simp
  omega

theorem sourceFlags_eq {p : Packet} (hp : p ∈ s.config.dataPackets s.samples) :
    p.header.flags &&& sourceFlagMask = 0 := by
  obtain ⟨f, o, q, -, -, -, rfl⟩ := Config.mem_dataPackets hp
  have hflags := @and_otherFlags sourceFlagMask (by decide)
    (f = 0 ∧ o = 0 ∧ s.config.firstSampleTimestampValid) (o = 0)
    (o + s.config.sampleCountAt o = s.config.frameSamples.toNat)
  simp only [decide_eq_true_eq, ← and_assoc] at hflags
  exact hflags

theorem packetType_data {p : Packet} (hp : p ∈ s.config.dataPackets s.samples) :
    p.header.packetType = .data := (Config.packetType_of_mem (s.data_mem hp)).2.1.mpr hp

/-- Without STREAM_INFO no DATA packet has the right format. -/
theorem dataMalformed_zero {p : Packet} (hp : p ∈ s.config.dataPackets s.samples) :
    dataMalformed 0 (kept p) = true := by
  obtain ⟨f, o, q, -, -, -, rfl⟩ := Config.mem_dataPackets hp
  have hformat : s.config.payloadFormat.toNat ≠ 0 := by
    rcases s.accepts.format with h | h <;> rw [h] <;> decide
  simp [dataMalformed, kept, Config.dataPacket, hformat]

theorem infoMalformed_eq : infoMalformed (kept s.infoPacket) = false := by
  have hlen : (kept s.infoPacket).datagram.length = headerBytes + streamInfoBytes := by
    simp [kept, Packet.datagram, infoPacket, Config.infoPacket, headerBytes]
  unfold infoMalformed
  rw [hlen]
  simp [kept, infoPacket, Config.infoPacket, Config.header]

theorem endMalformed_eq : endMalformed (kept s.endPacket) = false := by
  have hlen : (kept s.endPacket).datagram.length = headerBytes + shotEndBytes := by
    simp [kept, Packet.datagram, endPacket, Config.endPacket, headerBytes]
  unfold endMalformed
  rw [hlen]
  simp [kept, endPacket, Config.endPacket, Config.header, formatNone]

end SentShot

/-! ## The loop over the packets -/

namespace PacketScan

variable {s : SentShot}

theorem step_data {p : Packet} (hp : p ∈ s.config.dataPackets s.samples) (scan : PacketScan) :
    scan.step s.config.payloadFormat.toNat (kept p) = scan.addData (kept p) := by
  have htype : (kept p).header.packetType = .data := s.packetType_data hp
  unfold step
  rw [htype]
  dsimp only
  rw [s.dataMalformed_eq hp, if_neg Bool.false_ne_true]

theorem raise_false (scan : PacketScan) (issue : ℕ) : scan.raise issue false = scan := by
  simp [raise]

theorem step_info (scan : PacketScan) (format : ℕ) :
    scan.step format (kept s.infoPacket) = scan := by
  show scan.raise issueProtocol (infoMalformed (kept s.infoPacket)) = scan
  rw [s.infoMalformed_eq, raise_false]

theorem step_end (scan : PacketScan) (format : ℕ) :
    scan.step format (kept s.endPacket) = scan := by
  show scan.raise issueProtocol (endMalformed (kept s.endPacket)) = scan
  rw [s.endMalformed_eq, raise_false]

/-- DATA packets after the first one. -/
theorem foldl_addData {l : List Packet} (hl : ∀ p ∈ l, p ∈ s.config.dataPackets s.samples)
    (hplain : ∀ p ∈ l, p.header.flags &&& flagTimestampValid = 0 ∧ p.header.timestampTicks = 0)
    {scan : PacketScan} (hdata : scan.data ≠ []) :
    (l.map kept).foldl (step s.config.payloadFormat.toNat) scan =
      { scan with
        data := scan.data ++ l.map kept
        lastDataSequence := (l.getLast?.map (·.header.packetSequence)).getD scan.lastDataSequence
        totalSamples := scan.totalSamples + (l.map (·.header.sampleCount)).sum
        payloadBytes := scan.payloadBytes + (l.flatMap (·.payload)).length } := by
  induction l generalizing scan with
  | nil => simp
  | cons p l ih =>
    have hp := hl p List.mem_cons_self
    obtain ⟨hf, ht⟩ := hplain p List.mem_cons_self
    have hempty : scan.data.isEmpty = false := by simpa using hdata
    have hadd : scan.addData (kept p) = { scan with
        data := scan.data ++ [kept p]
        lastDataSequence := p.header.packetSequence
        totalSamples := scan.totalSamples + p.header.sampleCount
        payloadBytes := scan.payloadBytes + p.payload.length } := by
      unfold addData
      rw [hempty, s.kept_payloadSize (s.data_mem hp)]
      simp only [kept, hf, ht, s.sourceFlags_eq hp]
      simp
    rw [List.map_cons, List.foldl_cons, step_data hp, hadd,
      ih (fun q hq => hl q (List.mem_cons_of_mem _ hq))
        (fun q hq => hplain q (List.mem_cons_of_mem _ hq)) (by simp)]
    simp only [List.append_assoc, List.singleton_append, List.map_cons, List.sum_cons,
      List.flatMap_cons, List.length_append, Nat.add_assoc, mk.injEq, true_and, and_true]
    cases l with
    | nil => rfl
    | cons q l =>
      rw [List.getLast?_cons_cons]
      cases hlast : (q :: l).getLast? with
      | none => cases List.getLast?_eq_none_iff.mp hlast
      | some r => rfl

theorem foldl_packets (l : List Packet) (scan : PacketScan) (format : ℕ) :
    ((s.infoPacket :: (l ++ [s.endPacket])).map kept).foldl (step format) scan =
      (l.map kept).foldl (step format) scan := by
  rw [List.map_cons, List.map_append, List.foldl_cons, step_info, List.foldl_append, List.map_cons,
    List.map_nil, List.foldl_cons, List.foldl_nil, step_end]

/-- The scan of all packets of a shot. -/
theorem scan_whole : (s.packets.map kept).foldl (step s.config.payloadFormat.toNat) {} =
    { issues := if s.timestamp = 0 then issueTimestamp else 0
      data := (s.config.dataPackets s.samples).map kept
      firstDataSequence := (s.config.shotEnd s.samples).firstPacketSequence
      lastDataSequence := (s.config.shotEnd s.samples).lastPacketSequence
      firstTimestamp := s.timestamp
      totalSamples := (s.config.shotEnd s.samples).totalSamples
      payloadBytes := s.samples.length
      sourceFlags := 0 } := by
  obtain ⟨rest, hrest, hplain⟩ := s.dataPackets_eq
  have hmem : ∀ p ∈ rest, p ∈ s.config.dataPackets s.samples := fun p hp =>
    hrest ▸ List.mem_cons_of_mem _ hp
  have hfirst : ({} : PacketScan).addData (kept s.firstData) =
      { issues := if s.timestamp = 0 then issueTimestamp else 0
        data := [kept s.firstData]
        firstDataSequence := s.firstData.header.packetSequence
        lastDataSequence := s.firstData.header.packetSequence
        firstTimestamp := s.timestamp
        totalSamples := s.firstData.header.sampleCount
        payloadBytes := s.firstData.payload.length
        sourceFlags := 0 } := by
    unfold addData
    rw [s.kept_payloadSize (s.data_mem s.firstData_mem)]
    simp only [kept, s.firstData_ticks, s.sourceFlags_eq s.firstData_mem]
    by_cases ht : s.timestamp = 0
    · simp [ht]
    · simp [ht, s.firstData_stamped ht]
  have hsum := Config.sum_sampleCount s.accepts
  have hpay := Config.dataPackets_payload s.accepts
  have hseq := Config.dataPackets_sequence s.config s.samples
  rw [hrest] at hsum hpay hseq
  have hpackets : s.packets = s.infoPacket :: (s.config.dataPackets s.samples ++ [s.endPacket]) :=
    rfl
  -- the first DATA packet sets the fields of the scan, the others add to them
  rw [hpackets, foldl_packets, hrest, List.map_cons, List.foldl_cons, step_data s.firstData_mem,
    hfirst, foldl_addData hmem hplain (List.cons_ne_nil _ _), PacketScan.mk.injEq]
  refine ⟨rfl, rfl, rfl, ?_, rfl, ?_, ?_, rfl⟩
  · have hlast := congrArg List.getLast? hseq
    rw [List.getLast?_map, List.getLast?_range', List.getLast?_cons] at hlast
    simp only [Config.shotEnd, Config.result, hrest]
    cases hl : rest.getLast? with
    | none =>
      rw [List.getLast?_eq_none_iff.mp hl]
      rfl
    | some p =>
      rw [hl] at hlast
      simp only [List.length_cons, Nat.succ_ne_zero, if_false, Option.getD_some, Option.map_some,
        Option.some.injEq] at hlast
      simp only [Option.map_some, Option.getD_some, List.length_cons, hlast]
  · rw [← List.sum_cons, ← List.map_cons (f := fun p : Packet => p.header.sampleCount), hsum]
    rfl
  · rw [← List.length_append, ← List.flatMap_cons, hpay]

/-- Once there are DATA packets, the timestamp stays. -/
theorem foldl_firstTimestamp (format : ℕ) (l : List PacketRecord) {scan : PacketScan}
    (h : scan.data ≠ []) : (l.foldl (step format) scan).firstTimestamp = scan.firstTimestamp := by
  induction l generalizing scan with
  | nil => rfl
  | cons p l ih =>
    have hstep : (scan.step format p).data ≠ [] ∧
        (scan.step format p).firstTimestamp = scan.firstTimestamp := by
      unfold step
      split
      · split
        · exact ⟨h, rfl⟩
        · exact ⟨by simp [addData], by simp [addData, h]⟩
      · exact ⟨h, rfl⟩
      · exact ⟨h, rfl⟩
      · exact ⟨h, rfl⟩
    rw [List.foldl_cons, ih hstep.1, hstep.2]

/-- Packets without timestamp leave none. -/
theorem foldl_firstTimestamp_zero (format : ℕ) {l : List PacketRecord}
    (hl : ∀ p ∈ l, p.header.packetType = .data → dataMalformed format p = false →
      p.header.timestampTicks = 0) {scan : PacketScan} (h : scan.firstTimestamp = 0) :
    (l.foldl (step format) scan).firstTimestamp = 0 := by
  induction l generalizing scan with
  | nil => exact h
  | cons p l ih =>
    refine ih (fun q hq => hl q (List.mem_cons_of_mem _ hq)) ?_
    have hp := hl p List.mem_cons_self
    unfold step
    split
    · next htype =>
      split
      · exact h
      · next hm =>
        have hticks := hp htype (by simpa using hm)
        simp [addData, h, hticks]
    · exact h
    · exact h
    · exact h

end PacketScan

/-- The timestamp a closed entry leaves: that of the shot when both STREAM_INFO and the packet that
carries it are there. -/
def SentShot.heldTimestamp (s : SentShot) (held : Packet → Bool) : ℕ :=
  if held s.infoPacket ∧ held s.firstData then s.timestamp else 0

namespace Holds

variable {s : SentShot} {held : Packet → Bool} {shot : ShotState}

theorem infoFormat_eq (h : Holds s held shot) : shot.sortPackets.infoFormat =
    if held s.infoPacket then s.config.payloadFormat.toNat else 0 := by
  unfold ShotState.infoFormat
  rw [h.sort.info]
  split <;> rfl

theorem firstTimestamp_eq (h : Holds s held shot) :
    shot.sortPackets.scanPackets.firstTimestamp = s.heldTimestamp held := by
  obtain ⟨rest, hrest, hplain⟩ := s.dataPackets_eq
  have hdata : ∀ p ∈ s.packets, p.header.packetType = .data →
      p ∈ s.config.dataPackets s.samples := fun p hp =>
    (Config.packetType_of_mem hp).2.1.mp
  unfold ShotState.scanPackets SentShot.heldTimestamp
  rw [h.infoFormat_eq, h.sortPackets_packets]
  by_cases hi : held s.infoPacket = true
  · rw [if_pos hi]
    by_cases hd : held s.firstData = true
    · rw [if_pos ⟨hi, hd⟩]
      have hpackets : s.packets =
          s.infoPacket :: s.firstData :: (rest ++ [s.endPacket]) := by
        show s.infoPacket :: (s.config.dataPackets s.samples ++ [s.endPacket]) = _
        rw [hrest]
        rfl
      rw [hpackets, List.filter_cons_of_pos hi, List.filter_cons_of_pos hd, List.map_cons,
        List.foldl_cons, PacketScan.step_info, List.map_cons, List.foldl_cons,
        PacketScan.step_data s.firstData_mem, PacketScan.foldl_firstTimestamp]
      · simp [PacketScan.addData, kept, s.firstData_ticks]
      · simp [PacketScan.addData]
    · rw [if_neg fun hc => hd hc.2]
      refine PacketScan.foldl_firstTimestamp_zero _ (fun p hp htype _ => ?_) rfl
      obtain ⟨q, hq, rfl⟩ := List.mem_map.mp hp
      rw [List.mem_filter] at hq
      have hqd := hdata q hq.1 htype
      rw [hrest] at hqd
      rcases List.mem_cons.mp hqd with rfl | hqd
      · exact absurd hq.2 hd
      · exact (hplain q hqd).2
  · rw [if_neg hi, if_neg fun hc => hi hc.1]
    refine PacketScan.foldl_firstTimestamp_zero _ (fun p hp htype hm => ?_) rfl
    obtain ⟨q, hq, rfl⟩ := List.mem_map.mp hp
    rw [s.dataMalformed_zero (hdata q (List.mem_of_mem_filter hq) htype)] at hm
    cases hm

/-- An entry with a packet missing is not intact. -/
theorem inspect_partial (h : Holds s held shot) (run : RunState)
    (hp : ¬ ∀ p ∈ s.packets, held p) : (run.inspect shot.sortPackets).issueFlags ≠ 0 := by
  have hm := mt h.countMissing_eq_zero.mp hp
  intro h0
  unfold RunState.inspect at h0
  simp only [if_pos hm, Nat.or_eq_zero_iff] at h0
  exact absurd h0.1.1.1.1.1.1.1.2 (by decide)

end Holds

/-! ## The loop over the frames -/

theorem frameLe_iff (a b : PacketRecord) : frameLe a b ↔
    toLex (a.header.frameId, toLex (a.header.sampleOffset, a.header.packetSequence)) ≤
      toLex (b.header.frameId, toLex (b.header.sampleOffset, b.header.packetSequence)) := by
  rw [Prod.Lex.toLex_le_toLex]
  dsimp only
  rw [Prod.Lex.toLex_le_toLex]
  rfl

/-- The DATA packets of a shot are in frame order already. -/
theorem inFrameOrder_eq (s : SentShot) :
    ((s.config.dataPackets s.samples).map kept).insertionSort frameLe =
      (s.config.dataPackets s.samples).map kept := by
  refine insertionSort_eq_of_perm frameLe_iff (.refl _) ?_
  refine List.pairwise_map.mpr ((Config.dataPackets_pairwise s.accepts).imp fun {p q} hpq => ?_)
  rw [Prod.Lex.toLex_lt_toLex]
  rcases hpq with hf | ⟨hf, ho⟩
  · exact .inl hf
  · refine .inr ⟨hf, ?_⟩
    rw [Prod.Lex.toLex_lt_toLex]
    exact .inl ho

namespace FrameScan

variable {s : SentShot} {scan : FrameScan} {frameSamples frame offset : ℕ} {l : List Packet}

theorem and_frameEnd (flags : ℕ) :
    flags &&& flagFrameEnd = 0 ∨ flags &&& flagFrameEnd = flagFrameEnd := by
  have h : flags &&& 2 ^ 2 = (flags.testBit 2).toNat * 2 ^ 2 := Nat.and_two_pow flags 2
  have h4 : flagFrameEnd = 2 ^ 2 := rfl
  rw [h4, h]
  cases flags.testBit 2 <;> simp

/-- A packet that goes on where the last one ended. -/
theorem step_same {p : PacketRecord} (hf : p.header.frameId = scan.currentFrame)
    (ho : p.header.sampleOffset = scan.expectedOffset)
    (hle : p.header.sampleOffset + p.header.sampleCount < 2 ^ 32)
    (hend : p.header.flags &&& flagFrameEnd = 0 ↔
      p.header.sampleOffset + p.header.sampleCount ≠ frameSamples) :
    scan.step frameSamples p = { scan with
      expectedOffset := p.header.sampleOffset + p.header.sampleCount
      crc := crc32Update scan.crc p.payload } := by
  have hflag : p.header.flags &&& flagFrameEnd =
      if p.header.sampleOffset + p.header.sampleCount = frameSamples then flagFrameEnd else 0 := by
    split
    · next he => exact (and_frameEnd _).resolve_left fun h0 => hend.mp h0 he
    · next hne => exact hend.mpr hne
  unfold step
  simp only [hf, ne_eq, not_true_eq_false, if_false, Nat.mod_eq_of_lt hle, ← ho, hflag,
    Nat.or_zero]

/-- The rest of a frame. -/
theorem foldl_tiles (h : Tiles frameSamples frame offset l) (hlt : frameSamples < 2 ^ 32)
    (hl : ∀ p ∈ l, p ∈ s.packets) (hf : scan.currentFrame = frame)
    (ho : scan.expectedOffset = offset) :
    (l.map kept).foldl (step frameSamples) scan = { scan with
      expectedOffset := frameSamples
      crc := crc32Update scan.crc (l.flatMap (·.payload)) } := by
  induction h generalizing scan with
  | nil =>
    rw [← ho]
    rfl
  | @cons offset p rest hframe hoffset _ _ hend htiles ih =>
    have hle := htiles.le
    have hstep : scan.step frameSamples (kept p) = { scan with
        expectedOffset := offset + p.header.sampleCount
        crc := crc32Update scan.crc p.payload } := by
      rw [← s.kept_payload (hl p List.mem_cons_self), ← hoffset]
      have hsum : p.header.sampleOffset + p.header.sampleCount < 2 ^ 32 := by omega
      exact step_same (p := kept p) (hframe.trans hf.symm) (hoffset.trans ho.symm) hsum
        (hoffset ▸ hend)
    rw [List.map_cons, List.foldl_cons, hstep,
      ih (fun q hq => hl q (List.mem_cons_of_mem _ hq)) (by exact hf) (by rfl), List.flatMap_cons,
      crc32Update_append]

/-- A whole frame, the first or the one after the last. -/
theorem foldl_frame (h : Tiles frameSamples frame 0 l) (hlt : frameSamples < 2 ^ 32)
    (hpos : 0 < frameSamples) (hl : ∀ p ∈ l, p ∈ s.packets) (hne : frame ≠ scan.currentFrame)
    (hnext : scan.currentFrame = uint32Max ∨
      (frame = (scan.currentFrame + 1) % 2 ^ 32 ∧ scan.expectedOffset = frameSamples)) :
    (l.map kept).foldl (step frameSamples) scan = { scan with
      currentFrame := frame
      expectedOffset := frameSamples
      frameCount := scan.frameCount + 1
      crc := crc32Update scan.crc (l.flatMap (·.payload)) } := by
  cases hl' : l with
  | nil =>
    rw [hl'] at h
    cases h
    exact absurd hpos (lt_irrefl 0)
  | cons p rest =>
    have hp : (kept p).header.frameId = frame := h.frameId_eq p (hl' ▸ List.mem_cons_self)
    have hstart : (kept p).header.flags &&& flagFrameStart ≠ 0 := by
      rw [hl'] at h
      cases h with
      | cons _ _ _ hs _ _ => exact fun h0 => hs.mp h0 rfl
    -- the first packet of a frame leaves what it leaves when the frame is the current one
    have hfirst : scan.step frameSamples (kept p) = step frameSamples
        { scan with currentFrame := frame, expectedOffset := 0
                    frameCount := scan.frameCount + 1 } (kept p) := by
      have hissue : ¬ (scan.currentFrame ≠ uint32Max ∧
          (frame ≠ (scan.currentFrame + 1) % 2 ^ 32 ∨ scan.expectedOffset ≠ frameSamples)) := by
        rintro ⟨hn, hor⟩
        rcases hnext with hu | ⟨he, ho⟩
        · exact hn hu
        · exact hor.elim (fun hc => hc he) fun hc => hc ho
      unfold step
      simp only [hp, ne_eq, hne, not_false_eq_true, if_true, not_true_eq_false, if_false]
      rw [if_neg hissue, if_neg hstart, Nat.or_zero, Nat.or_zero]
    rw [List.map_cons, List.foldl_cons, hfirst, ← List.foldl_cons, ← List.map_cons, ← hl',
      foldl_tiles h hlt hl rfl rfl]

theorem foldl_frames {left frame sequence : ℕ} (hlt : frame + left < 2 ^ 32)
    (hl : ∀ p ∈ s.config.framesLoop s.samples left frame sequence, p ∈ s.packets)
    (hnext : (frame = 0 ∧ scan.currentFrame = uint32Max) ∨
      (frame = scan.currentFrame + 1 ∧ scan.expectedOffset = s.config.frameSamples.toNat))
    (hpos : 0 < left) :
    ((s.config.framesLoop s.samples left frame sequence).map kept).foldl
        (step s.config.frameSamples.toNat) scan = { scan with
      currentFrame := frame + left - 1
      expectedOffset := s.config.frameSamples.toNat
      frameCount := scan.frameCount + left
      crc := crc32Update scan.crc
        ((s.config.framesLoop s.samples left frame sequence).flatMap (·.payload)) } := by
  induction left generalizing frame sequence scan with
  | zero => exact absurd hpos (lt_irrefl 0)
  | succ left ih =>
    have htiles : Tiles s.config.frameSamples.toNat frame 0
        (s.config.frameLoop s.samples frame s.config.frameSamples.toNat 0 sequence) :=
      Config.frameLoop_tiles s.accepts (Nat.zero_le _) (by omega)
    have hne : frame ≠ scan.currentFrame := by
      rcases hnext with ⟨h0, hu⟩ | ⟨he, -⟩
      · rw [h0, hu]
        decide
      · omega
    have hframe := foldl_frame htiles s.config.frameSamples.toNat_lt s.accepts.frameSamples
      (fun p hp => hl p (List.mem_append_left _ hp)) hne
      (hnext.imp And.right fun h => ⟨by rw [← h.1]; exact (Nat.mod_eq_of_lt (by omega)).symm, h.2⟩)
    simp only [Config.framesLoop, List.map_append, List.foldl_append, List.flatMap_append,
      crc32Update_append, hframe]
    by_cases h0 : left = 0
    · subst h0
      simp [Config.framesLoop, crc32Update]
    · rw [ih (by omega) (fun p hp => hl p (List.mem_append_right _ hp)) (.inr ⟨rfl, rfl⟩)
        (Nat.pos_of_ne_zero h0)]
      simp only [mk.injEq, true_and, and_true]
      omega

/-- The scan of the DATA packets of a shot. -/
theorem scan_whole (s : SentShot) :
    ((s.config.dataPackets s.samples).map kept).foldl (step s.config.frameSamples.toNat) {} =
      { issues := 0
        currentFrame := s.config.frameCount.toNat - 1
        expectedOffset := s.config.frameSamples.toNat
        frameCount := s.config.frameCount.toNat
        crc := crc32Update (BitVec.allOnes 32) s.samples } := by
  have hpay := Config.dataPackets_payload s.accepts
  have hcount : 0 + s.config.frameCount.toNat < 2 ^ 32 := by
    rw [Nat.zero_add]
    exact s.config.frameCount.toNat_lt
  unfold Config.dataPackets at hpay ⊢
  rw [foldl_frames hcount (fun p hp => s.data_mem hp) (.inl ⟨rfl, rfl⟩) s.accepts.frameCount, hpay]
  simp

end FrameScan

/-! ## The verdict -/

/-- `finalize_shot` finds nothing wrong with the shot itself. -/
def SentShot.Fits (s : SentShot) (maxShotBytes : ℕ) : Prop :=
  s.timestamp ≠ 0 ∧ s.samples.length ≤ maxShotBytes

namespace Holds

variable {s : SentShot} {held : Packet → Bool} {shot : ShotState}

theorem packets_whole (h : Holds s held shot) (hw : ∀ p ∈ s.packets, held p) :
    shot.sortPackets.packets = s.packets.map kept := by
  rw [h.sortPackets_packets, List.filter_eq_self.mpr hw]

theorem info_whole (h : Holds s held shot) (hw : ∀ p ∈ s.packets, held p) :
    shot.sortPackets.info = some (s.infoPacket.header, s.config.streamInfo) := by
  rw [h.sort.info, if_pos (hw _ s.info_mem)]

theorem shotEnd_whole (h : Holds s held shot) (hw : ∀ p ∈ s.packets, held p) :
    shot.sortPackets.shotEnd = some (s.endPacket.header, s.config.shotEnd s.samples) := by
  rw [h.sort.shotEnd, if_pos (hw _ s.end_mem)]

theorem scanPackets_whole (h : Holds s held shot) (hw : ∀ p ∈ s.packets, held p) :
    shot.sortPackets.scanPackets =
      { issues := if s.timestamp = 0 then issueTimestamp else 0
        data := (s.config.dataPackets s.samples).map kept
        firstDataSequence := (s.config.shotEnd s.samples).firstPacketSequence
        lastDataSequence := (s.config.shotEnd s.samples).lastPacketSequence
        firstTimestamp := s.timestamp
        totalSamples := (s.config.shotEnd s.samples).totalSamples
        payloadBytes := s.samples.length
        sourceFlags := 0 } := by
  unfold ShotState.scanPackets
  rw [h.packets_whole hw, h.infoFormat_eq, if_pos (hw _ s.info_mem), PacketScan.scan_whole]

theorem frameSamples_whole (h : Holds s held shot) (hw : ∀ p ∈ s.packets, held p) :
    shot.sortPackets.frameSamples = s.config.frameSamples.toNat := by
  unfold ShotState.frameSamples
  rw [h.info_whole hw]
  rfl

theorem scanFrames_whole (h : Holds s held shot) (hw : ∀ p ∈ s.packets, held p) :
    shot.sortPackets.scanFrames shot.sortPackets.scanPackets =
      { issues := 0
        currentFrame := s.config.frameCount.toNat - 1
        expectedOffset := s.config.frameSamples.toNat
        frameCount := s.config.frameCount.toNat
        crc := crc32Update (BitVec.allOnes 32) s.samples } := by
  obtain ⟨rest, hrest, -⟩ := s.dataPackets_eq
  unfold ShotState.scanFrames PacketScan.inFrameOrder
  rw [h.scanPackets_whole hw, h.frameSamples_whole hw]
  dsimp only
  rw [inFrameOrder_eq, FrameScan.scan_whole, if_neg (by rw [hrest]; simp), hrest]
  simp [kept, SentShot.firstData, Config.dataPacket]

theorem shotIssues_whole (h : Holds s held shot) (hw : ∀ p ∈ s.packets, held p) :
    shot.sortPackets.shotIssues = 0 := by
  have hfs : s.config.streamInfo.frameSamples ≠ 0 := s.accepts.frameSamples.ne'
  have hsr : s.config.streamInfo.sampleRateDenominator ≠ 0 := s.accepts.sampleRateDenominator
  have htr : s.config.streamInfo.timestampRateDenominator ≠ 0 := s.accepts.timestampRateDenominator
  have hfmt : ¬ (s.infoPacket.header.payloadFormat ≠ formatCounterU32Le ∧
      s.infoPacket.header.payloadFormat ≠ formatIqS16Le) := fun hn =>
    s.accepts.format.elim hn.1 hn.2
  have hbytes : s.infoPacket.header.sampleBytes = 4 := s.accepts.sampleBytes
  unfold ShotState.shotIssues ShotState.haveInfo ShotState.haveEnd
  rw [h.info_whole hw, h.shotEnd_whole hw]
  dsimp only
  rw [if_neg (by simp), if_neg, if_neg (by simp [Config.shotEnd])]
  · rfl
  · rintro (h0 | h0 | h0 | h0 | h0)
    · exact hfs h0
    · exact hsr h0
    · exact htr h0
    · exact hfmt h0
    · exact h0 hbytes

theorem crc_whole (s : SentShot) :
    (crc32Update (BitVec.allOnes 32) s.samples ^^^ BitVec.allOnes 32).toNat =
      (s.config.shotEnd s.samples).payloadCrc32 := by
  show _ = (Config.payloadCrc32 (s.config.dataPackets s.samples)).toNat
  unfold Config.payloadCrc32
  rw [foldl_crc32Update, Config.dataPackets_payload s.accepts]

theorem endIssues_whole (h : Holds s held shot) (hw : ∀ p ∈ s.packets, held p) :
    shot.sortPackets.endIssues shot.sortPackets.scanPackets
      (shot.sortPackets.scanFrames shot.sortPackets.scanPackets)
      (crc32Update (BitVec.allOnes 32) s.samples ^^^ BitVec.allOnes 32).toNat = 0 := by
  have hbytes : (s.config.shotEnd s.samples).payloadBytes = s.samples.length := by
    have hl := s.accepts.length
    rw [s.accepts.frameBytes] at hl
    show s.config.payloadBytes = _
    unfold Config.payloadBytes Config.totalSamples
    rw [s.accepts.sampleBytes, ← hl]
    ring
  unfold ShotState.endIssues
  rw [h.shotEnd_whole hw, h.scanFrames_whole hw, h.scanPackets_whole hw]
  dsimp only
  rw [crc_whole, hbytes]
  have hflags : (s.config.shotEnd s.samples).endFlags &&&
      (uint32Max ^^^ (flagPayloadCrcValid ||| flagEndOfStream)) = 0 := by
    show (flagPayloadCrcValid ||| if s.config.endOfStream then flagEndOfStream else 0) &&& _ = 0
    cases s.config.endOfStream <;> decide
  have hcrc : (s.config.shotEnd s.samples).endFlags &&& flagPayloadCrcValid ≠ 0 := by
    show (flagPayloadCrcValid ||| if s.config.endOfStream then flagEndOfStream else 0) &&& _ ≠ 0
    cases s.config.endOfStream <;> decide
  have hframes : (s.config.shotEnd s.samples).totalFrames = s.config.frameCount.toNat := rfl
  have hdata : (s.config.shotEnd s.samples).totalDataPackets =
      ((s.config.dataPackets s.samples).map kept).length := by
    rw [List.length_map]
    rfl
  rw [if_neg (not_not.mpr hflags), if_neg, if_neg]
  · rfl
  · exact fun hor => hor.elim hcrc fun hne => hne rfl
  · simp [hframes, hdata]

/-- The tests of `finalize_shot` on an entry with all packets of a shot. -/
theorem inspect_whole (h : Holds s held shot) (hw : ∀ p ∈ s.packets, held p) (run : RunState) :
    ((run.inspect shot.sortPackets).issueFlags = 0 ↔
      s.Fits run.maxShotBytes ∧ run.runIssues shot.sortPackets s.timestamp = 0) ∧
    (run.inspect shot.sortPackets).scan.payloadBytes = s.samples.length ∧
    (run.inspect shot.sortPackets).scan.inFrameOrder.flatMap (·.payload) = s.samples := by
  obtain ⟨rest, hrest, -⟩ := s.dataPackets_eq
  have hframes := h.scanFrames_whole hw
  have hend := h.endIssues_whole hw
  have hscan := h.scanPackets_whole hw
  have hissues : (if s.timestamp = 0 then issueTimestamp else 0) = 0 ↔ s.timestamp ≠ 0 := by
    split <;> simp [*, issueTimestamp]
  have hsize : (if (s.config.dataPackets s.samples).map kept = [] ∨
      run.maxShotBytes < s.samples.length then issueFrame else 0) = 0 ↔
      s.samples.length ≤ run.maxShotBytes := by
    rw [hrest]
    split <;> simp_all [issueFrame]
  refine ⟨?_, ?_, ?_⟩
  · unfold RunState.inspect SentShot.Fits
    dsimp only
    rw [h.shotIssues_whole hw, h.countMissing_eq_zero.mpr hw, h.sort.issueFlags]
    rw [hframes] at hend ⊢
    dsimp only at hend ⊢
    rw [hend, hscan]
    simp only [Nat.or_eq_zero_iff, ne_eq, not_true_eq_false, if_false, true_and, and_true, hissues,
      hsize, and_assoc]
  · unfold RunState.inspect
    dsimp only
    rw [hscan]
  · unfold RunState.inspect PacketScan.inFrameOrder
    dsimp only
    rw [hscan]
    dsimp only
    rw [inFrameOrder_eq, List.flatMap_map]
    refine Eq.trans (List.flatMap_congr fun p hp => ?_) (Config.dataPackets_payload s.accepts)
    exact s.kept_payload (s.data_mem hp)

end Holds

end QCrate.Recorder
