import QCrate.Receiver.Delivery
import Mathlib.Data.List.TakeWhile

/-!
# From the packetizer to the assembler

The assembler finds no issue in a shot of the packetizer exactly when every datagram of the shot
arrived, and then its samples are the packetized buffer.

* `issues_eq_nil` — the checks of `finalize` on the packets that arrived.
* `roundTrip` — the verdict for every delivery.
-/

namespace QCrate.Receiver

open QCrate.Lib QCrate.DataPlane
open QCrate.Recorder (Source)

variable {c : Config} {samples : Bytes}

/-! ## The DATA packets of a whole shot -/

/-- The DATA packets of the shot, all of them, in sequence order. -/
def whole (c : Config) (samples : Bytes) : Ordered := ⟨(c.dataPackets samples).map chunk⟩

theorem whole_pairwise (h : c.Accepts samples) :
    (whole c samples).chunks.Pairwise fun a b => a.key < b.key := by
  refine List.pairwise_map.mpr ((Config.dataPackets_pairwise h).imp fun {p q} hpq => ?_)
  unfold Chunk.key
  rw [Prod.Lex.toLex_lt_toLex]
  rcases hpq with hf | ⟨hf, ho⟩
  · exact .inl hf
  · refine .inr ⟨hf, ?_⟩
    rw [Prod.Lex.toLex_lt_toLex]
    exact .inl ho

theorem whole_logical (h : c.Accepts samples) :
    (whole c samples).logical = (c.dataPackets samples).map chunk :=
  Ordered.logical_eq _ (whole_pairwise h)

theorem whole_frameIds (h : c.Accepts samples) :
    (whole c samples).frameIds = List.range c.frameCount.toNat := by
  have hmem : ∀ id, id ∈ (whole c samples).frameIds ↔ id ∈ List.range c.frameCount.toNat := by
    intro id
    rw [Ordered.mem_frameIds, List.mem_range, ← Config.mem_frameIds h]
    simp only [whole, List.mem_map, exists_exists_and_eq_and]
    rfl
  have hsorted := (whole c samples).frameIds_pairwise
  have hperm : (whole c samples).frameIds.Perm (List.range c.frameCount.toNat) :=
    (List.perm_ext_iff_of_nodup (hsorted.imp ne_of_lt) List.nodup_range).mpr hmem
  exact hperm.eq_of_pairwise (fun _ _ _ _ hab hba => absurd hab hba.not_gt) hsorted
    List.pairwise_lt_range

theorem whole_frame (h : c.Accepts samples) {id : ℕ} (hid : id < c.frameCount.toNat) :
    (whole c samples).frame id = (c.framePackets samples id).map chunk := by
  have hfilter : (whole c samples).chunks.filter (·.frameId = id) =
      (c.framePackets samples id).map chunk := by
    rw [← Config.filter_dataPackets h hid, whole, List.filter_map]
    rfl
  have hframe := (Config.framePackets_tiles h id).frameId_eq
  have hoffset : ((c.framePackets samples id).map chunk).Pairwise fun a b =>
      toLex (a.offset, a.1) < toLex (b.offset, b.1) := by
    refine List.pairwise_map.mpr
      ((Config.frameLoop_pairwise h id _ 0 _).imp_of_mem fun {p q} hp hq hpq => ?_)
    rw [Prod.Lex.toLex_lt_toLex]
    rcases hpq with hlt | ⟨-, hlt⟩
    · rw [hframe p hp, hframe q hq] at hlt
      exact absurd hlt (lt_irrefl _)
    · exact .inl hlt
  unfold Ordered.frame
  rw [hfilter]
  exact insertionSort_eq_of_perm Chunk.le_iff (.refl _) hoffset

/-- The walk over a frame that is tiled finds nothing and ends at the end of the frame. -/
theorem frameWalk_tiles {frameSamples frame offset : ℕ} {l : List Packet}
    (h : Tiles frameSamples frame offset l) :
    (l.map chunk).foldl (FrameWalk.step frame) ⟨offset, []⟩ = ⟨frameSamples, []⟩ := by
  induction h with
  | nil => rfl
  | @cons offset p rest _ hoffset _ _ _ _ ih =>
    have hstep : FrameWalk.step frame ⟨offset, []⟩ (chunk p) =
        ⟨offset + p.header.sampleCount, []⟩ := by
      have hc : (chunk p).offset = offset := hoffset
      unfold FrameWalk.step
      rw [hc]
      simp [chunk]
    rw [List.map_cons, List.foldl_cons, hstep, ih]

theorem frameIssues_tiles {frameSamples frame : ℕ} {l : List Packet}
    (h : Tiles frameSamples frame 0 l) :
    frameIssues (some frameSamples) frame (l.map chunk) = [] := by
  have hwalk := frameWalk_tiles h
  have hlast := fun p => h.getLast_frameEnd (p := p)
  unfold frameIssues
  dsimp only
  rw [hwalk]
  simp only [List.append_nil, List.append_eq_nil_iff, issueIf_eq_nil, ne_eq,
    not_true_eq_false, not_false_eq_true, and_true]
  constructor
  · cases h with
    | nil => simp
    | cons _ _ _ hstart _ _ =>
      simp only [List.map_cons, List.head?_cons, Option.any_some, chunk, decide_eq_true_eq]
      exact fun h0 => hstart.mp h0 rfl
  · rw [List.getLast?_map]
    cases hl : l.getLast? with
    | none => simp
    | some p =>
      simp only [Option.map_some, Option.any_some, chunk, decide_eq_true_eq]
      exact hlast p hl

theorem whole_sourceFlags : (whole c samples).sourceFlags = 0 := by
  have hzero : ∀ l : List Packet, (∀ p ∈ l, p.header.flags &&& integrityMask = 0) →
      (l.map chunk).foldl (fun flags c => flags ||| (c.2.header.flags &&& integrityMask)) 0 =
        0 := by
    intro l hl
    induction l with
    | nil => rfl
    | cons p l ih =>
      rw [List.map_cons, List.foldl_cons]
      show (l.map chunk).foldl _ (0 ||| (p.header.flags &&& integrityMask)) = 0
      rw [hl p List.mem_cons_self]
      exact ih fun q hq => hl q (List.mem_cons_of_mem _ hq)
  refine hzero _ fun p hp => ?_
  obtain ⟨f, o, q, -, -, -, rfl⟩ := Config.mem_dataPackets hp
  have hflags := @and_otherFlags integrityMask (by decide)
    (f = 0 ∧ o = 0 ∧ c.firstSampleTimestampValid) (o = 0)
    (o + c.sampleCountAt o = c.frameSamples.toNat)
  simp only [Config.dataPacket, decide_eq_true_eq, and_assoc] at hflags ⊢
  exact hflags

theorem whole_payload (h : c.Accepts samples) : (whole c samples).payloadBySequence = samples := by
  unfold Ordered.payloadBySequence whole
  rw [List.flatMap_map]
  exact Config.dataPackets_payload h

theorem whole_reconstructed (h : c.Accepts samples) :
    (whole c samples).reconstructed = samples := by
  unfold Ordered.reconstructed
  rw [whole_logical h]
  exact whole_payload h

theorem whole_issues (h : c.Accepts samples) :
    (whole c samples).issues (some c.frameSamples.toNat) = [] := by
  have hne : (whole c samples).chunks ≠ [] := by
    simpa [whole] using Config.dataPackets_ne_nil h
  have hcount := h.frameCount
  unfold Ordered.issues
  simp only [List.append_eq_nil_iff, issueIf_eq_nil, not_not, List.flatMap_eq_nil_iff]
  refine ⟨⟨⟨⟨hne, ?_⟩, fun id hid => ?_⟩, ?_⟩, whole_sourceFlags⟩
  · rw [whole_frameIds h, List.length_range, List.range_eq_range']
    cases hn : c.frameCount.toNat with
    | zero => omega
    | succ n => rfl
  · rw [whole_frameIds h, List.mem_range] at hid
    rw [whole_frame h hid]
    exact frameIssues_tiles (Config.framePackets_tiles h id)
  · rw [whole_logical h]
    rfl

/-- The CRC of the packetizer runs over its packets, the one of the receiver over the bytes. -/
theorem payloadCrc32_eq (packets : List Packet) :
    (Config.payloadCrc32 packets).toNat = crc32 (packets.flatMap (·.payload)) := by
  unfold Config.payloadCrc32 crc32
  rw [foldl_crc32Update]

theorem whole_endIssues (h : c.Accepts samples) (hend : c.endOfStream = true) :
    (whole c samples).endIssues (c.shotEnd samples) = [] := by
  have hpayload := whole_payload h
  have hseq := Config.dataPackets_sequence c samples
  have hlen : samples.length = c.payloadBytes := by
    have hl := h.length
    rw [h.frameBytes] at hl
    unfold Config.payloadBytes Config.totalSamples
    rw [h.sampleBytes, ← hl]
    ring
  unfold Ordered.endIssues
  simp only [List.append_eq_nil_iff, issueIf_eq_nil, not_not, hpayload]
  refine ⟨⟨⟨⟨⟨⟨⟨⟨rfl, ?_⟩, ?_⟩, ?_⟩, ?_⟩, hlen⟩, ?_⟩, ?_⟩, ?_⟩
  · simp only [Config.shotEnd, hend]
    decide
  · rw [whole_frameIds h, List.length_range]
    rfl
  · show ((whole c samples).chunks.map (·.2.header.sampleCount)).sum = c.totalSamples
    rw [whole, List.map_map]
    exact Config.sum_sampleCount h
  · rw [whole, List.length_map]
    rfl
  · rw [whole, List.head?_map]
    obtain ⟨rest, hrest⟩ := Config.dataPackets_cons h
    rw [hrest]
    simp [chunk, Config.dataPacket, Config.header, Config.shotEnd, Config.result]
  · rw [whole, List.getLast?_map]
    cases hl : (c.dataPackets samples).getLast? with
    | none => simp
    | some p =>
      have hlast : ((c.dataPackets samples).map (·.header.packetSequence)).getLast? =
          some p.header.packetSequence := by
        rw [List.getLast?_map, hl]
        rfl
      rw [hseq, List.getLast?_range'] at hlast
      split at hlast
      · cases hlast
      · have hp : p.header.packetSequence = (c.shotEnd samples).lastPacketSequence := by
          rw [← Option.some.inj hlast]
          simp only [Config.shotEnd, Config.result]
        simp [chunk, hp]
  · intro hcrc
    refine hcrc.2 ?_
    show crc32 samples = (Config.payloadCrc32 (c.dataPackets samples)).toNat
    rw [payloadCrc32_eq, Config.dataPackets_payload h]

/-! ## What arrived -/

section Verdict

variable {δ : Type} {sha256 : Bytes → δ} {source : Source} {ps : List Packet}
  {a : ShotAssembler δ}

theorem Collected.ordered_eq (h : Collected sha256 c samples source ps a)
    (hall : ∀ p ∈ c.shotPackets samples, p ∈ ps) : a.ordered = whole c samples := by
  have hdata : (ps.filter (·.header.packetType = .data)).Perm (c.dataPackets samples) := by
    refine (List.perm_ext_iff_of_nodup (h.nodup.filter _)
      ((Config.dataPackets_sequence_pairwise c samples).imp ?_)).mpr fun p => ?_
    · rintro p q hlt rfl
      exact lt_irrefl _ hlt
    · rw [List.mem_filter, decide_eq_true_eq]
      constructor
      · exact fun hp => (Config.packetType_of_mem (h.genuine p hp.1)).2.1.mp hp.2
      · intro hp
        have hmem : p ∈ c.shotPackets samples := by simp [Config.shotPackets, hp]
        exact ⟨hall p hmem, (Config.packetType_of_mem hmem).2.1.mpr hp⟩
  unfold ShotAssembler.ordered whole
  rw [h.data]
  congr 1
  refine insertionSort_eq_of_perm (k := Prod.fst) (fun _ _ => Iff.rfl) (hdata.map chunk) ?_
  exact List.pairwise_map.mpr (Config.dataPackets_sequence_pairwise c samples)

theorem Collected.intervalIssues_eq_nil (h : Collected sha256 c samples source ps a)
    (hinfo : c.infoPacket ∈ ps) (hend : c.endPacket samples ∈ ps) :
    a.intervalIssues = [] ↔ ∀ p ∈ c.shotPackets samples, p ∈ ps := by
  have hseqs := Config.shotPackets_sequence c samples
  have hsequences : a.sequences = ps.map (·.header.packetSequence) := by
    unfold ShotAssembler.sequences
    rw [h.seen, List.map_map]
    rfl
  have hlast : (c.endPacket samples).header.packetSequence =
      c.initialSequence.toNat + (c.dataPackets samples).length + 1 := by
    simp only [Config.endPacket, Config.header]
    omega
  have hlen := Config.length_shotPackets c samples
  have hrange : ∀ p ∈ ps, c.initialSequence.toNat ≤ p.header.packetSequence ∧
      p.header.packetSequence ≤ (c.endPacket samples).header.packetSequence := by
    intro p hp
    have := Config.sequence_mem (h.genuine p hp)
    omega
  have hfirst : c.infoPacket.header.packetSequence = c.initialSequence.toNat := rfl
  have hoe : (c.endPacket samples).header.packetSequence ≥ c.initialSequence.toNat := by omega
  have houtside : a.sequences.countP (fun sequence => sequence < c.initialSequence.toNat ∨
      (c.endPacket samples).header.packetSequence < sequence) = 0 := by
    rw [List.countP_eq_zero, hsequences]
    simp only [List.forall_mem_map, decide_eq_true_eq]
    intro p hp
    have := hrange p hp
    omega
  unfold ShotAssembler.intervalIssues
  rw [h.info, h.shotEnd, if_pos hinfo, if_pos hend]
  dsimp only
  rw [hfirst, if_neg (by omega), houtside]
  simp only [List.append_eq_nil_iff, issueIf_eq_nil, not_not, not_true_eq_false, ne_eq,
    not_false_eq_true, and_true]
  -- the packets of the shot have all sequences of the interval, one each
  rw [findMissingRanges_eq_zero hoe, hsequences]
  constructor
  · intro hmem p hp
    have hp' := Config.sequence_mem hp
    obtain ⟨q, hq, he⟩ := List.mem_map.mp (hmem p.header.packetSequence hp'.1 (by omega))
    rw [← Config.eq_of_sequence_eq (h.genuine q hq) hp he]
    exact hq
  · intro hall v hv hle
    have hv' : v ∈ (c.shotPackets samples).map (·.header.packetSequence) := by
      rw [hseqs, List.mem_range'_1]
      omega
    obtain ⟨p, hp, he⟩ := List.mem_map.mp hv'
    exact List.mem_map.mpr ⟨p, hall p hp, he⟩

/-- The checks of `finalize` on the packets that arrived. -/
theorem Collected.issues_eq_nil (hc : c.Accepts samples) (heos : c.endOfStream = true)
    (h : Collected sha256 c samples source ps a) :
    a.issues = [] ↔ ∀ p ∈ c.shotPackets samples, p ∈ ps := by
  have hinfo : c.infoPacket ∈ c.shotPackets samples := List.mem_cons_self
  have hend : c.endPacket samples ∈ c.shotPackets samples := by simp [Config.shotPackets]
  constructor
  · intro hnil
    unfold ShotAssembler.issues at hnil
    simp only [List.append_eq_nil_iff, issueIf_eq_nil] at hnil
    obtain ⟨⟨⟨⟨⟨⟨⟨⟨⟨-, -⟩, hi⟩, he⟩, -⟩, -⟩, -⟩, hinterval⟩, -⟩, -⟩ := hnil
    have hin : c.infoPacket ∈ ps := by
      by_contra hout
      exact hi (by rw [h.info, if_neg hout])
    have hen : c.endPacket samples ∈ ps := by
      by_contra hout
      exact he (by rw [h.shotEnd, if_neg hout])
    exact (h.intervalIssues_eq_nil hin hen).mp hinterval
  · intro hall
    have hinterval := (h.intervalIssues_eq_nil (hall _ hinfo) (hall _ hend)).mpr hall
    have hdata := whole_issues hc
    unfold ShotAssembler.issues
    rw [hinterval, h.ordered_eq hall, h.info, h.shotEnd, if_pos (hall _ hinfo),
      if_pos (hall _ hend), h.protocolErrors, h.malformedSelected, h.conflictingDuplicates,
      h.pendingOverflow, h.identity]
    simp only [Option.map_some]
    rw [show c.streamInfo.frameSamples = c.frameSamples.toNat from rfl, hdata,
      whole_endIssues hc heos]
    rfl

/-- Without a STREAM_INFO there is no capture. -/
theorem issues_ne_nil (h : a.identity = none) : a.issues ≠ [] := by
  unfold ShotAssembler.issues
  rw [h]
  simp [issueIf]

end Verdict

/-! ## Deliveries of the whole shot -/

/-- A list up to the first element that fails a test, and that element. -/
theorem exists_takeWhile_append {α : Type*} {p : α → Bool} {l : List α} (h : ∃ a ∈ l, ¬ p a) :
    ∃ a rest, l = l.takeWhile p ++ a :: rest ∧ ¬ p a := by
  induction l with
  | nil =>
    obtain ⟨a, ha, -⟩ := h
    cases ha
  | cons b l ih =>
    by_cases hb : p b
    · obtain ⟨a, ha, hpa⟩ := h
      rcases List.mem_cons.mp ha with rfl | ha
      · exact absurd hb hpa
      · obtain ⟨a', rest, heq, hpa'⟩ := ih ⟨a, ha, hpa⟩
        refine ⟨a', rest, ?_, hpa'⟩
        rw [List.takeWhile_cons_of_pos hb, List.cons_append, ← heq]
    · exact ⟨b, l, by rw [List.takeWhile_cons_of_neg hb]; rfl, hb⟩

section Deliver

variable {δ : Type} [DecidableEq δ] (sha256 : Bytes → δ) {source : Source}

theorem selects_info (hc : c.Accepts samples) {r : JournalRecord}
    (hr : Genuine c samples source r) (hd : r.datagram = c.infoPacket.datagram) :
    ShotAssembler.selects (ShotAssembler.read r) = some (shotIdentity c source) := by
  have hmem : c.infoPacket ∈ c.shotPackets samples := List.mem_cons_self
  have hkey := packetKey_packet hmem hr.1
  have htype : c.infoPacket.header.packetType = .streamInfo := rfl
  rw [read_packet hc hmem hd]
  unfold ShotAssembler.selects
  dsimp only
  rw [if_pos htype, hkey]

/-- The first STREAM_INFO selects the shot and takes in what waits. -/
theorem collected_select (hc : c.Accepts samples)
    (hclock : c.timestampClockId.toNat ≤ timestampClockMax) {before : List JournalRecord}
    {r : JournalRecord} (hb : ∀ r ∈ before, Genuine c samples source r)
    (hr : Genuine c samples source r) (hd : r.datagram = c.infoPacket.datagram) (n : ℕ) :
    ∃ ps, Collected sha256 c samples source ps (ShotAssembler.ingest sha256
        { pending := before.map ShotAssembler.read, totalDatagrams := n } r) ∧
      ∀ q ∈ c.shotPackets samples, q ∈ ps ↔ ∃ r' ∈ before ++ [r], r'.datagram = q.datagram := by
  have hempty : Collected sha256 c samples source []
      { identity := some (shotIdentity c source), totalDatagrams := n + 1 } :=
    { nodup := .nil, genuine := nofun, identity := rfl, seen := rfl, data := rfl
      info := rfl, shotEnd := rfl, protocolErrors := rfl, malformedSelected := rfl
      conflictingDuplicates := rfl, pendingOverflow := rfl }
  have hall : ∀ q ∈ before ++ [r], Genuine c samples source q := by
    intro q hq
    rcases List.mem_append.mp hq with hq | hq
    · exact hb q hq
    · exact List.mem_singleton.mp hq ▸ hr
  obtain ⟨ps, h, hmem⟩ := hempty.routeAll hc hclock hall
  have hingest : ShotAssembler.ingest sha256
      { pending := before.map ShotAssembler.read, totalDatagrams := n } r =
      ((before ++ [r]).map ShotAssembler.read).foldl
        (ShotAssembler.route sha256 (shotIdentity c source))
        { identity := some (shotIdentity c source), totalDatagrams := n + 1 } := by
    unfold ShotAssembler.ingest
    simp only [selects_info hc hr hd, List.map_append, List.map_cons, List.map_nil]
  refine ⟨ps, hingest ▸ h, fun q hq => ?_⟩
  rw [hmem q hq]
  simp only [List.not_mem_nil, false_or]

/-- After a delivery with the STREAM_INFO the assembler has the packets of the delivery. -/
theorem collected_ingestAll (hc : c.Accepts samples)
    (hclock : c.timestampClockId.toNat ≤ timestampClockMax) {records : List JournalRecord}
    (hr : ∀ r ∈ records, Genuine c samples source r)
    (hinfo : ∃ r ∈ records, r.datagram = c.infoPacket.datagram)
    (hwindow : (records.takeWhile (·.datagram ≠ c.infoPacket.datagram)).length ≤
      maxPendingDatagrams) :
    ∃ ps, Collected sha256 c samples source ps (ShotAssembler.ingestAll sha256 records) ∧
      ∀ q ∈ c.shotPackets samples, q ∈ ps ↔ ∃ r ∈ records, r.datagram = q.datagram := by
  obtain ⟨r, after, hsplit, hrd⟩ := exists_takeWhile_append
    (p := fun r : JournalRecord => r.datagram ≠ c.infoPacket.datagram) (by simpa using hinfo)
  have hne := fun r hr => List.mem_takeWhile_imp (l := records) (x := r)
    (p := fun r : JournalRecord => r.datagram ≠ c.infoPacket.datagram) hr
  simp only [ne_eq, decide_not, Bool.not_eq_eq_eq_not, Bool.not_true, decide_eq_false_iff_not,
    not_not] at hsplit hrd hne hwindow
  generalize List.takeWhile _ records = before at hsplit hne hwindow
  subst hsplit
  have hrb : ∀ r ∈ before, Genuine c samples source r := fun r hr' =>
    hr r (List.mem_append_left _ hr')
  have hra : ∀ r ∈ after, Genuine c samples source r := fun r hr' =>
    hr r (List.mem_append_right _ (List.mem_cons_of_mem _ hr'))
  have hwait : before.foldl (ShotAssembler.ingest sha256) {} = _ :=
    waiting hc hrb hne (w := []) (n := 0) (by simpa using hwindow)
  rw [List.nil_append, Nat.zero_add] at hwait
  obtain ⟨ps₁, h₁, hmem₁⟩ := collected_select sha256 hc hclock hrb
    (hr r (List.mem_append_right _ List.mem_cons_self)) hrd before.length
  obtain ⟨ps, h, hmem⟩ := h₁.ingestAll hc hclock hra
  refine ⟨ps, ?_, fun q hq => ?_⟩
  · unfold ShotAssembler.ingestAll
    rw [List.foldl_append, List.foldl_cons]
    rw [show ({} : ShotAssembler δ) = { pending := [], totalDatagrams := 0 } from rfl, hwait]
    exact h
  · rw [hmem q hq, hmem₁ q hq, List.append_cons before r after]
    simp only [List.mem_append, or_and_right, exists_or]

theorem accepts_of_packetize {result : PacketizerResult} {emitted : List Bytes}
    (h : packetize collect c samples [] = .ok (result, emitted)) :
    c.Accepts samples ∧ emitted = (c.shotPackets samples).map Packet.datagram := by
  have hcheck : c.check samples = .ok () := by
    unfold packetize at h
    split at h
    · cases h
    · next hcheck => exact hcheck
  rw [packetize_collect hcheck] at h
  cases h
  exact ⟨Config.accepts_of_check hcheck, rfl⟩

/-- Whatever is lost, duplicated or reordered on the way, the capture is complete exactly when
every datagram of the shot arrived, and its samples are then the packetized buffer. -/
theorem roundTrip {result : PacketizerResult} {emitted : List Bytes}
    (h : packetize collect c samples [] = .ok (result, emitted)) (heos : c.endOfStream = true)
    (hclock : c.timestampClockId.toNat ≤ timestampClockMax) {records : List JournalRecord}
    (hrecords : ∀ r ∈ records, r.source = source ∧ r.datagram ∈ emitted)
    (hwindow : (∃ r ∈ records, r.datagram = c.infoPacket.datagram) →
      (records.takeWhile (·.datagram ≠ c.infoPacket.datagram)).length ≤ maxPendingDatagrams) :
    ((ShotAssembler.ingestAll sha256 records).finalize.complete = true ↔
      ∀ d ∈ emitted, ∃ r ∈ records, r.datagram = d) ∧
    ((ShotAssembler.ingestAll sha256 records).finalize.complete = true →
      (ShotAssembler.ingestAll sha256 records).finalize.samples = some samples) := by
  obtain ⟨hc, rfl⟩ := accepts_of_packetize h
  have hgenuine : ∀ r ∈ records, Genuine c samples source r := by
    intro r hr
    obtain ⟨hs, hd⟩ := hrecords r hr
    obtain ⟨p, hp, he⟩ := List.mem_map.mp hd
    exact ⟨hs, p, hp, he.symm⟩
  unfold ShotAssembler.finalize
  simp only [List.isEmpty_iff, List.forall_mem_map]
  by_cases hinfo : ∃ r ∈ records, r.datagram = c.infoPacket.datagram
  · obtain ⟨ps, hps, hmem⟩ := collected_ingestAll sha256 hc hclock hgenuine hinfo (hwindow hinfo)
    have hissues := hps.issues_eq_nil hc heos
    refine ⟨?_, fun hnil => ?_⟩
    · rw [hissues]
      exact forall₂_congr fun q hq => hmem q hq
    · rw [if_pos hnil, hps.ordered_eq (hissues.mp hnil), whole_reconstructed hc]
  · have hnone : (ShotAssembler.ingestAll sha256 records).identity = none :=
      identity_eq_none hc hgenuine (fun r hr hd => hinfo ⟨r, hr, hd⟩) rfl
    have hissues := issues_ne_nil hnone
    refine ⟨⟨fun hnil => absurd hnil hissues, fun hall => ?_⟩, fun hnil => absurd hnil hissues⟩
    exact absurd (hall _ List.mem_cons_self) hinfo

end Deliver

/-! ### A shot of two frames -/

/-- Two frames of one sample. -/
def twoFrames : Config :=
  { payloadFormat := 2, sampleBytes := 4, streamId := 1, runId := 1, shotId := 1
    initialSequence := 0, frameSamples := 1, frameCount := 2
    sampleRateNumerator := 12500000, sampleRateDenominator := 1
    timestampRateNumerator := 200000000, timestampRateDenominator := 1
    centerFrequencyHz := 0, channelCount := 1, componentBits := 16, fractionBits := 15
    timestampClockId := 1, configId := 7, firstSampleTimestamp := 100
    firstSampleTimestampValid := true, endOfStream := true }

def twoSamples : Bytes := [1, 2, 3, 4, 5, 6, 7, 8]

/-- Its datagrams from the last to the first, and all of them once more. -/
def backAndForth : List JournalRecord :=
  ((twoFrames.shotPackets twoSamples).reverse ++ twoFrames.shotPackets twoSamples).map
    fun p => ⟨0, .inet 1 5000, p.datagram⟩

theorem roundTrip_backAndForth :
    (ShotAssembler.ingestAll id backAndForth).finalize.complete = true ∧
      (ShotAssembler.ingestAll id backAndForth).finalize.samples = some twoSamples := by
  have hrecords : ∀ r ∈ backAndForth, r.source = .inet 1 5000 ∧
      r.datagram ∈ (twoFrames.shotPackets twoSamples).map Packet.datagram := by
    intro r hr
    obtain ⟨p, hp, rfl⟩ := List.mem_map.mp hr
    rw [List.mem_append, List.mem_reverse, or_self] at hp
    exact ⟨rfl, List.mem_map_of_mem hp⟩
  have hlen : backAndForth.length ≤ maxPendingDatagrams := by decide
  obtain ⟨hiff, hsamples⟩ := roundTrip id (packetize_collect (by decide)) rfl (by decide)
    hrecords fun _ => (List.takeWhile_prefix _).length_le.trans hlen
  have hcomplete := hiff.mpr fun d hd => by
    obtain ⟨p, hp, rfl⟩ := List.mem_map.mp hd
    exact ⟨_, List.mem_map_of_mem (List.mem_append_right _ hp), rfl⟩
  exact ⟨hcomplete, hsamples hcomplete⟩

end QCrate.Receiver
