import QCrate.Analyzer.Index
import QCrate.Recorder.Heartbeats
import QCrate.Recorder.RunFormat

/-!
# The recorder: what the reader of the index accepts

`ShotRecord.decode` imposes rules on a record that the recorder never states. They follow from
what an entry of the table can hold and from the branches of `finalize_shot`.

* `IndexRecord.Sound` — the fields fit their widths and agree with each other.
* `decode_bytes` — a sound record is read back.
* `ShotState.Sound`, `RunState.Sound` — what every entry and every run keeps.
* `index_roundTrip` — every record of a recording is sound.
-/

namespace QCrate.Recorder

open QCrate.Lib QCrate.DataPlane

/-! ## Records -/

/-- The state as the reader names it. -/
def IndexState.view : IndexState → Analyzer.ShotState
  | complete => .complete
  | incomplete => .incomplete

/-- The record in the file, in which the counters of 32 bits have wrapped around. -/
def IndexRecord.stored (r : IndexRecord) : Analyzer.ShotRecord where
  shotId := r.shotId
  state := r.state.view
  issues := r.issueFlags
  firstPacketSequence := r.firstPacketSequence
  lastPacketSequence := r.lastPacketSequence
  firstSampleTimestamp := r.firstSampleTimestamp
  firstReceiveNs := r.firstReceiveNs
  lastReceiveNs := r.lastReceiveNs
  sampleOffset := r.sampleFileOffset
  sampleBytes := r.sampleBytes
  frameCount := r.frameCount % 2 ^ 32
  frameSamples := r.frameSamples
  dataPackets := r.dataPackets
  datagrams := r.datagrams % 2 ^ 32
  duplicatePackets := r.duplicatePackets % 2 ^ 32
  reorderedPackets := r.reorderedPackets % 2 ^ 32
  missingPackets := r.missingPackets
  payloadCrc32 := r.payloadCrc32
  sourceFlags := r.sourceFlags
  payloadFormat := r.payloadFormat
  sampleBytesPerWord := r.sampleBytesPerWord
  configId := r.configId

/-- A record written while the sample file has `fileBytes` bytes. -/
structure IndexRecord.Sound (r : IndexRecord) (fileBytes : ℕ) : Prop where
  shotId : r.shotId < 256 ^ 8
  issueFlags : r.issueFlags < 2 ^ 8
  firstPacketSequence : r.firstPacketSequence < 256 ^ 8
  lastPacketSequence : r.lastPacketSequence < 256 ^ 8
  firstSampleTimestamp : r.firstSampleTimestamp < 256 ^ 8
  receive : r.firstReceiveNs ≤ r.lastReceiveNs
  lastReceiveNs : r.lastReceiveNs < 256 ^ 8
  frameSamples : r.frameSamples < 256 ^ 4
  dataPackets : r.dataPackets < 256 ^ 4
  missingPackets : r.missingPackets < 256 ^ 4
  payloadCrc32 : r.payloadCrc32 < 256 ^ 4
  sourceFlags : r.sourceFlags < 256 ^ 4
  payloadFormat : r.payloadFormat < 256 ^ 2
  sampleBytesPerWord : r.sampleBytesPerWord < 256 ^ 2
  configId : r.configId < 256 ^ 8
  complete : r.state = .complete →
    r.issueFlags = 0 ∧ 0 < r.sampleBytes ∧ r.sampleFileOffset + r.sampleBytes ≤ fileBytes
  incomplete : r.state = .incomplete → r.sampleFileOffset = uint64Max ∧ r.sampleBytes = 0

/-- A later time bounds the times of a record as well. -/
theorem IndexRecord.Sound.mono {r : IndexRecord} {n m : ℕ} (h : r.Sound n) (hle : n ≤ m) :
    r.Sound m where
  __ := h
  complete := fun hc => ⟨(h.complete hc).1, (h.complete hc).2.1, (h.complete hc).2.2.trans hle⟩

/-- A sound record passes every test of the reader. -/
theorem check_stored {r : IndexRecord} {n : ℕ} (h : r.Sound n) (hn : n < 2 ^ 63) :
    Analyzer.ShotRecord.check r.stored = .ok r.stored := by
  have hreceive : ¬r.stored.lastReceiveNs < r.stored.firstReceiveNs := h.receive.not_gt
  unfold Analyzer.ShotRecord.check Analyzer.ShotRecord.complete
  cases hs : r.state with
  | complete =>
    obtain ⟨hissues, hbytes, hoffset⟩ := h.complete hs
    have hstate : r.stored.state = .complete := congrArg IndexState.view hs
    have hissues' : r.stored.issues = 0 := hissues
    have hoffset' : r.stored.sampleOffset ≠ uint64Max := by
      show r.sampleFileOffset ≠ uint64Max
      unfold uint64Max
      omega
    have hbytes' : r.stored.sampleBytes ≠ 0 := hbytes.ne'
    simp [hstate, hissues', hoffset', hbytes', hreceive]
  | incomplete =>
    obtain ⟨hoffset, hbytes⟩ := h.incomplete hs
    have hstate : r.stored.state = .incomplete := congrArg IndexState.view hs
    have hoffset' : r.stored.sampleOffset = uint64Max := hoffset
    have hbytes' : r.stored.sampleBytes = 0 := hbytes
    simp [hstate, hoffset', hbytes', hreceive]

/-- A record has its fixed length, whatever it says. -/
theorem length_bytes (r : IndexRecord) : r.bytes.length = Analyzer.qidxRecordBytes := by
  unfold IndexRecord.bytes Analyzer.qidxRecordBytes
  simp only [List.length_append, length_putBE, length_zeros]

/-- The reader takes a sound record and finds the values it was built from. -/
theorem decode_bytes {r : IndexRecord} {n : ℕ} (h : r.Sound n) (hn : n < 2 ^ 63) :
    Analyzer.ShotRecord.decode r.bytes = .ok r.stored := by
  have hoffset : r.sampleFileOffset < 256 ^ 8 ∧ r.sampleBytes < 256 ^ 8 := by
    cases hs : r.state with
    | complete =>
      have := (h.complete hs).2.2
      omega
    | incomplete =>
      rw [(h.incomplete hs).1, (h.incomplete hs).2]
      decide
  have hfirst : r.firstReceiveNs < 256 ^ 8 := h.receive.trans_lt h.lastReceiveNs
  have hissues : r.issueFlags < 256 ^ 4 := h.issueFlags.trans (by norm_num)
  have hstate : r.state.code < 256 ^ 4 := by cases r.state <;> decide
  have hview : Analyzer.ShotRecord.stateOf r.state.code = some r.state.view := by
    cases r.state <;> rfl
  have hknown : ¬255 < r.issueFlags := by
    have := h.issueFlags
    omega
  have hzeros : readBE 8 (zeros 8) 0 = 0 := by decide
  unfold Analyzer.ShotRecord.decode
  rw [if_neg (not_not.mpr (length_bytes r))]
  unfold IndexRecord.bytes
  simp only [List.append_assoc]
  simp (disch := simp) only [readBE_skip, readBE_putBE, length_putBE, Nat.reduceSub, Nat.sub_self]
  rw [if_neg (not_not.mpr hzeros), Nat.mod_eq_of_lt hstate, hview]
  dsimp only
  rw [Nat.mod_eq_of_lt hissues, if_neg hknown, Nat.mod_eq_of_lt h.shotId,
    Nat.mod_eq_of_lt h.firstPacketSequence, Nat.mod_eq_of_lt h.lastPacketSequence,
    Nat.mod_eq_of_lt h.firstSampleTimestamp, Nat.mod_eq_of_lt hfirst,
    Nat.mod_eq_of_lt h.lastReceiveNs, Nat.mod_eq_of_lt hoffset.1, Nat.mod_eq_of_lt hoffset.2,
    Nat.mod_eq_of_lt h.frameSamples, Nat.mod_eq_of_lt h.dataPackets,
    Nat.mod_eq_of_lt h.missingPackets, Nat.mod_eq_of_lt h.payloadCrc32,
    Nat.mod_eq_of_lt h.sourceFlags, Nat.mod_eq_of_lt h.payloadFormat,
    Nat.mod_eq_of_lt h.sampleBytesPerWord, Nat.mod_eq_of_lt h.configId]
  exact check_stored h hn

/-! ## Issue flags -/

theorem or_lt {a b : ℕ} (ha : a < 2 ^ 8) (hb : b < 2 ^ 8) : a ||| b < 2 ^ 8 :=
  Nat.or_lt_two_pow ha hb

/-- An issue that is set or not fits its byte. -/
theorem ite_issue_lt (c : Prop) [Decidable c] {issue : ℕ} (h : issue < 2 ^ 8) :
    (if c then issue else 0) < 2 ^ 8 := by
  split
  · exact h
  · decide

theorem shotIssues_lt (shot : ShotState) : shot.shotIssues < 2 ^ 8 := by
  unfold ShotState.shotIssues
  refine or_lt (or_lt (ite_issue_lt _ (by decide)) ?_) ?_
  · cases shot.info with
    | none => decide
    | some i => exact ite_issue_lt _ (by decide)
  · cases shot.shotEnd with
    | none => decide
    | some e => exact ite_issue_lt _ (by decide)

theorem endIssues_lt (shot : ShotState) (scan : PacketScan) (frames : FrameScan) (crc : ℕ) :
    shot.endIssues scan frames crc < 2 ^ 8 := by
  unfold ShotState.endIssues
  cases shot.shotEnd with
  | none => exact Nat.two_pow_pos 8
  | some e =>
    exact or_lt (or_lt (ite_issue_lt _ (by decide)) (ite_issue_lt _ (by decide)))
      (ite_issue_lt _ (by decide))

theorem runIssues_lt (run : RunState) (shot : ShotState) (firstTimestamp : ℕ) :
    run.runIssues shot firstTimestamp < 2 ^ 8 :=
  or_lt (or_lt (ite_issue_lt _ (by decide)) (ite_issue_lt _ (by decide)))
    (ite_issue_lt _ (by decide))

/-- A frame adds only flags of the one byte. -/
theorem frameStep_lt {frameSamples : ℕ} {s : FrameScan} {p : PacketRecord}
    (h : s.issues < 2 ^ 8) : (s.step frameSamples p).issues < 2 ^ 8 := by
  unfold FrameScan.step
  dsimp only
  refine or_lt (or_lt ?_ (ite_issue_lt _ (by decide))) (ite_issue_lt _ (by decide))
  split
  · exact or_lt (or_lt h (ite_issue_lt _ (by decide))) (ite_issue_lt _ (by decide))
  · exact h

/-- The issues of all frames fit the byte. -/
theorem scanFrames_lt (shot : ShotState) (scan : PacketScan) :
    (shot.scanFrames scan).issues < 2 ^ 8 := by
  unfold ShotState.scanFrames
  split
  · decide
  · have hloop : ∀ (l : List PacketRecord) (s : FrameScan), s.issues < 2 ^ 8 →
        (l.foldl (FrameScan.step shot.frameSamples) s).issues < 2 ^ 8 := by
      intro l
      induction l with
      | nil => exact fun s hs => hs
      | cons p l ih => exact fun s hs => ih _ (frameStep_lt hs)
    exact or_lt (or_lt (hloop _ {} (by decide)) (ite_issue_lt _ (by decide)))
      (ite_issue_lt _ (by decide))

/-- The missing packets are counted up to the largest number of the field. -/
theorem countMissing_lt (shot : ShotState) : shot.countMissing < 256 ^ 4 := by
  unfold ShotState.countMissing
  split
  · split
    · decide
    · exact (min_le_right _ _).trans_lt (by decide)
  · decide

/-! ## The loop over the packets -/

/-- The variables of the loop fit the record, and the payload bytes are those of the packets. -/
structure PacketScan.Sound (s : PacketScan) : Prop where
  issues : s.issues < 2 ^ 8
  firstTimestamp : s.firstTimestamp < 256 ^ 8
  sourceFlags : s.sourceFlags < 2 ^ 32
  payloadBytes : s.payloadBytes = (s.data.map PacketRecord.payloadSize).sum
  nonempty : s.data ≠ [] → 0 < s.payloadBytes

theorem dataMalformed_payload {infoFormat : ℕ} {p : PacketRecord}
    (h : dataMalformed infoFormat p = false) : 0 < p.payloadSize := by
  simp only [dataMalformed, Bool.or_eq_false_iff, decide_eq_false_iff_not, not_not] at h
  obtain ⟨⟨⟨⟨hcount, hbytes⟩, -⟩, -⟩, hsize⟩ := h
  rw [hsize, hbytes]
  omega

/-- One more packet keeps the sums within their fields. -/
theorem PacketScan.Sound.step {s : PacketScan} (h : s.Sound) (infoFormat : ℕ) {p : PacketRecord}
    (hp : p.header.InRange) : (s.step infoFormat p).Sound := by
  have hraise : ∀ c, (s.raise issueProtocol c).Sound := fun c =>
    ⟨or_lt h.issues (ite_issue_lt _ (by decide)), h.firstTimestamp, h.sourceFlags, h.payloadBytes,
      h.nonempty⟩
  unfold PacketScan.step
  cases p.header.packetType with
  | data =>
    dsimp only
    split
    · exact hraise true
    · next hwell =>
      have hpos := dataMalformed_payload (Bool.not_eq_true _ ▸ hwell)
      refine ⟨or_lt h.issues ?_, ?_, ?_, ?_, ?_⟩
      · split
        · exact ite_issue_lt _ (by decide)
        · exact ite_issue_lt _ (by decide)
      · show (if _ then _ else _) < _
        split
        · exact hp.timestampTicks
        · exact h.firstTimestamp
      · refine Nat.or_lt_two_pow h.sourceFlags (Nat.and_le_right.trans_lt ?_)
        decide
      · show s.payloadBytes + p.payloadSize = _
        rw [PacketScan.addData, List.map_append, List.sum_append, ← h.payloadBytes]
        simp
      · intro _
        exact Nat.add_pos_right _ hpos
  | streamInfo => exact hraise _
  | shotEnd => exact hraise _
  | heartbeat => exact hraise true

/-- The sums of a shot fit the fields of its record. -/
theorem scanPackets_sound {shot : ShotState} (h : ∀ p ∈ shot.packets, p.header.InRange) :
    shot.scanPackets.Sound := by
  have hloop : ∀ (l : List PacketRecord) (s : PacketScan), (∀ p ∈ l, p.header.InRange) →
      s.Sound → (l.foldl (PacketScan.step shot.infoFormat) s).Sound := by
    intro l
    induction l with
    | nil => exact fun s _ hs => hs
    | cons p l ih =>
      intro s hl hs
      exact ih _ (fun q hq => hl q (List.mem_cons_of_mem _ hq))
        (hs.step shot.infoFormat (hl p List.mem_cons_self))
  exact hloop _ {} h ⟨by decide, by decide, by decide, rfl, fun hne => absurd rfl hne⟩

/-- What is written to the sample file is as long as the loop says. -/
theorem length_inFrameOrder {s : PacketScan} (h : s.Sound) :
    (s.inFrameOrder.flatMap (·.payload)).length = s.payloadBytes := by
  have hsize : ∀ p : PacketRecord, p.payload.length = p.payloadSize := fun p => List.length_drop
  rw [h.payloadBytes, List.length_flatMap, PacketScan.inFrameOrder]
  simp only [hsize]
  exact ((List.perm_insertionSort _ _).map PacketRecord.payloadSize).sum_eq

/-! ## Entries -/

/-- What an entry of the table keeps, whose last datagram came at `latest` or before. -/
structure ShotState.Sound (shot : ShotState) (latest : ℕ) : Prop where
  shotId : shot.shotId < 256 ^ 8
  packets : ∀ p ∈ shot.packets, p.header.InRange
  info : ∀ i, shot.info = some i → i.1.InRange ∧ i.2.InRange
  shotEnd : ∀ e, shot.shotEnd = some e → e.1.InRange
  issueFlags : shot.issueFlags < 2 ^ 8
  receive : shot.firstReceiveNs ≤ shot.lastReceiveNs
  lastReceiveNs : shot.lastReceiveNs ≤ latest

theorem ShotState.Sound.sort {shot : ShotState} {latest : ℕ} (h : shot.Sound latest) :
    shot.sortPackets.Sound latest where
  __ := h
  packets := fun p hp => h.packets p ((List.mem_insertionSort _).mp hp)

theorem ShotState.Sound.mono {shot : ShotState} {n m : ℕ} (h : shot.Sound n) (hle : n ≤ m) :
    shot.Sound m where
  __ := h
  lastReceiveNs := h.lastReceiveNs.trans hle

/-- An issue more keeps a shot sound. -/
theorem ShotState.Sound.flag {shot : ShotState} {latest issues : ℕ} (h : shot.Sound latest)
    (hissues : issues < 2 ^ 8) :
    ({ shot with issueFlags := shot.issueFlags ||| issues } : ShotState).Sound latest where
  __ := h
  issueFlags := or_lt h.issueFlags hissues

/-- Every issue that an inspection can find fits the byte. -/
theorem inspect_issueFlags_lt (run : RunState) {shot : ShotState} {latest : ℕ}
    (h : shot.Sound latest) : (run.inspect shot).issueFlags < 2 ^ 8 := by
  have hscan := scanPackets_sound h.packets
  unfold RunState.inspect
  dsimp only
  refine or_lt (or_lt (or_lt (or_lt (or_lt (or_lt (or_lt (or_lt h.issueFlags ?_) ?_) ?_) ?_) ?_)
    ?_) ?_) ?_
  · exact ite_issue_lt _ (by decide)
  · exact shotIssues_lt shot
  · exact hscan.issues
  · exact ite_issue_lt _ (by decide)
  · exact ite_issue_lt _ (by decide)
  · exact scanFrames_lt _ _
  · exact endIssues_lt _ _ _ _
  · exact runIssues_lt _ _ _

/-- A shot without issues has samples. -/
theorem inspect_nonempty {run : RunState} {shot : ShotState}
    (h : (run.inspect shot).issueFlags = 0) : shot.scanPackets.data ≠ [] := by
  intro hnone
  unfold RunState.inspect at h
  simp only [Nat.or_eq_zero_iff] at h
  have hframe := h.1.1.1.1.2
  rw [if_pos (.inl hnone)] at hframe
  exact absurd hframe (by decide)

/-! ## Runs -/

/-- What a run keeps, whose last datagram came at `latest` or before. -/
structure RunState.Sound (run : RunState) (latest : ℕ) : Prop where
  shots : ∀ shot ∈ run.shots, shot.Sound latest
  sampleOffset : run.sampleOffset = run.samples.length
  index : ∀ r ∈ run.index, r.Sound run.samples.length
  latest : latest < 256 ^ 8

namespace RunState

variable {run run' : RunState} {latest : ℕ}

/-- The record of a sound entry. -/
theorem indexRecord_sound (h : run.Sound latest) {shot : ShotState} (hshot : shot.Sound latest) :
    (run.indexRecord shot (run.inspect shot)).Sound
      (run.publish shot (run.inspect shot)).samples.length where
  shotId := hshot.shotId
  issueFlags := inspect_issueFlags_lt run hshot
  firstPacketSequence := by
    unfold indexRecord
    dsimp only
    cases hi : shot.info with
    | none => exact Nat.two_pow_pos 64
    | some i => exact (hshot.info i hi).1.packetSequence
  lastPacketSequence := by
    unfold indexRecord
    dsimp only
    cases he : shot.shotEnd with
    | none => exact Nat.two_pow_pos 64
    | some e => exact (hshot.shotEnd e he).packetSequence
  firstSampleTimestamp := (scanPackets_sound hshot.packets).firstTimestamp
  receive := hshot.receive
  lastReceiveNs := hshot.lastReceiveNs.trans_lt h.latest
  frameSamples := by
    show shot.frameSamples < 256 ^ 4
    unfold ShotState.frameSamples
    cases hi : shot.info with
    | none => exact Nat.two_pow_pos 32
    | some i => exact (hshot.info i hi).2.frameSamples
  dataPackets := (min_le_right _ _).trans_lt (by decide)
  missingPackets := countMissing_lt shot
  payloadCrc32 := (shot.scanFrames shot.scanPackets).crc ^^^ BitVec.allOnes 32 |>.isLt
  sourceFlags := (scanPackets_sound hshot.packets).sourceFlags
  payloadFormat := by
    show shot.infoFormat < 256 ^ 2
    unfold ShotState.infoFormat
    cases hi : shot.info with
    | none => exact Nat.two_pow_pos 16
    | some i => exact (hshot.info i hi).1.payloadFormat
  sampleBytesPerWord := by
    show shot.infoSampleBytes < 256 ^ 2
    unfold ShotState.infoSampleBytes
    cases hi : shot.info with
    | none => exact Nat.two_pow_pos 16
    | some i => exact (hshot.info i hi).1.sampleBytes
  configId := by
    unfold indexRecord
    dsimp only
    cases hi : shot.info with
    | none => exact Nat.two_pow_pos 64
    | some i => exact (hshot.info i hi).2.configId
  complete := by
    intro hcomplete
    unfold indexRecord at hcomplete
    have hissues : (run.inspect shot).issueFlags = 0 := by
      by_contra hne
      simp [hne] at hcomplete
    have hscan := scanPackets_sound hshot.packets
    have hbytes := length_inFrameOrder hscan
    unfold indexRecord publish
    simp only [hissues, decide_true, if_true, List.length_append, ← h.sampleOffset]
    -- without an issue the scan has counted every byte that is appended
    refine ⟨trivial, hscan.nonempty (inspect_nonempty hissues), ?_⟩
    exact Nat.add_le_add_left hbytes.ge _
  incomplete := by
    intro hincomplete
    unfold indexRecord at hincomplete
    have hissues : (run.inspect shot).issueFlags ≠ 0 := by
      intro h0
      simp [h0] at hincomplete
    unfold indexRecord
    simp [hissues]

/-- A publication only lengthens the sample file. -/
theorem samples_publish (run : RunState) (shot : ShotState) (i : Inspection) :
    run.samples.length ≤ (run.publish shot i).samples.length := by
  unfold publish
  dsimp only
  split
  · rw [List.length_append]
    exact Nat.le_add_right _ _
  · exact le_rfl

/-- The record of a sound shot is sound, and lies in the sample file. -/
theorem publish_sound (h : run.Sound latest) {shot : ShotState} (hshot : shot.Sound latest) :
    (run.publish shot (run.inspect shot)).Sound latest where
  shots := h.shots
  sampleOffset := by
    have hbytes := length_inFrameOrder (scanPackets_sound hshot.packets)
    unfold publish
    dsimp only
    split
    · rw [List.length_append, h.sampleOffset]
      exact congrArg _ hbytes.symm
    · exact h.sampleOffset
  index := by
    intro r hr
    rcases List.mem_append.mp hr with hr | hr
    · exact (h.index r hr).mono (samples_publish run shot _)
    · rw [List.mem_singleton.mp hr]
      exact indexRecord_sound h hshot
  latest := h.latest

/-- A shot is published whole, as incomplete, or not at all. -/
theorem finalizeShot_sound (h : run.Sound latest) {shot : ShotState} (hshot : shot.Sound latest)
    {forced : Bool} (hf : run.finalizeShot shot forced = .ok run') : run'.Sound latest := by
  unfold finalizeShot at hf
  dsimp only at hf
  split at hf
  · cases hf
  · cases hf
    exact publish_sound h hshot.sort

/-- Another table. -/
theorem Sound.table (h : run.Sound latest) {shots : List ShotState}
    (hshots : ∀ shot ∈ shots, shot.Sound latest) : { run with shots := shots }.Sound latest where
  __ := h
  shots := hshots

/-- A shot that was taken out of the table is published or dropped. -/
theorem removeAndFinalize_sound (h : run.Sound latest) {shot : ShotState}
    (hshot : shot.Sound latest) {position : ℕ} {forced : Bool}
    (hr : run.removeAndFinalize position shot forced = .ok run' ∨
      run.removeAndFinalize position shot forced = .error run') : run'.Sound latest := by
  unfold removeAndFinalize at hr
  split at hr
  · -- a shot that cannot be written goes back into the table with a flag
    next shot' hf =>
    rcases hr with hr | hr
    · cases hr
    · cases hr
      have hshot' : shot'.Sound latest := by
        unfold finalizeShot at hf
        dsimp only at hf
        split at hf
        · cases hf
          exact hshot.sort.flag (by decide)
        · cases hf
      refine h.table ?_
      intro s hs
      rcases List.mem_or_eq_of_mem_set hs with hs | rfl
      · exact h.shots s hs
      · exact hshot'
  · next run₁ hf =>
    rcases hr with hr | hr
    · cases hr
      have h₁ := finalizeShot_sound h hshot hf
      exact h₁.table fun s hs => h₁.shots s (List.mem_of_mem_eraseIdx hs)
    · cases hr

theorem finalizeReadyLoop_sound (fuel : ℕ) (h : run.Sound latest) :
    (finalizeReadyLoop fuel run).Sound latest := by
  induction fuel generalizing run with
  | zero => exact h
  | succ fuel ih =>
    rw [finalizeReadyLoop]
    dsimp only
    split
    · exact h
    · next shot hp =>
      have hshot := h.shots shot (List.mem_of_getElem? hp)
      split
      · split
        · next hr => exact removeAndFinalize_sound h hshot.sort (.inr hr)
        · next hr => exact ih (removeAndFinalize_sound h hshot.sort (.inl hr))
      · refine h.table ?_
        intro s hs
        rcases List.mem_or_eq_of_mem_set hs with hs | rfl
        · exact h.shots s hs
        · exact hshot.sort

theorem finalizeRemainingLoop_sound (fuel : ℕ) (h : run.Sound latest) :
    (finalizeRemainingLoop fuel run).Sound latest := by
  induction fuel generalizing run with
  | zero => exact h
  | succ fuel ih =>
    rw [finalizeRemainingLoop]
    split
    · exact h
    · next shot hp =>
      have hshot := h.shots shot (List.mem_of_getElem? hp)
      split
      · next hr => exact removeAndFinalize_sound h hshot (.inr hr)
      · next hr => exact ih (removeAndFinalize_sound h hshot (.inl hr))

/-! ### One datagram -/

theorem Sound.of_same (h : run.Sound latest) (hs : run'.shots = run.shots)
    (ho : run'.sampleOffset = run.sampleOffset) (hf : run'.samples = run.samples)
    (hi : run'.index = run.index) : run'.Sound latest where
  shots := by
    rw [hs]
    exact h.shots
  sampleOffset := by rw [ho, hf, h.sampleOffset]
  index := by
    rw [hi, hf]
    exact h.index
  latest := h.latest

/-- Time goes on. -/
theorem Sound.later (h : run.Sound latest) {now : ℕ} (hle : latest ≤ now) (hnow : now < 256 ^ 8) :
    run.Sound now where
  __ := h
  shots := fun shot hs => (h.shots shot hs).mono hle
  latest := hnow

/-- One more datagram moves the last receive time of its shot. -/
theorem addPacket_sound {shot : ShotState} {now : ℕ} (h : shot.Sound latest) (hle : latest ≤ now)
    {header : Header} (hh : header.InRange) (datagram : Bytes) :
    (shot.addPacket header now datagram).2.Sound now := by
  have htouch : (shot.touch now).Sound now := by
    refine { h with receive := ?_, lastReceiveNs := le_rfl }
    unfold ShotState.touch
    dsimp only
    split
    · exact le_rfl
    · exact h.receive.trans (h.lastReceiveNs.trans hle)
  unfold ShotState.addPacket
  dsimp only
  split
  · split
    · exact { htouch with }
    · exact { htouch with issueFlags := or_lt htouch.issueFlags (by decide) }
  · refine { htouch with packets := ?_ }
    intro p hp
    rcases List.mem_append.mp hp with hp | hp
    · exact htouch.packets p hp
    · rw [List.mem_singleton.mp hp]
      exact hh

/-- STREAM_INFO and SHOT_END are noted in the shot. -/
theorem absorb_sound {shot : ShotState} (h : run.Sound latest) (hshot : shot.Sound latest)
    {header : Header} (hh : header.InRange) (payload : Bytes) :
    (run.absorb shot header payload).1.Sound latest ∧
      (run.absorb shot header payload).2.Sound latest := by
  unfold absorb
  cases header.packetType with
  | streamInfo =>
    dsimp only
    unfold absorbInfo
    split
    · next info hinfo =>
      split
      · exact ⟨h, hshot.flag (by decide)⟩
      · split
        · exact ⟨h, hshot.flag (by decide)⟩
        · refine ⟨h.of_same rfl rfl rfl rfl, { hshot with info := ?_ }⟩
          rintro i ⟨rfl⟩
          exact ⟨hh, StreamInfo.decode_inRange hinfo⟩
    · exact ⟨h, hshot.flag (by decide)⟩
  | shotEnd =>
    dsimp only
    unfold absorbEnd
    split
    · next last hlast =>
      split
      · exact ⟨h, hshot.flag (by decide)⟩
      · split
        · refine ⟨h, { hshot with issueFlags := ?_ }⟩
          exact or_lt (or_lt hshot.issueFlags (by decide)) (ite_issue_lt _ (by decide))
        · refine ⟨?_, { hshot with shotEnd := ?_ }⟩
          · split
            · exact h.of_same rfl rfl rfl rfl
            · exact h
          · rintro e ⟨rfl⟩
            exact hh
    · exact ⟨h, hshot.flag (by decide)⟩
  | data => exact ⟨h, hshot⟩
  | heartbeat => exact ⟨h, hshot.flag (by decide)⟩

theorem putShot_sound (h : run.Sound latest) {shot : ShotState} (hshot : shot.Sound latest) :
    (run.putShot shot).finalizeReady.Sound latest := by
  have hput : (run.putShot shot).Sound latest := by
    refine h.table ?_
    intro s hs
    rcases mem_overwrite hs with rfl | hs
    · exact hshot
    · exact h.shots s hs
  exact finalizeReadyLoop_sound (run.putShot shot).shots.length hput

/-- A datagram that goes into a shot may complete it. -/
theorem addToShot_sound {shot : ShotState} (h : run.Sound latest) (hshot : shot.Sound latest)
    {header : Header} (hh : header.InRange) {a : Arrival} (hle : latest ≤ a.receiveNs)
    (hnow : a.receiveNs < 256 ^ 8) : (run.addToShot shot header a).Sound a.receiveNs := by
  have hrun := h.later hle hnow
  have hadd := addPacket_sound hshot hle hh a.datagram
  unfold addToShot
  split
  · next shot' heq =>
    rw [heq] at hadd
    exact putShot_sound hrun hadd
  · next shot' heq =>
    rw [heq] at hadd
    obtain ⟨hrun', hshot'⟩ := absorb_sound hrun hadd hh (a.datagram.drop header.headerBytes)
    exact putShot_sound hrun' hshot'

/-- The run a call leaves, also when it fails. -/
def Leaves (P : RunState → Prop) (r : Except RunState RunState) : Prop :=
  ∀ run, r = .ok run ∨ r = .error run → P run

/-- A call that succeeds. -/
theorem leaves_ok {P : RunState → Prop} (h : P run) : Leaves P (.ok run) := by
  rintro run' (h' | h')
  · cases h'
    exact h
  · cases h'

/-- A call that fails. -/
theorem leaves_error {P : RunState → Prop} (h : P run) : Leaves P (.error run) := by
  rintro run' (h' | h')
  · cases h'
  · cases h'
    exact h

/-- Calls one after the other, the second only when the first succeeds. -/
theorem Leaves.bind {P Q : RunState → Prop} {r : Except RunState RunState}
    {f : RunState → Except RunState RunState} (hr : Leaves P r)
    (hok : ∀ run, P run → Leaves Q (f run)) (herr : ∀ run, P run → Q run) :
    Leaves Q (r.bind f) := by
  cases r with
  | error run => exact leaves_error (herr run (hr run (.inr rfl)))
  | ok run => exact hok run (hr run (.inl rfl))

/-- A datagram for a shot, which may be new. -/
theorem ingestShot_sound (h : run.Sound latest) {header : Header} (hh : header.InRange)
    {a : Arrival} (hle : latest ≤ a.receiveNs) (hnow : a.receiveNs < 256 ^ 8) :
    Leaves (Sound · a.receiveNs) (run.ingestShot header a) := by
  unfold ingestShot
  split
  · exact leaves_ok ((h.later hle hnow).of_same rfl rfl rfl rfl)
  · split
    · next shot hfind =>
      exact leaves_ok (addToShot_sound h (h.shots shot (List.mem_of_find?_eq_some hfind)) hh hle
        hnow)
    · split
      · exact leaves_error (h.later hle hnow)
      · next run₁ hcreate =>
        have hnew : ({ shotId := header.shotId } : ShotState).Sound latest :=
          ⟨hh.shotId, by simp, by simp, by simp, Nat.two_pow_pos 8, le_rfl, Nat.zero_le _⟩
        have hrun₁ : run₁.Sound latest := by
          unfold createShot at hcreate
          obtain ⟨-, hrun⟩ := Option.ite_none_left_eq_some.mp hcreate
          cases hrun
          have htable : ∀ s ∈ run.shots ++ [({ shotId := header.shotId } : ShotState)],
              s.Sound latest := by
            intro s hs
            rcases List.mem_append.mp hs with hs | hs
            · exact h.shots s hs
            · rw [List.mem_singleton.mp hs]
              exact hnew
          exact (h.table htable).of_same rfl rfl rfl rfl
        exact leaves_ok (addToShot_sound hrun₁ hnew hh hle hnow)

/-- A datagram that is looked at under the selection. -/
theorem ingestSelected_sound (h : run.Sound latest) (selection : Selection) {header : Header}
    (hh : header.InRange) {a : Arrival} (hle : latest ≤ a.receiveNs)
    (hnow : a.receiveNs < 256 ^ 8) :
    Leaves (Sound · a.receiveNs) (run.ingestSelected selection header a) := by
  have hrun := h.later hle hnow
  unfold ingestSelected
  split
  · exact leaves_ok (hrun.of_same rfl rfl rfl rfl)
  · dsimp only
    split
    · split
      · exact leaves_ok (hrun.of_same rfl rfl rfl rfl)
      · exact leaves_ok (hrun.of_same rfl rfl rfl rfl)
    · have hvalid : Sound { run with validPackets := run.validPackets + 1 } latest :=
        h.of_same rfl rfl rfl rfl
      exact ingestShot_sound hvalid hh hle hnow

/-- A header that was decoded fits its fields. -/
theorem acceptedHeader_inRange {a : Arrival} {header : Header}
    (h : acceptedHeader a = some header) : header.InRange := by
  unfold acceptedHeader at h
  split at h
  · cases h
  · split at h
    · cases h
    · next hdecode =>
      cases h
      exact (Header.decode_inRange hdecode).1

/-- A datagram, read or dropped. -/
theorem ingest_sound (h : run.Sound latest) (selection : Selection) {a : Arrival}
    (hle : latest ≤ a.receiveNs) (hnow : a.receiveNs < 256 ^ 8) :
    Leaves (Sound · a.receiveNs) (ingest selection run a) := by
  unfold ingest
  split
  · exact leaves_ok ((h.later hle hnow).of_same rfl rfl rfl rfl)
  · next hheader => exact ingestSelected_sound h selection (acceptedHeader_inRange hheader) hle hnow

/-! ### What waits for a selection -/

/-- Datagrams that come one after another, all of them at `now` or before. -/
theorem ingestAll_sound (selection : Selection) {l : List Arrival} {now : ℕ}
    (h : run.Sound latest) (hle : latest ≤ now) (hnow : now < 256 ^ 8)
    (hafter : ∀ a ∈ l, latest ≤ a.receiveNs ∧ a.receiveNs ≤ now)
    (horder : l.Pairwise (·.receiveNs ≤ ·.receiveNs)) :
    Leaves (Sound · now) (ingestAll selection l run) := by
  unfold ingestAll
  induction l generalizing run latest with
  | nil => exact leaves_ok (h.later hle hnow)
  | cons a l ih =>
    obtain ⟨hfirst, hrest⟩ := List.pairwise_cons.mp horder
    obtain ⟨hlow, hhigh⟩ := hafter a List.mem_cons_self
    have hstep := ingest_sound h selection hlow (hhigh.trans_lt hnow)
    cases hr : ingest selection run a with
    | error run₁ =>
      rw [foldlM_cons_error hr]
      exact leaves_error ((hstep run₁ (.inr hr)).later hhigh hnow)
    | ok run₁ =>
      rw [foldlM_cons_ok hr]
      refine ih (hstep run₁ (.inl hr)) hhigh ?_ hrest
      intro b hb
      exact ⟨hfirst b hb, (hafter b (List.mem_cons_of_mem _ hb)).2⟩

/-- Before a run is selected the table is empty, and what waits came one after another. -/
def Waiting (run : RunState) (latest : ℕ) : Prop :=
  run.selected = none → run.shots = [] ∧ (∀ a ∈ run.pending, a.receiveNs ≤ latest) ∧
    run.pending.Pairwise (·.receiveNs ≤ ·.receiveNs)

/-- The datagrams that waited for the selection are ingested in their order. -/
theorem replayPending_sound (h : run.Sound latest) (selection : Selection)
    (hshots : run.shots = []) (hpending : ∀ a ∈ run.pending, a.receiveNs ≤ latest)
    (horder : run.pending.Pairwise (·.receiveNs ≤ ·.receiveNs)) :
    Leaves (Sound · latest) (run.replayPending selection) := by
  have hfresh : run.Sound 0 := by
    refine { h with shots := ?_, latest := Nat.two_pow_pos 64 }
    rw [hshots]
    simp
  have hall := ingestAll_sound selection hfresh (Nat.zero_le _) h.latest
    (fun a ha => ⟨Nat.zero_le _, hpending a ha⟩) horder
  unfold replayPending
  split
  · next run₁ hr => exact leaves_error ((hall run₁ (.inr hr)).of_same rfl rfl rfl rfl)
  · next run₁ hr => exact leaves_ok ((hall run₁ (.inl hr)).of_same rfl rfl rfl rfl)

theorem validateAndIngest_sound (h : run.Sound latest) (hw : run.Waiting latest) {a : Arrival}
    (hle : latest ≤ a.receiveNs) (hnow : a.receiveNs < 256 ^ 8) :
    Leaves (Sound · a.receiveNs) (run.validateAndIngest a) := by
  have hrun := h.later hle hnow
  unfold validateAndIngest
  split
  · next selection _ => exact ingest_sound h selection hle hnow
  · next hnone =>
    obtain ⟨hshots, hpending, horder⟩ := hw hnone
    split
    · exact leaves_ok (hrun.of_same rfl rfl rfl rfl)
    · next header hheader =>
      have hh := acceptedHeader_inRange hheader
      split
      · -- the first STREAM_INFO: what has waited is replayed in its order, then this datagram
        have hstart : Sound { run with
            selected := some ⟨a.source, header.runId, header.streamId⟩ } latest :=
          h.of_same rfl rfl rfl rfl
        have hreplay := replayPending_sound hstart ⟨a.source, header.runId, header.streamId⟩ hshots
          hpending horder
        exact hreplay.bind (fun run₁ h₁ => ingestSelected_sound h₁ _ hh hle hnow)
          fun run₁ h₁ => h₁.later hle hnow
      · refine leaves_ok ?_
        unfold savePending
        split
        · exact hrun.of_same rfl rfl rfl rfl
        · exact hrun.of_same rfl rfl rfl rfl

/-- After the selection nothing waits. -/
theorem Waiting.of_selected {selection : Selection} (h : run.selected = some selection) :
    run.Waiting latest := by
  intro hnone
  rw [h] at hnone
  cases hnone

/-- The datagrams that wait came in their order. -/
theorem validateAndIngest_waiting (hw : run.Waiting latest) {a : Arrival}
    (hle : latest ≤ a.receiveNs) (h : run.validateAndIngest a = .ok run') :
    run'.Waiting a.receiveNs := by
  cases hs : run.selected with
  | some selection =>
    exact .of_selected ((grows_validateAndIngest h).selected selection hs)
  | none =>
    obtain ⟨hshots, hpending, horder⟩ := hw hs
    have hlater : ∀ b ∈ run.pending, b.receiveNs ≤ a.receiveNs := fun b hb =>
      (hpending b hb).trans hle
    unfold validateAndIngest at h
    rw [hs] at h
    dsimp only at h
    split at h
    · cases h
      exact fun _ => ⟨hshots, hlater, horder⟩
    · split at h
      · -- a selection stays, so nothing waits any more
        unfold replayPending at h
        dsimp only at h
        split at h
        · cases h
        · next hall =>
          have hreplay := (grows_ingestAll hall).selected _ rfl
          exact .of_selected ((grows_ingestSelected h).selected _ hreplay)
      · cases h
        intro _
        unfold savePending
        split
        · exact ⟨hshots, hlater, horder⟩
        · refine ⟨hshots, ?_, ?_⟩
          · intro b hb
            rcases List.mem_append.mp hb with hb | hb
            · exact hlater b hb
            · rw [List.mem_singleton.mp hb]
          · refine List.pairwise_append.mpr ⟨horder, List.pairwise_singleton _ _, ?_⟩
            intro b hb c hc
            rw [List.mem_singleton.mp hc]
            exact hlater b hb

/-! ### Messages -/

/-- A message that is not heard moves two counters at most. -/
theorem receiveMessage_passes {m : Message} (h : run.heard m = none) :
    ∃ malformed drops, run.receiveMessage m =
      .ok { run with malformedPackets := malformed, kernelDrops := drops } := by
  cases ht : m.truncated with
  | true =>
    rw [receiveMessage, ht]
    exact ⟨_, _, rfl⟩
  | false =>
    cases hs : m.source with
    | none =>
      rw [receiveMessage, ht, hs]
      exact ⟨_, _, rfl⟩
    | some source =>
      rw [heard, ht, hs] at h
      rw [receiveMessage, ht, hs]
      by_cases hf : run.sourceFilter.any (!sourceEqual source · false) = true
      · exact ⟨_, _, if_pos hf⟩
      · have hsome := (if_neg hf).symm.trans h
        cases hsome

theorem heard_receiveNs {m : Message} {a : Arrival} (h : run.heard m = some a) :
    a.receiveNs = m.receiveNs.toNat := by
  unfold heard at h
  split at h
  · cases h
  · split at h
    · cases h
    · split at h
      · cases h
      · cases h
        rfl

/-- A message of any kind keeps the run sound. -/
theorem receiveMessage_sound (h : run.Sound latest) (hw : run.Waiting latest) {m : Message}
    (hle : latest ≤ m.receiveNs.toNat) :
    Leaves (Sound · m.receiveNs.toNat) (run.receiveMessage m) ∧
      ∀ run', run.receiveMessage m = .ok run' → run'.Waiting m.receiveNs.toNat := by
  have hnow : m.receiveNs.toNat < 256 ^ 8 := m.receiveNs.toNat_lt
  cases hm : run.heard m with
  | none =>
    obtain ⟨malformed, drops, hr⟩ := receiveMessage_passes hm
    rw [hr]
    refine ⟨leaves_ok ((h.later hle hnow).of_same rfl rfl rfl rfl), ?_⟩
    rintro run' h'
    cases h'
    intro hnone
    obtain ⟨hshots, hpending, horder⟩ := hw hnone
    exact ⟨hshots, fun a ha => (hpending a ha).trans hle, horder⟩
  | some a =>
    have htime := heard_receiveNs hm
    rw [receiveMessage_heard hm, ← htime]
    rw [← htime] at hle hnow
    have hnoted : (run.noted m).Sound latest := h.of_same rfl rfl rfl rfl
    have hwnoted : (run.noted m).Waiting latest := hw
    exact ⟨validateAndIngest_sound hnoted hwnoted hle hnow,
      fun run' h' => validateAndIngest_waiting hwnoted hle h'⟩

/-- Messages that come one after another leave a sound run. -/
theorem receiveAll_sound {messages : List Message} (h : run.Sound latest)
    (hw : run.Waiting latest) (hafter : ∀ m ∈ messages, latest ≤ m.receiveNs.toNat)
    (horder : messages.Pairwise fun m m' => m.receiveNs ≤ m'.receiveNs) :
    Leaves (fun run' => ∃ now, run'.Sound now) (receiveAll messages run) := by
  unfold receiveAll
  induction messages generalizing run latest with
  | nil => exact leaves_ok ⟨latest, h⟩
  | cons m messages ih =>
    obtain ⟨hfirst, hrest⟩ := List.pairwise_cons.mp horder
    obtain ⟨hsound, hwaiting⟩ := receiveMessage_sound h hw (hafter m List.mem_cons_self)
    cases hr : run.receiveMessage m with
    | error run₁ =>
      rw [foldlM_cons_error hr]
      exact leaves_error ⟨_, hsound run₁ (.inr hr)⟩
    | ok run₁ =>
      rw [foldlM_cons_ok hr]
      refine ih (hsound run₁ (.inl hr)) (hwaiting run₁ hr) ?_ hrest
      intro m' hm'
      exact UInt64.le_iff_toNat_le.mp (hfirst m' hm')

end RunState

/-! ## Recordings -/

/-- A run starts with nothing. -/
theorem Options.start_sound (o : Options) : o.start.Sound 0 where
  shots := by simp [Options.start]
  sampleOffset := rfl
  index := by simp [Options.start]
  latest := Nat.two_pow_pos 64

theorem Options.start_waiting (o : Options) : o.start.Waiting 0 :=
  fun _ => ⟨rfl, by simp [Options.start], List.Pairwise.nil⟩

/-- A record that the writer can encode, and that the reader takes back unchanged. -/
def IndexRecord.ReadBack (r : IndexRecord) : Prop :=
  ∃ data, qcrateIndexRecordEncode r = some data ∧ Analyzer.ShotRecord.decode data = .ok r.stored

/-- What the recorder writes of a sound record is what the analyzer reads. -/
theorem IndexRecord.Sound.readBack {r : IndexRecord} {n : ℕ} (h : r.Sound n) (hn : n < 2 ^ 63) :
    r.ReadBack :=
  ⟨r.bytes, qcrateIndexRecordEncode_eq r, decode_bytes h hn⟩

/-- Datagrams that come one after another, whatever they are: every record of the recording is
read back, and so is the record of every shot of the table, whether it is closed because it is
ready or by force. A file has less than 2^63 bytes. -/
theorem index_roundTrip (o : Options) (messages : List RunState.Message) (interrupted : Bool)
    (horder : messages.Pairwise fun m m' => m.receiveNs ≤ m'.receiveNs) :
    ((record o messages interrupted).run.samples.length < 2 ^ 63 →
      ∀ r ∈ (record o messages interrupted).run.index, r.ReadBack) ∧
    ∀ run, RunState.receiveAll messages o.start = .ok run ∨
        RunState.receiveAll messages o.start = .error run →
      ∀ shot ∈ run.shots, ∀ forced run', run.finalizeShot shot forced = .ok run' →
        run'.samples.length < 2 ^ 63 →
        ∃ r : IndexRecord, r.shotId = shot.shotId ∧ run'.index = run.index ++ [r] ∧
          r.ReadBack := by
  have hall := RunState.receiveAll_sound o.start_sound o.start_waiting
    (fun _ _ => Nat.zero_le _) horder
  constructor
  · intro hfile r hr
    suffices hsound : ∃ now, (record o messages interrupted).run.Sound now by
      obtain ⟨now, hsound⟩ := hsound
      exact (hsound.index r hr).readBack hfile
    cases hreceive : RunState.receiveAll messages o.start with
    | error run =>
      rw [record_error hreceive]
      exact hall run (.inr hreceive)
    | ok run =>
      obtain ⟨now, hnow⟩ := hall run (.inl hreceive)
      rw [record_ok hreceive]
      have hstart : RunState.Sound { run with interrupted := interrupted } now :=
        hnow.of_same rfl rfl rfl rfl
      have hfinal := RunState.finalizeRemainingLoop_sound run.shots.length hstart
      exact ⟨now, hfinal.of_same rfl rfl rfl rfl⟩
  · intro run hrun shot hshot forced run' hf hfile
    obtain ⟨now, hnow⟩ := hall run hrun
    have hsound := RunState.finalizeShot_sound hnow (hnow.shots shot hshot) hf
    obtain ⟨r, hid, hindex, -, -⟩ := RunState.finalizeShot_ok hf
    refine ⟨r, hid, hindex, (hsound.index r ?_).readBack hfile⟩
    rw [hindex]
    exact List.mem_append_right _ (List.mem_singleton_self r)

/-- A whole shot, and the STREAM_INFO of another of which nothing else comes. -/
def wholeThenInfo : List RunState.Message :=
  ((oneSample 0 true).shotPackets aSample ++ [(oneSample 1 true).infoPacket]).map carry

/-- A COMPLETE record and an INCOMPLETE one are read back. -/
theorem index_roundTrip_wholeThenInfo :
    ∃ r r', (record { maxShotBytes := 1024 } wholeThenInfo false).run.index = [r, r'] ∧
      r.state = .complete ∧ r'.state = .incomplete ∧ r.ReadBack ∧ r'.ReadBack := by
  have hstates : (record { maxShotBytes := 1024 } wholeThenInfo false).run.index.map (·.state) =
      [.complete, .incomplete] := by
    decide +kernel
  have hfile : (record { maxShotBytes := 1024 } wholeThenInfo false).run.samples.length <
      2 ^ 63 := by
    decide +kernel
  have hback := (index_roundTrip { maxShotBytes := 1024 } wholeThenInfo false
    (by decide +kernel)).1 hfile
  obtain ⟨r, rest, hindex, hr, hrest⟩ := List.map_eq_cons_iff.mp hstates
  obtain ⟨r', rfl, hr'⟩ := List.map_eq_singleton_iff.mp hrest
  rw [hindex] at hback
  exact ⟨r, r', hindex, hr, hr', hback r (by simp), hback r' (by simp)⟩

end QCrate.Recorder
