import Mathlib.Logic.Relation
import QCrate.Recorder.Publication
import QCrate.Recorder.IndexRoundTrip
import QCrate.Recorder.Readiness

/-!
# The files of a recording agree

Whatever arrives, from whatever sender, the COMPLETE records tile the sample file from its start to
its end, each has the checksum of its bytes, and each comes after the last shot with a timestamp.

* `CloseStep`, `closing_finalizeReady` — what the two loops over the table do to the run.
* `FilesAgree` — the index against the sample file.
* `record_filesAgree`.
-/

namespace QCrate.Recorder

open QCrate.Lib QCrate.DataPlane RunState

/-! ## Closing entries -/

/-- An entry of the table is closed, or its packets are sorted and a flag is raised. -/
inductive CloseStep (run : RunState) : RunState → Prop
  | close (position : ℕ) (shot : ShotState) (h : run.shots[position]? = some shot) :
      CloseStep run (run.close position shot)
  | mark (position : ℕ) (shot : ShotState) (flags : ℕ) (h : run.shots[position]? = some shot) :
      CloseStep run { run with
        shots := run.shots.set position
          { shot.sortPackets with issueFlags := shot.issueFlags ||| flags } }

/-- Entries of the table are closed one after another. -/
abbrev Closing : RunState → RunState → Prop := Relation.ReflTransGen CloseStep

section

variable {run run' : RunState} {shot : ShotState} {position : ℕ}

/-- The entry may have been sorted before. -/
theorem finalizeShot_sorted (run : RunState) (shot : ShotState) (forced : Bool) :
    run.finalizeShot shot.sortPackets forced = run.finalizeShot shot forced := by
  unfold RunState.finalizeShot
  rw [ShotState.sortPackets_idem]

/-- A shot that is taken out of the table is published, or nothing is written. -/
theorem closeStep_finalize (forced : Bool) (hp : run.shots[position]? = some shot) :
    Leaves (CloseStep run) (run.removeAndFinalize position shot forced) := by
  unfold RunState.removeAndFinalize RunState.finalizeShot
  dsimp only
  split
  · next hf =>
    split at hf
    · cases hf
      exact leaves_error (.mark position shot issueMissing hp)
    · cases hf
  · next hf =>
    split at hf
    · cases hf
    · cases hf
      exact leaves_ok (.close position shot hp)

/-- However many shots are ready, they are closed one by one. -/
theorem closing_finalizeReadyLoop (fuel : ℕ) (run : RunState) :
    Closing run (RunState.finalizeReadyLoop fuel run) := by
  induction fuel generalizing run with
  | zero => exact .refl
  | succ fuel ih =>
    rw [RunState.finalizeReadyLoop]
    dsimp only
    split
    · exact .refl
    · next shot hp =>
      have hleaves : Leaves (CloseStep run)
          (run.removeAndFinalize run.lowestSequenceShot shot.sortPackets false) := by
        unfold RunState.removeAndFinalize
        rw [finalizeShot_sorted]
        exact closeStep_finalize false hp
      split
      · split
        · next hr => exact .single (hleaves _ (.inr hr))
        · next hr => exact .head (hleaves _ (.inl hr)) (ih _)
      · have hmark := CloseStep.mark _ shot 0 hp
        rw [Nat.or_zero] at hmark
        exact .single hmark

theorem closing_finalizeReady (run : RunState) : Closing run run.finalizeReady :=
  closing_finalizeReadyLoop ..

/-- At the end all shots are closed, one by one. -/
theorem closing_finalizeRemainingLoop (fuel : ℕ) (run : RunState) :
    Closing run (RunState.finalizeRemainingLoop fuel run) := by
  induction fuel generalizing run with
  | zero => exact .refl
  | succ fuel ih =>
    rw [RunState.finalizeRemainingLoop]
    split
    · exact .refl
    · next shot hp =>
      have hleaves := closeStep_finalize true hp
      split
      · next hr => exact .single (hleaves _ (.inr hr))
      · next hr => exact .head (hleaves _ (.inl hr)) (ih _)

/-- Every entry is closed at the end. -/
theorem closing_finalizeRemaining (run : RunState) :
    Closing run run.finalizeRemaining ∧ run.finalizeRemaining.shots = [] :=
  ⟨closing_finalizeRemainingLoop .., (RunState.finalizeRemainingLoop_spec _ run le_rfl).2⟩

end

/-! ## What a datagram can do to the files -/

/-- Nothing has been written, and what the recorder remembers of the files is as it was. -/
structure SameFiles (run run' : RunState) : Prop where
  maxShotBytes : run'.maxShotBytes = run.maxShotBytes
  samples : run'.samples = run.samples
  index : run'.index = run.index
  sampleOffset : run'.sampleOffset = run.sampleOffset
  lastShot : run'.lastShot = run.lastShot
  completeShots : run'.completeShots = run.completeShots
  incompleteShots : run'.incompleteShots = run.incompleteShots
  duplicatePackets : run'.duplicatePackets = run.duplicatePackets
  reorderedPackets : run'.reorderedPackets = run.reorderedPackets

/-- The files change only when an entry is closed. -/
abbrev Written : RunState → RunState → Prop :=
  Relation.ReflTransGen fun run run' => SameFiles run run' ∨ CloseStep run run'

namespace Written

variable {run run' : RunState}

/-- A step that touches no file. -/
theorem of_same (h : SameFiles run run') : Written run run' := .single (.inl h)

/-- A row of shots that are closed. -/
theorem of_closing (h : Closing run run') : Written run run' :=
  h.lift id fun _ _ => .inr

/-- What depends on the files only and is kept when an entry is closed is kept. -/
theorem keeps {P : RunState → Prop} (h : Written run run')
    (hsame : ∀ {r r'}, SameFiles r r' → P r → P r')
    (hclose : ∀ {r r'}, CloseStep r r' → P r → P r') (hp : P run) : P run' := by
  induction h with
  | refl => exact hp
  | tail _ hlast ih =>
    rcases hlast with hlast | hlast
    · exact hsame hlast ih
    · exact hclose hlast ih

/-- Steps one after the other, of which the last may fail. -/
theorem leaves_trans {r : Except RunState RunState} (h : Written run run')
    (hr : Leaves (Written run') r) : Leaves (Written run) r :=
  fun _ he => h.trans (hr _ he)

/-- A fold leaves what its steps leave. -/
theorem leaves_foldlM {α : Type} {f : RunState → α → Except RunState RunState}
    (hstep : ∀ r a, Leaves (Written r) (f r a)) (l : List α) (run : RunState) :
    Leaves (Written run) (l.foldlM f run) := by
  induction l generalizing run with
  | nil => exact leaves_ok .refl
  | cons a l ih =>
    cases hr : f run a with
    | error run₁ =>
      rw [foldlM_cons_error hr]
      exact leaves_error (hstep run a run₁ (.inr hr))
    | ok run₁ =>
      rw [foldlM_cons_ok hr]
      exact leaves_trans (hstep run a run₁ (.inl hr)) (ih run₁)

/-- STREAM_INFO and SHOT_END touch no file. -/
theorem absorb (run : RunState) (shot : ShotState) (header : Header) (payload : Bytes) :
    SameFiles run (run.absorb shot header payload).1 := by
  have hsame : SameFiles run run := ⟨rfl, rfl, rfl, rfl, rfl, rfl, rfl, rfl, rfl⟩
  unfold RunState.absorb
  split
  · unfold RunState.absorbInfo
    split
    · split
      · exact hsame
      · split
        · exact hsame
        · exact ⟨rfl, rfl, rfl, rfl, rfl, rfl, rfl, rfl, rfl⟩
    · exact hsame
  · unfold RunState.absorbEnd
    split
    · split
      · exact hsame
      · split
        · exact hsame
        · dsimp only
          split
          · exact ⟨rfl, rfl, rfl, rfl, rfl, rfl, rfl, rfl, rfl⟩
          · exact hsame
    · exact hsame
  · exact hsame
  · exact hsame

theorem putShot_finalizeReady (h : SameFiles run run') (shot : ShotState) :
    Written run (run'.putShot shot).finalizeReady :=
  have hput : SameFiles run (run'.putShot shot) := ⟨h.maxShotBytes, h.samples, h.index,
    h.sampleOffset, h.lastShot, h.completeShots, h.incompleteShots,
    h.duplicatePackets, h.reorderedPackets⟩
  (of_same hput).trans (of_closing (closing_finalizeReady _))

/-- A datagram touches no file until its shot is ready. -/
theorem addToShot (run : RunState) (shot : ShotState) (header : Header) (a : Arrival) :
    Written run (run.addToShot shot header a) := by
  unfold RunState.addToShot
  split
  · exact putShot_finalizeReady ⟨rfl, rfl, rfl, rfl, rfl, rfl, rfl, rfl, rfl⟩ _
  · exact putShot_finalizeReady (absorb ..) _

theorem ingestShot (run : RunState) (header : Header) (a : Arrival) :
    Leaves (Written run) (run.ingestShot header a) := by
  unfold RunState.ingestShot
  split
  · exact leaves_ok (of_same ⟨rfl, rfl, rfl, rfl, rfl, rfl, rfl, rfl, rfl⟩)
  · split
    · exact leaves_ok (addToShot _ _ _ _)
    · split
      · exact leaves_error .refl
      · next hcreate =>
        unfold RunState.createShot at hcreate
        split at hcreate
        · cases hcreate
        · cases hcreate
          refine leaves_ok (.trans (of_same ?_) (addToShot _ _ _ _))
          exact ⟨rfl, rfl, rfl, rfl, rfl, rfl, rfl, rfl, rfl⟩

theorem ingestSelected (run : RunState) (selection : Selection) (header : Header) (a : Arrival) :
    Leaves (Written run) (run.ingestSelected selection header a) := by
  unfold RunState.ingestSelected
  split
  · exact leaves_ok (of_same ⟨rfl, rfl, rfl, rfl, rfl, rfl, rfl, rfl, rfl⟩)
  · dsimp only
    split
    · split
      · exact leaves_ok (of_same ⟨rfl, rfl, rfl, rfl, rfl, rfl, rfl, rfl, rfl⟩)
      · exact leaves_ok (of_same ⟨rfl, rfl, rfl, rfl, rfl, rfl, rfl, rfl, rfl⟩)
    · refine leaves_trans (of_same ?_) (ingestShot _ _ _)
      exact ⟨rfl, rfl, rfl, rfl, rfl, rfl, rfl, rfl, rfl⟩

theorem ingest (selection : Selection) (run : RunState) (a : Arrival) :
    Leaves (Written run) (RunState.ingest selection run a) := by
  unfold RunState.ingest
  split
  · exact leaves_ok (of_same ⟨rfl, rfl, rfl, rfl, rfl, rfl, rfl, rfl, rfl⟩)
  · exact ingestSelected _ _ _ _

/-- Datagrams that waited may complete shots at once. -/
theorem replayPending (run : RunState) (selection : Selection) :
    Leaves (Written run) (run.replayPending selection) := by
  have hall : Leaves (Written run) (ingestAll selection run.pending run) :=
    leaves_foldlM (ingest selection) _ _
  unfold RunState.replayPending
  split
  · next hr =>
    exact leaves_error
      ((hall _ (.inr hr)).tail (.inl ⟨rfl, rfl, rfl, rfl, rfl, rfl, rfl, rfl, rfl⟩))
  · next hr =>
    exact leaves_ok
      ((hall _ (.inl hr)).tail (.inl ⟨rfl, rfl, rfl, rfl, rfl, rfl, rfl, rfl, rfl⟩))

theorem validateAndIngest (run : RunState) (a : Arrival) :
    Leaves (Written run) (run.validateAndIngest a) := by
  unfold RunState.validateAndIngest
  split
  · exact ingest _ _ _
  · split
    · exact leaves_ok (of_same ⟨rfl, rfl, rfl, rfl, rfl, rfl, rfl, rfl, rfl⟩)
    · split
      · refine Leaves.bind (leaves_trans (of_same ?_) (replayPending _ _)) ?_ fun _ hr => hr
        · exact ⟨rfl, rfl, rfl, rfl, rfl, rfl, rfl, rfl, rfl⟩
        · exact fun run₁ hr => leaves_trans hr (ingestSelected _ _ _ _)
      · refine leaves_ok (of_same ?_)
        unfold savePending
        split
        · exact ⟨rfl, rfl, rfl, rfl, rfl, rfl, rfl, rfl, rfl⟩
        · exact ⟨rfl, rfl, rfl, rfl, rfl, rfl, rfl, rfl, rfl⟩

/-- A message writes by closing shots, or not at all. -/
theorem receiveMessage (run : RunState) (m : Message) :
    Leaves (Written run) (run.receiveMessage m) := by
  cases hm : run.heard m with
  | none =>
    obtain ⟨malformed, drops, hr⟩ := receiveMessage_passes hm
    rw [hr]
    exact leaves_ok (of_same ⟨rfl, rfl, rfl, rfl, rfl, rfl, rfl, rfl, rfl⟩)
  | some a =>
    rw [receiveMessage_heard hm]
    refine leaves_trans (of_same ?_) (validateAndIngest _ _)
    exact ⟨rfl, rfl, rfl, rfl, rfl, rfl, rfl, rfl, rfl⟩

theorem receiveAll (messages : List Message) (run : RunState) :
    Leaves (Written run) (RunState.receiveAll messages run) :=
  leaves_foldlM receiveMessage _ _

/-- The end of a run closes what is left. -/
theorem finish (run : RunState) (interrupted : Bool) : Written run (run.finish interrupted) := by
  have hstart : Written run { run with interrupted := interrupted } :=
    of_same ⟨rfl, rfl, rfl, rfl, rfl, rfl, rfl, rfl, rfl⟩
  exact (hstart.trans (of_closing (closing_finalizeRemaining _).1)).tail
    (.inl ⟨rfl, rfl, rfl, rfl, rfl, rfl, rfl, rfl, rfl⟩)

/-- A recording. -/
theorem record (o : Options) (messages : List Message) (interrupted : Bool) :
    Written o.start (Recorder.record o messages interrupted).run := by
  have hall := receiveAll messages o.start
  cases hr : RunState.receiveAll messages o.start with
  | error run =>
    rw [record_error hr]
    exact hall run (.inr hr)
  | ok run =>
    rw [record_ok hr]
    exact (hall run (.inl hr)).trans (finish _ _)

end Written

/-! ## What an entry without issues has -/

/-- The payload of the packets that were taken so far, and the timestamp of the first one. -/
structure PacketScan.Counted (s : PacketScan) : Prop where
  payloadBytes : s.payloadBytes = (s.data.map PacketRecord.payloadSize).sum
  nonempty : s.data ≠ [] → 0 < s.payloadBytes
  stamped : s.issues = 0 → s.data ≠ [] → s.firstTimestamp ≠ 0

/-- A packet that is written adds its length to the count. -/
theorem PacketScan.Counted.step {s : PacketScan} (h : s.Counted) (infoFormat : ℕ)
    (p : PacketRecord) : (s.step infoFormat p).Counted := by
  have hraise : ∀ c, (s.raise issueProtocol c).Counted := fun c =>
    ⟨h.payloadBytes, h.nonempty, fun hi => h.stamped (Nat.or_eq_zero_iff.mp hi).1⟩
  unfold PacketScan.step
  cases p.header.packetType with
  | data =>
    dsimp only
    split
    · exact hraise true
    · next hwell =>
      have hpos := dataMalformed_payload (Bool.not_eq_true _ ▸ hwell)
      refine ⟨?_, fun _ => Nat.add_pos_right _ hpos, fun hissues _ => ?_⟩
      · show s.payloadBytes + p.payloadSize = _
        rw [PacketScan.addData, List.map_append, List.sum_append, ← h.payloadBytes]
        simp
      · -- the first packet brings the timestamp, the others leave it alone
        obtain ⟨hbefore, hnow⟩ := Nat.or_eq_zero_iff.mp hissues
        show (if _ then _ else _) ≠ 0
        by_cases hfirst : s.data.isEmpty = true
        · rw [if_pos hfirst]
          rw [if_pos hfirst] at hnow
          intro hzero
          rw [if_pos (by simp [hzero])] at hnow
          exact absurd hnow (by decide)
        · rw [if_neg hfirst]
          exact h.stamped hbefore fun hnil => hfirst (by rw [hnil]; rfl)
  | streamInfo => exact hraise _
  | shotEnd => exact hraise _
  | heartbeat => exact hraise true

/-- The scan counts the bytes that it will write. -/
theorem scanPackets_counted (shot : ShotState) : shot.scanPackets.Counted := by
  have hloop : ∀ (l : List PacketRecord) (s : PacketScan), s.Counted →
      (l.foldl (PacketScan.step shot.infoFormat) s).Counted := by
    intro l
    induction l with
    | nil => exact fun s hs => hs
    | cons p l ih => exact fun s hs => ih _ (hs.step shot.infoFormat p)
  exact hloop _ {} ⟨rfl, fun hne => absurd rfl hne, fun _ hne => absurd rfl hne⟩

/-- The bytes that are written for the shot. -/
def PacketScan.written (s : PacketScan) : Bytes := s.inFrameOrder.flatMap (·.payload)

theorem PacketScan.Counted.length_written {s : PacketScan} (h : s.Counted) :
    s.written.length = s.payloadBytes := by
  have hsize : ∀ p : PacketRecord, p.payload.length = p.payloadSize := fun p => List.length_drop
  rw [h.payloadBytes, PacketScan.written, List.length_flatMap, PacketScan.inFrameOrder]
  simp only [hsize]
  exact ((List.perm_insertionSort _ _).map PacketRecord.payloadSize).sum_eq

/-- The checksum of a payload, as both ends compute it. -/
def checksum (payload : Bytes) : ℕ :=
  (crc32Update (BitVec.allOnes 32) payload ^^^ BitVec.allOnes 32).toNat

/-- The checksum goes over the payload of each packet. -/
theorem frameStep_crc (frameSamples : ℕ) (s : FrameScan) (p : PacketRecord) :
    (s.step frameSamples p).crc = crc32Update s.crc p.payload := by
  unfold FrameScan.step
  dsimp only
  split <;> rfl

theorem foldl_frameStep_crc (frameSamples : ℕ) (l : List PacketRecord) (s : FrameScan) :
    (l.foldl (FrameScan.step frameSamples) s).crc =
      crc32Update s.crc (l.flatMap (·.payload)) := by
  induction l generalizing s with
  | nil => rfl
  | cons p l ih =>
    rw [List.foldl_cons, ih, frameStep_crc, List.flatMap_cons, crc32Update_append]

/-- So the checksum of a shot is the one of its bytes. -/
theorem scanFrames_crc (shot : ShotState) {scan : PacketScan} (h : scan.data ≠ []) :
    (shot.scanFrames scan).crc = crc32Update (BitVec.allOnes 32) scan.written := by
  unfold ShotState.scanFrames
  rw [if_neg h]
  exact foldl_frameStep_crc ..

/-- What holds of an entry in which no issue is found. -/
structure Flawless (run : RunState) (shot : ShotState) : Prop where
  length : shot.scanPackets.written.length = (run.inspect shot).scan.payloadBytes
  nonempty : 0 < (run.inspect shot).scan.payloadBytes
  limit : (run.inspect shot).scan.payloadBytes ≤ run.maxShotBytes
  crc : checksum shot.scanPackets.written = (run.inspect shot).crc
  stamped : (run.inspect shot).scan.firstTimestamp ≠ 0
  ordered : ∀ l ∈ run.lastShot, l.shotId < shot.shotId ∧
    l.timestamp < (run.inspect shot).scan.firstTimestamp

/-- A shot without issues passed every test. -/
theorem flawless_of_issueFlags {run : RunState} {shot : ShotState}
    (h : (run.inspect shot).issueFlags = 0) : Flawless run shot := by
  have hdata := inspect_nonempty h
  have hcounted := scanPackets_counted shot
  unfold RunState.inspect at h
  simp only [Nat.or_eq_zero_iff] at h
  obtain ⟨⟨⟨⟨⟨⟨-, hscan⟩, hframe⟩, -⟩, -⟩, -⟩, hrun⟩ := h
  refine ⟨hcounted.length_written, hcounted.nonempty hdata, ?_, ?_, hcounted.stamped hscan hdata,
    ?_⟩
  · by_contra hlimit
    rw [if_pos (.inr (Nat.not_le.mp hlimit))] at hframe
    exact absurd hframe (by decide)
  · show _ = ((shot.scanFrames shot.scanPackets).crc ^^^ BitVec.allOnes 32).toNat
    rw [scanFrames_crc shot hdata, checksum]
  · intro l hl
    simp only [RunState.runIssues, Nat.or_eq_zero_iff] at hrun
    have horder : run.orderBreaks shot.shotId shot.scanPackets.firstTimestamp = false := by
      by_contra hbreaks
      rw [Bool.not_eq_false] at hbreaks
      rw [if_pos hbreaks] at hrun
      exact absurd hrun.2 (by decide)
    unfold RunState.orderBreaks at horder
    rw [Option.mem_def.mp hl] at horder
    simp only [Bool.or_eq_false_iff, decide_eq_false_iff_not, Nat.not_le] at horder
    exact ⟨horder.1.1, horder.2⟩

/-! ## The files -/

/-- The last record with a timestamp. -/
def lastStamped (index : List IndexRecord) : Option LastShot :=
  (index.filter (·.firstSampleTimestamp ≠ 0)).getLast?.map fun r =>
    ⟨r.shotId, r.firstSampleTimestamp⟩

/-- A record without timestamp leaves the last one that had one. -/
theorem lastStamped_concat (index : List IndexRecord) (r : IndexRecord) :
    lastStamped (index ++ [r]) =
      if r.firstSampleTimestamp = 0 then lastStamped index
      else some ⟨r.shotId, r.firstSampleTimestamp⟩ := by
  unfold lastStamped
  rw [List.filter_append]
  split
  · next h => simp [h]
  · next h => simp [h]

/-- A COMPLETE record names a nonempty extent with the checksum it gives, and follows the last
record with a timestamp. -/
structure IndexRecord.Intact (maxShotBytes : ℕ) (samples : Bytes) (before : List IndexRecord)
    (r : IndexRecord) : Prop where
  issueFlags : r.issueFlags = 0
  nonempty : 0 < r.sampleBytes
  limit : r.sampleBytes ≤ maxShotBytes
  inside : r.sampleFileOffset + r.sampleBytes ≤ samples.length
  crc : checksum ((samples.drop r.sampleFileOffset).take r.sampleBytes) = r.payloadCrc32
  stamped : r.firstSampleTimestamp ≠ 0
  ordered : ∀ l ∈ lastStamped before, l.shotId < r.shotId ∧ l.timestamp < r.firstSampleTimestamp

/-- An INCOMPLETE record names nothing, and says why. -/
def IndexRecord.Empty (r : IndexRecord) : Prop :=
  r.issueFlags ≠ 0 ∧ r.sampleBytes = 0 ∧ r.sampleFileOffset = uint64Max

/-- The index and the sample file agree. -/
structure FilesAgree (maxShotBytes : ℕ) (index : List IndexRecord) (samples : Bytes) : Prop where
  consecutive : Adjoin 0 samples.length ((completeRecords index).map IndexRecord.extent)
  intact : ∀ h ∈ histories index, h.2.state = .complete → h.2.Intact maxShotBytes samples h.1
  empty : ∀ r ∈ index, r.state = .incomplete → r.Empty

/-- More samples behind it leave a record intact. -/
theorem IndexRecord.Intact.extend {maxShotBytes : ℕ} {samples : Bytes} {before : List IndexRecord}
    {r : IndexRecord} (h : r.Intact maxShotBytes samples before) (more : Bytes) :
    r.Intact maxShotBytes (samples ++ more) before where
  __ := h
  inside := by
    have hinside := h.inside
    rw [List.length_append]
    omega
  crc := by
    have hinside := h.inside
    rw [List.drop_append_of_le_length (by omega),
      List.take_append_of_le_length (by rw [List.length_drop]; omega)]
    exact h.crc

/-- What the recorder has written and what it remembers of it. -/
structure RunFiles (run : RunState) : Prop where
  agree : FilesAgree run.maxShotBytes run.index run.samples
  sampleOffset : run.sampleOffset = run.samples.length
  lastShot : run.lastShot = lastStamped run.index
  complete : run.completeShots = run.index.countP (·.state = .complete)
  incomplete : run.incompleteShots = run.index.countP (·.state = .incomplete)
  duplicates : run.duplicatePackets = (run.index.map (·.duplicatePackets)).sum
  reordered : run.reorderedPackets = (run.index.map (·.reorderedPackets)).sum

variable {run run' : RunState} {shot : ShotState}

theorem RunFiles.of_same (h : RunFiles run) (hsame : SameFiles run run') : RunFiles run' := by
  refine ⟨?_, ?_, ?_, ?_, ?_, ?_, ?_⟩
  · rw [hsame.maxShotBytes, hsame.samples, hsame.index]
    exact h.agree
  · rw [hsame.sampleOffset, hsame.samples, h.sampleOffset]
  · rw [hsame.lastShot, hsame.index, h.lastShot]
  · rw [hsame.completeShots, hsame.index, h.complete]
  · rw [hsame.incompleteShots, hsame.index, h.incomplete]
  · rw [hsame.duplicatePackets, hsame.index, h.duplicates]
  · rw [hsame.reorderedPackets, hsame.index, h.reordered]

/-- A shot without issues is added to both files. -/
theorem RunFiles.publish_complete (h : RunFiles run) (hi : (run.inspect shot).issueFlags = 0) :
    RunFiles (run.publish shot (run.inspect shot)) := by
  have hf := flawless_of_issueFlags hi
  have hsamples : (run.publish shot (run.inspect shot)).samples =
      run.samples ++ shot.scanPackets.written := if_pos (decide_eq_true hi)
  have hoffset : (run.indexRecord shot (run.inspect shot)).sampleFileOffset =
      run.samples.length := by
    rw [← h.sampleOffset]
    exact if_pos (decide_eq_true hi)
  have hbytes : (run.indexRecord shot (run.inspect shot)).sampleBytes =
      shot.scanPackets.written.length :=
    (if_pos (decide_eq_true hi)).trans hf.length.symm
  have hstate : (run.indexRecord shot (run.inspect shot)).state = .complete :=
    if_pos (decide_eq_true hi)
  have hlen := hf.length
  have hrecord : (run.indexRecord shot (run.inspect shot)).Intact run.maxShotBytes
      (run.samples ++ shot.scanPackets.written) run.index := by
    refine ⟨hi, ?_, ?_, ?_, ?_, hf.stamped, ?_⟩
    · rw [hbytes, hlen]
      exact hf.nonempty
    · rw [hbytes, hlen]
      exact hf.limit
    · rw [hoffset, hbytes, List.length_append]
    · rw [hoffset, hbytes, List.drop_left, List.take_length]
      exact hf.crc
    · rw [← h.lastShot]
      exact hf.ordered
  have hcomplete : completeRecords (run.index ++ [run.indexRecord shot (run.inspect shot)]) =
      completeRecords run.index ++ [run.indexRecord shot (run.inspect shot)] := by
    unfold completeRecords
    rw [List.filter_append, List.filter_cons_of_pos (by simpa using hstate), List.filter_nil]
  refine ⟨⟨?_, ?_, ?_⟩, ?_, ?_, ?_, ?_, ?_, ?_⟩
  · show Adjoin 0 (run.publish shot (run.inspect shot)).samples.length
      ((completeRecords (run.index ++ [_])).map _)
    rw [hsamples, hcomplete, List.map_append, List.length_append, ← hbytes]
    have hextent : [run.indexRecord shot (run.inspect shot)].map IndexRecord.extent =
        [(run.samples.length, (run.indexRecord shot (run.inspect shot)).sampleBytes)] := by
      rw [List.map_cons, List.map_nil, IndexRecord.extent, hoffset]
    rw [hextent]
    exact h.agree.consecutive.concat
  · intro e he hstate'
    rw [hsamples]
    rcases List.mem_append.mp ((histories_concat run.index _) ▸ he) with he | he
    · exact (h.agree.intact e he hstate').extend _
    · rw [List.mem_singleton.mp he]
      exact hrecord
  · intro r hr hinc
    rcases List.mem_append.mp hr with hr | hr
    · exact h.agree.empty r hr hinc
    · rw [List.mem_singleton.mp hr, hstate] at hinc
      cases hinc
  · rw [hsamples, List.length_append, ← h.sampleOffset, hlen]
    exact if_pos (decide_eq_true hi)
  · show _ = lastStamped (run.index ++ [_])
    rw [lastStamped_concat, ← h.lastShot]
    rfl
  · show run.completeShots + _ = (run.index ++ [_]).countP _
    rw [List.countP_append, ← h.complete]
    simp [hi, hstate]
  · show run.incompleteShots + _ = (run.index ++ [_]).countP _
    rw [List.countP_append, ← h.incomplete]
    simp [hi, hstate]
  · show run.duplicatePackets + shot.duplicatePackets = ((run.index ++ [_]).map _).sum
    rw [List.map_append, List.sum_append, ← h.duplicates]
    simp [RunState.indexRecord]
  · show run.reorderedPackets + shot.reorderedPackets = ((run.index ++ [_]).map _).sum
    rw [List.map_append, List.sum_append, ← h.reordered]
    simp [RunState.indexRecord]

/-- A shot with issues is added to the index only. -/
theorem RunFiles.publish_incomplete (h : RunFiles run) (hi : (run.inspect shot).issueFlags ≠ 0) :
    RunFiles (run.publish shot (run.inspect shot)) := by
  have hne : ¬ decide ((run.inspect shot).issueFlags = 0) = true :=
    fun hd => hi (of_decide_eq_true hd)
  have hsamples : (run.publish shot (run.inspect shot)).samples = run.samples := if_neg hne
  have hstate : (run.indexRecord shot (run.inspect shot)).state = .incomplete := if_neg hne
  have hcomplete : completeRecords (run.index ++ [run.indexRecord shot (run.inspect shot)]) =
      completeRecords run.index := by
    unfold completeRecords
    rw [List.filter_append, List.filter_cons_of_neg (by simp [hstate]), List.filter_nil,
      List.append_nil]
  refine ⟨⟨?_, ?_, ?_⟩, ?_, ?_, ?_, ?_, ?_, ?_⟩
  · show Adjoin 0 (run.publish shot (run.inspect shot)).samples.length
      ((completeRecords (run.index ++ [_])).map _)
    rw [hsamples, hcomplete]
    exact h.agree.consecutive
  · intro e he hstate'
    rw [hsamples]
    rcases List.mem_append.mp ((histories_concat run.index _) ▸ he) with he | he
    · exact h.agree.intact e he hstate'
    · rw [List.mem_singleton.mp he, hstate] at hstate'
      cases hstate'
  · intro r hr hinc
    rcases List.mem_append.mp hr with hr | hr
    · exact h.agree.empty r hr hinc
    · rw [List.mem_singleton.mp hr]
      exact ⟨hi, if_neg hne, if_neg hne⟩
  · rw [hsamples, ← h.sampleOffset]
    exact if_neg hne
  · show _ = lastStamped (run.index ++ [_])
    rw [lastStamped_concat, ← h.lastShot]
    rfl
  · show run.completeShots + _ = (run.index ++ [_]).countP _
    rw [List.countP_append, ← h.complete]
    simp [hi, hstate]
  · show run.incompleteShots + _ = (run.index ++ [_]).countP _
    rw [List.countP_append, ← h.incomplete]
    simp [hi, hstate]
  · show run.duplicatePackets + shot.duplicatePackets = ((run.index ++ [_]).map _).sum
    rw [List.map_append, List.sum_append, ← h.duplicates]
    simp [RunState.indexRecord]
  · show run.reorderedPackets + shot.reorderedPackets = ((run.index ++ [_]).map _).sum
    rw [List.map_append, List.sum_append, ← h.reordered]
    simp [RunState.indexRecord]

/-- A publication adds a record and its bytes. -/
theorem RunFiles.publish (h : RunFiles run) (shot : ShotState) :
    RunFiles (run.publish shot (run.inspect shot)) := by
  by_cases hi : (run.inspect shot).issueFlags = 0
  · exact h.publish_complete hi
  · exact h.publish_incomplete hi

/-- A shot that is closed keeps the files in step. -/
theorem RunFiles.closeStep (hc : CloseStep run run') (h : RunFiles run) : RunFiles run' := by
  cases hc with
  | close position shot _ =>
    refine (h.publish shot.sortPackets).of_same ?_
    exact ⟨rfl, rfl, rfl, rfl, rfl, rfl, rfl, rfl, rfl⟩
  | mark =>
    refine h.of_same ?_
    exact ⟨rfl, rfl, rfl, rfl, rfl, rfl, rfl, rfl, rfl⟩

theorem Options.start_files (o : Options) : RunFiles o.start where
  agree := ⟨rfl, fun _ h => absurd h List.not_mem_nil, fun _ h => absurd h List.not_mem_nil⟩
  sampleOffset := rfl
  lastShot := rfl
  complete := rfl
  incomplete := rfl
  duplicates := rfl
  reordered := rfl

theorem maxShotBytes_written (h : Written run run') : run'.maxShotBytes = run.maxShotBytes :=
  h.keeps (fun hs he => hs.maxShotBytes.trans he) (fun hc he => by cases hc <;> exact he) rfl

/-- The counters that `run.json` reports beside the index are those of the index. -/
structure CountsAgree (run : RunState) : Prop where
  complete : run.completeShots = run.index.countP (·.state = .complete)
  incomplete : run.incompleteShots = run.index.countP (·.state = .incomplete)
  duplicates : run.duplicatePackets = (run.index.map (·.duplicatePackets)).sum
  reordered : run.reorderedPackets = (run.index.map (·.reorderedPackets)).sum

theorem Written.record_files (o : Options) (messages : List Message) (interrupted : Bool) :
    RunFiles (Recorder.record o messages interrupted).run ∧
      (Recorder.record o messages interrupted).run.maxShotBytes = o.maxShotBytes :=
  have hwritten := Written.record o messages interrupted
  ⟨hwritten.keeps (fun hs h => h.of_same hs) RunFiles.closeStep o.start_files,
    maxShotBytes_written hwritten⟩

/-- Whatever messages come, from whatever senders, and however the recording ends, its index, its
sample file and its counters agree. -/
theorem record_filesAgree (o : Options) (messages : List Message) (interrupted : Bool) :
    FilesAgree o.maxShotBytes (record o messages interrupted).run.index
      (record o messages interrupted).run.samples ∧
    CountsAgree (record o messages interrupted).run := by
  obtain ⟨hfiles, hmax⟩ := Written.record_files o messages interrupted
  have hagree := hfiles.agree
  rw [hmax] at hagree
  exact ⟨hagree, hfiles.complete, hfiles.incomplete, hfiles.duplicates, hfiles.reordered⟩

end QCrate.Recorder
