import QCrate.Analyzer.Growth
import QCrate.Receiver.Assembler
import QCrate.Recorder.Extents
import QCrate.Recorder.Ordering

/-!
# The analyzer on what the recorder writes

`RunBundle.open` takes the files of every recording except for one reason: the ids of its records do
not increase. What it takes it reads back with the checksums of the index, and of a run that was
sent and whose order of arrival does no harm it reads back the samples that were sent.

* `readSamples`, `publishedPayloadsValid` — the samples of a shot, and the test of the acceptance.
* `recording_opens` — the files of any recording.
* `sent_run_opens` — from the sender to the analyzer.
-/

namespace QCrate.Analyzer

open QCrate.Lib QCrate.DataPlane QCrate.Recorder SentRun
open QCrate.Receiver (crc32)

/-! ## Samples -/

/-- What `read_samples` raises. -/
inductive ReadError where
  | incomplete (shotId : ℕ)
  | truncated (shotId : ℕ)
  deriving DecidableEq, Repr

/-- `RunBundle.read_samples`, with the contents of the sample file. -/
def readSamples (samples : Bytes) (shot : ShotRecord) : Except ReadError Bytes :=
  if !shot.complete then .error (.incomplete shot.shotId)
  else
    let payload := (samples.drop shot.sampleOffset).take shot.sampleBytes
    if payload.length ≠ shot.sampleBytes then .error (.truncated shot.shotId) else .ok payload

/-- The loop of `published_payloads_valid`, which stops at the first shot that does not match. -/
def payloadsValid (samples : Bytes) : List ShotRecord → Except ReadError Bool
  | [] => .ok true
  | shot :: shots =>
    match readSamples samples shot with
    | .error e => .error e
    | .ok payload =>
      if crc32 payload = shot.payloadCrc32 then payloadsValid samples shots else .ok false

/-- `published_payloads_valid` -/
def publishedPayloadsValid {F : Type} (samples : Bytes) (b : RunBundle F) :
    Except ReadError Bool :=
  payloadsValid samples b.completeShots

/-! ## The files of a recording -/

/-- `qcrate_index_header_encode` -/
def qcrateIndexHeaderEncode (runId streamId : ℕ) : Bytes :=
  let output := zeros qidxHeaderBytes
  let output := putAt output 0 (putBE 4 qidxMagic)
  let output := putAt output 4 (putBE 2 qidxVersion)
  let output := putAt output 6 (putBE 2 qidxHeaderBytes)
  let output := putAt output 8 (putBE 2 qidxRecordBytes)
  let output := putAt output 16 (putBE 8 runId)
  putAt output 24 (putBE 4 streamId)

/-- The run and the stream of the header: those that `select_run` writes, or the zeros that `main`
writes when nothing was selected. -/
def identity (run : RunState) : ℕ × ℕ :=
  match run.selected with
  | some selection => (selection.runId, selection.streamId)
  | none => (0, 0)

/-- `shots.qidx`: the header and the records. -/
def indexFile (run : RunState) : Option Bytes := do
  let records ← run.index.mapM qcrateIndexRecordEncode
  return qcrateIndexHeaderEncode (identity run).1 (identity run).2 ++ records.flatten

/-- The directory of a recording, with the reports that are there. -/
def filesOf (run : RunState) (runJson senderJson : Option ReportFile) : Option Files :=
  (indexFile run).map fun index =>
    { index := index, sampleFileBytes := run.samples.length, runJson := runJson
      senderJson := senderJson }

theorem indexHeader_eq (runId streamId : ℕ) :
    qcrateIndexHeaderEncode runId streamId =
      putBE 4 qidxMagic ++ (putBE 2 qidxVersion ++ (putBE 2 qidxHeaderBytes ++
        (putBE 2 qidxRecordBytes ++ (zeros 6 ++ (putBE 8 runId ++ (putBE 4 streamId ++
          zeros 4)))))) := by
  unfold qcrateIndexHeaderEncode qidxHeaderBytes
  have hstart : putAt (putAt (putAt (putAt (zeros 32) 0 (putBE 4 qidxMagic)) 4
      (putBE 2 qidxVersion)) 6 (putBE 2 32)) 8 (putBE 2 qidxRecordBytes) =
      (putBE 4 qidxMagic ++ (putBE 2 qidxVersion ++ (putBE 2 32 ++ putBE 2 qidxRecordBytes))) ++
        zeros 22 := by decide
  simp only [hstart]
  rw [putAt_zeros 6 (by simp) (by simp), putAt_zeros 0 (by simp) (by simp)]
  simp [List.append_assoc, zeros]

theorem length_indexHeader (runId streamId : ℕ) :
    (qcrateIndexHeaderEncode runId streamId).length = qidxHeaderBytes := by
  rw [indexHeader_eq]
  simp [qidxHeaderBytes]

theorem indexFile_eq (run : RunState) :
    indexFile run = some (qcrateIndexHeaderEncode (identity run).1 (identity run).2 ++
      run.index.flatMap IndexRecord.bytes) := by
  have hrecords : ∀ l : List IndexRecord,
      l.mapM qcrateIndexRecordEncode = some (l.map IndexRecord.bytes) := by
    intro l
    induction l with
    | nil => rfl
    | cons r l ih =>
      rw [List.mapM_cons, qcrateIndexRecordEncode_eq, ih]
      rfl
  unfold indexFile
  rw [hrecords, List.flatMap_def]
  rfl

/-- Pieces of one length, from one of them on. -/
theorem drop_flatMap {α β : Type*} {f : α → List β} {k : ℕ} (h : ∀ a, (f a).length = k)
    (l : List α) (i : ℕ) : (l.flatMap f).drop (i * k) = (l.drop i).flatMap f := by
  induction l generalizing i with
  | nil => simp
  | cons a l ih =>
    cases i with
    | zero => simp
    | succ i =>
      rw [List.flatMap_cons, List.drop_succ_cons, ← ih, Nat.succ_mul, Nat.add_comm,
        ← List.drop_drop,
        List.drop_left' (h a)]

theorem length_flatMap_bytes (l : List IndexRecord) :
    (l.flatMap IndexRecord.bytes).length = l.length * qidxRecordBytes := by
  induction l with
  | nil => simp
  | cons r l ih =>
    rw [List.flatMap_cons, List.length_append, ih, length_bytes, List.length_cons, Nat.succ_mul,
      Nat.add_comm]

/-- The file of an index of sound records. -/
structure Holds (f : Files) (runId streamId : ℕ) (index : List IndexRecord) : Prop where
  index : f.index = qcrateIndexHeaderEncode runId streamId ++ index.flatMap IndexRecord.bytes

namespace Holds

variable {f : Files} {runId streamId : ℕ} {index : List IndexRecord}

theorem length (h : Holds f runId streamId index) :
    f.index.length = qidxHeaderBytes + index.length * qidxRecordBytes := by
  rw [h.index, List.length_append, length_indexHeader, length_flatMap_bytes]

theorem available (h : Holds f runId streamId index) : f.available = index.length := by
  unfold Files.available
  rw [h.length, Nat.add_sub_cancel_left]
  exact Nat.mul_div_cancel _ (by decide)

theorem trailingBytes (h : Holds f runId streamId index) : f.trailingBytes = 0 := by
  unfold Files.trailingBytes
  rw [h.length, Nat.add_sub_cancel_left]
  exact Nat.mul_mod_left ..

theorem recordBytes (h : Holds f runId streamId index) {i : ℕ} (hi : i < index.length) :
    f.recordBytes i = index[i].bytes := by
  have hlength := length_indexHeader runId streamId
  unfold Files.recordBytes
  rw [h.index, ← List.drop_drop, List.drop_left' hlength, drop_flatMap length_bytes,
    List.drop_eq_getElem_cons hi, List.flatMap_cons]
  exact List.take_left' (length_bytes _)

theorem decodeRange (h : Holds f runId streamId index)
    (hsound : ∀ r ∈ index, ShotRecord.decode r.bytes = .ok r.stored) :
    f.decodeRange 0 f.available = .ok (index.map IndexRecord.stored) := by
  rw [h.available]
  unfold Files.decodeRange
  have hrange : ∀ n start, start + n = index.length →
      ((List.range' start n).mapM fun ordinal => ShotRecord.decode (f.recordBytes ordinal)) =
        .ok ((index.drop start).map IndexRecord.stored) := by
    intro n
    induction n with
    | zero =>
      intro start hn
      rw [List.drop_of_length_le (by omega)]
      rfl
    | succ n ih =>
      intro start hn
      have hlt : start < index.length := by omega
      rw [List.range'_succ, List.mapM_cons, h.recordBytes hlt, hsound _ (List.getElem_mem hlt),
        ih (start + 1) (by omega), List.drop_eq_getElem_cons hlt]
      rfl
  have hall := hrange (index.length - 0) 0 (by omega)
  rw [List.drop_zero] at hall
  exact hall

theorem header (h : Holds f runId streamId index) :
    readBE 4 f.index 0 = qidxMagic ∧ readBE 2 f.index 4 = qidxVersion ∧
      readBE 2 f.index 6 = qidxHeaderBytes ∧ readBE 2 f.index 8 = qidxRecordBytes ∧
      readBE 6 f.index 10 = 0 ∧ readBE 4 f.index 28 = 0 ∧ f.runId = runId % 256 ^ 8 ∧
      f.streamId = streamId % 256 ^ 4 := by
  have hreserved : ∀ rest, readBE 6 (zeros 6 ++ rest) 0 = 0 := fun rest =>
    readBE_putBE_of_lt (w := 6) (n := 0) (by decide) rest
  have hlast : ∀ rest, readBE 4 (zeros 4 ++ rest) 0 = 0 := fun rest =>
    readBE_putBE_of_lt (w := 4) (n := 0) (by decide) rest
  unfold Files.runId Files.streamId
  rw [h.index, indexHeader_eq]
  simp only [List.append_assoc]
  simp (disch := simp) only [readBE_skip, readBE_putBE, length_putBE, length_zeros, Nat.reduceSub,
    Nat.sub_self, hreserved, hlast]
  exact ⟨rfl, rfl, rfl, rfl, trivial, trivial, trivial, trivial⟩

end Holds

/-- The directory of a recording. -/
theorem filesOf_holds (run : RunState) (runJson senderJson : Option ReportFile) :
    ∃ f, filesOf run runJson senderJson = some f ∧
      Holds f (identity run).1 (identity run).2 run.index := by
  unfold filesOf
  rw [indexFile_eq]
  exact ⟨_, rfl, ⟨rfl⟩⟩

/-! ## The tests of `open` -/

theorem adjoin_le {first last : ℕ} {l : List (ℕ × ℕ)} (h : Adjoin first last l) : first ≤ last := by
  induction l generalizing first with
  | nil => exact h.le
  | cons e rest ih => exact (Nat.le_add_right _ _).trans (ih h.2)

/-- Extents that adjoin are no reason to refuse: only the ids are. -/
theorem checkShots_adjoin {b : ℕ} (index : List IndexRecord) (previous : Option ℕ) (last : ℕ)
    (h : Adjoin last b ((completeRecords index).map IndexRecord.extent)) :
    checkShots b previous last (index.map IndexRecord.stored) =
      if (previous.toList ++ index.map (·.shotId)).IsChain (· < ·) then .ok ()
      else .error .shotIdOrder := by
  induction index generalizing previous last with
  | nil => cases previous <;> simp [checkShots]
  | cons r index ih =>
    have hid : r.stored.shotId = r.shotId := rfl
    have hchain : (previous.toList ++ (r :: index).map (·.shotId)).IsChain (· < ·) ↔
        previous.any (r.shotId ≤ ·) = false ∧
          ((some r.shotId).toList ++ index.map (·.shotId)).IsChain (· < ·) := by
      cases previous with
      | none => simp
      | some q => simp [List.isChain_cons_cons]
    rw [List.map_cons, checkShots, hid]
    by_cases hrepeats : previous.any (r.shotId ≤ ·) = true
    · rw [if_pos hrepeats, if_neg]
      intro hc
      rw [(hchain.mp hc).1] at hrepeats
      cases hrepeats
    · rw [if_neg hrepeats]
      have hif : (if (previous.toList ++ (r :: index).map (·.shotId)).IsChain (· < ·) then
          Except.ok () else .error RunError.shotIdOrder) =
          if ((some r.shotId).toList ++ index.map (·.shotId)).IsChain (· < ·) then .ok ()
          else .error .shotIdOrder := by
        rw [Bool.not_eq_true] at hrepeats
        exact if_congr (hchain.trans (and_iff_right hrepeats)) rfl rfl
      rw [hif]
      cases hs : r.state with
      | incomplete =>
        have hstate : r.stored.complete = false := by
          show decide (r.state.view = .complete) = false
          rw [hs]
          rfl
        have hrest : completeRecords (r :: index) = completeRecords index :=
          List.filter_cons_of_neg (by simp [hs])
        rw [hrest] at h
        rw [if_pos (by rw [hstate]; rfl)]
        exact ih (some r.shotId) last h
      | complete =>
        have hstate : r.stored.complete = true := by
          show decide (r.state.view = .complete) = true
          rw [hs]
          rfl
        have hrest : completeRecords (r :: index) = r :: completeRecords index :=
          List.filter_cons_of_pos (by simp [hs])
        rw [hrest] at h
        obtain ⟨hoffset, hadjoin⟩ := h
        have hoffset' : r.stored.sampleOffset = last := hoffset
        have hbytes : r.stored.sampleBytes = r.sampleBytes := rfl
        have hle := adjoin_le hadjoin
        have hle' : last + r.sampleBytes ≤ b := hle
        rw [if_neg (by rw [hstate]; exact Bool.false_ne_true), hoffset', hbytes,
          if_neg (Nat.not_lt.mpr hle'), if_neg (lt_irrefl last)]
        exact ih (some r.shotId) (last + r.sampleBytes) hadjoin

/-- The samples of a COMPLETE record. -/
theorem readSamples_intact {maxShotBytes : ℕ} {samples : Bytes} {before : List IndexRecord}
    {r : IndexRecord} (h : r.Intact maxShotBytes samples before) (hs : r.state = .complete) :
    readSamples samples r.stored =
        .ok ((samples.drop r.sampleFileOffset).take r.sampleBytes) ∧
      crc32 ((samples.drop r.sampleFileOffset).take r.sampleBytes) = r.payloadCrc32 := by
  have hstate : r.stored.complete = true := by
    show decide (r.state.view = .complete) = true
    rw [hs]
    rfl
  have hlength : ((samples.drop r.sampleFileOffset).take r.sampleBytes).length =
      r.sampleBytes := by
    have hinside := h.inside
    rw [List.length_take, List.length_drop]
    omega
  refine ⟨?_, h.crc⟩
  unfold readSamples
  rw [if_neg (by rw [hstate]; exact Bool.false_ne_true)]
  exact if_neg (not_not.mpr hlength)

theorem payloadsValid_intact {maxShotBytes : ℕ} {samples : Bytes} {shots : List ShotRecord}
    (h : ∀ shot ∈ shots, ∃ (before : List IndexRecord) (r : IndexRecord),
      r.Intact maxShotBytes samples before ∧ r.state = .complete ∧ shot = r.stored) :
    payloadsValid samples shots = .ok true := by
  induction shots with
  | nil => rfl
  | cons shot shots ih =>
    obtain ⟨before, r, hintact, hs, rfl⟩ := h shot List.mem_cons_self
    obtain ⟨hread, hcrc⟩ := readSamples_intact hintact hs
    have hcrc' : r.stored.payloadCrc32 = r.payloadCrc32 := rfl
    rw [payloadsValid, hread, hcrc']
    dsimp only
    rw [if_pos hcrc]
    exact ih fun shot hshot => h shot (List.mem_cons_of_mem _ hshot)

/-! ## Any recording -/

/-- What came one after the other leaves a sound run. -/
theorem record_sound (o : Options) {messages : List RunState.Message} (interrupted : Bool)
    (horder : messages.Pairwise fun m m' => m.receiveNs ≤ m'.receiveNs) :
    ∃ now, (record o messages interrupted).run.Sound now := by
  have hall := RunState.receiveAll_sound o.start_sound o.start_waiting
    (fun _ _ => Nat.zero_le _) horder
  cases hreceive : RunState.receiveAll messages o.start with
  | error run =>
    rw [record_error hreceive]
    exact hall run (.inr hreceive)
  | ok run =>
    obtain ⟨now, hnow⟩ := hall run (.inl hreceive)
    rw [record_ok hreceive]
    have hstart : RunState.Sound { run with interrupted := interrupted } now :=
      hnow.of_same rfl rfl rfl rfl
    have hfinal := RunState.finalizeRemainingLoop_sound run.shots.length hstart
    exact ⟨now, hfinal.of_same rfl rfl rfl rfl⟩

/-- The files of a recording whose samples fit a file. -/
structure Left (run : RunState) (runJson senderJson : Option ReportFile) (f : Files) : Prop where
  files : filesOf run runJson senderJson = some f
  short : run.samples.length < 2 ^ 63

variable {F : Type} (py : Python F)

/-- The reports of a directory. -/
def loadReports (f : Files) : Except RunError (Option (Report F) × Option (Report F)) :=
  match loadIfExists py "run.json" "qcrate-run-v1" f.runId f.streamId f.runJson with
  | .error e => .error e
  | .ok manifest =>
    match loadIfExists py "sender.json" "qcrate-sender-report-v1" f.runId f.streamId
      f.senderJson with
    | .error e => .error e
    | .ok senderReport => .ok (manifest, senderReport)

/-- `open` on the files of a sound run whose index and samples agree. -/
theorem openRun_recording {run : RunState} {maxShotBytes now : ℕ}
    (hagree : FilesAgree maxShotBytes run.index run.samples) (hsound : run.Sound now)
    {runJson senderJson : Option ReportFile} {f : Files} (h : Left run runJson senderJson f) :
    RunBundle.openRun py f =
        (if (run.index.map (·.shotId)).Pairwise (· < ·) then
          (loadReports py f).map fun reports =>
            ⟨f.runId, f.streamId, run.index.map IndexRecord.stored, reports.1, reports.2⟩
        else .error .shotIdOrder) ∧
      ∀ b, RunBundle.openRun py f = .ok b → publishedPayloadsValid run.samples b = .ok true := by
  obtain ⟨hf, hshort⟩ := h
  have hopen : RunBundle.openRun py f =
      (if (run.index.map (·.shotId)).Pairwise (· < ·) then
        (loadReports py f).map fun reports =>
          ⟨f.runId, f.streamId, run.index.map IndexRecord.stored, reports.1, reports.2⟩
      else .error .shotIdOrder) := by
    unfold filesOf at hf
    rw [indexFile_eq] at hf
    have hf' := Option.some.inj hf
    have hholds : Holds f (identity run).1 (identity run).2 run.index := ⟨by rw [← hf']⟩
    have hsize : f.sampleFileBytes = run.samples.length := by rw [← hf']
    -- every record is read back as it was written
    have hdecode := hholds.decodeRange fun r hr => decode_bytes (hsound.index r hr) hshort
    obtain ⟨hmagic, hversion, hheader, hrecord, hzero, hzero', -, -⟩ := hholds.header
    have hlength : ¬ f.index.length < qidxHeaderBytes := by
      rw [hholds.length]
      omega
    -- the extents adjoin, so only the order of the ids can be wrong
    have hcheck := checkShots_adjoin run.index none 0 hagree.consecutive
    rw [← hsize, Option.toList_none, List.nil_append] at hcheck
    unfold RunBundle.openRun
    rw [if_neg hlength, if_neg (by rw [hmagic, hversion]; simp),
      if_neg (by rw [hheader, hrecord]; simp), if_neg (by rw [hzero, hzero']; simp),
      if_neg (not_not.mpr hholds.trailingBytes), hdecode]
    dsimp only
    rw [hcheck]
    have hiff : (run.index.map (·.shotId)).IsChain (· < ·) ↔
        (run.index.map (·.shotId)).Pairwise (· < ·) := List.isChain_iff_pairwise
    by_cases hc : (run.index.map (·.shotId)).IsChain (· < ·)
    · rw [if_pos hc, if_pos (hiff.mp hc)]
      dsimp only
      unfold loadReports
      cases loadIfExists py "run.json" "qcrate-run-v1" f.runId f.streamId f.runJson with
      | error e => rfl
      | ok manifest =>
        dsimp only
        cases loadIfExists py "sender.json" "qcrate-sender-report-v1" f.runId f.streamId
          f.senderJson <;> rfl
    · rw [if_neg hc, if_neg (mt hiff.mpr hc)]
  refine ⟨hopen, fun b hb => ?_⟩
  rw [hopen] at hb
  split at hb
  · obtain ⟨reports, -, rfl⟩ : ∃ reports, loadReports py f = .ok reports ∧
        RunBundle.mk f.runId f.streamId (run.index.map IndexRecord.stored) reports.1 reports.2 =
          b := by
      cases hl : loadReports py f with
      | error e =>
        rw [hl] at hb
        cases hb
      | ok reports =>
        rw [hl] at hb
        cases hb
        exact ⟨reports, rfl, rfl⟩
    -- the CRC of a complete record is that of its bytes
    refine @payloadsValid_intact maxShotBytes _ _ fun shot hshot => ?_
    obtain ⟨hmem, hcomplete⟩ := List.mem_filter.mp hshot
    obtain ⟨r, hr, rfl⟩ := List.mem_map.mp hmem
    have hs : r.state = .complete := by
      cases hs : r.state with
      | complete => rfl
      | incomplete =>
        have hstate : r.stored.complete = false := by
          show decide (r.state.view = .complete) = false
          rw [hs]
          rfl
        rw [hstate] at hcomplete
        cases hcomplete
    have hr' : ∃ before, (before, r) ∈ histories run.index := mem_historiesFrom hr
    obtain ⟨before, hbefore⟩ := hr'
    exact ⟨before, r, hagree.intact _ hbefore hs, hs, rfl⟩
  · cases hb

/-- The files of any recording, whatever the messages were: `open` refuses them because the ids of
the records do not increase, or because of a report, and for no other reason. What it takes are the
records of the index, the samples of every COMPLETE one can be read, and their checksums match. -/
theorem recording_opens (o : Options) (messages : List RunState.Message) (interrupted : Bool)
    (horder : messages.Pairwise fun m m' => m.receiveNs ≤ m'.receiveNs)
    (runJson senderJson : Option ReportFile) (f : Files)
    (h : Left (record o messages interrupted).run runJson senderJson f) :
    RunBundle.openRun py f =
        (if ((record o messages interrupted).run.index.map (·.shotId)).Pairwise (· < ·) then
          (loadReports py f).map fun reports =>
            ⟨f.runId, f.streamId, (record o messages interrupted).run.index.map IndexRecord.stored,
              reports.1, reports.2⟩
        else .error .shotIdOrder) ∧
      ∀ b, RunBundle.openRun py f = .ok b →
        publishedPayloadsValid (record o messages interrupted).run.samples b = .ok true := by
  obtain ⟨now, hsound⟩ := record_sound o interrupted horder
  exact openRun_recording py (Written.record_files o messages interrupted).1.agree hsound h

/-- A run with a COMPLETE record and an INCOMPLETE one is opened. -/
theorem recording_opens_wholeThenInfo :
    ∃ f, filesOf (record { maxShotBytes := 1024 } wholeThenInfo false).run none none = some f ∧
      RunBundle.openRun wholePython f = .ok ⟨f.runId, f.streamId,
        (record { maxShotBytes := 1024 } wholeThenInfo false).run.index.map IndexRecord.stored,
        none,
        none⟩ := by
  have hshort : (record { maxShotBytes := 1024 } wholeThenInfo false).run.samples.length <
      2 ^ 63 := by
    decide +kernel
  have hids : ((record { maxShotBytes := 1024 } wholeThenInfo false).run.index.map
      (·.shotId)).Pairwise (· < ·) := by
    decide +kernel
  obtain ⟨f, hf, -⟩ := filesOf_holds (record { maxShotBytes := 1024 } wholeThenInfo false).run none
    none
  refine ⟨f, hf, ?_⟩
  have hopens := (recording_opens wholePython { maxShotBytes := 1024 } wholeThenInfo false
    (by decide +kernel) none none f ⟨hf, hshort⟩).1
  have hnone : f.runJson = none ∧ f.senderJson = none := by
    unfold filesOf at hf
    obtain ⟨index, -, rfl⟩ := Option.map_eq_some_iff.mp hf
    exact ⟨rfl, rfl⟩
  have hreports : loadReports wholePython f = .ok (none, none) := by
    unfold loadReports
    rw [hnone.1, hnone.2]
    rfl
  rw [if_pos hids, hreports] at hopens
  exact hopens

/-! ## A run that was sent -/

variable {R : SentRun} {source : Source} {items : List Item}

/-- The files of a run that arrives in an order that does no harm. -/
theorem files_of_harmless {o : Options} (hg : R.Genuine o.maxShotBytes) (hne : R.shots ≠ [])
    (hn : R.shots.length ≤ maxActiveShots) (hadmits : Admits o source)
    {messages : List RunState.Message} (hd : Delivers R source messages items)
    (hh : Harmless R items) (interrupted : Bool) :
    (record o messages interrupted).run.selected = some (R.selection source) ∧
      (record o messages interrupted).run.index.map (·.shotId) = R.shots.map SentShot.shotId ∧
      (∀ r ∈ (record o messages interrupted).run.index, r.state = .complete) ∧
      (record o messages interrupted).run.samples = R.shots.flatMap (·.samples) := by
  have hsession := record_session hd o interrupted
  rw [heardItems_eq hadmits] at hsession
  generalize record o messages interrupted = out at hsession
  cases hsession with
  | unheard hl => exact absurd (hh.shots_eq_nil hl) hne
  | stuck _ _ _ h => exact absurd h (not_stuck hn)
  | @ended _ _ _ S S' run h hf h' hm hselected hprofile =>
    have harrived : ∀ k < R.shots.length,
        R.feed.Arrived ((effective items).filterMap Item.packet?) k :=
      fun k _ p hp => Ingested.mem_packets.mpr (hh.kept k p hp)
    obtain ⟨hfollows, hunits, hintact⟩ :=
      ended_of_patient h hf h' hprofile (hm ▸ hg) harrived hh.patient
    obtain ⟨hids, hstates, hsamples⟩ := files_of_units hfollows hintact hunits
    exact ⟨hselected.trans h.selected, hids, hstates, hsamples⟩

/-- A record of a shot that was sent names the samples of the shot. -/
theorem samples_of_sent {messages : List RunState.Message} (hd : Delivers R source messages items)
    (o : Options) (interrupted : Bool) {r : IndexRecord}
    (hr : r ∈ completeRecords (record o messages interrupted).run.index) {s : SentShot}
    (hs : s ∈ R.shots) (hid : r.shotId = s.shotId) :
    ((record o messages interrupted).run.samples.drop r.sampleFileOffset).take r.sampleBytes =
      s.samples := by
  obtain ⟨S, hfollows, hsound⟩ := record_follows hd o interrupted
  have hexact := (publishes_of_records hfollows.logged.index hsound.sorted).1
  rw [← hfollows.logged.samples] at hexact
  obtain ⟨t, ht, htid, -, htake⟩ := hexact.exact r hr
  obtain ⟨i, hi, rfl⟩ := List.getElem_of_mem hs
  obtain ⟨j, hj, rfl⟩ := List.getElem_of_mem ht
  have hij : j = i := SentRun.shotId_inj (List.getElem?_eq_getElem hj)
    (List.getElem?_eq_getElem hi) (htid.symm.trans hid)
  subst hij
  exact htake

/-- What `open` takes of the files of a run whose records name the samples of what was sent. -/
theorem opens_of_sent {run : RunState} {maxShotBytes now : ℕ}
    (hagree : FilesAgree maxShotBytes run.index run.samples) (hsound : run.Sound now)
    (hids : run.index.map (·.shotId) = R.shots.map SentShot.shotId)
    (hstates : ∀ r ∈ run.index, r.state = .complete)
    (hread : ∀ r ∈ completeRecords run.index, ∀ s ∈ R.shots, r.shotId = s.shotId →
      (run.samples.drop r.sampleFileOffset).take r.sampleBytes = s.samples)
    {runJson senderJson : Option ReportFile} {f : Files} (h : Left run runJson senderJson f)
    {reports : Option (Report F) × Option (Report F)} (hreports : loadReports py f = .ok reports) :
    ∃ b, RunBundle.openRun py f = .ok b ∧ b.shots.map (·.shotId) = R.shots.map SentShot.shotId ∧
      (∀ (k : ℕ) (s : SentShot), R.shots[k]? = some s → ∃ shot, b.shots[k]? = some shot ∧
        readSamples run.samples shot = .ok s.samples) ∧
      publishedPayloadsValid run.samples b = .ok true := by
  have hincreasing : (run.index.map (·.shotId)).Pairwise (· < ·) := by
    rw [hids]
    exact List.pairwise_map.mpr R.ids
  obtain ⟨hopen, hvalid⟩ := openRun_recording py hagree hsound h
  rw [if_pos hincreasing, hreports] at hopen
  refine ⟨⟨f.runId, f.streamId, run.index.map IndexRecord.stored, reports.1, reports.2⟩, hopen, ?_,
    fun k s hs => ?_, hvalid _ hopen⟩
  · rw [← hids]
    exact List.map_map
  · -- record number k is the one of shot number k
    have hk : (run.index.map (·.shotId))[k]? = some s.shotId := by
      rw [hids, List.getElem?_map, hs]
      rfl
    rw [List.getElem?_map] at hk
    obtain ⟨r, hr, hid⟩ := Option.map_eq_some_iff.mp hk
    have hmem := List.mem_of_getElem? hr
    have hstate := hstates r hmem
    have hbefore : ∃ before, (before, r) ∈ histories run.index := mem_historiesFrom hmem
    obtain ⟨before, hbefore⟩ := hbefore
    refine ⟨r.stored, ?_, ?_⟩
    · show (run.index.map IndexRecord.stored)[k]? = _
      rw [List.getElem?_map, hr]
      rfl
    · rw [(readSamples_intact (hagree.intact _ hbefore hstate) hstate).1]
      exact congrArg Except.ok (hread r (List.mem_filter.mpr ⟨hmem, decide_eq_true hstate⟩) s
        (List.mem_of_getElem? hs) hid)

/-- From the sender to the analyzer: a genuine run that arrives in an order that does no harm is
opened, with its identity and the ids of its shots in order, and the samples read back for each
shot are those that were sent. -/
theorem sent_run_opens {o : Options} (hg : R.Genuine o.maxShotBytes) (hne : R.shots ≠ [])
    (hn : R.shots.length ≤ maxActiveShots) (hadmits : Admits o source)
    {messages : List RunState.Message} (hd : Delivers R source messages items)
    (hh : Harmless R items) (interrupted : Bool)
    (horder : messages.Pairwise fun m m' => m.receiveNs ≤ m'.receiveNs)
    (hsize : (R.shots.flatMap (·.samples)).length < 2 ^ 63)
    (runJson senderJson : Option ReportFile) :
    ∃ f, filesOf (record o messages interrupted).run runJson senderJson = some f ∧
      f.runId = R.runId.toNat ∧ f.streamId = R.streamId.toNat ∧
      ∀ reports, loadReports py f = .ok reports →
        ∃ b, RunBundle.openRun py f = .ok b ∧ b.shots.map (·.shotId) = R.shots.map SentShot.shotId ∧
          (∀ (k : ℕ) (s : SentShot), R.shots[k]? = some s → ∃ shot, b.shots[k]? = some shot ∧
            readSamples (record o messages interrupted).run.samples shot = .ok s.samples) ∧
          publishedPayloadsValid (record o messages interrupted).run.samples b = .ok true := by
  obtain ⟨hselected, hids, hstates, hsamples⟩ :=
    files_of_harmless hg hne hn hadmits hd hh interrupted
  obtain ⟨now, hsound⟩ := record_sound o interrupted horder
  obtain ⟨f, hf, hholds⟩ := filesOf_holds (record o messages interrupted).run runJson senderJson
  have hidentity : identity (record o messages interrupted).run =
      (R.runId.toNat, R.streamId.toNat) := by
    unfold identity
    rw [hselected]
    rfl
  rw [hidentity] at hholds
  obtain ⟨-, -, -, -, -, -, hrunId, hstreamId⟩ := hholds.header
  have hrun : R.runId.toNat < 256 ^ 8 := R.runId.toNat_lt
  have hstream : R.streamId.toNat < 256 ^ 4 := R.streamId.toNat_lt
  have hleft : Left (record o messages interrupted).run runJson senderJson f :=
    ⟨hf, by rw [hsamples]; exact hsize⟩
  refine ⟨f, hf, hrunId.trans (Nat.mod_eq_of_lt hrun), hstreamId.trans (Nat.mod_eq_of_lt hstream),
    fun reports hreports => ?_⟩
  exact opens_of_sent py (Written.record_files o messages interrupted).1.agree hsound hids hstates
    (fun r hr s hs hid => samples_of_sent hd o interrupted hr hs hid) hleft hreports

theorem sent_run_opens_twoShots :
    ∃ f, filesOf (recordTwo twoShotRun.sent).run none none = some f ∧ f.runId = 1 := by
  have hadmits : Admits { maxShotBytes := 4 } (.inet 1 5000) := rfl
  have horder : (carryItems twoShotRun (.inet 1 5000) (fun _ => 1) twoShotRun.sent).Pairwise
      fun m m' => m.receiveNs ≤ m'.receiveNs := by
    refine List.pairwise_map.mpr (List.pairwise_of_forall fun _ _ => ?_)
    exact UInt64.le_refl 1
  obtain ⟨f, hf, hrunId, -, -⟩ := sent_run_opens wholePython twoShots_genuine
    (List.cons_ne_nil _ _) (by decide) hadmits (delivers_carryItems _ _ sends_sent)
    (harmless_sent _) false horder (by decide +kernel) none none
  exact ⟨f, hf, hrunId⟩

end QCrate.Analyzer
