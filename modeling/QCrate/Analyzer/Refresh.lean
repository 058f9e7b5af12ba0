import QCrate.Analyzer.Index
import Mathlib.Tactic

/-!
# A refresh that raises

`refresh` changes the catalog record by record, and a record or a report that it refuses later does
not undo that.

* `Follows` — the records that `_accumulate` takes.
* `scan_eq_none_iff` — the scan takes the unscanned records when they follow the catalog.
* `refresh_atomic` — the calls that leave the catalog, and every later call, as it was when they
  raise.
-/

namespace QCrate.Analyzer

open QCrate.Lib QCrate.DataPlane

/-- The records follow the shot ID `previous` and the sample offset `last`: their IDs increase, and
complete shots lie in the sample file one after the other. -/
def Follows (sampleFileBytes : ℕ) : Option ℕ → ℕ → List ShotRecord → Prop
  | _, _, [] => True
  | previous, last, shot :: shots =>
    previous.any (shot.shotId ≤ ·) = false ∧
    (shot.complete = true → shot.sampleOffset + shot.sampleBytes ≤ sampleFileBytes ∧
      last ≤ shot.sampleOffset) ∧
    Follows sampleFileBytes (some shot.shotId)
      (if shot.complete then shot.sampleOffset + shot.sampleBytes else last) shots

variable {F : Type} {r r' : RunIndex F} {f : Files} {shot : ShotRecord} {shots : List ShotRecord}
  {b : ℕ}

/-- The record count, the counters and the continuity state of two catalogs agree. -/
structure SameCatalog (r r' : RunIndex F) : Prop where
  recordCount : r'.recordCount = r.recordCount
  scannedCount : r'.scannedCount = r.scannedCount
  completeCount : r'.completeCount = r.completeCount
  incompleteCount : r'.incompleteCount = r.incompleteCount
  previousShotId : r'.previousShotId = r.previousShotId
  previousSampleEnd : r'.previousSampleEnd = r.previousSampleEnd
  firstReceiveNs : r'.firstReceiveNs = r.firstReceiveNs
  lastReceiveNs : r'.lastReceiveNs = r.lastReceiveNs
  skippedShotIds : r'.skippedShotIds = r.skippedShotIds
  sampleBytes : r'.sampleBytes = r.sampleBytes
  datagrams : r'.datagrams = r.datagrams
  duplicatePackets : r'.duplicatePackets = r.duplicatePackets
  reorderedPackets : r'.reorderedPackets = r.reorderedPackets
  missingPackets : r'.missingPackets = r.missingPackets

/-- The identity and the reports of two catalogs agree. -/
structure SameReports (r r' : RunIndex F) : Prop where
  runId : r'.runId = r.runId
  streamId : r'.streamId = r.streamId
  manifest : r'.manifest = r.manifest
  senderReport : r'.senderReport = r.senderReport
  runSignature : r'.runSignature = r.runSignature
  senderSignature : r'.senderSignature = r.senderSignature

theorem SameCatalog.refl (r : RunIndex F) : SameCatalog r r :=
  ⟨rfl, rfl, rfl, rfl, rfl, rfl, rfl, rfl, rfl, rfl, rfl, rfl, rfl, rfl⟩

theorem SameCatalog.trans {r'' : RunIndex F} (h : SameCatalog r r') (h' : SameCatalog r' r'') :
    SameCatalog r r'' := by
  constructor
  · rw [h'.recordCount, h.recordCount]
  · rw [h'.scannedCount, h.scannedCount]
  · rw [h'.completeCount, h.completeCount]
  · rw [h'.incompleteCount, h.incompleteCount]
  · rw [h'.previousShotId, h.previousShotId]
  · rw [h'.previousSampleEnd, h.previousSampleEnd]
  · rw [h'.firstReceiveNs, h.firstReceiveNs]
  · rw [h'.lastReceiveNs, h.lastReceiveNs]
  · rw [h'.skippedShotIds, h.skippedShotIds]
  · rw [h'.sampleBytes, h.sampleBytes]
  · rw [h'.datagrams, h.datagrams]
  · rw [h'.duplicatePackets, h.duplicatePackets]
  · rw [h'.reorderedPackets, h.reorderedPackets]
  · rw [h'.missingPackets, h.missingPackets]

theorem SameReports.refl (r : RunIndex F) : SameReports r r := ⟨rfl, rfl, rfl, rfl, rfl, rfl⟩

theorem SameReports.trans {r'' : RunIndex F} (h : SameReports r r') (h' : SameReports r' r'') :
    SameReports r r'' :=
  ⟨h'.runId.trans h.runId, h'.streamId.trans h.streamId, h'.manifest.trans h.manifest,
    h'.senderReport.trans h.senderReport, h'.runSignature.trans h.runSignature,
    h'.senderSignature.trans h.senderSignature⟩

namespace RunIndex

/-! ## One record -/

/-- The last shot ID is the same, or a greater one has been taken. -/
def Moved (r r' : RunIndex F) : Prop :=
  ∃ id, r'.previousShotId = some id ∧ ∀ p, r.previousShotId = some p → p < id

theorem Moved.ne (h : Moved r r') : r'.previousShotId ≠ r.previousShotId := by
  obtain ⟨id, hid, hlt⟩ := h
  intro heq
  exact absurd (hlt id (heq.symm.trans hid)) (lt_irrefl id)

theorem Moved.trans {r'' : RunIndex F} (h : Moved r r')
    (h' : r''.previousShotId = r'.previousShotId ∨ Moved r' r'') : Moved r r'' := by
  obtain ⟨id, hid, hlt⟩ := h
  rcases h' with heq | ⟨id', hid', hlt'⟩
  · exact ⟨id, heq.trans hid, hlt⟩
  · exact ⟨id', hid', fun p hp => (hlt p hp).trans (hlt' id hid)⟩

/-- What `_accumulate` does with a record. -/
theorem accumulate_cases (r : RunIndex F) (shot : ShotRecord) (b : ℕ) :
    (r.repeatsShotId shot = true ∧ r.accumulate shot b = (r, some .shotIdOrder)) ∨
    (r.repeatsShotId shot = false ∧
      (r.accumulate shot b).1.previousShotId = some shot.shotId ∧
      ((r.accumulate shot b).2 = none ↔ (shot.complete = true →
        shot.sampleOffset + shot.sampleBytes ≤ b ∧ r.previousSampleEnd ≤ shot.sampleOffset)) ∧
      ((r.accumulate shot b).2 = none → (r.accumulate shot b).1.previousSampleEnd =
        if shot.complete then shot.sampleOffset + shot.sampleBytes
        else r.previousSampleEnd)) := by
  unfold accumulate
  cases hrepeats : r.repeatsShotId shot with
  | true => exact .inl ⟨rfl, rfl⟩
  | false =>
    refine .inr ⟨rfl, ?_⟩
    rw [if_neg Bool.false_ne_true]
    unfold countSamples
    cases hcomplete : shot.complete with
    | true =>
      simp only [if_true, forall_const]
      split
      · next hexceeds =>
        exact ⟨rfl, ⟨fun h => absurd h (Option.some_ne_none _), fun h => absurd h.1 (by omega)⟩,
          fun h => absurd h (Option.some_ne_none _)⟩
      · next hexceeds =>
        split
        · next hoverlaps =>
          exact ⟨rfl, ⟨fun h => absurd h (Option.some_ne_none _),
            fun h => absurd h.2 (Nat.not_le_of_lt hoverlaps)⟩,
            fun h => absurd h (Option.some_ne_none _)⟩
        · next hoverlaps =>
          exact ⟨rfl, ⟨fun _ => ⟨by omega, Nat.le_of_not_lt hoverlaps⟩, fun _ => rfl⟩,
            fun _ => rfl⟩
    | false =>
      exact ⟨rfl, ⟨fun _ h => absurd h Bool.false_ne_true, fun _ => rfl⟩, fun _ => rfl⟩

theorem moved_accumulate (h : r.repeatsShotId shot = false) : Moved r (r.accumulate shot b).1 := by
  rcases accumulate_cases r shot b with ⟨hrepeats, -⟩ | ⟨-, hid, -⟩
  · rw [h] at hrepeats
    cases hrepeats
  · refine ⟨shot.shotId, hid, fun p hp => ?_⟩
    rw [repeatsShotId, hp, Option.any_some, decide_eq_false_iff_not] at h
    omega

/-- The parts of a catalog that no record changes. -/
theorem accumulate_kept (r : RunIndex F) (shot : ShotRecord) (b : ℕ) :
    SameReports r (r.accumulate shot b).1 ∧
      (r.accumulate shot b).1.recordCount = r.recordCount ∧
      (r.accumulate shot b).1.scannedCount = r.scannedCount := by
  unfold accumulate countSamples
  split
  · exact ⟨SameReports.refl r, rfl, rfl⟩
  split
  · split
    · exact ⟨⟨rfl, rfl, rfl, rfl, rfl, rfl⟩, rfl, rfl⟩
    · split <;> exact ⟨⟨rfl, rfl, rfl, rfl, rfl, rfl⟩, rfl, rfl⟩
  · exact ⟨⟨rfl, rfl, rfl, rfl, rfl, rfl⟩, rfl, rfl⟩

/-! ## The records of a read -/

theorem accumulateAll_kept (b : ℕ) (r : RunIndex F) (shots : List ShotRecord) :
    SameReports r (accumulateAll b r shots).1 ∧
      (accumulateAll b r shots).1.recordCount = r.recordCount ∧
      (accumulateAll b r shots).1.scannedCount = r.scannedCount := by
  induction shots generalizing r with
  | nil => exact ⟨SameReports.refl r, rfl, rfl⟩
  | cons shot shots ih =>
    have hkept := accumulate_kept r shot b
    unfold accumulateAll
    generalize r.accumulate shot b = result at hkept
    obtain ⟨r₁, e⟩ := result
    cases e with
    | some e => exact hkept
    | none =>
      obtain ⟨hreports, hcount, hscanned⟩ := ih r₁
      exact ⟨hkept.1.trans hreports, hcount.trans hkept.2.1, hscanned.trans hkept.2.2⟩

/-- Shot IDs only increase. -/
theorem accumulateAll_moves (b : ℕ) (r : RunIndex F) (shots : List ShotRecord) :
    (accumulateAll b r shots).1.previousShotId = r.previousShotId ∨
      Moved r (accumulateAll b r shots).1 := by
  induction shots generalizing r with
  | nil => exact .inl rfl
  | cons shot shots ih =>
    unfold accumulateAll
    cases hrepeats : r.repeatsShotId shot with
    | true =>
      have hstop : r.accumulate shot b = (r, some .shotIdOrder) := by
        rw [accumulate, hrepeats, if_pos rfl]
      rw [hstop]
      exact .inl rfl
    | false =>
      have hmoved := moved_accumulate (b := b) hrepeats
      generalize r.accumulate shot b = result at hmoved
      obtain ⟨r₁, e⟩ := result
      cases e with
      | some e => exact .inr hmoved
      | none => exact .inr (hmoved.trans (ih r₁))

/-- The first record of a read moves the catalog unless its shot ID is refused. -/
theorem accumulateAll_cons (b : ℕ) (r : RunIndex F) (shot : ShotRecord)
    (shots : List ShotRecord) :
    (r.repeatsShotId shot = true ∧
      accumulateAll b r (shot :: shots) = (r, some .shotIdOrder)) ∨
    (r.repeatsShotId shot = false ∧ Moved r (accumulateAll b r (shot :: shots)).1) := by
  cases hrepeats : r.repeatsShotId shot with
  | true =>
    refine .inl ⟨rfl, ?_⟩
    rw [accumulateAll, accumulate, hrepeats, if_pos rfl]
  | false =>
    refine .inr ⟨rfl, ?_⟩
    have hmoved := moved_accumulate (b := b) hrepeats
    unfold accumulateAll
    generalize r.accumulate shot b = result at hmoved
    obtain ⟨r₁, e⟩ := result
    cases e with
    | some e => exact hmoved
    | none => exact hmoved.trans (accumulateAll_moves b r₁ shots)

/-- A read is taken as a whole exactly when its records follow the catalog, and what follows it
then follows the records. -/
theorem accumulateAll_follows (b : ℕ) (r : RunIndex F) (shots more : List ShotRecord) :
    Follows b r.previousShotId r.previousSampleEnd (shots ++ more) ↔
      (accumulateAll b r shots).2 = none ∧
        Follows b (accumulateAll b r shots).1.previousShotId
          (accumulateAll b r shots).1.previousSampleEnd more := by
  induction shots generalizing r with
  | nil => exact ⟨fun h => ⟨rfl, h⟩, And.right⟩
  | cons shot shots ih =>
    rw [List.cons_append, Follows, accumulateAll]
    rcases accumulate_cases r shot b with ⟨hrepeats, hstop⟩ | ⟨hrepeats, hid, hok, hend⟩
    · rw [hstop, show r.previousShotId.any (shot.shotId ≤ ·) = true from hrepeats]
      simp
    · rw [show r.previousShotId.any (shot.shotId ≤ ·) = false from hrepeats]
      generalize r.accumulate shot b = result at hid hok hend
      obtain ⟨r₁, e⟩ := result
      cases e with
      | some e =>
        constructor
        · exact fun h => absurd (hok.mpr h.2.1) (Option.some_ne_none e)
        · exact fun h => absurd h.1 (Option.some_ne_none e)
      | none =>
        have hrest := ih r₁
        rw [show r₁.previousShotId = some shot.shotId from hid,
          show r₁.previousSampleEnd = _ from hend rfl] at hrest
        exact ⟨fun h => hrest.mp h.2.2, fun h => ⟨rfl, hok.mp rfl, hrest.mpr h⟩⟩

/-! ## The scan -/

theorem cacheAll_kept (r : RunIndex F) (start : ℕ) (shots : List ShotRecord) :
    SameCatalog r (r.cacheAll start shots) ∧ SameReports r (r.cacheAll start shots) := by
  unfold cacheAll
  generalize shots.zipIdx start = items
  induction items generalizing r with
  | nil => exact ⟨SameCatalog.refl r, SameReports.refl r⟩
  | cons item items ih =>
    have hone : SameCatalog r (r.cacheRecord item.2 item.1) ∧
        SameReports r (r.cacheRecord item.2 item.1) :=
      ⟨⟨rfl, rfl, rfl, rfl, rfl, rfl, rfl, rfl, rfl, rfl, rfl, rfl, rfl, rfl⟩,
        ⟨rfl, rfl, rfl, rfl, rfl, rfl⟩⟩
    obtain ⟨hcatalog, hreports⟩ := ih (r.cacheRecord item.2 item.1)
    exact ⟨hone.1.trans hcatalog, hone.2.trans hreports⟩

theorem moved_of_same {r₁ : RunIndex F} (h : SameCatalog r r₁) (hm : Moved r₁ r') : Moved r r' := by
  obtain ⟨id, hid, hlt⟩ := hm
  refine ⟨id, hid, fun p hp => hlt p ?_⟩
  rw [h.previousShotId, hp]

theorem scan_kept (f : Files) (fuel : ℕ) (r : RunIndex F) :
    SameReports r (scan f fuel r).1 ∧ (scan f fuel r).1.recordCount = r.recordCount := by
  induction fuel generalizing r with
  | zero => exact ⟨SameReports.refl r, rfl⟩
  | succ fuel ih =>
    unfold scan
    split
    · dsimp only
      split
      · exact ⟨SameReports.refl r, rfl⟩
      · next shots _ =>
        obtain ⟨hcatalog, hreports⟩ := cacheAll_kept r r.scannedCount shots
        have hkept := accumulateAll_kept f.sampleFileBytes (r.cacheAll r.scannedCount shots) shots
        generalize accumulateAll f.sampleFileBytes (r.cacheAll r.scannedCount shots) shots = result
          at hkept
        obtain ⟨r₁, e⟩ := result
        cases e with
        | some e => exact ⟨hreports.trans hkept.1, hkept.2.1.trans hcatalog.recordCount⟩
        | none =>
          obtain ⟨hrest, hcount⟩ := ih
            { r₁ with scannedCount := min f.available (r.scannedCount + scanBatch) }
          exact ⟨(hreports.trans hkept.1).trans ⟨hrest.runId, hrest.streamId, hrest.manifest,
            hrest.senderReport, hrest.runSignature, hrest.senderSignature⟩,
            hcount.trans (hkept.2.1.trans hcatalog.recordCount)⟩
    · exact ⟨SameReports.refl r, rfl⟩

theorem scan_moves (f : Files) (fuel : ℕ) (r : RunIndex F) :
    (scan f fuel r).1.previousShotId = r.previousShotId ∨ Moved r (scan f fuel r).1 := by
  induction fuel generalizing r with
  | zero => exact .inl rfl
  | succ fuel ih =>
    unfold scan
    split
    · dsimp only
      split
      · exact .inl rfl
      · next shots _ =>
        have hcatalog := (cacheAll_kept r r.scannedCount shots).1
        have hmoves := accumulateAll_moves f.sampleFileBytes (r.cacheAll r.scannedCount shots) shots
        generalize accumulateAll f.sampleFileBytes (r.cacheAll r.scannedCount shots) shots = result
          at hmoves
        obtain ⟨r₁, e⟩ := result
        have hfirst : r₁.previousShotId = r.previousShotId ∨ Moved r r₁ := by
          rcases hmoves with heq | hmoved
          · exact .inl (heq.trans hcatalog.previousShotId)
          · exact .inr (moved_of_same hcatalog hmoved)
        cases e with
        | some e => exact hfirst
        | none =>
          have hrest := ih { r₁ with scannedCount := min f.available (r.scannedCount + scanBatch) }
          rcases hfirst with heq | hmoved
          · rcases hrest with heq' | ⟨id, hid, hlt⟩
            · exact .inl (heq'.trans heq)
            · refine .inr ⟨id, hid, fun p hp => hlt p ?_⟩
              exact heq.trans hp
          · exact .inr (hmoved.trans hrest)
    · exact .inl rfl

/-- The first read of a scan is refused: a record of it does not decode, or the first shot ID does
not follow the catalog. -/
def FirstRefused (r : RunIndex F) (f : Files) : Prop :=
  ∀ shots, f.decodeRange r.scannedCount (min f.available (r.scannedCount + scanBatch)) = .ok shots →
    ∀ shot, shots.head? = some shot → r.repeatsShotId shot = true

theorem decodeRange_cons {start stop : ℕ} (h : start < stop)
    (hok : f.decodeRange start stop = .ok shots) : ∃ shot rest, shots = shot :: rest := by
  unfold Files.decodeRange at hok
  obtain ⟨n, hn⟩ := Nat.exists_eq_add_of_lt h
  rw [show stop - start = n + 1 by omega, List.range'_succ, List.mapM_cons] at hok
  cases hfirst : ShotRecord.decode (f.recordBytes start) with
  | error e =>
    rw [hfirst] at hok
    cases hok
  | ok shot =>
    rw [hfirst] at hok
    cases hrest : (List.range' (start + 1) n).mapM fun ordinal =>
        ShotRecord.decode (f.recordBytes ordinal) with
    | error e =>
      rw [hrest] at hok
      cases hok
    | ok rest =>
      rw [hrest] at hok
      cases hok
      exact ⟨shot, rest, rfl⟩

theorem decodeRange_append {start middle stop : ℕ} (h : start ≤ middle) (h' : middle ≤ stop) :
    f.decodeRange start stop = .ok shots ↔ ∃ first more, f.decodeRange start middle = .ok first ∧
      f.decodeRange middle stop = .ok more ∧ shots = first ++ more := by
  have hrange : List.range' start (stop - start) =
      List.range' start (middle - start) ++ List.range' middle (stop - middle) := by
    obtain ⟨m, rfl⟩ := Nat.exists_eq_add_of_le h
    obtain ⟨n, rfl⟩ := Nat.exists_eq_add_of_le h'
    rw [Nat.add_sub_cancel_left, Nat.add_sub_cancel_left, List.range'_append_1]
    congr 1
    omega
  unfold Files.decodeRange
  rw [hrange, List.mapM_append]
  cases (List.range' start (middle - start)).mapM fun ordinal =>
      ShotRecord.decode (f.recordBytes ordinal) with
  | error e =>
    constructor
    · intro hno
      cases hno
    · rintro ⟨_, _, hno, -⟩
      cases hno
  | ok first =>
    cases (List.range' middle (stop - middle)).mapM fun ordinal =>
        ShotRecord.decode (f.recordBytes ordinal) with
    | error e =>
      constructor
      · intro hno
        cases hno
      · rintro ⟨_, _, -, hno, -⟩
        cases hno
    | ok more =>
      constructor
      · intro hok
        cases hok
        exact ⟨first, more, rfl, rfl, rfl⟩
      · rintro ⟨_, _, hfirst, hmore, rfl⟩
        cases hfirst
        cases hmore
        rfl

/-- A scan with something to read stops at once, and at most its first read has entered the cache,
or it moves the catalog. -/
theorem scan_first (fuel : ℕ) (h : r.scannedCount < f.available) :
    (FirstRefused r f ∧ (scan f (fuel + 1) r).2 ≠ none ∧
      (scan f (fuel + 1) r).1 =
        match f.decodeRange r.scannedCount (min f.available (r.scannedCount + scanBatch)) with
        | .error _ => r
        | .ok shots => r.cacheAll r.scannedCount shots) ∨
    (¬ FirstRefused r f ∧ Moved r (scan f (fuel + 1) r).1) := by
  have hstop : r.scannedCount < min f.available (r.scannedCount + scanBatch) := by
    unfold scanBatch
    omega
  unfold scan
  rw [if_pos h]
  dsimp only
  cases hread : f.decodeRange r.scannedCount (min f.available (r.scannedCount + scanBatch)) with
  | error e =>
    refine .inl ⟨?_, Option.some_ne_none e, rfl⟩
    intro shots hno
    rw [hread] at hno
    cases hno
  | ok shots =>
    -- the cache takes the records before they are checked, and changes no counter
    obtain ⟨shot, rest, rfl⟩ := decodeRange_cons hstop hread
    have hcatalog := (cacheAll_kept r r.scannedCount (shot :: rest)).1
    have hrepeats : (r.cacheAll r.scannedCount (shot :: rest)).repeatsShotId shot =
        r.repeatsShotId shot := by
      rw [repeatsShotId, repeatsShotId, hcatalog.previousShotId]
    have hcons := accumulateAll_cons f.sampleFileBytes
      (r.cacheAll r.scannedCount (shot :: rest)) shot rest
    rw [hrepeats] at hcons
    rcases hcons with ⟨hno, hstopped⟩ | ⟨hyes, hmoved⟩
    · refine .inl ⟨?_, ?_, ?_⟩
      · intro shots' hread' shot' hhead
        rw [hread] at hread'
        cases hread'
        cases hhead
        exact hno
      · dsimp only
        rw [hstopped]
        exact Option.some_ne_none _
      · dsimp only
        rw [hstopped]
    · have hmoved := moved_of_same hcatalog hmoved
      refine .inr ⟨?_, ?_⟩
      · intro hrefused
        have hno := hrefused (shot :: rest) hread shot rfl
        rw [hyes] at hno
        cases hno
      · dsimp only
        generalize accumulateAll f.sampleFileBytes (r.cacheAll r.scannedCount (shot :: rest))
          (shot :: rest) = result at hmoved
        obtain ⟨r₁, e⟩ := result
        cases e with
        | some e => exact hmoved
        | none =>
          exact hmoved.trans (scan_moves f fuel
            { r₁ with scannedCount := min f.available (r.scannedCount + scanBatch) })

/-- The unscanned records decode, and they follow the catalog. -/
def Scannable (r : RunIndex F) (f : Files) : Prop :=
  ∃ shots, f.decodeRange r.scannedCount f.available = .ok shots ∧
    Follows f.sampleFileBytes r.previousShotId r.previousSampleEnd shots

/-- A scan takes every record exactly when the records follow the catalog. -/
theorem scan_eq_none_iff (fuel : ℕ) (r : RunIndex F) (h : f.available - r.scannedCount ≤ fuel) :
    (scan f fuel r).2 = none ↔ Scannable r f := by
  induction fuel generalizing r with
  | zero =>
    refine ⟨fun _ => ⟨[], ?_, trivial⟩, fun _ => rfl⟩
    unfold Files.decodeRange
    rw [show f.available - r.scannedCount = 0 by omega]
    rfl
  | succ fuel ih =>
    unfold scan
    split
    · next hlt =>
      have hle : r.scannedCount ≤ min f.available (r.scannedCount + scanBatch) := by omega
      have hle' : min f.available (r.scannedCount + scanBatch) ≤ f.available := by omega
      have hfuel : f.available - min f.available (r.scannedCount + scanBatch) ≤ fuel := by
        unfold scanBatch
        omega
      unfold Scannable
      simp only [decodeRange_append hle hle']
      cases hread : f.decodeRange r.scannedCount (min f.available (r.scannedCount + scanBatch)) with
      | error e =>
        constructor
        · intro hno
          cases hno
        · rintro ⟨_, ⟨_, _, hno, -⟩, -⟩
          cases hno
      | ok first =>
        have hcatalog := (cacheAll_kept r r.scannedCount first).1
        have hfollows := fun more => accumulateAll_follows f.sampleFileBytes
          (r.cacheAll r.scannedCount first) first more
        simp only [hcatalog.previousShotId, hcatalog.previousSampleEnd] at hfollows
        dsimp only
        generalize accumulateAll f.sampleFileBytes (r.cacheAll r.scannedCount first) first = result
          at hfollows
        obtain ⟨r₁, e⟩ := result
        cases e with
        | some e =>
          constructor
          · intro hno
            cases hno
          · rintro ⟨_, ⟨first', more, hfirst, -, rfl⟩, hrest⟩
            cases hfirst
            exact absurd ((hfollows more).mp hrest).1 (Option.some_ne_none e)
        | none =>
          have hrest := ih { r₁ with scannedCount := min f.available (r.scannedCount + scanBatch) }
            hfuel
          rw [hrest]
          constructor
          · rintro ⟨more, hmore, hok⟩
            exact ⟨first ++ more, ⟨first, more, rfl, hmore, rfl⟩, (hfollows more).mpr ⟨rfl, hok⟩⟩
          · rintro ⟨_, ⟨first', more, hfirst, hmore, rfl⟩, hok⟩
            cases hfirst
            exact ⟨more, hmore, ((hfollows more).mp hok).2⟩
    · next hge =>
      refine ⟨fun _ => ⟨[], ?_, trivial⟩, fun _ => rfl⟩
      unfold Files.decodeRange
      rw [show f.available - r.scannedCount = 0 by omega]
      rfl

/-! ## The reports -/

variable (py : Python F)

theorem refreshRun_kept (r : RunIndex F) (f : Files) : SameCatalog r (r.refreshRun py f).1 := by
  unfold refreshRun
  dsimp only
  split
  · exact SameCatalog.refl r
  · split
    · exact SameCatalog.refl r
    · exact ⟨rfl, rfl, rfl, rfl, rfl, rfl, rfl, rfl, rfl, rfl, rfl, rfl, rfl, rfl⟩

theorem refreshSender_kept (r : RunIndex F) (f : Files) :
    SameCatalog r (r.refreshSender py f).1 := by
  unfold refreshSender
  dsimp only
  split
  · exact SameCatalog.refl r
  · split
    · exact SameCatalog.refl r
    · exact ⟨rfl, rfl, rfl, rfl, rfl, rfl, rfl, rfl, rfl, rfl, rfl, rfl, rfl, rfl⟩

/-- Reports change no counter. -/
theorem refreshReports_kept (r : RunIndex F) (f : Files) :
    SameCatalog r (r.refreshReports py f).1 := by
  unfold refreshReports
  split
  · exact SameCatalog.refl r
  · have hrun := refreshRun_kept py r f
    generalize r.refreshRun py f = result at hrun
    obtain ⟨r₁, e⟩ := result
    cases e with
    | error e => exact hrun
    | ok changedRun =>
      have hsender := refreshSender_kept py r₁ f
      dsimp only
      generalize r₁.refreshSender py f = result at hsender
      obtain ⟨r₂, e⟩ := result
      cases e with
      | error e => exact hrun.trans hsender
      | ok changedSender => exact hrun.trans hsender

/-- What a report does depends on the identity and the reports alone. -/
theorem refreshRun_congr (h : SameReports r r') :
    (r'.refreshRun py f).2 = (r.refreshRun py f).2 ∧
      SameReports (r.refreshRun py f).1 (r'.refreshRun py f).1 := by
  unfold refreshRun loadReport
  rw [h.runSignature, h.runId, h.streamId]
  dsimp only
  split
  · exact ⟨rfl, h⟩
  · split
    · exact ⟨rfl, h⟩
    · exact ⟨rfl, rfl, rfl, rfl, h.senderReport, rfl, h.senderSignature⟩

theorem refreshSender_congr (h : SameReports r r') :
    (r'.refreshSender py f).2 = (r.refreshSender py f).2 ∧
      SameReports (r.refreshSender py f).1 (r'.refreshSender py f).1 := by
  unfold refreshSender loadReport
  rw [h.senderSignature, h.runId, h.streamId]
  dsimp only
  split
  · exact ⟨rfl, h⟩
  · split
    · exact ⟨rfl, h⟩
    · exact ⟨rfl, rfl, rfl, h.manifest, rfl, h.runSignature, rfl⟩

theorem refreshReports_congr (h : SameReports r r') :
    (r'.refreshReports py f).2 = (r.refreshReports py f).2 ∧
      SameReports (r.refreshReports py f).1 (r'.refreshReports py f).1 := by
  unfold refreshReports
  rw [h.runId]
  split
  · exact ⟨rfl, h⟩
  · obtain ⟨hresult, hreports⟩ := refreshRun_congr py (f := f) h
    generalize r.refreshRun py f = result at hresult hreports
    generalize r'.refreshRun py f = result' at hresult hreports
    obtain ⟨r₁, e⟩ := result
    obtain ⟨r₁', e'⟩ := result'
    dsimp only at hresult
    subst hresult
    cases e' with
    | error e => exact ⟨rfl, hreports⟩
    | ok changedRun =>
      obtain ⟨hresult, hreports⟩ := refreshSender_congr py (f := f) hreports
      dsimp only at hresult hreports ⊢
      generalize r₁.refreshSender py f = result at hresult hreports
      generalize r₁'.refreshSender py f = result' at hresult hreports
      obtain ⟨r₂, e⟩ := result
      obtain ⟨r₂', e'⟩ := result'
      dsimp only at hresult
      subst hresult
      cases e' with
      | error e => exact ⟨rfl, hreports⟩
      | ok changedSender => exact ⟨rfl, hreports⟩

/-- The file on disk is another one, and it loads. -/
def TakesRun (r : RunIndex F) (f : Files) : Prop :=
  r.runSignature ≠ f.runJson.map (·.signature) ∧
    ∃ report, r.loadReport py "run.json" "qcrate-run-v1" f.runJson = .ok report

def TakesSender (r : RunIndex F) (f : Files) : Prop :=
  r.senderSignature ≠ f.senderJson.map (·.signature) ∧
    ∃ report, r.loadReport py "sender.json" "qcrate-sender-report-v1" f.senderJson = .ok report

/-- The file on disk is another one, and it does not load. -/
def RefusesRun (r : RunIndex F) (f : Files) : Prop :=
  r.runSignature ≠ f.runJson.map (·.signature) ∧
    ∃ e, r.loadReport py "run.json" "qcrate-run-v1" f.runJson = .error e

/-- The catalog has no identity, `run.json` is refused, or neither report is taken. -/
def NoReportTaken (r : RunIndex F) (f : Files) : Prop :=
  r.runId = 0 ∨ r.RefusesRun py f ∨ ¬ r.TakesRun py f ∧ ¬ r.TakesSender py f

theorem refreshRun_cases (r : RunIndex F) (f : Files) :
    (r.TakesRun py f ∧ (r.refreshRun py f).1.runSignature ≠ r.runSignature) ∨
    (r.RefusesRun py f ∧ ∃ e, r.refreshRun py f = (r, .error e)) ∨
    (¬ r.TakesRun py f ∧ ¬ r.RefusesRun py f ∧ r.refreshRun py f = (r, .ok false)) := by
  unfold refreshRun TakesRun RefusesRun
  by_cases hsame : r.runSignature = f.runJson.map (·.signature)
  · rw [if_pos hsame]
    exact .inr (.inr ⟨fun h => h.1 hsame, fun h => h.1 hsame, rfl⟩)
  · rw [if_neg hsame]
    cases r.loadReport py "run.json" "qcrate-run-v1" f.runJson with
    | error e => exact .inr (.inl ⟨⟨hsame, e, rfl⟩, e, rfl⟩)
    | ok report => exact .inl ⟨⟨hsame, report, rfl⟩, fun h => hsame h.symm⟩

theorem refreshSender_eq_iff (r : RunIndex F) (f : Files) :
    (r.refreshSender py f).1 = r ↔ ¬ r.TakesSender py f := by
  unfold refreshSender TakesSender
  by_cases hsame : r.senderSignature = f.senderJson.map (·.signature)
  · rw [if_pos hsame]
    exact ⟨fun _ h => h.1 hsame, fun _ => rfl⟩
  · rw [if_neg hsame]
    cases r.loadReport py "sender.json" "qcrate-sender-report-v1" f.senderJson with
    | error e => exact ⟨fun _ h => absurd h.2 nofun, fun _ => rfl⟩
    | ok report =>
      constructor
      · intro h
        exact absurd (congrArg senderSignature h).symm hsame
      · intro h
        exact absurd ⟨hsame, report, rfl⟩ h

theorem refreshSender_runSignature (r : RunIndex F) (f : Files) :
    (r.refreshSender py f).1.runSignature = r.runSignature := by
  unfold refreshSender
  dsimp only
  split
  · rfl
  · split <;> rfl

/-- The reports leave the catalog as it was exactly when none is taken. -/
theorem refreshReports_eq_iff (r : RunIndex F) (f : Files) :
    (r.refreshReports py f).1 = r ↔ r.NoReportTaken py f := by
  unfold refreshReports NoReportTaken
  by_cases hid : r.runId = 0
  · rw [if_pos hid]
    exact ⟨fun _ => .inl hid, fun _ => rfl⟩
  rw [if_neg hid]
  rcases refreshRun_cases py r f with ⟨htaken, hmoved⟩ | ⟨hrefused, e, heq⟩ | ⟨hnot, hnot', heq⟩
  · have hno : ¬ (r.runId = 0 ∨ r.RefusesRun py f ∨ ¬ r.TakesRun py f ∧ ¬ r.TakesSender py f) := by
      rintro (h | ⟨-, e, he⟩ | ⟨h, -⟩)
      · exact hid h
      · obtain ⟨-, report, hok⟩ := htaken
        rw [hok] at he
        cases he
      · exact h htaken
    refine iff_of_false (fun h => hmoved ?_) hno
    generalize r.refreshRun py f = result at h
    obtain ⟨r₁, result⟩ := result
    cases result with
    | error e => exact congrArg runSignature h
    | ok changedRun =>
      have hkept := refreshSender_runSignature py r₁ f
      dsimp only at h ⊢
      generalize r₁.refreshSender py f = result at h hkept
      obtain ⟨r₂, result⟩ := result
      rw [← hkept]
      cases result <;> exact congrArg runSignature h
  · rw [heq]
    exact ⟨fun _ => .inr (.inl hrefused), fun _ => rfl⟩
  · rw [heq]
    have hsender := refreshSender_eq_iff py r f
    dsimp only
    generalize r.refreshSender py f = result at hsender
    obtain ⟨r₂, result⟩ := result
    have hkept : r₂ = r ↔ r.runId = 0 ∨ r.RefusesRun py f ∨
        ¬ r.TakesRun py f ∧ ¬ r.TakesSender py f := by
      rw [show r₂ = r ↔ ¬ r.TakesSender py f from hsender]
      constructor
      · exact fun h => .inr (.inr ⟨hnot, h⟩)
      · rintro (h | h | h)
        · exact absurd h hid
        · exact absurd h hnot'
        · exact h.2
    cases result <;> exact hkept

theorem refreshReports_identity (r : RunIndex F) (f : Files) :
    (r.refreshReports py f).1.runId = r.runId ∧
      (r.refreshReports py f).1.streamId = r.streamId := by
  have hrun : ∀ r : RunIndex F, (r.refreshRun py f).1.runId = r.runId ∧
      (r.refreshRun py f).1.streamId = r.streamId := by
    intro r
    unfold refreshRun
    dsimp only
    split
    · exact ⟨rfl, rfl⟩
    · split <;> exact ⟨rfl, rfl⟩
  have hsender : ∀ r : RunIndex F, (r.refreshSender py f).1.runId = r.runId ∧
      (r.refreshSender py f).1.streamId = r.streamId := by
    intro r
    unfold refreshSender
    dsimp only
    split
    · exact ⟨rfl, rfl⟩
    · split <;> exact ⟨rfl, rfl⟩
  unfold refreshReports
  split
  · exact ⟨rfl, rfl⟩
  · have hfirst := hrun r
    generalize r.refreshRun py f = result at hfirst
    obtain ⟨r₁, result⟩ := result
    cases result with
    | error e => exact hfirst
    | ok changedRun =>
      have hsecond := hsender r₁
      dsimp only
      generalize r₁.refreshSender py f = result at hsecond
      obtain ⟨r₂, result⟩ := result
      have hboth := And.intro (hsecond.1.trans hfirst.1) (hsecond.2.trans hfirst.2)
      cases result <;> exact hboth

/-! ## The call -/

/-- The catalog with the identity of the index file. -/
def identified (r : RunIndex F) (f : Files) : RunIndex F :=
  { r with runId := f.runId, streamId := f.streamId }

/-- The identity of the index file is the one the catalog has. -/
def SameIdentity (r : RunIndex F) (f : Files) : Prop := f.runId = r.runId ∧ f.streamId = r.streamId

/-- The index file is refused before anything of it is taken. -/
def Refused (r : RunIndex F) (f : Files) : Prop :=
  f.index.length < qidxHeaderBytes ∨ (r.validateHeader f).2 ≠ none ∨
    f.available < r.recordCount ∧ r.SameIdentity f

/-- The first read is refused, and its records are in the cache already, as the last ones. -/
def FirstKept (r : RunIndex F) (f : Files) : Prop :=
  r.FirstRefused f ∧
    ∀ shots,
      f.decodeRange r.scannedCount (min f.available (r.scannedCount + scanBatch)) = .ok shots →
      (r.cacheAll r.scannedCount shots).cache = r.cache

/-- The index file has the identity and the number of records that the catalog has, and the scan
refuses its first read or has none and no report is taken. -/
def NothingTaken (r : RunIndex F) (f : Files) : Prop :=
  r.SameIdentity f ∧ f.available = r.recordCount ∧
    (r.scannedCount < f.available ∧ r.FirstKept f ∨
      f.available ≤ r.scannedCount ∧ r.NoReportTaken py f)

/-- Nothing is wrong with the files: no record is gone, the unscanned records follow the catalog,
the reports load, and a complete run has no partial record. -/
def Sound (r : RunIndex F) (f : Files) : Prop :=
  r.recordCount ≤ f.available ∧ r.Scannable f ∧
    (∃ changed, ((r.identified f).refreshReports py f).2 = .ok changed) ∧
    ¬ (((r.identified f).refreshReports py f).1.runComplete py = some true ∧ f.trailingBytes ≠ 0)

theorem validateHeader_cases (r : RunIndex F) (f : Files) :
    (∃ e, r.validateHeader f = (r, some e)) ∨ r.validateHeader f = (r.identified f, none) := by
  unfold validateHeader
  split
  · exact .inl ⟨_, rfl⟩
  split
  · exact .inl ⟨_, rfl⟩
  split
  · exact .inl ⟨_, rfl⟩
  split
  · exact .inl ⟨_, rfl⟩
  · exact .inr rfl

theorem scan_idle (fuel : ℕ) (h : f.available ≤ r.scannedCount) : scan f fuel r = (r, none) := by
  cases fuel with
  | zero => rfl
  | succ fuel => rw [scan, if_neg (by omega)]

/-- The catalog with its new record count, which the scan starts from. -/
def counting (r : RunIndex F) (f : Files) : RunIndex F :=
  { r.identified f with recordCount := f.available }

theorem identified_eq_iff (r : RunIndex F) (f : Files) : r.identified f = r ↔ r.SameIdentity f := by
  constructor
  · exact fun h => ⟨congrArg runId h, congrArg streamId h⟩
  · rintro ⟨hrun, hstream⟩
    rw [identified, hrun, hstream]

theorem counting_eq (hidentity : r.SameIdentity f) (hcount : f.available = r.recordCount) :
    r.counting f = r := by
  rw [counting, (identified_eq_iff r f).mpr hidentity, hcount]

/-- Only the cache changes, and it depends on the cache before. -/
theorem cacheAll_counting (r : RunIndex F) (f : Files) (start : ℕ) (shots : List ShotRecord) :
    (r.counting f).cacheAll start shots = (r.cacheAll start shots).counting f := by
  unfold cacheAll
  generalize shots.zipIdx start = items
  induction items generalizing r with
  | nil => rfl
  | cons item items ih => exact ih (r.cacheRecord item.2 item.1)

theorem cacheAll_eq (h : (r.cacheAll b shots).cache = r.cache) : r.cacheAll b shots = r := by
  have hrest : ∀ (items : List (ShotRecord × ℕ)) (r : RunIndex F),
      items.foldl (fun r item => r.cacheRecord item.2 item.1) r =
        { r with cache := (items.foldl (fun r item => r.cacheRecord item.2 item.1) r).cache } := by
    intro items
    induction items with
    | nil => exact fun r => rfl
    | cons item items ih => exact fun r => (ih (r.cacheRecord item.2 item.1)).trans rfl
  have heq := hrest (shots.zipIdx b) r
  rw [show (shots.zipIdx b).foldl (fun r item => r.cacheRecord item.2 item.1) r =
    r.cacheAll b shots from rfl, h] at heq
  exact heq

/-- A scan with something to read leaves the catalog as it was before the call exactly when there
was nothing new and the first read is refused. -/
theorem scan_eq_iff (r : RunIndex F) (f : Files) (h : r.scannedCount < f.available) :
    (scan f f.available (r.counting f)).1 = r ↔
      r.SameIdentity f ∧ f.available = r.recordCount ∧ r.FirstKept f := by
  obtain ⟨fuel, hfuel⟩ := Nat.exists_eq_add_of_lt (Nat.zero_lt_of_lt h)
  rw [Nat.zero_add] at hfuel
  have hfirst := scan_first (r := r.counting f) fuel h
  rw [← hfuel] at hfirst
  have hreports := (scan_kept f f.available (r.counting f)).1
  have hcount : (scan f f.available (r.counting f)).1.recordCount = f.available :=
    (scan_kept f f.available (r.counting f)).2
  have hidentity : (scan f f.available (r.counting f)).1 = r →
      r.SameIdentity f ∧ f.available = r.recordCount := by
    intro heq
    rw [heq] at hreports hcount
    exact ⟨⟨hreports.runId.symm, hreports.streamId.symm⟩, hcount.symm⟩
  rcases hfirst with ⟨hrefused, -, hscan⟩ | ⟨htaken, hmoved⟩
  · replace hrefused : r.FirstRefused f := hrefused
    replace hscan : (scan f f.available (r.counting f)).1 =
        match f.decodeRange r.scannedCount (min f.available (r.scannedCount + scanBatch)) with
        | .error _ => r.counting f
        | .ok shots => (r.counting f).cacheAll r.scannedCount shots := hscan
    unfold FirstKept
    constructor
    · intro heq
      refine ⟨(hidentity heq).1, (hidentity heq).2, hrefused, fun shots hread => ?_⟩
      rw [hread] at hscan
      dsimp only at hscan
      rw [heq, cacheAll_counting] at hscan
      exact (congrArg cache hscan).symm
    · rintro ⟨hid, hsame, -, hcache⟩
      rw [hscan, counting_eq hid hsame]
      cases hread : f.decodeRange r.scannedCount (min f.available (r.scannedCount + scanBatch)) with
      | error e => rfl
      | ok shots => exact cacheAll_eq (hcache shots hread)
  · constructor
    · intro heq
      refine absurd ?_ hmoved.ne
      rw [heq]
      rfl
    · rintro ⟨-, -, hrefused, -⟩
      exact absurd (show (r.counting f).FirstRefused f from hrefused) htaken

/-- A scan that takes all there is to read moves the catalog. -/
theorem scan_moved (h : r.scannedCount < f.available) (hok : (scan f f.available r).2 = none) :
    Moved r (scan f f.available r).1 := by
  obtain ⟨fuel, hfuel⟩ := Nat.exists_eq_add_of_lt (Nat.zero_lt_of_lt h)
  rw [Nat.zero_add] at hfuel
  rw [hfuel] at hok ⊢
  rcases scan_first fuel h with ⟨-, hno, -⟩ | ⟨-, hmoved⟩
  · exact absurd hok hno
  · exact hmoved

/-- With nothing left to read the reports decide. -/
theorem reports_eq_iff (r : RunIndex F) (f : Files) (h : f.available ≤ r.scannedCount) :
    ((r.counting f).refreshReports py f).1 = r ↔ r.NothingTaken py f := by
  have hcount := (refreshReports_kept py (r.counting f) f).recordCount
  obtain ⟨hrun, hstream⟩ := refreshReports_identity py (r.counting f) f
  constructor
  · intro heq
    rw [heq] at hcount hrun hstream
    have hid : r.SameIdentity f := ⟨hrun.symm, hstream.symm⟩
    rw [counting_eq hid hcount.symm] at heq
    exact ⟨hid, hcount.symm, .inr ⟨h, (refreshReports_eq_iff py r f).mp heq⟩⟩
  · rintro ⟨hid, hsame, ⟨hlt, -⟩ | ⟨-, hreports⟩⟩
    · omega
    · rw [counting_eq hid hsame]
      exact (refreshReports_eq_iff py r f).mpr hreports

/-- An index file that is refused as a whole leaves the catalog as it was. -/
theorem refresh_refused (h : r.Refused f) : (r.refresh py f).1 = r := by
  unfold refresh
  by_cases hshort : f.index.length < qidxHeaderBytes
  · rw [if_pos hshort]
    split <;> rfl
  rw [if_neg hshort]
  rcases validateHeader_cases r f with ⟨e, hheader⟩ | hheader
  · rw [hheader]
  · rcases h with h | h | ⟨hshrank, hidentity⟩
    · exact absurd h hshort
    · exact absurd (congrArg Prod.snd hheader) h
    · rw [hheader]
      dsimp only
      rw [if_pos (show f.available < (r.identified f).recordCount from hshrank)]
      exact (identified_eq_iff r f).mpr hidentity

theorem header_of_not_refused (h : ¬ r.Refused f) :
    ¬ f.index.length < qidxHeaderBytes ∧ r.validateHeader f = (r.identified f, none) := by
  refine ⟨fun hshort => h (.inl hshort), ?_⟩
  rcases validateHeader_cases r f with ⟨e, hheader⟩ | hheader
  · refine absurd (.inr (.inl ?_)) h
    rw [hheader]
    exact Option.some_ne_none e
  · exact hheader

/-- Records that are gone are found out after the identity has been taken. -/
theorem refresh_shrank (hshort : ¬ f.index.length < qidxHeaderBytes)
    (hheader : r.validateHeader f = (r.identified f, none))
    (hshrank : f.available < r.recordCount) :
    r.refresh py f = (r.identified f, .error .shrank) := by
  unfold refresh
  rw [if_neg hshort, hheader]
  exact if_pos hshrank

/-- The call on an index file that it does not refuse. -/
theorem refresh_of_header (hshort : ¬ f.index.length < qidxHeaderBytes)
    (hheader : r.validateHeader f = (r.identified f, none))
    (hshrank : ¬ f.available < r.recordCount) :
    r.refresh py f =
      match scan f f.available (r.counting f) with
      | (r₁, some e) => (r₁, .error e)
      | (r₁, none) =>
        match r₁.refreshReports py f with
        | (r₁, .error e) => (r₁, .error e)
        | (r₁, .ok changedReports) =>
          if r₁.runComplete py = some true ∧ f.trailingBytes ≠ 0 then
            (r₁, .error .truncatedRecord)
          else (r₁, .ok (f.available ≠ r.recordCount || changedReports)) := by
  unfold refresh
  rw [if_neg hshort, hheader]
  dsimp only
  rw [if_neg (show ¬ f.available < (r.identified f).recordCount from hshrank)]
  rfl

/-- A scan that raises leaves the catalog as it was exactly when it has taken nothing. -/
theorem scan_eq_iff_of_raised {e : RunError} (h : (scan f f.available (r.counting f)).2 = some e) :
    (scan f f.available (r.counting f)).1 = r ↔ r.NothingTaken py f := by
  have hlt : r.scannedCount < f.available := by
    by_contra hno
    rw [scan_idle f.available (show f.available ≤ (r.counting f).scannedCount from
      Nat.le_of_not_lt hno)] at h
    cases h
  rw [scan_eq_iff r f hlt]
  constructor
  · rintro ⟨hidentity, hcount, hkept⟩
    exact ⟨hidentity, hcount, .inl ⟨hlt, hkept⟩⟩
  · rintro ⟨hidentity, hcount, ⟨-, hkept⟩ | ⟨hle, -⟩⟩
    · exact ⟨hidentity, hcount, hkept⟩
    · omega

/-- The reports change no counter, so what a scan has taken stays. -/
theorem reports_eq_iff_of_scanned (h : (scan f f.available (r.counting f)).2 = none) :
    ((scan f f.available (r.counting f)).1.refreshReports py f).1 = r ↔
      r.NothingTaken py f := by
  by_cases hlt : r.scannedCount < f.available
  · have hne : (scan f f.available (r.counting f)).1.previousShotId ≠ r.previousShotId :=
      (scan_moved (r := r.counting f) hlt h).ne
    refine iff_of_false (fun heq => hne ?_) ?_
    · rw [← (refreshReports_kept py _ f).previousShotId, heq]
    · rintro ⟨hidentity, hcount, ⟨-, hfirst⟩ | ⟨hle, -⟩⟩
      · exact hne (congrArg previousShotId
          ((scan_eq_iff r f hlt).mpr ⟨hidentity, hcount, hfirst⟩))
      · omega
  · have hle := Nat.le_of_not_lt hlt
    rw [scan_idle f.available (show f.available ≤ (r.counting f).scannedCount from hle)]
    exact reports_eq_iff py r f hle

/-- After a scan that raises nothing only the reports and a partial record can be wrong. -/
theorem sound_iff_of_scanned (hshrank : ¬ f.available < r.recordCount)
    (h : (scan f f.available (r.counting f)).2 = none) :
    r.Sound py f ↔
      (∃ changed,
        ((scan f f.available (r.counting f)).1.refreshReports py f).2 = .ok changed) ∧
      ¬ (((scan f f.available (r.counting f)).1.refreshReports py f).1.runComplete py =
        some true ∧ f.trailingBytes ≠ 0) := by
  have hreports : SameReports (r.identified f) (scan f f.available (r.counting f)).1 :=
    SameReports.trans (show SameReports (r.identified f) (r.counting f) from
      ⟨rfl, rfl, rfl, rfl, rfl, rfl⟩) (scan_kept ..).1
  obtain ⟨hresult, hloaded⟩ := refreshReports_congr py (f := f) hreports
  have hscan : r.Scannable f :=
    (scan_eq_none_iff f.available (r.counting f) (Nat.sub_le ..)).mp h
  unfold Sound
  rw [hresult, runComplete, runComplete, hloaded.manifest]
  exact ⟨fun hsound => hsound.2.2, fun hfiles => ⟨Nat.le_of_not_lt hshrank, hscan, hfiles⟩⟩

theorem scannable_of_sound (h : r.Sound py f) :
    (scan f f.available (r.counting f)).2 = none :=
  (scan_eq_none_iff f.available (r.counting f) (Nat.sub_le ..)).mpr h.2.1

end RunIndex

open RunIndex

/-- A refresh that raises leaves the catalog as it was, so that every later refresh is what it
would have been, exactly when the index file is refused as a whole, when nothing is taken, or when
there is nothing to raise. -/
theorem refresh_atomic {F : Type} (py : Python F) (r : RunIndex F) (f : Files) :
    ((∃ e, (r.refresh py f).2 = .error e) →
      (r.refresh py f).1 = r ∧
        ∀ later, (r.refresh py f).1.refresh py later = r.refresh py later) ↔
      r.Refused f ∨ r.NothingTaken py f ∨ r.Sound py f := by
  have hlater : ((∃ e, (r.refresh py f).2 = .error e) →
      (r.refresh py f).1 = r ∧
        ∀ later, (r.refresh py f).1.refresh py later = r.refresh py later) ↔
      ((∃ e, (r.refresh py f).2 = .error e) → (r.refresh py f).1 = r) :=
    forall_congr' fun _ => ⟨And.left, fun h => ⟨h, fun later => by rw [h]⟩⟩
  rw [hlater]
  by_cases hrefused : r.Refused f
  · exact ⟨fun _ => .inl hrefused, fun _ _ => refresh_refused py hrefused⟩
  obtain ⟨hshort, hheader⟩ := header_of_not_refused hrefused
  by_cases hshrank : f.available < r.recordCount
  · -- the identity has been taken already, and it is another one
    rw [refresh_shrank py hshort hheader hshrank]
    constructor
    · exact fun h => .inl (.inr (.inr ⟨hshrank, (identified_eq_iff r f).mp (h ⟨_, rfl⟩)⟩))
    · rintro (h | ⟨-, h, -⟩ | ⟨h, -⟩) -
      · exact absurd h hrefused
      · omega
      · omega
  rw [refresh_of_header py hshort hheader hshrank, or_iff_right hrefused]
  have hraised := fun e => scan_eq_iff_of_raised py (r := r) (f := f) (e := e)
  have hkept := reports_eq_iff_of_scanned py (r := r) (f := f)
  have hsound := sound_iff_of_scanned py hshrank
  have hscanned := scannable_of_sound py (r := r) (f := f)
  generalize scan f f.available (r.counting f) = result at hraised hkept hsound hscanned
  obtain ⟨r₁, e⟩ := result
  cases e with
  | some e =>
    -- the scan has raised
    rw [or_iff_left fun h => Option.some_ne_none e (hscanned h), ← hraised e rfl]
    exact ⟨fun h => h ⟨e, rfl⟩, fun h _ => h⟩
  | none =>
    rw [hsound rfl, ← hkept rfl]
    dsimp only
    generalize r₁.refreshReports py f = result
    obtain ⟨r₂, e⟩ := result
    cases e with
    | error e =>
      -- a report has raised
      constructor
      · exact fun h => .inl (h ⟨e, rfl⟩)
      · rintro (h | ⟨⟨changed, hok⟩, -⟩) -
        · exact h
        · cases hok
    | ok changedReports =>
      dsimp only
      split
      · next htruncated =>
        -- the run is complete and has a partial record
        constructor
        · exact fun h => .inl (h ⟨_, rfl⟩)
        · rintro (h | ⟨-, hno⟩) -
          · exact h
          · exact absurd htruncated hno
      · next htruncated =>
        refine ⟨fun _ => .inr ⟨⟨changedReports, rfl⟩, htruncated⟩, ?_⟩
        rintro - ⟨e, hno⟩
        cases hno

/-- The bytes of the record of a complete shot with one sample word at `offset`. -/
def completeBytes (shotId offset : ℕ) : Bytes :=
  putBE 8 shotId ++ putBE 4 1 ++ List.replicate 44 0 ++ putBE 8 offset ++ putBE 8 4 ++
    List.replicate 56 0

/-- Two complete shots, of which the sample file has room for the first `shots`. -/
def twoShots (shots : ℕ) : Files :=
  { index := putBE 4 qidxMagic ++ putBE 2 qidxVersion ++ putBE 2 qidxHeaderBytes ++
      putBE 2 qidxRecordBytes ++ List.replicate 6 0 ++ putBE 8 7 ++ putBE 4 1 ++
      List.replicate 4 0 ++ completeBytes 1 0 ++ completeBytes 2 4
    sampleFileBytes := 4 * shots
    runJson := none
    senderJson := none }

/-- A Python without reports to read. -/
def noReports : Python Unit :=
  { loads := fun _ => .error "", integer := fun _ => .error "", nonzero := fun _ => false }

/-- The samples of the second shot are missing at the first refresh. It raises and has counted the
first shot, and the refresh that finds the samples raises in its turn, where the one of a fresh
catalog succeeds. -/
theorem refresh_raised_twice :
    (RunIndex.refresh noReports {} (twoShots 1)).2 = .error (.exceedsSamples 2) ∧
    ¬ SameCatalog {} (RunIndex.refresh noReports {} (twoShots 1)).1 ∧
    (RunIndex.refresh noReports {} (twoShots 2)).2 = .ok true ∧
    ((RunIndex.refresh noReports {} (twoShots 1)).1.refresh noReports (twoShots 2)).2 =
      .error .shotIdOrder := by
  refine ⟨by decide +kernel, fun h => ?_, by decide +kernel, by decide +kernel⟩
  have hcount : (RunIndex.refresh noReports {} (twoShots 1)).1.recordCount = 2 := by
    decide +kernel
  rw [h.recordCount] at hcount
  cases hcount

end QCrate.Analyzer
