import QCrate.Analyzer.Bundle
import QCrate.Analyzer.Refresh

/-!
# A run that grows while it is watched

A catalog that has followed the files of a run holds what the bundle reads from them at the end.

* `totals` — the catalog that has counted a list of records.
* `scan_totals` — a scan adds the records it finds.
* `growth_agrees` — records, counts and health after the last refresh.
-/

namespace QCrate.Analyzer

open QCrate.Lib QCrate.DataPlane RunIndex

variable {F : Type} {r r' : RunIndex F} {f g : Files} {shot : ShotRecord}
  {shots more : List ShotRecord} {b : ℕ}

/-! ## Counting records -/

/-- `_accumulate` of a record that nothing is wrong with. -/
def RunIndex.take (r : RunIndex F) (shot : ShotRecord) : RunIndex F :=
  let r := r.countRecord shot
  if shot.complete then
    { r with
      previousSampleEnd := shot.sampleOffset + shot.sampleBytes
      sampleBytes := r.sampleBytes + shot.sampleBytes
      completeCount := r.completeCount + 1 }
  else { r with incompleteCount := r.incompleteCount + 1 }

/-- The catalog that has counted the records. -/
def totals (shots : List ShotRecord) : RunIndex F := shots.foldl RunIndex.take {}

theorem take_of_accumulate (h : (r.accumulate shot b).2 = none) :
    (r.accumulate shot b).1 = r.take shot := by
  unfold accumulate countSamples at h ⊢
  unfold RunIndex.take
  split at h
  · cases h
  · next hrepeats =>
    rw [if_neg hrepeats]
    split at h
    · next hcomplete =>
      simp only [hcomplete, if_true]
      split at h
      · cases h
      · next hexceeds =>
        split at h
        · cases h
        · next hoverlaps => rw [if_neg hexceeds, if_neg hoverlaps]
    · next hcomplete => simp only [hcomplete, if_false, Bool.false_eq_true]

/-- Records that follow the catalog are counted. -/
theorem accumulateAll_take (h : (accumulateAll b r shots).2 = none) :
    (accumulateAll b r shots).1 = shots.foldl RunIndex.take r := by
  induction shots generalizing r with
  | nil => rfl
  | cons shot shots ih =>
    have htake : (r.accumulate shot b).2 = none → (r.accumulate shot b).1 = r.take shot :=
      take_of_accumulate
    unfold accumulateAll at h ⊢
    generalize r.accumulate shot b = result at h htake
    obtain ⟨r₁, e⟩ := result
    cases e with
    | some e => cases h
    | none =>
      rw [List.foldl_cons, ← htake rfl]
      exact ih h

theorem take_congr (h : SameCatalog r r') (shot : ShotRecord) :
    SameCatalog (r.take shot) (r'.take shot) := by
  unfold RunIndex.take countRecord
  dsimp only
  split
  · constructor <;> simp only [h.recordCount, h.scannedCount, h.completeCount, h.incompleteCount,
      h.previousShotId, h.firstReceiveNs, h.lastReceiveNs, h.skippedShotIds, h.sampleBytes,
      h.datagrams, h.duplicatePackets, h.reorderedPackets, h.missingPackets]
  · constructor <;> simp only [h.recordCount, h.scannedCount, h.completeCount, h.incompleteCount,
      h.previousShotId, h.previousSampleEnd, h.firstReceiveNs, h.lastReceiveNs, h.skippedShotIds,
      h.sampleBytes, h.datagrams, h.duplicatePackets, h.reorderedPackets, h.missingPackets]

theorem foldl_take_congr (h : SameCatalog r r') (shots : List ShotRecord) :
    SameCatalog (shots.foldl RunIndex.take r) (shots.foldl RunIndex.take r') := by
  induction shots generalizing r r' with
  | nil => exact h
  | cons shot shots ih => exact ih (take_congr h shot)

/-- The catalog with the number of its records. -/
def RunIndex.upTo (r : RunIndex F) (n : ℕ) : RunIndex F :=
  { r with recordCount := n, scannedCount := n }

theorem take_upTo (r : RunIndex F) (n : ℕ) (shot : ShotRecord) :
    (r.upTo n).take shot = (r.take shot).upTo n := by
  unfold RunIndex.take RunIndex.upTo countRecord
  dsimp only
  split <;> rfl

theorem foldl_take_upTo (r : RunIndex F) (n : ℕ) (shots : List ShotRecord) :
    shots.foldl RunIndex.take (r.upTo n) = (shots.foldl RunIndex.take r).upTo n := by
  induction shots generalizing r with
  | nil => rfl
  | cons shot shots ih => rw [List.foldl_cons, List.foldl_cons, take_upTo, ih]

theorem foldl_take_scanned (r : RunIndex F) (n : ℕ) (shots : List ShotRecord) :
    shots.foldl RunIndex.take { r with scannedCount := n } =
      { shots.foldl RunIndex.take r with scannedCount := n } := by
  induction shots generalizing r with
  | nil => rfl
  | cons shot shots ih =>
    have hone : RunIndex.take { r with scannedCount := n } shot =
        { r.take shot with scannedCount := n } := by
      unfold RunIndex.take countRecord
      dsimp only
      split <;> rfl
    rw [List.foldl_cons, List.foldl_cons, hone, ih]

theorem decodeRange_empty {start stop : ℕ} (h : stop ≤ start)
    (hread : f.decodeRange start stop = .ok shots) : shots = [] := by
  unfold Files.decodeRange at hread
  rw [Nat.sub_eq_zero_of_le h] at hread
  cases hread
  rfl

/-- The scan counts what it finds. -/
theorem scan_totals (fuel : ℕ) (r : RunIndex F) (hfuel : f.available - r.scannedCount ≤ fuel)
    (hle : r.scannedCount ≤ f.available)
    (hread : f.decodeRange r.scannedCount f.available = .ok shots)
    (hok : (scan f fuel r).2 = none) :
    SameCatalog { shots.foldl RunIndex.take r with scannedCount := f.available }
      (scan f fuel r).1 := by
  induction fuel generalizing r shots with
  | zero =>
    cases decodeRange_empty (Nat.sub_eq_zero_iff_le.mp (Nat.le_zero.mp hfuel)) hread
    have hdone : f.available = r.scannedCount := by omega
    exact ⟨rfl, hdone.symm, rfl, rfl, rfl, rfl, rfl, rfl, rfl, rfl, rfl, rfl, rfl, rfl⟩
  | succ fuel ih =>
    unfold scan at hok ⊢
    split at hok
    · next hlt =>
      have hle₁ : r.scannedCount ≤ min f.available (r.scannedCount + scanBatch) := by omega
      have hle₂ : min f.available (r.scannedCount + scanBatch) ≤ f.available := by omega
      have hless : f.available - min f.available (r.scannedCount + scanBatch) ≤ fuel := by
        unfold scanBatch
        omega
      obtain ⟨first, more, hfirst, hmore, rfl⟩ := (decodeRange_append hle₁ hle₂).mp hread
      rw [if_pos hlt]
      dsimp only at hok ⊢
      rw [hfirst] at hok ⊢
      dsimp only at hok ⊢
      have hcache := (cacheAll_kept r r.scannedCount first).1
      have htake : (accumulateAll f.sampleFileBytes (r.cacheAll r.scannedCount first) first).2 =
            none → (accumulateAll f.sampleFileBytes (r.cacheAll r.scannedCount first) first).1 =
          first.foldl RunIndex.take (r.cacheAll r.scannedCount first) := accumulateAll_take
      generalize accumulateAll f.sampleFileBytes (r.cacheAll r.scannedCount first) first = result
        at hok htake
      obtain ⟨r₁, e⟩ := result
      cases e with
      | some e => cases hok
      | none =>
        -- the rest of the scan starts from the catalog that has counted the first read
        have hrest := ih { r₁ with scannedCount := min f.available (r.scannedCount + scanBatch) }
          hless hle₂ hmore hok
        have hfold : SameCatalog (first.foldl RunIndex.take r) r₁ := by
          rw [show r₁ = _ from htake rfl]
          exact foldl_take_congr hcache first
        have hall := foldl_take_congr hfold more
        rw [List.foldl_append]
        refine SameCatalog.trans ?_ hrest
        rw [foldl_take_scanned r₁ (min f.available (r.scannedCount + scanBatch)) more]
        exact { hall with scannedCount := rfl }
    · next hge =>
      cases decodeRange_empty (Nat.not_lt.mp hge) hread
      have hdone : f.available = r.scannedCount := by omega
      rw [if_neg hge]
      exact ⟨rfl, hdone.symm, rfl, rfl, rfl, rfl, rfl, rfl, rfl, rfl, rfl, rfl, rfl, rfl⟩

/-! ## What the bundle counts -/

/-- The shot IDs left out after `previous`. -/
def skippedFrom : Option ℕ → List ShotRecord → ℕ
  | _, [] => 0
  | previous, shot :: shots => skippedBefore previous shot + skippedFrom (some shot.shotId) shots

/-- The first receive time that is not zero. -/
def firstKnown (shots : List ShotRecord) : ℕ :=
  ((shots.map (·.firstReceiveNs)).find? (· ≠ 0)).getD 0

/-- The fields of a catalog after more records. -/
theorem foldl_take_fields (r : RunIndex F) (shots : List ShotRecord) :
    (shots.foldl RunIndex.take r).completeCount =
      r.completeCount + (shots.filter (·.complete)).length ∧
    (shots.foldl RunIndex.take r).incompleteCount =
      r.incompleteCount + (shots.filter (!·.complete)).length ∧
    (shots.foldl RunIndex.take r).skippedShotIds =
      r.skippedShotIds + skippedFrom r.previousShotId shots ∧
    (shots.foldl RunIndex.take r).sampleBytes =
      r.sampleBytes + ((shots.filter (·.complete)).map (·.sampleBytes)).sum ∧
    (shots.foldl RunIndex.take r).datagrams = r.datagrams + (shots.map (·.datagrams)).sum ∧
    (shots.foldl RunIndex.take r).duplicatePackets =
      r.duplicatePackets + (shots.map (·.duplicatePackets)).sum ∧
    (shots.foldl RunIndex.take r).reorderedPackets =
      r.reorderedPackets + (shots.map (·.reorderedPackets)).sum ∧
    (shots.foldl RunIndex.take r).missingPackets =
      r.missingPackets + (shots.map (·.missingPackets)).sum := by
  induction shots generalizing r with
  | nil => simp [skippedFrom]
  | cons shot shots ih =>
    obtain ⟨h₁, h₂, h₃, h₄, h₅, h₆, h₇, h₈⟩ := ih (r.take shot)
    rw [List.foldl_cons, h₁, h₂, h₃, h₄, h₅, h₆, h₇, h₈]
    unfold RunIndex.take countRecord
    dsimp only
    cases hcomplete : shot.complete with
    | true =>
      simp [hcomplete, skippedFrom]
      omega
    | false =>
      simp [hcomplete, skippedFrom]
      omega

theorem foldl_take_lastReceive (r : RunIndex F) (shots : List ShotRecord) :
    (shots.foldl RunIndex.take r).lastReceiveNs =
      (shots.map (·.lastReceiveNs)).foldl max r.lastReceiveNs := by
  induction shots generalizing r with
  | nil => rfl
  | cons shot shots ih =>
    rw [List.foldl_cons, ih, List.map_cons, List.foldl_cons]
    unfold RunIndex.take countRecord
    dsimp only
    split <;> rfl

theorem foldl_take_firstReceive (r : RunIndex F) (shots : List ShotRecord) :
    (shots.foldl RunIndex.take r).firstReceiveNs =
      if r.firstReceiveNs = 0 then firstKnown shots else r.firstReceiveNs := by
  induction shots generalizing r with
  | nil => simp [firstKnown]
  | cons shot shots ih =>
    have hfirst : (r.take shot).firstReceiveNs =
        if r.firstReceiveNs = 0 then shot.firstReceiveNs else r.firstReceiveNs := by
      unfold RunIndex.take countRecord
      dsimp only
      split <;> rfl
    rw [List.foldl_cons, ih, hfirst]
    by_cases hr : r.firstReceiveNs = 0
    · rw [if_pos hr, if_pos hr]
      by_cases hs : shot.firstReceiveNs = 0
      · simp [firstKnown, hs]
      · simp [firstKnown, hs]
    · rw [if_neg hr, if_neg hr, if_neg hr]

theorem skippedFrom_eq (previous : ShotRecord) (shots : List ShotRecord) :
    skippedFrom (some previous.shotId) shots =
      (((previous :: shots).zip shots).map fun pair => pair.2.shotId - pair.1.shotId - 1).sum := by
  induction shots generalizing previous with
  | nil => rfl
  | cons shot shots ih =>
    rw [skippedFrom, ih, List.zip_cons_cons, List.map_cons, List.sum_cons]
    rfl

/-- The sums of the bundle are the totals of its records. -/
theorem counts_totals (bundle : RunBundle F) :
    (totals bundle.shots : RunIndex F).counts = bundle.counts := by
  obtain ⟨h₁, h₂, h₃, h₄, h₅, h₆, h₇, h₈⟩ := foldl_take_fields ({} : RunIndex F) bundle.shots
  unfold RunIndex.counts RunBundle.counts totals
  rw [h₁, h₂, h₃, h₄, h₅, h₆, h₇, h₈]
  have hskip : skippedFrom none bundle.shots =
      ((bundle.shots.zip bundle.shots.tail).map
        fun pair => pair.2.shotId - pair.1.shotId - 1).sum := by
    cases bundle.shots with
    | nil => rfl
    | cons shot shots => exact (Nat.zero_add _).trans (skippedFrom_eq shot shots)
  simp only [Nat.zero_add, hskip]
  rfl

theorem lastReceive_totals (bundle : RunBundle F) :
    (totals bundle.shots : RunIndex F).lastReceiveNs = bundle.lastReceive := by
  unfold totals RunBundle.lastReceive
  rw [foldl_take_lastReceive]
  exact List.foldl_max.trans (Nat.zero_max _)

theorem firstReceive_totals (shots : List ShotRecord) :
    (totals shots : RunIndex F).firstReceiveNs = firstKnown shots := by
  unfold totals
  rw [foldl_take_firstReceive, if_pos rfl]

/-! ## Growing files -/

/-- The append-only files between an observation and a later one. -/
structure Grows (f g : Files) : Prop where
  index : f.index <+: g.index
  samples : f.sampleFileBytes ≤ g.sampleFileBytes

/-- The samples of every complete record are in the sample file. -/
def SamplesFirst (f : Files) : Prop :=
  ∀ i < f.available, ∀ shot, ShotRecord.decode (f.recordBytes i) = .ok shot →
    shot.complete = true → shot.sampleOffset + shot.sampleBytes ≤ f.sampleFileBytes

/-- A report that is there with the signature of the last one is the last one. -/
def SameFile (file last : Option ReportFile) : Prop :=
  ∀ a b, file = some a → last = some b → a.signature = b.signature → a.content = b.content

/-- The catalog after a refresh at each of the observations, whether it has raised or not. -/
def observe (py : Python F) (fs : List Files) : RunIndex F :=
  fs.foldl (fun r f => (r.refresh py f).1) {}

theorem Grows.available_le (h : Grows f g) : f.available ≤ g.available := by
  unfold Files.available
  exact Nat.div_le_div_right (Nat.sub_le_sub_right h.index.length_le _)

/-- A record that is there stays. -/
theorem Grows.recordBytes (h : Grows f g) {i : ℕ} (hi : i < f.available) :
    g.recordBytes i = f.recordBytes i := by
  obtain ⟨tail, htail⟩ := h.index
  have hin : qidxHeaderBytes + i * qidxRecordBytes + qidxRecordBytes ≤ f.index.length := by
    unfold Files.available qidxRecordBytes at hi
    unfold qidxRecordBytes
    have := Nat.div_mul_le_self (f.index.length - qidxHeaderBytes) 128
    omega
  unfold Files.recordBytes
  rw [← htail, List.drop_append_of_le_length (by omega), List.take_append_of_le_length]
  rw [List.length_drop]
  omega

theorem Grows.decodeRange (h : Grows f g) {start stop : ℕ} (hstop : stop ≤ f.available) :
    g.decodeRange start stop = f.decodeRange start stop := by
  have hcongr : ∀ l : List ℕ, (∀ i ∈ l, i < f.available) →
      (l.mapM fun i => ShotRecord.decode (g.recordBytes i)) =
        l.mapM fun i => ShotRecord.decode (f.recordBytes i) := by
    intro l hl
    induction l with
    | nil => rfl
    | cons i l ih =>
      rw [List.mapM_cons, List.mapM_cons, h.recordBytes (hl i List.mem_cons_self),
        ih fun j hj => hl j (List.mem_cons_of_mem _ hj)]
  apply hcongr
  intro i hi
  rw [List.mem_range'_1] at hi
  omega

theorem Grows.readBE (h : Grows f g) (hlen : qidxHeaderBytes ≤ f.index.length) {w offset : ℕ}
    (hin : offset + w ≤ qidxHeaderBytes) : readBE w g.index offset = readBE w f.index offset := by
  obtain ⟨tail, htail⟩ := h.index
  unfold Lib.readBE
  rw [← htail, List.drop_append_of_le_length (by omega), List.take_append_of_le_length]
  rw [List.length_drop]
  omega

theorem mem_decodeRange {start stop : ℕ} (h : f.decodeRange start stop = .ok shots) :
    shot ∈ shots ↔ ∃ i, start ≤ i ∧ i < stop ∧ ShotRecord.decode (f.recordBytes i) = .ok shot := by
  have hlist : ∀ (l : List ℕ) (shots : List ShotRecord),
      (l.mapM fun i => ShotRecord.decode (f.recordBytes i)) = .ok shots →
        (shot ∈ shots ↔ ∃ i ∈ l, ShotRecord.decode (f.recordBytes i) = .ok shot) := by
    intro l
    induction l with
    | nil =>
      intro shots h
      cases h
      simp
    | cons i l ih =>
      intro shots h
      rw [List.mapM_cons] at h
      cases hfirst : ShotRecord.decode (f.recordBytes i) with
      | error e =>
        rw [hfirst] at h
        cases h
      | ok first =>
        rw [hfirst] at h
        cases hrest : l.mapM fun i => ShotRecord.decode (f.recordBytes i) with
        | error e =>
          rw [hrest] at h
          cases h
        | ok rest =>
          rw [hrest] at h
          cases h
          rw [List.mem_cons, ih rest hrest]
          simp [hfirst, eq_comm]
  rw [hlist _ _ h]
  constructor
  · rintro ⟨i, hi, hshot⟩
    rw [List.mem_range'_1] at hi
    exact ⟨i, hi.1, by omega, hshot⟩
  · rintro ⟨i, hi, hlt, hshot⟩
    exact ⟨i, List.mem_range'_1.mpr ⟨hi, by omega⟩, hshot⟩

/-! ## Records that follow -/

theorem follows_of_append {previous : Option ℕ} {last : ℕ}
    (h : Follows b previous last (shots ++ more)) : Follows b previous last shots := by
  induction shots generalizing previous last with
  | nil => trivial
  | cons shot shots ih => exact ⟨h.1, h.2.1, ih h.2.2⟩

theorem follows_samples {previous : Option ℕ} {last b' : ℕ} (h : Follows b previous last shots)
    (hsamples : ∀ shot ∈ shots, shot.complete = true →
      shot.sampleOffset + shot.sampleBytes ≤ b') : Follows b' previous last shots := by
  induction shots generalizing previous last with
  | nil => trivial
  | cons shot shots ih =>
    refine ⟨h.1, fun hcomplete => ⟨hsamples shot List.mem_cons_self hcomplete, (h.2.1 hcomplete).2⟩,
      ih h.2.2 fun shot' hmem => hsamples shot' (List.mem_cons_of_mem _ hmem)⟩

theorem follows_mem {previous : Option ℕ} {last : ℕ} (h : Follows b previous last shots) :
    ∀ shot ∈ shots, shot.complete = true → shot.sampleOffset + shot.sampleBytes ≤ b := by
  induction shots generalizing previous last with
  | nil =>
    intro shot hmem
    cases hmem
  | cons shot shots ih =>
    intro shot' hmem hcomplete
    rcases List.mem_cons.mp hmem with rfl | hmem
    · exact (h.2.1 hcomplete).1
    · exact ih h.2.2 shot' hmem hcomplete

/-- The tests of `open` are those of the catalog. -/
theorem checkShots_iff {previous : Option ℕ} {last : ℕ} :
    checkShots b previous last shots = .ok () ↔ Follows b previous last shots := by
  induction shots generalizing previous last with
  | nil => exact ⟨fun _ => trivial, fun _ => rfl⟩
  | cons shot shots ih =>
    unfold checkShots Follows
    cases hrepeats : previous.any (shot.shotId ≤ ·) with
    | true => simp
    | false =>
      cases hcomplete : shot.complete with
      | false => simp [ih]
      | true =>
        simp only [Bool.false_eq_true, if_false, Bool.not_true, true_and, forall_const, if_true]
        by_cases hexceeds : b < shot.sampleOffset + shot.sampleBytes
        · rw [if_pos hexceeds]
          constructor
          · intro hno
            cases hno
          · intro hno
            omega
        · rw [if_neg hexceeds]
          by_cases hoverlaps : shot.sampleOffset < last
          · rw [if_pos hoverlaps]
            constructor
            · intro hno
              cases hno
            · intro hno
              omega
          · rw [if_neg hoverlaps, ih]
            exact ⟨fun h => ⟨⟨by omega, by omega⟩, h⟩, And.right⟩

/-- What follows the catalog that has counted the records before. -/
theorem follows_totals (h : Follows b none 0 (shots ++ more)) :
    Follows b (totals shots : RunIndex F).previousShotId
      (totals shots : RunIndex F).previousSampleEnd more := by
  obtain ⟨hok, hmore⟩ := (accumulateAll_follows b ({} : RunIndex F) shots more).mp h
  rw [accumulateAll_take hok] at hmore
  exact hmore

/-! ## Watching the reports -/

section Reports

variable (py : Python F)

/-- The catalog holds no report, or one of the files it has seen. -/
def Loaded (g : Files) (name expectedFormat : String) (seen : List (Option ReportFile))
    (signature : Option (ℕ × ℕ × ℕ)) (report : Option (Report F)) : Prop :=
  (signature = none ∧ report = none) ∨
    ∃ file rep, some file ∈ seen ∧ signature = some file.signature ∧ report = some rep ∧
      loadJsonReport py name expectedFormat g.runId g.streamId file.content = .ok rep

variable {py} {name expectedFormat : String} {seen : List (Option ReportFile)}
  {signature : Option (ℕ × ℕ × ℕ)} {report : Option (Report F)}

theorem Loaded.mono (h : Loaded py g name expectedFormat seen signature report)
    (file : Option ReportFile) :
    Loaded py g name expectedFormat (seen ++ [file]) signature report := by
  rcases h with h | ⟨a, rep, hseen, hrest⟩
  · exact .inl h
  · exact .inr ⟨a, rep, List.mem_append_left _ hseen, hrest⟩

/-- A file that has been read is held. -/
theorem loaded_of_load (hrun : r.runId = g.runId) (hstream : r.streamId = g.streamId)
    {file : Option ReportFile} (h : r.loadReport py name expectedFormat file = .ok report) :
    Loaded py g name expectedFormat (seen ++ [file]) (file.map (·.signature)) report := by
  unfold loadReport at h
  cases file with
  | none =>
    cases h
    exact .inl ⟨rfl, rfl⟩
  | some file =>
    rw [hrun, hstream] at h
    dsimp only at h
    cases hload : loadJsonReport py name expectedFormat g.runId g.streamId file.content with
    | error e =>
      rw [hload] at h
      cases h
    | ok rep =>
      rw [hload] at h
      cases h
      exact .inr ⟨file, rep, List.mem_append_right _ (List.mem_singleton_self _), rfl, rfl, hload⟩

theorem refreshRun_loaded (hrun : r.runId = g.runId) (hstream : r.streamId = g.streamId)
    (h : Loaded py g "run.json" "qcrate-run-v1" seen r.runSignature r.manifest) :
    Loaded py g "run.json" "qcrate-run-v1" (seen ++ [f.runJson]) (r.refreshRun py f).1.runSignature
        (r.refreshRun py f).1.manifest ∧
      (r.refreshRun py f).1.runId = r.runId ∧ (r.refreshRun py f).1.streamId = r.streamId ∧
      (r.refreshRun py f).1.senderSignature = r.senderSignature ∧
      (r.refreshRun py f).1.senderReport = r.senderReport := by
  unfold refreshRun
  dsimp only
  split
  · exact ⟨h.mono _, rfl, rfl, rfl, rfl⟩
  · split
    · exact ⟨h.mono _, rfl, rfl, rfl, rfl⟩
    · next hload => exact ⟨loaded_of_load hrun hstream hload, rfl, rfl, rfl, rfl⟩

theorem refreshSender_loaded (hrun : r.runId = g.runId) (hstream : r.streamId = g.streamId)
    (h : Loaded py g "sender.json" "qcrate-sender-report-v1" seen r.senderSignature
      r.senderReport) :
    Loaded py g "sender.json" "qcrate-sender-report-v1" (seen ++ [f.senderJson])
        (r.refreshSender py f).1.senderSignature (r.refreshSender py f).1.senderReport ∧
      (r.refreshSender py f).1.runId = r.runId ∧ (r.refreshSender py f).1.streamId = r.streamId ∧
      (r.refreshSender py f).1.runSignature = r.runSignature ∧
      (r.refreshSender py f).1.manifest = r.manifest := by
  unfold refreshSender
  dsimp only
  split
  · exact ⟨h.mono _, rfl, rfl, rfl, rfl⟩
  · split
    · exact ⟨h.mono _, rfl, rfl, rfl, rfl⟩
    · next hload => exact ⟨loaded_of_load hrun hstream hload, rfl, rfl, rfl, rfl⟩

/-- A held report whose file has the signature of the last one is the last report. -/
theorem loaded_last {last : Option ReportFile}
    (h : Loaded py g name expectedFormat seen (last.map (·.signature)) report)
    (hsame : ∀ file ∈ seen, SameFile file last) {final : Option (Report F)}
    (hfinal : loadIfExists py name expectedFormat g.runId g.streamId last = .ok final) :
    report = final := by
  unfold loadIfExists at hfinal
  rcases h with ⟨hsignature, rfl⟩ | ⟨file, rep, hseen, hsignature, rfl, hload⟩
  · cases last with
    | none =>
      cases hfinal
      rfl
    | some last => cases hsignature
  · cases last with
    | none => cases hsignature
    | some last =>
      have hcontent := hsame _ hseen file last rfl rfl (Option.some.inj hsignature).symm
      dsimp only at hfinal
      rw [← hcontent, hload] at hfinal
      cases hfinal
      rfl

end Reports

/-! ## Watching the run -/

/-- The catalog follows the files that end as `g`, having seen `fs`. -/
structure Watched (py : Python F) (g : Files) (fs : List Files) (r : RunIndex F) : Prop where
  identity : r.runId = 0 ∨ (r.runId = g.runId ∧ r.streamId = g.streamId)
  unread : r.runId = 0 → r.manifest = none ∧ r.senderReport = none
  records : ∃ shots, g.decodeRange 0 r.recordCount = .ok shots ∧
    SameCatalog ((totals shots).upTo r.recordCount) r
  manifest : Loaded py g "run.json" "qcrate-run-v1" (fs.map (·.runJson)) r.runSignature r.manifest
  senderReport : Loaded py g "sender.json" "qcrate-sender-report-v1" (fs.map (·.senderJson))
    r.senderSignature r.senderReport

/-- The header of the index file is one the analyzer reads. -/
def HeaderReads (g : Files) : Prop :=
  readBE 4 g.index 0 = qidxMagic ∧ readBE 2 g.index 4 = qidxVersion ∧
    readBE 2 g.index 6 = qidxHeaderBytes ∧ readBE 2 g.index 8 = qidxRecordBytes ∧
    readBE 6 g.index 10 = 0 ∧ readBE 4 g.index 28 = 0

/-- The records of the last files decode and follow each other. -/
def RecordsRead (g : Files) (shots : List ShotRecord) : Prop :=
  g.decodeRange 0 g.available = .ok shots ∧ Follows g.sampleFileBytes none 0 shots

theorem validateHeader_grows (h : Grows f g) (hlen : qidxHeaderBytes ≤ f.index.length)
    (hheader : HeaderReads g) (hid : r.runId = 0 ∨ (r.runId = g.runId ∧ r.streamId = g.streamId)) :
    r.validateHeader f = (r.identified f, none) ∧ f.runId = g.runId ∧ f.streamId = g.streamId := by
  obtain ⟨h₁, h₂, h₃, h₄, h₅, h₆⟩ := hheader
  have hrun : f.runId = g.runId := (h.readBE hlen (by decide)).symm
  have hstream : f.streamId = g.streamId := (h.readBE hlen (by decide)).symm
  rw [h.readBE hlen (by decide)] at h₁ h₂ h₃ h₄ h₅ h₆
  refine ⟨?_, hrun, hstream⟩
  unfold validateHeader
  rw [if_neg (by rw [h₁, h₂]; simp), if_neg (by rw [h₃, h₄]; simp),
    if_neg (by rw [h₅, h₆]; simp), if_neg]
  · rfl
  · rintro ⟨hne, hno⟩
    rcases hid with hzero | ⟨hid, hid'⟩
    · exact hne hzero
    · rw [hrun, hstream, hid, hid'] at hno
      rcases hno with hno | hno
      · exact hno rfl
      · exact hno rfl

/-- The scan of files that have grown adds their records. -/
theorem scan_grows {all : List ShotRecord} (h : Grows f g) (hsamples : SamplesFirst f)
    (hread : RecordsRead g all) (hcount : r.recordCount ≤ f.available)
    (hr : ∃ shots, g.decodeRange 0 r.recordCount = .ok shots ∧
      SameCatalog ((totals shots).upTo r.recordCount) r) :
    (scan f f.available (r.counting f)).2 = none ∧
    ∃ shots, g.decodeRange 0 f.available = .ok shots ∧
      SameCatalog ((totals shots).upTo f.available) (scan f f.available (r.counting f)).1 := by
  obtain ⟨shots, hshots, hsame⟩ := hr
  obtain ⟨hall, hfollows⟩ := hread
  have hscanned : r.scannedCount = r.recordCount := hsame.scannedCount
  -- the records that are counted, those that are new, and those that come later
  obtain ⟨counted, rest, hcounted, hrest, rfl⟩ :=
    (decodeRange_append (Nat.zero_le r.recordCount) (hcount.trans h.available_le)).mp hall
  obtain ⟨new, later, hnew, -, rfl⟩ := (decodeRange_append hcount h.available_le).mp hrest
  rw [hshots] at hcounted
  cases hcounted
  have hdecode : f.decodeRange (r.counting f).scannedCount f.available = .ok new := by
    rw [← h.decodeRange le_rfl, show (r.counting f).scannedCount = r.recordCount from hscanned]
    exact hnew
  have hnewFollows : Follows f.sampleFileBytes (r.counting f).previousShotId
      (r.counting f).previousSampleEnd new := by
    rw [show (r.counting f).previousShotId = _ from hsame.previousShotId,
      show (r.counting f).previousSampleEnd = _ from hsame.previousSampleEnd]
    apply follows_samples (follows_of_append (follows_totals hfollows))
    intro shot hmem hcomplete
    obtain ⟨i, -, hi, hshot⟩ := (mem_decodeRange hdecode).mp hmem
    exact hsamples i hi shot hshot hcomplete
  have hok := (scan_eq_none_iff f.available (r.counting f) (Nat.sub_le ..)).mpr
    ⟨new, hdecode, hnewFollows⟩
  refine ⟨hok, shots ++ new, ?_, ?_⟩
  · exact (decodeRange_append (Nat.zero_le _) hcount).mpr ⟨shots, new, hshots, hnew, rfl⟩
  · have htotals := scan_totals f.available (r.counting f) (Nat.sub_le ..)
      (by rw [show (r.counting f).scannedCount = r.recordCount from hscanned]; exact hcount)
      hdecode hok
    refine SameCatalog.trans ?_ htotals
    have hstart : SameCatalog
        { (totals shots : RunIndex F).upTo f.available with scannedCount := r.recordCount }
        (r.counting f) :=
      { hsame with recordCount := rfl }
    have hfold := foldl_take_congr hstart new
    rw [foldl_take_scanned ((totals shots).upTo f.available) r.recordCount new,
      foldl_take_upTo] at hfold
    have hsplit : (totals (shots ++ new) : RunIndex F) = new.foldl RunIndex.take (totals shots) :=
      List.foldl_append ..
    rw [hsplit]
    exact { hfold with scannedCount := rfl }

section Watching

variable {py : Python F} {fs : List Files}

/-- The reports of a catalog with the identity of the run. -/
theorem refreshReports_watched (hrun : r.runId = g.runId) (hstream : r.streamId = g.streamId)
    (hmanifest : Loaded py g "run.json" "qcrate-run-v1" (fs.map (·.runJson)) r.runSignature
      r.manifest)
    (hsender : Loaded py g "sender.json" "qcrate-sender-report-v1" (fs.map (·.senderJson))
      r.senderSignature r.senderReport) :
    (r.refreshReports py f).1.runId = g.runId ∧ (r.refreshReports py f).1.streamId = g.streamId ∧
    Loaded py g "run.json" "qcrate-run-v1" ((fs ++ [f]).map (·.runJson))
      (r.refreshReports py f).1.runSignature (r.refreshReports py f).1.manifest ∧
    Loaded py g "sender.json" "qcrate-sender-report-v1" ((fs ++ [f]).map (·.senderJson))
      (r.refreshReports py f).1.senderSignature (r.refreshReports py f).1.senderReport := by
  rw [List.map_append, List.map_append, List.map_singleton, List.map_singleton]
  unfold refreshReports
  split
  · exact ⟨hrun, hstream, hmanifest.mono _, hsender.mono _⟩
  · obtain ⟨h₁, hid, hid', hsig, hrep⟩ := refreshRun_loaded (f := f) hrun hstream hmanifest
    generalize r.refreshRun py f = result at h₁ hid hid' hsig hrep
    obtain ⟨r₁, e⟩ := result
    dsimp only at h₁ hid hid' hsig hrep
    rw [← hsig, ← hrep] at hsender
    cases e with
    | error e => exact ⟨hid.trans hrun, hid'.trans hstream, h₁, hsender.mono _⟩
    | ok changedRun =>
      obtain ⟨h₂, hid₂, hid₂', hsig₂, hrep₂⟩ :=
        refreshSender_loaded (f := f) (hid.trans hrun) (hid'.trans hstream) hsender
      dsimp only
      generalize r₁.refreshSender py f = result at h₂ hid₂ hid₂' hsig₂ hrep₂
      obtain ⟨r₂, e⟩ := result
      dsimp only at h₂ hid₂ hid₂' hsig₂ hrep₂
      rw [← hsig₂, ← hrep₂] at h₁
      have hend := And.intro (hid₂.trans (hid.trans hrun))
        (And.intro (hid₂'.trans (hid'.trans hstream)) (And.intro h₁ h₂))
      cases e with
      | error e => exact hend
      | ok changedSender => exact hend

/-- The result of a refresh whose scan raises nothing is what its reports leave. -/
theorem refresh_fst (hshort : ¬ f.index.length < qidxHeaderBytes)
    (hheader : r.validateHeader f = (r.identified f, none))
    (hshrank : ¬ f.available < r.recordCount)
    (hok : (scan f f.available (r.counting f)).2 = none) :
    (r.refresh py f).1 = ((scan f f.available (r.counting f)).1.refreshReports py f).1 := by
  rw [refresh_of_header py hshort hheader hshrank]
  generalize scan f f.available (r.counting f) = result at hok
  obtain ⟨r₁, e⟩ := result
  dsimp only at hok
  subst hok
  dsimp only
  generalize r₁.refreshReports py f = result
  obtain ⟨r₂, e⟩ := result
  cases e with
  | error e => rfl
  | ok changed =>
    dsimp only
    split <;> rfl

/-- One observation. -/
theorem watched_refresh {all : List ShotRecord} (h : Watched py g fs r) (hgrows : Grows f g)
    (hsamples : SamplesFirst f) (hheader : HeaderReads g) (hread : RecordsRead g all)
    (hcount : r.recordCount ≤ f.available) :
    Watched py g (fs ++ [f]) (r.refresh py f).1 ∧
      (r.refresh py f).1.recordCount ≤ f.available := by
  by_cases hshort : f.index.length < qidxHeaderBytes
  · -- the header is not there yet, and the bundle stays as it is
    have hsame : (r.refresh py f).1 = r := by
      unfold refresh
      rw [if_pos hshort]
      split <;> rfl
    rw [hsame]
    refine ⟨⟨h.identity, h.unread, h.records, ?_, ?_⟩, hcount⟩
    · rw [List.map_append, List.map_singleton]
      exact h.manifest.mono _
    · rw [List.map_append, List.map_singleton]
      exact h.senderReport.mono _
  · obtain ⟨hvalid, hrun, hstream⟩ :=
      validateHeader_grows hgrows (Nat.le_of_not_lt hshort) hheader h.identity
    obtain ⟨hok, shots, hshots, hsame⟩ := scan_grows hgrows hsamples hread hcount h.records
    have hreports := (scan_kept f f.available (r.counting f)).1
    have hnumber := (scan_kept f f.available (r.counting f)).2
    rw [refresh_fst hshort hvalid (Nat.not_lt.mpr hcount) hok]
    generalize (scan f f.available (r.counting f)).1 = r₁ at hsame hreports hnumber
    have hcatalog := refreshReports_kept py r₁ f
    have hmanifest := h.manifest
    have hsender := h.senderReport
    rw [show r.runSignature = r₁.runSignature from hreports.runSignature.symm,
      show r.manifest = r₁.manifest from hreports.manifest.symm] at hmanifest
    rw [show r.senderSignature = r₁.senderSignature from hreports.senderSignature.symm,
      show r.senderReport = r₁.senderReport from hreports.senderReport.symm] at hsender
    obtain ⟨hid, hid', hmanifest, hsender⟩ := refreshReports_watched (f := f)
      (hreports.runId.trans hrun) (hreports.streamId.trans hstream) hmanifest hsender
    have hnumber : (r₁.refreshReports py f).1.recordCount = f.available :=
      hcatalog.recordCount.trans hnumber
    refine ⟨⟨.inr ⟨hid, hid'⟩, ?_, ?_, hmanifest, hsender⟩, hnumber.le⟩
    · -- without an identity no report is read
      intro hzero
      have hbefore : r.runId = 0 := by
        rcases h.identity with hr | ⟨hr, -⟩
        · exact hr
        · rw [hr, ← hid, hzero]
      have hidle : r₁.refreshReports py f = (r₁, .ok false) := by
        unfold refreshReports
        rw [if_pos]
        rw [hreports.runId, show (r.counting f).runId = f.runId from rfl, hrun, ← hid, hzero]
      rw [hidle, hreports.manifest, hreports.senderReport]
      exact h.unread hbefore
    · rw [hnumber]
      exact ⟨shots, hshots, hsame.trans hcatalog⟩

theorem watched_init (py : Python F) (g : Files) : Watched py g [] {} where
  identity := .inl rfl
  unread := fun _ => ⟨rfl, rfl⟩
  records := ⟨[], by unfold Files.decodeRange; rfl, SameCatalog.refl _⟩
  manifest := .inl ⟨rfl, rfl⟩
  senderReport := .inl ⟨rfl, rfl⟩

/-- Any number of observations. -/
theorem watched_observe {all : List ShotRecord} (hheader : HeaderReads g)
    (hread : RecordsRead g all) (hgrows : (fs ++ [g]).Pairwise Grows)
    (hsamples : ∀ f ∈ fs, SamplesFirst f) :
    Watched py g fs (observe py fs) ∧ (observe py fs).recordCount ≤ g.available := by
  have hrun : ∀ (rest seen : List Files) (r : RunIndex F), (rest ++ [g]).Pairwise Grows →
      (∀ f ∈ rest, SamplesFirst f) → Watched py g seen r →
      (∀ f ∈ rest ++ [g], r.recordCount ≤ f.available) →
      Watched py g (seen ++ rest) (rest.foldl (fun r f => (r.refresh py f).1) r) ∧
        (rest.foldl (fun r f => (r.refresh py f).1) r).recordCount ≤ g.available := by
    intro rest
    induction rest with
    | nil =>
      intro seen r _ _ hr hcount
      rw [List.append_nil]
      exact ⟨hr, hcount g (List.mem_singleton_self g)⟩
    | cons f rest ih =>
      intro seen r hgrows hsamples hr hcount
      rw [List.cons_append, List.pairwise_cons] at hgrows
      obtain ⟨hfirst, hgrows⟩ := hgrows
      have hlast := hfirst g (List.mem_append_right _ (List.mem_singleton_self g))
      obtain ⟨hnext, hle⟩ := watched_refresh hr hlast (hsamples f List.mem_cons_self) hheader hread
        (hcount f List.mem_cons_self)
      have hrest := ih (seen ++ [f]) _ hgrows
        (fun f' hf' => hsamples f' (List.mem_cons_of_mem _ hf')) hnext
        (fun f' hf' => hle.trans (hfirst f' hf').available_le)
      rw [List.append_assoc] at hrest
      exact hrest
  exact hrun fs [] {} hgrows hsamples (watched_init py g) fun f _ => Nat.zero_le f.available

/-! ## The last refresh -/

theorem refreshRun_last (hrun : r.runId = g.runId) (hstream : r.streamId = g.streamId)
    (h : Loaded py g "run.json" "qcrate-run-v1" (fs.map (·.runJson)) r.runSignature r.manifest)
    (hsame : ∀ f ∈ fs, SameFile f.runJson g.runJson) {final : Option (Report F)}
    (hfinal : loadIfExists py "run.json" "qcrate-run-v1" g.runId g.streamId g.runJson =
      .ok final) :
    (∃ changed, (r.refreshRun py g).2 = .ok changed) ∧ (r.refreshRun py g).1.manifest = final ∧
      (r.refreshRun py g).1.runId = r.runId ∧ (r.refreshRun py g).1.streamId = r.streamId ∧
      (r.refreshRun py g).1.senderSignature = r.senderSignature ∧
      (r.refreshRun py g).1.senderReport = r.senderReport := by
  unfold refreshRun
  dsimp only
  split
  · next hsignature =>
    rw [hsignature] at h
    have hmanifest := loaded_last h (by simpa using hsame) hfinal
    exact ⟨⟨false, rfl⟩, hmanifest, rfl, rfl, rfl, rfl⟩
  · have hload : r.loadReport py "run.json" "qcrate-run-v1" g.runJson = .ok final := by
      unfold loadReport
      rw [hrun, hstream]
      exact hfinal
    rw [hload]
    exact ⟨⟨true, rfl⟩, rfl, rfl, rfl, rfl, rfl⟩

theorem refreshSender_last (hrun : r.runId = g.runId) (hstream : r.streamId = g.streamId)
    (h : Loaded py g "sender.json" "qcrate-sender-report-v1" (fs.map (·.senderJson))
      r.senderSignature r.senderReport)
    (hsame : ∀ f ∈ fs, SameFile f.senderJson g.senderJson) {final : Option (Report F)}
    (hfinal : loadIfExists py "sender.json" "qcrate-sender-report-v1" g.runId g.streamId
      g.senderJson = .ok final) :
    (∃ changed, (r.refreshSender py g).2 = .ok changed) ∧
      (r.refreshSender py g).1.senderReport = final ∧
      (r.refreshSender py g).1.manifest = r.manifest := by
  unfold refreshSender
  dsimp only
  split
  · next hsignature =>
    rw [hsignature] at h
    have hreport := loaded_last h (by simpa using hsame) hfinal
    exact ⟨⟨false, rfl⟩, hreport, rfl⟩
  · have hload : r.loadReport py "sender.json" "qcrate-sender-report-v1" g.senderJson =
        .ok final := by
      unfold loadReport
      rw [hrun, hstream]
      exact hfinal
    rw [hload]
    exact ⟨⟨true, rfl⟩, rfl, rfl⟩

/-- What `open` has found. -/
theorem openRun_eq_ok {bundle : RunBundle F} (h : RunBundle.openRun py g = .ok bundle) :
    ¬ g.index.length < qidxHeaderBytes ∧ HeaderReads g ∧ g.trailingBytes = 0 ∧
      RecordsRead g bundle.shots ∧
      loadIfExists py "run.json" "qcrate-run-v1" g.runId g.streamId g.runJson =
        .ok bundle.manifest ∧
      loadIfExists py "sender.json" "qcrate-sender-report-v1" g.runId g.streamId g.senderJson =
        .ok bundle.senderReport := by
  unfold RunBundle.openRun at h
  split at h
  · cases h
  split at h
  · cases h
  split at h
  · cases h
  split at h
  · cases h
  split at h
  · cases h
  next hshort hmagic hsizes hreserved htrailing =>
    split at h
    · cases h
    · next shots hshots =>
      split at h
      · cases h
      · next hcheck =>
        split at h
        · cases h
        · next manifest hmanifest =>
          split at h
          · cases h
          · next senderReport hsender =>
            cases h
            simp only [not_or, not_not] at hmagic hsizes hreserved htrailing
            exact ⟨hshort, ⟨hmagic.1, hmagic.2, hsizes.1, hsizes.2, hreserved.1, hreserved.2⟩,
              htrailing, ⟨hshots, checkShots_iff.mp hcheck⟩, hmanifest, hsender⟩

end Watching

/-- A health report takes the duration of the recorder where there is one. -/
theorem buildHealth_recorder (py : Python F) (fl : Floats F)
    {manifest senderReport : Option (Report F)}
    (h : py.nonzero (mappingNumber fl (reportField manifest "timing") "duration_seconds"
      (fl.ofInt 0)) = true) (d d' : F) (counts : Counts) :
    buildHealth py fl manifest senderReport d counts =
      buildHealth py fl manifest senderReport d' counts := by
  have hreport : healthReport py fl manifest senderReport d counts =
      healthReport py fl manifest senderReport d' counts := by
    simp only [healthReport, orElseFloat, h, if_true]
  unfold buildHealth
  rw [hreport]

/-- The last look at the reports, in a run that has an identity or no reports. -/
theorem refreshReports_last {py : Python F} {fs : List Files} {bundle : RunBundle F}
    (hid : g.runId ≠ 0 ∨ (g.runJson = none ∧ g.senderJson = none))
    (hreports : ∀ f ∈ fs, SameFile f.runJson g.runJson ∧ SameFile f.senderJson g.senderJson)
    (hrun : r.runId = g.runId) (hstream : r.streamId = g.streamId)
    (hunread : g.runId = 0 → r.manifest = none ∧ r.senderReport = none)
    (hmanifest : Loaded py g "run.json" "qcrate-run-v1" (fs.map (·.runJson)) r.runSignature
      r.manifest)
    (hsender : Loaded py g "sender.json" "qcrate-sender-report-v1" (fs.map (·.senderJson))
      r.senderSignature r.senderReport)
    (hlast : loadIfExists py "run.json" "qcrate-run-v1" g.runId g.streamId g.runJson =
      .ok bundle.manifest)
    (hlast' : loadIfExists py "sender.json" "qcrate-sender-report-v1" g.runId g.streamId
      g.senderJson = .ok bundle.senderReport) :
    (∃ changed, (r.refreshReports py g).2 = .ok changed) ∧
      (r.refreshReports py g).1.manifest = bundle.manifest ∧
      (r.refreshReports py g).1.senderReport = bundle.senderReport := by
  unfold refreshReports
  by_cases hzero : r.runId = 0
  · rw [if_pos hzero]
    rw [hrun] at hzero
    rcases hid with hne | ⟨hnoRun, hnoSender⟩
    · exact absurd hzero hne
    · rw [hnoRun] at hlast
      rw [hnoSender] at hlast'
      obtain ⟨h₁, h₂⟩ := hunread hzero
      exact ⟨⟨false, rfl⟩, h₁.trans (Except.ok.inj hlast), h₂.trans (Except.ok.inj hlast')⟩
  · rw [if_neg hzero]
    obtain ⟨⟨changedRun, hok⟩, hfinal, hid, hid', hsig, hrep⟩ :=
      refreshRun_last hrun hstream hmanifest (fun f hf => (hreports f hf).1) hlast
    generalize r.refreshRun py g = result at hok hfinal hid hid' hsig hrep
    obtain ⟨r₁, e⟩ := result
    dsimp only at hok hfinal hid hid' hsig hrep
    subst hok
    rw [← hsig, ← hrep] at hsender
    obtain ⟨⟨changedSender, hok⟩, hfinal', hkept⟩ := refreshSender_last (hid.trans hrun)
      (hid'.trans hstream) hsender (fun f hf => (hreports f hf).2) hlast'
    dsimp only
    generalize r₁.refreshSender py g = result at hok hfinal' hkept
    obtain ⟨r₂, e⟩ := result
    dsimp only at hok hfinal' hkept
    subst hok
    exact ⟨⟨changedRun || changedSender, rfl⟩, hkept.trans hfinal, hfinal'⟩

/-- The last refresh of a run that is watched while it grows finds the records, the counts and the
health of the bundle, when the reports are read and both measure the same duration. -/
theorem growth_agrees {F : Type} (py : Python F) (fl : Floats F) {fs : List Files} {g : Files}
    {bundle : RunBundle F} (hopen : RunBundle.openRun py g = .ok bundle)
    (hgrows : (fs ++ [g]).Pairwise Grows) (hsamples : ∀ f ∈ fs, SamplesFirst f)
    (hreports : ∀ f ∈ fs, SameFile f.runJson g.runJson ∧ SameFile f.senderJson g.senderJson)
    (hid : g.runId ≠ 0 ∨ (g.runJson = none ∧ g.senderJson = none))
    (hduration : measuredDuration fl bundle.firstReceive bundle.lastReceive =
        measuredDuration fl (firstKnown bundle.shots) bundle.lastReceive ∨
      py.nonzero (mappingNumber fl (reportField bundle.manifest "timing") "duration_seconds"
        (fl.ofInt 0)) = true) :
    (∃ changed, ((observe py fs).refresh py g).2 = .ok changed) ∧
    (observe py (fs ++ [g])).recordCount = g.available ∧
    (observe py (fs ++ [g])).records g 0 g.available = some (.ok bundle.shots) ∧
    (observe py (fs ++ [g])).completeCount = bundle.completeShots.length ∧
    (observe py (fs ++ [g])).incompleteCount = bundle.incompleteShots.length ∧
    (observe py (fs ++ [g])).health py fl = bundle.health py fl := by
  obtain ⟨hshort, hheader, htrailing, hread, hmanifest, hsender⟩ := openRun_eq_ok hopen
  obtain ⟨hwatched, hcount⟩ : Watched py g fs (observe py fs) ∧
      (observe py fs).recordCount ≤ g.available :=
    watched_observe hheader hread hgrows hsamples
  have hself : Grows g g := ⟨List.prefix_refl _, le_rfl⟩
  have hwritten : SamplesFirst g := by
    intro i hi shot hshot hcomplete
    exact follows_mem hread.2 shot
      ((mem_decodeRange hread.1).mpr ⟨i, Nat.zero_le i, hi, hshot⟩) hcomplete
  -- the refreshes before have watched the run, so the last one starts from what they saw of it
  have hobserve : observe py (fs ++ [g]) = ((observe py fs).refresh py g).1 :=
    List.foldl_append ..
  rw [hobserve]
  generalize observe py fs = r at hwatched hcount
  obtain ⟨hvalid, -, -⟩ :=
    validateHeader_grows hself (Nat.le_of_not_lt hshort) hheader hwatched.identity
  obtain ⟨hok, shots, hshots, hsame⟩ := scan_grows hself hwritten hread hcount hwatched.records
  have hkept := (scan_kept g g.available (r.counting g)).1
  have hfst : (r.refresh py g).1 = _ := refresh_fst hshort hvalid (Nat.not_lt.mpr hcount) hok
  have hrefresh := refresh_of_header py hshort hvalid (Nat.not_lt.mpr hcount)
  rw [hread.1] at hshots
  cases hshots
  rw [hfst]
  generalize scan g g.available (r.counting g) = result at hok hsame hkept hrefresh
  obtain ⟨r₁, e⟩ := result
  dsimp only at hok hsame hkept hrefresh
  subst hok
  dsimp only at hrefresh ⊢
  have hunread : g.runId = 0 → r₁.manifest = none ∧ r₁.senderReport = none := by
    intro hzero
    rw [hkept.manifest, hkept.senderReport]
    apply hwatched.unread
    rcases hwatched.identity with hr | ⟨hr, -⟩
    · exact hr
    · exact hr.trans hzero
  -- the scan changes neither report nor its signature
  have hheld := hwatched.manifest
  have hheld' := hwatched.senderReport
  rw [show r.runSignature = r₁.runSignature from hkept.runSignature.symm,
    show r.manifest = r₁.manifest from hkept.manifest.symm] at hheld
  rw [show r.senderSignature = r₁.senderSignature from hkept.senderSignature.symm,
    show r.senderReport = r₁.senderReport from hkept.senderReport.symm] at hheld'
  obtain ⟨⟨changed, hchanged⟩, hfinal, hfinal'⟩ := refreshReports_last hid hreports hkept.runId
    hkept.streamId hunread hheld hheld' hmanifest hsender
  have hcatalog := hsame.trans (refreshReports_kept py r₁ g)
  generalize r₁.refreshReports py g = result at hchanged hfinal hfinal' hcatalog hrefresh
  obtain ⟨r₂, e⟩ := result
  dsimp only at hchanged hfinal hfinal' hcatalog hrefresh ⊢
  subst hchanged
  dsimp only at hrefresh
  have hnumber : r₂.recordCount = g.available := hcatalog.recordCount
  -- what is accumulated is what the bundle sums up
  have hcounts : r₂.counts = bundle.counts := by
    rw [← counts_totals]
    unfold RunIndex.counts
    rw [hcatalog.completeCount, hcatalog.incompleteCount, hcatalog.skippedShotIds,
      hcatalog.sampleBytes, hcatalog.datagrams, hcatalog.duplicatePackets,
      hcatalog.reorderedPackets, hcatalog.missingPackets]
    rfl
  have hfirst : r₂.firstReceiveNs = firstKnown bundle.shots :=
    hcatalog.firstReceiveNs.trans (firstReceive_totals bundle.shots)
  have hlast : r₂.lastReceiveNs = bundle.lastReceive :=
    hcatalog.lastReceiveNs.trans (lastReceive_totals bundle)
  refine ⟨?_, hnumber, ?_, congrArg Counts.completeShots hcounts,
    congrArg Counts.incompleteShots hcounts, ?_⟩
  · rw [hrefresh, if_neg fun h => h.2 htrailing]
    exact ⟨_, rfl⟩
  · unfold RunIndex.records
    rw [if_neg (by omega), hread.1]
  · unfold RunIndex.health RunBundle.health
    rw [hfinal, hfinal', hcounts, hfirst, hlast]
    rcases hduration with hduration | hduration
    · rw [hduration]
    · exact buildHealth_recorder py fl hduration _ _ _

/-! ## Two shots whose packets arrive -/

/-- Numbers that are whole. -/
def wholeFloats : Floats ℤ :=
  { ofInt := id, div := (· / ·), mul := (· * ·), positive := (0 < ·), nonnegative := (0 ≤ ·)
    truncate := id }

/-- A Python with such numbers and no reports to read. -/
def wholePython : Python ℤ :=
  { loads := fun _ => .error "", integer := fun _ => .error "", nonzero := (· ≠ 0) }

/-- The record of a complete shot whose packets arrive from `firstReceive` to three seconds. -/
def timedBytes (ordinal firstReceive : ℕ) : Bytes :=
  putBE 8 (ordinal + 1) ++ putBE 4 1 ++ List.replicate 28 0 ++ putBE 8 firstReceive ++
    putBE 8 3000000000 ++ putBE 8 (1000000 * ordinal) ++ putBE 8 1000000 ++ List.replicate 56 0

/-- A run of shots whose first packets arrive at `times`. -/
def timedRun (times : List ℕ) : Files :=
  { index := putBE 4 qidxMagic ++ putBE 2 qidxVersion ++ putBE 2 qidxHeaderBytes ++
      putBE 2 qidxRecordBytes ++ List.replicate 6 0 ++ putBE 8 7 ++ putBE 4 1 ++
      List.replicate 4 0 ++ times.zipIdx.flatMap fun item => timedBytes item.2 item.1
    sampleFileBytes := 1000000 * times.length
    runJson := none
    senderJson := none }

/-- The duration in the health report of the bundle. -/
def bundleDuration (f : Files) : Option ℤ :=
  (RunBundle.openRun wholePython f).toOption.map
    fun bundle => (bundle.health wholePython wholeFloats).durationSeconds

theorem growth_agrees_timed :
    ∃ bundle, RunBundle.openRun wholePython (timedRun [1000000000, 2000000000]) = .ok bundle ∧
      (observe wholePython [timedRun [1000000000], timedRun [1000000000, 2000000000]]).health
        wholePython wholeFloats = bundle.health wholePython wholeFloats := by
  have hany : ((RunBundle.openRun wholePython (timedRun [1000000000, 2000000000])).toOption.any
      fun bundle => bundle.firstReceive = firstKnown bundle.shots) = true := by decide +kernel
  cases hopen : RunBundle.openRun wholePython (timedRun [1000000000, 2000000000]) with
  | error e =>
    rw [hopen] at hany
    cases hany
  | ok bundle =>
    rw [hopen] at hany
    have hfirst : bundle.firstReceive = firstKnown bundle.shots := of_decide_eq_true hany
    have hgrows : Grows (timedRun [1000000000]) (timedRun [1000000000, 2000000000]) :=
      ⟨by decide +kernel, by decide⟩
    have hread : ∀ i < (timedRun [1000000000]).available,
        (ShotRecord.decode ((timedRun [1000000000]).recordBytes i)).toOption.all
          (fun shot => shot.sampleOffset + shot.sampleBytes ≤ 1000000) = true := by decide +kernel
    have hsamples : SamplesFirst (timedRun [1000000000]) := by
      intro i hi shot hshot _
      have hi := hread i hi
      rw [hshot] at hi
      exact of_decide_eq_true hi
    have hmissing : SameFile none none := by
      intro a b ha
      cases ha
    obtain ⟨-, -, -, -, -, hhealth⟩ := growth_agrees wholePython wholeFloats hopen
      (List.pairwise_pair.mpr hgrows) (List.forall_mem_singleton.mpr hsamples)
      (List.forall_mem_singleton.mpr ⟨hmissing, hmissing⟩) (.inr ⟨rfl, rfl⟩) (.inl (by rw [hfirst]))
    exact ⟨bundle, rfl, hhealth⟩

/-- The packets of the second shot begin to arrive first. The bundle measures from the earliest of
them, the catalog from the first of the first record. -/
theorem growth_durations_differ :
    bundleDuration (timedRun [2000000000, 1000000000]) = some 2 ∧
      ((observe wholePython [timedRun [2000000000, 1000000000]]).health wholePython
        wholeFloats).durationSeconds = 1 := by
  decide +kernel

end QCrate.Analyzer
