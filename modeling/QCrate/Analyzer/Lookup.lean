import QCrate.Analyzer.Growth
import QCrate.Lib.Bisect
import QCrate.Lib.Lru

/-!
# Looking records up

`record_at`, `records` and `find_shot_id` of `RunIndex`, which read through a cache of bounded size
while the run grows. The cache never shows: every answer is what the files hold at the call.

* `recordAt`, `decodeInto`, `findShotId` — the calls, each with the catalog it leaves.
* `Catalogued` — what holds of a catalog between two calls.
* `lookups_exact` — any calls, in any order, some of which may raise.
-/

namespace QCrate.Analyzer

open QCrate.Lib QCrate.DataPlane RunIndex

/-- What a look-up raises. -/
inductive LookupError where
  | outside
  | changed
  | run (e : RunError)
  deriving DecidableEq, Repr

namespace RunIndex

variable {F : Type}

/-- `_decode_range` -/
def decodeInto (r : RunIndex F) (f : Files) (start stop : ℕ) :
    RunIndex F × Except LookupError (List ShotRecord) :=
  if stop < start ∨ r.recordCount < stop then (r, .error .outside)
  else
    let count := stop - start
    let raw := (f.index.drop (qidxHeaderBytes + start * qidxRecordBytes)).take
      (count * qidxRecordBytes)
    if raw.length ≠ count * qidxRecordBytes then (r, .error .changed)
    else
      match f.decodeRange start stop with
      | .error e => (r, .error (.run e))
      | .ok shots => (r.cacheAll start shots, .ok shots)

/-- `record_at` -/
def recordAt (r : RunIndex F) (f : Files) (ordinal : ℕ) :
    RunIndex F × Except LookupError ShotRecord :=
  if r.recordCount ≤ ordinal then (r, .error .outside)
  else
    match r.cache.lookup ordinal with
    | some shot => ({ r with cache := lruTouch r.cache ordinal }, .ok shot)
    | none =>
      match r.decodeInto f ordinal (ordinal + 1) with
      | (r, .error e) => (r, .error e)
      | (r, .ok []) => (r, .error .outside)
      | (r, .ok (shot :: _)) => (r, .ok shot)

/-- The test of `find_shot_id`: the record comes before the shot. -/
def isBefore (f : Files) (shotId : ℕ) (r : RunIndex F) (ordinal : ℕ) :
    RunIndex F × Except LookupError Bool :=
  match r.recordAt f ordinal with
  | (r, .error e) => (r, .error e)
  | (r, .ok shot) => (r, .ok (shot.shotId < shotId))

/-- `find_shot_id` -/
def findShotId (r : RunIndex F) (f : Files) (shotId : ℕ) :
    RunIndex F × Except LookupError (Option ℕ) :=
  match bisectFrom (isBefore f shotId) r.recordCount r 0 r.recordCount with
  | (r, .error e) => (r, .error e)
  | (r, .ok low) =>
    if low < r.recordCount then
      match r.recordAt f low with
      | (r, .error e) => (r, .error e)
      | (r, .ok shot) => (r, .ok (if shot.shotId = shotId then some low else none))
    else (r, .ok none)

/-- What a client asks for. -/
inductive Call where
  | refresh
  | recordAt (ordinal : ℕ)
  | records (start stop : ℕ)
  | findShotId (shotId : ℕ)
  deriving DecidableEq, Repr

/-- The catalog after a call, whether it has raised or not. -/
def answer (py : Python F) (r : RunIndex F) (f : Files) : Call → RunIndex F
  | .refresh => (r.refresh py f).1
  | .recordAt ordinal => (r.recordAt f ordinal).1
  | .records start stop => (r.decodeInto f start stop).1
  | .findShotId shotId => (r.findShotId f shotId).1

/-- The catalog after calls, each on the files as they are then. -/
def answerAll (py : Python F) (r : RunIndex F) (calls : List (Call × Files)) : RunIndex F :=
  calls.foldl (fun r call => r.answer py call.2 call.1) r

end RunIndex

/-- The record `ordinal` of the files, read without a cache. -/
def readRecord (f : Files) (ordinal : ℕ) : Except LookupError ShotRecord :=
  match ShotRecord.decode (f.recordBytes ordinal) with
  | .error e => .error (.run e)
  | .ok shot => .ok shot

/-! ## The catalog between two calls -/

/-- The cache holds records of the files. -/
def Caches {F : Type} (f : Files) (r : RunIndex F) : Prop :=
  LruOf (fun ordinal shot => ordinal < f.available ∧
    ShotRecord.decode (f.recordBytes ordinal) = .ok shot) r.cacheLimit r.cache

/-- The scanned records decode, and their shot IDs increase up to the last one that was counted. -/
def Increases {F : Type} (f : Files) (r : RunIndex F) : Prop :=
  ∃ shots, f.decodeRange 0 r.scannedCount = .ok shots ∧
    (shots.map (·.shotId)).Pairwise (· < ·) ∧
    ∀ shot ∈ shots, ∃ previous, r.previousShotId = some previous ∧ shot.shotId ≤ previous

/-- What holds of a catalog and the files it was read from. -/
structure Catalogued {F : Type} (f : Files) (r : RunIndex F) : Prop where
  counted : r.recordCount ≤ f.available
  scanned : r.scannedCount ≤ r.recordCount
  caches : Caches f r
  increases : Increases f r

variable {F : Type} {r r' : RunIndex F} {f g : Files}

theorem catalogued_start (limit : ℕ) (f : Files) :
    Catalogued f ({ cacheLimit := limit } : RunIndex F) where
  counted := Nat.zero_le _
  scanned := le_rfl
  caches := .empty _ _
  increases := ⟨[], rfl, .nil, fun _ h => absurd h List.not_mem_nil⟩

/-- The catalog of the files is one of the files that have grown. -/
theorem Catalogued.grows (h : Catalogued f r) (hg : Grows f g) : Catalogued g r where
  counted := h.counted.trans hg.available_le
  scanned := h.scanned
  caches := h.caches.mono fun ordinal shot hshot =>
    ⟨hshot.1.trans_le hg.available_le, by rw [hg.recordBytes hshot.1]; exact hshot.2⟩
  increases := by
    obtain ⟨shots, hdecode, hids, hlast⟩ := h.increases
    refine ⟨shots, ?_, hids, hlast⟩
    rw [hg.decodeRange (h.scanned.trans h.counted)]
    exact hdecode

/-! ## The records of a read -/

/-- The records of a read, one by one. -/
theorem decodeRange_getElem? {start stop : ℕ} {shots : List ShotRecord}
    (h : f.decodeRange start stop = .ok shots) : shots.length = stop - start ∧
      ∀ (i : ℕ) (shot : ShotRecord), shots[i]? = some shot →
        ShotRecord.decode (f.recordBytes (start + i)) = .ok shot := by
  unfold Files.decodeRange at h
  generalize stop - start = count at h ⊢
  induction count generalizing start shots with
  | zero =>
    cases h
    exact ⟨rfl, fun i shot hi => by cases hi⟩
  | succ count ih =>
    rw [List.range'_succ, List.mapM_cons] at h
    cases hfirst : ShotRecord.decode (f.recordBytes start) with
    | error e =>
      rw [hfirst] at h
      cases h
    | ok first =>
      rw [hfirst] at h
      cases hrest : (List.range' (start + 1) count).mapM fun ordinal =>
          ShotRecord.decode (f.recordBytes ordinal) with
      | error e =>
        rw [hrest] at h
        cases h
      | ok rest =>
        rw [hrest] at h
        cases h
        obtain ⟨hlength, hget⟩ := ih hrest
        refine ⟨congrArg Nat.succ hlength, fun i shot hi => ?_⟩
        cases i with
        | zero =>
          cases hi
          exact hfirst
        | succ i =>
          have hnext := hget i shot hi
          rw [Nat.add_assoc, Nat.add_comm 1 i] at hnext
          exact hnext

/-- What is read at all is read one by one. -/
theorem decodeRange_getElem {start stop : ℕ} {shots : List ShotRecord}
    (h : f.decodeRange start stop = .ok shots) {i : ℕ} (hi : start + i < stop) :
    ∃ shot ∈ shots, ShotRecord.decode (f.recordBytes (start + i)) = .ok shot ∧
      shots[i]? = some shot := by
  obtain ⟨hlength, hget⟩ := decodeRange_getElem? h
  have hlt : i < shots.length := by omega
  exact ⟨shots[i], List.getElem_mem hlt, hget i _ (List.getElem?_eq_getElem hlt),
    List.getElem?_eq_getElem hlt⟩

/-! ## Reads through the cache -/

/-- Only the cache of two catalogs may differ. -/
structure SameButCache (r r' : RunIndex F) : Prop where
  catalog : SameCatalog r r'
  reports : SameReports r r'
  cacheLimit : r'.cacheLimit = r.cacheLimit

theorem SameButCache.refl (r : RunIndex F) : SameButCache r r := ⟨.refl r, .refl r, rfl⟩

theorem SameButCache.trans {r'' : RunIndex F} (h : SameButCache r r') (h' : SameButCache r' r'') :
    SameButCache r r'' :=
  ⟨h.catalog.trans h'.catalog, h.reports.trans h'.reports, h'.cacheLimit.trans h.cacheLimit⟩

theorem Catalogued.of_same (h : Catalogued f r) (hs : SameButCache r r') (hc : Caches f r') :
    Catalogued f r' where
  counted := by rw [hs.catalog.recordCount]; exact h.counted
  scanned := by rw [hs.catalog.scannedCount, hs.catalog.recordCount]; exact h.scanned
  caches := hc
  increases := by
    obtain ⟨shots, hdecode, hids, hlast⟩ := h.increases
    refine ⟨shots, ?_, hids, fun shot hshot => ?_⟩
    · rw [hs.catalog.scannedCount]
      exact hdecode
    · rw [hs.catalog.previousShotId]
      exact hlast shot hshot

theorem cacheAll_limit (r : RunIndex F) (start : ℕ) (shots : List ShotRecord) :
    (r.cacheAll start shots).cacheLimit = r.cacheLimit := by
  unfold cacheAll
  generalize shots.zipIdx start = items
  induction items generalizing r with
  | nil => rfl
  | cons item items ih => exact ih (r.cacheRecord item.2 item.1)

/-- The records of a read enter the cache. -/
theorem caches_cacheAll (h : Caches f r) {start stop : ℕ} {shots : List ShotRecord}
    (hdecode : f.decodeRange start stop = .ok shots) (hstop : stop ≤ f.available) :
    Caches f (r.cacheAll start shots) := by
  have hitems : ∀ items : List (ShotRecord × ℕ),
      (∀ item ∈ items, item.2 < f.available ∧
        ShotRecord.decode (f.recordBytes item.2) = .ok item.1) →
      ∀ r : RunIndex F, Caches f r →
        Caches f (items.foldl (fun r item => r.cacheRecord item.2 item.1) r) := by
    intro items
    induction items with
    | nil => exact fun _ r hr => hr
    | cons item items ih =>
      intro hitems r hr
      obtain ⟨hitem, hrest⟩ := List.forall_mem_cons.mp hitems
      exact ih hrest (r.cacheRecord item.2 item.1) (LruOf.insert hr hitem)
  refine hitems _ (fun item hitem => ?_) r h
  obtain ⟨shot, ordinal⟩ := item
  obtain ⟨hlength, hget⟩ := decodeRange_getElem? hdecode
  obtain ⟨hle, hi⟩ := List.mem_zipIdx_iff_le_and_getElem?_sub.mp hitem
  have hlt := (List.getElem?_eq_some_iff.mp hi).1
  have hshot := hget _ _ hi
  dsimp only at hle hlt hshot ⊢
  rw [Nat.add_sub_cancel' hle] at hshot
  exact ⟨by omega, hshot⟩

/-- A read of records through the cache gives what the files hold. -/
theorem decodeInto_exact (h : Catalogued f r) {start stop : ℕ} (hle : start ≤ stop)
    (hstop : stop ≤ r.recordCount) :
    Catalogued f (r.decodeInto f start stop).1 ∧ SameButCache r (r.decodeInto f start stop).1 ∧
      (r.decodeInto f start stop).2 =
        (match f.decodeRange start stop with
          | .error e => .error (.run e)
          | .ok shots => .ok shots) := by
  have havailable := hstop.trans h.counted
  have hraw : ((f.index.drop (qidxHeaderBytes + start * qidxRecordBytes)).take
      ((stop - start) * qidxRecordBytes)).length = (stop - start) * qidxRecordBytes := by
    unfold Files.available qidxRecordBytes at havailable
    unfold qidxRecordBytes
    rw [List.length_take, List.length_drop, Nat.min_eq_left]
    have hdiv := Nat.div_mul_le_self (f.index.length - qidxHeaderBytes) 128
    by_cases hempty : stop = start
    · omega
    · omega
  unfold decodeInto
  rw [if_neg (by omega)]
  dsimp only
  rw [if_neg (not_not.mpr hraw)]
  cases hdecode : f.decodeRange start stop with
  | error e => exact ⟨h, .refl r, rfl⟩
  | ok shots =>
    have hkept := cacheAll_kept r start shots
    have hsame : SameButCache r (r.cacheAll start shots) :=
      ⟨hkept.1, hkept.2, cacheAll_limit r start shots⟩
    exact ⟨h.of_same hsame (caches_cacheAll h.caches hdecode havailable), hsame, rfl⟩

/-- A look-up that raises before it reads. -/
theorem decodeInto_outside {start stop : ℕ} (h : stop < start ∨ r.recordCount < stop) :
    r.decodeInto f start stop = (r, .error .outside) := if_pos h

/-- A record through the cache is the record of the files. -/
theorem recordAt_exact (h : Catalogued f r) {ordinal : ℕ} (hlt : ordinal < r.recordCount) :
    Catalogued f (r.recordAt f ordinal).1 ∧ SameButCache r (r.recordAt f ordinal).1 ∧
      (r.recordAt f ordinal).2 = readRecord f ordinal := by
  unfold RunIndex.recordAt readRecord
  rw [if_neg (Nat.not_le.mpr hlt)]
  cases hcached : r.cache.lookup ordinal with
  | some shot =>
    have hsame : SameButCache r { r with cache := lruTouch r.cache ordinal } :=
      ⟨⟨rfl, rfl, rfl, rfl, rfl, rfl, rfl, rfl, rfl, rfl, rfl, rfl, rfl, rfl⟩,
        ⟨rfl, rfl, rfl, rfl, rfl, rfl⟩, rfl⟩
    refine ⟨h.of_same hsame (LruOf.touch h.caches ordinal), hsame, ?_⟩
    rw [(LruOf.lookup h.caches hcached).2]
  | none =>
    obtain ⟨hcatalogued, hsame, hanswer⟩ :=
      decodeInto_exact h (Nat.le_succ ordinal) (Nat.succ_le_of_lt hlt)
    dsimp only
    generalize r.decodeInto f ordinal (ordinal + 1) = result at hcatalogued hsame hanswer
    obtain ⟨r₁, answered⟩ := result
    dsimp only at hcatalogued hsame hanswer
    have hone : f.decodeRange ordinal (ordinal + 1) =
        (ShotRecord.decode (f.recordBytes ordinal)).map fun shot => [shot] := by
      unfold Files.decodeRange
      rw [Nat.add_sub_cancel_left, List.range'_one, List.mapM_cons]
      cases ShotRecord.decode (f.recordBytes ordinal) <;> rfl
    rw [hone] at hanswer
    cases hdecode : ShotRecord.decode (f.recordBytes ordinal) with
    | error e =>
      rw [hdecode] at hanswer
      subst hanswer
      exact ⟨hcatalogued, hsame, rfl⟩
    | ok shot =>
      rw [hdecode] at hanswer
      subst hanswer
      exact ⟨hcatalogued, hsame, rfl⟩

/-! ## The search -/

/-- The test of the search, on the files alone. -/
def comesBefore (f : Files) (shotId ordinal : ℕ) : Bool :=
  match readRecord f ordinal with
  | .error _ => false
  | .ok shot => shot.shotId < shotId

theorem isBefore_kept (h : Catalogued f r) (shotId : ℕ) {ordinal : ℕ}
    (hlt : ordinal < r.recordCount) : Catalogued f (isBefore f shotId r ordinal).1 ∧
      SameButCache r (isBefore f shotId r ordinal).1 ∧
      (∀ shot, readRecord f ordinal = .ok shot →
        (isBefore f shotId r ordinal).2 = .ok (comesBefore f shotId ordinal)) := by
  obtain ⟨hcatalogued, hsame, hanswer⟩ := recordAt_exact h hlt
  unfold isBefore comesBefore
  generalize r.recordAt f ordinal = result at hcatalogued hsame hanswer
  obtain ⟨r₁, answered⟩ := result
  dsimp only at hcatalogued hsame hanswer
  rw [← hanswer]
  cases answered with
  | error e => exact ⟨hcatalogued, hsame, fun _ hno => by cases hno⟩
  | ok shot => exact ⟨hcatalogued, hsame, fun _ _ => rfl⟩

/-- The search keeps the catalog, whether it raises or not. -/
theorem findShotId_kept (h : Catalogued f r) (shotId : ℕ) :
    Catalogued f (r.findShotId f shotId).1 ∧ SameButCache r (r.findShotId f shotId).1 := by
  have hsearch : Catalogued f (bisectFrom (isBefore f shotId) r.recordCount r 0 r.recordCount).1 ∧
      SameButCache r (bisectFrom (isBefore f shotId) r.recordCount r 0 r.recordCount).1 :=
    bisectFrom_inv (I := fun r' => Catalogued f r' ∧ SameButCache r r')
      (fun r' i hr' hi => by
        have hkept := isBefore_kept hr'.1 shotId (hi.trans_eq hr'.2.catalog.recordCount.symm)
        exact ⟨hkept.1, hr'.2.trans hkept.2.1⟩)
      r.recordCount ⟨h, .refl r⟩ le_rfl
  unfold findShotId
  generalize bisectFrom (isBefore f shotId) r.recordCount r 0 r.recordCount = result at hsearch
  obtain ⟨r₁, answered⟩ := result
  cases answered with
  | error e => exact hsearch
  | ok low =>
    dsimp only at hsearch ⊢
    split
    · next hlt =>
      obtain ⟨hcatalogued, hsame, -⟩ := recordAt_exact hsearch.1 hlt
      generalize r₁.recordAt f low = found at hcatalogued hsame
      obtain ⟨r₂, answered⟩ := found
      cases answered with
      | error e => exact ⟨hcatalogued, hsearch.2.trans hsame⟩
      | ok shot => exact ⟨hcatalogued, hsearch.2.trans hsame⟩
    · exact hsearch

/-- The records up to `count` can be read, and their shot IDs increase. -/
structure Ordered (f : Files) (count : ℕ) : Prop where
  reads : ∀ i < count, ∃ shot, readRecord f i = .ok shot
  increases : ∀ i j a b, i < j → j < count → readRecord f i = .ok a → readRecord f j = .ok b →
    a.shotId < b.shotId

/-- The records of a catalog that are all scanned. -/
theorem Catalogued.ordered (h : Catalogued f r) (hs : r.scannedCount = r.recordCount) :
    Ordered f r.recordCount := by
  obtain ⟨shots, hdecode, hids, -⟩ := h.increases
  rw [hs] at hdecode
  have hread : ∀ i < r.recordCount, ∃ shot, readRecord f i = .ok shot ∧ shots[i]? = some shot := by
    intro i hi
    obtain ⟨shot, -, hshot, hget⟩ :=
      decodeRange_getElem hdecode (i := i) (by rw [Nat.zero_add]; exact hi)
    rw [Nat.zero_add] at hshot
    refine ⟨shot, ?_, hget⟩
    unfold readRecord
    rw [hshot]
  refine ⟨fun i hi => ?_, fun i j a b hij hj ha hb => ?_⟩
  · obtain ⟨shot, hshot, -⟩ := hread i hi
    exact ⟨shot, hshot⟩
  · obtain ⟨a', ha', hgeta⟩ := hread i (hij.trans hj)
    obtain ⟨b', hb', hgetb⟩ := hread j hj
    rw [ha] at ha'
    rw [hb] at hb'
    cases ha'
    cases hb'
    obtain ⟨hi, rfl⟩ := List.getElem?_eq_some_iff.mp hgeta
    obtain ⟨hj, rfl⟩ := List.getElem?_eq_some_iff.mp hgetb
    exact List.pairwise_iff_getElem.mp (List.pairwise_map.mp hids) i j hi hj hij

/-- The number of a shot in the files. -/
def IsNumber (f : Files) (count shotId ordinal : ℕ) : Prop :=
  ordinal < count ∧ ∃ shot, readRecord f ordinal = .ok shot ∧ shot.shotId = shotId

namespace Ordered

variable {count : ℕ}

theorem comesBefore_mono (h : Ordered f count) (shotId i j : ℕ) (hij : i ≤ j) (hj : j < count)
    (hbefore : comesBefore f shotId j = true) : comesBefore f shotId i = true := by
  rcases Nat.eq_or_lt_of_le hij with rfl | hij
  · exact hbefore
  · obtain ⟨a, ha⟩ := h.reads i (hij.trans hj)
    obtain ⟨b, hb⟩ := h.reads j hj
    unfold comesBefore at hbefore ⊢
    rw [hb] at hbefore
    rw [ha]
    exact decide_eq_true ((h.increases i j a b hij hj ha hb).trans (of_decide_eq_true hbefore))

/-- The record of a shot is the first one that does not come before it. -/
theorem eq_of_isNumber (h : Ordered f count) {shotId low i : ℕ}
    (hbelow : ∀ i < low, comesBefore f shotId i = true)
    (habove : ∀ i, low ≤ i → i < count → comesBefore f shotId i = false)
    (hnumber : IsNumber f count shotId i) : i = low := by
  obtain ⟨hi, shot, hshot, hid⟩ := hnumber
  have hnot : comesBefore f shotId i = false := by
    unfold comesBefore
    rw [hshot]
    exact decide_eq_false (by omega)
  have hle : low ≤ i := by
    by_contra hno
    rw [hbelow i (Nat.lt_of_not_le hno)] at hnot
    cases hnot
  by_contra hne
  obtain ⟨a, ha⟩ := h.reads low (by omega)
  have hlow := habove low le_rfl (by omega)
  unfold comesBefore at hlow
  rw [ha] at hlow
  have hgt := h.increases low i a shot (by omega) hi ha hshot
  exact of_decide_eq_false hlow (by omega)

end Ordered

/-- In a catalog whose records are all scanned the search finds the record of the shot, and finds
none when there is none. -/
theorem findShotId_exact (h : Catalogued f r) (hs : r.scannedCount = r.recordCount) (shotId : ℕ) :
    ∃ found, (r.findShotId f shotId).2 = .ok found ∧
      ∀ ordinal, found = some ordinal ↔ IsNumber f r.recordCount shotId ordinal := by
  have hordered := h.ordered hs
  obtain ⟨hbound, hbelow, habove⟩ := bisect_spec (hordered.comesBefore_mono shotId) r.recordCount
    le_rfl (Nat.zero_le _) le_rfl (fun _ hno => absurd hno (Nat.not_lt_zero _))
    fun i hi hi' => absurd hi' (Nat.not_lt.mpr hi)
  obtain ⟨⟨hcatalogued, hsame⟩, hanswer⟩ :
      (Catalogued f (bisectFrom (isBefore f shotId) r.recordCount r 0 r.recordCount).1 ∧
        SameButCache r (bisectFrom (isBefore f shotId) r.recordCount r 0 r.recordCount).1) ∧
      (bisectFrom (isBefore f shotId) r.recordCount r 0 r.recordCount).2 =
        .ok (bisect (comesBefore f shotId) r.recordCount 0 r.recordCount) :=
    bisectFrom_eq (I := fun r' => Catalogued f r' ∧ SameButCache r r')
      (fun r' i hr' hi => by
        obtain ⟨hkept, hsame, hsays⟩ :=
          isBefore_kept hr'.1 shotId (hi.trans_eq hr'.2.catalog.recordCount.symm)
        obtain ⟨shot, hshot⟩ := hordered.reads i hi
        exact ⟨⟨hkept, hr'.2.trans hsame⟩, hsays shot hshot⟩)
      r.recordCount ⟨h, .refl r⟩ le_rfl
  -- the search through the cache asks what the search in the files asks
  generalize bisect (comesBefore f shotId) r.recordCount 0 r.recordCount = low
    at hbound hbelow habove hanswer
  unfold findShotId
  generalize bisectFrom (isBefore f shotId) r.recordCount r 0 r.recordCount = result
    at hcatalogued hsame hanswer
  obtain ⟨r₁, answered⟩ := result
  dsimp only at hcatalogued hsame hanswer
  subst hanswer
  have hcount : r₁.recordCount = r.recordCount := hsame.catalog.recordCount
  have hat := fun i => hordered.eq_of_isNumber (i := i) hbelow habove
  dsimp only
  split
  · next hin =>
    rw [hcount] at hin
    obtain ⟨-, -, hlow⟩ := recordAt_exact hcatalogued (hin.trans_eq hcount.symm)
    obtain ⟨shot, hshot⟩ := hordered.reads low hin
    rw [hshot] at hlow
    generalize r₁.recordAt f low = found at hlow
    obtain ⟨r₂, answered⟩ := found
    dsimp only at hlow
    subst hlow
    refine ⟨_, rfl, fun i => ?_⟩
    by_cases hid : shot.shotId = shotId
    · rw [if_pos hid]
      constructor
      · intro heq
        cases heq
        exact ⟨hin, shot, hshot, hid⟩
      · intro hnumber
        rw [hat i hnumber]
    · rw [if_neg hid]
      constructor
      · intro hno
        cases hno
      · intro hnumber
        obtain rfl := hat i hnumber
        obtain ⟨-, shot', hshot', hid'⟩ := hnumber
        rw [hshot] at hshot'
        cases hshot'
        exact absurd hid' hid
  -- every record comes before the shot, so it has none
  · next hout =>
    rw [hcount] at hout
    refine ⟨none, rfl, fun i => ?_⟩
    constructor
    · intro hno
      cases hno
    · intro hnumber
      rw [hat i hnumber] at hnumber
      exact absurd hnumber.1 hout

/-! ## The refresh -/

/-- The shot IDs of a read that is taken as a whole. -/
theorem accumulateAll_ids {b : ℕ} {shots : List ShotRecord}
    (h : (accumulateAll b r shots).2 = none) :
    (∀ shot ∈ shots, ∀ previous, r.previousShotId = some previous → previous < shot.shotId) ∧
      (shots.map (·.shotId)).Pairwise (· < ·) ∧
      ∀ shot ∈ shots, ∃ previous, (accumulateAll b r shots).1.previousShotId = some previous ∧
        shot.shotId ≤ previous := by
  induction shots generalizing r with
  | nil =>
    exact ⟨fun _ hno => absurd hno List.not_mem_nil, .nil, fun _ hno => absurd hno List.not_mem_nil⟩
  | cons shot shots ih =>
    rw [accumulateAll] at h ⊢
    rcases accumulate_cases r shot b with ⟨-, hstop⟩ | ⟨hrepeats, hid, -, -⟩
    · rw [hstop] at h
      cases h
    · generalize r.accumulate shot b = result at h hid
      obtain ⟨r₁, e⟩ := result
      cases e with
      | some e => cases h
      | none =>
        obtain ⟨habove, hpairwise, hlast⟩ := ih h
        have hfirst : ∀ previous, r.previousShotId = some previous → previous < shot.shotId := by
          intro previous hprevious
          rw [repeatsShotId, hprevious, Option.any_some, decide_eq_false_iff_not] at hrepeats
          omega
        refine ⟨List.forall_mem_cons.mpr ⟨hfirst, fun later hlater previous hprevious => ?_⟩, ?_,
          List.forall_mem_cons.mpr ⟨?_, hlast⟩⟩
        · exact (hfirst previous hprevious).trans (habove later hlater _ hid)
        · rw [List.map_cons, List.pairwise_cons]
          refine ⟨fun id hmem => ?_, hpairwise⟩
          obtain ⟨later, hlater, rfl⟩ := List.mem_map.mp hmem
          exact habove later hlater _ hid
        · rcases accumulateAll_moves b r₁ shots with heq | ⟨id, hmoved, hlt⟩
          · exact ⟨shot.shotId, heq.trans hid, le_rfl⟩
          · exact ⟨id, hmoved, (hlt _ hid).le⟩

/-- Counting records leaves the cache alone. -/
theorem accumulateAll_cache (b : ℕ) (r : RunIndex F) (shots : List ShotRecord) :
    (accumulateAll b r shots).1.cache = r.cache ∧
      (accumulateAll b r shots).1.cacheLimit = r.cacheLimit := by
  induction shots generalizing r with
  | nil => exact ⟨rfl, rfl⟩
  | cons shot shots ih =>
    have hone : (r.accumulate shot b).1.cache = r.cache ∧
        (r.accumulate shot b).1.cacheLimit = r.cacheLimit := by
      unfold accumulate countSamples
      split_ifs <;> exact ⟨rfl, rfl⟩
    rw [accumulateAll]
    generalize r.accumulate shot b = result at hone
    obtain ⟨r₁, e⟩ := result
    cases e with
    | some e => exact hone
    | none => exact ⟨(ih r₁).1.trans hone.1, (ih r₁).2.trans hone.2⟩

/-- A catalog whose last shot ID has moved on is still one of the files. -/
theorem Catalogued.moved (h : Catalogued f r) (hcount : r'.recordCount = r.recordCount)
    (hscanned : r'.scannedCount = r.scannedCount) (hcaches : Caches f r')
    (hmoves : r'.previousShotId = r.previousShotId ∨ Moved r r') : Catalogued f r' where
  counted := by rw [hcount]; exact h.counted
  scanned := by rw [hscanned, hcount]; exact h.scanned
  caches := hcaches
  increases := by
    obtain ⟨shots, hdecode, hids, hlast⟩ := h.increases
    refine ⟨shots, by rw [hscanned]; exact hdecode, hids, fun shot hshot => ?_⟩
    obtain ⟨previous, hprevious, hle⟩ := hlast shot hshot
    rcases hmoves with heq | ⟨id, hid, hlt⟩
    · exact ⟨previous, heq.trans hprevious, hle⟩
    · exact ⟨id, hid, hle.trans (hlt _ hprevious).le⟩

/-- The catalog after a read that was taken as a whole. -/
theorem Catalogued.scanned_more (h : Catalogued f r) {b stop : ℕ} {shots : List ShotRecord}
    (hle : r.scannedCount ≤ stop) (hstop : stop ≤ r.recordCount)
    (hdecode : f.decodeRange r.scannedCount stop = .ok shots)
    (htaken : (accumulateAll b r shots).2 = none) :
    Catalogued f { (accumulateAll b r shots).1 with scannedCount := stop } := by
  obtain ⟨-, hcount, -⟩ := accumulateAll_kept b r shots
  obtain ⟨hcache, hlimit⟩ := accumulateAll_cache b r shots
  obtain ⟨habove, hpairwise, hlast⟩ := accumulateAll_ids htaken
  have hmoves := accumulateAll_moves b r shots
  refine ⟨?_, ?_, ?_, ?_⟩
  · show (accumulateAll b r shots).1.recordCount ≤ _
    rw [hcount]
    exact h.counted
  · show stop ≤ (accumulateAll b r shots).1.recordCount
    rw [hcount]
    exact hstop
  · show LruOf _ (accumulateAll b r shots).1.cacheLimit (accumulateAll b r shots).1.cache
    rw [hcache, hlimit]
    exact h.caches
  · obtain ⟨before, hbefore, hids, hlastBefore⟩ := h.increases
    refine ⟨before ++ shots, (decodeRange_append (Nat.zero_le _) hle).mpr
      ⟨before, shots, hbefore, hdecode, rfl⟩, ?_, fun shot hshot => ?_⟩
    · rw [List.map_append, List.pairwise_append]
      refine ⟨hids, hpairwise, fun a ha b hb => ?_⟩
      obtain ⟨first, hfirst, rfl⟩ := List.mem_map.mp ha
      obtain ⟨second, hsecond, rfl⟩ := List.mem_map.mp hb
      obtain ⟨previous, hprevious, hle⟩ := hlastBefore first hfirst
      exact hle.trans_lt (habove second hsecond previous hprevious)
    · rcases List.mem_append.mp hshot with hshot | hshot
      · obtain ⟨previous, hprevious, hle⟩ := hlastBefore shot hshot
        rcases hmoves with heq | ⟨id, hid, hlt⟩
        · exact ⟨previous, heq.trans hprevious, hle⟩
        · exact ⟨id, hid, hle.trans (hlt _ hprevious).le⟩
      · exact hlast shot hshot

/-- The scan keeps the catalog; when it raises nothing it has scanned everything. -/
theorem scan_catalogued (fuel : ℕ) (h : Catalogued f r) (hcount : r.recordCount = f.available) :
    Catalogued f (scan f fuel r).1 ∧ ((scan f fuel r).2 = none →
      f.available - r.scannedCount ≤ fuel → (scan f fuel r).1.scannedCount = f.available) := by
  have hscanned := h.scanned
  induction fuel generalizing r with
  | zero => exact ⟨h, fun _ hfuel => by show r.scannedCount = _; omega⟩
  | succ fuel ih =>
    unfold scan
    split
    · next hlt =>
      dsimp only
      have hstop : min f.available (r.scannedCount + scanBatch) ≤ f.available := Nat.min_le_left ..
      have hle : r.scannedCount < min f.available (r.scannedCount + scanBatch) := by
        unfold scanBatch
        omega
      generalize min f.available (r.scannedCount + scanBatch) = stop at hstop hle
      cases hdecode : f.decodeRange r.scannedCount stop with
      | error e => exact ⟨h, fun hno => by cases hno⟩
      | ok shots =>
        dsimp only
        obtain ⟨hcatalog, hreports⟩ := cacheAll_kept r r.scannedCount shots
        have hcached := h.of_same ⟨hcatalog, hreports, cacheAll_limit r r.scannedCount shots⟩
          (caches_cacheAll h.caches hdecode hstop)
        generalize r.cacheAll r.scannedCount shots = r₀ at hcatalog hcached
        obtain ⟨-, hcount₁, hscanned₁⟩ := accumulateAll_kept f.sampleFileBytes r₀ shots
        obtain ⟨hcache₁, hlimit₁⟩ := accumulateAll_cache f.sampleFileBytes r₀ shots
        have hfailed : Catalogued f (accumulateAll f.sampleFileBytes r₀ shots).1 :=
          hcached.moved hcount₁ hscanned₁
            (by unfold Caches; rw [hcache₁, hlimit₁]; exact hcached.caches)
            (accumulateAll_moves _ _ _)
        have htaken : (accumulateAll f.sampleFileBytes r₀ shots).2 = none →
            Catalogued f { (accumulateAll f.sampleFileBytes r₀ shots).1 with
              scannedCount := stop } :=
          hcached.scanned_more (by rw [hcatalog.scannedCount]; exact hle.le)
            (by rw [hcatalog.recordCount, hcount]; exact hstop)
            (by rw [hcatalog.scannedCount]; exact hdecode)
        generalize accumulateAll f.sampleFileBytes r₀ shots = result at hcount₁ hfailed htaken
        obtain ⟨r₁, e⟩ := result
        cases e with
        | some e => exact ⟨hfailed, fun hno => by cases hno⟩
        | none =>
          have hnext := htaken rfl
          obtain ⟨hdone, hall⟩ := ih hnext
            (hcount₁.trans (hcatalog.recordCount.trans hcount)) hnext.scanned
          refine ⟨hdone, fun hok hfuel => hall hok ?_⟩
          show f.available - stop ≤ fuel
          omega
    · next hge => exact ⟨h, fun _ _ => by show r.scannedCount = _; omega⟩

/-- The reports of a refresh leave the cache alone. -/
theorem refreshReports_cache (py : Python F) (r : RunIndex F) (f : Files) :
    (r.refreshReports py f).1.cache = r.cache ∧
      (r.refreshReports py f).1.cacheLimit = r.cacheLimit := by
  have hrun : ∀ r : RunIndex F, (r.refreshRun py f).1.cache = r.cache ∧
      (r.refreshRun py f).1.cacheLimit = r.cacheLimit := by
    intro r
    unfold refreshRun
    dsimp only
    split
    · exact ⟨rfl, rfl⟩
    · split <;> exact ⟨rfl, rfl⟩
  have hsender : ∀ r : RunIndex F, (r.refreshSender py f).1.cache = r.cache ∧
      (r.refreshSender py f).1.cacheLimit = r.cacheLimit := by
    intro r
    unfold refreshSender
    dsimp only
    split
    · exact ⟨rfl, rfl⟩
    · split <;> exact ⟨rfl, rfl⟩
  unfold refreshReports
  split
  · exact ⟨rfl, rfl⟩
  · have hfirst := hrun r
    generalize r.refreshRun py f = result at hfirst
    obtain ⟨r₁, e⟩ := result
    cases e with
    | error e => exact hfirst
    | ok changedRun =>
      have hsecond := hsender r₁
      dsimp only
      generalize r₁.refreshSender py f = result at hsecond
      obtain ⟨r₂, e⟩ := result
      cases e with
      | error e => exact ⟨hsecond.1.trans hfirst.1, hsecond.2.trans hfirst.2⟩
      | ok changedSender => exact ⟨hsecond.1.trans hfirst.1, hsecond.2.trans hfirst.2⟩

theorem refresh_limit (py : Python F) (r : RunIndex F) (f : Files) :
    (r.refresh py f).1.cacheLimit = r.cacheLimit := by
  have hscan : ∀ (fuel : ℕ) (r : RunIndex F), (scan f fuel r).1.cacheLimit = r.cacheLimit := by
    intro fuel
    induction fuel with
    | zero => exact fun _ => rfl
    | succ fuel ih =>
      intro r
      unfold scan
      split
      · dsimp only
        split
        · rfl
        · next shots _ =>
          have hlimit := (accumulateAll_cache f.sampleFileBytes (r.cacheAll r.scannedCount shots)
            shots).2.trans (cacheAll_limit r r.scannedCount shots)
          generalize accumulateAll f.sampleFileBytes (r.cacheAll r.scannedCount shots) shots =
            result at hlimit
          obtain ⟨r₁, e⟩ := result
          cases e with
          | some e => exact hlimit
          | none => exact (ih _).trans hlimit
      · rfl
  unfold refresh
  split
  · split <;> rfl
  · rcases validateHeader_cases r f with ⟨e, hheader⟩ | hheader
    · rw [hheader]
    · rw [hheader]
      dsimp only
      split
      · rfl
      · have hfirst := hscan f.available { r.identified f with recordCount := f.available }
        generalize scan f f.available { r.identified f with recordCount := f.available } = result
          at hfirst
        obtain ⟨r₁, e⟩ := result
        cases e with
        | some e => exact hfirst
        | none =>
          have hsecond := (refreshReports_cache py r₁ f).2.trans hfirst
          dsimp only
          generalize r₁.refreshReports py f = reported at hsecond
          obtain ⟨r₂, e⟩ := reported
          cases e with
          | error e => exact hsecond
          | ok changedReports =>
            dsimp only
            split <;> exact hsecond

/-- All records of the catalog are scanned. -/
def Scanned (r : RunIndex F) : Prop := r.scannedCount = r.recordCount

/-- A refresh keeps the catalog; one that returns has scanned everything. -/
theorem refresh_catalogued (py : Python F) (h : Catalogued f r) :
    Catalogued f (r.refresh py f).1 ∧
      ∀ changed, (r.refresh py f).2 = .ok changed → Scanned (r.refresh py f).1 := by
  by_cases hshort : f.index.length < qidxHeaderBytes
  · have hempty : f.available = 0 := by
      unfold Files.available
      rw [Nat.sub_eq_zero_of_le hshort.le, Nat.zero_div]
    have hscanned : Scanned r := by
      have := h.counted
      have := h.scanned
      unfold Scanned
      omega
    unfold refresh
    rw [if_pos hshort]
    split
    · exact ⟨h, fun _ hno => by cases hno⟩
    · exact ⟨h, fun _ _ => hscanned⟩
  · rcases validateHeader_cases r f with ⟨e, hheader⟩ | hheader
    · unfold refresh
      rw [if_neg hshort, hheader]
      exact ⟨h, fun _ hno => by cases hno⟩
    · rw [refresh_of_header py hshort hheader (Nat.not_lt.mpr h.counted)]
      have hcounting : Catalogued f (r.counting f) :=
        ⟨le_rfl, h.scanned.trans h.counted, h.caches, h.increases⟩
      obtain ⟨hscan, hall⟩ := scan_catalogued f.available hcounting rfl
      have hcount := (scan_kept f f.available (r.counting f)).2
      generalize scan f f.available (r.counting f) = result at hscan hall hcount
      obtain ⟨r₁, e⟩ := result
      cases e with
      | some e => exact ⟨hscan, fun _ hno => by cases hno⟩
      | none =>
        have hscanned : Scanned r₁ := (hall rfl (Nat.sub_le _ _)).trans hcount.symm
        have hkept := refreshReports_kept py r₁ f
        obtain ⟨hcache, hlimit⟩ := refreshReports_cache py r₁ f
        dsimp only
        generalize r₁.refreshReports py f = reported at hkept hcache hlimit
        obtain ⟨r₂, e⟩ := reported
        have hdone : Catalogued f r₂ := hscan.moved hkept.recordCount hkept.scannedCount
          (by unfold Caches; rw [hcache, hlimit]; exact hscan.caches) (.inl hkept.previousShotId)
        have hscanned₂ : Scanned r₂ :=
          hkept.scannedCount.trans (hscanned.trans hkept.recordCount.symm)
        cases e with
        | error e => exact ⟨hdone, fun _ hno => by cases hno⟩
        | ok changedReports =>
          dsimp only
          split
          · exact ⟨hdone, fun _ hno => by cases hno⟩
          · exact ⟨hdone, fun _ _ => hscanned₂⟩

/-! ## Any calls -/

/-- A call that is not a refresh changes the cache at most. -/
theorem answer_same (py : Python F) (h : Catalogued f r) {call : Call} (hcall : call ≠ .refresh) :
    Catalogued f (r.answer py f call) ∧ SameButCache r (r.answer py f call) := by
  cases call with
  | refresh => exact absurd rfl hcall
  | recordAt ordinal =>
    by_cases hlt : ordinal < r.recordCount
    · obtain ⟨hcatalogued, hsame, -⟩ := recordAt_exact h hlt
      exact ⟨hcatalogued, hsame⟩
    · have hstop : r.recordAt f ordinal = (r, .error .outside) := if_pos (Nat.le_of_not_lt hlt)
      show Catalogued f (r.recordAt f ordinal).1 ∧ SameButCache r (r.recordAt f ordinal).1
      rw [hstop]
      exact ⟨h, .refl r⟩
  | records start stop =>
    show Catalogued f (r.decodeInto f start stop).1 ∧ SameButCache r (r.decodeInto f start stop).1
    by_cases hout : stop < start ∨ r.recordCount < stop
    · rw [decodeInto_outside hout]
      exact ⟨h, .refl r⟩
    · obtain ⟨hcatalogued, hsame, -⟩ :=
        decodeInto_exact h (f := f) (Nat.le_of_not_lt fun hlt => hout (.inl hlt))
          (Nat.le_of_not_lt fun hlt => hout (.inr hlt))
      exact ⟨hcatalogued, hsame⟩
  | findShotId shotId => exact findShotId_kept h shotId

theorem answer_catalogued (py : Python F) (h : Catalogued f r) (call : Call) :
    Catalogued f (r.answer py f call) := by
  by_cases hcall : call = .refresh
  · rw [hcall]
    exact (refresh_catalogued py h).1
  · exact (answer_same py h hcall).1

/-- Calls on files that grow keep the catalog. -/
theorem answerAll_catalogued (py : Python F) {calls : List (Call × Files)}
    (hstart : ∀ c ∈ calls.head?, Catalogued c.2 r) (hlast : calls = [] → Catalogued g r)
    (hgrows : (calls.map Prod.snd ++ [g]).Pairwise Grows) :
    Catalogued g (r.answerAll py calls) := by
  induction calls generalizing r with
  | nil => exact hlast rfl
  | cons call calls ih =>
    rw [List.map_cons, List.cons_append, List.pairwise_cons] at hgrows
    have hnext := answer_catalogued py (hstart call rfl) call.1
    refine ih (fun next hmem => hnext.grows (hgrows.1 _ ?_)) (fun _ => hnext.grows (hgrows.1 _ ?_))
      hgrows.2
    · exact List.mem_append_left _ (List.mem_map_of_mem (List.mem_of_mem_head? hmem))
    · exact List.mem_append_right _ (List.mem_singleton_self g)

/-- The answers of a catalog on the files are those of the files. -/
structure Answers (py : Python F) (f : Files) (limit : ℕ) (r : RunIndex F) : Prop where
  record : ∀ ordinal, (r.recordAt f ordinal).2 =
    if ordinal < r.recordCount then readRecord f ordinal else .error .outside
  records : ∀ start stop, (r.decodeInto f start stop).2 =
    if start ≤ stop ∧ stop ≤ r.recordCount then
      (match f.decodeRange start stop with
        | .error e => .error (.run e)
        | .ok shots => .ok shots)
    else .error .outside
  number : Scanned r → ∀ shotId, ∃ found, (r.findShotId f shotId).2 = .ok found ∧
    ∀ ordinal, found = some ordinal ↔ IsNumber f r.recordCount shotId ordinal
  bounded : r.cache.length ≤ limit
  scans : ∀ changed, (r.refresh py f).2 = .ok changed → Scanned (r.refresh py f).1
  stays : ∀ call ≠ Call.refresh, Scanned r → Scanned (r.answer py f call)

theorem Catalogued.answers (py : Python F) (h : Catalogued f r) : Answers py f r.cacheLimit r where
  record := by
    intro ordinal
    by_cases hlt : ordinal < r.recordCount
    · rw [if_pos hlt]
      exact (recordAt_exact h hlt).2.2
    · have hstop : r.recordAt f ordinal = (r, .error .outside) := if_pos (Nat.le_of_not_lt hlt)
      rw [if_neg hlt, hstop]
  records := by
    intro start stop
    by_cases hin : start ≤ stop ∧ stop ≤ r.recordCount
    · rw [if_pos hin]
      exact (decodeInto_exact h hin.1 hin.2).2.2
    · rw [if_neg hin, decodeInto_outside (by omega)]
  number := findShotId_exact h
  bounded := h.caches.bounded
  scans := (refresh_catalogued py h).2
  stays := by
    intro call hcall hscanned
    obtain ⟨-, hsame⟩ := answer_same py h hcall
    unfold Scanned
    rw [hsame.catalog.scannedCount, hsame.catalog.recordCount]
    exact hscanned

theorem answerAll_limit (py : Python F) {calls : List (Call × Files)}
    (hstart : ∀ c ∈ calls.head?, Catalogued c.2 r)
    (hgrows : (calls.map Prod.snd).Pairwise Grows) :
    (r.answerAll py calls).cacheLimit = r.cacheLimit := by
  induction calls generalizing r with
  | nil => rfl
  | cons call calls ih =>
    rw [List.map_cons, List.pairwise_cons] at hgrows
    have hone : (r.answer py call.2 call.1).cacheLimit = r.cacheLimit := by
      by_cases hcall : call.1 = .refresh
      · rw [hcall]
        exact refresh_limit py r call.2
      · exact (answer_same py (hstart call rfl) hcall).2.cacheLimit
    refine (ih (fun next hmem => ?_) hgrows.2).trans hone
    exact (answer_catalogued py (hstart call rfl) call.1).grows
      (hgrows.1 _ (List.mem_map_of_mem (List.mem_of_mem_head? hmem)))

/-- A client may look records up in any order, in between refreshes of a run that grows, and some of
the calls may raise: each look-up answers what the files hold at the call, through a cache that
never holds more than its limit, and once a refresh has returned the search for a shot finds its
record exactly when there is one. -/
theorem lookups_exact (py : Python F) (limit : ℕ) {calls : List (Call × Files)}
    (hgrows : (calls.map Prod.snd ++ [g]).Pairwise Grows) :
    Answers py g limit
      (({ cacheLimit := limit } : RunIndex F).answerAll py calls) := by
  have hcatalogued := answerAll_catalogued py (fun c _ => catalogued_start limit c.2)
    (fun _ => catalogued_start limit g) hgrows
  have hlimit := answerAll_limit py (fun c _ => catalogued_start limit c.2)
    (List.pairwise_append.mp hgrows).1
  have hanswers := hcatalogued.answers py
  rw [hlimit] at hanswers
  exact hanswers

/-- A run of one shot and then of two, with a cache of one record. -/
theorem lookups_exact_timed :
    Answers wholePython (timedRun [1000000000, 2000000000]) 1
      (({ cacheLimit := 1 } : RunIndex ℤ).answerAll wholePython
        [(.refresh, timedRun [1000000000]), (.recordAt 0, timedRun [1000000000]),
          (.refresh, timedRun [1000000000, 2000000000])]) := by
  refine lookups_exact wholePython 1 ?_
  have hgrows : Grows (timedRun [1000000000]) (timedRun [1000000000, 2000000000]) :=
    ⟨by decide +kernel, by decide⟩
  have hsame : Grows (timedRun [1000000000]) (timedRun [1000000000]) := ⟨List.prefix_rfl, le_rfl⟩
  have hlast : Grows (timedRun [1000000000, 2000000000]) (timedRun [1000000000, 2000000000]) :=
    ⟨List.prefix_rfl, le_rfl⟩
  show [timedRun [1000000000], timedRun [1000000000], timedRun [1000000000, 2000000000],
    timedRun [1000000000, 2000000000]].Pairwise Grows
  simp [hsame, hgrows, hlast]

end QCrate.Analyzer
