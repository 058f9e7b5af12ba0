import QCrate.Dma.BankPool

/-!
# What the changes of the pool do to its bank counts

Every change moves at most one bank to another state, or sends a whole class of banks to FREE.
The counters of READY and USER_OWNED banks are exact after every change; the counter of FREE
banks and the designation of the FILLING bank need more, because `qcrate_dma_release` resets
them whether or not a transaction is still in flight.

* `Pool.Counted` — what holds of the pool in every state of the driver.
* `Pool.Exact` — the full bookkeeping, as long as no bank was reset under a live transaction.
-/

namespace QCrate.Dma

open QCrate.Lib

/-! ## Words that count -/

theorem ofNat_succ (n : Nat) : BitVec.ofNat 32 (n + 1) = BitVec.ofNat 32 n + 1 :=
  BitVec.ofNat_add n 1

theorem ofNat_pred {m n : Nat} (h : n + 1 = m) : BitVec.ofNat 32 m - 1 = BitVec.ofNat 32 n := by
  rw [← h, ofNat_succ, BitVec.add_sub_cancel]

/-- A counter of banks is zero only when there are none. -/
theorem ofNat_eq_zero {n : Nat} (h : n ≤ maxPoolBanks) (h0 : BitVec.ofNat 32 n = 0) : n = 0 := by
  have := congrArg BitVec.toNat h0
  rw [BitVec.toNat_ofNat, Nat.mod_eq_of_lt (by unfold maxPoolBanks at h; omega)] at this
  exact this

namespace Pool

/-! ## Selection of a bank -/

/-- The bank that is found is free. -/
theorem findFree_spec {p : Pool} {i : Nat} (h : p.findFree = some i) :
    i < p.bankCount ∧ p.state i = .free := by
  have hm := List.mem_of_find?_eq_some h
  have hp := List.find?_some h
  exact ⟨List.mem_range.mp hm, by simpa using hp⟩

/-- The bank that is found is ready, unless it was there before. -/
theorem findReadyFrom_spec {p : Pool} {i : Nat} : ∀ {l : List Nat} {oldest : U64}
    {selected : Option Nat}, p.findReadyFrom l oldest selected = some i →
    selected = some i ∨ (i ∈ l ∧ p.state i = .ready)
  | [], _, _, h => .inl h
  | j :: l, _, _, h => by
    unfold findReadyFrom at h
    split at h
    · next hj =>
      rcases findReadyFrom_spec h with h | ⟨h, hs⟩
      · cases h
        exact .inr ⟨List.mem_cons_self, hj.1⟩
      · exact .inr ⟨List.mem_cons_of_mem _ h, hs⟩
    · rcases findReadyFrom_spec h with h | ⟨h, hs⟩
      · exact .inl h
      · exact .inr ⟨List.mem_cons_of_mem _ h, hs⟩

/-- The bank that is found is ready. -/
theorem findReady_spec {p : Pool} {i : Nat} (h : p.findReady = some i) :
    i < p.bankCount ∧ p.state i = .ready := by
  rcases findReadyFrom_spec h with h | ⟨h, hs⟩
  · cases h
  · exact ⟨List.mem_range.mp h, hs⟩

/-- No bank that is ready is older than the one that is found. -/
theorem findReadyFrom_least {p : Pool} {i : Nat} : ∀ {l : List Nat} {oldest : U64}
    {selected : Option Nat}, (∀ k, selected = some k → (p.bank k).sequence = oldest) →
    p.findReadyFrom l oldest selected = some i →
    (p.bank i).sequence ≤ oldest ∧
      ∀ j ∈ l, p.state j = .ready → (p.bank i).sequence ≤ (p.bank j).sequence
  | [], _, _, hsel, h => ⟨BitVec.le_of_eq (hsel i h), nofun⟩
  | j :: l, oldest, selected, hsel, h => by
    unfold findReadyFrom at h
    split at h
    · next hj =>
      obtain ⟨hle, hall⟩ := findReadyFrom_least (fun k hk => by cases hk; rfl) h
      refine ⟨BitVec.le_trans hle (BitVec.le_of_lt hj.2), fun k hk hs => ?_⟩
      rcases List.mem_cons.mp hk with rfl | hk
      · exact hle
      · exact hall k hk hs
    · next hj =>
      obtain ⟨hle, hall⟩ := findReadyFrom_least hsel h
      refine ⟨hle, fun k hk hs => ?_⟩
      rcases List.mem_cons.mp hk with rfl | hk
      · exact BitVec.le_trans hle (BitVec.not_lt.mp fun hlt => hj ⟨hs, hlt⟩)
      · exact hall k hk hs

/-- The bank that DEQUEUE returns has the least sequence of all READY banks. -/
theorem findReady_least {p : Pool} {i : Nat} (h : p.findReady = some i) :
    ∀ j < p.bankCount, p.state j = .ready → (p.bank i).sequence ≤ (p.bank j).sequence :=
  fun j hj => (findReadyFrom_least (by rintro k ⟨⟩) h).2 j (List.mem_range.mpr hj)

theorem count_le (p : Pool) (k : BankState) : p.count k ≤ p.bankCount := tally_le ..

/-- The four counts of a pool add up to the number of its banks. -/
theorem count_sum (p : Pool) :
    p.count .free + p.count .filling + p.count .ready + p.count .userOwned = p.bankCount := by
  unfold count
  induction p.bankCount with
  | zero => rfl
  | succ n ih =>
    rw [tally_succ, tally_succ, tally_succ, tally_succ]
    cases p.state n <;> simp <;> omega

/-! ## The counters that are always exact -/

structure Counted (p : Pool) : Prop where
  fits : p.bankCount ≤ maxPoolBanks
  ready : p.readyBanks = BitVec.ofNat 32 (p.count .ready)
  user : p.userBanks = BitVec.ofNat 32 (p.count .userOwned)
  /-- a live transaction fills a bank that is neither READY nor USER_OWNED -/
  target : p.dmaActive = true → p.fillingBank < p.bankCount ∧
    (p.state p.fillingBank = .free ∨ p.state p.fillingBank = .filling)

variable {p : Pool}

/-- The number of banks in a state fits its counter. -/
theorem Counted.count_lt (h : p.Counted) (k : BankState) : p.count k < 2 ^ 32 := by
  have h1 := p.count_le k
  have h2 := h.fits
  unfold maxPoolBanks at h2
  omega

/-- A zero counter means that there is no such bank. -/
theorem Counted.no_ready (h : p.Counted) (h0 : p.readyBanks = 0) :
    ∀ i < p.bankCount, p.state i ≠ .ready :=
  tally_eq_zero.mp (ofNat_eq_zero ((p.count_le .ready).trans h.fits) (h.ready ▸ h0))

/-- A counter at zero says that no bank is lent. -/
theorem Counted.no_user (h : p.Counted) (h0 : p.userBanks = 0) :
    ∀ i < p.bankCount, p.state i ≠ .userOwned :=
  tally_eq_zero.mp (ofNat_eq_zero ((p.count_le .userOwned).trans h.fits) (h.user ▸ h0))

theorem counted_init : Pool.init.Counted :=
  ⟨by decide, rfl, rfl, by simp [init]⟩

theorem Counted.fault (h : p.Counted) (e : Errno) : (p.fault e).Counted :=
  ⟨h.fits, h.ready, h.user, h.target⟩

theorem Counted.accountMissed (h : p.Counted) (missed : U32) : (p.accountMissed missed).Counted :=
  ⟨h.fits, h.ready, h.user, h.target⟩

theorem Counted.spoil (h : p.Counted) (result : PoolDequeue) : (p.spoil result).Counted :=
  ⟨h.fits, h.ready, h.user, h.target⟩

/-- The bank that is filled leaves the free ones. -/
theorem Counted.fill (h : p.Counted) {i : Nat} (hi : i < p.bankCount) (hs : p.state i = .free) :
    (p.fill i).Counted where
  fits := h.fits
  ready := by
    rw [show (p.fill i).count .ready = p.count .ready from
      tally_other hi (by simp [hs]) (by decide)]
    exact h.ready
  user := by
    rw [show (p.fill i).count .userOwned = p.count .userOwned from
      tally_other hi (by simp [hs]) (by decide)]
    exact h.user
  target _ := ⟨hi, .inr (setCell_same ..)⟩

/-- The target of a live transaction is in neither of the two counted states. -/
theorem Counted.target_ne (h : p.Counted) (ha : p.dmaActive = true) :
    p.state p.fillingBank ≠ .ready ∧ p.state p.fillingBank ≠ .userOwned := by
  rcases (h.target ha).2 with hs | hs <;> rw [hs] <;> decide

/-- The filling bank is free again. -/
theorem Counted.abandon (h : p.Counted) (ha : p.dmaActive = true) : p.abandon.Counted where
  fits := h.fits
  ready := by
    rw [show p.abandon.count .ready = p.count .ready from
      tally_other (h.target ha).1 (h.target_ne ha).1 (by decide)]
    exact h.ready
  user := by
    rw [show p.abandon.count .userOwned = p.count .userOwned from
      tally_other (h.target ha).1 (h.target_ne ha).2 (by decide)]
    exact h.user
  target := nofun

/-- The filling bank is ready. -/
theorem Counted.deliver (h : p.Counted) (ha : p.dmaActive = true) (result : PoolDequeue) :
    (p.deliver result).Counted where
  fits := h.fits
  ready := by
    rw [show (p.deliver result).count .ready = p.count .ready + 1 from
      tally_enter (h.target ha).1 (h.target_ne ha).1, ofNat_succ, ← h.ready]
    rfl
  user := by
    rw [show (p.deliver result).count .userOwned = p.count .userOwned from
      tally_other (h.target ha).1 (h.target_ne ha).2 (by decide)]
    exact h.user
  target := nofun

/-- A bank that was ready is lent. -/
theorem Counted.grant (h : p.Counted) {i : Nat} (hi : i < p.bankCount) (hs : p.state i = .ready) :
    (p.grant i).Counted where
  fits := h.fits
  ready := by
    have hc : (p.grant i).count .ready + 1 = p.count .ready := tally_leave hi hs (by decide)
    exact (congrArg (· - 1) h.ready).trans (ofNat_pred hc)
  user := by
    rw [show (p.grant i).count .userOwned = p.count .userOwned + 1 from
      tally_enter hi (by simp [hs]), ofNat_succ, ← h.user]
    rfl
  target ha := by
    have hne : p.fillingBank ≠ i := fun he => (h.target_ne ha).1 (he ▸ hs)
    have hst : (p.grant i).state p.fillingBank = p.state p.fillingBank := setCell_ne _ _ hne
    exact ⟨(h.target ha).1, hst ▸ (h.target ha).2⟩

/-- A bank that was lent is free again. -/
theorem Counted.takeBack (h : p.Counted) {i : Nat} (hi : i < p.bankCount)
    (hs : p.state i = .userOwned) : (p.takeBack i).Counted where
  fits := h.fits
  ready := by
    rw [show (p.takeBack i).count .ready = p.count .ready from
      tally_other hi (by simp [hs]) (by decide)]
    exact h.ready
  user := by
    have hc : (p.takeBack i).count .userOwned + 1 = p.count .userOwned :=
      tally_leave hi hs (by decide)
    exact (congrArg (· - 1) h.user).trans (ofNat_pred hc)
  target ha := by
    have hne : p.fillingBank ≠ i := fun he => (h.target_ne ha).2 (he ▸ hs)
    have hst : (p.takeBack i).state p.fillingBank = p.state p.fillingBank := setCell_ne _ _ hne
    exact ⟨(h.target ha).1, hst ▸ (h.target ha).2⟩

/-- Discarding empties READY and moves exactly those banks to FREE. -/
theorem discardReady_count (p : Pool) :
    p.discardReady.count .ready = 0 ∧
      p.discardReady.count .free = p.count .free + p.count .ready ∧
      ∀ k, k ≠ .ready → k ≠ .free → p.discardReady.count k = p.count k := by
  refine ⟨tally_eq_zero.mpr ?_, ?_, ?_⟩
  · intro i hi hs
    unfold discardReady at hs hi
    dsimp only at hs hi
    split at hs
    · cases hs
    · next h => exact h ⟨hi, hs⟩
  · show tally p.bankCount p.discardReady.state .free
      = tally p.bankCount p.state .free + tally p.bankCount p.state .ready
    have hst : ∀ i < p.bankCount, p.discardReady.state i
        = if p.state i = .ready then .free else p.state i := by
      intro i hi
      unfold discardReady
      simp only [hi, true_and]
    revert hst
    generalize p.discardReady.state = f
    induction p.bankCount with
    | zero => intro _; rfl
    | succ n ih =>
      intro hst
      rw [tally_succ, tally_succ, tally_succ, ih (fun i hi => hst i (by omega)),
        hst n (by omega)]
      cases p.state n <;> simp <;> omega
  · intro k hk hf
    refine tally_congr fun i hi => ?_
    unfold discardReady at hi ⊢
    dsimp only at hi ⊢
    split
    · next h =>
      rw [h.2]
      exact ⟨fun e => absurd e.symm hf, fun e => absurd e.symm hk⟩
    · exact Iff.rfl

/-- All banks that were ready are free, and the counter went down by their number. -/
theorem Counted.discardReady (h : p.Counted) : p.discardReady.Counted where
  fits := h.fits
  ready := by
    rw [(discardReady_count p).1]
    show p.readyBanks - BitVec.ofNat 32 (p.count .ready) = 0
    rw [h.ready, BitVec.sub_self]
    rfl
  user := by
    rw [(discardReady_count p).2.2 .userOwned (by decide) (by decide)]
    exact h.user
  target ha := by
    obtain ⟨hlt, hs⟩ := h.target ha
    have hst : p.discardReady.state p.fillingBank = p.state p.fillingBank :=
      if_neg fun hc => (h.target_ne ha).1 hc.2
    exact ⟨hlt, hst ▸ hs⟩

/-- A pool starts with all banks free. -/
theorem Counted.start (request : PoolStart) (timeoutMs : U32) (frameBytes bankBytes : Nat)
    (hb : request.bankCount.toNat ≤ maxPoolBanks) :
    (p.start request timeoutMs frameBytes bankBytes).Counted := by
  have hst : ∀ i < request.bankCount.toNat,
      (p.start request timeoutMs frameBytes bankBytes).state i = .free :=
    fun i hi => if_pos (by omega)
  refine ⟨hb, ?_, ?_, nofun⟩
  · rw [show (p.start request timeoutMs frameBytes bankBytes).count .ready = 0 from
      tally_eq_zero.mpr fun i hi => by rw [hst i hi]; decide]
    rfl
  · rw [show (p.start request timeoutMs frameBytes bankBytes).count .userOwned = 0 from
      tally_eq_zero.mpr fun i hi => by rw [hst i hi]; decide]
    rfl

theorem closeBanks_state {i : Nat} (hi : i < p.bankCount) : p.closeBanks.state i = .free :=
  if_pos hi

/-- All banks are free. -/
theorem Counted.closeBanks (h : p.Counted) : p.closeBanks.Counted where
  fits := h.fits
  ready := by
    rw [show p.closeBanks.count .ready = 0 from
      tally_eq_zero.mpr fun i hi => by rw [closeBanks_state (p := p) hi]; decide]
    rfl
  user := by
    rw [show p.closeBanks.count .userOwned = 0 from
      tally_eq_zero.mpr fun i hi => by rw [closeBanks_state (p := p) hi]; decide]
    rfl
  target ha := ⟨(h.target ha).1, .inl (closeBanks_state (h.target ha).1)⟩

/-! ## The full bookkeeping -/

structure Exact (p : Pool) : Prop extends p.Counted where
  free : p.freeBanks = BitVec.ofNat 32 (p.count .free)
  designated : p.dmaActive = true → p.state p.fillingBank = .filling
  nobody : p.dmaActive = false → p.fillingBank = bankNone
  only : ∀ i < p.bankCount, p.state i = .filling → p.dmaActive = true ∧ p.fillingBank = i

theorem exact_init : Pool.init.Exact :=
  ⟨counted_init, rfl, nofun, fun _ => rfl, nofun⟩

theorem Exact.fault (h : p.Exact) (e : Errno) : (p.fault e).Exact :=
  ⟨h.toCounted.fault e, h.free, h.designated, h.nobody, h.only⟩

theorem Exact.accountMissed (h : p.Exact) (missed : U32) : (p.accountMissed missed).Exact :=
  ⟨h.toCounted.accountMissed missed, h.free, h.designated, h.nobody, h.only⟩

theorem Exact.spoil (h : p.Exact) (result : PoolDequeue) : (p.spoil result).Exact :=
  ⟨h.toCounted.spoil result, h.free, h.designated, h.nobody, h.only⟩

/-- The bank that is filled is the only one. -/
theorem Exact.fill (h : p.Exact) {i : Nat} (hi : i < p.bankCount) (hs : p.state i = .free)
    (ha : p.dmaActive = false) : (p.fill i).Exact where
  toCounted := h.toCounted.fill hi hs
  free := by
    have hc : (p.fill i).count .free + 1 = p.count .free := tally_leave hi hs (by decide)
    exact (congrArg (· - 1) h.free).trans (ofNat_pred hc)
  designated _ := setCell_same ..
  nobody := nofun
  only j hj hf := by
    refine ⟨rfl, ?_⟩
    by_cases hji : j = i
    · exact hji.symm
    · rw [show (p.fill i).state j = p.state j from setCell_ne _ _ hji] at hf
      rw [(h.only j hj hf).1] at ha
      cases ha

/-- After the filling bank has left FILLING no bank is in that state. -/
theorem Exact.none_filling (h : p.Exact) {k : BankState} (hk : k ≠ .filling) :
    ∀ i < p.bankCount, setCell p.state p.fillingBank k i ≠ .filling := by
  intro i hi hf
  by_cases hif : i = p.fillingBank
  · rw [hif, setCell_same] at hf
    exact hk hf
  · rw [setCell_ne _ _ hif] at hf
    exact hif (h.only i hi hf).2.symm

/-- No bank is filling any more. -/
theorem Exact.abandon (h : p.Exact) (ha : p.dmaActive = true) : p.abandon.Exact where
  toCounted := h.toCounted.abandon ha
  free := by
    rw [show p.abandon.count .free = p.count .free + 1 from
      tally_enter (h.target ha).1 (by rw [h.designated ha]; decide), ofNat_succ, ← h.free]
    rfl
  designated := nofun
  nobody _ := rfl
  only i hi hf := absurd hf (h.none_filling (by decide) i hi)

/-- No bank is filling any more, and one more is ready. -/
theorem Exact.deliver (h : p.Exact) (ha : p.dmaActive = true) (result : PoolDequeue) :
    (p.deliver result).Exact where
  toCounted := h.toCounted.deliver ha result
  free := by
    rw [show (p.deliver result).count .free = p.count .free from
      tally_other (h.target ha).1 (by rw [h.designated ha]; decide) (by decide)]
    exact h.free
  designated := nofun
  nobody _ := rfl
  only i hi hf := absurd hf (h.none_filling (by decide) i hi)

/-- A bank that moves between two states other than FILLING leaves the designation alone. -/
theorem Exact.only_setCell (h : p.Exact) {i : Nat} {k : BankState} (hk : k ≠ .filling) :
    ∀ j < p.bankCount, setCell p.state i k j = .filling →
      p.dmaActive = true ∧ p.fillingBank = j := by
  intro j hj hf
  by_cases hji : j = i
  · rw [hji, setCell_same] at hf
    exact absurd hf hk
  · rw [setCell_ne _ _ hji] at hf
    exact h.only j hj hf

theorem Exact.grant (h : p.Exact) {i : Nat} (hi : i < p.bankCount) (hs : p.state i = .ready) :
    (p.grant i).Exact where
  toCounted := h.toCounted.grant hi hs
  free := by
    rw [show (p.grant i).count .free = p.count .free from
      tally_other hi (by simp [hs]) (by decide)]
    exact h.free
  designated ha := by
    have hne : p.fillingBank ≠ i := fun he => (h.target_ne ha).1 (he ▸ hs)
    exact (setCell_ne _ _ hne).trans (h.designated ha)
  nobody := h.nobody
  only := h.only_setCell (by decide)

theorem Exact.takeBack (h : p.Exact) {i : Nat} (hi : i < p.bankCount)
    (hs : p.state i = .userOwned) : (p.takeBack i).Exact where
  toCounted := h.toCounted.takeBack hi hs
  free := by
    rw [show (p.takeBack i).count .free = p.count .free + 1 from
      tally_enter hi (by simp [hs]), ofNat_succ, ← h.free]
    rfl
  designated ha := by
    have hne : p.fillingBank ≠ i := fun he => (h.target_ne ha).2 (he ▸ hs)
    exact (setCell_ne _ _ hne).trans (h.designated ha)
  nobody := h.nobody
  only := h.only_setCell (by decide)

theorem Exact.discardReady (h : p.Exact) : p.discardReady.Exact where
  toCounted := h.toCounted.discardReady
  free := by
    rw [(discardReady_count p).2.1, BitVec.ofNat_add, ← h.free]
    rfl
  designated ha := by
    have hst : p.discardReady.state p.fillingBank = p.state p.fillingBank :=
      if_neg fun hc => (h.target_ne ha).1 hc.2
    exact hst.trans (h.designated ha)
  nobody := h.nobody
  only i hi hf := by
    refine h.only i hi ?_
    unfold Pool.discardReady at hf
    dsimp only at hf
    split at hf
    · cases hf
    · exact hf

theorem Exact.start (request : PoolStart) (timeoutMs : U32) (frameBytes bankBytes : Nat)
    (hb : request.bankCount.toNat ≤ maxPoolBanks) :
    (p.start request timeoutMs frameBytes bankBytes).Exact := by
  have hst : ∀ i < request.bankCount.toNat,
      (p.start request timeoutMs frameBytes bankBytes).state i = .free :=
    fun i hi => if_pos (by omega)
  refine ⟨Counted.start request timeoutMs frameBytes bankBytes hb, ?_, nofun, fun _ => rfl,
    fun i hi hf => ?_⟩
  · have hc : (p.start request timeoutMs frameBytes bankBytes).count .free
        = request.bankCount.toNat :=
      (tally_congr fun i hi => by rw [hst i hi]).trans (tally_const _ BankState.free)
    rw [hc, BitVec.ofNat_toNat, BitVec.setWidth_eq]
    rfl
  · rw [hst i hi] at hf
    cases hf

/-- Closing keeps the books only when no transaction is in flight. -/
theorem Exact.closeBanks (h : p.Exact) (ha : p.dmaActive = false) : p.closeBanks.Exact where
  toCounted := h.toCounted.closeBanks
  free := by
    have hc : p.closeBanks.count .free = p.bankCount :=
      (tally_congr fun i hi => by rw [closeBanks_state (p := p) hi]).trans
        (tally_const _ BankState.free)
    rw [hc]
    rfl
  designated ht := by
    rw [show p.closeBanks.dmaActive = p.dmaActive from rfl, ha] at ht
    cases ht
  nobody := h.nobody
  only i hi hf := by
    rw [closeBanks_state (p := p) hi] at hf
    cases hf

end Pool

end QCrate.Dma
