import QCrate.Dma.PoolInvariant

/-!
# The tokens of the bank pool

DEQUEUE lends a bank under a token of bank, generation, run and sequence, and RELEASE takes back
what a token names. Banks are lent again and again, so what a token is worth depends on the whole
history of the run. A `Ledger` keeps that history: it looks only at what the clients see and at
the states of the banks before and after a step.

* `token_protocol` — in every pool run RELEASE frees a bank exactly for a token that is lent,
  DEQUEUE returns every production at most once and, while the sequence has not wrapped, in
  order, and the productions are accounted for.
* `sequence_wraps` — after 2^64 productions the order is lost.
-/

namespace QCrate.Dma

open QCrate.Lib Relation

/-! ## The ledger of a run -/

/-- The token in the result of a DEQUEUE. -/
def PoolDequeue.token (d : PoolDequeue) : PoolRelease :=
  ⟨d.bankIndex, d.bankGeneration, d.runId, d.bankSequence⟩

/-- The history of a pool run. Its productions are numbered from one. -/
structure Ledger where
  inRun : Bool := false
  produced : Nat := 0
  discarded : Nat := 0
  /-- the number of the last production of every bank -/
  holds : Nat → Nat := fun _ => 0
  /-- the productions DEQUEUE has returned, with their tokens, newest first -/
  returned : List (Nat × PoolRelease) := []
  /-- the tokens that were returned and have not freed a bank since -/
  live : List PoolRelease := []

/-- The bank that becomes READY between two states of the pool. -/
def producedBank (p q : Pool) : Option Nat :=
  (List.range p.bankCount).find? fun i => p.state i ≠ .ready ∧ q.state i = .ready

/-- The number of READY banks that become FREE. -/
def discardedBanks (p q : Pool) : Nat :=
  (List.range p.bankCount).countP fun i => p.state i = .ready ∧ q.state i = .free

/-- A bank in the hands of a client becomes FREE. -/
def Frees (p q : Pool) (i : Nat) : Prop :=
  i < p.bankCount ∧ p.state i = .userOwned ∧ q.state i = .free

instance (p q : Pool) (i : Nat) : Decidable (Frees p q i) :=
  inferInstanceAs (Decidable (_ ∧ _ ∧ _))

namespace Ledger

/-- A production, in bank `i`. -/
def produce (g : Ledger) (i : Nat) : Ledger :=
  { g with produced := g.produced + 1, holds := setCell g.holds i (g.produced + 1) }

/-- What the ledger learns from the states of the banks. -/
def record (g : Ledger) (p q : Pool) : Ledger :=
  let g := { g with discarded := g.discarded + discardedBanks p q }
  match producedBank p q with
  | some i => g.produce i
  | none => g

/-- DEQUEUE has returned `token`. -/
def lend (g : Ledger) (token : PoolRelease) : Ledger :=
  { g with
    returned := (g.holds token.bankIndex.toNat, token) :: g.returned
    live := token :: g.live }

/-- The ledger after a step. A POOL_START opens a new one; the end of close ends the run. -/
def next (g : Ledger) (s : Sys) (a : Action) (s' : Sys) : Ledger :=
  if resetsBanks s a then { g with inRun := false }
  else if s'.pool.nextRunId ≠ s.pool.nextRunId then { inRun := true }
  else
    let g := g.record s.pool s'.pool
    match a, s'.ret with
    | .poolDequeue _ _ _, some ⟨_, _, .dequeued d⟩ => g.lend d.token
    | .poolRelease r, _ =>
      if ∃ i < s.pool.bankCount, Frees s.pool s'.pool i then { g with live := g.live.erase r }
      else g
    | _, _ => g

end Ledger

/-- The driver with the ledger of its pool runs. -/
def audited (L : Limits) : Machine (Ledger × Sys) Action where
  step c a := (step L c.2 a).map fun s' => (c.1.next c.2 a s', s')

variable {L : Limits} {g : Ledger} {p q : Pool} {s s' : Sys} {i : Nat}

/-! ## What the clients hold -/

/-- Nothing of what a client has a token for, or could get one for, changes. -/
structure SameView (p q : Pool) : Prop where
  bankCount : q.bankCount = p.bankCount := by rfl
  runId : q.runId = p.runId := by rfl
  nextRunId : q.nextRunId = p.nextRunId := by rfl
  nextSequence : q.nextSequence = p.nextSequence := by rfl
  producedBanks : q.producedBanks = p.producedBanks := by rfl
  dequeuedBanks : q.dequeuedBanks = p.dequeuedBanks := by rfl
  ready : ∀ i, q.state i = .ready ↔ p.state i = .ready := by exact fun _ => Iff.rfl
  user : ∀ i, q.state i = .userOwned ↔ p.state i = .userOwned := by exact fun _ => Iff.rfl
  bank : ∀ i, p.state i = .ready ∨ p.state i = .userOwned → q.bank i = p.bank i := by
    exact fun _ _ => rfl

theorem SameView.trans {r : Pool} (h : SameView p q) (h' : SameView q r) : SameView p r where
  bankCount := h'.bankCount.trans h.bankCount
  runId := h'.runId.trans h.runId
  nextRunId := h'.nextRunId.trans h.nextRunId
  nextSequence := h'.nextSequence.trans h.nextSequence
  producedBanks := h'.producedBanks.trans h.producedBanks
  dequeuedBanks := h'.dequeuedBanks.trans h.dequeuedBanks
  ready i := (h'.ready i).trans (h.ready i)
  user i := (h'.user i).trans (h.user i)
  bank i hi := by
    have hi' := hi.imp (h.ready i).mpr (h.user i).mpr
    exact (h'.bank i hi').trans (h.bank i hi)

/-- A bank that neither was nor becomes `k` leaves the set of the banks that are. -/
theorem setCell_eq_iff {k b : BankState} (hs : p.state i ≠ k) (hb : b ≠ k) (j : Nat) :
    setCell p.state i b j = k ↔ p.state j = k := by
  by_cases hji : j = i
  · subst hji
    rw [setCell_same]
    exact ⟨fun h => absurd h hb, fun h => absurd h hs⟩
  · rw [setCell_ne _ _ hji]

theorem Pool.Work.sameView (h : p.Work q) (he : p.Exact) : SameView p q := by
  have hfilling := he.designated
  cases h with
  | fault e => exact {}
  | accountMissed missed => exact {}
  | report running stopping starved events now hr => exact {}
  | fill hi hs ha =>
    exact {
      ready := setCell_eq_iff (by rw [hs]; decide) (by decide)
      user := setCell_eq_iff (by rw [hs]; decide) (by decide)
      bank := fun j hj => setCell_ne _ _ (by rintro rfl; rw [hs] at hj; simp at hj) }
  | abandon ha =>
    exact {
      ready := setCell_eq_iff (by rw [hfilling ha]; decide) (by decide)
      user := setCell_eq_iff (by rw [hfilling ha]; decide) (by decide) }
  | spoil ha result =>
    exact {
      bank := fun j hj => setCell_ne _ _ (by rintro rfl; rw [hfilling ha] at hj; simp at hj) }

theorem Pool.Works.sameView (h : p.Works q) (he : p.Exact) : SameView p q ∧ q.Exact := by
  induction h with
  | refl => exact ⟨{}, he⟩
  | tail _ hw ih => exact ⟨ih.1.trans (hw.sameView ih.2), hw.change.exact ih.2⟩

/-- No section of the worker opens a run. -/
theorem Pool.Works.nextRunId (h : p.Works q) : q.nextRunId = p.nextRunId := by
  induction h with
  | refl => rfl
  | tail _ hw ih =>
    rw [← ih]
    cases hw <;> rfl

/-! ## The ledger agrees with the pool -/

/-- What the ledger of a run says about the pool while the run lasts. -/
structure Ledger.Agrees (g : Ledger) (p : Pool) : Prop where
  exact : p.Exact
  live : ∀ r, r ∈ g.live ↔ ∃ i < p.bankCount, p.state i = .userOwned ∧ r = p.token i
  nodup : g.live.Nodup
  result : ∀ i < p.bankCount, p.state i = .ready → (p.bank i).result.token = p.token i
  sequence : ∀ i < p.bankCount, p.state i = .ready →
    (p.bank i).sequence = BitVec.ofNat 64 (g.holds i)
  number : ∀ i < p.bankCount, p.state i = .ready → 0 < g.holds i ∧ g.holds i ≤ g.produced
  distinct : ∀ i < p.bankCount, ∀ j < p.bankCount, p.state i = .ready → p.state j = .ready →
    g.holds i = g.holds j → i = j
  returned : ∀ q ∈ g.returned, q.1 ≤ g.produced ∧ q.2.bankSequence = BitVec.ofNat 64 q.1
  once : ∀ q ∈ g.returned, ∀ i < p.bankCount, p.state i = .ready → q.1 ≠ g.holds i
  ordered : g.produced < 2 ^ 64 → ∀ q ∈ g.returned, ∀ i < p.bankCount, p.state i = .ready →
    q.1 < g.holds i
  nextSequence : p.nextSequence = BitVec.ofNat 64 (g.produced + 1)
  producedBanks : p.producedBanks = BitVec.ofNat 64 g.produced
  dequeuedBanks : p.dequeuedBanks = BitVec.ofNat 64 g.returned.length
  total : g.produced = g.returned.length + p.count .ready + g.discarded

theorem token_index (hi : i < maxPoolBanks) : (p.token i).bankIndex.toNat = i := by
  unfold maxPoolBanks at hi
  show (BitVec.ofNat 32 i).toNat = i
  rw [BitVec.toNat_ofNat, Nat.mod_eq_of_lt (by omega)]

namespace Ledger.Agrees

theorem sameView (h : g.Agrees p) (hv : SameView p q) (hq : q.Exact) : g.Agrees q := by
  have htoken : ∀ i, p.state i = .ready ∨ p.state i = .userOwned → q.token i = p.token i := by
    intro i hi
    unfold Pool.token
    rw [hv.bank i hi, hv.runId]
  obtain ⟨-, hlive, hnodup, hresult, hseq, hnum, hdist, hret, honce, hord, hnext, hprod, hdeq,
    htotal⟩ := h
  refine ⟨hq, fun r => ?_, hnodup, ?_, ?_, ?_, ?_, hret, ?_, ?_, ?_, ?_, ?_, ?_⟩
  · rw [hlive, hv.bankCount]
    refine exists_congr fun i => and_congr_right fun hi => ?_
    rw [hv.user]
    exact and_congr_right fun hs => by rw [htoken i (.inr hs)]
  · intro i hi hs
    rw [hv.bankCount] at hi
    rw [hv.ready] at hs
    rw [hv.bank i (.inl hs), htoken i (.inl hs)]
    exact hresult i hi hs
  · intro i hi hs
    rw [hv.bankCount] at hi
    rw [hv.ready] at hs
    rw [hv.bank i (.inl hs)]
    exact hseq i hi hs
  · simpa only [hv.bankCount, hv.ready] using hnum
  · simpa only [hv.bankCount, hv.ready] using hdist
  · simpa only [hv.bankCount, hv.ready] using honce
  · simpa only [hv.bankCount, hv.ready] using hord
  · rw [hv.nextSequence, hnext]
  · rw [hv.producedBanks, hprod]
  · rw [hv.dequeuedBanks, hdeq]
  · have hc : q.count .ready = p.count .ready := by
      unfold Pool.count
      rw [hv.bankCount]
      exact tally_congr fun i _ => hv.ready i
    rw [hc]
    exact htotal

/-- A new run: nothing is produced and nothing is lent. -/
theorem start (request : PoolStart) (timeoutMs : U32) (frameBytes bankBytes : Nat)
    (hb : request.bankCount.toNat ≤ maxPoolBanks) :
    Ledger.Agrees { inRun := true } (p.start request timeoutMs frameBytes bankBytes) := by
  have hfree : ∀ i < request.bankCount.toNat,
      (p.start request timeoutMs frameBytes bankBytes).state i = .free :=
    fun i hi => if_pos (by omega)
  have hready : ∀ i < request.bankCount.toNat,
      (p.start request timeoutMs frameBytes bankBytes).state i ≠ .ready :=
    fun i hi => by rw [hfree i hi]; decide
  refine ⟨.start request timeoutMs frameBytes bankBytes hb, fun r => ⟨nofun, ?_⟩, .nil,
    fun i hi hs => absurd hs (hready i hi), fun i hi hs => absurd hs (hready i hi),
    fun i hi hs => absurd hs (hready i hi), fun i hi _ _ hs => absurd hs (hready i hi), nofun,
    nofun, nofun, rfl, rfl, rfl, ?_⟩
  · rintro ⟨i, hi, hs, -⟩
    rw [hfree i hi] at hs
    cases hs
  · have h0 : (p.start request timeoutMs frameBytes bankBytes).count .ready = 0 :=
      tally_eq_zero.mpr hready
    rw [h0]
    rfl

/-- The filling bank is delivered. -/
theorem deliver (h : g.Agrees p) (ha : p.dmaActive = true) {result : PoolDequeue}
    (hindex : result.bankIndex = BitVec.ofNat 32 p.fillingBank)
    (hgen : result.bankGeneration = (p.bank p.fillingBank).generation) :
    (g.produce p.fillingBank).Agrees (p.deliver result) := by
  have hfill := h.exact.designated ha
  have hi := (h.exact.target ha).1
  have hne : ∀ {j}, j ≠ p.fillingBank → (p.deliver result).bank j = p.bank j :=
    fun hj => setCell_ne _ _ hj
  have htoken : ∀ {j}, j ≠ p.fillingBank → (p.deliver result).token j = p.token j := by
    intro j hj
    unfold Pool.token
    rw [hne hj]
    rfl
  have hheld : ∀ {j}, j ≠ p.fillingBank →
      (g.produce p.fillingBank).holds j = g.holds j := fun hj => setCell_ne _ _ hj
  have hnew : (g.produce p.fillingBank).holds p.fillingBank = g.produced + 1 := setCell_same ..
  have hready : ∀ {j}, j ≠ p.fillingBank → (p.deliver result).state j = .ready →
      p.state j = .ready := by
    intro j hj hs
    rwa [show (p.deliver result).state j = p.state j from setCell_ne _ _ hj] at hs
  refine ⟨h.exact.deliver ha result, fun r => ?_, h.nodup, fun j hj hs => ?_, fun j hj hs => ?_,
    fun j hj hs => ?_, fun j hj k hk hs hs' he => ?_, fun q hq => ?_, fun q hq j hj hs => ?_,
    fun hlt q hq j hj hs => ?_, ?_, ?_, h.dequeuedBanks, ?_⟩
  -- no bank changes hands
  · rw [show (g.produce p.fillingBank).live = g.live from rfl, h.live]
    refine exists_congr fun j => and_congr_right fun hj => ?_
    rw [show (p.deliver result).state j = .userOwned ↔ p.state j = .userOwned from
      setCell_eq_iff (by rw [hfill]; decide) (by decide) j]
    refine and_congr_right fun hs => ?_
    rw [htoken (by rintro rfl; rw [hfill] at hs; cases hs)]
  · by_cases hjf : j = p.fillingBank
    · subst hjf
      simp [Pool.token, PoolDequeue.token, Pool.deliver, hindex, hgen]
    · rw [hne hjf, htoken hjf]
      exact h.result j hj (hready hjf hs)
  · by_cases hjf : j = p.fillingBank
    · subst hjf
      rw [hnew, ← h.nextSequence]
      simp [Pool.deliver]
    · rw [hne hjf, hheld hjf]
      exact h.sequence j hj (hready hjf hs)
  · show 0 < _ ∧ _ ≤ g.produced + 1
    by_cases hjf : j = p.fillingBank
    · subst hjf
      rw [hnew]
      omega
    · rw [hheld hjf]
      have := h.number j hj (hready hjf hs)
      omega
  -- the new number is above the numbers of all READY banks
  · by_cases hjf : j = p.fillingBank
    · by_cases hkf : k = p.fillingBank
      · rw [hjf, hkf]
      · rw [hjf, hnew, hheld hkf] at he
        have := h.number k hk (hready hkf hs')
        omega
    · by_cases hkf : k = p.fillingBank
      · rw [hkf, hnew, hheld hjf] at he
        have := h.number j hj (hready hjf hs)
        omega
      · rw [hheld hjf, hheld hkf] at he
        exact h.distinct j hj k hk (hready hjf hs) (hready hkf hs') he
  · have := h.returned q hq
    exact ⟨this.1.trans (Nat.le_succ _), this.2⟩
  · have hle := (h.returned q hq).1
    by_cases hjf : j = p.fillingBank
    · rw [hjf, hnew]
      omega
    · rw [hheld hjf]
      exact h.once q hq j hj (hready hjf hs)
  · have hle := (h.returned q hq).1
    have hlt' : g.produced < 2 ^ 64 := Nat.lt_of_succ_lt hlt
    by_cases hjf : j = p.fillingBank
    · rw [hjf, hnew]
      omega
    · rw [hheld hjf]
      exact h.ordered hlt' q hq j hj (hready hjf hs)
  · show p.nextSequence + 1 = BitVec.ofNat 64 (g.produced + 1 + 1)
    rw [h.nextSequence, BitVec.ofNat_add (g.produced + 1) 1]
    rfl
  · show p.producedBanks + 1 = BitVec.ofNat 64 (g.produced + 1)
    rw [h.producedBanks, BitVec.ofNat_add]
    rfl
  -- one more bank is produced, and one more is READY
  · have hc : (p.deliver result).count .ready = p.count .ready + 1 :=
      tally_enter hi (by rw [hfill]; decide)
    have := h.total
    show g.produced + 1 = g.returned.length + _ + g.discarded
    omega

/-- A successful STOP discards what is READY. -/
theorem stopped (h : g.Agrees p) :
    Ledger.Agrees { g with discarded := g.discarded + p.count .ready } p.stopped := by
  have hready : ∀ i < p.bankCount, p.stopped.state i ≠ .ready :=
    tally_eq_zero.mp (Pool.discardReady_count p).1
  have hex := h.exact.discardReady
  refine ⟨⟨⟨hex.fits, hex.ready, hex.user, hex.target⟩, hex.free, hex.designated, hex.nobody,
    hex.only⟩, fun r => ?_, h.nodup, fun i hi hs => absurd hs (hready i hi),
    fun i hi hs => absurd hs (hready i hi), fun i hi hs => absurd hs (hready i hi),
    fun i hi _ _ hs => absurd hs (hready i hi), h.returned,
    fun _ _ i hi hs => absurd hs (hready i hi), fun _ _ _ i hi hs => absurd hs (hready i hi),
    h.nextSequence, h.producedBanks, h.dequeuedBanks, ?_⟩
  · rw [show ({ g with discarded := g.discarded + p.count .ready } : Ledger).live = g.live from rfl,
      h.live]
    refine exists_congr fun i => and_congr_right fun hi => ?_
    have hs : p.stopped.state i = .userOwned ↔ p.state i = .userOwned := by
      show (if i < p.bankCount ∧ p.state i = .ready then BankState.free else p.state i) = _ ↔ _
      split
      · next hr => simp [hr.2]
      · exact Iff.rfl
    rw [hs]
    rfl
  · have hc : p.stopped.count .ready = 0 := (Pool.discardReady_count p).1
    have := h.total
    rw [hc]
    show g.produced = g.returned.length + 0 + (g.discarded + p.count .ready)
    omega

/-- DEQUEUE lends the oldest READY bank. -/
theorem grant (h : g.Agrees p) (hfind : p.findReady = some i) :
    (g.lend (p.token i)).Agrees (p.grant i) := by
  obtain ⟨hi, hs⟩ := Pool.findReady_spec hfind
  have hindex : (p.token i).bankIndex.toNat = i :=
    token_index (Nat.lt_of_lt_of_le hi h.exact.fits)
  have hother : ∀ {j}, (p.grant i).state j = .ready → j ≠ i ∧ p.state j = .ready := by
    intro j hj
    have hji : j ≠ i := by
      rintro rfl
      rw [show (p.grant j).state j = .userOwned from setCell_same ..] at hj
      cases hj
    rw [show (p.grant i).state j = p.state j from setCell_ne _ _ hji] at hj
    exact ⟨hji, hj⟩
  refine ⟨h.exact.grant hi hs, fun r => ?_, ?_, fun j hj hr => h.result j hj (hother hr).2,
    fun j hj hr => h.sequence j hj (hother hr).2, fun j hj hr => h.number j hj (hother hr).2,
    fun j hj k hk hr hr' => h.distinct j hj k hk (hother hr).2 (hother hr').2, ?_, ?_, ?_,
    h.nextSequence, h.producedBanks, ?_, ?_⟩
  · show r ∈ p.token i :: g.live ↔
      ∃ j < p.bankCount, setCell p.state i .userOwned j = .userOwned ∧ r = p.token j
    rw [List.mem_cons, h.live]
    constructor
    · rintro (rfl | ⟨j, hj, hu, rfl⟩)
      · exact ⟨i, hi, setCell_same .., rfl⟩
      · refine ⟨j, hj, ?_, rfl⟩
        rwa [setCell_ne _ _ (by rintro rfl; rw [hs] at hu; cases hu)]
    · rintro ⟨j, hj, hu, rfl⟩
      by_cases hji : j = i
      · exact .inl (by rw [hji])
      · rw [setCell_ne _ _ hji] at hu
        exact .inr ⟨j, hj, hu, rfl⟩
  · refine List.nodup_cons.mpr ⟨fun hmem => ?_, h.nodup⟩
    obtain ⟨j, hj, hu, he⟩ := (h.live _).mp hmem
    have hij : i = j := by
      rw [← hindex, he, token_index (Nat.lt_of_lt_of_le hj h.exact.fits)]
    rw [← hij, hs] at hu
    cases hu
  · intro q hq
    rcases List.mem_cons.mp hq with rfl | hq
    · rw [hindex]
      exact ⟨(h.number i hi hs).2, h.sequence i hi hs⟩
    · exact h.returned q hq
  · intro q hq j hj hr
    obtain ⟨hji, hr⟩ := hother hr
    rcases List.mem_cons.mp hq with rfl | hq
    · rw [hindex]
      exact fun he => hji (h.distinct i hi j hj hs hr he).symm
    · exact h.once q hq j hj hr
  · intro hlt q hq j hj hr
    obtain ⟨hji, hr⟩ := hother hr
    have hlt' : g.produced < 2 ^ 64 := hlt
    rcases List.mem_cons.mp hq with rfl | hq
    · -- below the wrap the least sequence belongs to the oldest production
      have hle : g.holds i ≤ g.holds j := by
        have hseq := BitVec.le_def.mp (Pool.findReady_least hfind j hj hr)
        have hni := (h.number i hi hs).2
        have hnj := (h.number j hj hr).2
        rwa [h.sequence i hi hs, h.sequence j hj hr, BitVec.toNat_ofNat, BitVec.toNat_ofNat,
          Nat.mod_eq_of_lt (by omega), Nat.mod_eq_of_lt (by omega)] at hseq
      rw [hindex]
      exact Nat.lt_of_le_of_ne hle fun he => hji (h.distinct i hi j hj hs hr he).symm
    · exact h.ordered hlt' q hq j hj hr
  · show p.dequeuedBanks + 1 = BitVec.ofNat 64 (g.returned.length + 1)
    rw [h.dequeuedBanks, BitVec.ofNat_add]
    rfl
  · have hc : (p.grant i).count .ready + 1 = p.count .ready := tally_leave hi hs (by decide)
    have := h.total
    show g.produced = g.returned.length + 1 + _ + g.discarded
    omega

/-- RELEASE takes back the bank of a token that is lent. -/
theorem takeBack (h : g.Agrees p) (hi : i < p.bankCount) (hs : p.state i = .userOwned) :
    Ledger.Agrees { g with live := g.live.erase (p.token i) } (p.takeBack i) := by
  have hready : ∀ j, (p.takeBack i).state j = .ready ↔ p.state j = .ready :=
    setCell_eq_iff (by rw [hs]; decide) (by decide)
  refine ⟨h.exact.takeBack hi hs, fun r => ?_, h.nodup.erase _, ?_, ?_, ?_, ?_, h.returned, ?_,
    ?_, h.nextSequence, h.producedBanks, h.dequeuedBanks, ?_⟩
  · show r ∈ g.live.erase (p.token i) ↔
      ∃ j < p.bankCount, setCell p.state i .free j = .userOwned ∧ r = p.token j
    rw [h.nodup.mem_erase_iff, h.live]
    constructor
    · rintro ⟨hne, j, hj, hu, rfl⟩
      refine ⟨j, hj, ?_, rfl⟩
      rwa [setCell_ne _ _ (by rintro rfl; exact hne rfl)]
    · rintro ⟨j, hj, hu, rfl⟩
      have hji : j ≠ i := by
        rintro rfl
        rw [setCell_same] at hu
        cases hu
      rw [setCell_ne _ _ hji] at hu
      refine ⟨fun he => hji ?_, j, hj, hu, rfl⟩
      rw [← token_index (p := p) (Nat.lt_of_lt_of_le hj h.exact.fits), he,
        token_index (Nat.lt_of_lt_of_le hi h.exact.fits)]
  · exact fun j hj hr => h.result j hj ((hready j).mp hr)
  · exact fun j hj hr => h.sequence j hj ((hready j).mp hr)
  · exact fun j hj hr => h.number j hj ((hready j).mp hr)
  · exact fun j hj k hk hr hr' => h.distinct j hj k hk ((hready j).mp hr) ((hready k).mp hr')
  · exact fun q hq j hj hr => h.once q hq j hj ((hready j).mp hr)
  · exact fun hlt q hq j hj hr => h.ordered hlt q hq j hj ((hready j).mp hr)
  · have hc : (p.takeBack i).count .ready = p.count .ready :=
      tally_other hi (by rw [hs]; decide) (by decide)
    rw [hc]
    exact h.total

end Ledger.Agrees

/-! ## What the ledger records of a step -/

theorem record_eq (hp : ∀ i < p.bankCount, q.state i = .ready → p.state i = .ready) :
    g.record p q = { g with discarded := g.discarded + discardedBanks p q } := by
  have hnone : producedBank p q = none := by
    refine List.find?_eq_none.mpr fun i hi => ?_
    simp only [ne_eq, decide_eq_true_eq, not_and]
    exact fun hs hr => hs (hp i (List.mem_range.mp hi) hr)
  unfold Ledger.record
  rw [hnone]

theorem discardedBanks_eq_zero (hd : ∀ i < p.bankCount, p.state i = .ready → q.state i ≠ .free) :
    discardedBanks p q = 0 := by
  refine List.countP_eq_zero.mpr fun i hi => ?_
  simp only [decide_eq_true_eq, not_and]
  exact hd i (List.mem_range.mp hi)

/-- No bank becomes READY and none is discarded. -/
theorem record_same (hp : ∀ i < p.bankCount, q.state i = .ready → p.state i = .ready)
    (hd : ∀ i < p.bankCount, p.state i = .ready → q.state i ≠ .free) : g.record p q = g := by
  rw [record_eq hp, discardedBanks_eq_zero hd]
  rfl

theorem SameView.record (h : SameView p q) : g.record p q = g :=
  record_same (fun i _ => (h.ready i).mp) fun i _ hs => by
    rw [(h.ready i).mpr hs]
    decide

theorem record_deliver (h : p.Exact) (ha : p.dmaActive = true) (result : PoolDequeue)
    (missed : U32) :
    g.record p ((p.accountMissed missed).deliver result) = g.produce p.fillingBank := by
  have hfill := h.designated ha
  have hst : ∀ i, ((p.accountMissed missed).deliver result).state i
      = setCell p.state p.fillingBank .ready i := fun _ => rfl
  have hsome : producedBank p ((p.accountMissed missed).deliver result)
      = some p.fillingBank := by
    refine List.find?_range_eq_some.mpr ⟨?_, List.mem_range.mpr (h.target ha).1, fun j hj => ?_⟩
    · rw [hst, setCell_same, hfill]
      rfl
    · rw [hst, setCell_ne _ _ (by omega)]
      simp
  have hnone : discardedBanks p ((p.accountMissed missed).deliver result) = 0 :=
    discardedBanks_eq_zero fun i hi hs => by
      rw [hst, setCell_ne _ _ (by rintro rfl; rw [hfill] at hs; cases hs), hs]
      decide
  unfold Ledger.record
  rw [hsome, hnone]
  rfl

theorem record_stopped (hv : SameView p q) :
    g.record p q.stopped = { g with discarded := g.discarded + q.count .ready } := by
  have hst : ∀ i < p.bankCount, q.stopped.state i
      = if q.state i = .ready then BankState.free else q.state i := by
    intro i hi
    show (if i < q.bankCount ∧ q.state i = .ready then BankState.free else q.state i) = _
    rw [hv.bankCount]
    simp only [hi, true_and]
  have hd : discardedBanks p q.stopped = q.count .ready := by
    unfold discardedBanks Pool.count tally
    rw [hv.bankCount]
    refine List.countP_congr fun i hi => ?_
    rw [hst i (List.mem_range.mp hi)]
    simp only [decide_eq_true_eq, ← hv.ready]
    exact ⟨And.left, fun hr => ⟨hr, if_pos hr⟩⟩
  rw [record_eq, hd]
  intro i hi hs
  rw [hst i hi] at hs
  split at hs
  · cases hs
  next hne => exact absurd hs hne

/-! ## The steps of the clients -/

theorem dequeue_step {timeoutMs status : U32} {outcome : WaitOutcome}
    (h : step L s (.poolDequeue timeoutMs outcome status) = some s') :
    (∃ e, s' = s.quiet.returns .poolDequeue (some e)) ∨
    ∃ i, s.pool.findReady = some i ∧ s' = { s.quiet with pool := s.pool.grant i }.returns
      .poolDequeue none
      (.dequeued { (s.pool.bank i).result with poolFlags := s.pool.flags status }) := by
  cases step_fires h with
  | poolDequeue => exact poolDequeue_cases timeoutMs outcome status

theorem release_step {release : PoolRelease} (h : step L s (.poolRelease release) = some s') :
    (¬ (release.bankIndex.toNat < s.pool.bankCount ∧
        s.pool.state release.bankIndex.toNat = .userOwned ∧
        release = s.pool.token release.bankIndex.toNat) ∧
      s' = s.quiet.returns .poolRelease (some .estale)) ∨
    (release.bankIndex.toNat < s.pool.bankCount ∧
      s.pool.state release.bankIndex.toNat = .userOwned ∧
      release = s.pool.token release.bankIndex.toNat ∧
      s'.pool = s.pool.takeBack release.bankIndex.toNat) := by
  cases step_fires h with
  | poolRelease => exact poolReleaseBank_cases (s := s.quiet) release

/-- A token is lent exactly when it is the token of a bank in the hands of a client. -/
theorem Ledger.Agrees.mem_live (h : g.Agrees p) {r : PoolRelease} :
    r ∈ g.live ↔ r.bankIndex.toNat < p.bankCount ∧ p.state r.bankIndex.toNat = .userOwned ∧
      r = p.token r.bankIndex.toNat := by
  rw [h.live]
  constructor
  · rintro ⟨i, hi, hs, rfl⟩
    rw [token_index (Nat.lt_of_lt_of_le hi h.exact.fits)]
    exact ⟨hi, hs, rfl⟩
  · rintro ⟨hi, hs, he⟩
    exact ⟨_, hi, hs, he⟩

theorem not_frees_self : ¬ Frees p p i := by
  rintro ⟨-, hs, hf⟩
  rw [hs] at hf
  cases hf

theorem frees_takeBack {j : Nat} (hj : j < p.bankCount) (hs : p.state j = .userOwned) :
    Frees p (p.takeBack j) i ↔ i = j := by
  constructor
  · rintro ⟨-, hu, hf⟩
    by_contra hij
    rw [show (p.takeBack j).state i = p.state i from setCell_ne _ _ hij, hu] at hf
    cases hf
  · rintro rfl
    exact ⟨hj, hs, setCell_same ..⟩

/-! ## One step -/

theorem next_section {a : Action} (hc : a.isClient = false)
    (hrun : s'.pool.nextRunId = s.pool.nextRunId) (hres : resetsBanks s a = false) :
    g.next s a s' = g.record s.pool s'.pool := by
  unfold Ledger.next
  rw [hres, if_neg Bool.false_ne_true, if_neg (not_not.mpr hrun)]
  cases a <;> first | rfl | cases hc

/-- A section other than DEQUEUE, RELEASE and close keeps the agreement. -/
theorem agrees_turn {a : Action} (hc : a.isClient = false) (ht : s.pool.Turn s'.pool)
    (hres : resetsBanks s a = false) (h : g.inRun = true → g.Agrees s.pool)
    (hin : (g.next s a s').inRun = true) : (g.next s a s').Agrees s'.pool := by
  by_cases hrun : s'.pool.nextRunId = s.pool.nextRunId
  · rw [next_section hc hrun hres] at hin ⊢
    have hg : g.Agrees s.pool := h (by
      unfold Ledger.record at hin
      split at hin <;> exact hin)
    generalize hq : s'.pool = q at ht hrun ⊢
    cases ht with
    | works hw =>
      obtain ⟨hv, he⟩ := hw.sameView hg.exact
      rw [hv.record]
      exact hg.sameView hv he
    | stops hw =>
      obtain ⟨hv, he⟩ := hw.sameView hg.exact
      rw [record_stopped hv]
      exact (hg.sameView hv he).stopped
    | delivers ha missed r ev =>
      rw [record_deliver hg.exact ha]
      have hm : g.Agrees (s.pool.accountMissed missed) :=
        hg.sameView {} (hg.exact.accountMissed missed)
      exact hm.deliver ha rfl rfl
    | starts request timeoutMs frameBytes bankBytes _ hb hw =>
      obtain ⟨hv, -⟩ := hw.sameView (.start request timeoutMs frameBytes bankBytes hb)
      have hnew : q.nextRunId = s.pool.nextRunId + 1 := hv.nextRunId
      rw [hnew] at hrun
      exact absurd hrun (by bv_omega)
  · unfold Ledger.next
    rw [hres, if_neg Bool.false_ne_true, if_pos hrun]
    generalize s'.pool = q at ht hrun ⊢
    cases ht with
    | starts request timeoutMs frameBytes bankBytes _ hb hw =>
      obtain ⟨hv, he⟩ := hw.sameView (.start request timeoutMs frameBytes bankBytes hb)
      exact (Ledger.Agrees.start request timeoutMs frameBytes bankBytes hb).sameView hv he
    | works hw => exact absurd hw.nextRunId hrun
    | stops hw => exact absurd hw.nextRunId hrun
    | delivers ha missed r ev => exact absurd rfl hrun

/-- What DEQUEUE does to the ledger. -/
theorem next_dequeue {timeoutMs status : U32} {outcome : WaitOutcome}
    (hi : s.pool.findReady = some i) {d : PoolDequeue}
    (hs' : s' = { s.quiet with pool := s.pool.grant i }.returns
      .poolDequeue none (.dequeued d)) :
    g.next s (.poolDequeue timeoutMs outcome status) s' = g.lend d.token := by
  have hs := (Pool.findReady_spec hi).2
  have hsame : g.record s.pool (s.pool.grant i) = g := by
    refine record_same (fun j _ hj => ?_) fun j _ hj => ?_
    · by_cases hji : j = i
      · rw [hji]
        exact hs
      · rwa [show (s.pool.grant i).state j = s.pool.state j from setCell_ne _ _ hji] at hj
    · by_cases hji : j = i
      · rw [hji, show (s.pool.grant i).state i = .userOwned from setCell_same ..]
        decide
      · rw [show (s.pool.grant i).state j = s.pool.state j from setCell_ne _ _ hji, hj]
        decide
  subst hs'
  unfold Ledger.next
  rw [if_neg (by exact Bool.false_ne_true), if_neg (by exact fun h => h rfl)]
  exact congrArg (Ledger.lend · d.token) hsame

/-- A failed ioctl of a client leaves the ledger alone. -/
theorem next_failed {a : Action} (hc : a.isClient = true) {op : Op} {e : Errno}
    (hs' : s' = s.quiet.returns op (some e)) : g.next s a s' = g := by
  have hsame : g.record s.pool s.pool = g := SameView.record {}
  have hfree : ¬ ∃ i < s.pool.bankCount, Frees s.pool s.pool i := fun ⟨_, _, h⟩ => not_frees_self h
  subst hs'
  cases a with
  | poolDequeue timeoutMs outcome status =>
    unfold Ledger.next
    rw [if_neg (by exact Bool.false_ne_true), if_neg (by exact fun h => h rfl)]
    exact hsame
  | poolRelease release =>
    unfold Ledger.next
    rw [if_neg (by exact Bool.false_ne_true), if_neg (by exact fun h => h rfl)]
    show (if ∃ i < s.pool.bankCount, Frees s.pool s.pool i then _ else g.record s.pool s.pool) = g
    rw [if_neg hfree]
    exact hsame
  | _ => cases hc

theorem next_release {release : PoolRelease} (hi : release.bankIndex.toNat < s.pool.bankCount)
    (hs : s.pool.state release.bankIndex.toNat = .userOwned)
    (hp : s'.pool = s.pool.takeBack release.bankIndex.toNat) :
    g.next s (.poolRelease release) s' = { g with live := g.live.erase release } := by
  have hsame : g.record s.pool (s.pool.takeBack release.bankIndex.toNat) = g := by
    have hready : ∀ j, (s.pool.takeBack release.bankIndex.toNat).state j = .ready ↔
        s.pool.state j = .ready := setCell_eq_iff (by rw [hs]; decide) (by decide)
    refine record_same (fun j _ => (hready j).mp) fun j _ hj => ?_
    rw [(hready j).mpr hj]
    decide
  unfold Ledger.next
  rw [hp, if_neg (by exact Bool.false_ne_true), if_neg (by exact fun h => h rfl)]
  simp only
  rw [hsame, if_pos ⟨_, hi, (frees_takeBack hi hs).mpr rfl⟩]

theorem agrees_step {a : Action} (hm : Modes L s) (h : g.inRun = true → g.Agrees s.pool)
    (hstep : step L s a = some s') (hin : (g.next s a s').inRun = true) :
    (g.next s a s').Agrees s'.pool := by
  cases hc : a.isClient with
  | false =>
    cases hres : resetsBanks s a with
    | true =>
      unfold Ledger.next at hin
      rw [if_pos hres] at hin
      cases hin
    | false =>
      rcases turn_step hm hstep hc with ht | ⟨hr, -⟩
      · exact agrees_turn hc ht hres h hin
      · rw [hres] at hr
        cases hr
  | true =>
    cases a with
    | poolDequeue timeoutMs outcome status =>
      rcases dequeue_step hstep with ⟨e, he⟩ | ⟨i, hi, he⟩
      · rw [next_failed hc he] at hin ⊢
        rw [he]
        exact h hin
      · rw [next_dequeue hi he] at hin ⊢
        have hg := h hin
        have htoken := hg.result i (Pool.findReady_spec hi).1 (Pool.findReady_spec hi).2
        rw [he, show (PoolDequeue.token { (s.pool.bank i).result with
          poolFlags := s.pool.flags status }) = s.pool.token i from htoken]
        exact hg.grant hi
    | poolRelease release =>
      rcases release_step hstep with ⟨-, he⟩ | ⟨hi, hs, ht, hp⟩
      · rw [next_failed hc he] at hin ⊢
        rw [he]
        exact h hin
      · rw [next_release hi hs hp] at hin ⊢
        rw [hp]
        have hb := (h hin).takeBack hi hs
        rw [← ht] at hb
        exact hb
    | _ => cases hc

/-! ## Runs -/

theorem agrees_run {l : List Action} (hrun : (audited L).run ({}, .init) l = some (g, s))
    (hin : g.inRun = true) : g.Agrees s.pool := by
  have hinv : Modes L s ∧ (g.inRun = true → g.Agrees s.pool) :=
    Machine.Reachable.invariant
      (I := fun c : Ledger × Sys => Modes L c.2 ∧ (c.1.inRun = true → c.1.Agrees c.2.pool))
      ⟨l, hrun⟩ ⟨modes_init, nofun⟩ fun c a c' hc hst => by
        obtain ⟨s', hs', rfl⟩ := Option.map_eq_some_iff.mp hst
        exact ⟨modes_step hc.1 hs', agrees_step hc.1 hc.2 hs'⟩
  exact hinv.2 hin

/-- The token protocol of a pool run, after every history of it. -/
theorem token_protocol {l : List Action} (hrun : (audited L).run ({}, .init) l = some (g, s))
    (hin : g.inRun = true) :
    (∀ release s', step L s (.poolRelease release) = some s' →
      (∀ i, Frees s.pool s'.pool i ↔ release ∈ g.live ∧ release.bankIndex.toNat = i) ∧
      (release ∉ g.live → s' = s.quiet.returns .poolRelease (some .estale))) ∧
    (∀ timeoutMs outcome status s' d,
      step L s (.poolDequeue timeoutMs outcome status) = some s' →
      s'.ret = some ⟨.poolDequeue, none, .dequeued d⟩ →
      ∃ n, 0 < n ∧ n ≤ g.produced ∧ g.next s (.poolDequeue timeoutMs outcome status) s'
          = { g with returned := (n, d.token) :: g.returned, live := d.token :: g.live } ∧
        (∀ q ∈ g.returned, q.1 ≠ n) ∧
        (g.produced < 2 ^ 64 → ∀ q ∈ g.returned, q.2.bankSequence < d.bankSequence)) ∧
    g.produced = g.returned.length + s.pool.count .ready + g.discarded ∧
    s.pool.producedBanks
      = s.pool.dequeuedBanks + s.pool.readyBanks.setWidth 64 + BitVec.ofNat 64 g.discarded := by
  have hg := agrees_run hrun hin
  refine ⟨fun release s' hstep => ?_, fun timeoutMs outcome status s' d hstep hd => ?_, hg.total,
    ?_⟩
  -- a release frees the bank of a live token and no other
  · rw [hg.mem_live]
    rcases release_step hstep with ⟨hno, rfl⟩ | ⟨hi, hs, ht, hp⟩
    · exact ⟨fun i => ⟨fun h => absurd h not_frees_self, fun h => absurd h.1 hno⟩, fun _ => rfl⟩
    · rw [hp]
      refine ⟨fun i => ?_, fun hno => absurd ⟨hi, hs, ht⟩ hno⟩
      rw [frees_takeBack hi hs]
      exact ⟨fun h => ⟨⟨hi, hs, ht⟩, h.symm⟩, fun h => h.2.symm⟩
  -- a dequeue hands out the READY bank with the least sequence
  · rcases dequeue_step hstep with ⟨e, rfl⟩ | ⟨i, hfind, he⟩
    · cases hd
    · obtain ⟨hi, hs⟩ := Pool.findReady_spec hfind
      have hnext : g.next s (.poolDequeue timeoutMs outcome status) s' = _ := next_dequeue hfind he
      rw [he] at hd
      cases hd
      have htoken := hg.result i hi hs
      have hindex : ((s.pool.bank i).result.token).bankIndex.toNat = i := by
        rw [htoken]
        exact token_index (Nat.lt_of_lt_of_le hi hg.exact.fits)
      have hnum := hg.number i hi hs
      refine ⟨g.holds i, hnum.1, hnum.2, ?_, fun q hq => hg.once q hq i hi hs, fun hlt q hq => ?_⟩
      · rw [hnext]
        unfold Ledger.lend
        rw [show (PoolDequeue.token { (s.pool.bank i).result with
          poolFlags := s.pool.flags status }).bankIndex.toNat = i from hindex]
      · have hseq : (s.pool.bank i).result.bankSequence = BitVec.ofNat 64 (g.holds i) := by
          rw [← hg.sequence i hi hs]
          exact congrArg PoolRelease.bankSequence htoken
        have hord := hg.ordered hlt q hq i hi hs
        show q.2.bankSequence < (s.pool.bank i).result.bankSequence
        rw [(hg.returned q hq).2, hseq, BitVec.lt_def, BitVec.toNat_ofNat, BitVec.toNat_ofNat,
          Nat.mod_eq_of_lt (by omega), Nat.mod_eq_of_lt (by omega)]
        exact hord
  · rw [hg.producedBanks, hg.dequeuedBanks, hg.exact.ready, hg.total, BitVec.ofNat_add,
      BitVec.ofNat_add]
    have hlt := hg.exact.count_lt .ready
    congr 2
    apply BitVec.eq_of_toNat_eq
    rw [BitVec.toNat_setWidth, BitVec.toNat_ofNat, BitVec.toNat_ofNat]
    omega

/-- `token_protocol` after a bank has been delivered and dequeued. -/
theorem token_protocol_poolSession : ∃ g s,
    (audited smallDevice).run ({}, .init) (poolSession.take 9) = some (g, s) ∧
    g.produced = g.returned.length + s.pool.count .ready + g.discarded := by
  have hany : (((audited smallDevice).run ({}, .init) (poolSession.take 9)).any
      fun c => c.1.inRun) = true := by decide +kernel
  obtain ⟨c, hrun, hin⟩ := (Option.any_eq_true _ _).mp hany
  exact ⟨c.1, c.2, hrun, (token_protocol hrun hin).2.2.1⟩

/-! ## When the sequence wraps

A pool of two banks on which every bank is delivered, dequeued and released at once. The sequence
of the last bank before the wrap is the start value of the search for the oldest bank, so that
bank is never selected, and the one after it has sequence zero. -/

/-- Bank `b` of two is being filled, bank `1 - b` is in state `k`. -/
structure Spins (b : Nat) (k : BankState) (n : U64) (s : Sys) : Prop where
  file : s.file = .opened
  lock : s.lock = none
  worker : s.worker = none
  noStop : s.poolEvents.stop = false
  inflight : s.inflight ≠ []
  running : s.pool.running = true
  faulted : s.pool.faulted = false
  dmaActive : s.pool.dmaActive = true
  bankCount : s.pool.bankCount = 2
  bank : b < 2
  fillingBank : s.pool.fillingBank = b
  frameBytes : s.pool.frameBytes = 4
  frameLengthWords : s.pool.frameLengthWords = 1
  frameCount : s.pool.frameCount = 1
  nextSequence : s.pool.nextSequence = n
  filling : s.pool.state b = .filling
  other : s.pool.state (1 - b) = k

variable {n : U64} {b : Nat} {k : BankState}

theorem poolFinalizeLocked_ok (ha : s.pool.dmaActive = true)
    (hb : s.pool.fillingBank < s.pool.bankCount) (hbytes : s.pool.frameBytes = 4)
    (hwords : s.pool.frameLengthWords = 1) (hframes : s.pool.frameCount = 1)
    (hr : s.result = ⟨.noError, 0⟩) :
    poolFinalizeLocked ⟨oneWordEvidence, 0, 0⟩ s = (none, { s with
      pool := (s.pool.accountMissed 0).deliver
        (s.pool.collect s.result oneWordEvidence) }.write controlSoftReset) := by
  have h1 : complete oneWordEvidence.status = true := by decide
  have h2 : framesDelivered ⟨.noError, 0⟩ 4 oneWordEvidence 1 1 = true := by decide
  have h3 : triggeredOnce oneWordEvidence = true := by decide
  have h4 : idle 0 = true := by decide
  unfold poolFinalizeLocked
  rw [if_neg (by rw [ha]; simp; omega)]
  simp only [hr, hbytes, hwords, hframes, h1, h2, h3, h4, Bool.not_true, Bool.false_eq_true,
    if_false, Bool.and_self, if_true]

/-- The action neither opens nor ends a pool run. -/
def Action.keepsRun : Action → Bool
  | .poolStart _ _ _ | .closeFile | .closeCancel _ | .cancelDone _ _ _ => false
  | _ => true

/-- The driver goes from one state to the other within a pool run. -/
def Stays (L : Limits) (s s' : Sys) : Prop :=
  ∃ l, (∀ a ∈ l, a.keepsRun = true) ∧ (driver L).run s l = some s'

theorem Stays.trans {s₁ : Sys} (h : Stays L s s₁) (h' : Stays L s₁ s') : Stays L s s' := by
  obtain ⟨l, hl, hrun⟩ := h
  obtain ⟨l', hl', hrun'⟩ := h'
  refine ⟨l ++ l', fun a ha => ?_, Machine.run_trans hrun hrun'⟩
  rcases List.mem_append.mp ha with ha | ha
  · exact hl a ha
  · exact hl' a ha

theorem Stays.step {a : Action} (ha : a.keepsRun = true) (h : step L s a = some s') :
    Stays L s s' :=
  ⟨[a], by simpa using ha, Machine.run_of_step _ h⟩

theorem completion_steps (h : Spins b k n s) : ∃ s', Stays L s s' ∧
    s'.file = .opened ∧ s'.lock = some .workerArm ∧ s'.poolEvents = {} ∧
    s'.pool = (({ s.pool with dmaCompletionNs := 0 } : Pool).accountMissed 0).deliver
      (({ s.pool with dmaCompletionNs := 0 } : Pool).collect ⟨.noError, 0⟩ oneWordEvidence) := by
  obtain ⟨t, rest, hin⟩ := List.exists_cons_of_ne_nil h.inflight
  let s₁ : Sys := { s.quiet with
    inflight := rest, result := ⟨.noError, 0⟩
    pool := { s.pool with dmaCompletionNs := 0 }
    poolEvents := { s.poolEvents with dmaDone := true } }
  have h₁ : step L s (.dmaComplete ⟨.noError, 0⟩ 0) = some s₁ := by
    simp [step, dmaComplete, Sys.quiet, hin, h.dmaActive, s₁]
  let s₂ : Sys := { s₁.quiet with worker := some s₁.poolEvents, poolEvents := {} }
  have h₂ : step L s₁ .workerFetch = some s₂ := by
    simp [step, s₁, s₂, Sys.quiet, h.worker, Events.pending]
  have h₃ : step L s₂ (.workerRun ⟨oneWordEvidence, 0, 0⟩)
      = some (workerRun true ⟨oneWordEvidence, 0, 0⟩ s₂.quiet) := by
    simp [step, s₁, s₂, Sys.quiet, h.lock, h.noStop]
  have h₄ := poolFinalizeLocked_ok (s := s₂.quiet) h.dmaActive
    (by rw [show s₂.quiet.pool.fillingBank = b from h.fillingBank]; exact h.bankCount ▸ h.bank)
    h.frameBytes h.frameLengthWords h.frameCount rfl
  refine ⟨_, .trans (.step rfl h₁) (.trans (.step rfl h₂) (.step rfl h₃)), ?_⟩
  have ha : s₂.quiet.pool.dmaActive = true := h.dmaActive
  unfold workerRun
  rw [ha, h₄]
  exact ⟨h.file, rfl, rfl, rfl⟩

theorem workerArmNext_ok (hl : s.lock = some .workerArm) (hr : s.pool.running = true)
    (hf : s.pool.faulted = false) (ha : s.pool.dmaActive = false)
    (hi : s.pool.findFree = some i) : ∃ s', step L s (.workerArmNext {}) = some s' ∧
      s'.file = s.file ∧ s'.lock = some (.poolArmPoll .worker) ∧ s'.poolEvents = s.poolEvents ∧
      s'.inflight ≠ [] ∧ s'.pool = (s.pool.accountMissed 0).fill i := by
  have hs := (Pool.findFree_spec hi).2
  have h1 : idle 0#32 = true := by decide
  simp [step, hl, Sys.quiet, workerArmNext, hr, hf, ha, hi, poolArmBankLocked, hs, h1,
    submitFrames, Sys.write, Pool.accountMissed]

theorem poolArmPolled_ok (hl : s.lock = some (.poolArmPoll .worker)) : ∃ s',
    step L s (.poolArmPolled statusArmed 0) = some s' ∧ s'.file = s.file ∧ s'.lock = none ∧
      s'.worker = none ∧ s'.poolEvents = s.poolEvents ∧ s'.inflight = s.inflight ∧
      s'.pool = { s.pool with starved := false } := by
  have h1 : armed statusArmed = true := by decide
  simp [step, hl, Sys.quiet, poolArmPolled, h1, armReturn, faultPool, Sys.unlock]


/-- A bank is delivered and the other one, which is FREE, is filled next. -/
theorem spins_deliver (h : Spins b .free n s) :
    ∃ s', Stays L s s' ∧ Spins (1 - b) .ready (n + 1) s' ∧
    (s'.pool.bank b).sequence = n ∧ (s'.pool.bank b).result.bankSequence = n := by
  obtain ⟨s₁, h₁, hfile, hlock, hev, hp⟩ := completion_steps (L := L) h
  have hst : ∀ i, s₁.pool.state i = setCell s.pool.state b .ready i := by
    rw [hp]
    intro i
    show setCell s.pool.state s.pool.fillingBank .ready i = _
    rw [h.fillingBank]
  have hb := h.bank
  have hfree : s₁.pool.findFree = some (1 - b) := by
    have hc : s₁.pool.bankCount = 2 := by
      rw [hp]
      exact h.bankCount
    unfold Pool.findFree
    rw [hc]
    refine List.find?_range_eq_some.mpr ⟨?_, List.mem_range.mpr (by omega), fun j hj => ?_⟩
    · rw [hst, setCell_ne _ _ (by omega), h.other]
      rfl
    · rw [hst, show j = b by omega, setCell_same]
      rfl
  obtain ⟨s₂, h₂, hfile₂, hlock₂, hev₂, hin₂, hp₂⟩ := workerArmNext_ok (L := L) hlock
    (by rw [hp]; exact h.running) (by rw [hp]; exact h.faulted) (by rw [hp]; rfl) hfree
  obtain ⟨s₃, h₃, hfile₃, hlock₃, hworker₃, hev₃, hin₃, hp₃⟩ := poolArmPolled_ok (L := L) hlock₂
  rw [hp₂, hp] at hp₃
  have hbank : (s₃.pool.bank b).sequence = n ∧ (s₃.pool.bank b).result.bankSequence = n := by
    have hfb := h.fillingBank
    have hne : b ≠ 1 - b := by omega
    rw [hp₃]
    simp [Pool.fill, Pool.accountMissed, Pool.deliver, hfb, setCell_ne _ _ hne, h.nextSequence]
  refine ⟨s₃, h₁.trans (.trans (.step rfl h₂) (.step rfl h₃)), ?_, hbank⟩
  refine ⟨?_, hlock₃, hworker₃, ?_, ?_, ?_, ?_, ?_, ?_, by omega, ?_, ?_, ?_, ?_, ?_, ?_, ?_⟩
  · rw [hfile₃, hfile₂, hfile]
  · rw [hev₃, hev₂, hev]
  · rw [hin₃]
    exact hin₂
  all_goals rw [hp₃]
  · exact h.running
  · exact h.faulted
  · rfl
  · exact h.bankCount
  · rfl
  · exact h.frameBytes
  · exact h.frameLengthWords
  · exact h.frameCount
  · exact congrArg (· + 1) h.nextSequence
  · exact setCell_same ..
  · have hready := hst b
    rw [hp, setCell_same] at hready
    rw [show 1 - (1 - b) = b by omega]
    exact (setCell_ne _ _ (by omega)).trans hready

theorem findReady_two (hc : p.bankCount = 2) (hb : b < 2) (hs : p.state b = .ready)
    (hlt : (p.bank b).sequence < BitVec.allOnes 64)
    (ho : ¬ (p.state (1 - b) = .ready ∧ (p.bank (1 - b)).sequence < BitVec.allOnes 64)) :
    p.findReady = some b := by
  have hrange : List.range 2 = [0, 1] := rfl
  unfold Pool.findReady
  rw [hc, hrange]
  obtain rfl | rfl : b = 0 ∨ b = 1 := by omega
  · rw [Pool.findReadyFrom, if_pos ⟨hs, hlt⟩, Pool.findReadyFrom, if_neg, Pool.findReadyFrom]
    rintro ⟨h1, h2⟩
    exact ho ⟨h1, BitVec.lt_trans h2 hlt⟩
  · rw [Pool.findReadyFrom, if_neg ho, Pool.findReadyFrom, if_pos ⟨hs, hlt⟩, Pool.findReadyFrom]

/-- A DEQUEUE returns `d`. -/
def Dequeues (L : Limits) (s : Sys) (d : PoolDequeue) (s' : Sys) : Prop :=
  ∃ timeoutMs outcome status, step L s (.poolDequeue timeoutMs outcome status) = some s' ∧
    s'.ret = some ⟨.poolDequeue, none, .dequeued d⟩

theorem poolDequeue_ok (hfile : s.file = .opened) (hlock : s.lock = none)
    (hi : s.pool.findReady = some i) : step L s (.poolDequeue 0 .completed 0)
      = some ({ s.quiet with pool := s.pool.grant i }.returns .poolDequeue none
        (.dequeued { (s.pool.bank i).result with poolFlags := s.pool.flags 0 })) := by
  simp [step, ioctl, Sys.quiet, hfile, hlock, poolDequeue, hi, maxTimeoutMs]

theorem poolRelease_ok (hfile : s.file = .opened) (hlock : s.lock = none)
    (hi : i < s.pool.bankCount) (hm : s.pool.bankCount ≤ maxPoolBanks)
    (hs : s.pool.state i = .userOwned) (ha : s.pool.dmaActive = true) :
    step L s (.poolRelease (s.pool.token i))
      = some ({ s.quiet with
        pool := s.pool.takeBack i
        poolEvents := { s.poolEvents with kick := true } }.returns .poolRelease none) := by
  have hmod : i % 4294967296 = i := Nat.mod_eq_of_lt (by unfold maxPoolBanks at hm; omega)
  simp [step, ioctl, Sys.quiet, hfile, hlock, poolReleaseBank, Pool.token, hmod, hs, ha, hi,
    Pool.takeBack]

/-- The READY bank is lent and comes back. -/
theorem spins_consume (h : Spins (1 - b) .ready n s) (hb : b < 2)
    (hlt : (s.pool.bank b).sequence < BitVec.allOnes 64) :
    ∃ d s₁ s', Dequeues L s d s₁ ∧ d.bankSequence = (s.pool.bank b).result.bankSequence ∧
      Stays L s₁ s' ∧ Spins (1 - b) .free n s' := by
  have hother := h.other
  have hne : b ≠ 1 - b := by omega
  rw [show 1 - (1 - b) = b by omega] at hother
  have hfind : s.pool.findReady = some b :=
    findReady_two h.bankCount hb hother hlt (by rw [h.filling]; rintro ⟨h1, -⟩; cases h1)
  have h₁ := poolDequeue_ok (L := L) h.file h.lock hfind
  have h₂ := poolRelease_ok (L := L) (i := b) (s := { s.quiet with pool := s.pool.grant b }.returns
      .poolDequeue none (.dequeued { (s.pool.bank b).result with poolFlags := s.pool.flags 0 }))
    h.file h.lock (by rw [show b < _ ↔ b < 2 from h.bankCount ▸ Iff.rfl]; exact hb)
    (by rw [show _ ≤ _ ↔ 2 ≤ maxPoolBanks from h.bankCount ▸ Iff.rfl]; decide)
    (setCell_same ..) h.dmaActive
  refine ⟨_, _, _, ⟨_, _, _, h₁, rfl⟩, rfl, .step rfl h₂, ?_⟩
  have hst : ∀ j, j ≠ b → setCell (setCell s.pool.state b .userOwned) b .free j = s.pool.state j :=
    fun j hj => by rw [setCell_ne _ _ hj, setCell_ne _ _ hj]
  exact ⟨h.file, h.lock, h.worker, h.noStop, h.inflight, h.running, h.faulted, h.dmaActive,
    h.bankCount, h.bank, h.fillingBank, h.frameBytes, h.frameLengthWords, h.frameCount,
    h.nextSequence, (hst _ hne.symm).trans h.filling,
    by rw [show 1 - (1 - b) = b by omega]; exact setCell_same ..⟩

/-- One round: a bank is delivered, lent and given back. -/
theorem spins_round {k : Nat} (h : Spins b .free (BitVec.ofNat 64 k) s) (hk : k + 1 < 2 ^ 64) :
    ∃ d s₁ s₂ s', Stays L s s₁ ∧ Dequeues L s₁ d s₂ ∧ d.bankSequence = BitVec.ofNat 64 k ∧
      Stays L s₂ s' ∧ Spins (1 - b) .free (BitVec.ofNat 64 (k + 1)) s' := by
  obtain ⟨s₁, h₁, hs₁, hseq, hres⟩ := spins_deliver (L := L) h
  rw [show BitVec.ofNat 64 k + 1 = BitVec.ofNat 64 (k + 1) from (BitVec.ofNat_add k 1).symm] at hs₁
  have hlt : (s₁.pool.bank b).sequence < BitVec.allOnes 64 := by
    rw [hseq, BitVec.lt_def, BitVec.toNat_allOnes, BitVec.toNat_ofNat, Nat.mod_eq_of_lt (by omega)]
    omega
  obtain ⟨d, s₂, s₃, hd, hds, h₂, hs₃⟩ := spins_consume (L := L) hs₁ h.bank hlt
  exact ⟨d, s₁, s₂, s₃, h₁, hd, hds.trans hres, h₂, hs₃⟩

theorem Dequeues.stays {d : PoolDequeue} (h : Dequeues L s d s') : Stays L s s' := by
  obtain ⟨_, _, _, hstep, -⟩ := h
  exact .step rfl hstep

theorem spins_rounds (k : Nat) (h : Spins b .free (BitVec.ofNat 64 k) s) (m : Nat)
    (hm : k + m < 2 ^ 64) :
    ∃ b' s', Stays L s s' ∧ Spins b' .free (BitVec.ofNat 64 (k + m)) s' := by
  induction m with
  | zero => exact ⟨b, s, ⟨[], nofun, rfl⟩, h⟩
  | succ m ih =>
    obtain ⟨b₁, s₁, h₁, hs₁⟩ := ih (by omega)
    obtain ⟨d, s₂, s₃, s₄, h₂, hd, -, h₃, hs₄⟩ := spins_round (L := L) hs₁ (by omega)
    exact ⟨_, s₄, h₁.trans (h₂.trans (hd.stays.trans h₃)), hs₄⟩

theorem workerArmNext_starved (hl : s.lock = some .workerArm) (hi : s.pool.findFree = none) :
    ∃ s', step L s (.workerArmNext {}) = some s' ∧ s'.file = s.file ∧ s'.lock = none ∧
      s'.pool.bankCount = s.pool.bankCount ∧ s'.pool.state = s.pool.state ∧
      s'.pool.bank = s.pool.bank := by
  have hq : s.quiet.pool.findFree = none := hi
  refine ⟨_, by rw [step]; exact if_pos hl, ?_⟩
  unfold workerArmNext
  simp only [hq]
  split
  · dsimp only
    split <;> exact ⟨rfl, rfl, rfl, rfl, rfl⟩
  · exact ⟨rfl, rfl, rfl, rfl, rfl⟩

/-- A pool of two banks after its first arm. -/
theorem spins_start : ∃ s, (driver smallDevice).Reachable .init s ∧
    Spins 0 .free (BitVec.ofNat 64 1) s := by
  refine ⟨_, ⟨[.openFile, .poolStart smallPool 0 {}, .poolArmPolled statusArmed 0],
    (Option.some_get (by decide +kernel)).symm⟩, ?_⟩
  constructor <;> decide +kernel

/-- The sequence of a run wraps: after 2^64 - 2 the next bank DEQUEUE returns has sequence 0. -/
theorem sequence_wraps : ∃ s₁ d₁ s₂ s₃ d₂ s₄, (driver smallDevice).Reachable .init s₁ ∧
    Dequeues smallDevice s₁ d₁ s₂ ∧ Stays smallDevice s₂ s₃ ∧ Dequeues smallDevice s₃ d₂ s₄ ∧
    d₂.bankSequence < d₁.bankSequence := by
  obtain ⟨s₀, ⟨l, hl⟩, h₀⟩ := spins_start
  obtain ⟨b, s₁, ⟨l₁, -, hl₁⟩, h₁⟩ := spins_rounds (L := smallDevice) 1 h₀ (2 ^ 64 - 3) (by decide)
  obtain ⟨d, s₂, s₃, s₄, ⟨l₂, -, hl₂⟩, hd, hds, hst₄, h₄⟩ :=
    spins_round (L := smallDevice) h₁ (by decide)
  -- the bank with the last sequence is never selected
  obtain ⟨s₅, hst₅, h₅, hseq, -⟩ := spins_deliver (L := smallDevice) h₄
  obtain ⟨s₆, hst₆, hfile, hlock, -, hp⟩ := completion_steps (L := smallDevice) h₅
  have hb := h₄.bank
  have hb₅ := h₅.bank
  have hother := h₅.other
  rw [show 1 - (1 - (1 - b)) = 1 - b by omega] at hother
  have hst : ∀ i, s₆.pool.state i = setCell s₅.pool.state (1 - (1 - b)) .ready i := by
    rw [hp]
    intro i
    show setCell s₅.pool.state s₅.pool.fillingBank .ready i = _
    rw [h₅.fillingBank]
  have hcount : s₆.pool.bankCount = 2 := by
    rw [hp]
    exact h₅.bankCount
  have hnone : s₆.pool.findFree = none := by
    unfold Pool.findFree
    rw [hcount]
    refine List.find?_eq_none.mpr fun j hj => ?_
    have hj2 := List.mem_range.mp hj
    rw [hst]
    by_cases hjb : j = 1 - (1 - b)
    · rw [hjb, setCell_same]
      decide
    · rw [setCell_ne _ _ hjb, show j = 1 - b by omega, hother]
      decide
  obtain ⟨s₇, hs₇, hfile₇, hlock₇, hcount₇, hstate₇, hbank₇⟩ :=
    workerArmNext_starved (L := smallDevice) hlock hnone
  have hbank : s₆.pool.bank = setCell s₅.pool.bank (1 - (1 - b)) (s₆.pool.bank (1 - (1 - b))) ∧
      (s₆.pool.bank (1 - (1 - b))).sequence = 0 ∧
      (s₆.pool.bank (1 - (1 - b))).result.bankSequence = 0 := by
    have hzero : s₅.pool.nextSequence = 0 := h₅.nextSequence
    have hfb := h₅.fillingBank
    rw [hp]
    simp [Pool.accountMissed, Pool.deliver, hfb, hzero]
  have hfind : s₇.pool.findReady = some (1 - (1 - b)) := by
    refine findReady_two (hcount₇.trans hcount) (by omega) ?_ ?_ ?_
    · rw [hstate₇, hst, setCell_same]
    · rw [hbank₇, hbank.2.1]
      decide
    · rintro ⟨-, hlt⟩
      rw [hbank₇, hbank.1, setCell_ne _ _ (by omega), show 1 - (1 - (1 - b)) = 1 - b by omega,
        hseq] at hlt
      exact absurd hlt (by decide)
  have hd₂ := poolDequeue_ok (L := smallDevice) (hfile₇.trans hfile) hlock₇ hfind
  refine ⟨s₂, d, s₃, s₇, _, _, ⟨l ++ (l₁ ++ l₂), Machine.run_trans hl (Machine.run_trans hl₁ hl₂)⟩,
    hd, hst₄.trans (hst₅.trans (hst₆.trans (.step rfl hs₇))), ⟨_, _, _, hd₂, rfl⟩, ?_⟩
  rw [hds]
  show (s₇.pool.bank (1 - (1 - b))).result.bankSequence < _
  rw [hbank₇, hbank.2.2]
  decide

end QCrate.Dma
