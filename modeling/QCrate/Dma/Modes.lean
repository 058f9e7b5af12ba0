import QCrate.Dma.BankCounts
import QCrate.Dma.Driver

/-!
# Who owns the device

Three kinds of capture share one buffer, one DMA channel and one stream. The driver keeps them
apart with a handful of flags that different sections read and write. `Modes` says what those
flags guarantee in every state, whatever the hardware answers and whoever is waiting:
a triggered transaction excludes the pool, and the section that holds the lock has the mode
it works for.

* `modes_step` — one step keeps `Modes`.
-/

namespace QCrate.Dma

open QCrate.Lib

/-! ## The invariant -/

/-- The pool neither uses the channel nor lends a bank. -/
structure Pool.Idle (p : Pool) : Prop where
  running : p.running = false
  dmaActive : p.dmaActive = false
  ready : p.readyBanks = 0
  user : p.userBanks = 0

/-- What holds of the device while a section stands where `h` says. -/
def Holder.Stands (active : Bool) (p : Pool) : Holder → Prop
  | .captureWait _ _ _ => active = false ∧ p.Idle
  | .armPoll | .cancelWait _ => active = true
  | .poolArmPoll _ | .drainWait _ | .drainFinish _ _ => p.dmaActive = true
  | .workerArm => True

/-- The part of the invariant that does not look at the lock. -/
structure Base (L : Limits) (active : Bool) (p : Pool) : Prop where
  counted : p.Counted
  room : p.bankCount * p.bankBytes ≤ L.bufferBytes
  exclusive : active = true → p.Idle

structure Modes (L : Limits) (s : Sys) : Prop where
  base : Base L s.triggered.active s.pool
  holder : ∀ h, s.lock = some h → h.Stands s.triggered.active s.pool

variable {L : Limits} {active : Bool} {p : Pool} {s : Sys}

/-- The driver as it is probed. -/
theorem modes_init : Modes L .init :=
  ⟨⟨Pool.counted_init, by simp [Sys.init, Pool.init], nofun⟩, nofun⟩

/-- The test that the ioctls make of the pool says that it is idle. -/
theorem idle_of_not_owns (h : poolOwnsBufferLocked p = false) : p.Idle := by
  simp only [poolOwnsBufferLocked, Bool.or_eq_false_iff, bne_eq_false_iff_eq] at h
  obtain ⟨⟨⟨⟨hr, -⟩, hd⟩, hready⟩, huser⟩ := h
  exact ⟨hr, hd, hready, huser⟩

/-- The busy test of the three ways to start a capture. -/
theorem free_of_not_busy (h : ¬ (active || poolOwnsBufferLocked p) = true) :
    active = false ∧ p.Idle := by
  simp only [Bool.or_eq_true, not_or, Bool.not_eq_true] at h
  exact ⟨h.1, idle_of_not_owns h.2⟩

namespace Base

/-! ## Changes of the pool -/

/-- Without a triggered transaction only the counts are left to show. -/
theorem inactive (hc : p.Counted) (hr : p.bankCount * p.bankBytes ≤ L.bufferBytes) :
    Base L false p :=
  ⟨hc, hr, nofun⟩

/-- A live transaction of the pool excludes a triggered one. -/
theorem not_active (h : Base L active p) (ha : p.dmaActive = true) : active = false := by
  cases hact : active with
  | false => rfl
  | true =>
    have := (h.exclusive hact).dmaActive
    rw [ha] at this
    cases this

/-- A fault stops the pool and leaves the transfer that is under way. -/
theorem fault (h : Base L active p) (e : Errno) : Base L active (p.fault e) :=
  ⟨h.counted.fault e, h.room, fun ha =>
    ⟨rfl, (h.exclusive ha).dmaActive, (h.exclusive ha).ready, (h.exclusive ha).user⟩⟩

/-- Missed triggers are only counted. -/
theorem accountMissed (h : Base L active p) (missed : U32) :
    Base L active (p.accountMissed missed) :=
  ⟨h.counted.accountMissed missed, h.room, fun ha =>
    ⟨(h.exclusive ha).running, (h.exclusive ha).dmaActive, (h.exclusive ha).ready,
      (h.exclusive ha).user⟩⟩

/-- Flags that only report. -/
theorem flags (h : Base L active p) (stopping starved : Bool) (events : U64) :
    Base L active { p with
      stopping := stopping, starved := starved, starvationEvents := events } :=
  ⟨⟨h.counted.fits, h.counted.ready, h.counted.user, h.counted.target⟩, h.room, fun ha =>
    ⟨(h.exclusive ha).running, (h.exclusive ha).dmaActive, (h.exclusive ha).ready,
      (h.exclusive ha).user⟩⟩

/-- A pool that is no longer running is no nearer to the channel. -/
theorem stopRunning (h : Base L active p) (stopping : Bool) :
    Base L active { p with running := false, stopping := stopping } :=
  ⟨⟨h.counted.fits, h.counted.ready, h.counted.user, h.counted.target⟩, h.room, fun ha =>
    ⟨rfl, (h.exclusive ha).dmaActive, (h.exclusive ha).ready, (h.exclusive ha).user⟩⟩

theorem completionNs (h : Base L active p) (now : U64) :
    Base L active { p with dmaCompletionNs := now } :=
  ⟨⟨h.counted.fits, h.counted.ready, h.counted.user, h.counted.target⟩, h.room, fun ha =>
    ⟨(h.exclusive ha).running, (h.exclusive ha).dmaActive, (h.exclusive ha).ready,
      (h.exclusive ha).user⟩⟩

/-- A free bank goes to the channel, when no triggered transaction has it. -/
theorem fill (h : Base L false p) {i : Nat} (hi : i < p.bankCount) (hs : p.state i = .free) :
    Base L false (p.fill i) :=
  inactive (h.counted.fill hi hs) h.room

/-- The transfer that is given up was the pool's. -/
theorem abandon (h : Base L active p) (ha : p.dmaActive = true) : Base L active p.abandon := by
  cases h.not_active ha
  exact inactive (h.counted.abandon ha) h.room

/-- A bank is full, and waits to be dequeued. -/
theorem deliver (h : Base L active p) (ha : p.dmaActive = true) (result : PoolDequeue) :
    Base L active (p.deliver result) := by
  cases h.not_active ha
  exact inactive (h.counted.deliver ha result) h.room

/-- What a failed finalization has collected stays with the bank. -/
theorem spoil (h : Base L active p) (result : PoolDequeue) : Base L active (p.spoil result) :=
  ⟨h.counted.spoil result, h.room, fun ha =>
    ⟨(h.exclusive ha).running, (h.exclusive ha).dmaActive, (h.exclusive ha).ready,
      (h.exclusive ha).user⟩⟩

/-- After the stop no bank waits any more. -/
theorem discardReady (h : Base L active p) : Base L active p.discardReady := by
  refine ⟨h.counted.discardReady, h.room, fun ha => ?_⟩
  obtain ⟨hrun, hdma, hready, huser⟩ := h.exclusive ha
  refine ⟨hrun, hdma, ?_, huser⟩
  show p.readyBanks - BitVec.ofNat 32 (p.count .ready) = 0
  rw [h.counted.ready, BitVec.sub_self]
  rfl

/-- A bank can be lent only while no triggered transaction is live, since then none is ready. -/
theorem grant (h : Base L active p) {i : Nat} (hi : i < p.bankCount) (hs : p.state i = .ready) :
    Base L active (p.grant i) := by
  cases active with
  | false => exact inactive (h.counted.grant hi hs) h.room
  | true => exact absurd hs (h.counted.no_ready (h.exclusive rfl).ready i hi)

/-- A bank can come back only while no triggered transaction is live, since then none is lent. -/
theorem takeBack (h : Base L active p) {i : Nat} (hi : i < p.bankCount)
    (hs : p.state i = .userOwned) : Base L active (p.takeBack i) := by
  cases active with
  | false => exact inactive (h.counted.takeBack hi hs) h.room
  | true => exact absurd hs (h.counted.no_user (h.exclusive rfl).user i hi)

/-- `close` takes every bank back at once. -/
theorem closeBanks (h : Base L active p) : Base L active p.closeBanks :=
  ⟨h.counted.closeBanks, h.room, fun ha =>
    ⟨(h.exclusive ha).running, (h.exclusive ha).dmaActive, rfl, rfl⟩⟩

end Base

/-! ## Sections of synchronous and triggered capture -/

/-- An ioctl that changes neither the modes nor the lock. -/
theorem Modes.of_eq {s' : Sys} (h : Modes L s) (ha : s'.triggered.active = s.triggered.active)
    (hp : s'.pool = s.pool) (hl : s'.lock = s.lock) : Modes L s' :=
  ⟨by rw [ha, hp]; exact h.base, by rw [ha, hp, hl]; exact h.holder⟩

/-- A section that ends. -/
theorem Modes.unlocked {s' : Sys} (h : Base L s'.triggered.active s'.pool) (hl : s'.lock = none) :
    Modes L s' :=
  ⟨h, fun _ hh => by rw [hl] at hh; cases hh⟩

/-- A section that stops at `h`. -/
theorem Modes.held {s' : Sys} {h : Holder} (hb : Base L s'.triggered.active s'.pool)
    (hl : s'.lock = some h) (hs : h.Stands s'.triggered.active s'.pool) : Modes L s' :=
  ⟨hb, fun h' hh => by
    rw [hl] at hh
    cases hh
    exact hs⟩

/-- A wait for the completion takes one when it is woken, and ends without one only when there is
none. -/
theorem takeCompletion_eq {outcome : WaitOutcome} {s' : Sys}
    (h : takeCompletion outcome s = some s') :
    s' = { s with completion := s'.completion } ∧
      (outcome = .completed → 0 < s.completion ∧ s'.completion = s.completion - 1) ∧
      (outcome ≠ .completed → s.completion = 0 ∧ s'.completion = s.completion) := by
  unfold takeCompletion at h
  split at h
  · split at h
    · next hpos =>
      cases h
      exact ⟨rfl, fun _ => ⟨hpos, rfl⟩, fun hne => absurd rfl hne⟩
    · cases h
  · next hne =>
    split at h
    · next hz =>
      cases h
      exact ⟨rfl, fun he => absurd he hne, fun _ => ⟨hz, rfl⟩⟩
    · cases h

/-- `dmaengine_terminate_sync` drops what was submitted. -/
theorem terminate_eq (s : Sys) (submitted : Bool) :
    s.terminate submitted = { s with inflight := if submitted then [] else s.inflight } := by
  cases submitted <;> rfl

/-- A capture that gets past the busy test has the device to itself. -/
theorem modes_runCapture (h : Modes L s) (op : Op) (request : CaptureRequest)
    (hw : SetupAnswer) : Modes L (runCapture L op request hw s) := by
  unfold runCapture
  dsimp only
  split
  · exact h.of_eq rfl rfl rfl
  split
  · exact h.of_eq rfl rfl rfl
  split
  · exact h.of_eq rfl rfl rfl
  next hfree =>
    split
    · exact h.of_eq rfl rfl rfl
    split
    · rw [terminate_eq]
      exact h.of_eq rfl rfl rfl
    · exact .held h.base rfl (free_of_not_busy hfree)

/-- Wherever a capture ends, the lock is given back. -/
theorem modes_captureStop (h : Base L s.triggered.active s.pool) (op : Op) (e : Errno)
    (out : Out) : Modes L (captureStop op e out s) :=
  .unlocked h rfl

/-- The second half of a capture ends it, with the evidence or with an error. -/
theorem modes_captureDone {op : Op} {request : CaptureRequest} {frameBytes : Nat}
    {outcome : WaitOutcome} {ev : Evidence} {s' : Sys} (h : Base L s.triggered.active s.pool)
    (hstep : captureDone op request frameBytes outcome ev s = some s') : Modes L s' := by
  unfold captureDone at hstep
  obtain ⟨s₁, h₁, rfl⟩ := Option.map_eq_some_iff.mp hstep
  have hb : Base L s₁.triggered.active s₁.pool := by rw [(takeCompletion_eq h₁).1]; exact h
  split
  · exact modes_captureStop hb ..
  · exact modes_captureStop hb ..
  · dsimp only
    split
    · exact modes_captureStop hb ..
    split
    · exact .unlocked hb rfl
    · exact modes_captureStop hb ..

/-- The cancellation goes back to its caller, and `close` takes the banks with it. -/
theorem modes_cancelReturn (h : Base L s.triggered.active s.pool) (caller : CancelCaller)
    (r : Option Errno) : Modes L (cancelReturn caller r s) := by
  cases caller with
  | close => exact .unlocked h.closeBanks rfl
  | arm => exact .unlocked h rfl
  | wait e out => exact .unlocked h rfl
  | cancel => exact .unlocked h rfl

/-- A cancellation that waits for the PL waits for a live transaction. -/
theorem modes_cancelTriggeredLocked (h : Base L s.triggered.active s.pool)
    (caller : CancelCaller) (status : U32) : Modes L (cancelTriggeredLocked caller status s) := by
  unfold cancelTriggeredLocked
  split
  · exact modes_cancelReturn h caller none
  · next hact =>
    have ha : s.triggered.active = true := by simpa using hact
    dsimp only
    split
    · exact .held h rfl ha
    · exact .held h rfl ha

/-- The transaction stays active unless the PL has stopped cleanly and was reset. -/
theorem modes_cancelDone {caller : CancelCaller} {completed : Bool} {status resetStatus : U32}
    {s' : Sys} (h : Base L s.triggered.active s.pool)
    (hstep : cancelDone caller completed status resetStatus s = some s') : Modes L s' := by
  unfold cancelDone at hstep
  obtain ⟨s₁, h₁, rfl⟩ := Option.map_eq_some_iff.mp hstep
  have hb : Base L s₁.triggered.active s₁.pool := by rw [(takeCompletion_eq h₁).1]; exact h
  split
  · exact modes_cancelReturn hb ..
  split
  · exact modes_cancelReturn hb ..
  split
  · exact modes_cancelReturn hb ..
  dsimp only
  split
  · exact modes_cancelReturn (s := s₁.write controlSoftReset) hb ..
  · exact modes_cancelReturn (L := L) (.inactive hb.counted hb.room) ..

/-- An ARM that gets past the busy test finds an idle pool, so the new transaction excludes it. -/
theorem modes_armTriggered (h : Modes L s) (arm : TriggeredArm) (hw : SetupAnswer) :
    Modes L (armTriggered L arm hw s) := by
  unfold armTriggered
  split
  · exact h.of_eq rfl rfl rfl
  split
  · exact h.of_eq rfl rfl rfl
  next hfree =>
    dsimp only
    split
    · exact h.of_eq rfl rfl rfl
    split
    · rw [terminate_eq]
      exact h.of_eq rfl rfl rfl
    · exact .held ⟨h.base.counted, h.base.room, fun _ => (free_of_not_busy hfree).2⟩ rfl rfl

/-- An ARM that was not taken is cancelled in the same section. -/
theorem modes_armPolled (h : Modes L s) (status cancelStatus : U32) :
    Modes L (armPolled status cancelStatus s) := by
  unfold armPolled
  split
  · exact .unlocked h.base rfl
  · exact modes_cancelTriggeredLocked h.base ..

theorem modes_waitTriggered (h : Modes L s) (timeoutMs : U32) :
    Modes L (waitTriggered timeoutMs s) := by
  unfold waitTriggered
  split
  · exact h.of_eq rfl rfl rfl
  split
  · exact h.of_eq rfl rfl rfl
  · exact h.of_eq rfl rfl rfl

/-- With good evidence the transaction ends here, and with bad evidence it is cancelled. -/
theorem modes_waitTriggeredFinish (h : Modes L s) (hl : s.lock = none) (outcome : WaitOutcome)
    (ev : Evidence) (cancelStatus : U32) :
    Modes L (waitTriggeredFinish outcome ev cancelStatus s) := by
  unfold waitTriggeredFinish
  dsimp only
  split
  · exact h.of_eq rfl rfl rfl
  split
  · exact modes_cancelTriggeredLocked h.base ..
  · exact modes_cancelTriggeredLocked h.base ..
  · split
    · exact modes_cancelTriggeredLocked h.base ..
    split
    · exact .unlocked (.inactive h.base.counted h.base.room) hl
    · exact modes_cancelTriggeredLocked h.base ..

theorem modes_cancelTriggered (h : Modes L s) (status : U32) :
    Modes L (cancelTriggered status s) := by
  unfold cancelTriggered
  split
  · exact h.of_eq rfl rfl rfl
  · exact modes_cancelTriggeredLocked h.base ..

/-! ## Sections of the bank pool -/

/-- Only an error becomes a fault. -/
theorem faultPool_base (h : Base L s.triggered.active s.pool) (r : Option Errno) :
    Base L (faultPool r s).triggered.active (faultPool r s).pool := by
  cases r with
  | none => exact h
  | some e => exact h.fault e

/-- Whoever armed the bank, the section ends here. -/
theorem modes_armReturn (h : Base L s.triggered.active s.pool) (caller : ArmCaller)
    (r : Option Errno) : Modes L (armReturn caller r s) := by
  cases caller with
  | worker => exact .unlocked (faultPool_base h r) rfl
  | start => exact .unlocked (faultPool_base h r) rfl

/-- The bank is filling only while the section polls for the PL to have armed. -/
theorem modes_poolArmBankLocked (h : Base L s.triggered.active s.pool)
    (hact : s.triggered.active = false) (caller : ArmCaller) {index : Nat}
    (hi : index < s.pool.bankCount) (hw : ArmAnswer) :
    Modes L (poolArmBankLocked caller index hw s) := by
  unfold poolArmBankLocked
  split
  · exact modes_armReturn h ..
  next hok =>
    obtain ⟨hfree, hdma⟩ := not_or.mp hok
    have hm := h.accountMissed hw.missed
    dsimp only
    split
    · exact modes_armReturn (s := { s with pool := s.pool.accountMissed hw.missed }.write _) hm ..
    split
    · rw [terminate_eq]
      exact modes_armReturn (L := L) hm ..
    · refine .held ?_ rfl rfl
      have hf : Base L false (s.pool.accountMissed hw.missed) := .inactive hm.counted hm.room
      show Base L s.triggered.active _
      rw [hact]
      exact hf.fill hi (not_not.mp hfree)

/-- The end of a stop, faulted or not. -/
theorem modes_stopEpilogue (h : Base L s.triggered.active s.pool) (r : Option Errno) :
    Modes L (stopEpilogue r s) := by
  cases r with
  | none => exact .unlocked (h.discardReady.flags false false s.pool.starvationEvents) rfl
  | some e => exact .unlocked ((h.fault e).flags false false s.pool.starvationEvents) rfl

theorem modes_drainReturn (h : Base L s.triggered.active s.pool) (caller : DrainCaller)
    (r : Option Errno) : Modes L (drainReturn caller r s) := by
  cases caller with
  | arm caller => exact modes_armReturn h ..
  | stop => exact modes_stopEpilogue h r

/-- A drain that waits, waits for a transfer of the pool. -/
theorem modes_poolDrainLocked (h : Base L s.triggered.active s.pool) (caller : DrainCaller)
    (dmaDone : Bool) (status : U32) : Modes L (poolDrainLocked caller dmaDone status s) := by
  unfold poolDrainLocked
  split
  · exact modes_drainReturn h ..
  · next hdma =>
    have ha : s.pool.dmaActive = true := by simpa using hdma
    dsimp only
    cases dmaDone <;> split <;> exact .held h rfl ha

/-- The wait of the drain ends with the transfer still the pool's. -/
theorem modes_drainWake (h : Base L s.triggered.active s.pool) (ha : s.pool.dmaActive = true)
    (caller : DrainCaller) : Modes L (drainWake caller s) := by
  unfold drainWake
  split
  · exact .held h rfl ha
  · exact modes_drainReturn h ..

/-- The bank of a drained transfer is free again, and its triggers are counted. -/
theorem modes_drainFinish (h : Base L s.triggered.active s.pool) (ha : s.pool.dmaActive = true)
    (caller : DrainCaller) (seen : Bool) (hw : DrainAnswer) :
    Modes L (drainFinish caller seen hw s) := by
  unfold drainFinish
  obtain ⟨s₁, hs₁, hp, ht⟩ : ∃ s₁ : Sys, s₁ = (if seen then { s with
      poolEvents := { s.poolEvents with dmaDone := false } } else s) ∧ s₁.pool = s.pool ∧
      s₁.triggered = s.triggered := ⟨_, rfl, by split <;> rfl, by split <;> rfl⟩
  rw [← hs₁]
  have hb : Base L s₁.triggered.active s₁.pool := by rw [hp, ht]; exact h
  dsimp only
  split
  · exact modes_drainReturn hb ..
  split
  · exact modes_drainReturn hb ..
  split
  · exact modes_drainReturn (L := L) (hb.accountMissed hw.missed) ..
  · exact modes_drainReturn (L := L) ((hb.accountMissed hw.missed).abandon (hp ▸ ha)) ..

/-- A bank that the PL has not taken is drained in the same section. -/
theorem modes_poolArmPolled (h : Base L s.triggered.active s.pool) (caller : ArmCaller)
    (status drainStatus : U32) : Modes L (poolArmPolled caller status drainStatus s) := by
  unfold poolArmPolled
  split
  · exact modes_armReturn (L := L) (h.flags s.pool.stopping false s.pool.starvationEvents) ..
  · exact modes_poolDrainLocked h ..

/-- A finalization gives the filling bank away or back; nothing else changes in the modes. -/
theorem poolFinalizeLocked_base (h : Base L s.triggered.active s.pool) (hw : FinalizeAnswer) :
    Base L (poolFinalizeLocked hw s).2.triggered.active (poolFinalizeLocked hw s).2.pool := by
  unfold poolFinalizeLocked
  dsimp only
  split
  · exact h
  next hok =>
    have ha : s.pool.dmaActive = true := by
      rw [not_or] at hok
      simpa using hok.1
    have hfail : ∀ result, Base L s.triggered.active
        ((s.pool.spoil result).accountMissed hw.missed).abandon :=
      fun result => ((h.spoil result).accountMissed hw.missed).abandon ha
    split
    · exact hfail _
    split
    · split
      · exact (h.accountMissed hw.missed).deliver ha _
      · exact hfail _
    · exact hfail _

/-- The worker drains the pool before it stops. -/
theorem modes_workerStop (h : Base L s.triggered.active s.pool) (dmaDone : Bool)
    (status missed resetStatus : U32) :
    Modes L (workerStop dmaDone status missed resetStatus s) := by
  have hb := h.stopRunning s.pool.stopping
  unfold workerStop
  dsimp only
  split
  · exact modes_poolDrainLocked (L := L) hb ..
  split
  · exact modes_stopEpilogue (L := L) (hb.accountMissed missed) ..
  · exact modes_stopEpilogue (L := L) hb ..

/-- The worker finalizes, then looks for another bank. -/
theorem modes_workerRun (h : Base L s.triggered.active s.pool) (dmaDone : Bool)
    (hw : FinalizeAnswer) : Modes L (workerRun dmaDone hw s) := by
  unfold workerRun
  split
  · exact .held (faultPool_base (poolFinalizeLocked_base h hw) _) rfl trivial
  · exact .held h rfl trivial

/-- The worker arms the next free bank, or the pool starves. -/
theorem modes_workerArmNext (h : Base L s.triggered.active s.pool) (hw : ArmAnswer) :
    Modes L (workerArmNext hw s) := by
  unfold workerArmNext
  split
  · next hrun =>
    simp only [Bool.and_eq_true, Bool.not_eq_true'] at hrun
    have hact : s.triggered.active = false := by
      cases ha : s.triggered.active with
      | false => rfl
      | true => exact absurd ((h.exclusive ha).running.symm.trans hrun.1.1) (by decide)
    split
    · next hfree => exact modes_poolArmBankLocked h hact _ (Pool.findFree_spec hfree).1 hw
    · refine .unlocked ?_ rfl
      dsimp only
      split
      · exact h
      · exact h.flags s.pool.stopping true _
  · exact .unlocked h rfl

/-- A pool that starts finds no transaction of the other kinds. -/
theorem modes_poolStart (h : Modes L s) (request : PoolStart) (resetStatus : U32)
    (hw : ArmAnswer) : Modes L (poolStart L request resetStatus hw s) := by
  unfold poolStart
  dsimp only
  split
  · exact h.of_eq rfl rfl rfl
  split
  · exact h.of_eq rfl rfl rfl
  split
  · exact h.of_eq rfl rfl rfl
  next hcount =>
    split
    · exact h.of_eq rfl rfl rfl
    split
    · exact h.of_eq rfl rfl rfl
    next bankBytes _ =>
      split
      · exact h.of_eq rfl rfl rfl
      next hroom =>
        split
        · exact h.of_eq rfl rfl rfl
        next hfree =>
          split
          · exact h.of_eq rfl rfl rfl
          · have hact := (free_of_not_busy hfree).1
            refine modes_poolArmBankLocked ?_ ?_ _ ?_ hw
            · show Base L s.triggered.active _
              rw [hact]
              refine .inactive (.start _ _ _ _ (by omega)) ?_
              show request.bankCount.toNat * bankBytes ≤ L.bufferBytes
              rw [Nat.mul_comm]
              simp only [Bool.or_eq_true, not_or, Bool.not_eq_true, decide_eq_true_eq,
                Nat.not_lt] at hroom
              exact hroom.2
            · exact hact
            · show 0 < request.bankCount.toNat
              omega

/-- The oldest bank that is ready is lent. -/
theorem modes_poolDequeue (h : Modes L s) (hl : s.lock = none) (timeoutMs : U32)
    (outcome : WaitOutcome) (status : U32) : Modes L (poolDequeue timeoutMs outcome status s) := by
  unfold poolDequeue
  split
  · exact h.of_eq rfl rfl rfl
  split
  · exact h.of_eq rfl rfl rfl
  split
  · exact h.of_eq rfl rfl rfl
  split
  · exact h.of_eq rfl rfl rfl
  · next hready =>
    obtain ⟨hi, hs⟩ := Pool.findReady_spec hready
    exact .unlocked (h.base.grant hi hs) hl

/-- A bank is taken back only from the user that holds its token. -/
theorem modes_poolReleaseBank (h : Modes L s) (hl : s.lock = none) (release : PoolRelease) :
    Modes L (poolReleaseBank release s) := by
  unfold poolReleaseBank
  dsimp only
  split
  · exact h.of_eq rfl rfl rfl
  next hindex =>
    split
    · exact h.of_eq rfl rfl rfl
    next htoken =>
      have hb := h.base.takeBack (by omega) (not_not.mp (not_or.mp htoken).1)
      split
      · exact .unlocked hb hl
      · exact .unlocked hb hl

/-- A request to stop that is taken changes the pool alone. -/
theorem poolStopRequest_eq {runId : U64} {s' : Sys} (h : poolStopRequest runId s = .ok s') :
    s' = { s with
      pool := { s.pool with running := false, stopping := true }
      poolStopResult := none, poolStopDone := false
      poolEvents := { s.poolEvents with stop := true } } := by
  unfold poolStopRequest at h
  split at h
  · cases h
  split at h
  · cases h
  · cases h
    rfl

/-- A request to stop leaves the transfer under way to the worker. -/
theorem modes_poolStop (h : Modes L s) (hl : s.lock = none) (stop : PoolStop) :
    Modes L (poolStop stop s) := by
  unfold poolStop
  split
  · exact h.of_eq rfl rfl rfl
  split
  · exact h.of_eq rfl rfl rfl
  · next hreq =>
    rw [poolStopRequest_eq hreq]
    exact .unlocked (h.base.stopRunning true) hl

/-- `close` stops the pool like the ioctl. -/
theorem modes_closeStop (h : Modes L s) (hl : s.lock = none) (runId : U64) :
    Modes L (closeStop runId s) := by
  unfold closeStop
  split
  · exact h.of_eq rfl rfl rfl
  · next hreq =>
    rw [poolStopRequest_eq hreq]
    exact .unlocked (h.base.stopRunning true) hl

/-- The callback of the channel needs no lock. -/
theorem modes_dmaComplete {r : DmaResult} {now : U64} {s' : Sys} (h : Modes L s)
    (hstep : dmaComplete r now s = some s') : Modes L s' := by
  unfold dmaComplete at hstep
  split at hstep
  · cases hstep
  dsimp only at hstep
  split at hstep
  · next hdma =>
    cases hstep
    refine ⟨h.base.completionNs now, fun hd hh => ?_⟩
    have := h.holder hd hh
    cases hd with
    | captureWait op request frameBytes =>
      exact absurd (this.2.dmaActive.symm.trans hdma) (by decide)
    | workerArm => trivial
    | armPoll => exact this
    | cancelWait caller => exact this
    | poolArmPoll caller => exact this
    | drainWait caller => exact this
    | drainFinish caller seen => exact this
  · cases hstep
    exact h.of_eq rfl rfl rfl

/-! ## One step -/

theorem poolReleaseWake_eq (outcome : WaitOutcome) (s : Sys) :
    ∃ ret, poolReleaseWake outcome s
      = { s with threads := s.threads.erase .releaseWait, ret := some ret } := by
  cases outcome <;> exact ⟨_, rfl⟩

theorem poolStopWake_eq (outcome : WaitOutcome) (s : Sys) :
    ∃ threads ret, poolStopWake outcome s = { s with threads := threads, ret := ret } := by
  cases outcome <;> exact ⟨_, _, rfl⟩

/-- Every action keeps the modes. -/
theorem modes_fires {a : Action} {s' : Sys} (h : Modes L s) (hf : Fires L s a s') :
    Modes L s' := by
  cases hf with
  | dmaComplete hd => exact modes_dmaComplete h hd
  | refused => exact h.of_eq rfl rfl rfl
  | capture => exact modes_runCapture h ..
  | captureFrames => exact modes_runCapture h ..
  | captureDone _ hd => exact modes_captureDone h.base hd
  | armTriggered => exact modes_armTriggered h ..
  | armPolled => exact modes_armPolled h ..
  | waitTriggered => exact modes_waitTriggered h ..
  | waitTriggeredWake _ hw =>
    obtain ⟨s₁, h₁, rfl⟩ := Option.map_eq_some_iff.mp hw
    rw [(takeCompletion_eq h₁).1]
    exact h.of_eq rfl rfl rfl
  | waitTriggeredFinish _ hl =>
    refine modes_waitTriggeredFinish ?_ ?_ _ _ _
    · exact h.of_eq rfl rfl rfl
    · exact hl
  | waitTriggeredInterrupted => exact h.of_eq rfl rfl rfl
  | cancelTriggered => exact modes_cancelTriggered h ..
  | cancelDone _ hd => exact modes_cancelDone h.base hd
  | poolStart => exact modes_poolStart h ..
  | poolArmPolled => exact modes_poolArmPolled h.base ..
  | drainWake hl => exact modes_drainWake h.base (h.holder _ hl) ..
  | drainFinish hl => exact modes_drainFinish h.base (h.holder _ hl) ..
  | workerFetch => exact h.of_eq rfl rfl rfl
  | workerStop => exact modes_workerStop h.base ..
  | workerRun => exact modes_workerRun h.base ..
  | workerArmNext => exact modes_workerArmNext h.base _
  | poolDequeue hl => exact modes_poolDequeue h hl ..
  | poolRelease hl => exact modes_poolReleaseBank h hl _
  | poolReleaseWake =>
    obtain ⟨ret, hr⟩ := poolReleaseWake_eq _ s
    rw [hr]
    exact h.of_eq rfl rfl rfl
  | poolStop hl => exact modes_poolStop h hl _
  | poolStopWake =>
    obtain ⟨threads, ret, hr⟩ := poolStopWake_eq _ s
    rw [hr]
    exact h.of_eq rfl rfl rfl
  | poolStopFinish => exact h.of_eq rfl rfl rfl
  | openFile => exact h.of_eq rfl rfl rfl
  | closeFile => exact h.of_eq rfl rfl rfl
  | closeStopInterrupted => exact h.of_eq rfl rfl rfl
  | closeStop _ hl => exact modes_closeStop h hl _
  | closeStopWake => exact h.of_eq rfl rfl rfl
  | closeCancel => exact modes_cancelTriggeredLocked h.base ..

/-- One step keeps `Modes`. -/
theorem modes_step {a : Action} {s' : Sys} (h : Modes L s) (hstep : step L s a = some s') :
    Modes L s' := by
  have hq : Modes L s.quiet := h.of_eq rfl rfl rfl
  exact modes_fires hq (step_fires hstep)

end QCrate.Dma
