import QCrate.Dma.Modes
import Mathlib.Logic.Relation

/-!
# The representation invariant of the bank pool

Whatever the driver does, the pool only ever goes through the changes of `Pool.Change`, or is
reset by the last section of close. `Pool.Exact` survives every one of those changes, and a
reset when no transaction of the pool is in flight.

* `pool_step` — the inversion: what one step of the driver can do to the pool.
* `books_run` — the books are exact after every run in which no bank is reset under a live
  transaction.
* `lateDma_breaks_books` — a close that resets a bank under a live transaction breaks them.
-/

namespace QCrate.Dma

open QCrate.Lib Relation

/-! ## What a step can do to the pool -/

/-- One change of the pool, with what is known when it happens. -/
inductive Pool.Change (p : Pool) : Pool → Prop where
  | fault (e : Errno) : Change p (p.fault e)
  | accountMissed (missed : U32) : Change p (p.accountMissed missed)
  | report (running stopping starved : Bool) (events now : U64)
      (hr : running = true → p.running = true) :
      Change p { p with
        running := running, stopping := stopping, starved := starved
        starvationEvents := events, dmaCompletionNs := now }
  | fill {i : Nat} (hi : i < p.bankCount) (hs : p.state i = .free) (ha : p.dmaActive = false) :
      Change p (p.fill i)
  | abandon (ha : p.dmaActive = true) : Change p p.abandon
  | deliver (ha : p.dmaActive = true) (result : PoolDequeue) : Change p (p.deliver result)
  | spoil (result : PoolDequeue) : Change p (p.spoil result)
  | discardReady : Change p p.discardReady
  | start (request : PoolStart) (timeoutMs : U32) (frameBytes bankBytes : Nat) (hp : p.Idle)
      (hb : request.bankCount.toNat ≤ maxPoolBanks) :
      Change p (p.start request timeoutMs frameBytes bankBytes)
  | grant {i : Nat} (hi : i < p.bankCount) (hs : p.state i = .ready) : Change p (p.grant i)
  | takeBack {i : Nat} (hi : i < p.bankCount) (hs : p.state i = .userOwned) :
      Change p (p.takeBack i)

/-- A sequence of changes. -/
abbrev Pool.Changes : Pool → Pool → Prop := ReflTransGen Pool.Change

/-- The changes in which no bank becomes READY or stops being it, and no client takes part. -/
inductive Pool.Work (p : Pool) : Pool → Prop where
  | fault (e : Errno) : Work p (p.fault e)
  | accountMissed (missed : U32) : Work p (p.accountMissed missed)
  | report (running stopping starved : Bool) (events now : U64)
      (hr : running = true → p.running = true) :
      Work p { p with
        running := running, stopping := stopping, starved := starved
        starvationEvents := events, dmaCompletionNs := now }
  | fill {i : Nat} (hi : i < p.bankCount) (hs : p.state i = .free) (ha : p.dmaActive = false) :
      Work p (p.fill i)
  | abandon (ha : p.dmaActive = true) : Work p p.abandon
  | spoil (ha : p.dmaActive = true) (result : PoolDequeue) : Work p (p.spoil result)

/-- A sequence of such changes. -/
abbrev Pool.Works : Pool → Pool → Prop := ReflTransGen Pool.Work

/-- The pool as a successful STOP leaves it. -/
def Pool.stopped (p : Pool) : Pool := { p.discardReady with stopping := false, starved := false }

/-- What a section other than DEQUEUE, RELEASE and close can do to the pool. -/
inductive Pool.Turn (p : Pool) : Pool → Prop where
  | works {q : Pool} (h : p.Works q) : Turn p q
  | stops {q : Pool} (h : p.Works q) : Turn p q.stopped
  | delivers (ha : p.dmaActive = true) (missed : U32) (r : DmaResult) (ev : Evidence) :
      Turn p ((p.accountMissed missed).deliver (p.collect r ev))
  | starts (request : PoolStart) (timeoutMs : U32) (frameBytes bankBytes : Nat) (hp : p.Idle)
      (hb : request.bankCount.toNat ≤ maxPoolBanks) {q : Pool}
      (h : (p.start request timeoutMs frameBytes bankBytes).Works q) : Turn p q

variable {L : Limits} {s : Sys} {p q : Pool}

/-- What the driver does on its own is one of the changes of a pool. -/
theorem Pool.Work.change (h : p.Work q) : p.Change q := by
  cases h with
  | fault e => exact .fault e
  | accountMissed missed => exact .accountMissed missed
  | report _ _ _ _ _ hr => exact .report _ _ _ _ _ hr
  | fill hi hs ha => exact .fill hi hs ha
  | abandon ha => exact .abandon ha
  | spoil _ result => exact .spoil result

theorem Pool.Works.changes (h : p.Works q) : p.Changes q :=
  h.lift id fun _ _ => Work.change

/-- So is a turn, which may end in a discard. -/
theorem Pool.Turn.changes (h : p.Turn q) : p.Changes q := by
  cases h with
  | works h => exact h.changes
  | stops h => exact (h.changes.tail .discardReady).tail (.report _ false false _ _ id)
  | delivers ha missed r ev =>
    have hm : p.Changes (p.accountMissed missed) := .single (.accountMissed missed)
    exact hm.tail (.deliver (p := p.accountMissed missed) ha _)
  | starts request timeoutMs frameBytes bankBytes hp hb h =>
    exact .head (.start request timeoutMs frameBytes bankBytes hp hb) h.changes

/-! ## The sections of the worker -/

/-- A fault stops the pool. -/
theorem works_faultPool (h : p.Works s.pool) (r : Option Errno) :
    p.Works (faultPool r s).pool := by
  cases r with
  | none => exact h
  | some e => exact h.tail (.fault e)

/-- The end of an arming, with its fault if there is one. -/
theorem works_armReturn (h : p.Works s.pool) (caller : ArmCaller) (r : Option Errno) :
    p.Works (armReturn caller r s).pool := by
  cases caller <;> exact works_faultPool h r

/-- A free bank is filled, after the missed triggers were counted. -/
theorem works_poolArmBankLocked (h : p.Works s.pool) (caller : ArmCaller) {index : Nat}
    (hi : index < s.pool.bankCount) (hw : ArmAnswer) :
    p.Works (poolArmBankLocked caller index hw s).pool := by
  unfold poolArmBankLocked
  split
  · exact works_armReturn h ..
  next hok =>
    obtain ⟨hfree, hdma⟩ := not_or.mp hok
    rw [Bool.not_eq_true] at hdma
    have hm : p.Works (s.pool.accountMissed hw.missed) := h.tail (.accountMissed hw.missed)
    dsimp only
    split
    · exact works_armReturn hm ..
    split
    · rw [terminate_eq]
      exact works_armReturn hm ..
    · exact hm.tail (.fill hi (not_not.mp hfree) hdma)

/-- The end of a stop discards what is ready. -/
theorem turn_stopEpilogue (h : p.Works s.pool) (r : Option Errno) :
    p.Turn (stopEpilogue r s).pool := by
  cases r with
  | none => exact .stops h
  | some e =>
    have hf : p.Works (s.pool.fault e) := h.tail (.fault e)
    exact .works (hf.tail (.report _ false false _ _ id))

/-- A drain ends in an arming or in a stop. -/
theorem turn_drainReturn (h : p.Works s.pool) (caller : DrainCaller) (r : Option Errno) :
    p.Turn (drainReturn caller r s).pool := by
  cases caller with
  | arm caller => exact .works (works_armReturn h ..)
  | stop => exact turn_stopEpilogue h r

theorem turn_poolDrainLocked (h : p.Works s.pool) (caller : DrainCaller) (dmaDone : Bool)
    (status : U32) : p.Turn (poolDrainLocked caller dmaDone status s).pool := by
  unfold poolDrainLocked
  split
  · exact turn_drainReturn h ..
  · dsimp only
    split <;> exact .works h

theorem turn_drainWake (h : p.Works s.pool) (caller : DrainCaller) :
    p.Turn (drainWake caller s).pool := by
  unfold drainWake
  split
  · exact .works h
  · exact turn_drainReturn h ..

/-- A drain that ends well abandons the filling bank. -/
theorem turn_drainFinish (h : p.Works s.pool) (ha : s.pool.dmaActive = true)
    (caller : DrainCaller) (seen : Bool) (hw : DrainAnswer) :
    p.Turn (drainFinish caller seen hw s).pool := by
  unfold drainFinish
  obtain ⟨s₁, hs₁, hp⟩ : ∃ s₁ : Sys, s₁ = (if seen then { s with
      poolEvents := { s.poolEvents with dmaDone := false } } else s) ∧ s₁.pool = s.pool :=
    ⟨_, rfl, by split <;> rfl⟩
  rw [← hs₁]
  rw [← hp] at h ha
  have hm : p.Works (s₁.pool.accountMissed hw.missed) := h.tail (.accountMissed hw.missed)
  dsimp only
  split
  · exact turn_drainReturn h ..
  split
  · exact turn_drainReturn h ..
  split
  · exact turn_drainReturn hm ..
  · have hab : p.Works (s₁.pool.accountMissed hw.missed).abandon := hm.tail (.abandon ha)
    exact turn_drainReturn hab ..

theorem turn_poolArmPolled (h : p.Works s.pool) (caller : ArmCaller)
    (status drainStatus : U32) : p.Turn (poolArmPolled caller status drainStatus s).pool := by
  unfold poolArmPolled
  split
  · have hr : p.Works { s.pool with starved := false } := h.tail (.report _ _ false _ _ id)
    exact .works (works_armReturn hr ..)
  · exact turn_poolDrainLocked h ..

/-- A finalization gives the bank back, or delivers it and reports no error. -/
theorem poolFinalizeLocked_turn (hw : FinalizeAnswer) :
    s.pool.Works (poolFinalizeLocked hw s).2.pool ∨
      ((poolFinalizeLocked hw s).1 = none ∧ s.pool.Turn (poolFinalizeLocked hw s).2.pool) := by
  unfold poolFinalizeLocked
  dsimp only
  split
  · exact .inl .refl
  next hok =>
    have ha : s.pool.dmaActive = true := by
      rw [not_or] at hok
      simpa using hok.1
    have hfail : ∀ result,
        s.pool.Works ((s.pool.spoil result).accountMissed hw.missed).abandon := fun result =>
      have hs : s.pool.Works (s.pool.spoil result) := .single (.spoil ha result)
      (hs.tail (.accountMissed hw.missed)).tail (.abandon ha)
    split
    · exact .inl (hfail _)
    split
    · split
      · exact .inr ⟨rfl, .delivers ha ..⟩
      · exact .inl (hfail _)
    · exact .inl (hfail _)

theorem turn_workerStop (h : p.Works s.pool) (dmaDone : Bool)
    (status missed resetStatus : U32) :
    p.Turn (workerStop dmaDone status missed resetStatus s).pool := by
  have hr : p.Works { s.pool with running := false } := h.tail (.report false _ _ _ _ nofun)
  unfold workerStop
  dsimp only
  split
  · exact turn_poolDrainLocked hr ..
  split
  · exact turn_stopEpilogue (hr.tail (.accountMissed missed)) _
  · exact turn_stopEpilogue hr _

/-- A finalization delivers the bank, or abandons it and faults. -/
theorem turn_workerRun (dmaDone : Bool) (hw : FinalizeAnswer) :
    s.pool.Turn (workerRun dmaDone hw s).pool := by
  unfold workerRun
  split
  · rcases poolFinalizeLocked_turn (s := s) hw with h | ⟨hr, h⟩
    · exact .works (works_faultPool h _)
    · dsimp only
      rw [hr]
      exact h
  · exact .works .refl

/-- The next bank is filled, or the pool starves. -/
theorem works_workerArmNext (h : p.Works s.pool) (hw : ArmAnswer) :
    p.Works (workerArmNext hw s).pool := by
  unfold workerArmNext
  split
  · split
    · next hfree => exact works_poolArmBankLocked h _ (Pool.findFree_spec hfree).1 hw
    · dsimp only
      split
      · exact h
      · exact h.tail (.report _ _ true _ _ id)
  · exact h

/-! ## The sections of the ioctls -/

/-- A pool is configured anew and its first bank is filled. -/
theorem turn_poolStart (request : PoolStart) (resetStatus : U32) (hw : ArmAnswer) :
    s.pool.Turn (poolStart L request resetStatus hw s).pool := by
  have h : s.pool.Turn s.pool := .works .refl
  unfold poolStart
  dsimp only
  split
  · exact h
  split
  · exact h
  split
  · exact h
  next hcount =>
    split
    · exact h
    split
    · exact h
    split
    · exact h
    split
    · exact h
    next hfree =>
      split
      · exact h
      next frameBytes bankBytes _ _ _ =>
        refine .starts request (timeoutOrDefault request.armTimeoutMs) frameBytes bankBytes
          (free_of_not_busy hfree).2 (by omega) ?_
        apply works_poolArmBankLocked
        · exact .refl
        · show 0 < request.bankCount.toNat
          omega

/-- DEQUEUE returns the oldest READY bank, or no bank at all. -/
theorem poolDequeue_cases (timeoutMs : U32) (outcome : WaitOutcome) (status : U32) :
    (∃ e, poolDequeue timeoutMs outcome status s = s.returns .poolDequeue (some e)) ∨
    ∃ i, s.pool.findReady = some i ∧ poolDequeue timeoutMs outcome status s
      = { s with pool := s.pool.grant i }.returns .poolDequeue none
        (.dequeued { (s.pool.bank i).result with poolFlags := s.pool.flags status }) := by
  unfold poolDequeue
  split
  · exact .inl ⟨_, rfl⟩
  split
  · exact .inl ⟨_, rfl⟩
  split
  · exact .inl ⟨_, rfl⟩
  split
  · exact .inl ⟨_, rfl⟩
  · next i hready => exact .inr ⟨i, hready, rfl⟩

/-- The token under which a bank is lent. -/
def Pool.token (p : Pool) (i : Nat) : PoolRelease :=
  ⟨BitVec.ofNat 32 i, (p.bank i).generation, p.runId, (p.bank i).sequence⟩

/-- RELEASE frees the lent bank its argument is the token of, or fails with ESTALE. -/
theorem poolReleaseBank_cases (release : PoolRelease) :
    (¬ (release.bankIndex.toNat < s.pool.bankCount ∧
        s.pool.state release.bankIndex.toNat = .userOwned ∧
        release = s.pool.token release.bankIndex.toNat) ∧
      poolReleaseBank release s = s.returns .poolRelease (some .estale)) ∨
    (release.bankIndex.toNat < s.pool.bankCount ∧
      s.pool.state release.bankIndex.toNat = .userOwned ∧
      release = s.pool.token release.bankIndex.toNat ∧
      (poolReleaseBank release s).pool = s.pool.takeBack release.bankIndex.toNat) := by
  have htoken : release = s.pool.token release.bankIndex.toNat ↔
      release.runId = s.pool.runId ∧
      release.bankGeneration = (s.pool.bank release.bankIndex.toNat).generation ∧
      release.bankSequence = (s.pool.bank release.bankIndex.toNat).sequence := by
    obtain ⟨index, generation, runId, sequence⟩ := release
    simp [Pool.token]
    tauto
  rw [htoken]
  unfold poolReleaseBank
  dsimp only
  split
  · next h =>
    exact .inl ⟨by rintro ⟨hi, -, hr, -⟩; rcases h with h | h <;> [omega; exact h hr], rfl⟩
  next hindex =>
    obtain ⟨hi, hr⟩ := not_or.mp hindex
    split
    · next h =>
      refine .inl ⟨?_, rfl⟩
      rintro ⟨-, hs, -, hg, hq⟩
      rcases h with h | h | h
      · exact h hs
      · exact h hg
      · exact h hq
    next htok =>
      simp only [not_or, not_not] at htok
      refine .inr ⟨by omega, htok.1, ⟨not_not.mp hr, htok.2⟩, ?_⟩
      split <;> rfl

/-- A stop that is asked for only stops the pool from running. -/
theorem works_poolStopRequest {runId : U64} {s' : Sys} (hreq : poolStopRequest runId s = .ok s') :
    s.pool.Works s'.pool := by
  rw [poolStopRequest_eq hreq]
  exact .single (.report false true _ _ _ nofun)

theorem works_poolStop (stop : PoolStop) : s.pool.Works (poolStop stop s).pool := by
  unfold poolStop
  split
  · exact .refl
  split
  · exact .refl
  · next hreq =>
    have hs := works_poolStopRequest hreq
    exact hs

theorem works_closeStop (runId : U64) : s.pool.Works (closeStop runId s).pool := by
  unfold closeStop
  split
  · exact .refl
  · next hreq =>
    have hs := works_poolStopRequest hreq
    exact hs

/-- The callback notes the time. -/
theorem works_dmaComplete {r : DmaResult} {now : U64} {s' : Sys}
    (hd : dmaComplete r now s = some s') : s.pool.Works s'.pool := by
  unfold dmaComplete at hd
  split at hd
  · cases hd
  dsimp only at hd
  split at hd
  · cases hd
    exact .single (.report _ _ _ _ now id)
  · cases hd
    exact .refl

/-! ## Sections that leave the pool alone -/

/-- A synchronous capture is no business of the pool. -/
theorem runCapture_pool (op : Op) (request : CaptureRequest) (hw : SetupAnswer) :
    (runCapture L op request hw s).pool = s.pool := by
  unfold runCapture
  dsimp only
  repeat' split
  all_goals first | rfl | (rw [terminate_eq]; rfl)

theorem captureDone_pool {op : Op} {request : CaptureRequest} {frameBytes : Nat}
    {outcome : WaitOutcome} {ev : Evidence} {s' : Sys}
    (h : captureDone op request frameBytes outcome ev s = some s') : s'.pool = s.pool := by
  unfold captureDone at h
  obtain ⟨s₁, h₁, rfl⟩ := Option.map_eq_some_iff.mp h
  have hp : s₁.pool = s.pool := by rw [(takeCompletion_eq h₁).1]
  rw [← hp]
  repeat' split
  all_goals rfl

theorem armTriggered_pool (arm : TriggeredArm) (hw : SetupAnswer) :
    (armTriggered L arm hw s).pool = s.pool := by
  unfold armTriggered
  dsimp only
  repeat' split
  all_goals first | rfl | (rw [terminate_eq]; rfl)

/-- Only `close` takes the banks back. -/
theorem cancelReturn_pool {caller : CancelCaller} (hc : caller ≠ .close) (r : Option Errno) :
    (cancelReturn caller r s).pool = s.pool := by
  cases caller with
  | close => exact absurd rfl hc
  | arm => rfl
  | wait e out => rfl
  | cancel => rfl

theorem cancelTriggeredLocked_pool {caller : CancelCaller} {status : U32}
    (hc : caller ≠ .close ∨ s.triggered.active = true) :
    (cancelTriggeredLocked caller status s).pool = s.pool := by
  unfold cancelTriggeredLocked
  split
  · next hact =>
    rcases hc with hc | hc
    · exact cancelReturn_pool hc none
    · rw [hc] at hact
      cases hact
  · dsimp only
    split <;> rfl

/-- The end of a cancellation changes the pool only for `close`. -/
theorem cancelDone_pool {caller : CancelCaller} {completed : Bool} {status resetStatus : U32}
    {s' : Sys} (h : cancelDone caller completed status resetStatus s = some s') :
    (caller ≠ .close ∧ s'.pool = s.pool) ∨ (caller = .close ∧ s'.pool = s.pool.closeBanks) := by
  unfold cancelDone at h
  obtain ⟨s₁, h₁, rfl⟩ := Option.map_eq_some_iff.mp h
  have hp : s₁.pool = s.pool := by rw [(takeCompletion_eq h₁).1]
  rw [← hp]
  by_cases hc : caller = .close
  · refine .inr ⟨hc, ?_⟩
    subst hc
    repeat' split
    all_goals rfl
  · refine .inl ⟨hc, ?_⟩
    repeat' split
    all_goals exact cancelReturn_pool hc _

theorem waitTriggeredFinish_pool (outcome : WaitOutcome) (ev : Evidence) (cancelStatus : U32) :
    (waitTriggeredFinish outcome ev cancelStatus s).pool = s.pool := by
  unfold waitTriggeredFinish
  dsimp only
  repeat' split
  all_goals first | rfl | exact cancelTriggeredLocked_pool (.inl (by simp))

theorem waitTriggered_pool (timeoutMs : U32) : (waitTriggered timeoutMs s).pool = s.pool := by
  unfold waitTriggered
  repeat' split
  all_goals rfl

theorem armPolled_pool (status cancelStatus : U32) :
    (armPolled status cancelStatus s).pool = s.pool := by
  unfold armPolled
  split
  · rfl
  · exact cancelTriggeredLocked_pool (.inl (by simp))

theorem cancelTriggered_pool (status : U32) : (cancelTriggered status s).pool = s.pool := by
  unfold cancelTriggered
  split
  · rfl
  · exact cancelTriggeredLocked_pool (.inl (by simp))

/-! ## The inversion -/

/-- The step is the last section of close. -/
def resetsBanks (s : Sys) : Action → Bool
  | .closeCancel _ => !s.triggered.active
  | .cancelDone _ _ _ => s.lock = some (.cancelWait .close)
  | _ => false

/-- The two ioctls with which a client takes a bank and gives it back. -/
def Action.isClient : Action → Bool
  | .poolDequeue _ _ _ | .poolRelease _ => true
  | _ => false

/-- What the other sections can do to the pool. -/
theorem turn_fires {a : Action} {s' : Sys} (hm : Modes L s) (h : Fires L s a s')
    (hc : a.isClient = false) :
    s.pool.Turn s'.pool ∨ (resetsBanks s a = true ∧ s'.pool = s.pool.closeBanks) := by
  have hr : s.pool.Turn s.pool := .works .refl
  cases h with
  | poolDequeue => cases hc
  | poolRelease => cases hc
  | closeCancel =>
    cases hact : s.triggered.active with
    | false =>
      refine .inr ⟨by simp [resetsBanks, hact], ?_⟩
      simp [cancelTriggeredLocked, hact, cancelReturn]
    | true =>
      rw [cancelTriggeredLocked_pool (.inr hact)]
      exact .inl hr
  | cancelDone hl hd =>
    rcases cancelDone_pool hd with ⟨-, hp⟩ | ⟨hc, hp⟩
    · rw [hp]
      exact .inl hr
    · exact .inr ⟨by simp [resetsBanks, hl, hc], hp⟩
  | dmaComplete hd => exact .inl (.works (works_dmaComplete hd))
  | refused => exact .inl hr
  | capture => exact .inl (by rw [runCapture_pool]; exact hr)
  | captureFrames => exact .inl (by rw [runCapture_pool]; exact hr)
  | captureDone _ hd => exact .inl (by rw [captureDone_pool hd]; exact hr)
  | armTriggered => exact .inl (by rw [armTriggered_pool]; exact hr)
  | armPolled => exact .inl (by rw [armPolled_pool]; exact hr)
  | waitTriggered => exact .inl (by rw [waitTriggered_pool]; exact hr)
  | waitTriggeredWake _ hw =>
    obtain ⟨s₁, h₁, rfl⟩ := Option.map_eq_some_iff.mp hw
    rw [(takeCompletion_eq h₁).1]
    exact .inl hr
  | waitTriggeredFinish => exact .inl (by rw [waitTriggeredFinish_pool]; exact hr)
  | waitTriggeredInterrupted => exact .inl hr
  | cancelTriggered => exact .inl (by rw [cancelTriggered_pool]; exact hr)
  | poolStart => exact .inl (turn_poolStart ..)
  | poolArmPolled => exact .inl (turn_poolArmPolled .refl ..)
  | drainWake => exact .inl (turn_drainWake .refl _)
  | drainFinish hl => exact .inl (turn_drainFinish .refl (hm.holder _ hl) ..)
  | workerFetch => exact .inl hr
  | workerStop => exact .inl (turn_workerStop .refl ..)
  | workerRun => exact .inl (turn_workerRun ..)
  | workerArmNext => exact .inl (.works (works_workerArmNext .refl _))
  | poolReleaseWake =>
    obtain ⟨ret, he⟩ := poolReleaseWake_eq _ s
    rw [he]
    exact .inl hr
  | poolStop => exact .inl (.works (works_poolStop _))
  | poolStopWake =>
    obtain ⟨threads, ret, he⟩ := poolStopWake_eq _ s
    rw [he]
    exact .inl hr
  | poolStopFinish => exact .inl hr
  | openFile => exact .inl hr
  | closeFile => exact .inl hr
  | closeStopInterrupted => exact .inl hr
  | closeStop => exact .inl (.works (works_closeStop _))
  | closeStopWake => exact .inl hr

/-- What one step of the driver can do to the pool. -/
theorem pool_fires {a : Action} {s' : Sys} (hm : Modes L s) (h : Fires L s a s') :
    s.pool.Changes s'.pool ∨ (resetsBanks s a = true ∧ s'.pool = s.pool.closeBanks) := by
  cases hc : a.isClient with
  | false => exact (turn_fires hm h hc).imp_left Pool.Turn.changes
  | true =>
    cases h with
    | @poolDequeue timeoutMs status outcome hl =>
      rcases poolDequeue_cases (s := s) timeoutMs outcome status with ⟨e, he⟩ | ⟨i, hready, he⟩
      · rw [he]
        exact .inl .refl
      · obtain ⟨hi, hs⟩ := Pool.findReady_spec hready
        rw [he]
        exact .inl (.single (.grant hi hs))
    | @poolRelease release hl =>
      rcases poolReleaseBank_cases (s := s) release with ⟨-, he⟩ | ⟨hi, hs, -, he⟩
      · rw [he]
        exact .inl .refl
      · rw [he]
        exact .inl (.single (.takeBack hi hs))
    | _ => cases hc

theorem Modes.quiet (h : Modes L s) : Modes L s.quiet := h.of_eq rfl rfl rfl

/-- Whether the banks are taken back does not depend on what was returned. -/
theorem resetsBanks_quiet (a : Action) : resetsBanks s.quiet a = resetsBanks s a := by
  cases a <;> rfl

/-- A step changes the pool in the known ways, or takes every bank back. -/
theorem pool_step {a : Action} {s' : Sys} (hm : Modes L s) (h : step L s a = some s') :
    s.pool.Changes s'.pool ∨ (resetsBanks s a = true ∧ s'.pool = s.pool.closeBanks) := by
  rw [← resetsBanks_quiet a]
  have hm' : Modes L s.quiet := hm.quiet
  have hp := pool_fires hm' (step_fires h)
  exact hp

/-- A step of the driver, when no client is at work. -/
theorem turn_step {a : Action} {s' : Sys} (hm : Modes L s) (h : step L s a = some s')
    (hc : a.isClient = false) :
    s.pool.Turn s'.pool ∨ (resetsBanks s a = true ∧ s'.pool = s.pool.closeBanks) := by
  rw [← resetsBanks_quiet a]
  have hm' : Modes L s.quiet := hm.quiet
  have hp := turn_fires hm' (step_fires h) hc
  exact hp

/-! ## The books -/

/-- Every change keeps the counters and the places exact. -/
theorem Pool.Change.exact (hc : p.Change q) (h : p.Exact) : q.Exact := by
  cases hc with
  | fault e => exact h.fault e
  | accountMissed missed => exact h.accountMissed missed
  | report running stopping starved events now hr =>
    exact ⟨⟨h.fits, h.ready, h.user, h.target⟩, h.free, h.designated, h.nobody, h.only⟩
  | fill hi hs ha => exact h.fill hi hs ha
  | abandon ha => exact h.abandon ha
  | deliver ha result => exact h.deliver ha result
  | spoil result => exact h.spoil result
  | discardReady => exact h.discardReady
  | start request timeoutMs frameBytes bankBytes _ hb => exact .start _ _ _ _ hb
  | grant hi hs => exact h.grant hi hs
  | takeBack hi hs => exact h.takeBack hi hs

theorem Pool.Changes.exact (hc : p.Changes q) (h : p.Exact) : q.Exact := by
  induction hc with
  | refl => exact h
  | tail _ hc ih => exact hc.exact ih

/-- A step that resets the banks does so with no transaction of the pool in flight. -/
def CleanReset (s : Sys) (a : Action) (_ : Sys) : Prop :=
  resetsBanks s a = true → s.pool.dmaActive = false

/-- A step keeps them, when `close` finds no bank filling. -/
theorem exact_step {a : Action} {s' : Sys} (hm : Modes L s) (h : s.pool.Exact)
    (hstep : step L s a = some s') (hc : CleanReset s a s') : s'.pool.Exact := by
  rcases pool_step hm hstep with hch | ⟨hr, hp⟩
  · exact hch.exact h
  · rw [hp]
    exact h.closeBanks (hc hr)

/-- The books as a reader of the counters sees them. -/
structure Pool.Books (p : Pool) : Prop where
  free : p.freeBanks.toNat = p.count .free
  ready : p.readyBanks.toNat = p.count .ready
  user : p.userBanks.toNat = p.count .userOwned
  oneFilling : p.count .filling ≤ 1
  designates : p.fillingBank < p.bankCount ↔ p.dmaActive = true
  target : p.fillingBank < p.bankCount → p.state p.fillingBank = .filling
  total : p.count .free + p.count .filling + p.count .ready + p.count .userOwned = p.bankCount

/-- There is one filling bank at most. -/
theorem Pool.Exact.count_filling_le (h : p.Exact) : p.count .filling ≤ 1 := by
  -- only the designated bank is FILLING, so taking it out leaves none
  by_cases hf : p.fillingBank < p.bankCount ∧ p.state p.fillingBank = .filling
  · have h0 : tally p.bankCount (setCell p.state p.fillingBank .free) .filling = 0 :=
      tally_eq_zero.mpr (h.none_filling (by decide))
    have h1 := tally_leave (a := .free) hf.1 hf.2 (by decide)
    unfold Pool.count
    omega
  · have h0 : p.count .filling = 0 := by
      refine tally_eq_zero.mpr fun i hi hs => hf ?_
      obtain ⟨-, he⟩ := h.only i hi hs
      rw [he]
      exact ⟨hi, hs⟩
    omega

/-- In an exact pool every counter is the number of banks in its state. -/
theorem Pool.Exact.books (h : p.Exact) : p.Books where
  free := by rw [h.free, BitVec.toNat_ofNat, Nat.mod_eq_of_lt (h.count_lt .free)]
  ready := by rw [h.ready, BitVec.toNat_ofNat, Nat.mod_eq_of_lt (h.count_lt .ready)]
  user := by rw [h.user, BitVec.toNat_ofNat, Nat.mod_eq_of_lt (h.count_lt .userOwned)]
  oneFilling := h.count_filling_le
  designates := by
    cases ha : p.dmaActive with
    | true => exact ⟨fun _ => rfl, fun _ => (h.target ha).1⟩
    | false =>
      have hfit := h.fits
      rw [h.nobody ha]
      unfold bankNone maxPoolBanks at *
      exact ⟨fun hlt => absurd hlt (by omega), nofun⟩
  target hlt := by
    cases ha : p.dmaActive with
    | true => exact h.designated ha
    | false =>
      have hfit := h.fits
      rw [h.nobody ha] at hlt
      unfold bankNone maxPoolBanks at *
      omega
  total := p.count_sum

/-! ## Whole runs -/

/-- After every run whose bank resets are clean, the books of the pool are exact. -/
theorem books_run {l : List Action} {s : Sys} (hc : (driver L).Meets CleanReset .init l)
    (hrun : (driver L).run .init l = some s) : s.pool.Books := by
  have hinv : Modes L s ∧ s.pool.Exact :=
    Machine.run_invariant (I := fun s => Modes L s ∧ s.pool.Exact)
      (fun s a s' hs hst hcl => ⟨modes_step hs.1 hst, exact_step hs.1 hs.2 hst hcl⟩)
      ⟨modes_init, Pool.exact_init⟩ hc hrun
  exact hinv.2.books

instance (s : Sys) (a : Action) (s' : Sys) : Decidable (CleanReset s a s') :=
  inferInstanceAs (Decidable (_ → _))

/-- A bank is armed, delivered, dequeued and given back, and the pool is stopped and closed. -/
def poolSession : List Action :=
  [.openFile, .poolStart smallPool 0 {}, .poolArmPolled statusArmed 0,
    .dmaComplete ⟨.noError, 0⟩ 5, .workerFetch, .workerRun ⟨oneWordEvidence, 0, 0⟩,
    .workerArmNext {}, .poolArmPolled statusArmed 0, .poolDequeue 0 .completed 0,
    .poolRelease ⟨0, 1, 1, 1⟩, .closeFile, .closeStop false, .workerFetch,
    .workerStop statusArmed 0 0, .dmaComplete ⟨.noError, 0⟩ 9, .drainWake,
    .drainFinish ⟨statusDone, 0, 0⟩, .closeStopWake .completed, .closeCancel 0]

/-- `books_run` on a whole session. -/
theorem books_poolSession :
    (((driver smallDevice).run .init poolSession).get (by decide +kernel)).pool.Books :=
  books_run (by decide +kernel) (Option.some_get _).symm

/-- The drain of a close times out, the banks are reset all the same, and the transaction
that was never drained completes later. -/
def lateDma : List Action :=
  [.openFile, .poolStart smallPool 0 {}, .poolArmPolled statusArmed 0, .closeFile,
    .closeStop false, .workerFetch, .workerStop statusArmed 0 0, .drainWake,
    .closeStopWake .completed, .closeCancel 0, .dmaComplete ⟨.noError, 0⟩ 5, .workerFetch,
    .workerRun ⟨oneWordEvidence, 0, 0⟩]

/-- After `lateDma` one bank of two is READY and the counter of FREE banks is still two. -/
theorem lateDma_breaks_books :
    ¬ (((driver smallDevice).run .init lateDma).get (by decide +kernel)).pool.Books :=
  fun h => absurd h.free (by decide +kernel)

end QCrate.Dma
