import QCrate.Dma.Frames
import QCrate.Dma.PoolInvariant

/-!
# DMA ownership of the coherent buffer

The DMA engine may write the range of every transaction in flight at any time until its
callback has run. `Flight` ties each transaction to the flag that protects its range; with
`Modes` it gives the separation of delivered data from everything that is written.

* `flight_step` — one step keeps `Flight`, unless the worker finalizes a bank with a DMA_DONE
  that belongs to an earlier transaction.
* `ownership_run` — separation in every state of every run without such a step.
* `staleDone_two_in_flight` — what one such step leads to.
-/

namespace QCrate.Dma

open QCrate.Lib

/-! ## Ranges -/

def Range.Disjoint (r₁ r₂ : Range) : Prop :=
  r₁.offset + r₁.bytes ≤ r₂.offset ∨ r₂.offset + r₂.bytes ≤ r₁.offset

namespace Pool

def bankRange (p : Pool) (i : Nat) : Range := ⟨i * p.bankBytes, p.bankBytes⟩

/-- The bank holds data that userspace has, or may get. -/
def Delivered (p : Pool) (i : Nat) : Prop :=
  i < p.bankCount ∧ (p.state i = .ready ∨ p.state i = .userOwned)

variable {p : Pool}

/-- Two banks share no byte. -/
theorem bankRange_disjoint {i j : Nat} (h : i ≠ j) :
    (p.bankRange i).Disjoint (p.bankRange j) := by
  unfold Range.Disjoint bankRange
  rcases Nat.lt_or_gt_of_ne h with hlt | hlt
  · left
    calc i * p.bankBytes + p.bankBytes = (i + 1) * p.bankBytes := by ring
      _ ≤ j * p.bankBytes := Nat.mul_le_mul_right _ hlt
  · right
    calc j * p.bankBytes + p.bankBytes = (j + 1) * p.bankBytes := by ring
      _ ≤ i * p.bankBytes := Nat.mul_le_mul_right _ hlt

/-- Every bank lies in the buffer. -/
theorem bankRange_inside {i n : Nat} (hi : i < p.bankCount) (h : p.bankCount * p.bankBytes ≤ n) :
    (p.bankRange i).offset + (p.bankRange i).bytes ≤ n := by
  calc i * p.bankBytes + p.bankBytes = (i + 1) * p.bankBytes := by ring
    _ ≤ p.bankCount * p.bankBytes := Nat.mul_le_mul_right _ hi
    _ ≤ n := h

/-- An idle pool lends nothing. -/
theorem Idle.not_delivered (h : p.Idle) (hc : p.Counted) (i : Nat) : ¬ p.Delivered i := by
  rintro ⟨hi, hs | hs⟩
  · exact hc.no_ready h.ready i hi hs
  · exact hc.no_user h.user i hi hs

end Pool

/-! ## Transactions in flight -/

/-- The flag that protects a transaction is set. -/
def Transfer.OwnedBy (t : Transfer) (lock : Option Holder) (active : Bool) (p : Pool) : Prop :=
  match t.owner with
  | .capture => ∃ op request frameBytes, lock = some (.captureWait op request frameBytes)
  | .triggered => active = true
  | .pool => p.dmaActive = true ∧ t.range = p.bankRange p.fillingBank

structure Flight (s : Sys) : Prop where
  one : s.inflight.length ≤ 1
  owned : ∀ t ∈ s.inflight, t.OwnedBy s.lock s.triggered.active s.pool
  /-- the callback has not overwritten the result the section prepared -/
  pending : s.inflight ≠ [] → s.result.result = .aborted

variable {L : Limits} {s s' : Sys}

theorem flight_init : Flight .init := ⟨Nat.zero_le _, nofun, nofun⟩

/-- The lock is not held by a synchronous capture. -/
def NoCapture (s : Sys) : Prop :=
  ∀ op request frameBytes, s.lock ≠ some (.captureWait op request frameBytes)

/-- A lock that nobody holds is held by no capture. -/
theorem NoCapture.of_none (hl : s.lock = none) : NoCapture s := by
  intro op request frameBytes
  rw [hl]
  nofun

theorem NoCapture.lock (h : NoCapture s) (op : Op) (request : CaptureRequest) (frameBytes : Nat)
    (he : s.lock = some (.captureWait op request frameBytes)) : s'.lock = s.lock :=
  absurd he (h op request frameBytes)

namespace Flight

/-- Nothing is under way. -/
theorem of_empty (h : s.inflight = []) : Flight s where
  one := by simp [h]
  owned t ht := by
    rw [h] at ht
    cases ht
  pending hne := absurd h hne

/-- One transfer is under way, for the mode that has the device. -/
theorem of_single {t : Transfer} (h : s.inflight = [t])
    (ho : t.OwnedBy s.lock s.triggered.active s.pool) (hr : s.result.result = .aborted) :
    Flight s where
  one := by simp [h]
  owned t' ht := by
    rw [h, List.mem_singleton] at ht
    rw [ht]
    exact ho
  pending _ := hr

/-- A step that leaves the channel and the protecting flags alone. -/
theorem keep (h : Flight s) (hi : s'.inflight = s.inflight) (hr : s'.result = s.result)
    (ha : s'.triggered.active = s.triggered.active) (hd : s'.pool.dmaActive = s.pool.dmaActive)
    (hf : s'.pool.fillingBank = s.pool.fillingBank) (hb : s'.pool.bankBytes = s.pool.bankBytes)
    (hl : ∀ op request frameBytes, s.lock = some (.captureWait op request frameBytes) →
      s'.lock = s.lock) : Flight s' := by
  refine ⟨by rw [hi]; exact h.one, fun t ht => ?_, fun hne => ?_⟩
  · rw [hi] at ht
    have ho := h.owned t ht
    unfold Transfer.OwnedBy at ho ⊢
    cases hw : t.owner with
    | capture =>
      rw [hw] at ho
      obtain ⟨op, request, frameBytes, hlock⟩ := ho
      exact ⟨op, request, frameBytes, (hl op request frameBytes hlock).trans hlock⟩
    | triggered =>
      rw [hw] at ho
      exact ha.trans ho
    | pool =>
      rw [hw] at ho
      refine ⟨hd.trans ho.1, ?_⟩
      show t.range = ⟨s'.pool.fillingBank * s'.pool.bankBytes, s'.pool.bankBytes⟩
      rw [hf, hb]
      exact ho.2
  · rw [hi] at hne
    rw [hr]
    exact h.pending hne

/-- With all protecting flags down nothing is in flight. -/
theorem empty (h : Flight s) (hl : NoCapture s) (ha : s.triggered.active = false)
    (hd : s.pool.dmaActive = false) : s.inflight = [] := by
  cases hq : s.inflight with
  | nil => rfl
  | cons t rest =>
    have ho := h.owned t (by rw [hq]; exact List.mem_cons_self)
    unfold Transfer.OwnedBy at ho
    cases hw : t.owner with
    | capture =>
      rw [hw] at ho
      obtain ⟨op, request, frameBytes, hlock⟩ := ho
      exact absurd hlock (hl op request frameBytes)
    | triggered =>
      rw [hw] at ho
      rw [ha] at ho
      cases ho
    | pool =>
      rw [hw] at ho
      rw [hd] at ho
      cases ho.1

/-- A result without error means that the callback has run. -/
theorem empty_of_noError (h : Flight s) (hr : s.result.result = .noError) : s.inflight = [] := by
  by_contra hne
  have hp := h.pending hne
  rw [hr] at hp
  cases hp

end Flight

/-- Frames count as delivered only after a transfer without error. -/
theorem noError_of_framesDelivered {r : DmaResult} {frameBytes : Nat} {ev : Evidence}
    {frameLengthWords frameCount : U32}
    (h : framesDelivered r frameBytes ev frameLengthWords frameCount = true) :
    r.result = .noError := by
  simp only [framesDelivered, Bool.and_eq_true, decide_eq_true_eq] at h
  exact h.1.1.1.1.1.1

theorem noError_of_clean {r : DmaResult} (h : ¬ (!r.clean) = true) : r.result = .noError := by
  simp only [DmaResult.clean, Bool.not_eq_true, Bool.not_eq_false', Bool.and_eq_true,
    decide_eq_true_eq] at h
  exact h.1

/-! ## Synchronous and triggered capture -/

/-- A capture submits one transfer, to an idle channel. -/
theorem flight_runCapture (h : Flight s) (hl : s.lock = none) (op : Op)
    (request : CaptureRequest) (hw : SetupAnswer) : Flight (runCapture L op request hw s) := by
  have hkeep : ∀ e, Flight (s.returns op (some e)) :=
    fun e => h.keep rfl rfl rfl rfl rfl rfl fun _ _ _ _ => rfl
  unfold runCapture
  split
  · exact hkeep _
  split
  · exact hkeep _
  split
  · exact hkeep _
  next totalBytes _ hbusy =>
    obtain ⟨ha, hp⟩ := free_of_not_busy hbusy
    have hempty := h.empty (.of_none hl) ha hp.dmaActive
    dsimp only
    split
    · exact .of_empty hempty
    split
    · rw [terminate_eq]
      refine .of_empty ?_
      show (if _ then [] else s.inflight) = []
      rw [hempty, ite_self]
    · refine .of_single (t := ⟨.capture, 0, totalBytes⟩) ?_ ⟨op, request, _, rfl⟩ rfl
      show s.inflight ++ _ = _
      rw [hempty]
      rfl

/-- A capture that ends has no transfer left, or has terminated it. -/
theorem flight_captureDone {op : Op} {request : CaptureRequest} {frameBytes : Nat}
    {outcome : WaitOutcome} {ev : Evidence} (h : Flight s)
    (hstep : captureDone op request frameBytes outcome ev s = some s') : Flight s' := by
  unfold captureDone at hstep
  obtain ⟨s₁, h₁, rfl⟩ := Option.map_eq_some_iff.mp hstep
  have hs₁ : Flight s₁ := by
    rw [(takeCompletion_eq h₁).1]
    exact h.keep rfl rfl rfl rfl rfl rfl fun _ _ _ _ => rfl
  have hstop : ∀ e out, Flight (captureStop op e out s₁) := fun e out => .of_empty rfl
  split
  · exact hstop _ _
  · exact hstop _ _
  · dsimp only
    split
    · exact hstop _ _
    split
    · next hok => exact .of_empty (hs₁.empty_of_noError (noError_of_framesDelivered hok))
    · exact hstop _ _

/-- The end of a cancellation leaves the channel as it is. -/
theorem flight_cancelReturn (h : Flight s) (hl : NoCapture s)
    (caller : CancelCaller) (r : Option Errno) : Flight (cancelReturn caller r s) := by
  cases caller <;> exact h.keep rfl rfl rfl rfl rfl rfl hl.lock

theorem flight_cancelTriggeredLocked (h : Flight s) (hl : NoCapture s)
    (caller : CancelCaller) (status : U32) :
    Flight (cancelTriggeredLocked caller status s) := by
  unfold cancelTriggeredLocked
  split
  · exact flight_cancelReturn h hl ..
  · dsimp only
    split <;> exact h.keep rfl rfl rfl rfl rfl rfl hl.lock

theorem flight_cancelDone {caller : CancelCaller} {completed : Bool} {status resetStatus : U32}
    (h : Flight s) (hl : NoCapture s)
    (hstep : cancelDone caller completed status resetStatus s = some s') : Flight s' := by
  unfold cancelDone at hstep
  obtain ⟨s₁, h₁, rfl⟩ := Option.map_eq_some_iff.mp hstep
  have hs₁ : Flight s₁ := by
    rw [(takeCompletion_eq h₁).1]
    exact h.keep rfl rfl rfl rfl rfl rfl fun _ _ _ _ => rfl
  have hl₁ : NoCapture s₁ := by
    rw [(takeCompletion_eq h₁).1]
    exact hl
  split
  · exact flight_cancelReturn hs₁ hl₁ ..
  split
  · exact flight_cancelReturn hs₁ hl₁ ..
  split
  · exact flight_cancelReturn hs₁ hl₁ ..
  next hclean =>
    have hempty := hs₁.empty_of_noError (noError_of_clean hclean)
    dsimp only
    split
    · exact flight_cancelReturn (s := s₁.write controlSoftReset) (.of_empty hempty) hl₁ ..
    · refine flight_cancelReturn (.of_empty ?_) ?_ ..
      · exact hempty
      · exact hl₁

/-- ARM submits one transfer, to an idle channel. -/
theorem flight_armTriggered (h : Flight s) (hl : s.lock = none) (arm : TriggeredArm)
    (hw : SetupAnswer) : Flight (armTriggered L arm hw s) := by
  have hkeep : ∀ e, Flight (s.returns .armTriggered (some e)) :=
    fun e => h.keep rfl rfl rfl rfl rfl rfl fun _ _ _ _ => rfl
  unfold armTriggered
  split
  · exact hkeep _
  split
  · exact hkeep _
  next totalBytes _ hbusy =>
    obtain ⟨ha, hp⟩ := free_of_not_busy hbusy
    have hempty := h.empty (.of_none hl) ha hp.dmaActive
    dsimp only
    split
    · exact .of_empty hempty
    split
    · rw [terminate_eq]
      refine .of_empty ?_
      show (if _ then [] else s.inflight) = []
      rw [hempty, ite_self]
    · refine .of_single (t := ⟨.triggered, 0, totalBytes⟩) ?_ rfl rfl
      show s.inflight ++ _ = _
      rw [hempty]
      rfl

theorem flight_armPolled (h : Flight s) (hl : s.lock = some .armPoll) (status cancelStatus : U32) :
    Flight (armPolled status cancelStatus s) := by
  have hne : NoCapture s := by
    intro op request frameBytes
    rw [hl]
    nofun
  unfold armPolled
  split
  · exact h.keep rfl rfl rfl rfl rfl rfl hne.lock
  · exact flight_cancelTriggeredLocked h hne ..

theorem flight_waitTriggered (h : Flight s) (timeoutMs : U32) :
    Flight (waitTriggered timeoutMs s) := by
  unfold waitTriggered
  repeat' split
  all_goals exact h.keep rfl rfl rfl rfl rfl rfl fun _ _ _ _ => rfl

theorem flight_waitTriggeredFinish (h : Flight s) (hl : s.lock = none) (outcome : WaitOutcome)
    (ev : Evidence) (cancelStatus : U32) :
    Flight (waitTriggeredFinish outcome ev cancelStatus s) := by
  have hcancel : ∀ caller, Flight (cancelTriggeredLocked caller cancelStatus s) :=
    fun caller => flight_cancelTriggeredLocked h (.of_none hl) caller cancelStatus
  unfold waitTriggeredFinish
  dsimp only
  split
  · exact h.keep rfl rfl rfl rfl rfl rfl fun _ _ _ _ => rfl
  split
  · exact hcancel _
  · exact hcancel _
  · split
    · exact hcancel _
    split
    · next hok =>
      simp only [Bool.and_eq_true] at hok
      exact .of_empty (h.empty_of_noError (noError_of_framesDelivered hok.1.1))
    · exact hcancel _

theorem flight_cancelTriggered (h : Flight s) (hl : s.lock = none) (status : U32) :
    Flight (cancelTriggered status s) := by
  unfold cancelTriggered
  split
  · exact h.keep rfl rfl rfl rfl rfl rfl fun _ _ _ _ => rfl
  · exact flight_cancelTriggeredLocked h (.of_none hl) ..

/-! ## The bank pool -/

theorem faultPool_keep (h : Flight s) (r : Option Errno) (hl : NoCapture s) :
    Flight (faultPool r s).unlock := by
  cases r <;> exact h.keep rfl rfl rfl rfl rfl rfl hl.lock

/-- The end of an arming leaves the channel as it is. -/
theorem flight_armReturn (h : Flight s) (hl : NoCapture s)
    (caller : ArmCaller) (r : Option Errno) : Flight (armReturn caller r s) := by
  have hf := faultPool_keep h r hl
  cases caller <;> exact hf.keep rfl rfl rfl rfl rfl rfl fun _ _ _ _ => rfl

/-- A bank is armed by one transfer, to an idle channel. -/
theorem flight_poolArmBankLocked (h : Flight s) (hl : NoCapture s)
    (hact : s.triggered.active = false) (caller : ArmCaller) (index : Nat) (hw : ArmAnswer) :
    Flight (poolArmBankLocked caller index hw s) := by
  unfold poolArmBankLocked
  split
  · exact flight_armReturn h hl ..
  next hok =>
    have hempty := h.empty hl hact (by simpa using (not_or.mp hok).2)
    dsimp only
    split
    · refine flight_armReturn (.of_empty ?_) ?_ ..
      · exact hempty
      · exact hl
    split
    · rw [terminate_eq]
      refine flight_armReturn (.of_empty ?_) ?_ ..
      · show (if _ then [] else s.inflight) = []
        rw [hempty, ite_self]
      · exact hl
    · refine .of_single (t := ⟨.pool, index * s.pool.bankBytes, s.pool.bankBytes⟩) ?_ ⟨rfl, rfl⟩ rfl
      show s.inflight ++ _ = _
      rw [hempty]
      rfl

theorem flight_stopEpilogue (h : Flight s) (hl : NoCapture s)
    (r : Option Errno) : Flight (stopEpilogue r s) := by
  cases r <;> exact h.keep rfl rfl rfl rfl rfl rfl hl.lock

theorem flight_drainReturn (h : Flight s) (hl : NoCapture s)
    (caller : DrainCaller) (r : Option Errno) : Flight (drainReturn caller r s) := by
  cases caller with
  | arm caller => exact flight_armReturn h hl ..
  | stop => exact flight_stopEpilogue h hl r

theorem flight_poolDrainLocked (h : Flight s) (hl : NoCapture s)
    (caller : DrainCaller) (dmaDone : Bool) (status : U32) :
    Flight (poolDrainLocked caller dmaDone status s) := by
  unfold poolDrainLocked
  split
  · exact flight_drainReturn h hl ..
  · dsimp only
    split <;> exact h.keep rfl rfl rfl rfl rfl rfl hl.lock

theorem flight_drainWake (h : Flight s) {caller : DrainCaller}
    (hl : s.lock = some (.drainWait caller)) : Flight (drainWake caller s) := by
  have hne : NoCapture s := by
    intro op request frameBytes
    rw [hl]
    nofun
  unfold drainWake
  split
  · exact h.keep rfl rfl rfl rfl rfl rfl hne.lock
  · exact flight_drainReturn h hne ..

/-- A drain gives the bank back when its transfer is over. -/
theorem flight_drainFinish (h : Flight s) {caller : DrainCaller} {seen : Bool}
    (hl : s.lock = some (.drainFinish caller seen)) (hw : DrainAnswer) :
    Flight (drainFinish caller seen hw s) := by
  unfold drainFinish
  obtain ⟨s₁, hs₁, hf₁, hl₁⟩ : ∃ s₁ : Sys, s₁ = (if seen then { s with
      poolEvents := { s.poolEvents with dmaDone := false } } else s) ∧ Flight s₁ ∧
      s₁.lock = s.lock := by
    refine ⟨_, rfl, ?_, by split <;> rfl⟩
    split
    · exact h.keep rfl rfl rfl rfl rfl rfl fun _ _ _ _ => rfl
    · exact h
  have hne : NoCapture s₁ := by
    intro op request frameBytes
    rw [hl₁, hl]
    nofun
  rw [← hs₁]
  dsimp only
  split
  · exact flight_drainReturn hf₁ hne ..
  split
  · exact flight_drainReturn hf₁ hne ..
  next hclean =>
    have hempty := hf₁.empty_of_noError (noError_of_clean hclean)
    split
    · refine flight_drainReturn (.of_empty ?_) ?_ ..
      · exact hempty
      · exact hne
    · refine flight_drainReturn (.of_empty ?_) ?_ ..
      · exact hempty
      · exact hne

theorem flight_poolArmPolled (h : Flight s) {caller : ArmCaller}
    (hl : s.lock = some (.poolArmPoll caller)) (status drainStatus : U32) :
    Flight (poolArmPolled caller status drainStatus s) := by
  have hne : NoCapture s := by
    intro op request frameBytes
    rw [hl]
    nofun
  unfold poolArmPolled
  split
  · refine flight_armReturn ?_ ?_ ..
    · exact h.keep rfl rfl rfl rfl rfl rfl fun _ _ _ _ => rfl
    · exact hne
  · exact flight_poolDrainLocked h hne ..

theorem flight_workerStop (h : Flight s) (hl : s.lock = none) (dmaDone : Bool)
    (status missed resetStatus : U32) :
    Flight (workerStop dmaDone status missed resetStatus s) := by
  have hne := NoCapture.of_none hl
  have hr : Flight { s with pool := { s.pool with running := false } } :=
    h.keep rfl rfl rfl rfl rfl rfl fun _ _ _ _ => rfl
  unfold workerStop
  dsimp only
  split
  · refine flight_poolDrainLocked hr ?_ ..
    exact hne
  split
  · refine flight_stopEpilogue ?_ ?_ _
    · exact h.keep rfl rfl rfl rfl rfl rfl fun _ _ _ _ => rfl
    · exact hne
  · refine flight_stopEpilogue hr ?_ _
    exact hne

/-- A finalization of a bank whose callback has run finds nothing in flight. -/
theorem flight_workerRun (hm : Modes L s) (h : Flight s) (hl : s.lock = none) (dmaDone : Bool)
    (hw : FinalizeAnswer)
    (hfresh : (dmaDone && s.pool.dmaActive) = true → s.inflight.any (·.owner = .pool) = false) :
    Flight (workerRun dmaDone hw s) := by
  unfold workerRun
  split
  · next hrun =>
    have ha : s.pool.dmaActive = true := (Bool.and_eq_true_iff.mp hrun).2
    have hact := hm.base.not_active ha
    have hempty : s.inflight = [] := by
      cases hq : s.inflight with
      | nil => rfl
      | cons t rest =>
        have hmem : t ∈ s.inflight := by rw [hq]; exact List.mem_cons_self
        have ho := h.owned t hmem
        have hp := List.any_eq_false.mp (hfresh hrun) t hmem
        unfold Transfer.OwnedBy at ho
        cases hwn : t.owner with
        | capture =>
          rw [hwn] at ho
          obtain ⟨op, request, frameBytes, hlock⟩ := ho
          exact absurd hlock (NoCapture.of_none hl op request frameBytes)
        | triggered =>
          rw [hwn] at ho
          exact absurd (hact.symm.trans ho) (by decide)
        | pool => simp [hwn] at hp
    have hfin : (poolFinalizeLocked hw s).2.inflight = s.inflight := by
      unfold poolFinalizeLocked
      dsimp only
      repeat' split
      all_goals rfl
    refine .of_empty ?_
    dsimp only
    cases (poolFinalizeLocked hw s).1 <;> exact hfin.trans hempty
  · exact h.keep rfl rfl rfl rfl rfl rfl (NoCapture.of_none hl).lock

/-- The worker arms a bank only when none is filling. -/
theorem flight_workerArmNext (hm : Modes L s) (h : Flight s) (hl : s.lock = some .workerArm)
    (hw : ArmAnswer) : Flight (workerArmNext hw s) := by
  have hne : NoCapture s := by
    intro op request frameBytes
    rw [hl]
    nofun
  unfold workerArmNext
  split
  · next hrun =>
    simp only [Bool.and_eq_true, Bool.not_eq_true'] at hrun
    have hact : s.triggered.active = false := by
      cases ha : s.triggered.active with
      | false => rfl
      | true => exact absurd ((hm.base.exclusive ha).running.symm.trans hrun.1.1) (by decide)
    split
    · exact flight_poolArmBankLocked h hne hact ..
    · dsimp only
      split <;> exact h.keep rfl rfl rfl rfl rfl rfl hne.lock
  · exact h.keep rfl rfl rfl rfl rfl rfl hne.lock

theorem flight_poolStart (h : Flight s) (hl : s.lock = none) (request : PoolStart)
    (resetStatus : U32) (hw : ArmAnswer) :
    Flight (poolStart L request resetStatus hw s) := by
  have hkeep : ∀ e, Flight (s.returns .poolStart (some e)) :=
    fun e => h.keep rfl rfl rfl rfl rfl rfl fun _ _ _ _ => rfl
  unfold poolStart
  dsimp only
  split
  · exact hkeep _
  split
  · exact hkeep _
  split
  · exact hkeep _
  split
  · exact hkeep _
  split
  · exact hkeep _
  split
  · exact hkeep _
  split
  · exact hkeep _
  next hbusy =>
    obtain ⟨ha, hp⟩ := free_of_not_busy hbusy
    have hempty := h.empty (.of_none hl) ha hp.dmaActive
    split
    · exact .of_empty hempty
    · refine flight_poolArmBankLocked (.of_empty ?_) ?_ ?_ ..
      · exact hempty
      · exact NoCapture.of_none hl
      · exact ha

theorem flight_poolDequeue (h : Flight s) (timeoutMs : U32) (outcome : WaitOutcome)
    (status : U32) : Flight (poolDequeue timeoutMs outcome status s) := by
  unfold poolDequeue
  repeat' split
  all_goals exact h.keep rfl rfl rfl rfl rfl rfl fun _ _ _ _ => rfl

theorem flight_poolReleaseBank (h : Flight s) (release : PoolRelease) :
    Flight (poolReleaseBank release s) := by
  unfold poolReleaseBank
  dsimp only
  repeat' split
  all_goals exact h.keep rfl rfl rfl rfl rfl rfl fun _ _ _ _ => rfl

theorem flight_poolStop (h : Flight s) (stop : PoolStop) : Flight (poolStop stop s) := by
  unfold poolStop
  split
  · exact h.keep rfl rfl rfl rfl rfl rfl fun _ _ _ _ => rfl
  split
  · exact h.keep rfl rfl rfl rfl rfl rfl fun _ _ _ _ => rfl
  · next hreq =>
    rw [poolStopRequest_eq hreq]
    exact h.keep rfl rfl rfl rfl rfl rfl fun _ _ _ _ => rfl

theorem flight_closeStop (h : Flight s) (runId : U64) : Flight (closeStop runId s) := by
  unfold closeStop
  split
  · exact h.keep rfl rfl rfl rfl rfl rfl fun _ _ _ _ => rfl
  · next hreq =>
    rw [poolStopRequest_eq hreq]
    exact h.keep rfl rfl rfl rfl rfl rfl fun _ _ _ _ => rfl

/-- The callback empties the channel. -/
theorem flight_dmaComplete {r : DmaResult} {now : U64} (h : Flight s)
    (hstep : dmaComplete r now s = some s') : Flight s' := by
  unfold dmaComplete at hstep
  split at hstep
  · cases hstep
  next t rest hq =>
    have hrest : rest = [] := by
      have := h.one
      rw [hq, List.length_cons] at this
      exact List.eq_nil_of_length_eq_zero (by omega)
    dsimp only at hstep
    split at hstep <;> (cases hstep; exact .of_empty hrest)

/-! ## One step -/

/-- The worker is about to finalize a bank with a DMA_DONE of an earlier transaction. -/
def staleDone (s : Sys) : Action → Bool
  | .workerRun _ =>
    (s.worker.map (·.dmaDone)).getD false && s.pool.dmaActive &&
      s.inflight.any (·.owner = .pool)
  | _ => false

def FreshDone (s : Sys) (a : Action) (_ : Sys) : Prop := staleDone s a = false

/-- No action puts a second transfer on the channel. -/
theorem flight_fires {a : Action} (hm : Modes L s) (h : Flight s) (hc : staleDone s a = false)
    (hf : Fires L s a s') : Flight s' := by
  have hk : ∀ op request frameBytes, s.lock = some (.captureWait op request frameBytes) →
    s.lock = s.lock := fun _ _ _ _ => rfl
  cases hf with
  | dmaComplete hd => exact flight_dmaComplete h hd
  | refused => exact h.keep rfl rfl rfl rfl rfl rfl hk
  | capture hl => exact flight_runCapture h hl ..
  | captureFrames hl => exact flight_runCapture h hl ..
  | captureDone _ hd => exact flight_captureDone h hd
  | armTriggered hl => exact flight_armTriggered h hl ..
  | armPolled hl => exact flight_armPolled h hl ..
  | waitTriggered => exact flight_waitTriggered h _
  | waitTriggeredWake _ hw =>
    obtain ⟨s₁, h₁, rfl⟩ := Option.map_eq_some_iff.mp hw
    rw [(takeCompletion_eq h₁).1]
    exact h.keep rfl rfl rfl rfl rfl rfl hk
  | waitTriggeredFinish _ hl =>
    refine flight_waitTriggeredFinish ?_ ?_ ..
    · exact h.keep rfl rfl rfl rfl rfl rfl hk
    · exact hl
  | waitTriggeredInterrupted => exact h.keep rfl rfl rfl rfl rfl rfl hk
  | cancelTriggered hl => exact flight_cancelTriggered h hl _
  | cancelDone hl hd =>
    refine flight_cancelDone h (fun op request frameBytes he => ?_) hd
    rw [hl] at he
    cases he
  | poolStart hl => exact flight_poolStart h hl ..
  | poolArmPolled hl => exact flight_poolArmPolled h hl ..
  | drainWake hl => exact flight_drainWake h hl
  | drainFinish hl => exact flight_drainFinish h hl _
  | workerFetch => exact h.keep rfl rfl rfl rfl rfl rfl hk
  | workerStop _ hl => exact flight_workerStop h hl ..
  | workerRun hwk hl =>
    refine flight_workerRun hm h hl _ _ fun hrun => ?_
    simpa [staleDone, hwk, Bool.and_eq_true_iff.mp hrun] using hc
  | workerArmNext hl => exact flight_workerArmNext hm h hl _
  | poolDequeue => exact flight_poolDequeue h ..
  | poolRelease => exact flight_poolReleaseBank h _
  | poolReleaseWake =>
    obtain ⟨ret, he⟩ := poolReleaseWake_eq _ s
    rw [he]
    exact h.keep rfl rfl rfl rfl rfl rfl hk
  | poolStop => exact flight_poolStop h _
  | poolStopWake =>
    obtain ⟨threads, ret, he⟩ := poolStopWake_eq _ s
    rw [he]
    exact h.keep rfl rfl rfl rfl rfl rfl hk
  | poolStopFinish => exact h.keep rfl rfl rfl rfl rfl rfl hk
  | openFile => exact h.keep rfl rfl rfl rfl rfl rfl hk
  | closeFile => exact h.keep rfl rfl rfl rfl rfl rfl hk
  | closeStopInterrupted => exact h.keep rfl rfl rfl rfl rfl rfl hk
  | closeStop => exact flight_closeStop h _
  | closeStopWake => exact h.keep rfl rfl rfl rfl rfl rfl hk
  | closeCancel _ hl => exact flight_cancelTriggeredLocked h (.of_none hl) ..

/-- One step keeps `Flight`, unless a stale DMA_DONE is finalized. -/
theorem flight_step {a : Action} (hm : Modes L s) (h : Flight s) (hstep : step L s a = some s')
    (hc : FreshDone s a s') : Flight s' := by
  have hmq : Modes L s.quiet := hm.of_eq rfl rfl rfl
  have hfq : Flight s.quiet := h.keep rfl rfl rfl rfl rfl rfl fun _ _ _ _ => rfl
  have hsq : staleDone s.quiet a = false := by
    rw [show staleDone s.quiet a = staleDone s a by cases a <;> rfl]
    exact hc
  exact flight_fires hmq hfq hsq (step_fires hstep)

/-! ## Poison -/

/-- What the step to `s'` filled with 0xa5 holds no delivered bank of `p`. -/
def Spares (p : Pool) (s' : Sys) : Prop :=
  ∀ range, s'.poison = some range → ∀ i, p.Delivered i → range.Disjoint (p.bankRange i)

variable {p : Pool}

/-- Nothing was filled. -/
theorem Spares.of_none (h : s'.poison = none) : Spares p s' := by
  intro range hr
  rw [h] at hr
  cases hr

/-- An idle pool has no bank that could be hit. -/
theorem Spares.of_idle (hp : p.Idle) (hc : p.Counted) : Spares p s' :=
  fun _ _ i hi => absurd hi (hp.not_delivered hc i)

/-- A FREE bank may be filled. -/
theorem Spares.of_free {index : Nat} (hs : p.state index = .free)
    (hr : ∀ range, s'.poison = some range → range = p.bankRange index) : Spares p s' := by
  intro range hrange i hi
  rw [hr range hrange]
  refine Pool.bankRange_disjoint fun he => ?_
  obtain ⟨-, hst | hst⟩ := hi
  · rw [← he, hs] at hst
    cases hst
  · rw [← he, hs] at hst
    cases hst

/-- The buffer is filled only before a capture. -/
theorem captureDone_poison {op : Op} {request : CaptureRequest} {frameBytes : Nat}
    {outcome : WaitOutcome} {ev : Evidence}
    (h : captureDone op request frameBytes outcome ev s = some s') : s'.poison = s.poison := by
  unfold captureDone at h
  obtain ⟨s₁, h₁, rfl⟩ := Option.map_eq_some_iff.mp h
  have hp : s₁.poison = s.poison := by rw [(takeCompletion_eq h₁).1]
  rw [← hp]
  repeat' split
  all_goals rfl

theorem cancelDone_poison {caller : CancelCaller} {completed : Bool} {status resetStatus : U32}
    (h : cancelDone caller completed status resetStatus s = some s') : s'.poison = s.poison := by
  unfold cancelDone at h
  obtain ⟨s₁, h₁, rfl⟩ := Option.map_eq_some_iff.mp h
  have hp : s₁.poison = s.poison := by rw [(takeCompletion_eq h₁).1]
  rw [← hp]
  repeat' split
  all_goals exact (untouched_cancelReturn ..).poison

theorem waitTriggeredFinish_poison (outcome : WaitOutcome) (ev : Evidence) (cancelStatus : U32) :
    (waitTriggeredFinish outcome ev cancelStatus s).poison = s.poison := by
  unfold waitTriggeredFinish
  dsimp only
  repeat' split
  all_goals first | rfl | exact (untouched_cancelTriggeredLocked ..).poison

/-- Arming a bank fills that bank, which is FREE. -/
theorem spares_poolArmBankLocked (hq : s.poison = none) (caller : ArmCaller) (index : Nat)
    (hw : ArmAnswer) : Spares s.pool (poolArmBankLocked caller index hw s) := by
  unfold poolArmBankLocked
  split
  · exact .of_none ((untouched_armReturn ..).poison.trans hq)
  next hok =>
    have hfree := not_not.mp (not_or.mp hok).1
    have hrange : ∀ s' : Sys, s'.poison = some (s.pool.bankRange index) → Spares s.pool s' :=
      fun s' hs' => .of_free hfree fun range hr => (Option.some.inj (hs'.symm.trans hr)).symm
    dsimp only
    split
    · exact .of_none ((untouched_armReturn ..).poison.trans hq)
    split
    · rw [terminate_eq]
      exact hrange _ (untouched_armReturn ..).poison
    · exact hrange _ rfl

/-- A capture fills the buffer only while the pool is idle. -/
theorem spares_runCapture (hm : Modes L s) (hq : s.poison = none) (op : Op)
    (request : CaptureRequest) (hw : SetupAnswer) :
    Spares s.pool (runCapture L op request hw s) := by
  unfold runCapture
  split
  · exact .of_none hq
  split
  · exact .of_none hq
  split
  · exact .of_none hq
  next hbusy => exact .of_idle (free_of_not_busy hbusy).2 hm.base.counted

/-- So does ARM. -/
theorem spares_armTriggered (hm : Modes L s) (hq : s.poison = none) (arm : TriggeredArm)
    (hw : SetupAnswer) : Spares s.pool (armTriggered L arm hw s) := by
  unfold armTriggered
  split
  · exact .of_none hq
  split
  · exact .of_none hq
  next hbusy => exact .of_idle (free_of_not_busy hbusy).2 hm.base.counted

/-- POOL_START fills the buffer before a bank is lent. -/
theorem spares_poolStart (hm : Modes L s) (hq : s.poison = none) (request : PoolStart)
    (resetStatus : U32) (hw : ArmAnswer) :
    Spares s.pool (poolStart L request resetStatus hw s) := by
  unfold poolStart
  dsimp only
  split
  · exact .of_none hq
  split
  · exact .of_none hq
  split
  · exact .of_none hq
  split
  · exact .of_none hq
  split
  · exact .of_none hq
  split
  · exact .of_none hq
  split
  · exact .of_none hq
  next hbusy => exact .of_idle (free_of_not_busy hbusy).2 hm.base.counted

/-- The worker fills the bank that it arms. -/
theorem spares_workerArmNext (hq : s.poison = none) (hw : ArmAnswer) :
    Spares s.pool (workerArmNext hw s) := by
  unfold workerArmNext
  split
  · split
    · exact spares_poolArmBankLocked hq _ _ _
    · exact .of_none hq
  · exact .of_none hq

/-- No action fills a bank that is ready or lent. -/
theorem spares_fires {a : Action} (hm : Modes L s) (hq : s.poison = none)
    (hf : Fires L s a s') : Spares s.pool s' := by
  cases ht : touches a with
  | false => exact .of_none ((untouched_fires hf ht).poison.trans hq)
  | true =>
    cases hf with
    | capture => exact spares_runCapture hm hq _ _ _
    | captureFrames => exact spares_runCapture hm hq _ _ _
    | armTriggered => exact spares_armTriggered hm hq _ _
    | poolStart => exact spares_poolStart hm hq _ _ _
    | workerArmNext => exact spares_workerArmNext hq _
    | dmaComplete hd =>
      refine .of_none ?_
      unfold dmaComplete at hd
      split at hd
      · cases hd
      · dsimp only at hd
        split at hd <;> (cases hd; exact hq)
    | captureDone _ hd => exact .of_none ((captureDone_poison hd).trans hq)
    | waitTriggeredWake _ hw =>
      obtain ⟨s₁, h₁, rfl⟩ := Option.map_eq_some_iff.mp hw
      rw [(takeCompletion_eq h₁).1]
      exact .of_none hq
    | waitTriggeredFinish => exact .of_none ((waitTriggeredFinish_poison ..).trans hq)
    | cancelDone _ hd => exact .of_none ((cancelDone_poison hd).trans hq)
    | _ => cases ht

/-- Whatever is filled with 0xa5 by the next step, it is no delivered bank. -/
theorem spares_step {a : Action} (hm : Modes L s) (hstep : step L s a = some s') :
    Spares s.pool s' := by
  have hmq : Modes L s.quiet := hm.of_eq rfl rfl rfl
  exact spares_fires (s := s.quiet) hmq rfl (step_fires hstep)

/-! ## Whole runs -/

/-- Delivered data, the banks and the capture modes are kept apart. -/
structure Separated (L : Limits) (s : Sys) : Prop where
  oneMode : s.inflight.length ≤ 1
  dmaSpares : ∀ t ∈ s.inflight, ∀ i, s.pool.Delivered i → t.range.Disjoint (s.pool.bankRange i)
  banksApart : ∀ i j, i ≠ j → (s.pool.bankRange i).Disjoint (s.pool.bankRange j)
  banksInside : ∀ i < s.pool.bankCount,
    (s.pool.bankRange i).offset + (s.pool.bankRange i).bytes ≤ L.bufferBytes

/-- What the transfers do, in the words of the three modes. -/
theorem Flight.separated (h : Flight s) (hm : Modes L s) : Separated L s where
  oneMode := h.one
  dmaSpares t ht i hi := by
    have ho := h.owned t ht
    unfold Transfer.OwnedBy at ho
    cases hw : t.owner with
    | capture =>
      rw [hw] at ho
      obtain ⟨op, request, frameBytes, hlock⟩ := ho
      exact absurd hi ((hm.holder _ hlock).2.not_delivered hm.base.counted i)
    | triggered =>
      rw [hw] at ho
      exact absurd hi ((hm.base.exclusive ho).not_delivered hm.base.counted i)
    | pool =>
      rw [hw] at ho
      obtain ⟨ha, hrange⟩ := ho
      rw [hrange]
      refine Pool.bankRange_disjoint fun he => ?_
      have hne := hm.base.counted.target_ne ha
      rw [he] at hne
      exact hi.2.elim hne.1 hne.2
  banksApart _ _ hij := Pool.bankRange_disjoint hij
  banksInside _ hi := Pool.bankRange_inside hi hm.base.room

/-- In every state of every run without a stale DMA_DONE, delivered data is out of reach of the
DMA engine and of the next step's poison, and one capture mode at most is in flight. -/
theorem ownership_run {l : List Action} {s : Sys} (hc : (driver L).Meets FreshDone .init l)
    (hrun : (driver L).run .init l = some s) :
    Separated L s ∧ ∀ a s', step L s a = some s' → Spares s.pool s' := by
  have hinv : Modes L s ∧ Flight s :=
    Machine.run_invariant (I := fun s => Modes L s ∧ Flight s)
      (fun s a s' hs hst hcl => ⟨modes_step hs.1 hst, flight_step hs.1 hs.2 hst hcl⟩)
      ⟨modes_init, flight_init⟩ hc hrun
  exact ⟨hinv.2.separated hinv.1, fun a s' hst => spares_step hinv.1 hst⟩

instance (s : Sys) (a : Action) (s' : Sys) : Decidable (FreshDone s a s') :=
  inferInstanceAs (Decidable (_ = _))

/-- A bank is delivered while the next one fills. -/
def fillingSession : List Action :=
  [.openFile, .poolStart smallPool 0 {}, .poolArmPolled statusArmed 0,
    .dmaComplete ⟨.noError, 0⟩ 5, .workerFetch, .workerRun ⟨oneWordEvidence, 0, 0⟩,
    .workerArmNext {}, .poolArmPolled statusArmed 0]

/-- `ownership_run` with one bank READY and one FILLING. -/
theorem ownership_fillingSession :
    Separated smallDevice
      (((driver smallDevice).run .init fillingSession).get (by decide +kernel)) :=
  (ownership_run (by decide +kernel) (Option.some_get _).symm).1

/-- The recovery of a failed POOL_START drains the bank after the worker has fetched its
DMA_DONE; the worker then uses it up on the bank of the next POOL_START, and a synchronous
capture starts while that bank is in flight. -/
def staleDoneRun : List Action :=
  [.openFile, .poolStart smallPool 0 {}, .dmaComplete ⟨.noError, 0⟩ 5, .poolArmPolled 0 0,
    .drainWake, .workerFetch, .drainFinish ⟨statusDone, 0, 0⟩, .poolStart smallPool 0 {},
    .poolArmPolled statusArmed 0, .workerRun ⟨{ oneWordEvidence with status := statusArmed }, 0, 0⟩,
    .workerArmNext {}, .captureFrames ⟨1, 1, 1, 0⟩ ⟨0, none⟩]

/-- Two transactions of two modes are in flight at the end of `staleDoneRun`. -/
theorem staleDone_two_in_flight :
    ¬ Separated smallDevice
      (((driver smallDevice).run .init staleDoneRun).get (by decide +kernel)) :=
  fun h => absurd h.oneMode (by decide +kernel)

end QCrate.Dma
