import QCrate.Dma.Frames

/-!
# The triggered transaction is released

`struct completion` is a counter, and three places consume it: WAIT_TRIGGERED, the shared
cancellation path, and a synchronous capture. A WAIT that has consumed the count of a
transaction and then finds bad evidence enters the cancellation path, which waits for the same
count again. `Careful` excludes that and its variants; without them every WAIT or CANCEL that
fails after the DMA callback leaves the transaction released.

* `released_run` — the property, for every run of a responsive device whose steps are careful.
* `missedTrigger_stays_active` — a single WAIT on bad evidence keeps the device busy for good.
-/

namespace QCrate.Dma

open QCrate.Lib

/-! ## Statements about a step -/

/-- The triggered transaction is still held although its DMA callback has run. -/
def finished (s : Sys) : Bool := s.triggered.active && s.inflight.all (·.owner ≠ .triggered)

/-- The hardware answers as it should while a triggered transaction is held: the DMA completes
without error and before a cancellation gives up on it, and polls and resets succeed. -/
def responsive (s : Sys) : Action → Bool
  | .dmaComplete r _ => !s.triggered.active || r.clean
  | .cancelDone true status resetStatus => complete status && idle resetStatus
  | .cancelDone false _ _ => s.inflight.all (·.owner ≠ .triggered)
  | .waitTriggeredFinish .completed ev _ => complete ev.status
  | _ => true

def Responsive (s : Sys) (a : Action) (_ : Sys) : Prop := responsive s a = true

def arms : Action → Bool
  | .armTriggered _ _ => true
  | _ => false

/-- Only a new ARM_TRIGGERED makes the device busy with a triggered transaction again. -/
def Forgotten (L : Limits) (s : Sys) : Prop :=
  ∀ l s', (driver L).run s l = some s' → (∀ a ∈ l, arms a = false) → s'.triggered.active = false

/-- A WAIT_TRIGGERED or CANCEL_TRIGGERED that returns an error once the DMA callback has run
leaves the device to the next capture. -/
def Released (L : Limits) (_ : Sys) (_ : Action) (s' : Sys) : Prop :=
  ∀ r, s'.ret = some r → r.op = .waitTriggered ∨ r.op = .cancelTriggered → r.error ≠ none →
    (∀ t ∈ s'.inflight, t.owner ≠ .triggered) → Forgotten L s'

/-- WAIT or CANCEL returns an error without looking at the transaction. -/
def turnedAway : Action → Bool
  | .refused .waitTriggered _ | .refused .cancelTriggered _ => true
  | .waitTriggered timeoutMs => maxTimeoutMs < timeoutOrDefault timeoutMs
  | .waitTriggeredInterrupted _ => true
  | _ => false

/-- WAIT finds everything in order. -/
def goodEvidence (outcome : WaitOutcome) (ev : Evidence) (s : Sys) : Bool :=
  outcome = .completed && complete ev.status &&
    (framesDelivered s.result s.triggered.frameBytes ev s.triggered.frameLengthWords
      s.triggered.frameCount && triggeredOnce ev && ev.missedTriggerCount == 0)

/-- The step enters the shared cancellation path. -/
def entersCancel (s : Sys) : Action → Bool
  | .armPolled status _ => !armed status
  | .waitTriggeredFinish outcome ev _ => !goodEvidence outcome ev s
  | .cancelTriggered _ | .closeCancel _ => true
  | _ => false

/-- A WAIT consumes the completion a cancellation is waiting for. -/
def stealsCompletion (s : Sys) : Action → Bool
  | .waitTriggeredWake .completed =>
    match s.lock with
    | some (.cancelWait _) => true
    | _ => false
  | _ => false

structure Careful (s : Sys) (a : Action) (_ : Sys) : Prop where
  notEarly : turnedAway a = true → finished s = false
  token : entersCancel s a = true → finished s = true → 0 < s.completion
  noSteal : stealsCompletion s a = false

/-! ## The invariant -/

/-- A finished transaction can be cancelled: its result is good, and whoever waits for the
completion will find it. -/
structure Recoverable (s : Sys) : Prop where
  token : ∀ caller, s.lock = some (.cancelWait caller) → finished s = true → 0 < s.completion
  clean : finished s = true → s.result.clean = true

variable {L : Limits} {s s' : Sys}

theorem finished_eq_true : finished s = true ↔
    s.triggered.active = true ∧ ∀ t ∈ s.inflight, t.owner ≠ .triggered := by
  simp [finished]

/-- Without a transaction there is none that has finished. -/
theorem not_finished_of_inactive (h : s.triggered.active = false) : finished s = false := by
  simp [finished, h]

/-- Whether it has finished is seen in the transaction and the channel. -/
theorem finished_congr (ht : s'.triggered = s.triggered) (hi : s'.inflight = s.inflight) :
    finished s' = finished s := by
  unfold finished
  rw [ht, hi]

theorem recoverable_init : Recoverable .init := ⟨nofun, nofun⟩

namespace Recoverable

/-- While the transfer is under way there is nothing to show. -/
theorem of_not_finished (h : finished s = false) : Recoverable s where
  token _ _ hf := by
    rw [h] at hf
    cases hf
  clean hf := by
    rw [h] at hf
    cases hf

/-- Nor without a transaction. -/
theorem of_inactive (h : s.triggered.active = false) : Recoverable s :=
  of_not_finished (not_finished_of_inactive h)

/-- A step that does not touch the transaction, and finds the completion where the
cancellation path is entered. -/
theorem keep (h : Recoverable s) (hu : Untouched s s')
    (hl : ∀ caller, s'.lock = some (.cancelWait caller) → s'.lock = s.lock ∨
      (finished s = true → 0 < s.completion)) : Recoverable s' := by
  have hfin : finished s' = finished s := finished_congr hu.triggered hu.inflight
  constructor
  · intro caller hlock hf
    rw [hfin] at hf
    rw [hu.completion]
    rcases hl caller hlock with hsame | htoken
    · exact h.token caller (hsame.symm.trans hlock) hf
    · exact htoken hf
  · intro hf
    rw [hfin] at hf
    rw [hu.result]
    exact h.clean hf

end Recoverable

/-! ## Where the cancellation path is entered -/

/-- Whoever the caller of a cancellation is, the lock is given back. -/
theorem cancelReturn_lock (caller : CancelCaller) (r : Option Errno) (s : Sys) :
    (cancelReturn caller r s).lock = none := by
  cases caller <;> rfl

theorem armReturn_lock (caller : ArmCaller) (r : Option Errno) (s : Sys) :
    (armReturn caller r s).lock = none := by
  cases caller <;> rfl

/-- So it is at the end of a drain. -/
theorem drainReturn_lock (caller : DrainCaller) (r : Option Errno) (s : Sys) :
    (drainReturn caller r s).lock = none := by
  cases caller with
  | arm caller => exact armReturn_lock caller _ s
  | stop => rfl

/-- A drain of the pool is no cancellation. -/
theorem poolDrainLocked_lock {caller : DrainCaller} {dmaDone : Bool} {status : U32}
    {c : CancelCaller} :
    (poolDrainLocked caller dmaDone status s).lock ≠ some (.cancelWait c) := by
  unfold poolDrainLocked
  split
  · rw [drainReturn_lock]
    nofun
  · dsimp only
    cases dmaDone <;> split <;> nofun

theorem drainFinish_lock (caller : DrainCaller) (seen : Bool) (hw : DrainAnswer) (s : Sys) :
    (drainFinish caller seen hw s).lock = none := by
  unfold drainFinish
  dsimp only
  cases seen <;> (repeat' split) <;> exact drainReturn_lock ..

/-- Among the actions that leave the transaction alone, only those of `entersCancel` take the
lock for a cancellation. -/
theorem cancelWait_fires {a : Action} {c : CancelCaller} (h : Fires L s a s')
    (ht : touches a = false) (hl : s'.lock = some (.cancelWait c)) :
    s'.lock = s.lock ∨ entersCancel s a = true := by
  cases h with
  | dmaComplete | capture | captureFrames | captureDone | armTriggered | waitTriggeredWake
  | waitTriggeredFinish | cancelDone | poolStart | workerArmNext => cases ht
  | refused | waitTriggeredInterrupted | workerFetch | poolStopFinish | openFile | closeFile
  | closeStopInterrupted | closeStopWake => exact .inl rfl
  | cancelTriggered => exact .inr rfl
  | closeCancel => exact .inr rfl
  | @armPolled status _ _ =>
    unfold armPolled at hl
    split at hl
    · cases hl
    · next ha => exact .inr (by simpa [entersCancel] using ha)
  | waitTriggered =>
    left
    unfold waitTriggered
    repeat' split
    all_goals rfl
  | poolArmPolled =>
    unfold poolArmPolled at hl
    split at hl
    · rw [armReturn_lock] at hl
      cases hl
    · exact absurd hl poolDrainLocked_lock
  | drainWake =>
    unfold drainWake at hl
    split at hl
    · cases hl
    · rw [drainReturn_lock] at hl
      cases hl
  | drainFinish =>
    rw [drainFinish_lock] at hl
    cases hl
  | workerStop =>
    unfold workerStop at hl
    dsimp only at hl
    split at hl
    · exact absurd hl poolDrainLocked_lock
    split at hl <;> cases hl
  | workerRun =>
    unfold workerRun at hl
    split at hl <;> cases hl
  | poolDequeue =>
    left
    unfold poolDequeue
    repeat' split
    all_goals rfl
  | poolRelease =>
    left
    unfold poolReleaseBank
    dsimp only
    repeat' split
    all_goals rfl
  | @poolReleaseWake outcome => exact .inl (by cases outcome <;> rfl)
  | poolStop =>
    left
    unfold poolStop
    repeat' split
    · rfl
    · rfl
    · next hreq => rw [poolStopRequest_eq hreq]
  | @poolStopWake outcome => exact .inl (by cases outcome <;> rfl)
  | closeStop =>
    left
    unfold closeStop
    split
    · rfl
    · next hreq => rw [poolStopRequest_eq hreq]

/-! ## One step keeps the transaction recoverable -/

/-- The cancellation of a live transaction waits for the completion. -/
theorem cancelTriggeredLocked_active {caller : CancelCaller} {status : U32}
    (h : s.triggered.active = true) :
    (cancelTriggeredLocked caller status s).ret = s.ret ∧
      (cancelTriggeredLocked caller status s).lock = some (.cancelWait caller) := by
  unfold cancelTriggeredLocked
  rw [h]
  dsimp only
  split
  · next hf => cases hf
  · split <;> exact ⟨rfl, rfl⟩

/-- A section that keeps the frame keeps the completion for the transaction. -/
theorem Recoverable.enter (h : Recoverable s) (hu : Untouched s s')
    (ht : finished s = true → 0 < s.completion) : Recoverable s' :=
  h.keep hu fun _ _ => .inr ht

/-- The callback of the channel leaves a completion for the transaction it ends. -/
theorem recoverable_dmaComplete {r : DmaResult} {now : U64} (hm : Modes L s)
    (hr : responsive s (.dmaComplete r now) = true) (hd : dmaComplete r now s = some s') :
    Recoverable s' := by
  unfold dmaComplete at hd
  split at hd
  · cases hd
  dsimp only at hd
  split at hd
  · next hdma =>
    cases hd
    exact .of_inactive (hm.base.not_active hdma)
  · cases hd
    refine ⟨fun _ _ _ => Nat.succ_pos _, fun hf => ?_⟩
    have ha : s.triggered.active = true := (finished_eq_true.mp hf).1
    simpa [responsive, ha] using hr

/-- A capture is refused, or finds no triggered transaction. -/
theorem runCapture_untouched_or (op : Op) (request : CaptureRequest) (hw : SetupAnswer) :
    (Untouched s (runCapture L op request hw s) ∧ (runCapture L op request hw s).lock = s.lock) ∨
      (runCapture L op request hw s).triggered.active = false := by
  unfold runCapture
  split
  · exact .inl ⟨⟨rfl, rfl, rfl, rfl, rfl⟩, rfl⟩
  split
  · exact .inl ⟨⟨rfl, rfl, rfl, rfl, rfl⟩, rfl⟩
  split
  · exact .inl ⟨⟨rfl, rfl, rfl, rfl, rfl⟩, rfl⟩
  next hbusy =>
    have ha := (free_of_not_busy hbusy).1
    right
    dsimp only
    split
    · exact ha
    split
    · rw [terminate_eq]
      exact ha
    · exact ha

theorem recoverable_runCapture (h : Recoverable s) (op : Op) (request : CaptureRequest)
    (hw : SetupAnswer) : Recoverable (runCapture L op request hw s) := by
  rcases runCapture_untouched_or (L := L) (s := s) op request hw with ⟨hu, hl⟩ | ha
  · exact h.keep hu fun _ _ => .inl hl
  · exact .of_inactive ha

/-- A capture ends without a look at the triggered transaction. -/
theorem captureDone_triggered {op : Op} {request : CaptureRequest} {frameBytes : Nat}
    {outcome : WaitOutcome} {ev : Evidence}
    (h : captureDone op request frameBytes outcome ev s = some s') :
    s'.triggered = s.triggered := by
  unfold captureDone at h
  obtain ⟨s₁, h₁, rfl⟩ := Option.map_eq_some_iff.mp h
  have hp : s₁.triggered = s.triggered := by rw [(takeCompletion_eq h₁).1]
  rw [← hp]
  repeat' split
  all_goals rfl

/-- A transaction that has just been submitted has not finished. -/
theorem recoverable_armTriggered (h : Recoverable s) (arm : TriggeredArm) (hw : SetupAnswer) :
    Recoverable (armTriggered L arm hw s) := by
  have hkeep : ∀ e, Recoverable (s.returns .armTriggered (some e)) :=
    fun e => h.keep ⟨rfl, rfl, rfl, rfl, rfl⟩ fun _ _ => .inl rfl
  unfold armTriggered
  split
  · exact hkeep _
  split
  · exact hkeep _
  next totalBytes _ hbusy =>
    have ha := (free_of_not_busy hbusy).1
    dsimp only
    split
    · exact .of_inactive ha
    split
    · rw [terminate_eq]
      exact .of_inactive ha
    · refine .of_not_finished ?_
      rw [Bool.eq_false_iff]
      intro hf
      have hmem := List.mem_append_right s.inflight (List.mem_singleton_self
        (⟨.triggered, 0, totalBytes⟩ : Transfer))
      exact (finished_eq_true.mp hf).2 _ hmem rfl

/-- A careful WAIT takes no completion that a cancellation will need. -/
theorem recoverable_waitTriggeredWake {outcome : WaitOutcome} (h : Recoverable s)
    (hc : stealsCompletion s (.waitTriggeredWake outcome) = false)
    (hw : waitTriggeredWake outcome s = some s') : Recoverable s' := by
  obtain ⟨s₁, h₁, rfl⟩ := Option.map_eq_some_iff.mp hw
  obtain ⟨he, hdone, hother⟩ := takeCompletion_eq h₁
  have hfin : finished s₁ = finished s := by rw [he]; rfl
  constructor
  · intro caller hlock hf
    have hlock' : s.lock = some (.cancelWait caller) := by rw [he] at hlock; exact hlock
    have hf' : finished s = true := hfin ▸ hf
    cases outcome with
    | completed => simp [stealsCompletion, hlock'] at hc
    | timedOut => exact (hother (by simp)).2 ▸ h.token caller hlock' hf'
    | interrupted => exact (hother (by simp)).2 ▸ h.token caller hlock' hf'
  · intro hf
    have hf' : finished s = true := hfin ▸ hf
    have hr : s₁.result = s.result := by rw [he]
    exact hr ▸ h.clean hf'

/-- WAIT with its lock: it succeeds, or the transaction was gone, or it enters the
cancellation path. -/
theorem waitTriggeredFinish_cases (outcome : WaitOutcome) (ev : Evidence) (cancelStatus : U32)
    (s : Sys) :
    (goodEvidence outcome ev s = true ∧
      (waitTriggeredFinish outcome ev cancelStatus s).triggered.active = false) ∨
    (s.triggered.active = false ∧
      (waitTriggeredFinish outcome ev cancelStatus s).triggered = s.triggered) ∨
    (goodEvidence outcome ev s = false ∧ s.triggered.active = true ∧
      ∃ caller, waitTriggeredFinish outcome ev cancelStatus s
        = cancelTriggeredLocked caller cancelStatus s) := by
  cases ha : s.triggered.active with
  | false =>
    right; left
    refine ⟨rfl, ?_⟩
    unfold waitTriggeredFinish
    rw [ha]
    rfl
  | true =>
    unfold waitTriggeredFinish
    rw [ha]
    cases outcome with
    | timedOut => exact .inr (.inr ⟨rfl, rfl, _, rfl⟩)
    | interrupted => exact .inr (.inr ⟨rfl, rfl, _, rfl⟩)
    | completed =>
      unfold goodEvidence
      cases complete ev.status with
      | false => exact .inr (.inr ⟨rfl, rfl, _, rfl⟩)
      | true =>
        cases framesDelivered s.result s.triggered.frameBytes ev s.triggered.frameLengthWords
            s.triggered.frameCount && triggeredOnce ev && ev.missedTriggerCount == 0 with
        | true => exact .inl ⟨rfl, rfl⟩
        | false => exact .inr (.inr ⟨rfl, rfl, _, rfl⟩)

/-- After a cancellation nobody waits for the completion. -/
theorem recoverable_cancelDone {caller : CancelCaller} {completed : Bool}
    {status resetStatus : U32} (h : Recoverable s)
    (hd : cancelDone caller completed status resetStatus s = some s') : Recoverable s' := by
  unfold cancelDone at hd
  obtain ⟨s₁, h₁, rfl⟩ := Option.map_eq_some_iff.mp hd
  obtain ⟨he, -, -⟩ := takeCompletion_eq h₁
  have hclean : finished s₁ = true → s₁.result.clean = true := by
    rw [he]
    exact h.clean
  have hret : ∀ (r : Option Errno) (s₂ : Sys), s₂.result = s₁.result →
      (finished s₂ = true → finished s₁ = true) → Recoverable (cancelReturn caller r s₂) := by
    intro r s₂ hr hf
    have hu := untouched_cancelReturn caller r s₂
    constructor
    · intro c hlock _
      rw [cancelReturn_lock] at hlock
      cases hlock
    · intro hfin
      rw [hu.result, hr]
      exact hclean (hf (finished_congr hu.triggered hu.inflight ▸ hfin))
  split
  · exact hret _ _ rfl id
  split
  · exact hret _ _ rfl id
  split
  · exact hret _ _ rfl id
  dsimp only
  split
  · exact hret _ _ rfl id
  · exact hret _ _ rfl fun hf => absurd (finished_eq_true.mp hf).1 (by simp)

theorem cancelDone_inactive {caller : CancelCaller} {completed : Bool}
    {status resetStatus : U32} (h : s.triggered.active = false)
    (hd : cancelDone caller completed status resetStatus s = some s') :
    s'.triggered.active = false := by
  unfold cancelDone at hd
  obtain ⟨s₁, h₁, rfl⟩ := Option.map_eq_some_iff.mp hd
  have hret : ∀ (r : Option Errno) (s₂ : Sys), s₂.triggered.active = false →
      (cancelReturn caller r s₂).triggered.active = false := by
    intro r s₂ ha
    rw [(untouched_cancelReturn caller r s₂).triggered]
    exact ha
  rw [(takeCompletion_eq h₁).1]
  dsimp only
  repeat' split
  all_goals exact hret _ _ (by first | exact h | rfl)

/-- Arming a bank is no business of the triggered transaction. -/
theorem poolArmBankLocked_triggered (caller : ArmCaller) (index : Nat) (hw : ArmAnswer)
    (s : Sys) : (poolArmBankLocked caller index hw s).triggered = s.triggered := by
  unfold poolArmBankLocked
  split
  · exact (untouched_armReturn ..).triggered
  dsimp only
  split
  · exact (untouched_armReturn ..).triggered
  split
  · rw [terminate_eq]
    exact (untouched_armReturn ..).triggered
  · rfl

theorem poolStart_triggered (request : PoolStart) (resetStatus : U32) (hw : ArmAnswer) (s : Sys) :
    (poolStart L request resetStatus hw s).triggered = s.triggered := by
  unfold poolStart
  dsimp only
  repeat' split
  all_goals first
    | rfl
    | exact poolArmBankLocked_triggered ..

theorem workerArmNext_triggered (hw : ArmAnswer) (s : Sys) :
    (workerArmNext hw s).triggered = s.triggered := by
  unfold workerArmNext
  split
  · split
    · exact poolArmBankLocked_triggered ..
    · rfl
  · rfl

theorem recoverable_poolStart (h : Recoverable s) (request : PoolStart) (resetStatus : U32)
    (hw : ArmAnswer) : Recoverable (poolStart L request resetStatus hw s) := by
  have hkeep : ∀ e, Recoverable (s.returns .poolStart (some e)) :=
    fun e => h.keep ⟨rfl, rfl, rfl, rfl, rfl⟩ fun _ _ => .inl rfl
  unfold poolStart
  dsimp only
  split
  · exact hkeep _
  split
  · exact hkeep _
  split
  · exact hkeep _
  split
  · exact hkeep _
  split
  · exact hkeep _
  split
  · exact hkeep _
  split
  · exact hkeep _
  next hbusy =>
    have ha := (free_of_not_busy hbusy).1
    split
    · exact .of_inactive ha
    · refine .of_inactive ?_
      rw [poolArmBankLocked_triggered]
      exact ha

theorem recoverable_workerArmNext (hm : Modes L s) (h : Recoverable s) (hw : ArmAnswer) :
    Recoverable (workerArmNext hw s) := by
  have hdone : ∀ s' : Sys, Untouched s s' → s'.lock = none → Recoverable s' :=
    fun s' hu hl => h.keep hu fun c hc => absurd (hl.symm.trans hc) (by simp)
  unfold workerArmNext
  split
  · next hrun =>
    simp only [Bool.and_eq_true, Bool.not_eq_true'] at hrun
    split
    · refine .of_inactive ?_
      rw [poolArmBankLocked_triggered]
      cases ha : s.triggered.active with
      | false => rfl
      | true => exact absurd ((hm.base.exclusive ha).running.symm.trans hrun.1.1) (by decide)
    · exact hdone _ ⟨rfl, rfl, rfl, rfl, rfl⟩ rfl
  · exact hdone _ ⟨rfl, rfl, rfl, rfl, rfl⟩ rfl

/-- Every action of a responsive device and a careful user keeps the completion. -/
theorem recoverable_fires {a : Action} (hm : Modes L s) (h : Recoverable s)
    (hr : responsive s a = true) (hc : Careful s a s') (hf : Fires L s a s') :
    Recoverable s' := by
  cases ht : touches a with
  | false =>
    refine h.keep (untouched_fires hf ht) fun c hl => ?_
    rcases cancelWait_fires hf ht hl with hsame | hin
    · exact .inl hsame
    · exact .inr (hc.token hin)
  | true =>
    cases hf with
    | dmaComplete hd => exact recoverable_dmaComplete hm hr hd
    | capture => exact recoverable_runCapture h ..
    | captureFrames => exact recoverable_runCapture h ..
    | captureDone hl hd =>
      refine .of_inactive ?_
      rw [captureDone_triggered hd]
      exact (hm.holder _ hl).1
    | armTriggered => exact recoverable_armTriggered h ..
    | waitTriggeredWake _ hw => exact recoverable_waitTriggeredWake h hc.noSteal hw
    | @waitTriggeredFinish outcome ev cancelStatus =>
      rcases waitTriggeredFinish_cases outcome ev cancelStatus
        { s with threads := s.threads.erase (.waitTriggeredWoken outcome) } with
        ⟨-, ha⟩ | ⟨ha, he⟩ | ⟨hbad, ha, caller, he⟩
      · exact .of_inactive ha
      · refine .of_inactive ?_
        rw [he]
        exact ha
      · rw [he]
        refine h.enter (Untouched.trans ?_ (untouched_cancelTriggeredLocked ..)) (hc.token ?_)
        · exact ⟨rfl, rfl, rfl, rfl, rfl⟩
        · have hbad' : goodEvidence outcome ev s = false := hbad
          simp [entersCancel, hbad']
    | cancelDone _ hd => exact recoverable_cancelDone h hd
    | poolStart => exact recoverable_poolStart h ..
    | workerArmNext => exact recoverable_workerArmNext hm h _
    | _ => cases ht

/-! ## One step releases what it gives up on -/

/-- A WAIT or CANCEL that fails leaves no finished transaction behind. -/
def LeavesNone (s : Sys) : Prop :=
  ∀ r, s.ret = some r → r.op = .waitTriggered ∨ r.op = .cancelTriggered → r.error ≠ none →
    finished s = false

/-- The ioctl that returned, if any, is neither WAIT_TRIGGERED nor CANCEL_TRIGGERED. -/
def Elsewhere (s : Sys) : Prop :=
  ∀ r, s.ret = some r → r.op ≠ .waitTriggered ∧ r.op ≠ .cancelTriggered

namespace Elsewhere

/-- A section that goes on has returned nothing. -/
theorem of_none (h : s.ret = none) : Elsewhere s := by
  intro r hr
  rw [h] at hr
  cases hr

/-- The other ioctls return nothing about the transaction. -/
theorem of_returns {r : Ret} (h : s.ret = some r)
    (hop : r.op ≠ .waitTriggered ∧ r.op ≠ .cancelTriggered) : Elsewhere s := by
  intro r' hr
  rw [h] at hr
  cases hr
  exact hop

/-- An ioctl other than WAIT and CANCEL leaves nothing behind. -/
theorem leavesNone (h : Elsewhere s) : LeavesNone s := by
  intro r hr hop _
  obtain ⟨hw, hc⟩ := h r hr
  rcases hop with hop | hop
  · exact absurd hop hw
  · exact absurd hop hc

end Elsewhere

/-- A synchronous capture. -/
theorem elsewhere_runCapture {op : Op} (hop : op ≠ .waitTriggered ∧ op ≠ .cancelTriggered)
    (hq : s.ret = none) (request : CaptureRequest) (hw : SetupAnswer) :
    Elsewhere (runCapture L op request hw s) := by
  unfold runCapture
  split
  · exact .of_returns rfl hop
  split
  · exact .of_returns rfl hop
  split
  · exact .of_returns rfl hop
  dsimp only
  split
  · exact .of_returns rfl hop
  split
  · exact .of_returns rfl hop
  · exact .of_none hq

/-- ARM makes a transaction and ends none. -/
theorem elsewhere_armTriggered (hq : s.ret = none) (arm : TriggeredArm) (hw : SetupAnswer) :
    Elsewhere (armTriggered L arm hw s) := by
  have hop : Op.armTriggered ≠ .waitTriggered ∧ Op.armTriggered ≠ .cancelTriggered := by decide
  unfold armTriggered
  split
  · exact .of_returns rfl hop
  split
  · exact .of_returns rfl hop
  dsimp only
  split
  · exact .of_returns rfl hop
  split
  · exact .of_returns rfl hop
  · exact .of_none hq

theorem elsewhere_armReturn (hq : s.ret = none) (caller : ArmCaller) (r : Option Errno) :
    Elsewhere (armReturn caller r s) := by
  cases caller with
  | worker =>
    refine .of_none ?_
    cases r <;> exact hq
  | start => exact .of_returns rfl ⟨nofun, nofun⟩

theorem elsewhere_poolArmBankLocked (hq : s.ret = none) (caller : ArmCaller) (index : Nat)
    (hw : ArmAnswer) : Elsewhere (poolArmBankLocked caller index hw s) := by
  unfold poolArmBankLocked
  split
  · exact elsewhere_armReturn (by exact hq) _ _
  dsimp only
  split
  · exact elsewhere_armReturn (by exact hq) _ _
  split
  · rw [terminate_eq]
    exact elsewhere_armReturn (by exact hq) _ _
  · exact .of_none hq

theorem elsewhere_drainReturn (hq : s.ret = none) (caller : DrainCaller) (r : Option Errno) :
    Elsewhere (drainReturn caller r s) := by
  cases caller with
  | arm caller => exact elsewhere_armReturn (by exact hq) _ _
  | stop => exact .of_none hq

theorem elsewhere_poolDrainLocked (hq : s.ret = none) (caller : DrainCaller) (dmaDone : Bool)
    (status : U32) : Elsewhere (poolDrainLocked caller dmaDone status s) := by
  unfold poolDrainLocked
  split
  · exact elsewhere_drainReturn (by exact hq) _ _
  · refine .of_none ?_
    dsimp only
    split <;> exact hq

theorem elsewhere_poolArmPolled (hq : s.ret = none) (caller : ArmCaller)
    (status drainStatus : U32) : Elsewhere (poolArmPolled caller status drainStatus s) := by
  unfold poolArmPolled
  split
  · exact elsewhere_armReturn (by exact hq) _ _
  · exact elsewhere_poolDrainLocked (by exact hq) _ _ _

theorem elsewhere_drainFinish (hq : s.ret = none) (caller : DrainCaller) (seen : Bool)
    (hw : DrainAnswer) : Elsewhere (drainFinish caller seen hw s) := by
  unfold drainFinish
  dsimp only
  cases seen <;> (repeat' split) <;> exact elsewhere_drainReturn (by exact hq) _ _

theorem elsewhere_workerStop (hq : s.ret = none) (dmaDone : Bool)
    (status missed resetStatus : U32) :
    Elsewhere (workerStop dmaDone status missed resetStatus s) := by
  unfold workerStop
  dsimp only
  split
  · exact elsewhere_poolDrainLocked (by exact hq) _ _ _
  split <;> exact .of_none hq

theorem elsewhere_workerArmNext (hq : s.ret = none) (hw : ArmAnswer) :
    Elsewhere (workerArmNext hw s) := by
  unfold workerArmNext
  split
  · split
    · exact elsewhere_poolArmBankLocked hq _ _ _
    · exact .of_none hq
  · exact .of_none hq

theorem elsewhere_poolStart (hq : s.ret = none) (request : PoolStart) (resetStatus : U32)
    (hw : ArmAnswer) : Elsewhere (poolStart L request resetStatus hw s) := by
  have hop : Op.poolStart ≠ .waitTriggered ∧ Op.poolStart ≠ .cancelTriggered := by decide
  unfold poolStart
  dsimp only
  repeat' split
  all_goals first
    | exact .of_returns rfl hop
    | exact elsewhere_poolArmBankLocked (by exact hq) _ _ _

theorem elsewhere_workerRun (hq : s.ret = none) (dmaDone : Bool) (hw : FinalizeAnswer) :
    Elsewhere (workerRun dmaDone hw s) := by
  have hfin : (poolFinalizeLocked hw s).2.ret = none := by
    unfold poolFinalizeLocked
    dsimp only
    repeat' split
    all_goals exact hq
  refine .of_none ?_
  unfold workerRun
  split
  · show (faultPool (poolFinalizeLocked hw s).1 (poolFinalizeLocked hw s).2).ret = none
    cases (poolFinalizeLocked hw s).1 <;> exact hfin
  · exact hq

/-- WAIT that does not sleep: it was turned away, or there is no transaction. -/
theorem leavesNone_waitTriggered {timeoutMs : U32} (hq : s.ret = none)
    (hc : turnedAway (.waitTriggered timeoutMs) = true → finished s = false) :
    LeavesNone (waitTriggered timeoutMs s) := by
  unfold waitTriggered
  split
  · next hlong =>
    intro _ _ _ _
    exact hc (decide_eq_true hlong)
  split
  · next hin =>
    intro _ _ _ _
    have ha : s.triggered.active = false := by simpa using hin
    exact not_finished_of_inactive ha
  · exact (Elsewhere.of_none (by exact hq)).leavesNone

/-- Where a cancellation has ended the transaction, its caller may return. -/
theorem leavesNone_cancelReturn (h : s.triggered.active = false) (caller : CancelCaller)
    (r : Option Errno) : LeavesNone (cancelReturn caller r s) := by
  intro _ _ _ _
  have hu := untouched_cancelReturn caller r s
  exact not_finished_of_inactive (by rw [hu.triggered]; exact h)

/-- The cancellation path either has nothing to release or returns later. -/
theorem leavesNone_cancelTriggeredLocked (hq : s.ret = none) (caller : CancelCaller)
    (status : U32) : LeavesNone (cancelTriggeredLocked caller status s) := by
  cases ha : s.triggered.active with
  | false =>
    unfold cancelTriggeredLocked
    rw [ha]
    exact leavesNone_cancelReturn ha caller none
  | true =>
    have hret : (cancelTriggeredLocked caller status s).ret = s.ret :=
      (cancelTriggeredLocked_active ha).1
    exact (Elsewhere.of_none (hret.trans hq)).leavesNone

/-- A cancellation whose wait ends either releases the transaction or finds it still flying. -/
theorem leavesNone_cancelDone {completed : Bool} {status resetStatus : U32}
    {caller : CancelCaller} (hm : Modes L s) (h : Recoverable s)
    (hl : s.lock = some (.cancelWait caller))
    (hr : responsive s (.cancelDone completed status resetStatus) = true)
    (hd : cancelDone caller completed status resetStatus s = some s') :
    LeavesNone s' := by
  have hact : s.triggered.active = true := hm.holder _ hl
  unfold cancelDone at hd
  obtain ⟨s₁, h₁, rfl⟩ := Option.map_eq_some_iff.mp hd
  obtain ⟨he, -, hother⟩ := takeCompletion_eq h₁
  cases completed with
  | false =>
    -- the wait gave up, so nothing is in flight and the completion was there to be taken
    have hfin : finished s = true := by
      unfold finished
      rw [hact]
      exact hr
    have hzero := (hother (by simp)).1
    have hpos := h.token caller hl hfin
    omega
  | true =>
    simp only [responsive, Bool.and_eq_true] at hr
    simp only [hr.1, hr.2, Bool.not_true, Bool.false_eq_true, if_false]
    cases hclean : s₁.result.clean with
    | true => exact leavesNone_cancelReturn rfl caller none
    | false =>
      intro _ _ _ _
      have hfin : finished s = false := by
        rw [Bool.eq_false_iff]
        intro hf
        have hc : s₁.result.clean = true := by
          rw [he]
          exact h.clean hf
        rw [hclean] at hc
        cases hc
      have hu := untouched_cancelReturn caller (some .eio) s₁
      calc finished (cancelReturn caller (some .eio) s₁)
        _ = finished s₁ := finished_congr hu.triggered hu.inflight
        _ = finished s := by rw [he]; rfl
        _ = false := hfin

/-- WAIT returns when it has ended the transaction, or else cancels it. -/
theorem leavesNone_waitTriggeredFinish (hq : s.ret = none) (outcome : WaitOutcome)
    (ev : Evidence) (cancelStatus : U32) :
    LeavesNone (waitTriggeredFinish outcome ev cancelStatus s) := by
  rcases waitTriggeredFinish_cases outcome ev cancelStatus s with
    ⟨-, ha⟩ | ⟨ha, he⟩ | ⟨-, -, caller, he⟩
  · exact fun _ _ _ _ => not_finished_of_inactive ha
  · exact fun _ _ _ _ => not_finished_of_inactive (by rw [he]; exact ha)
  · rw [he]
    exact leavesNone_cancelTriggeredLocked hq _ _

/-- CANCEL returns at once only where there is no transaction. -/
theorem leavesNone_cancelTriggered (hq : s.ret = none) (status : U32) :
    LeavesNone (cancelTriggered status s) := by
  unfold cancelTriggered
  split
  · next hin =>
    have ha : s.triggered.active = false := by simpa using hin
    exact fun _ _ _ _ => not_finished_of_inactive ha
  · exact leavesNone_cancelTriggeredLocked hq _ _

theorem leavesNone_armPolled (hq : s.ret = none) (status cancelStatus : U32) :
    LeavesNone (armPolled status cancelStatus s) := by
  unfold armPolled
  split
  · exact (Elsewhere.of_returns rfl (by decide)).leavesNone
  · exact leavesNone_cancelTriggeredLocked hq _ _

theorem leavesNone_refused {op : Op} {e : Errno}
    (hc : turnedAway (.refused op e) = true → finished s = false) :
    LeavesNone (s.returns op (some e)) := by
  intro r hr hop _
  cases hr
  rcases hop with hop | hop
  · cases hop
    exact hc rfl
  · cases hop
    exact hc rfl

theorem dmaComplete_ret {r : DmaResult} {now : U64} (h : dmaComplete r now s = some s') :
    s'.ret = s.ret := by
  unfold dmaComplete at h
  split at h
  · cases h
  · dsimp only at h
    split at h <;> (cases h; rfl)

theorem elsewhere_drainWake (hq : s.ret = none) (caller : DrainCaller) :
    Elsewhere (drainWake caller s) := by
  unfold drainWake
  split
  · exact .of_none hq
  · exact elsewhere_drainReturn hq _ _

theorem elsewhere_poolDequeue (timeoutMs : U32) (outcome : WaitOutcome) (status : U32)
    (s : Sys) : Elsewhere (poolDequeue timeoutMs outcome status s) := by
  unfold poolDequeue
  repeat' split
  all_goals exact .of_returns rfl (by exact ⟨nofun, nofun⟩)

theorem elsewhere_poolReleaseBank (hq : s.ret = none) (release : PoolRelease) :
    Elsewhere (poolReleaseBank release s) := by
  unfold poolReleaseBank
  dsimp only
  repeat' split
  all_goals first
    | exact .of_none hq
    | exact .of_returns rfl (by exact ⟨nofun, nofun⟩)

theorem elsewhere_poolReleaseWake (outcome : WaitOutcome) (s : Sys) :
    Elsewhere (poolReleaseWake outcome s) := by
  cases outcome <;> exact .of_returns rfl (by exact ⟨nofun, nofun⟩)

theorem elsewhere_poolStop (hq : s.ret = none) (stop : PoolStop) :
    Elsewhere (poolStop stop s) := by
  unfold poolStop
  split
  · exact .of_returns rfl (by exact ⟨nofun, nofun⟩)
  split
  · exact .of_returns rfl (by exact ⟨nofun, nofun⟩)
  · next hreq =>
    rw [poolStopRequest_eq hreq]
    exact .of_none hq

theorem elsewhere_poolStopWake (hq : s.ret = none) (outcome : WaitOutcome) :
    Elsewhere (poolStopWake outcome s) := by
  cases outcome with
  | completed => exact .of_none hq
  | timedOut => exact .of_returns rfl (by exact ⟨nofun, nofun⟩)
  | interrupted => exact .of_returns rfl (by exact ⟨nofun, nofun⟩)

theorem elsewhere_closeStop (hq : s.ret = none) (runId : U64) :
    Elsewhere (closeStop runId s) := by
  unfold closeStop
  split
  · exact .of_none hq
  · next hreq =>
    rw [poolStopRequest_eq hreq]
    exact .of_none hq

/-- No step leaves a finished transaction behind. -/
theorem leavesNone_fires {a : Action} (hm : Modes L s) (h : Recoverable s) (hq : s.ret = none)
    (hr : responsive s a = true) (hc : Careful s a s') (hf : Fires L s a s') :
    LeavesNone s' := by
  cases hf with
  | refused => exact leavesNone_refused hc.notEarly
  | waitTriggered => exact leavesNone_waitTriggered hq hc.notEarly
  | waitTriggeredWake _ hw =>
    obtain ⟨s₁, h₁, rfl⟩ := Option.map_eq_some_iff.mp hw
    rw [(takeCompletion_eq h₁).1]
    exact (Elsewhere.of_none (by exact hq)).leavesNone
  | waitTriggeredFinish => exact leavesNone_waitTriggeredFinish (by exact hq) _ _ _
  | waitTriggeredInterrupted => exact fun _ _ _ _ => hc.notEarly rfl
  | cancelTriggered => exact leavesNone_cancelTriggered hq _
  | cancelDone hl hd => exact leavesNone_cancelDone hm h hl hr hd
  | armPolled => exact leavesNone_armPolled hq _ _
  | closeCancel => exact leavesNone_cancelTriggeredLocked hq _ _
  | captureDone hl hd =>
    have ha : s'.triggered.active = false := by
      rw [captureDone_triggered hd]
      exact (hm.holder _ hl).1
    exact fun _ _ _ _ => not_finished_of_inactive ha
  | dmaComplete hd => exact (Elsewhere.of_none ((dmaComplete_ret hd).trans hq)).leavesNone
  | capture => exact (elsewhere_runCapture (by decide) hq _ _).leavesNone
  | captureFrames => exact (elsewhere_runCapture (by decide) hq _ _).leavesNone
  | armTriggered => exact (elsewhere_armTriggered hq _ _).leavesNone
  | poolStart => exact (elsewhere_poolStart hq _ _ _).leavesNone
  | poolArmPolled => exact (elsewhere_poolArmPolled hq _ _ _).leavesNone
  | drainFinish => exact (elsewhere_drainFinish hq _ _ _).leavesNone
  | workerStop => exact (elsewhere_workerStop hq _ _ _ _).leavesNone
  | workerRun => exact (elsewhere_workerRun hq _ _).leavesNone
  | workerArmNext => exact (elsewhere_workerArmNext hq _).leavesNone
  | drainWake => exact (elsewhere_drainWake hq _).leavesNone
  | poolDequeue => exact (elsewhere_poolDequeue _ _ _ s).leavesNone
  | poolRelease => exact (elsewhere_poolReleaseBank hq _).leavesNone
  | poolReleaseWake => exact (elsewhere_poolReleaseWake _ s).leavesNone
  | poolStop => exact (elsewhere_poolStop hq _).leavesNone
  | poolStopWake => exact (elsewhere_poolStopWake hq _).leavesNone
  | poolStopFinish => exact (Elsewhere.of_returns rfl (by exact ⟨nofun, nofun⟩)).leavesNone
  | closeStop => exact (elsewhere_closeStop hq _).leavesNone
  | workerFetch | openFile | closeFile | closeStopInterrupted | closeStopWake =>
    exact (Elsewhere.of_none (by exact hq)).leavesNone

/-! ## Whole runs -/

/-- Only ARM makes a transaction. -/
theorem inactive_fires {a : Action} (ha : s.triggered.active = false) (hn : arms a = false)
    (hf : Fires L s a s') : s'.triggered.active = false := by
  cases ht : touches a with
  | false =>
    rw [(untouched_fires hf ht).triggered]
    exact ha
  | true =>
    cases hf with
    | dmaComplete hd =>
      unfold dmaComplete at hd
      split at hd
      · cases hd
      · dsimp only at hd
        split at hd <;> (cases hd; exact ha)
    | capture | captureFrames =>
      rcases runCapture_untouched_or (L := L) (s := s) _ _ _ with ⟨hu, -⟩ | h
      · rw [hu.triggered]
        exact ha
      · exact h
    | captureDone _ hd =>
      rw [captureDone_triggered hd]
      exact ha
    | armTriggered => cases hn
    | waitTriggeredWake _ hw =>
      obtain ⟨s₁, h₁, rfl⟩ := Option.map_eq_some_iff.mp hw
      rw [(takeCompletion_eq h₁).1]
      exact ha
    | @waitTriggeredFinish outcome ev cancelStatus =>
      rcases waitTriggeredFinish_cases outcome ev cancelStatus
        { s with threads := s.threads.erase (.waitTriggeredWoken outcome) } with
        ⟨-, h⟩ | ⟨h, he⟩ | ⟨-, h, -⟩
      · exact h
      · rw [he]
        exact h
      · exact absurd (ha.symm.trans h) (by decide)
    | cancelDone _ hd => exact cancelDone_inactive ha hd
    | poolStart => exact (congrArg Triggered.active (poolStart_triggered ..)).trans ha
    | workerArmNext => exact (congrArg Triggered.active (workerArmNext_triggered ..)).trans ha
    | _ => cases ht

/-- Without a transaction none is forgotten. -/
theorem forgotten_of_inactive (h : s.triggered.active = false) : Forgotten L s := by
  intro l
  induction l generalizing s with
  | nil =>
    intro s' hrun _
    cases hrun
    exact h
  | cons a l ih =>
    intro s' hrun hn
    obtain ⟨s₁, h₁, h₂⟩ := (driver L).run_cons hrun
    have ha := inactive_fires (s := s.quiet) h (hn a (List.mem_cons_self ..)) (step_fires h₁)
    exact ih ha s' h₂ fun b hb => hn b (List.mem_cons_of_mem a hb)

theorem LeavesNone.released {a : Action} (h : LeavesNone s') : Released L s a s' := by
  intro r hr hop he hfree
  refine forgotten_of_inactive ?_
  rw [Bool.eq_false_iff]
  intro hact
  have hfin := finished_eq_true.mpr ⟨hact, hfree⟩
  rw [h r hr hop he] at hfin
  cases hfin

/-- A step of a responsive device that is careful keeps the transaction recoverable, and
releases it when it gives up. -/
theorem released_step {a : Action} (hm : Modes L s) (h : Recoverable s)
    (hr : Responsive s a s') (hc : Careful s a s') (hst : step L s a = some s') :
    Recoverable s' ∧ Released L s a s' := by
  have hmq : Modes L s.quiet := hm.of_eq rfl rfl rfl
  have hq : Recoverable s.quiet := ⟨h.token, h.clean⟩
  have hcq : Careful s.quiet a s' := ⟨hc.notEarly, hc.token, hc.noSteal⟩
  have hf := step_fires hst
  exact ⟨recoverable_fires hmq hq hr hcq hf, (leavesNone_fires hmq hq rfl hr hcq hf).released⟩

/-- Every WAIT or CANCEL that fails after the DMA callback releases the transaction, in every
run of a responsive device whose steps are careful with the completion. -/
theorem released_run {l : List Action} (hr : (driver L).Meets Responsive .init l)
    (hc : (driver L).Meets Careful .init l) : (driver L).Meets (Released L) .init l := by
  refine Machine.meets_of_invariant (I := fun s => Modes L s ∧ Recoverable s) ?_
    ⟨modes_init, recoverable_init⟩ (hr.and hc)
  rintro s a s' ⟨hm, h⟩ hst ⟨hres, hcare⟩
  obtain ⟨hrec, hrel⟩ := released_step hm h hres hcare hst
  exact ⟨⟨modes_step hm hst, hrec⟩, hrel⟩

instance (s : Sys) (a : Action) (s' : Sys) : Decidable (Responsive s a s') :=
  inferInstanceAs (Decidable (_ = _))

instance (s : Sys) (a : Action) (s' : Sys) : Decidable (Careful s a s') :=
  decidable_of_iff ((turnedAway a = true → finished s = false) ∧
      (entersCancel s a = true → finished s = true → 0 < s.completion) ∧
      stealsCompletion s a = false)
    ⟨fun ⟨h₁, h₂, h₃⟩ => ⟨h₁, h₂, h₃⟩, fun ⟨h₁, h₂, h₃⟩ => ⟨h₁, h₂, h₃⟩⟩

/-- A WAIT that times out cancels the transaction, whose DMA then drains. -/
def timedOutSession : List Action :=
  [.openFile, .armTriggered ⟨1, 1, 1⟩ ⟨0, none⟩, .armPolled statusArmed 0, .waitTriggered 100,
    .waitTriggeredWake .timedOut, .waitTriggeredFinish .timedOut oneWordEvidence statusArmed,
    .dmaComplete ⟨.noError, 0⟩ 5, .cancelDone true statusDone 0]

/-- `released_run` on a WAIT that gives up. -/
theorem released_timedOutSession :
    (driver smallDevice).Meets (Released smallDevice) .init timedOutSession :=
  released_run (by decide +kernel) (by decide +kernel)

/-- ARM, the DMA callback, and a WAIT that takes the completion. -/
def deliveredSession : List Action :=
  [.openFile, .armTriggered ⟨1, 1, 1⟩ ⟨0, none⟩, .armPolled statusArmed 0,
    .dmaComplete ⟨.noError, 0⟩ 5, .waitTriggered 0, .waitTriggeredWake .completed,
    .waitTriggeredFinish .completed { oneWordEvidence with missedTriggerCount := 1 } statusDone]

/-- A single missed trigger is enough: WAIT has used up the completion its own cancellation waits
for, so the device answers every query and the transaction is never released. -/
theorem missedTrigger_stays_active :
    (driver smallDevice).Meets Responsive .init (deliveredSession ++ [.cancelDone false 0 0]) ∧
      ¬ (driver smallDevice).Meets (Released smallDevice) .init
        (deliveredSession ++ [.cancelDone false 0 0]) := by
  constructor
  · decide +kernel
  · intro h
    have hrun := (Option.some_get (show ((driver smallDevice).run .init
      deliveredSession).isSome by decide +kernel)).symm
    have hrel := h.at hrun (Option.some_get (by decide +kernel)).symm
    have hidle := hrel _ (Option.some_get (by decide +kernel)).symm (by decide +kernel)
      (by decide +kernel) (by decide +kernel) [] _ rfl nofun
    exact absurd hidle (by decide +kernel)

end QCrate.Dma
