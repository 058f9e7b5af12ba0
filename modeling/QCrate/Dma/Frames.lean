import QCrate.Dma.Modes

/-!
# What the sections leave alone

Most actions only move locks, threads and pool bookkeeping. `Untouched` is their common frame:
the DMA channel, the completion, the triggered transaction and the contents of the buffer are
as they were.
-/

namespace QCrate.Dma

structure Untouched (s s' : Sys) : Prop where
  completion : s'.completion = s.completion
  result : s'.result = s.result
  triggered : s'.triggered = s.triggered
  inflight : s'.inflight = s.inflight
  poison : s'.poison = s.poison

/-- The frame of two sections, one after the other. -/
theorem Untouched.trans {s₁ s₂ s₃ : Sys} (h : Untouched s₁ s₂) (h' : Untouched s₂ s₃) :
    Untouched s₁ s₃ :=
  ⟨h'.completion.trans h.completion, h'.result.trans h.result, h'.triggered.trans h.triggered,
    h'.inflight.trans h.inflight, h'.poison.trans h.poison⟩

variable {L : Limits} {s s' : Sys}

/-! ## Triggered capture -/

/-- The callers differ in the lock, the thread and what they return. -/
theorem untouched_cancelReturn (caller : CancelCaller) (r : Option Errno) (s : Sys) :
    Untouched s (cancelReturn caller r s) := by
  cases caller <;> exact ⟨rfl, rfl, rfl, rfl, rfl⟩

/-- The cancellation only begins here: it writes a command and waits, or there is none to cancel. -/
theorem untouched_cancelTriggeredLocked (caller : CancelCaller) (status : U32) (s : Sys) :
    Untouched s (cancelTriggeredLocked caller status s) := by
  unfold cancelTriggeredLocked
  split
  · exact untouched_cancelReturn ..
  · dsimp only
    split <;> exact ⟨rfl, rfl, rfl, rfl, rfl⟩

/-- An ARM that the PL has not taken goes on as a cancellation. -/
theorem untouched_armPolled (status cancelStatus : U32) (s : Sys) :
    Untouched s (armPolled status cancelStatus s) := by
  unfold armPolled
  split
  · exact ⟨rfl, rfl, rfl, rfl, rfl⟩
  · exact untouched_cancelTriggeredLocked ..

/-- The wait is only entered: a thread is put down for it. -/
theorem untouched_waitTriggered (timeoutMs : U32) (s : Sys) :
    Untouched s (waitTriggered timeoutMs s) := by
  unfold waitTriggered
  repeat' split
  all_goals exact ⟨rfl, rfl, rfl, rfl, rfl⟩

theorem untouched_cancelTriggered (status : U32) (s : Sys) :
    Untouched s (cancelTriggered status s) := by
  unfold cancelTriggered
  split
  · exact ⟨rfl, rfl, rfl, rfl, rfl⟩
  · exact untouched_cancelTriggeredLocked ..

/-! ## Bank pool -/

/-- A fault is noted in the pool alone. -/
theorem untouched_faultPool (r : Option Errno) (s : Sys) : Untouched s (faultPool r s) := by
  cases r <;> exact ⟨rfl, rfl, rfl, rfl, rfl⟩

theorem untouched_armReturn (caller : ArmCaller) (r : Option Errno) (s : Sys) :
    Untouched s (armReturn caller r s) := by
  cases caller <;> cases r <;> exact ⟨rfl, rfl, rfl, rfl, rfl⟩

/-- At the end of a stop the banks that are ready go back. -/
theorem untouched_stopEpilogue (r : Option Errno) (s : Sys) : Untouched s (stopEpilogue r s) := by
  cases r <;> exact ⟨rfl, rfl, rfl, rfl, rfl⟩

/-- A drain is made for an ARM or for a stop, and goes back to it. -/
theorem untouched_drainReturn (caller : DrainCaller) (r : Option Errno) (s : Sys) :
    Untouched s (drainReturn caller r s) := by
  cases caller with
  | arm caller => exact untouched_armReturn ..
  | stop => exact untouched_stopEpilogue r s

/-- The drain only begins here, or there is nothing under way. -/
theorem untouched_poolDrainLocked (caller : DrainCaller) (dmaDone : Bool) (status : U32)
    (s : Sys) : Untouched s (poolDrainLocked caller dmaDone status s) := by
  unfold poolDrainLocked
  split
  · exact untouched_drainReturn ..
  · dsimp only
    split <;> exact ⟨rfl, rfl, rfl, rfl, rfl⟩

theorem untouched_drainWake (caller : DrainCaller) (s : Sys) :
    Untouched s (drainWake caller s) := by
  unfold drainWake
  split
  · exact ⟨rfl, rfl, rfl, rfl, rfl⟩
  · exact untouched_drainReturn ..

/-- The transfer is over or given up, and only the pool hears of it. -/
theorem untouched_drainFinish (caller : DrainCaller) (seen : Bool) (hw : DrainAnswer) (s : Sys) :
    Untouched s (drainFinish caller seen hw s) := by
  unfold drainFinish
  obtain ⟨s₁, hs₁, hu⟩ : ∃ s₁ : Sys, s₁ = (if seen then { s with
      poolEvents := { s.poolEvents with dmaDone := false } } else s) ∧ Untouched s s₁ := by
    refine ⟨_, rfl, ?_⟩
    split <;> exact ⟨rfl, rfl, rfl, rfl, rfl⟩
  rw [← hs₁]
  refine hu.trans ?_
  have hret : ∀ (s₂ : Sys) (r : Option Errno), Untouched s₁ s₂ →
      Untouched s₁ (drainReturn caller r s₂) :=
    fun s₂ r h => h.trans (untouched_drainReturn caller r s₂)
  dsimp only
  repeat' split
  all_goals exact hret _ _ ⟨rfl, rfl, rfl, rfl, rfl⟩

theorem untouched_poolArmPolled (caller : ArmCaller) (status drainStatus : U32) (s : Sys) :
    Untouched s (poolArmPolled caller status drainStatus s) := by
  unfold poolArmPolled
  split
  · refine .trans ?_ (untouched_armReturn ..)
    exact ⟨rfl, rfl, rfl, rfl, rfl⟩
  · exact untouched_poolDrainLocked ..

/-- A finalization reads the evidence and passes the bank on. -/
theorem untouched_poolFinalizeLocked (hw : FinalizeAnswer) (s : Sys) :
    Untouched s (poolFinalizeLocked hw s).2 := by
  unfold poolFinalizeLocked
  dsimp only
  repeat' split
  all_goals exact ⟨rfl, rfl, rfl, rfl, rfl⟩

/-- The worker on a pool that is to stop: it drains, or ends. -/
theorem untouched_workerStop (dmaDone : Bool) (status missed resetStatus : U32) (s : Sys) :
    Untouched s (workerStop dmaDone status missed resetStatus s) := by
  unfold workerStop
  dsimp only
  split
  · refine .trans ?_ (untouched_poolDrainLocked ..)
    exact ⟨rfl, rfl, rfl, rfl, rfl⟩
  split
  · refine .trans ?_ (untouched_stopEpilogue ..)
    exact ⟨rfl, rfl, rfl, rfl, rfl⟩
  · refine .trans ?_ (untouched_stopEpilogue ..)
    exact ⟨rfl, rfl, rfl, rfl, rfl⟩

theorem untouched_workerRun (dmaDone : Bool) (hw : FinalizeAnswer) (s : Sys) :
    Untouched s (workerRun dmaDone hw s) := by
  unfold workerRun
  split
  · have hf := (untouched_poolFinalizeLocked hw s).trans
      (untouched_faultPool (poolFinalizeLocked hw s).1 _)
    exact ⟨hf.completion, hf.result, hf.triggered, hf.inflight, hf.poison⟩
  · exact ⟨rfl, rfl, rfl, rfl, rfl⟩

/-- A bank changes hands without a look at its contents. -/
theorem untouched_poolDequeue (timeoutMs : U32) (outcome : WaitOutcome) (status : U32) (s : Sys) :
    Untouched s (poolDequeue timeoutMs outcome status s) := by
  unfold poolDequeue
  repeat' split
  all_goals exact ⟨rfl, rfl, rfl, rfl, rfl⟩

/-- A bank comes back, or the release waits for the worker. -/
theorem untouched_poolReleaseBank (release : PoolRelease) (s : Sys) :
    Untouched s (poolReleaseBank release s) := by
  unfold poolReleaseBank
  dsimp only
  repeat' split
  all_goals exact ⟨rfl, rfl, rfl, rfl, rfl⟩

theorem untouched_poolReleaseWake (outcome : WaitOutcome) (s : Sys) :
    Untouched s (poolReleaseWake outcome s) := by
  cases outcome <;> exact ⟨rfl, rfl, rfl, rfl, rfl⟩

theorem untouched_poolStop (stop : PoolStop) (s : Sys) : Untouched s (poolStop stop s) := by
  unfold poolStop
  split
  · exact ⟨rfl, rfl, rfl, rfl, rfl⟩
  split
  · exact ⟨rfl, rfl, rfl, rfl, rfl⟩
  · next hreq =>
    rw [poolStopRequest_eq hreq]
    exact ⟨rfl, rfl, rfl, rfl, rfl⟩

theorem untouched_poolStopWake (outcome : WaitOutcome) (s : Sys) :
    Untouched s (poolStopWake outcome s) := by
  cases outcome <;> exact ⟨rfl, rfl, rfl, rfl, rfl⟩

/-- `close` asks for the stop that the ioctl would ask for. -/
theorem untouched_closeStop (runId : U64) (s : Sys) : Untouched s (closeStop runId s) := by
  unfold closeStop
  split
  · exact ⟨rfl, rfl, rfl, rfl, rfl⟩
  · next hreq =>
    rw [poolStopRequest_eq hreq]
    exact ⟨rfl, rfl, rfl, rfl, rfl⟩

/-! ## Actions -/

/-- The actions that use the channel, the completion or the buffer. -/
def touches : Action → Bool
  | .dmaComplete _ _ | .capture _ _ | .captureFrames _ _ | .captureDone _ _ | .armTriggered _ _
  | .waitTriggeredWake _ | .waitTriggeredFinish _ _ _ | .cancelDone _ _ _ | .poolStart _ _ _
  | .workerArmNext _ => true
  | _ => false

/-- Every action outside `touches` keeps the frame. -/
theorem untouched_fires {a : Action} (h : Fires L s a s') (ht : touches a = false) :
    Untouched s s' := by
  cases h with
  | dmaComplete | capture | captureFrames | captureDone | armTriggered | waitTriggeredWake
  | waitTriggeredFinish | cancelDone | poolStart | workerArmNext => cases ht
  | refused | waitTriggeredInterrupted | workerFetch | poolStopFinish | openFile | closeFile
  | closeStopInterrupted | closeStopWake => exact ⟨rfl, rfl, rfl, rfl, rfl⟩
  | armPolled => exact untouched_armPolled ..
  | waitTriggered => exact untouched_waitTriggered ..
  | cancelTriggered => exact untouched_cancelTriggered ..
  | poolArmPolled => exact untouched_poolArmPolled ..
  | drainWake => exact untouched_drainWake ..
  | drainFinish => exact untouched_drainFinish ..
  | workerStop => exact untouched_workerStop ..
  | workerRun => exact untouched_workerRun ..
  | poolDequeue => exact untouched_poolDequeue ..
  | poolRelease => exact untouched_poolReleaseBank ..
  | poolReleaseWake => exact untouched_poolReleaseWake ..
  | poolStop => exact untouched_poolStop ..
  | poolStopWake => exact untouched_poolStopWake ..
  | closeStop => exact untouched_closeStop ..
  | closeCancel => exact untouched_cancelTriggeredLocked ..

end QCrate.Dma
