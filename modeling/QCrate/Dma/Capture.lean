import QCrate.Dma.Device

/-!
# The DMA driver: critical sections, synchronous and triggered capture

The driver serialises everything on `capture_lock`, but the DMA callback runs in a tasklet, the
pool worker fetches its events before it takes the lock, and the lock stays held while a section
waits for the hardware. A section is therefore cut where it waits: the holder of the lock is a
value that says where the section stands, and the continuation is a function of its own. What
the hardware answers is an argument, so every behaviour of the registers, the DMA channel and
the scheduler is covered.
-/

namespace QCrate.Dma

/-! ## State -/

/-- Who submitted a DMA transaction. -/
inductive Owner where
  | capture | triggered | pool
  deriving DecidableEq, Repr

/-- A range of the coherent buffer. -/
structure Range where
  offset : Nat
  bytes : Nat
  deriving DecidableEq, Repr

/-- A submitted chain of descriptors the DMA engine may still write. -/
structure Transfer where
  owner : Owner
  range : Range
  deriving DecidableEq, Repr

/-- The ioctls that touch the device. -/
inductive Op where
  | capture | captureFrames | armTriggered | waitTriggered | cancelTriggered
  | poolStart | poolDequeue | poolRelease | poolStop
  deriving DecidableEq, Repr

/-- How an interruptible wait with a timeout ends. -/
inductive WaitOutcome where
  | completed | timedOut | interrupted
  deriving DecidableEq, Repr

/-- What an ioctl hands back besides its status. -/
inductive Out where
  | nothing
  | capture (transferredBytes : Nat) (dmaResult lastResidueBytes : U32) (evidence : Evidence)
  | triggered (transferredBytes : Nat) (dmaResult lastResidueBytes timestampFlags : U32)
      (evidence : Evidence)
  | started (bankBytes : Nat) (runId : U64)
  | dequeued (token : PoolDequeue)
  | stopped (runId : U64) (discardedReadyBanks : U32)
  deriving DecidableEq, Repr

/-- The callers of `qcrate_cancel_triggered_locked`; a WAIT remembers its error and result. -/
inductive CancelCaller where
  | arm | wait (error : Errno) (out : Out) | cancel | close
  deriving DecidableEq, Repr

/-- The callers of `qcrate_pool_arm_bank_locked`. -/
inductive ArmCaller where
  | start | worker
  deriving DecidableEq, Repr

/-- The callers of `qcrate_pool_drain_locked`. -/
inductive DrainCaller where
  | arm (caller : ArmCaller) | stop
  deriving DecidableEq, Repr

/-- Where the section that holds `capture_lock` stands. -/
inductive Holder where
  /-- `qcrate_run_capture` waits for the completion -/
  | captureWait (op : Op) (request : CaptureRequest) (frameBytes : Nat)
  /-- `qcrate_arm_triggered` polls for ARMED -/
  | armPoll
  /-- `qcrate_cancel_triggered_locked` waits for the completion -/
  | cancelWait (caller : CancelCaller)
  /-- `qcrate_pool_arm_bank_locked` polls for ARMED -/
  | poolArmPoll (caller : ArmCaller)
  /-- `qcrate_pool_drain_locked` waits for DMA_DONE -/
  | drainWait (caller : DrainCaller)
  /-- the rest of the drain; `seen` when it has yet to clear the DMA_DONE it saw -/
  | drainFinish (caller : DrainCaller) (seen : Bool)
  /-- the worker between finalizing a bank and arming the next -/
  | workerArm
  deriving DecidableEq, Repr

/-- Threads inside an ioctl that does not hold the lock. -/
inductive Thread where
  | waitTriggered
  | waitTriggeredWoken (outcome : WaitOutcome)
  | releaseWait
  | stopWait
  | stopWoken
  deriving DecidableEq, Repr

/-- The character device: `qcrate_dma_release` runs when the last descriptor is gone. -/
inductive FileState where
  | closed | opened
  | closeStop (runId : U64)
  | closeStopWait
  | closeCancel
  deriving DecidableEq, Repr

/-- `pool_events` -/
structure Events where
  kick : Bool := false
  dmaDone : Bool := false
  stop : Bool := false
  deriving DecidableEq, Repr

def Events.pending (e : Events) : Bool := e.kick || e.dmaDone || e.stop

/-- The `triggered_*` fields. -/
structure Triggered where
  active : Bool
  cancelled : Bool
  frameLengthWords : U32
  frameCount : U32
  frameBytes : Nat
  totalBytes : Nat
  deriving DecidableEq, Repr

/-- The return of an ioctl. -/
structure Ret where
  op : Op
  error : Option Errno
  out : Out
  deriving DecidableEq, Repr

/-- The device, the threads inside the driver and the DMA channel. The last three fields say
what the step that led here did: the ioctl that returned, the range filled with 0xa5 and the
words written to the control register. -/
structure Sys where
  completion : Nat
  result : DmaResult
  triggered : Triggered
  pool : Pool
  poolEvents : Events
  poolStopDone : Bool
  poolStopResult : Option Errno
  lock : Option Holder
  worker : Option Events
  threads : List Thread
  file : FileState
  inflight : List Transfer
  ret : Option Ret
  poison : Option Range
  control : List U32

/-- The device as `qcrate_dma_probe` leaves it. -/
def Sys.init : Sys :=
  { completion := 0, result := ⟨.noError, 0⟩
    triggered := ⟨false, false, 0, 0, 0, 0⟩
    pool := .init, poolEvents := {}, poolStopDone := false, poolStopResult := none
    lock := none, worker := none, threads := [], file := .closed, inflight := []
    ret := none, poison := none, control := [] }

namespace Sys

/-- The state in which a step starts: it has not done anything yet. -/
def quiet (s : Sys) : Sys := { s with ret := none, poison := none, control := [] }

def write (s : Sys) (word : U32) : Sys := { s with control := s.control ++ [word] }

/-- An ioctl returns without the lock. -/
def returns (s : Sys) (op : Op) (error : Option Errno) (out : Out := .nothing) : Sys :=
  { s with ret := some ⟨op, error, out⟩ }

def unlock (s : Sys) : Sys := { s with lock := none }

/-- `dmaengine_terminate_sync`, when descriptors were submitted. -/
def terminate (s : Sys) (submitted : Bool) : Sys :=
  if submitted then { s with inflight := [] } else s

end Sys

/-! ## DMA channel -/

/-- `qcrate_dma_complete`, for the oldest transaction of the channel. -/
def dmaComplete (r : DmaResult) (now : U64) (s : Sys) : Option Sys :=
  match s.inflight with
  | [] => none
  | _ :: rest =>
    let s := { s with inflight := rest, result := r }
    if s.pool.dmaActive then
      some { s with
        pool := { s.pool with dmaCompletionNs := now }
        poolEvents := { s.poolEvents with dmaDone := true } }
    else some { s with completion := s.completion + 1 }

/-- `qcrate_submit_frames` with the frame at which the DMA engine refuses, if any: its status
and whether descriptors had been submitted. -/
def submitFrames (refusal : Option (U32 × Errno)) (frameCount : U32) : Option Errno × Bool :=
  match refusal with
  | none => (none, true)
  | some (frame, error) => if frame < frameCount then (some error, frame != 0) else (none, true)

/-- A wait on `completion` consumes one count, or ends for another reason when there is none. -/
def takeCompletion (outcome : WaitOutcome) (s : Sys) : Option Sys :=
  match outcome with
  | .completed => if 0 < s.completion then some { s with completion := s.completion - 1 } else none
  | _ => if s.completion = 0 then some s else none

/-! ## Synchronous capture -/

/-- `qcrate_pool_owns_buffer_locked` -/
def poolOwnsBufferLocked (p : Pool) : Bool :=
  p.running || p.stopping || p.dmaActive || p.readyBanks != 0 || p.userBanks != 0

/-- What the hardware answers while a capture is set up. -/
structure SetupAnswer where
  resetStatus : U32
  refusal : Option (U32 × Errno) := none
  deriving DecidableEq, Repr

/-- Poison, reset of the completion and of the DMA result. -/
def prepareBuffer (range : Range) (frameBytes : Nat) (s : Sys) : Sys :=
  { s with
    poison := some range, completion := 0, result := ⟨.aborted, BitVec.ofNat 32 frameBytes⟩ }

/-- `qcrate_run_capture` up to its wait. -/
def runCapture (L : Limits) (op : Op) (request : CaptureRequest) (hw : SetupAnswer) (s : Sys) :
    Sys :=
  if maxTimeoutMs < timeoutOrDefault request.timeoutMs then s.returns op (some .einval)
  else
    match validateCapture L request.frameLengthWords request.frameCount request.streamMode with
    | .error e => s.returns op (some e)
    | .ok (frameBytes, totalBytes) =>
      if s.triggered.active || poolOwnsBufferLocked s.pool then s.returns op (some .ebusy)
      else
        let s := s.write controlSoftReset
        if !idle hw.resetStatus then s.returns op (some .etimedout)
        else
          let s := (prepareBuffer ⟨0, totalBytes⟩ frameBytes s).write 0
          match submitFrames hw.refusal request.frameCount with
          | (some e, submitted) =>
            ((s.write controlSoftReset).terminate submitted).returns op (some e)
          | (none, _) =>
            { s.write controlStart with
              inflight := s.inflight ++ [⟨.capture, ⟨0, totalBytes⟩⟩]
              lock := some (.captureWait op request frameBytes) }

/-- `out_stop` and `out_reset` of `qcrate_run_capture`. -/
def captureStop (op : Op) (error : Errno) (out : Out) (s : Sys) : Sys :=
  ((s.write controlSoftReset).terminate true).unlock.returns op (some error) out

/-- `qcrate_run_capture` after its wait. -/
def captureDone (op : Op) (request : CaptureRequest) (frameBytes : Nat) (outcome : WaitOutcome)
    (ev : Evidence) (s : Sys) : Option Sys :=
  (takeCompletion outcome s).map fun s =>
    match outcome with
    | .timedOut => captureStop op .etimedout .nothing s
    | .interrupted => captureStop op .erestartsys .nothing s
    | .completed =>
      let out := fun transferredBytes =>
        Out.capture transferredBytes s.result.result.code (lastResidueBytes s.result frameBytes) ev
      if !complete ev.status then captureStop op .etimedout .nothing s
      else if framesDelivered s.result frameBytes ev request.frameLengthWords request.frameCount
      then s.unlock.returns op none (out (frameBytes * request.frameCount.toNat))
      else captureStop op .eio (out 0) s

/-! ## Triggered capture -/

/-- The end of `qcrate_dma_release`: every bank becomes free. -/
def Pool.closeBanks (p : Pool) : Pool :=
  { p with
    state := fun i => if i < p.bankCount then .free else p.state i
    readyBanks := 0, userBanks := 0, freeBanks := BitVec.ofNat 32 p.bankCount
    configured := false }

/-- What the callers of `qcrate_cancel_triggered_locked` do with its status. -/
def cancelReturn (caller : CancelCaller) (r : Option Errno) (s : Sys) : Sys :=
  match caller with
  | .arm => s.unlock.returns .armTriggered (some .etimedout)
  | .wait e out => s.unlock.returns .waitTriggered (some e) out
  | .cancel => s.unlock.returns .cancelTriggered r
  | .close => { s.unlock with pool := s.pool.closeBanks, file := .closed }

/-- `qcrate_cancel_triggered_locked` up to its wait. -/
def cancelTriggeredLocked (caller : CancelCaller) (status : U32) (s : Sys) : Sys :=
  if !s.triggered.active then cancelReturn caller none s
  else
    let s := if needsAbort status then s.write controlAbort else s
    { s with lock := some (.cancelWait caller) }

/-- `qcrate_cancel_triggered_locked` after its wait. -/
def cancelDone (caller : CancelCaller) (completed : Bool) (status resetStatus : U32) (s : Sys) :
    Option Sys :=
  (takeCompletion (if completed then .completed else .timedOut) s).map fun s =>
    if !completed then cancelReturn caller (some .etimedout) s
    else if !complete status then cancelReturn caller (some .etimedout) s
    else if !s.result.clean then cancelReturn caller (some .eio) s
    else
      let s := s.write controlSoftReset
      if !idle resetStatus then cancelReturn caller (some .etimedout) s
      else
        cancelReturn caller none
          { s with triggered := { s.triggered with active := false, cancelled := true } }

/-- `qcrate_arm_triggered` up to the poll for ARMED. -/
def armTriggered (L : Limits) (arm : TriggeredArm) (hw : SetupAnswer) (s : Sys) : Sys :=
  match validateCapture L arm.frameLengthWords arm.frameCount arm.streamMode with
  | .error e => s.returns .armTriggered (some e)
  | .ok (frameBytes, totalBytes) =>
    if s.triggered.active || poolOwnsBufferLocked s.pool then
      s.returns .armTriggered (some .ebusy)
    else
      let s := s.write controlSoftReset
      if !idle hw.resetStatus then s.returns .armTriggered (some .etimedout)
      else
        let s := (prepareBuffer ⟨0, totalBytes⟩ frameBytes s).write 0
        match submitFrames hw.refusal arm.frameCount with
        | (some e, submitted) =>
          ((s.write controlSoftReset).terminate submitted).returns .armTriggered (some e)
        | (none, _) =>
          { s.write controlArmTriggered with
            inflight := s.inflight ++ [⟨.triggered, ⟨0, totalBytes⟩⟩]
            triggered := ⟨true, false, arm.frameLengthWords, arm.frameCount, frameBytes, totalBytes⟩
            lock := some .armPoll }

/-- `qcrate_arm_triggered` after the poll. -/
def armPolled (status cancelStatus : U32) (s : Sys) : Sys :=
  if armed status then s.unlock.returns .armTriggered none
  else cancelTriggeredLocked .arm cancelStatus s

/-- `qcrate_wait_triggered` up to its wait. -/
def waitTriggered (timeoutMs : U32) (s : Sys) : Sys :=
  if maxTimeoutMs < timeoutOrDefault timeoutMs then s.returns .waitTriggered (some .einval)
  else if !s.triggered.active then
    s.returns .waitTriggered (some (if s.triggered.cancelled then .ecanceled else .einval))
  else { s with threads := .waitTriggered :: s.threads }

/-- The wait of `qcrate_wait_triggered`, which does not hold the lock. -/
def waitTriggeredWake (outcome : WaitOutcome) (s : Sys) : Option Sys :=
  (takeCompletion outcome s).map fun s =>
    { s with threads := .waitTriggeredWoken outcome :: s.threads.erase .waitTriggered }

/-- `qcrate_wait_triggered` after it has taken the lock again. -/
def waitTriggeredFinish (outcome : WaitOutcome) (ev : Evidence) (cancelStatus : U32) (s : Sys) :
    Sys :=
  let out := fun transferredBytes =>
    Out.triggered transferredBytes s.result.result.code
      (lastResidueBytes s.result s.triggered.frameBytes) (timestampFlags ev.status) ev
  if !s.triggered.active then s.returns .waitTriggered (some .ecanceled)
  else
    match outcome with
    | .timedOut => cancelTriggeredLocked (.wait .etimedout .nothing) cancelStatus s
    | .interrupted => cancelTriggeredLocked (.wait .erestartsys .nothing) cancelStatus s
    | .completed =>
      if !complete ev.status then cancelTriggeredLocked (.wait .etimedout .nothing) cancelStatus s
      else if framesDelivered s.result s.triggered.frameBytes ev s.triggered.frameLengthWords
          s.triggered.frameCount && triggeredOnce ev && ev.missedTriggerCount == 0 then
        { s with
          triggered := { s.triggered with active := false, cancelled := false } }.returns
          .waitTriggered none (out s.triggered.totalBytes)
      else cancelTriggeredLocked (.wait .eio (out 0)) cancelStatus s

/-- `qcrate_cancel_triggered` -/
def cancelTriggered (status : U32) (s : Sys) : Sys :=
  if !s.triggered.active then s.returns .cancelTriggered (some .einval)
  else cancelTriggeredLocked .cancel status s

end QCrate.Dma
