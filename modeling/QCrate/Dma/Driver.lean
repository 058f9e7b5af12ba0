import QCrate.Dma.BankPool
import QCrate.Lib.Machine

/-!
# The DMA driver as a machine

One action is one atomic piece of one thread: an ioctl up to the place where it waits, the
continuation of a section, a step of the pool worker, the DMA callback, or a step of open and
close. An action is impossible while its thread is not there or while another section holds
the lock it needs.
-/

namespace QCrate.Dma

open QCrate.Lib

inductive Action where
  /-- the DMA engine completes its oldest transaction -/
  | dmaComplete (r : DmaResult) (now : U64)
  /-- an ioctl fails before its first section: argument copy, reserved fields or a signal -/
  | refused (op : Op) (error : Errno)
  | capture (request : CaptureRequest) (hw : SetupAnswer)
  | captureFrames (request : CaptureRequest) (hw : SetupAnswer)
  | captureDone (outcome : WaitOutcome) (ev : Evidence)
  | armTriggered (arm : TriggeredArm) (hw : SetupAnswer)
  | armPolled (status cancelStatus : U32)
  | waitTriggered (timeoutMs : U32)
  | waitTriggeredWake (outcome : WaitOutcome)
  | waitTriggeredFinish (outcome : WaitOutcome) (ev : Evidence) (cancelStatus : U32)
  /-- a signal ends the second lock of WAIT -/
  | waitTriggeredInterrupted (outcome : WaitOutcome)
  | cancelTriggered (status : U32)
  | cancelDone (completed : Bool) (status resetStatus : U32)
  | poolStart (request : PoolStart) (resetStatus : U32) (hw : ArmAnswer)
  | poolArmPolled (status drainStatus : U32)
  | drainWake
  | drainFinish (hw : DrainAnswer)
  | workerFetch
  | workerStop (status missed resetStatus : U32)
  | workerRun (hw : FinalizeAnswer)
  | workerArmNext (hw : ArmAnswer)
  | poolDequeue (timeoutMs : U32) (outcome : WaitOutcome) (status : U32)
  | poolRelease (release : PoolRelease)
  | poolReleaseWake (outcome : WaitOutcome)
  | poolStop (stop : PoolStop)
  | poolStopWake (outcome : WaitOutcome)
  | poolStopFinish
  | openFile
  | closeFile
  | closeStop (interrupted : Bool)
  | closeStopWake (outcome : WaitOutcome)
  | closeCancel (status : U32)
  deriving DecidableEq, Repr

/-- The errors an ioctl can return before its first section. -/
def Errno.early : Errno → Bool
  | .efault | .einval | .eintr => true
  | _ => false

/-- A section of an ioctl: the file is open and the lock is free. -/
def ioctl (s s' : Sys) : Option Sys := if s.file = .opened ∧ s.lock = none then some s' else none

/-- A thread that is inside an ioctl and does not hold the lock. -/
def resume (s : Sys) (t : Thread) (s' : Option Sys) : Option Sys :=
  if t ∈ s.threads then s' else none

def step (L : Limits) (s : Sys) (a : Action) : Option Sys :=
  let s := s.quiet
  match a with
  | .dmaComplete r now => dmaComplete r now s
  | .refused op e =>
    if s.file = .opened ∧ e.early = true then some (s.returns op (some e)) else none
  | .capture request hw => ioctl s (runCapture L .capture { request with frameCount := 1 } hw s)
  | .captureFrames request hw => ioctl s (runCapture L .captureFrames request hw s)
  | .captureDone outcome ev =>
    match s.lock with
    | some (.captureWait op request frameBytes) => captureDone op request frameBytes outcome ev s
    | _ => none
  | .armTriggered arm hw => ioctl s (armTriggered L arm hw s)
  | .armPolled status cancelStatus =>
    if s.lock = some .armPoll then some (armPolled status cancelStatus s) else none
  | .waitTriggered timeoutMs => ioctl s (waitTriggered timeoutMs s)
  | .waitTriggeredWake outcome => resume s .waitTriggered (waitTriggeredWake outcome s)
  | .waitTriggeredFinish outcome ev cancelStatus =>
    resume s (.waitTriggeredWoken outcome) <| ioctl s <|
      waitTriggeredFinish outcome ev cancelStatus
        { s with threads := s.threads.erase (.waitTriggeredWoken outcome) }
  | .waitTriggeredInterrupted outcome =>
    resume s (.waitTriggeredWoken outcome) <|
      some ({ s with threads := s.threads.erase (.waitTriggeredWoken outcome) }.returns
        .waitTriggered (some .eintr))
  | .cancelTriggered status => ioctl s (cancelTriggered status s)
  | .cancelDone completed status resetStatus =>
    match s.lock with
    | some (.cancelWait caller) => cancelDone caller completed status resetStatus s
    | _ => none
  | .poolStart request resetStatus hw => ioctl s (poolStart L request resetStatus hw s)
  | .poolArmPolled status drainStatus =>
    match s.lock with
    | some (.poolArmPoll caller) => some (poolArmPolled caller status drainStatus s)
    | _ => none
  | .drainWake =>
    match s.lock with
    | some (.drainWait caller) => some (drainWake caller s)
    | _ => none
  | .drainFinish hw =>
    match s.lock with
    | some (.drainFinish caller seen) => some (drainFinish caller seen hw s)
    | _ => none
  | .workerFetch =>
    if s.worker = none ∧ s.poolEvents.pending = true then
      some { s with worker := some s.poolEvents, poolEvents := {} }
    else none
  | .workerStop status missed resetStatus =>
    match s.worker with
    | some events =>
      if s.lock = none ∧ events.stop = true then
        some (workerStop events.dmaDone status missed resetStatus s)
      else none
    | none => none
  | .workerRun hw =>
    match s.worker with
    | some events =>
      if s.lock = none ∧ events.stop = false then some (workerRun events.dmaDone hw s) else none
    | none => none
  | .workerArmNext hw => if s.lock = some .workerArm then some (workerArmNext hw s) else none
  | .poolDequeue timeoutMs outcome status => ioctl s (poolDequeue timeoutMs outcome status s)
  | .poolRelease release => ioctl s (poolReleaseBank release s)
  | .poolReleaseWake outcome => resume s .releaseWait (some (poolReleaseWake outcome s))
  | .poolStop stop => ioctl s (poolStop stop s)
  | .poolStopWake outcome =>
    resume s .stopWait <|
      if outcome = .completed → s.poolStopDone = true then some (poolStopWake outcome s) else none
  | .poolStopFinish => resume s .stopWoken (ioctl s (poolStopFinish s))
  | .openFile => if s.file = .closed then some { s with file := .opened } else none
  | .closeFile => if s.threads = [] then ioctl s (closeFile s) else none
  | .closeStop interrupted =>
    match s.file with
    | .closeStop runId =>
      if interrupted then some { s with file := .closeCancel }
      else if s.lock = none then some (closeStop runId s)
      else none
    | _ => none
  | .closeStopWake outcome =>
    if s.file = .closeStopWait ∧ (outcome = .completed → s.poolStopDone = true) then
      some { s with file := .closeCancel }
    else none
  | .closeCancel status =>
    if s.file = .closeCancel ∧ s.lock = none then
      some (cancelTriggeredLocked .close status s)
    else none

/-- The driver on a device with limits `L`. -/
def driver (L : Limits) : Machine Sys Action where
  step := step L

/-! ## A small device

The concrete runs of the modules that follow are runs of this device. -/

def smallDevice : Limits := ⟨4096, 4096, true⟩

/-- Two banks of one frame of one word. -/
def smallPool : PoolStart := ⟨1, 1, 1, 2, 0, 1⟩

/-- One delivered frame of one word, triggered once. -/
def oneWordEvidence : Evidence := ⟨0x62, 1, 0, 0, 0, 7, 1, 0, 10, 11, 1⟩

/-! ## What a step can do -/

/-- Every way in which an action happens in `s`: its guards, and the state it leads to. -/
inductive Fires (L : Limits) (s : Sys) : Action → Sys → Prop where
  | dmaComplete {r : DmaResult} {now : U64} {s' : Sys} (h : dmaComplete r now s = some s') :
      Fires L s (.dmaComplete r now) s'
  | refused {op : Op} {e : Errno} (he : e.early = true) :
      Fires L s (.refused op e) (s.returns op (some e))
  | capture {request : CaptureRequest} {hw : SetupAnswer} (hl : s.lock = none) :
      Fires L s (.capture request hw)
        (runCapture L .capture { request with frameCount := 1 } hw s)
  | captureFrames {request : CaptureRequest} {hw : SetupAnswer} (hl : s.lock = none) :
      Fires L s (.captureFrames request hw) (runCapture L .captureFrames request hw s)
  | captureDone {outcome : WaitOutcome} {ev : Evidence} {op : Op} {request : CaptureRequest}
      {frameBytes : Nat} {s' : Sys} (hl : s.lock = some (.captureWait op request frameBytes))
      (h : captureDone op request frameBytes outcome ev s = some s') :
      Fires L s (.captureDone outcome ev) s'
  | armTriggered {arm : TriggeredArm} {hw : SetupAnswer} (hl : s.lock = none) :
      Fires L s (.armTriggered arm hw) (armTriggered L arm hw s)
  | armPolled {status cancelStatus : U32} (hl : s.lock = some .armPoll) :
      Fires L s (.armPolled status cancelStatus) (armPolled status cancelStatus s)
  | waitTriggered {timeoutMs : U32} (hl : s.lock = none) :
      Fires L s (.waitTriggered timeoutMs) (waitTriggered timeoutMs s)
  | waitTriggeredWake {outcome : WaitOutcome} {s' : Sys} (ht : .waitTriggered ∈ s.threads)
      (h : waitTriggeredWake outcome s = some s') : Fires L s (.waitTriggeredWake outcome) s'
  | waitTriggeredFinish {outcome : WaitOutcome} {ev : Evidence} {cancelStatus : U32}
      (ht : .waitTriggeredWoken outcome ∈ s.threads) (hl : s.lock = none) :
      Fires L s (.waitTriggeredFinish outcome ev cancelStatus)
        (waitTriggeredFinish outcome ev cancelStatus
          { s with threads := s.threads.erase (.waitTriggeredWoken outcome) })
  | waitTriggeredInterrupted {outcome : WaitOutcome}
      (ht : .waitTriggeredWoken outcome ∈ s.threads) :
      Fires L s (.waitTriggeredInterrupted outcome)
        ({ s with threads := s.threads.erase (.waitTriggeredWoken outcome) }.returns
          .waitTriggered (some .eintr))
  | cancelTriggered {status : U32} (hl : s.lock = none) :
      Fires L s (.cancelTriggered status) (cancelTriggered status s)
  | cancelDone {completed : Bool} {status resetStatus : U32} {caller : CancelCaller} {s' : Sys}
      (hl : s.lock = some (.cancelWait caller))
      (h : cancelDone caller completed status resetStatus s = some s') :
      Fires L s (.cancelDone completed status resetStatus) s'
  | poolStart {request : PoolStart} {resetStatus : U32} {hw : ArmAnswer} (hl : s.lock = none) :
      Fires L s (.poolStart request resetStatus hw) (poolStart L request resetStatus hw s)
  | poolArmPolled {status drainStatus : U32} {caller : ArmCaller}
      (hl : s.lock = some (.poolArmPoll caller)) :
      Fires L s (.poolArmPolled status drainStatus) (poolArmPolled caller status drainStatus s)
  | drainWake {caller : DrainCaller} (hl : s.lock = some (.drainWait caller)) :
      Fires L s .drainWake (drainWake caller s)
  | drainFinish {hw : DrainAnswer} {caller : DrainCaller} {seen : Bool}
      (hl : s.lock = some (.drainFinish caller seen)) :
      Fires L s (.drainFinish hw) (drainFinish caller seen hw s)
  | workerFetch (hw : s.worker = none) :
      Fires L s .workerFetch { s with worker := some s.poolEvents, poolEvents := {} }
  | workerStop {status missed resetStatus : U32} {events : Events} (hw : s.worker = some events)
      (hl : s.lock = none) (hs : events.stop = true) :
      Fires L s (.workerStop status missed resetStatus)
        (workerStop events.dmaDone status missed resetStatus s)
  | workerRun {hw : FinalizeAnswer} {events : Events} (hwk : s.worker = some events)
      (hl : s.lock = none) (hs : events.stop = false) :
      Fires L s (.workerRun hw) (workerRun events.dmaDone hw s)
  | workerArmNext {hw : ArmAnswer} (hl : s.lock = some .workerArm) :
      Fires L s (.workerArmNext hw) (workerArmNext hw s)
  | poolDequeue {timeoutMs status : U32} {outcome : WaitOutcome} (hl : s.lock = none) :
      Fires L s (.poolDequeue timeoutMs outcome status) (poolDequeue timeoutMs outcome status s)
  | poolRelease {release : PoolRelease} (hl : s.lock = none) :
      Fires L s (.poolRelease release) (poolReleaseBank release s)
  | poolReleaseWake {outcome : WaitOutcome} (ht : .releaseWait ∈ s.threads) :
      Fires L s (.poolReleaseWake outcome) (poolReleaseWake outcome s)
  | poolStop {stop : PoolStop} (hl : s.lock = none) :
      Fires L s (.poolStop stop) (poolStop stop s)
  | poolStopWake {outcome : WaitOutcome} (ht : .stopWait ∈ s.threads) :
      Fires L s (.poolStopWake outcome) (poolStopWake outcome s)
  | poolStopFinish (ht : .stopWoken ∈ s.threads) : Fires L s .poolStopFinish (poolStopFinish s)
  | openFile (hf : s.file = .closed) : Fires L s .openFile { s with file := .opened }
  | closeFile (hl : s.lock = none) (ht : s.threads = []) : Fires L s .closeFile (closeFile s)
  | closeStopInterrupted {runId : U64} (hf : s.file = .closeStop runId) :
      Fires L s (.closeStop true) { s with file := .closeCancel }
  | closeStop {runId : U64} (hf : s.file = .closeStop runId) (hl : s.lock = none) :
      Fires L s (.closeStop false) (closeStop runId s)
  | closeStopWake {outcome : WaitOutcome} (hf : s.file = .closeStopWait) :
      Fires L s (.closeStopWake outcome) { s with file := .closeCancel }
  | closeCancel {status : U32} (hf : s.file = .closeCancel) (hl : s.lock = none) :
      Fires L s (.closeCancel status) (cancelTriggeredLocked .close status s)

theorem ite_some {α : Type} {c : Prop} [Decidable c] {x y : α}
    (h : (if c then some x else none) = some y) : c ∧ x = y :=
  ⟨(Option.ite_none_right_eq_some.mp h).1, Option.some.inj (Option.ite_none_right_eq_some.mp h).2⟩

theorem resume_some {s s' : Sys} {t : Thread} {next : Option Sys}
    (h : resume s t next = some s') : t ∈ s.threads ∧ next = some s' := by
  unfold resume at h
  exact Option.ite_none_right_eq_some.mp h

/-- The guards of an action, read off the step function once and for all. -/
theorem step_fires {L : Limits} {s s' : Sys} {a : Action} (h : step L s a = some s') :
    Fires L s.quiet a s' := by
  unfold step at h
  cases a with
  | dmaComplete r now => exact .dmaComplete h
  | refused op e =>
    obtain ⟨⟨-, he⟩, rfl⟩ := ite_some h
    exact .refused he
  | capture request hw =>
    obtain ⟨⟨-, hl⟩, rfl⟩ := ite_some h
    exact .capture hl
  | captureFrames request hw =>
    obtain ⟨⟨-, hl⟩, rfl⟩ := ite_some h
    exact .captureFrames hl
  -- the sections that go on after a wait look at the thread that waits
  | captureDone outcome ev =>
    dsimp only at h
    split at h
    · next hl => exact .captureDone hl h
    · cases h
  | armTriggered arm hw =>
    obtain ⟨⟨-, hl⟩, rfl⟩ := ite_some h
    exact .armTriggered hl
  | armPolled status cancelStatus =>
    obtain ⟨hl, rfl⟩ := ite_some h
    exact .armPolled hl
  | waitTriggered timeoutMs =>
    obtain ⟨⟨-, hl⟩, rfl⟩ := ite_some h
    exact .waitTriggered hl
  | waitTriggeredWake outcome =>
    obtain ⟨ht, h⟩ := resume_some h
    exact .waitTriggeredWake ht h
  | waitTriggeredFinish outcome ev cancelStatus =>
    obtain ⟨ht, h⟩ := resume_some h
    obtain ⟨⟨-, hl⟩, rfl⟩ := ite_some h
    exact .waitTriggeredFinish ht hl
  | waitTriggeredInterrupted outcome =>
    obtain ⟨ht, h⟩ := resume_some h
    cases h
    exact .waitTriggeredInterrupted ht
  | cancelTriggered status =>
    obtain ⟨⟨-, hl⟩, rfl⟩ := ite_some h
    exact .cancelTriggered hl
  | cancelDone completed status resetStatus =>
    dsimp only at h
    split at h
    · next hl => exact .cancelDone hl h
    · cases h
  | poolStart request resetStatus hw =>
    obtain ⟨⟨-, hl⟩, rfl⟩ := ite_some h
    exact .poolStart hl
  | poolArmPolled status drainStatus =>
    dsimp only at h
    split at h
    · next hl =>
      cases h
      exact .poolArmPolled hl
    · cases h
  | drainWake =>
    dsimp only at h
    split at h
    · next hl =>
      cases h
      exact .drainWake hl
    · cases h
  | drainFinish hw =>
    dsimp only at h
    split at h
    · next hl =>
      cases h
      exact .drainFinish hl
    · cases h
  -- the worker's sections look at where the worker is
  | workerFetch =>
    obtain ⟨⟨hw, -⟩, rfl⟩ := ite_some h
    exact .workerFetch hw
  | workerStop status missed resetStatus =>
    dsimp only at h
    split at h
    · next hw =>
      obtain ⟨⟨hl, hs⟩, rfl⟩ := ite_some h
      exact .workerStop hw hl hs
    · cases h
  | workerRun hw =>
    dsimp only at h
    split at h
    · next hwk =>
      obtain ⟨⟨hl, hs⟩, rfl⟩ := ite_some h
      exact .workerRun hwk hl hs
    · cases h
  | workerArmNext hw =>
    obtain ⟨hl, rfl⟩ := ite_some h
    exact .workerArmNext hl
  | poolDequeue timeoutMs outcome status =>
    obtain ⟨⟨-, hl⟩, rfl⟩ := ite_some h
    exact .poolDequeue hl
  | poolRelease release =>
    obtain ⟨⟨-, hl⟩, rfl⟩ := ite_some h
    exact .poolRelease hl
  | poolReleaseWake outcome =>
    obtain ⟨ht, h⟩ := resume_some h
    cases h
    exact .poolReleaseWake ht
  | poolStop stop =>
    obtain ⟨⟨-, hl⟩, rfl⟩ := ite_some h
    exact .poolStop hl
  | poolStopWake outcome =>
    obtain ⟨ht, h⟩ := resume_some h
    obtain ⟨-, rfl⟩ := ite_some h
    exact .poolStopWake ht
  | poolStopFinish =>
    obtain ⟨ht, h⟩ := resume_some h
    obtain ⟨-, rfl⟩ := ite_some h
    exact .poolStopFinish ht
  | openFile =>
    obtain ⟨hf, rfl⟩ := ite_some h
    exact .openFile hf
  | closeFile =>
    obtain ⟨ht, h⟩ := Option.ite_none_right_eq_some.mp h
    obtain ⟨⟨-, hl⟩, rfl⟩ := ite_some h
    exact .closeFile hl ht
  | closeStop interrupted =>
    dsimp only at h
    split at h
    · next hf =>
      cases interrupted with
      | true =>
        cases h
        exact .closeStopInterrupted hf
      | false =>
        obtain ⟨hl, rfl⟩ := ite_some h
        exact .closeStop hf hl
    · cases h
  | closeStopWake outcome =>
    obtain ⟨⟨hf, -⟩, rfl⟩ := ite_some h
    exact .closeStopWake hf
  | closeCancel status =>
    obtain ⟨⟨hf, hl⟩, rfl⟩ := ite_some h
    exact .closeCancel hf hl

end QCrate.Dma
