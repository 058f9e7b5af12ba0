import Mathlib.Tactic
import QCrate.Lib.Tally

/-!
# The state of the DMA driver

`struct qcrate_dma_dev` of `qcrate_dma.c`, the constants and request structures of
`qcrate_dma_uapi.h`, and the pure tests the driver makes on register values.

Sizes and indices that cannot overflow are `Nat`; counters that the driver increments and
decrements are words of their C width.
-/

namespace QCrate.Dma

open QCrate.Lib

abbrev U32 := BitVec 32
abbrev U64 := BitVec 64

/-! ## Constants -/

def controlStart : U32 := 1
def controlAbort : U32 := 2
def controlSoftReset : U32 := 4
def controlArmTriggered : U32 := 8

def statusBusy : U32 := 0x001
def statusDone : U32 := 0x002
def statusError : U32 := 0x004
def statusArmed : U32 := 0x010
def statusTriggerSeen : U32 := 0x020
def statusFirstTimeValid : U32 := 0x040
def statusCommandBusy : U32 := 0x100

def streamWordBytes : Nat := 4
def defaultTimeoutMs : U32 := 1000
def maxTimeoutMs : U32 := 60000
/-- A zero timeout in a request stands for the default. -/
def timeoutOrDefault (timeoutMs : U32) : U32 :=
  if timeoutMs = 0 then defaultTimeoutMs else timeoutMs

def maxChainFrames : U32 := 255
def maxPoolBanks : Nat := 64
def bankNone : Nat := 0xFFFFFFFF

def triggerSeenFlag : U32 := 1
def firstSampleTimeValidFlag : U32 := 2

def poolStartTriggered : U32 := 1

def poolRunningFlag : U32 := 1
def poolArmedFlag : U32 := 2
def poolStarvedFlag : U32 := 4
def poolFaultedFlag : U32 := 8
def poolStoppingFlag : U32 := 16

/-- The error numbers the driver returns, without their sign. -/
inductive Errno where
  | eintr | eio | e2big | eagain | efault | ebusy | einval | enospc | emsgsize | eopnotsupp
  | eshutdown | etimedout | estale | eoverflow | ecanceled | erestartsys
  deriving DecidableEq, Repr

def Errno.code : Errno → U32
  | .eintr => 4 | .eio => 5 | .e2big => 7 | .eagain => 11 | .efault => 14 | .ebusy => 16
  | .einval => 22 | .enospc => 28 | .emsgsize => 90 | .eopnotsupp => 95 | .eshutdown => 108
  | .etimedout => 110 | .estale => 116 | .eoverflow => 75 | .ecanceled => 125
  | .erestartsys => 512

/-! ## Hardware answers -/

/-- `enum dmaengine_tx_result` -/
inductive TransResult where
  | noError | readFailed | writeFailed | aborted
  deriving DecidableEq, Repr

def TransResult.code : TransResult → U32
  | .noError => 0 | .readFailed => 1 | .writeFailed => 2 | .aborted => 3

/-- `struct dmaengine_result` -/
structure DmaResult where
  result : TransResult
  residue : U32
  deriving DecidableEq, Repr

def DmaResult.clean (r : DmaResult) : Bool := r.result = .noError && r.residue == 0

/-- The evidence registers as one critical section reads them. `status` is the last word of the
completion poll that comes before. -/
structure Evidence where
  status : U32
  completedFrames : U32
  currentFrameId : U32
  currentSampleIndex : U32
  stallCycles : U32
  triggerShotId : U32
  triggerCount : U32
  missedTriggerCount : U32
  triggerTime : U64
  firstSampleTime : U64
  capturedConfigId : U64
  deriving DecidableEq, Repr

def has (status mask : U32) : Bool := status &&& mask != 0

/-- The condition of `qcrate_wait_idle`. -/
def idle (status : U32) : Bool := !has status (statusBusy ||| statusCommandBusy)

/-- The condition of `qcrate_wait_armed`. -/
def armed (status : U32) : Bool := has status statusArmed && !has status statusCommandBusy

/-- The condition of `qcrate_wait_complete`. -/
def complete (status : U32) : Bool := idle status && has status (statusDone ||| statusError)

/-- ABORT is written only to a stream that is not delivering. -/
def needsAbort (status : U32) : Bool := !has status (statusBusy ||| statusTriggerSeen)

def timestampFlags (status : U32) : U32 :=
  (if has status statusTriggerSeen then triggerSeenFlag else 0) |||
    (if has status statusFirstTimeValid then firstSampleTimeValidFlag else 0)

/-- `min_t(u32, residue, frame_bytes)` -/
def lastResidueBytes (r : DmaResult) (frameBytes : Nat) : U32 :=
  if r.residue.toNat ≤ frameBytes then r.residue else BitVec.ofNat 32 frameBytes

/-- The terms all three evidence checks share. -/
def framesDelivered (r : DmaResult) (frameBytes : Nat) (ev : Evidence)
    (frameLengthWords frameCount : U32) : Bool :=
  r.result = .noError && lastResidueBytes r frameBytes == 0 && has ev.status statusDone &&
    !has ev.status statusError && ev.completedFrames == frameCount &&
    ev.currentFrameId == frameCount - 1 && ev.currentSampleIndex == frameLengthWords - 1

/-- The terms about the trigger. -/
def triggeredOnce (ev : Evidence) : Bool :=
  timestampFlags ev.status &&& (triggerSeenFlag ||| firstSampleTimeValidFlag)
      == triggerSeenFlag ||| firstSampleTimeValidFlag &&
    ev.triggerCount == 1 && !BitVec.ult ev.firstSampleTime ev.triggerTime

/-! ## Requests -/

/-- What `qcrate_dma_probe` fixes for the life of the device. -/
structure Limits where
  bufferBytes : Nat
  maxTransferBytes : Nat
  hasSg : Bool
  deriving DecidableEq, Repr

def sizeTOverflows (bytes : Nat) : Bool := 2 ^ 64 ≤ bytes

/-- `qcrate_validate_capture`: the bytes of a frame and of the whole capture. -/
def validateCapture (L : Limits) (frameLengthWords frameCount streamMode : U32) :
    Except Errno (Nat × Nat) :=
  let frameBytes := frameLengthWords.toNat * streamWordBytes
  let totalBytes := frameBytes * frameCount.toNat
  if frameLengthWords = 0 ∨ frameCount = 0 then .error .einval
  else if 1 < streamMode then .error .einval
  else if maxChainFrames < frameCount then .error .e2big
  else if 1 < frameCount ∧ L.hasSg = false then .error .eopnotsupp
  else if sizeTOverflows frameBytes || sizeTOverflows totalBytes then .error .eoverflow
  else if L.maxTransferBytes < frameBytes ∨ L.bufferBytes < totalBytes then .error .emsgsize
  else .ok (frameBytes, totalBytes)

/-- `struct qcrate_dma_capture_frames`, and `struct qcrate_dma_capture` with one frame. -/
structure CaptureRequest where
  frameLengthWords : U32
  frameCount : U32
  streamMode : U32
  timeoutMs : U32
  deriving DecidableEq, Repr

/-- `struct qcrate_dma_triggered_arm` -/
structure TriggeredArm where
  frameLengthWords : U32
  frameCount : U32
  streamMode : U32
  deriving DecidableEq, Repr

/-- `struct qcrate_dma_pool_start` -/
structure PoolStart where
  frameLengthWords : U32
  frameCount : U32
  streamMode : U32
  bankCount : U32
  armTimeoutMs : U32
  flags : U32
  deriving DecidableEq, Repr

/-- `struct qcrate_dma_pool_release` -/
structure PoolRelease where
  bankIndex : U32
  bankGeneration : U32
  runId : U64
  bankSequence : U64
  deriving DecidableEq, Repr

/-- `struct qcrate_dma_pool_stop` -/
structure PoolStop where
  timeoutMs : U32
  flags : U32
  runId : U64
  deriving DecidableEq, Repr

/-- `struct qcrate_dma_pool_dequeue` -/
structure PoolDequeue where
  poolFlags : U32 := 0
  bankIndex : U32 := 0
  bankGeneration : U32 := 0
  offsetBytes : Nat := 0
  validBytes : Nat := 0
  frameLengthWords : U32 := 0
  frameCount : U32 := 0
  streamMode : U32 := 0
  dmaResult : U32 := 0
  lastResidueBytes : U32 := 0
  timestampFlags : U32 := 0
  evidence : Option Evidence := none
  runId : U64 := 0
  bankSequence : U64 := 0
  completionMonoNs : U64 := 0
  deriving DecidableEq, Repr

/-! ## The bank pool -/

/-- `enum qcrate_pool_bank_state` -/
inductive BankState where
  | free | filling | ready | userOwned
  deriving DecidableEq, Repr

/-- `struct qcrate_pool_bank` without its state, which the pool keeps in a table of its own. -/
structure Bank where
  generation : U32 := 0
  sequence : U64 := 0
  result : PoolDequeue := {}
  deriving DecidableEq, Repr

/-- The `pool_*` fields. The two tables are indexed below `bankCount`. -/
structure Pool where
  configured : Bool
  running : Bool
  stopping : Bool
  faulted : Bool
  starved : Bool
  dmaActive : Bool
  dmaCompletionNs : U64
  frameLengthWords : U32
  frameCount : U32
  streamMode : U32
  armTimeoutMs : U32
  bankCount : Nat
  bankBytes : Nat
  frameBytes : Nat
  fillingBank : Nat
  readyBanks : U32
  userBanks : U32
  freeBanks : U32
  queueHighWater : U32
  lastDiscardedReady : U32
  lastError : U32
  lastTriggerShotId : U32
  runId : U64
  nextRunId : U64
  nextSequence : U64
  producedBanks : U64
  dequeuedBanks : U64
  consumedBanks : U64
  starvationEvents : U64
  skippedTriggers : U64
  errorEvents : U64
  producedBytes : U64
  state : Nat → BankState
  bank : Nat → Bank

/-- The pool of a zeroed device, with the two fields probe sets. -/
def Pool.init : Pool :=
  { configured := false, running := false, stopping := false, faulted := false, starved := false
    dmaActive := false, dmaCompletionNs := 0, frameLengthWords := 0, frameCount := 0
    streamMode := 0, armTimeoutMs := 0, bankCount := 0, bankBytes := 0, frameBytes := 0
    fillingBank := bankNone, readyBanks := 0, userBanks := 0, freeBanks := 0
    queueHighWater := 0, lastDiscardedReady := 0, lastError := 0, lastTriggerShotId := 0
    runId := 0, nextRunId := 1, nextSequence := 0, producedBanks := 0, dequeuedBanks := 0
    consumedBanks := 0, starvationEvents := 0, skippedTriggers := 0, errorEvents := 0
    producedBytes := 0, state := fun _ => .free, bank := fun _ => {} }

/-- The number of banks in a state. -/
def Pool.count (p : Pool) (k : BankState) : Nat := tally p.bankCount p.state k

end QCrate.Dma
