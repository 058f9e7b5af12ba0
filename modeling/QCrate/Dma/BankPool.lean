import QCrate.Dma.Capture

/-!
# The DMA driver: the bank pool

The sections of the pool worker and of the POOL ioctls. The changes of the pool itself are
functions on `Pool`; the functions on `Sys` around them say when they happen.
-/

namespace QCrate.Dma

open QCrate.Lib

/-! ## Changes of the pool -/

namespace Pool

/-- `qcrate_pool_find_free_locked` -/
def findFree (p : Pool) : Option Nat :=
  (List.range p.bankCount).find? fun i => p.state i = .free

/-- The loop of `qcrate_pool_find_ready_locked`: the oldest sequence so far and its bank. -/
def findReadyFrom (p : Pool) : List Nat → U64 → Option Nat → Option Nat
  | [], _, selected => selected
  | i :: rest, oldest, selected =>
    if p.state i = .ready ∧ (p.bank i).sequence < oldest then
      findReadyFrom p rest (p.bank i).sequence (some i)
    else findReadyFrom p rest oldest selected

/-- `qcrate_pool_find_ready_locked` -/
def findReady (p : Pool) : Option Nat :=
  p.findReadyFrom (List.range p.bankCount) (BitVec.allOnes 64) none

/-- `qcrate_pool_fault_locked` -/
def fault (p : Pool) (error : Errno) : Pool :=
  { p with
    running := false, faulted := true, starved := false, lastError := error.code
    errorEvents := p.errorEvents + 1 }

/-- `qcrate_pool_account_missed_locked` -/
def accountMissed (p : Pool) (missed : U32) : Pool :=
  { p with skippedTriggers := p.skippedTriggers + missed.setWidth 64 }

/-- A bank becomes the destination of a submitted transaction. -/
def fill (p : Pool) (index : Nat) : Pool :=
  { p with
    state := setCell p.state index .filling
    bank := setCell p.bank index
      { p.bank index with generation := (p.bank index).generation + 1 }
    freeBanks := p.freeBanks - 1, fillingBank := index, dmaActive := true }

/-- The filling bank goes back unused. -/
def abandon (p : Pool) : Pool :=
  { p with
    state := setCell p.state p.fillingBank .free
    freeBanks := p.freeBanks + 1, fillingBank := bankNone, dmaActive := false }

/-- The result `qcrate_pool_finalize_locked` has collected when it checks the evidence. -/
def collect (p : Pool) (r : DmaResult) (ev : Evidence) : PoolDequeue :=
  { bankIndex := BitVec.ofNat 32 p.fillingBank
    bankGeneration := (p.bank p.fillingBank).generation
    offsetBytes := p.fillingBank * p.bankBytes, validBytes := p.bankBytes
    frameLengthWords := p.frameLengthWords, frameCount := p.frameCount
    streamMode := p.streamMode, dmaResult := r.result.code
    lastResidueBytes := lastResidueBytes r p.frameBytes
    timestampFlags := timestampFlags ev.status, evidence := some ev }

/-- The filling bank is delivered with its token. -/
def deliver (p : Pool) (result : PoolDequeue) : Pool :=
  let token := { result with
    runId := p.runId, bankSequence := p.nextSequence, completionMonoNs := p.dmaCompletionNs }
  { p with
    state := setCell p.state p.fillingBank .ready
    bank := setCell p.bank p.fillingBank
      { p.bank p.fillingBank with sequence := p.nextSequence, result := token }
    dmaActive := false, fillingBank := bankNone
    nextSequence := p.nextSequence + 1
    readyBanks := p.readyBanks + 1
    producedBanks := p.producedBanks + 1
    producedBytes := p.producedBytes + BitVec.ofNat 64 p.bankBytes
    lastTriggerShotId := (result.evidence.map (·.triggerShotId)).getD 0
    queueHighWater :=
      if p.queueHighWater < p.readyBanks + 1 then p.readyBanks + 1 else p.queueHighWater }

/-- What a failed finalization leaves in the result of the bank it gives back. -/
def spoil (p : Pool) (result : PoolDequeue) : Pool :=
  { p with
    bank := setCell p.bank p.fillingBank { p.bank p.fillingBank with result := result } }

/-- `qcrate_pool_discard_ready_locked` -/
def discardReady (p : Pool) : Pool :=
  let discarded := BitVec.ofNat 32 (p.count .ready)
  { p with
    state := fun i => if i < p.bankCount ∧ p.state i = .ready then .free else p.state i
    readyBanks := p.readyBanks - discarded, freeBanks := p.freeBanks + discarded
    lastDiscardedReady := discarded }

/-- `qcrate_pool_flags_locked` -/
def flags (p : Pool) (status : U32) : U32 :=
  (if p.running then poolRunningFlag else 0) ||| (if p.starved then poolStarvedFlag else 0) |||
    (if p.faulted then poolFaultedFlag else 0) ||| (if p.stopping then poolStoppingFlag else 0) |||
    (if p.dmaActive && has status statusArmed then poolArmedFlag else 0)

/-- The pool as POOL_START configures it. -/
def start (p : Pool) (request : PoolStart) (armTimeoutMs : U32) (frameBytes bankBytes : Nat) :
    Pool :=
  { p with
    configured := true, running := true, stopping := false, faulted := false, starved := false
    dmaActive := false, frameLengthWords := request.frameLengthWords
    frameCount := request.frameCount, streamMode := request.streamMode
    armTimeoutMs := armTimeoutMs, bankCount := request.bankCount.toNat, frameBytes := frameBytes
    bankBytes := bankBytes, fillingBank := bankNone, readyBanks := 0, userBanks := 0
    freeBanks := request.bankCount, queueHighWater := 0, lastError := 0
    lastDiscardedReady := 0, lastTriggerShotId := 0, runId := p.nextRunId
    nextRunId := p.nextRunId + 1, nextSequence := 1, producedBanks := 0, dequeuedBanks := 0
    consumedBanks := 0, starvationEvents := 0, skippedTriggers := 0, errorEvents := 0
    producedBytes := 0
    state := fun i => if i < maxPoolBanks then .free else p.state i
    bank := fun i =>
      if i < maxPoolBanks then { p.bank i with sequence := 0, result := {} } else p.bank i }

/-- DEQUEUE grants a READY bank. -/
def grant (p : Pool) (index : Nat) : Pool :=
  { p with
    state := setCell p.state index .userOwned
    readyBanks := p.readyBanks - 1, userBanks := p.userBanks + 1
    dequeuedBanks := p.dequeuedBanks + 1 }

/-- RELEASE takes it back. -/
def takeBack (p : Pool) (index : Nat) : Pool :=
  { p with
    state := setCell p.state index .free
    userBanks := p.userBanks - 1, freeBanks := p.freeBanks + 1
    consumedBanks := p.consumedBanks + 1 }

end Pool

/-! ## Arm and drain -/

/-- What the hardware answers while a bank is armed. -/
structure ArmAnswer where
  missed : U32 := 0
  resetStatus : U32 := 0
  refusal : Option (U32 × Errno) := none
  deriving DecidableEq, Repr

/-- What the hardware answers to the second half of a drain. -/
structure DrainAnswer where
  status : U32
  missed : U32 := 0
  resetStatus : U32 := 0
  deriving DecidableEq, Repr

def faultPool (r : Option Errno) (s : Sys) : Sys :=
  match r with
  | none => s
  | some e => { s with pool := s.pool.fault e }

/-- What the callers of `qcrate_pool_arm_bank_locked` do with its status. -/
def armReturn (caller : ArmCaller) (r : Option Errno) (s : Sys) : Sys :=
  let s := (faultPool r s).unlock
  match caller with
  | .worker => { s with worker := none }
  | .start =>
    s.returns .poolStart r (if r = none then .started s.pool.bankBytes s.pool.runId else .nothing)

/-- `qcrate_pool_arm_bank_locked` up to the poll for ARMED. -/
def poolArmBankLocked (caller : ArmCaller) (index : Nat) (hw : ArmAnswer) (s : Sys) : Sys :=
  if s.pool.state index ≠ .free ∨ s.pool.dmaActive = true then armReturn caller (some .einval) s
  else
    let s := { s with pool := s.pool.accountMissed hw.missed }.write controlSoftReset
    if !idle hw.resetStatus then armReturn caller (some .etimedout) s
    else
      let range := ⟨index * s.pool.bankBytes, s.pool.bankBytes⟩
      let s := { s with
        poison := some range, result := ⟨.aborted, BitVec.ofNat 32 s.pool.frameBytes⟩ }.write 0
      match submitFrames hw.refusal s.pool.frameCount with
      | (some e, submitted) =>
        armReturn caller (some e) ((s.write controlSoftReset).terminate submitted)
      | (none, _) =>
        { s.write controlArmTriggered with
          pool := s.pool.fill index
          inflight := s.inflight ++ [⟨.pool, range⟩]
          lock := some (.poolArmPoll caller) }

/-- The end of the STOP section of the worker. -/
def stopEpilogue (r : Option Errno) (s : Sys) : Sys :=
  let pool := match r with
    | none => s.pool.discardReady
    | some e => s.pool.fault e
  { s.unlock with
    pool := { pool with stopping := false, starved := false }
    poolStopResult := r, poolStopDone := true, worker := none }

/-- What the callers of `qcrate_pool_drain_locked` do with its status. -/
def drainReturn (caller : DrainCaller) (r : Option Errno) (s : Sys) : Sys :=
  match caller with
  | .arm caller => armReturn caller (some .etimedout) s
  | .stop => stopEpilogue r s

/-- `qcrate_pool_drain_locked` up to its wait, or past it when the worker already holds
the event. -/
def poolDrainLocked (caller : DrainCaller) (dmaDone : Bool) (status : U32) (s : Sys) : Sys :=
  if !s.pool.dmaActive then drainReturn caller none s
  else
    let s := if needsAbort status then s.write controlAbort else s
    { s with lock := some (if dmaDone then .drainFinish caller false else .drainWait caller) }

/-- The wait of the drain ends: with DMA_DONE in sight, or without. -/
def drainWake (caller : DrainCaller) (s : Sys) : Sys :=
  if s.poolEvents.dmaDone then { s with lock := some (.drainFinish caller true) }
  else drainReturn caller (some .etimedout) s

/-- `qcrate_pool_drain_locked` after its wait. -/
def drainFinish (caller : DrainCaller) (seen : Bool) (hw : DrainAnswer) (s : Sys) : Sys :=
  let s := if seen then { s with poolEvents := { s.poolEvents with dmaDone := false } } else s
  if !complete hw.status then drainReturn caller (some .etimedout) s
  else if !s.result.clean then drainReturn caller (some .eio) s
  else
    let s := { s with pool := s.pool.accountMissed hw.missed }.write controlSoftReset
    if !idle hw.resetStatus then drainReturn caller (some .etimedout) s
    else drainReturn caller none { s with pool := s.pool.abandon }

/-- `qcrate_pool_arm_bank_locked` after the poll. -/
def poolArmPolled (caller : ArmCaller) (status drainStatus : U32) (s : Sys) : Sys :=
  if armed status then armReturn caller none { s with pool := { s.pool with starved := false } }
  else poolDrainLocked (.arm caller) false drainStatus s

/-! ## Worker -/

/-- What the hardware answers to a finalization. -/
structure FinalizeAnswer where
  evidence : Evidence
  missed : U32 := 0
  resetStatus : U32 := 0
  deriving DecidableEq, Repr

/-- `qcrate_pool_finalize_locked` -/
def poolFinalizeLocked (hw : FinalizeAnswer) (s : Sys) : Option Errno × Sys :=
  let ev := hw.evidence
  if s.pool.dmaActive = false ∨ s.pool.bankCount ≤ s.pool.fillingBank then (some .einval, s)
  else
    let failed := fun (e : Errno) (result : PoolDequeue) =>
      (some e, { s with
        pool := ((s.pool.spoil result).accountMissed hw.missed).abandon }.write controlSoftReset)
    if !complete ev.status then failed .etimedout {}
    else
      let result := s.pool.collect s.result ev
      if framesDelivered s.result s.pool.frameBytes ev s.pool.frameLengthWords s.pool.frameCount &&
          triggeredOnce ev then
        if idle hw.resetStatus then
          (none, { s with
            pool := (s.pool.accountMissed hw.missed).deliver result }.write controlSoftReset)
        else failed .etimedout result
      else failed .eio result

/-- The STOP section of the worker. -/
def workerStop (dmaDone : Bool) (status missed resetStatus : U32) (s : Sys) : Sys :=
  let s := { s with pool := { s.pool with running := false } }
  if s.pool.dmaActive then poolDrainLocked .stop dmaDone status s
  else if s.pool.configured then
    let s := { s with pool := s.pool.accountMissed missed }.write controlSoftReset
    stopEpilogue (if idle resetStatus then none else some .etimedout) s
  else stopEpilogue none s

/-- The section of the worker for DMA_DONE and KICK, up to the bank it may arm next. -/
def workerRun (dmaDone : Bool) (hw : FinalizeAnswer) (s : Sys) : Sys :=
  if dmaDone && s.pool.dmaActive then
    let (r, s) := poolFinalizeLocked hw s
    { faultPool r s with lock := some .workerArm }
  else { s with lock := some .workerArm }

/-- The rest of that section. -/
def workerArmNext (hw : ArmAnswer) (s : Sys) : Sys :=
  if s.pool.running && !s.pool.faulted && !s.pool.dmaActive then
    match s.pool.findFree with
    | some index => poolArmBankLocked .worker index hw s
    | none =>
      let pool := if s.pool.starved then s.pool else
        { s.pool with starved := true, starvationEvents := s.pool.starvationEvents + 1 }
      { s.unlock with pool := pool, worker := none }
  else { s.unlock with worker := none }

/-! ## POOL ioctls -/

/-- `qcrate_pool_start` up to the poll of its first bank. -/
def poolStart (L : Limits) (request : PoolStart) (resetStatus : U32) (hw : ArmAnswer) (s : Sys) :
    Sys :=
  let armTimeoutMs := timeoutOrDefault request.armTimeoutMs
  if request.flags ≠ poolStartTriggered then s.returns .poolStart (some .einval)
  else if !L.hasSg then s.returns .poolStart (some .eopnotsupp)
  else if request.bankCount.toNat < 2 ∨ maxPoolBanks < request.bankCount.toNat then
    s.returns .poolStart (some .einval)
  else if maxTimeoutMs < armTimeoutMs then s.returns .poolStart (some .einval)
  else
    match validateCapture L request.frameLengthWords request.frameCount request.streamMode with
    | .error e => s.returns .poolStart (some e)
    | .ok (frameBytes, bankBytes) =>
      let poolBytes := bankBytes * request.bankCount.toNat
      if sizeTOverflows poolBytes || L.bufferBytes < poolBytes then
        s.returns .poolStart (some .emsgsize)
      else if s.triggered.active || poolOwnsBufferLocked s.pool then
        s.returns .poolStart (some .ebusy)
      else
        let s := s.write controlSoftReset
        if !idle resetStatus then s.returns .poolStart (some .etimedout)
        else
          poolArmBankLocked .start 0 hw
            { s with pool := s.pool.start request armTimeoutMs frameBytes bankBytes }

/-- `qcrate_pool_dequeue`; its wait comes before the lock and changes nothing. -/
def poolDequeue (timeoutMs : U32) (outcome : WaitOutcome) (status : U32) (s : Sys) : Sys :=
  if maxTimeoutMs < timeoutMs then s.returns .poolDequeue (some .einval)
  else if timeoutMs ≠ 0 ∧ outcome = .interrupted then s.returns .poolDequeue (some .erestartsys)
  else if timeoutMs ≠ 0 ∧ outcome = .timedOut then s.returns .poolDequeue (some .etimedout)
  else
    match s.pool.findReady with
    | none =>
      s.returns .poolDequeue (some (
        if s.pool.faulted then .eio else if s.pool.running then .eagain else .eshutdown))
    | some index =>
      let token := { (s.pool.bank index).result with poolFlags := s.pool.flags status }
      { s with pool := s.pool.grant index }.returns .poolDequeue none (.dequeued token)

/-- `qcrate_pool_release_bank` up to its wait. -/
def poolReleaseBank (release : PoolRelease) (s : Sys) : Sys :=
  let index := release.bankIndex.toNat
  if s.pool.bankCount ≤ index ∨ release.runId ≠ s.pool.runId then
    s.returns .poolRelease (some .estale)
  else if s.pool.state index ≠ .userOwned ∨
      release.bankGeneration ≠ (s.pool.bank index).generation ∨
      release.bankSequence ≠ (s.pool.bank index).sequence then
    s.returns .poolRelease (some .estale)
  else
    let waitForArm := s.pool.running && !s.pool.dmaActive
    let s := { s with
      pool := s.pool.takeBack index, poolEvents := { s.poolEvents with kick := true } }
    if waitForArm then { s with threads := .releaseWait :: s.threads }
    else s.returns .poolRelease none

/-- The end of the wait of `qcrate_pool_release_bank`. -/
def poolReleaseWake (outcome : WaitOutcome) (s : Sys) : Sys :=
  let s := { s with threads := s.threads.erase .releaseWait }
  match outcome with
  | .interrupted => s.returns .poolRelease (some .erestartsys)
  | .timedOut => s.returns .poolRelease (some .etimedout)
  | .completed =>
    s.returns .poolRelease (
      if s.pool.faulted then some .eio else if s.pool.dmaActive then none else some .eshutdown)

/-- The section of `qcrate_pool_stop` that hands the work to the pool worker. -/
def poolStopRequest (runId : U64) (s : Sys) : Except Errno Sys :=
  if s.pool.configured = false ∨ (runId ≠ 0 ∧ runId ≠ s.pool.runId) then .error .estale
  else if s.pool.stopping then .error .ebusy
  else .ok { s with
    pool := { s.pool with running := false, stopping := true }
    poolStopResult := none, poolStopDone := false
    poolEvents := { s.poolEvents with stop := true } }

/-- `qcrate_pool_stop` up to its wait. -/
def poolStop (stop : PoolStop) (s : Sys) : Sys :=
  if stop.flags ≠ 0 ∨ maxTimeoutMs < timeoutOrDefault stop.timeoutMs then
    s.returns .poolStop (some .einval)
  else
    match poolStopRequest stop.runId s with
    | .error e => s.returns .poolStop (some e)
    | .ok s => { s with threads := .stopWait :: s.threads }

/-- The wait of `qcrate_pool_stop`. -/
def poolStopWake (outcome : WaitOutcome) (s : Sys) : Sys :=
  let s := { s with threads := s.threads.erase .stopWait }
  match outcome with
  | .interrupted => s.returns .poolStop (some .erestartsys)
  | .timedOut => s.returns .poolStop (some .etimedout)
  | .completed => { s with threads := .stopWoken :: s.threads }

/-- `qcrate_pool_stop` after it has taken the lock again. -/
def poolStopFinish (s : Sys) : Sys :=
  { s with threads := s.threads.erase .stopWoken }.returns .poolStop s.poolStopResult
    (.stopped s.pool.runId s.pool.lastDiscardedReady)

/-! ## Open and close -/

/-- The first section of `qcrate_dma_release`. -/
def closeFile (s : Sys) : Sys :=
  { s with file := if s.pool.configured then .closeStop s.pool.runId else .closeCancel }

/-- The call of `qcrate_pool_stop` in `qcrate_dma_release`. -/
def closeStop (runId : U64) (s : Sys) : Sys :=
  match poolStopRequest runId s with
  | .error _ => { s with file := .closeCancel }
  | .ok s => { s with file := .closeStopWait }

end QCrate.Dma
