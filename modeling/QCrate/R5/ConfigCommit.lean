import QCrate.R5.RuntimeConfig

/-!
# CONFIG_COMMIT

`qcrate_handle_config_commit` of the R5 service and the functions it calls. The service reaches
the PL through 32-bit register reads and writes, so the handler is generic in a `Bus`: any state
with a read and a write. Every write is also appended to a log, which is how a statement says
that a request touched no register.
-/

namespace QCrate.R5

/-! ## Registers and messages -/

def seqStatus : Word := 0x2004
def streamFrameLength : Word := 0x1004
def streamFrameCount : Word := 0x1008
def streamMode : Word := 0x100C
def streamStatus : Word := 0x1010
def streamModeDsp : Word := 1
def dspCommand : Word := 0x3000
def dspStatus : Word := 0x3004
def dspRejectReason : Word := 0x3008
def dspActiveGeneration : Word := 0x300C
def dspShadowBase : Word := 0x3010
def dspActiveBase : Word := 0x3040

def seqHwIdle : Word := 0x001
def seqHwFaulted : Word := 0x010
def seqHwCommandBusy : Word := 0x100
def seqHwMemoryLocked : Word := 0x200

def streamHwBusy : Word := 0x001
def streamHwArmed : Word := 0x008
def streamHwCommandBusy : Word := 0x100

def dspCommandCommit : Word := 1
def dspCommandDiscard : Word := 2
def dspStatusDirty : Word := 1
def dspStatusBusy : Word := 2
def dspStatusValid : Word := 4
def dspStatusRejected : Word := 8

def configFlagStaged : Word := 1
def configFlagValidated : Word := 2

/-- The `QCRATE_STATUS_*` values. -/
inductive Status where
  | ok | badMagic | badAbi | badLength | badCommand | badDeviceId | scratchVerify | badState
  | badIndex | badSequence | sequenceCrc | sequenceVerify | hardwareFault | timeout | badConfig
  | configVerify | configRejected
  deriving DecidableEq, Repr

/-- `struct qcrate_rpmsg_message` -/
structure Message where
  magic : Word
  abiVersion : BitVec 16
  command : BitVec 16
  transactionId : Word
  payloadWords : Word
  status : Status
  payload : Vector Word 11
  deriving DecidableEq, Repr

/-- `payload[k]` -/
def Message.word (m : Message) (k : Fin 11) : Word := m.payload.get k

/-- `payload[k] = value` -/
def Message.setWord (m : Message) (k : Fin 11) (value : Word) : Message :=
  { m with payload := m.payload.set k value }

@[simp] theorem Message.setWord_status (m : Message) (k : Fin 11) (value : Word) :
    (m.setWord k value).status = m.status := rfl

theorem Message.word_setWord (m : Message) (k : Fin 11) (value : Word) :
    (m.setWord k value).word k = value :=
  Vector.getElem_set_self k.isLt

/-- Word 10 of a status payload: the reason. -/
def Message.reason (m : Message) : Word := m.word 10

def rpmsgMagic : Word := 0x51524350
def rpmsgAbiVersion : BitVec 16 := 3
def rpmsgPayloadWords : Nat := 11

/-- `qcrate_response_init` -/
def responseInit (request : Message) : Message :=
  { magic := rpmsgMagic, abiVersion := rpmsgAbiVersion, command := request.command
    transactionId := request.transactionId, payloadWords := 0, status := .ok
    payload := Vector.replicate 11 0 }

/-- `struct qcrate_sequence_load_state` -/
structure SequenceLoadState where
  active : Bool
  committed : Bool
  expectedEvents : Word
  nextEvent : Word
  expectedCrc32 : Word
  crc32State : Word
  previousTimestamp : BitVec 64
  previousState : Word
  deriving DecidableEq, Repr

/-- `struct qcrate_config_state` -/
structure ConfigState where
  staged : Bool
  validated : Bool
  reason : ConfigReason
  words : ConfigWords
  deriving DecidableEq, Repr

/-- The register window. `pollsLeft` is how many more status polls fit before the tick counter
passes the commit timeout, once a first poll has been made. -/
structure Bus (σ : Type) where
  read : Word → σ → Word × σ
  write : Word → Word → σ → σ
  pollsLeft : σ → Nat

/-- The state a request handler works on, with the log of its register writes. -/
structure Service (σ : Type) where
  bus : σ
  sequenceLoad : SequenceLoadState
  config : ConfigState
  writes : List (Word × Word)

variable {σ : Type} (B : Bus σ)

/-- `qcrate_reg_read` -/
def regRead (offset : Word) : StateM (Service σ) Word := fun s =>
  ((B.read offset s.bus).1, { s with bus := (B.read offset s.bus).2 })

/-- `qcrate_reg_write` -/
def regWrite (offset value : Word) : StateM (Service σ) Unit := fun s =>
  ((), { s with bus := B.write offset value s.bus, writes := s.writes ++ [(offset, value)] })

def setReason (reason : ConfigReason) : StateM (Service σ) Unit :=
  modify fun s => { s with config := { s.config with reason := reason } }

/-! ## Status payload -/

/-- The generation bracket of `qcrate_config_status_payload`: at most `n` attempts. -/
def readActive : Nat → Message → Word → StateM (Service σ) (Message × Word)
  | 0, response, generation => pure (response, generation)
  | n + 1, response, _ => do
    let before ← regRead B dspActiveGeneration
    let idLow ← regRead B dspActiveBase
    let idHigh ← regRead B (dspActiveBase + 4)
    let signal ← regRead B (dspActiveBase + 8)
    let lo ← regRead B (dspActiveBase + 28)
    let after ← regRead B dspActiveGeneration
    let response :=
      (((response.setWord 4 idLow).setWord 5 idHigh).setWord 6 signal).setWord 7 lo
    if before = after then pure (response, after) else readActive n response after

/-- `qcrate_config_status_payload` -/
def configStatusPayload (response : Message) : StateM (Service σ) Message := do
  let s ← get
  let flags := (if s.config.staged then configFlagStaged else 0) |||
    (if s.config.validated then configFlagValidated else 0)
  let (response, generation) ← readActive B 3 response 0
  let status ← regRead B dspStatus
  let reject ← regRead B dspRejectReason
  let length ← regRead B streamFrameLength
  let count ← regRead B streamFrameCount
  let response : Message := (((((response.setWord 0 flags).setWord 1 status).setWord 2
    reject).setWord 3 generation).setWord 8 length).setWord 9 count
  pure ({ response with payloadWords := 11 }.setWord 10 s.config.reason.code)

/-- `qcrate_config_error` -/
def configError (response : Message) (status : Status) (reason : ConfigReason) :
    StateM (Service σ) Message := do
  setReason reason
  configStatusPayload B { response with status := status }

/-! ## Commit -/

inductive CommitWait where
  | committed | rejected | timedOut
  deriving DecidableEq, Repr

/-- One poll of the commit loop; `none` when the loop has to go on. -/
def pollCommit (generationBefore : Word) : StateM (Service σ) (Option CommitWait) := do
  let status ← regRead B dspStatus
  if status &&& dspStatusRejected ≠ 0 then pure (some .rejected)
  else if status &&& dspStatusBusy = 0 then do
    let generation ← regRead B dspActiveGeneration
    pure (if generation = generationBefore + 1 then some .committed else none)
  else pure none

/-- `qcrate_config_wait_for_commit`, with `n` polls left after this one. -/
def waitForCommit (generationBefore : Word) : Nat → StateM (Service σ) CommitWait
  | 0 => do
    let outcome ← pollCommit B generationBefore
    pure (outcome.getD .timedOut)
  | n + 1 => do
    let outcome ← pollCommit B generationBefore
    match outcome with
    | some outcome => pure outcome
    | none => waitForCommit generationBefore n

/-- Write consecutive words from `offset` on. -/
def regWriteWords : Word → List Word → StateM (Service σ) Unit
  | _, [] => pure ()
  | offset, w :: ws => do
    regWrite B offset w
    regWriteWords (offset + 4) ws

/-- Read consecutive words back and stop at the first one that differs. -/
def regWordsMatch : Word → List Word → StateM (Service σ) Bool
  | _, [] => pure true
  | offset, w :: ws => do
    let value ← regRead B offset
    if value = w then regWordsMatch (offset + 4) ws else pure false

/-- Read registers back and stop at the first one that differs. -/
def regsMatch : List (Word × Word) → StateM (Service σ) Bool
  | [] => pure true
  | (offset, w) :: rest => do
    let value ← regRead B offset
    if value = w then regsMatch rest else pure false

/-- `qcrate_config_restore_stream` -/
def configRestoreStream (length count mode : Word) : StateM (Service σ) Unit := do
  regWrite B streamFrameLength length
  regWrite B streamFrameCount count
  regWrite B streamMode mode

/-- The words that go to the DSP shadow page: the loops `index < 9`. -/
def dspWords (words : ConfigWords) : List Word := words.toList.take 9

/-- After the PL accepted the commit: the active page must hold the configuration. -/
def verifyActive (words : ConfigWords) (response : Message) : StateM (Service σ) Message := do
  let active ← regWordsMatch B dspActiveBase (dspWords words)
  if !active then configError B response .configVerify .activeVerify
  else do
    let status ← regRead B dspStatus
    if status &&& (dspStatusDirty ||| dspStatusBusy ||| dspStatusValid ||| dspStatusRejected)
        ≠ dspStatusValid then
      configError B response .configVerify .activeVerify
    else do
      setReason .none
      configStatusPayload B response

/-- Fill the shadow page, commit it and wait. -/
def commitDsp (words : ConfigWords) (length count mode : Word) (response : Message) :
    StateM (Service σ) Message := do
  regWrite B dspCommand dspCommandDiscard
  regWriteWords B dspShadowBase (dspWords words)
  let shadow ← regWordsMatch B dspShadowBase (dspWords words)
  if !shadow then do
    regWrite B dspCommand dspCommandDiscard
    configRestoreStream B length count mode
    configError B response .configVerify .shadowVerify
  else do
    let generationBefore ← regRead B dspActiveGeneration
    regWrite B dspCommand dspCommandCommit
    let s ← get
    let outcome ← waitForCommit B generationBefore (B.pollsLeft s.bus)
    match outcome with
    | .rejected => do
      regWrite B dspCommand dspCommandDiscard
      configRestoreStream B length count mode
      configError B response .configRejected .plRejected
    | .timedOut => configError B response .timeout .commitTimeout
    | .committed => verifyActive B words response

/-- Program the stream page, then the DSP page. -/
def commitStream (words : ConfigWords) (response : Message) : StateM (Service σ) Message := do
  let length ← regRead B streamFrameLength
  let count ← regRead B streamFrameCount
  let mode ← regRead B streamMode
  regWrite B streamFrameLength (words.get configFrameLengthWord)
  regWrite B streamFrameCount (words.get configFrameCountWord)
  regWrite B streamMode streamModeDsp
  let stream ← regsMatch B [(streamFrameLength, words.get configFrameLengthWord),
    (streamFrameCount, words.get configFrameCountWord), (streamMode, streamModeDsp)]
  if !stream then do
    configRestoreStream B length count mode
    configError B response .configVerify .shadowVerify
  else commitDsp B words length count mode response

/-- The gates on the stream and on a DSP commit still in flight. -/
def commitStreamGate (words : ConfigWords) (response : Message) :
    StateM (Service σ) Message := do
  let stream ← regRead B streamStatus
  if stream &&& (streamHwBusy ||| streamHwArmed ||| streamHwCommandBusy) ≠ 0 then
    configError B response .badState .streamState
  else do
    let dsp ← regRead B dspStatus
    if dsp &&& dspStatusBusy ≠ 0 then configError B response .badState .plRejected
    else commitStream B words response

/-- The gate on the sequencer comes first. -/
def commitGates (words : ConfigWords) (response : Message) : StateM (Service σ) Message := do
  let sequenceStatus ← regRead B seqStatus
  let s ← get
  if s.sequenceLoad.active ∨ sequenceStatus &&&
      (seqHwIdle ||| seqHwCommandBusy ||| seqHwMemoryLocked ||| seqHwFaulted) ≠ seqHwIdle then
    configError B response .badState .sequenceState
  else commitStreamGate B words response

/-- `qcrate_handle_config_commit` -/
def handleConfigCommit (request response : Message) : StateM (Service σ) Message := do
  if request.payloadWords ≠ 0 then pure { response with status := .badLength }
  else do
    let s ← get
    if !s.config.staged || !s.config.validated then
      configError B response .badState .notStaged
    else do
      let reason := validateRuntimeConfig s.config.words
      setReason reason
      if reason ≠ .none then do
        modify fun s => { s with config := { s.config with validated := false } }
        configError B response .badConfig reason
      else commitGates B s.config.words response

end QCrate.R5
