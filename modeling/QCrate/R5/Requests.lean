import QCrate.R5.SequenceLoad

/-!
# The request dispatcher of the R5

The handlers of `qcrate_rpmsg_service.c` that are left, the `switch` of `qcrate_handle_request`
and the endpoint callback that counts what it answered.
-/

namespace QCrate.R5

/-! ## Registers and constants -/

def sysDeviceId : Word := 0x0000
def sysVersion : Word := 0x0004
def sysBuildId : Word := 0x0008
def sysCapabilities : Word := 0x000C
def sysScratch : Word := 0x0010
def sysStreamClockHz : Word := 0x0014
def sysControlClockHz : Word := 0x0018
def deviceIdValue : Word := 0x51435254

def seqControl : Word := 0x2000

def seqControlArm : Word := 0x001
def seqControlStart : Word := 0x002
def seqControlAbort : Word := 0x004
def seqControlReset : Word := 0x008
def seqControlExternal : Word := 0x100

def seqHwArmed : Word := 0x004
def seqHwBusy : Word := 0x008

def configStageWords : Word := 11

def cmdPing : BitVec 16 := 1
def cmdGetInfo : BitVec 16 := 2
def cmdScratchTest : BitVec 16 := 3
def cmdGetR5Stats : BitVec 16 := 4
def cmdSeqLoadBegin : BitVec 16 := 5
def cmdSeqLoadEvent : BitVec 16 := 6
def cmdSeqLoadCommit : BitVec 16 := 7
def cmdSeqGetStatus : BitVec 16 := 8
def cmdSeqArm : BitVec 16 := 9
def cmdSeqStart : BitVec 16 := 10
def cmdSeqAbort : BitVec 16 := 11
def cmdSeqReset : BitVec 16 := 12
def cmdConfigStage : BitVec 16 := 13
def cmdConfigValidate : BitVec 16 := 14
def cmdConfigCommit : BitVec 16 := 15
def cmdConfigGetStatus : BitVec 16 := 16
def cmdConfigRecover : BitVec 16 := 17

variable {σ : Type} (B : Bus σ)

/-! ## System page -/

/-- `qcrate_handle_ping` -/
def handlePing (request response : Message) : StateM (Service σ) Message :=
  if request.payloadWords ≠ 1 then pure { response with status := .badLength }
  else pure (response.withWords response.status [request.word 0])

/-- `qcrate_handle_get_info` -/
def handleGetInfo (request response : Message) : StateM (Service σ) Message := do
  if request.payloadWords ≠ 0 then pure { response with status := .badLength }
  else do
    let response ← readPayload B
      [(0, sysDeviceId), (1, sysVersion), (2, sysBuildId), (3, sysCapabilities),
        (4, sysStreamClockHz), (5, sysControlClockHz)]
      { response with payloadWords := 6 }
    pure (if response.word 0 ≠ deviceIdValue then { response with status := .badDeviceId }
      else response)

/-- `qcrate_handle_scratch_test` -/
def handleScratchTest (request response : Message) : StateM (Service σ) Message := do
  if request.payloadWords ≠ 1 then pure { response with status := .badLength }
  else do
    let original ← regRead B sysScratch
    regWrite B sysScratch (request.word 0)
    let readback ← regRead B sysScratch
    regWrite B sysScratch original
    let restored ← regRead B sysScratch
    let status := if readback ≠ request.word 0 ∨ restored ≠ original then .scratchVerify
      else response.status
    pure (response.withWords status [original, request.word 0, readback, original, restored])

/-- `qcrate_handle_get_r5_stats`, with what FreeRTOS reports. -/
def handleGetR5Stats (tickCount tickRateHz : Word) (request response : Message) :
    StateM (Service σ) Message :=
  if request.payloadWords ≠ 0 then pure { response with status := .badLength }
  else pure { response.withWords response.status [tickCount, tickRateHz] with payloadWords := 4 }

/-! ## Sequencer commands -/

inductive SequenceWait where
  | armed | started | idle
  deriving DecidableEq, Repr

inductive WaitStatus where
  | reached | faulted | timedOut
  deriving DecidableEq, Repr

/-- The condition of one poll, given the status. `started` also looks at the completed shots. -/
def waitReached (condition : SequenceWait) (completedBefore status : Word) :
    StateM (Service σ) Bool :=
  match condition with
  | .armed => pure (status &&& (seqHwArmed ||| seqHwCommandBusy) = seqHwArmed)
  | .started =>
    if status &&& seqHwBusy ≠ 0 then pure true
    else do
      let completed ← regRead B seqCompletedShots
      pure (completed ≠ completedBefore)
  | .idle =>
    pure (status &&& (seqHwIdle ||| seqHwCommandBusy ||| seqHwMemoryLocked) = seqHwIdle)

/-- One poll of the wait loop; `none` when the loop has to go on. -/
def pollSequence (condition : SequenceWait) (completedBefore : Word) :
    StateM (Service σ) (Option WaitStatus) := do
  let status ← regRead B seqStatus
  if status &&& seqHwFaulted ≠ 0 then pure (some .faulted)
  else do
    let reached ← waitReached B condition completedBefore status
    pure (if reached then some .reached else none)

/-- `qcrate_sequence_wait`, with `n` polls left after this one. -/
def sequenceWait (condition : SequenceWait) (completedBefore : Word) :
    Nat → StateM (Service σ) WaitStatus
  | 0 => do
    let outcome ← pollSequence B condition completedBefore
    pure (outcome.getD .timedOut)
  | n + 1 => do
    let outcome ← pollSequence B condition completedBefore
    match outcome with
    | some outcome => pure outcome
    | none => sequenceWait condition completedBefore n

/-- `qcrate_sequence_wait_response` -/
def sequenceWaitResponse (response : Message) (wait : WaitStatus) : StateM (Service σ) Message :=
  let status := match wait with
    | .faulted => .hardwareFault
    | .timedOut => .timeout
    | .reached => response.status
  sequenceStatusPayload B { response with status := status }

/-- Write CONTROL and wait for what the command leads to. -/
def sequenceCommand (control : Word) (condition : SequenceWait) (completedBefore : Word)
    (response : Message) : StateM (Service σ) Message := do
  regWrite B seqControl control
  let s ← get
  let wait ← sequenceWait B condition completedBefore (B.pollsLeft s.bus)
  sequenceWaitResponse B response wait

/-- `qcrate_handle_seq_get_status` -/
def handleSeqGetStatus (request response : Message) : StateM (Service σ) Message :=
  if request.payloadWords ≠ 0 then pure { response with status := .badLength }
  else sequenceStatusPayload B response

/-- `qcrate_handle_seq_arm` -/
def handleSeqArm (request response : Message) : StateM (Service σ) Message := do
  if request.payloadWords ≠ 1 ∨ 1 < request.word 0 then
    pure { response with status := .badLength }
  else do
    let status ← regRead B seqStatus
    let s ← get
    if !s.sequenceLoad.committed ∨
        status &&& (seqHwIdle ||| seqHwCommandBusy ||| seqHwMemoryLocked ||| seqHwFaulted) ≠
          seqHwIdle then
      sequenceStatusError B response .badState
    else
      sequenceCommand B
        (seqControlArm ||| if request.word 0 ≠ 0 then seqControlExternal else 0)
        .armed 0 response

/-- `qcrate_handle_seq_start` -/
def handleSeqStart (request response : Message) : StateM (Service σ) Message := do
  if request.payloadWords ≠ 0 then pure { response with status := .badLength }
  else do
    let status ← regRead B seqStatus
    let s ← get
    if !s.sequenceLoad.committed ∨
        status &&& (seqHwArmed ||| seqHwCommandBusy ||| seqHwFaulted) ≠ seqHwArmed then
      sequenceStatusError B response .badState
    else do
      let completedBefore ← regRead B seqCompletedShots
      sequenceCommand B seqControlStart .started completedBefore response

/-- `qcrate_handle_seq_abort` -/
def handleSeqAbort (request response : Message) : StateM (Service σ) Message := do
  if request.payloadWords ≠ 0 then pure { response with status := .badLength }
  else do
    let status ← regRead B seqStatus
    if status &&& (seqHwIdle ||| seqHwFaulted) ≠ 0 then
      sequenceStatusError B response .badState
    else sequenceCommand B seqControlAbort .idle 0 response

/-- `qcrate_handle_seq_reset` -/
def handleSeqReset (request response : Message) : StateM (Service σ) Message := do
  if request.payloadWords ≠ 0 then pure { response with status := .badLength }
  else do
    modifyLoad fun load => { load with active := false }
    sequenceCommand B seqControlReset .idle 0 response

/-! ## Configuration -/

def modifyConfig (f : ConfigState → ConfigState) : StateM (Service σ) Unit :=
  modify fun s => { s with config := f s.config }

/-- `qcrate_handle_config_stage` -/
def handleConfigStage (request response : Message) : StateM (Service σ) Message := do
  if request.payloadWords ≠ configStageWords then pure { response with status := .badLength }
  else do
    modifyConfig fun _ =>
      { staged := true, validated := false, reason := .none, words := request.payload }
    configStatusPayload B response

/-- `qcrate_handle_config_validate` -/
def handleConfigValidate (request response : Message) : StateM (Service σ) Message := do
  if request.payloadWords ≠ 0 then pure { response with status := .badLength }
  else do
    let s ← get
    if !s.config.staged then configError B response .badState .notStaged
    else do
      let reason := validateRuntimeConfig s.config.words
      modifyConfig fun config => { config with validated := reason = .none, reason := reason }
      configStatusPayload B
        (if reason ≠ .none then { response with status := .badConfig } else response)

/-- `qcrate_handle_config_get_status` -/
def handleConfigGetStatus (request response : Message) : StateM (Service σ) Message :=
  if request.payloadWords ≠ 0 then pure { response with status := .badLength }
  else configStatusPayload B response

/-- The configuration state after `memset`. -/
def ConfigState.cleared : ConfigState := ⟨false, false, .none, Vector.replicate 11 0⟩

/-- `qcrate_handle_config_recover` -/
def handleConfigRecover (request response : Message) : StateM (Service σ) Message := do
  if request.payloadWords ≠ 0 then pure { response with status := .badLength }
  else do
    let status ← regRead B dspStatus
    if status &&& dspStatusBusy ≠ 0 then configError B response .badState .commitTimeout
    else do
      regWrite B dspCommand dspCommandDiscard
      modifyConfig fun _ => ConfigState.cleared
      configStatusPayload B response

/-! ## Dispatch -/

/-- A message from the endpoint: whether it has the size of a request, its bytes as a request, and
the tick count while it is handled. -/
structure Delivery where
  whole : Bool
  request : Message
  tickCount : Word
  deriving DecidableEq, Repr

/-- The `switch` of `qcrate_handle_request`. -/
def dispatch (tickRateHz : Word) (d : Delivery) (response : Message) :
    StateM (Service σ) Message :=
  let request := d.request
  if request.command = cmdPing then handlePing request response
  else if request.command = cmdGetInfo then handleGetInfo B request response
  else if request.command = cmdScratchTest then handleScratchTest B request response
  else if request.command = cmdGetR5Stats then
    handleGetR5Stats d.tickCount tickRateHz request response
  else if request.command = cmdSeqLoadBegin then handleSeqLoadBegin B request response
  else if request.command = cmdSeqLoadEvent then handleSeqLoadEvent B request response
  else if request.command = cmdSeqLoadCommit then handleSeqLoadCommit B request response
  else if request.command = cmdSeqGetStatus then handleSeqGetStatus B request response
  else if request.command = cmdSeqArm then handleSeqArm B request response
  else if request.command = cmdSeqStart then handleSeqStart B request response
  else if request.command = cmdSeqAbort then handleSeqAbort B request response
  else if request.command = cmdSeqReset then handleSeqReset B request response
  else if request.command = cmdConfigStage then handleConfigStage B request response
  else if request.command = cmdConfigValidate then handleConfigValidate B request response
  else if request.command = cmdConfigCommit then handleConfigCommit B request response
  else if request.command = cmdConfigGetStatus then handleConfigGetStatus B request response
  else if request.command = cmdConfigRecover then handleConfigRecover B request response
  else pure { response with status := .badCommand }

/-- `qcrate_handle_request` -/
def handleRequest (tickRateHz : Word) (d : Delivery) : StateM (Service σ) Message :=
  let response := responseInit d.request
  if d.request.magic ≠ rpmsgMagic then pure { response with status := .badMagic }
  else if d.request.abiVersion ≠ rpmsgAbiVersion then pure { response with status := .badAbi }
  else if rpmsgPayloadWords < d.request.payloadWords.toNat then
    pure { response with status := .badLength }
  else dispatch B tickRateHz d response

/-- The service with its two counters. -/
structure Endpoint (σ : Type) where
  service : Service σ
  acceptedRequests : Word
  rejectedRequests : Word

/-- Count an answer, and report the counters in the answer to GET_R5_STATS. -/
def Endpoint.count (e : Endpoint σ) (service : Service σ) (response : Message) :
    Message × Endpoint σ :=
  if response.status = .ok then
    let e := { e with service := service, acceptedRequests := e.acceptedRequests + 1 }
    if response.command = cmdGetR5Stats then
      ((response.setWord 2 e.acceptedRequests).setWord 3 e.rejectedRequests, e)
    else (response, e)
  else (response, { e with service := service, rejectedRequests := e.rejectedRequests + 1 })

/-- `qcrate_endpoint_cb` -/
def endpointCb (tickRateHz : Word) (d : Delivery) (e : Endpoint σ) : Message × Endpoint σ :=
  if d.whole then
    let (response, service) := handleRequest B tickRateHz d e.service
    e.count service response
  else e.count e.service { responseInit d.request with status := .badLength }

/-- The service when the endpoint is created: the statics are zero. -/
def Endpoint.init (bus : σ) : Endpoint σ :=
  { service :=
      { bus := bus
        sequenceLoad := ⟨false, false, 0, 0, 0, 0, 0, 0⟩
        config := ConfigState.cleared
        writes := [] }
    acceptedRequests := 0
    rejectedRequests := 0 }

/-- The endpoint after the messages of a list. -/
def Endpoint.after (tickRateHz : Word) (bus : σ) (deliveries : List Delivery) : Endpoint σ :=
  deliveries.foldl (fun e d => (endpointCb B tickRateHz d e).2) (Endpoint.init bus)

end QCrate.R5
