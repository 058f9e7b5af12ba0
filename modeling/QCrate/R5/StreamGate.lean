import QCrate.R5.ConfigCommit
import QCrate.Stream.Regs

/-!
# The stream gate of CONFIG_COMMIT and the hardware status word

CONFIG_COMMIT refuses to touch the PL while the stream is in use. The firmware decides this with
hand-written masks over the word that the RTL composes, so the gate means something only
together with `statusWord`.

* `gate_mask` — what the mask tests: BUSY, COMMAND_BUSY and bit 3, which is the stall flag.
* `commit_refused_iff` — when the handler answers with the stream-state reason.
* `streamGate_iff` — when that is the refusal the masks are named after.
-/

namespace QCrate.R5

open QCrate.Stream

variable {σ : Type} {B : Bus σ}

/-! ## Reads leave the service alone -/

/-- A computation that writes no register and changes neither the configuration nor the load. -/
def Quiet {α : Type} (m : StateM (Service σ) α) : Prop :=
  ∀ s, (m s).2.writes = s.writes ∧ (m s).2.config = s.config ∧
    (m s).2.sequenceLoad = s.sequenceLoad

theorem quiet_pure {α : Type} (a : α) : Quiet (σ := σ) (pure a) := fun _ => ⟨rfl, rfl, rfl⟩

theorem quiet_regRead (offset : Word) : Quiet (regRead B offset) := fun _ => ⟨rfl, rfl, rfl⟩

/-- Computations without writes are put together. -/
theorem quiet_bind {α β : Type} {m : StateM (Service σ) α} {f : α → StateM (Service σ) β}
    (hm : Quiet m) (hf : ∀ a, Quiet (f a)) : Quiet (m >>= f) := by
  intro s
  obtain ⟨h1, h2, h3⟩ := hm s
  obtain ⟨k1, k2, k3⟩ := hf (m s).1 (m s).2
  exact ⟨k1.trans h1, k2.trans h2, k3.trans h3⟩

/-- The bracket only reads. -/
theorem quiet_readActive : ∀ (n : Nat) (response : Message) (generation : Word),
    Quiet (readActive B n response generation)
  | 0, _, _ => quiet_pure _
  | n + 1, response, _ => by
    unfold readActive
    refine quiet_bind (quiet_regRead _) fun before => quiet_bind (quiet_regRead _) fun _ =>
      quiet_bind (quiet_regRead _) fun _ => quiet_bind (quiet_regRead _) fun _ =>
      quiet_bind (quiet_regRead _) fun _ => quiet_bind (quiet_regRead _) fun after => ?_
    dsimp only
    split
    · exact quiet_pure _
    · exact quiet_readActive n _ _

theorem quiet_configStatusPayload (response : Message) :
    Quiet (configStatusPayload B response) := by
  unfold configStatusPayload
  refine quiet_bind (fun _ => ⟨rfl, rfl, rfl⟩) fun s => quiet_bind (quiet_readActive _ _ _)
    fun r => quiet_bind (quiet_regRead _) fun _ => quiet_bind (quiet_regRead _) fun _ =>
    quiet_bind (quiet_regRead _) fun _ => quiet_bind (quiet_regRead _) fun _ => quiet_pure _

/-! ## The reason a client sees -/

/-- And keeps the status. -/
theorem readActive_status : ∀ (n : Nat) (response : Message) (generation : Word) (s : Service σ),
    ((readActive B n response generation) s).1.1.status = response.status
  | 0, _, _, _ => rfl
  | n + 1, response, _, s => by
    simp only [readActive, bind, StateT.bind, regRead]
    split
    · rfl
    · rw [readActive_status n]
      simp only [Message.setWord_status]

theorem run_bind {α β : Type} (m : StateM (Service σ) α) (f : α → StateM (Service σ) β)
    (s : Service σ) : (m >>= f) s = f (m s).1 (m s).2 := rfl

theorem run_pure {α : Type} (a : α) (s : Service σ) :
    (pure a : StateM (Service σ) α) s = (a, s) := rfl

/-- A status payload carries the reason that is noted. -/
theorem configStatusPayload_response (response : Message) (s : Service σ) :
    (configStatusPayload B response s).1.status = response.status ∧
      (configStatusPayload B response s).1.reason = s.config.reason.code := by
  have hactive := readActive_status (B := B) 3 response 0 s
  simp only [configStatusPayload, run_bind, run_pure, Message.setWord_status, Message.reason,
    Message.word_setWord]
  exact ⟨hactive, rfl⟩

/-- An error answers with its status and reason, and writes nothing. -/
theorem configError_response (response : Message) (status : Status) (reason : ConfigReason)
    (s : Service σ) :
    (configError B response status reason s).1.status = status ∧
      (configError B response status reason s).1.reason = reason.code ∧
      (configError B response status reason s).2.writes = s.writes := by
  obtain ⟨h1, h2⟩ := configStatusPayload_response (B := B) { response with status := status }
    { s with config := { s.config with reason := reason } }
  exact ⟨h1, h2, (quiet_configStatusPayload (B := B) { response with status := status }
    { s with config := { s.config with reason := reason } }).1⟩

/-- The answer carries the stream-state reason. -/
def Blames (reason : ConfigReason) (m : StateM (Service σ) Message) (s : Service σ) : Prop :=
  (m s).1.reason = reason.code

/-- A computation that ends without blaming the stream, whatever state it starts in. -/
def ClearsStream (m : StateM (Service σ) Message) : Prop := ∀ s, ¬ Blames .streamState m s

/-- Only the end of a computation answers. -/
theorem clearsStream_bind {α : Type} {m : StateM (Service σ) α}
    {f : α → StateM (Service σ) Message} (hf : ∀ a, ClearsStream (f a)) :
    ClearsStream (m >>= f) :=
  fun s => hf (m s).1 (m s).2

/-- Another reason is not this one. -/
theorem clearsStream_configError {response : Message} {status : Status} {reason : ConfigReason}
    (h : reason ≠ .streamState) : ClearsStream (configError B response status reason) := by
  intro s hb
  rw [Blames, (configError_response response status reason s).2.1, ConfigReason.code_inj] at hb
  exact h hb

/-- The accepting path clears the reason before it answers. -/
theorem clearsStream_accept (response : Message) :
    ClearsStream (setReason .none >>= fun _ => configStatusPayload B response) := by
  intro s hb
  have h := (configStatusPayload_response (B := B) response
    { s with config := { s.config with reason := .none } }).2
  have hb' : ConfigReason.none.code = ConfigReason.streamState.code := h.symm.trans hb
  exact absurd (ConfigReason.code_inj.mp hb') (by decide)

theorem clearsStream_verifyActive (words : ConfigWords) (response : Message) :
    ClearsStream (verifyActive B words response) := by
  unfold verifyActive
  refine clearsStream_bind fun active => ?_
  split
  · exact clearsStream_configError (by decide)
  · refine clearsStream_bind fun status => ?_
    split
    · exact clearsStream_configError (by decide)
    · exact clearsStream_accept response

/-- Behind the gates no answer blames the stream. -/
theorem clearsStream_commitDsp (words : ConfigWords) (length count mode : Word)
    (response : Message) : ClearsStream (commitDsp B words length count mode response) := by
  unfold commitDsp
  refine clearsStream_bind fun _ => clearsStream_bind fun _ => clearsStream_bind fun shadow => ?_
  split
  · exact clearsStream_bind fun _ => clearsStream_bind fun _ =>
      clearsStream_configError (by decide)
  · refine clearsStream_bind fun _ => clearsStream_bind fun _ => clearsStream_bind fun _ =>
      clearsStream_bind fun outcome => ?_
    cases outcome with
    | rejected => exact clearsStream_bind fun _ => clearsStream_bind fun _ =>
        clearsStream_configError (by decide)
    | timedOut => exact clearsStream_configError (by decide)
    | committed => exact clearsStream_verifyActive words response

theorem clearsStream_commitStream (words : ConfigWords) (response : Message) :
    ClearsStream (commitStream B words response) := by
  unfold commitStream
  refine clearsStream_bind fun _ => clearsStream_bind fun _ => clearsStream_bind fun _ =>
    clearsStream_bind fun _ => clearsStream_bind fun _ => clearsStream_bind fun _ =>
    clearsStream_bind fun _ => ?_
  split
  · exact clearsStream_bind fun _ => clearsStream_configError (by decide)
  · exact clearsStream_commitDsp words _ _ _ response

/-! ## The gate -/

/-- The mask the firmware applies to STATUS. -/
def streamGate (status : Word) : Bool :=
  status &&& (streamHwBusy ||| streamHwArmed ||| streamHwCommandBusy) != 0

/-- The mask sees busy, the stall flag and the command under way. -/
theorem gate_packStatus : ∀ commandBusy valid seen armed stalled irq1 irq0 busy : Bool,
    streamGate (packStatus commandBusy valid seen armed stalled irq1 irq0 busy)
      = (busy || stalled || commandBusy) := by
  decide

/-- The bit the firmware calls ARMED is the stall flag of the status word. -/
theorem gate_mask (p : Snapshot) (commandBusy : Bool) (irqStatus : Word) :
    streamGate (statusWord p commandBusy irqStatus)
      = (p.busy || p.stallCycles != 0 || commandBusy) :=
  gate_packStatus ..

/-- The sequencer gate lets the request through. -/
def SequencerIdle (B : Bus σ) (s : Service σ) : Prop :=
  s.sequenceLoad.active = false ∧
    (B.read seqStatus s.bus).1 &&&
      (seqHwIdle ||| seqHwCommandBusy ||| seqHwMemoryLocked ||| seqHwFaulted) = seqHwIdle

/-- What the gate reads from STATUS: the read right after the one of the sequencer status. -/
def observedStatus (B : Bus σ) (s : Service σ) : Word :=
  (B.read streamStatus (B.read seqStatus s.bus).2).1

/-- The request is refused for the state of the stream and no register has been written. -/
def RefusedForStream (B : Bus σ) (request : Message) (s : Service σ) : Prop :=
  let answer := handleConfigCommit B request (responseInit request) s
  answer.1.status = .badState ∧ answer.1.reason = ConfigReason.streamState.code ∧
    answer.2.writes = s.writes

/-- A request that reaches the stream gate. -/
structure CommitReady (B : Bus σ) (request : Message) (s : Service σ) : Prop where
  noPayload : request.payloadWords = 0
  staged : s.config.staged = true
  validated : s.config.validated = true
  valid : validateRuntimeConfig s.config.words = .none
  sequencer : SequencerIdle B s

/-- The service as it is when the gates are reached: only the reason has been rewritten. -/
def gateState (s : Service σ) : Service σ :=
  { s with config := { s.config with reason := .none } }

/-- A request in order reaches the gates. -/
theorem handleConfigCommit_gates {request response : Message} {s : Service σ}
    (h : CommitReady B request s) :
    handleConfigCommit B request response s
      = commitGates B s.config.words response (gateState s) := by
  simp [handleConfigCommit, h.noPayload, h.staged, h.validated, h.valid, bind, StateT.bind, get,
    getThe, MonadStateOf.get, StateT.get, pure, setReason, modify, modifyGet,
    MonadStateOf.modifyGet, StateT.modifyGet, gateState]

/-- An idle sequencer lets it through to the gate of the stream. -/
theorem commitGates_idle {words : ConfigWords} {response : Message} {s : Service σ}
    (h : SequencerIdle B s) :
    commitGates B words response s
      = commitStreamGate B words response { s with bus := (B.read seqStatus s.bus).2 } :=
  congrFun (if_neg (by simp [h.1, h.2])) _

/-- Past the mask every path ends with another reason. -/
theorem clearsStream_afterGate (words : ConfigWords) (response : Message) :
    ClearsStream (do
      let dsp ← regRead B dspStatus
      if dsp &&& dspStatusBusy ≠ 0 then configError B response .badState .plRejected
      else commitStream B words response) := by
  refine clearsStream_bind fun dsp => ?_
  split
  · exact clearsStream_configError (by decide)
  · exact clearsStream_commitStream words response

/-- The gate refuses for the stream. -/
theorem commitStreamGate_hit {words : ConfigWords} {response : Message} {s : Service σ}
    (h : streamGate (B.read streamStatus s.bus).1 = true) :
    commitStreamGate B words response s
      = configError B response .badState .streamState
          { s with bus := (B.read streamStatus s.bus).2 } :=
  congrFun (if_pos (by simpa [streamGate] using h)) _

/-- Past the gate no answer blames the stream. -/
theorem commitStreamGate_miss {words : ConfigWords} {response : Message} {s : Service σ}
    (h : streamGate (B.read streamStatus s.bus).1 = false) :
    ¬ Blames .streamState (commitStreamGate B words response) s := by
  have hgo : commitStreamGate B words response s
      = (do
          let dsp ← regRead B dspStatus
          if dsp &&& dspStatusBusy ≠ 0 then configError B response .badState .plRejected
          else commitStream B words response) { s with bus := (B.read streamStatus s.bus).2 } :=
    congrFun (if_neg (by simpa [streamGate] using h)) _
  intro hb
  rw [Blames, hgo] at hb
  exact clearsStream_afterGate words response _ hb

/-- The handler blames the stream exactly when the mask is hit, and then it wrote nothing. -/
theorem commit_refused_iff {request : Message} {s : Service σ} (h : CommitReady B request s) :
    RefusedForStream B request s ↔ streamGate (observedStatus B s) = true := by
  unfold RefusedForStream
  rw [handleConfigCommit_gates h, commitGates_idle (s := gateState s) h.sequencer]
  cases hg : streamGate (observedStatus B s) with
  | true =>
    refine ⟨fun _ => rfl, fun _ => ?_⟩
    rw [commitStreamGate_hit hg]
    exact configError_response ..
  | false => exact ⟨fun hr => absurd hr.2.1 (commitStreamGate_miss hg), fun hf => nomatch hf⟩

/-! ## The gate against the engine -/

/-- The gate agrees with the engine exactly when BUSY or COMMAND_BUSY already decide, or when
the engine is idle, not armed and its last capture never stalled. -/
theorem streamGate_iff {request : Message} {s : Service σ} {e : Engine} {commandBusy : Bool}
    {irqStatus : Word} (he : ReachableEngine e) (h : CommitReady B request s)
    (hobs : observedStatus B s = statusWord e.snapshot commandBusy irqStatus) :
    (RefusedForStream B request s ↔ e.busy = true ∨ e.armed = true ∨ commandBusy = true) ↔
      e.busy = true ∨ commandBusy = true ∨ (e.armed = false ∧ e.stallCycles = 0) := by
  have href : RefusedForStream B request s ↔
      e.busy = true ∨ e.stallCycles ≠ 0 ∨ commandBusy = true := by
    rw [commit_refused_iff h, hobs, gate_mask]
    simp [Engine.snapshot, or_assoc]
  rw [href]
  obtain ⟨-, hstall⟩ := he.armedQuiet
  cases ha : e.armed with
  | false => by_cases hb : e.busy = true <;> by_cases hc : commandBusy = true <;> simp [hb, hc]
  | true => by_cases hb : e.busy = true <;> by_cases hc : commandBusy = true <;>
      simp [hb, hc, hstall ha]

/-- A register window in which STATUS holds a given word and the sequencer is idle. -/
def fixedBus (status : Word) : Bus Unit where
  read offset _ :=
    (if offset = streamStatus then status else if offset = seqStatus then seqHwIdle else 0, ())
  write _ _ _ := ()
  pollsLeft _ := 0

/-- A service that has staged and validated a small configuration. -/
def validatedService : Service Unit where
  bus := ()
  sequenceLoad := ⟨false, true, 0, 0, 0, 0, 0, 0⟩
  config := ⟨true, true, .none, #v[1, 0, 0, 0, 1, 1, 1, 0, 0, 1, 1]⟩
  writes := []

def commitRequest : Message :=
  ⟨0x51524350, 3, 15, 1, 0, .ok, Vector.replicate 11 0⟩

theorem commitReady_fixedBus (status : Word) :
    CommitReady (fixedBus status) commitRequest validatedService :=
  ⟨rfl, rfl, rfl, by decide, rfl, show seqHwIdle &&& _ = seqHwIdle by decide⟩

/-- START or ARM_TRIGGERED for one frame of one sample. -/
def launch (start armTriggered : Bool) : EngineIn :=
  ⟨true, start, armTriggered, false, false, false, 0, 0, 1, 1, 1, 0, false, false, false⟩

theorem reachable_launch (start armTriggered : Bool) :
    ReachableEngine (Engine.reset.tick (launch start armTriggered)) :=
  ⟨[launch start armTriggered], rfl⟩

/-- `streamGate_iff` on a running engine: the request is refused. -/
theorem running_refused :
    RefusedForStream
      (fixedBus (statusWord (Engine.reset.tick (launch true false)).snapshot false 0))
      commitRequest validatedService :=
  ((streamGate_iff (reachable_launch true false) (commitReady_fixedBus _) rfl).mpr
    (by decide)).mpr (by decide)

/-- The status word of an armed engine. -/
def armedStatus : Word := statusWord (Engine.reset.tick (launch false true)).snapshot false 0

/-- An armed engine does not stop CONFIG_COMMIT: the frame length is the first thing written. -/
theorem armed_not_refused :
    ReachableEngine (Engine.reset.tick (launch false true)) ∧
      (Engine.reset.tick (launch false true)).armed = true ∧
      CommitReady (fixedBus armedStatus) commitRequest validatedService ∧
      ¬ RefusedForStream (fixedBus armedStatus) commitRequest validatedService ∧
      (handleConfigCommit (fixedBus armedStatus) commitRequest (responseInit commitRequest)
        validatedService).2.writes.head? = some (streamFrameLength, 1) := by
  refine ⟨reachable_launch false true, by decide, commitReady_fixedBus _, fun h => ?_,
    by decide +kernel⟩
  exact absurd ((commit_refused_iff (commitReady_fixedBus _)).mp h) (by decide)

end QCrate.R5
