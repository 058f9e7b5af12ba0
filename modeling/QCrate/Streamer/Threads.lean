import QCrate.DataPlane.Framing
import QCrate.Lib.Machine

/-!
# The two threads of a sustained run

`acquisition_thread` and `sender_thread` of `qcrate_streamer.c` with the bounded queue between them.
A step is one call of a thread to the outside, or one of its passages through the lock of the
queue. What a call returns is an input of the step; a thread that waits has no step.

* `Context.profile` — the packetizer's configuration for a bank.
* `acquisitionStep`, `senderStep` — the threads; `machine` all their interleavings.
-/

namespace QCrate.Streamer

open QCrate.Lib QCrate.DataPlane

/-! ## What a run is given -/

structure Options where
  streamId : UInt32
  runId : UInt64
  shotId : UInt64
  words : UInt32
  frames : UInt32
  streamMode : UInt32
  bankCount : ℕ
  durationMode : Bool
  triggeredShots : ℕ

/-- The members of `struct sustained_context` that do not change once the pool has started. -/
structure Context where
  options : Options
  configId : UInt64
  centerFrequencyHz : Int64
  poolRunId : UInt64
  bufferBytes : ℕ

/-- `struct qcrate_dma_pool_dequeue`, as far as the streamer reads it. -/
structure Bank where
  runId : UInt64
  bankSequence : UInt64
  bankGeneration : UInt64
  bankIndex : ℕ
  offsetBytes : ℕ
  validBytes : ℕ
  dmaResult : Int32
  lastResidueBytes : UInt32
  completedFrames : UInt32
  frameLengthWords : UInt32
  frameCount : UInt32
  streamMode : UInt32
  capturedConfigId : UInt64
  triggerShotId : UInt32
  triggerCount : UInt32
  triggerSeen : Bool
  firstSampleTimeValid : Bool
  firstSampleTime : UInt64
  deriving DecidableEq, Repr

def streamModeDsp : UInt32 := 1
def dspSampleRateHz : UInt64 := 12500000
def dspTimebaseRateHz : UInt64 := 200000000
def counterSampleRateHz : UInt64 := 200000000
def counterTimebaseRateHz : UInt64 := 200000000
def counterConfigId : UInt64 := 1
def clockQcrateTimebase : UInt16 := 1

/-- `fill_profile` -/
def fillProfile (o : Options) (configId : UInt64) (centerFrequencyHz : Int64) : Config :=
  let dsp := o.streamMode = streamModeDsp
  { payloadFormat := UInt16.ofNat (if dsp then formatIqS16Le else formatCounterU32Le)
    sampleBytes := 4
    streamId := o.streamId
    runId := o.runId
    shotId := o.shotId
    initialSequence := 0
    frameSamples := o.words
    frameCount := o.frames
    sampleRateNumerator := if dsp then dspSampleRateHz else counterSampleRateHz
    sampleRateDenominator := 1
    timestampRateNumerator := if dsp then dspTimebaseRateHz else counterTimebaseRateHz
    timestampRateDenominator := 1
    centerFrequencyHz := if dsp then centerFrequencyHz else 0
    channelCount := if dsp then 2 else 1
    componentBits := if dsp then 16 else 32
    fractionBits := if dsp then 15 else 0
    timestampClockId := clockQcrateTimebase
    configId := if dsp then configId else counterConfigId
    firstSampleTimestamp := 0
    firstSampleTimestampValid := false
    endOfStream := false }

namespace Context

variable (c : Context)

/-- The profile of the shot in a bank. -/
def profile (b : Bank) (packetSequence : UInt64) : Config :=
  { fillProfile c.options c.configId c.centerFrequencyHz with
    runId := c.options.runId
    shotId := b.triggerShotId.toUInt64
    initialSequence := packetSequence
    firstSampleTimestamp := b.firstSampleTime
    firstSampleTimestampValid := true
    endOfStream := false }

/-- `validate_bank` -/
def validateBank (b : Bank) : Bool :=
  b.runId = c.poolRunId && b.bankIndex < c.options.bankCount &&
    b.offsetBytes ≤ c.bufferBytes && b.validBytes ≤ c.bufferBytes - b.offsetBytes &&
    b.validBytes = c.options.words.toNat * c.options.frames.toNat * 4 % 2 ^ 64 &&
    b.dmaResult = 0 && b.lastResidueBytes = 0 && b.completedFrames = c.options.frames &&
    b.frameLengthWords = c.options.words && b.frameCount = c.options.frames &&
    b.streamMode = c.options.streamMode &&
    (c.options.streamMode != streamModeDsp || b.capturedConfigId = c.configId) &&
    b.triggerShotId != 0 && b.triggerCount = 1 && b.triggerSeen && b.firstSampleTimeValid

end Context

/-! ## State -/

/-- A bank with the number of banks that were dequeued before it. -/
structure Token where
  id : ℕ
  bank : Bank
  deriving DecidableEq, Repr

/-- The shot of a bank, as it is given to the packetizer. -/
structure Shot where
  token : Token
  initialSequence : UInt64
  samples : Bytes
  deriving DecidableEq, Repr

def Shot.config (c : Context) (shot : Shot) : Config :=
  c.profile shot.token.bank shot.initialSequence

def Shot.packets (c : Context) (shot : Shot) : List Packet :=
  (shot.config c).shotPackets shot.samples

/-- Where the acquisition thread is. `discarding` releases a bank before the failure is recorded,
`dropping` one that the queue did not take. -/
inductive Acquisition where
  | requireIdle | loop | waitArmed | armStart | dequeue
  | checking (t : Token) | waitIdle (t : Token) | pushing (t : Token) | counting
  | discarding (t : Token) | dropping (t : Token)
  | failing | finishing | exited
  deriving DecidableEq, Repr

/-- Where the sender thread is. `sending` has the packets of a shot that are left. -/
inductive Sender where
  | pop | packetizing (t : Token) | sending (shot : Shot) (left : List Packet)
  | releasing (shot : Shot) | discarding (t : Token)
  | drained | heartbeat | failing | exited
  deriving DecidableEq, Repr

/-- The shared members of `struct sustained_context` with the two threads. The last four are a
record of the run: the banks dequeued, the release calls, the packets sent, and the shots of
which all packets were sent. -/
structure State where
  acquisition : Acquisition
  sender : Sender
  queue : List Token
  failed : Bool
  producerDone : Bool
  acquisitionComplete : Bool
  previous : Option (UInt32 × UInt64)
  acquiredShots : ℕ
  transmittedShots : ℕ
  packetSequence : UInt64
  lastShotId : UInt32
  dequeued : ℕ
  released : List ℕ
  sent : List Packet
  shots : List Shot
  deriving DecidableEq, Repr

/-- The threads before their first step. When the acquisition thread cannot be created, the main
thread records the failure and finishes the queue in its place. -/
def start (created : Bool) : State where
  acquisition := if created then .requireIdle else .failing
  sender := .pop
  queue := []
  failed := false
  producerDone := false
  acquisitionComplete := false
  previous := none
  acquiredShots := 0
  transmittedShots := 0
  packetSequence := 0
  lastShotId := 0
  dequeued := 0
  released := []
  sent := []
  shots := []

/-- What the calls of a step return: whether they succeed, the tests of the clock and of the
signal, the bank that is dequeued, and the samples in it. -/
structure Result where
  ok : Bool
  elapsed : Bool
  stop : Bool
  bank : Bank
  samples : Bytes

/-! ## The threads -/

section

variable (c : Context)

/-- The shot id and the time of a bank are above those of the bank before it. -/
def monotonic (previous : Option (UInt32 × UInt64)) (b : Bank) : Bool :=
  previous.all fun p => p.1 < b.triggerShotId && p.2 < b.firstSampleTime

/-- `acquisition_thread` -/
def acquisitionStep (s : State) (r : Result) : Option State :=
  match s.acquisition with
  | .requireIdle => some { s with acquisition := if r.ok then .loop else .failing }
  | .loop =>
    if (!c.options.durationMode && c.options.triggeredShots ≤ s.acquiredShots) ||
        (0 < s.acquiredShots && r.elapsed) then
      some { s with acquisitionComplete := true, acquisition := .finishing }
    else if r.stop || s.failed then some { s with acquisition := .finishing }
    else some { s with acquisition := .waitArmed }
  | .waitArmed => some { s with acquisition := if r.ok then .armStart else .failing }
  | .armStart => some { s with acquisition := if r.ok then .dequeue else .failing }
  | .dequeue =>
    if r.ok then
      some { s with acquisition := .checking ⟨s.dequeued, r.bank⟩, dequeued := s.dequeued + 1 }
    else some { s with acquisition := .failing }
  | .checking t =>
    if c.validateBank t.bank && monotonic s.previous t.bank then
      some { s with
        acquisition := .waitIdle t
        previous := some (t.bank.triggerShotId, t.bank.firstSampleTime) }
    else some { s with acquisition := .discarding t }
  | .waitIdle t => some { s with acquisition := if r.ok then .pushing t else .discarding t }
  | .pushing t =>
    if s.failed then some { s with acquisition := .dropping t }
    else if s.queue.length = c.options.bankCount then none
    else some { s with acquisition := .counting, queue := s.queue ++ [t] }
  | .counting => some { s with acquisition := .loop, acquiredShots := s.acquiredShots + 1 }
  | .discarding t => some { s with acquisition := .failing, released := s.released ++ [t.id] }
  | .dropping t => some { s with acquisition := .finishing, released := s.released ++ [t.id] }
  | .failing => some { s with acquisition := .finishing, failed := true }
  | .finishing => some { s with acquisition := .exited, producerDone := true }
  | .exited => none

/-- `sender_thread`; the calls of `emit_udp` are those of the packetizer, one packet after the
other. -/
def senderStep (s : State) (r : Result) : Option State :=
  match s.sender with
  | .pop =>
    if s.failed then some { s with sender := .exited }
    else
      match s.queue with
      | t :: rest => some { s with sender := .packetizing t, queue := rest }
      | [] => if s.producerDone then some { s with sender := .drained } else none
  | .packetizing t =>
    let shot : Shot := ⟨t, s.packetSequence, r.samples⟩
    match (shot.config c).check shot.samples with
    | .ok _ => some { s with sender := .sending shot (shot.packets c) }
    | .error _ => some { s with sender := .discarding t }
  | .sending shot (p :: left) =>
    if r.ok then some { s with sender := .sending shot left, sent := s.sent ++ [p] }
    else some { s with sender := .discarding shot.token }
  | .sending shot [] => some { s with sender := .releasing shot, shots := s.shots ++ [shot] }
  | .releasing shot =>
    let s := { s with released := s.released ++ [shot.token.id] }
    if r.ok then
      some { s with
        sender := .pop
        packetSequence := UInt64.ofNat ((shot.config c).result shot.samples).nextSequence
        transmittedShots := s.transmittedShots + 1
        lastShotId := shot.token.bank.triggerShotId }
    else some { s with sender := .failing }
  | .discarding t => some { s with sender := .failing, released := s.released ++ [t.id] }
  | .drained =>
    if s.acquisitionComplete && s.transmittedShots = s.acquiredShots && 0 < s.transmittedShots then
      some { s with sender := .heartbeat }
    else some { s with sender := .exited }
  | .heartbeat =>
    if c.options.streamId = 0 ∨ c.options.runId = 0 ∨ s.lastShotId = 0 ∨
        s.packetSequence.toNat = uint64Max ∨ r.ok = false then
      some { s with sender := .failing }
    else
      some { s with
        sender := .exited
        sent := s.sent ++ [endOfStreamPacket c.options.streamId c.options.runId
          s.lastShotId.toUInt64 s.packetSequence]
        packetSequence := s.packetSequence + 1 }
  | .failing => some { s with sender := .exited, failed := true }
  | .exited => none

inductive Action where
  | acquisition (r : Result)
  | sender (r : Result)

/-- The two threads, one step of either at a time. -/
def machine : Machine State Action where
  step s
    | .acquisition r => acquisitionStep c s r
    | .sender r => senderStep c s r

end

end QCrate.Streamer
