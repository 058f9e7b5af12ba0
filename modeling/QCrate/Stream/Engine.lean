import QCrate.Lib.Machine

/-!
# The stream engine

`qcrate_stream_engine.sv`, one clock edge at a time. A register is a `BitVec` of its width.

The RTL writes registers with non-blocking assignments inside one `always_ff` block, so each
right-hand side reads the value before the edge and the last assignment to a register wins.
The step is therefore a chain of updates: every link reads the old state `s` and rewrites the
next state it is handed, in the order of the source.
-/

namespace QCrate.Stream

open QCrate.Lib

/-! ## Registers and inputs -/

/-- Inputs sampled by one clock edge. -/
structure EngineIn where
  rstN : Bool
  start : Bool
  armTriggered : Bool
  shotTrigger : Bool
  abort : Bool
  softReset : Bool
  triggerShotId : BitVec 32
  timebase : BitVec 64
  configId : BitVec 64
  frameLength : BitVec 32
  frameCount : BitVec 32
  streamMode : BitVec 32
  continuous : Bool
  dspTvalid : Bool
  mAxisTready : Bool
  deriving DecidableEq, Repr

structure Engine where
  activeFrameLength : BitVec 32
  activeFrameCount : BitVec 32
  activeStreamMode : BitVec 32
  activeContinuous : Bool
  abortPending : Bool
  busy : Bool
  armed : Bool
  triggerSeen : Bool
  firstSampleTimeValid : Bool
  triggerShotId : BitVec 32
  triggerCount : BitVec 32
  missedTriggerCount : BitVec 32
  triggerTime : BitVec 64
  firstSampleTime : BitVec 64
  captureConfigId : BitVec 64
  completedFrames : BitVec 32
  currentFrameId : BitVec 32
  currentSampleIndex : BitVec 32
  stallCycles : BitVec 32
  captureStartPulse : Bool
  donePulse : Bool
  errorPulse : Bool
  deriving DecidableEq, Repr

/-- `clear_engine`: the three pulses are not touched. -/
def Engine.clear (n : Engine) : Engine :=
  { n with
    activeFrameLength := 0, activeFrameCount := 0, activeStreamMode := 0
    activeContinuous := false, abortPending := false, busy := false, armed := false
    triggerSeen := false, firstSampleTimeValid := false, triggerShotId := 0
    triggerCount := 0, missedTriggerCount := 0, triggerTime := 0, firstSampleTime := 0
    captureConfigId := 0, completedFrames := 0, currentFrameId := 0
    currentSampleIndex := 0, stallCycles := 0 }

def Engine.noPulses (n : Engine) : Engine :=
  { n with captureStartPulse := false, donePulse := false, errorPulse := false }

/-- The engine as the synchronous reset leaves it. -/
def Engine.reset : Engine :=
  { activeFrameLength := 0, activeFrameCount := 0, activeStreamMode := 0
    activeContinuous := false, abortPending := false, busy := false, armed := false
    triggerSeen := false, firstSampleTimeValid := false, triggerShotId := 0
    triggerCount := 0, missedTriggerCount := 0, triggerTime := 0, firstSampleTime := 0
    captureConfigId := 0, completedFrames := 0, currentFrameId := 0
    currentSampleIndex := 0, stallCycles := 0
    captureStartPulse := false, donePulse := false, errorPulse := false }

/-! ## Combinational outputs -/

def configurationValid (i : EngineIn) : Bool :=
  i.frameLength != 0 && (i.continuous || i.frameCount != 0) && i.streamMode ≤ 1

/-- `m_axis_tvalid_o` -/
def mAxisTvalid (i : EngineIn) (s : Engine) : Bool :=
  s.busy && (if s.activeStreamMode = 1 then i.dspTvalid else true)

def axisFire (i : EngineIn) (s : Engine) : Bool := mAxisTvalid i s && i.mAxisTready

def finalSample (s : Engine) : Bool := s.currentSampleIndex = s.activeFrameLength - 1

def finalFrame (s : Engine) : Bool :=
  !s.activeContinuous && s.activeFrameCount ≤ s.completedFrames + 1

/-- An edge at which the engine is reset. -/
def EngineIn.resets (i : EngineIn) : Bool := !i.rstN || i.softReset

/-- An engine that is armed or busy has a capture under way. -/
def capturing (s : Engine) : Bool := s.busy || s.armed

/-- The engine takes START or ARM_TRIGGERED at this edge. -/
def accepts (s : Engine) (i : EngineIn) : Bool :=
  !i.softReset && !capturing s && (i.start || i.armTriggered) &&
    !((i.start && i.armTriggered) || !configurationValid i)

/-! ## One clock edge -/

/-- A shot trigger that finds the engine not armed is counted as missed. -/
def missTrigger (i : EngineIn) (s n : Engine) : Engine :=
  if i.shotTrigger && !s.armed then
    { n with missedTriggerCount := s.missedTriggerCount + 1 }
  else n

def countStall (i : EngineIn) (s n : Engine) : Engine :=
  if mAxisTvalid i s && !i.mAxisTready then { n with stallCycles := s.stallCycles + 1 } else n

/-- ABORT drains an armed engine as a finite counter capture; a continuous one stops at
the next beat. -/
def takeAbort (i : EngineIn) (s n : Engine) : Engine :=
  if i.abort && s.armed then
    { n with
      armed := false, busy := true, activeStreamMode := 0, activeContinuous := false
      abortPending := false, completedFrames := 0, currentFrameId := 0
      currentSampleIndex := 0, stallCycles := 0 }
  else if i.abort && s.busy && s.activeContinuous then { n with abortPending := true }
  else n

def stampFirstSample (i : EngineIn) (s n : Engine) : Engine :=
  if s.firstSampleTimeValid then n
  else { n with firstSampleTime := i.timebase, firstSampleTimeValid := true }

/-- The accepted beat of this edge, if there is one. -/
def acceptBeat (i : EngineIn) (s n : Engine) : Engine :=
  if axisFire i s then
    let n := stampFirstSample i s n
    if s.abortPending || (i.abort && s.activeContinuous) then
      { n with busy := false, abortPending := false }
    else if finalSample s then
      let n := { n with completedFrames := s.completedFrames + 1 }
      if finalFrame s then { n with busy := false, donePulse := true }
      else { n with currentFrameId := s.currentFrameId + 1, currentSampleIndex := 0 }
    else { n with currentSampleIndex := s.currentSampleIndex + 1 }
  else n

/-- START or ARM_TRIGGERED on an idle engine, or the trigger of an armed one. -/
def startOrTrigger (i : EngineIn) (s n : Engine) : Engine :=
  if !s.busy && !s.armed && (i.start || i.armTriggered) then
    if (i.start && i.armTriggered) || !configurationValid i then { n with errorPulse := true }
    else
      { n with
        activeFrameLength := i.frameLength, activeFrameCount := i.frameCount
        activeStreamMode := i.streamMode, activeContinuous := i.continuous
        abortPending := false, busy := i.start, armed := i.armTriggered
        captureStartPulse := i.start, triggerSeen := false, firstSampleTimeValid := false
        triggerShotId := 0, triggerTime := 0, firstSampleTime := 0
        captureConfigId := i.configId, completedFrames := 0, currentFrameId := 0
        currentSampleIndex := 0, stallCycles := 0 }
  else if s.armed && i.shotTrigger && !i.abort then
    { n with
      armed := false, busy := true, captureStartPulse := true, triggerSeen := true
      triggerShotId := i.triggerShotId, triggerCount := s.triggerCount + 1
      triggerTime := i.timebase, captureConfigId := i.configId }
  else n

/-- The registers after one edge of `clk_i`. -/
def Engine.tick (s : Engine) (i : EngineIn) : Engine :=
  if !i.rstN then s.clear.noPulses
  else if i.softReset then s.noPulses.clear
  else
    startOrTrigger i s <| acceptBeat i s <| takeAbort i s <| countStall i s <|
      missTrigger i s s.noPulses

/-- The engine as a machine: every input vector is possible in every state. -/
def engineMachine : Machine Engine EngineIn where
  step s i := some (s.tick i)

/-- The states the engine can be in after a reset. -/
def ReachableEngine (s : Engine) : Prop := engineMachine.Reachable .reset s

/-! ## An armed engine is idle and has not stalled -/

/-- Ownership of the data path: ARMED excludes BUSY, and arming clears the stall counter. -/
structure Engine.ArmedQuiet (s : Engine) : Prop where
  notBusy : s.armed = true → s.busy = false
  noStall : s.armed = true → s.stallCycles = 0

theorem mAxisTvalid_of_not_busy {i : EngineIn} {s : Engine} (h : s.busy = false) :
    mAxisTvalid i s = false := by
  simp [mAxisTvalid, h]

/-- What the links before `startOrTrigger` do to the three registers of `ArmedQuiet`
when the engine is armed and no ABORT comes. -/
theorem acceptBeat_armed {i : EngineIn} {s : Engine} (hq : s.ArmedQuiet) (ha : s.armed = true)
    (hab : i.abort = false) :
    acceptBeat i s (takeAbort i s (countStall i s (missTrigger i s s.noPulses))) = s.noPulses := by
  have hv : mAxisTvalid i s = false := mAxisTvalid_of_not_busy (hq.notBusy ha)
  simp [acceptBeat, axisFire, takeAbort, countStall, missTrigger, hv, ha, hab]

theorem missTrigger_armed (i : EngineIn) (s n : Engine) : (missTrigger i s n).armed = n.armed := by
  unfold missTrigger
  split <;> rfl

theorem countStall_armed (i : EngineIn) (s n : Engine) : (countStall i s n).armed = n.armed := by
  unfold countStall
  split <;> rfl

/-- A beat never arms the engine. -/
theorem acceptBeat_armed_eq (i : EngineIn) (s n : Engine) : (acceptBeat i s n).armed = n.armed := by
  unfold acceptBeat stampFirstSample
  repeat' split
  all_goals rfl

/-- One edge keeps `ArmedQuiet`. -/
theorem armedQuiet_tick {s : Engine} (i : EngineIn) (hq : s.ArmedQuiet) :
    (s.tick i).ArmedQuiet := by
  unfold Engine.tick
  split
  · exact ⟨by simp [Engine.clear, Engine.noPulses], by simp [Engine.clear, Engine.noPulses]⟩
  split
  · exact ⟨by simp [Engine.clear, Engine.noPulses], by simp [Engine.clear, Engine.noPulses]⟩
  generalize hm : acceptBeat i s (takeAbort i s (countStall i s (missTrigger i s s.noPulses))) = m
  unfold startOrTrigger
  split
  · next hidle =>
    simp only [Bool.and_eq_true, Bool.not_eq_true', Bool.or_eq_true] at hidle
    obtain ⟨⟨hb, ha⟩, -⟩ := hidle
    have hma : m.armed = false := by
      rw [← hm, acceptBeat_armed_eq]
      simp [takeAbort, ha, hb, countStall_armed, missTrigger_armed, Engine.noPulses]
    split
    · exact ⟨by simp [hma], by simp [hma]⟩
    · next hok =>
      refine ⟨fun h => ?_, fun _ => rfl⟩
      -- START and ARM_TRIGGERED together are refused, so an armed engine was not started
      simp only [Bool.or_eq_true, Bool.and_eq_true, not_or, not_and, Bool.not_eq_true] at hok
      cases hs : i.start with
      | false => rfl
      | true => exact absurd (hok.1 hs) (by simp at h; simp [h])
  · split
    · exact ⟨by simp, by simp⟩
    · next hidle htrig =>
      -- the engine stays armed only when nothing happened to it
      have hkeep : m.armed = true → m = s.noPulses := by
        intro h
        have hs : s.armed = true ∧ i.abort = false := by
          rw [← hm, acceptBeat_armed_eq] at h
          cases ha : s.armed with
          | false =>
            simp only [takeAbort, ha, Bool.and_false, Bool.false_eq_true, if_false] at h
            split at h <;>
              simp [countStall_armed, missTrigger_armed, Engine.noPulses, ha] at h
          | true =>
            cases hab : i.abort with
            | false => exact ⟨rfl, rfl⟩
            | true => simp [takeAbort, ha, hab] at h
        rw [← hm]
        exact acceptBeat_armed hq hs.1 hs.2
      refine ⟨fun h => ?_, fun h => ?_⟩
      · have hs := hkeep h
        subst hs
        exact hq.notBusy h
      · have hs := hkeep h
        subst hs
        exact hq.noStall h

/-- In every state the engine can be in, ARMED means idle with a zero stall counter. -/
theorem ReachableEngine.armedQuiet {s : Engine} (h : ReachableEngine s) : s.ArmedQuiet :=
  Machine.Reachable.invariant h ⟨by simp [Engine.reset], by simp [Engine.reset]⟩
    (fun s i s' hs hst => by
      cases hst
      exact armedQuiet_tick i hs)

theorem accepts_iff {s : Engine} {i : EngineIn} : accepts s i = true ↔ i.softReset = false ∧
    (s.busy = false ∧ s.armed = false) ∧ (i.start || i.armTriggered) = true ∧
      ((i.start && i.armTriggered) || !configurationValid i) = false := by
  simp only [accepts, capturing, Bool.and_eq_true, Bool.not_eq_true', Bool.or_eq_false_iff,
    and_assoc]

end QCrate.Stream
