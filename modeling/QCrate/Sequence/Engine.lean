import QCrate.Sequence.Program

/-!
# The sequence engine

`qcrate_sequence_engine.sv` and the stream port of `qcrate_sequence_ram.sv`, one clock edge at a
time. Every update reads the registers before the edge `s` and rewrites the next ones `n`, in the
order of the source.
-/

namespace QCrate.Sequence

/-! ## Registers and inputs -/

inductive EngineState where
  | idle
  | validate
  | prefetch
  | armed
  | run
  | fault
  deriving DecidableEq, Repr

/-- The 66 bits of an event that playback needs. -/
structure Entry where
  timestamp : BitVec 64
  state : BitVec 2
  deriving DecidableEq, Repr

/-- `event_data_i[65:0]` -/
def Event.entry (e : Event) : Entry := ⟨e.timestamp, e.outputs⟩

/-- Inputs sampled by one clock edge, the response of the event memory apart. -/
structure EngineIn where
  rstN : Bool
  arm : Bool
  start : Bool
  abort : Bool
  softReset : Bool
  externalTriggerEnable : Bool
  externalTrigger : Bool
  eventCount : BitVec 8
  timebase : BitVec 64
  deriving DecidableEq, Repr

/-- `event_valid_i` and `event_data_i`. -/
structure Response where
  valid : Bool
  data : Event
  deriving DecidableEq, Repr

structure Engine where
  state : EngineState
  eventCount : BitVec 8
  validateReqIndex : BitVec 8
  validateRspIndex : BitVec 8
  prefetchReqIndex : BitVec 8
  prefetchRspIndex : BitVec 8
  fetchIndex : BitVec 8
  previousTimestamp : BitVec 64
  previousState : BitVec 2
  currentEvent : Entry
  nextEvent : Entry
  currentEventValid : Bool
  nextEventValid : Bool
  donePulse : Bool
  abortedPulse : Bool
  faultPulse : Bool
  shotStartPulse : Bool
  faultCode : BitVec 8
  faultEventIndex : BitVec 7
  activeEventIndex : BitVec 7
  completedShots : BitVec 32
  startTime : BitVec 64
  elapsedTick : BitVec 64
  pulse : BitVec 2
  deriving DecidableEq, Repr

namespace Fault

def none : BitVec 8 := 0
def badEventCount : BitVec 8 := 1
def timeOrder : BitVec 8 := 2
def reservedState : BitVec 8 := 3
def reservedFlags : BitVec 8 := 4
def noStateChange : BitVec 8 := 5
def unsafeFinal : BitVec 8 := 6
def memoryUnderflow : BitVec 8 := 7
def memoryProtocol : BitVec 8 := 8
def illegalCommand : BitVec 8 := 9

end Fault

def minEvents : BitVec 8 := 2
def maxEventCount : BitVec 8 := 128

namespace Engine

def noPulses (n : Engine) : Engine :=
  { n with donePulse := false, abortedPulse := false, faultPulse := false, shotStartPulse := false }

/-- `clear_sequence`: the pulses are not touched. -/
def clearSequence (n : Engine) : Engine :=
  { n with
    state := .idle, eventCount := 0, validateReqIndex := 0, validateRspIndex := 0
    prefetchReqIndex := 0, prefetchRspIndex := 0, fetchIndex := 0, previousTimestamp := 0
    previousState := 0, currentEvent := ⟨0, 0⟩, nextEvent := ⟨0, 0⟩
    currentEventValid := false, nextEventValid := false, faultCode := Fault.none
    faultEventIndex := 0, activeEventIndex := 0, completedShots := 0, startTime := 0
    elapsedTick := 0, pulse := 0 }

def enterFault (n : Engine) (code : BitVec 8) (eventIndex : BitVec 7) : Engine :=
  { n with
    state := .fault, faultCode := code, faultEventIndex := eventIndex
    currentEventValid := false, nextEventValid := false, pulse := 0, faultPulse := true }

/-! ## Combinational outputs -/

def currentDue (s : Engine) : Bool :=
  s.currentEventValid && s.currentEvent.timestamp = s.elapsedTick

def activeEventNumberNext (s : Engine) : BitVec 8 := s.activeEventIndex.setWidth 8 + 1

/-- `event_req_o` and `event_addr_o`: the address that is requested, if there is a request. -/
def request (s : Engine) : Option (BitVec 7) :=
  match s.state with
  | .validate =>
    if s.validateReqIndex < s.eventCount then some (s.validateReqIndex.setWidth 7) else none
  | .prefetch =>
    if s.prefetchReqIndex < minEvents then some (s.prefetchReqIndex.setWidth 7) else none
  | .run =>
    if s.currentDue && s.activeEventNumberNext < s.eventCount && s.fetchIndex < s.eventCount then
      some (s.fetchIndex.setWidth 7)
    else none
  | _ => none

/-! ## The states -/

def idleStep (i : EngineIn) (n : Engine) : Engine :=
  if i.arm then
    if i.eventCount < minEvents || maxEventCount < i.eventCount then
      n.enterFault Fault.badEventCount 0
    else
      { n with
        eventCount := i.eventCount, validateReqIndex := 0, validateRspIndex := 0
        previousTimestamp := 0, previousState := 0, faultCode := Fault.none
        faultEventIndex := 0, activeEventIndex := 0, currentEventValid := false
        nextEventValid := false, pulse := 0, state := .validate }
  else n

/-- The checks on a response, and what its acceptance changes. -/
def validateResponse (s : Engine) (e : Event) (n : Engine) : Engine :=
  let index := s.validateRspIndex.setWidth 7
  if e.state.extractLsb' 2 30 ≠ 0 then n.enterFault Fault.reservedState index
  else if e.flags ≠ 0 then n.enterFault Fault.reservedFlags index
  else if e.outputs = s.previousState then n.enterFault Fault.noStateChange index
  else if s.validateRspIndex ≠ 0 && e.timestamp ≤ s.previousTimestamp then
    n.enterFault Fault.timeOrder index
  else if s.validateRspIndex + 1 = s.eventCount && e.outputs ≠ 0 then
    n.enterFault Fault.unsafeFinal index
  else
    let n := { n with
      previousTimestamp := e.timestamp, previousState := e.outputs
      validateRspIndex := s.validateRspIndex + 1 }
    if s.validateRspIndex + 1 = s.eventCount then
      { n with prefetchReqIndex := 0, prefetchRspIndex := 0, state := .prefetch }
    else n

def validateStep (s : Engine) (r : Response) (n : Engine) : Engine :=
  let n :=
    if s.request.isSome then { n with validateReqIndex := s.validateReqIndex + 1 } else n
  if r.valid then validateResponse s r.data n else n

def prefetchStep (s : Engine) (r : Response) (n : Engine) : Engine :=
  let n :=
    if s.request.isSome then { n with prefetchReqIndex := s.prefetchReqIndex + 1 } else n
  if r.valid then
    let n :=
      if s.prefetchRspIndex = 0 then
        { n with currentEvent := r.data.entry, currentEventValid := true }
      else { n with nextEvent := r.data.entry, nextEventValid := true }
    let n := { n with prefetchRspIndex := s.prefetchRspIndex + 1 }
    if s.prefetchRspIndex + 1 = minEvents then
      { n with fetchIndex := minEvents, activeEventIndex := 0, state := .armed }
    else n
  else n

def armedStep (i : EngineIn) (n : Engine) : Engine :=
  if i.start || (i.externalTriggerEnable && i.externalTrigger) then
    { n with
      startTime := i.timebase, elapsedTick := 0, shotStartPulse := true, state := .run }
  else n

/-- The event that is due drives the outputs and makes room for the one after it. -/
def playDue (s : Engine) (r : Response) (n : Engine) : Engine :=
  let n := { n with pulse := s.currentEvent.state }
  if s.activeEventNumberNext = s.eventCount then
    { n with
      state := .idle, currentEventValid := false, nextEventValid := false
      completedShots := s.completedShots + 1, donePulse := true }
  else if s.nextEventValid then
    let n := { n with
      currentEvent := s.nextEvent, activeEventIndex := s.activeEventIndex + 1 }
    if r.valid then { n with nextEvent := r.data.entry, nextEventValid := true }
    else { n with nextEventValid := false }
  else if r.valid then
    { n with
      currentEvent := r.data.entry, currentEventValid := true
      activeEventIndex := s.activeEventIndex + 1 }
  else n.enterFault Fault.memoryUnderflow (s.activeEventIndex + 1)

def runStep (s : Engine) (r : Response) (n : Engine) : Engine :=
  let n := if s.request.isSome then { n with fetchIndex := s.fetchIndex + 1 } else n
  let n :=
    if s.currentEventValid && s.currentEvent.timestamp < s.elapsedTick then
      n.enterFault Fault.memoryUnderflow s.activeEventIndex
    else if s.currentDue then playDue s r n
    else if r.valid then
      if s.nextEventValid then n.enterFault Fault.memoryProtocol s.activeEventIndex
      else { n with nextEvent := r.data.entry, nextEventValid := true }
    else n
  { n with elapsedTick := s.elapsedTick + 1 }

/-- The `unique case` over the state. -/
def work (s : Engine) (i : EngineIn) (r : Response) : Engine :=
  let n := s.noPulses
  match s.state with
  | .idle => idleStep i n
  | .validate => validateStep s r n
  | .prefetch => prefetchStep s r n
  | .armed => armedStep i n
  | .run => runStep s r n
  | .fault => { n with pulse := 0 }

/-- The registers after one edge of `clk_i`. -/
def tick (s : Engine) (i : EngineIn) (r : Response) : Engine :=
  let n := s.noPulses
  if !i.rstN || i.softReset then n.clearSequence
  else if s.state ≠ .fault &&
      ((i.arm && s.state ≠ .idle) || (i.start && s.state ≠ .armed)) then
    n.enterFault Fault.illegalCommand s.activeEventIndex
  else if i.abort && s.state ≠ .idle && s.state ≠ .fault then
    { n with
      state := .idle, currentEventValid := false, nextEventValid := false, pulse := 0
      abortedPulse := true }
  else s.work i r

end Engine

/-! ## The event memory -/

/-- The 512 words of the event memory, as both ports see it. -/
abbrev Memory := BitVec 9 → BitVec 32

/-- The record at an address of the stream port: its words from the low one up. -/
def Memory.event (m : Memory) (address : BitVec 7) : Event :=
  { timestamp := m (address ++ 1#2) ++ m (address ++ 0#2)
    state := m (address ++ 2#2)
    flags := m (address ++ 3#2) }

/-- The registers of the stream port after an edge. -/
def Response.tick (r : Response) (m : Memory) : Option (BitVec 7) → Response
  | none => { r with valid := false }
  | some address => ⟨true, m.event address⟩

/-- The engine and the port it reads its events from. -/
structure Player where
  engine : Engine
  response : Response
  deriving DecidableEq, Repr

/-- One edge of the stream clock, outside a reset of the memory port. -/
def Player.tick (m : Memory) (p : Player) (i : EngineIn) : Player :=
  { engine := p.engine.tick i p.response
    response := p.response.tick m p.engine.request }

/-- The player after the first `t` edges of an input sequence. -/
def Player.after (m : Memory) (inputs : ℕ → EngineIn) (p : Player) : ℕ → Player
  | 0 => p
  | t + 1 => (p.after m inputs t).tick m (inputs t)

/-- An engine out of reset with nothing on its memory port. -/
def resetPlayer : Player :=
  { engine := {
      state := .idle, eventCount := 0, validateReqIndex := 0, validateRspIndex := 0
      prefetchReqIndex := 0, prefetchRspIndex := 0, fetchIndex := 0, previousTimestamp := 0
      previousState := 0, currentEvent := ⟨0, 0⟩, nextEvent := ⟨0, 0⟩
      currentEventValid := false, nextEventValid := false, donePulse := false
      abortedPulse := false, faultPulse := false, shotStartPulse := false
      faultCode := Fault.none, faultEventIndex := 0, activeEventIndex := 0
      completedShots := 0, startTime := 0, elapsedTick := 0, pulse := 0 }
    response := ⟨false, ⟨0, 0, 0⟩⟩ }

/-! ## What an edge can do -/

namespace Engine

/-- The engine reports that it came to an end. -/
def ends (s : Engine) : Bool := s.donePulse || s.abortedPulse

/-- The engine reads the event memory, or plays what it has read. -/
def active (s : Engine) : Bool :=
  s.state = .validate || s.state = .prefetch || s.state = .armed || s.state = .run

section

variable {s n : Engine} {i : EngineIn} {r : Response}

theorem ends_idleStep : (idleStep i n).ends = n.ends := by
  unfold idleStep
  split
  · split <;> rfl
  · rfl

theorem ends_validateStep : (validateStep s r n).ends = n.ends := by
  unfold validateStep validateResponse
  repeat' split
  all_goals rfl

theorem ends_prefetchStep : (prefetchStep s r n).ends = n.ends := by
  unfold prefetchStep
  repeat' split
  all_goals rfl

theorem ends_armedStep : (armedStep i n).ends = n.ends := by
  unfold armedStep
  split <;> rfl

/-- An end is only reported out of RUN. -/
theorem ends_work (h : s.state ≠ .run) : (s.work i r).ends = false := by
  unfold work
  cases hs : s.state with
  | idle => exact ends_idleStep
  | validate => exact ends_validateStep
  | prefetch => exact ends_prefetchStep
  | armed => exact ends_armedStep
  | run => exact absurd hs h
  | fault => rfl

theorem playDue_idle_or : (playDue s r n).state = .idle ∨ (playDue s r n).ends = n.ends := by
  unfold playDue
  split
  · exact .inl rfl
  · right
    repeat' split
    all_goals rfl

/-- When the last event is reported, the engine is at rest. -/
theorem runStep_idle_or : (runStep s r n).state = .idle ∨ (runStep s r n).ends = n.ends := by
  unfold runStep
  have hn : (if s.request.isSome then { n with fetchIndex := s.fetchIndex + 1 } else n).ends =
      n.ends := by
    split <;> rfl
  rw [← hn]
  generalize (if s.request.isSome then { n with fetchIndex := s.fetchIndex + 1 } else n) = n
  dsimp only
  split
  · exact .inr rfl
  · split
    · exact playDue_idle_or
    · right
      repeat' split
      all_goals rfl

/-- Only ARM makes the engine active, and a soft reset always stops it. -/
theorem active_of_tick (h : (s.tick i r).active = true) :
    i.softReset = false ∧ (s.active = true ∨ i.arm = true) := by
  unfold tick at h
  split at h
  · cases h
  next hr =>
  simp only [Bool.or_eq_true, not_or, Bool.not_eq_true] at hr
  refine ⟨hr.2, ?_⟩
  split at h
  · cases h
  split at h
  · cases h
  cases hs : s.state with
  | idle =>
    simp only [work, hs, idleStep] at h
    split at h
    · next ha => exact .inr ha
    · simp [active, noPulses, hs] at h
  | fault => simp [work, active, noPulses, hs] at h
  | _ => simp [active, hs]

/-- An engine that reports an end is at rest. -/
theorem not_active_of_ends (h : (s.tick i r).ends = true) : (s.tick i r).active = false := by
  unfold tick at h ⊢
  split
  · rfl
  next h1 =>
  rw [if_neg h1] at h
  split
  · rfl
  next h2 =>
  rw [if_neg h2] at h
  split
  · rfl
  next h3 =>
  rw [if_neg h3] at h
  by_cases hs : s.state = .run
  · have hw : s.work i r = runStep s r s.noPulses := by
      unfold work
      rw [hs]
    rw [hw] at h ⊢
    rcases runStep_idle_or (s := s) (r := r) (n := s.noPulses) with hi | he
    · simp [active, hi]
    · rw [he] at h
      cases h
  · rw [ends_work hs] at h
    cases h

end

end Engine

end QCrate.Sequence
