import QCrate.Lib.Crossing
import QCrate.Sequence.Regs
import QCrate.Stream.Regs

/-!
# The stream engine between its two clocks

The part of `qcrate_core.sv` that belongs to the stream engine: `qcrate_stream_regs.sv` and
`qcrate_irq_ctrl.sv` on `clk_ctrl_i`, the engine on `clk_stream_i`, and between them
`qcrate_command_cdc.sv`, `qcrate_status_cdc.sv` and `qcrate_event_cdc.sv` in their form for
simulation. Both resets are over.

A step is an edge of one clock or of both, and every register reads the state before the step.
-/

namespace QCrate.Stream

open QCrate.Lib
open QCrate.Sequence (ApbIn)

/-! ## The register block -/

/-- What the command crossing carries. -/
structure Command where
  frameLength : BitVec 32
  frameCount : BitVec 32
  streamMode : BitVec 32
  continuous : Bool
  start : Bool
  armTriggered : Bool
  abort : Bool
  softReset : Bool
  deriving DecidableEq, Repr

def Command.reset : Command := ⟨0, 0, 0, false, false, false, false, false⟩

/-- One of the four commands is there. -/
def Command.any (k : Command) : Bool := k.start || k.armTriggered || k.abort || k.softReset

structure Regs where
  frameLength : BitVec 32
  frameCount : BitVec 32
  streamMode : BitVec 32
  continuous : Bool
  startCmd : Bool
  armTriggeredCmd : Bool
  abortCmd : Bool
  softResetCmd : Bool
  irqEnable : BitVec 32
  irqClear : BitVec 32
  triggerTimeHighLatch : BitVec 32
  firstSampleTimeHighLatch : BitVec 32
  captureConfigIdHighLatch : BitVec 32
  deriving DecidableEq, Repr

/-- Inputs sampled by one edge of `pclk_i`. -/
structure RegsIn where
  apb : ApbIn
  commandBusy : Bool
  snapshot : Snapshot
  irqStatus : BitVec 32
  deriving DecidableEq, Repr

namespace Regs

def addrControl : BitVec 12 := 0x000
def addrFrameLength : BitVec 12 := 0x004
def addrFrameCount : BitVec 12 := 0x008
def addrStreamMode : BitVec 12 := 0x00C
def addrStatus : BitVec 12 := 0x010
def addrCompletedFrames : BitVec 12 := 0x014
def addrCurrentFrameId : BitVec 12 := 0x018
def addrCurrentSampleIndex : BitVec 12 := 0x01C
def addrStallCycles : BitVec 12 := 0x020
def addrIrqStatus : BitVec 12 := 0x024
def addrIrqEnable : BitVec 12 := 0x028
def addrIrqClear : BitVec 12 := 0x02C
def addrTriggerShotId : BitVec 12 := 0x030
def addrTriggerCount : BitVec 12 := 0x034
def addrMissedTriggerCount : BitVec 12 := 0x038
def addrTriggerTimeLow : BitVec 12 := 0x03C
def addrTriggerTimeHigh : BitVec 12 := 0x040
def addrFirstSampleTimeLow : BitVec 12 := 0x044
def addrFirstSampleTimeHigh : BitVec 12 := 0x048
def addrCaptureConfigIdLow : BitVec 12 := 0x04C
def addrCaptureConfigIdHigh : BitVec 12 := 0x050

def reset : Regs := ⟨0, 0, 0, false, false, false, false, false, 0, 0, 0, 0, 0⟩

def controlWord (s : Regs) : BitVec 32 :=
  (0 : BitVec 23) ++ BitVec.ofBool s.continuous ++ (0 : BitVec 5) ++ (0 : BitVec 3)

def unmappedPrdata : BitVec 32 := 0xDEADBEEF

def prdata (s : Regs) (i : RegsIn) : BitVec 32 :=
  if i.apb.paddr = addrControl then s.controlWord
  else if i.apb.paddr = addrFrameLength then s.frameLength
  else if i.apb.paddr = addrFrameCount then s.frameCount
  else if i.apb.paddr = addrStreamMode then s.streamMode
  else if i.apb.paddr = addrStatus then statusWord i.snapshot i.commandBusy i.irqStatus
  else if i.apb.paddr = addrCompletedFrames then i.snapshot.completedFrames
  else if i.apb.paddr = addrCurrentFrameId then i.snapshot.currentFrameId
  else if i.apb.paddr = addrCurrentSampleIndex then i.snapshot.currentSampleIndex
  else if i.apb.paddr = addrStallCycles then i.snapshot.stallCycles
  else if i.apb.paddr = addrIrqStatus then i.irqStatus
  else if i.apb.paddr = addrIrqEnable then s.irqEnable
  else if i.apb.paddr = addrIrqClear then 0
  else if i.apb.paddr = addrTriggerShotId then i.snapshot.triggerShotId
  else if i.apb.paddr = addrTriggerCount then i.snapshot.triggerCount
  else if i.apb.paddr = addrMissedTriggerCount then i.snapshot.missedTriggerCount
  else if i.apb.paddr = addrTriggerTimeLow then i.snapshot.triggerTime.setWidth 32
  else if i.apb.paddr = addrTriggerTimeHigh then s.triggerTimeHighLatch
  else if i.apb.paddr = addrFirstSampleTimeLow then i.snapshot.firstSampleTime.setWidth 32
  else if i.apb.paddr = addrFirstSampleTimeHigh then s.firstSampleTimeHighLatch
  else if i.apb.paddr = addrCaptureConfigIdLow then i.snapshot.captureConfigId.setWidth 32
  else if i.apb.paddr = addrCaptureConfigIdHigh then s.captureConfigIdHighLatch
  else unmappedPrdata

/-- The addresses of the block: all words up to the last one. -/
def addrMapped (i : RegsIn) : Bool :=
  i.apb.paddr ≤ addrCaptureConfigIdHigh && i.apb.paddr.extractLsb' 0 2 = 0

/-- `write_allowed` -/
def writeAllowed (i : RegsIn) : Bool :=
  [addrControl, addrFrameLength, addrFrameCount, addrStreamMode, addrIrqEnable,
    addrIrqClear].contains i.apb.paddr

def pslverr (i : RegsIn) : Bool :=
  i.apb.apbAccess && (!addrMapped i || (i.apb.pwrite && !writeAllowed i))

/-- The command lines, as the command crossing sees them. -/
def command (s : Regs) : Command :=
  { frameLength := s.frameLength, frameCount := s.frameCount, streamMode := s.streamMode
    continuous := s.continuous, start := s.startCmd, armTriggered := s.armTriggeredCmd
    abort := s.abortCmd, softReset := s.softResetCmd }

/-- The command lines and the interrupt clears are pulses. -/
def noPulses (n : Regs) : Regs :=
  { n with
    startCmd := false, armTriggeredCmd := false, abortCmd := false, softResetCmd := false
    irqClear := 0 }

/-- Reading the low half of a 64-bit register latches its high half. -/
def latchHigh (i : RegsIn) (n : Regs) : Regs :=
  if i.apb.apbAccess && !i.apb.pwrite then
    if i.apb.paddr = addrTriggerTimeLow then
      { n with triggerTimeHighLatch := i.snapshot.triggerTime.extractLsb' 32 32 }
    else if i.apb.paddr = addrFirstSampleTimeLow then
      { n with firstSampleTimeHighLatch := i.snapshot.firstSampleTime.extractLsb' 32 32 }
    else if i.apb.paddr = addrCaptureConfigIdLow then
      { n with captureConfigIdHighLatch := i.snapshot.captureConfigId.extractLsb' 32 32 }
    else n
  else n

def registerWrite (i : RegsIn) (n : Regs) : Regs :=
  if i.apb.apbAccess && i.apb.pwrite && writeAllowed i then
    if i.apb.paddr = addrControl then
      { n with
        startCmd := i.apb.pwdata.getLsbD 0, abortCmd := i.apb.pwdata.getLsbD 1
        softResetCmd := i.apb.pwdata.getLsbD 2, armTriggeredCmd := i.apb.pwdata.getLsbD 3
        continuous := i.apb.pwdata.getLsbD 8 }
    else if i.apb.paddr = addrFrameLength then { n with frameLength := i.apb.pwdata }
    else if i.apb.paddr = addrFrameCount then { n with frameCount := i.apb.pwdata }
    else if i.apb.paddr = addrStreamMode then { n with streamMode := i.apb.pwdata }
    else if i.apb.paddr = addrIrqEnable then { n with irqEnable := i.apb.pwdata }
    else if i.apb.paddr = addrIrqClear then { n with irqClear := i.apb.pwdata }
    else n
  else n

/-- The registers after one edge of `pclk_i`, outside a reset. -/
def edge (s : Regs) (i : RegsIn) : Regs := registerWrite i (latchHigh i s.noPulses)

end Regs

/-! ## State -/

/-- The registers on `clk_ctrl_i`. `shown` is the snapshot the register block reads. -/
structure CtrlSide where
  regs : Regs
  command : Handshake.Source Command
  frameDone : Toggle.Dest
  streamError : Toggle.Dest
  status : Handshake.Dest Snapshot
  shown : Snapshot
  irqStatus : BitVec 32
  deriving DecidableEq, Repr

/-- The registers on `clk_stream_i`. `pulses` are the outputs of the command crossing. -/
structure StreamSide where
  command : Handshake.Dest Command
  pulses : Command
  engine : Engine
  frameDoneToggle : Bool
  streamErrorToggle : Bool
  status : Handshake.Source Snapshot
  deriving DecidableEq, Repr

structure Core where
  ctrl : CtrlSide
  stream : StreamSide
  deriving DecidableEq, Repr

/-- What an edge of `clk_ctrl_i` samples: the bus, and the events of the sequencer. -/
structure CtrlIn where
  apb : ApbIn
  sequenceEvents : BitVec 3
  deriving DecidableEq, Repr

/-- What an edge of `clk_stream_i` samples from outside the two crossings. -/
structure StreamIn where
  shotTrigger : Bool
  triggerShotId : BitVec 32
  timebase : BitVec 64
  configId : BitVec 64
  dspTvalid : Bool
  mAxisTready : Bool
  deriving DecidableEq, Repr

/-- The edges of a step. -/
structure Edges where
  ctrl : Option CtrlIn
  stream : Option StreamIn
  deriving DecidableEq, Repr

namespace Core

def reset : Core :=
  { ctrl :=
      { regs := .reset
        command := .reset .reset
        frameDone := .reset
        streamError := .reset
        status := .reset Engine.reset.snapshot
        shown := Engine.reset.snapshot
        irqStatus := 0 }
    stream :=
      { command := .reset .reset
        pulses := .reset
        engine := .reset
        frameDoneToggle := false
        streamErrorToggle := false
        status := .reset Engine.reset.snapshot } }

/-! ## An edge of `clk_ctrl_i` -/

def regsIn (c : Core) (a : ApbIn) : RegsIn :=
  { apb := a
    commandBusy := c.ctrl.command.busy
    snapshot := c.ctrl.shown
    irqStatus := c.ctrl.irqStatus }

/-- `command_send_ctrl` with `command_data_ctrl`. -/
def commandRequest (c : Core) : Option Command :=
  if c.ctrl.regs.command.any && !c.ctrl.command.busy then some c.ctrl.regs.command else none

/-- `irq_events_ctrl` -/
def irqEvents (c : Core) (sequenceEvents : BitVec 3) : BitVec 32 :=
  (0 : BitVec 27) ++ sequenceEvents ++ BitVec.ofBool c.ctrl.streamError.pulse
    ++ BitVec.ofBool c.ctrl.frameDone.pulse

def ctrlEdge (c : Core) (i : CtrlIn) : CtrlSide :=
  { regs := c.ctrl.regs.edge (c.regsIn i.apb)
    command := Handshake.stepSource c.ctrl.command c.stream.command (some c.commandRequest)
    frameDone := c.ctrl.frameDone.edge c.stream.frameDoneToggle
    streamError := c.ctrl.streamError.edge c.stream.streamErrorToggle
    status := Handshake.stepDest c.stream.status c.ctrl.status (some true)
    shown := if c.ctrl.status.valid then c.ctrl.status.data else c.ctrl.shown
    -- an event wins over a clear of the same edge
    irqStatus := (c.ctrl.irqStatus &&& ~~~c.ctrl.regs.irqClear) ||| c.irqEvents i.sequenceEvents }

/-! ## An edge of `clk_stream_i` -/

def engineIn (c : Core) (i : StreamIn) : EngineIn :=
  { rstN := true
    start := c.stream.pulses.start
    armTriggered := c.stream.pulses.armTriggered
    shotTrigger := i.shotTrigger
    abort := c.stream.pulses.abort
    softReset := c.stream.pulses.softReset
    triggerShotId := i.triggerShotId
    timebase := i.timebase
    configId := i.configId
    frameLength := c.stream.pulses.frameLength
    frameCount := c.stream.pulses.frameCount
    streamMode := c.stream.pulses.streamMode
    continuous := c.stream.pulses.continuous
    dspTvalid := i.dspTvalid
    mAxisTready := i.mAxisTready }

/-- The outputs of the command crossing: the commands are pulses, the rest stays. -/
def nextPulses (c : Core) : Command :=
  if c.stream.command.valid then c.stream.command.data
  else
    { c.stream.pulses with
      start := false, armTriggered := false, abort := false, softReset := false }

/-- The status crossing sends a snapshot whenever it can. -/
def statusRequest (c : Core) : Option Snapshot :=
  if c.stream.status.busy then none else some c.stream.engine.snapshot

def streamEdge (c : Core) (i : StreamIn) : StreamSide :=
  { command := Handshake.stepDest c.ctrl.command c.stream.command (some true)
    pulses := c.nextPulses
    engine := c.stream.engine.tick (c.engineIn i)
    frameDoneToggle := c.stream.frameDoneToggle ^^ c.stream.engine.donePulse
    streamErrorToggle := c.stream.streamErrorToggle ^^ c.stream.engine.errorPulse
    status := Handshake.stepSource c.stream.status c.ctrl.status (some c.statusRequest) }

/-! ## Steps -/

def step (c : Core) (e : Edges) : Core :=
  { ctrl :=
      match e.ctrl with
      | some i => c.ctrlEdge i
      | none => c.ctrl
    stream :=
      match e.stream with
      | some i => c.streamEdge i
      | none => c.stream }

/-- Any edges can come next. -/
def machine : Machine Core Edges where
  step c e := some (c.step e)

/-- What a read of STATUS returns. -/
def status (c : Core) : BitVec 32 :=
  statusWord c.ctrl.shown c.ctrl.command.busy c.ctrl.irqStatus

end Core

end QCrate.Stream
