import QCrate.Sequence.Regs
import QCrate.Lib.Crossing
import QCrate.Lib.Machine

/-!
# The sequencer between its two clocks

The part of `qcrate_core.sv` that belongs to the sequencer: the register block on `clk_ctrl_i`,
the engine on `clk_stream_i`, and between them the event memory and the crossings for commands,
status and events, in their form for simulation. Both resets are over.

A step is an edge of one clock or of both, and every register reads the state before the step.
-/

namespace QCrate.Sequence

open QCrate.Lib

/-! ## State -/

/-- The registers on `clk_ctrl_i`. `shown` is the status the register block reads. -/
structure Ctrl where
  regs : Regs
  command : Handshake.Source Command
  done : Toggle.Dest
  aborted : Toggle.Dest
  status : Handshake.Dest Status
  shown : Status
  ramRvalid : Bool
  ramRdata : BitVec 32
  deriving DecidableEq, Repr

/-- The registers on `clk_stream_i`. `pulses` are the outputs of the command crossing. -/
structure Stream where
  command : Handshake.Dest Command
  pulses : Command
  player : Player
  doneToggle : Bool
  abortedToggle : Bool
  status : Handshake.Source Status
  timebase : BitVec 64
  deriving DecidableEq, Repr

structure Core where
  memory : Memory
  ctrl : Ctrl
  stream : Stream

/-- The edges of a step: the bus inputs of an edge of `clk_ctrl_i`, and the level of
`sequence_trigger_i` at an edge of `clk_stream_i`. -/
structure Edges where
  apb : Option ApbIn
  trigger : Option Bool
  deriving DecidableEq, Repr

namespace Core

/-- The state after both resets; only the status that is shown has a bit set. -/
def reset (memory : Memory) : Core :=
  { memory := memory
    ctrl :=
      { regs := Regs.reset
        command := .reset .reset
        done := .reset
        aborted := .reset
        status := .reset (.reset false)
        shown := .reset true
        ramRvalid := false
        ramRdata := 0 }
    stream :=
      { command := .reset .reset
        pulses := .reset
        player := resetPlayer
        doneToggle := false
        abortedToggle := false
        status := .reset (.reset false)
        timebase := 0 } }

def engine (c : Core) : Engine := c.stream.player.engine

/-! ## An edge of `clk_ctrl_i` -/

def regsIn (c : Core) (a : ApbIn) : RegsIn :=
  { apb := a
    commandBusy := c.ctrl.command.busy
    doneEvent := c.ctrl.done.pulse
    abortedEvent := c.ctrl.aborted.pulse
    status := c.ctrl.shown
    ramRvalid := c.ctrl.ramRvalid
    ramRdata := c.ctrl.ramRdata }

/-- `command_send_ctrl` with `command_data_ctrl`. -/
def commandRequest (c : Core) : Option Command :=
  if c.ctrl.regs.command.any && !c.ctrl.command.busy then some c.ctrl.regs.command else none

/-- The write that reaches the event memory. -/
def memoryWrite (c : Core) (a : ApbIn) : Option (BitVec 9 × BitVec 32) :=
  if c.ctrl.regs.ramEn (c.regsIn a) && a.pwrite then some (a.ramAddr, a.pwdata) else none

def ctrlEdge (c : Core) (a : ApbIn) : Ctrl :=
  let i := c.regsIn a
  let ramEn := c.ctrl.regs.ramEn i
  { regs := c.ctrl.regs.edge i
    command := Handshake.stepSource c.ctrl.command c.stream.command (some c.commandRequest)
    done := c.ctrl.done.edge c.stream.doneToggle
    aborted := c.ctrl.aborted.edge c.stream.abortedToggle
    status := Handshake.stepDest c.stream.status c.ctrl.status (some true)
    shown := if c.ctrl.status.valid then c.ctrl.status.data else c.ctrl.shown
    ramRvalid := ramEn && !a.pwrite
    ramRdata := if ramEn && !a.pwrite then c.memory a.ramAddr else c.ctrl.ramRdata }

/-! ## An edge of `clk_stream_i` -/

def engineIn (c : Core) (trigger : Bool) : EngineIn :=
  { rstN := true
    arm := c.stream.pulses.arm
    start := c.stream.pulses.start
    abort := c.stream.pulses.abort
    softReset := c.stream.pulses.softReset
    externalTriggerEnable := c.stream.pulses.externalTriggerEnable
    externalTrigger := trigger
    eventCount := c.stream.pulses.eventCount
    timebase := c.stream.timebase }

/-- The outputs of the command crossing: the commands are pulses, the rest stays. -/
def nextPulses (c : Core) : Command :=
  if c.stream.command.valid then c.stream.command.data
  else { c.stream.pulses with arm := false, start := false, abort := false, softReset := false }

def streamEdge (c : Core) (trigger : Bool) : Stream :=
  { command := Handshake.stepDest c.ctrl.command c.stream.command (some true)
    pulses := c.nextPulses
    player := c.stream.player.tick c.memory (c.engineIn trigger)
    doneToggle := c.stream.doneToggle ^^ c.engine.donePulse
    abortedToggle := c.stream.abortedToggle ^^ c.engine.abortedPulse
    status := Handshake.stepSource c.stream.status c.ctrl.status
      (some (if c.stream.status.busy then none else some (c.engine.status c.stream.timebase)))
    timebase := c.stream.timebase + 1 }

/-! ## Steps -/

def step (c : Core) (e : Edges) : Core :=
  { memory :=
      match e.apb.bind c.memoryWrite with
      | some (address, data) => Function.update c.memory address data
      | none => c.memory
    ctrl :=
      match e.apb with
      | some a => c.ctrlEdge a
      | none => c.ctrl
    stream :=
      match e.trigger with
      | some trigger => c.streamEdge trigger
      | none => c.stream }

/-- Any edges can come next. -/
def machine : Machine Core Edges where
  step c e := some (c.step e)

/-- A write on the bus reaches the event memory at this step. -/
def writesMemory (c : Core) (e : Edges) : Bool := (e.apb.bind c.memoryWrite).isSome

end Core

end QCrate.Sequence
