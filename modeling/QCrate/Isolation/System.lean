import QCrate.Dsp.Chain
import QCrate.Mailbox.Crossing
import QCrate.Sequence.Core
import QCrate.Stream.Block

/-!
# Configuration, sequencer and stream engine together

The part of `qcrate_core.sv` that decides when a configuration may become active: the sequencer,
the stream engine, the configuration mailbox and the DSP chain. A step is an edge of one clock or
of both.

The bus inputs of the three blocks are free of each other, and so is the shot trigger: the runs
include those of the address decoder and of the sequencer's own triggers.
-/

namespace QCrate.Isolation

open QCrate.Lib
open QCrate.Dsp.Rtl (FirIp Pipeline Rom)
open QCrate.Mailbox (DspConfig)
open QCrate.Sequence (ApbIn Memory)
open QCrate.Stream (capturing accepts)

/-- The active configuration as the DSP chain is wired to it. -/
def chainRegs (c : DspConfig) : Dsp.Rtl.Regs where
  signalInitial := c.signalPhaseInitial
  signalIncrement := c.signalPhaseIncrement
  signalAmplitude := c.signalAmplitude
  noiseAmplitude := c.noiseAmplitude
  noiseSeed := c.noiseSeed
  loInitial := c.loPhaseInitial
  loIncrement := c.loPhaseIncrement

structure System (ip : FirIp) where
  sequence : Sequence.Core
  stream : Stream.Core
  mailbox : Mailbox.Core
  pipeline : Pipeline ip

/-- What an edge of `clk_ctrl_i` samples: the bus at each block, and the sequencer's events. -/
structure CtrlIn where
  sequenceApb : ApbIn
  streamApb : ApbIn
  mailboxApb : ApbIn
  sequenceEvents : BitVec 3
  deriving DecidableEq, Repr

/-- What an edge of `clk_stream_i` samples from outside. -/
structure StreamIn where
  sequenceTrigger : Bool
  shotTrigger : Bool
  mAxisTready : Bool
  deriving DecidableEq, Repr

structure Edges where
  ctrl : Option CtrlIn
  stream : Option StreamIn
  deriving DecidableEq, Repr

namespace System

variable {ip : FirIp}

/-- Both resets are over; the memory and the DSP chain hold anything. -/
def reset (memory : Memory) (pipeline : Pipeline ip) : System ip :=
  { sequence := .reset memory, stream := .reset, mailbox := .reset, pipeline := pipeline }

def engine (s : System ip) : Stream.Engine := s.stream.stream.engine

/-- The configuration that drives the DSP chain. -/
def active (s : System ip) : DspConfig := s.mailbox.stream.active

def generation (s : System ip) : BitVec 32 := s.mailbox.stream.generation

/-- `dsp_config_safe_stream` -/
def safeToCommit (s : System ip) : Bool :=
  !s.engine.busy && !s.engine.armed && decide (s.sequence.engine.state = .idle) &&
    !s.stream.stream.pulses.start && !s.stream.stream.pulses.armTriggered &&
    !s.stream.stream.pulses.abort && !s.stream.stream.pulses.softReset &&
    !s.sequence.stream.pulses.arm && !s.sequence.stream.pulses.start &&
    !s.sequence.stream.pulses.abort && !s.sequence.stream.pulses.softReset

/-- `dsp_stream_clear` -/
def dspClear (s : System ip) : Bool :=
  s.stream.stream.pulses.start || s.stream.stream.pulses.armTriggered ||
    s.engine.captureStartPulse || s.stream.stream.pulses.softReset

/-- `dsp_enable_o` -/
def dspEnable (s : System ip) : Bool := s.engine.busy && decide (s.engine.activeStreamMode = 1)

/-- What the stream engine samples. -/
def streamIn (s : System ip) (i : StreamIn) : Stream.StreamIn where
  shotTrigger := i.shotTrigger
  triggerShotId := s.sequence.engine.completedShots + 1
  timebase := s.sequence.stream.timebase
  configId := s.active.configId
  dspTvalid := s.pipeline.valid s.dspClear
  mAxisTready := i.mAxisTready

def engineIn (s : System ip) (i : StreamIn) : Stream.EngineIn := s.stream.engineIn (s.streamIn i)

def pipelineIn (s : System ip) (i : StreamIn) : Dsp.Rtl.Input where
  rstN := true
  clear := s.dspClear
  enable := s.dspEnable
  ready := s.dspEnable && i.mAxisTready

def step (rom : Rom) (s : System ip) (e : Edges) : System ip :=
  { sequence := s.sequence.step ⟨e.ctrl.map (·.sequenceApb), e.stream.map (·.sequenceTrigger)⟩
    stream := s.stream.step
      ⟨e.ctrl.map fun i => ⟨i.streamApb, i.sequenceEvents⟩, e.stream.map s.streamIn⟩
    mailbox := s.mailbox.step ⟨e.ctrl.map (·.mailboxApb), e.stream.map fun _ => s.safeToCommit⟩
    pipeline :=
      match e.stream with
      | some i => s.pipeline.step rom (chainRegs s.active) (s.pipelineIn i)
      | none => s.pipeline }

/-- The output takes a word of the DSP chain at this edge. -/
def takesSample (s : System ip) (i : StreamIn) : Bool :=
  Stream.axisFire (s.engineIn i) s.engine && decide (s.engine.activeStreamMode = 1)

/-! ## The capture under way -/

/-- The configuration and the generation of the cycle in which a capture was accepted. -/
structure Held where
  config : DspConfig
  generation : BitVec 32
  deriving DecidableEq, Repr

def acceptsAt (s : System ip) (e : Edges) : Bool :=
  e.stream.any fun i => accepts s.engine (s.engineIn i)

/-- Kept from the acceptance of a capture to its end. -/
def nextHeld (rom : Rom) (s : System ip) (e : Edges) (held : Option Held) : Option Held :=
  if s.acceptsAt e then some ⟨s.active, s.generation⟩
  else if capturing (s.step rom e).engine then held
  else none

/-- The system with the configuration of the capture under way; any edges can come next. -/
def machine (rom : Rom) : Machine (System ip × Option Held) Edges where
  step s e := some (s.1.step rom e, s.1.nextHeld rom e s.2)

end System

end QCrate.Isolation
