import QCrate.Dsp.Rtl

/-!
# The DSP chain

`qcrate_dsp_chain.sv`: the source and the front end, and behind them `qcrate_fir_decim16.sv` with
`qcrate_fir_quantizer.sv`. The FIR core is generated by the vendor's tool, so it is a parameter.

* `Pipeline` — the registers of the chain; `Pipeline.step` an edge.
* `Pipeline.Produced` — the chain was cleared under a configuration and stayed under it.
-/

namespace QCrate.Dsp.Rtl

/-- Inputs of an edge of the FIR core. -/
structure FirIn where
  aresetn : Bool
  sValid : Bool
  sData : BitVec 48
  mReady : Bool

/-- `qcrate_fir_decim16_ip`: its registers, the outputs they drive, and an edge. -/
structure FirIp where
  State : Type
  sReady : State → Bool
  mValid : State → Bool
  mData : State → BitVec 80
  step : State → FirIn → State

/-- `round_saturate` of the quantizer. -/
def roundSaturateAccumulator (accumulator : BitVec 36) : BitVec 16 :=
  let adjusted : BitVec 37 :=
    accumulator.signExtend 37 + (if accumulator.msb then 262143 else 262144)
  let rounded := adjusted.sshiftRight 19
  if (32767 : BitVec 37).slt rounded then 0x7fff
  else if rounded.slt (-32768) then 0x8000
  else rounded.setWidth 16

/-- The source and the front end, the FIR core, and the elastic register behind it. -/
structure Pipeline (ip : FirIp) where
  chain : Chain
  fir : ip.State
  outI : BitVec 16
  outQ : BitVec 16
  outValid : Bool

namespace Pipeline

variable {ip : FirIp}

/-- `m_data_o` -/
def data (p : Pipeline ip) : BitVec 32 := p.outQ ++ p.outI

/-- `m_valid_o`: a clear masks the word of the elastic register at once. -/
def valid (p : Pipeline ip) (clear : Bool) : Bool := p.outValid && !clear

/-- `fir_m_ready` -/
def firReady (p : Pipeline ip) (ready : Bool) : Bool := !p.outValid || ready

/-- `mixed_ready` -/
def mixedReady (p : Pipeline ip) (clear : Bool) : Bool := ip.sReady p.fir && !clear

def firIn (p : Pipeline ip) (i : Input) : FirIn where
  aresetn := i.rstN && !i.clear
  sValid := p.chain.frontend.mixer.valid && !i.clear
  sData := p.chain.frontend.mixer.q.signExtend 24 ++ p.chain.frontend.mixer.i.signExtend 24
  mReady := p.firReady i.ready

/-- One edge of `qcrate_dsp_chain`. -/
def step (rom : Rom) (c : Regs) (p : Pipeline ip) (i : Input) : Pipeline ip :=
  let n := { p with
    chain := p.chain.step rom c { i with ready := p.mixedReady i.clear }
    fir := ip.step p.fir (p.firIn i) }
  let word := ip.mData p.fir
  if !i.rstN || i.clear then { n with outI := 0, outQ := 0, outValid := false }
  else if p.firReady i.ready then
    if ip.mValid p.fir then
      { n with
        outI := roundSaturateAccumulator (word.extractLsb' 0 36)
        outQ := roundSaturateAccumulator (word.extractLsb' 40 36)
        outValid := true }
    else { n with outValid := false }
  else n

/-- The chain was cleared under the configuration `c`, and every edge since was under `c`. -/
inductive Produced (rom : Rom) (c : Regs) : Pipeline ip → Prop
  | clear (p : Pipeline ip) (i : Input) (h : i.clear = true) : Produced rom c (p.step rom c i)
  | step {p : Pipeline ip} (h : Produced rom c p) (i : Input) : Produced rom c (p.step rom c i)

end Pipeline

end QCrate.Dsp.Rtl
