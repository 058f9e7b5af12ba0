import QCrate.Stream.Engine

/-!
# The status word of the stream register block

`qcrate_status_cdc.sv` copies the engine's outputs into the control domain as one snapshot;
`qcrate_stream_regs.sv` composes `STATUS` from the snapshot, the command mailbox and the sticky
interrupt bits.
-/

namespace QCrate.Stream

/-- What one status crossing carries, in the order of `status_data_stream`. -/
structure Snapshot where
  busy : Bool
  armed : Bool
  triggerSeen : Bool
  firstSampleTimeValid : Bool
  completedFrames : BitVec 32
  currentFrameId : BitVec 32
  currentSampleIndex : BitVec 32
  stallCycles : BitVec 32
  triggerShotId : BitVec 32
  triggerCount : BitVec 32
  missedTriggerCount : BitVec 32
  triggerTime : BitVec 64
  firstSampleTime : BitVec 64
  captureConfigId : BitVec 64
  deriving DecidableEq, Repr

def Engine.snapshot (s : Engine) : Snapshot :=
  { busy := s.busy, armed := s.armed, triggerSeen := s.triggerSeen
    firstSampleTimeValid := s.firstSampleTimeValid, completedFrames := s.completedFrames
    currentFrameId := s.currentFrameId, currentSampleIndex := s.currentSampleIndex
    stallCycles := s.stallCycles, triggerShotId := s.triggerShotId
    triggerCount := s.triggerCount, missedTriggerCount := s.missedTriggerCount
    triggerTime := s.triggerTime, firstSampleTime := s.firstSampleTime
    captureConfigId := s.captureConfigId }

/-- The concatenation of `status_word`, most significant bit first. -/
def packStatus (commandBusy firstSampleTimeValid triggerSeen armed stalled irq1 irq0 busy : Bool) :
    BitVec 32 :=
  (0 : BitVec 23) ++ BitVec.ofBool commandBusy ++ BitVec.ofBool false
    ++ BitVec.ofBool firstSampleTimeValid ++ BitVec.ofBool triggerSeen ++ BitVec.ofBool armed
    ++ BitVec.ofBool stalled ++ BitVec.ofBool irq1 ++ BitVec.ofBool irq0 ++ BitVec.ofBool busy

/-- `status_word` -/
def statusWord (s : Snapshot) (commandBusy : Bool) (irqStatus : BitVec 32) : BitVec 32 :=
  packStatus commandBusy s.firstSampleTimeValid s.triggerSeen s.armed (s.stallCycles != 0)
    (irqStatus.getLsbD 1) (irqStatus.getLsbD 0) s.busy

end QCrate.Stream
