import QCrate.Sequence.Engine

/-!
# The register block of the sequencer

`qcrate_sequence_regs.sv`: one APB access at a time, with the lock on the event memory. Every
update reads the registers before the edge `s` and rewrites the next ones `n`, in the order of the
source, so that a later update wins.

* `Regs.memoryLocked_edge`, `Regs.unlockPending_edge` — the lock and its pending release: ARM and
  SOFT_RESET set them, and `Regs.unlocks` clears both.
* `Regs.command_edge` — a command line only rises for an access that found no command in flight.
-/

namespace QCrate.Sequence

/-! ## What the block sees -/

structure ApbIn where
  paddr : BitVec 12
  psel : Bool
  penable : Bool
  pwrite : Bool
  pwdata : BitVec 32
  deriving DecidableEq, Repr

/-- What `qcrate_sequence_status_cdc.sv` carries. -/
structure Status where
  idle : Bool
  validating : Bool
  armed : Bool
  busy : Bool
  faulted : Bool
  faultCode : BitVec 8
  faultEventIndex : BitVec 7
  activeEventIndex : BitVec 7
  completedShots : BitVec 32
  timebase : BitVec 64
  startTime : BitVec 64
  elapsedTick : BitVec 64
  deriving DecidableEq, Repr

/-- The outputs of the engine that its status is sampled from. -/
def Engine.status (s : Engine) (timebase : BitVec 64) : Status :=
  { idle := s.state = .idle
    validating := s.state = .validate || s.state = .prefetch
    armed := s.state = .armed
    busy := s.state = .run
    faulted := s.state = .fault
    faultCode := s.faultCode
    faultEventIndex := s.faultEventIndex
    activeEventIndex := s.activeEventIndex
    completedShots := s.completedShots
    timebase := timebase
    startTime := s.startTime
    elapsedTick := s.elapsedTick }

/-- The status that is shown after a reset, and the one a reset handshake holds. -/
def Status.reset (idle : Bool) : Status := ⟨idle, false, false, false, false, 0, 0, 0, 0, 0, 0, 0⟩

/-- What `qcrate_sequence_command_cdc.sv` carries. -/
structure Command where
  eventCount : BitVec 8
  externalTriggerEnable : Bool
  arm : Bool
  start : Bool
  abort : Bool
  softReset : Bool
  deriving DecidableEq, Repr

namespace Command

def reset : Command := ⟨0, false, false, false, false, false⟩

/-- One of the four commands is there. -/
def any (c : Command) : Bool := c.arm || c.start || c.abort || c.softReset

end Command

/-- Inputs sampled by one edge of `pclk_i`. -/
structure RegsIn where
  apb : ApbIn
  commandBusy : Bool
  doneEvent : Bool
  abortedEvent : Bool
  status : Status
  ramRvalid : Bool
  ramRdata : BitVec 32
  deriving DecidableEq, Repr

structure Regs where
  eventCount : BitVec 8
  externalTriggerEnable : Bool
  armCmd : Bool
  startCmd : Bool
  abortCmd : Bool
  softResetCmd : Bool
  memoryReadPending : Bool
  memoryReadReady : Bool
  apbAccessSeen : Bool
  memoryLocked : Bool
  unlockPending : Bool
  memoryReadData : BitVec 32
  timebaseHighLatch : BitVec 32
  startTimeHighLatch : BitVec 32
  elapsedHighLatch : BitVec 32
  deriving DecidableEq, Repr

namespace ApbIn

/-! ## Decoding -/

def apbAccess (a : ApbIn) : Bool := a.psel && a.penable

def eventWindow (a : ApbIn) : Bool := a.paddr.getLsbD 11

/-- `pwdata_i[3:0]` -/
def commandBits (a : ApbIn) : BitVec 4 := a.pwdata.setWidth 4

def commandRequested (a : ApbIn) : Bool := a.commandBits ≠ 0

def commandEncodingValid (a : ApbIn) : Bool :=
  a.commandBits = 0 || a.commandBits = 1 || a.commandBits = 2 || a.commandBits = 4 ||
    a.commandBits = 8

/-- `ram_addr_o` -/
def ramAddr (a : ApbIn) : BitVec 9 := a.paddr.extractLsb' 2 9

end ApbIn

def addrControl : BitVec 12 := 0x000
def addrStatus : BitVec 12 := 0x004
def addrEventCount : BitVec 12 := 0x008
def addrActiveEvent : BitVec 12 := 0x00C
def addrCompletedShots : BitVec 12 := 0x010
def addrFaultInfo : BitVec 12 := 0x014
def addrTimebaseLo : BitVec 12 := 0x018
def addrTimebaseHi : BitVec 12 := 0x01C
def addrStartTimeLo : BitVec 12 := 0x020
def addrStartTimeHi : BitVec 12 := 0x024
def addrElapsedLo : BitVec 12 := 0x028
def addrElapsedHi : BitVec 12 := 0x02C

namespace Regs

def reset : Regs :=
  ⟨0, false, false, false, false, false, false, false, false, false, false, 0, 0, 0, 0⟩

/-! ## Combinational outputs -/

def apbTransfer (s : Regs) (i : RegsIn) : Bool := i.apb.apbAccess && !s.apbAccessSeen

def memoryAccessAllowed (s : Regs) (i : RegsIn) : Bool := !s.memoryLocked && !i.commandBusy

def controlWord (s : Regs) : BitVec 32 :=
  (0 : BitVec 23) ++ BitVec.ofBool s.externalTriggerEnable ++ (0 : BitVec 8)

def statusWord (s : Regs) (i : RegsIn) : BitVec 32 :=
  (0 : BitVec 22) ++ BitVec.ofBool s.memoryLocked ++ BitVec.ofBool i.commandBusy ++ (0 : BitVec 3)
    ++ BitVec.ofBool i.status.faulted ++ BitVec.ofBool i.status.busy
    ++ BitVec.ofBool i.status.armed ++ BitVec.ofBool i.status.validating
    ++ BitVec.ofBool i.status.idle

def faultInfoWord (i : RegsIn) : BitVec 32 :=
  (0 : BitVec 9) ++ i.status.faultEventIndex ++ (0 : BitVec 8) ++ i.status.faultCode

def unmappedPrdata : BitVec 32 := 0xDEADBEEF

/-- `addr_mapped` -/
def addrMapped (i : RegsIn) : Bool :=
  i.apb.eventWindow || [addrControl, addrStatus, addrEventCount, addrActiveEvent,
    addrCompletedShots, addrFaultInfo, addrTimebaseLo, addrTimebaseHi, addrStartTimeLo,
    addrStartTimeHi, addrElapsedLo, addrElapsedHi].contains i.apb.paddr

/-- `write_allowed` -/
def writeAllowed (s : Regs) (i : RegsIn) : Bool :=
  if i.apb.eventWindow then s.memoryAccessAllowed i
  else if i.apb.paddr = addrControl then
    i.apb.commandEncodingValid && (!i.apb.commandRequested || !i.commandBusy)
  else if i.apb.paddr = addrEventCount then s.memoryAccessAllowed i
  else false

def prdata (s : Regs) (i : RegsIn) : BitVec 32 :=
  if i.apb.eventWindow then
    if s.memoryAccessAllowed i then s.memoryReadData else unmappedPrdata
  else if i.apb.paddr = addrControl then s.controlWord
  else if i.apb.paddr = addrStatus then s.statusWord i
  else if i.apb.paddr = addrEventCount then s.eventCount.setWidth 32
  else if i.apb.paddr = addrActiveEvent then i.status.activeEventIndex.setWidth 32
  else if i.apb.paddr = addrCompletedShots then i.status.completedShots
  else if i.apb.paddr = addrFaultInfo then faultInfoWord i
  else if i.apb.paddr = addrTimebaseLo then i.status.timebase.setWidth 32
  else if i.apb.paddr = addrTimebaseHi then s.timebaseHighLatch
  else if i.apb.paddr = addrStartTimeLo then i.status.startTime.setWidth 32
  else if i.apb.paddr = addrStartTimeHi then s.startTimeHighLatch
  else if i.apb.paddr = addrElapsedLo then i.status.elapsedTick.setWidth 32
  else if i.apb.paddr = addrElapsedHi then s.elapsedHighLatch
  else unmappedPrdata

def pready (s : Regs) (i : RegsIn) : Bool :=
  if i.apb.eventWindow && !i.apb.pwrite && s.memoryAccessAllowed i then s.memoryReadReady else true

def pslverr (s : Regs) (i : RegsIn) : Bool :=
  i.apb.apbAccess && (!addrMapped i || (i.apb.pwrite && !s.writeAllowed i) ||
    (i.apb.eventWindow && !s.memoryAccessAllowed i))

/-- `ram_en_o`; `ram_write_o`, `ram_addr_o` and `ram_wdata_o` are wires of the bus. -/
def ramEn (s : Regs) (i : RegsIn) : Bool :=
  s.apbTransfer i && i.apb.eventWindow && s.memoryAccessAllowed i &&
    (i.apb.pwrite || (!s.memoryReadPending && !s.memoryReadReady))

/-- The command lines, as the command crossing sees them. -/
def command (s : Regs) : Command :=
  ⟨s.eventCount, s.externalTriggerEnable, s.armCmd, s.startCmd, s.abortCmd, s.softResetCmd⟩

/-! ## One edge -/

/-- The command lines are pulses, and an access is served once. -/
def nextAccess (i : RegsIn) (n : Regs) : Regs :=
  { n with
    armCmd := false, startCmd := false, abortCmd := false, softResetCmd := false
    apbAccessSeen := i.apb.apbAccess }

/-- The lock opens when the engine reports an end, or rests after a reset command. -/
def unlock (s : Regs) (i : RegsIn) (n : Regs) : Regs :=
  if i.doneEvent || i.abortedEvent then { n with memoryLocked := false, unlockPending := false }
  else if s.unlockPending && !i.commandBusy && i.status.idle then
    { n with memoryLocked := false, unlockPending := false }
  else n

def memoryRead (s : Regs) (i : RegsIn) (n : Regs) : Regs :=
  if !i.apb.psel then { n with memoryReadPending := false, memoryReadReady := false }
  else
    let n := if s.ramEn i && !i.apb.pwrite then { n with memoryReadPending := true } else n
    if i.ramRvalid then
      { n with memoryReadPending := false, memoryReadReady := true, memoryReadData := i.ramRdata }
    else n

def latchHigh (s : Regs) (i : RegsIn) (n : Regs) : Regs :=
  if s.apbTransfer i && !i.apb.pwrite && s.pready i then
    if i.apb.paddr = addrTimebaseLo then
      { n with timebaseHighLatch := i.status.timebase.extractLsb' 32 32 }
    else if i.apb.paddr = addrStartTimeLo then
      { n with startTimeHighLatch := i.status.startTime.extractLsb' 32 32 }
    else if i.apb.paddr = addrElapsedLo then
      { n with elapsedHighLatch := i.status.elapsedTick.extractLsb' 32 32 }
    else n
  else n

/-- The register of an accepted write. ARM locks the memory whatever opened it on this edge. -/
def registerWrite (s : Regs) (i : RegsIn) (n : Regs) : Regs :=
  if s.apbTransfer i && i.apb.pwrite && s.writeAllowed i && !i.apb.eventWindow then
    if i.apb.paddr = addrControl then
      { n with
        externalTriggerEnable := i.apb.pwdata.getLsbD 8
        armCmd := i.apb.pwdata.getLsbD 0
        startCmd := i.apb.pwdata.getLsbD 1
        abortCmd := i.apb.pwdata.getLsbD 2
        softResetCmd := i.apb.pwdata.getLsbD 3
        memoryLocked := i.apb.pwdata.getLsbD 0 || n.memoryLocked
        unlockPending := i.apb.pwdata.getLsbD 3 || n.unlockPending }
    else if i.apb.paddr = addrEventCount then
      { n with eventCount := i.apb.pwdata.setWidth 8 }
    else n
  else n

/-- The registers after one edge of `pclk_i`, outside a reset. -/
def edge (s : Regs) (i : RegsIn) : Regs :=
  s.registerWrite i (s.latchHigh i (s.memoryRead i (s.unlock i (nextAccess i s))))

/-! ## What an edge does to the lock and the command lines -/

/-- The lock opens at this edge, unless ARM closes it. -/
def unlocks (s : Regs) (i : RegsIn) : Bool :=
  i.doneEvent || i.abortedEvent || (s.unlockPending && !i.commandBusy && i.status.idle)

variable {s n : Regs} {i : RegsIn}

theorem unlock_eq : s.unlock i n =
    if s.unlocks i then { n with memoryLocked := false, unlockPending := false } else n := by
  unfold unlock unlocks
  by_cases h : (i.doneEvent || i.abortedEvent) = true
  · simp [h]
  · simp [h]

/-- The read path is all that differs. -/
structure SameControl (n n' : Regs) : Prop where
  command : n.command = n'.command
  apbAccessSeen : n.apbAccessSeen = n'.apbAccessSeen
  memoryLocked : n.memoryLocked = n'.memoryLocked
  unlockPending : n.unlockPending = n'.unlockPending

theorem memoryRead_sameControl : SameControl (s.memoryRead i n) n := by
  unfold memoryRead
  repeat' split
  all_goals exact ⟨rfl, rfl, rfl, rfl⟩

theorem latchHigh_sameControl : SameControl (s.latchHigh i n) n := by
  unfold latchHigh
  repeat' split
  all_goals exact ⟨rfl, rfl, rfl, rfl⟩

/-- The registers before the write of the bus is taken up. -/
theorem beforeWrite_sameControl :
    SameControl (s.latchHigh i (s.memoryRead i (s.unlock i (nextAccess i s))))
      { nextAccess i s with
        memoryLocked := s.memoryLocked && !s.unlocks i
        unlockPending := s.unlockPending && !s.unlocks i } := by
  obtain ⟨hc, ha, hl, hu⟩ :=
    latchHigh_sameControl (s := s) (i := i) (n := s.memoryRead i (s.unlock i (nextAccess i s)))
  obtain ⟨hc', ha', hl', hu'⟩ :=
    memoryRead_sameControl (s := s) (i := i) (n := s.unlock i (nextAccess i s))
  have h : SameControl (s.unlock i (nextAccess i s))
      { nextAccess i s with
        memoryLocked := s.memoryLocked && !s.unlocks i
        unlockPending := s.unlockPending && !s.unlocks i } := by
    rw [unlock_eq]
    cases s.unlocks i <;> simp only [Bool.false_eq_true, if_false, if_true, Bool.not_false,
      Bool.not_true, Bool.and_true, Bool.and_false] <;> exact ⟨rfl, rfl, rfl, rfl⟩
  exact ⟨(hc.trans hc').trans h.command, (ha.trans ha').trans h.apbAccessSeen,
    (hl.trans hl').trans h.memoryLocked, (hu.trans hu').trans h.unlockPending⟩

theorem apbAccessSeen_edge : (s.edge i).apbAccessSeen = i.apb.apbAccess := by
  have h := (beforeWrite_sameControl (s := s) (i := i)).apbAccessSeen
  unfold edge registerWrite
  repeat' split
  all_goals exact h

/-- ARM locks the memory whatever opens it on the same edge. -/
theorem memoryLocked_edge :
    (s.edge i).memoryLocked = ((s.edge i).armCmd || (s.memoryLocked && !s.unlocks i)) := by
  obtain ⟨hc, -, hl, -⟩ := beforeWrite_sameControl (s := s) (i := i)
  have ha := congrArg Command.arm hc
  unfold edge registerWrite
  split
  · split
    · exact congrArg (_ || ·) hl
    · split
      all_goals exact hl.trans (congrArg (· || _) ha.symm)
  · exact hl.trans (congrArg (· || _) ha.symm)

theorem unlockPending_edge :
    (s.edge i).unlockPending =
      ((s.edge i).softResetCmd || (s.unlockPending && !s.unlocks i)) := by
  obtain ⟨hc, -, -, hu⟩ := beforeWrite_sameControl (s := s) (i := i)
  have ha := congrArg Command.softReset hc
  unfold edge registerWrite
  split
  · split
    · exact congrArg (_ || ·) hu
    · split
      all_goals exact hu.trans (congrArg (· || _) ha.symm)
  · exact hu.trans (congrArg (· || _) ha.symm)

theorem getLsbD_commandBits (a : ApbIn) {k : ℕ} (hk : k < 4) :
    a.pwdata.getLsbD k = a.commandBits.getLsbD k := by
  simp [ApbIn.commandBits, hk]

/-- A command line only rises for a new access that found no command in flight, and never
together with another one. -/
theorem command_edge (h : (s.edge i).command.any = true) :
    s.apbAccessSeen = false ∧ i.apb.apbAccess = true ∧ i.commandBusy = false ∧
      ((s.edge i).command.arm = true → (s.edge i).command.softReset = false) := by
  have hc := (beforeWrite_sameControl (s := s) (i := i)).command
  have hnone : (s.latchHigh i (s.memoryRead i (s.unlock i (nextAccess i s)))).command.any =
      false := by
    rw [hc]
    rfl
  unfold edge registerWrite at h ⊢
  split at h
  · next hw =>
    split at h
    · next hp =>
      rw [if_pos hw, if_pos hp]
      simp only [Bool.and_eq_true, Bool.not_eq_true'] at hw
      obtain ⟨⟨⟨ht, -⟩, hallow⟩, hwin⟩ := hw
      simp only [apbTransfer, Bool.and_eq_true, Bool.not_eq_true'] at ht
      simp only [writeAllowed, hwin, hp, Bool.false_eq_true, if_false, if_true, Bool.and_eq_true,
        Bool.or_eq_true, Bool.not_eq_true'] at hallow
      obtain ⟨hvalid, hbusy⟩ := hallow
      simp only [Command.any, command, getLsbD_commandBits _ (show 0 < 4 by decide),
        getLsbD_commandBits _ (show 1 < 4 by decide), getLsbD_commandBits _ (show 2 < 4 by decide),
        getLsbD_commandBits _ (show 3 < 4 by decide)] at h ⊢
      simp only [ApbIn.commandEncodingValid, Bool.or_eq_true, decide_eq_true_eq] at hvalid
      have hrequested : i.apb.commandRequested = true := by
        simp only [ApbIn.commandRequested, decide_eq_true_eq]
        intro h0
        rw [h0] at h
        exact absurd h (by decide)
      refine ⟨ht.2, ht.1, hbusy.resolve_left (by simp [hrequested]), fun harm => ?_⟩
      rcases hvalid with (((hv | hv) | hv) | hv) | hv <;> rw [hv] at harm ⊢ <;>
        first
        | rfl
        | exact absurd harm (by decide)
    · split at h
      all_goals exact absurd (hnone.symm.trans h) Bool.false_ne_true
  · exact absurd (hnone.symm.trans h) Bool.false_ne_true

/-- A write only reaches the event memory while it is not locked and no command is in flight. -/
theorem ramEn_allowed (h : s.ramEn i = true) :
    s.memoryLocked = false ∧ i.commandBusy = false ∧ s.apbAccessSeen = false := by
  simp only [ramEn, apbTransfer, memoryAccessAllowed, Bool.and_eq_true, Bool.not_eq_true'] at h
  exact ⟨h.1.2.1, h.1.2.2, h.1.1.1.2⟩

end Regs

end QCrate.Sequence
