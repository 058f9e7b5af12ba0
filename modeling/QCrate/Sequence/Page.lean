import QCrate.R5.SequenceLoad

/-!
# The sequence page as the R5 sees it

`qcrate_sequence_regs.sv` answers a register access from its control registers, the last status
snapshot and the event memory. The event memory and the event count can be written while no
command is in flight and the memory is not locked.
-/

namespace QCrate.Sequence

open QCrate.R5

/-- What an access to the page can depend on. `report` are the registers that only report, by
offset. -/
structure Page where
  memory : Memory
  eventCount : BitVec 8
  memoryLocked : Bool
  commandBusy : Bool
  faulted : Bool
  busy : Bool
  armed : Bool
  validating : Bool
  idle : Bool
  report : Word → Word

namespace Page

def unmappedPrdata : Word := 0xDEADBEEF

/-- `memory_access_allowed` -/
def memoryAccessAllowed (p : Page) : Bool := !p.memoryLocked && !p.commandBusy

/-- `status_word` -/
def statusWord (p : Page) : Word :=
  (0 : BitVec 22) ++ BitVec.ofBool p.memoryLocked ++ BitVec.ofBool p.commandBusy ++ (0 : BitVec 3)
    ++ BitVec.ofBool p.faulted ++ BitVec.ofBool p.busy ++ BitVec.ofBool p.armed
    ++ BitVec.ofBool p.validating ++ BitVec.ofBool p.idle

/-- `event_window` of the page at 0x2000. -/
def eventWindow (offset : Word) : Bool := offset.extractLsb' 11 21 = 5

/-- `ram_addr_o` -/
def ramAddr (offset : Word) : BitVec 9 := offset.extractLsb' 2 9

def read (p : Page) (offset : Word) : Word :=
  if eventWindow offset then
    if p.memoryAccessAllowed then p.memory (ramAddr offset) else unmappedPrdata
  else if offset = seqStatus then p.statusWord
  else if offset = seqEventCount then p.eventCount.setWidth 32
  else p.report offset

def write (p : Page) (offset value : Word) : Page :=
  if !p.memoryAccessAllowed then p
  else if eventWindow offset then
    { p with memory := Function.update p.memory (ramAddr offset) value }
  else if offset = seqEventCount then { p with eventCount := value.setWidth 8 }
  else p

/-- The engine rests and the memory is free: the state LOAD_BEGIN asks for. -/
structure Free (p : Page) : Prop where
  idle : p.idle = true
  faulted : p.faulted = false
  commandBusy : p.commandBusy = false
  memoryLocked : p.memoryLocked = false

end Page

/-- The page behind the register window of the R5. -/
def pageBus : Bus Page where
  read offset p := (p.read offset, p)
  write offset value p := p.write offset value
  pollsLeft _ := 0

end QCrate.Sequence
