import QCrate.R5.ConfigCommit
import QCrate.Sequence.Engine

/-!
# Loading a program

LOAD_BEGIN, LOAD_EVENT and LOAD_COMMIT of the R5 service. Each event is checked, written to the
event memory and read back before the next one is taken; the commit compares the CRC of
everything that was written and sets the event count.
-/

namespace QCrate.R5

open QCrate.Sequence

/-! ## Registers and constants -/

def seqEventCount : Word := 0x2008
def seqActiveEvent : Word := 0x200C
def seqCompletedShots : Word := 0x2010
def seqFaultInfo : Word := 0x2014
def seqTimebaseLo : Word := 0x2018
def seqTimebaseHi : Word := 0x201C
def seqStartTimeLo : Word := 0x2020
def seqStartTimeHi : Word := 0x2024
def seqElapsedLo : Word := 0x2028
def seqElapsedHi : Word := 0x202C
def seqEventMemory : Word := 0x2800

def sequenceMinEvents : Word := 2
def sequenceMaxEvents : Word := 128
def sequenceOutputMask : Word := 3
def sequenceEventSize : Word := 16

def seqLoadBeginWords : Word := 2
def seqLoadEventWords : Word := 5

def seqStatusLoadActive : Word := 0x40000000
def seqStatusCommitted : Word := 0x80000000

/-! ## CRC-32 -/

/-- One bit of `qcrate_crc32_word`. -/
def crc32WordBit (crc : Word) : Word :=
  (crc >>> 1) ^^^ (if crc &&& 1 ≠ 0 then 0xEDB88320 else 0)

/-- One byte of the loop: the CRC so far and what is left of the word. -/
def crc32WordByte (s : Word × Word) : Word × Word :=
  (Nat.iterate crc32WordBit 8 (s.1 ^^^ (s.2 &&& 0xFF)), s.2 >>> 8)

/-- `qcrate_crc32_word` -/
def crc32Word (crc word : Word) : Word := (Nat.iterate crc32WordByte 4 (crc, word)).1

/-! ## Responses -/

variable {σ : Type} (B : Bus σ)

/-- Read consecutive registers into the payload from `index` on. -/
def readPayload (offsets : List (Fin 11 × Word)) (response : Message) :
    StateM (Service σ) Message :=
  match offsets with
  | [] => pure response
  | (index, offset) :: rest => do
    let value ← regRead B offset
    readPayload rest (response.setWord index value)

/-- `qcrate_sequence_status_payload` -/
def sequenceStatusPayload (response : Message) : StateM (Service σ) Message := do
  let status ← regRead B seqStatus
  let s ← get
  let flags := (if s.sequenceLoad.active then seqStatusLoadActive else 0) |||
    (if s.sequenceLoad.committed then seqStatusCommitted else 0)
  readPayload B
    [(1, seqEventCount), (2, seqActiveEvent), (3, seqCompletedShots), (4, seqFaultInfo),
      (5, seqTimebaseLo), (6, seqTimebaseHi), (7, seqStartTimeLo), (8, seqStartTimeHi),
      (9, seqElapsedLo), (10, seqElapsedHi)]
    { response.setWord 0 (status ||| flags) with payloadWords := 11 }

/-- `qcrate_sequence_status_error` -/
def sequenceStatusError (response : Message) (status : Status) : StateM (Service σ) Message :=
  sequenceStatusPayload B { response with status := status }

def modifyLoad (f : SequenceLoadState → SequenceLoadState) : StateM (Service σ) Unit :=
  modify fun s => { s with sequenceLoad := f s.sequenceLoad }

/-- The load is given up. -/
def SequenceLoadState.dropped (load : SequenceLoadState) : SequenceLoadState :=
  { load with active := false, committed := false }

/-- A response that carries some words. -/
def Message.withWords (response : Message) (status : Status) (words : List Word) : Message :=
  { response with
    status := status, payloadWords := BitVec.ofNat 32 words.length
    payload := Vector.ofFn fun i => words.getD i (response.payload.get i) }

/-- `qcrate_sequence_load_error` -/
def sequenceLoadError (response : Message) (status : Status) (eventIndex detail : Word) :
    StateM (Service σ) Message := do
  modifyLoad SequenceLoadState.dropped
  pure (response.withWords status [eventIndex, detail])

/-! ## LOAD_BEGIN -/

/-- `qcrate_handle_seq_load_begin` -/
def handleSeqLoadBegin (request response : Message) : StateM (Service σ) Message := do
  if request.payloadWords ≠ seqLoadBeginWords then pure { response with status := .badLength }
  else
    let eventCount := request.word 0
    if eventCount < sequenceMinEvents ∨ sequenceMaxEvents < eventCount then
      sequenceLoadError response .badSequence 0 (Fault.badEventCount.setWidth 32)
    else do
      let status ← regRead B seqStatus
      if status &&& (seqHwIdle ||| seqHwCommandBusy ||| seqHwMemoryLocked ||| seqHwFaulted) ≠
          seqHwIdle then
        sequenceStatusError B response .badState
      else do
        modifyLoad fun _ =>
          { active := true, committed := false, expectedEvents := eventCount, nextEvent := 0
            expectedCrc32 := request.word 1, crc32State := BitVec.allOnes 32
            previousTimestamp := 0, previousState := 0 }
        pure (response.withWords response.status [eventCount, request.word 1])

/-! ## LOAD_EVENT -/

/-- `qcrate_sequence_validate_event`: the fault, or `Fault.none`. -/
def sequenceValidateEvent (load : SequenceLoadState) (index : Word) (timestamp : BitVec 64)
    (outputState flags : Word) : BitVec 8 :=
  if outputState &&& ~~~sequenceOutputMask ≠ 0 then Fault.reservedState
  else if flags ≠ 0 then Fault.reservedFlags
  else if outputState = load.previousState then Fault.noStateChange
  else if index ≠ 0 ∧ timestamp ≤ load.previousTimestamp then Fault.timeOrder
  else if index + 1 = load.expectedEvents ∧ outputState ≠ 0 then Fault.unsafeFinal
  else Fault.none

/-- The loop over the four words, from word `wordIndex` on: each is written, read back and
counted into the CRC. The result is the word that did not read back. -/
def writeEventWords (eventIndex : Word) :
    Word → List Word → StateM (Service σ) (Option (Word × Word × Word))
  | _, [] => pure none
  | wordIndex, word :: rest => do
    let offset := seqEventMemory + eventIndex * sequenceEventSize + wordIndex * 4
    regWrite B offset word
    let readback ← regRead B offset
    if readback ≠ word then pure (some (wordIndex, word, readback))
    else do
      modifyLoad fun load => { load with crc32State := crc32Word load.crc32State word }
      writeEventWords eventIndex (wordIndex + 1) rest

/-- The event is taken: write it and remember it. -/
def storeEvent (eventIndex : Word) (timestamp : BitVec 64) (words : List Word)
    (outputState : Word) (response : Message) : StateM (Service σ) Message := do
  let mismatch ← writeEventWords B eventIndex 0 words
  match mismatch with
  | some (wordIndex, word, readback) => do
    modifyLoad SequenceLoadState.dropped
    pure (response.withWords .sequenceVerify [eventIndex, wordIndex, word, readback])
  | none => do
    modifyLoad fun load =>
      { load with
        previousTimestamp := timestamp, previousState := outputState
        nextEvent := load.nextEvent + 1 }
    pure (response.withWords response.status [eventIndex])

/-- `qcrate_handle_seq_load_event` -/
def handleSeqLoadEvent (request response : Message) : StateM (Service σ) Message := do
  let s ← get
  let load := s.sequenceLoad
  if request.payloadWords ≠ seqLoadEventWords then pure { response with status := .badLength }
  else if !load.active then sequenceStatusError B response .badState
  else
    let eventIndex := request.word 0
    if eventIndex ≠ load.nextEvent ∨ load.expectedEvents ≤ eventIndex then
      sequenceLoadError response .badIndex eventIndex load.nextEvent
    else
      let words := [request.word 1, request.word 2, request.word 3,
        request.word 4]
      let timestamp := request.word 2 ++ request.word 1
      let fault :=
        sequenceValidateEvent load eventIndex timestamp (request.word 3) (request.word 4)
      if fault ≠ Fault.none then
        sequenceLoadError response .badSequence eventIndex (fault.setWidth 32)
      else storeEvent B eventIndex timestamp words (request.word 3) response

/-! ## LOAD_COMMIT -/

/-- `qcrate_handle_seq_load_commit` -/
def handleSeqLoadCommit (request response : Message) : StateM (Service σ) Message := do
  let s ← get
  let load := s.sequenceLoad
  if request.payloadWords ≠ 0 then pure { response with status := .badLength }
  else if !load.active ∨ load.nextEvent ≠ load.expectedEvents then
    sequenceLoadError response .badState load.nextEvent load.expectedEvents
  else
    let actualCrc32 := load.crc32State ^^^ BitVec.allOnes 32
    if actualCrc32 ≠ load.expectedCrc32 then do
      modifyLoad SequenceLoadState.dropped
      pure (response.withWords .sequenceCrc [load.expectedCrc32, actualCrc32])
    else do
      regWrite B seqEventCount load.expectedEvents
      let readback ← regRead B seqEventCount
      if readback ≠ load.expectedEvents then do
        modifyLoad SequenceLoadState.dropped
        pure (response.withWords .sequenceVerify [load.expectedEvents, readback])
      else do
        modifyLoad fun load => { load with active := false, committed := true }
        pure (response.withWords response.status [load.expectedEvents, actualCrc32])

end QCrate.R5
