import QCrate.R5.Requests

/-!
# What one message writes to the PL

Over any register window, whatever it answers.

* `Transaction` — the register writes of one message.
* `Yields` — what a computation writes and what it leaves in the statics, with a rule for each way
  to put computations together.
* `Turn` — one message as a step of the two statics.
* `serves_handleRequest` — every message is such a step.
-/

namespace QCrate.R5

/-! ## Transactions -/

/-- The stream page as a commit finds it. -/
structure Geometry where
  length : Word
  count : Word
  mode : Word
  deriving DecidableEq, Repr

/-- Where CONFIG_COMMIT ends. -/
inductive CommitEnd where
  | streamPage | shadowPage | rejected | left
  deriving DecidableEq, Repr

/-- The register writes of one message. -/
inductive Transaction where
  | silent
  | scratch (value original : Word)
  | control (value : Word)
  | event (index : Word) (words : List Word)
  | count (value : Word)
  | discard
  | config (words : ConfigWords) (ending : CommitEnd) (before : Geometry)
  deriving DecidableEq, Repr

/-- Consecutive registers from `offset` on. -/
def wordWrites : Word → List Word → List (Word × Word)
  | _, [] => []
  | offset, word :: rest => (offset, word) :: wordWrites (offset + 4) rest

/-- The words of an event, from word `wordIndex` on. -/
def eventWrites (eventIndex : Word) : Word → List Word → List (Word × Word)
  | _, [] => []
  | wordIndex, word :: rest =>
    (seqEventMemory + eventIndex * sequenceEventSize + wordIndex * 4, word) ::
      eventWrites eventIndex (wordIndex + 1) rest

def Geometry.writes (g : Geometry) : List (Word × Word) :=
  [(streamFrameLength, g.length), (streamFrameCount, g.count), (streamMode, g.mode)]

def ConfigWords.geometry (words : ConfigWords) : Geometry :=
  ⟨words.get configFrameLengthWord, words.get configFrameCountWord, streamModeDsp⟩

/-- The DSP page is discarded and filled. -/
def fillWrites (words : ConfigWords) : List (Word × Word) :=
  (dspCommand, dspCommandDiscard) :: wordWrites dspShadowBase (dspWords words)

def CommitEnd.writes (words : ConfigWords) (before : Geometry) : CommitEnd → List (Word × Word)
  | .streamPage => before.writes
  | .shadowPage => fillWrites words ++ (dspCommand, dspCommandDiscard) :: before.writes
  | .rejected =>
    fillWrites words ++
      (dspCommand, dspCommandCommit) :: (dspCommand, dspCommandDiscard) :: before.writes
  | .left => fillWrites words ++ [(dspCommand, dspCommandCommit)]

def Transaction.writes : Transaction → List (Word × Word)
  | .silent => []
  | .scratch value original => [(sysScratch, value), (sysScratch, original)]
  | .control value => [(seqControl, value)]
  | .event index words => eventWrites index 0 words
  | .count value => [(seqEventCount, value)]
  | .discard => [(dspCommand, dspCommandDiscard)]
  | .config words ending before => words.geometry.writes ++ ending.writes words before

/-- The event that a transaction writes. -/
def Transaction.stored : Transaction → Option (Word × List Word)
  | .event index words => some (index, words)
  | _ => none

/-! ## Computations -/

variable {σ : Type} (B : Bus σ) {α β : Type} {load : SequenceLoadState} {config : ConfigState}
variable {m : StateM (Service σ) α} {f : α → StateM (Service σ) β}
variable {Q : List (Word × Word) → SequenceLoadState → ConfigState → Prop}

/-- A computation that only reads registers. -/
def Reads (m : StateM (Service σ) α) : Prop := ∀ s,
  (m s).2.writes = s.writes ∧ (m s).2.sequenceLoad = s.sequenceLoad ∧ (m s).2.config = s.config

/-- An answer that is there needs no read. -/
theorem reads_pure (a : α) : Reads (pure a : StateM (Service σ) α) := fun _ => ⟨rfl, rfl, rfl⟩

/-- Computations that only read are put together. -/
theorem reads_bind (hm : Reads m) (hf : ∀ a, Reads (f a)) : Reads (m >>= f) := fun s => by
  obtain ⟨hwrites, hload, hconfig⟩ := hm s
  obtain ⟨hwrites', hload', hconfig'⟩ := hf (m s).1 (m s).2
  exact ⟨hwrites'.trans hwrites, hload'.trans hload, hconfig'.trans hconfig⟩

theorem reads_get {f : Service σ → StateM (Service σ) α} (hf : ∀ s, Reads (f s)) :
    Reads (get >>= f) := fun s => hf s s

theorem reads_ite {c : Prop} [Decidable c] {m m' : StateM (Service σ) α} (h : Reads m)
    (h' : Reads m') : Reads (if c then m else m') := by
  split
  · exact h
  · exact h'

theorem reads_regRead (offset : Word) : Reads (regRead B offset) := fun _ => ⟨rfl, rfl, rfl⟩

/-- The registers of a payload are read one by one. -/
theorem reads_readPayload : ∀ (offsets : List (Fin 11 × Word)) (response : Message),
    Reads (readPayload B offsets response)
  | [], _ => reads_pure _
  | _ :: rest, _ => reads_bind (reads_regRead B _) fun _ => reads_readPayload rest _

theorem reads_sequenceStatusPayload (response : Message) :
    Reads (sequenceStatusPayload B response) :=
  reads_bind (reads_regRead B _) fun _ => reads_get fun _ => reads_readPayload B _ _

/-- The bracket of the generation reads up to three times. -/
theorem reads_readActive : ∀ (n : ℕ) (response : Message) (generation : Word),
    Reads (readActive B n response generation)
  | 0, _, _ => reads_pure _
  | n + 1, _, _ =>
    reads_bind (reads_regRead B _) fun _ => reads_bind (reads_regRead B _) fun _ =>
      reads_bind (reads_regRead B _) fun _ => reads_bind (reads_regRead B _) fun _ =>
      reads_bind (reads_regRead B _) fun _ => reads_bind (reads_regRead B _) fun _ =>
      reads_ite (reads_pure _) (reads_readActive n _ _)

theorem reads_configStatusPayload (response : Message) : Reads (configStatusPayload B response) :=
  reads_get fun _ => reads_bind (reads_readActive B _ _ _) fun _ =>
    reads_bind (reads_regRead B _) fun _ => reads_bind (reads_regRead B _) fun _ =>
    reads_bind (reads_regRead B _) fun _ => reads_bind (reads_regRead B _) fun _ => reads_pure _

theorem reads_pollCommit (generationBefore : Word) : Reads (pollCommit B generationBefore) :=
  reads_bind (reads_regRead B _) fun _ => reads_ite (reads_pure _)
    (reads_ite (reads_bind (reads_regRead B _) fun _ => reads_pure _) (reads_pure _))

/-- However many polls the commit takes. -/
theorem reads_waitForCommit (generationBefore : Word) : ∀ n,
    Reads (waitForCommit B generationBefore n)
  | 0 => reads_bind (reads_pollCommit B _) fun _ => reads_pure _
  | n + 1 => reads_bind (reads_pollCommit B _) fun outcome => by
    cases outcome with
    | some outcome => exact reads_pure _
    | none => exact reads_waitForCommit generationBefore n

/-- A comparison stops at the first word that differs. -/
theorem reads_regWordsMatch : ∀ (words : List Word) (offset : Word),
    Reads (regWordsMatch B offset words)
  | [], _ => reads_pure _
  | _ :: rest, _ => reads_bind (reads_regRead B _) fun _ =>
    reads_ite (reads_regWordsMatch rest _) (reads_pure _)

theorem reads_regsMatch : ∀ registers : List (Word × Word), Reads (regsMatch B registers)
  | [] => reads_pure _
  | _ :: rest => reads_bind (reads_regRead B _) fun _ => reads_ite (reads_regsMatch rest)
    (reads_pure _)

theorem reads_pollSequence (condition : SequenceWait) (completedBefore : Word) :
    Reads (pollSequence B condition completedBefore) := by
  refine reads_bind (reads_regRead B _) fun status => reads_ite (reads_pure _) ?_
  refine reads_bind ?_ fun _ => reads_pure _
  cases condition with
  | armed => exact reads_pure _
  | started =>
    exact reads_ite (reads_pure _) (reads_bind (reads_regRead B _) fun _ => reads_pure _)
  | idle => exact reads_pure _

/-- However many polls the command takes. -/
theorem reads_sequenceWait (condition : SequenceWait) (completedBefore : Word) : ∀ n,
    Reads (sequenceWait B condition completedBefore n)
  | 0 => reads_bind (reads_pollSequence B _ _) fun _ => reads_pure _
  | n + 1 => reads_bind (reads_pollSequence B _ _) fun outcome => by
    cases outcome with
    | some outcome => exact reads_pure _
    | none => exact reads_sequenceWait condition completedBefore n

/-- From these statics, what is written and what is left in the statics. -/
def Yields (load : SequenceLoadState) (config : ConfigState) (m : StateM (Service σ) α)
    (Q : List (Word × Word) → SequenceLoadState → ConfigState → Prop) : Prop :=
  ∀ s, s.sequenceLoad = load → s.config = config → ∃ written,
    (m s).2.writes = s.writes ++ written ∧ Q written (m s).2.sequenceLoad (m s).2.config

/-- What only reads has no writes and keeps the statics. -/
theorem yields_reads (hm : Reads m) (hq : Q [] load config) : Yields load config m Q := by
  rintro s rfl rfl
  obtain ⟨hwrites, hload, hconfig⟩ := hm s
  refine ⟨[], hwrites.trans (List.append_nil _).symm, ?_⟩
  rw [hload, hconfig]
  exact hq

/-- Reads come first, with any answer. -/
theorem yields_after_reads (hm : Reads m) (hf : ∀ a, Yields load config (f a) Q) :
    Yields load config (m >>= f) Q := by
  rintro s rfl rfl
  obtain ⟨hwrites, hload, hconfig⟩ := hm s
  obtain ⟨written, hwritten, hq⟩ := hf (m s).1 (m s).2 hload hconfig
  exact ⟨written, hwritten.trans (congrArg (· ++ written) hwrites), hq⟩

/-- The rest may depend on the statics as they are. -/
theorem yields_get {f : Service σ → StateM (Service σ) α}
    (hf : ∀ s, s.sequenceLoad = load → s.config = config → Yields load config (f s) Q) :
    Yields load config (get >>= f) Q := fun s hload hconfig => hf s hload hconfig s hload hconfig

/-- A write comes first. -/
theorem yields_after_write {offset value : Word} {f : Unit → StateM (Service σ) α}
    (hf : Yields load config (f ()) fun written => Q ((offset, value) :: written)) :
    Yields load config (regWrite B offset value >>= f) Q := by
  rintro s rfl rfl
  obtain ⟨written, hwritten, hq⟩ := hf (regWrite B offset value s).2 rfl rfl
  refine ⟨(offset, value) :: written, hwritten.trans ?_, hq⟩
  show (s.writes ++ [(offset, value)]) ++ written = _
  rw [List.append_assoc, List.singleton_append]

/-- The statics of the load change first. -/
theorem yields_after_load {g : SequenceLoadState → SequenceLoadState}
    {f : Unit → StateM (Service σ) α} (hf : Yields (g load) config (f ()) Q) :
    Yields load config (modifyLoad g >>= f) Q := by
  rintro s rfl rfl
  exact hf (modifyLoad g s).2 rfl rfl

/-- The statics of the configuration change first. -/
theorem yields_after_config {g : ConfigState → ConfigState} {f : Unit → StateM (Service σ) α}
    (hf : Yields load (g config) (f ()) Q) : Yields load config (modifyConfig g >>= f) Q := by
  rintro s rfl rfl
  exact hf (modifyConfig g s).2 rfl rfl

/-- The reason of the configuration changes first. -/
theorem yields_after_reason {reason : ConfigReason} {f : Unit → StateM (Service σ) α}
    (hf : Yields load { config with reason := reason } (f ()) Q) :
    Yields load config (setReason reason >>= f) Q :=
  yields_after_config (g := fun config => { config with reason := reason }) hf

/-- Consecutive words are written first. -/
theorem yields_after_writeWords {f : Unit → StateM (Service σ) α} : ∀ (words : List Word)
    (offset : Word) {Q : List (Word × Word) → SequenceLoadState → ConfigState → Prop}
    (_ : Yields load config (f ()) fun written => Q (wordWrites offset words ++ written)),
    Yields load config (regWriteWords B offset words >>= f) Q
  | [], _, _, hf => hf
  | word :: rest, offset, Q, hf => by
    show Yields load config (regWrite B offset word >>= fun _ =>
      regWriteWords B (offset + 4) rest >>= f) Q
    exact yields_after_write B (yields_after_writeWords rest _ hf)

/-- The words of an event are written up to the first that does not read back. -/
theorem yields_after_writeEventWords {eventIndex : Word}
    {f : Option (Word × Word × Word) → StateM (Service σ) α} : ∀ (words : List Word)
    (wordIndex : Word) (load : SequenceLoadState)
    {Q : List (Word × Word) → SequenceLoadState → ConfigState → Prop}
    (_ : Yields { load with crc32State := words.foldl crc32Word load.crc32State } config (f none)
      fun written => Q (eventWrites eventIndex wordIndex words ++ written))
    (_ : ∀ k crc mismatch, Yields { load with crc32State := crc } config (f (some mismatch))
      fun written => Q (eventWrites eventIndex wordIndex (words.take k) ++ written)),
    Yields load config (writeEventWords B eventIndex wordIndex words >>= f) Q
  | [], _, _, _, hnone, _ => hnone
  | word :: rest, wordIndex, load, Q, hnone, hsome => by
    show Yields load config (regWrite B
      (seqEventMemory + eventIndex * sequenceEventSize + wordIndex * 4) word >>= fun _ =>
        regRead B (seqEventMemory + eventIndex * sequenceEventSize + wordIndex * 4) >>=
          fun readback => (if readback ≠ word then pure (some (wordIndex, word, readback)) else
            modifyLoad (fun load => { load with crc32State := crc32Word load.crc32State word }) >>=
              fun _ => writeEventWords B eventIndex (wordIndex + 1) rest) >>= f) Q
    refine yields_after_write B (yields_after_reads (reads_regRead B _) fun readback => ?_)
    split
    -- the word went out, but nothing after it
    · exact hsome 1 _ _
    · show Yields load config (modifyLoad (fun load =>
        { load with crc32State := crc32Word load.crc32State word }) >>=
          fun _ => writeEventWords B eventIndex (wordIndex + 1) rest >>= f) _
      exact yields_after_load (yields_after_writeEventWords rest _ _ hnone
        fun k crc mismatch => hsome (k + 1) crc mismatch)

/-! ## One message -/

/-- A CONFIG_STAGE that is taken. -/
structure Delivery.Stages (d : Delivery) : Prop where
  whole : d.whole = true
  magic : d.request.magic = rpmsgMagic
  abiVersion : d.request.abiVersion = rpmsgAbiVersion
  command : d.request.command = cmdConfigStage
  payloadWords : d.request.payloadWords = configStageWords

/-- The load that a LOAD_BEGIN begins. -/
def Message.begunLoad (request : Message) : SequenceLoadState :=
  { active := true, committed := false, expectedEvents := request.word 0, nextEvent := 0
    expectedCrc32 := request.word 1, crc32State := BitVec.allOnes 32
    previousTimestamp := 0, previousState := 0 }

/-- The event that a LOAD_EVENT carries. -/
def Message.eventWords (request : Message) : List Word :=
  [request.word 1, request.word 2, request.word 3, request.word 4]

/-- One message as a step of the two statics. -/
inductive Turn (d : Delivery) (load : SequenceLoadState) (config : ConfigState) :
    Transaction → SequenceLoadState → ConfigState → Prop where
  | quiet {config' : ConfigState} (hstaged : config'.staged = config.staged)
      (hwords : config'.words = config.words) : Turn d load config .silent load config'
  | staged {config' : ConfigState} (h : d.Stages) (hstaged : config'.staged = true)
      (hwords : config'.words = d.request.payload) : Turn d load config .silent load config'
  | recovered (h : d.request.command = cmdConfigRecover) :
      Turn d load config .discard load ConfigState.cleared
  | scratch (h : d.request.command = cmdScratchTest) (original : Word) :
      Turn d load config (.scratch (d.request.word 0) original) load config
  | begun (h : d.request.command = cmdSeqLoadBegin)
      (hmin : sequenceMinEvents ≤ d.request.word 0) (hmax : d.request.word 0 ≤ sequenceMaxEvents) :
      Turn d load config .silent d.request.begunLoad config
  | dropped : Turn d load config .silent load.dropped config
  | stored {load' : SequenceLoadState} (h : d.request.command = cmdSeqLoadEvent)
      (hactive : load.active = true) (hlt : load.nextEvent < load.expectedEvents)
      (hload : load' =
        { load with
          crc32State := d.request.eventWords.foldl crc32Word load.crc32State
          previousTimestamp := load'.previousTimestamp, previousState := load'.previousState
          nextEvent := load.nextEvent + 1 }) :
      Turn d load config (.event load.nextEvent d.request.eventWords) load' config
  | torn {load' : SequenceLoadState} (h : d.request.command = cmdSeqLoadEvent)
      (hactive : load.active = true) (hlt : load.nextEvent < load.expectedEvents) (k : ℕ)
      (hactive' : load'.active = false) (hcommitted' : load'.committed = false) :
      Turn d load config (.event load.nextEvent (d.request.eventWords.take k)) load' config
  | counted {load' : SequenceLoadState} (h : d.request.command = cmdSeqLoadCommit)
      (hactive : load.active = true) (hnext : load.nextEvent = load.expectedEvents)
      (hcrc : load.crc32State ^^^ BitVec.allOnes 32 = load.expectedCrc32)
      (hactive' : load'.active = false) :
      Turn d load config (.count load.expectedEvents) load' config
  | launched (control : Word)
      (h : d.request.command = cmdSeqArm ∧
          (control = seqControlArm ∨ control = seqControlArm ||| seqControlExternal) ∨
        d.request.command = cmdSeqStart ∧ control = seqControlStart)
      (hcommitted : load.committed = true) : Turn d load config (.control control) load config
  | aborted (h : d.request.command = cmdSeqAbort) :
      Turn d load config (.control seqControlAbort) load config
  | reset (h : d.request.command = cmdSeqReset) :
      Turn d load config (.control seqControlReset) { load with active := false } config
  | committing {config' : ConfigState} (h : d.request.command = cmdConfigCommit)
      (hactive : load.active = false) (hstaged : config.staged = true)
      (hvalid : validateRuntimeConfig config.words = .none) (ending : CommitEnd)
      (before : Geometry) (hstaged' : config'.staged = config.staged)
      (hwords' : config'.words = config.words) :
      Turn d load config (.config config.words ending before) load config'

/-- What is written is that of one transaction. -/
def Serves (d : Delivery) (load : SequenceLoadState) (config : ConfigState)
    (m : StateM (Service σ) Message) : Prop :=
  Yields load config m fun written load' config' =>
    ∃ t : Transaction, written = t.writes ∧ Turn d load config t load' config'

variable {d : Delivery} {request response : Message}

/-- A handler that only reads is a silent turn. -/
theorem serves_reads {m : StateM (Service σ) Message} (hm : Reads m) : Serves d load config m :=
  yields_reads hm ⟨.silent, rfl, .quiet rfl rfl⟩

theorem serves_pure (answer : Message) :
    Serves d load config (pure answer : StateM (Service σ) Message) :=
  serves_reads (reads_pure answer)

/-- Whichever branch the handler takes. -/
theorem serves_ite {c : Prop} [Decidable c] {m m' : StateM (Service σ) Message}
    (h : c → Serves d load config m) (h' : ¬ c → Serves d load config m') :
    Serves d load config (if c then m else m') := by
  split
  · exact h ‹_›
  · exact h' ‹_›

/-- The turn of a handler does not depend on what it read before. -/
theorem serves_after_reads {m : StateM (Service σ) α} {f : α → StateM (Service σ) Message}
    (hm : Reads m) (hf : ∀ a, Serves d load config (f a)) : Serves d load config (m >>= f) :=
  yields_after_reads hm hf

/-- An error of the load keeps the load as it is. -/
theorem serves_sequenceLoadError (status : Status) (eventIndex detail : Word) :
    Serves (σ := σ) d load config (sequenceLoadError response status eventIndex detail) :=
  yields_after_load (yields_reads (reads_pure _) ⟨.silent, rfl, .dropped⟩)

/-- An error of the configuration only notes its reason. -/
theorem serves_configError (status : Status) (reason : ConfigReason) :
    Serves d load config (configError B response status reason) :=
  yields_after_reason (yields_reads (reads_configStatusPayload B _) ⟨.silent, rfl, .quiet rfl rfl⟩)

theorem serves_handleGetInfo : Serves d load config (handleGetInfo B request response) :=
  serves_ite (fun _ => serves_pure _) fun _ =>
    serves_after_reads (reads_readPayload B _ _) fun _ => serves_pure _

/-- The scratch register is written, read and written back. -/
theorem serves_handleScratchTest (hcommand : d.request.command = cmdScratchTest) :
    Serves d load config (handleScratchTest B d.request response) := by
  refine serves_ite (fun _ => serves_pure _) fun _ => serves_after_reads (reads_regRead B _)
    fun original => ?_
  refine yields_after_write B (yields_after_reads (reads_regRead B _) fun _ =>
    yields_after_write B (yields_after_reads (reads_regRead B _) fun _ =>
      yields_reads (reads_pure _) ⟨.scratch (d.request.word 0) original, rfl, ?_⟩))
  exact .scratch hcommand original

/-! ### The sequencer -/

/-- LOAD_BEGIN opens a load without a write. -/
theorem serves_handleSeqLoadBegin (hcommand : d.request.command = cmdSeqLoadBegin) :
    Serves d load config (handleSeqLoadBegin B d.request response) := by
  refine serves_ite (fun _ => serves_pure _) fun _ => serves_ite
    (fun _ => serves_sequenceLoadError _ _ _) fun hcount => serves_after_reads
    (reads_regRead B _) fun _ => serves_ite
    (fun _ => serves_reads (reads_sequenceStatusPayload B _)) fun _ => ?_
  rw [not_or] at hcount
  exact yields_after_load (yields_reads (reads_pure _) ⟨.silent, rfl,
    .begun hcommand (BitVec.not_lt.mp hcount.1) (BitVec.not_lt.mp hcount.2)⟩)

/-- The event that is due is written word by word, and the next one becomes due. -/
theorem serves_storeEvent (hcommand : d.request.command = cmdSeqLoadEvent)
    (hactive : load.active = true) (hlt : load.nextEvent < load.expectedEvents)
    (timestamp : BitVec 64) (outputState : Word) :
    Serves d load config
      (storeEvent B load.nextEvent timestamp d.request.eventWords outputState response) := by
  refine yields_after_writeEventWords B _ _ _ ?_ fun k crc mismatch => ?_
  · refine yields_after_load (yields_reads (reads_pure _)
      ⟨.event load.nextEvent d.request.eventWords, List.append_nil _, ?_⟩)
    exact .stored hcommand hactive hlt rfl
  · refine yields_after_load (yields_reads (reads_pure _)
      ⟨.event load.nextEvent (d.request.eventWords.take k), List.append_nil _, ?_⟩)
    exact .torn hcommand hactive hlt k rfl rfl

/-- LOAD_EVENT writes only the event that is due in the load that is open. -/
theorem serves_handleSeqLoadEvent (hcommand : d.request.command = cmdSeqLoadEvent) :
    Serves d load config (handleSeqLoadEvent B d.request response) := by
  refine yields_get fun s hload hconfig => ?_
  subst hload
  refine serves_ite (fun _ => serves_pure _) fun _ => serves_ite
    (fun _ => serves_reads (reads_sequenceStatusPayload B _)) fun hactive => serves_ite
    (fun _ => serves_sequenceLoadError _ _ _) fun hindex => serves_ite
    (fun _ => serves_sequenceLoadError _ _ _) fun _ => ?_
  rw [not_or, not_not] at hindex
  obtain ⟨hnext, hcount⟩ := hindex
  rw [hnext] at hcount ⊢
  exact serves_storeEvent B hcommand (by simpa using hactive) (BitVec.not_le.mp hcount) _ _

/-- LOAD_COMMIT writes the event count only when all events are there. -/
theorem serves_handleSeqLoadCommit (hcommand : d.request.command = cmdSeqLoadCommit) :
    Serves d load config (handleSeqLoadCommit B d.request response) := by
  refine yields_get fun s hload hconfig => ?_
  subst hload
  refine serves_ite (fun _ => serves_pure _) fun _ => serves_ite
    (fun _ => serves_sequenceLoadError _ _ _) fun hwhole => serves_ite
    (fun _ => yields_after_load (yields_reads (reads_pure _) ⟨.silent, rfl, .dropped⟩))
    fun hcrc => ?_
  rw [not_or, not_not] at hwhole
  obtain ⟨hactive, hnext⟩ := hwhole
  have hcounted : ∀ load', load'.active = false →
      ∃ t : Transaction, [(seqEventCount, s.sequenceLoad.expectedEvents)] = t.writes ∧
        Turn d s.sequenceLoad config t load' config := fun load' hinactive =>
    ⟨.count s.sequenceLoad.expectedEvents, rfl,
      .counted hcommand (by simpa using hactive) hnext (not_not.mp hcrc) hinactive⟩
  refine yields_after_write B (yields_after_reads (reads_regRead B _) fun readback => ?_)
  split
  · exact yields_after_load (yields_reads (reads_pure _) (hcounted _ rfl))
  · exact yields_after_load (yields_reads (reads_pure _) (hcounted _ rfl))

/-- CONTROL is written once, and the rest is waiting. -/
theorem serves_sequenceCommand {control : Word} {load' : SequenceLoadState}
    (hturn : Turn d load config (.control control) load' config) (condition : SequenceWait)
    (completedBefore : Word) :
    Yields load' config (sequenceCommand B control condition completedBefore response)
      fun written load'' config'' =>
        ∃ t : Transaction, written = t.writes ∧ Turn d load config t load'' config'' := by
  refine yields_after_write B (yields_get fun s _ _ => yields_after_reads
    (reads_sequenceWait B _ _ _) fun wait => yields_reads (reads_sequenceStatusPayload B _) ?_)
  exact ⟨.control control, rfl, hturn⟩

/-- ARM writes one command, or none where the status forbids it. -/
theorem serves_handleSeqArm (hcommand : d.request.command = cmdSeqArm) :
    Serves d load config (handleSeqArm B d.request response) := by
  refine serves_ite (fun _ => serves_pure _) fun _ => serves_after_reads (reads_regRead B _)
    fun status => yields_get fun s hload hconfig => ?_
  subst hload
  refine serves_ite (fun _ => serves_reads (reads_sequenceStatusPayload B _)) fun hready => ?_
  rw [not_or] at hready
  refine serves_sequenceCommand B (.launched _ (.inl ⟨hcommand, ?_⟩) (by simpa using hready.1)) _ _
  split
  · exact .inr rfl
  · exact .inl (BitVec.or_zero)

theorem serves_handleSeqStart (hcommand : d.request.command = cmdSeqStart) :
    Serves d load config (handleSeqStart B d.request response) := by
  refine serves_ite (fun _ => serves_pure _) fun _ => serves_after_reads (reads_regRead B _)
    fun status => yields_get fun s hload hconfig => ?_
  subst hload
  refine serves_ite (fun _ => serves_reads (reads_sequenceStatusPayload B _)) fun hready =>
    serves_after_reads (reads_regRead B _) fun completedBefore => ?_
  rw [not_or] at hready
  exact serves_sequenceCommand B (.launched _ (.inr ⟨hcommand, rfl⟩) (by simpa using hready.1)) _ _

theorem serves_handleSeqAbort (hcommand : d.request.command = cmdSeqAbort) :
    Serves d load config (handleSeqAbort B d.request response) :=
  serves_ite (fun _ => serves_pure _) fun _ => serves_after_reads (reads_regRead B _) fun _ =>
    serves_ite (fun _ => serves_reads (reads_sequenceStatusPayload B _)) fun _ =>
      serves_sequenceCommand B (.aborted hcommand) _ _

/-- RESET closes the load before it writes its command. -/
theorem serves_handleSeqReset (hcommand : d.request.command = cmdSeqReset) :
    Serves d load config (handleSeqReset B d.request response) :=
  serves_ite (fun _ => serves_pure _) fun _ =>
    yields_after_load (serves_sequenceCommand B (.reset hcommand) _ _)

/-! ### The configuration -/

theorem serves_handleConfigValidate :
    Serves d load config (handleConfigValidate B request response) := by
  refine serves_ite (fun _ => serves_pure _) fun _ => yields_get fun s _ hconfig => ?_
  subst hconfig
  refine serves_ite (fun _ => serves_configError B _ _) fun _ => ?_
  exact yields_after_config
    (yields_reads (reads_configStatusPayload B _) ⟨.silent, rfl, .quiet rfl rfl⟩)

/-- CONFIG_RECOVER writes DISCARD and forgets what was staged. -/
theorem serves_handleConfigRecover (hcommand : d.request.command = cmdConfigRecover) :
    Serves d load config (handleConfigRecover B d.request response) :=
  serves_ite (fun _ => serves_pure _) fun _ => serves_after_reads (reads_regRead B _) fun _ =>
    serves_ite (fun _ => serves_configError B _ _) fun _ =>
      yields_after_write B (yields_after_config (yields_reads (reads_configStatusPayload B _)
        ⟨.discard, rfl, .recovered hcommand⟩))

/-- CONFIG_STAGE keeps the words of the request, and writes nothing. -/
theorem serves_handleConfigStage (hwhole : d.whole = true) (hmagic : d.request.magic = rpmsgMagic)
    (habi : d.request.abiVersion = rpmsgAbiVersion)
    (hcommand : d.request.command = cmdConfigStage) :
    Serves d load config (handleConfigStage B d.request response) :=
  serves_ite (fun _ => serves_pure _) fun hwords =>
    yields_after_config (yields_reads (reads_configStatusPayload B _) ⟨.silent, rfl,
      .staged ⟨hwhole, hmagic, habi, hcommand, not_not.mp hwords⟩ rfl rfl⟩)

/-- An error of CONFIG_COMMIT, and the end of a commit, keep what is staged. -/
theorem yields_configError {status : Status} {reason : ConfigReason}
    (hq : Q [] load { config with reason := reason }) :
    Yields load config (configError B response status reason) Q :=
  yields_after_reason (yields_reads (reads_configStatusPayload B _) hq)

/-- The stream page is put back as it was found. -/
theorem yields_restoreStream (before : Geometry) {f : Unit → StateM (Service σ) α}
    (hf : Yields load config (f ()) fun written => Q (before.writes ++ written)) :
    Yields load config
      (configRestoreStream B before.length before.count before.mode >>= f) Q := by
  show Yields load config (regWrite B streamFrameLength before.length >>= fun _ =>
    regWrite B streamFrameCount before.count >>= fun _ =>
      regWrite B streamMode before.mode >>= f) Q
  exact yields_after_write B (yields_after_write B (yields_after_write B hf))

/-- Behind the commit nothing is written any more. -/
theorem yields_verifyActive {words : ConfigWords}
    (hq : ∀ config' : ConfigState, config'.staged = config.staged →
      config'.words = config.words → Q [] load config') :
    Yields load config (verifyActive B words response) Q := by
  refine yields_after_reads (reads_regWordsMatch B _ _) fun matched => ?_
  split
  · exact yields_configError B (hq _ rfl rfl)
  · refine yields_after_reads (reads_regRead B _) fun status => ?_
    split
    · exact yields_configError B (hq _ rfl rfl)
    · exact yields_after_reason (yields_reads (reads_configStatusPayload B _) (hq _ rfl rfl))

/-- From the DSP page on a commit ends in one of three ways. -/
theorem yields_commitDsp {words : ConfigWords} (before : Geometry)
    (hq : ∀ (ending : CommitEnd) (config' : ConfigState), config'.staged = config.staged →
      config'.words = config.words → Q (ending.writes words before) load config') :
    Yields load config
      (commitDsp B words before.length before.count before.mode response) Q := by
  refine yields_after_write B (yields_after_writeWords B _ _ (yields_after_reads
    (reads_regWordsMatch B _ _) fun matched => ?_))
  split
  · refine yields_after_write B (yields_restoreStream B before (yields_configError B ?_))
    rw [List.append_nil]
    exact hq .shadowPage _ rfl rfl
  · refine yields_after_reads (reads_regRead B _) fun generationBefore => yields_after_write B
      (yields_get fun s _ _ => yields_after_reads (reads_waitForCommit B _ _) fun outcome => ?_)
    cases outcome with
    | rejected =>
      -- DISCARD comes once more, after the commit
      refine yields_after_write B (yields_restoreStream B before (yields_configError B ?_))
      rw [List.append_nil]
      exact hq .rejected _ rfl rfl
    | timedOut => exact yields_configError B (hq .left _ rfl rfl)
    | committed => exact yields_verifyActive B (hq .left)

/-- The statics may already hold the reason of the test that comes before. -/
theorem yields_commitStream {tested : ConfigState} (hcommand : d.request.command = cmdConfigCommit)
    (hactive : load.active = false) (hstaged : tested.staged = true)
    (hvalid : validateRuntimeConfig tested.words = .none)
    (hsame : config.staged = tested.staged ∧ config.words = tested.words) :
    Yields load config (commitStream B tested.words response) fun written load' config' =>
      ∃ t : Transaction, written = t.writes ∧ Turn d load tested t load' config' := by
  refine yields_after_reads (reads_regRead B _) fun length => yields_after_reads
    (reads_regRead B _) fun count => yields_after_reads (reads_regRead B _) fun mode => ?_
  have hq : ∀ (ending : CommitEnd) (config' : ConfigState), config'.staged = config.staged →
      config'.words = config.words → ∃ t : Transaction,
        tested.words.geometry.writes ++ ending.writes tested.words ⟨length, count, mode⟩ =
          t.writes ∧ Turn d load tested t load config' := fun ending config' hstaged' hwords' =>
    ⟨.config tested.words ending ⟨length, count, mode⟩, rfl,
      .committing hcommand hactive hstaged hvalid ending _ (hstaged'.trans hsame.1)
        (hwords'.trans hsame.2)⟩
  refine yields_after_write B (yields_after_write B (yields_after_write B (yields_after_reads
    (reads_regsMatch B _) fun matched => ?_)))
  split
  · refine yields_restoreStream B ⟨length, count, mode⟩ (yields_configError B ?_)
    rw [List.append_nil]
    exact hq .streamPage _ rfl rfl
  · exact yields_commitDsp B ⟨length, count, mode⟩ hq

/-- CONFIG_COMMIT writes only staged words that pass the validator, while no load is open. -/
theorem serves_handleConfigCommit (hcommand : d.request.command = cmdConfigCommit) :
    Serves d load config (handleConfigCommit B d.request response) := by
  refine serves_ite (fun _ => serves_pure _) fun _ => yields_get fun s _ hconfig => ?_
  subst hconfig
  refine serves_ite (fun _ => serves_configError B _ _) fun hstaged => ?_
  have hstaged : s.config.staged = true := by
    by_contra hnot
    exact hstaged (by simp [hnot])
  -- the reason is stored before the gates, which is why the tested statics are kept apart
  refine yields_after_reason ?_
  split
  · exact yields_after_config (g := fun config => { config with validated := false })
      (yields_configError B ⟨.silent, rfl, .quiet rfl rfl⟩)
  · next hvalid =>
    rw [not_not] at hvalid
    refine yields_after_reads (reads_regRead B _) fun sequenceStatus => yields_get
      fun s' hload _ => ?_
    subst hload
    split
    · exact yields_configError B ⟨.silent, rfl, .quiet rfl rfl⟩
    · next hidle =>
      rw [not_or] at hidle
      refine yields_after_reads (reads_regRead B _) fun stream => ?_
      split
      · exact yields_configError B ⟨.silent, rfl, .quiet rfl rfl⟩
      · refine yields_after_reads (reads_regRead B _) fun dsp => ?_
        split
        · exact yields_configError B ⟨.silent, rfl, .quiet rfl rfl⟩
        · exact yields_commitStream B hcommand (by simpa using hidle.1) hstaged hvalid ⟨rfl, rfl⟩

/-- Every command has a handler that is a turn. -/
theorem serves_dispatch (tickRateHz : Word) (hwhole : d.whole = true)
    (hmagic : d.request.magic = rpmsgMagic) (habi : d.request.abiVersion = rpmsgAbiVersion) :
    Serves d load config (dispatch B tickRateHz d response) :=
  serves_ite (fun _ => serves_ite (fun _ => serves_pure _) fun _ => serves_pure _) fun _ =>
  serves_ite (fun _ => serves_handleGetInfo B) fun _ =>
  serves_ite (fun h => serves_handleScratchTest B h) fun _ =>
  serves_ite (fun _ => serves_ite (fun _ => serves_pure _) fun _ => serves_pure _) fun _ =>
  serves_ite (fun h => serves_handleSeqLoadBegin B h) fun _ =>
  serves_ite (fun h => serves_handleSeqLoadEvent B h) fun _ =>
  serves_ite (fun h => serves_handleSeqLoadCommit B h) fun _ =>
  serves_ite (fun _ => serves_ite (fun _ => serves_pure _) fun _ =>
    serves_reads (reads_sequenceStatusPayload B _)) fun _ =>
  serves_ite (fun h => serves_handleSeqArm B h) fun _ =>
  serves_ite (fun h => serves_handleSeqStart B h) fun _ =>
  serves_ite (fun h => serves_handleSeqAbort B h) fun _ =>
  serves_ite (fun h => serves_handleSeqReset B h) fun _ =>
  serves_ite (fun h => serves_handleConfigStage B hwhole hmagic habi h) fun _ =>
  serves_ite (fun _ => serves_handleConfigValidate B) fun _ =>
  serves_ite (fun h => serves_handleConfigCommit B h) fun _ =>
  serves_ite (fun _ => serves_ite (fun _ => serves_pure _) fun _ =>
    serves_reads (reads_configStatusPayload B _)) fun _ =>
  serves_ite (fun h => serves_handleConfigRecover B h) fun _ => serves_pure _

/-- Every message is one turn, the one that is refused by its header too. -/
theorem serves_handleRequest (tickRateHz : Word) (hwhole : d.whole = true) :
    Serves d load config (handleRequest B tickRateHz d) :=
  serves_ite (fun _ => serves_pure _) fun hmagic => serves_ite (fun _ => serves_pure _)
    fun habi => serves_ite (fun _ => serves_pure _) fun _ =>
      serves_dispatch B tickRateHz hwhole (not_not.mp hmagic) (not_not.mp habi)

/-- A CONFIG_STAGE that is taken replaces what was staged. -/
theorem staged_of_stages {d : Delivery} (tickRateHz : Word) (h : d.Stages) (s : Service σ) :
    (handleRequest B tickRateHz d s).2.writes = s.writes ∧
      (handleRequest B tickRateHz d s).2.config.staged = true ∧
      (handleRequest B tickRateHz d s).2.config.words = d.request.payload := by
  have hne : ∀ c : BitVec 16, cmdConfigStage ≠ c → d.request.command ≠ c :=
    fun c hc he => hc (h.command.symm.trans he)
  have hrun : handleRequest B tickRateHz d =
      handleConfigStage B d.request (responseInit d.request) := by
    unfold handleRequest dispatch
    dsimp only
    rw [if_neg (not_not.mpr h.magic), if_neg (not_not.mpr h.abiVersion),
      if_neg (by rw [h.payloadWords]; decide), if_neg (hne _ (by decide)),
      if_neg (hne _ (by decide)), if_neg (hne _ (by decide)), if_neg (hne _ (by decide)),
      if_neg (hne _ (by decide)), if_neg (hne _ (by decide)), if_neg (hne _ (by decide)),
      if_neg (hne _ (by decide)), if_neg (hne _ (by decide)), if_neg (hne _ (by decide)),
      if_neg (hne _ (by decide)), if_neg (hne _ (by decide)), if_pos h.command]
  rw [hrun]
  unfold handleConfigStage
  rw [if_neg (not_not.mpr h.payloadWords)]
  obtain ⟨hwrites, -, hconfig⟩ := reads_configStatusPayload B (responseInit d.request)
    (modifyConfig (fun _ => ⟨true, false, .none, d.request.payload⟩) s).2
  exact ⟨hwrites, congrArg ConfigState.staged hconfig, congrArg ConfigState.words hconfig⟩

end QCrate.R5
