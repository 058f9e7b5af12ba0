import QCrate.R5.Turns

/-!
# What the service writes in a run

For any messages and over any register window, from the start of the service on.

* `LoadStep` — what a message leaves of the load, by the status of its answer.
* `Permitted` — when a message may write what it writes, from the messages before it.
* `Books` — what the statics say about the messages so far, and `Books.turn`.
* `service_disciplined` — the writes of a run.
-/

namespace QCrate.R5

/-! ## The load -/

/-- The commands that the loader and the reset of the sequencer answer to. -/
def loaderCommands : List (BitVec 16) :=
  [cmdSeqLoadBegin, cmdSeqLoadEvent, cmdSeqLoadCommit, cmdSeqReset]

/-- An open load is still open after such a message: it is not for the loader, it was turned away
before its handler looked at the load, it is a LOAD_BEGIN that was refused for the state of the
sequencer, or it is an event that was stored. -/
def Delivery.KeepsLoad (d : Delivery) (status : Status) : Prop :=
  d.request.command ∉ loaderCommands ∨ status ∈ [Status.badMagic, .badAbi, .badLength] ∨
    d.request.command = cmdSeqLoadBegin ∧ status = .badState ∨
    d.request.command = cmdSeqLoadEvent ∧ status = .ok

/-- A LOAD_BEGIN that was taken. -/
structure Delivery.BeginsLoad (d : Delivery) (status : Status) : Prop where
  command : d.request.command = cmdSeqLoadBegin
  status : status = .ok

/-- One message as a step of the load. -/
inductive LoadStep (d : Delivery) (status : Status) (load : SequenceLoadState) :
    SequenceLoadState → Prop where
  | begun (h : d.BeginsLoad status) (hmin : sequenceMinEvents ≤ d.request.word 0)
      (hmax : d.request.word 0 ≤ sequenceMaxEvents) : LoadStep d status load d.request.begunLoad
  | same (h : d.KeepsLoad status) : LoadStep d status load load
  | stored {load' : SequenceLoadState} (hcommand : d.request.command = cmdSeqLoadEvent)
      (hstatus : status = .ok) (hactive : load.active = true) : LoadStep d status load load'
  | closed {load' : SequenceLoadState} (h : load'.active = false) : LoadStep d status load load'

section LoadStep

variable {σ : Type} (B : Bus σ) {load load' : SequenceLoadState} {config config' : ConfigState}
variable {d : Delivery} {t : Transaction} {status : Status} {request response : Message}

/-- A message that is not for the loader leaves the load as it is. -/
theorem Turn.loadStep (ht : Turn d load config t load' config')
    (h : d.request.command ∉ loaderCommands) : LoadStep d status load load' := by
  have hno : ∀ c ∈ loaderCommands, d.request.command ≠ c := fun c hc he => h (he ▸ hc)
  cases ht with
  | begun hc => exact absurd hc (hno _ (by simp [loaderCommands]))
  | stored hc => exact absurd hc (hno _ (by simp [loaderCommands]))
  | torn hc => exact absurd hc (hno _ (by simp [loaderCommands]))
  | counted hc => exact absurd hc (hno _ (by simp [loaderCommands]))
  | reset hc => exact absurd hc (hno _ (by simp [loaderCommands]))
  | dropped => exact .closed rfl
  | quiet | staged | recovered | scratch | launched | aborted | committing => exact .same (.inl h)

/-- The status of the answer, whatever the registers answer. -/
def Answers (status : Status) (m : StateM (Service σ) Message) : Prop :=
  ∀ s, (m s).1.status = status

theorem answers_bind {α : Type} {m : StateM (Service σ) α} {f : α → StateM (Service σ) Message}
    (hf : ∀ a, Answers status (f a)) : Answers status (m >>= f) := fun s => hf (m s).1 (m s).2

theorem answers_readPayload : ∀ (offsets : List (Fin 11 × Word)) {response : Message},
    response.status = status → Answers status (readPayload B offsets response)
  | [], _, h => fun _ => h
  | _ :: rest, _, h => answers_bind fun _ => answers_readPayload rest h

theorem answers_sequenceStatusPayload (h : response.status = status) :
    Answers status (sequenceStatusPayload B response) :=
  answers_bind fun _ => answers_bind fun _ => answers_readPayload B _ h

/-- A computation that is at this load, of a message that came to another. -/
def Moves (d : Delivery) (load load' : SequenceLoadState) (m : StateM (Service σ) Message) : Prop :=
  ∀ s, s.sequenceLoad = load' → LoadStep d (m s).1.status load (m s).2.sequenceLoad

section Moves

variable {α : Type} {m : StateM (Service σ) Message} {f : α → StateM (Service σ) Message}

theorem moves_pure {answer : Message} (h : LoadStep d answer.status load load') :
    Moves d load load' (pure answer : StateM (Service σ) Message) := fun _ hs => hs ▸ h

theorem moves_reads (hm : Reads m) (hstatus : Answers status m) (h : LoadStep d status load load') :
    Moves d load load' m := fun s hs => by
  rw [hstatus s, (hm s).2.1, hs]
  exact h

theorem moves_after_reads {m : StateM (Service σ) α} (hm : Reads m)
    (hf : ∀ a, Moves d load load' (f a)) : Moves d load load' (m >>= f) := fun s hs =>
  hf (m s).1 (m s).2 ((hm s).2.1.trans hs)

theorem moves_get {f : Service σ → StateM (Service σ) Message}
    (hf : ∀ s, s.sequenceLoad = load' → Moves d load load' (f s)) :
    Moves d load load' (get >>= f) := fun s hs => hf s hs s hs

theorem moves_ite {c : Prop} [Decidable c] {m' : StateM (Service σ) Message}
    (h : c → Moves d load load' m) (h' : ¬ c → Moves d load load' m') :
    Moves d load load' (if c then m else m') := by
  split
  · exact h ‹_›
  · exact h' ‹_›

theorem moves_after_write {offset value : Word} {f : Unit → StateM (Service σ) Message}
    (hf : Moves d load load' (f ())) : Moves d load load' (regWrite B offset value >>= f) :=
  fun s hs => hf (regWrite B offset value s).2 hs

theorem moves_after_load {g : SequenceLoadState → SequenceLoadState}
    {f : Unit → StateM (Service σ) Message} (hf : Moves d load (g load') (f ())) :
    Moves d load load' (modifyLoad g >>= f) := fun s hs =>
  hf (modifyLoad g s).2 (congrArg g hs)

/-- A closed load stays closed, whatever the status. -/
theorem moves_closed (hm : Reads m) (h : load'.active = false) : Moves d load load' m :=
  fun s hs => .closed (by rw [(hm s).2.1, hs, h])

theorem moves_after_any {m : StateM (Service σ) α} (hf : ∀ a load', Moves d load load' (f a)) :
    Moves d load load' (m >>= f) := fun s _ => hf (m s).1 _ (m s).2 rfl

end Moves

theorem keepsLoad_badLength : d.KeepsLoad .badLength :=
  .inr (.inl (by decide))

theorem moves_badLength :
    Moves (σ := σ) d load load (pure { response with status := .badLength }) :=
  moves_pure (.same keepsLoad_badLength)

theorem moves_sequenceLoadError (eventIndex detail : Word) :
    Moves (σ := σ) d load load' (sequenceLoadError response status eventIndex detail) :=
  moves_after_load (moves_pure (.closed rfl))

theorem moves_handleSeqLoadBegin (hcommand : d.request.command = cmdSeqLoadBegin)
    (hstatus : response.status = .ok) :
    Moves d load load (handleSeqLoadBegin B d.request response) := by
  refine moves_ite (fun _ => moves_badLength) fun _ => moves_ite
    (fun _ => moves_sequenceLoadError _ _) fun hcount => moves_after_reads (reads_regRead B _)
    fun _ => moves_ite (fun _ => ?_) fun _ => ?_
  · exact moves_reads (reads_sequenceStatusPayload B _) (answers_sequenceStatusPayload B rfl)
      (.same (.inr (.inr (.inl ⟨hcommand, rfl⟩))))
  · rw [not_or] at hcount
    exact moves_after_load (moves_pure
      (.begun ⟨hcommand, hstatus⟩ (BitVec.not_lt.mp hcount.1) (BitVec.not_lt.mp hcount.2)))

/-- An event that is stored is answered with OK, and one that does not read back closes the
load. -/
theorem moves_storeEvent (hcommand : d.request.command = cmdSeqLoadEvent)
    (hstatus : response.status = .ok) (hactive : load.active = true) (eventIndex : Word)
    (timestamp : BitVec 64) (words : List Word) (outputState : Word) :
    Moves d load load' (storeEvent B eventIndex timestamp words outputState response) := by
  refine moves_after_any fun mismatch load' => ?_
  cases mismatch with
  | none => exact moves_after_load (moves_pure (.stored hcommand hstatus hactive))
  | some _ => exact moves_after_load (moves_pure (.closed rfl))

theorem moves_handleSeqLoadEvent (hcommand : d.request.command = cmdSeqLoadEvent)
    (hstatus : response.status = .ok) :
    Moves d load load (handleSeqLoadEvent B d.request response) := by
  refine moves_get fun s hs => ?_
  subst hs
  refine moves_ite (fun _ => moves_badLength) fun _ => moves_ite (fun hinactive => ?_)
    fun hactive => moves_ite (fun _ => moves_sequenceLoadError _ _) fun _ => moves_ite
    (fun _ => moves_sequenceLoadError _ _) fun _ =>
      moves_storeEvent B hcommand hstatus (by simpa using hactive) _ _ _ _
  exact moves_reads (reads_sequenceStatusPayload B _) (answers_sequenceStatusPayload B rfl)
    (.closed (by simpa using hinactive))

theorem moves_handleSeqLoadCommit :
    Moves d load load (handleSeqLoadCommit B d.request response) := by
  refine moves_get fun s hs => ?_
  subst hs
  refine moves_ite (fun _ => moves_badLength) fun _ => moves_ite
    (fun _ => moves_sequenceLoadError _ _) fun _ => moves_ite
    (fun _ => moves_after_load (moves_pure (.closed rfl))) fun _ => moves_after_write B
    (moves_after_reads (reads_regRead B _) fun _ => moves_ite
      (fun _ => moves_after_load (moves_pure (.closed rfl)))
      fun _ => moves_after_load (moves_pure (.closed rfl)))

/-- SEQ_RESET closes the load before it writes CONTROL. -/
theorem moves_handleSeqReset : Moves d load load (handleSeqReset B d.request response) := by
  refine moves_ite (fun _ => moves_badLength) fun _ => moves_after_load (moves_after_write B
    (moves_get fun _ _ => moves_after_reads (reads_sequenceWait B _ _ _) fun _ => ?_))
  exact moves_closed (reads_sequenceStatusPayload B _) rfl

theorem moves_dispatch (tickRateHz : Word) (hloader : d.request.command ∈ loaderCommands)
    (hstatus : response.status = .ok) :
    Moves d load load (dispatch B tickRateHz d response) := by
  simp only [loaderCommands, List.mem_cons, List.not_mem_nil, or_false] at hloader
  unfold dispatch
  dsimp only
  rcases hloader with hc | hc | hc | hc
  · have hmoves := @moves_handleSeqLoadBegin σ B load d response hc hstatus
    rw [hc]
    exact hmoves
  · have hmoves := @moves_handleSeqLoadEvent σ B load d response hc hstatus
    rw [hc]
    exact hmoves
  · have hmoves := @moves_handleSeqLoadCommit σ B load d response
    rw [hc]
    exact hmoves
  · have hmoves := @moves_handleSeqReset σ B load d response
    rw [hc]
    exact hmoves

/-- Every message. -/
theorem loadStep_handleRequest (tickRateHz : Word) (hwhole : d.whole = true) (s : Service σ) :
    LoadStep d (handleRequest B tickRateHz d s).1.status s.sequenceLoad
      (handleRequest B tickRateHz d s).2.sequenceLoad := by
  by_cases hloader : d.request.command ∈ loaderCommands
  · have hmoves : Moves d s.sequenceLoad s.sequenceLoad (handleRequest B tickRateHz d) := by
      refine moves_ite (fun _ => moves_pure (.same (.inr (.inl (.head _))))) fun _ => moves_ite
        (fun _ => moves_pure (.same (.inr (.inl (.tail _ (.head _)))))) fun _ => moves_ite
        (fun _ => moves_badLength) fun _ => moves_dispatch B tickRateHz hloader rfl
    exact hmoves s rfl
  · obtain ⟨written, -, t, -, hturn⟩ := serves_handleRequest B tickRateHz hwhole s rfl rfl
    exact hturn.loadStep hloader

/-- A LOAD_EVENT that leaves a load open keeps it. -/
theorem LoadStep.keeps_stored (h : LoadStep d status load load')
    (hcommand : d.request.command = cmdSeqLoadEvent) (ha : load'.active = true) :
    d.KeepsLoad status := by
  cases h with
  | begun hbegins => exact absurd (hbegins.command.symm.trans hcommand) (by decide)
  | same hkeeps => exact hkeeps
  | stored _ hstatus => exact .inr (.inr (.inr ⟨hcommand, hstatus⟩))
  | closed h =>
    rw [h] at ha
    cases ha

end LoadStep

/-! ## Histories -/

/-- A message that was handled, with what it wrote and the status of its answer. -/
structure Handled where
  delivery : Delivery
  written : Transaction
  status : Status

/-- The messages so far. -/
abbrev History := List Handled

/-- The events that were written. -/
def History.events (h : History) : List (Word × List Word) := h.filterMap fun e => e.written.stored

/-- Events at the indices from 0 on. -/
def numbered (stored : List (List Word)) : List (Word × List Word) :=
  stored.zipIdx.map fun e => (BitVec.ofNat 32 e.2, e.1)

/-- The last CONFIG_STAGE that was taken carries these words. -/
def LastStaged (h : History) (words : ConfigWords) : Prop :=
  ∃ before e after, h = before ++ e :: after ∧ e.delivery.Stages ∧
    e.delivery.request.payload = words ∧ ∀ x ∈ after, ¬ x.delivery.Stages

/-- This LOAD_BEGIN was taken, no message since then has closed the load, and from it on whole
events were written in their order, and no others. -/
structure Loading (h : History) (request : Message) (stored : List (List Word)) : Prop where
  since : ∃ before e after, h = before ++ e :: after ∧ e.delivery.request = request ∧
    e.delivery.BeginsLoad e.status ∧ (∀ x ∈ after, x.delivery.KeepsLoad x.status) ∧
    History.events (e :: after) = numbered stored
  atLeast : sequenceMinEvents ≤ request.word 0
  atMost : request.word 0 ≤ sequenceMaxEvents
  fits : stored.length ≤ (request.word 0).toNat
  whole : ∀ words ∈ stored, words.length = 4

/-- The CRC over the words of some events. -/
def eventsCrc (stored : List (List Word)) : Word :=
  stored.flatten.foldl crc32Word (BitVec.allOnes 32)

/-- An event count was written, and no event since. -/
def Programmed (h : History) : Prop :=
  ∃ before e count after, h = before ++ e :: after ∧ e.written = .count count ∧
    History.events after = []

/-- When a message may write what it writes. -/
inductive Permitted (h : History) (d : Delivery) : Transaction → Prop where
  | silent : Permitted h d .silent
  | scratch (hcommand : d.request.command = cmdScratchTest) (original : Word) :
      Permitted h d (.scratch (d.request.word 0) original)
  | aborted (hcommand : d.request.command = cmdSeqAbort) :
      Permitted h d (.control seqControlAbort)
  | reset (hcommand : d.request.command = cmdSeqReset) : Permitted h d (.control seqControlReset)
  | launched (control : Word)
      (hcommand : d.request.command = cmdSeqArm ∧
          (control = seqControlArm ∨ control = seqControlArm ||| seqControlExternal) ∨
        d.request.command = cmdSeqStart ∧ control = seqControlStart)
      (hprogrammed : Programmed h) : Permitted h d (.control control)
  | event {request : Message} {stored : List (List Word)}
      (hcommand : d.request.command = cmdSeqLoadEvent) (hloading : Loading h request stored)
      (hlt : stored.length < (request.word 0).toNat) (k : ℕ) :
      Permitted h d (.event (BitVec.ofNat 32 stored.length) (d.request.eventWords.take k))
  | counted {request : Message} {stored : List (List Word)}
      (hcommand : d.request.command = cmdSeqLoadCommit) (hloading : Loading h request stored)
      (hall : stored.length = (request.word 0).toNat)
      (hcrc : eventsCrc stored ^^^ BitVec.allOnes 32 = request.word 1) :
      Permitted h d (.count (request.word 0))
  | recovered (hcommand : d.request.command = cmdConfigRecover) : Permitted h d .discard
  | config {words : ConfigWords} (hcommand : d.request.command = cmdConfigCommit)
      (hstaged : LastStaged h words) (hvalid : validateRuntimeConfig words = .none)
      (ending : CommitEnd) (before : Geometry) : Permitted h d (.config words ending before)

/-- Every message was permitted what it wrote by the messages before it. -/
inductive Disciplined : History → Prop where
  | start : Disciplined []
  | next {h : History} {e : Handled} (hbefore : Disciplined h)
      (hpermitted : Permitted h e.delivery e.written) : Disciplined (h ++ [e])

/-- The load that is open has this beginning and these events. -/
def OpenLoad (h : History) (load : SequenceLoadState) : Prop :=
  ∃ request stored, Loading h request stored ∧ load.expectedEvents = request.word 0 ∧
    load.expectedCrc32 = request.word 1 ∧ load.nextEvent = BitVec.ofNat 32 stored.length ∧
    load.crc32State = eventsCrc stored

/-- What the statics say about the history. -/
structure Books (h : History) (load : SequenceLoadState) (config : ConfigState) : Prop where
  opened : load.active = true → OpenLoad h load
  apart : load.active = true → load.committed = false
  programmed : load.committed = true → Programmed h
  staged : config.staged = true → LastStaged h config.words

variable {σ : Type} (B : Bus σ) {load : SequenceLoadState} {config : ConfigState}
variable {d : Delivery} {request : Message}
variable {h : History} {t : Transaction} {load' : SequenceLoadState} {config' : ConfigState}
variable {stored : List (List Word)} {status : Status}

theorem events_append (h h' : History) : (h ++ h').events = h.events ++ h'.events :=
  List.filterMap_append

theorem events_concat (h : History) (e : Handled) :
    History.events (h ++ [e]) = h.events ++ e.written.stored.toList := by
  rw [events_append]
  cases ht : e.written.stored <;> simp [History.events, ht]

theorem numbered_concat (stored : List (List Word)) (words : List Word) :
    numbered (stored ++ [words]) =
      numbered stored ++ [(BitVec.ofNat 32 stored.length, words)] := by
  unfold numbered
  rw [List.zipIdx_append, List.map_append]
  simp

theorem LastStaged.concat {words : ConfigWords} (hl : LastStaged h words) (hd : ¬ d.Stages) :
    LastStaged (h ++ [⟨d, t, status⟩]) words := by
  obtain ⟨before, e, after, rfl, hstages, hpayload, hafter⟩ := hl
  refine ⟨before, e, after ++ [⟨d, t, status⟩], by rw [List.append_assoc, List.cons_append],
    hstages, hpayload, fun x hx => ?_⟩
  rcases List.mem_append.mp hx with hx | hx
  · exact hafter x hx
  · rw [List.mem_singleton.mp hx]
    exact hd

theorem Loading.concat (hl : Loading h request stored) (hkeeps : d.KeepsLoad status)
    (ht : t.stored = none) : Loading (h ++ [⟨d, t, status⟩]) request stored := by
  obtain ⟨before, e, after, rfl, hrequest, hbegins, hafter, hevents⟩ := hl.since
  refine { hl with
    since := ⟨before, e, after ++ [⟨d, t, status⟩], by rw [List.append_assoc, List.cons_append],
      hrequest, hbegins, ?_, ?_⟩ }
  · intro x hx
    rcases List.mem_append.mp hx with hx | hx
    · exact hafter x hx
    · rw [List.mem_singleton.mp hx]
      exact hkeeps
  · rw [← List.cons_append, events_concat, ht, hevents]
    exact List.append_nil _

theorem Loading.store {words : List Word} (hl : Loading h request stored)
    (hkeeps : d.KeepsLoad status) (hlt : stored.length < (request.word 0).toNat)
    (hwords : words.length = 4) :
    Loading (h ++ [⟨d, .event (BitVec.ofNat 32 stored.length) words, status⟩]) request
      (stored ++ [words]) := by
  obtain ⟨before, e, after, rfl, hrequest, hbegins, hafter, hevents⟩ := hl.since
  refine ⟨⟨before, e, after ++ [⟨d, _, status⟩], by rw [List.append_assoc, List.cons_append],
    hrequest, hbegins, fun x hx => ?_, ?_⟩, hl.atLeast, hl.atMost, ?_, fun w hw => ?_⟩
  · rcases List.mem_append.mp hx with hx | hx
    · exact hafter x hx
    · rw [List.mem_singleton.mp hx]
      exact hkeeps
  · rw [← List.cons_append, events_concat, hevents, numbered_concat]
    rfl
  · rw [List.length_append, List.length_singleton]
    exact hlt
  · rcases List.mem_append.mp hw with hw | hw
    · exact hl.whole w hw
    · rw [List.mem_singleton.mp hw, hwords]

theorem Programmed.concat (hp : Programmed h) (ht : t.stored = none) :
    Programmed (h ++ [⟨d, t, status⟩]) := by
  obtain ⟨before, e, count, after, rfl, hcount, hevents⟩ := hp
  refine ⟨before, e, count, after ++ [⟨d, t, status⟩],
    by rw [List.append_assoc, List.cons_append], hcount, ?_⟩
  rw [events_concat, ht, hevents]
  rfl

theorem OpenLoad.concat (ho : OpenLoad h load) (hkeeps : d.KeepsLoad status)
    (ht : t.stored = none) : OpenLoad (h ++ [⟨d, t, status⟩]) load := by
  obtain ⟨request, stored, hloading, hrest⟩ := ho
  exact ⟨request, stored, hloading.concat hkeeps ht, hrest⟩

/-- A LOAD_BEGIN that is taken opens a load without events. -/
theorem openLoad_begun (hbegins : d.BeginsLoad status) (hmin : sequenceMinEvents ≤ d.request.word 0)
    (hmax : d.request.word 0 ≤ sequenceMaxEvents) (ht : t.stored = none) :
    OpenLoad (h ++ [⟨d, t, status⟩]) d.request.begunLoad := by
  refine ⟨d.request, [], ⟨⟨h, ⟨d, t, status⟩, [], rfl, rfl, hbegins,
    fun _ hx => absurd hx List.not_mem_nil, ?_⟩, hmin, hmax, Nat.zero_le _,
    fun _ hx => absurd hx List.not_mem_nil⟩, rfl, rfl, rfl, rfl⟩
  show History.events ([] ++ [⟨d, t, status⟩]) = _
  rw [events_concat, ht]
  rfl

/-- What is open after a message that writes no event. -/
theorem Books.opened_after (hb : Books h load config) (hstep : LoadStep d status load load')
    (ht : t.stored = none)
    (hload : load'.active = true → load' = load ∨ d.request.command = cmdSeqLoadBegin)
    (ha : load'.active = true) : OpenLoad (h ++ [⟨d, t, status⟩]) load' := by
  cases hstep with
  | begun hbegins hmin hmax => exact openLoad_begun hbegins hmin hmax ht
  | same hkeeps => exact (hb.opened ha).concat hkeeps ht
  | stored hcommand hstatus hactive =>
    obtain rfl | hbegin := hload ha
    · exact (hb.opened ha).concat (.inr (.inr (.inr ⟨hcommand, hstatus⟩))) ht
    · exact absurd (hbegin.symm.trans hcommand) (by decide)
  | closed h =>
    rw [h] at ha
    cases ha

/-- What the loader leaves alone, the books keep. -/
theorem Books.concat (hb : Books h load config) (hstep : LoadStep d status load load')
    (ht : t.stored = none) (hactive : load'.active = true → load' = load)
    (hcommitted : load'.committed = true → load.committed = true)
    (hstaged : config'.staged = true → LastStaged (h ++ [⟨d, t, status⟩]) config'.words) :
    Books (h ++ [⟨d, t, status⟩]) load' config' where
  opened ha := hb.opened_after hstep ht (fun ha => .inl (hactive ha)) ha
  apart ha := by
    have heq : load' = load := hactive ha
    subst heq
    exact hb.apart ha
  programmed hc := (hb.programmed (hcommitted hc)).concat ht
  staged := hstaged

/-- The position of an open load is below its count, as numbers. -/
theorem Loading.lt_of_next (hl : Loading h request stored)
    (hlt : BitVec.ofNat 32 stored.length < request.word 0) :
    stored.length < (request.word 0).toNat := by
  -- no more events than the count, so the index has not wrapped
  have hsmall : (request.word 0).toNat < 2 ^ 32 := (request.word 0).isLt
  have hnat : (BitVec.ofNat 32 stored.length).toNat < (request.word 0).toNat := hlt
  rwa [BitVec.toNat_ofNat, Nat.mod_eq_of_lt (Nat.lt_of_le_of_lt hl.fits hsmall)] at hnat

theorem Loading.eq_of_next (hl : Loading h request stored)
    (heq : BitVec.ofNat 32 stored.length = request.word 0) :
    stored.length = (request.word 0).toNat := by
  have hsmall : (request.word 0).toNat < 2 ^ 32 := (request.word 0).isLt
  rw [← heq, BitVec.toNat_ofNat, Nat.mod_eq_of_lt (Nat.lt_of_le_of_lt hl.fits hsmall)]

/-- An open load takes one more event, behind those that are stored. -/
theorem OpenLoad.store (ho : OpenLoad h load) (hlt : load.nextEvent < load.expectedEvents)
    (hkeeps : d.KeepsLoad status)
    (hload : load' =
      { load with
        crc32State := d.request.eventWords.foldl crc32Word load.crc32State
        previousTimestamp := load'.previousTimestamp, previousState := load'.previousState
        nextEvent := load.nextEvent + 1 }) :
    OpenLoad (h ++ [⟨d, .event load.nextEvent d.request.eventWords, status⟩]) load' := by
  obtain ⟨request, stored, hloading, hcount, hdeclared, hnext, hcrc⟩ := ho
  rw [hnext, hcount] at hlt
  rw [hnext]
  refine ⟨request, stored ++ [d.request.eventWords],
    hloading.store hkeeps (hloading.lt_of_next hlt) rfl, ?_, ?_, ?_, ?_⟩
  · rw [hload]
    exact hcount
  · rw [hload]
    exact hdeclared
  · rw [hload]
    show load.nextEvent + 1 = _
    rw [hnext, List.length_append, List.length_singleton, BitVec.ofNat_add]
    rfl
  · rw [hload]
    show d.request.eventWords.foldl crc32Word load.crc32State = _
    unfold eventsCrc
    rw [hcrc, List.flatten_append, List.foldl_append, List.flatten_singleton]
    rfl

theorem Turn.staged_kept (ht : Turn d load config t load' config') (hd : ¬ d.Stages)
    (hstaged : config'.staged = true) : config.staged = true ∧ config'.words = config.words := by
  cases ht with
  | quiet hs hw => exact ⟨hs ▸ hstaged, hw⟩
  | staged h => exact absurd h hd
  | recovered => cases hstaged
  | committing _ _ _ _ _ _ hs hw => exact ⟨hs ▸ hstaged, hw⟩
  | scratch | begun | dropped | stored | torn | counted | launched | aborted | reset =>
    exact ⟨hstaged, rfl⟩

/-- Whatever is staged after a message was staged by the last CONFIG_STAGE. -/
theorem Books.staged_after (hb : Books h load config) (ht : Turn d load config t load' config')
    (hstages : d.Stages → config'.words = d.request.payload) (hstaged : config'.staged = true) :
    LastStaged (h ++ [⟨d, t, status⟩]) config'.words := by
  -- a CONFIG_STAGE that is not taken leaves what was staged, and does not count as the last
  by_cases hd : d.Stages
  · exact ⟨h, ⟨d, t, status⟩, [], rfl, hd, (hstages hd).symm,
      fun _ hx => absurd hx List.not_mem_nil⟩
  · obtain ⟨hbefore, hwords⟩ := ht.staged_kept hd hstaged
    rw [hwords]
    exact (hb.staged hbefore).concat hd

/-- One message: it was permitted what it wrote, and the books are kept. -/
theorem Books.turn (hb : Books h load config) (ht : Turn d load config t load' config')
    (hstep : LoadStep d status load load')
    (hstages : d.Stages → config'.words = d.request.payload) :
    Permitted h d t ∧ Books (h ++ [⟨d, t, status⟩]) load' config' := by
  have hstaged : config'.staged = true → LastStaged (h ++ [⟨d, t, status⟩]) config'.words :=
    hb.staged_after ht hstages
  cases ht with
  | quiet => exact ⟨.silent, hb.concat hstep rfl (fun _ => rfl) id hstaged⟩
  | staged => exact ⟨.silent, hb.concat hstep rfl (fun _ => rfl) id hstaged⟩
  | recovered hc => exact ⟨.recovered hc, hb.concat hstep rfl (fun _ => rfl) id hstaged⟩
  | scratch hc original =>
    exact ⟨.scratch hc original, hb.concat hstep rfl (fun _ => rfl) id hstaged⟩
  | begun hc hmin hmax =>
    exact ⟨.silent, hb.opened_after hstep rfl fun _ => .inr hc, fun _ => rfl, nofun, hstaged⟩
  | dropped => exact ⟨.silent, hb.concat hstep rfl nofun nofun hstaged⟩
  | stored hc hactive hlt hload =>
    have hkeeps : d.KeepsLoad status := hstep.keeps_stored hc (by rw [hload]; exact hactive)
    have hopen := (hb.opened hactive).store hlt hkeeps hload
    obtain ⟨request, stored, hloading, hcount, -, hnext, -⟩ := hb.opened hactive
    rw [hnext, hcount] at hlt
    rw [hnext] at hstaged hopen ⊢
    refine ⟨.event hc hloading (hloading.lt_of_next hlt) 4, fun _ => hopen, fun _ => ?_,
      fun hcommitted => ?_, hstaged⟩
    · rw [hload]
      exact hb.apart hactive
    · rw [hload] at hcommitted
      have hboth : load.committed = true := hcommitted
      rw [hb.apart hactive] at hboth
      cases hboth
  | torn hc hactive hlt k hactive' hcommitted' =>
    obtain ⟨request, stored, hloading, hcount, -, hnext, -⟩ := hb.opened hactive
    rw [hnext, hcount] at hlt
    rw [hnext] at hstaged ⊢
    refine ⟨.event hc hloading (hloading.lt_of_next hlt) k, fun ha => ?_, fun ha => ?_,
      fun hcommitted => ?_, hstaged⟩
    · rw [hactive'] at ha
      cases ha
    · exact hcommitted'
    · rw [hcommitted'] at hcommitted
      cases hcommitted
  | counted hc hactive hnext' hcrc' hactive' =>
    obtain ⟨request, stored, hloading, hcount, hdeclared, hnext, hcrc⟩ := hb.opened hactive
    rw [hnext, hcount] at hnext'
    rw [hcrc, hdeclared] at hcrc'
    rw [hcount] at hstaged ⊢
    refine ⟨.counted hc hloading (hloading.eq_of_next hnext') hcrc', fun ha => ?_, fun ha => ?_,
      fun _ => ⟨h, _, _, [], rfl, rfl, rfl⟩, hstaged⟩
    · rw [hactive'] at ha
      cases ha
    · rw [hactive'] at ha
      cases ha
  | launched control hc hcommitted =>
    exact ⟨.launched control hc (hb.programmed hcommitted),
      hb.concat hstep rfl (fun _ => rfl) id hstaged⟩
  | aborted hc => exact ⟨.aborted hc, hb.concat hstep rfl (fun _ => rfl) id hstaged⟩
  | reset hc => exact ⟨.reset hc, hb.concat hstep rfl nofun id hstaged⟩
  | committing hc hactive hs hvalid ending before =>
    exact ⟨.config hc (hb.staged hs) hvalid ending before,
      hb.concat hstep rfl (fun _ => rfl) id hstaged⟩

/-! ## Runs -/

theorem endpointCb_eq (tickRateHz : Word) (d : Delivery) (e : Endpoint σ) :
    endpointCb B tickRateHz d e =
      if d.whole then
        e.count (handleRequest B tickRateHz d e.service).2
          (handleRequest B tickRateHz d e.service).1
      else e.count e.service { responseInit d.request with status := .badLength } := rfl

theorem count_spec (e : Endpoint σ) (service : Service σ) (answer : Message) :
    (e.count service answer).2.service = service ∧
      (e.count service answer).2.acceptedRequests + (e.count service answer).2.rejectedRequests =
        e.acceptedRequests + e.rejectedRequests + 1 := by
  have haccepted : e.acceptedRequests + 1 + e.rejectedRequests =
      e.acceptedRequests + e.rejectedRequests + 1 := by
    rw [BitVec.add_assoc, BitVec.add_comm 1, ← BitVec.add_assoc]
  unfold Endpoint.count
  split
  · dsimp only
    split
    · exact ⟨rfl, haccepted⟩
    · exact ⟨rfl, haccepted⟩
  · exact ⟨rfl, (BitVec.add_assoc _ _ _).symm⟩

theorem endpointCb_service (tickRateHz : Word) (d : Delivery) (e : Endpoint σ) :
    (endpointCb B tickRateHz d e).2.service =
      if d.whole then (handleRequest B tickRateHz d e.service).2 else e.service := by
  rw [endpointCb_eq]
  split
  · exact (count_spec _ _ _).1
  · exact (count_spec _ _ _).1

theorem count_status (e : Endpoint σ) (service : Service σ) (answer : Message) :
    (e.count service answer).1.status = answer.status := by
  unfold Endpoint.count
  split
  · dsimp only
    split <;> rfl
  · rfl

/-- What one message writes, as a step of the statics. -/
theorem turn_of_message (tickRateHz : Word) (d : Delivery) (e : Endpoint σ) :
    ∃ t : Transaction,
      (endpointCb B tickRateHz d e).2.service.writes = e.service.writes ++ t.writes ∧
      Turn d e.service.sequenceLoad e.service.config t
        (endpointCb B tickRateHz d e).2.service.sequenceLoad
        (endpointCb B tickRateHz d e).2.service.config ∧
      LoadStep d (endpointCb B tickRateHz d e).1.status e.service.sequenceLoad
        (endpointCb B tickRateHz d e).2.service.sequenceLoad := by
  rw [endpointCb_service, endpointCb_eq]
  split
  · next hwhole =>
    obtain ⟨written, hwrites, t, rfl, hturn⟩ :=
      serves_handleRequest B tickRateHz hwhole e.service rfl rfl
    rw [count_status]
    exact ⟨t, hwrites, hturn, loadStep_handleRequest B tickRateHz hwhole e.service⟩
  · rw [count_status]
    exact ⟨.silent, (List.append_nil _).symm, .quiet rfl rfl, .same keepsLoad_badLength⟩

/-- The answers to the messages of a list. -/
def Endpoint.answers (tickRateHz : Word) : List Delivery → Endpoint σ → List Message
  | [], _ => []
  | d :: rest, e =>
    (endpointCb B tickRateHz d e).1 ::
      Endpoint.answers tickRateHz rest (endpointCb B tickRateHz d e).2

theorem answers_concat (tickRateHz : Word) (deliveries : List Delivery) (d : Delivery) :
    ∀ e : Endpoint σ, Endpoint.answers B tickRateHz (deliveries ++ [d]) e =
      Endpoint.answers B tickRateHz deliveries e ++ [(endpointCb B tickRateHz d
        (deliveries.foldl (fun e d => (endpointCb B tickRateHz d e).2) e)).1] := by
  induction deliveries with
  | nil => exact fun _ => rfl
  | cons d' rest ih => exact fun e => congrArg _ (ih _)

theorem after_concat (tickRateHz : Word) (bus : σ) (deliveries : List Delivery) (d : Delivery) :
    Endpoint.after B tickRateHz bus (deliveries ++ [d]) =
      (endpointCb B tickRateHz d (Endpoint.after B tickRateHz bus deliveries)).2 := by
  rw [Endpoint.after, List.foldl_append]
  rfl

/-- The history of a run: its messages with the status of their answers, and its writes. -/
structure Tells (tickRateHz : Word) (bus : σ) (deliveries : List Delivery) (h : History) :
    Prop where
  messages : h.map (·.delivery) = deliveries
  answers : h.map (·.status) =
    (Endpoint.answers B tickRateHz deliveries (Endpoint.init bus)).map (·.status)
  writes : (Endpoint.after B tickRateHz bus deliveries).service.writes =
    h.flatMap fun e => e.written.writes

/-- The writes of a run are those of a disciplined history of its messages. -/
theorem history_of_run (tickRateHz : Word) (bus : σ) (deliveries : List Delivery) :
    ∃ h : History, Tells B tickRateHz bus deliveries h ∧ Disciplined h ∧
      Books h (Endpoint.after B tickRateHz bus deliveries).service.sequenceLoad
        (Endpoint.after B tickRateHz bus deliveries).service.config := by
  induction deliveries using List.reverseRecOn with
  | nil => exact ⟨[], ⟨rfl, rfl, rfl⟩, .start, nofun, nofun, nofun, nofun⟩
  | append_singleton deliveries d ih =>
    obtain ⟨h, htells, hdisciplined, hbooks⟩ := ih
    obtain ⟨t, hwritten, hturn, hstep⟩ :=
      turn_of_message B tickRateHz d (Endpoint.after B tickRateHz bus deliveries)
    obtain ⟨hpermitted, hnext⟩ := hbooks.turn hturn hstep fun hstages => by
      rw [endpointCb_service, if_pos hstages.whole]
      exact (staged_of_stages B tickRateHz hstages _).2.2
    refine ⟨_, ⟨?_, ?_, ?_⟩, .next hdisciplined (e := ⟨d, t, _⟩) hpermitted,
      after_concat B tickRateHz bus deliveries d ▸ hnext⟩
    · rw [List.map_append, htells.messages]
      rfl
    · rw [List.map_append, htells.answers, answers_concat, List.map_append]
      rfl
    · rw [after_concat, hwritten, htells.writes, List.flatMap_append]
      exact congrArg _ (List.append_nil _).symm

theorem counters_of_run (tickRateHz : Word) (bus : σ) (deliveries : List Delivery) :
    (Endpoint.after B tickRateHz bus deliveries).acceptedRequests +
        (Endpoint.after B tickRateHz bus deliveries).rejectedRequests =
      BitVec.ofNat 32 deliveries.length := by
  induction deliveries using List.reverseRecOn with
  | nil => rfl
  | append_singleton deliveries d ih =>
    rw [after_concat, endpointCb_eq, List.length_append, List.length_singleton, BitVec.ofNat_add,
      ← ih]
    split
    · exact (count_spec _ _ _).2
    · exact (count_spec _ _ _).2

/-- Whatever messages come and whatever the registers answer, the register writes fall into one
transaction for each message, in their order, and each was permitted by the messages before it:
event words go to the next place of a load that was taken and is still open, a count is written for
a load that is whole and has its CRC, ARM and START are given to a program that is untouched since
its count was written, and a commit carries the words of the last CONFIG_STAGE, which are valid.
Every message is counted once. -/
theorem service_disciplined (tickRateHz : Word) (bus : σ) (deliveries : List Delivery) :
    (∃ h : History, Tells B tickRateHz bus deliveries h ∧ Disciplined h) ∧
    (Endpoint.after B tickRateHz bus deliveries).acceptedRequests +
        (Endpoint.after B tickRateHz bus deliveries).rejectedRequests =
      BitVec.ofNat 32 deliveries.length := by
  obtain ⟨h, htells, hdisciplined, -⟩ := history_of_run B tickRateHz bus deliveries
  exact ⟨⟨h, htells, hdisciplined⟩, counters_of_run B tickRateHz bus deliveries⟩

end QCrate.R5
