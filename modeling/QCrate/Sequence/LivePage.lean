import QCrate.R5.Requests
import QCrate.Sequence.Page

/-!
# The sequence page while the PL runs

Between two accesses of the R5 the PL goes on, so the page an access finds is not the one that the
access before has left. `Evolves` is what can have happened: the service is the only writer, so the
event memory and the event count stay, a command in flight ends and the lock opens. The status is a
snapshot that lags the engine. It may leave rest while the memory is locked or a command is in
flight, as after an ARM, and not otherwise.

* `Undisturbed` — what a computation leaves alone that does not write to the sequence page.
* `calm_handleConfigCommit` and its like — the handlers of the other pages are such computations.
-/

namespace QCrate.Sequence

open QCrate.R5

namespace Page

/-! ## Commands -/

/-- `command_encoding_valid` for the low bits of a CONTROL write. -/
def commandEncodingValid (bits : BitVec 4) : Bool :=
  bits = 0 || bits = 1 || bits = 2 || bits = 4 || bits = 8

/-- A write to CONTROL: a command sets out unless one is in flight, and ARM locks the memory. -/
def command (p : Page) (value : Word) : Page :=
  let bits : BitVec 4 := value.setWidth 4
  if commandEncodingValid bits && (bits = 0 || !p.commandBusy) then
    { p with
      memoryLocked := bits.getLsbD 0 || p.memoryLocked
      commandBusy := bits ≠ 0 || p.commandBusy }
  else p

/-- A write anywhere on the page. -/
def store (p : Page) (offset value : Word) : Page :=
  if offset = seqControl then p.command value else p.write offset value

/-! ## What the PL does meanwhile -/

/-- The engine shows idle or a fault. -/
def Rests (p : Page) : Prop := p.idle = true ∨ p.faulted = true

/-- What can become of a page when nobody writes to it. The snapshot of a free page is not overtaken
by an engine that has left rest. -/
structure Evolves (p p' : Page) : Prop where
  memory : p'.memory = p.memory
  eventCount : p'.eventCount = p.eventCount
  memoryLocked : p'.memoryLocked = true → p.memoryLocked = true
  commandBusy : p'.commandBusy = true → p.commandBusy = true
  rests : p.memoryLocked = false → p.commandBusy = false → p.Rests → p'.Rests

/-- Between two accesses there may be no edge at all. -/
theorem Evolves.refl (p : Page) : p.Evolves p := ⟨rfl, rfl, id, id, fun _ _ => id⟩

/-- What the page becomes over several edges. -/
theorem Evolves.trans {p q r : Page} (h : p.Evolves q) (h' : q.Evolves r) : p.Evolves r where
  memory := h'.memory.trans h.memory
  eventCount := h'.eventCount.trans h.eventCount
  memoryLocked := h.memoryLocked ∘ h'.memoryLocked
  commandBusy := h.commandBusy ∘ h'.commandBusy
  rests hl hb hr := by
    have hl' := mt h.memoryLocked (by simpa using hl)
    have hb' := mt h.commandBusy (by simpa using hb)
    exact h'.rests (by simpa using hl') (by simpa using hb') (h.rests hl hb hr)

/-- A page on which a load can go on: the memory can be written, and nothing can close it. -/
structure Open (p : Page) : Prop where
  rests : p.Rests
  commandBusy : p.commandBusy = false
  memoryLocked : p.memoryLocked = false

/-- A free page has the engine at idle. -/
theorem Free.isOpen {p : Page} (h : p.Free) : p.Open := ⟨.inl h.idle, h.commandBusy, h.memoryLocked⟩

/-- Nothing closes a page to which nobody writes. -/
theorem Open.evolves {p p' : Page} (h : p.Open) (he : p.Evolves p') : p'.Open where
  rests := he.rests h.memoryLocked h.commandBusy h.rests
  commandBusy := by
    have hb := mt he.commandBusy
    simpa [h.commandBusy] using hb
  memoryLocked := by
    have hl := mt he.memoryLocked
    simpa [h.memoryLocked] using hl

/-- The RTL lets the service into an open page. -/
theorem Open.allowed {p : Page} (h : p.Open) : p.memoryAccessAllowed = true := by
  rw [memoryAccessAllowed, h.memoryLocked, h.commandBusy]
  rfl

/-! ## Offsets -/

/-- An offset outside the sequence page. -/
def Outside (offset : Word) : Prop := offset.toNat / 4096 ≠ 2

instance (offset : Word) : Decidable (Outside offset) := inferInstanceAs (Decidable (_ ≠ _))

/-- The event window by numbers: 2048 bytes from 0x2800 on. -/
theorem eventWindow_iff (offset : Word) : eventWindow offset = true ↔ offset.toNat / 2048 = 5 := by
  have hlt := offset.isLt
  have h5 : (5 : BitVec 21).toNat = 5 := rfl
  rw [eventWindow, decide_eq_true_iff, ← BitVec.toNat_inj, BitVec.extractLsb'_toNat,
    Nat.shiftRight_eq_div_pow, h5]
  omega

/-- The event window is on the sequence page. -/
theorem Outside.not_eventWindow {offset : Word} (h : Outside offset) :
    eventWindow offset = false := by
  by_contra hw
  have hnat := (eventWindow_iff offset).mp (by simpa using hw)
  unfold Outside at h
  omega

/-- A register of the sequence page is at no other page. -/
theorem Outside.ne {offset register : Word} (h : Outside offset) (hr : ¬Outside register) :
    offset ≠ register := by
  rintro rfl
  exact hr h

/-- A write to another page. -/
theorem store_outside (p : Page) {offset : Word} (h : Outside offset) (value : Word) :
    p.store offset value = p := by
  rw [store, if_neg (h.ne (by decide)), write, h.not_eventWindow, if_neg Bool.false_ne_true,
    if_neg (h.ne (by decide)), ite_self]

end Page

/-! ## The bus -/

/-- The page as an access has left it, and how many accesses there were. -/
structure Live where
  page : Page
  time : ℕ

/-- The bus, given what the PL does before each access, and for each time how many more polls fit
in a wait that begins then. -/
def liveBus (pl : ℕ → Page → Page) (polls : ℕ → ℕ) : Bus Live where
  read offset s := ((pl s.time s.page).read offset, ⟨pl s.time s.page, s.time + 1⟩)
  write offset value s := ⟨(pl s.time s.page).store offset value, s.time + 1⟩
  pollsLeft s := polls s.time

/-- The page that the next access finds. -/
def Live.found (pl : ℕ → Page → Page) (s : Live) : Page := pl s.time s.page

section

variable {pl : ℕ → Page → Page} {polls : ℕ → ℕ} (hpl : ∀ t p, Page.Evolves p (pl t p))

/-! ## Computations that leave the sequence page alone -/

/-- The load state and what the service has put on the page are as before. -/
structure Undisturbed (s s' : Service Live) : Prop where
  load : s'.sequenceLoad = s.sequenceLoad
  memory : s'.bus.page.memory = s.bus.page.memory
  eventCount : s'.bus.page.eventCount = s.bus.page.eventCount
  isOpen : s.bus.page.Open → s'.bus.page.Open
  writes : ∃ l, s'.writes = s.writes ++ l ∧ ∀ w ∈ l, Page.Outside w.1

theorem Undisturbed.refl (s : Service Live) : Undisturbed s s :=
  ⟨rfl, rfl, rfl, id, [], (List.append_nil _).symm, nofun⟩

/-- What two computations leave alone, one after the other. -/
theorem Undisturbed.trans {s s' s'' : Service Live} (h : Undisturbed s s')
    (h' : Undisturbed s' s'') : Undisturbed s s'' where
  load := h'.load.trans h.load
  memory := h'.memory.trans h.memory
  eventCount := h'.eventCount.trans h.eventCount
  isOpen := h'.isOpen ∘ h.isOpen
  writes := by
    obtain ⟨l, hl, hout⟩ := h.writes
    obtain ⟨l', hl', hout'⟩ := h'.writes
    refine ⟨l ++ l', by rw [hl', hl, List.append_assoc], fun w hw => ?_⟩
    exact (List.mem_append.mp hw).elim (hout w) (hout' w)

def Calm {α : Type} (m : StateM (Service Live) α) : Prop := ∀ s, Undisturbed s (m s).2

theorem calm_pure {α : Type} (a : α) : Calm (pure a) := fun s => .refl s

/-- Computations are put together. -/
theorem calm_bind {α β : Type} {m : StateM (Service Live) α} {f : α → StateM (Service Live) β}
    (hm : Calm m) (hf : ∀ a, Calm (f a)) : Calm (m >>= f) :=
  fun s => (hm s).trans (hf (m s).1 (m s).2)

/-- A computation can look at the statics. -/
theorem calm_get {α : Type} {f : Service Live → StateM (Service Live) α} (hf : ∀ s, Calm (f s)) :
    Calm (get >>= f) :=
  fun s => hf s s

/-- The statics of the configuration are not the page's. -/
theorem calm_modifyConfig (f : ConfigState → ConfigState) : Calm (modifyConfig f) :=
  fun _ => ⟨rfl, rfl, rfl, id, [], (List.append_nil _).symm, nofun⟩

theorem calm_setReason (reason : ConfigReason) : Calm (setReason reason) :=
  calm_modifyConfig fun config => { config with reason := reason }

/-- Whichever branch is taken. -/
theorem calm_ite {α : Type} {c : Prop} [Decidable c] {m m' : StateM (Service Live) α}
    (h : Calm m) (h' : Calm m') : Calm (if c then m else m') := by
  split
  · exact h
  · exact h'

/-- The nine words of the DSP page. -/
theorem length_dspWords (words : ConfigWords) : (dspWords words).length = 9 := by
  rw [dspWords, List.length_take, Vector.length_toList]
  rfl

include hpl

/-- A read gives the PL time and changes nothing. -/
theorem calm_regRead (offset : Word) : Calm (regRead (liveBus pl polls) offset) := by
  intro s
  have he := hpl s.bus.time s.bus.page
  exact ⟨rfl, he.memory, he.eventCount, fun ho => ho.evolves he, [], (List.append_nil _).symm,
    nofun⟩

/-- A write to another page gives the PL time as well. -/
theorem calm_regWrite {offset : Word} (h : Page.Outside offset) (value : Word) :
    Calm (regWrite (liveBus pl polls) offset value) := by
  intro s
  have he := hpl s.bus.time s.bus.page
  have hpage : (regWrite (liveBus pl polls) offset value s).2.bus.page =
      pl s.bus.time s.bus.page := Page.store_outside _ h value
  refine ⟨rfl, ?_, ?_, ?_, [(offset, value)], rfl, fun w hw => ?_⟩
  · rw [hpage, he.memory]
  · rw [hpage, he.eventCount]
  · rw [hpage]
    exact fun ho => ho.evolves he
  · rw [List.mem_singleton.mp hw]
    exact h

/-! ## Status payloads -/

/-- The registers of a payload are read one by one. -/
theorem calm_readPayload : ∀ (offsets : List (Fin 11 × Word)) (response : R5.Message),
    Calm (readPayload (liveBus pl polls) offsets response)
  | [], _ => calm_pure _
  | _ :: rest, _ => calm_bind (calm_regRead hpl _) fun _ => calm_readPayload rest _

theorem calm_sequenceStatusPayload (response : R5.Message) :
    Calm (sequenceStatusPayload (liveBus pl polls) response) :=
  calm_bind (calm_regRead hpl _) fun _ => calm_get fun _ => calm_readPayload hpl _ _

theorem calm_sequenceStatusError (response : R5.Message) (status : R5.Status) :
    Calm (sequenceStatusError (liveBus pl polls) response status) :=
  calm_sequenceStatusPayload hpl _

/-- The bracket of the generation reads up to three times. -/
theorem calm_readActive : ∀ (n : ℕ) (response : R5.Message) (generation : Word),
    Calm (readActive (liveBus pl polls) n response generation)
  | 0, _, _ => calm_pure _
  | n + 1, _, _ =>
    calm_bind (calm_regRead hpl _) fun _ => calm_bind (calm_regRead hpl _) fun _ =>
      calm_bind (calm_regRead hpl _) fun _ => calm_bind (calm_regRead hpl _) fun _ =>
      calm_bind (calm_regRead hpl _) fun _ => calm_bind (calm_regRead hpl _) fun _ =>
      calm_ite (calm_pure _) (calm_readActive n _ _)

theorem calm_configStatusPayload (response : R5.Message) :
    Calm (configStatusPayload (liveBus pl polls) response) :=
  calm_get fun _ => calm_bind (calm_readActive hpl _ _ _) fun _ =>
    calm_bind (calm_regRead hpl _) fun _ => calm_bind (calm_regRead hpl _) fun _ =>
    calm_bind (calm_regRead hpl _) fun _ => calm_bind (calm_regRead hpl _) fun _ => calm_pure _

theorem calm_configError (response : R5.Message) (status : R5.Status) (reason : ConfigReason) :
    Calm (configError (liveBus pl polls) response status reason) :=
  calm_bind (calm_setReason _) fun _ => calm_configStatusPayload hpl _

/-! ## CONFIG_COMMIT -/

theorem calm_pollCommit (generationBefore : Word) :
    Calm (pollCommit (liveBus pl polls) generationBefore) :=
  calm_bind (calm_regRead hpl _) fun _ => calm_ite (calm_pure _)
    (calm_ite (calm_bind (calm_regRead hpl _) fun _ => calm_pure _) (calm_pure _))

/-- The wait for the commit only reads, however long it polls. -/
theorem calm_waitForCommit (generationBefore : Word) :
    ∀ n, Calm (waitForCommit (liveBus pl polls) generationBefore n)
  | 0 => calm_bind (calm_pollCommit hpl _) fun _ => calm_pure _
  | n + 1 => calm_bind (calm_pollCommit hpl _) fun outcome => by
    cases outcome with
    | some outcome => exact calm_pure _
    | none => exact calm_waitForCommit generationBefore n

/-- A comparison reads up to the first word that differs. -/
theorem calm_regWordsMatch : ∀ (words : List Word) (offset : Word),
    Calm (regWordsMatch (liveBus pl polls) offset words)
  | [], _ => calm_pure _
  | _ :: rest, _ => calm_bind (calm_regRead hpl _) fun _ =>
    calm_ite (calm_regWordsMatch rest _) (calm_pure _)

theorem calm_regsMatch : ∀ registers : List (Word × Word),
    Calm (regsMatch (liveBus pl polls) registers)
  | [] => calm_pure _
  | _ :: rest => calm_bind (calm_regRead hpl _) fun _ => calm_ite (calm_regsMatch rest)
    (calm_pure _)

/-- Consecutive words of a page from 0x3000 on. -/
theorem calm_regWriteWords (words : List Word) (offset : Word) (hlow : 0x3000 ≤ offset.toNat)
    (hhigh : offset.toNat + 4 * words.length < 2 ^ 32) :
    Calm (regWriteWords (liveBus pl polls) offset words) := by
  induction words generalizing offset with
  | nil => exact calm_pure _
  | cons word rest ih =>
    rw [List.length_cons] at hhigh
    have hout : Page.Outside offset := by
      unfold Page.Outside
      omega
    have hnext : (offset + 4).toNat = offset.toNat + 4 := by
      have h4 : (4 : Word).toNat = 4 := rfl
      rw [BitVec.toNat_add, h4, Nat.mod_eq_of_lt (by omega)]
    exact calm_bind (calm_regWrite hpl hout word) fun _ => ih _ (by omega) (by omega)

/-- The stream page is another page. -/
theorem calm_configRestoreStream (length count mode : Word) :
    Calm (configRestoreStream (liveBus pl polls) length count mode) :=
  calm_bind (calm_regWrite hpl (by decide) _) fun _ =>
    calm_bind (calm_regWrite hpl (by decide) _) fun _ => calm_regWrite hpl (by decide) _

/-- The active page is compared and the status read. -/
theorem calm_verifyActive (words : ConfigWords) (response : R5.Message) :
    Calm (verifyActive (liveBus pl polls) words response) :=
  calm_bind (calm_regWordsMatch hpl _ _) fun _ => calm_ite (calm_configError hpl _ _ _)
    (calm_bind (calm_regRead hpl _) fun _ => calm_ite (calm_configError hpl _ _ _)
      (calm_bind (calm_setReason _) fun _ => calm_configStatusPayload hpl _))

/-- All of the DSP page is another page, in every way the commit can end. -/
theorem calm_commitDsp (words : ConfigWords) (length count mode : Word) (response : R5.Message) :
    Calm (commitDsp (liveBus pl polls) words length count mode response) := by
  have hshadow : Calm (regWriteWords (liveBus pl polls) dspShadowBase (dspWords words)) := by
    refine calm_regWriteWords hpl _ _ (by decide) ?_
    rw [length_dspWords]
    decide
  refine calm_bind (calm_regWrite hpl (by decide) _) fun _ => calm_bind hshadow fun _ =>
    calm_bind (calm_regWordsMatch hpl _ _) fun shadow => ?_
  split
  · exact calm_bind (calm_regWrite hpl (by decide) _) fun _ =>
      calm_bind (calm_configRestoreStream hpl _ _ _) fun _ => calm_configError hpl _ _ _
  · refine calm_bind (calm_regRead hpl _) fun _ => calm_bind (calm_regWrite hpl (by decide) _)
      fun _ => calm_get fun _ => calm_bind (calm_waitForCommit hpl _ _) fun outcome => ?_
    cases outcome with
    | rejected =>
      exact calm_bind (calm_regWrite hpl (by decide) _) fun _ =>
        calm_bind (calm_configRestoreStream hpl _ _ _) fun _ => calm_configError hpl _ _ _
    | timedOut => exact calm_configError hpl _ _ _
    | committed => exact calm_verifyActive hpl _ _

/-- The stream page is programmed before the DSP page. -/
theorem calm_commitStream (words : ConfigWords) (response : R5.Message) :
    Calm (commitStream (liveBus pl polls) words response) :=
  calm_bind (calm_regRead hpl _) fun _ => calm_bind (calm_regRead hpl _) fun _ =>
    calm_bind (calm_regRead hpl _) fun _ => calm_bind (calm_regWrite hpl (by decide) _) fun _ =>
    calm_bind (calm_regWrite hpl (by decide) _) fun _ =>
    calm_bind (calm_regWrite hpl (by decide) _) fun _ => calm_bind (calm_regsMatch hpl _) fun _ =>
    calm_ite (calm_bind (calm_configRestoreStream hpl _ _ _) fun _ => calm_configError hpl _ _ _)
      (calm_commitDsp hpl _ _ _ _ _)

/-- The gates read, and refuse or go on. -/
theorem calm_commitGates (words : ConfigWords) (response : R5.Message) :
    Calm (commitGates (liveBus pl polls) words response) :=
  calm_bind (calm_regRead hpl _) fun _ => calm_get fun _ => calm_ite (calm_configError hpl _ _ _)
    (calm_bind (calm_regRead hpl _) fun _ => calm_ite (calm_configError hpl _ _ _)
      (calm_bind (calm_regRead hpl _) fun _ => calm_ite (calm_configError hpl _ _ _)
        (calm_commitStream hpl _ _)))

/-- CONFIG_COMMIT, however it ends. -/
theorem calm_handleConfigCommit (request response : R5.Message) :
    Calm (handleConfigCommit (liveBus pl polls) request response) :=
  calm_ite (calm_pure _) (calm_get fun _ => calm_ite (calm_configError hpl _ _ _)
    (calm_bind (calm_setReason _) fun _ => calm_ite
      (calm_bind (calm_modifyConfig fun config => { config with validated := false }) fun _ =>
        calm_configError hpl _ _ _)
      (calm_commitGates hpl _ _)))

/-! ## The other handlers -/

omit hpl in
theorem calm_handlePing (request response : R5.Message) :
    Calm (handlePing request response) := calm_ite (calm_pure _) (calm_pure _)

theorem calm_handleGetInfo (request response : R5.Message) :
    Calm (handleGetInfo (liveBus pl polls) request response) :=
  calm_ite (calm_pure _) (calm_bind (calm_readPayload hpl _ _) fun _ => calm_pure _)

/-- The scratch register is on the system page. -/
theorem calm_handleScratchTest (request response : R5.Message) :
    Calm (handleScratchTest (liveBus pl polls) request response) :=
  calm_ite (calm_pure _) (calm_bind (calm_regRead hpl _) fun _ =>
    calm_bind (calm_regWrite hpl (by decide) _) fun _ => calm_bind (calm_regRead hpl _) fun _ =>
    calm_bind (calm_regWrite hpl (by decide) _) fun _ => calm_bind (calm_regRead hpl _) fun _ =>
    calm_pure _)

omit hpl in
theorem calm_handleGetR5Stats (tickCount tickRateHz : Word) (request response : R5.Message) :
    Calm (handleGetR5Stats tickCount tickRateHz request response) :=
  calm_ite (calm_pure _) (calm_pure _)

theorem calm_handleSeqGetStatus (request response : R5.Message) :
    Calm (handleSeqGetStatus (liveBus pl polls) request response) :=
  calm_ite (calm_pure _) (calm_sequenceStatusPayload hpl _)

theorem calm_handleConfigStage (request response : R5.Message) :
    Calm (handleConfigStage (liveBus pl polls) request response) :=
  calm_ite (calm_pure _) (calm_bind (calm_modifyConfig _) fun _ => calm_configStatusPayload hpl _)

theorem calm_handleConfigValidate (request response : R5.Message) :
    Calm (handleConfigValidate (liveBus pl polls) request response) :=
  calm_ite (calm_pure _) (calm_get fun _ => calm_ite (calm_configError hpl _ _ _)
    (calm_bind (calm_modifyConfig _) fun _ => calm_configStatusPayload hpl _))

theorem calm_handleConfigGetStatus (request response : R5.Message) :
    Calm (handleConfigGetStatus (liveBus pl polls) request response) :=
  calm_ite (calm_pure _) (calm_configStatusPayload hpl _)

/-- CONFIG_RECOVER discards the DSP shadow. -/
theorem calm_handleConfigRecover (request response : R5.Message) :
    Calm (handleConfigRecover (liveBus pl polls) request response) :=
  calm_ite (calm_pure _) (calm_bind (calm_regRead hpl _) fun _ => calm_ite
    (calm_configError hpl _ _ _) (calm_bind (calm_regWrite hpl (by decide) _) fun _ =>
      calm_bind (calm_modifyConfig _) fun _ => calm_configStatusPayload hpl _))

/-! ## Waiting for the sequencer -/

/-- The wait for the sequencer only reads. -/
theorem calm_sequenceWait (condition : SequenceWait) (completedBefore : Word) :
    ∀ n, Calm (sequenceWait (liveBus pl polls) condition completedBefore n) := by
  have hpoll : Calm (pollSequence (liveBus pl polls) condition completedBefore) := by
    refine calm_bind (calm_regRead hpl _) fun _ => calm_ite (calm_pure _)
      (calm_bind ?_ fun _ => calm_pure _)
    cases condition with
    | armed => exact calm_pure _
    | started => exact calm_ite (calm_pure _) (calm_bind (calm_regRead hpl _) fun _ => calm_pure _)
    | idle => exact calm_pure _
  intro n
  induction n with
  | zero => exact calm_bind hpoll fun _ => calm_pure _
  | succ n ih =>
    refine calm_bind hpoll fun outcome => ?_
    cases outcome with
    | some outcome => exact calm_pure _
    | none => exact ih

theorem calm_sequenceWaitResponse (response : R5.Message) (wait : WaitStatus) :
    Calm (sequenceWaitResponse (liveBus pl polls) response wait) :=
  calm_sequenceStatusPayload hpl _

end

end QCrate.Sequence
