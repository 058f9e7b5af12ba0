import QCrate.Sequence.LivePage
import QCrate.Sequence.LoadPath

/-!
# The loader over any sequence of requests

The service keeps one load and one committed program, and every handler touches them in its own
way. What holds between two requests is `Consistent`: an open load is a correct beginning of what
was announced, on a page that can be written, and a committed program is on the page.

* `Kept` — what a request does that does not begin a load, with one lemma for each handler.
* `consistent_after` — the invariant after any sequence of requests.
* `loader_invariant` — what is on the page when a program is committed, and when the event memory,
  ARM and START are written.
-/

namespace QCrate.Sequence

open QCrate.R5

/-! ## The invariant -/

/-- The service with its page at rest: what `Loading` is stated for. -/
def still (s : Service Live) : Service Page :=
  { bus := { s.bus.page with
      idle := true, faulted := false, commandBusy := false, memoryLocked := false }
    sequenceLoad := s.sequenceLoad
    config := s.config
    writes := s.writes }

theorem free_still (s : Service Live) : (still s).bus.Free := ⟨rfl, rfl, rfl, rfl⟩

/-- The open load: the events so far are checked and in the memory, and more can be written. -/
structure InLoad (s : Service Live) (count : ℕ) (crc : Word) (taken : List Event) : Prop where
  loading : Loading count crc taken (still s)
  atLeast : 2 ≤ count
  safe : taken.length = count → stateAfter taken.getLast? = 0
  isOpen : s.bus.page.Open
  committed : s.sequenceLoad.committed = false

/-- The committed program is on the page, with the count and the CRC that were declared. -/
structure Stored (s : Service Live) (events : List Event) : Prop where
  program : Program events
  holds : Holds s.bus.page.memory events
  eventCount : s.bus.page.eventCount = BitVec.ofNat 8 events.length
  expectedEvents : s.sequenceLoad.expectedEvents = BitVec.ofNat 32 events.length
  expectedCrc32 : s.sequenceLoad.expectedCrc32 = crc32 (payloadOf events)

structure Consistent (s : Service Live) : Prop where
  loading : s.sequenceLoad.active = true → ∃ count crc taken, InLoad s count crc taken
  committed : s.sequenceLoad.committed = true → ∃ events, Stored s events

theorem Loading.still_congr {s s' : Service Live} {count : ℕ} {crc : Word} {taken : List Event}
    (h : Loading count crc taken (still s)) (hload : s'.sequenceLoad = s.sequenceLoad)
    (hmemory : s'.bus.page.memory = s.bus.page.memory) :
    Loading count crc taken (still s') := by
  have hl : (still s').sequenceLoad = (still s).sequenceLoad := hload
  have hm : (still s').bus.memory = (still s).bus.memory := hmemory
  exact {
    free := free_still s'
    active := by rw [hl]; exact h.active
    countLe := h.countLe
    takenLe := h.takenLe
    expected := by rw [hl]; exact h.expected
    next := by rw [hl]; exact h.next
    expectedCrc := by rw [hl]; exact h.expectedCrc
    crcState := by rw [hl]; exact h.crcState
    timestamp := by rw [hl]; exact h.timestamp
    state := by rw [hl]; exact h.state
    legal := h.legal
    holds := by rw [hm]; exact h.holds }

theorem Consistent.undisturbed {s s' : Service Live} (h : Consistent s) (hu : Undisturbed s s') :
    Consistent s' := by
  constructor
  · intro hactive
    rw [hu.load] at hactive
    obtain ⟨count, crc, taken, hl⟩ := h.loading hactive
    refine ⟨count, crc, taken, hl.loading.still_congr hu.load hu.memory, hl.atLeast, hl.safe,
      hu.isOpen hl.isOpen, ?_⟩
    rw [hu.load]
    exact hl.committed
  · intro hcommitted
    rw [hu.load] at hcommitted
    obtain ⟨events, he⟩ := h.committed hcommitted
    refine ⟨events, he.program, ?_, ?_, ?_, ?_⟩
    · rw [hu.memory]
      exact he.holds
    · rw [hu.eventCount]
      exact he.eventCount
    · rw [hu.load]
      exact he.expectedEvents
    · rw [hu.load]
      exact he.expectedCrc32

/-- Neither a load nor a program. -/
theorem consistent_of_dropped {s : Service Live} (hactive : s.sequenceLoad.active = false)
    (hcommitted : s.sequenceLoad.committed = false) : Consistent s := by
  constructor <;> intro h
  · rw [hactive] at h
    cases h
  · rw [hcommitted] at h
    cases h

/-! ## What a request does -/

/-- The event memory is written in a load only, ARM and START for a committed program only. -/
def Allowed (s s' : Service Live) (w : Word × Word) : Prop :=
  (Page.eventWindow w.1 = true → s.sequenceLoad.active = true) ∧
    (w.1 = seqControl → w.2 &&& (seqControlArm ||| seqControlStart) ≠ 0 →
      s.sequenceLoad.committed = true ∧ s'.sequenceLoad.committed = true)

/-- The count and the CRC that LOAD_BEGIN declared are the same. -/
def SameDeclared (s s' : Service Live) : Prop :=
  s'.sequenceLoad.expectedEvents = s.sequenceLoad.expectedEvents ∧
    s'.sequenceLoad.expectedCrc32 = s.sequenceLoad.expectedCrc32

/-- A request that begins no load. -/
structure Kept (s s' : Service Live) : Prop where
  consistent : Consistent s'
  writes : ∃ l, s'.writes = s.writes ++ l ∧ ∀ w ∈ l, Allowed s s' w
  memory : s.sequenceLoad.active = false → s'.bus.page.memory = s.bus.page.memory
  active : s'.sequenceLoad.active = true → s.sequenceLoad.active = true
  committed : s'.sequenceLoad.committed = true →
    s.sequenceLoad.active = true ∨ s.sequenceLoad.committed = true
  declared : SameDeclared s s'

theorem allowed_of_outside {s s' : Service Live} {w : Word × Word} (h : Page.Outside w.1) :
    Allowed s s' w := by
  constructor
  · intro hw
    rw [h.not_eventWindow] at hw
    cases hw
  · intro hw
    exact absurd hw (h.ne (by decide))

theorem kept_of_undisturbed {s s' : Service Live} (h : Consistent s) (hu : Undisturbed s s') :
    Kept s s' where
  consistent := h.undisturbed hu
  writes := by
    obtain ⟨l, hl, hout⟩ := hu.writes
    exact ⟨l, hl, fun w hw => allowed_of_outside (hout w hw)⟩
  memory := fun _ => hu.memory
  active := fun ha => by rwa [hu.load] at ha
  committed := fun hc => by
    rw [hu.load] at hc
    exact .inr hc
  declared := by
    rw [SameDeclared, hu.load]
    exact ⟨rfl, rfl⟩

/-- Reads come before what a handler does. -/
theorem Kept.after {s t s' : Service Live} (h : Kept t s') (hu : Undisturbed s t) :
    Kept s s' where
  consistent := h.consistent
  writes := by
    obtain ⟨l, hl, hout⟩ := hu.writes
    obtain ⟨l', hl', hallowed⟩ := h.writes
    refine ⟨l ++ l', by rw [hl', hl, List.append_assoc], fun w hw => ?_⟩
    rcases List.mem_append.mp hw with hw | hw
    · exact allowed_of_outside (hout w hw)
    · have ha := hallowed w hw
      rw [Allowed, hu.load] at ha
      exact ha
  memory := fun ha => by
    rw [← hu.load] at ha
    exact (h.memory ha).trans hu.memory
  active := fun ha => by
    rw [← hu.load]
    exact h.active ha
  committed := fun hc => by
    rw [← hu.load]
    exact h.committed hc
  declared := by
    have hd := h.declared
    rw [SameDeclared, hu.load] at hd
    exact hd

/-- The load is given up and nothing is written. -/
theorem kept_dropped (s : Service Live) :
    Kept s { s with sequenceLoad := s.sequenceLoad.dropped } where
  consistent := consistent_of_dropped rfl rfl
  writes := ⟨[], (List.append_nil _).symm, nofun⟩
  memory := fun _ => rfl
  active := fun h => absurd h Bool.false_ne_true
  committed := fun h => absurd h Bool.false_ne_true
  declared := ⟨rfl, rfl⟩

/-! ## Computations that keep the invariant -/

def Keeps (m : StateM (Service Live) R5.Message) : Prop := ∀ s, Consistent s → Kept s (m s).2

theorem keeps_of_calm {m : StateM (Service Live) R5.Message} (h : Calm m) : Keeps m :=
  fun s hs => kept_of_undisturbed hs (h s)

theorem kept_bind {α : Type} {m : StateM (Service Live) α}
    {f : α → StateM (Service Live) R5.Message} {s : Service Live} (hm : Undisturbed s (m s).2)
    (h : Kept (m s).2 (f (m s).1 (m s).2).2) : Kept s ((m >>= f) s).2 :=
  h.after hm

theorem modifyLoad_bind {f : SequenceLoadState → SequenceLoadState}
    {g : Unit → StateM (Service Live) R5.Message} (s : Service Live) :
    (modifyLoad f >>= g) s = g () { s with sequenceLoad := f s.sequenceLoad } :=
  rfl

theorem keeps_bind {α : Type} {m : StateM (Service Live) α}
    {f : α → StateM (Service Live) R5.Message} (hm : Calm m) (hf : ∀ a, Keeps (f a)) :
    Keeps (m >>= f) :=
  fun s hs => kept_bind (hm s) (hf _ _ (hs.undisturbed (hm s)))

theorem keeps_get {f : Service Live → StateM (Service Live) R5.Message}
    (h : ∀ s, Consistent s → Kept s (f s s).2) : Keeps (get >>= f) :=
  h

theorem keeps_ite {c : Prop} [Decidable c] {m m' : StateM (Service Live) R5.Message}
    (h : c → Keeps m) (h' : ¬c → Keeps m') : Keeps (if c then m else m') := by
  split
  · next hc => exact h hc
  · next hc => exact h' hc

section

variable {pl : ℕ → Page → Page} {polls : ℕ → ℕ} (hpl : ∀ t p, Page.Evolves p (pl t p))
variable {s : Service Live} {request response : R5.Message}

/-! ## Sequencer commands -/

/-- CONTROL and the answer to it. -/
structure Commanded (control : Word) (s s' : Service Live) : Prop where
  load : s'.sequenceLoad = s.sequenceLoad
  memory : s'.bus.page.memory = s.bus.page.memory
  eventCount : s'.bus.page.eventCount = s.bus.page.eventCount
  writes : ∃ l, s'.writes = s.writes ++ (seqControl, control) :: l ∧ ∀ w ∈ l, Page.Outside w.1

theorem Page.command_memory (p : Page) (value : Word) :
    (p.command value).memory = p.memory ∧ (p.command value).eventCount = p.eventCount := by
  unfold Page.command
  dsimp only
  split <;> exact ⟨rfl, rfl⟩

include hpl

theorem commanded_bind {f : Unit → StateM (Service Live) R5.Message} (hf : Calm (f ()))
    (control : Word) (s : Service Live) :
    Commanded control s ((regWrite (liveBus pl polls) seqControl control >>= f) s).2 := by
  have he := hpl s.bus.time s.bus.page
  have hu := hf (regWrite (liveBus pl polls) seqControl control s).2
  have hpage : (regWrite (liveBus pl polls) seqControl control s).2.bus.page =
      (pl s.bus.time s.bus.page).command control := rfl
  obtain ⟨l, hl, hout⟩ := hu.writes
  refine ⟨hu.load, ?_, ?_, l, ?_, hout⟩
  · exact (hu.memory.trans (congrArg Page.memory hpage)).trans
      ((Page.command_memory _ _).1.trans he.memory)
  · exact (hu.eventCount.trans (congrArg Page.eventCount hpage)).trans
      ((Page.command_memory _ _).2.trans he.eventCount)
  · rw [List.append_cons]
    exact hl

theorem commanded_sequenceCommand (control : Word) (condition : SequenceWait)
    (completedBefore : Word) (response : R5.Message) (s : Service Live) :
    Commanded control s
      (sequenceCommand (liveBus pl polls) control condition completedBefore response s).2 := by
  unfold sequenceCommand
  refine commanded_bind hpl ?_ control s
  exact calm_get fun _ => calm_bind (calm_sequenceWait hpl _ _ _) fun _ =>
    calm_sequenceWaitResponse hpl _ _

omit hpl in
/-- No load is open, so the page may be closed now. -/
theorem kept_of_commanded {s' : Service Live} (hs : Consistent s)
    (hactive : s.sequenceLoad.active = false) {control : Word}
    (hcontrol : control &&& (seqControlArm ||| seqControlStart) ≠ 0 →
      s.sequenceLoad.committed = true) (h : Commanded control s s') : Kept s s' := by
  obtain ⟨l, hl, hout⟩ := h.writes
  refine ⟨⟨?_, ?_⟩, ⟨_, hl, ?_⟩, fun _ => h.memory, ?_, ?_, ?_⟩
  · intro ha
    rw [h.load, hactive] at ha
    cases ha
  · intro hc
    rw [h.load] at hc
    obtain ⟨events, he⟩ := hs.committed hc
    refine ⟨events, he.program, ?_, ?_, ?_, ?_⟩
    · rw [h.memory]
      exact he.holds
    · rw [h.eventCount]
      exact he.eventCount
    · rw [h.load]
      exact he.expectedEvents
    · rw [h.load]
      exact he.expectedCrc32
  · intro w hw
    rcases List.mem_cons.mp hw with rfl | hw
    · refine ⟨fun hwin => ?_, fun _ hc => ?_⟩
      · have hno : Page.eventWindow seqControl = false := by decide
        rw [hno] at hwin
        cases hwin
      · rw [h.load]
        exact ⟨hcontrol hc, hcontrol hc⟩
    · exact allowed_of_outside (hout w hw)
  · intro ha
    rwa [h.load] at ha
  · intro hc
    rw [h.load] at hc
    exact .inr hc
  · rw [SameDeclared, h.load]
    exact ⟨rfl, rfl⟩

omit hpl in
theorem Consistent.not_active (hs : Consistent s) (hc : s.sequenceLoad.committed = true) :
    s.sequenceLoad.active = false := by
  by_contra ha
  obtain ⟨_, _, _, hl⟩ := hs.loading (by simpa using ha)
  rw [hl.committed] at hc
  cases hc

omit hpl in
/-- The gate of ARM and of START. -/
theorem committed_of_gate {c : Prop} (h : ¬((!s.sequenceLoad.committed) = true ∨ c)) :
    s.sequenceLoad.committed = true := by
  by_contra hno
  exact h (.inl (by simpa using hno))

theorem keeps_handleSeqArm : Keeps (handleSeqArm (liveBus pl polls) request response) := by
  refine keeps_ite (fun _ => keeps_of_calm (calm_pure _)) fun _ =>
    keeps_bind (calm_regRead hpl _) fun status => keeps_get fun s hs => ?_
  split
  · exact kept_of_undisturbed hs (calm_sequenceStatusError hpl _ _ _)
  · next hgate =>
    have hc := committed_of_gate hgate
    exact kept_of_commanded hs (hs.not_active hc) (fun _ => hc)
      (commanded_sequenceCommand hpl _ _ _ _ _)

theorem keeps_handleSeqStart : Keeps (handleSeqStart (liveBus pl polls) request response) := by
  refine keeps_ite (fun _ => keeps_of_calm (calm_pure _)) fun _ =>
    keeps_bind (calm_regRead hpl _) fun status => keeps_get fun s hs => ?_
  split
  · exact kept_of_undisturbed hs (calm_sequenceStatusError hpl _ _ _)
  · next hgate =>
    have hread : Undisturbed s (regRead (liveBus pl polls) seqCompletedShots s).2 :=
      calm_regRead hpl _ s
    have ht := hs.undisturbed hread
    have hc : (regRead (liveBus pl polls) seqCompletedShots s).2.sequenceLoad.committed = true := by
      rw [hread.load]
      exact committed_of_gate hgate
    refine kept_bind hread ?_
    exact kept_of_commanded ht (ht.not_active hc) (fun _ => hc)
      (commanded_sequenceCommand hpl _ _ _ _ _)

omit hpl in
/-- The status of a page at rest has one of its two bits. -/
theorem statusWord_rests {p : Page} (h : p.Rests) :
    p.statusWord &&& (seqHwIdle ||| seqHwFaulted) ≠ 0 := by
  unfold Page.statusWord
  rcases h with h | h <;> rw [h] <;>
    cases p.memoryLocked <;> cases p.commandBusy <;> cases p.busy <;> cases p.armed <;>
    cases p.validating
  all_goals first
    | cases p.faulted <;> decide
    | cases p.idle <;> decide

omit hpl in
theorem regRead_status (s : Service Live) :
    (regRead (liveBus pl polls) seqStatus s).1 = (pl s.bus.time s.bus.page).statusWord := by
  change (pl s.bus.time s.bus.page).read seqStatus = _
  rw [Page.read, if_neg (by decide), if_pos rfl]

/-- In a load the engine rests, so ABORT is refused. -/
theorem keeps_handleSeqAbort : Keeps (handleSeqAbort (liveBus pl polls) request response) := by
  refine keeps_ite (fun _ => keeps_of_calm (calm_pure _)) fun _ s hs => ?_
  have hread : Undisturbed s (regRead (liveBus pl polls) seqStatus s).2 := calm_regRead hpl _ s
  have ht := hs.undisturbed hread
  refine kept_bind hread ?_
  split
  · exact kept_of_undisturbed ht (calm_sequenceStatusError hpl _ _ _)
  · next hgate =>
    refine kept_of_commanded ht ?_ (fun hc => absurd hc (by decide))
      (commanded_sequenceCommand hpl _ _ _ _ _)
    by_contra ha
    obtain ⟨_, _, _, hl⟩ := ht.loading (by simpa using ha)
    rw [regRead_status] at hgate
    exact hgate (statusWord_rests hl.isOpen.rests)

theorem keeps_handleSeqReset : Keeps (handleSeqReset (liveBus pl polls) request response) := by
  refine keeps_ite (fun _ => keeps_of_calm (calm_pure _)) fun _ s hs => ?_
  obtain ⟨t, ht⟩ : ∃ t : Service Live,
      t = { s with sequenceLoad := { s.sequenceLoad with active := false } } := ⟨_, rfl⟩
  rw [modifyLoad_bind, ← ht]
  have hinactive : t.sequenceLoad.active = false := by rw [ht]
  have hconsistent : Consistent t := by
    refine ⟨fun ha => ?_, fun hc => ?_⟩
    · rw [hinactive] at ha
      cases ha
    · rw [ht] at hc ⊢
      obtain ⟨events, h1, h2, h3, h4, h5⟩ := hs.committed hc
      exact ⟨events, h1, h2, h3, h4, h5⟩
  have hcmd : Commanded seqControlReset t
      (sequenceCommand (liveBus pl polls) seqControlReset .idle 0 response t).2 :=
    commanded_sequenceCommand hpl _ _ _ _ _
  generalize
    (sequenceCommand (liveBus pl polls) seqControlReset .idle 0 response t).2 = s' at hcmd ⊢
  have hk := kept_of_commanded hconsistent hinactive (fun hc => absurd hc (by decide)) hcmd
  obtain ⟨l, hl, hallowed⟩ := hk.writes
  have hactive := hk.active
  refine ⟨hk.consistent, ⟨l, by rw [hl, ht], fun w hw => ?_⟩, fun _ => ?_, fun ha => ?_,
    fun hc => ?_, ?_⟩
  · obtain ⟨h1, h2⟩ := hallowed w hw
    rw [hinactive] at h1
    rw [ht] at h2
    exact ⟨fun hwin => absurd (h1 hwin) Bool.false_ne_true, h2⟩
  · rw [hcmd.memory, ht]
  · rw [hinactive] at hactive
    exact absurd (hactive ha) Bool.false_ne_true
  · rw [hcmd.load, ht] at hc
    exact .inr hc
  · rw [SameDeclared, hcmd.load, ht]
    exact ⟨rfl, rfl⟩

/-! ## LOAD_EVENT -/

omit hpl in
theorem keeps_sequenceLoadError (status : R5.Status) (eventIndex detail : Word) :
    Keeps (sequenceLoadError response status eventIndex detail) :=
  fun s _ => kept_dropped s

/-- On an open page the words are written, read back and counted. -/
theorem writeEventWords_open (ho : s.bus.page.Open) {i k : ℕ} (hi : i < 128) (words : List Word)
    (hk : k + words.length ≤ 4) :
    ∃ s', writeEventWords (liveBus pl polls) (BitVec.ofNat 32 i) (BitVec.ofNat 32 k) words s =
        (none, s') ∧ s'.bus.page.Open ∧
      s'.bus.page.memory = s.bus.page.memory.store i k words ∧
      s'.bus.page.eventCount = s.bus.page.eventCount ∧
      s'.sequenceLoad = { s.sequenceLoad with
        crc32State := words.foldl crc32Word s.sequenceLoad.crc32State } ∧
      ∃ l, s'.writes = s.writes ++ l ∧ ∀ w ∈ l, w.1 ≠ seqControl := by
  induction words generalizing s k with
  | nil => exact ⟨s, rfl, ho, rfl, rfl, rfl, [], (List.append_nil _).symm, nofun⟩
  | cons word rest ih =>
    rw [List.length_cons] at hk
    have haddr := ramAddr_eventOffset hi (show k < 4 by omega)
    have hwin := eventWindow_eventOffset hi (show k < 4 by omega)
    have hcontrol : eventOffset (BitVec.ofNat 32 i) (BitVec.ofNat 32 k) ≠ seqControl := by
      intro h
      rw [h] at hwin
      exact absurd hwin (by decide)
    obtain ⟨p, hp⟩ : ∃ p, p = pl s.bus.time s.bus.page := ⟨_, rfl⟩
    have hevolves : s.bus.page.Evolves p := hp ▸ hpl _ _
    have hopen := ho.evolves hevolves
    obtain ⟨q, hq⟩ : ∃ q, q = { p with memory := Function.update p.memory (wordAddr i k) word } :=
      ⟨_, rfl⟩
    have hwrite : p.store (eventOffset (BitVec.ofNat 32 i) (BitVec.ofNat 32 k)) word = q := by
      rw [Page.store, if_neg hcontrol, Page.write, hopen.allowed, hwin, haddr, hq]
      rfl
    have hqopen : q.Open := by
      rw [hq]
      exact ⟨hopen.rests, hopen.commandBusy, hopen.memoryLocked⟩
    obtain ⟨r, hr⟩ : ∃ r, r = pl (s.bus.time + 1) q := ⟨_, rfl⟩
    have hevolves' : q.Evolves r := hr ▸ hpl _ _
    have hropen := hqopen.evolves hevolves'
    have hread : r.read (eventOffset (BitVec.ofNat 32 i) (BitVec.ofNat 32 k)) = word := by
      rw [Page.read, hwin, if_pos rfl, hropen.allowed, if_pos rfl, haddr, hevolves'.memory, hq]
      exact Function.update_self ..
    have hnext : (BitVec.ofNat 32 k + 1 : Word) = BitVec.ofNat 32 (k + 1) :=
      (BitVec.ofNat_add k 1).symm
    -- the state after the word, from which the rest is written
    obtain ⟨s', hs', hopen', hmemory, hcount, hload, l, hl, hne⟩ := ih (s := {
      bus := ⟨r, s.bus.time + 2⟩
      sequenceLoad := { s.sequenceLoad with
        crc32State := crc32Word s.sequenceLoad.crc32State word }
      config := s.config
      writes := s.writes ++ [(eventOffset (BitVec.ofNat 32 i) (BitVec.ofNat 32 k), word)] })
      (k := k + 1) hropen (by omega)
    refine ⟨s', ?_, hopen', ?_, ?_, hload, _ :: l, by rw [hl, List.append_assoc]; rfl, ?_⟩
    · rw [← hs', ← hnext]
      unfold eventOffset at hwrite hread
      simp only [writeEventWords, bind, StateT.bind, regWrite, regRead, liveBus]
      rw [← hp, hwrite, ← hr, hread, if_neg (not_not.mpr rfl)]
      rfl
    · rw [hmemory, hevolves'.memory, hq]
      dsimp only
      rw [hevolves.memory]
      rfl
    · rw [hcount, hevolves'.eventCount, hq]
      exact hevolves.eventCount
    · intro w hw
      rcases List.mem_cons.mp hw with rfl | hw
      · exact hcontrol
      · exact hne w hw

omit hpl in
theorem words_eventWords (low high state flags : Word) :
    [low, high, state, flags] = eventWords ⟨high ++ low, state, flags⟩ := by
  have hlow : (high ++ low : BitVec 64).setWidth 32 = low := by
    apply BitVec.eq_of_toNat_eq
    have h := low.isLt
    rw [BitVec.toNat_setWidth, BitVec.toNat_append,
      ← Nat.shiftLeft_add_eq_or_of_lt (BitVec.isLt _), Nat.shiftLeft_eq]
    omega
  have hhigh : ((high ++ low : BitVec 64) >>> 32).setWidth 32 = high := by
    apply BitVec.eq_of_toNat_eq
    have h := low.isLt
    have h' := high.isLt
    rw [BitVec.toNat_setWidth, BitVec.toNat_ushiftRight, Nat.shiftRight_eq_div_pow,
      BitVec.toNat_append, ← Nat.shiftLeft_add_eq_or_of_lt (BitVec.isLt _), Nat.shiftLeft_eq]
    omega
  rw [eventWords, hlow, hhigh]

omit hpl in
theorem storeEvent_eq {e : Event} {eventIndex : Word} {s₁ : Service Live}
    (h : writeEventWords (liveBus pl polls) eventIndex 0 (eventWords e) s = (none, s₁)) :
    (storeEvent (liveBus pl polls) eventIndex e.timestamp (eventWords e) e.state response s).2 =
      { s₁ with sequenceLoad := { s₁.sequenceLoad with
        previousTimestamp := e.timestamp, previousState := e.state
        nextEvent := s₁.sequenceLoad.nextEvent + 1 } } := by
  simp only [storeEvent, bind, StateT.bind]
  rw [h]
  rfl

/-- The checked event goes into the memory, and the load goes on with it. -/
theorem kept_storeEvent {count : ℕ} {crc : Word} {taken : List Event}
    (hl : InLoad s count crc taken) {e : Event} {eventIndex : Word}
    (hnext : eventIndex = s.sequenceLoad.nextEvent)
    (hlt : ¬s.sequenceLoad.expectedEvents ≤ eventIndex)
    (hvalid : sequenceValidateEvent s.sequenceLoad eventIndex e.timestamp e.state e.flags =
      Fault.none) :
    Kept s (storeEvent (liveBus pl polls) eventIndex e.timestamp (eventWords e) e.state response
      s).2 := by
  have hload := hl.loading
  have hmax := hload.countLe
  have hle := hload.takenLe
  have hindex : eventIndex = BitVec.ofNat 32 taken.length := hnext.trans hload.next
  have hlt' : taken.length < count := by
    by_contra hge
    refine hlt ?_
    rw [hindex, show s.sequenceLoad.expectedEvents = BitVec.ofNat 32 count from hload.expected,
      ofNat32_le (by omega) (by omega)]
    omega
  -- the service has checked what the engine checks
  have hpass : Passes taken.getLast? (taken.length + 1 = count) e := by
    refine (validateEvent_none_iff hload e).mp ?_
    rw [← hindex]
    exact hvalid
  -- the page stays free while the four words are written
  obtain ⟨s₁, hs₁, hopen, hmemory, hcount, hloaded, l, hw, hcontrol⟩ :=
    @writeEventWords_open pl polls hpl s hl.isOpen _ 0 (show taken.length < 128 by omega)
      (eventWords e) le_rfl
  rw [← hindex] at hs₁
  rw [storeEvent_eq hs₁]
  have hcommitted : s₁.sequenceLoad.committed = false := by
    rw [hloaded]
    exact hl.committed
  have hactive : s.sequenceLoad.active = true := hload.active
  refine ⟨⟨fun _ => ⟨count, crc, taken ++ [e], ?_, hl.atLeast, ?_, hopen, hcommitted⟩,
      fun hc => ?_⟩,
    ⟨l, hw, fun w hwl => ⟨fun _ => hactive, fun hc => absurd hc (hcontrol w hwl)⟩⟩, fun ha => ?_,
    fun _ => hactive, fun _ => .inl hactive, ?_⟩
  · refine hload.concat hlt' hpass (free_still _) hmemory ?_
    change { s₁.sequenceLoad with
      previousTimestamp := e.timestamp, previousState := e.state
      nextEvent := s₁.sequenceLoad.nextEvent + 1 } = _
    rw [hloaded]
    rfl
  · intro hfull
    rw [List.length_append, List.length_singleton] at hfull
    rw [List.getLast?_concat]
    exact hpass.2 hfull
  · rw [show s₁.sequenceLoad.committed = true from hc] at hcommitted
    cases hcommitted
  · rw [ha] at hactive
    cases hactive
  · rw [SameDeclared]
    dsimp only
    rw [hloaded]
    exact ⟨rfl, rfl⟩

theorem keeps_handleSeqLoadEvent :
    Keeps (handleSeqLoadEvent (liveBus pl polls) request response) := by
  refine keeps_get fun s hs => ?_
  dsimp only
  split
  · exact kept_of_undisturbed hs (.refl s)
  split
  · exact kept_of_undisturbed hs (calm_sequenceStatusError hpl _ _ _)
  next hactive =>
    split
    · exact keeps_sequenceLoadError _ _ _ s hs
    next hindex =>
      split
      · exact keeps_sequenceLoadError _ _ _ s hs
      next hfault =>
        obtain ⟨count, crc, taken, hl⟩ := hs.loading (by simpa using hactive)
        rw [words_eventWords]
        exact kept_storeEvent hpl hl (not_not.mp fun h => hindex (.inl h))
          (fun h => hindex (.inr h)) (not_not.mp hfault)

/-! ## LOAD_COMMIT -/

omit hpl in
/-- The announced events are all there, with the announced CRC: they are a program. -/
theorem InLoad.program {count : ℕ} {crc : Word} {taken : List Event} (h : InLoad s count crc taken)
    (hnext : s.sequenceLoad.nextEvent = s.sequenceLoad.expectedEvents)
    (hcrc : s.sequenceLoad.crc32State ^^^ BitVec.allOnes 32 = s.sequenceLoad.expectedCrc32) :
    Program taken ∧ s.sequenceLoad.expectedEvents = BitVec.ofNat 32 taken.length ∧
      s.sequenceLoad.expectedCrc32 = crc32 (payloadOf taken) := by
  have hload := h.loading
  have hmax := hload.countLe
  have hle := hload.takenLe
  have hmin := h.atLeast
  have hn : s.sequenceLoad.nextEvent = BitVec.ofNat 32 taken.length := hload.next
  have he : s.sequenceLoad.expectedEvents = BitVec.ofNat 32 count := hload.expected
  have hc : s.sequenceLoad.crc32State =
      DataPlane.crc32Update (BitVec.allOnes 32) (payloadOf taken) := hload.crcState
  have hlen : taken.length = count := by
    rw [hn, he] at hnext
    exact (ofNat32_inj (by omega) (by omega)).mp hnext
  refine ⟨⟨by omega, by omega, hload.legal, h.safe hlen⟩, by rw [he, hlen], ?_⟩
  rw [← hcrc, hc]
  rfl

/-- On an open page the event count is what is written, and reads back. -/
theorem eventCount_open (ho : s.bus.page.Open) {n : ℕ} (hn : n ≤ 128) :
    ∃ s₁ s₂, regWrite (liveBus pl polls) seqEventCount (BitVec.ofNat 32 n) s = ((), s₁) ∧
      regRead (liveBus pl polls) seqEventCount s₁ = (BitVec.ofNat 32 n, s₂) ∧
      s₂.bus.page.eventCount = BitVec.ofNat 8 n ∧ s₂.bus.page.memory = s.bus.page.memory ∧
      s₂.sequenceLoad = s.sequenceLoad ∧
      s₂.writes = s.writes ++ [(seqEventCount, BitVec.ofNat 32 n)] := by
  obtain ⟨p, hp⟩ : ∃ p, p = pl s.bus.time s.bus.page := ⟨_, rfl⟩
  have hevolves : s.bus.page.Evolves p := hp ▸ hpl _ _
  obtain ⟨q, hq⟩ : ∃ q : Page, q = { p with eventCount := BitVec.ofNat 8 n } := ⟨_, rfl⟩
  have hwidth : (BitVec.ofNat 32 n).setWidth 8 = BitVec.ofNat 8 n := by
    apply BitVec.eq_of_toNat_eq
    simp only [BitVec.toNat_setWidth, BitVec.toNat_ofNat]
    omega
  have hback : (BitVec.ofNat 8 n).setWidth 32 = BitVec.ofNat 32 n := by
    apply BitVec.eq_of_toNat_eq
    simp only [BitVec.toNat_setWidth, BitVec.toNat_ofNat]
    omega
  have hstore : p.store seqEventCount (BitVec.ofNat 32 n) = q := by
    rw [Page.store, if_neg (by decide), Page.write, (ho.evolves hevolves).allowed,
      if_neg (by decide), if_neg (by decide), if_pos rfl, hwidth, hq]
  obtain ⟨r, hr⟩ : ∃ r, r = pl (s.bus.time + 1) q := ⟨_, rfl⟩
  have hevolves' : q.Evolves r := hr ▸ hpl _ _
  have hcount : r.eventCount = BitVec.ofNat 8 n := by rw [hevolves'.eventCount, hq]
  have hread : r.read seqEventCount = BitVec.ofNat 32 n := by
    rw [Page.read, if_neg (by decide), if_neg (by decide), if_pos rfl, hcount, hback]
  refine ⟨{ s with
      bus := ⟨q, s.bus.time + 1⟩
      writes := s.writes ++ [(seqEventCount, BitVec.ofNat 32 n)] },
    { s with
      bus := ⟨r, s.bus.time + 2⟩
      writes := s.writes ++ [(seqEventCount, BitVec.ofNat 32 n)] }, ?_, ?_, hcount, ?_, rfl, rfl⟩
  · simp only [regWrite, liveBus]
    rw [← hp, hstore]
  · simp only [regRead, liveBus]
    rw [← hr, hread]
  · dsimp only
    rw [hevolves'.memory, hq]
    exact hevolves.memory

theorem keeps_handleSeqLoadCommit :
    Keeps (handleSeqLoadCommit (liveBus pl polls) request response) := by
  refine keeps_get fun s hs => ?_
  dsimp only
  split
  · exact kept_of_undisturbed hs (.refl s)
  split
  · exact keeps_sequenceLoadError _ _ _ s hs
  next hgate =>
    split
    · exact kept_dropped s
    next hcrc =>
      have hactive : s.sequenceLoad.active = true := by
        by_contra hno
        exact hgate (.inl (by simpa using hno))
      obtain ⟨count, crc, taken, hl⟩ := hs.loading hactive
      have hmax := hl.loading.countLe
      have hle := hl.loading.takenLe
      obtain ⟨hprogram, hexpected, hdeclared⟩ :=
        hl.program (not_not.mp fun h => hgate (.inr h)) (not_not.mp hcrc)
      obtain ⟨s₁, s₂, hs₁, hs₂, hcount, hmemory, hload, hwrites⟩ :=
        @eventCount_open pl polls hpl s hl.isOpen _ (show taken.length ≤ 128 by omega)
      rw [hexpected]
      simp only [bind, StateT.bind]
      rw [hs₁]
      dsimp only
      rw [hs₂]
      dsimp only
      rw [if_neg (not_not.mpr rfl)]
      refine ⟨⟨fun ha => absurd ha Bool.false_ne_true,
          fun _ => ⟨taken, hprogram, ?_, hcount, ?_, ?_⟩⟩,
        ⟨[(seqEventCount, BitVec.ofNat 32 taken.length)], hwrites, fun w hw => ?_⟩, fun ha => ?_,
        fun _ => hactive, fun _ => .inl hactive, ?_⟩
      · change Holds s₂.bus.page.memory taken
        rw [hmemory]
        exact hl.loading.holds
      · change s₂.sequenceLoad.expectedEvents = _
        rw [hload, hexpected]
      · change s₂.sequenceLoad.expectedCrc32 = _
        rw [hload, hdeclared]
      · rw [List.mem_singleton.mp hw]
        exact ⟨fun _ => hactive, fun hc => absurd hc (by decide : seqEventCount ≠ seqControl)⟩
      · rw [ha] at hactive
        cases hactive
      · change s₂.sequenceLoad.expectedEvents = _ ∧ s₂.sequenceLoad.expectedCrc32 = _
        rw [hload]
        exact ⟨rfl, rfl⟩

/-! ## LOAD_BEGIN -/

/-- A load begins. -/
structure Begun (pl : ℕ → Page → Page) (request : R5.Message) (s : Service Live)
    (answer : R5.Message × Service Live) : Prop where
  command : request.command = R5.cmdSeqLoadBegin
  found : (s.bus.found pl).Free
  ok : answer.1.status = .ok
  consistent : Consistent answer.2
  writes : answer.2.writes = s.writes
  memory : answer.2.bus.page.memory = s.bus.page.memory
  active : answer.2.sequenceLoad.active = true
  committed : answer.2.sequenceLoad.committed = false
  expectedEvents : answer.2.sequenceLoad.expectedEvents = request.word 0
  expectedCrc32 : answer.2.sequenceLoad.expectedCrc32 = request.word 1

omit hpl in
theorem packed_free : ∀ memoryLocked commandBusy faulted busy armed validating idle : Bool,
    ((0 : BitVec 22) ++ BitVec.ofBool memoryLocked ++ BitVec.ofBool commandBusy ++ (0 : BitVec 3)
      ++ BitVec.ofBool faulted ++ BitVec.ofBool busy ++ BitVec.ofBool armed
      ++ BitVec.ofBool validating ++ BitVec.ofBool idle : Word) &&&
        (seqHwIdle ||| seqHwCommandBusy ||| seqHwMemoryLocked ||| seqHwFaulted) = seqHwIdle →
    idle = true ∧ faulted = false ∧ commandBusy = false ∧ memoryLocked = false := by
  decide

omit hpl in
theorem free_of_statusWord {p : Page}
    (h : p.statusWord &&& (seqHwIdle ||| seqHwCommandBusy ||| seqHwMemoryLocked ||| seqHwFaulted) =
      seqHwIdle) : p.Free := by
  obtain ⟨h1, h2, h3, h4⟩ := packed_free _ _ _ _ _ _ _ h
  exact ⟨h1, h2, h3, h4⟩

omit hpl in
/-- A load that has just begun. -/
theorem inLoad_begun {n : Word} {crc : Word} {page : Page} {time : ℕ} (hopen : page.Open)
    (hcount : ¬(n < sequenceMinEvents ∨ sequenceMaxEvents < n)) (s : Service Live) :
    InLoad { s with
      bus := ⟨page, time⟩
      sequenceLoad :=
        { active := true, committed := false, expectedEvents := n, nextEvent := 0
          expectedCrc32 := crc, crc32State := BitVec.allOnes 32
          previousTimestamp := 0, previousState := 0 } } n.toNat crc [] := by
  have hmin : 2 ≤ n.toNat := by
    have h := BitVec.not_lt.mp fun h => hcount (.inl h)
    exact h
  have hmax : n.toNat ≤ 128 := by
    have h := BitVec.not_lt.mp fun h => hcount (.inr h)
    exact h
  refine ⟨⟨free_still _, rfl, hmax, Nat.zero_le _, ?_, rfl, rfl, rfl, nofun, rfl, trivial, nofun⟩,
    hmin, fun hfull => ?_, hopen, rfl⟩
  · change n = BitVec.ofNat 32 n.toNat
    rw [BitVec.ofNat_toNat, BitVec.setWidth_eq]
  · rw [List.length_nil] at hfull
    omega

theorem begun_or_kept (hs : Consistent s) (hcommand : request.command = R5.cmdSeqLoadBegin)
    (hok : response.status = .ok) :
    Kept s (handleSeqLoadBegin (liveBus pl polls) request response s).2 ∨
      Begun pl request s (handleSeqLoadBegin (liveBus pl polls) request response s) := by
  unfold handleSeqLoadBegin
  split
  · exact .inl (kept_of_undisturbed hs (.refl s))
  dsimp only
  split
  · exact .inl (keeps_sequenceLoadError _ _ _ s hs)
  next hcount =>
    have he := hpl s.bus.time s.bus.page
    have hread : Undisturbed s (regRead (liveBus pl polls) seqStatus s).2 := calm_regRead hpl _ s
    by_cases hgate : (regRead (liveBus pl polls) seqStatus s).1 &&&
        (seqHwIdle ||| seqHwCommandBusy ||| seqHwMemoryLocked ||| seqHwFaulted) ≠ seqHwIdle
    · refine .inl (kept_bind hread ?_)
      rw [if_pos hgate]
      exact kept_of_undisturbed (hs.undisturbed hread) (calm_sequenceStatusError hpl _ _ _)
    · have hrun : regRead (liveBus pl polls) seqStatus s =
          ((regRead (liveBus pl polls) seqStatus s).1,
            { s with bus := ⟨pl s.bus.time s.bus.page, s.bus.time + 1⟩ }) := rfl
      simp only [bind, StateT.bind]
      rw [hrun]
      dsimp only
      rw [if_neg hgate]
      rw [regRead_status] at hgate
      have hfree := free_of_statusWord (not_not.mp hgate)
      have hin := @inLoad_begun _ (request.word 1) _ (s.bus.time + 1) hfree.isOpen hcount s
      exact .inr ⟨hcommand, hfree, hok, ⟨fun _ => ⟨_, _, _, hin⟩, fun hc =>
        absurd hc Bool.false_ne_true⟩, rfl, he.memory, rfl, rfl, rfl, rfl⟩

end

end QCrate.Sequence
