import QCrate.Rpmsg.Client
import QCrate.Sequence.Image
import QCrate.Sequence.Page
import QCrate.Sequence.Validation

/-!
# The load path

A program is loaded with one LOAD_BEGIN, a LOAD_EVENT for every event and a LOAD_COMMIT. Event by
event the R5 makes the checks that the host made on the whole list, so a list gets through exactly
when it is a program, and what got through is in the event memory.

* `crc32Word_eq` — the R5 computes the CRC of the image.
* `loadEvent_accepts`, `loadEvent_refuses` — one LOAD_EVENT, in terms of the events before it.
* `loadProgram_iff` — what a whole load accepts, and what it leaves on the page.
-/

namespace QCrate.Sequence

open QCrate.Lib QCrate.R5

/-! ## CRC-32, word by word -/

theorem crc32WordBit_eq (crc : Word) : crc32WordBit crc = DataPlane.crcBit crc := by
  have hlow : crc &&& 1 = BitVec.setWidth 32 (BitVec.ofBool (crc.getLsbD 0)) :=
    BitVec.and_one_eq_setWidth_ofBool_getLsbD
  unfold crc32WordBit DataPlane.crcBit
  have hlow' : crc &&& 1#32 = BitVec.setWidth 32 (BitVec.ofBool (crc.getLsbD 0)) := hlow
  rw [hlow, hlow']
  cases crc.getLsbD 0 <;> rfl

theorem crc32WordByte_eq (crc word : Word) :
    crc32WordByte (crc, word) = (DataPlane.crcByte crc (UInt8.ofNat word.toNat), word >>> 8) := by
  have hbyte : word &&& 0xFF = BitVec.ofNat 32 (UInt8.ofNat word.toNat).toNat := by
    apply BitVec.eq_of_toNat_eq
    rw [BitVec.toNat_and, show (0xFF : Word).toNat = 2 ^ 8 - 1 from rfl,
      Nat.and_two_pow_sub_one_eq_mod, BitVec.toNat_ofNat, UInt8.toNat_ofNat']
    omega
  rw [crc32WordByte, DataPlane.crcByte, hbyte, show crc32WordBit = DataPlane.crcBit from
    funext crc32WordBit_eq]

/-- After `n` bytes of a word. -/
theorem iterate_crc32WordByte (n : ℕ) (crc word : Word) :
    (Nat.iterate crc32WordByte n (crc, word)).1 =
      DataPlane.crc32Update crc (putLE n word.toNat) := by
  induction n generalizing crc word with
  | zero => rfl
  | succ n ih =>
    rw [Function.iterate_succ_apply, crc32WordByte_eq, ih, putLE, BitVec.toNat_ushiftRight,
      Nat.shiftRight_eq_div_pow]
    rfl

theorem crc32Word_eq (crc word : Word) :
    crc32Word crc word = DataPlane.crc32Update crc (putLE 4 word.toNat) :=
  iterate_crc32WordByte 4 crc word

/-! ## Addresses -/

/-- The register of word `k` of event `i`. -/
def eventOffset (i k : Word) : Word := seqEventMemory + i * sequenceEventSize + k * 4

theorem toNat_eventOffset {i k : ℕ} (hi : i < 128) (hk : k < 4) :
    (eventOffset (BitVec.ofNat 32 i) (BitVec.ofNat 32 k)).toNat = 0x2800 + i * 16 + k * 4 := by
  have h1 : seqEventMemory.toNat = 0x2800 := rfl
  have h2 : sequenceEventSize.toNat = 16 := rfl
  have h3 : (4 : Word).toNat = 4 := rfl
  simp only [eventOffset, BitVec.toNat_add, BitVec.toNat_mul, BitVec.toNat_ofNat, h1, h2, h3]
  omega

theorem eventWindow_eventOffset {i k : ℕ} (hi : i < 128) (hk : k < 4) :
    Page.eventWindow (eventOffset (BitVec.ofNat 32 i) (BitVec.ofNat 32 k)) = true := by
  have h5 : (5 : BitVec 21).toNat = 5 := rfl
  rw [Page.eventWindow, decide_eq_true_iff, ← BitVec.toNat_inj, BitVec.extractLsb'_toNat,
    toNat_eventOffset hi hk, Nat.shiftRight_eq_div_pow, h5]
  omega

/-- The address of word `k` of event `i` in the event memory. -/
def wordAddr (i k : ℕ) : BitVec 9 := BitVec.ofNat 7 i ++ BitVec.ofNat 2 k

theorem ramAddr_eventOffset {i k : ℕ} (hi : i < 128) (hk : k < 4) :
    Page.ramAddr (eventOffset (BitVec.ofNat 32 i) (BitVec.ofNat 32 k)) =
      wordAddr i k := by
  apply BitVec.eq_of_toNat_eq
  rw [Page.ramAddr, BitVec.extractLsb'_toNat, toNat_eventOffset hi hk, Nat.shiftRight_eq_div_pow,
    wordAddr, BitVec.toNat_append, ← Nat.shiftLeft_add_eq_or_of_lt (BitVec.isLt _),
    Nat.shiftLeft_eq, BitVec.toNat_ofNat, BitVec.toNat_ofNat]
  omega

theorem address_inj {i j k l : ℕ} (hi : i < 128) (hj : j < 128) (hk : k < 4) (hl : l < 4)
    (h : wordAddr i k = wordAddr j l) :
    i = j ∧ k = l := by
  have hnat := congrArg BitVec.toNat h
  rw [wordAddr, wordAddr, BitVec.toNat_append, BitVec.toNat_append,
    ← Nat.shiftLeft_add_eq_or_of_lt (BitVec.isLt _),
    ← Nat.shiftLeft_add_eq_or_of_lt (BitVec.isLt _), Nat.shiftLeft_eq, Nat.shiftLeft_eq] at hnat
  simp only [BitVec.toNat_ofNat] at hnat
  omega

/-! ## Writing one event -/

/-- The words of an event, as LOAD_EVENT carries them. -/
def eventWords (e : Event) : List Word :=
  [e.timestamp.setWidth 32, (e.timestamp >>> 32).setWidth 32, e.state, e.flags]

/-- The memory with some words written from word `k` of event `i` on. -/
def Memory.store (m : Memory) (i : ℕ) : ℕ → List Word → Memory
  | _, [] => m
  | k, word :: rest =>
    Memory.store (Function.update m (wordAddr i k) word) i (k + 1) rest

/-- Another event, or a word before the written ones. -/
theorem Memory.store_other {m : Memory} {i j k l : ℕ} (hi : i < 128) (hj : j < 128)
    (words : List Word) (hk : k + words.length ≤ 4) (hl : l < 4) (hne : i ≠ j ∨ l < k) :
    m.store i k words (wordAddr j l) =
      m (wordAddr j l) := by
  induction words generalizing m k with
  | nil => rfl
  | cons word rest ih =>
    rw [List.length_cons] at hk
    rw [Memory.store, ih (by omega) (by omega)]
    refine Function.update_of_ne (fun h => ?_) _ _
    have haddr := address_inj hj hi hl (by omega) h
    omega

theorem Memory.store_word {m : Memory} {i k l : ℕ} (hi : i < 128) (words : List Word)
    (hk : k + words.length ≤ 4) {word : Word} (hl : words[l]? = some word) :
    m.store i k words (wordAddr i (k + l)) = word := by
  induction words generalizing m k l with
  | nil => cases hl
  | cons w rest ih =>
    rw [List.length_cons] at hk
    rw [Memory.store]
    cases l with
    | zero =>
      cases hl
      rw [Memory.store_other hi hi rest (by omega) (by omega) (.inr (by omega)), Nat.add_zero,
        Function.update_self]
    | succ l =>
      rw [List.getElem?_cons_succ] at hl
      rw [← ih (m := Function.update m (wordAddr i k) w) (k := k + 1) (by omega) hl,
        Nat.add_assoc, Nat.add_comm 1 l]

theorem timestamp_halves (t : BitVec 64) : (t >>> 32).setWidth 32 ++ t.setWidth 32 = t := by
  have hlt := t.isLt
  apply BitVec.eq_of_toNat_eq
  rw [BitVec.toNat_append, ← Nat.shiftLeft_add_eq_or_of_lt (BitVec.isLt _), Nat.shiftLeft_eq,
    BitVec.toNat_setWidth, BitVec.toNat_setWidth, BitVec.toNat_ushiftRight,
    Nat.shiftRight_eq_div_pow]
  omega

theorem Memory.event_eq (m : Memory) (i : ℕ) :
    m.event (BitVec.ofNat 7 i) =
      ⟨m (wordAddr i 1) ++ m (wordAddr i 0), m (wordAddr i 2), m (wordAddr i 3)⟩ := rfl

/-- A stored event is what the stream port reads. -/
theorem Memory.event_store (m : Memory) {i : ℕ} (hi : i < 128) (e : Event) :
    (m.store i 0 (eventWords e)).event (BitVec.ofNat 7 i) = e := by
  have hlen : 0 + (eventWords e).length ≤ 4 := le_rfl
  have h0 := Memory.store_word (m := m) hi (eventWords e) hlen (l := 0) rfl
  have h1 := Memory.store_word (m := m) hi (eventWords e) hlen (l := 1) rfl
  have h2 := Memory.store_word (m := m) hi (eventWords e) hlen (l := 2) rfl
  have h3 := Memory.store_word (m := m) hi (eventWords e) hlen (l := 3) rfl
  rw [Memory.event_eq, h0, h1, h2, h3, timestamp_halves]

theorem Memory.event_store_other (m : Memory) {i j : ℕ} (hi : i < 128) (hj : j < 128)
    (hne : i ≠ j) (words : List Word) (hlen : words.length ≤ 4) :
    (m.store i 0 words).event (BitVec.ofNat 7 j) = m.event (BitVec.ofNat 7 j) := by
  have hother : ∀ l < 4, m.store i 0 words (wordAddr j l) =
      m (wordAddr j l) := fun l hl =>
    Memory.store_other hi hj words (by omega) hl (.inl hne)
  have h0 := hother 0 (by omega)
  have h1 := hother 1 (by omega)
  have h2 := hother 2 (by omega)
  have h3 := hother 3 (by omega)
  rw [Memory.event_eq, Memory.event_eq, h0, h1, h2, h3]

/-- One more event behind the others. -/
theorem holds_store {m : Memory} {events : List Event} {e : Event} (h : Holds m events)
    (hlt : events.length < 128) :
    Holds (m.store events.length 0 (eventWords e)) (events ++ [e]) := by
  intro i e' he'
  rcases Nat.lt_trichotomy i events.length with hi | rfl | hi
  · rw [List.getElem?_append_left hi] at he'
    rw [Memory.event_store_other m hlt (by omega) (by omega) _ le_rfl]
    exact h i e' he'
  · rw [List.getElem?_append_right le_rfl, Nat.sub_self] at he'
    cases he'
    exact Memory.event_store m hlt e
  · rw [List.getElem?_eq_none (by rw [List.length_append, List.length_singleton]; omega)] at he'
    cases he'

/-! ## The words of LOAD_EVENT reach the memory -/

theorem Page.Free.allowed {p : Page} (h : p.Free) : p.memoryAccessAllowed = true := by
  rw [Page.memoryAccessAllowed, h.memoryLocked, h.commandBusy]
  rfl

/-- On a free page the words are written, read back and counted. -/
theorem writeEventWords_free {s : Service Page} (hfree : s.bus.Free) {i k : ℕ} (hi : i < 128)
    (words : List Word) (hk : k + words.length ≤ 4) :
    ∃ s', writeEventWords pageBus (BitVec.ofNat 32 i) (BitVec.ofNat 32 k) words s = (none, s') ∧
      s'.bus = { s.bus with memory := s.bus.memory.store i k words } ∧
      s'.sequenceLoad = { s.sequenceLoad with
        crc32State := words.foldl crc32Word s.sequenceLoad.crc32State } := by
  induction words generalizing s k with
  | nil => exact ⟨s, rfl, rfl, rfl⟩
  | cons word rest ih =>
    rw [List.length_cons] at hk
    have haddr := ramAddr_eventOffset hi (show k < 4 by omega)
    have hwin := eventWindow_eventOffset hi (show k < 4 by omega)
    have hwrite : s.bus.write (eventOffset (BitVec.ofNat 32 i) (BitVec.ofNat 32 k)) word =
        { s.bus with memory := Function.update s.bus.memory (wordAddr i k) word } := by
      rw [Page.write, hfree.allowed, hwin, haddr]
      rfl
    have hread : (s.bus.write (eventOffset (BitVec.ofNat 32 i) (BitVec.ofNat 32 k)) word).read
        (eventOffset (BitVec.ofNat 32 i) (BitVec.ofNat 32 k)) = word := by
      have hallowed := hfree.allowed
      rw [hwrite, Page.read, hwin, if_pos rfl, haddr]
      dsimp only
      rw [Function.update_self]
      exact if_pos hallowed
    have hnext : (BitVec.ofNat 32 k + 1 : Word) = BitVec.ofNat 32 (k + 1) :=
      (BitVec.ofNat_add k 1).symm
    -- the state after the word, from which the rest is written
    obtain ⟨s', hs', hbus, hload⟩ := ih (s := {
      bus := s.bus.write (eventOffset (BitVec.ofNat 32 i) (BitVec.ofNat 32 k)) word
      sequenceLoad := { s.sequenceLoad with
        crc32State := crc32Word s.sequenceLoad.crc32State word }
      config := s.config
      writes := s.writes ++ [(eventOffset (BitVec.ofNat 32 i) (BitVec.ofNat 32 k), word)] })
      (k := k + 1) (by rw [hwrite]; exact ⟨hfree.1, hfree.2, hfree.3, hfree.4⟩) (by omega)
    refine ⟨s', ?_, ?_, hload⟩
    · rw [← hs', ← hnext]
      have hmatch : ¬(pageBus.read (eventOffset (BitVec.ofNat 32 i) (BitVec.ofNat 32 k))
          (pageBus.write (eventOffset (BitVec.ofNat 32 i) (BitVec.ofNat 32 k)) word s.bus)).1 ≠
          word := not_not.mpr hread
      unfold eventOffset at hmatch
      simp only [writeEventWords, bind, StateT.bind, regWrite, regRead]
      rw [if_neg hmatch]
      rfl
    · rw [hbus, hwrite]
      rfl

/-! ## Requests -/

/-- One request to a handler: was it answered with OK? -/
def exchange {σ : Type} (handler : R5.Message → R5.Message → StateM (Service σ) R5.Message)
    (request : R5.Message) : StateM (Service σ) Bool := do
  let response ← handler request (responseInit request)
  pure (response.status = .ok)

theorem eq_mk_of_fst {α β : Type*} {x : α × β} {a : α} (h : x.1 = a) : x = (a, x.2) := by
  rw [← h]

theorem exchange_fst {σ : Type}
    (handler : R5.Message → R5.Message → StateM (Service σ) R5.Message) (request : R5.Message)
    (s : Service σ) : (exchange handler request s).1 =
      decide ((handler request (responseInit request) s).1.status = .ok) := rfl

def cmdSeqLoadBegin : BitVec 16 := 5
def cmdSeqLoadEvent : BitVec 16 := 6
def cmdSeqLoadCommit : BitVec 16 := 7

def beginRequest (id : Word) (events : List Event) : R5.Message :=
  Rpmsg.buildRequest id cmdSeqLoadBegin
    [BitVec.ofNat 32 events.length, crc32 (payloadOf events)]

def eventRequest (id : Word) (index : ℕ) (e : Event) : R5.Message :=
  Rpmsg.buildRequest id cmdSeqLoadEvent (BitVec.ofNat 32 index :: eventWords e)

def commitRequest (id : Word) : R5.Message := Rpmsg.buildRequest id cmdSeqLoadCommit []

/-- The LOAD_EVENT requests, up to the first that is refused. -/
def loadEvents {σ : Type} (B : Bus σ) (ids : ℕ → Word) :
    ℕ → List Event → StateM (Service σ) Bool
  | _, [] => pure true
  | index, e :: rest => do
    let taken ← exchange (handleSeqLoadEvent B) (eventRequest (ids index) index e)
    if taken then loadEvents B ids (index + 1) rest else pure false

/-- The exchanges of `load_image`, with the transaction ids they happen to have. -/
def loadProgram {σ : Type} (B : Bus σ) (beginId commitId : Word) (ids : ℕ → Word)
    (events : List Event) : StateM (Service σ) Bool := do
  let begun ← exchange (handleSeqLoadBegin B) (beginRequest beginId events)
  if begun then do
    let taken ← loadEvents B ids 0 events
    if taken then exchange (handleSeqLoadCommit B) (commitRequest commitId) else pure false
  else pure false

/-! ## One event -/

/-- The service after it took some events of a load of `count` events. -/
structure Loading (count : ℕ) (crc : Word) (taken : List Event) (s : Service Page) : Prop where
  free : s.bus.Free
  active : s.sequenceLoad.active = true
  countLe : count ≤ 128
  takenLe : taken.length ≤ count
  expected : s.sequenceLoad.expectedEvents = BitVec.ofNat 32 count
  next : s.sequenceLoad.nextEvent = BitVec.ofNat 32 taken.length
  expectedCrc : s.sequenceLoad.expectedCrc32 = crc
  crcState : s.sequenceLoad.crc32State =
    DataPlane.crc32Update (BitVec.allOnes 32) (payloadOf taken)
  timestamp : ∀ p, taken.getLast? = some p → s.sequenceLoad.previousTimestamp = p.timestamp
  state : s.sequenceLoad.previousState = stateAfter taken.getLast?
  legal : Legal none taken
  holds : Holds s.bus.memory taken

section

variable {count : ℕ} {crc : Word} {taken : List Event} {s : Service Page}

theorem ofNat32_inj {a b : ℕ} (ha : a ≤ 129) (hb : b ≤ 129) :
    (BitVec.ofNat 32 a : Word) = BitVec.ofNat 32 b ↔ a = b := by
  rw [← BitVec.toNat_inj, BitVec.toNat_ofNat, BitVec.toNat_ofNat]
  omega

theorem ofNat32_le {a b : ℕ} (ha : a ≤ 129) (hb : b ≤ 129) :
    (BitVec.ofNat 32 a : Word) ≤ BitVec.ofNat 32 b ↔ a ≤ b := by
  rw [BitVec.le_def, BitVec.toNat_ofNat, BitVec.toNat_ofNat]
  omega

/-- The R5 makes the checks of the list, one event at a time. -/
theorem validateEvent_none_iff (h : Loading count crc taken s) (e : Event) :
    sequenceValidateEvent s.sequenceLoad (BitVec.ofNat 32 taken.length) e.timestamp e.state
        e.flags = Fault.none ↔ Passes taken.getLast? (taken.length + 1 = count) e := by
  have hle := h.takenLe
  have hmax := h.countLe
  have hindex : (BitVec.ofNat 32 taken.length : Word) ≠ 0 ↔ taken.getLast? ≠ none := by
    rw [ne_eq, show (0 : Word) = BitVec.ofNat 32 0 from rfl,
      ofNat32_inj (by omega) (by omega), List.length_eq_zero_iff, ne_eq,
      List.getLast?_eq_none_iff]
  have hlast : (BitVec.ofNat 32 taken.length + 1 : Word) = s.sequenceLoad.expectedEvents ↔
      taken.length + 1 = count := by
    rw [h.expected, show (1 : Word) = BitVec.ofNat 32 1 from rfl, ← BitVec.ofNat_add,
      ofNat32_inj (by omega) (by omega)]
  unfold sequenceValidateEvent
  split
  · next hres =>
    exact iff_of_false (by decide) fun hp => (reservedMask_iff e.state).mp hres hp.1.reserved
  next hres =>
    split
    · next hflags => exact iff_of_false (by decide) fun hp => hflags hp.1.flags
    next hflags =>
      split
      · next hstate =>
        exact iff_of_false (by decide) fun hp => hp.1.changes (hstate.trans h.state)
      next hstate =>
        split
        · next htime =>
          refine iff_of_false (by decide) fun hp => ?_
          obtain ⟨p, hp'⟩ := Option.ne_none_iff_exists'.mp (hindex.mp htime.1)
          have hle' := htime.2
          rw [h.timestamp p hp'] at hle'
          exact absurd hle' (BitVec.not_le.mpr (hp.1.later p hp'))
        next htime =>
          split
          · next hsafe =>
            exact iff_of_false (by decide) fun hp => hsafe.2 (hp.2 (hlast.mp hsafe.1))
          · next hsafe =>
            refine iff_of_true rfl ⟨⟨?_, not_not.mp hflags, ?_, ?_⟩, ?_⟩
            · exact not_not.mp (mt (reservedMask_iff e.state).mpr hres)
            · rw [← h.state]
              exact hstate
            · intro p hp
              by_contra hlt
              refine htime ⟨hindex.mpr (by rw [hp]; exact nofun), ?_⟩
              rw [h.timestamp p hp]
              exact BitVec.not_lt.mp hlt
            · intro hc
              by_contra hne
              exact hsafe ⟨hlast.mpr hc, hne⟩

theorem buildRequest_word (id : Word) (command : BitVec 16) (words : List Word) (k : Fin 11) :
    (Rpmsg.buildRequest id command words).word k = words.getD k 0 := by
  change (Vector.ofFn fun i : Fin 11 => words.getD i 0)[k.val] = _
  rw [Vector.getElem_ofFn]

theorem eventRequest_payload (id : Word) (index : ℕ) (e : Event) :
    (eventRequest id index e).payloadWords = seqLoadEventWords ∧
      (eventRequest id index e).word 0 = BitVec.ofNat 32 index ∧
      (eventRequest id index e).word 1 = e.timestamp.setWidth 32 ∧
      (eventRequest id index e).word 2 = (e.timestamp >>> 32).setWidth 32 ∧
      (eventRequest id index e).word 3 = e.state ∧
      (eventRequest id index e).word 4 = e.flags := by
  refine ⟨rfl, ?_, ?_, ?_, ?_, ?_⟩ <;> rw [eventRequest, buildRequest_word] <;> rfl

/-- The CRC over the words of an event is the CRC over its bytes. -/
theorem crc_eventWords (crc : Word) (e : Event) :
    (eventWords e).foldl crc32Word crc = DataPlane.crc32Update crc e.pack := by
  have hlow : putLE 8 e.timestamp.toNat = putLE 4 (e.timestamp.setWidth 32).toNat ++
      putLE 4 ((e.timestamp >>> 32).setWidth 32).toNat := by
    rw [BitVec.toNat_setWidth, BitVec.toNat_setWidth, BitVec.toNat_ushiftRight,
      Nat.shiftRight_eq_div_pow, show (2 : ℕ) ^ 32 = 256 ^ 4 from rfl, putLE_mod, putLE_mod,
      ← putLE_add 4 4]
  simp only [eventWords, List.foldl_cons, List.foldl_nil, crc32Word_eq,
    ← DataPlane.crc32Update_append]
  rw [Event.pack, hlow]
  simp only [List.append_assoc]

theorem payloadOf_concat (events : List Event) (e : Event) :
    payloadOf (events ++ [e]) = payloadOf events ++ e.pack := by
  rw [payloadOf, payloadOf, writeTable, writeTable, List.flatMap_append, List.flatMap_singleton]

/-- The service after one more event: its words are in the memory and counted into the CRC. -/
theorem Loading.concat (h : Loading count crc taken s) (hlt : taken.length < count) {e : Event}
    (hp : Passes taken.getLast? (taken.length + 1 = count) e) {s' : Service Page}
    (hfree : s'.bus.Free)
    (hmemory : s'.bus.memory = s.bus.memory.store taken.length 0 (eventWords e))
    (hload : s'.sequenceLoad = { s.sequenceLoad with
      crc32State := (eventWords e).foldl crc32Word s.sequenceLoad.crc32State
      previousTimestamp := e.timestamp, previousState := e.state
      nextEvent := s.sequenceLoad.nextEvent + 1 }) :
    Loading count crc (taken ++ [e]) s' where
  free := hfree
  active := by
    rw [hload]
    exact h.active
  countLe := h.countLe
  takenLe := by
    rw [List.length_append, List.length_singleton]
    omega
  expected := by
    rw [hload]
    exact h.expected
  next := by
    rw [hload, List.length_append, List.length_singleton]
    dsimp only
    rw [h.next]
    exact (BitVec.ofNat_add taken.length 1).symm
  expectedCrc := by
    rw [hload]
    exact h.expectedCrc
  crcState := by
    rw [hload]
    dsimp only
    rw [h.crcState, crc_eventWords, ← DataPlane.crc32Update_append, ← payloadOf_concat]
  timestamp := fun p hp' => by
    rw [List.getLast?_concat] at hp'
    cases hp'
    rw [hload]
  state := by
    rw [List.getLast?_concat, hload]
    rfl
  legal := legal_concat.mpr ⟨h.legal, hp.1⟩
  holds := by
    have hmax := h.countLe
    rw [hmemory]
    exact holds_store h.holds (by omega)

/-- LOAD_EVENT takes the event that follows the ones before. -/
theorem loadEvent_accepts (h : Loading count crc taken s) (hlt : taken.length < count) {e : Event}
    (hp : Passes taken.getLast? (taken.length + 1 = count) e) (id : Word) :
    ∃ s', exchange (handleSeqLoadEvent pageBus) (eventRequest id taken.length e) s = (true, s') ∧
      Loading count crc (taken ++ [e]) s' := by
  have hmax := h.countLe
  obtain ⟨hwords, h0, h1, h2, h3, h4⟩ := eventRequest_payload id taken.length e
  have hvalid := (validateEvent_none_iff h e).mpr hp
  obtain ⟨s₁, hs₁, hbus, hload⟩ := writeEventWords_free h.free (show taken.length < 128 by omega)
    (eventWords e) (k := 0) le_rfl
  have hindex : ¬(BitVec.ofNat 32 taken.length ≠ s.sequenceLoad.nextEvent ∨
      s.sequenceLoad.expectedEvents ≤ BitVec.ofNat 32 taken.length) := by
    rw [h.next, h.expected, ofNat32_le (by omega) (by omega)]
    exact not_or.mpr ⟨not_not.mpr rfl, by omega⟩
  refine ⟨{ s₁ with sequenceLoad := { s₁.sequenceLoad with
    previousTimestamp := e.timestamp, previousState := e.state
    nextEvent := s₁.sequenceLoad.nextEvent + 1 } }, ?_, ?_⟩
  · have hstore : storeEvent pageBus (BitVec.ofNat 32 taken.length) e.timestamp (eventWords e)
        e.state (responseInit (eventRequest id taken.length e)) s =
        ((responseInit (eventRequest id taken.length e)).withWords .ok
          [BitVec.ofNat 32 taken.length], { s₁ with sequenceLoad := { s₁.sequenceLoad with
            previousTimestamp := e.timestamp, previousState := e.state
            nextEvent := s₁.sequenceLoad.nextEvent + 1 } }) := by
      simp only [storeEvent, bind, StateT.bind]
      rw [show (0 : Word) = BitVec.ofNat 32 0 from rfl, hs₁]
      rfl
    have hhandler : handleSeqLoadEvent pageBus (eventRequest id taken.length e)
        (responseInit (eventRequest id taken.length e)) s =
        storeEvent pageBus (BitVec.ofNat 32 taken.length) e.timestamp (eventWords e) e.state
          (responseInit (eventRequest id taken.length e)) s := by
      simp only [handleSeqLoadEvent, bind, StateT.bind, get, getThe, MonadStateOf.get, StateT.get,
        pure]
      rw [h0, h1, h2, h3, h4, if_neg (not_not.mpr hwords), h.active, if_neg (by decide),
        if_neg hindex, timestamp_halves, hvalid, if_neg (not_not.mpr rfl)]
      rfl
    simp only [exchange, bind, StateT.bind]
    rw [hhandler, hstore]
    rfl
  · dsimp only
    refine h.concat hlt hp ?_ ?_ ?_
    · rw [hbus]
      exact ⟨h.free.1, h.free.2, h.free.3, h.free.4⟩
    · rw [hbus]
    · dsimp only
      rw [hload]

/-- LOAD_EVENT refuses any other event, and gives the load up. -/
theorem loadEvent_refuses (h : Loading count crc taken s) {e : Event}
    (hno : ¬(taken.length < count ∧ Passes taken.getLast? (taken.length + 1 = count) e))
    (id : Word) :
    (exchange (handleSeqLoadEvent pageBus) (eventRequest id taken.length e) s).1 = false := by
  have hmax := h.countLe
  have hle := h.takenLe
  obtain ⟨hwords, h0, h1, h2, h3, h4⟩ := eventRequest_payload id taken.length e
  have hhandler : ∃ status detail, status ≠ R5.Status.ok ∧
      (handleSeqLoadEvent pageBus (eventRequest id taken.length e)
        (responseInit (eventRequest id taken.length e)) s).1 =
      (responseInit (eventRequest id taken.length e)).withWords status
        [BitVec.ofNat 32 taken.length, detail] := by
    simp only [handleSeqLoadEvent, bind, StateT.bind, get, getThe, MonadStateOf.get, StateT.get,
      pure]
    rw [h0, h1, h2, h3, h4, if_neg (not_not.mpr hwords), h.active, if_neg (by decide)]
    by_cases hlt : taken.length < count
    · have hvalid := mt (validateEvent_none_iff h e).mp fun hp => hno ⟨hlt, hp⟩
      rw [if_neg, timestamp_halves, if_pos hvalid]
      · exact ⟨.badSequence, _, by decide, rfl⟩
      · rw [h.next, h.expected, ofNat32_le (by omega) (by omega)]
        exact not_or.mpr ⟨not_not.mpr rfl, by omega⟩
    · rw [if_pos]
      · exact ⟨.badIndex, _, by decide, rfl⟩
      · rw [h.next, h.expected, ofNat32_le (by omega) (by omega)]
        exact .inr (by omega)
  obtain ⟨status, detail, hne, heq⟩ := hhandler
  rw [exchange_fst, heq]
  exact decide_eq_false hne

/-! ## A whole load -/

/-- What the LOAD_EVENT requests for `rest` need to get through after `taken`. -/
structure GoesOn (count : ℕ) (taken rest : List Event) : Prop where
  length : taken.length + rest.length ≤ count
  legal : Legal none (taken ++ rest)
  safe : rest ≠ [] → taken.length + rest.length = count → stateAfter (taken ++ rest).getLast? = 0

/-- The first event of the rest is checked, and then the others after it. -/
theorem goesOn_cons {e : Event} {rest : List Event} :
    GoesOn count taken (e :: rest) ↔
      (taken.length < count ∧ Passes taken.getLast? (taken.length + 1 = count) e) ∧
        GoesOn count (taken ++ [e]) rest := by
  have happend : taken ++ e :: rest = (taken ++ [e]) ++ rest := by
    rw [List.append_assoc, List.singleton_append]
  have hlen : (taken ++ [e]).length = taken.length + 1 := by
    rw [List.length_append, List.length_singleton]
  constructor
  · rintro ⟨h1, h2, h3⟩
    rw [happend] at h2 h3
    rw [List.length_cons] at h1 h3
    refine ⟨⟨by omega, ?_, fun hlast => ?_⟩, ⟨by omega, h2, fun _ heq => h3 nofun (by omega)⟩⟩
    · rw [legal_append] at h2
      exact (legal_concat.mp h2.1).2
    · have hnil : rest = [] := List.length_eq_zero_iff.mp (by omega)
      subst hnil
      have hzero := h3 nofun hlast
      rwa [List.append_nil, List.getLast?_concat] at hzero
  · rintro ⟨⟨hlt, hp⟩, ⟨h1, h2, h3⟩⟩
    rw [hlen] at h1 h3
    refine ⟨by rw [List.length_cons]; omega, by rw [happend]; exact h2, fun _ heq => ?_⟩
    rw [List.length_cons] at heq
    cases rest with
    | nil =>
      rw [List.getLast?_concat]
      exact hp.2 heq
    | cons e' rest =>
      rw [happend]
      exact h3 nofun (by omega)

/-- The LOAD_EVENT requests get through when the list goes on as a program does. -/
theorem loadEvents_iff (h : Loading count crc taken s) (ids : ℕ → Word) (rest : List Event) :
    (GoesOn count taken rest ∧
        ∃ s', loadEvents pageBus ids taken.length rest s = (true, s') ∧
          Loading count crc (taken ++ rest) s') ∨
      (¬GoesOn count taken rest ∧ (loadEvents pageBus ids taken.length rest s).1 = false) := by
  induction rest generalizing taken s with
  | nil =>
    refine .inl ⟨⟨h.takenLe, ?_, fun hne => absurd rfl hne⟩, s, rfl, ?_⟩
    · rw [List.append_nil]
      exact h.legal
    · rw [List.append_nil]
      exact h
  | cons e rest ih =>
    rw [goesOn_cons]
    by_cases hp : taken.length < count ∧ Passes taken.getLast? (taken.length + 1 = count) e
    · obtain ⟨s', hs', hnext⟩ := loadEvent_accepts h hp.1 hp.2 (ids taken.length)
      have hrest : loadEvents pageBus ids taken.length (e :: rest) s =
          loadEvents pageBus ids (taken ++ [e]).length rest s' := by
        simp only [loadEvents, bind, StateT.bind]
        rw [hs', List.length_append, List.length_singleton]
        rfl
      have happend : taken ++ e :: rest = (taken ++ [e]) ++ rest := by
        rw [List.append_assoc, List.singleton_append]
      rw [hrest, happend]
      rcases ih hnext with ⟨hgo, hok⟩ | ⟨hno, hfalse⟩
      · exact .inl ⟨⟨hp, hgo⟩, hok⟩
      · exact .inr ⟨fun hc => hno hc.2, hfalse⟩
    · refine .inr ⟨fun hc => hp hc.1, ?_⟩
      have hfalse := loadEvent_refuses h hp (ids taken.length)
      simp only [loadEvents, bind, StateT.bind]
      rw [eq_mk_of_fst hfalse]
      rfl

theorem statusWord_free {p : Page} (h : p.Free) :
    p.statusWord &&& (seqHwIdle ||| seqHwCommandBusy ||| seqHwMemoryLocked ||| seqHwFaulted) =
      seqHwIdle := by
  rw [Page.statusWord, h.idle, h.faulted, h.commandBusy, h.memoryLocked]
  cases p.busy <;> cases p.armed <;> cases p.validating <;> decide

/-- LOAD_BEGIN on a free page looks at the count only. -/
theorem begin_iff (hfree : s.bus.Free) (id : Word) (events : List Event) :
    (∃ count, 2 ≤ count ∧ count ≤ 128 ∧
        (BitVec.ofNat 32 events.length : Word) = BitVec.ofNat 32 count ∧
        ∃ s', exchange (handleSeqLoadBegin pageBus) (beginRequest id events) s = (true, s') ∧
          Loading count (crc32 (payloadOf events)) [] s') ∨
      (¬(2 ≤ events.length ∧ events.length ≤ 128) ∧
        (exchange (handleSeqLoadBegin pageBus) (beginRequest id events) s).1 = false) := by
  have h0 : (beginRequest id events).word 0 = BitVec.ofNat 32 events.length := by
    rw [beginRequest, buildRequest_word]
    rfl
  have h1 : (beginRequest id events).word 1 = crc32 (payloadOf events) := by
    rw [beginRequest, buildRequest_word]
    rfl
  have hwords : (beginRequest id events).payloadWords = seqLoadBeginWords := rfl
  have hstatus : s.bus.read seqStatus = s.bus.statusWord := by
    rw [Page.read, if_neg (by decide), if_pos rfl]
  have hcount : ((BitVec.ofNat 32 events.length : Word) < sequenceMinEvents ∨
      sequenceMaxEvents < BitVec.ofNat 32 events.length) ↔
      ¬(2 ≤ events.length % 2 ^ 32 ∧ events.length % 2 ^ 32 ≤ 128) := by
    rw [BitVec.lt_def, BitVec.lt_def, BitVec.toNat_ofNat,
      show sequenceMinEvents.toNat = 2 from rfl, show sequenceMaxEvents.toNat = 128 from rfl]
    omega
  -- the word of the count is the length modulo 2 ^ 32
  by_cases hc : 2 ≤ events.length % 2 ^ 32 ∧ events.length % 2 ^ 32 ≤ 128
  · refine .inl ⟨events.length % 2 ^ 32, hc.1, hc.2, ?_, ?_⟩
    · exact BitVec.eq_of_toNat_eq (by rw [BitVec.toNat_ofNat, BitVec.toNat_ofNat, Nat.mod_mod])
    have hgate : ¬((pageBus.read seqStatus s.bus).1 &&&
        (seqHwIdle ||| seqHwCommandBusy ||| seqHwMemoryLocked ||| seqHwFaulted) ≠ seqHwIdle) := by
      rw [show (pageBus.read seqStatus s.bus).1 = s.bus.read seqStatus from rfl, hstatus,
        statusWord_free hfree]
      exact not_not.mpr rfl
    refine ⟨{ s with sequenceLoad :=
      { active := true, committed := false, expectedEvents := BitVec.ofNat 32 events.length
        nextEvent := 0, expectedCrc32 := crc32 (payloadOf events)
        crc32State := BitVec.allOnes 32, previousTimestamp := 0, previousState := 0 } }, ?_, ?_⟩
    · simp only [exchange, bind, StateT.bind, handleSeqLoadBegin]
      rw [if_neg (not_not.mpr hwords), h0, h1, if_neg (mt hcount.mp (not_not.mpr hc))]
      simp only [StateT.bind, regRead, bind]
      rw [if_neg hgate]
      rfl
    · exact {
        free := hfree
        active := rfl
        countLe := hc.2
        takenLe := Nat.zero_le _
        expected := BitVec.eq_of_toNat_eq
          (by rw [BitVec.toNat_ofNat, BitVec.toNat_ofNat, Nat.mod_mod])
        next := rfl
        expectedCrc := rfl
        crcState := rfl
        timestamp := nofun
        state := rfl
        legal := trivial
        holds := nofun }
  · refine .inr ⟨fun hl => hc ?_, ?_⟩
    · rw [Nat.mod_eq_of_lt (by omega)]
      exact hl
    · rw [exchange_fst, handleSeqLoadBegin, if_neg (not_not.mpr hwords), h0,
        if_pos (hcount.mpr hc)]
      rfl

/-- LOAD_COMMIT after all events, with the CRC of what was loaded. -/
theorem commit_accepts (h : Loading taken.length (crc32 (payloadOf taken)) taken s) (id : Word) :
    ∃ s', exchange (handleSeqLoadCommit pageBus) (commitRequest id) s = (true, s') ∧
      s'.bus = { s.bus with eventCount := BitVec.ofNat 8 taken.length } ∧
      s'.sequenceLoad.committed = true := by
  have hmax := h.countLe
  have hwords : (commitRequest id).payloadWords = 0 := rfl
  have hcrc : s.sequenceLoad.crc32State ^^^ BitVec.allOnes 32 = s.sequenceLoad.expectedCrc32 := by
    rw [h.crcState, h.expectedCrc]
    rfl
  have hwidth : (BitVec.ofNat 32 taken.length).setWidth 8 = BitVec.ofNat 8 taken.length := by
    apply BitVec.eq_of_toNat_eq
    simp only [BitVec.toNat_setWidth, BitVec.toNat_ofNat]
    omega
  have hback : (BitVec.ofNat 8 taken.length).setWidth 32 = BitVec.ofNat 32 taken.length := by
    apply BitVec.eq_of_toNat_eq
    simp only [BitVec.toNat_setWidth, BitVec.toNat_ofNat]
    omega
  have hwrite : s.bus.write seqEventCount s.sequenceLoad.expectedEvents =
      { s.bus with eventCount := BitVec.ofNat 8 taken.length } := by
    rw [Page.write, h.free.allowed, if_neg (by decide), if_neg (by decide), if_pos rfl, h.expected,
      hwidth]
  have hread : (s.bus.write seqEventCount s.sequenceLoad.expectedEvents).read seqEventCount =
      s.sequenceLoad.expectedEvents := by
    rw [hwrite, Page.read, if_neg (by decide), if_neg (by decide), if_pos rfl, h.expected]
    exact hback
  have hmatch : ¬((pageBus.read seqEventCount
      (pageBus.write seqEventCount s.sequenceLoad.expectedEvents s.bus)).1 ≠
      s.sequenceLoad.expectedEvents) := not_not.mpr hread
  refine ⟨{ s with
    bus := s.bus.write seqEventCount s.sequenceLoad.expectedEvents
    sequenceLoad := { s.sequenceLoad with active := false, committed := true }
    writes := s.writes ++ [(seqEventCount, s.sequenceLoad.expectedEvents)] }, ?_, hwrite, rfl⟩
  simp only [exchange, handleSeqLoadCommit, bind, StateT.bind, get, getThe, MonadStateOf.get,
    StateT.get, pure]
  rw [if_neg (not_not.mpr hwords), h.active, if_neg, if_neg (not_not.mpr hcrc)]
  · simp only [StateT.bind, regWrite, regRead, bind]
    rw [if_neg hmatch]
    rfl
  · rw [h.next, h.expected]
    simp

/-- A load gets through with a program and with nothing else, and leaves it on the page. -/
theorem loadProgram_iff (hfree : s.bus.Free) (beginId commitId : Word) (ids : ℕ → Word)
    (events : List Event) :
    (Program events ∧ ∃ s', loadProgram pageBus beginId commitId ids events s = (true, s') ∧
        Holds s'.bus.memory events ∧ s'.bus.eventCount = BitVec.ofNat 8 events.length) ∨
      (¬Program events ∧ (loadProgram pageBus beginId commitId ids events s).1 = false) := by
  rcases begin_iff hfree beginId events with
    ⟨count, hmin, hmax, hcount, s₁, hs₁, hloading⟩ | ⟨hno, hfalse⟩
  · have hbegun : loadProgram pageBus beginId commitId ids events s =
        (do
          let taken ← loadEvents pageBus ids 0 events
          if taken then exchange (handleSeqLoadCommit pageBus) (commitRequest commitId)
          else pure false) s₁ := by
      simp only [loadProgram, bind, StateT.bind]
      rw [hs₁]
      rfl
    rw [hbegun]
    rcases loadEvents_iff hloading ids events with ⟨hgo, s₂, hs₂, hloaded⟩ | ⟨hno, hfalse⟩
    · have hle := hgo.length
      rw [List.length_nil, Nat.zero_add] at hle
      have heq : events.length = count := (ofNat32_inj (by omega) (by omega)).mp hcount
      subst heq
      rw [List.nil_append] at hloaded
      obtain ⟨s₃, hs₃, hbus, -⟩ := commit_accepts hloaded commitId
      refine .inl ⟨⟨hmin, hmax, hgo.legal, ?_⟩, s₃, ?_, ?_, by rw [hbus]⟩
      · refine hgo.safe ?_ (Nat.zero_add _)
        rintro rfl
        exact absurd hmin (by decide)
      · rw [← hs₃]
        simp only [bind, StateT.bind]
        rw [show loadEvents pageBus ids 0 events s₁ = (true, s₂) from hs₂]
        rfl
      · rw [hbus]
        exact hloaded.holds
    · refine .inr ⟨fun hprog => hno ?_, ?_⟩
      · have heq : events.length = count :=
          (ofNat32_inj (by have := hprog.atMost; omega) (by omega)).mp hcount
        exact ⟨by rw [List.length_nil, heq, Nat.zero_add], hprog.legal, fun _ _ => hprog.safe⟩
      · have hevents : (loadEvents pageBus ids 0 events s₁).1 = false := hfalse
        simp only [bind, StateT.bind]
        rw [eq_mk_of_fst hevents]
        rfl
  · refine .inr ⟨fun hprog => hno ⟨hprog.atLeast, hprog.atMost⟩, ?_⟩
    simp only [loadProgram, bind, StateT.bind]
    rw [eq_mk_of_fst hfalse]
    rfl

end

end QCrate.Sequence
