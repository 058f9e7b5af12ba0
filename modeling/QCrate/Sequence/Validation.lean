import QCrate.Sequence.Engine

/-!
# The VALIDATE pass

The engine reads the table through a memory that answers one edge later, so while it requests
event `j` it checks event `j - 1`. The pass ends in PREFETCH exactly when the table is a program,
and in FAULT otherwise.

* `Validating` — the engine, `j` edges into the pass.
* `validating_step` — one edge takes the pass one event further, or finds a fault.
* `validate_result` — after `length + 2` edges the table was found to be a program, or not.
* `passes_iff_program` — what the engine accepts, for lists of any length.
-/

namespace QCrate.Sequence

/-! ## The inputs of an engine at work -/

/-- The memory holds the events from address 0 on. -/
def Holds (m : Memory) (events : List Event) : Prop :=
  ∀ i e, events[i]? = some e → m.event (BitVec.ofNat 7 i) = e

/-- Inputs without reset or ABORT, with ARM only for an idle engine and START for an armed one. -/
structure Quiet (count : ℕ) (s : Engine) (i : EngineIn) : Prop where
  rstN : i.rstN = true
  softReset : i.softReset = false
  abort : i.abort = false
  arm : i.arm = true → s.state = .idle ∧ i.eventCount = BitVec.ofNat 8 count
  start : i.start = true → s.state = .armed

namespace Engine

theorem tick_of_quiet {count : ℕ} {s : Engine} {i : EngineIn} (h : Quiet count s i)
    (r : Response) : s.tick i r = s.work i r := by
  have harm : (i.arm && decide (s.state ≠ .idle)) = false := by
    cases ha : i.arm with
    | false => rfl
    | true => simp [(h.arm ha).1]
  have hstart : (i.start && decide (s.state ≠ .armed)) = false := by
    cases hs : i.start with
    | false => rfl
    | true => simp [h.start hs]
  unfold tick
  simp only [h.rstN, h.softReset, h.abort, harm, hstart, Bool.not_true, Bool.or_self,
    Bool.and_false, Bool.false_and, Bool.false_eq_true, if_false]

end Engine

/-! ## One response -/

theorem reserved_iff (e : Event) : e.state.extractLsb' 2 30 ≠ 0 ↔ ¬e.state.toNat < 4 := by
  have hlt := e.state.isLt
  have hzero : (0 : BitVec 30).toNat = 0 := rfl
  rw [ne_eq, ← BitVec.toNat_inj, BitVec.extractLsb'_toNat, Nat.shiftRight_eq_div_pow, hzero]
  omega

/-- Legal state words are told apart by their output bits. -/
theorem setWidth_inj {a b : BitVec 32} (ha : a.toNat < 4) (hb : b.toNat < 4) :
    a.setWidth 2 = b.setWidth 2 ↔ a = b := by
  rw [← BitVec.toNat_inj, ← BitVec.toNat_inj, BitVec.toNat_setWidth, BitVec.toNat_setWidth,
    Nat.mod_eq_of_lt ha, Nat.mod_eq_of_lt hb]

theorem stateAfter_lt {prev : Option Event} (h : ∀ p, prev = some p → p.state.toNat < 4) :
    (stateAfter prev).toNat < 4 := by
  cases prev with
  | none => decide
  | some p => exact h p rfl

/-- The condition a response is checked against: the rules, and a safe state at the end. -/
def Passes (prev : Option Event) (last : Prop) (e : Event) : Prop :=
  Follows prev e ∧ (last → e.state = 0)

/-- What the engine remembers of the event before. -/
structure Remembers (s : Engine) (prev : Option Event) : Prop where
  index : s.validateRspIndex = 0 ↔ prev = none
  timestamp : ∀ p, prev = some p → s.previousTimestamp = p.timestamp
  state : s.previousState = (stateAfter prev).setWidth 2
  legal : (stateAfter prev).toNat < 4

theorem validateResponse_passes {s : Engine} {prev : Option Event} {e : Event} (n : Engine)
    (hr : Remembers s prev) (hp : Passes prev (s.validateRspIndex + 1 = s.eventCount) e) :
    s.validateResponse e n =
      let n := { n with
        previousTimestamp := e.timestamp, previousState := e.outputs
        validateRspIndex := s.validateRspIndex + 1 }
      if s.validateRspIndex + 1 = s.eventCount then
        { n with prefetchReqIndex := 0, prefetchRspIndex := 0, state := .prefetch }
      else n := by
  obtain ⟨⟨hres, hflags, hchanges, hlater⟩, hlast⟩ := hp
  have hout : e.outputs ≠ s.previousState := by
    rw [hr.state, Event.outputs, ne_eq, setWidth_inj hres hr.legal]
    exact hchanges
  have htime : ¬(s.validateRspIndex ≠ 0 ∧ e.timestamp ≤ s.previousTimestamp) := by
    rintro ⟨hne, hle⟩
    cases prev with
    | none => exact hne (hr.index.mpr rfl)
    | some p =>
      rw [hr.timestamp p rfl] at hle
      exact absurd hle (BitVec.not_le.mpr (hlater p rfl))
  have hsafe : ¬(s.validateRspIndex + 1 = s.eventCount ∧ e.outputs ≠ 0) := by
    rintro ⟨heq, hne⟩
    rw [Event.outputs, hlast heq] at hne
    exact hne rfl
  unfold Engine.validateResponse
  simp only [Bool.and_eq_true, decide_eq_true_eq]
  rw [if_neg (by rw [reserved_iff]; exact not_not.mpr hres), if_neg (not_not.mpr hflags),
    if_neg hout, if_neg htime, if_neg hsafe]

theorem validateResponse_faults {s : Engine} {prev : Option Event} {e : Event} (n : Engine)
    (hr : Remembers s prev) (hp : ¬Passes prev (s.validateRspIndex + 1 = s.eventCount) e) :
    (s.validateResponse e n).state = .fault := by
  unfold Engine.validateResponse
  simp only [Bool.and_eq_true, decide_eq_true_eq]
  split
  · rfl
  next hres =>
    split
    · rfl
    next hflags =>
      split
      · rfl
      next hout =>
        split
        · rfl
        next htime =>
          split
          · rfl
          next hsafe =>
            -- all checks passed, so the event obeys the rules
            rw [reserved_iff, not_not] at hres
            refine absurd ⟨⟨hres, not_not.mp hflags, ?_, ?_⟩, ?_⟩ hp
            · rw [hr.state, Event.outputs, setWidth_inj hres hr.legal] at hout
              exact hout
            · rintro p rfl
              by_contra hle
              have hne : s.validateRspIndex ≠ 0 := fun hz => nomatch hr.index.mp hz
              rw [hr.timestamp p rfl] at htime
              exact htime ⟨hne, BitVec.not_lt.mp hle⟩
            · intro heq
              by_contra hne
              refine hsafe ⟨heq, ?_⟩
              rw [Event.outputs, ne_eq, show (0 : BitVec 2) = (0 : BitVec 32).setWidth 2 from rfl,
                setWidth_inj hres (by decide)]
              exact hne

/-! ## The pass -/

/-- `j` edges into the pass event `j` is the next to be requested, event `j - 1` is on the port
and the events before that one have passed. -/
structure Validating (events : List Event) (j : ℕ) (p : Player) : Prop where
  state : p.engine.state = .validate
  count : p.engine.eventCount = BitVec.ofNat 8 events.length
  le : j ≤ events.length
  request : p.engine.validateReqIndex = BitVec.ofNat 8 j
  index : p.engine.validateRspIndex = BitVec.ofNat 8 (j - 1)
  remembers : Remembers p.engine (events.take (j - 1)).getLast?
  legal : Legal none (events.take (j - 1))
  valid : p.response.valid = decide (0 < j)
  data : ∀ e, 0 < j → events[j - 1]? = some e → p.response.data = e
  pulse : p.engine.pulse = 0

/-- `j` edges into the prefetch of the first two events. -/
structure Prefetching (events : List Event) (j : ℕ) (p : Player) : Prop where
  state : p.engine.state = .prefetch
  count : p.engine.eventCount = BitVec.ofNat 8 events.length
  le : j ≤ 2
  request : p.engine.prefetchReqIndex = BitVec.ofNat 8 j
  index : p.engine.prefetchRspIndex = BitVec.ofNat 8 (j - 1)
  current : ∀ e, j = 2 → events[0]? = some e → p.engine.currentEvent = e.entry
  currentValid : j = 2 → p.engine.currentEventValid = true
  valid : p.response.valid = decide (0 < j)
  data : ∀ e, 0 < j → events[j - 1]? = some e → p.response.data = e
  pulse : p.engine.pulse = 0

section

variable {m : Memory} {events : List Event} {i : EngineIn} {p : Player} {j : ℕ}

theorem ofNat_add_one (w k : ℕ) : BitVec.ofNat w k + 1 = BitVec.ofNat w (k + 1) :=
  (BitVec.ofNat_add k 1).symm

theorem ofNat_inj {a b : ℕ} (ha : a < 2 ^ 8) (hb : b < 2 ^ 8) :
    BitVec.ofNat 8 a = BitVec.ofNat 8 b ↔ a = b := by
  rw [← BitVec.toNat_inj, BitVec.toNat_ofNat, BitVec.toNat_ofNat, Nat.mod_eq_of_lt ha,
    Nat.mod_eq_of_lt hb]

theorem ofNat_lt {a b : ℕ} (ha : a < 2 ^ 8) (hb : b < 2 ^ 8) :
    BitVec.ofNat 8 a < BitVec.ofNat 8 b ↔ a < b := by
  rw [BitVec.lt_def, BitVec.toNat_ofNat, BitVec.toNat_ofNat, Nat.mod_eq_of_lt ha,
    Nat.mod_eq_of_lt hb]

theorem setWidth_ofNat (a : ℕ) : (BitVec.ofNat 8 a).setWidth 7 = BitVec.ofNat 7 a := by
  apply BitVec.eq_of_toNat_eq
  simp only [BitVec.toNat_setWidth, BitVec.toNat_ofNat]
  omega

/-- What the engine requests during the pass. -/
theorem Validating.request_eq (h : Validating events j p) (hmax : events.length ≤ 128) :
    p.engine.request = if j < events.length then some (BitVec.ofNat 7 j) else none := by
  have hle := h.le
  unfold Engine.request
  rw [h.state]
  dsimp only
  rw [h.request, h.count]
  simp only [ofNat_lt (show j < 2 ^ 8 by omega) (show events.length < 2 ^ 8 by omega),
    setWidth_ofNat]

/-- ARM on an idle engine starts the pass. -/
theorem validating_of_arm (hidle : p.engine.state = .idle)
    (hq : Quiet events.length p.engine i) (harm : i.arm = true) (hmin : 2 ≤ events.length)
    (hmax : events.length ≤ 128) : Validating events 0 (p.tick m i) := by
  have hcount := (hq.arm harm).2
  have hne : ¬(i.eventCount < minEvents ∨ maxEventCount < i.eventCount) := by
    rw [hcount, minEvents, maxEventCount, show (2 : BitVec 8) = BitVec.ofNat 8 2 from rfl,
      show (128 : BitVec 8) = BitVec.ofNat 8 128 from rfl,
      ofNat_lt (by omega) (by omega), ofNat_lt (by omega) (by omega)]
    omega
  have hengine : (p.tick m i).engine = p.engine.work i p.response := p.engine.tick_of_quiet hq _
  have hreq : p.engine.request = none := by
    unfold Engine.request
    rw [hidle]
  have hresp : (p.tick m i).response = { p.response with valid := false } := by
    rw [Player.tick, hreq]
    rfl
  rw [Engine.work, hidle] at hengine
  dsimp only at hengine
  rw [Engine.idleStep, if_pos harm] at hengine
  simp only [Bool.or_eq_true, decide_eq_true_eq] at hengine
  rw [if_neg hne] at hengine
  exact {
    state := by rw [hengine]
    count := by rw [hengine]; exact hcount
    le := Nat.zero_le _
    request := by rw [hengine]; rfl
    index := by rw [hengine]; rfl
    remembers := {
      index := by rw [hengine]; exact iff_of_true rfl rfl
      timestamp := by rintro q ⟨⟩
      state := by rw [hengine]; rfl
      legal := stateAfter_lt fun _ h => by simp at h }
    legal := trivial
    valid := by rw [hresp]; rfl
    data := fun e h0 => absurd h0 (Nat.lt_irrefl 0)
    pulse := by rw [hengine] }

/-- The pass before its first response. -/
theorem validating_first (h : Validating events 0 p) (hm : Holds m events)
    (hq : Quiet events.length p.engine i) (hmin : 2 ≤ events.length)
    (hmax : events.length ≤ 128) : Validating events 1 (p.tick m i) := by
  have hreq := h.request_eq hmax
  rw [if_pos (by omega)] at hreq
  have hengine : (p.tick m i).engine =
      { p.engine.noPulses with validateReqIndex := p.engine.validateReqIndex + 1 } := by
    rw [Player.tick]
    dsimp only
    rw [p.engine.tick_of_quiet hq, Engine.work, h.state]
    dsimp only
    rw [Engine.validateStep, hreq, h.valid]
    rfl
  have hresp : (p.tick m i).response = ⟨true, m.event (BitVec.ofNat 7 0)⟩ := by
    rw [Player.tick, hreq]
    rfl
  exact {
    state := by rw [hengine]; exact h.state
    count := by rw [hengine]; exact h.count
    le := by omega
    request := by rw [hengine]; dsimp only; rw [h.request, ofNat_add_one]
    index := by rw [hengine]; exact h.index
    remembers := by rw [hengine]; exact ⟨h.remembers.1, h.remembers.2, h.remembers.3, h.remembers.4⟩
    legal := trivial
    valid := by rw [hresp]; rfl
    data := fun e _ he => by rw [hresp]; exact hm 0 e he
    pulse := by rw [hengine]; exact h.pulse }

/-- What the check of event `j - 1` asks. -/
theorem passes_iff (hj : 0 < j) (hle : j ≤ events.length) {e : Event}
    (he : events[j - 1]? = some e) (hlegal : Legal none (events.take (j - 1))) :
    Passes (events.take (j - 1)).getLast? (j = events.length) e ↔
      Legal none (events.take j) ∧ (j = events.length → stateAfter events.getLast? = 0) := by
  obtain ⟨hlt, hget⟩ := List.getElem?_eq_some_iff.mp he
  have htake : events.take j = events.take (j - 1) ++ [e] := by
    have hsucc := List.take_succ_eq_append_getElem hlt
    rw [Nat.sub_add_cancel hj, hget] at hsucc
    exact hsucc
  have hlast : j = events.length → stateAfter events.getLast? = e.state := by
    rintro rfl
    rw [List.getLast?_eq_getElem?, he]
    rfl
  rw [Passes, htake, legal_concat]
  constructor
  · rintro ⟨hf, hs⟩
    exact ⟨⟨hlegal, hf⟩, fun hjn => (hlast hjn).trans (hs hjn)⟩
  · rintro ⟨⟨-, hf⟩, hs⟩
    exact ⟨hf, fun hjn => (hlast hjn).symm.trans (hs hjn)⟩

/-- One edge of the pass: event `j - 1` is checked while event `j` is read. -/
theorem validating_step (h : Validating events j p) (hm : Holds m events)
    (hq : Quiet events.length p.engine i) (hmin : 2 ≤ events.length)
    (hmax : events.length ≤ 128) (hj : 0 < j) :
    (j < events.length ∧ Validating events (j + 1) (p.tick m i)) ∨
      (j = events.length ∧ Program events ∧ Prefetching events 0 (p.tick m i)) ∨
      (¬Program events ∧ (p.tick m i).engine.state = .fault) := by
  have hle := h.le
  obtain ⟨e, he⟩ : ∃ e, events[j - 1]? = some e :=
    ⟨_, List.getElem?_eq_getElem (by omega)⟩
  have hdata := h.data e hj he
  have hreq := h.request_eq hmax
  have hindex : p.engine.validateRspIndex + 1 = BitVec.ofNat 8 j := by
    rw [h.index, ofNat_add_one, Nat.sub_add_cancel hj]
  have hlast : (p.engine.validateRspIndex + 1 = p.engine.eventCount) = (j = events.length) := by
    rw [hindex, h.count, ofNat_inj (by omega) (by omega)]
  have hengine : (p.tick m i).engine = p.engine.validateStep p.response p.engine.noPulses := by
    rw [Player.tick]
    dsimp only
    rw [p.engine.tick_of_quiet hq, Engine.work, h.state]
  rw [Engine.validateStep, h.valid, decide_eq_true hj, if_pos rfl, hdata] at hengine
  by_cases hpass : Passes (events.take (j - 1)).getLast? (j = events.length) e
  · obtain ⟨hlegal, hsafe⟩ := (passes_iff hj hle he h.legal).mp hpass
    rw [validateResponse_passes _ h.remembers (by rw [hlast]; exact hpass)] at hengine
    -- the last event ends the pass, and the memory is asked for the first one again
    by_cases hjn : j = events.length
    · rw [if_pos (by rw [hlast]; exact hjn)] at hengine
      rw [if_neg (by omega)] at hreq
      rw [hreq, Option.isSome_none, if_neg Bool.false_ne_true] at hengine
      have hresp : (p.tick m i).response = { p.response with valid := false } := by
        rw [Player.tick, hreq]
        rfl
      refine .inr (.inl ⟨hjn, ⟨hmin, hmax, ?_, hsafe hjn⟩, ?_⟩)
      · rw [hjn, List.take_length] at hlegal
        exact hlegal
      · exact {
          state := by rw [hengine]
          count := by rw [hengine]; exact h.count
          le := Nat.zero_le _
          request := by rw [hengine]; rfl
          index := by rw [hengine]; rfl
          current := fun _ h0 => by omega
          currentValid := fun h0 => by omega
          valid := by rw [hresp]; rfl
          data := fun _ h0 => absurd h0 (Nat.lt_irrefl 0)
          pulse := by rw [hengine]; exact h.pulse }
    · rw [if_neg (by rw [hlast]; exact hjn)] at hengine
      rw [if_pos (by omega)] at hreq
      rw [hreq, Option.isSome_some, if_pos rfl] at hengine
      have hresp : (p.tick m i).response = ⟨true, m.event (BitVec.ofNat 7 j)⟩ := by
        rw [Player.tick, hreq]
        rfl
      refine .inl ⟨by omega, ?_⟩
      -- this event is the one that the next is compared with
      have hprev : (events.take j).getLast? = some e := by
        rw [getLast?_take hle, if_neg (by omega), he]
      exact {
        state := by rw [hengine]; exact h.state
        count := by rw [hengine]; exact h.count
        le := by omega
        request := by rw [hengine]; dsimp only; rw [h.request, ofNat_add_one]
        index := by rw [hengine]; exact hindex
        remembers := by
          rw [Nat.add_sub_cancel, hprev, hengine]
          exact {
            index := by
              dsimp only
              rw [hindex, show (0 : BitVec 8) = BitVec.ofNat 8 0 from rfl,
                ofNat_inj (by omega) (by omega)]
              exact iff_of_false (by omega) (by simp)
            timestamp := by rintro q ⟨⟩; rfl
            state := rfl
            legal := hpass.1.reserved }
        legal := by rw [Nat.add_sub_cancel]; exact hlegal
        valid := by rw [hresp]; exact (decide_eq_true (by omega)).symm
        data := fun e' _ he' => by rw [hresp]; exact hm j e' he'
        pulse := by rw [hengine]; exact h.pulse }
  · refine .inr (.inr ⟨fun hprog => hpass ?_, ?_⟩)
    · rw [passes_iff hj hle he h.legal]
      refine ⟨?_, fun _ => hprog.safe⟩
      have hlegal := hprog.legal
      rw [← List.take_append_drop j events, legal_append] at hlegal
      exact hlegal.1
    · rw [hengine]
      exact validateResponse_faults _ h.remembers (by rw [hlast]; exact hpass)

/-- Only a reset leaves FAULT. -/
theorem fault_stays (h : p.engine.state = .fault) {count : ℕ} (hq : Quiet count p.engine i) :
    (p.tick m i).engine.state = .fault := by
  rw [Player.tick]
  dsimp only
  rw [p.engine.tick_of_quiet hq, Engine.work, h]
  exact h

end

/-! ## The result of the pass -/

section

variable {m : Memory} {events : List Event} {inputs : ℕ → EngineIn} {p : Player}

/-- The pass after `j` events were requested, when it has not found a fault. -/
theorem validating_after (hm : Holds m events) (hidle : p.engine.state = .idle)
    (hq : ∀ t, Quiet events.length (p.after m inputs t).engine (inputs t))
    (harm : (inputs 0).arm = true) (hmin : 2 ≤ events.length) (hmax : events.length ≤ 128)
    {j : ℕ} (hj : j ≤ events.length) :
    Validating events j (p.after m inputs (j + 1)) ∨
      (¬Program events ∧ (p.after m inputs (j + 1)).engine.state = .fault) := by
  induction j with
  | zero => exact .inl (validating_of_arm hidle (hq 0) harm hmin hmax)
  | succ j ih =>
    rcases ih (by omega) with h | ⟨hno, hfault⟩
    · by_cases h0 : j = 0
      · subst h0
        exact .inl (validating_first h hm (hq 1) hmin hmax)
      · rcases validating_step h hm (hq (j + 1)) hmin hmax (Nat.pos_of_ne_zero h0) with
          ⟨-, hnext⟩ | ⟨heq, -, -⟩ | hfault
        · exact .inl hnext
        · omega
        · exact .inr hfault
    · exact .inr ⟨hno, fault_stays hfault (hq (j + 1))⟩

/-- Every table of a legal length goes through the pass: a program to PREFETCH, any other
to FAULT. -/
theorem validate_result (hm : Holds m events) (hidle : p.engine.state = .idle)
    (hq : ∀ t, Quiet events.length (p.after m inputs t).engine (inputs t))
    (harm : (inputs 0).arm = true) (hmin : 2 ≤ events.length) (hmax : events.length ≤ 128) :
    (Program events ∧ Prefetching events 0 (p.after m inputs (events.length + 2))) ∨
      (¬Program events ∧ (p.after m inputs (events.length + 2)).engine.state = .fault) := by
  rcases validating_after hm hidle hq harm hmin hmax le_rfl with h | ⟨hno, hfault⟩
  · rcases validating_step h hm (hq _) hmin hmax (by omega) with ⟨hlt, -⟩ | ⟨-, hok⟩ | hfault
    · exact absurd hlt (Nat.lt_irrefl _)
    · exact .inl hok
    · exact .inr hfault
  · exact .inr ⟨hno, fault_stays hfault (hq _)⟩

theorem fault_after {t : ℕ} (hfault : (p.after m inputs t).engine.state = .fault)
    (hq : ∀ t, Quiet events.length (p.after m inputs t).engine (inputs t)) (n : ℕ) :
    (p.after m inputs (t + n)).engine.state = .fault := by
  induction n with
  | zero => exact hfault
  | succ n ih => exact fault_stays ih (hq (t + n))

/-- ARM with a count out of range is a fault at once. -/
theorem fault_of_count (hidle : p.engine.state = .idle)
    (hq : ∀ t, Quiet events.length (p.after m inputs t).engine (inputs t))
    (harm : (inputs 0).arm = true) (hlen : events.length < 256)
    (hbad : ¬(2 ≤ events.length ∧ events.length ≤ 128)) :
    (p.after m inputs 1).engine.state = .fault := by
  have hcount := ((hq 0).arm harm).2
  have hout : (inputs 0).eventCount < minEvents ∨ maxEventCount < (inputs 0).eventCount := by
    rw [hcount, minEvents, maxEventCount, show (2 : BitVec 8) = BitVec.ofNat 8 2 from rfl,
      show (128 : BitVec 8) = BitVec.ofNat 8 128 from rfl,
      ofNat_lt (by omega) (by omega), ofNat_lt (by omega) (by omega)]
    omega
  have hengine : (p.tick m (inputs 0)).engine = p.engine.work (inputs 0) p.response :=
    p.engine.tick_of_quiet (hq 0) _
  rw [Player.after, Player.after, hengine, Engine.work, hidle]
  dsimp only
  rw [Engine.idleStep, if_pos harm]
  simp only [Bool.or_eq_true, decide_eq_true_eq]
  rw [if_pos hout]
  rfl

/-- An engine that is armed with the count of a list passes exactly the programs. The list is in
the memory as far as it fits, and its count may not fit the register. -/
theorem passes_iff_program (hm : Holds m (events.take 128)) (hidle : p.engine.state = .idle)
    (hq : ∀ t, Quiet events.length (p.after m inputs t).engine (inputs t))
    (harm : (inputs 0).arm = true) :
    ((inputs 0).eventCount.toNat = events.length ∧
        ∃ t, (p.after m inputs t).engine.state = .prefetch) ↔ Program events := by
  have hcount : (inputs 0).eventCount.toNat = events.length ↔ events.length < 256 := by
    rw [((hq 0).arm harm).2, BitVec.toNat_ofNat]
    omega
  rw [hcount]
  by_cases hrange : 2 ≤ events.length ∧ events.length ≤ 128
  · obtain ⟨hmin, hmax⟩ := hrange
    rw [List.take_of_length_le hmax] at hm
    rcases validate_result hm hidle hq harm hmin hmax with ⟨hprog, hpre⟩ | ⟨hno, hfault⟩
    · exact iff_of_true ⟨by omega, _, hpre.state⟩ hprog
    · refine iff_of_false ?_ hno
      rintro ⟨-, t, ht⟩
      -- before the fault the engine is in the pass, and after it in FAULT
      rcases Nat.lt_or_ge t (events.length + 2) with hlt | hge
      · cases t with
        | zero => exact absurd (hidle.symm.trans ht) (by decide)
        | succ j =>
          rcases validating_after hm hidle hq harm hmin hmax (show j ≤ events.length by omega) with
            h | ⟨-, h⟩
          · exact absurd (h.state.symm.trans ht) (by decide)
          · exact absurd (h.symm.trans ht) (by decide)
      · have hstays := fault_after hfault hq (t - (events.length + 2))
        rw [Nat.add_sub_cancel' hge] at hstays
        exact absurd (hstays.symm.trans ht) (by decide)
  · refine iff_of_false ?_ fun hprog => hrange ⟨hprog.atLeast, hprog.atMost⟩
    rintro ⟨hlen, t, ht⟩
    have hfault := fault_of_count hidle hq harm hlen hrange
    cases t with
    | zero => exact absurd (hidle.symm.trans ht) (by decide)
    | succ t =>
      have hstays := fault_after hfault hq t
      rw [Nat.add_comm] at hstays
      exact absurd (hstays.symm.trans ht) (by decide)

end

end QCrate.Sequence
