import QCrate.Sequence.Validation

/-!
# Playing a program

The engine keeps the event that plays next in one buffer and the one after it in a second buffer
or still on the memory port. An event that is due makes room, and the request made on the same edge
brings the next event just in time, also when events are one tick apart.

* `Running` — tick `k` of a run, with event `a` to play next.
* `running_step` — one tick plays what is due, and ends the run with the last event.
* `playback` — a run from ARM to the last event, for any inputs that do not disturb it.
-/

namespace QCrate.Sequence

/-! ## From the pass to the start -/

/-- The first two events are buffered and nothing is on its way. -/
structure Ready (events : List Event) (p : Player) : Prop where
  state : p.engine.state = .armed
  count : p.engine.eventCount = BitVec.ofNat 8 events.length
  fetch : p.engine.fetchIndex = 2
  active : p.engine.activeEventIndex = 0
  current : ∀ e, events[0]? = some e → p.engine.currentEvent = e.entry
  currentValid : p.engine.currentEventValid = true
  next : ∀ e, events[1]? = some e → p.engine.nextEvent = e.entry
  nextValid : p.engine.nextEventValid = true
  response : p.response.valid = false
  pulse : p.engine.pulse = 0

/-- Tick `k` of a run. Event `a` plays next, and the event after it is in the second buffer or on
the memory port. -/
structure Running (events : List Event) (k a : ℕ) (p : Player) : Prop where
  state : p.engine.state = .run
  count : p.engine.eventCount = BitVec.ofNat 8 events.length
  elapsed : p.engine.elapsedTick = BitVec.ofNat 64 k
  lt : a < events.length
  active : p.engine.activeEventIndex = BitVec.ofNat 7 a
  current : ∀ e, events[a]? = some e → p.engine.currentEvent = e.entry
  currentValid : p.engine.currentEventValid = true
  notLate : ∀ e, events[a]? = some e → k ≤ e.timestamp.toNat
  played : ∀ i e, events[i]? = some e → i < a → e.timestamp.toNat < k
  fetch : a + 1 < events.length → p.engine.fetchIndex = BitVec.ofNat 8 (a + 2)
  buffered : a + 1 < events.length → p.response.valid = !p.engine.nextEventValid
  noMore : a + 1 = events.length → p.response.valid = false
  next : ∀ e, p.engine.nextEventValid = true → events[a + 1]? = some e →
    p.engine.nextEvent = e.entry
  data : ∀ e, p.response.valid = true → events[a + 1]? = some e → p.response.data = e
  pulse : p.engine.pulse = outputsAfter events a

/-- The engine after the last event. -/
structure Finished (p : Player) : Prop where
  state : p.engine.state = .idle
  pulse : p.engine.pulse = 0

section

variable {m : Memory} {events : List Event} {i : EngineIn} {p : Player} {j k a : ℕ}

theorem tick_engine {count : ℕ} (hq : Quiet count p.engine i) :
    (p.tick m i).engine = p.engine.work i p.response :=
  p.engine.tick_of_quiet hq _

theorem Prefetching.request_eq (h : Prefetching events j p) :
    p.engine.request = if j < 2 then some (BitVec.ofNat 7 j) else none := by
  have hle := h.le
  unfold Engine.request
  rw [h.state]
  dsimp only
  rw [h.request]
  simp only [minEvents, show (2 : BitVec 8) = BitVec.ofNat 8 2 from rfl,
    ofNat_lt (show j < 2 ^ 8 by omega) (show 2 < 2 ^ 8 by omega), setWidth_ofNat]

/-- One edge of the prefetch. -/
theorem prefetching_step (h : Prefetching events j p) (hm : Holds m events)
    (hq : Quiet events.length p.engine i) :
    (j < 2 ∧ Prefetching events (j + 1) (p.tick m i)) ∨ (j = 2 ∧ Ready events (p.tick m i)) := by
  have hle := h.le
  have hreq := h.request_eq
  have hengine : (p.tick m i).engine = p.engine.prefetchStep p.response p.engine.noPulses := by
    rw [tick_engine hq, Engine.work, h.state]
  have hresp : (p.tick m i).response = p.response.tick m p.engine.request := rfl
  rw [Engine.prefetchStep, h.valid] at hengine
  -- the three edges of the prefetch
  rcases (show j = 0 ∨ j = 1 ∨ j = 2 by omega) with rfl | rfl | rfl
  · refine .inl ⟨by omega, ?_⟩
    rw [if_pos (by omega)] at hreq
    rw [hreq] at hengine hresp
    exact {
      state := by rw [hengine]; exact h.state
      count := by rw [hengine]; exact h.count
      le := by omega
      request := by rw [hengine]; exact congrArg (· + 1) h.request
      index := by rw [hengine]; exact h.index
      current := fun _ h2 => by omega
      currentValid := fun h2 => by omega
      valid := by rw [hresp]; rfl
      data := fun e _ he => by rw [hresp]; exact hm 0 e he
      pulse := by rw [hengine]; exact h.pulse }
  · refine .inl ⟨by omega, ?_⟩
    have hindex : p.engine.prefetchRspIndex = 0 := h.index
    rw [if_pos (by omega)] at hreq
    rw [hreq] at hengine hresp
    rw [hindex] at hengine
    exact {
      state := by rw [hengine]; exact h.state
      count := by rw [hengine]; exact h.count
      le := by omega
      request := by rw [hengine]; exact congrArg (· + 1) h.request
      index := by rw [hengine]; rfl
      current := fun e _ he => by
        rw [hengine, ← h.data e (by omega) he]
        rfl
      currentValid := fun _ => by rw [hengine]; rfl
      valid := by rw [hresp]; rfl
      data := fun e _ he => by rw [hresp]; exact hm 1 e he
      pulse := by rw [hengine]; exact h.pulse }
  · refine .inr ⟨rfl, ?_⟩
    have hindex : p.engine.prefetchRspIndex = 1 := h.index
    rw [if_neg (by omega)] at hreq
    rw [hreq] at hengine hresp
    rw [hindex] at hengine
    exact {
      state := by rw [hengine]; rfl
      count := by rw [hengine]; exact h.count
      fetch := by rw [hengine]; rfl
      active := by rw [hengine]; rfl
      current := fun e he => by rw [hengine]; exact h.current e rfl he
      currentValid := by rw [hengine]; exact h.currentValid rfl
      next := fun e he => by
        rw [hengine, ← h.data e (by omega) he]
        rfl
      nextValid := by rw [hengine]; rfl
      response := by rw [hresp]; rfl
      pulse := by rw [hengine]; exact h.pulse }

/-- The start command, or the external trigger when it is enabled. -/
def starts (i : EngineIn) : Bool := i.start || (i.externalTriggerEnable && i.externalTrigger)

theorem ready_step (h : Ready events p) (hq : Quiet events.length p.engine i)
    (hmin : 2 ≤ events.length) :
    if starts i then Running events 0 0 (p.tick m i) else Ready events (p.tick m i) := by
  have hengine : (p.tick m i).engine =
      if starts i then
        { p.engine.noPulses with
          startTime := i.timebase, elapsedTick := 0, shotStartPulse := true, state := .run }
      else p.engine.noPulses := by
    rw [tick_engine hq, Engine.work, h.state]
    rfl
  -- nothing is asked of the memory while the engine waits for the trigger
  have hresp : (p.tick m i).response = { p.response with valid := false } := by
    rw [Player.tick]
    dsimp only
    unfold Engine.request
    rw [h.state]
    rfl
  by_cases hs : starts i = true
  · rw [if_pos hs]
    rw [if_pos hs] at hengine
    exact {
      state := by rw [hengine]
      count := by rw [hengine]; exact h.count
      elapsed := by rw [hengine]; rfl
      lt := by omega
      active := by rw [hengine]; exact h.active
      current := by rw [hengine]; exact h.current
      currentValid := by rw [hengine]; exact h.currentValid
      notLate := fun _ _ => Nat.zero_le _
      played := fun _ _ _ h0 => by omega
      fetch := fun _ => by rw [hengine]; exact h.fetch
      buffered := fun _ => by
        rw [hengine, hresp]
        dsimp only [Engine.noPulses]
        rw [h.nextValid]
        rfl
      noMore := fun h1 => by omega
      next := fun e _ he => by rw [hengine]; exact h.next e he
      data := fun e hv => by
        rw [hresp] at hv
        cases hv
      pulse := by rw [hengine]; exact h.pulse }
  · rw [if_neg hs]
    rw [if_neg hs] at hengine
    exact {
      state := by rw [hengine]; exact h.state
      count := by rw [hengine]; exact h.count
      fetch := by rw [hengine]; exact h.fetch
      active := by rw [hengine]; exact h.active
      current := by rw [hengine]; exact h.current
      currentValid := by rw [hengine]; exact h.currentValid
      next := by rw [hengine]; exact h.next
      nextValid := by rw [hengine]; exact h.nextValid
      response := by rw [hresp]
      pulse := by rw [hengine]; exact h.pulse }

/-! ## One tick of a run -/

theorem Running.exists_current (h : Running events k a p) : ∃ e, events[a]? = some e :=
  ⟨_, List.getElem?_eq_getElem h.lt⟩

theorem Running.currentDue_eq (h : Running events k a p) {e : Event} (he : events[a]? = some e) :
    p.engine.currentDue = decide (k = e.timestamp.toNat) := by
  have hle := h.notLate e he
  have hlt := e.timestamp.isLt
  have hiff : e.timestamp = BitVec.ofNat 64 k ↔ k = e.timestamp.toNat := by
    rw [← BitVec.toNat_inj, BitVec.toNat_ofNat, Nat.mod_eq_of_lt (by omega)]
    exact eq_comm
  rw [Engine.currentDue, h.currentValid, h.current e he, h.elapsed, Bool.true_and]
  exact decide_eq_decide.mpr hiff

theorem Running.not_late (h : Running events k a p) {e : Event} (he : events[a]? = some e) :
    ¬p.engine.currentEvent.timestamp < p.engine.elapsedTick := by
  have hle := h.notLate e he
  have hlt := e.timestamp.isLt
  rw [h.current e he, h.elapsed, BitVec.lt_def, BitVec.toNat_ofNat, Nat.mod_eq_of_lt (by omega)]
  exact Nat.not_lt.mpr hle

theorem Running.number_eq (h : Running events k a p) (hmax : events.length ≤ 128) :
    p.engine.activeEventNumberNext = BitVec.ofNat 8 (a + 1) := by
  have hlt := h.lt
  rw [Engine.activeEventNumberNext, h.active, ← ofNat_add_one]
  congr 1
  apply BitVec.eq_of_toNat_eq
  simp only [BitVec.toNat_setWidth, BitVec.toNat_ofNat]
  omega

/-- A run requests an event only on the edge that makes room for it. -/
theorem Running.request_eq (h : Running events k a p) (hmax : events.length ≤ 128) {e : Event}
    (he : events[a]? = some e) :
    p.engine.request =
      if k = e.timestamp.toNat ∧ a + 2 < events.length then some (BitVec.ofNat 7 (a + 2))
      else none := by
  have hlt := h.lt
  unfold Engine.request
  rw [h.state]
  dsimp only
  rw [h.currentDue_eq he, h.number_eq hmax, h.count]
  simp only [Bool.and_eq_true, decide_eq_true_eq,
    ofNat_lt (show a + 1 < 2 ^ 8 by omega) (show events.length < 2 ^ 8 by omega)]
  by_cases hmore : a + 1 < events.length
  · rw [h.fetch hmore]
    by_cases hlast : a + 2 < 2 ^ 8
    · simp only [ofNat_lt hlast (show events.length < 2 ^ 8 by omega), setWidth_ofNat, hmore,
        and_true]
    · omega
  · rw [if_neg (fun hc => hmore hc.1.2), if_neg (fun hc => hmore (by omega))]

/-- A response meets an empty second buffer. -/
theorem Running.next_empty (h : Running events k a p) (hv : p.response.valid = true) :
    p.engine.nextEventValid = false := by
  have hlt := h.lt
  by_cases hmore : a + 1 < events.length
  · rw [h.buffered hmore] at hv
    simpa using hv
  · rw [h.noMore (by omega)] at hv
    cases hv

/-- An edge on which nothing is due fills the second buffer. -/
theorem Running.engine_wait (h : Running events k a p) (hq : Quiet events.length p.engine i)
    (hmax : events.length ≤ 128) {e : Event} (he : events[a]? = some e)
    (hk : k < e.timestamp.toNat) :
    (p.tick m i).engine =
      { (if p.response.valid then
          { p.engine.noPulses with nextEvent := p.response.data.entry, nextEventValid := true }
        else p.engine.noPulses) with elapsedTick := p.engine.elapsedTick + 1 } := by
  have hdue : p.engine.currentDue = false := by
    rw [h.currentDue_eq he, decide_eq_false (by omega)]
  have hreq := h.request_eq hmax he
  rw [if_neg (by omega)] at hreq
  rw [tick_engine hq, Engine.work, h.state]
  dsimp only
  rw [Engine.runStep, hdue, hreq]
  simp only [h.currentValid, Bool.true_and, decide_eq_true_eq, if_neg (h.not_late he),
    Option.isSome_none, Bool.false_eq_true, if_false]
  cases hv : p.response.valid with
  | false => rfl
  | true =>
    rw [h.next_empty hv]
    rfl

/-- An edge on which event `a` is due. -/
theorem Running.engine_due (h : Running events k a p) (hq : Quiet events.length p.engine i)
    {e : Event} (he : events[a]? = some e) (hk : k = e.timestamp.toNat) :
    (p.tick m i).engine =
      { p.engine.playDue p.response
          (if p.engine.request.isSome then
            { p.engine.noPulses with fetchIndex := p.engine.fetchIndex + 1 }
          else p.engine.noPulses) with elapsedTick := p.engine.elapsedTick + 1 } := by
  have hdue : p.engine.currentDue = true := by
    rw [h.currentDue_eq he, decide_eq_true hk]
  rw [tick_engine hq, Engine.work, h.state]
  dsimp only
  rw [Engine.runStep, hdue]
  simp only [h.currentValid, Bool.true_and, decide_eq_true_eq, if_neg (h.not_late he)]
  rfl

/-- A tick before event `a` is due. -/
theorem running_wait (h : Running events k a p) (hq : Quiet events.length p.engine i)
    (hmax : events.length ≤ 128) {e : Event} (he : events[a]? = some e)
    (hk : k < e.timestamp.toNat) :
    Running events (k + 1) a (p.tick m i) ∧ (p.tick m i).engine.donePulse = false := by
  have hreq := h.request_eq hmax he
  rw [if_neg (by omega)] at hreq
  have hengine := h.engine_wait (m := m) hq hmax he hk
  have hresp : (p.tick m i).response = { p.response with valid := false } := by
    rw [Player.tick, hreq]
    rfl
  have hnext : (p.tick m i).engine.nextEventValid =
      (p.response.valid || p.engine.nextEventValid) := by
    rw [hengine]
    cases p.response.valid <;> rfl
  -- only the prefetched event and the tick change
  have hkeep : ∀ {α : Type} (f : Engine → α),
      (∀ n entry, f { n with nextEvent := entry, nextEventValid := true } = f n) →
      (∀ n elapsed, f { n with elapsedTick := elapsed } = f n) →
      f (p.tick m i).engine = f p.engine.noPulses := by
    intro α f hf hf'
    rw [hengine]
    dsimp only
    rw [hf']
    split
    · rw [hf]
    · rfl
  refine ⟨?_, hkeep (·.donePulse) (fun _ _ => rfl) (fun _ _ => rfl)⟩
  exact {
    state := (hkeep (·.state) (fun _ _ => rfl) (fun _ _ => rfl)).trans h.state
    count := (hkeep (·.eventCount) (fun _ _ => rfl) (fun _ _ => rfl)).trans h.count
    elapsed := by rw [hengine]; dsimp only; rw [h.elapsed, ofNat_add_one]
    lt := h.lt
    active := (hkeep (·.activeEventIndex) (fun _ _ => rfl) (fun _ _ => rfl)).trans h.active
    current := fun e' he' =>
      (hkeep (·.currentEvent) (fun _ _ => rfl) (fun _ _ => rfl)).trans (h.current e' he')
    currentValid :=
      (hkeep (·.currentEventValid) (fun _ _ => rfl) (fun _ _ => rfl)).trans h.currentValid
    notLate := fun e' he' => by
      rw [he] at he'
      cases he'
      exact hk
    played := fun q e' he' hq' => Nat.lt_succ_of_lt (h.played q e' he' hq')
    fetch := fun hmore =>
      (hkeep (·.fetchIndex) (fun _ _ => rfl) (fun _ _ => rfl)).trans (h.fetch hmore)
    buffered := fun hmore => by
      rw [hnext, hresp, h.buffered hmore, Bool.not_or_self]
      rfl
    noMore := fun _ => by rw [hresp]
    next := fun e' hv he' => by
      rw [hengine]
      by_cases hr : p.response.valid = true
      · rw [if_pos hr, h.data e' hr he']
      · rw [hnext, Bool.eq_false_iff.mpr hr, Bool.false_or] at hv
        rw [if_neg hr]
        exact h.next e' hv he'
    data := fun e' hv => by
      rw [hresp] at hv
      cases hv
    pulse := (hkeep (·.pulse) (fun _ _ => rfl) (fun _ _ => rfl)).trans h.pulse }

theorem outputsAfter_succ {e : Event} (he : events[a]? = some e) :
    outputsAfter events (a + 1) = e.outputs := by
  obtain ⟨hlt, -⟩ := List.getElem?_eq_some_iff.mp he
  rw [outputsAfter, getLast?_take (show a + 1 ≤ events.length from hlt),
    if_neg (Nat.add_one_ne_zero a), Nat.add_sub_cancel, he]

/-- The tick of an event that is not the last: the event after it has come in time. -/
theorem running_due (h : Running events k a p) (hm : Holds m events)
    (hq : Quiet events.length p.engine i) (hprog : Program events) {e : Event}
    (he : events[a]? = some e) (hk : k = e.timestamp.toNat) (hmore : a + 1 < events.length) :
    Running events (k + 1) (a + 1) (p.tick m i) ∧ (p.tick m i).engine.donePulse = false := by
  have hmax := hprog.atMost
  obtain ⟨e', he'⟩ : ∃ e', events[a + 1]? = some e' := ⟨_, List.getElem?_eq_getElem hmore⟩
  have hlater : e.timestamp.toNat < e'.timestamp.toNat :=
    BitVec.lt_def.mp (hprog.legal.timestamp_lt he he' (Nat.lt_succ_self a))
  have hreq := h.request_eq hmax he
  simp only [hk, true_and] at hreq
  have hnumber : ¬p.engine.activeEventNumberNext = p.engine.eventCount := by
    rw [h.number_eq hmax, h.count, ofNat_inj (by omega) (by omega)]
    omega
  have hresp : (p.tick m i).response = p.response.tick m p.engine.request := rfl
  -- the next event comes out of the second buffer or off the port
  have hengine : (p.tick m i).engine =
      { (if p.engine.request.isSome then
          { p.engine.noPulses with fetchIndex := p.engine.fetchIndex + 1 }
        else p.engine.noPulses) with
        pulse := e.outputs, currentEvent := e'.entry, currentEventValid := true
        activeEventIndex := p.engine.activeEventIndex + 1, nextEventValid := false
        elapsedTick := p.engine.elapsedTick + 1 } := by
    rw [h.engine_due hq he hk, Engine.playDue, h.current e he]
    dsimp only
    rw [if_neg hnumber]
    have hbuf := h.buffered hmore
    cases hv : p.engine.nextEventValid with
    | true =>
      rw [hv] at hbuf
      rw [if_pos rfl, hbuf, if_neg (by decide), h.next e' hv he']
      cases p.engine.request with
      | none => simp only [Option.isSome_none, Bool.false_eq_true, if_false, Engine.noPulses,
          h.currentValid, Event.entry]
      | some address => simp only [Option.isSome_some, if_true, Engine.noPulses, h.currentValid,
          Event.entry]
    | false =>
      rw [hv] at hbuf
      rw [if_neg (by decide), hbuf, Bool.not_false, if_pos rfl, h.data e' hbuf he']
      cases p.engine.request with
      | none => simp only [Option.isSome_none, Bool.false_eq_true, if_false, Engine.noPulses, hv,
          Event.entry]
      | some address => simp only [Option.isSome_some, if_true, Engine.noPulses, hv, Event.entry]
  have hkeep : ∀ {α : Type} (f : Engine → α),
      (∀ n index, f { n with fetchIndex := index } = f n) →
      f (if p.engine.request.isSome then
        { p.engine.noPulses with fetchIndex := p.engine.fetchIndex + 1 }
      else p.engine.noPulses) = f p.engine.noPulses := by
    intro α f hf
    split
    · rw [hf]
    · rfl
  refine ⟨?_, by rw [hengine]; exact hkeep (·.donePulse) fun _ _ => rfl⟩
  exact {
    state := by
      rw [hengine]
      exact (hkeep (·.state) fun _ _ => rfl).trans h.state
    count := by
      rw [hengine]
      exact (hkeep (·.eventCount) fun _ _ => rfl).trans h.count
    elapsed := by rw [hengine]; dsimp only; rw [h.elapsed, ofNat_add_one]
    lt := hmore
    active := by rw [hengine]; dsimp only; rw [h.active, ofNat_add_one]
    current := fun e'' he'' => by
      rw [he'] at he''
      cases he''
      rw [hengine]
    currentValid := by rw [hengine]
    notLate := fun e'' he'' => by
      rw [he'] at he''
      cases he''
      omega
    played := fun q e'' he'' hq' => by
      rcases Nat.lt_succ_iff_lt_or_eq.mp hq' with hlt | rfl
      · exact Nat.lt_succ_of_lt (h.played q e'' he'' hlt)
      · rw [he] at he''
        cases he''
        omega
    fetch := fun hlast => by
      rw [hengine, hreq, if_pos hlast]
      dsimp only
      rw [Option.isSome_some, if_pos rfl, h.fetch hmore, ofNat_add_one]
    buffered := fun hlast => by
      rw [hengine, hresp, hreq, if_pos hlast]
      rfl
    noMore := fun hlast => by
      rw [hresp, hreq, if_neg (by omega)]
      rfl
    next := fun e'' hv => by
      rw [hengine] at hv
      cases hv
    data := fun e'' hv he'' => by
      obtain ⟨hlast, -⟩ := List.getElem?_eq_some_iff.mp he''
      rw [hresp, hreq, if_pos hlast]
      exact hm (a + 2) e'' he''
    pulse := by rw [hengine, outputsAfter_succ he] }

/-- The tick of the last event. -/
theorem running_last (h : Running events k a p) (hq : Quiet events.length p.engine i)
    (hprog : Program events) {e : Event} (he : events[a]? = some e)
    (hk : k = e.timestamp.toNat) (hlast : a + 1 = events.length) :
    Finished (p.tick m i) ∧ (p.tick m i).engine.donePulse = true ∧
      outputsAfter events (a + 1) = 0 := by
  have hmax := hprog.atMost
  have hnumber : p.engine.activeEventNumberNext = p.engine.eventCount := by
    rw [h.number_eq hmax, h.count, hlast]
  have hsafe : e.outputs = 0 := by
    have hs := hprog.safe
    rw [List.getLast?_eq_getElem?, ← hlast, Nat.add_sub_cancel, he] at hs
    rw [Event.outputs, show e.state = 0 from hs]
    rfl
  have hengine := h.engine_due (m := m) hq he hk
  rw [Engine.playDue, h.current e he] at hengine
  dsimp only at hengine
  rw [if_pos hnumber] at hengine
  refine ⟨⟨by rw [hengine], ?_⟩, by rw [hengine], ?_⟩
  · rw [hengine]
    exact hsafe
  · rw [outputsAfter_succ he, hsafe]

/-- During tick `k` the first `a` events were already due, and no other is. -/
theorem Running.pulse_eq_play (h : Running events (k + 1) a p) (hprog : Program events) :
    p.engine.pulse = play events k := by
  obtain ⟨e, he⟩ := h.exists_current
  have hle := h.notLate e he
  rw [h.pulse, play_eq]
  · intro q e' he' hqa
    exact Nat.lt_succ_iff.mp (h.played q e' he' hqa)
  · intro q e' he' haq
    rcases Nat.eq_or_lt_of_le haq with rfl | hlt
    · rw [he] at he'
      cases he'
      omega
    · have := BitVec.lt_def.mp (hprog.legal.timestamp_lt he he' hlt)
      omega

theorem lastTick_eq {e : Event} (he : events[a]? = some e) (hlast : a + 1 = events.length) :
    lastTick events = e.timestamp.toNat := by
  rw [lastTick, List.getLast?_eq_getElem?, ← hlast, Nat.add_sub_cancel, he]

/-- An event that is not the last one is due before the last tick. -/
theorem lt_lastTick (hprog : Program events) {e : Event} (he : events[a]? = some e)
    (hmore : a + 1 < events.length) : e.timestamp.toNat < lastTick events := by
  obtain ⟨e', he'⟩ : ∃ e', events[events.length - 1]? = some e' :=
    ⟨_, List.getElem?_eq_getElem (by omega)⟩
  rw [lastTick_eq he' (by omega)]
  exact BitVec.lt_def.mp (hprog.legal.timestamp_lt he he' (by omega))

/-- One tick of a run: it drives what `play` says, and it is the last one at the last event. -/
theorem running_step (h : Running events k a p) (hm : Holds m events)
    (hq : Quiet events.length p.engine i) (hprog : Program events) :
    (p.tick m i).engine.pulse = play events k ∧
      ((k < lastTick events ∧ (p.tick m i).engine.donePulse = false ∧
          ∃ a', Running events (k + 1) a' (p.tick m i)) ∨
        (k = lastTick events ∧ (p.tick m i).engine.donePulse = true ∧ Finished (p.tick m i))) := by
  obtain ⟨e, he⟩ := h.exists_current
  have hlt := h.lt
  rcases Nat.eq_or_lt_of_le (h.notLate e he) with hk | hk
  · by_cases hmore : a + 1 < events.length
    · obtain ⟨hrun, hdone⟩ := running_due h hm hq hprog he hk hmore
      have hlast := lt_lastTick hprog he hmore
      exact ⟨hrun.pulse_eq_play hprog, .inl ⟨by omega, hdone, a + 1, hrun⟩⟩
    · obtain ⟨hfin, hdone, hout⟩ := running_last (m := m) h hq hprog he hk (by omega)
      have hlast := lastTick_eq he (by omega)
      refine ⟨?_, .inr ⟨hk.trans hlast.symm, hdone, hfin⟩⟩
      rw [hfin.pulse, ← hout, play_eq]
      · intro q e' he' hqa
        rcases Nat.lt_succ_iff_lt_or_eq.mp hqa with hlt' | rfl
        · exact (h.played q e' he' hlt').le
        · rw [he] at he'
          cases he'
          exact hk.ge
      · intro q e' he' haq
        obtain ⟨hq', -⟩ := List.getElem?_eq_some_iff.mp he'
        omega
  · obtain ⟨hrun, hdone⟩ := running_wait (m := m) h hq hprog.atMost he hk
    refine ⟨hrun.pulse_eq_play hprog, .inl ⟨?_, hdone, a, hrun⟩⟩
    by_cases hmore : a + 1 < events.length
    · exact hk.trans (lt_lastTick hprog he hmore)
    · rwa [lastTick_eq he (by omega)]

/-! ## Every state of an engine at work -/

/-- Where an engine that plays a program can be. -/
inductive Phase (events : List Event) (p : Player) : Prop where
  | idle (h : Finished p)
  | validating (j : ℕ) (h : Validating events j p)
  | prefetching (j : ℕ) (h : Prefetching events j p)
  | ready (h : Ready events p)
  | running (k a : ℕ) (h : Running events k a p)

theorem Phase.state_ne_fault (h : Phase events p) : p.engine.state ≠ .fault := by
  cases h with
  | idle h => rw [h.state]; decide
  | validating j h => rw [h.state]; decide
  | prefetching j h => rw [h.state]; decide
  | ready h => rw [h.state]; decide
  | running k a h => rw [h.state]; decide

/-- Outside RUN both outputs are low. -/
theorem Phase.pulse_low (h : Phase events p) (hs : p.engine.state ≠ .run) :
    p.engine.pulse = 0 := by
  cases h with
  | idle h => exact h.pulse
  | validating j h => exact h.pulse
  | prefetching j h => exact h.pulse
  | ready h => exact h.pulse
  | running k a h => exact absurd h.state hs

/-- One edge leads from phase to phase, and signals DONE only on the last tick of a run. -/
theorem phase_step (h : Phase events p) (hm : Holds m events)
    (hq : Quiet events.length p.engine i) (hprog : Program events) :
    Phase events (p.tick m i) ∧
      ((p.tick m i).engine.donePulse = true →
        p.engine.state = .run ∧ p.engine.elapsedTick = BitVec.ofNat 64 (lastTick events)) := by
  have hquiet : p.engine.state ≠ .run → (p.tick m i).engine.donePulse = false := by
    intro hs
    rw [tick_engine hq]
    exact (Bool.or_eq_false_iff.mp (Engine.ends_work hs)).1
  have hsilent : p.engine.state ≠ .run → (p.tick m i).engine.donePulse = true →
      p.engine.state = .run ∧ p.engine.elapsedTick = BitVec.ofNat 64 (lastTick events) := by
    intro hne hdone
    rw [hquiet hne] at hdone
    cases hdone
  cases h with
  | idle h =>
    refine ⟨?_, hsilent (by rw [h.state]; decide)⟩
    by_cases harm : i.arm = true
    · exact .validating 0 (validating_of_arm h.state hq harm hprog.atLeast hprog.atMost)
    · have hengine : (p.tick m i).engine = p.engine.noPulses := by
        rw [tick_engine hq, Engine.work, h.state]
        dsimp only
        rw [Engine.idleStep, if_neg harm]
      exact .idle ⟨by rw [hengine]; exact h.state, by rw [hengine]; exact h.pulse⟩
  | validating j h =>
    refine ⟨?_, hsilent (by rw [h.state]; decide)⟩
    by_cases h0 : j = 0
    · subst h0
      exact .validating 1 (validating_first h hm hq hprog.atLeast hprog.atMost)
    · rcases validating_step h hm hq hprog.atLeast hprog.atMost (Nat.pos_of_ne_zero h0) with
        ⟨-, hnext⟩ | ⟨-, -, hnext⟩ | ⟨hno, -⟩
      · exact .validating _ hnext
      · exact .prefetching _ hnext
      · exact absurd hprog hno
  | prefetching j h =>
    refine ⟨?_, hsilent (by rw [h.state]; decide)⟩
    rcases prefetching_step h hm hq with ⟨-, hnext⟩ | ⟨-, hnext⟩
    · exact .prefetching _ hnext
    · exact .ready hnext
  | ready h =>
    refine ⟨?_, hsilent (by rw [h.state]; decide)⟩
    have hnext := ready_step (m := m) h hq hprog.atLeast
    split at hnext
    · exact .running _ _ hnext
    · exact .ready hnext
  | running k a h =>
    rcases (running_step h hm hq hprog).2 with ⟨-, hdone, a', hnext⟩ | ⟨hk, -, hnext⟩
    · refine ⟨.running _ _ hnext, fun hd => ?_⟩
      rw [hdone] at hd
      cases hd
    · exact ⟨.idle hnext, fun _ => ⟨h.state, hk ▸ h.elapsed⟩⟩

end

/-! ## From ARM to the last event -/

section

variable {m : Memory} {events : List Event} {inputs : ℕ → EngineIn} {p : Player}

theorem phase_after (hm : Holds m events) (hprog : Program events) (hidle : p.engine.state = .idle)
    (hq : ∀ t, Quiet events.length (p.after m inputs t).engine (inputs t))
    (harm : (inputs 0).arm = true) (t : ℕ) : Phase events (p.after m inputs (t + 1)) := by
  induction t with
  | zero => exact .validating 0 (validating_of_arm hidle (hq 0) harm hprog.atLeast hprog.atMost)
  | succ t ih => exact (phase_step ih hm (hq _) hprog).1

/-- The program passes, and three edges later it is ready. -/
theorem ready_after (hm : Holds m events) (hprog : Program events) (hidle : p.engine.state = .idle)
    (hq : ∀ t, Quiet events.length (p.after m inputs t).engine (inputs t))
    (harm : (inputs 0).arm = true) : Ready events (p.after m inputs (events.length + 5)) := by
  rcases validate_result hm hidle hq harm hprog.atLeast hprog.atMost with ⟨-, h₀⟩ | ⟨hno, -⟩
  · rcases prefetching_step h₀ hm (hq _) with ⟨-, h₁⟩ | ⟨h, -⟩
    · rcases prefetching_step h₁ hm (hq (events.length + 3)) with ⟨-, h₂⟩ | ⟨h, -⟩
      · rcases prefetching_step h₂ hm (hq (events.length + 4)) with ⟨h, -⟩ | ⟨-, h₃⟩
        · omega
        · exact h₃
      · omega
    · omega
  · exact absurd hprog hno

/-- Tick `k` of the run that is started on edge `t`. -/
theorem running_after (hm : Holds m events) (hprog : Program events)
    (hq : ∀ t, Quiet events.length (p.after m inputs t).engine (inputs t)) {t : ℕ}
    (hready : Ready events (p.after m inputs t)) (hstart : starts (inputs t) = true) {k : ℕ}
    (hk : k ≤ lastTick events) : ∃ a, Running events k a (p.after m inputs (t + 1 + k)) := by
  induction k with
  | zero =>
    have hnext := ready_step (m := m) hready (hq t) hprog.atLeast
    rw [if_pos hstart] at hnext
    exact ⟨0, hnext⟩
  | succ k ih =>
    obtain ⟨a, hrun⟩ := ih (by omega)
    rcases (running_step hrun hm (hq _) hprog).2 with ⟨-, -, hnext⟩ | ⟨heq, -⟩
    · exact hnext
    · omega

/-- A program that is armed from idle passes, and whenever it is started then, tick `k` drives the
outputs of the last event due at `k`. The run ends with DONE on the tick of the last event and
nowhere else, FAULT is never entered, and the outputs are low outside RUN. -/
theorem playback (hm : Holds m events) (hprog : Program events) (hidle : p.engine.state = .idle)
    (hq : ∀ t, Quiet events.length (p.after m inputs t).engine (inputs t))
    (harm : (inputs 0).arm = true) :
    (p.after m inputs (events.length + 5)).engine.state = .armed ∧
      (∀ t, (p.after m inputs (t + 1)).engine.state ≠ .fault ∧
        ((p.after m inputs (t + 1)).engine.state ≠ .run →
          (p.after m inputs (t + 1)).engine.pulse = 0)) ∧
      (∀ t, (p.after m inputs t).engine.state = .armed → starts (inputs t) = true →
        (∀ k ≤ lastTick events,
          (p.after m inputs (t + 1 + k)).engine.state = .run ∧
          (p.after m inputs (t + 1 + k)).engine.elapsedTick = BitVec.ofNat 64 k ∧
          (p.after m inputs (t + 1 + k + 1)).engine.pulse = play events k ∧
          ((p.after m inputs (t + 1 + k + 1)).engine.donePulse = true ↔ k = lastTick events)) ∧
        (p.after m inputs (t + 1 + lastTick events + 1)).engine.state = .idle) ∧
      ∀ t, (p.after m inputs (t + 2)).engine.donePulse = true →
        (p.after m inputs (t + 1)).engine.state = .run ∧
          (p.after m inputs (t + 1)).engine.elapsedTick = BitVec.ofNat 64 (lastTick events) := by
  have hphase := phase_after hm hprog hidle hq harm
  refine ⟨(ready_after hm hprog hidle hq harm).state, ?_, ?_, ?_⟩
  · intro t
    exact ⟨(hphase t).state_ne_fault, (hphase t).pulse_low⟩
  · intro t harmed hstart
    have hready : Ready events (p.after m inputs t) := by
      cases t with
      | zero => exact absurd (hidle.symm.trans harmed) (by decide)
      | succ t =>
        cases hphase t with
        | idle h => exact absurd (h.state.symm.trans harmed) (by decide)
        | validating j h => exact absurd (h.state.symm.trans harmed) (by decide)
        | prefetching j h => exact absurd (h.state.symm.trans harmed) (by decide)
        | ready h => exact h
        | running k a h => exact absurd (h.state.symm.trans harmed) (by decide)
    constructor
    · intro k hk
      obtain ⟨a, hrun⟩ := running_after hm hprog hq hready hstart hk
      obtain ⟨hpulse, hnext⟩ := running_step hrun hm (hq _) hprog
      refine ⟨hrun.state, hrun.elapsed, hpulse, ?_⟩
      rcases hnext with ⟨hlt, hdone, -⟩ | ⟨heq, hdone, -⟩
      · exact iff_of_false (fun hd => absurd (hdone.symm.trans hd) Bool.false_ne_true) hlt.ne
      · exact iff_of_true hdone heq
    · obtain ⟨a, hrun⟩ := running_after hm hprog hq hready hstart le_rfl
      rcases (running_step hrun hm (hq _) hprog).2 with ⟨hlt, -⟩ | ⟨-, -, hfin⟩
      · exact absurd hlt (Nat.lt_irrefl _)
      · exact hfin.state
  · intro t
    exact (phase_step (hphase t) hm (hq (t + 1)) hprog).2

end

/-! ## A pulse of one tick -/

/-- Output 0 rises on tick 0 and falls on tick 1. -/
def onePulse : List Event := [⟨0, 1, 0⟩, ⟨1, 0, 0⟩]

/-- The words of `onePulse`; the rest of the memory is zero. -/
def onePulseMemory : Memory := fun address => if address = 2 ∨ address = 4 then 1 else 0

/-- ARM on the first edge and START on edge 7. -/
def armAndStart (t : ℕ) : EngineIn :=
  { rstN := true, arm := t = 0, start := t = 7, abort := false, softReset := false
    externalTriggerEnable := false, externalTrigger := false, eventCount := 2, timebase := 0 }

theorem onePulse_program : Program onePulse where
  atLeast := by decide
  atMost := by decide
  legal := ⟨⟨by decide, rfl, by decide, nofun⟩, ⟨by decide, rfl, by decide, by
    rintro q ⟨⟩
    decide⟩, trivial⟩
  safe := rfl

theorem onePulse_holds : Holds onePulseMemory onePulse := by
  intro i e he
  match i, he with
  | 0, he => cases he; decide
  | 1, he => cases he; decide

theorem armAndStart_quiet (t : ℕ) :
    Quiet onePulse.length (resetPlayer.after onePulseMemory armAndStart t).engine
      (armAndStart t) where
  rstN := rfl
  softReset := rfl
  abort := rfl
  arm := fun h => by
    obtain rfl : t = 0 := of_decide_eq_true h
    exact ⟨rfl, rfl⟩
  start := fun h => by
    obtain rfl : t = 7 := of_decide_eq_true h
    decide +kernel

/-- The pulse is high after tick 0, and the run is over after tick 1. -/
theorem playback_onePulse :
    (resetPlayer.after onePulseMemory armAndStart 9).engine.pulse = 1 ∧
      (resetPlayer.after onePulseMemory armAndStart 10).engine.state = .idle := by
  obtain ⟨-, -, hrun, -⟩ := playback onePulse_holds onePulse_program (p := resetPlayer) rfl
    armAndStart_quiet rfl
  obtain ⟨hticks, hend⟩ := hrun 7 (by decide +kernel) rfl
  exact ⟨(hticks 0 (Nat.zero_le _)).2.2.1, hend⟩

end QCrate.Sequence
