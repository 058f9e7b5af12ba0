import QCrate.Sequence.EventLock
import QCrate.Sequence.Playback

/-!
# Outputs under any commands

An engine may be given any command on any edge: it may be armed twice, started before it is ready,
aborted or reset in the middle of a run, or triggered from outside. As long as nobody writes the
event memory while the engine uses it, it plays programs that have passed and nothing else, its
outputs are low whenever it does not, and its memory never answers too late or too early.

* `Situation` — where an engine can be, and `situation_step`.
* `PlaysSafely` — what one step of the core shows.
* `plays_safely` — every run of the core that keeps ARM and the older ends apart.
-/

namespace QCrate.Sequence

open QCrate.Lib

/-! ## What a command can do -/

namespace Engine

variable {s : Engine} {i : EngineIn} {r : Response}

/-- At rest, with the outputs low. -/
structure Rests (s : Engine) : Prop where
  state : s.state = .idle
  pulse : s.pulse = 0

/-- In FAULT, with the outputs low, for a reason other than the timing of the memory. -/
structure Faulted (s : Engine) : Prop where
  state : s.state = .fault
  pulse : s.pulse = 0
  underflow : s.faultCode ≠ Fault.memoryUnderflow
  protocol : s.faultCode ≠ Fault.memoryProtocol

theorem faulted_enterFault (n : Engine) {code : BitVec 8} (index : BitVec 7)
    (h : code ≠ Fault.memoryUnderflow) (h' : code ≠ Fault.memoryProtocol) :
    (n.enterFault code index).Faulted := ⟨rfl, rfl, h, h'⟩

/-- An edge that is not left to the state the engine is in. -/
theorem tick_cases (hidle : s.state ≠ .idle) (hfault : s.state ≠ .fault) (i : EngineIn)
    (r : Response) :
    (s.tick i r).Rests ∨ (s.tick i r).Faulted ∨ ∀ count, Quiet count s i := by
  unfold tick
  dsimp only
  split
  · exact .inl ⟨rfl, rfl⟩
  next hreset =>
  split
  · exact .inr (.inl (faulted_enterFault _ _ (by decide) (by decide)))
  next hlegal =>
  split
  · exact .inl ⟨rfl, rfl⟩
  next habort =>
  simp only [Bool.or_eq_true, not_or, Bool.not_eq_true', Bool.not_eq_true,
    Bool.not_eq_false] at hreset
  simp only [Bool.and_eq_true, Bool.or_eq_true, decide_eq_true_eq, not_and, not_or] at hlegal habort
  obtain ⟨harm, hstart⟩ := hlegal hfault
  refine .inr (.inr fun count => ⟨hreset.1, hreset.2, ?_, fun ha => absurd hidle (harm ha), ?_⟩)
  · cases hab : i.abort with
    | false => rfl
    | true => exact absurd hfault (habort ⟨hab, hidle⟩)
  · intro hs
    by_contra hne
    exact hstart hs hne

/-- An engine at rest does not look at ABORT, and leaves its rest for an ARM with a legal count. -/
theorem tick_of_rests (h : s.Rests) (i : EngineIn) (r : Response) :
    (s.tick i r).Rests ∨ (s.tick i r).Faulted ∨
      (i.arm = true ∧ 2 ≤ i.eventCount.toNat ∧ i.eventCount.toNat ≤ 128 ∧
        Quiet i.eventCount.toNat s { i with abort := false } ∧
        s.tick i r = s.tick { i with abort := false } r) := by
  have habort : s.tick i r = s.tick { i with abort := false } r := by
    unfold tick
    simp [h.state, work, idleStep]
  by_cases hreset : (!i.rstN || i.softReset) = true
  · left
    unfold tick
    rw [if_pos hreset]
    exact ⟨rfl, rfl⟩
  · simp only [Bool.or_eq_true, not_or, Bool.not_eq_true', Bool.not_eq_true,
      Bool.not_eq_false] at hreset
    by_cases hstart : i.start = true
    · right; left
      unfold tick
      rw [if_neg (by simp [hreset]), if_pos (by simp [h.state, hstart])]
      exact faulted_enterFault _ _ (by decide) (by decide)
    · have hquiet : Quiet i.eventCount.toNat s { i with abort := false } :=
        ⟨hreset.1, hreset.2, rfl, fun _ => ⟨h.state, by simp⟩, fun hs => absurd hs hstart⟩
      have hwork : s.tick i r = idleStep { i with abort := false } s.noPulses := by
        rw [habort, tick_of_quiet hquiet, work, h.state]
      by_cases harm : i.arm = true
      · right
        by_cases hbad : (i.eventCount < minEvents || maxEventCount < i.eventCount) = true
        · left
          rw [hwork, idleStep, if_pos harm, if_pos hbad]
          exact faulted_enterFault _ _ (by decide) (by decide)
        · right
          simp only [Bool.or_eq_true, decide_eq_true_eq, not_or, BitVec.lt_def] at hbad
          exact ⟨harm, Nat.le_of_not_lt hbad.1, Nat.le_of_not_lt hbad.2, hquiet, habort⟩
      · left
        rw [hwork, idleStep, if_neg harm]
        exact ⟨h.state, h.pulse⟩

/-- FAULT is left by a reset alone. -/
theorem tick_of_fault (h : s.Faulted) (i : EngineIn) (r : Response) :
    (s.tick i r).Rests ∨ (s.tick i r).Faulted := by
  unfold tick
  dsimp only
  split
  · exact .inl ⟨rfl, rfl⟩
  rw [if_neg (by simp [h.state]), if_neg (by simp [h.state]), work, h.state]
  exact .inr ⟨h.state, rfl, h.underflow, h.protocol⟩

/-- A response that does not pass is no memory fault. -/
theorem validateResponse_cases {n : Engine} {e : Event} (hn : n.state ≠ .fault) :
    (s.validateResponse e n).Faulted ∨ (s.validateResponse e n).state ≠ .fault := by
  unfold validateResponse
  split
  · exact .inl (faulted_enterFault _ _ (by decide) (by decide))
  split
  · exact .inl (faulted_enterFault _ _ (by decide) (by decide))
  split
  · exact .inl (faulted_enterFault _ _ (by decide) (by decide))
  split
  · exact .inl (faulted_enterFault _ _ (by decide) (by decide))
  split
  · exact .inl (faulted_enterFault _ _ (by decide) (by decide))
  dsimp only
  split
  · exact .inr EngineState.noConfusion
  · exact .inr hn

theorem faulted_of_validate (h : s.state = .validate) (hf : (s.work i r).state = .fault) :
    (s.work i r).Faulted := by
  have hn : (if s.request.isSome then { s.noPulses with
      validateReqIndex := s.validateReqIndex + 1 } else s.noPulses).state ≠ .fault := by
    split <;> simp [noPulses, h]
  unfold work at hf ⊢
  rw [h] at hf ⊢
  dsimp only at hf ⊢
  unfold validateStep at hf ⊢
  dsimp only at hf ⊢
  generalize (if s.request.isSome then { s.noPulses with
    validateReqIndex := s.validateReqIndex + 1 } else s.noPulses) = n at hn hf ⊢
  cases hvalid : r.valid with
  | true =>
    rw [hvalid, if_pos rfl] at hf
    rw [if_pos rfl]
    exact (validateResponse_cases hn).resolve_right (not_not.mpr hf)
  | false =>
    rw [hvalid, if_neg Bool.false_ne_true] at hf
    exact absurd hf hn

end Engine

/-! ## Where an engine can be -/

/-- Where an engine can be when the memory it reads from is `m`. -/
inductive Situation (m : Memory) (p : Player) : Prop
  | rests (h : p.engine.Rests)
  | faulted (h : p.engine.Faulted)
  | validating (events : List Event) (j : ℕ) (holds : Holds m events) (atLeast : 2 ≤ events.length)
      (atMost : events.length ≤ 128) (h : Validating events j p)
  | prefetching (events : List Event) (j : ℕ) (holds : Holds m events) (program : Program events)
      (h : Prefetching events j p)
  | ready (events : List Event) (holds : Holds m events) (program : Program events)
      (h : Ready events p)
  | running (events : List Event) (k a : ℕ) (holds : Holds m events) (program : Program events)
      (h : Running events k a p)

variable {m m' : Memory} {p : Player} {i : EngineIn}

/-- The first events of a memory. -/
def Memory.firstEvents (m : Memory) (count : ℕ) : List Event :=
  (List.range count).map fun k => m.event (BitVec.ofNat 7 k)

theorem holds_firstEvents (m : Memory) (count : ℕ) : Holds m (m.firstEvents count) := by
  intro k e he
  unfold Memory.firstEvents at he
  rw [List.getElem?_map] at he
  obtain ⟨k', hk', rfl⟩ := Option.map_eq_some_iff.mp he
  obtain ⟨hlt, hk⟩ := List.getElem?_eq_some_iff.mp hk'
  rw [List.getElem_range] at hk
  rw [hk]

/-- An engine that is out of use does not mind what happens to the memory. -/
theorem Situation.of_inactive (h : Situation m p) (hp : p.engine.active = false) :
    Situation m' p := by
  unfold Engine.active at hp
  cases h with
  | rests h => exact .rests h
  | faulted h => exact .faulted h
  | validating events j _ _ _ h => simp [h.state] at hp
  | prefetching events j _ _ h => simp [h.state] at hp
  | ready events _ _ h => simp [h.state] at hp
  | running events k a _ _ h => simp [h.state] at hp

theorem length_firstEvents (m : Memory) (count : ℕ) : (m.firstEvents count).length = count := by
  unfold Memory.firstEvents
  rw [List.length_map, List.length_range]

/-- An engine at rest may be armed, and then it has read nothing yet. -/
theorem situation_of_rests (h : p.engine.Rests) (m m' : Memory) (i : EngineIn) :
    Situation m' (p.tick m i) := by
  rcases Engine.tick_of_rests h i p.response with hrests | hfaulted | ⟨harm, hmin, hmax, hq, habort⟩
  · exact .rests hrests
  · exact .faulted hfaulted
  · have htick : p.tick m i = p.tick m { i with abort := false } := by
      unfold Player.tick
      rw [habort]
    have hlength := length_firstEvents m' i.eventCount.toNat
    rw [htick]
    rw [← hlength] at hq hmin hmax
    exact .validating _ 0 (holds_firstEvents m' _) hmin hmax
      (validating_of_arm h.state hq harm hmin hmax)

/-- One edge, with any command. The memory may be written unless the engine uses it. -/
theorem situation_step (h : Situation m p) (i : EngineIn)
    (hm : p.engine.active = true → m' = m) : Situation m' (p.tick m i) := by
  -- an edge that stops the engine ends in rest or in FAULT, whatever it was doing
  have hrest : ∀ s, p.engine.state = s → s ≠ .idle → s ≠ .fault →
      (∀ count, Quiet count p.engine i) ∨ Situation m' (p.tick m i) := by
    rintro s rfl hidle hfault
    rcases Engine.tick_cases hidle hfault i p.response with hrests | hfaulted | hquiet
    · exact .inr (.rests hrests)
    · exact .inr (.faulted hfaulted)
    · exact .inl hquiet
  cases h with
  | rests h => exact situation_of_rests h m m' i
  | faulted h =>
    rcases Engine.tick_of_fault h i p.response with hrests | hfaulted
    · exact .rests hrests
    · exact .faulted hfaulted
  | validating events j holds hmin hmax h =>
    have hm' := hm (by simp [Engine.active, h.state])
    subst hm'
    rcases hrest _ h.state (by decide) (by decide) with hquiet | hdone
    -- the first edge of the pass only reads
    · by_cases hj : j = 0
      · subst hj
        exact .validating events 1 holds hmin hmax
          (validating_first h holds (hquiet _) hmin hmax)
      · rcases validating_step h holds (hquiet _) hmin hmax (Nat.pos_of_ne_zero hj) with
          ⟨-, hnext⟩ | ⟨-, hprogram, hnext⟩ | ⟨-, hfault⟩
        · exact .validating events _ holds hmin hmax hnext
        · exact .prefetching events 0 holds hprogram hnext
        · refine .faulted ?_
          rw [tick_engine (hquiet 0)] at hfault ⊢
          exact Engine.faulted_of_validate h.state hfault
    · exact hdone
  | prefetching events j holds hprogram h =>
    have hm' := hm (by simp [Engine.active, h.state])
    subst hm'
    rcases hrest _ h.state (by decide) (by decide) with hquiet | hdone
    · rcases prefetching_step h holds (hquiet _) with ⟨-, hnext⟩ | ⟨-, hnext⟩
      · exact .prefetching events _ holds hprogram hnext
      · exact .ready events holds hprogram hnext
    · exact hdone
  | ready events holds hprogram h =>
    have hm' := hm (by simp [Engine.active, h.state])
    subst hm'
    rcases hrest _ h.state (by decide) (by decide) with hquiet | hdone
    · have hnext := ready_step (m := m') h (hquiet _) hprogram.atLeast
      split at hnext
      · exact .running events _ _ holds hprogram hnext
      · exact .ready events holds hprogram hnext
    · exact hdone
  | running events k a holds hprogram h =>
    have hm' := hm (by simp [Engine.active, h.state])
    subst hm'
    rcases hrest _ h.state (by decide) (by decide) with hquiet | hdone
    · rcases (running_step h holds (hquiet _) hprogram).2 with ⟨-, -, a', hnext⟩ | ⟨-, -, hnext⟩
      · exact .running events _ _ holds hprogram hnext
      · exact .rests ⟨hnext.state, hnext.pulse⟩
    · exact hdone

/-! ## What can be seen of it -/

/-- What an engine shows that reads from `m`. -/
structure Shows (m : Memory) (s : Engine) : Prop where
  low : s.state ≠ .run → s.pulse = 0
  noMemoryFault : s.state = .fault →
    s.faultCode ≠ Fault.memoryUnderflow ∧ s.faultCode ≠ Fault.memoryProtocol
  armed : s.state = .armed → ∃ events, Program events ∧ Holds m events ∧
    s.eventCount = BitVec.ofNat 8 events.length
  plays : s.state = .run → ∃ events k, Program events ∧ Holds m events ∧
    s.eventCount = BitVec.ofNat 8 events.length ∧ s.elapsedTick = BitVec.ofNat 64 k ∧
    k ≤ lastTick events ∧ s.pulse = if k = 0 then 0 else play events (k - 1)

theorem Running.le_lastTick {events : List Event} {k a : ℕ} (h : Running events k a p)
    (hprogram : Program events) : k ≤ lastTick events := by
  obtain ⟨e, he⟩ := h.exists_current
  have hle := h.notLate e he
  have hlt := h.lt
  by_cases hmore : a + 1 < events.length
  · exact hle.trans (lt_lastTick hprogram he hmore).le
  · rw [lastTick_eq he (by omega)]
    exact hle

theorem Running.pulse_eq {events : List Event} {k a : ℕ} (h : Running events k a p)
    (hprogram : Program events) :
    p.engine.pulse = if k = 0 then 0 else play events (k - 1) := by
  cases k with
  | zero =>
    rw [if_pos rfl, h.pulse]
    cases a with
    | zero => rfl
    | succ a =>
      have hlt := h.lt
      have he : events[0]? = some events[0] := List.getElem?_eq_getElem (by omega)
      exact absurd (h.played 0 _ he (Nat.zero_lt_succ a)) (Nat.not_lt_zero _)
  | succ k =>
    rw [if_neg (Nat.succ_ne_zero k)]
    exact h.pulse_eq_play hprogram

theorem shows_of_low {s : Engine} (hpulse : s.pulse = 0) (hfault : s.state ≠ .fault)
    (harmed : s.state ≠ .armed) (hrun : s.state ≠ .run) : Shows m s where
  low := fun _ => hpulse
  noMemoryFault := fun h => absurd h hfault
  armed := fun h => absurd h harmed
  plays := fun h => absurd h hrun

theorem Situation.shows (h : Situation m p) : Shows m p.engine := by
  cases h with
  | rests h =>
    exact shows_of_low h.pulse (by rw [h.state]; decide) (by rw [h.state]; decide)
      (by rw [h.state]; decide)
  | faulted h =>
    exact ⟨fun _ => h.pulse, fun _ => ⟨h.underflow, h.protocol⟩,
      fun hs => absurd (h.state.symm.trans hs) (by decide),
      fun hs => absurd (h.state.symm.trans hs) (by decide)⟩
  | validating events j _ _ _ h =>
    exact shows_of_low h.pulse (by rw [h.state]; decide) (by rw [h.state]; decide)
      (by rw [h.state]; decide)
  | prefetching events j _ _ h =>
    exact shows_of_low h.pulse (by rw [h.state]; decide) (by rw [h.state]; decide)
      (by rw [h.state]; decide)
  | ready events holds hprogram h =>
    exact ⟨fun _ => h.pulse, fun hs => absurd (h.state.symm.trans hs) (by decide),
      fun _ => ⟨events, hprogram, holds, h.count⟩,
      fun hs => absurd (h.state.symm.trans hs) (by decide)⟩
  | running events k a holds hprogram h =>
    exact ⟨fun hs => absurd h.state hs, fun hs => absurd (h.state.symm.trans hs) (by decide),
      fun hs => absurd (h.state.symm.trans hs) (by decide),
      fun _ => ⟨events, k, hprogram, holds, h.count, h.elapsed, h.le_lastTick hprogram,
        h.pulse_eq hprogram⟩⟩

/-- A command that takes the engine out of RUN, or keeps it from it. -/
def Stops (s : Engine) (i : EngineIn) : Prop :=
  i.softReset = true ∨ i.abort = true ∨ (i.arm = true ∧ s.state ≠ .idle) ∨
    (i.start = true ∧ s.state ≠ .armed)

/-- DONE is reported on the last tick of a run that nothing disturbs. -/
theorem Engine.done_of_tick {s : Engine} {r : Response} (h : (s.tick i r).donePulse = true) :
    s.state = .run ∧ ∀ count, Quiet count s i := by
  have hrun : s.state = .run := by
    by_contra hne
    unfold tick at h
    dsimp only at h
    split at h
    · cases h
    split at h
    · cases h
    split at h
    · cases h
    · have hends := ends_work (i := i) (r := r) hne
      rw [Engine.ends, h] at hends
      cases hends
  refine ⟨hrun, ?_⟩
  have hquiet : ¬ (!i.rstN || i.softReset) = true ∧
      ¬ (s.state ≠ .fault && ((i.arm && s.state ≠ .idle) || (i.start && s.state ≠ .armed))) = true ∧
      ¬ (i.abort && s.state ≠ .idle && s.state ≠ .fault) = true := by
    unfold tick at h
    dsimp only at h
    split at h
    · cases h
    next hreset =>
    split at h
    · cases h
    next hlegal =>
    split at h
    · cases h
    next habort => exact ⟨hreset, hlegal, habort⟩
  obtain ⟨hreset, hlegal, habort⟩ := hquiet
  simp [hrun] at hreset hlegal habort
  intro count
  refine ⟨hreset.1, hreset.2, habort, fun ha => ?_, fun hs => ?_⟩
  · rw [hlegal.1] at ha
    cases ha
  · rw [hlegal.2] at hs
    cases hs

/-- No such command leaves the engine in RUN. -/
theorem Engine.not_run_of_stops {s : Engine} {i : EngineIn} (h : Stops s i) (r : Response) :
    (s.tick i r).state ≠ .run := by
  unfold tick
  dsimp only
  split
  · exact EngineState.noConfusion
  next hreset =>
  split
  · exact EngineState.noConfusion
  next hlegal =>
  split
  · exact EngineState.noConfusion
  next habort =>
  -- an engine that is neither at rest nor in FAULT has taken one of the branches before
  have hs : s.state = .idle ∨ s.state = .fault := by
    by_contra hne
    rw [not_or] at hne
    obtain ⟨hidle, hfault⟩ := hne
    simp only [Bool.or_eq_true, not_or, Bool.not_eq_true] at hreset
    simp only [Bool.and_eq_true, Bool.or_eq_true, decide_eq_true_eq, not_and, not_or]
      at hlegal habort
    obtain ⟨harm, hstart⟩ := hlegal hfault
    rcases h with hsoft | hab | ⟨ha, -⟩ | ⟨hst, hne⟩
    · rw [hreset.2] at hsoft
      cases hsoft
    · exact habort ⟨hab, hidle⟩ hfault
    · exact harm ha hidle
    · exact hstart hst hne
  rcases hs with hs | hs
  · rw [work, hs]
    dsimp only
    unfold idleStep
    split
    · split <;> exact EngineState.noConfusion
    · show s.state ≠ .run
      rw [hs]
      exact EngineState.noConfusion
  · rw [work, hs]
    show s.state ≠ .run
    rw [hs]
    exact EngineState.noConfusion

/-! ## The core -/

namespace Core

variable {c : Core} {e : Edges}

/-- A step of the core keeps the situation of its engine, unless a write reaches the memory the
engine uses. -/
theorem situation_step (h : Situation c.memory c.stream.player) (hexclusive : c.Exclusive e) :
    Situation (c.step e).memory (c.step e).stream.player := by
  have hmemory : c.engine.active = true → (c.step e).memory = c.memory := by
    intro hactive
    cases hwrite : e.apb.bind c.memoryWrite with
    | none =>
      unfold step
      rw [hwrite]
    | some write =>
      have hwrites : c.writesMemory e = true := by
        unfold writesMemory
        rw [hwrite]
        rfl
      rw [hexclusive hwrites] at hactive
      cases hactive
  cases htrigger : e.trigger with
  | none =>
    have hplayer : (c.step e).stream.player = c.stream.player := by
      unfold step
      rw [htrigger]
    rw [hplayer]
    cases hactive : c.engine.active with
    | false => exact h.of_inactive hactive
    | true =>
      rw [hmemory hactive]
      exact h
  | some trigger =>
    have hplayer : (c.step e).stream.player =
        c.stream.player.tick c.memory (c.engineIn trigger) := by
      unfold step
      rw [htrigger]
      rfl
    rw [hplayer]
    exact Sequence.situation_step h (c.engineIn trigger) hmemory

/-- What a step of the core shows. -/
structure PlaysSafely (c : Core) (e : Edges) (c' : Core) : Prop where
  shows : Shows c'.memory c'.engine
  stops : ∀ trigger, e.trigger = some trigger → Stops c.engine (c.engineIn trigger) →
    c'.engine.state ≠ .run ∧ c'.engine.pulse = 0
  done : ∀ trigger, e.trigger = some trigger → c'.engine.donePulse = true →
    c.engine.state = .run ∧ ∃ events, Program events ∧ Holds c.memory events ∧
      c.engine.eventCount = BitVec.ofNat 8 events.length ∧
      c.engine.elapsedTick = BitVec.ofNat 64 (lastTick events)

theorem playsSafely_step (h : Situation c.memory c.stream.player) (hexclusive : c.Exclusive e) :
    PlaysSafely c e (c.step e) := by
  have hshows := (situation_step h hexclusive).shows
  have hengine : ∀ trigger, e.trigger = some trigger →
      (c.step e).engine = c.engine.tick (c.engineIn trigger) c.stream.player.response := by
    intro trigger htrigger
    unfold engine step
    rw [htrigger]
    rfl
  refine ⟨hshows, fun trigger htrigger hstops => ?_, fun trigger htrigger hdone => ?_⟩
  · have hnot : (c.step e).engine.state ≠ .run := by
      rw [hengine trigger htrigger]
      exact Engine.not_run_of_stops hstops _
    exact ⟨hnot, hshows.low hnot⟩
  · rw [hengine trigger htrigger] at hdone
    obtain ⟨hrun, hquiet⟩ := Engine.done_of_tick hdone
    refine ⟨hrun, ?_⟩
    have hrun' : c.stream.player.engine.state = .run := hrun
    cases h with
    | rests h => exact absurd (h.state.symm.trans hrun') (by decide)
    | faulted h => exact absurd (h.state.symm.trans hrun') (by decide)
    | validating events j _ _ _ h => exact absurd (h.state.symm.trans hrun') (by decide)
    | prefetching events j _ _ h => exact absurd (h.state.symm.trans hrun') (by decide)
    | ready events _ _ h => exact absurd (h.state.symm.trans hrun') (by decide)
    | running events k a holds hprogram h =>
      refine ⟨events, hprogram, holds, h.count, ?_⟩
      rcases (running_step h holds (hquiet _) hprogram).2 with ⟨-, hno, -⟩ | ⟨hk, -, -⟩
      · exact absurd (hdone.symm.trans hno) (by decide)
      · rw [← hk]
        exact h.elapsed

/-- From reset on, whatever comes over the bus and whatever the trigger does: as long as no ARM is
on its way while an older end is, the outputs are low outside RUN, a run plays a program that is in
the memory, tick by tick, every command that stops it does so with its edge, DONE is reported on the
tick of the last event only, and no fault comes from the memory. -/
theorem plays_safely (memory : Memory) {l : List Edges}
    (h : machine.Meets (fun c _ _ => c.Apart) (reset memory) l) :
    machine.Meets PlaysSafely (reset memory) l := by
  have hreset : Situation (reset memory).memory (reset memory).stream.player :=
    .rests ⟨rfl, rfl⟩
  refine Machine.meets_of_invariant
    (I := fun c => Locked c ∧ Situation c.memory c.stream.player) ?_
    ⟨locked_reset memory, hreset⟩ h
  rintro c e c' ⟨hlocked, hsituation⟩ ⟨⟩ hapart
  have hexclusive : c.Exclusive e := exclusive_of_locked hlocked
  exact ⟨⟨locked_step hlocked hapart, situation_step hsituation hexclusive⟩,
    playsSafely_step hsituation hexclusive⟩

end Core

/-- A run that is written, armed, started and over before the next write. -/
theorem plays_safely_afterEnd :
    Core.machine.Meets Core.PlaysSafely (Core.reset fun _ => 0) writeAfterEnd :=
  Core.plays_safely _ (by decide +kernel)

end QCrate.Sequence
