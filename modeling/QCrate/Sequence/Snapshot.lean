import QCrate.Sequence.EventLock

/-!
# The status snapshot and the lock

The register block reads a snapshot of the engine's status, which takes four edges of `clk_ctrl_i`
to arrive. An end of a run needs as many to open the lock, and a soft reset needs the whole way of
a command, so a snapshot of a running engine is shown before the memory is free. This takes two
clocks that keep pace: 200 MHz on the stream side against 100 MHz on the other.

* `Held` — the memory stays locked, or a soft reset is on its way for longer than what is awaited.
* `Guarded` — what holds while a snapshot of the active engine is on its way, and `guarded_step`.
-/

namespace QCrate.Sequence

open QCrate.Lib

/-! ## What cannot have passed yet -/

/-- No flip of the toggle is in the stages that it reaches later than `n` edges from now on. -/
structure StagesQuiet (n : ℕ) (d : Toggle.Dest) : Prop where
  sync1 : n = 0 → d.sync1 = d.sync2
  sync2 : n ≤ 1 → d.sync2 = d.seen
  pulse : n ≤ 2 → d.pulse = false

theorem stagesQuiet_of_settled {toggle : Bool} {d : Toggle.Dest} (h : Toggle.Settled toggle d) :
    StagesQuiet 0 d := by
  subst h
  exact ⟨fun _ => rfl, fun _ => rfl, fun _ => rfl⟩

theorem StagesQuiet.edge {n : ℕ} {d : Toggle.Dest} (h : StagesQuiet n d) (toggle : Bool) :
    StagesQuiet (n + 1) (d.edge toggle) where
  sync1 := nofun
  sync2 hn := h.sync1 (by omega)
  pulse hn := by
    have hsync : d.sync2 = d.seen := h.sync2 (by omega)
    show (d.sync2 ^^ d.seen) = false
    rw [hsync, Bool.xor_self]

/-- The engine is idle or has stopped with a fault. -/
def Status.Rests (s : Status) : Prop := s.idle = true ∨ s.faulted = true

theorem Engine.rests_status {s : Engine} {timebase : BitVec 64} (h : s.active = false) :
    (s.status timebase).Rests := by
  unfold Status.Rests Engine.status
  unfold Engine.active at h
  cases hs : s.state <;> simp [hs] at h ⊢

namespace Core

variable {c : Core} {e : Edges} {phase q : Handshake.Phase} {waiting : Bool} {n : ℕ}

/-- A soft reset is on its way whose command is in flight for longer than a snapshot that has
passed `n` registers. -/
inductive Resetting (c : Core) (n : ℕ) : Handshake.Phase → Prop where
  | line (phase : Handshake.Phase) (h : c.ctrl.regs.softResetCmd = true) : Resetting c n phase
  | rise (m : ℕ) (h : c.ctrl.command.data.softReset = true) : Resetting c n (.rise m)
  | fall (m : ℕ) (h : c.ctrl.command.data.softReset = true) (hone : 1 ≤ n) (hm : m ≤ n + 3) :
      Resetting c n (.fall m)

/-- The memory is locked and nothing is to unlock it but an end, or a soft reset is on its way. -/
def Held (c : Core) (n : ℕ) (phase : Handshake.Phase) : Prop :=
  c.ctrl.regs.memoryLocked = true ∧ c.ctrl.regs.unlockPending = false ∨ c.Resetting n phase

/-- While a snapshot of the active engine is on its way, `n` registers from its source, no end has
come through. -/
structure Lagging (c : Core) (n : ℕ) (phase : Handshake.Phase) : Prop where
  done : StagesQuiet n c.ctrl.done
  aborted : StagesQuiet n c.ctrl.aborted
  held : c.Held n phase

/-- The two handshakes are at these positions, and no snapshot of the active engine comes after the
lock has opened. The pulses are up for one edge of `clk_ctrl_i` at most: `waiting` says that it has
ticked since the last edge of `clk_stream_i`. -/
structure Guarded (c : Core) (waiting : Bool) (phase q : Handshake.Phase) : Prop where
  path : c.CommandPath phase
  pulses : c.stream.pulses.any = true →
    phase = .rise 4 ∧ waiting = false ∨ phase = .rise 5 ∧ waiting = true
  data : c.stream.pulses.softReset = true → c.ctrl.command.data.softReset = true
  status : Handshake.InPhase c.stream.status c.ctrl.status q
  lagging : ∀ n ≤ 3, q = .rise n → ¬c.stream.status.data.Rests → c.Lagging n phase

theorem guarded_reset (memory : Memory) : (reset memory).Guarded false .idle .idle where
  path := commandPath_reset memory
  pulses := fun h => absurd h Bool.false_ne_true
  data := fun h => absurd h Bool.false_ne_true
  status := Handshake.inPhase_reset _ _
  lagging := nofun

/-! ## The parts of a step -/

/-- The snapshot that an edge of `clk_stream_i` sends. -/
def sampleRequest (c : Core) : Option Status :=
  if c.stream.status.busy then none else some (c.engine.status c.stream.timebase)

theorem step_sourceStatus : (c.step e).stream.status =
    Handshake.stepSource c.stream.status c.ctrl.status
      (e.trigger.map fun _ => c.sampleRequest) := by
  unfold step
  cases e.trigger <;> rfl

theorem step_destStatus : (c.step e).ctrl.status =
    Handshake.stepDest c.stream.status c.ctrl.status (e.apb.map fun _ => true) := by
  unfold step
  cases e.apb <;> rfl

theorem step_done : (c.step e).ctrl.done =
    if e.apb.isSome then c.ctrl.done.edge c.stream.doneToggle else c.ctrl.done := by
  unfold step
  cases e.apb <;> rfl

theorem step_aborted : (c.step e).ctrl.aborted =
    if e.apb.isSome then c.ctrl.aborted.edge c.stream.abortedToggle else c.ctrl.aborted := by
  unfold step
  cases e.apb <;> rfl

theorem step_shown : (c.step e).ctrl.shown =
    if e.apb.isSome && c.ctrl.status.valid then c.ctrl.status.data else c.ctrl.shown := by
  unfold step
  cases e.apb <;> rfl

/-- The data of the handshake stay while it is under way. -/
theorem data_of_ne_idle (h : c.CommandPath phase) (hne : phase ≠ .idle) :
    (c.step e).ctrl.command.data = c.ctrl.command.data := by
  have hdown : c.ctrl.regs.command.any = false := by
    by_contra hup
    exact hne (h.lines (by simpa using hup)).1
  rw [step_data h, hdown, Bool.and_false, if_neg Bool.false_ne_true]

/-! ## The command -/

theorem pulses_step (h : c.Guarded waiting phase q)
    (hpace : e.apb.isSome = true → e.trigger = none → waiting = false)
    (hs : (c.step e).stream.pulses.any = true) :
    c.nextPhase e phase = .rise 4 ∧ (e.trigger.isNone && (e.apb.isSome || waiting)) = false ∨
      c.nextPhase e phase = .rise 5 ∧ (e.trigger.isNone && (e.apb.isSome || waiting)) = true := by
  rw [step_pulses] at hs
  cases ht : e.trigger with
  | some trigger =>
    left
    rw [ht, Option.isSome_some, if_pos rfl, nextPulses_eq h.path] at hs
    split at hs
    · next h3 =>
      subst h3
      exact ⟨by simp [nextPhase, ht, Handshake.Phase.next], rfl⟩
    · cases hs
  | none =>
    rw [ht, Option.isSome_none, if_neg Bool.false_ne_true] at hs
    cases ha : e.apb with
    | none =>
      -- no clock ticks
      rcases h.pulses hs with ⟨rfl, rfl⟩ | ⟨rfl, rfl⟩
      · exact .inl ⟨by simp [nextPhase, ha, Handshake.Phase.next], rfl⟩
      · exact .inr ⟨by simp [nextPhase, ha, Handshake.Phase.next], rfl⟩
    | some a =>
      have hnot : waiting = false := hpace (by rw [ha]; rfl) ht
      rcases h.pulses hs with ⟨rfl, -⟩ | ⟨-, hw⟩
      · exact .inr ⟨by simp [nextPhase, ha, Handshake.Phase.next], rfl⟩
      · rw [hnot] at hw
        cases hw

/-- What comes out of the command crossing is what the handshake still holds. -/
theorem pulses_data_step (h : c.Guarded waiting phase q)
    (hs : (c.step e).stream.pulses.softReset = true) :
    (c.step e).ctrl.command.data.softReset = true := by
  rw [step_pulses] at hs
  split at hs
  · rw [nextPulses_eq h.path] at hs
    split at hs
    · next h3 =>
      rw [data_of_ne_idle h.path (by rw [h3]; nofun)]
      exact hs
    · cases hs
  · have hne : phase ≠ .idle := by
      rintro rfl
      rcases h.pulses (softReset_any _ hs) with ⟨hp, -⟩ | ⟨hp, -⟩ <;> cases hp
    rw [data_of_ne_idle h.path hne]
    exact h.data hs

/-- A soft reset whose line is up sets out, or stays where it is. -/
theorem resetting_of_line (h : c.CommandPath phase) (hline : c.ctrl.regs.softResetCmd = true)
    (n : ℕ) : (c.step e).Resetting n (c.nextPhase e phase) := by
  have hany : c.ctrl.regs.command.any = true := softReset_any _ hline
  obtain ⟨rfl, -⟩ := h.lines hany
  cases ha : e.apb with
  | none =>
    refine .line _ ?_
    rw [step_regs, ha]
    exact hline
  | some a =>
    have hnext : c.nextPhase e .idle = .rise 0 := by
      simp [nextPhase, commandRequest_eq h, hany, ha, Handshake.Phase.next]
    rw [hnext]
    refine .rise 0 ?_
    rw [step_data h, ha, hany]
    exact hline

/-- A soft reset that the engine has not taken outlasts what sets out now. -/
theorem resetting_of_onWay (h : c.Guarded waiting phase q)
    (hway : c.commandOnWay (·.softReset) = true) :
    (c.step e).Resetting n (c.nextPhase e phase) := by
  have hrise : ∀ m ≤ 5, phase = .rise m → c.ctrl.command.data.softReset = true →
      (c.step e).Resetting n (c.nextPhase e phase) := by
    rintro m hm rfl hdata
    rw [← data_of_ne_idle (e := e) h.path nofun] at hdata
    obtain ⟨k, hk⟩ : ∃ k, c.nextPhase e (.rise m) = .rise k := by
      simp only [nextPhase, Handshake.Phase.next]
      repeat' split
      all_goals first | exact ⟨_, rfl⟩ | omega
    rw [hk]
    exact .rise k hdata
  simp only [commandOnWay, carried, Bool.or_eq_true] at hway
  rcases hway with hline | hdata | hpulse
  · exact resetting_of_line h.path hline n
  · rw [h.path.inPhase.undelivered_eq, Bool.and_eq_true] at hdata
    obtain ⟨hundelivered, hdata⟩ := hdata
    cases hp : phase with
    | idle | fall m =>
      rw [hp] at hundelivered
      cases hundelivered
    | rise m =>
      rw [hp] at hundelivered
      have hm : m ≤ 3 := of_decide_eq_true hundelivered
      exact hp ▸ hrise m (by omega) hp hdata
  · rcases h.pulses (softReset_any _ hpulse) with ⟨hp, -⟩ | ⟨hp, -⟩
    · exact hrise 4 (by decide) hp (h.data hpulse)
    · exact hrise 5 (by decide) hp (h.data hpulse)

/-- An edge of `clk_ctrl_i` brings both the snapshot and the end of the command closer. -/
theorem Resetting.step (h : c.CommandPath phase) (hr : c.Resetting n phase) {n' : ℕ}
    (hle : n ≤ n') (hedge : e.apb.isSome = true → n' = n + 1) (hn' : n' ≤ 3) :
    (c.step e).Resetting n' (c.nextPhase e phase) := by
  cases hr with
  | line _ hline => exact resetting_of_line h hline _
  | rise m hdata =>
    rw [← data_of_ne_idle (e := e) h (by simp)] at hdata
    simp only [nextPhase, Handshake.Phase.next]
    split
    · split <;> exact .rise _ hdata
    · split
      · split <;> exact .rise _ hdata
      · split
      -- the sender has seen the acknowledgement
        · next ha =>
          split
          · exact .fall 0 hdata (by have := hedge ha; omega) (Nat.zero_le _)
          · exact .rise _ hdata
        · exact .rise _ hdata
  | fall m hdata hone hm =>
    rw [← data_of_ne_idle (e := e) h (by simp)] at hdata
    simp only [nextPhase, Handshake.Phase.next]
    split
    · split <;> exact .fall _ hdata (by omega) (by omega)
    · split
      · next ha =>
        have hnext := hedge ha
        split
        · omega
        · exact .fall _ hdata (by omega) (by omega)
      · exact .fall _ hdata (by omega) (by omega)

/-! ## The lock -/

/-- Without an end the memory stays locked, unless a soft reset comes up. -/
theorem line_or_locked (hquiet : e.apb.isSome = true →
      c.ctrl.done.pulse = false ∧ c.ctrl.aborted.pulse = false)
    (hlocked : c.ctrl.regs.memoryLocked = true) (hpending : c.ctrl.regs.unlockPending = false) :
    (c.step e).ctrl.regs.memoryLocked = true ∧ (c.step e).ctrl.regs.unlockPending = false ∨
      (c.step e).ctrl.regs.softResetCmd = true := by
  cases ha : e.apb with
  | none =>
    left
    rw [step_regs, ha]
    exact ⟨hlocked, hpending⟩
  | some a =>
    obtain ⟨hdone, haborted⟩ := hquiet (by rw [ha]; rfl)
    have hunlocks : c.ctrl.regs.unlocks (c.regsIn a) = false := by
      simp [Regs.unlocks, regsIn, hdone, haborted, hpending]
    by_cases hline : (c.step e).ctrl.regs.softResetCmd = true
    · exact .inr hline
    · left
      rw [step_regs, ha] at hline ⊢
      simp only at hline ⊢
      rw [Regs.memoryLocked_edge, Regs.unlockPending_edge, hlocked, hpending, hunlocks]
      exact ⟨by simp, by simpa using hline⟩

theorem Held.step (h : c.CommandPath phase) (hheld : c.Held n phase)
    (hquiet : e.apb.isSome = true → c.ctrl.done.pulse = false ∧ c.ctrl.aborted.pulse = false)
    {n' : ℕ} (hedge : n' = if e.apb.isSome then n + 1 else n) (hn' : n' ≤ 3) :
    (c.step e).Held n' (c.nextPhase e phase) := by
  rcases hheld with ⟨hlocked, hpending⟩ | hr
  · exact (line_or_locked hquiet hlocked hpending).imp_right (.line _)
  · refine .inr (hr.step h ?_ (fun ha => by rw [hedge, if_pos ha]) hn')
    rw [hedge]
    split <;> omega

/-! ## The snapshot -/

/-- The position of the snapshot after a step. -/
def nextStatusPhase (c : Core) (e : Edges) (q : Handshake.Phase) : Handshake.Phase :=
  q.next (e.trigger.map fun _ => c.sampleRequest).isSome
    ((e.trigger.map fun _ => c.sampleRequest).any (·.isSome)) (e.apb.map fun _ => true)

/-- A snapshot of the active engine sets out. -/
theorem lagging_of_active (h : c.Guarded waiting phase q) (hl : c.Locked)
    (hactive : c.engine.active = true) :
    (c.step e).Lagging 0 (c.nextPhase e phase) := by
  have hnoEnd : c.endOnWay = false := by
    by_contra hend
    rw [hl.ended (by simpa using hend)] at hactive
    cases hactive
  simp only [endOnWay, Bool.or_eq_false_iff, Bool.not_eq_false', decide_eq_true_eq] at hnoEnd
  obtain ⟨⟨-, hdone⟩, haborted⟩ := hnoEnd
  refine ⟨?_, ?_, ?_⟩
  · rw [step_done]
    split
    · exact stagesQuiet_of_settled (Toggle.settled_edge hdone)
    · exact stagesQuiet_of_settled hdone
  · rw [step_aborted]
    split
    · exact stagesQuiet_of_settled (Toggle.settled_edge haborted)
    · exact stagesQuiet_of_settled haborted
  · by_cases hway : c.commandOnWay (·.softReset) = true
    · exact .inr (resetting_of_onWay h hway)
    · have hlocked : c.ctrl.regs.memoryLocked = true := by
        refine (hl.locked (.inl hactive)).resolve_right fun hcarried => hway ?_
        simp only [commandOnWay, Bool.or_eq_true]
        exact .inr hcarried
      have hpending : c.ctrl.regs.unlockPending = false := by
        by_contra hp
        exact hway (hl.unlocking (by simpa using hp) hactive)
      exact (line_or_locked (fun _ => ⟨hdone.pulse, haborted.pulse⟩) hlocked hpending).imp_right
        (.line _)

/-- A snapshot that goes on. -/
theorem Lagging.step (h : c.CommandPath phase) (hlag : c.Lagging n phase) {n' : ℕ} (hn' : n' ≤ 3)
    (hedge : n' = if e.apb.isSome then n + 1 else n) :
    (c.step e).Lagging n' (c.nextPhase e phase) := by
  have hdone : StagesQuiet n' (c.step e).ctrl.done := by
    rw [step_done]
    split
    · next ha =>
      rw [if_pos ha] at hedge
      exact hedge ▸ hlag.done.edge _
    · next ha =>
      rw [if_neg ha] at hedge
      exact hedge ▸ hlag.done
  have haborted : StagesQuiet n' (c.step e).ctrl.aborted := by
    rw [step_aborted]
    split
    · next ha =>
      rw [if_pos ha] at hedge
      exact hedge ▸ hlag.aborted.edge _
    · next ha =>
      rw [if_neg ha] at hedge
      exact hedge ▸ hlag.aborted
  refine ⟨hdone, haborted, hlag.held.step h (fun ha => ?_) hedge hn'⟩
  rw [if_pos ha] at hedge
  exact ⟨hlag.done.pulse (by omega), hlag.aborted.pulse (by omega)⟩

/-- What is on its way after a step was so before, or has just set out. -/
theorem lagging_step (h : c.Guarded waiting phase q) (hl : c.Locked) {n' : ℕ} (hn' : n' ≤ 3)
    (hq : c.nextStatusPhase e q = .rise n') (hrests : ¬(c.step e).stream.status.data.Rests) :
    (c.step e).Lagging n' (c.nextPhase e phase) := by
  rw [step_sourceStatus] at hrests
  unfold nextStatusPhase at hq
  cases q with
  | idle =>
    cases ht : e.trigger with
    | none =>
      rw [ht] at hq
      cases hq
    | some trigger =>
      have hsample : c.sampleRequest = some (c.engine.status c.stream.timebase) := by
        rw [sampleRequest, h.status.busy_eq]
        rfl
      rw [ht, Option.map_some, hsample] at hq hrests
      cases hq
      rw [Handshake.stepSource_data_of_idle h.status] at hrests
      have hactive : c.engine.active = true := by
        by_contra hno
        exact hrests (Engine.rests_status (by simpa using hno))
      exact lagging_of_active h hl hactive
  | rise n =>
    rw [Handshake.stepSource_data_of_ne h.status nofun] at hrests
    obtain ⟨hn, hedge⟩ := Handshake.Phase.rise_of_next hq (by cases e.apb <;> nofun) hn'
    rw [Option.isSome_map] at hedge
    exact (h.lagging n hn rfl hrests).step h.path hn' hedge
  | fall n =>
    simp only [Handshake.Phase.next] at hq
    repeat' split at hq
    all_goals cases hq

/-- One step of both clocks. -/
theorem guarded_step (h : c.Guarded waiting phase q) (hl : c.Locked)
    (hpace : e.apb.isSome = true → e.trigger = none → waiting = false) :
    (c.step e).Guarded (e.trigger.isNone && (e.apb.isSome || waiting)) (c.nextPhase e phase)
      (c.nextStatusPhase e q) where
  path := commandPath_step h.path
  pulses := pulses_step h hpace
  data := pulses_data_step h
  status := by
    rw [step_sourceStatus, step_destStatus]
    exact Handshake.inPhase_step h.status _ _
  lagging _ hn' hq hrests := lagging_step h hl hn' hq hrests

end Core

end QCrate.Sequence
