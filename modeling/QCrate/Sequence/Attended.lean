import QCrate.Sequence.CorePage
import QCrate.Sequence.Loader

/-!
# The sequence page under its service

The R5 service is the only writer of the sequence page, and it writes ARM only after a read of
STATUS that found the page free. The end of the run before is over by then: an end needs four edges
of `clk_ctrl_i` to arrive, and what opens the memory without it is a soft reset, whose command is in
flight for longer. So the lock, the snapshots and the page behave for this service as its results
assume.

* `Stage` — how far an end is, and what keeps the page from being free meanwhile.
* `Alone` — ARM and older ends do not meet, and `alone_step`.
* `Attended.machine` — the core with clocks that keep pace and a service that looks before it arms.
* `Attended.page_evolves`, `Attended.access_evolves` — every step of every run, and all that happens
  from one access to the next.
* `Attended.exists_pl` — the runs of the core are among those the results about the service are of.
-/

namespace QCrate.Sequence

open QCrate.Lib QCrate.R5

/-! ## One flip on its way -/

/-- A flip of the toggle is at register `n` of its way, or there is none. -/
structure Passing (n : ℕ) (toggle : Bool) (d : Toggle.Dest) : Prop where
  sync1 : n ≠ 1 → d.sync1 = toggle
  sync2 : n ≠ 2 → d.sync2 = d.sync1
  seen : n ≠ 3 → d.seen = d.sync2
  pulse : n ≠ 4 → d.pulse = false

variable {toggle flip : Bool} {d : Toggle.Dest} {n : ℕ}

theorem passing_of_settled (h : Toggle.Settled toggle d) : Passing 1 (toggle ^^ flip) d := by
  subst h
  exact ⟨fun hn => absurd rfl hn, fun _ => rfl, fun _ => rfl, fun _ => rfl⟩

theorem Passing.edge (h : Passing n toggle d) : Passing (n + 1) toggle (d.edge toggle) where
  sync1 _ := rfl
  sync2 hne := h.sync1 (by omega)
  seen hne := h.sync2 (by omega)
  pulse hne := by
    show (d.sync2 ^^ d.seen) = false
    rw [h.seen (by omega), Bool.xor_self]

theorem Passing.settled (h : Passing 4 toggle d) : Toggle.Settled toggle (d.edge toggle) := by
  obtain ⟨sync1, sync2, seen, pulse⟩ := d
  have h1 : sync1 = toggle := h.sync1 (by decide)
  have h2 : sync2 = sync1 := h.sync2 (by decide)
  have h3 : seen = sync2 := h.seen (by decide)
  subst h3 h2 h1
  cases seen <;> rfl

theorem settled_edge_if (h : Toggle.Settled toggle d) (ticks : Bool) :
    Toggle.Settled toggle (if ticks = true then d.edge toggle else d) := by
  cases ticks
  · exact h
  · exact Toggle.settled_edge h

/-! ## Where an end comes from -/

/-- An end is reported by an engine that was active and takes no soft reset. -/
theorem Engine.active_of_ends {s : Engine} {i : EngineIn} {r : Response}
    (h : (s.tick i r).ends = true) : s.active = true ∧ i.softReset = false := by
  unfold tick at h
  split at h
  · cases h
  next hr =>
  simp only [Bool.or_eq_true, not_or, Bool.not_eq_true] at hr
  refine ⟨?_, hr.2⟩
  split at h
  · cases h
  split at h
  · next habort =>
    simp only [Bool.and_eq_true, decide_eq_true_eq] at habort
    cases hs : s.state <;> simp_all [active]
  · by_cases hs : s.state = .run
    · simp [active, hs]
    · rw [ends_work hs] at h
      cases h

namespace Core

variable {c : Core} {e : Edges} {phase q : Handshake.Phase} {waiting : Bool}

theorem step_doneToggle : (c.step e).stream.doneToggle =
    if e.trigger.isSome then c.stream.doneToggle ^^ c.engine.donePulse
    else c.stream.doneToggle := by
  unfold step
  cases e.trigger <;> rfl

theorem step_abortedToggle : (c.step e).stream.abortedToggle =
    if e.trigger.isSome then c.stream.abortedToggle ^^ c.engine.abortedPulse
    else c.stream.abortedToggle := by
  unfold step
  cases e.trigger <;> rfl

theorem endOnWay_eq_false_iff : c.endOnWay = false ↔ c.engine.ends = false ∧
    Toggle.Settled c.stream.doneToggle c.ctrl.done ∧
    Toggle.Settled c.stream.abortedToggle c.ctrl.aborted := by
  simp only [endOnWay, Bool.or_eq_false_iff, Bool.not_eq_false', decide_eq_true_eq, and_assoc]

theorem step_ends (ht : e.trigger = none) : (c.step e).engine.ends = c.engine.ends := by
  rw [step_engine, ht]

/-- An end comes from an engine that was active. -/
theorem active_of_ends_step (ht : e.trigger.isSome = true) (h : (c.step e).engine.ends = true) :
    c.engine.active = true ∧ c.stream.pulses.softReset = false := by
  obtain ⟨trigger, ht⟩ := Option.isSome_iff_exists.mp ht
  rw [step_engine, ht] at h
  exact Engine.active_of_ends h

theorem ends_of_inactive (h : c.engine.active = false) (hno : c.engine.ends = false) :
    (c.step e).engine.ends = false := by
  by_contra hends
  cases ht : e.trigger with
  | none =>
    rw [step_ends ht, hno] at hends
    exact hends rfl
  | some trigger =>
    have hactive := (active_of_ends_step (by rw [ht]; rfl) (by simpa using hends)).1
    exact absurd (h.symm.trans hactive) Bool.false_ne_true

/-- Without a flip both crossings stay as they are. -/
theorem settled_step (hno : c.engine.ends = false)
    (hdone : Toggle.Settled c.stream.doneToggle c.ctrl.done)
    (haborted : Toggle.Settled c.stream.abortedToggle c.ctrl.aborted) :
    Toggle.Settled (c.step e).stream.doneToggle (c.step e).ctrl.done ∧
      Toggle.Settled (c.step e).stream.abortedToggle (c.step e).ctrl.aborted := by
  simp only [Engine.ends, Bool.or_eq_false_iff] at hno
  rw [step_doneToggle, step_abortedToggle, step_done, step_aborted, hno.1, hno.2, Bool.xor_false,
    Bool.xor_false, ite_self, ite_self]
  exact ⟨settled_edge_if hdone _, settled_edge_if haborted _⟩

/-! ## What an ARM meets -/

/-- No command is in flight, and the memory is unlocked and nothing is left to unlock it. -/
structure Unused (c : Core) : Prop where
  memoryLocked : c.ctrl.regs.memoryLocked = false
  unlockPending : c.ctrl.regs.unlockPending = false
  commandBusy : c.page.commandBusy = false

theorem phase_of_commandBusy (h : c.CommandPath phase) (hb : c.page.commandBusy = false) :
    phase = .idle ∧ c.ctrl.regs.command.any = false := by
  obtain ⟨hdown, hbusy⟩ := Bool.or_eq_false_iff.mp hb
  rw [h.inPhase.busy_eq] at hbusy
  exact ⟨by simpa using hbusy, hdown⟩

theorem not_onWay_of_commandBusy {p : Command → Bool}
    (hp : ∀ k : Command, p k = true → k.any = true)
    (h : c.CommandPath phase) (hb : c.page.commandBusy = false) : c.commandOnWay p = false := by
  obtain ⟨hidle, hdown⟩ := phase_of_commandBusy h hb
  by_contra hway
  simp only [Bool.not_eq_false, commandOnWay, Bool.or_eq_true] at hway
  rcases hway with hline | hcarried
  · exact absurd (hdown.symm.trans (hp _ hline)) Bool.false_ne_true
  · exact ne_idle_of_carried hp h hcarried hidle

/-- The engine rests while the memory is unused. -/
theorem Unused.inactive (hu : c.Unused) (h : c.CommandPath phase) (hl : c.Locked) :
    c.engine.active = false := by
  by_contra hactive
  rcases hl.locked (.inl (by simpa using hactive)) with hlocked | hcarried
  · exact absurd (hu.memoryLocked.symm.trans hlocked) Bool.false_ne_true
  · exact ne_idle_of_carried softReset_any h hcarried (phase_of_commandBusy h hu.commandBusy).1

/-- A soft reset stays on its way until the engine takes it. -/
theorem softReset_step (h : c.CommandPath phase) (hway : c.commandOnWay (·.softReset) = true)
    (hnot : ¬(e.trigger.isSome = true ∧ c.stream.pulses.softReset = true)) :
    (c.step e).commandOnWay (·.softReset) = true := by
  simp only [commandOnWay, Bool.or_eq_true] at hway ⊢
  rcases hway with hline | hcarried
  · cases ha : e.apb with
    | none =>
      left
      rw [step_regs, ha]
      exact hline
    | some a => exact .inr (carried_of_line softReset_any h hline (by rw [ha]; rfl))
  · exact .inr ((carried_step h hcarried).resolve_right hnot)

/-- An ARM that the engine takes is on its way no more. -/
theorem not_arm_of_taken (h : c.CommandPath phase) (ht : e.trigger.isSome = true)
    (hp : c.stream.pulses.arm = true) : (c.step e).commandOnWay (·.arm) = false := by
  have hdelivered : phase.delivered = true := h.pulses (arm_any _ hp)
  have hne : phase ≠ .idle := by
    rintro rfl
    cases hdelivered
  have hundelivered : phase.undelivered = false := by
    cases phase with
    | idle => rfl
    | fall m => rfl
    | rise m =>
      have hm : 4 ≤ m := of_decide_eq_true hdelivered
      exact decide_eq_false (by omega)
  by_contra hway
  simp only [Bool.not_eq_false, commandOnWay, carried, Bool.or_eq_true, Bool.and_eq_true] at hway
  rcases hway with hline | ⟨hdata, -⟩ | hpulse
  · cases ha : e.apb with
    | none =>
      rw [step_regs, ha] at hline
      exact hne (h.lines (arm_any _ hline)).1
    | some a =>
      rw [step_regs, ha] at hline
      have hbusy : c.ctrl.command.busy = false := (Regs.command_edge (arm_any _ hline)).2.2.1
      rw [h.inPhase.busy_eq] at hbusy
      exact hne (by simpa using hbusy)
  · have hun := (inPhase_step (e := e) h).undelivered_eq
    rw [Bool.and_eq_true_iff.mpr ⟨by simpa using hdata.1, by simpa using hdata.2⟩] at hun
    rcases Handshake.Phase.undelivered_of_next hun.symm with hun' | ⟨hidle, -⟩
    · exact absurd (hundelivered.symm.trans hun') Bool.false_ne_true
    · exact hne hidle
  · rw [step_pulses, if_pos ht, nextPulses_eq h] at hpulse
    split at hpulse
    · next h3 =>
      rw [h3] at hundelivered
      cases hundelivered
    · cases hpulse

/-! ## An end on its way -/

/-- How far an end is, and what keeps the page from being unused meanwhile. -/
inductive Stage (c : Core) (phase : Handshake.Phase) : Prop where
  | leaving (hdone : Toggle.Settled c.stream.doneToggle c.ctrl.done)
      (haborted : Toggle.Settled c.stream.abortedToggle c.ctrl.aborted)
      (hheld : c.ctrl.regs.memoryLocked = true ∧ c.ctrl.regs.unlockPending = false ∨
        c.commandOnWay (·.softReset) = true)
  | crossing (n : ℕ) (hle : n ≤ 3) (hends : c.engine.ends = false)
      (hdone : Passing n c.stream.doneToggle c.ctrl.done)
      (haborted : Passing n c.stream.abortedToggle c.ctrl.aborted) (hheld : c.Held n phase)
  | arrived (hends : c.engine.ends = false)
      (hdone : Passing 4 c.stream.doneToggle c.ctrl.done)
      (haborted : Passing 4 c.stream.abortedToggle c.ctrl.aborted)

/-- The engine has come to its end, and no ARM follows yet. -/
structure Ending (c : Core) (phase : Handshake.Phase) : Prop where
  inactive : c.engine.active = false
  noArm : c.commandOnWay (·.arm) = false
  stage : c.Stage phase

/-- ARM and older ends do not meet. -/
structure Alone (c : Core) (phase : Handshake.Phase) : Prop where
  ending : c.endOnWay = false ∨ c.Ending phase
  arm : c.commandOnWay (·.arm) = true →
    c.endOnWay = false ∧ c.ctrl.regs.unlockPending = false ∧ c.engine.active = false

theorem alone_reset (memory : Memory) : (reset memory).Alone .idle where
  ending := .inl rfl
  arm h := absurd h Bool.false_ne_true

theorem Alone.apart (h : c.Alone phase) : c.Apart := fun harm =>
  ⟨(h.arm harm).1, (h.arm harm).2.1⟩

/-- An ARM that comes up at this step finds the page unused. -/
def ArmsUnused (c : Core) (e : Edges) : Prop :=
  ∀ a, e.apb = some a → (c.ctrl.regs.edge (c.regsIn a)).armCmd = true → c.Unused

theorem arm_of_step (h : c.CommandPath phase) (hunused : c.ArmsUnused e)
    (hs : (c.step e).commandOnWay (·.arm) = true) :
    c.commandOnWay (·.arm) = true ∨ e.apb.isSome = true ∧ c.Unused := by
  rcases commandOnWay_of_step arm_any h hs with hline | hway
  · cases ha : e.apb with
    | none =>
      left
      rw [step_regs, ha] at hline
      have hline' : c.ctrl.regs.command.arm = true := hline
      simp [commandOnWay, hline']
    | some a =>
      rw [step_regs, ha] at hline
      exact .inr ⟨rfl, hunused a ha hline⟩
  · exact .inl hway

/-- The page is in use until an end has arrived. -/
theorem Held.not_unused {n : ℕ} (hheld : c.Held n phase) (h : c.CommandPath phase) : ¬c.Unused := by
  intro hu
  obtain ⟨rfl, hdown⟩ := phase_of_commandBusy h hu.commandBusy
  rcases hheld with ⟨hlocked, -⟩ | hreset
  · exact absurd (hu.memoryLocked.symm.trans hlocked) Bool.false_ne_true
  · cases hreset with
    | line _ hline => exact absurd (hdown.symm.trans (softReset_any _ hline)) Bool.false_ne_true

/-- An engine that reports its end leaves the page in use. -/
theorem leaving_of_active (h : c.CommandPath phase) (hl : c.Locked) (hno : c.endOnWay = false)
    (hactive : c.engine.active = true) (hreset : c.stream.pulses.softReset = false) :
    (c.step e).ctrl.regs.memoryLocked = true ∧ (c.step e).ctrl.regs.unlockPending = false ∨
      (c.step e).commandOnWay (·.softReset) = true := by
  obtain ⟨-, hdone, haborted⟩ := endOnWay_eq_false_iff.mp hno
  by_cases hway : c.commandOnWay (·.softReset) = true
  · refine .inr (softReset_step h hway fun htaken => ?_)
    exact absurd (hreset.symm.trans htaken.2) Bool.false_ne_true
  · have hlocked : c.ctrl.regs.memoryLocked = true := by
      refine (hl.locked (.inl hactive)).resolve_right fun hcarried => hway ?_
      simp only [commandOnWay, Bool.or_eq_true]
      exact .inr hcarried
    have hpending : c.ctrl.regs.unlockPending = false := by
      by_contra hp
      exact hway (hl.unlocking (by simpa using hp) hactive)
    refine (line_or_locked (fun _ => ⟨hdone.pulse, haborted.pulse⟩) hlocked hpending).imp_right
      fun hline => ?_
    have hline' : (c.step e).ctrl.regs.command.softReset = true := hline
    simp [commandOnWay, hline']

theorem step_crossing {n : ℕ} (hends : c.engine.ends = false)
    (hdone : Passing n c.stream.doneToggle c.ctrl.done)
    (haborted : Passing n c.stream.abortedToggle c.ctrl.aborted) :
    Passing (if e.apb.isSome then n + 1 else n) (c.step e).stream.doneToggle (c.step e).ctrl.done ∧
      Passing (if e.apb.isSome then n + 1 else n) (c.step e).stream.abortedToggle
        (c.step e).ctrl.aborted := by
  simp only [Engine.ends, Bool.or_eq_false_iff] at hends
  rw [step_doneToggle, step_abortedToggle, step_done, step_aborted, hends.1, hends.2,
    Bool.xor_false, Bool.xor_false, ite_self, ite_self]
  split
  · exact ⟨hdone.edge, haborted.edge⟩
  · exact ⟨hdone, haborted⟩

/-- The flip of an end that sets out. -/
theorem crossing_of_leaving (hg : c.Guarded waiting phase q) (hrest : c.engine.active = false)
    (ht : e.trigger.isSome = true)
    (hdone : Toggle.Settled c.stream.doneToggle c.ctrl.done)
    (haborted : Toggle.Settled c.stream.abortedToggle c.ctrl.aborted)
    (hheld : c.ctrl.regs.memoryLocked = true ∧ c.ctrl.regs.unlockPending = false ∨
      c.commandOnWay (·.softReset) = true) : (c.step e).Stage (c.nextPhase e phase) := by
  refine .crossing 1 (by decide) ?_ ?_ ?_ ?_
  · by_contra hends
    have hactive := (active_of_ends_step ht (by simpa using hends)).1
    exact absurd (hrest.symm.trans hactive) Bool.false_ne_true
  · rw [step_doneToggle, if_pos ht, step_done]
    exact passing_of_settled (settled_edge_if hdone _)
  · rw [step_abortedToggle, if_pos ht, step_aborted]
    exact passing_of_settled (settled_edge_if haborted _)
  · rcases hheld with ⟨hlocked, hpending⟩ | hway
    · exact (line_or_locked (fun _ => ⟨hdone.pulse, haborted.pulse⟩) hlocked hpending).imp_right
        (.line _)
    · exact .inr (resetting_of_onWay hg hway)

theorem through_of_arrived (hrest : c.engine.active = false) (hends : c.engine.ends = false)
    (hdone : Passing 4 c.stream.doneToggle c.ctrl.done)
    (haborted : Passing 4 c.stream.abortedToggle c.ctrl.aborted) (ha : e.apb.isSome = true) :
    (c.step e).endOnWay = false := by
  have hends' := ends_of_inactive (e := e) hrest hends
  simp only [Engine.ends, Bool.or_eq_false_iff] at hends
  rw [endOnWay_eq_false_iff, step_doneToggle, step_abortedToggle, step_done, step_aborted,
    hends.1, hends.2, Bool.xor_false, Bool.xor_false, ite_self, ite_self, if_pos ha, if_pos ha]
  exact ⟨hends', hdone.settled, haborted.settled⟩

/-- An end comes one register further, or waits for its clock. -/
theorem Stage.step (hg : c.Guarded waiting phase q) (hrest : c.engine.active = false)
    (hstage : c.Stage phase) :
    (c.step e).endOnWay = false ∨ (c.step e).Stage (c.nextPhase e phase) := by
  cases hstage with
  | leaving hdone haborted hheld =>
    right
    cases ht : e.trigger with
    | some trigger =>
      exact crossing_of_leaving hg hrest (by rw [ht]; rfl) hdone haborted hheld
    | none =>
      have hdone' : Toggle.Settled (c.step e).stream.doneToggle (c.step e).ctrl.done := by
        rw [step_doneToggle, ht, step_done]
        exact settled_edge_if hdone _
      have haborted' : Toggle.Settled (c.step e).stream.abortedToggle (c.step e).ctrl.aborted := by
        rw [step_abortedToggle, ht, step_aborted]
        exact settled_edge_if haborted _
      refine .leaving hdone' haborted' ?_
      rcases hheld with ⟨hlocked, hpending⟩ | hway
      · refine (line_or_locked (fun _ => ⟨hdone.pulse, haborted.pulse⟩) hlocked
          hpending).imp_right fun hline => ?_
        have hline' : (c.step e).ctrl.regs.command.softReset = true := hline
        simp [commandOnWay, hline']
      · exact .inr (softReset_step hg.path hway fun htaken => by simp [ht] at htaken)
  | crossing n hle hends hdone haborted hheld =>
    right
    have hends' := ends_of_inactive (e := e) hrest hends
    obtain ⟨hdone', haborted'⟩ := step_crossing (e := e) hends hdone haborted
    by_cases hlast : n = 3 ∧ e.apb.isSome = true
    · obtain ⟨rfl, hapb⟩ := hlast
      rw [if_pos hapb] at hdone' haborted'
      exact .arrived hends' hdone' haborted'
    · have hle' : (if e.apb.isSome then n + 1 else n) ≤ 3 := by
        split
        · next hapb =>
          have hne : n ≠ 3 := fun h3 => hlast ⟨h3, hapb⟩
          omega
        · exact hle
      exact .crossing _ hle' hends' hdone' haborted' (hheld.step hg.path
        (fun _ => ⟨hdone.pulse (by omega), haborted.pulse (by omega)⟩) rfl hle')
  | arrived hends hdone haborted =>
    have hends' := ends_of_inactive (e := e) hrest hends
    cases ha : e.apb with
    | none =>
      right
      have hstep := step_crossing (e := e) hends hdone haborted
      rw [ha] at hstep
      exact .arrived hends' hstep.1 hstep.2
    | some a => exact .inl (through_of_arrived hrest hends hdone haborted (by rw [ha]; rfl))

/-- An end on its way to an unused page has arrived. -/
theorem Stage.arrived_of_unused (hstage : c.Stage phase) (h : c.CommandPath phase)
    (hu : c.Unused) : c.engine.ends = false ∧ Passing 4 c.stream.doneToggle c.ctrl.done ∧
      Passing 4 c.stream.abortedToggle c.ctrl.aborted := by
  cases hstage with
  | leaving hdone haborted hheld =>
    rcases hheld with ⟨hlocked, -⟩ | hway
    · exact absurd (hu.memoryLocked.symm.trans hlocked) Bool.false_ne_true
    · rw [not_onWay_of_commandBusy softReset_any h hu.commandBusy] at hway
      cases hway
  | crossing n hle hends hdone haborted hheld => exact absurd hu (hheld.not_unused h)
  | arrived hends hdone haborted => exact ⟨hends, hdone, haborted⟩

/-- An end that is on its way after a step was so before, or the engine has just come to it. -/
theorem ending_step (hg : c.Guarded waiting phase q) (hl : c.Locked) (ha : c.Alone phase)
    (hunused : c.ArmsUnused e) :
    (c.step e).endOnWay = false ∨ (c.step e).Ending (c.nextPhase e phase) := by
  have h := hg.path
  have hlocked : (c.step e).Locked := locked_step hl ha.apart
  by_cases hends : (c.step e).endOnWay = false
  · exact .inl hends
  have hrest : (c.step e).engine.active = false := hlocked.ended (by simpa using hends)
  right
  rcases ha.ending with hno | he
  · -- the engine has just come to its end
    obtain ⟨hquiet, hdone, haborted⟩ := endOnWay_eq_false_iff.mp hno
    obtain ⟨hdone', haborted'⟩ := settled_step (e := e) hquiet hdone haborted
    have hends' : (c.step e).engine.ends = true := by
      by_contra hnone
      exact hends (endOnWay_eq_false_iff.mpr ⟨by simpa using hnone, hdone', haborted'⟩)
    have ht : e.trigger.isSome = true := by
      by_contra hnone
      rw [step_ends (by simpa using hnone), hquiet] at hends'
      cases hends'
    obtain ⟨hactive, hreset⟩ := active_of_ends_step ht hends'
    refine ⟨hrest, ?_, .leaving hdone' haborted' (leaving_of_active h hl hno hactive hreset)⟩
    by_contra harm
    rcases arm_of_step h hunused (by simpa using harm) with hway | ⟨-, hu⟩
    · exact absurd ((ha.arm hway).2.2.symm.trans hactive) Bool.false_ne_true
    · exact absurd ((hu.inactive h hl).symm.trans hactive) Bool.false_ne_true
  · refine ⟨hrest, ?_, (he.stage.step hg he.inactive).resolve_left hends⟩
    by_contra harm
    rcases arm_of_step h hunused (by simpa using harm) with hway | ⟨hapb, hu⟩
    · exact absurd (he.noArm.symm.trans hway) Bool.false_ne_true
    · obtain ⟨hquiet, hdone, haborted⟩ := he.stage.arrived_of_unused h hu
      exact hends (through_of_arrived he.inactive hquiet hdone haborted hapb)

/-- No soft reset comes up while an ARM is on its way. -/
theorem unlockPending_of_arm (h : c.CommandPath phase) (hunused : c.ArmsUnused e)
    (hpending : c.commandOnWay (·.arm) = true → c.ctrl.regs.unlockPending = false)
    (harm : (c.step e).commandOnWay (·.arm) = true) :
    (c.step e).ctrl.regs.unlockPending = false := by
  have hwas : c.ctrl.regs.unlockPending = false :=
    (arm_of_step h hunused harm).elim hpending fun hu => hu.2.unlockPending
  cases ha : e.apb with
  | none =>
    rw [step_regs, ha]
    exact hwas
  | some a =>
    have hline : (c.step e).ctrl.regs.softResetCmd = false := by
      by_contra hup
      have hup' : (c.step e).ctrl.regs.command.softReset = true :=
        (Bool.not_eq_false _).mp hup
      -- a line that comes up finds no command in flight and comes up alone
      have hpath := commandPath_step (e := e) h
      obtain ⟨hidle, -⟩ := hpath.lines (softReset_any _ hup')
      simp only [commandOnWay, Bool.or_eq_true] at harm
      rcases harm with harm | hcarried
      · rw [hpath.linesSingle harm] at hup'
        cases hup'
      · exact ne_idle_of_carried arm_any hpath hcarried hidle
    rw [step_regs, ha] at hline ⊢
    simp only at hline ⊢
    rw [Regs.unlockPending_edge, hline, hwas]
    rfl

/-- One step of both clocks. -/
theorem alone_step (hg : c.Guarded waiting phase q) (hl : c.Locked) (ha : c.Alone phase)
    (hunused : c.ArmsUnused e) : (c.step e).Alone (c.nextPhase e phase) := by
  have hending := ending_step hg hl ha hunused
  refine ⟨hending, fun harm => ⟨hending.resolve_right fun he => ?_, ?_, ?_⟩⟩
  · exact absurd (he.noArm.symm.trans harm) Bool.false_ne_true
  · exact unlockPending_of_arm hg.path hunused (fun hway => (ha.arm hway).2.1) harm
  · have hrest : c.engine.active = false := (arm_of_step hg.path hunused harm).elim
      (fun hway => (ha.arm hway).2.2) fun hu => hu.2.inactive hg.path hl
    by_contra hactive
    rw [Bool.not_eq_false, step_engine] at hactive
    cases ht : e.trigger with
    | none =>
      rw [ht] at hactive
      exact absurd (hrest.symm.trans hactive) Bool.false_ne_true
    | some trigger =>
      rw [ht] at hactive
      rcases (Engine.active_of_tick hactive).2 with hwas | htaken
      · exact absurd (hrest.symm.trans hwas) Bool.false_ne_true
      · rw [not_arm_of_taken hg.path (by rw [ht]; rfl) htaken] at harm
        cases harm

/-! ## The service at the page -/

/-- A step reads STATUS and finds the page free, as the service asks before it arms. -/
def readsFree (c : Core) (e : Edges) : Bool :=
  e.apb.any fun a => c.ctrl.regs.apbTransfer (c.regsIn a) && !a.pwrite && a.paddr = addrStatus &&
    c.ctrl.regs.prdata (c.regsIn a) &&&
      (seqHwIdle ||| seqHwCommandBusy ||| seqHwMemoryLocked ||| seqHwFaulted) = seqHwIdle

/-- A step takes up a write of ARM. -/
def writesArm (c : Core) (e : Edges) : Bool :=
  (c.written e).any fun w => w.1 = seqControl && w.2.getLsbD 0

theorem armsUnused_of_free (h : c.writesArm e = true → c.Unused) : c.ArmsUnused e := by
  intro a ha harm
  obtain ⟨htakes, hallowed, hwindow, hp⟩ := Regs.control_of_command (arm_any _ harm)
  have hline := Regs.command_edge_of_control (by rw [htakes, hallowed, hwindow]; rfl) hp
  have hbit : a.pwdata.getLsbD 0 = true := (congrArg Command.arm hline).symm.trans harm
  have hoffset : a.offset = seqControl := (a.offset_eq_iff addrControl).mpr hp
  refine h ?_
  rw [writesArm, written_eq ha, if_pos htakes]
  simp [hoffset, hbit]

theorem accessed_of_not_written (h : c.written e = none) : c.accessed e = c.page := by
  rw [accessed, h]

/-- The memory stays unused while nobody writes. -/
theorem unused_step (hg : c.Guarded waiting phase q) (hwritten : c.written e = none)
    (hlocked : c.ctrl.regs.memoryLocked = false) (hbusy : c.page.commandBusy = false)
    (hpending : c.ctrl.regs.unlockPending = false ∨ ∃ a, e.apb = some a ∧
      c.ctrl.regs.unlocks (c.regsIn a) = true) : (c.step e).Unused := by
  have he := evolves_step (e := e) hg
  rw [accessed_of_not_written hwritten] at he
  have hlocked' := mt he.memoryLocked (by simpa [page] using hlocked)
  have hbusy' := mt he.commandBusy (by simpa using hbusy)
  simp only [Bool.not_eq_true] at hlocked' hbusy'
  refine ⟨hlocked', ?_, hbusy'⟩
  have hline : (c.step e).ctrl.regs.softResetCmd = false := by
    by_contra hup
    have hup' : (c.step e).ctrl.regs.command.softReset = true := (Bool.not_eq_false _).mp hup
    have hdown := (Bool.or_eq_false_iff.mp hbusy').1
    exact absurd (hdown.symm.trans (softReset_any _ hup')) Bool.false_ne_true
  cases ha : e.apb with
  | none =>
    rw [step_regs, ha]
    refine hpending.resolve_right ?_
    rintro ⟨a, ha', -⟩
    simp [ha] at ha'
  | some a =>
    rw [step_regs, ha] at hline ⊢
    simp only at hline ⊢
    rw [Regs.unlockPending_edge, hline, Bool.false_or, Bool.and_eq_false_iff]
    refine hpending.imp_right ?_
    rintro ⟨a', ha', hu⟩
    obtain rfl : a = a' := Option.some.inj (ha.symm.trans ha')
    rw [hu]
    rfl

/-- A read that finds the page free leaves it unused. -/
theorem unused_of_readsFree (hg : c.Guarded waiting phase q) (h : c.readsFree e = true) :
    c.written e = none ∧ (c.step e).Unused := by
  cases ha : e.apb with
  | none => simp [readsFree, ha] at h
  | some a =>
    simp only [readsFree, ha, Option.any_some, Bool.and_eq_true, Bool.not_eq_true',
      decide_eq_true_eq] at h
    obtain ⟨⟨⟨ht, hread⟩, hp⟩, hstatus⟩ := h
    have hwritten : c.written e = none := by
      simp [written_eq ha, Regs.takesWrite, regsIn, hread]
    have hwindow : a.eventWindow = false := by
      rw [ApbIn.eventWindow, hp]
      rfl
    have hoffset : a.offset = seqStatus := (a.offset_eq_iff addrStatus).mpr hp
    have hword : c.ctrl.regs.prdata (c.regsIn a) = c.page.statusWord := by
      rw [prdata_eq hg.path ht hwindow, hoffset]
      rfl
    rw [hword] at hstatus
    have hfree := free_of_statusWord hstatus
    refine ⟨hwritten, unused_step hg hwritten hfree.memoryLocked hfree.commandBusy ?_⟩
    by_cases hpending : c.ctrl.regs.unlockPending = false
    · exact .inl hpending
    · have hidle : c.ctrl.shown.idle = true := hfree.idle
      have hbusy := (Bool.or_eq_false_iff.mp hfree.commandBusy).2
      exact .inr ⟨a, ha, by simp [Regs.unlocks, regsIn, hidle, hbusy, hpending]⟩

end Core

/-- The core, whether `clk_ctrl_i` has ticked since the last edge of `clk_stream_i`, and whether
nothing has been written since a read of STATUS found the page free. -/
structure Attended where
  core : Core
  waiting : Bool
  free : Bool

namespace Attended

def reset (memory : Memory) : Attended := ⟨.reset memory, false, false⟩

/-- `clk_ctrl_i` does not tick twice while `clk_stream_i` rests, and ARM is only written to a page
that was found free. -/
def machine : Machine Attended Edges where
  step s e :=
    if e.apb.isSome && e.trigger.isNone && s.waiting then none
    else if s.core.writesArm e && !s.free then none
    else some
      { core := s.core.step e
        waiting := e.trigger.isNone && (e.apb.isSome || s.waiting)
        free := s.core.readsFree e || (s.free && (s.core.written e).isNone) }

/-- What holds of an attended core. -/
structure Kept (s : Attended) (phase q : Handshake.Phase) : Prop where
  guarded : s.core.Guarded s.waiting phase q
  locked : s.core.Locked
  alone : s.core.Alone phase
  unused : s.free = true → s.core.Unused

variable {memory : Memory} {s s' s₁ s₂ : Attended} {e : Edges} {l : List Edges}

theorem kept_reset (memory : Memory) : (reset memory).Kept .idle .idle where
  guarded := Core.guarded_reset memory
  locked := Core.locked_reset memory
  alone := Core.alone_reset memory
  unused h := absurd h Bool.false_ne_true

theorem step_eq (h : machine.step s e = some s') :
    (e.apb.isSome && e.trigger.isNone && s.waiting) = false ∧
      (s.core.writesArm e = true → s.free = true) ∧
      s' = { core := s.core.step e
             waiting := e.trigger.isNone && (e.apb.isSome || s.waiting)
             free := s.core.readsFree e || (s.free && (s.core.written e).isNone) } := by
  simp only [machine] at h
  split at h
  · cases h
  next hpace =>
  split at h
  · cases h
  next harm =>
  refine ⟨by simpa using hpace, fun hw => ?_, (Option.some.inj h).symm⟩
  rw [hw] at harm
  simpa using harm

theorem kept_step {phase q : Handshake.Phase} (hk : s.Kept phase q)
    (h : machine.step s e = some s') : ∃ phase' q', s'.Kept phase' q' := by
  obtain ⟨hpace, harm, rfl⟩ := step_eq h
  have hunused := Core.armsUnused_of_free (c := s.core) (e := e) fun hw => hk.unused (harm hw)
  refine ⟨_, _, Core.guarded_step hk.guarded hk.locked fun ha ht => ?_,
    Core.locked_step hk.locked hk.alone.apart,
    Core.alone_step hk.guarded hk.locked hk.alone hunused, fun hfree => ?_⟩
  · rw [ha, ht] at hpace
    simpa using hpace
  · simp only [Bool.or_eq_true, Bool.and_eq_true, Option.isNone_iff_eq_none] at hfree
    rcases hfree with hread | ⟨hwas, hnone⟩
    · exact (Core.unused_of_readsFree hk.guarded hread).2
    · have hu := hk.unused hwas
      exact Core.unused_step hk.guarded hnone hu.memoryLocked hu.commandBusy (.inl hu.unlockPending)

theorem exists_kept_of_reachable (h : machine.Reachable (reset memory) s) :
    ∃ phase q, s.Kept phase q := by
  refine h.invariant (I := fun s => ∃ phase q, s.Kept phase q) ⟨_, _, kept_reset memory⟩ ?_
  rintro s e s' ⟨phase, q, hk⟩ hstep
  exact kept_step hk hstep

/-- At every step of every run the page only changes by the write that the step takes up and by
what can happen meanwhile. -/
theorem page_evolves (h : machine.Reachable (reset memory) s) (hstep : machine.step s e = some s') :
    (s.core.accessed e).Evolves s'.core.page := by
  obtain ⟨phase, q, hk⟩ := exists_kept_of_reachable h
  obtain ⟨-, -, rfl⟩ := step_eq hstep
  exact Core.evolves_step hk.guarded

/-- All that happens to the page from one access to the next: the first may be a write, and the
steps after it take up none. -/
theorem access_evolves (h : machine.Reachable (reset memory) s) (hstep : machine.step s e = some s₁)
    (hrun : machine.run s₁ l = some s₂)
    (hquiet : machine.Meets (fun s e _ => s.core.written e = none) s₁ l) :
    (s.core.accessed e).Evolves s₂.core.page := by
  have hreach : ∀ {t t' : Attended} {e' : Edges}, machine.Reachable (reset memory) t →
      machine.step t e' = some t' → machine.Reachable (reset memory) t' := by
    rintro t t' e' ⟨l, hl⟩ ht
    exact ⟨l ++ [e'], Machine.run_trans hl (Machine.run_of_step _ ht)⟩
  refine (Machine.run_invariant (I := fun t => machine.Reachable (reset memory) t ∧
    (s.core.accessed e).Evolves t.core.page) ?_ ⟨hreach h hstep, page_evolves h hstep⟩
    hquiet hrun).2
  rintro t e' t' ⟨ht, hev⟩ hstep' hnone
  have hnext := page_evolves ht hstep'
  rw [Core.accessed_of_not_written hnone] at hnext
  exact ⟨hreach ht hstep', hev.trans hnext⟩

/-- A run cut at its accesses is one that `liveBus` describes: the PL does to the page what some
`pl` does that keeps to `Page.Evolves`. -/
theorem exists_pl {point : ℕ → Attended} {access : ℕ → Edges} {quiet : ℕ → List Edges}
    (h : machine.Reachable (reset memory) (point 0))
    (hrun : ∀ t, machine.run (point t) (access t :: quiet t) = some (point (t + 1)))
    (hquiet : ∀ t s₁, machine.step (point t) (access t) = some s₁ →
      machine.Meets (fun s e _ => s.core.written e = none) s₁ (quiet t)) :
    ∃ pl : ℕ → Page → Page, (∀ t p, Page.Evolves p (pl t p)) ∧
      ∀ t, pl (t + 1) ((point t).core.accessed (access t)) = (point (t + 1)).core.page := by
  classical
  have hreach : ∀ t, machine.Reachable (reset memory) (point t) := by
    intro t
    induction t with
    | zero => exact h
    | succ t ih =>
      obtain ⟨l, hl⟩ := ih
      exact ⟨l ++ access t :: quiet t, Machine.run_trans hl (hrun t)⟩
  have hev : ∀ t, ((point t).core.accessed (access t)).Evolves (point (t + 1)).core.page := by
    intro t
    obtain ⟨s₁, hstep, hrest⟩ := Machine.run_cons _ (hrun t)
    exact access_evolves (hreach t) hstep hrest (hquiet t s₁ hstep)
  refine ⟨fun t p => if 0 < t ∧ p = (point (t - 1)).core.accessed (access (t - 1)) then
    (point t).core.page else p, fun t p => ?_, fun t => if_pos ⟨t.succ_pos, rfl⟩⟩
  dsimp only
  split
  · next hp =>
    obtain ⟨hpos, rfl⟩ := hp
    obtain ⟨t, rfl⟩ : ∃ t', t = t' + 1 := ⟨t - 1, by omega⟩
    exact hev t
  · exact .refl p

end Attended

/-- The two bus cycles of an access while both clocks tick. -/
def busAccess (paddr : BitVec 12) (pwrite : Bool) (pwdata : BitVec 32) : List Edges :=
  [⟨some ⟨paddr, true, false, pwrite, pwdata⟩, some false⟩,
    ⟨some ⟨paddr, true, true, pwrite, pwdata⟩, some false⟩]

/-- A pulse of three ticks is written, STATUS read, and the sequence armed. -/
def lookAndArm : List Edges :=
  busAccess 0x808 true 1 ++ busAccess 0x810 true 3 ++ busAccess addrEventCount true 2 ++
    busAccess addrStatus false 0 ++ busAccess addrControl true 1 ++ bothClocks 16

example : ((Attended.machine.run (.reset fun _ => 0) lookAndArm).map fun s =>
    (s.core.engine.state, s.core.ctrl.regs.memoryLocked)) = some (.armed, true) := by
  decide +kernel

end QCrate.Sequence
