import QCrate.Sequence.Core

/-!
# The lock on the event memory

ARM locks the event memory before it sets out to the engine, and the end of a run unlocks it again.
Both take their time to cross between the clocks. The lock does not know whose end it sees: when an
ARM sets out while the end of the run before is still on its way, that end unlocks the memory the
new ARM is about to use.

* `CommandPath` — the commands on their way, with `commandOnWay_of_step` and `carried_step`.
* `Locked` — what keeps the memory locked, and `locked_step`.
* `writes_exclusive` — in runs that keep ARM and the older ends apart, no write reaches the event
  memory while the engine uses it.
-/

namespace QCrate.Sequence

open QCrate.Lib

/-- ARM and SOFT_RESET do not come together. -/
def Command.Single (k : Command) : Prop := k.arm = true → k.softReset = false

namespace Core

/-! ## What is on its way -/

/-- A command that has left the command lines and that the engine has not taken. -/
def carried (c : Core) (p : Command → Bool) : Bool :=
  (c.ctrl.command.send && !c.stream.command.ack && p c.ctrl.command.data) || p c.stream.pulses

/-- A command that the register block has accepted and that the engine has not taken. -/
def commandOnWay (c : Core) (p : Command → Bool) : Bool := p c.ctrl.regs.command || c.carried p

/-- An end that the engine reports and the register block has not seen. -/
def endOnWay (c : Core) : Bool :=
  c.engine.ends || !decide (Toggle.Settled c.stream.doneToggle c.ctrl.done) ||
    !decide (Toggle.Settled c.stream.abortedToggle c.ctrl.aborted)

/-- No ARM is on its way while an end is, or while a soft reset is to unlock the memory. -/
def Apart (c : Core) : Prop :=
  c.commandOnWay (·.arm) = true → c.endOnWay = false ∧ c.ctrl.regs.unlockPending = false

instance (c : Core) : Decidable c.Apart := inferInstanceAs (Decidable (_ → _))

/-- A write only reaches the event memory while the engine does not use it. -/
def Exclusive (c : Core) (e : Edges) : Prop := c.writesMemory e = true → c.engine.active = false

instance (c : Core) (e : Edges) : Decidable (c.Exclusive e) := inferInstanceAs (Decidable (_ → _))

/-! ## The parts of a step -/

variable {c : Core} {e : Edges} {phase : Handshake.Phase} {p : Command → Bool}

theorem step_regs : (c.step e).ctrl.regs =
    match e.apb with
    | some a => c.ctrl.regs.edge (c.regsIn a)
    | none => c.ctrl.regs := by
  unfold step
  cases e.apb <;> rfl

theorem step_command : (c.step e).ctrl.command =
    Handshake.stepSource c.ctrl.command c.stream.command (e.apb.map fun _ => c.commandRequest) := by
  unfold step
  cases e.apb <;> rfl

theorem step_streamCommand : (c.step e).stream.command =
    Handshake.stepDest c.ctrl.command c.stream.command (e.trigger.map fun _ => true) := by
  unfold step
  cases e.trigger <;> rfl

theorem step_pulses : (c.step e).stream.pulses =
    if e.trigger.isSome then c.nextPulses else c.stream.pulses := by
  unfold step
  cases e.trigger <;> rfl

/-! ## The way of a command -/

/-- The registers a command passes through. A command line is only up before an access has ended,
and the pulses are only up right after a delivery. -/
structure CommandPath (c : Core) (phase : Handshake.Phase) : Prop where
  inPhase : Handshake.InPhase c.ctrl.command c.stream.command phase
  lines : c.ctrl.regs.command.any = true → phase = .idle ∧ c.ctrl.regs.apbAccessSeen = true
  pulses : c.stream.pulses.any = true → phase.delivered = true
  linesSingle : c.ctrl.regs.command.Single
  dataSingle : c.ctrl.command.data.Single
  pulsesSingle : c.stream.pulses.Single

/-- The position after a step. -/
def nextPhase (c : Core) (e : Edges) (phase : Handshake.Phase) : Handshake.Phase :=
  phase.next e.apb.isSome c.commandRequest.isSome (e.trigger.map fun _ => true)

theorem inPhase_step (h : c.CommandPath phase) :
    Handshake.InPhase (c.step e).ctrl.command (c.step e).stream.command
      (c.nextPhase e phase) := by
  rw [step_command, step_streamCommand]
  have hp := Handshake.inPhase_step h.inPhase (e.apb.map fun _ => c.commandRequest)
    (e.trigger.map fun _ => true)
  unfold nextPhase
  cases ha : e.apb with
  | none =>
    have hnone : ∀ request dest, Handshake.Phase.next false request dest phase =
        Handshake.Phase.next false false dest phase := by
      intro request dest
      cases phase <;> rfl
    rw [ha] at hp
    rw [Option.isSome_none, hnone]
    exact hp
  | some a =>
    rw [ha] at hp
    exact hp

theorem commandRequest_eq (h : c.CommandPath phase) :
    c.commandRequest = if c.ctrl.regs.command.any then some c.ctrl.regs.command else none := by
  unfold commandRequest
  cases hany : c.ctrl.regs.command.any with
  | false => rfl
  | true => simp [h.inPhase.busy_eq, (h.lines hany).1]

/-- The data of the handshake only change when a command line is up. -/
theorem step_data (h : c.CommandPath phase) : (c.step e).ctrl.command.data =
    if e.apb.isSome && c.ctrl.regs.command.any then c.ctrl.regs.command
    else c.ctrl.command.data := by
  rw [step_command, commandRequest_eq h]
  cases e.apb with
  | none => rfl
  | some a =>
    cases hany : c.ctrl.regs.command.any with
    | false => exact Handshake.stepSource_data_of_none _ _
    | true =>
      obtain ⟨rfl, -⟩ := h.lines hany
      exact Handshake.stepSource_data_of_idle h.inPhase _

theorem nextPulses_eq (h : c.CommandPath phase) : c.nextPulses =
    if phase = .rise 3 then c.ctrl.command.data
    else { c.stream.pulses with
      arm := false, start := false, abort := false, softReset := false } := by
  unfold nextPulses
  by_cases hv : c.stream.command.valid = true
  · rw [if_pos hv, if_pos (h.inPhase.valid_iff.mp hv), h.inPhase.data_of_valid hv]
  · rw [if_neg hv, if_neg fun hp => hv (h.inPhase.valid_iff.mpr hp)]

theorem commandPath_step (h : c.CommandPath phase) :
    (c.step e).CommandPath (c.nextPhase e phase) where
  inPhase := inPhase_step h
  lines := by
    rw [step_regs]
    cases ha : e.apb with
    | none =>
      intro hany
      obtain ⟨rfl, hseen⟩ := h.lines hany
      exact ⟨by simp [nextPhase, ha, Handshake.Phase.next], hseen⟩
    | some a =>
      intro hany
      obtain ⟨hseen, haccess, hbusy, -⟩ := Regs.command_edge hany
      -- the lines are down, so nothing new sets out on this edge
      have hdown : c.ctrl.regs.command.any = false := by
        by_contra hup
        rw [(h.lines (by simpa using hup)).2] at hseen
        cases hseen
      have hidle : phase = .idle := by
        have hb : c.ctrl.command.busy = false := hbusy
        rw [h.inPhase.busy_eq] at hb
        simpa using hb
      subst hidle
      refine ⟨?_, by rw [Regs.apbAccessSeen_edge]; exact haccess⟩
      simp [nextPhase, commandRequest_eq h, hdown, Handshake.Phase.next]
  pulses := by
    rw [step_pulses]
    cases ht : e.trigger with
    | none =>
      intro hany
      simp only [nextPhase, ht, Option.map_none]
      exact Handshake.Phase.delivered_next (h.pulses hany)
    | some trigger =>
      simp only [Option.isSome_some, if_true]
      rw [nextPulses_eq h]
      split
      · next hp =>
        intro _
        subst hp
        simp [nextPhase, ht, Handshake.Phase.next, Handshake.Phase.delivered]
      · intro hany
        cases hany
  linesSingle := by
    rw [step_regs]
    cases e.apb with
    | none => exact h.linesSingle
    | some a =>
      intro harm
      exact (Regs.command_edge (by simp [Command.any, harm])).2.2.2 harm
  dataSingle := by
    rw [step_data h]
    split
    · exact h.linesSingle
    · exact h.dataSingle
  pulsesSingle := by
    rw [step_pulses]
    split
    · rw [nextPulses_eq h]
      split
      · exact h.dataSingle
      · intro harm
        cases harm
    · exact h.pulsesSingle

/-- A command is on its way because it was, or because its line has come up. -/
theorem commandOnWay_of_step (hp : ∀ k : Command, p k = true → k.any = true)
    (h : c.CommandPath phase) (hs : (c.step e).commandOnWay p = true) :
    p (c.step e).ctrl.regs.command = true ∨ c.commandOnWay p = true := by
  simp only [commandOnWay, carried, Bool.or_eq_true] at hs ⊢
  rcases hs with hl | hd | hpulse
  · exact .inl hl
  · right
    rw [(inPhase_step h).undelivered_eq, Bool.and_eq_true, step_data h] at hd
    obtain ⟨hun, hd⟩ := hd
    rcases Handshake.Phase.undelivered_of_next hun with hun' | ⟨rfl, ha, hr⟩
    · have hdown : c.ctrl.regs.command.any = false := by
        by_contra hup
        obtain ⟨rfl, -⟩ := h.lines (by simpa using hup)
        cases hun'
      rw [hdown, Bool.and_false, if_neg Bool.false_ne_true] at hd
      exact .inr (.inl (by rw [h.inPhase.undelivered_eq, hun', hd]; rfl))
    · rw [commandRequest_eq h] at hr
      split at hr
      · next hany =>
        rw [ha, hany] at hd
        exact .inl hd
      · cases hr
  · right
    rw [step_pulses] at hpulse
    split at hpulse
    · rw [nextPulses_eq h] at hpulse
      split at hpulse
      · next h3 =>
        subst h3
        exact .inr (.inl (by rw [h.inPhase.undelivered_eq, hpulse]; rfl))
      · cases hp _ hpulse
    · exact .inr (.inr hpulse)

/-- A command that is carried stays so until the engine takes it. -/
theorem carried_step (h : c.CommandPath phase) (hc : c.carried p = true) :
    (c.step e).carried p = true ∨ e.trigger.isSome = true ∧ p c.stream.pulses = true := by
  simp only [carried, Bool.or_eq_true] at hc ⊢
  rcases hc with hd | hpulse
  · left
    rw [h.inPhase.undelivered_eq, Bool.and_eq_true] at hd
    obtain ⟨hun, hd⟩ := hd
    have hdown : c.ctrl.regs.command.any = false := by
      by_contra hup
      obtain ⟨rfl, -⟩ := h.lines (by simpa using hup)
      cases hun
    rcases Handshake.Phase.undelivered_next hun with hun' | ⟨h3, ht⟩
    · left
      rw [(inPhase_step h).undelivered_eq, step_data h, hdown, Bool.and_false,
        if_neg Bool.false_ne_true, hd, Bool.and_true]
      exact hun'
    · right
      have ht' : e.trigger.isSome = true := by
        cases he : e.trigger with
        | none => simp [he] at ht
        | some trigger => rfl
      rw [step_pulses, if_pos ht', nextPulses_eq h, if_pos h3]
      exact hd
  · by_cases ht : e.trigger.isSome = true
    · exact .inr ⟨ht, hpulse⟩
    · left
      right
      rwa [step_pulses, if_neg ht]

/-- A line that is up sets out on the next edge of its clock. -/
theorem carried_of_line (hp : ∀ k : Command, p k = true → k.any = true) (h : c.CommandPath phase)
    (hl : p c.ctrl.regs.command = true) (ha : e.apb.isSome = true) :
    (c.step e).carried p = true := by
  have hany := hp _ hl
  obtain ⟨rfl, -⟩ := h.lines hany
  have hun : (c.nextPhase e .idle).undelivered = true := by
    simp [nextPhase, commandRequest_eq h, hany, ha, Handshake.Phase.next,
      Handshake.Phase.undelivered]
  simp only [carried, Bool.or_eq_true]
  left
  rw [(inPhase_step h).undelivered_eq, step_data h, hun, hany, ha]
  exact hl

theorem ne_idle_of_carried (hp : ∀ k : Command, p k = true → k.any = true)
    (h : c.CommandPath phase) (hc : c.carried p = true) : phase ≠ .idle := by
  rintro rfl
  simp only [carried, Bool.or_eq_true, h.inPhase.undelivered_eq] at hc
  rcases hc with hc | hc
  · cases hc
  · cases h.pulses (hp _ hc)

/-- While a soft reset is carried no ARM is on its way. -/
theorem not_arm_of_carried (h : c.CommandPath phase) (hc : c.carried (·.softReset) = true) :
    c.commandOnWay (·.arm) = false := by
  have hne := ne_idle_of_carried (fun k hk => by simp [Command.any, hk]) h hc
  by_contra ha
  simp only [Bool.not_eq_false, commandOnWay, carried, Bool.or_eq_true,
    h.inPhase.undelivered_eq, Bool.and_eq_true] at ha hc
  have hexcl : phase.undelivered = true → phase.delivered = true → False := by
    intro hu hd
    cases phase with
    | idle => cases hu
    | rise n =>
      have h1 : n ≤ 3 := of_decide_eq_true hu
      have h2 : 4 ≤ n := of_decide_eq_true hd
      omega
    | fall n => cases hu
  have hpulses : ∀ k : Command, k = c.stream.pulses → (k.arm || k.softReset) = true →
      phase.delivered = true := by
    rintro k rfl hk
    refine h.pulses ?_
    simp only [Bool.or_eq_true] at hk
    rcases hk with hk | hk <;> simp [Command.any, hk]
  rcases ha with ha | ⟨hu, ha⟩ | ha
  · exact hne (h.lines (by simp [Command.any, ha])).1
  · rcases hc with ⟨-, hr⟩ | hr
    · rw [h.dataSingle ha] at hr
      cases hr
    · exact hexcl hu (hpulses _ rfl (by simp [hr]))
  · rcases hc with ⟨hu, -⟩ | hr
    · exact hexcl hu (hpulses _ rfl (by simp [ha]))
    · rw [h.pulsesSingle ha] at hr
      cases hr

/-! ## The engine and its ends -/

theorem step_engine : (c.step e).engine =
    match e.trigger with
    | some trigger => c.engine.tick (c.engineIn trigger) c.stream.player.response
    | none => c.engine := by
  unfold step engine
  cases e.trigger <;> rfl

/-- An engine that becomes active has taken an ARM, and none stays active through a soft reset. -/
theorem active_of_step (ha : (c.step e).engine.active = true) :
    (c.engine.active = true ∨ c.commandOnWay (·.arm) = true) ∧
      ¬ (e.trigger.isSome = true ∧ c.stream.pulses.softReset = true) := by
  rw [step_engine] at ha
  cases ht : e.trigger with
  | none =>
    rw [ht] at ha
    exact ⟨.inl ha, fun hr => nomatch hr.1⟩
  | some trigger =>
    rw [ht] at ha
    obtain ⟨hreset, hor⟩ := Engine.active_of_tick ha
    refine ⟨hor.imp_right fun harm => ?_, fun hr => ?_⟩
    · have harm' : c.stream.pulses.arm = true := harm
      simp [commandOnWay, carried, harm']
    · have hreset' : c.stream.pulses.softReset = false := hreset
      rw [hreset'] at hr
      cases hr.2

/-- An end that is on its way was so before, or the engine has just come to rest. -/
theorem endOnWay_of_step (hs : (c.step e).endOnWay = true) :
    c.endOnWay = true ∨ (c.step e).engine.active = false := by
  by_cases hends : (c.step e).engine.ends = true
  · cases ht : e.trigger with
    | none =>
      left
      rw [step_engine, ht] at hends
      simp only [endOnWay, hends, Bool.true_or]
    | some trigger =>
      right
      rw [step_engine, ht] at hends ⊢
      exact Engine.not_active_of_ends hends
  · left
    by_contra hnone
    simp only [endOnWay, Bool.not_eq_true, Bool.or_eq_false_iff, Bool.not_eq_false',
      decide_eq_true_eq] at hnone
    obtain ⟨⟨hquiet, hdone⟩, haborted⟩ := hnone
    simp only [Engine.ends, Bool.or_eq_false_iff] at hquiet
    -- neither toggle flips, so both crossings stay settled
    have hdone' : Toggle.Settled (c.step e).stream.doneToggle (c.step e).ctrl.done := by
      have ht : (c.step e).stream.doneToggle = c.stream.doneToggle := by
        unfold step
        cases e.trigger <;> simp [streamEdge, hquiet.1]
      rw [ht]
      unfold step
      cases e.apb with
      | none => exact hdone
      | some a => exact Toggle.settled_edge hdone
    have haborted' : Toggle.Settled (c.step e).stream.abortedToggle (c.step e).ctrl.aborted := by
      have ht : (c.step e).stream.abortedToggle = c.stream.abortedToggle := by
        unfold step
        cases e.trigger <;> simp [streamEdge, hquiet.2]
      rw [ht]
      unfold step
      cases e.apb with
      | none => exact haborted
      | some a => exact Toggle.settled_edge haborted
    simp only [Bool.not_eq_true] at hends
    simp [endOnWay, hends, hdone', haborted'] at hs

/-! ## The lock -/

/-- What keeps the memory locked while the engine uses it or is about to. -/
structure Locked (c : Core) : Prop where
  path : ∃ phase, c.CommandPath phase
  locked : c.engine.active = true ∨ c.commandOnWay (·.arm) = true →
    c.ctrl.regs.memoryLocked = true ∨ c.carried (·.softReset) = true
  ended : c.endOnWay = true → c.engine.active = false
  unlocking : c.ctrl.regs.unlockPending = true → c.engine.active = true →
    c.commandOnWay (·.softReset) = true

theorem commandPath_reset (memory : Memory) : (reset memory).CommandPath .idle where
  inPhase := Handshake.inPhase_reset _ _
  lines := fun h => absurd h Bool.false_ne_true
  pulses := fun h => absurd h Bool.false_ne_true
  linesSingle := fun _ => rfl
  dataSingle := fun _ => rfl
  pulsesSingle := fun _ => rfl

theorem locked_reset (memory : Memory) : (reset memory).Locked where
  path := ⟨.idle, commandPath_reset memory⟩
  locked := fun h => h.elim (absurd · Bool.false_ne_true) (absurd · Bool.false_ne_true)
  ended := fun _ => rfl
  unlocking := fun h => absurd h Bool.false_ne_true

theorem arm_any (k : Command) (h : k.arm = true) : k.any = true := by simp [Command.any, h]

theorem softReset_any (k : Command) (h : k.softReset = true) : k.any = true := by
  simp [Command.any, h]

/-- While the engine is active or an ARM on its way, only a soft reset that sets out on this edge
opens the lock. -/
theorem line_of_unlocks (h : c.Locked) (hapart : c.Apart) {a : ApbIn}
    (hu : c.ctrl.regs.unlocks (c.regsIn a) = true)
    (hor : c.engine.active = true ∨ c.commandOnWay (·.arm) = true) :
    c.ctrl.regs.softResetCmd = true := by
  have hnoEnd : c.endOnWay = false := by
    rcases hor with hactive | harm
    · by_contra hend
      rw [h.ended (by simpa using hend)] at hactive
      cases hactive
    · exact (hapart harm).1
  simp only [Regs.unlocks, regsIn, Bool.or_eq_true, Bool.and_eq_true, Bool.not_eq_true'] at hu
  simp only [endOnWay, Bool.or_eq_false_iff, Bool.not_eq_false', decide_eq_true_eq] at hnoEnd
  rcases hu with (hd | hd) | ⟨⟨hpending, hbusy⟩, -⟩
  · rw [hnoEnd.1.2.pulse] at hd
    cases hd
  · rw [hnoEnd.2.pulse] at hd
    cases hd
  · have hnoArm : ¬ c.commandOnWay (·.arm) = true := by
      intro harm
      rw [(hapart harm).2] at hpending
      cases hpending
    have hway := h.unlocking hpending (hor.resolve_right hnoArm)
    simp only [commandOnWay, Bool.or_eq_true] at hway
    rcases hway with hl | hc
    · exact hl
    · obtain ⟨phase, hpath⟩ := h.path
      rw [hpath.inPhase.busy_eq] at hbusy
      exact absurd (by simpa using hbusy) (ne_idle_of_carried softReset_any hpath hc)

theorem locked_step (h : c.Locked) (hapart : c.Apart) : (c.step e).Locked := by
  obtain ⟨phase, hpath⟩ := h.path
  -- an ARM that was on its way or an active engine explains both again
  have hback : (c.step e).engine.active = true ∨
      ((c.step e).commandOnWay (·.arm) = true ∧ (c.step e).ctrl.regs.armCmd = false) →
      c.engine.active = true ∨ c.commandOnWay (·.arm) = true := by
    rintro (hactive | ⟨harm, hdown⟩)
    · exact (active_of_step hactive).1
    · right
      refine (commandOnWay_of_step arm_any hpath harm).resolve_left fun hl => ?_
      have hl' : (c.step e).ctrl.regs.armCmd = true := hl
      rw [hdown] at hl'
      cases hl'
  refine ⟨⟨_, commandPath_step hpath⟩, fun hor => ?_, fun hend => ?_, fun hpending hactive => ?_⟩
  · by_cases hline : (c.step e).ctrl.regs.armCmd = true
    · left
      rw [step_regs] at hline ⊢
      cases ha : e.apb with
      | none =>
        rw [ha] at hline
        -- the line was up before, and then nothing is carried
        have harm : c.commandOnWay (·.arm) = true := by
          have hline' : c.ctrl.regs.command.arm = true := hline
          simp [commandOnWay, hline']
        refine (h.locked (.inr harm)).resolve_right fun hc => ?_
        rw [not_arm_of_carried hpath hc] at harm
        cases harm
      | some a =>
        rw [ha] at hline
        simp only at hline ⊢
        rw [Regs.memoryLocked_edge, hline, Bool.true_or]
    · have hold := hback (hor.imp_right fun harm => ⟨harm, by simpa using hline⟩)
      rcases h.locked hold with hlocked | hcarried
      · cases ha : e.apb with
        | none =>
          left
          rw [step_regs, ha]
          exact hlocked
        | some a =>
          by_cases hu : c.ctrl.regs.unlocks (c.regsIn a) = true
          · right
            exact carried_of_line softReset_any hpath (line_of_unlocks h hapart hu hold)
              (by rw [ha]; rfl)
          · left
            simp only [Bool.not_eq_true] at hu
            rw [step_regs, ha]
            simp only
            rw [Regs.memoryLocked_edge, hlocked, hu]
            simp
      · right
        refine (carried_step hpath hcarried).resolve_right fun htaken => ?_
        have hnoArm := not_arm_of_carried hpath hcarried
        rcases hor with hactive | harm
        · exact (active_of_step hactive).2 htaken
        · rcases commandOnWay_of_step arm_any hpath harm with hl | hway
          · exact hline hl
          · rw [hnoArm] at hway
            cases hway
  · rcases endOnWay_of_step hend with hold | hrest
    · by_contra hactive
      rcases (active_of_step (by simpa using hactive)).1 with hwas | harm
      · rw [h.ended hold] at hwas
        cases hwas
      · rw [(hapart harm).1] at hold
        cases hold
    · exact hrest
  · obtain ⟨hor, htaken⟩ := active_of_step hactive
    by_cases hline : (c.step e).ctrl.regs.softResetCmd = true
    · have hline' : (c.step e).ctrl.regs.command.softReset = true := hline
      simp [commandOnWay, hline']
    · have hwas : c.ctrl.regs.unlockPending = true := by
        rw [step_regs] at hpending hline
        cases ha : e.apb with
        | none =>
          rw [ha] at hpending
          exact hpending
        | some a =>
          rw [ha] at hpending hline
          simp only at hpending hline
          rw [Regs.unlockPending_edge] at hpending
          simp only [Bool.or_eq_true, Bool.and_eq_true] at hpending
          exact (hpending.resolve_left hline).1
      have hnoArm : ¬ c.commandOnWay (·.arm) = true := by
        intro harm
        rw [(hapart harm).2] at hwas
        cases hwas
      have hway := h.unlocking hwas (hor.resolve_right hnoArm)
      simp only [commandOnWay, Bool.or_eq_true] at hway ⊢
      rcases hway with hl | hc
      · cases ha : e.apb with
        | none =>
          left
          rw [step_regs, ha]
          exact hl
        | some a =>
          exact .inr (carried_of_line softReset_any hpath hl (by rw [ha]; rfl))
      · exact .inr ((carried_step hpath hc).resolve_right htaken)

theorem exclusive_of_locked (h : c.Locked) : c.Exclusive e := by
  intro hwrite
  simp only [writesMemory] at hwrite
  cases ha : e.apb with
  | none => simp [ha] at hwrite
  | some a =>
    simp only [ha, Option.bind_some, memoryWrite] at hwrite
    split at hwrite
    · next hen =>
      obtain ⟨hfree, hbusy, -⟩ := Regs.ramEn_allowed (Bool.and_eq_true_iff.mp hen).1
      obtain ⟨phase, hpath⟩ := h.path
      by_contra hactive
      rcases h.locked (.inl (by simpa using hactive)) with hlocked | hc
      · rw [hfree] at hlocked
        cases hlocked
      · have hb : c.ctrl.command.busy = false := hbusy
        rw [hpath.inPhase.busy_eq] at hb
        exact ne_idle_of_carried softReset_any hpath hc (by simpa using hb)
    · cases hwrite

/-- In a run in which no ARM is on its way while an older end or an unlocking soft reset is, no
write reaches the event memory while the engine uses it. -/
theorem writes_exclusive (memory : Memory) {l : List Edges}
    (h : machine.Meets (fun c _ _ => c.Apart) (reset memory) l) :
    machine.Meets (fun c e _ => c.Exclusive e) (reset memory) l := by
  refine Machine.meets_of_invariant (I := Locked) ?_ (locked_reset memory) h
  rintro c e c' hc ⟨⟩ hapart
  exact ⟨locked_step hc hapart, exclusive_of_locked hc⟩

end Core

/-! ## Two runs -/

/-- The two bus cycles of a write: its setup and its access phase. -/
def apbWrite (paddr : BitVec 12) (pwdata : BitVec 32) : List Edges :=
  [⟨some ⟨paddr, true, false, true, pwdata⟩, none⟩, ⟨some ⟨paddr, true, true, true, pwdata⟩, none⟩]

/-- Both clocks tick, and the bus rests. -/
def bothClocks (n : ℕ) : List Edges :=
  List.replicate n ⟨some ⟨0, false, false, false, 0⟩, some false⟩

/-- A pulse from tick 0 to tick `last` is written, armed and, once the engine is ready, started. -/
def startPulse (last : BitVec 32) : List Edges :=
  apbWrite 0x808 1 ++ apbWrite 0x810 last ++ apbWrite addrEventCount 2 ++ apbWrite addrControl 1 ++
    bothClocks 16 ++ apbWrite addrControl 2

/-- The next write waits for the end of the run. -/
def writeAfterEnd : List Edges := startPulse 3 ++ bothClocks 16 ++ apbWrite 0x810 5

/-- The next ARM sets out three ticks before the end of the run. -/
def armBeforeEnd : List Edges :=
  startPulse 10 ++ bothClocks 14 ++ apbWrite addrControl 1 ++ bothClocks 15 ++ apbWrite 0x810 5

theorem writes_exclusive_afterEnd :
    Core.machine.Meets (fun c e _ => c.Exclusive e) (Core.reset fun _ => 0) writeAfterEnd :=
  Core.writes_exclusive _ (by decide +kernel)

/-- The end of the first run unlocks the memory that the second ARM has locked, and the write
changes an event of the armed engine. -/
theorem write_reaches_armed :
    ¬ ∀ (memory : Memory) (l : List Edges),
      Core.machine.Meets (fun c e _ => c.Exclusive e) (Core.reset memory) l := by
  intro h
  exact absurd (h (fun _ => 0) armBeforeEnd) (by decide +kernel)

end QCrate.Sequence
