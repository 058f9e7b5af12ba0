import QCrate.Dsp.Frontend
import QCrate.Isolation.System
import QCrate.Stream.Capture

/-!
# A capture keeps its configuration

* `begins_of_accepts`, `tick_idle`, `tick_captureConfigId` — when an edge of the engine begins a
  capture, and the configuration id it captures.
* `commit_step` — what an edge does to the active configuration and its generation.
* `isolated_step`, `configuration_isolated` — the configuration of the capture under way.
-/

namespace QCrate.Isolation

open QCrate.Lib
open QCrate.Dsp.Rtl (FirIp Pipeline Rom)
open QCrate.Mailbox (DspConfig)
open QCrate.Sequence (Memory)
open QCrate.Stream (capturing accepts accepts_iff)

/-! ## An edge of the stream engine -/

section

open QCrate.Stream

variable {i : EngineIn} {s n : Engine}

/-- The links of an edge before `startOrTrigger`. -/
def beforeStart (i : EngineIn) (s : Engine) : Engine :=
  acceptBeat i s (takeAbort i s (countStall i s (missTrigger i s s.noPulses)))

theorem tick_eq (hrst : i.rstN = true) (hsoft : i.softReset = false) :
    s.tick i = startOrTrigger i s (beforeStart i s) := by
  simp [Engine.tick, hrst, hsoft, beforeStart]

theorem tick_softReset (hrst : i.rstN = true) (hsoft : i.softReset = true) :
    capturing (s.tick i) = false := by
  simp [Engine.tick, hrst, hsoft, capturing, Engine.clear]

theorem missTrigger_captureConfigId : (missTrigger i s n).captureConfigId = n.captureConfigId := by
  unfold missTrigger
  split <;> rfl

theorem countStall_captureConfigId : (countStall i s n).captureConfigId = n.captureConfigId := by
  unfold countStall
  split <;> rfl

theorem takeAbort_captureConfigId : (takeAbort i s n).captureConfigId = n.captureConfigId := by
  unfold takeAbort
  split
  · rfl
  split <;> rfl

theorem acceptBeat_captureConfigId : (acceptBeat i s n).captureConfigId = n.captureConfigId := by
  unfold acceptBeat stampFirstSample
  repeat' split
  all_goals rfl

/-- Only a start or a trigger writes the captured id. -/
theorem beforeStart_captureConfigId : (beforeStart i s).captureConfigId = s.captureConfigId := by
  rw [beforeStart, acceptBeat_captureConfigId, takeAbort_captureConfigId,
    countStall_captureConfigId, missTrigger_captureConfigId]
  rfl

theorem missTrigger_capturing : capturing (missTrigger i s n) = capturing n := by
  unfold missTrigger
  split <;> rfl

theorem countStall_capturing : capturing (countStall i s n) = capturing n := by
  unfold countStall
  split <;> rfl

/-- An idle engine has no beat to accept and nothing to abort. -/
theorem beforeStart_idle (h : capturing s = false) : capturing (beforeStart i s) = false := by
  have hidle := h
  rw [capturing, Bool.or_eq_false_iff] at h
  obtain ⟨hbusy, harmed⟩ := h
  have hfire : axisFire i s = false := by
    rw [axisFire, mAxisTvalid_of_not_busy hbusy]
    rfl
  have habort : takeAbort i s (countStall i s (missTrigger i s s.noPulses)) =
      countStall i s (missTrigger i s s.noPulses) := by
    simp [takeAbort, hbusy, harmed]
  rw [beforeStart, acceptBeat, hfire, habort]
  simp only [Bool.false_eq_true, if_false]
  rw [countStall_capturing, missTrigger_capturing]
  exact hidle

/-- An accepted command begins a capture under the configuration of this cycle. -/
theorem begins_of_accepts (hrst : i.rstN = true) (h : accepts s i = true) :
    capturing (s.tick i) = true ∧ (s.tick i).captureConfigId = i.configId := by
  rw [tick_accepts hrst h]
  exact ⟨(accepts_iff.mp h).2.2.1, rfl⟩

/-- Nothing else begins one. -/
theorem tick_idle (hrst : i.rstN = true) (hidle : capturing s = false) (h : accepts s i = false) :
    capturing (s.tick i) = false := by
  cases hsoft : i.softReset with
  | true => exact tick_softReset hrst hsoft
  | false =>
    have hbefore := beforeStart_idle (i := i) hidle
    rw [tick_eq hrst hsoft, startOrTrigger]
    rw [accepts, hsoft, hidle] at h
    rw [capturing, Bool.or_eq_false_iff] at hidle
    rw [hidle.1, hidle.2]
    by_cases hcommand : (i.start || i.armTriggered) = true
    · -- a command that is not accepted only raises the error pulse
      have hbad : ((i.start && i.armTriggered) || !configurationValid i) = true := by
        by_contra hno
        rw [hcommand, Bool.not_eq_true _ |>.mp hno] at h
        exact absurd h (by decide)
      rw [hcommand, hbad]
      exact hbefore
    · rw [Bool.not_eq_true _ |>.mp hcommand]
      exact hbefore

/-- A capture keeps the captured id, except that its trigger captures the id of its cycle. -/
theorem tick_captureConfigId (hrst : i.rstN = true) (h : capturing s = true)
    (hnext : capturing (s.tick i) = true) :
    (s.tick i).captureConfigId = s.captureConfigId ∨ (s.tick i).captureConfigId = i.configId := by
  cases hsoft : i.softReset with
  | true =>
    rw [tick_softReset hrst hsoft] at hnext
    cases hnext
  | false =>
    have hno : (!s.busy && !s.armed && (i.start || i.armTriggered)) = false := by
      rw [← Bool.not_or, show (s.busy || s.armed) = true from h]
      rfl
    rw [tick_eq hrst hsoft, startOrTrigger, hno]
    simp only [Bool.false_eq_true, if_false]
    split
    · right
      rfl
    · left
      exact beforeStart_captureConfigId

end

/-! ## An edge of the mailbox -/

/-- The stream side takes a request whole, with a new generation, when it evaluates it in a safe
cycle; otherwise nothing changes. -/
theorem commit_step (c : Mailbox.Core) (e : Mailbox.Edges) :
    ((c.step e).stream.active = c.stream.active ∧
      (c.step e).stream.generation = c.stream.generation) ∨
    (e.safe = some true ∧ c.stream.state = .evaluate ∧
      (c.step e).stream.active = c.stream.request.data ∧
      (c.step e).stream.generation = c.stream.generation + 1) := by
  cases hsafe : e.safe with
  | none =>
    left
    simp [Mailbox.Core.step, hsafe]
  | some safe =>
    cases hstate : c.stream.state with
    | idle =>
      left
      simp only [Mailbox.Core.step, hsafe, Mailbox.Core.streamEdge, Mailbox.Core.nextState, hstate]
      split <;> exact ⟨rfl, rfl⟩
    | evaluate =>
      cases safe with
      | true =>
        right
        simp [Mailbox.Core.step, hsafe, Mailbox.Core.streamEdge, Mailbox.Core.nextState, hstate]
      | false =>
        left
        simp [Mailbox.Core.step, hsafe, Mailbox.Core.streamEdge, Mailbox.Core.nextState, hstate]
    | waitRequestClear =>
      left
      simp only [Mailbox.Core.step, hsafe, Mailbox.Core.streamEdge, Mailbox.Core.nextState, hstate]
      split <;> exact ⟨rfl, rfl⟩

/-! ## A step of the system -/

namespace System

variable {ip : FirIp} (rom : Rom) {s : System ip} {held : Option Held} {e : Edges} {i : StreamIn}

/-- The capture under way keeps the active configuration and its generation, has captured its id,
and the DSP chain was cleared under it and has seen no other since. -/
structure Isolated (s : System ip) (held : Option Held) : Prop where
  capturing : capturing s.engine = held.isSome
  active : ∀ h, held = some h → s.active = h.config
  generation : ∀ h, held = some h → s.generation = h.generation
  captured : ∀ h, held = some h → s.engine.captureConfigId = h.config.configId
  produced : ∀ h, held = some h → s.pipeline.Produced rom (chainRegs h.config)

theorem isolated_reset (memory : Memory) (pipeline : Pipeline ip) :
    Isolated rom (System.reset memory pipeline) none :=
  ⟨rfl, fun _ h => (Option.some_ne_none _ h.symm).elim,
    fun _ h => (Option.some_ne_none _ h.symm).elim, fun _ h => (Option.some_ne_none _ h.symm).elim,
    fun _ h => (Option.some_ne_none _ h.symm).elim⟩

theorem step_engine : (s.step rom e).engine =
    match e.stream with
    | some i => s.engine.tick (s.engineIn i)
    | none => s.engine := by
  cases h : e.stream <;>
    simp [System.step, System.engine, System.engineIn, Stream.Core.step, Stream.Core.streamEdge, h]

theorem step_pipeline : (s.step rom e).pipeline =
    match e.stream with
    | some i => s.pipeline.step rom (chainRegs s.active) (s.pipelineIn i)
    | none => s.pipeline := rfl

theorem accepts_command (h : accepts s.engine (s.engineIn i) = true) :
    (s.stream.stream.pulses.start || s.stream.stream.pulses.armTriggered) = true :=
  (accepts_iff.mp h).2.2.1

/-- No cycle of a capture is safe, and the cycle of its acceptance is not. -/
theorem not_safe (h : capturing s.engine = true ∨ accepts s.engine (s.engineIn i) = true) :
    s.safeToCommit = false := by
  rcases h with h | h
  · have hno : (!s.engine.busy && !s.engine.armed) = false := by
      rw [← Bool.not_or, show (s.engine.busy || s.engine.armed) = true from h]
      rfl
    rw [safeToCommit, hno]
    rfl
  · have hcommand := accepts_command h
    unfold safeToCommit
    cases hstart : s.stream.stream.pulses.start with
    | true => simp
    | false =>
      rw [hstart, Bool.false_or] at hcommand
      simp [hcommand]

/-- The configuration changes only by a commit in a safe cycle, then whole. -/
theorem step_commits : ((s.step rom e).active = s.active ∧
      (s.step rom e).generation = s.generation) ∨
    (e.stream.isSome = true ∧ s.safeToCommit = true ∧ s.mailbox.stream.state = .evaluate ∧
      (s.step rom e).active = s.mailbox.stream.request.data ∧
      (s.step rom e).generation = s.generation + 1) := by
  rcases commit_step s.mailbox
    ⟨e.ctrl.map (·.mailboxApb), e.stream.map fun _ => s.safeToCommit⟩ with h | ⟨hsafe, h⟩
  · left
    exact h
  · right
    cases hstream : e.stream with
    | none =>
      rw [hstream] at hsafe
      cases hsafe
    | some i =>
      rw [hstream] at hsafe
      exact ⟨rfl, Option.some.inj hsafe, h⟩

theorem step_keeps (h : s.safeToCommit = false) :
    (s.step rom e).active = s.active ∧ (s.step rom e).generation = s.generation :=
  (step_commits rom).resolve_right fun hcommit => by
    rw [h] at hcommit
    cases hcommit.2.1

/-- An accepted command clears the DSP chain at the edge that accepts it. -/
theorem produced_accept (h : accepts s.engine (s.engineIn i) = true) :
    (s.pipeline.step rom (chainRegs s.active) (s.pipelineIn i)).Produced rom
      (chainRegs s.active) := by
  refine Pipeline.Produced.clear _ _ ?_
  change s.dspClear = true
  rw [dspClear, accepts_command h]
  rfl

/-- An edge of the control clock alone moves neither the engine nor the DSP chain. -/
theorem isolated_still (h : Isolated rom s held) (hstream : e.stream = none) :
    Isolated rom (s.step rom e) (s.nextHeld rom e held) := by
  have hengine := step_engine rom (s := s) (e := e)
  have hpipeline := step_pipeline rom (s := s) (e := e)
  rw [hstream] at hengine hpipeline
  dsimp only at hengine hpipeline
  have hkeep := step_commits rom (s := s) (e := e) |>.resolve_right fun hcommit => by
    rw [hstream] at hcommit
    cases hcommit.1
  have hheld : s.nextHeld rom e held = held := by
    unfold nextHeld acceptsAt
    rw [hstream, hengine, h.capturing]
    cases held <;> rfl
  rw [hheld]
  refine ⟨?_, ?_, ?_, ?_, ?_⟩
  · rw [hengine, h.capturing]
  · rw [hkeep.1]
    exact h.active
  · rw [hkeep.2]
    exact h.generation
  · rw [hengine]
    exact h.captured
  · rw [hpipeline]
    exact h.produced

/-- A capture that is accepted has the configuration of this edge. -/
theorem isolated_accept (hstream : e.stream = some i)
    (haccept : accepts s.engine (s.engineIn i) = true) :
    Isolated rom (s.step rom e) (some ⟨s.active, s.generation⟩) := by
  have hengine := step_engine rom (s := s) (e := e)
  have hpipeline := step_pipeline rom (s := s) (e := e)
  rw [hstream] at hengine hpipeline
  dsimp only at hengine hpipeline
  have hkeep := step_keeps rom (e := e) (not_safe (.inr haccept))
  obtain ⟨hbegins, hid⟩ := begins_of_accepts (i := s.engineIn i) rfl haccept
  refine ⟨?_, ?_, ?_, ?_, ?_⟩
  · rw [hengine, hbegins]
    rfl
  · rintro _ ⟨⟩
    exact hkeep.1
  · rintro _ ⟨⟩
    exact hkeep.2
  · rintro _ ⟨⟩
    rw [hengine, hid]
    rfl
  · rintro _ ⟨⟩
    rw [hpipeline]
    exact produced_accept rom haccept

/-- The capture under way keeps its configuration. -/
theorem isolated_going (h : Isolated rom s held) (hstream : e.stream = some i)
    (haccept : accepts s.engine (s.engineIn i) = false)
    (hnext : capturing (s.step rom e).engine = true) : Isolated rom (s.step rom e) held := by
  have hengine := step_engine rom (s := s) (e := e)
  have hpipeline := step_pipeline rom (s := s) (e := e)
  rw [hstream] at hengine hpipeline
  dsimp only at hengine hpipeline
  -- it was under way before this edge
  have hcapturing : capturing s.engine = true := by
    by_contra hidle
    have hstill := tick_idle (i := s.engineIn i) rfl (Bool.not_eq_true _ |>.mp hidle) haccept
    rw [← hengine, hnext] at hstill
    cases hstill
  obtain ⟨hactive, hgeneration⟩ := step_keeps rom (e := e) (not_safe (i := i) (.inl hcapturing))
  refine ⟨?_, ?_, ?_, ?_, ?_⟩
  · rw [hnext, ← h.capturing, hcapturing]
  · intro c hc
    rw [hactive]
    exact h.active c hc
  · intro c hc
    rw [hgeneration]
    exact h.generation c hc
  · intro c hc
    rw [hengine] at hnext ⊢
    rcases tick_captureConfigId (i := s.engineIn i) rfl hcapturing hnext with hid | hid
    · rw [hid]
      exact h.captured c hc
    · rw [hid, ← h.active c hc]
      rfl
  · intro c hc
    rw [hpipeline, h.active c hc]
    exact (h.produced c hc).step _

/-- What is kept of an accepted capture. -/
theorem nextHeld_accept (hstream : e.stream = some i)
    (haccept : accepts s.engine (s.engineIn i) = true) :
    s.nextHeld rom e held = some ⟨s.active, s.generation⟩ := by
  unfold nextHeld acceptsAt
  rw [hstream]
  exact if_pos haccept

/-- Without one the capture under way is kept until it ends. -/
theorem nextHeld_going (haccept : s.acceptsAt e = false) :
    s.nextHeld rom e held = if capturing (s.step rom e).engine = true then held else none :=
  if_neg (Bool.eq_false_iff.mp haccept)

theorem isolated_step (h : Isolated rom s held) :
    Isolated rom (s.step rom e) (s.nextHeld rom e held) := by
  cases hstream : e.stream with
  | none => exact isolated_still rom h hstream
  | some i =>
    by_cases haccept : accepts s.engine (s.engineIn i) = true
    · rw [nextHeld_accept rom hstream haccept]
      exact isolated_accept rom hstream haccept
    · rw [Bool.not_eq_true] at haccept
      rw [nextHeld_going rom (by rw [acceptsAt, hstream]; exact haccept)]
      by_cases hnext : capturing (s.step rom e).engine = true
      · rw [if_pos hnext]
        exact isolated_going rom h hstream haccept hnext
      · rw [if_neg hnext]
        exact ⟨Bool.not_eq_true _ |>.mp hnext, nofun, nofun, nofun, nofun⟩

/-- What a step may do to the configuration: nothing from the acceptance of a capture to its end,
and otherwise a commit of the whole configuration in a safe cycle. -/
structure Commits (s : System ip) (e : Edges) (s' : System ip) : Prop where
  commit : (s'.active = s.active ∧ s'.generation = s.generation) ∨
    (e.stream.isSome = true ∧ s.safeToCommit = true ∧ s.mailbox.stream.state = .evaluate ∧
      s'.active = s.mailbox.stream.request.data ∧ s'.generation = s.generation + 1)
  kept : capturing s.engine = true ∨ s.acceptsAt e = true →
    s'.active = s.active ∧ s'.generation = s.generation

/-- After any edges the capture under way has the configuration of its acceptance and the id of it,
a sample is taken only of a DSP chain that has seen nothing else since it was cleared, and the next
step changes the configuration only by a whole commit in a safe cycle. -/
theorem configuration_isolated {memory : Memory} {pipeline : Pipeline ip} {s' : System ip}
    {held' : Option Held}
    (h : (machine rom).Reachable (System.reset memory pipeline, none) (s, held))
    (hs : (machine rom).step (s, held) e = some (s', held')) :
    Isolated rom s held ∧ Commits s e s' ∧
      ∀ i, e.stream = some i → s.takesSample i = true →
        ∃ c, held = some c ∧ s.engine.captureConfigId = c.config.configId ∧
          s.pipeline.Produced rom (chainRegs c.config) := by
  have hisolated : Isolated rom s held :=
    h.invariant (I := fun x => Isolated rom x.1 x.2) (isolated_reset rom memory pipeline)
      fun x a x' hx hstep => by
        cases hstep
        exact isolated_step rom hx
  cases hs
  refine ⟨hisolated, ⟨step_commits rom, fun hbusy => step_keeps rom ?_⟩, fun i _ htakes => ?_⟩
  · cases hstream : e.stream with
    | none =>
      rw [acceptsAt, hstream] at hbusy
      rcases hbusy with hbusy | hno
      · exact not_safe (i := ⟨false, false, false⟩) (.inl hbusy)
      · cases hno
    | some i =>
      rw [acceptsAt, hstream] at hbusy
      exact not_safe (i := i) hbusy
  · -- a sample leaves only a busy engine
    have hbusy : s.engine.busy = true := by
      simp only [takesSample, Stream.axisFire, Stream.mAxisTvalid, Bool.and_eq_true] at htakes
      exact htakes.1.1.1
    have hcapturing : capturing s.engine = true := by
      rw [capturing, hbusy]
      rfl
    rw [hisolated.capturing] at hcapturing
    obtain ⟨c, hc⟩ := Option.isSome_iff_exists.mp hcapturing
    exact ⟨c, hc, hisolated.captured c hc, hisolated.produced c hc⟩

/-! ## A capture of DSP samples -/

/-- A FIR core that hands every word on at its next edge. -/
def passIp : FirIp where
  State := Bool × BitVec 48
  sReady _ := true
  mValid st := st.1
  mData st := st.2.setWidth 80
  step _ i := if i.aresetn then (i.sValid, i.sData) else (false, 0)

def passPipeline : Pipeline passIp := ⟨Dsp.Rtl.Chain.reset, (false, 0), 0, 0, false⟩

/-- The configuration of four samples of the DSP chain is written, START crosses, and the chain
fills until its first word is there. -/
def startDsp : List Edges :=
  let bus (psel penable : Bool) (paddr : BitVec 12) (pwdata : BitVec 32) : Edges :=
    ⟨some ⟨⟨0, false, false, false, 0⟩, ⟨paddr, psel, penable, true, pwdata⟩,
      ⟨0, false, false, false, 0⟩, 0⟩, some ⟨false, false, true⟩⟩
  [bus true true 0x004 4, bus true true 0x008 1, bus true true 0x00C 1, bus true true 0 1] ++
    List.replicate 18 (bus false false 0 0)

/-- The first sample of a capture, taken under the configuration after reset. -/
theorem configuration_isolated_startDsp :
    ∃ s held, (machine fun _ => 0).run (System.reset (fun _ => 0) passPipeline, none) startDsp =
        some (s, held) ∧
      s.takesSample ⟨false, false, true⟩ = true ∧ Isolated (fun _ => 0) s held ∧
      ∃ c, held = some c ∧ s.engine.captureConfigId = c.config.configId ∧
        s.pipeline.Produced (fun _ => 0) (chainRegs c.config) := by
  have hrun : ((machine fun _ => 0).run (System.reset (fun _ => 0) passPipeline, none)
      startDsp).any (fun x => x.1.takesSample ⟨false, false, true⟩) = true := by
    decide +kernel
  obtain ⟨⟨s, held⟩, hs, htakes⟩ := (Option.any_eq_true _ _).mp hrun
  have h := configuration_isolated _ (e := ⟨none, some ⟨false, false, true⟩⟩) ⟨_, hs⟩ rfl
  exact ⟨s, held, hs, htakes, h.1, h.2.2 _ rfl htakes⟩

end System

end QCrate.Isolation
