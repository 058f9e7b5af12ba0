import QCrate.Dsp.ChainWords
import QCrate.Isolation.Captures

/-!
# The words of a capture

A DSP capture from its command to its last word, through the stream engine, the DSP chain and the
commits of the mailbox. The chain is cleared when the command is accepted and again when the capture
starts, and also by a command that comes while the capture runs.

* `Taken` — the words that the capture under way has put out.
* `follows_step` — what a step keeps of a capture that is not disturbed.
* `capture_words` — its words are the first words of the model.
-/

namespace QCrate.Isolation

open QCrate.Lib
open QCrate.Dsp
open QCrate.Dsp.Rtl (FirIp FirIn Pipeline Rom romOf)
open QCrate.Sequence (Memory)
open QCrate.Stream (capturing accepts)

/-! ## An edge of the stream engine -/

section

open QCrate.Stream

variable {i : EngineIn} {s n : Engine}

theorem beforeStart_captureStartPulse : (beforeStart i s).captureStartPulse = false := by
  have hmiss : (missTrigger i s s.noPulses).captureStartPulse = false := by
    unfold missTrigger
    split <;> rfl
  have hstall : ∀ n : Engine, (countStall i s n).captureStartPulse = n.captureStartPulse := by
    intro n
    unfold countStall
    split <;> rfl
  have habort : ∀ n : Engine, (takeAbort i s n).captureStartPulse = n.captureStartPulse := by
    intro n
    unfold takeAbort
    split
    · rfl
    split <;> rfl
  have hbeat : ∀ n : Engine, (acceptBeat i s n).captureStartPulse = n.captureStartPulse := by
    intro n
    unfold acceptBeat stampFirstSample
    repeat' split
    all_goals rfl
  rw [beforeStart, hbeat, habort, hstall, hmiss]

theorem beforeStart_armed (h : (beforeStart i s).armed = true) : s.armed = true := by
  rw [beforeStart, acceptBeat_armed_eq] at h
  have hkept : (countStall i s (missTrigger i s s.noPulses)).armed = s.armed := by
    rw [countStall_armed, missTrigger_armed]
    rfl
  unfold takeAbort at h
  split at h
  · cases h
  split at h
  · exact hkept.symm.trans h
  · exact hkept.symm.trans h

/-- The two links at which a capture begins. -/
theorem startOrTrigger_begins (hsoft : i.softReset = false)
    (h : (startOrTrigger i s (beforeStart i s)).captureStartPulse = true ∨
      (startOrTrigger i s (beforeStart i s)).armed = true) :
    accepts s i = true ∨ s.armed = true := by
  unfold startOrTrigger at h
  split at h
  · next hidle =>
    split at h
    · rcases h with h | h
      · rw [show ({ beforeStart i s with errorPulse := true } : Engine).captureStartPulse =
          (beforeStart i s).captureStartPulse from rfl, beforeStart_captureStartPulse] at h
        cases h
      · exact .inr (beforeStart_armed h)
    · next hvalid =>
      left
      simp only [Bool.and_eq_true, Bool.not_eq_true'] at hidle
      exact accepts_iff.mpr ⟨hsoft, hidle.1, hidle.2, Bool.not_eq_true _ |>.mp hvalid⟩
  · split at h
    · next htrigger =>
      right
      simp only [Bool.and_eq_true] at htrigger
      exact htrigger.1.1
    · rcases h with h | h
      · rw [beforeStart_captureStartPulse] at h
        cases h
      · exact .inr (beforeStart_armed h)

/-- An engine that starts a capture or waits for its trigger took a command at this edge, or was
armed before it. -/
theorem tick_begins (hrst : i.rstN = true)
    (h : (s.tick i).captureStartPulse = true ∨ (s.tick i).armed = true) :
    accepts s i = true ∨ s.armed = true := by
  cases hsoft : i.softReset with
  | true =>
    have htick : s.tick i = s.noPulses.clear := by
      simp [Engine.tick, hrst, hsoft]
    rw [htick] at h
    rcases h with h | h <;> cases h
  | false =>
    rw [tick_eq hrst hsoft] at h
    exact startOrTrigger_begins hsoft h

end

/-! ## The words of the capture under way -/

/-- The words that the capture has put out, and whether no START or ARM_TRIGGERED has come while it
was running. -/
structure Taken where
  words : List (BitVec 32)
  undisturbed : Bool
  deriving DecidableEq, Repr

namespace System

variable {ip : FirIp}

def nextTaken (s : System ip) (e : Edges) (taken : Taken) : Taken :=
  match e.stream with
  | none => taken
  | some i =>
    if accepts s.engine (s.engineIn i) then ⟨[], true⟩
    else
      { words := if s.takesSample i then taken.words ++ [s.pipeline.data] else taken.words
        undisturbed := taken.undisturbed && !(s.engine.busy &&
          (s.stream.stream.pulses.start || s.stream.stream.pulses.armTriggered)) }

/-- The system with the capture under way and its words; any edges can come next. -/
def captureMachine (rom : Rom) : Machine (System ip × Option Held × Taken) Edges where
  step x e := some (x.1.step rom e, x.1.nextHeld rom e x.2.1, x.1.nextTaken e x.2.2)

/-! ## What a step keeps -/

/-- A capture is isolated, has no words before it starts, and while it is not disturbed the chain
carries the words that come next. -/
structure Follows (t : Tables) (s : System ip) (held : Option Held) (taken : Taken) : Prop where
  isolated : Isolated (romOf t) s held
  quiet : s.engine.ArmedQuiet
  none_yet : s.engine.captureStartPulse = true ∨ s.engine.armed = true → taken.words = []
  carries : taken.undisturbed = true → ∀ c, held = some c → ∃ (f : ip.Trace) (issued : ℕ),
    (∀ edges : List FirIn, (∀ j ∈ edges, j.aresetn = true) →
      (edges.foldl FirIp.Trace.step f).Sums t.fir) ∧
    s.pipeline.Carries t (chainRegs c.config) f issued taken.words.length ∧
    taken.words.map BitVec.toNat =
      (List.range taken.words.length).map (wordAt (chainRegs c.config).words t)

variable {t : Tables} {s : System ip} {held : Option Held} {taken : Taken} {e : Edges}
  {i : StreamIn}

theorem takesSample_eq (hclear : s.dspClear = false) :
    s.takesSample i = (s.pipeline.outValid && (s.dspEnable && i.mAxisTready)) := by
  have hvalid : (s.engineIn i).dspTvalid = s.pipeline.outValid := by
    show (s.pipeline.outValid && !s.dspClear) = s.pipeline.outValid
    rw [hclear, Bool.not_false, Bool.and_true]
  have hready : (s.engineIn i).mAxisTready = i.mAxisTready := rfl
  unfold takesSample Stream.axisFire Stream.mAxisTvalid dspEnable
  rw [hvalid, hready]
  by_cases hmode : s.engine.activeStreamMode = 1
  · rw [if_pos hmode, decide_eq_true hmode]
    cases s.engine.busy <;> cases s.pipeline.outValid <;> cases i.mAxisTready <;> rfl
  · rw [decide_eq_false hmode, Bool.and_false, Bool.and_false, Bool.false_and, Bool.and_false]

/-- A cleared chain offers nothing, and neither does an idle engine. -/
theorem takesSample_imp (h : s.takesSample i = true) :
    s.dspClear = false ∧ s.engine.busy = true := by
  unfold takesSample Stream.axisFire Stream.mAxisTvalid at h
  simp only [Bool.and_eq_true, decide_eq_true_eq] at h
  obtain ⟨⟨⟨hbusy, hvalid⟩, -⟩, hmode⟩ := h
  rw [if_pos hmode] at hvalid
  have hvalid' : (s.pipeline.outValid && !s.dspClear) = true := hvalid
  rw [Bool.and_eq_true, Bool.not_eq_true'] at hvalid'
  exact ⟨hvalid'.2, hbusy⟩

/-- A clear resets the core, and the next word is the first one. -/
theorem carries_clear (hip : ip.Exact 1 t.fir) (c : Dsp.Rtl.Regs) (hclear : s.dspClear = true)
    (i : StreamIn) : ∃ (f : ip.Trace) (issued : ℕ),
      (∀ edges : List FirIn, (∀ j ∈ edges, j.aresetn = true) →
        (edges.foldl FirIp.Trace.step f).Sums t.fir) ∧
      (s.pipeline.step (romOf t) c (s.pipelineIn i)).Carries t c f issued 0 := by
  have hin : s.pipelineIn i = ⟨true, true, s.dspEnable, s.dspEnable && i.mAxisTready⟩ := by
    unfold pipelineIn
    rw [hclear]
  obtain ⟨-, hlength, hreset⟩ := Pipeline.cleared_fir (romOf t) c s.pipeline
    [(s.dspEnable, s.dspEnable && i.mAxisTready)]
  rw [hin]
  exact ⟨_, 0, fun edges hedges => hip.sums _ _ edges hlength hreset hedges,
    Pipeline.Carries.cleared t c s.pipeline
      (List.cons_ne_nil (s.dspEnable, s.dspEnable && i.mAxisTready) [])⟩

/-- An edge without a clear. -/
theorem carries_edge (ht : t.fir = firCoefficients) {c : Dsp.Rtl.Regs} {f : ip.Trace}
    {issued : ℕ} {words : List (BitVec 32)} (hclear : s.dspClear = false)
    (hgood : ∀ edges : List FirIn, (∀ j ∈ edges, j.aresetn = true) →
      (edges.foldl FirIp.Trace.step f).Sums t.fir)
    (h : s.pipeline.Carries t c f issued words.length)
    (hwords : words.map BitVec.toNat = (List.range words.length).map (wordAt c.words t))
    (i : StreamIn) :
    let words' := if s.takesSample i then words ++ [s.pipeline.data] else words
    ∃ (f' : ip.Trace) (issued' : ℕ),
      (∀ edges : List FirIn, (∀ j ∈ edges, j.aresetn = true) →
        (edges.foldl FirIp.Trace.step f').Sums t.fir) ∧
      (s.pipeline.step (romOf t) c (s.pipelineIn i)).Carries t c f' issued' words'.length ∧
      words'.map BitVec.toNat = (List.range words'.length).map (wordAt c.words t) := by
  intro words'
  have hin : s.pipelineIn i = ⟨true, false, s.dspEnable, s.dspEnable && i.mAxisTready⟩ := by
    unfold pipelineIn
    rw [hclear]
  have haccepted : s.pipeline.accepted (s.dspEnable && i.mAxisTready) =
      if s.takesSample i then some s.pipeline.data else none := by
    rw [takesSample_eq hclear]
    unfold Pipeline.accepted Pipeline.valid
    rw [Bool.not_false, Bool.and_true]
  obtain ⟨issued', count, hnext, -, hcase⟩ := h.step ht (hgood [] (by simp)) s.dspEnable
    (s.dspEnable && i.mAxisTready)
  have hgood' : ∀ edges : List FirIn, (∀ j ∈ edges, j.aresetn = true) →
      (edges.foldl FirIp.Trace.step (f.step (s.pipeline.firIn
        ⟨true, false, s.dspEnable, s.dspEnable && i.mAxisTready⟩))).Sums t.fir :=
    fun edges hedges => hgood (_ :: edges) fun j hj => by
      rcases List.mem_cons.mp hj with rfl | hj
      · rfl
      · exact hedges j hj
  rw [hin]
  rw [haccepted] at hcase
  refine ⟨_, issued', hgood', ?_⟩
  -- the output takes a word of the chain exactly when it takes a sample
  rcases hcase with ⟨hnone, rfl⟩ | ⟨d, hsome, rfl, hd⟩
  · have hno : s.takesSample i = false := by
      cases htakes : s.takesSample i with
      | false => rfl
      | true =>
        rw [htakes] at hnone
        cases hnone
    have hsame : words' = words := by
      show (if s.takesSample i then words ++ [s.pipeline.data] else words) = words
      rw [hno]
      rfl
    rw [hsame]
    exact ⟨hnext, hwords⟩
  · have htakes : s.takesSample i = true := by
      by_contra hno
      rw [if_neg hno] at hsome
      cases hsome
    rw [if_pos htakes] at hsome
    have hmore : words' = words ++ [d] := by
      show (if s.takesSample i then words ++ [s.pipeline.data] else words) = words ++ [d]
      rw [if_pos htakes, Option.some.inj hsome]
    rw [hmore, List.length_append, List.length_singleton]
    refine ⟨hnext, ?_⟩
    rw [List.map_append, List.map_singleton, hwords, hd, List.range_succ, List.map_append,
      List.map_singleton]

/-- A clear finds a capture that goes on without words, unless it was disturbed. -/
theorem words_of_clear (h : Follows t s held taken) (hclear : s.dspClear = true)
    (hcapturing : capturing s.engine = true)
    (hcalm : (s.engine.busy &&
      (s.stream.stream.pulses.start || s.stream.stream.pulses.armTriggered)) = false)
    (hnext : capturing (s.engine.tick (s.engineIn i)) = true) : taken.words = [] := by
  have hsoft : s.stream.stream.pulses.softReset = false := by
    by_contra hsoft
    rw [tick_softReset rfl (Bool.not_eq_false _ |>.mp hsoft)] at hnext
    cases hnext
  cases hbusy : s.engine.busy with
  | false =>
    rw [capturing, hbusy, Bool.false_or] at hcapturing
    exact h.none_yet (.inr hcapturing)
  | true =>
    rw [hbusy, Bool.true_and] at hcalm
    rw [dspClear, hcalm, hsoft, Bool.false_or, Bool.or_false] at hclear
    exact h.none_yet (.inl hclear)

/-- An edge of the control clock alone takes no word. -/
theorem follows_still (h : Follows t s held taken) (hstream : e.stream = none) :
    Follows t (s.step (romOf t) e) (s.nextHeld (romOf t) e held) (s.nextTaken e taken) := by
  have hengine := step_engine (romOf t) (s := s) (e := e)
  have hpipeline := step_pipeline (romOf t) (s := s) (e := e)
  rw [hstream] at hengine hpipeline
  dsimp only at hengine hpipeline
  have htaken : s.nextTaken e taken = taken := by
    unfold nextTaken
    rw [hstream]
  have hheld : ∀ c, s.nextHeld (romOf t) e held = some c → held = some c := by
    intro c hc
    rw [nextHeld_going _ (by rw [acceptsAt, hstream]; rfl)] at hc
    split at hc
    · exact hc
    · cases hc
  rw [htaken]
  refine ⟨isolated_step (romOf t) h.isolated, hengine ▸ h.quiet, ?_, fun hu c hc => ?_⟩
  · rw [hengine]
    exact h.none_yet
  · rw [hpipeline]
    exact h.carries hu c (hheld c hc)

/-- A new capture has no words yet, and the edge that accepts it clears the chain. -/
theorem follows_accept (hip : ip.Exact 1 t.fir) (h : Follows t s held taken)
    (hstream : e.stream = some i) (haccept : accepts s.engine (s.engineIn i) = true) :
    Follows t (s.step (romOf t) e) (s.nextHeld (romOf t) e held) (s.nextTaken e taken) := by
  have hengine := step_engine (romOf t) (s := s) (e := e)
  have hpipeline := step_pipeline (romOf t) (s := s) (e := e)
  rw [hstream] at hengine hpipeline
  dsimp only at hengine hpipeline
  have htaken : s.nextTaken e taken = ⟨[], true⟩ := by
    unfold nextTaken
    rw [hstream]
    exact if_pos haccept
  have hclear : s.dspClear = true := by
    rw [dspClear, accepts_command haccept]
    rfl
  have hisolated := isolated_step (romOf t) (e := e) h.isolated
  rw [nextHeld_accept _ hstream haccept] at hisolated ⊢
  rw [htaken]
  refine ⟨hisolated, ?_, fun _ => rfl, fun _ c hc => ?_⟩
  · rw [hengine]
    exact Stream.armedQuiet_tick _ h.quiet
  · cases hc
    rw [hpipeline]
    obtain ⟨f, issued, hgood, hcarries⟩ := carries_clear hip (chainRegs s.active) hclear i
    exact ⟨f, issued, hgood, hcarries, rfl⟩

/-- What is taken at an edge that accepts no capture. -/
theorem nextTaken_going (hstream : e.stream = some i)
    (haccept : accepts s.engine (s.engineIn i) = false) : s.nextTaken e taken =
      { words := if s.takesSample i then taken.words ++ [s.pipeline.data] else taken.words
        undisturbed := taken.undisturbed && !(s.engine.busy &&
          (s.stream.stream.pulses.start || s.stream.stream.pulses.armTriggered)) } := by
  unfold nextTaken
  rw [hstream]
  exact if_neg (Bool.eq_false_iff.mp haccept)

theorem nextTaken_words (hstream : e.stream = some i)
    (haccept : accepts s.engine (s.engineIn i) = false) (hno : s.takesSample i = false) :
    (s.nextTaken e taken).words = taken.words := by
  rw [nextTaken_going hstream haccept]
  dsimp only
  rw [hno]
  rfl

/-- The capture that is under way after the edge was accepted before it. Its chain either takes an
edge, or is cleared and has put out nothing. -/
theorem carries_going (ht : t.fir = firCoefficients) (hip : ip.Exact 1 t.fir) {c : Held}
    (h : Follows t s (some c) taken) (hstream : e.stream = some i)
    (haccept : accepts s.engine (s.engineIn i) = false)
    (hnext : capturing (s.step (romOf t) e).engine = true)
    (hu : (s.nextTaken e taken).undisturbed = true) : ∃ (f : ip.Trace) (issued : ℕ),
      (∀ edges : List FirIn, (∀ j ∈ edges, j.aresetn = true) →
        (edges.foldl FirIp.Trace.step f).Sums t.fir) ∧
      (s.step (romOf t) e).pipeline.Carries t (chainRegs c.config) f issued
        (s.nextTaken e taken).words.length ∧
      (s.nextTaken e taken).words.map BitVec.toNat =
        (List.range (s.nextTaken e taken).words.length).map
          (wordAt (chainRegs c.config).words t) := by
  have hengine := step_engine (romOf t) (s := s) (e := e)
  have hpipeline := step_pipeline (romOf t) (s := s) (e := e)
  rw [hstream] at hengine hpipeline
  dsimp only at hengine hpipeline
  rw [nextTaken_going hstream haccept] at hu
  dsimp only at hu
  rw [Bool.and_eq_true, Bool.not_eq_true'] at hu
  obtain ⟨hbefore, hcalm⟩ := hu
  have hcapturing : capturing s.engine = true := h.isolated.capturing
  rw [hengine] at hnext
  rw [hpipeline, h.isolated.active c rfl]
  by_cases hclear : s.dspClear = true
  · have hwords := words_of_clear h hclear hcapturing hcalm hnext
    have hno : s.takesSample i = false := by
      by_contra htakes
      rw [(takesSample_imp (Bool.not_eq_false _ |>.mp htakes)).1] at hclear
      cases hclear
    rw [nextTaken_words hstream haccept hno, hwords]
    obtain ⟨f, issued, hgood, hcarries⟩ := carries_clear hip (chainRegs c.config) hclear i
    exact ⟨f, issued, hgood, hcarries, rfl⟩
  · obtain ⟨f, issued, hgood, hcarries, hwords⟩ := h.carries hbefore c rfl
    rw [nextTaken_going hstream haccept]
    exact carries_edge ht (Bool.not_eq_true _ |>.mp hclear) hgood hcarries hwords i

/-- An edge of the stream clock that accepts no capture. -/
theorem follows_going (ht : t.fir = firCoefficients) (hip : ip.Exact 1 t.fir)
    (h : Follows t s held taken) (hstream : e.stream = some i)
    (haccept : accepts s.engine (s.engineIn i) = false) :
    Follows t (s.step (romOf t) e) (s.nextHeld (romOf t) e held) (s.nextTaken e taken) := by
  have hengine := step_engine (romOf t) (s := s) (e := e)
  rw [hstream] at hengine
  dsimp only at hengine
  refine ⟨isolated_step (romOf t) h.isolated, ?_, fun hbegins => ?_, fun hu c hc => ?_⟩
  · rw [hengine]
    exact Stream.armedQuiet_tick _ h.quiet
  · rw [hengine] at hbegins
    have harmed := (tick_begins rfl hbegins).resolve_left (Bool.eq_false_iff.mp haccept)
    rw [nextTaken_words hstream haccept, h.none_yet (.inr harmed)]
    by_contra htakes
    have hbusy := (takesSample_imp (Bool.not_eq_false _ |>.mp htakes)).2
    rw [h.quiet.notBusy harmed] at hbusy
    cases hbusy
  · rw [nextHeld_going _ (by rw [acceptsAt, hstream]; exact haccept)] at hc
    split at hc
    swap
    · cases hc
    · next hnext =>
      subst hc
      exact carries_going ht hip h hstream haccept hnext hu

theorem follows_step (ht : t.fir = firCoefficients) (hip : ip.Exact 1 t.fir)
    (h : Follows t s held taken) :
    Follows t (s.step (romOf t) e) (s.nextHeld (romOf t) e held) (s.nextTaken e taken) := by
  cases hstream : e.stream with
  | none => exact follows_still h hstream
  | some i =>
    by_cases haccept : accepts s.engine (s.engineIn i) = true
    · exact follows_accept hip h hstream haccept
    · exact follows_going ht hip h hstream (Bool.not_eq_true _ |>.mp haccept)

/-- The words of an undisturbed capture, whatever the buses, the triggers, the clocks and the
consumer do: each word that the output takes of the DSP chain is the next one of the model under
the configuration that the capture was accepted with. -/
theorem capture_words (t : Tables) (ht : t.fir = firCoefficients) (hip : ip.Exact 1 t.fir)
    {memory : Memory} {pipeline : Pipeline ip}
    (h : (captureMachine (romOf t)).Reachable (System.reset memory pipeline, none, ⟨[], true⟩)
      (s, held, taken))
    (hu : taken.undisturbed = true) (htakes : s.takesSample i = true) :
    ∃ c, held = some c ∧ s.engine.captureConfigId = c.config.configId ∧
      ∀ count, taken.words.length < count →
        let words := (chainRegs c.config).words
        let samples := runFixedFrontend words t.sine
          (lfsr16Noise (count * decimation) words.noiseSeed)
        ∃ outputs, runFixedFir (samples.map (·.mixedI)) (samples.map (·.mixedQ)) t.fir =
            .ok outputs ∧
          (taken.words ++ [s.pipeline.data]).map BitVec.toNat =
            (packIqWords outputs).take (taken.words.length + 1) := by
  have hfollows : Follows t s held taken :=
    h.invariant (I := fun x => Follows t x.1 x.2.1 x.2.2)
      ⟨isolated_reset _ memory pipeline, ⟨nofun, nofun⟩, fun _ => rfl, fun _ c hc => by cases hc⟩
      fun x a x' hx hstep => by
        cases hstep
        exact follows_step ht hip hx
  obtain ⟨hclear, hbusy⟩ := takesSample_imp htakes
  have hcapturing : held.isSome = true := by
    rw [← hfollows.isolated.capturing, capturing, hbusy]
    rfl
  obtain ⟨c, rfl⟩ := Option.isSome_iff_exists.mp hcapturing
  refine ⟨c, rfl, hfollows.isolated.captured c rfl, fun count hcount => ?_⟩
  obtain ⟨f, issued, hgood, hcarries, hwords⟩ := hfollows.carries hu c rfl
  have hmore := carries_edge ht hclear hgood hcarries hwords i
  rw [if_pos htakes] at hmore
  obtain ⟨-, -, -, -, hall⟩ := hmore
  obtain ⟨outputs, hrun, hpacked⟩ := Rtl.model_words t (Rtl.Regs.words_inRange (chainRegs c.config))
    (Nat.zero_lt_of_lt hcount) (show taken.words.length + 1 ≤ count from hcount)
  refine ⟨outputs, hrun, ?_⟩
  rw [hall, hpacked, List.length_append, List.length_singleton]

/-! ## The second word of a capture -/

/-- A configuration is committed; then a capture of four samples runs up to its second word. -/
def secondWord : List Edges :=
  let bus (psel : Bool) (paddr : BitVec 12) (pwdata : BitVec 32) : Edges :=
    ⟨some ⟨⟨0, false, false, false, 0⟩, ⟨0, false, false, false, 0⟩,
      ⟨paddr, psel, psel, true, pwdata⟩, 0⟩, some ⟨false, false, true⟩⟩
  let write (paddr : BitVec 12) (pwdata : BitVec 32) : List Edges :=
    [bus true paddr pwdata, bus false 0 0]
  write 0x010 7 ++ write 0x014 0 ++ write 0x018 0x10000000 ++ write 0x000 1 ++
    List.replicate 18 (bus false 0 0) ++ startDsp ++
    List.replicate 31 ⟨none, some ⟨false, false, true⟩⟩

theorem capture_words_secondWord : ∃ s held taken c,
    (captureMachine (romOf Rtl.coreTables)).run
        (System.reset (fun _ => 0) Pipeline.initial, none, ⟨[], true⟩) secondWord =
      some (s, held, taken) ∧
    taken.words.length = 1 ∧ held = some c ∧ c.generation = 1 ∧ s.engine.captureConfigId = 7 ∧
    let words := (chainRegs c.config).words
    let samples := runFixedFrontend words Rtl.coreTables.sine
      (lfsr16Noise (2 * decimation) words.noiseSeed)
    ∃ outputs, runFixedFir (samples.map (·.mixedI)) (samples.map (·.mixedQ))
        Rtl.coreTables.fir = .ok outputs ∧
      (taken.words ++ [s.pipeline.data]).map BitVec.toNat =
        (packIqWords outputs).take (taken.words.length + 1) := by
  have hrun : ((captureMachine (romOf Rtl.coreTables)).run
      (System.reset (fun _ => 0) Pipeline.initial, none, ⟨[], true⟩) secondWord).any (fun x =>
        x.1.takesSample ⟨false, false, true⟩ && x.2.2.undisturbed &&
          decide (x.2.2.words.length = 1 ∧ x.1.engine.captureConfigId = 7 ∧
            x.2.1.all (fun c => c.generation == 1))) = true := by
    decide +kernel
  obtain ⟨⟨s, held, taken⟩, hs, hx⟩ := (Option.any_eq_true _ _).mp hrun
  rw [Bool.and_eq_true, Bool.and_eq_true, decide_eq_true_eq] at hx
  obtain ⟨⟨htakes, hu⟩, hlength, hseven, hgeneration⟩ := hx
  obtain ⟨c, rfl, -, hwords⟩ := capture_words Rtl.coreTables rfl
    (Rtl.promptCore_exact firCoefficients) ⟨_, hs⟩ hu htakes
  have hone : taken.words.length = 1 := hlength
  exact ⟨s, some c, taken, c, hs, hone, rfl, beq_iff_eq.mp hgeneration, hseven,
    hwords 2 (by omega)⟩

end System

end QCrate.Isolation
