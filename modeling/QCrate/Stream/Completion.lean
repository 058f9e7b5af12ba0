import QCrate.Stream.Block

/-!
# The evidence of a completed capture

The driver polls STATUS until the engine is idle, no command is in flight and DONE or ERROR is set,
and then reads the registers of the snapshot. DONE crosses as an event and overtakes the snapshot:
a capture can be over and reported while the snapshot that is shown is older than the capture, and
such a snapshot shows an idle engine, too.

* `Progress` — whether a snapshot taken since a capture began has been delivered.
* `Since` — what that says about the snapshots on their way, and `since_step`.
* `evidence_coherent` — once one has been delivered, a poll that succeeds finds the final evidence.
-/

namespace QCrate.Stream

open QCrate.Lib

/-! ## The poll of the driver -/

def statusBusy : BitVec 32 := 0x1
def statusDone : BitVec 32 := 0x2
def statusError : BitVec 32 := 0x4
def statusCommandBusy : BitVec 32 := 0x100

/-- The condition of `qcrate_wait_complete`. -/
def waitComplete (status : BitVec 32) : Bool :=
  status &&& (statusBusy ||| statusCommandBusy) = 0 && status &&& (statusDone ||| statusError) ≠ 0

theorem waitComplete_packStatus : ∀ commandBusy firstSampleTimeValid triggerSeen armed stalled irq1
    irq0 busy : Bool,
    waitComplete (packStatus commandBusy firstSampleTimeValid triggerSeen armed stalled irq1 irq0
      busy) = (!busy && !commandBusy && (irq0 || irq1)) := by
  decide

/-- What the driver reads of a capture. Missed triggers go on being counted after its end. -/
def Snapshot.evidence (x : Snapshot) : Snapshot := { x with missedTriggerCount := 0 }

/-! ## The engine after a capture has begun -/

section

variable {s : Engine} {i : EngineIn}

theorem tick_armed (h : s.armed = false) (ha : i.armTriggered = false) :
    (s.tick i).armed = false := by
  have hm : (acceptBeat i s (takeAbort i s (countStall i s (missTrigger i s s.noPulses)))).armed =
      false := by
    rw [acceptBeat_armed_eq]
    unfold takeAbort
    split
    · rfl
    · split
      all_goals simp [countStall_armed, missTrigger_armed, Engine.noPulses, h]
  unfold Engine.tick
  split
  · rfl
  split
  · rfl
  unfold startOrTrigger
  split
  · split
    · exact hm
    · exact ha
  · split
    · rfl
    · exact hm

/-- An idle engine that is not asked for anything only counts missed triggers. -/
theorem tick_idle (hb : s.busy = false) (ha : s.armed = false) (hr : i.rstN = true)
    (hs : i.start = false) (ht : i.armTriggered = false) (hreset : i.softReset = false) :
    s.tick i = missTrigger i s s.noPulses := by
  have hv : mAxisTvalid i s = false := mAxisTvalid_of_not_busy hb
  simp [Engine.tick, hr, hreset, startOrTrigger, hs, ht, ha, acceptBeat, axisFire, hv, takeAbort,
    hb, countStall]

theorem evidence_tick_idle (hb : s.busy = false) (ha : s.armed = false) (hr : i.rstN = true)
    (hs : i.start = false) (ht : i.armTriggered = false) (hreset : i.softReset = false) :
    (s.tick i).busy = false ∧ (s.tick i).snapshot.evidence = s.snapshot.evidence := by
  rw [tick_idle hb ha hr hs ht hreset]
  unfold missTrigger
  split
  · exact ⟨hb, rfl⟩
  · exact ⟨hb, rfl⟩

end

namespace Core

/-! ## A capture and its snapshots -/

/-- The engine begins a capture on this edge: it takes START, or an armed engine its trigger. -/
def Begins (c : Core) (e : Edges) : Prop :=
  c.stream.engine.busy = false ∧ (c.step e).stream.engine.busy = true

/-- No START, ARM_TRIGGERED or SOFT_RESET reaches the engine. -/
def Undisturbed (c : Core) (e : Edges) : Prop :=
  e.stream.isSome = true → c.stream.pulses.start = false ∧ c.stream.pulses.armTriggered = false ∧
    c.stream.pulses.softReset = false

instance (c : Core) (e : Edges) : Decidable (c.Undisturbed e) := inferInstanceAs (Decidable (_ → _))

/-- How far the first snapshot that is taken has come. -/
inductive Progress where
  | waiting
  | taken
  | delivered
  deriving DecidableEq, Repr

def Progress.next (c : Core) (e : Edges) : Progress → Progress
  | .waiting => if e.stream.isSome && !c.stream.status.busy then .taken else .waiting
  | .taken => if e.ctrl.isSome && c.ctrl.status.valid then .delivered else .taken
  | .delivered => .delivered

/-- How far the first snapshot taken in a run has come at its end. -/
def progress (p : Progress) : Core → List Edges → Progress
  | _, [] => p
  | c, e :: l => progress (p.next c e) (c.step e) l

/-- A snapshot taken since the capture began: it shows the capture going on, or its final
evidence. -/
def Later (c : Core) (x : Snapshot) : Prop :=
  x.busy = true ∨ c.stream.engine.busy = false ∧ x.evidence = c.stream.engine.snapshot.evidence

/-- What holds since a capture began. -/
structure Since (p : Progress) (c : Core) : Prop where
  armed : c.stream.engine.armed = false
  path : ∃ phase, Handshake.InPhase c.stream.status c.ctrl.status phase ∧
    (p ≠ .waiting → phase.undelivered = true → c.Later c.stream.status.data) ∧
    (p = .delivered → phase.undelivered = true → c.ctrl.shown.busy = false →
      c.stream.status.data.busy = false)
  shown : p = .delivered → c.Later c.ctrl.shown

variable {c : Core} {e : Edges} {p : Progress} {x : Snapshot} {phase : Handshake.Phase}

theorem later_snapshot (c : Core) : c.Later c.stream.engine.snapshot := by
  cases hb : c.stream.engine.busy with
  | true => exact .inl hb
  | false => exact .inr ⟨hb, rfl⟩

theorem step_engine : (c.step e).stream.engine =
    match e.stream with
    | some i => c.stream.engine.tick (c.engineIn i)
    | none => c.stream.engine := by
  unfold step
  cases e.stream <;> rfl

theorem step_status : (c.step e).stream.status =
    Handshake.stepSource c.stream.status c.ctrl.status (e.stream.map fun _ => c.statusRequest) := by
  unfold step
  cases e.stream <;> rfl

theorem step_ctrlStatus : (c.step e).ctrl.status =
    Handshake.stepDest c.stream.status c.ctrl.status (e.ctrl.map fun _ => true) := by
  unfold step
  cases e.ctrl <;> rfl

theorem step_shown : (c.step e).ctrl.shown =
    if e.ctrl.isSome && c.ctrl.status.valid then c.ctrl.status.data else c.ctrl.shown := by
  unfold step
  cases e.ctrl <;> rfl

theorem later_step (harmed : c.stream.engine.armed = false) (hquiet : c.Undisturbed e)
    (h : c.Later x) : (c.step e).Later x := by
  rcases h with hbusy | ⟨hidle, hx⟩
  · exact .inl hbusy
  · right
    rw [step_engine]
    cases he : e.stream with
    | none => exact ⟨hidle, hx⟩
    | some i =>
      obtain ⟨hs, ht, hr⟩ := hquiet (by rw [he]; rfl)
      obtain ⟨hb, hev⟩ := evidence_tick_idle (i := c.engineIn i) hidle harmed rfl hs ht hr
      exact ⟨hb, hx.trans hev.symm⟩

/-- What is shown after a step in which the first snapshot arrives or has arrived. -/
theorem shown_of_next (hphase : Handshake.InPhase c.stream.status c.ctrl.status phase)
    (hp : p.next c e = .delivered) :
    (c.step e).ctrl.shown = c.stream.status.data ∧ p ≠ .waiting ∧ phase.undelivered = true ∨
      (c.step e).ctrl.shown = c.ctrl.shown ∧ p = .delivered := by
  rw [step_shown]
  by_cases hd : (e.ctrl.isSome && c.ctrl.status.valid) = true
  · left
    have hvalid := (Bool.and_eq_true_iff.mp hd).2
    rw [if_pos hd]
    refine ⟨hphase.data_of_valid hvalid, ?_, by rw [hphase.valid_iff.mp hvalid]; rfl⟩
    rintro rfl
    simp only [Progress.next] at hp
    split at hp <;> cases hp
  · right
    rw [if_neg hd]
    refine ⟨rfl, ?_⟩
    cases p with
    | waiting =>
      simp only [Progress.next] at hp
      split at hp <;> cases hp
    | taken =>
      simp only [Progress.next, if_neg hd] at hp
      cases hp
    | delivered => rfl

/-- What a later snapshot that shows an idle engine says. -/
theorem later_idle (h : c.Later x) (hidle : x.busy = false) :
    c.stream.engine.busy = false ∧ x.evidence = c.stream.engine.snapshot.evidence := by
  refine h.resolve_left fun hbusy => ?_
  rw [hidle] at hbusy
  cases hbusy

/-- One step keeps what holds since a capture began. -/
theorem since_step (h : Since p c) (hquiet : c.Undisturbed e) :
    Since (p.next c e) (c.step e) := by
  obtain ⟨phase, hphase, hdata, horder⟩ := h.path
  have hstep : ∀ {x}, c.Later x → (c.step e).Later x := later_step h.armed hquiet
  refine ⟨?_, ?_, fun hp => ?_⟩
  · rw [step_engine]
    cases he : e.stream with
    | none => exact h.armed
    | some i => exact tick_armed h.armed (hquiet (by rw [he]; rfl)).2.1
  · rw [step_status, step_ctrlStatus]
    by_cases hidle : phase = .idle
    · -- nothing was on its way, so what is on its way now has just been taken
      subst hidle
      have htaken : (Handshake.Phase.next (e.stream.map fun _ => c.statusRequest).isSome
          ((e.stream.map fun _ => c.statusRequest).any (·.isSome)) (e.ctrl.map fun _ => true)
            .idle).undelivered = true →
          (Handshake.stepSource c.stream.status c.ctrl.status
            (e.stream.map fun _ => c.statusRequest)).data = c.stream.engine.snapshot := by
        intro hun
        rcases Handshake.Phase.undelivered_of_next hun with hun' | ⟨-, hs, -⟩
        · cases hun'
        · cases he : e.stream with
          | none => simp [he] at hs
          | some i =>
            have hrequest : c.statusRequest = some c.stream.engine.snapshot := by
              simp [statusRequest, hphase.busy_eq]
            rw [Option.map_some, hrequest, Handshake.stepSource_data_of_idle hphase]
      refine ⟨_, Handshake.inPhase_step hphase _ _, fun _ hun => ?_, fun hp hun hshown => ?_⟩
      · rw [htaken hun]
        exact hstep (later_snapshot c)
      · rw [htaken hun]
        rcases shown_of_next hphase hp with ⟨-, -, hun'⟩ | ⟨hsame, rfl⟩
        · cases hun'
        · rw [hsame] at hshown
          exact (later_idle (h.shown rfl) hshown).1
    -- the snapshot on its way is the one that was taken before
    · have hbusy : c.stream.status.busy = true := by simp [hphase.busy_eq, hidle]
      rw [Handshake.stepSource_data_of_ne hphase hidle]
      refine ⟨_, Handshake.inPhase_step hphase _ _, fun hp hun => ?_, fun hp hun hshown => ?_⟩
      · refine hstep (hdata ?_ ?_)
        · rintro rfl
          simp [Progress.next, hbusy] at hp
        · exact (Handshake.Phase.undelivered_of_next hun).resolve_right fun h0 => hidle h0.1
      · rcases shown_of_next hphase hp with ⟨hnew, -⟩ | ⟨hsame, hdelivered⟩
        · rwa [hnew] at hshown
        · rw [hsame] at hshown
          exact horder hdelivered ((Handshake.Phase.undelivered_of_next hun).resolve_right
            fun h0 => hidle h0.1) hshown
  · rcases shown_of_next hphase hp with ⟨hnew, hp', hun⟩ | ⟨hsame, hp'⟩
    · rw [hnew]
      exact hstep (hdata hp' hun)
    · rw [hsame]
      exact hstep (h.shown hp')

theorem since_run : ∀ {l : List Edges} {c c' : Core} {p : Progress}, Since p c →
    machine.Meets (fun c e _ => c.Undisturbed e) c l → machine.run c l = some c' →
    Since (progress p c l) c'
  | [], c, c', p, h, _, hrun => by
    cases hrun
    exact h
  | e :: l, c, c', p, h, hquiet, hrun => by
    obtain ⟨hq, hrest⟩ := hquiet _ rfl
    have hrun' : machine.run (c.step e) l = some c' := hrun
    have hend := since_run (since_step h hq) hrest hrun'
    exact hend

/-- The states of a reset core keep ARMED and BUSY apart. -/
theorem armedQuiet_of_reachable (h : machine.Reachable reset c) : c.stream.engine.ArmedQuiet := by
  refine h.invariant (I := fun c => c.stream.engine.ArmedQuiet)
    ⟨fun ha => absurd ha Bool.false_ne_true, fun ha => absurd ha Bool.false_ne_true⟩ ?_
  rintro c e c' hq ⟨⟩
  rw [step_engine]
  cases e.stream with
  | none => exact hq
  | some i => exact armedQuiet_tick _ hq

theorem exists_inPhase_of_reachable (h : machine.Reachable reset c) :
    ∃ phase, Handshake.InPhase c.stream.status c.ctrl.status phase := by
  refine h.invariant (I := fun c => ∃ phase, Handshake.InPhase c.stream.status c.ctrl.status phase)
    ⟨.idle, Handshake.inPhase_reset _ _⟩ ?_
  rintro c e c' ⟨phase, hphase⟩ ⟨⟩
  rw [step_status, step_ctrlStatus]
  exact ⟨_, Handshake.inPhase_step hphase _ _⟩

/-- A capture has just begun. -/
theorem since_begins (h : machine.Reachable reset c) (hb : c.Begins e) :
    Since .waiting (c.step e) := by
  have hr : machine.Reachable reset (c.step e) := by
    obtain ⟨l, hl⟩ := h
    exact ⟨l ++ [e], by rw [Machine.run_append, hl]; rfl⟩
  obtain ⟨phase, hphase⟩ := exists_inPhase_of_reachable hr
  refine ⟨?_, ⟨phase, hphase, fun hp => absurd rfl hp, fun hp => nomatch hp⟩,
    fun hp => nomatch hp⟩
  by_contra ha
  have hbusy := (armedQuiet_of_reachable hr).notBusy (by simpa using ha)
  rw [hb.2] at hbusy
  cases hbusy

/-- Snapshots arrive in the order in which they were taken, so an idle one is not followed by a
busy one. -/
theorem shown_idle_step (h : Since .delivered c) (hidle : c.ctrl.shown.busy = false) :
    (c.step e).ctrl.shown.busy = false := by
  obtain ⟨phase, hphase, -, horder⟩ := h.path
  rcases shown_of_next (e := e) (p := .delivered) hphase rfl with ⟨hnew, -, hun⟩ | ⟨hsame, -⟩
  · rw [hnew]
    exact horder rfl hun hidle
  · rw [hsame]
    exact hidle

theorem shown_idle_run : ∀ {l : List Edges} {c c' : Core}, Since .delivered c →
    c.ctrl.shown.busy = false → machine.Meets (fun c e _ => c.Undisturbed e) c l →
    machine.run c l = some c' → Since .delivered c' ∧ c'.ctrl.shown.busy = false
  | [], c, c', h, hidle, _, hrun => by
    cases hrun
    exact ⟨h, hidle⟩
  | e :: l, c, c', h, hidle, hquiet, hrun => by
    obtain ⟨hq, hrest⟩ := hquiet (c.step e) rfl
    have hrun' : machine.run (c.step e) l = some c' := hrun
    exact shown_idle_run (since_step h hq) (shown_idle_step h hidle) hrest hrun'

theorem shown_idle_of_poll (h : waitComplete c.status = true) : c.ctrl.shown.busy = false := by
  unfold status statusWord at h
  rw [waitComplete_packStatus] at h
  simp only [Bool.and_eq_true, Bool.not_eq_true'] at h
  exact h.1.1

/-- A run without another command leaves the evidence of a finished capture alone. -/
theorem evidence_run : ∀ {l : List Edges} {c c' : Core}, c.stream.engine.busy = false →
    c.stream.engine.armed = false → machine.Meets (fun c e _ => c.Undisturbed e) c l →
    machine.run c l = some c' →
    c'.stream.engine.busy = false ∧
      c'.stream.engine.snapshot.evidence = c.stream.engine.snapshot.evidence
  | [], c, c', hb, _, _, hrun => by
    cases hrun
    exact ⟨hb, rfl⟩
  | e :: l, c, c', hb, ha, hquiet, hrun => by
    obtain ⟨hq, hrest⟩ := hquiet (c.step e) rfl
    have hrun' : machine.run (c.step e) l = some c' := hrun
    have hstep : (c.step e).stream.engine.busy = false ∧
        (c.step e).stream.engine.armed = false ∧
        (c.step e).stream.engine.snapshot.evidence = c.stream.engine.snapshot.evidence := by
      rw [step_engine]
      cases he : e.stream with
      | none => exact ⟨hb, ha, rfl⟩
      | some i =>
        obtain ⟨hs, ht, hr⟩ := hq (by rw [he]; rfl)
        obtain ⟨hb', hev⟩ := evidence_tick_idle (i := c.engineIn i) hb ha rfl hs ht hr
        exact ⟨hb', tick_armed ha ht, hev⟩
    obtain ⟨hb', hev⟩ := evidence_run hstep.1 hstep.2.1 hrest hrun'
    exact ⟨hb', hev.trans hstep.2.2⟩

/-- When a snapshot taken since the capture began has been delivered, a poll that succeeds means
that the capture is over, and every later read finds its final evidence. -/
theorem evidence_coherent {c₀ c' : Core} {l l' : List Edges} (h₀ : machine.Reachable reset c₀)
    (hbegins : c₀.Begins e)
    (hquiet : machine.Meets (fun c e _ => c.Undisturbed e) (c₀.step e) (l ++ l'))
    (hrun : machine.run (c₀.step e) l = some c) (hrun' : machine.run c l' = some c')
    (hdelivered : progress .waiting (c₀.step e) l = .delivered)
    (hpoll : waitComplete c.status = true) :
    c.stream.engine.busy = false ∧ c'.ctrl.shown.evidence = c.stream.engine.snapshot.evidence := by
  obtain ⟨hq, hq'⟩ := hquiet.append hrun
  have hsince := since_run (since_begins h₀ hbegins) hq hrun
  rw [hdelivered] at hsince
  have hshown := shown_idle_of_poll hpoll
  obtain ⟨hidle, -⟩ := later_idle (hsince.shown rfl) hshown
  obtain ⟨hsince', hshown'⟩ := shown_idle_run hsince hshown hq' hrun'
  obtain ⟨-, hfinal⟩ := later_idle (hsince'.shown rfl) hshown'
  obtain ⟨-, hev⟩ := evidence_run hidle hsince.armed hq' hrun'
  exact ⟨hidle, hfinal.trans hev⟩

/-- The state after a run. -/
def after (c : Core) (l : List Edges) : Core := l.foldl step c

theorem run_after : ∀ (c : Core) (l : List Edges), machine.run c l = some (c.after l)
  | _, [] => rfl
  | c, e :: l => run_after (c.step e) l

end Core

/-! ## Two runs -/

def bus (paddr : BitVec 12) (penable pwrite : Bool) (pwdata : BitVec 32) : CtrlIn :=
  ⟨⟨paddr, true, penable, pwrite, pwdata⟩, 0⟩

/-- The two bus cycles of a write: its setup and its access phase. -/
def apbWrite (paddr : BitVec 12) (pwdata : BitVec 32) : List Edges :=
  [⟨some (bus paddr false true pwdata), none⟩, ⟨some (bus paddr true true pwdata), none⟩]

/-- The stream side at time 7 under configuration 9, with a sink that takes every beat. -/
def steady : StreamIn := ⟨false, 0, 7, 9, true, true⟩

/-- Both clocks tick, and the bus is in one phase of a read. -/
def readPhase (paddr : BitVec 12) (penable : Bool) : Edges :=
  ⟨some (bus paddr penable false 0), some steady⟩

/-- Both clocks tick, and the bus rests. -/
def bothClocks (n : ℕ) : List Edges :=
  List.replicate n ⟨some ⟨⟨0, false, false, false, 0⟩, 0⟩, some steady⟩

/-- The interrupts are cleared, one frame of one word is set up, and START reaches the engine. -/
def startOneWord : List Edges :=
  apbWrite Regs.addrIrqClear 3 ++ apbWrite Regs.addrFrameLength 1 ++
    apbWrite Regs.addrFrameCount 1 ++ apbWrite Regs.addrControl 1 ++ bothClocks 5

/-- The engine takes START, and STATUS is read after `n` more ticks. -/
def pollAfter (n : ℕ) : List Edges := bothClocks n ++ [readPhase Regs.addrStatus false]

/-- The read of STATUS ends, and COMPLETED_FRAMES is read. -/
def readFrames : List Edges :=
  [readPhase Regs.addrStatus true, readPhase Regs.addrCompletedFrames false]

namespace Core

theorem evidence_coherent_oneWord :
    let c₁ := (reset.after startOneWord).step (readPhase Regs.addrStatus false)
    (c₁.after (pollAfter 14)).stream.engine.busy = false ∧
      ((c₁.after (pollAfter 14)).after readFrames).ctrl.shown.evidence =
        (c₁.after (pollAfter 14)).stream.engine.snapshot.evidence :=
  evidence_coherent ⟨startOneWord, run_after _ _⟩ (by unfold Begins; decide +kernel)
    (l := pollAfter 14) (by decide +kernel) (run_after _ _) (run_after _ _) (by decide +kernel)
    (by decide +kernel)

/-- The poll succeeds while the snapshot of the idle engine from before the capture is shown, and
COMPLETED_FRAMES still reads zero afterwards. -/
theorem poll_before_snapshot :
    ¬ ∀ (c₀ c c' : Core) (e : Edges) (l l' : List Edges), machine.Reachable reset c₀ →
      c₀.ctrl.irqStatus.extractLsb' 0 2 = 0 → c₀.Begins e →
      machine.Meets (fun c e _ => c.Undisturbed e) (c₀.step e) (l ++ l') →
      machine.run (c₀.step e) l = some c → machine.run c l' = some c' →
      c.stream.engine.busy = false → waitComplete c.status = true →
      c'.ctrl.shown.evidence = c.stream.engine.snapshot.evidence := by
  intro h
  have hstale := h (reset.after startOneWord) _ _ (readPhase Regs.addrStatus false) (pollAfter 8)
    readFrames ⟨startOneWord, run_after _ _⟩ (by decide +kernel) (by unfold Begins; decide +kernel)
    (by decide +kernel) (run_after _ _) (run_after _ _) (by decide +kernel) (by decide +kernel)
  exact absurd hstale (by decide +kernel)

end Core

end QCrate.Stream
