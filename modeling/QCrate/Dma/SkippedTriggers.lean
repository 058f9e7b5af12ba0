import QCrate.Dma.Triggered

/-!
# Skipped triggers

The stream engine counts the triggers it misses in a counter that its soft reset clears, and
snapshots of the counter cross to the register MISSED_TRIGGERS. The driver adds the register to
`pool_skipped_triggers` before every soft reset of a pool run, and POOL_STATUS reports the sum of
the two.

* `metered` — the driver beside the counter, the snapshot on its way and the register.
* `Exact` — the register that is read shows the counter, no trigger falls between the read and the
  reset, and a reset clears what was read.
* `skippedTriggers_counted` — in runs of such steps POOL_STATUS reports the missed triggers.
-/

namespace QCrate.Dma

open QCrate.Lib

variable {L : Limits} {s s₁ s' : Sys}

/-! ## What a section accounts for -/

/-- The soft resets of the step that led to the state. -/
def resets (s : Sys) : ℕ := s.control.count controlSoftReset

/-- The account is as it was, and no soft reset has been written. -/
structure SameAccount (s s' : Sys) : Prop where
  configured : s'.pool.configured = s.pool.configured
  skippedTriggers : s'.pool.skippedTriggers = s.pool.skippedTriggers
  resets : resets s' = resets s

/-- The register has been added to the account, and a soft reset has been written. -/
structure Accounted (missed : U32) (s s' : Sys) : Prop where
  configured : s'.pool.configured = s.pool.configured
  skippedTriggers : s'.pool.skippedTriggers = s.pool.skippedTriggers + missed.setWidth 64
  resets : resets s < resets s'

theorem SameAccount.refl (s : Sys) : SameAccount s s := ⟨rfl, rfl, rfl⟩

theorem SameAccount.trans (h : SameAccount s s₁) (h' : SameAccount s₁ s') : SameAccount s s' :=
  ⟨h'.configured.trans h.configured, h'.skippedTriggers.trans h.skippedTriggers,
    h'.resets.trans h.resets⟩

theorem Accounted.trans {missed : U32} (h : Accounted missed s s₁) (h' : SameAccount s₁ s') :
    Accounted missed s s' where
  configured := h'.configured.trans h.configured
  skippedTriggers := h'.skippedTriggers.trans h.skippedTriggers
  resets := h.resets.trans_eq h'.resets.symm

theorem SameAccount.accounted {missed : U32} (h : SameAccount s s₁) (h' : Accounted missed s₁ s') :
    Accounted missed s s' where
  configured := h'.configured.trans h.configured
  skippedTriggers := by rw [h'.skippedTriggers, h.skippedTriggers]
  resets := h.resets.symm.trans_lt h'.resets

/-- Either, with the register read as `missed`. -/
def Accounts (missed : U32) (s s' : Sys) : Prop := SameAccount s s' ∨ Accounted missed s s'

theorem Accounts.trans {missed : U32} (h : Accounts missed s s₁) (h' : SameAccount s₁ s') :
    Accounts missed s s' :=
  h.elim (fun h => .inl (h.trans h')) fun h => .inr (h.trans h')

theorem resets_write (s : Sys) (word : U32) :
    resets (s.write word) = resets s + if word = controlSoftReset then 1 else 0 := by
  unfold resets Sys.write
  rw [List.count_append, List.count_singleton]
  simp

/-- The driver reads the register and resets the engine. -/
theorem accounted_reset (missed : U32) (s : Sys) :
    Accounted missed s ({ s with pool := s.pool.accountMissed missed }.write controlSoftReset) where
  configured := rfl
  skippedTriggers := rfl
  resets := by
    rw [resets_write, if_pos rfl]
    exact Nat.lt_succ_self _

theorem sameAccount_armReturn (caller : ArmCaller) (r : Option Errno) (s : Sys) :
    SameAccount s (armReturn caller r s) := by
  cases caller <;> cases r <;> exact ⟨rfl, rfl, rfl⟩

theorem sameAccount_drainReturn (caller : DrainCaller) (r : Option Errno) (s : Sys) :
    SameAccount s (drainReturn caller r s) := by
  cases caller with
  | arm caller => exact sameAccount_armReturn caller _ s
  | stop => cases r <;> exact ⟨rfl, rfl, rfl⟩

theorem sameAccount_poolDrainLocked (caller : DrainCaller) (dmaDone : Bool) (status : U32)
    (s : Sys) : SameAccount s (poolDrainLocked caller dmaDone status s) := by
  unfold poolDrainLocked
  split
  · exact sameAccount_drainReturn caller none s
  · dsimp only
    split
    · -- ABORT is not a soft reset
      refine ⟨rfl, rfl, ?_⟩
      exact (resets_write s controlAbort).trans (by rw [if_neg (by decide), Nat.add_zero])
    · exact ⟨rfl, rfl, rfl⟩

theorem accounts_drainFinish (caller : DrainCaller) (seen : Bool) (hw : DrainAnswer) (s : Sys) :
    Accounts hw.missed s (drainFinish caller seen hw s) := by
  unfold drainFinish
  have hseen : SameAccount s
      (if seen then { s with poolEvents := { s.poolEvents with dmaDone := false } } else s) := by
    split <;> exact ⟨rfl, rfl, rfl⟩
  dsimp only
  generalize (if seen then { s with poolEvents := { s.poolEvents with dmaDone := false } } else s)
    = s₁ at hseen ⊢
  split
  · exact .inl (hseen.trans (sameAccount_drainReturn caller _ s₁))
  · split
    · exact .inl (hseen.trans (sameAccount_drainReturn caller _ s₁))
    · have hreset := hseen.accounted (accounted_reset hw.missed s₁)
      split
      · exact .inr (hreset.trans (sameAccount_drainReturn caller _ _))
      · refine .inr (hreset.trans (SameAccount.trans ?_ (sameAccount_drainReturn caller none _)))
        exact ⟨rfl, rfl, rfl⟩

theorem accounts_poolArmBankLocked (caller : ArmCaller) (index : ℕ) (hw : ArmAnswer) (s : Sys) :
    Accounts hw.missed s (poolArmBankLocked caller index hw s) := by
  unfold poolArmBankLocked
  split
  · exact .inl (sameAccount_armReturn caller _ s)
  · have hreset := accounted_reset hw.missed s
    dsimp only
    split
    · exact .inr (hreset.trans (sameAccount_armReturn caller _ _))
    · right
      generalize { s with pool := s.pool.accountMissed hw.missed }.write controlSoftReset = s₁
        at hreset ⊢
      have hzero : ∀ s₁ : Sys, resets (s₁.write 0) = resets s₁ := fun s₁ =>
        (resets_write s₁ 0).trans (by rw [if_neg (by decide), Nat.add_zero])
      split
      · -- the engine is reset once more
        next e submitted _ =>
        refine Accounted.trans ?_ (sameAccount_armReturn caller _ _)
        refine ⟨?_, ?_, ?_⟩
        · cases submitted <;> exact hreset.configured
        · cases submitted <;> exact hreset.skippedTriggers
        · have hmore : resets s₁ < resets (s₁.write 0 |>.write controlSoftReset) := by
            rw [resets_write, if_pos rfl, hzero]
            exact Nat.lt_succ_self _
          have hless := hreset.resets.trans hmore
          cases submitted <;> exact hless
      · refine ⟨hreset.configured, hreset.skippedTriggers, ?_⟩
        refine hreset.resets.trans_eq ?_
        have harm := resets_write (s₁.write 0) controlArmTriggered
        rw [if_neg (by decide), Nat.add_zero, hzero] at harm
        exact harm.symm

theorem accounts_poolFinalizeLocked (hw : FinalizeAnswer) (s : Sys) :
    Accounts hw.missed s (poolFinalizeLocked hw s).2 := by
  have hfailed : ∀ result : PoolDequeue, Accounted hw.missed s ({ s with
      pool := ((s.pool.spoil result).accountMissed hw.missed).abandon }.write controlSoftReset) :=
    fun result => ⟨rfl, rfl, (accounted_reset hw.missed s).resets⟩
  unfold poolFinalizeLocked
  dsimp only
  split
  · exact .inl (SameAccount.refl s)
  · split
    · exact .inr (hfailed _)
    · split
      · split
        · exact .inr ⟨rfl, rfl, (accounted_reset hw.missed s).resets⟩
        · exact .inr (hfailed _)
      · exact .inr (hfailed _)

theorem accounts_workerStop (dmaDone : Bool) (status missed resetStatus : U32) (s : Sys) :
    Accounts missed s (workerStop dmaDone status missed resetStatus s) := by
  have hstopped : SameAccount s { s with pool := { s.pool with running := false } } :=
    ⟨rfl, rfl, rfl⟩
  unfold workerStop
  dsimp only
  split
  · exact .inl (hstopped.trans (sameAccount_poolDrainLocked .stop dmaDone status _))
  · split
    · have hreset := hstopped.accounted (accounted_reset missed _)
      exact .inr (hreset.trans (sameAccount_drainReturn .stop _ _))
    · exact .inl (hstopped.trans (sameAccount_drainReturn .stop none _))

theorem accounts_workerRun (dmaDone : Bool) (hw : FinalizeAnswer) (s : Sys) :
    Accounts hw.missed s (workerRun dmaDone hw s) := by
  unfold workerRun
  split
  · have hfinalize := accounts_poolFinalizeLocked hw s
    dsimp only
    generalize poolFinalizeLocked hw s = result at hfinalize
    obtain ⟨r, s₁⟩ := result
    refine hfinalize.trans ?_
    cases r <;> exact ⟨rfl, rfl, rfl⟩
  · exact .inl ⟨rfl, rfl, rfl⟩

theorem accounts_workerArmNext (hw : ArmAnswer) (s : Sys) :
    Accounts hw.missed s (workerArmNext hw s) := by
  unfold workerArmNext
  split
  · split
    · exact accounts_poolArmBankLocked .worker _ hw s
    · refine .inl ?_
      dsimp only
      split <;> exact ⟨rfl, rfl, rfl⟩
  · exact .inl ⟨rfl, rfl, rfl⟩

/-! ## Steps of a pool run -/

/-- The sections of the pool worker, of the DMA callback and of the POOL ioctls of a run. -/
def Action.inPoolRun : Action → Bool
  | .dmaComplete _ _ | .refused _ _ | .poolArmPolled _ _ | .drainWake | .drainFinish _
  | .workerFetch | .workerStop _ _ _ | .workerRun _ | .workerArmNext _ | .poolDequeue _ _ _
  | .poolRelease _ | .poolReleaseWake _ | .poolStop _ | .poolStopWake _ | .poolStopFinish => true
  | _ => false

/-- What the section finds in the register, when it reads it. -/
def Action.missedRead : Action → Option U32
  | .drainFinish hw => some hw.missed
  | .workerStop _ missed _ => some missed
  | .workerRun hw => some hw.missed
  | .workerArmNext hw => some hw.missed
  | _ => none

theorem sameAccount_poolDequeue (timeoutMs : U32) (outcome : WaitOutcome) (status : U32) (s : Sys) :
    SameAccount s (poolDequeue timeoutMs outcome status s) := by
  unfold poolDequeue
  split
  · exact ⟨rfl, rfl, rfl⟩
  split
  · exact ⟨rfl, rfl, rfl⟩
  split
  · exact ⟨rfl, rfl, rfl⟩
  split <;> exact ⟨rfl, rfl, rfl⟩

theorem sameAccount_poolReleaseBank (release : PoolRelease) (s : Sys) :
    SameAccount s (poolReleaseBank release s) := by
  unfold poolReleaseBank
  dsimp only
  split
  · exact ⟨rfl, rfl, rfl⟩
  split
  · exact ⟨rfl, rfl, rfl⟩
  split <;> exact ⟨rfl, rfl, rfl⟩

theorem sameAccount_poolStop (stop : PoolStop) (s : Sys) : SameAccount s (poolStop stop s) := by
  unfold poolStop poolStopRequest
  split
  · exact ⟨rfl, rfl, rfl⟩
  split
  · exact ⟨rfl, rfl, rfl⟩
  · next hrequest =>
    split at hrequest
    · cases hrequest
    split at hrequest
    · cases hrequest
    cases hrequest
    exact ⟨rfl, rfl, rfl⟩

/-- A step of a pool run that resets the engine has added the register to the account. -/
theorem accounts_step {a : Action} (ha : a.inPoolRun = true) (h : step L s a = some s') :
    SameAccount s.quiet s' ∨
      ∃ missed, a.missedRead = some missed ∧ Accounted missed s.quiet s' := by
  have hread : ∀ {missed : U32} {s' : Sys}, a.missedRead = some missed →
      Accounts missed s.quiet s' → SameAccount s.quiet s' ∨
        ∃ missed, a.missedRead = some missed ∧ Accounted missed s.quiet s' :=
    fun hmissed haccounts => haccounts.imp_right fun h => ⟨_, hmissed, h⟩
  cases step_fires h with
  | dmaComplete h =>
    left
    unfold dmaComplete at h
    split at h
    · cases h
    · dsimp only at h
      split at h <;> cases h <;> exact ⟨rfl, rfl, rfl⟩
  | refused => exact .inl ⟨rfl, rfl, rfl⟩
  | @poolArmPolled status drainStatus caller hl =>
    left
    unfold poolArmPolled
    split
    · have hstarved : SameAccount s.quiet
          { s.quiet with pool := { s.quiet.pool with starved := false } } := ⟨rfl, rfl, rfl⟩
      exact hstarved.trans (sameAccount_armReturn caller none _)
    · exact sameAccount_poolDrainLocked (.arm caller) false drainStatus _
  | @drainWake caller hl =>
    left
    unfold drainWake
    split
    · exact ⟨rfl, rfl, rfl⟩
    · exact sameAccount_drainReturn caller _ _
  -- the actions that can arm a bank read the register before the soft reset
  | @drainFinish hw caller seen hl => exact hread rfl (accounts_drainFinish caller seen hw _)
  | workerFetch => exact .inl ⟨rfl, rfl, rfl⟩
  | workerStop => exact hread rfl (accounts_workerStop _ _ _ _ _)
  | workerRun => exact hread rfl (accounts_workerRun _ _ _)
  | workerArmNext => exact hread rfl (accounts_workerArmNext _ _)
  | poolDequeue => exact .inl (sameAccount_poolDequeue _ _ _ _)
  | poolRelease => exact .inl (sameAccount_poolReleaseBank _ _)
  | @poolReleaseWake outcome => cases outcome <;> exact .inl ⟨rfl, rfl, rfl⟩
  | poolStop => exact .inl (sameAccount_poolStop _ _)
  | @poolStopWake outcome => cases outcome <;> exact .inl ⟨rfl, rfl, rfl⟩
  | poolStopFinish => exact .inl ⟨rfl, rfl, rfl⟩
  | _ => cases ha

/-! ## The counter of the stream engine -/

/-- The counter of the stream engine and the register that the driver reads. -/
structure Meter where
  /-- `missed_trigger_count_o` of the engine -/
  missed : ℕ
  /-- the snapshot of it that is crossing to the control clock -/
  sample : Option ℕ
  /-- what MISSED_TRIGGERS shows -/
  shown : ℕ
  /-- the triggers that the engine has counted as missed since POOL_START reset it -/
  counted : ℕ
  deriving DecidableEq, Repr

inductive MeterEvent where
  /-- a shot trigger, which the engine counts as missed unless it is armed -/
  | shotTrigger (armed : Bool)
  /-- the counter is sampled, unless a snapshot is crossing -/
  | sample
  /-- the snapshot reaches the register -/
  | arrive
  deriving DecidableEq, Repr

def Meter.next (m : Meter) : MeterEvent → Meter
  | .shotTrigger armed =>
    if armed then m else { m with missed := (m.missed + 1) % 2 ^ 32, counted := m.counted + 1 }
  | .sample => { m with sample := some (m.sample.getD m.missed) }
  | .arrive => { m with shown := m.sample.getD m.shown, sample := none }

def Meter.after (m : Meter) (events : List MeterEvent) : Meter := events.foldl Meter.next m

/-- A soft reset: what has happened since the driver read the register or wrote the soft reset
before, and whether this one has reached the engine. -/
structure SoftReset where
  events : List MeterEvent
  cleared : Bool
  deriving DecidableEq, Repr

/-- The register is not cleared with the counter: it waits for the next snapshot. -/
def SoftReset.after (m : Meter) (r : SoftReset) : Meter :=
  if r.cleared then { m.after r.events with missed := 0 } else m.after r.events

/-- The driver beside the meter. -/
structure Metered where
  sys : Sys
  meter : Meter

/-- `skipped_triggers` of `qcrate_pool_get_status_locked` -/
def Metered.skippedTriggers (m : Metered) : U64 :=
  m.sys.pool.skippedTriggers +
    if m.sys.pool.configured then BitVec.ofNat 64 m.meter.shown else 0

inductive MeterAction where
  | event (e : MeterEvent)
  /-- POOL_START up to the poll of its first bank: its soft reset, what happens until the first arm
  reads the register, and the soft reset of that arm -/
  | poolStart (request : PoolStart) (resetStatus : U32) (hw : ArmAnswer) (first : SoftReset)
      (events : List MeterEvent) (second : SoftReset)
  /-- a step of the driver with the soft resets it writes -/
  | driver (a : Action) (softResets : List SoftReset)
  | poolStatus
  deriving DecidableEq, Repr

/-- The meter when the first arm of POOL_START reads the register. -/
def Meter.atFirstArm (m : Meter) (first : SoftReset) (events : List MeterEvent) : Meter :=
  Meter.after { first.after m with counted := 0 } events

/-- A section reads what the register shows. POOL_STATUS waits for the lock. -/
def meterStep (L : Limits) (m : Metered) : MeterAction → Option Metered
  | .event e => some { m with meter := m.meter.next e }
  | .poolStart request resetStatus hw first events second =>
    if hw.missed.toNat = (m.meter.atFirstArm first events).shown then
      (step L m.sys (.poolStart request resetStatus hw)).bind fun s =>
        if s.lock = some (.poolArmPoll .start) then
          some ⟨s, second.after (m.meter.atFirstArm first events)⟩
        else none
    else none
  | .driver a softResets =>
    if a.inPoolRun = true ∧ a.missedRead.all (·.toNat = m.meter.shown) = true then
      (step L m.sys a).bind fun s =>
        if softResets.length = resets s then some ⟨s, softResets.foldl SoftReset.after m.meter⟩
        else none
    else none
  | .poolStatus => if m.sys.lock = none then some m else none

/-- Pool runs on a device with limits `L`, and its stream engine. -/
def metered (L : Limits) : Machine Metered MeterAction where
  step := meterStep L

/-! ## Exact steps -/

/-- The triggers among these events that an engine that is not armed counts. -/
def triggers (events : List MeterEvent) : ℕ := events.count (.shotTrigger false)

/-- The soft resets up to the last one that clears find no trigger to erase. -/
def Lossless : List SoftReset → Prop
  | [] => True
  | r :: rest =>
    (r.cleared = true ∨ rest.any (·.cleared) = true → triggers r.events = 0) ∧ Lossless rest

instance losslessDecidable : (softResets : List SoftReset) → Decidable (Lossless softResets)
  | [] => isTrue trivial
  | _ :: rest =>
    have := losslessDecidable rest
    inferInstanceAs (Decidable (_ ∧ _))

/-- The counter does not wrap, and a section that writes soft resets has read a register that shows
the counter, erases no trigger that it has not read, and erases what it has read. -/
structure Meter.ExactResets (m : Meter) (softResets : List SoftReset) : Prop where
  noWrap : m.missed + (softResets.map (triggers ·.events)).sum < 2 ^ 32
  fresh : softResets = [] ∨ m.shown = m.missed
  lossless : Lossless softResets
  erased : softResets = [] ∨ m.missed = 0 ∨ softResets.any (·.cleared) = true

instance (m : Meter) (softResets : List SoftReset) : Decidable (m.ExactResets softResets) :=
  decidable_of_iff (m.missed + (softResets.map (triggers ·.events)).sum < 2 ^ 32 ∧
      (softResets = [] ∨ m.shown = m.missed) ∧ Lossless softResets ∧
        (softResets = [] ∨ m.missed = 0 ∨ softResets.any (·.cleared) = true))
    ⟨fun ⟨h₁, h₂, h₃, h₄⟩ => ⟨h₁, h₂, h₃, h₄⟩, fun ⟨h₁, h₂, h₃, h₄⟩ => ⟨h₁, h₂, h₃, h₄⟩⟩

/-- The steps that keep the account: besides, the soft reset of POOL_START reaches the engine, and
POOL_STATUS reads a register that shows the counter. -/
def Exact (m : Metered) (a : MeterAction) (_ : Metered) : Prop :=
  match a with
  | .event e => e = .shotTrigger false → m.meter.missed + 1 < 2 ^ 32
  | .poolStart _ _ _ first events second =>
    first.cleared = true ∧ triggers events < 2 ^ 32 ∧
      (m.meter.atFirstArm first events).ExactResets [second]
  | .driver _ softResets => m.meter.ExactResets softResets
  | .poolStatus => m.meter.shown = m.meter.missed

instance (m : Metered) (a : MeterAction) (m' : Metered) : Decidable (Exact m a m') :=
  match a with
  | .event _ => inferInstanceAs (Decidable (_ → _))
  | .poolStart _ _ _ _ _ _ => inferInstanceAs (Decidable (_ ∧ _ ∧ _))
  | .driver _ _ => inferInstanceAs (Decidable (Meter.ExactResets _ _))
  | .poolStatus => inferInstanceAs (Decidable (_ = _))

/-- POOL_STATUS reports the triggers that the engine has counted. -/
def Reported (m : Metered) (a : MeterAction) (_ : Metered) : Prop :=
  a = .poolStatus → m.skippedTriggers = BitVec.ofNat 64 m.meter.counted

/-- What has been added up and what the engine counts are the triggers of the run. -/
def Metered.Counted (m : Metered) : Prop :=
  m.sys.pool.configured = true ∧
    m.sys.pool.skippedTriggers + BitVec.ofNat 64 m.meter.missed = BitVec.ofNat 64 m.meter.counted

/-! ## The account -/

theorem Meter.after_eq {m : Meter} {events : List MeterEvent}
    (hwrap : m.missed + triggers events < 2 ^ 32) :
    (m.after events).missed = m.missed + triggers events ∧
      (m.after events).counted = m.counted + triggers events := by
  induction events generalizing m with
  | nil => exact ⟨rfl, rfl⟩
  | cons e rest ih =>
    unfold triggers at hwrap ih ⊢
    rw [List.count_cons] at hwrap ⊢
    have hnext : (m.next e).missed = m.missed + (if e == .shotTrigger false then 1 else 0) ∧
        (m.next e).counted = m.counted + (if e == .shotTrigger false then 1 else 0) := by
      cases e with
      | shotTrigger armed =>
        cases armed with
        | true => exact ⟨rfl, rfl⟩
        | false =>
          rw [show (MeterEvent.shotTrigger false == .shotTrigger false) = true from rfl,
            if_pos rfl] at hwrap ⊢
          exact ⟨Nat.mod_eq_of_lt (by omega), rfl⟩
      | sample => exact ⟨rfl, rfl⟩
      | arrive => exact ⟨rfl, rfl⟩
    have hrest := ih (m := m.next e) (by rw [hnext.1]; omega)
    rw [hnext.1, hnext.2] at hrest
    exact ⟨hrest.1.trans (by omega), hrest.2.trans (by omega)⟩

theorem foldl_after {softResets : List SoftReset} {m : Meter}
    (hwrap : m.missed + (softResets.map (triggers ·.events)).sum < 2 ^ 32)
    (h : Lossless softResets) :
    (softResets.foldl SoftReset.after m).missed =
        (if softResets.any (·.cleared) = true then 0 else m.missed) +
          (softResets.map (triggers ·.events)).sum ∧
      (softResets.foldl SoftReset.after m).counted =
        m.counted + (softResets.map (triggers ·.events)).sum := by
  induction softResets generalizing m with
  | nil => exact ⟨rfl, rfl⟩
  | cons r rest ih =>
    obtain ⟨hr, hrest⟩ := h
    rw [List.map_cons, List.sum_cons] at hwrap ⊢
    rw [List.foldl_cons, List.any_cons]
    obtain ⟨hmissed, hcounted⟩ := @Meter.after_eq m r.events (by omega)
    cases hcleared : r.cleared with
    | true =>
      have hafter : r.after m = { m.after r.events with missed := 0 } := if_pos hcleared
      have hzero := hr (.inl hcleared)
      obtain ⟨h₁, h₂⟩ := ih (m := { m.after r.events with missed := 0 })
        (by dsimp only; omega) hrest
      rw [hafter, h₁, h₂, hcounted, hzero]
      simp
    | false =>
      have hafter : r.after m = m.after r.events := if_neg (by rw [hcleared]; simp)
      obtain ⟨h₁, h₂⟩ := ih (m := m.after r.events) (by omega) hrest
      rw [hafter, h₁, h₂, hcounted, hmissed, Bool.false_or]
      refine ⟨?_, by omega⟩
      by_cases hany : rest.any (·.cleared) = true
      · rw [if_pos hany, if_pos hany, hr (.inr hany), Nat.zero_add, Nat.zero_add]
      · rw [if_neg hany, if_neg hany]
        omega

/-- A section that has read the counter leaves what came after the read. -/
theorem counted_resets {m : Meter} {softResets : List SoftReset} (h : m.ExactResets softResets)
    (hne : softResets ≠ []) :
    (softResets.foldl SoftReset.after m).missed = (softResets.map (triggers ·.events)).sum ∧
      (softResets.foldl SoftReset.after m).counted =
        m.counted + (softResets.map (triggers ·.events)).sum := by
  obtain ⟨hmissed, hcounted⟩ := foldl_after h.noWrap h.lossless
  refine ⟨hmissed.trans ?_, hcounted⟩
  rcases h.erased.resolve_left hne with hzero | hany
  · rw [hzero, ite_self, Nat.zero_add]
  · rw [if_pos hany, Nat.zero_add]

theorem setWidth_of_toNat {missed : U32} {n : ℕ} (h : missed.toNat = n) :
    missed.setWidth 64 = BitVec.ofNat 64 n := by
  rw [← h]
  apply BitVec.eq_of_toNat_eq
  simp

/-- The first arm of a run has read the register when it waits for ARMED. -/
theorem poolArmBankLocked_poll {index : ℕ} {hw : ArmAnswer}
    (heq : poolArmBankLocked .start index hw s = s')
    (hpoll : s'.lock = some (.poolArmPoll .start)) :
    s'.pool.configured = s.pool.configured ∧
      s'.pool.skippedTriggers = s.pool.skippedTriggers + hw.missed.setWidth 64 := by
  unfold poolArmBankLocked at heq
  dsimp only at heq
  split at heq
  · subst heq
    rw [armReturn_lock] at hpoll
    cases hpoll
  split at heq
  · subst heq
    rw [armReturn_lock] at hpoll
    cases hpoll
  split at heq
  · subst heq
    rw [armReturn_lock] at hpoll
    cases hpoll
  · subst heq
    exact ⟨rfl, rfl⟩

/-- What POOL_START leaves when it waits for its first bank to be armed. -/
theorem poolStart_account {request : PoolStart} {resetStatus : U32} {hw : ArmAnswer}
    (h : step L s (.poolStart request resetStatus hw) = some s')
    (hpoll : s'.lock = some (.poolArmPoll .start)) :
    s'.pool.configured = true ∧ s'.pool.skippedTriggers = hw.missed.setWidth 64 := by
  obtain ⟨heq, hl⟩ : poolStart L request resetStatus hw s.quiet = s' ∧ s.quiet.lock = none := by
    cases step_fires h with
    | poolStart hl => exact ⟨rfl, hl⟩
  have hnever : ∀ s₁ : Sys, s₁.lock = none → s₁ ≠ s' := by
    rintro s₁ hnone rfl
    rw [hnone] at hpoll
    cases hpoll
  unfold poolStart at heq
  dsimp only at heq
  split at heq
  · exact absurd heq (hnever _ hl)
  split at heq
  · exact absurd heq (hnever _ hl)
  split at heq
  · exact absurd heq (hnever _ hl)
  split at heq
  · exact absurd heq (hnever _ hl)
  split at heq
  · exact absurd heq (hnever _ hl)
  split at heq
  · exact absurd heq (hnever _ hl)
  split at heq
  · exact absurd heq (hnever _ hl)
  split at heq
  · exact absurd heq (hnever _ hl)
  · obtain ⟨hconfigured, hskipped⟩ := poolArmBankLocked_poll heq hpoll
    exact ⟨hconfigured, hskipped.trans (BitVec.zero_add _)⟩

/-- An exact POOL_START begins the account. -/
theorem counted_poolStart {m m' : Metered} {request : PoolStart} {resetStatus : U32}
    {hw : ArmAnswer} {first second : SoftReset} {events : List MeterEvent}
    (h : meterStep L m (.poolStart request resetStatus hw first events second) = some m')
    (hexact : Exact m (.poolStart request resetStatus hw first events second) m') :
    m'.Counted := by
  obtain ⟨hcleared, hevents, hresets⟩ := hexact
  unfold meterStep at h
  obtain ⟨hread, h⟩ := Option.ite_none_right_eq_some.mp h
  obtain ⟨s, hstep, h⟩ := Option.bind_eq_some_iff.mp h
  obtain ⟨hpoll, h⟩ := ite_some h
  subst h
  obtain ⟨hconfigured, hskipped⟩ := poolStart_account hstep hpoll
  -- the soft reset of POOL_START has cleared the counter, and the first arm has read it
  have hzero : (first.after m.meter).missed = 0 := by
    unfold SoftReset.after
    rw [if_pos hcleared]
  have harm := @Meter.after_eq { first.after m.meter with counted := 0 } events
    (by rw [hzero, Nat.zero_add]; exact hevents)
  replace harm : (m.meter.atFirstArm first events).missed = triggers events ∧
      (m.meter.atFirstArm first events).counted = triggers events :=
    ⟨harm.1.trans (by rw [hzero, Nat.zero_add]), harm.2.trans (Nat.zero_add _)⟩
  obtain ⟨hmissed, hcounted⟩ := counted_resets hresets (List.cons_ne_nil _ _)
  have hfresh := hresets.fresh.resolve_left (List.cons_ne_nil _ _)
  refine ⟨hconfigured, ?_⟩
  rw [hskipped, setWidth_of_toNat (hread.trans (hfresh.trans (harm.1.trans harm.2.symm)))]
  rw [List.foldl_cons, List.foldl_nil] at hmissed hcounted
  dsimp only
  rw [hmissed, hcounted, BitVec.ofNat_add]

/-- An exact step keeps the account. -/
theorem counted_step {m m' : Metered} {a : MeterAction} (hm : m.Counted)
    (h : meterStep L m a = some m') (hexact : Exact m a m') : m'.Counted := by
  obtain ⟨hconfigured, hcounted⟩ := hm
  cases a with
  | event e =>
    cases h
    refine ⟨hconfigured, ?_⟩
    cases e with
    | shotTrigger armed =>
      cases armed with
      | true => exact hcounted
      | false =>
        -- both sides gain one, as long as the counter does not wrap
        have hwrap : m.meter.missed + 1 < 2 ^ 32 := hexact rfl
        change m.sys.pool.skippedTriggers + BitVec.ofNat 64 ((m.meter.missed + 1) % 2 ^ 32) =
          BitVec.ofNat 64 (m.meter.counted + 1)
        rw [Nat.mod_eq_of_lt hwrap, BitVec.ofNat_add, ← BitVec.add_assoc, hcounted,
          BitVec.ofNat_add]
    | sample => exact hcounted
    | arrive => exact hcounted
  | poolStart request resetStatus hw first events second => exact counted_poolStart h hexact
  | driver a softResets =>
    unfold meterStep at h
    obtain ⟨⟨hpool, hread⟩, h⟩ := Option.ite_none_right_eq_some.mp h
    obtain ⟨s, hstep, h⟩ := Option.bind_eq_some_iff.mp h
    obtain ⟨hlength, h⟩ := ite_some h
    subst h
    have hresets : m.meter.ExactResets softResets := hexact
    rcases accounts_step hpool hstep with hsame | ⟨missed, hmissed, haccounted⟩
    · -- no soft reset, and nothing read
      have hnil : softResets = [] := List.eq_nil_of_length_eq_zero (hlength.trans hsame.resets)
      subst hnil
      refine ⟨hsame.configured.trans hconfigured, ?_⟩
      dsimp only
      rw [hsame.skippedTriggers]
      exact hcounted
    · -- the driver has taken over what it read, and the soft reset clears the counter
      have hne : softResets ≠ [] := by
        rintro rfl
        exact absurd (haccounted.resets.trans_eq hlength.symm) (by simp)
      rw [hmissed] at hread
      have hregister : missed.toNat = m.meter.missed :=
        (of_decide_eq_true hread).trans (hresets.fresh.resolve_left hne)
      obtain ⟨hleft, hall⟩ := counted_resets hresets hne
      refine ⟨haccounted.configured.trans hconfigured, ?_⟩
      dsimp only
      rw [haccounted.skippedTriggers, hleft, hall, setWidth_of_toNat hregister, BitVec.ofNat_add,
        ← hcounted]
      rfl
  | poolStatus =>
    obtain ⟨-, h⟩ := Option.ite_none_right_eq_some.mp h
    cases h
    exact ⟨hconfigured, hcounted⟩

/-- From POOL_START on, in a run whose steps are exact, every POOL_STATUS reports the triggers that
the stream engine has missed since POOL_START reset it. -/
theorem skippedTriggers_counted {m : Metered} {request : PoolStart} {resetStatus : U32}
    {hw : ArmAnswer} {first second : SoftReset} {events : List MeterEvent} {l : List MeterAction}
    (hexact : (metered L).Meets Exact m
      (.poolStart request resetStatus hw first events second :: l)) :
    (metered L).Meets Reported m
      (.poolStart request resetStatus hw first events second :: l) := by
  intro m₁ hstart
  obtain ⟨hfirst, hrest⟩ := hexact m₁ hstart
  refine ⟨nofun, Machine.meets_of_invariant (I := Metered.Counted) ?_
    (counted_poolStart hstart hfirst) hrest⟩
  intro m a m' hm h hexact
  refine ⟨counted_step hm h hexact, ?_⟩
  rintro rfl
  obtain ⟨hconfigured, hcounted⟩ := hm
  rw [Metered.skippedTriggers, if_pos hconfigured, show m.meter.shown = m.meter.missed from hexact]
  exact hcounted

/-! ### Runs of the small pool -/

/-- The small pool before POOL_START. -/
def smallPoolOpened : Metered := ⟨{ Sys.init with file := .opened }, ⟨0, none, 0, 0⟩⟩

/-- A snapshot is taken and arrives. -/
def snapshot : List MeterEvent := [.sample, .arrive]

/-- A pool is started and its first bank is delivered. Before the worker finalizes it `events`
happen, and the worker reads `missed`. -/
def deliverBank (events : List MeterEvent) (missed resetStatus : U32) (softReset : SoftReset) :
    List MeterAction :=
  [.driver (.poolArmPolled statusArmed 0) [], .driver (.dmaComplete ⟨.noError, 0⟩ 5) [],
    .driver .workerFetch []] ++ events.map MeterAction.event ++
    [.driver (.workerRun ⟨oneWordEvidence, missed, resetStatus⟩) [softReset]]

/-- The worker arms the next bank, and POOL_STATUS is called. -/
def armAndReport : List MeterAction :=
  snapshot.map MeterAction.event ++ [.driver (.workerArmNext {}) [⟨[], true⟩],
    .driver (.poolArmPolled statusArmed 0) [], .poolStatus]

/-- The pool is started with no trigger missed. -/
def smallPoolStart : MeterAction := .poolStart smallPool 0 {} ⟨[], true⟩ snapshot ⟨[], true⟩

/-- Two triggers are missed while the first bank is delivered, and POOL_STATUS reports both. -/
def twoMissed : List MeterAction :=
  deliverBank ([.shotTrigger false, .shotTrigger false] ++ snapshot) 2 0 ⟨[], true⟩ ++ armAndReport

theorem skippedTriggers_counted_smallPool :
    (metered smallDevice).Meets Reported smallPoolOpened (smallPoolStart :: twoMissed) ∧
      ((metered smallDevice).run smallPoolOpened (smallPoolStart :: twoMissed)).map
        (fun m => (m.skippedTriggers, m.meter.counted)) = some (2, 2) :=
  ⟨skippedTriggers_counted (by decide +kernel), by decide +kernel⟩

/-- A trigger that falls between the read of the register and the soft reset is lost, and so is one
whose snapshot has not arrived when the register is read. One that the driver has read before a
soft reset that does not reach the engine is reported twice. -/
theorem skippedTriggers_miscounted :
    ((metered smallDevice).run smallPoolOpened
        (smallPoolStart :: deliverBank [] 0 0 ⟨[.shotTrigger false], true⟩ ++ armAndReport)).map
          (fun m => (m.skippedTriggers, m.meter.counted)) = some (0, 1) ∧
      ((metered smallDevice).run smallPoolOpened
        (smallPoolStart :: deliverBank [.shotTrigger false] 0 0 ⟨[], true⟩ ++ armAndReport)).map
          (fun m => (m.skippedTriggers, m.meter.counted)) = some (0, 1) ∧
      ((metered smallDevice).run smallPoolOpened
        (smallPoolStart :: deliverBank ([.shotTrigger false] ++ snapshot) 1 statusCommandBusy
          ⟨[], false⟩ ++ [.driver (.workerArmNext { missed := 1 }) [], .poolStatus])).map
          (fun m => (m.skippedTriggers, m.meter.counted)) = some (2, 1) := by
  refine ⟨?_, ?_, ?_⟩ <;> decide +kernel

end QCrate.Dma
