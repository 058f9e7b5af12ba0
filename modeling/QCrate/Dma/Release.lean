import QCrate.Dma.Tokens

/-!
# What POOL_RELEASE reports

RELEASE frees its bank under the lock and then waits, without it, for the worker to arm a bank.
The wait can end with an error, and by then the bank is given back and the token is spent.

* `Reports` — an error means that the call has done nothing.
* `release_reports` — runs in which RELEASE reports what it did.
-/

namespace QCrate.Dma

open QCrate.Lib

variable {L : Limits} {s s' : Sys}

/-- The token names a bank that is in the hands of a client. -/
def Valid (p : Pool) (release : PoolRelease) : Prop :=
  release.bankIndex.toNat < p.bankCount ∧ p.state release.bankIndex.toNat = .userOwned ∧
    release = p.token release.bankIndex.toNat

instance (p : Pool) (release : PoolRelease) : Decidable (Valid p release) :=
  inferInstanceAs (Decidable (_ ∧ _ ∧ _))

/-- The returns of RELEASE say what the call did. A call that returns an error leaves the pool, the
events and the threads as they are and had no valid token. A call with a valid token spends it, and
returns success at once or waits. A call that waits has given its bank back, so it returns
success. -/
def Reports (s : Sys) (a : Action) (s' : Sys) : Prop :=
  match a with
  | .refused .poolRelease _ => s'.pool = s.pool ∧ s'.poolEvents = s.poolEvents
  | .poolRelease release =>
    (∀ e out, s'.ret = some ⟨.poolRelease, some e, out⟩ → s'.pool = s.pool ∧
      s'.poolEvents = s.poolEvents ∧ s'.threads = s.threads ∧ ¬ Valid s.pool release) ∧
    (Valid s.pool release → s'.pool = s.pool.takeBack release.bankIndex.toNat ∧
      ¬ Valid s'.pool release ∧
      (s'.ret = some ⟨.poolRelease, none, .nothing⟩ ∨
        (s'.ret = none ∧ s'.threads = .releaseWait :: s.threads)))
  | .poolReleaseWake _ => s'.pool = s.pool ∧ s'.ret = some ⟨.poolRelease, none, .nothing⟩
  | _ => True

/-- No wait of RELEASE ends by a signal, by its timeout, with a faulted pool or with no bank
armed. -/
def WaitEndsArmed (s : Sys) (a : Action) (_ : Sys) : Prop :=
  match a with
  | .poolReleaseWake outcome =>
    outcome = .completed ∧ s.pool.faulted = false ∧ s.pool.dmaActive = true
  | _ => True

/-- The token of a bank is spent when the bank is taken back. -/
theorem not_valid_takeBack {p : Pool} {release : PoolRelease} :
    ¬ Valid (p.takeBack release.bankIndex.toNat) release := by
  rintro ⟨-, hs, -⟩
  rw [show (p.takeBack release.bankIndex.toNat).state release.bankIndex.toNat = .free from
    setCell_same ..] at hs
  cases hs

/-- The first section of a RELEASE with a valid token. -/
theorem poolReleaseBank_valid {release : PoolRelease} (h : Valid s.pool release) :
    (poolReleaseBank release s).pool = s.pool.takeBack release.bankIndex.toNat ∧
      ((poolReleaseBank release s).ret = some ⟨.poolRelease, none, .nothing⟩ ∨
        ((poolReleaseBank release s).ret = s.ret ∧
          (poolReleaseBank release s).threads = .releaseWait :: s.threads)) := by
  obtain ⟨hi, hs, htoken⟩ := h
  have hrun : release.runId = s.pool.runId := congrArg PoolRelease.runId htoken
  have hgeneration : release.bankGeneration = (s.pool.bank release.bankIndex.toNat).generation :=
    congrArg PoolRelease.bankGeneration htoken
  have hsequence : release.bankSequence = (s.pool.bank release.bankIndex.toNat).sequence :=
    congrArg PoolRelease.bankSequence htoken
  unfold poolReleaseBank
  dsimp only
  rw [if_neg (by rintro (hno | hno) <;> [omega; exact hno hrun]),
    if_neg (by
      rintro (hno | hno | hno)
      · exact hno hs
      · exact hno hgeneration
      · exact hno hsequence)]
  split
  · exact ⟨rfl, .inr ⟨rfl, rfl⟩⟩
  · exact ⟨rfl, .inl rfl⟩

theorem reports_release {release : PoolRelease} (h : step L s (.poolRelease release) = some s') :
    Reports s (.poolRelease release) s' := by
  have hstep : s' = poolReleaseBank release s.quiet := by
    cases step_fires h with
    | poolRelease => rfl
  by_cases hvalid : Valid s.pool release
  · obtain ⟨hpool, hret⟩ := poolReleaseBank_valid (s := s.quiet) hvalid
    rw [← hstep] at hpool hret
    refine ⟨?_, fun _ => ⟨hpool, ?_, hret⟩⟩
    · intro e out he
      rcases hret with hret | ⟨hret, -⟩
      · rw [hret] at he
        cases he
      · rw [hret] at he
        cases he
    · rw [hpool]
      exact not_valid_takeBack
  · rcases release_step h with ⟨-, rfl⟩ | ⟨hi, hs, htoken, -⟩
    · exact ⟨fun _ _ _ => ⟨rfl, rfl, rfl, hvalid⟩, fun hno => absurd hno hvalid⟩
    · exact absurd ⟨hi, hs, htoken⟩ hvalid

/-- The wait of RELEASE ends well exactly when it ends with a bank armed. -/
theorem reports_wake {outcome : WaitOutcome} (h : step L s (.poolReleaseWake outcome) = some s') :
    Reports s (.poolReleaseWake outcome) s' ↔ WaitEndsArmed s (.poolReleaseWake outcome) s' := by
  have hstep : s' = poolReleaseWake outcome s.quiet := by
    cases step_fires h with
    | poolReleaseWake => rfl
  rw [hstep]
  unfold Reports WaitEndsArmed poolReleaseWake
  dsimp only
  cases outcome with
  | interrupted => simp [Sys.returns]
  | timedOut => simp [Sys.returns]
  | completed =>
    simp only [Sys.returns, Sys.quiet, true_and, Option.some.injEq, Ret.mk.injEq, and_true]
    rcases Bool.eq_false_or_eq_true s.pool.faulted with hfaulted | hfaulted <;>
      rcases Bool.eq_false_or_eq_true s.pool.dmaActive with hactive | hactive <;>
      simp [hfaulted, hactive]

/-- One step reports what it did exactly when it does not end a wait without an armed bank. -/
theorem reports_step {a : Action} (h : step L s a = some s') :
    Reports s a s' ↔ WaitEndsArmed s a s' := by
  cases a with
  | poolRelease release => exact ⟨fun _ => trivial, fun _ => reports_release h⟩
  | poolReleaseWake outcome => exact reports_wake h
  | refused op e =>
    refine ⟨fun _ => trivial, fun _ => ?_⟩
    cases step_fires h with
    | refused =>
      unfold Reports
      split
      · exact ⟨rfl, rfl⟩
      · next hno => cases hno
      · next hno => cases hno
      · trivial
  | _ => exact Iff.rfl

/-- In a run RELEASE reports what it did exactly when every wait of RELEASE ends with a bank
armed. -/
theorem release_reports (L : Limits) (l : List Action) :
    (driver L).Meets Reports .init l ↔ (driver L).Meets WaitEndsArmed .init l := by
  constructor
  · intro h
    refine Machine.meets_of_invariant (I := fun _ => True) ?_ trivial h
    intro s a s' _ hstep hreports
    exact ⟨trivial, (reports_step hstep).mp hreports⟩
  · intro h
    refine Machine.meets_of_invariant (I := fun _ => True) ?_ trivial h
    intro s a s' _ hstep harmed
    exact ⟨trivial, (reports_step hstep).mpr harmed⟩

/-- Both banks of the small pool are delivered, and the first one is in the hands of a client. -/
def starvedRun : List Action :=
  poolSession.take 8 ++
    [.dmaComplete ⟨.noError, 0⟩ 9, .workerFetch, .workerRun ⟨oneWordEvidence, 0, 0⟩,
      .workerArmNext {}, .poolDequeue 0 .completed 0]

/-- A signal interrupts the wait of a RELEASE. The call returns ERESTARTSYS, the bank is FREE and
counted as consumed, and the restarted call fails with ESTALE. -/
theorem release_interrupted : ∃ s s₁ s₂ s₃,
    (driver smallDevice).run .init starvedRun = some s ∧
    Valid s.pool ⟨0, 1, 1, 1⟩ ∧
    step smallDevice s (.poolRelease ⟨0, 1, 1, 1⟩) = some s₁ ∧
    step smallDevice s₁ (.poolReleaseWake .interrupted) = some s₂ ∧
    s₂.ret = some ⟨.poolRelease, some .erestartsys, .nothing⟩ ∧
    s₂.pool.state 0 = .free ∧ s₂.pool.consumedBanks = s.pool.consumedBanks + 1 ∧
    step smallDevice s₂ (.poolRelease ⟨0, 1, 1, 1⟩) = some s₃ ∧
    s₃.ret = some ⟨.poolRelease, some .estale, .nothing⟩ ∧
    ¬ (driver smallDevice).Meets Reports .init
      (starvedRun ++ ([.poolRelease ⟨0, 1, 1, 1⟩] ++ [.poolReleaseWake .interrupted])) := by
  have hrun : ((driver smallDevice).run .init starvedRun).any (fun s =>
      decide (Valid s.pool ⟨0, 1, 1, 1⟩) &&
        (step smallDevice s (.poolRelease ⟨0, 1, 1, 1⟩)).any fun s₁ =>
          (step smallDevice s₁ (.poolReleaseWake .interrupted)).any fun s₂ =>
            decide (s₂.ret = some ⟨.poolRelease, some .erestartsys, .nothing⟩) &&
              decide (s₂.pool.state 0 = .free) &&
              decide (s₂.pool.consumedBanks = s.pool.consumedBanks + 1) &&
              (step smallDevice s₂ (.poolRelease ⟨0, 1, 1, 1⟩)).any fun s₃ =>
                decide (s₃.ret = some ⟨.poolRelease, some .estale, .nothing⟩)) = true := by
    decide +kernel
  obtain ⟨s, hs, hrun⟩ := (Option.any_eq_true _ _).mp hrun
  rw [Bool.and_eq_true, decide_eq_true_eq] at hrun
  obtain ⟨hvalid, hrun⟩ := hrun
  obtain ⟨s₁, hs₁, hrun⟩ := (Option.any_eq_true _ _).mp hrun
  obtain ⟨s₂, hs₂, hrun⟩ := (Option.any_eq_true _ _).mp hrun
  simp only [Bool.and_eq_true, decide_eq_true_eq] at hrun
  obtain ⟨⟨⟨hret, hfree⟩, hconsumed⟩, hrun⟩ := hrun
  obtain ⟨s₃, hs₃, hstale⟩ := (Option.any_eq_true _ _).mp hrun
  refine ⟨s, s₁, s₂, s₃, hs, hvalid, hs₁, hs₂, hret, hfree, hconsumed, hs₃,
    of_decide_eq_true hstale, ?_⟩
  intro hmeets
  have hbefore : (driver smallDevice).run .init
      (starvedRun ++ [.poolRelease ⟨0, 1, 1, 1⟩]) = some s₁ := by
    rw [Machine.run_append, hs]
    exact Machine.run_cons_of_step _ hs₁
  rw [← List.append_assoc] at hmeets
  have hreports := hmeets.at hbefore hs₂
  rw [hreports.2] at hret
  cases hret

end QCrate.Dma
