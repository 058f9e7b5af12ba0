import QCrate.Stream.Engine
import Mathlib.Tactic

/-!
# What becomes of a shot trigger

The engine has one counter for the triggers that start a capture and one for those that find it not
armed.

* `tick_triggerCount`, `tick_missedTriggerCount` — the counters after an edge.
* `triggers_counted` — a run counts every trigger in exactly one of them as long as no trigger meets
  an ABORT of an armed engine, and no longer.
-/

namespace QCrate.Stream

open QCrate.Lib

variable {i : EngineIn} {s s' n : Engine}

/-! ## The counters after an edge -/

theorem countStall_counts : (countStall i s n).triggerCount = n.triggerCount ∧
    (countStall i s n).missedTriggerCount = n.missedTriggerCount := by
  unfold countStall
  split <;> exact ⟨rfl, rfl⟩

theorem takeAbort_counts : (takeAbort i s n).triggerCount = n.triggerCount ∧
    (takeAbort i s n).missedTriggerCount = n.missedTriggerCount := by
  unfold takeAbort
  split
  · exact ⟨rfl, rfl⟩
  split <;> exact ⟨rfl, rfl⟩

theorem acceptBeat_counts : (acceptBeat i s n).triggerCount = n.triggerCount ∧
    (acceptBeat i s n).missedTriggerCount = n.missedTriggerCount := by
  unfold acceptBeat stampFirstSample
  repeat' split
  all_goals exact ⟨rfl, rfl⟩

/-- What `startOrTrigger` is handed. -/
theorem acceptBeat_missTrigger :
    let m := acceptBeat i s (takeAbort i s (countStall i s (missTrigger i s s.noPulses)))
    m.triggerCount = s.triggerCount ∧
      m.missedTriggerCount =
        s.missedTriggerCount + if i.shotTrigger && !s.armed then 1 else 0 := by
  dsimp only
  rw [acceptBeat_counts.1, acceptBeat_counts.2, takeAbort_counts.1, takeAbort_counts.2,
    countStall_counts.1, countStall_counts.2, missTrigger]
  split
  · exact ⟨rfl, rfl⟩
  · exact ⟨rfl, (BitVec.add_zero _).symm⟩

/-- A start leaves the counters alone, and so does a trigger that comes with ABORT. -/
theorem startOrTrigger_counts : (startOrTrigger i s n).triggerCount =
      (if s.armed && i.shotTrigger && !i.abort then s.triggerCount + 1 else n.triggerCount) ∧
    (startOrTrigger i s n).missedTriggerCount = n.missedTriggerCount := by
  unfold startOrTrigger
  split
  · next hidle =>
    have harmed : s.armed = false := by
      simp only [Bool.and_eq_true, Bool.not_eq_true'] at hidle
      exact hidle.1.2
    rw [harmed]
    split <;> exact ⟨rfl, rfl⟩
  · split <;> exact ⟨rfl, rfl⟩

theorem tick_counts (hrst : i.rstN = true) (hsoft : i.softReset = false) :
    (s.tick i).triggerCount =
      s.triggerCount + (if s.armed && i.shotTrigger && !i.abort then 1 else 0) ∧
    (s.tick i).missedTriggerCount =
      s.missedTriggerCount + if i.shotTrigger && !s.armed then 1 else 0 := by
  obtain ⟨haccepted, hmissed⟩ := acceptBeat_missTrigger (i := i) (s := s)
  unfold Engine.tick
  simp only [hrst, hsoft, Bool.not_true, Bool.false_eq_true, if_false]
  rw [startOrTrigger_counts.1, startOrTrigger_counts.2, haccepted, hmissed]
  refine ⟨?_, rfl⟩
  split
  · rfl
  · exact (BitVec.add_zero _).symm

/-! ## Triggers since the last reset -/

/-- The triggers seen since the last reset. -/
def nextSeen (seen : ℕ) (i : EngineIn) : ℕ :=
  if i.resets then 0 else seen + if i.shotTrigger then 1 else 0

/-- The engine with the number of triggers since its last reset. -/
def countingMachine : Machine (Engine × ℕ) EngineIn where
  step s i := some (s.1.tick i, nextSeen s.2 i)

/-- A trigger of the edge is in exactly one counter, and nothing else is in either. -/
def CountsOnce (s : Engine) (i : EngineIn) (s' : Engine) : Prop :=
  if i.resets then s'.triggerCount = 0 ∧ s'.missedTriggerCount = 0
  else if i.shotTrigger then
    (s'.triggerCount = s.triggerCount + 1 ∧ s'.missedTriggerCount = s.missedTriggerCount) ∨
      (s'.triggerCount = s.triggerCount ∧ s'.missedTriggerCount = s.missedTriggerCount + 1)
  else s'.triggerCount = s.triggerCount ∧ s'.missedTriggerCount = s.missedTriggerCount

instance : Decidable (CountsOnce s i s') := by
  unfold CountsOnce
  infer_instance

/-- The counters together hold the triggers since the last reset. -/
def Conserved (s : Engine × ℕ) : Prop :=
  s.1.triggerCount + s.1.missedTriggerCount = BitVec.ofNat 32 s.2

instance (s : Engine × ℕ) : Decidable (Conserved s) := by
  unfold Conserved
  infer_instance

/-- A trigger meets an ABORT of an armed engine. -/
def drops (s : Engine) (i : EngineIn) : Bool :=
  !i.resets && i.shotTrigger && s.armed && i.abort

theorem tick_resets (h : i.resets = true) :
    (s.tick i).triggerCount = 0 ∧ (s.tick i).missedTriggerCount = 0 := by
  unfold Engine.tick
  split
  · exact ⟨rfl, rfl⟩
  · next hrst =>
    have hsoft : i.softReset = true := by
      rw [EngineIn.resets, Bool.or_eq_true] at h
      exact h.resolve_left hrst
    rw [if_pos hsoft]
    exact ⟨rfl, rfl⟩

theorem countsOnce_iff : CountsOnce s i (s.tick i) ↔ drops s i = false := by
  unfold CountsOnce drops
  cases hresets : i.resets with
  | true => simpa using tick_resets hresets
  | false =>
    have hno := hresets
    rw [EngineIn.resets, Bool.or_eq_false_iff, Bool.not_eq_false'] at hno
    obtain ⟨haccepted, hmissed⟩ := tick_counts (s := s) hno.1 hno.2
    rw [haccepted, hmissed]
    cases i.shotTrigger <;> cases s.armed <;> cases i.abort <;> simp

/-- A trigger that is counted once keeps the sum. -/
theorem conserved_tick {k : ℕ} (h : Conserved (s, k)) (hcounts : CountsOnce s i (s.tick i)) :
    Conserved (s.tick i, nextSeen k i) := by
  unfold Conserved CountsOnce nextSeen at *
  dsimp only at h ⊢
  cases hresets : i.resets with
  | true =>
    rw [hresets] at hcounts
    simp only [if_true] at hcounts ⊢
    rw [hcounts.1, hcounts.2]
    rfl
  | false =>
    rw [hresets] at hcounts
    simp only [Bool.false_eq_true, if_false] at hcounts ⊢
    cases htrigger : i.shotTrigger with
    | true =>
      rw [htrigger] at hcounts
      simp only [if_true] at hcounts ⊢
      rw [BitVec.ofNat_add, ← h]
      rcases hcounts with ⟨ha, hm⟩ | ⟨ha, hm⟩
      · rw [ha, hm, BitVec.add_assoc, BitVec.add_comm 1, ← BitVec.add_assoc]
        rfl
      · rw [ha, hm, ← BitVec.add_assoc]
        rfl
    | false =>
      rw [htrigger] at hcounts
      simp only [Bool.false_eq_true, if_false] at hcounts ⊢
      rw [hcounts.1, hcounts.2, h, Nat.add_zero]

/-! ## Runs -/

/-- Every trigger of a run is counted in exactly one counter, and the counters hold their number,
if and only if none meets an ABORT of an armed engine. -/
theorem triggers_counted (l : List EngineIn) :
    countingMachine.Meets (fun s i s' => CountsOnce s.1 i s'.1 ∧ Conserved s') (.reset, 0) l ↔
      countingMachine.Meets (fun s i _ => drops s.1 i = false) (.reset, 0) l := by
  constructor
  · intro h
    refine Machine.meets_of_invariant (I := fun _ => True) (fun s i s' _ hs hcounts => ?_)
      trivial h
    cases hs
    exact ⟨trivial, countsOnce_iff.mp hcounts.1⟩
  · intro h
    refine Machine.meets_of_invariant (I := Conserved) (fun s i s' hs hstep hdrops => ?_) rfl h
    cases hstep
    have hcounts := countsOnce_iff.mpr hdrops
    have hnext := conserved_tick (k := s.2) hs hcounts
    exact ⟨hnext, hcounts, hnext⟩

/-! ## A trigger that is lost -/

/-- A finite configuration of one word, with nothing asked for. -/
def quietIn : EngineIn :=
  { rstN := true, start := false, armTriggered := false, shotTrigger := false, abort := false
    softReset := false, triggerShotId := 1, timebase := 0, configId := 0, frameLength := 1
    frameCount := 1, streamMode := 0, continuous := false, dspTvalid := false
    mAxisTready := false }

/-- The engine is armed, and then ABORT and a trigger come at the same edge. -/
def abortOnTrigger : List EngineIn :=
  [{ quietIn with armTriggered := true }, { quietIn with abort := true, shotTrigger := true }]

/-- The trigger is in neither counter. -/
theorem triggers_counted_abortOnTrigger :
    ¬countingMachine.Meets (fun s i s' => CountsOnce s.1 i s'.1 ∧ Conserved s') (.reset, 0)
      abortOnTrigger ∧
    ∃ s, countingMachine.run (.reset, 0) abortOnTrigger = some s ∧
      s.1.triggerCount = 0 ∧ s.1.missedTriggerCount = 0 ∧ s.2 = 1 := by
  refine ⟨?_, ((countingMachine.run (.reset, 0) abortOnTrigger).getD (.reset, 0)), ?_⟩
  · decide +kernel
  · decide +kernel

end QCrate.Stream
