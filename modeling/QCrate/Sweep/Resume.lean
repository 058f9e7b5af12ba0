import QCrate.Analyzer.Acceptance
import QCrate.Lib.Folder
import QCrate.Lib.Machine
import QCrate.Sweep.Plan

/-!
# A sweep that is resumed

`verify_run` and `run_experiment` of `qcrate_experiment.py`, and `run_sweep` of `qcrate_sweep.py`.
What the board, the network and the recorder leave of an experiment is an input. An invocation can
end anywhere, and the next one goes on with the folder of the runs as it finds it.

* `verifyRun` — the test of a recorded run against the profile of its point.
* `runSweep` — an invocation.
* `Keeps` — what an invocation does to the runs that are there.
* `sweep_resumes` — any number of invocations.
-/

namespace QCrate.Sweep

open QCrate.Lib QCrate.DataPlane QCrate.Analyzer
open QCrate.Receiver (crc32)

variable {F : Type}

/-! ## The test of a run -/

/-- The directory of a run, with the copy of the profile and the picture. -/
structure RunDirectory where
  files : Files
  samples : Bytes
  profile : Option Bytes
  snapshot : Option Bytes

inductive VerifyError where
  | run (e : RunError)
  | read (e : ReadError)
  | runtime (message : String)
  | value (message : String)

/-- The words that the copy of the profile gives, and the analysis of a shot. -/
structure Model (F : Type) where
  expectedWords : Option Bytes → ℕ → Except String (List ℕ)
  dominantFrequency : Option Bytes → RunBundle F → ShotRecord → Bytes → Except String F

section

variable (py : Python F) (fl : Floats F) (conv : Conversions F) (model : Model F)

/-- The `stream` object of a report against the profile. -/
def verifyStream (name : String) (report : Option (Report F)) (resolved : Resolved) :
    Except VerifyError Unit :=
  match report.bind (·.lookup "stream") with
  | some (.object stream) =>
    match py.integer (fieldOr stream "config_id" (.str "0")) with
    | .error message => .error (.value message)
    | .ok id =>
      if id ≠ resolved.dspConfigId then
        .error (.runtime (name ++ " configuration ID differs from the profile"))
      else
        match conv.int (fieldOr stream "center_frequency_hz" (.int (-1))) with
        | .error message => .error (.value message)
        | .ok hz =>
          if hz ≠ resolved.centerFrequencyHz then
            .error (.runtime (name ++ " center frequency differs from the profile"))
          else .ok ()
  | _ => .error (.runtime (name ++ " configuration ID differs from the profile"))

/-- The words for a count, from the dictionary when they are there. -/
def expectedByCount (profile : Option Bytes) (known : List (ℕ × List ℕ)) (count : ℕ) :
    Except String (List ℕ × List (ℕ × List ℕ)) :=
  match known.lookup count with
  | some words => .ok (words, known)
  | none => (model.expectedWords profile count).map fun words => (words, known ++ [(count, words)])

/-- The loop over the complete shots, with the number of words that were checked. -/
def verifyShots (d : RunDirectory) (resolved : Resolved) :
    List ShotRecord → List (ℕ × List ℕ) → ℕ → Except VerifyError ℕ
  | [], _, checked => .ok checked
  | shot :: shots, known, checked =>
    if shot.configId ≠ resolved.dspConfigId then
      .error (.runtime ("shot " ++ toString shot.shotId ++ " has configuration 0x" ++
        Host.hexText 16 shot.configId ++ "; expected 0x" ++ Host.hexText 16 resolved.dspConfigId))
    else
      match readSamples d.samples shot with
      | .error e => .error (.read e)
      | .ok payload =>
        if crc32 payload ≠ shot.payloadCrc32 then
          .error (.runtime ("shot " ++ toString shot.shotId ++
            " payload CRC does not match QIDX"))
        else
          match fromBuffer payload with
          | none => .error (.value "buffer size must be a multiple of element size")
          | some words =>
            match expectedByCount model d.profile known words.length with
            | .error message => .error (.value message)
            | .ok (expected, known) =>
              let mismatches := Comparison.differing words expected
              if mismatches ≠ 0 then
                .error (.runtime ("shot " ++ toString shot.shotId ++ " has " ++
                  toString mismatches ++ " bit-exact model mismatches"))
              else verifyShots d resolved shots known (checked + words.length)

/-- `verify_run` -/
def verifyRun (d : RunDirectory) (resolved : Resolved) : Except VerifyError (ℕ × ℕ × F) :=
  match RunBundle.openRun py d.files with
  | .error e => .error (.run e)
  | .ok b =>
    if b.runComplete py ≠ some true ∨ (b.health py fl).integrityOk = false then
      .error (.runtime "recorded run is incomplete or reports an integrity failure")
    else
      match b.completeShots with
      | [] => .error (.runtime "recorded run contains no complete shots")
      | first :: shots =>
        match verifyStream py conv "run manifest" b.manifest resolved with
        | .error e => .error e
        | .ok _ =>
          match verifyStream py conv "sender report" b.senderReport resolved with
          | .error e => .error e
          | .ok _ =>
            match verifyShots model d resolved (first :: shots) [] 0 with
            | .error e => .error e
            | .ok checked =>
              match model.dominantFrequency d.profile b first d.samples with
              | .error message => .error (.value message)
              | .ok hz => .ok ((first :: shots).length, checked, hz)

/-! ## An experiment -/

/-- What the board, the network and the recorder leave of an experiment: the directory if the
recorder made one, what was raised before the run was verified, and the picture. -/
structure Attempt where
  recorded : Option RunDirectory
  failure : Option String
  picture : Except String Bytes

inductive SweepError where
  | access (message : String)
  | otherSpecification
  | runExists (name : List Char)
  | outputExists (name : List Char)
  | experiment (message : String)
  | verify (e : VerifyError)
  | missing (name : List Char)
  | evaluation (message : String)

/-- The runs of a sweep by name. -/
abbrev Runs := Folder (List Char) RunDirectory

/-- What an experiment leaves in its directory, and how it ends. -/
def Attempt.finish (a : Attempt) (d : RunDirectory) (resolved : Resolved) :
    RunDirectory × Except SweepError Unit :=
  match a.failure with
  | some message => (d, .error (.experiment message))
  | none =>
    match verifyRun py fl conv model d resolved with
    | .error e => (d, .error (.verify e))
    | .ok _ =>
      match a.picture with
      | .error message => (d, .error (.experiment message))
      | .ok picture => ({ d with snapshot := some picture }, .ok ())

/-- `run_experiment` -/
def runExperiment (f : Runs) (p : Point) (a : Attempt) : Runs × Except SweepError Unit :=
  if h : p.stem ∈ f.names then (f, .error (.outputExists p.stem))
  else
    match a.recorded with
    | none => (f, .error (.experiment (a.failure.getD "timed out waiting for the run index")))
    | some d =>
      (f.put p.stem (a.finish py fl conv model d p.resolved).1 h,
        (a.finish py fl conv model d p.resolved).2)

/-! ## A sweep -/

/-- `_preserve_interrupted` -/
def preserveInterrupted (f : Runs) (name : List Char) : Runs :=
  match h : f.firstFree (interruptedName name) (f.names.length + 1) 1 with
  | none => f
  | some suffix => f.move name (interruptedName name suffix) (f.firstFree_free h)

/-- The loop over the points. -/
def runPoints (resume : Bool) (attempts : Point → Attempt) :
    List Point → Runs → Runs × Except SweepError Unit
  | [], f => (f, .ok ())
  | p :: points, f =>
    match f.get p.stem with
    | some d =>
      if !resume then (f, .error (.runExists p.stem))
      else
        match verifyRun py fl conv model d p.resolved with
        | .ok _ => runPoints resume attempts points f
        | .error _ =>
          match runExperiment py fl conv model (preserveInterrupted f p.stem) p (attempts p) with
          | (f, .error e) => (f, .error e)
          | (f, .ok _) => runPoints resume attempts points f
    | none =>
      match runExperiment py fl conv model f p (attempts p) with
      | (f, .error e) => (f, .error e)
      | (f, .ok _) => runPoints resume attempts points f

/-- The plan of a sweep, with the digest of the specification it was made from. -/
structure Plan where
  sourceSpecSha256 : String
  points : List Point

/-- The arguments of `run`, and what an invocation meets: whether the board can be reached, what
its experiments leave, and the verdict over the measurements. -/
structure Invocation where
  specSha256 : String
  access : Option String
  resume : Bool
  attempts : Point → Attempt
  verdict : List RunDirectory → Except String Bool

/-- `measure_point`, up to the numbers: the run is verified once more. -/
def measurePoint (f : Runs) (p : Point) : Except SweepError RunDirectory :=
  match f.get p.stem with
  | none => .error (.missing p.stem)
  | some d =>
    match verifyRun py fl conv model d p.resolved with
    | .error e => .error (.verify e)
    | .ok _ => .ok d

/-- `evaluate_sweep`, with the numbers in the verdict. -/
def evaluateSweep (verdict : List RunDirectory → Except String Bool) (points : List Point)
    (f : Runs) : Except SweepError Bool :=
  match points.mapM (measurePoint py fl conv model f) with
  | .error e => .error e
  | .ok runs =>
    match verdict runs with
    | .error message => .error (.evaluation message)
    | .ok passed => .ok passed

/-- `run_sweep`, with a plan that is there. -/
def runSweep (plan : Plan) (i : Invocation) (f : Runs) : Runs × Except SweepError Bool :=
  match i.access with
  | some message => (f, .error (.access message))
  | none =>
    if i.specSha256 ≠ plan.sourceSpecSha256 then (f, .error .otherSpecification)
    else
      match runPoints py fl conv model i.resume i.attempts plan.points f with
      | (f, .error e) => (f, .error e)
      | (f, .ok _) => (f, evaluateSweep py fl conv model i.verdict plan.points f)

/-- Invocations one after the other. -/
def machine (plan : Plan) : Machine Runs Invocation where
  step f i := some (runSweep py fl conv model plan i f).1

/-! ## What is verified -/

/-- The run is accepted for the point. -/
def Verifies (p : Point) (d : RunDirectory) : Prop :=
  ∃ found, verifyRun py fl conv model d p.resolved = .ok found

variable {py fl conv model} {p q : Point} {d : RunDirectory} {points : List Point}
  {f g k : Runs} {a : Attempt}

theorem verifyShots_snapshot (snapshot : Option Bytes) (resolved : Resolved)
    (shots : List ShotRecord) (known : List (ℕ × List ℕ)) (checked : ℕ) :
    verifyShots model { d with snapshot := snapshot } resolved shots known checked =
      verifyShots model d resolved shots known checked := by
  induction shots generalizing known checked with
  | nil => rfl
  | cons shot shots ih => simp only [verifyShots, ih]

/-- The picture is no part of the evidence. -/
theorem verifyRun_snapshot (snapshot : Option Bytes) (resolved : Resolved) :
    verifyRun py fl conv model { d with snapshot := snapshot } resolved =
      verifyRun py fl conv model d resolved := by
  simp only [verifyRun, verifyShots_snapshot]

/-- A verified run has shots, of the configuration of its point. -/
theorem verifies_configId (h : Verifies py fl conv model p d) : ∃ b shot,
    RunBundle.openRun py d.files = .ok b ∧ b.completeShots.head? = some shot ∧
      shot.configId = p.resolved.dspConfigId := by
  obtain ⟨found, h⟩ := h
  unfold verifyRun at h
  cases hopen : RunBundle.openRun py d.files with
  | error e =>
    rw [hopen] at h
    cases h
  | ok b =>
    rw [hopen] at h
    dsimp only at h
    split at h
    · cases h
    split at h
    · cases h
    · next first shots hshots =>
      refine ⟨b, first, rfl, by rw [hshots]; rfl, ?_⟩
      by_contra hne
      rw [verifyShots, if_pos hne] at h
      split at h
      · cases h
      split at h <;> cases h

/-- A run that is accepted for one point is stale for all others. -/
theorem verifies_once (hplan : Planned points) (hp : p ∈ points) (hq : q ∈ points)
    (h : Verifies py fl conv model p d) (h' : Verifies py fl conv model q d) : p = q := by
  obtain ⟨b, shot, hopen, hshot, hid⟩ := verifies_configId h
  obtain ⟨b', shot', hopen', hshot', hid'⟩ := verifies_configId h'
  rw [hopen] at hopen'
  cases hopen'
  rw [hshot] at hshot'
  cases hshot'
  exact List.inj_on_of_nodup_map hplan.configIds hp hq (hid.symm.trans hid')

/-! ## What is kept -/

variable (py fl conv model) in
/-- No run is lost: it is where it was, or it was not accepted for its point and is preserved. -/
structure Keeps (points : List Point) (f f' : Runs) : Prop where
  contents : f.contents <+: f'.contents
  entries : ∀ name d, f.get name = some d → f'.get name = some d ∨
    ∃ p ∈ points, p.stem = name ∧ ¬ Verifies py fl conv model p d ∧
      ∃ suffix, f'.get (interruptedName name suffix) = some d

theorem Keeps.refl (points : List Point) (f : Runs) : Keeps py fl conv model points f f :=
  ⟨List.prefix_refl _, fun _ _ h => .inl h⟩

theorem Keeps.trans (hplan : Planned points) (h : Keeps py fl conv model points f g)
    (h' : Keeps py fl conv model points g k) : Keeps py fl conv model points f k := by
  refine ⟨h.contents.trans h'.contents, fun name d hd => ?_⟩
  rcases h.entries name d hd with hstays | ⟨p, hp, hname, hnot, suffix, hmoved⟩
  · exact h'.entries name d hstays
  · rcases h'.entries _ d hmoved with hstays | ⟨q, hq, hname', -⟩
    · exact .inr ⟨p, hp, hname, hnot, suffix, hstays⟩
    · exact absurd hname' (hplan.stem_ne hq _ _)

/-- What is accepted stays where it is. -/
theorem Keeps.verified (hplan : Planned points) (h : Keeps py fl conv model points f g)
    (hp : p ∈ points) (hd : f.get p.stem = some d) (hverifies : Verifies py fl conv model p d) :
    g.get p.stem = some d := by
  rcases h.entries _ d hd with hstays | ⟨q, hq, hname, hnot, -⟩
  · exact hstays
  · exact absurd (List.inj_on_of_nodup_map hplan.stems hq hp hname ▸ hverifies) hnot

/-- An experiment adds at most one entry, under the name of its point. -/
theorem runExperiment_get (f : Runs) (p : Point) (a : Attempt) {name : List Char}
    (hname : name ≠ p.stem) :
    (runExperiment py fl conv model f p a).1.get name = f.get name := by
  unfold runExperiment
  split
  · rfl
  · split
    · rfl
    · rw [Folder.get_put, if_neg hname]

theorem keeps_experiment (f : Runs) (p : Point) (a : Attempt) :
    Keeps py fl conv model points f (runExperiment py fl conv model f p a).1 := by
  refine ⟨?_, fun name d hd => .inl ?_⟩
  · unfold runExperiment
    split
    · exact List.prefix_refl _
    · split
      · exact List.prefix_refl _
      · rw [Folder.contents_put]
        exact List.prefix_append _ _
  · by_cases hname : name = p.stem
    · have hmem : p.stem ∈ f.names := by
        by_contra hnot
        rw [hname, f.get_eq_none.mpr hnot] at hd
        cases hd
      unfold runExperiment
      rw [dif_pos hmem]
      exact hd
    · rw [runExperiment_get f p a hname]
      exact hd

/-- After an experiment that succeeded there is a verified run. -/
theorem verified_experiment (h : (runExperiment py fl conv model f p a).2 = .ok ()) :
    ∃ d, (runExperiment py fl conv model f p a).1.get p.stem = some d ∧
      Verifies py fl conv model p d := by
  unfold runExperiment at h ⊢
  split at h
  · cases h
  · split at h
    · cases h
    · next d hrecorded =>
      rw [dif_neg ‹_›]
      refine ⟨_, by rw [Folder.get_put, if_pos rfl], ?_⟩
      dsimp only at h
      unfold Attempt.finish at h ⊢
      split at h
      · cases h
      split at h
      · cases h
      · next found hfound =>
        split at h
        · cases h
        · exact ⟨found, (verifyRun_snapshot _ _).trans hfound⟩

/-- A run that is not accepted is preserved under a free name. -/
theorem preserveInterrupted_eq (f : Runs) (name : List Char) : ∃ suffix,
    ∃ h : interruptedName name suffix ∉ f.names,
      preserveInterrupted f name = f.move name (interruptedName name suffix) h := by
  obtain ⟨suffix, hsuffix⟩ := f.exists_firstFree (interruptedName_injective name) 1
  refine ⟨suffix, f.firstFree_free hsuffix, ?_⟩
  unfold preserveInterrupted
  split
  · next hnone =>
    rw [hsuffix] at hnone
    cases hnone
  · next found hfound =>
    rw [hsuffix] at hfound
    cases hfound
    rfl

theorem preserveInterrupted_get (f : Runs) (hplan : Planned points) (hq : q ∈ points)
    (name : List Char) : (preserveInterrupted f name).get q.stem =
      if q.stem = name then none else f.get q.stem := by
  obtain ⟨suffix, hfree, heq⟩ := preserveInterrupted_eq f name
  rw [heq, Folder.get_move, if_neg (hplan.stem_ne hq name suffix)]

theorem keeps_preserve (hp : p ∈ points) (hd : f.get p.stem = some d)
    (hnot : ¬ Verifies py fl conv model p d) :
    Keeps py fl conv model points f (preserveInterrupted f p.stem) := by
  obtain ⟨suffix, hfree, heq⟩ := preserveInterrupted_eq f p.stem
  rw [heq]
  refine ⟨by rw [Folder.contents_move], fun name d' hd' => ?_⟩
  by_cases hname : name = p.stem
  · subst hname
    rw [hd] at hd'
    cases hd'
    exact .inr ⟨p, hp, rfl, hnot, suffix, by rw [Folder.get_move, if_pos rfl]; exact hd⟩
  · left
    rw [Folder.get_move, if_neg hname, if_neg ?_]
    · exact hd'
    · rintro rfl
      rw [f.get_eq_none.mpr hfree] at hd'
      cases hd'

/-! ## The loop -/

variable (py fl conv model) in
/-- The point has no accepted run. -/
def Due (f : Runs) (p : Point) : Prop :=
  ∀ d, f.get p.stem = some d → ¬ Verifies py fl conv model p d

variable (py fl conv model) in
/-- An experiment that succeeds. -/
def Attempt.Good (p : Point) (a : Attempt) : Prop :=
  ∃ d picture, a.recorded = some d ∧ a.failure = none ∧ Verifies py fl conv model p d ∧
    a.picture = .ok picture

variable (py fl conv model) in
/-- Every point has an accepted run. -/
def AllVerified (points : List Point) (f : Runs) : Prop :=
  ∀ p ∈ points, ∃ d, f.get p.stem = some d ∧ Verifies py fl conv model p d

theorem experiment_good (hnone : f.get p.stem = none) (ha : a.Good py fl conv model p) :
    (runExperiment py fl conv model f p a).2 = .ok () := by
  obtain ⟨d, picture, hrecorded, hfailure, ⟨found, hfound⟩, hpicture⟩ := ha
  unfold runExperiment
  rw [dif_neg (f.get_eq_none.mp hnone), hrecorded]
  dsimp only
  unfold Attempt.finish
  rw [hfailure]
  dsimp only
  rw [hfound, hpicture]

variable (py fl conv model) in
/-- What the loop does with a point: it stops, skips it, or makes an experiment where there is no
run, which does not depend on what the experiments leave. -/
theorem runPoints_cons (hplan : Planned points) (hp : p ∈ points) (resume : Bool)
    (rest : List Point) (f : Runs) :
    (resume = false ∧ ∃ e, ∀ attempts,
      runPoints py fl conv model resume attempts (p :: rest) f = (f, .error e)) ∨
    ((∃ d, f.get p.stem = some d ∧ Verifies py fl conv model p d) ∧ ∀ attempts,
      runPoints py fl conv model resume attempts (p :: rest) f =
        runPoints py fl conv model resume attempts rest f) ∨
    Due py fl conv model f p ∧ ∃ g, Keeps py fl conv model points f g ∧ g.get p.stem = none ∧
      (∀ q ∈ points, q.stem ≠ p.stem → g.get q.stem = f.get q.stem) ∧ ∀ attempts,
        runPoints py fl conv model resume attempts (p :: rest) f =
          match runExperiment py fl conv model g p (attempts p) with
          | (k, .error e) => (k, .error e)
          | (k, .ok _) => runPoints py fl conv model resume attempts rest k := by
  cases hget : f.get p.stem with
  | none =>
    refine .inr (.inr ⟨fun d hd => ?_, f, Keeps.refl _ _, hget, fun _ _ _ => rfl,
      fun attempts => ?_⟩)
    · rw [hget] at hd
      cases hd
    · rw [runPoints, hget]
  | some d =>
    cases resume with
    | false =>
      refine .inl ⟨rfl, .runExists p.stem, fun attempts => ?_⟩
      rw [runPoints, hget]
      rfl
    | true =>
      cases hverify : verifyRun py fl conv model d p.resolved with
      | ok found =>
        refine .inr (.inl ⟨⟨d, rfl, found, hverify⟩, fun attempts => ?_⟩)
        rw [runPoints, hget]
        dsimp only
        rw [if_neg (by decide), hverify]
      | error e =>
        -- a run that is there and not accepted is preserved first
        have hnot : ¬ Verifies py fl conv model p d := by
          rintro ⟨found, hfound⟩
          rw [hverify] at hfound
          cases hfound
        refine .inr (.inr ⟨fun d' hd' => ?_, preserveInterrupted f p.stem,
          keeps_preserve hp hget hnot, ?_, fun q hq hne => ?_, fun attempts => ?_⟩)
        · rw [hget] at hd'
          cases hd'
          exact hnot
        · rw [preserveInterrupted_get f hplan hp, if_pos rfl]
        · rw [preserveInterrupted_get f hplan hq, if_neg hne]
        · rw [runPoints, hget]
          dsimp only
          rw [if_neg (by decide), hverify]

variable {resume : Bool} {attempts attempts' : Point → Attempt} {rest : List Point}

theorem keeps_runPoints (hplan : Planned points) (hrest : rest ⊆ points) (f : Runs) :
    Keeps py fl conv model points f (runPoints py fl conv model resume attempts rest f).1 := by
  induction rest generalizing f with
  | nil => exact Keeps.refl _ _
  | cons p rest ih =>
    obtain ⟨hp, hrest⟩ := List.cons_subset.mp hrest
    obtain ⟨-, e, hstop⟩ | ⟨-, hskip⟩ | ⟨-, g, hkeeps, -, -, hwork⟩ :=
      runPoints_cons py fl conv model hplan hp resume rest f
    · rw [hstop]
      exact Keeps.refl _ _
    · rw [hskip]
      exact ih hrest f
    · have hexperiment := hkeeps.trans hplan (keeps_experiment g p (attempts p))
      rw [hwork]
      split
      · next k e heq =>
        rw [heq] at hexperiment
        exact hexperiment
      · next k u heq =>
        rw [heq] at hexperiment
        exact hexperiment.trans hplan (ih hrest k)

/-- When the loop comes to its end, every point has an accepted run. -/
theorem verified_runPoints (hplan : Planned points) (hrest : rest ⊆ points) (f : Runs)
    (h : (runPoints py fl conv model resume attempts rest f).2 = .ok ()) :
    AllVerified py fl conv model rest (runPoints py fl conv model resume attempts rest f).1 := by
  induction rest generalizing f with
  | nil => exact fun _ hq => absurd hq List.not_mem_nil
  | cons p rest ih =>
    obtain ⟨hp, hrest⟩ := List.cons_subset.mp hrest
    -- the run of the point is kept by the rest of the loop
    have hcons : ∀ k d, k.get p.stem = some d → Verifies py fl conv model p d →
        (runPoints py fl conv model resume attempts rest k).2 = .ok () →
        AllVerified py fl conv model (p :: rest)
          (runPoints py fl conv model resume attempts rest k).1 := fun k d hd hv hok =>
      List.forall_mem_cons.mpr
        ⟨⟨d, (keeps_runPoints hplan hrest k).verified hplan hp hd hv, hv⟩, ih hrest k hok⟩
    obtain ⟨-, e, hstop⟩ | ⟨⟨d, hd, hv⟩, hskip⟩ | ⟨-, g, -, -, -, hwork⟩ :=
      runPoints_cons py fl conv model hplan hp resume rest f
    · rw [hstop] at h
      cases h
    · rw [hskip] at h ⊢
      exact hcons f d hd hv h
    · rw [hwork] at h ⊢
      split at h
      · cases h
      · next k u heq =>
        obtain ⟨d, hd, hv⟩ := verified_experiment (congrArg Prod.snd heq)
        rw [heq] at hd
        exact hcons k d hd hv h

/-- The runs of the other points are not touched by an experiment. -/
theorem due_experiment (hplan : Planned points) (hp : p ∈ points) (hq : q ∈ points) (hne : q ≠ p)
    (hother : ∀ q ∈ points, q.stem ≠ p.stem → g.get q.stem = f.get q.stem)
    (hk : (runExperiment py fl conv model g p a).1 = k) (hdue : Due py fl conv model k q) :
    Due py fl conv model f q := by
  have hstem : q.stem ≠ p.stem := fun heq => hne (List.inj_on_of_nodup_map hplan.stems hq hp heq)
  intro d hd
  refine hdue d ?_
  rw [← hk, runExperiment_get g p a hstem, hother q hq hstem]
  exact hd

/-- The loop comes to its end when the experiments of the points that are due succeed. -/
theorem runPoints_finishes (hplan : Planned points) (hrest : rest ⊆ points) (hnodup : rest.Nodup)
    (f : Runs) (hgood : ∀ p ∈ rest, Due py fl conv model f p →
      (attempts p).Good py fl conv model p) :
    (runPoints py fl conv model true attempts rest f).2 = .ok () := by
  induction rest generalizing f with
  | nil => rfl
  | cons p rest ih =>
    obtain ⟨hp, hrest⟩ := List.cons_subset.mp hrest
    obtain ⟨hnew, hnodup⟩ := List.nodup_cons.mp hnodup
    obtain ⟨hfirst, hgood⟩ := List.forall_mem_cons.mp hgood
    obtain ⟨hno, -⟩ | ⟨-, hskip⟩ | ⟨hdue, g, -, hnone, hother, hwork⟩ :=
      runPoints_cons py fl conv model hplan hp true rest f
    · cases hno
    · rw [hskip]
      exact ih hrest hnodup f hgood
    · have hok := experiment_good hnone (hfirst hdue)
      rw [hwork]
      split
      · next k e heq =>
        rw [heq] at hok
        cases hok
      · next k u heq =>
        refine ih hrest hnodup k fun q hq hdue => hgood q hq ?_
        exact due_experiment hplan hp (hrest hq) (fun heq => hnew (heq ▸ hq)) hother
          (congrArg Prod.fst heq) hdue

/-- Only the points that are due are attempted. -/
theorem runPoints_congr (hplan : Planned points) (hrest : rest ⊆ points) (hnodup : rest.Nodup)
    (f : Runs) (hsame : ∀ p ∈ rest, Due py fl conv model f p → attempts p = attempts' p) :
    runPoints py fl conv model resume attempts rest f =
      runPoints py fl conv model resume attempts' rest f := by
  induction rest generalizing f with
  | nil => rfl
  | cons p rest ih =>
    obtain ⟨hp, hrest⟩ := List.cons_subset.mp hrest
    obtain ⟨hnew, hnodup⟩ := List.nodup_cons.mp hnodup
    obtain ⟨hfirst, hsame⟩ := List.forall_mem_cons.mp hsame
    obtain ⟨-, e, hstop⟩ | ⟨-, hskip⟩ | ⟨hdue, g, -, hnone, hother, hwork⟩ :=
      runPoints_cons py fl conv model hplan hp resume rest f
    · rw [hstop, hstop]
    · rw [hskip, hskip]
      exact ih hrest hnodup f hsame
    · rw [hwork, hwork, hfirst hdue]
      split
      · rfl
      · next k u heq =>
        refine ih hrest hnodup k fun q hq hdue => hsame q hq ?_
        exact due_experiment hplan hp (hrest hq) (fun heq => hnew (heq ▸ hq)) hother
          (congrArg Prod.fst heq) hdue

/-! ## Invocations -/

variable {plan : Plan} {i : Invocation}

/-- An invocation does nothing, or it is the loop. -/
theorem runSweep_cases (plan : Plan) (i : Invocation) (f : Runs) :
    (∃ e, ∀ attempts,
      runSweep py fl conv model plan { i with attempts := attempts } f = (f, .error e)) ∨
    ∀ attempts, runSweep py fl conv model plan { i with attempts := attempts } f =
      match runPoints py fl conv model i.resume attempts plan.points f with
      | (f, .error e) => (f, .error e)
      | (f, .ok _) => (f, evaluateSweep py fl conv model i.verdict plan.points f) := by
  unfold runSweep
  cases i.access with
  | some message => exact .inl ⟨.access message, fun _ => rfl⟩
  | none =>
    dsimp only
    by_cases hspec : i.specSha256 = plan.sourceSpecSha256
    · exact .inr fun _ => if_neg (not_not.mpr hspec)
    · exact .inl ⟨.otherSpecification, fun _ => if_pos hspec⟩

/-- The folder after an invocation is the one before it, or the one after the loop. -/
theorem runSweep_fst (plan : Plan) (i : Invocation) (f : Runs) :
    (runSweep py fl conv model plan i f).1 = f ∨ (runSweep py fl conv model plan i f).1 =
      (runPoints py fl conv model i.resume i.attempts plan.points f).1 := by
  rcases runSweep_cases plan i f with ⟨e, hstop⟩ | hloop
  · exact .inl (congrArg Prod.fst (hstop i.attempts))
  · refine .inr ((congrArg Prod.fst (hloop i.attempts)).trans ?_)
    split
    · next k e heq => rw [heq]
    · next k u heq => rw [heq]

theorem keeps_runSweep (hplan : Planned plan.points) (i : Invocation) (f : Runs) :
    Keeps py fl conv model plan.points f (runSweep py fl conv model plan i f).1 := by
  rcases runSweep_fst plan i f with heq | heq
  · rw [heq]
    exact Keeps.refl _ _
  · rw [heq]
    exact keeps_runPoints hplan (List.Subset.refl _) f

/-- An invocation with a verdict has an accepted run for every point. -/
theorem verified_runSweep (hplan : Planned plan.points) (f : Runs) {passed : Bool}
    (h : (runSweep py fl conv model plan i f).2 = .ok passed) :
    AllVerified py fl conv model plan.points (runSweep py fl conv model plan i f).1 := by
  rcases runSweep_cases plan i f with ⟨e, hstop⟩ | hloop
  · have hstop : runSweep py fl conv model plan i f = (f, .error e) := hstop i.attempts
    rw [hstop] at h
    cases h
  · have hloop := hloop i.attempts
    change runSweep py fl conv model plan i f = _ at hloop
    rw [hloop] at h ⊢
    split at h
    · cases h
    · next k u heq =>
      have hall : AllVerified py fl conv model plan.points
          (runPoints py fl conv model i.resume i.attempts plan.points f).1 :=
        verified_runPoints hplan (List.Subset.refl _) f (congrArg Prod.snd heq)
      rw [heq] at hall
      exact hall

/-- An invocation whose experiments succeed where they are due leaves an accepted run for every
point. -/
theorem finishes_runSweep (hplan : Planned plan.points) (f : Runs) (haccess : i.access = none)
    (hspec : i.specSha256 = plan.sourceSpecSha256) (hresume : i.resume = true)
    (hgood : ∀ p ∈ plan.points, Due py fl conv model f p →
      (i.attempts p).Good py fl conv model p) :
    AllVerified py fl conv model plan.points (runSweep py fl conv model plan i f).1 := by
  have hok :=
    runPoints_finishes hplan (List.Subset.refl _) (List.Nodup.of_map _ hplan.stems) f hgood
  have hall := verified_runPoints hplan (List.Subset.refl _) f hok
  unfold runSweep
  rw [haccess, hresume]
  dsimp only
  rw [if_neg (not_not.mpr hspec)]
  split
  · next k e heq =>
    rw [heq] at hok
    cases hok
  · next k u heq =>
    rw [heq] at hall
    exact hall

theorem congr_runSweep (hplan : Planned plan.points) (i : Invocation) (f : Runs)
    (hsame : ∀ p ∈ plan.points, Due py fl conv model f p → attempts p = i.attempts p) :
    runSweep py fl conv model plan { i with attempts := attempts } f =
      runSweep py fl conv model plan i f := by
  rcases runSweep_cases plan i f with ⟨e, hstop⟩ | hloop
  · exact (hstop attempts).trans (hstop i.attempts).symm
  · have hpoints : runPoints py fl conv model i.resume attempts plan.points f =
        runPoints py fl conv model i.resume i.attempts plan.points f :=
      runPoints_congr hplan (List.Subset.refl _) (List.Nodup.of_map _ hplan.stems) f hsame
    refine (hloop attempts).trans (Eq.trans ?_ (hloop i.attempts).symm)
    rw [hpoints]

/-- A sweep that is resumed any number of times, where each invocation may end anywhere. No run is
lost or overwritten: a run that was accepted is where it was, and is accepted for no other point,
and any other run is there too or is preserved under a name of its own. The next invocation makes
experiments only for the points without an accepted run. It has an accepted run for every point
when it comes to a verdict, and it does when these experiments succeed. -/
theorem sweep_resumes {signalHz : ℤ} {compile : ℤ → Except String Resolved}
    {spec : List SpecPoint} (hprepared : preparePlan signalHz compile spec = .ok plan.points)
    {l : List Invocation} (hrun : (machine py fl conv model plan).run f l = some g) :
    Keeps py fl conv model plan.points f g ∧
      (∀ p ∈ plan.points, ∀ d, f.get p.stem = some d → Verifies py fl conv model p d →
        g.get p.stem = some d ∧
          ∀ q ∈ plan.points, Verifies py fl conv model q d → q = p) ∧
      ∀ i : Invocation,
        (∀ attempts : Point → Attempt,
          (∀ p ∈ plan.points, Due py fl conv model g p → attempts p = i.attempts p) →
          runSweep py fl conv model plan { i with attempts := attempts } g =
            runSweep py fl conv model plan i g) ∧
        (∀ passed, (runSweep py fl conv model plan i g).2 = .ok passed →
          AllVerified py fl conv model plan.points (runSweep py fl conv model plan i g).1) ∧
        (i.access = none → i.specSha256 = plan.sourceSpecSha256 → i.resume = true →
          (∀ p ∈ plan.points, Due py fl conv model g p → (i.attempts p).Good py fl conv model p) →
          AllVerified py fl conv model plan.points (runSweep py fl conv model plan i g).1) := by
  have hplan := preparePlan_planned hprepared
  have hreach : (machine py fl conv model plan).Reachable f g := ⟨l, hrun⟩
  have hkeeps : Keeps py fl conv model plan.points f g :=
    hreach.invariant (Keeps.refl _ _) fun s i s' hs hstep => by
      cases hstep
      exact hs.trans hplan (keeps_runSweep hplan i s)
  refine ⟨hkeeps, fun p hp d hd hv => ⟨hkeeps.verified hplan hp hd hv, fun q hq hv' =>
    verifies_once hplan hq hp hv' hv⟩, fun i => ⟨fun _ hsame => congr_runSweep hplan i g hsame,
    fun _ h => verified_runSweep hplan g h, finishes_runSweep hplan g⟩⟩

end

/-! ## A sweep of three points -/

def threePoints : List SpecPoint :=
  [⟨"pass".toList, 0, "passband", true⟩, ⟨"edge".toList, 4000000, "transition", false⟩,
    ⟨"stop".toList, 10000000, "stopband", false⟩]

/-- Profiles that differ in the LO frequency. -/
def compileLo (loFrequencyHz : ℤ) : Except String Resolved :=
  .ok ⟨loFrequencyHz.toNat + 7, loFrequencyHz, loFrequencyHz.toNat⟩

def threePlan : Plan :=
  ⟨"", match preparePlan 0 compileLo threePoints with
    | .ok points => points
    | .error _ => []⟩

/-- The report of the sender of two shots, with its stream. -/
def streamSender : Report ℤ :=
  twoSender ++
    [("stream", .object [("config_id", hexField 16 7), ("center_frequency_hz", .int 0)])]

/-- A model of one word and one tone, whatever the profile. -/
def steadyModel : Model ℤ where
  expectedWords _ count := .ok (List.replicate count 0x04030201)
  dominantFrequency _ _ _ _ := .ok 0

/-- The recording of two shots under the profile of the first point. -/
def passRun : Option RunDirectory :=
  twoFiles.map fun f => ⟨f, (Recorder.recordTwo Recorder.twoShotRun.sent).run.samples, none, none⟩

/-- A directory of an empty index. -/
def brokenRun : RunDirectory := ⟨⟨[], 0, none, none⟩, [], none, none⟩

/-- A sweep that was stopped in its second point. -/
def stoppedRuns (d : RunDirectory) : Runs :=
  ⟨[("00-pass".toList, d), ("01-edge".toList, brokenRun)],
    (by decide : ["00-pass".toList, "01-edge".toList].Nodup)⟩

/-- An invocation that cannot record anything. -/
def fruitless : Invocation where
  specSha256 := ""
  access := none
  resume := true
  attempts _ := ⟨none, none, .error ""⟩
  verdict _ := .ok true

theorem sweep_resumes_stopped : ∃ d g, passRun = some d ∧
    (machine (pairPython twoManifest streamSender) wholeFloats wholeConversions steadyModel
      threePlan).run (stoppedRuns d) [fruitless, fruitless] = some g ∧
    g.get "00-pass".toList = some d ∧
    (g.get "01-edge.interrupted-01".toList).isSome ∧
    Keeps (pairPython twoManifest streamSender) wholeFloats wholeConversions steadyModel
      threePlan.points (stoppedRuns d) g := by
  have hpoints : threePlan.points.head?.any (fun p => decide (p.stem = "00-pass".toList)) = true :=
    by decide +kernel
  have hprepared : preparePlan 0 compileLo threePoints = .ok threePlan.points := by
    decide +kernel
  have hrun : passRun.any (fun d =>
      threePlan.points.head?.any (fun p =>
        (verifyRun (pairPython twoManifest streamSender) wholeFloats wholeConversions steadyModel d
          p.resolved).toOption.isSome) &&
      ((machine (pairPython twoManifest streamSender) wholeFloats wholeConversions steadyModel
        threePlan).run (stoppedRuns d) [fruitless, fruitless]).any
          (fun g => (g.get "01-edge.interrupted-01".toList).isSome)) = true := by
    decide +kernel
  obtain ⟨d, hd, hrun⟩ := (Option.any_eq_true _ _).mp hrun
  obtain ⟨hverified, hran⟩ := Bool.and_eq_true_iff.mp hrun
  obtain ⟨p, hp, hverified⟩ := (Option.any_eq_true _ _).mp hverified
  obtain ⟨p', hp', hstem⟩ := (Option.any_eq_true _ _).mp hpoints
  obtain ⟨g, hg, hpreserved⟩ := (Option.any_eq_true _ _).mp hran
  cases Option.some.inj (hp.symm.trans hp')
  obtain ⟨hkeeps, hstays, -⟩ := sweep_resumes hprepared hg
  have hverifies : Verifies (pairPython twoManifest streamSender) wholeFloats wholeConversions
      steadyModel p d := by
    unfold Verifies
    cases hresult : verifyRun (pairPython twoManifest streamSender) wholeFloats wholeConversions
        steadyModel d p.resolved with
    | error e =>
      rw [hresult] at hverified
      cases hverified
    | ok found => exact ⟨found, rfl⟩
  have hname : p.stem = "00-pass".toList := of_decide_eq_true hstem
  have hget : (stoppedRuns d).get p.stem = some d := by
    rw [hname]
    rfl
  refine ⟨d, g, hd, hg, ?_, hpreserved, hkeeps⟩
  rw [← hname]
  exact (hstays p (List.mem_of_mem_head? hp) d hget hverifies).1

end QCrate.Sweep
