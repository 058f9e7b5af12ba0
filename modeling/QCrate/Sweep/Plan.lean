import QCrate.Host.DecimalText

/-!
# The plan of a sweep

`prepare_plan` of `qcrate_sweep.py`, from the points of a specification to the points of a plan,
with the names under which the runs of a sweep are kept.

* `preparePlan` — the tests, in the order in which they are made.
* `Planned` — what a plan is good for.
* `preparePlan_planned` — every plan that is prepared is.
-/

namespace QCrate.Sweep

open QCrate.Host

/-! ## Names -/

/-- `f"{n:02d}"` -/
def twoDigits (n : ℕ) : List Char :=
  let digits := Nat.toDigits 10 n
  List.replicate (2 - digits.length) '0' ++ digits

/-- `path.with_name(f"{path.name}.interrupted-{suffix:02d}")` -/
def interruptedName (name : List Char) (suffix : ℕ) : List Char :=
  name ++ ".interrupted-".toList ++ twoDigits suffix

theorem twoDigits_spelled (n : ℕ) : DigitText (twoDigits n) ∧ spelled (twoDigits n) = n := by
  obtain ⟨hdigits, hvalue⟩ := toDigits_spelled n
  obtain ⟨hzeros, hzero⟩ := zeros_spelled (2 - (Nat.toDigits 10 n).length)
  refine ⟨digitText_append hzeros hdigits, ?_⟩
  show spelled (List.replicate _ '0' ++ Nat.toDigits 10 n) = n
  rw [spelled_append hzeros hdigits, hzero, hvalue, Nat.zero_mul, Nat.zero_add]

theorem twoDigits_injective : Function.Injective twoDigits := fun m n h => by
  rw [← (twoDigits_spelled m).2, h, (twoDigits_spelled n).2]

theorem interruptedName_injective (name : List Char) :
    Function.Injective (interruptedName name) := fun _ _ h =>
  twoDigits_injective (List.append_cancel_left h)

theorem dot_mem_interruptedName (name : List Char) (suffix : ℕ) :
    '.' ∈ interruptedName name suffix :=
  List.mem_append_left _ (List.mem_append_right _ (by decide))

/-! ## Points -/

inductive Region where
  | passband | transition | stopband
  deriving DecidableEq, Repr

def Region.text : Region → String
  | .passband => "passband"
  | .transition => "transition"
  | .stopband => "stopband"

def passbandHz : ℕ := 2000000
def stopbandHz : ℕ := 6250000

/-- `response_region` -/
def responseRegion (offsetHz : ℤ) : Region :=
  if offsetHz.natAbs ≤ passbandHz then .passband
  else if offsetHz.natAbs < stopbandHz then .transition
  else .stopband

/-- A point of the specification. -/
structure SpecPoint where
  label : List Char
  loFrequencyHz : ℤ
  region : String
  reference : Bool

/-- What the plan and `verify_run` use of a resolved profile. -/
structure Resolved where
  dspConfigId : ℕ
  centerFrequencyHz : ℤ
  loPhaseIncrement : ℕ
  deriving DecidableEq, Repr

structure Point where
  ordinal : ℕ
  label : List Char
  region : Region
  reference : Bool
  requestedLoFrequencyHz : ℤ
  resolved : Resolved
  deriving DecidableEq

/-- The name of the profiles and of the run. -/
def Point.stem (p : Point) : List Char := twoDigits p.ordinal ++ '-' :: p.label

/-- The letters and digits of a label. -/
def labelChar (c : Char) : Bool := c.isLower || c.isDigit

/-- `LABEL_PATTERN.fullmatch` -/
def labelMatches : List Char → Bool
  | [] => false
  | c :: rest => labelChar c && rest.length ≤ 63 && rest.all fun c => labelChar c || c == '-'

inductive PlanError where
  | fewPoints
  | invalidLabel (ordinal : ℕ)
  | duplicateLabel (label : List Char)
  | loFrequency (label : List Char)
  | region (label : List Char) (actual : Region)
  | compile (message : String)
  | references
  | regions
  | configIds
  | tuningWords
  deriving DecidableEq

section

variable (signalHz : ℤ) (compile : ℤ → Except String Resolved)

/-- The loop over the points. `compile` is `compile_profile` of the base profile with another LO
frequency. -/
def planPoints : ℕ → List (List Char) → List SpecPoint → Except PlanError (List Point)
  | _, _, [] => .ok []
  | ordinal, labels, point :: points =>
    if !labelMatches point.label then .error (.invalidLabel ordinal)
    else if point.label ∈ labels then .error (.duplicateLabel point.label)
    else if ¬ (0 ≤ point.loFrequencyHz ∧ point.loFrequencyHz < sampleRateHz / 2) then
      .error (.loFrequency point.label)
    else
      let actual := responseRegion (signalHz - point.loFrequencyHz)
      if point.region ≠ actual.text then .error (.region point.label actual)
      else
        match compile point.loFrequencyHz with
        | .error message => .error (.compile message)
        | .ok resolved =>
          match planPoints (ordinal + 1) (point.label :: labels) points with
          | .error e => .error e
          | .ok planned =>
            .ok (⟨ordinal, point.label, actual, point.reference, point.loFrequencyHz, resolved⟩ ::
              planned)

/-- `prepare_plan` -/
def preparePlan (spec : List SpecPoint) : Except PlanError (List Point) :=
  if spec.length < 3 then .error .fewPoints
  else
    match planPoints signalHz compile 0 [] spec with
    | .error e => .error e
    | .ok points =>
      if points.countP (·.reference) ≠ 1 then .error .references
      else if [Region.passband, .transition, .stopband].any (· ∉ points.map (·.region)) then
        .error .regions
      else if ¬ (points.map (·.resolved.dspConfigId)).Nodup then .error .configIds
      else if ¬ (points.map (·.resolved.loPhaseIncrement)).Nodup then .error .tuningWords
      else .ok points

end

/-! ## What a plan is good for -/

/-- The runs have names of their own, which are not those of preserved runs. -/
structure Planned (points : List Point) : Prop where
  stems : (points.map Point.stem).Nodup
  plain : ∀ p ∈ points, '.' ∉ p.stem
  configIds : (points.map (·.resolved.dspConfigId)).Nodup

theorem Planned.stem_ne {points : List Point} (h : Planned points) {p : Point} (hp : p ∈ points)
    (name : List Char) (suffix : ℕ) : p.stem ≠ interruptedName name suffix := by
  intro heq
  refine h.plain p hp ?_
  rw [heq]
  exact dot_mem_interruptedName name suffix

theorem plain_label {label : List Char} (h : labelMatches label = true) : '.' ∉ label := by
  intro hdot
  cases label with
  | nil => cases hdot
  | cons c rest =>
    unfold labelMatches at h
    simp only [Bool.and_eq_true, List.all_eq_true, decide_eq_true_eq] at h
    rcases List.mem_cons.mp hdot with rfl | hmem
    · exact absurd h.1.1 (by decide)
    · exact absurd (h.2 _ hmem) (by decide)

theorem DigitText.not_mem {cs : List Char} (h : DigitText cs) {c : Char}
    (hc : ∀ d < 10, c ≠ Nat.digitChar d) : c ∉ cs := by
  intro hmem
  obtain ⟨d, hd, heq⟩ := h c hmem
  exact hc d hd heq

/-- The label can be told from the name. -/
theorem label_of_stem (p : Point) : (p.stem.dropWhile (· ≠ '-')).tail = p.label := by
  have hdigits : ∀ c ∈ twoDigits p.ordinal, decide (c ≠ '-') = true := by
    intro c hc
    rw [decide_eq_true_eq]
    rintro rfl
    exact DigitText.not_mem (twoDigits_spelled p.ordinal).1 (by decide) hc
  unfold Point.stem
  rw [List.dropWhile_append_of_pos hdigits]
  rfl

theorem plain_stem {p : Point} (h : '.' ∉ p.label) : '.' ∉ p.stem := by
  intro hdot
  rcases List.mem_append.mp hdot with hmem | hmem
  · exact DigitText.not_mem (twoDigits_spelled p.ordinal).1 (by decide) hmem
  · rcases List.mem_cons.mp hmem with hc | hmem
    · exact absurd hc (by decide)
    · exact h hmem

variable {signalHz : ℤ} {compile : ℤ → Except String Resolved}

/-- The labels of the points that are planned match the pattern and are new. -/
theorem planPoints_labels {spec : List SpecPoint} {ordinal : ℕ} {labels : List (List Char)}
    {points : List Point} (h : planPoints signalHz compile ordinal labels spec = .ok points) :
    (points.map (·.label)).Nodup ∧
      ∀ p ∈ points, labelMatches p.label = true ∧ p.label ∉ labels := by
  induction spec generalizing ordinal labels points with
  | nil =>
    cases h
    exact ⟨List.nodup_nil, nofun⟩
  | cons point spec ih =>
    rw [planPoints] at h
    split_ifs at h with hmatches hnew hfrequency
    dsimp only at h
    split_ifs at h
    cases hcompile : compile point.loFrequencyHz with
    | error message =>
      rw [hcompile] at h
      cases h
    | ok resolved =>
      rw [hcompile] at h
      dsimp only at h
      cases hrest : planPoints signalHz compile (ordinal + 1) (point.label :: labels) spec with
      | error e =>
        rw [hrest] at h
        cases h
      | ok planned =>
        rw [hrest] at h
        cases h
        obtain ⟨hnodup, hall⟩ := ih hrest
        rw [Bool.not_eq_true', Bool.not_eq_false] at hmatches
        refine ⟨List.nodup_cons.mpr ⟨?_, hnodup⟩, List.forall_mem_cons.mpr ⟨⟨hmatches, hnew⟩, ?_⟩⟩
        · intro hmem
          obtain ⟨p, hp, heq⟩ := List.mem_map.mp hmem
          exact (hall p hp).2 (heq ▸ List.mem_cons_self)
        · exact fun p hp => ⟨(hall p hp).1, fun hmem =>
            (hall p hp).2 (List.mem_cons_of_mem _ hmem)⟩

theorem preparePlan_planned {spec : List SpecPoint} {points : List Point}
    (h : preparePlan signalHz compile spec = .ok points) : Planned points := by
  unfold preparePlan at h
  split_ifs at h
  cases hpoints : planPoints signalHz compile 0 [] spec with
  | error e =>
    rw [hpoints] at h
    cases h
  | ok planned =>
    rw [hpoints] at h
    dsimp only at h
    split_ifs at h with hreferences hregions hids
    cases h
    obtain ⟨hlabels, hall⟩ := planPoints_labels hpoints
    refine ⟨?_, fun p hp => plain_stem (plain_label (hall p hp).1), hids⟩
    refine List.Nodup.of_map (fun stem => (stem.dropWhile (· ≠ '-')).tail) ?_
    rw [List.map_map]
    exact (List.map_congr_left fun p _ => label_of_stem p).symm ▸ hlabels

end QCrate.Sweep
