import Mathlib.Logic.Relation
import QCrate.Recorder.Accounting
import QCrate.Recorder.Publishing

/-!
# The recorder: when a shot is ready

`shot_sequence_complete` and `count_missing` walk over the same sorted packets, count with
64 bits, and find the same shots ready. So a shot that the first lets through is never sent back
by the second.

* `ShotState.Kept` — what every entry of the table keeps: distinct sequences, and the packets of
  its STREAM_INFO and SHOT_END.
* `ShotState.Ready` — both are there, and every sequence between them.
* `PublishesReady` — the lowest entry is ready and is published.
* `readiness_exact` — both walks find exactly the ready shots, and the loop publishes the lowest
  shot as long as it is ready.
-/

namespace QCrate.Recorder

open QCrate.Lib QCrate.DataPlane

namespace ShotState

/-- An entry has one packet for each sequence, and those it took its metadata from. -/
structure Kept (shot : ShotState) : Prop where
  distinct : shot.sequences.Nodup
  inRange : ∀ q ∈ shot.sequences, q ≤ uint64Max
  info : ∀ header info, shot.info = some (header, info) →
    header.packetType = .streamInfo ∧ ∃ p ∈ shot.packets, p.header = header
  shotEnd : ∀ header last, shot.shotEnd = some (header, last) →
    header.packetType = .shotEnd ∧ ∃ p ∈ shot.packets, p.header = header

/-- Both ends are known, in order, and every sequence between them has come. -/
def Ready (shot : ShotState) : Prop :=
  ∃ info last, shot.info = some info ∧ shot.shotEnd = some last ∧
    info.1.packetSequence ≤ last.1.packetSequence ∧
    ∀ v, info.1.packetSequence ≤ v → v ≤ last.1.packetSequence → v ∈ shot.sequences

end ShotState

/-! ## The two walks -/

section Walks

variable {first last e : ℕ} {l : List ℕ}

/-- The walk of `shot_sequence_complete` from `e` on, which may be one past the last 64-bit
number. The first sequence keeps an interval of all numbers from looking complete when it is
empty. -/
theorem sequenceRun_exact (hl : l.Pairwise (· < ·)) (hmax : ∀ q ∈ l, q ≤ uint64Max)
    (hlast : last ≤ uint64Max) (hle : first ≤ last) (hfirst : first ≤ e) (he : e ≤ last + 1)
    (hstart : first ∈ l ∨ first < e) (hge : ∀ q ∈ l, first ≤ q → e ≤ q) :
    sequenceRun first last (e % 2 ^ 64) l = some (succ64 last) ↔
      ∀ v, e ≤ v → v ≤ last → v ∈ l := by
  unfold uint64Max at hmax hlast
  -- the induction is on the packets that are left, for any expected sequence `e`
  induction l generalizing e with
  | nil =>
    have hpos := hstart.resolve_left List.not_mem_nil
    rw [sequenceRun, succ64, Option.some.injEq]
    constructor
    · intro h v hv hle
      omega
    · intro h
      have hend : e = last + 1 := by
        by_contra hne
        exact List.not_mem_nil (h e le_rfl (by omega))
      rw [hend]
  | cons q l ih =>
    obtain ⟨hq, hl⟩ := List.pairwise_cons.mp hl
    have hqmax := hmax q List.mem_cons_self
    have htail : ∀ v ∈ l, v ≤ 2 ^ 64 - 1 := fun v hv => hmax v (List.mem_cons_of_mem _ hv)
    rw [sequenceRun]
    by_cases hout : q < first ∨ last < q
    · -- a packet outside the interval is passed over
      have hstart' : first ∈ l ∨ first < e := by
        refine hstart.imp_left fun hmem => (List.mem_cons.mp hmem).resolve_left ?_
        omega
      rw [if_pos hout, ih hl htail hfirst he hstart'
        fun v hv => hge v (List.mem_cons_of_mem _ hv)]
      refine forall_congr' fun v => forall_congr' fun hv => forall_congr' fun hle => ?_
      rw [List.mem_cons, or_iff_right]
      omega
    · have heq := hge q List.mem_cons_self (by omega)
      have hmod : e % 2 ^ 64 = e := Nat.mod_eq_of_lt (by omega)
      rw [if_neg hout, hmod]
      by_cases hne : q = e
      · subst hne
        rw [if_neg (by simp), succ64, ih hl htail (by omega) (by omega) (.inr (by omega))
          fun v hv _ => hq v hv]
        constructor
        · intro h v hv hle
          by_cases hvq : v = q
          · exact hvq ▸ List.mem_cons_self
          · exact List.mem_cons_of_mem _ (h v (by omega) hle)
        · intro h v hv hle
          exact (List.mem_cons.mp (h v (by omega) hle)).resolve_left (by omega)
      · -- the walk breaks off, and the expected number is nowhere in a sorted list
        rw [if_pos hne]
        constructor
        · intro h
          cases h
        · intro h
          rcases List.mem_cons.mp (h e le_rfl (by omega)) with hqe | hmem
          · exact absurd hqe.symm hne
          · have := hq e hmem
            omega

/-- How many sequences from `e` to `last` are not in `l`. -/
def absent (e last : ℕ) (l : List ℕ) : ℕ := ((Finset.Icc e last).filter (· ∉ l)).card

theorem absent_eq_zero : absent e last l = 0 ↔ ∀ v, e ≤ v → v ≤ last → v ∈ l := by
  unfold absent
  rw [Finset.card_eq_zero, Finset.filter_eq_empty_iff]
  simp only [Finset.mem_Icc, not_not, and_imp]

theorem absent_lt (hlast : last ≤ uint64Max) (h : first ≤ last) (hmem : first ∈ l) :
    absent first last l < 2 ^ 64 := by
  unfold uint64Max at hlast
  have hsub : (Finset.Icc first last).filter (· ∉ l) ⊆ Finset.Ioc first last := by
    intro v hv
    rw [Finset.mem_filter, Finset.mem_Icc] at hv
    rw [Finset.mem_Ioc]
    refine ⟨lt_of_le_of_ne hv.1.1 ?_, hv.1.2⟩
    rintro rfl
    exact hv.2 hmem
  have hcard := Finset.card_le_card hsub
  rw [Nat.card_Ioc] at hcard
  unfold absent
  omega

theorem absent_nil : absent e last [] = last + 1 - e := by
  simp [absent]

/-- A sequence that is passed over does not matter. -/
theorem absent_cons_out {q : ℕ} (h : q < e ∨ last < q) :
    absent e last (q :: l) = absent e last l := by
  unfold absent
  congr 1
  refine Finset.filter_congr fun v hv => ?_
  rw [Finset.mem_Icc] at hv
  rw [List.mem_cons, not_or, and_iff_right]
  omega

/-- The next sequence that is there ends a gap. -/
theorem absent_cons {q : ℕ} (hq : ∀ v ∈ l, q < v) (he : e ≤ q) (hle : q ≤ last) :
    absent e last (q :: l) = (q - e) + absent (q + 1) last l := by
  have hsplit : (Finset.Icc e last).filter (· ∉ q :: l) =
      Finset.Ico e q ∪ (Finset.Icc (q + 1) last).filter (· ∉ l) := by
    ext v
    simp only [Finset.mem_filter, Finset.mem_union, Finset.mem_Icc, Finset.mem_Ico, List.mem_cons,
      not_or]
    constructor
    · rintro ⟨⟨h₁, h₂⟩, h₃, h₄⟩
      by_cases hv : v < q
      · exact .inl ⟨h₁, hv⟩
      · exact .inr ⟨⟨by omega, h₂⟩, h₄⟩
    · rintro (⟨h₁, h₂⟩ | ⟨⟨h₁, h₂⟩, h₃⟩)
      · refine ⟨⟨h₁, by omega⟩, by omega, fun hmem => ?_⟩
        have := hq v hmem
        omega
      · exact ⟨⟨by omega, h₂⟩, by omega, h₃⟩
  have hdisjoint : Disjoint (Finset.Ico e q) ((Finset.Icc (q + 1) last).filter (· ∉ l)) := by
    rw [Finset.disjoint_left]
    intro v hv hv'
    rw [Finset.mem_Ico] at hv
    rw [Finset.mem_filter, Finset.mem_Icc] at hv'
    omega
  unfold absent
  rw [hsplit, Finset.card_union_of_disjoint hdisjoint, Nat.card_Ico]

/-- What `count_missing` adds after its loop. -/
def missingTotal (last : ℕ) (acc : ℕ × ℕ) : ℕ :=
  if acc.1 ≤ last then acc.2 + (last - acc.1 + 1) else acc.2

/-- The walk of `count_missing` from `e` on counts what is absent, modulo 64 bits. -/
theorem missingStep_exact (hl : l.Pairwise (· < ·)) (hmax : ∀ q ∈ l, q ≤ uint64Max)
    (hlast : last ≤ uint64Max) (hle : first ≤ last) (hfirst : first ≤ e) (he : e ≤ last + 1)
    (hge : ∀ q ∈ l, e ≤ q ∨ e = first) (m : ℕ) :
    missingTotal last (l.foldl (missingStep last) (e % 2 ^ 64, m)) % 2 ^ 64 =
      (m + absent e last l) % 2 ^ 64 := by
  unfold uint64Max at hmax hlast
  induction l generalizing e m with
  | nil =>
    rw [List.foldl_nil, absent_nil, missingTotal]
    dsimp only
    split <;> omega
  | cons q l ih =>
    obtain ⟨hq, hl⟩ := List.pairwise_cons.mp hl
    have hqmax := hmax q List.mem_cons_self
    have htail : ∀ v ∈ l, v ≤ 2 ^ 64 - 1 := fun v hv => hmax v (List.mem_cons_of_mem _ hv)
    have hmod : e % 2 ^ 64 = e := by
      refine Nat.mod_eq_of_lt ?_
      rcases hge q List.mem_cons_self with h | h
      · omega
      · omega
    rw [List.foldl_cons, missingStep, hmod]
    dsimp only
    by_cases hout : q < e ∨ last < q
    · rw [if_pos hout, absent_cons_out hout]
      have := ih hl htail hfirst he (fun v hv => hge v (List.mem_cons_of_mem _ hv)) m
      rwa [hmod] at this
    · rw [if_neg hout, absent_cons hq (by omega) (by omega), succ64,
        ih hl htail (by omega) (by omega) (fun v hv => .inl (hq v hv)) (m + (q - e)), Nat.add_assoc]

end Walks

namespace ShotState

variable {shot : ShotState}

/-- `shot_sequence_complete` finds the ready shots. -/
theorem sequenceComplete_iff_ready (hkept : shot.Kept) (hsorted : shot.sequences.Pairwise (· < ·)) :
    shot.sequenceComplete = true ↔ shot.Ready := by
  unfold sequenceComplete Ready
  cases hinfo : shot.info with
  | none => simp
  | some info =>
    cases hend : shot.shotEnd with
    | none => simp
    | some last =>
      obtain ⟨-, p, hp, hpi⟩ := hkept.info info.1 info.2 hinfo
      obtain ⟨-, q, hq, hqe⟩ := hkept.shotEnd last.1 last.2 hend
      have hmem : info.1.packetSequence ∈ shot.sequences := hpi ▸ List.mem_map_of_mem hp
      have hmax : last.1.packetSequence ≤ uint64Max :=
        hkept.inRange _ (hqe ▸ List.mem_map_of_mem hq)
      by_cases hlt : last.1.packetSequence < info.1.packetSequence
      · simp [hlt]
      · have hle := Nat.not_lt.mp hlt
        have hwalk := sequenceRun_exact hsorted hkept.inRange hmax hle le_rfl
          (Nat.le_succ_of_le hle) (.inl hmem) fun _ _ h => h
        have hlow : info.1.packetSequence < 2 ^ 64 := Nat.lt_succ_of_le (hle.trans hmax)
        rw [Nat.mod_eq_of_lt hlow] at hwalk
        simp [hlt, hle, hwalk]

/-- `count_missing` counts nothing exactly for the ready shots. -/
theorem countMissing_eq_zero_iff_ready (hkept : shot.Kept)
    (hsorted : shot.sequences.Pairwise (· < ·)) : shot.countMissing = 0 ↔ shot.Ready := by
  unfold countMissing Ready
  cases hinfo : shot.info with
  | none => simp
  | some info =>
    cases hend : shot.shotEnd with
    | none => simp
    | some last =>
      obtain ⟨-, p, hp, hpi⟩ := hkept.info info.1 info.2 hinfo
      obtain ⟨-, q, hq, hqe⟩ := hkept.shotEnd last.1 last.2 hend
      have hmem : info.1.packetSequence ∈ shot.sequences := hpi ▸ List.mem_map_of_mem hp
      have hmax : last.1.packetSequence ≤ uint64Max :=
        hkept.inRange _ (hqe ▸ List.mem_map_of_mem hq)
      by_cases hlt : last.1.packetSequence < info.1.packetSequence
      · simp [hlt]
      · have hle := Nat.not_lt.mp hlt
        have hcount := missingStep_exact hsorted hkept.inRange hmax hle le_rfl
          (Nat.le_succ_of_le hle) (fun _ _ => .inr rfl) 0
        have hlow : info.1.packetSequence < 2 ^ 64 := Nat.lt_succ_of_le (hle.trans hmax)
        -- the first sequence is there, so the count does not wrap around to 0
        rw [Nat.mod_eq_of_lt hlow, Nat.zero_add,
          Nat.mod_eq_of_lt (absent_lt hmax hle hmem)] at hcount
        have habsent := @absent_eq_zero last.1.packetSequence info.1.packetSequence shot.sequences
        rw [← hcount] at habsent
        unfold missingTotal at habsent
        dsimp only
        rw [if_neg hlt, Nat.min_eq_zero_iff, or_iff_left (by decide), habsent]
        simp [hle]

theorem sequences_sortPackets (hkept : shot.Kept) :
    shot.sortPackets.sequences.Pairwise (· < ·) := by
  have hperm : shot.sortPackets.sequences.Perm shot.sequences :=
    (List.perm_insertionSort _ _).map _
  have hle : shot.sortPackets.sequences.Pairwise (· ≤ ·) := by
    unfold sequences
    rw [List.pairwise_map]
    exact pairwise_insertionSort_key (fun _ _ => Iff.rfl) _
  exact (hle.and (hperm.nodup_iff.mpr hkept.distinct)).imp fun h => lt_of_le_of_ne h.1 h.2

theorem Kept.sort (hkept : shot.Kept) : shot.sortPackets.Kept where
  distinct := (sequences_sortPackets hkept).imp ne_of_lt
  inRange := by
    intro q hq
    exact hkept.inRange q (((List.perm_insertionSort _ _).map _).subset hq)
  info := by
    intro header info h
    obtain ⟨htype, p, hp, he⟩ := hkept.info header info h
    exact ⟨htype, p, (List.mem_insertionSort _).mpr hp, he⟩
  shotEnd := by
    intro header last h
    obtain ⟨htype, p, hp, he⟩ := hkept.shotEnd header last h
    exact ⟨htype, p, (List.mem_insertionSort _).mpr hp, he⟩

theorem ready_sortPackets : shot.sortPackets.Ready ↔ shot.Ready := by
  have hmem : ∀ v, v ∈ shot.sortPackets.sequences ↔ v ∈ shot.sequences := fun v =>
    ((List.perm_insertionSort _ _).map _).mem_iff
  unfold Ready
  simp only [hmem]
  rfl

theorem sortPackets_idem (shot : ShotState) : shot.sortPackets.sortPackets = shot.sortPackets := by
  unfold sortPackets
  dsimp only
  rw [List.Pairwise.insertionSort_eq]
  exact pairwise_insertionSort_key (fun _ _ => Iff.rfl) _

end ShotState

/-! ## The loop of `finalize_ready` -/

namespace RunState

variable {run : RunState}

/-- A ready shot that no other comes before is published and leaves the table. -/
def PublishesReady (run run' : RunState) : Prop :=
  ∃ position shot, run.shots[position]? = some shot ∧ shot.Ready ∧
    (∀ t ∈ run.shots, candidate shot ≤ candidate t) ∧
    run' = { run.publish shot.sortPackets (run.inspect shot.sortPackets) with
      shots := run.shots.eraseIdx position }

/-- The table is empty, or a shot that no other comes before is not ready. -/
def Waits (run : RunState) : Prop :=
  run.shots = [] ∨ ∃ shot ∈ run.shots, ¬ shot.Ready ∧
    ∀ t ∈ run.shots, candidate shot ≤ candidate t

/-- The entry the loop looked at last has its packets sorted. -/
def sortLowest (run : RunState) : RunState :=
  match run.shots[run.lowestSequenceShot]? with
  | none => run
  | some shot => { run with shots := run.shots.set run.lowestSequenceShot shot.sortPackets }

/-- No entry comes before the one that `lowest_sequence_shot` chooses. -/
theorem candidate_lowest {shot : ShotState} (hkept : shot.Kept)
    (h : run.shots[run.lowestSequenceShot]? = some shot) :
    ∀ t ∈ run.shots, candidate shot ≤ candidate t := by
  have hmax : candidate shot ≤ uint64Max := by
    unfold candidate
    cases hinfo : shot.info with
    | none => exact le_rfl
    | some info =>
      obtain ⟨-, p, hp, he⟩ := hkept.info info.1 info.2 hinfo
      refine hkept.inRange info.1.packetSequence ?_
      rw [← he]
      exact List.mem_map_of_mem hp
  intro t ht
  rcases lowestFrom_eq run.shots 0 0 uint64Max with ⟨hall, -⟩ | ⟨i, u, hu, heq, -, hall⟩
  · exact hmax.trans (hall t ht)
  · have hi : run.lowestSequenceShot = i := heq.trans (Nat.zero_add i)
    rw [hi, hu] at h
    cases h
    exact hall t ht

/-- A ready shot is not sent back. -/
theorem removeAndFinalize_ready {position : ℕ} {shot : ShotState} (hkept : shot.Kept)
    (hready : shot.Ready) : run.removeAndFinalize position shot.sortPackets false =
      .ok { run.publish shot.sortPackets (run.inspect shot.sortPackets) with
        shots := run.shots.eraseIdx position } := by
  have hzero : shot.sortPackets.countMissing = 0 :=
    (ShotState.countMissing_eq_zero_iff_ready hkept.sort
      (ShotState.sequences_sortPackets hkept)).mpr
      (ShotState.ready_sortPackets.mpr hready)
  unfold removeAndFinalize finalizeShot
  rw [ShotState.sortPackets_idem]
  dsimp only
  rw [if_neg (fun h => h.1 hzero)]
  rfl

theorem finalizeReadyLoop_publishes (fuel : ℕ) (hfuel : run.shots.length ≤ fuel)
    (hkept : ∀ shot ∈ run.shots, shot.Kept) :
    ∃ run', Relation.ReflTransGen PublishesReady run run' ∧ run'.Waits ∧
      finalizeReadyLoop fuel run = run'.sortLowest := by
  induction fuel generalizing run with
  | zero =>
    have hnil := List.length_eq_zero_iff.mp (Nat.le_zero.mp hfuel)
    refine ⟨run, .refl, .inl hnil, ?_⟩
    unfold sortLowest
    rw [hnil]
    rfl
  | succ fuel ih =>
    rw [finalizeReadyLoop]
    dsimp only
    cases hp : run.shots[run.lowestSequenceShot]? with
    | none =>
      refine ⟨run, .refl, .inl ?_, ?_⟩
      · by_contra hne
        have hlt := lowestSequenceShot_lt hne
        rw [List.getElem?_eq_none_iff] at hp
        omega
      · unfold sortLowest
        rw [hp]
    | some shot =>
      have hmem := List.mem_of_getElem? hp
      have hshot := hkept shot hmem
      have hcomplete := ShotState.sequenceComplete_iff_ready hshot.sort
        (ShotState.sequences_sortPackets hshot)
      rw [ShotState.ready_sortPackets] at hcomplete
      dsimp only
      -- a ready shot is published and one shot fewer is left, else the loop stops at it
      by_cases hready : shot.Ready
      · rw [if_pos (hcomplete.mpr hready), removeAndFinalize_ready hshot hready]
        dsimp only
        have hlt : run.lowestSequenceShot < run.shots.length :=
          (List.getElem?_eq_some_iff.mp hp).1
        obtain ⟨run', hsteps, hwaits, heq⟩ := @ih
          { run.publish shot.sortPackets (run.inspect shot.sortPackets) with
            shots := run.shots.eraseIdx run.lowestSequenceShot }
          (by
            show (run.shots.eraseIdx run.lowestSequenceShot).length ≤ fuel
            rw [List.length_eraseIdx_of_lt hlt]
            omega)
          fun t ht => hkept t ((List.eraseIdx_sublist ..).subset ht)
        exact ⟨run', .head ⟨_, shot, hp, hready, candidate_lowest hshot hp, rfl⟩ hsteps, hwaits,
          heq⟩
      · rw [if_neg (fun h => hready (hcomplete.mp h))]
        refine ⟨run, .refl, .inr ⟨shot, hmem, hready, candidate_lowest hshot hp⟩, ?_⟩
        unfold sortLowest
        rw [hp]

end RunState

/-- On sorted packets both walks find exactly the ready shots, up to the last 64-bit sequence. So
`finalize_ready` publishes the shot that no other comes before as long as it is ready, and stops
only where it is not. -/
theorem readiness_exact :
    (∀ shot : ShotState, shot.Kept → shot.sequences.Pairwise (· < ·) →
      (shot.sequenceComplete = true ↔ shot.Ready) ∧
        (shot.sequenceComplete = true ↔ shot.countMissing = 0)) ∧
    ∀ run : RunState, (∀ shot ∈ run.shots, shot.Kept) →
      ∃ run', Relation.ReflTransGen RunState.PublishesReady run run' ∧ run'.Waits ∧
        run.finalizeReady = run'.sortLowest := by
  constructor
  · intro shot hkept hsorted
    have hcomplete := ShotState.sequenceComplete_iff_ready hkept hsorted
    have hmissing := ShotState.countMissing_eq_zero_iff_ready hkept hsorted
    exact ⟨hcomplete, hcomplete.trans hmissing.symm⟩
  · intro run hkept
    exact RunState.finalizeReadyLoop_publishes run.shots.length le_rfl hkept

/-- A whole shot of one sample. -/
def wholeShot : ShotState :=
  { shotId := 1
    packets := ((oneSample 0 true).shotPackets aSample).map fun p => ⟨p.header, p.datagram⟩
    info := some ((oneSample 0 true).infoPacket.header, (oneSample 0 true).streamInfo)
    shotEnd := some (((oneSample 0 true).endPacket aSample).header,
      (oneSample 0 true).shotEnd aSample) }

theorem wholeShot_kept : wholeShot.Kept where
  distinct := by decide
  inRange := by decide
  info := by
    intro header info h
    cases h
    exact ⟨rfl, _, List.mem_cons_self, rfl⟩
  shotEnd := by
    intro header last h
    cases h
    exact ⟨rfl, _, List.mem_of_getElem? (show wholeShot.packets[2]? = some _ from rfl), rfl⟩

theorem readiness_exact_wholeShot :
    (wholeShot.sequenceComplete = true ↔ wholeShot.Ready) ∧
      ∃ run', Relation.ReflTransGen RunState.PublishesReady
          { maxShotBytes := 4, sourceFilter := none, shots := [wholeShot] } run' ∧
        run'.Waits ∧ RunState.finalizeReady
          { maxShotBytes := 4, sourceFilter := none, shots := [wholeShot] } = run'.sortLowest :=
  ⟨(readiness_exact.1 wholeShot wholeShot_kept (by decide)).1,
    readiness_exact.2 _ fun _ h => List.mem_singleton.mp h ▸ wholeShot_kept⟩

end QCrate.Recorder
