import QCrate.Recorder.Verdict
import QCrate.Recorder.Accounting

/-!
# The recorder as a publisher: closing

The table of the recorder against the table of a publisher whose units are the shots of a run, and
its files against what went out. Whether a record is COMPLETE depends on the shot and on what was
closed before it.

* `Logged.publish` — one shot is closed.
* `Follows.finalizeReady`, `Follows.finalizeRemaining` — the loops drain and flush the table.
-/

namespace QCrate.Recorder

open QCrate.Lib QCrate.DataPlane

/-! ## What was closed -/

/-- Each element with what is before it. -/
def historiesFrom {α : Type*} (before : List α) : List α → List (List α × α)
  | [] => []
  | e :: rest => (before, e) :: historiesFrom (before ++ [e]) rest

theorem historiesFrom_concat {α : Type*} (before l : List α) (e : α) :
    historiesFrom before (l ++ [e]) = historiesFrom before l ++ [(before ++ l, e)] := by
  induction l generalizing before with
  | nil => simp [historiesFrom]
  | cons a l ih => simp [historiesFrom, ih]

def histories {α : Type*} (l : List α) : List (List α × α) := historiesFrom [] l

@[simp] theorem histories_concat {α : Type*} (l : List α) (e : α) :
    histories (l ++ [e]) = histories l ++ [(l, e)] := historiesFrom_concat [] l e

abbrev Profile := ℕ × ℕ × StreamInfo

namespace RunState

/-- What the recorder compares with of its profile. -/
def profileOf (run : RunState) : Option Profile :=
  run.profile.map fun p => (p.1.payloadFormat, p.1.sampleBytes, p.2)

end RunState

namespace SentRun

variable (R : SentRun)

/-- The sequence expected after the closed shots. -/
def expected (log : List (Entry Packet)) : Option ℕ :=
  (log.filterMap fun e => R.shots[e.unit]?.bind fun s =>
    if e.held s.endPacket then some s.nextSequence else none).getLast?

/-- The last closed shot with a timestamp. -/
def lastShot (log : List (Entry Packet)) : Option LastShot :=
  (log.filterMap fun e => R.shots[e.unit]?.bind fun s =>
    if s.heldTimestamp e.held = 0 then none
    else some ⟨s.shotId, s.heldTimestamp e.held⟩).getLast?

/-- The shot is published when it is closed after `before`. -/
def intact (maxShotBytes : ℕ) (profile : Option Profile) (before : List (Entry Packet))
    (e : Entry Packet) : Bool :=
  match R.shots[e.unit]? with
  | none => false
  | some s => s.packets.all e.held && decide (s.timestamp ≠ 0) &&
      decide (s.samples.length ≤ maxShotBytes) && profile.all (· = s.profile) &&
      (R.expected before).all (· = s.firstSequence) &&
      (R.lastShot before).all fun l =>
        decide (l.shotId < s.shotId) && decide (l.timestamp < s.timestamp)

/-- The samples of the published shots. -/
def published (maxShotBytes : ℕ) (profile : Option Profile) (log : List (Entry Packet)) : Bytes :=
  (histories log).flatMap fun h =>
    if R.intact maxShotBytes profile h.1 h.2 then ((R.shots[h.2.unit]?).map (·.samples)).getD []
    else []

theorem expected_concat (log : List (Entry Packet)) {e : Entry Packet} {s : SentShot}
    (hs : R.shots[e.unit]? = some s) : R.expected (log ++ [e]) =
      if e.held s.endPacket then some s.nextSequence else R.expected log := by
  unfold expected
  rw [List.filterMap_append, List.getLast?_append, List.filterMap_cons, hs, List.filterMap_nil]
  by_cases he : e.held s.endPacket = true
  · simp [he]
  · simp [he]

theorem lastShot_concat (log : List (Entry Packet)) {e : Entry Packet} {s : SentShot}
    (hs : R.shots[e.unit]? = some s) : R.lastShot (log ++ [e]) =
      if s.heldTimestamp e.held = 0 then R.lastShot log
      else some ⟨s.shotId, s.heldTimestamp e.held⟩ := by
  unfold lastShot
  rw [List.filterMap_append, List.getLast?_append, List.filterMap_cons, hs, List.filterMap_nil]
  by_cases ht : s.heldTimestamp e.held = 0
  · simp [ht]
  · simp [ht]

theorem published_concat (maxShotBytes : ℕ) (profile : Option Profile)
    (log : List (Entry Packet)) {e : Entry Packet} {s : SentShot}
    (hs : R.shots[e.unit]? = some s) : R.published maxShotBytes profile (log ++ [e]) =
      R.published maxShotBytes profile log ++
        if R.intact maxShotBytes profile log e then s.samples else [] := by
  unfold published
  rw [histories_concat, List.flatMap_append]
  simp [hs]

theorem intact_iff {maxShotBytes : ℕ} {profile : Option Profile} {before : List (Entry Packet)}
    {e : Entry Packet} {s : SentShot} (hs : R.shots[e.unit]? = some s) :
    R.intact maxShotBytes profile before e = true ↔
      (∀ p ∈ s.packets, e.held p = true) ∧ s.Fits maxShotBytes ∧ (∀ q ∈ profile, q = s.profile) ∧
        (∀ q ∈ R.expected before, q = s.firstSequence) ∧
        ∀ l ∈ R.lastShot before, l.shotId < s.shotId ∧ l.timestamp < s.timestamp := by
  unfold intact SentShot.Fits
  rw [hs]
  simp [Option.all_eq_true, and_assoc]

theorem marking_iff {e : Entry Packet} {s : SentShot} (hs : R.shots[e.unit]? = some s) :
    R.feed.marking e = true ↔ s.heldTimestamp e.held ≠ 0 := by
  unfold Feed.marking feed SentShot.heldTimestamp
  simp only [hs, Option.any_some, Bool.and_eq_true, decide_eq_true_eq]
  split
  · next h => simp [h]
  · next h =>
    simp only [ne_eq, not_true_eq_false, iff_false]
    exact fun hc => h ⟨hc.1.2, hc.2⟩

theorem announced_iff {e : Entry Packet} {s : SentShot} (hs : R.shots[e.unit]? = some s) :
    R.feed.announced e = e.held s.infoPacket := by
  unfold Feed.announced
  rw [parts_eq hs]
  rfl

theorem whole_iff {e : Entry Packet} {s : SentShot} (hs : R.shots[e.unit]? = some s) :
    R.feed.whole e = true ↔ ∀ p ∈ s.packets, e.held p = true := by
  unfold Feed.whole
  rw [parts_eq hs, List.all_eq_true]

/-- The index record of an entry that was closed after `before`. -/
structure Records (maxShotBytes : ℕ) (profile : Option Profile)
    (h : List (Entry Packet) × Entry Packet) (r : IndexRecord) : Prop where
  shotId : ∃ s, R.shots[h.2.unit]? = some s ∧ r.shotId = s.shotId
  state : r.state =
    if R.intact maxShotBytes profile h.1 h.2 then .complete else .incomplete
  offset : r.sampleFileOffset =
    if R.intact maxShotBytes profile h.1 h.2 then (R.published maxShotBytes profile h.1).length
    else uint64Max
  bytes : r.sampleBytes =
    if R.intact maxShotBytes profile h.1 h.2 then
      (((R.shots[h.2.unit]?).map (·.samples)).getD []).length
    else 0

/-- The files and what the recorder remembers say what was closed. -/
structure Logged (log : List (Entry Packet)) (run : RunState) : Prop where
  index : List.Forall₂ (R.Records run.maxShotBytes run.profileOf) (histories log) run.index
  samples : run.samples = R.published run.maxShotBytes run.profileOf log
  sampleOffset : run.sampleOffset = run.samples.length
  expectedSequence : run.expectedSequence = R.expected log
  lastShot : run.lastShot = R.lastShot log
  complete : run.completeShots =
    (histories log).countP fun h => R.intact run.maxShotBytes run.profileOf h.1 h.2
  incomplete : run.incompleteShots =
    (histories log).countP fun h => !R.intact run.maxShotBytes run.profileOf h.1 h.2
  conflictingPackets : run.conflictingPackets = 0

/-- The entry of the table for an entry of the publisher. -/
def Shows (e : Entry Packet) (shot : ShotState) : Prop :=
  ∃ s, R.shots[e.unit]? = some s ∧ Holds s e.held shot

/-- The recorder follows the publisher. -/
structure Follows (S : Publisher Packet) (run : RunState) : Prop where
  table : List.Forall₂ R.Shows S.table run.shots
  logged : R.Logged S.log run

end SentRun

variable {R : SentRun} {run : RunState} {s : SentShot} {shot : ShotState}

/-! ## Closing one shot -/

/-- The tests against the rest of the run. -/
theorem runIssues_eq_zero {log : List (Entry Packet)} {held : Packet → Bool}
    (hl : R.Logged log run) (h : Holds s held shot) (hw : ∀ p ∈ s.packets, held p)
    (hs : s.timestamp ≠ 0) :
    run.runIssues shot.sortPackets s.timestamp = 0 ↔
      (∀ q ∈ run.profileOf, q = s.profile) ∧ (∀ q ∈ R.expected log, q = s.firstSequence) ∧
        ∀ l ∈ R.lastShot log, l.shotId < s.shotId ∧ l.timestamp < s.timestamp := by
  have hinfo := h.info_whole hw
  have hprofile : run.profileDiffers shot.sortPackets = false ↔
      ∀ q ∈ run.profileOf, q = s.profile := by
    unfold RunState.profileDiffers RunState.profileOf
    rw [hinfo]
    cases run.profile with
    | none => simp
    | some p =>
      obtain ⟨header, info⟩ := p
      dsimp only
      rw [Option.map_some, Bool.or_eq_false_iff, Bool.or_eq_false_iff, decide_eq_false_iff_not,
        decide_eq_false_iff_not, decide_eq_false_iff_not, not_not, not_not, not_not]
      constructor
      · rintro ⟨⟨hi, hf⟩, hb⟩ q hq
        cases hq
        exact congrArg₂ Prod.mk hf (congrArg₂ Prod.mk hb hi)
      · intro hq
        have heq := hq _ rfl
        exact ⟨⟨congrArg (·.2.2) heq, congrArg (·.1) heq⟩, congrArg (·.2.1) heq⟩
  have hsequence : run.sequenceBreaks shot.sortPackets = false ↔
      ∀ q ∈ R.expected log, q = s.firstSequence := by
    unfold RunState.sequenceBreaks
    rw [hinfo, hl.expectedSequence]
    cases R.expected log with
    | none => simp
    | some q =>
      have hfirst : s.infoPacket.header.packetSequence = s.firstSequence := rfl
      dsimp only
      rw [hfirst, decide_eq_false_iff_not, not_not]
      exact ⟨fun he r hr => by cases hr; exact he.symm, fun h => (h q rfl).symm⟩
  have horder : run.orderBreaks shot.sortPackets.shotId s.timestamp = false ↔
      ∀ l ∈ R.lastShot log, l.shotId < s.shotId ∧ l.timestamp < s.timestamp := by
    unfold RunState.orderBreaks
    rw [hl.lastShot, h.sort.shotId]
    cases R.lastShot log with
    | none => simp
    | some l => simp [hs]
  unfold RunState.runIssues
  rw [Nat.or_eq_zero_iff, Nat.or_eq_zero_iff, ← hprofile, ← hsequence, ← horder]
  cases run.profileDiffers shot.sortPackets <;> cases run.sequenceBreaks shot.sortPackets <;>
    cases run.orderBreaks shot.sortPackets.shotId s.timestamp <;> decide

/-- An entry is found to have no issue exactly when the publisher publishes it. -/
theorem issueFlags_eq_zero {log : List (Entry Packet)} {e : Entry Packet} (hl : R.Logged log run)
    (hs : R.shots[e.unit]? = some s) (h : Holds s e.held shot) :
    (run.inspect shot.sortPackets).issueFlags = 0 ↔
      R.intact run.maxShotBytes run.profileOf log e = true := by
  rw [R.intact_iff hs]
  by_cases hw : ∀ p ∈ s.packets, e.held p = true
  · rw [(h.inspect_whole hw run).1, and_iff_right hw]
    refine and_congr_right fun hfits => ?_
    exact runIssues_eq_zero hl h hw hfits.1
  · exact ⟨fun h0 => absurd h0 (h.inspect_partial run hw), fun hi => absurd hi.1 hw⟩

/-- One shot is closed. -/
theorem Logged.publish {log : List (Entry Packet)} {e : Entry Packet} (hl : R.Logged log run)
    (hs : R.shots[e.unit]? = some s) (h : Holds s e.held shot) :
    R.Logged (log ++ [e]) (run.publish shot.sortPackets (run.inspect shot.sortPackets)) := by
  -- the record says what the log says, since no issue means an intact shot
  have hiff := issueFlags_eq_zero hl hs h
  have htime : (run.inspect shot.sortPackets).scan.firstTimestamp = s.heldTimestamp e.held :=
    h.firstTimestamp_eq
  have hwhole : R.intact run.maxShotBytes run.profileOf log e = true →
      ∀ p ∈ s.packets, e.held p = true := fun hi => ((R.intact_iff hs).mp hi).1
  have hmax : (run.publish shot.sortPackets (run.inspect shot.sortPackets)).maxShotBytes =
      run.maxShotBytes := rfl
  have hprofile : (run.publish shot.sortPackets (run.inspect shot.sortPackets)).profileOf =
      run.profileOf := rfl
  constructor
  · rw [hmax, hprofile, histories_concat]
    refine List.rel_append hl.index (.cons ?_ .nil)
    refine ⟨⟨s, hs, h.sort.shotId⟩, ?_, ?_, ?_⟩
    · simp only [RunState.indexRecord, hiff]
      simp
    · simp only [RunState.indexRecord, hiff, hl.sampleOffset, hl.samples]
      simp
    · simp only [RunState.indexRecord, hiff, hs]
      by_cases hi : R.intact run.maxShotBytes run.profileOf log e = true
      · simp [hi, (h.inspect_whole (hwhole hi) run).2.1]
      · simp [hi]
  · rw [hmax, hprofile, R.published_concat _ _ _ hs]
    simp only [RunState.publish, hiff, hl.samples]
    by_cases hi : R.intact run.maxShotBytes run.profileOf log e = true
    · simp [hi, (h.inspect_whole (hwhole hi) run).2.2]
    · simp [hi]
  · simp only [RunState.publish, hiff, hl.sampleOffset]
    by_cases hi : R.intact run.maxShotBytes run.profileOf log e = true
    · simp [hi, (h.inspect_whole (hwhole hi) run).2.1, (h.inspect_whole (hwhole hi) run).2.2]
    · simp [hi]
  · rw [R.expected_concat _ hs]
    simp only [RunState.publish, RunState.nextSequence, h.sort.shotEnd, hl.expectedSequence]
    by_cases he : e.held s.endPacket = true
    · have hlt : s.endPacket.header.packetSequence < uint64Max := Holds.endSequence_lt
      rw [if_pos he, if_pos he]
      exact if_neg hlt.ne
    · rw [if_neg he, if_neg he]
  · rw [R.lastShot_concat _ hs]
    simp only [RunState.publish, htime, h.sort.shotId, hl.lastShot]
  · rw [hmax, hprofile, histories_concat, List.countP_append, ← hl.complete]
    simp only [RunState.publish, hiff]
    simp [List.countP_cons]
  · rw [hmax, hprofile, histories_concat, List.countP_append, ← hl.incomplete]
    simp only [RunState.publish, hiff]
    by_cases hi : R.intact run.maxShotBytes run.profileOf log e = true
    · simp [hi]
    · simp [hi]
  · simp only [RunState.publish]
    rw [hl.conflictingPackets, h.sort.conflictingPackets]

/-! ## The next entry -/

/-- The loop of `lowest_sequence_shot` finds the first entry with the smallest value below the one
it starts with, if there is one. -/
theorem lowestFrom_eq (l : List ShotState) (index lowest sequence : ℕ) :
    ((∀ t ∈ l, sequence ≤ RunState.candidate t) ∧
      RunState.lowestFrom l index lowest sequence = lowest) ∨
    ∃ i t, l[i]? = some t ∧ RunState.lowestFrom l index lowest sequence = index + i ∧
      RunState.candidate t < sequence ∧
      ∀ t' ∈ l, RunState.candidate t ≤ RunState.candidate t' := by
  induction l generalizing index lowest sequence with
  | nil => exact .inl ⟨nofun, rfl⟩
  | cons t l ih =>
    rw [RunState.lowestFrom]
    by_cases ht : RunState.candidate t < sequence
    · rw [if_pos ht]
      right
      rcases ih (index + 1) index (RunState.candidate t) with
        ⟨hall, heq⟩ | ⟨i, u, hu, heq, hlt, hall⟩
      · refine ⟨0, t, rfl, heq, ht, fun t' ht' => ?_⟩
        rcases List.mem_cons.mp ht' with rfl | ht'
        · exact le_rfl
        · exact hall t' ht'
      · refine ⟨i + 1, u, hu, by omega, hlt.trans ht, fun t' ht' => ?_⟩
        rcases List.mem_cons.mp ht' with rfl | ht'
        · exact hlt.le
        · exact hall t' ht'
    · rw [if_neg ht]
      rcases ih (index + 1) lowest sequence with ⟨hall, heq⟩ | ⟨i, u, hu, heq, hlt, hall⟩
      · refine .inl ⟨fun t' ht' => ?_, heq⟩
        rcases List.mem_cons.mp ht' with rfl | ht'
        · exact Nat.not_lt.mp ht
        · exact hall t' ht'
      · refine .inr ⟨i + 1, u, hu, by omega, hlt, fun t' ht' => ?_⟩
        rcases List.mem_cons.mp ht' with rfl | ht'
        · exact hlt.le.trans (Nat.not_lt.mp ht)
        · exact hall t' ht'

/-- The value of an announced entry is its first sequence; the others have the largest value. -/
theorem candidate_eq {e : Entry Packet} (hs : R.shots[e.unit]? = some s)
    (h : Holds s e.held shot) : RunState.candidate shot =
      if R.feed.announced e then s.firstSequence else uint64Max := by
  unfold RunState.candidate
  rw [h.info, R.announced_iff hs]
  split <;> rfl

theorem getElem?_forall₂ {α β : Type*} {P : α → β → Prop} {t : List α} {l : List β}
    (h : List.Forall₂ P t l) {i : ℕ} {b : β} (hb : l[i]? = some b) :
    ∃ a, t[i]? = some a ∧ P a b := by
  induction h generalizing i with
  | nil => cases hb
  | @cons a b' t l hab _ ih =>
    cases i with
    | zero =>
      cases hb
      exact ⟨a, rfl, hab⟩
    | succ i => exact ih hb

theorem exists_of_mem_left {α β : Type*} {P : α → β → Prop} {t : List α} {l : List β}
    (h : List.Forall₂ P t l) {a : α} (ha : a ∈ t) : ∃ b ∈ l, P a b := by
  induction h with
  | nil => cases ha
  | @cons a' b t l hab _ ih =>
    rcases List.mem_cons.mp ha with rfl | ha
    · exact ⟨b, List.mem_cons_self, hab⟩
    · obtain ⟨c, hc, hac⟩ := ih ha
      exact ⟨c, List.mem_cons_of_mem _ hc, hac⟩

theorem exists_of_mem_right {α β : Type*} {P : α → β → Prop} {t : List α} {l : List β}
    (h : List.Forall₂ P t l) {b : β} (hb : b ∈ l) : ∃ a ∈ t, P a b :=
  exists_of_mem_left h.flip hb

theorem forall₂_set {α β : Type*} {P : α → β → Prop} {t : List α} {l : List β}
    (h : List.Forall₂ P t l) {i : ℕ} {a : α} {b : β} (ha : t[i]? = some a) (hab : P a b) :
    List.Forall₂ P t (l.set i b) := by
  induction h generalizing i with
  | nil => cases ha
  | @cons a' b' t l hab' htl ih =>
    cases i with
    | zero =>
      cases ha
      exact .cons hab htl
    | succ i => exact .cons hab' (ih ha)

/-- Taking an entry out of the table. -/
theorem forall₂_erase {P : Entry Packet → ShotState → Prop} {t : List (Entry Packet)}
    {l : List ShotState} (h : List.Forall₂ P t l) (hn : (t.map (·.unit)).Nodup) {i : ℕ}
    {e : Entry Packet} (he : t[i]? = some e) :
    List.Forall₂ P (t.filter (·.unit ≠ e.unit)) (l.eraseIdx i) := by
  induction h generalizing i with
  | nil => cases he
  | @cons f b t l hfb htl ih =>
    obtain ⟨hf, hn⟩ := List.nodup_cons.mp hn
    cases i with
    | zero =>
      cases he
      rw [List.filter_cons_of_neg (by simp), List.filter_eq_self.mpr]
      · exact htl
      · intro g hg
        rw [decide_eq_true_eq]
        exact fun hu => hf (List.mem_map.mpr ⟨g, hg, hu⟩)
    | succ i =>
      have hne : f.unit ≠ e.unit := fun hu =>
        hf (List.mem_map.mpr ⟨e, List.mem_of_getElem? he, hu.symm⟩)
      rw [List.filter_cons_of_pos (by simpa using hne)]
      exact .cons hfb (ih hn he)

/-- The run without the entry at a position, which is closed. -/
def RunState.close (run : RunState) (position : ℕ) (shot : ShotState) : RunState :=
  { run.publish shot.sortPackets (run.inspect shot.sortPackets) with
    shots := run.shots.eraseIdx position }

theorem removeAndFinalize_eq {position : ℕ} {forced : Bool}
    (h : shot.sortPackets.countMissing = 0 ∨ forced = true) :
    run.removeAndFinalize position shot forced = .ok (run.close position shot) := by
  unfold RunState.removeAndFinalize RunState.finalizeShot
  dsimp only
  rw [if_neg fun hc => h.elim hc.1 (by rw [hc.2]; exact Bool.false_ne_true)]
  rfl

namespace SentRun.Follows

variable {S : Publisher Packet}

/-- `lowest_sequence_shot` picks the next entry of the publisher. -/
theorem lowest_next (h : R.Follows S run) {e : Entry Packet} (he : e ∈ S.table)
    (ha : R.feed.announced e = true) :
    ∃ f, S.table[run.lowestSequenceShot]? = some f ∧ R.feed.Next S.table f := by
  obtain ⟨shot, hshot, s, hs, hh⟩ := exists_of_mem_left h.table he
  have hval := candidate_eq hs hh
  rw [if_pos ha] at hval
  have hlt : s.firstSequence < uint64Max := s.firstSequence_lt.trans_le s.nextSequence_le
  unfold RunState.lowestSequenceShot
  rcases lowestFrom_eq run.shots 0 0 uint64Max with ⟨hall, -⟩ | ⟨i, t, ht, heq, hti, hall⟩
  · have := hall shot hshot
    omega
  · rw [heq, Nat.zero_add]
    obtain ⟨f, hf, s', hs', hh'⟩ := getElem?_forall₂ h.table ht
    have hfa : R.feed.announced f = true := by
      by_contra hna
      rw [candidate_eq hs' hh', if_neg hna] at hti
      exact absurd hti (lt_irrefl _)
    refine ⟨f, hf, List.mem_of_getElem? hf, hfa, fun g hg hga => ?_⟩
    obtain ⟨u, hu, s'', hs'', hh''⟩ := exists_of_mem_left h.table hg
    have hle := hall u hu
    rw [candidate_eq hs' hh', candidate_eq hs'' hh'', if_pos hfa, if_pos hga] at hle
    by_contra hlt'
    have := SentRun.nextSequence_le_of_lt hs'' hs' (Nat.not_le.mp hlt')
    have := s''.firstSequence_lt
    omega

/-- Without an announced entry it picks the first one. -/
theorem lowest_head (h : R.Follows S run) (hn : ∀ e ∈ S.table, R.feed.announced e = false) :
    run.lowestSequenceShot = 0 := by
  unfold RunState.lowestSequenceShot
  rcases lowestFrom_eq run.shots 0 0 uint64Max with ⟨-, heq⟩ | ⟨i, t, ht, -, hti, -⟩
  · exact heq
  · obtain ⟨f, hf, s, hs, hh⟩ := getElem?_forall₂ h.table ht
    rw [candidate_eq hs hh, hn f (List.mem_of_getElem? hf)] at hti
    exact absurd hti (lt_irrefl _)

/-- An entry that is closed goes out of the publisher. -/
theorem put (h : R.Follows S run) (hn : (S.table.map (·.unit)).Nodup) {i : ℕ} {e : Entry Packet}
    (he : S.table[i]? = some e) (hs : R.shots[e.unit]? = some s) (hh : Holds s e.held shot) :
    R.Follows (S.put e) (run.close i shot) := by
  have hl := Logged.publish h.logged hs hh
  exact ⟨forall₂_erase h.table hn he, ⟨hl.index, hl.samples, hl.sampleOffset, hl.expectedSequence,
    hl.lastShot, hl.complete, hl.incomplete, hl.conflictingPackets⟩⟩

end SentRun.Follows

/-- The two runs differ in the table, the files and the counters of shots only. -/
structure Keeps (run run' : RunState) : Prop where
  maxShotBytes : run'.maxShotBytes = run.maxShotBytes
  sourceFilter : run'.sourceFilter = run.sourceFilter
  selected : run'.selected = run.selected
  pendingOverflow : run'.pendingOverflow = run.pendingOverflow
  runContinuityError : run'.runContinuityError = run.runContinuityError
  interrupted : run'.interrupted = run.interrupted
  malformedPackets : run'.malformedPackets = run.malformedPackets
  kernelDrops : run'.kernelDrops = run.kernelDrops

theorem Keeps.refl (run : RunState) : Keeps run run := ⟨rfl, rfl, rfl, rfl, rfl, rfl, rfl, rfl⟩

theorem Keeps.trans {run' run'' : RunState} (h : Keeps run run') (h' : Keeps run' run'') :
    Keeps run run'' where
  maxShotBytes := h'.maxShotBytes.trans h.maxShotBytes
  sourceFilter := h'.sourceFilter.trans h.sourceFilter
  selected := h'.selected.trans h.selected
  pendingOverflow := h'.pendingOverflow.trans h.pendingOverflow
  runContinuityError := h'.runContinuityError.trans h.runContinuityError
  interrupted := h'.interrupted.trans h.interrupted
  malformedPackets := h'.malformedPackets.trans h.malformedPackets
  kernelDrops := h'.kernelDrops.trans h.kernelDrops

/-- Neither the profile nor the end of the run is touched. -/
structure KeepsAll (run run' : RunState) : Prop extends Keeps run run' where
  profile : run'.profile = run.profile
  terminal : run'.terminal = run.terminal

theorem KeepsAll.refl (run : RunState) : KeepsAll run run := ⟨.refl run, rfl, rfl⟩

theorem KeepsAll.trans {run' run'' : RunState} (h : KeepsAll run run') (h' : KeepsAll run' run'') :
    KeepsAll run run'' :=
  ⟨h.toKeeps.trans h'.toKeeps, h'.profile.trans h.profile, h'.terminal.trans h.terminal⟩

theorem keepsAll_close (run : RunState) (position : ℕ) (shot : ShotState) :
    KeepsAll run (run.close position shot) := ⟨⟨rfl, rfl, rfl, rfl, rfl, rfl, rfl, rfl⟩, rfl, rfl⟩

/-! ## The loops -/

namespace SentRun.Follows

variable {S : Publisher Packet}

theorem finalizeReadyLoop (fuel : ℕ) (h : R.Follows S run) (hn : (S.table.map (·.unit)).Nodup)
    (hf : run.shots.length ≤ fuel) :
    ∃ S', R.feed.Drains S S' ∧ R.Follows S' (run.finalizeReadyLoop fuel) ∧
      KeepsAll run (run.finalizeReadyLoop fuel) := by
  induction fuel generalizing S run with
  | zero =>
    have hnil : run.shots = [] := List.length_eq_zero_iff.mp (Nat.le_zero.mp hf)
    have htable := h.table
    rw [hnil] at htable
    refine ⟨S, .stop fun e he => ?_, h, .refl run⟩
    rw [List.forall₂_nil_right_iff.mp htable] at he
    cases he.1
  | succ fuel ih =>
    rw [RunState.finalizeReadyLoop]
    dsimp only
    cases hpos : run.shots[run.lowestSequenceShot]? with
    | none =>
      -- no shot has a first sequence, so none is ready
      refine ⟨S, .stop fun e he => ?_, h, .refl run⟩
      obtain ⟨f, hfp, -⟩ := h.lowest_next he.1 he.2.1
      have hlt := (List.getElem?_eq_some_iff.mp hfp).1
      rw [h.table.length_eq] at hlt
      rw [List.getElem?_eq_getElem hlt] at hpos
      cases hpos
    | some shot =>
      obtain ⟨e, he, s, hs, hh⟩ := getElem?_forall₂ h.table hpos
      dsimp only
      by_cases hw : shot.sortPackets.sequenceComplete = true
      · have hall := hh.sequenceComplete_iff.mp hw
        have hzero := hh.sort.countMissing_eq_zero.mpr hall
        have hnext : R.feed.Next S.table e := by
          have ha : R.feed.announced e = true := by
            rw [R.announced_iff hs]
            exact hall _ s.info_mem
          obtain ⟨f, hfp, hfn⟩ := h.lowest_next (List.mem_of_getElem? he) ha
          rw [he] at hfp
          cases hfp
          exact hfn
        have hput := h.put hn he hs hh.sort
        have hlen : (run.shots.eraseIdx run.lowestSequenceShot).length ≤ fuel := by
          rw [List.length_eraseIdx_of_lt (List.getElem?_eq_some_iff.mp hpos).1]
          omega
        rw [if_pos hw, removeAndFinalize_eq (.inl hzero)]
        dsimp only
        obtain ⟨S', hd, hfollows, hkeeps⟩ := ih hput ((List.filter_sublist.map _).nodup hn) hlen
        exact ⟨S', .put hnext ((R.whole_iff hs).mpr hall) hd, hfollows,
          (keepsAll_close _ _ _).trans hkeeps⟩
      -- the shot in front lacks packets, and the ones behind it wait
      · rw [if_neg hw]
        have hl := h.logged
        refine ⟨S, .stop fun f hfn => ?_, ⟨forall₂_set h.table he ⟨s, hs, hh.sort⟩, ⟨hl.index,
          hl.samples, hl.sampleOffset, hl.expectedSequence, hl.lastShot, hl.complete,
          hl.incomplete, hl.conflictingPackets⟩⟩,
          ⟨⟨rfl, rfl, rfl, rfl, rfl, rfl, rfl, rfl⟩, rfl, rfl⟩⟩
        obtain ⟨g, hgp, hgn⟩ := h.lowest_next hfn.1 hfn.2.1
        rw [he] at hgp
        cases hgp
        have hunit : f.unit = e.unit :=
          le_antisymm (hfn.2.2 e hgn.1 hgn.2.1) (hgn.2.2 f hfn.1 hfn.2.1)
        have hfe : f = e := List.inj_on_of_nodup_map hn hfn.1 hgn.1 hunit
        rw [hfe, Bool.eq_false_iff]
        exact fun hwh => hw (hh.sequenceComplete_iff.mpr ((R.whole_iff hs).mp hwh))

/-- `finalize_ready` drains the table. -/
theorem finalizeReady (h : R.Follows S run) (hn : (S.table.map (·.unit)).Nodup) :
    ∃ S', R.feed.Drains S S' ∧ R.Follows S' run.finalizeReady ∧ KeepsAll run run.finalizeReady :=
  h.finalizeReadyLoop _ hn le_rfl

theorem finalizeRemainingLoop (fuel : ℕ) (h : R.Follows S run)
    (hn : (S.table.map (·.unit)).Nodup) (hf : run.shots.length ≤ fuel) :
    ∃ S', R.feed.Flushes S S' ∧ R.Follows S' (run.finalizeRemainingLoop fuel) ∧
      KeepsAll run (run.finalizeRemainingLoop fuel) := by
  induction fuel generalizing S run with
  | zero =>
    have hnil : run.shots = [] := List.length_eq_zero_iff.mp (Nat.le_zero.mp hf)
    have htable := h.table
    rw [hnil] at htable
    exact ⟨S, .done (List.forall₂_nil_right_iff.mp htable), h, .refl run⟩
  | succ fuel ih =>
    rw [RunState.finalizeRemainingLoop]
    cases hpos : run.shots[run.lowestSequenceShot]? with
    | none =>
      have hnil : run.shots = [] := by
        by_contra hne
        have hlt := RunState.lowestSequenceShot_lt hne
        rw [List.getElem?_eq_getElem hlt] at hpos
        cases hpos
      have htable := h.table
      rw [hnil] at htable
      exact ⟨S, .done (List.forall₂_nil_right_iff.mp htable), h, .refl run⟩
    | some shot =>
      obtain ⟨e, he, s, hs, hh⟩ := getElem?_forall₂ h.table hpos
      have hput := h.put hn he hs hh
      have hlen : (run.shots.eraseIdx run.lowestSequenceShot).length ≤ fuel := by
        rw [List.length_eraseIdx_of_lt (List.getElem?_eq_some_iff.mp hpos).1]
        omega
      dsimp only
      rw [removeAndFinalize_eq (.inr rfl)]
      dsimp only
      obtain ⟨S', hfl, hfollows, hkeeps⟩ := ih hput ((List.filter_sublist.map _).nodup hn) hlen
      refine ⟨S', ?_, hfollows, (keepsAll_close _ _ _).trans hkeeps⟩
      by_cases ha : ∃ f ∈ S.table, R.feed.announced f = true
      · obtain ⟨f, hfm, hfa⟩ := ha
        obtain ⟨g, hgp, hgn⟩ := h.lowest_next hfm hfa
        rw [he] at hgp
        cases hgp
        exact .next hgn hfl
      · have hnone : ∀ f ∈ S.table, R.feed.announced f = false := fun f hfm =>
          Bool.eq_false_iff.mpr fun hfa => ha ⟨f, hfm, hfa⟩
        rw [h.lowest_head hnone] at he
        cases ht : S.table with
        | nil =>
          rw [ht] at he
          cases he
        | cons f rest =>
          rw [ht] at he
          cases he
          exact .head hnone ht hfl

/-- `finalize_remaining` flushes it. -/
theorem finalizeRemaining (h : R.Follows S run) (hn : (S.table.map (·.unit)).Nodup) :
    ∃ S', R.feed.Flushes S S' ∧ R.Follows S' run.finalizeRemaining ∧
      KeepsAll run run.finalizeRemaining :=
  h.finalizeRemainingLoop _ hn le_rfl

end SentRun.Follows

end QCrate.Recorder
