import QCrate.DataPlane.Framing
import QCrate.Recorder.Ingest

/-!
# Every shot is accounted for

Whatever arrives, an entry that was opened is either still in the table or has become one index
record, and the only thing that can go wrong is that the table is full.

* `Balanced` — the ids of the opened entries are those of the records and of the table.
* `record_accounts` — a recording fails exactly when a datagram needs an entry and 256 other
  shots are open; otherwise every entry that was opened has its record.
-/

namespace QCrate.Recorder

open QCrate.Lib QCrate.DataPlane

namespace RunState

/-! ## The invariant -/

/-- The ids that have left the table, and those in it. -/
def ids (run : RunState) : List ℕ := run.index.map (·.shotId) ++ run.shots.map (·.shotId)

structure Balanced (run : RunState) : Prop where
  perm : run.opened.Perm run.ids
  nodup : (run.shots.map (·.shotId)).Nodup
  room : run.shots.length ≤ maxActiveShots

/-- Entries may have been closed, but none was opened or lost. -/
structure Closes (run run' : RunState) : Prop where
  opened : run'.opened = run.opened
  ids : run'.ids.Perm run.ids
  shots : (run'.shots.map (·.shotId)).Sublist (run.shots.map (·.shotId))

variable {run run' : RunState}

theorem Closes.refl (run : RunState) : Closes run run := ⟨rfl, .refl _, .refl _⟩

/-- Shots that are closed, and then others. -/
theorem Closes.trans {run'' : RunState} (h : Closes run run') (h' : Closes run' run'') :
    Closes run run'' :=
  ⟨h'.opened.trans h.opened, h'.ids.trans h.ids, h'.shots.trans h.shots⟩

/-- A step that closes nothing. -/
theorem Closes.of_same (hi : run'.index = run.index) (ho : run'.opened = run.opened)
    (hs : run'.shots.map (·.shotId) = run.shots.map (·.shotId)) : Closes run run' := by
  refine ⟨ho, ?_, ?_⟩
  · rw [RunState.ids, RunState.ids, hi, hs]
  · rw [hs]

/-- Every shot that is closed has its record. -/
theorem Balanced.closes (h : Balanced run) (hc : Closes run run') : Balanced run' := by
  refine ⟨?_, hc.shots.nodup h.nodup, ?_⟩
  · rw [hc.opened]
    exact h.perm.trans hc.ids.symm
  · have hlen := hc.shots.length_le
    simp only [List.length_map] at hlen
    exact hlen.trans h.room

/-! ## Closing entries -/

theorem map_set_same {α β : Type*} (f : α → β) {l : List α} {i : ℕ} {a b : α}
    (hi : l[i]? = some a) (hf : f b = f a) : (l.set i b).map f = l.map f := by
  obtain ⟨hlt, rfl⟩ := List.getElem?_eq_some_iff.mp hi
  rw [List.map_set, hf]
  refine List.ext_getElem? fun j => ?_
  rw [List.getElem?_set]
  split
  · next hij =>
    subst hij
    simp [hlt]
  · rfl

/-- Only a shot that is not forced can be refused. -/
theorem finalizeShot_error {shot shot' : ShotState} {forced : Bool}
    (h : run.finalizeShot shot forced = .error shot') :
    forced = false ∧ shot'.shotId = shot.shotId := by
  unfold finalizeShot at h
  dsimp only at h
  split at h
  · next hc =>
    cases h
    exact ⟨hc.2, rfl⟩
  · cases h

/-- A shot that is finalized has one record more in the index. -/
theorem finalizeShot_ok {shot : ShotState} {forced : Bool}
    (h : run.finalizeShot shot forced = .ok run') :
    ∃ r : IndexRecord, r.shotId = shot.shotId ∧ run'.index = run.index ++ [r] ∧
      run'.shots = run.shots ∧ run'.opened = run.opened := by
  unfold finalizeShot at h
  dsimp only at h
  split at h
  · cases h
  · cases h
    exact ⟨_, rfl, rfl, rfl, rfl⟩

/-- The shot leaves the table for the index. -/
theorem removeAndFinalize_ok {position : ℕ} {shot : ShotState} {forced : Bool} {a : ShotState}
    (hp : run.shots[position]? = some a) (ha : a.shotId = shot.shotId)
    (h : run.removeAndFinalize position shot forced = .ok run') :
    Closes run run' ∧ run'.shots = run.shots.eraseIdx position := by
  unfold removeAndFinalize at h
  split at h
  · cases h
  · next run₁ hf =>
    cases h
    obtain ⟨r, hr, hi, hs, ho⟩ := finalizeShot_ok hf
    obtain ⟨hlt, rfl⟩ := List.getElem?_eq_some_iff.mp hp
    refine ⟨⟨ho, ?_, ?_⟩, by rw [hs]⟩
    · simp only [RunState.ids, hi, hs, List.map_append, List.map_cons, List.map_nil, hr, ← ha,
        List.append_assoc, List.singleton_append]
      refine List.Perm.append_left _ ?_
      exact (List.getElem_cons_eraseIdx_perm hlt).map (·.shotId)
    · simp only [hs]
      exact (List.eraseIdx_sublist ..).map _

/-- A shot that is refused goes back to the table. -/
theorem removeAndFinalize_error {position : ℕ} {shot : ShotState} {forced : Bool} {a : ShotState}
    (hp : run.shots[position]? = some a) (ha : a.shotId = shot.shotId)
    (h : run.removeAndFinalize position shot forced = .error run') :
    forced = false ∧ Closes run run' := by
  unfold removeAndFinalize at h
  split at h
  · next shot' hf =>
    cases h
    obtain ⟨hforced, hid⟩ := finalizeShot_error hf
    refine ⟨hforced, .of_same rfl rfl ?_⟩
    exact map_set_same _ hp (hid.trans ha.symm)
  · cases h

theorem lowestFrom_lt (l : List ShotState) (index lowest sequence : ℕ) :
    lowestFrom l index lowest sequence = lowest ∨
      lowestFrom l index lowest sequence < index + l.length := by
  induction l generalizing index lowest sequence with
  | nil => exact .inl rfl
  | cons shot rest ih =>
    rw [lowestFrom, List.length_cons]
    split
    · rcases ih (index + 1) index (candidate shot) with h | h
      · omega
      · omega
    · rcases ih (index + 1) lowest sequence with h | h
      · exact .inl h
      · omega

/-- The shot that is chosen is in the table. -/
theorem lowestSequenceShot_lt (h : run.shots ≠ []) :
    run.lowestSequenceShot < run.shots.length := by
  have hpos := List.length_pos_iff.mpr h
  rcases lowestFrom_lt run.shots 0 0 uint64Max with hz | hlt
  · rw [lowestSequenceShot, hz]
    exact hpos
  · rw [lowestSequenceShot]
    omega

/-- However many are ready, each is closed once. -/
theorem closes_finalizeReadyLoop (fuel : ℕ) (run : RunState) :
    Closes run (finalizeReadyLoop fuel run) := by
  induction fuel generalizing run with
  | zero => exact .refl run
  | succ fuel ih =>
    rw [finalizeReadyLoop]
    dsimp only
    split
    · exact .refl run
    · next shot hp =>
      have hid : shot.shotId = shot.sortPackets.shotId := rfl
      split
      · split
        · next hr => exact (removeAndFinalize_error hp hid hr).2
        · next hr => exact (removeAndFinalize_ok hp hid hr).1.trans (ih _)
      · exact .of_same rfl rfl (map_set_same _ hp rfl)

theorem closes_finalizeReady (run : RunState) : Closes run run.finalizeReady :=
  closes_finalizeReadyLoop ..

/-- The final flush closes every entry. -/
theorem finalizeRemainingLoop_spec (fuel : ℕ) (run : RunState) (hf : run.shots.length ≤ fuel) :
    Closes run (finalizeRemainingLoop fuel run) ∧ (finalizeRemainingLoop fuel run).shots = [] := by
  induction fuel generalizing run with
  | zero => exact ⟨.refl run, List.length_eq_zero_iff.mp (Nat.le_zero.mp hf)⟩
  | succ fuel ih =>
    rw [finalizeRemainingLoop]
    split
    · next hp =>
      refine ⟨.refl run, ?_⟩
      by_contra hne
      have hlt := lowestSequenceShot_lt hne
      rw [List.getElem?_eq_none_iff] at hp
      omega
    · next shot hp =>
      split
      · next hr =>
        obtain ⟨hforced, -⟩ := removeAndFinalize_error hp rfl hr
        cases hforced
      · next run₁ hr =>
        obtain ⟨hc, hs⟩ := removeAndFinalize_ok hp rfl hr
        obtain ⟨hlt, -⟩ := List.getElem?_eq_some_iff.mp hp
        have hlen : run₁.shots.length ≤ fuel := by
          rw [hs, List.length_eraseIdx_of_lt hlt]
          omega
        exact ⟨hc.trans (ih run₁ hlen).1, (ih run₁ hlen).2⟩

/-- After the flush every entry that was opened has become a record. -/
theorem Balanced.finalizeRemaining (h : Balanced run) :
    run.finalizeRemaining.opened.Perm (run.finalizeRemaining.index.map (·.shotId)) ∧
      run.finalizeRemaining.opened = run.opened := by
  obtain ⟨hc, hempty⟩ := finalizeRemainingLoop_spec run.shots.length run le_rfl
  have hperm : run.finalizeRemaining.opened.Perm run.finalizeRemaining.ids := (h.closes hc).perm
  have hshots : run.finalizeRemaining.shots = [] := hempty
  rw [ids, hshots, List.map_nil, List.append_nil] at hperm
  exact ⟨hperm, hc.opened⟩

/-! ## Ingesting a datagram -/

/-- What a packet says changes neither the table nor the records. -/
theorem absorb_frame (run : RunState) (shot : ShotState) (header : Header) (payload : Bytes) :
    (run.absorb shot header payload).1.shots = run.shots ∧
      (run.absorb shot header payload).1.index = run.index ∧
      (run.absorb shot header payload).1.opened = run.opened ∧
      (run.absorb shot header payload).2.shotId = shot.shotId := by
  unfold absorb
  cases header.packetType with
  | streamInfo =>
    dsimp only
    unfold absorbInfo
    repeat' split
    all_goals exact ⟨rfl, rfl, rfl, rfl⟩
  | shotEnd =>
    dsimp only
    unfold absorbEnd
    repeat' split
    all_goals exact ⟨rfl, rfl, rfl, rfl⟩
  | data => exact ⟨rfl, rfl, rfl, rfl⟩
  | heartbeat => exact ⟨rfl, rfl, rfl, rfl⟩

/-- A shot that is written back keeps its place. -/
theorem map_overwrite (shot : ShotState) (l : List ShotState) :
    (overwrite shot l).map (·.shotId) = l.map (·.shotId) := by
  induction l with
  | nil => rfl
  | cons s rest ih =>
    rw [overwrite]
    split
    · next h => rw [List.map_cons, List.map_cons, h]
    · rw [List.map_cons, List.map_cons, ih]

theorem closes_putShot (run : RunState) (shot : ShotState) : Closes run (run.putShot shot) :=
  .of_same rfl rfl (map_overwrite shot run.shots)

/-- A datagram closes shots when it completes one. -/
theorem closes_addToShot (run : RunState) (shot : ShotState) (header : Header) (a : Arrival) :
    Closes run (run.addToShot shot header a) := by
  unfold addToShot
  split
  · exact (closes_putShot ..).trans (closes_finalizeReady _)
  · next shot' _ =>
    obtain ⟨hs, hi, ho, -⟩ :=
      absorb_frame run shot' header (a.datagram.drop header.headerBytes)
    dsimp only
    refine .trans (.of_same hi ho ?_) ((closes_putShot ..).trans (closes_finalizeReady _))
    rw [hs]

/-- A new entry is opened once more. -/
theorem balanced_createShot {shotId : ℕ} (h : Balanced run)
    (hnew : run.findShot shotId = none) (hc : run.createShot shotId = some run') :
    Balanced run' ∧
      (run'.opened.Nodup ↔ run.opened.Nodup ∧ shotId ∉ run.index.map (·.shotId)) := by
  have hnotin : shotId ∉ run.shots.map (·.shotId) := by
    intro hmem
    obtain ⟨s, hs, rfl⟩ := List.mem_map.mp hmem
    have hne := List.find?_eq_none.mp hnew s hs
    simp at hne
  unfold createShot at hc
  split at hc
  · cases hc
  next hroom =>
    cases hc
    refine ⟨⟨?_, ?_, ?_⟩, ?_⟩
    · simp only [RunState.ids, List.map_append, List.map_cons, List.map_nil, ← List.append_assoc]
      exact h.perm.append_right _
    · simp only [List.map_append, List.map_cons, List.map_nil]
      refine h.nodup.append (List.nodup_singleton _) ?_
      intro x hx hx'
      rw [List.mem_singleton.mp hx'] at hx
      exact hnotin hx
    · have := h.room
      simp only [List.length_append, List.length_cons, List.length_nil]
      unfold maxActiveShots at *
      omega
    · -- an id without an entry was opened before only if it has a record
      have hmem : shotId ∈ run.opened ↔ shotId ∈ run.index.map (·.shotId) := by
        rw [h.perm.mem_iff, RunState.ids, List.mem_append, or_iff_left hnotin]
      rw [← hmem, List.nodup_append]
      constructor
      · rintro ⟨hn, -, hd⟩
        exact ⟨hn, fun hm => hd _ hm _ (List.mem_singleton_self _) rfl⟩
      · rintro ⟨hn, hm⟩
        refine ⟨hn, List.nodup_singleton _, ?_⟩
        intro x hx y hy hxy
        rw [hxy, List.mem_singleton.mp hy] at hx
        exact hm hx

/-- The outcome of a step from `run` that keeps the books: it fails only when `bad`, and opens an
entry for a shot that has had one only when `again`. -/
def Accounts (run : RunState) (bad again : Prop) (r : Except RunState RunState) : Prop :=
  (∃ run', r = .ok run' ∧ Balanced run' ∧ ¬ bad ∧
      (run'.opened.Nodup ↔ run.opened.Nodup ∧ ¬ again)) ∨
    ∃ run', r = .error run' ∧ Balanced run' ∧ bad

/-- Counters do not matter to the books. -/
theorem Balanced.of_same (h : Balanced run) (hi : run'.index = run.index)
    (ho : run'.opened = run.opened) (hs : run'.shots = run.shots) : Balanced run' := by
  refine h.closes (.of_same hi ho ?_)
  rw [hs]

/-- Conditions that agree say the same. -/
theorem Accounts.congr {bad bad' again again' : Prop} {r : Except RunState RunState}
    (h : Accounts run bad again r) (hbad : bad' ↔ bad) (hagain : again' ↔ again) :
    Accounts run bad' again' r := by
  unfold Accounts
  rw [hbad, hagain]
  exact h

/-- A step that opens no entry. -/
theorem Accounts.of_opened {bad again : Prop} (hb : Balanced run')
    (ho : run'.opened = run.opened) (hbad : ¬ bad) (hagain : ¬ again) :
    Accounts run bad again (.ok run') := by
  refine .inl ⟨run', rfl, hb, hbad, ?_⟩
  rw [ho]
  exact (and_iff_left hagain).symm

/-- A datagram opens an entry when its shot is new, and fails when the table is full. -/
theorem accounts_ingestShot (h : Balanced run) (header : Header) (a : Arrival) :
    Accounts run
      ((run.lastShot.any (header.shotId ≤ ·.shotId) = false ∧
        run.findShot header.shotId = none) ∧ run.shots.length = maxActiveShots)
      ((run.lastShot.any (header.shotId ≤ ·.shotId) = false ∧
        run.findShot header.shotId = none) ∧ run.shots.length ≠ maxActiveShots ∧
        header.shotId ∈ run.index.map (·.shotId))
      (run.ingestShot header a) := by
  unfold ingestShot
  by_cases hlate : run.lastShot.any (header.shotId ≤ ·.shotId) = true
  · rw [if_pos hlate, hlate]
    refine .of_opened (h.of_same rfl rfl rfl) rfl ?_ ?_
    · rintro ⟨⟨hn, -⟩, -⟩
      cases hn
    · rintro ⟨⟨hn, -⟩, -⟩
      cases hn
  rw [if_neg hlate]
  cases hfind : run.findShot header.shotId with
  | some shot =>
    have hc := closes_addToShot run shot header a
    refine .of_opened (h.closes hc) hc.opened ?_ ?_
    · rintro ⟨⟨-, hn⟩, -⟩
      cases hn
    · rintro ⟨⟨-, hn⟩, -⟩
      cases hn
  | none =>
    have hfresh : run.lastShot.any (header.shotId ≤ ·.shotId) = false ∧
        (none : Option ShotState) = none := ⟨Bool.eq_false_iff.mpr hlate, rfl⟩
    rw [eq_true hfresh, true_and, true_and]
    dsimp only
    by_cases hfull : run.shots.length = maxActiveShots
    · have hc : run.createShot header.shotId = none := if_pos hfull
      rw [hc]
      exact .inr ⟨run, rfl, h, hfull⟩
    · obtain ⟨run₁, hc⟩ : ∃ run₁, run.createShot header.shotId = some run₁ := ⟨_, if_neg hfull⟩
      obtain ⟨hb, hiff⟩ := balanced_createShot h hfind hc
      have hcl := closes_addToShot run₁ { shotId := header.shotId } header a
      rw [hc]
      refine .inl ⟨_, rfl, hb.closes hcl, hfull, ?_⟩
      rw [hcl.opened, hiff, and_iff_right hfull]

/-- A datagram of the run that is not late, and whose shot has no entry. -/
def WantsEntry (selection : Selection) (run : RunState) (a : Arrival) (shotId : ℕ) : Prop :=
  ∃ header, acceptedHeader a = some header ∧
    sourceEqual a.source selection.source true = true ∧ header.runId = selection.runId ∧
    header.streamId = selection.streamId ∧ header.packetType ≠ .heartbeat ∧
    header.shotId = shotId ∧ run.lastShot.any (shotId ≤ ·.shotId) = false ∧
    run.findShot shotId = none

/-- The datagram needs an entry, and 256 other shots are open. -/
def Overflows (selection : Selection) (run : RunState) (a : Arrival) : Prop :=
  ∃ shotId, WantsEntry selection run a shotId ∧ run.shots.length = maxActiveShots

/-- The datagram opens an entry for a shot that already has a record. -/
def Reopens (selection : Selection) (run : RunState) (a : Arrival) : Prop :=
  ∃ shotId, WantsEntry selection run a shotId ∧ run.shots.length ≠ maxActiveShots ∧
    shotId ∈ run.index.map (·.shotId)

/-- What a datagram has to be to open an entry. -/
theorem exists_wantsEntry {selection : Selection} {header : Header} {a : Arrival}
    (ha : acceptedHeader a = some header) (Q : ℕ → Prop) :
    (∃ shotId, WantsEntry selection run a shotId ∧ Q shotId) ↔
      (sourceEqual a.source selection.source true = true ∧ header.runId = selection.runId ∧
        header.streamId = selection.streamId ∧ header.packetType ≠ .heartbeat) ∧
      (run.lastShot.any (header.shotId ≤ ·.shotId) = false ∧
        run.findShot header.shotId = none) ∧ Q header.shotId := by
  constructor
  · rintro ⟨_, ⟨header', ha', h₁, h₂, h₃, h₄, rfl, h₅⟩, hq⟩
    rw [ha] at ha'
    cases ha'
    exact ⟨⟨h₁, h₂, h₃, h₄⟩, h₅, hq⟩
  · rintro ⟨⟨h₁, h₂, h₃, h₄⟩, h₅, hq⟩
    exact ⟨_, ⟨header, ha, h₁, h₂, h₃, h₄, rfl, h₅⟩, hq⟩

theorem accounts_ingestSelected (h : Balanced run) (selection : Selection) {header : Header}
    {a : Arrival} (ha : acceptedHeader a = some header) :
    Accounts run (Overflows selection run a) (Reopens selection run a)
      (run.ingestSelected selection header a) := by
  refine Accounts.congr ?_ (exists_wantsEntry ha _) (exists_wantsEntry ha _)
  unfold ingestSelected
  by_cases hforeign : (!sourceEqual a.source selection.source true ||
      header.runId ≠ selection.runId || header.streamId ≠ selection.streamId) = true
  · rw [if_pos hforeign]
    refine .of_opened (h.of_same rfl rfl rfl) rfl ?_ ?_
    · rintro ⟨⟨h₁, h₂, h₃, -⟩, -⟩
      simp [h₁, h₂, h₃] at hforeign
    · rintro ⟨⟨h₁, h₂, h₃, -⟩, -⟩
      simp [h₁, h₂, h₃] at hforeign
  rw [if_neg hforeign]
  simp only [Bool.or_eq_true, Bool.not_eq_true', decide_eq_true_eq, not_or, not_not,
    Bool.not_eq_false] at hforeign
  obtain ⟨⟨h₁, h₂⟩, h₃⟩ := hforeign
  by_cases hbeat : header.packetType = .heartbeat
  · rw [hbeat]
    dsimp only
    split
    · exact .of_opened (h.of_same rfl rfl rfl) rfl (fun hn => hn.1.2.2.2 rfl)
        (fun hn => hn.1.2.2.2 rfl)
    · exact .of_opened (h.of_same rfl rfl rfl) rfl (fun hn => hn.1.2.2.2 rfl)
        (fun hn => hn.1.2.2.2 rfl)
  · rw [eq_true (And.intro h₁ (And.intro h₂ (And.intro h₃ hbeat))), true_and, true_and]
    have hbal : Balanced { run with validPackets := run.validPackets + 1 } :=
      h.of_same rfl rfl rfl
    dsimp only
    split
    · next hb => exact absurd hb hbeat
    · exact accounts_ingestShot hbal header a

/-- A datagram that opens no entry keeps the books. -/
theorem accounts_ingest (h : Balanced run) (selection : Selection) (a : Arrival) :
    Accounts run (Overflows selection run a) (Reopens selection run a)
      (ingest selection run a) := by
  unfold ingest
  split
  · next hnone =>
    have hwants : ∀ shotId, ¬ WantsEntry selection run a shotId := by
      rintro shotId ⟨header, hsome, -⟩
      rw [hnone] at hsome
      cases hsome
    refine .of_opened (h.of_same rfl rfl rfl) rfl ?_ ?_
    · rintro ⟨shotId, hw, -⟩
      exact hwants shotId hw
    · rintro ⟨shotId, hw, -⟩
      exact hwants shotId hw
  · next header hsome => exact accounts_ingestSelected h selection hsome

/-- A loop accounts for its entries when its body does. -/
theorem accounts_foldlM {α : Type} {f : RunState → α → Except RunState RunState}
    {bad again : RunState → α → Prop}
    (hf : ∀ run, Balanced run → ∀ a, Accounts run (bad run a) (again run a) (f run a))
    (h : Balanced run) (l : List α) :
    Accounts run (Breaks f bad l run) (Breaks f again l run) (l.foldlM f run) := by
  have hok : ∀ s a s', Balanced s → f s a = .ok s' →
      (Balanced s' ∧ ¬ bad s a) ∧ (s'.opened.Nodup ↔ s.opened.Nodup ∧ ¬ again s a) := by
    intro s a s' hs hr
    rcases hf s hs a with ⟨s₁, h₁, hb, hnot, hiff⟩ | ⟨s₁, h₁, -⟩
    · rw [hr] at h₁
      cases h₁
      exact ⟨⟨hb, hnot⟩, hiff⟩
    · rw [hr] at h₁
      cases h₁
  have herr : ∀ s a e, Balanced s → f s a = .error e → Balanced e ∧ bad s a := by
    intro s a e hs hr
    rcases hf s hs a with ⟨s₁, h₁, -⟩ | ⟨s₁, h₁, hb, hbad⟩
    · rw [hr] at h₁
      cases h₁
    · rw [hr] at h₁
      cases h₁
      exact ⟨hb, hbad⟩
  rcases foldlM_spec (fun s a s' hs hr => (hok s a s' hs hr).1) herr h (l := l) with
    ⟨run', hr, hb, hnot⟩ | hfail
  · refine .inl ⟨run', hr, hb, hnot, ?_⟩
    exact foldlM_iff (P := fun run => run.opened.Nodup)
      (fun s a s' hs hr => ⟨(hok s a s' hs hr).1.1, (hok s a s' hs hr).2⟩) h hr
  · exact .inr hfail

/-- Over many datagrams the first that overflows ends the recording. -/
theorem accounts_ingestAll (h : Balanced run) (selection : Selection) (l : List Arrival) :
    Accounts run (Breaks (ingest selection) (Overflows selection) l run)
      (Breaks (ingest selection) (Reopens selection) l run) (ingestAll selection l run) :=
  accounts_foldlM (fun _ hb a => accounts_ingest hb selection a) h l

/-! ## Messages -/

/-- The datagrams an arrival makes the recorder put into shots, with the run they meet: the
arrival itself, or everything parked before it when it selects the run. -/
def offered (run : RunState) (a : Arrival) : Option (Selection × RunState × List Arrival) :=
  match run.selected, acceptedHeader a with
  | some selection, _ => some (selection, run, [a])
  | none, none => none
  | none, some header =>
    if header.packetType = .streamInfo then
      let selection := ⟨a.source, header.runId, header.streamId⟩
      some (selection, { run with selected := some selection }, run.pending ++ [a])
    else none

/-- One of them is bad. -/
def OnArrival (bad : Selection → RunState → Arrival → Prop) (run : RunState) (a : Arrival) :
    Prop :=
  ∃ selection run₀ l, run.offered a = some (selection, run₀, l) ∧
    Breaks (ingest selection) (bad selection) l run₀

/-- A datagram that is offered is looked at with those that waited. -/
theorem onArrival_iff {bad : Selection → RunState → Arrival → Prop} {a : Arrival}
    {selection : Selection} {run₀ : RunState} {l : List Arrival}
    (h : run.offered a = some (selection, run₀, l)) :
    OnArrival bad run a ↔ Breaks (ingest selection) (bad selection) l run₀ := by
  constructor
  · rintro ⟨selection', run', l', h', hb⟩
    rw [h] at h'
    cases h'
    exact hb
  · exact fun hb => ⟨_, _, _, h, hb⟩

theorem not_onArrival {bad : Selection → RunState → Arrival → Prop} {a : Arrival}
    (h : run.offered a = none) : ¬ OnArrival bad run a := by
  rintro ⟨selection, run₀, l, h', -⟩
  rw [h] at h'
  cases h'

/-- Selecting a run replays what was parked, then handles the datagram that selected it. -/
theorem accounts_select (h : Balanced run) (selection : Selection) {header : Header}
    {a : Arrival} (ha : acceptedHeader a = some header) :
    Accounts run (Breaks (ingest selection) (Overflows selection) (run.pending ++ [a]) run)
      (Breaks (ingest selection) (Reopens selection) (run.pending ++ [a]) run)
      ((run.replayPending selection).bind fun run => run.ingestSelected selection header a) := by
  unfold replayPending
  rcases accounts_ingestAll h selection run.pending with
    ⟨run₁, hr, hb, hnot, hiff⟩ | ⟨run₁, hr, hb, hbad⟩
  · rw [hr]
    have hbal : Balanced { run₁ with pending := [] } := hb.of_same rfl rfl rfl
    rcases accounts_ingestSelected hbal selection ha with
      ⟨run₂, hr₂, hb₂, hnot₂, hiff₂⟩ | ⟨run₂, hr₂, hb₂, hbad₂⟩
    · refine .inl ⟨run₂, hr₂, hb₂, ?_, ?_⟩
      · rw [breaks_concat hr, not_or]
        exact ⟨hnot, hnot₂⟩
      · rw [breaks_concat hr, not_or, ← and_assoc, ← hiff]
        exact hiff₂
    · refine .inr ⟨run₂, hr₂, hb₂, ?_⟩
      rw [breaks_concat hr]
      exact .inr hbad₂
  · rw [hr]
    exact .inr ⟨_, rfl, hb.of_same rfl rfl rfl, hbad.append [a]⟩

theorem accounts_validateAndIngest (h : Balanced run) (a : Arrival) :
    Accounts run (OnArrival Overflows run a) (OnArrival Reopens run a)
      (run.validateAndIngest a) := by
  unfold validateAndIngest
  split
  · next selection hs =>
    have hoff : run.offered a = some (selection, run, [a]) := by
      unfold offered
      rw [hs]
    refine (accounts_ingest h selection a).congr ?_ ?_
    · rw [onArrival_iff hoff, breaks_singleton]
    · rw [onArrival_iff hoff, breaks_singleton]
  next hs =>
    split
    · next ha =>
      have hoff : run.offered a = none := by
        unfold offered
        rw [hs, ha]
      exact .of_opened (h.of_same rfl rfl rfl) rfl (not_onArrival hoff) (not_onArrival hoff)
    · next header ha =>
      by_cases hinfo : header.packetType = .streamInfo
      · have hoff : run.offered a = some (⟨a.source, header.runId, header.streamId⟩,
            { run with selected := some ⟨a.source, header.runId, header.streamId⟩ },
            run.pending ++ [a]) := by
          unfold offered
          rw [hs, ha]
          exact if_pos hinfo
        have hbal : Balanced
            { run with selected := some ⟨a.source, header.runId, header.streamId⟩ } :=
          h.of_same rfl rfl rfl
        rw [hinfo]
        refine Accounts.congr ?_ (onArrival_iff hoff) (onArrival_iff hoff)
        exact accounts_select hbal _ ha
      · have hoff : run.offered a = none := by
          unfold offered
          rw [hs, ha]
          exact if_neg hinfo
        split
        · next hi => exact absurd hi hinfo
        · have hsame : (run.savePending a).index = run.index ∧
              (run.savePending a).opened = run.opened ∧
              (run.savePending a).shots = run.shots := by
            unfold savePending
            split <;> exact ⟨rfl, rfl, rfl⟩
          obtain ⟨hi, ho, hsh⟩ := hsame
          exact .of_opened (h.of_same hi ho hsh) ho (not_onArrival hoff) (not_onArrival hoff)

/-- The datagram `receive_batch` hands on, unless it passes the message over. -/
def heard (run : RunState) (m : Message) : Option Arrival :=
  if m.truncated then none
  else
    match m.source with
    | none => none
    | some source =>
      if run.sourceFilter.any (!sourceEqual source · false) then none
      else some ⟨source, m.receiveNs.toNat, m.datagram⟩

/-- The run that meets it: the drop counter and the journal record are noted. -/
def noted (run : RunState) (m : Message) : RunState :=
  { run.noteDrops m.dropped with
    journalRecords := run.journalRecords + 1
    datagramBytes := run.datagramBytes + m.datagram.length }

/-- One of the datagrams the message makes the recorder put into shots is bad. -/
def OnMessage (bad : Selection → RunState → Arrival → Prop) (run : RunState) (m : Message) :
    Prop :=
  ∃ a, run.heard m = some a ∧ OnArrival bad (run.noted m) a

theorem onMessage_iff {bad : Selection → RunState → Arrival → Prop} {m : Message} {a : Arrival}
    (h : run.heard m = some a) : OnMessage bad run m ↔ OnArrival bad (run.noted m) a := by
  constructor
  · rintro ⟨b, hb, hbad⟩
    rw [h] at hb
    cases hb
    exact hbad
  · exact fun hbad => ⟨a, h, hbad⟩

theorem not_onMessage {bad : Selection → RunState → Arrival → Prop} {m : Message}
    (h : run.heard m = none) : ¬ OnMessage bad run m := by
  rintro ⟨a, ha, -⟩
  rw [h] at ha
  cases ha

/-- A message that is heard goes on as a datagram. -/
theorem receiveMessage_heard {m : Message} {a : Arrival} (h : run.heard m = some a) :
    run.receiveMessage m = (run.noted m).validateAndIngest a := by
  cases ht : m.truncated with
  | true =>
    rw [heard, ht] at h
    cases h
  | false =>
    cases hs : m.source with
    | none =>
      rw [heard, ht, hs] at h
      cases h
    | some source =>
      rw [heard, ht, hs] at h
      rw [receiveMessage, ht, hs]
      by_cases hf : run.sourceFilter.any (!sourceEqual source · false) = true
      · exact absurd ((if_pos hf).symm.trans h) nofun
      · cases (if_neg hf).symm.trans h
        have hj : (run.noteDrops m.dropped).journalDatagram
            ⟨source, m.receiveNs.toNat, m.datagram⟩ = .ok (run.noted m) :=
          if_neg (Nat.not_lt.mpr m.fits)
        refine (if_neg hf).trans ?_
        rw [hj]
        rfl

/-- A message that is not heard changes no book. -/
theorem receiveMessage_not_heard {m : Message} (h : run.heard m = none) :
    ∃ run', run.receiveMessage m = .ok run' ∧ run'.index = run.index ∧
      run'.opened = run.opened ∧ run'.shots = run.shots := by
  cases ht : m.truncated with
  | true =>
    rw [receiveMessage, ht]
    exact ⟨_, rfl, rfl, rfl, rfl⟩
  | false =>
    cases hs : m.source with
    | none =>
      rw [receiveMessage, ht, hs]
      exact ⟨_, rfl, rfl, rfl, rfl⟩
    | some source =>
      rw [heard, ht, hs] at h
      rw [receiveMessage, ht, hs]
      by_cases hf : run.sourceFilter.any (!sourceEqual source · false) = true
      · exact ⟨_, if_pos hf, rfl, rfl, rfl⟩
      · exact absurd ((if_neg hf).symm.trans h) nofun

theorem accounts_receiveMessage (h : Balanced run) (m : Message) :
    Accounts run (OnMessage Overflows run m) (OnMessage Reopens run m)
      (run.receiveMessage m) := by
  cases hm : run.heard m with
  | none =>
    obtain ⟨run', hr, hi, ho, hs⟩ := receiveMessage_not_heard hm
    rw [hr]
    exact .of_opened (h.of_same hi ho hs) ho (not_onMessage hm) (not_onMessage hm)
  | some a =>
    rw [receiveMessage_heard hm]
    have hbal : Balanced (run.noted m) := h.of_same rfl rfl rfl
    exact (accounts_validateAndIngest hbal a).congr (onMessage_iff hm) (onMessage_iff hm)

/-- The books of a recording, over all its messages. -/
theorem accounts_receiveAll (h : Balanced run) (messages : List Message) :
    Accounts run (Breaks receiveMessage (OnMessage Overflows) messages run)
      (Breaks receiveMessage (OnMessage Reopens) messages run) (receiveAll messages run) :=
  accounts_foldlM (fun _ hb m => accounts_receiveMessage hb m) h messages

/-! ## How the table fills

While no entry has both its STREAM_INFO and its SHOT_END, none can be closed, so every shot that
is heard of for the first time takes a place. -/

structure Stalled (run : RunState) : Prop where
  open_ : ∀ shot ∈ run.shots, shot.info = none ∨ shot.shotEnd = none
  lastShot : run.lastShot = none

/-- A shot without its first or last packet is not complete. -/
theorem sequenceComplete_of_open {shot : ShotState} (h : shot.info = none ∨ shot.shotEnd = none) :
    shot.sequenceComplete = false := by
  unfold ShotState.sequenceComplete
  rcases h with h | h
  · rw [h]
  · rw [h]
    cases shot.info <;> rfl

/-- A run in which no shot can be completed finalizes none. -/
theorem Stalled.finalizeReady (h : Stalled run) :
    Stalled run.finalizeReady ∧
      run.finalizeReady.shots.map (·.shotId) = run.shots.map (·.shotId) ∧
      run.finalizeReady.selected = run.selected ∧
      run.finalizeReady.sourceFilter = run.sourceFilter := by
  unfold RunState.finalizeReady
  cases hfuel : run.shots.length with
  | zero => exact ⟨h, rfl, rfl, rfl⟩
  | succ fuel =>
    rw [finalizeReadyLoop]
    dsimp only
    split
    · exact ⟨h, rfl, rfl, rfl⟩
    next shot hp =>
      have hopen := h.open_ shot (List.mem_of_getElem? hp)
      have hc : shot.sortPackets.sequenceComplete = false := sequenceComplete_of_open hopen
      rw [hc]
      refine ⟨⟨?_, h.lastShot⟩, map_set_same _ hp rfl, rfl, rfl⟩
      intro s hs
      rcases List.mem_or_eq_of_mem_set hs with hs | rfl
      · exact h.open_ s hs
      · exact hopen

theorem mem_overwrite {shot s : ShotState} {l : List ShotState} (h : s ∈ overwrite shot l) :
    s = shot ∨ s ∈ l := by
  induction l with
  | nil => cases h
  | cons x rest ih =>
    rw [overwrite] at h
    split at h
    · rcases List.mem_cons.mp h with rfl | h
      · exact .inl rfl
      · exact .inr (List.mem_cons_of_mem _ h)
    · rcases List.mem_cons.mp h with rfl | h
      · exact .inr List.mem_cons_self
      · rcases ih h with rfl | h
        · exact .inl rfl
        · exact .inr (List.mem_cons_of_mem _ h)

/-- The first packet of a shot brings STREAM_INFO or SHOT_END, not both. -/
theorem absorb_fresh (run : RunState) {shot : ShotState} (hi : shot.info = none)
    (he : shot.shotEnd = none) (header : Header) (payload : Bytes) :
    ((run.absorb shot header payload).2.info = none ∨
      (run.absorb shot header payload).2.shotEnd = none) ∧
    (run.absorb shot header payload).1.lastShot = run.lastShot ∧
    (run.absorb shot header payload).1.selected = run.selected ∧
    (run.absorb shot header payload).1.sourceFilter = run.sourceFilter := by
  unfold absorb
  cases header.packetType with
  | streamInfo =>
    dsimp only
    unfold absorbInfo
    repeat' split
    all_goals exact ⟨.inr he, rfl, rfl, rfl⟩
  | shotEnd =>
    dsimp only
    unfold absorbEnd
    repeat' split
    all_goals exact ⟨.inl hi, rfl, rfl, rfl⟩
  | data => exact ⟨.inl hi, rfl, rfl, rfl⟩
  | heartbeat => exact ⟨.inl hi, rfl, rfl, rfl⟩

/-- One more shot of that kind takes one more entry. -/
theorem Stalled.ingestShot (h : Stalled run) {header : Header} (a : Arrival)
    (hnew : header.shotId ∉ run.shots.map (·.shotId)) (hroom : run.shots.length < maxActiveShots) :
    ∃ run', run.ingestShot header a = .ok run' ∧ Stalled run' ∧
      run'.shots.map (·.shotId) = run.shots.map (·.shotId) ++ [header.shotId] ∧
      run'.selected = run.selected ∧ run'.sourceFilter = run.sourceFilter := by
  have hfind : run.findShot header.shotId = none := by
    refine List.find?_eq_none.mpr fun s hs => ?_
    simp only [decide_eq_true_eq]
    exact fun he => hnew (List.mem_map.mpr ⟨s, hs, he⟩)
  have hc : run.createShot header.shotId = some { run with
      shots := run.shots ++ [{ shotId := header.shotId }]
      opened := run.opened ++ [header.shotId] } := if_neg (by omega)
  -- a fresh entry has no packets, so its first one is new
  obtain ⟨shot, hshot, hi, he, hid⟩ : ∃ shot : ShotState,
      ({ shotId := header.shotId } : ShotState).addPacket header a.receiveNs a.datagram =
        (true, shot) ∧ shot.info = none ∧ shot.shotEnd = none ∧ shot.shotId = header.shotId :=
    ⟨_, rfl, rfl, rfl, rfl⟩
  unfold RunState.ingestShot
  rw [h.lastShot, hfind]
  dsimp only [Option.any_none]
  rw [if_neg Bool.false_ne_true, hc]
  refine ⟨_, rfl, ?_⟩
  unfold addToShot
  rw [hshot]
  dsimp only
  obtain ⟨hs, -, -, hid'⟩ := absorb_frame { run with
    shots := run.shots ++ [{ shotId := header.shotId }]
    opened := run.opened ++ [header.shotId] } shot header (a.datagram.drop header.headerBytes)
  obtain ⟨hopen, hl, hsel, hsrc⟩ := absorb_fresh { run with
    shots := run.shots ++ [{ shotId := header.shotId }]
    opened := run.opened ++ [header.shotId] } hi he header (a.datagram.drop header.headerBytes)
  generalize RunState.absorb _ shot header _ = r at hs hid' hopen hl hsel hsrc ⊢
  have hstalled : Stalled (r.1.putShot r.2) := by
    refine ⟨fun s hmem => ?_, hl.trans h.lastShot⟩
    rcases mem_overwrite hmem with rfl | hmem
    · exact hopen
    rw [hs] at hmem
    rcases List.mem_append.mp hmem with hmem | hmem
    · exact h.open_ s hmem
    · rw [List.mem_singleton.mp hmem]
      exact .inl rfl
  obtain ⟨hst, hids, hsel', hsrc'⟩ := hstalled.finalizeReady
  refine ⟨hst, ?_, hsel'.trans hsel, hsrc'.trans hsrc⟩
  rw [hids, putShot, map_overwrite, hs, List.map_append]
  rfl

/-- A message with a datagram of the run for the shot `shotId`. -/
def Heard (selection : Selection) (m : Message) (shotId : ℕ) : Prop :=
  m.truncated = false ∧ m.source = some selection.source ∧
    ∃ header, acceptedHeader ⟨selection.source, m.receiveNs.toNat, m.datagram⟩ = some header ∧
      header.runId = selection.runId ∧ header.streamId = selection.streamId ∧
      header.packetType ≠ .heartbeat ∧ header.shotId = shotId

theorem Heard.heard {selection : Selection} {m : Message} {shotId : ℕ}
    (h : Heard selection m shotId) (hf : run.sourceFilter = none) :
    run.heard m = some ⟨selection.source, m.receiveNs.toNat, m.datagram⟩ := by
  obtain ⟨ht, hsource, -⟩ := h
  unfold RunState.heard
  rw [ht, hsource, hf]
  rfl

theorem Stalled.ingestSelected (h : Stalled run) {selection : Selection} {header : Header}
    {a : Arrival} (hsource : a.source = selection.source) (hrun : header.runId = selection.runId)
    (hstream : header.streamId = selection.streamId) (htype : header.packetType ≠ .heartbeat)
    (hnew : header.shotId ∉ run.shots.map (·.shotId)) (hroom : run.shots.length < maxActiveShots) :
    ∃ run', run.ingestSelected selection header a = .ok run' ∧ Stalled run' ∧
      run'.shots.map (·.shotId) = run.shots.map (·.shotId) ++ [header.shotId] ∧
      run'.selected = run.selected ∧ run'.sourceFilter = run.sourceFilter := by
  have hst : Stalled { run with validPackets := run.validPackets + 1 } := ⟨h.open_, h.lastShot⟩
  obtain ⟨run', hr, h'⟩ := hst.ingestShot a hnew hroom
  refine ⟨run', ?_, h'⟩
  unfold RunState.ingestSelected
  rw [if_neg (by simp [hsource, sourceEqual_self, hrun, hstream])]
  dsimp only
  split
  · next hb => exact absurd hb htype
  · exact hr

/-- So does its message. -/
theorem Stalled.receiveMessage (h : Stalled run) {selection : Selection} {m : Message}
    {shotId : ℕ} (hsel : run.selected = some selection) (hf : run.sourceFilter = none)
    (hm : Heard selection m shotId) (hnew : shotId ∉ run.shots.map (·.shotId))
    (hroom : run.shots.length < maxActiveShots) :
    ∃ run', run.receiveMessage m = .ok run' ∧ Stalled run' ∧
      run'.shots.map (·.shotId) = run.shots.map (·.shotId) ++ [shotId] ∧
      run'.selected = some selection ∧ run'.sourceFilter = none := by
  have hheard := hm.heard hf
  obtain ⟨-, -, header, hheader, hrun, hstream, htype, rfl⟩ := hm
  have hst : Stalled (run.noted m) := ⟨h.open_, h.lastShot⟩
  obtain ⟨run', hr, hst', hids, hs', hf'⟩ := hst.ingestSelected
    (a := ⟨selection.source, m.receiveNs.toNat, m.datagram⟩) rfl hrun hstream htype hnew hroom
  refine ⟨run', ?_, hst', hids, hs'.trans hsel, hf'.trans hf⟩
  rw [receiveMessage_heard hheard, validateAndIngest, show (run.noted m).selected = _ from hsel]
  dsimp only
  unfold ingest
  rw [hheader]
  exact hr

/-- A STREAM_INFO that selects the run takes the first place. -/
theorem Stalled.select (h : Stalled run) (selection : Selection) (m : Message)
    (hsel : run.selected = none) (hf : run.sourceFilter = none) (hp : run.pending = [])
    (hshots : run.shots = []) {header : Header}
    (ht : m.truncated = false) (hsource : m.source = some selection.source)
    (hheader : acceptedHeader ⟨selection.source, m.receiveNs.toNat, m.datagram⟩ = some header)
    (htype : header.packetType = .streamInfo) (hrun : header.runId = selection.runId)
    (hstream : header.streamId = selection.streamId) :
    ∃ run', run.receiveMessage m = .ok run' ∧ Stalled run' ∧
      run'.shots.map (·.shotId) = [header.shotId] ∧
      run'.selected = some selection ∧ run'.sourceFilter = none := by
  have hbeat : header.packetType ≠ .heartbeat := by simp [htype]
  have hheard : Heard selection m header.shotId :=
    ⟨ht, hsource, header, hheader, hrun, hstream, hbeat, rfl⟩
  have hst : Stalled { run.noted m with selected := some selection, pending := [] } :=
    ⟨h.open_, h.lastShot⟩
  obtain ⟨run', hr, hst', hids, hs', hf'⟩ := hst.ingestSelected
    (a := ⟨selection.source, m.receiveNs.toNat, m.datagram⟩) rfl hrun hstream hbeat
    (by simp [noted, noteDrops, hshots]) (by simp [noted, noteDrops, hshots, maxActiveShots])
  refine ⟨run', ?_, hst', ?_, hs', hf'.trans hf⟩
  · rw [receiveMessage_heard (hheard.heard hf), validateAndIngest,
      show (run.noted m).selected = none from hsel]
    dsimp only
    rw [hheader]
    dsimp only
    rw [htype, hrun, hstream]
    unfold replayPending
    rw [show ({ run.noted m with selected := some selection } : RunState).pending = [] from hp]
    exact hr
  · rw [hids, show ({ run.noted m with selected := some selection, pending := [] } : RunState).shots
      = [] from hshots]
    rfl

/-- Messages of ever new shots fill the table one by one. -/
theorem Stalled.receiveAll (h : Stalled run) {selection : Selection}
    (hsel : run.selected = some selection) (hf : run.sourceFilter = none) {messages : List Message}
    {ids : List ℕ} (hm : List.Forall₂ (Heard selection) messages ids)
    (hnew : (run.shots.map (·.shotId) ++ ids).Nodup)
    (hroom : run.shots.length + messages.length ≤ maxActiveShots) :
    ∃ run', RunState.receiveAll messages run = .ok run' ∧ Stalled run' ∧
      run'.shots.map (·.shotId) = run.shots.map (·.shotId) ++ ids ∧
      run'.selected = some selection ∧ run'.sourceFilter = none := by
  induction hm generalizing run with
  | nil => exact ⟨run, rfl, h, by simp, hsel, hf⟩
  | @cons m id messages ids hm hrest ih =>
    have hnotin : id ∉ run.shots.map (·.shotId) := by
      intro hmem
      exact (List.nodup_append.mp hnew).2.2 _ hmem _ List.mem_cons_self rfl
    rw [List.length_cons] at hroom
    obtain ⟨run₁, hr, h₁, hids, hsel₁, hf₁⟩ :=
      h.receiveMessage hsel hf hm hnotin (by omega)
    have hlen : run₁.shots.length = run.shots.length + 1 := by
      have := congrArg List.length hids
      simpa using this
    obtain ⟨run', hr', h', hids', hs', hf'⟩ := ih h₁ hsel₁ hf₁
      (by rw [hids, List.append_assoc]; exact hnew) (by omega)
    refine ⟨run', ?_, h', ?_, hs', hf'⟩
    · rw [RunState.receiveAll, foldlM_cons_ok hr]
      exact hr'
    · rw [hids', hids, List.append_assoc]
      rfl

/-- One more shot than the table holds ends the recording. -/
theorem Stalled.overflows (h : Stalled run) {selection : Selection}
    (hsel : run.selected = some selection) (hf : run.sourceFilter = none) {messages : List Message}
    {m : Message} {ids : List ℕ} {id : ℕ} (hm : List.Forall₂ (Heard selection) messages ids)
    (hlast : Heard selection m id) (hnew : (run.shots.map (·.shotId) ++ ids ++ [id]).Nodup)
    (hfull : run.shots.length + messages.length = maxActiveShots) :
    Breaks RunState.receiveMessage (OnMessage Overflows) (messages ++ [m]) run := by
  obtain ⟨run', hr, h', hids, hsel', hf'⟩ :=
    h.receiveAll hsel hf hm (List.Nodup.of_append_left hnew) (by omega)
  have hheard := hlast.heard hf'
  obtain ⟨ht, hsource, header, hheader, hrun, hstream, htype, rfl⟩ := hlast
  refine ⟨messages, m, [], run', by simp, hr, ?_⟩
  have hnotin : header.shotId ∉ run'.shots.map (·.shotId) := by
    rw [hids]
    intro hmem
    exact (List.nodup_append.mp hnew).2.2 _ hmem _ List.mem_cons_self rfl
  have hfind : run'.findShot header.shotId = none := by
    refine List.find?_eq_none.mpr fun s hs => ?_
    simp only [decide_eq_true_eq]
    exact fun he => hnotin (List.mem_map.mpr ⟨s, hs, he⟩)
  have hlen : run'.shots.length = maxActiveShots := by
    have hcount := congrArg List.length hids
    simp only [List.length_map, List.length_append] at hcount
    rw [hcount, ← hfull, hm.length_eq]
  have hoff : (run'.noted m).offered ⟨selection.source, m.receiveNs.toNat, m.datagram⟩ =
      some (selection, run'.noted m, [⟨selection.source, m.receiveNs.toNat, m.datagram⟩]) := by
    unfold offered
    rw [show (run'.noted m).selected = some selection from hsel']
  have hlate : (run'.noted m).lastShot = none := h'.lastShot
  refine ⟨_, hheard, selection, _, _, hoff, breaks_singleton.mpr ⟨header.shotId, ?_, hlen⟩⟩
  refine ⟨header, hheader, sourceEqual_self _, hrun, hstream, htype, rfl, ?_, hfind⟩
  rw [hlate]
  rfl

end RunState

/-! ## Recordings -/

/-- Some datagram of the recording needs an entry while 256 other shots are open. -/
def TableOverflows (o : Options) (messages : List RunState.Message) : Prop :=
  Breaks RunState.receiveMessage (RunState.OnMessage RunState.Overflows) messages o.start

/-- Some datagram of the recording opens an entry for a shot that already has a record. -/
def EntryReopens (o : Options) (messages : List RunState.Message) : Prop :=
  Breaks RunState.receiveMessage (RunState.OnMessage RunState.Reopens) messages o.start

/-- The number of index records of a shot. -/
def Outcome.recordsOf (r : Outcome) (shotId : ℕ) : ℕ :=
  (r.run.index.map (·.shotId)).count shotId

theorem RunState.balanced_start (o : Options) : RunState.Balanced o.start :=
  ⟨.refl _, .nil, Nat.zero_le _⟩

/-- A recording fails exactly when the table overflows. Otherwise a shot has as many records as
entries were opened for it, and that is one for every shot of which a datagram was admitted,
unless an entry is opened for a shot that already has a record. -/
theorem record_accounts (o : Options) (messages : List RunState.Message) (interrupted : Bool) :
    ((record o messages interrupted).status = false ↔ TableOverflows o messages) ∧
      ((record o messages interrupted).status = true →
        (∀ shotId, (record o messages interrupted).recordsOf shotId =
          (record o messages interrupted).run.opened.count shotId) ∧
        ((∀ shotId ∈ (record o messages interrupted).run.opened,
          (record o messages interrupted).recordsOf shotId = 1) ↔ ¬ EntryReopens o messages)) := by
  rcases RunState.accounts_receiveAll (RunState.balanced_start o) messages with
    ⟨run, hr, hb, hnot, hiff⟩ | ⟨run, hr, -, hbad⟩
  · rw [record_ok hr]
    have hbi : RunState.Balanced { run with interrupted := interrupted } := hb.of_same rfl rfl rfl
    obtain ⟨hperm, hopened⟩ := hbi.finalizeRemaining
    have hcount : ∀ shotId, ((run.finish interrupted).index.map (·.shotId)).count shotId =
        (run.finish interrupted).opened.count shotId := fun shotId => (hperm.count_eq shotId).symm
    refine ⟨⟨nofun, fun hover => absurd hover hnot⟩, fun _ => ⟨hcount, ?_⟩⟩
    rw [and_iff_right (show o.start.opened.Nodup from .nil),
      ← show (run.finish interrupted).opened = run.opened from hopened] at hiff
    refine Iff.trans ?_ hiff
    constructor
    · intro hone
      refine List.nodup_iff_count_le_one.mpr fun shotId => ?_
      by_cases hmem : shotId ∈ (run.finish interrupted).opened
      · exact (hcount shotId).symm.trans_le (hone shotId hmem).le
      · rw [List.count_eq_zero_of_not_mem hmem]
        exact Nat.zero_le _
    · intro hnodup shotId hmem
      exact (hcount shotId).trans (List.count_eq_one_of_mem hnodup hmem)
  · rw [record_error hr]
    exact ⟨⟨fun _ => hbad, fun _ => rfl⟩, nofun⟩


/-! ## Where a recording gives up -/

/-- The `n`th shot of a run whose shots are one sample each: three datagrams a shot. -/
def oneSample (n : ℕ) (stamped : Bool) : Config :=
  { payloadFormat := 2, sampleBytes := 4, streamId := 1, runId := 1, shotId := UInt64.ofNat (n + 1)
    initialSequence := UInt64.ofNat (3 * n), frameSamples := 1, frameCount := 1
    sampleRateNumerator := 12500000, sampleRateDenominator := 1
    timestampRateNumerator := 200000000, timestampRateDenominator := 1
    centerFrequencyHz := 0, channelCount := 1, componentBits := 16, fractionBits := 15
    timestampClockId := 1, configId := 7, firstSampleTimestamp := UInt64.ofNat (100 * (n + 1))
    firstSampleTimestampValid := stamped, endOfStream := false }

/-- The one sample. -/
def aSample : Bytes := [1, 2, 3, 4]

def carry (p : Packet) : RunState.Message := .whole (.inet 1 5000) 1 p.datagram

/-- Only the STREAM_INFO of the first shot and the SHOT_END of 256 more shots arrive. -/
def endsOnly : List RunState.Message :=
  carry (oneSample 0 true).infoPacket ::
    (List.range' 1 256).map fun n => carry ((oneSample n true).endPacket aSample)

/-- A whole shot without timestamp, then its DATA packet once more. -/
def oneTwice : List RunState.Message :=
  ((oneSample 0 false).shotPackets aSample ++ (oneSample 0 false).dataPackets aSample).map carry

theorem oneSample_accepts {n : ℕ} (hn : n ≤ 256) (stamped : Bool) :
    (oneSample n stamped).Accepts aSample where
  frameSamples := Nat.one_pos
  frameCount := Nat.one_pos
  sampleRateDenominator := Nat.one_ne_zero
  timestampRateDenominator := Nat.one_ne_zero
  format := .inr rfl
  sampleBytes := rfl
  length := rfl
  lengthLe := by decide
  sequence := by
    have hpackets : (oneSample n stamped).packetsPerFrame *
        (oneSample n stamped).frameCount.toNat = 1 := by
      simp [Config.packetsPerFrame, Config.samplesPerPacket, oneSample, maxPayload]
    have hinit : (oneSample n stamped).initialSequence.toNat = 3 * n :=
      UInt64.toNat_ofNat_of_lt' (show 3 * n < 2 ^ 64 by omega)
    rw [hpackets, hinit, uint64Max]
    omega

theorem acceptedHeader_packet {c : Config} {samples : Bytes} {p : Packet} (h : c.Accepts samples)
    (hp : p ∈ c.shotPackets samples) :
    RunState.acceptedHeader ⟨.inet 1 5000, 1, (carry p).datagram⟩ = some p.header := by
  have hlen := Config.datagram_length_le h hp
  have hcarry : (carry p).datagram = p.datagram :=
    List.take_of_length_le (hlen.trans (by decide))
  unfold RunState.acceptedHeader
  rw [hcarry, if_neg (Nat.not_lt.mpr hlen), Config.decode_datagram h hp]

theorem tableOverflows_endsOnly : TableOverflows { maxShotBytes := 4 } endsOnly := by
  let selection : Selection := ⟨.inet 1 5000, 1, 1⟩
  have hstart : RunState.Stalled ({ maxShotBytes := 4 } : Options).start := ⟨nofun, rfl⟩
  obtain ⟨run, hr, hst, hids, hsel, hf⟩ := hstart.select selection
    (carry (oneSample 0 true).infoPacket) rfl rfl rfl rfl rfl rfl
    (acceptedHeader_packet (oneSample_accepts (Nat.zero_le _) true) List.mem_cons_self) rfl rfl rfl
  have hheard : ∀ n ∈ List.range' 1 256, RunState.Heard selection
      (carry ((oneSample n true).endPacket aSample)) (n + 1) := by
    intro n hn
    rw [List.mem_range'_1] at hn
    have hend : (oneSample n true).endPacket aSample ∈ (oneSample n true).shotPackets aSample := by
      simp [Config.shotPackets]
    refine ⟨rfl, rfl, _, acceptedHeader_packet (oneSample_accepts (by omega) true) hend, rfl, rfl,
      PacketType.noConfusion, ?_⟩
    simp only [Config.endPacket, Config.header, oneSample, UInt64.toNat_ofNat']
    omega
  refine (breaks_cons hr).mpr (.inr ?_)
  have hsplit : List.range' 1 256 = List.range' 1 255 ++ [256] := List.range'_1_concat ..
  rw [hsplit] at hheard ⊢
  rw [List.map_append]
  have hall : List.Forall₂ (RunState.Heard selection)
      ((List.range' 1 255).map fun n => carry ((oneSample n true).endPacket aSample))
      ((List.range' 1 255).map (· + 1)) := by
    rw [List.forall₂_map_left_iff, List.forall₂_map_right_iff, List.forall₂_same]
    exact fun n hn => hheard n (List.mem_append_left _ hn)
  refine hst.overflows hsel hf hall (hheard 256 (by simp)) ?_ ?_
  · rw [hids]
    decide +kernel
  · have hlen := congrArg List.length hids
    rw [List.length_map] at hlen
    rw [hlen, List.length_map, List.length_range']
    rfl

/-- A recording fails when more than 256 shots are open, and then its shots have no record; and a
shot without timestamp gets a second record when a packet of it comes again. -/
theorem record_givesUp :
    (record { maxShotBytes := 4 } endsOnly false).status = false ∧
      (record { maxShotBytes := 4 } oneTwice false).status = true ∧
      (record { maxShotBytes := 4 } oneTwice false).recordsOf 1 = 2 :=
  ⟨(record_accounts _ _ _).1.mpr tableOverflows_endsOnly, by decide +kernel, by decide +kernel⟩

end QCrate.Recorder
