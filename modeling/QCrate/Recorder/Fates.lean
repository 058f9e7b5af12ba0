import QCrate.Recorder.Extents

/-!
# What becomes of a datagram

Every datagram that a recording takes notice of is unreadable, foreign, a heartbeat, late, put into
a shot, or it still waits for a STREAM_INFO or was dropped because too many do. The counters of the
run count these, and the datagrams of the index are those that were put into shots.

* `Fate`, `Fate.Fits` — what a datagram must be for its fate.
* `Books` — the counters against the fates.
* `record_fates`.
-/

namespace QCrate.Recorder

open QCrate.Lib QCrate.DataPlane RunState

/-! ## Fates -/

/-- What became of a datagram once a run was selected, or that it could not be read. -/
inductive Fate where
  | unreadable | foreign | terminal | broken | late | taken
  deriving DecidableEq, Repr

/-- The datagram comes from the sender of the selected run and names it. -/
def Selection.Matches (s : Selection) (header : Header) (a : Arrival) : Prop :=
  sourceEqual a.source s.source true = true ∧ header.runId = s.runId ∧
    header.streamId = s.streamId

namespace Fate

/-- The datagram can have this fate in a run with this selection and these closed shots. -/
def Fits (selection : Option Selection) (closed : List ℕ) (a : Arrival) (fate : Fate) : Prop :=
  match fate with
  | unreadable => acceptedHeader a = none
  | foreign => ∃ s header, selection = some s ∧ acceptedHeader a = some header ∧
      ¬ s.Matches header a
  | terminal => ∃ s header, selection = some s ∧ acceptedHeader a = some header ∧
      s.Matches header a ∧ header.packetType = .heartbeat ∧
      terminalHeartbeat header a.datagram.length = true
  | broken => ∃ s header, selection = some s ∧ acceptedHeader a = some header ∧
      s.Matches header a ∧ header.packetType = .heartbeat ∧
      terminalHeartbeat header a.datagram.length = false
  | late => ∃ s header, selection = some s ∧ acceptedHeader a = some header ∧
      s.Matches header a ∧ header.packetType ≠ .heartbeat ∧ ∃ id ∈ closed, header.shotId ≤ id
  | taken => ∃ s header, selection = some s ∧ acceptedHeader a = some header ∧
      s.Matches header a ∧ header.packetType ≠ .heartbeat

/-- `valid_packets` counts it. -/
def valid : Fate → Bool
  | terminal | broken | late | taken => true
  | unreadable | foreign => false

/-- `malformed_packets` counts it. -/
def malformed : Fate → Bool
  | unreadable | broken => true
  | foreign | terminal | late | taken => false

variable {closed closed' : List ℕ} {a : Arrival} {fate : Fate}

/-- A run is selected once. -/
theorem Fits.select (h : fate.Fits none closed a) (s : Selection) :
    fate.Fits (some s) closed a := by
  cases fate with
  | unreadable => exact h
  | foreign | terminal | broken | late | taken =>
    obtain ⟨_, _, hnone, -⟩ := h
    cases hnone

/-- Shots that are closed stay closed. -/
theorem Fits.mono {selection : Option Selection} (h : fate.Fits selection closed a)
    (hclosed : ∀ id ∈ closed, id ∈ closed') : fate.Fits selection closed' a := by
  cases fate with
  | late =>
    obtain ⟨s, header, hs, hh, hm, htype, id, hid, hle⟩ := h
    exact ⟨s, header, hs, hh, hm, htype, id, hclosed id hid, hle⟩
  | unreadable | foreign | terminal | broken | taken => exact h

end Fate

/-! ## Counters -/

/-- The counters of datagrams. -/
structure Tally where
  valid : ℕ
  foreign : ℕ
  malformed : ℕ
  late : ℕ
  taken : ℕ
  deriving DecidableEq, Repr

/-- A datagram of a shot is late, or put into its shot. -/
def Tally.put (t : Tally) (fate : Fate) : Tally :=
  { t with
    late := t.late + if fate = .late then 1 else 0
    taken := t.taken + if fate = .taken then 1 else 0 }

def Tally.add (t : Tally) (fate : Fate) : Tally :=
  put { t with
    valid := t.valid + if fate.valid then 1 else 0
    foreign := t.foreign + if fate = .foreign then 1 else 0
    malformed := t.malformed + if fate.malformed then 1 else 0 } fate

/-- The datagrams in entries of the table. -/
def datagramsOf (shots : List ShotState) : ℕ := (shots.map (·.datagrams)).sum

/-- The counters of a run, with the datagrams of its table and of its index. -/
def RunState.tally (run : RunState) : Tally where
  valid := run.validPackets
  foreign := run.foreignPackets
  malformed := run.malformedPackets
  late := run.latePackets
  taken := datagramsOf run.shots + (run.index.map (·.datagrams)).sum

/-- The ids of the shots that are closed. -/
def RunState.closed (run : RunState) : List ℕ := run.index.map (·.shotId)

/-- The shot that lateness is measured by is closed. -/
def RunState.Anchored (run : RunState) : Prop := ∀ l, run.lastShot = some l → l.shotId ∈ run.closed

/-- What the counting reads besides the counters, and what it must not change; shots are closed for
good. -/
structure SameQueue (run run' : RunState) : Prop where
  closed : ∀ id ∈ run.closed, id ∈ run'.closed
  anchored : run.Anchored → run'.Anchored
  selected : run'.selected = run.selected
  pending : run'.pending = run.pending
  pendingOverflow : run'.pendingOverflow = run.pendingOverflow
  journalRecords : run'.journalRecords = run.journalRecords
  datagramBytes : run'.datagramBytes = run.datagramBytes
  sourceFilter : run'.sourceFilter = run.sourceFilter

section

variable {run run' : RunState} {shot : ShotState}

theorem SameQueue.refl (run : RunState) : SameQueue run run :=
  ⟨fun _ => id, id, rfl, rfl, rfl, rfl, rfl, rfl⟩

theorem SameQueue.trans {run'' : RunState} (h : SameQueue run run') (h' : SameQueue run' run'') :
    SameQueue run run'' :=
  ⟨fun id hid => h'.closed id (h.closed id hid), h'.anchored ∘ h.anchored,
    h'.selected.trans h.selected, h'.pending.trans h.pending,
    h'.pendingOverflow.trans h.pendingOverflow, h'.journalRecords.trans h.journalRecords,
    h'.datagramBytes.trans h.datagramBytes, h'.sourceFilter.trans h.sourceFilter⟩

/-- One more datagram of a shot is late, or in its entry. -/
structure Puts (fate : Fate) (run run' : RunState) : Prop where
  tally : run'.tally = run.tally.put fate
  queue : SameQueue run run'

/-- The run has counted one more datagram. -/
structure Counts (fate : Fate) (run run' : RunState) : Prop where
  tally : run'.tally = run.tally.add fate
  queue : SameQueue run run'

/-! ## Closing an entry -/

theorem datagramsOf_eraseIdx {shots : List ShotState} {position : ℕ}
    (h : shots[position]? = some shot) :
    datagramsOf (shots.eraseIdx position) + shot.datagrams = datagramsOf shots := by
  obtain ⟨hlt, rfl⟩ := List.getElem?_eq_some_iff.mp h
  have hperm := ((List.getElem_cons_eraseIdx_perm hlt).map (·.datagrams)).sum_eq
  rw [List.map_cons, List.sum_cons] at hperm
  unfold datagramsOf
  omega

theorem closed_eq_close (run : RunState) (position : ℕ) (shot : ShotState) :
    (run.close position shot).closed = run.closed ++ [shot.shotId] := by
  show (run.index ++ [_]).map _ = _
  rw [List.map_append]
  rfl

theorem closed_close (run : RunState) (position : ℕ) (shot : ShotState) :
    ∀ id ∈ run.closed, id ∈ (run.close position shot).closed := by
  intro id hid
  rw [closed_eq_close]
  exact List.mem_append_left _ hid

/-- Lateness is measured by the shot that has just been closed, or as before. -/
theorem anchored_close (run : RunState) (position : ℕ) (shot : ShotState) (h : run.Anchored) :
    (run.close position shot).Anchored := by
  intro l hl
  rw [closed_eq_close]
  have hcases : run.lastShot = some l ∨ l.shotId = shot.shotId := by
    have hlast : (if (run.inspect shot.sortPackets).scan.firstTimestamp = 0 then run.lastShot
        else some ⟨shot.sortPackets.shotId, (run.inspect shot.sortPackets).scan.firstTimestamp⟩) =
        some l := hl
    split at hlast
    · exact .inl hlast
    · cases hlast
      exact .inr rfl
  rcases hcases with hold | hnew
  · exact List.mem_append_left _ (h l hold)
  · rw [hnew]
    exact List.mem_append_right _ List.mem_cons_self

theorem tally_closeStep (h : CloseStep run run') : run'.tally = run.tally ∧ SameQueue run run' := by
  cases h with
  | close position shot hp =>
    refine ⟨?_, ⟨closed_close run position shot, anchored_close run position shot, rfl, rfl, rfl,
      rfl, rfl, rfl⟩⟩
    have herase := datagramsOf_eraseIdx hp
    have htaken : (run.close position shot).tally.taken = run.tally.taken := by
      show datagramsOf (run.shots.eraseIdx position) + ((run.index ++ [_]).map _).sum = _
      rw [List.map_append, List.sum_append]
      simp only [RunState.tally, RunState.indexRecord, ShotState.sortPackets, List.map_cons,
        List.map_nil, List.sum_cons, List.sum_nil]
      omega
    show Tally.mk _ _ _ _ (run.close position shot).tally.taken = _
    rw [htaken]
    rfl
  | mark position shot flags hp =>
    refine ⟨?_, ⟨fun _ => id, id, rfl, rfl, rfl, rfl, rfl, rfl⟩⟩
    have hsame : ∀ b : ShotState, b.datagrams = shot.datagrams →
        datagramsOf (run.shots.set position b) = datagramsOf run.shots :=
      fun b hb => congrArg List.sum (map_set_same (·.datagrams) hp hb)
    show Tally.mk _ _ _ _ (datagramsOf (run.shots.set position _) + _) = _
    rw [hsame { shot.sortPackets with issueFlags := shot.issueFlags ||| flags } rfl]
    rfl

theorem tally_closing (h : Closing run run') : run'.tally = run.tally ∧ SameQueue run run' := by
  induction h with
  | refl => exact ⟨rfl, .refl run⟩
  | tail _ hlast ih =>
    obtain ⟨htally, hqueue⟩ := tally_closeStep hlast
    exact ⟨htally.trans ih.1, ih.2.trans hqueue⟩

/-! ## One datagram -/

theorem datagramsOf_overwrite {old : ShotState} {l : List ShotState}
    (h : l.find? (·.shotId = shot.shotId) = some old) :
    datagramsOf (overwrite shot l) + old.datagrams = datagramsOf l + shot.datagrams := by
  unfold datagramsOf
  induction l with
  | nil => cases h
  | cons s l ih =>
    rw [overwrite]
    by_cases hid : s.shotId = shot.shotId
    · rw [List.find?_cons_of_pos (by simpa using hid)] at h
      cases h
      rw [if_pos hid, List.map_cons, List.map_cons, List.sum_cons, List.sum_cons]
      omega
    · rw [List.find?_cons_of_neg (by simpa using hid)] at h
      rw [if_neg hid, List.map_cons, List.map_cons, List.sum_cons, List.sum_cons]
      have hrest := ih h
      omega

/-- The entry has taken one more datagram. -/
def ShotState.Takes (shot shot' : ShotState) : Prop :=
  shot'.shotId = shot.shotId ∧ shot'.datagrams = shot.datagrams + 1

theorem addPacket_takes (shot : ShotState) (header : Header) (receiveNs : ℕ) (datagram : Bytes) :
    shot.Takes (shot.addPacket header receiveNs datagram).2 := by
  unfold ShotState.addPacket
  dsimp only
  split
  · split
    · exact ⟨rfl, rfl⟩
    · exact ⟨rfl, rfl⟩
  · exact ⟨rfl, rfl⟩

theorem absorb_tally (run : RunState) (shot : ShotState) (header : Header) (payload : Bytes) :
    (run.absorb shot header payload).1.tally = run.tally ∧
      SameQueue run (run.absorb shot header payload).1 ∧
      (run.absorb shot header payload).1.shots = run.shots ∧
      (run.absorb shot header payload).2.shotId = shot.shotId ∧
      (run.absorb shot header payload).2.datagrams = shot.datagrams := by
  have hsame : SameQueue run run := .refl run
  unfold RunState.absorb
  split
  · unfold RunState.absorbInfo
    split
    · split
      · exact ⟨rfl, hsame, rfl, rfl, rfl⟩
      · split
        · exact ⟨rfl, hsame, rfl, rfl, rfl⟩
        · exact ⟨rfl, ⟨fun _ => id, id, rfl, rfl, rfl, rfl, rfl, rfl⟩, rfl, rfl, rfl⟩
    · exact ⟨rfl, hsame, rfl, rfl, rfl⟩
  · unfold RunState.absorbEnd
    split
    · split
      · exact ⟨rfl, hsame, rfl, rfl, rfl⟩
      · split
        · exact ⟨rfl, hsame, rfl, rfl, rfl⟩
        · dsimp only
          split
          · exact ⟨rfl, ⟨fun _ => id, id, rfl, rfl, rfl, rfl, rfl, rfl⟩, rfl, rfl, rfl⟩
          · exact ⟨rfl, hsame, rfl, rfl, rfl⟩
    · exact ⟨rfl, hsame, rfl, rfl, rfl⟩
  · exact ⟨rfl, hsame, rfl, rfl, rfl⟩
  · exact ⟨rfl, hsame, rfl, rfl, rfl⟩

theorem putShot_taken (hfind : run.shots.find? (·.shotId = shot.shotId) = some shot)
    {shot' : ShotState} (ht : shot.Takes shot') (htally : run'.tally = run.tally)
    (hqueue : SameQueue run run') (hshots : run'.shots = run.shots) :
    Puts .taken run (run'.putShot shot').finalizeReady := by
  obtain ⟨htally', hqueue'⟩ := tally_closing (closing_finalizeReady (run'.putShot shot'))
  have hput : SameQueue run' (run'.putShot shot') := ⟨fun _ => id, id, rfl, rfl, rfl, rfl, rfl, rfl⟩
  refine ⟨?_, (hqueue.trans hput).trans hqueue'⟩
  rw [htally', ← htally]
  rw [← hshots, ← ht.1] at hfind
  have hsum := datagramsOf_overwrite hfind
  have htaken : (run'.putShot shot').tally.taken = run'.tally.taken + 1 := by
    show datagramsOf (overwrite shot' run'.shots) + _ = datagramsOf run'.shots + _ + 1
    rw [ht.2] at hsum
    dsimp only [RunState.putShot]
    omega
  show Tally.mk _ _ _ _ (run'.putShot shot').tally.taken = _
  rw [htaken]
  rfl

theorem puts_addToShot (hfind : run.shots.find? (·.shotId = shot.shotId) = some shot)
    (header : Header) (a : Arrival) : Puts .taken run (run.addToShot shot header a) := by
  have htakes := addPacket_takes shot header a.receiveNs a.datagram
  unfold RunState.addToShot
  split
  · next heq =>
    rw [heq] at htakes
    exact putShot_taken hfind htakes rfl (.refl run) rfl
  · next shot' heq =>
    rw [heq] at htakes
    obtain ⟨htally, hqueue, hshots, hid, hdatagrams⟩ :=
      absorb_tally run shot' header (a.datagram.drop header.headerBytes)
    exact putShot_taken hfind ⟨hid.trans htakes.1, hdatagrams.trans htakes.2⟩ htally hqueue hshots

theorem puts_ingestShot {header : Header} {a : Arrival}
    (h : run.ingestShot header a = .ok run') :
    Puts .late run run' ∧ run.lastShot.any (header.shotId ≤ ·.shotId) = true ∨
      Puts .taken run run' := by
  unfold RunState.ingestShot at h
  split at h
  · next hlate =>
    cases h
    exact .inl ⟨⟨rfl, ⟨fun _ => id, id, rfl, rfl, rfl, rfl, rfl, rfl⟩⟩, hlate⟩
  · split at h
    · next shot hfind =>
      cases h
      unfold RunState.findShot at hfind
      have hid : shot.shotId = header.shotId := by
        have hp := List.find?_some hfind
        exact of_decide_eq_true hp
      rw [← hid] at hfind
      exact .inr (puts_addToShot hfind header a)
    · next hnone =>
      split at h
      · cases h
      · next run₁ hcreate =>
        cases h
        unfold RunState.createShot at hcreate
        split at hcreate
        · cases hcreate
        · cases hcreate
          unfold RunState.findShot at hnone
          have hfind : (run.shots ++ [({ shotId := header.shotId } : ShotState)]).find?
              (·.shotId = header.shotId) = some { shotId := header.shotId } := by
            rw [List.find?_append, hnone]
            simp
          -- a new entry has no datagram yet
          have hfresh : datagramsOf (run.shots ++ [{ shotId := header.shotId }]) =
              datagramsOf run.shots := by
            unfold datagramsOf
            simp
          obtain ⟨htally, hqueue⟩ := @puts_addToShot { run with
            shots := run.shots ++ [{ shotId := header.shotId }]
            opened := run.opened ++ [header.shotId] } { shotId := header.shotId } hfind header a
          refine .inr ⟨htally.trans (congrArg (Tally.put · .taken) ?_), ?_⟩
          · show Tally.mk _ _ _ _ (datagramsOf _ + _) = _
            rw [hfresh]
            rfl
          · exact ⟨hqueue.closed, hqueue.anchored, hqueue.selected, hqueue.pending,
              hqueue.pendingOverflow, hqueue.journalRecords, hqueue.datagramBytes,
              hqueue.sourceFilter⟩

/-- The rest of `validate_and_ingest`. -/
theorem counts_ingestSelected {selection : Selection} {header : Header} {a : Arrival}
    (hh : acceptedHeader a = some header) (hanchored : run.Anchored)
    (h : run.ingestSelected selection header a = .ok run') :
    ∃ fate : Fate, fate.Fits (some selection) run'.closed a ∧ Counts fate run run' := by
  unfold RunState.ingestSelected at h
  split at h
  · next hother =>
    cases h
    refine ⟨.foreign, ⟨selection, header, rfl, hh, fun hm => ?_⟩, rfl,
      ⟨fun _ => id, id, rfl, rfl, rfl, rfl, rfl, rfl⟩⟩
    obtain ⟨hsource, hrun, hstream⟩ := hm
    simp [hsource, hrun, hstream] at hother
  · next hsame =>
    have hmatches : selection.Matches header a := by
      simp only [Bool.or_eq_true, Bool.not_eq_true', decide_eq_true_eq, not_or, not_not,
        Bool.not_eq_false] at hsame
      exact ⟨hsame.1.1, hsame.1.2, hsame.2⟩
    dsimp only at h
    split at h
    · next htype =>
      split at h
      · next hterminal =>
        cases h
        exact ⟨.terminal, ⟨selection, header, rfl, hh, hmatches, htype, hterminal⟩, rfl,
          ⟨fun _ => id, id, rfl, rfl, rfl, rfl, rfl, rfl⟩⟩
      · next hterminal =>
        cases h
        exact ⟨.broken, ⟨selection, header, rfl, hh, hmatches, htype,
          Bool.not_eq_true _ ▸ hterminal⟩,
          rfl, ⟨fun _ => id, id, rfl, rfl, rfl, rfl, rfl, rfl⟩⟩
    · next htype =>
      -- `valid_packets` has been counted before the shot takes the datagram
      rcases puts_ingestShot h with ⟨⟨htally, hqueue⟩, hlate⟩ | ⟨htally, hqueue⟩
      · obtain ⟨l, hl, hle⟩ := (Option.any_eq_true _ _).mp hlate
        have hclosed := hqueue.closed _ (hanchored l hl)
        exact ⟨.late, ⟨selection, header, rfl, hh, hmatches, htype, _, hclosed,
          of_decide_eq_true hle⟩,
          htally, ⟨hqueue.closed, hqueue.anchored, hqueue.selected, hqueue.pending,
          hqueue.pendingOverflow, hqueue.journalRecords, hqueue.datagramBytes, hqueue.sourceFilter⟩⟩
      · exact ⟨.taken, ⟨selection, header, rfl, hh, hmatches, htype⟩, htally, ⟨hqueue.closed,
          hqueue.anchored, hqueue.selected, hqueue.pending, hqueue.pendingOverflow,
          hqueue.journalRecords, hqueue.datagramBytes, hqueue.sourceFilter⟩⟩

theorem counts_ingest {selection : Selection} {a : Arrival} (hanchored : run.Anchored)
    (h : RunState.ingest selection run a = .ok run') :
    ∃ fate : Fate, fate.Fits (some selection) run'.closed a ∧ Counts fate run run' := by
  unfold RunState.ingest at h
  split at h
  · next hnone =>
    cases h
    exact ⟨.unreadable, hnone, rfl, ⟨fun _ => id, id, rfl, rfl, rfl, rfl, rfl, rfl⟩⟩
  · next hh => exact counts_ingestSelected hh hanchored h

/-! ## The books -/

/-- The counters count the fates, and the messages that were truncated. -/
structure Books (tally : Tally) (selection : Option Selection) (closed : List ℕ) (truncated : ℕ)
    (fates : List (Arrival × Fate)) : Prop where
  fits : ∀ f ∈ fates, f.2.Fits selection closed f.1
  valid : tally.valid = fates.countP (·.2.valid)
  foreign : tally.foreign = fates.countP (·.2 = .foreign)
  malformed : tally.malformed = truncated + fates.countP (·.2.malformed)
  late : tally.late = fates.countP (·.2 = .late)
  taken : tally.taken = fates.countP (·.2 = .taken)

theorem Books.add {tally : Tally} {selection : Option Selection} {closed closed' : List ℕ}
    {truncated : ℕ} {fates : List (Arrival × Fate)}
    (h : Books tally selection closed truncated fates) {fate : Fate} {a : Arrival}
    (hclosed : ∀ id ∈ closed, id ∈ closed') (hfits : fate.Fits selection closed' a) :
    Books (tally.add fate) selection closed' truncated (fates ++ [(a, fate)]) where
  fits := by
    intro f hf
    rcases List.mem_append.mp hf with hf | hf
    · exact (h.fits f hf).mono hclosed
    · rw [List.mem_singleton.mp hf]
      exact hfits
  valid := by
    rw [List.countP_append, ← h.valid]
    simp [Tally.add, Tally.put, List.countP_cons]
  foreign := by
    rw [List.countP_append, ← h.foreign]
    simp [Tally.add, Tally.put, List.countP_cons]
  malformed := by
    rw [List.countP_append, ← Nat.add_assoc, ← h.malformed]
    simp [Tally.add, Tally.put, List.countP_cons]
  late := by
    rw [List.countP_append, ← h.late]
    simp [Tally.add, Tally.put, List.countP_cons]
  taken := by
    rw [List.countP_append, ← h.taken]
    simp [Tally.add, Tally.put, List.countP_cons]

theorem Books.select {tally : Tally} {closed : List ℕ} {truncated : ℕ}
    {fates : List (Arrival × Fate)} (h : Books tally none closed truncated fates) (s : Selection) :
    Books tally (some s) closed truncated fates where
  __ := h
  fits := fun f hf => (h.fits f hf).select s

/-- The datagrams that wait are ingested one after another. -/
theorem books_ingestAll {selection : Selection} {truncated : ℕ} {l : List Arrival}
    {fates : List (Arrival × Fate)}
    (hbooks : Books run.tally (some selection) run.closed truncated fates)
    (hanchored : run.Anchored) (h : ingestAll selection l run = .ok run') :
    ∃ more, more.map (·.1) = l ∧
      Books run'.tally (some selection) run'.closed truncated (fates ++ more) ∧
      SameQueue run run' := by
  unfold ingestAll at h
  induction l generalizing run fates with
  | nil =>
    cases h
    exact ⟨[], rfl, by rw [List.append_nil]; exact hbooks, .refl _⟩
  | cons a l ih =>
    cases hr : RunState.ingest selection run a with
    | error run₁ =>
      rw [foldlM_cons_error hr] at h
      cases h
    | ok run₁ =>
      rw [foldlM_cons_ok hr] at h
      obtain ⟨fate, hfits, hcounts⟩ := counts_ingest hanchored hr
      have hadd := hbooks.add hcounts.queue.closed hfits
      rw [← hcounts.tally] at hadd
      obtain ⟨more, hmore, hbooks', hqueue⟩ := ih hadd (hcounts.queue.anchored hanchored) h
      refine ⟨(a, fate) :: more, by rw [List.map_cons, hmore], ?_, hcounts.queue.trans hqueue⟩
      rw [List.append_cons]
      exact hbooks'

/-- The books of a run that has taken notice of some datagrams: each has a fate, waits, or was
dropped. -/
structure Booked (run : RunState) (truncated : ℕ) (heard : List Arrival)
    (fates : List (Arrival × Fate)) (dropped : List Arrival) : Prop where
  books : Books run.tally run.selected run.closed truncated fates
  anchored : run.Anchored
  perm : (fates.map (·.1) ++ run.pending ++ dropped).Perm heard
  overflow : run.pendingOverflow = dropped.length
  waiting : run.selected ≠ none → run.pending = []

theorem Booked.start (o : Options) : Booked o.start 0 [] [] [] where
  books := ⟨nofun, rfl, rfl, rfl, rfl, rfl⟩
  anchored := nofun
  perm := .nil
  overflow := rfl
  waiting := fun h => absurd rfl h

/-- A list with one element more, wherever it stands. -/
theorem perm_insert {α : Type*} {before after l : List α} (h : (before ++ after).Perm l) (a : α) :
    (before ++ [a] ++ after).Perm (l ++ [a]) := by
  rw [List.append_assoc]
  refine .trans ?_ (h.append_right [a])
  rw [List.append_assoc]
  exact List.Perm.append_left _ List.perm_append_comm

/-- What the run has noted of its journal, and its filter. -/
def SameJournal (run run' : RunState) : Prop :=
  run'.journalRecords = run.journalRecords ∧ run'.datagramBytes = run.datagramBytes ∧
    run'.sourceFilter = run.sourceFilter

variable {truncated : ℕ} {heard : List Arrival} {fates : List (Arrival × Fate)}
  {dropped : List Arrival} {a : Arrival}

/-- A run is selected: the datagrams that wait come first. -/
theorem Booked.replayPending (hbooks : Books run.tally none run.closed truncated fates)
    (hanchored : run.Anchored) (hperm : (fates.map (·.1) ++ run.pending ++ dropped).Perm heard)
    (hoverflow : run.pendingOverflow = dropped.length) {selection : Selection}
    (h : RunState.replayPending { run with selected := some selection } selection = .ok run') :
    ∃ fates', Booked run' truncated heard fates' dropped ∧ run'.selected = some selection ∧
      SameJournal run run' := by
  unfold RunState.replayPending at h
  split at h
  · cases h
  · next run₁ hall =>
    cases h
    have hselect : Books (RunState.tally { run with selected := some selection }) (some selection)
        run.closed truncated fates := hbooks.select selection
    obtain ⟨more, hmore, hbooks', hqueue⟩ := books_ingestAll hselect hanchored hall
    have hpending : more.map (·.1) = run.pending := hmore
    refine ⟨fates ++ more, ⟨?_, hqueue.anchored hanchored, ?_,
      hqueue.pendingOverflow.trans hoverflow, fun _ => rfl⟩, hqueue.selected,
      hqueue.journalRecords, hqueue.datagramBytes, hqueue.sourceFilter⟩
    · show Books run₁.tally run₁.selected run₁.closed _ _
      rw [hqueue.selected]
      exact hbooks'
    · rw [List.append_nil, List.map_append, hpending]
      exact hperm

theorem Booked.ingestSelected {selection : Selection}
    (hb : Booked run truncated heard fates dropped) (hselected : run.selected = some selection)
    {header : Header} (hh : acceptedHeader a = some header)
    (h : run.ingestSelected selection header a = .ok run') :
    ∃ fates', Booked run' truncated (heard ++ [a]) fates' dropped ∧ SameJournal run run' := by
  obtain ⟨fate, hfits, htally, hqueue⟩ := counts_ingestSelected hh hb.anchored h
  have hbooks := hb.books
  rw [hselected] at hbooks
  have hempty : run.pending = [] := hb.waiting (by rw [hselected]; nofun)
  have hperm := hb.perm
  rw [hempty, List.append_nil] at hperm
  refine ⟨fates ++ [(a, fate)], ⟨?_, hqueue.anchored hb.anchored, ?_, ?_, ?_⟩,
    hqueue.journalRecords, hqueue.datagramBytes, hqueue.sourceFilter⟩
  · rw [htally, hqueue.selected, hselected]
    exact hbooks.add hqueue.closed hfits
  · rw [hqueue.pending, hempty, List.append_nil, List.map_append]
    exact perm_insert hperm a
  · rw [hqueue.pendingOverflow, hb.overflow]
  · exact fun _ => hqueue.pending.trans hempty

/-- A datagram that cannot be read has its fate at once. -/
theorem Booked.unreadable (hb : Booked run truncated heard fates dropped)
    (hnone : acceptedHeader a = none) :
    Booked { run with malformedPackets := run.malformedPackets + 1 } truncated (heard ++ [a])
      (fates ++ [(a, .unreadable)]) dropped := by
  have hfits : Fate.Fits run.selected run.closed a .unreadable := hnone
  have hbooks := hb.books.add (fun _ => id) hfits
  refine ⟨hbooks, hb.anchored, ?_, hb.overflow, hb.waiting⟩
  have hperm := hb.perm
  rw [List.append_assoc] at hperm
  rw [List.map_append, List.append_assoc]
  exact perm_insert hperm a

/-- A datagram that the run takes notice of. -/
theorem Booked.validateAndIngest (hb : Booked run truncated heard fates dropped)
    (h : run.validateAndIngest a = .ok run') :
    ∃ fates' dropped', Booked run' truncated (heard ++ [a]) fates' dropped' ∧
      SameJournal run run' := by
  unfold RunState.validateAndIngest at h
  split at h
  · next selection hselected =>
    unfold RunState.ingest at h
    split at h
    · next hnone =>
      cases h
      exact ⟨fates ++ [(a, .unreadable)], dropped, hb.unreadable hnone, rfl, rfl, rfl⟩
    · next header hh =>
      obtain ⟨fates', hb', hsame⟩ := hb.ingestSelected hselected hh h
      exact ⟨fates', dropped, hb', hsame⟩
  · next hselected =>
    split at h
    · next hnone =>
      cases h
      exact ⟨fates ++ [(a, .unreadable)], dropped, hb.unreadable hnone, rfl, rfl, rfl⟩
    · next header hh =>
      split at h
      · have hbooks := hb.books
        rw [hselected] at hbooks
        dsimp only at h
        cases hr : RunState.replayPending
            { run with selected := some ⟨a.source, header.runId, header.streamId⟩ }
            ⟨a.source, header.runId, header.streamId⟩ with
        | error run₁ =>
          rw [hr] at h
          cases h
        | ok run₁ =>
          rw [hr] at h
          obtain ⟨fates₁, hb₁, hselected₁, hsame₁⟩ :=
            Booked.replayPending hbooks hb.anchored hb.perm hb.overflow hr
          obtain ⟨fates', hb', hsame⟩ := hb₁.ingestSelected hselected₁ hh h
          exact ⟨fates', dropped, hb', hsame.1.trans hsame₁.1, hsame.2.1.trans hsame₁.2.1,
            hsame.2.2.trans hsame₁.2.2⟩
      · cases h
        unfold savePending
        split
        · refine ⟨fates, dropped ++ [a], ⟨hb.books, hb.anchored, ?_, ?_, hb.waiting⟩, rfl, rfl, rfl⟩
          · rw [← List.append_assoc]
            exact hb.perm.append_right [a]
          · rw [List.length_append, List.length_singleton, ← hb.overflow]
        · refine ⟨fates, dropped, ⟨hb.books, hb.anchored, ?_, hb.overflow,
            fun hne => absurd hselected hne⟩, rfl, rfl, rfl⟩
          rw [← List.append_assoc]
          exact perm_insert hb.perm a

/-! ## A recording -/

/-- What the journal has after the datagrams it notes. -/
def Journaled (run : RunState) (heard : List Arrival) : Prop :=
  run.journalRecords = heard.length ∧
    run.datagramBytes = (heard.map (·.datagram.length)).sum

theorem datagram_of_heard {m : Message} (h : run.heard m = some a) : a.datagram = m.datagram := by
  unfold RunState.heard at h
  split at h
  · cases h
  · split at h
    · cases h
    · split at h
      · cases h
      · cases h
        rfl

/-- Only a truncated message is counted when it is passed over. -/
theorem receiveMessage_truncated {m : Message} (h : run.heard m = none) :
    ∃ drops, run.receiveMessage m = .ok { run with
      malformedPackets := run.malformedPackets + if m.truncated then 1 else 0
      kernelDrops := drops } := by
  unfold RunState.receiveMessage
  unfold RunState.heard at h
  cases ht : m.truncated with
  | true => exact ⟨run.kernelDrops, rfl⟩
  | false =>
    rw [ht] at h
    cases hs : m.source with
    | none => exact ⟨run.kernelDrops, rfl⟩
    | some source =>
      rw [hs] at h
      by_cases hf : run.sourceFilter.any (!sourceEqual source · false) = true
      · exact ⟨_, if_pos hf⟩
      · exact absurd ((if_neg hf).symm.trans h) nofun

/-- The whole session. -/
theorem Booked.receiveAll {messages : List Message}
    (hb : Booked run truncated heard fates dropped) (hj : Journaled run heard)
    (h : RunState.receiveAll messages run = .ok run') :
    ∃ fates' dropped', Booked run' (truncated + messages.countP (·.truncated))
        (heard ++ messages.filterMap run.heard) fates' dropped' ∧
      Journaled run' (heard ++ messages.filterMap run.heard) := by
  unfold RunState.receiveAll at h
  induction messages generalizing run truncated heard fates dropped with
  | nil =>
    cases h
    refine ⟨fates, dropped, ?_, ?_⟩
    · rw [List.filterMap_nil, List.append_nil]
      exact hb
    · rw [List.filterMap_nil, List.append_nil]
      exact hj
  | cons m messages ih =>
    cases hr : run.receiveMessage m with
    | error run₁ =>
      rw [foldlM_cons_error hr] at h
      cases h
    | ok run₁ =>
      rw [foldlM_cons_ok hr] at h
      cases hm : run.heard m with
      | none =>
        obtain ⟨drops, hpass⟩ := receiveMessage_truncated hm
        cases hr.symm.trans hpass
        have hb₁ : Booked { run with
            malformedPackets := run.malformedPackets + if m.truncated then 1 else 0
            kernelDrops := drops } (truncated + if m.truncated then 1 else 0) heard fates
            dropped := by
          refine ⟨⟨hb.books.fits, hb.books.valid, hb.books.foreign, ?_, hb.books.late,
            hb.books.taken⟩, hb.anchored, hb.perm, hb.overflow, hb.waiting⟩
          have hmalformed : run.malformedPackets = _ := hb.books.malformed
          show run.malformedPackets + _ = _
          rw [hmalformed]
          omega
        obtain ⟨fates', dropped', hb', hj'⟩ := ih hb₁ hj h
        rw [List.filterMap_cons_none hm, List.countP_cons, Nat.add_comm (List.countP _ _),
          ← Nat.add_assoc]
        exact ⟨fates', dropped', hb', hj'⟩
      | some a =>
        have htruncated : m.truncated = false := by
          by_contra hne
          rw [RunState.heard, if_pos (by simpa using hne)] at hm
          cases hm
        rw [receiveMessage_heard hm] at hr
        have hnoted : Booked (run.noted m) truncated heard fates dropped :=
          ⟨hb.books, hb.anchored, hb.perm, hb.overflow, hb.waiting⟩
        obtain ⟨fates₁, dropped₁, hb₁, hrecords, hbytes, hfilter⟩ := hnoted.validateAndIngest hr
        have hd := datagram_of_heard hm
        have hj₁ : Journaled run₁ (heard ++ [a]) := by
          constructor
          · rw [hrecords, List.length_append, ← hj.1]
            rfl
          · rw [hbytes, List.map_append, List.sum_append, ← hj.2, List.map_singleton,
              List.sum_singleton, hd]
            rfl
        obtain ⟨fates', dropped', hb', hj'⟩ := ih hb₁ hj₁ h
        have hsame : run₁.heard = run.heard := by
          funext m'
          unfold RunState.heard
          rw [hfilter]
          rfl
        rw [hsame, List.append_assoc, List.singleton_append] at hb' hj'
        rw [List.filterMap_cons_some hm, List.countP_cons_of_neg (by simp [htruncated])]
        exact ⟨fates', dropped', hb', hj'⟩

end

/-- The books of a whole recording. -/
structure RunBooks (o : Options) (messages : List Message) (run : RunState)
    (fates : List (Arrival × Fate)) (dropped : List Arrival) : Prop where
  fits : ∀ f ∈ fates, f.2.Fits run.selected run.closed f.1
  perm : (fates.map (·.1) ++ run.pending ++ dropped).Perm (messages.filterMap o.start.heard)
  waiting : run.selected ≠ none → run.pending = []
  overflow : run.pendingOverflow = dropped.length
  journal : run.journalRecords = (messages.filterMap o.start.heard).length
  journalBytes : run.datagramBytes =
    ((messages.filterMap o.start.heard).map (·.datagram.length)).sum
  valid : run.validPackets = fates.countP (·.2.valid)
  foreign : run.foreignPackets = fates.countP (·.2 = .foreign)
  malformed : run.malformedPackets =
    messages.countP (·.truncated) + fates.countP (·.2.malformed)
  late : run.latePackets = fates.countP (·.2 = .late)
  taken : (run.index.map (·.datagrams)).sum = fates.countP (·.2 = .taken)

/-- A recording that does not give up accounts for every datagram it has journaled: each has one
fate, waits, or was dropped while it waited, the counters count the fates, and the datagrams of the
index are those that were put into shots. -/
theorem record_fates (o : Options) (messages : List Message) (interrupted : Bool)
    (h : (record o messages interrupted).status = true) :
    ∃ fates dropped, RunBooks o messages (record o messages interrupted).run fates dropped := by
  cases hr : RunState.receiveAll messages o.start with
  | error run =>
    rw [record_error hr] at h
    cases h
  | ok run =>
    rw [record_ok hr]
    have hj : Journaled o.start [] := ⟨rfl, rfl⟩
    obtain ⟨fates, dropped, hb, hj'⟩ := (Booked.start o).receiveAll hj hr
    rw [List.nil_append] at hb hj'
    rw [Nat.zero_add] at hb
    obtain ⟨hclosing, hempty⟩ := closing_finalizeRemaining { run with interrupted := interrupted }
    obtain ⟨htally, hqueue⟩ := tally_closing hclosing
    have hbooks := hb.books
    have htally' : (run.finish interrupted).tally = run.tally := htally
    have hselected : (run.finish interrupted).selected = run.selected := hqueue.selected
    have hpending : (run.finish interrupted).pending = run.pending := hqueue.pending
    rw [← htally'] at hbooks
    refine ⟨fates, dropped, ?_, ?_, ?_, hqueue.pendingOverflow.trans hb.overflow,
      hqueue.journalRecords.trans hj'.1, hqueue.datagramBytes.trans hj'.2, hbooks.valid,
      hbooks.foreign, hbooks.malformed, hbooks.late, ?_⟩
    · rw [hselected]
      exact fun f hf => (hbooks.fits f hf).mono hqueue.closed
    · rw [hpending]
      exact hb.perm
    · rw [hselected, hpending]
      exact hb.waiting
    · have htaken := hbooks.taken
      have hshots : (run.finish interrupted).shots = [] := hempty
      simp only [RunState.tally, hshots, datagramsOf, List.map_nil, List.sum_nil,
        Nat.zero_add] at htaken
      exact htaken

theorem record_fates_wholeThenInfo : ∃ fates dropped,
    RunBooks { maxShotBytes := 1024 } wholeThenInfo
      (record { maxShotBytes := 1024 } wholeThenInfo false).run fates dropped :=
  record_fates { maxShotBytes := 1024 } wholeThenInfo false (by decide +kernel)

end QCrate.Recorder
