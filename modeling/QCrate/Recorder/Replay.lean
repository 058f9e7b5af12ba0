import QCrate.Receiver.Journal
import QCrate.Recorder.Fates

/-!
# The journal is the source of truth

The journal of a recording, read back as far as it goes, and recorded again, gives the index and
the samples that the recording had at that point, whatever the messages were and wherever the
journal is cut off.

* `RunState.aside` — what the journal does not tell.
* `recordAgain_journaled` — a recording of the journal.
* `journal_replays`.
-/

namespace QCrate.Recorder

open QCrate.Lib QCrate.DataPlane QCrate.Receiver RunState

/-! ## What the journal does not tell -/

/-- The run with another filter, with more malformed packets, another drop counter, and ended in
another way. -/
def RunState.aside (filter : Option Source) (malformed drops : ℕ) (interrupted : Bool)
    (run : RunState) : RunState :=
  { run with
    sourceFilter := filter
    malformedPackets := malformed + run.malformedPackets
    kernelDrops := drops
    interrupted := interrupted }

/-- A function on what a call leaves. -/
def onRun (f : RunState → RunState) : Except RunState RunState → Except RunState RunState
  | .ok run => .ok (f run)
  | .error run => .error (f run)

section

variable (filter : Option Source) (malformed drops : ℕ) (interrupted : Bool)

/-- A change that commutes with each of two calls commutes with both. -/
theorem onRun_bind (f : RunState → RunState) {g h : RunState → Except RunState RunState}
    (hgh : ∀ run, h (f run) = onRun f (g run)) (r : Except RunState RunState) :
    (onRun f r).bind h = onRun f (r.bind g) := by
  cases r with
  | error run => rfl
  | ok run => exact hgh run

/-- So it does with a row of calls. -/
theorem onRun_foldlM {α : Type} (f : RunState → RunState)
    {g : RunState → α → Except RunState RunState}
    (hstep : ∀ run a, g (f run) a = onRun f (g run a)) (l : List α) (run : RunState) :
    l.foldlM g (f run) = onRun f (l.foldlM g run) := by
  induction l generalizing run with
  | nil => rfl
  | cons a l ih =>
    rw [List.foldlM_cons, List.foldlM_cons, hstep]
    exact onRun_bind f ih (g run a)

/-- The counters that a replay does not have are aside of what closes a shot. -/
theorem aside_removeAndFinalize (run : RunState) (position : ℕ) (shot : ShotState)
    (forced : Bool) :
    (run.aside filter malformed drops interrupted).removeAndFinalize position shot forced =
      onRun (aside filter malformed drops interrupted)
        (run.removeAndFinalize position shot forced) := by
  unfold RunState.removeAndFinalize RunState.finalizeShot
  dsimp only
  by_cases h : shot.sortPackets.countMissing ≠ 0 ∧ forced = false
  · rw [if_pos h, if_pos h]
    rfl
  · rw [if_neg h, if_neg h]
    rfl

/-- They are aside of what closes many. -/
theorem aside_finalizeReadyLoop (fuel : ℕ) (run : RunState) :
    finalizeReadyLoop fuel (run.aside filter malformed drops interrupted) =
      (finalizeReadyLoop fuel run).aside filter malformed drops interrupted := by
  induction fuel generalizing run with
  | zero => rfl
  | succ fuel ih =>
    rw [finalizeReadyLoop, finalizeReadyLoop]
    have hshots : (run.aside filter malformed drops interrupted).shots = run.shots := rfl
    have hlowest : (run.aside filter malformed drops interrupted).lowestSequenceShot =
        run.lowestSequenceShot := rfl
    dsimp only
    rw [hlowest, hshots]
    cases hp : run.shots[run.lowestSequenceShot]? with
    | none => rfl
    | some shot =>
      dsimp only
      rw [aside_removeAndFinalize]
      by_cases hc : shot.sortPackets.sequenceComplete = true
      · rw [if_pos hc, if_pos hc]
        cases run.removeAndFinalize run.lowestSequenceShot shot.sortPackets false with
        | error run₁ => rfl
        | ok run₁ => exact ih run₁
      · rw [if_neg hc, if_neg hc]
        rfl

theorem aside_finalizeReady (run : RunState) :
    (run.aside filter malformed drops interrupted).finalizeReady =
      run.finalizeReady.aside filter malformed drops interrupted :=
  aside_finalizeReadyLoop ..

theorem aside_finalizeRemainingLoop (fuel : ℕ) (run : RunState) :
    finalizeRemainingLoop fuel (run.aside filter malformed drops interrupted) =
      (finalizeRemainingLoop fuel run).aside filter malformed drops interrupted := by
  induction fuel generalizing run with
  | zero => rfl
  | succ fuel ih =>
    rw [finalizeRemainingLoop, finalizeRemainingLoop]
    have hshots : (run.aside filter malformed drops interrupted).shots = run.shots := rfl
    have hlowest : (run.aside filter malformed drops interrupted).lowestSequenceShot =
        run.lowestSequenceShot := rfl
    rw [hlowest, hshots]
    cases hp : run.shots[run.lowestSequenceShot]? with
    | none => rfl
    | some shot =>
      dsimp only
      rw [aside_removeAndFinalize]
      cases run.removeAndFinalize run.lowestSequenceShot shot true with
      | error run₁ => rfl
      | ok run₁ => exact ih run₁

/-! ## Datagrams -/

theorem aside_absorb (run : RunState) (shot : ShotState) (header : Header) (payload : Bytes) :
    (run.aside filter malformed drops interrupted).absorb shot header payload =
      ((run.absorb shot header payload).1.aside filter malformed drops interrupted,
        (run.absorb shot header payload).2) := by
  unfold RunState.absorb
  cases header.packetType with
  | streamInfo =>
    dsimp only
    unfold RunState.absorbInfo
    cases StreamInfo.decode payload with
    | error e => rfl
    | ok info =>
      dsimp only
      split
      · rfl
      · split <;> rfl
  | shotEnd =>
    dsimp only
    unfold RunState.absorbEnd
    cases ShotEnd.decode payload with
    | error e => rfl
    | ok last =>
      dsimp only
      split
      · rfl
      · cases shot.shotEnd with
        | some known => rfl
        | none =>
          dsimp only
          split <;> rfl
  | data => rfl
  | heartbeat => rfl

/-- They are aside of the shots. -/
theorem aside_addToShot (run : RunState) (shot : ShotState) (header : Header) (a : Arrival) :
    (run.aside filter malformed drops interrupted).addToShot shot header a =
      (run.addToShot shot header a).aside filter malformed drops interrupted := by
  unfold RunState.addToShot
  split
  · next shot' _ => exact aside_finalizeReady filter malformed drops interrupted (run.putShot shot')
  · next shot' _ =>
    rw [aside_absorb]
    exact aside_finalizeReady filter malformed drops interrupted ((run.absorb shot' header
      (a.datagram.drop header.headerBytes)).1.putShot (run.absorb shot' header
        (a.datagram.drop header.headerBytes)).2)

/-- And of what a datagram does to them. -/
theorem aside_ingestShot (run : RunState) (header : Header) (a : Arrival) :
    (run.aside filter malformed drops interrupted).ingestShot header a =
      onRun (aside filter malformed drops interrupted) (run.ingestShot header a) := by
  unfold RunState.ingestShot
  have hlast : (run.aside filter malformed drops interrupted).lastShot = run.lastShot := rfl
  have hfind : (run.aside filter malformed drops interrupted).findShot header.shotId =
      run.findShot header.shotId := rfl
  rw [hlast, hfind]
  by_cases hl : run.lastShot.any (header.shotId ≤ ·.shotId) = true
  · rw [if_pos hl, if_pos hl]
    rfl
  · rw [if_neg hl, if_neg hl]
    cases run.findShot header.shotId with
    | some shot =>
      exact congrArg Except.ok
        (aside_addToShot filter malformed drops interrupted run shot header a)
    | none =>
      dsimp only
      unfold RunState.createShot
      have hshots : (run.aside filter malformed drops interrupted).shots = run.shots := rfl
      rw [hshots]
      by_cases hf : run.shots.length = maxActiveShots
      · rw [if_pos hf, if_pos hf]
        rfl
      · rw [if_neg hf, if_neg hf]
        exact congrArg Except.ok (aside_addToShot filter malformed drops interrupted { run with
          shots := run.shots ++ [{ shotId := header.shotId }]
          opened := run.opened ++ [header.shotId] } { shotId := header.shotId } header a)

theorem aside_ingestSelected (run : RunState) (selection : Selection) (header : Header)
    (a : Arrival) :
    (run.aside filter malformed drops interrupted).ingestSelected selection header a =
      onRun (aside filter malformed drops interrupted) (run.ingestSelected selection header a) := by
  unfold RunState.ingestSelected
  split
  · rfl
  · dsimp only
    split
    · split <;> rfl
    · exact aside_ingestShot filter malformed drops interrupted
        { run with validPackets := run.validPackets + 1 } header a

/-- And of how it is read. -/
theorem aside_ingest (selection : Selection) (run : RunState) (a : Arrival) :
    ingest selection (run.aside filter malformed drops interrupted) a =
      onRun (aside filter malformed drops interrupted) (ingest selection run a) := by
  unfold RunState.ingest
  split
  · rfl
  · exact aside_ingestSelected ..

/-- And of the selection. -/
theorem aside_validateAndIngest (run : RunState) (a : Arrival) :
    (run.aside filter malformed drops interrupted).validateAndIngest a =
      onRun (aside filter malformed drops interrupted) (run.validateAndIngest a) := by
  unfold RunState.validateAndIngest
  have hselected : (run.aside filter malformed drops interrupted).selected = run.selected := rfl
  rw [hselected]
  cases run.selected with
  | some selection => exact aside_ingest ..
  | none =>
    dsimp only
    cases acceptedHeader a with
    | none => rfl
    | some header =>
      dsimp only
      split
      · have hreplay : ∀ (run : RunState) (selection : Selection),
            (run.aside filter malformed drops interrupted).replayPending selection =
              onRun (aside filter malformed drops interrupted) (run.replayPending selection) := by
          intro run selection
          unfold RunState.replayPending ingestAll
          rw [onRun_foldlM _ (aside_ingest filter malformed drops interrupted selection)]
          have hpending : (run.aside filter malformed drops interrupted).pending =
              run.pending := rfl
          rw [hpending]
          cases run.pending.foldlM (ingest selection) run <;> rfl
        have hselect := hreplay
          { run with selected := some ⟨a.source, header.runId, header.streamId⟩ }
          ⟨a.source, header.runId, header.streamId⟩
        refine (congrArg (Except.bind · _) hselect).trans ?_
        exact onRun_bind _
          (fun run => aside_ingestSelected filter malformed drops interrupted run _ header a) _
      · have hpending : (run.aside filter malformed drops interrupted).pending = run.pending := rfl
        unfold savePending
        rw [hpending]
        split <;> rfl

/-! ## Messages -/

/-- And of the end of the run. -/
theorem aside_finish (run : RunState) (again : Bool) :
    (run.aside filter malformed drops again).finish interrupted =
      (run.finish again).aside filter malformed drops interrupted := by
  have h := aside_finalizeRemainingLoop filter malformed drops interrupted run.shots.length
    { run with interrupted := again }
  have hremaining : RunState.finalizeRemaining
      { run.aside filter malformed drops again with interrupted := interrupted } =
      (RunState.finalizeRemaining { run with interrupted := again }).aside filter malformed drops
        interrupted := h
  unfold RunState.finish
  dsimp only
  rw [hremaining]
  rfl

end

/-- A recorded datagram as it comes from the network again. -/
def again (a : Arrival) : Message := .whole a.source (UInt64.ofNat a.receiveNs) a.datagram

/-- A datagram that fits its record. -/
def Arrival.Fits (a : Arrival) : Prop := a.datagram.length ≤ maxUdpDatagram ∧ a.receiveNs < 2 ^ 64

/-- A datagram that is heard is no longer than the buffer, and has a source. -/
theorem heard_fits {run : RunState} {m : Message} {a : Arrival} (h : run.heard m = some a) :
    a.Fits ∧ a.datagram = m.datagram ∧ m.source = some a.source := by
  unfold RunState.heard at h
  split at h
  · cases h
  · split at h
    · cases h
    · next source hs =>
      split at h
      · cases h
      · cases h
        exact ⟨⟨m.fits, m.receiveNs.toNat_lt⟩, rfl, hs⟩

theorem again_datagram {a : Arrival} (h : a.Fits) : (again a).datagram = a.datagram :=
  List.take_of_length_le h.1

/-- It is heard again in the replay. -/
theorem heard_again {run : RunState} (hf : run.sourceFilter = none) {a : Arrival} (h : a.Fits) :
    run.heard (again a) = some a := by
  have hd : a.datagram.take maxUdpDatagram = a.datagram := List.take_of_length_le h.1
  have ht : (UInt64.ofNat a.receiveNs).toNat = a.receiveNs := by
    rw [UInt64.toNat_ofNat', Nat.mod_eq_of_lt h.2]
  unfold RunState.heard
  rw [hf]
  show some (Arrival.mk a.source (UInt64.ofNat a.receiveNs).toNat
    (a.datagram.take maxUdpDatagram)) = some a
  rw [hd, ht]

/-- A run without a filter stays without one. -/
theorem sourceFilter_none {run : RunState} (hf : run.sourceFilter = none) (a : Arrival) :
    Leaves (·.sourceFilter = none) (run.validateAndIngest a) := by
  have hself : run.aside none 0 run.kernelDrops run.interrupted = run := by
    unfold RunState.aside
    rw [← hf, Nat.zero_add]
  rw [← hself, aside_validateAndIngest]
  cases run.validateAndIngest a with
  | error run₁ => exact leaves_error rfl
  | ok run₁ => exact leaves_ok rfl

/-- The datagrams of the journal, in the order in which `receive_batch` writes them. -/
def journaled : List Message → RunState → List Arrival
  | [], _ => []
  | m :: messages, run =>
    (run.heard m).toList ++
      match run.receiveMessage m with
      | .ok run => journaled messages run
      | .error _ => []

/-- What the journal does not tell of a message that is passed over. -/
theorem aside_passes {filter : Option Source} {malformed drops : ℕ} {interrupted : Bool}
    {run : RunState} {m : Message}
    (h : (run.aside filter malformed drops interrupted).heard m = none) :
    ∃ malformed' drops', (run.aside filter malformed drops interrupted).receiveMessage m =
      .ok (run.aside filter malformed' drops' interrupted) := by
  obtain ⟨drops', hr⟩ := receiveMessage_truncated h
  refine ⟨malformed + if m.truncated then 1 else 0, drops', ?_⟩
  rw [hr]
  unfold RunState.aside
  dsimp only
  rw [Nat.add_right_comm]

/-- The replay of the datagrams that were journaled is the recording, but for those counters. -/
theorem receiveAll_again {filter : Option Source} {interrupted : Bool} (messages : List Message)
    (malformed drops : ℕ) {run : RunState} (hf : run.sourceFilter = none) :
    ∃ malformed' drops', receiveAll messages (run.aside filter malformed drops interrupted) =
      onRun (aside filter malformed' drops' interrupted)
        (receiveAll ((journaled messages (run.aside filter malformed drops interrupted)).map again)
          run) := by
  unfold receiveAll
  induction messages generalizing run malformed drops with
  | nil => exact ⟨malformed, drops, rfl⟩
  | cons m messages ih =>
    cases hm : (run.aside filter malformed drops interrupted).heard m with
    | none =>
      obtain ⟨malformed₁, drops₁, hr⟩ := aside_passes hm
      obtain ⟨malformed', drops', hall⟩ := ih malformed₁ drops₁ hf
      refine ⟨malformed', drops', ?_⟩
      rw [journaled, hm, hr, foldlM_cons_ok hr, hall]
      rfl
    | some a =>
      obtain ⟨hfits, hd, -⟩ := heard_fits hm
      have hagain := receiveMessage_heard (heard_again hf hfits)
      have hnoted : ((run.aside filter malformed drops interrupted).noted m) =
          (run.noted (again a)).aside filter malformed (max drops (m.dropped.getD 0))
            interrupted := by
        unfold RunState.noted
        rw [again_datagram hfits, hd]
        rfl
      have hr : (run.aside filter malformed drops interrupted).receiveMessage m =
          onRun (aside filter malformed (max drops (m.dropped.getD 0)) interrupted)
            (run.receiveMessage (again a)) := by
        rw [receiveMessage_heard hm, hnoted, aside_validateAndIngest, hagain]
      have hnone : Leaves (·.sourceFilter = none) (run.receiveMessage (again a)) := by
        rw [hagain]
        exact @sourceFilter_none (run.noted (again a)) hf a
      rw [journaled, hm, hr, Option.toList_some, List.singleton_append, List.map_cons]
      cases hstep : run.receiveMessage (again a) with
      | error run₁ =>
        rw [hstep] at hr
        rw [foldlM_cons_error hr, foldlM_cons_error hstep]
        exact ⟨_, _, rfl⟩
      | ok run₁ =>
        rw [hstep] at hr hnone
        rw [foldlM_cons_ok hr, foldlM_cons_ok hstep]
        exact ih _ _ (hnone run₁ (.inl rfl))

/-- A whole number of datagrams of the journal is the journal of the messages up to some point. -/
theorem journaled_take (messages : List Message) (run : RunState) (n : ℕ) :
    ∃ before after, messages = before ++ after ∧
      (journaled messages run).take n = journaled before run := by
  induction messages generalizing run n with
  | nil => exact ⟨[], [], rfl, List.take_nil⟩
  | cons m messages ih =>
    cases n with
    | zero => exact ⟨[], m :: messages, rfl, rfl⟩
    | succ n =>
      cases hm : run.heard m with
      | none =>
        obtain ⟨drops, hr⟩ := receiveMessage_truncated hm
        obtain ⟨before, after, rfl, htake⟩ := ih { run with
          malformedPackets := run.malformedPackets + if m.truncated then 1 else 0
          kernelDrops := drops } (n + 1)
        refine ⟨m :: before, after, rfl, ?_⟩
        rw [journaled, journaled, hm, hr]
        exact htake
      | some a =>
        rw [journaled, hm, Option.toList_some, List.singleton_append, List.take_succ_cons]
        cases hr : run.receiveMessage m with
        | error run₁ =>
          refine ⟨[m], messages, rfl, ?_⟩
          rw [journaled, hm, hr]
          exact congrArg (a :: ·) List.take_nil
        | ok run₁ =>
          obtain ⟨before, after, rfl, htake⟩ := ih run₁ n
          refine ⟨m :: before, after, rfl, ?_⟩
          rw [journaled, hm, hr]
          exact congrArg (a :: ·) htake

/-! ## Recordings -/

/-- What a recording publishes. -/
def Outcome.SameFiles (r r' : Outcome) : Prop :=
  r.status = r'.status ∧ r.run.index = r'.run.index ∧ r.run.samples = r'.run.samples

/-- The records of a journal, recorded again without a filter. -/
def recordAgain (maxShotBytes : ℕ) (records : List JournalRecord) : Outcome :=
  record { maxShotBytes := maxShotBytes } (records.map fun r => again (arrivalOf r)) false

/-- The replay of a whole recording, from its start. -/
theorem record_again (o : Options) (messages : List Message) (interrupted : Bool) :
    (record { maxShotBytes := o.maxShotBytes } ((journaled messages o.start).map again)
      false).SameFiles (record o messages interrupted) := by
  have hstart : RunState.aside o.sourceFilter 0 0 false
      (Options.start { maxShotBytes := o.maxShotBytes }) = o.start := rfl
  have hnone : (Options.start { maxShotBytes := o.maxShotBytes }).sourceFilter = none := rfl
  obtain ⟨malformed, drops, hall⟩ :=
    @receiveAll_again o.sourceFilter false messages 0 0 _ hnone
  rw [hstart] at hall
  cases hr : receiveAll ((journaled messages o.start).map again)
      (Options.start { maxShotBytes := o.maxShotBytes }) with
  | error run =>
    rw [hr] at hall
    rw [record_error hr, record_error hall]
    exact ⟨rfl, rfl, rfl⟩
  | ok run =>
    rw [hr] at hall
    rw [record_ok hr, record_ok hall, aside_finish]
    exact ⟨rfl, rfl, rfl⟩

/-! ## The journal file -/

/-- A datagram that was journaled, as the reader yields it. -/
def recordOf (a : Arrival) : JournalRecord := ⟨a.receiveNs, a.source, a.datagram⟩

/-- What is journaled was heard. -/
theorem mem_journaled {messages : List Message} {run : RunState} {a : Arrival}
    (h : a ∈ journaled messages run) : a.Fits ∧ ∃ m ∈ messages, m.source = some a.source := by
  induction messages generalizing run with
  | nil => cases h
  | cons m messages ih =>
    rw [journaled] at h
    rcases List.mem_append.mp h with h | h
    · obtain ⟨hfits, -, hs⟩ := heard_fits (Option.mem_toList.mp h)
      exact ⟨hfits, m, List.mem_cons_self, hs⟩
    · cases hr : run.receiveMessage m with
      | error run₁ =>
        rw [hr] at h
        cases h
      | ok run₁ =>
        rw [hr] at h
        obtain ⟨hfits, m', hm', hs⟩ := ih h
        exact ⟨hfits, m', List.mem_cons_of_mem _ hm', hs⟩

/-- So it can be written to a journal. -/
theorem valid_journaled {messages : List Message} (run : RunState)
    (h : ∀ m ∈ messages, ∀ s ∈ m.source, s.port < 2 ^ 16) :
    ∀ r ∈ (journaled messages run).map recordOf, r.Valid := by
  intro r hr
  obtain ⟨a, ha, rfl⟩ := List.mem_map.mp hr
  obtain ⟨hfits, m, hm, hs⟩ := mem_journaled ha
  exact ⟨hfits.1, h m hm a.source hs, hfits.2⟩

/-- The reader yields the datagrams that lie whole before the cut, and these are the journal of the
messages up to some point. -/
theorem readJournal_journaled {messages : List Message} (run : RunState)
    (h : ∀ m ∈ messages, ∀ s ∈ m.source, s.port < 2 ^ 16) (cut : ℕ) :
    ∃ before after, messages = before ++ after ∧
      (readJournal ((packJournalHeader ++ ((journaled messages run).map recordOf).flatMap
        encodeRecord).take cut)).1 = (journaled before run).map recordOf := by
  have hvalid := valid_journaled run h
  have hlength := recordsEnd_length ((journaled messages run).map recordOf)
  -- a cut behind the end leaves the whole file
  have hmin : (packJournalHeader ++ ((journaled messages run).map recordOf).flatMap
      encodeRecord).take cut = (packJournalHeader ++ ((journaled messages run).map recordOf).flatMap
        encodeRecord).take (min cut (recordEnd ((journaled messages run).map recordOf)
          ((journaled messages run).map recordOf).length)) := by
    rw [List.take_eq_take_min, List.length_append, hlength]
    rfl
  obtain ⟨k, -, hyield, -⟩ := readJournal_cut hvalid (min_le_right cut _)
  obtain ⟨before, after, hmessages, htake⟩ := journaled_take messages run k
  refine ⟨before, after, hmessages, ?_⟩
  rw [hmin, hyield, ← List.map_take, htake]

/-- A journal is read back. -/
theorem readJournal_whole {records : List JournalRecord} (h : ∀ r ∈ records, r.Valid) :
    readJournal (packJournalHeader ++ records.flatMap encodeRecord) = (records, none) := by
  have hlength : (packJournalHeader ++ records.flatMap encodeRecord).length =
      recordEnd records records.length := by
    rw [List.length_append, recordsEnd_length]
    rfl
  obtain ⟨k, hk, hyield, hwhole, hend⟩ := readJournal_cut h (le_refl (recordEnd records _))
  rw [List.take_of_length_le hlength.le] at hyield hend
  have hall : records.take k = records := by
    rcases Nat.eq_zero_or_pos records.length with h0 | hpos
    · rw [List.eq_nil_of_length_eq_zero h0, List.take_nil]
    · exact List.take_of_length_le ((hwhole _ hpos le_rfl).mpr le_rfl)
  exact Prod.ext (hyield.trans hall) (hend.mpr ⟨records.length, le_rfl, rfl⟩)

/-- The journal file of a recording, read back and recorded again, gives the status, the index and
the samples of the recording; cut off anywhere, it gives those of the messages up to some point,
namely of those whose datagrams are read back. -/
theorem journal_replays (o : Options) (messages : List Message) (interrupted : Bool)
    (h : ∀ m ∈ messages, ∀ s ∈ m.source, s.port < 2 ^ 16) :
    ∃ journal, journalOf (journaled messages o.start) = some journal ∧
      (readJournal journal).2 = none ∧
      (recordAgain o.maxShotBytes (readJournal journal).1).SameFiles
        (record o messages interrupted) ∧
      ∀ cut, ∃ before after, messages = before ++ after ∧
        (readJournal (journal.take cut)).1.map arrivalOf = journaled before o.start ∧
        (recordAgain o.maxShotBytes (readJournal (journal.take cut)).1).SameFiles
          (record o before interrupted) := by
  have hvalid := valid_journaled o.start h
  have harrivals : ∀ l : List Arrival, (l.map recordOf).map arrivalOf = l := fun l => by
    rw [List.map_map]
    exact List.map_id l
  have hagain : ∀ l : List Arrival, (l.map recordOf).map (fun r => again (arrivalOf r)) =
      l.map again := fun l => by
    rw [List.map_map]
    rfl
  have hjournal := journalOf_eq hvalid
  rw [harrivals] at hjournal
  refine ⟨_, hjournal, ?_, ?_, fun cut => ?_⟩
  · rw [readJournal_whole hvalid]
  · rw [readJournal_whole hvalid, recordAgain, hagain]
    exact record_again o messages interrupted
  · obtain ⟨before, after, hmessages, hread⟩ := readJournal_journaled o.start h cut
    refine ⟨before, after, hmessages, ?_, ?_⟩
    · rw [hread, harrivals]
    · rw [hread, recordAgain, hagain]
      exact record_again o before interrupted

theorem journal_replays_wholeThenInfo :
    ∃ journal, journalOf (journaled wholeThenInfo (Options.start { maxShotBytes := 1024 })) =
        some journal ∧
      (recordAgain 1024 (readJournal journal).1).SameFiles
        (record { maxShotBytes := 1024 } wholeThenInfo true) := by
  have hports : ∀ m ∈ wholeThenInfo, ∀ s ∈ m.source, s.port < 2 ^ 16 := by
    intro m hm s hs
    obtain ⟨p, -, rfl⟩ := List.mem_map.mp hm
    obtain rfl : s = .inet 1 5000 := (Option.some.inj hs).symm
    decide
  obtain ⟨journal, hwrite, -, hsame, -⟩ :=
    journal_replays { maxShotBytes := 1024 } wholeThenInfo true hports
  exact ⟨journal, hwrite, hsame⟩

end QCrate.Recorder
