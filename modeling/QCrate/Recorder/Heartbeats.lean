import QCrate.Recorder.Receiving

/-!
# The recorder: heartbeats of an idle stream

The protocol lets a sender keep an idle stream observable with heartbeats that consume packet
sequences. The recorder takes only the heartbeat that ends the stream.

* `Grows` — the selection stays and the malformed packets are never fewer.
* `stream` — what is sent with idle heartbeats after the shots.
* `heartbeats_transparent` — a clean run stays clean exactly when there are none.
-/

namespace QCrate.Recorder

open QCrate.Lib QCrate.DataPlane

/-! ## What only grows -/

/-- The selected run stays selected, and no malformed packet is forgotten. -/
structure Grows (run run' : RunState) : Prop where
  selected : ∀ selection, run.selected = some selection → run'.selected = some selection
  malformedPackets : run.malformedPackets ≤ run'.malformedPackets
  sourceFilter : run'.sourceFilter = run.sourceFilter

variable {run run' run'' : RunState}

theorem Grows.refl (run : RunState) : Grows run run := ⟨fun _ => id, le_rfl, rfl⟩

theorem Grows.trans (h : Grows run run') (h' : Grows run' run'') : Grows run run'' where
  selected := fun selection hs => h'.selected selection (h.selected selection hs)
  malformedPackets := h.malformedPackets.trans h'.malformedPackets
  sourceFilter := h'.sourceFilter.trans h.sourceFilter

theorem Grows.of_same (hs : run'.selected = run.selected)
    (hm : run'.malformedPackets = run.malformedPackets)
    (hf : run'.sourceFilter = run.sourceFilter) : Grows run run' :=
  ⟨fun _ h => hs.trans h, hm.ge, hf⟩

namespace RunState

/-- To close a shot hears of nothing new. -/
theorem grows_removeAndFinalize {position : ℕ} {shot : ShotState} {forced : Bool}
    (h : run.removeAndFinalize position shot forced = .ok run' ∨
      run.removeAndFinalize position shot forced = .error run') : Grows run run' := by
  unfold removeAndFinalize finalizeShot at h
  dsimp only at h
  split at h
  · next hf =>
    rcases h with h | h
    · cases h
    · cases h
      exact .of_same rfl rfl rfl
  · next hf =>
    split at hf
    · cases hf
    · cases hf
      rcases h with h | h
      · cases h
        exact .of_same rfl rfl rfl
      · cases h

/-- Nor does it to close many. -/
theorem grows_finalizeReadyLoop (fuel : ℕ) (run : RunState) :
    Grows run (finalizeReadyLoop fuel run) := by
  induction fuel generalizing run with
  | zero => exact .refl run
  | succ fuel ih =>
    rw [finalizeReadyLoop]
    dsimp only
    split
    · exact .refl run
    · split
      · split
        · next hr => exact grows_removeAndFinalize (.inr hr)
        · next hr => exact (grows_removeAndFinalize (.inl hr)).trans (ih _)
      · exact .of_same rfl rfl rfl

theorem grows_finalizeRemainingLoop (fuel : ℕ) (run : RunState) :
    Grows run (finalizeRemainingLoop fuel run) := by
  induction fuel generalizing run with
  | zero => exact .refl run
  | succ fuel ih =>
    rw [finalizeRemainingLoop]
    split
    · exact .refl run
    · split
      · next hr => exact grows_removeAndFinalize (.inr hr)
      · next hr => exact (grows_removeAndFinalize (.inl hr)).trans (ih _)

theorem grows_absorb (run : RunState) (shot : ShotState) (header : Header) (payload : Bytes) :
    Grows run (run.absorb shot header payload).1 := by
  unfold absorb
  cases header.packetType with
  | streamInfo =>
    dsimp only
    unfold absorbInfo
    repeat' split
    all_goals exact .of_same rfl rfl rfl
  | shotEnd =>
    dsimp only
    unfold absorbEnd
    repeat' split
    all_goals exact .of_same rfl rfl rfl
  | data => exact .refl run
  | heartbeat => exact .refl run

theorem grows_addToShot (run : RunState) (shot : ShotState) (header : Header) (a : Arrival) :
    Grows run (run.addToShot shot header a) := by
  have hput : ∀ (run : RunState) (shot : ShotState),
      Grows run (run.putShot shot).finalizeReady := by
    intro run shot
    have hshot : Grows run (run.putShot shot) := .of_same rfl rfl rfl
    exact hshot.trans (grows_finalizeReadyLoop (run.putShot shot).shots.length (run.putShot shot))
  unfold addToShot
  split
  · exact hput run _
  · next shot' _ =>
    exact (grows_absorb run shot' header (a.datagram.drop header.headerBytes)).trans (hput _ _)

/-- A datagram of a shot selects nothing. -/
theorem grows_ingestShot {header : Header} {a : Arrival}
    (h : run.ingestShot header a = .ok run') : Grows run run' := by
  unfold ingestShot at h
  split at h
  · cases h
    exact .of_same rfl rfl rfl
  · split at h
    · cases h
      exact grows_addToShot run _ header a
    · split at h
      · cases h
      · next hcreate =>
        cases h
        refine Grows.trans ?_ (grows_addToShot _ _ header a)
        unfold createShot at hcreate
        obtain ⟨-, hrun⟩ := Option.ite_none_left_eq_some.mp hcreate
        cases hrun
        exact .of_same rfl rfl rfl

theorem grows_ingestSelected {selection : Selection} {header : Header} {a : Arrival}
    (h : run.ingestSelected selection header a = .ok run') : Grows run run' := by
  have hbad : Grows run { run with
      validPackets := run.validPackets + 1, malformedPackets := run.malformedPackets + 1 } :=
    ⟨fun _ => id, Nat.le_succ _, rfl⟩
  unfold ingestSelected at h
  split at h
  · cases h
    exact .of_same rfl rfl rfl
  · dsimp only at h
    split at h
    · split at h
      · cases h
        exact .of_same rfl rfl rfl
      · cases h
        exact hbad
    · have hvalid : Grows run { run with validPackets := run.validPackets + 1 } :=
        .of_same rfl rfl rfl
      exact hvalid.trans (grows_ingestShot h)

theorem grows_ingest {selection : Selection} {a : Arrival}
    (h : ingest selection run a = .ok run') : Grows run run' := by
  unfold ingest at h
  split at h
  · cases h
    exact ⟨fun _ => id, Nat.le_succ _, rfl⟩
  · exact grows_ingestSelected h

theorem grows_ingestAll {selection : Selection} {l : List Arrival}
    (h : ingestAll selection l run = .ok run') : Grows run run' :=
  foldlM_invariant (I := Grows run) (fun _ _ _ hs hok => hs.trans (grows_ingest hok))
    (.refl run) h

/-- A datagram of the selected run, or any other once a run is selected. -/
theorem grows_validateAndIngest {a : Arrival} (h : run.validateAndIngest a = .ok run') :
    Grows run run' := by
  unfold validateAndIngest at h
  split at h
  · exact grows_ingest h
  · next hnone =>
    split at h
    · cases h
      exact ⟨fun _ => id, Nat.le_succ _, rfl⟩
    · split at h
      · -- the datagram selects its run, and what has waited is replayed
        unfold replayPending at h
        dsimp only at h
        split at h
        · cases h
        · next hall =>
          have hreplay := grows_ingestAll hall
          have hlast := grows_ingestSelected h
          refine ⟨fun selection hs => ?_, ?_, ?_⟩
          · rw [hnone] at hs
            cases hs
          · exact hreplay.malformedPackets.trans hlast.malformedPackets
          · exact hlast.sourceFilter.trans hreplay.sourceFilter
      · cases h
        unfold savePending
        split <;> exact .of_same rfl rfl rfl

/-- A message may select, or be malformed. -/
theorem grows_receiveMessage {m : Message} (h : run.receiveMessage m = .ok run') :
    Grows run run' := by
  cases hm : run.heard m with
  | none =>
    unfold receiveMessage at h
    split at h
    · cases h
      exact ⟨fun _ => id, Nat.le_succ _, rfl⟩
    · next ht =>
      split at h
      · cases h
        exact .refl run
      · next source hsource =>
        dsimp only at h
        unfold heard at hm
        rw [if_neg ht, hsource] at hm
        dsimp only at hm
        split at hm
        · next hfilter =>
          rw [if_pos (show (run.noteDrops m.dropped).sourceFilter.any
            (!sourceEqual source · false) = true from hfilter)] at h
          cases h
          exact .of_same rfl rfl rfl
        · cases hm
  | some a =>
    rw [receiveMessage_heard hm] at h
    have hnoted : Grows run (run.noted m) := .of_same rfl rfl rfl
    exact hnoted.trans (grows_validateAndIngest h)

/-- A recording only hears more. -/
theorem grows_receiveAll {messages : List Message} (h : receiveAll messages run = .ok run') :
    Grows run run' :=
  foldlM_invariant (I := Grows run) (fun _ _ _ hs hok => hs.trans (grows_receiveMessage hok))
    (.refl run) h

theorem grows_finish (run : RunState) (interrupted : Bool) :
    Grows run (run.finish interrupted) := by
  have hstart : Grows run { run with interrupted := interrupted } := .of_same rfl rfl rfl
  have hloop : Grows { run with interrupted := interrupted }
      { run with interrupted := interrupted }.finalizeRemaining :=
    grows_finalizeRemainingLoop _ _
  refine (hstart.trans hloop).trans ?_
  exact .of_same rfl rfl rfl

end RunState

/-! ## Idle heartbeats -/

section Fold

variable {α σ ε : Type} {f : σ → α → Except ε σ} {s s' : σ}

/-- A recording that succeeds has taken its first message. -/
theorem of_foldlM_cons {a : α} {l : List α} (h : (a :: l).foldlM f s = .ok s') :
    ∃ s₁, f s a = .ok s₁ ∧ l.foldlM f s₁ = .ok s' := by
  cases hfa : f s a with
  | error e =>
    rw [foldlM_cons_error hfa] at h
    cases h
  | ok s₁ => exact ⟨s₁, rfl, (foldlM_cons_ok hfa).symm.trans h⟩

/-- And its first messages. -/
theorem of_foldlM_append {l₁ l₂ : List α} (h : (l₁ ++ l₂).foldlM f s = .ok s') :
    ∃ s₁, l₁.foldlM f s = .ok s₁ ∧ l₂.foldlM f s₁ = .ok s' := by
  cases hl : l₁.foldlM f s with
  | error e =>
    rw [List.foldlM_append, hl] at h
    cases h
  | ok s₁ => exact ⟨s₁, rfl, (foldlM_append_ok hl).symm.trans h⟩

end Fold

/-- The shot as it is sent when `n` more packets have gone before it. -/
def SentShot.packetsAfter (s : SentShot) (n : ℕ) : List Packet :=
  { s.config with initialSequence := s.config.initialSequence + UInt64.ofNat n }.shotPackets
    s.samples

theorem SentShot.packetsAfter_zero (s : SentShot) : s.packetsAfter 0 = s.packets := by
  have hzero : s.config.initialSequence + UInt64.ofNat 0 = s.config.initialSequence :=
    UInt64.add_zero _
  unfold packetsAfter packets
  rw [hzero]

namespace SentRun

variable (R : SentRun)

/-- A heartbeat without flags. -/
def idlePacket (shotId packetSequence : UInt64) : Packet :=
  let p := endOfStreamPacket R.streamId R.runId shotId packetSequence
  { p with header := { p.header with flags := 0 } }

/-- Idle heartbeats with these shot ids, from a packet sequence on. -/
def idlePackets (ids : List UInt64) (packetSequence : ℕ) : List Packet :=
  ids.zipIdx.map fun i => R.idlePacket i.1 (.ofNat (packetSequence + i.2))

/-- The heartbeat after the last shot, when `n` more packets have gone before it. -/
def heartbeatAfter (n : ℕ) : Packet :=
  endOfStreamPacket R.streamId R.runId
    (.ofNat ((R.shots.getLast?.map SentShot.shotId).getD 1))
    (.ofNat ((R.shots.getLast?.map SentShot.nextSequence).getD 0 + n))

/-- The shots from position `k` on, each with its idle heartbeats behind it, and the terminal
heartbeat, when `n` idle heartbeats have gone before. -/
def streamFrom (idle : ℕ → List UInt64) (k n : ℕ) : List SentShot → List Packet
  | [] => [R.heartbeatAfter n]
  | s :: rest =>
    s.packetsAfter n ++ (R.idlePackets (idle k) (s.nextSequence + n) ++
      streamFrom idle (k + 1) (n + (idle k).length) rest)

/-- The run as it is sent with idle heartbeats behind each shot. -/
def stream (idle : ℕ → List UInt64) : List Packet := R.streamFrom idle 0 0 R.shots

/-- The run as it is sent without idle heartbeats. -/
def plain : List Packet := R.shots.flatMap SentShot.packets ++ [R.heartbeat]

variable {R} {idle : ℕ → List UInt64}

/-- Without heartbeats between the shots the stream is the plain one. -/
theorem streamFrom_silent (shots : List SentShot) (k : ℕ)
    (h : ∀ i < shots.length, idle (k + i) = []) :
    R.streamFrom idle k 0 shots = shots.flatMap SentShot.packets ++ [R.heartbeat] := by
  induction shots generalizing k with
  | nil => rfl
  | cons s rest ih =>
    have hk : idle k = [] := h 0 (Nat.succ_pos _)
    have hrest : R.streamFrom idle (k + 1) 0 rest = rest.flatMap SentShot.packets ++
        [R.heartbeat] := ih (k + 1) fun i hi => by
      have hnext := h (i + 1) (Nat.succ_lt_succ hi)
      rwa [← Nat.add_assoc, Nat.add_right_comm] at hnext
    rw [streamFrom, hk, s.packetsAfter_zero]
    simp only [idlePackets, List.zipIdx_nil, List.map_nil, List.nil_append, List.length_nil]
    rw [hrest, List.flatMap_cons, List.append_assoc]

/-- So it is for the whole run. -/
theorem stream_silent (h : ∀ k < R.shots.length, idle k = []) : R.stream idle = R.plain :=
  streamFrom_silent R.shots 0 fun i hi => by rw [Nat.zero_add, h i hi]

/-- What is announced behind a shot is sent. -/
theorem idle_mem (shots : List SentShot) (k n i : ℕ) (hi : i < shots.length)
    (h : idle (k + i) ≠ []) :
    ∃ shotId packetSequence,
      R.idlePacket shotId packetSequence ∈ R.streamFrom idle k n shots := by
  induction shots generalizing k n i with
  | nil => exact absurd hi (Nat.not_lt_zero _)
  | cons s rest ih =>
    rw [streamFrom]
    cases i with
    | zero =>
      obtain ⟨shotId, ids, hids⟩ := List.exists_cons_of_ne_nil (show idle k ≠ [] from h)
      refine ⟨shotId, .ofNat (s.nextSequence + n + 0), ?_⟩
      rw [hids]
      simp [idlePackets]
    | succ i =>
      obtain ⟨shotId, packetSequence, hmem⟩ := ih (k + 1) (n + (idle k).length) i
        (Nat.lt_of_succ_lt_succ hi) (by rwa [Nat.add_assoc, Nat.add_comm 1 i])
      exact ⟨shotId, packetSequence, List.mem_append_right _ (List.mem_append_right _ hmem)⟩

/-- The first packet of a run with shots is the STREAM_INFO of the first shot. -/
theorem stream_cons (idle : ℕ → List UInt64) {s : SentShot} {rest : List SentShot}
    (h : R.shots = s :: rest) :
    ∃ packets, R.stream idle = s.infoPacket :: packets := by
  unfold stream
  rw [h, streamFrom, s.packetsAfter_zero]
  exact ⟨_, rfl⟩

end SentRun

/-- The packets as they reach the recorder, whole and from one source. -/
def carried (source : Source) (time : Packet → UInt64) (packets : List Packet) :
    List RunState.Message :=
  packets.map fun p => .whole source (time p) p.datagram

/-- The complete shots a recording publishes, with their samples. -/
def Outcome.completeShots (o : Outcome) : List (ℕ × Bytes) :=
  (o.run.index.filter (·.state = .complete)).map fun r =>
    (r.shotId, (o.run.samples.drop r.sampleFileOffset).take r.sampleBytes)

/-- Two recordings publish the same complete shots, with the same verdict. -/
structure SamePublication (o o' : Outcome) : Prop where
  clean : o.clean = o'.clean
  completeShots : o.completeShots = o'.completeShots

instance (o o' : Outcome) : Decidable (SamePublication o o') :=
  decidable_of_iff (o.clean = o'.clean ∧ o.completeShots = o'.completeShots)
    ⟨fun h => ⟨h.1, h.2⟩, fun h => ⟨h.clean, h.completeShots⟩⟩

/-! ## What the recorder does with them -/

variable {R : SentRun} {source : Source} {time : UInt64} {s : SentShot}
  {shotId packetSequence : UInt64}

/-- A heartbeat is a header alone. -/
theorem idlePacket_length :
    (R.idlePacket shotId packetSequence).datagram.length = headerBytes := by
  unfold Packet.datagram
  rw [List.length_append, Header.length_bytes]
  rfl

/-- A heartbeat is read as one. -/
theorem acceptedHeader_idle {a : Arrival}
    (hd : a.datagram = (R.idlePacket shotId packetSequence).datagram) :
    RunState.acceptedHeader a = some (R.idlePacket shotId packetSequence).header := by
  have hrange : (R.idlePacket shotId packetSequence).header.InRange :=
    { headerBytes := rfl
      payloadFormat := (by decide : formatNone < 256 ^ 2)
      flags := (by decide : 0 < 256 ^ 4)
      streamId := R.streamId.toNat_lt
      runId := R.runId.toNat_lt
      shotId := UInt64.toNat_lt _
      packetSequence := UInt64.toNat_lt _
      frameId := (by decide : 0 < 256 ^ 4)
      sampleOffset := (by decide : 0 < 256 ^ 4)
      sampleCount := (by decide : 0 < 256 ^ 2)
      sampleBytes := (by decide : 0 < 256 ^ 2)
      timestampTicks := (by decide : 0 < 256 ^ 8) }
  have hdecode : Header.decode (R.idlePacket shotId packetSequence).datagram =
      .ok (R.idlePacket shotId packetSequence).header := Header.decode_encode hrange _
  unfold RunState.acceptedHeader
  rw [hd, idlePacket_length, if_neg (by decide), hdecode]

theorem whole_datagram (source : Source) (time : UInt64) {p : Packet}
    (h : p.datagram.length ≤ maxDatagram) :
    (RunState.Message.whole source time p.datagram).datagram = p.datagram :=
  List.take_of_length_le (h.trans (by decide))

namespace RunState

/-- A datagram from the source is heard. -/
theorem heard_whole (hf : run.sourceFilter.any (!sourceEqual source · false) = false)
    {p : Packet} (h : p.datagram.length ≤ maxDatagram) :
    run.heard (.whole source time p.datagram) = some ⟨source, time.toNat, p.datagram⟩ := by
  have hd := whole_datagram source time h
  unfold heard
  rw [hd]
  exact if_neg (ne_true_of_eq_false hf)

/-- A heartbeat of the run that does not end the stream. -/
theorem ingestSelected_malformed {selection : Selection} {header : Header} {a : Arrival}
    (hsource : a.source = selection.source) (hrun : header.runId = selection.runId)
    (hstream : header.streamId = selection.streamId) (htype : header.packetType = .heartbeat)
    (hterminal : terminalHeartbeat header a.datagram.length = false) :
    run.ingestSelected selection header a = .ok { run with
      validPackets := run.validPackets + 1, malformedPackets := run.malformedPackets + 1 } := by
  have hours : ¬ ((!sourceEqual a.source selection.source true || header.runId ≠ selection.runId ||
      header.streamId ≠ selection.streamId) = true) := by
    rw [hsource, hrun, hstream, sourceEqual_self]
    simp
  unfold ingestSelected
  rw [if_neg hours]
  dsimp only
  rw [htype]
  dsimp only
  rw [hterminal]
  rfl

/-- An idle heartbeat of the selected run is a malformed packet. -/
theorem receiveMessage_idle (hsel : run.selected = some ⟨source, R.runId.toNat, R.streamId.toNat⟩)
    (hf : run.sourceFilter.any (!sourceEqual source · false) = false)
    (h : run.receiveMessage (.whole source time (R.idlePacket shotId packetSequence).datagram) =
      .ok run') : 0 < run'.malformedPackets := by
  rw [receiveMessage_heard (heard_whole hf (idlePacket_length.le.trans (by decide))),
    validateAndIngest, show (run.noted _).selected = _ from hsel] at h
  dsimp only at h
  rw [ingest, acceptedHeader_idle rfl] at h
  dsimp only at h
  -- the recorder asks for END_OF_STREAM where the flags are zero
  have hterminal : terminalHeartbeat (R.idlePacket shotId packetSequence).header
      (R.idlePacket shotId packetSequence).datagram.length = false := by
    have hflags : decide ((R.idlePacket shotId packetSequence).header.flags = flagEndOfStream) =
        false := rfl
    unfold terminalHeartbeat
    rw [hflags, Bool.and_false]
  have hingest : ∀ run : RunState, run.ingestSelected ⟨source, R.runId.toNat, R.streamId.toNat⟩
      (R.idlePacket shotId packetSequence).header
      ⟨source, time.toNat, (R.idlePacket shotId packetSequence).datagram⟩ = .ok { run with
        validPackets := run.validPackets + 1, malformedPackets := run.malformedPackets + 1 } :=
    fun run => ingestSelected_malformed rfl rfl rfl rfl hterminal
  rw [hingest] at h
  cases h
  exact Nat.succ_pos _

/-- The STREAM_INFO that comes first selects the run. -/
theorem receiveMessage_first (hs : R.shots[0]? = some s) (hsel : run.selected = none)
    (hpending : run.pending = [])
    (hf : run.sourceFilter.any (!sourceEqual source · false) = false)
    (h : run.receiveMessage (.whole source time s.infoPacket.datagram) = .ok run') :
    run'.selected = some ⟨source, R.runId.toNat, R.streamId.toNat⟩ ∧
      run'.sourceFilter = run.sourceFilter := by
  obtain ⟨hrun, hstream, -⟩ := header_identity hs s.info_mem
  rw [receiveMessage_heard (heard_whole hf (Config.datagram_length_le s.accepts s.info_mem)),
    validateAndIngest, show (run.noted _).selected = none from hsel] at h
  dsimp only at h
  rw [acceptedHeader_eq s.info_mem rfl] at h
  dsimp only at h
  rw [show s.infoPacket.header.packetType = .streamInfo from rfl, hrun, hstream] at h
  -- nothing has waited for it
  unfold replayPending at h
  rw [show ({ run.noted _ with selected := some _ } : RunState).pending = [] from hpending] at h
  have hgrows := grows_ingestSelected h
  exact ⟨hgrows.selected _ rfl, hgrows.sourceFilter⟩

/-- A recording whose filter does not admit the sender hears nothing. -/
theorem receiveAll_unheard (hf : run.sourceFilter.any (!sourceEqual source · false) = true)
    (times : Packet → UInt64) (packets : List Packet) :
    receiveAll (carried source times packets) run = .ok run := by
  induction packets with
  | nil => rfl
  | cons p rest ih =>
    have hp : run.receiveMessage (.whole source (times p) p.datagram) = .ok run := by
      have hdrops : run.noteDrops none = run := by
        unfold noteDrops
        rw [Option.getD_none, Nat.max_zero]
      refine (if_pos (show (run.noteDrops none).sourceFilter.any _ = true from hf)).trans ?_
      exact congrArg Except.ok hdrops
    rw [carried, List.map_cons, receiveAll, foldlM_cons_ok hp]
    exact ih

end RunState

/-- The verdict is not clean once a packet is malformed. -/
theorem not_clean_of_malformed {run : RunState} (h : 0 < run.malformedPackets) (status : Bool) :
    RunState.clean status run = false := by
  have hzero : decide (run.malformedPackets = 0) = false := decide_eq_false h.ne'
  unfold RunState.clean
  simp only [hzero, Bool.and_false, Bool.false_and]

/-- One idle heartbeat, and the verdict is not clean. -/
theorem not_clean_of_idle {idle : ℕ → List UInt64} {k : ℕ} (hk : k < R.shots.length)
    (hidle : idle k ≠ []) (o : Options) (source : Source) (times : Packet → UInt64)
    (interrupted : Bool) :
    (record o (carried source times (R.stream idle)) interrupted).clean = false := by
  cases hall : RunState.receiveAll (carried source times (R.stream idle)) o.start with
  | error run => rw [record_error hall]
  | ok run =>
    rw [record_ok hall]
    dsimp only
    cases hf : o.start.sourceFilter.any (!sourceEqual source · false) with
    | true =>
      -- nothing is heard, so no run is selected
      rw [RunState.receiveAll_unheard hf] at hall
      cases hall
      simp [RunState.clean, RunState.finish, RunState.finalizeRemaining,
        RunState.finalizeRemainingLoop, Options.start]
    | false =>
      cases hshots : R.shots with
      | nil =>
        rw [hshots] at hk
        exact absurd hk (Nat.not_lt_zero _)
      | cons s rest =>
        obtain ⟨packets, hstream⟩ := SentRun.stream_cons idle hshots
        obtain ⟨shotId, packetSequence, hmem⟩ :
            ∃ shotId packetSequence, R.idlePacket shotId packetSequence ∈ R.stream idle :=
          SentRun.idle_mem R.shots 0 0 k hk (by rwa [Nat.zero_add])
        rw [hstream] at hmem
        have hlater : R.idlePacket shotId packetSequence ∈ packets := by
          rcases List.mem_cons.mp hmem with heq | hmem
          · cases congrArg (fun p : Packet => p.header.packetType) heq
          · exact hmem
        obtain ⟨before, after, rfl⟩ := List.append_of_mem hlater
        -- the first message selects the run, the heartbeat counts, and nothing forgets either
        rw [hstream, carried, List.map_cons, List.map_append, List.map_cons] at hall
        obtain ⟨first, hfirst, hall⟩ := of_foldlM_cons hall
        obtain ⟨waiting, hwaiting, hall⟩ := of_foldlM_append hall
        obtain ⟨counted, hcounted, hall⟩ := of_foldlM_cons hall
        have hs : R.shots[0]? = some s := by rw [hshots]; rfl
        obtain ⟨hsel, hfilter⟩ := RunState.receiveMessage_first hs rfl rfl hf hfirst
        have hgrows := RunState.grows_receiveAll hwaiting
        have hpos := RunState.receiveMessage_idle (hgrows.selected _ hsel)
          (by rw [hgrows.sourceFilter, hfilter]; exact hf) hcounted
        have hend := (RunState.grows_receiveAll hall).trans (RunState.grows_finish run interrupted)
        exact not_clean_of_malformed (hpos.trans_le hend.malformedPackets) true

/-- A run that is recorded cleanly is published alike with idle heartbeats between its shots and
before its end exactly when there are none. -/
theorem heartbeats_transparent (R : SentRun) (idle : ℕ → List UInt64) (o : Options)
    (source : Source) (times : Packet → UInt64) (interrupted : Bool)
    (hclean : (record o (carried source times R.plain) interrupted).clean = true) :
    SamePublication (record o (carried source times (R.stream idle)) interrupted)
        (record o (carried source times R.plain) interrupted) ↔
      ∀ k < R.shots.length, idle k = [] := by
  constructor
  · intro hsame k hk
    by_contra hidle
    have hnot := not_clean_of_idle hk hidle o source times interrupted
    rw [hsame.clean, hclean] at hnot
    cases hnot
  · intro hsilent
    rw [SentRun.stream_silent hsilent]
    exact ⟨rfl, rfl⟩

theorem oneSample_check : (oneSample 0 true).check aSample = .ok () ∧
    (oneSample 1 true).check aSample = .ok () := ⟨rfl, rfl⟩

/-- Two shots of one sample each. -/
def twoShots : List SentShot :=
  [⟨oneSample 0 true, aSample, oneSample_check.1⟩, ⟨oneSample 1 true, aSample, oneSample_check.2⟩]

theorem twoShots_identity : ∀ s ∈ twoShots, s.config.streamId = 1 ∧ s.config.runId = 1 := by
  intro s hs
  simp only [twoShots, List.mem_cons, List.not_mem_nil, or_false] at hs
  rcases hs with rfl | rfl <;> exact ⟨rfl, rfl⟩

theorem twoShots_ids : twoShots.Pairwise fun a b => a.shotId < b.shotId := by
  decide

theorem twoShots_sequences : twoShots.IsChain fun a b => b.firstSequence = a.nextSequence :=
  .cons_cons rfl (.singleton _)

def twoShotRun : SentRun :=
  { streamId := 1, runId := 1, shots := twoShots, identity := twoShots_identity
    ids := twoShots_ids, sequences := twoShots_sequences }

/-- One heartbeat behind the first shot. -/
def oneIdle (k : ℕ) : List UInt64 := if k = 0 then [1] else []

theorem heartbeats_transparent_twoShots :
    (record { maxShotBytes := 4 } (carried (.inet 1 5000) (fun _ => 1) twoShotRun.plain)
        false).clean = true ∧
      (SamePublication
        (record { maxShotBytes := 4 }
          (carried (.inet 1 5000) (fun _ => 1) (twoShotRun.stream oneIdle)) false)
        (record { maxShotBytes := 4 } (carried (.inet 1 5000) (fun _ => 1) twoShotRun.plain)
          false) ↔ ∀ k < twoShotRun.shots.length, oneIdle k = []) :=
  ⟨by decide +kernel,
    heartbeats_transparent twoShotRun oneIdle _ _ _ false (by decide +kernel)⟩

/-- One idle heartbeat between two shots, and a run that is recorded cleanly without it is not. -/
theorem heartbeats_not_transparent :
    (record { maxShotBytes := 4 } (carried (.inet 1 5000) (fun _ => 1) twoShotRun.plain)
        false).clean = true ∧
      (record { maxShotBytes := 4 }
        (carried (.inet 1 5000) (fun _ => 1) (twoShotRun.stream oneIdle)) false).clean = false ∧
      ¬ SamePublication
        (record { maxShotBytes := 4 }
          (carried (.inet 1 5000) (fun _ => 1) (twoShotRun.stream oneIdle)) false)
        (record { maxShotBytes := 4 } (carried (.inet 1 5000) (fun _ => 1) twoShotRun.plain)
          false) := by
  decide +kernel

end QCrate.Recorder
