import QCrate.Recorder.Finalize

/-!
# The recorder: datagrams in, records out

`validate_and_ingest` parks what arrives before the first STREAM_INFO, chooses the run with it,
and from then on puts every datagram of the run into its shot; after each one the shots at the
front that are complete are closed. `receive_run` closes the rest when the sender is done.
An error return keeps the state, because the files keep what has been written.
-/

namespace QCrate.Recorder

open QCrate.DataPlane

namespace RunState

/-! ## Closing shots in order -/

/-- The value by which `lowest_sequence_shot` compares an entry. -/
def candidate (shot : ShotState) : ℕ := (shot.info.map (·.1.packetSequence)).getD uint64Max

/-- The loop of `lowest_sequence_shot` from `index` on, with its variables. -/
def lowestFrom : List ShotState → (index lowest sequence : ℕ) → ℕ
  | [], _, lowest, _ => lowest
  | shot :: rest, index, lowest, sequence =>
    if candidate shot < sequence then lowestFrom rest (index + 1) index (candidate shot)
    else lowestFrom rest (index + 1) lowest sequence

/-- `lowest_sequence_shot` -/
def lowestSequenceShot (run : RunState) : ℕ := lowestFrom run.shots 0 0 uint64Max

/-- `remove_and_finalize`: the run without the entry, or with the entry that is not ready. -/
def removeAndFinalize (run : RunState) (position : ℕ) (shot : ShotState) (forced : Bool) :
    Except RunState RunState :=
  match run.finalizeShot shot forced with
  | .error shot => .error { run with shots := run.shots.set position shot }
  | .ok run => .ok { run with shots := run.shots.eraseIdx position }

/-- The loop of `finalize_ready`, with at most `fuel` entries to close. -/
def finalizeReadyLoop : ℕ → RunState → RunState
  | 0, run => run
  | fuel + 1, run =>
    let position := run.lowestSequenceShot
    match run.shots[position]? with
    | none => run
    | some shot =>
      let shot := shot.sortPackets
      if shot.sequenceComplete then
        match run.removeAndFinalize position shot false with
        | .error run => run
        | .ok run => finalizeReadyLoop fuel run
      else { run with shots := run.shots.set position shot }

/-- `finalize_ready` -/
def finalizeReady (run : RunState) : RunState := finalizeReadyLoop run.shots.length run

/-- The loop of `finalize_remaining`, with at most `fuel` entries to close. -/
def finalizeRemainingLoop : ℕ → RunState → RunState
  | 0, run => run
  | fuel + 1, run =>
    let position := run.lowestSequenceShot
    match run.shots[position]? with
    | none => run
    | some shot =>
      match run.removeAndFinalize position shot true with
      | .error run => run
      | .ok run => finalizeRemainingLoop fuel run

/-- `finalize_remaining` -/
def finalizeRemaining (run : RunState) : RunState := finalizeRemainingLoop run.shots.length run

/-! ## One datagram of the run -/

/-- A heartbeat that announces the end of the stream, as the protocol has it. -/
def terminalHeartbeat (header : Header) (bytes : ℕ) : Bool :=
  bytes = headerBytes && header.payloadFormat = formatNone && header.sampleBytes = 0 &&
    header.sampleCount = 0 && header.frameId = 0 && header.sampleOffset = 0 &&
    header.timestampTicks = 0 && header.flags = flagEndOfStream

/-- A new STREAM_INFO. -/
def absorbInfo (run : RunState) (shot : ShotState) (header : Header) (payload : Bytes) :
    RunState × ShotState :=
  match StreamInfo.decode payload with
  | .ok info =>
    if payload.length ≠ streamInfoBytes then
      (run, { shot with issueFlags := shot.issueFlags ||| issueProtocol })
    else if shot.haveInfo then
      (run, { shot with issueFlags := shot.issueFlags ||| issueConflict })
    else
      ({ run with profile := run.profile.or (some (header, info)) },
        { shot with info := some (header, info) })
  | .error _ => (run, { shot with issueFlags := shot.issueFlags ||| issueProtocol })

/-- A new SHOT_END. -/
def absorbEnd (run : RunState) (shot : ShotState) (header : Header) (payload : Bytes) :
    RunState × ShotState :=
  match ShotEnd.decode payload with
  | .ok last =>
    if payload.length ≠ shotEndBytes then
      (run, { shot with issueFlags := shot.issueFlags ||| issueProtocol })
    else
      match shot.shotEnd with
      | some (_, known) =>
        (run, { shot with
          issueFlags := shot.issueFlags ||| issueConflict |||
            if known ≠ last then issueProtocol else 0 })
      | none =>
        (if last.endFlags &&& flagEndOfStream ≠ 0 then
            { run with terminal := some ⟨true, header.packetSequence, header.shotId⟩ }
          else run,
          { shot with shotEnd := some (header, last) })
  | .error _ => (run, { shot with issueFlags := shot.issueFlags ||| issueProtocol })

/-- What a new packet of a shot says, by its type. -/
def absorb (run : RunState) (shot : ShotState) (header : Header) (payload : Bytes) :
    RunState × ShotState :=
  match header.packetType with
  | .streamInfo => absorbInfo run shot header payload
  | .shotEnd => absorbEnd run shot header payload
  | .data => (run, shot)
  | .heartbeat => (run, { shot with issueFlags := shot.issueFlags ||| issueProtocol })

/-- A datagram of a shot that has an entry. -/
def addToShot (run : RunState) (shot : ShotState) (header : Header) (a : Arrival) : RunState :=
  match shot.addPacket header a.receiveNs a.datagram with
  | (false, shot) => (run.putShot shot).finalizeReady
  | (true, shot) =>
    let (run, shot) := run.absorb shot header (a.datagram.drop header.headerBytes)
    (run.putShot shot).finalizeReady

/-- A datagram of the run that belongs to a shot. -/
def ingestShot (run : RunState) (header : Header) (a : Arrival) : Except RunState RunState :=
  if run.lastShot.any (header.shotId ≤ ·.shotId) then
    .ok { run with latePackets := run.latePackets + 1 }
  else
    match run.findShot header.shotId with
    | some shot => .ok (run.addToShot shot header a)
    | none =>
      match run.createShot header.shotId with
      | none => .error run
      | some run => .ok (run.addToShot { shotId := header.shotId } header a)

/-- The rest of `validate_and_ingest`, once a run is selected. -/
def ingestSelected (run : RunState) (selection : Selection) (header : Header) (a : Arrival) :
    Except RunState RunState :=
  if !sourceEqual a.source selection.source true || header.runId ≠ selection.runId ||
      header.streamId ≠ selection.streamId then
    .ok { run with foreignPackets := run.foreignPackets + 1 }
  else
    let run := { run with validPackets := run.validPackets + 1 }
    match header.packetType with
    | .heartbeat =>
      if terminalHeartbeat header a.datagram.length then
        .ok { run with terminal := some ⟨false, header.packetSequence, header.shotId⟩ }
      else .ok { run with malformedPackets := run.malformedPackets + 1 }
    | _ => run.ingestShot header a

/-! ## Selection -/

/-- `save_pending` -/
def savePending (run : RunState) (a : Arrival) : RunState :=
  if run.pending.length = maxPendingPackets then
    { run with pendingOverflow := run.pendingOverflow + 1 }
  else { run with pending := run.pending ++ [a] }

/-- The header of a datagram that is not counted as malformed. -/
def acceptedHeader (a : Arrival) : Option Header :=
  if maxDatagram < a.datagram.length then none
  else
    match Header.decode a.datagram with
    | .error _ => none
    | .ok header => some header

/-- `validate_and_ingest` when a run is selected. -/
def ingest (selection : Selection) (run : RunState) (a : Arrival) : Except RunState RunState :=
  match acceptedHeader a with
  | none => .ok { run with malformedPackets := run.malformedPackets + 1 }
  | some header => run.ingestSelected selection header a

/-- Ingest a list of datagrams up to the first error. -/
def ingestAll (selection : Selection) (arrivals : List Arrival) (run : RunState) :
    Except RunState RunState :=
  arrivals.foldlM (ingest selection) run

/-- `replay_pending` -/
def replayPending (run : RunState) (selection : Selection) : Except RunState RunState :=
  match ingestAll selection run.pending run with
  | .error run => .error { run with pending := [] }
  | .ok run => .ok { run with pending := [] }

/-- `validate_and_ingest` -/
def validateAndIngest (run : RunState) (a : Arrival) : Except RunState RunState :=
  match run.selected with
  | some selection => ingest selection run a
  | none =>
    match acceptedHeader a with
    | none => .ok { run with malformedPackets := run.malformedPackets + 1 }
    | some header =>
      match header.packetType with
      | .streamInfo =>
        let selection := ⟨a.source, header.runId, header.streamId⟩
        ({ run with selected := some selection }.replayPending selection).bind fun run =>
          run.ingestSelected selection header a
      | _ => .ok (run.savePending a)

/-! ## Receiving -/

/-- One message of `recvmmsg`: the sender when its family is known, MSG_TRUNC, the drop counter
of the socket when it came along, and the data, which fits the receive buffer. -/
structure Message where
  source : Option Source
  truncated : Bool
  dropped : Option ℕ
  receiveNs : UInt64
  datagram : Bytes
  fits : datagram.length ≤ maxUdpDatagram

/-- A whole datagram from a known sender. -/
def Message.whole (source : Source) (receiveNs : UInt64) (datagram : Bytes) : Message :=
  { source := some source, truncated := false, dropped := none, receiveNs := receiveNs
    datagram := datagram.take maxUdpDatagram, fits := List.length_take_le .. }

/-- `journal_datagram` -/
def journalDatagram (run : RunState) (a : Arrival) : Except RunState RunState :=
  if 2 ^ 16 - 1 < a.datagram.length then .error run
  else .ok { run with
    journalRecords := run.journalRecords + 1
    datagramBytes := run.datagramBytes + a.datagram.length }

/-- The drop counter of the socket. -/
def noteDrops (run : RunState) (dropped : Option ℕ) : RunState :=
  { run with kernelDrops := max run.kernelDrops (dropped.getD 0) }

/-- The body of `receive_batch` for one message. -/
def receiveMessage (run : RunState) (m : Message) : Except RunState RunState :=
  if m.truncated then .ok { run with malformedPackets := run.malformedPackets + 1 }
  else
    match m.source with
    | none => .ok run
    | some source =>
      let run := run.noteDrops m.dropped
      if run.sourceFilter.any (!sourceEqual source · false) then .ok run
      else
        let a := ⟨source, m.receiveNs.toNat, m.datagram⟩
        (run.journalDatagram a).bind fun run => run.validateAndIngest a

/-- The messages received until the loop of `receive_run` ends. -/
def receiveAll (messages : List Message) (run : RunState) : Except RunState RunState :=
  messages.foldlM receiveMessage run

/-- The END_OF_STREAM does not follow the last published shot. -/
def terminalBreaks (run : RunState) : Bool :=
  match run.terminal with
  | none => false
  | some t =>
    (match run.expectedSequence with
      | none => true
      | some expected =>
        if t.isShotEnd then succ64 t.sequence ≠ expected else t.sequence ≠ expected) ||
      run.lastShot.any (t.shotId ≠ ·.shotId)

/-- What `receive_run` does after its loop. -/
def finish (run : RunState) (interrupted : Bool) : RunState :=
  let run := { run with interrupted := interrupted }.finalizeRemaining
  { run with runContinuityError := run.runContinuityError || run.terminalBreaks }

/-- `receive_run` with the messages it receives: whether it returns 0, and the run. -/
def receiveRun (run : RunState) (messages : List Message) (interrupted : Bool) : Bool × RunState :=
  match receiveAll messages run with
  | .error run => (false, run)
  | .ok run => (true, run.finish interrupted)

/-- `clean` in `main` -/
def clean (status : Bool) (run : RunState) : Bool :=
  status && run.selected.isSome && run.terminal.isSome && !run.interrupted &&
    run.completeShots > 0 && run.incompleteShots = 0 && run.malformedPackets = 0 &&
    run.conflictingPackets = 0 && run.kernelDrops = 0 && !run.runContinuityError &&
    run.pendingOverflow = 0

end RunState

/-- What the user gives on the command line. -/
structure Options where
  maxShotBytes : ℕ
  sourceFilter : Option Source := none
  deriving DecidableEq, Repr

/-- The run before the first datagram. -/
def Options.start (o : Options) : RunState :=
  { maxShotBytes := o.maxShotBytes, sourceFilter := o.sourceFilter }

/-- The outcome of a recording: the status, the verdict, and the run with its files. -/
structure Outcome where
  status : Bool
  clean : Bool
  run : RunState

/-- `main`, from the start of `receive_run` to the verdict. -/
def record (o : Options) (messages : List RunState.Message) (interrupted : Bool) : Outcome :=
  let r := o.start.receiveRun messages interrupted
  ⟨r.1, RunState.clean r.1 r.2, r.2⟩

theorem record_ok {o : Options} {messages : List RunState.Message} {run : RunState}
    (h : RunState.receiveAll messages o.start = .ok run) (interrupted : Bool) :
    record o messages interrupted =
      ⟨true, RunState.clean true (run.finish interrupted), run.finish interrupted⟩ := by
  unfold record RunState.receiveRun
  rw [h]

theorem record_error {o : Options} {messages : List RunState.Message} {run : RunState}
    (h : RunState.receiveAll messages o.start = .error run) (interrupted : Bool) :
    record o messages interrupted = ⟨false, false, run⟩ := by
  unfold record RunState.receiveRun
  rw [h]
  rfl

end QCrate.Recorder
