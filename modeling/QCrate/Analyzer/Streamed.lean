import QCrate.Analyzer.Acceptance
import QCrate.Streamer.Emission

/-!
# From the streamer to the acceptance

The two threads of the streamer, a network that loses, repeats and reorders what they send, the
recorder, and the acceptance with the report of the streamer. When the acceptance does not fail,
there is a record for every bank that was dequeued, and it reads back what was in the bank.

* `writeSenderReport` — what the streamer says of a run.
* `accepted_stream_whole` — from the banks to the verdict.
-/

namespace QCrate.Analyzer

open QCrate.Lib QCrate.DataPlane QCrate.Recorder SentRun
open QCrate.Streamer (State Shot Streams)

variable {F C : Type}

/-! ## The report of the streamer -/

/-- What the clocks, the pool, the socket and the remaining options give `write_sender_report`. -/
structure SenderMeasured (F : Type) where
  durationOption : ℕ
  startNs : ℕ
  endNs : ℕ
  durationSeconds : F
  captureDurationSeconds : F
  processCpuSeconds : F
  processCpuPercent : F
  shotRateHz : F
  payloadMbps : F
  requestedSendBuffer : ℕ
  actualSendBuffer : ℤ
  rateMbps : ℕ
  queueHighWater : ℕ
  readyHighWater : ℕ
  stallCycles : ℕ
  missedTriggers : ℕ
  starvationEvents : ℕ
  skippedTriggers : ℕ
  errorEvents : ℕ
  errorNumber : ℤ
  errorContext : String
  /-- The calls of `run_sustained` after the threads, and the request to stop. -/
  poolStatus : Bool
  stop : Bool
  poolStop : Bool

/-- `error_context` of the queue: `pipeline_fail` keeps the first failure. -/
def SenderMeasured.context (m : SenderMeasured F) (s : State) : String :=
  if s.failed then m.errorContext
  else if !m.poolStatus then "DMA pool status"
  else if !m.poolStop then "DMA pool stop"
  else ""

/-- `write_sender_report`: the fields of `sender.json`. -/
def writeSenderReport (c : Streamer.Context) (s : State) (m : SenderMeasured F) : Report F :=
  let transmitted := s.shots.take s.transmittedShots
  [("format", .str "qcrate-sender-report-v1"),
    ("complete", .bool (s.success m.poolStatus m.stop m.poolStop)),
    ("run_id", hexField 16 c.options.runId.toNat),
    ("stream_id", hexField 8 c.options.streamId.toNat),
    ("pool_run_id", hexField 16 c.poolRunId.toNat),
    ("stream", .object
      [("config_id", hexField 16 c.configId.toNat),
        ("center_frequency_hz", .int c.centerFrequencyHz.toInt)]),
    ("requested", .object
      [("mode", .str (if c.options.durationMode then "duration" else "shot_count")),
        ("shots", .int c.options.triggeredShots),
        ("duration_seconds", .int m.durationOption),
        ("banks", .int c.options.bankCount)]),
    ("timing", .object
      [("start_monotonic_ns", .int m.startNs),
        ("end_monotonic_ns", .int m.endNs),
        ("duration_seconds", .float m.durationSeconds),
        ("capture_duration_seconds", .float m.captureDurationSeconds),
        ("process_cpu_seconds", .float m.processCpuSeconds),
        ("process_cpu_percent", .float m.processCpuPercent)]),
    ("capture", .object
      [("shots_acquired", .int s.acquiredShots),
        ("shots_transmitted", .int s.transmittedShots),
        ("last_shot_id", .int s.lastShotId.toNat),
        ("last_first_sample_timestamp",
          .int ((transmitted.getLast?.map (·.token.bank.firstSampleTime.toNat)).getD 0)),
        ("shot_rate_hz", .float m.shotRateHz),
        ("sample_payload_bytes",
          .int (transmitted.map fun shot =>
            ((shot.config c).result shot.samples).payloadBytes).sum),
        ("sample_payload_mbps", .float m.payloadMbps)]),
    ("network", .object
      [("datagrams_sent", .int s.sent.length),
        ("udp_bytes_sent", .int (s.sent.map (·.datagram.length)).sum),
        ("packet_sequence_next", .int s.packetSequence.toNat),
        ("requested_send_buffer_bytes", .int m.requestedSendBuffer),
        ("actual_send_buffer_bytes", .int m.actualSendBuffer),
        ("pacing_mbps", .int m.rateMbps)]),
    ("health", .object
      [("token_queue_high_water", .int m.queueHighWater),
        ("dma_ready_high_water", .int m.readyHighWater),
        ("dma_stall_cycles", .int m.stallCycles),
        ("missed_triggers", .int m.missedTriggers),
        ("starvation_events", .int m.starvationEvents),
        ("skipped_triggers", .int m.skippedTriggers),
        ("dma_error_events", .int m.errorEvents)]),
    ("error", .object
      [("number", .int (if s.success m.poolStatus m.stop m.poolStop then 0 else m.errorNumber)),
        ("context", .str (m.context s))])]

/-! ## The network -/

/-- Whole datagrams that were sent, from one source. Some may be missing, and any may come more
than once or in another place. -/
def Carried (s : State) (source : Source) (messages : List RunState.Message) : Prop :=
  ∀ m ∈ messages, m.truncated = false ∧ m.source = some source ∧
    ∃ p ∈ s.sent, m.datagram = p.datagram

variable {c : Streamer.Context} {s : State} {R : SentRun} {l : List Shot} {source : Source}

/-- What is carried is delivered of the run. -/
theorem delivers_of_carried (h : Streams c s R l) {messages : List RunState.Message}
    (hc : Carried s source messages) : ∃ items, Delivers R source messages items := by
  induction messages with
  | nil => exact ⟨[], .nil⟩
  | cons m messages ih =>
    obtain ⟨⟨htruncated, hsource, p, hp, hdatagram⟩, hrest⟩ := List.forall_mem_cons.mp hc
    obtain ⟨items, hitems⟩ := ih hrest
    have hmem : p.datagram ∈ R.sent.map R.datagram :=
      h.sent.subset (List.mem_map_of_mem hp)
    obtain ⟨i, hi, hp⟩ := List.mem_map.mp hmem
    exact ⟨i :: items,
      .cons ⟨htruncated, hsource, hdatagram.trans hp.symm, SentRun.sends_sent i hi⟩ hitems⟩

/-! ## The verdict -/

variable (py : Python F) (fl : Floats F) (conv : Conversions F) [DecidableEq C] (ref : References C)

/-- Whatever the interleaving of the two threads of the streamer, whatever fails in it and whatever
the network does to the datagrams: when the acceptance of the recording with the report of the
streamer does not fail, the run was a success, and the records are the banks that were dequeued, one
each and in order, with the samples that were in them. -/
theorem accepted_stream_whole {created : Bool}
    (h : (Streamer.machine c).Reachable (Streamer.start created) s)
    (hsender : s.sender = .exited)
    {messages : List RunState.Message} (hc : Carried s source messages) (o : Options)
    (interrupted : Bool) (horder : messages.Pairwise fun m m' => m.receiveNs ≤ m'.receiveNs)
    {m : Measured F} {m' : SenderMeasured F} {runFile senderFile : ReportFile}
    (hrunJson : py.loads runFile.content = .ok (.object
      (writeManifest (record o messages interrupted).run (record o messages interrupted).clean m)))
    (hsenderJson : py.loads senderFile.content = .ok (.object (writeSenderReport c s m')))
    {f : Files}
    (hf : Left (record o messages interrupted).run (some runFile) (some senderFile) f)
    {minimumDuration : F} {faults : Option Bytes} {summary : Summary F}
    (he : evaluateRun py fl conv ref f (record o messages interrupted).run.samples minimumDuration
      faults = .ok summary)
    (hr : summary.result ≠ .fail) :
    s.success m'.poolStatus m'.stop m'.poolStop = true ∧
      s.shots.map (·.token.id) = List.range s.dequeued ∧
      ∃ b, RunBundle.openRun py f = .ok b ∧ b.shots.length = s.dequeued ∧
        ∀ (k : ℕ) (shot : Shot), s.shots[k]? = some shot → ∃ record', b.shots[k]? = some record' ∧
          record'.shotId = shot.token.bank.triggerShotId.toNat ∧
          readSamples (record o messages interrupted).run.samples record' = .ok shot.samples ∧
          Comparison.Exact ref record' shot.samples := by
  obtain ⟨hsound, l, hl⟩ := Streamer.reachable_emitting h
  obtain ⟨R, hR⟩ := hl.carries
  obtain ⟨items, hd⟩ := delivers_of_carried (hl.streams hR) hc
  obtain ⟨b, hopen, haccepted⟩ := evaluateRun_accepted py fl conv ref he hr
  obtain ⟨hfiles, -⟩ := Written.record_files o messages interrupted
  obtain ⟨now, hrunSound⟩ := record_sound o interrupted horder
  -- the report of the streamer says that the run was a success
  have hsuccess : s.success m'.poolStatus m'.stop m'.poolStop = true := by
    have hcomplete := haccepted.sender
    rw [(openRun_reports py hfiles.agree hrunSound hf hrunJson hsenderJson hopen).2] at hcomplete
    exact hcomplete
  have hwhole := hl.whole_of_success hsound hR hsender hsuccess
  have hlength : R.shots.length = s.dequeued := by
    have hbanks := congrArg List.length hwhole.banks
    rw [List.length_map, List.length_range] at hbanks
    exact hR.length.trans hbanks
  have hsent : nested (.object (writeSenderReport c s m')) (.int (-1))
      ["capture", "shots_transmitted"] = .int (R.shots.length : ℤ) := by
    rw [hlength, ← hwhole.transmitted]
    rfl
  obtain ⟨hids, hread⟩ := whole_of_accepted py conv ref hd o interrupted horder hrunJson hsenderJson
    hsent hf hopen haccepted
  refine ⟨hsuccess, by rw [hwhole.shots]; exact hwhole.banks, b, hopen, ?_, fun k shot hk => ?_⟩
  · rw [← hlength, ← List.length_map (f := SentShot.shotId), ← hids, List.length_map]
  · rw [hwhole.shots] at hk
    obtain ⟨t, ht, hconfig, hsamples⟩ := hR.getElem? hk
    obtain ⟨record', hrecord, hpayload, hexact⟩ := hread k t ht
    rw [hsamples] at hpayload hexact
    refine ⟨record', hrecord, ?_, hpayload, hexact⟩
    have hid := congrArg (·[k]?) hids
    simp only [List.getElem?_map, hrecord, ht, Option.map_some] at hid
    rw [Option.some.inj hid]
    unfold SentShot.shotId
    rw [hconfig]
    exact UInt32.toNat_toUInt64 _

/-! The shot of one word. -/

/-- What reaches the recorder when nothing is lost. -/
def arrivals (s : State) : List RunState.Message :=
  s.sent.map fun p => .whole (.inet 1 5000) 1 p.datagram

/-- Whole datagrams that are no longer than UDP allows. -/
theorem carried_arrivals (h : ∀ p ∈ s.sent, p.datagram.length ≤ maxUdpDatagram) :
    Carried s (.inet 1 5000) (arrivals s) := by
  intro m hm
  obtain ⟨p, hp, rfl⟩ := List.mem_map.mp hm
  exact ⟨rfl, rfl, p, hp, List.take_of_length_le (h p hp)⟩

def recordOneWord (s : State) : Outcome := record { maxShotBytes := 4 } (arrivals s) false

/-- A run of a second, and everything went well. -/
def oneWordMeasured : SenderMeasured ℤ :=
  ⟨0, 0, 1, 1, 1, 1, 1, 1, 1, 4096, 4096, 0, 1, 1, 0, 0, 0, 0, 0, 0, "", true, false, true⟩

def oneWordPython (s : State) : Python ℤ :=
  pairPython
    (writeManifest (recordOneWord s).run (recordOneWord s).clean
      ⟨0, 1, 1, 1, 1, 1, 1, 1, 4096, 4096⟩)
    (writeSenderReport Streamer.oneWord s oneWordMeasured)

def oneWordFiles (s : State) : Option Files :=
  filesOf (recordOneWord s).run (some ⟨(1, 0, 0), [1]⟩) (some ⟨(2, 0, 0), [2]⟩)

theorem accepted_stream_whole_oneWord : ∃ s f b,
    (Streamer.machine Streamer.oneWord).run (Streamer.start true) Streamer.oneWordRun = some s ∧
      oneWordFiles s = some f ∧ RunBundle.openRun (oneWordPython s) f = .ok b ∧
      b.shots.length = s.dequeued := by
  have hrun : ((Streamer.machine Streamer.oneWord).run (Streamer.start true)
      Streamer.oneWordRun).any (fun s => decide (s.sender = .exited ∧
        (∀ p ∈ s.sent, p.datagram.length ≤ maxUdpDatagram) ∧
        (recordOneWord s).run.samples.length < 2 ^ 63 ∧
        ((oneWordFiles s).bind fun f => (evaluateRun (oneWordPython s) wholeFloats wholeConversions
          (steadyReferences 0) f (recordOneWord s).run.samples 1 none).toOption.map (·.result)) =
            some .pending)) = true := by
    decide +kernel
  obtain ⟨s, hs, hfacts⟩ := (Option.any_eq_true _ _).mp hrun
  obtain ⟨hsender, hlength, hshort, hresult⟩ := of_decide_eq_true hfacts
  obtain ⟨f, hf, hsummary⟩ := Option.bind_eq_some_iff.mp hresult
  obtain ⟨summary, hok, hpending⟩ := summary_of_result hsummary
  have horder : (arrivals s).Pairwise fun m m' => m.receiveNs ≤ m'.receiveNs := by
    refine List.pairwise_map.mpr (List.pairwise_of_forall fun _ _ => ?_)
    exact UInt64.le_refl 1
  obtain ⟨-, -, b, hopen, hb, -⟩ := accepted_stream_whole (oneWordPython s) wholeFloats
    wholeConversions (steadyReferences 0) ⟨_, hs⟩ hsender (carried_arrivals hlength)
    { maxShotBytes := 4 } false horder rfl rfl ⟨hf, hshort⟩ hok
    (by rw [hpending]; exact AcceptanceResult.noConfusion)
  exact ⟨s, f, b, hs, hf, hopen, hb⟩

end QCrate.Analyzer
