import QCrate.Recorder.Receiving
import Mathlib.Data.List.TakeWhile

/-!
# The recorder as a publisher: a session

Until the first STREAM_INFO arrives, what the recorder hears waits in a window of 4096 datagrams.
From then on every datagram of a shot is a part that comes in, and the heartbeat is noted.

* `Ingested` — the recorder and the publisher after the items that were ingested.
* `effective` — what the items of a delivery amount to.
* `Session`, `receiveAll_session` — the recorder after the messages of a delivery.
* `record_session` — a whole recording.
-/

namespace QCrate.Recorder

open QCrate.Lib QCrate.DataPlane

variable {R : SentRun} {run run' : RunState} {s : SentShot}

namespace SentRun

/-! ## Items -/

/-- The item is a STREAM_INFO, which makes the recorder select the run. -/
def Item.announces : Item → Bool
  | .packet _ p => p.header.packetType = .streamInfo
  | .heartbeat => false

variable (R)

/-- What the heartbeat says of the end of the run. -/
def ending : Terminal :=
  ⟨false, R.heartbeat.header.packetSequence, R.heartbeat.header.shotId⟩

/-- The last of the items that says how the run ends says `t`: the heartbeat, or the SHOT_END of a
shot that was not late, when no heartbeat came after it. -/
def Ends (l : List Item) (t : Terminal) : Prop :=
  (.heartbeat ∈ l ∧ t = R.ending) ∨
    ∃ before after k s S, R.shots[k]? = some s ∧ l = before ++ .packet k s.endPacket :: after ∧
      .heartbeat ∉ after ∧ s.config.endOfStream = true ∧
      R.feed.Runs (before.filterMap Item.packet?) S ∧ ¬ R.feed.Late S k ∧
      t = ⟨true, s.endPacket.header.packetSequence, s.shotId⟩

/-- The sender and the stream of the run. -/
def selection (source : Source) : Selection := ⟨source, R.runId.toNat, R.streamId.toNat⟩

variable {R}

theorem Ends.concat {l : List Item} {t : Terminal} (h : R.Ends l t) {i : Item}
    (hi : i ≠ .heartbeat) : R.Ends (l ++ [i]) t := by
  rcases h with ⟨hb, ht⟩ | ⟨before, after, k, s, S, hs, rfl, hb, hrest⟩
  · exact .inl ⟨List.mem_append_left _ hb, ht⟩
  · refine .inr ⟨before, after ++ [i], k, s, S, hs, by simp, fun hm => ?_, hrest⟩
    rcases List.mem_append.mp hm with hm | hm
    · exact hb hm
    · exact hi (List.mem_singleton.mp hm).symm

theorem announces_iff {k : ℕ} {p : Packet} (hp : p ∈ s.packets) :
    (Item.packet k p).announces = true ↔ p = s.infoPacket := by
  have hinfo : s.infoPacket.header.packetType = .streamInfo := rfl
  constructor
  · intro ha
    have htype : p.header.packetType = .streamInfo := of_decide_eq_true ha
    rcases Config.mem_shotPackets hp with rfl | hd | rfl
    · rfl
    · obtain ⟨f, o, q, -, -, -, rfl⟩ := Config.mem_dataPackets hd
      cases htype
    · cases htype
  · rintro rfl
    exact decide_eq_true hinfo

end SentRun

/-- The two runs have the same table and the same files, and remember the same shots. -/
structure SameBooks (run run' : RunState) : Prop where
  maxShotBytes : run'.maxShotBytes = run.maxShotBytes
  profile : run'.profile = run.profile
  shots : run'.shots = run.shots
  index : run'.index = run.index
  samples : run'.samples = run.samples
  sampleOffset : run'.sampleOffset = run.sampleOffset
  expectedSequence : run'.expectedSequence = run.expectedSequence
  lastShot : run'.lastShot = run.lastShot
  completeShots : run'.completeShots = run.completeShots
  incompleteShots : run'.incompleteShots = run.incompleteShots
  conflictingPackets : run'.conflictingPackets = run.conflictingPackets

theorem SameBooks.follows {S : Publisher Packet} (h : SameBooks run run') (hf : R.Follows S run) :
    R.Follows S run' := by
  have hl := hf.logged
  have hprofile : run'.profileOf = run.profileOf := by
    unfold RunState.profileOf
    rw [h.profile]
  refine ⟨by rw [h.shots]; exact hf.table, ?_⟩
  constructor
  · rw [h.maxShotBytes, hprofile, h.index]
    exact hl.index
  · rw [h.maxShotBytes, hprofile, h.samples]
    exact hl.samples
  · rw [h.sampleOffset, h.samples]
    exact hl.sampleOffset
  · rw [h.expectedSequence]
    exact hl.expectedSequence
  · rw [h.lastShot]
    exact hl.lastShot
  · rw [h.maxShotBytes, hprofile, h.completeShots]
    exact hl.complete
  · rw [h.maxShotBytes, hprofile, h.incompleteShots]
    exact hl.incomplete
  · rw [h.conflictingPackets]
    exact hl.conflictingPackets

/-! ## One item -/

open SentRun in
/-- The recorder has ingested the items, and the publisher their packets. -/
structure Ingested (R : SentRun) (source : Source) (l : List Item) (S : Publisher Packet)
    (run : RunState) : Prop where
  selected : run.selected = some (R.selection source)
  runs : R.feed.Runs (l.filterMap Item.packet?) S
  follows : R.Follows S run
  sends : ∀ i ∈ l, R.Sends i
  heralded : run.profile = none → ∀ i ∈ l, i.announces = false
  profile : ∀ q ∈ run.profileOf, ∃ s ∈ R.shots, q = s.profile
  ended : ∀ t ∈ run.terminal, R.Ends l t
  noted : .heartbeat ∈ l → run.terminal ≠ none

namespace Ingested

open SentRun

variable {source : Source} {l : List Item} {S : Publisher Packet}

theorem mem_packets {k : ℕ} {p : Packet} :
    (k, p) ∈ l.filterMap Item.packet? ↔ Item.packet k p ∈ l := by
  rw [List.mem_filterMap]
  constructor
  · rintro ⟨i, hi, he⟩
    cases i with
    | packet k' p' =>
      cases he
      exact hi
    | heartbeat => cases he
  · exact fun hm => ⟨_, hm, rfl⟩

/-- Whoever knows no profile has closed nothing. -/
theorem log_eq_nil (h : Ingested R source l S run) (hp : run.profile = none) : S.log = [] := by
  rw [List.eq_nil_iff_forall_not_mem]
  intro e he
  have ha := h.runs.sound.2 e he
  cases hs : R.shots[e.unit]? with
  | none =>
    unfold Feed.announced SentRun.feed at ha
    simp [hs] at ha
  | some s =>
    rw [R.announced_iff hs] at ha
    have hm := mem_packets.mp (h.runs.held e (List.mem_append_right _ he) _ ha)
    have hi := h.heralded hp _ hm
    rw [(announces_iff s.info_mem).mpr rfl] at hi
    cases hi

/-- What the recorder makes of one more item. -/
inductive Step (R : SentRun) (source : Source) (l : List Item) (S : Publisher Packet)
    (run : RunState) (i : Item) : Except RunState RunState → Prop where
  | full {k : ℕ} {p : Packet} {run' : RunState} (hi : i = .packet k p)
      (hl : ¬ R.feed.Late S k) (hf : Follows.Full S k) (h : Ingested R source l S run')
      (hk : Keeps run run') : Step R source l S run i (.error run')
  | ok {T : Publisher Packet} {run' : RunState} (h : Ingested R source (l ++ [i]) T run')
      (hk : Keeps run run')
      (hlate : ∀ k p, i = .packet k p → R.feed.Late S k → T = S ∧ run'.terminal = run.terminal)
      (hend : i = .heartbeat → T = S ∧ run'.terminal = some R.ending) :
      Step R source l S run i (.ok run')

/-- What the source sends of the run is what is selected. -/
theorem selects {header : Header} {a : Arrival} (hsource : a.source = source)
    (hrun : header.runId = R.runId.toNat) (hstream : header.streamId = R.streamId.toNat) :
    ¬ ((!sourceEqual a.source (R.selection source).source true ||
      header.runId ≠ (R.selection source).runId ||
      header.streamId ≠ (R.selection source).streamId) = true) := by
  have hself : sourceEqual a.source (R.selection source).source true = true := by
    rw [hsource]
    exact sourceEqual_self source
  rw [hself, hrun, hstream]
  simp [selection]

theorem step_heartbeat (h : Ingested R source l S run) {a : Arrival} (hsource : a.source = source)
    (hd : a.datagram = R.heartbeat.datagram) :
    Step R source l S run .heartbeat (RunState.ingest (R.selection source) run a) := by
  have hterminal : RunState.terminalHeartbeat R.heartbeat.header a.datagram.length = true := by
    rw [hd, heartbeat_length]
    rfl
  have heq : RunState.ingest (R.selection source) run a = .ok { run with
      validPackets := run.validPackets + 1, terminal := some R.ending } := by
    unfold RunState.ingest
    rw [acceptedHeader_heartbeat hd]
    dsimp only
    unfold RunState.ingestSelected
    rw [if_neg (selects hsource rfl rfl)]
    have htype : R.heartbeat.header.packetType = .heartbeat := rfl
    dsimp only
    rw [htype]
    dsimp only
    rw [if_pos hterminal]
    rfl
  rw [heq]
  have hsame : SameBooks run { run with
      validPackets := run.validPackets + 1, terminal := some R.ending } :=
    ⟨rfl, rfl, rfl, rfl, rfl, rfl, rfl, rfl, rfl, rfl, rfl⟩
  refine .ok (T := S) ⟨h.selected, ?_, hsame.follows h.follows, ?_, ?_, h.profile, ?_, ?_⟩
    ⟨rfl, rfl, rfl, rfl, rfl, rfl, rfl, rfl⟩ nofun fun _ => ⟨rfl, rfl⟩
  · have hnone : [Item.heartbeat].filterMap Item.packet? = [] := rfl
    rw [List.filterMap_append, hnone, List.append_nil]
    exact h.runs
  · intro i hi
    rcases List.mem_append.mp hi with hi | hi
    · exact h.sends i hi
    · rw [List.mem_singleton.mp hi]
      trivial
  · intro hp i hi
    rcases List.mem_append.mp hi with hi | hi
    · exact h.heralded hp i hi
    · rw [List.mem_singleton.mp hi]
      rfl
  · intro t ht
    cases ht
    exact .inl ⟨by simp, rfl⟩
  · exact fun _ => Option.some_ne_none _

/-- Every way to find the profile: it was known, or the packet announced it. -/
theorem profile_notes {k : ℕ} {p : Packet} (h : Ingested R source l S run)
    (hs : R.shots[k]? = some s) (hp : p ∈ s.packets) (hn : s.Notes S k p run run') :
    (run'.profile = none → run.profile = none ∧ (Item.packet k p).announces = false) ∧
      ∀ q ∈ run'.profileOf, ∃ s ∈ R.shots, q = s.profile := by
  rcases hn with ⟨⟨e, he, hu, hheld⟩, hprofile, -⟩ | ⟨hprofile, -⟩
  · have hm : Item.packet k p ∈ l :=
      mem_packets.mp (hu ▸ h.runs.held e (List.mem_append_left _ he) p hheld)
    have hof : run'.profileOf = run.profileOf := by
      unfold RunState.profileOf
      rw [hprofile]
    rw [hof, hprofile]
    exact ⟨fun hnone => ⟨hnone, h.heralded hnone _ hm⟩, h.profile⟩
  · unfold RunState.profileOf
    rw [hprofile]
    unfold SentShot.profileAfter
    by_cases hi : p = s.infoPacket
    · rw [if_pos hi]
      cases hprof : run.profile with
      | none =>
        refine ⟨nofun, fun q hq => ⟨s, List.mem_of_getElem? hs, ?_⟩⟩
        cases hq
        rfl
      | some q =>
        refine ⟨nofun, fun q' hq' => h.profile q' ?_⟩
        unfold RunState.profileOf
        rw [hprof]
        exact hq'
    · rw [if_neg hi]
      exact ⟨fun hnone => ⟨hnone, Bool.eq_false_iff.mpr (mt (announces_iff hp).mp hi)⟩, h.profile⟩

theorem terminal_notes {k : ℕ} {p : Packet} (hn : s.Notes S k p run run') :
    run'.terminal = run.terminal ∨ (p = s.endPacket ∧ s.config.endOfStream = true ∧
      run'.terminal = some ⟨true, s.endPacket.header.packetSequence, s.shotId⟩) := by
  rcases hn with ⟨-, -, hterminal⟩ | ⟨-, hterminal⟩
  · exact .inl hterminal
  · rw [hterminal]
    unfold SentShot.terminalAfter
    split
    · next hc => exact .inr ⟨hc.1, hc.2, rfl⟩
    · exact .inl rfl

/-- A packet goes to the shot table. -/
theorem ingest_packet {k : ℕ} {p : Packet} (hs : R.shots[k]? = some s) (hp : p ∈ s.packets)
    {a : Arrival} (hsource : a.source = source) (hd : a.datagram = p.datagram) :
    RunState.ingest (R.selection source) run a =
      { run with validPackets := run.validPackets + 1 }.ingestShot p.header a := by
  obtain ⟨hrunId, hstreamId, -, -, htype⟩ := header_identity hs hp
  unfold RunState.ingest
  rw [acceptedHeader_eq hp hd]
  dsimp only
  unfold RunState.ingestSelected
  rw [if_neg (selects hsource hrunId hstreamId)]
  dsimp only
  cases ht : p.header.packetType with
  | heartbeat => exact absurd ht htype
  | streamInfo | data | shotEnd => rfl

theorem sends_concat {i : Item} (h : ∀ i ∈ l, R.Sends i) (hi : R.Sends i) :
    ∀ j ∈ l ++ [i], R.Sends j := by
  intro j hj
  rcases List.mem_append.mp hj with hj | hj
  · exact h j hj
  · rw [List.mem_singleton.mp hj]
    exact hi

theorem packets_concat (l : List Item) (k : ℕ) (p : Packet) :
    (l ++ [Item.packet k p]).filterMap Item.packet? = l.filterMap Item.packet? ++ [(k, p)] := by
  rw [List.filterMap_append]
  rfl

theorem heartbeat_of_concat {k : ℕ} {p : Packet}
    (h : Item.heartbeat ∈ l ++ [Item.packet k p]) : Item.heartbeat ∈ l := by
  rcases List.mem_append.mp h with hm | hm
  · exact hm
  · cases List.mem_singleton.mp hm

/-- A packet of a late shot is only counted. -/
theorem step_late (h : Ingested R source l S run) {k : ℕ} {p : Packet}
    (hp : R.Sends (.packet k p)) (hl : R.feed.Late S k) :
    Step R source l S run (.packet k p) (.ok { run with
      validPackets := run.validPackets + 1, latePackets := run.latePackets + 1 }) := by
  have hsame : SameBooks run { run with
      validPackets := run.validPackets + 1, latePackets := run.latePackets + 1 } :=
    ⟨rfl, rfl, rfl, rfl, rfl, rfl, rfl, rfl, rfl, rfl, rfl⟩
  refine .ok (T := S) ⟨h.selected, ?_, hsame.follows h.follows, sends_concat h.sends hp, ?_,
    h.profile, ?_, ?_⟩ ⟨rfl, rfl, rfl, rfl, rfl, rfl, rfl, rfl⟩ (fun _ _ _ _ => ⟨rfl, rfl⟩) nofun
  · rw [packets_concat]
    exact h.runs.snoc (.late hl)
  · intro hprofile
    obtain ⟨e, he, -⟩ := hl
    rw [h.log_eq_nil hprofile] at he
    cases he
  · exact fun t ht => (h.ended t ht).concat nofun
  · exact fun hm => h.noted (heartbeat_of_concat hm)

/-- A packet of another shot is a step of the publisher. -/
theorem step_fresh (h : Ingested R source l S run) {k : ℕ} {p : Packet}
    (hs : R.shots[k]? = some s) (hp : p ∈ s.packets) (hl : ¬ R.feed.Late S k)
    {S' : Publisher Packet} (hd : R.feed.Drains { S with table := addPart k p S.table } S')
    (hf : R.Follows S' run') (hk : Keeps run run') (hn : s.Notes S k p run run') :
    Step R source l S run (.packet k p) (.ok run') := by
  obtain ⟨hprofile, hknown⟩ := h.profile_notes hs hp hn
  have hterminal := terminal_notes hn
  refine .ok ⟨hk.selected.trans h.selected, ?_, hf, sends_concat h.sends ⟨s, hs, hp⟩, ?_, hknown,
    ?_, ?_⟩ hk ?_ nofun
  · rw [packets_concat]
    exact h.runs.snoc (.fresh hl hd)
  · intro hnone i hi
    rcases List.mem_append.mp hi with hi | hi
    · exact h.heralded (hprofile hnone).1 i hi
    · rw [List.mem_singleton.mp hi]
      exact (hprofile hnone).2
  · intro t ht
    rcases hterminal with heq | ⟨rfl, heos, heq⟩
    · rw [heq] at ht
      exact (h.ended t ht).concat nofun
    · rw [heq] at ht
      cases ht
      exact .inr ⟨l, [], k, s, S, hs, rfl, List.not_mem_nil, heos, h.runs, hl, rfl⟩
  · intro hm
    rcases hterminal with heq | ⟨-, -, heq⟩
    · rw [heq]
      exact h.noted (heartbeat_of_concat hm)
    · rw [heq]
      exact Option.some_ne_none _
  · intro k' p' hi hl'
    cases hi
    exact absurd hl' hl

theorem step_packet (h : Ingested R source l S run) {k : ℕ} {p : Packet}
    (hs : R.shots[k]? = some s) (hp : p ∈ s.packets) {a : Arrival} (hsource : a.source = source)
    (hd : a.datagram = p.datagram) :
    Step R source l S run (.packet k p) (RunState.ingest (R.selection source) run a) := by
  have hsame : SameBooks run { run with validPackets := run.validPackets + 1 } :=
    ⟨rfl, rfl, rfl, rfl, rfl, rfl, rfl, rfl, rfl, rfl, rfl⟩
  have hkeeps : Keeps run { run with validPackets := run.validPackets + 1 } :=
    ⟨rfl, rfl, rfl, rfl, rfl, rfl, rfl, rfl⟩
  have hcounted : R.Follows S { run with validPackets := run.validPackets + 1 } :=
    hsame.follows h.follows
  rw [ingest_packet hs hp hsource hd]
  rcases hcounted.ingestShot h.runs.sound.1.nodup h.log_eq_nil hs hp hd with ⟨hl, heq⟩ |
    ⟨hl, hfull, heq⟩ | ⟨hl, S', run', heq, hdrains, hfollows, hkeeps', hnotes⟩
  · rw [heq]
    exact h.step_late ⟨s, hs, hp⟩ hl
  · rw [heq]
    exact .full rfl hl hfull ⟨h.selected, h.runs, hcounted, h.sends, h.heralded, h.profile,
      h.ended, h.noted⟩ hkeeps
  · rw [heq]
    exact h.step_fresh hs hp hl hdrains hfollows (hkeeps.trans hkeeps') hnotes

/-- One more item. -/
theorem step (h : Ingested R source l S run) {i : Item} (hi : R.Sends i) {a : Arrival}
    (hsource : a.source = source) (hd : a.datagram = R.datagram i) :
    Step R source l S run i (RunState.ingest (R.selection source) run a) := by
  cases i with
  | packet k p =>
    obtain ⟨s, hs, hp⟩ := hi
    exact h.step_packet hs hp hsource hd
  | heartbeat => exact h.step_heartbeat hsource hd

theorem same (h : Ingested R source l S run) (hb : SameBooks run run')
    (hselected : run'.selected = run.selected) (hterminal : run'.terminal = run.terminal) :
    Ingested R source l S run' := by
  refine ⟨hselected.trans h.selected, h.runs, hb.follows h.follows, h.sends, ?_, ?_, ?_, ?_⟩
  · rw [hb.profile]
    exact h.heralded
  · unfold RunState.profileOf
    rw [hb.profile]
    exact h.profile
  · rw [hterminal]
    exact h.ended
  · rw [hterminal]
    exact h.noted

end Ingested

/-! ## Many items -/

open SentRun

/-- The arrival is the item, as the source sent it. -/
def Carries (R : SentRun) (source : Source) (a : Arrival) (i : Item) : Prop :=
  a.source = source ∧ a.datagram = R.datagram i ∧ R.Sends i

/-- The table was full when one of the items came in. -/
def Stuck (R : SentRun) (source : Source) (l : List Item) (run : RunState) : Prop :=
  ∃ l' S k p, l' ++ [.packet k p] <+: l ∧ R.Sends (.packet k p) ∧ Ingested R source l' S run ∧
    ¬ R.feed.Late S k ∧ Follows.Full S k

theorem Stuck.extend {source : Source} {l l' : List Item} (h : Stuck R source l run)
    (hl : l <+: l') : Stuck R source l' run := by
  obtain ⟨l₁, S, k, p, hp, hrest⟩ := h
  exact ⟨l₁, S, k, p, hp.trans hl, hrest⟩

/-- What becomes of a run: the items are ingested, or the recorder gives up. -/
inductive Yields (R : SentRun) (source : Source) (l : List Item) (run : RunState) :
    Except RunState RunState → Prop where
  | ok {S : Publisher Packet} {run' : RunState} (h : Ingested R source l S run')
      (hk : Keeps run run') : Yields R source l run (.ok run')
  | stuck {run' : RunState} (h : Stuck R source l run') (hk : Keeps run run') :
      Yields R source l run (.error run')

theorem Yields.after {source : Source} {l : List Item} {r : Except RunState RunState}
    (h : Yields R source l run' r) (hk : Keeps run run') : Yields R source l run r := by
  cases h with
  | ok h hk' => exact .ok h (hk.trans hk')
  | stuck h hk' => exact .stuck h (hk.trans hk')

theorem yields_ingest {source : Source} {l : List Item} {S : Publisher Packet}
    (h : Ingested R source l S run) {i : Item} {a : Arrival} (ha : Carries R source a i) :
    Yields R source (l ++ [i]) run (RunState.ingest (R.selection source) run a) := by
  have hstep := h.step ha.2.2 ha.1 ha.2.1
  generalize RunState.ingest (R.selection source) run a = r at hstep
  cases hstep with
  | @full k p run' hi hl hf h' hk =>
    subst hi
    exact .stuck ⟨l, S, k, p, List.prefix_refl _, ha.2.2, h', hl, hf⟩ hk
  | ok h' hk _ _ => exact .ok h' hk

theorem yields_ingestAll {source : Source} {l items : List Item} {S : Publisher Packet}
    {arrivals : List Arrival} (h : Ingested R source l S run)
    (ha : List.Forall₂ (Carries R source) arrivals items) :
    Yields R source (l ++ items) run (RunState.ingestAll (R.selection source) arrivals run) := by
  induction ha generalizing l S run with
  | nil =>
    rw [List.append_nil]
    exact .ok h (.refl run)
  | @cons a i arrivals items hai hrest ih =>
    have hlist : l ++ i :: items = l ++ [i] ++ items := by simp
    have hstep := yields_ingest h hai
    unfold RunState.ingestAll
    rw [List.foldlM_cons, hlist]
    generalize RunState.ingest (R.selection source) run a = r at hstep
    cases hstep with
    | ok h' hk => exact (ih h').after hk
    | stuck hs hk => exact .stuck (hs.extend (List.prefix_append ..)) hk

/-! ## The window -/

/-- The items before the first STREAM_INFO. -/
def window (l : List Item) : List Item := l.takeWhile (!·.announces)

/-- What the recorder ingests of a delivery that has a STREAM_INFO. -/
def effective (l : List Item) : List Item :=
  (window l).take maxPendingPackets ++ l.dropWhile (!·.announces)

theorem window_silent {l : List Item} (h : ∀ i ∈ l, i.announces = false) (rest : List Item) :
    window (l ++ rest) = l ++ window rest ∧
      (l ++ rest).dropWhile (!·.announces) = rest.dropWhile (!·.announces) := by
  have hall : ∀ i ∈ l, (!i.announces) = true := fun i hi => by rw [h i hi]; rfl
  exact ⟨List.takeWhile_append_of_pos hall, List.dropWhile_append_of_pos hall⟩

/-- From the first STREAM_INFO on every item is ingested. -/
theorem window_append {l : List Item} (h : ∃ i ∈ l, i.announces = true) (rest : List Item) :
    window (l ++ rest) = window l ∧ effective (l ++ rest) = effective l ++ rest := by
  obtain ⟨j, hj, ha⟩ := h
  have hdrop : l.dropWhile (!·.announces) ≠ [] := by
    intro hnil
    rw [List.dropWhile_eq_nil_iff] at hnil
    have := hnil j hj
    rw [ha] at this
    cases this
  have htake : (l.takeWhile (!·.announces)).length ≠ l.length := by
    intro hlen
    have hsplit := congrArg List.length
      (List.takeWhile_append_dropWhile (p := (!·.announces)) (l := l))
    rw [List.length_append] at hsplit
    exact hdrop (List.length_eq_zero_iff.mp (by omega))
  have hwindow : window (l ++ rest) = window l := by
    unfold window
    rw [List.takeWhile_append, if_neg htake]
  refine ⟨hwindow, ?_⟩
  unfold effective
  rw [hwindow, List.dropWhile_append, if_neg (by simpa using hdrop), List.append_assoc]

/-- The recorder has heard no STREAM_INFO yet. -/
structure Waiting (R : SentRun) (source : Source) (l : List Item) (run : RunState) : Prop where
  silent : ∀ i ∈ l, i.announces = false
  selected : run.selected = none
  profile : run.profile = none
  terminal : run.terminal = none
  pending : List.Forall₂ (Carries R source) run.pending (l.take maxPendingPackets)
  overflow : run.pendingOverflow = l.length - maxPendingPackets
  follows : R.Follows {} run

/-- The recorder after the items of a delivery. -/
inductive Session (R : SentRun) (source : Source) (l : List Item) (run : RunState) : Prop where
  | waiting (h : Waiting R source l run)
  | selected (ha : ∃ i ∈ l, i.announces = true) {S : Publisher Packet}
      (h : Ingested R source (effective l) S run)
      (ho : run.pendingOverflow = (window l).length - maxPendingPackets)

theorem Waiting.savePending {source : Source} {l : List Item} (h : Waiting R source l run)
    {i : Item} {a : Arrival} (ha : Carries R source a i) (hi : i.announces = false) :
    Waiting R source (l ++ [i]) (run.savePending a) ∧
      { run with pending := (run.savePending a).pending
                 pendingOverflow := (run.savePending a).pendingOverflow } = run.savePending a := by
  have hsilent : ∀ j ∈ l ++ [i], j.announces = false := by
    intro j hj
    rcases List.mem_append.mp hj with hj | hj
    · exact h.silent j hj
    · rw [List.mem_singleton.mp hj]
      exact hi
  have hlen : run.pending.length = min maxPendingPackets l.length := by
    rw [h.pending.length_eq, List.length_take]
  have hover := h.overflow
  unfold RunState.savePending
  by_cases hfull : run.pending.length = maxPendingPackets
  · rw [if_pos hfull]
    have hle : maxPendingPackets ≤ l.length := by omega
    have hsame : SameBooks run { run with pendingOverflow := run.pendingOverflow + 1 } :=
      ⟨rfl, rfl, rfl, rfl, rfl, rfl, rfl, rfl, rfl, rfl, rfl⟩
    refine ⟨⟨hsilent, h.selected, h.profile, h.terminal, ?_, ?_, hsame.follows h.follows⟩, rfl⟩
    · rw [List.take_append_of_le_length hle]
      exact h.pending
    · rw [List.length_append, List.length_singleton]
      dsimp only
      omega
  · rw [if_neg hfull]
    have hlt : l.length < maxPendingPackets := by omega
    have hsame : SameBooks run { run with pending := run.pending ++ [a] } :=
      ⟨rfl, rfl, rfl, rfl, rfl, rfl, rfl, rfl, rfl, rfl, rfl⟩
    refine ⟨⟨hsilent, h.selected, h.profile, h.terminal, ?_, ?_, hsame.follows h.follows⟩, rfl⟩
    · have hpending := h.pending
      rw [List.take_of_length_le (by omega)] at hpending
      rw [List.take_of_length_le (by rw [List.length_append, List.length_singleton]; omega)]
      exact List.rel_append hpending (.cons ha .nil)
    · rw [List.length_append, List.length_singleton]
      dsimp only
      omega

/-! ## One message -/

/-- What the recorder keeps from its start on, when nothing is wrong with the datagrams. -/
structure Started (o : Options) (drops : ℕ) (run : RunState) : Prop where
  maxShotBytes : run.maxShotBytes = o.maxShotBytes
  sourceFilter : run.sourceFilter = o.sourceFilter
  runContinuityError : run.runContinuityError = false
  interrupted : run.interrupted = false
  malformedPackets : run.malformedPackets = 0
  kernelDrops : run.kernelDrops = drops

theorem Started.keeps {o : Options} {drops : ℕ} (h : Started o drops run) (hk : Keeps run run') :
    Started o drops run' :=
  ⟨hk.maxShotBytes.trans h.maxShotBytes, hk.sourceFilter.trans h.sourceFilter,
    hk.runContinuityError.trans h.runContinuityError, hk.interrupted.trans h.interrupted,
    hk.malformedPackets.trans h.malformedPackets, hk.kernelDrops.trans h.kernelDrops⟩

theorem accepted_of_carries {source : Source} {i : Item} {a : Arrival}
    (h : Carries R source a i) : ∃ header, RunState.acceptedHeader a = some header ∧
      (header.packetType = .streamInfo ↔ i.announces = true) ∧
      header.runId = R.runId.toNat ∧ header.streamId = R.streamId.toNat := by
  obtain ⟨-, hd, hi⟩ := h
  cases i with
  | packet k p =>
    obtain ⟨s, hs, hp⟩ := hi
    obtain ⟨hrun, hstream, -, -, -⟩ := header_identity hs hp
    exact ⟨p.header, acceptedHeader_eq hp hd, decide_eq_true_iff.symm, hrun, hstream⟩
  | heartbeat =>
    refine ⟨_, acceptedHeader_heartbeat hd, ⟨nofun, nofun⟩, rfl, rfl⟩

/-- The recorder after one more item. -/
inductive Receives (R : SentRun) (source : Source) (o : Options) (drops : ℕ) (l : List Item) :
    Except RunState RunState → Prop where
  | ok {run : RunState} (h : Session R source l run) (hs : Started o drops run) :
      Receives R source o drops l (.ok run)
  | stuck {run : RunState} (ha : ∃ i ∈ l, i.announces = true)
      (h : Stuck R source (effective l) run) (hs : Started o drops run) :
      Receives R source o drops l (.error run)

variable {source : Source} {o : Options} {drops : ℕ} {l : List Item} {i : Item}

/-- The first STREAM_INFO selects the run. -/
theorem Waiting.started (h : Waiting R source l run) :
    Ingested R source [] {} { run with selected := some (R.selection source) } := by
  have hsame : SameBooks run { run with selected := some (R.selection source) } :=
    ⟨rfl, rfl, rfl, rfl, rfl, rfl, rfl, rfl, rfl, rfl, rfl⟩
  refine ⟨rfl, .nil, hsame.follows h.follows, nofun, fun _ => nofun, fun q hq => ?_, fun t ht => ?_,
    nofun⟩
  · unfold RunState.profileOf at hq
    dsimp only at hq
    rw [h.profile] at hq
    cases hq
  · dsimp only at ht
    rw [h.terminal] at ht
    cases ht

/-- Then the window is ingested, and the STREAM_INFO behind it. -/
theorem Waiting.validateAndIngest_eq (h : Waiting R source l run) {a : Arrival}
    (ha : Carries R source a i) (hi : i.announces = true) : run.validateAndIngest a =
      ({ run with selected := some (R.selection source) }.replayPending (R.selection source)).bind
        fun run => RunState.ingest (R.selection source) run a := by
  obtain ⟨header, haccepted, htype, hrunId, hstreamId⟩ := accepted_of_carries ha
  have hsel : (⟨a.source, header.runId, header.streamId⟩ : Selection) = R.selection source := by
    rw [ha.1, hrunId, hstreamId]
    rfl
  unfold RunState.validateAndIngest RunState.ingest
  rw [h.selected, haccepted]
  dsimp only
  rw [htype.mpr hi]
  dsimp only
  rw [hsel]

theorem Waiting.select (h : Waiting R source l run) (hst : Started o drops run) {a : Arrival}
    (ha : Carries R source a i) (hi : i.announces = true) :
    Receives R source o drops (l ++ [i]) (run.validateAndIngest a) := by
  have hwindow := window_silent h.silent [i]
  have hnil : window [i] = [] := by simp [window, hi]
  rw [hnil, List.append_nil] at hwindow
  have hall : effective (l ++ [i]) = l.take maxPendingPackets ++ [i] := by
    unfold effective
    rw [hwindow.1, hwindow.2]
    simp [hi]
  have hheard : ∃ j ∈ l ++ [i], j.announces = true := ⟨i, by simp, hi⟩
  have hst' : Started o drops { run with selected := some (R.selection source) } :=
    ⟨hst.maxShotBytes, hst.sourceFilter, hst.runContinuityError, hst.interrupted,
      hst.malformedPackets, hst.kernelDrops⟩
  have hreplay := yields_ingestAll h.started h.pending
  rw [h.validateAndIngest_eq ha hi, RunState.replayPending]
  dsimp only at hreplay ⊢
  rw [List.nil_append] at hreplay
  generalize RunState.ingestAll (R.selection source) run.pending
    { run with selected := some (R.selection source) } = r at hreplay
  cases hreplay with
  | @stuck run' hs hk =>
    have hs' : Stuck R source (l.take maxPendingPackets) { run' with pending := [] } := by
      obtain ⟨l', S, k, p, hp, hsends, h', hl, hf⟩ := hs
      exact ⟨l', S, k, p, hp, hsends,
        h'.same ⟨rfl, rfl, rfl, rfl, rfl, rfl, rfl, rfl, rfl, rfl, rfl⟩ rfl
        rfl, hl, hf⟩
    refine .stuck hheard ?_ (Started.keeps (hst'.keeps hk) ⟨rfl, rfl, rfl, rfl, rfl, rfl, rfl, rfl⟩)
    rw [hall]
    exact hs'.extend (List.prefix_append ..)
  | @ok S run' h' hk =>
    have hcleared : Ingested R source (l.take maxPendingPackets) S { run' with pending := [] } :=
      h'.same ⟨rfl, rfl, rfl, rfl, rfl, rfl, rfl, rfl, rfl, rfl, rfl⟩ rfl rfl
    have hkeeps : Keeps { run with selected := some (R.selection source) }
        { run' with pending := [] } :=
      hk.trans ⟨rfl, rfl, rfl, rfl, rfl, rfl, rfl, rfl⟩
    have hlast := (yields_ingest hcleared ha).after hkeeps
    rw [← hall] at hlast
    dsimp only [Except.bind]
    generalize RunState.ingest (R.selection source) { run' with pending := [] } a = r at hlast
    cases hlast with
    | stuck hs hk' => exact .stuck hheard hs (hst'.keeps hk')
    | ok h'' hk' =>
      refine .ok (.selected hheard h'' ?_) (hst'.keeps hk')
      rw [hk'.pendingOverflow, hwindow.1]
      exact h.overflow

theorem Session.validateAndIngest (h : Session R source l run) (hst : Started o drops run)
    {a : Arrival} (ha : Carries R source a i) :
    Receives R source o drops (l ++ [i]) (run.validateAndIngest a) := by
  cases h with
  | waiting h =>
    by_cases hi : i.announces = true
    · exact h.select hst ha hi
    · obtain ⟨header, haccepted, htype, -, -⟩ := accepted_of_carries ha
      obtain ⟨hsave, hsame⟩ := h.savePending ha (Bool.eq_false_iff.mpr hi)
      have heq : run.validateAndIngest a = .ok (run.savePending a) := by
        unfold RunState.validateAndIngest
        rw [h.selected, haccepted]
        dsimp only
        split
        · next ht => exact absurd (htype.mp ht) hi
        · rfl
      rw [heq]
      refine .ok (.waiting hsave) ?_
      rw [← hsame]
      exact ⟨hst.maxShotBytes, hst.sourceFilter, hst.runContinuityError, hst.interrupted,
        hst.malformedPackets, hst.kernelDrops⟩
  | selected hheard h ho =>
    obtain ⟨hwindow, heffective⟩ := window_append hheard [i]
    have heq : run.validateAndIngest a = RunState.ingest (R.selection source) run a := by
      unfold RunState.validateAndIngest
      rw [h.selected]
    have hheard' : ∃ j ∈ l ++ [i], j.announces = true := by
      obtain ⟨j, hj, hja⟩ := hheard
      exact ⟨j, List.mem_append_left _ hj, hja⟩
    have hlast := yields_ingest h ha
    rw [heq]
    rw [← heffective] at hlast
    generalize RunState.ingest (R.selection source) run a = r at hlast
    cases hlast with
    | stuck hs hk => exact .stuck hheard' hs (hst.keeps hk)
    | ok h' hk =>
      refine .ok (.selected hheard' h' ?_) (hst.keeps hk)
      rw [hk.pendingOverflow, hwindow]
      exact ho

/-- The drop counter of the socket after the messages. -/
def dropsOf (drops : ℕ) (messages : List RunState.Message) : ℕ :=
  messages.foldl (fun drops m => max drops (m.dropped.getD 0)) drops

theorem Session.same {run' : RunState} (h : Session R source l run) (hb : SameBooks run run')
    (hselected : run'.selected = run.selected) (hterminal : run'.terminal = run.terminal)
    (hpending : run'.pending = run.pending)
    (hoverflow : run'.pendingOverflow = run.pendingOverflow) : Session R source l run' := by
  cases h with
  | waiting h =>
    refine .waiting ⟨h.silent, hselected.trans h.selected, hb.profile.trans h.profile,
      hterminal.trans h.terminal, ?_, hoverflow.trans h.overflow, hb.follows h.follows⟩
    rw [hpending]
    exact h.pending
  | selected ha h ho => exact .selected ha (h.same hb hselected hterminal) (hoverflow.trans ho)

/-- The filter admits the sender. -/
def Admits (o : Options) (source : Source) : Prop :=
  o.sourceFilter.any (!sourceEqual source · false) = false

instance : Decidable (Admits o source) := inferInstanceAs (Decidable (_ = _))

/-- The message carries the item. -/
def Delivered (R : SentRun) (source : Source) (m : RunState.Message) (i : Item) : Prop :=
  m.truncated = false ∧ m.source = some source ∧ m.datagram = R.datagram i ∧ R.Sends i

theorem Session.receiveMessage (h : Session R source l run) (hst : Started o drops run)
    {m : RunState.Message} (hm : Delivered R source m i) :
    if Admits o source then
      Receives R source o (max drops (m.dropped.getD 0)) (l ++ [i]) (run.receiveMessage m)
    else Receives R source o (max drops (m.dropped.getD 0)) l (run.receiveMessage m) := by
  obtain ⟨htruncated, hsource, hd, hi⟩ := hm
  split
  · next hadmits =>
    have hheard : run.heard m = some ⟨source, m.receiveNs.toNat, m.datagram⟩ := by
      unfold RunState.heard
      rw [htruncated, hsource, hst.sourceFilter]
      exact if_neg (ne_true_of_eq_false hadmits)
    have hnoted : Session R source l (run.noted m) :=
      h.same ⟨rfl, rfl, rfl, rfl, rfl, rfl, rfl, rfl, rfl, rfl, rfl⟩ rfl rfl rfl rfl
    have hst' : Started o (max drops (m.dropped.getD 0)) (run.noted m) :=
      ⟨hst.maxShotBytes, hst.sourceFilter, hst.runContinuityError, hst.interrupted,
        hst.malformedPackets, congrArg (max · (m.dropped.getD 0)) hst.kernelDrops⟩
    rw [RunState.receiveMessage_heard hheard]
    exact hnoted.validateAndIngest hst' ⟨rfl, hd, hi⟩
  · next hadmits =>
    have hfilter : (run.noteDrops m.dropped).sourceFilter.any (!sourceEqual source · false) =
        true := by
      show run.sourceFilter.any _ = true
      rw [hst.sourceFilter]
      exact eq_true_of_ne_false hadmits
    have heq : run.receiveMessage m = .ok (run.noteDrops m.dropped) := by
      rw [RunState.receiveMessage, htruncated, hsource]
      exact if_pos hfilter
    rw [heq]
    refine .ok (h.same ⟨rfl, rfl, rfl, rfl, rfl, rfl, rfl, rfl, rfl, rfl, rfl⟩ rfl rfl rfl rfl) ?_
    exact ⟨hst.maxShotBytes, hst.sourceFilter, hst.runContinuityError, hst.interrupted,
      hst.malformedPackets, congrArg (max · (m.dropped.getD 0)) hst.kernelDrops⟩

/-- The recorder after all messages. -/
inductive ReceivesAll (R : SentRun) (source : Source) (o : Options) (drops : ℕ) (l : List Item) :
    Except RunState RunState → Prop where
  | ok {run : RunState} (h : Session R source l run) (hs : Started o drops run) :
      ReceivesAll R source o drops l (.ok run)
  | stuck {run : RunState} (ha : ∃ i ∈ l, i.announces = true)
      (h : Stuck R source (effective l) run) (hm : run.maxShotBytes = o.maxShotBytes) :
      ReceivesAll R source o drops l (.error run)

theorem Session.receiveAll (h : Session R source l run) (hst : Started o drops run)
    {messages : List RunState.Message} {items : List Item}
    (hd : Delivers R source messages items) :
    ReceivesAll R source o (dropsOf drops messages)
      (if Admits o source then l ++ items else l) (RunState.receiveAll messages run) := by
  induction hd generalizing l run drops with
  | nil =>
    rw [List.append_nil, ite_self]
    exact .ok h hst
  | @cons m i messages items hm hrest ih =>
    have hstep := h.receiveMessage hst hm
    have hdrops : dropsOf drops (m :: messages) =
        dropsOf (max drops (m.dropped.getD 0)) messages := rfl
    unfold RunState.receiveAll
    rw [List.foldlM_cons, hdrops]
    generalize run.receiveMessage m = r at hstep
    by_cases hadmits : Admits o source
    · have hlist : l ++ i :: items = l ++ [i] ++ items := by simp
      rw [if_pos hadmits] at hstep ⊢
      rw [hlist]
      cases hstep with
      | ok h' hst' =>
        have hnext := ih h' hst'
        rw [if_pos hadmits] at hnext
        exact hnext
      | stuck ha hs hst' =>
        obtain ⟨j, hj, hja⟩ := ha
        refine .stuck ⟨j, List.mem_append_left _ hj, hja⟩ ?_ hst'.maxShotBytes
        rw [(window_append ⟨j, hj, hja⟩ items).2]
        exact hs.extend (List.prefix_append ..)
    · rw [if_neg hadmits] at hstep ⊢
      cases hstep with
      | ok h' hst' =>
        have hnext := ih h' hst'
        rw [if_neg hadmits] at hnext
        exact hnext
      | stuck ha hs hst' => exact .stuck ha hs hst'.maxShotBytes

/-! ## A recording -/

/-- What the recorder hears of a delivery. -/
def heardItems (o : Options) (source : Source) (items : List Item) : List Item :=
  if Admits o source then items else []

/-- A recording of a delivery: no STREAM_INFO came in, or the recorder gave up, or it went to its
end, where what is left in the table is flushed. -/
inductive Recorded (R : SentRun) (source : Source) (o : Options) (drops : ℕ) (interrupted : Bool)
    (l : List Item) (out : Outcome) : Prop where
  | unheard (hl : ∀ i ∈ l, i.announces = false) (hstatus : out.status = true)
      (hclean : out.clean = false) (hselected : out.run.selected = none)
      (h : R.Follows {} out.run)
  | stuck (hl : ∃ i ∈ l, i.announces = true) (hstatus : out.status = false)
      (hclean : out.clean = false) (h : Stuck R source (effective l) out.run)
      (hm : out.run.maxShotBytes = o.maxShotBytes)
  | ended (hl : ∃ i ∈ l, i.announces = true) (hstatus : out.status = true)
      (hclean : out.clean = RunState.clean true out.run) {S S' : Publisher Packet}
      {run : RunState} (h : Ingested R source (effective l) S run) (hf : R.feed.Flushes S S')
      (h' : R.Follows S' out.run) (hm : out.run.maxShotBytes = o.maxShotBytes)
      (hselected : out.run.selected = run.selected) (hprofile : out.run.profile = run.profile)
      (hterminal : out.run.terminal = run.terminal)
      (hoverflow : out.run.pendingOverflow = (window l).length - maxPendingPackets)
      (hinterrupted : out.run.interrupted = interrupted)
      (hmalformed : out.run.malformedPackets = 0) (hdrops : out.run.kernelDrops = drops)
      (hcontinuity : out.run.runContinuityError = out.run.terminalBreaks)

theorem started_start (o : Options) : Started o 0 o.start := ⟨rfl, rfl, rfl, rfl, rfl, rfl⟩

theorem session_start (R : SentRun) (source : Source) (o : Options) :
    Session R source [] o.start := by
  refine .waiting ⟨nofun, rfl, rfl, rfl, .nil, rfl, ⟨.nil, ?_⟩⟩
  exact ⟨.nil, rfl, rfl, rfl, rfl, rfl, rfl, rfl⟩

theorem sameBooks_finish (run : RunState) (interrupted : Bool) :
    SameBooks { run with interrupted := interrupted }.finalizeRemaining
      (run.finish interrupted) := ⟨rfl, rfl, rfl, rfl, rfl, rfl, rfl, rfl, rfl, rfl, rfl⟩

/-- A recorder that has selected nothing ends without a record. -/
theorem Waiting.finish (h : Waiting R source l run) (interrupted : Bool) :
    (run.finish interrupted).selected = none ∧ R.Follows {} (run.finish interrupted) := by
  have hsame : SameBooks run { run with interrupted := interrupted } :=
    ⟨rfl, rfl, rfl, rfl, rfl, rfl, rfl, rfl, rfl, rfl, rfl⟩
  obtain ⟨S', hflush, hfollows, hkeeps⟩ :=
    (hsame.follows h.follows).finalizeRemaining List.nodup_nil
  rw [hflush.eq_of_nil rfl] at hfollows
  exact ⟨hkeeps.selected.trans h.selected, (sameBooks_finish run interrupted).follows hfollows⟩

/-- The verdict on the end of the run is its own when nothing broke before. -/
theorem finish_continuity {interrupted : Bool}
    (h : { run with interrupted := interrupted }.finalizeRemaining.runContinuityError = false) :
    (run.finish interrupted).runContinuityError = (run.finish interrupted).terminalBreaks := by
  have hbreaks : (run.finish interrupted).terminalBreaks =
      { run with interrupted := interrupted }.finalizeRemaining.terminalBreaks := rfl
  rw [hbreaks]
  unfold RunState.finish
  dsimp only
  rw [h, Bool.false_or]

/-- A whole recording. -/
theorem record_session {messages : List RunState.Message} {items : List Item}
    (hd : Delivers R source messages items) (o : Options) (interrupted : Bool) :
    Recorded R source o (dropsOf 0 messages) interrupted (heardItems o source items)
      (record o messages interrupted) := by
  have hall := (session_start R source o).receiveAll (started_start o) hd
  rw [List.nil_append] at hall
  obtain ⟨r, hr⟩ : ∃ r, RunState.receiveAll messages o.start = r := ⟨_, rfl⟩
  rw [hr] at hall
  unfold heardItems
  cases hall with
  | @stuck run ha hs hm =>
    rw [record_error hr]
    exact .stuck ha rfl rfl hs hm
  | @ok run h hst =>
    rw [record_ok hr]
    cases h with
    | waiting h =>
      obtain ⟨hselected, hfollows⟩ := h.finish interrupted
      refine .unheard h.silent rfl ?_ hselected hfollows
      unfold RunState.clean
      rw [hselected]
      simp
    | @selected ha S h ho =>
      have hsame : SameBooks run { run with interrupted := interrupted } :=
        ⟨rfl, rfl, rfl, rfl, rfl, rfl, rfl, rfl, rfl, rfl, rfl⟩
      obtain ⟨S', hflush, hfollows, hkeeps⟩ :=
        (hsame.follows h.follows).finalizeRemaining h.runs.sound.1.nodup
      exact .ended ha rfl rfl h hflush ((sameBooks_finish run interrupted).follows hfollows)
        (hkeeps.maxShotBytes.trans hst.maxShotBytes) hkeeps.selected hkeeps.profile hkeeps.terminal
        (hkeeps.pendingOverflow.trans ho) hkeeps.interrupted
        (hkeeps.malformedPackets.trans hst.malformedPackets)
        (hkeeps.kernelDrops.trans hst.kernelDrops)
        (finish_continuity (hkeeps.runContinuityError.trans hst.runContinuityError))

end QCrate.Recorder
