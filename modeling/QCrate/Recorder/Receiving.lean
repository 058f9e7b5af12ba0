import QCrate.Recorder.Publishing

/-!
# The recorder as a publisher: receiving

A datagram of a shot is a part that comes in: the entry of the shot takes it, an entry is opened for
a shot that has none, or the shot is late. Then the table is drained.

* `Holds.addToShot` — one packet into an entry.
* `late_iff_lastShot` — a shot is late for the recorder when it is for the publisher.
* `Follows.ingestShot` — one datagram of a shot.
-/

namespace QCrate.Recorder

open QCrate.Lib QCrate.DataPlane

variable {R : SentRun} {run : RunState} {s : SentShot} {shot : ShotState}

/-! ## The wire -/

theorem acceptedHeader_eq {a : Arrival} {p : Packet} (hp : p ∈ s.packets)
    (hd : a.datagram = p.datagram) : RunState.acceptedHeader a = some p.header := by
  have hlen := Config.datagram_length_le s.accepts hp
  unfold RunState.acceptedHeader
  rw [hd, if_neg (Nat.not_lt.mpr hlen), Config.decode_datagram s.accepts hp]

theorem heartbeat_inRange (R : SentRun) : R.heartbeat.header.InRange where
  headerBytes := rfl
  payloadFormat := (by decide : formatNone < 256 ^ 2)
  flags := (by decide : flagEndOfStream < 256 ^ 4)
  streamId := R.streamId.toNat_lt
  runId := R.runId.toNat_lt
  shotId := UInt64.toNat_lt _
  packetSequence := UInt64.toNat_lt _
  frameId := (by decide : 0 < 256 ^ 4)
  sampleOffset := (by decide : 0 < 256 ^ 4)
  sampleCount := (by decide : 0 < 256 ^ 2)
  sampleBytes := (by decide : 0 < 256 ^ 2)
  timestampTicks := (by decide : 0 < 256 ^ 8)

theorem heartbeat_length (R : SentRun) : R.heartbeat.datagram.length = headerBytes := by
  unfold Packet.datagram
  rw [List.length_append, Header.length_bytes]
  rfl

theorem acceptedHeader_heartbeat {a : Arrival} (hd : a.datagram = R.heartbeat.datagram) :
    RunState.acceptedHeader a = some R.heartbeat.header := by
  have hdecode : Header.decode R.heartbeat.datagram = .ok R.heartbeat.header :=
    Header.decode_encode (heartbeat_inRange R) _
  unfold RunState.acceptedHeader
  rw [hd, heartbeat_length, if_neg (by decide), hdecode]

theorem header_identity {k : ℕ} {p : Packet} (hs : R.shots[k]? = some s) (hp : p ∈ s.packets) :
    p.header.runId = R.runId.toNat ∧ p.header.streamId = R.streamId.toNat ∧
      p.header.shotId = s.shotId ∧ p.header.headerBytes = headerBytes ∧
      p.header.packetType ≠ .heartbeat := by
  obtain ⟨hstream, hrun⟩ := R.identity s (List.mem_of_getElem? hs)
  have hinfo : ∀ q : Packet, q.header.runId = s.config.runId.toNat →
      q.header.runId = R.runId.toNat := fun q hq => by rw [hq, hrun]
  have hstr : ∀ q : Packet, q.header.streamId = s.config.streamId.toNat →
      q.header.streamId = R.streamId.toNat := fun q hq => by rw [hq, hstream]
  have hbytes := (Config.shotPackets_inRange s.accepts hp).headerBytes
  rcases Config.mem_shotPackets hp with rfl | hd | rfl
  · exact ⟨hinfo _ rfl, hstr _ rfl, rfl, hbytes, nofun⟩
  · obtain ⟨f, o, q, -, -, -, rfl⟩ := Config.mem_dataPackets hd
    exact ⟨hinfo _ rfl, hstr _ rfl, rfl, hbytes, nofun⟩
  · exact ⟨hinfo _ rfl, hstr _ rfl, rfl, hbytes, nofun⟩

/-! ## One packet into an entry -/

namespace Holds

variable {held : Packet → Bool}

theorem mem_packets (h : Holds s held shot) {r : PacketRecord} :
    r ∈ shot.packets ↔ ∃ p ∈ s.packets, held p = true ∧ kept p = r := by
  rw [h.packets.mem_iff, List.mem_map]
  simp only [List.mem_filter, and_assoc]

/-- A packet that is there already changes counters only. -/
theorem addPacket_held (h : Holds s held shot) {p : Packet} (hp : p ∈ s.packets)
    (hh : held p = true) (ns : ℕ) :
    ∃ shot', shot.addPacket p.header ns p.datagram = (false, shot') ∧ Holds s held shot' := by
  have hmem : kept p ∈ shot.packets := h.mem_packets.mpr ⟨p, hp, hh, rfl⟩
  have hfind : shot.packets.find? (·.header.packetSequence = p.header.packetSequence) =
      some (kept p) := by
    obtain ⟨r, hr⟩ := Option.isSome_iff_exists.mp (List.find?_isSome.mpr
      ⟨kept p, hmem, decide_eq_true rfl⟩ : (shot.packets.find?
        (·.header.packetSequence = p.header.packetSequence)).isSome)
    obtain ⟨q, hq, -, rfl⟩ := h.mem_packets.mp (List.mem_of_find?_eq_some hr)
    have hseq := List.find?_some hr
    rw [decide_eq_true_eq] at hseq
    rw [hr, Config.eq_of_sequence_eq hq hp hseq]
  unfold ShotState.addPacket
  have htouch : (shot.touch ns).packets = shot.packets := rfl
  dsimp only
  rw [htouch, hfind]
  have hsame : (kept p).datagram = p.datagram := rfl
  dsimp only
  rw [if_pos hsame]
  exact ⟨_, rfl, ⟨h.shotId, h.packets, h.info, h.shotEnd, h.issueFlags, h.conflictingPackets⟩⟩

/-- A new packet goes to the end of the list. -/
theorem addPacket_new (h : Holds s held shot) {p : Packet} (hp : p ∈ s.packets)
    (hh : held p = false) (ns : ℕ) :
    ∃ shot', shot.addPacket p.header ns p.datagram = (true, shot') ∧
      shot'.shotId = s.shotId ∧
      shot'.packets.Perm ((s.packets.filter fun q => q = p || held q).map kept) ∧
      shot'.info = shot.info ∧ shot'.shotEnd = shot.shotEnd ∧ shot'.issueFlags = 0 ∧
      shot'.conflictingPackets = 0 := by
  have hfind : shot.packets.find? (·.header.packetSequence = p.header.packetSequence) = none := by
    rw [List.find?_eq_none]
    intro r hr hseq
    obtain ⟨q, hq, hqh, rfl⟩ := h.mem_packets.mp hr
    rw [decide_eq_true_eq] at hseq
    rw [Config.eq_of_sequence_eq hq hp hseq, hh] at hqh
    cases hqh
  have hperm : (shot.packets ++ [kept p]).Perm
      ((s.packets.filter fun q => q = p || held q).map kept) := by
    have hnodup : s.packets.Nodup :=
      (Config.shotPackets_pairwise s.config s.samples).imp fun {a b} hlt he => by
        rw [he] at hlt
        exact lt_irrefl _ hlt
    have hfilter : (p :: s.packets.filter held).Perm
        (s.packets.filter fun q => q = p || held q) := by
      refine (List.perm_ext_iff_of_nodup ?_ (hnodup.filter _)).mpr fun q => ?_
      · exact List.nodup_cons.mpr ⟨by simp [hh], hnodup.filter _⟩
      · simp only [List.mem_cons, List.mem_filter, Bool.or_eq_true, decide_eq_true_eq]
        constructor
        · rintro (rfl | ⟨hq, hqh⟩)
          · exact ⟨hp, .inl rfl⟩
          · exact ⟨hq, .inr hqh⟩
        · rintro ⟨hq, rfl | hqh⟩
          · exact .inl rfl
          · exact .inr ⟨hq, hqh⟩
    refine ((h.packets.append_right [kept p]).trans (List.perm_append_singleton _ _)).trans ?_
    exact hfilter.map kept
  unfold ShotState.addPacket
  have htouch : (shot.touch ns).packets = shot.packets := rfl
  dsimp only
  rw [htouch, hfind]
  exact ⟨_, rfl, h.shotId, hperm, rfl, rfl, h.issueFlags, h.conflictingPackets⟩

end Holds

/-- The run with another profile and another end. -/
def RunState.noting (run : RunState) (profile : Option (Header × StreamInfo))
    (terminal : Option Terminal) : RunState :=
  { run with profile := profile, terminal := terminal }

/-- The profile after a packet of a shot. -/
def SentShot.profileAfter (s : SentShot) (p : Packet) (profile : Option (Header × StreamInfo)) :
    Option (Header × StreamInfo) :=
  if p = s.infoPacket then profile.or (some (s.infoPacket.header, s.config.streamInfo)) else profile

theorem decode_streamInfo (s : SentShot) :
    StreamInfo.decode s.infoPacket.payload = .ok s.config.streamInfo ∧
      s.infoPacket.payload.length = streamInfoBytes :=
  ⟨StreamInfo.decode_encode (Config.streamInfo_inRange s.config), StreamInfo.length_encode _⟩

/-- The end of the run after a packet of a shot. -/
def SentShot.terminalAfter (s : SentShot) (p : Packet) (terminal : Option Terminal) :
    Option Terminal :=
  if p = s.endPacket ∧ s.config.endOfStream = true then
    some ⟨true, s.endPacket.header.packetSequence, s.shotId⟩
  else terminal

theorem decode_shotEnd (s : SentShot) :
    ShotEnd.decode s.endPacket.payload = .ok (s.config.shotEnd s.samples) ∧
      s.endPacket.payload.length = shotEndBytes :=
  ⟨ShotEnd.decode_encode (Config.shotEnd_inRange s.accepts), ShotEnd.length_encode _⟩

theorem endFlags_eq (s : SentShot) :
    (s.config.shotEnd s.samples).endFlags &&& flagEndOfStream ≠ 0 ↔
      s.config.endOfStream = true := by
  show (flagPayloadCrcValid ||| if s.config.endOfStream then flagEndOfStream else 0) &&&
    flagEndOfStream ≠ 0 ↔ _
  cases s.config.endOfStream <;> decide

theorem SentShot.infoPacket_ne_endPacket (s : SentShot) : s.infoPacket ≠ s.endPacket := by
  intro he
  have htype : s.infoPacket.header.packetType = s.endPacket.header.packetType := by rw [he]
  cases htype

/-- An entry after a new packet. -/
def ShotState.noting (shot : ShotState) (s : SentShot) (p : Packet) : ShotState :=
  { shot with
    info :=
      if p = s.infoPacket then some (s.infoPacket.header, s.config.streamInfo) else shot.info
    shotEnd :=
      if p = s.endPacket then some (s.endPacket.header, s.config.shotEnd s.samples)
      else shot.shotEnd }

/-- STREAM_INFO and SHOT_END of a shot say what they say, DATA says nothing. -/
theorem absorb_eq (run : RunState) {p : Packet} (hp : p ∈ s.packets)
    (hi : p = s.infoPacket → shot.info = none) (he : p = s.endPacket → shot.shotEnd = none) :
    run.absorb shot p.header p.payload =
      (run.noting (s.profileAfter p run.profile) (s.terminalAfter p run.terminal),
        shot.noting s p) := by
  have hne := s.infoPacket_ne_endPacket
  rcases Config.mem_shotPackets hp with hp | hd | hp
  · have hpi : p = s.infoPacket := hp
    obtain ⟨hdecode, hlen⟩ := decode_streamInfo s
    have htype : s.infoPacket.header.packetType = .streamInfo := rfl
    have hinfo := hi hpi
    subst hpi
    simp [RunState.absorb, htype, RunState.absorbInfo, hdecode, hlen, ShotState.haveInfo, hinfo,
      RunState.noting, ShotState.noting, SentShot.profileAfter, SentShot.terminalAfter, hne]
  · obtain ⟨f, o, q, -, -, -, rfl⟩ := Config.mem_dataPackets hd
    have htype : (s.config.dataPacket s.samples f o q).header.packetType = .data := rfl
    have hni : s.config.dataPacket s.samples f o q ≠ s.infoPacket := fun he => by
      rw [he] at htype
      cases htype
    have hne' : s.config.dataPacket s.samples f o q ≠ s.endPacket := fun he => by
      rw [he] at htype
      cases htype
    simp [RunState.absorb, htype, RunState.noting, ShotState.noting, SentShot.profileAfter,
      SentShot.terminalAfter, hni, hne']
  · have hpe : p = s.endPacket := hp
    obtain ⟨hdecode, hlen⟩ := decode_shotEnd s
    have htype : s.endPacket.header.packetType = .shotEnd := rfl
    have hid : s.endPacket.header.shotId = s.shotId := rfl
    have hend := he hpe
    have hflags := endFlags_eq s
    subst hpe
    by_cases heos : s.config.endOfStream = true
    · have hset := hflags.mpr heos
      simp [RunState.absorb, htype, RunState.absorbEnd, hdecode, hlen, hend, hset, heos, hid,
        RunState.noting, ShotState.noting, SentShot.profileAfter, SentShot.terminalAfter, hne.symm]
    · have hset := mt hflags.mp heos
      rw [not_not] at hset
      simp [RunState.absorb, htype, RunState.absorbEnd, hdecode, hlen, hend, hset, heos,
        RunState.noting, ShotState.noting, SentShot.profileAfter, SentShot.terminalAfter, hne.symm]

namespace Holds

variable {held : Packet → Bool}

/-- A packet of the shot is taken in. A repeated one changes nothing but counters. -/
theorem addToShot (h : Holds s held shot) {p : Packet} (hp : p ∈ s.packets) {a : Arrival}
    (hd : a.datagram = p.datagram) (run : RunState) :
    ∃ shot', Holds s (fun q => q = p || held q) shot' ∧ run.addToShot shot p.header a =
      ((if held p then run else
        run.noting (s.profileAfter p run.profile) (s.terminalAfter p run.terminal)).putShot
          shot').finalizeReady := by
  unfold RunState.addToShot
  rw [hd]
  cases hh : held p with
  | true =>
    obtain ⟨shot', hadd, hholds⟩ := h.addPacket_held hp hh a.receiveNs
    have hsame : (fun q => decide (q = p) || held q) = held := by
      funext q
      by_cases hq : q = p
      · simp [hq, hh]
      · simp [hq]
    rw [hadd, hsame]
    exact ⟨shot', hholds, rfl⟩
  | false =>
    obtain ⟨shot', hadd, hid, hperm, hinfo, hend, hissues, hconflicts⟩ :=
      h.addPacket_new hp hh a.receiveNs
    have hpayload : p.datagram.drop p.header.headerBytes = p.payload := s.kept_payload hp
    rw [hadd, hpayload]
    dsimp only
    rw [h.info] at hinfo
    rw [h.shotEnd] at hend
    have hnoinfo : p = s.infoPacket → shot'.info = none := fun hi => by
      rw [hinfo, ← hi, hh]
      rfl
    have hnoend : p = s.endPacket → shot'.shotEnd = none := fun he => by
      rw [hend, ← he, hh]
      rfl
    rw [absorb_eq run hp hnoinfo hnoend]
    refine ⟨shot'.noting s p, ⟨hid, hperm, ?_, ?_, hissues, hconflicts⟩, rfl⟩
    · simp only [ShotState.noting, hinfo, Bool.or_eq_true, decide_eq_true_eq]
      by_cases hpi : p = s.infoPacket
      · simp [hpi]
      · simp [hpi, Ne.symm hpi]
    · simp only [ShotState.noting, hend, Bool.or_eq_true, decide_eq_true_eq]
      by_cases hpe : p = s.endPacket
      · simp [hpe]
      · simp [hpe, Ne.symm hpe]

end Holds

/-! ## The table -/

/-- The entry of a shot is found, or is to be opened; either way the table takes the part in. -/
theorem findShot_shows {table : List (Entry Packet)} {shots : List ShotState} {k : ℕ}
    (h : List.Forall₂ R.Shows table shots) (hs : R.shots[k]? = some s) :
    (∃ held shot, shots.find? (·.shotId = s.shotId) = some shot ∧ Holds s held shot ∧
      (∃ e ∈ table, e.unit = k ∧ e.held = held) ∧
      ∀ p shot', Holds s (fun q => q = p || held q) shot' →
        List.Forall₂ R.Shows (addPart k p table) (overwrite shot' shots)) ∨
    (shots.find? (·.shotId = s.shotId) = none ∧ (∀ e ∈ table, e.unit ≠ k) ∧
      ∀ p shot', Holds s (fun q => q = p || false) shot' →
        List.Forall₂ R.Shows (addPart k p table)
          (overwrite shot' (shots ++ [{ shotId := s.shotId }]))) := by
  induction h with
  | nil =>
    refine .inr ⟨rfl, nofun, fun p shot' hh => ?_⟩
    have hid : overwrite shot' [{ shotId := s.shotId }] = [shot'] := if_pos hh.shotId.symm
    rw [List.nil_append, hid]
    refine .cons ⟨s, hs, ?_⟩ .nil
    simpa only [Bool.or_false] using hh
  | @cons e shot table shots he htl ih =>
    obtain ⟨s', hs', hh⟩ := he
    by_cases hid : shot.shotId = s.shotId
    · have hu : e.unit = k := SentRun.shotId_inj hs' hs (hh.shotId.symm.trans hid)
      rw [hu, hs] at hs'
      cases hs'
      refine .inl ⟨e.held, shot, by simp [hid], hh, ⟨e, List.mem_cons_self, hu, rfl⟩,
        fun p shot' hh' => ?_⟩
      rw [addPart, if_pos hu, overwrite, if_pos (hid.trans hh'.shotId.symm)]
      exact .cons ⟨s, hs, hh'⟩ htl
    · have hu : e.unit ≠ k := fun hu => by
        rw [hu, hs] at hs'
        cases hs'
        exact hid hh.shotId
      have hfind : (shot :: shots).find? (·.shotId = s.shotId) =
          shots.find? (·.shotId = s.shotId) := List.find?_cons_of_neg (by simpa using hid)
      have hput : ∀ (shot' : ShotState) (rest : List ShotState), shot'.shotId = s.shotId →
          overwrite shot' (shot :: rest) = shot :: overwrite shot' rest := fun shot' rest hid' =>
        if_neg fun he => hid (he.trans hid')
      rw [hfind]
      rcases ih with ⟨held, found, hfound, hheld, ⟨f, hf, hfu⟩, hnext⟩ | ⟨hnone, hall, hnext⟩
      · refine .inl ⟨held, found, hfound, hheld, ⟨f, List.mem_cons_of_mem _ hf, hfu⟩,
          fun p shot' hh' => ?_⟩
        rw [addPart, if_neg hu, hput _ _ hh'.shotId]
        exact .cons ⟨s', hs', hh⟩ (hnext p shot' hh')
      · refine .inr ⟨hnone, fun f hf => ?_, fun p shot' hh' => ?_⟩
        · rcases List.mem_cons.mp hf with rfl | hf
          · exact hu
          · exact hall f hf
        · rw [addPart, if_neg hu, List.cons_append, hput _ _ hh'.shotId]
          exact .cons ⟨s', hs', hh⟩ (hnext p shot' hh')

/-- An entry that was just opened. -/
theorem holds_fresh (s : SentShot) : Holds s (fun _ => false) { shotId := s.shotId } where
  shotId := rfl
  packets := by
    rw [List.filter_false]
    exact .nil
  info := rfl
  shotEnd := rfl
  issueFlags := rfl
  conflictingPackets := rfl

/-- A shot is late for the recorder when it is for the publisher. -/
theorem late_iff_lastShot {k : ℕ} (hs : R.shots[k]? = some s) (S : Publisher Packet) :
    R.feed.Late S k ↔ (R.lastShot S.log).any (s.shotId ≤ ·.shotId) = true := by
  have hlast : ∀ log : List (Entry Packet), R.lastShot log =
      (log.filter R.feed.marking).getLast?.bind fun e => R.shots[e.unit]?.map fun s' =>
        ⟨s'.shotId, s'.heldTimestamp e.held⟩ := by
    intro log
    induction log using List.reverseRecOn with
    | nil => rfl
    | append_singleton log e ih =>
      rw [List.filter_append, List.getLast?_append]
      cases hu : R.shots[e.unit]? with
      | none =>
        have hm : R.feed.marking e = false := by
          unfold Feed.marking SentRun.feed
          simp [hu]
        unfold SentRun.lastShot at ih ⊢
        rw [List.filterMap_append, List.getLast?_append, ih]
        simp [hu, hm]
      | some s' =>
        rw [R.lastShot_concat log hu, ih]
        by_cases ht : s'.heldTimestamp e.held = 0
        · have hm : R.feed.marking e = false :=
            Bool.eq_false_iff.mpr fun hm => (R.marking_iff hu).mp hm ht
          simp [ht, hm]
        · have hm : R.feed.marking e = true := (R.marking_iff hu).mpr ht
          simp [ht, hm, hu]
  unfold Feed.Late
  rw [hlast, Option.any_eq_true]
  constructor
  · rintro ⟨e, he, hk⟩
    have hm := (List.mem_filter.mp (List.mem_of_getLast? he)).2
    cases hu : R.shots[e.unit]? with
    | none =>
      unfold Feed.marking SentRun.feed at hm
      simp [hu] at hm
    | some s' =>
      refine ⟨⟨s'.shotId, s'.heldTimestamp e.held⟩, by simp [he, hu], ?_⟩
      rw [decide_eq_true_eq]
      exact (SentRun.shotId_le_iff hs hu).mpr hk
  · rintro ⟨l, hl, hle⟩
    obtain ⟨e, he, hl⟩ := Option.bind_eq_some_iff.mp hl
    obtain ⟨s', hu, rfl⟩ := Option.map_eq_some_iff.mp hl
    exact ⟨e, he, (SentRun.shotId_le_iff hs hu).mp (of_decide_eq_true hle)⟩

/-! ## One datagram of a shot -/

theorem SentRun.Logged.noting {log : List (Entry Packet)} (h : R.Logged log run)
    (hlog : run.profile = none → log = []) {profile : Option (Header × StreamInfo)}
    (hprofile : run.profile = none ∨ profile = run.profile) (terminal : Option Terminal) :
    R.Logged log (run.noting profile terminal) := by
  rcases hprofile with hnone | rfl
  · obtain rfl := hlog hnone
    have hindex : run.index = [] := List.forall₂_nil_left_iff.mp h.index
    refine ⟨?_, h.samples, h.sampleOffset, h.expectedSequence, h.lastShot, h.complete,
      h.incomplete, h.conflictingPackets⟩
    rw [RunState.noting, hindex]
    exact .nil
  · exact ⟨h.index, h.samples, h.sampleOffset, h.expectedSequence, h.lastShot, h.complete,
      h.incomplete, h.conflictingPackets⟩

theorem SentShot.profileAfter_eq (s : SentShot) (p : Packet)
    (profile : Option (Header × StreamInfo)) :
    profile = none ∨ s.profileAfter p profile = profile := by
  unfold SentShot.profileAfter
  cases profile with
  | none => exact .inl rfl
  | some q => exact .inr (by simp)

/-- What a packet that was there already notes, and what a new one does. -/
def SentShot.Notes (s : SentShot) (S : Publisher Packet) (k : ℕ) (p : Packet)
    (run run' : RunState) : Prop :=
  ((∃ e ∈ S.table, e.unit = k ∧ e.held p = true) ∧ run'.profile = run.profile ∧
    run'.terminal = run.terminal) ∨
  (run'.profile = s.profileAfter p run.profile ∧ run'.terminal = s.terminalAfter p run.terminal)

namespace SentRun.Follows

variable {S : Publisher Packet}

/-- What the entry of the shot takes in, and then the table is drained. -/
theorem putShot (h : R.Follows S run) {k : ℕ} {p : Packet} {table : List (Entry Packet)}
    (hlog : run.profile = none → S.log = []) (hn : (table.map (·.unit)).Nodup)
    {held : Bool} {shots : List ShotState} {opened : List ℕ} {shot' : ShotState} {run₁ : RunState}
    (hrun : run₁ = if held then { run with shots := shots, opened := opened } else
      { run with shots := shots, opened := opened }.noting (s.profileAfter p run.profile)
        (s.terminalAfter p run.terminal))
    (hnotes : held = true → ∃ e ∈ S.table, e.unit = k ∧ e.held p = true)
    (htable : List.Forall₂ R.Shows table (overwrite shot' shots)) :
    ∃ S', R.feed.Drains ⟨table, S.log⟩ S' ∧ R.Follows S' (run₁.putShot shot').finalizeReady ∧
      Keeps run (run₁.putShot shot').finalizeReady ∧
      s.Notes S k p run (run₁.putShot shot').finalizeReady := by
  cases held with
  | true =>
    subst hrun
    have hl := h.logged
    have hfollows : R.Follows ⟨table, S.log⟩
        ({ run with shots := shots, opened := opened }.putShot shot') :=
      ⟨htable, ⟨hl.index, hl.samples, hl.sampleOffset, hl.expectedSequence, hl.lastShot,
        hl.complete, hl.incomplete, hl.conflictingPackets⟩⟩
    obtain ⟨S', hd, hf, hkeeps⟩ := hfollows.finalizeReady hn
    have hsame : Keeps run ({ run with shots := shots, opened := opened }.putShot shot') :=
      ⟨rfl, rfl, rfl, rfl, rfl, rfl, rfl, rfl⟩
    exact ⟨S', hd, hf, hsame.trans hkeeps.toKeeps,
      .inl ⟨hnotes rfl, hkeeps.profile, hkeeps.terminal⟩⟩
  | false =>
    subst hrun
    have hl := h.logged.noting hlog (s.profileAfter_eq p run.profile)
      (s.terminalAfter p run.terminal)
    have hfollows : R.Follows ⟨table, S.log⟩ (({ run with shots := shots, opened := opened }.noting
        (s.profileAfter p run.profile) (s.terminalAfter p run.terminal)).putShot shot') :=
      ⟨htable, ⟨hl.index, hl.samples, hl.sampleOffset, hl.expectedSequence, hl.lastShot,
        hl.complete, hl.incomplete, hl.conflictingPackets⟩⟩
    obtain ⟨S', hd, hf, hkeeps⟩ := hfollows.finalizeReady hn
    have hsame : Keeps run (({ run with shots := shots, opened := opened }.noting
        (s.profileAfter p run.profile) (s.terminalAfter p run.terminal)).putShot shot') :=
      ⟨rfl, rfl, rfl, rfl, rfl, rfl, rfl, rfl⟩
    exact ⟨S', hd, hf, hsame.trans hkeeps.toKeeps, .inr ⟨hkeeps.profile, hkeeps.terminal⟩⟩

/-- The table is full and has no entry of the shot. -/
def Full (S : Publisher Packet) (k : ℕ) : Prop :=
  S.table.length = maxActiveShots ∧ ∀ e ∈ S.table, e.unit ≠ k

/-- A datagram of a shot is a part that comes in. -/
theorem ingestShot (h : R.Follows S run) (hn : (S.table.map (·.unit)).Nodup)
    (hlog : run.profile = none → S.log = []) {k : ℕ} {p : Packet} (hs : R.shots[k]? = some s)
    (hp : p ∈ s.packets) {a : Arrival} (hd : a.datagram = p.datagram) :
    (R.feed.Late S k ∧
      run.ingestShot p.header a = .ok { run with latePackets := run.latePackets + 1 }) ∨
    (¬ R.feed.Late S k ∧ Full S k ∧ run.ingestShot p.header a = .error run) ∨
    (¬ R.feed.Late S k ∧ ∃ S' run', run.ingestShot p.header a = .ok run' ∧
      R.feed.Drains ⟨addPart k p S.table, S.log⟩ S' ∧ R.Follows S' run' ∧ Keeps run run' ∧
      s.Notes S k p run run') := by
  obtain ⟨-, -, hid, -, -⟩ := header_identity hs hp
  have hlate := late_iff_lastShot hs S
  rw [← h.logged.lastShot] at hlate
  unfold RunState.ingestShot
  rw [hid]
  by_cases hl : R.feed.Late S k
  · rw [if_pos (hlate.mp hl)]
    exact .inl ⟨hl, rfl⟩
  · rw [if_neg (mt hlate.mpr hl)]
    unfold RunState.findShot
    rcases findShot_shows h.table hs with ⟨held, shot, hfind, hh, ⟨e, he, hu, heh⟩, hnext⟩ |
      ⟨hfind, hall, hnext⟩
    · rw [hfind]
      obtain ⟨shot', hh', heq⟩ := hh.addToShot hp hd run
      obtain ⟨S', hdr, hf, hkeeps, hnotes⟩ := h.putShot hlog (addPart_nodup (p := p) hn) rfl
        (fun hheld => ⟨e, he, hu, by rw [heh]; exact hheld⟩) (hnext p shot' hh')
      dsimp only
      rw [heq]
      exact .inr (.inr ⟨hl, S', _, rfl, hdr, hf, hkeeps, hnotes⟩)
    · rw [hfind]
      unfold RunState.createShot
      by_cases hfull : run.shots.length = maxActiveShots
      · rw [if_pos hfull]
        exact .inr (.inl ⟨hl, ⟨h.table.length_eq.trans hfull, hall⟩, rfl⟩)
      · rw [if_neg hfull]
        obtain ⟨shot', hh', heq⟩ := (holds_fresh s).addToShot hp hd { run with
          shots := run.shots ++ [{ shotId := s.shotId }], opened := run.opened ++ [s.shotId] }
        obtain ⟨S', hdr, hf, hkeeps, hnotes⟩ := h.putShot hlog (addPart_nodup (p := p) hn) rfl
          (fun hheld => absurd hheld Bool.false_ne_true) (hnext p shot' hh')
        dsimp only
        rw [heq]
        exact .inr (.inr ⟨hl, S', _, rfl, hdr, hf, hkeeps, hnotes⟩)

end SentRun.Follows

end QCrate.Recorder
