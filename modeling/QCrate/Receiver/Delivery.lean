import QCrate.Receiver.Order
import QCrate.DataPlane.Layout

/-!
# Deliveries of one shot

Every datagram of a shot is accepted by the Python codec, whatever order the datagrams arrive in
and however often, and the assembler ends with the packets that arrived.

* `decodePacket_packet` — the receiver reads what the packetizer wrote.
* `Collected.routeAll`, `Collected.ingestAll` — a delivery adds the packets it carries.
* `waiting` — before the first STREAM_INFO datagrams wait in their order.
-/

namespace QCrate.Receiver

open QCrate.Lib QCrate.DataPlane
open QCrate.Recorder (Source)

variable {c : Config} {samples : Bytes}

/-! ## The wire -/

/-- The header of a datagram of the shot is read back. -/
theorem decodeHeader_packet (h : c.Accepts samples) {p : Packet}
    (hp : p ∈ c.shotPackets samples) : decodeHeader p.datagram = .ok p.header := by
  refine decodeHeader_eq_ok.mpr ⟨Config.decode_datagram h hp, ?_⟩
  have hformat := h.format
  unfold formatCounterU32Le formatIqS16Le at hformat
  rcases Config.mem_shotPackets hp with rfl | hp | rfl
  · show c.payloadFormat.toNat ≤ 2
    omega
  · obtain ⟨f, o, q, -, -, -, rfl⟩ := Config.mem_dataPackets hp
    show c.payloadFormat.toNat ≤ 2
    omega
  · exact Nat.zero_le _

/-- A payload of the shot matches the checksum and length of its header. -/
theorem validatePayload_packet (h : c.Accepts samples) {p : Packet}
    (hp : p ∈ c.shotPackets samples) : validatePayload p.header p.payload = .ok () := by
  have hformat : c.payloadFormat.toNat ≠ formatNone := by
    rcases h.format with hf | hf <;> rw [hf] <;> decide
  rcases Config.mem_shotPackets hp with rfl | hp | rfl
  · simp [validatePayload, Config.infoPacket, Config.header, hformat, sampleBytesOf, h.sampleBytes,
      expectedPayload]
  · obtain ⟨f, o, q, hf, ho, -, rfl⟩ := Config.mem_dataPackets hp
    have hpos := h.sampleCountAt_pos ho
    have hlen := Config.payload_length h hf ho (q := q)
    have hstart := and_flagFrameStart (f = 0 ∧ o = 0 ∧ c.firstSampleTimestampValid) (o = 0)
      (o + c.sampleCountAt o = c.frameSamples.toNat)
    have hstamp := and_flagTimestampValid (f = 0 ∧ o = 0 ∧ c.firstSampleTimestampValid) (o = 0)
      (o + c.sampleCountAt o = c.frameSamples.toNat)
    simp only [decide_eq_true_eq, decide_eq_false_iff_not, ← and_assoc] at hstart hstamp
    generalize hp : c.dataPacket samples f o q = p at hlen
    have htype : p.header.packetType = .data := by rw [← hp]; rfl
    have hfmt : p.header.payloadFormat ≠ formatNone := by rw [← hp]; exact hformat
    have hcount : p.header.sampleCount = c.sampleCountAt o := by rw [← hp]; rfl
    have hbytes : p.header.sampleBytes = 4 := by rw [← hp]; exact h.sampleBytes
    have hstart' : p.header.flags &&& flagFrameStart ≠ 0 → p.header.sampleOffset = 0 := by
      rw [← hp]
      exact fun hne => not_not.mp fun ho => hne (hstart.mpr ho)
    have hstamp' : p.header.flags &&& flagTimestampValid = 0 → p.header.timestampTicks = 0 := by
      rw [← hp]
      exact fun h0 => if_neg (hstamp.mp h0)
    unfold validatePayload
    simp only [htype, or_true, true_and, not_true, false_and, if_false, if_true, hfmt,
      sampleBytesOf, hbytes, ne_eq]
    rw [if_neg (fun hn => hn.2 (hstamp' hn.1)), if_neg (by omega), if_neg (by simp [hlen, hcount]),
      if_neg (fun hn => hn.2 (hstart' hn.1))]
  · simp [validatePayload, Config.endPacket, Config.header, sampleBytesOf, formatNone,
      expectedPayload]

theorem drop_datagram (p : Packet) (h : p.header.headerBytes = headerBytes) :
    p.datagram.drop p.header.headerBytes = p.payload := by
  unfold Packet.datagram
  rw [h, ← Header.length_bytes p.header, List.drop_left]

/-- So a datagram of the shot is read back. -/
theorem decodePacket_packet (h : c.Accepts samples) {p : Packet}
    (hp : p ∈ c.shotPackets samples) : decodePacket p.datagram = .ok p :=
  decodePacket_eq_ok.mpr ⟨Config.datagram_length_le h hp, decodeHeader_packet h hp,
    (drop_datagram p (Config.shotPackets_inRange h hp).headerBytes).symm,
    validatePayload_packet h hp⟩

theorem decodeStreamInfo_packet (h : c.Accepts samples)
    (hclock : c.timestampClockId.toNat ≤ timestampClockMax) :
    decodeStreamInfo c.infoPacket.payload = .ok c.streamInfo :=
  decodeStreamInfo_eq_ok.mpr ⟨StreamInfo.decode_encode (Config.streamInfo_inRange c),
    StreamInfo.length_encode _, h.sampleRateDenominator, h.timestampRateDenominator, hclock⟩

/-- And so is its last packet. -/
theorem decodeShotEnd_packet (h : c.Accepts samples) :
    decodeShotEnd (c.endPacket samples).payload = .ok (c.shotEnd samples) :=
  decodeShotEnd_eq_ok.mpr ⟨ShotEnd.decode_encode (Config.shotEnd_inRange h),
    ShotEnd.length_encode _⟩

/-! ## What the assembler holds -/

/-- A packet under its sequence. -/
def chunk (p : Packet) : Chunk := (p.header.packetSequence, p)

/-- The identity of the shot `c` from a source. -/
def shotIdentity (c : Config) (source : Source) : Identity :=
  ⟨source, c.runId.toNat, c.streamId.toNat, c.shotId.toNat⟩

variable {δ : Type} {sha256 : Bytes → δ} {source : Source} {ps : List Packet}
  {a : ShotAssembler δ}

/-- The assembler follows the shot and has taken in the packets `ps`, in this order. -/
structure Collected (sha256 : Bytes → δ) (c : Config) (samples : Bytes) (source : Source)
    (ps : List Packet) (a : ShotAssembler δ) : Prop where
  nodup : ps.Nodup
  genuine : ∀ p ∈ ps, p ∈ c.shotPackets samples
  identity : a.identity = some (shotIdentity c source)
  seen : a.seenSequences = ps.map fun p => (p.header.packetSequence, sha256 p.datagram)
  data : a.dataPackets = (ps.filter (·.header.packetType = .data)).map chunk
  info : a.streamInfo =
    if c.infoPacket ∈ ps then some (c.infoPacket.header, c.streamInfo) else none
  shotEnd : a.shotEnd =
    if c.endPacket samples ∈ ps then some ((c.endPacket samples).header, c.shotEnd samples)
    else none
  protocolErrors : a.protocolErrors = []
  malformedSelected : a.malformedSelected = 0
  conflictingDuplicates : a.conflictingDuplicates = 0
  pendingOverflow : a.pendingOverflow = 0

/-- A sequence number was seen when its packet was. -/
theorem lookup_seen (hps : ∀ q ∈ ps, q ∈ c.shotPackets samples) {p : Packet}
    (hp : p ∈ c.shotPackets samples) (f : Packet → δ) :
    (ps.map fun q => (q.header.packetSequence, f q)).lookup p.header.packetSequence =
      if p ∈ ps then some (f p) else none := by
  induction ps with
  | nil => rfl
  | cons q ps ih =>
    have ih' := ih fun r hr => hps r (List.mem_cons_of_mem _ hr)
    rw [List.map_cons, List.lookup_cons, ih']
    by_cases hpq : p = q
    · subst hpq
      simp
    · have hne : p.header.packetSequence ≠ q.header.packetSequence := fun he =>
        hpq (Config.eq_of_sequence_eq hp (hps q List.mem_cons_self) he)
      simp [beq_false_of_ne hne, hpq]

theorem mem_concat_of_ne {p q : Packet} (h : q ≠ p) : q ∈ ps ↔ q ∈ ps ++ [p] := by
  rw [List.mem_append, List.mem_singleton, or_iff_left h]

namespace Collected

/-- The digest that is kept for a sequence number is that of its datagram. -/
theorem lookup (h : Collected sha256 c samples source ps a) {p : Packet}
    (hp : p ∈ c.shotPackets samples) :
    a.seenSequences.lookup p.header.packetSequence =
      if p ∈ ps then some (sha256 p.datagram) else none := by
  rw [h.seen]
  exact lookup_seen h.genuine hp fun q => sha256 q.datagram

/-- A packet that is there already changes nothing but counters. -/
theorem accept_dup [DecidableEq δ] (h : Collected sha256 c samples source ps a) {p : Packet}
    (hp : p ∈ ps) : Collected sha256 c samples source ps (a.accept sha256 p p.datagram) := by
  unfold ShotAssembler.accept
  dsimp only
  rw [h.lookup (h.genuine p hp), if_pos hp]
  dsimp only
  rw [if_pos rfl]
  exact { h with }

/-- A new packet is taken in. -/
theorem accept_new [DecidableEq δ] (hc : c.Accepts samples)
    (hclock : c.timestampClockId.toNat ≤ timestampClockMax)
    (h : Collected sha256 c samples source ps a) {p : Packet}
    (hp : p ∈ c.shotPackets samples) (hnew : p ∉ ps) :
    Collected sha256 c samples source (ps ++ [p]) (a.accept sha256 p p.datagram) := by
  have hnodup : (ps ++ [p]).Nodup := by
    rw [List.nodup_append]
    refine ⟨h.nodup, List.nodup_singleton p, fun q hq r hr he => hnew ?_⟩
    rw [← List.mem_singleton.mp hr, ← he]
    exact hq
  have hgenuine : ∀ q ∈ ps ++ [p], q ∈ c.shotPackets samples := by
    intro q hq
    rcases List.mem_append.mp hq with hq | hq
    · exact h.genuine q hq
    · rwa [List.mem_singleton.mp hq]
  have hseen : (a.note p.header.packetSequence (sha256 p.datagram)).seenSequences =
      (ps ++ [p]).map fun q => (q.header.packetSequence, sha256 q.datagram) := by
    rw [List.map_append, ← h.seen]
    rfl
  obtain ⟨hinfo, hdata, hend⟩ := Config.packetType_of_mem hp
  unfold ShotAssembler.accept
  dsimp only
  rw [h.lookup hp, if_neg hnew]
  dsimp only
  cases htype : p.header.packetType with
  | streamInfo =>
    -- STREAM_INFO is in no list of packets yet, so the shot has no stream info
    have hpi := hinfo.mp htype
    have hpe : c.endPacket samples ≠ p := fun he => by
      have := hend.mpr he.symm
      rw [htype] at this
      cases this
    have hnone : a.streamInfo = none := by
      rw [h.info, if_neg (hpi ▸ hnew)]
    unfold ShotAssembler.acceptInfo
    rw [hpi, decodeStreamInfo_packet hc hclock]
    dsimp only
    rw [show (a.note c.infoPacket.header.packetSequence
      (sha256 c.infoPacket.datagram)).streamInfo = none from hnone]
    rw [hpi] at hnodup hgenuine hseen hpe
    exact {
      nodup := hnodup, genuine := hgenuine, identity := h.identity, seen := hseen
      data := by
        rw [List.filter_append, List.filter_cons_of_neg (by rw [← hpi, htype]; decide),
          List.filter_nil, List.append_nil]
        exact h.data
      info := (if_pos (by simp)).symm
      shotEnd := h.shotEnd.trans (if_congr (mem_concat_of_ne hpe) rfl rfl)
      protocolErrors := h.protocolErrors, malformedSelected := h.malformedSelected
      conflictingDuplicates := h.conflictingDuplicates, pendingOverflow := h.pendingOverflow }
  | data =>
    have hpi : c.infoPacket ≠ p := fun he => by
      have := hinfo.mpr he.symm
      rw [htype] at this
      cases this
    have hpe : c.endPacket samples ≠ p := fun he => by
      have := hend.mpr he.symm
      rw [htype] at this
      cases this
    exact {
      nodup := hnodup, genuine := hgenuine, identity := h.identity, seen := hseen
      data := by
        rw [List.filter_append, List.filter_cons_of_pos (by rw [htype]; decide), List.filter_nil,
          List.map_append, ← h.data]
        rfl
      info := h.info.trans (if_congr (mem_concat_of_ne hpi) rfl rfl)
      shotEnd := h.shotEnd.trans (if_congr (mem_concat_of_ne hpe) rfl rfl)
      protocolErrors := h.protocolErrors, malformedSelected := h.malformedSelected
      conflictingDuplicates := h.conflictingDuplicates, pendingOverflow := h.pendingOverflow }
  | shotEnd =>
    -- the same with SHOT_END
    have hpe := hend.mp htype
    have hpi : c.infoPacket ≠ p := fun he => by
      have := hinfo.mpr he.symm
      rw [htype] at this
      cases this
    have hnone : a.shotEnd = none := by
      rw [h.shotEnd, if_neg (hpe ▸ hnew)]
    unfold ShotAssembler.acceptEnd
    rw [hpe, decodeShotEnd_packet hc]
    dsimp only
    rw [show (a.note (c.endPacket samples).header.packetSequence
      (sha256 (c.endPacket samples).datagram)).shotEnd = none from hnone]
    rw [hpe] at hnodup hgenuine hseen hpi
    exact {
      nodup := hnodup, genuine := hgenuine, identity := h.identity, seen := hseen
      data := by
        rw [List.filter_append, List.filter_cons_of_neg (by rw [← hpe, htype]; decide),
          List.filter_nil, List.append_nil]
        exact h.data
      info := h.info.trans (if_congr (mem_concat_of_ne hpi) rfl rfl)
      shotEnd := (if_pos (by simp)).symm
      protocolErrors := h.protocolErrors, malformedSelected := h.malformedSelected
      conflictingDuplicates := h.conflictingDuplicates, pendingOverflow := h.pendingOverflow }
  | heartbeat =>
    -- a shot has no packet of this type
    rcases Config.mem_shotPackets hp with rfl | hp | rfl
    · cases htype
    · rw [hdata.mpr hp] at htype
      cases htype
    · cases htype

end Collected

/-! ## Deliveries -/

/-- The record carries a datagram of the shot. -/
def Genuine (c : Config) (samples : Bytes) (source : Source) (r : JournalRecord) : Prop :=
  r.source = source ∧ ∃ p ∈ c.shotPackets samples, r.datagram = p.datagram

/-- The receiver reads a record of the journal as its packet. -/
theorem read_packet (h : c.Accepts samples) {r : JournalRecord} {p : Packet}
    (hp : p ∈ c.shotPackets samples) (hr : r.datagram = p.datagram) :
    ShotAssembler.read r = ⟨r, some p.header, .ok p⟩ := by
  unfold ShotAssembler.read
  rw [hr, decodeHeader_packet h hp, decodePacket_packet h hp]

/-- All packets of the shot have the identity of the shot. -/
theorem packetKey_packet {r : JournalRecord} {p : Packet} (hp : p ∈ c.shotPackets samples)
    (hs : r.source = source) : packetKey r p.header = shotIdentity c source := by
  unfold packetKey shotIdentity
  rw [hs]
  rcases Config.mem_shotPackets hp with rfl | hp | rfl
  · rfl
  · obtain ⟨f, o, q, -, -, -, rfl⟩ := Config.mem_dataPackets hp
    rfl
  · rfl

/-- A packet of the shot is known by its datagram. -/
theorem eq_of_datagram_eq (h : c.Accepts samples) {p q : Packet} (hp : p ∈ c.shotPackets samples)
    (hq : q ∈ c.shotPackets samples) (he : p.datagram = q.datagram) : p = q := by
  have hd := decodePacket_packet h hp
  rw [he, decodePacket_packet h hq] at hd
  exact (Except.ok.inj hd).symm

section Deliveries

variable [DecidableEq δ] (hc : c.Accepts samples)
  (hclock : c.timestampClockId.toNat ≤ timestampClockMax)

include hc hclock

/-- One more record adds the packet that it holds. -/
theorem Collected.route (h : Collected sha256 c samples source ps a) {r : JournalRecord}
    (hr : Genuine c samples source r) :
    ∃ ps', Collected sha256 c samples source ps'
        (a.route sha256 (shotIdentity c source) (ShotAssembler.read r)) ∧
      ∀ q ∈ c.shotPackets samples, q ∈ ps' ↔ q ∈ ps ∨ r.datagram = q.datagram := by
  obtain ⟨hs, p, hp, hd⟩ := hr
  have hiff : ∀ q ∈ c.shotPackets samples, r.datagram = q.datagram ↔ q = p := fun q hq =>
    ⟨fun he => eq_of_datagram_eq hc hq hp (he.symm.trans hd), fun he => he ▸ hd⟩
  have hroute : a.route sha256 (shotIdentity c source) (ShotAssembler.read r) =
      a.accept sha256 p p.datagram := by
    rw [read_packet hc hp hd]
    unfold ShotAssembler.route
    dsimp only
    rw [packetKey_packet hp hs, if_neg (not_not.mpr rfl), hd]
  rw [hroute]
  by_cases hin : p ∈ ps
  · refine ⟨ps, h.accept_dup hin, fun q hq => ?_⟩
    rw [hiff q hq]
    exact ⟨.inl, fun h => h.elim id fun he => he ▸ hin⟩
  · refine ⟨ps ++ [p], h.accept_new hc hclock hp hin, fun q hq => ?_⟩
    rw [hiff q hq, List.mem_append, List.mem_singleton]

/-- Many records add their packets, in any order and any number of times. -/
theorem Collected.routeAll {records : List JournalRecord}
    (hr : ∀ r ∈ records, Genuine c samples source r)
    (h : Collected sha256 c samples source ps a) :
    ∃ ps', Collected sha256 c samples source ps'
        ((records.map ShotAssembler.read).foldl
          (ShotAssembler.route sha256 (shotIdentity c source)) a) ∧
      ∀ q ∈ c.shotPackets samples,
        q ∈ ps' ↔ q ∈ ps ∨ ∃ r ∈ records, r.datagram = q.datagram := by
  induction records generalizing ps a with
  | nil => exact ⟨ps, h, fun q _ => by simp⟩
  | cons r records ih =>
    obtain ⟨ps₁, h₁, hmem₁⟩ := h.route hc hclock (hr r List.mem_cons_self)
    obtain ⟨ps', h', hmem'⟩ := ih (fun r hr' => hr r (List.mem_cons_of_mem _ hr')) h₁
    refine ⟨ps', h', fun q hq => ?_⟩
    rw [hmem' q hq, hmem₁ q hq, or_assoc]
    simp

/-- So it is when the identity is learned on the way. -/
theorem Collected.ingestAll {records : List JournalRecord}
    (hr : ∀ r ∈ records, Genuine c samples source r)
    (h : Collected sha256 c samples source ps a) :
    ∃ ps', Collected sha256 c samples source ps'
        (records.foldl (ShotAssembler.ingest sha256) a) ∧
      ∀ q ∈ c.shotPackets samples,
        q ∈ ps' ↔ q ∈ ps ∨ ∃ r ∈ records, r.datagram = q.datagram := by
  induction records generalizing ps a with
  | nil => exact ⟨ps, h, fun q _ => by simp⟩
  | cons r records ih =>
    have hcount : Collected sha256 c samples source ps
        { a with totalDatagrams := a.totalDatagrams + 1 } := { h with }
    obtain ⟨ps₁, h₁, hmem₁⟩ := hcount.route hc hclock (hr r List.mem_cons_self)
    have hingest : a.ingest sha256 r =
        ({ a with totalDatagrams := a.totalDatagrams + 1 } : ShotAssembler δ).route sha256
          (shotIdentity c source) (ShotAssembler.read r) := by
      unfold ShotAssembler.ingest
      simp only [h.identity]
    obtain ⟨ps', h', hmem'⟩ := ih (fun r hr' => hr r (List.mem_cons_of_mem _ hr')) h₁
    rw [List.foldl_cons, hingest]
    refine ⟨ps', h', fun q hq => ?_⟩
    rw [hmem' q hq, hmem₁ q hq, or_assoc]
    simp

omit hclock

/-- Before the first STREAM_INFO no shot is selected. -/
theorem selects_eq_none {r : JournalRecord} (hr : Genuine c samples source r)
    (hne : r.datagram ≠ c.infoPacket.datagram) :
    ShotAssembler.selects (ShotAssembler.read r) = none := by
  obtain ⟨-, p, hp, hd⟩ := hr
  have hpi : p ≠ c.infoPacket := fun he => hne (by rw [hd, he])
  rw [read_packet hc hp hd]
  unfold ShotAssembler.selects
  dsimp only
  rw [if_neg fun ht => hpi ((Config.packetType_of_mem hp).1.mp ht)]

/-- Without STREAM_INFO the identity of the shot stays unknown. -/
theorem identity_eq_none {records : List JournalRecord}
    (hr : ∀ r ∈ records, Genuine c samples source r)
    (hne : ∀ r ∈ records, r.datagram ≠ c.infoPacket.datagram) (ha : a.identity = none) :
    (records.foldl (ShotAssembler.ingest sha256) a).identity = none := by
  induction records generalizing a with
  | nil => exact ha
  | cons r records ih =>
    refine ih (fun r hr' => hr r (List.mem_cons_of_mem _ hr'))
      (fun r hr' => hne r (List.mem_cons_of_mem _ hr')) ?_
    unfold ShotAssembler.ingest
    simp only [ha, selects_eq_none hc (hr r List.mem_cons_self) (hne r List.mem_cons_self)]
    unfold ShotAssembler.savePending
    split <;> rfl

/-- What arrives before the first STREAM_INFO waits, as long as the window is not full. -/
theorem waiting {records : List JournalRecord} (hr : ∀ r ∈ records, Genuine c samples source r)
    (hne : ∀ r ∈ records, r.datagram ≠ c.infoPacket.datagram) {w : List Pending} {n : ℕ}
    (hlen : w.length + records.length ≤ maxPendingDatagrams) :
    records.foldl (ShotAssembler.ingest sha256)
        { pending := w, totalDatagrams := n } =
      { pending := w ++ records.map ShotAssembler.read
        totalDatagrams := n + records.length } := by
  induction records generalizing w n with
  | nil => simp
  | cons r records ih =>
    rw [List.length_cons] at hlen
    have hingest : ShotAssembler.ingest sha256 { pending := w, totalDatagrams := n } r =
        { pending := w ++ [ShotAssembler.read r], totalDatagrams := n + 1 } := by
      unfold ShotAssembler.ingest
      simp only [selects_eq_none hc (hr r List.mem_cons_self) (hne r List.mem_cons_self)]
      unfold ShotAssembler.savePending
      rw [if_neg (by simp; omega)]
    rw [List.foldl_cons, hingest, ih (fun r hr' => hr r (List.mem_cons_of_mem _ hr'))
      (fun r hr' => hne r (List.mem_cons_of_mem _ hr')) (by simp; omega)]
    simp
    omega

end Deliveries

end QCrate.Receiver
