import QCrate.DataPlane.Layout
import QCrate.Lib.Publisher
import QCrate.Recorder.Ingest

/-!
# A run as it is sent

Shots of one stream and run that the packetizer accepted, with consecutive packet sequences and
growing shot ids, and the heartbeat at the end. What reaches the recorder are datagrams of the
run, in any order, some lost, some repeated.

* `SentRun.feed` — the shots of a run as the units of a publisher.
* `Delivers` — messages that carry items of the run.
-/

namespace QCrate.Recorder

open QCrate.Lib QCrate.DataPlane

/-! ## Shots -/

/-- A shot the packetizer accepts. -/
structure SentShot where
  config : Config
  samples : Bytes
  checked : config.check samples = .ok ()

namespace SentShot

variable (s : SentShot)

def packets : List Packet := s.config.shotPackets s.samples

def infoPacket : Packet := s.config.infoPacket

def endPacket : Packet := s.config.endPacket s.samples

/-- The first DATA packet, the only one that can carry a timestamp. -/
def firstData : Packet := s.config.dataPacket s.samples 0 0 (s.config.initialSequence.toNat + 1)

def shotId : ℕ := s.config.shotId.toNat

/-- The timestamp of the first sample, zero when it is absent. -/
def timestamp : ℕ :=
  if s.config.firstSampleTimestampValid then s.config.firstSampleTimestamp.toNat else 0

def firstSequence : ℕ := s.config.initialSequence.toNat

def nextSequence : ℕ := (s.config.result s.samples).nextSequence

/-- What STREAM_INFO says of the stream: its format and its description. -/
def profile : ℕ × ℕ × StreamInfo :=
  (s.config.payloadFormat.toNat, s.config.sampleBytes.toNat, s.config.streamInfo)

/-- A shot was sent with a configuration that was checked. -/
theorem accepts : s.config.Accepts s.samples := Config.accepts_of_check s.checked

theorem info_mem : s.infoPacket ∈ s.packets := List.mem_cons_self

theorem end_mem : s.endPacket ∈ s.packets := by simp [packets, endPacket, Config.shotPackets]

theorem data_mem {p : Packet} (hp : p ∈ s.config.dataPackets s.samples) : p ∈ s.packets := by
  simp [packets, Config.shotPackets, hp]

theorem firstData_mem : s.firstData ∈ s.config.dataPackets s.samples := by
  obtain ⟨rest, hrest⟩ := Config.dataPackets_cons s.accepts
  rw [hrest]
  exact List.mem_cons_self

/-- The datagrams of a shot are numbered one after the other. -/
theorem nextSequence_eq : s.nextSequence = s.firstSequence + s.packets.length := by
  unfold nextSequence firstSequence packets
  rw [Config.length_shotPackets]
  simp only [Config.result]
  omega

theorem endSequence : s.endPacket.header.packetSequence + 1 = s.nextSequence := rfl

/-- The numbers of a run never wrap. -/
theorem nextSequence_le : s.nextSequence ≤ uint64Max := by
  rw [nextSequence_eq]
  exact Config.sequence_lt s.accepts

theorem firstSequence_lt : s.firstSequence < s.nextSequence := by
  rw [nextSequence_eq, packets, Config.length_shotPackets]
  omega

end SentShot

/-! ## Runs -/

/-- Shots of one stream and run with growing ids and consecutive packet sequences. -/
structure SentRun where
  streamId : UInt32
  runId : UInt64
  shots : List SentShot
  identity : ∀ s ∈ shots, s.config.streamId = streamId ∧ s.config.runId = runId
  ids : shots.Pairwise fun a b => a.shotId < b.shotId
  sequences : shots.IsChain fun a b => b.firstSequence = a.nextSequence

namespace SentRun

variable (R : SentRun)

/-- The heartbeat sent after the last shot. A sender names no shot 0, so an empty run ends as shot
1. -/
def heartbeat : Packet :=
  endOfStreamPacket R.streamId R.runId
    (.ofNat ((R.shots.getLast?.map SentShot.shotId).getD 1))
    (.ofNat ((R.shots.getLast?.map SentShot.nextSequence).getD 0))

/-- The shots as units: STREAM_INFO announces a shot, and a shot moves the watermark when the
packet with its timestamp is there. -/
def feed : Feed Packet where
  parts k := (R.shots[k]?.map SentShot.packets).getD []
  marks k held := R.shots[k]?.any fun s =>
    decide (s.timestamp ≠ 0) && held s.infoPacket && held s.firstData

/-- What is sent: a packet of a shot, or the heartbeat. -/
inductive Item where
  | packet (shot : ℕ) (p : Packet)
  | heartbeat
  deriving DecidableEq

/-- The item belongs to the run. -/
def Sends : Item → Prop
  | .packet k p => ∃ s, R.shots[k]? = some s ∧ p ∈ s.packets
  | .heartbeat => True

def datagram : Item → Bytes
  | .packet _ p => p.datagram
  | .heartbeat => R.heartbeat.datagram

/-- The shots have one profile. -/
def Uniform : Prop := ∀ s ∈ R.shots, ∀ t ∈ R.shots, s.profile = t.profile

/-- Every shot has a timestamp, and they grow. -/
def Stamped : Prop :=
  (∀ s ∈ R.shots, s.timestamp ≠ 0) ∧ R.shots.Pairwise fun s t => s.timestamp < t.timestamp

variable {R}

/-- A shot is sent as its datagrams. -/
theorem parts_eq {k : ℕ} {s : SentShot} (h : R.shots[k]? = some s) :
    R.feed.parts k = s.packets := by
  simp [feed, h]

theorem sends_packet {k : ℕ} {p : Packet} : R.Sends (.packet k p) ↔ p ∈ R.feed.parts k := by
  unfold Sends feed
  cases hs : R.shots[k]? <;> simp [hs]

/-- Packets of a later shot come later. -/
theorem nextSequence_le_of_lt {i j : ℕ} {s t : SentShot} (hi : R.shots[i]? = some s)
    (hj : R.shots[j]? = some t) (h : i < j) : s.nextSequence ≤ t.firstSequence := by
  have htrans : ∀ a b c : SentShot, a.nextSequence ≤ b.firstSequence →
      b.nextSequence ≤ c.firstSequence → a.nextSequence ≤ c.firstSequence := fun a b c hab hbc =>
    hab.trans (b.firstSequence_lt.le.trans hbc)
  have hchain : R.shots.IsChain fun a b => a.nextSequence ≤ b.firstSequence :=
    R.sequences.imp fun _ _ he => he.ge
  have hpair : R.shots.Pairwise fun a b => a.nextSequence ≤ b.firstSequence := by
    have : IsTrans SentShot fun a b => a.nextSequence ≤ b.firstSequence := ⟨htrans⟩
    exact List.isChain_iff_pairwise.mp hchain
  obtain ⟨hil, rfl⟩ := List.getElem?_eq_some_iff.mp hi
  obtain ⟨hjl, rfl⟩ := List.getElem?_eq_some_iff.mp hj
  exact List.pairwise_iff_getElem.mp hpair i j hil hjl h

/-- Later shots have larger identifiers. -/
theorem shotId_lt_of_lt {i j : ℕ} {s t : SentShot} (hi : R.shots[i]? = some s)
    (hj : R.shots[j]? = some t) (h : i < j) : s.shotId < t.shotId := by
  obtain ⟨hil, rfl⟩ := List.getElem?_eq_some_iff.mp hi
  obtain ⟨hjl, rfl⟩ := List.getElem?_eq_some_iff.mp hj
  exact List.pairwise_iff_getElem.mp R.ids i j hil hjl h

theorem shotId_le_iff {i j : ℕ} {s t : SentShot} (hi : R.shots[i]? = some s)
    (hj : R.shots[j]? = some t) : s.shotId ≤ t.shotId ↔ i ≤ j := by
  constructor
  · intro hle
    by_contra hlt
    exact absurd (shotId_lt_of_lt hj hi (Nat.not_le.mp hlt)) (Nat.not_lt.mpr hle)
  · intro hle
    rcases hle.lt_or_eq with hlt | rfl
    · exact (shotId_lt_of_lt hi hj hlt).le
    · rw [hi] at hj
      cases hj
      exact le_rfl

theorem shotId_inj {i j : ℕ} {s t : SentShot} (hi : R.shots[i]? = some s)
    (hj : R.shots[j]? = some t) (h : s.shotId = t.shotId) : i = j :=
  le_antisymm ((shotId_le_iff hi hj).mp h.le) ((shotId_le_iff hj hi).mp h.ge)

/-- A shot goes on where the one before it ended. -/
theorem firstSequence_succ {k : ℕ} {s t : SentShot} (hs : R.shots[k]? = some s)
    (ht : R.shots[k + 1]? = some t) : t.firstSequence = s.nextSequence := by
  obtain ⟨hk, rfl⟩ := List.getElem?_eq_some_iff.mp hs
  obtain ⟨hk', rfl⟩ := List.getElem?_eq_some_iff.mp ht
  exact List.isChain_iff_getElem.mp R.sequences k hk'

end SentRun

/-- The messages carry the items, one each: whole datagrams from one source. -/
def Delivers (R : SentRun) (source : Source) (messages : List RunState.Message)
    (items : List SentRun.Item) : Prop :=
  List.Forall₂ (fun m i => m.truncated = false ∧ m.source = some source ∧
    m.datagram = R.datagram i ∧ R.Sends i) messages items

/-- The packets among the items. -/
def SentRun.Item.packet? : SentRun.Item → Option (ℕ × Packet)
  | .packet k p => some (k, p)
  | .heartbeat => none

end QCrate.Recorder
