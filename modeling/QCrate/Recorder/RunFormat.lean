import QCrate.Lib.BigEndian
import QCrate.Recorder.State

/-!
# The run files of the recorder

`qcrate_run_format.c` fills a zeroed buffer field by field, at constant offsets.

* `putAt_zeros` — a field goes behind what has been written, or leaves a gap of zeros.
* `qcrateJournalRecordEncode_eq`, `qcrateIndexRecordEncode_eq` — the records as sequences of
  fields.
-/

namespace QCrate.Recorder

open QCrate.Lib QCrate.DataPlane

/-! ## Buffers -/

def zeros (n : ℕ) : Bytes := List.replicate n 0

/-- `put_u16`, `put_u32`, `put_u64` and `memcpy` at an offset of a buffer. -/
def putAt (output : Bytes) (offset : ℕ) (field : Bytes) : Bytes :=
  output.take offset ++ (field ++ output.drop (offset + field.length))

@[simp] theorem length_zeros (n : ℕ) : (zeros n).length = n := List.length_replicate

theorem putAt_zeros {done field : Bytes} {offset n : ℕ} (gap : ℕ)
    (hoffset : offset = done.length + gap) (hroom : gap + field.length ≤ n) :
    putAt (done ++ zeros n) offset field =
      (done ++ (zeros gap ++ field)) ++ zeros (n - (gap + field.length)) := by
  have htake : (done ++ zeros n).take offset = done ++ zeros gap := by
    rw [hoffset, List.take_length_add_append, zeros, List.take_replicate, min_eq_left (by omega),
      zeros]
  have hdrop : (done ++ zeros n).drop (offset + field.length) =
      zeros (n - (gap + field.length)) := by
    rw [hoffset, Nat.add_assoc, List.drop_length_add_append, zeros, List.drop_replicate, zeros]
  rw [putAt, htake, hdrop]
  simp only [List.append_assoc]

/-! ## Journal -/

/-- `QCRATE_JOURNAL_MAGIC`, `QCRATE_JOURNAL_VERSION` and the sizes. -/
def journalMagic : ℕ := 0x5143524a
def journalVersion : ℕ := 1
def journalHeaderBytes : ℕ := 16
def journalRecordBytes : ℕ := 32

/-- `qcrate_journal_header_encode` -/
def qcrateJournalHeaderEncode : Bytes :=
  let output := zeros journalHeaderBytes
  let output := putAt output 0 (putBE 4 journalMagic)
  let output := putAt output 4 (putBE 2 journalVersion)
  putAt output 6 (putBE 2 journalHeaderBytes)

/-- `qcrate_journal_record_encode` -/
def qcrateJournalRecordEncode (datagramBytes addressFamily sourcePort receiveMonotonicNs : ℕ)
    (sourceAddress : Bytes) : Option Bytes :=
  if addressFamily ≠ 4 ∧ addressFamily ≠ 6 then none
  else if addressFamily = 4 ∧ sourceAddress.drop 4 ≠ zeros 12 then none
  else
    let output := zeros journalRecordBytes
    let output := putAt output 0 (putBE 2 datagramBytes)
    let output := putAt output 2 (putBE 1 addressFamily)
    let output := putAt output 4 (putBE 2 sourcePort)
    let output := putAt output 8 (putBE 8 receiveMonotonicNs)
    some (putAt output 16 sourceAddress)

def uint16Max : ℕ := 65535

/-- The family, the address and the port that `source_from_sockaddr` keeps, the address in a
buffer of 16 bytes. -/
def Source.family : Source → ℕ
  | .inet _ _ => 4
  | .inet6 _ _ => 6

def Source.address : Source → Bytes
  | .inet a _ => putAt (zeros 16) 0 (putBE 4 a.toNat)
  | .inet6 a _ => putAt (zeros 16) 0 (putBE 16 a.toNat)

def Source.port : Source → ℕ
  | .inet _ port => port
  | .inet6 _ port => port

/-- The bytes that `journal_datagram` writes. -/
def journalDatagram (arrival : Arrival) : Option Bytes :=
  if uint16Max < arrival.datagram.length then none
  else
    match qcrateJournalRecordEncode arrival.datagram.length arrival.source.family
        arrival.source.port arrival.receiveNs arrival.source.address with
    | none => none
    | some header => some (header ++ arrival.datagram)

/-- The journal after a list of datagrams. -/
def journalOf (arrivals : List Arrival) : Option Bytes := do
  let records ← arrivals.mapM journalDatagram
  return qcrateJournalHeaderEncode ++ records.flatten

theorem qcrateJournalRecordEncode_eq
    (datagramBytes addressFamily sourcePort receiveMonotonicNs : ℕ) (sourceAddress : Bytes)
    (hlength : sourceAddress.length = 16)
    (hfamily : addressFamily = 4 ∧ sourceAddress.drop 4 = zeros 12 ∨ addressFamily = 6) :
    qcrateJournalRecordEncode datagramBytes addressFamily sourcePort receiveMonotonicNs
        sourceAddress =
      some (putBE 2 datagramBytes ++ (putBE 1 addressFamily ++ (zeros 1 ++ (putBE 2 sourcePort ++
        (zeros 2 ++ (putBE 8 receiveMonotonicNs ++ sourceAddress)))))) := by
  have hpadding : ¬(addressFamily = 4 ∧ sourceAddress.drop 4 ≠ zeros 12) := by
    rintro ⟨h4, hne⟩
    rcases hfamily with ⟨-, h⟩ | h6
    · exact hne h
    · omega
  rw [qcrateJournalRecordEncode, if_neg (by omega), if_neg hpadding]
  -- what stands before the address is the same list of bytes on both sides
  have hfields : putAt (putAt (putAt (putAt (zeros journalRecordBytes) 0 (putBE 2 datagramBytes)) 2
      (putBE 1 addressFamily)) 4 (putBE 2 sourcePort)) 8 (putBE 8 receiveMonotonicNs) =
      (putBE 2 datagramBytes ++ (putBE 1 addressFamily ++ (zeros 1 ++ (putBE 2 sourcePort ++
        (zeros 2 ++ putBE 8 receiveMonotonicNs))))) ++ zeros 16 := rfl
  simp only [hfields]
  rw [putAt_zeros 0 (by simp) (by omega), hlength]
  simp [zeros]

/-! ## Index -/

/-- `QCRATE_INDEX_RECORD_BYTES` -/
def indexRecordBytes : ℕ := 128

/-- `qcrate_index_record_encode`. A counter of 32 bits is stored modulo its width. -/
def qcrateIndexRecordEncode (record : IndexRecord) : Option Bytes :=
  if record.state.code ≠ 1 ∧ record.state.code ≠ 2 then none
  else
    let output := zeros indexRecordBytes
    let output := putAt output 0 (putBE 8 record.shotId)
    let output := putAt output 8 (putBE 4 record.state.code)
    let output := putAt output 12 (putBE 4 record.issueFlags)
    let output := putAt output 16 (putBE 8 record.firstPacketSequence)
    let output := putAt output 24 (putBE 8 record.lastPacketSequence)
    let output := putAt output 32 (putBE 8 record.firstSampleTimestamp)
    let output := putAt output 40 (putBE 8 record.firstReceiveNs)
    let output := putAt output 48 (putBE 8 record.lastReceiveNs)
    let output := putAt output 56 (putBE 8 record.sampleFileOffset)
    let output := putAt output 64 (putBE 8 record.sampleBytes)
    let output := putAt output 72 (putBE 4 record.frameCount)
    let output := putAt output 76 (putBE 4 record.frameSamples)
    let output := putAt output 80 (putBE 4 record.dataPackets)
    let output := putAt output 84 (putBE 4 record.datagrams)
    let output := putAt output 88 (putBE 4 record.duplicatePackets)
    let output := putAt output 92 (putBE 4 record.reorderedPackets)
    let output := putAt output 96 (putBE 4 record.missingPackets)
    let output := putAt output 100 (putBE 4 record.payloadCrc32)
    let output := putAt output 104 (putBE 4 record.sourceFlags)
    let output := putAt output 108 (putBE 2 record.payloadFormat)
    let output := putAt output 110 (putBE 2 record.sampleBytesPerWord)
    some (putAt output 112 (putBE 8 record.configId))

/-- The fields of an index record one after another. -/
def IndexRecord.bytes (r : IndexRecord) : Bytes :=
  putBE 8 r.shotId ++ putBE 4 r.state.code ++ putBE 4 r.issueFlags ++
    putBE 8 r.firstPacketSequence ++ putBE 8 r.lastPacketSequence ++
    putBE 8 r.firstSampleTimestamp ++ putBE 8 r.firstReceiveNs ++ putBE 8 r.lastReceiveNs ++
    putBE 8 r.sampleFileOffset ++ putBE 8 r.sampleBytes ++ putBE 4 r.frameCount ++
    putBE 4 r.frameSamples ++ putBE 4 r.dataPackets ++ putBE 4 r.datagrams ++
    putBE 4 r.duplicatePackets ++ putBE 4 r.reorderedPackets ++ putBE 4 r.missingPackets ++
    putBE 4 r.payloadCrc32 ++ putBE 4 r.sourceFlags ++ putBE 2 r.payloadFormat ++
    putBE 2 r.sampleBytesPerWord ++ putBE 8 r.configId ++ zeros 8

theorem putAt_next {done field : Bytes} {offset n : ℕ} (hoffset : offset = done.length)
    (hroom : field.length ≤ n) :
    putAt (done ++ zeros n) offset field = (done ++ field) ++ zeros (n - field.length) := by
  rw [putAt_zeros 0 hoffset (by omega), Nat.zero_add]
  rfl

theorem putAt_first {field : Bytes} {n : ℕ} (hroom : field.length ≤ n) :
    putAt (zeros n) 0 field = field ++ zeros (n - field.length) := by
  have h := @putAt_next [] field 0 n rfl hroom
  rwa [List.nil_append, List.nil_append] at h

theorem qcrateIndexRecordEncode_eq (r : IndexRecord) :
    qcrateIndexRecordEncode r = some r.bytes := by
  have hstate : ¬(r.state.code ≠ 1 ∧ r.state.code ≠ 2) := by cases r.state <;> decide
  unfold qcrateIndexRecordEncode IndexRecord.bytes indexRecordBytes
  rw [if_neg hstate]
  simp (disch := simp) only [putAt_first, putAt_next, length_putBE, Nat.reduceSub]

end QCrate.Recorder
