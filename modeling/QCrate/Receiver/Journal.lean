import QCrate.Receiver.Assembler
import QCrate.Recorder.RunFormat

/-!
# The datagram journal

The recorder in C and the receiver in Python write the same journal, and `read_journal` reads it
back. The text of a normalised address is known by the address itself.

* `journalOf_eq` — both writers write the same bytes.
* `readRecords_encode` — what the reader yields of a journal that is cut off anywhere.
* `journal_roundTrip` — the round trip, and exactly when a cut is noticed.
-/

namespace QCrate.Receiver

open QCrate.Lib QCrate.Recorder QCrate.DataPlane

/-! ## Writer -/

inductive JournalWriteError where
  | datagramLength
  | sourcePort
  | pack
  deriving DecidableEq, Repr

/-- `JOURNAL_MAGIC`, `JOURNAL_VERSION`, `JOURNAL_HEADER_BYTES` and `JOURNAL_RECORD_BYTES`. -/
def journalMagic : ℕ := 0x5143524A
def journalVersion : ℕ := 1
def journalHeaderBytes : ℕ := 16
def journalRecordBytes : ℕ := 32

/-- `JOURNAL_HEADER.pack`, `!IHHQ` -/
def packJournalHeader : Bytes :=
  putBE 4 journalMagic ++ (putBE 2 journalVersion ++ (putBE 2 journalHeaderBytes ++ putBE 8 0))

/-- `address.packed` of `ipaddress` -/
def packed : Source → Bytes
  | .inet a _ => putBE 4 a.toNat
  | .inet6 a _ => putBE 16 a.toNat

/-- `bytes.ljust` with zeros -/
def ljust (b : Bytes) (width : ℕ) : Bytes := b ++ List.replicate (width - b.length) 0

/-- `JOURNAL_RECORD.pack`, `!HBBHHQ16s` -/
def packJournalRecord (r : JournalRecord) : Bytes :=
  putBE 2 r.datagram.length ++ (putBE 1 r.source.family ++ (putBE 1 0 ++ (putBE 2 r.source.port ++
    (putBE 2 0 ++ (putBE 8 r.receiveMonotonicNs ++ ljust (packed r.source) 16)))))

/-- `JournalWriter.write` -/
def writeRecord (r : JournalRecord) : Except JournalWriteError Bytes :=
  if 0xFFFF < r.datagram.length then .error .datagramLength
  else if 0xFFFF < r.source.port then .error .sourcePort
  else if 2 ^ 64 ≤ r.receiveMonotonicNs then .error .pack
  else .ok (packJournalRecord r ++ r.datagram)

/-- A journal that has been opened, written to and closed. -/
def writeJournal (records : List JournalRecord) : Except JournalWriteError Bytes := do
  let written ← records.mapM writeRecord
  return packJournalHeader ++ written.flatten

/-! ## Reader -/

inductive JournalError where
  | headerTruncated
  | magic (actual : ℕ)
  | version
  | headerReserved
  | recordTruncated
  | recordReserved
  | ipv4Padding
  | addressFamily (family : ℕ)
  | datagramTruncated
  deriving DecidableEq, Repr

/-- The header of a record: the length of the datagram, and what is known without it. -/
def readRecordHeader (raw : Bytes) : Except JournalError (ℕ × ℕ × Source) :=
  let datagramBytes := readBE 2 raw 0
  let family := readBE 1 raw 2
  let flags := readBE 1 raw 3
  let sourcePort := readBE 2 raw 4
  let recordReserved := readBE 2 raw 6
  let receiveNs := readBE 8 raw 8
  let packedAddress := (raw.drop 16).take 16
  if flags ≠ 0 ∨ recordReserved ≠ 0 then .error .recordReserved
  else if family = 4 then
    if (packedAddress.drop 4).any (· ≠ 0) then .error .ipv4Padding
    else .ok (datagramBytes, receiveNs,
      .inet (BitVec.ofNat 32 (getBE (packedAddress.take 4))) sourcePort)
  else if family = 6 then
    .ok (datagramBytes, receiveNs, .inet6 (BitVec.ofNat 128 (getBE packedAddress)) sourcePort)
  else .error (.addressFamily family)

/-- The loop of `read_journal` on the rest of the file: the records it yields, and the exception
that ends it. Every turn takes the 32 bytes of a record header, so more turns than bytes are
never needed. -/
def readRecords : ℕ → Bytes → List JournalRecord × Option JournalError
  | 0, _ => ([], none)
  | turns + 1, journal =>
    let rawRecord := journal.take journalRecordBytes
    if rawRecord = [] then ([], none)
    else if rawRecord.length ≠ journalRecordBytes then ([], some .recordTruncated)
    else
      match readRecordHeader rawRecord with
      | .error e => ([], some e)
      | .ok (datagramBytes, receiveNs, source) =>
        let datagram := (journal.drop journalRecordBytes).take datagramBytes
        if datagram.length ≠ datagramBytes then ([], some .datagramTruncated)
        else
          let rest := readRecords turns ((journal.drop journalRecordBytes).drop datagramBytes)
          (⟨receiveNs, source, datagram⟩ :: rest.1, rest.2)

/-- `read_journal` -/
def readJournal (contents : Bytes) : List JournalRecord × Option JournalError :=
  let rawHeader := contents.take journalHeaderBytes
  if rawHeader.length ≠ journalHeaderBytes then ([], some .headerTruncated)
  else if readBE 4 rawHeader 0 ≠ journalMagic then ([], some (.magic (readBE 4 rawHeader 0)))
  else if readBE 2 rawHeader 4 ≠ journalVersion ∨ readBE 2 rawHeader 6 ≠ journalHeaderBytes then
    ([], some .version)
  else if readBE 8 rawHeader 8 ≠ 0 then ([], some .headerReserved)
  else readRecords (contents.length + 1) (contents.drop journalHeaderBytes)

/-! ## One record -/

/-- A record both writers can take. -/
structure JournalRecord.Valid (r : JournalRecord) : Prop where
  datagram : r.datagram.length ≤ 65535
  port : r.source.port < 2 ^ 16
  receive : r.receiveMonotonicNs < 2 ^ 64

/-- The bytes of a record. -/
def encodeRecord (r : JournalRecord) : Bytes := packJournalRecord r ++ r.datagram

theorem length_address (s : Source) : s.address.length = 16 := by
  cases s <;> rfl

theorem address_eq (s : Source) : s.address = ljust (packed s) 16 := by
  cases s <;> rfl

theorem length_packJournalRecord (r : JournalRecord) : (packJournalRecord r).length = 32 := by
  rw [packJournalRecord, ← address_eq]
  simp only [List.length_append, length_putBE, length_address]

theorem writeRecord_eq {r : JournalRecord} (h : r.Valid) :
    writeRecord r = .ok (encodeRecord r) := by
  have hd := h.datagram
  have hp := h.port
  have ht := h.receive
  rw [writeRecord, if_neg (by omega), if_neg (by omega), if_neg (by omega), encodeRecord]

/-- The arrival that the recorder journals as a record. -/
def arrivalOf (r : JournalRecord) : Arrival := ⟨r.source, r.receiveMonotonicNs, r.datagram⟩

theorem journalDatagram_eq {r : JournalRecord} (h : r.Valid) :
    journalDatagram (arrivalOf r) = some (encodeRecord r) := by
  have hd := h.datagram
  have hfamily : r.source.family = 4 ∧ r.source.address.drop 4 = zeros 12 ∨
      r.source.family = 6 := by
    cases r.source with
    | inet a port => exact Or.inl ⟨rfl, rfl⟩
    | inet6 a port => exact Or.inr rfl
  have hshort : ¬uint16Max < r.datagram.length := by
    rw [uint16Max]
    omega
  rw [journalDatagram, arrivalOf, if_neg hshort, qcrateJournalRecordEncode_eq _ _ _ _ _
    (length_address r.source) hfamily, encodeRecord, packJournalRecord, ← address_eq]
  rfl

theorem getBE_take_append {w n : ℕ} (h : n < 256 ^ w) (rest : Bytes) :
    getBE ((putBE w n ++ rest).take w) = n := by
  rw [List.take_left' (length_putBE w n), getBE_putBE, Nat.mod_eq_of_lt h]

theorem readRecordHeader_pack {r : JournalRecord} (h : r.Valid) :
    readRecordHeader (packJournalRecord r) =
      .ok (r.datagram.length, r.receiveMonotonicNs, r.source) := by
  have hd := h.datagram
  have hp := h.port
  have ht := h.receive
  have hlen : readBE 2 (packJournalRecord r) 0 = r.datagram.length :=
    readBE_putBE_of_lt (by omega) _
  have hfamily : readBE 1 (packJournalRecord r) 2 = r.source.family := by
    rw [packJournalRecord, readBE_skip (by simp)]
    exact readBE_putBE_of_lt (by cases r.source <;> simp [Source.family]) _
  have hflags : readBE 1 (packJournalRecord r) 3 = 0 := by
    rw [packJournalRecord, readBE_skip (by simp), readBE_skip (by simp)]
    exact readBE_putBE_of_lt (by simp) _
  have hport : readBE 2 (packJournalRecord r) 4 = r.source.port := by
    rw [packJournalRecord, readBE_skip (by simp), readBE_skip (by simp), readBE_skip (by simp)]
    exact readBE_putBE_of_lt (by omega) _
  have hreserved : readBE 2 (packJournalRecord r) 6 = 0 := by
    rw [packJournalRecord, readBE_skip (by simp), readBE_skip (by simp), readBE_skip (by simp),
      readBE_skip (by simp)]
    exact readBE_putBE_of_lt (by simp) _
  have hreceive : readBE 8 (packJournalRecord r) 8 = r.receiveMonotonicNs := by
    rw [packJournalRecord, readBE_skip (by simp), readBE_skip (by simp), readBE_skip (by simp),
      readBE_skip (by simp), readBE_skip (by simp)]
    exact readBE_putBE_of_lt (by omega) _
  have haddress : ((packJournalRecord r).drop 16).take 16 = ljust (packed r.source) 16 := by
    have hlength := length_address r.source
    rw [address_eq] at hlength
    exact List.take_of_length_le hlength.le
  simp only [readRecordHeader, hlen, hfamily, hflags, hport, hreserved, hreceive, haddress]
  rw [if_neg (by simp)]
  -- an address of four bytes is padded to 16, one of sixteen fills the field
  cases hs : r.source with
  | inet a port =>
    have ha : a.toNat < 256 ^ 4 := a.isLt
    have hf : (Source.inet a port).family = 4 := rfl
    rw [hf, if_pos rfl, if_neg (by simp [ljust, packed]), ljust, packed, getBE_take_append ha,
      BitVec.ofNat_toNat, BitVec.setWidth_eq]
    rfl
  | inet6 a port =>
    have ha : a.toNat < 256 ^ 16 := a.isLt
    have hself : ljust (packed (.inet6 a port)) 16 = putBE 16 a.toNat := by
      simp [ljust, packed]
    have hf : (Source.inet6 a port).family = 6 := rfl
    rw [hf, if_neg (by decide), if_pos rfl, hself, getBE_putBE, Nat.mod_eq_of_lt ha,
      BitVec.ofNat_toNat, BitVec.setWidth_eq]
    rfl

/-! ## Cuts -/

def recordSize (r : JournalRecord) : ℕ := journalRecordBytes + r.datagram.length

/-- Where the first `i` records end, counted from the end of the file's header. -/
def recordsEnd (records : List JournalRecord) (i : ℕ) : ℕ :=
  ((records.take i).map recordSize).sum

@[simp] theorem recordsEnd_zero (records : List JournalRecord) : recordsEnd records 0 = 0 := rfl

@[simp] theorem recordsEnd_succ (r : JournalRecord) (records : List JournalRecord) (i : ℕ) :
    recordsEnd (r :: records) (i + 1) = recordSize r + recordsEnd records i := rfl

theorem length_encodeRecord (r : JournalRecord) : (encodeRecord r).length = recordSize r := by
  rw [encodeRecord, List.length_append, length_packJournalRecord, recordSize, journalRecordBytes]

theorem readRecords_short {turns : ℕ} {journal : Bytes} (hpos : journal ≠ [])
    (h : journal.length < journalRecordBytes) :
    readRecords (turns + 1) journal = ([], some .recordTruncated) := by
  have htake : journal.take journalRecordBytes = journal := List.take_of_length_le h.le
  simp only [readRecords, htake]
  rw [if_neg hpos, if_pos h.ne]

theorem readRecords_header {turns : ℕ} {r : JournalRecord} (hr : r.Valid) (rest : Bytes) :
    readRecords (turns + 1) (packJournalRecord r ++ rest) =
      if (rest.take r.datagram.length).length ≠ r.datagram.length then
        ([], some .datagramTruncated)
      else
        (⟨r.receiveMonotonicNs, r.source, rest.take r.datagram.length⟩ ::
            (readRecords turns (rest.drop r.datagram.length)).1,
          (readRecords turns (rest.drop r.datagram.length)).2) := by
  have hlength : (packJournalRecord r).length = journalRecordBytes := length_packJournalRecord r
  have hne : packJournalRecord r ≠ [] := by
    intro h
    rw [h] at hlength
    cases hlength
  have hdrop : (packJournalRecord r ++ rest).drop journalRecordBytes = rest :=
    List.drop_left' hlength
  simp only [readRecords, List.take_left' hlength, hdrop]
  rw [if_neg hne, if_neg (not_not.mpr hlength), readRecordHeader_pack hr]

theorem readRecords_cons {turns : ℕ} {r : JournalRecord} (hr : r.Valid) (rest : Bytes) :
    readRecords (turns + 1) (encodeRecord r ++ rest) =
      (r :: (readRecords turns rest).1, (readRecords turns rest).2) := by
  rw [encodeRecord, List.append_assoc, readRecords_header hr, List.take_left, List.drop_left,
    if_neg (not_not.mpr rfl)]

/-- A record that is cut off ends the journal with an exception. -/
theorem readRecords_cut {turns cut : ℕ} {r : JournalRecord} (hr : r.Valid) (hpos : 0 < cut)
    (hcut : cut < recordSize r) (rest : Bytes) :
    ∃ e, readRecords (turns + 1) ((encodeRecord r ++ rest).take cut) = ([], some e) := by
  have hlength := length_packJournalRecord r
  have htake : (encodeRecord r ++ rest).take cut = (encodeRecord r).take cut := by
    refine List.take_append_of_le_length ?_
    rw [length_encodeRecord]
    exact hcut.le
  rw [recordSize, journalRecordBytes] at hcut
  rw [htake, encodeRecord]
  -- the cut is in the header of the record, or in its datagram
  by_cases hheader : cut < 32
  · have hlen : ((packJournalRecord r ++ r.datagram).take cut).length = cut := by
      rw [List.length_take, List.length_append]
      omega
    refine ⟨_, readRecords_short ?_ ?_⟩
    · intro h
      rw [h] at hlen
      exact hpos.ne hlen
    · rw [hlen, journalRecordBytes]
      exact hheader
  · refine ⟨.datagramTruncated, ?_⟩
    have hlen : ((r.datagram.take (cut - 32)).take r.datagram.length).length ≠
        r.datagram.length := by
      rw [List.length_take, List.length_take]
      omega
    rw [List.take_append, List.take_of_length_le (by omega), hlength, readRecords_header hr,
      if_pos hlen]

/-- The reader yields the records that lie before the cut, and ends without an exception when the
cut is the end of a record. -/
theorem readRecords_encode {records : List JournalRecord} (h : ∀ r ∈ records, r.Valid)
    {turns cut : ℕ} (hturns : cut < turns) (hcut : cut ≤ recordsEnd records records.length) :
    ∃ k ≤ records.length,
      (readRecords turns ((records.flatMap encodeRecord).take cut)).1 = records.take k ∧
      (∀ i ≤ records.length, i ≤ k ↔ recordsEnd records i ≤ cut) ∧
      ((readRecords turns ((records.flatMap encodeRecord).take cut)).2 = none ↔
        ∃ i ≤ records.length, cut = recordsEnd records i) := by
  induction records generalizing turns cut with
  | nil =>
    obtain ⟨turns, rfl⟩ : ∃ t, turns = t + 1 := ⟨turns - 1, by omega⟩
    obtain rfl : cut = 0 := Nat.le_zero.mp hcut
    refine ⟨0, le_rfl, rfl, ?_, ?_⟩
    · intro i hi
      simp [Nat.le_zero.mp hi]
    · exact iff_of_true rfl ⟨0, le_rfl, rfl⟩
  | cons r records ih =>
    obtain ⟨turns, rfl⟩ : ∃ t, turns = t + 1 := ⟨turns - 1, by omega⟩
    have hr := h r List.mem_cons_self
    have hsize : 32 ≤ recordSize r := Nat.le_add_right _ _
    rw [List.flatMap_cons]
    rcases Nat.lt_or_ge cut (recordSize r) with hlt | hge
    · -- no record lies before the cut
      have hnone : ∀ i ≤ (r :: records).length, i ≤ 0 ↔ recordsEnd (r :: records) i ≤ cut := by
        intro i _
        cases i with
        | zero => simp
        | succ i =>
          rw [recordsEnd_succ]
          omega
      rcases Nat.eq_zero_or_pos cut with rfl | hpos
      · exact ⟨0, Nat.zero_le _, rfl, hnone, iff_of_true rfl ⟨0, Nat.zero_le _, rfl⟩⟩
      · obtain ⟨e, he⟩ := readRecords_cut hr hpos hlt (records.flatMap encodeRecord)
        rw [he]
        refine ⟨0, Nat.zero_le _, rfl, hnone, iff_of_false (by simp) ?_⟩
        rintro ⟨i, -, hi⟩
        cases i with
        | zero => exact hpos.ne' hi
        | succ i =>
          rw [recordsEnd_succ] at hi
          omega
    · -- the first record is whole, and the rest is cut that much earlier
      have hsplit : (encodeRecord r ++ records.flatMap encodeRecord).take cut =
          encodeRecord r ++ (records.flatMap encodeRecord).take (cut - recordSize r) := by
        rw [List.take_append, List.take_of_length_le (by rw [length_encodeRecord]; exact hge),
          length_encodeRecord]
      have hrest : cut - recordSize r ≤ recordsEnd records records.length := by
        rw [List.length_cons, recordsEnd_succ] at hcut
        omega
      obtain ⟨k, hk, hyield, hwhole, hend⟩ := ih (fun q hq => h q (List.mem_cons_of_mem _ hq))
        (show cut - recordSize r < turns by omega) hrest
      rw [hsplit, readRecords_cons hr]
      refine ⟨k + 1, Nat.succ_le_succ hk, by rw [hyield, List.take_succ_cons], ?_, ?_⟩
      · intro i hi
        cases i with
        | zero => simp
        | succ i =>
          rw [recordsEnd_succ, Nat.succ_le_succ_iff, hwhole i (Nat.succ_le_succ_iff.mp hi),
            Nat.le_sub_iff_add_le hge, Nat.add_comm]
      · rw [hend]
        clear hend hwhole
        constructor
        · rintro ⟨i, hi, heq⟩
          refine ⟨i + 1, Nat.succ_le_succ hi, ?_⟩
          rw [recordsEnd_succ]
          omega
        · rintro ⟨i, hi, heq⟩
          cases i with
          | zero =>
            rw [recordsEnd_zero] at heq
            omega
          | succ i =>
            rw [recordsEnd_succ] at heq
            exact ⟨i, Nat.succ_le_succ_iff.mp hi, by omega⟩

/-! ## Files -/

/-- Where record number `i` ends in the file. -/
def recordEnd (records : List JournalRecord) (i : ℕ) : ℕ :=
  journalHeaderBytes + recordsEnd records i

theorem journalHeader_eq : qcrateJournalHeaderEncode = packJournalHeader := by decide

theorem writeJournal_eq {records : List JournalRecord} (h : ∀ r ∈ records, r.Valid) :
    writeJournal records = .ok (packJournalHeader ++ records.flatMap encodeRecord) := by
  have hrecords : records.mapM writeRecord = .ok (records.map encodeRecord) := by
    induction records with
    | nil => rfl
    | cons r records ih =>
      rw [List.mapM_cons, writeRecord_eq (h r List.mem_cons_self),
        ih fun q hq => h q (List.mem_cons_of_mem _ hq)]
      rfl
  rw [writeJournal, hrecords, List.flatMap_def]
  rfl

/-- The recorder and the receiver write the same journal. -/
theorem journalOf_eq {records : List JournalRecord} (h : ∀ r ∈ records, r.Valid) :
    journalOf (records.map arrivalOf) =
      some (packJournalHeader ++ records.flatMap encodeRecord) := by
  have hrecords : (records.map arrivalOf).mapM journalDatagram =
      some (records.map encodeRecord) := by
    induction records with
    | nil => rfl
    | cons r records ih =>
      rw [List.map_cons, List.mapM_cons, journalDatagram_eq (h r List.mem_cons_self),
        ih fun q hq => h q (List.mem_cons_of_mem _ hq)]
      rfl
  rw [journalOf, hrecords, List.flatMap_def, journalHeader_eq]
  rfl

theorem readJournal_header (rest : Bytes) :
    readJournal (packJournalHeader ++ rest) =
      readRecords ((packJournalHeader ++ rest).length + 1) rest := by
  have htake : (packJournalHeader ++ rest).take journalHeaderBytes = packJournalHeader :=
    List.take_left' rfl
  have hdrop : (packJournalHeader ++ rest).drop journalHeaderBytes = rest := List.drop_left' rfl
  have hfields : packJournalHeader.length = journalHeaderBytes ∧
      readBE 4 packJournalHeader 0 = journalMagic ∧
      ¬(readBE 2 packJournalHeader 4 ≠ journalVersion ∨
        readBE 2 packJournalHeader 6 ≠ journalHeaderBytes) ∧
      readBE 8 packJournalHeader 8 = 0 := by decide
  obtain ⟨hlength, hmagic, hversion, hreserved⟩ := hfields
  simp only [readJournal, htake, hdrop]
  rw [if_neg (not_not.mpr hlength), if_neg (not_not.mpr hmagic), if_neg hversion,
    if_neg (not_not.mpr hreserved)]

theorem recordsEnd_length (records : List JournalRecord) :
    (records.flatMap encodeRecord).length = recordsEnd records records.length := by
  rw [recordsEnd, List.take_length, List.length_flatMap]
  congr 1
  exact List.map_congr_left fun r _ => length_encodeRecord r

/-- A journal cut off anywhere. -/
theorem readJournal_cut {records : List JournalRecord} (h : ∀ r ∈ records, r.Valid) {cut : ℕ}
    (hcut : cut ≤ recordEnd records records.length) :
    ∃ k ≤ records.length,
      (readJournal ((packJournalHeader ++ records.flatMap encodeRecord).take cut)).1 =
        records.take k ∧
      (∀ i, 0 < i → i ≤ records.length → (i ≤ k ↔ recordEnd records i ≤ cut)) ∧
      ((readJournal ((packJournalHeader ++ records.flatMap encodeRecord).take cut)).2 = none ↔
        ∃ i ≤ records.length, cut = recordEnd records i) := by
  have hlength : packJournalHeader.length = journalHeaderBytes := rfl
  rcases Nat.lt_or_ge cut journalHeaderBytes with hlt | hge
  · have hshort : (((packJournalHeader ++ records.flatMap encodeRecord).take cut).take
        journalHeaderBytes).length ≠ journalHeaderBytes := by
      rw [List.length_take, List.length_take]
      omega
    have hread : readJournal ((packJournalHeader ++ records.flatMap encodeRecord).take cut) =
        ([], some .headerTruncated) := if_pos hshort
    rw [hread]
    refine ⟨0, Nat.zero_le _, rfl, ?_, iff_of_false (by simp) ?_⟩
    · intro i hi _
      rw [recordEnd]
      omega
    · rintro ⟨i, -, hi⟩
      rw [recordEnd] at hi
      omega
  · have hsplit : (packJournalHeader ++ records.flatMap encodeRecord).take cut =
        packJournalHeader ++ (records.flatMap encodeRecord).take (cut - journalHeaderBytes) := by
      rw [List.take_append, List.take_of_length_le (by rw [hlength]; exact hge), hlength]
    have hbody : (records.flatMap encodeRecord).length = recordsEnd records records.length :=
      recordsEnd_length records
    rw [recordEnd] at hcut
    have hturns : cut - journalHeaderBytes < (packJournalHeader ++
        (records.flatMap encodeRecord).take (cut - journalHeaderBytes)).length + 1 := by
      rw [List.length_append, List.length_take]
      omega
    obtain ⟨k, hk, hyield, hwhole, hend⟩ := readRecords_encode h hturns
      (show cut - journalHeaderBytes ≤ _ by omega)
    rw [hsplit, readJournal_header]
    refine ⟨k, hk, hyield, ?_, hend.trans ?_⟩
    · intro i _ hi
      rw [hwhole i hi, recordEnd, Nat.le_sub_iff_add_le hge, Nat.add_comm]
    · refine exists_congr fun i => and_congr_right fun _ => ?_
      rw [recordEnd, Nat.sub_eq_iff_eq_add hge, Nat.add_comm]

/-- The recorder and the receiver write one journal, from which the reader yields the records;
of a journal that is cut off it yields the records that are whole, and it ends without an
exception only at the end of the header or of a record. -/
theorem journal_roundTrip (records : List JournalRecord) (h : ∀ r ∈ records, r.Valid) :
    ∃ contents, journalOf (records.map arrivalOf) = some contents ∧
      writeJournal records = .ok contents ∧
      readJournal contents = (records, none) ∧
      ∀ cut ≤ contents.length, ∃ k ≤ records.length,
        (readJournal (contents.take cut)).1 = records.take k ∧
        (∀ i, 0 < i → i ≤ records.length → (i ≤ k ↔ recordEnd records i ≤ cut)) ∧
        ((readJournal (contents.take cut)).2 = none ↔
          ∃ i ≤ records.length, cut = recordEnd records i) := by
  have hlength : (packJournalHeader ++ records.flatMap encodeRecord).length =
      recordEnd records records.length := by
    rw [List.length_append, recordsEnd_length]
    rfl
  refine ⟨_, journalOf_eq h, writeJournal_eq h, ?_, ?_⟩
  · obtain ⟨k, hk, hyield, hwhole, hend⟩ := readJournal_cut h (le_refl (recordEnd records _))
    rw [List.take_of_length_le hlength.le] at hyield hend
    have hnone := hend.mpr ⟨records.length, le_rfl, rfl⟩
    -- the end of the last record is a cut that leaves all records whole
    have hall : records.take k = records := by
      rcases Nat.eq_zero_or_pos records.length with h0 | hpos
      · rw [List.eq_nil_of_length_eq_zero h0, List.take_nil]
      · exact List.take_of_length_le ((hwhole _ hpos le_rfl).mpr le_rfl)
    exact Prod.ext (hyield.trans hall) hnone
  · intro cut hcut
    rw [hlength] at hcut
    exact readJournal_cut h hcut

/-- A datagram by IPv4 and one by IPv6. -/
theorem journal_roundTrip_pair :
    ∃ contents, journalOf [⟨.inet 0x0a000001 47000, 5, [1, 2]⟩, ⟨.inet6 1 47001, 9, [3]⟩] =
        some contents ∧
      readJournal contents =
        ([⟨5, .inet 0x0a000001 47000, [1, 2]⟩, ⟨9, .inet6 1 47001, [3]⟩], none) := by
  have hvalid : ∀ r ∈ ([⟨5, .inet 0x0a000001 47000, [1, 2]⟩, ⟨9, .inet6 1 47001, [3]⟩] :
      List JournalRecord), r.Valid := by
    intro r hr
    rcases List.mem_pair.mp hr with rfl | rfl
    · exact ⟨by decide, by decide, by decide⟩
    · exact ⟨by decide, by decide, by decide⟩
  obtain ⟨contents, hwrite, -, hread, -⟩ := journal_roundTrip _ hvalid
  exact ⟨contents, hwrite, hread⟩

end QCrate.Receiver
