import QCrate.Receiver.Assembler

/-!
# The counters of the receiver

Every datagram ends in exactly one counter of `ShotAssembler`, or waits in the window.

* `settled` — the datagrams that have been classified; `settled_route` adds one of them.
* `ingestAll_accounted` — the total is the sum of the classes, the window and what the window lost.
-/

namespace QCrate.Receiver.ShotAssembler

open QCrate.DataPlane

variable {δ : Type}

/-- The datagrams that one of the counters has taken. -/
def settled (a : ShotAssembler δ) : ℕ :=
  a.validSelectedPackets + a.duplicatePackets + a.conflictingDuplicates + a.foreignPackets +
    a.malformedSelected + a.malformedUnclassified

/-- The datagrams that wait in the window or that the window has dropped. -/
def unsettled (a : ShotAssembler δ) : ℕ := a.pending.length + a.pendingOverflow

/-- The total is the settled and the unsettled datagrams. -/
def Accounted (a : ShotAssembler δ) : Prop := a.totalDatagrams = a.settled + a.unsettled

/-! ## What routing counts -/

/-- The total and the window are those of `a`, and `n` more datagrams are settled. -/
structure Settles (n : ℕ) (a b : ShotAssembler δ) : Prop where
  settled : b.settled = a.settled + n
  unsettled : b.unsettled = a.unsettled
  total : b.totalDatagrams = a.totalDatagrams

variable {a b c : ShotAssembler δ} {m n : ℕ}

theorem Settles.refl (a : ShotAssembler δ) : Settles 0 a a := ⟨rfl, rfl, rfl⟩

theorem Settles.trans (hab : Settles m a b) (hbc : Settles n b c) : Settles (m + n) a c where
  settled := by rw [hbc.settled, hab.settled, Nat.add_assoc]
  unsettled := hbc.unsettled.trans hab.unsettled
  total := hbc.total.trans hab.total

/-- An error changes no counter. -/
theorem settles_addError (a : ShotAssembler δ) (i : Issue) : Settles 0 a (a.addError i) :=
  ⟨rfl, rfl, rfl⟩

theorem settles_acceptInfo (a : ShotAssembler δ) (packet : Packet) :
    Settles 0 a (a.acceptInfo packet) := by
  unfold acceptInfo
  split
  · exact settles_addError a _
  · split
    · exact ⟨rfl, rfl, rfl⟩
    · split
      · exact settles_addError a _
      · split
        · exact settles_addError a _
        · exact Settles.refl a

theorem settles_acceptEnd (a : ShotAssembler δ) (packet : Packet) :
    Settles 0 a (a.acceptEnd packet) := by
  unfold acceptEnd
  split
  · exact settles_addError a _
  · split
    · exact ⟨rfl, rfl, rfl⟩
    · split
      · exact settles_addError a _
      · exact Settles.refl a

theorem settles_note (a : ShotAssembler δ) (sequence : ℕ) (digest : δ) :
    Settles 1 a (a.note sequence digest) := by
  refine ⟨?_, rfl, rfl⟩
  simp only [settled, note]
  omega

section Routing

variable [DecidableEq δ] (sha256 : Bytes → δ)

/-- A packet of the shot is valid, a duplicate or a conflict. -/
theorem settles_accept (a : ShotAssembler δ) (packet : Packet) (datagram : Bytes) :
    Settles 1 a (a.accept sha256 packet datagram) := by
  unfold accept
  dsimp only
  split
  · -- a sequence that is known
    split
    · refine ⟨?_, rfl, rfl⟩
      simp only [settled]
      omega
    · refine ⟨?_, rfl, rfl⟩
      simp only [settled, addError]
      omega
  · have hnote := settles_note a packet.header.packetSequence (sha256 datagram)
    split
    · exact hnote.trans (settles_acceptInfo _ packet)
    · exact hnote.trans (n := 0) ⟨rfl, rfl, rfl⟩
    · exact hnote.trans (settles_acceptEnd _ packet)
    · exact hnote

theorem settles_route (identity : Identity) (a : ShotAssembler δ) (item : Pending) :
    Settles 1 a (a.route sha256 identity item) := by
  unfold route
  split
  · -- no header
    split
    · split
      all_goals
        refine ⟨?_, rfl, rfl⟩
        simp only [settled, addError]
        omega
    · exact ⟨rfl, rfl, rfl⟩
  · split
    · refine ⟨?_, rfl, rfl⟩
      simp only [settled]
      omega
    · split
      · refine ⟨?_, rfl, rfl⟩
        simp only [settled, addError]
        omega
      · exact settles_accept sha256 a _ _

/-- The replay of the window settles every item of it. -/
theorem settles_routeAll (identity : Identity) (items : List Pending) (a : ShotAssembler δ) :
    Settles items.length a (items.foldl (route sha256 identity) a) := by
  induction items generalizing a with
  | nil => exact Settles.refl a
  | cons item items ih =>
    rw [List.length_cons, Nat.add_comm]
    exact (settles_route sha256 identity a item).trans (ih _)

end Routing

/-! ## Arrivals -/

/-- A datagram that has to wait is in the window, and the one it pushes out is counted as lost. -/
theorem unsettled_savePending (a : ShotAssembler δ) (item : Pending) :
    (a.savePending item).unsettled = a.unsettled + 1 ∧
      (a.savePending item).settled = a.settled ∧
      (a.savePending item).totalDatagrams = a.totalDatagrams := by
  unfold savePending
  split
  · next hfull =>
    refine ⟨?_, rfl, rfl⟩
    have hpos : 0 < a.pending.length := lt_of_lt_of_le (by decide) hfull
    simp only [unsettled, List.length_append, List.length_drop, List.length_singleton]
    omega
  · refine ⟨?_, rfl, rfl⟩
    simp only [unsettled, List.length_append, List.length_singleton]
    omega

variable [DecidableEq δ] (sha256 : Bytes → δ)

theorem accounted_ingest (h : a.Accounted) (record : JournalRecord) :
    (a.ingest sha256 record).Accounted := by
  unfold Accounted at h ⊢
  unfold ingest
  dsimp only
  split
  · -- a shot is selected
    next identity _ =>
    obtain ⟨hsettled, hunsettled, htotal⟩ := settles_route sha256 identity
      { a with totalDatagrams := a.totalDatagrams + 1 } (read record)
    rw [hsettled, hunsettled, htotal]
    simp only [settled, unsettled] at h ⊢
    omega
  · split
    · -- the datagram waits
      obtain ⟨hunsettled, hsettled, htotal⟩ := unsettled_savePending
        { a with totalDatagrams := a.totalDatagrams + 1 } (read record)
      rw [hsettled, hunsettled, htotal]
      simp only [settled, unsettled] at h ⊢
      omega
    · -- the datagram selects the shot, and the window is replayed before it
      next identity _ =>
      obtain ⟨hsettled, hunsettled, htotal⟩ := settles_routeAll sha256 identity
        (a.pending ++ [read record])
        { a with
          totalDatagrams := a.totalDatagrams + 1, identity := some identity, pending := [] }
      rw [hsettled, hunsettled, htotal, List.length_append, List.length_singleton]
      simp only [settled, unsettled, List.length_nil] at h ⊢
      omega

theorem totalDatagrams_ingest (a : ShotAssembler δ) (record : JournalRecord) :
    (a.ingest sha256 record).totalDatagrams = a.totalDatagrams + 1 := by
  unfold ingest
  dsimp only
  split
  · exact (settles_route sha256 _ _ _).total
  · split
    · exact (unsettled_savePending _ _).2.2
    · exact (settles_routeAll sha256 _ _ _).total

/-- After any datagrams from any sources, each of them is in one class, in the window, or lost
by the window. -/
theorem ingestAll_accounted (records : List JournalRecord) :
    (ingestAll sha256 records).totalDatagrams = records.length ∧
    (ingestAll sha256 records).totalDatagrams =
      (ingestAll sha256 records).validSelectedPackets +
        (ingestAll sha256 records).duplicatePackets +
        (ingestAll sha256 records).conflictingDuplicates +
        (ingestAll sha256 records).foreignPackets +
        (ingestAll sha256 records).malformedSelected +
        (ingestAll sha256 records).malformedUnclassified +
        ((ingestAll sha256 records).pending.length +
          (ingestAll sha256 records).pendingOverflow) := by
  have hfold : ∀ a : ShotAssembler δ, a.Accounted →
      (records.foldl (ingest sha256) a).Accounted ∧
        (records.foldl (ingest sha256) a).totalDatagrams = a.totalDatagrams + records.length := by
    induction records with
    | nil => exact fun a ha => ⟨ha, rfl⟩
    | cons record records ih =>
      intro a ha
      obtain ⟨haccounted, htotal⟩ := ih _ (accounted_ingest sha256 ha record)
      refine ⟨haccounted, htotal.trans ?_⟩
      rw [totalDatagrams_ingest, List.length_cons]
      omega
  obtain ⟨haccounted, htotal⟩ := hfold {} rfl
  exact ⟨htotal.trans (Nat.zero_add _), haccounted⟩

end QCrate.Receiver.ShotAssembler
