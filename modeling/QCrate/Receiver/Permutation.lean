import QCrate.Receiver.Gathering
import QCrate.DataPlane.Emission

/-!
# The receiver: the order of arrival

What the verdict on a shot owes to the order in which its datagrams arrive.

* `finalize_complete` — the verdict, from the first STREAM_INFO and SHOT_END.
* `verdict_order` — the order matters only where the sequence of one of the two is in doubt.
-/

namespace QCrate.Receiver

open QCrate.Lib QCrate.DataPlane

variable {r s : JournalRecord} {rs : List JournalRecord}

/-! ## The verdict -/

/-- The sequences of the datagrams are those of the interval. -/
def Spans (rs : List JournalRecord) (first last : ℕ) : Prop :=
  first ≤ last ∧ ∀ n, (∃ r ∈ rs, sequenceOf r = some n) ↔ first ≤ n ∧ n ≤ last

/-- The DATA packets of the datagrams in the order of their sequences. -/
def InSequence (rs : List JournalRecord) (o : Ordered) : Prop :=
  o.chunks.Pairwise (·.1 < ·.1) ∧ ∀ c, c ∈ o.chunks ↔ ∃ r ∈ rs, dataOf r = some c

/-- The DATA packets make up the shot that STREAM_INFO and SHOT_END describe. -/
def DataSound (rs : List JournalRecord) (frameSamples : ℕ) (last : ShotEnd) : Prop :=
  ∃ o, InSequence rs o ∧ o.issues (some frameSamples) = [] ∧ o.endIssues last = []

/-- A STREAM_INFO and a SHOT_END between which the shot is whole. -/
def Bounds (rs : List JournalRecord) (x : Header × StreamInfo) (y : Header × ShotEnd) : Prop :=
  Spans rs x.1.packetSequence y.1.packetSequence ∧ DataSound rs x.2.frameSamples y.2

theorem Spans.unique {first first' last last' : ℕ} (h : Spans rs first last)
    (h' : Spans rs first' last') : first = first' ∧ last = last' := by
  have hfirst := (h'.2 first).mp ((h.2 first).mpr ⟨le_rfl, h.1⟩)
  have hfirst' := (h.2 first').mp ((h'.2 first').mpr ⟨le_rfl, h'.1⟩)
  have hlast := (h'.2 last).mp ((h.2 last).mpr ⟨h.1, le_rfl⟩)
  have hlast' := (h.2 last').mp ((h'.2 last').mpr ⟨h'.1, le_rfl⟩)
  omega

theorem InSequence.unique {o o' : Ordered} (h : InSequence rs o) (h' : InSequence rs o') :
    o = o' := by
  obtain ⟨chunks⟩ := o
  obtain ⟨chunks'⟩ := o'
  have hnodup : ∀ l : List Chunk, l.Pairwise (·.1 < ·.1) → l.Nodup := by
    intro l hl
    refine hl.imp fun {c d} hlt heq => ?_
    rw [heq] at hlt
    exact lt_irrefl _ hlt
  have hperm : chunks.Perm chunks' :=
    (List.perm_ext_iff_of_nodup (hnodup _ h.1) (hnodup _ h'.1)).mpr fun c =>
      (h.2 c).trans (h'.2 c).symm
  have heq : chunks = chunks' := by
    refine hperm.eq_of_pairwise ?_ h.1 h'.1
    intro c d _ _ hcd hdc
    exact absurd hcd (Nat.lt_asymm hdc)
  rw [heq]

theorem bounds_congr {rs' : List JournalRecord} (hmem : ∀ r, r ∈ rs ↔ r ∈ rs')
    {x : Header × StreamInfo} {y : Header × ShotEnd} (h : Bounds rs x y) : Bounds rs' x y := by
  obtain ⟨⟨hle, hspans⟩, o, ⟨hsorted, hdata⟩, hissues⟩ := h
  refine ⟨⟨hle, fun n => ?_⟩, o, ⟨hsorted, fun c => ?_⟩, hissues⟩
  · rw [← hspans]
    simp only [hmem]
  · rw [hdata]
    simp only [hmem]

namespace ShotAssembler

variable {δ : Type} {a : ShotAssembler δ} {sha256 : Bytes → δ} {identity : Identity}

/-- `ordered_data` has the DATA packets in sequence. -/
theorem Holds.inSequence (h : Holds sha256 rs a) : InSequence rs a.ordered := by
  constructor
  · have hle : (a.dataPackets.insertionSort (·.1 ≤ ·.1)).Pairwise fun c d => c.1 ≤ d.1 :=
      pairwise_insertionSort_key (fun _ _ => Iff.rfl) _
    have hne : ((a.dataPackets.insertionSort (·.1 ≤ ·.1)).map (·.1)).Nodup :=
      ((List.perm_insertionSort _ a.dataPackets).map _).nodup_iff.mpr h.keys
    exact (hle.and (List.pairwise_map.mp hne)).imp fun hboth => lt_of_le_of_ne hboth.1 hboth.2
  · intro c
    unfold ordered
    rw [List.mem_insertionSort]
    exact h.data c

theorem Holds.mem_sequences (h : Holds sha256 rs a) (n : ℕ) :
    n ∈ a.sequences ↔ ∃ r ∈ rs, sequenceOf r = some n := by
  unfold sequences
  rw [List.mem_map]
  constructor
  · rintro ⟨⟨m, d⟩, hmem, rfl⟩
    obtain ⟨r, hr, hseq, -⟩ := (h.seen m d).mp hmem
    exact ⟨r, hr, hseq⟩
  · rintro ⟨r, hr, hseq⟩
    exact ⟨(n, sha256 r.datagram), (h.seen _ _).mpr ⟨r, hr, hseq, rfl⟩, rfl⟩

theorem Holds.intervalIssues_eq_nil (h : Holds sha256 rs a) {x : Header × StreamInfo}
    {y : Header × ShotEnd} (hx : a.streamInfo = some x) (hy : a.shotEnd = some y) :
    a.intervalIssues = [] ↔ Spans rs x.1.packetSequence y.1.packetSequence := by
  unfold intervalIssues Spans
  rw [hx, hy]
  dsimp only
  by_cases hlt : y.1.packetSequence < x.1.packetSequence
  · rw [if_pos hlt]
    constructor
    · intro hno
      cases hno
    · intro hno
      omega
  · have hle := Nat.le_of_not_lt hlt
    rw [if_neg hlt]
    simp only [List.append_eq_nil_iff, issueIf_eq_nil, not_not]
    rw [findMissingRanges_eq_zero hle, List.countP_eq_zero]
    simp only [decide_eq_true_eq, not_or, Nat.not_lt]
    constructor
    · rintro ⟨hall, hin⟩
      refine ⟨hle, fun n => ⟨fun hn => hin n ((h.mem_sequences n).mpr hn), fun hn => ?_⟩⟩
      exact (h.mem_sequences n).mp (hall n hn.1 hn.2)
    · rintro ⟨-, hiff⟩
      exact ⟨fun n hn hn' => (h.mem_sequences n).mpr ((hiff n).mpr ⟨hn, hn'⟩),
        fun n hn => (hiff n).mp ((h.mem_sequences n).mp hn)⟩

theorem eraseDups_eq_nil {l : List Issue} : l.eraseDups = [] ↔ l = [] := by
  cases l with
  | nil => simp
  | cons i l => simp [List.eraseDups_cons]

/-- The checks of `finalize` on gathered datagrams. -/
theorem Gathered.issues_eq_nil (h : Gathered sha256 identity rs a) :
    a.issues = [] ↔ Clean rs ∧ ∃ x y, rs.findSome? infoOf = some x ∧
      rs.findSome? endOf = some y ∧ Bounds rs x y := by
  unfold issues
  simp only [List.append_eq_nil_iff, issueIf_eq_nil, not_not, eraseDups_eq_nil]
  constructor
  · rintro ⟨⟨⟨⟨⟨⟨⟨⟨⟨herrors, -⟩, hinfo⟩, hend⟩, hmalformed⟩, hconflicting⟩, -⟩, hinterval⟩,
      hdata⟩, hlast⟩
    have hclean := h.spotless.mp ⟨herrors, hmalformed, hconflicting⟩
    have hholds := h.holds hclean
    obtain ⟨x, hx⟩ := Option.ne_none_iff_exists'.mp hinfo
    obtain ⟨y, hy⟩ := Option.ne_none_iff_exists'.mp hend
    rw [hx] at hdata
    rw [hy] at hlast
    exact ⟨hclean, x, y, hholds.info.symm.trans hx, hholds.shotEnd.symm.trans hy,
      (hholds.intervalIssues_eq_nil hx hy).mp hinterval, a.ordered, hholds.inSequence, hdata, hlast⟩
  · rintro ⟨hclean, x, y, hx, hy, hspans, o, ho, hdata, hlast⟩
    have hholds := h.holds hclean
    obtain ⟨herrors, hmalformed, hconflicting⟩ := h.spotless.mpr hclean
    rw [← hholds.info] at hx
    rw [← hholds.shotEnd] at hy
    rw [ho.unique hholds.inSequence] at hdata hlast
    have hinterval := (hholds.intervalIssues_eq_nil hx hy).mpr hspans
    rw [hx, hy]
    exact ⟨⟨⟨⟨⟨⟨⟨⟨⟨herrors, by rw [h.identity]; simp⟩, by simp⟩, by simp⟩, hmalformed⟩,
      hconflicting⟩, h.pendingOverflow⟩, hinterval⟩, hdata⟩, hlast⟩

variable [DecidableEq δ]

/-- The verdict on the datagrams of a shot in the order of their arrival. -/
theorem finalize_complete (hrs : ∀ r ∈ rs, OfShot identity r) (hsha : NoCollision sha256 rs)
    (hlen : rs.length ≤ maxPendingDatagrams) :
    ((ingestAll sha256 rs).finalize.complete = true ↔ Clean rs ∧ ∃ x y,
      rs.findSome? infoOf = some x ∧ rs.findSome? endOf = some y ∧ Bounds rs x y) ∧
    ((ingestAll sha256 rs).finalize.complete = true → ∃ o, InSequence rs o ∧
      (ingestAll sha256 rs).finalize.samples = some o.reconstructed) := by
  have hempty : (ingestAll sha256 rs).finalize.complete = true ↔
      (ingestAll sha256 rs).issues = [] := List.isEmpty_iff
  rcases ingestAll_gathered hrs hsha hlen with ⟨hwaiting, hnone⟩ | hgathered
  · have hissues : (ingestAll sha256 rs).issues ≠ [] := by
      rw [hwaiting]
      exact issues_ne_nil rfl
    have hnever : ¬ (ingestAll sha256 rs).finalize.complete = true := fun h => hissues (hempty.mp h)
    refine ⟨⟨fun h => absurd h hnever, ?_⟩, fun h => absurd h hnever⟩
    rintro ⟨-, x, -, hx, -⟩
    obtain ⟨r, hr, hinfo⟩ := List.exists_of_findSome?_eq_some hx
    have hno := hnone r hr
    rw [selects_read (hrs r hr), if_pos (any_of_infoOf hinfo)] at hno
    cases hno
  · have hiff := hempty.trans hgathered.issues_eq_nil
    refine ⟨hiff, fun h => ⟨_, (hgathered.holds (hiff.mp h).1).inSequence, ?_⟩⟩
    exact if_pos h

end ShotAssembler

/-! ## Orders of arrival -/

/-- In some order of the datagrams the shot is whole. -/
def Sound (rs : List JournalRecord) : Prop :=
  Clean rs ∧ ∃ r ∈ rs, ∃ s ∈ rs, ∃ x y, infoOf r = some x ∧ endOf s = some y ∧ Bounds rs x y

/-- Two STREAM_INFO packets of different sequences, or two SHOT_END packets. -/
def Ambiguous (rs : List JournalRecord) : Prop :=
  (∃ r ∈ rs, ∃ s ∈ rs, ∃ x y, infoOf r = some x ∧ infoOf s = some y ∧
    x.1.packetSequence ≠ y.1.packetSequence) ∨
  ∃ r ∈ rs, ∃ s ∈ rs, ∃ x y, endOf r = some x ∧ endOf s = some y ∧
    x.1.packetSequence ≠ y.1.packetSequence

/-- The captures agree on completeness and, when they are complete, on the samples. -/
def SameVerdict (a b : Capture) : Prop :=
  a.complete = b.complete ∧ (a.complete = true → a.samples = b.samples)

theorem not_info_of_end {x : Header × StreamInfo} {y : Header × ShotEnd} (hx : infoOf r = some x)
    (hy : endOf r = some y) : False := by
  unfold infoOf at hx
  unfold endOf at hy
  cases hp : packetOf r with
  | none =>
    rw [hp] at hx
    cases hx
  | some p =>
    rw [hp, Option.bind_some] at hx hy
    split at hx
    · next hinfo =>
      rw [hinfo, if_neg (by decide)] at hy
      cases hy
    · cases hx

/-- A whole shot without ambiguity is whole in every order. -/
theorem bounds_of_not_ambiguous (hclean : Clean rs) (hnot : ¬ Ambiguous rs) (hr : r ∈ rs)
    (hs : s ∈ rs) {x : Header × StreamInfo} {y : Header × ShotEnd} (hx : infoOf r = some x)
    (hy : endOf s = some y) (h : Bounds rs x y) :
    ∃ x' y', rs.findSome? infoOf = some x' ∧ rs.findSome? endOf = some y' ∧ Bounds rs x' y' := by
  have hinfo : (rs.findSome? infoOf).isSome :=
    List.findSome?_isSome_iff.mpr ⟨r, hr, by rw [hx]; rfl⟩
  have hend : (rs.findSome? endOf).isSome :=
    List.findSome?_isSome_iff.mpr ⟨s, hs, by rw [hy]; rfl⟩
  obtain ⟨x', hx'⟩ := Option.isSome_iff_exists.mp hinfo
  obtain ⟨y', hy'⟩ := Option.isSome_iff_exists.mp hend
  obtain ⟨r', hr', hinfo'⟩ := List.exists_of_findSome?_eq_some hx'
  obtain ⟨s', hs', hend'⟩ := List.exists_of_findSome?_eq_some hy'
  refine ⟨x', y', hx', hy', ?_⟩
  have hfirst : x'.1.packetSequence = x.1.packetSequence := by
    by_contra hne
    exact hnot (.inl ⟨r', hr', r, hr, x', x, hinfo', hx, hne⟩)
  have hlast : y'.1.packetSequence = y.1.packetSequence := by
    by_contra hne
    exact hnot (.inr ⟨s', hs', s, hs, y', y, hend', hy, hne⟩)
  have hinfos := ((hclean.compatible r' hr' r hr).infos x' x hinfo' hx).1
  have hends := (hclean.compatible s' hs' s hs).ends y' y hend' hy
  unfold Bounds
  rw [hfirst, hlast, hinfos, hends]
  exact h

section Orders

variable {δ : Type} [DecidableEq δ] (sha256 : Bytes → δ) {identity : Identity}
  {records order order' : List JournalRecord}

/-- The verdict in some order of the datagrams. -/
theorem verdict_of_perm (hrs : ∀ r ∈ records, OfShot identity r)
    (hsha : ShotAssembler.NoCollision sha256 records)
    (hlen : records.length ≤ maxPendingDatagrams) (hperm : order.Perm records) :
    ((ShotAssembler.ingestAll sha256 order).finalize.complete = true ↔ Clean records ∧ ∃ x y,
      order.findSome? infoOf = some x ∧ order.findSome? endOf = some y ∧ Bounds records x y) ∧
    ((ShotAssembler.ingestAll sha256 order).finalize.complete = true → ∃ o,
      InSequence records o ∧
        (ShotAssembler.ingestAll sha256 order).finalize.samples = some o.reconstructed) := by
  have hmem : ∀ r, r ∈ order ↔ r ∈ records := fun r => hperm.mem_iff
  have hmem' : ∀ r, r ∈ records ↔ r ∈ order := fun r => (hmem r).symm
  obtain ⟨hiff, hsamples⟩ := ShotAssembler.finalize_complete
    (fun r hr => hrs r ((hmem r).mp hr))
    (fun r hr s hs => hsha r ((hmem r).mp hr) s ((hmem s).mp hs))
    (hperm.length_eq.le.trans hlen)
  constructor
  · rw [hiff]
    constructor
    · rintro ⟨hclean, x, y, hx, hy, hbounds⟩
      exact ⟨clean_congr hmem hclean, x, y, hx, hy, bounds_congr hmem hbounds⟩
    · rintro ⟨hclean, x, y, hx, hy, hbounds⟩
      exact ⟨clean_congr hmem' hclean, x, y, hx, hy, bounds_congr hmem' hbounds⟩
  · intro hcomplete
    obtain ⟨o, ⟨hsorted, hdata⟩, heq⟩ := hsamples hcomplete
    refine ⟨o, ⟨hsorted, fun c => ?_⟩, heq⟩
    rw [hdata]
    simp only [hmem]

/-- Where the sequences are not in doubt, a capture that is complete in one order is complete in
any other. -/
theorem complete_of_perm (hrs : ∀ r ∈ records, OfShot identity r)
    (hsha : ShotAssembler.NoCollision sha256 records)
    (hlen : records.length ≤ maxPendingDatagrams) (hnot : ¬ (Sound records ∧ Ambiguous records))
    (hperm : order.Perm records) (hperm' : order'.Perm records)
    (hcomplete : (ShotAssembler.ingestAll sha256 order).finalize.complete = true) :
    (ShotAssembler.ingestAll sha256 order').finalize.complete = true := by
  obtain ⟨hclean, x, y, hx, hy, hbounds⟩ :=
    (verdict_of_perm sha256 hrs hsha hlen hperm).1.mp hcomplete
  obtain ⟨r, hr, hinfo⟩ := List.exists_of_findSome?_eq_some hx
  obtain ⟨s, hs, hend⟩ := List.exists_of_findSome?_eq_some hy
  rw [hperm.mem_iff] at hr hs
  have hunambiguous : ¬ Ambiguous order' := by
    intro hno
    refine hnot ⟨⟨hclean, r, hr, s, hs, x, y, hinfo, hend, hbounds⟩, ?_⟩
    unfold Ambiguous at hno ⊢
    simp only [hperm'.mem_iff] at hno
    exact hno
  have hmem : ∀ r, r ∈ records ↔ r ∈ order' := fun r => hperm'.mem_iff.symm
  obtain ⟨x', y', hx', hy', hbounds'⟩ := bounds_of_not_ambiguous (clean_congr hmem hclean)
    hunambiguous ((hmem r).mp hr) ((hmem s).mp hs) hinfo hend (bounds_congr hmem hbounds)
  exact (verdict_of_perm sha256 hrs hsha hlen hperm').1.mpr ⟨hclean, x', y', hx', hy',
    bounds_congr (fun r => (hmem r).symm) hbounds'⟩

/-- Where the shot is whole and every order gives the same verdict, no sequence is in doubt. -/
theorem not_ambiguous_of_same (hrs : ∀ r ∈ records, OfShot identity r)
    (hsha : ShotAssembler.NoCollision sha256 records)
    (hlen : records.length ≤ maxPendingDatagrams) (hsound : Sound records)
    (hsame : ∀ first second : List JournalRecord, first.Perm records → second.Perm records →
      (ShotAssembler.ingestAll sha256 first).finalize.complete =
        (ShotAssembler.ingestAll sha256 second).finalize.complete) : ¬ Ambiguous records := by
  obtain ⟨hclean, r, hr, s, hs, x, y, hx, hy, hbounds⟩ := hsound
  -- the order that begins with the right STREAM_INFO and SHOT_END is whole
  have hne : s ≠ r := by
    rintro rfl
    exact not_info_of_end hx hy
  have hwhole : (r :: s :: (records.erase r).erase s).Perm records :=
    ((List.perm_cons_erase ((List.mem_erase_of_ne hne).mpr hs)).symm.cons r).trans
      (List.perm_cons_erase hr).symm
  have hnone : endOf r = none := by
    cases hno : endOf r with
    | none => rfl
    | some z => exact absurd (not_info_of_end hx hno) id
  have hcomplete := (verdict_of_perm sha256 hrs hsha hlen hwhole).1.mpr
    ⟨hclean, x, y, by rw [List.findSome?_cons, hx],
      by rw [List.findSome?_cons, hnone, List.findSome?_cons, hy], hbounds⟩
  -- so is the order that begins with any other datagram, and its bounds are the same
  have hother : ∀ t ∈ records, ∃ x' y', (t :: records.erase t).findSome? infoOf = some x' ∧
      (t :: records.erase t).findSome? endOf = some y' ∧
      x'.1.packetSequence = x.1.packetSequence ∧ y'.1.packetSequence = y.1.packetSequence := by
    intro t ht
    have hperm : (t :: records.erase t).Perm records := (List.perm_cons_erase ht).symm
    obtain ⟨-, x', y', hx', hy', hbounds'⟩ :=
      (verdict_of_perm sha256 hrs hsha hlen hperm).1.mp ((hsame _ _ hperm hwhole).trans hcomplete)
    exact ⟨x', y', hx', hy', hbounds'.1.unique hbounds.1⟩
  have hfirst : ∀ t ∈ records, ∀ z, infoOf t = some z →
      z.1.packetSequence = x.1.packetSequence := by
    intro t ht z hz
    obtain ⟨x', -, hx', -, hseq, -⟩ := hother t ht
    rw [List.findSome?_cons, hz] at hx'
    cases hx'
    exact hseq
  have hlast : ∀ t ∈ records, ∀ z, endOf t = some z →
      z.1.packetSequence = y.1.packetSequence := by
    intro t ht z hz
    obtain ⟨-, y', -, hy', -, hseq⟩ := hother t ht
    rw [List.findSome?_cons, hz] at hy'
    cases hy'
    exact hseq
  rintro (⟨t, ht, u, hu, z, w, hz, hw, hdiffer⟩ | ⟨t, ht, u, hu, z, w, hz, hw, hdiffer⟩)
  · exact hdiffer ((hfirst t ht z hz).trans (hfirst u hu w hw).symm)
  · exact hdiffer ((hlast t ht z hz).trans (hlast u hu w hw).symm)

/-- The verdict on the datagrams of one shot is the same in every order of arrival, unless the
shot is whole in one of them and the sequence of its STREAM_INFO or of its SHOT_END is in doubt. -/
theorem verdict_order (hrs : ∀ r ∈ records, OfShot identity r)
    (hsha : ShotAssembler.NoCollision sha256 records)
    (hlen : records.length ≤ maxPendingDatagrams) :
    (∀ first second : List JournalRecord, first.Perm records → second.Perm records →
      SameVerdict (ShotAssembler.ingestAll sha256 first).finalize
        (ShotAssembler.ingestAll sha256 second).finalize) ↔
    ¬ (Sound records ∧ Ambiguous records) := by
  constructor
  · rintro hsame ⟨hsound, hambiguous⟩
    exact not_ambiguous_of_same sha256 hrs hsha hlen hsound
      (fun first second h h' => (hsame first second h h').1) hambiguous
  · intro hnot first second hfirst hsecond
    have hboth : (ShotAssembler.ingestAll sha256 first).finalize.complete =
        (ShotAssembler.ingestAll sha256 second).finalize.complete :=
      Bool.eq_iff_iff.mpr ⟨complete_of_perm sha256 hrs hsha hlen hnot hfirst hsecond,
        complete_of_perm sha256 hrs hsha hlen hnot hsecond hfirst⟩
    refine ⟨hboth, fun hcomplete => ?_⟩
    obtain ⟨o, ho, heq⟩ := (verdict_of_perm sha256 hrs hsha hlen hfirst).2 hcomplete
    obtain ⟨o', ho', heq'⟩ := (verdict_of_perm sha256 hrs hsha hlen hsecond).2
      (hboth.symm.trans hcomplete)
    rw [heq, heq', ho.unique ho']

end Orders

/-! ### Two STREAM_INFO packets -/

/-- The STREAM_INFO, and the packets of the shot of one frame with the STREAM_INFO once more. -/
def twiceDescribed : List JournalRecord :=
  (oneSample.infoPacket :: { oneSample with initialSequence := 1 }.shotPackets [1, 2, 3, 4]).map
    fun p => ⟨0, .inet 1 5000, p.datagram⟩

/-- Its datagrams with the second STREAM_INFO first. -/
def twiceDescribedSwapped : List JournalRecord :=
  (twiceDescribed.drop 1).take 1 ++ twiceDescribed.take 1 ++ twiceDescribed.drop 2

theorem ofShot_twiceDescribed : ∀ r ∈ twiceDescribed, OfShot ⟨.inet 1 5000, 1, 1, 1⟩ r := by
  have hkeys : ∀ r ∈ twiceDescribed, (decodeHeader r.datagram).toOption.map (packetKey r) =
      some ⟨.inet 1 5000, 1, 1, 1⟩ := by decide +kernel
  intro r hr
  have hkey := hkeys r hr
  cases hheader : decodeHeader r.datagram with
  | error e =>
    rw [hheader] at hkey
    cases hkey
  | ok header =>
    rw [hheader] at hkey
    exact ⟨header, hheader, Option.some.inj hkey⟩

theorem verdict_order_twiceDescribed :
    (∀ first second : List JournalRecord, first.Perm twiceDescribed →
      second.Perm twiceDescribed →
      SameVerdict (ShotAssembler.ingestAll id first).finalize
        (ShotAssembler.ingestAll id second).finalize) ↔
    ¬ (Sound twiceDescribed ∧ Ambiguous twiceDescribed) :=
  verdict_order id ofShot_twiceDescribed (fun _ _ _ _ h => h) (by decide)

/-- With the STREAM_INFO of the smaller sequence first the capture is complete. With the other
first its sequence begins the interval, and the smaller one lies outside. -/
theorem verdict_depends_on_order :
    twiceDescribedSwapped.Perm twiceDescribed ∧
      (ShotAssembler.ingestAll id twiceDescribed).finalize.complete = true ∧
      (ShotAssembler.ingestAll id twiceDescribedSwapped).finalize.complete = false ∧
      (ShotAssembler.ingestAll id twiceDescribedSwapped).finalize.issues = [.outsideInterval 1] :=
  ⟨List.Perm.swap .., by decide +kernel, by decide +kernel, by decide +kernel⟩

end QCrate.Receiver
