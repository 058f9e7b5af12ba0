import QCrate.Receiver.RoundTrip

/-!
# The receiver: any datagrams of a shot

What `ShotAssembler` holds of datagrams that need not come from a sender, whether they repeat or
contradict each other.

* `Clean` — the datagrams are valid and agree with each other, in whatever order.
* `Gathered` — what the assembler holds of them; `gathered_route` takes in one more.
* `ingestAll_gathered` — they are gathered in the order of arrival, or no STREAM_INFO is among them.
-/

namespace QCrate.Receiver

open QCrate.Lib QCrate.DataPlane

/-! ## What a datagram says -/

/-- The datagram has the header of a packet of the shot. -/
def OfShot (identity : Identity) (r : JournalRecord) : Prop :=
  ∃ header, decodeHeader r.datagram = .ok header ∧ packetKey r header = identity

def packetOf (r : JournalRecord) : Option Packet := (decodePacket r.datagram).toOption

def sequenceOf (r : JournalRecord) : Option ℕ := (packetOf r).map (·.header.packetSequence)

/-- The STREAM_INFO of a datagram. -/
def infoOf (r : JournalRecord) : Option (Header × StreamInfo) :=
  (packetOf r).bind fun p =>
    if p.header.packetType = .streamInfo then
      (decodeStreamInfo p.payload).toOption.map fun info => (p.header, info)
    else none

/-- The SHOT_END of a datagram. -/
def endOf (r : JournalRecord) : Option (Header × ShotEnd) :=
  (packetOf r).bind fun p =>
    if p.header.packetType = .shotEnd then
      (decodeShotEnd p.payload).toOption.map fun last => (p.header, last)
    else none

/-- The DATA packet of a datagram. -/
def dataOf (r : JournalRecord) : Option Chunk :=
  (packetOf r).bind fun p => if p.header.packetType = .data then some (chunk p) else none

/-- The datagram is a packet whose contents decode. -/
def Valid (r : JournalRecord) : Prop :=
  ∃ p, packetOf r = some p ∧
    (p.header.packetType = .streamInfo → (infoOf r).isSome) ∧
    (p.header.packetType = .shotEnd → (endOf r).isSome)

/-- Datagrams of one sequence are equal, and the descriptions of the shot are. -/
structure Compatible (r s : JournalRecord) : Prop where
  contents : ∀ n, sequenceOf r = some n → sequenceOf s = some n → r.datagram = s.datagram
  infos : ∀ x y, infoOf r = some x → infoOf s = some y →
    x.2 = y.2 ∧ x.1.payloadFormat = y.1.payloadFormat ∧ x.1.sampleBytes = y.1.sampleBytes
  ends : ∀ x y, endOf r = some x → endOf s = some y → x.2 = y.2

/-- Nothing is wrong with the datagrams, each for itself and any two together. -/
structure Clean (rs : List JournalRecord) : Prop where
  valid : ∀ r ∈ rs, Valid r
  compatible : ∀ r ∈ rs, ∀ s ∈ rs, Compatible r s

variable {r s : JournalRecord} {rs : List JournalRecord} {p : Packet}

theorem Compatible.symm (h : Compatible r s) : Compatible s r where
  contents := fun n hs hr => (h.contents n hr hs).symm
  infos := fun x y hx hy => by
    obtain ⟨h₁, h₂, h₃⟩ := h.infos y x hy hx
    exact ⟨h₁.symm, h₂.symm, h₃.symm⟩
  ends := fun x y hx hy => (h.ends y x hy hx).symm

theorem Compatible.refl (r : JournalRecord) : Compatible r r where
  contents := fun _ _ _ => rfl
  infos := fun x y hx hy => by
    rw [hx] at hy
    cases hy
    exact ⟨rfl, rfl, rfl⟩
  ends := fun x y hx hy => by
    rw [hx] at hy
    cases hy
    rfl

theorem packetOf_congr (h : r.datagram = s.datagram) : packetOf r = packetOf s := by
  unfold packetOf
  rw [h]

theorem infoOf_congr (h : r.datagram = s.datagram) : infoOf r = infoOf s := by
  unfold infoOf
  rw [packetOf_congr h]

theorem endOf_congr (h : r.datagram = s.datagram) : endOf r = endOf s := by
  unfold endOf
  rw [packetOf_congr h]

theorem dataOf_congr (h : r.datagram = s.datagram) : dataOf r = dataOf s := by
  unfold dataOf
  rw [packetOf_congr h]

theorem sequenceOf_congr (h : r.datagram = s.datagram) : sequenceOf r = sequenceOf s := by
  unfold sequenceOf
  rw [packetOf_congr h]

theorem infoOf_of_type (hp : packetOf r = some p) (h : p.header.packetType = .streamInfo) :
    infoOf r = (decodeStreamInfo p.payload).toOption.map fun info => (p.header, info) := by
  unfold infoOf
  rw [hp, Option.bind_some, if_pos h]

theorem infoOf_of_ne (hp : packetOf r = some p) (h : p.header.packetType ≠ .streamInfo) :
    infoOf r = none := by
  unfold infoOf
  rw [hp, Option.bind_some, if_neg h]

theorem endOf_of_type (hp : packetOf r = some p) (h : p.header.packetType = .shotEnd) :
    endOf r = (decodeShotEnd p.payload).toOption.map fun last => (p.header, last) := by
  unfold endOf
  rw [hp, Option.bind_some, if_pos h]

theorem endOf_of_ne (hp : packetOf r = some p) (h : p.header.packetType ≠ .shotEnd) :
    endOf r = none := by
  unfold endOf
  rw [hp, Option.bind_some, if_neg h]

theorem dataOf_of_type (hp : packetOf r = some p) (h : p.header.packetType = .data) :
    dataOf r = some (chunk p) := by
  unfold dataOf
  rw [hp, Option.bind_some, if_pos h]

theorem dataOf_of_ne (hp : packetOf r = some p) (h : p.header.packetType ≠ .data) :
    dataOf r = none := by
  unfold dataOf
  rw [hp, Option.bind_some, if_neg h]

theorem any_of_infoOf {x : Header × StreamInfo} (h : infoOf r = some x) :
    (packetOf r).any (·.header.packetType = .streamInfo) = true := by
  unfold infoOf at h
  cases hp : packetOf r with
  | none =>
    rw [hp] at h
    cases h
  | some p =>
    rw [hp, Option.bind_some] at h
    split at h
    · next htype => simp [htype]
    · cases h

theorem clean_concat :
    Clean (rs ++ [r]) ↔ Clean rs ∧ Valid r ∧ ∀ s ∈ rs, Compatible s r := by
  constructor
  · intro h
    have hmem : r ∈ rs ++ [r] := List.mem_append_right _ (List.mem_singleton_self r)
    exact ⟨⟨fun s hs => h.valid s (List.mem_append_left _ hs),
      fun s hs t ht => h.compatible s (List.mem_append_left _ hs) t (List.mem_append_left _ ht)⟩,
      h.valid r hmem, fun s hs => h.compatible s (List.mem_append_left _ hs) r hmem⟩
  · rintro ⟨h, hvalid, hcompatible⟩
    refine ⟨fun s hs => ?_, fun s hs t ht => ?_⟩
    · rcases List.mem_append.mp hs with hs | hs
      · exact h.valid s hs
      · rw [List.mem_singleton.mp hs]
        exact hvalid
    · rcases List.mem_append.mp hs with hs | hs
      · rcases List.mem_append.mp ht with ht | ht
        · exact h.compatible s hs t ht
        · rw [List.mem_singleton.mp ht]
          exact hcompatible s hs
      · rw [List.mem_singleton.mp hs]
        rcases List.mem_append.mp ht with ht | ht
        · exact (hcompatible t ht).symm
        · rw [List.mem_singleton.mp ht]
          exact Compatible.refl r

theorem clean_congr {rs' : List JournalRecord} (hmem : ∀ r, r ∈ rs ↔ r ∈ rs') (h : Clean rs) :
    Clean rs' :=
  ⟨fun r hr => h.valid r ((hmem r).mpr hr),
    fun r hr s hs => h.compatible r ((hmem r).mpr hr) s ((hmem s).mpr hs)⟩

/-! ## What the assembler holds -/

namespace ShotAssembler

variable {δ : Type} {a b : ShotAssembler δ} {sha256 : Bytes → δ} {identity : Identity}

/-- No datagram has been found wrong. -/
structure Spotless (a : ShotAssembler δ) : Prop where
  protocolErrors : a.protocolErrors = []
  malformedSelected : a.malformedSelected = 0
  conflictingDuplicates : a.conflictingDuplicates = 0

/-- The assembler holds the packets of the datagrams, and the first STREAM_INFO and SHOT_END. -/
structure Holds (sha256 : Bytes → δ) (rs : List JournalRecord) (a : ShotAssembler δ) : Prop where
  seen : ∀ n d, (n, d) ∈ a.seenSequences ↔
    ∃ r ∈ rs, sequenceOf r = some n ∧ sha256 r.datagram = d
  data : ∀ c, c ∈ a.dataPackets ↔ ∃ r ∈ rs, dataOf r = some c
  keys : (a.dataPackets.map (·.1)).Nodup
  info : a.streamInfo = rs.findSome? infoOf
  shotEnd : a.shotEnd = rs.findSome? endOf

/-- The assembler follows the shot, and holds its datagrams when nothing is wrong with them. -/
structure Gathered (sha256 : Bytes → δ) (identity : Identity) (rs : List JournalRecord)
    (a : ShotAssembler δ) : Prop where
  identity : a.identity = some identity
  pendingOverflow : a.pendingOverflow = 0
  spotless : a.Spotless ↔ Clean rs
  holds : Clean rs → Holds sha256 rs a

/-! ### Errors stay -/

theorem not_spotless_addError (a : ShotAssembler δ) (i : Issue) : ¬ (a.addError i).Spotless :=
  fun h => List.append_ne_nil_of_right_ne_nil _ (List.cons_ne_nil i []) h.protocolErrors

theorem spotless_of_acceptInfo (h : (a.acceptInfo p).Spotless) : a.Spotless := by
  unfold acceptInfo at h
  split at h
  · exact absurd h (not_spotless_addError _ _)
  · split at h
    · exact ⟨h.1, h.2, h.3⟩
    · split at h
      · exact absurd h (not_spotless_addError _ _)
      · split at h
        · exact absurd h (not_spotless_addError _ _)
        · exact h

theorem spotless_of_acceptEnd (h : (a.acceptEnd p).Spotless) : a.Spotless := by
  unfold acceptEnd at h
  split at h
  · exact absurd h (not_spotless_addError _ _)
  · split at h
    · exact ⟨h.1, h.2, h.3⟩
    · split at h
      · exact absurd h (not_spotless_addError _ _)
      · exact h

/-! ### One more datagram -/

/-- A datagram that is there already changes nothing that is held. -/
theorem Holds.again (h : Holds sha256 rs a) (hs : s ∈ rs) (hsr : s.datagram = r.datagram)
    (hseen : b.seenSequences = a.seenSequences) (hdata : b.dataPackets = a.dataPackets)
    (hinfo : b.streamInfo = a.streamInfo) (hend : b.shotEnd = a.shotEnd) :
    Holds sha256 (rs ++ [r]) b := by
  have hex : ∀ q : JournalRecord → Prop, (q r → q s) →
      ((∃ t ∈ rs, q t) ↔ ∃ t ∈ rs ++ [r], q t) := by
    intro q hq
    constructor
    · rintro ⟨t, ht, hqt⟩
      exact ⟨t, List.mem_append_left _ ht, hqt⟩
    · rintro ⟨t, ht, hqt⟩
      rcases List.mem_append.mp ht with ht | ht
      · exact ⟨t, ht, hqt⟩
      · rw [List.mem_singleton.mp ht] at hqt
        exact ⟨s, hs, hq hqt⟩
  have hfind : ∀ {β : Type} (f : JournalRecord → Option β), f s = f r →
      (rs ++ [r]).findSome? f = rs.findSome? f := by
    intro β f hf
    rw [List.findSome?_append]
    cases hfirst : rs.findSome? f with
    | some x => rfl
    | none =>
      have hnone := List.findSome?_eq_none_iff.mp hfirst s hs
      rw [hf] at hnone
      simp [hnone]
  constructor
  · intro n d
    rw [hseen, h.seen]
    apply hex
    rw [sequenceOf_congr hsr, hsr]
    exact id
  · intro c
    rw [hdata, h.data]
    apply hex
    rw [dataOf_congr hsr]
    exact id
  · rw [hdata]
    exact h.keys
  · rw [hinfo, h.info, hfind infoOf (infoOf_congr hsr)]
  · rw [hend, h.shotEnd, hfind endOf (endOf_congr hsr)]

/-- A datagram of a new sequence is taken in. -/
theorem Holds.concat (h : Holds sha256 rs a) {n : ℕ} (hn : sequenceOf r = some n)
    (hnew : ∀ s ∈ rs, sequenceOf s ≠ some n)
    (hseen : b.seenSequences = a.seenSequences ++ [(n, sha256 r.datagram)])
    (hdata : b.dataPackets = a.dataPackets ++ (dataOf r).toList)
    (hinfo : b.streamInfo = a.streamInfo.or (infoOf r))
    (hend : b.shotEnd = a.shotEnd.or (endOf r)) : Holds sha256 (rs ++ [r]) b := by
  have hkey : ∀ {t : JournalRecord} {c : Chunk}, dataOf t = some c → sequenceOf t = some c.1 := by
    intro t c ht
    unfold dataOf at ht
    unfold sequenceOf
    cases hp : packetOf t with
    | none =>
      rw [hp] at ht
      cases ht
    | some p =>
      rw [hp] at ht
      simp only [Option.bind_some] at ht
      split at ht
      · cases ht
        rfl
      · cases ht
  constructor
  · intro m d
    rw [hseen, List.mem_append, h.seen, List.mem_singleton, Prod.mk.injEq]
    constructor
    · rintro (⟨t, ht, hrest⟩ | ⟨rfl, rfl⟩)
      · exact ⟨t, List.mem_append_left _ ht, hrest⟩
      · exact ⟨r, List.mem_append_right _ (List.mem_singleton_self r), hn, rfl⟩
    · rintro ⟨t, ht, hseq, hd⟩
      rcases List.mem_append.mp ht with ht | ht
      · exact .inl ⟨t, ht, hseq, hd⟩
      · rw [List.mem_singleton.mp ht] at hseq hd
        rw [hn] at hseq
        exact .inr ⟨(Option.some.inj hseq).symm, hd.symm⟩
  · intro c
    rw [hdata, List.mem_append, h.data, Option.mem_toList]
    constructor
    · rintro (⟨t, ht, hc⟩ | hc)
      · exact ⟨t, List.mem_append_left _ ht, hc⟩
      · exact ⟨r, List.mem_append_right _ (List.mem_singleton_self r), hc⟩
    · rintro ⟨t, ht, hc⟩
      rcases List.mem_append.mp ht with ht | ht
      · exact .inl ⟨t, ht, hc⟩
      · rw [List.mem_singleton.mp ht] at hc
        exact .inr hc
  -- the key of a chunk is its sequence, and this one is new
  · rw [hdata, List.map_append, List.nodup_append]
    refine ⟨h.keys, ?_, ?_⟩
    · cases dataOf r with
      | none => exact List.nodup_nil
      | some c => exact List.nodup_singleton _
    · intro x hx y hy hxy
      obtain ⟨c, hc, rfl⟩ := List.mem_map.mp hx
      obtain ⟨c', hc', rfl⟩ := List.mem_map.mp hy
      obtain ⟨t, ht, hct⟩ := (h.data c).mp hc
      have hr := hkey (Option.mem_toList.mp hc')
      rw [hn] at hr
      have hkeyt := hkey hct
      rw [hxy, ← Option.some.inj hr] at hkeyt
      exact hnew t ht hkeyt
  · rw [hinfo, h.info, List.findSome?_append, List.findSome?_singleton]
  · rw [hend, h.shotEnd, List.findSome?_append, List.findSome?_singleton]

/-- What is wrong with a datagram shows in the assembler too. -/
theorem refused (a : ShotAssembler δ) (i : Issue) (h : ¬ Clean (rs ++ [r])) :
    ((a.addError i).Spotless ↔ Clean (rs ++ [r])) ∧
      (Clean (rs ++ [r]) → Holds sha256 (rs ++ [r]) (a.addError i)) :=
  ⟨⟨fun hno => absurd hno (not_spotless_addError a i), fun hno => absurd hno h⟩,
    fun hno => absurd hno h⟩

/-- A datagram of a new sequence with which nothing is wrong is held. -/
theorem taken (hclean : Clean rs) (h : Holds sha256 rs a) {n : ℕ} (hn : sequenceOf r = some n)
    (hnew : ∀ s ∈ rs, sequenceOf s ≠ some n) (hvalid : Valid r)
    (hinfos : ∀ s ∈ rs, ∀ x y, infoOf s = some x → infoOf r = some y →
      x.2 = y.2 ∧ x.1.payloadFormat = y.1.payloadFormat ∧ x.1.sampleBytes = y.1.sampleBytes)
    (hends : ∀ s ∈ rs, ∀ x y, endOf s = some x → endOf r = some y → x.2 = y.2)
    (hspotless : b.Spotless)
    (hseen : b.seenSequences = a.seenSequences ++ [(n, sha256 r.datagram)])
    (hdata : b.dataPackets = a.dataPackets ++ (dataOf r).toList)
    (hinfo : b.streamInfo = a.streamInfo.or (infoOf r))
    (hend : b.shotEnd = a.shotEnd.or (endOf r)) :
    (b.Spotless ↔ Clean (rs ++ [r])) ∧ (Clean (rs ++ [r]) → Holds sha256 (rs ++ [r]) b) := by
  have hcontents : ∀ s ∈ rs, ∀ m, sequenceOf s = some m → sequenceOf r = some m →
      s.datagram = r.datagram := by
    intro s hs m hsm hrm
    rw [hn] at hrm
    rw [← Option.some.inj hrm] at hsm
    exact absurd hsm (hnew s hs)
  have hboth := clean_concat.mpr
    ⟨hclean, hvalid, fun s hs => ⟨hcontents s hs, hinfos s hs, hends s hs⟩⟩
  exact ⟨⟨fun _ => hboth, fun _ => hspotless⟩, fun _ => h.concat hn hnew hseen hdata hinfo hend⟩

/-- A new STREAM_INFO is held if it is the first, and compared with the one that is. -/
theorem accept_info (hclean : Clean rs) (hspotless : a.Spotless) (h : Holds sha256 rs a)
    (hp : packetOf r = some p) (htype : p.header.packetType = .streamInfo)
    (hn : sequenceOf r = some p.header.packetSequence)
    (hnew : ∀ s ∈ rs, sequenceOf s ≠ some p.header.packetSequence) :
    (((a.note p.header.packetSequence (sha256 r.datagram)).acceptInfo p).Spotless ↔
        Clean (rs ++ [r])) ∧
      (Clean (rs ++ [r]) → Holds sha256 (rs ++ [r])
        ((a.note p.header.packetSequence (sha256 r.datagram)).acceptInfo p)) := by
  have hend : endOf r = none := endOf_of_ne hp (by rw [htype]; decide)
  have hdata : dataOf r = none := dataOf_of_ne hp (by rw [htype]; decide)
  have hinfo := infoOf_of_type hp htype
  unfold acceptInfo
  cases hdecode : decodeStreamInfo p.payload with
  | error e =>
    -- the payload does not decode, so the list is not clean either
    rw [hdecode] at hinfo
    apply refused
    intro hno
    obtain ⟨q, hq, hvalid, -⟩ := (clean_concat.mp hno).2.1
    rw [hp] at hq
    cases hq
    rw [hinfo] at hvalid
    cases hvalid htype
  | ok info =>
    rw [hdecode] at hinfo
    replace hinfo : infoOf r = some (p.header, info) := hinfo
    have hvalid : Valid r := by
      refine ⟨p, hp, fun _ => by rw [hinfo]; rfl, fun hno => ?_⟩
      rw [htype] at hno
      cases hno
    have hends : ∀ s ∈ rs, ∀ x y, endOf s = some x → endOf r = some y → x.2 = y.2 := by
      intro s _ x y _ hy
      rw [hend] at hy
      cases hy
    have hnoData : a.dataPackets = a.dataPackets ++ (dataOf r).toList := by
      rw [hdata]
      exact (List.append_nil _).symm
    have hnoEnd : a.shotEnd = a.shotEnd.or (endOf r) := by
      rw [hend]
      exact Option.or_none.symm
    dsimp only
    cases hheld : a.streamInfo with
    | none =>
      have hnone := List.findSome?_eq_none_iff.mp (h.info.symm.trans hheld)
      rw [show (a.note p.header.packetSequence (sha256 r.datagram)).streamInfo = none from hheld]
      refine taken hclean h hn hnew hvalid (fun s hs x y hx => ?_) hends
        ⟨hspotless.1, hspotless.2, hspotless.3⟩ rfl hnoData ?_ hnoEnd
      · rw [hnone s hs] at hx
        cases hx
      · rw [hheld, hinfo]
        rfl
    | some known =>
      obtain ⟨header, known⟩ := known
      -- the one that is held came with some record: compare with that
      obtain ⟨s, hs, hfirst⟩ := List.exists_of_findSome?_eq_some (h.info.symm.trans hheld)
      rw [show (a.note p.header.packetSequence (sha256 r.datagram)).streamInfo =
        some (header, known) from hheld]
      dsimp only
      by_cases hknown : known ≠ info
      · rw [if_pos hknown]
        apply refused
        intro hno
        exact hknown (((clean_concat.mp hno).2.2 s hs).infos _ _ hfirst hinfo).1
      · rw [if_neg hknown]
        by_cases hformat : header.payloadFormat ≠ p.header.payloadFormat ∨
            header.sampleBytes ≠ p.header.sampleBytes
        · rw [if_pos hformat]
          apply refused
          intro hno
          obtain ⟨-, h₁, h₂⟩ := ((clean_concat.mp hno).2.2 s hs).infos _ _ hfirst hinfo
          rcases hformat with hformat | hformat
          · exact hformat h₁
          · exact hformat h₂
        · rw [if_neg hformat]
          rw [not_or, not_not, not_not] at hformat
          refine taken hclean h hn hnew hvalid (fun t ht x y hx hy => ?_) hends
            ⟨hspotless.1, hspotless.2, hspotless.3⟩ rfl hnoData ?_ hnoEnd
          · rw [hinfo] at hy
            cases hy
            obtain ⟨h₁, h₂, h₃⟩ := (hclean.compatible t ht s hs).infos _ _ hx hfirst
            exact ⟨h₁.trans (not_not.mp hknown), h₂.trans hformat.1, h₃.trans hformat.2⟩
          · rw [hheld]
            exact hheld

/-- A new SHOT_END is held if it is the first, and compared with the one that is. -/
theorem accept_end (hclean : Clean rs) (hspotless : a.Spotless) (h : Holds sha256 rs a)
    (hp : packetOf r = some p) (htype : p.header.packetType = .shotEnd)
    (hn : sequenceOf r = some p.header.packetSequence)
    (hnew : ∀ s ∈ rs, sequenceOf s ≠ some p.header.packetSequence) :
    (((a.note p.header.packetSequence (sha256 r.datagram)).acceptEnd p).Spotless ↔
        Clean (rs ++ [r])) ∧
      (Clean (rs ++ [r]) → Holds sha256 (rs ++ [r])
        ((a.note p.header.packetSequence (sha256 r.datagram)).acceptEnd p)) := by
  have hinfo : infoOf r = none := infoOf_of_ne hp (by rw [htype]; decide)
  have hdata : dataOf r = none := dataOf_of_ne hp (by rw [htype]; decide)
  have hend := endOf_of_type hp htype
  unfold acceptEnd
  cases hdecode : decodeShotEnd p.payload with
  | error e =>
    rw [hdecode] at hend
    apply refused
    intro hno
    obtain ⟨q, hq, -, hvalid⟩ := (clean_concat.mp hno).2.1
    rw [hp] at hq
    cases hq
    rw [hend] at hvalid
    cases hvalid htype
  | ok last =>
    rw [hdecode] at hend
    replace hend : endOf r = some (p.header, last) := hend
    have hvalid : Valid r := by
      refine ⟨p, hp, fun hno => ?_, fun _ => by rw [hend]; rfl⟩
      rw [htype] at hno
      cases hno
    have hinfos : ∀ s ∈ rs, ∀ x y, infoOf s = some x → infoOf r = some y →
        x.2 = y.2 ∧ x.1.payloadFormat = y.1.payloadFormat ∧ x.1.sampleBytes = y.1.sampleBytes := by
      intro s _ x y _ hy
      rw [hinfo] at hy
      cases hy
    have hnoData : a.dataPackets = a.dataPackets ++ (dataOf r).toList := by
      rw [hdata]
      exact (List.append_nil _).symm
    have hnoInfo : a.streamInfo = a.streamInfo.or (infoOf r) := by
      rw [hinfo]
      exact Option.or_none.symm
    dsimp only
    cases hheld : a.shotEnd with
    | none =>
      have hnone := List.findSome?_eq_none_iff.mp (h.shotEnd.symm.trans hheld)
      rw [show (a.note p.header.packetSequence (sha256 r.datagram)).shotEnd = none from hheld]
      refine taken hclean h hn hnew hvalid hinfos (fun s hs x y hx => ?_)
        ⟨hspotless.1, hspotless.2, hspotless.3⟩ rfl hnoData hnoInfo ?_
      · rw [hnone s hs] at hx
        cases hx
      · rw [hheld, hend]
        rfl
    | some known =>
      obtain ⟨header, known⟩ := known
      obtain ⟨s, hs, hfirst⟩ := List.exists_of_findSome?_eq_some (h.shotEnd.symm.trans hheld)
      rw [show (a.note p.header.packetSequence (sha256 r.datagram)).shotEnd =
        some (header, known) from hheld]
      dsimp only
      by_cases hknown : known ≠ last
      · rw [if_pos hknown]
        apply refused
        intro hno
        exact hknown (((clean_concat.mp hno).2.2 s hs).ends _ _ hfirst hend)
      · rw [if_neg hknown]
        refine taken hclean h hn hnew hvalid hinfos (fun t ht x y hx hy => ?_)
          ⟨hspotless.1, hspotless.2, hspotless.3⟩ rfl hnoData hnoInfo ?_
        · rw [hend] at hy
          cases hy
          exact ((hclean.compatible t ht s hs).ends _ _ hx hfirst).trans (not_not.mp hknown)
        · rw [hheld]
          exact hheld

/-- A new packet that describes nothing is held. -/
theorem accept_plain (hclean : Clean rs) (hspotless : a.Spotless) (h : Holds sha256 rs a)
    (hp : packetOf r = some p) (hnotInfo : p.header.packetType ≠ .streamInfo)
    (hnotEnd : p.header.packetType ≠ .shotEnd)
    (hn : sequenceOf r = some p.header.packetSequence)
    (hnew : ∀ s ∈ rs, sequenceOf s ≠ some p.header.packetSequence)
    (hdata : b.dataPackets = a.dataPackets ++ (dataOf r).toList)
    (hb : { b with dataPackets := a.dataPackets } =
      a.note p.header.packetSequence (sha256 r.datagram)) :
    (b.Spotless ↔ Clean (rs ++ [r])) ∧ (Clean (rs ++ [r]) → Holds sha256 (rs ++ [r]) b) := by
  have hinfo := infoOf_of_ne hp hnotInfo
  have hend := endOf_of_ne hp hnotEnd
  have hspotless' : { b with dataPackets := a.dataPackets }.Spotless := by
    rw [hb]
    exact ⟨hspotless.1, hspotless.2, hspotless.3⟩
  refine taken hclean h hn hnew ⟨p, hp, fun hno => absurd hno hnotInfo,
    fun hno => absurd hno hnotEnd⟩ (fun s _ x y _ hy => ?_) (fun s _ x y _ hy => ?_)
    ⟨hspotless'.1, hspotless'.2, hspotless'.3⟩ (congrArg seenSequences hb) hdata ?_ ?_
  · rw [hinfo] at hy
    cases hy
  · rw [hend] at hy
    cases hy
  · rw [hinfo]
    exact (congrArg streamInfo hb).trans Option.or_none.symm
  · rw [hend]
    exact (congrArg shotEnd hb).trans Option.or_none.symm

/-- No two of the datagrams have one digest. -/
def NoCollision (sha256 : Bytes → δ) (rs : List JournalRecord) : Prop :=
  ∀ r ∈ rs, ∀ s ∈ rs, sha256 r.datagram = sha256 s.datagram → r.datagram = s.datagram

theorem NoCollision.of_concat (h : NoCollision sha256 (rs ++ [r])) : NoCollision sha256 rs :=
  fun s hs t ht => h s (List.mem_append_left _ hs) t (List.mem_append_left _ ht)

/-- An assembler that has selected the shot and seen nothing of it. -/
theorem gathered_nil (n : ℕ) :
    Gathered sha256 identity [] { identity := some identity, totalDatagrams := n } where
  identity := rfl
  pendingOverflow := rfl
  spotless := ⟨fun _ => ⟨by simp, by simp⟩, fun _ => ⟨rfl, rfl, rfl⟩⟩
  holds := fun _ => ⟨by simp, by simp, List.nodup_nil, rfl, rfl⟩

variable [DecidableEq δ]

theorem spotless_of_accept {d : Bytes} (h : (a.accept sha256 p d).Spotless) : a.Spotless := by
  unfold accept at h
  dsimp only at h
  split at h
  · split at h
    · exact ⟨h.1, h.2, h.3⟩
    · exact absurd h (not_spotless_addError _ _)
  · have hnote : ∀ {n : ℕ} {d : δ}, (a.note n d).Spotless → a.Spotless :=
      fun h => ⟨h.1, h.2, h.3⟩
    split at h
    · exact hnote (spotless_of_acceptInfo h)
    · exact ⟨h.1, h.2, h.3⟩
    · exact hnote (spotless_of_acceptEnd h)
    · exact hnote h

/-- A packet changes neither what the assembler follows nor what its window has lost. -/
theorem accept_kept (sha256 : Bytes → δ) (a : ShotAssembler δ) (p : Packet) (d : Bytes) :
    (a.accept sha256 p d).identity = a.identity ∧
      (a.accept sha256 p d).pendingOverflow = a.pendingOverflow := by
  have hinfo : ∀ a : ShotAssembler δ, (a.acceptInfo p).identity = a.identity ∧
      (a.acceptInfo p).pendingOverflow = a.pendingOverflow := by
    intro a
    unfold acceptInfo
    split
    · exact ⟨rfl, rfl⟩
    · split
      · exact ⟨rfl, rfl⟩
      · split
        · exact ⟨rfl, rfl⟩
        · split <;> exact ⟨rfl, rfl⟩
  have hend : ∀ a : ShotAssembler δ, (a.acceptEnd p).identity = a.identity ∧
      (a.acceptEnd p).pendingOverflow = a.pendingOverflow := by
    intro a
    unfold acceptEnd
    split
    · exact ⟨rfl, rfl⟩
    · split
      · exact ⟨rfl, rfl⟩
      · split <;> exact ⟨rfl, rfl⟩
  unfold accept
  dsimp only
  split
  · split <;> exact ⟨rfl, rfl⟩
  · split
    · exact hinfo _
    · exact ⟨rfl, rfl⟩
    · exact hend _
    · exact ⟨rfl, rfl⟩

/-- How the assembler reads a datagram of the shot. -/
theorem route_read {header : Header} (hheader : decodeHeader r.datagram = .ok header)
    (hkey : packetKey r header = identity) :
    a.route sha256 identity (read r) =
      match decodePacket r.datagram with
      | .error e => { a with malformedSelected := a.malformedSelected + 1 }.addError
          (.packetError header.packetSequence e)
      | .ok p => a.accept sha256 p r.datagram := by
  have hread : read r = ⟨r, some header, decodePacket r.datagram⟩ := by
    unfold read
    rw [hheader]
  rw [hread]
  unfold route
  dsimp only
  refine (if_neg (not_not.mpr hkey)).trans ?_
  rfl

/-- What `accept` does with a packet of a new sequence. -/
theorem accept_new {d : Bytes} (h : a.seenSequences.lookup p.header.packetSequence = none) :
    a.accept sha256 p d =
      match p.header.packetType with
      | .streamInfo => (a.note p.header.packetSequence (sha256 d)).acceptInfo p
      | .data => { a.note p.header.packetSequence (sha256 d) with
          dataPackets := a.dataPackets ++ [(p.header.packetSequence, p)] }
      | .shotEnd => (a.note p.header.packetSequence (sha256 d)).acceptEnd p
      | .heartbeat => a.note p.header.packetSequence (sha256 d) := by
  unfold accept
  dsimp only
  rw [h]
  cases p.header.packetType <;> rfl

/-- A packet of a sequence that is there is a repetition, or it contradicts what is held. -/
theorem accept_again (hclean : Clean rs) (hspotless : a.Spotless) (h : Holds sha256 rs a)
    (hp : packetOf r = some p) (hs : s ∈ rs)
    (hseq : sequenceOf s = some p.header.packetSequence)
    (hlookup : a.seenSequences.lookup p.header.packetSequence = some (sha256 s.datagram))
    (hsha : sha256 s.datagram = sha256 r.datagram → s.datagram = r.datagram) :
    ((a.accept sha256 p r.datagram).Spotless ↔ Clean (rs ++ [r])) ∧
      (Clean (rs ++ [r]) → Holds sha256 (rs ++ [r]) (a.accept sha256 p r.datagram)) := by
  have hseqr : sequenceOf r = some p.header.packetSequence := by
    unfold sequenceOf
    rw [hp]
    rfl
  unfold accept
  dsimp only
  rw [hlookup]
  dsimp only
  by_cases hequal : sha256 s.datagram = sha256 r.datagram
  · have hsr := hsha hequal
    have hvalid : Valid r := by
      have hv := hclean.valid s hs
      unfold Valid at hv ⊢
      rw [← packetOf_congr hsr, ← infoOf_congr hsr, ← endOf_congr hsr]
      exact hv
    have hcompatible : ∀ t ∈ rs, Compatible t r := by
      intro t ht
      have hts := hclean.compatible t ht s hs
      constructor
      · rw [← sequenceOf_congr hsr, ← hsr]
        exact hts.contents
      · rw [← infoOf_congr hsr]
        exact hts.infos
      · rw [← endOf_congr hsr]
        exact hts.ends
    have hboth := clean_concat.mpr ⟨hclean, hvalid, hcompatible⟩
    rw [if_pos hequal]
    exact ⟨⟨fun _ => hboth, fun _ => ⟨hspotless.1, hspotless.2, hspotless.3⟩⟩,
      fun _ => h.again hs hsr rfl rfl rfl rfl⟩
  · have hdirty : ¬ Clean (rs ++ [r]) := by
      intro hno
      have hcompatible := (clean_concat.mp hno).2.2 s hs
      exact hequal (by rw [hcompatible.contents _ hseq hseqr])
    rw [if_neg hequal]
    exact ⟨⟨fun hno => absurd hno (not_spotless_addError _ _), fun hno => absurd hno hdirty⟩,
      fun hno => absurd hno hdirty⟩

/-- A packet of a new sequence is taken in, unless it contradicts what is held. -/
theorem accept_fresh (hclean : Clean rs) (hspotless : a.Spotless) (h : Holds sha256 rs a)
    (hp : packetOf r = some p) (hnew : ∀ s ∈ rs, sequenceOf s ≠ some p.header.packetSequence)
    (hlookup : a.seenSequences.lookup p.header.packetSequence = none) :
    ((a.accept sha256 p r.datagram).Spotless ↔ Clean (rs ++ [r])) ∧
      (Clean (rs ++ [r]) → Holds sha256 (rs ++ [r]) (a.accept sha256 p r.datagram)) := by
  have hn : sequenceOf r = some p.header.packetSequence := by
    unfold sequenceOf
    rw [hp]
    rfl
  rw [accept_new hlookup]
  cases htype : p.header.packetType with
  | streamInfo => exact accept_info hclean hspotless h hp htype hn hnew
  | data =>
    have hdata := dataOf_of_type hp htype
    refine accept_plain hclean hspotless h hp (by rw [htype]; decide) (by rw [htype]; decide) hn
      hnew ?_ rfl
    rw [hdata]
    rfl
  | shotEnd => exact accept_end hclean hspotless h hp htype hn hnew
  | heartbeat =>
    have hdata : dataOf r = none := dataOf_of_ne hp (by rw [htype]; decide)
    refine accept_plain hclean hspotless h hp (by rw [htype]; decide) (by rw [htype]; decide) hn
      hnew ?_ rfl
    rw [hdata]
    exact (List.append_nil _).symm

theorem gathered_route (h : Gathered sha256 identity rs a) (hr : OfShot identity r)
    (hsha : NoCollision sha256 (rs ++ [r])) :
    Gathered sha256 identity (rs ++ [r]) (a.route sha256 identity (read r)) := by
  obtain ⟨header, hheader, hkey⟩ := hr
  have hmem : r ∈ rs ++ [r] := List.mem_append_right _ (List.mem_singleton_self r)
  rw [route_read hheader hkey]
  cases hp : decodePacket r.datagram with
  | error e =>
    have hdirty : ¬ Clean (rs ++ [r]) := by
      intro hno
      obtain ⟨p, hvalid, -⟩ := hno.valid r hmem
      unfold packetOf at hvalid
      rw [hp] at hvalid
      cases hvalid
    exact ⟨h.identity, h.pendingOverflow,
      ⟨fun hno => absurd hno (not_spotless_addError _ _), fun hno => absurd hno hdirty⟩,
      fun hno => absurd hno hdirty⟩
  | ok p =>
    have hpacket : packetOf r = some p := by
      unfold packetOf
      rw [hp]
      rfl
    obtain ⟨hidentity, hoverflow⟩ := accept_kept sha256 a p r.datagram
    dsimp only
    by_cases hclean : Clean rs
    · have hholds := h.holds hclean
      have hspotless := h.spotless.mpr hclean
      have hboth : ((a.accept sha256 p r.datagram).Spotless ↔ Clean (rs ++ [r])) ∧
          (Clean (rs ++ [r]) → Holds sha256 (rs ++ [r]) (a.accept sha256 p r.datagram)) := by
        cases hlookup : a.seenSequences.lookup p.header.packetSequence with
        | some digest =>
          obtain ⟨before, after, hseen, -⟩ := List.lookup_eq_some_iff.mp hlookup
          obtain ⟨s, hs, hseq, rfl⟩ :=
            (hholds.seen p.header.packetSequence digest).mp (by rw [hseen]; simp)
          exact accept_again hclean hspotless hholds hpacket hs hseq hlookup
            (hsha s (List.mem_append_left _ hs) r hmem)
        | none =>
          refine accept_fresh hclean hspotless hholds hpacket (fun s hs hseq => ?_) hlookup
          have hseen := (hholds.seen _ _).mpr ⟨s, hs, hseq, rfl⟩
          have hno := List.lookup_eq_none_iff.mp hlookup _ hseen
          simp at hno
      exact ⟨hidentity.trans h.identity, hoverflow.trans h.pendingOverflow, hboth.1, hboth.2⟩
    · have hdirty : ¬ Clean (rs ++ [r]) := fun hno => hclean (clean_concat.mp hno).1
      exact ⟨hidentity.trans h.identity, hoverflow.trans h.pendingOverflow,
        ⟨fun hno => absurd (h.spotless.mp (spotless_of_accept hno)) hclean,
          fun hno => absurd hno hdirty⟩, fun hno => absurd hno hdirty⟩

theorem gathered_routeAll (n : ℕ) (hrs : ∀ r ∈ rs, OfShot identity r)
    (hsha : NoCollision sha256 rs) :
    Gathered sha256 identity rs ((rs.map read).foldl (route sha256 identity)
      { identity := some identity, totalDatagrams := n }) := by
  induction rs using List.reverseRecOn with
  | nil => exact gathered_nil n
  | append_singleton rs r ih =>
    rw [List.map_append, List.foldl_append]
    exact gathered_route (ih (fun s hs => hrs s (List.mem_append_left _ hs)) hsha.of_concat)
      (hrs r (List.mem_append_right _ (List.mem_singleton_self r))) hsha

/-- A datagram of the shot selects it exactly when it is a STREAM_INFO. -/
theorem selects_read (hr : OfShot identity r) :
    selects (read r) = if (packetOf r).any (·.header.packetType = .streamInfo) then some identity
      else none := by
  obtain ⟨header, hheader, hkey⟩ := hr
  unfold selects read packetOf
  rw [hheader]
  dsimp only
  cases hp : decodePacket r.datagram with
  | error e => rfl
  | ok p =>
    obtain ⟨-, hheader', -⟩ := decodePacket_eq_ok.mp hp
    rw [hheader] at hheader'
    cases hheader'
    dsimp only [Except.toOption, Option.any_some]
    simp only [decide_eq_true_eq, hkey]

/-- The datagrams of the shot wait for it to be selected, or they are gathered. -/
theorem ingestAll_gathered (hrs : ∀ r ∈ rs, OfShot identity r) (hsha : NoCollision sha256 rs)
    (hlen : rs.length ≤ maxPendingDatagrams) :
    (ingestAll sha256 rs = { pending := rs.map read, totalDatagrams := rs.length } ∧
      ∀ r ∈ rs, selects (read r) = none) ∨
    Gathered sha256 identity rs (ingestAll sha256 rs) := by
  induction rs using List.reverseRecOn with
  | nil => exact .inl ⟨rfl, by simp⟩
  | append_singleton rs r ih =>
    have hr := hrs r (List.mem_append_right _ (List.mem_singleton_self r))
    rw [List.length_append, List.length_singleton] at hlen
    have hstep : ingestAll sha256 (rs ++ [r]) = (ingestAll sha256 rs).ingest sha256 r := by
      unfold ingestAll
      rw [List.foldl_append]
      rfl
    rw [hstep]
    rcases ih (fun s hs => hrs s (List.mem_append_left _ hs)) hsha.of_concat (by omega) with
      ⟨hwaiting, hnone⟩ | hgathered
    · rw [hwaiting]
      unfold ingest
      dsimp only
      rw [selects_read hr]
      by_cases hinfo : (packetOf r).any (·.header.packetType = .streamInfo) = true
      · -- the datagram selects the shot, and what has waited is routed with it
        rw [if_pos hinfo]
        right
        dsimp only
        have hall : Gathered sha256 identity (rs ++ [r]) _ :=
          gathered_routeAll (rs.length + 1) hrs hsha
        rw [List.map_append] at hall
        exact hall
      · rw [if_neg hinfo]
        left
        dsimp only
        unfold savePending
        rw [if_neg (by simp; omega)]
        refine ⟨by simp, fun s hs => ?_⟩
        rcases List.mem_append.mp hs with hs | hs
        · exact hnone s hs
        · rw [List.mem_singleton.mp hs, selects_read hr, if_neg hinfo]
    · right
      generalize ingestAll sha256 rs = b at hgathered ⊢
      have hcount : Gathered sha256 identity rs { b with totalDatagrams := b.totalDatagrams + 1 } :=
        ⟨hgathered.identity, hgathered.pendingOverflow,
          ⟨fun h => hgathered.spotless.mp ⟨h.1, h.2, h.3⟩, fun h => by
            obtain ⟨h₁, h₂, h₃⟩ := hgathered.spotless.mpr h
            exact ⟨h₁, h₂, h₃⟩⟩,
          fun h => by
            obtain ⟨h₁, h₂, h₃, h₄, h₅⟩ := hgathered.holds h
            exact ⟨h₁, h₂, h₃, h₄, h₅⟩⟩
      -- once selected, the datagram is routed at once
      have hnext := gathered_route hcount hr hsha
      unfold ingest
      simp only [hgathered.identity] at hnext ⊢
      exact hnext

end ShotAssembler

end QCrate.Receiver
