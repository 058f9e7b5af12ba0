import QCrate.Recorder.Session
import QCrate.Recorder.Heartbeats

/-!
# What the recorder publishes is what was sent

Whatever is lost, repeated or reordered on the way, a COMPLETE record names the samples of its shot,
no shot has two of them, their extents follow each other from the start of the sample file to its
end, and an INCOMPLETE record names nothing.

* `Adjoin` — extents that follow each other.
* `PublishesExact`, `publishes_exact`.
-/

namespace QCrate.Recorder

open QCrate.Lib QCrate.DataPlane SentRun

variable {R : SentRun} {source : Source} {run : RunState} {s : SentShot}

/-! ## Extents -/

/-- Extents, each an offset and a length, that follow each other from `first` up to `last`. -/
def Adjoin : ℕ → ℕ → List (ℕ × ℕ) → Prop
  | first, last, [] => first = last
  | first, last, e :: rest => e.1 = first ∧ Adjoin (first + e.2) last rest

theorem Adjoin.concat {first last n : ℕ} {l : List (ℕ × ℕ)} (h : Adjoin first last l) :
    Adjoin first (last + n) (l ++ [(last, n)]) := by
  induction l generalizing first with
  | nil =>
    obtain rfl : first = last := h
    exact ⟨rfl, rfl⟩
  | cons e rest ih => exact ⟨h.1, ih h.2⟩

/-- The COMPLETE records of an index. -/
def completeRecords (index : List IndexRecord) : List IndexRecord :=
  index.filter (·.state = .complete)

/-- The extent of a record in the sample file. -/
def IndexRecord.extent (r : IndexRecord) : ℕ × ℕ := (r.sampleFileOffset, r.sampleBytes)

/-- The index and the sample file say nothing wrong about the shots of the run. -/
structure PublishesExact (R : SentRun) (index : List IndexRecord) (samples : Bytes) : Prop where
  exact : ∀ r ∈ completeRecords index, ∃ s ∈ R.shots, r.shotId = s.shotId ∧
    r.sampleBytes = s.samples.length ∧
    (samples.drop r.sampleFileOffset).take r.sampleBytes = s.samples
  once : ((completeRecords index).map (·.shotId)).Nodup
  consecutive : Adjoin 0 samples.length ((completeRecords index).map IndexRecord.extent)
  empty : ∀ r ∈ index, r.state = .incomplete → r.sampleBytes = 0

/-! ## The records of a log -/

theorem forall₂_concat {α β : Type*} {P : α → β → Prop} {l : List α} {a : α} {m : List β}
    (h : List.Forall₂ P (l ++ [a]) m) : ∃ m' b, m = m' ++ [b] ∧ List.Forall₂ P l m' ∧ P a b := by
  induction l generalizing m with
  | nil =>
    obtain ⟨b, m', hab, hnil, rfl⟩ := List.forall₂_cons_left_iff.mp h
    rw [List.forall₂_nil_left_iff.mp hnil]
    exact ⟨[], b, rfl, .nil, hab⟩
  | cons c l ih =>
    obtain ⟨b, m', hcb, hrest, rfl⟩ := List.forall₂_cons_left_iff.mp h
    obtain ⟨m'', b', rfl, hl, hab⟩ := ih hrest
    exact ⟨b :: m'', b', rfl, .cons hcb hl, hab⟩

/-- A published shot was announced, and moves the watermark. -/
theorem marks_of_intact {maxShotBytes : ℕ} {profile : Option Profile}
    {before : List (Entry Packet)} {e : Entry Packet}
    (h : R.intact maxShotBytes profile before e = true) :
    ∃ s, R.shots[e.unit]? = some s ∧ R.feed.announced e = true ∧ R.feed.marking e = true := by
  cases hs : R.shots[e.unit]? with
  | none =>
    unfold SentRun.intact at h
    rw [hs] at h
    cases h
  | some s =>
    obtain ⟨hw, hfits, -⟩ := (R.intact_iff hs).mp h
    refine ⟨s, rfl, ?_, (R.marking_iff hs).mpr ?_⟩
    · rw [R.announced_iff hs]
      exact hw _ s.info_mem
    · unfold SentShot.heldTimestamp
      rw [if_pos ⟨hw _ s.info_mem, hw _ (s.data_mem s.firstData_mem)⟩]
      exact hfits.1

/-- What the records of a log say, when the shots that move the watermark go out in order. -/
theorem publishes_of_records {maxShotBytes : ℕ} {profile : Option Profile}
    {log : List (Entry Packet)} {index : List IndexRecord}
    (h : List.Forall₂ (R.Records maxShotBytes profile) (histories log) index)
    (hsorted : log.Pairwise fun e f => R.feed.announced e = true → R.feed.marking e = true →
      R.feed.announced f = true → R.feed.marking f = true → e.unit < f.unit) :
    PublishesExact R index (R.published maxShotBytes profile log) ∧
      ∀ r ∈ completeRecords index, ∃ e ∈ log, ∃ s, R.shots[e.unit]? = some s ∧
        r.shotId = s.shotId ∧ R.feed.announced e = true ∧ R.feed.marking e = true := by
  -- by the last record of the log, which is the last of the index
  induction log using List.reverseRecOn generalizing index with
  | nil =>
    rw [List.forall₂_nil_left_iff.mp h]
    exact ⟨⟨nofun, .nil, rfl, nofun⟩, nofun⟩
  | append_singleton log e ih =>
    rw [histories_concat] at h
    obtain ⟨index, r, rfl, hindex, hr⟩ := forall₂_concat h
    obtain ⟨hsorted, -, hlast⟩ := List.pairwise_append.mp hsorted
    obtain ⟨hexact, hfrom⟩ := ih hindex hsorted
    obtain ⟨s, hs, hid⟩ := hr.shotId
    have hpublished := R.published_concat maxShotBytes profile log hs
    have hstate := hr.state
    have hoffset := hr.offset
    have hbytes := hr.bytes
    dsimp only at hs hstate hoffset hbytes
    by_cases hi : R.intact maxShotBytes profile log e = true
    -- an intact shot adds its record and its bytes
    · obtain ⟨s', hs', hann, hmark⟩ := marks_of_intact hi
      rw [if_pos hi] at hstate hoffset hbytes hpublished
      rw [hs] at hbytes
      have hlen : r.sampleBytes = s.samples.length := hbytes
      have hcomplete : completeRecords (index ++ [r]) = completeRecords index ++ [r] := by
        unfold completeRecords
        rw [List.filter_append, List.filter_cons_of_pos (by simpa using hstate), List.filter_nil]
      rw [hpublished]
      refine ⟨⟨?_, ?_, ?_, ?_⟩, ?_⟩
      · intro r' hr'
        rw [hcomplete] at hr'
        rcases List.mem_append.mp hr' with hr' | hr'
        -- the records before find their bytes where they were
        · obtain ⟨t, ht, htid, htlen, htake⟩ := hexact.exact r' hr'
          refine ⟨t, ht, htid, htlen, ?_⟩
          have hle : r'.sampleBytes ≤
              ((R.published maxShotBytes profile log).drop r'.sampleFileOffset).length := by
            rw [htlen, ← htake, List.length_take]
            exact min_le_right ..
          by_cases hz : r'.sampleBytes = 0
          · rw [hz, List.take_zero]
            rw [hz, List.take_zero] at htake
            exact htake
          · rw [List.length_drop] at hle
            rw [List.drop_append_of_le_length (by omega),
              List.take_append_of_le_length (by rw [List.length_drop]; exact hle)]
            exact htake
        · rw [List.mem_singleton.mp hr']
          refine ⟨s, List.mem_of_getElem? hs, hid, hlen, ?_⟩
          rw [hoffset, hlen, List.drop_left, List.take_length]
      · rw [hcomplete, List.map_append]
        refine List.nodup_append.mpr ⟨hexact.once, List.nodup_singleton _, ?_⟩
        intro a ha b hb hab
        obtain ⟨r', hr', rfl⟩ := List.mem_map.mp ha
        obtain ⟨f, hf, t, ht, htid, hfann, hfmark⟩ := hfrom r' hr'
        have hb' : b = r.shotId := List.mem_singleton.mp hb
        rw [hb', htid, hid] at hab
        -- shots go out in order, so no earlier record has this id
        have hlt := hlast f hf e List.mem_cons_self hfann hfmark hann hmark
        exact absurd (SentRun.shotId_inj ht hs hab) hlt.ne
      · rw [hcomplete, List.map_append, List.length_append, ← hlen]
        have hext : [r].map IndexRecord.extent =
            [((R.published maxShotBytes profile log).length, r.sampleBytes)] := by
          rw [List.map_cons, List.map_nil, IndexRecord.extent, hoffset]
        rw [hext]
        exact hexact.consecutive.concat
      · intro r' hr' hinc
        rcases List.mem_append.mp hr' with hr' | hr'
        · exact hexact.empty r' hr' hinc
        · rw [List.mem_singleton.mp hr', hstate] at hinc
          cases hinc
      · intro r' hr'
        rw [hcomplete] at hr'
        rcases List.mem_append.mp hr' with hr' | hr'
        · obtain ⟨f, hf, hrest⟩ := hfrom r' hr'
          exact ⟨f, List.mem_append_left _ hf, hrest⟩
        · rw [List.mem_singleton.mp hr']
          exact ⟨e, by simp, s, hs, hid, hann, hmark⟩
    -- any other shot adds a record without samples
    · rw [if_neg hi] at hstate hoffset hbytes hpublished
      have hcomplete : completeRecords (index ++ [r]) = completeRecords index := by
        unfold completeRecords
        rw [List.filter_append, List.filter_cons_of_neg (by simp [hstate]), List.filter_nil,
          List.append_nil]
      rw [hpublished, List.append_nil]
      refine ⟨⟨?_, ?_, ?_, ?_⟩, ?_⟩
      · rw [hcomplete]
        exact hexact.exact
      · rw [hcomplete]
        exact hexact.once
      · rw [hcomplete]
        exact hexact.consecutive
      · intro r' hr' hinc
        rcases List.mem_append.mp hr' with hr' | hr'
        · exact hexact.empty r' hr' hinc
        · rw [List.mem_singleton.mp hr']
          exact hbytes
      · intro r' hr'
        rw [hcomplete] at hr'
        obtain ⟨f, hf, hrest⟩ := hfrom r' hr'
        exact ⟨f, List.mem_append_left _ hf, hrest⟩

/-- The publisher behind a recording. -/
theorem record_follows {messages : List RunState.Message} {items : List Item}
    (hd : Delivers R source messages items) (o : Options) (interrupted : Bool) :
    ∃ S, R.Follows S (record o messages interrupted).run ∧ R.feed.Sound S := by
  cases record_session hd o interrupted with
  | unheard _ _ _ _ h => exact ⟨{}, h, ⟨.nil, nofun, .nil⟩⟩
  | stuck _ _ _ h _ =>
    obtain ⟨l, S, k, p, -, -, h, -⟩ := h
    exact ⟨S, h.follows, h.runs.sound.1⟩
  | ended _ _ _ h hf h' =>
    exact ⟨_, h', h.runs.sound.1.flushes hf⟩

/-- Whatever is lost, repeated or reordered, the recorder publishes nothing wrong. -/
theorem publishes_exact {messages : List RunState.Message} {items : List Item}
    (hd : Delivers R source messages items) (o : Options) (interrupted : Bool) :
    PublishesExact R (record o messages interrupted).run.index
      (record o messages interrupted).run.samples := by
  obtain ⟨S, hfollows, hsound⟩ := record_follows hd o interrupted
  have hlogged := hfollows.logged
  rw [hlogged.samples]
  exact (publishes_of_records hlogged.index hsound.sorted).1

/-! ## A delivery -/

/-- The items of a shot, in the order in which they are sent. -/
def SentRun.shotItems (R : SentRun) (k : ℕ) : List Item := (R.feed.parts k).map (.packet k)

/-- The items as they reach the recorder. -/
def carryItems (R : SentRun) (source : Source) (times : Item → UInt64) (items : List Item) :
    List RunState.Message :=
  items.map fun i => .whole source (times i) (R.datagram i)

theorem SentRun.sends_shotItems {k : ℕ} {i : Item} (hi : i ∈ R.shotItems k) : R.Sends i := by
  obtain ⟨p, hp, rfl⟩ := List.mem_map.mp hi
  exact sends_packet.mpr hp

theorem datagram_length {i : Item} (hi : R.Sends i) : (R.datagram i).length ≤ maxDatagram := by
  cases i with
  | packet k p =>
    obtain ⟨s, -, hp⟩ := hi
    exact Config.datagram_length_le s.accepts hp
  | heartbeat => exact (heartbeat_length R).trans_le (by decide)

theorem delivers_carryItems (source : Source) (times : Item → UInt64) {items : List Item}
    (h : ∀ i ∈ items, R.Sends i) : Delivers R source (carryItems R source times items) items := by
  unfold Delivers carryItems
  rw [List.forall₂_map_left_iff, List.forall₂_same]
  intro i hi
  refine ⟨rfl, rfl, ?_, h i hi⟩
  exact List.take_of_length_le ((datagram_length (h i hi)).trans (by decide))

/-- The second shot twice, and of the first one only its STREAM_INFO, which comes late. -/
def lossy : List Item :=
  twoShotRun.shotItems 1 ++ twoShotRun.shotItems 1 ++ (twoShotRun.shotItems 0).take 1

theorem lossy_sends : ∀ i ∈ lossy, twoShotRun.Sends i := by
  intro i hi
  rcases List.mem_append.mp hi with hi | hi
  · rcases List.mem_append.mp hi with hi | hi <;> exact sends_shotItems hi
  · exact sends_shotItems (List.mem_of_mem_take hi)

theorem publishes_exact_lossy : PublishesExact twoShotRun
    (record { maxShotBytes := 4 } (carryItems twoShotRun (.inet 1 5000) (fun _ => 1) lossy)
      false).run.index
    (record { maxShotBytes := 4 } (carryItems twoShotRun (.inet 1 5000) (fun _ => 1) lossy)
      false).run.samples :=
  publishes_exact (delivers_carryItems _ _ lossy_sends) _ _

end QCrate.Recorder
