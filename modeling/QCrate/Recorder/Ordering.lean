import QCrate.Recorder.CleanRun

/-!
# When the order of arrival does not matter

A run whose shots have one profile, growing timestamps and no more samples than the recorder accepts
is published as it was sent, whatever the order of arrival, if no shot is ever whole while an
earlier one is not and none between the two is announced. Otherwise the later shot is published
first, and what is missing of the earlier one comes too late.

* `Genuine` — the shots can all be published.
* `allIntact_of_units` — consecutive whole shots that are closed in order are published.
* `order_free_iff` — the exact condition on the order of arrival.
* `inOrder_clean` — shots that arrive one after the other, each in any order.
-/

namespace QCrate.Recorder

open QCrate.Lib QCrate.DataPlane SentRun

variable {R : SentRun} {source : Source} {run : RunState} {s : SentShot} {maxShotBytes : ℕ}
  {S : Publisher Packet} {profile : Option Profile} {log before : List (Entry Packet)}
  {e : Entry Packet}

/-- The shots have one profile, growing timestamps and an acceptable size. -/
structure SentRun.Genuine (R : SentRun) (maxShotBytes : ℕ) : Prop where
  uniform : R.Uniform
  stamped : R.Stamped
  fits : ∀ s ∈ R.shots, s.samples.length ≤ maxShotBytes

/-- The profile of the run is the one of a shot. -/
def Known (R : SentRun) (profile : Option Profile) : Prop :=
  ∀ q ∈ profile, ∃ s ∈ R.shots, q = s.profile

/-! ## Which shots are intact -/

theorem timestamp_lt_of_lt (h : R.Stamped) {i j : ℕ} {t : SentShot} (hs : R.shots[i]? = some s)
    (ht : R.shots[j]? = some t) (hij : i < j) : s.timestamp < t.timestamp := by
  obtain ⟨hi, rfl⟩ := List.getElem?_eq_some_iff.mp hs
  obtain ⟨hj, rfl⟩ := List.getElem?_eq_some_iff.mp ht
  exact List.pairwise_iff_getElem.mp h.2 i j hi hj hij

/-- The last closed shot with a timestamp is one of the closed shots. -/
theorem lastShot_mem {l : LastShot} (h : R.lastShot log = some l) :
    ∃ f ∈ log, ∃ t, R.shots[f.unit]? = some t ∧ l.shotId = t.shotId ∧
      l.timestamp = t.timestamp := by
  obtain ⟨f, hf, hl⟩ := List.mem_filterMap.mp (List.mem_of_getLast? h)
  obtain ⟨t, ht, hl⟩ := Option.bind_eq_some_iff.mp hl
  split at hl
  · cases hl
  · next hne =>
    cases hl
    refine ⟨f, hf, t, ht, rfl, ?_⟩
    unfold SentShot.heldTimestamp at hne ⊢
    split at hne
    · next hc => rw [if_pos hc]
    · exact absurd rfl hne

/-- What is expected next follows a closed shot whose SHOT_END is there. -/
theorem expected_mem {q : ℕ} (h : R.expected log = some q) :
    ∃ f ∈ log, ∃ t, R.shots[f.unit]? = some t ∧ f.held t.endPacket = true ∧
      q = t.nextSequence := by
  obtain ⟨f, hf, hq⟩ := List.mem_filterMap.mp (List.mem_of_getLast? h)
  obtain ⟨t, ht, hq⟩ := Option.bind_eq_some_iff.mp hq
  split at hq
  · next hend =>
    cases hq
    exact ⟨f, hf, t, ht, hend, rfl⟩
  · cases hq

/-- A whole shot after earlier ones is published when it follows what was closed before. -/
theorem intact_of_expected (hg : R.Genuine maxShotBytes) (hp : Known R profile)
    (hs : R.shots[e.unit]? = some s) (hw : ∀ p ∈ s.packets, e.held p = true)
    (hexpected : ∀ q ∈ R.expected before, q = s.firstSequence)
    (hbefore : ∀ f ∈ before, f.unit < e.unit) :
    R.intact maxShotBytes profile before e = true := by
  have hmem := List.mem_of_getElem? hs
  refine (R.intact_iff hs).mpr ⟨hw, ⟨hg.stamped.1 s hmem, hg.fits s hmem⟩, fun q hq => ?_,
    hexpected, fun l hl => ?_⟩
  · obtain ⟨t, ht, rfl⟩ := hp q hq
    exact hg.uniform t ht s hmem
  · obtain ⟨f, hf, t, ht, hid, htime⟩ := lastShot_mem hl
    rw [hid, htime]
    exact ⟨SentRun.shotId_lt_of_lt ht hs (hbefore f hf),
      timestamp_lt_of_lt hg.stamped ht hs (hbefore f hf)⟩

/-- Whole shots that are closed one after the other are published when the first of them follows
what was closed before. -/
theorem intact_from (hg : R.Genuine maxShotBytes) (hp : Known R profile)
    {rest : List (Entry Packet)} {c : ℕ} (hunits : rest.map (·.unit) = List.range' c rest.length)
    (hwhole : ∀ e ∈ rest, ∃ s, R.shots[e.unit]? = some s ∧ ∀ p ∈ s.packets, e.held p = true)
    (hbefore : ∀ f ∈ before, f.unit < c)
    (hexpected : ∀ s, R.shots[c]? = some s → ∀ q ∈ R.expected before, q = s.firstSequence) :
    ∀ h ∈ historiesFrom before rest, R.intact maxShotBytes profile h.1 h.2 = true := by
  induction rest generalizing before c with
  | nil => exact nofun
  | cons e rest ih =>
    rw [List.map_cons, List.length_cons, List.range'_succ] at hunits
    obtain ⟨heu, hunits⟩ := List.cons.inj hunits
    obtain ⟨s, hs, hw⟩ := hwhole e List.mem_cons_self
    have hi : R.intact maxShotBytes profile before e = true :=
      intact_of_expected hg hp hs hw (hexpected s (heu ▸ hs)) fun f hf => heu ▸ hbefore f hf
    intro h hh
    rcases List.mem_cons.mp hh with rfl | hh
    · exact hi
    refine ih hunits (fun f hf => hwhole f (List.mem_cons_of_mem _ hf)) (fun f hf => ?_)
      (fun t ht q hq => ?_) h hh
    · rcases List.mem_append.mp hf with hf | hf
      · exact (hbefore f hf).trans (Nat.lt_succ_self c)
      · rw [List.mem_singleton.mp hf, heu]
        exact Nat.lt_succ_self c
    · rw [R.expected_concat before hs, if_pos (hw _ s.end_mem)] at hq
      cases hq
      exact (SentRun.firstSequence_succ (heu ▸ hs) ht).symm

/-- Consecutive whole shots that are closed in order are published. -/
theorem allIntact_of_units (hg : R.Genuine maxShotBytes) (hp : Known R profile) {b : ℕ}
    (hunits : log.map (·.unit) = List.range' b log.length)
    (hwhole : ∀ e ∈ log, ∃ s, R.shots[e.unit]? = some s ∧ ∀ p ∈ s.packets, e.held p = true) :
    AllIntact R maxShotBytes profile log :=
  intact_from hg hp hunits hwhole nofun fun _ _ q hq => by cases hq

/-! ## The run as a feed -/

variable {l items : List Item}

theorem parts_ne_nil {k : ℕ} (hk : k < R.shots.length) : R.feed.parts k ≠ [] := by
  rw [SentRun.parts_eq (List.getElem?_eq_getElem hk)]
  exact List.ne_nil_of_mem (SentShot.info_mem _)

/-- Every shot has a packet that announces it. -/
theorem exists_announcing {k : ℕ} (hk : k < R.shots.length) :
    ∃ q ∈ R.feed.parts k, (Item.packet k q).announces = true := by
  refine ⟨(R.shots[k]).infoPacket, ?_, (announces_iff (SentShot.info_mem _)).mpr rfl⟩
  rw [SentRun.parts_eq (List.getElem?_eq_getElem hk)]
  exact SentShot.info_mem _

/-- Stamped shots move the watermark when they are whole. -/
theorem marking_of_whole (h : R.Stamped) (he : e.unit < R.shots.length)
    (hw : R.feed.whole e = true) : R.feed.marking e = true := by
  have hs : R.shots[e.unit]? = some R.shots[e.unit] := List.getElem?_eq_getElem he
  have hall := (R.whole_iff hs).mp hw
  refine (R.marking_iff hs).mpr ?_
  unfold SentShot.heldTimestamp
  rw [if_pos ⟨hall _ (SentShot.info_mem _),
    hall _ (SentShot.data_mem _ (SentShot.firstData_mem _))⟩]
  exact h.1 _ (List.getElem_mem he)

theorem fed_of_stamped (h : R.Stamped) (hl : ∀ i ∈ l, R.Sends i) {b : ℕ} (hb : b ≤ R.shots.length)
    (hquiet : ∀ i < b, ¬ R.feed.Heralded (l.filterMap Item.packet?) i) :
    R.feed.Fed b R.shots.length (l.filterMap Item.packet?) where
  unit := by
    rintro ⟨k, p⟩ ha
    obtain ⟨s, hs, hp⟩ : R.Sends (.packet k p) := hl _ (Ingested.mem_packets.mp ha)
    exact ⟨(List.getElem?_eq_some_iff.mp hs).1, sends_packet.mp ⟨s, hs, hp⟩⟩
  nonempty := fun _ hk => parts_ne_nil hk
  marking := fun _ he hw => marking_of_whole h he hw
  unheralded := hquiet
  le := hb

theorem fed_all (h : R.Stamped) (hl : ∀ i ∈ l, R.Sends i) :
    R.feed.Fed 0 R.shots.length (l.filterMap Item.packet?) :=
  fed_of_stamped h hl (Nat.zero_le _) fun i hi => absurd hi (Nat.not_lt_zero i)

theorem unit_lt (h : R.Follows S run) (he : e ∈ S.table) : e.unit < R.shots.length := by
  obtain ⟨shot, -, s, hs, -⟩ := exists_of_mem_left h.table he
  exact (List.getElem?_eq_some_iff.mp hs).1

/-- The table has room for 256 shots. -/
theorem not_stuck (hn : R.shots.length ≤ maxActiveShots) : ¬ Stuck R source l run := by
  rintro ⟨l', S, k, p, -, ⟨s, hs, -⟩, h, -, hlen, hall⟩
  obtain ⟨hk, -⟩ := List.getElem?_eq_some_iff.mp hs
  have hnodup : (k :: S.table.map (·.unit)).Nodup := by
    refine List.nodup_cons.mpr ⟨fun hm => ?_, h.runs.sound.1.nodup⟩
    obtain ⟨e, he, hu⟩ := List.mem_map.mp hm
    exact hall e he hu
  have hsub : k :: S.table.map (·.unit) ⊆ List.range R.shots.length := by
    intro j hj
    rw [List.mem_range]
    rcases List.mem_cons.mp hj with rfl | hj
    · exact hk
    · obtain ⟨e, he, rfl⟩ := List.mem_map.mp hj
      exact unit_lt h.follows he
  have hle := (List.subperm_of_subset hnodup hsub).length_le
  rw [List.length_cons, List.length_map, List.length_range, hlen] at hle
  omega

theorem effective_mem {i : Item} (hi : i ∈ effective l) : i ∈ l := by
  have hsplit : l.takeWhile (!·.announces) ++ l.dropWhile (!·.announces) = l :=
    List.takeWhile_append_dropWhile
  rw [← hsplit]
  rcases List.mem_append.mp hi with hi | hi
  · exact List.mem_append_left _ (List.mem_of_mem_take hi)
  · exact List.mem_append_right _ hi

/-! ## What a published shot needs -/

/-- A published shot was closed, and whole then. -/
theorem whole_of_published (hf : R.Follows S run) {k : ℕ} (hs : R.shots[k]? = some s)
    (h : Published run s) : ∃ p ∈ histories S.log, p.2.unit = k ∧
      R.intact run.maxShotBytes run.profileOf p.1 p.2 = true := by
  obtain ⟨r, hr, hid, -⟩ := h
  obtain ⟨hmem, hstate⟩ := List.mem_filter.mp hr
  obtain ⟨p, hp, hrec⟩ := exists_of_mem_right hf.logged.index hmem
  obtain ⟨t, ht, htid⟩ := hrec.shotId
  refine ⟨p, hp, SentRun.shotId_inj ht hs (htid.symm.trans hid), ?_⟩
  by_contra hno
  have hrs := hrec.state
  rw [if_neg hno, of_decide_eq_true hstate] at hrs
  cases hrs

theorem mem_of_mem_historiesFrom {α : Type*} {before l : List α} {p : List α × α}
    (hp : p ∈ historiesFrom before l) : p.2 ∈ l := by
  induction l generalizing before with
  | nil => cases hp
  | cons a l ih =>
    rcases List.mem_cons.mp hp with rfl | hp
    · exact List.mem_cons_self
    · exact List.mem_cons_of_mem _ (ih hp)

/-- The shot ids of the COMPLETE records, in order. -/
def completeIds (run : RunState) : List ℕ := (completeRecords run.index).map (·.shotId)

theorem filterMap_range {α β : Type*} (xs : List α) (f : α → β) :
    (List.range xs.length).filterMap (fun k => xs[k]?.map f) = xs.map f := by
  induction xs using List.reverseRecOn with
  | nil => rfl
  | append_singleton xs x ih =>
    rw [List.length_append, List.length_singleton, List.range_succ, List.filterMap_append,
      List.map_append, ← ih]
    congr 1
    · refine List.filterMap_congr fun k hk => ?_
      rw [List.getElem?_append_left (List.mem_range.mp hk)]
    · simp

theorem flatMap_getD {α β : Type*} (l : List α) (f : α → Option (List β)) :
    l.flatMap (fun a => (f a).getD []) = (l.filterMap f).flatten := by
  induction l with
  | nil => rfl
  | cons a l ih =>
    rw [List.flatMap_cons, ih]
    cases hf : f a with
    | none => rw [List.filterMap_cons_none hf, Option.getD_none, List.nil_append]
    | some b => rw [List.filterMap_cons_some hf, Option.getD_some, List.flatten_cons]

theorem historiesFrom_map_snd {α : Type*} (before l : List α) :
    (historiesFrom before l).map Prod.snd = l := by
  induction l generalizing before with
  | nil => rfl
  | cons a l ih => rw [historiesFrom, List.map_cons, ih]

/-- The shots of a log that has all of them in order. -/
theorem map_units {α : Type*} (f : SentShot → α)
    (hunits : log.map (·.unit) = List.range' 0 R.shots.length) :
    log.filterMap (fun e => R.shots[e.unit]?.map f) = R.shots.map f := by
  have hmap : log.filterMap (fun e => R.shots[e.unit]?.map f) =
      (log.map (·.unit)).filterMap fun k => R.shots[k]?.map f := by
    rw [List.filterMap_map]
    rfl
  rw [hmap, hunits, ← List.range_eq_range', filterMap_range]

theorem ids_of_records {histories : List (List (Entry Packet) × Entry Packet)}
    {index : List IndexRecord} (h : List.Forall₂ (R.Records maxShotBytes profile) histories index) :
    index.map (·.shotId) =
      (histories.map Prod.snd).filterMap fun e => R.shots[e.unit]?.map SentShot.shotId := by
  induction h with
  | nil => rfl
  | @cons p r histories index hr _ ih =>
    obtain ⟨s, hs, hid⟩ := hr.shotId
    rw [List.map_cons, List.map_cons, List.filterMap_cons, ih, hid]
    simp only [hs, Option.map_some]

/-- The files of a recorder that closed all shots in order, all of them published. -/
theorem files_of_units (hf : R.Follows S run)
    (hi : AllIntact R run.maxShotBytes run.profileOf S.log)
    (hunits : S.log.map (·.unit) = List.range' 0 R.shots.length) :
    run.index.map (·.shotId) = R.shots.map SentShot.shotId ∧
      (∀ r ∈ run.index, r.state = .complete) ∧
      run.samples = R.shots.flatMap (·.samples) := by
  have hlogged := hf.logged
  refine ⟨?_, fun r hr => ?_, ?_⟩
  · rw [ids_of_records hlogged.index, histories, historiesFrom_map_snd, map_units _ hunits]
  · obtain ⟨p, hp, hrec⟩ := exists_of_mem_right hlogged.index hr
    have hstate := hrec.state
    rw [if_pos (hi p hp)] at hstate
    exact hstate
  · have hpublished : R.published run.maxShotBytes run.profileOf S.log =
        ((histories S.log).map Prod.snd).flatMap fun e =>
          ((R.shots[e.unit]?).map (·.samples)).getD [] := by
      unfold SentRun.published
      rw [List.flatMap_map]
      exact List.flatMap_congr fun p hp => if_pos (hi p hp)
    rw [hlogged.samples, hpublished, histories, historiesFrom_map_snd, flatMap_getD,
      map_units _ hunits, List.flatMap_def]

/-! ## All shots in order -/

/-- When every datagram was ingested and nobody overtook, the recorder has closed all shots in
order, and nothing is left in the table. -/
theorem units_of_patient (h : Ingested R source l S run) (hst : R.Stamped)
    (hall : ∀ k < R.shots.length, R.feed.Arrived (l.filterMap Item.packet?) k)
    (hp : R.feed.Patient 0 R.shots.length (l.filterMap Item.packet?)) :
    S.log.map (·.unit) = List.range' 0 R.shots.length ∧ S.table = [] := by
  have hfed := fed_all hst h.sends
  obtain ⟨hin, hfront⟩ := h.runs.inOrder hfed hp
  rw [Nat.zero_add] at hfront
  have hlen : S.log.length = R.shots.length := by
    have hle := hin.le
    by_contra hne
    exact hfront (by omega) (hall _ (by omega))
  refine ⟨hlen ▸ hin.log, List.eq_nil_iff_forall_not_mem.mpr fun e he => ?_⟩
  have hlt := unit_lt h.follows he
  have hge := hin.waiting e he (Nat.zero_le _)
  omega

/-- Then all of them are published. -/
theorem allIntact_of_runs (hr : R.feed.Runs (l.filterMap Item.packet?) S)
    (hg : R.Genuine maxShotBytes) (hp : Known R profile)
    (hunits : S.log.map (·.unit) = List.range' 0 R.shots.length) :
    AllIntact R maxShotBytes profile S.log := by
  have hlen := length_of_units hunits
  refine allIntact_of_units hg hp (hlen ▸ hunits) fun e he => ?_
  have hlt : e.unit < R.shots.length := by
    have := (unit_bounds hunits he).2
    omega
  have hs : R.shots[e.unit]? = some R.shots[e.unit] := List.getElem?_eq_getElem hlt
  exact ⟨_, hs, (R.whole_iff hs).mp (hr.whole e he)⟩

/-- What a recording leaves behind when every datagram was ingested and nobody overtook. -/
theorem ended_of_patient {S' : Publisher Packet} {run₀ : RunState}
    (h : Ingested R source l S run₀) (hf : R.feed.Flushes S S') (h' : R.Follows S' run)
    (hprofile : run.profile = run₀.profile) (hg : R.Genuine run.maxShotBytes)
    (hall : ∀ k < R.shots.length, R.feed.Arrived (l.filterMap Item.packet?) k)
    (hp : R.feed.Patient 0 R.shots.length (l.filterMap Item.packet?)) :
    R.Follows S run ∧ S.log.map (·.unit) = List.range' 0 R.shots.length ∧
      AllIntact R run.maxShotBytes run.profileOf S.log := by
  obtain ⟨hunits, htable⟩ := units_of_patient h hg.stamped hall hp
  have hknown : Known R run.profileOf := by
    unfold RunState.profileOf
    rw [hprofile]
    exact h.profile
  rw [hf.eq_of_nil htable] at h'
  exact ⟨h', hunits, allIntact_of_runs h.runs hg hknown hunits⟩

/-! ## Shot by shot -/

/-- The shots arrive one after the other, each in any order; what came in already may come again at
any time. -/
def ShotByShot (R : SentRun) (items : List Item) : Prop :=
  ∀ before i after, items = before ++ i :: after →
    ∀ j < R.shots.length, (∀ k p, i = .packet k p → j < k) →
      ∀ q ∈ R.feed.parts j, Item.packet j q ∈ before

theorem ShotByShot.initial (h : ShotByShot R items) (hl : l <+: items) : ShotByShot R l := by
  obtain ⟨rest, rfl⟩ := hl
  intro before i after hsplit
  exact h before i (after ++ rest) (by rw [hsplit]; simp)

/-- Then nobody overtakes. -/
theorem ShotByShot.patient (h : ShotByShot R items) {b : ℕ} :
    R.feed.Patient b R.shots.length (items.filterMap Item.packet?) := by
  intro l' hl' m k _ hmk hk hm _ harrived
  obtain ⟨items', hpre, rfl⟩ := List.prefix_filterMap_iff.mp hl'
  refine absurd (fun p hp => ?_) hm
  obtain ⟨q, hq⟩ := List.exists_mem_of_ne_nil _ (parts_ne_nil hk)
  obtain ⟨before, after, hsplit⟩ :=
    List.append_of_mem (Ingested.mem_packets.mp (harrived q hq))
  have hbefore := h.initial hpre before _ after hsplit m (hmk.trans hk)
    (fun k' p' he => by cases he; exact hmk) p hp
  refine Ingested.mem_packets.mpr ?_
  rw [hsplit]
  exact List.mem_append_left _ hbefore

/-- The table never has an entry of another shot than the one that arrives. -/
theorem ShotByShot.not_stuck (hst : R.Stamped) (h : ShotByShot R items) :
    ¬ Stuck R source items run := by
  rintro ⟨l, S, k, p, hpre, ⟨s, hs, hp⟩, hin, hlate, hlen, hall⟩
  obtain ⟨hk, -⟩ := List.getElem?_eq_some_iff.mp hs
  have hfed := fed_all hst hin.sends
  have hl : ShotByShot R l := h.initial ((List.prefix_append ..).trans hpre)
  obtain ⟨horder, hfront⟩ := hin.runs.inOrder hfed hl.patient
  -- a shot that is heard of has every earlier one behind it
  have hbehind : ∀ {l' : List Item}, ShotByShot R l' → ∀ {i j : ℕ} {q : Packet},
      Item.packet j q ∈ l' → i < j → i < R.shots.length →
      R.feed.Arrived (l'.filterMap Item.packet?) i := by
    intro l' hl' i j q hq hij hi q' hq'
    obtain ⟨before, after, hsplit⟩ := List.append_of_mem hq
    have hbefore := hl' before _ after hsplit i hi (fun k' p' he => by cases he; exact hij) q' hq'
    refine Ingested.mem_packets.mpr ?_
    rw [hsplit]
    exact List.mem_append_left _ hbefore
  have hge : S.log.length ≤ k := by
    rw [horder.late_iff hfed, Nat.zero_add] at hlate
    by_contra hlt
    refine hlate ⟨fun hnil => ?_, Nat.not_le.mp hlt⟩
    rw [hnil] at hlt
    exact hlt (Nat.zero_le _)
  have hnil : S.table = [] := by
    rw [List.eq_nil_iff_forall_not_mem]
    intro e he
    have hwait := horder.waiting e he (Nat.zero_le _)
    have hne := hall e he
    rw [Nat.zero_add] at hwait hfront
    obtain ⟨⟨j, q⟩, ha, hj⟩ := (hin.runs.books hfed).1.heard e he
    obtain rfl : j = e.unit := hj
    have hq := Ingested.mem_packets.mp ha
    rcases Nat.lt_or_ge k e.unit with hlt | hle
    · have hno := hfront (hge.trans_lt hk)
      rcases hge.lt_or_eq with hmk | heq
      · exact hno (hbehind hl hq (hmk.trans hlt) (hmk.trans hk))
      · rw [heq] at hno
        exact hno (hbehind hl hq hlt hk)
    · have hmk : S.log.length < k := by omega
      refine hfront (hmk.trans hk) fun q' hq' => ?_
      have hnext : ShotByShot R (l ++ [Item.packet k p]) := h.initial hpre
      have hmem := hnext l _ [] rfl _ (hmk.trans hk) (fun k' p' he => by cases he; exact hmk) q' hq'
      exact Ingested.mem_packets.mpr hmem
  rw [hnil] at hlen
  cases hlen

/-- What the items of a delivery are when the filter admits the sender. -/
theorem heardItems_eq {o : Options} (h : Admits o source) : heardItems o source items = items :=
  if_pos h

/-- Nothing notes another end than the heartbeat once all shots are closed. -/
theorem ending_of_shotByShot (h : ShotByShot R items) (hst : R.Stamped)
    (hbeat : Item.heartbeat ∈ items) (hsends : ∀ i ∈ items, R.Sends i) {t : Terminal}
    (ht : R.Ends items t) : t = R.ending := by
  rcases ht with ⟨-, ht⟩ | ⟨before, after, k, s, S, hs, hsplit, hno, -, hruns, hlate, -⟩
  · exact ht
  · obtain ⟨hk, -⟩ := List.getElem?_eq_some_iff.mp hs
    have hmem : Item.heartbeat ∈ before := by
      rw [hsplit] at hbeat
      rcases List.mem_append.mp hbeat with hm | hm
      · exact hm
      · rcases List.mem_cons.mp hm with he | hm
        · cases he
        · exact absurd hm hno
    have hpre : before <+: items := ⟨_, hsplit.symm⟩
    have hb := h.initial hpre
    obtain ⟨b₁, b₂, hb₂⟩ := List.append_of_mem hmem
    have hsends' : ∀ i ∈ before, R.Sends i := fun i hi => hsends i (hpre.subset hi)
    have hfed := fed_all hst hsends'
    obtain ⟨horder, hfront⟩ := hruns.inOrder hfed hb.patient
    rw [Nat.zero_add] at hfront
    have hlen : S.log.length = R.shots.length := by
      have hle := horder.le
      by_contra hne
      refine hfront (by omega) fun q hq => Ingested.mem_packets.mpr ?_
      have hq' := hb b₁ _ b₂ hb₂ S.log.length (by omega) (fun _ _ he => nomatch he) q hq
      rw [hb₂]
      exact List.mem_append_left _ hq'
    refine absurd ((horder.late_iff hfed k).mpr ⟨fun hnil => ?_, by omega⟩) hlate
    rw [hnil] at hlen
    have : R.shots.length = 0 := hlen.symm
    omega

theorem ending_shotId (hs : R.shots.getLast? = some s) : R.ending.shotId = s.shotId := by
  show (UInt64.ofNat _).toNat = _
  rw [hs]
  exact UInt64.toNat_ofNat_of_lt' s.config.shotId.toNat_lt

/-- The end of a run whose shots were all closed in order follows the last one. -/
theorem terminalBreaks_eq_false (hf : R.Follows S run) (hst : R.Stamped)
    (hi : AllIntact R run.maxShotBytes run.profileOf S.log)
    (hunits : S.log.map (·.unit) = List.range' 0 R.shots.length) (hne : R.shots ≠ [])
    (ht : ∀ t ∈ run.terminal, t = R.ending) : run.terminalBreaks = false := by
  have hpos := List.length_pos_iff.mpr hne
  have hlen := length_of_units hunits
  obtain ⟨last, hlast⟩ : ∃ last, R.shots[R.shots.length - 1]? = some last :=
    ⟨_, List.getElem?_eq_getElem (by omega)⟩
  have hlast' : R.shots.getLast? = some last := by rw [List.getLast?_eq_getElem?, hlast]
  have hnil : S.log ≠ [] := fun h => by
    rw [h] at hlen
    exact hpos.ne hlen
  obtain ⟨e, he⟩ := Option.isSome_iff_exists.mp (List.getLast?_isSome.mpr hnil)
  obtain ⟨log, hlog⟩ := List.getLast?_eq_some_iff.mp he
  have heu : e.unit = R.shots.length - 1 := by
    have hu : (S.log.map (·.unit)).getLast? = some e.unit := by
      rw [List.getLast?_map, he]
      rfl
    rw [hunits, List.getLast?_range', if_neg (by omega)] at hu
    have := Option.some.inj hu
    omega
  have hs : R.shots[e.unit]? = some last := by rw [heu, hlast]
  rw [hlog] at hi
  obtain ⟨-, hie⟩ := hi.of_concat
  obtain ⟨hw, -⟩ := (R.intact_iff hs).mp hie
  have hstamp : last.heldTimestamp e.held = last.timestamp := by
    unfold SentShot.heldTimestamp
    rw [if_pos ⟨hw _ last.info_mem, hw _ (last.data_mem last.firstData_mem)⟩]
  have hexpected : run.expectedSequence = some last.nextSequence := by
    rw [hf.logged.expectedSequence, hlog, R.expected_concat log hs, if_pos (hw _ last.end_mem)]
  have hshot : run.lastShot = some ⟨last.shotId, last.timestamp⟩ := by
    rw [hf.logged.lastShot, hlog, R.lastShot_concat log hs, hstamp,
      if_neg (hst.1 last (List.mem_of_getElem? hs))]
  have hsequence : R.ending.sequence = last.nextSequence := heartbeat_sequence hlast'
  have hid := ending_shotId hlast'
  have hkind : R.ending.isShotEnd = false := rfl
  unfold RunState.terminalBreaks
  cases hterm : run.terminal with
  | none => rfl
  | some t =>
    obtain rfl := ht t hterm
    rw [hexpected, hshot]
    simp [hkind, hsequence, hid]

theorem dropsOf_eq_zero {messages : List RunState.Message}
    (h : ∀ m ∈ messages, m.dropped.getD 0 = 0) : dropsOf 0 messages = 0 := by
  unfold dropsOf
  induction messages with
  | nil => rfl
  | cons m messages ih =>
    rw [List.foldl_cons, h m List.mem_cons_self, Nat.max_self]
    exact ih fun m' hm' => h m' (List.mem_cons_of_mem _ hm')

/-- All closed shots count as complete. -/
theorem completeShots_eq (hf : R.Follows S run)
    (hi : AllIntact R run.maxShotBytes run.profileOf S.log) :
    run.completeShots = S.log.length := by
  rw [hf.logged.complete, List.countP_eq_length.mpr hi, histories,
    ← List.length_map (f := Prod.snd), historiesFrom_map_snd]

/-- A run whose shots arrive one after the other, each in any order and with repetitions, is
recorded cleanly and as it was sent. -/
theorem shotByShot_clean {o : Options} (hg : R.Genuine o.maxShotBytes) (hne : R.shots ≠ [])
    (hadmits : Admits o source) {messages : List RunState.Message}
    (hd : Delivers R source messages items) (horder : ShotByShot R items)
    (hall : ∀ i ∈ R.sent, i ∈ items) (hwindow : (window items).length < maxPendingPackets)
    (hdrops : ∀ m ∈ messages, m.dropped.getD 0 = 0) :
    (record o messages false).clean = true ∧
      (record o messages false).run.index.map (·.shotId) = R.shots.map SentShot.shotId ∧
      (∀ r ∈ (record o messages false).run.index, r.state = .complete) ∧
      (record o messages false).run.samples = R.shots.flatMap (·.samples) := by
  have hpos := List.length_pos_iff.mpr hne
  have hpackets : ∀ k p, p ∈ R.feed.parts k → Item.packet k p ∈ items := by
    intro k p hp
    obtain ⟨s, hs, -⟩ := sends_packet.mpr hp
    obtain ⟨hk, -⟩ := List.getElem?_eq_some_iff.mp hs
    refine hall _ (List.mem_append_left _ (List.mem_flatMap.mpr ⟨k, List.mem_range.mpr hk, ?_⟩))
    exact List.mem_map_of_mem hp
  have hbeat : Item.heartbeat ∈ items := hall _ (List.mem_append_right _ List.mem_cons_self)
  have heffective : effective items = items := effective_eq hwindow.le
  have hsession := record_session hd o false
  rw [heardItems_eq hadmits] at hsession
  generalize record o messages false = out at hsession
  -- all packets arrived, so a shot was selected, and none was closed early
  cases hsession with
  | unheard hl =>
    obtain ⟨q, hq, hann⟩ := exists_announcing hpos
    rw [hl _ (hpackets 0 q hq)] at hann
    cases hann
  | stuck _ _ _ h =>
    rw [heffective] at h
    exact absurd h (horder.not_stuck hg.stamped)
  | @ended _ _ hclean S S' run h hf h' hm hselected hprofile hterminal hoverflow hinterrupted
      hmalformed hkernel hcontinuity =>
    rw [heffective] at h
    have harrived : ∀ k < R.shots.length, R.feed.Arrived (items.filterMap Item.packet?) k :=
      fun k _ p hp => Ingested.mem_packets.mpr (hpackets k p hp)
    obtain ⟨hfollows, hunits, hintact⟩ :=
      ended_of_patient h hf h' hprofile (hm ▸ hg) harrived horder.patient
    have hlogged := hfollows.logged
    have hends : ∀ t ∈ out.run.terminal, t = R.ending := fun t ht =>
      ending_of_shotByShot horder hg.stamped hbeat h.sends (h.ended t (hterminal ▸ ht))
    have hbreaks := terminalBreaks_eq_false hfollows hg.stamped hintact hunits hne hends
    have hcount : out.run.completeShots = R.shots.length :=
      (completeShots_eq hfollows hintact).trans (length_of_units hunits)
    have hdropped : dropsOf 0 messages = 0 := dropsOf_eq_zero hdrops
    obtain ⟨hids, hstates, hsamples⟩ := files_of_units hfollows hintact hunits
    refine ⟨?_, hids, hstates, hsamples⟩
    have hsel : out.run.selected.isSome = true := by rw [hselected, h.selected]; rfl
    have hterm : out.run.terminal.isSome = true := by
      rw [hterminal]
      exact Option.isSome_iff_ne_none.mpr (h.noted hbeat)
    have hover : out.run.pendingOverflow = 0 := by omega
    have hincomplete := (allIntact_iff hfollows).mp hintact
    rw [hclean]
    unfold RunState.clean
    rw [hsel, hterm, hinterrupted, hcount, hincomplete, hmalformed, hlogged.conflictingPackets,
      hkernel, hdropped, hcontinuity, hbreaks, hover]
    simp [hpos]

theorem packet_mem_sent {k : ℕ} {p : Packet} :
    Item.packet k p ∈ R.sent ↔ p ∈ R.feed.parts k := by
  unfold SentRun.sent SentRun.shotItems
  simp only [List.mem_append, List.mem_flatMap, List.mem_range, List.mem_map, List.mem_singleton,
    reduceCtorEq, or_false]
  constructor
  · rintro ⟨j, -, q, hq, he⟩
    cases he
    exact hq
  · intro hp
    obtain ⟨s, hs, -⟩ := sends_packet.mpr hp
    exact ⟨k, (List.getElem?_eq_some_iff.mp hs).1, p, hp, rfl⟩

/-- What is sent in order is sent shot by shot. -/
theorem shotByShot_sent (R : SentRun) : ShotByShot R R.sent := by
  intro before i after hsplit j hj hlater q hq
  have hsorted : R.sent.Pairwise fun x y => ∀ k p, y = .packet k p →
      ∃ k' p', x = .packet k' p' ∧ k' ≤ k := by
    refine List.pairwise_append.mpr ⟨?_, List.pairwise_singleton .., ?_⟩
    · refine List.pairwise_flatMap.mpr ⟨fun k _ => ?_, ?_⟩
      · refine List.pairwise_map.mpr (List.pairwise_of_forall fun p p' k₁ p₁ he => ?_)
        cases he
        exact ⟨k, p, rfl, le_rfl⟩
      · refine List.pairwise_lt_range.imp fun {k k'} hlt x hx y hy k₁ p₁ he => ?_
        obtain ⟨p, -, rfl⟩ := List.mem_map.mp hx
        obtain ⟨p', -, rfl⟩ := List.mem_map.mp hy
        cases he
        exact ⟨k, p, rfl, hlt.le⟩
    · intro x hx y hy k p he
      rw [List.mem_singleton.mp hy] at he
      cases he
  have hmem : Item.packet j q ∈ before ++ i :: after := hsplit ▸ packet_mem_sent.mpr hq
  rw [hsplit] at hsorted
  rcases List.mem_append.mp hmem with hm | hm
  · exact hm
  · obtain ⟨-, hpair, -⟩ := List.pairwise_append.mp hsorted
    rcases List.mem_cons.mp hm with rfl | hm
    · exact absurd (hlater j q rfl) (lt_irrefl j)
    · obtain ⟨k', p', rfl, hle⟩ := (List.pairwise_cons.mp hpair).1 _ hm j q rfl
      exact absurd (hlater k' p' rfl) (Nat.not_lt.mpr hle)

theorem twoShots_genuine : twoShotRun.Genuine 4 := by
  have hall : ∀ s ∈ twoShotRun.shots, s = ⟨oneSample 0 true, aSample, oneSample_check.1⟩ ∨
      s = ⟨oneSample 1 true, aSample, oneSample_check.2⟩ := by
    intro s hs
    simpa [twoShotRun, twoShots] using hs
  refine ⟨fun s hs t ht => ?_, ⟨fun s hs => ?_, ?_⟩, fun s hs => ?_⟩
  · rcases hall s hs with rfl | rfl <;> rcases hall t ht with rfl | rfl <;> rfl
  · rcases hall s hs with rfl | rfl <;> decide
  · show twoShots.Pairwise fun s t => s.timestamp < t.timestamp
    decide
  · rcases hall s hs with rfl | rfl <;> decide

theorem shotByShot_clean_twoShots : (recordTwo twoShotRun.sent).clean = true ∧
    (recordTwo twoShotRun.sent).run.index.map (·.shotId) =
      twoShotRun.shots.map SentShot.shotId ∧
    (∀ r ∈ (recordTwo twoShotRun.sent).run.index, r.state = .complete) ∧
    (recordTwo twoShotRun.sent).run.samples = twoShotRun.shots.flatMap (·.samples) := by
  have hadmits : Admits { maxShotBytes := 4 } (.inet 1 5000) := rfl
  refine shotByShot_clean twoShots_genuine (List.cons_ne_nil _ _) hadmits
    (delivers_carryItems _ _ sends_sent) (shotByShot_sent _) (fun _ => id) (by decide +kernel) ?_
  intro m hm
  obtain ⟨i, -, rfl⟩ := List.mem_map.mp hm
  rfl

theorem noShots_identity : ∀ s ∈ ([] : List SentShot),
    s.config.streamId = 1 ∧ s.config.runId = 1 := fun _ h => absurd h List.not_mem_nil

theorem noShots_ids : ([] : List SentShot).Pairwise fun a b => a.shotId < b.shotId := .nil

theorem noShots_sequences :
    ([] : List SentShot).IsChain fun a b => b.firstSequence = a.nextSequence := .nil

/-- A run without a shot. -/
def emptyRun : SentRun :=
  { streamId := 1, runId := 1, shots := [], identity := noShots_identity, ids := noShots_ids
    sequences := noShots_sequences }

/-- The heartbeat of a run without a shot is recorded, and the verdict is not clean. -/
theorem emptyRun_not_clean : emptyRun.Genuine 4 ∧
    Delivers emptyRun (.inet 1 5000)
      (carryItems emptyRun (.inet 1 5000) (fun _ => 1) emptyRun.sent) emptyRun.sent ∧
    ShotByShot emptyRun emptyRun.sent ∧
    (record { maxShotBytes := 4 } (carryItems emptyRun (.inet 1 5000) (fun _ => 1) emptyRun.sent)
      false).clean = false := by
  have hnone : ∀ s ∈ emptyRun.shots, False := fun s hs => absurd hs List.not_mem_nil
  refine ⟨⟨fun s hs => (hnone s hs).elim, ⟨fun s hs => (hnone s hs).elim, .nil⟩,
    fun s hs => (hnone s hs).elim⟩, delivers_carryItems _ _ sends_sent, shotByShot_sent _, ?_⟩
  decide +kernel

/-! ## Any order -/

/-- The order of arrival does no harm: the window loses nothing for good, and no shot is ever whole
while an earlier one is not and none between the two is announced. -/
structure Harmless (R : SentRun) (items : List Item) : Prop where
  kept : ∀ k p, p ∈ R.feed.parts k → Item.packet k p ∈ effective items
  patient : R.feed.Patient 0 R.shots.length ((effective items).filterMap Item.packet?)

/-- A run that nothing announces has no shot when no harm is done. -/
theorem Harmless.shots_eq_nil (h : Harmless R items) (hl : ∀ i ∈ items, i.announces = false) :
    R.shots = [] := by
  by_contra hne
  obtain ⟨q, hq, hann⟩ := exists_announcing (List.length_pos_iff.mpr hne)
  rw [hl _ (effective_mem (h.kept 0 q hq))] at hann
  cases hann

theorem harmless_of_nil (h : R.shots = []) : Harmless R items where
  kept := by
    intro k p hp
    obtain ⟨s, hs, -⟩ := sends_packet.mpr hp
    rw [h] at hs
    cases hs
  patient := by
    intro l' _ m k _ _ hk
    rw [h] at hk
    cases hk

/-- Every shot of an ended recording was closed, whole then, when all are published. -/
theorem closed_of_published {S' : Publisher Packet} (hf : R.Follows S' run)
    (hpub : ∀ s ∈ R.shots, Published run s) {k : ℕ} (hk : k < R.shots.length) :
    ∃ e ∈ S'.log, e.unit = k ∧ R.feed.whole e = true := by
  have hs : R.shots[k]? = some R.shots[k] := List.getElem?_eq_getElem hk
  obtain ⟨p, hp, hu, hi⟩ := whole_of_published hf hs (hpub _ (List.getElem_mem hk))
  have hs' : R.shots[p.2.unit]? = some R.shots[k] := by rw [hu, hs]
  exact ⟨p.2, mem_of_mem_historiesFrom hp, hu, (R.whole_iff hs').mpr ((R.intact_iff hs').mp hi).1⟩

/-- Every shot is published, in the order in which they were sent. -/
theorem publishes_iff_harmless {o : Options} (hg : R.Genuine o.maxShotBytes)
    (hn : R.shots.length ≤ maxActiveShots) (hadmits : Admits o source)
    {messages : List RunState.Message} (hd : Delivers R source messages items)
    (interrupted : Bool) :
    (Harmless R items → completeIds (record o messages interrupted).run =
      R.shots.map SentShot.shotId) ∧
    ((∀ s ∈ R.shots, Published (record o messages interrupted).run s) ↔ Harmless R items) := by
  have hsession := record_session hd o interrupted
  obtain ⟨S₀, hfollows₀, hsound₀⟩ := record_follows hd o interrupted
  rw [heardItems_eq hadmits] at hsession
  generalize record o messages interrupted = out at hsession hfollows₀ hsound₀
  cases hsession with
  | unheard hl _ _ _ h =>
    have hindex : out.run.index = [] := List.forall₂_nil_left_iff.mp h.logged.index
    refine ⟨fun hh => ?_, fun hpub => ?_, fun hh s hs => ?_⟩
    · rw [hh.shots_eq_nil hl, completeIds, hindex]
      rfl
    · refine harmless_of_nil (List.eq_nil_iff_forall_not_mem.mpr fun s hs => ?_)
      obtain ⟨r, hr, -⟩ := hpub s hs
      rw [hindex] at hr
      cases hr
    · rw [hh.shots_eq_nil hl] at hs
      cases hs
  | stuck _ _ _ h => exact absurd h (not_stuck hn)
  | @ended _ _ _ S S' run h hf h' hm hselected hprofile hterminal hoverflow =>
    -- a harmless arrival closes every shot when it is whole
    have hforth : Harmless R items → completeIds out.run = R.shots.map SentShot.shotId ∧
        ∀ s ∈ R.shots, Published out.run s := by
      intro hh
      have harrived : ∀ k < R.shots.length,
          R.feed.Arrived ((effective items).filterMap Item.packet?) k :=
        fun k _ p hp => Ingested.mem_packets.mpr (hh.kept k p hp)
      obtain ⟨hfollows, hunits, hintact⟩ :=
        ended_of_patient h hf h' hprofile (hm ▸ hg) harrived hh.patient
      obtain ⟨hids, hstates, -⟩ := files_of_units hfollows hintact hunits
      refine ⟨?_, fun s hs => ?_⟩
      · unfold completeIds completeRecords
        rw [List.filter_eq_self.mpr fun r hr => decide_eq_true (hstates r hr), hids]
      · obtain ⟨k, hk, rfl⟩ := List.getElem_of_mem hs
        obtain ⟨e, he, rfl⟩ := exists_unit hunits (Nat.zero_le k) (by omega)
        exact hintact.published hfollows h.runs.sound.1 he (List.getElem?_eq_getElem hk)
    refine ⟨fun hh => (hforth hh).1, fun hpub => ?_, fun hh => (hforth hh).2⟩
    have hwhole : ∀ k < R.shots.length, ∃ e ∈ S'.log, e.unit = k ∧ R.feed.whole e = true :=
      fun k hk => closed_of_published h' hpub hk
    -- and what was published was whole, so nothing was dropped or left behind
    refine ⟨fun k p hp => ?_, ?_⟩
    · obtain ⟨s, hs, -⟩ := sends_packet.mpr hp
      obtain ⟨e, he, rfl, hw⟩ := hwhole k (List.getElem?_eq_some_iff.mp hs).1
      exact Ingested.mem_packets.mp
        (h.runs.held e (hf.mem he) p (List.all_eq_true.mp hw p hp))
    · by_contra hno
      have hfed := fed_all hg.stamped h.sends
      obtain ⟨m, hm, hstranded⟩ := h.runs.stranded hfed hno
      obtain ⟨e, he, hu, hw⟩ := hwhole m hm
      rw [(hstranded.flushes hf).log e he hu] at hw
      cases hw

/-- The first STREAM_INFO is sent first. -/
theorem sent_eq_cons (hs : R.shots[0]? = some s) :
    ∃ tail, R.sent = .packet 0 s.infoPacket :: tail := by
  have hparts : R.feed.parts 0 = s.packets := SentRun.parts_eq hs
  obtain ⟨hpos, -⟩ := List.getElem?_eq_some_iff.mp hs
  obtain ⟨n, hn⟩ := Nat.exists_eq_succ_of_ne_zero hpos.ne'
  unfold SentRun.sent SentRun.shotItems
  rw [hn, List.range_succ_eq_map, List.flatMap_cons, hparts]
  exact ⟨_, rfl⟩

theorem window_info {k : ℕ} : window (.packet k s.infoPacket :: items) = [] := by
  have hann : (Item.packet k s.infoPacket).announces = true := (announces_iff s.info_mem).mpr rfl
  unfold window
  rw [List.takeWhile_cons_of_neg (by simp [hann])]

theorem harmless_sent (R : SentRun) : Harmless R R.sent := by
  have heffective : effective R.sent = R.sent := by
    refine effective_eq ?_
    cases hshots : R.shots with
    | nil =>
      have hsent : R.sent = [.heartbeat] := by
        unfold SentRun.sent
        rw [hshots]
        rfl
      rw [hsent]
      decide
    | cons s rest =>
      have hs : R.shots[0]? = some s := by rw [hshots]; rfl
      obtain ⟨tail, hsent⟩ := sent_eq_cons hs
      rw [hsent, window_info]
      exact Nat.zero_le _
  refine ⟨fun k p hp => ?_, ?_⟩
  · rw [heffective]
    exact packet_mem_sent.mpr hp
  · rw [heffective]
    exact (shotByShot_sent R).patient

/-- When all datagrams are delivered, every shot is published as it would be in sequence order
exactly when the order of arrival does no harm. -/
theorem order_free_iff {o : Options} (hg : R.Genuine o.maxShotBytes)
    (hn : R.shots.length ≤ maxActiveShots) (hadmits : Admits o source)
    {messages ordered : List RunState.Message} (hd : Delivers R source messages items)
    (hordered : Delivers R source ordered R.sent) (interrupted : Bool) :
    ((∀ s ∈ R.shots, Published (record o messages interrupted).run s) ∧
      completeIds (record o messages interrupted).run =
        completeIds (record o ordered interrupted).run) ↔ Harmless R items := by
  obtain ⟨hids, hiff⟩ := publishes_iff_harmless hg hn hadmits hd interrupted
  obtain ⟨hids', -⟩ := publishes_iff_harmless hg hn hadmits hordered interrupted
  constructor
  · exact fun h => hiff.mp h.1
  · exact fun h => ⟨hiff.mpr h, (hids h).trans (hids' (harmless_sent R)).symm⟩

theorem order_free_iff_twoShots :
    ((∀ s ∈ twoShotRun.shots, Published (recordTwo lossy).run s) ∧
      completeIds (recordTwo lossy).run = completeIds (recordTwo twoShotRun.sent).run) ↔
      Harmless twoShotRun lossy :=
  have hadmits : Admits { maxShotBytes := 4 } (.inet 1 5000) := rfl
  order_free_iff twoShots_genuine (by decide) hadmits (delivers_carryItems _ _ lossy_sends)
    (delivers_carryItems _ _ sends_sent) _

/-- The second shot overtakes the first. -/
def overtaken : List Item :=
  twoShotRun.shotItems 1 ++ twoShotRun.shotItems 0 ++ [.heartbeat]

/-- Everything is delivered, and the first shot has no record. -/
theorem order_not_free : twoShotRun.Genuine 4 ∧ twoShotRun.shots.length ≤ maxActiveShots ∧
    Delivers twoShotRun (.inet 1 5000)
      (carryItems twoShotRun (.inet 1 5000) (fun _ => 1) overtaken) overtaken ∧
    (∀ i ∈ twoShotRun.sent, i ∈ overtaken) ∧ overtaken.length ≤ maxPendingPackets ∧
    ¬ ∀ s ∈ twoShotRun.shots, Published (recordTwo overtaken).run s := by
  have hlen : overtaken.length = 7 := by decide +kernel
  refine ⟨twoShots_genuine, by decide, delivers_carryItems _ _ fun i hi => ?_, fun i hi => ?_,
    by rw [hlen]; decide, fun h => ?_⟩
  · rcases List.mem_append.mp hi with hi | hi
    · rcases List.mem_append.mp hi with hi | hi <;> exact sends_shotItems hi
    · rw [List.mem_singleton.mp hi]
      trivial
  · have hsent : twoShotRun.sent =
        twoShotRun.shotItems 0 ++ (twoShotRun.shotItems 1 ++ []) ++ [.heartbeat] := rfl
    rw [hsent] at hi
    unfold overtaken
    rw [List.append_nil, List.mem_append, List.mem_append] at hi
    rw [List.mem_append, List.mem_append]
    exact hi.imp_left Or.symm
  · obtain ⟨r, hr, hid, -⟩ := h _ List.mem_cons_self
    have hnone : ∀ r ∈ completeRecords (recordTwo overtaken).run.index, r.shotId ≠ 1 := by
      decide +kernel
    exact hnone r hr hid

end QCrate.Recorder
