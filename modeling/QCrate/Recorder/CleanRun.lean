import QCrate.Recorder.Publication

/-!
# What a clean verdict says

When every closed shot was published, the closed shots are consecutive shots of the run, because
each has to continue the packet sequence of the one before it. The end of the run has to continue
the last one. Nothing ties the first one to the start of the run: shots of which nothing is admitted
before a later shot is whole leave no trace.

* `Published` — a shot has a COMPLETE record with its samples.
* `consecutive_of_intact` — the shots of a log without an INCOMPLETE record.
* `clean_complete` — what a clean verdict says about the delivery.
-/

namespace QCrate.Recorder

open QCrate.Lib QCrate.DataPlane SentRun

variable {R : SentRun} {source : Source} {run : RunState} {s : SentShot}

/-! ## Published shots -/

/-- A COMPLETE record names the samples of the shot. -/
def Published (run : RunState) (s : SentShot) : Prop :=
  ∃ r ∈ completeRecords run.index, r.shotId = s.shotId ∧ r.sampleBytes = s.samples.length ∧
    (run.samples.drop r.sampleFileOffset).take r.sampleBytes = s.samples

theorem mem_historiesFrom {α : Type*} {before l : List α} {e : α} (he : e ∈ l) :
    ∃ b, (b, e) ∈ historiesFrom before l := by
  induction l generalizing before with
  | nil => cases he
  | cons a l ih =>
    rcases List.mem_cons.mp he with rfl | he
    · exact ⟨before, List.mem_cons_self⟩
    · have hrest : ∃ b, (b, e) ∈ historiesFrom (before ++ [a]) l := ih he
      obtain ⟨b, hb⟩ := hrest
      exact ⟨b, List.mem_cons_of_mem _ hb⟩

variable {S : Publisher Packet}

/-- A shot that was closed and found intact is published. -/
theorem published_of_intact (hf : R.Follows S run) (hsound : R.feed.Sound S)
    {p : List (Entry Packet) × Entry Packet} (hp : p ∈ histories S.log)
    (hi : R.intact run.maxShotBytes run.profileOf p.1 p.2 = true)
    (hs : R.shots[p.2.unit]? = some s) : Published run s := by
  obtain ⟨r, hr, hrec⟩ := exists_of_mem_left hf.logged.index hp
  obtain ⟨t, ht, hid⟩ := hrec.shotId
  rw [hs] at ht
  cases ht
  have hstate := hrec.state
  rw [if_pos hi] at hstate
  have hmem : r ∈ completeRecords run.index :=
    List.mem_filter.mpr ⟨hr, decide_eq_true hstate⟩
  have hexact := (publishes_of_records hf.logged.index hsound.sorted).1
  rw [← hf.logged.samples] at hexact
  obtain ⟨t, ht, htid, hlen, htake⟩ := hexact.exact r hmem
  obtain ⟨i, hil, rfl⟩ := List.getElem_of_mem ht
  have hti : R.shots[i]? = some R.shots[i] := List.getElem?_eq_getElem hil
  have hsame : i = p.2.unit := SentRun.shotId_inj hti hs (htid.symm.trans hid)
  subst hsame
  rw [hs] at hti
  cases hti
  exact ⟨r, hmem, htid, hlen, htake⟩

/-! ## A log without gaps -/

/-- Every shot of the log was published. -/
def AllIntact (R : SentRun) (maxShotBytes : ℕ) (profile : Option Profile)
    (log : List (Entry Packet)) : Prop :=
  ∀ p ∈ histories log, R.intact maxShotBytes profile p.1 p.2 = true

theorem allIntact_iff (hf : R.Follows S run) :
    AllIntact R run.maxShotBytes run.profileOf S.log ↔ run.incompleteShots = 0 := by
  rw [hf.logged.incomplete, List.countP_eq_zero]
  unfold AllIntact
  simp

theorem AllIntact.published (hi : AllIntact R run.maxShotBytes run.profileOf S.log)
    (hf : R.Follows S run) (hsound : R.feed.Sound S) {e : Entry Packet} (he : e ∈ S.log)
    (hs : R.shots[e.unit]? = some s) : Published run s := by
  have hhistory : ∃ before, (before, e) ∈ histories S.log := mem_historiesFrom he
  obtain ⟨before, hmem⟩ := hhistory
  exact published_of_intact hf hsound hmem (hi _ hmem) hs

theorem AllIntact.of_concat {maxShotBytes : ℕ} {profile : Option Profile}
    {log : List (Entry Packet)} {e : Entry Packet}
    (h : AllIntact R maxShotBytes profile (log ++ [e])) :
    AllIntact R maxShotBytes profile log ∧ R.intact maxShotBytes profile log e = true := by
  unfold AllIntact at h ⊢
  rw [histories_concat] at h
  exact ⟨fun p hp => h p (List.mem_append_left _ hp), h (log, e) (by simp)⟩

/-- The shot whose first packet follows the last one of a shot is the next one. -/
theorem succ_of_sequence {i j : ℕ} {t : SentShot} (hs : R.shots[i]? = some s)
    (ht : R.shots[j]? = some t) (h : t.firstSequence = s.nextSequence) : j = i + 1 := by
  have hs' := s.firstSequence_lt
  have ht' := t.firstSequence_lt
  rcases lt_trichotomy j (i + 1) with hlt | heq | hgt
  · rcases Nat.lt_or_ge j i with hji | hij
    · have := SentRun.nextSequence_le_of_lt ht hs hji
      omega
    · obtain rfl : j = i := by omega
      rw [hs] at ht
      cases ht
      omega
  · exact heq
  · obtain ⟨hj, -⟩ := List.getElem?_eq_some_iff.mp ht
    obtain ⟨u, hu⟩ : ∃ u, R.shots[i + 1]? = some u :=
      ⟨_, List.getElem?_eq_getElem (hgt.trans hj)⟩
    have hfirst := SentRun.firstSequence_succ hs hu
    have hle := SentRun.nextSequence_le_of_lt hu ht hgt
    have := u.firstSequence_lt
    omega

/-- Published shots that were closed one after the other are consecutive, and what is expected
next follows the last one. -/
theorem consecutive_of_intact {maxShotBytes : ℕ} {profile : Option Profile}
    {log : List (Entry Packet)} (h : AllIntact R maxShotBytes profile log) :
    (∀ e ∈ log, ∃ s, R.shots[e.unit]? = some s ∧ ∀ p ∈ s.packets, e.held p = true) ∧
      ∃ b, log.map (·.unit) = List.range' b log.length ∧
        ∀ s, log ≠ [] → R.shots[b + log.length - 1]? = some s →
          R.expected log = some s.nextSequence := by
  induction log using List.reverseRecOn with
  | nil => exact ⟨nofun, 0, rfl, fun _ hne => absurd rfl hne⟩
  | append_singleton log e ih =>
    obtain ⟨hlog, hi⟩ := h.of_concat
    obtain ⟨hheld, b, hunits, hexpected⟩ := ih hlog
    obtain ⟨s, hs, -, -⟩ := marks_of_intact hi
    obtain ⟨hw, -, -, hseq, -⟩ := (R.intact_iff hs).mp hi
    have hnext : R.expected (log ++ [e]) = some s.nextSequence := by
      rw [R.expected_concat log hs, if_pos (hw _ s.end_mem)]
    refine ⟨fun f hf => ?_, ?_⟩
    · rcases List.mem_append.mp hf with hf | hf
      · exact hheld f hf
      · rw [List.mem_singleton.mp hf]
        exact ⟨s, hs, hw⟩
    · by_cases hnil : log = []
      · subst hnil
        refine ⟨e.unit, rfl, fun t _ ht => ?_⟩
        have hlast : e.unit + ([] ++ [e]).length - 1 = e.unit := by simp
        rw [hlast, hs] at ht
        cases ht
        exact hnext
      · have hpos : 0 < log.length := List.length_pos_iff.mpr hnil
        obtain ⟨f, hf⟩ := List.getLast?_isSome.mpr hnil |> Option.isSome_iff_exists.mp
        obtain ⟨before, hbefore⟩ := List.getLast?_eq_some_iff.mp hf
        obtain ⟨t, ht, -⟩ := hheld f (List.mem_of_getLast? hf)
        have hfu : f.unit = b + log.length - 1 := by
          have hlast : (log.map (·.unit)).getLast? = some f.unit := by
            rw [List.getLast?_map, hf]
            rfl
          rw [hunits, List.getLast?_range', if_neg (by omega)] at hlast
          have := Option.some.inj hlast
          omega
        have hexp := hexpected t hnil (hfu ▸ ht)
        -- its first sequence is the one expected, so it is the next shot of the run
        have hsucc := succ_of_sequence ht hs (hseq _ hexp).symm
        have hunit : e.unit = b + log.length := by omega
        refine ⟨b, ?_, fun u _ hu => ?_⟩
        · rw [List.map_append, hunits, List.length_append, List.length_singleton,
            List.range'_concat, Nat.one_mul, List.map_cons, List.map_nil, hunit]
        · have hlast : b + (log ++ [e]).length - 1 = e.unit := by
            rw [List.length_append, List.length_singleton]
            omega
          rw [hlast, hs] at hu
          cases hu
          exact hnext

/-! ## The end of the run -/

/-- The packet sequence of an item. -/
def SentRun.sequence (R : SentRun) : Item → ℕ
  | .packet _ p => p.header.packetSequence
  | .heartbeat => R.heartbeat.header.packetSequence

/-- The heartbeat follows the last packet of the last shot. -/
theorem heartbeat_sequence (hs : R.shots.getLast? = some s) :
    R.sequence .heartbeat = s.nextSequence := by
  have hlt : s.nextSequence < 2 ^ 64 := by
    have := s.nextSequence_le
    unfold uint64Max at this
    omega
  show (UInt64.ofNat _).toNat = _
  rw [hs]
  exact UInt64.toNat_ofNat_of_lt' hlt

/-- The end of the stream is announced by the heartbeat, not by a SHOT_END. -/
def SentRun.EndsWithHeartbeat (R : SentRun) : Prop :=
  ∀ s ∈ R.shots, s.config.endOfStream = false

instance (R : SentRun) : Decidable R.EndsWithHeartbeat :=
  inferInstanceAs (Decidable (∀ s ∈ R.shots, s.config.endOfStream = false))

/-- Nothing was lost from shot `b` on: every packet sequence up to the heartbeat came in, and every
shot was published. -/
structure CompleteFrom (R : SentRun) (items : List Item) (run : RunState) (b : ℕ) : Prop where
  received : ∀ s, R.shots[b]? = some s → ∀ q, s.firstSequence ≤ q → q ≤ R.sequence .heartbeat →
    ∃ i ∈ items, R.sequence i = q
  published : ∀ k s, b ≤ k → R.shots[k]? = some s → Published run s

/-- The sequences of consecutive shots leave no gap. -/
theorem exists_sequence {b k q : ℕ} {t : SentShot} (hs : R.shots[b]? = some s)
    (ht : R.shots[k]? = some t) (hbk : b ≤ k) (hle : s.firstSequence ≤ q)
    (hlt : q < t.nextSequence) :
    ∃ j u p, b ≤ j ∧ R.shots[j]? = some u ∧ p ∈ u.packets ∧ p.header.packetSequence = q := by
  have hmem : ∀ u : SentShot, u.firstSequence ≤ q → q < u.nextSequence →
      ∃ p ∈ u.packets, p.header.packetSequence = q := by
    intro u hu hu'
    have hseqs : u.packets.map (·.header.packetSequence) =
        List.range' u.firstSequence u.packets.length :=
      Config.shotPackets_sequence u.config u.samples
    rw [u.nextSequence_eq] at hu'
    have hq : q ∈ u.packets.map (·.header.packetSequence) := by
      rw [hseqs, List.mem_range'_1]
      exact ⟨hu, hu'⟩
    exact List.mem_map.mp hq
  induction k, hbk using Nat.le_induction generalizing t with
  | base =>
    rw [hs] at ht
    cases ht
    obtain ⟨p, hp, hq⟩ := hmem s hle hlt
    exact ⟨b, s, p, le_rfl, hs, hp, hq⟩
  | succ k hbk ih =>
    obtain ⟨hk, -⟩ := List.getElem?_eq_some_iff.mp ht
    obtain ⟨u, hu⟩ : ∃ u, R.shots[k]? = some u := ⟨_, List.getElem?_eq_getElem (by omega)⟩
    have hfirst := SentRun.firstSequence_succ hu ht
    by_cases hq : q < u.nextSequence
    · exact ih hu hq
    · obtain ⟨p, hp, hpq⟩ := hmem t (by omega) hlt
      exact ⟨k + 1, t, p, by omega, ht, hp, hpq⟩

theorem effective_eq {l : List Item} (h : (window l).length ≤ maxPendingPackets) :
    effective l = l := by
  unfold effective
  rw [List.take_of_length_le h]
  exact List.takeWhile_append_dropWhile

/-- What a clean verdict is made of. -/
theorem clean_eq_true {run : RunState} (h : RunState.clean true run = true) :
    run.terminal ≠ none ∧ 0 < run.completeShots ∧ run.incompleteShots = 0 ∧
      run.runContinuityError = false ∧ run.pendingOverflow = 0 := by
  unfold RunState.clean at h
  simp only [Bool.and_eq_true, decide_eq_true_eq, Bool.not_eq_true', Bool.true_and,
    Option.isSome_iff_ne_none] at h
  obtain ⟨⟨⟨⟨⟨⟨⟨⟨⟨-, hterminal⟩, -⟩, hcomplete⟩, hincomplete⟩, -⟩, -⟩, -⟩, hcontinuity⟩,
    hoverflow⟩ := h
  exact ⟨hterminal, hcomplete, hincomplete, hcontinuity, hoverflow⟩

/-- What is heard comes from a sender that the filter admits. -/
theorem heardItems_of_announces {o : Options} {items : List Item}
    (h : ∃ i ∈ heardItems o source items, i.announces = true) :
    heardItems o source items = items := by
  unfold heardItems at h ⊢
  split
  · rfl
  · next hadmits =>
    rw [if_neg hadmits] at h
    obtain ⟨i, hi, -⟩ := h
    cases hi

/-- Only the heartbeat ends the stream. -/
theorem ending_of_ends (hend : R.EndsWithHeartbeat) {items : List Item} {t : Terminal}
    (h : R.Ends items t) : Item.heartbeat ∈ items ∧ t = R.ending := by
  rcases h with hbeat | ⟨-, -, k, u, -, hu, -, -, heos, -⟩
  · exact hbeat
  · rw [hend u (List.mem_of_getElem? hu)] at heos
    cases heos

/-- A heartbeat that breaks nothing has the sequence that is expected. -/
theorem heartbeat_of_unbroken {q : ℕ} (ht : run.terminal = some R.ending)
    (hq : run.expectedSequence = some q) (h : run.terminalBreaks = false) :
    R.sequence .heartbeat = q := by
  unfold RunState.terminalBreaks at h
  rw [ht, hq] at h
  have hor := (Bool.or_eq_false_iff.mp h).1
  have hkind : R.ending.isShotEnd = false := rfl
  dsimp only at hor
  rw [hkind, if_neg Bool.false_ne_true, decide_eq_false_iff_not, not_not] at hor
  exact hor

/-- The shot that the heartbeat follows is the last one. -/
theorem last_of_heartbeat {k : ℕ} (hs : R.shots[k]? = some s)
    (h : R.sequence .heartbeat = s.nextSequence) : k + 1 = R.shots.length := by
  obtain ⟨hk, -⟩ := List.getElem?_eq_some_iff.mp hs
  obtain ⟨last, hlast⟩ : ∃ last, R.shots[R.shots.length - 1]? = some last :=
    ⟨_, List.getElem?_eq_getElem (by omega)⟩
  have hlast' : R.shots.getLast? = some last := by rw [List.getLast?_eq_getElem?, hlast]
  by_contra hne
  have hle := SentRun.nextSequence_le_of_lt hs hlast (by omega)
  have hlt := last.firstSequence_lt
  rw [heartbeat_sequence hlast'] at h
  omega

/-- Of a shot that was not closed nothing came in before a later one was whole. -/
theorem passed_over {S' : Publisher Packet} {items before after : List Item} {k : ℕ} {p : Packet}
    (hr : R.feed.Runs (items.filterMap Item.packet?) S) (hf : R.feed.Flushes S S')
    (hk : ∀ e ∈ S'.log, e.unit ≠ k) (hitems : items = before ++ .packet k p :: after) :
    ∃ j < R.shots.length, k < j ∧ ∀ q ∈ R.feed.parts j, Item.packet j q ∈ before := by
  have hsplit : items.filterMap Item.packet? =
      before.filterMap Item.packet? ++ (k, p) :: after.filterMap Item.packet? := by
    rw [hitems, List.filterMap_append]
    rfl
  rcases hr.heard hsplit with hmem | ⟨j, hkj, hparts, harrived⟩
  · have hmem' := Feed.units_flushes hf _ hmem
    unfold Feed.units at hmem'
    rw [hf.table_eq, List.map_nil, List.nil_append] at hmem'
    obtain ⟨e, he, hu⟩ := List.mem_map.mp hmem'
    exact absurd hu (hk e he)
  · refine ⟨j, ?_, hkj, fun q hq => Ingested.mem_packets.mp (harrived q hq)⟩
    by_contra hge
    refine hparts ?_
    simp [SentRun.feed, List.getElem?_eq_none (Nat.not_lt.mp hge)]

/-- A run that is declared complete lost nothing from its first published shot on; and of the shots
before it no datagram came in before a later shot was whole. -/
theorem clean_complete (hend : R.EndsWithHeartbeat) {messages : List RunState.Message}
    {items : List Item} (hd : Delivers R source messages items) (o : Options) (interrupted : Bool)
    (hclean : (record o messages interrupted).clean = true) :
    ∃ b < R.shots.length, CompleteFrom R items (record o messages interrupted).run b ∧
      ∀ k < b, ∀ before p after, items = before ++ .packet k p :: after →
        ∃ j < R.shots.length, k < j ∧ ∀ q ∈ R.feed.parts j, Item.packet j q ∈ before := by
  have hsession := record_session hd o interrupted
  generalize record o messages interrupted = out at hclean hsession
  cases hsession with
  | unheard _ _ hno =>
    rw [hno] at hclean
    cases hclean
  | stuck _ _ hno =>
    rw [hno] at hclean
    cases hclean
  | @ended hl _ hcleaned S S' run h hf h' _ _ _ hterminal hoverflow _ _ _ hcontinuity =>
    rw [hcleaned] at hclean
    obtain ⟨hseen, hcomplete, hincomplete, hbreaks, hover⟩ := clean_eq_true hclean
    have heffective : effective (heardItems o source items) = items := by
      rw [effective_eq (by omega), heardItems_of_announces hl]
    rw [heffective] at h
    have hlog := h'.logged
    have hintact := (allIntact_iff h').mpr hincomplete
    obtain ⟨hheld, b, hunits, hexpected⟩ := consecutive_of_intact hintact
    have hne : S'.log ≠ [] := by
      intro hnil
      have hzero := hlog.complete
      rw [hnil] at hzero
      have : out.run.completeShots = 0 := hzero
      omega
    have hpos : 0 < S'.log.length := List.length_pos_iff.mpr hne
    -- the heartbeat follows the last closed shot
    obtain ⟨e, he, heu⟩ :=
      exists_unit hunits (show b ≤ b + S'.log.length - 1 by omega) (by omega)
    obtain ⟨s, hs, -⟩ := hheld e he
    rw [heu] at hs
    obtain ⟨t, ht⟩ := Option.ne_none_iff_exists'.mp hseen
    obtain ⟨hbeat, rfl⟩ := ending_of_ends hend (h.ended t (hterminal ▸ ht))
    have hsequence : R.sequence .heartbeat = s.nextSequence :=
      heartbeat_of_unbroken ht (hlog.expectedSequence.trans (hexpected s hne hs))
        (hcontinuity.symm.trans hbreaks)
    have hall := last_of_heartbeat hs hsequence
    have hreceived : ∀ k u, b ≤ k → R.shots[k]? = some u → ∀ p ∈ u.packets,
        Item.packet k p ∈ items := by
      intro k u hbk hu p hp
      obtain ⟨hk, -⟩ := List.getElem?_eq_some_iff.mp hu
      obtain ⟨f, hfm, hfu⟩ := exists_unit hunits hbk (by omega)
      obtain ⟨u', hu', hw⟩ := hheld f hfm
      rw [hfu, hu] at hu'
      cases hu'
      rw [← hfu]
      exact Ingested.mem_packets.mp (h.runs.held f (hf.mem hfm) p (hw p hp))
    refine ⟨b, by omega, ⟨fun u hu q hle hqle => ?_, fun k u hbk hu => ?_⟩, ?_⟩
    · by_cases hq : q = R.sequence .heartbeat
      · exact ⟨.heartbeat, hbeat, hq.symm⟩
      · obtain ⟨j, v, p, hbj, hv, hp, hpq⟩ := exists_sequence hu hs (by omega) hle (by omega)
        exact ⟨.packet j p, hreceived j v hbj hv p hp, hpq⟩
    · obtain ⟨hk, -⟩ := List.getElem?_eq_some_iff.mp hu
      obtain ⟨f, hfm, hfu⟩ := exists_unit hunits hbk (by omega)
      exact hintact.published h' (h.runs.sound.1.flushes hf) hfm (by rw [hfu, hu])
    · intro k hk before p after hitems
      refine passed_over h.runs hf (fun f hfm hfu => ?_) hitems
      have := (unit_bounds hunits hfm).1
      omega

/-- Everything that is sent, in order. -/
def SentRun.sent (R : SentRun) : List Item :=
  (List.range R.shots.length).flatMap R.shotItems ++ [.heartbeat]

theorem SentRun.sends_sent : ∀ i ∈ R.sent, R.Sends i := by
  intro i hi
  rcases List.mem_append.mp hi with hi | hi
  · obtain ⟨k, -, hk⟩ := List.mem_flatMap.mp hi
    exact sends_shotItems hk
  · rw [List.mem_singleton.mp hi]
    trivial

/-- A recording of the two shots, from one source. -/
def recordTwo (items : List Item) : Outcome :=
  record { maxShotBytes := 4 } (carryItems twoShotRun (.inet 1 5000) (fun _ => 1) items) false

theorem clean_complete_twoShots : ∃ b < twoShotRun.shots.length,
    CompleteFrom twoShotRun twoShotRun.sent (recordTwo twoShotRun.sent).run b ∧
      ∀ k < b, ∀ before p after, twoShotRun.sent = before ++ .packet k p :: after →
        ∃ j < twoShotRun.shots.length, k < j ∧
          ∀ q ∈ twoShotRun.feed.parts j, Item.packet j q ∈ before :=
  clean_complete (by decide) (delivers_carryItems _ _ sends_sent) _ _ (by decide +kernel)

/-- The second shot and the heartbeat. -/
def secondOnly : List Item := twoShotRun.shotItems 1 ++ [.heartbeat]

/-- Nothing of the first shot comes in, and the run is declared complete. -/
theorem clean_not_complete : twoShotRun.EndsWithHeartbeat ∧
    (twoShotRun.shots.head?.map SentShot.firstSequence = some 0) ∧
    Delivers twoShotRun (.inet 1 5000)
      (carryItems twoShotRun (.inet 1 5000) (fun _ => 1) secondOnly) secondOnly ∧
    (recordTwo secondOnly).clean = true ∧
    ¬ CompleteFrom twoShotRun secondOnly (recordTwo secondOnly).run 0 := by
  refine ⟨by decide, by decide +kernel, delivers_carryItems _ _ fun i hi => ?_,
    by decide +kernel, fun h => ?_⟩
  · rcases List.mem_append.mp hi with hi | hi
    · exact sends_shotItems hi
    · rw [List.mem_singleton.mp hi]
      trivial
  · obtain ⟨r, hr, hid, -⟩ := h.published 0 _ le_rfl rfl
    have hnone : ∀ r ∈ completeRecords (recordTwo secondOnly).run.index, r.shotId ≠ 1 := by
      decide +kernel
    exact hnone r hr hid

end QCrate.Recorder
