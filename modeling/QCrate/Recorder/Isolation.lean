import QCrate.Recorder.Ordering

/-!
# One lost datagram

The datagrams of a run arrive in the order in which they were sent, but one. A lost DATA packet
spoils its shot only. A lost STREAM_INFO or SHOT_END spoils the next shot as well, because that one
then does not follow what the recorder expects, unless the damaged shot is the first or the last
one.

* `Isolates` — only the damaged shot is INCOMPLETE.
* `isolates_iff` — which losses are isolated.
-/

namespace QCrate.Recorder

open QCrate.Lib QCrate.DataPlane SentRun

variable {R : SentRun} {source : Source} {run : RunState} {s : SentShot} {S : Publisher Packet}
  {l : List Item} {k : ℕ} {p : Packet} {e : Entry Packet}

/-- The shot ids of the INCOMPLETE records, in order. -/
def incompleteIds (run : RunState) : List ℕ :=
  (run.index.filter (·.state = .incomplete)).map (·.shotId)

/-- The shot is INCOMPLETE, and every other one is published. -/
structure Isolates (R : SentRun) (run : RunState) (k : ℕ) : Prop where
  others : ∀ j s, R.shots[j]? = some s → j ≠ k → Published run s
  damaged : ∀ s, R.shots[k]? = some s → incompleteIds run = [s.shotId]

/-! ## Sequence order -/

/-- The items are in the order of their packet sequences. -/
def InSequence (R : SentRun) (l : List Item) : Prop :=
  l.Pairwise fun x y => R.sequence x < R.sequence y

theorem sequence_mem {q : Packet} (hq : q ∈ s.packets) :
    s.firstSequence ≤ q.header.packetSequence ∧ q.header.packetSequence < s.nextSequence := by
  rw [s.nextSequence_eq]
  exact Config.sequence_mem hq

theorem inSequence_sent (R : SentRun) : InSequence R R.sent := by
  refine List.pairwise_append.mpr ⟨?_, List.pairwise_singleton .., ?_⟩
  · refine List.pairwise_flatMap.mpr ⟨fun k hk => ?_, ?_⟩
    · rw [List.mem_range] at hk
      have hs : R.shots[k]? = some R.shots[k] := List.getElem?_eq_getElem hk
      unfold SentRun.shotItems
      rw [SentRun.parts_eq hs, List.pairwise_map]
      exact Config.shotPackets_pairwise _ _
    · refine List.pairwise_lt_range.imp fun {i j} hij x hx y hy => ?_
      obtain ⟨q, hq, rfl⟩ := List.mem_map.mp hx
      obtain ⟨q', hq', rfl⟩ := List.mem_map.mp hy
      obtain ⟨u, hu, hqu⟩ := sends_packet.mpr hq
      obtain ⟨v, hv, hqv⟩ := sends_packet.mpr hq'
      have hle := SentRun.nextSequence_le_of_lt hu hv hij
      have h₁ := (sequence_mem hqu).2
      have h₂ := (sequence_mem hqv).1
      show q.header.packetSequence < q'.header.packetSequence
      omega
  · intro x hx y hy
    obtain ⟨k, hk, hx⟩ := List.mem_flatMap.mp hx
    obtain ⟨q, hq, rfl⟩ := List.mem_map.mp hx
    obtain ⟨u, hu, hqu⟩ := sends_packet.mpr hq
    rw [List.mem_singleton.mp hy]
    have hk := List.mem_range.mp hk
    obtain ⟨last, hlast⟩ : ∃ last, R.shots[R.shots.length - 1]? = some last :=
      ⟨_, List.getElem?_eq_getElem (by omega)⟩
    have hlast' : R.shots.getLast? = some last := by rw [List.getLast?_eq_getElem?, hlast]
    rw [heartbeat_sequence hlast']
    have h₁ := (sequence_mem hqu).2
    show q.header.packetSequence < last.nextSequence
    rcases Nat.lt_or_ge k (R.shots.length - 1) with hlt | hge
    · have hle := SentRun.nextSequence_le_of_lt hu hlast hlt
      have := last.firstSequence_lt
      omega
    · obtain rfl : k = R.shots.length - 1 := by omega
      rw [hu] at hlast
      cases hlast
      exact h₁

/-- Of two packets the one with the smaller sequence is of no later shot. -/
theorem le_of_sequence {i j : ℕ} {q q' : Packet} (hq : R.Sends (.packet i q))
    (hq' : R.Sends (.packet j q')) (h : R.sequence (.packet i q) < R.sequence (.packet j q')) :
    i ≤ j := by
  obtain ⟨u, hu, hqu⟩ := hq
  obtain ⟨v, hv, hqv⟩ := hq'
  by_contra hlt
  have hle := SentRun.nextSequence_le_of_lt hv hu (Nat.not_le.mp hlt)
  have h₁ := (sequence_mem hqu).1
  have h₂ := (sequence_mem hqv).2
  have h' : q.header.packetSequence < q'.header.packetSequence := h
  omega

/-- What comes in by the time a packet of a later shot does. -/
theorem InSequence.mem_initial (h : InSequence R l) (hsends : ∀ i ∈ l, R.Sends i)
    {l' : List Item} (hpre : l' <+: l) {i j : ℕ} {q q' : Packet} (hq : Item.packet j q ∈ l')
    (hij : i < j) (hq' : Item.packet i q' ∈ l) : Item.packet i q' ∈ l' := by
  obtain ⟨rest, rfl⟩ := hpre
  rcases List.mem_append.mp hq' with hm | hm
  · exact hm
  · have hlt := (List.pairwise_append.mp h).2.2 _ hq _ hm
    have := le_of_sequence (hsends _ (List.mem_append_left _ hq)) (hsends _ hq') hlt
    omega

theorem InSequence.packets (h : InSequence R l) : (l.filterMap Item.packet?).Pairwise
    fun a b => R.sequence (.packet a.1 a.2) < R.sequence (.packet b.1 b.2) := by
  refine List.Pairwise.filterMap _ (fun x y hxy a ha b hb => ?_) h
  cases x with
  | heartbeat => cases ha
  | packet i q =>
    cases y with
    | heartbeat => cases hb
    | packet j q' =>
      cases ha
      cases hb
      exact hxy

/-- In sequence order nobody overtakes a shot that came in whole; and one that did not is waited for
when its STREAM_INFO came in or no later shot is whole. -/
theorem InSequence.patient (h : InSequence R l) (hsends : ∀ i ∈ l, R.Sends i) {b : ℕ}
    (hwaits : ∀ m, b ≤ m → m + 1 < R.shots.length → R.feed.Arrived (l.filterMap Item.packet?) m ∨
      R.feed.Heralded (l.filterMap Item.packet?) m) :
    R.feed.Patient b R.shots.length (l.filterMap Item.packet?) := by
  intro l' hl' m j hbm hmj hj hm _ harrived
  obtain ⟨items, hpre, rfl⟩ := List.prefix_filterMap_iff.mp hl'
  obtain ⟨q, hq⟩ := List.exists_mem_of_ne_nil _ (parts_ne_nil hj)
  have hq' := Ingested.mem_packets.mp (harrived q hq)
  rcases hwaits m hbm (by omega) with hall | ⟨q₀, hq₀, hmem⟩
  · refine absurd (fun q' hqm => ?_) hm
    exact Ingested.mem_packets.mpr
      (h.mem_initial hsends hpre hq' hmj (Ingested.mem_packets.mp (hall q' hqm)))
  · exact ⟨m, le_rfl, hmj, q₀, hq₀, Ingested.mem_packets.mpr
      (h.mem_initial hsends hpre hq' hmj (Ingested.mem_packets.mp hmem))⟩

/-! ## One damaged shot -/

theorem historiesFrom_append {α : Type*} (before l₁ l₂ : List α) :
    historiesFrom before (l₁ ++ l₂) =
      historiesFrom before l₁ ++ historiesFrom (before ++ l₁) l₂ := by
  induction l₁ generalizing before with
  | nil => rw [List.append_nil]; rfl
  | cons a l₁ ih =>
    rw [List.cons_append, historiesFrom, historiesFrom, ih, List.cons_append, List.append_assoc]
    rfl

/-- The INCOMPLETE records are those of the shots that are not intact. -/
theorem incompleteIds_of_records {maxShotBytes : ℕ} {profile : Option Profile}
    {histories : List (List (Entry Packet) × Entry Packet)} {index : List IndexRecord}
    (h : List.Forall₂ (R.Records maxShotBytes profile) histories index) :
    (index.filter (·.state = .incomplete)).map (·.shotId) =
      (histories.filter fun p => !R.intact maxShotBytes profile p.1 p.2).filterMap fun p =>
        R.shots[p.2.unit]?.map SentShot.shotId := by
  induction h with
  | nil => rfl
  | @cons p r histories index hr _ ih =>
    obtain ⟨s, hs, hid⟩ := hr.shotId
    have hstate := hr.state
    by_cases hi : R.intact maxShotBytes profile p.1 p.2 = true
    · rw [if_pos hi] at hstate
      rw [List.filter_cons_of_neg (by simp [hstate]), List.filter_cons_of_neg (by simp [hi]), ih]
    · rw [if_neg hi] at hstate
      rw [List.filter_cons_of_pos (by simp [hstate]), List.filter_cons_of_pos (by simp [hi]),
        List.map_cons, List.filterMap_cons, ih, hid]
      simp only [hs, Option.map_some]

/-- A log with one shot that is not intact. -/
theorem isolates_of_log (hf : R.Follows S run) (hsound : R.feed.Sound S)
    {l₁ l₂ : List (Entry Packet)} {e : Entry Packet} (hlog : S.log = l₁ ++ e :: l₂)
    (heu : e.unit = k)
    (h₁ : ∀ h ∈ historiesFrom [] l₁, R.intact run.maxShotBytes run.profileOf h.1 h.2 = true)
    (he : R.feed.whole e = false)
    (h₂ : ∀ h ∈ historiesFrom (l₁ ++ [e]) l₂,
      R.intact run.maxShotBytes run.profileOf h.1 h.2 = true)
    (hall : ∀ j < R.shots.length, j ≠ k → ∃ f ∈ l₁ ++ l₂, f.unit = j) : Isolates R run k := by
  have hsplit : histories S.log =
      historiesFrom [] l₁ ++ (l₁, e) :: historiesFrom (l₁ ++ [e]) l₂ := by
    rw [hlog, histories, historiesFrom_append]
    rfl
  refine ⟨fun j s hs hj => ?_, fun s hs => ?_⟩
  · obtain ⟨f, hfm, hfu⟩ := hall j (List.getElem?_eq_some_iff.mp hs).1 hj
    have hs' : R.shots[f.unit]? = some s := by rw [hfu, hs]
    rcases List.mem_append.mp hfm with hfm | hfm
    · have hhistory : ∃ b, (b, f) ∈ historiesFrom [] l₁ := mem_historiesFrom hfm
      obtain ⟨b, hb⟩ := hhistory
      have hmem : (b, f) ∈ histories S.log := by
        rw [hsplit]
        exact List.mem_append_left _ hb
      exact published_of_intact hf hsound hmem (h₁ _ hb) hs'
    · have hhistory : ∃ b, (b, f) ∈ historiesFrom (l₁ ++ [e]) l₂ := mem_historiesFrom hfm
      obtain ⟨b, hb⟩ := hhistory
      have hmem : (b, f) ∈ histories S.log := by
        rw [hsplit]
        exact List.mem_append_right _ (List.mem_cons_of_mem _ hb)
      exact published_of_intact hf hsound hmem (h₂ _ hb) hs'
  · have hs' : R.shots[e.unit]? = some s := by rw [heu, hs]
    have hno : R.intact run.maxShotBytes run.profileOf l₁ e = false := by
      rw [Bool.eq_false_iff]
      intro hi
      rw [(R.whole_iff hs').mpr ((R.intact_iff hs').mp hi).1] at he
      cases he
    unfold incompleteIds
    rw [incompleteIds_of_records hf.logged.index, hsplit, List.filter_append,
      List.filter_eq_nil_iff.mpr (fun h hh => by simp [h₁ h hh]),
      List.filter_cons_of_pos (by simp [hno]),
      List.filter_eq_nil_iff.mpr (fun h hh => by simp [h₂ h hh])]
    simp [hs']

/-! ## One datagram missing -/

/-- Everything is there, in sequence order, but one packet. -/
structure Lost (R : SentRun) (k : ℕ) (p : Packet) (l : List Item) : Prop where
  inSequence : InSequence R l
  sends : ∀ i ∈ l, R.Sends i
  sent : R.Sends (.packet k p)
  lost : Item.packet k p ∉ l
  rest : ∀ i ∈ R.sent, i ≠ .packet k p → i ∈ l

theorem lost_of_sent {before after : List Item} (h : R.sent = before ++ .packet k p :: after) :
    Lost R k p (before ++ after) := by
  have hsub : (before ++ after).Sublist R.sent := by
    rw [h]
    exact (List.sublist_cons_self _ _).append_left before
  have hall := inSequence_sent R
  refine ⟨hall.sublist hsub, fun i hi => sends_sent i (hsub.subset hi), sends_sent _ ?_,
    fun hm => ?_, fun i hi hne => ?_⟩
  · rw [h]
    simp
  · unfold InSequence at hall
    rw [h] at hall
    obtain ⟨-, hafter, hbefore⟩ := List.pairwise_append.mp hall
    rcases List.mem_append.mp hm with hm | hm
    · exact lt_irrefl _ (hbefore _ hm _ List.mem_cons_self)
    · exact lt_irrefl _ ((List.pairwise_cons.mp hafter).1 _ hm)
  · rw [h] at hi
    rcases List.mem_append.mp hi with hi | hi
    · exact List.mem_append_left _ hi
    · exact List.mem_append_right _ ((List.mem_cons.mp hi).resolve_left hne)

namespace Lost

variable (h : Lost R k p l)

include h

theorem mem {j : ℕ} {q : Packet} (hq : q ∈ R.feed.parts j) (hne : j ≠ k ∨ q ≠ p) :
    Item.packet j q ∈ l :=
  h.rest _ (packet_mem_sent.mpr hq) fun he => by
    cases he
    exact hne.elim (fun hc => hc rfl) fun hc => hc rfl

theorem arrived_iff {j : ℕ} : R.feed.Arrived (l.filterMap Item.packet?) j ↔ j ≠ k := by
  constructor
  · rintro harrived rfl
    exact h.lost (Ingested.mem_packets.mp (harrived p (sends_packet.mp h.sent)))
  · exact fun hj q hq => Ingested.mem_packets.mpr (h.mem hq (.inl hj))

/-- Something of every shot came in. -/
theorem heard {j : ℕ} (hj : j < R.shots.length) : ∃ q, Item.packet j q ∈ l := by
  have hs : R.shots[j]? = some R.shots[j] := List.getElem?_eq_getElem hj
  have hinfo : (R.shots[j]).infoPacket ∈ R.feed.parts j := by
    rw [SentRun.parts_eq hs]
    exact SentShot.info_mem _
  have hend : (R.shots[j]).endPacket ∈ R.feed.parts j := by
    rw [SentRun.parts_eq hs]
    exact SentShot.end_mem _
  by_cases hp : p = (R.shots[j]).infoPacket
  · exact ⟨_, h.mem hend (.inr fun he => SentShot.infoPacket_ne_endPacket _ (he.trans hp).symm)⟩
  · exact ⟨_, h.mem hinfo (.inr (Ne.symm hp))⟩

theorem heralded (hs : R.shots[k]? = some s) {m : ℕ} (hm : m < R.shots.length)
    (hne : m ≠ k ∨ p ≠ s.infoPacket) : R.feed.Heralded (l.filterMap Item.packet?) m := by
  have hs' : R.shots[m]? = some R.shots[m] := List.getElem?_eq_getElem hm
  have hparts := SentRun.parts_eq hs'
  refine ⟨(R.shots[m]).infoPacket, by rw [hparts]; rfl, Ingested.mem_packets.mpr (h.mem ?_ ?_)⟩
  · rw [hparts]
    exact SentShot.info_mem _
  · by_cases hmk : m = k
    · subst hmk
      rw [hs] at hs'
      cases hs'
      exact .inr (Ne.symm (hne.resolve_left fun hc => hc rfl))
    · exact .inl hmk

/-- The damaged shot is waited for when its STREAM_INFO came in or it is the last one. -/
theorem patient (hs : R.shots[k]? = some s) (hwaits : p ≠ s.infoPacket ∨ k + 1 = R.shots.length) :
    R.feed.Patient 0 R.shots.length (l.filterMap Item.packet?) := by
  refine h.inSequence.patient h.sends fun m _ hm => ?_
  by_cases hmk : m = k
  · exact .inr (h.heralded hs (by omega) (.inr (hwaits.resolve_right (by omega))))
  · exact .inl (h.arrived_iff.mpr hmk)

/-- Everything before the damaged shot went out, and nothing else. -/
theorem length_log (hin : R.feed.InOrder 0 R.shots.length (l.filterMap Item.packet?) S)
    (hfront : S.log.length < R.shots.length →
      ¬ R.feed.Arrived (l.filterMap Item.packet?) S.log.length)
    (hk : k < R.shots.length) : S.log.length = k := by
  rcases lt_trichotomy S.log.length k with hlt | heq | hgt
  · exact absurd (h.arrived_iff.mpr hlt.ne) (hfront (hlt.trans hk))
  · exact heq
  · exact absurd rfl (h.arrived_iff.mp (hin.arrived k (Nat.zero_le _) (by omega)))

/-- The log when the recorder waits for the damaged shot until the end. -/
structure Waited (R : SentRun) (k : ℕ) (p : Packet) (log : List (Entry Packet)) : Prop where
  split : ∃ l₁ e l₂, log = l₁ ++ e :: l₂ ∧ l₁.map (·.unit) = List.range' 0 k ∧ e.unit = k ∧
    l₂.map (·.unit) = List.range' (k + 1) (R.shots.length - (k + 1)) ∧
    (∀ f ∈ l₁ ++ l₂, R.feed.whole f = true) ∧ R.feed.whole e = false ∧
    ∀ s, R.shots[k]? = some s → (e.held s.endPacket = true ↔ p ≠ s.endPacket)

theorem waited {S' : Publisher Packet} (hr : R.feed.Runs (l.filterMap Item.packet?) S)
    (hunit : ∀ e ∈ S.table, e.unit < R.shots.length) (hst : R.Stamped)
    (hf : R.feed.Flushes S S') (hs : R.shots[k]? = some s)
    (hwaits : p ≠ s.infoPacket ∨ k + 1 = R.shots.length) : Waited R k p S'.log := by
  obtain ⟨hk, -⟩ := List.getElem?_eq_some_iff.mp hs
  obtain ⟨hin, hfront⟩ :=
    hr.inOrder (fed_all hst h.sends) (h.patient hs hwaits)
  rw [Nat.zero_add] at hfront
  have hlen := h.length_log hin hfront hk
  have hheard : ∀ i, 0 + S.log.length ≤ i → i < R.shots.length →
      ∃ q, (i, q) ∈ l.filterMap Item.packet? := by
    intro i _ hi
    obtain ⟨q, hq⟩ := h.heard hi
    exact ⟨q, Ingested.mem_packets.mpr hq⟩
  have hrest : (∀ e ∈ S.table, R.feed.announced e = true) ∨
      0 + S.log.length + 1 = R.shots.length := by
    rw [hlen, Nat.zero_add]
    exact hwaits.imp_left fun hp e he => (hin.announced_iff he (Nat.zero_le _)).mpr
      (h.heralded hs (hunit e he) (.inr hp))
  obtain ⟨B, hlog, hmem, hunits⟩ :=
    hin.flush hf (fun e he => ⟨Nat.zero_le _, hunit e he⟩) hheard hrest
  -- the damaged shot is the first of what the flush puts out
  have hsucc : R.shots.length - k = R.shots.length - (k + 1) + 1 := by omega
  rw [hlen, Nat.zero_add, hsucc, List.range'_succ] at hunits
  cases hB : B with
  | nil =>
    rw [hB] at hunits
    cases hunits
  | cons e l₂ =>
    rw [hB, List.map_cons] at hunits
    rw [hB] at hmem
    obtain ⟨heu, hunits⟩ := List.cons.inj hunits
    refine ⟨S.log, e, l₂, by rw [hlog, hB], ?_, heu, hunits, fun f hf => ?_, ?_, fun s' hs' => ?_⟩
    · have hlogu := hin.log
      rwa [hlen] at hlogu
    · rcases List.mem_append.mp hf with hf | hf
      · exact hin.whole f hf
      · refine (hin.whole_iff (hmem f (List.mem_cons_of_mem _ hf)) (Nat.zero_le _)).mpr
          (h.arrived_iff.mpr ?_)
        have := (unit_bounds hunits hf).1
        omega
    · rw [Bool.eq_false_iff]
      intro hw
      have harrived := (hin.whole_iff (hmem e List.mem_cons_self) (Nat.zero_le _)).mp hw
      exact h.arrived_iff.mp harrived heu
    · rw [hs] at hs'
      cases hs'
      rw [hin.held e (hmem e List.mem_cons_self) (Nat.zero_le _), Ingested.mem_packets, heu]
      constructor
      · rintro hm rfl
        exact h.lost hm
      · intro hp
        refine h.mem ?_ (.inr (Ne.symm hp))
        rw [SentRun.parts_eq hs]
        exact s.end_mem

end Lost

/-! ## The first STREAM_INFO missing -/

/-- What waits in the window are packets of the first shot. -/
theorem window_first (h : Lost R 0 s.infoPacket l) (hn : 1 < R.shots.length) {i : Item}
    (hi : i ∈ window l) : ∃ q, i = .packet 0 q := by
  have hs₁ : R.shots[1]? = some R.shots[1] := List.getElem?_eq_getElem hn
  have hparts : (R.shots[1]).infoPacket ∈ R.feed.parts 1 := by
    rw [SentRun.parts_eq hs₁]
    exact SentShot.info_mem _
  have hinfo := h.mem hparts (.inl Nat.one_ne_zero)
  have hsplit : window l ++ l.dropWhile (!·.announces) = l := List.takeWhile_append_dropWhile
  have hann : (Item.packet 1 (R.shots[1]).infoPacket).announces = true :=
    (announces_iff (SentShot.info_mem _)).mpr rfl
  have hlater : Item.packet 1 (R.shots[1]).infoPacket ∈ l.dropWhile (!·.announces) := by
    rw [← hsplit] at hinfo
    rcases List.mem_append.mp hinfo with hm | hm
    · have hno := List.mem_takeWhile_imp hm
      rw [hann] at hno
      cases hno
    · exact hm
  have hseq := h.inSequence
  unfold InSequence at hseq
  rw [← hsplit] at hseq
  have hlt := (List.pairwise_append.mp hseq).2.2 i hi _ hlater
  have hil : i ∈ l := by
    rw [← hsplit]
    exact List.mem_append_left _ hi
  cases i with
  | heartbeat =>
    obtain ⟨last, hlast⟩ : ∃ last, R.shots[R.shots.length - 1]? = some last :=
      ⟨_, List.getElem?_eq_getElem (by omega)⟩
    have hlast' : R.shots.getLast? = some last := by rw [List.getLast?_eq_getElem?, hlast]
    rw [heartbeat_sequence hlast'] at hlt
    have hfirst : (R.shots[1]).firstSequence < last.nextSequence := by
      rcases Nat.lt_or_ge 1 (R.shots.length - 1) with hlt | hge
      · have h₁ := SentRun.nextSequence_le_of_lt hs₁ hlast hlt
        have h₂ := (R.shots[1]).firstSequence_lt
        have h₃ := last.firstSequence_lt
        omega
      · have heq : R.shots.length - 1 = 1 := by omega
        rw [heq, hs₁] at hlast
        cases hlast
        exact (R.shots[1]).firstSequence_lt
    exact absurd hlt hfirst.asymm
  | packet j q =>
    obtain ⟨u, hu, hq⟩ := h.sends _ hil
    have hle := le_of_sequence (h.sends _ hil) (h.sends _ (h.mem hparts (.inl Nat.one_ne_zero))) hlt
    by_cases hj : j = 1
    · subst hj
      rw [hu] at hs₁
      cases hs₁
      exact absurd hlt (Nat.not_lt.mpr (sequence_mem hq).1)
    · obtain rfl : j = 0 := by omega
      exact ⟨q, rfl⟩

theorem effective_sublist (l : List Item) : (effective l).Sublist l := by
  have hsplit : window l ++ l.dropWhile (!·.announces) = l := List.takeWhile_append_dropWhile
  conv_rhs => rw [← hsplit]
  exact (List.take_sublist _ _).append (.refl _)

/-- The window drops nothing of the later shots. -/
theorem later_heard (h : Lost R 0 s.infoPacket l) (hn : 1 < R.shots.length) {j : ℕ} {q : Packet}
    (hj : 1 ≤ j) (hq : q ∈ R.feed.parts j) : Item.packet j q ∈ effective l := by
  have hm := h.mem hq (.inl (by omega))
  have hsplit : window l ++ l.dropWhile (!·.announces) = l := List.takeWhile_append_dropWhile
  rw [← hsplit] at hm
  rcases List.mem_append.mp hm with hm | hm
  · obtain ⟨q', he⟩ := window_first h hn hm
    cases he
    omega
  · exact List.mem_append_right _ hm

/-- Nothing announces the first shot. -/
theorem first_silent (h : Lost R 0 s.infoPacket l) (hs : R.shots[0]? = some s) {q : Packet}
    (hq : Item.packet 0 q ∈ l) : (Item.packet 0 q).announces = false := by
  obtain ⟨u, hu, hqu⟩ := h.sends _ hq
  rw [hs] at hu
  cases hu
  rw [Bool.eq_false_iff]
  intro ha
  rw [(announces_iff hqu).mp ha] at hq
  exact h.lost hq

/-- The window keeps something of the first shot: its SHOT_END comes before every STREAM_INFO. -/
theorem first_heard (h : Lost R 0 s.infoPacket l) (hs : R.shots[0]? = some s)
    (hn : 1 < R.shots.length) : ∃ q, Item.packet 0 q ∈ effective l := by
  have hend : Item.packet 0 s.endPacket ∈ l := by
    refine h.mem ?_ (.inr s.infoPacket_ne_endPacket.symm)
    rw [SentRun.parts_eq hs]
    exact s.end_mem
  cases hl : l with
  | nil =>
    rw [hl] at hend
    cases hend
  | cons x rest =>
    have hxl : x ∈ l := by
      rw [hl]
      exact List.mem_cons_self
    have hx : x.announces = false := by
      rw [Bool.eq_false_iff]
      intro hx
      cases x with
      | heartbeat => cases hx
      | packet j q =>
        have hrest : Item.packet 0 s.endPacket ∈ rest := by
          rw [hl] at hend
          refine (List.mem_cons.mp hend).resolve_left fun he => ?_
          rw [← he, first_silent h hs (he ▸ hxl)] at hx
          cases hx
        have hpair := h.inSequence
        unfold InSequence at hpair
        rw [hl] at hpair
        have hlt := (List.pairwise_cons.mp hpair).1 _ hrest
        have hj := le_of_sequence (h.sends _ hxl)
          (h.sends _ (hl ▸ List.mem_cons_of_mem _ hrest)) hlt
        obtain rfl : j = 0 := Nat.le_zero.mp hj
        rw [first_silent h hs hxl] at hx
        cases hx
    have htake : window (x :: rest) = x :: window rest := by
      unfold window
      rw [List.takeWhile_cons_of_pos (by simp [hx])]
    have hwin : x ∈ window l := by
      rw [hl, htake]
      exact List.mem_cons_self
    obtain ⟨q, rfl⟩ := window_first h hn hwin
    refine ⟨q, List.mem_append_left _ ?_⟩
    rw [htake]
    exact List.mem_cons_self

/-- The first shot is in the table when the later ones came in order behind it. -/
theorem first_opened (h : Lost R 0 s.infoPacket l) (hs : R.shots[0]? = some s)
    (hn : 1 < R.shots.length) (hr : R.feed.Runs ((effective l).filterMap Item.packet?) S)
    (hin : R.feed.InOrder 1 R.shots.length ((effective l).filterMap Item.packet?) S) :
    ∃ e ∈ S.table, e.unit = 0 := by
  have hsub := effective_sublist l
  have hsends : ∀ i ∈ effective l, R.Sends i := fun i hi => h.sends i (hsub.subset hi)
  have hseq : InSequence R (effective l) := h.inSequence.sublist hsub
  obtain ⟨q, hq⟩ := first_heard h hs hn
  obtain ⟨l₁, l₂, hl⟩ := List.append_of_mem (Ingested.mem_packets.mpr hq)
  rcases hr.heard hl with hm | ⟨j, hj, hparts, hall⟩
  · rcases List.mem_append.mp hm with hm | hm
    · obtain ⟨e, he, hu⟩ := List.mem_map.mp hm
      exact ⟨e, he, hu⟩
    · rw [hin.log, List.mem_range'_1] at hm
      dsimp only at hm
      omega
  -- a later shot would have come in whole before
  · obtain ⟨q', hq'⟩ := List.exists_mem_of_ne_nil _ hparts
    have hpair := hseq.packets
    rw [hl] at hpair
    have hlt := (List.pairwise_append.mp hpair).2.2 _ (hall q' hq') _ List.mem_cons_self
    have hmem : (j, q') ∈ (effective l).filterMap Item.packet? := by
      rw [hl]
      exact List.mem_append_left _ (hall q' hq')
    have := le_of_sequence (hsends _ (Ingested.mem_packets.mp hmem)) (hsends _ hq) hlt
    dsimp only at hj
    omega

/-- The log when the first STREAM_INFO is missing: the first shot goes out last. -/
theorem skipped {S' : Publisher Packet} (h : Lost R 0 s.infoPacket l) (hs : R.shots[0]? = some s)
    (hn : 1 < R.shots.length)
    (hr : R.feed.Runs ((effective l).filterMap Item.packet?) S)
    (hunit : ∀ e ∈ S.table, e.unit < R.shots.length) (hst : R.Stamped)
    (hf : R.feed.Flushes S S') :
    ∃ l₁ e, S'.log = l₁ ++ [e] ∧ l₁.map (·.unit) = List.range' 1 (R.shots.length - 1) ∧
      e.unit = 0 ∧ (∀ f ∈ l₁, R.feed.whole f = true) ∧ R.feed.whole e = false := by
  have hsub := effective_sublist l
  have hsends : ∀ i ∈ effective l, R.Sends i := fun i hi => h.sends i (hsub.subset hi)
  have hseq : InSequence R (effective l) := h.inSequence.sublist hsub
  have harrived : ∀ j, 1 ≤ j → R.feed.Arrived ((effective l).filterMap Item.packet?) j :=
    fun j hj q hq => Ingested.mem_packets.mpr (later_heard h hn hj hq)
  have hquiet : ∀ i < 1, ¬ R.feed.Heralded ((effective l).filterMap Item.packet?) i := by
    rintro i hi ⟨q, hq, hm⟩
    obtain rfl : i = 0 := by omega
    rw [SentRun.parts_eq hs] at hq
    cases hq
    exact h.lost (hsub.subset (Ingested.mem_packets.mp hm))
  obtain ⟨hin, hfront⟩ := hr.inOrder (fed_of_stamped hst hsends hn.le hquiet)
    (hseq.patient hsends fun m hm _ => .inl (harrived m hm))
  have hlen : S.log.length = R.shots.length - 1 := by
    have hle := hin.le
    by_contra hne
    exact hfront (by omega) (harrived _ (by omega))
  have hzero : ∀ e ∈ S.table, e.unit = 0 := by
    intro e he
    by_contra hne
    have hge := hin.waiting e he (by omega)
    have hlt := hunit e he
    omega
  obtain ⟨e, he, heu⟩ := first_opened h hs hn hr hin
  have hearly : R.feed.announced e = false := hin.early e he (by omega)
  obtain ⟨A, hA, -, hlog⟩ := hf.log_eq hin.nodup
  rw [eq_singleton_of_units hin.nodup hzero he, List.filter_cons_of_neg (by simp [hearly]),
    List.filter_nil] at hA
  rw [eq_singleton_of_units hin.nodup hzero he, List.filter_cons_of_pos (by simp [hearly]),
    List.filter_nil, hA.eq_nil, List.append_nil] at hlog
  refine ⟨S.log, e, hlog, hlen ▸ hin.log, heu, hin.whole, ?_⟩
  rw [Bool.eq_false_iff]
  intro hw
  rw [R.feed.announced_of_whole hw (parts_ne_nil (hunit e he))] at hearly
  cases hearly

/-! ## Which losses are isolated -/

/-- The whole recording, when one datagram is missing. -/
theorem Lost.ended {o : Options} (h : Lost R k p l) (hn : R.shots.length ≤ maxActiveShots)
    (h2 : 2 ≤ R.shots.length) (hadmits : Admits o source) {messages : List RunState.Message}
    (hd : Delivers R source messages l) (interrupted : Bool) : ∃ S S' run₀,
      Ingested R source (effective l) S run₀ ∧ R.feed.Flushes S S' ∧
      R.Follows S' (record o messages interrupted).run ∧
      (record o messages interrupted).run.maxShotBytes = o.maxShotBytes ∧
      Known R (record o messages interrupted).run.profileOf := by
  have hsession := record_session hd o interrupted
  rw [heardItems_eq hadmits] at hsession
  cases hsession with
  | unheard hl =>
    obtain ⟨j, hj, hjn⟩ : ∃ j, j ≠ k ∧ j < R.shots.length := by
      rcases Nat.eq_zero_or_pos k with rfl | hk
      · exact ⟨1, Nat.one_ne_zero, h2⟩
      · exact ⟨0, hk.ne, by omega⟩
    obtain ⟨q, hq, hann⟩ := exists_announcing hjn
    rw [hl _ (h.mem hq (.inl hj))] at hann
    cases hann
  | stuck _ _ _ hstuck => exact absurd hstuck (not_stuck hn)
  | @ended _ _ _ S S' run₀ hin hf h' hm _ hprofile =>
    refine ⟨S, S', run₀, hin, hf, h', hm, ?_⟩
    unfold RunState.profileOf
    rw [hprofile]
    exact hin.profile

/-- The window is empty unless the first STREAM_INFO is what is missing. -/
theorem Lost.effective_eq {before after : List Item}
    (hlost : R.sent = before ++ .packet k p :: after)
    (hs : R.shots[0]? = some s) (hne : ¬ (k = 0 ∧ p = s.infoPacket)) :
    effective (before ++ after) = before ++ after := by
  obtain ⟨tail, hsent⟩ := sent_eq_cons hs
  refine QCrate.Recorder.effective_eq ?_
  rw [hlost] at hsent
  cases before with
  | nil =>
    cases hsent
    exact absurd ⟨rfl, rfl⟩ hne
  | cons x before =>
    obtain ⟨rfl, -⟩ := List.cons.inj hsent
    rw [List.cons_append, window_info]
    exact Nat.zero_le _

/-- A whole shot of the run. -/
theorem packets_of_whole (hu : e.unit < R.shots.length) (hw : R.feed.whole e = true) :
    ∃ s, R.shots[e.unit]? = some s ∧ ∀ p ∈ s.packets, e.held p = true :=
  have hs : R.shots[e.unit]? = some R.shots[e.unit] := List.getElem?_eq_getElem hu
  ⟨_, hs, (R.whole_iff hs).mp hw⟩

/-- Without the first STREAM_INFO the first shot is the only one that is not published. -/
theorem isolates_of_skipped {S' : Publisher Packet} (h : Lost R 0 s.infoPacket l)
    (hs : R.shots[0]? = some s) (hn : 1 < R.shots.length) {run₀ : RunState}
    (hg : R.Genuine run.maxShotBytes) (hknown : Known R run.profileOf)
    (hin : Ingested R source (effective l) S run₀) (hf : R.feed.Flushes S S')
    (h' : R.Follows S' run) : Isolates R run 0 := by
  obtain ⟨l₁, e, hlog, hunits, heu, hwhole, he⟩ :=
    skipped h hs hn hin.runs (fun e he => unit_lt hin.follows he) hg.stamped hf
  have hlog' : S'.log = l₁ ++ e :: [] := hlog
  refine isolates_of_log h' (hin.runs.sound.1.flushes hf) hlog' heu ?_ he nofun fun j hj hj0 => ?_
  · have hlen := length_of_units hunits
    refine allIntact_of_units hg hknown (hlen ▸ hunits) fun f hfm => ?_
    have hbounds := unit_bounds hunits hfm
    exact packets_of_whole (by omega) (hwhole f hfm)
  · obtain ⟨f, hfm, hfu⟩ := exists_unit hunits (show 1 ≤ j by omega) (by omega)
    exact ⟨f, List.mem_append_left _ hfm, hfu⟩

/-- The damaged shot is the only one that is not published when the recorder waits for it, and its
SHOT_END is there or no shot is between two others. -/
theorem isolates_of_waited {S' : Publisher Packet} (hg : R.Genuine run.maxShotBytes)
    (hknown : Known R run.profileOf) (hs : R.shots[k]? = some s) (hsound : R.feed.Sound S')
    (h' : R.Follows S' run) (h : Lost.Waited R k p S'.log)
    (hp : p ≠ s.endPacket ∨ k = 0 ∨ k + 1 = R.shots.length) : Isolates R run k := by
  obtain ⟨hk, -⟩ := List.getElem?_eq_some_iff.mp hs
  obtain ⟨l₁, e, l₂, hlog, hu₁, heu, hu₂, hwhole, he, hend⟩ := h.split
  have hlen₁ := length_of_units hu₁
  have hlen₂ := length_of_units hu₂
  refine isolates_of_log h' hsound hlog heu ?_ he ?_ fun j hj hjk => ?_
  · refine allIntact_of_units hg hknown (hlen₁.symm ▸ hu₁) fun f hfm => ?_
    have hbounds := unit_bounds hu₁ hfm
    exact packets_of_whole (by omega) (hwhole f (List.mem_append_left _ hfm))
  · refine intact_from hg hknown (hlen₂.symm ▸ hu₂) (fun f hfm => ?_) (fun f hfm => ?_) ?_
    · have hbounds := unit_bounds hu₂ hfm
      exact packets_of_whole (by omega) (hwhole f (List.mem_append_right _ hfm))
    · rcases List.mem_append.mp hfm with hfm | hfm
      · have hbounds := unit_bounds hu₁ hfm
        omega
      · rw [List.mem_singleton.mp hfm, heu]
        exact Nat.lt_succ_self k
    -- the next shot follows the damaged one, or there is nothing to follow
    · intro t ht q hq
      obtain ⟨hkn, -⟩ := List.getElem?_eq_some_iff.mp ht
      rw [R.expected_concat l₁ (heu ▸ hs)] at hq
      by_cases hpe : p = s.endPacket
      · rw [if_neg fun hc => (hend s hs).mp hc hpe] at hq
        rcases hp with hp | rfl | hp
        · exact absurd hpe hp
        · rw [List.length_eq_zero_iff.mp hlen₁] at hq
          cases hq
        · omega
      · rw [if_pos ((hend s hs).mpr hpe)] at hq
        cases hq
        exact (SentRun.firstSequence_succ hs ht).symm
  · rcases Nat.lt_or_ge j k with hjlt | hjge
    · obtain ⟨f, hfm, hfu⟩ := exists_unit hu₁ (Nat.zero_le j) (by omega)
      exact ⟨f, List.mem_append_left _ hfm, hfu⟩
    · obtain ⟨f, hfm, hfu⟩ := exists_unit hu₂ (show k + 1 ≤ j by omega) (by omega)
      exact ⟨f, List.mem_append_right _ hfm, hfu⟩

/-- What is neither STREAM_INFO nor SHOT_END, or is missing of the first or the last shot, spoils
its shot only. -/
theorem isolates_of_lost {o : Options} {before after : List Item} (hg : R.Genuine o.maxShotBytes)
    (hn : R.shots.length ≤ maxActiveShots) (h2 : 2 ≤ R.shots.length) (hadmits : Admits o source)
    (hlost : R.sent = before ++ .packet k p :: after) {messages : List RunState.Message}
    (hd : Delivers R source messages (before ++ after)) (interrupted : Bool)
    (hp : p.header.packetType = .data ∨ k = 0 ∨ k + 1 = R.shots.length) :
    Isolates R (record o messages interrupted).run k := by
  have h := lost_of_sent hlost
  obtain ⟨S, S', run₀, hin, hf, h', hm, hknown⟩ := h.ended hn h2 hadmits hd interrupted
  rw [← hm] at hg
  obtain ⟨s, hs, hps⟩ := h.sent
  have htype := Config.packetType_of_mem hps
  by_cases hfirst : k = 0 ∧ p = s.infoPacket
  · obtain ⟨rfl, rfl⟩ := hfirst
    exact isolates_of_skipped h hs (by omega) hg hknown hin hf h'
  · have hs₀ : R.shots[0]? = some R.shots[0] := List.getElem?_eq_getElem (by omega)
    have hne : ¬ (k = 0 ∧ p = (R.shots[0]).infoPacket) := by
      rintro ⟨rfl, rfl⟩
      rw [hs₀] at hs
      cases hs
      exact hfirst ⟨rfl, rfl⟩
    rw [Lost.effective_eq hlost hs₀ hne] at hin
    have hwaits : p ≠ s.infoPacket ∨ k + 1 = R.shots.length := by
      rcases hp with hp | rfl | hp
      · left
        rintro rfl
        cases hp
      · exact .inl fun he => hfirst ⟨rfl, he⟩
      · exact .inr hp
    have hend : p ≠ s.endPacket ∨ k = 0 ∨ k + 1 = R.shots.length := by
      refine hp.imp_left fun hdata he => ?_
      rw [htype.2.2.mpr he] at hdata
      cases hdata
    exact isolates_of_waited hg hknown hs (hin.runs.sound.1.flushes hf) h'
      (h.waited hin.runs (fun e he => unit_lt hin.follows he) hg.stamped hf hs hwaits) hend

/-- The history of an entry is what comes before it. -/
theorem split_of_mem_historiesFrom {α : Type*} {before l : List α} {h : List α × α}
    (hh : h ∈ historiesFrom before l) : ∃ l₁ l₂, l = l₁ ++ h.2 :: l₂ ∧ h.1 = before ++ l₁ := by
  induction l generalizing before with
  | nil => cases hh
  | cons a l ih =>
    rcases List.mem_cons.mp hh with rfl | hh
    · exact ⟨[], l, rfl, (List.append_nil _).symm⟩
    · obtain ⟨l₁, l₂, rfl, hbefore⟩ := ih hh
      exact ⟨a :: l₁, l₂, rfl, by rw [hbefore, List.append_assoc]; rfl⟩

/-- Something is expected after a closed shot whose SHOT_END is there. -/
theorem expected_ne_none {log : List (Entry Packet)} (he : e ∈ log)
    (hs : R.shots[e.unit]? = some s) (hend : e.held s.endPacket = true) :
    R.expected log ≠ none := by
  unfold SentRun.expected
  rw [Ne, List.getLast?_eq_none_iff, List.filterMap_eq_nil_iff]
  intro hnone
  have hno := hnone e he
  rw [hs, Option.bind_some, if_pos hend] at hno
  cases hno

/-- A shot that the damage does not reach was closed when it was whole. -/
theorem Isolates.closed (h : Isolates R run k) (hf : R.Follows S run) (hst : R.Stamped) {j : ℕ}
    (hj : j < R.shots.length) (hjk : j ≠ k) : ∃ h ∈ histories S.log, h.2.unit = j ∧
      R.intact run.maxShotBytes run.profileOf h.1 h.2 = true ∧ R.feed.whole h.2 = true ∧
      R.feed.announced h.2 = true ∧ R.feed.marking h.2 = true := by
  have hs : R.shots[j]? = some R.shots[j] := List.getElem?_eq_getElem hj
  obtain ⟨c, hc, hu, hi⟩ := whole_of_published hf hs (h.others j _ hs hjk)
  have hs' : R.shots[c.2.unit]? = some R.shots[j] := by rw [hu, hs]
  have hlt : c.2.unit < R.shots.length := by omega
  have hw : R.feed.whole c.2 = true := (R.whole_iff hs').mpr ((R.intact_iff hs').mp hi).1
  exact ⟨c, hc, hu, hi, hw, R.feed.announced_of_whole hw (parts_ne_nil hlt),
    marking_of_whole hst hlt hw⟩

/-- A STREAM_INFO or SHOT_END that is missing between two other shots spoils the second of them. -/
theorem not_isolates_of_lost {o : Options} (h : Lost R k p l) (hg : R.Genuine o.maxShotBytes)
    (hn : R.shots.length ≤ maxActiveShots) (hadmits : Admits o source)
    {messages : List RunState.Message} (hd : Delivers R source messages l) (interrupted : Bool)
    (hp : p.header.packetType ≠ .data) (hk : 0 < k) (hkn : k + 1 < R.shots.length) :
    ¬ Isolates R (record o messages interrupted).run k := by
  intro hisolates
  obtain ⟨S, S', run₀, hin, hf, h', hm, -⟩ := h.ended hn (by omega) hadmits hd interrupted
  rw [← hm] at hg
  generalize (record o messages interrupted).run = run at h' hm hg hisolates
  obtain ⟨hsound, hannouncing⟩ := hin.runs.sound
  -- both neighbours are closed, and whole then
  obtain ⟨f, hf₁, hfu, -, hfw, hfa, hfm⟩ :=
    hisolates.closed h' hg.stamped (show k - 1 < R.shots.length by omega) (by omega)
  obtain ⟨e, he₁, heu, hei, -, hea, hem⟩ := hisolates.closed h' hg.stamped hkn (by omega)
  have hs : R.shots[f.2.unit]? = some R.shots[k - 1] := by
    rw [hfu]
    exact List.getElem?_eq_getElem _
  have ht : R.shots[e.2.unit]? = some R.shots[k + 1] := by
    rw [heu]
    exact List.getElem?_eq_getElem _
  obtain ⟨l₁, l₂, hsplit, hbefore⟩ := split_of_mem_historiesFrom he₁
  rw [List.nil_append] at hbefore
  have hsorted := (hsound.flushes hf).sorted
  have hfirst := hf.announced_first hannouncing hsound.nodup
  have hfmem := mem_of_mem_historiesFrom hf₁
  rw [hsplit] at hsorted hfirst hfmem
  obtain ⟨-, hafter, -⟩ := List.pairwise_append.mp hsorted
  obtain ⟨-, -, hahead⟩ := List.pairwise_append.mp hfirst
  have hmem : f.2 ∈ e.1 := by
    rw [hbefore]
    rcases List.mem_append.mp hfmem with hm | hm
    · exact hm
    · rcases List.mem_cons.mp hm with hm | hm
      · rw [hm] at hfu
        omega
      · have := (List.pairwise_cons.mp hafter).1 _ hm hea hem hfa hfm
        omega
  -- what is expected follows the damaged shot
  have hexpected : R.expected e.1 ≠ none :=
    expected_ne_none hmem hs (((R.whole_iff hs).mp hfw) _ (SentShot.end_mem _))
  obtain ⟨q, hq⟩ := Option.ne_none_iff_exists'.mp hexpected
  obtain ⟨g, hg₁, u, hu, hgend, rfl⟩ := expected_mem hq
  have hnext := ((R.intact_iff ht).mp hei).2.2.2.1 _ hq
  have hgu : g.unit = k := by
    have := succ_of_sequence hu ht hnext.symm
    omega
  rw [hbefore] at hg₁
  have hga := hahead _ hg₁ _ List.mem_cons_self hea
  have hglog : g ∈ S'.log := by
    rw [hsplit]
    exact List.mem_append_left _ hg₁
  have hheld : ∀ q, g.held q = true → Item.packet k q ∈ l := fun q hq =>
    effective_mem (Ingested.mem_packets.mp (hgu ▸ hin.runs.held g (hf.mem hglog) q hq))
  obtain ⟨s, hsk, hps⟩ := h.sent
  rw [hgu, hsk] at hu
  cases hu
  -- but it holds neither
  obtain ⟨htinfo, htdata, -⟩ := Config.packetType_of_mem hps
  rcases List.mem_cons.mp hps with rfl | hps
  · unfold Feed.announced at hga
    rw [hgu, SentRun.parts_eq hsk] at hga
    exact h.lost (hheld _ hga)
  · rcases List.mem_append.mp hps with hps | hps
    · exact hp (htdata.mpr hps)
    · rw [List.mem_singleton.mp hps] at h
      exact h.lost (hheld _ hgend)

/-- When one datagram is missing and the others come in the order in which they were sent, only its
shot is INCOMPLETE exactly when it is a DATA packet or one of the first or the last shot. -/
theorem isolates_iff {o : Options} {before after : List Item} (hg : R.Genuine o.maxShotBytes)
    (hn : R.shots.length ≤ maxActiveShots) (h2 : 2 ≤ R.shots.length) (hadmits : Admits o source)
    (hlost : R.sent = before ++ .packet k p :: after) {messages : List RunState.Message}
    (hd : Delivers R source messages (before ++ after)) (interrupted : Bool) :
    Isolates R (record o messages interrupted).run k ↔
      p.header.packetType = .data ∨ k = 0 ∨ k + 1 = R.shots.length := by
  constructor
  · intro hisolates
    have h := lost_of_sent hlost
    obtain ⟨s, hs, -⟩ := h.sent
    obtain ⟨hk, -⟩ := List.getElem?_eq_some_iff.mp hs
    by_contra hno
    rw [not_or, not_or] at hno
    exact not_isolates_of_lost h hg hn hadmits hd interrupted hno.1 (by omega) (by omega) hisolates
  · exact isolates_of_lost hg hn h2 hadmits hlost hd interrupted

theorem thirdSample_check : (oneSample 2 true).check aSample = .ok () := rfl

/-- Three shots of one sample each. -/
def threeShots : List SentShot := twoShots ++ [⟨oneSample 2 true, aSample, thirdSample_check⟩]

theorem threeShots_identity : ∀ s ∈ threeShots, s.config.streamId = 1 ∧ s.config.runId = 1 := by
  decide

theorem threeShots_ids : threeShots.Pairwise fun a b => a.shotId < b.shotId := by
  decide

theorem threeShots_sequences : threeShots.IsChain fun a b => b.firstSequence = a.nextSequence :=
  .cons_cons rfl (.cons_cons rfl (.singleton _))

def threeShotRun : SentRun :=
  { streamId := 1, runId := 1, shots := threeShots, identity := threeShots_identity
    ids := threeShots_ids, sequences := threeShots_sequences }

theorem threeShots_genuine : threeShotRun.Genuine 4 where
  uniform := by
    show ∀ s ∈ threeShots, ∀ t ∈ threeShots, s.profile = t.profile
    decide
  stamped := by
    show (∀ s ∈ threeShots, s.timestamp ≠ 0) ∧
      threeShots.Pairwise fun s t => s.timestamp < t.timestamp
    decide
  fits := by
    show ∀ s ∈ threeShots, s.samples.length ≤ 4
    decide

/-- The three shots without one of the datagrams. -/
def allBut (n : ℕ) : List Item := threeShotRun.sent.take n ++ threeShotRun.sent.drop (n + 1)

def recordAllBut (n : ℕ) : Outcome :=
  record { maxShotBytes := 4 } (carryItems threeShotRun (.inet 1 5000) (fun _ => 1) (allBut n))
    false

theorem delivers_allBut (n : ℕ) : Delivers threeShotRun (.inet 1 5000)
    (carryItems threeShotRun (.inet 1 5000) (fun _ => 1) (allBut n)) (allBut n) := by
  refine delivers_carryItems _ _ fun i hi => sends_sent i ?_
  rcases List.mem_append.mp hi with hi | hi
  · exact List.mem_of_mem_take hi
  · exact List.mem_of_mem_drop hi

/-- The DATA packet of the second shot is missing. -/
theorem isolates_iff_data : Isolates threeShotRun (recordAllBut 4).run 1 :=
  have hadmits : Admits { maxShotBytes := 4 } (.inet 1 5000) := rfl
  have hlost : threeShotRun.sent = threeShotRun.sent.take 4 ++
      .packet 1 (SentShot.mk (oneSample 1 true) aSample oneSample_check.2).firstData ::
        threeShotRun.sent.drop 5 := rfl
  (isolates_iff threeShots_genuine (by decide) (by decide) hadmits hlost (delivers_allBut 4)
    false).mpr (.inl rfl)

/-- The SHOT_END of the second shot is missing, and the third one is INCOMPLETE too. -/
theorem loss_not_isolated : threeShotRun.Genuine 4 ∧ threeShotRun.shots.length ≤ maxActiveShots ∧
    (∃ s, threeShotRun.shots[1]? = some s ∧
      threeShotRun.sent = threeShotRun.sent.take 5 ++
        .packet 1 s.endPacket :: threeShotRun.sent.drop 6) ∧
    Delivers threeShotRun (.inet 1 5000)
      (carryItems threeShotRun (.inet 1 5000) (fun _ => 1) (allBut 5)) (allBut 5) ∧
    incompleteIds (recordAllBut 5).run = [2, 3] ∧
    ¬ Isolates threeShotRun (recordAllBut 5).run 1 := by
  have hids : incompleteIds (recordAllBut 5).run = [2, 3] := by decide +kernel
  refine ⟨threeShots_genuine, by decide, ⟨_, rfl, rfl⟩, delivers_allBut 5, hids, fun h => ?_⟩
  have hone := h.damaged _ rfl
  rw [hids] at hone
  cases hone

end QCrate.Recorder
