import QCrate.Recorder.CleanRun
import QCrate.Streamer.RunIntegrity

/-!
# What the streamer sends

Whatever the interleaving of the two threads, what they send is a run as the recorder's results take
it: whole shots in the order in which their banks were dequeued, with growing ids and times and
consecutive packet sequences. A run that fails leaves off after some packet of it. A run that is
reported as a success is all of it, and has a shot for every bank that was dequeued.

* `Line` — the good banks, in order.
* `Emitting` — the shots that were begun, and what was sent of them.
* `streamer_sends_run` — the run of an interleaving.
-/

namespace QCrate.Streamer

open QCrate.Lib QCrate.DataPlane
open QCrate.Recorder (SentRun SentShot)

variable {c : Context} {s s' : State} {r : Result} {l : List Shot}

/-! ## The order of the banks -/

/-- A bank was dequeued before another, and its shot is the earlier one. -/
structure Token.Before (t u : Token) : Prop where
  id : t.id < u.id
  shotId : t.bank.triggerShotId < u.bank.triggerShotId
  time : t.bank.firstSampleTime < u.bank.firstSampleTime

/-- The bank that was found good and is not in the queue yet. -/
def Acquisition.waiting : Acquisition → List Token
  | .waitIdle t | .pushing t => [t]
  | _ => []

/-- The bank that was taken from the queue and whose shot is not begun. -/
def Sender.waiting : Sender → List Token
  | .packetizing t => [t]
  | _ => []

/-- The banks with smaller numbers have been tested. -/
def State.tested (s : State) : ℕ :=
  match s.acquisition with
  | .checking t => t.id
  | _ => s.dequeued

/-- Good banks in the order in which they were dequeued. -/
structure Line (c : Context) (tested : ℕ) (previous : Option (UInt32 × UInt64))
    (l : List Token) : Prop where
  ordered : l.Pairwise Token.Before
  valid : ∀ t ∈ l, c.validateBank t.bank = true
  tested : ∀ t ∈ l, t.id < tested
  latest : ∀ t ∈ l, ∃ p, previous = some p ∧ t.bank.triggerShotId ≤ p.1 ∧
    t.bank.firstSampleTime ≤ p.2

namespace Line

variable {tested tested' : ℕ} {previous : Option (UInt32 × UInt64)} {l l' : List Token} {t : Token}

theorem nil : Line c tested previous [] := ⟨.nil, nofun, nofun, nofun⟩

theorem sublist (h : Line c tested previous l) (hl : l'.Sublist l) (hle : tested ≤ tested') :
    Line c tested' previous l' where
  ordered := h.ordered.sublist hl
  valid t ht := h.valid t (hl.subset ht)
  tested t ht := (h.tested t (hl.subset ht)).trans_le hle
  latest t ht := h.latest t (hl.subset ht)

/-- A good bank joins the line. -/
theorem push (h : Line c t.id previous l) (hvalid : c.validateBank t.bank = true)
    (hmonotonic : monotonic previous t.bank = true) (hlt : t.id < tested) :
    Line c tested (some (t.bank.triggerShotId, t.bank.firstSampleTime)) (l ++ [t]) := by
  have hbefore : ∀ u ∈ l, u.Before t := by
    intro u hu
    obtain ⟨p, rfl, hid, htime⟩ := h.latest u hu
    obtain ⟨hid', htime'⟩ := of_decide_eq_true (by simpa [monotonic] using hmonotonic :
      decide (p.1 < t.bank.triggerShotId ∧ p.2 < t.bank.firstSampleTime) = true)
    exact ⟨h.tested u hu, UInt32.lt_of_le_of_lt hid hid', UInt64.lt_of_le_of_lt htime htime'⟩
  refine ⟨List.pairwise_append.mpr ⟨h.ordered, List.pairwise_singleton _ _, ?_⟩, ?_, ?_, ?_⟩
  · intro u hu v hv
    rw [List.mem_singleton.mp hv]
    exact hbefore u hu
  · refine List.forall_mem_append.mpr ⟨h.valid, ?_⟩
    rintro u hu
    rw [List.mem_singleton.mp hu]
    exact hvalid
  · refine List.forall_mem_append.mpr ⟨fun u hu => (h.tested u hu).trans hlt, ?_⟩
    rintro u hu
    rw [List.mem_singleton.mp hu]
    exact hlt
  · refine List.forall_mem_append.mpr ⟨fun u hu => ?_, fun u hu => ?_⟩
    · exact ⟨_, rfl, UInt32.le_of_lt (hbefore u hu).shotId, UInt64.le_of_lt (hbefore u hu).time⟩
    · rw [List.mem_singleton.mp hu]
      exact ⟨_, rfl, UInt32.le_refl _, UInt64.le_refl _⟩

end Line

/-- The bank under test was dequeued. -/
theorem Sound.checking_lt (h : Sound c s) {t : Token} (hpc : s.acquisition = .checking t) :
    t.id < s.dequeued := by
  have howned := h.owned t.id
  rw [hpc] at howned
  have hheld : (Acquisition.checking t).held.count t.id = 1 := List.count_singleton_self
  rw [hheld] at howned
  by_contra hnot
  rw [if_neg hnot] at howned
  omega

/-- A step of the acquisition thread keeps the line, and what is in front of it. -/
theorem line_acquisition (hsound : Sound c s) (hs : acquisitionStep c s r = some s')
    {front : List Token}
    (h : Line c s.tested s.previous (front ++ (s.queue ++ s.acquisition.waiting))) :
    Line c s'.tested s'.previous (front ++ (s'.queue ++ s'.acquisition.waiting)) := by
  -- the queue is as it was, and the thread has the same bank or none
  have hkeep : ∀ {w w' : List Token} {q : List Token} {n n' : ℕ},
      Line c n s.previous (front ++ (q ++ w)) → w'.Sublist w → n ≤ n' →
      Line c n' s.previous (front ++ (q ++ w')) := fun h hw hn =>
    h.sublist ((List.Sublist.refl _).append ((List.Sublist.refl _).append hw)) hn
  unfold State.tested at h ⊢
  unfold acquisitionStep at hs
  cases hpc : s.acquisition <;> rw [hpc] at hs h <;> dsimp only [Acquisition.waiting] at hs h
  case requireIdle | waitArmed | armStart =>
    cases hs
    cases r.ok <;> exact h
  case loop =>
    split at hs
    · cases hs
      exact h
    split at hs <;> (cases hs; exact h)
  case dequeue =>
    split at hs <;> (cases hs; exact h)
  case checking t =>
    split at hs
    · next hgood =>
      cases hs
      obtain ⟨hvalid, hmonotonic⟩ := Bool.and_eq_true_iff.mp hgood
      have hpush := h.push hvalid hmonotonic (hsound.checking_lt hpc)
      simpa [Acquisition.waiting] using hpush
    · cases hs
      exact hkeep h (List.Sublist.refl _) (hsound.checking_lt hpc).le
  case waitIdle t =>
    cases hs
    cases r.ok
    · exact hkeep h (List.nil_sublist _) le_rfl
    · exact h
  case pushing t =>
    split at hs
    · cases hs
      exact hkeep h (List.nil_sublist _) le_rfl
    split at hs
    · cases hs
    · cases hs
      simpa [Acquisition.waiting] using h
  case counting | discarding | dropping | failing | finishing =>
    cases hs
    exact h
  case exited => cases hs

/-! ## What was sent -/

/-- The part of the state that is about what was sent. -/
structure Emitted where
  shots : List Shot
  sent : List Packet
  transmittedShots : ℕ
  lastShotId : UInt32

def State.emitted (s : State) : Emitted := ⟨s.shots, s.sent, s.transmittedShots, s.lastShotId⟩

/-- The counters are those of these shots. -/
def Emitted.Counts (e : Emitted) (shots : List Shot) : Prop :=
  e.transmittedShots = shots.length ∧
    e.lastShotId = (shots.getLast?.map (·.token.bank.triggerShotId)).getD 0

/-- All shots and the END_OF_STREAM heartbeat were sent. -/
structure Emitted.Ended (c : Context) (e : Emitted) : Prop where
  counts : e.Counts e.shots
  last : e.lastShotId ≠ 0
  sent : e.sent = e.shots.flatMap (Shot.packets c) ++
    [endOfStreamPacket c.options.streamId c.options.runId e.lastShotId.toUInt64
      (.ofNat (e.shots.flatMap (Shot.packets c)).length)]

/-- How much of the shots begun was sent. -/
def Outgoing (c : Context) (l : List Shot) (e : Emitted) : Sender → Prop
  | .pop | .packetizing _ | .drained | .heartbeat =>
    l = e.shots ∧ e.sent = l.flatMap (Shot.packets c) ∧ e.Counts e.shots
  | .sending shot left =>
    l = e.shots ++ [shot] ∧ e.sent ++ left = l.flatMap (Shot.packets c) ∧ e.Counts e.shots
  | .releasing shot =>
    l = e.shots ∧ e.sent = l.flatMap (Shot.packets c) ∧
      ∃ before, e.shots = before ++ [shot] ∧ e.Counts before
  | .discarding _ | .failing | .exited =>
    e.shots <+: l ∧ (e.sent <+: l.flatMap (Shot.packets c) ∨ l = e.shots ∧ e.Ended c)

/-- The shots have consecutive packet sequences, from `n` on. -/
def Numbered (c : Context) : ℕ → List Shot → Prop
  | _, [] => True
  | n, shot :: l => shot.initialSequence.toNat = n ∧ Numbered c (n + (shot.packets c).length) l

theorem numbered_concat {n : ℕ} {shot : Shot} (h : Numbered c n l)
    (hshot : shot.initialSequence.toNat = n + (l.flatMap (Shot.packets c)).length) :
    Numbered c n (l ++ [shot]) := by
  induction l generalizing n with
  | nil => exact ⟨hshot, trivial⟩
  | cons first l ih =>
    refine ⟨h.1, ih h.2 ?_⟩
    rw [hshot, List.flatMap_cons, List.length_append, Nat.add_assoc]

theorem Numbered.last {n : ℕ} {shot : Shot} (h : Numbered c n (l ++ [shot])) :
    shot.initialSequence.toNat = n + (l.flatMap (Shot.packets c)).length := by
  induction l generalizing n with
  | nil => exact h.1
  | cons first l ih =>
    rw [ih h.2, List.flatMap_cons, List.length_append, Nat.add_assoc]

/-- The run has come to its end as `run_sustained` wants it. -/
def State.Complete (s : State) : Prop :=
  s.acquisitionComplete = true ∧ s.transmittedShots = s.acquiredShots ∧ 0 < s.transmittedShots

/-- The shots that were begun, with the banks behind them. -/
structure Emitting (c : Context) (s : State) (l : List Shot) : Prop where
  line : Line c s.tested s.previous
    (l.map Shot.token ++ s.sender.waiting ++ (s.queue ++ s.acquisition.waiting))
  checked : ∀ shot ∈ l, (shot.config c).check shot.samples = .ok ()
  numbered : Numbered c 0 l
  outgoing : Outgoing c l s.emitted s.sender
  outcome : s.sender = .exited → s.failed = true ∨ (l = s.shots ∧ s.emitted.Ended c) ∨
    s.acquisition = .exited ∧ ¬ s.Complete

theorem emitting_start (created : Bool) : Emitting c (start created) [] where
  line := by
    cases created <;> exact Line.nil
  checked := nofun
  numbered := trivial
  outgoing := ⟨rfl, rfl, rfl, rfl⟩
  outcome := nofun

/-! ## Steps -/

/-- The acquisition thread leaves alone what was sent. -/
theorem emitted_acquisition (hs : acquisitionStep c s r = some s') :
    s'.sender = s.sender ∧ s'.emitted = s.emitted ∧ (s.failed = true → s'.failed = true) ∧
      s.acquisition ≠ .exited := by
  unfold acquisitionStep at hs
  cases hpc : s.acquisition <;> rw [hpc] at hs <;> dsimp only at hs
  case loop | pushing =>
    split at hs
    · cases hs
      exact ⟨rfl, rfl, id, nofun⟩
    split at hs <;> cases hs <;> exact ⟨rfl, rfl, id, nofun⟩
  case dequeue | checking =>
    split at hs <;> (cases hs; exact ⟨rfl, rfl, id, nofun⟩)
  case failing =>
    cases hs
    exact ⟨rfl, rfl, fun _ => rfl, nofun⟩
  case exited => cases hs
  all_goals
    cases hs
    exact ⟨rfl, rfl, id, nofun⟩

theorem emitting_acquisition (hsound : Sound c s) (h : Emitting c s l)
    (hs : acquisitionStep c s r = some s') : Emitting c s' l := by
  obtain ⟨hsender, hemitted, hfailed, hrun⟩ := emitted_acquisition hs
  refine ⟨?_, h.checked, h.numbered, ?_, fun hexited => ?_⟩
  · rw [hsender]
    exact line_acquisition hsound hs h.line
  · rw [hsender, hemitted]
    exact h.outgoing
  · rw [hsender] at hexited
    rcases h.outcome hexited with hdone | ⟨hl, hended⟩ | ⟨hdone, -⟩
    · exact .inl (hfailed hdone)
    · rw [← hemitted] at hended
      exact .inr (.inl ⟨hl.trans (congrArg Emitted.shots hemitted).symm, hended⟩)
    · exact absurd hdone hrun

/-- A step of the sender that is not its last, with no bank gone but the one in its hands. -/
theorem Emitting.sender_on (h : Emitting c s l) {next : State} {l' : List Shot}
    (hsame : next.tested = s.tested ∧ next.previous = s.previous ∧
      next.acquisition = s.acquisition)
    (hline : (l'.map Shot.token ++ next.sender.waiting ++ next.queue).Sublist
      (l.map Shot.token ++ s.sender.waiting ++ s.queue))
    (hchecked : ∀ shot ∈ l', (shot.config c).check shot.samples = .ok ())
    (hnumbered : Numbered c 0 l') (houtgoing : Outgoing c l' next.emitted next.sender)
    (houtcome : next.sender = .exited → next.failed = true ∨
      (l' = next.shots ∧ next.emitted.Ended c) ∨ next.acquisition = .exited ∧ ¬ next.Complete) :
    Emitting c next l' where
  line := by
    rw [hsame.1, hsame.2.1, hsame.2.2, ← List.append_assoc]
    refine h.line.sublist ?_ le_rfl
    rw [← List.append_assoc]
    exact hline.append (List.Sublist.refl _)
  checked := hchecked
  numbered := hnumbered
  outgoing := houtgoing
  outcome := houtcome

theorem emitting_sender (hsound : Sound c s) (h : Emitting c s l)
    (hs : senderStep c s r = some s') : ∃ l', Emitting c s' l' := by
  have hprogress := hsound.progress
  have houtgoing := h.outgoing
  unfold senderStep at hs
  cases hpc : s.sender <;> rw [hpc] at hs hprogress houtgoing <;> dsimp only at hs
  case pop =>
    -- nothing is sent here: a bank is taken, or the thread fails or ends
    obtain ⟨hl, hsent, hcounts⟩ := houtgoing
    split at hs
    · next hfailed =>
      cases hs
      refine ⟨l, h.sender_on ⟨rfl, rfl, rfl⟩ ?_ h.checked h.numbered
        ⟨by rw [hl]; exact List.prefix_refl _, .inl (by rw [← hsent]; exact List.prefix_refl _)⟩
        fun _ => .inl hfailed⟩
      rw [hpc]
      exact List.Sublist.refl _
    split at hs
    · next t rest hqueue =>
      cases hs
      refine ⟨l, h.sender_on ⟨rfl, rfl, rfl⟩ ?_ h.checked h.numbered ⟨hl, hsent, hcounts⟩ nofun⟩
      rw [hpc, hqueue]
      simp [Sender.waiting]
    · split at hs
      · cases hs
        refine ⟨l, h.sender_on ⟨rfl, rfl, rfl⟩ ?_ h.checked h.numbered ⟨hl, hsent, hcounts⟩ nofun⟩
        rw [hpc]
        exact List.Sublist.refl _
      · cases hs
  case packetizing t =>
    -- a configuration that is checked makes one more shot of the line
    obtain ⟨hl, hsent, hcounts⟩ := houtgoing
    split at hs
    · next hcheck =>
      cases hs
      refine ⟨l ++ [⟨t, s.packetSequence, r.samples⟩], h.sender_on ⟨rfl, rfl, rfl⟩ ?_
        (List.forall_mem_append.mpr ⟨h.checked, ?_⟩) (numbered_concat h.numbered ?_) ?_ nofun⟩
      · rw [hpc]
        simp [Sender.waiting]
      · intro shot hshot
        rw [List.mem_singleton.mp hshot]
        exact hcheck
      · rw [Nat.zero_add, ← hsent]
        exact hprogress
      · refine ⟨by rw [hl]; rfl, ?_, hcounts⟩
        rw [List.flatMap_append, ← hsent, List.flatMap_singleton]
        rfl
    · cases hs
      refine ⟨l, h.sender_on ⟨rfl, rfl, rfl⟩ ?_ h.checked h.numbered
        ⟨by rw [hl]; exact List.prefix_refl _, .inl (by rw [← hsent]; exact List.prefix_refl _)⟩
        nofun⟩
      rw [hpc]
      simp [Sender.waiting]
  case sending shot left =>
    -- the packets of the shot move one by one from what is left to what is sent
    obtain ⟨hl, hsent, hcounts⟩ := houtgoing
    cases left with
    | nil =>
      cases hs
      rw [List.append_nil] at hsent
      refine ⟨l, h.sender_on ⟨rfl, rfl, rfl⟩ ?_ h.checked h.numbered
        ⟨hl, hsent, s.shots, rfl, hcounts⟩ nofun⟩
      rw [hpc]
      exact List.Sublist.refl _
    | cons p left =>
      dsimp only at hs
      split at hs
      · cases hs
        refine ⟨l, h.sender_on ⟨rfl, rfl, rfl⟩ ?_ h.checked h.numbered
          ⟨hl, ?_, hcounts⟩ nofun⟩
        · rw [hpc]
          exact List.Sublist.refl _
        · rw [← hsent]
          exact List.append_assoc _ [p] left
      · cases hs
        refine ⟨l, h.sender_on ⟨rfl, rfl, rfl⟩ ?_ h.checked h.numbered
          ⟨by rw [hl]; exact List.prefix_append _ _, .inl ?_⟩ nofun⟩
        · rw [hpc]
          exact List.Sublist.refl _
        · rw [← hsent]
          exact List.prefix_append _ _
  case releasing shot =>
    -- the bank is counted only after its release
    obtain ⟨hl, hsent, before, hshots, hcounts⟩ := houtgoing
    split at hs
    · cases hs
      refine ⟨l, h.sender_on ⟨rfl, rfl, rfl⟩ ?_ h.checked h.numbered ⟨hl, hsent, ?_, ?_⟩ nofun⟩
      · rw [hpc]
        exact List.Sublist.refl _
      · show s.transmittedShots + 1 = s.shots.length
        rw [show s.shots = before ++ [shot] from hshots, List.length_append]
        exact congrArg (· + 1) hcounts.1
      · show shot.token.bank.triggerShotId = (s.shots.getLast?.map _).getD 0
        rw [show s.shots = before ++ [shot] from hshots, List.getLast?_concat]
        rfl
    · cases hs
      refine ⟨l, h.sender_on ⟨rfl, rfl, rfl⟩ ?_ h.checked h.numbered
        ⟨by rw [hl]; exact List.prefix_refl _, .inl (by rw [← hsent]; exact List.prefix_refl _)⟩
        nofun⟩
      rw [hpc]
      exact List.Sublist.refl _
  case discarding t =>
    cases hs
    refine ⟨l, h.sender_on ⟨rfl, rfl, rfl⟩ ?_ h.checked h.numbered houtgoing nofun⟩
    rw [hpc]
    exact List.Sublist.refl _
  case drained =>
    -- the heartbeat is due only when every dequeued bank has been sent
    obtain ⟨hl, hsent, hcounts⟩ := houtgoing
    split at hs
    · cases hs
      refine ⟨l, h.sender_on ⟨rfl, rfl, rfl⟩ ?_ h.checked h.numbered ⟨hl, hsent, hcounts⟩ nofun⟩
      rw [hpc]
      exact List.Sublist.refl _
    · next hnot =>
      cases hs
      refine ⟨l, h.sender_on ⟨rfl, rfl, rfl⟩ ?_ h.checked h.numbered
        ⟨by rw [hl]; exact List.prefix_refl _, .inl (by rw [← hsent]; exact List.prefix_refl _)⟩
        fun _ => .inr (.inr ⟨?_, ?_⟩)⟩
      · rw [hpc]
        exact List.Sublist.refl _
      · exact hsound.done.mp (hsound.drained (.inl hpc)).2.1
      · rintro ⟨hcomplete, hall, hpos⟩
        refine hnot ?_
        simp only [Bool.and_eq_true, decide_eq_true_eq]
        exact ⟨⟨hcomplete, hall⟩, hpos⟩
  case heartbeat =>
    obtain ⟨hl, hsent, hcounts⟩ := houtgoing
    split at hs
    · cases hs
      refine ⟨l, h.sender_on ⟨rfl, rfl, rfl⟩ ?_ h.checked h.numbered
        ⟨by rw [hl]; exact List.prefix_refl _, .inl (by rw [← hsent]; exact List.prefix_refl _)⟩
        nofun⟩
      rw [hpc]
      exact List.Sublist.refl _
    · next hgood =>
      cases hs
      -- what is sent now ends with END_OF_STREAM in the next sequence
      have hended : Emitted.Ended c ⟨s.shots, s.sent ++ [endOfStreamPacket c.options.streamId
          c.options.runId s.lastShotId.toUInt64 s.packetSequence], s.transmittedShots,
          s.lastShotId⟩ := by
        refine ⟨hcounts, fun hzero => hgood (.inr (.inr (.inl hzero))), ?_⟩
        have hsent' : s.sent = s.shots.flatMap (Shot.packets c) := hsent.trans (by rw [hl]; rfl)
        have hsequence : s.packetSequence = .ofNat s.sent.length := by
          rw [← show s.packetSequence.toNat = s.sent.length from hprogress]
          exact (UInt64.ofNat_toNat).symm
        rw [hsequence, hsent']
      refine ⟨l, h.sender_on ⟨rfl, rfl, rfl⟩ ?_ h.checked h.numbered
        ⟨by rw [hl]; exact List.prefix_refl _, .inr ⟨hl, hended⟩⟩
        fun _ => .inr (.inl ⟨hl, hended⟩)⟩
      rw [hpc]
      exact List.Sublist.refl _
  case failing =>
    cases hs
    refine ⟨l, h.sender_on ⟨rfl, rfl, rfl⟩ ?_ h.checked h.numbered houtgoing fun _ => .inl rfl⟩
    rw [hpc]
    exact List.Sublist.refl _
  case exited => cases hs

theorem emitting_step {a : Action} (hsound : Sound c s) (h : ∃ l, Emitting c s l)
    (hs : (machine c).step s a = some s') : ∃ l, Emitting c s' l := by
  obtain ⟨l, h⟩ := h
  cases a with
  | acquisition r => exact ⟨l, emitting_acquisition hsound h hs⟩
  | sender r => exact emitting_sender hsound h hs

theorem reachable_emitting {created : Bool} (h : (machine c).Reachable (start created) s) :
    Sound c s ∧ ∃ l, Emitting c s l :=
  @Machine.Reachable.invariant _ _ _ (fun s => Sound c s ∧ ∃ l, Emitting c s l) _ _ h
    ⟨sound_start created, [], emitting_start created⟩ fun _ _ _ hs hstep =>
      ⟨sound_step hs.1 hstep, emitting_step hs.1 hs.2 hstep⟩

/-! ## The run -/

/-- What the packetizer is given for a shot. -/
def Shot.given (c : Context) (shot : Shot) : Config × Bytes := (shot.config c, shot.samples)

/-- What is computed from the configuration and the samples is the same on both sides. -/
theorem map_of_given {shots : List SentShot} {α : Type*}
    (h : shots.map (fun t => (t.config, t.samples)) = l.map (Shot.given c))
    (f : Config × Bytes → α) :
    shots.map (fun t => f (t.config, t.samples)) = l.map fun shot => f (shot.given c) := by
  have hmap := congrArg (List.map f) h
  rw [List.map_map, List.map_map] at hmap
  exact hmap

/-- The run consists of these shots. -/
structure Carries (c : Context) (R : SentRun) (l : List Shot) : Prop where
  streamId : R.streamId = c.options.streamId
  runId : R.runId = c.options.runId
  shots : R.shots.map (fun t => (t.config, t.samples)) = l.map (Shot.given c)

namespace Carries

variable {R : SentRun}

theorem length (h : Carries c R l) : R.shots.length = l.length := by
  have hlength := congrArg List.length h.shots
  rwa [List.length_map, List.length_map] at hlength

theorem packets (h : Carries c R l) :
    R.shots.flatMap SentShot.packets = l.flatMap (Shot.packets c) := by
  rw [List.flatMap_def, List.flatMap_def]
  exact congrArg List.flatten (map_of_given h.shots fun given => given.1.shotPackets given.2)

/-- The shot at a place. -/
theorem getElem? (h : Carries c R l) {k : ℕ} {shot : Shot} (hk : l[k]? = some shot) :
    ∃ t, R.shots[k]? = some t ∧ t.config = shot.config c ∧ t.samples = shot.samples := by
  have hplace := congrArg (·[k]?) h.shots
  simp only [List.getElem?_map, hk, Option.map_some] at hplace
  obtain ⟨t, ht, hgiven⟩ := Option.map_eq_some_iff.mp hplace
  exact ⟨t, ht, congrArg Prod.fst hgiven, congrArg Prod.snd hgiven⟩

end Carries

/-- Shots that the packetizer accepts. -/
theorem exists_shots (h : ∀ shot ∈ l, (shot.config c).check shot.samples = .ok ()) :
    ∃ shots : List SentShot,
      shots.map (fun t => (t.config, t.samples)) = l.map (Shot.given c) := by
  induction l with
  | nil => exact ⟨[], rfl⟩
  | cons shot l ih =>
    obtain ⟨hshot, hrest⟩ := List.forall_mem_cons.mp h
    obtain ⟨shots, hshots⟩ := ih hrest
    refine ⟨⟨shot.config c, shot.samples, hshot⟩ :: shots, ?_⟩
    rw [List.map_cons, List.map_cons, hshots]
    rfl

theorem Numbered.chain {n : ℕ} (h : Numbered c n l) :
    l.IsChain fun a b => b.initialSequence.toNat =
      a.initialSequence.toNat + (a.packets c).length := by
  induction l generalizing n with
  | nil => exact .nil
  | cons a l ih =>
    cases l with
    | nil => exact .singleton _
    | cons b l => exact .cons_cons (by rw [h.1, h.2.1]) (ih h.2)

/-- The shots begun are a run. -/
theorem Emitting.carries (h : Emitting c s l) : ∃ R : SentRun, Carries c R l := by
  obtain ⟨shots, hshots⟩ := exists_shots h.checked
  have hidentity : ∀ t ∈ shots, t.config.streamId = c.options.streamId ∧
      t.config.runId = c.options.runId := by
    intro t ht
    have hmem : (t.config, t.samples) ∈ l.map (Shot.given c) := by
      rw [← hshots]
      exact List.mem_map_of_mem ht
    obtain ⟨shot, -, hgiven⟩ := List.mem_map.mp hmem
    rw [← show shot.config c = t.config from congrArg Prod.fst hgiven]
    exact ⟨rfl, rfl⟩
  have hids : shots.Pairwise fun a b => a.shotId < b.shotId := by
    have htokens := List.pairwise_map.mp
      (h.line.ordered.sublist ((List.sublist_append_left _ _).trans (List.sublist_append_left _ _)))
    have hl : (l.map fun shot => (shot.given c).1.shotId.toNat).Pairwise (· < ·) := by
      refine List.pairwise_map.mpr (htokens.imp fun {a b} hab => ?_)
      show a.token.bank.triggerShotId.toUInt64.toNat < b.token.bank.triggerShotId.toUInt64.toNat
      rw [UInt32.toNat_toUInt64, UInt32.toNat_toUInt64]
      exact UInt32.lt_iff_toNat_lt.mp hab.shotId
    rw [← map_of_given hshots fun given => given.1.shotId.toNat] at hl
    exact List.pairwise_map.mp hl
  have hsequences : shots.IsChain fun a b => b.firstSequence = a.nextSequence := by
    have hl : (l.map (Shot.given c)).IsChain fun a b => b.1.initialSequence.toNat =
        a.1.initialSequence.toNat + (a.1.shotPackets a.2).length :=
      (List.isChain_map _).mpr h.numbered.chain
    rw [← hshots, List.isChain_map] at hl
    refine hl.imp fun a b hab => ?_
    rw [a.nextSequence_eq]
    exact hab
  exact ⟨⟨c.options.streamId, c.options.runId, shots, hidentity, hids, hsequences⟩,
    rfl, rfl, hshots⟩

/-- The datagrams of a run. -/
theorem datagrams_sent (R : SentRun) : R.sent.map R.datagram =
    (R.shots.flatMap SentShot.packets ++ [R.heartbeat]).map Packet.datagram := by
  have hparts : (List.range R.shots.length).map (R.feed.parts ·) =
      R.shots.map SentShot.packets := by
    refine List.ext_getElem (by simp) fun k hk hk' => ?_
    rw [List.length_map] at hk'
    rw [List.getElem_map, List.getElem_map, List.getElem_range]
    exact SentRun.parts_eq (List.getElem?_eq_getElem hk')
  unfold SentRun.sent
  have hpackets : R.shots.flatMap SentShot.packets =
      (List.range R.shots.length).flatMap (R.feed.parts ·) := by
    rw [List.flatMap_def, ← hparts, ← List.flatMap_def]
  rw [List.map_append, List.map_append, hpackets, List.map_flatMap, List.map_flatMap]
  refine congrArg (· ++ _) (congrArg (List.flatMap · _) (funext fun k => ?_))
  unfold SentRun.shotItems
  rw [List.map_map]
  rfl

/-- After the END_OF_STREAM heartbeat all of the run was sent. -/
theorem Emitting.sent_ended (h : Emitting c s l) {R : SentRun} (hR : Carries c R l)
    (hl : l = s.shots) (hended : s.emitted.Ended c) :
    s.sent.map Packet.datagram = R.sent.map R.datagram := by
  obtain ⟨⟨-, hlast⟩, hne, hsent⟩ := hended
  rw [show s.emitted.shots = l from hl.symm] at hlast hsent
  rw [show s.sent = _ from hsent, datagrams_sent, hR.packets]
  refine congrArg (fun p => (l.flatMap (Shot.packets c) ++ [p]).map Packet.datagram) ?_
  obtain ⟨before, shot, rfl⟩ : ∃ before shot, l = before ++ [shot] := by
    rcases List.eq_nil_or_concat l with rfl | ⟨before, shot, hconcat⟩
    · exact absurd hlast hne
    · exact ⟨before, shot, hconcat.trans (List.concat_eq_append ..)⟩
  rw [List.getLast?_concat] at hlast
  have hlast' : s.lastShotId = shot.token.bank.triggerShotId := hlast
  have hid : R.shots.getLast?.map SentShot.shotId =
      some shot.token.bank.triggerShotId.toUInt64.toNat := by
    rw [← List.getLast?_map]
    have hmap := map_of_given hR.shots fun given => given.1.shotId.toNat
    refine (congrArg List.getLast? hmap).trans ?_
    rw [List.map_append, List.map_singleton, List.getLast?_concat]
    rfl
  have hnext : R.shots.getLast?.map SentShot.nextSequence =
      some ((before ++ [shot]).flatMap (Shot.packets c)).length := by
    rw [← List.getLast?_map]
    have hmap := map_of_given hR.shots fun given => (given.1.result given.2).nextSequence
    refine (congrArg List.getLast? hmap).trans ?_
    rw [List.map_append, List.map_singleton, List.getLast?_concat, List.flatMap_append,
      List.length_append, List.flatMap_singleton]
    have hnumbered := h.numbered.last
    rw [Nat.zero_add] at hnumbered
    rw [← hnumbered]
    exact congrArg some (SentShot.nextSequence_eq
      ⟨shot.config c, shot.samples,
        h.checked shot (List.mem_append_right _ (List.mem_singleton_self _))⟩)
  unfold SentRun.heartbeat
  rw [hid, hnext, hR.streamId, hR.runId, Option.getD_some, Option.getD_some, UInt64.ofNat_toNat]
  exact congrArg (endOfStreamPacket _ _ ·.toUInt64 _) hlast'

/-- Wherever the sender is, what was sent is a beginning of the shots begun, unless the run was
ended. -/
theorem Emitting.begun (h : Emitting c s l) : s.shots <+: l ∧
    (s.sent <+: l.flatMap (Shot.packets c) ∨ l = s.shots ∧ s.emitted.Ended c) := by
  have houtgoing := h.outgoing
  have hwhole : l = s.shots → s.sent = l.flatMap (Shot.packets c) → s.shots <+: l ∧
      (s.sent <+: l.flatMap (Shot.packets c) ∨ l = s.shots ∧ s.emitted.Ended c) := by
    intro hl hsent
    refine ⟨?_, .inl ?_⟩
    · rw [hl]
    · rw [hsent]
  cases hpc : s.sender <;> rw [hpc] at houtgoing
  case pop | packetizing | drained | heartbeat => exact hwhole houtgoing.1 houtgoing.2.1
  case releasing => exact hwhole houtgoing.1 houtgoing.2.1
  case sending shot left =>
    refine ⟨?_, .inl ?_⟩
    · rw [houtgoing.1]
      exact List.prefix_append _ _
    · rw [← houtgoing.2.1]
      exact List.prefix_append _ _
  case discarding | failing | exited => exact houtgoing

/-! ## Any interleaving -/

/-- The result of `run_sustained` after both threads are gone: whether the status of the pool could
be read, whether a stop was requested, and whether the pool could be stopped. -/
def State.success (s : State) (poolStatus stop poolStop : Bool) : Bool :=
  !(s.failed || !poolStatus) && !stop && s.acquisitionComplete && 0 < s.acquiredShots &&
    s.transmittedShots = s.acquiredShots && poolStop

/-- The shots begun are those of the run, and what was sent is a beginning of it. -/
structure Streams (c : Context) (s : State) (R : SentRun) (l : List Shot) : Prop where
  carries : Carries c R l
  good : ∀ shot ∈ l, c.validateBank shot.token.bank = true
  ordered : (l.map Shot.token).Pairwise Token.Before
  shots : s.shots <+: l
  sent : s.sent.map Packet.datagram <+: R.sent.map R.datagram

/-- All of the run was sent, and there is a shot for every bank. -/
structure Whole (s : State) (R : SentRun) (l : List Shot) : Prop where
  sent : s.sent.map Packet.datagram = R.sent.map R.datagram
  shots : s.shots = l
  banks : l.map (·.token.id) = List.range s.dequeued
  acquired : s.acquiredShots = s.dequeued
  transmitted : s.transmittedShots = s.dequeued
  released : ∀ id < s.dequeued, id ∈ s.released

theorem Emitting.streams (h : Emitting c s l) {R : SentRun} (hR : Carries c R l) :
    Streams c s R l where
  carries := hR
  good shot hshot := h.line.valid _
    (List.mem_append_left _ (List.mem_append_left _ (List.mem_map_of_mem hshot)))
  ordered := h.line.ordered.sublist
    ((List.sublist_append_left _ _).trans (List.sublist_append_left _ _))
  shots := h.begun.1
  sent := by
    rcases h.begun.2 with hbegun | ⟨hl, hended⟩
    · rw [datagrams_sent, hR.packets]
      exact (hbegun.trans (List.prefix_append _ _)).map _
    · rw [h.sent_ended hR hl hended]

theorem Emitting.whole (h : Emitting c s l) (hsound : Sound c s) {R : SentRun}
    (hR : Carries c R l) (hl : l = s.shots) (hended : s.emitted.Ended c) : Whole s R l := by
  have hbeat : endOfStreamPacket c.options.streamId c.options.runId s.lastShotId.toUInt64
      (.ofNat (s.shots.flatMap (Shot.packets c)).length) ∈ s.sent := by
    rw [show s.sent = _ from hended.sent]
    exact List.mem_append_right _ (List.mem_singleton_self _)
  have hconcluded := hsound.heartbeat _ hbeat rfl
  have hbanks : l.map (·.token.id) = List.range s.dequeued := by
    have hordered : (l.map (·.token.id)).Pairwise (· < ·) :=
      List.pairwise_map.mpr ((List.pairwise_map.mp (h.streams hR).ordered).imp Token.Before.id)
    refine hordered.eq_of_mem_iff List.pairwise_lt_range fun id => ?_
    rw [List.mem_range]
    constructor
    · intro hid
      obtain ⟨shot, hshot, rfl⟩ := List.mem_map.mp hid
      have htested := h.line.tested _
        (List.mem_append_left _ (List.mem_append_left _ (List.mem_map_of_mem hshot)))
      unfold State.tested at htested
      rw [hconcluded.acquisition] at htested
      exact htested
    · intro hid
      obtain ⟨⟨shot, hshot, hshotId, -⟩, -⟩ := hconcluded.whole id hid
      rw [hl]
      exact List.mem_map.mpr ⟨shot, hshot, hshotId⟩
  have hlength : l.length = s.dequeued := by
    have hlength := congrArg List.length hbanks
    rwa [List.length_map, List.length_range] at hlength
  exact {
    sent := h.sent_ended hR hl hended
    shots := hl.symm
    banks := hbanks
    acquired := hconcluded.acquired.symm
    transmitted := hended.counts.1.trans ((congrArg List.length hl).symm.trans hlength)
    released := fun id hid => (hconcluded.whole id hid).2 }

/-- A success is the whole run. -/
theorem Emitting.whole_of_success (h : Emitting c s l) (hsound : Sound c s) {R : SentRun}
    (hR : Carries c R l) (hsender : s.sender = .exited) {poolStatus stop poolStop : Bool}
    (hsuccess : s.success poolStatus stop poolStop = true) : Whole s R l := by
  simp only [State.success, Bool.and_eq_true, Bool.not_eq_true', Bool.or_eq_false_iff,
    decide_eq_true_eq] at hsuccess
  obtain ⟨⟨⟨⟨⟨⟨hfailed, -⟩, -⟩, hcomplete⟩, hpos⟩, hall⟩, -⟩ := hsuccess
  rcases h.outcome hsender with hno | ⟨hl, hended⟩ | ⟨-, hnot⟩
  · rw [hfailed] at hno
    cases hno
  · exact h.whole hsound hR hl hended
  · exact absurd ⟨hcomplete, hall, by rw [hall]; exact hpos⟩ hnot

/-- Whatever the interleaving of the two threads, and whatever fails in it, the datagrams that were
sent are the first ones of a run of good banks in the order in which they were dequeued. When the
sender is gone and the run is reported as a success, they are all of it, and every bank that was
dequeued has its shot and was released. -/
theorem streamer_sends_run {created : Bool} (h : (machine c).Reachable (start created) s) :
    ∃ (R : SentRun) (l : List Shot), Streams c s R l ∧
      ∀ poolStatus stop poolStop, s.sender = .exited →
        s.success poolStatus stop poolStop = true → Whole s R l := by
  obtain ⟨hsound, l, hl⟩ := reachable_emitting h
  obtain ⟨R, hR⟩ := hl.carries
  exact ⟨R, l, hl.streams hR, fun _ _ _ hsender hsuccess =>
    hl.whole_of_success hsound hR hsender hsuccess⟩

theorem streamer_sends_run_oneWord : ∃ s R,
    (machine oneWord).run (start true) oneWordRun = some s ∧
      s.sent.map Packet.datagram = (SentRun.sent R).map (SentRun.datagram R) := by
  have hrun : ((machine oneWord).run (start true) oneWordRun).any (fun s =>
      decide (s.sender = .exited ∧ s.success true false true = true)) =
      true := by
    decide +kernel
  obtain ⟨s, hs, hfacts⟩ := (Option.any_eq_true _ _).mp hrun
  obtain ⟨hsender, hsuccess⟩ := of_decide_eq_true hfacts
  obtain ⟨R, l, -, hwhole⟩ := streamer_sends_run ⟨_, hs⟩
  exact ⟨s, R, hs, (hwhole _ _ _ hsender hsuccess).sent⟩

end QCrate.Streamer
