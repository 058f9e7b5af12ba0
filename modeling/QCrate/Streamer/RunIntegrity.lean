import QCrate.Streamer.Threads

/-!
# Integrity of a sustained run

* `Sound` — what holds between the steps of the two threads.
* `sound_acquisition`, `sound_sender` — a step of either thread keeps it.
* `sender_run_integrity` — packet sequences, releases, and the END_OF_STREAM heartbeat.
-/

namespace QCrate.Streamer

open QCrate.Lib QCrate.DataPlane

/-! ## Banks -/

/-- The bank a thread has in its hands. -/
def Acquisition.held : Acquisition → List ℕ
  | .checking t | .waitIdle t | .pushing t | .discarding t | .dropping t => [t.id]
  | _ => []

def Sender.held : Sender → List ℕ
  | .packetizing t | .discarding t => [t.id]
  | .sending shot _ | .releasing shot => [shot.token.id]
  | _ => []

variable {c : Context} {s s' : State} {r : Result}

/-- All packets of the shot in a bank have been sent. -/
def State.Transmitted (c : Context) (s : State) (id : ℕ) : Prop :=
  ∃ shot ∈ s.shots, shot.token.id = id ∧ ∀ p ∈ shot.packets c, p ∈ s.sent

/-- A failure has been recorded, or a thread records one with its next step. -/
def State.Doomed (s : State) : Prop :=
  s.failed = true ∨ s.acquisition = .failing ∨ s.sender = .failing

/-! ## The invariant -/

/-- How far the sender is: the next sequence is the number of packets sent, and in a shot what is
left continues what was sent. -/
def Progress (c : Context) (sent : List Packet) (packetSequence : UInt64) : Sender → Prop
  | .pop | .packetizing _ | .drained | .heartbeat => packetSequence.toNat = sent.length
  | .sending shot left =>
    (shot.config c).check shot.samples = .ok () ∧
    left.map (·.header.packetSequence) = List.range' sent.length left.length ∧
    sent.length + left.length = shot.initialSequence.toNat + (shot.packets c).length ∧
    (∀ p ∈ left, p ∈ shot.packets c) ∧ ∀ p ∈ shot.packets c, p ∈ sent ∨ p ∈ left
  | .releasing shot =>
    (shot.config c).check shot.samples = .ok () ∧
    sent.length = shot.initialSequence.toNat + (shot.packets c).length
  | .discarding _ | .failing | .exited => True

/-- The sender has the shot whose packets are all sent. -/
def Sender.Finished (shots : List Shot) : Sender → Prop
  | .releasing shot => shot ∈ shots
  | _ => True

/-- Every dequeued bank but the one in the hands of the thread is counted, as long as the thread
is in its loop. -/
def Counted (dequeued acquiredShots : ℕ) (complete : Bool) : Acquisition → Prop
  | .requireIdle | .loop | .waitArmed | .armStart | .dequeue =>
    dequeued = acquiredShots ∧ complete = false
  | .checking _ | .waitIdle _ | .pushing _ | .counting =>
    dequeued = acquiredShots + 1 ∧ complete = false
  | .discarding _ | .failing | .dropping _ => complete = false
  | .finishing | .exited => complete = true → dequeued = acquiredShots

/-- What the END_OF_STREAM heartbeat is evidence of. -/
structure Concluded (c : Context) (s : State) : Prop where
  complete : s.acquisitionComplete = true
  acquired : s.dequeued = s.acquiredShots
  acquisition : s.acquisition = .exited
  sender : s.sender = .exited
  failed : s.failed = false
  whole : ∀ id < s.dequeued, s.Transmitted c id ∧ id ∈ s.released

structure Sound (c : Context) (s : State) : Prop where
  sequences : s.sent.map (·.header.packetSequence) = List.range s.sent.length
  progress : Progress c s.sent s.packetSequence s.sender
  /-- A dequeued bank is with one thread, or in the queue, or released. -/
  owned : ∀ id, s.acquisition.held.count id + (s.queue.map Token.id).count id +
    s.sender.held.count id + s.released.count id = if id < s.dequeued then 1 else 0
  transmitted : ∀ shot ∈ s.shots, ∀ p ∈ shot.packets c, p ∈ s.sent
  finished : s.sender.Finished s.shots
  released : ∀ id ∈ s.released, s.Transmitted c id ∨ s.Doomed
  dropping : ∀ t, s.acquisition = .dropping t → s.failed = true
  counted : Counted s.dequeued s.acquiredShots s.acquisitionComplete s.acquisition
  done : s.producerDone = true ↔ s.acquisition = .exited
  /-- After the queue is found drained nobody but the sender moves. -/
  drained : s.sender = .drained ∨ s.sender = .heartbeat →
    s.queue = [] ∧ s.producerDone = true ∧ s.failed = false
  beating : s.sender = .heartbeat → s.acquisitionComplete = true
  heartbeat : ∀ p ∈ s.sent, p.header.packetType = .heartbeat → Concluded c s

theorem sound_start (created : Bool) : Sound c (start created) where
  sequences := rfl
  progress := rfl
  owned id := by cases created <;> rfl
  transmitted := nofun
  finished := trivial
  released := nofun
  dropping t h := by cases created <;> cases h
  counted := by
    cases created
    · rfl
    · exact ⟨rfl, rfl⟩
  done := by cases created <;> exact ⟨nofun, nofun⟩
  drained := by rintro (h | h) <;> cases h
  beating := nofun
  heartbeat := nofun

/-! ## A step of the acquisition thread -/

/-- What the thread leaves as it is. -/
structure AcquisitionFrame (s s' : State) : Prop where
  sender : s'.sender = s.sender
  sent : s'.sent = s.sent
  shots : s'.shots = s.shots
  packetSequence : s'.packetSequence = s.packetSequence
  doomed : s.Doomed → s'.Doomed

/-- A step of the thread touches its own position, the queue and the counts of the banks. -/
structure AcquisitionMoves (s s' : State) : Prop where
  frame : AcquisitionFrame s s'
  owned : ∀ id, s'.acquisition.held.count id + (s'.queue.map Token.id).count id +
    s'.released.count id + (if id < s.dequeued then 1 else 0) =
      s.acquisition.held.count id + (s.queue.map Token.id).count id +
    s.released.count id + (if id < s'.dequeued then 1 else 0)
  released : ∀ id ∈ s'.released, id ∈ s.released ∨ s'.Doomed
  dropping : ∀ t, s'.acquisition = .dropping t → s'.failed = true
  counted : Counted s'.dequeued s'.acquiredShots s'.acquisitionComplete s'.acquisition
  done : s'.producerDone = true ↔ s'.acquisition = .exited

theorem Sound.of_moves (h : Sound c s) (hm : AcquisitionMoves s s')
    (hrun : s.acquisition ≠ .exited) : Sound c s' where
  sequences := by
    rw [hm.frame.sent]
    exact h.sequences
  progress := by
    rw [hm.frame.sent, hm.frame.packetSequence, hm.frame.sender]
    exact h.progress
  owned id := by
    have hbefore := h.owned id
    have hafter := hm.owned id
    rw [hm.frame.sender]
    omega
  transmitted := by
    rw [hm.frame.shots, hm.frame.sent]
    exact h.transmitted
  finished := by
    rw [hm.frame.shots, hm.frame.sender]
    exact h.finished
  released id hid := by
    rcases hm.released id hid with hold | hdoomed
    · rcases h.released id hold with ⟨shot, hshot, hwhole⟩ | hdoomed
      · left
        refine ⟨shot, ?_, ?_⟩
        · rw [hm.frame.shots]
          exact hshot
        · rw [hm.frame.sent]
          exact hwhole
      · exact .inr (hm.frame.doomed hdoomed)
    · exact .inr hdoomed
  dropping := hm.dropping
  counted := hm.counted
  done := hm.done
  -- when the queue was found drained, the thread had exited
  drained hsender := by
    rw [hm.frame.sender] at hsender
    exact absurd (h.done.mp (h.drained hsender).2.1) hrun
  beating hsender := by
    rw [hm.frame.sender] at hsender
    exact absurd (h.done.mp (h.drained (.inr hsender)).2.1) hrun
  heartbeat p hp hbeat := by
    rw [hm.frame.sent] at hp
    exact absurd (h.heartbeat p hp hbeat).acquisition hrun

/-- A step that only moves the thread on, with the same bank in its hands. -/
theorem moves_on (h : Sound c s) {next : Acquisition} {previous : Option (UInt32 × UInt64)}
    (hheld : next.held = s.acquisition.held) (hfailing : s.acquisition ≠ .failing)
    (hrun : s.acquisition ≠ .exited) (hnext : next ≠ .exited)
    (hdropping : ∀ t, next = .dropping t → s.failed = true)
    (hcounted : Counted s.dequeued s.acquiredShots s.acquisitionComplete next) :
    AcquisitionMoves s { s with acquisition := next, previous := previous } where
  frame := ⟨rfl, rfl, rfl, rfl, by
    rintro (hfailed | hbad | hsender)
    · exact .inl hfailed
    · exact absurd hbad hfailing
    · exact .inr (.inr hsender)⟩
  owned id := by
    dsimp only
    rw [hheld]
  released id hid := .inl hid
  dropping := hdropping
  counted := hcounted
  done := ⟨fun hdone => absurd (h.done.mp hdone) hrun, fun hexit => absurd hexit hnext⟩

/-- A release call; the thread goes on to record a failure that is recorded or is recorded next. -/
theorem moves_release (h : Sound c s) {t : Token} {next : Acquisition}
    (hheld : s.acquisition.held = [t.id]) (hnone : next.held = [])
    (hdoomed : State.Doomed { s with acquisition := next, released := s.released ++ [t.id] })
    (hrun : s.acquisition ≠ .exited) (hnext : next ≠ .exited)
    (hdropping : ∀ t, next ≠ .dropping t)
    (hcounted : Counted s.dequeued s.acquiredShots s.acquisitionComplete next) :
    AcquisitionMoves s { s with acquisition := next, released := s.released ++ [t.id] } where
  frame := ⟨rfl, rfl, rfl, rfl, fun _ => hdoomed⟩
  owned id := by
    dsimp only
    rw [hheld, hnone, List.count_append, List.count_nil]
    omega
  released _ _ := .inr hdoomed
  dropping u hu := absurd hu (hdropping u)
  counted := hcounted
  done := ⟨fun hdone => absurd (h.done.mp hdone) hrun, fun hexit => absurd hexit hnext⟩

theorem moves_acquisition (h : Sound c s) (hs : acquisitionStep c s r = some s') :
    AcquisitionMoves s s' := by
  have hcounted := h.counted
  unfold acquisitionStep at hs
  cases hpc : s.acquisition <;> rw [hpc] at hs hcounted <;> dsimp only at hs
  case requireIdle | waitArmed | armStart =>
    cases hs
    cases r.ok
    · exact moves_on h (by rw [hpc]; rfl) (by simp [hpc]) (by simp [hpc]) (by simp) (by simp)
        hcounted.2
    · exact moves_on h (by rw [hpc]; rfl) (by simp [hpc]) (by simp [hpc]) (by simp) (by simp)
        hcounted
  case loop =>
    split at hs
    · -- the run is complete: every dequeued bank was pushed
      cases hs
      exact {
        frame := ⟨rfl, rfl, rfl, rfl, by simp [State.Doomed, hpc]⟩
        owned := fun id => by simp [hpc, Acquisition.held]
        released := fun id hid => .inl hid
        dropping := nofun
        counted := fun _ => hcounted.1
        done := ⟨fun hdone => absurd (h.done.mp hdone) (by simp [hpc]), nofun⟩ }
    split at hs
    · cases hs
      exact moves_on h (by rw [hpc]; rfl) (by simp [hpc]) (by simp [hpc]) (by simp) (by simp)
        fun hcomplete => by
          rw [hcounted.2] at hcomplete
          cases hcomplete
    · cases hs
      exact moves_on h (by rw [hpc]; rfl) (by simp [hpc]) (by simp [hpc]) (by simp) (by simp)
        hcounted
  case dequeue =>
    -- the token moves from the pool to the thread
    split at hs
    · cases hs
      exact {
        frame := ⟨rfl, rfl, rfl, rfl, by simp [State.Doomed, hpc]⟩
        owned := fun id => by
          simp only [hpc, Acquisition.held, List.count_nil, List.count_singleton, beq_iff_eq]
          split <;> split <;> split <;> omega
        released := fun id hid => .inl hid
        dropping := nofun
        counted := ⟨by rw [hcounted.1], hcounted.2⟩
        done := ⟨fun hdone => absurd (h.done.mp hdone) (by simp [hpc]), nofun⟩ }
    · cases hs
      exact moves_on h (by rw [hpc]; rfl) (by simp [hpc]) (by simp [hpc]) (by simp) (by simp)
        hcounted.2
  case checking t =>
    split at hs
    · cases hs
      exact moves_on h (by rw [hpc]; rfl) (by simp [hpc]) (by simp [hpc]) (by simp) (by simp)
        hcounted
    · cases hs
      exact moves_on h (by rw [hpc]; rfl) (by simp [hpc]) (by simp [hpc]) (by simp) (by simp)
        hcounted.2
  case waitIdle t =>
    cases hs
    cases r.ok
    · exact moves_on h (by rw [hpc]; rfl) (by simp [hpc]) (by simp [hpc]) (by simp) (by simp)
        hcounted.2
    · exact moves_on h (by rw [hpc]; rfl) (by simp [hpc]) (by simp [hpc]) (by simp) (by simp)
        hcounted
  case pushing t =>
    -- and from the thread to the queue, unless the other thread has failed
    split at hs
    · next hfailed =>
      cases hs
      exact moves_on h (by rw [hpc]; rfl) (by simp [hpc]) (by simp [hpc]) (by simp)
        (fun _ _ => hfailed) hcounted.2
    split at hs
    · cases hs
    · cases hs
      exact {
        frame := ⟨rfl, rfl, rfl, rfl, by simp [State.Doomed, hpc]⟩
        owned := fun id => by
          simp only [hpc, Acquisition.held, List.map_append, List.map_cons, List.map_nil,
            List.count_append, List.count_nil]
          omega
        released := fun id hid => .inl hid
        dropping := nofun
        counted := hcounted
        done := ⟨fun hdone => absurd (h.done.mp hdone) (by simp [hpc]), nofun⟩ }
  case counting =>
    cases hs
    exact {
      frame := ⟨rfl, rfl, rfl, rfl, by simp [State.Doomed, hpc]⟩
      owned := fun id => by simp [hpc, Acquisition.held]
      released := fun id hid => .inl hid
      dropping := nofun
      counted := hcounted
      done := ⟨fun hdone => absurd (h.done.mp hdone) (by simp [hpc]), nofun⟩ }
  case discarding t =>
    cases hs
    exact moves_release h (by rw [hpc]; rfl) rfl (.inr (.inl rfl)) (by simp [hpc]) (by simp)
      (by simp) hcounted
  case dropping t =>
    -- a bank that could not be queued is given back, and the run is doomed
    cases hs
    exact moves_release h (by rw [hpc]; rfl) rfl (.inl (h.dropping t hpc)) (by simp [hpc])
      (by simp) (by simp) fun hcomplete => by
        rw [show s.acquisitionComplete = false from hcounted] at hcomplete
        cases hcomplete
  case failing =>
    cases hs
    exact {
      frame := ⟨rfl, rfl, rfl, rfl, fun _ => .inl rfl⟩
      owned := fun id => by simp [hpc, Acquisition.held]
      released := fun id hid => .inl hid
      dropping := nofun
      counted := fun hcomplete => by
        rw [show s.acquisitionComplete = false from hcounted] at hcomplete
        cases hcomplete
      done := ⟨fun hdone => absurd (h.done.mp hdone) (by simp [hpc]), nofun⟩ }
  case finishing =>
    -- only here does the queue learn that no bank will follow
    cases hs
    exact {
      frame := ⟨rfl, rfl, rfl, rfl, by simp [State.Doomed, hpc]⟩
      owned := fun id => by simp [hpc, Acquisition.held]
      released := fun id hid => .inl hid
      dropping := nofun
      counted := hcounted
      done := ⟨fun _ => rfl, fun _ => rfl⟩ }
  case exited => cases hs

theorem sound_acquisition (h : Sound c s) (hs : acquisitionStep c s r = some s') : Sound c s' := by
  refine h.of_moves (moves_acquisition h hs) fun hexited => ?_
  rw [acquisitionStep, hexited] at hs
  cases hs

/-! ## A step of the sender thread -/

theorem Shot.not_heartbeat {shot : Shot} {p : Packet} (hp : p ∈ shot.packets c) :
    p.header.packetType ≠ .heartbeat := by
  rcases Config.mem_shotPackets hp with rfl | hdata | rfl
  · nofun
  · obtain ⟨f, o, q, -, -, -, rfl⟩ := Config.mem_dataPackets hdata
    nofun
  · nofun

/-- The sequence after a shot that the packetizer accepted does not wrap. -/
theorem Shot.nextSequence_toNat {shot : Shot}
    (h : (shot.config c).check shot.samples = .ok ()) :
    (UInt64.ofNat ((shot.config c).result shot.samples).nextSequence).toNat =
      shot.initialSequence.toNat + (shot.packets c).length := by
  have hnext : ((shot.config c).result shot.samples).nextSequence =
      shot.initialSequence.toNat + (shot.packets c).length := by
    rw [Shot.packets, Config.length_shotPackets]
    simp only [Config.result, Shot.config, Context.profile]
    omega
  have hle : shot.initialSequence.toNat + (shot.packets c).length ≤ uint64Max :=
    Config.sequence_lt (Config.accepts_of_check h)
  rw [hnext, UInt64.toNat_ofNat']
  exact Nat.mod_eq_of_lt (lt_of_le_of_lt hle (by decide))

/-- A packet with the next sequence keeps the sequences consecutive. -/
theorem sequences_append {sent : List Packet} {p : Packet}
    (h : sent.map (·.header.packetSequence) = List.range sent.length)
    (hp : p.header.packetSequence = sent.length) :
    (sent ++ [p]).map (·.header.packetSequence) = List.range (sent ++ [p]).length := by
  rw [List.map_append, h, List.length_append, List.length_singleton, List.range_succ,
    List.map_singleton, hp]

/-- A step that moves the sender on, at most with a bank of the queue. -/
theorem Sound.sender_on (h : Sound c s) {next : Sender} {queue : List Token}
    (hrun : s.sender ≠ .exited) (hfailing : s.sender ≠ .failing)
    (hprogress : Progress c s.sent s.packetSequence next)
    (howned : ∀ id, (queue.map Token.id).count id + next.held.count id =
      (s.queue.map Token.id).count id + s.sender.held.count id)
    (hfinished : next.Finished s.shots)
    (hdrained : next = .drained ∨ next = .heartbeat →
      queue = [] ∧ s.producerDone = true ∧ s.failed = false)
    (hbeating : next = .heartbeat → s.acquisitionComplete = true) :
    Sound c { s with sender := next, queue := queue } where
  sequences := h.sequences
  progress := hprogress
  owned id := by
    have hbefore := h.owned id
    have hmoved := howned id
    dsimp only
    omega
  transmitted := h.transmitted
  finished := hfinished
  released id hid := by
    rcases h.released id hid with hwhole | hfailed | hacquisition | hsender
    · exact .inl hwhole
    · exact .inr (.inl hfailed)
    · exact .inr (.inr (.inl hacquisition))
    · exact absurd hsender hfailing
  dropping := h.dropping
  counted := h.counted
  done := h.done
  drained := hdrained
  beating := hbeating
  heartbeat p hp hbeat := absurd (h.heartbeat p hp hbeat).sender hrun

/-- A release call of the sender. -/
theorem Sound.sender_release (h : Sound c s) {t : Token} {next : Sender} {sequence : UInt64}
    {transmitted : ℕ} {last : UInt32} (hheld : s.sender.held = [t.id]) (hrun : s.sender ≠ .exited)
    (hprogress : Progress c s.sent sequence next) (hnext : next = .pop ∨ next = .failing)
    (hwhole : next = .pop → s.Transmitted c t.id) :
    Sound c { s with
      sender := next, released := s.released ++ [t.id], packetSequence := sequence
      transmittedShots := transmitted, lastShotId := last } where
  sequences := h.sequences
  progress := hprogress
  owned id := by
    have hbefore := h.owned id
    have hnone : next.held = [] := by rcases hnext with rfl | rfl <;> rfl
    rw [hheld] at hbefore
    simp only [hnone, List.count_append, List.count_nil]
    omega
  transmitted := h.transmitted
  finished := by rcases hnext with rfl | rfl <;> trivial
  released id hid := by
    rcases List.mem_append.mp hid with hold | hthis
    · rcases h.released id hold with hdone | hfailed | hacquisition | hsender
      · exact .inl hdone
      · exact .inr (.inl hfailed)
      · exact .inr (.inr (.inl hacquisition))
      · rw [hsender] at hheld
        cases hheld
    · rw [List.mem_singleton] at hthis
      subst hthis
      rcases hnext with rfl | rfl
      · exact .inl (hwhole rfl)
      · exact .inr (.inr (.inr rfl))
  dropping := h.dropping
  counted := h.counted
  done := h.done
  drained := by rcases hnext with rfl | rfl <;> (rintro (hno | hno) <;> cases hno)
  beating hno := by rcases hnext with rfl | rfl <;> cases hno
  heartbeat p hp hbeat := absurd (h.heartbeat p hp hbeat).sender hrun

/-- A packet of a shot leaves. -/
theorem sound_send (h : Sound c s) {shot : Shot} {p : Packet} {left : List Packet}
    (hpc : s.sender = .sending shot (p :: left)) :
    Sound c { s with sender := .sending shot left, sent := s.sent ++ [p] } := by
  have hprogress := h.progress
  rw [hpc] at hprogress
  obtain ⟨hcheck, hleft, hlength, hmem, hcover⟩ := hprogress
  rw [List.map_cons, List.length_cons, List.range'_succ, List.cons.injEq] at hleft
  rw [List.length_cons] at hlength
  exact {
    sequences := sequences_append h.sequences hleft.1
    progress := by
      refine ⟨hcheck, ?_, ?_, fun q hq => hmem q (List.mem_cons_of_mem _ hq), fun q hq => ?_⟩
      · rw [List.length_append, List.length_singleton]
        exact hleft.2
      · rw [List.length_append, List.length_singleton]
        omega
      · rcases hcover q hq with hsent | hq
        · exact .inl (List.mem_append_left _ hsent)
        · rcases List.mem_cons.mp hq with rfl | hq
          · exact .inl (List.mem_append_right _ (List.mem_singleton_self _))
          · exact .inr hq
    owned := fun id => by
      have hbefore := h.owned id
      rw [hpc] at hbefore
      exact hbefore
    transmitted := fun sh hsh q hq => List.mem_append_left _ (h.transmitted sh hsh q hq)
    finished := trivial
    released := fun id hid => by
      rcases h.released id hid with ⟨sh, hsh, hid, hwhole⟩ | hfailed | hacquisition | hsender
      · exact .inl ⟨sh, hsh, hid, fun q hq => List.mem_append_left _ (hwhole q hq)⟩
      · exact .inr (.inl hfailed)
      · exact .inr (.inr (.inl hacquisition))
      · rw [hpc] at hsender
        cases hsender
    dropping := h.dropping
    counted := h.counted
    done := h.done
    drained := by rintro (hno | hno) <;> cases hno
    beating := nofun
    heartbeat := fun q hq hbeat => by
      rcases List.mem_append.mp hq with hq | hq
      · have hexited := (h.heartbeat q hq hbeat).sender
        rw [hpc] at hexited
        cases hexited
      · rw [List.mem_singleton] at hq
        subst hq
        exact absurd hbeat (Shot.not_heartbeat (hmem q List.mem_cons_self)) }

/-- The last packet of a shot has left. -/
theorem sound_finish (h : Sound c s) {shot : Shot} (hpc : s.sender = .sending shot []) :
    Sound c { s with sender := .releasing shot, shots := s.shots ++ [shot] } := by
  have hprogress := h.progress
  rw [hpc] at hprogress
  obtain ⟨hcheck, -, hlength, -, hcover⟩ := hprogress
  exact {
    sequences := h.sequences
    progress := ⟨hcheck, hlength⟩
    owned := fun id => by
      have hbefore := h.owned id
      rw [hpc] at hbefore
      exact hbefore
    transmitted := fun sh hsh q hq => by
      rcases List.mem_append.mp hsh with hsh | hsh
      · exact h.transmitted sh hsh q hq
      · rw [List.mem_singleton] at hsh
        subst hsh
        exact (hcover q hq).resolve_right (List.not_mem_nil)
    finished := List.mem_append_right _ (List.mem_singleton_self _)
    released := fun id hid => by
      rcases h.released id hid with ⟨sh, hsh, hwhole⟩ | hfailed | hacquisition | hsender
      · exact .inl ⟨sh, List.mem_append_left _ hsh, hwhole⟩
      · exact .inr (.inl hfailed)
      · exact .inr (.inr (.inl hacquisition))
      · rw [hpc] at hsender
        cases hsender
    dropping := h.dropping
    counted := h.counted
    done := h.done
    drained := by rintro (hno | hno) <;> cases hno
    beating := nofun
    heartbeat := fun q hq hbeat => by
      have hexited := (h.heartbeat q hq hbeat).sender
      rw [hpc] at hexited
      cases hexited }

/-- After the queue was found drained every dequeued bank has been released, and its packets were
sent. -/
theorem Sound.all_released (h : Sound c s) (hpc : s.sender = .heartbeat) :
    ∀ id < s.dequeued, s.Transmitted c id ∧ id ∈ s.released := by
  obtain ⟨hqueue, hdone, hfailed⟩ := h.drained (.inr hpc)
  have hexited := h.done.mp hdone
  intro id hid
  have howned := h.owned id
  rw [if_pos hid, hexited, hpc, hqueue] at howned
  have hreleased : id ∈ s.released := by
    refine List.count_pos_iff.mp ?_
    have hzero : Acquisition.exited.held.count id = 0 ∧ Sender.heartbeat.held.count id = 0 ∧
        (([] : List Token).map Token.id).count id = 0 := ⟨rfl, rfl, rfl⟩
    omega
  refine ⟨(h.released id hreleased).resolve_right ?_, hreleased⟩
  rintro (hno | hno | hno)
  · rw [hfailed] at hno
    cases hno
  · rw [hexited] at hno
    cases hno
  · rw [hpc] at hno
    cases hno

/-- The END_OF_STREAM heartbeat leaves. -/
theorem sound_heartbeat (h : Sound c s) (hpc : s.sender = .heartbeat) {p : Packet}
    {sequence : UInt64} (hp : p.header.packetSequence = s.packetSequence.toNat) :
    Sound c { s with sender := .exited, sent := s.sent ++ [p], packetSequence := sequence } := by
  have hprogress := h.progress
  rw [hpc] at hprogress
  obtain ⟨-, hdone, hfailed⟩ := h.drained (.inr hpc)
  have hexited := h.done.mp hdone
  have hcomplete := h.beating hpc
  have hcounted := h.counted
  rw [hexited] at hcounted
  have hwhole : ∀ id, s.Transmitted c id → ∃ sh ∈ s.shots, sh.token.id = id ∧
      ∀ q ∈ sh.packets c, q ∈ s.sent ++ [p] := by
    rintro id ⟨sh, hsh, hid, hsent⟩
    exact ⟨sh, hsh, hid, fun q hq => List.mem_append_left _ (hsent q hq)⟩
  exact {
    sequences := sequences_append h.sequences (hp.trans hprogress)
    progress := trivial
    owned := fun id => by
      have hbefore := h.owned id
      rw [hpc] at hbefore
      exact hbefore
    transmitted := fun sh hsh q hq => List.mem_append_left _ (h.transmitted sh hsh q hq)
    finished := trivial
    released := fun id hid => by
      rcases h.released id hid with hdone | hno | hno | hno
      · exact .inl (hwhole id hdone)
      · exact .inr (.inl hno)
      · exact .inr (.inr (.inl hno))
      · rw [hpc] at hno
        cases hno
    dropping := h.dropping
    counted := h.counted
    done := h.done
    drained := by rintro (hno | hno) <;> cases hno
    beating := nofun
    heartbeat := fun _ _ _ =>
      ⟨hcomplete, hcounted hcomplete, hexited, rfl, hfailed, fun id hid =>
        ⟨hwhole id (h.all_released hpc id hid).1, (h.all_released hpc id hid).2⟩⟩ }

theorem sound_sender (h : Sound c s) (hs : senderStep c s r = some s') : Sound c s' := by
  have hprogress := h.progress
  have hfinished := h.finished
  unfold senderStep at hs
  cases hpc : s.sender <;> rw [hpc] at hs hprogress hfinished <;> dsimp only at hs
  case pop =>
    split at hs
    · cases hs
      exact h.sender_on (by simp [hpc]) (by simp [hpc]) trivial (by simp [hpc, Sender.held])
        trivial (by simp) (by simp)
    · next hfailed =>
      split at hs
      · next t rest hqueue =>
        cases hs
        refine h.sender_on (by simp [hpc]) (by simp [hpc]) hprogress (fun id => ?_) trivial
          (by simp) (by simp)
        rw [hqueue, hpc]
        simp only [List.map_cons, List.count_cons, Sender.held, List.count_nil]
        omega
      · next hqueue =>
        split at hs
        · next hdone =>
          cases hs
          exact h.sender_on (by simp [hpc]) (by simp [hpc]) hprogress
            (by simp [hpc, Sender.held]) trivial
            (fun _ => ⟨hqueue, hdone, Bool.not_eq_true _ |>.mp hfailed⟩) (by simp)
        · cases hs
  case packetizing t =>
    -- the shot starts where the sequence stands, so what is left to send fits it
    split at hs
    · next hcheck =>
      cases hs
      refine h.sender_on (by simp [hpc]) (by simp [hpc]) ⟨hcheck, ?_, ?_, fun p hp => hp,
        fun p hp => .inr hp⟩ (by simp [hpc, Sender.held]) trivial (by simp) (by simp)
      · have hseq := Config.shotPackets_sequence
          ((Shot.mk t s.packetSequence r.samples).config c) r.samples
        rw [← show s.packetSequence.toNat = s.sent.length from hprogress]
        exact hseq
      · rw [← show s.packetSequence.toNat = s.sent.length from hprogress]
    · cases hs
      exact h.sender_on (by simp [hpc]) (by simp [hpc]) trivial (by simp [hpc, Sender.held])
        trivial (by simp) (by simp)
  case sending shot left =>
    cases left with
    | nil =>
      cases hs
      exact sound_finish h hpc
    | cons p left =>
      dsimp only at hs
      split at hs
      · cases hs
        exact sound_send h hpc
      · cases hs
        exact h.sender_on (by simp [hpc]) (by simp [hpc]) trivial (by simp [hpc, Sender.held])
          trivial (by simp) (by simp)
  case releasing shot =>
    -- the sequence after the shot is the one that sender_thread goes on with
    split at hs
    · cases hs
      refine h.sender_release (by rw [hpc]; rfl) (by simp [hpc]) ?_ (.inl rfl) fun _ =>
        ⟨shot, hfinished, rfl, h.transmitted shot hfinished⟩
      exact (Shot.nextSequence_toNat hprogress.1).trans hprogress.2.symm
    · cases hs
      exact h.sender_release (by rw [hpc]; rfl) (by simp [hpc]) trivial (.inr rfl) (by simp)
  case discarding t =>
    cases hs
    exact h.sender_release (by rw [hpc]; rfl) (by simp [hpc]) trivial (.inr rfl) (by simp)
  case drained =>
    -- every other end of the run is a failure
    split at hs
    · next hall =>
      cases hs
      simp only [Bool.and_eq_true] at hall
      exact h.sender_on (by simp [hpc]) (by simp [hpc]) hprogress (by simp [hpc, Sender.held])
        trivial (fun _ => h.drained (.inl hpc)) (fun _ => hall.1.1)
    · cases hs
      exact h.sender_on (by simp [hpc]) (by simp [hpc]) trivial (by simp [hpc, Sender.held])
        trivial (by simp) (by simp)
  case heartbeat =>
    split at hs
    · cases hs
      exact h.sender_on (by simp [hpc]) (by simp [hpc]) trivial (by simp [hpc, Sender.held])
        trivial (by simp) (by simp)
    · cases hs
      exact sound_heartbeat h hpc rfl
  case failing =>
    cases hs
    exact {
      sequences := h.sequences
      progress := trivial
      owned := fun id => by
        have hbefore := h.owned id
        rw [hpc] at hbefore
        exact hbefore
      transmitted := h.transmitted
      finished := trivial
      released := fun _ _ => .inr (.inl rfl)
      dropping := fun _ _ => rfl
      counted := h.counted
      done := h.done
      drained := by rintro (hno | hno) <;> cases hno
      beating := nofun
      heartbeat := fun p hp hbeat => by
        have hexited := (h.heartbeat p hp hbeat).sender
        rw [hpc] at hexited
        cases hexited }
  case exited => cases hs

/-! ## Runs -/

theorem sound_step {a : Action} (h : Sound c s) (hs : (machine c).step s a = some s') :
    Sound c s' := by
  cases a with
  | acquisition r => exact sound_acquisition h hs
  | sender r => exact sound_sender h hs

theorem reachable_sound {created : Bool} (h : (machine c).Reachable (start created) s) :
    Sound c s :=
  h.invariant (sound_start created) fun _ _ _ => sound_step

/-- Only its last step before the end lets the sender record a failure. -/
theorem sender_frame (hfailing : s.sender ≠ .failing) (hs : senderStep c s r = some s') :
    s'.acquisition = s.acquisition ∧ s'.failed = s.failed := by
  unfold senderStep at hs
  cases hpc : s.sender <;> rw [hpc] at hs <;> dsimp only at hs
  case failing => exact absurd hpc hfailing
  case sending shot left =>
    cases left <;> dsimp only at hs
    · cases hs
      exact ⟨rfl, rfl⟩
    · split at hs <;> (cases hs; exact ⟨rfl, rfl⟩)
  case pop =>
    split at hs
    · cases hs
      exact ⟨rfl, rfl⟩
    split at hs
    · cases hs
      exact ⟨rfl, rfl⟩
    split at hs <;> cases hs
    exact ⟨rfl, rfl⟩
  case discarding =>
    cases hs
    exact ⟨rfl, rfl⟩
  case exited => cases hs
  all_goals
    split at hs <;> (cases hs; exact ⟨rfl, rfl⟩)

/-- A run that is to fail stays so. -/
theorem doomed_sender (hd : s.Doomed) (hs : senderStep c s r = some s') : s'.Doomed := by
  by_cases hfailing : s.sender = .failing
  · rw [senderStep, hfailing] at hs
    cases hs
    exact .inl rfl
  · have hkeeps : s.failed = true ∨ s.acquisition = .failing := by
      rcases hd with h | h | h
      · exact .inl h
      · exact .inr h
      · exact absurd h hfailing
    have hframe := sender_frame hfailing hs
    rcases hkeeps with h | h
    · exact .inl (hframe.2.trans h)
    · exact .inr (.inl (hframe.1.trans h))

theorem doomed_step {a : Action} (h : Sound c s ∧ s.Doomed)
    (hs : (machine c).step s a = some s') : Sound c s' ∧ s'.Doomed := by
  refine ⟨sound_step h.1 hs, ?_⟩
  cases a with
  | acquisition r => exact (moves_acquisition h.1 hs).frame.doomed h.2
  | sender r => exact doomed_sender h.2 hs

/-- When both threads are gone, a run that was to fail has failed. -/
theorem failed_of_doomed {l : List Action} (h : Sound c s) (hd : s.Doomed)
    (hrun : (machine c).run s l = some s') (hacquisition : s'.acquisition = .exited)
    (hsender : s'.sender = .exited) : s'.failed = true := by
  have hreach : (machine c).Reachable s s' := ⟨l, hrun⟩
  obtain ⟨-, hfailed | hno | hno⟩ := hreach.invariant ⟨h, hd⟩ fun _ _ _ => doomed_step
  · exact hfailed
  · rw [hacquisition] at hno
    cases hno
  · rw [hsender] at hno
    cases hno

/-- The packet sequences are consecutive from zero. A bank is released at most once, and only after
its packets were sent or when the run ends with a failure. The END_OF_STREAM heartbeat is sent only
when the acquisition is complete, nothing has failed and every dequeued bank was sent and
released. -/
theorem sender_run_integrity {created : Bool} (h : (machine c).Reachable (start created) s) :
    s.sent.map (·.header.packetSequence) = List.range s.sent.length ∧
      s.released.Nodup ∧
      (∀ id ∈ s.released, id < s.dequeued ∧
        (s.Transmitted c id ∨ ∀ l s', (machine c).run s l = some s' →
          s'.acquisition = .exited → s'.sender = .exited → s'.failed = true)) ∧
      ∀ p ∈ s.sent, p.header.packetType = .heartbeat → Concluded c s := by
  have hsound := reachable_sound h
  have hcount : ∀ id, s.released.count id ≤ 1 ∧ (id ∈ s.released → id < s.dequeued) := by
    intro id
    have howned := hsound.owned id
    split at howned
    · next hlt => exact ⟨by omega, fun _ => hlt⟩
    · refine ⟨by omega, fun hid => ?_⟩
      have := List.count_pos_iff.mpr hid
      omega
  refine ⟨hsound.sequences, List.nodup_iff_count_le_one.mpr fun id => (hcount id).1,
    fun id hid => ⟨(hcount id).2 hid, ?_⟩, hsound.heartbeat⟩
  rcases hsound.released id hid with hwhole | hdoomed
  · exact .inl hwhole
  · exact .inr fun l s' hrun => failed_of_doomed hsound hdoomed hrun

/-! ## A run of one shot -/

/-- Counter samples, one word in one frame, one shot. -/
def oneWord : Context :=
  ⟨⟨1, 1, 1, 1, 1, 0, 2, false, 1⟩, 0, 0, 7, 4096⟩

/-- The bank of the shot, and every call succeeds. -/
def oneWordResult : Result :=
  ⟨true, false, false,
    ⟨7, 1, 1, 0, 0, 4, 0, 0, 1, 1, 1, 0, 1, 1, 1, true, true, 100⟩, [0, 0, 0, 0]⟩

/-- The shot is acquired and sent, and the heartbeat follows. -/
def oneWordRun : List Action :=
  List.replicate 11 (.acquisition oneWordResult) ++ List.replicate 10 (.sender oneWordResult)

theorem sender_run_integrity_oneWord : ∃ s, (machine oneWord).run (start true) oneWordRun = some s ∧
    s.sent.length = 4 ∧ s.sent.map (·.header.packetSequence) = List.range s.sent.length ∧
    s.released = [0] ∧ Concluded oneWord s := by
  have hrun : ((machine oneWord).run (start true) oneWordRun).any (fun s =>
      decide (s.sent.length = 4 ∧ s.released = [0] ∧
        ∃ p ∈ s.sent, p.header.packetType = .heartbeat)) = true := by
    decide +kernel
  obtain ⟨s, hs, hfacts⟩ := (Option.any_eq_true _ _).mp hrun
  obtain ⟨hlength, hreleased, p, hp, hbeat⟩ := of_decide_eq_true hfacts
  have h := sender_run_integrity ⟨_, hs⟩
  exact ⟨s, hs, hlength, h.1, hreleased, h.2.2.2 p hp hbeat⟩

end QCrate.Streamer
