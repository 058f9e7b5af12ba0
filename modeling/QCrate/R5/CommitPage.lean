import QCrate.Mailbox.Run
import QCrate.R5.StreamGate

/-!
# The register pages under CONFIG_COMMIT

The stream page keeps three plain registers, the DSP page is the configuration mailbox. Before every
access of the R5 both clocks tick any number of times, other masters may read, and the stream side
may call any of its edges safe.

* `Hardware`, `hardwareBus` — the register window over the two pages.
* `Since` — what the stream side did since a state: outcomes, and the configuration they leave.
* `Still`, `Flight`, `Landed` — no commit, a commit under way, a commit that is answered.
-/

namespace QCrate.R5

open QCrate.Lib QCrate.Mailbox
open QCrate.Lib.Handshake (Phase)
open QCrate.Sequence (ApbIn)

/-! ## Time -/

/-- The mailbox with the log of what it did. -/
abbrev Page := Core × Core.Log

def Page.tick (m : Page) (e : Edges) : Page := (m.1.step e, m.2.next m.1 e)

def Page.elapse (m : Page) (l : List Edges) : Page := l.foldl Page.tick m

/-- An edge on which the other masters at most read, in the protocol of the bus. -/
def Page.unwritten (m : Page) (e : Edges) : Edges :=
  { e with
    apb := e.apb.map fun a =>
      { a with penable := a.penable && !m.1.ctrl.accessBefore, pwrite := false } }

/-- What comes before and with one register access: edges of the clocks, the stream edges at and
between its two phases, the word of a page that is not modelled, and the polls that are left. -/
structure Gap where
  idle : List Edges
  setup : Option Bool
  between : List Bool
  access : Option Bool
  word : Word
  polls : ℕ

def Gap.wait (g : Gap) (m : Page) : Page := g.idle.foldl (fun m e => m.tick (m.unwritten e)) m

/-- The mailbox when the access phase comes. -/
def Gap.setUp (g : Gap) (a : ApbIn) (m : Page) : Page :=
  ((g.wait m).tick ⟨some { a with penable := false }, g.setup⟩).elapse
    (g.between.map fun safe => ⟨none, some safe⟩)

def Gap.complete (g : Gap) (a : ApbIn) (m : Page) : Page :=
  (g.setUp a m).tick ⟨some a, g.access⟩

/-! ## The register window -/

structure Hardware where
  mailbox : Page
  frameLength : Word
  frameCount : Word
  mode : Word
  gaps : ℕ → Gap
  accesses : ℕ

/-- The page of the DSP configuration. -/
def dspPage (offset : Word) : Bool := offset >>> 12 = 3

def dspRead (offset : Word) : ApbIn := ⟨offset.setWidth 12, true, true, false, 0⟩
def dspWrite (offset value : Word) : ApbIn := ⟨offset.setWidth 12, true, true, true, value⟩

namespace Hardware

def gap (h : Hardware) : Gap := h.gaps h.accesses

def read (offset : Word) (h : Hardware) : Word × Hardware :=
  if dspPage offset then
    let m := h.gap.setUp (dspRead offset) h.mailbox
    (m.1.ctrl.regs.prdata (m.1.regsIn (dspRead offset)),
      { h with mailbox := h.gap.complete (dspRead offset) h.mailbox, accesses := h.accesses + 1 })
  else
    (if offset = streamFrameLength then h.frameLength
      else if offset = streamFrameCount then h.frameCount
      else if offset = streamMode then h.mode
      else h.gap.word,
      { h with mailbox := h.gap.wait h.mailbox, accesses := h.accesses + 1 })

def write (offset value : Word) (h : Hardware) : Hardware :=
  if dspPage offset then
    { h with
      mailbox := h.gap.complete (dspWrite offset value) h.mailbox, accesses := h.accesses + 1 }
  else
    { h with
      mailbox := h.gap.wait h.mailbox, accesses := h.accesses + 1
      frameLength := if offset = streamFrameLength then value else h.frameLength
      frameCount := if offset = streamFrameCount then value else h.frameCount
      mode := if offset = streamMode then value else h.mode }

end Hardware

def hardwareBus : Bus Hardware where
  read := Hardware.read
  write := Hardware.write
  pollsLeft h := h.gap.polls

/-! ## What happened since a state -/

/-- The configuration and the generation after some outcomes. -/
def replay : List Core.Outcome → DspConfig × Word → DspConfig × Word
  | [], s => s
  | o :: l, s => replay l (if o.accepted then (o.request, s.2 + 1) else s)

/-- Outcomes are replayed in order. -/
theorem replay_append (l l' : List Core.Outcome) (s : DspConfig × Word) :
    replay (l ++ l') s = replay l' (replay l s) := by
  induction l generalizing s with
  | nil => rfl
  | cons o l ih => exact ih _

/-- The active configuration of the stream side. -/
def Page.active (m : Page) : DspConfig × Word := (m.1.stream.active, m.1.stream.generation)

/-- The active configuration is shown as valid. -/
def Valid (m : Page) : Prop := m.1.ctrl.activeValid = true

/-- The commands and outcomes between two states of the mailbox. -/
structure Since (m₀ m : Page) (commands : List DspConfig) : Prop where
  inStage : InStage m
  valid : Valid m
  commands : m.2.commands = m₀.2.commands ++ commands
  outcomes : ∃ new, m.2.outcomes = m₀.2.outcomes ++ new ∧ m.active = replay new m₀.active

/-- Nothing has happened since now. -/
theorem since_self {m : Page} (h : InStage m) (hv : Valid m) : Since m m [] :=
  ⟨h, hv, (List.append_nil _).symm, [], (List.append_nil _).symm, rfl⟩

/-- A configuration that is valid stays so. -/
theorem Valid.tick {m : Page} (h : Valid m) (e : Edges) : Valid (m.tick e) := by
  unfold Valid Page.tick
  cases ha : e.apb with
  | none =>
    rw [Core.step_ctrl_none ha]
    exact h
  | some a =>
    rw [Core.step_ctrl ha]
    show m.1.nextTransaction.activeValid = true
    rw [← (h : m.1.ctrl.activeValid = true)]
    unfold Core.nextTransaction
    cases m.1.ctrl.regs.commitCmd && !m.1.commitBusy <;> cases m.1.receives <;>
      cases m.1.finishes <;> cases m.1.ctrl.response.data.accepted <;> rfl

theorem valid_reachable {m : Page}
    (h : Core.machine.Reachable (Core.reset, Core.Log.empty) m) : Valid m := by
  refine h.invariant (I := Valid) rfl fun m m' e hm hs => ?_
  simp only [Core.machine] at hs
  split at hs
  · cases hs
    exact hm.tick _
  · cases hs

/-- The stream side changes its configuration by the outcomes alone. -/
theorem active_tick (m : Page) (e : Edges) :
    (m.tick e).active = replay (m.1.outcomeAt e) m.active := by
  unfold Page.tick Page.active Core.outcomeAt
  cases hs : e.safe with
  | none =>
    dsimp only
    rw [Core.step_stream_none hs]
    rfl
  | some safe =>
    dsimp only
    rw [Core.step_stream hs]
    show ((m.1.nextState safe).active, (m.1.nextState safe).generation) = _
    by_cases hstate : m.1.stream.state = .evaluate
    · rw [Core.nextState_of_evaluate hstate, if_pos hstate]
      cases safe <;> rfl
    · obtain ⟨-, -, hactive, hgeneration, -⟩ := @Core.nextState_of_ne m.1 safe hstate
      rw [hactive, hgeneration, if_neg hstate]
      rfl

/-- The mailbox goes on through its stages. -/
theorem inStage_tick {m : Page} (h : InStage m) {e : Edges} (hbus : m.1.busAllows e = true) :
    InStage (m.tick e) :=
  inStage_step h (if_pos hbus)

/-- One more edge, with the command that it may bring. -/
theorem Since.tick {m₀ m : Page} {commands : List DspConfig} (h : Since m₀ m commands) {e : Edges}
    (hbus : m.1.busAllows e = true) : Since m₀ (m.tick e) (commands ++ m.1.commandAt e) where
  inStage := inStage_tick h.inStage hbus
  valid := h.valid.tick e
  commands := by
    show m.2.commands ++ m.1.commandAt e = _
    rw [h.commands, List.append_assoc]
  outcomes := by
    obtain ⟨new, hnew, hactive⟩ := h.outcomes
    refine ⟨new ++ m.1.outcomeAt e, ?_, ?_⟩
    · show m.2.outcomes ++ m.1.outcomeAt e = _
      rw [hnew, List.append_assoc]
    · rw [active_tick, hactive, replay_append]

/-- An edge without an access phase. -/
def Silent (e : Edges) : Prop := ∀ a ∈ e.apb, a.apbAccess = false

/-- An edge that does not write. -/
def Reading (e : Edges) : Prop := ∀ a ∈ e.apb, (a.apbAccess && a.pwrite) = false

theorem Silent.reading {e : Edges} (h : Silent e) : Reading e := fun a ha => by
  rw [h a ha, Bool.false_and]

/-- Without an access the protocol of the bus has nothing to ask. -/
theorem Silent.allowed {e : Edges} (h : Silent e) (c : Core) : c.busAllows e = true := by
  unfold Core.busAllows
  cases ha : e.apb with
  | none => rfl
  | some a => rw [Option.any_some, h a ha, Bool.false_and, Bool.not_false]

/-- What does not write brings no command. -/
theorem Reading.commandAt {e : Edges} (h : Reading e) (c : Core) : c.commandAt e = [] := by
  unfold Core.commandAt
  cases ha : e.apb with
  | none => rfl
  | some a =>
    dsimp only
    have hno : Regs.commits (c.regsIn a) = false := by
      unfold Regs.commits
      have hw : ((c.regsIn a).apb.apbAccess && (c.regsIn a).apb.pwrite) = false := h a ha
      rw [hw]
      rfl
    rw [if_neg (by rw [hno]; decide)]

/-- The other masters at most read. -/
theorem reading_unwritten (m : Page) (e : Edges) : Reading (m.unwritten e) := by
  intro a ha
  obtain ⟨b, -, rfl⟩ := Option.map_eq_some_iff.mp ha
  exact Bool.and_false _

/-- And they keep to the protocol of the bus. -/
theorem allows_unwritten (m : Page) (e : Edges) : m.1.busAllows (m.unwritten e) = true := by
  unfold Core.busAllows Page.unwritten
  cases e.apb with
  | none => rfl
  | some a =>
    show (!(a.psel && (a.penable && !m.1.ctrl.accessBefore) && m.1.ctrl.accessBefore)) = true
    cases m.1.ctrl.accessBefore with
    | false => rw [Bool.and_false, Bool.not_false]
    | true => rw [Bool.not_true, Bool.and_false, Bool.and_false, Bool.false_and, Bool.not_false]

theorem silent_none (safe : Option Bool) : Silent ⟨none, safe⟩ := fun a ha => by
  cases ha

/-- The setup phase is no access. -/
theorem silent_setup (a : ApbIn) (safe : Option Bool) :
    Silent ⟨some { a with penable := false }, safe⟩ := by
  intro b hb
  obtain rfl := Option.some.inj hb
  show (a.psel && false) = false
  exact Bool.and_false _

/-! ## The registers at an edge -/

/-- What an access can find in the registers: the shadow and the flags about it. -/
def contents (r : Regs) : DspConfig × Bool × Bool := (r.shadow, r.shadowDirty, r.lastCommitRejected)

section

variable {r : Regs} {i : RegsIn}

/-- At an edge without a write only the answer to a commit changes the registers. -/
theorem contents_reading (h : (i.apb.apbAccess && i.apb.pwrite) = false) :
    contents (r.edge i) =
      (r.shadow, if i.commitAccepted then false else r.shadowDirty,
        if i.commitAccepted then false else if i.commitRejected then true
          else r.lastCommitRejected) := by
  unfold Regs.edge Regs.takeOutcome
  rw [h]
  cases i.commitAccepted <;> cases i.commitRejected <;> rfl

/-- DISCARD takes the active configuration back into the shadow. -/
theorem contents_discard (ha : i.apb = dspWrite dspCommand dspCommandDiscard)
    (hbusy : i.commitBusy = false) : contents (r.edge i) = (i.active, false, false) := by
  have haddr : i.apb.paddr = addrCommand := by
    rw [ha]
    rfl
  have hdata : i.apb.pwdata = 2 := by
    rw [ha]
    rfl
  have hw : (i.apb.apbAccess && i.apb.pwrite) = true := by
    rw [ha]
    rfl
  unfold Regs.edge
  rw [if_pos hw]
  unfold Regs.write Regs.acceptedWrite
  simp [Regs.writeAllowed, Regs.writeValueValid, haddr, hdata, Regs.pageWord_command, hbusy,
    Regs.commandBits, contents]

/-- COMMIT leaves the shadow as it is. -/
theorem contents_commit (ha : i.apb = dspWrite dspCommand dspCommandCommit)
    (hbusy : i.commitBusy = false) (hacc : i.commitAccepted = false)
    (hrej : i.commitRejected = false) : contents (r.edge i) = contents r := by
  have haddr : i.apb.paddr = addrCommand := by
    rw [ha]
    rfl
  have hdata : i.apb.pwdata = 1 := by
    rw [ha]
    rfl
  have hw : (i.apb.apbAccess && i.apb.pwrite) = true := by
    rw [ha]
    rfl
  unfold Regs.edge
  rw [if_pos hw]
  unfold Regs.write Regs.acceptedWrite Regs.takeOutcome
  simp [Regs.writeAllowed, Regs.writeValueValid, haddr, hdata, Regs.pageWord_command, hbusy, hacc,
    hrej, Regs.commandBits, contents]

/-- A read of the low half of the identifier latches the high half. -/
theorem latch_reading (h : (i.apb.apbAccess && i.apb.pwrite) = false) :
    (r.edge i).activeConfigIdHighLatch =
      if i.apb.apbAccess && !i.apb.pwrite && i.apb.paddr = addrActive then
        i.active.configId.extractLsb' 32 32
      else r.activeConfigIdHighLatch := by
  unfold Regs.edge Regs.takeOutcome
  rw [h]
  cases i.commitAccepted <;> cases i.commitRejected <;> rfl

/-- A write to the shadow is one word of it. -/
theorem contents_shadow {k : Fin 9} {v : Word} (ha : i.apb = dspWrite (dspShadowBase +
      BitVec.ofNat 32 (4 * k)) v) (hv : DspConfig.halfWord k = true → v >>> 16 = 0)
    (hbusy : i.commitBusy = false) (hacc : i.commitAccepted = false)
    (hrej : i.commitRejected = false) :
    contents (r.edge i) = (r.shadow.setWord k v, true, r.lastCommitRejected) := by
  have hpage : pageWord addrShadow i.apb.paddr = some k := by
    rw [ha]
    have hall : ∀ k : Fin 9, pageWord addrShadow ((dspShadowBase +
        BitVec.ofNat 32 (4 * k)).setWidth 12) = some k := by decide
    exact hall k
  have haddr : i.apb.paddr ≠ addrCommand := by
    intro he
    rw [he, Regs.pageWord_command] at hpage
    cases hpage
  have hdata : i.apb.pwdata = v := by
    rw [ha]
    rfl
  have hw : (i.apb.apbAccess && i.apb.pwrite) = true := by
    rw [ha]
    rfl
  have hvalid : Regs.writeValueValid i = true := by
    unfold Regs.writeValueValid
    rw [if_neg haddr, hpage]
    dsimp only
    rw [hdata]
    cases hk : DspConfig.halfWord k with
    | false => rfl
    | true => simp [hv hk]
  unfold Regs.edge
  rw [if_pos hw]
  unfold Regs.write Regs.acceptedWrite Regs.takeOutcome
  simp [Regs.writeAllowed, hvalid, haddr, hpage, hbusy, hacc, hrej, hdata, contents]

end

/-! ## A quiet mailbox -/

/-- No commit is under way. -/
def AtRest (m : Page) : Prop := ∃ p q, At .quiet m.1 m.2 p q

def Pulse (m : Page) : Prop := m.1.ctrl.commitAccepted = true ∨ m.1.ctrl.commitRejected = true

/-- At rest the mailbox is free and the bus side mirrors the stream side. -/
theorem AtRest.notBusy {m : Page} (h : AtRest m) : m.1.commitBusy = false ∧ m.1.Mirrors := by
  obtain ⟨p, q, hat⟩ := h
  obtain ⟨-, rfl, -⟩ := hat.admits
  exact ⟨by rw [hat.commitBusy]; rfl, hat.data.1⟩

/-- At rest every command has its outcome and every outcome its answer. -/
theorem AtRest.answered {m : Page} (h : AtRest m) :
    m.2.commands = m.2.outcomes.map (·.request) ∧
      m.2.responses = m.2.outcomes.map Core.Outcome.answer := by
  obtain ⟨p, q, hat⟩ := h
  obtain ⟨-, hanswered⟩ := hat.data
  exact ⟨by rw [hanswered.commands, List.append_nil], hanswered.responses⟩

/-- Without a COMMIT a quiet mailbox stays as it is, up to the registers. -/
theorem AtRest.tick {m : Page} (h : AtRest m) {e : Edges} (hbus : m.1.busAllows e = true)
    (hno : m.1.commandAt e = []) :
    AtRest (m.tick e) ∧ (m.tick e).active = m.active ∧ (m.tick e).2 = m.2 ∧
      (e.apb.isSome → ¬Pulse (m.tick e)) := by
  obtain ⟨p, q, hat⟩ := h
  have hstate : m.1.stream.state = .idle := hat.admits.1
  have houtcome : m.1.outcomeAt e = [] := by
    unfold Core.outcomeAt
    cases e.safe with
    | none => rfl
    | some safe => exact if_neg (by rw [hstate]; decide)
  have hfinishes : m.1.finishes = false := by
    rw [hat.finishes]
    rfl
  have hcommits : (e.apb.any fun a => Regs.commits (m.1.regsIn a)) = false := by
    unfold Core.commandAt at hno
    cases ha : e.apb with
    | none => rfl
    | some a =>
      rw [ha] at hno
      dsimp only at hno
      cases hc : Regs.commits (m.1.regsIn a) with
      | false => rw [Option.any_some, hc]
      | true =>
        rw [hc, if_pos rfl] at hno
        cases hno
  -- no COMMIT, so the stage stays quiet and the stream side has nothing to evaluate
  refine ⟨⟨m.1.nextRequest e p, m.1.nextResponse e q, ?_⟩, ?_, ?_, ?_⟩
  · have hstep := at_step hat hbus
    have hstage : m.1.nextStage e p q .quiet = .quiet := by
      unfold Core.nextStage
      rw [hcommits]
      cases e.apb.isSome <;> rfl
    rw [hstage] at hstep
    exact hstep
  · rw [active_tick, houtcome]
    rfl
  · show m.2.next m.1 e = m.2
    unfold Core.Log.next
    rw [hno, houtcome, Core.responseAt_of_not_finishes hfinishes, List.append_nil, List.append_nil,
      List.append_nil]
  · intro hsome
    obtain ⟨a, ha⟩ := Option.isSome_iff_exists.mp hsome
    obtain ⟨hacc, hrej⟩ := Core.nextTransaction_quiet hfinishes
    unfold Pulse Page.tick
    rw [Core.step_ctrl ha]
    show ¬(m.1.nextTransaction.commitAccepted = true ∨ m.1.nextTransaction.commitRejected = true)
    rw [hacc, hrej]
    decide

/-- The registers after an edge that does not write. -/
theorem contents_tick {m : Page} {e : Edges} (h : Reading e) :
    contents (m.tick e).1.ctrl.regs = if e.apb.isSome then
      (m.1.ctrl.regs.shadow, if m.1.ctrl.commitAccepted then false else m.1.ctrl.regs.shadowDirty,
        if m.1.ctrl.commitAccepted then false else if m.1.ctrl.commitRejected then true
          else m.1.ctrl.regs.lastCommitRejected)
    else contents m.1.ctrl.regs := by
  unfold Page.tick
  cases ha : e.apb with
  | none =>
    rw [Core.step_ctrl_none ha]
    rfl
  | some a =>
    rw [Core.step_ctrl ha]
    exact contents_reading (h a ha)

/-! ## Before, under and after a commit -/

/-- A quiet mailbox whose last outcome has been taken over. -/
structure Still (m₁ m : Page) : Prop where
  quiet : AtRest m
  valid : Valid m
  log : m.2 = m₁.2
  active : m.active = m₁.active
  settled : ¬Pulse m

/-- Without a command a mailbox at rest stays at rest. -/
theorem Still.tick {m₁ m : Page} (h : Still m₁ m) {e : Edges} (hbus : m.1.busAllows e = true)
    (hno : m.1.commandAt e = []) : Still m₁ (m.tick e) := by
  obtain ⟨hquiet, hactive, hlog, hpulse⟩ := h.quiet.tick hbus hno
  refine ⟨hquiet, h.valid.tick e, hlog.trans h.log, hactive.trans h.active, ?_⟩
  cases ha : e.apb with
  | some a => exact hpulse (by rw [ha]; rfl)
  | none =>
    have hsame : (m.tick e).1.ctrl = m.1.ctrl := Core.step_ctrl_none ha
    unfold Pulse
    rw [hsame]
    exact h.settled

/-- Without a write its registers stay as they are. -/
theorem Still.contents {m₁ m : Page} (h : Still m₁ m) {e : Edges} (hr : Reading e) :
    contents (m.tick e).1.ctrl.regs = contents m.1.ctrl.regs := by
  have hpulse := h.settled
  unfold Pulse at hpulse
  rw [not_or, Bool.not_eq_true, Bool.not_eq_true] at hpulse
  rw [contents_tick hr, hpulse.1, hpulse.2]
  cases e.apb.isSome <;> rfl

/-- A commit of `w` since `m₁` that has no response yet. -/
structure Flight (m₁ m : Page) (w : DspConfig) : Prop where
  since : Since m₁ m [w]
  stage : ∃ stage p q, At stage m.1 m.2 p q ∧ stage ≠ .quiet
  settled : ¬Pulse m
  rejected : m.1.ctrl.regs.lastCommitRejected = false

/-- A commit of `w` since `m₁` with its response: the flags show it, or will at the next edge. -/
structure Landed (m₁ m : Page) (w : DspConfig) (accepted : Bool) : Prop where
  quiet : AtRest m
  valid : Valid m
  active : m.active = if accepted then (w, m₁.active.2 + 1) else m₁.active
  flags : (m.1.ctrl.commitAccepted = accepted ∧ m.1.ctrl.commitRejected = !accepted ∧
      m.1.ctrl.regs.lastCommitRejected = false) ∨
    (¬Pulse m ∧ m.1.ctrl.regs.lastCommitRejected = (!accepted) ∧
      (accepted = true → m.1.ctrl.regs.shadowDirty = false))

/-- The pulse of an answer lasts one edge of the bus clock. -/
theorem Landed.tick {m₁ m : Page} {w : DspConfig} {accepted : Bool} (h : Landed m₁ m w accepted)
    {e : Edges} (hbus : m.1.busAllows e = true) (hr : Reading e) :
    Landed m₁ (m.tick e) w accepted ∧ (e.apb.isSome → ¬Pulse (m.tick e)) := by
  obtain ⟨hquiet, hactive, -, hpulse⟩ := h.quiet.tick hbus (hr.commandAt m.1)
  refine ⟨⟨hquiet, h.valid.tick e, hactive.trans h.active, ?_⟩, hpulse⟩
  cases ha : e.apb with
  | none =>
    have hsame : (m.tick e).1.ctrl = m.1.ctrl := Core.step_ctrl_none ha
    unfold Pulse
    rw [hsame]
    exact h.flags
  | some a =>
    -- the edge of the control clock moves the pulse of the response into the flags
    have hcontents := contents_tick hr (m := m)
    rw [ha, Option.isSome_some, if_pos rfl] at hcontents
    obtain ⟨-, hrest⟩ := Prod.mk.inj hcontents
    obtain ⟨hdirty, hrejected⟩ := Prod.mk.inj hrest
    refine .inr ⟨hpulse (by rw [ha]; rfl), hrejected.trans ?_, fun hacc => hdirty.trans ?_⟩
    · rcases h.flags with ⟨ha', hr', hf⟩ | ⟨hp, hf, -⟩
      · rw [ha', hr', hf]
        cases accepted <;> rfl
      · unfold Pulse at hp
        rw [not_or, Bool.not_eq_true, Bool.not_eq_true] at hp
        rw [hp.1, hp.2, hf]
        rfl
    · rcases h.flags with ⟨ha', -, -⟩ | ⟨hp, -, hd⟩
      · rw [ha', hacc]
        rfl
      · rw [hd hacc]
        cases m.1.ctrl.commitAccepted <;> rfl

/-- Only the end of a transaction brings the mailbox to rest. -/
theorem next_ne_quiet {stage : Stage} {ctrl stream commits evaluates responds rested : Bool}
    (h : stage ≠ .quiet) (hends : ctrl = true → stage = .received → rested = true → False) :
    stage.next ctrl stream commits evaluates responds rested ≠ .quiet := by
  cases stage with
  | quiet => exact absurd rfl h
  | commanded | sending => cases ctrl <;> simp [Stage.next]
  | requested => cases stream <;> cases evaluates <;> simp [Stage.next]
  | evaluated => cases stream <;> simp [Stage.next]
  | answering => cases ctrl <;> cases responds <;> simp [Stage.next]
  | received =>
    cases hctrl : ctrl with
    | false => simp [Stage.next]
    | true =>
      cases hrested : rested with
      | false => simp [Stage.next]
      | true => exact (hends hctrl rfl hrested).elim

/-- An edge that does not write leaves a commit under way, or brings its response. -/
theorem Flight.tick {m₁ m : Page} {w : DspConfig} (h : Flight m₁ m w) (h₁ : AtRest m₁) {e : Edges}
    (hbus : m.1.busAllows e = true) (hr : Reading e) :
    Flight m₁ (m.tick e) w ∨ ∃ accepted, Landed m₁ (m.tick e) w accepted := by
  obtain ⟨stage, p, q, hat, hstage⟩ := h.stage
  have hsince := h.since.tick hbus
  rw [hr.commandAt, List.append_nil] at hsince
  have hat' := at_step hat hbus
  have hpulse := h.settled
  unfold Pulse at hpulse
  rw [not_or, Bool.not_eq_true, Bool.not_eq_true] at hpulse
  have hrejected : (m.tick e).1.ctrl.regs.lastCommitRejected = false := by
    have hcontents := contents_tick hr (m := m)
    rw [hpulse.1, hpulse.2] at hcontents
    have hsame : contents (m.tick e).1.ctrl.regs = contents m.1.ctrl.regs := by
      rw [hcontents]
      cases e.apb.isSome <;> rfl
    exact (congrArg (·.2.2) hsame).trans h.rejected
  -- either this edge takes the response, or the commit is still under way
  by_cases hends : e.apb.isSome = true ∧ m.1.finishes = true
  · right
    obtain ⟨hsome, hf⟩ := hends
    obtain ⟨a, ha⟩ := Option.isSome_iff_exists.mp hsome
    obtain ⟨-, hacc, hrej, -⟩ := Core.nextTransaction_of_finishes hf
    have hreceived := hf
    rw [hat.finishes, Bool.and_eq_true, decide_eq_true_eq, decide_eq_true_eq] at hreceived
    obtain ⟨rfl, rfl⟩ := hreceived
    have hrest : AtRest (m.tick e) := by
      have hnext : m.1.nextStage e .idle q .received = .quiet := by
        unfold Core.nextStage
        rw [hsome]
        rfl
      rw [hnext] at hat'
      exact ⟨_, _, hat'⟩
    obtain ⟨new, hnew, hactive⟩ := hsince.outcomes
    -- at rest every command has its outcome, so exactly one came since `m₁`, and it is for `w`
    obtain ⟨hcommands, hresponses⟩ := hrest.answered
    rw [hsince.commands, hnew, List.map_append, h₁.answered.1] at hcommands
    obtain ⟨o, rfl, rfl⟩ := List.map_eq_singleton_iff.mp (List.append_cancel_left hcommands).symm
    have hlast : m.2.responses ++ [(m.1.ctrl.responseAccepted, m.1.ctrl.responseReason)] =
        m₁.2.outcomes.map Core.Outcome.answer ++ [o.answer] := by
      rw [hnew, List.map_append] at hresponses
      rw [← Core.responseAt_of_finishes hf ha]
      exact hresponses
    have hanswer := List.singleton_inj.mp (List.append_inj' hlast rfl).2
    have haccepted : m.1.ctrl.responseAccepted = o.accepted := (Prod.mk.inj hanswer).1
    refine ⟨o.accepted, hrest, hsince.valid, hactive, .inl ⟨?_, ?_, hrejected⟩⟩
    · unfold Page.tick
      rw [Core.step_ctrl ha]
      exact hacc.trans haccepted
    · unfold Page.tick
      rw [Core.step_ctrl ha]
      exact hrej.trans (by rw [haccepted])
  · left
    refine ⟨hsince, ⟨_, _, _, hat', ?_⟩, ?_, hrejected⟩
    · refine next_ne_quiet hstage fun hctrl hreceived hrested => hends ⟨hctrl, ?_⟩
      rw [hat.finishes, hreceived, hrested]
      rfl
    · unfold Pulse Page.tick
      cases ha : e.apb with
      | none =>
        rw [Core.step_ctrl_none ha, hpulse.1, hpulse.2]
        decide
      | some a =>
        have hf : m.1.finishes = false := by
          rw [← Bool.not_eq_true]
          exact fun hf => hends ⟨by rw [ha]; rfl, hf⟩
        rw [Core.step_ctrl ha]
        obtain ⟨hacc, hrej⟩ := Core.nextTransaction_quiet hf
        show ¬(m.1.nextTransaction.commitAccepted = true ∨
          m.1.nextTransaction.commitRejected = true)
        rw [hacc, hrej]
        decide

/-! ## Accesses -/

/-- What edges without COMMIT keep. -/
def Calm (P : Page → Prop) : Prop :=
  ∀ m e, m.1.busAllows e = true → m.1.commandAt e = [] → P m → P (m.tick e)

/-- What edges without a write keep. -/
def Steady (P : Page → Prop) : Prop :=
  ∀ m e, m.1.busAllows e = true → Reading e → P m → P (m.tick e)

/-- An edge without a write is one without COMMIT. -/
theorem Calm.steady {P : Page → Prop} (h : Calm P) : Steady P :=
  fun m e hbus hr => h m e hbus (hr.commandAt m.1)

theorem calm_since (m₀ : Page) : Calm (Since m₀ · []) := by
  intro m e hbus hno h
  have hnext := h.tick hbus
  rw [hno] at hnext
  exact hnext

theorem calm_still (m₁ : Page) : Calm (Still m₁) :=
  fun _ _ hbus hno h => h.tick hbus hno

/-- The configuration stays while the mailbox is at rest. -/
theorem calm_atRest (A : DspConfig × Word) : Calm fun m => AtRest m ∧ m.active = A := by
  intro m e hbus hno h
  obtain ⟨hquiet, hactive, -⟩ := h.1.tick hbus hno
  exact ⟨hquiet, hactive.trans h.2⟩

theorem steady_contents (m₁ : Page) (c : DspConfig × Bool × Bool) :
    Steady fun m => Still m₁ m ∧ contents m.1.ctrl.regs = c := by
  intro m e hbus hr h
  exact ⟨h.1.tick hbus (hr.commandAt m.1), (h.1.contents hr).trans h.2⟩

/-- A commit under way goes on, or is answered. -/
theorem steady_flight {m₁ : Page} (h₁ : AtRest m₁) (w : DspConfig) :
    Steady fun m => Flight m₁ m w ∨ ∃ accepted, Landed m₁ m w accepted := by
  rintro m e hbus hr (h | ⟨accepted, h⟩)
  · exact h.tick h₁ hbus hr
  · exact .inr ⟨accepted, (h.tick hbus hr).1⟩

theorem Steady.elapse {P : Page → Prop} (hP : Steady P) {l : List Edges} (hl : ∀ e ∈ l, Silent e)
    {m : Page} (h : P m) : P (m.elapse l) := by
  induction l generalizing m with
  | nil => exact h
  | cons e l ih =>
    have he := hl e List.mem_cons_self
    exact ih (fun e' he' => hl e' (List.mem_cons_of_mem _ he'))
      (hP m e (he.allowed m.1) he.reading h)

/-- What reads keep is kept before an access. -/
theorem Steady.wait {P : Page → Prop} (hP : Steady P) (g : Gap) {m : Page} (h : P m) :
    P (g.wait m) := by
  unfold Gap.wait
  induction g.idle generalizing m with
  | nil => exact h
  | cons e l ih => exact ih (hP m _ (allows_unwritten m e) (reading_unwritten m e) h)

/-- And up to its access phase. -/
theorem Steady.setUp {P : Page → Prop} (hP : Steady P) (g : Gap) (a : ApbIn) {m : Page} (h : P m) :
    P (g.setUp a m) := by
  refine hP.elapse (fun e he => ?_) ?_
  · obtain ⟨safe, -, rfl⟩ := List.mem_map.mp he
    exact silent_none _
  · exact hP _ _ ((silent_setup a g.setup).allowed _) (silent_setup a g.setup).reading (hP.wait g h)

/-- The access phase comes after a setup phase. -/
theorem setUp_ready (g : Gap) (a : ApbIn) (m : Page) :
    (g.setUp a m).1.ctrl.accessBefore = false := by
  -- the edges between the phases are edges of the stream clock only
  have hctrl : ∀ (l : List Bool) (m : Page),
      (m.elapse (l.map fun safe => ⟨none, some safe⟩)).1.ctrl = m.1.ctrl := by
    intro l
    induction l with
    | nil => exact fun _ => rfl
    | cons safe l ih => exact fun m => ih (m.tick ⟨none, some safe⟩)
  unfold Gap.setUp
  rw [hctrl]
  show (a.psel && false) = false
  exact Bool.and_false _

/-- So the access is in the protocol of the bus. -/
theorem setUp_allows (g : Gap) (a : ApbIn) (m : Page) :
    (g.setUp a m).1.busAllows ⟨some a, g.access⟩ = true := by
  unfold Core.busAllows
  rw [setUp_ready, Bool.and_false, Bool.not_false]

theorem reading_dspRead (offset : Word) (safe : Option Bool) :
    Reading ⟨some (dspRead offset), safe⟩ := by
  intro a ha
  obtain rfl := Option.some.inj ha
  rfl

/-- A write that is no COMMIT. -/
theorem commandAt_write {c : Core} {offset value : Word} {safe : Option Bool}
    (h : value ≠ 1 ∨ offset.setWidth 12 ≠ addrCommand) :
    c.commandAt ⟨some (dspWrite offset value), safe⟩ = [] := by
  have hno : Regs.commits (c.regsIn (dspWrite offset value)) = false := by
    unfold Regs.commits
    rcases h with h | h
    · have hdata : decide ((c.regsIn (dspWrite offset value)).apb.pwdata = 1) = false :=
        decide_eq_false h
      rw [hdata, Bool.and_false, Bool.false_and]
    · have haddr : decide ((c.regsIn (dspWrite offset value)).apb.paddr = addrCommand) = false :=
        decide_eq_false h
      rw [haddr, Bool.and_false, Bool.false_and, Bool.false_and]
  exact if_neg (by rw [hno]; decide)

namespace Hardware

variable {P : Page → Prop} {offset value : Word} {h : Hardware}

/-- The registers of the stream page. -/
def streamPage (h : Hardware) : Word × Word × Word := (h.frameLength, h.frameCount, h.mode)

/-- A read of the DSP page finds the mailbox after its gap. -/
theorem read_dsp (hd : dspPage offset = true) : h.read offset =
    ((h.gap.setUp (dspRead offset) h.mailbox).1.ctrl.regs.prdata
        ((h.gap.setUp (dspRead offset) h.mailbox).1.regsIn (dspRead offset)),
      { h with
        mailbox := h.gap.complete (dspRead offset) h.mailbox, accesses := h.accesses + 1 }) :=
  if_pos hd

/-- A read leaves the stream page as it is. -/
theorem read_streamPage : (h.read offset).2.streamPage = h.streamPage := by
  unfold read
  split <;> rfl

/-- A read keeps what reads keep. -/
theorem read_steady (hP : Steady P) (hm : P h.mailbox) : P (h.read offset).2.mailbox := by
  unfold read
  split
  · exact hP _ _ (setUp_allows _ _ _) (reading_dspRead _ _) (hP.setUp _ _ hm)
  · exact hP.wait _ hm

/-- A write that is no COMMIT keeps what such writes keep. -/
theorem write_calm (hP : Calm P) (hno : value ≠ 1 ∨ offset.setWidth 12 ≠ addrCommand)
    (hm : P h.mailbox) : P (h.write offset value).mailbox := by
  unfold write
  split
  · exact hP _ _ (setUp_allows _ _ _) (commandAt_write hno) (hP.steady.setUp _ _ hm)
  · exact hP.steady.wait _ hm

/-- A write to the DSP page leaves the stream page as it is. -/
theorem write_streamPage (hd : dspPage offset = true) :
    (h.write offset value).streamPage = h.streamPage := by
  unfold write
  rw [if_pos hd]
  rfl

end Hardware

end QCrate.R5
