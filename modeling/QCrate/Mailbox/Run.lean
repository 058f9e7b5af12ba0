import QCrate.Mailbox.Exchange

/-!
# Runs of the configuration mailbox

* `reachable_at` — after any edges the mailbox is in a stage.
* `mailbox_exact` — what the commands, the outcomes and the responses have to do with each other,
  and the mirror of the active configuration.
-/

namespace QCrate.Mailbox

open QCrate.Lib
open QCrate.Lib.Handshake (Phase)
open QCrate.Sequence (ApbIn)

/-! ## Stages of a run -/

/-- The mailbox is in some stage. -/
def InStage (s : Core × Core.Log) : Prop := ∃ stage p q, At stage s.1 s.2 p q

/-- A step takes the mailbox from one stage to one of the next. -/
theorem inStage_step {s s' : Core × Core.Log} {e : Edges} (h : InStage s)
    (hs : Core.machine.step s e = some s') : InStage s' := by
  obtain ⟨stage, p, q, hat⟩ := h
  simp only [Core.machine] at hs
  split at hs
  · next hbus =>
    cases hs
    exact ⟨_, _, _, at_step hat hbus⟩
  · cases hs

/-- So every state that is reached is at a stage. -/
theorem reachable_at {s : Core × Core.Log}
    (h : Core.machine.Reachable (Core.reset, Core.Log.empty) s) : InStage s :=
  h.invariant ⟨.quiet, .idle, .idle, at_reset⟩ fun _ _ _ => inStage_step

/-! ## Commands, outcomes and responses -/

/-- The outcomes are those of the commands in their order, the responses are those of the outcomes,
and at most the last command is without a response. -/
structure Exact (log : Core.Log) : Prop where
  outcomes : log.outcomes.map (·.request) <+: log.commands
  responses : log.responses <+: log.outcomes.map Core.Outcome.answer
  commands : log.commands.length ≤ log.responses.length + 1

variable {stage : Stage} {c : Core} {log : Core.Log} {p q : Phase} {rest : List DspConfig}

theorem Answered.exact (h : Answered log rest) (hrest : rest.length ≤ 1) : Exact log where
  outcomes := by
    rw [h.commands]
    exact List.prefix_append _ _
  responses := by
    rw [h.responses]
  commands := by
    rw [h.commands, h.responses, List.length_append, List.length_map, List.length_map]
    omega

/-- One command may still be without its outcome. -/
theorem Pending.exact {o : Core.Outcome} (h : Pending log o) : Exact log := by
  obtain ⟨old, hold, hresponses⟩ := h.last
  refine ⟨?_, ?_, ?_⟩
  · rw [h.commands]
  · rw [hresponses, hold, List.map_append]
    exact List.prefix_append _ _
  · rw [h.commands, hresponses, hold, List.length_map, List.length_append, List.length_map,
      List.length_singleton]

/-- At every stage the log is exact. -/
theorem At.exact (h : At stage c log p q) : Exact log := by
  have hdata := h.data
  cases stage with
  | quiet => exact hdata.2.exact (Nat.zero_le _)
  | commanded | sending | requested => exact hdata.2.exact le_rfl
  | evaluated | answering | received =>
    obtain ⟨o, hpending, -⟩ := hdata
    exact hpending.exact

/-- A mailbox that is not busy shows the active configuration, and when no command is about to be
sent every command has its response. -/
theorem At.notBusy (h : At stage c log p q) (hbusy : c.commitBusy = false) :
    c.Mirrors ∧ (c.ctrl.regs.commitCmd = false →
      log.commands = log.outcomes.map (·.request) ∧
      log.responses = log.outcomes.map Core.Outcome.answer) := by
  have hdata := h.data
  have hcommit := h.commitCmd
  rw [h.commitBusy, Bool.or_eq_false_iff] at hbusy
  cases stage with
  | quiet =>
    refine ⟨hdata.1, fun _ => ⟨?_, hdata.2.responses⟩⟩
    rw [hdata.2.commands, List.append_nil]
  | commanded =>
    refine ⟨hdata.1, fun hno => ?_⟩
    rw [hcommit] at hno
    cases hno
  | sending | requested | evaluated | answering | received => cases hbusy.1

/-! ## Every command gets its response -/

/-- How far the last command is from its response. -/
def Stage.rank (evaluating : Bool) (p q : Phase) : Stage → ℕ
  | .quiet => 0
  | .commanded => 57 + q.hops
  | .sending => 56 + q.hops
  | .requested => (if evaluating then 40 else 41) + p.hops + q.hops
  | .evaluated => 50
  | .answering => 20 + p.hops + q.hops
  | .received => 1 + p.hops

/-- The next move is one of the control side. -/
def Stage.waitsForCtrl (evaluating : Bool) (p q : Phase) : Stage → Bool
  | .quiet | .commanded | .sending | .answering => true
  | .requested => decide (p = .rise 3) && !evaluating && decide (q ≠ .idle) && !q.sourceMoves
  | .evaluated => false
  | .received => decide (p = .idle) || p.sourceMoves

def Core.evaluating (c : Core) : Bool := c.stream.state = .evaluate

def Core.rank (c : Core) (stage : Stage) (p q : Phase) : ℕ := stage.rank c.evaluating p q

def Core.waitsForCtrl (c : Core) (stage : Stage) (p q : Phase) : Bool :=
  stage.waitsForCtrl c.evaluating p q

variable {e : Edges}

/-- The clock that has the next move ticks. -/
def Edges.serves (e : Edges) (ctrl : Bool) : Bool := if ctrl then e.apb.isSome else e.safe.isSome

/-- An edge brings the response closer, or it was not the turn of its clock. -/
def Closer (c : Core) (e : Edges) (stage : Stage) (p q : Phase) : Prop :=
  (c.step e).rank (c.nextStage e p q stage) (c.nextRequest e p) (c.nextResponse e q) <
      c.rank stage p q ∨
    (c.step e).rank (c.nextStage e p q stage) (c.nextRequest e p) (c.nextResponse e q) =
      c.rank stage p q ∧
    (c.step e).waitsForCtrl (c.nextStage e p q stage) (c.nextRequest e p) (c.nextResponse e q) =
      c.waitsForCtrl stage p q ∧
    e.serves (c.waitsForCtrl stage p q) = false

/-- The request handshake comes closer to rest, or waits for an edge. -/
theorem request_hops (h : At stage c log p q) (hsend : stage ≠ .sending) :
    (c.nextRequest e p).hops < p.hops ∨ c.nextRequest e p = p :=
  Phase.hops_next h.request.bounded fun _ => by
    rw [h.requestSend, decide_eq_false hsend, Bool.and_false, Bool.and_false]

/-- So does the response handshake. -/
theorem response_hops (h : At stage c log p q) (hsend : stage ≠ .evaluated) :
    (c.nextResponse e q).hops < q.hops ∨ c.nextResponse e q = q :=
  Phase.hops_next h.response.bounded fun _ => by
    rw [h.responseSend, decide_eq_false hsend, Bool.and_false, Bool.and_false]

theorem request_hops_le (h : At stage c log p q) (hsend : stage ≠ .sending) :
    (c.nextRequest e p).hops ≤ p.hops := by
  rcases request_hops (e := e) h hsend with hlt | heq
  · exact hlt.le
  · rw [heq]

theorem response_hops_le (h : At stage c log p q) (hsend : stage ≠ .evaluated) :
    (c.nextResponse e q).hops ≤ q.hops := by
  rcases response_hops (e := e) h hsend with hlt | heq
  · exact hlt.le
  · rw [heq]

theorem closer_commanded (h : At .commanded c log p q) : Closer c e .commanded p q := by
  have hq := response_hops (e := e) h (by decide)
  unfold Closer Core.rank Core.waitsForCtrl Core.nextStage Edges.serves
  cases e.apb with
  | none =>
    rcases hq with hlt | heq
    · left
      simp only [Stage.next, Stage.rank, Option.isSome_none, Bool.false_eq_true, if_false]
      omega
    · right
      simp [Stage.next, Stage.rank, Stage.waitsForCtrl, heq]
  | some a =>
    left
    have hle : (c.nextResponse e q).hops ≤ q.hops := response_hops_le h (by decide)
    simp only [Stage.next, Stage.rank, Option.isSome_some, if_true]
    omega

theorem closer_sending (h : At .sending c log p q) : Closer c e .sending p q := by
  have hle : (c.nextResponse e q).hops ≤ q.hops := response_hops_le h (by decide)
  have hq := response_hops (e := e) h (by decide)
  obtain ⟨hst, rfl, -⟩ := h.admits
  have hst' : (c.step e).evaluating = false := by
    rw [Core.evaluating, step_state h, hst]
    simp
  unfold Closer Core.rank Core.waitsForCtrl Core.nextStage Edges.serves
  rw [hst']
  cases ha : e.apb with
  | none =>
    rcases hq with hlt | heq
    · left
      simp only [Stage.next, Stage.rank, Option.isSome_none, Bool.false_eq_true, if_false]
      omega
    · right
      simp [Stage.next, Stage.rank, Stage.waitsForCtrl, heq]
  | some a =>
    left
    have hp : c.nextRequest e .idle = .rise 0 := by
      rw [Core.nextRequest, h.requestSend, ha]
      rfl
    have h0 : (Phase.rise 0).hops = 14 := rfl
    rw [hp]
    simp only [Stage.next, Stage.rank, Option.isSome_some, if_true, Bool.false_eq_true, if_false]
    omega

/-- In the requested stage the request crosses, the last response ends, and then the stream side
evaluates. -/
theorem closer_requested (h : At .requested c log p q) : Closer c e .requested p q := by
  have hp := request_hops (e := e) h (by decide)
  have hq := response_hops (e := e) h (by decide)
  obtain ⟨hup, huq, hor⟩ := h.admits
  obtain ⟨hlow, hhigh, hsource, hne⟩ := Phase.hops_of_undelivered hup
  have hstate := step_state (e := e) h
  have haccept := h.requestAccept
  by_cases hev : c.stream.state = .evaluate
  · -- the next edge of the stream side evaluates
    obtain ⟨-, rfl, rfl⟩ := h.evaluates hev
    have hqi : c.nextResponse e .idle = .idle := by
      rw [Core.nextResponse, h.responseSend]
      simp [Phase.next]
    have hp3 : c.nextRequest e (.rise 3) = .rise 3 := by
      rw [Core.nextRequest, h.requestSend, haccept]
      simpa using rise_three_next (by cases e.safe <;> simp)
    unfold Closer Core.rank Core.waitsForCtrl Core.nextStage Edges.serves Core.evaluating
    rw [hqi, hp3, hstate, hev]
    cases e.safe.isSome with
    | false => right; simp [Stage.next, Stage.waitsForCtrl]
    | true => left; simp [Stage.next, Stage.rank, Phase.hops]
  · have hst := hor.resolve_right fun hr => hev hr.1
    have hstay : c.nextStage e p q .requested = .requested := by
      unfold Core.nextStage
      rw [decide_eq_false hev]
      cases e.safe.isSome <;> rfl
    have hno : c.evaluating = false := decide_eq_false hev
    have hevaluating : (c.step e).evaluating =
        (e.safe.isSome && decide (p = .rise 3 ∧ q = .idle)) := by
      rw [Core.evaluating, hstate, hst]
      cases e.safe.isSome with
      | false => simp
      | true =>
        by_cases hpq : p = .rise 3 ∧ q = .idle
        · simp [hpq]
        · simp [hpq]
    unfold Closer Core.rank Core.waitsForCtrl
    rw [hstay, hno, hevaluating]
    simp only [Stage.rank, Bool.false_eq_true, if_false]
    by_cases hmoves : (c.nextRequest e p).hops < p.hops ∨ (c.nextResponse e q).hops < q.hops
    · left
      have hp' : (c.nextRequest e p).hops ≤ p.hops := request_hops_le h (by decide)
      have hq' : (c.nextResponse e q).hops ≤ q.hops := response_hops_le h (by decide)
      split <;> omega
    · have hp' := hp.resolve_left fun hlt => hmoves (.inl hlt)
      have hq' := hq.resolve_left fun hlt => hmoves (.inr hlt)
      rw [hp', hq']
      by_cases hgo : e.safe.isSome = true ∧ p = .rise 3 ∧ q = .idle
      · left
        rw [hgo.1, decide_eq_true hgo.2, Bool.and_true, if_pos rfl]
        omega
      · right
        have hnone : (e.safe.isSome && decide (p = .rise 3 ∧ q = .idle)) = false := by
          cases hs : e.safe.isSome with
          | false => rfl
          | true => exact decide_eq_false fun hpq => hgo ⟨hs, hpq⟩
        rw [hnone]
        refine ⟨by simp, rfl, ?_⟩
        -- nothing has moved, so the clock whose turn it is has not ticked
        by_cases hw : Stage.waitsForCtrl false p q .requested = true
        · rw [hw]
          change e.apb.isSome = false
          simp only [Stage.waitsForCtrl, Bool.and_eq_true, decide_eq_true_eq,
            Bool.not_eq_true'] at hw
          by_contra hapb
          have hq3 : q ≠ .rise 3 := by
            rintro rfl
            cases huq
          have hlt := @Phase.hops_next_of_dest q e.safe.isSome
            (e.safe.isSome && c.stream.responseSend)
            (e.apb.map fun _ => c.ctrl.responseAccept) hw.2 hw.1.2 hq3
            (by rw [Option.isSome_map]; exact Bool.not_eq_false _ |>.mp hapb)
          exact hmoves (.inr hlt)
        · rw [Bool.not_eq_true _ |>.mp hw]
          change e.safe.isSome = false
          by_contra hsafe
          have hsafe : e.safe.isSome = true := Bool.not_eq_false _ |>.mp hsafe
          by_cases hp3 : p = .rise 3
          · subst hp3
            by_cases hqi : q = .idle
            · exact hgo ⟨hsafe, rfl, hqi⟩
            · have hmove : q.sourceMoves = true := by simpa [Stage.waitsForCtrl, hqi] using hw
              have hlt := @Phase.hops_next_of_source q (e.safe.isSome && c.stream.responseSend)
                (e.apb.map fun _ => c.ctrl.responseAccept) h.response.bounded hmove
              refine hmoves (.inr ?_)
              rw [Core.nextResponse, hsafe]
              rw [hsafe] at hlt
              exact hlt
          · have hlt := @Phase.hops_next_of_dest p e.apb.isSome
              (e.apb.isSome && c.ctrl.requestSend)
              (e.safe.map fun _ => c.stream.requestAccept) hsource hne hp3
              (by rw [Option.isSome_map]; exact hsafe)
            exact hmoves (.inl hlt)

theorem closer_evaluated (h : At .evaluated c log p q) : Closer c e .evaluated p q := by
  obtain ⟨-, rfl, rfl⟩ := h.admits
  unfold Closer Core.rank Core.waitsForCtrl Core.nextStage Core.nextRequest Core.nextResponse
  rw [h.requestAccept, h.responseSend, h.requestSend]
  cases hs : e.safe with
  | none =>
    right
    simp [Stage.next, Stage.rank, Stage.waitsForCtrl, Edges.serves, hs]
  | some safe =>
    left
    simp [Stage.next, Stage.rank, Phase.next, Phase.hops]

theorem closer_answering (h : At .answering c log p q) : Closer c e .answering p q := by
  have hp := request_hops (e := e) h (by decide)
  have hq := response_hops (e := e) h (by decide)
  obtain ⟨hup, huq, -⟩ := h.admits
  obtain ⟨hlow, -, hsource, hne⟩ := Phase.hops_of_undelivered huq
  have hp' : (c.nextRequest e p).hops ≤ p.hops := request_hops_le h (by decide)
  have hq' : (c.nextResponse e q).hops ≤ q.hops := response_hops_le h (by decide)
  unfold Closer Core.rank Core.waitsForCtrl Core.nextStage Edges.serves
  by_cases hgo : (e.apb.isSome && decide (q = .rise 3)) = true
  · left
    simp only [Stage.next]
    rw [if_pos hgo]
    simp only [Stage.rank]
    omega
  · simp only [Stage.next]
    rw [if_neg hgo]
    by_cases hmoves : (c.nextRequest e p).hops < p.hops ∨ (c.nextResponse e q).hops < q.hops
    · left
      simp only [Stage.rank]
      omega
    · right
      rw [hp.resolve_left fun hlt => hmoves (.inl hlt),
        hq.resolve_left fun hlt => hmoves (.inr hlt)]
      refine ⟨rfl, rfl, ?_⟩
      simp only [Stage.waitsForCtrl, if_true]
      by_contra hapb
      have hapb : e.apb.isSome = true := Bool.not_eq_false _ |>.mp hapb
      have hq3 : q ≠ .rise 3 := by
        rintro rfl
        exact hgo (by rw [hapb]; rfl)
      exact hmoves (.inr (Phase.hops_next_of_dest hsource hne hq3
        (by rw [Option.isSome_map]; exact hapb)))

theorem closer_received (h : At .received c log p q) : Closer c e .received p q := by
  have hp := request_hops (e := e) h (by decide)
  obtain ⟨hup, -, -⟩ := h.admits
  unfold Closer Core.rank Core.waitsForCtrl Core.nextStage
  by_cases hgo : (e.apb.isSome && decide (p = .idle)) = true
  · left
    simp only [Stage.next]
    rw [if_pos hgo]
    simp only [Stage.rank]
    omega
  · simp only [Stage.next]
    rw [if_neg hgo]
    rcases hp with hlt | heq
    · left
      simp only [Stage.rank]
      omega
    · right
      rw [heq]
      refine ⟨rfl, rfl, ?_⟩
      by_cases hw : Stage.waitsForCtrl c.evaluating p q .received = true
      · rw [hw]
        change e.apb.isSome = false
        by_contra hapb
        have hapb : e.apb.isSome = true := Bool.not_eq_false _ |>.mp hapb
        have hpi : p ≠ .idle := by
          rintro rfl
          exact hgo (by rw [hapb]; rfl)
        have hmove : p.sourceMoves = true := by simpa [Stage.waitsForCtrl, hpi] using hw
        have hlt := @Phase.hops_next_of_source p (e.apb.isSome && c.ctrl.requestSend)
          (e.safe.map fun _ => c.stream.requestAccept) h.request.bounded hmove
        unfold Core.nextRequest at heq
        rw [hapb] at heq hlt
        rw [heq] at hlt
        exact lt_irrefl _ hlt
      · rw [Bool.not_eq_true _ |>.mp hw]
        change e.safe.isSome = false
        by_contra hsafe
        have hsafe : e.safe.isSome = true := Bool.not_eq_false _ |>.mp hsafe
        simp only [Stage.waitsForCtrl, Bool.or_eq_true, decide_eq_true_eq, not_or,
          Bool.not_eq_true] at hw
        have hp3 : p ≠ .rise 3 := by
          rintro rfl
          cases hup
        have hlt := @Phase.hops_next_of_dest p e.apb.isSome (e.apb.isSome && c.ctrl.requestSend)
          (e.safe.map fun _ => c.stream.requestAccept) hw.2 hw.1 hp3
          (by rw [Option.isSome_map]; exact hsafe)
        unfold Core.nextRequest at heq
        rw [heq] at hlt
        exact lt_irrefl _ hlt

/-- From every stage an edge that counts comes closer to the answer. -/
theorem closer_step (h : At stage c log p q) (hquiet : stage ≠ .quiet) :
    Closer c e stage p q := by
  cases stage with
  | quiet => exact absurd rfl hquiet
  | commanded => exact closer_commanded h
  | sending => exact closer_sending h
  | requested => exact closer_requested h
  | evaluated => exact closer_evaluated h
  | answering => exact closer_answering h
  | received => exact closer_received h

/-- The first `n` commands have their responses, or the last of them will within `k` moves. -/
def DueIn (n k : ℕ) (s : Core × Core.Log) : Prop :=
  n ≤ s.2.responses.length ∨
    ∃ stage p q, At stage s.1 s.2 p q ∧ n ≤ s.2.commands.length ∧ s.1.rank stage p q ≤ k

/-- No stage is further from the answer than 71 rounds. -/
theorem Stage.rank_le (evaluating : Bool) (h : At stage c log p q) :
    stage.rank evaluating p q ≤ 71 := by
  have hhops : ∀ phase : Phase, phase.hops ≤ 14 := by
    intro phase
    cases phase <;> simp only [Phase.hops] <;> omega
  have hp := hhops p
  have hq := hhops q
  cases stage with
  | requested =>
    simp only [Stage.rank]
    split <;> omega
  | quiet | commanded | sending | evaluated | answering | received =>
    simp only [Stage.rank]
    omega

/-- In the quiet stage nothing is due. -/
theorem At.responses_of_quiet (h : At .quiet c log p q) :
    log.responses.length = log.commands.length := by
  obtain ⟨-, ha⟩ := h.data
  rw [ha.commands, ha.responses, List.append_nil, List.length_map, List.length_map]

/-- What is due stays due. -/
theorem dueIn_step {n k : ℕ} {s s' : Core × Core.Log} (h : DueIn n k s)
    (hs : Core.machine.step s e = some s') : DueIn n k s' := by
  simp only [Core.machine] at hs
  split at hs
  · next hbus =>
    cases hs
    rcases h with hdone | ⟨stage, p, q, hat, hn, hrank⟩
    · left
      simp only [Core.Log.next, List.length_append]
      omega
    · by_cases hquiet : stage = .quiet
      · subst hquiet
        left
        have hlen := hat.responses_of_quiet
        simp only [Core.Log.next, List.length_append]
        omega
      · right
        refine ⟨_, _, _, at_step hat hbus, ?_, ?_⟩
        · simp only [Core.Log.next, List.length_append]
          omega
        · rcases closer_step (e := e) hat hquiet with hlt | ⟨heq, -⟩
          · exact hlt.le.trans hrank
          · rw [heq]
            exact hrank
  · cases hs

/-- The same, of a response that is still due, and which of the two clocks has to tick next. -/
def WaitsIn (n k : ℕ) (ctrl : Bool) (s : Core × Core.Log) : Prop :=
  ∃ stage p q, At stage s.1 s.2 p q ∧ n ≤ s.2.commands.length ∧ s.1.rank stage p q ≤ k ∧
    s.1.waitsForCtrl stage p q = ctrl

/-- The clock whose turn it is brings the response closer, the other leaves it the turn. -/
theorem waitsIn_step {n k : ℕ} {ctrl : Bool} {s s' : Core × Core.Log} (h : WaitsIn n (k + 1) ctrl s)
    (hs : Core.machine.step s e = some s') :
    DueIn n k s' ∨ WaitsIn n (k + 1) ctrl s' ∧ ¬e.serves ctrl = true := by
  obtain ⟨stage, p, q, hat, hn, hrank, hctrl⟩ := h
  by_cases hquiet : stage = .quiet
  · subst hquiet
    exact .inl (dueIn_step (.inl (hat.responses_of_quiet ▸ hn)) hs)
  simp only [Core.machine] at hs
  split at hs
  · next hbus =>
    cases hs
    have hcommands : n ≤ (s.2.next s.1 e).commands.length := by
      simp only [Core.Log.next, List.length_append]
      omega
    rcases closer_step (e := e) hat hquiet with hlt | ⟨heq, hwaits, hserves⟩
    · exact .inl (.inr ⟨_, _, _, at_step hat hbus, hcommands,
        Nat.le_of_lt_succ (lt_of_lt_of_le hlt hrank)⟩)
    · refine .inr ⟨⟨_, _, _, at_step hat hbus, hcommands, by rw [heq]; exact hrank, ?_⟩, ?_⟩
      · rw [hwaits, hctrl]
      · rw [← hctrl, hserves]
        exact Bool.false_ne_true
  · cases hs

/-- Both clocks tick. -/
def BothTick (l : List Edges) : Prop :=
  l.any (·.apb.isSome) = true ∧ l.any (·.safe.isSome) = true

theorem BothTick.serves {l : List Edges} (h : BothTick l) (ctrl : Bool) :
    ∃ e ∈ l, e.serves ctrl = true := by
  rw [← List.any_eq_true]
  cases ctrl with
  | true => exact h.1
  | false => exact h.2

/-- Each round brings it closer. -/
theorem dueIn_rounds {n k : ℕ} {rounds : List (List Edges)} {s s' : Core × Core.Log}
    (h : DueIn n k s) (hk : k ≤ rounds.length) (hall : ∀ l ∈ rounds, BothTick l)
    (hrun : Core.machine.run s rounds.flatten = some s') : DueIn n 0 s' := by
  have hkeep : ∀ k s e s', DueIn n k s → Core.machine.step s e = some s' → DueIn n k s' :=
    fun _ _ _ _ hs hstep => dueIn_step hs hstep
  have hstep : ∀ k ctrl s e s', WaitsIn n (k + 1) ctrl s → Core.machine.step s e = some s' →
      DueIn n k s' ∨ WaitsIn n (k + 1) ctrl s' ∧ ¬e.serves ctrl = true :=
    fun _ _ _ _ _ hs hstep => waitsIn_step hs hstep
  refine Machine.due_rounds hkeep hstep (fun k s hs => ?_) h hk
    (fun l hl ctrl => (hall l hl).serves ctrl) hrun
  rcases hs with hdone | ⟨stage, p, q, hat, hn, hrank⟩
  · exact .inl (.inl hdone)
  · exact .inr ⟨_, stage, p, q, hat, hn, hrank, rfl⟩

/-- When nothing is left to wait for, the responses are there. -/
theorem responses_of_dueIn {n : ℕ} {s : Core × Core.Log} (h : DueIn n 0 s) :
    n ≤ s.2.responses.length := by
  rcases h with hdone | ⟨stage, p, q, hat, hn, hrank⟩
  · exact hdone
  · cases stage with
    | quiet =>
      rw [hat.responses_of_quiet]
      exact hn
    | requested =>
      simp only [Core.rank, Stage.rank] at hrank
      split at hrank <;> omega
    | commanded | sending | evaluated | answering | received =>
      simp only [Core.rank, Stage.rank] at hrank
      omega

/-- After any edges: the responses are those of the outcomes, and the outcomes those of the
commands, in their order; a mailbox that is not busy shows the active configuration and owes no
response but to a command just written; and every command has its response after 71 more rounds
of both clocks. -/
theorem mailbox_exact {s : Core × Core.Log}
    (h : Core.machine.Reachable (Core.reset, Core.Log.empty) s) :
    Exact s.2 ∧
    (s.1.commitBusy = false → s.1.Mirrors ∧ (s.1.ctrl.regs.commitCmd = false →
      s.2.commands = s.2.outcomes.map (·.request) ∧
      s.2.responses = s.2.outcomes.map Core.Outcome.answer)) ∧
    ∀ (rounds : List (List Edges)) (s' : Core × Core.Log), 71 ≤ rounds.length →
      (∀ l ∈ rounds, BothTick l) → Core.machine.run s rounds.flatten = some s' →
      s.2.commands.length ≤ s'.2.responses.length := by
  obtain ⟨stage, p, q, hat⟩ := reachable_at h
  refine ⟨hat.exact, hat.notBusy, fun rounds s' hlen hall hrun => ?_⟩
  exact responses_of_dueIn (dueIn_rounds
    (.inr ⟨stage, p, q, hat, le_rfl, Stage.rank_le _ hat⟩) hlen hall hrun)

/-! ## A commit -/

/-- The shadow gets a new seed, COMMIT is written, and then both clocks tick. -/
def commitSeed : List Edges :=
  let access (penable : Bool) (paddr : BitVec 12) (pwdata : BitVec 32) : Edges :=
    ⟨some ⟨paddr, true, penable, true, pwdata⟩, none⟩
  [access false 0x028 5, access true 0x028 5, access false 0 1, access true 0 1] ++
    List.replicate 20 ⟨some ⟨0, false, false, false, 0⟩, some true⟩

/-- The commit is answered, and the control side shows the new seed. -/
theorem mailbox_exact_commitSeed :
    ∃ s, Core.machine.run (Core.reset, Core.Log.empty) commitSeed = some s ∧
      s.2.responses = [(true, rejectNone)] ∧ s.1.ctrl.active.noiseSeed = 5 ∧ Exact s.2 := by
  have hrun : ∃ s, Core.machine.run (Core.reset, Core.Log.empty) commitSeed = some s ∧
      s.2.responses = [(true, rejectNone)] ∧ s.1.ctrl.active.noiseSeed = 5 := by
    refine ⟨((Core.machine.run (Core.reset, Core.Log.empty) commitSeed).getD
      (Core.reset, Core.Log.empty)), ?_⟩
    decide +kernel
  obtain ⟨s, hs, hresponses, hseed⟩ := hrun
  exact ⟨s, hs, hresponses, hseed, (mailbox_exact ⟨_, hs⟩).1⟩

end QCrate.Mailbox
