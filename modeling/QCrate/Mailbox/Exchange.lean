import QCrate.Mailbox.Crossing

/-!
# One answer for each commit

A commit goes through seven stages, from the bus write that asks for it to the pulse that answers
it. The stage says which of the control bits are up and where the two handshakes can be.

* `At` — the mailbox is in a stage, with what has been asked, done and answered so far.
* `at_step` — every edge keeps the mailbox in its stage or moves it to the next one.
* `mailbox_exact` — what the commands, the outcomes and the responses have to do with each other,
  and the mirror of the active configuration.
-/

namespace QCrate.Mailbox

open QCrate.Lib
open QCrate.Lib.Handshake (Phase InPhase)
open QCrate.Sequence (ApbIn)

/-! ## What an edge does to the control bits -/

namespace Core

variable {c : Core}

/-- A request is sent when a COMMIT finds the mailbox free. -/
theorem nextTransaction_requestSend :
    c.nextTransaction.requestSend = (c.ctrl.regs.commitCmd && !c.commitBusy) := by
  unfold nextTransaction
  cases c.ctrl.regs.commitCmd && !c.commitBusy <;> cases c.receives <;> cases c.finishes <;>
    cases c.ctrl.response.data.accepted <;> rfl

/-- From then on the transaction is busy. -/
theorem nextTransaction_transactionBusy (h : c.finishes = false) :
    c.nextTransaction.transactionBusy =
      (c.ctrl.transactionBusy || c.ctrl.regs.commitCmd && !c.commitBusy) := by
  unfold nextTransaction
  rw [h]
  cases c.ctrl.regs.commitCmd && !c.commitBusy <;> cases c.receives <;>
    cases c.ctrl.response.data.accepted <;> simp

/-- A response is accepted when it is received. -/
theorem nextTransaction_responseAccept : c.nextTransaction.responseAccept = c.receives := by
  unfold nextTransaction
  cases c.ctrl.regs.commitCmd && !c.commitBusy <;> cases c.receives <;> cases c.finishes <;>
    cases c.ctrl.response.data.accepted <;> rfl

/-- And noted until the transaction is finished. -/
theorem nextTransaction_responseReceived :
    c.nextTransaction.responseReceived =
      (c.receives || !c.finishes && c.ctrl.responseReceived) := by
  unfold nextTransaction
  cases c.ctrl.regs.commitCmd && !c.commitBusy <;> cases c.receives <;> cases c.finishes <;>
    cases c.ctrl.response.data.accepted <;> rfl

/-- No outcome arrives: the mirror stays. -/
theorem nextTransaction_of_not_receives (h : c.receives = false) :
    c.nextTransaction.active = c.ctrl.active ∧ c.nextTransaction.generation = c.ctrl.generation ∧
      c.nextTransaction.responseAccepted = c.ctrl.responseAccepted ∧
      c.nextTransaction.responseReason = c.ctrl.responseReason := by
  unfold nextTransaction
  rw [h]
  cases c.ctrl.regs.commitCmd && !c.commitBusy <;> cases c.finishes <;> exact ⟨rfl, rfl, rfl, rfl⟩

/-- The outcome arrives, and with it the active configuration if it is new. -/
theorem nextTransaction_of_receives (h : c.receives = true) :
    c.nextTransaction.responseAccepted = c.ctrl.response.data.accepted ∧
      c.nextTransaction.responseReason = c.ctrl.response.data.reason ∧
      c.nextTransaction.active = (if c.ctrl.response.data.accepted then
        c.ctrl.response.data.active else c.ctrl.active) ∧
      c.nextTransaction.generation = (if c.ctrl.response.data.accepted then
        c.ctrl.response.data.generation else c.ctrl.generation) := by
  unfold nextTransaction
  rw [h]
  cases c.ctrl.regs.commitCmd && !c.commitBusy <;> cases c.ctrl.response.data.accepted <;>
    exact ⟨rfl, rfl, rfl, rfl⟩

/-- At its end the transaction shows the outcome. -/
theorem nextTransaction_of_finishes (h : c.finishes = true) :
    c.nextTransaction.transactionBusy = false ∧
      c.nextTransaction.commitAccepted = c.ctrl.responseAccepted ∧
      c.nextTransaction.commitRejected = !c.ctrl.responseAccepted ∧
      c.nextTransaction.commitRejectReason = c.ctrl.responseReason := by
  have hr : c.receives = false := by
    simp only [finishes, Bool.and_eq_true, Bool.not_eq_true'] at h
    exact h.1.1
  unfold nextTransaction
  rw [hr, h]
  cases c.ctrl.regs.commitCmd && !c.commitBusy <;> exact ⟨rfl, rfl, rfl, rfl⟩

/-- Before its end it shows nothing. -/
theorem nextTransaction_quiet (h : c.finishes = false) :
    c.nextTransaction.commitAccepted = false ∧ c.nextTransaction.commitRejected = false := by
  unfold nextTransaction
  rw [h]
  cases c.ctrl.regs.commitCmd && !c.commitBusy <;> cases c.receives <;>
    cases c.ctrl.response.data.accepted <;> exact ⟨rfl, rfl⟩

/-- There is a response only at the end of a transaction. -/
theorem responseAt_of_not_finishes (h : c.finishes = false) (e : Edges) : c.responseAt e = [] := by
  obtain ⟨ha, hr⟩ := nextTransaction_quiet h
  unfold responseAt
  cases e.apb with
  | none => rfl
  | some a => exact if_neg (by simp [ctrlEdge, ha, hr])

theorem responseAt_of_finishes (h : c.finishes = true) {e : Edges} {a : ApbIn}
    (he : e.apb = some a) :
    c.responseAt e = [(c.ctrl.responseAccepted, c.ctrl.responseReason)] := by
  obtain ⟨-, ha, hr, hreason⟩ := nextTransaction_of_finishes h
  unfold responseAt
  rw [he]
  simp only [ctrlEdge, ha, hr, hreason]
  exact if_pos (by simp)

/-! ## The step, part by part -/

variable {e : Edges} {a : ApbIn} {safe : Bool} {p q : Phase}

theorem step_ctrl (he : e.apb = some a) : (c.step e).ctrl = c.ctrlEdge a := by
  unfold step
  rw [he]

theorem step_ctrl_none (he : e.apb = none) : (c.step e).ctrl = c.ctrl := by
  unfold step
  rw [he]

theorem step_stream (he : e.safe = some safe) : (c.step e).stream = c.streamEdge safe := by
  unfold step
  rw [he]

theorem step_stream_none (he : e.safe = none) : (c.step e).stream = c.stream := by
  unfold step
  rw [he]

/-- The request handshake goes through its phases. -/
theorem inPhase_request (h : InPhase c.ctrl.request c.stream.request p) :
    InPhase (c.step e).ctrl.request (c.step e).stream.request
      (p.next e.apb.isSome (e.apb.isSome && c.ctrl.requestSend)
        (e.safe.map fun _ => c.stream.requestAccept)) := by
  have hstep := Handshake.inPhase_step h (e.apb.map fun _ => c.requestInput)
    (e.safe.map fun _ => c.stream.requestAccept)
  have hany : (e.apb.map fun _ => c.requestInput).any (·.isSome) =
      (e.apb.isSome && c.ctrl.requestSend) := by
    unfold requestInput
    cases e.apb <;> cases c.ctrl.requestSend <;> rfl
  rw [Option.isSome_map, hany] at hstep
  unfold step
  cases ha : e.apb <;> cases hs : e.safe <;> rw [ha, hs] at hstep <;> exact hstep

/-- So does the response handshake. -/
theorem inPhase_response (h : InPhase c.stream.response c.ctrl.response q) :
    InPhase (c.step e).stream.response (c.step e).ctrl.response
      (q.next e.safe.isSome (e.safe.isSome && c.stream.responseSend)
        (e.apb.map fun _ => c.ctrl.responseAccept)) := by
  have hstep := Handshake.inPhase_step h (e.safe.map fun _ => c.responseInput)
    (e.apb.map fun _ => c.ctrl.responseAccept)
  have hany : (e.safe.map fun _ => c.responseInput).any (·.isSome) =
      (e.safe.isSome && c.stream.responseSend) := by
    unfold responseInput
    cases e.safe <;> cases c.stream.responseSend <;> rfl
  rw [Option.isSome_map, hany] at hstep
  unfold step
  cases ha : e.apb <;> cases hs : e.safe <;> rw [ha, hs] at hstep <;> exact hstep

end Core

/-! ## Stages -/

/-- How far the last commit has come. -/
inductive Stage where
  | quiet | commanded | sending | requested | evaluated | answering | received
  deriving DecidableEq, Repr

/-- A transaction is open on the control side. -/
def Stage.opened : Stage → Bool
  | .quiet | .commanded => false
  | _ => true

/-- Where the stream side and the two handshakes can be. -/
def Stage.Admits (state : StreamState) (p q : Phase) : Stage → Prop
  | .quiet | .commanded | .sending => state = .idle ∧ p = .idle ∧ q.undelivered = false
  | .requested => p.undelivered = true ∧ q.undelivered = false ∧
      (state = .idle ∨ state = .evaluate ∧ p = .rise 3 ∧ q = .idle)
  | .evaluated => state = .waitRequestClear ∧ p = .rise 3 ∧ q = .idle
  | .answering => p.undelivered = false ∧ q.undelivered = true ∧
      (state = .idle ∨ state = .waitRequestClear ∧ p.delivered = true)
  | .received => p.undelivered = false ∧ (q = .rise 3 ∨ q.undelivered = false) ∧
      (state = .idle ∨ state = .waitRequestClear ∧ p.delivered = true)

/-- The control side shows the active configuration of the stream side. -/
def Core.Mirrors (c : Core) : Prop :=
  c.ctrl.active = c.stream.active ∧ c.ctrl.generation = c.stream.generation

instance (c : Core) : Decidable c.Mirrors := inferInstanceAs (Decidable (_ ∧ _))

/-- What the control side reports of an outcome. -/
def Core.Outcome.answer (o : Core.Outcome) : Bool × BitVec 2 := (o.accepted, o.reason)

/-- The requests of the outcomes are the commands, and all but the last outcome are answered. -/
structure Pending (log : Core.Log) (o : Core.Outcome) : Prop where
  commands : log.commands = log.outcomes.map (·.request)
  last : ∃ old, log.outcomes = old ++ [o] ∧ log.responses = old.map Core.Outcome.answer

/-- The commands but for some last ones have outcomes, and every outcome is answered. -/
structure Answered (log : Core.Log) (rest : List DspConfig) : Prop where
  commands : log.commands = log.outcomes.map (·.request) ++ rest
  responses : log.responses = log.outcomes.map Core.Outcome.answer

/-- What has been asked, done and answered, and what the registers hold of it. -/
def Stage.Data (c : Core) (log : Core.Log) : Stage → Prop
  | .quiet => c.Mirrors ∧ Answered log []
  | .commanded | .sending => c.Mirrors ∧ Answered log [c.ctrl.regs.shadow]
  | .requested => c.Mirrors ∧ Answered log [c.ctrl.request.data]
  | .evaluated => ∃ o, Pending log o ∧ c.stream.responseAccepted = o.accepted ∧
      c.stream.responseReason = o.reason ∧ (o.accepted = false → c.Mirrors)
  | .answering => ∃ o, Pending log o ∧ c.stream.response.data =
      ⟨o.accepted, o.reason, c.stream.generation, c.stream.active⟩ ∧
      (o.accepted = false → c.Mirrors)
  | .received => ∃ o, Pending log o ∧ c.ctrl.responseAccepted = o.accepted ∧
      c.ctrl.responseReason = o.reason ∧ c.Mirrors

/-- The mailbox is in a stage. -/
structure At (stage : Stage) (c : Core) (log : Core.Log) (p q : Phase) : Prop where
  request : InPhase c.ctrl.request c.stream.request p
  response : InPhase c.stream.response c.ctrl.response q
  commitCmd : c.ctrl.regs.commitCmd = decide (stage = .commanded)
  requestSend : c.ctrl.requestSend = decide (stage = .sending)
  transactionBusy : c.ctrl.transactionBusy = stage.opened
  responseReceived : c.ctrl.responseReceived = decide (stage = .received)
  responseAccept : c.ctrl.responseAccept = (decide (stage = .received) && decide (q = .rise 3))
  requestAccept : c.stream.requestAccept = decide (stage = .evaluated)
  responseSend : c.stream.responseSend = decide (stage = .evaluated)
  accessBefore : stage = .commanded → c.ctrl.accessBefore = true
  admits : stage.Admits c.stream.state p q
  data : stage.Data c log

section

variable {stage : Stage} {c : Core} {log : Core.Log} {p q : Phase} {e : Edges}

/-- The mailbox is busy in an open transaction, or while the handshake is not at rest. -/
theorem At.commitBusy (h : At stage c log p q) :
    c.commitBusy = (stage.opened || !decide (p = .idle)) := by
  rw [Core.commitBusy, h.transactionBusy, h.request.busy_eq]

/-- The response is received in one stage alone. -/
theorem At.receives (h : At stage c log p q) :
    c.receives = (decide (stage = .answering) && decide (q = .rise 3)) := by
  have hv : c.ctrl.response.valid = decide (q = .rise 3) := by
    rw [Bool.eq_iff_iff, h.response.valid_iff, decide_eq_true_iff]
  have hadmits := h.admits
  rw [Core.receives, hv, h.transactionBusy, h.responseReceived]
  by_cases hq : q = .rise 3
  · subst hq
    cases stage
    all_goals simp_all [Stage.opened, Stage.Admits, Phase.undelivered]
  · simp [hq]

/-- And the transaction ends in one stage alone. -/
theorem At.finishes (h : At stage c log p q) :
    c.finishes = (decide (stage = .received) && decide (p = .idle)) := by
  rw [Core.finishes, h.receives, h.responseReceived, h.request.busy_eq]
  cases stage <;> simp

/-- COMMIT only gets through in the quiet stage. -/
theorem At.commits (h : At stage c log p q) (hbus : c.busAllows e = true) {a : ApbIn}
    (ha : e.apb = some a) (hstage : stage ≠ .quiet) : Regs.commits (c.regsIn a) = false := by
  by_cases hcommanded : stage = .commanded
  · have hno : a.apbAccess = false := by
      rw [Core.busAllows, ha, h.accessBefore hcommanded] at hbus
      simpa using hbus
    have haccess : (c.regsIn a).apb.apbAccess = false := hno
    rw [Regs.commits, haccess]
    rfl
  · have hbusy : (c.regsIn a).commitBusy = true := by
      change c.commitBusy = true
      rw [h.commitBusy]
      cases stage with
      | quiet => exact absurd rfl hstage
      | commanded => exact absurd rfl hcommanded
      | sending | requested | evaluated | answering | received => rfl
    rw [Regs.commits, hbusy]
    exact Bool.and_false _

end

/-! ## The stream side -/

namespace Core

variable {c : Core} {safe : Bool}

/-- The stream side changes nothing unless it evaluates a request. -/
theorem nextState_of_ne (h : c.stream.state ≠ .evaluate) :
    (c.nextState safe).requestAccept = false ∧ (c.nextState safe).responseSend = false ∧
      (c.nextState safe).active = c.stream.active ∧
      (c.nextState safe).generation = c.stream.generation ∧
      (c.nextState safe).responseAccepted = c.stream.responseAccepted ∧
      (c.nextState safe).responseReason = c.stream.responseReason := by
  unfold nextState
  cases hs : c.stream.state with
  | evaluate => exact absurd hs h
  | idle =>
    dsimp only
    split <;> exact ⟨rfl, rfl, rfl, rfl, rfl, rfl⟩
  | waitRequestClear =>
    dsimp only
    split <;> exact ⟨rfl, rfl, rfl, rfl, rfl, rfl⟩

/-- The stream side takes the request if that is safe. -/
theorem nextState_of_evaluate (h : c.stream.state = .evaluate) :
    c.nextState safe = { c.stream with
      responseSend := true, requestAccept := true, state := .waitRequestClear
      generation := if safe then c.stream.generation + 1 else c.stream.generation
      active := if safe then c.stream.request.data else c.stream.active
      responseAccepted := safe
      responseReason := if safe then rejectNone else rejectUnsafeState } := by
  unfold nextState
  rw [h]
  cases safe <;> rfl

/-- It evaluates a request that is there, when the response before is gone. -/
theorem nextState_idle (h : c.stream.state = .idle) : (c.nextState safe).state =
    if c.stream.request.valid && !c.stream.response.busy then .evaluate else .idle := by
  unfold nextState
  rw [h]
  dsimp only
  split
  · rfl
  · exact h

/-- It waits for the request to go away. -/
theorem nextState_wait (h : c.stream.state = .waitRequestClear) : (c.nextState safe).state =
    if c.stream.request.valid then .waitRequestClear else .idle := by
  unfold nextState
  rw [h]
  cases c.stream.request.valid
  · rfl
  · exact h

end Core

/-! ## Moving on -/

/-- What moves a stage on: the edges of the two clocks, a COMMIT that gets through, the evaluation
of the stream side, a response that is there, and a request handshake that is over. -/
def Stage.next (ctrl stream commits evaluates responds rested : Bool) : Stage → Stage
  | .quiet => if ctrl && commits then .commanded else .quiet
  | .commanded => if ctrl then .sending else .commanded
  | .sending => if ctrl then .requested else .sending
  | .requested => if stream && evaluates then .evaluated else .requested
  | .evaluated => if stream then .answering else .evaluated
  | .answering => if ctrl && responds then .received else .answering
  | .received => if ctrl && rested then .quiet else .received

section

variable {stage : Stage} {ctrl stream commits evaluates responds rested : Bool}

theorem Stage.next_ne_received (h : stage ≠ .received) :
    stage.next false stream commits evaluates responds rested ≠ .received := by
  cases stage with
  | received => exact absurd rfl h
  | quiet | commanded | sending | answering => exact nofun
  | requested => cases stream <;> cases evaluates <;> exact nofun
  | evaluated => cases stream <;> exact nofun

/-- Without a COMMIT that gets through nothing is commanded anew. -/
theorem Stage.commanded_of_next
    (h : stage.next ctrl stream commits evaluates responds rested = .commanded)
    (hno : ctrl = false ∨ commits = false) : stage = .commanded ∧ ctrl = false := by
  cases stage with
  | commanded =>
    cases ctrl with
    | false => exact ⟨rfl, rfl⟩
    | true => cases h
  | quiet =>
    rcases hno with rfl | rfl
    · cases h
    · cases ctrl <;> cases h
  | sending => cases ctrl <;> cases h
  | requested => cases stream <;> cases evaluates <;> cases h
  | evaluated => cases stream <;> cases h
  | answering => cases ctrl <;> cases responds <;> cases h
  | received => cases ctrl <;> cases rested <;> cases h

end

theorem undelivered_next_of_not {p : Phase} {src request : Bool} {dest : Option Bool}
    (h : p.undelivered = false) (hr : (src && request) = false) :
    (p.next src request dest).undelivered = false := by
  by_contra hn
  rcases Phase.undelivered_of_next (by simpa using hn) with hu | ⟨-, hsrc, hreq⟩
  · rw [h] at hu
    cases hu
  · rw [hsrc, hreq] at hr
    cases hr

section

variable {stage : Stage} {c : Core} {log : Core.Log} {p q : Phase} {e : Edges}

/-- The stage after the edges. -/
def Core.nextStage (c : Core) (e : Edges) (p q : Phase) (stage : Stage) : Stage :=
  stage.next e.apb.isSome e.safe.isSome (e.apb.any fun a => Regs.commits (c.regsIn a))
    (decide (c.stream.state = .evaluate)) (decide (q = .rise 3)) (decide (p = .idle))

def Core.nextRequest (c : Core) (e : Edges) (p : Phase) : Phase :=
  p.next e.apb.isSome (e.apb.isSome && c.ctrl.requestSend)
    (e.safe.map fun _ => c.stream.requestAccept)

def Core.nextResponse (c : Core) (e : Edges) (q : Phase) : Phase :=
  q.next e.safe.isSome (e.safe.isSome && c.stream.responseSend)
    (e.apb.map fun _ => c.ctrl.responseAccept)

/-- The stream side evaluates in the requested stage only. -/
theorem At.evaluates (h : At stage c log p q) (hs : c.stream.state = .evaluate) :
    stage = .requested ∧ p = .rise 3 ∧ q = .idle := by
  have hadmits := h.admits
  rw [hs] at hadmits
  cases stage with
  | quiet | commanded | sending | evaluated => exact absurd hadmits.1 (by decide)
  | requested =>
    rcases hadmits.2.2 with hidle | ⟨-, hp, hq⟩
    · cases hidle
    · exact ⟨rfl, hp, hq⟩
  | answering | received =>
    rcases hadmits.2.2 with hidle | ⟨hwait, -⟩
    · cases hidle
    · cases hwait

/-- The control bits after the edges are those of the next stage. -/
theorem bits_ctrl (h : At stage c log p q) (hbus : c.busAllows e = true) :
    (c.step e).ctrl.regs.commitCmd = decide (c.nextStage e p q stage = .commanded) ∧
      (c.step e).ctrl.requestSend = decide (c.nextStage e p q stage = .sending) ∧
      (c.step e).ctrl.transactionBusy = (c.nextStage e p q stage).opened ∧
      (c.step e).ctrl.responseReceived = decide (c.nextStage e p q stage = .received) := by
  cases ha : e.apb with
  | none =>
    rw [Core.step_ctrl_none ha, h.commitCmd, h.requestSend, h.transactionBusy, h.responseReceived]
    unfold Core.nextStage
    rw [ha]
    cases stage <;> cases e.safe <;> cases decide (c.stream.state = .evaluate) <;>
      exact ⟨rfl, rfl, rfl, rfl⟩
  | some a =>
    have hcmd : (c.ctrlEdge a).regs.commitCmd = Regs.commits (c.regsIn a) := Regs.commitCmd_edge
    have hbusy := h.commitBusy
    have hnext : c.nextStage e p q stage = stage.next true e.safe.isSome
        (Regs.commits (c.regsIn a)) (decide (c.stream.state = .evaluate)) (decide (q = .rise 3))
        (decide (p = .idle)) := by
      rw [Core.nextStage, ha]
      rfl
    have hcommits := h.commits hbus ha
    have hadmits := h.admits
    rw [Core.step_ctrl ha, hcmd, hnext]
    have hsend : (c.ctrlEdge a).requestSend = (c.ctrl.regs.commitCmd && !c.commitBusy) :=
      Core.nextTransaction_requestSend
    have hreceived : (c.ctrlEdge a).responseReceived =
        (c.receives || !c.finishes && c.ctrl.responseReceived) :=
      Core.nextTransaction_responseReceived
    have hopen : (c.ctrlEdge a).transactionBusy = if c.finishes then false else
        (c.ctrl.transactionBusy || c.ctrl.regs.commitCmd && !c.commitBusy) := by
      cases hf : c.finishes with
      | true => exact (Core.nextTransaction_of_finishes hf).1
      | false => exact Core.nextTransaction_transactionBusy hf
    rw [hsend, hreceived, hopen, h.receives, h.finishes, h.responseReceived, h.commitCmd,
      h.transactionBusy, hbusy]
    cases stage with
    | quiet => cases Regs.commits (c.regsIn a) <;> exact ⟨rfl, rfl, rfl, rfl⟩
    | commanded =>
      obtain ⟨-, hp, -⟩ := hadmits
      rw [hcommits (by decide), hp]
      exact ⟨rfl, rfl, rfl, rfl⟩
    | sending =>
      rw [hcommits (by decide)]
      exact ⟨rfl, rfl, rfl, rfl⟩
    | requested =>
      rw [hcommits (by decide)]
      cases e.safe.isSome <;> cases decide (c.stream.state = .evaluate) <;>
        exact ⟨rfl, rfl, rfl, rfl⟩
    | evaluated =>
      rw [hcommits (by decide)]
      cases e.safe.isSome <;> exact ⟨rfl, rfl, rfl, rfl⟩
    | answering =>
      rw [hcommits (by decide)]
      cases decide (q = .rise 3) <;> exact ⟨rfl, rfl, rfl, rfl⟩
    | received =>
      rw [hcommits (by decide)]
      cases decide (p = .idle) <;> exact ⟨rfl, rfl, rfl, rfl⟩

/-- The bits of the stream side after the edges. -/
theorem bits_stream (h : At stage c log p q) :
    (c.step e).stream.requestAccept = decide (c.nextStage e p q stage = .evaluated) ∧
      (c.step e).stream.responseSend = decide (c.nextStage e p q stage = .evaluated) := by
  have hadmits := h.admits
  cases hs : e.safe with
  | none =>
    rw [Core.step_stream_none hs, h.requestAccept, h.responseSend]
    unfold Core.nextStage
    rw [hs]
    cases stage <;> cases e.apb.isSome <;>
      cases (e.apb.any fun a => Regs.commits (c.regsIn a)) <;> cases decide (q = .rise 3) <;>
      cases decide (p = .idle) <;> exact ⟨rfl, rfl⟩
  | some safe =>
    rw [Core.step_stream hs]
    by_cases he : c.stream.state = .evaluate
    · obtain ⟨rfl, -, -⟩ := h.evaluates he
      have hn := @Core.nextState_of_evaluate c safe he
      unfold Core.nextStage Core.streamEdge
      rw [hs, hn, he]
      exact ⟨rfl, rfl⟩
    · obtain ⟨haccept, hsend, -⟩ := @Core.nextState_of_ne c safe he
      have h1 : (c.streamEdge safe).requestAccept = false := haccept
      have h2 : (c.streamEdge safe).responseSend = false := hsend
      rw [h1, h2]
      unfold Core.nextStage
      rw [hs, decide_eq_false he]
      cases stage <;> cases e.apb.isSome <;>
        cases (e.apb.any fun a => Regs.commits (c.regsIn a)) <;> cases decide (q = .rise 3) <;>
        cases decide (p = .idle) <;> exact ⟨rfl, rfl⟩

/-! ## The handshakes in the next stage -/

/-- The state of the stream side after its edge. -/
theorem step_state (h : At stage c log p q) : (c.step e).stream.state =
    if e.safe.isSome then
      match c.stream.state with
      | .idle => if p = .rise 3 ∧ q = .idle then .evaluate else .idle
      | .evaluate => .waitRequestClear
      | .waitRequestClear => if p = .rise 3 then .waitRequestClear else .idle
    else c.stream.state := by
  have hvalid : c.stream.request.valid = decide (p = .rise 3) := by
    rw [Bool.eq_iff_iff, h.request.valid_iff, decide_eq_true_iff]
  cases hs : e.safe with
  | none =>
    rw [Core.step_stream_none hs]
    rfl
  | some safe =>
    rw [Core.step_stream hs]
    change (c.nextState safe).state = _
    rw [Option.isSome_some, if_pos rfl]
    cases hst : c.stream.state with
    | idle =>
      rw [Core.nextState_idle hst, hvalid, h.response.busy_eq]
      by_cases hp : p = .rise 3 <;> by_cases hq : q = .idle <;> simp [hp, hq]
    | evaluate =>
      rw [Core.nextState_of_evaluate hst]
    | waitRequestClear =>
      rw [Core.nextState_wait hst, hvalid]
      by_cases hp : p = .rise 3 <;> simp [hp]

/-- At the destination the phase waits to be accepted. -/
theorem rise_three_next {src : Bool} {dest : Option Bool} (h : dest ≠ some true) :
    (Phase.rise 3).next src false dest = .rise 3 := by
  simp [Phase.next, h]

/-- A request that is not accepted stays on its way. -/
theorem undelivered_next_of_ne {p : Phase} {src request : Bool} {dest : Option Bool}
    (h : p.undelivered = true) (hd : dest ≠ some true) :
    (p.next src request dest).undelivered = true :=
  (Phase.undelivered_next h).resolve_right fun hr => hd hr.2

/-- The phases of an open request after an edge of the stream side: it is over there. -/
theorem wait_next (h : At stage c log p q) (hundelivered : p.undelivered = false)
    (hstate : c.stream.state = .idle ∨
      c.stream.state = .waitRequestClear ∧ p.delivered = true) :
    (c.step e).stream.state = .idle ∨ (c.step e).stream.state = .waitRequestClear ∧
      (c.nextRequest e p).delivered = true := by
  have hne : p ≠ .rise 3 := by
    rintro rfl
    cases hundelivered
  rw [step_state h]
  cases hs : e.safe with
  | none =>
    refine hstate.imp id fun hw => ⟨hw.1, ?_⟩
    unfold Core.nextRequest
    rw [hs]
    exact Phase.delivered_next hw.2
  | some safe =>
    left
    rcases hstate with hi | ⟨hw, -⟩
    · rw [hi]
      simp [hne]
    · rw [hw]
      simp [hne]

/-- Where the stream side and the handshakes are in the next stage. -/
theorem admits_step (h : At stage c log p q) :
    (c.nextStage e p q stage).Admits (c.step e).stream.state (c.nextRequest e p)
      (c.nextResponse e q) := by
  have hadmits := h.admits
  have hsend := h.requestSend
  have haccept := h.requestAccept
  have hrespond := h.responseSend
  have hreceive := h.responseAccept
  have hstate := step_state (e := e) h
  cases stage with
  | quiet =>
    obtain ⟨hst, rfl, hq⟩ := hadmits
    have hidle : (c.nextStage e .idle q .quiet).Admits .idle .idle (c.nextResponse e q) := by
      have hq' : (c.nextResponse e q).undelivered = false :=
        undelivered_next_of_not hq (by rw [hrespond]; simp)
      unfold Core.nextStage
      cases e.apb.isSome <;> cases (e.apb.any fun a => Regs.commits (c.regsIn a)) <;>
        exact ⟨rfl, rfl, hq'⟩
    have hp' : c.nextRequest e .idle = .idle := by
      rw [Core.nextRequest, hsend]
      simp [Phase.next]
    rw [hstate, hst, hp']
    simpa using hidle
  | commanded =>
    obtain ⟨hst, rfl, hq⟩ := hadmits
    have hq' : (c.nextResponse e q).undelivered = false :=
      undelivered_next_of_not hq (by rw [hrespond]; simp)
    have hp' : c.nextRequest e .idle = .idle := by
      rw [Core.nextRequest, hsend]
      simp [Phase.next]
    have hidle : (c.nextStage e .idle q .commanded).Admits .idle .idle (c.nextResponse e q) := by
      unfold Core.nextStage
      cases e.apb.isSome <;> exact ⟨rfl, rfl, hq'⟩
    rw [hstate, hst, hp']
    simpa using hidle
  | sending =>
    obtain ⟨hst, rfl, hq⟩ := hadmits
    have hq' : (c.nextResponse e q).undelivered = false :=
      undelivered_next_of_not hq (by rw [hrespond]; simp)
    have hst' : (c.step e).stream.state = .idle := by
      rw [hstate, hst]
      simp
    unfold Core.nextStage Core.nextRequest
    rw [hst', hsend]
    cases e.apb.isSome with
    | false => exact ⟨rfl, rfl, hq'⟩
    | true => exact ⟨rfl, hq', .inl rfl⟩
  | requested =>
    obtain ⟨hp, hq, hor⟩ := hadmits
    have hq' : (c.nextResponse e q).undelivered = false :=
      undelivered_next_of_not hq (by rw [hrespond]; simp)
    have hdest : (e.safe.map fun _ => c.stream.requestAccept) ≠ some true := by
      rw [haccept]
      cases e.safe <;> simp
    have hp' : (c.nextRequest e p).undelivered = true := undelivered_next_of_ne hp hdest
    rcases hor with hst | ⟨hst, rfl, rfl⟩
    · have hstay : c.nextStage e p q .requested = .requested := by
        unfold Core.nextStage
        rw [hst]
        cases e.safe.isSome <;> rfl
      rw [hstay, hstate, hst]
      refine ⟨hp', hq', ?_⟩
      by_cases hgo : e.safe.isSome = true ∧ p = .rise 3 ∧ q = .idle
      · obtain ⟨hs, rfl, rfl⟩ := hgo
        right
        refine ⟨by simp [hs], ?_, ?_⟩
        · rw [Core.nextRequest, hsend]
          simpa using rise_three_next hdest
        · rw [Core.nextResponse, hrespond]
          simp [Phase.next]
      · left
        split
        · next hs => exact if_neg fun hpq => hgo ⟨hs, hpq⟩
        · rfl
    · have hp3 : c.nextRequest e (.rise 3) = .rise 3 := by
        rw [Core.nextRequest, hsend]
        simpa using rise_three_next hdest
      have hqi : c.nextResponse e .idle = .idle := by
        rw [Core.nextResponse, hrespond]
        simp [Phase.next]
      rw [hp3, hqi, hstate, hst]
      unfold Core.nextStage
      rw [hst]
      cases e.safe.isSome with
      | false => exact ⟨rfl, rfl, .inr ⟨rfl, rfl, rfl⟩⟩
      | true => exact ⟨rfl, rfl, rfl⟩
  | evaluated =>
    obtain ⟨hst, rfl, rfl⟩ := hadmits
    rw [hstate, hst]
    unfold Core.nextStage Core.nextRequest Core.nextResponse
    rw [hsend, haccept, hrespond]
    cases hs : e.safe with
    | none =>
      refine ⟨rfl, ?_, rfl⟩
      simp [Phase.next]
    | some safe => exact ⟨rfl, rfl, .inr ⟨rfl, rfl⟩⟩
  | answering =>
    obtain ⟨hp, hq, hor⟩ := hadmits
    have hp' : (c.nextRequest e p).undelivered = false :=
      undelivered_next_of_not hp (by rw [hsend]; simp)
    have hwait := wait_next (e := e) h hp hor
    have hdest : (e.apb.map fun _ => c.ctrl.responseAccept) ≠ some true := by
      rw [hreceive]
      cases e.apb <;> simp
    have hq' : (c.nextResponse e q).undelivered = true := undelivered_next_of_ne hq hdest
    by_cases hgo : (e.apb.isSome && decide (q = .rise 3)) = true
    · obtain ⟨ha, hq3⟩ := Bool.and_eq_true_iff.mp hgo
      have hq3 := of_decide_eq_true hq3
      subst hq3
      have hnext : c.nextStage e p (.rise 3) .answering = .received := by
        simp [Core.nextStage, Stage.next, ha]
      rw [hnext]
      refine ⟨hp', .inl ?_, hwait⟩
      rw [Core.nextResponse, hrespond]
      simpa using rise_three_next hdest
    · have hnext : c.nextStage e p q .answering = .answering := by
        simp only [Core.nextStage, Stage.next]
        rw [if_neg hgo]
      rw [hnext]
      exact ⟨hp', hq', hwait⟩
  | received =>
    obtain ⟨hp, hor, hor'⟩ := hadmits
    have hp' : (c.nextRequest e p).undelivered = false :=
      undelivered_next_of_not hp (by rw [hsend]; simp)
    have hwait := wait_next (e := e) h hp hor'
    -- the response is acknowledged on the next edge of the control side
    have hq' : (c.nextResponse e q = .rise 3 ∧ e.apb.isSome = false) ∨
        (c.nextResponse e q).undelivered = false := by
      rcases hor with rfl | hq
      · rw [Core.nextResponse, hrespond, hreceive]
        cases e.apb with
        | none => exact .inl ⟨by simpa using rise_three_next (by simp), rfl⟩
        | some a => exact .inr rfl
      · exact .inr (undelivered_next_of_not hq (by rw [hrespond]; simp))
    by_cases hgo : (e.apb.isSome && decide (p = .idle)) = true
    · obtain ⟨ha, hpi⟩ := Bool.and_eq_true_iff.mp hgo
      have hpi := of_decide_eq_true hpi
      subst hpi
      have hidle : c.nextRequest e .idle = .idle := by
        rw [Core.nextRequest, hsend]
        simp [Phase.next]
      have hnext : c.nextStage e .idle q .received = .quiet := by
        simp [Core.nextStage, Stage.next, ha]
      rw [hidle] at hwait
      rw [hnext, hidle]
      refine ⟨hwait.resolve_right fun hw => ?_, rfl, hq'.resolve_left fun hno => ?_⟩
      · cases hw.2
      · rw [hno.2] at ha
        cases ha
    · have hnext : c.nextStage e p q .received = .received := by
        simp only [Core.nextStage, Stage.next]
        rw [if_neg hgo]
      rw [hnext]
      exact ⟨hp', hq'.imp (·.1) id, hwait⟩

theorem responseAccept_step (h : At stage c log p q) :
    (c.step e).ctrl.responseAccept = (decide (c.nextStage e p q stage = .received) &&
      decide (c.nextResponse e q = .rise 3)) := by
  have hadmits := h.admits
  have hrespond := h.responseSend
  have hreceive := h.responseAccept
  have hlate : q.undelivered = false → stage = .received → c.nextResponse e q ≠ .rise 3 := by
    intro hq hst h3
    have hq' : (c.nextResponse e q).undelivered = false :=
      undelivered_next_of_not hq (by rw [hrespond, hst]; simp)
    rw [h3] at hq'
    cases hq'
  cases ha : e.apb with
  | none =>
    rw [Core.step_ctrl_none ha, hreceive]
    by_cases hst : stage = .received
    · subst hst
      have hnext : c.nextStage e p q .received = .received := by
        simp [Core.nextStage, Stage.next, ha]
      rw [hnext]
      rcases hadmits.2.1 with rfl | hq
      · have hq3 : c.nextResponse e (.rise 3) = .rise 3 := by
          rw [Core.nextResponse, hrespond, ha]
          simpa using rise_three_next (by simp)
        rw [hq3]
      · have hne : q ≠ .rise 3 := by
          rintro rfl
          cases hq
        rw [decide_eq_false hne, decide_eq_false (hlate hq rfl)]
    · have hnext : c.nextStage e p q stage ≠ .received := by
        unfold Core.nextStage
        rw [ha]
        exact Stage.next_ne_received hst
      rw [decide_eq_false hst, decide_eq_false hnext]
      rfl
  | some a =>
    rw [Core.step_ctrl ha]
    change c.nextTransaction.responseAccept = _
    rw [Core.nextTransaction_responseAccept, h.receives]
    cases stage with
    | received =>
      -- the response is taken once: at the next edge it is no longer there
      have hq' : c.nextResponse e q ≠ .rise 3 := by
        rcases hadmits.2.1 with rfl | hq
        · rw [Core.nextResponse, hrespond, hreceive, ha]
          simp [Phase.next]
        · exact hlate hq rfl
      rw [decide_eq_false hq', Bool.and_false]
      rfl
    | answering =>
      -- it is accepted at the edge at which it is seen
      have hdest : (e.apb.map fun _ => c.ctrl.responseAccept) ≠ some true := by
        rw [hreceive]
        cases e.apb <;> simp
      by_cases hq : q = .rise 3
      · subst hq
        have hq3 : c.nextResponse e (.rise 3) = .rise 3 := by
          rw [Core.nextResponse, hrespond]
          simpa using rise_three_next hdest
        simp [Core.nextStage, Stage.next, ha, hq3]
      · simp [Core.nextStage, Stage.next, ha, hq]
    | quiet =>
      unfold Core.nextStage
      rw [ha]
      cases (some a).any fun a => Regs.commits (c.regsIn a) <;> rfl
    | commanded | sending =>
      unfold Core.nextStage
      rw [ha]
      rfl
    | requested =>
      unfold Core.nextStage
      rw [ha]
      cases e.safe.isSome <;> cases decide (c.stream.state = .evaluate) <;> rfl
    | evaluated =>
      unfold Core.nextStage
      rw [ha]
      cases e.safe.isSome <;> rfl

/-- Behind a command the bus has just had an access. -/
theorem accessBefore_step (h : At stage c log p q)
    (hnext : c.nextStage e p q stage = .commanded) : (c.step e).ctrl.accessBefore = true := by
  unfold Core.nextStage at hnext
  cases ha : e.apb with
  | none =>
    rw [Core.step_ctrl_none ha]
    rw [ha] at hnext
    exact h.accessBefore (Stage.commanded_of_next hnext (.inl rfl)).1
  | some a =>
    rw [Core.step_ctrl ha]
    change a.apbAccess = true
    have hcommits : Regs.commits (c.regsIn a) = true := by
      by_contra hno
      rw [ha] at hnext
      cases (Stage.commanded_of_next hnext (.inr (by simpa using hno))).2
    simp only [Regs.commits, Bool.and_eq_true] at hcommits
    exact hcommits.1.1.1.1

/-! ## What is asked, done and answered in the next stage -/

/-- The bus side keeps its mirror until a response is received. -/
theorem ctrl_keeps (h : c.receives = false) : (c.step e).ctrl.active = c.ctrl.active ∧
    (c.step e).ctrl.generation = c.ctrl.generation ∧
    (c.step e).ctrl.responseAccepted = c.ctrl.responseAccepted ∧
    (c.step e).ctrl.responseReason = c.ctrl.responseReason := by
  cases ha : e.apb with
  | none =>
    rw [Core.step_ctrl_none ha]
    exact ⟨rfl, rfl, rfl, rfl⟩
  | some a =>
    rw [Core.step_ctrl ha]
    exact Core.nextTransaction_of_not_receives h

/-- The stream side keeps its configuration until it evaluates. -/
theorem stream_keeps (h : c.stream.state ≠ .evaluate ∨ e.safe = none) :
    (c.step e).stream.active = c.stream.active ∧
      (c.step e).stream.generation = c.stream.generation ∧
      (c.step e).stream.responseAccepted = c.stream.responseAccepted ∧
      (c.step e).stream.responseReason = c.stream.responseReason := by
  cases hs : e.safe with
  | none =>
    rw [Core.step_stream_none hs]
    exact ⟨rfl, rfl, rfl, rfl⟩
  | some safe =>
    rw [Core.step_stream hs]
    rw [hs] at h
    exact (Core.nextState_of_ne (h.resolve_right (by simp))).2.2

/-- So the mirror holds between the two. -/
theorem mirrors_keeps (h : c.Mirrors) (hr : c.receives = false)
    (hs : c.stream.state ≠ .evaluate ∨ e.safe = none) : (c.step e).Mirrors := by
  obtain ⟨ha, hg, -, -⟩ := ctrl_keeps (e := e) hr
  obtain ⟨ha', hg', -, -⟩ := stream_keeps hs
  exact ⟨by rw [ha, ha', h.1], by rw [hg, hg', h.2]⟩

theorem outcomeAt_keeps (hs : c.stream.state ≠ .evaluate ∨ e.safe = none) :
    c.outcomeAt e = [] := by
  unfold Core.outcomeAt
  cases he : e.safe with
  | none => rfl
  | some safe =>
    rw [he] at hs
    exact if_neg (hs.resolve_right (by simp))

theorem commandAt_keeps (h : At stage c log p q) (hbus : c.busAllows e = true)
    (hstage : stage ≠ .quiet) : c.commandAt e = [] := by
  unfold Core.commandAt
  cases ha : e.apb with
  | none => rfl
  | some a => exact if_neg (by rw [h.commits hbus ha hstage]; simp)

/-- The shadow stays while a commit is under way. -/
theorem shadow_keeps (h : At stage c log p q) (hbus : c.busAllows e = true)
    (hstage : stage ≠ .quiet) : (c.step e).ctrl.regs.shadow = c.ctrl.regs.shadow := by
  cases ha : e.apb with
  | none => rw [Core.step_ctrl_none ha]
  | some a =>
    rw [Core.step_ctrl ha]
    refine Regs.shadow_edge ?_
    by_cases hcommanded : stage = .commanded
    · left
      rw [Core.busAllows, ha, h.accessBefore hcommanded] at hbus
      have hno : a.apbAccess = false := by simpa using hbus
      exact hno
    · right
      change c.commitBusy = true
      rw [h.commitBusy]
      cases stage with
      | quiet => exact absurd rfl hstage
      | commanded => exact absurd rfl hcommanded
      | sending | requested | evaluated | answering | received => rfl

theorem request_keeps (h : InPhase c.ctrl.request c.stream.request p) (hp : p ≠ .idle) :
    (c.step e).ctrl.request.data = c.ctrl.request.data := by
  cases ha : e.apb with
  | none => rw [Core.step_ctrl_none ha]
  | some a =>
    rw [Core.step_ctrl ha]
    exact Handshake.stepSource_data_of_ne h hp _

theorem response_keeps (h : InPhase c.stream.response c.ctrl.response q) (hq : q ≠ .idle) :
    (c.step e).stream.response.data = c.stream.response.data := by
  cases hs : e.safe with
  | none => rw [Core.step_stream_none hs]
  | some safe =>
    rw [Core.step_stream hs]
    exact Handshake.stepSource_data_of_ne h hq _

theorem log_keeps {log : Core.Log} (hc : c.commandAt e = []) (ho : c.outcomeAt e = [])
    (hr : c.responseAt e = []) : log.next c e = log := by
  unfold Core.Log.next
  rw [hc, ho, hr, List.append_nil, List.append_nil, List.append_nil]

theorem not_evaluate (h : At stage c log p q) (hstage : stage ≠ .requested) :
    c.stream.state ≠ .evaluate ∨ e.safe = none :=
  .inl fun hs => hstage (h.evaluates hs).1

theorem data_quiet (h : At .quiet c log p q) :
    (c.nextStage e p q .quiet).Data (c.step e) (log.next c e) := by
  obtain ⟨hm, ha⟩ := h.data
  have hs := not_evaluate (e := e) h (by decide)
  have hm' := mirrors_keeps hm (by rw [h.receives]; rfl) hs
  have hresponse := Core.responseAt_of_not_finishes (c := c) (by rw [h.finishes]; rfl) e
  have houtcome := outcomeAt_keeps hs
  cases hapb : e.apb with
  | none =>
    have hcommand : c.commandAt e = [] := by
      unfold Core.commandAt
      rw [hapb]
    have hnext : c.nextStage e p q .quiet = .quiet := by
      unfold Core.nextStage
      rw [hapb]
      rfl
    rw [hnext, log_keeps hcommand houtcome hresponse]
    exact ⟨hm', ha⟩
  | some a =>
    cases hc : Regs.commits (c.regsIn a) with
    | false =>
      have hcommand : c.commandAt e = [] := by
        unfold Core.commandAt
        rw [hapb]
        exact if_neg (by rw [hc]; simp)
      have hnext : c.nextStage e p q .quiet = .quiet := by
        unfold Core.nextStage
        rw [hapb, Option.any_some, hc]
        rfl
      rw [hnext, log_keeps hcommand houtcome hresponse]
      exact ⟨hm', ha⟩
    | true =>
      have hcommand : c.commandAt e = [c.ctrl.regs.shadow] := by
        unfold Core.commandAt
        rw [hapb]
        exact if_pos hc
      have hnext : c.nextStage e p q .quiet = .commanded := by
        unfold Core.nextStage
        rw [hapb, Option.any_some, hc]
        rfl
      -- the write of COMMIT leaves the shadow as it is
      have hshadow : (c.step e).ctrl.regs.shadow = c.ctrl.regs.shadow := by
        rw [Core.step_ctrl hapb]
        exact Regs.shadow_of_commits hc
      rw [hnext]
      refine ⟨hm', ?_, ?_⟩
      · simp only [Core.Log.next, hcommand, houtcome, List.append_nil, hshadow]
        rw [ha.commands, List.append_nil]
      · simp only [Core.Log.next, houtcome, hresponse, List.append_nil]
        exact ha.responses

/-- From the command to the request under way. -/
theorem data_request (h : At stage c log p q) (hbus : c.busAllows e = true)
    (hstage : stage = .commanded ∨ stage = .sending) :
    (c.nextStage e p q stage).Data (c.step e) (log.next c e) := by
  have hquiet : stage ≠ .quiet := by rcases hstage with rfl | rfl <;> decide
  have hs := not_evaluate (e := e) h (by rcases hstage with rfl | rfl <;> decide)
  have hr : c.receives = false := by rw [h.receives]; rcases hstage with rfl | rfl <;> rfl
  have hf : c.finishes = false := by rw [h.finishes]; rcases hstage with rfl | rfl <;> rfl
  have hlog : log.next c e = log := log_keeps (commandAt_keeps h hbus hquiet) (outcomeAt_keeps hs)
    (Core.responseAt_of_not_finishes hf e)
  have hshadow := shadow_keeps h hbus hquiet
  rw [hlog]
  rcases hstage with rfl | rfl
  · obtain ⟨hm, ha⟩ := h.data
    have hm' := mirrors_keeps hm hr hs
    rw [← hshadow] at ha
    unfold Core.nextStage
    cases e.apb.isSome <;> exact ⟨hm', ha⟩
  · obtain ⟨hm, ha⟩ := h.data
    have hm' := mirrors_keeps hm hr hs
    cases hapb : e.apb with
    | none =>
      rw [← hshadow] at ha
      unfold Core.nextStage
      rw [hapb]
      exact ⟨hm', ha⟩
    | some a =>
      obtain ⟨-, rfl, -⟩ := h.admits
      have hdata : (c.step e).ctrl.request.data = c.ctrl.regs.shadow := by
        rw [Core.step_ctrl hapb]
        have hinput : c.requestInput = some c.ctrl.regs.shadow := by
          rw [Core.requestInput, h.requestSend]
          rfl
        change (Handshake.stepSource c.ctrl.request c.stream.request (some c.requestInput)).data = _
        rw [hinput]
        exact Handshake.stepSource_data_of_idle h.request _
      rw [← hdata] at ha
      unfold Core.nextStage
      rw [hapb]
      exact ⟨hm', ha⟩

theorem data_requested (h : At .requested c log p q) (hbus : c.busAllows e = true) :
    (c.nextStage e p q .requested).Data (c.step e) (log.next c e) := by
  obtain ⟨hm, ha⟩ := h.data
  have hr : c.receives = false := by rw [h.receives]; rfl
  have hf : c.finishes = false := by rw [h.finishes]; rfl
  have hcommand := commandAt_keeps h hbus (by decide)
  have hresponse := Core.responseAt_of_not_finishes hf e
  have hne : p ≠ .idle := by
    rintro rfl
    cases h.admits.1
  by_cases hgo : c.stream.state ≠ .evaluate ∨ e.safe = none
  · have hnext : c.nextStage e p q .requested = .requested := by
      unfold Core.nextStage
      rcases hgo with hs | hs
      · rw [decide_eq_false hs]
        cases e.safe.isSome <;> rfl
      · rw [hs]
        rfl
    rw [← request_keeps h.request hne (e := e)] at ha
    rw [hnext, log_keeps hcommand (outcomeAt_keeps hgo) hresponse]
    exact ⟨mirrors_keeps hm hr hgo, ha⟩
  · obtain ⟨hs, hsafe⟩ := not_or.mp hgo
    have hs := not_not.mp hs
    obtain ⟨safe, hsafe⟩ := Option.ne_none_iff_exists'.mp hsafe
    obtain ⟨-, rfl, rfl⟩ := h.evaluates hs
    have hdata : c.stream.request.data = c.ctrl.request.data :=
      h.request.data_of_valid (h.request.valid_iff.mpr rfl)
    have houtcome : c.outcomeAt e =
        [⟨c.ctrl.request.data, safe, if safe then rejectNone else rejectUnsafeState⟩] := by
      unfold Core.outcomeAt
      rw [hsafe]
      dsimp only
      rw [if_pos hs, hdata]
    have hnext : c.nextStage e (.rise 3) .idle .requested = .evaluated := by
      unfold Core.nextStage
      rw [hsafe, hs]
      rfl
    have hstream := @Core.nextState_of_evaluate c safe hs
    rw [hnext]
    refine ⟨⟨c.ctrl.request.data, safe, if safe then rejectNone else rejectUnsafeState⟩,
      ⟨?_, log.outcomes, ?_, ?_⟩, ?_, ?_, fun hrejected => ?_⟩
    · simp only [Core.Log.next, hcommand, houtcome, List.append_nil, List.map_append,
        List.map_cons, List.map_nil]
      exact ha.commands
    · simp only [Core.Log.next, houtcome]
    · simp only [Core.Log.next, hresponse, List.append_nil]
      exact ha.responses
    · rw [Core.step_stream hsafe]
      change (c.nextState safe).responseAccepted = _
      rw [hstream]
    · rw [Core.step_stream hsafe]
      change (c.nextState safe).responseReason = _
      rw [hstream]
    · have hsafe' : safe = false := hrejected
      obtain ⟨hactive, hgeneration, -, -⟩ := ctrl_keeps (e := e) hr
      have h1 : (c.step e).stream.active = c.stream.active := by
        rw [Core.step_stream hsafe]
        change (c.nextState safe).active = _
        rw [hstream, hsafe']
        rfl
      have h2 : (c.step e).stream.generation = c.stream.generation := by
        rw [Core.step_stream hsafe]
        change (c.nextState safe).generation = _
        rw [hstream, hsafe']
        rfl
      exact ⟨by rw [hactive, h1, hm.1], by rw [hgeneration, h2, hm.2]⟩

theorem data_evaluated (h : At .evaluated c log p q) (hbus : c.busAllows e = true) :
    (c.nextStage e p q .evaluated).Data (c.step e) (log.next c e) := by
  obtain ⟨o, hpending, haccepted, hreason, hm⟩ := h.data
  have hr : c.receives = false := by rw [h.receives]; rfl
  have hs := not_evaluate (e := e) h (by decide)
  have hlog : log.next c e = log := log_keeps (commandAt_keeps h hbus (by decide))
    (outcomeAt_keeps hs) (Core.responseAt_of_not_finishes (by rw [h.finishes]; rfl) e)
  have hm' : o.accepted = false → (c.step e).Mirrors := fun ho => mirrors_keeps (hm ho) hr hs
  obtain ⟨hactive, hgeneration, haccepted', hreason'⟩ := stream_keeps hs
  rw [hlog]
  unfold Core.nextStage
  cases hsafe : e.safe with
  | none => exact ⟨o, hpending, haccepted'.trans haccepted, hreason'.trans hreason, hm'⟩
  | some safe =>
    obtain ⟨-, -, rfl⟩ := h.admits
    refine ⟨o, hpending, ?_, hm'⟩
    have hinput : c.responseInput =
        some ⟨o.accepted, o.reason, c.stream.generation, c.stream.active⟩ := by
      rw [Core.responseInput, h.responseSend, haccepted, hreason]
      rfl
    have hdata : (c.step e).stream.response.data =
        ⟨o.accepted, o.reason, c.stream.generation, c.stream.active⟩ := by
      rw [Core.step_stream hsafe]
      change (Handshake.stepSource c.stream.response c.ctrl.response
        (some c.responseInput)).data = _
      rw [hinput]
      exact Handshake.stepSource_data_of_idle h.response _
    rw [hdata, hactive, hgeneration]

theorem data_answering (h : At .answering c log p q) (hbus : c.busAllows e = true) :
    (c.nextStage e p q .answering).Data (c.step e) (log.next c e) := by
  obtain ⟨o, hpending, hdata, hm⟩ := h.data
  have hs := not_evaluate (e := e) h (by decide)
  have hlog : log.next c e = log := log_keeps (commandAt_keeps h hbus (by decide))
    (outcomeAt_keeps hs) (Core.responseAt_of_not_finishes (by rw [h.finishes]; rfl) e)
  obtain ⟨hactive, hgeneration, -, -⟩ := stream_keeps hs
  have hne : q ≠ .idle := by
    rintro rfl
    cases h.admits.2.1
  rw [hlog]
  by_cases hgo : (e.apb.isSome && decide (q = .rise 3)) = true
  · obtain ⟨hapb, hq⟩ := Bool.and_eq_true_iff.mp hgo
    have hq := of_decide_eq_true hq
    subst hq
    obtain ⟨a, hapb⟩ := Option.isSome_iff_exists.mp hapb
    have hr : c.receives = true := by rw [h.receives]; rfl
    have hvalid : c.ctrl.response.data = c.stream.response.data :=
      h.response.data_of_valid (h.response.valid_iff.mpr rfl)
    obtain ⟨h1, h2, h3, h4⟩ := Core.nextTransaction_of_receives hr
    rw [hvalid, hdata] at h1 h2 h3 h4
    have hnext : c.nextStage e p (.rise 3) .answering = .received := by
      simp [Core.nextStage, Stage.next, hapb]
    rw [hnext]
    have hctrl : (c.step e).ctrl = c.ctrlEdge a := Core.step_ctrl hapb
    refine ⟨o, hpending, ?_, ?_, ?_, ?_⟩
    · rw [hctrl]
      exact h1
    · rw [hctrl]
      exact h2
    · rw [hctrl, hactive]
      refine h3.trans ?_
      cases ho : o.accepted with
      | true => rfl
      | false => exact (hm ho).1
    · rw [hctrl, hgeneration]
      refine h4.trans ?_
      cases ho : o.accepted with
      | true => rfl
      | false => exact (hm ho).2
  · have hnext : c.nextStage e p q .answering = .answering := by
      simp only [Core.nextStage, Stage.next]
      rw [if_neg hgo]
    rw [hnext]
    refine ⟨o, hpending, ?_, fun ho => ?_⟩
    · rw [response_keeps h.response hne, hdata, hactive, hgeneration]
    · obtain ⟨hm1, hm2⟩ := hm ho
      cases hapb : e.apb with
      | none =>
        have hctrl := Core.step_ctrl_none (c := c) hapb
        exact ⟨by rw [hctrl, hactive, hm1], by rw [hctrl, hgeneration, hm2]⟩
      | some a =>
        have hr : c.receives = false := by
          rw [hapb] at hgo
          rw [h.receives]
          simpa using hgo
        exact mirrors_keeps ⟨hm1, hm2⟩ hr hs

theorem data_received (h : At .received c log p q) (hbus : c.busAllows e = true) :
    (c.nextStage e p q .received).Data (c.step e) (log.next c e) := by
  obtain ⟨o, hpending, haccepted, hreason, hm⟩ := h.data
  have hr : c.receives = false := by rw [h.receives]; rfl
  have hs := not_evaluate (e := e) h (by decide)
  have hm' := mirrors_keeps hm hr hs
  have hcommand := commandAt_keeps h hbus (by decide)
  have houtcome := outcomeAt_keeps hs
  obtain ⟨-, -, haccepted', hreason'⟩ := ctrl_keeps (e := e) hr
  by_cases hgo : (e.apb.isSome && decide (p = .idle)) = true
  · obtain ⟨hapb, hp⟩ := Bool.and_eq_true_iff.mp hgo
    obtain ⟨a, hapb⟩ := Option.isSome_iff_exists.mp hapb
    have hf : c.finishes = true := by
      rw [h.finishes, hp]
      rfl
    have hresponse := Core.responseAt_of_finishes hf hapb
    have hnext : c.nextStage e p q .received = .quiet := by
      simp only [Core.nextStage, Stage.next]
      rw [if_pos hgo]
    obtain ⟨old, hold, hanswers⟩ := hpending.last
    rw [hnext]
    refine ⟨hm', ?_, ?_⟩
    · simp only [Core.Log.next, hcommand, houtcome, List.append_nil]
      exact hpending.commands
    · simp only [Core.Log.next, houtcome, hresponse, List.append_nil]
      rw [hanswers, hold, List.map_append, haccepted, hreason]
      rfl
  · have hresponse : c.responseAt e = [] := by
      cases hapb : e.apb with
      | none =>
        unfold Core.responseAt
        rw [hapb]
      | some a =>
        refine Core.responseAt_of_not_finishes ?_ e
        rw [hapb] at hgo
        rw [h.finishes]
        simpa using hgo
    have hnext : c.nextStage e p q .received = .received := by
      simp only [Core.nextStage, Stage.next]
      rw [if_neg hgo]
    rw [hnext, log_keeps hcommand houtcome hresponse]
    exact ⟨o, hpending, haccepted'.trans haccepted, hreason'.trans hreason, hm'⟩

/-- Every edge keeps the mailbox in its stage or moves it to the next one. -/
theorem at_step (h : At stage c log p q) (hbus : c.busAllows e = true) :
    At (c.nextStage e p q stage) (c.step e) (log.next c e) (c.nextRequest e p)
      (c.nextResponse e q) where
  request := Core.inPhase_request h.request
  response := Core.inPhase_response h.response
  commitCmd := (bits_ctrl h hbus).1
  requestSend := (bits_ctrl h hbus).2.1
  transactionBusy := (bits_ctrl h hbus).2.2.1
  responseReceived := (bits_ctrl h hbus).2.2.2
  responseAccept := responseAccept_step h
  requestAccept := (bits_stream h).1
  responseSend := (bits_stream h).2
  accessBefore := accessBefore_step h
  admits := admits_step h
  data := by
    cases stage with
    | quiet => exact data_quiet h
    | commanded => exact data_request h hbus (.inl rfl)
    | sending => exact data_request h hbus (.inr rfl)
    | requested => exact data_requested h hbus
    | evaluated => exact data_evaluated h hbus
    | answering => exact data_answering h hbus
    | received => exact data_received h hbus

theorem at_reset : At .quiet Core.reset Core.Log.empty .idle .idle where
  request := Handshake.inPhase_reset _ _
  response := Handshake.inPhase_reset _ _
  commitCmd := rfl
  requestSend := rfl
  transactionBusy := rfl
  responseReceived := rfl
  responseAccept := rfl
  requestAccept := rfl
  responseSend := rfl
  accessBefore := nofun
  admits := ⟨rfl, rfl, rfl⟩
  data := ⟨⟨rfl, rfl⟩, rfl, rfl⟩

end

end QCrate.Mailbox
