import QCrate.Lib.Crossing
import QCrate.Lib.Machine
import QCrate.Mailbox.Regs

/-!
# The configuration mailbox between its two clocks

`qcrate_dsp_config_cdc.sv` with the register block on `clk_ctrl_i`: a commit goes to the stream side
through one handshake, and its outcome comes back through another. The handshakes are in their form
for simulation, and both resets are over.

A step is an edge of one clock or of both, and every register reads the state before the step. On
the bus, an access phase never follows another one directly.
-/

namespace QCrate.Mailbox

open QCrate.Lib
open QCrate.Sequence (ApbIn)

/-! ## State -/

/-- `response_data_stream` -/
structure Response where
  accepted : Bool
  reason : BitVec 2
  generation : BitVec 32
  active : DspConfig
  deriving DecidableEq, Repr

/-- The registers on `ctrl_clk_i`. `active` and `generation` mirror those of the stream side. -/
structure Ctrl where
  regs : Regs
  accessBefore : Bool
  request : Handshake.Source DspConfig
  response : Handshake.Dest Response
  requestSend : Bool
  responseAccept : Bool
  transactionBusy : Bool
  responseReceived : Bool
  responseAccepted : Bool
  responseReason : BitVec 2
  commitAccepted : Bool
  commitRejected : Bool
  commitRejectReason : BitVec 2
  activeValid : Bool
  generation : BitVec 32
  active : DspConfig
  deriving DecidableEq, Repr

inductive StreamState where
  | idle | evaluate | waitRequestClear
  deriving DecidableEq, Repr

/-- The registers on `stream_clk_i`. -/
structure Stream where
  request : Handshake.Dest DspConfig
  response : Handshake.Source Response
  requestAccept : Bool
  responseSend : Bool
  responseAccepted : Bool
  responseReason : BitVec 2
  state : StreamState
  generation : BitVec 32
  active : DspConfig
  deriving DecidableEq, Repr

structure Core where
  ctrl : Ctrl
  stream : Stream
  deriving DecidableEq, Repr

/-- The edges of a step: the bus inputs of an edge of `ctrl_clk_i`, and `safe_to_commit_i` at an
edge of `stream_clk_i`. -/
structure Edges where
  apb : Option ApbIn
  safe : Option Bool
  deriving DecidableEq, Repr

namespace Core

def reset : Core :=
  { ctrl :=
      { regs := Regs.reset
        accessBefore := false
        request := .reset DspConfig.reset
        response := .reset ⟨false, 0, 0, DspConfig.reset⟩
        requestSend := false
        responseAccept := false
        transactionBusy := false
        responseReceived := false
        responseAccepted := false
        responseReason := rejectNone
        commitAccepted := false
        commitRejected := false
        commitRejectReason := rejectNone
        activeValid := true
        generation := 0
        active := DspConfig.reset }
    stream :=
      { request := .reset DspConfig.reset
        response := .reset ⟨false, 0, 0, DspConfig.reset⟩
        requestAccept := false
        responseSend := false
        responseAccepted := true
        responseReason := rejectNone
        state := .idle
        generation := 0
        active := DspConfig.reset } }

/-! ## An edge of `ctrl_clk_i` -/

/-- `commit_busy_o` -/
def commitBusy (c : Core) : Bool := c.ctrl.transactionBusy || c.ctrl.request.busy

def regsIn (c : Core) (a : ApbIn) : RegsIn :=
  { apb := a
    commitBusy := c.commitBusy
    commitAccepted := c.ctrl.commitAccepted
    commitRejected := c.ctrl.commitRejected
    commitRejectReason := c.ctrl.commitRejectReason
    activeValid := c.ctrl.activeValid
    activeGeneration := c.ctrl.generation
    active := c.ctrl.active }

/-- The outcome arrives at this edge. -/
def receives (c : Core) : Bool :=
  c.ctrl.response.valid && c.ctrl.transactionBusy && !c.ctrl.responseReceived

/-- The transaction ends at this edge. -/
def finishes (c : Core) : Bool :=
  !c.receives && c.ctrl.responseReceived && !c.ctrl.request.busy

/-- The registers of the transaction that an edge sets or clears. -/
def nextTransaction (c : Core) : Ctrl :=
  let n := { c.ctrl with
    requestSend := false, responseAccept := false, commitAccepted := false,
    commitRejected := false }
  let n := if c.ctrl.regs.commitCmd && !c.commitBusy then
      { n with requestSend := true, transactionBusy := true }
    else n
  if c.receives then
    let n := { n with
      responseAccept := true, responseReceived := true
      responseAccepted := c.ctrl.response.data.accepted
      responseReason := c.ctrl.response.data.reason }
    if c.ctrl.response.data.accepted then
      { n with
        generation := c.ctrl.response.data.generation, active := c.ctrl.response.data.active }
    else n
  else if c.finishes then
    { n with
      transactionBusy := false, responseReceived := false
      commitRejectReason := c.ctrl.responseReason
      commitAccepted := c.ctrl.responseAccepted, commitRejected := !c.ctrl.responseAccepted }
  else n

/-- What the request handshake is asked to send. -/
def requestInput (c : Core) : Option DspConfig :=
  if c.ctrl.requestSend then some c.ctrl.regs.shadow else none

def ctrlEdge (c : Core) (a : ApbIn) : Ctrl :=
  { c.nextTransaction with
    regs := c.ctrl.regs.edge (c.regsIn a)
    accessBefore := a.apbAccess
    request := Handshake.stepSource c.ctrl.request c.stream.request (some c.requestInput)
    response := Handshake.stepDest c.stream.response c.ctrl.response (some c.ctrl.responseAccept) }

/-! ## An edge of `stream_clk_i` -/

/-- The state machine of the stream side. -/
def nextState (c : Core) (safe : Bool) : Stream :=
  let n := { c.stream with requestAccept := false, responseSend := false }
  match c.stream.state with
  | .idle =>
    if c.stream.request.valid && !c.stream.response.busy then { n with state := .evaluate } else n
  | .evaluate =>
    let n := { n with responseSend := true, requestAccept := true, state := .waitRequestClear }
    if safe then
      { n with
        generation := c.stream.generation + 1, active := c.stream.request.data
        responseAccepted := true, responseReason := rejectNone }
    else { n with responseAccepted := false, responseReason := rejectUnsafeState }
  | .waitRequestClear => if !c.stream.request.valid then { n with state := .idle } else n

def responseInput (c : Core) : Option Response :=
  if c.stream.responseSend then
    some ⟨c.stream.responseAccepted, c.stream.responseReason, c.stream.generation, c.stream.active⟩
  else none

def streamEdge (c : Core) (safe : Bool) : Stream :=
  { c.nextState safe with
    request := Handshake.stepDest c.ctrl.request c.stream.request (some c.stream.requestAccept)
    response := Handshake.stepSource c.stream.response c.ctrl.response (some c.responseInput) }

/-! ## Steps -/

def step (c : Core) (e : Edges) : Core :=
  { ctrl :=
      match e.apb with
      | some a => c.ctrlEdge a
      | none => c.ctrl
    stream :=
      match e.safe with
      | some safe => c.streamEdge safe
      | none => c.stream }

/-- The bus keeps its protocol: the access phase comes after a setup phase. -/
def busAllows (c : Core) (e : Edges) : Bool :=
  !(e.apb.any (·.apbAccess) && c.ctrl.accessBefore)

/-! ## What is asked, done and answered -/

/-- The outcome that the stream side takes for a request. -/
structure Outcome where
  request : DspConfig
  accepted : Bool
  reason : BitVec 2
  deriving DecidableEq, Repr

/-- The commands, the outcomes and the responses so far. -/
structure Log where
  commands : List DspConfig
  outcomes : List Outcome
  responses : List (Bool × BitVec 2)
  deriving DecidableEq, Repr

def Log.empty : Log := ⟨[], [], []⟩

/-- COMMIT is written while the mailbox is not busy, for the shadow as it is. -/
def commandAt (c : Core) (e : Edges) : List DspConfig :=
  match e.apb with
  | some a => if Regs.commits (c.regsIn a) then [c.ctrl.regs.shadow] else []
  | none => []

/-- The stream side takes a request or refuses it. -/
def outcomeAt (c : Core) (e : Edges) : List Outcome :=
  match e.safe with
  | some safe =>
    if c.stream.state = .evaluate then
      [⟨c.stream.request.data, safe, if safe then rejectNone else rejectUnsafeState⟩]
    else []
  | none => []

/-- `commit_accepted_o` or `commit_rejected_o` comes up, with its reason. -/
def responseAt (c : Core) (e : Edges) : List (Bool × BitVec 2) :=
  match e.apb with
  | some a =>
    let n := c.ctrlEdge a
    if n.commitAccepted || n.commitRejected then [(n.commitAccepted, n.commitRejectReason)] else []
  | none => []

def Log.next (log : Log) (c : Core) (e : Edges) : Log :=
  { commands := log.commands ++ c.commandAt e
    outcomes := log.outcomes ++ c.outcomeAt e
    responses := log.responses ++ c.responseAt e }

/-- The mailbox with the log of what it did. -/
def machine : Machine (Core × Log) Edges where
  step s e := if s.1.busAllows e then some (s.1.step e, s.2.next s.1 e) else none

end Core

end QCrate.Mailbox
