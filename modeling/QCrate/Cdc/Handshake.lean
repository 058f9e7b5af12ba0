import QCrate.Lib.Crossing
import QCrate.Lib.Machine

/-!
# The handshake of the clock crossings

Commands, status and configuration cross the clocks by `qcrate_cdc_handshake`. The Xilinx primitive
is modelled as its fallback for simulation: two synchronizer stages on either side, and registers
for the request and the data that arrive. An edge of either clock may come at any time, also both
at once.

* `CdcHandshake.step` — the registers after the edges that happen.
* `source_step`, `dest_step` — it is the four-phase handshake of the library.
* `handshake_exactlyOnce` — every value that is taken over arrives once and in order.
-/

namespace QCrate.Cdc

open QCrate.Lib
open QCrate.Lib.Handshake (InPhase Phase stepSource stepDest)

/-! ## The registers -/

structure CdcHandshake (width : ℕ) where
  srcDataQ : BitVec width
  srcSendQ : Bool
  srcBusy : Bool
  destAckSyncFf1 : Bool
  destAckSyncFf2 : Bool
  srcSendSyncFf1 : Bool
  srcSendSyncFf2 : Bool
  xpmDestReqQ : Bool
  xpmDestDataQ : BitVec width
  destAckQ : Bool
  deriving DecidableEq, Repr

/-- The inputs at an edge of `src_clk_i`. -/
structure SrcIn (width : ℕ) where
  srcData : BitVec width
  srcSend : Bool
  deriving DecidableEq, Repr

/-- The edges of a step: the inputs at an edge of `src_clk_i`, and `dest_accept_i` at an edge of
`dest_clk_i`. -/
structure Edges (width : ℕ) where
  src : Option (SrcIn width)
  dest : Option Bool
  deriving DecidableEq, Repr

variable {width : ℕ}

namespace CdcHandshake

def reset : CdcHandshake width :=
  ⟨0, false, false, false, false, false, false, false, 0, false⟩

def srcRcv (c : CdcHandshake width) : Bool := c.destAckSyncFf2
def destData (c : CdcHandshake width) : BitVec width := c.xpmDestDataQ
def destValid (c : CdcHandshake width) : Bool := c.xpmDestReqQ && !c.destAckQ

/-- The value is taken over at this edge. -/
def takes (c : CdcHandshake width) (i : SrcIn width) : Bool := !c.srcBusy && i.srcSend

/-- The registers on `src_clk_i` after an edge. -/
def srcEdge (c : CdcHandshake width) (i : SrcIn width) : CdcHandshake width :=
  let n := { c with destAckSyncFf1 := c.destAckQ, destAckSyncFf2 := c.destAckSyncFf1 }
  if c.takes i then { n with srcDataQ := i.srcData, srcSendQ := true, srcBusy := true }
  else if c.srcSendQ && c.srcRcv then { n with srcSendQ := false }
  else if c.srcBusy && !c.srcSendQ && !c.srcRcv then { n with srcBusy := false }
  else n

/-- The registers on `dest_clk_i` after an edge. -/
def destEdge (c : CdcHandshake width) (destAccept : Bool) : CdcHandshake width :=
  { c with
    srcSendSyncFf1 := c.srcSendQ
    srcSendSyncFf2 := c.srcSendSyncFf1
    xpmDestReqQ := c.srcSendSyncFf2
    xpmDestDataQ := if c.srcSendSyncFf2 && !c.xpmDestReqQ then c.srcDataQ else c.xpmDestDataQ
    destAckQ :=
      if !c.xpmDestReqQ then false else if c.destValid && destAccept then true else c.destAckQ }

/-- Each clock samples the registers of the other as they were. -/
def step (c : CdcHandshake width) (e : Edges width) : CdcHandshake width :=
  let s := e.src.elim c c.srcEdge
  let d := e.dest.elim c c.destEdge
  { srcDataQ := s.srcDataQ
    srcSendQ := s.srcSendQ
    srcBusy := s.srcBusy
    destAckSyncFf1 := s.destAckSyncFf1
    destAckSyncFf2 := s.destAckSyncFf2
    srcSendSyncFf1 := d.srcSendSyncFf1
    srcSendSyncFf2 := d.srcSendSyncFf2
    xpmDestReqQ := d.xpmDestReqQ
    xpmDestDataQ := d.xpmDestDataQ
    destAckQ := d.destAckQ }

/-- Nothing is under way on either side. -/
def Idle (c : CdcHandshake width) : Prop :=
  c.srcSendQ = false ∧ c.srcSendSyncFf1 = false ∧ c.srcSendSyncFf2 = false ∧
    c.xpmDestReqQ = false ∧ c.destAckQ = false ∧ c.destAckSyncFf1 = false ∧
    c.destAckSyncFf2 = false

/-! ## What goes in and what comes out -/

/-- The values that the source has taken over, and those that the destination has presented and
accepted. -/
structure Log (width : ℕ) where
  sent : List (BitVec width)
  presented : List (BitVec width)
  accepted : List (BitVec width)
  deriving DecidableEq, Repr

def Log.empty : Log width := ⟨[], [], []⟩

def sentAt (c : CdcHandshake width) (e : Edges width) : List (BitVec width) :=
  match e.src with
  | some i => if c.takes i then [i.srcData] else []
  | none => []

/-- `dest_valid_o` comes up. -/
def presentedAt (c : CdcHandshake width) (e : Edges width) : List (BitVec width) :=
  if (c.step e).destValid && !c.destValid then [(c.step e).destData] else []

def acceptedAt (c : CdcHandshake width) (e : Edges width) : List (BitVec width) :=
  if c.destValid && e.dest = some true then [c.destData] else []

def Log.next (log : Log width) (c : CdcHandshake width) (e : Edges width) : Log width :=
  { sent := log.sent ++ c.sentAt e
    presented := log.presented ++ c.presentedAt e
    accepted := log.accepted ++ c.acceptedAt e }

/-- The handshake with the log of what it did. -/
def machine : Machine (CdcHandshake width × Log width) (Edges width) where
  step s e := some (s.1.step e, s.2.next s.1 e)

/-! ## The handshake of the library -/

def source (c : CdcHandshake width) : Handshake.Source (BitVec width) :=
  ⟨c.srcDataQ, c.srcSendQ, c.srcBusy, c.destAckSyncFf1, c.destAckSyncFf2⟩

def dest (c : CdcHandshake width) : Handshake.Dest (BitVec width) :=
  ⟨c.srcSendSyncFf1, c.srcSendSyncFf2, c.xpmDestReqQ, c.xpmDestDataQ, c.destAckQ⟩

end CdcHandshake

def SrcIn.request (i : SrcIn width) : Option (BitVec width) :=
  if i.srcSend then some i.srcData else none

theorem SrcIn.isSome_request (i : SrcIn width) : i.request.isSome = i.srcSend := by
  unfold request
  cases i.srcSend <;> rfl

/-- The source is asked to send at this step. -/
def Edges.requests (e : Edges width) : Bool := e.src.any (·.srcSend)

namespace CdcHandshake

variable {c : CdcHandshake width} {log : Log width} {e : Edges width} {p : Phase}

/-- The source of the CDC handshake is the source of the handshake. -/
theorem source_step (c : CdcHandshake width) (e : Edges width) :
    (c.step e).source = stepSource c.source c.dest (e.src.map SrcIn.request) := by
  obtain ⟨src, d⟩ := e
  cases src with
  | none => rfl
  | some i =>
    show (c.srcEdge i).source = c.source.edge c.destAckQ i.request
    unfold srcEdge takes SrcIn.request srcRcv Handshake.Source.edge source
    cases c.srcBusy <;> cases i.srcSend <;> cases c.srcSendQ <;> cases c.destAckSyncFf2 <;> rfl

/-- And its destination is the destination. -/
theorem dest_step (c : CdcHandshake width) (e : Edges width) :
    (c.step e).dest = stepDest c.source c.dest e.dest := by
  obtain ⟨src, d⟩ := e
  cases d <;> rfl

theorem destValid_eq (c : CdcHandshake width) : c.destValid = c.dest.valid := rfl

/-! ## The invariant -/

/-- Where the next step leads. -/
def nextPhase (e : Edges width) (p : Phase) : Phase :=
  p.next e.src.isSome e.requests e.dest

/-- At the destination the phase waits to be accepted. -/
theorem nextPhase_three (e : Edges width) :
    nextPhase e (.rise 3) = if e.dest = some true then .rise 4 else .rise 3 := rfl

/-- A request starts the exchange. -/
theorem nextPhase_idle (h : e.requests = true) : nextPhase e .idle = .rise 0 := by
  have hsrc : e.src.isSome = true := by
    cases hs : e.src with
    | none => simp [Edges.requests, hs] at h
    | some i => rfl
  simp [nextPhase, Phase.next, hsrc, h]

/-- The position on the ring says which values are still on their way. -/
structure At (c : CdcHandshake width) (log : Log width) (p : Phase) : Prop where
  inPhase : InPhase c.source c.dest p
  presented : log.presented = log.accepted ++ if p = .rise 3 then [c.srcDataQ] else []
  sent : log.sent = log.accepted ++ if p.undelivered then [c.srcDataQ] else []

theorem at_reset : At (reset : CdcHandshake width) Log.empty .idle :=
  ⟨Handshake.inPhase_reset 0 0, rfl, rfl⟩

/-- The source is busy in all phases but the idle one. -/
theorem At.srcBusy (h : At c log p) : c.srcBusy = !decide (p = .idle) := h.inPhase.busy_eq

/-- The destination is valid in one phase alone. -/
theorem At.destValid (h : At c log p) : c.destValid = decide (p = .rise 3) := by
  rw [destValid_eq, Bool.eq_iff_iff, decide_eq_true_iff]
  exact h.inPhase.valid_iff

theorem inPhase_next (h : At c log p) (e : Edges width) :
    InPhase (c.step e).source (c.step e).dest (nextPhase e p) := by
  have hstep := Handshake.inPhase_step h.inPhase (e.src.map SrcIn.request) e.dest
  have hrequest : (e.src.map SrcIn.request).any (·.isSome) = e.requests := by
    unfold Edges.requests
    cases e.src with
    | none => rfl
    | some i => exact i.isSome_request
  rw [Option.isSome_map, hrequest] at hstep
  rw [source_step, dest_step]
  exact hstep

/-- A value on its way stays in the register of the source. -/
theorem At.srcDataQ_step (h : At c log p) (hp : p ≠ .idle) (e : Edges width) :
    (c.step e).srcDataQ = c.srcDataQ := by
  have hdata := Handshake.stepSource_data_of_ne h.inPhase hp (e.src.map SrcIn.request)
  rw [← source_step] at hdata
  exact hdata

/-- Data is sent when an idle handshake is asked to. -/
theorem At.sentAt (h : At c log p) (e : Edges width) :
    c.sentAt e = if p = .idle ∧ e.requests = true then [(c.step e).srcDataQ] else [] := by
  unfold CdcHandshake.sentAt Edges.requests CdcHandshake.takes
  rw [h.srcBusy]
  by_cases hp : p = .idle
  · subst hp
    cases hs : e.src with
    | none => simp
    | some i =>
      cases hi : i.srcSend with
      | false => simp [hi]
      | true =>
        have hdata := Handshake.stepSource_data_of_idle h.inPhase i.srcData
        have hstep := congrArg Handshake.Source.data (source_step c e)
        rw [hs, Option.map_some, SrcIn.request, hi, if_pos rfl, hdata] at hstep
        simp [hi, show (c.step e).srcDataQ = i.srcData from hstep]
  · cases e.src <;> simp [hp]

/-- It is accepted when the destination is valid and asked to. -/
theorem At.acceptedAt (h : At c log p) (e : Edges width) :
    c.acceptedAt e = if p = .rise 3 ∧ e.dest = some true then [c.srcDataQ] else [] := by
  unfold CdcHandshake.acceptedAt
  rw [h.destValid]
  by_cases hp : p = .rise 3
  · have hdata : c.destData = c.srcDataQ :=
      h.inPhase.data_of_valid (h.inPhase.valid_iff.mpr hp)
    simp [hp, hdata]
  · simp [hp]

/-! ## One step -/

/-- A step goes to the next phase, with what it sent and accepted. -/
theorem At.step (h : At c log p) (e : Edges width) :
    At (c.step e) (log.next c e) (nextPhase e p) := by
  have hin := inPhase_next h e
  have hvalid : (c.step e).destValid = decide (nextPhase e p = .rise 3) := by
    rw [destValid_eq, Bool.eq_iff_iff, decide_eq_true_iff]
    exact hin.valid_iff
  have hpresentedAt : c.presentedAt e =
      if nextPhase e p = .rise 3 ∧ p ≠ .rise 3 then [(c.step e).srcDataQ] else [] := by
    unfold CdcHandshake.presentedAt
    rw [hvalid, h.destValid]
    by_cases hp : nextPhase e p = .rise 3
    · have hdata : (c.step e).destData = (c.step e).srcDataQ :=
        hin.data_of_valid (hin.valid_iff.mpr hp)
      simp [hp, hdata]
    · simp [hp]
  refine ⟨hin, ?_, ?_⟩
  · show log.presented ++ c.presentedAt e = log.accepted ++ c.acceptedAt e ++ _
    rw [h.presented, hpresentedAt, h.acceptedAt]
    by_cases hp : p = .rise 3
    · have hkeeps := h.srcDataQ_step (by rw [hp]; decide) e
      subst hp
      rw [nextPhase_three, hkeeps]
      by_cases ha : e.dest = some true
      · simp [ha]
      · simp [ha]
    · simp [hp]
  · show log.sent ++ c.sentAt e = log.accepted ++ c.acceptedAt e ++ _
    rw [h.sent, h.sentAt, h.acceptedAt]
    by_cases hu : p.undelivered = true
    · have hp : p ≠ .idle := by
        rintro rfl
        cases hu
      rw [h.srcDataQ_step hp e]
      -- the value is accepted at this edge, or stays on its way
      by_cases ha : p = .rise 3 ∧ e.dest = some true
      · obtain ⟨rfl, ha⟩ := ha
        rw [nextPhase_three, if_pos ha]
        simp [ha, Phase.undelivered]
      · have hnext : (nextPhase e p).undelivered = true :=
          (Phase.undelivered_next hu).resolve_right ha
        simp [hu, hp, ha, hnext]
    · have h3 : p ≠ .rise 3 := by
        rintro rfl
        exact hu rfl
      by_cases hs : p = .idle ∧ e.requests = true
      · obtain ⟨rfl, hr⟩ := hs
        simp [nextPhase_idle hr, hr, Phase.undelivered]
      · have hnext : (nextPhase e p).undelivered = false := by
          rw [Bool.eq_false_iff]
          intro hnext
          rcases Phase.undelivered_of_next hnext with h | ⟨h, -, hr⟩
          · exact hu h
          · exact hs ⟨h, hr⟩
        simp [hu, hs, h3, hnext]

theorem At.run {s s' : CdcHandshake width × Log width} {l : List (Edges width)}
    (h : At s.1 s.2 p) (hrun : machine.run s l = some s') : ∃ p', At s'.1 s'.2 p' := by
  refine Machine.run_keeps (I := fun s => ∃ p, At s.1 s.2 p) ?_ ⟨p, h⟩ hrun
  rintro s e s' ⟨p, hat⟩ hs
  cases hs
  exact ⟨_, hat.step e⟩

/-! ## What a state says -/

/-- What has been accepted, presented and sent: in one order, and apart by one value at most. -/
structure Exact (c : CdcHandshake width) (log : Log width) : Prop where
  accepted : log.accepted <+: log.presented
  presented : log.presented <+: log.sent
  atMostOne : log.sent.length ≤ log.accepted.length + 1
  valid : c.destValid = true → log.presented = log.sent ∧ log.sent = log.accepted ++ [c.destData]
  notValid : c.destValid = false → log.presented = log.accepted
  acknowledged : c.srcRcv = true → log.accepted = log.sent
  notBusy : c.srcBusy = false → c.Idle ∧ log.accepted = log.sent

/-- What an edge leaves alone. -/
structure Holds (c : CdcHandshake width) (e : Edges width) : Prop where
  presents : c.destValid = true → e.dest ≠ some true →
    (c.step e).destValid = true ∧ (c.step e).destData = c.destData
  once : c.destValid = true → e.dest = some true → (c.step e).destValid = false
  requests : c.srcSendQ = true → (c.step e).srcSendQ = true ∨ c.srcRcv = true
  busy : c.srcBusy = true → (c.step e).srcBusy = true ∨ (c.step e).Idle

/-- The idle phase is the handshake at rest. -/
theorem At.idle (h : At c log .idle) : c.Idle := by
  have hin := h.inPhase
  cases hin with
  | idle _ hsend hstages =>
    simp only [Handshake.stages, List.replicate, List.cons.injEq, and_true] at hstages
    obtain ⟨hff1, hff2, hreq, hack, hack1, hack2⟩ := hstages
    exact ⟨hsend, hff1, hff2, hreq, hack, hack1, hack2⟩

/-- Before the request is there and after it was accepted, nothing is open. -/
theorem At.accepted_of_not (h : At c log p) (hp : p.undelivered = false) :
    log.accepted = log.sent := by
  rw [h.sent, hp, if_neg (by decide), List.append_nil]

/-- The acknowledgement reaches the source behind the value. -/
theorem At.not_undelivered (h : At c log p) (hr : c.srcRcv = true) : p.undelivered = false := by
  have hr : c.destAckSyncFf2 = true := hr
  have hin := h.inPhase
  cases hin with
  | idle => rfl
  | fall => rfl
  | rise n hn _ _ hstages =>
    refine decide_eq_false fun h3 => ?_
    have hlast := congrArg (fun l : List Bool => l.getLast?) hstages
    obtain ⟨k, hk⟩ : ∃ k, 6 - n = k + 1 := ⟨5 - n, by omega⟩
    rw [hk, List.replicate_succ', ← List.append_assoc, List.getLast?_concat] at hlast
    have hlow : c.destAckSyncFf2 = false := Option.some.inj hlast
    rw [hr] at hlow
    cases hlow

theorem At.exact (h : At c log p) : Exact c log where
  accepted := by
    rw [h.presented]
    exact List.prefix_append _ _
  presented := by
    rw [h.presented, h.sent]
    by_cases hp : p = .rise 3
    · subst hp
      exact List.prefix_rfl
    · rw [if_neg hp, List.append_nil]
      exact List.prefix_append _ _
  atMostOne := by
    rw [h.sent, List.length_append]
    split <;> simp
  valid := by
    intro hv
    have hdata := h.inPhase.data_of_valid hv
    rw [h.destValid, decide_eq_true_iff] at hv
    subst hv
    rw [h.presented, h.sent]
    exact ⟨rfl, congrArg (fun d => log.accepted ++ [d]) hdata.symm⟩
  notValid := by
    intro hv
    rw [h.destValid, decide_eq_false_iff_not] at hv
    rw [h.presented, if_neg hv, List.append_nil]
  acknowledged := fun hr => h.accepted_of_not (h.not_undelivered hr)
  notBusy := by
    intro hb
    rw [h.srcBusy, Bool.not_eq_false', decide_eq_true_iff] at hb
    subst hb
    exact ⟨h.idle, h.accepted_of_not rfl⟩

/-- The request stays up until it is acknowledged. -/
theorem srcSendQ_step (h : c.srcSendQ = true) (e : Edges width) :
    (c.step e).srcSendQ = true ∨ c.srcRcv = true := by
  obtain ⟨src, d⟩ := e
  cases src with
  | none => exact .inl h
  | some i =>
    by_cases hr : c.srcRcv = true
    · exact .inr hr
    · left
      show (c.srcEdge i).srcSendQ = true
      unfold srcEdge
      simp only [h, hr, Bool.and_false, Bool.not_true, Bool.false_and]
      split <;> simp

/-- Valid data holds until it is accepted. -/
theorem At.holds (h : At c log p) (e : Edges width) : Holds c e where
  presents := by
    intro hv hno
    have hnext := h.step e
    have hdata := h.inPhase.data_of_valid hv
    rw [h.destValid, decide_eq_true_iff] at hv
    subst hv
    rw [nextPhase_three, if_neg hno] at hnext
    have hv' : (c.step e).destValid = true := by
      rw [hnext.destValid]
      rfl
    refine ⟨hv', ?_⟩
    have hdata' := hnext.inPhase.data_of_valid hv'
    calc (c.step e).destData = (c.step e).srcDataQ := hdata'
      _ = c.srcDataQ := h.srcDataQ_step (by decide) e
      _ = c.destData := hdata.symm
  once := by
    intro hv ha
    have hnext := h.step e
    rw [h.destValid, decide_eq_true_iff] at hv
    subst hv
    rw [nextPhase_three, if_pos ha] at hnext
    rw [hnext.destValid]
    rfl
  requests := fun hs => srcSendQ_step hs e
  busy := by
    intro _
    cases hb : (c.step e).srcBusy with
    | true => exact .inl rfl
    | false => exact .inr ((h.step e).exact.notBusy hb).1

/-! ## Every value arrives -/

variable {s s' : CdcHandshake width × Log width} {n k : ℕ}

/-- The first `n` values are accepted, or the last of them is on its way and shown after `k` more
edges of the destination. -/
def ShownIn (n k : ℕ) (s : CdcHandshake width × Log width) : Prop :=
  n ≤ s.2.accepted.length ∨
    n ≤ s.2.sent.length ∧ ∃ m, At s.1 s.2 (.rise m) ∧ m ≤ 3 ∧ 3 ≤ m + k

/-- An edge of the destination brings the data closer. -/
theorem ShownIn.step (h : ShownIn n k s) (e : Edges width) :
    ShownIn n (k - [e].countP (·.dest.isSome)) (s.1.step e, s.2.next s.1 e) := by
  rcases h with hdone | ⟨hn, m, hat, hm, hk⟩
  · left
    simp only [Log.next, List.length_append]
    omega
  · have hnext := hat.step e
    have hsent : n ≤ (s.2.next s.1 e).sent.length := by
      simp only [Log.next, List.length_append]
      omega
    by_cases h3 : m = 3
    · subst h3
      rw [nextPhase_three] at hnext
      by_cases ha : e.dest = some true
      · -- it is accepted
        left
        rw [if_pos ha] at hnext
        rwa [hnext.accepted_of_not rfl]
      · rw [if_neg ha] at hnext
        exact .inr ⟨hsent, 3, hnext, le_rfl, Nat.le_add_right _ _⟩
    · right
      have hlt : m < 3 := lt_of_le_of_ne hm h3
      cases hd : e.dest with
      | none =>
        have hstays : nextPhase e (.rise m) = .rise m := by simp [nextPhase, Phase.next, hlt, hd]
        rw [hstays] at hnext
        refine ⟨hsent, m, hnext, hm, ?_⟩
        simpa [hd] using hk
      | some a =>
        have hmoves : nextPhase e (.rise m) = .rise (m + 1) := by
          simp [nextPhase, Phase.next, hlt, hd]
        rw [hmoves] at hnext
        refine ⟨hsent, m + 1, hnext, hlt, ?_⟩
        simp only [List.countP_singleton, hd, Option.isSome_some, if_true]
        omega

theorem ShownIn.run {l : List (Edges width)} (h : ShownIn n k s)
    (hrun : machine.run s l = some s') :
    ShownIn n (k - l.countP (·.dest.isSome)) s' := by
  induction l generalizing s k with
  | nil =>
    cases hrun
    exact h
  | cons e l ih =>
    have hrest := ih (h.step e) hrun
    rwa [Nat.sub_sub, ← List.countP_append, List.singleton_append] at hrest

/-- The log only grows. -/
theorem log_run {l : List (Edges width)} (hrun : machine.run s l = some s') :
    s.2.sent <+: s'.2.sent ∧ s.2.accepted <+: s'.2.accepted := by
  refine Machine.run_keeps (I := fun t => s.2.sent <+: t.2.sent ∧ s.2.accepted <+: t.2.accepted) ?_
    ⟨List.prefix_rfl, List.prefix_rfl⟩ hrun
  rintro t e t' ⟨hsent, haccepted⟩ hstep
  cases hstep
  exact ⟨hsent.trans (List.prefix_append _ _), haccepted.trans (List.prefix_append _ _)⟩

/-- Three edges of the destination show a value, and the next one that accepts takes it. -/
theorem At.delivered {before after : List (Edges width)} (h : At s.1 s.2 p)
    (hbefore : 3 ≤ before.countP (·.dest.isSome)) (ha : e.dest = some true)
    (hrun : machine.run s (before ++ e :: after) = some s') :
    s.2.sent <+: s'.2.accepted := by
  have hshown : ShownIn s.2.sent.length 3 s := by
    cases hu : p.undelivered with
    | false => exact .inl (h.accepted_of_not hu ▸ le_rfl)
    | true =>
      cases p with
      | idle | fall m => cases hu
      | rise m => exact .inr ⟨le_rfl, m, h, of_decide_eq_true hu, Nat.le_add_left _ _⟩
  have hrun' := hrun
  rw [machine.run_append] at hrun'
  obtain ⟨s₁, h₁, hrest⟩ := Option.bind_eq_some_iff.mp hrun'
  have hready := hshown.run h₁
  rw [Nat.sub_eq_zero_of_le hbefore] at hready
  have hlen : s.2.sent.length ≤ (s₁.2.next s₁.1 e).accepted.length := by
    rcases hready with hdone | ⟨hn, m, hat, hm, hk⟩
    · simp only [Log.next, List.length_append]
      omega
    · obtain rfl : m = 3 := by omega
      have hnext := hat.step e
      rw [nextPhase_three, if_pos ha] at hnext
      rw [hnext.accepted_of_not rfl]
      simp only [Log.next, List.length_append]
      omega
  have hafter : machine.run (s₁.1.step e, s₁.2.next s₁.1 e) after = some s' := hrest
  obtain ⟨p', hat'⟩ := h.run hrun
  have haccepted : s'.2.accepted <+: s'.2.sent := hat'.exact.accepted.trans hat'.exact.presented
  exact List.prefix_of_prefix_length_le (log_run hrun).1 haccepted
    (hlen.trans (log_run hafter).2.length_le)

/-! ## The link comes to rest -/

/-- A clock has its edge; the destination accepts at it. -/
def Edges.serves (source : Bool) (e : Edges width) : Prop :=
  if source then e.src.isSome = true else e.dest = some true

/-- Both clocks have an edge, and the destination accepts. -/
def Round (l : List (Edges width)) : Prop :=
  (∃ e ∈ l, e.src.isSome = true) ∧ ∃ e ∈ l, e.dest = some true

/-- The link has `k` registers left to pass, or something has been sent behind the first `n`
values. -/
def RestsIn (n k : ℕ) (s : CdcHandshake width × Log width) : Prop :=
  n < s.2.sent.length ∨ n ≤ s.2.sent.length ∧ ∃ p, At s.1 s.2 p ∧ p.hops ≤ k

/-- The same, with the side that has the next move. -/
def WaitsFor (n k : ℕ) (source : Bool) (s : CdcHandshake width × Log width) : Prop :=
  n ≤ s.2.sent.length ∧ ∃ p, At s.1 s.2 p ∧ p.hops = k ∧ p.sourceMoves = source

/-- No edge takes the handshake further from rest. -/
theorem RestsIn.step (h : RestsIn n k s) (e : Edges width) :
    RestsIn n k (s.1.step e, s.2.next s.1 e) := by
  rcases h with hmore | ⟨hn, p, hat, hk⟩
  · left
    simp only [Log.next, List.length_append]
    omega
  · have hsent := hat.sentAt e
    by_cases hs : p = .idle ∧ e.requests = true
    · -- a new value is taken over
      left
      rw [if_pos hs] at hsent
      simp only [Log.next, hsent, List.length_append, List.length_singleton]
      omega
    · right
      refine ⟨?_, _, hat.step e, ?_⟩
      · simp only [Log.next, List.length_append]
        omega
      · have hno : p = .idle → (e.src.isSome && e.requests) = false := by
          intro hp
          rw [Bool.and_eq_false_iff]
          exact .inr (by simpa [hp] using hs)
        rcases @Phase.hops_next p e.src.isSome e.requests e.dest hat.inPhase.bounded hno with
          hlt | heq
        · exact hlt.le.trans hk
        · exact (congrArg Phase.hops heq).le.trans hk

/-- An edge of the clock that is waited for ends the wait. -/
theorem WaitsFor.step {source : Bool} (h : WaitsFor n (k + 1) source s) (e : Edges width) :
    RestsIn n k (s.1.step e, s.2.next s.1 e) ∨
      WaitsFor n (k + 1) source (s.1.step e, s.2.next s.1 e) ∧ ¬Edges.serves source e := by
  obtain ⟨hn, p, hat, hk, hsource⟩ := h
  have hp : p ≠ .idle := by
    rintro rfl
    cases hk
  have hsent : n ≤ (s.2.next s.1 e).sent.length := by
    simp only [Log.next, List.length_append]
    omega
  have hcloser : Edges.serves source e → (nextPhase e p).hops < p.hops := by
    intro hserves
    cases source with
    | true =>
      have hsrc : e.src.isSome = true := hserves
      unfold nextPhase
      rw [hsrc]
      exact Phase.hops_next_of_source hat.inPhase.bounded hsource
    | false =>
      have hdest : e.dest = some true := hserves
      by_cases h3 : p = .rise 3
      · subst h3
        rw [nextPhase_three, if_pos hdest]
        decide
      · exact Phase.hops_next_of_dest hsource hp h3 (by rw [hdest]; rfl)
  rcases @Phase.hops_next p e.src.isSome e.requests e.dest hat.inPhase.bounded
    fun h => absurd h hp with hlt | heq
  · exact .inl (.inr ⟨hsent, _, hat.step e, Nat.le_of_lt_succ (hlt.trans_eq hk)⟩)
  · right
    have hnext := hat.step e
    have heq : nextPhase e p = p := heq
    rw [heq] at hnext
    refine ⟨⟨hsent, p, hnext, hk, hsource⟩, fun hserves => ?_⟩
    exact absurd (hcloser hserves) (by rw [heq]; exact lt_irrefl _)

/-- After as many rounds as the ring has registers the link is at rest, or was, and sends anew. -/
theorem At.released {rounds : List (List (Edges width))} (h : At s.1 s.2 p)
    (hlen : 14 ≤ rounds.length) (hall : ∀ l ∈ rounds, Round l)
    (hrun : machine.run s rounds.flatten = some s') :
    s'.1.srcBusy = false ∨ s.2.sent.length < s'.2.sent.length := by
  have hhops : p.hops ≤ 14 := by
    cases p <;> simp only [Phase.hops] <;> omega
  have hrest : RestsIn s.2.sent.length 0 s' := by
    refine @Machine.due_rounds _ _ machine Bool Edges.serves (RestsIn s.2.sent.length)
      (WaitsFor s.2.sent.length) ?_ ?_ ?_ _ _ _ _ (.inr ⟨le_rfl, p, h, hhops⟩) hlen ?_ hrun
    · intro k t e t' ht hstep
      cases hstep
      exact ht.step e
    · intro k source t e t' ht hstep
      cases hstep
      exact ht.step e
    · rintro k t (hmore | ⟨hn, q, hat, hk⟩)
      · exact .inl (.inl hmore)
      · rcases Nat.lt_or_ge q.hops (k + 1) with hlt | hge
        · exact .inl (.inr ⟨hn, q, hat, Nat.le_of_lt_succ hlt⟩)
        · exact .inr ⟨q.sourceMoves, hn, q, hat, le_antisymm hk hge, rfl⟩
    · intro l hl source
      cases source with
      | true => exact (hall l hl).1
      | false => exact (hall l hl).2
  rcases hrest with hmore | ⟨-, q, hat, hk⟩
  · exact .inr hmore
  · left
    rw [hat.srcBusy, Bool.not_eq_false', decide_eq_true_iff]
    have hbounded := hat.inPhase.bounded
    cases q with
    | idle => rfl
    | rise m | fall m =>
      have hm : m ≤ 6 := hbounded
      simp only [Phase.hops] at hk
      omega

/-! ## Exactly once -/

/-- After any edges: what is accepted is what was sent, in order, each value once and shown once
before, up to one value that is still on its way; what is shown stays until it is accepted; the
source is busy until the value has been accepted and both sides are low again. Every value is
accepted by the first accepting edge behind three edges of the destination, and the link comes to
rest within 14 rounds. -/
theorem handshake_exactlyOnce {s : CdcHandshake width × Log width}
    (h : machine.Reachable (reset, Log.empty) s) :
    Exact s.1 s.2 ∧ (∀ e, Holds s.1 e) ∧
      (∀ (before after : List (Edges width)) (e : Edges width)
          (s' : CdcHandshake width × Log width),
        3 ≤ before.countP (·.dest.isSome) → e.dest = some true →
        machine.run s (before ++ e :: after) = some s' → s.2.sent <+: s'.2.accepted) ∧
      ∀ (rounds : List (List (Edges width))) (s' : CdcHandshake width × Log width),
        14 ≤ rounds.length → (∀ l ∈ rounds, Round l) → machine.run s rounds.flatten = some s' →
        s'.1.srcBusy = false ∨ s.2.sent.length < s'.2.sent.length := by
  obtain ⟨l, hrun⟩ := h
  obtain ⟨p, hat⟩ := at_reset.run hrun
  exact ⟨hat.exact, hat.holds, fun _ _ _ _ hbefore ha hrun => hat.delivered hbefore ha hrun,
    fun _ _ hlen hall hrun => hat.released hlen hall hrun⟩

/-- Both clocks tick; 5 is sent at the first edges, and 9 is offered from then on. -/
def sendTwo : List (Edges 8) :=
  ⟨some ⟨5, true⟩, some false⟩ :: List.replicate 20 ⟨some ⟨9, true⟩, some true⟩

/-- Two values are sent and accepted. -/
theorem handshake_exactlyOnce_sendTwo :
    ∃ s, machine.run ((reset : CdcHandshake 8), Log.empty) sendTwo = some s ∧
      s.2.accepted = [5, 9] ∧ Exact s.1 s.2 := by
  have hrun : ∃ s, machine.run ((reset : CdcHandshake 8), Log.empty) sendTwo = some s ∧
      s.2.accepted = [5, 9] := ⟨_, rfl, by decide⟩
  obtain ⟨s, hs, haccepted⟩ := hrun
  exact ⟨s, hs, haccepted, (handshake_exactlyOnce ⟨_, hs⟩).1⟩

end CdcHandshake

end QCrate.Cdc
