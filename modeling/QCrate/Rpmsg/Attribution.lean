import Mathlib.Tactic
import QCrate.Rpmsg.Client

/-!
# Whose reply an exchange gets

Replies are read in the order of the requests, one for each exchange that reads at all. An exchange
that gives up after writing its request leaves its reply behind, and from then on every exchange
meets the reply of an earlier one, which the transaction id gives away.

* `Coherent` — what is queued, and what the service will answer, are the answers nobody has read.
* `exchange_result` — which reply an exchange reads, and what it makes of it.
-/

namespace QCrate.Rpmsg

open QCrate.Lib QCrate.R5

variable {σ : Type} {handlers : Handlers σ}

/-! ## The service -/

theorem serve_append (service : σ) (l₁ l₂ : List Message) :
    serve handlers service (l₁ ++ l₂) =
      ((serve handlers service l₁).1 ++ (serve handlers (serve handlers service l₁).2 l₂).1,
        (serve handlers (serve handlers service l₁).2 l₂).2) := by
  induction l₁ generalizing service with
  | nil => rfl
  | cons request l₁ ih =>
    simp only [List.cons_append, serve]
    rw [ih]

@[simp] theorem length_serve (service : σ) (l : List Message) :
    (serve handlers service l).1.length = l.length := by
  induction l generalizing service with
  | nil => rfl
  | cons request l ih => simp only [serve, List.length_cons, ih]

/-- A reply repeats the command and the transaction id of its request. -/
theorem respond_header (handlers : Handlers σ) (request : Message) (service : σ) :
    (respond handlers request service).1.magic = rpmsgMagic ∧
      (respond handlers request service).1.abiVersion = rpmsgAbiVersion ∧
      (respond handlers request service).1.command = request.command ∧
      (respond handlers request service).1.transactionId = request.transactionId ∧
      (respond handlers request service).1.payloadWords.toNat ≤ rpmsgPayloadWords := by
  unfold respond
  dsimp only
  split
  · exact ⟨rfl, rfl, rfl, rfl, Nat.zero_le _⟩
  split
  · exact ⟨rfl, rfl, rfl, rfl, Nat.zero_le _⟩
  split
  · exact ⟨rfl, rfl, rfl, rfl, Nat.zero_le _⟩
  · refine ⟨rfl, rfl, rfl, rfl, ?_⟩
    have hlt := (handlers request service).1.payloadWords.isLt
    simp only [BitVec.toNat_ofNat]
    unfold rpmsgPayloadWords at *
    omega

theorem serve_header {service : σ} {l : List Message} {i : ℕ} {request response : Message}
    (hreq : l[i]? = some request) (hres : (serve handlers service l).1[i]? = some response) :
    ∃ service', response = (respond handlers request service').1 := by
  induction l generalizing service i with
  | nil => cases hreq
  | cons m l ih =>
    cases i with
    | zero =>
      cases hreq
      cases hres
      exact ⟨service, rfl⟩
    | succ i => exact ih hreq hres

/-! ## Transaction ids -/

/-- The number of transaction ids: zero is not one. -/
def idPeriod : ℕ := 2 ^ 32 - 1

/-- The id of the exchange begun after `n` others. -/
def idAt (first : Word) (n : ℕ) : Word := nextId^[n] first

theorem toNat_nextId {id : Word} (h : 1 ≤ id.toNat) :
    (nextId id).toNat = id.toNat % idPeriod + 1 := by
  have hlt := id.isLt
  have h1 : (1 : Word).toNat = 1 := rfl
  have hsucc : (id + 1).toNat = (id.toNat + 1) % 2 ^ 32 := by rw [BitVec.toNat_add, h1]
  unfold nextId idPeriod
  split
  · next hz =>
    have hnat : (id + 1).toNat = 0 := congrArg BitVec.toNat hz
    omega
  · next hz =>
    have hne : (id + 1).toNat ≠ 0 := fun hnat => hz (BitVec.eq_of_toNat_eq hnat)
    omega

theorem toNat_idAt {first : Word} (h : first ≠ 0) (n : ℕ) :
    (idAt first n).toNat = (first.toNat - 1 + n) % idPeriod + 1 := by
  have hpos : 1 ≤ first.toNat := by
    by_contra hz
    exact h (BitVec.eq_of_toNat_eq (Nat.lt_one_iff.mp (Nat.not_le.mp hz)))
  have hlt := first.isLt
  induction n with
  | zero =>
    rw [idAt, Function.iterate_zero, id_eq, idPeriod]
    omega
  | succ n ih =>
    rw [idAt, Function.iterate_succ_apply', ← idAt, toNat_nextId (by omega), ih]
    unfold idPeriod
    omega

/-- An id comes back after a whole period. -/
theorem idAt_inj {first : Word} (h : first ≠ 0) {n m : ℕ} (hle : n ≤ m)
    (heq : idAt first n = idAt first m) : n = m ∨ n + idPeriod ≤ m := by
  have hnat := congrArg BitVec.toNat heq
  rw [toNat_idAt h, toNat_idAt h] at hnat
  unfold idPeriod at *
  omega

/-! ## The channel -/

theorem getElem?_append_some {α : Type*} {l : List α} {i : ℕ} {a : α} (h : l[i]? = some a)
    (l' : List α) : (l ++ l')[i]? = some a := by
  obtain ⟨hlt, -⟩ := List.getElem?_eq_some_iff.mp h
  rw [List.getElem?_append_left hlt, h]

namespace Channel

/-- The requests that were written. -/
def sent (c : Channel σ) : List Message := c.written.map (·.request)

/-- The number of replies that were read. -/
def reads (c : Channel σ) : ℕ := c.results.countP (·.tookReply)

/-- The replies to everything that was written. -/
def answers (handlers : Handlers σ) (service : σ) (c : Channel σ) : List Message :=
  (serve handlers service c.sent).1

structure Coherent (handlers : Handlers σ) (first : Word) (service : σ) (c : Channel σ) :
    Prop where
  queue : c.endpoint ++ (serve handlers c.service c.requests).1 =
    (c.answers handlers service).drop c.reads
  state : (serve handlers c.service c.requests).2 = (serve handlers service c.sent).2
  progress : c.written.length = c.results.length + if c.waiting then 1 else 0
  counter : c.nextTransactionId = idAt first c.begun
  ids : ∀ w ∈ c.written, w.number < c.begun ∧ w.request.transactionId = idAt first w.number
  order : c.written.Pairwise (·.number < ·.number)
  judged : ∀ i r, c.results[i]? = some r → r.tookReply = true →
    ∃ w response, c.written[i]? = some w ∧
      (c.answers handlers service)[(c.results.take i).countP (·.tookReply)]? = some response ∧
      r = judge w.request response

variable {first : Word} {service : σ} {c c' : Channel σ}

theorem length_answers (c : Channel σ) :
    (c.answers handlers service).length = c.written.length := by
  rw [answers, length_serve, sent, List.length_map]

theorem coherent_start (first : { id : Word // id ≠ 0 }) (service : σ) :
    (Channel.start first service).Coherent handlers first service :=
  ⟨rfl, rfl, rfl, rfl, nofun, .nil, nofun⟩

theorem Coherent.reads_le (h : c.Coherent handlers first service) :
    c.reads ≤ (c.answers handlers service).length := by
  have hle : c.reads ≤ c.results.length := List.countP_le_length
  have hp := h.progress
  rw [length_answers]
  omega

/-- A request is written. -/
theorem Coherent.write (h : c.Coherent handlers first service) (hw : c.waiting = false)
    (command : BitVec 16) (words : List Word) :
    Coherent handlers first service { c with
      nextTransactionId := nextId c.nextTransactionId
      begun := c.begun + 1
      waiting := true
      requests := c.requests ++ [buildRequest c.nextTransactionId command words]
      written := c.written ++ [⟨c.begun, buildRequest c.nextTransactionId command words⟩] } := by
  obtain ⟨hqueue, hstate, hprogress, hnext, hids, horder, hjudged⟩ := h
  have hle := Coherent.reads_le ⟨hqueue, hstate, hprogress, hnext, hids, horder, hjudged⟩
  -- the service answers the new request in the state it will have reached by then
  obtain ⟨response, hresponse⟩ : ∃ response,
      (serve handlers (serve handlers service c.sent).2
        [buildRequest c.nextTransactionId command words]).1 = [response] := ⟨_, rfl⟩
  have hsent : ∀ m, (c.written ++ [(⟨c.begun, m⟩ : Written)]).map (·.request) = c.sent ++ [m] := by
    intro m
    rw [List.map_append]
    rfl
  refine ⟨?_, ?_, ?_, ?_, ?_, ?_, ?_⟩
  · rw [answers, sent]
    dsimp only
    rw [hsent, serve_append, serve_append, hstate, hresponse, ← List.append_assoc, hqueue]
    exact (List.drop_append_of_le_length hle).symm
  · rw [sent]
    dsimp only
    rw [hsent, serve_append, serve_append, hstate]
  · rw [List.length_append, hprogress, hw]
    rfl
  · dsimp only
    rw [hnext, idAt, idAt, Function.iterate_succ_apply']
  · intro w hmem
    rcases List.mem_append.mp hmem with hmem | hmem
    · obtain ⟨hlt, hid⟩ := hids w hmem
      exact ⟨Nat.lt_succ_of_lt hlt, hid⟩
    · rw [List.mem_singleton.mp hmem]
      exact ⟨Nat.lt_succ_self _, hnext⟩
  · refine List.pairwise_append.mpr ⟨horder, List.pairwise_singleton _ _, ?_⟩
    intro w hmem w' hmem'
    rw [List.mem_singleton.mp hmem']
    exact (hids w hmem).1
  · intro i r hr ht
    obtain ⟨w, resp, hwr, hresp, rfl⟩ := hjudged i r hr ht
    refine ⟨w, resp, getElem?_append_some hwr _, ?_, rfl⟩
    rw [answers, sent]
    dsimp only
    rw [hsent, serve_append]
    exact getElem?_append_some hresp _

/-- The service answers. -/
theorem Coherent.serve (h : c.Coherent handlers first service) {request : Message}
    {rest : List Message} (hr : c.requests = request :: rest) :
    Coherent handlers first service { c with
      requests := rest
      service := (respond handlers request c.service).2
      endpoint := c.endpoint ++ [(respond handlers request c.service).1] } := by
  obtain ⟨hqueue, hstate, hprogress, hnext, hids, horder, hjudged⟩ := h
  rw [hr] at hqueue hstate
  refine ⟨?_, hstate, hprogress, hnext, hids, horder, hjudged⟩
  dsimp only
  rw [List.append_assoc]
  exact hqueue

/-- An exchange ends; `response` is what it read. -/
theorem Coherent.conclude (h : c.Coherent handlers first service) (hw : c.waiting = true)
    {r : Result} {endpoint : List Message}
    (hqueue : endpoint ++ (Rpmsg.serve handlers c.service c.requests).1 =
      (c.answers handlers service).drop (c.reads + if r.tookReply then 1 else 0))
    (hr : r.tookReply = true → ∃ w response, c.written[c.results.length]? = some w ∧
      (c.answers handlers service)[c.reads]? = some response ∧ r = judge w.request response) :
    Coherent handlers first service ({ c with endpoint := endpoint }.conclude r) := by
  refine ⟨?_, h.state, ?_, h.counter, h.ids, h.order, ?_⟩
  · refine hqueue.trans (congrArg (fun n => List.drop n _) ?_)
    simp only [Channel.conclude, reads, List.countP_append, List.countP_singleton]
  · have hp := h.progress
    rw [hw] at hp
    simp only [Channel.conclude, List.length_append, List.length_singleton]
    exact hp
  · intro i r' hr' ht
    simp only [Channel.conclude] at hr' ⊢
    rcases Nat.lt_trichotomy i c.results.length with hlt | rfl | hgt
    · rw [List.getElem?_append_left hlt] at hr'
      rw [List.take_append_of_le_length hlt.le]
      exact h.judged i r' hr' ht
    · rw [List.getElem?_append_right le_rfl, Nat.sub_self] at hr'
      cases hr'
      rw [List.take_left']
      · exact hr ht
      · rfl
    · rw [List.getElem?_eq_none (by rw [List.length_append, List.length_singleton]; omega)] at hr'
      cases hr'

theorem coherent_step {a : Action} (h : c.Coherent handlers first service)
    (hs : c.step handlers a = some c') : c'.Coherent handlers first service := by
  cases a with
  | exchange command words writes =>
    simp only [step] at hs
    split at hs
    · cases hs
    next hw =>
      rw [Bool.not_eq_true] at hw
      split at hs
      · cases hs
        exact h
      split at hs
      · cases hs
        exact h.write hw command words
      · cases hs
        refine ⟨h.queue, h.state, h.progress, ?_, ?_, h.order, h.judged⟩
        · dsimp only
          rw [h.counter, idAt, idAt, Function.iterate_succ_apply']
        · intro w hmem
          obtain ⟨hlt, hid⟩ := h.ids w hmem
          exact ⟨Nat.lt_succ_of_lt hlt, hid⟩
  | serve =>
    simp only [step] at hs
    split at hs
    · cases hs
    next request rest hr =>
      cases hs
      exact h.serve hr
  | timeout =>
    simp only [step] at hs
    split at hs
    · next hw =>
      cases hs
      rw [Bool.and_eq_true] at hw
      exact h.conclude hw.1 (by simpa [Result.tookReply] using h.queue) nofun
    · cases hs
  | fail =>
    simp only [step] at hs
    split at hs
    · next hw =>
      cases hs
      exact h.conclude hw (by simpa [Result.tookReply] using h.queue) nofun
    · cases hs
  | read =>
    simp only [step] at hs
    split at hs
    · next w response rest hw hlast hend =>
      cases hs
      have hq := h.queue
      rw [hend, List.cons_append] at hq
      have hp := h.progress
      rw [hw, if_pos rfl] at hp
      rw [List.getLast?_eq_getElem?, hp, Nat.add_sub_cancel] at hlast
      have hhead : (c.answers handlers service)[c.reads]? = some response := by
        have h0 := congrArg (fun l : List Message => l[0]?) hq
        simp only [List.getElem?_cons_zero, List.getElem?_drop, Nat.add_zero] at h0
        exact h0.symm
      have htail : rest ++ (Rpmsg.serve handlers c.service c.requests).1 =
          (c.answers handlers service).drop (c.reads + 1) := by
        rw [← List.drop_drop, ← hq]
        rfl
      have htook : (judge w.request response).tookReply = true := by
        unfold judge
        split <;> rfl
      refine h.conclude hw ?_ fun _ => ⟨w, response, hlast, hhead, rfl⟩
      rw [htook]
      exact htail
    · cases hs

theorem coherent_of_reachable {first : { id : Word // id ≠ 0 }}
    (h : (channelMachine handlers).Reachable (Channel.start first service) c) :
    c.Coherent handlers first service :=
  h.invariant (coherent_start first service) fun _ _ _ hc hs => coherent_step hc hs

/-! ## What an exchange reads -/

/-- The number of exchanges, among the first `i`, that gave up on their reply. -/
def givenUp (c : Channel σ) (i : ℕ) : ℕ := (c.results.take i).countP (!·.tookReply)

/-- The replies read before exchange `i`: those who gave up read none. -/
theorem countP_tookReply {i : ℕ} {r : Result} (hr : c.results[i]? = some r) :
    (c.results.take i).countP (·.tookReply) = i - c.givenUp i := by
  obtain ⟨hlt, -⟩ := List.getElem?_eq_some_iff.mp hr
  have hlen : (c.results.take i).length = i := List.length_take_of_le hlt.le
  have hsum := List.length_eq_countP_add_countP (·.tookReply) (l := c.results.take i)
  have hneg : (c.results.take i).countP (fun a => ¬a.tookReply = true) = c.givenUp i := by
    unfold givenUp
    congr 1
    funext a
    cases a.tookReply <;> rfl
  rw [hneg] at hsum
  omega

theorem givenUp_le {i : ℕ} {r : Result} (hr : c.results[i]? = some r) : c.givenUp i ≤ i := by
  obtain ⟨hlt, -⟩ := List.getElem?_eq_some_iff.mp hr
  refine le_trans List.countP_le_length ?_
  rw [List.length_take_of_le hlt.le]

theorem exists_answer (handlers : Handlers σ) (service : σ) {i : ℕ} {w : Written}
    (hw : c.written[i]? = some w) :
    ∃ service' response, (c.answers handlers service)[i]? = some response ∧
      response = (respond handlers w.request service').1 := by
  obtain ⟨hlt, -⟩ := List.getElem?_eq_some_iff.mp hw
  have hsent : c.sent[i]? = some w.request := by
    rw [sent, List.getElem?_map, hw]
    rfl
  obtain ⟨response, hres⟩ : ∃ response, (c.answers handlers service)[i]? = some response :=
    ⟨_, List.getElem?_eq_getElem (by rw [length_answers]; exact hlt)⟩
  obtain ⟨service', heq⟩ := serve_header hsent hres
  exact ⟨service', response, hres, heq⟩

/-- The tests on a reply compare nothing but its command and its id. -/
theorem transportValid_respond (request other : Message) (service : σ) :
    transportValid request (respond handlers other service).1 =
      (other.command = request.command && other.transactionId = request.transactionId) := by
  obtain ⟨hmagic, habi, hcommand, hid, hwords⟩ := respond_header handlers other service
  simp only [transportValid, hmagic, habi, hcommand, hid, hwords, decide_true, Bool.true_and,
    Bool.and_true]

/-- An exchange that reads judges the reply of the exchange as many places before it as gave up in
the meantime: its own when none did. Otherwise the id gives the reply away, until ids recur. -/
theorem exchange_result {first : { id : Word // id ≠ 0 }}
    (h : (channelMachine handlers).Reachable (Channel.start first service) c) {i : ℕ} {r : Result}
    (hr : c.results[i]? = some r) (ht : r.tookReply = true) :
    ∃ own late reply queued,
      c.written[i]? = some own ∧ c.written[i - c.givenUp i]? = some late ∧
      (c.answers handlers service)[i]? = some reply ∧
      (c.answers handlers service)[i - c.givenUp i]? = some queued ∧
      r = judge own.request queued ∧
      (c.givenUp i = 0 → r = .reply reply) ∧
      (0 < c.givenUp i → own.number < late.number + idPeriod → r = .protocol) ∧
      ∀ response, r = .reply response →
        response = reply ∨ response = queued ∧ late.number + idPeriod ≤ own.number := by
  have hcoh := coherent_of_reachable h
  have hle := givenUp_le hr
  obtain ⟨own, queued, hown, hqueued, rfl⟩ := hcoh.judged i r hr ht
  rw [countP_tookReply hr] at hqueued
  obtain ⟨hlt, hget⟩ := List.getElem?_eq_some_iff.mp hown
  obtain ⟨late, hlate⟩ : ∃ late, c.written[i - c.givenUp i]? = some late :=
    ⟨_, List.getElem?_eq_getElem (by omega)⟩
  obtain ⟨hlt', hget'⟩ := List.getElem?_eq_some_iff.mp hlate
  obtain ⟨sv, reply, hreply, -⟩ := exists_answer handlers service hown
  obtain ⟨sv', _, hq, rfl⟩ := exists_answer handlers service hlate
  cases hqueued.symm.trans hq
  have hids := hcoh.ids own (List.mem_of_getElem? hown)
  have hids' := hcoh.ids late (List.mem_of_getElem? hlate)
  -- the read reply passes only when both requests have the same id
  have hvalid : transportValid own.request (respond handlers late.request sv').1 = true →
      idAt first late.number = idAt first own.number := by
    intro hv
    rw [transportValid_respond, Bool.and_eq_true, decide_eq_true_iff, decide_eq_true_iff] at hv
    rw [← hids.2, ← hids'.2, hv.2]
  have hnumber : 0 < c.givenUp i → late.number < own.number := by
    intro hk
    have hp := List.pairwise_iff_getElem.mp hcoh.order (i - c.givenUp i) i hlt' hlt (by omega)
    rwa [hget, hget'] at hp
  refine ⟨own, late, reply, _, hown, hlate, hreply, hq, rfl, ?_, ?_, ?_⟩
  · intro hk
    rw [hk, Nat.sub_zero] at hq hlate
    cases hown.symm.trans hlate
    rw [hreply] at hq
    cases hq
    unfold judge
    rw [if_pos]
    simp only [transportValid_respond, decide_true, Bool.and_true]
  · intro hk hclose
    unfold judge
    rw [if_neg]
    intro hv
    rcases idAt_inj first.2 (hnumber hk).le (hvalid hv) with heq | hwrap
    · exact absurd heq (hnumber hk).ne
    · omega
  · intro response heq
    unfold judge at heq
    split at heq
    · next hv =>
      cases heq
      by_cases hk : c.givenUp i = 0
      · rw [hk, Nat.sub_zero, hreply] at hq
        cases hq
        exact .inl rfl
      · rcases idAt_inj first.2 (hnumber (Nat.pos_of_ne_zero hk)).le (hvalid hv) with heq | hwrap
        · exact absurd heq (hnumber (Nat.pos_of_ne_zero hk)).ne
        · exact .inr ⟨rfl, hwrap⟩
    · cases heq

end Channel

/-! ## A reply that comes late -/

/-- A service that confirms every request and counts them. -/
def confirm : Handlers ℕ := fun _ count =>
  ({ status := .ok, payloadWords := 1, payload := Vector.replicate 11 (BitVec.ofNat 32 count) },
    count + 1)

/-- Two exchanges, of which the first gives up before its reply comes. -/
def lateReply : List Action :=
  [.exchange 1 [] true, .timeout, .serve, .exchange 1 [] true, .serve, .read]

/-- The first id is 1. -/
def firstId : { id : Word // id ≠ 0 } := ⟨1, by decide⟩

/-- The second exchange reads the late reply and fails, with its own reply on the endpoint. -/
theorem lateReply_protocol :
    ∃ c, (channelMachine confirm).run (.start firstId 0) lateReply = some c ∧
      c.results = [.timedOut, .protocol] ∧
      c.endpoint.map (·.transactionId) = (c.written.drop 1).map (·.request.transactionId) := by
  refine ⟨_, rfl, ?_⟩
  decide +kernel

/-- Three exchanges: the first gets its reply, the second gives up, and the third reads what comes
for the second. -/
def replyBetween : List Action :=
  [.exchange 1 [] true, .serve, .read, .exchange 1 [] true, .timeout, .serve, .exchange 1 [] true,
    .serve, .read]

/-- Before anyone gives up an exchange gets its own reply, and afterwards it fails. -/
theorem exchange_result_replyBetween :
    ∃ c reply, (channelMachine confirm).run (.start firstId 0) replyBetween = some c ∧
      (c.answers confirm 0)[0]? = some reply ∧ c.results[0]? = some (.reply reply) ∧
      c.givenUp 2 = 1 ∧ c.results[2]? = some .protocol := by
  have heval : ((channelMachine confirm).run (.start firstId 0) replyBetween).any (fun c =>
      c.results[0]?.any (·.tookReply) && c.results[2]?.any (·.tookReply) &&
        c.givenUp 0 = 0 && c.givenUp 2 = 1 && c.written.all (·.number < idPeriod)) = true := by
    decide +kernel
  obtain ⟨c, hrun, hc⟩ := (Option.any_eq_true _ _).mp heval
  simp only [Bool.and_eq_true, decide_eq_true_eq] at hc
  obtain ⟨⟨⟨⟨h0, h2⟩, hk⟩, hk'⟩, hclose⟩ := hc
  obtain ⟨r, hr, ht⟩ := (Option.any_eq_true _ _).mp h0
  obtain ⟨r', hr', ht'⟩ := (Option.any_eq_true _ _).mp h2
  obtain ⟨-, -, reply, -, -, -, hreply, -, -, hown, -⟩ :=
    Channel.exchange_result ⟨_, hrun⟩ hr ht
  obtain ⟨own, late, -, -, hwritten, -, -, -, -, -, hlate, -⟩ :=
    Channel.exchange_result ⟨_, hrun⟩ hr' ht'
  have hnumber : own.number < idPeriod := by
    have hmem := List.all_eq_true.mp hclose own (List.mem_of_getElem? hwritten)
    exact of_decide_eq_true hmem
  rw [hown hk] at hr
  rw [hlate (by rw [hk']; exact Nat.one_pos) (by omega)] at hr'
  exact ⟨c, reply, hrun, hreply, hr, hk', hr'⟩

end QCrate.Rpmsg
