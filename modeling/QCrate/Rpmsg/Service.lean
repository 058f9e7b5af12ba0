import QCrate.R5.Discipline
import QCrate.Rpmsg.Attribution

/-!
# The client in front of the service

The handlers of the R5 behind the endpoint that the client talks to, over any register window.

* `Fits` — an answer that the client can take for the answer to a request.
* `serviceHandlers` — the service of the R5 as the service of the channel, with `respond_service`.
* `client_commands_service` — what the service is given, what it writes, and what comes back.
-/

namespace QCrate.Rpmsg

open QCrate.Lib QCrate.R5

/-! ## Answers -/

/-- The header of an answer to a request. -/
structure Fits (request answer : Message) : Prop where
  magic : answer.magic = rpmsgMagic
  abiVersion : answer.abiVersion = rpmsgAbiVersion
  command : answer.command = request.command
  transactionId : answer.transactionId = request.transactionId
  payloadWords : answer.payloadWords.toNat ≤ rpmsgPayloadWords

variable {σ : Type} (B : Bus σ) {α β : Type} {P : α → Prop} {P' : β → Prop}
variable {request response : Message}

/-- An answer starts with the identifier and the command of its request, and no payload. -/
theorem fits_init (request : Message) : Fits request (responseInit request) :=
  ⟨rfl, rfl, rfl, rfl, Nat.zero_le _⟩

theorem Fits.setWord (h : Fits request response) (k : Fin 11) (value : Word) :
    Fits request (response.setWord k value) :=
  ⟨h.magic, h.abiVersion, h.command, h.transactionId, h.payloadWords⟩

/-- The status is no part of the identity. -/
theorem Fits.withStatus (h : Fits request response) (status : Status) :
    Fits request { response with status := status } :=
  ⟨h.magic, h.abiVersion, h.command, h.transactionId, h.payloadWords⟩

theorem Fits.withLength (h : Fits request response) {n : Word} (hn : n.toNat ≤ rpmsgPayloadWords) :
    Fits request { response with payloadWords := n } :=
  ⟨h.magic, h.abiVersion, h.command, h.transactionId, hn⟩

/-- An answer of a few words. -/
theorem Fits.withWords (h : Fits request response) (status : Status) {words : List Word}
    (hn : words.length ≤ rpmsgPayloadWords) : Fits request (response.withWords status words) :=
  ⟨h.magic, h.abiVersion, h.command, h.transactionId,
    (Nat.mod_le _ _).trans hn⟩

/-- Whatever the state, what a computation gives. -/
def Gives (P : α → Prop) (m : StateM (Service σ) α) : Prop := ∀ s, P (m s).1

/-- An answer that is there. -/
theorem gives_pure {a : α} (h : P a) : Gives P (pure a : StateM (Service σ) α) := fun _ => h

/-- What the first computation gives is known to the second. -/
theorem gives_then {m : StateM (Service σ) α} {f : α → StateM (Service σ) β}
    (hm : Gives P m) (hf : ∀ a, P a → Gives P' (f a)) : Gives P' (m >>= f) :=
  fun s => hf (m s).1 (hm s) (m s).2

/-- The value of the first computation does not matter. -/
theorem gives_after {m : StateM (Service σ) α} {f : α → StateM (Service σ) β}
    (hf : ∀ a, Gives P' (f a)) : Gives P' (m >>= f) := fun s => hf (m s).1 (m s).2

/-- Whichever branch is taken. -/
theorem gives_ite {c : Prop} [Decidable c] {m m' : StateM (Service σ) α} (h : Gives P m)
    (h' : Gives P m') : Gives P (if c then m else m') := by
  split
  · exact h
  · exact h'

/-- The words of a payload are set one by one. -/
theorem fits_readPayload : ∀ (offsets : List (Fin 11 × Word)) {response : Message},
    Fits request response → Gives (Fits request) (readPayload B offsets response)
  | [], _, h => gives_pure h
  | _ :: rest, _, h => gives_after fun _ => fits_readPayload rest (h.setWord _ _)

theorem fits_sequenceStatusPayload (h : Fits request response) :
    Gives (Fits request) (sequenceStatusPayload B response) :=
  gives_after fun _ => gives_after fun _ =>
    fits_readPayload B _ ((h.setWord _ _).withLength (by decide))

theorem fits_readActive : ∀ (n : ℕ) {response : Message} (generation : Word),
    Fits request response →
      Gives (fun r => Fits request r.1) (readActive B n response generation)
  | 0, _, _, h => gives_pure h
  | n + 1, _, _, h => by
    refine gives_after fun before => gives_after fun idLow => gives_after fun idHigh =>
      gives_after fun signal => gives_after fun lo => gives_after fun generation => ?_
    have hset := (((h.setWord 4 idLow).setWord 5 idHigh).setWord 6 signal).setWord 7 lo
    exact gives_ite (gives_pure hset) (fits_readActive n _ hset)

theorem fits_configStatusPayload (h : Fits request response) :
    Gives (Fits request) (configStatusPayload B response) := by
  refine gives_after fun s => gives_then (fits_readActive B 3 0 h) fun r hr => gives_after
    fun status => gives_after fun reject => gives_after fun length => gives_after fun count =>
      gives_pure ?_
  exact ((((((((hr.setWord 0 _).setWord 1 _).setWord 2 _).setWord 3 _).setWord 8 _).setWord 9
    _).withLength (by decide)).setWord 10 _)

/-- An error of the configuration still carries the whole status. -/
theorem fits_configError (h : Fits request response) (status : Status) (reason : ConfigReason) :
    Gives (Fits request) (configError B response status reason) :=
  gives_after fun _ => fits_configStatusPayload B (h.withStatus status)

theorem fits_sequenceLoadError (h : Fits request response) (status : Status)
    (eventIndex detail : Word) :
    Gives (σ := σ) (Fits request) (sequenceLoadError response status eventIndex detail) :=
  gives_after fun _ => gives_pure (h.withWords status (by simp [rpmsgPayloadWords]))

/-! ### Handlers -/

section

variable (h : Fits request response)

include h

/-- The answer to a request of the wrong length. -/
theorem fits_badLength : Gives (Fits request)
    (pure { response with status := .badLength } : StateM (Service σ) Message) :=
  gives_pure (h.withStatus _)

theorem fits_handleScratchTest (m : Message) :
    Gives (Fits request) (handleScratchTest B m response) :=
  gives_ite (fits_badLength h) (gives_after fun _ => gives_after fun _ => gives_after fun _ =>
    gives_after fun _ => gives_after fun _ =>
      gives_pure (h.withWords _ (by simp [rpmsgPayloadWords])))

theorem fits_handleGetInfo (m : Message) : Gives (Fits request) (handleGetInfo B m response) := by
  refine gives_ite (fits_badLength h) (gives_then
    (fits_readPayload B _ (h.withLength (by decide))) fun answer hanswer => gives_pure ?_)
  split
  · exact hanswer.withStatus _
  · exact hanswer

theorem fits_handleSeqLoadBegin (m : Message) :
    Gives (Fits request) (handleSeqLoadBegin B m response) :=
  gives_ite (fits_badLength h) (gives_ite (fits_sequenceLoadError h _ _ _) (gives_after fun _ =>
    gives_ite (fits_sequenceStatusPayload B (h.withStatus _)) (gives_after fun _ =>
      gives_pure (h.withWords _ (by simp [rpmsgPayloadWords])))))

theorem fits_handleSeqLoadEvent (m : Message) :
    Gives (Fits request) (handleSeqLoadEvent B m response) := by
  refine gives_after fun s => gives_ite (fits_badLength h) (gives_ite
    (fits_sequenceStatusPayload B (h.withStatus _)) (gives_ite (fits_sequenceLoadError h _ _ _)
    (gives_ite (fits_sequenceLoadError h _ _ _) (gives_after fun mismatch => ?_))))
  cases mismatch with
  | none => exact gives_after fun _ => gives_pure (h.withWords _ (by simp [rpmsgPayloadWords]))
  | some detail =>
    exact gives_after fun _ => gives_pure (h.withWords _ (by simp [rpmsgPayloadWords]))

theorem fits_handleSeqLoadCommit (m : Message) :
    Gives (Fits request) (handleSeqLoadCommit B m response) := by
  have hwords : ∀ status word word', Fits request (response.withWords status [word, word']) :=
    fun status _ _ => h.withWords status (by simp [rpmsgPayloadWords])
  exact gives_after fun _ => gives_ite (fits_badLength h) (gives_ite
    (fits_sequenceLoadError h _ _ _) (gives_ite (gives_after fun _ => gives_pure (hwords _ _ _))
    (gives_after fun _ => gives_after fun _ => gives_ite
      (gives_after fun _ => gives_pure (hwords _ _ _))
      (gives_after fun _ => gives_pure (hwords _ _ _)))))

theorem fits_sequenceCommand (control : Word) (condition : SequenceWait) (completedBefore : Word) :
    Gives (Fits request) (sequenceCommand B control condition completedBefore response) :=
  gives_after fun _ => gives_after fun _ => gives_after fun _ =>
    fits_sequenceStatusPayload B (h.withStatus _)

theorem fits_handleSeqArm (m : Message) : Gives (Fits request) (handleSeqArm B m response) :=
  gives_ite (fits_badLength h) (gives_after fun _ => gives_after fun _ => gives_ite
    (fits_sequenceStatusPayload B (h.withStatus _)) (fits_sequenceCommand B h _ _ _))

theorem fits_handleSeqStart (m : Message) : Gives (Fits request) (handleSeqStart B m response) :=
  gives_ite (fits_badLength h) (gives_after fun _ => gives_after fun _ => gives_ite
    (fits_sequenceStatusPayload B (h.withStatus _))
    (gives_after fun _ => fits_sequenceCommand B h _ _ _))

theorem fits_handleSeqAbort (m : Message) : Gives (Fits request) (handleSeqAbort B m response) :=
  gives_ite (fits_badLength h) (gives_after fun _ => gives_ite
    (fits_sequenceStatusPayload B (h.withStatus _)) (fits_sequenceCommand B h _ _ _))

theorem fits_handleSeqReset (m : Message) : Gives (Fits request) (handleSeqReset B m response) :=
  gives_ite (fits_badLength h) (gives_after fun _ => fits_sequenceCommand B h _ _ _)

theorem fits_handleConfigStage (m : Message) :
    Gives (Fits request) (handleConfigStage B m response) :=
  gives_ite (fits_badLength h) (gives_after fun _ => fits_configStatusPayload B h)

theorem fits_handleConfigValidate (m : Message) :
    Gives (Fits request) (handleConfigValidate B m response) := by
  refine gives_ite (fits_badLength h) (gives_after fun _ => gives_ite (fits_configError B h _ _)
    (gives_after fun _ => fits_configStatusPayload B ?_))
  split
  · exact h.withStatus _
  · exact h

theorem fits_commitDsp (words : ConfigWords) (length count mode : Word) :
    Gives (Fits request) (commitDsp B words length count mode response) := by
  refine gives_after fun _ => gives_after fun _ => gives_after fun matched => gives_ite
    (gives_after fun _ => gives_after fun _ => fits_configError B h _ _)
    (gives_after fun _ => gives_after fun _ => gives_after fun _ => gives_after fun outcome => ?_)
  cases outcome with
  | rejected => exact gives_after fun _ => gives_after fun _ => fits_configError B h _ _
  | timedOut => exact fits_configError B h _ _
  | committed =>
    exact gives_after fun _ => gives_ite (fits_configError B h _ _) (gives_after fun _ =>
      gives_ite (fits_configError B h _ _) (gives_after fun _ => fits_configStatusPayload B h))

theorem fits_commitStream (words : ConfigWords) :
    Gives (Fits request) (commitStream B words response) :=
  gives_after fun _ => gives_after fun _ => gives_after fun _ => gives_after fun _ =>
    gives_after fun _ => gives_after fun _ => gives_after fun _ =>
    gives_ite (gives_after fun _ => fits_configError B h _ _) (fits_commitDsp B h words _ _ _)

/-- However the commit ends, its answer is that of the request. -/
theorem fits_handleConfigCommit (m : Message) :
    Gives (Fits request) (handleConfigCommit B m response) :=
  gives_ite (fits_badLength h) (gives_after fun _ => gives_ite (fits_configError B h _ _)
    (gives_after fun _ => gives_ite (gives_after fun _ => fits_configError B h _ _)
    (gives_after fun _ => gives_after fun _ => gives_ite (fits_configError B h _ _)
    (gives_after fun _ => gives_ite (fits_configError B h _ _)
    (gives_after fun _ => gives_ite (fits_configError B h _ _) (fits_commitStream B h _))))))

theorem fits_handleConfigRecover (m : Message) :
    Gives (Fits request) (handleConfigRecover B m response) :=
  gives_ite (fits_badLength h) (gives_after fun _ => gives_ite (fits_configError B h _ _)
    (gives_after fun _ => gives_after fun _ => fits_configStatusPayload B h))

/-- Every handler answers its own request. -/
theorem fits_dispatch (tickRateHz : Word) (d : Delivery) :
    Gives (Fits request) (dispatch B tickRateHz d response) :=
  gives_ite (gives_ite (fits_badLength h)
    (gives_pure (h.withWords _ (by simp [rpmsgPayloadWords])))) <|
  gives_ite (fits_handleGetInfo B h _) <|
  gives_ite (fits_handleScratchTest B h _) <|
  gives_ite (gives_ite (fits_badLength h) (gives_pure ((h.withWords response.status
    (by simp [rpmsgPayloadWords])).withLength (by decide)))) <|
  gives_ite (fits_handleSeqLoadBegin B h _) <|
  gives_ite (fits_handleSeqLoadEvent B h _) <|
  gives_ite (fits_handleSeqLoadCommit B h _) <|
  gives_ite (gives_ite (fits_badLength h) (fits_sequenceStatusPayload B h)) <|
  gives_ite (fits_handleSeqArm B h _) <|
  gives_ite (fits_handleSeqStart B h _) <|
  gives_ite (fits_handleSeqAbort B h _) <|
  gives_ite (fits_handleSeqReset B h _) <|
  gives_ite (fits_handleConfigStage B h _) <|
  gives_ite (fits_handleConfigValidate B h _) <|
  gives_ite (fits_handleConfigCommit B h _) <|
  gives_ite (gives_ite (fits_badLength h) (fits_configStatusPayload B h)) <|
  gives_ite (fits_handleConfigRecover B h _) (gives_pure (h.withStatus _))

end

/-- Every message gets an answer with its own header. -/
theorem fits_endpointCb (tickRateHz : Word) (d : Delivery) (e : Endpoint σ) :
    Fits d.request (endpointCb B tickRateHz d e).1 := by
  have hinit : Fits d.request (responseInit d.request) := fits_init d.request
  have hcount : ∀ (service : Service σ) (answer : Message), Fits d.request answer →
      Fits d.request (e.count service answer).1 := by
    intro service answer ha
    unfold Endpoint.count
    split
    · dsimp only
      split
      · exact (ha.setWord _ _).setWord _ _
      · exact ha
    · exact ha
  rw [endpointCb_eq]
  split
  -- the three tests on the header answer for themselves
  · refine hcount _ _ ((?_ : Gives (Fits d.request) (handleRequest B tickRateHz d)) e.service)
    exact gives_ite (gives_pure (hinit.withStatus _)) (gives_ite (gives_pure (hinit.withStatus _))
      (gives_ite (gives_pure (hinit.withStatus _)) (fits_dispatch B hinit tickRateHz d)))
  · exact hcount _ _ (hinit.withStatus _)

/-! ## The service on the channel -/

variable (tickRateHz : Word) (tick : ℕ → Word) (bus : σ)

/-- A count that is too large is sent as the largest one. -/
theorem length_lt (answer : Message) :
    min answer.payloadWords.toNat rpmsgPayloadWords < rpmsgPayloadWords + 1 :=
  Nat.lt_succ_of_le (Nat.min_le_right _ _)

/-- What an answer says besides its header. -/
def Answer.ofMessage (answer : Message) : Answer :=
  { status := answer.status
    payloadWords := ⟨min answer.payloadWords.toNat rpmsgPayloadWords, length_lt answer⟩
    payload := answer.payload }

/-- The endpoint of the R5 with the number of its messages: `tick n` is the tick count while it
handles message `n`. -/
def serviceHandlers : Handlers (ℕ × Endpoint σ) := fun request service =>
  (Answer.ofMessage (endpointCb B tickRateHz ⟨true, request, tick service.1⟩ service.2).1,
    (service.1 + 1, (endpointCb B tickRateHz ⟨true, request, tick service.1⟩ service.2).2))

/-- The messages that the endpoint gets. -/
def deliveriesOf (requests : List Message) : List Delivery :=
  requests.zipIdx.map fun r => ⟨true, r.1, tick r.2⟩

/-- The endpoint after some requests. -/
def endpointAfter (requests : List Message) : Endpoint σ :=
  Endpoint.after B tickRateHz bus (deliveriesOf tick requests)

/-- The answer to request `i`, after the requests before it. -/
def answerAt (requests : List Message) (i : ℕ) (request : Message) : Message :=
  (endpointCb B tickRateHz ⟨true, request, tick i⟩
    (endpointAfter B tickRateHz tick bus (requests.take i))).1

/-- A request that passes the tests of the service on a header. -/
structure Sendable (request : Message) : Prop where
  magic : request.magic = rpmsgMagic
  abiVersion : request.abiVersion = rpmsgAbiVersion
  payloadWords : request.payloadWords.toNat ≤ rpmsgPayloadWords

/-- What the client builds can be sent. -/
theorem sendable_buildRequest (id : Word) (command : BitVec 16) {words : List Word}
    (h : words.length ≤ rpmsgPayloadWords) : Sendable (buildRequest id command words) :=
  ⟨rfl, rfl, (Nat.mod_le _ _).trans h⟩

variable {tickRateHz tick bus}

/-- The channel carries the whole answer of the endpoint. -/
theorem respond_service (hs : Sendable request) (n : ℕ) (e : Endpoint σ) :
    respond (serviceHandlers B tickRateHz tick) request (n, e) =
      ((endpointCb B tickRateHz ⟨true, request, tick n⟩ e).1,
        (n + 1, (endpointCb B tickRateHz ⟨true, request, tick n⟩ e).2)) := by
  have hfits : Fits request (endpointCb B tickRateHz ⟨true, request, tick n⟩ e).1 :=
    fits_endpointCb B tickRateHz ⟨true, request, tick n⟩ e
  have hwords : BitVec.ofNat 32 (min
      (endpointCb B tickRateHz ⟨true, request, tick n⟩ e).1.payloadWords.toNat
      rpmsgPayloadWords) = (endpointCb B tickRateHz ⟨true, request, tick n⟩ e).1.payloadWords := by
    rw [Nat.min_eq_left hfits.payloadWords, BitVec.ofNat_toNat, BitVec.setWidth_eq]
  unfold respond
  rw [if_neg (not_not.mpr hs.magic), if_neg (not_not.mpr hs.abiVersion),
    if_neg (Nat.not_lt.mpr hs.payloadWords)]
  refine Prod.ext ?_ rfl
  show Message.mk rpmsgMagic rpmsgAbiVersion request.command request.transactionId _
    (endpointCb B tickRateHz ⟨true, request, tick n⟩ e).1.status
    (endpointCb B tickRateHz ⟨true, request, tick n⟩ e).1.payload = _
  rw [← hfits.magic, ← hfits.abiVersion, ← hfits.command, ← hfits.transactionId]
  exact congrArg (fun n => Message.mk _ _ _ _ n _ _) hwords

/-- One more request is one more delivery. -/
theorem deliveriesOf_concat (requests : List Message) (request : Message) :
    deliveriesOf tick (requests ++ [request]) =
      deliveriesOf tick requests ++ [⟨true, request, tick requests.length⟩] := by
  unfold deliveriesOf
  rw [List.zipIdx_append, List.map_append]
  simp

/-- The endpoint after one more request. -/
theorem endpointAfter_concat (requests : List Message) (request : Message) :
    endpointAfter B tickRateHz tick bus (requests ++ [request]) =
      (endpointCb B tickRateHz ⟨true, request, tick requests.length⟩
        (endpointAfter B tickRateHz tick bus requests)).2 := by
  rw [endpointAfter, deliveriesOf_concat, after_concat]
  rfl

/-- The handlers of the service, seen as a server: they count the requests and keep the endpoint. -/
theorem serve_service (requests : List Message) (hs : ∀ m ∈ requests, Sendable m) :
    (serve (serviceHandlers B tickRateHz tick) (0, Endpoint.init bus) requests).2 =
      (requests.length, endpointAfter B tickRateHz tick bus requests) := by
  induction requests using List.reverseRecOn with
  | nil => rfl
  | append_singleton requests request ih =>
    have hrest := ih fun m hm => hs m (List.mem_append_left _ hm)
    have hlast : Sendable request :=
      hs request (List.mem_append_right _ (List.mem_singleton_self _))
    rw [serve_append, hrest]
    show (respond (serviceHandlers B tickRateHz tick) request _).2 = _
    rw [respond_service B hlast, endpointAfter_concat, List.length_append, List.length_singleton]

/-- The answer to a request depends on the requests up to it. -/
theorem serve_answer {requests : List Message} {i : ℕ} {request answer : Message}
    (hs : ∀ m ∈ requests, Sendable m) (hrequest : requests[i]? = some request)
    (hanswer : (serve (serviceHandlers B tickRateHz tick)
      (0, Endpoint.init bus) requests).1[i]? = some answer) :
    answer = answerAt B tickRateHz tick bus requests i request := by
  obtain ⟨hlt, hget⟩ := List.getElem?_eq_some_iff.mp hrequest
  have hsplit : requests = requests.take i ++ request :: requests.drop (i + 1) := by
    rw [← hget, ← List.drop_eq_getElem_cons hlt, List.take_append_drop]
  have hlength : (requests.take i).length = i := List.length_take_of_le hlt.le
  have htake : ∀ m ∈ requests.take i, Sendable m := fun m hm => hs m (List.mem_of_mem_take hm)
  have hsendable : Sendable request := hs request (List.mem_of_getElem? hrequest)
  rw [hsplit, serve_append, serve_service B _ htake, List.getElem?_append_right
    (by rw [length_serve, hlength]), length_serve, hlength, Nat.sub_self] at hanswer
  have hhead : (respond (serviceHandlers B tickRateHz tick) request
      (i, endpointAfter B tickRateHz tick bus (requests.take i))).1 = answer := by
    simpa [serve] using hanswer
  rw [respond_service B hsendable] at hhead
  exact hhead.symm

/-! ## Runs of the channel -/

variable {c c' : Channel (ℕ × Endpoint σ)}

variable (tickRateHz tick bus) in
/-- The service is where the requests it has had lead, and the others wait. -/
structure Served (c : Channel (ℕ × Endpoint σ)) : Prop where
  sendable : ∀ m ∈ c.sent, Sendable m
  served : ∃ served, c.sent = served ++ c.requests ∧
    c.service = (served.length, endpointAfter B tickRateHz tick bus served)

/-- Nothing is asked yet. -/
theorem served_start (first : { id : Word // id ≠ 0 }) :
    Served B tickRateHz tick bus (Channel.start first (0, Endpoint.init bus)) :=
  ⟨nofun, [], rfl, rfl⟩

theorem served_step {a : Action} (h : Served B tickRateHz tick bus c)
    (hs : c.step (serviceHandlers B tickRateHz tick) a = some c') :
    Served B tickRateHz tick bus c' := by
  obtain ⟨hsendable, served, hsent, hservice⟩ := h
  cases a with
  | exchange command words writes =>
    simp only [Channel.step] at hs
    split at hs
    · cases hs
    split at hs
    · cases hs
      exact ⟨hsendable, served, hsent, hservice⟩
    next hwords =>
    split at hs
    · cases hs
      have hsent' : ∀ m, (c.written ++ [(⟨c.begun, m⟩ : Written)]).map (·.request) =
          c.sent ++ [m] := fun m => by
        rw [List.map_append]
        rfl
      refine ⟨fun m hm => ?_, served, ?_, hservice⟩
      · rw [Channel.sent, hsent'] at hm
        rcases List.mem_append.mp hm with hm | hm
        · exact hsendable m hm
        · rw [List.mem_singleton.mp hm]
          exact sendable_buildRequest _ _ (Nat.not_lt.mp hwords)
      · rw [Channel.sent, hsent', hsent, List.append_assoc]
    · cases hs
      exact ⟨hsendable, served, hsent, hservice⟩
  | serve =>
    -- the service takes the first request of the queue, and answers it as its handlers do
    simp only [Channel.step] at hs
    split at hs
    · cases hs
    next request rest hrequests =>
      cases hs
      rw [hrequests] at hsent
      have hrequest : Sendable request := hsendable request
        (hsent ▸ List.mem_append_right _ List.mem_cons_self)
      refine ⟨hsendable, served ++ [request], ?_, ?_⟩
      · rw [List.append_assoc]
        exact hsent
      · rw [hservice, respond_service B hrequest, endpointAfter_concat, List.length_append,
          List.length_singleton]
  | timeout =>
    simp only [Channel.step] at hs
    split at hs
    · cases hs
      exact ⟨hsendable, served, hsent, hservice⟩
    · cases hs
  | fail =>
    simp only [Channel.step] at hs
    split at hs
    · cases hs
      exact ⟨hsendable, served, hsent, hservice⟩
    · cases hs
  | read =>
    simp only [Channel.step] at hs
    split at hs
    · cases hs
      exact ⟨hsendable, served, hsent, hservice⟩
    · cases hs

/-- The reply that an exchange takes is the answer to its own request, as long as ids do not
recur. -/
theorem reply_of_exchange {first : { id : Word // id ≠ 0 }} (hs : ∀ m ∈ c.sent, Sendable m)
    (hc : c.Coherent (serviceHandlers B tickRateHz tick) first (0, Endpoint.init bus)) {i : ℕ}
    {response : Message} (hr : c.results[i]? = some (.reply response)) :
    ∃ own, c.written[i]? = some own ∧
      (response = answerAt B tickRateHz tick bus c.sent i own.request ∨
        ∃ j late, j < i ∧ c.written[j]? = some late ∧ late.number + idPeriod ≤ own.number ∧
          response = answerAt B tickRateHz tick bus c.sent j late.request) := by
  obtain ⟨own, queued, hown, hqueued, hjudge⟩ := hc.judged i _ hr rfl
  have hle : (c.results.take i).countP (·.tookReply) ≤ i :=
    List.countP_le_length.trans (List.length_take_le _ _)
  generalize (c.results.take i).countP (·.tookReply) = j at hqueued hle
  obtain ⟨hlt, hget⟩ := List.getElem?_eq_some_iff.mp hown
  obtain ⟨late, hlate⟩ : ∃ late, c.written[j]? = some late :=
    ⟨_, List.getElem?_eq_getElem (Nat.lt_of_le_of_lt hle hlt)⟩
  have hsentAt : c.sent[j]? = some late.request := by
    rw [Channel.sent, List.getElem?_map, hlate]
    rfl
  have hanswer : queued = answerAt B tickRateHz tick bus c.sent j late.request :=
    serve_answer B hs hsentAt hqueued
  -- the client took it, so it carries the id of the request
  obtain ⟨service', answer, hanswers, heq⟩ :=
    Channel.exists_answer (serviceHandlers B tickRateHz tick) (0, Endpoint.init bus) hlate
  cases hanswers.symm.trans hqueued
  unfold judge at hjudge
  split at hjudge
  · next hvalid =>
    cases hjudge
    rw [heq, Channel.transportValid_respond, Bool.and_eq_true, decide_eq_true_iff,
      decide_eq_true_iff] at hvalid
    have hids : idAt first late.number = idAt first own.number := by
      rw [← (hc.ids late (List.mem_of_getElem? hlate)).2,
        ← (hc.ids own (List.mem_of_getElem? hown)).2, hvalid.2]
    refine ⟨own, hown, ?_⟩
    rcases Nat.lt_or_eq_of_le hle with hj | hj
    · have hnumber : late.number < own.number := by
        obtain ⟨hlt', hget'⟩ := List.getElem?_eq_some_iff.mp hlate
        have hp := List.pairwise_iff_getElem.mp hc.order j i hlt' hlt hj
        rwa [hget, hget'] at hp
      rcases idAt_inj first.2 hnumber.le hids with hsame | hperiod
      · exact absurd hsame hnumber.ne
      · exact .inr ⟨j, late, hj, hlate, hperiod, hanswer⟩
    · subst hj
      cases hown.symm.trans hlate
      exact .inl hanswer
  · cases hjudge

/-- A client in front of the service, in any order of what can happen and with any register
window. The service is given the requests in the order they were written, each at most once; the
registers are written as these requests permit, one transaction each; every one of them is
counted; and a reply that an exchange takes is what the service answered to its own request after
the requests before it, unless its transaction id was used before. -/
theorem client_commands_service {first : { id : Word // id ≠ 0 }}
    (h : (channelMachine (serviceHandlers B tickRateHz tick)).Reachable
      (Channel.start first (0, Endpoint.init bus)) c) :
    ∃ served, c.sent = served ++ c.requests ∧
      (∃ history : History, Tells B tickRateHz bus (deliveriesOf tick served) history ∧
        Disciplined history ∧
        c.service.2.service.writes = history.flatMap fun e => e.written.writes) ∧
      c.service.2.acceptedRequests + c.service.2.rejectedRequests =
        BitVec.ofNat 32 served.length ∧
      ∀ i response, c.results[i]? = some (.reply response) →
        ∃ own, c.written[i]? = some own ∧
          (response = answerAt B tickRateHz tick bus c.sent i own.request ∨
            ∃ j late, j < i ∧ c.written[j]? = some late ∧ late.number + idPeriod ≤ own.number ∧
              response = answerAt B tickRateHz tick bus c.sent j late.request) := by
  have hserved : Served B tickRateHz tick bus c :=
    h.invariant (served_start B first) fun _ _ _ hc hs => served_step B hc hs
  have hcoherent : c.Coherent (serviceHandlers B tickRateHz tick) first (0, Endpoint.init bus) :=
    Channel.coherent_of_reachable h
  obtain ⟨hsendable, served, hsent, hservice⟩ := hserved
  obtain ⟨history, htells, hdisciplined, -⟩ :=
    history_of_run B tickRateHz bus (deliveriesOf tick served)
  refine ⟨served, hsent, ⟨history, htells, hdisciplined, ?_⟩, ?_,
    fun i response hr => reply_of_exchange B hsendable hcoherent hr⟩
  · rw [hservice]
    exact htells.writes
  · rw [hservice]
    show (endpointAfter B tickRateHz tick bus served).acceptedRequests +
      (endpointAfter B tickRateHz tick bus served).rejectedRequests = _
    rw [endpointAfter, counters_of_run, deliveriesOf, List.length_map, List.length_zipIdx]

/-- Registers that keep what is written to them. -/
def plainRegisters : Bus (Word → Word) where
  read offset registers := (registers offset, registers)
  write offset value registers := Function.update registers offset value
  pollsLeft _ := 0

/-- The service in front of registers that are zero. -/
def plainHandlers : Handlers (ℕ × Endpoint (Word → Word)) :=
  serviceHandlers plainRegisters 1000 fun _ => 0

/-- A scratch test: its two writes are in the log, and its reply is the answer of the service. -/
theorem client_commands_service_scratch : ∃ c,
    (channelMachine plainHandlers).run
      (.start firstId (0, Endpoint.init fun _ => 0))
      [.exchange cmdScratchTest [5] true, .serve, .read] = some c ∧
    c.service.2.service.writes = [(sysScratch, 5), (sysScratch, 0)] ∧
    (∃ served, c.sent = served ++ c.requests ∧ ∃ history : History,
      Tells plainRegisters 1000 (fun _ => 0) (deliveriesOf (fun _ => 0) served) history ∧
        Disciplined history ∧
        c.service.2.service.writes = history.flatMap fun e => e.written.writes) ∧
    ∃ own response, c.written[0]? = some own ∧ c.results[0]? = some (.reply response) ∧
      response = answerAt plainRegisters 1000 (fun _ => 0) (fun _ => 0) c.sent 0 own.request := by
  obtain ⟨c, response, hrun, hwrites, hresult⟩ : ∃ c response,
      (channelMachine plainHandlers).run (.start firstId (0, Endpoint.init fun _ => 0))
        [.exchange cmdScratchTest [5] true, .serve, .read] = some c ∧
      c.service.2.service.writes = [(sysScratch, 5), (sysScratch, 0)] ∧
      c.results[0]? = some (.reply response) :=
    ⟨_, _, rfl, by decide +kernel, by rfl⟩
  obtain ⟨served, hsent, ⟨history, htells, hdisciplined, hlog⟩, -, hreplies⟩ :=
    client_commands_service plainRegisters ⟨_, hrun⟩
  obtain ⟨own, hown, hanswer⟩ := hreplies 0 response hresult
  refine ⟨c, hrun, hwrites, ⟨served, hsent, history, htells, hdisciplined, hlog⟩, own, response,
    hown, hresult, ?_⟩
  rcases hanswer with hanswer | ⟨j, late, hj, -⟩
  · exact hanswer
  · exact absurd hj (Nat.not_lt_zero j)

end QCrate.Rpmsg
