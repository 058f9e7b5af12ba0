import QCrate.Lib.Machine
import QCrate.R5.ConfigCommit

/-!
# The RPMsg client and the service behind it

`qcrate_rpmsg_client_exchange` writes one request and reads one reply. Between the two the service
may take any time: replies come in order, one for each request, and wait on the endpoint until
they are read. An exchange that gives up leaves its reply to the next one.
-/

namespace QCrate.Rpmsg

open QCrate.Lib QCrate.R5

/-! ## Service -/

/-- What the handler of a command fills in. -/
structure Answer where
  status : Status
  payloadWords : Fin (rpmsgPayloadWords + 1)
  payload : Vector Word 11
  deriving DecidableEq, Repr

variable {σ : Type}

/-- The handlers behind the `switch` of `qcrate_handle_request`, on the state of the service. -/
abbrev Handlers (σ : Type) := Message → σ → Answer × σ

/-- `qcrate_endpoint_cb` and `qcrate_handle_request` for one whole message. -/
def respond (handlers : Handlers σ) (request : Message) (service : σ) : Message × σ :=
  let response := responseInit request
  if request.magic ≠ rpmsgMagic then ({ response with status := .badMagic }, service)
  else if request.abiVersion ≠ rpmsgAbiVersion then ({ response with status := .badAbi }, service)
  else if rpmsgPayloadWords < request.payloadWords.toNat then
    ({ response with status := .badLength }, service)
  else
    let (a, service) := handlers request service
    ({ response with
      status := a.status, payloadWords := BitVec.ofNat 32 a.payloadWords, payload := a.payload },
      service)

/-- The replies to a list of requests, in order, and the service afterwards. -/
def serve (handlers : Handlers σ) : σ → List Message → List Message × σ
  | service, [] => ([], service)
  | service, request :: rest =>
    let (response, service) := respond handlers request service
    let (responses, service) := serve handlers service rest
    (response :: responses, service)

/-! ## Client -/

/-- `next_transaction_id++`, which skips zero. -/
def nextId (id : Word) : Word := if id + 1 = 0 then 1 else id + 1

/-- The request of an exchange. -/
def buildRequest (id : Word) (command : BitVec 16) (words : List Word) : Message :=
  { magic := rpmsgMagic, abiVersion := rpmsgAbiVersion, command := command
    transactionId := id, payloadWords := BitVec.ofNat 32 words.length, status := .ok
    payload := Vector.ofFn fun i => words.getD i 0 }

/-- The tests on a reply that was read. -/
def transportValid (request response : Message) : Bool :=
  response.magic = rpmsgMagic && response.abiVersion = rpmsgAbiVersion &&
    response.command = request.command && response.transactionId = request.transactionId &&
    response.payloadWords.toNat ≤ rpmsgPayloadWords

/-- How an exchange ends. With `reply` the caller gets the reply: the return value is zero when
its status is OK, and EREMOTEIO otherwise. -/
inductive Result where
  | reply (response : Message)
  | protocol
  | timedOut
  | ioError
  deriving DecidableEq, Repr

/-- What a reply that was read leads to. -/
def judge (request response : Message) : Result :=
  if transportValid request response then .reply response else .protocol

/-- A reply was taken from the endpoint. -/
def Result.tookReply : Result → Bool
  | reply _ => true
  | protocol => true
  | timedOut => false
  | ioError => false

/-! ## Channel -/

/-- A request that was written, with the number of exchanges begun before it. -/
structure Written where
  number : ℕ
  request : Message
  deriving DecidableEq, Repr

/-- An open client and the service. `requests` are written and not yet answered, `endpoint` are
replies nobody has read. The last three are not in the source: how many exchanges were begun,
what was written, and how the exchanges with a written request ended, in order. -/
structure Channel (σ : Type) where
  nextTransactionId : Word
  waiting : Bool
  service : σ
  requests : List Message
  endpoint : List Message
  begun : ℕ
  written : List Written
  results : List Result

/-- `qcrate_rpmsg_client_open`; `initial_transaction_id` is never zero. -/
def Channel.start (first : { id : Word // id ≠ 0 }) (service : σ) : Channel σ :=
  { nextTransactionId := first, waiting := false, service := service, requests := []
    endpoint := [], begun := 0, written := [], results := [] }

/-- What can happen: an exchange writes its request or fails to, the service answers, and the
exchange ends by a timeout, an I/O error or the reply it reads. -/
inductive Action where
  | exchange (command : BitVec 16) (words : List Word) (writes : Bool)
  | serve
  | timeout
  | fail
  | read
  deriving DecidableEq, Repr

namespace Channel

/-- The exchange in progress ends. -/
def conclude (c : Channel σ) (r : Result) : Channel σ :=
  { c with waiting := false, results := c.results ++ [r] }

def step (handlers : Handlers σ) (c : Channel σ) : Action → Option (Channel σ)
  | .exchange command words writes =>
    if c.waiting then none
    else if rpmsgPayloadWords < words.length then some c
    else
      let request := buildRequest c.nextTransactionId command words
      let next := { c with
        nextTransactionId := nextId c.nextTransactionId, begun := c.begun + 1 }
      if writes then
        some { next with
          waiting := true, requests := c.requests ++ [request]
          written := c.written ++ [⟨c.begun, request⟩] }
      else some next
  | .serve =>
    match c.requests with
    | [] => none
    | request :: rest =>
      let (response, service) := respond handlers request c.service
      some { c with
        requests := rest, service := service, endpoint := c.endpoint ++ [response] }
  | .timeout =>
    -- `poll` returns as soon as there is something to read
    if c.waiting && c.endpoint.isEmpty then some (c.conclude .timedOut) else none
  | .fail => if c.waiting then some (c.conclude .ioError) else none
  | .read =>
    match c.waiting, c.written.getLast?, c.endpoint with
    | true, some w, response :: rest =>
      some ({ c with endpoint := rest }.conclude (judge w.request response))
    | _, _, _ => none

end Channel

/-- The channel as a machine. -/
def channelMachine (handlers : Handlers σ) : Machine (Channel σ) Action where
  step c a := c.step handlers a

end QCrate.Rpmsg
