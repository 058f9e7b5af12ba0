import QCrate.R5.CommitAtomic
import QCrate.Rpmsg.Service

/-!
# Applying a configuration

`config-apply` of `qcrate-control`: CONFIG_STAGE, CONFIG_VALIDATE and CONFIG_COMMIT one after the
other, through the service down to the pages of the PL.

* `runConfigApply` — the three exchanges, any of which may fail.
* `Applied` — what an application may end with.
* `config_apply_installs` — it ends with nothing else.
-/

namespace QCrate.Rpmsg

open QCrate.Lib QCrate.R5 QCrate.Mailbox

/-! ## The tool -/

/-- What becomes of an exchange: its request is not written, its reply is not read, or it is. -/
inductive Passage where
  | unwritten | unread | read
  deriving DecidableEq, Repr

inductive ApplyError where
  | transport
  | status (s : Status)
  deriving DecidableEq, Repr

/-- An exchange, with its transaction id and the tick count at the service. -/
structure Exchange where
  id : Word
  tick : Word
  passage : Passage
  deriving DecidableEq, Repr

def Exchange.delivery (x : Exchange) (command : BitVec 16) (words : List Word) : Delivery :=
  ⟨true, buildRequest x.id command words, x.tick⟩

section

variable {σ : Type} (B : Bus σ) (tickRateHz : Word)

/-- `config_exchange` -/
def configExchange (x : Exchange) (command : BitVec 16) (words : List Word) (e : Endpoint σ) :
    Except ApplyError Unit × Endpoint σ :=
  let answer := endpointCb B tickRateHz (x.delivery command words) e
  match x.passage with
  | .unwritten => (.error .transport, e)
  | .unread => (.error .transport, answer.2)
  | .read => (if answer.1.status = .ok then .ok () else .error (.status answer.1.status), answer.2)

/-- `run_config_apply` -/
def runConfigApply (stage validate commit : Exchange) (payload : ConfigWords) (e : Endpoint σ) :
    Except ApplyError Unit × Endpoint σ :=
  match configExchange B tickRateHz stage cmdConfigStage payload.toList e with
  | (.error r, e) => (.error r, e)
  | (.ok _, e) =>
    match configExchange B tickRateHz validate cmdConfigValidate [] e with
    | (.error r, e) => (.error r, e)
    | (.ok _, e) => configExchange B tickRateHz commit cmdConfigCommit [] e

end

/-! ## The requests -/

variable {σ : Type} (B : Bus σ) {tickRateHz : Word}

/-- A request that the client wrote goes to the dispatcher. -/
theorem endpointCb_delivery (tickRateHz : Word) (x : Exchange) (command : BitVec 16)
    {words : List Word} (h : words.length ≤ rpmsgPayloadWords) (e : Endpoint σ) :
    (endpointCb B tickRateHz (x.delivery command words) e).1.status =
        (dispatch B tickRateHz (x.delivery command words)
          (responseInit (buildRequest x.id command words)) e.service).1.status ∧
      (endpointCb B tickRateHz (x.delivery command words) e).2.service =
        (dispatch B tickRateHz (x.delivery command words)
          (responseInit (buildRequest x.id command words)) e.service).2 := by
  have hs : Sendable (x.delivery command words).request := sendable_buildRequest x.id command h
  have hrun : handleRequest B tickRateHz (x.delivery command words) =
      dispatch B tickRateHz (x.delivery command words)
        (responseInit (buildRequest x.id command words)) := by
    unfold handleRequest
    dsimp only
    rw [if_neg (not_not.mpr hs.magic), if_neg (not_not.mpr hs.abiVersion),
      if_neg (Nat.not_lt.mpr hs.payloadWords)]
    rfl
  rw [endpointCb_eq, if_pos (show (x.delivery command words).whole = true from rfl), hrun]
  exact ⟨count_status _ _ _, (count_spec _ _ _).1⟩

theorem payload_buildRequest (id : Word) (command : BitVec 16) (payload : ConfigWords) :
    (buildRequest id command payload.toList).payload = payload := by
  refine Vector.ext fun i hi => ?_
  unfold buildRequest
  simp

theorem dispatch_stage (x : Exchange) (words : List Word) (response : Message) :
    dispatch B tickRateHz (x.delivery cmdConfigStage words) response =
      handleConfigStage B (buildRequest x.id cmdConfigStage words) response := by
  unfold dispatch Exchange.delivery buildRequest
  dsimp only
  iterate 12 rw [if_neg (by decide)]
  rw [if_pos rfl]

theorem dispatch_validate (x : Exchange) (response : Message) :
    dispatch B tickRateHz (x.delivery cmdConfigValidate []) response =
      handleConfigValidate B (buildRequest x.id cmdConfigValidate []) response := by
  unfold dispatch Exchange.delivery buildRequest
  dsimp only
  iterate 13 rw [if_neg (by decide)]
  rw [if_pos rfl]

theorem dispatch_commit (x : Exchange) (response : Message) :
    dispatch B tickRateHz (x.delivery cmdConfigCommit []) response =
      handleConfigCommit B (buildRequest x.id cmdConfigCommit []) response := by
  unfold dispatch Exchange.delivery buildRequest
  dsimp only
  iterate 14 rw [if_neg (by decide)]
  rw [if_pos rfl]

theorem handleConfigStage_eq {request response : Message} (s : Service σ)
    (hlength : request.payloadWords = configStageWords) :
    handleConfigStage B request response s = configStatusPayload B response
      { s with config := ⟨true, false, .none, request.payload⟩ } := by
  unfold handleConfigStage
  rw [if_neg (not_not.mpr hlength)]
  rfl

theorem handleConfigValidate_eq {request response : Message} (s : Service σ)
    (hstaged : s.config.staged = true) (hlength : request.payloadWords = 0) :
    handleConfigValidate B request response s = configStatusPayload B
      (if validateRuntimeConfig s.config.words ≠ .none then
        { response with status := .badConfig } else response)
      { s with config := { s.config with
        validated := validateRuntimeConfig s.config.words = .none
        reason := validateRuntimeConfig s.config.words } } := by
  have hget : ∀ {α : Type} (f : Service σ → StateM (Service σ) α), (get >>= f) s = f s s :=
    fun _ => rfl
  unfold handleConfigValidate
  rw [if_neg (not_not.mpr hlength), hget, if_neg (by rw [hstaged]; decide)]
  rfl

/-! ## The service on the hardware -/

section

variable {m₀ : Page} {stream : Word × Word × Word} {s : Service Hardware}

/-- The pages are as they were, up to a commit that was under way. -/
def Untouched (m₀ : Page) (stream : Word × Word × Word) (b : Hardware) : Prop :=
  OnPages (Since m₀ · []) stream b

theorem kept_untouched (m₀ : Page) (stream : Word × Word × Word) :
    R5.Kept (Untouched m₀ stream) := OnPages.kept (calm_since m₀).steady

variable {request : Message}

theorem stage_untouched (hb : Untouched m₀ stream s.bus)
    (hlength : request.payloadWords = configStageWords) :
    (handleConfigStage hardwareBus request (responseInit request) s).1.status = .ok ∧
      Untouched m₀ stream
        (handleConfigStage hardwareBus request (responseInit request) s).2.bus ∧
      (handleConfigStage hardwareBus request (responseInit request) s).2.config =
        ⟨true, false, .none, request.payload⟩ := by
  rw [handleConfigStage_eq hardwareBus s hlength]
  obtain ⟨hstatus, hbus⟩ := holds_statusPayload (kept_untouched m₀ stream) (responseInit request)
    { s with config := ⟨true, false, .none, request.payload⟩ } hb
  obtain ⟨-, -, hconfig⟩ := reads_configStatusPayload hardwareBus (responseInit request)
    { s with config := ⟨true, false, .none, request.payload⟩ }
  exact ⟨hstatus, hbus, hconfig⟩

theorem validate_untouched (hb : Untouched m₀ stream s.bus) (hstaged : s.config.staged = true)
    (hlength : request.payloadWords = 0) :
    ((handleConfigValidate hardwareBus request (responseInit request) s).1.status = .ok →
        validateRuntimeConfig s.config.words = .none) ∧
      Untouched m₀ stream
        (handleConfigValidate hardwareBus request (responseInit request) s).2.bus ∧
      (handleConfigValidate hardwareBus request (responseInit request) s).2.config.words =
        s.config.words := by
  rw [handleConfigValidate_eq hardwareBus s hstaged hlength]
  generalize validateRuntimeConfig s.config.words = reason
  obtain ⟨hstatus, hbus⟩ := holds_statusPayload (kept_untouched m₀ stream)
    (if reason ≠ .none then { responseInit request with status := .badConfig }
      else responseInit request)
    { s with config := { s.config with validated := reason = .none, reason := reason } } hb
  obtain ⟨-, -, hconfig⟩ := reads_configStatusPayload hardwareBus
    (if reason ≠ .none then { responseInit request with status := .badConfig }
      else responseInit request)
    { s with config := { s.config with validated := reason = .none, reason := reason } }
  have hwords := congrArg ConfigState.words hconfig
  refine ⟨fun hok => ?_, hbus, hwords⟩
  have hresponse := hstatus.symm.trans hok
  by_contra hne
  rw [if_pos hne] at hresponse
  cases hresponse

/-- CONFIG_COMMIT, counted from the pages as they were before the requests in front of it. -/
theorem commit_atomic_since (h₀ : Mailbox.InStage m₀) (hb : Untouched m₀ stream s.bus)
    (request : Message) :
    Atomic m₀ s.config.words stream
      (handleConfigCommit hardwareBus request (responseInit request) s).1
      (handleConfigCommit hardwareBus request (responseInit request) s).2.bus := by
  have herror : ∀ (status : Status) (reason : ConfigReason), status ≠ .ok →
      R5.Holds (Untouched m₀ stream)
        (configError hardwareBus (responseInit request) status reason)
        (Atomic m₀ s.config.words stream) := fun status reason hne =>
    (holds_configError (kept_untouched m₀ stream) (responseInit request) status reason).mono
      fun _ _ h => atomic_of_error h₀ hne h
  have hget : ∀ {α : Type} (f : Service Hardware → StateM (Service Hardware) α),
      (get >>= f) s = f s s := fun _ => rfl
  have hne : Status.badLength ≠ .ok := by decide
  unfold handleConfigCommit
  split
  · exact atomic_of_error h₀ hne ⟨rfl, hb⟩
  rw [hget]
  split
  · exact herror .badState .notStaged (by decide) s hb
  refine holds_bind (holds_setReason _) (fun _ => ?_) s hb
  split
  · exact holds_bind (fun _ hs => hs) fun _ => herror .badConfig _ (by decide)
  · next hvalid => exact holds_commitGates h₀ rfl (not_not.mp hvalid)

end

/-! ## An application -/

/-- What an application may end with, on pages that were `m₀` and `stream`: success installs the
words, and another end changes nothing, unless CONFIG_COMMIT timed out or its reply was not read. A
commit that was under way is over first. -/
structure Applied (m₀ : Page) (stream : Word × Word × Word) (payload : ConfigWords)
    (commit : Passage) (A : DspConfig × Word) (result : Except ApplyError Unit) (b : Hardware) :
    Prop where
  possible : Possible m₀ A
  installed : result = .ok () →
    validateRuntimeConfig payload = .none ∧ Installed payload (A.2 + 1) b
  unchanged : result ≠ .ok () → result ≠ .error (.status .timeout) →
    (commit ≠ .unread ∨ validateRuntimeConfig payload ≠ .none) →
      b.streamPage = stream ∧ b.mailbox.active = A

section

variable {m₀ : Page} {stream : Word × Word × Word} {payload : ConfigWords} {commit : Passage}

theorem applied_of_untouched (h₀ : Mailbox.InStage m₀) {b : Hardware} (hb : Untouched m₀ stream b)
    (r : ApplyError) : Applied m₀ stream payload commit b.mailbox.active (.error r) b :=
  ⟨possible_of_since h₀ hb.mailbox, nofun, fun _ _ _ => ⟨hb.stream, rfl⟩⟩

/-- The exchange that commits. -/
theorem applied_of_commit (h₀ : Mailbox.InStage m₀) {e : Endpoint Hardware}
    (hb : Untouched m₀ stream e.service.bus) (hwords : e.service.config.words = payload)
    (hvalid : validateRuntimeConfig payload = .none) (x : Exchange) :
    ∃ A, Applied m₀ stream payload x.passage A
      (configExchange hardwareBus tickRateHz x cmdConfigCommit [] e).1
      (configExchange hardwareBus tickRateHz x cmdConfigCommit [] e).2.service.bus := by
  obtain ⟨hstatus, hservice⟩ := endpointCb_delivery hardwareBus tickRateHz x cmdConfigCommit
    (show ([] : List Word).length ≤ rpmsgPayloadWords from Nat.zero_le _) e
  rw [dispatch_commit] at hstatus hservice
  obtain ⟨A, hA, hends⟩ := commit_atomic_since h₀ hb (buildRequest x.id cmdConfigCommit [])
  rw [hwords, ← hservice] at hends
  have hok := hends.ok
  have hunchanged := hends.unchanged
  rw [← hstatus] at hok hunchanged
  unfold configExchange
  cases hpassage : x.passage with
  | unwritten => exact ⟨_, applied_of_untouched h₀ hb _⟩
  | unread =>
    -- the service has answered, but the tool does not know what
    refine ⟨A, hA, nofun, fun _ _ hread => ?_⟩
    exact absurd hvalid (hread.resolve_left fun hne => hne rfl)
  | read =>
    refine ⟨A, hA, fun h => ⟨hvalid, hok ?_⟩, fun h htimeout _ => hunchanged ?_ ?_⟩
    · by_contra hne
      dsimp only at h
      rw [if_neg hne] at h
      cases h
    · intro hfine
      dsimp only at h
      exact h (if_pos hfine)
    · intro hlate
      dsimp only at htimeout
      rw [if_neg (by rw [hlate]; decide), hlate] at htimeout
      exact htimeout rfl

theorem stage_exchange (tickRateHz : Word) (payload : ConfigWords) {e : Endpoint Hardware}
    (hb : Untouched m₀ stream e.service.bus) (x : Exchange) :
    Untouched m₀ stream
        (configExchange hardwareBus tickRateHz x cmdConfigStage payload.toList e).2.service.bus ∧
      ((configExchange hardwareBus tickRateHz x cmdConfigStage payload.toList e).1 = .ok () →
        (configExchange hardwareBus tickRateHz x cmdConfigStage payload.toList e).2.service.config =
          ⟨true, false, .none, payload⟩) := by
  have hlength : payload.toList.length = 11 := Vector.length_toList
  obtain ⟨-, hservice⟩ := endpointCb_delivery hardwareBus tickRateHz x cmdConfigStage
    (show payload.toList.length ≤ rpmsgPayloadWords from hlength.le) e
  rw [dispatch_stage] at hservice
  have hwords : (buildRequest x.id cmdConfigStage payload.toList).payloadWords =
      configStageWords := by
    show BitVec.ofNat 32 payload.toList.length = configStageWords
    rw [hlength]
    rfl
  obtain ⟨-, hbus, hconfig⟩ := stage_untouched hb hwords
  rw [← hservice] at hbus hconfig
  rw [payload_buildRequest] at hconfig
  unfold configExchange
  cases x.passage with
  | unwritten => exact ⟨hb, nofun⟩
  | unread => exact ⟨hbus, nofun⟩
  | read => exact ⟨hbus, fun _ => hconfig⟩

theorem validate_exchange (tickRateHz : Word) {e : Endpoint Hardware}
    (hb : Untouched m₀ stream e.service.bus) (hstaged : e.service.config.staged = true)
    (x : Exchange) :
    Untouched m₀ stream
        (configExchange hardwareBus tickRateHz x cmdConfigValidate [] e).2.service.bus ∧
      ((configExchange hardwareBus tickRateHz x cmdConfigValidate [] e).1 = .ok () →
        validateRuntimeConfig e.service.config.words = .none ∧
        (configExchange hardwareBus tickRateHz x cmdConfigValidate [] e).2.service.config.words =
          e.service.config.words) := by
  obtain ⟨hstatus, hservice⟩ := endpointCb_delivery hardwareBus tickRateHz x cmdConfigValidate
    (show ([] : List Word).length ≤ rpmsgPayloadWords from Nat.zero_le _) e
  rw [dispatch_validate] at hstatus hservice
  have hlength : (buildRequest x.id cmdConfigValidate []).payloadWords = 0 := rfl
  obtain ⟨hvalid, hbus, hwords⟩ := validate_untouched hb hstaged hlength
  rw [← hservice] at hbus hwords
  rw [← hstatus] at hvalid
  unfold configExchange
  cases x.passage with
  | unwritten => exact ⟨hb, nofun⟩
  | unread => exact ⟨hbus, nofun⟩
  | read =>
    refine ⟨hbus, fun hok => ⟨hvalid ?_, hwords⟩⟩
    by_contra hne
    dsimp only at hok
    rw [if_neg hne] at hok
    cases hok

theorem applied_runConfigApply (tickRateHz : Word) (e : Endpoint Hardware)
    (h : Core.machine.Reachable (Core.reset, Core.Log.empty) e.service.bus.mailbox)
    (stage validate commit : Exchange) (payload : ConfigWords) :
    ∃ A, Applied e.service.bus.mailbox e.service.bus.streamPage payload commit.passage A
      (runConfigApply hardwareBus tickRateHz stage validate commit payload e).1
      (runConfigApply hardwareBus tickRateHz stage validate commit payload e).2.service.bus := by
  have h₀ : Mailbox.InStage e.service.bus.mailbox := reachable_at h
  have hstart : Untouched e.service.bus.mailbox e.service.bus.streamPage e.service.bus :=
    ⟨since_self h₀ (valid_reachable h), rfl⟩
  obtain ⟨hstage, hconfig⟩ := stage_exchange tickRateHz payload hstart stage
  unfold runConfigApply
  split
  · next r e₁ hrun =>
    rw [hrun] at hstage
    exact ⟨_, applied_of_untouched h₀ hstage r⟩
  · next e₁ hrun =>
    rw [hrun] at hstage hconfig
    have hconfig₁ : e₁.service.config = ⟨true, false, .none, payload⟩ := hconfig rfl
    obtain ⟨hvalidate, hvalid⟩ := validate_exchange tickRateHz hstage
      (by rw [hconfig₁]) validate
    split
    · next r e₂ hrun₂ =>
      rw [hrun₂] at hvalidate
      exact ⟨_, applied_of_untouched h₀ hvalidate r⟩
    · next e₂ hrun₂ =>
      rw [hrun₂] at hvalidate hvalid
      obtain ⟨hpayload, hwords⟩ := hvalid rfl
      rw [hconfig₁] at hpayload hwords
      exact applied_of_commit h₀ hvalidate hwords hpayload commit

/-- Whatever the hardware does meanwhile, and whichever exchange fails: if `config-apply` succeeds,
the payload is valid and is what the PL runs with, as the next generation; if it fails, frame
length, frame count, mode, active configuration and generation are as they were, unless
CONFIG_COMMIT timed out or a valid commit was answered to nobody. Where a commit was under way at
the start, they are those that its outcome leaves. -/
theorem config_apply_installs (tickRateHz : Word) (e : Endpoint Hardware)
    (h : Core.machine.Reachable (Core.reset, Core.Log.empty) e.service.bus.mailbox)
    (stage validate commit : Exchange) (payload : ConfigWords) :
    ∃ A, Applied e.service.bus.mailbox e.service.bus.streamPage payload commit.passage A
        (runConfigApply hardwareBus tickRateHz stage validate commit payload e).1
        (runConfigApply hardwareBus tickRateHz stage validate commit payload e).2.service.bus ∧
      (¬UnderWay e.service.bus.mailbox → A = e.service.bus.mailbox.active) := by
  obtain ⟨A, happlied⟩ := applied_runConfigApply tickRateHz e h stage validate commit payload
  exact ⟨A, happlied, happlied.possible.eq (reachable_at h)⟩

end

/-- The service at its start, on pages of which the commit is over before it is polled. -/
def freshEndpoint : Endpoint Hardware :=
  Endpoint.init ⟨(Core.reset, Core.Log.empty), 7, 7, 0,
    fun k => { pauseBefore 53 k with word := if k = 20 then seqHwIdle else 0 }, 0⟩

def promptExchange : Exchange := ⟨1, 0, .read⟩

/-- An application that succeeds. -/
theorem config_apply_installs_fresh :
    (runConfigApply hardwareBus 1000 promptExchange promptExchange promptExchange
      promptService.config.words freshEndpoint).1 = .ok () ∧
    ∃ A, Possible freshEndpoint.service.bus.mailbox A ∧
      Installed promptService.config.words (A.2 + 1)
        (runConfigApply hardwareBus 1000 promptExchange promptExchange promptExchange
          promptService.config.words freshEndpoint).2.service.bus := by
  have hok : (runConfigApply hardwareBus 1000 promptExchange promptExchange promptExchange
      promptService.config.words freshEndpoint).1 = .ok () := by decide +kernel
  obtain ⟨A, happlied, -⟩ := config_apply_installs 1000 freshEndpoint ⟨[], rfl⟩ promptExchange
    promptExchange promptExchange promptService.config.words
  exact ⟨hok, A, happlied.possible, (happlied.installed hok).2⟩

end QCrate.Rpmsg
