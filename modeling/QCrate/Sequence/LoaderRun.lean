import QCrate.Sequence.Loader

/-!
# The loader from service initialisation

* `kept_or_begun` — one message of the endpoint.
* `SinceBegin` — something has held since a load was begun, with `sinceBegin_concat`.
* `loader_invariant` — what is on the page when a program is committed, and when the event memory,
  ARM and START are written.
-/

namespace QCrate.Sequence

open QCrate.R5

section

variable {pl : ℕ → Page → Page} {polls : ℕ → ℕ} (hpl : ∀ t p, Page.Evolves p (pl t p))
variable {tickRateHz : Word} {s : Service Live}

/-! ## One message -/

include hpl

theorem dispatch_kept_or_begun (hs : Consistent s) (d : Delivery) :
    Kept s (dispatch (liveBus pl polls) tickRateHz d (responseInit d.request) s).2 ∨
      Begun pl d.request s
        (dispatch (liveBus pl polls) tickRateHz d (responseInit d.request) s) := by
  by_cases hcommand : d.request.command = R5.cmdSeqLoadBegin
  · have hrun : dispatch (liveBus pl polls) tickRateHz d (responseInit d.request) =
        handleSeqLoadBegin (liveBus pl polls) d.request (responseInit d.request) := by
      have hne : ∀ c : BitVec 16, R5.cmdSeqLoadBegin ≠ c → d.request.command ≠ c :=
        fun c hc h => hc (hcommand.symm.trans h)
      unfold dispatch
      dsimp only
      rw [if_neg (hne _ (by decide)), if_neg (hne _ (by decide)), if_neg (hne _ (by decide)),
        if_neg (hne _ (by decide)), if_pos hcommand]
    rw [hrun]
    exact begun_or_kept hpl hs hcommand rfl
  · left
    refine (?_ : Keeps (dispatch (liveBus pl polls) tickRateHz d (responseInit d.request))) s hs
    refine keeps_ite (fun _ => keeps_of_calm (calm_handlePing _ _)) fun _ =>
      keeps_ite (fun _ => keeps_of_calm (calm_handleGetInfo hpl _ _)) fun _ =>
      keeps_ite (fun _ => keeps_of_calm (calm_handleScratchTest hpl _ _)) fun _ =>
      keeps_ite (fun _ => keeps_of_calm (calm_handleGetR5Stats _ _ _ _)) fun _ =>
      keeps_ite (fun h => absurd h hcommand) fun _ =>
      keeps_ite (fun _ => keeps_handleSeqLoadEvent hpl) fun _ =>
      keeps_ite (fun _ => keeps_handleSeqLoadCommit hpl) fun _ =>
      keeps_ite (fun _ => keeps_of_calm (calm_handleSeqGetStatus hpl _ _)) fun _ =>
      keeps_ite (fun _ => keeps_handleSeqArm hpl) fun _ =>
      keeps_ite (fun _ => keeps_handleSeqStart hpl) fun _ =>
      keeps_ite (fun _ => keeps_handleSeqAbort hpl) fun _ =>
      keeps_ite (fun _ => keeps_handleSeqReset hpl) fun _ =>
      keeps_ite (fun _ => keeps_of_calm (calm_handleConfigStage hpl _ _)) fun _ =>
      keeps_ite (fun _ => keeps_of_calm (calm_handleConfigValidate hpl _ _)) fun _ =>
      keeps_ite (fun _ => keeps_of_calm (calm_handleConfigCommit hpl _ _)) fun _ =>
      keeps_ite (fun _ => keeps_of_calm (calm_handleConfigGetStatus hpl _ _)) fun _ =>
      keeps_ite (fun _ => keeps_of_calm (calm_handleConfigRecover hpl _ _)) fun _ =>
      keeps_of_calm (calm_pure _)

theorem handleRequest_kept_or_begun (hs : Consistent s) (d : Delivery) :
    Kept s (handleRequest (liveBus pl polls) tickRateHz d s).2 ∨
      Begun pl d.request s (handleRequest (liveBus pl polls) tickRateHz d s) := by
  have hpure : ∀ m : R5.Message, Kept s ((pure m : StateM (Service Live) R5.Message) s).2 :=
    fun m => kept_of_undisturbed hs (calm_pure m s)
  unfold handleRequest
  split
  · exact .inl (hpure _)
  split
  · exact .inl (hpure _)
  split
  · exact .inl (hpure _)
  · exact dispatch_kept_or_begun hpl hs d

omit hpl in
theorem Endpoint.count_service {σ : Type} (e : Endpoint σ) (service : Service σ)
    (response : R5.Message) :
    (e.count service response).2.service = service ∧
      (e.count service response).1.status = response.status := by
  unfold Endpoint.count
  split
  · dsimp only
    split <;> exact ⟨rfl, rfl⟩
  · exact ⟨rfl, rfl⟩

/-- One message: a load begins, and the answer is OK, or what is there is kept. -/
theorem kept_or_begun {e : Endpoint Live} (hs : Consistent e.service) (d : Delivery) :
    Kept e.service (endpointCb (liveBus pl polls) tickRateHz d e).2.service ∨
      Begun pl d.request e.service ((endpointCb (liveBus pl polls) tickRateHz d e).1,
        (endpointCb (liveBus pl polls) tickRateHz d e).2.service) := by
  unfold endpointCb
  split
  · have hor : Kept e.service (handleRequest (liveBus pl polls) tickRateHz d e.service).2 ∨
        Begun pl d.request e.service (handleRequest (liveBus pl polls) tickRateHz d e.service) :=
      handleRequest_kept_or_begun hpl hs d
    obtain ⟨response, service, hrun⟩ : ∃ response service,
        handleRequest (liveBus pl polls) tickRateHz d e.service = (response, service) :=
      ⟨_, _, rfl⟩
    obtain ⟨hservice, hstatus⟩ := Endpoint.count_service e service response
    rw [hrun] at hor ⊢
    dsimp only
    rw [hservice]
    rcases hor with hk | hb
    · exact .inl hk
    · exact .inr ⟨hb.command, hb.found, hstatus.trans hb.ok, hb.consistent, hb.writes, hb.memory,
        hb.active, hb.committed, hb.expectedEvents, hb.expectedCrc32⟩
  · left
    rw [(Endpoint.count_service _ _ _).1]
    exact kept_of_undisturbed hs (.refl _)

end

/-! ## Runs -/

section

variable (pl : ℕ → Page → Page) (polls : ℕ → ℕ) (tickRateHz : Word) (page : Page)

/-- The endpoint after some messages, from service initialisation. -/
def endpointAfter (deliveries : List Delivery) : Endpoint Live :=
  Endpoint.after (liveBus pl polls) tickRateHz ⟨page, 0⟩ deliveries

def serviceAfter (deliveries : List Delivery) : Service Live :=
  (endpointAfter pl polls tickRateHz page deliveries).service

/-- After `before` the message `d` begins a load, and it finds the PL sequencer idle, unlocked and
not faulted. -/
structure BeginsLoad (before : List Delivery) (d : Delivery) : Prop where
  command : d.request.command = R5.cmdSeqLoadBegin
  ok : (endpointCb (liveBus pl polls) tickRateHz d
    (endpointAfter pl polls tickRateHz page before)).1.status = .ok
  found : ((serviceAfter pl polls tickRateHz page before).bus.found pl).Free

/-- Since some message began a load, `Q` has held after every message. -/
def SinceBegin (Q : R5.Message → Service Live → Prop) (deliveries : List Delivery) : Prop :=
  ∃ before d rest, deliveries = before ++ d :: rest ∧
    BeginsLoad pl polls tickRateHz page before d ∧
    ∀ l, l <+: rest → Q d.request (serviceAfter pl polls tickRateHz page (before ++ d :: l))

/-- The count and the CRC are those of this LOAD_BEGIN. -/
def DeclaredBy (request : R5.Message) (s : Service Live) : Prop :=
  s.sequenceLoad.expectedEvents = request.word 0 ∧
    s.sequenceLoad.expectedCrc32 = request.word 1

/-- The load that this LOAD_BEGIN began is still open. -/
def OpenedBy (request : R5.Message) (s : Service Live) : Prop :=
  s.sequenceLoad.active = true ∧ DeclaredBy request s

variable {pl polls tickRateHz page} {deliveries : List Delivery} {d : Delivery}
variable {Q Q' : R5.Message → Service Live → Prop}

theorem endpointAfter_concat :
    endpointAfter pl polls tickRateHz page (deliveries ++ [d]) =
      (endpointCb (liveBus pl polls) tickRateHz d
        (endpointAfter pl polls tickRateHz page deliveries)).2 := by
  rw [endpointAfter, Endpoint.after, List.foldl_append]
  rfl

theorem SinceBegin.mono (h : SinceBegin pl polls tickRateHz page Q deliveries)
    (hq : ∀ request s, Q request s → Q' request s) :
    SinceBegin pl polls tickRateHz page Q' deliveries := by
  obtain ⟨before, d, rest, heq, hbegins, hall⟩ := h
  exact ⟨before, d, rest, heq, hbegins, fun l hl => hq _ _ (hall l hl)⟩

/-- One more message after which it still holds. -/
theorem sinceBegin_concat (h : SinceBegin pl polls tickRateHz page Q deliveries)
    (hq : ∀ request, Q request (serviceAfter pl polls tickRateHz page deliveries) →
      Q request (serviceAfter pl polls tickRateHz page (deliveries ++ [d]))) :
    SinceBegin pl polls tickRateHz page Q (deliveries ++ [d]) := by
  obtain ⟨before, b, rest, rfl, hbegins, hall⟩ := h
  refine ⟨before, b, rest ++ [d], by rw [List.append_assoc, List.cons_append], hbegins,
    fun l hl => ?_⟩
  rcases List.prefix_concat_iff.mp hl with rfl | hl
  · have hlast := hq b.request (hall rest List.prefix_rfl)
    rwa [List.append_assoc, List.cons_append] at hlast
  · exact hall l hl

theorem sinceBegin_begun (h : BeginsLoad pl polls tickRateHz page deliveries d)
    (hq : Q d.request (serviceAfter pl polls tickRateHz page (deliveries ++ [d]))) :
    SinceBegin pl polls tickRateHz page Q (deliveries ++ [d]) := by
  refine ⟨deliveries, d, [], rfl, h, fun l hl => ?_⟩
  rw [List.prefix_nil.mp hl]
  exact hq

theorem DeclaredBy.kept {request : R5.Message} {s s' : Service Live} (h : DeclaredBy request s)
    (hk : SameDeclared s s') : DeclaredBy request s' :=
  ⟨hk.1.trans h.1, hk.2.trans h.2⟩

variable (hpl : ∀ t p, Page.Evolves p (pl t p))

include hpl

/-- A message after any others. -/
theorem kept_or_beginsLoad
    (hs : Consistent (serviceAfter pl polls tickRateHz page deliveries)) (d : Delivery) :
    Kept (serviceAfter pl polls tickRateHz page deliveries)
        (serviceAfter pl polls tickRateHz page (deliveries ++ [d])) ∨
      BeginsLoad pl polls tickRateHz page deliveries d ∧ ∃ answer,
        Begun pl d.request (serviceAfter pl polls tickRateHz page deliveries)
          (answer, serviceAfter pl polls tickRateHz page (deliveries ++ [d])) := by
  rw [serviceAfter, serviceAfter, endpointAfter_concat]
  rcases kept_or_begun hpl hs d with hk | hb
  · exact .inl hk
  · exact .inr ⟨⟨hb.command, hb.ok, hb.found⟩, _, hb⟩

/-- The invariant, and where the open load and the committed program come from. -/
theorem consistent_after (deliveries : List Delivery) :
    Consistent (serviceAfter pl polls tickRateHz page deliveries) ∧
      ((serviceAfter pl polls tickRateHz page deliveries).sequenceLoad.active = true →
        SinceBegin pl polls tickRateHz page OpenedBy deliveries) ∧
      ((serviceAfter pl polls tickRateHz page deliveries).sequenceLoad.committed = true →
        SinceBegin pl polls tickRateHz page DeclaredBy deliveries) := by
  induction deliveries using List.reverseRecOn with
  | nil =>
    exact ⟨consistent_of_dropped rfl rfl, fun h => absurd h Bool.false_ne_true,
      fun h => absurd h Bool.false_ne_true⟩
  | append_singleton deliveries d ih =>
    obtain ⟨hs, hopen, hdeclared⟩ := ih
    rcases kept_or_beginsLoad hpl hs d with hk | ⟨hbegins, answer, hb⟩
    · refine ⟨hk.consistent, fun ha => ?_, fun hc => ?_⟩
      · exact sinceBegin_concat (hopen (hk.active ha)) fun request hq =>
          ⟨ha, hq.2.kept hk.declared⟩
      · have hbefore : SinceBegin pl polls tickRateHz page DeclaredBy deliveries :=
          (hk.committed hc).elim (fun ha => (hopen ha).mono fun _ _ hq => hq.2) hdeclared
        exact sinceBegin_concat hbefore fun request hq => hq.kept hk.declared
    · refine ⟨hb.consistent, fun _ => ?_, fun hc => ?_⟩
      · exact sinceBegin_begun hbegins ⟨hb.active, hb.expectedEvents, hb.expectedCrc32⟩
      · rw [show _ = false from hb.committed] at hc
        cases hc

/-- After any messages: a committed program is on the page as it was declared; the event memory is
written only in a load that began on a free page and is still open; ARM and START are written only
for a committed program. -/
theorem loader_invariant (deliveries : List Delivery) :
    ((serviceAfter pl polls tickRateHz page deliveries).sequenceLoad.committed = true →
      (∃ events, Stored (serviceAfter pl polls tickRateHz page deliveries) events) ∧
        SinceBegin pl polls tickRateHz page DeclaredBy deliveries) ∧
    ∀ d, ∃ written,
      (serviceAfter pl polls tickRateHz page (deliveries ++ [d])).writes =
        (serviceAfter pl polls tickRateHz page deliveries).writes ++ written ∧
      (∀ w ∈ written,
        (Page.eventWindow w.1 = true → SinceBegin pl polls tickRateHz page OpenedBy deliveries) ∧
        (w.1 = seqControl → w.2 &&& (seqControlArm ||| seqControlStart) ≠ 0 →
          (serviceAfter pl polls tickRateHz page deliveries).sequenceLoad.committed = true ∧
          (serviceAfter pl polls tickRateHz page (deliveries ++ [d])).sequenceLoad.committed =
            true)) ∧
      ((serviceAfter pl polls tickRateHz page (deliveries ++ [d])).bus.page.memory ≠
          (serviceAfter pl polls tickRateHz page deliveries).bus.page.memory →
        SinceBegin pl polls tickRateHz page OpenedBy deliveries) := by
  obtain ⟨hs, hopen, hdeclared⟩ :
      Consistent (serviceAfter pl polls tickRateHz page deliveries) ∧ _ ∧ _ :=
    consistent_after hpl deliveries
  refine ⟨fun hc => ⟨hs.committed hc, hdeclared hc⟩, fun d => ?_⟩
  rcases kept_or_beginsLoad hpl hs d with hk | ⟨-, answer, hb⟩
  · obtain ⟨written, hw, hallowed⟩ := hk.writes
    refine ⟨written, hw, fun w hmem => ⟨fun hwin => ?_, (hallowed w hmem).2⟩, fun hne => ?_⟩
    · exact hopen ((hallowed w hmem).1 hwin)
    · refine hopen ?_
      by_contra hinactive
      exact hne (hk.memory (by simpa using hinactive))
  · exact ⟨[], hb.writes.trans (List.append_nil _).symm, nofun, fun hne => absurd hb.memory hne⟩

end

/-! ## A load -/

/-- A page on which nothing happens by itself. -/
def idlePage : Page := ⟨fun _ => 0, 0, false, false, false, false, false, false, true, fun _ => 0⟩

/-- The messages of a whole load. -/
def loadDeliveries (events : List Event) : List Delivery :=
  (beginRequest 0 events ::
    events.zipIdx.map (fun e => eventRequest 0 e.2 e.1) ++ [commitRequest 0]).map
      fun request => ⟨true, request, 0⟩

/-- A pulse of one tick is loaded, and then it is on the page. -/
theorem loader_invariant_pulse :
    (serviceAfter (fun _ p => p) (fun _ => 0) 0 idlePage
      (loadDeliveries [⟨0, 1, 0⟩, ⟨1, 0, 0⟩])).sequenceLoad.committed = true ∧
    ∃ events, Stored (serviceAfter (fun _ p => p) (fun _ => 0) 0 idlePage
      (loadDeliveries [⟨0, 1, 0⟩, ⟨1, 0, 0⟩])) events := by
  have hc : (serviceAfter (fun _ p => p) (fun _ => 0) 0 idlePage
      (loadDeliveries [⟨0, 1, 0⟩, ⟨1, 0, 0⟩])).sequenceLoad.committed = true := by decide +kernel
  exact ⟨hc, ((loader_invariant (fun _ p => Page.Evolves.refl p) _).1 hc).1⟩

end QCrate.Sequence
