import QCrate.Lib.Machine
import QCrate.Lib.RingBuffer

/-!
# The queue between the two threads

`struct bank_queue` of `qcrate_streamer.c`. A call holds the mutex from its beginning until it
returns or waits; a thread that waits may be woken by a signal or for no reason, and then tests its
condition again. `not_full` has no other waiter than the acquisition thread, and `not_empty` none
but the sender thread. `finish` and `fail` come from any thread.

* `Threads.Kept` — the tokens in the ring are those that were pushed and not popped, and a thread
  that waits without need has been signalled.
* `kept_step` — every passage through the mutex keeps this.
* `queue_exact` — what it says about any interleaving.
-/

namespace QCrate.Streamer

open QCrate.Lib

/-! ## State -/

/-- `struct bank_queue` without its mutex and its condition variables. -/
structure BankQueue (α : Type) where
  ring : RingBuffer α
  highWater : ℕ := 0
  producerDone : Bool := false
  failed : Bool := false
  errorNumber : ℤ := 0
  errorContext : String := ""

/-- A thread outside of the queue, or in `pthread_cond_wait` with the token it pushes. -/
inductive Pusher (α : Type) where
  | running
  | waiting (token : α) (signalled : Bool)
  deriving DecidableEq, Repr

inductive Popper where
  | running
  | waiting (signalled : Bool)
  deriving DecidableEq, Repr

/-- What a call of `queue_push` or `queue_pop` returns. -/
inductive Returned (α : Type) where
  | pushed
  | pushFailed
  | token (t : α)
  | endOfData
  | popFailed
  deriving DecidableEq, Repr

/-- The queue and its two threads. `returned` is what the last step returned; `pushed` and `popped`
are a record of the calls that took and gave a token. -/
structure Threads (α : Type) where
  queue : BankQueue α
  acquisition : Pusher α := .running
  sender : Popper := .running
  returned : Option (Returned α) := none
  pushed : List α := []
  popped : List α := []

inductive QueueAction (α : Type) where
  | push (t : α)
  | acquisitionWakes
  | pop
  | senderWakes
  | finish
  | fail (operation : String) (errorNumber : ℤ)

variable {α : Type}

/-- `queue_init`: the slots are zero. -/
def queueInit (zero : α) (capacity : ℕ) : Threads α :=
  { queue := { ring := ⟨fun _ => zero, capacity, 0, 0, 0⟩ } }

namespace BankQueue

/-- The condition on which `queue_push` waits. -/
def full (q : BankQueue α) : Bool := q.ring.count = q.ring.capacity && !q.failed

/-- The condition on which `queue_pop` waits. -/
def empty (q : BankQueue α) : Bool := q.ring.count = 0 && !q.producerDone && !q.failed

/-- What `queue_push` does to the queue. -/
def put (q : BankQueue α) (t : α) : BankQueue α :=
  { q with ring := q.ring.push t, highWater := max q.highWater (q.ring.count + 1) }

/-- `EIO` -/
def eio : ℤ := 5

/-- What `pipeline_fail` does to the queue. `error_context` has 96 bytes. -/
def fail (q : BankQueue α) (operation : String) (errorNumber : ℤ) : BankQueue α :=
  if q.failed then q
  else { q with
    failed := true
    errorNumber := if errorNumber = 0 then eio else errorNumber
    errorContext := String.ofList (operation.toList.take 95) }

end BankQueue

namespace Pusher

/-- `pthread_cond_signal` or `pthread_cond_broadcast` on `not_full` -/
def signal : Pusher α → Pusher α
  | running => running
  | waiting t _ => waiting t true

end Pusher

namespace Popper

/-- `pthread_cond_signal` or `pthread_cond_broadcast` on `not_empty` -/
def signal : Popper → Popper
  | running => running
  | waiting _ => waiting true

end Popper

namespace Threads

/-! ## The calls -/

/-- `queue_push` from the test of its loop on. -/
def pushFrom (s : Threads α) (t : α) : Threads α :=
  if s.queue.full then { s with acquisition := .waiting t false, returned := none }
  else if s.queue.failed then { s with acquisition := .running, returned := some .pushFailed }
  else { s with
    queue := s.queue.put t
    acquisition := .running
    sender := s.sender.signal
    returned := some .pushed
    pushed := s.pushed ++ [t] }

/-- `queue_pop` from the test of its loop on. -/
def popFrom (s : Threads α) : Threads α :=
  if s.queue.empty then { s with sender := .waiting false, returned := none }
  else if s.queue.failed then { s with sender := .running, returned := some .popFailed }
  else if s.queue.ring.count = 0 then { s with sender := .running, returned := some .endOfData }
  else { s with
    queue := { s.queue with ring := s.queue.ring.pop }
    acquisition := s.acquisition.signal
    sender := .running
    returned := some (.token s.queue.ring.first)
    popped := s.popped ++ [s.queue.ring.first] }

/-- `queue_finish` -/
def finish (s : Threads α) : Threads α :=
  { s with
    queue := { s.queue with producerDone := true }, sender := s.sender.signal, returned := none }

/-- `pipeline_fail` -/
def fail (s : Threads α) (operation : String) (errorNumber : ℤ) : Threads α :=
  { s with
    queue := s.queue.fail operation errorNumber
    acquisition := s.acquisition.signal
    sender := s.sender.signal
    returned := none }

end Threads

/-- One passage through the mutex. -/
def queueMachine (α : Type) : Machine (Threads α) (QueueAction α) where
  step s a :=
    match a with
    | .push t =>
      match s.acquisition with
      | .running => some (s.pushFrom t)
      | .waiting _ _ => none
    | .acquisitionWakes =>
      match s.acquisition with
      | .running => none
      | .waiting t _ => some (s.pushFrom t)
    | .pop =>
      match s.sender with
      | .running => some s.popFrom
      | .waiting _ => none
    | .senderWakes =>
      match s.sender with
      | .running => none
      | .waiting _ => some s.popFrom
    | .finish => some s.finish
    | .fail operation errorNumber => some (s.fail operation errorNumber)

/-- What a step can do. -/
theorem queueMachine_step {s s' : Threads α} {a : QueueAction α}
    (h : (queueMachine α).step s a = some s') :
    ((∃ t, s' = s.pushFrom t) ∨ s' = s.popFrom) ∧ a ≠ .finish ∧ (∀ op n, a ≠ .fail op n) ∨
      a = .finish ∧ s' = s.finish ∨
      ∃ operation errorNumber, a = .fail operation errorNumber ∧
        s' = s.fail operation errorNumber := by
  unfold queueMachine at h
  cases a with
  | push t =>
    dsimp only at h
    split at h
    · cases h
      exact .inl ⟨.inl ⟨t, rfl⟩, by simp, by simp⟩
    · cases h
  | acquisitionWakes =>
    dsimp only at h
    split at h
    · cases h
    · next t signalled _ =>
      cases h
      exact .inl ⟨.inl ⟨t, rfl⟩, by simp, by simp⟩
  | pop =>
    dsimp only at h
    split at h
    · cases h
      exact .inl ⟨.inr rfl, by simp, by simp⟩
    · cases h
  | senderWakes =>
    dsimp only at h
    split at h
    · cases h
    · cases h
      exact .inl ⟨.inr rfl, by simp, by simp⟩
  | finish =>
    cases h
    exact .inr (.inl ⟨rfl, rfl⟩)
  | fail operation errorNumber =>
    cases h
    exact .inr (.inr ⟨operation, errorNumber, rfl, rfl⟩)

/-! ## The invariant -/

/-- The tokens pushed and not popped are in the ring, and no thread waits without need unless it
has been signalled. -/
structure Threads.Kept (capacity : ℕ) (s : Threads α) : Prop where
  holds : ∃ q, s.queue.ring.Holds q ∧ s.pushed = s.popped ++ q
  capacity_eq : s.queue.ring.capacity = capacity
  pusher : ∀ t signalled, s.acquisition = .waiting t signalled → s.queue.full = false →
    signalled = true
  popper : ∀ signalled, s.sender = .waiting signalled → s.queue.empty = false → signalled = true
  ended : s.returned = some .endOfData →
    s.queue.producerDone = true ∧ s.queue.failed = false ∧ s.popped = s.pushed

namespace Threads.Kept

variable {capacity : ℕ} {s s' : Threads α}

theorem pusher_signal {p : Pusher α} {t : α} {signalled : Bool}
    (h : p.signal = .waiting t signalled) : signalled = true := by
  cases p with
  | running => cases h
  | waiting t' signalled' =>
    cases h
    rfl

theorem popper_signal {p : Popper} {signalled : Bool} (h : p.signal = .waiting signalled) :
    signalled = true := by
  cases p with
  | running => cases h
  | waiting signalled' =>
    cases h
    rfl

theorem init (zero : α) (hcapacity : 1 ≤ capacity) : (queueInit zero capacity).Kept capacity where
  holds := ⟨[], ⟨hcapacity, (Nat.zero_mod _).symm, rfl, Nat.zero_le _, by simp⟩, rfl⟩
  capacity_eq := rfl
  pusher := by
    intro t signalled h
    cases h
  popper := by
    intro signalled h
    cases h
  ended := by
    intro h
    cases h

theorem pushFrom (h : s.Kept capacity) (t : α) : (s.pushFrom t).Kept capacity := by
  obtain ⟨q, hq, hpushed⟩ := h.holds
  unfold Threads.pushFrom
  by_cases hfull : s.queue.full = true
  · rw [if_pos hfull]
    refine ⟨⟨q, hq, hpushed⟩, h.capacity_eq, fun t' signalled _ hnot => ?_, h.popper, by simp⟩
    rw [show s.queue.full = false from hnot] at hfull
    cases hfull
  · rw [if_neg hfull]
    by_cases hfailed : s.queue.failed = true
    · rw [if_pos hfailed]
      exact ⟨⟨q, hq, hpushed⟩, h.capacity_eq, by simp, h.popper, by simp⟩
    · -- the thread went on, so a place is free
      rw [if_neg hfailed]
      have hroom : s.queue.ring.count < s.queue.ring.capacity := by
        refine lt_of_le_of_ne hq.count_le fun he => hfull ?_
        unfold BankQueue.full
        rw [he, Bool.eq_false_of_not_eq_true hfailed]
        simp
      refine ⟨⟨q ++ [t], hq.push hroom t, ?_⟩, h.capacity_eq, by simp,
        fun signalled hw _ => popper_signal hw, by simp⟩
      show s.pushed ++ [t] = s.popped ++ (q ++ [t])
      rw [hpushed, List.append_assoc]

theorem popFrom (h : s.Kept capacity) : s.popFrom.Kept capacity := by
  obtain ⟨q, hq, hpushed⟩ := h.holds
  unfold Threads.popFrom
  by_cases hempty : s.queue.empty = true
  · rw [if_pos hempty]
    refine ⟨⟨q, hq, hpushed⟩, h.capacity_eq, h.pusher, fun signalled _ hnot => ?_, by simp⟩
    rw [show s.queue.empty = false from hnot] at hempty
    cases hempty
  · rw [if_neg hempty]
    by_cases hfailed : s.queue.failed = true
    · rw [if_pos hfailed]
      exact ⟨⟨q, hq, hpushed⟩, h.capacity_eq, h.pusher, by simp, by simp⟩
    · rw [if_neg hfailed]
      by_cases hzero : s.queue.ring.count = 0
      · rw [if_pos hzero]
        -- nothing is left, so the thread has not waited only because the producer is done
        have hdone : s.queue.producerDone = true := by
          by_contra hdone
          apply hempty
          unfold BankQueue.empty
          rw [hzero, Bool.eq_false_of_not_eq_true hdone, Bool.eq_false_of_not_eq_true hfailed]
          rfl
        have hnil := hq.eq_nil_iff.mpr hzero
        subst hnil
        refine ⟨⟨[], hq, hpushed⟩, h.capacity_eq, h.pusher, by simp, fun _ => ?_⟩
        exact ⟨hdone, Bool.eq_false_of_not_eq_true hfailed, by rw [hpushed, List.append_nil]⟩
      · rw [if_neg hzero]
        cases q with
        | nil => exact absurd (hq.eq_nil_iff.mp rfl) hzero
        | cons t q =>
          refine ⟨⟨q, hq.pop, ?_⟩, h.capacity_eq, fun t' signalled hw _ => pusher_signal hw,
            by simp, by simp⟩
          show s.pushed = (s.popped ++ [s.queue.ring.first]) ++ q
          rw [hpushed, hq.first, List.append_assoc, List.singleton_append]

theorem finish (h : s.Kept capacity) : s.finish.Kept capacity where
  holds := h.holds
  capacity_eq := h.capacity_eq
  pusher := h.pusher
  popper := fun _ hw _ => popper_signal hw
  ended := by
    intro hr
    cases hr

theorem fail (h : s.Kept capacity) (operation : String) (errorNumber : ℤ) :
    (s.fail operation errorNumber).Kept capacity := by
  have hring : (s.queue.fail operation errorNumber).ring = s.queue.ring := by
    unfold BankQueue.fail
    split <;> rfl
  refine ⟨?_, ?_, fun t signalled hw _ => pusher_signal hw, fun signalled hw _ => popper_signal hw,
    by simp [Threads.fail]⟩
  · show ∃ q, (s.queue.fail operation errorNumber).ring.Holds q ∧ s.pushed = s.popped ++ q
    rw [hring]
    exact h.holds
  · show (s.queue.fail operation errorNumber).ring.capacity = capacity
    rw [hring]
    exact h.capacity_eq

theorem step (h : s.Kept capacity) {a : QueueAction α} (hs : (queueMachine α).step s a = some s') :
    s'.Kept capacity := by
  rcases queueMachine_step hs with ⟨⟨t, rfl⟩ | rfl, -⟩ | ⟨-, rfl⟩ | ⟨operation, n, -, rfl⟩
  · exact h.pushFrom t
  · exact h.popFrom
  · exact h.finish
  · exact h.fail operation n

end Threads.Kept

/-! ## The two ways of closing -/

/-- The flags of the queue are what has been called. -/
theorem flags_step {s s' : Threads α} {a : QueueAction α}
    (h : (queueMachine α).step s a = some s') :
    (s'.queue.producerDone = true ↔ a = .finish ∨ s.queue.producerDone = true) ∧
      (s'.queue.failed = true ↔ (∃ op n, a = .fail op n) ∨ s.queue.failed = true) := by
  rcases queueMachine_step h with ⟨hs, hfinish, hfail⟩ | ⟨rfl, rfl⟩ | ⟨operation, n, rfl, rfl⟩
  · have hflags : s'.queue.producerDone = s.queue.producerDone ∧
        s'.queue.failed = s.queue.failed := by
      rcases hs with ⟨t, rfl⟩ | rfl
      · unfold Threads.pushFrom BankQueue.put
        repeat' split
        all_goals exact ⟨rfl, rfl⟩
      · unfold Threads.popFrom
        repeat' split
        all_goals exact ⟨rfl, rfl⟩
    rw [hflags.1, hflags.2]
    simp [hfinish, hfail]
  · simp [Threads.finish]
  · unfold Threads.fail BankQueue.fail
    dsimp only
    split <;> simp_all

theorem flags_run {l : List (QueueAction α)} {s s' : Threads α}
    (h : (queueMachine α).run s l = some s') :
    (s'.queue.producerDone = true ↔ .finish ∈ l ∨ s.queue.producerDone = true) ∧
      (s'.queue.failed = true ↔ (∃ op n, .fail op n ∈ l) ∨ s.queue.failed = true) := by
  induction l generalizing s with
  | nil =>
    cases h
    simp
  | cons a l ih =>
    obtain ⟨s₁, h₁, h₂⟩ := Machine.run_cons _ h
    obtain ⟨hdone, hfailed⟩ := ih h₂
    obtain ⟨hdone₁, hfailed₁⟩ := flags_step h₁
    rw [hdone, hfailed, hdone₁, hfailed₁]
    constructor
    · rw [List.mem_cons, or_left_comm, or_assoc, eq_comm (a := a)]
    · simp only [List.mem_cons, exists_or]
      rw [or_left_comm, or_assoc]
      simp only [eq_comm]

/-! ## Any interleaving -/

/-- In every interleaving the popped tokens are the first of the pushed ones, the others are in
the ring, pop reports the end of the data only when `finish` was called, `fail` was not, and all
tokens have been popped, and a thread that waits without need has been signalled. -/
theorem queue_exact (zero : α) {capacity : ℕ} (hcapacity : 1 ≤ capacity)
    {l : List (QueueAction α)} {s : Threads α}
    (h : (queueMachine α).run (queueInit zero capacity) l = some s) :
    (s.popped <+: s.pushed ∧ ∃ q, s.queue.ring.Holds q ∧ s.pushed = s.popped ++ q) ∧
      s.queue.ring.count ≤ capacity ∧
      (s.returned = some .endOfData →
        .finish ∈ l ∧ (∀ op n, .fail op n ∉ l) ∧ s.popped = s.pushed) ∧
      (∀ t signalled, s.acquisition = .waiting t signalled → s.queue.full = false →
        signalled = true) ∧
      ∀ signalled, s.sender = .waiting signalled → s.queue.empty = false → signalled = true := by
  have hkept : s.Kept capacity := Machine.Reachable.invariant ⟨l, h⟩ (.init zero hcapacity)
    fun _ _ _ hs hstep => hs.step hstep
  obtain ⟨hdone, hfailed⟩ := flags_run h
  obtain ⟨q, hq, hpushed⟩ := hkept.holds
  refine ⟨⟨⟨q, hpushed.symm⟩, q, hq, hpushed⟩, hkept.capacity_eq ▸ hq.count_le, fun hend => ?_,
    hkept.pusher, hkept.popper⟩
  obtain ⟨hproducer, hnot, hall⟩ := hkept.ended hend
  refine ⟨?_, ?_, hall⟩
  · exact (hdone.mp hproducer).resolve_right (by simp [queueInit])
  · intro op n hmem
    rw [hfailed.mpr (.inl ⟨op, n, hmem⟩)] at hnot
    cases hnot

/-- The second token waits for room, and the sender for the end. -/
def drained : List (QueueAction ℕ) :=
  [.push 1, .push 2, .pop, .acquisitionWakes, .pop, .pop, .finish, .senderWakes]

theorem queue_exact_drained : ∃ s, (queueMachine ℕ).run (queueInit 0 1) drained = some s ∧
    s.returned = some .endOfData ∧ .finish ∈ drained ∧ s.popped = s.pushed :=
  ⟨_, rfl, rfl,
    ((queue_exact 0 le_rfl
      (show (queueMachine ℕ).run (queueInit 0 1) drained = some _ from rfl)).2.2.1 rfl).1,
    ((queue_exact 0 le_rfl
      (show (queueMachine ℕ).run (queueInit 0 1) drained = some _ from rfl)).2.2.1 rfl).2.2⟩

end QCrate.Streamer
