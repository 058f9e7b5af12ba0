import Mathlib.Tactic

/-!
# Crossings between two clock domains

The two clocks tick in any order, and also at the same instant, when each side samples the other
as it was. A step of a crossing is therefore a choice of the edges that happen.

A four-phase handshake moves one value at a time. Every register on its way is a synchronizer
stage, so all that the sender and the receiver can be in is a position on a ring.

* `Handshake.Phase` — the positions, and `Handshake.inPhase_step` how edges move along them.
* `Handshake.InPhase.valid_iff` — a value is delivered at one position of the ring only.

A toggle carries events: each event flips it, and the other side looks for flips.

* `Toggle.settled_edge` — a toggle that nobody flips stays settled.
-/

namespace QCrate.Lib

variable {α : Type*}

/-! ## Four-phase handshake -/

namespace Handshake

/-- The sending side: the value it holds, its request, and the acknowledgement on its way in. -/
structure Source (α : Type*) where
  data : α
  send : Bool
  busy : Bool
  ack1 : Bool
  ack2 : Bool
  deriving DecidableEq, Repr

/-- The receiving side: the request on its way in, the value it took over, and its
acknowledgement. -/
structure Dest (α : Type*) where
  sync1 : Bool
  sync2 : Bool
  req : Bool
  data : α
  ack : Bool
  deriving DecidableEq, Repr

/-- The registers of the sending side after an edge of its clock. -/
def Source.edge (s : Source α) (destAck : Bool) (request : Option α) : Source α :=
  let n := { s with ack1 := destAck, ack2 := s.ack1 }
  match s.busy, request with
  | false, some data => { n with data := data, send := true, busy := true }
  | _, _ =>
    if s.send && s.ack2 then { n with send := false }
    else if s.busy && !s.send && !s.ack2 then { n with busy := false }
    else n

/-- A value is there and has not been acknowledged. -/
def Dest.valid (d : Dest α) : Bool := d.req && !d.ack

/-- The registers of the receiving side after an edge of its clock. -/
def Dest.edge (d : Dest α) (send : Bool) (data : α) (accept : Bool) : Dest α :=
  { sync1 := send
    sync2 := d.sync1
    req := d.sync2
    data := if d.sync2 && !d.req then data else d.data
    ack := if !d.req then false else if d.valid && accept then true else d.ack }

def Source.reset (data : α) : Source α := ⟨data, false, false, false, false⟩

def Dest.reset (data : α) : Dest α := ⟨false, false, false, data, false⟩

/-- An edge of the sending side with what it is asked to send, if its clock ticks. -/
def stepSource (s : Source α) (d : Dest α) : Option (Option α) → Source α
  | none => s
  | some request => s.edge d.ack request

/-- An edge of the receiving side and whether it accepts, if its clock ticks. -/
def stepDest (s : Source α) (d : Dest α) : Option Bool → Dest α
  | none => d
  | some accept => d.edge s.send s.data accept

/-! ## Positions -/

/-- Where the handshake is: nothing under way, the request `n` registers on its way around, or
its end `n` registers on its way. -/
inductive Phase where
  | idle
  | rise (n : ℕ)
  | fall (n : ℕ)
  deriving DecidableEq, Repr

/-- The position after a step: which clocks tick, what the receiver accepts and whether the
sender is asked to send. -/
def Phase.next (src request : Bool) (dest : Option Bool) : Phase → Phase
  | .idle => if src && request then .rise 0 else .idle
  | .rise n =>
    if n < 3 then if dest.isSome then .rise (n + 1) else .rise n
    else if n = 3 then if dest = some true then .rise 4 else .rise 3
    else if src then if n = 6 then .fall 0 else .rise (n + 1) else .rise n
  | .fall n =>
    if n < 4 then if dest.isSome then .fall (n + 1) else .fall n
    else if src then if n = 6 then .idle else .fall (n + 1) else .fall n

/-- The value has been asked to be sent and has not been accepted. -/
def Phase.undelivered : Phase → Bool
  | .rise n => n ≤ 3
  | _ => false

/-- The value has been accepted, and the receiver has not seen the end of the request. -/
def Phase.delivered : Phase → Bool
  | .rise n => 4 ≤ n
  | .fall n => n = 0
  | .idle => false

/-- The registers between the two sides, in the order in which a change passes them. -/
def stages (s : Source α) (d : Dest α) : List Bool :=
  [d.sync1, d.sync2, d.req, d.ack, s.ack1, s.ack2]

/-- The handshake is at a position. -/
inductive InPhase (s : Source α) (d : Dest α) : Phase → Prop where
  | idle (busy : s.busy = false) (send : s.send = false)
      (stages : stages s d = List.replicate 6 false) : InPhase s d .idle
  | rise (n : ℕ) (le : n ≤ 6) (busy : s.busy = true) (send : s.send = true)
      (stages : stages s d = List.replicate n true ++ List.replicate (6 - n) false)
      (data : 3 ≤ n → d.data = s.data) : InPhase s d (.rise n)
  | fall (n : ℕ) (le : n ≤ 6) (busy : s.busy = true) (send : s.send = false)
      (stages : stages s d = List.replicate n false ++ List.replicate (6 - n) true) :
      InPhase s d (.fall n)

variable {s : Source α} {d : Dest α} {phase : Phase}

theorem inPhase_reset (x y : α) : InPhase (Source.reset x) (Dest.reset y) .idle :=
  .idle rfl rfl rfl

/-- Every step moves along the ring. -/
theorem inPhase_step (h : InPhase s d phase) (src : Option (Option α)) (dest : Option Bool) :
    InPhase (stepSource s d src) (stepDest s d dest)
      (phase.next src.isSome (src.any (·.isSome)) dest) := by
  obtain ⟨sdata, send, busy, ack1, ack2⟩ := s
  obtain ⟨sync1, sync2, req, ddata, ack⟩ := d
  cases h with
  | idle hb hs hst =>
    simp only [stages, List.replicate, List.cons.injEq, and_true] at hb hs hst
    obtain ⟨rfl, rfl, rfl, rfl, rfl, rfl⟩ := hst
    subst hb hs
    rcases src with _ | _ | data <;> rcases dest with _ | _ | _ <;> first
      | exact .idle rfl rfl rfl
      | exact .rise 0 (by omega) rfl rfl rfl (by omega)
  | rise n hle hb hs hst hd =>
    simp only at hb hs hd
    subst hb hs
    -- the stages up to `n` carry the request, so the edges shift it by one
    interval_cases n <;>
      simp only [stages, List.replicate, List.cons_append, List.nil_append, List.append_nil,
        Nat.sub_zero, Nat.reduceSub, List.cons.injEq, and_true] at hst <;>
      obtain ⟨rfl, rfl, rfl, rfl, rfl, rfl⟩ := hst <;>
      rcases src with _ | _ | data <;> rcases dest with _ | _ | _ <;> first
        | exact .rise _ (by decide) rfl rfl rfl (fun _ => rfl)
        | exact .rise _ (by decide) rfl rfl rfl (fun _ => hd (by omega))
        | exact .fall _ (by decide) rfl rfl rfl
  | fall n hle hb hs hst =>
    simp only at hb hs
    subst hb hs
    interval_cases n <;>
      simp only [stages, List.replicate, List.cons_append, List.nil_append, List.append_nil,
        Nat.sub_zero, Nat.reduceSub, List.cons.injEq, and_true] at hst <;>
      obtain ⟨rfl, rfl, rfl, rfl, rfl, rfl⟩ := hst <;>
      rcases src with _ | _ | data <;> rcases dest with _ | _ | _ <;> first
        | exact .fall _ (by decide) rfl rfl rfl
        | exact .idle rfl rfl rfl

section

variable {src request : Bool} {dest : Option Bool}

theorem Phase.undelivered_of_next (h : (phase.next src request dest).undelivered = true) :
    phase.undelivered = true ∨ phase = .idle ∧ src = true ∧ request = true := by
  cases phase with
  | idle => cases src <;> cases request <;> first | exact .inr ⟨rfl, rfl, rfl⟩ | cases h
  | rise n =>
    left
    simp only [Phase.next] at h
    split at h
    · exact decide_eq_true (by omega)
    · split at h
      · exact decide_eq_true (by omega)
      · split at h
        · split at h
          · cases h
          · exact decide_eq_true (by have := of_decide_eq_true h; omega)
        · exact h
  | fall n =>
    simp only [Phase.next] at h
    repeat' split at h
    all_goals cases h

/-- A value stays on its way until it is accepted. -/
theorem Phase.undelivered_next (h : phase.undelivered = true) :
    (phase.next src request dest).undelivered = true ∨ phase = .rise 3 ∧ dest = some true := by
  cases phase with
  | idle => cases h
  | fall n => cases h
  | rise n =>
    have hn : n ≤ 3 := of_decide_eq_true h
    simp only [Phase.next]
    by_cases h3 : n = 3
    · subst h3
      by_cases hd : dest = some true
      · exact .inr ⟨rfl, hd⟩
      · left
        simp [hd, Phase.undelivered]
    · left
      rw [if_pos (show n < 3 by omega)]
      split
      · exact decide_eq_true (by omega)
      · exact h

/-- A receiver that accepts at once takes a value that is `n` registers on its way at each edge. -/
theorem Phase.rise_of_next {n n' : ℕ} (h : Phase.next src request dest (.rise n) = .rise n')
    (haccept : dest ≠ some false) (hn' : n' ≤ 3) :
    n ≤ 3 ∧ n' = if dest.isSome then n + 1 else n := by
  simp only [Phase.next] at h
  split at h
  · split at h <;> cases h
    · next hd => exact ⟨by omega, (if_pos hd).symm⟩
    · next hd => exact ⟨by omega, (if_neg hd).symm⟩
  · split at h
    · split at h
      · cases h
        omega
      · next hd =>
        cases h
        rcases dest with _ | _ | _
        · exact ⟨by omega, by rw [Option.isSome_none, if_neg Bool.false_ne_true]; omega⟩
        · exact absurd rfl haccept
        · exact absurd rfl hd
    · split at h
      · split at h <;> cases h
        omega
      · cases h
        omega

/-- Without an edge of its clock the receiver sees no end of the request. -/
theorem Phase.delivered_next (h : phase.delivered = true) :
    (phase.next src request none).delivered = true := by
  cases phase with
  | idle => cases h
  | rise n =>
    have hn : 4 ≤ n := of_decide_eq_true h
    simp only [Phase.next]
    rw [if_neg (show ¬ n < 3 by omega), if_neg (show ¬ n = 3 by omega)]
    split
    · split
      · rfl
      · exact decide_eq_true (by omega)
    · exact h
  | fall n =>
    have hn : n = 0 := of_decide_eq_true h
    subst hn
    rfl

end

/-! ## How far it is to the end -/

/-- The registers that are left to pass until nothing is under way. -/
def Phase.hops : Phase → ℕ
  | .idle => 0
  | .rise n => 14 - n
  | .fall n => 7 - n

/-- A position on the ring. -/
def Phase.Bounded : Phase → Prop
  | .idle => True
  | .rise n | .fall n => n ≤ 6

/-- The next register is on the side of the sender. -/
def Phase.sourceMoves : Phase → Bool
  | .idle => false
  | .rise n | .fall n => 4 ≤ n

theorem InPhase.bounded (h : InPhase s d phase) : phase.Bounded := by
  cases h with
  | idle => trivial
  | rise n hle => exact hle
  | fall n hle => exact hle

section

variable {src request : Bool} {dest : Option Bool}

/-- A position that is left comes closer to the end. -/
theorem Phase.hops_next (hb : phase.Bounded) (hr : phase = .idle → (src && request) = false) :
    (phase.next src request dest).hops < phase.hops ∨ phase.next src request dest = phase := by
  cases phase with
  | idle =>
    right
    simp [Phase.next, hr rfl]
  | rise n =>
    have hn : n ≤ 6 := hb
    simp only [Phase.next]
    repeat' split
    all_goals first
      | exact .inr rfl
      | left
        simp only [Phase.hops]
        omega
      | subst_vars
        exact .inr rfl
  | fall n =>
    have hn : n ≤ 6 := hb
    simp only [Phase.next]
    repeat' split
    all_goals first
      | exact .inr rfl
      | left
        simp only [Phase.hops]
        omega

theorem Phase.hops_next_of_source (hb : phase.Bounded) (hm : phase.sourceMoves = true) :
    (phase.next true request dest).hops < phase.hops := by
  cases phase with
  | idle => cases hm
  | rise n =>
    have hn : n ≤ 6 := hb
    have h4 : 4 ≤ n := of_decide_eq_true hm
    simp only [Phase.next]
    rw [if_neg (by omega), if_neg (by omega), if_pos trivial]
    split <;> simp only [Phase.hops] <;> omega
  | fall n =>
    have hn : n ≤ 6 := hb
    have h4 : 4 ≤ n := of_decide_eq_true hm
    simp only [Phase.next]
    rw [if_neg (by omega), if_pos trivial]
    split <;> simp only [Phase.hops] <;> omega

theorem Phase.hops_next_of_dest (hm : phase.sourceMoves = false)
    (hidle : phase ≠ .idle) (h3 : phase ≠ .rise 3) (hd : dest.isSome = true) :
    (phase.next src request dest).hops < phase.hops := by
  cases phase with
  | idle => exact absurd rfl hidle
  | rise n =>
    have h4 : ¬4 ≤ n := of_decide_eq_false hm
    have hne : n ≠ 3 := fun h => h3 (by rw [h])
    simp only [Phase.next]
    rw [if_pos (by omega), if_pos hd]
    simp only [Phase.hops]
    omega
  | fall n =>
    have h4 : ¬4 ≤ n := of_decide_eq_false hm
    simp only [Phase.next]
    rw [if_pos (by omega), if_pos hd]
    simp only [Phase.hops]
    omega

theorem Phase.hops_of_undelivered (h : phase.undelivered = true) :
    11 ≤ phase.hops ∧ phase.hops ≤ 14 ∧ phase.sourceMoves = false ∧ phase ≠ .idle := by
  cases phase with
  | idle | fall n => cases h
  | rise n =>
    have hn : n ≤ 3 := of_decide_eq_true h
    refine ⟨?_, ?_, decide_eq_false (by omega), nofun⟩ <;> simp only [Phase.hops] <;> omega

end

/-! ## What a position says -/

theorem InPhase.busy_eq (h : InPhase s d phase) : s.busy = !decide (phase = .idle) := by
  cases h with
  | idle hb => simp [hb]
  | rise n hle hb => simp [hb]
  | fall n hle hb => simp [hb]

/-- The receiver sees a value at one position only, and it is the one the sender holds. -/
theorem InPhase.valid_iff (h : InPhase s d phase) : d.valid = true ↔ phase = .rise 3 := by
  obtain ⟨sync1, sync2, req, ddata, ack⟩ := d
  cases h with
  | idle _ _ hst =>
    simp only [stages, List.replicate, List.cons.injEq] at hst
    obtain ⟨-, -, rfl, rfl, -⟩ := hst
    simp [Dest.valid]
  | rise n hle _ _ hst =>
    interval_cases n <;>
      simp only [stages, List.replicate, List.cons_append, List.nil_append, List.append_nil,
        Nat.sub_zero, Nat.reduceSub, List.cons.injEq] at hst <;>
      obtain ⟨-, -, rfl, rfl, -⟩ := hst <;> simp [Dest.valid]
  | fall n hle _ _ hst =>
    interval_cases n <;>
      simp only [stages, List.replicate, List.cons_append, List.nil_append, List.append_nil,
        Nat.sub_zero, Nat.reduceSub, List.cons.injEq] at hst <;>
      obtain ⟨-, -, rfl, rfl, -⟩ := hst <;> simp [Dest.valid]

theorem InPhase.data_of_valid (h : InPhase s d phase) (hv : d.valid = true) :
    d.data = s.data := by
  have hp := h.valid_iff.mp hv
  subst hp
  cases h with
  | rise n _ _ _ _ hd => exact hd (le_refl 3)

theorem InPhase.undelivered_eq (h : InPhase s d phase) :
    (s.send && !d.ack) = phase.undelivered := by
  obtain ⟨sync1, sync2, req, ddata, ack⟩ := d
  cases h with
  | idle _ hs => simp [hs, Phase.undelivered]
  | rise n hle _ hs hst =>
    interval_cases n <;>
      simp only [stages, List.replicate, List.cons_append, List.nil_append, List.append_nil,
        Nat.sub_zero, Nat.reduceSub, List.cons.injEq] at hst <;>
      obtain ⟨-, -, -, rfl, -⟩ := hst <;> simp [hs, Phase.undelivered]
  | fall n _ _ hs => simp [hs, Phase.undelivered]

/-- A value is only taken up when nothing is under way. -/
theorem stepSource_data_of_ne (h : InPhase s d phase) (hp : phase ≠ .idle)
    (src : Option (Option α)) : (stepSource s d src).data = s.data := by
  have hb : s.busy = true := by simp [h.busy_eq, hp]
  rcases src with _ | _ | data
  · rfl
  all_goals
    simp only [stepSource, Source.edge, hb]
    split
    · rfl
    · split <;> rfl

theorem stepSource_data_of_none (s : Source α) (d : Dest α) :
    (stepSource s d (some none)).data = s.data := by
  simp only [stepSource, Source.edge]
  split
  · next hr => cases hr
  · split
    · rfl
    · split <;> rfl

theorem stepSource_data_of_idle (h : InPhase s d .idle) (data : α) :
    (stepSource s d (some (some data))).data = data := by
  have hb : s.busy = false := by simp [h.busy_eq]
  simp [stepSource, Source.edge, hb]

end Handshake

/-! ## Toggle -/

namespace Toggle

/-- The receiving side of a toggle: two synchronizer stages, what was seen last, and the pulse
that a flip makes. -/
structure Dest where
  sync1 : Bool
  sync2 : Bool
  seen : Bool
  pulse : Bool
  deriving DecidableEq, Repr

def Dest.reset : Dest := ⟨false, false, false, false⟩

/-- The registers of the receiving side after an edge of its clock. -/
def Dest.edge (d : Dest) (toggle : Bool) : Dest :=
  { sync1 := toggle
    sync2 := d.sync1
    seen := d.sync2
    pulse := d.sync2 ^^ d.seen }

/-- Every flip has been seen, and its pulse is over. -/
def Settled (toggle : Bool) (d : Dest) : Prop := d = ⟨toggle, toggle, toggle, false⟩

instance (toggle : Bool) (d : Dest) : Decidable (Settled toggle d) :=
  inferInstanceAs (Decidable (_ = _))

theorem Settled.pulse {toggle : Bool} {d : Dest} (h : Settled toggle d) : d.pulse = false := by
  subst h
  rfl

theorem settled_edge {toggle : Bool} {d : Dest} (h : Settled toggle d) :
    Settled toggle (d.edge toggle) := by
  subst h
  cases toggle <;> rfl

end Toggle

end QCrate.Lib
