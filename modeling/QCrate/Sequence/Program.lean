import Mathlib.Tactic

/-!
# Pulse programs

A program is the list of events the pulse engine plays. The rules it has to obey are checked four
times over, by the host, by the target tool, by the R5 and by the engine itself; they are stated
once here, event by event, so that each checker can be compared with them at its own pace.

* `legal_append` — a longer program adds one condition for each event.
* `Program.play_eq` — what the outputs are while event `a` is the next one.
-/

namespace QCrate.Sequence

/-! ## Events -/

/-- One 128-bit record of the event memory. -/
structure Event where
  timestamp : BitVec 64
  state : BitVec 32
  flags : BitVec 32
  deriving DecidableEq, Repr

/-- The two output bits of the state word. -/
def Event.outputs (e : Event) : BitVec 2 := e.state.setWidth 2

/-- The state an event is compared with: the one before it, both outputs low at first. -/
def stateAfter : Option Event → BitVec 32
  | none => 0
  | some e => e.state

/-- The rules for an event that comes after `prev`. -/
structure Follows (prev : Option Event) (e : Event) : Prop where
  reserved : e.state.toNat < 4
  flags : e.flags = 0
  changes : e.state ≠ stateAfter prev
  later : ∀ p, prev = some p → p.timestamp < e.timestamp

/-- Every event of a list follows the one before it. -/
def Legal : Option Event → List Event → Prop
  | _, [] => True
  | prev, e :: events => Follows prev e ∧ Legal (some e) events

/-- A program the engine can play. -/
structure Program (events : List Event) : Prop where
  atLeast : 2 ≤ events.length
  atMost : events.length ≤ 128
  legal : Legal none events
  safe : stateAfter events.getLast? = 0

/-! ## Prefixes -/

theorem legal_append {prev : Option Event} {l₁ l₂ : List Event} :
    Legal prev (l₁ ++ l₂) ↔ Legal prev l₁ ∧ Legal (l₁.getLast?.or prev) l₂ := by
  induction l₁ generalizing prev with
  | nil => simp [Legal]
  | cons e l₁ ih =>
    have hlast : ((e :: l₁).getLast?).or prev = (l₁.getLast?).or (some e) := by
      cases l₁ with
      | nil => rfl
      | cons e' l₁ =>
        rw [List.getLast?_cons_cons, List.getLast?_cons]
        rfl
    rw [List.cons_append, Legal, Legal, ih, hlast, and_assoc]

theorem legal_concat {l : List Event} {e : Event} :
    Legal none (l ++ [e]) ↔ Legal none l ∧ Follows l.getLast? e := by
  rw [legal_append, Option.or_none]
  simp [Legal]

/-- Each event of a legal list follows the events before it. -/
theorem Legal.follows {l : List Event} {i : ℕ} {e : Event} (h : Legal none l)
    (he : l[i]? = some e) : Follows (l.take i).getLast? e := by
  obtain ⟨hlt, rfl⟩ := List.getElem?_eq_some_iff.mp he
  rw [← List.take_append_drop (i + 1) l, legal_append, List.take_succ_eq_append_getElem hlt,
    legal_concat] at h
  exact h.1.2

theorem getLast?_take {l : List Event} {i : ℕ} (hi : i ≤ l.length) :
    (l.take i).getLast? = if i = 0 then none else l[i - 1]? := by
  rw [List.getLast?_eq_getElem?, List.length_take, min_eq_left hi, List.getElem?_take]
  by_cases h0 : i = 0
  · rw [if_pos h0, if_neg (by omega)]
  · rw [if_neg h0, if_pos (by omega)]

/-- Timestamps of a legal list increase from event to event. -/
theorem Legal.timestamp_lt {l : List Event} (h : Legal none l) {i j : ℕ} {e e' : Event}
    (he : l[i]? = some e) (he' : l[j]? = some e') (hij : i < j) : e.timestamp < e'.timestamp := by
  induction j generalizing e' with
  | zero => omega
  | succ j ih =>
    obtain ⟨hlt, -⟩ := List.getElem?_eq_some_iff.mp he'
    have hf := h.follows he'
    rw [getLast?_take hlt.le, if_neg (by omega), Nat.add_sub_cancel] at hf
    obtain ⟨p, hp⟩ : ∃ p, l[j]? = some p := ⟨_, List.getElem?_eq_getElem (by omega)⟩
    have hlast := hf.later p hp
    rcases Nat.lt_succ_iff_lt_or_eq.mp hij with hlt' | rfl
    · exact BitVec.lt_trans (ih hp hlt') hlast
    · rw [he] at hp
      cases hp
      exact hlast

/-! ## What a program plays -/

/-- The outputs at tick `k`: those of the last event that is due, low before the first. -/
def play (events : List Event) (k : ℕ) : BitVec 2 :=
  match (events.filter (·.timestamp.toNat ≤ k)).getLast? with
  | none => 0
  | some e => e.outputs

/-- The outputs the first `a` events leave. -/
def outputsAfter (events : List Event) (a : ℕ) : BitVec 2 :=
  match (events.take a).getLast? with
  | none => 0
  | some e => e.outputs

/-- At tick `k` the first `a` events are due and the others are not. -/
theorem play_eq {events : List Event} {a k : ℕ}
    (hdue : ∀ i e, events[i]? = some e → i < a → e.timestamp.toNat ≤ k)
    (hlater : ∀ i e, events[i]? = some e → a ≤ i → k < e.timestamp.toNat) :
    play events k = outputsAfter events a := by
  have hfilter : events.filter (·.timestamp.toNat ≤ k) = events.take a := by
    conv_lhs => rw [← List.take_append_drop a events]
    rw [List.filter_append, List.filter_eq_self.mpr, List.filter_eq_nil_iff.mpr, List.append_nil]
    · intro e he
      obtain ⟨i, hi⟩ := List.mem_iff_getElem?.mp he
      rw [List.getElem?_drop] at hi
      have := hlater _ e hi (Nat.le_add_right a i)
      rw [decide_eq_true_iff]
      omega
    · intro e he
      obtain ⟨i, hi⟩ := List.mem_iff_getElem?.mp he
      rw [List.getElem?_take] at hi
      split at hi
      · next hia => exact decide_eq_true (hdue i e hi hia)
      · cases hi
  rw [play, outputsAfter, hfilter]

/-- The tick of the last event. -/
def lastTick (events : List Event) : ℕ :=
  match events.getLast? with
  | none => 0
  | some e => e.timestamp.toNat

end QCrate.Sequence
