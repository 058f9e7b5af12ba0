import Mathlib.Tactic

/-!
# Ring buffers

Slots that are filled at the tail and emptied at the head, both running around. The elements of a
ring are a list: what is pushed goes to its end, and what is popped is its first element.

* `RingBuffer.Holds` — the ring holds these elements, in this order.
* `RingBuffer.Holds.push`, `RingBuffer.Holds.pop` — the operations on the list.
-/

namespace QCrate.Lib

variable {α : Type*}

structure RingBuffer (α : Type*) where
  tokens : ℕ → α
  capacity : ℕ
  head : ℕ
  tail : ℕ
  count : ℕ

namespace RingBuffer

def push (r : RingBuffer α) (a : α) : RingBuffer α :=
  { r with
    tokens := Function.update r.tokens r.tail a
    tail := (r.tail + 1) % r.capacity
    count := r.count + 1 }

/-- The element at the head. -/
def first (r : RingBuffer α) : α := r.tokens r.head

def pop (r : RingBuffer α) : RingBuffer α :=
  { r with head := (r.head + 1) % r.capacity, count := r.count - 1 }

/-- The elements of the ring, in the order in which they will be popped. -/
structure Holds (r : RingBuffer α) (q : List α) : Prop where
  head_lt : r.head < r.capacity
  tail_eq : r.tail = (r.head + r.count) % r.capacity
  count_eq : r.count = q.length
  count_le : r.count ≤ r.capacity
  slot : ∀ i a, q[i]? = some a → r.tokens ((r.head + i) % r.capacity) = a

variable {r : RingBuffer α} {q : List α} {a : α}

/-- Different positions are different slots. -/
theorem slot_ne {head capacity i j : ℕ} (hij : i < j) (hj : j < capacity) :
    (head + i) % capacity ≠ (head + j) % capacity := by
  intro h
  have hmod : i ≡ j [MOD capacity] := Nat.ModEq.add_left_cancel' head h
  have hi : i % capacity = i := Nat.mod_eq_of_lt (hij.trans hj)
  have hj' : j % capacity = j := Nat.mod_eq_of_lt hj
  unfold Nat.ModEq at hmod
  omega

theorem Holds.push (h : r.Holds q) (hroom : r.count < r.capacity) (a : α) :
    (r.push a).Holds (q ++ [a]) where
  head_lt := h.head_lt
  tail_eq := by
    show (r.tail + 1) % r.capacity = (r.head + (r.count + 1)) % r.capacity
    rw [h.tail_eq, Nat.mod_add_mod, Nat.add_assoc]
  count_eq := by
    show r.count + 1 = (q ++ [a]).length
    rw [List.length_append, h.count_eq]
    rfl
  count_le := hroom
  slot := by
    intro i b hb
    show Function.update r.tokens r.tail a ((r.head + i) % r.capacity) = b
    rw [h.tail_eq]
    rcases Nat.lt_trichotomy i q.length with hi | rfl | hi
    · rw [List.getElem?_append_left hi] at hb
      rw [Function.update_of_ne (slot_ne (h.count_eq ▸ hi) hroom)]
      exact h.slot i b hb
    · rw [List.getElem?_concat_length] at hb
      cases hb
      rw [h.count_eq, Function.update_self]
    · rw [List.getElem?_eq_none (by rw [List.length_append]; exact hi)] at hb
      cases hb

theorem Holds.first (h : r.Holds (a :: q)) : r.first = a := by
  have hslot := h.slot 0 a rfl
  rwa [Nat.add_zero, Nat.mod_eq_of_lt h.head_lt] at hslot

theorem Holds.pop (h : r.Holds (a :: q)) : r.pop.Holds q where
  head_lt := Nat.mod_lt _ (Nat.zero_lt_of_lt h.head_lt)
  tail_eq := by
    show r.tail = ((r.head + 1) % r.capacity + (r.count - 1)) % r.capacity
    have hpos : r.count = q.length + 1 := h.count_eq
    rw [h.tail_eq, Nat.mod_add_mod, hpos, Nat.add_sub_cancel, Nat.add_assoc, Nat.add_comm 1]
  count_eq := by
    show r.count - 1 = q.length
    rw [h.count_eq]
    rfl
  count_le := (Nat.sub_le _ _).trans h.count_le
  slot := by
    intro i b hb
    show r.tokens (((r.head + 1) % r.capacity + i) % r.capacity) = b
    rw [Nat.mod_add_mod, Nat.add_assoc, Nat.add_comm 1]
    exact h.slot (i + 1) b hb

/-- A ring that holds nothing has count zero, and only such a ring. -/
theorem Holds.eq_nil_iff (h : r.Holds q) : q = [] ↔ r.count = 0 := by
  rw [h.count_eq, List.length_eq_zero_iff]

end RingBuffer

end QCrate.Lib
