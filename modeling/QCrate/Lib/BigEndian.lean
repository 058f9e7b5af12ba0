import Mathlib.Tactic

/-!
# Big-endian fields of a byte string

`putBE w n` writes the low `w` bytes of `n`, and `readBE w input offset` reads `w` bytes at a
constant offset. A record that is written field by field is read back with two rewriting rules:
`readBE_skip` passes a field and `readBE_putBE` reads the one at hand.

* `readBE_putBE` — a field holds its value modulo its width.
* `readBE_lt` — what is read fits the width.
-/

namespace QCrate.Lib

/-- The low `w` bytes of `n`, most significant first. -/
def putBE : ℕ → ℕ → List UInt8
  | 0, _ => []
  | w + 1, n => UInt8.ofNat (n / 256 ^ w) :: putBE w n

/-- The number whose base-256 digits are given, most significant first. -/
def getBE (l : List UInt8) : ℕ := l.foldl (fun n b => n * 256 + b.toNat) 0

/-- The `w` bytes of `input` from `offset` on. -/
def readBE (w : ℕ) (input : List UInt8) (offset : ℕ) : ℕ := getBE ((input.drop offset).take w)

@[simp] theorem length_putBE (w n : ℕ) : (putBE w n).length = w := by
  induction w with
  | zero => rfl
  | succ w ih => simp [putBE, ih]

theorem foldl_getBE (l : List UInt8) (n : ℕ) :
    l.foldl (fun n b => n * 256 + b.toNat) n = n * 256 ^ l.length + getBE l := by
  induction l generalizing n with
  | nil => simp [getBE]
  | cons b l ih =>
    simp only [List.foldl_cons, List.length_cons, getBE, Nat.zero_mul, Nat.zero_add]
    rw [ih, ih b.toNat]
    ring

theorem getBE_cons (b : UInt8) (l : List UInt8) :
    getBE (b :: l) = b.toNat * 256 ^ l.length + getBE l := by
  show (l.foldl _ (0 * 256 + b.toNat)) = _
  rw [foldl_getBE, Nat.zero_mul, Nat.zero_add]

theorem getBE_lt (l : List UInt8) : getBE l < 256 ^ l.length := by
  induction l with
  | nil => simp [getBE]
  | cons b l ih =>
    have hb : b.toNat + 1 ≤ 256 := b.toNat_lt
    calc getBE (b :: l)
      _ = b.toNat * 256 ^ l.length + getBE l := getBE_cons b l
      _ < b.toNat * 256 ^ l.length + 256 ^ l.length := by omega
      _ = (b.toNat + 1) * 256 ^ l.length := by ring
      _ ≤ 256 * 256 ^ l.length := Nat.mul_le_mul_right _ hb
      _ = 256 ^ (b :: l).length := by rw [List.length_cons, pow_succ, Nat.mul_comm]

theorem getBE_putBE (w n : ℕ) : getBE (putBE w n) = n % 256 ^ w := by
  induction w with
  | zero => simp [putBE, getBE, Nat.mod_one]
  | succ w ih =>
    rw [putBE, getBE_cons, ih, length_putBE, UInt8.toNat_ofNat']
    have hsplit : n % 256 ^ (w + 1) = n % 256 ^ w + 256 ^ w * (n / 256 ^ w % 256) := by
      rw [pow_succ, Nat.mod_mul]
    rw [hsplit, Nat.mul_comm, Nat.add_comm]

/-! ## Reading a record -/

theorem readBE_lt (w : ℕ) (input : List UInt8) (offset : ℕ) :
    readBE w input offset < 256 ^ w := by
  refine (getBE_lt _).trans_le (Nat.pow_le_pow_right (by norm_num) ?_)
  exact List.length_take_le _ _

/-- The field at hand. -/
theorem readBE_putBE (w n : ℕ) (rest : List UInt8) :
    readBE w (putBE w n ++ rest) 0 = n % 256 ^ w := by
  rw [readBE, List.drop_zero, List.take_left' (length_putBE w n), getBE_putBE]

/-- The last field. -/
theorem readBE_putBE_last (w n : ℕ) : readBE w (putBE w n) 0 = n % 256 ^ w := by
  have h := readBE_putBE w n []
  rwa [List.append_nil] at h

/-- A field further on. -/
theorem readBE_skip {w offset : ℕ} {field rest : List UInt8} (h : field.length ≤ offset) :
    readBE w (field ++ rest) offset = readBE w rest (offset - field.length) := by
  rw [readBE, readBE, List.drop_append, List.drop_eq_nil_of_le h, List.nil_append]

theorem readBE_putBE_of_lt {w n : ℕ} (h : n < 256 ^ w) (rest : List UInt8) :
    readBE w (putBE w n ++ rest) 0 = n := by
  rw [readBE_putBE, Nat.mod_eq_of_lt h]

end QCrate.Lib
