import Mathlib.Tactic

/-!
# Little-endian fields of a byte string

The counterpart of the big-endian fields, with the rules for both directions: a record that is
written field by field is read back, and a byte string that is read field by field is written back.

* `readLE_putLE` — a field holds its value modulo its width.
* `putLE_readLE` — writing what was read gives the bytes that were read.
* `readTable_writeTable`, `writeTable_readTable` — the same for a table of records of one size.
-/

namespace QCrate.Lib

/-- The low `w` bytes of `n`, least significant first. -/
def putLE : ℕ → ℕ → List UInt8
  | 0, _ => []
  | w + 1, n => UInt8.ofNat n :: putLE w (n / 256)

/-- The number whose base-256 digits are given, least significant first. -/
def getLE : List UInt8 → ℕ
  | [] => 0
  | b :: l => b.toNat + 256 * getLE l

/-- The `w` bytes of `input` from `offset` on. -/
def readLE (w : ℕ) (input : List UInt8) (offset : ℕ) : ℕ := getLE ((input.drop offset).take w)

@[simp] theorem length_putLE (w n : ℕ) : (putLE w n).length = w := by
  induction w generalizing n with
  | zero => rfl
  | succ w ih => simp [putLE, ih]

theorem getLE_lt (l : List UInt8) : getLE l < 256 ^ l.length := by
  induction l with
  | nil => simp [getLE]
  | cons b l ih =>
    have hb : b.toNat < 256 := b.toNat_lt
    rw [getLE, List.length_cons, pow_succ]
    omega

theorem getLE_putLE (w n : ℕ) : getLE (putLE w n) = n % 256 ^ w := by
  induction w generalizing n with
  | zero => simp [putLE, getLE, Nat.mod_one]
  | succ w ih =>
    have hsplit : n % 256 ^ (w + 1) = n % 256 + 256 * (n / 256 % 256 ^ w) := by
      rw [pow_succ, Nat.mul_comm, Nat.mod_mul]
    rw [putLE, getLE, ih, UInt8.toNat_ofNat', hsplit]

theorem putLE_getLE (l : List UInt8) : putLE l.length (getLE l) = l := by
  induction l with
  | nil => rfl
  | cons b l ih =>
    have hb : b.toNat < 256 := b.toNat_lt
    have hdiv : (b.toNat + 256 * getLE l) / 256 = getLE l := by omega
    have hbyte : UInt8.ofNat (b.toNat + 256 * getLE l) = b := by
      apply UInt8.toNat_inj.mp
      rw [UInt8.toNat_ofNat']
      omega
    rw [List.length_cons, putLE, getLE, hdiv, hbyte, ih]

/-- A field is the fields of its low and its high bytes. -/
theorem putLE_add (a b n : ℕ) : putLE (a + b) n = putLE a n ++ putLE b (n / 256 ^ a) := by
  induction a generalizing n with
  | zero => rw [Nat.zero_add, pow_zero, Nat.div_one, putLE, List.nil_append]
  | succ a ih =>
    rw [Nat.add_right_comm, putLE, ih, putLE, List.cons_append, Nat.div_div_eq_div_mul, pow_succ,
      Nat.mul_comm 256]

theorem putLE_mod (w n : ℕ) : putLE w (n % 256 ^ w) = putLE w n := by
  induction w generalizing n with
  | zero => rfl
  | succ w ih =>
    have hbyte : UInt8.ofNat (n % 256 ^ (w + 1)) = UInt8.ofNat n := by
      apply UInt8.toNat_inj.mp
      rw [UInt8.toNat_ofNat', UInt8.toNat_ofNat', pow_succ]
      exact Nat.mod_mul_left_mod n _ 256
    rw [putLE, putLE, hbyte, pow_succ, Nat.mul_comm, Nat.mod_mul_right_div_self, ih]

/-! ## Reading a record -/

theorem readLE_lt (w : ℕ) (input : List UInt8) (offset : ℕ) :
    readLE w input offset < 256 ^ w := by
  refine (getLE_lt _).trans_le (Nat.pow_le_pow_right (by norm_num) ?_)
  exact List.length_take_le _ _

/-- The field at hand. -/
theorem readLE_putLE (w n : ℕ) (rest : List UInt8) :
    readLE w (putLE w n ++ rest) 0 = n % 256 ^ w := by
  rw [readLE, List.drop_zero, List.take_left' (length_putLE w n), getLE_putLE]

/-- A field further on. -/
theorem readLE_skip {w offset : ℕ} {field rest : List UInt8} (h : field.length ≤ offset) :
    readLE w (field ++ rest) offset = readLE w rest (offset - field.length) := by
  rw [readLE, readLE, List.drop_append, List.drop_eq_nil_of_le h, List.nil_append]

/-! ## Writing a record back -/

theorem putLE_readLE {w offset : ℕ} {input : List UInt8} (h : offset + w ≤ input.length) :
    putLE w (readLE w input offset) = (input.drop offset).take w := by
  have hlen : ((input.drop offset).take w).length = w := by
    rw [List.length_take, List.length_drop]
    omega
  have hput := putLE_getLE ((input.drop offset).take w)
  rwa [hlen] at hput

/-- The last field of a record, and the bytes after it. -/
theorem take_drop_append {α : Type*} (input : List α) (offset w n : ℕ) :
    (input.drop offset).take w ++ (input.drop (offset + w)).take n =
      (input.drop offset).take (w + n) := by
  rw [List.take_add, List.drop_drop]

/-! ## Tables of records -/

section

variable {α : Type*} {w : ℕ}

/-- The records one after the other. -/
def writeTable (pack : α → List UInt8) (records : List α) : List UInt8 := records.flatMap pack

/-- The `count` records of size `w` at the start of `input`. -/
def readTable (w : ℕ) (unpack : List UInt8 → α) (count : ℕ) (input : List UInt8) : List α :=
  (List.range count).map fun i => unpack (input.drop (i * w))

/-- A record format of a fixed size. -/
structure RecordFormat (w : ℕ) (pack : α → List UInt8) (unpack : List UInt8 → α) : Prop where
  length : ∀ r, (pack r).length = w
  unpack_pack : ∀ r rest, unpack (pack r ++ rest) = r
  pack_unpack : ∀ input, w ≤ input.length → pack (unpack input) = input.take w

variable {pack : α → List UInt8} {unpack : List UInt8 → α}

theorem readTable_succ (count : ℕ) (input : List UInt8) :
    readTable w unpack (count + 1) input =
      unpack input :: readTable w unpack count (input.drop w) := by
  simp only [readTable, List.range_succ_eq_map, List.map_cons, List.map_map, Nat.zero_mul,
    List.drop_zero, List.cons.injEq, true_and]
  refine List.map_congr_left fun i _ => ?_
  rw [Function.comp_apply, List.drop_drop, Nat.succ_mul, Nat.add_comm]

@[simp] theorem length_readTable (count : ℕ) (input : List UInt8) :
    (readTable w unpack count input).length = count := by
  rw [readTable, List.length_map, List.length_range]

theorem length_writeTable (h : RecordFormat w pack unpack) (records : List α) :
    (writeTable pack records).length = records.length * w := by
  induction records with
  | nil => exact (Nat.zero_mul w).symm
  | cons r records ih =>
    rw [writeTable, List.flatMap_cons, List.length_append, h.length, ← writeTable, ih,
      List.length_cons, Nat.succ_mul, Nat.add_comm]

theorem readTable_writeTable (h : RecordFormat w pack unpack) (records : List α) :
    readTable w unpack records.length (writeTable pack records) = records := by
  induction records with
  | nil => rfl
  | cons r records ih =>
    rw [List.length_cons, readTable_succ, writeTable, List.flatMap_cons, h.unpack_pack,
      List.drop_left' (h.length r), ← writeTable, ih]

theorem writeTable_readTable (h : RecordFormat w pack unpack) {count : ℕ} {input : List UInt8}
    (hlen : input.length = count * w) :
    writeTable pack (readTable w unpack count input) = input := by
  induction count generalizing input with
  | zero =>
    rw [Nat.zero_mul] at hlen
    rw [List.length_eq_zero_iff.mp hlen]
    rfl
  | succ count ih =>
    rw [Nat.succ_mul] at hlen
    have hdrop : (input.drop w).length = count * w := by
      rw [List.length_drop]
      omega
    rw [readTable_succ, writeTable, List.flatMap_cons, ← writeTable, ih hdrop,
      h.pack_unpack input (by omega), List.take_append_drop]

end

end QCrate.Lib
