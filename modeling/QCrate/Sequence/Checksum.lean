import QCrate.Lib.Crc
import QCrate.Receiver.Assembler
import QCrate.Sequence.LoadPath

/-!
# One CRC-32

The packetizer and the recorder feed their payload bytes in pieces, the R5 the words of a program
image, and the tools on the host hand a whole byte string to `zlib`. All of them compute the
remainder by the IEEE polynomial, from a register of ones and inverted at the end.

* `ieeeCrc32` — the checksum as a remainder of polynomials.
* `crc32_agree` — each implementation computes it, for every way of cutting the input.
-/

namespace QCrate.Sequence

open Polynomial QCrate.Lib QCrate.DataPlane QCrate.R5

/-! ## The checksum -/

/-- The generator of the IEEE CRC-32. -/
noncomputable def ieeeGenerator : (ZMod 2)[X] :=
  X ^ 32 + X ^ 26 + X ^ 23 + X ^ 22 + X ^ 16 + X ^ 12 + X ^ 11 + X ^ 10 + X ^ 8 + X ^ 7 + X ^ 5 +
    X ^ 4 + X ^ 2 + X + 1

/-- The IEEE CRC-32 of a byte string: the remainder of the message behind 32 ones, inverted. The
first coefficient is bit zero, of the bytes as of the result. -/
noncomputable def ieeeCrc32 (data : DataPlane.Bytes) : BitVec 32 :=
  ofReflected 32 (crcRemainder ieeeGenerator (BitVec.allOnes 32) (data.map UInt8.toBitVec)) ^^^
    BitVec.allOnes 32

theorem ieeeGenerator_eq : crcGenerator 0xedb88320#32 = ieeeGenerator := by
  unfold crcGenerator reflected ieeeGenerator
  simp only [Finset.sum_range_succ, Finset.sum_range_zero]
  simp
  ring

/-! ## The implementations -/

theorem crcBit_eq (crc : BitVec 32) : crcBit crc = crcShift 0xedb88320#32 crc := by
  have hlow : crc &&& 1#32 = BitVec.setWidth 32 (BitVec.ofBool (crc.getLsbD 0)) :=
    BitVec.and_one_eq_setWidth_ofBool_getLsbD
  unfold crcBit crcShift
  rw [hlow]
  cases crc.getLsbD 0 <;> rfl

theorem crc32Update_eq (crc : BitVec 32) (data : DataPlane.Bytes) :
    crc32Update crc data = crcUpdate 0xedb88320#32 crc (data.map UInt8.toBitVec) := by
  have hbyte : ∀ (crc : BitVec 32) (b : UInt8), crcByte crc b =
      (crcShift 0xedb88320#32)^[8] (crc ^^^ b.toBitVec.setWidth 32) := by
    intro crc b
    have hb : BitVec.ofNat 32 b.toNat = b.toBitVec.setWidth 32 := by
      apply BitVec.eq_of_toNat_eq
      rw [BitVec.toNat_ofNat, BitVec.toNat_setWidth, UInt8.toNat_toBitVec]
    unfold crcByte
    rw [hb, show crcBit = crcShift 0xedb88320#32 from funext crcBit_eq]
  unfold crc32Update crcUpdate
  rw [List.foldl_map]
  congr 1
  funext crc b
  exact hbyte crc b

/-- From a register of ones and inverted at the end, the update is the checksum. -/
theorem crc32Update_ieee (data : DataPlane.Bytes) :
    crc32Update (BitVec.allOnes 32) data ^^^ BitVec.allOnes 32 = ieeeCrc32 data := by
  unfold ieeeCrc32
  rw [crc32Update_eq, crcUpdate_eq _ (by decide) (by decide), ieeeGenerator_eq]

theorem foldl_crc32Update_flatten (chunks : List DataPlane.Bytes) (crc : BitVec 32) :
    chunks.foldl crc32Update crc = crc32Update crc chunks.flatten := by
  induction chunks generalizing crc with
  | nil => rfl
  | cons chunk rest ih => rw [List.foldl_cons, ih, List.flatten_cons, crc32Update_append]

theorem foldl_crc32Word (words : List Word) (crc : Word) :
    words.foldl crc32Word crc = crc32Update crc (words.flatMap fun w => putLE 4 w.toNat) := by
  induction words generalizing crc with
  | nil => rfl
  | cons w rest ih => rw [List.foldl_cons, ih, List.flatMap_cons, crc32Update_append, crc32Word_eq]

/-- The packetizer's and the recorder's update over any pieces of a byte string, the R5's update
over words, and `zlib.crc32` and `binascii.crc32` of the host compute the IEEE CRC-32. -/
theorem crc32_agree :
    (∀ chunks : List DataPlane.Bytes,
      chunks.foldl crc32Update (BitVec.allOnes 32) ^^^ BitVec.allOnes 32 =
        ieeeCrc32 chunks.flatten) ∧
    (∀ words : List Word,
      words.foldl crc32Word (BitVec.allOnes 32) ^^^ BitVec.allOnes 32 =
        ieeeCrc32 (words.flatMap fun w => putLE 4 w.toNat)) ∧
    ∀ data : DataPlane.Bytes, crc32 data = ieeeCrc32 data ∧
      Receiver.crc32 data = (ieeeCrc32 data).toNat := by
  refine ⟨fun chunks => ?_, fun words => ?_, fun data => ⟨crc32Update_ieee data, ?_⟩⟩
  · rw [foldl_crc32Update_flatten, crc32Update_ieee]
  · rw [foldl_crc32Word, crc32Update_ieee]
  · exact congrArg BitVec.toNat (crc32Update_ieee data)

end QCrate.Sequence
