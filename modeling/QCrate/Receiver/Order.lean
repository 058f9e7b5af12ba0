import QCrate.Receiver.Assembler
import QCrate.Lib.Sorting
import Mathlib.Data.Prod.Lex

/-!
# The receiver: what the checks of `finalize` mean

* `findMissingRanges_eq_zero` — nothing is missing exactly when every sequence is present.
* `Ordered.logical_eq` — DATA packets in frame, offset and sequence order are in logical order.
-/

namespace QCrate.Receiver

open QCrate.Lib QCrate.DataPlane

/-! ## Missing sequences -/

theorem missingScan_count_le (first last : ℕ) (l : List ℕ) (s : MissingScan) :
    s.count ≤ (l.foldl (MissingScan.step first last) s).count := by
  induction l generalizing s with
  | nil => exact le_rfl
  | cons value l ih =>
    refine le_trans ?_ (ih _)
    unfold MissingScan.step
    split
    · exact le_rfl
    · dsimp only
      split
      · exact Nat.le_add_right ..
      · exact le_rfl

/-- The count and the gap after the last present value are zero when no value from the cursor on
is missing. -/
theorem missingScan_eq_zero {first last : ℕ} {l : List ℕ} (hl : l.Pairwise (· < ·))
    {s : MissingScan} (hfirst : first ≤ s.cursor) (hcursor : s.cursor ≤ last + 1)
    (hge : ∀ v ∈ l, first ≤ v → s.cursor ≤ v) :
    ((l.foldl (MissingScan.step first last) s).count = 0 ∧
      last < (l.foldl (MissingScan.step first last) s).cursor) ↔
    s.count = 0 ∧ ∀ v, s.cursor ≤ v → v ≤ last → v ∈ l := by
  induction l generalizing s with
  | nil =>
    refine and_congr_right fun _ =>
      ⟨fun h v hv hle => absurd hle (by simp at h; omega), fun h => ?_⟩
    by_contra hle
    exact List.not_mem_nil (h s.cursor le_rfl (Nat.not_lt.mp hle))
  | cons a l ih =>
    obtain ⟨ha, hl⟩ := List.pairwise_cons.mp hl
    rw [List.foldl_cons]
    by_cases hout : a < first ∨ last < a
    · have hstep : MissingScan.step first last s a = s := if_pos hout
      rw [hstep, ih hl hfirst hcursor fun v hv => hge v (List.mem_cons_of_mem _ hv)]
      refine and_congr_right fun _ => forall_congr' fun v => forall_congr' fun hv =>
        forall_congr' fun hle => ?_
      rw [List.mem_cons]
      refine (or_iff_right ?_).symm
      rintro rfl
      omega
    · have hsa : s.cursor ≤ a := hge a List.mem_cons_self (by omega)
      have hcur : (MissingScan.step first last s a).cursor = a + 1 := by
        unfold MissingScan.step
        rw [if_neg hout]
        dsimp only
        split <;> simp <;> omega
      by_cases hgap : s.cursor < a
      · have hpos : 0 < (MissingScan.step first last s a).count := by
          unfold MissingScan.step
          rw [if_neg hout]
          simp only [if_pos hgap]
          omega
        have hle := missingScan_count_le first last l (MissingScan.step first last s a)
        refine ⟨fun h => absurd h.1 (by omega), fun h => ?_⟩
        rcases List.mem_cons.mp (h.2 s.cursor le_rfl (by omega)) with he | hmem
        · omega
        · have := ha _ hmem
          omega
      · have hcount : (MissingScan.step first last s a).count = s.count := by
          unfold MissingScan.step
          rw [if_neg hout]
          simp only [if_neg hgap]
        rw [ih hl (by omega) (by omega) fun v hv _ => by have := ha v hv; omega, hcount, hcur]
        refine and_congr_right fun _ => ⟨fun h v hv hle => ?_, fun h v hv hle => ?_⟩
        · by_cases hva : v = a
          · exact hva ▸ List.mem_cons_self
          · exact List.mem_cons_of_mem _ (h v (by omega) hle)
        · exact (List.mem_cons.mp (h v (by omega) hle)).resolve_left (by omega)

theorem findMissingRanges_eq_zero {first last : ℕ} (h : first ≤ last) (present : List ℕ) :
    (findMissingRanges first last present).1 = 0 ↔ ∀ v, first ≤ v → v ≤ last → v ∈ present := by
  have hsorted := pairwise_lt_insertionSort (List.nodup_dedup present)
  have hscan := @missingScan_eq_zero first last _ hsorted ⟨first, 0, []⟩ le_rfl
    (Nat.le_succ_of_le h) fun v _ hv => hv
  simp only [List.mem_insertionSort, List.mem_dedup, true_and] at hscan
  rw [← hscan]
  unfold findMissingRanges
  rw [if_neg (by omega)]
  dsimp only
  split
  · next hc => exact ⟨fun h0 => by simp at h0, fun h0 => absurd h0.2 (by omega)⟩
  · next hc => exact ⟨fun h0 => ⟨h0, by omega⟩, And.left⟩

/-! ## Frame and sample order -/

/-- Frame, offset and sequence of a chunk, in this order. -/
def Chunk.key (c : Chunk) : ℕ ×ₗ ℕ ×ₗ ℕ := toLex (c.frameId, toLex (c.offset, c.1))

theorem Chunk.le_iff (a b : Chunk) :
    a.le b ↔ toLex (a.offset, a.1) ≤ toLex (b.offset, b.1) := by
  rw [Prod.Lex.toLex_le_toLex]
  rfl

namespace Ordered

variable (o : Ordered)

theorem frameIds_pairwise : o.frameIds.Pairwise (· < ·) :=
  pairwise_lt_insertionSort (List.nodup_dedup _)

theorem mem_frameIds {id : ℕ} : id ∈ o.frameIds ↔ ∃ c ∈ o.chunks, c.frameId = id := by
  unfold frameIds
  rw [List.mem_insertionSort, List.mem_dedup, List.mem_map]

theorem mem_frame {id : ℕ} {c : Chunk} : c ∈ o.frame id ↔ c ∈ o.chunks ∧ c.frameId = id := by
  unfold frame
  rw [List.mem_insertionSort, List.mem_filter]
  simp

/-- `logical_order` rearranges the DATA packets. -/
theorem logical_perm : o.logical.Perm o.chunks := by
  have hgroup : (o.frameIds.flatMap fun id => o.chunks.filter (·.frameId = id)).Perm o.chunks :=
    flatMap_filter_perm Chunk.frameId (o.frameIds_pairwise.imp ne_of_lt)
      fun c hc => o.mem_frameIds.mpr ⟨c, hc, rfl⟩
  exact (List.Perm.flatMap_left _ fun _ _ => List.perm_insertionSort _ _).trans hgroup

/-- `logical_order` is in frame and sample order. -/
theorem logical_pairwise : o.logical.Pairwise fun a b => a.key ≤ b.key := by
  unfold logical
  rw [List.pairwise_flatMap]
  constructor
  · intro id _
    have hsorted : (o.frame id).Pairwise fun a b =>
        toLex (a.offset, a.1) ≤ toLex (b.offset, b.1) :=
      pairwise_insertionSort_key Chunk.le_iff _
    refine hsorted.imp_of_mem fun {a b} ha hb hab => ?_
    unfold Chunk.key
    rw [Prod.Lex.toLex_le_toLex]
    exact .inr ⟨((o.mem_frame.mp ha).2.trans (o.mem_frame.mp hb).2.symm), hab⟩
  · refine o.frameIds_pairwise.imp fun {i j} hij a ha b hb => ?_
    have ha' := (o.mem_frame.mp ha).2
    have hb' := (o.mem_frame.mp hb).2
    unfold Chunk.key
    rw [Prod.Lex.toLex_le_toLex]
    exact .inl (by rw [← ha', ← hb'] at hij; exact hij)

/-- Sorted chunks are in logical order already. -/
theorem logical_eq (h : o.chunks.Pairwise fun a b => a.key < b.key) : o.logical = o.chunks :=
  o.logical_perm.eq_of_pairwise
    (fun _ _ ha hb hab hba =>
      eq_of_key_eq h (o.logical_perm.subset ha) hb (le_antisymm hab hba))
    o.logical_pairwise (h.imp le_of_lt)

end Ordered

end QCrate.Receiver
