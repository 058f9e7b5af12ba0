import Mathlib.Data.List.Nodup
import Mathlib.Data.List.Dedup

/-!
# Caches that drop what was used least recently

A cache is the list of its entries, the one used last at the end. What the entries have to do with
the values they stand for is a relation between keys and values.

* `lruInsert`, `lruTouch` — a new entry, and the use of one that is there.
* `LruOf` — entries of a relation, one for each key, and no more than a limit.
-/

namespace QCrate.Lib

variable {κ α : Type*} [DecidableEq κ]

/-- The entry is put last, and the first ones are dropped until the limit holds. -/
def lruInsert (limit : ℕ) (cache : List (κ × α)) (key : κ) (value : α) : List (κ × α) :=
  let cache := cache.filter (·.1 ≠ key) ++ [(key, value)]
  cache.drop (cache.length - limit)

/-- The entry of a key is moved to the end. -/
def lruTouch (cache : List (κ × α)) (key : κ) : List (κ × α) :=
  cache.filter (·.1 ≠ key) ++ cache.filter (·.1 = key)

/-- Entries of `P`, one for each key, and no more than `limit`. -/
structure LruOf (P : κ → α → Prop) (limit : ℕ) (cache : List (κ × α)) : Prop where
  holds : ∀ e ∈ cache, P e.1 e.2
  distinct : (cache.map Prod.fst).Nodup
  bounded : cache.length ≤ limit

namespace LruOf

variable {P Q : κ → α → Prop} {limit : ℕ} {cache : List (κ × α)}

omit [DecidableEq κ] in
theorem empty (P : κ → α → Prop) (limit : ℕ) : LruOf P limit [] where
  holds := fun _ h => absurd h List.not_mem_nil
  distinct := List.nodup_nil
  bounded := Nat.zero_le _

omit [DecidableEq κ] in
theorem mono (h : LruOf P limit cache) (himp : ∀ key value, P key value → Q key value) :
    LruOf Q limit cache :=
  ⟨fun e he => himp _ _ (h.holds e he), h.distinct, h.bounded⟩

/-- What a lookup finds is in the relation. -/
theorem lookup (h : LruOf P limit cache) {key : κ} {value : α}
    (hl : cache.lookup key = some value) : P key value := by
  obtain ⟨before, after, rfl, -⟩ := List.lookup_eq_some_iff.mp hl
  exact h.holds (key, value) (by simp)

/-- The keys without one of them. -/
theorem nodup_filter_ne (h : LruOf P limit cache) (key : κ) :
    ((cache.filter (·.1 ≠ key)).map Prod.fst).Nodup :=
  h.distinct.sublist (List.filter_sublist.map _)

theorem notMem_filter_ne (cache : List (κ × α)) (key : κ) :
    key ∉ (cache.filter (·.1 ≠ key)).map Prod.fst := by
  simp

theorem insert (h : LruOf P limit cache) {key : κ} {value : α} (hp : P key value) :
    LruOf P limit (lruInsert limit cache key value) where
  holds := by
    intro e he
    rcases List.mem_append.mp (List.mem_of_mem_drop he) with he | he
    · exact h.holds e (List.mem_filter.mp he).1
    · rw [List.mem_singleton.mp he]
      exact hp
  distinct := by
    refine List.Nodup.sublist ((List.drop_sublist _ _).map _) ?_
    rw [List.map_append, List.nodup_append']
    refine ⟨h.nodup_filter_ne key, List.nodup_singleton _, fun k hk hk' => ?_⟩
    rw [List.map_singleton, List.mem_singleton] at hk'
    rw [hk'] at hk
    exact notMem_filter_ne cache key hk
  bounded := by
    unfold lruInsert
    rw [List.length_drop]
    omega

theorem touch (h : LruOf P limit cache) (key : κ) : LruOf P limit (lruTouch cache key) := by
  have hperm : (lruTouch cache key).Perm cache := by
    unfold lruTouch
    refine List.perm_append_comm.trans ?_
    have hnot : cache.filter (·.1 ≠ key) = cache.filter (fun e => !decide (e.1 = key)) :=
      List.filter_congr fun e _ => by simp
    rw [hnot]
    exact List.filter_append_perm _ _
  exact ⟨fun e he => h.holds e (hperm.mem_iff.mp he), (hperm.map _).nodup_iff.mpr h.distinct,
    Nat.le_trans (Nat.le_of_eq hperm.length_eq) h.bounded⟩

end LruOf

end QCrate.Lib
