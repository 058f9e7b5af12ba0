import Mathlib.Tactic

/-!
# Sorting by a key

A list that is sorted by distinct keys is what sorting any of its permutations gives, whatever
the stability of the sort. Grouping a list by a key, sorting each group and laying the groups out
in order sorts the list.

* `insertionSort_eq_of_perm` — the first.
* `pairwise_lt_insertionSort` — without repetitions the order is strict.
* `flatMap_filter_perm` — grouping rearranges the list.
-/

namespace QCrate.Lib

variable {α β : Type*} [LinearOrder β] {k : α → β} {r : α → α → Prop}

/-- A relation given by a key is total and transitive. -/
theorem total_of_key (hr : ∀ a b, r a b ↔ k a ≤ k b) : Std.Total r :=
  ⟨fun a b => by rw [hr, hr]; exact le_total _ _⟩

theorem trans_of_key (hr : ∀ a b, r a b ↔ k a ≤ k b) : IsTrans α r :=
  ⟨fun a b c hab hbc => by rw [hr] at *; exact hab.trans hbc⟩

theorem pairwise_insertionSort_key [DecidableRel r] (hr : ∀ a b, r a b ↔ k a ≤ k b)
    (l : List α) : (l.insertionSort r).Pairwise fun a b => k a ≤ k b := by
  have := total_of_key hr
  have := trans_of_key hr
  exact (List.pairwise_insertionSort r l).imp fun h => (hr _ _).mp h

/-- In a list with distinct keys two elements with the same k are equal. -/
theorem eq_of_key_eq {l : List α} (hl : l.Pairwise fun a b => k a < k b) {a b : α}
    (ha : a ∈ l) (hb : b ∈ l) (h : k a = k b) : a = b := by
  have hsymm : ∀ x ∈ l, ∀ y ∈ l, k x = k y → x = y := by
    exact List.Pairwise.forall_of_forall_of_flip (fun _ _ _ => rfl)
      (hl.imp fun hlt he => absurd he hlt.ne) (hl.imp fun hlt he => absurd he hlt.ne')
  exact hsymm a ha b hb h

/-- Sorting a permutation of a list with increasing keys gives that list. -/
theorem insertionSort_eq_of_perm [DecidableRel r] (hr : ∀ a b, r a b ↔ k a ≤ k b) {l m : List α}
    (h : l.Perm m) (hm : m.Pairwise fun a b => k a < k b) : l.insertionSort r = m := by
  have hp : (l.insertionSort r).Perm m := (List.perm_insertionSort r l).trans h
  refine hp.eq_of_pairwise ?_ (pairwise_insertionSort_key hr l) (hm.imp le_of_lt)
  intro a b ha hb hab hba
  exact eq_of_key_eq hm (hp.subset ha) hb (le_antisymm hab hba)

/-- Sorting a list without repetitions gives an increasing list. -/
theorem pairwise_lt_insertionSort {l : List β} (h : l.Nodup) :
    (l.insertionSort (· ≤ ·)).Pairwise (· < ·) := by
  have hle := List.pairwise_insertionSort (· ≤ ·) l
  have hne : (l.insertionSort (· ≤ ·)).Nodup := (List.perm_insertionSort _ l).nodup_iff.mpr h
  exact (hle.and hne).imp fun h => lt_of_le_of_ne h.1 h.2

/-! ## Grouping -/

variable {κ : Type*} [DecidableEq κ]

/-- The groups of a list, in any order of the keys, are a permutation of the list. -/
theorem flatMap_filter_perm {ids : List κ} (f : α → κ) (hids : ids.Nodup) {l : List α}
    (hl : ∀ a ∈ l, f a ∈ ids) : (ids.flatMap fun id => l.filter (f · = id)).Perm l := by
  induction l with
  | nil => simp
  | cons a l ih =>
    have ih' := ih fun b hb => hl b (List.mem_cons_of_mem _ hb)
    obtain ⟨before, after, rfl⟩ := List.append_of_mem (hl a List.mem_cons_self)
    have hnot : ∀ id ∈ before ++ after, f a ≠ id := by
      intro id hid he
      have := (List.nodup_middle.mp hids)
      rw [List.nodup_cons] at this
      exact this.1 (he ▸ hid)
    have hsame : ∀ ids : List κ, (∀ id ∈ ids, f a ≠ id) →
        (ids.flatMap fun id => (a :: l).filter (f · = id)) =
          ids.flatMap fun id => l.filter (f · = id) := by
      intro ids hne
      refine List.flatMap_congr fun id hid => ?_
      rw [List.filter_cons_of_neg (by simpa using hne id hid)]
    rw [List.flatMap_append, List.flatMap_cons,
      hsame before fun id hid => hnot id (List.mem_append_left _ hid),
      hsame after fun id hid => hnot id (List.mem_append_right _ hid),
      List.filter_cons_of_pos (by simp), List.cons_append]
    refine List.perm_middle.trans (.cons a ?_)
    rw [List.flatMap_append, List.flatMap_cons] at ih'
    exact ih'

end QCrate.Lib
