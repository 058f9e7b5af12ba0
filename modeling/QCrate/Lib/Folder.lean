import Mathlib.Data.List.Nodup
import Mathlib.Data.List.Perm.Subperm

/-!
# Folders

Entries by name, and no name twice. A folder only grows at its end and moves entries to free names,
so nothing that is in it can get lost.

* `get_put`, `get_move` — what is where after an operation.
* `contents_put`, `contents_move` — no operation removes an entry or overwrites one.
* `exists_firstFree` — a search for a free name among numbered ones ends.
-/

namespace QCrate.Lib

structure Folder (ν α : Type*) where
  entries : List (ν × α)
  distinct : (entries.map Prod.fst).Nodup

namespace Folder

variable {ν α : Type*} (f : Folder ν α) {name n source target : ν} {a : α}

def names : List ν := f.entries.map Prod.fst

def contents : List α := f.entries.map Prod.snd

theorem put_distinct (h : name ∉ f.names) (a : α) :
    ((f.entries ++ [(name, a)]).map Prod.fst).Nodup := by
  rw [List.map_append, List.map_singleton]
  refine List.nodup_append.mpr ⟨f.distinct, List.nodup_singleton _, fun n hn m hm => ?_⟩
  rw [List.mem_singleton.mp hm]
  rintro rfl
  exact h hn

/-- A new entry. -/
def put (name : ν) (a : α) (h : name ∉ f.names) : Folder ν α :=
  ⟨f.entries ++ [(name, a)], f.put_distinct h a⟩

theorem contents_put (h : name ∉ f.names) : (f.put name a h).contents = f.contents ++ [a] := by
  unfold contents put
  rw [List.map_append, List.map_singleton]

section

variable [DecidableEq ν]

instance decidableMemNames (name : ν) : Decidable (name ∈ f.names) :=
  inferInstanceAs (Decidable (name ∈ f.entries.map Prod.fst))

def get (name : ν) : Option α := f.entries.lookup name

theorem get_eq_none : f.get name = none ↔ name ∉ f.names := by
  unfold get names
  rw [List.lookup_eq_none_iff, List.mem_map, not_exists]
  refine forall_congr' fun p => ?_
  constructor
  · rintro h ⟨hp, rfl⟩
    simpa using h hp
  · intro h hp
    rw [bne_iff_ne]
    rintro rfl
    exact h ⟨hp, rfl⟩

theorem lookup_cons (l : List (ν × α)) (m : ν) :
    ((m, a) :: l).lookup n = if n = m then some a else l.lookup n := by
  rw [List.lookup_cons]
  by_cases hn : n = m
  · rw [if_pos hn, beq_iff_eq.mpr hn]
  · rw [if_neg hn, beq_eq_false_iff_ne.mpr hn]

theorem get_put (h : name ∉ f.names) :
    (f.put name a h).get n = if n = name then some a else f.get n := by
  have hget : (f.put name a h).get n = (f.get n).or (if n = name then some a else none) := by
    show (f.entries ++ [(name, a)]).lookup n = _
    rw [List.lookup_append, lookup_cons, List.lookup_nil]
    rfl
  rw [hget]
  by_cases hn : n = name
  · rw [if_pos hn, if_pos hn, hn, f.get_eq_none.mpr h, Option.none_or]
  · rw [if_neg hn, if_neg hn, Option.or_none]

def renamed (source target : ν) (e : ν × α) : ν × α :=
  if e.1 = source then (target, e.2) else e

theorem move_distinct (h : target ∉ f.names) :
    ((f.entries.map (renamed source target)).map Prod.fst).Nodup := by
  have hmap : (f.entries.map (renamed source target)).map Prod.fst =
      f.names.map fun n => if n = source then target else n := by
    unfold names
    rw [List.map_map, List.map_map]
    refine List.map_congr_left fun e _ => ?_
    show (renamed source target e).1 = if e.1 = source then target else e.1
    unfold renamed
    split <;> rfl
  rw [hmap]
  refine List.Nodup.map_on (fun n hn m hm heq => ?_) f.distinct
  split_ifs at heq with hns hms hms
  · exact hns.trans hms.symm
  · exact absurd (heq ▸ hm) h
  · exact absurd (heq.symm ▸ hn) h
  · exact heq

/-- An entry gets another name, which is free. -/
def move (source target : ν) (h : target ∉ f.names) : Folder ν α :=
  ⟨f.entries.map (renamed source target), f.move_distinct h⟩

theorem contents_move (h : target ∉ f.names) : (f.move source target h).contents = f.contents := by
  unfold contents move
  rw [List.map_map]
  refine List.map_congr_left fun e _ => ?_
  show (renamed source target e).2 = e.2
  unfold renamed
  split <;> rfl

theorem get_move (h : target ∉ f.names) : (f.move source target h).get n =
    if n = target then f.get source else if n = source then none else f.get n := by
  have hlist : ∀ l : List (ν × α), target ∉ l.map Prod.fst →
      (l.map (renamed source target)).lookup n =
        if n = target then l.lookup source else if n = source then none else l.lookup n := by
    intro l
    induction l with
    | nil => intro _; simp
    | cons e l ih =>
      intro hnot
      obtain ⟨hhead, hrest⟩ := not_or.mp (List.mem_cons.not.mp hnot)
      obtain ⟨m, a⟩ := e
      have hm : target ≠ m := hhead
      rw [List.map_cons, lookup_cons, lookup_cons]
      by_cases hs : m = source
      · have hmoved : renamed source target (m, a) = (target, a) := if_pos hs
        rw [hmoved, lookup_cons, ih hrest, if_pos hs.symm, hs]
        split_ifs <;> rfl
      · have hkept : renamed source target (m, a) = (m, a) := if_neg hs
        rw [hkept, lookup_cons, ih hrest, if_neg (Ne.symm hs)]
        by_cases hn : n = m
        · rw [if_pos hn, if_neg (hn ▸ Ne.symm hm), if_neg (hn ▸ hs), if_pos hn]
        · rw [if_neg hn, if_neg hn]
  exact hlist f.entries h

/-! ## A free name -/

/-- The first free name of `name k`, `name (k + 1)`, ... -/
def firstFree (name : ℕ → ν) : ℕ → ℕ → Option ℕ
  | 0, _ => none
  | fuel + 1, k => if name k ∈ f.names then firstFree name fuel (k + 1) else some k

theorem firstFree_free {name : ℕ → ν} {fuel k n : ℕ} (h : f.firstFree name fuel k = some n) :
    name n ∉ f.names := by
  induction fuel generalizing k with
  | zero => cases h
  | succ fuel ih =>
    rw [firstFree] at h
    split at h
    · exact ih h
    · next hfree =>
      cases h
      exact hfree

theorem mem_of_firstFree {name : ℕ → ν} {fuel k : ℕ} (h : f.firstFree name fuel k = none) :
    ∀ i < fuel, name (k + i) ∈ f.names := by
  induction fuel generalizing k with
  | zero => exact fun i hi => absurd hi (Nat.not_lt_zero i)
  | succ fuel ih =>
    rw [firstFree] at h
    split at h
    · next hk =>
      intro i hi
      cases i with
      | zero => exact hk
      | succ i =>
        rw [Nat.add_comm i 1, ← Nat.add_assoc]
        exact ih h i (Nat.lt_of_succ_lt_succ hi)
    · cases h

/-- Different names cannot all be taken. -/
theorem exists_firstFree {name : ℕ → ν} (hname : Function.Injective name) (k : ℕ) :
    ∃ n, f.firstFree name (f.names.length + 1) k = some n := by
  refine Option.ne_none_iff_exists'.mp fun hnone => ?_
  have hall := f.mem_of_firstFree hnone
  have hnodup : ((List.range (f.names.length + 1)).map fun i => name (k + i)).Nodup :=
    List.Nodup.map (fun i j hij => Nat.add_left_cancel (hname hij)) List.nodup_range
  have hsubset : (List.range (f.names.length + 1)).map (fun i => name (k + i)) ⊆ f.names := by
    intro n hn
    obtain ⟨i, hi, rfl⟩ := List.mem_map.mp hn
    exact hall i (List.mem_range.mp hi)
  have hlength := (List.subperm_of_subset hnodup hsubset).length_le
  rw [List.length_map, List.length_range] at hlength
  omega

end

end Folder

end QCrate.Lib
