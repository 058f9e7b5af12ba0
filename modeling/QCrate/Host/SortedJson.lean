import QCrate.Host.ProfileWords

/-!
# Documents with sorted keys

Every document of the profile tools is written with `sort_keys`: what is read back has the keys of
each object in order.

* `Json.plain` — a document that `json.dumps` accepts.
* `Json.sorted` — the document with sorted keys.
* `pyEq_sorted` — both are equal as documents.
* `get_sorted` — and have the same values under the same keys.
-/

namespace QCrate.Host

open QCrate.Lib

/-! ## Documents with text -/

mutual

/-- No number has a fraction, and no object has a key twice. -/
def Json.plain : Json → Bool
  | .decimal _ => false
  | .arr items => Json.plainItems items
  | .obj fields => decide (fields.map Prod.fst).Nodup && Json.plainFields fields
  | _ => true

def Json.plainItems : List Json → Bool
  | [] => true
  | x :: xs => Json.plain x && Json.plainItems xs

def Json.plainFields : List (String × Json) → Bool
  | [] => true
  | x :: xs => Json.plainField x && Json.plainFields xs

def Json.plainField : String × Json → Bool
  | (_, value) => Json.plain value

end

/-- The order of two fields by their keys. -/
abbrev KeyLe (x y : String × Json) : Prop := x.1 ≤ y.1

def sortFields (fields : Fields) : Fields :=
  fields.insertionSort KeyLe

mutual

/-- The keys of every object in order. -/
def Json.sorted : Json → Json
  | .arr items => .arr (Json.sortedItems items)
  | .obj fields => .obj (sortFields (Json.sortedFields fields))
  | j => j

def Json.sortedItems : List Json → List Json
  | [] => []
  | x :: xs => Json.sorted x :: Json.sortedItems xs

def Json.sortedFields : List (String × Json) → List (String × Json)
  | [] => []
  | x :: xs => Json.sortedField x :: Json.sortedFields xs

def Json.sortedField : String × Json → String × Json
  | (key, value) => (key, Json.sorted value)

end

/-- Induction over a document, its items and its fields. -/
theorem Json.induct {P : Json → Prop} (null : P .null) (bool : ∀ b, P (.bool b))
    (int : ∀ n, P (.int n)) (decimal : ∀ d, P (.decimal d)) (str : ∀ s, P (.str s))
    (arr : ∀ items, (∀ x ∈ items, P x) → P (.arr items))
    (obj : ∀ fields : Fields, (∀ f ∈ fields, P f.2) → P (.obj fields)) (j : Json) : P j := by
  refine @Json.rec P (fun items => ∀ x ∈ items, P x) (fun fields => ∀ f ∈ fields, P f.2)
    (fun f => P f.2) null bool int decimal str arr obj ?_ ?_ ?_ ?_ (fun _ _ h => h) j
  · exact fun x hx => absurd hx List.not_mem_nil
  · intro x xs hx hxs y hy
    rcases List.mem_cons.mp hy with rfl | hy
    · exact hx
    · exact hxs y hy
  · exact fun f hf => absurd hf List.not_mem_nil
  · intro f fs hf hfs g hg
    rcases List.mem_cons.mp hg with rfl | hg
    · exact hf
    · exact hfs g hg

theorem plain_arr {items : List Json} :
    (Json.arr items).plain = true ↔ ∀ x ∈ items, x.plain = true := by
  show Json.plainItems items = true ↔ _
  induction items with
  | nil => simp [Json.plainItems]
  | cons x xs ih => simp [Json.plainItems, ih]

theorem plain_obj {fields : Fields} : (Json.obj fields).plain = true ↔
    (fields.map Prod.fst).Nodup ∧ ∀ f ∈ fields, f.2.plain = true := by
  have hfields : Json.plainFields fields = true ↔ ∀ f ∈ fields, f.2.plain = true := by
    induction fields with
    | nil => simp [Json.plainFields]
    | cons f fs ih =>
      rw [Json.plainFields, Bool.and_eq_true, ih, List.forall_mem_cons, Json.plainField.eq_def]
  rw [Json.plain, Bool.and_eq_true, decide_eq_true_eq, hfields]

theorem sorted_arr (items : List Json) :
    (Json.arr items).sorted = .arr (items.map Json.sorted) := by
  rw [Json.sorted]
  congr 1
  induction items with
  | nil => rfl
  | cons x xs ih => rw [Json.sortedItems, ih, List.map_cons]

theorem sorted_obj (fields : Fields) : (Json.obj fields).sorted =
    .obj (sortFields (fields.map fun f => (f.1, f.2.sorted))) := by
  have hfields : Json.sortedFields fields = fields.map fun f => (f.1, f.2.sorted) := by
    induction fields with
    | nil => rfl
    | cons f fs ih =>
      rw [Json.sortedFields, ih, List.map_cons, Json.sortedField.eq_def]
  rw [Json.sorted, hfields]

/-! ## Sorting the fields -/

theorem sortFields_perm (fields : Fields) : (sortFields fields).Perm fields :=
  List.perm_insertionSort _ fields

theorem keys_map_sorted (fields : Fields) :
    (fields.map fun f => (f.1, f.2.sorted)).map Prod.fst = fields.map Prod.fst := by
  rw [List.map_map]
  rfl

theorem sortFields_map (fields : Fields) (f : Json → Json) :
    (sortFields fields).map (fun x => (x.1, f x.2)) =
      sortFields (fields.map fun x => (x.1, f x.2)) :=
  List.map_insertionSort KeyLe KeyLe (fun x => (x.1, f x.2)) fields fun _ _ _ _ => Iff.rfl

theorem sortFields_sortFields (fields : Fields) : sortFields (sortFields fields) =
    sortFields fields := by
  have htotal : Std.Total KeyLe := ⟨fun x y => String.le_total x.1 y.1⟩
  have htrans : IsTrans (String × Json) KeyLe := ⟨fun _ _ _ h h' => String.le_trans h h'⟩
  exact (List.pairwise_insertionSort KeyLe fields).insertionSort_eq

/-- A field of a document without repeated keys is found under its key. -/
theorem lookup_eq_of_mem {fields : Fields} (h : (fields.map Prod.fst).Nodup) {key : String}
    {value : Json} (hmem : (key, value) ∈ fields) : fields.lookup key = some value := by
  induction fields with
  | nil => cases hmem
  | cons f fs ih =>
    rw [List.map_cons, List.nodup_cons] at h
    rcases List.mem_cons.mp hmem with rfl | hmem
    · exact List.lookup_cons_self
    · have hne : (key == f.1) = false := by
        rw [beq_eq_false_iff_ne]
        rintro rfl
        exact h.1 (List.mem_map.mpr ⟨_, hmem, rfl⟩)
      rw [List.lookup_cons, hne]
      exact ih h.2 hmem

theorem mem_of_lookup {α β : Type} [BEq α] [LawfulBEq α] {pairs : List (α × β)} {key : α}
    {value : β} (h : pairs.lookup key = some value) : (key, value) ∈ pairs := by
  obtain ⟨l₁, l₂, rfl, -⟩ := List.lookup_eq_some_iff.mp h
  exact List.mem_append_right _ List.mem_cons_self

theorem lookup_sortFields {fields : Fields} (h : (fields.map Prod.fst).Nodup) (key : String) :
    (sortFields fields).lookup key = fields.lookup key := by
  have hperm := sortFields_perm fields
  have hnodup : ((sortFields fields).map Prod.fst).Nodup := (hperm.map _).nodup_iff.mpr h
  cases hl : fields.lookup key with
  | some value => exact lookup_eq_of_mem hnodup (hperm.mem_iff.mpr (mem_of_lookup hl))
  | none =>
    cases hs : (sortFields fields).lookup key with
    | none => rfl
    | some value =>
      have hmem := hperm.mem_iff.mp (mem_of_lookup hs)
      exact absurd (hl.symm.trans (lookup_eq_of_mem h hmem)) (by simp)

theorem lookup_map_sorted (fields : Fields) (key : String) :
    (fields.map fun f => (f.1, f.2.sorted)).lookup key = (fields.lookup key).map Json.sorted := by
  induction fields with
  | nil => rfl
  | cons f fs ih =>
    rw [List.map_cons, List.lookup_cons, List.lookup_cons, ih]
    cases key == f.1 <;> rfl

/-! ## Sorted documents -/

theorem sorted_sorted (j : Json) : j.sorted.sorted = j.sorted := by
  induction j using Json.induct with
  | arr items ih =>
    rw [sorted_arr, sorted_arr, List.map_map]
    congr 1
    exact List.map_congr_left ih
  | obj fields ih =>
    rw [sorted_obj, sorted_obj, sortFields_map, sortFields_sortFields, List.map_map]
    congr 2
    refine List.map_congr_left fun f hf => ?_
    exact Prod.ext rfl (ih f hf)
  | _ => rfl

theorem plain_sorted {j : Json} (h : j.plain = true) : j.sorted.plain = true := by
  induction j using Json.induct with
  | arr items ih =>
    rw [sorted_arr, plain_arr]
    rw [plain_arr] at h
    intro x hx
    obtain ⟨y, hy, rfl⟩ := List.mem_map.mp hx
    exact ih y hy (h y hy)
  | obj fields ih =>
    obtain ⟨hkeys, hvalues⟩ := plain_obj.mp h
    have hperm := sortFields_perm (fields.map fun f => (f.1, f.2.sorted))
    rw [sorted_obj, plain_obj]
    refine ⟨?_, fun g hg => ?_⟩
    · rw [(hperm.map _).nodup_iff, keys_map_sorted]
      exact hkeys
    · obtain ⟨f, hf, rfl⟩ := List.mem_map.mp (hperm.mem_iff.mp hg)
      exact ih f hf (hvalues f hf)
  | _ => exact h

/-- The value of a sorted document under a key. -/
theorem lookup_sorted {fields : Fields} (h : (Json.obj fields).plain = true) (key : String) :
    (sortFields (fields.map fun f => (f.1, f.2.sorted))).lookup key =
      (fields.lookup key).map Json.sorted := by
  rw [lookup_sortFields _ key, lookup_map_sorted]
  rw [keys_map_sorted]
  exact (plain_obj.mp h).1

theorem get_sorted {j : Json} (h : j.plain = true) (key : String) :
    j.sorted.get key = (j.get key).sorted := by
  cases j with
  | obj fields =>
    rw [sorted_obj]
    show ((sortFields _).lookup key).getD .null = ((fields.lookup key).getD .null).sorted
    rw [lookup_sorted h]
    cases fields.lookup key <;> rfl
  | _ => rfl

theorem plain_get {j : Json} (h : j.plain = true) (key : String) : (j.get key).plain = true := by
  cases j with
  | obj fields =>
    show ((fields.lookup key).getD .null).plain = true
    cases hl : fields.lookup key with
    | none => rfl
    | some value => exact (plain_obj.mp h).2 _ (mem_of_lookup hl)
  | _ => rfl

/-- Sorting does not change a document. -/
theorem pyEq_sorted {j : Json} (h : j.plain = true) : j.pyEq j.sorted = true := by
  -- the induction is on the document, with all items and fields of a node at once
  induction j using Json.induct with
  | null => simp [Json.sorted, Json.pyEq]
  | bool b => simp [Json.sorted, Json.pyEq, Json.number?]
  | int n => simp [Json.sorted, Json.pyEq, Json.number?]
  | decimal d => cases h
  | str s => simp [Json.sorted, Json.pyEq]
  | arr items ih =>
    rw [sorted_arr, Json.pyEq]
    rw [plain_arr] at h
    induction items with
    | nil => simp [Json.pyEqItems]
    | cons x xs ihs =>
      rw [List.map_cons, Json.pyEqItems, Bool.and_eq_true]
      refine ⟨ih x List.mem_cons_self (h x List.mem_cons_self), ihs (fun y hy => ?_) fun y hy => ?_⟩
      · exact ih y (List.mem_cons_of_mem _ hy)
      · exact h y (List.mem_cons_of_mem _ hy)
  | obj fields ih =>
    have hlookup := lookup_sorted h
    obtain ⟨hkeys, hvalues⟩ := plain_obj.mp h
    rw [sorted_obj, Json.pyEq, Bool.and_eq_true]
    refine ⟨?_, ?_⟩
    · rw [(sortFields_perm _).length_eq, List.length_map]
      exact beq_self_eq_true _
    · -- Each field is looked up in the whole sorted document.
      have hall : ∀ fs : Fields, (∀ f ∈ fs, f ∈ fields) → Json.pyEqFields fs
          (sortFields (fields.map fun f => (f.1, f.2.sorted))) = true := by
        intro fs
        induction fs with
        | nil => simp [Json.pyEqFields]
        | cons f fs ihs =>
          intro hmem
          have hf := hmem f List.mem_cons_self
          rw [Json.pyEqFields, Bool.and_eq_true]
          refine ⟨?_, ihs fun g hg => hmem g (List.mem_cons_of_mem _ hg)⟩
          rw [Json.pyEqField.eq_def]
          dsimp only
          rw [hlookup, lookup_eq_of_mem hkeys hf]
          exact ih f hf (hvalues f hf)
      exact hall fields fun _ hf => hf

end QCrate.Host
