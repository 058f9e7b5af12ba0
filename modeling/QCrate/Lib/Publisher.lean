import Mathlib.Tactic

/-!
# A publisher of numbered units

Units with numbers come in part by part and in any order, and go out one after the other. The
first part of a unit announces it. After every part the announced unit with the smallest number
goes out if it is whole, then the next one, until one of them is not whole. A unit that went out
may move a watermark, and parts of units up to the watermark come too late. A flush puts out what
is left, the announced units first.

* `Sound` — announced units that move the watermark go out in the order of their numbers.
* `Runs.inOrder` — all units go out whole and in order, if no whole unit ever waits for one that
  is not even announced.
* `Runs.stranded` — and if one does, a unit is lost.
* `Flushes.log_eq` — the order of a flush.
-/

namespace QCrate.Lib

/-- The units of a publisher: the parts of each, and whether it moves the watermark with the
parts that are there. -/
structure Feed (π : Type*) where
  parts : ℕ → List π
  marks : ℕ → (π → Bool) → Bool

/-- A unit with the parts that are there. -/
structure Entry (π : Type*) where
  unit : ℕ
  held : π → Bool

/-- The units that are being put together, in the order in which they were opened, and those that
went out. -/
structure Publisher (π : Type*) where
  table : List (Entry π) := []
  log : List (Entry π) := []

variable {π : Type*}

/-! ## Units in a row -/

section Row

variable {l : List (Entry π)} {e : Entry π} {b n : ℕ}

theorem length_of_units (h : l.map (·.unit) = List.range' b n) : l.length = n := by
  have hlen := congrArg List.length h
  rwa [List.length_map, List.length_range'] at hlen

theorem unit_bounds (h : l.map (·.unit) = List.range' b n) (he : e ∈ l) :
    b ≤ e.unit ∧ e.unit < b + n := by
  have hmem : e.unit ∈ l.map (·.unit) := List.mem_map_of_mem he
  rwa [h, List.mem_range'_1] at hmem

/-- Every number of the range is the unit of an entry. -/
theorem exists_unit (h : l.map (·.unit) = List.range' b n) {i : ℕ} (hb : b ≤ i) (hi : i < b + n) :
    ∃ e ∈ l, e.unit = i := by
  have hmem : i ∈ l.map (·.unit) := by
    rw [h, List.mem_range'_1]
    exact ⟨hb, hi⟩
  exact List.mem_map.mp hmem

/-- Entries of one unit are one entry. -/
theorem eq_singleton_of_units {i : ℕ} (hn : (l.map (·.unit)).Nodup) (hl : ∀ f ∈ l, f.unit = i)
    (he : e ∈ l) : l = [e] := by
  have hunits : l.map (·.unit) = List.replicate l.length i :=
    List.eq_replicate_iff.mpr ⟨List.length_map _, fun j hj => by
      obtain ⟨f, hf, rfl⟩ := List.mem_map.mp hj
      exact hl f hf⟩
  rw [hunits, List.nodup_replicate] at hn
  have hpos := List.length_pos_of_mem he
  obtain ⟨f, rfl⟩ := List.length_eq_one_iff.mp (by omega : l.length = 1)
  rw [List.mem_singleton.mp he]

end Row

namespace Feed

variable (F : Feed π)

def announced (e : Entry π) : Bool := (F.parts e.unit).head?.any e.held

def whole (e : Entry π) : Bool := (F.parts e.unit).all e.held

def marking (e : Entry π) : Bool := F.marks e.unit e.held

/-- The last unit that moved the watermark is not before `i`. -/
def Late (s : Publisher π) (i : ℕ) : Prop :=
  ∃ e, (s.log.filter F.marking).getLast? = some e ∧ i ≤ e.unit

/-- The entry that is the next to go out. -/
def Next (table : List (Entry π)) (e : Entry π) : Prop :=
  e ∈ table ∧ F.announced e ∧ ∀ f ∈ table, F.announced f → e.unit ≤ f.unit

end Feed

/-- The table with one more part of a unit. -/
def addPart [DecidableEq π] (i : ℕ) (p : π) : List (Entry π) → List (Entry π)
  | [] => [⟨i, fun q => q = p⟩]
  | e :: rest =>
    if e.unit = i then ⟨i, fun q => q = p || e.held q⟩ :: rest else e :: addPart i p rest

namespace Publisher

/-- An entry goes out. -/
def put (s : Publisher π) (e : Entry π) : Publisher π :=
  ⟨s.table.filter (·.unit ≠ e.unit), s.log ++ [e]⟩

@[simp] theorem put_table (s : Publisher π) (e : Entry π) :
    (s.put e).table = s.table.filter (·.unit ≠ e.unit) := rfl

@[simp] theorem put_log (s : Publisher π) (e : Entry π) : (s.put e).log = s.log ++ [e] := rfl

end Publisher

namespace Feed

variable (F : Feed π)

/-- Whole units go out until the next one is not whole. -/
inductive Drains : Publisher π → Publisher π → Prop where
  | stop {s : Publisher π} (h : ∀ e, F.Next s.table e → F.whole e = false) : Drains s s
  | put {s s' : Publisher π} {e : Entry π} (hn : F.Next s.table e) (hw : F.whole e)
      (h : Drains (s.put e) s') : Drains s s'

/-- A part comes in. -/
inductive Takes [DecidableEq π] : Publisher π → ℕ × π → Publisher π → Prop where
  | late {s : Publisher π} {a : ℕ × π} (h : F.Late s a.1) : Takes s a s
  | fresh {s s' : Publisher π} {a : ℕ × π} (h : ¬ F.Late s a.1)
      (hd : F.Drains ⟨addPart a.1 a.2 s.table, s.log⟩ s') : Takes s a s'

/-- Parts come in one after the other. -/
inductive Runs [DecidableEq π] : List (ℕ × π) → Publisher π → Prop where
  | nil : Runs [] {}
  | snoc {l : List (ℕ × π)} {s s' : Publisher π} {a : ℕ × π} (h : Runs l s)
      (ht : F.Takes s a s') : Runs (l ++ [a]) s'

/-- What is left goes out. -/
inductive Flushes : Publisher π → Publisher π → Prop where
  | done {s : Publisher π} (h : s.table = []) : Flushes s s
  | next {s s' : Publisher π} {e : Entry π} (hn : F.Next s.table e)
      (h : Flushes (s.put e) s') : Flushes s s'
  | head {s s' : Publisher π} {e : Entry π} {rest : List (Entry π)}
      (hn : ∀ f ∈ s.table, F.announced f = false) (ht : s.table = e :: rest)
      (h : Flushes (s.put e) s') : Flushes s s'

end Feed

/-! ## The table -/

section Table

variable [DecidableEq π]

/-- A part opens an entry when its unit has none. -/
theorem addPart_units (i : ℕ) (p : π) (t : List (Entry π)) :
    (addPart i p t).map (·.unit) =
      if i ∈ t.map (·.unit) then t.map (·.unit) else t.map (·.unit) ++ [i] := by
  induction t with
  | nil => rfl
  | cons e t ih =>
    rw [addPart]
    by_cases he : e.unit = i
    · rw [if_pos he, if_pos (by simp [he])]
      simp [he]
    · rw [if_neg he, List.map_cons, ih, List.map_cons]
      have hmem : i ∈ e.unit :: t.map (·.unit) ↔ i ∈ t.map (·.unit) :=
        List.mem_cons.trans (or_iff_right (Ne.symm he))
      by_cases hi : i ∈ t.map (·.unit)
      · rw [if_pos hi, if_pos (hmem.mpr hi)]
      · rw [if_neg hi, if_neg (mt hmem.mp hi)]
        rfl

/-- A unit has one entry at most. -/
theorem addPart_nodup {i : ℕ} {p : π} {t : List (Entry π)} (h : (t.map (·.unit)).Nodup) :
    ((addPart i p t).map (·.unit)).Nodup := by
  rw [addPart_units]
  split
  · exact h
  · next hi =>
    rw [List.nodup_append]
    refine ⟨h, List.nodup_singleton i, fun a ha b hb he => hi ?_⟩
    rw [← List.mem_singleton.mp hb, ← he]
    exact ha

/-- Of the entry that grew one knows the parts, the others are as they were. -/
theorem mem_addPart {i : ℕ} {p : π} {t : List (Entry π)} (h : (t.map (·.unit)).Nodup)
    {e : Entry π} (he : e ∈ addPart i p t) :
    (e ∈ t ∧ e.unit ≠ i) ∨ (e.unit = i ∧ ∀ q, e.held q = true ↔
      q = p ∨ ∃ f ∈ t, f.unit = i ∧ f.held q = true) := by
  induction t with
  | nil =>
    rw [addPart, List.mem_singleton] at he
    exact .inr (by simp [he])
  | cons f t ih =>
    obtain ⟨hf, ht⟩ := List.nodup_cons.mp h
    rw [addPart] at he
    by_cases hfi : f.unit = i
    · rw [if_pos hfi] at he
      have hother : ∀ g ∈ t, g.unit ≠ i := by
        intro g hg hgi
        exact hf (List.mem_map.mpr ⟨g, hg, hgi.trans hfi.symm⟩)
      rcases List.mem_cons.mp he with rfl | he
      · refine .inr ⟨rfl, fun q => ?_⟩
        simp only [Bool.or_eq_true, decide_eq_true_eq, List.mem_cons, exists_eq_or_imp, hfi,
          true_and]
        refine or_congr_right (or_iff_left ?_).symm
        rintro ⟨g, hg, hgi, -⟩
        exact hother g hg hgi
      · exact .inl ⟨List.mem_cons_of_mem _ he, hother e he⟩
    · rw [if_neg hfi] at he
      rcases List.mem_cons.mp he with rfl | he
      · exact .inl ⟨List.mem_cons_self, hfi⟩
      · rcases ih ht he with ⟨hmem, hne⟩ | ⟨hi, hq⟩
        · exact .inl ⟨List.mem_cons_of_mem _ hmem, hne⟩
        · refine .inr ⟨hi, fun q => ?_⟩
          rw [hq q]
          simp [hfi]

/-- The entries of other units stay. -/
theorem mem_addPart_of_ne {i : ℕ} {p : π} {t : List (Entry π)} {e : Entry π} (he : e ∈ t)
    (hi : e.unit ≠ i) : e ∈ addPart i p t := by
  induction t with
  | nil => cases he
  | cons f t ih =>
    rw [addPart]
    rcases List.mem_cons.mp he with rfl | he
    · rw [if_neg hi]
      exact List.mem_cons_self
    · split
      · exact List.mem_cons_of_mem _ he
      · exact List.mem_cons_of_mem _ (ih he)

theorem exists_mem_addPart (i : ℕ) (p : π) (t : List (Entry π)) :
    ∃ e ∈ addPart i p t, e.unit = i := by
  have hmem : i ∈ (addPart i p t).map (·.unit) := by
    rw [addPart_units]
    split
    · assumption
    · simp
  exact List.mem_map.mp hmem

end Table

namespace Feed

variable {F : Feed π} {s s' : Publisher π} {e : Entry π}

/-- A unit that is whole has been announced. -/
theorem announced_of_whole (hw : F.whole e = true) (hp : F.parts e.unit ≠ []) :
    F.announced e = true := by
  unfold whole at hw
  unfold announced
  cases hparts : F.parts e.unit with
  | nil => exact absurd hparts hp
  | cons p rest =>
    rw [hparts, List.all_cons, Bool.and_eq_true] at hw
    exact hw.1

/-- An announced entry that is in the table is not after the next one. -/
theorem exists_next {f : Entry π} {t : List (Entry π)} (hf : f ∈ t) (ha : F.announced f = true) :
    ∃ e, F.Next t e := by
  have hne : t.filter F.announced ≠ [] := List.ne_nil_of_mem (List.mem_filter.mpr ⟨hf, ha⟩)
  obtain ⟨e, he⟩ := Option.ne_none_iff_exists'.mp
    (fun hn => hne (List.argmin_eq_none.mp hn) :
      (t.filter F.announced).argmin (·.unit) ≠ none)
  have hmem := List.argmin_mem he
  rw [List.mem_filter] at hmem
  refine ⟨e, hmem.1, hmem.2, fun g hg hga => ?_⟩
  exact List.le_of_mem_argmin (List.mem_filter.mpr ⟨hg, hga⟩) he

/-! ## The order of what goes out -/

/-- Units are open once, and announced units that move the watermark go out in order. -/
structure Sound (F : Feed π) (s : Publisher π) : Prop where
  nodup : (s.table.map (·.unit)).Nodup
  above : ∀ e ∈ s.table, F.announced e = true → ∀ f ∈ s.log, F.announced f = true →
    F.marking f = true → f.unit < e.unit
  sorted : s.log.Pairwise fun e f => F.announced e = true → F.marking e = true →
    F.announced f = true → F.marking f = true → e.unit < f.unit

/-- An entry is published when no announced unit before it is left. -/
theorem Sound.put (h : F.Sound s) (he : e ∈ s.table)
    (hmin : F.announced e = true → ∀ f ∈ s.table, F.announced f = true → e.unit ≤ f.unit) :
    F.Sound (s.put e) where
  nodup := (List.filter_sublist.map _).nodup h.nodup
  above := by
    intro f hf hfa g hg hga hgm
    rw [Publisher.put_table, List.mem_filter, decide_eq_true_eq] at hf
    rcases List.mem_append.mp hg with hg | hg
    · exact h.above f hf.1 hfa g hg hga hgm
    · rw [List.mem_singleton.mp hg] at hga ⊢
      exact lt_of_le_of_ne (hmin hga f hf.1 hfa) (Ne.symm hf.2)
  sorted := by
    refine List.pairwise_append.mpr ⟨h.sorted, List.pairwise_singleton .., ?_⟩
    intro f hf g hg hfa hfm hga _
    rw [List.mem_singleton.mp hg] at hga ⊢
    exact h.above e he hga f hf hfa hfm

theorem Sound.next (h : F.Sound s) (he : F.Next s.table e) : F.Sound (s.put e) :=
  h.put he.1 fun _ => he.2.2

/-- To publish what is ready keeps the publisher sound. -/
theorem Sound.drains (h : F.Sound s) (hd : F.Drains s s') : F.Sound s' := by
  induction hd with
  | stop _ => exact h
  | put hn _ _ ih => exact ih (h.next hn)

/-- So does it to publish the rest. -/
theorem Sound.flushes (h : F.Sound s) (hf : F.Flushes s s') : F.Sound s' := by
  induction hf with
  | done _ => exact h
  | next hn _ ih => exact ih (h.next hn)
  | head hn ht _ ih =>
    refine ih (h.put (ht ▸ List.mem_cons_self) fun ha => ?_)
    rw [hn _ (ht ▸ List.mem_cons_self)] at ha
    cases ha

/-- While parts come in, only announced units go out. -/
def Announcing (F : Feed π) (s : Publisher π) : Prop := ∀ f ∈ s.log, F.announced f = true

theorem Announcing.drains (h : F.Announcing s) (hd : F.Drains s s') : F.Announcing s' := by
  induction hd with
  | stop _ => exact h
  | put hn _ _ ih =>
    refine ih fun f hf => ?_
    rcases List.mem_append.mp hf with hf | hf
    · exact h f hf
    · rw [List.mem_singleton.mp hf]
      exact hn.2.1

/-- A unit is late when one that is not before it has moved the watermark. -/
theorem late_iff (h : F.Sound s) (ha : F.Announcing s) (i : ℕ) :
    F.Late s i ↔ ∃ f ∈ s.log, F.marking f = true ∧ i ≤ f.unit := by
  constructor
  · rintro ⟨e, he, hi⟩
    have hmem := List.mem_filter.mp (List.mem_of_getLast? he)
    exact ⟨e, hmem.1, hmem.2, hi⟩
  · rintro ⟨f, hf, hm, hi⟩
    have hmem : f ∈ s.log.filter F.marking := List.mem_filter.mpr ⟨hf, hm⟩
    have hsorted : (s.log.filter F.marking).Pairwise fun e f => e.unit < f.unit := by
      refine (h.sorted.filter _).imp_of_mem fun {a b} hma hmb hab => ?_
      rw [List.mem_filter] at hma hmb
      exact hab (ha _ hma.1) hma.2 (ha _ hmb.1) hmb.2
    cases hlast : (s.log.filter F.marking).getLast? with
    | none =>
      rw [List.getLast?_eq_none_iff.mp hlast] at hmem
      cases hmem
    | some e =>
      obtain ⟨before, heq⟩ := List.getLast?_eq_some_iff.mp hlast
      refine ⟨e, hlast, hi.trans ?_⟩
      rw [heq] at hmem hsorted
      rcases List.mem_append.mp hmem with hmem | hmem
      · exact ((List.pairwise_append.mp hsorted).2.2 f hmem e List.mem_cons_self).le
      · rw [List.mem_singleton.mp hmem]

section Runs

variable [DecidableEq π] {l : List (ℕ × π)} {a : ℕ × π}

/-- So does one more part, unless its unit has gone by. -/
theorem Sound.addPart (h : F.Sound s) (ha : F.Announcing s) (hl : ¬ F.Late s a.1) :
    F.Sound ⟨addPart a.1 a.2 s.table, s.log⟩ where
  nodup := addPart_nodup h.nodup
  above := by
    intro e he hea f hf hfa hfm
    rcases mem_addPart h.nodup he with ⟨hmem, -⟩ | ⟨hi, -⟩
    · exact h.above e hmem hea f hf hfa hfm
    · rw [late_iff h ha] at hl
      by_contra hle
      exact hl ⟨f, hf, hfm, by omega⟩
  sorted := h.sorted

/-- So a part is taken, and what it makes ready is published. -/
theorem Sound.takes (h : F.Sound s) (ha : F.Announcing s) (ht : F.Takes s a s') :
    F.Sound s' ∧ F.Announcing s' := by
  cases ht with
  | late _ => exact ⟨h, ha⟩
  | fresh hl hd =>
    have ha' : F.Announcing ⟨Lib.addPart a.1 a.2 s.table, s.log⟩ := ha
    exact ⟨(h.addPart ha hl).drains hd, ha'.drains hd⟩

/-- A run is sound from its start. -/
theorem Runs.sound (hr : F.Runs l s) : F.Sound s ∧ F.Announcing s := by
  induction hr with
  | nil => exact ⟨⟨.nil, nofun, .nil⟩, nofun⟩
  | snoc _ ht ih => exact ih.1.takes ih.2 ht

/-- The parts of an entry came in. -/
theorem Runs.held (hr : F.Runs l s) :
    ∀ e ∈ s.table ++ s.log, ∀ q, e.held q = true → (e.unit, q) ∈ l := by
  induction hr with
  | nil => exact nofun
  | @snoc l s s' a hr ht ih =>
    have hdrains : ∀ {s₁ s₂ : Publisher π}, F.Drains s₁ s₂ →
        ∀ e ∈ s₂.table ++ s₂.log, e ∈ s₁.table ++ s₁.log := by
      intro s₁ s₂ hd
      induction hd with
      | stop _ => exact fun e he => he
      | @put s₁ s₂ f hn _ _ ih =>
        intro e he
        rcases List.mem_append.mp (ih e he) with he | he
        · exact List.mem_append_left _ (List.mem_of_mem_filter he)
        · rcases List.mem_append.mp he with he | he
          · exact List.mem_append_right _ he
          · exact List.mem_append_left _ (List.mem_singleton.mp he ▸ hn.1)
    intro e he q hq
    cases ht with
    | late _ => exact List.mem_append_left _ (ih e he q hq)
    | fresh _ hd =>
      rcases List.mem_append.mp (hdrains hd e he) with he | he
      · rcases mem_addPart hr.sound.1.nodup he with ⟨hmem, -⟩ | ⟨hi, hiff⟩
        · exact List.mem_append_left _ (ih e (List.mem_append_left _ hmem) q hq)
        · rcases (hiff q).mp hq with rfl | ⟨f, hf, hfi, hfq⟩
          · exact List.mem_append_right _ (by rw [hi]; exact List.mem_cons_self)
          · rw [hi, ← hfi]
            exact List.mem_append_left _ (ih f (List.mem_append_left _ hf) q hfq)
      · exact List.mem_append_left _ (ih e (List.mem_append_right _ he) q hq)

end Runs

/-! ## What was heard of -/

/-- The units that are being put together or went out. -/
def units (s : Publisher π) : List ℕ := s.table.map (·.unit) ++ s.log.map (·.unit)

theorem units_put (e : Entry π) (i : ℕ) : i ∈ units s → i ∈ units (s.put e) := by
  unfold units
  simp only [List.mem_append, List.mem_map, Publisher.put_table, Publisher.put_log,
    List.mem_filter, decide_eq_true_eq, List.mem_singleton]
  rintro (⟨f, hf, rfl⟩ | ⟨f, hf, rfl⟩)
  · by_cases hu : f.unit = e.unit
    · exact .inr ⟨e, .inr rfl, hu.symm⟩
    · exact .inl ⟨f, ⟨hf, hu⟩, rfl⟩
  · exact .inr ⟨f, .inl hf, rfl⟩

theorem units_drains (hd : F.Drains s s') (i : ℕ) : i ∈ units s → i ∈ units s' := by
  induction hd with
  | stop _ => exact id
  | put _ _ _ ih => exact fun hi => ih (units_put _ i hi)

theorem units_flushes (hf : F.Flushes s s') (i : ℕ) : i ∈ units s → i ∈ units s' := by
  induction hf with
  | done _ => exact id
  | next _ _ ih => exact fun hi => ih (units_put _ i hi)
  | head _ _ _ ih => exact fun hi => ih (units_put _ i hi)

/-- What goes out while parts come in is whole. -/
theorem whole_drains (hd : F.Drains s s') (h : ∀ e ∈ s.log, F.whole e = true) :
    ∀ e ∈ s'.log, F.whole e = true := by
  induction hd with
  | stop _ => exact h
  | put _ hw _ ih =>
    refine ih fun f hf => ?_
    rcases List.mem_append.mp hf with hf | hf
    · exact h f hf
    · rw [List.mem_singleton.mp hf]
      exact hw

section Heard

variable [DecidableEq π] {l : List (ℕ × π)}

/-- Whatever a run publishes is whole. -/
theorem Runs.whole (hr : F.Runs l s) : ∀ e ∈ s.log, F.whole e = true := by
  induction hr with
  | nil => exact nofun
  | snoc _ ht ih =>
    cases ht with
    | late _ => exact ih
    | fresh _ hd => exact whole_drains hd ih

theorem units_takes {a : ℕ × π} (ht : F.Takes s a s') (i : ℕ) : i ∈ units s → i ∈ units s' := by
  cases ht with
  | late _ => exact id
  | fresh _ hd =>
    refine fun hi => units_drains hd i ?_
    unfold units at hi ⊢
    dsimp only
    rw [addPart_units]
    rcases List.mem_append.mp hi with hi | hi
    · refine List.mem_append_left _ ?_
      split
      · exact hi
      · exact List.mem_append_left _ hi
    · exact List.mem_append_right _ hi

/-- A unit of which a part came in is heard of, unless a later unit was whole before. -/
theorem Runs.heard (hr : F.Runs l s) {l₁ l₂ : List (ℕ × π)} {a : ℕ × π} (hl : l = l₁ ++ a :: l₂) :
    a.1 ∈ units s ∨ ∃ j, a.1 < j ∧ F.parts j ≠ [] ∧ ∀ p ∈ F.parts j, (j, p) ∈ l₁ := by
  induction hr generalizing l₂ with
  | nil => cases l₁ <;> cases hl
  | @snoc l s s' b hr ht ih =>
    rcases List.eq_nil_or_concat' l₂ with rfl | ⟨l₂, c, rfl⟩
    · obtain ⟨rfl, hab⟩ := List.append_inj' hl rfl
      cases hab
      cases ht with
      | late hlate =>
        obtain ⟨f, hf, -, hle⟩ := (late_iff hr.sound.1 hr.sound.2 _).mp hlate
        rcases hle.eq_or_lt with heq | hlt
        · left
          rw [heq]
          exact List.mem_append_right _ (List.mem_map_of_mem hf)
        · have hann := hr.sound.2 f hf
          refine .inr ⟨f.unit, hlt, fun hnil => ?_, fun p hp => ?_⟩
          · unfold announced at hann
            rw [hnil] at hann
            cases hann
          exact hr.held f (List.mem_append_right _ hf) p
            (List.all_eq_true.mp (hr.whole f hf) p hp)
      | fresh _ hd =>
        left
        refine units_drains hd _ ?_
        obtain ⟨e, he, hu⟩ := exists_mem_addPart a.1 a.2 s.table
        exact List.mem_append_left _ (List.mem_map.mpr ⟨e, he, hu⟩)
    · rw [← List.cons_append, ← List.append_assoc] at hl
      obtain ⟨rfl, -⟩ := List.append_inj' hl rfl
      exact (ih rfl).imp_left (units_takes ht _)

end Heard

/-! ## A flush -/

/-- A flush puts out the announced units in the order of their numbers, then the others in the
order in which they were opened. -/
theorem Flushes.log_eq (hf : F.Flushes s s') (hn : (s.table.map (·.unit)).Nodup) :
    ∃ A, A.Perm (s.table.filter F.announced) ∧ A.Pairwise (fun e f => e.unit < f.unit) ∧
      s'.log = s.log ++ A ++ s.table.filter (!F.announced ·) := by
  induction hf with
  | done ht => exact ⟨[], by rw [ht]; rfl, .nil, by rw [ht]; simp⟩
  | @next s s' e hne _ ih =>
    obtain ⟨A, hperm, hsorted, hlog⟩ := ih ((List.filter_sublist.map _).nodup hn)
    obtain ⟨before, after, hsplit⟩ := List.append_of_mem hne.1
    have hother : ∀ f ∈ before ++ after, f.unit ≠ e.unit := by
      intro f hf he
      rw [hsplit, List.map_append, List.map_cons] at hn
      have hnot := (List.nodup_cons.mp (List.nodup_middle.mp hn)).1
      rw [← List.map_append] at hnot
      exact hnot (List.mem_map.mpr ⟨f, hf, he⟩)
    have hfilter : s.table.filter (·.unit ≠ e.unit) = before ++ after := by
      rw [hsplit, List.filter_append, List.filter_cons_of_neg (by simp),
        ← List.filter_append, List.filter_eq_self.mpr]
      simpa using hother
    rw [Publisher.put_table, hfilter] at hperm hlog
    refine ⟨e :: A, ?_, List.pairwise_cons.mpr ⟨fun f hf => ?_, hsorted⟩, ?_⟩
    · rw [hsplit, List.filter_append, List.filter_cons_of_pos hne.2.1]
      rw [List.filter_append] at hperm
      exact (hperm.cons e).trans List.perm_middle.symm
    · have hmem := List.mem_filter.mp (hperm.subset hf)
      have hft : f ∈ s.table := by
        rw [hsplit]
        exact List.mem_append.mpr ((List.mem_append.mp hmem.1).imp_right (List.mem_cons_of_mem _))
      exact lt_of_le_of_ne (hne.2.2 f hft hmem.2) (Ne.symm (hother f hmem.1))
    · rw [hlog, hsplit, Publisher.put_log, List.filter_append, List.filter_append,
        List.filter_cons_of_neg (by simp [hne.2.1])]
      simp
  | @head s s' e rest hna ht _ ih =>
    obtain ⟨A, hperm, hsorted, hlog⟩ := ih ((List.filter_sublist.map _).nodup hn)
    have hrest : s.table.filter (·.unit ≠ e.unit) = rest := by
      rw [ht, List.map_cons, List.nodup_cons] at hn
      rw [ht, List.filter_cons_of_neg (by simp), List.filter_eq_self.mpr]
      intro f hf
      simp only [decide_eq_true_eq]
      exact fun he => hn.1 (List.mem_map.mpr ⟨f, hf, he⟩)
    have hnone : s.table.filter F.announced = [] := by
      rw [List.filter_eq_nil_iff]
      exact fun f hf => by rw [hna f hf]; exact Bool.false_ne_true
    rw [Publisher.put_table, hrest] at hperm hlog
    have hA : A = [] := by
      rw [List.filter_eq_nil_iff.mpr] at hperm
      · exact hperm.eq_nil
      · exact fun f hf => by rw [hna f (ht ▸ List.mem_cons_of_mem _ hf)]; exact Bool.false_ne_true
    refine ⟨[], by rw [hnone], .nil, ?_⟩
    rw [hlog, hA, ht, List.filter_cons_of_pos (by rw [hna e (ht ▸ List.mem_cons_self)]; rfl)]
    simp

/-- What was not announced goes out after everything that was. -/
theorem Flushes.announced_first (hf : F.Flushes s s') (ha : F.Announcing s)
    (hn : (s.table.map (·.unit)).Nodup) :
    s'.log.Pairwise fun e f => F.announced f = true → F.announced e = true := by
  obtain ⟨A, hA, -, hlog⟩ := hf.log_eq hn
  have hfront : ∀ e ∈ s.log ++ A, F.announced e = true := by
    intro e he
    rcases List.mem_append.mp he with he | he
    · exact ha e he
    · exact (List.mem_filter.mp (hA.subset he)).2
  rw [hlog]
  refine List.pairwise_append.mpr ⟨?_, ?_, fun e he f _ _ => hfront e he⟩
  · exact List.pairwise_of_forall_mem_list fun e he f _ _ => hfront e he
  · refine List.pairwise_of_forall_mem_list fun e _ f hf hfa => ?_
    rw [List.mem_filter, hfa] at hf
    exact absurd hf.2 Bool.false_ne_true

theorem Flushes.mem (hf : F.Flushes s s') (he : e ∈ s'.log) : e ∈ s.table ++ s.log := by
  have hput : ∀ {s : Publisher π} {f : Entry π}, f ∈ s.table →
      e ∈ (s.put f).table ++ (s.put f).log → e ∈ s.table ++ s.log := by
    intro s f hf he
    rcases List.mem_append.mp he with he | he
    · exact List.mem_append_left _ (List.mem_of_mem_filter he)
    · rcases List.mem_append.mp he with he | he
      · exact List.mem_append_right _ he
      · rw [List.mem_singleton.mp he]
        exact List.mem_append_left _ hf
  induction hf with
  | done _ => exact List.mem_append_right _ he
  | next hn _ ih => exact hput hn.1 (ih he)
  | head _ ht _ ih => exact hput (ht ▸ List.mem_cons_self) (ih he)

/-- At the end nothing is left. -/
theorem Flushes.table_eq (hf : F.Flushes s s') : s'.table = [] := by
  induction hf with
  | done ht => exact ht
  | next _ _ ih => exact ih
  | head _ _ _ ih => exact ih

/-- A flush of nothing puts out nothing. -/
theorem Flushes.eq_of_nil (hf : F.Flushes s s') (ht : s.table = []) : s' = s := by
  cases hf with
  | done _ => rfl
  | next hn _ =>
    have hmem := hn.1
    rw [ht] at hmem
    cases hmem
  | head _ ht' _ =>
    rw [ht] at ht'
    cases ht'

/-- A flush puts what is left out in order when all of it is announced, or it is one unit only. -/
theorem Flushes.rest (hf : F.Flushes s s') (hn : (s.table.map (·.unit)).Nodup)
    (h : (∀ e ∈ s.table, F.announced e = true) ∨ s.table.length ≤ 1) :
    ∃ B, s'.log = s.log ++ B ∧ B.Perm s.table ∧ B.Pairwise fun e f => e.unit < f.unit := by
  obtain ⟨A, hA, hsorted, hlog⟩ := hf.log_eq hn
  have hperm := (hA.append_right (s.table.filter (!F.announced ·))).trans
    (List.filter_append_perm F.announced s.table)
  refine ⟨A ++ s.table.filter (!F.announced ·), by rw [hlog, List.append_assoc], hperm, ?_⟩
  rcases h with hall | hone
  · rw [List.filter_eq_nil_iff.mpr (fun e he => by simp [hall e he]), List.append_nil]
    exact hsorted
  · rw [← hperm.length_eq] at hone
    cases hB : A ++ s.table.filter (!F.announced ·) with
    | nil => exact .nil
    | cons e B =>
      rw [hB] at hone
      rw [List.length_eq_zero_iff.mp (Nat.le_zero.mp (Nat.le_of_succ_le_succ hone))]
      exact List.pairwise_singleton ..

/-! ## All units in order -/

/-- All parts of a unit came in. -/
def Arrived (F : Feed π) (l : List (ℕ × π)) (i : ℕ) : Prop := ∀ p ∈ F.parts i, (i, p) ∈ l

/-- The part that announces a unit came in. -/
def Heralded (F : Feed π) (l : List (ℕ × π)) (i : ℕ) : Prop :=
  ∃ p, (F.parts i).head? = some p ∧ (i, p) ∈ l

/-- From unit `b` on, none of `n` units is ever whole while an earlier one is missing parts, unless
one between the two is announced. -/
def Patient (F : Feed π) (b n : ℕ) (l : List (ℕ × π)) : Prop :=
  ∀ l', l' <+: l → ∀ m k, b ≤ m → m < k → k < n → ¬ F.Arrived l' m →
    (∀ j, b ≤ j → j < m → F.Arrived l' j) → F.Arrived l' k → ∃ i, m ≤ i ∧ i < k ∧ F.Heralded l' i

/-- What comes in are parts of `n` units, none of which is empty and each of which moves the
watermark when it is whole. The units before `b` are never announced. -/
structure Fed (F : Feed π) (b n : ℕ) (l : List (ℕ × π)) : Prop where
  unit : ∀ a ∈ l, a.1 < n ∧ a.2 ∈ F.parts a.1
  nonempty : ∀ i < n, F.parts i ≠ []
  marking : ∀ e : Entry π, e.unit < n → F.whole e = true → F.marking e = true
  unheralded : ∀ i < b, ¬ F.Heralded l i
  le : b ≤ n

theorem Fed.of_append {b n : ℕ} {l₁ l₂ : List (ℕ × π)} (h : F.Fed b n (l₁ ++ l₂)) :
    F.Fed b n l₁ where
  unit := fun a ha => h.unit a (List.mem_append_left _ ha)
  nonempty := h.nonempty
  marking := h.marking
  unheralded := fun i hi => fun ⟨p, hp, hm⟩ => h.unheralded i hi ⟨p, hp, List.mem_append_left _ hm⟩
  le := h.le

theorem Patient.of_append {b n : ℕ} {l₁ l₂ : List (ℕ × π)} (h : F.Patient b n (l₁ ++ l₂)) :
    F.Patient b n l₁ := fun l' hl' => h l' (hl'.trans (List.prefix_append ..))

/-- A unit that has arrived stays so. -/
theorem Arrived.mono {l₁ l₂ : List (ℕ × π)} {i : ℕ} (h : F.Arrived l₁ i)
    (hl : ∀ a ∈ l₁, a ∈ l₂) : F.Arrived l₂ i := fun p hp => hl _ (h p hp)

/-- The units from `b` to the end of the log went out in order; of the others those that are
heard of are in the table, with what came in. -/
structure InOrder (F : Feed π) (b n : ℕ) (l : List (ℕ × π)) (s : Publisher π) : Prop where
  nodup : (s.table.map (·.unit)).Nodup
  log : s.log.map (·.unit) = List.range' b s.log.length
  le : b + s.log.length ≤ n
  whole : ∀ e ∈ s.log, F.whole e = true
  arrived : ∀ i, b ≤ i → i < b + s.log.length → F.Arrived l i
  early : ∀ e ∈ s.table, e.unit < b → F.announced e = false
  waiting : ∀ e ∈ s.table, b ≤ e.unit → b + s.log.length ≤ e.unit
  held : ∀ e ∈ s.table, b ≤ e.unit → ∀ q, e.held q = true ↔ (e.unit, q) ∈ l
  opened : ∀ a ∈ l, b + s.log.length ≤ a.1 → ∃ e ∈ s.table, e.unit = a.1

namespace InOrder

variable {b n : ℕ} {l : List (ℕ × π)}

/-- An entry is announced when its unit was heralded. -/
theorem announced_iff (h : F.InOrder b n l s) (he : e ∈ s.table) (hb : b ≤ e.unit) :
    F.announced e = true ↔ F.Heralded l e.unit := by
  unfold announced Heralded
  rw [Option.any_eq_true]
  simp only [h.held e he hb]

/-- An entry is whole when its unit has arrived. -/
theorem whole_iff (h : F.InOrder b n l s) (he : e ∈ s.table) (hb : b ≤ e.unit) :
    F.whole e = true ↔ F.Arrived l e.unit := by
  unfold Feed.whole Arrived
  rw [List.all_eq_true]
  simp only [h.held e he hb]

/-- The unit in front is the next to go out as soon as it is announced. -/
theorem front_next (h : F.InOrder b n l s) (hh : F.Heralded l (b + s.log.length)) :
    ∃ e, F.Next s.table e ∧ e.unit = b + s.log.length := by
  obtain ⟨p, hph, hp⟩ := hh
  obtain ⟨e, he, hu⟩ := h.opened _ hp le_rfl
  have hb : b ≤ e.unit := by omega
  refine ⟨e, ⟨he, (h.announced_iff he hb).mpr ?_, fun f hfm hfa => ?_⟩, hu⟩
  · rw [hu]
    exact ⟨p, hph, hp⟩
  · by_cases hfb : f.unit < b
    · rw [h.early f hfm hfb] at hfa
      cases hfa
    · exact hu.le.trans (h.waiting f hfm (Nat.not_lt.mp hfb))

theorem heralded_of_arrived {i : ℕ} (hf : F.Fed b n l) (hi : i < n) (h : F.Arrived l i) :
    F.Heralded l i := by
  have hne := hf.nonempty i hi
  cases hp : F.parts i with
  | nil => exact absurd hp hne
  | cons p rest =>
    refine ⟨p, by rw [hp]; rfl, h p ?_⟩
    rw [hp]
    exact List.mem_cons_self

/-- Nothing but the unit in front goes out. -/
theorem put (h : F.InOrder b n l s) (hf : F.Fed b n l) (hp : F.Patient b n l)
    (hn : F.Next s.table e) (hw : F.whole e = true) :
    e.unit = b + s.log.length ∧ F.InOrder b n l (s.put e) := by
  have hb : b ≤ e.unit := by
    by_contra hlt
    have := h.early e hn.1 (Nat.not_le.mp hlt)
    rw [hn.2.1] at this
    cases this
  have hge := h.waiting e hn.1 hb
  have harr := (h.whole_iff hn.1 hb).mp hw
  have hher := (h.announced_iff hn.1 hb).mp hn.2.1
  have hlt : e.unit < n := by
    obtain ⟨p, -, hmem⟩ := hher
    exact (hf.unit _ hmem).1
  have heq : e.unit = b + s.log.length := by
    by_contra hne
    have hlt' : b + s.log.length < e.unit := by omega
    have hnot : ¬ F.Arrived l (b + s.log.length) := fun ha => by
      obtain ⟨f, hfn, hfu⟩ := h.front_next (heralded_of_arrived hf (by omega) ha)
      have := hn.2.2 f hfn.1 hfn.2.1
      omega
    obtain ⟨i, hi, hik, hher'⟩ := hp l (List.prefix_refl l) _ _ (by omega) hlt' hlt hnot
      h.arrived harr
    obtain ⟨p, hph, hpm⟩ := hher'
    obtain ⟨f, hfm, hfu⟩ := h.opened _ hpm hi
    have hfb : b ≤ f.unit := by
      rw [hfu]
      show b ≤ i
      omega
    have hfa : F.announced f = true := by
      rw [h.announced_iff hfm hfb, hfu]
      exact ⟨p, hph, hpm⟩
    have := hn.2.2 f hfm hfa
    rw [hfu] at this
    exact absurd this (Nat.not_le.mpr hik)
  have hlen : (s.put e).log.length = s.log.length + 1 := by simp
  refine ⟨heq, ?_⟩
  exact {
    nodup := (List.filter_sublist.map _).nodup h.nodup
    log := by
      rw [hlen, List.range'_concat, Publisher.put_log, List.map_append, h.log, List.map_cons,
        List.map_nil, heq, Nat.one_mul]
    le := by omega
    whole := by
      intro f hfm
      rcases List.mem_append.mp hfm with hfm | hfm
      · exact h.whole f hfm
      · rw [List.mem_singleton.mp hfm]
        exact hw
    arrived := by
      intro i hi hil
      by_cases hie : i = e.unit
      · exact hie ▸ harr
      · exact h.arrived i hi (by omega)
    early := fun f hfm => h.early f (List.mem_of_mem_filter hfm)
    waiting := by
      intro f hfm hfb
      rw [Publisher.put_table, List.mem_filter, decide_eq_true_eq] at hfm
      have := h.waiting f hfm.1 hfb
      omega
    held := fun f hfm => h.held f (List.mem_of_mem_filter hfm)
    opened := by
      intro a ha hale
      obtain ⟨f, hfm, hfu⟩ := h.opened a ha (by omega)
      refine ⟨f, ?_, hfu⟩
      rw [Publisher.put_table, List.mem_filter, decide_eq_true_eq]
      exact ⟨hfm, by omega⟩ }

/-- After the last unit that can go out the one in front has parts missing. -/
theorem drains (h : F.InOrder b n l s) (hf : F.Fed b n l) (hp : F.Patient b n l)
    (hd : F.Drains s s') :
    F.InOrder b n l s' ∧ (b + s'.log.length < n → ¬ F.Arrived l (b + s'.log.length)) := by
  induction hd with
  | @stop s hstop =>
    refine ⟨h, fun hlt ha => ?_⟩
    obtain ⟨e, hen, heu⟩ := h.front_next (heralded_of_arrived hf hlt ha)
    have hw : F.whole e = true := (h.whole_iff hen.1 (by omega)).mpr (by rw [heu]; exact ha)
    rw [hstop e hen] at hw
    cases hw
  | put hn hw _ ih => exact ih (h.put hf hp hn hw).2

/-- The units that went out are late, the others are not. -/
theorem late_iff (h : F.InOrder b n l s) (hf : F.Fed b n l) (i : ℕ) :
    F.Late s i ↔ s.log ≠ [] ∧ i < b + s.log.length := by
  have hunits : ∀ e ∈ s.log, e.unit < b + s.log.length := by
    intro e he
    have hmem : e.unit ∈ s.log.map (·.unit) := List.mem_map_of_mem he
    rw [h.log, List.mem_range'_1] at hmem
    exact hmem.2
  have hall : s.log.filter F.marking = s.log :=
    List.filter_eq_self.mpr fun e he =>
      hf.marking e ((hunits e he).trans_le h.le) (h.whole e he)
  unfold Late
  rw [hall]
  cases hlast : s.log.getLast? with
  | none => simp [List.getLast?_eq_none_iff.mp hlast]
  | some e =>
    obtain ⟨before, heq⟩ := List.getLast?_eq_some_iff.mp hlast
    have hu : e.unit = b + s.log.length - 1 := by
      have hl : (s.log.map (·.unit)).getLast? = some e.unit := by
        rw [List.getLast?_map, hlast]
        rfl
      rw [h.log, List.getLast?_range'] at hl
      split at hl
      · cases hl
      · have := Option.some.inj hl
        omega
    have hpos : 0 < s.log.length := by simp [heq]
    have hne : s.log ≠ [] := List.length_pos_iff.mp hpos
    simp only [Option.some.injEq, exists_eq_left', ne_eq, hne, not_false_eq_true, true_and]
    omega

/-- In order, a part that is taken leaves the next unit at the front. -/
theorem takes [DecidableEq π] {a : ℕ × π} (h : F.InOrder b n l s)
    (hfront : b + s.log.length < n → ¬ F.Arrived l (b + s.log.length))
    (hf : F.Fed b n (l ++ [a])) (hp : F.Patient b n (l ++ [a])) (ht : F.Takes s a s') :
    F.InOrder b n (l ++ [a]) s' ∧
      (b + s'.log.length < n → ¬ F.Arrived (l ++ [a]) (b + s'.log.length)) := by
  have hmono : ∀ {i}, F.Arrived l i → F.Arrived (l ++ [a]) i := fun ha =>
    ha.mono fun _ => List.mem_append_left _
  have hau := hf.unit a (by simp)
  cases ht with
  | late hl =>
    -- a late part belongs to a unit that went out, so the units that wait lack nothing
    have hlt := ((h.late_iff hf.of_append a.1).mp hl).2
    have hother : ∀ i q, b + s.log.length ≤ i → ((i, q) ∈ l ↔ (i, q) ∈ l ++ [a]) := by
      intro i q hi
      rw [List.mem_append, List.mem_singleton, or_iff_left]
      rintro rfl
      exact absurd hlt (Nat.not_lt.mpr hi)
    refine ⟨{ h with arrived := ?_, held := ?_, opened := ?_ }, fun hlt' ha => ?_⟩
    · exact fun i hi hil => hmono (h.arrived i hi hil)
    · intro e he hb q
      rw [h.held e he hb q]
      exact hother _ _ (h.waiting e he hb)
    · intro a' ha' hale
      exact h.opened a' ((hother a'.1 a'.2 hale).mpr ha') hale
    · exact hfront hlt' fun p hpm => (hother _ _ le_rfl).mpr (ha p hpm)
  | fresh hl hd =>
    -- the part opens a unit or joins one, and then what is ready goes out
    rw [h.late_iff hf.of_append] at hl
    have hadd : F.InOrder b n (l ++ [a]) ⟨addPart a.1 a.2 s.table, s.log⟩ := {
      nodup := addPart_nodup h.nodup
      log := h.log, le := h.le, whole := h.whole
      arrived := fun i hi hil => hmono (h.arrived i hi hil)
      early := by
        intro e he hb
        rcases mem_addPart h.nodup he with ⟨hmem, -⟩ | ⟨hu, hq⟩
        · exact h.early e hmem hb
        · rw [Bool.eq_false_iff]
          intro hann
          unfold announced at hann
          obtain ⟨p, hph, hpe⟩ := (Option.any_eq_true ..).mp hann
          refine hf.unheralded e.unit hb ⟨p, hph, ?_⟩
          rcases (hq p).mp hpe with rfl | ⟨f, hfm, hfu, hfp⟩
          · rw [hu]
            simp
          · have hfa : F.announced f = true := by
              unfold announced
              rw [hfu, ← hu]
              exact (Option.any_eq_true ..).mpr ⟨p, hph, hfp⟩
            rw [h.early f hfm (by omega)] at hfa
            cases hfa
      waiting := by
        intro e he hb
        rcases mem_addPart h.nodup he with ⟨hmem, -⟩ | ⟨hu, -⟩
        · exact h.waiting e hmem hb
        · by_cases hnil : s.log = []
          · simpa [hnil] using hb
          · exact Nat.not_lt.mp fun hlt => hl ⟨hnil, hu ▸ hlt⟩
      held := by
        intro e he hb q
        rw [List.mem_append, List.mem_singleton]
        rcases mem_addPart h.nodup he with ⟨hmem, hne⟩ | ⟨hu, hq⟩
        · rw [h.held e hmem hb q, or_iff_left]
          exact fun heq => hne (congrArg Prod.fst heq)
        · rw [hq q, or_comm, hu]
          refine or_congr ⟨?_, ?_⟩ ⟨fun hqa => by rw [hqa], fun heq => congrArg Prod.snd heq⟩
          · rintro ⟨f, hfm, hfu, hfq⟩
            rw [← hfu]
            exact (h.held f hfm (by omega) q).mp hfq
          · intro hmem
            have hale : b + s.log.length ≤ a.1 := by
              by_cases hnil : s.log = []
              · rw [hnil]
                exact hu ▸ hb
              · exact Nat.not_lt.mp fun hlt => hl ⟨hnil, hlt⟩
            obtain ⟨f, hfm, hfu⟩ := h.opened _ hmem hale
            exact ⟨f, hfm, hfu, (h.held f hfm (by rw [hfu]; omega) q).mpr (by rw [hfu]; exact hmem)⟩
      opened := by
        intro a' ha' hale
        by_cases hu : a'.1 = a.1
        · rw [hu]
          exact exists_mem_addPart ..
        · rcases List.mem_append.mp ha' with ha' | ha'
          · obtain ⟨e, he, heu⟩ := h.opened a' ha' hale
            exact ⟨e, mem_addPart_of_ne he (heu ▸ hu), heu⟩
          · exact absurd (congrArg Prod.fst (List.mem_singleton.mp ha')) hu }
    exact hadd.drains hf hp hd

end InOrder

/-- All units that are whole in front of the first one that is not went out, in order. -/
theorem Runs.inOrder [DecidableEq π] {b n : ℕ} {l : List (ℕ × π)} (hr : F.Runs l s)
    (hf : F.Fed b n l) (hp : F.Patient b n l) :
    F.InOrder b n l s ∧ (b + s.log.length < n → ¬ F.Arrived l (b + s.log.length)) := by
  induction hr with
  | nil =>
    refine ⟨⟨.nil, rfl, hf.le, nofun, fun i hi hil => absurd hil (by simpa using hi), nofun, nofun,
      nofun, nofun⟩, fun hlt ha => ?_⟩
    have hne := hf.nonempty b hlt
    cases hparts : F.parts b with
    | nil => exact hne hparts
    | cons p rest =>
      have hmem : p ∈ F.parts b := hparts ▸ List.mem_cons_self
      cases ha p hmem
  | snoc hr ht ih =>
    obtain ⟨hin, hfront⟩ := ih hf.of_append hp.of_append
    exact hin.takes hfront hf hp ht

/-- The units that are not out yet are in the table when all of them are heard of. -/
theorem InOrder.table_perm {b n : ℕ} {l : List (ℕ × π)} (h : F.InOrder b n l s)
    (hunit : ∀ e ∈ s.table, b ≤ e.unit ∧ e.unit < n)
    (hheard : ∀ i, b + s.log.length ≤ i → i < n → ∃ p, (i, p) ∈ l) :
    (s.table.map (·.unit)).Perm
      (List.range' (b + s.log.length) (n - (b + s.log.length))) := by
  refine (List.perm_ext_iff_of_nodup h.nodup List.nodup_range').mpr fun i => ?_
  rw [List.mem_range'_1, List.mem_map]
  constructor
  · rintro ⟨e, he, rfl⟩
    have hge := h.waiting e he (hunit e he).1
    have hlt := (hunit e he).2
    omega
  · rintro ⟨hi, hn⟩
    obtain ⟨p, hp⟩ := hheard i hi (by omega)
    exact h.opened (i, p) hp hi

/-- A flush then puts them out in order when all of them are announced, or it is one only. -/
theorem InOrder.flush {b n : ℕ} {l : List (ℕ × π)} (h : F.InOrder b n l s) (hf : F.Flushes s s')
    (hunit : ∀ e ∈ s.table, b ≤ e.unit ∧ e.unit < n)
    (hheard : ∀ i, b + s.log.length ≤ i → i < n → ∃ p, (i, p) ∈ l)
    (hrest : (∀ e ∈ s.table, F.announced e = true) ∨ b + s.log.length + 1 = n) :
    ∃ B, s'.log = s.log ++ B ∧ (∀ e ∈ B, e ∈ s.table) ∧
      B.map (·.unit) = List.range' (b + s.log.length) (n - (b + s.log.length)) := by
  have hperm := h.table_perm hunit hheard
  have hone : (∀ e ∈ s.table, F.announced e = true) ∨ s.table.length ≤ 1 := by
    refine hrest.imp_right fun hlast => ?_
    have hlen := hperm.length_eq
    rw [List.length_map, List.length_range'] at hlen
    omega
  obtain ⟨B, hlog, hB, hsorted⟩ := hf.rest h.nodup hone
  refine ⟨B, hlog, fun e he => hB.subset he, ?_⟩
  have hlt : (B.map (·.unit)).Pairwise (· < ·) := List.pairwise_map.mpr hsorted
  exact List.Perm.eq_of_pairwise (fun i j _ _ hij hji => absurd hji (lt_asymm hij)) hlt
    List.pairwise_lt_range' ((hB.map _).trans hperm)

/-! ## Units that are lost -/

/-- A later unit went out before the unit was whole. -/
structure Stranded (F : Feed π) (m : ℕ) (s : Publisher π) : Prop where
  passed : ∃ f ∈ s.log, F.marking f = true ∧ m ≤ f.unit
  log : ∀ e ∈ s.log, e.unit = m → F.whole e = false
  table : ∀ e ∈ s.table, e.unit = m → F.whole e = false

/-- A unit that is stranded stays behind. -/
theorem Stranded.put {m : ℕ} (h : F.Stranded m s) (he : e ∈ s.table) : F.Stranded m (s.put e) where
  passed := by
    obtain ⟨f, hf, hm⟩ := h.passed
    exact ⟨f, List.mem_append_left _ hf, hm⟩
  log := by
    intro f hf
    rcases List.mem_append.mp hf with hf | hf
    · exact h.log f hf
    · rw [List.mem_singleton.mp hf]
      exact h.table e he
  table := fun f hf => h.table f (List.mem_of_mem_filter hf)

theorem Stranded.flushes {m : ℕ} (h : F.Stranded m s) (hf : F.Flushes s s') : F.Stranded m s' := by
  induction hf with
  | done _ => exact h
  | next hn _ ih => exact ih (h.put hn.1)
  | head _ ht _ ih => exact ih (h.put (ht ▸ List.mem_cons_self))

section Lost

variable {l : List (ℕ × π)} {n : ℕ}

/-- No part brings it back. -/
theorem Stranded.takes [DecidableEq π] {m : ℕ} {a : ℕ × π} (h : F.Stranded m s) (hs : F.Sound s)
    (ha : F.Announcing s) (ht : F.Takes s a s') : F.Stranded m s' := by
  have hdrains : ∀ {s₁ s₂ : Publisher π}, F.Drains s₁ s₂ → F.Stranded m s₁ → F.Stranded m s₂ := by
    intro s₁ s₂ hd
    induction hd with
    | stop _ => exact id
    | put hn _ _ ih => exact fun h₁ => ih (h₁.put hn.1)
  cases ht with
  | late _ => exact h
  | fresh hl hd =>
    refine hdrains hd ⟨h.passed, h.log, fun e he hu => ?_⟩
    rcases mem_addPart hs.nodup he with ⟨hmem, -⟩ | ⟨hi, -⟩
    · exact h.table e hmem hu
    · rw [late_iff hs ha, ← hi, hu] at hl
      exact absurd h.passed hl

/-- What is not late is in the table with all that came in of it, and no whole entry waits in
front. -/
structure Books (F : Feed π) (l : List (ℕ × π)) (s : Publisher π) : Prop where
  whole : ∀ e ∈ s.log, F.whole e = true
  held : ∀ e ∈ s.table, ¬ F.Late s e.unit → ∀ q, e.held q = true ↔ (e.unit, q) ∈ l
  opened : ∀ a ∈ l, ¬ F.Late s a.1 → ∃ e ∈ s.table, e.unit = a.1
  heard : ∀ e ∈ s.table, ∃ a ∈ l, a.1 = e.unit

/-- A unit that is late stays late. -/
theorem late_mono (hs : F.Sound s) (ha : F.Announcing s) (hn : F.Next s.table e)
    {i : ℕ} (h : F.Late s i) : F.Late (s.put e) i := by
  have ha' : F.Announcing (s.put e) := by
    intro f hf
    rcases List.mem_append.mp hf with hf | hf
    · exact ha f hf
    · exact List.mem_singleton.mp hf ▸ hn.2.1
  obtain ⟨f, hf, hm⟩ := (late_iff hs ha i).mp h
  exact (late_iff (hs.next hn) ha' i).mpr ⟨f, List.mem_append_left _ hf, hm⟩

/-- What is published is accounted for. -/
theorem Books.drains (h : F.Books l s) (hs : F.Sound s) (ha : F.Announcing s)
    (hm : ∀ e ∈ s.table, F.whole e = true → F.marking e = true) (hd : F.Drains s s') :
    F.Books l s' ∧ ∀ e, F.Next s'.table e → F.whole e = false := by
  induction hd with
  | stop hstop => exact ⟨h, hstop⟩
  | @put s s' e hn hw _ ih =>
    have ha' : F.Announcing (s.put e) := by
      intro f hf
      rcases List.mem_append.mp hf with hf | hf
      · exact ha f hf
      · exact List.mem_singleton.mp hf ▸ hn.2.1
    have hlate : F.Late (s.put e) e.unit :=
      (late_iff (hs.next hn) ha' _).mpr ⟨e, by simp, hm e hn.1 hw, le_rfl⟩
    refine ih ⟨?_, ?_, ?_, fun f hf => h.heard f (List.mem_of_mem_filter hf)⟩ (hs.next hn) ha'
      fun f hf => hm f (List.mem_of_mem_filter hf)
    · intro f hf
      rcases List.mem_append.mp hf with hf | hf
      · exact h.whole f hf
      · exact List.mem_singleton.mp hf ▸ hw
    · exact fun f hf hl => h.held f (List.mem_of_mem_filter hf) (mt (late_mono hs ha hn) hl)
    · intro a hal hl
      obtain ⟨f, hf, hu⟩ := h.opened a hal (mt (late_mono hs ha hn) hl)
      refine ⟨f, ?_, hu⟩
      rw [Publisher.put_table, List.mem_filter, decide_eq_true_eq]
      exact ⟨hf, fun he => hl (hu ▸ he ▸ hlate)⟩

/-- A run accounts for every part that it was fed. -/
theorem Runs.books [DecidableEq π] (hr : F.Runs l s) (hf : F.Fed 0 n l) :
    F.Books l s ∧ ∀ e, F.Next s.table e → F.whole e = false := by
  induction hr with
  | nil => exact ⟨⟨nofun, nofun, nofun, nofun⟩, fun e he => by cases he.1⟩
  | @snoc l s s' a hr ht ih =>
    obtain ⟨h, hquiet⟩ := ih hf.of_append
    obtain ⟨hs, ha⟩ := hr.sound
    have hheard : ∀ e ∈ s.table, ∃ a' ∈ l ++ [a], a'.1 = e.unit := by
      intro e he
      obtain ⟨a', ha', hu⟩ := h.heard e he
      exact ⟨a', List.mem_append_left _ ha', hu⟩
    cases ht with
    | late hl =>
      have hother : ∀ i q, ¬ F.Late s i → ((i, q) ∈ l ↔ (i, q) ∈ l ++ [a]) := by
        intro i q hi
        rw [List.mem_append, List.mem_singleton, or_iff_left]
        rintro rfl
        exact hi hl
      refine ⟨⟨h.whole, fun e he hn q => ?_, fun a' ha' hn => ?_, hheard⟩, hquiet⟩
      · rw [h.held e he hn q]
        exact hother _ _ hn
      · exact h.opened a' ((hother a'.1 a'.2 hn).mpr ha') hn
    | fresh hl hd =>
      have ha' : F.Announcing ⟨addPart a.1 a.2 s.table, s.log⟩ := ha
      have hadd : F.Books (l ++ [a]) ⟨addPart a.1 a.2 s.table, s.log⟩ := {
        whole := h.whole
        held := by
          intro e he hn q
          rw [List.mem_append, List.mem_singleton]
          rcases mem_addPart hs.nodup he with ⟨hmem, hne⟩ | ⟨hu, hq⟩
          · rw [h.held e hmem hn q, or_iff_left]
            exact fun heq => hne (congrArg Prod.fst heq)
          · rw [hq q, or_comm, hu]
            have hnl : ∀ f : Entry π, f.unit = a.1 → ¬ F.Late s f.unit := fun f hfu => by
              rw [hfu]
              exact hl
            refine or_congr ⟨?_, ?_⟩ ⟨fun hqa => by rw [hqa], fun heq => congrArg Prod.snd heq⟩
            · rintro ⟨f, hfm, hfu, hfq⟩
              rw [← hfu]
              exact (h.held f hfm (hnl f hfu) q).mp hfq
            · intro hmem
              obtain ⟨f, hfm, hfu⟩ := h.opened _ hmem hl
              exact ⟨f, hfm, hfu, (h.held f hfm (hnl f hfu) q).mpr (by rw [hfu]; exact hmem)⟩
        opened := by
          intro a' hal hn
          by_cases hu : a'.1 = a.1
          · rw [hu]
            exact exists_mem_addPart ..
          · rcases List.mem_append.mp hal with hal | hal
            · obtain ⟨e, he, heu⟩ := h.opened a' hal hn
              exact ⟨e, mem_addPart_of_ne he (heu ▸ hu), heu⟩
            · exact absurd (congrArg Prod.fst (List.mem_singleton.mp hal)) hu
        heard := by
          intro e he
          rcases mem_addPart hs.nodup he with ⟨hmem, -⟩ | ⟨hu, -⟩
          · exact hheard e hmem
          · exact ⟨a, by simp, hu.symm⟩ }
      refine hadd.drains (hs.addPart ha hl) ha' (fun e he hw => ?_) hd
      obtain ⟨a', hal, hu⟩ := hadd.heard e he
      exact hf.marking e (hu ▸ (hf.unit a' hal).1) hw

theorem Books.stranded [DecidableEq π] (hr : F.Runs l s) (hf : F.Fed 0 n l) {m k : ℕ}
    (hmk : m < k) (hk : k < n) (hm : ¬ F.Arrived l m) (hbefore : ∀ j, j < m → F.Arrived l j)
    (harr : F.Arrived l k) (hnone : ∀ i, m ≤ i → i < k → ¬ F.Heralded l i) : F.Stranded m s := by
  obtain ⟨hs, ha⟩ := hr.sound
  obtain ⟨h, hquiet⟩ := hr.books hf
  have hheld : ∀ e ∈ s.table ++ s.log, F.whole e = true → F.Arrived l e.unit := fun e he hw p hp =>
    hr.held e he p (List.all_eq_true.mp hw p hp)
  refine ⟨?_, fun e he hu => ?_, fun e he hu => ?_⟩
  · by_contra hpass
    rw [← late_iff hs ha] at hpass
    have hlate : ¬ F.Late s k := fun hl => by
      obtain ⟨f, hf', hfm, hkf⟩ := (late_iff hs ha k).mp hl
      exact hpass ((late_iff hs ha m).mpr ⟨f, hf', hfm, by omega⟩)
    obtain ⟨p, hp, hpl⟩ := InOrder.heralded_of_arrived hf hk harr
    obtain ⟨e, he, hu⟩ := h.opened _ hpl hlate
    have hiff := h.held e he (hu ▸ hlate)
    have hann : F.announced e = true := by
      unfold announced
      rw [hu, Option.any_eq_true]
      exact ⟨p, hp, (hiff p).mpr (hu ▸ hpl)⟩
    obtain ⟨f, hfn⟩ := exists_next he hann
    have hle : f.unit ≤ k := (hfn.2.2 e he hann).trans hu.le
    have hher : F.Heralded l f.unit := by
      obtain ⟨q, hq, hqf⟩ := (Option.any_eq_true ..).mp hfn.2.1
      exact ⟨q, hq, hr.held f (List.mem_append_left _ hfn.1) q hqf⟩
    have hfl : ¬ F.Late s f.unit := fun hl => by
      obtain ⟨g, hg, hgm, hfg⟩ := (late_iff hs ha _).mp hl
      exact absurd (hs.above f hfn.1 hfn.2.1 g hg (ha g hg) hgm) (Nat.not_lt.mpr hfg)
    have hfa : F.Arrived l f.unit := by
      by_cases hfk : f.unit = k
      · exact hfk ▸ harr
      · refine hbefore _ ?_
        by_contra hmf
        exact hnone _ (Nat.not_lt.mp hmf) (lt_of_le_of_ne hle hfk) hher
    have hw : F.whole f = true :=
      List.all_eq_true.mpr fun q hq => (h.held f hfn.1 hfl q).mpr (hfa q hq)
    rw [hquiet f hfn] at hw
    cases hw
  · exact absurd (hu ▸ hheld e (List.mem_append_right _ he) (h.whole e he)) hm
  · rw [Bool.eq_false_iff]
    exact fun hw => hm (hu ▸ hheld e (List.mem_append_left _ he) hw)

/-- When a whole unit was ready to go out before an earlier one that was not even announced, the
earlier one is lost. -/
theorem Runs.stranded [DecidableEq π] (hr : F.Runs l s) (hf : F.Fed 0 n l)
    (hp : ¬ F.Patient 0 n l) : ∃ m < n, F.Stranded m s := by
  induction hr with
  | nil =>
    refine absurd (fun l' hl' m k _ _ hk _ _ harr => ?_) hp
    rw [List.prefix_nil.mp hl'] at harr
    obtain ⟨p, -, hp⟩ := InOrder.heralded_of_arrived hf hk harr
    cases hp
  | @snoc l s s' a hr ht ih =>
    by_cases hpl : F.Patient 0 n l
    · unfold Patient at hp
      push Not at hp
      obtain ⟨l', hl', m, k, -, hmk, hk, hm, hbefore, harr, hnone⟩ := hp
      rcases List.prefix_concat_iff.mp hl' with rfl | hl'
      · exact ⟨m, hmk.trans hk, Books.stranded (hr.snoc ht) hf hmk hk hm
          (fun j hj => hbefore j (Nat.zero_le j) hj) harr hnone⟩
      · obtain ⟨i, hmi, hik, hher⟩ := hpl l' hl' m k (Nat.zero_le m) hmk hk hm hbefore harr
        exact absurd hher (hnone i hmi hik)
    · obtain ⟨m, hm, hstr⟩ := ih hf.of_append hpl
      exact ⟨m, hm, hstr.takes hr.sound.1 hr.sound.2 ht⟩

end Lost

end Feed

end QCrate.Lib
