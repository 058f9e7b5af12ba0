import QCrate.Receiver.Order

/-!
# The receiver: the ranges of missing sequences

`find_missing_ranges` walks over the values that are present, in order, and never over the
interval itself.

* `Gaps` — the gaps that a set of values leaves in an interval, as ranges.
* `MissingScan.Dealt.step` — a value extends the interval that has been dealt with.
* `findMissingRanges_gaps` — what is returned are the gaps of the interval.
-/

namespace QCrate.Receiver

open QCrate.Lib

/-- The ranges, in order and with something present between any two, are what is missing of
`[first, bound)`, and `count` is how much. -/
structure Gaps (present : List ℕ) (first bound : ℕ) (ranges : List (ℕ × ℕ)) (count : ℕ) : Prop where
  nonempty : ∀ r ∈ ranges, r.1 ≤ r.2
  apart : ranges.Pairwise fun r r' => r.2 + 1 < r'.1
  covers : ∀ v, (∃ r ∈ ranges, r.1 ≤ v ∧ v ≤ r.2) ↔ first ≤ v ∧ v < bound ∧ v ∉ present
  count_eq : count = ((Finset.Ico first bound).filter (· ∉ present)).card

variable {present : List ℕ} {first last bound count : ℕ} {ranges : List (ℕ × ℕ)}

theorem gaps_nil (h : bound ≤ first) : Gaps present first bound [] 0 where
  nonempty := by simp
  apart := List.Pairwise.nil
  covers := by
    intro v
    simp only [List.not_mem_nil, false_and, exists_false, false_iff]
    omega
  count_eq := by rw [Finset.Ico_eq_empty (by omega), Finset.filter_empty, Finset.card_empty]

/-- A value that is present adds nothing. -/
theorem Gaps.skip (h : Gaps present first bound ranges count) (hb : bound ∈ present) :
    Gaps present first (bound + 1) ranges count where
  nonempty := h.nonempty
  apart := h.apart
  covers := by
    intro v
    rw [h.covers v]
    constructor
    · rintro ⟨h₁, h₂, h₃⟩
      exact ⟨h₁, by omega, h₃⟩
    · rintro ⟨h₁, h₂, h₃⟩
      refine ⟨h₁, Nat.lt_of_le_of_ne (Nat.le_of_lt_succ h₂) ?_, h₃⟩
      rintro rfl
      exact h₃ hb
  count_eq := by
    rw [h.count_eq]
    congr 1
    ext v
    simp only [Finset.mem_filter, Finset.mem_Ico]
    constructor
    · rintro ⟨⟨h₁, h₂⟩, h₃⟩
      exact ⟨⟨h₁, by omega⟩, h₃⟩
    · rintro ⟨⟨h₁, h₂⟩, h₃⟩
      refine ⟨⟨h₁, Nat.lt_of_le_of_ne (Nat.le_of_lt_succ h₂) ?_⟩, h₃⟩
      rintro rfl
      exact h₃ hb

/-- Values that are all missing make one more range. -/
theorem Gaps.extend (h : Gaps present first bound ranges count) (hfirst : first ≤ bound)
    (hbehind : ∀ r ∈ ranges, r.2 + 1 < bound) {stop : ℕ} (hlt : bound ≤ stop)
    (hmissing : ∀ v, bound ≤ v → v ≤ stop → v ∉ present) :
    Gaps present first (stop + 1) (ranges ++ [(bound, stop)]) (count + (stop + 1 - bound)) where
  nonempty := by
    intro r hr
    rcases List.mem_append.mp hr with hr | hr
    · exact h.nonempty r hr
    · cases List.mem_singleton.mp hr
      exact hlt
  apart := by
    rw [List.pairwise_append]
    refine ⟨h.apart, List.pairwise_singleton .., fun r hr r' hr' => ?_⟩
    cases List.mem_singleton.mp hr'
    exact hbehind r hr
  covers := by
    intro v
    simp only [List.mem_append, List.mem_singleton, or_and_right, exists_or, exists_eq_left,
      h.covers v]
    constructor
    · rintro (⟨h₁, h₂, h₃⟩ | ⟨h₁, h₂⟩)
      · exact ⟨h₁, by omega, h₃⟩
      · exact ⟨by omega, by omega, hmissing v h₁ h₂⟩
    · rintro ⟨h₁, h₂, h₃⟩
      by_cases hv : v < bound
      · exact .inl ⟨h₁, hv, h₃⟩
      · exact .inr ⟨by omega, by omega⟩
  count_eq := by
    have hsplit : (Finset.Ico first (stop + 1)).filter (· ∉ present) =
        (Finset.Ico first bound).filter (· ∉ present) ∪ Finset.Ico bound (stop + 1) := by
      ext v
      simp only [Finset.mem_union, Finset.mem_filter, Finset.mem_Ico]
      constructor
      · rintro ⟨⟨h₁, h₂⟩, h₃⟩
        by_cases hv : v < bound
        · exact .inl ⟨⟨h₁, hv⟩, h₃⟩
        · exact .inr ⟨by omega, h₂⟩
      · rintro (⟨⟨h₁, h₂⟩, h₃⟩ | ⟨h₁, h₂⟩)
        · exact ⟨⟨h₁, by omega⟩, h₃⟩
        · exact ⟨⟨by omega, h₂⟩, hmissing v h₁ (by omega)⟩
    have hdisjoint : Disjoint ((Finset.Ico first bound).filter (· ∉ present))
        (Finset.Ico bound (stop + 1)) :=
      (Finset.Ico_disjoint_Ico_consecutive first bound (stop + 1)).mono_left
        (Finset.filter_subset ..)
    rw [hsplit, Finset.card_union_of_disjoint hdisjoint, Nat.card_Ico, h.count_eq]

/-- The scan has dealt with `[first, cursor)`. -/
structure MissingScan.Dealt (present : List ℕ) (first last : ℕ) (s : MissingScan) : Prop where
  gaps : Gaps present first s.cursor s.ranges s.count
  behind : ∀ r ∈ s.ranges, r.2 + 1 < s.cursor
  first_le : first ≤ s.cursor
  le_last : s.cursor ≤ last + 1

variable {s : MissingScan}

/-- A value extends what has been dealt with, when nothing from the cursor up to it is present. -/
theorem MissingScan.Dealt.step {value : ℕ} (h : s.Dealt present first last)
    (hvalue : value ∈ present)
    (hcursor : first ≤ value → s.cursor ≤ value)
    (hbetween : ∀ v ∈ present, s.cursor ≤ v → first ≤ v → v ≤ last → value ≤ v) :
    (MissingScan.step first last s value).Dealt present first last := by
  unfold MissingScan.step
  by_cases hout : value < first ∨ last < value
  · rw [if_pos hout]
    exact h
  · rw [if_neg hout]
    have hle : s.cursor ≤ value := hcursor (by omega)
    have hmax : max s.cursor (value + 1) = value + 1 := by omega
    by_cases hgap : s.cursor < value
    · simp only [if_pos hgap, hmax]
      have hextend : Gaps present first (value - 1 + 1) (s.ranges ++ [(s.cursor, value - 1)])
          (s.count + (value - 1 + 1 - s.cursor)) := by
        refine h.gaps.extend h.first_le h.behind (by omega) fun v hv hstop hmem => ?_
        have := hbetween v hmem hv (h.first_le.trans hv) (by omega)
        omega
      -- the gap ends just before the value, which is present itself
      rw [Nat.sub_add_cancel (by omega : 1 ≤ value)] at hextend
      refine ⟨hextend.skip hvalue, fun r hr => ?_, ?_, ?_⟩
      · show r.2 + 1 < value + 1
        rcases List.mem_append.mp hr with hr | hr
        · have := h.behind r hr
          omega
        · cases List.mem_singleton.mp hr
          show value - 1 + 1 < value + 1
          omega
      · show first ≤ value + 1
        omega
      · show value + 1 ≤ last + 1
        omega
    · obtain rfl : s.cursor = value := by omega
      simp only [if_neg hgap, hmax]
      exact ⟨h.gaps.skip hvalue, fun r hr => (h.behind r hr).trans (Nat.lt_succ_self _),
        h.first_le.trans (Nat.le_succ _), Nat.succ_le_succ (Nat.not_lt.mp (not_or.mp hout).2)⟩

/-- The scan over what is left of the sorted values. -/
theorem MissingScan.Dealt.foldl {l : List ℕ} (hl : l.Pairwise (· < ·))
    (hmem : ∀ v ∈ l, v ∈ present) (h : s.Dealt present first last)
    (hcursor : ∀ v ∈ l, first ≤ v → s.cursor ≤ v)
    (hleft : ∀ v ∈ present, s.cursor ≤ v → v ≤ last → v ∈ l) :
    (l.foldl (MissingScan.step first last) s).Dealt present first last ∧
      ∀ v ∈ present, (l.foldl (MissingScan.step first last) s).cursor ≤ v → last < v := by
  induction l generalizing s with
  | nil =>
    refine ⟨h, fun v hv hle => ?_⟩
    by_contra hlast
    exact List.not_mem_nil (hleft v hv hle (Nat.not_lt.mp hlast))
  | cons value l ih =>
    obtain ⟨hvalue, hl⟩ := List.pairwise_cons.mp hl
    have hstep : (MissingScan.step first last s value).Dealt present first last := by
      refine h.step (hmem value List.mem_cons_self) (hcursor value List.mem_cons_self) ?_
      intro v hv hge _ hle
      rcases List.mem_cons.mp (hleft v hv hge hle) with rfl | hvl
      · exact le_rfl
      · exact (hvalue v hvl).le
    -- a value outside the interval leaves the cursor where it is
    have hcur : (MissingScan.step first last s value).cursor =
        if value < first ∨ last < value then s.cursor else value + 1 := by
      have := hcursor value List.mem_cons_self
      unfold MissingScan.step
      split
      · rfl
      · split <;> dsimp only <;> omega
    refine ih hl (fun v hv => hmem v (List.mem_cons_of_mem _ hv)) hstep ?_ ?_
    · intro v hv hge
      have h₁ := hcursor v (List.mem_cons_of_mem _ hv) hge
      have h₂ := hvalue v hv
      rw [hcur]
      split <;> omega
    · intro v hv hge hle
      have hcursor' := hcursor value List.mem_cons_self
      have hfirst := h.first_le
      rw [hcur] at hge
      have hne : v ≠ value := by
        split at hge <;> omega
      have hge' : s.cursor ≤ v := by
        split at hge <;> omega
      exact (List.mem_cons.mp (hleft v hv hge' hle)).resolve_left hne

/-- The ranges returned are nonempty and lie apart in increasing order, they make up the interval
without what is present, and the count is their size. -/
theorem findMissingRanges_gaps (first last : ℕ) (present : List ℕ) :
    Gaps present first (last + 1) (findMissingRanges first last present).2
      (findMissingRanges first last present).1 := by
  unfold findMissingRanges
  by_cases hempty : last < first
  · rw [if_pos hempty]
    exact gaps_nil hempty
  · rw [if_neg hempty]
    have hsorted := pairwise_lt_insertionSort (List.nodup_dedup present)
    have hmem : ∀ v, v ∈ present.dedup.insertionSort (· ≤ ·) ↔ v ∈ present := by simp
    have hstart : MissingScan.Dealt present first last ⟨first, 0, []⟩ :=
      ⟨gaps_nil le_rfl, by simp, le_rfl, Nat.le_succ_of_le (Nat.not_lt.mp hempty)⟩
    obtain ⟨hdealt, htail⟩ := hstart.foldl hsorted (fun v hv => (hmem v).mp hv)
      (fun v _ hv => hv) fun v hv _ _ => (hmem v).mpr hv
    dsimp only
    split
    · -- what is left behind the last value is one more range
      next hle =>
      have hextend := hdealt.gaps.extend hdealt.first_le hdealt.behind hle fun v hv hle hvp =>
        absurd (htail v hvp hv) (Nat.not_lt.mpr hle)
      rwa [Nat.succ_sub hle] at hextend
    · next hle =>
      have hgaps := hdealt.gaps
      rwa [le_antisymm hdealt.le_last (Nat.not_le.mp hle)] at hgaps

end QCrate.Receiver
