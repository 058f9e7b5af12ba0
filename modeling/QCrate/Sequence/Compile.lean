import QCrate.Host.Profile
import QCrate.Lib.Sorting
import QCrate.Sequence.Image

/-!
# The sequence compiler

`compile_document` of `qcrate_sequence.py`: the pulses of a document are read, checked channel by
channel, and merged into events through the set and clear masks of each tick.

* `readDocument`, `checkOverlaps` — the checks.
* `mergeEvents` — the changes and the events.
* `stateOf_le` — the changes up to a tick leave the channels high that are inside a pulse there.
* `compile_meaning` — the events say what the pulses say.
-/

namespace QCrate.Sequence

open QCrate.Lib
open QCrate.Host (Json Fields)

/-! ## Documents -/

/-- A `SequenceError` of the compiler, or one of `validate_events`. -/
inductive CompileError where
  | document (message : String)
  | events (e : SequenceError)
  deriving DecidableEq, Repr

def uint64Max : ℕ := 2 ^ 64 - 1

/-- `JSON_FORMAT` -/
def jsonFormat : String := "qcrate-sequence-v1"

/-- One pulse: `(start, end, index)` in the list of its channel. -/
structure Pulse where
  channel : ℕ
  start : ℕ
  stop : ℕ
  index : ℕ
  deriving DecidableEq, Repr

/-- `_check_keys` -/
def checkKeys (value : Fields) (required optional : List String) (context : String) :
    Except CompileError Unit :=
  let keys := value.map Prod.fst
  let missing := (required.filter fun key => key ∉ keys).insertionSort (· ≤ ·)
  let unknown := (keys.filter fun key => key ∉ required ∧ key ∉ optional).insertionSort (· ≤ ·)
  if missing ≠ [] then
    .error (.document (context ++ " is missing: " ++ ", ".intercalate missing))
  else if unknown ≠ [] then
    .error (.document (context ++ " has unknown keys: " ++ ", ".intercalate unknown))
  else .ok ()

/-- `_uint` -/
def uint (value : Json) (maximum : ℕ) (context : String) : Except CompileError ℕ :=
  match value with
  | .int n =>
    if n < 0 ∨ (maximum : ℤ) < n then
      .error (.document (context ++ " must be between 0 and " ++ toString maximum))
    else .ok n.toNat
  | _ => .error (.document (context ++ " must be an integer"))

/-- The optional name is a string. -/
def checkName (value : Fields) (context : String) : Except CompileError Unit :=
  match value.lookup "name" with
  | none => .ok ()
  | some (.str _) => .ok ()
  | some _ => .error (.document (context ++ ".name must be a string"))

/-- One turn of the loop over the pulses. -/
def readPulse (index : ℕ) (pulse : Json) : Except CompileError Pulse :=
  let context := "pulse[" ++ toString index ++ "]"
  match pulse with
  | .obj fields => do
    checkKeys fields ["channel", "start_tick", "duration_ticks"] ["name"] context
    checkName fields context
    let channel ← uint (Fields.get fields "channel") 1 (context ++ ".channel")
    let start ← uint (Fields.get fields "start_tick") uint64Max (context ++ ".start_tick")
    let duration ←
      uint (Fields.get fields "duration_ticks") uint64Max (context ++ ".duration_ticks")
    if duration = 0 then
      .error (.document (context ++ ".duration_ticks must be nonzero"))
    else if uint64Max - start < duration then
      .error (.document (context ++ " end timestamp exceeds 64 bits"))
    else .ok ⟨channel, start, start + duration, index⟩
  | _ => .error (.document (context ++ " must be an object"))

/-- The loop over the pulses. -/
def readPulses : ℕ → List Json → Except CompileError (List Pulse)
  | _, [] => .ok []
  | index, pulse :: rest => do
    let p ← readPulse index pulse
    let ps ← readPulses (index + 1) rest
    return p :: ps

/-- `compile_document` up to the loop over the pulses. -/
def readDocument (document : Fields) : Except CompileError (List Pulse) := do
  checkKeys document ["format", "tick_hz", "pulses"] ["name"] "sequence"
  match Fields.get document "format" with
  | .str format =>
    if format ≠ jsonFormat then
      .error (.document ("sequence format must be '" ++ jsonFormat ++ "'"))
    else do
      checkName document "sequence"
      let tick ← uint (Fields.get document "tick_hz") uint64Max "tick_hz"
      if tick ≠ tickHz then .error (.document ("tick_hz must be " ++ toString tickHz))
      else
        match Fields.get document "pulses" with
        | .arr (pulse :: pulses) => readPulses 0 (pulse :: pulses)
        | _ => .error (.document "pulses must be a non-empty array")
  | _ => .error (.document ("sequence format must be '" ++ jsonFormat ++ "'"))

/-! ## Channels -/

/-- Tuples compare by start, end and index. -/
def pulseLe (p q : Pulse) : Prop :=
  p.start < q.start ∨ (p.start = q.start ∧
    (p.stop < q.stop ∨ (p.stop = q.stop ∧ p.index ≤ q.index)))

instance : DecidableRel pulseLe := fun _ _ => inferInstanceAs (Decidable (_ ∨ _))

/-- The sorted intervals of a channel. -/
def channelPulses (pulses : List Pulse) (channel : ℕ) : List Pulse :=
  (pulses.filter (·.channel = channel)).insertionSort pulseLe

/-- The loop over the intervals of a channel, with the pulse before. -/
def checkOverlaps (channel : ℕ) : Option Pulse → List Pulse → Except CompileError Unit
  | _, [] => .ok ()
  | none, p :: rest => checkOverlaps channel (some p) rest
  | some previous, p :: rest =>
    if p.start < previous.stop then
      .error (.document ("pulse[" ++ toString p.index ++ "] overlaps pulse[" ++
        toString previous.index ++ "] on channel " ++ toString channel))
    else checkOverlaps channel (some p) rest

/-- The loop over both channels. -/
def checkChannels (pulses : List Pulse) : Except CompileError Unit := do
  checkOverlaps 0 none (channelPulses pulses 0)
  checkOverlaps 1 none (channelPulses pulses 1)

/-! ## Changes -/

/-- The masks of a tick. -/
structure Masks where
  clear : BitVec 32 := 0
  set : BitVec 32 := 0
  deriving DecidableEq, Repr

/-- The dictionary from ticks to masks. -/
abbrev Changes := List (ℕ × Masks)

namespace Changes

def get (changes : Changes) (tick : ℕ) : Masks := (changes.lookup tick).getD {}

def put (changes : Changes) (tick : ℕ) (masks : Masks) : Changes :=
  (tick, masks) :: changes.filter (·.1 ≠ tick)

/-- The changes of one pulse. -/
def mark (bit : BitVec 32) (changes : Changes) (p : Pulse) : Changes :=
  let changes := put changes p.start
    { get changes p.start with set := (get changes p.start).set ||| bit }
  put changes p.stop { get changes p.stop with clear := (get changes p.stop).clear ||| bit }

end Changes

/-- `1 << channel` -/
def channelBit (channel : ℕ) : BitVec 32 := (1 : BitVec 32) <<< channel

/-- The loops over the channels and their intervals. -/
def changesOf (pulses : List Pulse) : Changes :=
  (channelPulses pulses 1).foldl (Changes.mark (channelBit 1))
    ((channelPulses pulses 0).foldl (Changes.mark (channelBit 0)) [])

/-- The state after a tick. -/
def nextState (masks : Masks) (state : BitVec 32) : BitVec 32 :=
  (state &&& ~~~masks.clear) ||| masks.set

/-- The loop over the sorted ticks. -/
def mergeLoop (changes : Changes) : List ℕ → BitVec 32 → List Event
  | [], _ => []
  | tick :: rest, state =>
    let next := nextState (Changes.get changes tick) state
    if next ≠ state then ⟨BitVec.ofNat 64 tick, next, 0⟩ :: mergeLoop changes rest next
    else mergeLoop changes rest next

/-- The merged events of checked pulses. -/
def mergeEvents (pulses : List Pulse) : List Event :=
  mergeLoop (changesOf pulses) (((changesOf pulses).map Prod.fst).insertionSort (· ≤ ·)) 0

/-- `compile_document` -/
def compileDocument (document : Fields) : Except CompileError (List Event) := do
  let pulses ← readDocument document
  checkChannels pulses
  let events := mergeEvents pulses
  match validateEvents events with
  | .error e => .error (.events e)
  | .ok () => .ok events

/-! ## Masks -/

namespace Changes

/-- To drop one tick leaves the others. -/
theorem lookup_filter (changes : Changes) (tick tick' : ℕ) (h : tick' ≠ tick) :
    (changes.filter (·.1 ≠ tick)).lookup tick' = changes.lookup tick' := by
  induction changes with
  | nil => rfl
  | cons c changes ih =>
    obtain ⟨t, m⟩ := c
    by_cases ht : t = tick
    · subst ht
      rw [List.filter_cons_of_neg (by simp), ih, List.lookup_cons, beq_false_of_ne h]
    · rw [List.filter_cons_of_pos (by simpa using ht), List.lookup_cons, List.lookup_cons, ih]

/-- A tick that is set has its masks, and the others have theirs. -/
theorem get_put (changes : Changes) (tick : ℕ) (masks : Masks) (t : ℕ) :
    (changes.put tick masks).get t = if t = tick then masks else changes.get t := by
  rw [get, put, List.lookup_cons]
  by_cases ht : t = tick
  · rw [if_pos ht, beq_iff_eq.mpr ht]
    rfl
  · rw [if_neg ht, beq_false_of_ne ht, lookup_filter _ _ _ ht]
    rfl

theorem mem_keys_put (changes : Changes) (tick : ℕ) (masks : Masks) (t : ℕ) :
    t ∈ (changes.put tick masks).map Prod.fst ↔ t = tick ∨ t ∈ changes.map Prod.fst := by
  rw [put, List.map_cons, List.mem_cons]
  by_cases ht : t = tick
  · simp [ht]
  · simp [ht]

/-- A tick is there once. -/
theorem nodup_put {changes : Changes} (h : (changes.map Prod.fst).Nodup) (tick : ℕ)
    (masks : Masks) : ((changes.put tick masks).map Prod.fst).Nodup := by
  rw [put, List.map_cons, List.nodup_cons]
  refine ⟨by simp, ?_⟩
  exact h.sublist (List.filter_sublist.map _)

/-- A tick without changes has empty masks. -/
theorem get_of_not_mem {changes : Changes} {t : ℕ} (h : t ∉ changes.map Prod.fst) :
    changes.get t = {} := by
  have hnone : changes.lookup t = none := by
    rw [List.lookup_eq_none_iff]
    rintro ⟨t', m⟩ hm
    have hne : t ≠ t' := fun heq => h (heq ▸ List.mem_map_of_mem hm)
    exact bne_iff_ne.mpr hne
  rw [get, hnone]
  rfl

/-! ### The changes of the pulses -/

/-- A pulse sets its channel at its start. -/
theorem set_mark (bit : BitVec 32) (changes : Changes) (p : Pulse) (t b : ℕ) :
    ((mark bit changes p).get t).set.getLsbD b =
      ((changes.get t).set.getLsbD b || (bit.getLsbD b && decide (p.start = t))) := by
  simp only [mark, get_put]
  by_cases hstop : t = p.stop
  · rw [if_pos hstop, ← hstop]
    by_cases hstart : t = p.start
    · simp [hstart]
    · simp [hstart, Ne.symm hstart]
  · rw [if_neg hstop]
    by_cases hstart : t = p.start
    · simp [hstart]
    · simp [hstart, Ne.symm hstart]

/-- And clears it at its stop. -/
theorem clear_mark (bit : BitVec 32) (changes : Changes) (p : Pulse) (t b : ℕ) :
    ((mark bit changes p).get t).clear.getLsbD b =
      ((changes.get t).clear.getLsbD b || (bit.getLsbD b && decide (p.stop = t))) := by
  simp only [mark, get_put]
  by_cases hstop : t = p.stop
  · rw [if_pos hstop, ← hstop]
    by_cases hstart : t = p.start
    · simp [hstart]
    · simp [hstart]
  · rw [if_neg hstop]
    by_cases hstart : t = p.start
    · simp [hstart, Ne.symm (hstart ▸ hstop)]
    · simp [hstart, Ne.symm hstop]

/-- Over many pulses, the channel is set at the start of each. -/
theorem set_foldl (bit : BitVec 32) (l : List Pulse) (changes : Changes) (t b : ℕ) :
    ((l.foldl (mark bit) changes).get t).set.getLsbD b =
      ((changes.get t).set.getLsbD b || (bit.getLsbD b && l.any (·.start = t))) := by
  induction l generalizing changes with
  | nil => simp
  | cons p l ih => rw [List.foldl_cons, ih, set_mark, List.any_cons, Bool.and_or_distrib_left,
      Bool.or_assoc]

/-- And cleared at the stop of each. -/
theorem clear_foldl (bit : BitVec 32) (l : List Pulse) (changes : Changes) (t b : ℕ) :
    ((l.foldl (mark bit) changes).get t).clear.getLsbD b =
      ((changes.get t).clear.getLsbD b || (bit.getLsbD b && l.any (·.stop = t))) := by
  induction l generalizing changes with
  | nil => simp
  | cons p l ih => rw [List.foldl_cons, ih, clear_mark, List.any_cons, Bool.and_or_distrib_left,
      Bool.or_assoc]

theorem nodup_foldl (bit : BitVec 32) (l : List Pulse) {changes : Changes}
    (h : (changes.map Prod.fst).Nodup) :
    ((l.foldl (mark bit) changes).map Prod.fst).Nodup := by
  induction l generalizing changes with
  | nil => exact h
  | cons p l ih => exact ih (nodup_put (nodup_put h _ _) _ _)

/-- There are changes at the starts and the stops alone. -/
theorem mem_keys_foldl (bit : BitVec 32) (l : List Pulse) (changes : Changes) (t : ℕ) :
    t ∈ (l.foldl (mark bit) changes).map Prod.fst ↔
      t ∈ changes.map Prod.fst ∨ ∃ p ∈ l, t = p.start ∨ t = p.stop := by
  induction l generalizing changes with
  | nil => simp
  | cons p l ih =>
    rw [List.foldl_cons, ih, mark, mem_keys_put, mem_keys_put]
    simp only [List.mem_cons, exists_eq_or_imp]
    grind

end Changes

theorem mem_channelPulses {pulses : List Pulse} {channel : ℕ} {p : Pulse} :
    p ∈ channelPulses pulses channel ↔ p ∈ pulses ∧ p.channel = channel := by
  rw [channelPulses, (List.perm_insertionSort _ _).mem_iff]
  simp

/-! ## Disjoint intervals -/

/-- A pulse that `readPulse` accepts. -/
structure Pulse.InRange (p : Pulse) : Prop where
  channel : p.channel ≤ 1
  length : p.start < p.stop
  stop : p.stop < 2 ^ 64

/-- Pulses that pass the loop come one after the other. -/
theorem checkOverlaps_ok {channel : ℕ} {l : List Pulse} (hrange : ∀ p ∈ l, p.InRange)
    (prev : Option Pulse) (h : checkOverlaps channel prev l = .ok ()) :
    (∀ q, prev = some q → ∀ p ∈ l, q.stop ≤ p.start) ∧
      l.Pairwise fun p q => p.stop ≤ q.start := by
  induction l generalizing prev with
  | nil => simp
  | cons p l ih =>
    have hp := (hrange p List.mem_cons_self).length
    have hrange' : ∀ q ∈ l, q.InRange := fun q hq => hrange q (List.mem_cons_of_mem _ hq)
    -- the rest of the loop runs with `p` as the pulse before
    have hrest : checkOverlaps channel (some p) l = .ok () ∧
        ∀ q, prev = some q → q.stop ≤ p.start := by
      cases prev with
      | none => exact ⟨h, by simp⟩
      | some q =>
        rw [checkOverlaps] at h
        split_ifs at h with hlt
        refine ⟨h, ?_⟩
        rintro q' ⟨rfl⟩
        omega
    obtain ⟨hfirst, hpair⟩ := ih hrange' (some p) hrest.1
    refine ⟨?_, List.pairwise_cons.mpr ⟨hfirst p rfl, hpair⟩⟩
    intro q hq r hr
    rcases List.mem_cons.mp hr with rfl | hr
    · exact hrest.2 q hq
    · have h1 := hrest.2 q hq
      have h2 := hfirst p rfl r hr
      omega

/-- The channel is inside one of its pulses at tick `t`. -/
def High (pulses : List Pulse) (channel t : ℕ) : Prop :=
  ∃ p ∈ pulses, p.channel = channel ∧ p.start ≤ t ∧ t < p.stop

/-- The channel was inside one of its pulses before tick `t`. -/
def HighBefore (pulses : List Pulse) (channel t : ℕ) : Prop :=
  ∃ p ∈ pulses, p.channel = channel ∧ p.start < t ∧ t ≤ p.stop

/-- One of two pulses ends before the other starts. -/
def Apart (p q : Pulse) : Prop := p.stop ≤ q.start ∨ q.stop ≤ p.start

instance : Std.Symm Apart := ⟨fun _ _ => Or.symm⟩

/-- Pulses of one channel do not overlap. -/
def Disjoint (pulses : List Pulse) : Prop :=
  ∀ p ∈ pulses, ∀ q ∈ pulses, p.channel = q.channel → p ≠ q → Apart p q

/-- So no two pulses of a channel overlap. -/
theorem checkChannels_ok {pulses : List Pulse} (hrange : ∀ p ∈ pulses, p.InRange)
    (h : checkChannels pulses = .ok ()) : Disjoint pulses := by
  have hchannel : ∀ channel ≤ 1, checkOverlaps channel none (channelPulses pulses channel) =
      .ok () := by
    unfold checkChannels at h
    intro channel hle
    cases h0 : checkOverlaps 0 none (channelPulses pulses 0) with
    | error e =>
      rw [h0] at h
      cases h
    | ok u =>
      rw [h0] at h
      interval_cases channel
      · exact h0
      · exact h
  intro p hp q hq hpq
  have hpair := (checkOverlaps_ok (fun r hr => hrange r (mem_channelPulses.mp hr).1) none
    (hchannel p.channel (hrange p hp).channel)).2
  have hapart : (channelPulses pulses p.channel).Pairwise Apart := hpair.imp Or.inl
  exact hapart.forall (mem_channelPulses.mpr ⟨hp, rfl⟩) (mem_channelPulses.mpr ⟨hq, hpq.symm⟩)

/-- A tick starts the pulses that begin at it and ends the others that end at it. -/
theorem high_iff {pulses : List Pulse} (hrange : ∀ p ∈ pulses, p.InRange)
    (hdis : Disjoint pulses) (channel t : ℕ) :
    High pulses channel t ↔
      (HighBefore pulses channel t ∧ ¬∃ p ∈ pulses, p.channel = channel ∧ p.stop = t) ∨
        ∃ p ∈ pulses, p.channel = channel ∧ p.start = t := by
  constructor
  · rintro ⟨p, hp, hc, hstart, hstop⟩
    rcases Nat.lt_or_eq_of_le hstart with hlt | heq
    · refine Or.inl ⟨⟨p, hp, hc, hlt, hstop.le⟩, ?_⟩
      rintro ⟨q, hq, hqc, hqt⟩
      have hlen := (hrange q hq).length
      have hne : p ≠ q := fun heq => by rw [heq, hqt] at hstop; exact absurd hstop (lt_irrefl t)
      rcases hdis p hp q hq (hc.trans hqc.symm) hne with h | h <;> omega
    · exact Or.inr ⟨p, hp, hc, heq⟩
  · rintro (⟨⟨p, hp, hc, hstart, hstop⟩, hno⟩ | ⟨p, hp, hc, heq⟩)
    · have hne : p.stop ≠ t := fun heq => hno ⟨p, hp, hc, heq⟩
      exact ⟨p, hp, hc, hstart.le, by omega⟩
    · have hlen := (hrange p hp).length
      exact ⟨p, hp, hc, heq.le, by omega⟩

/-- Before the next tick a channel is as it was at this one. -/
theorem highBefore_succ (pulses : List Pulse) (channel t : ℕ) :
    HighBefore pulses channel (t + 1) ↔ High pulses channel t := by
  simp only [HighBefore, High, Nat.lt_succ_iff, Nat.succ_le_iff]

/-! ## The state after the changes -/

/-- The bit of a channel is the channel's alone. -/
theorem channelBit_getLsbD (channel b : ℕ) (h : channel ≤ 1) :
    (channelBit channel).getLsbD b = decide (b = channel) := by
  have hone : ∀ i, (1 : BitVec 32).getLsbD i = decide (i = 0) := fun i => BitVec.getLsbD_one
  rw [channelBit, BitVec.getLsbD_shiftLeft, hone]
  by_cases hb : b = channel
  · simp [hb, show channel < 32 by omega]
  · simp only [hb, decide_false]
    rw [Bool.and_eq_false_iff]
    by_cases hlt : b < channel
    · exact Or.inl (by simp [hlt])
    · exact Or.inr (by simp; omega)

theorem any_channelPulses (pulses : List Pulse) (channel : ℕ) (f : Pulse → ℕ) (t : ℕ) :
    (channelPulses pulses channel).any (fun p => decide (f p = t)) = true ↔
      ∃ p ∈ pulses, p.channel = channel ∧ f p = t := by
  simp [List.any_eq_true, mem_channelPulses, and_assoc]

/-- A bit is set where a pulse of its channel starts. -/
theorem changesOf_set {pulses : List Pulse} (hrange : ∀ p ∈ pulses, p.InRange) (t b : ℕ) :
    ((changesOf pulses).get t).set.getLsbD b = true ↔
      ∃ p ∈ pulses, p.channel = b ∧ p.start = t := by
  rw [changesOf, Changes.set_foldl, Changes.set_foldl, channelBit_getLsbD 0 b (by omega),
    channelBit_getLsbD 1 b le_rfl, Bool.or_eq_true, Bool.or_eq_true, Bool.and_eq_true,
    Bool.and_eq_true, any_channelPulses, any_channelPulses]
  constructor
  · rintro ((h | ⟨hb, h⟩) | ⟨hb, h⟩)
    · exact absurd h (by simp [Changes.get])
    · rwa [of_decide_eq_true hb]
    · rwa [of_decide_eq_true hb]
  · rintro ⟨p, hp, hc, ht⟩
    have hle := (hrange p hp).channel
    rcases Nat.le_one_iff_eq_zero_or_eq_one.mp (hc ▸ hle) with rfl | rfl
    · exact Or.inl (Or.inr ⟨rfl, p, hp, hc, ht⟩)
    · exact Or.inr ⟨rfl, p, hp, hc, ht⟩

/-- It is cleared where one stops. -/
theorem changesOf_clear {pulses : List Pulse} (hrange : ∀ p ∈ pulses, p.InRange) (t b : ℕ) :
    ((changesOf pulses).get t).clear.getLsbD b = true ↔
      ∃ p ∈ pulses, p.channel = b ∧ p.stop = t := by
  rw [changesOf, Changes.clear_foldl, Changes.clear_foldl, channelBit_getLsbD 0 b (by omega),
    channelBit_getLsbD 1 b le_rfl, Bool.or_eq_true, Bool.or_eq_true, Bool.and_eq_true,
    Bool.and_eq_true, any_channelPulses, any_channelPulses]
  constructor
  · rintro ((h | ⟨hb, h⟩) | ⟨hb, h⟩)
    · exact absurd h (by simp [Changes.get])
    · rwa [of_decide_eq_true hb]
    · rwa [of_decide_eq_true hb]
  · rintro ⟨p, hp, hc, ht⟩
    have hle := (hrange p hp).channel
    rcases Nat.le_one_iff_eq_zero_or_eq_one.mp (hc ▸ hle) with rfl | rfl
    · exact Or.inl (Or.inr ⟨rfl, p, hp, hc, ht⟩)
    · exact Or.inr ⟨rfl, p, hp, hc, ht⟩

/-- A bit that is set and cleared at one tick is set. -/
theorem nextState_getLsbD (masks : Masks) (state : BitVec 32) (b : ℕ) :
    (nextState masks state).getLsbD b = true ↔
      (state.getLsbD b = true ∧ masks.clear.getLsbD b = false) ∨ masks.set.getLsbD b = true := by
  rw [nextState, BitVec.getLsbD_or, BitVec.getLsbD_and, BitVec.getLsbD_not, Bool.or_eq_true,
    Bool.and_eq_true, Bool.and_eq_true, decide_eq_true_iff, Bool.not_eq_true']
  have hlt : state.getLsbD b = true → b < 32 := BitVec.lt_of_getLsbD
  tauto

/-- Without changes the outputs stay. -/
theorem nextState_empty (state : BitVec 32) : nextState {} state = state := by
  have hclear : state &&& ~~~(0 : BitVec 32) = state := BitVec.and_allOnes
  have hset : state ||| (0 : BitVec 32) = state := BitVec.or_zero
  rw [nextState, hclear, hset]

/-- The state after the changes of a list of ticks. -/
def stateOf (changes : Changes) (ticks : List ℕ) (state : BitVec 32) : BitVec 32 :=
  ticks.foldl (fun state tick => nextState (Changes.get changes tick) state) state

/-- Sorted ticks up to `k` are those before `k`, and `k` if it is one. -/
theorem filter_le_sorted {ticks : List ℕ} (h : ticks.Pairwise (· < ·)) (k : ℕ) :
    ticks.filter (· ≤ k) = ticks.filter (· < k) ++ if k ∈ ticks then [k] else [] := by
  induction ticks with
  | nil => rfl
  | cons t ticks ih =>
    obtain ⟨hfirst, hrest⟩ := List.pairwise_cons.mp h
    rcases lt_trichotomy t k with hlt | rfl | hgt
    · rw [List.filter_cons_of_pos (by simpa using hlt.le),
        List.filter_cons_of_pos (by simpa using hlt), ih hrest, List.cons_append]
      simp [hlt.ne']
    · -- the first tick is `k`, so no other is due
      have hle : ticks.filter (· ≤ t) = [] := by
        rw [List.filter_eq_nil_iff]
        intro a ha
        simpa using hfirst a ha
      have hlt : ticks.filter (· < t) = [] := by
        rw [List.filter_eq_nil_iff]
        intro a ha
        simpa using (hfirst a ha).le
      rw [List.filter_cons_of_pos (by simp), List.filter_cons_of_neg (by simp), hle, hlt,
        if_pos List.mem_cons_self, List.nil_append]
    · have hmem : k ∉ ticks := fun hk => absurd (hfirst k hk) hgt.le.not_gt
      rw [List.filter_cons_of_neg (by simpa using hgt),
        List.filter_cons_of_neg (by simpa using hgt.le), ih hrest]
      simp [hgt.ne, hmem]

/-- The changes up to tick `k` leave the channels high that are inside a pulse at `k`. -/
theorem stateOf_le {pulses : List Pulse} (hrange : ∀ p ∈ pulses, p.InRange)
    (hdis : Disjoint pulses) {ticks : List ℕ} (hsorted : ticks.Pairwise (· < ·))
    (hkeys : ∀ t, t ∈ ticks ↔ t ∈ (changesOf pulses).map Prod.fst) (k b : ℕ) :
    (stateOf (changesOf pulses) (ticks.filter (· ≤ k)) 0).getLsbD b = true ↔
      High pulses b k := by
  -- the changes at `k` turn the state before `k` into the state at `k`
  have hstep : ∀ k, (∀ b, (stateOf (changesOf pulses) (ticks.filter (· < k)) 0).getLsbD b = true ↔
      HighBefore pulses b k) → ∀ b,
      (stateOf (changesOf pulses) (ticks.filter (· ≤ k)) 0).getLsbD b = true ↔
        High pulses b k := by
    intro k hbefore b
    have hnext : stateOf (changesOf pulses) (ticks.filter (· ≤ k)) 0 =
        nextState (Changes.get (changesOf pulses) k)
          (stateOf (changesOf pulses) (ticks.filter (· < k)) 0) := by
      rw [filter_le_sorted hsorted, stateOf, List.foldl_append]
      split_ifs with hk
      · rfl
      · rw [Changes.get_of_not_mem (fun h => hk ((hkeys k).mpr h)), nextState_empty]
        rfl
    rw [hnext, nextState_getLsbD, hbefore, high_iff hrange hdis, changesOf_set hrange,
      ← changesOf_clear hrange, Bool.not_eq_true]
  -- the state before `k + 1` is the state at `k`
  have hbefore : ∀ k b, (stateOf (changesOf pulses) (ticks.filter (· < k)) 0).getLsbD b = true ↔
      HighBefore pulses b k := by
    intro k
    induction k with
    | zero =>
      intro b
      simp [stateOf, HighBefore]
    | succ k ih =>
      intro b
      rw [highBefore_succ, ← hstep k ih b]
      simp only [Nat.lt_succ_iff]
  exact hstep k (hbefore k) b

/-! ## The events -/

/-- The state that the events hold at tick `k`. -/
def heldState (state : BitVec 32) (events : List Event) (k : ℕ) : BitVec 32 :=
  ((events.filter (·.timestamp.toNat ≤ k)).getLast?.map Event.state).getD state

/-- The engine plays the low bits of the state that holds. -/
theorem play_heldState (events : List Event) (k : ℕ) :
    play events k = (heldState 0 events k).setWidth 2 := by
  rw [play, heldState]
  cases (events.filter (·.timestamp.toNat ≤ k)).getLast? <;> rfl

theorem heldState_cons (state : BitVec 32) (e : Event) (events : List Event) (k : ℕ)
    (h : e.timestamp.toNat ≤ k) :
    heldState state (e :: events) k = heldState e.state events k := by
  rw [heldState, heldState, List.filter_cons_of_pos (by simpa using h), List.getLast?_cons]
  cases (events.filter (·.timestamp.toNat ≤ k)).getLast? <;> rfl

/-- Every event comes at a tick with changes. -/
theorem mergeLoop_timestamp {changes : Changes} {ticks : List ℕ} {state : BitVec 32} {e : Event}
    (hticks : ∀ t ∈ ticks, t < 2 ^ 64) (he : e ∈ mergeLoop changes ticks state) :
    e.timestamp.toNat ∈ ticks := by
  induction ticks generalizing state with
  | nil => simp [mergeLoop] at he
  | cons t ticks ih =>
    have hrest : ∀ t ∈ ticks, t < 2 ^ 64 := fun t ht => hticks t (List.mem_cons_of_mem _ ht)
    simp only [mergeLoop] at he
    split_ifs at he
    · rcases List.mem_cons.mp he with rfl | he
      · rw [BitVec.toNat_ofNat, Nat.mod_eq_of_lt (hticks t List.mem_cons_self)]
        exact List.mem_cons_self
      · exact List.mem_cons_of_mem _ (ih hrest he)
    · exact List.mem_cons_of_mem _ (ih hrest he)

/-- Leaving out the ticks that change nothing does not change the state at any tick. -/
theorem mergeLoop_heldState (changes : Changes) {ticks : List ℕ} (state : BitVec 32)
    (hsorted : ticks.Pairwise (· < ·)) (hticks : ∀ t ∈ ticks, t < 2 ^ 64) (k : ℕ) :
    heldState state (mergeLoop changes ticks state) k =
      stateOf changes (ticks.filter (· ≤ k)) state := by
  induction ticks generalizing state with
  | nil => rfl
  | cons t ticks ih =>
    obtain ⟨hfirst, hrest⟩ := List.pairwise_cons.mp hsorted
    have hticks' : ∀ t ∈ ticks, t < 2 ^ 64 := fun t ht => hticks t (List.mem_cons_of_mem _ ht)
    have htoNat : (BitVec.ofNat 64 t).toNat = t := by
      rw [BitVec.toNat_ofNat, Nat.mod_eq_of_lt (hticks t List.mem_cons_self)]
    by_cases htk : t ≤ k
    · rw [List.filter_cons_of_pos (by simpa using htk), stateOf, List.foldl_cons, ← stateOf]
      simp only [mergeLoop]
      -- a tick that changes nothing leaves no event, and the state goes on
      split_ifs with hchange
      · rw [heldState_cons _ _ _ _ (by rw [htoNat]; exact htk), ih _ hrest hticks']
      · rw [not_not.mp hchange, ih _ hrest hticks']
    · -- no tick is due yet
      have hlate : ∀ e ∈ mergeLoop changes (t :: ticks) state, ¬e.timestamp.toNat ≤ k := by
        intro e he
        rcases List.mem_cons.mp (mergeLoop_timestamp hticks he) with h | h
        · omega
        · have := hfirst _ h
          omega
      have hnone : (t :: ticks).filter (· ≤ k) = [] := by
        rw [List.filter_eq_nil_iff]
        intro a ha
        rcases List.mem_cons.mp ha with rfl | ha
        · simpa using htk
        · have := hfirst a ha
          simp only [decide_eq_true_iff]
          omega
      rw [hnone, heldState, List.filter_eq_nil_iff.mpr (by simpa using hlate)]
      rfl

theorem nextState_lt {masks : Masks} {state : BitVec 32} (hset : masks.set.toNat < 4)
    (hstate : state.toNat < 4) : (nextState masks state).toNat < 4 := by
  rw [nextState, BitVec.toNat_or, BitVec.toNat_and]
  exact Nat.or_lt_two_pow (n := 2) (lt_of_le_of_lt Nat.and_le_left hstate) hset

/-- The events come in order, and each changes the outputs. -/
theorem mergeLoop_legal {changes : Changes} (hset : ∀ t, (Changes.get changes t).set.toNat < 4)
    {ticks : List ℕ} (prev : Option Event) (hsorted : ticks.Pairwise (· < ·))
    (hticks : ∀ t ∈ ticks, t < 2 ^ 64)
    (hprev : ∀ e, prev = some e → ∀ t ∈ ticks, e.timestamp.toNat < t)
    (hstate : (stateAfter prev).toNat < 4) :
    Legal prev (mergeLoop changes ticks (stateAfter prev)) := by
  induction ticks generalizing prev with
  | nil => trivial
  | cons t ticks ih =>
    obtain ⟨hfirst, hrest⟩ := List.pairwise_cons.mp hsorted
    have hticks' : ∀ t ∈ ticks, t < 2 ^ 64 := fun t ht => hticks t (List.mem_cons_of_mem _ ht)
    have htoNat : (BitVec.ofNat 64 t).toNat = t := by
      rw [BitVec.toNat_ofNat, Nat.mod_eq_of_lt (hticks t List.mem_cons_self)]
    have hnext := nextState_lt (hset t) hstate
    simp only [mergeLoop]
    split_ifs with hchange
    · refine ⟨⟨hnext, rfl, hchange, ?_⟩, ?_⟩
      · intro e he
        rw [BitVec.lt_def, htoNat]
        exact hprev e he t List.mem_cons_self
      · -- the event becomes the one before the next
        refine ih (some ⟨BitVec.ofNat 64 t, nextState (Changes.get changes t) (stateAfter prev), 0⟩)
          hrest hticks' ?_ hnext
        rintro e ⟨rfl⟩ t' ht'
        rw [htoNat]
        exact hfirst t' ht'
    · rw [not_not.mp hchange]
      exact ih prev hrest hticks'
        (fun e he t' ht' => hprev e he t' (List.mem_cons_of_mem _ ht')) hstate

/-! ## The merged events of checked pulses -/

theorem changesOf_nodup (pulses : List Pulse) : ((changesOf pulses).map Prod.fst).Nodup :=
  Changes.nodup_foldl _ _ (Changes.nodup_foldl _ _ List.nodup_nil)

theorem mem_changesOf {pulses : List Pulse} {t : ℕ}
    (h : t ∈ (changesOf pulses).map Prod.fst) : ∃ p ∈ pulses, t = p.start ∨ t = p.stop := by
  rw [changesOf, Changes.mem_keys_foldl, Changes.mem_keys_foldl] at h
  rcases h with (h | ⟨p, hp, h⟩) | ⟨p, hp, h⟩
  · simp at h
  · exact ⟨p, (mem_channelPulses.mp hp).1, h⟩
  · exact ⟨p, (mem_channelPulses.mp hp).1, h⟩

theorem toNat_lt_four {w : BitVec 32} (h : ∀ b, 2 ≤ b → w.getLsbD b = false) : w.toNat < 4 :=
  Nat.lt_pow_two_of_testBit (n := 2) w.toNat fun b hb => h b hb

/-- The sorted ticks of the changes. -/
def ticksOf (pulses : List Pulse) : List ℕ :=
  ((changesOf pulses).map Prod.fst).insertionSort (· ≤ ·)

/-- The ticks are in order, each once. -/
theorem ticksOf_sorted (pulses : List Pulse) : (ticksOf pulses).Pairwise (· < ·) :=
  pairwise_lt_insertionSort (changesOf_nodup pulses)

theorem mem_ticksOf (pulses : List Pulse) (t : ℕ) :
    t ∈ ticksOf pulses ↔ t ∈ (changesOf pulses).map Prod.fst :=
  (List.perm_insertionSort _ _).mem_iff

/-- The ticks fit 64 bits. -/
theorem ticksOf_lt {pulses : List Pulse} (hrange : ∀ p ∈ pulses, p.InRange) :
    ∀ t ∈ ticksOf pulses, t < 2 ^ 64 := by
  intro t ht
  obtain ⟨p, hp, h⟩ := mem_changesOf ((mem_ticksOf pulses t).mp ht)
  have hlen := (hrange p hp).length
  have hstop := (hrange p hp).stop
  rcases h with rfl | rfl <;> omega

/-- At every tick a channel is high within its pulses and low elsewhere. -/
theorem mergeEvents_heldState {pulses : List Pulse} (hrange : ∀ p ∈ pulses, p.InRange)
    (hdis : Disjoint pulses) (k b : ℕ) :
    (heldState 0 (mergeEvents pulses) k).getLsbD b = true ↔ High pulses b k := by
  have hheld := mergeLoop_heldState (changesOf pulses) 0 (ticksOf_sorted pulses)
    (ticksOf_lt hrange) k
  rw [mergeEvents, ← ticksOf, hheld]
  exact stateOf_le hrange hdis (ticksOf_sorted pulses) (mem_ticksOf pulses) k b

/-- The events that are merged are in the order that the engine asks for. -/
theorem mergeEvents_legal {pulses : List Pulse} (hrange : ∀ p ∈ pulses, p.InRange) :
    Legal none (mergeEvents pulses) := by
  refine mergeLoop_legal ?_ none (ticksOf_sorted pulses) (ticksOf_lt hrange) ?_ ?_
  · intro t
    refine toNat_lt_four ?_
    intro b hb
    rw [← Bool.not_eq_true, changesOf_set hrange]
    rintro ⟨p, hp, hc, -⟩
    have := (hrange p hp).channel
    omega
  · intro e he
    cases he
  · exact Nat.zero_lt_succ 3

/-- No pulse is left at the end. -/
theorem mergeEvents_safe {pulses : List Pulse} (hrange : ∀ p ∈ pulses, p.InRange)
    (hdis : Disjoint pulses) : stateAfter (mergeEvents pulses).getLast? = 0 := by
  have hend : heldState 0 (mergeEvents pulses) (2 ^ 64) =
      stateAfter (mergeEvents pulses).getLast? := by
    have hall : (mergeEvents pulses).filter (·.timestamp.toNat ≤ 2 ^ 64) = mergeEvents pulses := by
      rw [List.filter_eq_self]
      intro e _
      exact decide_eq_true e.timestamp.isLt.le
    rw [heldState, hall]
    cases (mergeEvents pulses).getLast? <;> rfl
  rw [← hend]
  apply BitVec.eq_of_getLsbD_eq
  intro b _
  have hzero : (0 : BitVec 32).getLsbD b = false := BitVec.getLsbD_zero
  rw [hzero, ← Bool.not_eq_true, mergeEvents_heldState hrange hdis]
  rintro ⟨p, hp, -, -, hstop⟩
  have := (hrange p hp).stop
  omega

/-- A pulse needs an event that turns it on and one that turns it off. -/
theorem mergeEvents_length {pulses : List Pulse} (hrange : ∀ p ∈ pulses, p.InRange)
    (hdis : Disjoint pulses) (hne : pulses ≠ []) : 2 ≤ (mergeEvents pulses).length := by
  obtain ⟨p, hp⟩ := List.exists_mem_of_ne_nil _ hne
  have hon : High pulses p.channel p.start := ⟨p, hp, rfl, le_rfl, (hrange p hp).length⟩
  rw [← mergeEvents_heldState hrange hdis] at hon
  have hlegal := mergeEvents_legal hrange
  have hsafe := mergeEvents_safe hrange hdis
  match hevents : mergeEvents pulses, hon, hlegal, hsafe with
  | [], hon, _, _ => simp [heldState] at hon
  | [e], _, hlegal, hsafe => exact absurd hsafe hlegal.1.changes
  | e :: e' :: events, _, _, _ =>
    rw [List.length_cons, List.length_cons]
    omega

/-! ## Checked documents -/

theorem uint_ok {value : Json} {maximum n : ℕ} {context : String}
    (h : uint value maximum context = .ok n) : n ≤ maximum := by
  cases value with
  | int i =>
    rw [uint] at h
    split_ifs at h with hrange
    cases h
    omega
  | _ => cases h

/-- A pulse that is read ends after it starts, on a channel that exists. -/
theorem readPulse_ok {index : ℕ} {pulse : Json} {p : Pulse} (h : readPulse index pulse = .ok p) :
    p.InRange := by
  cases pulse with
  | obj fields =>
    simp only [readPulse, bind, Except.bind] at h
    split at h
    · cases h
    split at h
    · cases h
    split at h
    · cases h
    next channel hchannel =>
    split at h
    · cases h
    next start hstart =>
    split at h
    · cases h
    next duration _ =>
    split_ifs at h with hzero hmax
    cases h
    have hc := uint_ok hchannel
    have hs := uint_ok hstart
    rw [uint64Max] at hmax hs
    refine ⟨hc, ?_, ?_⟩
    · exact Nat.lt_add_of_pos_right (Nat.pos_of_ne_zero hzero)
    · have : start + duration < 2 ^ 64 := by omega
      exact this
  | _ => cases h

theorem readPulses_ok {index : ℕ} {items : List Json} {pulses : List Pulse}
    (h : readPulses index items = .ok pulses) :
    pulses.length = items.length ∧ ∀ p ∈ pulses, p.InRange := by
  induction items generalizing index pulses with
  | nil =>
    cases h
    simp
  | cons item items ih =>
    simp only [readPulses, bind, Except.bind] at h
    split at h
    · cases h
    next p hp =>
    split at h
    · cases h
    next ps hps =>
    cases h
    obtain ⟨hlen, hrange⟩ := ih hps
    refine ⟨by rw [List.length_cons, List.length_cons, hlen], ?_⟩
    intro q hq
    rcases List.mem_cons.mp hq with rfl | hq
    · exact readPulse_ok hp
    · exact hrange q hq

/-- A document that is read has pulses. -/
theorem readDocument_ok {document : Fields} {pulses : List Pulse}
    (h : readDocument document = .ok pulses) : pulses ≠ [] ∧ ∀ p ∈ pulses, p.InRange := by
  simp only [readDocument, bind, Except.bind] at h
  split at h
  · cases h
  split at h
  · split_ifs at h
    split at h
    · cases h
    split at h
    · cases h
    split_ifs at h
    split at h
    · obtain ⟨hlen, hrange⟩ := readPulses_ok h
      refine ⟨?_, hrange⟩
      rintro rfl
      simp at hlen
    · cases h
  · cases h

/-- The compiled events say what the pulses of a checked document say, and the document is
rejected in the end only for the length of its list of events. -/
theorem compile_meaning (document : Fields) (pulses : List Pulse)
    (hread : readDocument document = .ok pulses) (hcheck : checkChannels pulses = .ok ()) :
    (∀ channel < 2, ∀ t, (play (mergeEvents pulses) t).getLsbD channel = true ↔
      ∃ p ∈ pulses, p.channel = channel ∧ p.start ≤ t ∧ t < p.stop) ∧
    (mergeEvents pulses).Pairwise (·.timestamp < ·.timestamp) ∧
    Legal none (mergeEvents pulses) ∧
    stateAfter (mergeEvents pulses).getLast? = 0 ∧
    compileDocument document =
      if 128 < (mergeEvents pulses).length then .error (.events .eventCount)
      else .ok (mergeEvents pulses) := by
  obtain ⟨hne, hrange⟩ := readDocument_ok hread
  have hdis := checkChannels_ok hrange hcheck
  have hlegal := mergeEvents_legal hrange
  have hsafe := mergeEvents_safe hrange hdis
  have hlength := mergeEvents_length hrange hdis hne
  refine ⟨?_, ?_, hlegal, hsafe, ?_⟩
  · intro channel hchannel t
    rw [play_heldState, BitVec.getLsbD_setWidth, decide_eq_true hchannel, Bool.true_and]
    exact mergeEvents_heldState hrange hdis t channel
  · rw [List.pairwise_iff_getElem]
    intro i j hi hj hij
    exact hlegal.timestamp_lt (List.getElem?_eq_getElem hi) (List.getElem?_eq_getElem hj) hij
  · have hcompile : compileDocument document =
        match validateEvents (mergeEvents pulses) with
        | .error e => .error (.events e)
        | .ok () => .ok (mergeEvents pulses) := by
      simp only [compileDocument, bind, Except.bind, hread, hcheck]
    rw [hcompile]
    split_ifs with hlong
    · rw [validateEvents, if_pos (by rw [maxCount]; omega)]
    · rw [(validateEvents_ok_iff _).mpr ⟨hlength, by omega, hlegal, hsafe⟩]

/-- A pulse on channel 1 that starts where one on channel 0 ends and another begins. -/
theorem compile_meaning_touching :
    (play (mergeEvents [⟨0, 100, 200, 0⟩, ⟨1, 200, 300, 1⟩, ⟨0, 200, 250, 2⟩]) 220).getLsbD 1 =
      true := by
  have hmeaning := compile_meaning
    [("format", .str "qcrate-sequence-v1"), ("tick_hz", .int 200000000), ("pulses", .arr
      [.obj [("channel", .int 0), ("start_tick", .int 100), ("duration_ticks", .int 100)],
       .obj [("name", .str "gate"), ("channel", .int 1), ("start_tick", .int 200),
         ("duration_ticks", .int 100)],
       .obj [("channel", .int 0), ("start_tick", .int 200), ("duration_ticks", .int 50)]])]
    [⟨0, 100, 200, 0⟩, ⟨1, 200, 300, 1⟩, ⟨0, 200, 250, 2⟩] (by rfl) (by rfl)
  exact (hmeaning.1 1 (by decide) 220).mpr ⟨⟨1, 200, 300, 1⟩, by decide⟩

end QCrate.Sequence
