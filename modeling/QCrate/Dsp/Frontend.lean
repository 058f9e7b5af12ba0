import QCrate.Dsp.Rtl
import QCrate.R5.RuntimeConfig

/-!
# The RTL front end against the model

The source and the front end are two pipelines, each stalled as a whole. A slot of a pipeline
holds the index of a sample or nothing; the registers of the slot hold what the model computes for
that index. Shifting the slots neither loses nor repeats an index, under any pattern of enable and
ready.

* `NcoHolds`, `SourceHolds`, `FrontendHolds` — the registers of a slot.
* `Flows` — what was accepted and what the slots hold are all the samples so far, in order.
* `frontend_agrees` — the accepted samples are the mixed samples of the model.
-/

namespace QCrate.Dsp.Rtl

open QCrate.R5

variable {t : Tables} {c : Regs}

/-- The words of the registers. -/
def Regs.words (c : Regs) : Words where
  signalIncrement := c.signalIncrement.toNat
  signalInitial := c.signalInitial.toNat
  signalAmplitude := c.signalAmplitude.toInt
  noiseAmplitude := c.noiseAmplitude.toInt
  noiseSeed := c.noiseSeed.toNat
  loIncrement := c.loIncrement.toNat
  loInitial := c.loInitial.toNat

/-! ## The oscillator -/

/-- An oscillator after `n` samples, with the indices in its two slots. -/
structure NcoHolds (t : Tables) (initial increment : BitVec 32) (n : ℕ) (o : Nco)
    (rom out : Option ℕ) : Prop where
  phase : (o.phaseAccumulator.toNat : ℤ) = phaseAt initial.toNat increment.toNat n
  romValid : o.romValid = rom.isSome
  romSine : ∀ k, rom = some k →
    (if o.romSineNegative then -o.romSineData else o.romSineData).toInt =
      ncoLookup (phaseAt initial.toNat increment.toNat k) t.sine
  romCosine : ∀ k, rom = some k →
    (if o.romCosineNegative then -o.romCosineData else o.romCosineData).toInt =
      ncoLookup (phaseAt initial.toNat increment.toNat k + quarterPhase) t.sine
  valid : o.valid = out.isSome
  sine : ∀ k, out = some k →
    o.sine.toInt = ncoLookup (phaseAt initial.toNat increment.toNat k) t.sine
  cosine : ∀ k, out = some k →
    o.cosine.toInt = ncoLookup (phaseAt initial.toNat increment.toNat k + quarterPhase) t.sine

theorem phase_add {phase increment : BitVec 32} {initial : BitVec 32} {n : ℕ}
    (h : (phase.toNat : ℤ) = phaseAt initial.toNat increment.toNat n) :
    ((phase + increment).toNat : ℤ) = phaseAt initial.toNat increment.toNat (n + 1) := by
  rw [← phaseAt_succ, ← h, BitVec.toNat_add]
  push_cast
  rfl

/-- After a clear the slots are empty. -/
theorem NcoHolds.load (o : Nco) (ce : Bool) (initial increment : BitVec 32) (advance : Bool) :
    NcoHolds t initial increment 0 (o.step (romOf t) true ce true initial increment advance)
      none none := by
  have hphase : phaseAt initial.toNat increment.toNat 0 = initial.toNat :=
    phaseAt_zero _ ⟨by omega, by have := initial.isLt; unfold phaseModulus; omega⟩
  exact ⟨hphase.symm, rfl, nofun, nofun, rfl, nofun, nofun⟩

/-- A shift of an oscillator. -/
theorem NcoHolds.step {initial increment : BitVec 32} {n : ℕ} {o : Nco} {rom out : Option ℕ}
    (h : NcoHolds t initial increment n o rom out) (advance : Bool) :
    NcoHolds t initial increment (if advance then n + 1 else n)
      (o.step (romOf t) true true false initial increment advance)
      (if advance then some n else none) rom := by
  have hsine : (readRom t (o.phaseAccumulator.extractLsb' 20 12)).toInt =
      ncoLookup (phaseAt initial.toNat increment.toNat n) t.sine := by
    rw [← h.phase]
    exact readRom_toInt t (sineIndex_eq _)
  have hcosine : (readRom t (o.phaseAccumulator.extractLsb' 20 12 + 1024)).toInt =
      ncoLookup (phaseAt initial.toNat increment.toNat n + quarterPhase) t.sine := by
    rw [← h.phase]
    exact readRom_toInt t (cosineIndex_eq _)
  have hout : ∀ k, rom = some k → o.romValid = true := fun k hk => by rw [h.romValid, hk]; rfl
  refine ⟨?_, ?_, ?_, ?_, h.romValid, ?_, ?_⟩
  · cases advance
    · exact h.phase
    · exact phase_add h.phase
  · cases advance <;> rfl
  · cases advance
    · exact nofun
    · rintro k ⟨⟩
      exact hsine
  · cases advance
    · exact nofun
    · rintro k ⟨⟩
      exact hcosine
  · intro k hk
    show (if o.romValid then _ else o.sine).toInt = _
    rw [if_pos (hout k hk)]
    exact h.romSine k hk
  · intro k hk
    show (if o.romValid then _ else o.cosine).toInt = _
    rw [if_pos (hout k hk)]
    exact h.romCosine k hk

/-! ## The source -/

/-- The indices in the slots of the source. -/
structure SourceSlots where
  rom : Option ℕ
  oscillator : Option ℕ
  product : Option ℕ
  component : Option ℕ
  out : Option ℕ

def SourceSlots.shift (p : SourceSlots) (next : Option ℕ) : SourceSlots :=
  ⟨next, p.rom, p.oscillator, p.product, p.component⟩

/-- What the slots hold, oldest first. -/
def SourceSlots.contents (p : SourceSlots) : List ℕ :=
  p.out.toList ++ (p.component.toList ++ (p.product.toList ++
    (p.oscillator.toList ++ p.rom.toList)))

theorem SourceSlots.shift_contents (p : SourceSlots) (next : Option ℕ) :
    p.out.toList ++ (p.shift next).contents = p.contents ++ next.toList := by
  simp only [contents, shift, List.append_assoc]

/-- The scaled cosine and the scaled noise of an index. -/
def signalAt (t : Tables) (w : Words) (k : ℕ) : ℤ :=
  ncoLookup (phaseAt w.signalInitial w.signalIncrement k + quarterPhase) t.sine * w.signalAmplitude

def scaledNoiseAt (w : Words) (k : ℕ) : ℤ :=
  noiseAt w.noiseSeed k * w.noiseAmplitude

/-- The source after `n` samples. -/
structure SourceHolds (t : Tables) (c : Regs) (n : ℕ) (s : Source) (p : SourceSlots) : Prop where
  nco : NcoHolds t c.signalInitial c.signalIncrement n s.nco p.rom p.oscillator
  lfsr : s.lfsrState.toNat = Dsp.lfsrStep^[n] c.noiseSeed.toNat
  noise0 : ∀ k, p.rom = some k → s.noiseDelay0.toInt = noiseAt c.noiseSeed.toNat k
  noise1 : ∀ k, p.oscillator = some k → s.noiseDelay1.toInt = noiseAt c.noiseSeed.toNat k
  productValid : s.productValid = p.product.isSome
  product : ∀ k, p.product = some k →
    s.signalProduct.toInt = signalAt t c.words k ∧ s.noiseProduct.toInt = scaledNoiseAt c.words k
  componentValid : s.componentValid = p.component.isSome
  component : ∀ k, p.component = some k →
    s.signalComponent.toInt = saturate (roundShift (signalAt t c.words k) 15) 16 ∧
      s.noiseComponent.toInt = saturate (roundShift (scaledNoiseAt c.words k) 15) 16
  sampleValid : s.sampleValid = p.out.isSome
  sampleData : ∀ k, p.out = some k → s.sampleData.toInt = (sampleAt c.words t.sine k).adc

theorem SourceHolds.load (s : Source) (enable ready : Bool) :
    SourceHolds t c 0 (s.step (romOf t) c true enable true ready) ⟨none, none, none, none, none⟩ :=
  ⟨NcoHolds.load s.nco (s.ce ready) c.signalInitial c.signalIncrement
    (s.advance enable true ready), rfl, nofun, nofun, rfl, nofun, rfl, nofun, rfl, nofun⟩

/-- A shift of the source. -/
theorem SourceHolds.step {n : ℕ} {s : Source} {p : SourceSlots} (h : SourceHolds t c n s p)
    (enable : Bool) {ready : Bool} (hce : s.ce ready = true) :
    SourceHolds t c (if enable then n + 1 else n) (s.step (romOf t) c true enable false ready)
      (p.shift (if enable then some n else none)) := by
  have hadvance : s.advance enable false ready = enable := by
    unfold Source.advance
    rw [hce, Bool.and_true, Bool.not_false, Bool.and_true]
  have hstep : s.step (romOf t) c true enable false ready =
      { nco := s.nco.step (romOf t) true true false c.signalInitial c.signalIncrement enable
        lfsrState := if enable then lfsrStep s.lfsrState else s.lfsrState
        noiseDelay0 := if enable then lfsrStep s.lfsrState ^^^ 0x8000 else s.noiseDelay0
        noiseDelay1 := s.noiseDelay0
        productValid := s.nco.valid
        componentValid := s.productValid
        signalProduct :=
          if s.nco.valid then signedProduct s.nco.cosine c.signalAmplitude else s.signalProduct
        noiseProduct :=
          if s.nco.valid then signedProduct s.noiseDelay1 c.noiseAmplitude else s.noiseProduct
        signalComponent :=
          if s.productValid then roundQ115Product s.signalProduct else s.signalComponent
        noiseComponent :=
          if s.productValid then roundQ115Product s.noiseProduct else s.noiseComponent
        sampleData :=
          if s.componentValid then saturatingAdd s.signalComponent s.noiseComponent
          else s.sampleData
        sampleValid := s.componentValid } := by
    unfold Source.step
    rw [hadvance, hce]
    rfl
  have hnext : (lfsrStep s.lfsrState).toNat = Dsp.lfsrStep^[n + 1] c.noiseSeed.toNat := by
    rw [lfsrStep_toNat, h.lfsr, Function.iterate_succ_apply']
  rw [hstep]
  refine ⟨h.nco.step enable, ?_, ?_, h.noise0, h.nco.valid, ?_, h.productValid, ?_,
    h.componentValid, ?_⟩
  · cases enable
    · exact h.lfsr
    · exact hnext
  · cases enable
    · exact nofun
    · rintro k ⟨⟩
      show (lfsrStep s.lfsrState ^^^ 0x8000).toInt = _
      rw [invertSign_toInt, hnext]
      rfl
  · intro k hk
    have hv : s.nco.valid = true := by
      rw [h.nco.valid, show p.oscillator = some k from hk]
      rfl
    simp only [hv, if_true]
    rw [signedProduct_toInt, signedProduct_toInt, h.nco.cosine k hk, h.noise1 k hk]
    exact ⟨rfl, rfl⟩
  · intro k hk
    have hv : s.productValid = true := by
      rw [h.productValid, show p.product = some k from hk]
      rfl
    obtain ⟨hs, hn⟩ := h.product k hk
    simp only [hv, if_true]
    rw [roundQ115Product_toInt, roundQ115Product_toInt, hs, hn]
    exact ⟨rfl, rfl⟩
  · intro k hk
    have hv : s.componentValid = true := by
      rw [h.componentValid, show p.component = some k from hk]
      rfl
    obtain ⟨hs, hn⟩ := h.component k hk
    simp only [hv, if_true]
    rw [saturatingAdd_toInt, hs, hn]
    rfl

/-- A stalled source keeps its registers. -/
theorem Source.step_stalled {s : Source} {enable ready : Bool} (hce : s.ce ready = false) :
    s.step (romOf t) c true enable false ready = s := by
  unfold Source.step Source.advance Nco.step
  rw [hce]
  simp

/-! ## The front end -/

/-- The indices in the slots of the front end. -/
structure FrontendSlots where
  rom : Option ℕ
  oscillator : Option ℕ
  product : Option ℕ
  out : Option ℕ

def FrontendSlots.shift (p : FrontendSlots) (next : Option ℕ) : FrontendSlots :=
  ⟨next, p.rom, p.oscillator, p.product⟩

/-- What the slots hold, oldest first. -/
def FrontendSlots.contents (p : FrontendSlots) : List ℕ :=
  p.out.toList ++ (p.product.toList ++ (p.oscillator.toList ++ p.rom.toList))

theorem FrontendSlots.shift_contents (p : FrontendSlots) (next : Option ℕ) :
    p.out.toList ++ (p.shift next).contents = p.contents ++ next.toList := by
  simp only [contents, shift, List.append_assoc]

/-- The front end after `n` samples came in. -/
structure FrontendHolds (t : Tables) (c : Regs) (n : ℕ) (f : Frontend) (p : FrontendSlots) :
    Prop where
  nco : NcoHolds t c.loInitial c.loIncrement n f.loNco p.rom p.oscillator
  adc0 : ∀ k, p.rom = some k → f.adcDelay0.toInt = (sampleAt c.words t.sine k).adc
  adc1 : ∀ k, p.oscillator = some k → f.adcDelay1.toInt = (sampleAt c.words t.sine k).adc
  productValid : f.mixer.productValid = p.product.isSome
  product : ∀ k, p.product = some k →
    f.mixer.iProduct.toInt =
        (sampleAt c.words t.sine k).adc * (sampleAt c.words t.sine k).loCos ∧
      f.mixer.qProductRaw.toInt =
        (sampleAt c.words t.sine k).adc * (sampleAt c.words t.sine k).loSin
  valid : f.mixer.valid = p.out.isSome
  out : ∀ k, p.out = some k →
    f.mixer.i.toInt = (sampleAt c.words t.sine k).mixedI ∧
      f.mixer.q.toInt = (sampleAt c.words t.sine k).mixedQ

theorem FrontendHolds.load (f : Frontend) (data : BitVec 16) (valid ready : Bool) :
    FrontendHolds t c 0 (f.step (romOf t) c true true data valid ready)
      ⟨none, none, none, none⟩ :=
  ⟨NcoHolds.load f.loNco (f.ce ready) c.loInitial c.loIncrement
    (valid && f.sampleReady true ready), nofun, nofun, rfl, nofun, rfl, nofun⟩

/-- The negated product, one bit wider. -/
theorem neg_signExtend_toInt (x : BitVec 32) : (-x.signExtend 33).toInt = -x.toInt := by
  have hlow := BitVec.le_toInt x
  have hhigh := BitVec.toInt_lt (x := x)
  rw [BitVec.toInt_neg, BitVec.toInt_signExtend_of_le (by decide)]
  exact Int.bmod_eq_of_le (by norm_num; omega) (by norm_num; omega)

/-- A shift of the front end: the sample that comes in is the next one. -/
theorem FrontendHolds.step {n : ℕ} {f : Frontend} {p : FrontendSlots}
    (h : FrontendHolds t c n f p) (data : BitVec 16) (valid : Bool) {ready : Bool}
    (hce : f.ce ready = true)
    (hdata : valid = true → data.toInt = (sampleAt c.words t.sine n).adc) :
    FrontendHolds t c (if valid then n + 1 else n)
      (f.step (romOf t) c true false data valid ready)
      (p.shift (if valid then some n else none)) := by
  have hfire : (valid && f.sampleReady false ready) = valid := by
    unfold Frontend.sampleReady
    rw [hce, Bool.not_false, Bool.and_true, Bool.and_true]
  have hstep : f.step (romOf t) c true false data valid ready =
      { loNco := f.loNco.step (romOf t) true true false c.loInitial c.loIncrement valid
        adcDelay0 := if valid then data else f.adcDelay0
        adcDelay1 := f.adcDelay0
        mixer :=
          { productValid := f.loNco.valid
            valid := f.mixer.productValid
            iProduct :=
              if f.loNco.valid then signedProduct f.adcDelay1 f.loNco.cosine else f.mixer.iProduct
            qProductRaw :=
              if f.loNco.valid then signedProduct f.adcDelay1 f.loNco.sine
              else f.mixer.qProductRaw
            i :=
              if f.mixer.productValid then roundSaturateProduct (f.mixer.iProduct.signExtend 33)
              else f.mixer.i
            q :=
              if f.mixer.productValid then
                roundSaturateProduct (-f.mixer.qProductRaw.signExtend 33)
              else f.mixer.q } } := by
    unfold Frontend.step Mixer.step
    rw [hfire, hce]
    rfl
  rw [hstep]
  refine ⟨h.nco.step valid, ?_, h.adc0, h.nco.valid, ?_, h.productValid, ?_⟩
  · cases valid
    · exact nofun
    · rintro k ⟨⟩
      exact hdata rfl
  · intro k hk
    have hv : f.loNco.valid = true := by
      rw [h.nco.valid, show p.oscillator = some k from hk]
      rfl
    simp only [hv, if_true]
    rw [signedProduct_toInt, signedProduct_toInt, h.adc1 k hk, h.nco.cosine k hk, h.nco.sine k hk]
    exact ⟨rfl, rfl⟩
  · intro k hk
    have hv : f.mixer.productValid = true := by
      rw [h.productValid, show p.product = some k from hk]
      rfl
    obtain ⟨hi, hq⟩ := h.product k hk
    simp only [hv, if_true]
    rw [roundSaturateProduct_toInt, roundSaturateProduct_toInt, neg_signExtend_toInt,
      BitVec.toInt_signExtend_of_le (by decide), hi, hq]
    refine ⟨rfl, ?_⟩
    rw [← neg_mul]
    rfl

theorem Frontend.step_stalled {f : Frontend} {data : BitVec 16} {valid ready : Bool}
    (hce : f.ce ready = false) : f.step (romOf t) c true false data valid ready = f := by
  unfold Frontend.step Frontend.sampleReady Nco.step Mixer.step
  rw [hce]
  simp

/-! ## The chain -/

/-- A chain that has produced `issued` samples, of which `accepted` left it: the samples are all
accounted for, in order. -/
structure Flows (t : Tables) (c : Regs) (issued accepted : ℕ) (st : Chain) : Prop where
  slots : ∃ (fired : ℕ) (p : SourceSlots) (q : FrontendSlots),
    SourceHolds t c issued st.source p ∧ FrontendHolds t c fired st.frontend q ∧
      List.range fired = List.range accepted ++ q.contents ∧
      List.range issued = List.range fired ++ p.contents

theorem Flows.clear (st : Chain) (enable ready : Bool) :
    Flows t c 0 0 (st.step (romOf t) c ⟨true, true, enable, ready⟩) :=
  ⟨0, _, _, SourceHolds.load .., FrontendHolds.load .., rfl, rfl⟩

/-- The next element of a range. -/
theorem eq_of_range_eq {n m k : ℕ} {l : List ℕ} (h : List.range n = List.range m ++ k :: l) :
    k = m := by
  have hget := congrArg (·[m]?) h
  have hlen := congrArg List.length h
  simp only [List.length_range, List.length_append, List.length_cons] at hlen
  simp only [List.getElem?_range (show m < n by omega)] at hget
  rw [List.getElem?_append_right (by simp)] at hget
  simpa using hget.symm

theorem range_next (b : Bool) (n : ℕ) :
    List.range (if b then n + 1 else n) = List.range n ++ (if b then some n else none).toList := by
  cases b
  · exact (List.append_nil _).symm
  · exact List.range_succ

/-- What the last slot holds is the next index. -/
theorem out_eq {n m : ℕ} {out : Option ℕ} {l : List ℕ}
    (h : List.range n = List.range m ++ (out.toList ++ l)) :
    out = if out.isSome then some m else none := by
  cases out with
  | none => rfl
  | some k => rw [eq_of_range_eq h]; rfl

/-- What one edge accepts is the next sample. -/
theorem Flows.step {issued accepted : ℕ} {st : Chain} (h : Flows t c issued accepted st)
    (enable ready : Bool) :
    ∃ issued' accepted', Flows t c issued' accepted'
        (st.step (romOf t) c ⟨true, false, enable, ready⟩) ∧
      (enable = true → ready = true → issued' = issued + 1) ∧
      ((st.accepted ready = none ∧ accepted' = accepted) ∨
        ∃ i q, st.accepted ready = some (i, q) ∧ accepted' = accepted + 1 ∧
          i.toInt = (sampleAt c.words t.sine accepted).mixedI ∧
          q.toInt = (sampleAt c.words t.sine accepted).mixedQ) := by
  obtain ⟨fired, p, q, hs, hf, hfired, hissued⟩ := h.slots
  have hp := out_eq hissued
  have hq := out_eq hfired
  have hsample : st.frontend.sampleReady false ready = st.frontend.ce ready := by
    unfold Frontend.sampleReady
    rw [Bool.not_false, Bool.and_true]
  have hsource : (st.step (romOf t) c ⟨true, false, enable, ready⟩).source =
      st.source.step (romOf t) c true enable false (st.frontend.ce ready) := by
    rw [← hsample]
    rfl
  have hissue : ∀ b : Bool, List.range (if b then issued + 1 else issued) =
      List.range fired ++ p.out.toList ++
        (p.shift (if b then some issued else none)).contents := fun b => by
    rw [range_next, hissued, List.append_assoc, List.append_assoc, p.shift_contents]
  by_cases hce : st.frontend.ce ready = true
  · -- the front end shifts, and with it the source
    have hsce : st.source.ce (st.frontend.ce ready) = true := by
      unfold Source.ce
      rw [hce, Bool.or_true]
    have hs' := hs.step enable hsce
    rw [← hsource] at hs'
    have hf' := hf.step st.source.sampleData st.source.sampleValid hce
      fun hv => hs.sampleData fired (by rw [hp, if_pos (by rw [← hs.sampleValid]; exact hv)])
    have hin : (if st.source.sampleValid then some fired else none) = p.out := by
      rw [hs.sampleValid]
      exact hp.symm
    have hfire : List.range (if st.source.sampleValid then fired + 1 else fired) =
        List.range fired ++ p.out.toList := by
      rw [range_next, hin]
    have haccept : List.range (if q.out.isSome then accepted + 1 else accepted) =
        List.range accepted ++ q.out.toList := by
      rw [range_next, ← hq]
    refine ⟨if enable then issued + 1 else issued,
      if q.out.isSome then accepted + 1 else accepted,
      ⟨_, _, _, hs', hf', ?_, ?_⟩, fun he _ => if_pos he, ?_⟩
    · rw [hfire, haccept, hin, List.append_assoc, q.shift_contents, hfired, List.append_assoc]
    · rw [hfire]
      exact hissue enable
    · cases hout : q.out with
      | none =>
        refine .inl ⟨?_, rfl⟩
        unfold Chain.accepted
        rw [hf.valid, hout]
        rfl
      | some k =>
        have hk : k = accepted := by
          rw [hout] at hq
          exact Option.some.inj hq
        subst hk
        have hready : ready = true := by
          unfold Frontend.ce at hce
          rw [hf.valid, hout] at hce
          simpa using hce
        obtain ⟨hi, hqv⟩ := hf.out _ hout
        refine .inr ⟨_, _, ?_, rfl, hi, hqv⟩
        unfold Chain.accepted
        rw [hf.valid, hout, hready]
        rfl
  · -- the front end is stalled with a sample that is not taken
    rw [Bool.not_eq_true] at hce
    have hstall : (st.step (romOf t) c ⟨true, false, enable, ready⟩).frontend = st.frontend :=
      Frontend.step_stalled hce
    have hready : ready = true → ∀ {P : Prop}, P := fun hr => by
      unfold Frontend.ce at hce
      rw [hr, Bool.or_true] at hce
      cases hce
    have hnone : st.accepted ready = none := by
      unfold Frontend.ce at hce
      rw [Bool.or_eq_false_iff] at hce
      unfold Chain.accepted
      rw [hce.2, Bool.and_false]
      rfl
    by_cases hsce : st.source.ce (st.frontend.ce ready) = true
    -- the source fills up behind the sample that waits
    · have hempty : p.out = none := by
        unfold Source.ce at hsce
        rw [hce, Bool.or_false, hs.sampleValid] at hsce
        simpa using hsce
      have hs' := hs.step enable hsce
      rw [← hsource] at hs'
      refine ⟨if enable then issued + 1 else issued, accepted,
        ⟨fired, _, q, hs', hstall ▸ hf, hfired, ?_⟩, fun _ hr => hready hr, .inl ⟨hnone, rfl⟩⟩
      have hnext := hissue enable
      rw [hempty] at hnext
      simpa using hnext
    · rw [Bool.not_eq_true] at hsce
      have hsame : (st.step (romOf t) c ⟨true, false, enable, ready⟩).source = st.source := by
        rw [hsource]
        exact Source.step_stalled hsce
      exact ⟨issued, accepted, ⟨fired, p, q, hsame ▸ hs, hstall ▸ hf, hfired, hissued⟩,
        fun _ hr => hready hr, .inl ⟨hnone, rfl⟩⟩

/-- No more than nine samples are on their way. -/
theorem Flows.issued_le {issued accepted : ℕ} {st : Chain} (h : Flows t c issued accepted st) :
    issued ≤ accepted + 9 := by
  obtain ⟨fired, p, q, -, -, hfired, hissued⟩ := h.slots
  have hlen : ∀ o : Option ℕ, o.toList.length ≤ 1 := fun o => by cases o <;> simp
  have hf := congrArg List.length hfired
  have hi := congrArg List.length hissued
  simp only [List.length_range, List.length_append, SourceSlots.contents,
    FrontendSlots.contents] at hf hi
  have hp := And.intro (hlen p.out) (And.intro (hlen p.component) (hlen p.product))
  have hp' := And.intro (hlen p.oscillator) (hlen p.rom)
  have hq := And.intro (hlen q.out) (And.intro (hlen q.product) (And.intro (hlen q.oscillator)
    (hlen q.rom)))
  omega

/-- What a run accepts, from the sample that comes next. -/
theorem Flows.run {issued accepted : ℕ} {st : Chain} (h : Flows t c issued accepted st)
    (inputs : List (Bool × Bool)) :
    (Chain.run (romOf t) c st inputs).2.map (fun o => (o.1.toInt, o.2.toInt)) =
        (List.range (Chain.run (romOf t) c st inputs).2.length).map (fun k =>
          ((sampleAt c.words t.sine (accepted + k)).mixedI,
            (sampleAt c.words t.sine (accepted + k)).mixedQ)) ∧
      ∃ issued', Flows t c issued' (accepted + (Chain.run (romOf t) c st inputs).2.length)
          (Chain.run (romOf t) c st inputs).1 ∧
        ((∀ i ∈ inputs, i = (true, true)) → issued' = issued + inputs.length) := by
  induction inputs generalizing issued accepted st with
  | nil => exact ⟨rfl, issued, h, fun _ => rfl⟩
  | cons input inputs ih =>
    obtain ⟨enable, ready⟩ := input
    obtain ⟨issued', accepted', h', hadvance, hcase⟩ := h.step enable ready
    obtain ⟨hrest, issued'', hflows, hfull⟩ := ih h'
    have hcount : (∀ i ∈ (enable, ready) :: inputs, i = (true, true)) →
        issued'' = issued + ((enable, ready) :: inputs).length := by
      intro hall
      obtain ⟨rfl, rfl⟩ := Prod.mk.inj (hall _ List.mem_cons_self)
      rw [hfull fun i hi => hall i (List.mem_cons_of_mem _ hi), hadvance rfl rfl,
        List.length_cons]
      omega
    unfold Chain.run
    dsimp only
    rcases hcase with ⟨hnone, rfl⟩ | ⟨i, q, hsome, rfl, hi, hq⟩
    · rw [hnone]
      exact ⟨hrest, issued'', hflows, hcount⟩
    · rw [hsome]
      simp only [Option.toList_some, List.singleton_append, List.map_cons, List.length_cons]
      refine ⟨?_, issued'', ?_, hcount⟩
      · rw [List.range_succ_eq_map, List.map_cons, List.map_map, hrest, hi, hq]
        refine congrArg (_ :: ·) (List.map_congr_left fun k _ => ?_)
        simp only [Function.comp, Nat.succ_eq_add_one, Nat.add_assoc, Nat.add_comm 1 k]
      · rw [Nat.add_right_comm] at hflows
        exact hflows

/-! ## One configuration on both sides -/

/-- The registers that the firmware writes from a runtime configuration. -/
def regsOf (words : ConfigWords) : Regs where
  signalIncrement := words.get configSignalIncrementWord
  signalInitial := words.get configSignalInitialWord
  signalAmplitude := (words.get configSignalAmplitudeWord).setWidth 16
  noiseAmplitude := (words.get configNoiseAmplitudeWord).setWidth 16
  noiseSeed := (words.get configNoiseSeedWord).setWidth 16
  loIncrement := words.get configLoIncrementWord
  loInitial := words.get configLoInitialWord

/-- The same words as integers of the model. -/
def modelWords (words : ConfigWords) : Words where
  signalIncrement := (words.get configSignalIncrementWord).toNat
  signalInitial := (words.get configSignalInitialWord).toNat
  signalAmplitude := (words.get configSignalAmplitudeWord).toNat
  noiseAmplitude := (words.get configNoiseAmplitudeWord).toNat
  noiseSeed := (words.get configNoiseSeedWord).toNat
  loIncrement := (words.get configLoIncrementWord).toNat
  loInitial := (words.get configLoInitialWord).toNat

theorem validate_range {words : ConfigWords} (h : validateRuntimeConfig words = .none) :
    (words.get configSignalAmplitudeWord).toNat ≤ 0x7FFF ∧
      (words.get configNoiseAmplitudeWord).toNat ≤ 0x7FFF ∧
      (words.get configNoiseSeedWord).toNat < 2 ^ 16 := by
  have hmask : ∀ w : Word, w &&& 0xFFFF0000 = 0 → w.toNat < 2 ^ 16 := by
    intro w hw
    by_contra hlt
    have hdiv : (w &&& 0xFFFF0000).toNat / 2 ^ 16 = w.toNat / 2 ^ 16 := by
      rw [BitVec.toNat_and, Nat.and_div_two_pow]
      have hfull : (0xFFFF0000 : Word).toNat / 2 ^ 16 = 2 ^ 16 - 1 := rfl
      rw [hfull, Nat.and_two_pow_sub_one_eq_mod]
      have := w.isLt
      omega
    rw [hw] at hdiv
    have hz : (0 : Word).toNat = 0 := rfl
    rw [hz] at hdiv
    omega
  have hget : ∀ k : Fin 11, words[k] = words.get k := fun _ => rfl
  unfold validateRuntimeConfig at h
  simp only [hget] at h
  generalize words.get configSignalAmplitudeWord = signal at h ⊢
  generalize words.get configNoiseAmplitudeWord = noise at h ⊢
  generalize words.get configNoiseSeedWord = seed at h ⊢
  split at h
  · cases h
  split at h
  · cases h
  next hs =>
    split at h
    · cases h
    next hn =>
      split at h
      · cases h
      split at h
      · cases h
      next hseed =>
        rw [not_or, not_not] at hs hn hseed
        refine ⟨?_, ?_, hmask _ hseed.1⟩
        · exact Nat.le_of_not_lt fun hlt => hs.2 hlt
        · exact Nat.le_of_not_lt fun hlt => hn.2 hlt

theorem regsOf_words {words : ConfigWords} (h : validateRuntimeConfig words = .none) :
    (regsOf words).words = modelWords words := by
  obtain ⟨hs, hn, hseed⟩ := validate_range h
  have hsmall : ∀ w : Word, w.toNat ≤ 0x7FFF → (w.setWidth 16 : BitVec 16).toInt = w.toNat := by
    intro w hw
    rw [BitVec.toInt_setWidth]
    exact Int.bmod_eq_of_le (by norm_num) (by norm_num; omega)
  unfold Regs.words regsOf modelWords
  dsimp only
  rw [hsmall _ hs, hsmall _ hn, BitVec.toNat_setWidth,
    Nat.mod_eq_of_lt hseed]

/-- After a clear the accepted samples are the first mixed samples of the model, under any pattern
of enable and ready; and with both high all but the last nine edges have produced one. -/
theorem frontend_agrees (t : Tables) {words : ConfigWords}
    (h : validateRuntimeConfig words = .none) (st : Chain) (enable ready : Bool)
    (inputs : List (Bool × Bool)) :
    let run := Chain.run (romOf t) (regsOf words)
      (st.step (romOf t) (regsOf words) ⟨true, true, enable, ready⟩) inputs
    run.2.map (fun o => (o.1.toInt, o.2.toInt)) =
        (runFixedFrontend (modelWords words) t.sine
          (lfsr16Noise run.2.length (modelWords words).noiseSeed)).map
            (fun s => (s.mixedI, s.mixedQ)) ∧
      ((∀ i ∈ inputs, i = (true, true)) → inputs.length ≤ run.2.length + 9) := by
  have hrange : (modelWords words).InRange := by
    refine ⟨⟨Int.natCast_nonneg _, ?_⟩, ⟨Int.natCast_nonneg _, ?_⟩⟩
    · exact Int.ofNat_lt.mpr (words.get configSignalInitialWord).isLt
    · exact Int.ofNat_lt.mpr (words.get configLoInitialWord).isLt
  obtain ⟨hrun, issued, hflows, hfull⟩ :=
    (Flows.clear (t := t) (c := regsOf words) st enable ready).run inputs
  refine ⟨?_, fun hall => ?_⟩
  · rw [hrun, runFixedFrontend_eq hrange, List.map_map, regsOf_words h]
    refine List.map_congr_left fun k _ => ?_
    rw [Nat.zero_add]
    rfl
  · have hle := hflows.issued_le
    rw [hfull hall] at hle
    omega

/-- A tone with noise, and a local oscillator of half its frequency. -/
def toneWords : ConfigWords :=
  #v[7, 0, 0x10000000, 0x20000000, 0x4000, 0x1000, 0xACE1, 0x08000000, 5, 4, 2]

/-- Cleared registers. -/
def Chain.reset : Chain where
  source := ⟨Nco.reset, 0, 0, 0, false, false, 0, 0, 0, 0, 0, false⟩
  frontend := ⟨Nco.reset, 0, 0, Mixer.reset⟩

/-- Every fourth edge nothing is asked for, and every fourth nothing is taken. -/
def gaps : List (Bool × Bool) :=
  (List.replicate 10 [(true, true), (false, true), (true, true), (true, false)]).flatten

theorem frontend_agrees_gaps : validateRuntimeConfig toneWords = .none ∧
    let run := Chain.run (romOf rampTables) (regsOf toneWords)
      (Chain.reset.step (romOf rampTables) (regsOf toneWords) ⟨true, true, true, true⟩) gaps
    run.2.length = 20 ∧
    run.2.map (fun o => (o.1.toInt, o.2.toInt)) =
      (runFixedFrontend (modelWords toneWords) rampTables.sine
        (lfsr16Noise run.2.length (modelWords toneWords).noiseSeed)).map
          (fun s => (s.mixedI, s.mixedQ)) :=
  ⟨by decide, by decide +kernel,
    (frontend_agrees rampTables (by decide) Chain.reset true true gaps).1⟩

end QCrate.Dsp.Rtl
