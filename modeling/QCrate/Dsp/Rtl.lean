import QCrate.Dsp.Fixed

/-!
# The DSP front end in RTL

`qcrate_nco.sv`, `qcrate_synthetic_source.sv`, `qcrate_ddc_mixer.sv` and `qcrate_dsp_frontend.sv`,
one clock edge at a time. Right-hand sides read the registers before the edge.

* `Nco`, `Source`, `Frontend`, `Chain` — the registers.
* `Chain.step` — an edge; `Chain.accepted` what the consumer takes at it.
* `roundQ115Product_toInt`, `roundSaturateProduct_toInt` — the biased shift is the rounding of the
  model.
-/

namespace QCrate.Dsp.Rtl

/-- The configuration registers, stable during a run. -/
structure Regs where
  signalInitial : BitVec 32
  signalIncrement : BitVec 32
  signalAmplitude : BitVec 16
  noiseAmplitude : BitVec 16
  noiseSeed : BitVec 16
  loInitial : BitVec 32
  loIncrement : BitVec 32

/-- The ROM of the oscillators. -/
abbrev Rom := BitVec 11 → BitVec 16

/-- Inputs of an edge: `clear` is `phase_load_i` of every module. -/
structure Input where
  rstN : Bool
  clear : Bool
  enable : Bool
  ready : Bool
  deriving DecidableEq

/-! ## The oscillator -/

/-- `decode_index`: the sign and the address. -/
def decodeIndex (fullIndex : BitVec 12) : Bool × BitVec 11 :=
  let quadrant := fullIndex.extractLsb' 10 2
  let offset := fullIndex.extractLsb' 0 10
  (quadrant.getLsbD 1,
    if quadrant.getLsbD 0 then 1024 - offset.setWidth 11 else offset.setWidth 11)

structure Nco where
  phaseAccumulator : BitVec 32
  romValid : Bool
  romSineNegative : Bool
  romCosineNegative : Bool
  romSineData : BitVec 16
  romCosineData : BitVec 16
  valid : Bool
  sine : BitVec 16
  cosine : BitVec 16

def Nco.reset : Nco := ⟨0, false, false, false, 0, 0, false, 0, 0⟩

/-- One edge of `qcrate_nco`. -/
def Nco.step (rom : Rom) (n : Nco) (rstN ce load : Bool) (initial increment : BitVec 32)
    (advance : Bool) : Nco :=
  let sineIndex := n.phaseAccumulator.extractLsb' 20 12
  let sineDecode := decodeIndex sineIndex
  let cosineDecode := decodeIndex (sineIndex + 1024)
  if !rstN then Nco.reset
  else if load then { n with phaseAccumulator := initial, romValid := false, valid := false }
  else if ce then
    { phaseAccumulator := if advance then n.phaseAccumulator + increment else n.phaseAccumulator
      romValid := advance
      romSineNegative := if advance then sineDecode.1 else n.romSineNegative
      romCosineNegative := if advance then cosineDecode.1 else n.romCosineNegative
      romSineData := if advance then rom sineDecode.2 else n.romSineData
      romCosineData := if advance then rom cosineDecode.2 else n.romCosineData
      valid := n.romValid
      sine :=
        if n.romValid then (if n.romSineNegative then -n.romSineData else n.romSineData)
        else n.sine
      cosine :=
        if n.romValid then (if n.romCosineNegative then -n.romCosineData else n.romCosineData)
        else n.cosine }
  else n

/-! ## The source -/

/-- `lfsr_step` -/
def lfsrStep (state : BitVec 16) : BitVec 16 :=
  let shifted := state >>> 1
  if state.getLsbD 0 then shifted ^^^ 0xb400 else shifted

/-- `round_q1_15_product` -/
def roundQ115Product (product : BitVec 32) : BitVec 16 :=
  let adjusted : BitVec 33 := product.signExtend 33 + (if product.msb then 16383 else 16384)
  let rounded := adjusted.sshiftRight 15
  if (32767 : BitVec 33).slt rounded then 0x7fff
  else if rounded.slt (-32768) then 0x8000
  else rounded.setWidth 16

/-- `saturating_add` -/
def saturatingAdd (left right : BitVec 16) : BitVec 16 :=
  let sum : BitVec 17 := left.signExtend 17 + right.signExtend 17
  if (32767 : BitVec 17).slt sum then 0x7fff
  else if sum.slt (-32768) then 0x8000
  else sum.setWidth 16

/-- A signed product in the width of its destination. -/
def signedProduct (a b : BitVec 16) : BitVec 32 :=
  a.signExtend 32 * b.signExtend 32

structure Source where
  nco : Nco
  lfsrState : BitVec 16
  noiseDelay0 : BitVec 16
  noiseDelay1 : BitVec 16
  productValid : Bool
  componentValid : Bool
  signalProduct : BitVec 32
  noiseProduct : BitVec 32
  signalComponent : BitVec 16
  noiseComponent : BitVec 16
  sampleData : BitVec 16
  sampleValid : Bool

/-- `pipeline_ce` of the source. -/
def Source.ce (s : Source) (ready : Bool) : Bool :=
  !s.sampleValid || ready

/-- `sample_advance` -/
def Source.advance (s : Source) (enable load ready : Bool) : Bool :=
  enable && s.ce ready && !load

/-- One edge of `qcrate_synthetic_source`. -/
def Source.step (rom : Rom) (c : Regs) (s : Source) (rstN enable load ready : Bool) : Source :=
  let ce := s.ce ready
  let advance := s.advance enable load ready
  let nco := s.nco.step rom rstN ce load c.signalInitial c.signalIncrement advance
  if !rstN || load then
    ⟨nco, c.noiseSeed, 0, 0, false, false, 0, 0, 0, 0, 0, false⟩
  else if ce then
    let nextLfsr := lfsrStep s.lfsrState
    { nco
      lfsrState := if advance then nextLfsr else s.lfsrState
      noiseDelay0 := if advance then nextLfsr ^^^ 0x8000 else s.noiseDelay0
      noiseDelay1 := s.noiseDelay0
      productValid := s.nco.valid
      componentValid := s.productValid
      signalProduct :=
        if s.nco.valid then signedProduct s.nco.cosine c.signalAmplitude else s.signalProduct
      noiseProduct :=
        if s.nco.valid then signedProduct s.noiseDelay1 c.noiseAmplitude else s.noiseProduct
      signalComponent :=
        if s.productValid then roundQ115Product s.signalProduct else s.signalComponent
      noiseComponent :=
        if s.productValid then roundQ115Product s.noiseProduct else s.noiseComponent
      sampleData :=
        if s.componentValid then saturatingAdd s.signalComponent s.noiseComponent
        else s.sampleData
      sampleValid := s.componentValid }
  else { s with nco }

/-! ## The mixer and the front end -/

/-- `round_saturate_product` -/
def roundSaturateProduct (product : BitVec 33) : BitVec 18 :=
  let adjusted : BitVec 34 := product.signExtend 34 + (if product.msb then 4095 else 4096)
  let rounded := adjusted.sshiftRight 13
  if (131071 : BitVec 34).slt rounded then 0x1ffff
  else if rounded.slt (-131072) then 0x20000
  else rounded.setWidth 18

structure Mixer where
  productValid : Bool
  iProduct : BitVec 32
  qProductRaw : BitVec 32
  valid : Bool
  i : BitVec 18
  q : BitVec 18

def Mixer.reset : Mixer := ⟨false, 0, 0, false, 0, 0⟩

/-- One edge of `qcrate_ddc_mixer`. -/
def Mixer.step (m : Mixer) (rstN ce clear valid : Bool) (adc loSine loCosine : BitVec 16) :
    Mixer :=
  if !rstN then Mixer.reset
  else if clear then Mixer.reset
  else if ce then
    { productValid := valid
      valid := m.productValid
      iProduct := if valid then signedProduct adc loCosine else m.iProduct
      qProductRaw := if valid then signedProduct adc loSine else m.qProductRaw
      i := if m.productValid then roundSaturateProduct (m.iProduct.signExtend 33) else m.i
      q := if m.productValid then roundSaturateProduct (-m.qProductRaw.signExtend 33) else m.q }
  else m

structure Frontend where
  loNco : Nco
  adcDelay0 : BitVec 16
  adcDelay1 : BitVec 16
  mixer : Mixer

/-- `pipeline_ce` of the front end. -/
def Frontend.ce (f : Frontend) (ready : Bool) : Bool :=
  !f.mixer.valid || ready

/-- `s_sample_ready_o` -/
def Frontend.sampleReady (f : Frontend) (load ready : Bool) : Bool :=
  f.ce ready && !load

/-- One edge of `qcrate_dsp_frontend`. -/
def Frontend.step (rom : Rom) (c : Regs) (f : Frontend) (rstN load : Bool)
    (sampleData : BitVec 16) (sampleValid ready : Bool) : Frontend :=
  let ce := f.ce ready
  let inputFire := sampleValid && f.sampleReady load ready
  { loNco := f.loNco.step rom rstN ce load c.loInitial c.loIncrement inputFire
    adcDelay0 :=
      if !rstN || load then 0 else if ce && inputFire then sampleData else f.adcDelay0
    adcDelay1 := if !rstN || load then 0 else if ce then f.adcDelay0 else f.adcDelay1
    mixer := f.mixer.step rstN ce load f.loNco.valid f.adcDelay1 f.loNco.sine f.loNco.cosine }

/-! ## The chain -/

structure Chain where
  source : Source
  frontend : Frontend

/-- One edge of the source and the front end it feeds. -/
def Chain.step (rom : Rom) (c : Regs) (st : Chain) (i : Input) : Chain where
  source := st.source.step rom c i.rstN i.enable i.clear (st.frontend.sampleReady i.clear i.ready)
  frontend := st.frontend.step rom c i.rstN i.clear st.source.sampleData st.source.sampleValid
    i.ready

/-- What the consumer takes at an edge. -/
def Chain.accepted (st : Chain) (ready : Bool) : Option (BitVec 18 × BitVec 18) :=
  if st.frontend.mixer.valid && ready then some (st.frontend.mixer.i, st.frontend.mixer.q)
  else none

/-- A run after a clear: the inputs are enable and ready. -/
def Chain.run (rom : Rom) (c : Regs) (st : Chain) :
    List (Bool × Bool) → Chain × List (BitVec 18 × BitVec 18)
  | [] => (st, [])
  | (enable, ready) :: rest =>
    let next := st.step rom c ⟨true, false, enable, ready⟩
    let (final, outputs) := Chain.run rom c next rest
    (final, (st.accepted ready).toList ++ outputs)

/-! ## Arithmetic -/

theorem toInt_setWidth_of_range {v w : ℕ} (x : BitVec w) (hv : v ≤ w)
    (h : (x.toInt).bmod (2 ^ v) = x.toInt) : (x.setWidth v).toInt = x.toInt := by
  rw [BitVec.toInt_setWidth]
  conv_rhs => rw [← h, BitVec.toInt_eq_toNat_bmod]
  rw [Int.bmod_bmod_of_dvd]
  exact_mod_cast pow_dvd_pow 2 hv

/-- A shift with a bias of half a unit, less one for negative values, rounds ties away from
zero. -/
theorem biased_shift {p : ℤ} {k : ℕ} (hk : 0 < k) :
    (p + if p < 0 then 2 ^ (k - 1) - 1 else 2 ^ (k - 1)) / 2 ^ k = roundShift p k := by
  obtain ⟨k, rfl⟩ : ∃ m, k = m + 1 := ⟨k - 1, by omega⟩
  have hneg : ¬((k + 1 : ℕ) : ℤ) < 0 := by omega
  have hzero : ((k + 1 : ℕ) : ℤ) ≠ 0 := by omega
  have hpos : (0 : ℤ) < 2 ^ k := by positivity
  unfold roundShift
  rw [if_neg hneg, if_neg hzero, Int.toNat_natCast, Nat.add_sub_cancel, pow_succ]
  generalize (2 : ℤ) ^ k = h at hpos
  dsimp only
  by_cases hp : p < 0
  · have hle : ¬0 ≤ p := by omega
    rw [if_pos hp, if_neg hle, abs_of_neg hp]
    have hq := Int.mul_ediv_add_emod (-p + h) (h * 2)
    have hq₀ := Int.emod_nonneg (-p + h) (show h * 2 ≠ 0 by omega)
    have hq₁ := Int.emod_lt_of_pos (-p + h) (show 0 < h * 2 by omega)
    generalize (-p + h) / (h * 2) = q at hq ⊢
    rw [Int.ediv_eq_iff_of_pos (by omega)]
    constructor <;> nlinarith
  · have hle : 0 ≤ p := by omega
    rw [if_neg hp, if_pos hle, abs_of_nonneg hle]

/-- The rounding of the RTL: add the bias, shift, clamp. -/
theorem clamp_toInt {w v : ℕ} {rounded : BitVec w} {high low : BitVec w} {top bottom : BitVec v}
    (hv : v ≤ w) (hpos : 0 < v) (hhigh : high.toInt = 2 ^ (v - 1) - 1)
    (hlow : low.toInt = -2 ^ (v - 1)) (htop : top.toInt = 2 ^ (v - 1) - 1)
    (hbottom : bottom.toInt = -2 ^ (v - 1)) :
    (if high.slt rounded then top else if rounded.slt low then bottom
      else rounded.setWidth v).toInt = saturate rounded.toInt v := by
  have hpow : (0 : ℤ) < 2 ^ (v - 1) := by positivity
  unfold saturate
  dsimp only
  by_cases h₁ : high.slt rounded = true
  · rw [if_pos h₁, htop]
    rw [BitVec.slt_iff_toInt_lt, hhigh] at h₁
    omega
  · rw [if_neg h₁]
    rw [BitVec.slt_iff_toInt_lt, hhigh] at h₁
    by_cases h₂ : rounded.slt low = true
    · rw [if_pos h₂, hbottom]
      rw [BitVec.slt_iff_toInt_lt, hlow] at h₂
      omega
    · rw [if_neg h₂]
      rw [BitVec.slt_iff_toInt_lt, hlow] at h₂
      rw [toInt_setWidth_of_range _ hv]
      · omega
      · have hsplit : (2 : ℤ) ^ v = 2 * 2 ^ (v - 1) := by
          rw [← pow_succ', Nat.sub_add_cancel hpos]
        refine Int.bmod_eq_of_le ?_ ?_
        · push_cast
          omega
        · push_cast
          omega

/-- Adding the bias does not overflow. -/
theorem biased_toInt {w : ℕ} (v : ℕ) (p : BitVec w) (low high : BitVec v) {bias : ℤ} (hv : w ≤ v)
    (hlow : low.toInt = bias - 1) (hhigh : high.toInt = bias)
    (hfit : ∀ b, bias - 1 ≤ b → b ≤ bias → (p.toInt + b).bmod (2 ^ v) = p.toInt + b) :
    (p.signExtend v + (if p.msb then low else high)).toInt =
      p.toInt + if p.toInt < 0 then bias - 1 else bias := by
  rw [BitVec.toInt_add, BitVec.toInt_signExtend_of_le hv, BitVec.msb_eq_toInt]
  by_cases hp : p.toInt < 0
  · simp only [hp, decide_true, if_true, hlow]
    exact hfit _ le_rfl (by omega)
  · simp only [hp, decide_false, Bool.false_eq_true, if_false, hhigh]
    exact hfit _ (by omega) le_rfl

theorem roundQ115Product_toInt (p : BitVec 32) :
    (roundQ115Product p).toInt = saturate (roundShift p.toInt 15) 16 := by
  have hlow := BitVec.le_toInt p
  have hhigh := BitVec.toInt_lt (x := p)
  have hadjusted := biased_toInt 33 p 16383 16384
    (by decide) (by decide) (by decide : _ = (16384 : ℤ)) fun b h₁ h₂ =>
      Int.bmod_eq_of_le (by norm_num; omega) (by norm_num; omega)
  unfold roundQ115Product
  dsimp only
  rw [clamp_toInt (v := 16) (by decide) (by decide) (by decide) (by decide) (by decide) (by decide),
    BitVec.toInt_sshiftRight, hadjusted, Int.shiftRight_eq_div_pow]
  exact congrArg (saturate · 16) (biased_shift (p := p.toInt) (k := 15) (by decide))

theorem roundSaturateProduct_toInt (p : BitVec 33) :
    (roundSaturateProduct p).toInt = saturate (roundShift p.toInt 13) 18 := by
  have hlow := BitVec.le_toInt p
  have hhigh := BitVec.toInt_lt (x := p)
  have hadjusted := biased_toInt 34 p 4095 4096
    (by decide) (by decide) (by decide : _ = (4096 : ℤ)) fun b h₁ h₂ =>
      Int.bmod_eq_of_le (by norm_num; omega) (by norm_num; omega)
  unfold roundSaturateProduct
  dsimp only
  rw [clamp_toInt (v := 18) (by decide) (by decide) (by decide) (by decide) (by decide) (by decide),
    BitVec.toInt_sshiftRight, hadjusted, Int.shiftRight_eq_div_pow]
  exact congrArg (saturate · 18) (biased_shift (p := p.toInt) (k := 13) (by decide))

theorem saturatingAdd_toInt (a b : BitVec 16) :
    (saturatingAdd a b).toInt = saturate (a.toInt + b.toInt) 16 := by
  have ha := And.intro (BitVec.le_toInt a) (BitVec.toInt_lt (x := a))
  have hb := And.intro (BitVec.le_toInt b) (BitVec.toInt_lt (x := b))
  have hsum : (a.signExtend 17 + b.signExtend 17).toInt = a.toInt + b.toInt := by
    rw [BitVec.toInt_add, BitVec.toInt_signExtend_of_le (by decide),
      BitVec.toInt_signExtend_of_le (by decide)]
    exact Int.bmod_eq_of_le (by norm_num; omega) (by norm_num; omega)
  unfold saturatingAdd
  dsimp only
  rw [clamp_toInt (v := 16) (by decide) (by decide) (by decide) (by decide) (by decide) (by decide),
    hsum]

theorem signedProduct_toInt (a b : BitVec 16) :
    (signedProduct a b).toInt = a.toInt * b.toInt := by
  have ha := And.intro (BitVec.le_toInt a) (BitVec.toInt_lt (x := a))
  have hb := And.intro (BitVec.le_toInt b) (BitVec.toInt_lt (x := b))
  norm_num at ha hb
  have habs : |a.toInt * b.toInt| ≤ 2 ^ 30 := by
    rw [abs_mul]
    have h₁ : |a.toInt| ≤ 2 ^ 15 := abs_le.mpr ⟨by omega, by omega⟩
    have h₂ : |b.toInt| ≤ 2 ^ 15 := abs_le.mpr ⟨by omega, by omega⟩
    calc |a.toInt| * |b.toInt| ≤ 2 ^ 15 * 2 ^ 15 :=
          mul_le_mul h₁ h₂ (abs_nonneg _) (by norm_num)
      _ = 2 ^ 30 := by norm_num
  obtain ⟨hlow, hhigh⟩ := abs_le.mp habs
  unfold signedProduct
  rw [BitVec.toInt_mul, BitVec.toInt_signExtend_of_le (by decide),
    BitVec.toInt_signExtend_of_le (by decide)]
  exact Int.bmod_eq_of_le (by norm_num; omega) (by norm_num; omega)

theorem lfsrStep_toNat (s : BitVec 16) : (lfsrStep s).toNat = Dsp.lfsrStep s.toNat := by
  have hbit : s.getLsbD 0 = decide (s.toNat % 2 = 1) := by
    rw [BitVec.getLsbD, Nat.testBit_zero]
  have hshift : (s >>> 1).toNat = s.toNat / 2 := by
    rw [BitVec.toNat_ushiftRight, Nat.shiftRight_eq_div_pow, pow_one]
  unfold lfsrStep Dsp.lfsrStep
  dsimp only
  rw [hbit]
  by_cases h : s.toNat % 2 = 1
  · rw [if_pos (decide_eq_true h), if_pos h, BitVec.toNat_xor, hshift]
    rfl
  · rw [if_neg (by simpa using h), if_neg h, hshift]

/-- Inverting the sign bit subtracts half the range. -/
theorem invertSign_toInt (s : BitVec 16) : (s ^^^ 0x8000).toInt = (s.toNat : ℤ) - 0x8000 := by
  have hlt := s.isLt
  have hmod : (s.toNat ^^^ 0x8000) % 2 ^ 15 = s.toNat % 2 ^ 15 := by
    rw [Nat.xor_mod_two_pow]
    simp
  have hdiv : (s.toNat ^^^ 0x8000) / 2 ^ 15 = s.toNat / 2 ^ 15 ^^^ 1 := by
    rw [Nat.xor_div_two_pow]
  have hbit : s.toNat / 2 ^ 15 ^^^ 1 = 1 - s.toNat / 2 ^ 15 := by
    have hsmall : s.toNat / 2 ^ 15 < 2 := by omega
    generalize s.toNat / 2 ^ 15 = q at hsmall
    interval_cases q <;> rfl
  have hnat : (s ^^^ 0x8000).toNat = s.toNat ^^^ 0x8000 := BitVec.toNat_xor ..
  rw [BitVec.toInt_eq_toNat_cond, hnat]
  rw [hbit] at hdiv
  split <;> omega

/-! ## The lookup -/

/-- The ROM holds the table. -/
def romOf (t : Tables) : Rom := fun address => BitVec.ofInt 16 (t.sine.getD address.toNat 0)

theorem romOf_toInt (t : Tables) (address : BitVec 11) :
    (romOf t address).toInt = t.sine.getD address.toNat 0 ∧
      (-romOf t address).toInt = -t.sine.getD address.toNat 0 := by
  have hrange : 0 ≤ t.sine.getD address.toNat 0 ∧ t.sine.getD address.toNat 0 < 2 ^ 15 := by
    rw [List.getD_eq_getElem?_getD]
    cases h : t.sine[address.toNat]? with
    | none => norm_num
    | some x => exact t.sine_range x (List.mem_of_getElem? h)
  unfold romOf
  generalize t.sine.getD address.toNat 0 = x at hrange ⊢
  have hvalue : (BitVec.ofInt 16 x).toInt = x := by
    rw [BitVec.toInt_ofInt]
    exact Int.bmod_eq_of_le (by norm_num; omega) (by norm_num; omega)
  refine ⟨hvalue, ?_⟩
  rw [BitVec.toInt_neg, hvalue]
  exact Int.bmod_eq_of_le (by norm_num; omega) (by norm_num; omega)

/-- What a decoded index reads from the ROM. -/
def readRom (t : Tables) (index : BitVec 12) : BitVec 16 :=
  if (decodeIndex index).1 then -romOf t (decodeIndex index).2 else romOf t (decodeIndex index).2

theorem decodeIndex_spec (index : BitVec 12) :
    ((decodeIndex index).1 = true ↔ 2 ≤ index.toNat / 2 ^ 10) ∧
      (decodeIndex index).2.toNat =
        if index.toNat / 2 ^ 10 % 2 = 1 then 2 ^ 10 - index.toNat % 2 ^ 10
        else index.toNat % 2 ^ 10 := by
  have hlt := index.isLt
  have hoffset : ((index.extractLsb' 0 10).setWidth 11 : BitVec 11).toNat =
      index.toNat % 2 ^ 10 := by
    rw [BitVec.toNat_setWidth, BitVec.extractLsb'_toNat, Nat.shiftRight_zero]
    omega
  have hbit : ∀ j < 2, (index.extractLsb' 10 2).getLsbD j =
      decide (index.toNat / 2 ^ 10 / 2 ^ j % 2 = 1) := by
    intro j hj
    rw [BitVec.getLsbD_extractLsb', decide_eq_true hj, Bool.true_and, BitVec.getLsbD,
      Nat.testBit_eq_decide_div_mod_eq, Nat.div_div_eq_div_mul, ← pow_add]
  unfold decodeIndex
  dsimp only
  rw [hbit 0 (by decide), hbit 1 (by decide)]
  refine ⟨by rw [decide_eq_true_eq]; omega, ?_⟩
  rw [pow_zero, Nat.div_one]
  by_cases h : index.toNat / 2 ^ 10 % 2 = 1
  · rw [if_pos (decide_eq_true h), if_pos h, BitVec.toNat_sub, hoffset]
    have h1024 : (1024 : BitVec 11).toNat = 1024 := rfl
    rw [h1024]
    omega
  · rw [if_neg (by simpa using h), if_neg h, hoffset]

/-- The lookup of the model. -/
theorem readRom_toInt (t : Tables) {index : BitVec 12} {phaseWord : ℤ}
    (h : (index.toNat : ℤ) = phaseWord % phaseModulus / 2 ^ 20) :
    (readRom t index).toInt = ncoLookup phaseWord t.sine := by
  have hindex : (phaseWord % phaseModulus / 2 ^ (32 - lutAddrBits)).toNat = index.toNat := by
    unfold lutAddrBits
    norm_num at h ⊢
    omega
  have hlt := index.isLt
  obtain ⟨hsign, haddress⟩ := decodeIndex_spec index
  obtain ⟨hvalue, hnegative⟩ := romOf_toInt t (decodeIndex index).2
  unfold readRom ncoLookup
  dsimp only
  rw [hindex]
  unfold quarterLutBits
  have hquadrant : index.toNat / 2 ^ 10 < 4 := by omega
  generalize index.toNat / 2 ^ 10 = quadrant at hsign haddress hquadrant ⊢
  interval_cases quadrant
  · rw [if_neg (by simp [hsign]), hvalue, haddress]
    rfl
  · rw [if_neg (by simp [hsign]), hvalue, haddress]
    rfl
  · rw [if_pos (by simp [hsign]), hnegative, haddress]
    rfl
  · rw [if_pos (by simp [hsign]), hnegative, haddress]
    rfl

/-- The index of a phase, and the one a quarter turn on. -/
theorem sineIndex_eq (phase : BitVec 32) :
    ((phase.extractLsb' 20 12).toNat : ℤ) = (phase.toNat : ℤ) % phaseModulus / 2 ^ 20 := by
  have hlt := phase.isLt
  rw [BitVec.extractLsb'_toNat, Nat.shiftRight_eq_div_pow]
  unfold phaseModulus
  omega

theorem cosineIndex_eq (phase : BitVec 32) :
    ((phase.extractLsb' 20 12 + 1024).toNat : ℤ) =
      ((phase.toNat : ℤ) + quarterPhase) % phaseModulus / 2 ^ 20 := by
  have hlt := phase.isLt
  have h1024 : (1024 : BitVec 12).toNat = 1024 := rfl
  rw [BitVec.toNat_add, BitVec.extractLsb'_toNat, Nat.shiftRight_eq_div_pow, h1024]
  unfold phaseModulus quarterPhase
  omega

end QCrate.Dsp.Rtl
