import QCrate.Sequence.Regs

/-!
# The register block of the DSP configuration

`qcrate_dsp_config_regs.sv`: the shadow configuration that the bus writes, the flags about it and
the commit command. The active configuration is read through the block and kept elsewhere.

* `Regs.commitCmd_edge` — the commit line rises for COMMIT on a mailbox that is not busy.
* `Regs.shadow_edge` — the shadow only changes on an access to a mailbox that is not busy.
-/

namespace QCrate.Mailbox

open QCrate.Sequence (ApbIn)

/-! ## Configurations -/

/-- The fields that a commit moves, in the order of `request_data_ctrl`. -/
structure DspConfig where
  configId : BitVec 64
  signalPhaseIncrement : BitVec 32
  signalPhaseInitial : BitVec 32
  signalAmplitude : BitVec 16
  noiseAmplitude : BitVec 16
  noiseSeed : BitVec 16
  loPhaseIncrement : BitVec 32
  loPhaseInitial : BitVec 32
  deriving DecidableEq, Repr

namespace DspConfig

/-- The word at index `k` of the shadow and the active page. -/
def word (c : DspConfig) : Fin 9 → BitVec 32
  | 0 => c.configId.setWidth 32
  | 1 => c.configId.extractLsb' 32 32
  | 2 => c.signalPhaseIncrement
  | 3 => c.signalPhaseInitial
  | 4 => c.signalAmplitude.setWidth 32
  | 5 => c.noiseAmplitude.setWidth 32
  | 6 => c.noiseSeed.setWidth 32
  | 7 => c.loPhaseIncrement
  | 8 => c.loPhaseInitial

def setWord (c : DspConfig) (k : Fin 9) (value : BitVec 32) : DspConfig :=
  match k with
  | 0 => { c with configId := c.configId.extractLsb' 32 32 ++ value }
  | 1 => { c with configId := value ++ c.configId.setWidth 32 }
  | 2 => { c with signalPhaseIncrement := value }
  | 3 => { c with signalPhaseInitial := value }
  | 4 => { c with signalAmplitude := value.setWidth 16 }
  | 5 => { c with noiseAmplitude := value.setWidth 16 }
  | 6 => { c with noiseSeed := value.setWidth 16 }
  | 7 => { c with loPhaseIncrement := value }
  | 8 => { c with loPhaseInitial := value }

/-- The words of 16 bits. -/
def halfWord (k : Fin 9) : Bool := k = 4 || k = 5 || k = 6

/-- The parameters `RESET_*`. -/
def reset : DspConfig :=
  { configId := 0x5db4fb578b27b09f
    signalPhaseIncrement := 0x26666666
    signalPhaseInitial := 0
    signalAmplitude := 0x6000
    noiseAmplitude := 0x0148
    noiseSeed := 0xace1
    loPhaseIncrement := 0x251eb852
    loPhaseInitial := 0 }

end DspConfig

/-! ## What the block sees -/

def addrCommand : BitVec 12 := 0x000
def addrStatus : BitVec 12 := 0x004
def addrRejectReason : BitVec 12 := 0x008
def addrActiveGeneration : BitVec 12 := 0x00C
def addrShadow : BitVec 12 := 0x010
def addrActive : BitVec 12 := 0x040

def rejectNone : BitVec 2 := 0
def rejectReservedBits : BitVec 2 := 1
def rejectUnsafeState : BitVec 2 := 2
def rejectMailboxBusy : BitVec 2 := 3

/-- Word `k` of the nine words from `base` on. -/
def pageWord (base paddr : BitVec 12) : Option (Fin 9) :=
  (List.finRange 9).find? fun k => paddr = base + BitVec.ofNat 12 (4 * k)

/-- Inputs sampled by one edge of `pclk_i`. -/
structure RegsIn where
  apb : ApbIn
  commitBusy : Bool
  commitAccepted : Bool
  commitRejected : Bool
  commitRejectReason : BitVec 2
  activeValid : Bool
  activeGeneration : BitVec 32
  active : DspConfig
  deriving DecidableEq, Repr

structure Regs where
  shadow : DspConfig
  shadowDirty : Bool
  lastCommitRejected : Bool
  rejectReason : BitVec 2
  commitCmd : Bool
  activeConfigIdHighLatch : BitVec 32
  deriving DecidableEq, Repr

namespace Regs

def reset : Regs :=
  { shadow := DspConfig.reset
    shadowDirty := false
    lastCommitRejected := false
    rejectReason := rejectNone
    commitCmd := false
    activeConfigIdHighLatch := DspConfig.reset.configId.extractLsb' 32 32 }

def unmappedPrdata : BitVec 32 := 0xDEADBEEF

def statusWord (s : Regs) (i : RegsIn) : BitVec 32 :=
  (0 : BitVec 28) ++ BitVec.ofBool s.lastCommitRejected ++ BitVec.ofBool i.activeValid
    ++ BitVec.ofBool i.commitBusy ++ BitVec.ofBool s.shadowDirty

def prdata (s : Regs) (i : RegsIn) : BitVec 32 :=
  if i.apb.paddr = addrCommand then 0
  else if i.apb.paddr = addrStatus then s.statusWord i
  else if i.apb.paddr = addrRejectReason then s.rejectReason.setWidth 32
  else if i.apb.paddr = addrActiveGeneration then i.activeGeneration
  else match pageWord addrShadow i.apb.paddr, pageWord addrActive i.apb.paddr with
    | some k, _ => s.shadow.word k
    | none, some k => if k = 1 then s.activeConfigIdHighLatch else i.active.word k
    | none, none => unmappedPrdata

/-- `write_allowed`: COMMAND always, the shadow page while no commit is under way. -/
def writeAllowed (i : RegsIn) : Bool :=
  i.apb.paddr = addrCommand || (pageWord addrShadow i.apb.paddr).isSome && !i.commitBusy

/-- The command bits of a write. -/
def commandBits (a : ApbIn) : BitVec 2 := a.pwdata.setWidth 2

/-- `write_value_valid` -/
def writeValueValid (i : RegsIn) : Bool :=
  if i.apb.paddr = addrCommand then
    i.apb.pwdata >>> 2 = 0 && commandBits i.apb ≠ 3 &&
      !(commandBits i.apb ≠ 0 && i.commitBusy)
  else match pageWord addrShadow i.apb.paddr with
    | some k => !DspConfig.halfWord k || i.apb.pwdata >>> 16 = 0
    | none => true

/-- The register of an accepted write. -/
def acceptedWrite (i : RegsIn) (n : Regs) : Regs :=
  match pageWord addrShadow i.apb.paddr with
  | some k => { n with shadow := n.shadow.setWord k i.apb.pwdata, shadowDirty := true }
  | none =>
    if i.apb.pwdata.getLsbD 0 then { n with commitCmd := true }
    else if i.apb.pwdata.getLsbD 1 then
      { n with
        shadow := i.active, shadowDirty := false
        lastCommitRejected := false, rejectReason := rejectNone }
    else n

def write (i : RegsIn) (n : Regs) : Regs :=
  if writeAllowed i && writeValueValid i then acceptedWrite i n
  else if i.commitBusy && ((pageWord addrShadow i.apb.paddr).isSome ||
      i.apb.paddr = addrCommand && commandBits i.apb ≠ 0) then
    { n with lastCommitRejected := true, rejectReason := rejectMailboxBusy }
  else if writeAllowed i then
    { n with lastCommitRejected := true, rejectReason := rejectReservedBits }
  else n

/-- The outcome of a commit is taken over. -/
def takeOutcome (i : RegsIn) (n : Regs) : Regs :=
  if i.commitAccepted then
    { n with shadowDirty := false, lastCommitRejected := false, rejectReason := rejectNone }
  else if i.commitRejected then
    { n with lastCommitRejected := true, rejectReason := i.commitRejectReason }
  else n

/-- The registers after one edge of `pclk_i`, outside a reset. -/
def edge (s : Regs) (i : RegsIn) : Regs :=
  let n := { s with
    commitCmd := false
    activeConfigIdHighLatch :=
      if i.apb.apbAccess && !i.apb.pwrite && i.apb.paddr = addrActive then
        i.active.configId.extractLsb' 32 32
      else s.activeConfigIdHighLatch }
  let n := takeOutcome i n
  if i.apb.apbAccess && i.apb.pwrite then write i n else n

/-! ## The commit line and the shadow -/

/-- COMMIT is written, and the mailbox is not busy. -/
def commits (i : RegsIn) : Bool :=
  i.apb.apbAccess && i.apb.pwrite && i.apb.paddr = addrCommand && i.apb.pwdata = 1 && !i.commitBusy

variable {s n : Regs} {i : RegsIn}

theorem takeOutcome_eq : (takeOutcome i n).commitCmd = n.commitCmd ∧
    (takeOutcome i n).shadow = n.shadow := by
  unfold takeOutcome
  repeat' split
  all_goals exact ⟨rfl, rfl⟩

/-- COMMIT is the only write that the commit line answers. -/
theorem pwdata_eq_one {v : BitVec 32} (hhigh : v >>> 2 = 0) (hlow : v.setWidth 2 ≠ (3 : BitVec 2))
    (hbit : v.getLsbD 0 = true) : v = 1 := by
  have h1 := congrArg BitVec.toNat hhigh
  have h2 : v.toNat % 4 ≠ 3 := by
    intro h
    refine hlow (BitVec.eq_of_toNat_eq ?_)
    rw [BitVec.toNat_setWidth]
    exact h
  have h3 : v.toNat % 2 = 1 := by
    rw [BitVec.getLsbD, Nat.testBit_zero] at hbit
    exact of_decide_eq_true hbit
  rw [BitVec.toNat_ushiftRight, Nat.shiftRight_eq_div_pow] at h1
  have h4 : v.toNat / 4 = 0 := h1
  apply BitVec.eq_of_toNat_eq
  have h5 : (1 : BitVec 32).toNat = 1 := rfl
  rw [h5]
  omega

theorem pageWord_command : pageWord addrShadow addrCommand = none := by decide

theorem write_commitCmd (hn : n.commitCmd = false) :
    (write i n).commitCmd = true ↔
      i.apb.paddr = addrCommand ∧ i.apb.pwdata = 1 ∧ i.commitBusy = false := by
  by_cases hc : i.apb.paddr = addrCommand
  · unfold write acceptedWrite
    simp only [writeAllowed, writeValueValid, hc, pageWord_command, decide_true, Bool.true_or,
      if_true, Bool.true_and]
    constructor
    · intro h
      split at h
      · next hv =>
        simp only [Bool.and_eq_true, decide_eq_true_eq, Bool.not_eq_true', commandBits] at hv
        split at h
        · next hbit =>
          have hone := pwdata_eq_one hv.1.1 (of_decide_eq_true hv.1.2) hbit
          refine ⟨trivial, hone, ?_⟩
          have hbusy := hv.2
          simp only [hone] at hbusy
          simpa using hbusy
        · split at h
          all_goals
            rw [hn] at h
            cases h
      · repeat' split at h
        all_goals
          rw [hn] at h
          cases h
    · rintro ⟨-, hone, hbusy⟩
      rw [if_pos, if_pos]
      · rw [hone]
        decide
      · simp [commandBits, hone, hbusy]
  · refine iff_of_false ?_ fun h => hc h.1
    have hkeep : (write i n).commitCmd = n.commitCmd := by
      cases hp : pageWord addrShadow i.apb.paddr with
      | none => simp [write, writeAllowed, hc, hp]
      | some k =>
        unfold write acceptedWrite
        simp only [hp]
        repeat' split
        all_goals rfl
    rw [hkeep, hn]
    exact Bool.false_ne_true

theorem commitCmd_edge : (s.edge i).commitCmd = commits i := by
  unfold edge
  dsimp only
  split
  · next haccess =>
    rw [Bool.eq_iff_iff, write_commitCmd takeOutcome_eq.1, commits, haccess]
    simp [and_assoc]
  · next haccess =>
    rw [takeOutcome_eq.1, commits]
    simp [haccess]

theorem write_shadow_of_busy (hbusy : i.commitBusy = true) :
    (write i n).shadow = n.shadow := by
  by_cases hc : i.apb.paddr = addrCommand
  · unfold write acceptedWrite
    simp only [writeAllowed, writeValueValid, hc, pageWord_command, decide_true, Bool.true_or,
      if_true, Bool.true_and, hbusy, Bool.and_true]
    split
    · next hv =>
      -- a command on a busy mailbox has no bit set
      simp only [Bool.and_eq_true, decide_eq_true_eq, Bool.not_eq_true', decide_eq_false_iff_not,
        not_not] at hv
      have hzero : ∀ k < 2, i.apb.pwdata.getLsbD k = false := by
        intro k hk
        have hbit := congrArg (BitVec.getLsbD · k) hv.2
        simpa [commandBits, hk] using hbit
      rw [hzero 0 (by decide), hzero 1 (by decide)]
      rfl
    · repeat' split
      all_goals rfl
  · unfold write acceptedWrite
    simp only [writeAllowed, hc, hbusy, decide_false, Bool.false_or, Bool.not_true, Bool.and_false,
      Bool.false_and, Bool.false_eq_true, if_false]
    split <;> rfl

/-- No access, or a busy mailbox: the shadow stays. -/
theorem shadow_edge (h : i.apb.apbAccess = false ∨ i.commitBusy = true) :
    (s.edge i).shadow = s.shadow := by
  unfold edge
  dsimp only
  split
  · next haccess =>
    have hbusy : i.commitBusy = true := by
      rcases h with h | h
      · rw [h] at haccess
        cases haccess
      · exact h
    rw [write_shadow_of_busy hbusy, takeOutcome_eq.2]
  · exact takeOutcome_eq.2

/-- COMMIT leaves the shadow as it is. -/
theorem shadow_of_commits (h : commits i = true) : (s.edge i).shadow = s.shadow := by
  simp only [commits, Bool.and_eq_true, decide_eq_true_eq, Bool.not_eq_true'] at h
  obtain ⟨⟨⟨⟨haccess, hwrite⟩, haddr⟩, hone⟩, hbusy⟩ := h
  unfold edge
  simp only [haccess, hwrite, Bool.and_self, if_true]
  unfold write acceptedWrite
  simp only [writeAllowed, writeValueValid, haddr, pageWord_command, hone, hbusy, commandBits,
    decide_true, Bool.true_or, if_true, Bool.true_and]
  exact takeOutcome_eq.2

end Regs

end QCrate.Mailbox
