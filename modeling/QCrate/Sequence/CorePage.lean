import QCrate.Sequence.Snapshot
import QCrate.Sequence.LivePage

/-!
# The sequence page of the core

The page that the R5 service reads and writes is the register block of the core. While snapshots
are guarded every edge does to the page what `Page.store` and `Page.Evolves` say.

* `prdata_eq` — what a register read returns.
* `evolves_step` — one edge: the write it takes up, and what can happen meanwhile.
-/

namespace QCrate.Sequence

open QCrate.Lib QCrate.R5

/-! ## What a write does to the registers -/

namespace Regs

variable {s : Regs} {i : RegsIn}

/-- An edge takes up a write. -/
def takesWrite (s : Regs) (i : RegsIn) : Bool := s.apbTransfer i && i.apb.pwrite

/-- The command lines after an edge that takes up no write to a register. -/
theorem command_edge_of_not
    (h : (s.takesWrite i && s.writeAllowed i && !i.apb.eventWindow) = false) :
    (s.edge i).command = (nextAccess i s).command := by
  have hc := (beforeWrite_sameControl (s := s) (i := i)).command
  unfold edge registerWrite
  rw [if_neg (by simpa [takesWrite] using h)]
  exact hc

theorem command_edge_of_control
    (h : (s.takesWrite i && s.writeAllowed i && !i.apb.eventWindow) = true)
    (hp : i.apb.paddr = addrControl) :
    (s.edge i).command = ⟨s.eventCount, i.apb.pwdata.getLsbD 8, i.apb.pwdata.getLsbD 0,
      i.apb.pwdata.getLsbD 1, i.apb.pwdata.getLsbD 2, i.apb.pwdata.getLsbD 3⟩ := by
  have hc := (beforeWrite_sameControl (s := s) (i := i)).command
  unfold edge registerWrite
  rw [if_pos (by simpa [takesWrite] using h), if_pos hp]
  exact congrArg (fun k : Command => ({ k with
    externalTriggerEnable := i.apb.pwdata.getLsbD 8
    arm := i.apb.pwdata.getLsbD 0
    start := i.apb.pwdata.getLsbD 1
    abort := i.apb.pwdata.getLsbD 2
    softReset := i.apb.pwdata.getLsbD 3 } : Command)) hc

theorem command_edge_of_eventCount
    (h : (s.takesWrite i && s.writeAllowed i && !i.apb.eventWindow) = true)
    (hp : i.apb.paddr = addrEventCount) :
    (s.edge i).command =
      { (nextAccess i s).command with eventCount := i.apb.pwdata.setWidth 8 } := by
  have hc := (beforeWrite_sameControl (s := s) (i := i)).command
  unfold edge registerWrite
  rw [if_pos (by simpa [takesWrite] using h), if_neg (by rw [hp]; decide), if_pos hp]
  exact congrArg (fun k : Command => ({ k with
    eventCount := i.apb.pwdata.setWidth 8 } : Command)) hc

/-- A command line only rises for a write to CONTROL that is accepted. -/
theorem control_of_command (h : (s.edge i).command.any = true) :
    s.takesWrite i = true ∧ s.writeAllowed i = true ∧ i.apb.eventWindow = false ∧
      i.apb.paddr = addrControl := by
  by_cases hw : (s.takesWrite i && s.writeAllowed i && !i.apb.eventWindow) = true
  · have hw' := hw
    simp only [Bool.and_eq_true, Bool.not_eq_true'] at hw'
    obtain ⟨⟨htakes, hallowed⟩, hwindow⟩ := hw'
    refine ⟨htakes, hallowed, hwindow, ?_⟩
    by_contra hp
    have hcount : i.apb.paddr = addrEventCount := by
      by_contra hno
      simp [writeAllowed, hwindow, hp, hno] at hallowed
    rw [command_edge_of_eventCount hw hcount] at h
    cases h
  · rw [command_edge_of_not (by simpa using hw)] at h
    cases h

/-- The event count only changes by a write to its register that is accepted. -/
theorem eventCount_edge : (s.edge i).eventCount =
    if s.takesWrite i && s.memoryAccessAllowed i && decide (i.apb.paddr = addrEventCount) then
      i.apb.pwdata.setWidth 8
    else s.eventCount := by
  by_cases hp : i.apb.paddr = addrEventCount
  · have hwindow : i.apb.eventWindow = false := by
      rw [ApbIn.eventWindow, hp]
      rfl
    have hallowed : s.writeAllowed i = s.memoryAccessAllowed i := by
      rw [writeAllowed, hwindow, if_neg Bool.false_ne_true, if_neg (by rw [hp]; decide), if_pos hp]
    rw [decide_eq_true hp, Bool.and_true, ← hallowed]
    split
    · next h =>
      exact congrArg Command.eventCount (command_edge_of_eventCount (by simp [h, hwindow]) hp)
    · next h =>
      exact congrArg Command.eventCount (command_edge_of_not (by simpa [hwindow] using h))
  · rw [decide_eq_false hp, Bool.and_false, if_neg Bool.false_ne_true]
    by_cases hw : (s.takesWrite i && s.writeAllowed i && !i.apb.eventWindow) = true
    · have hcontrol : i.apb.paddr = addrControl := by
        simp only [Bool.and_eq_true, Bool.not_eq_true'] at hw
        by_contra hno
        simp [writeAllowed, hw.2, hp, hno] at hw
      exact congrArg Command.eventCount (command_edge_of_control hw hcontrol)
    · exact congrArg Command.eventCount (command_edge_of_not (by simpa using hw))

/-- A read only depends on the address, the snapshot and the command in flight. -/
theorem prdata_congr {i' : RegsIn} (hp : i.apb.paddr = i'.apb.paddr) (hs : i.status = i'.status)
    (hb : i.commandBusy = i'.commandBusy) : s.prdata i = s.prdata i' := by
  obtain ⟨⟨_, _, _, _, _⟩, _⟩ := i
  obtain ⟨⟨_, _, _, _, _⟩, _⟩ := i'
  cases hp
  cases hs
  cases hb
  rfl

end Regs

/-! ## Offsets -/

/-- The offset of an access of the R5. -/
def ApbIn.offset (a : ApbIn) : Word := 0x2000 + a.paddr.setWidth 32

theorem ApbIn.toNat_offset (a : ApbIn) : a.offset.toNat = 8192 + a.paddr.toNat := by
  have hlt := a.paddr.isLt
  have hbase : (0x2000 : Word).toNat = 8192 := rfl
  rw [offset, BitVec.toNat_add, BitVec.toNat_setWidth, hbase]
  omega

theorem ApbIn.offset_eq_iff (a : ApbIn) (paddr : BitVec 12) :
    a.offset = 0x2000 + paddr.setWidth 32 ↔ a.paddr = paddr := by
  have hlt := a.paddr.isLt
  have hlt' := paddr.isLt
  have hbase : (0x2000 : Word).toNat = 8192 := rfl
  rw [← BitVec.toNat_inj, ← BitVec.toNat_inj, a.toNat_offset, BitVec.toNat_add,
    BitVec.toNat_setWidth, hbase]
  omega

theorem ApbIn.eventWindow_offset (a : ApbIn) : Page.eventWindow a.offset = a.eventWindow := by
  have hlt := a.paddr.isLt
  have hbit : a.eventWindow = true ↔ 2048 ≤ a.paddr.toNat := by
    rw [eventWindow, BitVec.getLsbD, Nat.testBit_eq_decide_div_mod_eq, decide_eq_true_iff]
    omega
  rw [Bool.eq_iff_iff, Page.eventWindow_iff, a.toNat_offset, hbit]
  omega

theorem ApbIn.ramAddr_offset (a : ApbIn) : Page.ramAddr a.offset = a.ramAddr := by
  have hlt := a.paddr.isLt
  rw [Page.ramAddr, ramAddr, ← BitVec.toNat_inj, BitVec.extractLsb'_toNat,
    BitVec.extractLsb'_toNat, a.toNat_offset, Nat.shiftRight_eq_div_pow,
    Nat.shiftRight_eq_div_pow]
  omega

theorem ApbIn.setWidth_offset (a : ApbIn) : a.offset.setWidth 12 = a.paddr := by
  have hlt := a.paddr.isLt
  rw [← BitVec.toNat_inj, BitVec.toNat_setWidth, a.toNat_offset]
  omega

/-! ## The page -/

namespace Page

variable {p : Page} {offset value : Word}

theorem command_of_accepted (hvalid : commandEncodingValid (value.setWidth 4) = true)
    (hrequested : value.setWidth 4 ≠ (0 : BitVec 4)) (hbusy : p.commandBusy = false) :
    p.command value = { p with
      memoryLocked := (value.setWidth 4 : BitVec 4).getLsbD 0 || p.memoryLocked
      commandBusy := true } := by
  unfold command
  dsimp only
  rw [hvalid, hbusy, Bool.not_false, Bool.or_true, Bool.and_true, if_pos rfl,
    decide_eq_true hrequested, Bool.true_or]

theorem memory_store : (p.store offset value).memory =
    if eventWindow offset && p.memoryAccessAllowed then
      Function.update p.memory (ramAddr offset) value
    else p.memory := by
  unfold store
  split
  · next h =>
    have hwindow : eventWindow offset = false := by
      rw [h]
      rfl
    rw [hwindow, Bool.false_and, if_neg Bool.false_ne_true]
    unfold command
    dsimp only
    split <;> rfl
  · unfold write
    cases p.memoryAccessAllowed <;> cases eventWindow offset <;> simp
    split <;> rfl

theorem eventCount_store : (p.store offset value).eventCount =
    if offset = seqEventCount ∧ p.memoryAccessAllowed = true then value.setWidth 8
    else p.eventCount := by
  unfold store
  split
  · next h =>
    rw [if_neg fun hp => absurd (h.symm.trans hp.1) (by decide)]
    unfold command
    dsimp only
    split <;> rfl
  · unfold write
    by_cases hp : offset = seqEventCount
    · have hwindow : eventWindow seqEventCount = false := rfl
      cases p.memoryAccessAllowed <;> simp [hp, hwindow]
    · cases p.memoryAccessAllowed <;> cases eventWindow offset <;> simp [hp]

/-- A write leaves the status, and neither opens the lock nor ends a command. -/
theorem store_keeps : (p.store offset value).idle = p.idle ∧
    (p.store offset value).faulted = p.faulted ∧
    (p.memoryLocked = true → (p.store offset value).memoryLocked = true) ∧
    (p.commandBusy = true → (p.store offset value).commandBusy = true) := by
  unfold store command write
  dsimp only
  repeat' split
  all_goals refine ⟨rfl, rfl, fun h => ?_, fun h => ?_⟩ <;> simp [h]

end Page

namespace Core

variable {c : Core} {e : Edges} {phase q : Handshake.Phase} {waiting : Bool} {a : ApbIn}

/-- The sequence page as its registers stand. A command that is about to set out is in flight. -/
def page (c : Core) : Page :=
  { memory := c.memory
    eventCount := c.ctrl.regs.eventCount
    memoryLocked := c.ctrl.regs.memoryLocked
    commandBusy := c.ctrl.regs.command.any || c.ctrl.command.busy
    faulted := c.ctrl.shown.faulted
    busy := c.ctrl.shown.busy
    armed := c.ctrl.shown.armed
    validating := c.ctrl.shown.validating
    idle := c.ctrl.shown.idle
    report := fun offset =>
      c.ctrl.regs.prdata (c.regsIn ⟨offset.setWidth 12, true, true, false, 0⟩) }

/-- The write that a step takes up, whether the register block accepts it or not. -/
def written (c : Core) (e : Edges) : Option (Word × Word) :=
  e.apb.bind fun a =>
    if c.ctrl.regs.takesWrite (c.regsIn a) then some (a.offset, a.pwdata) else none

/-- The page with the write that a step takes up. -/
def accessed (c : Core) (e : Edges) : Page :=
  match c.written e with
  | some (offset, value) => c.page.store offset value
  | none => c.page

/-- A new access finds the command lines down. -/
theorem lines_of_transfer (h : c.CommandPath phase)
    (ht : c.ctrl.regs.apbTransfer (c.regsIn a) = true) : c.ctrl.regs.command.any = false := by
  by_contra hup
  have hseen := (h.lines (by simpa using hup)).2
  simp [Regs.apbTransfer, hseen] at ht

/-- A new access finds the page open to writes exactly if the register block lets it pass. -/
theorem memoryAccessAllowed_eq (h : c.CommandPath phase)
    (ht : c.ctrl.regs.apbTransfer (c.regsIn a) = true) :
    c.page.memoryAccessAllowed = c.ctrl.regs.memoryAccessAllowed (c.regsIn a) := by
  simp [Page.memoryAccessAllowed, Regs.memoryAccessAllowed, page, lines_of_transfer h ht, regsIn]

/-- A read of a register returns what the page says. -/
theorem prdata_eq (h : c.CommandPath phase) (ht : c.ctrl.regs.apbTransfer (c.regsIn a) = true)
    (hwindow : a.eventWindow = false) :
    c.ctrl.regs.prdata (c.regsIn a) = c.page.read a.offset := by
  have hstatus : a.offset = seqStatus ↔ a.paddr = addrStatus := a.offset_eq_iff addrStatus
  have hcount : a.offset = seqEventCount ↔ a.paddr = addrEventCount :=
    a.offset_eq_iff addrEventCount
  rw [Page.read, a.eventWindow_offset, hwindow, if_neg Bool.false_ne_true]
  by_cases hs : a.paddr = addrStatus
  · rw [if_pos (hstatus.mpr hs)]
    simp [Regs.prdata, regsIn, hwindow, hs, Regs.statusWord, Page.statusWord, page,
      lines_of_transfer h ht, addrStatus, addrControl]
  · rw [if_neg (mt hstatus.mp hs)]
    by_cases hc : a.paddr = addrEventCount
    · rw [if_pos (hcount.mpr hc)]
      simp [Regs.prdata, regsIn, hwindow, hc, page, addrEventCount, addrStatus, addrControl]
    · rw [if_neg (mt hcount.mp hc)]
      exact Regs.prdata_congr a.setWidth_offset.symm rfl rfl

/-! ## One edge -/

theorem written_eq (ha : e.apb = some a) : c.written e =
    if c.ctrl.regs.takesWrite (c.regsIn a) then some (a.offset, a.pwdata) else none := by
  rw [written, ha, Option.bind_some]

theorem accessed_keeps : (c.accessed e).idle = c.page.idle ∧
    (c.accessed e).faulted = c.page.faulted ∧
    (c.page.memoryLocked = true → (c.accessed e).memoryLocked = true) ∧
    (c.page.commandBusy = true → (c.accessed e).commandBusy = true) := by
  unfold accessed
  split
  · exact Page.store_keeps
  · exact ⟨rfl, rfl, id, id⟩

/-- Nothing happens to the page at an edge of `clk_stream_i`. -/
theorem page_of_stream (ha : e.apb = none) : (c.step e).page = c.page := by
  have hctrl : (c.step e).ctrl = c.ctrl := by
    unfold step
    rw [ha]
  have hmemory : (c.step e).memory = c.memory := by
    unfold step
    rw [ha]
    rfl
  unfold page
  rw [hmemory]
  simp only [regsIn, hctrl]

theorem memory_step (h : c.CommandPath phase) (ha : e.apb = some a) :
    (c.step e).page.memory = (c.accessed e).memory := by
  have hmemory : (c.step e).page.memory =
      (c.memoryWrite a).elim c.memory fun w => Function.update c.memory w.1 w.2 := by
    unfold page step
    rw [ha, Option.bind_some]
    cases c.memoryWrite a <;> rfl
  have hen : (c.ctrl.regs.ramEn (c.regsIn a) && a.pwrite) =
      (c.ctrl.regs.takesWrite (c.regsIn a) && a.eventWindow &&
        c.ctrl.regs.memoryAccessAllowed (c.regsIn a)) := by
    simp only [Regs.ramEn, Regs.takesWrite, regsIn]
    cases a.pwrite <;> simp
  rw [hmemory, accessed, written_eq ha]
  unfold memoryWrite
  rw [hen]
  by_cases htakes : c.ctrl.regs.takesWrite (c.regsIn a) = true
  · have ht : c.ctrl.regs.apbTransfer (c.regsIn a) = true := (Bool.and_eq_true_iff.mp htakes).1
    rw [htakes, if_pos rfl, Bool.true_and]
    dsimp only
    rw [Page.memory_store, a.eventWindow_offset, a.ramAddr_offset, memoryAccessAllowed_eq h ht]
    cases a.eventWindow && c.ctrl.regs.memoryAccessAllowed (c.regsIn a) <;> rfl
  · rw [Bool.not_eq_true] at htakes
    rw [htakes, Bool.false_and, Bool.false_and, if_neg Bool.false_ne_true]
    rfl

theorem eventCount_step (h : c.CommandPath phase) (ha : e.apb = some a) :
    (c.step e).page.eventCount = (c.accessed e).eventCount := by
  have hcount : a.offset = seqEventCount ↔ a.paddr = addrEventCount :=
    a.offset_eq_iff addrEventCount
  have hstep : (c.step e).page.eventCount = (c.ctrl.regs.edge (c.regsIn a)).eventCount := by
    unfold page step
    rw [ha]
    rfl
  rw [hstep, Regs.eventCount_edge, accessed, written_eq ha]
  by_cases htakes : c.ctrl.regs.takesWrite (c.regsIn a) = true
  · have ht : c.ctrl.regs.apbTransfer (c.regsIn a) = true := (Bool.and_eq_true_iff.mp htakes).1
    rw [htakes, if_pos rfl, Bool.true_and]
    dsimp only
    rw [Page.eventCount_store, memoryAccessAllowed_eq h ht]
    refine if_congr ?_ rfl rfl
    rw [Bool.and_eq_true, decide_eq_true_iff, hcount, and_comm]
    rfl
  · rw [Bool.not_eq_true] at htakes
    rw [htakes, Bool.false_and, Bool.false_and, if_neg Bool.false_ne_true]
    rfl

/-- One of the four command bits is written. -/
theorem commandBits_ne_zero (hbits : (a.pwdata.getLsbD 0 || a.pwdata.getLsbD 1 ||
    a.pwdata.getLsbD 2 || a.pwdata.getLsbD 3) = true) : a.commandBits ≠ 0 := by
  intro h0
  rw [Regs.getLsbD_commandBits a (show 0 < 4 by decide),
    Regs.getLsbD_commandBits a (show 1 < 4 by decide),
    Regs.getLsbD_commandBits a (show 2 < 4 by decide),
    Regs.getLsbD_commandBits a (show 3 < 4 by decide), h0] at hbits
  exact absurd hbits (by decide)

/-- The command of a line that comes up is the one that the page takes. -/
theorem accessed_of_command (h : c.CommandPath phase) (ha : e.apb = some a)
    (hany : (c.ctrl.regs.edge (c.regsIn a)).command.any = true) :
    (c.accessed e).commandBusy = true ∧
      ((c.ctrl.regs.edge (c.regsIn a)).armCmd = true → (c.accessed e).memoryLocked = true) := by
  obtain ⟨htakes, hallowed, hwindow, hp⟩ := Regs.control_of_command hany
  have ht : c.ctrl.regs.apbTransfer (c.regsIn a) = true := (Bool.and_eq_true_iff.mp htakes).1
  have hw : (c.ctrl.regs.takesWrite (c.regsIn a) && c.ctrl.regs.writeAllowed (c.regsIn a) &&
      !(c.regsIn a).apb.eventWindow) = true := by
    rw [htakes, hallowed, hwindow]
    rfl
  have hline := Regs.command_edge_of_control hw hp
  have hrequested : a.commandBits ≠ 0 := by
    rw [hline] at hany
    exact commandBits_ne_zero hany
  obtain ⟨hvalid, hidle⟩ : a.commandEncodingValid = true ∧ c.ctrl.command.busy = false := by
    have hp' : a.paddr = addrControl := hp
    have hwindow' : a.eventWindow = false := hwindow
    have hreq : a.commandRequested = true := decide_eq_true hrequested
    simpa [Regs.writeAllowed, regsIn, hwindow', hp', hreq] using hallowed
  have hbusy : c.page.commandBusy = false := by
    rw [page, lines_of_transfer h ht, hidle]
    rfl
  have hstore : c.accessed e = { c.page with
      memoryLocked := a.commandBits.getLsbD 0 || c.page.memoryLocked
      commandBusy := true } := by
    have hoffset : a.offset = seqControl := (a.offset_eq_iff addrControl).mpr hp
    rw [accessed, written_eq ha, if_pos htakes]
    dsimp only
    rw [Page.store, if_pos hoffset]
    exact Page.command_of_accepted hvalid hrequested hbusy
  rw [hstore]
  refine ⟨rfl, fun harm => ?_⟩
  have hbit : a.pwdata.getLsbD 0 = true := (congrArg Command.arm hline).symm.trans harm
  show (a.commandBits.getLsbD 0 || _) = true
  rw [← Regs.getLsbD_commandBits a (by decide), hbit, Bool.true_or]

theorem memoryLocked_step (h : c.CommandPath phase) (ha : e.apb = some a)
    (hl : (c.step e).page.memoryLocked = true) : (c.accessed e).memoryLocked = true := by
  have hstep : (c.step e).page.memoryLocked = (c.ctrl.regs.edge (c.regsIn a)).memoryLocked := by
    unfold page step
    rw [ha]
    rfl
  rw [hstep, Regs.memoryLocked_edge, Bool.or_eq_true, Bool.and_eq_true] at hl
  rcases hl with harm | ⟨hlocked, -⟩
  · exact (accessed_of_command h ha (arm_any _ harm)).2 harm
  · exact accessed_keeps.2.2.1 hlocked

theorem commandBusy_step (h : c.CommandPath phase) (ha : e.apb = some a)
    (hb : (c.step e).page.commandBusy = true) : (c.accessed e).commandBusy = true := by
  have hstep : (c.step e).page.commandBusy =
      ((c.ctrl.regs.edge (c.regsIn a)).command.any || (c.step e).ctrl.command.busy) := by
    rw [page, step_regs, ha]
  rw [hstep, Bool.or_eq_true] at hb
  rcases hb with hany | hbusy
  · exact (accessed_of_command h ha hany).1
  · refine accessed_keeps.2.2.2 ?_
    by_contra hno
    obtain ⟨hdown, hidle⟩ : c.ctrl.regs.command.any = false ∧ c.ctrl.command.busy = false := by
      simpa [page] using hno
    obtain rfl : phase = .idle := by
      rw [h.inPhase.busy_eq] at hidle
      simpa using hidle
    rw [(inPhase_step h).busy_eq] at hbusy
    simp [nextPhase, commandRequest_eq h, hdown, Handshake.Phase.next] at hbusy

/-- A snapshot that overtakes the lock shows an engine at rest. -/
theorem rests_step (h : c.Guarded waiting phase q) (hl : c.page.memoryLocked = false)
    (hb : c.page.commandBusy = false) (hr : c.page.Rests) : (c.step e).page.Rests := by
  have hshown : (c.step e).ctrl.shown.Rests := by
    rw [step_shown]
    split
    · next hv =>
      have hvalid : c.ctrl.status.valid = true := (Bool.and_eq_true_iff.mp hv).2
      rw [h.status.data_of_valid hvalid]
      by_contra hactive
      rcases (h.lagging 3 (le_refl 3) (h.status.valid_iff.mp hvalid) hactive).held with
        ⟨hlocked, -⟩ | hreset
      · exact absurd (hl.symm.trans hlocked) Bool.false_ne_true
      · obtain ⟨hdown, hidle⟩ : c.ctrl.regs.command.any = false ∧ c.ctrl.command.busy = false := by
          simpa [page] using hb
        rw [h.path.inPhase.busy_eq] at hidle
        obtain rfl : phase = .idle := by simpa using hidle
        cases hreset with
        | line _ hline =>
          exact absurd (hdown.symm.trans (softReset_any _ hline)) Bool.false_ne_true
    · exact hr
  exact hshown

/-- An edge does to the page what the write it takes up does, and what can happen meanwhile. -/
theorem evolves_step (h : c.Guarded waiting phase q) : (c.accessed e).Evolves (c.step e).page := by
  cases ha : e.apb with
  | none =>
    have hnone : c.accessed e = c.page := by
      rw [accessed, written, ha]
      rfl
    rw [hnone, page_of_stream ha]
    exact .refl _
  | some a =>
    obtain ⟨hidle, hfaulted, hlocked, hbusy⟩ := c.accessed_keeps (e := e)
    refine ⟨memory_step h.path ha, eventCount_step h.path ha, memoryLocked_step h.path ha,
      commandBusy_step h.path ha, fun hl hb hr => ?_⟩
    have hl' := mt hlocked (by simpa using hl)
    have hb' := mt hbusy (by simpa using hb)
    rw [Page.Rests, hidle, hfaulted] at hr
    exact rests_step h (by simpa using hl') (by simpa using hb') hr

end Core

end QCrate.Sequence
