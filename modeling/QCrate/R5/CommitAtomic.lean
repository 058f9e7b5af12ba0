import QCrate.R5.CommitPage

/-!
# CONFIG_COMMIT as a whole

The handler programs the stream page, fills the shadow page, commits it and waits. The configuration
it answers about is the one that the stream side has when the last earlier commit is over.

* `Holds` — a program of the service between two conditions on the hardware.
* `holds_commitStream` — the part behind the gates.
* `configCommit_atomic` — OK installs the staged words; any other answer but the timeout leaves
  everything as it was.
-/

namespace QCrate.R5

open QCrate.Lib QCrate.Mailbox
open QCrate.Sequence (ApbIn)

/-! ## Programs of the service -/

/-- From `P` the program ends in `Q`. -/
def Holds {α : Type} (P : Hardware → Prop) (prog : StateM (Service Hardware) α)
    (Q : α → Hardware → Prop) : Prop :=
  ∀ s, P s.bus → Q (prog s).1 (prog s).2.bus

section

variable {α β : Type} {P P' : Hardware → Prop} {Q Q' : α → Hardware → Prop}
  {prog : StateM (Service Hardware) α}

theorem holds_pure {a : α} (h : ∀ b, P b → Q a b) : Holds P (pure a) Q :=
  fun s hs => h s.bus hs

/-- What the first computation leaves is known to the second. -/
theorem holds_bind {R : β → Hardware → Prop} {first : StateM (Service Hardware) β}
    {rest : β → StateM (Service Hardware) α} (hfirst : Holds P first R)
    (hrest : ∀ b, Holds (R b) (rest b) Q) : Holds P (first >>= rest) Q :=
  fun s hs => hrest _ _ (hfirst s hs)

/-- A fact about an answer can be taken out of what holds. -/
theorem holds_fact {φ : Prop} (h : φ → Holds P prog Q) : Holds (fun b => φ ∧ P b) prog Q :=
  fun s hs => h hs.1 s hs.2

theorem Holds.mono (h : Holds P prog Q) (hQ : ∀ a b, Q a b → Q' a b) : Holds P prog Q' :=
  fun s hs => hQ _ _ (h s hs)

theorem holds_read {Q : Word → Hardware → Prop} {offset : Word}
    (h : ∀ b, P b → Q (b.read offset).1 (b.read offset).2) :
    Holds P (regRead hardwareBus offset) Q :=
  fun s hs => h s.bus hs

theorem holds_write {Q : Unit → Hardware → Prop} {offset value : Word}
    (h : ∀ b, P b → Q () (b.write offset value)) :
    Holds P (regWrite hardwareBus offset value) Q :=
  fun s hs => h s.bus hs

theorem holds_get : Holds P (get : StateM (Service Hardware) (Service Hardware)) fun _ => P :=
  fun _ hs => hs

theorem holds_setReason (reason : ConfigReason) :
    Holds P (setReason reason : StateM (Service Hardware) Unit) fun _ => P :=
  fun _ hs => hs

/-! ## Answers -/

/-- What reads keep. -/
def Kept (P : Hardware → Prop) : Prop := ∀ offset b, P b → P (b.read offset).2

/-- However often the bracket reads, it only reads. -/
theorem holds_readActive (hP : Kept P) : ∀ (n : ℕ) (response : Message) (generation : Word),
    Holds P (readActive hardwareBus n response generation) fun _ => P
  | 0, _, _ => holds_pure fun _ hs => hs
  | n + 1, response, _ => by
    have hread : ∀ offset, Holds P (regRead hardwareBus offset) fun _ => P := fun offset =>
      holds_read fun b hb => hP offset b hb
    unfold readActive
    refine holds_bind (hread _) fun before => holds_bind (hread _) fun _ =>
      holds_bind (hread _) fun _ => holds_bind (hread _) fun _ => holds_bind (hread _) fun _ =>
      holds_bind (hread _) fun after => ?_
    dsimp only
    split
    · exact holds_pure fun _ hs => hs
    · exact holds_readActive hP n _ _

/-- A status payload keeps the status of its answer. -/
theorem holds_statusPayload (hP : Kept P) (response : Message) :
    Holds P (configStatusPayload hardwareBus response)
      fun r b => r.status = response.status ∧ P b := by
  have hread : ∀ offset, Holds P (regRead hardwareBus offset) fun _ => P := fun offset =>
    holds_read fun b hb => hP offset b hb
  have hbus : Holds P (configStatusPayload hardwareBus response) fun _ => P := by
    unfold configStatusPayload
    exact holds_bind holds_get fun _ => holds_bind (holds_readActive hP _ _ _) fun _ =>
      holds_bind (hread _) fun _ => holds_bind (hread _) fun _ => holds_bind (hread _) fun _ =>
      holds_bind (hread _) fun _ => holds_pure fun _ hs => hs
  exact fun s hs => ⟨(configStatusPayload_response response s).1, hbus s hs⟩

/-- An error answers with its status, after reads alone. -/
theorem holds_configError (hP : Kept P) (response : Message) (status : Status)
    (reason : ConfigReason) : Holds P (configError hardwareBus response status reason)
      fun r b => r.status = status ∧ P b :=
  holds_bind (holds_setReason reason) fun _ => holds_statusPayload hP { response with status }

end

/-! ## The two pages -/

/-- A condition on the mailbox, and the registers of the stream page. -/
structure OnPages (Q : Page → Prop) (stream : Word × Word × Word) (b : Hardware) : Prop where
  mailbox : Q b.mailbox
  stream : b.streamPage = stream

section

variable {Q : Page → Prop} {stream : Word × Word × Word}

/-- A read leaves both pages to what reads keep. -/
theorem OnPages.kept (hQ : Steady Q) : Kept (OnPages Q stream) := fun _ _ hb =>
  ⟨Hardware.read_steady hQ hb.mailbox, Hardware.read_streamPage.trans hb.stream⟩

/-- So does a write to the DSP page that is no COMMIT. -/
theorem OnPages.write (hQ : Calm Q) {offset value : Word} (hd : dspPage offset = true)
    (hno : value ≠ 1 ∨ offset.setWidth 12 ≠ addrCommand) {b : Hardware}
    (hb : OnPages Q stream b) : OnPages Q stream (b.write offset value) :=
  ⟨Hardware.write_calm hQ hno hb.mailbox, (Hardware.write_streamPage hd).trans hb.stream⟩

theorem OnPages.fields {b : Hardware} (hb : OnPages Q stream b) :
    b.frameLength = stream.1 ∧ b.frameCount = stream.2.1 ∧ b.mode = stream.2.2 := by
  obtain ⟨h₁, h₂⟩ := Prod.mk.inj (hb.stream : (b.frameLength, b.frameCount, b.mode) = _)
  exact ⟨h₁, congrArg Prod.fst h₂, congrArg Prod.snd h₂⟩

/-- A write to another page gives the DSP page time. -/
theorem write_keeps (hQ : Calm Q) {offset : Word} (value : Word) {b : Hardware}
    (hd : dspPage offset = false) (hb : Q b.mailbox) : Q (b.write offset value).mailbox := by
  unfold Hardware.write
  rw [if_neg (by rw [hd]; decide)]
  exact hQ.steady.wait _ hb

variable {length count mode : Word}

/-- The frame length is set, and nothing else. -/
theorem holds_writeLength (hQ : Calm Q) (value : Word) :
    Holds (OnPages Q (length, count, mode)) (regWrite hardwareBus streamFrameLength value)
      fun _ => OnPages Q (value, count, mode) := by
  refine holds_write fun b hb => ⟨write_keeps hQ value rfl hb.mailbox, ?_⟩
  show (value, b.frameCount, b.mode) = _
  rw [hb.fields.2.1, hb.fields.2.2]

/-- The frame count is set, and nothing else. -/
theorem holds_writeCount (hQ : Calm Q) (value : Word) :
    Holds (OnPages Q (length, count, mode)) (regWrite hardwareBus streamFrameCount value)
      fun _ => OnPages Q (length, value, mode) := by
  refine holds_write fun b hb => ⟨write_keeps hQ value rfl hb.mailbox, ?_⟩
  show (b.frameLength, value, b.mode) = _
  rw [hb.fields.1, hb.fields.2.2]

/-- The mode is set, and nothing else. -/
theorem holds_writeMode (hQ : Calm Q) (value : Word) :
    Holds (OnPages Q (length, count, mode)) (regWrite hardwareBus streamMode value)
      fun _ => OnPages Q (length, count, value) := by
  refine holds_write fun b hb => ⟨write_keeps hQ value rfl hb.mailbox, ?_⟩
  show (b.frameLength, b.frameCount, value) = _
  rw [hb.fields.1, hb.fields.2.1]

/-- The stream page is set as a whole. -/
theorem holds_restore (hQ : Calm Q) (length' count' mode' : Word) :
    Holds (OnPages Q (length, count, mode))
      (configRestoreStream hardwareBus length' count' mode')
      fun _ => OnPages Q (length', count', mode') :=
  holds_bind (holds_writeLength hQ length') fun _ =>
    holds_bind (holds_writeCount hQ count') fun _ => holds_writeMode hQ mode'

/-- DISCARD, the old registers of the stream page, and an error. -/
theorem holds_giveUp (hQ : Calm Q) (length' count' mode' : Word) (response : Message)
    (status : Status) (reason : ConfigReason) :
    Holds (OnPages Q (length, count, mode)) (do
      regWrite hardwareBus dspCommand dspCommandDiscard
      configRestoreStream hardwareBus length' count' mode'
      configError hardwareBus response status reason)
      fun r b => r.status = status ∧ OnPages Q (length', count', mode') b :=
  holds_bind (holds_write fun _ hb => hb.write hQ rfl (.inl (by decide))) fun _ =>
    holds_bind (holds_restore hQ length' count' mode') fun _ =>
      holds_configError (OnPages.kept hQ.steady) response status reason

end

/-! ## Words of a page -/

theorem offset_succ (base : Word) (j : ℕ) : base + BitVec.ofNat 32 (4 * j) + 4 =
    base + BitVec.ofNat 32 (4 * (j + 1)) := by
  rw [BitVec.add_assoc]
  congr 1
  rw [show 4 * (j + 1) = 4 * j + 4 from rfl, BitVec.ofNat_add]
  rfl

/-- Reading a page back: `f` is what its words hold. -/
theorem holds_match {Q : ℕ → Hardware → Prop} {base : Word} {f : Fin 9 → Word}
    (hread : ∀ (k : Fin 9) b, Q k b →
      (b.read (base + BitVec.ofNat 32 (4 * k))).1 = f k ∧
        Q (k + 1) (b.read (base + BitVec.ofNat 32 (4 * k))).2) :
    ∀ (l : List Word) (j : ℕ), j + l.length ≤ 9 →
      Holds (Q j) (regWordsMatch hardwareBus (base + BitVec.ofNat 32 (4 * j)) l)
        fun v b => (∃ i, Q i b) ∧ (v = true ↔ l <+: ((List.finRange 9).map f).drop j)
  | [], j, _ => holds_pure fun b hb => ⟨⟨j, hb⟩, by simp⟩
  | w :: ws, j, hlen => by
    have hj : j < 9 := by
      simp only [List.length_cons] at hlen
      omega
    -- the word at `j` is the first one that is left of the page
    have hdrop : ((List.finRange 9).map f).drop j =
        f ⟨j, hj⟩ :: ((List.finRange 9).map f).drop (j + 1) := by
      rw [List.drop_eq_getElem_cons (by simpa using hj)]
      simp
    unfold regWordsMatch
    refine holds_bind (R := fun v b => v = f ⟨j, hj⟩ ∧ Q (j + 1) b)
      (holds_read fun b hb => hread ⟨j, hj⟩ b hb) fun v => holds_fact fun hv => ?_
    rw [hdrop, hv, offset_succ]
    split
    next heq =>
      refine (holds_match hread ws (j + 1) (by simp only [List.length_cons] at hlen; omega)).mono
        fun v b hb => ⟨hb.1, hb.2.trans ?_⟩
      rw [heq, List.cons_prefix_cons]
      exact (and_iff_right rfl).symm
    next hne =>
      refine holds_pure fun b hb => ⟨⟨j + 1, hb⟩, ?_⟩
      rw [List.cons_prefix_cons]
      exact iff_of_false (by decide) fun h => hne h.1.symm

/-! ## The shadow page -/

/-- The shadow can be filled: no commit, and no rejection is shown. -/
structure Clean (m₁ m : Page) : Prop where
  still : Still m₁ m
  rejected : m.1.ctrl.regs.lastCommitRejected = false

/-- A mailbox that is still shows no answer. -/
theorem Still.notPulse {m₁ m : Page} (h : Still m₁ m) :
    m.1.ctrl.commitAccepted = false ∧ m.1.ctrl.commitRejected = false := by
  have hp := h.settled
  unfold Pulse at hp
  rwa [not_or, Bool.not_eq_true, Bool.not_eq_true] at hp

/-- Reads keep a clean shadow. -/
theorem steady_clean (m₁ : Page) : Steady (Clean m₁) := by
  intro m e hbus hr h
  exact ⟨h.still.tick hbus (hr.commandAt m.1),
    (congrArg (·.2.2) (h.still.contents hr)).trans h.rejected⟩

/-- The registers after the access phase of a write. -/
theorem complete_regs (g : Gap) (a : ApbIn) (m : Page) :
    (g.complete a m).1.ctrl.regs =
      (g.setUp a m).1.ctrl.regs.edge ((g.setUp a m).1.regsIn a) := rfl

theorem write_complete {offset value : Word} {b : Hardware} (hd : dspPage offset = true) :
    (b.write offset value).mailbox = b.gap.complete (dspWrite offset value) b.mailbox := by
  unfold Hardware.write
  rw [if_pos hd]

/-- DISCARD clears the rejection of an earlier commit. -/
theorem still_discard {m₁ : Page} {b : Hardware} (h : Still m₁ b.mailbox) :
    Clean m₁ (b.write dspCommand dspCommandDiscard).mailbox := by
  refine ⟨Hardware.write_calm (calm_still m₁) (.inl (by decide)) h, ?_⟩
  have hset := (calm_still m₁).steady.setUp b.gap (dspWrite dspCommand dspCommandDiscard) h
  rw [write_complete rfl, complete_regs]
  exact congrArg (·.2.2) (contents_discard
    (r := (b.gap.setUp (dspWrite dspCommand dspCommandDiscard) b.mailbox).1.ctrl.regs)
    (i := (b.gap.setUp (dspWrite dspCommand dspCommandDiscard) b.mailbox).1.regsIn _) rfl
    hset.quiet.notBusy.1)

theorem dspPage_shadow (k : Fin 9) :
    dspPage (dspShadowBase + BitVec.ofNat 32 (4 * k)) = true := by
  revert k
  decide

theorem dspPage_active (k : Fin 9) :
    dspPage (dspActiveBase + BitVec.ofNat 32 (4 * k)) = true := by
  revert k
  decide

/-- A write to the shadow is no COMMIT. -/
theorem clean_write {m₁ : Page} {b : Hardware} {k : Fin 9} {value : Word}
    (hv : DspConfig.halfWord k = true → value >>> 16 = 0) (h : Clean m₁ b.mailbox) :
    Clean m₁ (b.write (dspShadowBase + BitVec.ofNat 32 (4 * k)) value).mailbox := by
  have hno : ∀ k : Fin 9, (dspShadowBase + BitVec.ofNat 32 (4 * k)).setWidth 12 ≠ addrCommand := by
    decide
  refine ⟨Hardware.write_calm (calm_still m₁) (.inr (hno k)) h.still, ?_⟩
  have hset := (steady_clean m₁).setUp b.gap
    (dspWrite (dspShadowBase + BitVec.ofNat 32 (4 * k)) value) h
  obtain ⟨hacc, hrej⟩ := hset.still.notPulse
  rw [write_complete (dspPage_shadow k), complete_regs]
  generalize b.gap.setUp (dspWrite (dspShadowBase + BitVec.ofNat 32 (4 * k)) value) b.mailbox = m
    at *
  have hcontents := contents_shadow (r := m.1.ctrl.regs)
    (i := m.1.regsIn (dspWrite (dspShadowBase + BitVec.ofNat 32 (4 * k)) value)) rfl hv
    hset.still.quiet.notBusy.1 hacc hrej
  exact (congrArg (·.2.2) hcontents).trans hset.rejected

/-- The words fit the registers they are written to. -/
def Fits (l : List Word) (j : ℕ) : Prop :=
  ∀ k : Fin 9, j ≤ k → DspConfig.halfWord k = true → ∀ w ∈ l[(k : ℕ) - j]?, w >>> 16 = 0

/-- The shadow is filled word by word. -/
theorem holds_writeShadow {m₁ : Page} {stream : Word × Word × Word} {l : List Word} {j : ℕ}
    (hlen : j + l.length ≤ 9) (hfits : Fits l j) :
    Holds (OnPages (Clean m₁) stream)
      (regWriteWords hardwareBus (dspShadowBase + BitVec.ofNat 32 (4 * j)) l)
      fun _ => OnPages (Clean m₁) stream := by
  induction l generalizing j with
  | nil => exact holds_pure fun _ hb => hb
  | cons w ws ih =>
    rw [List.length_cons] at hlen
    have hw : DspConfig.halfWord ⟨j, by omega⟩ = true → w >>> 16 = 0 := fun hk =>
      hfits ⟨j, by omega⟩ le_rfl hk w (by simp)
    have hws : Fits ws (j + 1) := by
      intro k hk hhalf v hv
      refine hfits k (by omega) hhalf v ?_
      rw [show (k : ℕ) - j = (k : ℕ) - (j + 1) + 1 by omega]
      exact hv
    unfold regWriteWords
    rw [offset_succ]
    refine holds_bind (R := fun _ => OnPages (Clean m₁) stream)
      (holds_write fun b hb => ⟨@clean_write m₁ b ⟨j, by omega⟩ w hw hb.mailbox, ?_⟩) fun _ =>
      ih (by omega) hws
    exact (Hardware.write_streamPage (dspPage_shadow ⟨j, by omega⟩)).trans hb.stream

/-- A word of the shadow is read as it is. -/
theorem prdata_shadow (r : Regs) (i : RegsIn) (k : Fin 9)
    (ha : i.apb = dspRead (dspShadowBase + BitVec.ofNat 32 (4 * k))) :
    r.prdata i = r.shadow.word k := by
  have hall : ∀ k : Fin 9, (dspRead (dspShadowBase + BitVec.ofNat 32 (4 * k))).paddr ≠ addrCommand ∧
      (dspRead (dspShadowBase + BitVec.ofNat 32 (4 * k))).paddr ≠ addrStatus ∧
      (dspRead (dspShadowBase + BitVec.ofNat 32 (4 * k))).paddr ≠ addrRejectReason ∧
      (dspRead (dspShadowBase + BitVec.ofNat 32 (4 * k))).paddr ≠ addrActiveGeneration ∧
      pageWord addrShadow (dspRead (dspShadowBase + BitVec.ofNat 32 (4 * k))).paddr = some k := by
    decide
  obtain ⟨h₁, h₂, h₃, h₄, h₅⟩ := hall k
  unfold Regs.prdata
  rw [ha, if_neg h₁, if_neg h₂, if_neg h₃, if_neg h₄, h₅]

/-- A word of the active page is read as it is, but for the latched half of the identifier. -/
theorem prdata_active (r : Regs) (i : RegsIn) (k : Fin 9)
    (ha : i.apb = dspRead (dspActiveBase + BitVec.ofNat 32 (4 * k))) :
    r.prdata i = if k = 1 then r.activeConfigIdHighLatch else i.active.word k := by
  have hall : ∀ k : Fin 9, (dspRead (dspActiveBase + BitVec.ofNat 32 (4 * k))).paddr ≠ addrCommand ∧
      (dspRead (dspActiveBase + BitVec.ofNat 32 (4 * k))).paddr ≠ addrStatus ∧
      (dspRead (dspActiveBase + BitVec.ofNat 32 (4 * k))).paddr ≠ addrRejectReason ∧
      (dspRead (dspActiveBase + BitVec.ofNat 32 (4 * k))).paddr ≠ addrActiveGeneration ∧
      pageWord addrShadow (dspRead (dspActiveBase + BitVec.ofNat 32 (4 * k))).paddr = none ∧
      pageWord addrActive (dspRead (dspActiveBase + BitVec.ofNat 32 (4 * k))).paddr = some k := by
    decide
  obtain ⟨h₁, h₂, h₃, h₄, h₅, h₆⟩ := hall k
  unfold Regs.prdata
  rw [ha, if_neg h₁, if_neg h₂, if_neg h₃, if_neg h₄, h₅, h₆]

/-- The comparison says whether the shadow holds the words. -/
theorem holds_matchShadow {m₁ : Page} {stream : Word × Word × Word} (c : DspConfig × Bool × Bool)
    {l : List Word} (hlen : l.length = 9) :
    Holds (OnPages (fun m => Still m₁ m ∧ contents m.1.ctrl.regs = c) stream)
      (regWordsMatch hardwareBus dspShadowBase l)
      fun v b => (v = true → l = (List.finRange 9).map c.1.word) ∧
        OnPages (fun m => Still m₁ m ∧ contents m.1.ctrl.regs = c) stream b := by
  have hsteady := steady_contents m₁ c
  have hmatch := @holds_match
    (fun _ => OnPages (fun m => Still m₁ m ∧ contents m.1.ctrl.regs = c) stream) dspShadowBase
    c.1.word (fun k b hb => by
      refine ⟨?_, OnPages.kept hsteady _ b hb⟩
      have hset := hsteady.setUp b.gap (dspRead (dspShadowBase + BitVec.ofNat 32 (4 * k)))
        hb.mailbox
      rw [Hardware.read_dsp (dspPage_shadow k)]
      exact (prdata_shadow _ _ k rfl).trans
        (congrArg (fun x : DspConfig × Bool × Bool => x.1.word k) hset.2)) l 0 (by omega)
  refine hmatch.mono fun v b hb => ⟨fun hv => ?_, hb.1.choose_spec⟩
  refine (hb.2.mp hv).eq_of_length ?_
  simp [hlen]

/-! ## The commit -/

theorem prdata_status (r : Regs) (i : RegsIn) (ha : i.apb = dspRead dspStatus) :
    r.prdata i = r.statusWord i := by
  unfold Regs.prdata
  rw [ha]
  rfl

theorem prdata_generation (r : Regs) (i : RegsIn) (ha : i.apb = dspRead dspActiveGeneration) :
    r.prdata i = i.activeGeneration := by
  unfold Regs.prdata
  rw [ha]
  rfl

/-- What the firmware's masks find in the status word. -/
theorem statusWord_bits (r : Regs) (i : RegsIn) :
    (r.statusWord i &&& dspStatusRejected = 0 ↔ r.lastCommitRejected = false) ∧
      (r.statusWord i &&& dspStatusBusy = 0 ↔ i.commitBusy = false) ∧
      (r.statusWord i &&& (dspStatusDirty ||| dspStatusBusy ||| dspStatusValid |||
        dspStatusRejected) = dspStatusValid ↔
        r.shadowDirty = false ∧ i.commitBusy = false ∧ i.activeValid = true ∧
          r.lastCommitRejected = false) := by
  have hall : ∀ rejected valid busy dirty : Bool,
      let w : Word := (0 : BitVec 28) ++ BitVec.ofBool rejected ++ BitVec.ofBool valid ++
        BitVec.ofBool busy ++ BitVec.ofBool dirty
      (w &&& dspStatusRejected = 0 ↔ rejected = false) ∧ (w &&& dspStatusBusy = 0 ↔ busy = false) ∧
        (w &&& (dspStatusDirty ||| dspStatusBusy ||| dspStatusValid ||| dspStatusRejected) =
          dspStatusValid ↔ dirty = false ∧ busy = false ∧ valid = true ∧ rejected = false) := by
    decide
  exact hall r.lastCommitRejected i.activeValid i.commitBusy r.shadowDirty

/-- COMMIT on a still mailbox starts a commit of the shadow. -/
theorem flight_of_commit {m₁ : Page} {c : DspConfig × Bool × Bool} (hc : c.2.2 = false)
    {b : Hardware} (h : Still m₁ b.mailbox ∧ contents b.mailbox.1.ctrl.regs = c) :
    Flight m₁ (b.write dspCommand dspCommandCommit).mailbox c.1 := by
  have hset := (steady_contents m₁ c).setUp b.gap (dspWrite dspCommand dspCommandCommit) h
  have hallows := setUp_allows b.gap (dspWrite dspCommand dspCommandCommit) b.mailbox
  rw [write_complete rfl]
  unfold Gap.complete
  generalize b.gap.setUp (dspWrite dspCommand dspCommandCommit) b.mailbox = m at *
  obtain ⟨hstill, hcontents⟩ := hset
  obtain ⟨hacc, hrej⟩ := hstill.notPulse
  have hbusy := hstill.quiet.notBusy.1
  have hcommits : Regs.commits (m.1.regsIn (dspWrite dspCommand dspCommandCommit)) = true := by
    have hb : (m.1.regsIn (dspWrite dspCommand dspCommandCommit)).commitBusy = false := hbusy
    unfold Regs.commits
    rw [hb]
    rfl
  obtain ⟨p, q, hat⟩ := hstill.quiet
  have hfinishes : m.1.finishes = false := by
    rw [hat.finishes]
    rfl
  -- the command that is logged is the shadow
  have hcommand : m.1.commandAt ⟨some (dspWrite dspCommand dspCommandCommit), b.gap.access⟩ =
      [c.1] := by
    unfold Core.commandAt
    dsimp only
    rw [hcommits, if_pos rfl]
    exact congrArg (fun x : DspConfig × Bool × Bool => [x.1]) hcontents
  refine ⟨?_, ⟨_, _, _, at_step hat hallows, ?_⟩, ?_, ?_⟩
  · have hsince : Since m₁ m [] := by
      refine ⟨⟨.quiet, p, q, hat⟩, hstill.valid, ?_, [], ?_, hstill.active⟩
      · rw [hstill.log, List.append_nil]
      · rw [hstill.log, List.append_nil]
    have hnext := hsince.tick hallows
    rw [hcommand] at hnext
    exact hnext
  · unfold Core.nextStage
    dsimp only
    rw [Option.any_some, hcommits]
    show Stage.commanded ≠ .quiet
    decide
  · obtain ⟨hacc', hrej'⟩ := Core.nextTransaction_quiet hfinishes
    show ¬(m.1.nextTransaction.commitAccepted = true ∨ m.1.nextTransaction.commitRejected = true)
    rw [hacc', hrej']
    decide
  · have hsame := contents_commit (r := m.1.ctrl.regs)
      (i := m.1.regsIn (dspWrite dspCommand dspCommandCommit)) rfl hbusy hacc hrej
    exact (congrArg (·.2.2) (hsame.trans hcontents)).trans hc

/-- A commit of `w` is under way or has its response. -/
def Flying (m₁ : Page) (w : DspConfig) (m : Page) : Prop :=
  Flight m₁ m w ∨ ∃ accepted, Landed m₁ m w accepted

/-- A commit has its response, and the flags show it. -/
def Done (m₁ : Page) (w : DspConfig) (accepted : Bool) (m : Page) : Prop :=
  Landed m₁ m w accepted ∧ ¬Pulse m

/-- Reads leave an answered commit as it is. -/
theorem steady_done (m₁ : Page) (w : DspConfig) (accepted : Bool) :
    Steady (Done m₁ w accepted) := by
  intro m e hbus hr h
  obtain ⟨hlanded, hpulse⟩ := h.1.tick hbus hr
  refine ⟨hlanded, ?_⟩
  cases ha : e.apb with
  | some a => exact hpulse (by rw [ha]; rfl)
  | none =>
    have hsame : (m.tick e).1.ctrl = m.1.ctrl := Core.step_ctrl_none ha
    unfold Pulse
    rw [hsame]
    exact h.2

/-- The status shows how the commit was answered. -/
theorem Done.flags {m₁ m : Page} {w : DspConfig} {accepted : Bool} (h : Done m₁ w accepted m) :
    m.1.ctrl.regs.lastCommitRejected = (!accepted) ∧
      (accepted = true → m.1.ctrl.regs.shadowDirty = false) := by
  rcases h.1.flags with ⟨hacc, hrej, -⟩ | ⟨-, hflags⟩
  · exfalso
    refine h.2 ?_
    unfold Pulse
    rw [hacc, hrej]
    cases accepted
    · exact .inr rfl
    · exact .inl rfl
  · exact hflags

/-- A mailbox that is not busy at an access has answered the commit. -/
theorem Flying.landed {m₁ m : Page} {w : DspConfig} (h : Flying m₁ w m)
    (hready : m.1.ctrl.accessBefore = false) (hbusy : m.1.commitBusy = false) :
    ∃ accepted, Landed m₁ m w accepted := by
  rcases h with h | h
  · obtain ⟨stage, p, q, hat, hstage⟩ := h.stage
    rw [hat.commitBusy, Bool.or_eq_false_iff] at hbusy
    -- not busy under way means that the command has just been taken, which no setup phase sees
    have hcommanded : stage = .commanded := by
      cases stage with
      | quiet => exact absurd rfl hstage
      | commanded => rfl
      | sending | requested | evaluated | answering | received => cases hbusy.1
    have := hat.accessBefore hcommanded
    rw [hready] at this
    cases this
  · exact h

/-- What a read of the status tells about a commit. -/
theorem holds_readStatus {m₁ : Page} (h₁ : AtRest m₁) {w : DspConfig}
    {stream : Word × Word × Word} :
    Holds (OnPages (Flying m₁ w) stream) (regRead hardwareBus dspStatus) fun v b =>
      (v &&& dspStatusRejected ≠ 0 → OnPages (Done m₁ w false) stream b) ∧
      (v &&& dspStatusBusy = 0 → ∃ accepted, OnPages (Done m₁ w accepted) stream b) ∧
      OnPages (Flying m₁ w) stream b := by
  refine holds_read fun b hb => ?_
  have hstream : (b.read dspStatus).2.streamPage = stream :=
    Hardware.read_streamPage.trans hb.stream
  have hflying := @Hardware.read_steady _ dspStatus _ (steady_flight h₁ w) hb.mailbox
  have hset : Flying m₁ w (b.gap.setUp (dspRead dspStatus) b.mailbox) :=
    (steady_flight h₁ w).setUp _ _ hb.mailbox
  have hready := setUp_ready b.gap (dspRead dspStatus) b.mailbox
  have hallows := setUp_allows b.gap (dspRead dspStatus) b.mailbox
  have hread := @Hardware.read_dsp dspStatus b rfl
  rw [prdata_status _ _ rfl] at hread
  have hvalue := congrArg Prod.fst hread
  have hmailbox : (b.read dspStatus).2.mailbox =
      (b.gap.setUp (dspRead dspStatus) b.mailbox).tick ⟨some (dspRead dspStatus), b.gap.access⟩ :=
    congrArg (fun r => r.2.mailbox) hread
  obtain ⟨hrejected, hbusy, -⟩ := statusWord_bits
    (b.gap.setUp (dspRead dspStatus) b.mailbox).1.ctrl.regs
    ((b.gap.setUp (dspRead dspStatus) b.mailbox).1.regsIn (dspRead dspStatus))
  have hdone : ∀ {accepted}, Landed m₁ (b.gap.setUp (dspRead dspStatus) b.mailbox) w accepted →
      OnPages (Done m₁ w accepted) stream (b.read dspStatus).2 := by
    intro accepted hl
    obtain ⟨hlanded, hpulse⟩ := hl.tick hallows (reading_dspRead _ _)
    refine ⟨?_, hstream⟩
    rw [hmailbox]
    exact ⟨hlanded, hpulse rfl⟩
  refine ⟨fun hv => ?_, fun hv => ?_, hflying, hstream⟩
  · -- a rejection is shown only by the flags of an answered commit, and not by an accepted one
    rw [hvalue] at hv
    have hflag := (not_congr hrejected).mp hv
    rw [Bool.not_eq_false] at hflag
    rcases hset with hf | ⟨accepted, hl⟩
    · rw [hf.rejected] at hflag
      cases hflag
    · rcases hl.flags with ⟨-, -, hno⟩ | ⟨-, hshown, -⟩
      · rw [hno] at hflag
        cases hflag
      · rw [hshown] at hflag
        cases accepted with
        | true => cases hflag
        | false => exact hdone hl
  · -- the pulse of the response is over at the edge of this access
    rw [hvalue] at hv
    obtain ⟨accepted, hl⟩ := hset.landed hready (hbusy.mp hv)
    exact ⟨accepted, hdone hl⟩

/-- What the control side shows of a commit that is answered. -/
theorem holds_readGeneration {P : Page → Prop} (hP : Steady P) {stream : Word × Word × Word}
    {A : DspConfig × Word} (hrest : ∀ m, P m → AtRest m ∧ m.active = A) :
    Holds (OnPages P stream) (regRead hardwareBus dspActiveGeneration)
      fun v b => v = A.2 ∧ OnPages P stream b := by
  refine holds_read fun b hb => ⟨?_, OnPages.kept hP _ b hb⟩
  have hset := hP.setUp b.gap (dspRead dspActiveGeneration) hb.mailbox
  obtain ⟨hquiet, hactive⟩ := hrest _ hset
  rw [Hardware.read_dsp rfl, prdata_generation _ _ rfl]
  show (b.gap.setUp (dspRead dspActiveGeneration) b.mailbox).1.ctrl.generation = A.2
  rw [hquiet.notBusy.2.2]
  exact congrArg Prod.snd hactive

/-- The conditions behind a poll. -/
def AfterPoll (m₁ : Page) (w : DspConfig) (stream : Word × Word × Word) :
    Option CommitWait → Hardware → Prop
  | some .committed, b => OnPages (Done m₁ w true) stream b
  | some .rejected, b => OnPages (Done m₁ w false) stream b
  | some .timedOut, _ => False
  | none, b => OnPages (Flying m₁ w) stream b

/-- A commit that was accepted has advanced the generation by one. -/
theorem Done.rest {m₁ m : Page} {w : DspConfig} {accepted : Bool} (h : Done m₁ w accepted m) :
    AtRest m ∧ m.active = if accepted then (w, m₁.active.2 + 1) else m₁.active :=
  ⟨h.1.quiet, h.1.active⟩

/-- One poll sees the commit under way, rejected or taken. -/
theorem holds_poll {m₁ : Page} (h₁ : AtRest m₁) {w : DspConfig} {stream : Word × Word × Word} :
    Holds (OnPages (Flying m₁ w) stream) (pollCommit hardwareBus m₁.active.2)
      (AfterPoll m₁ w stream) := by
  unfold pollCommit
  refine holds_bind (holds_readStatus h₁) fun v => ?_
  split
  next hrejected => exact holds_pure fun b hb => hb.1 hrejected
  next =>
    split
    next hbusy =>
      intro s hs
      -- what was answered stays so while the generation is read
      obtain ⟨accepted, hdone⟩ := hs.2.1 hbusy
      refine holds_bind (holds_readGeneration (steady_done m₁ w accepted) fun m hm => hm.rest)
        (fun g => holds_fact fun hg => holds_pure fun b hb => ?_) s hdone
      split
      next hnext =>
        cases accepted with
        | true => exact hb
        | false =>
          -- a generation is not its own successor
          have hg' : g = m₁.active.2 := hg
          rw [hg'] at hnext
          generalize m₁.active.2 = before at hnext
          bv_omega
      next => exact ⟨.inr ⟨accepted, hb.mailbox.1⟩, hb.stream⟩
    next => exact holds_pure fun b hb => hb.2.2

/-- The conditions behind the wait: nothing is known after the timeout. -/
def AfterWait (m₁ : Page) (w : DspConfig) (stream : Word × Word × Word) :
    CommitWait → Hardware → Prop
  | .timedOut, _ => True
  | outcome, b => AfterPoll m₁ w stream (some outcome) b

/-- The wait ends with the answer, or with a timeout. -/
theorem holds_wait {m₁ : Page} (h₁ : AtRest m₁) {w : DspConfig} {stream : Word × Word × Word} :
    ∀ n, Holds (OnPages (Flying m₁ w) stream) (waitForCommit hardwareBus m₁.active.2 n)
      (AfterWait m₁ w stream)
  | 0 => by
    unfold waitForCommit
    refine holds_bind (holds_poll h₁) fun outcome => holds_pure fun b hb => ?_
    match outcome, hb with
    | some .committed, hb => exact hb
    | some .rejected, hb => exact hb
    | some .timedOut, hb => exact hb.elim
    | none, _ => exact trivial
  | n + 1 => by
    unfold waitForCommit
    refine holds_bind (holds_poll h₁) fun outcome => ?_
    match outcome with
    | some .committed => exact holds_pure fun b hb => hb
    | some .rejected => exact holds_pure fun b hb => hb
    | some .timedOut => exact holds_pure fun b hb => hb.elim
    | none => exact holds_wait h₁ n

/-! ## The active page -/

/-- The latch for the upper half of the id. -/
def Latched (w : DspConfig) (m : Page) : Prop :=
  m.1.ctrl.regs.activeConfigIdHighLatch = w.configId.extractLsb' 32 32

/-- The bus side shows the configuration that was accepted. -/
theorem Done.ctrlActive {m₁ m : Page} {w : DspConfig} (h : Done m₁ w true m) :
    m.1.ctrl.active = w := by
  rw [h.1.quiet.notBusy.2.1]
  exact congrArg Prod.fst h.1.active

/-- The latch holds the accepted identifier from the read of its low half on. -/
theorem latched_tick {m₁ m : Page} {w : DspConfig} (h : Done m₁ w true m) {e : Edges}
    (hr : Reading e) (hl : Latched w m ∨ ∃ a, e.apb = some a ∧ a = dspRead (dspActiveBase)) :
    Latched w (m.tick e) := by
  unfold Latched Page.tick
  cases ha : e.apb with
  | none =>
    rw [Core.step_ctrl_none ha]
    rcases hl with hl | ⟨a, he, -⟩
    · exact hl
    · rw [ha] at he
      cases he
  | some a =>
    rw [Core.step_ctrl ha]
    refine (latch_reading (hr a ha)).trans ?_
    split
    next =>
      show m.1.ctrl.active.configId.extractLsb' 32 32 = _
      rw [h.ctrlActive]
    next hno =>
      rcases hl with hl | ⟨a', he, rfl⟩
      · exact hl
      · rw [ha] at he
        obtain rfl := Option.some.inj he
        exact absurd rfl hno

/-- Reads keep it so. -/
theorem steady_latched (m₁ : Page) (w : DspConfig) :
    Steady fun m => Done m₁ w true m ∧ Latched w m := by
  intro m e hbus hr h
  exact ⟨steady_done m₁ w true m e hbus hr h.1, latched_tick h.1 hr (.inl h.2)⟩

/-- Before the first word of the active page is read nothing is known of the latch. -/
def BeforeWord (m₁ : Page) (w : DspConfig) (stream : Word × Word × Word) (k : ℕ) :
    Hardware → Prop :=
  if k = 0 then OnPages (Done m₁ w true) stream
  else OnPages (fun m => Done m₁ w true m ∧ Latched w m) stream

theorem BeforeWord.done {m₁ : Page} {w : DspConfig} {stream : Word × Word × Word} {k : ℕ}
    {b : Hardware} (h : BeforeWord m₁ w stream k b) : OnPages (Done m₁ w true) stream b := by
  unfold BeforeWord at h
  split at h
  · exact h
  · exact ⟨h.mailbox.1, h.stream⟩

/-- The active page holds the words that were committed. -/
theorem holds_matchActive {m₁ : Page} {w : DspConfig} {stream : Word × Word × Word} :
    Holds (OnPages (Done m₁ w true) stream)
      (regWordsMatch hardwareBus dspActiveBase ((List.finRange 9).map w.word))
      fun v b => v = true ∧ OnPages (Done m₁ w true) stream b := by
  have hmatch := @holds_match (BeforeWord m₁ w stream) dspActiveBase w.word (fun k b hb => by
    have hdone := hb.done
    have hset := (steady_done m₁ w true).setUp b.gap
      (dspRead (dspActiveBase + BitVec.ofNat 32 (4 * k))) hdone.mailbox
    refine ⟨?_, ?_⟩
    · -- the upper half of the id comes from the latch, which the read of the lower half has filled
      rw [Hardware.read_dsp (dspPage_active k)]
      refine (prdata_active _ _ k rfl).trans ?_
      split
      next hk =>
        have hone : ((k : Fin 9) : ℕ) ≠ 0 := by
          rw [hk]
          decide
        unfold BeforeWord at hb
        rw [if_neg hone] at hb
        rw [hk]
        exact ((steady_latched m₁ w).setUp b.gap _ hb.mailbox).2
      next => exact congrArg (fun c => DspConfig.word c k) hset.ctrlActive
    · unfold BeforeWord
      rw [if_neg (Nat.succ_ne_zero _)]
      refine ⟨?_, Hardware.read_streamPage.trans hdone.stream⟩
      rw [Hardware.read_dsp (dspPage_active k)]
      refine ⟨steady_done m₁ w true _ _ (setUp_allows _ _ _) (reading_dspRead _ _) hset,
        latched_tick hset (reading_dspRead _ _) ?_⟩
      by_cases hk : ((k : Fin 9) : ℕ) = 0
      · right
        refine ⟨_, rfl, ?_⟩
        rw [hk]
        rfl
      · left
        unfold BeforeWord at hb
        rw [if_neg hk] at hb
        exact ((steady_latched m₁ w).setUp b.gap _ hb.mailbox).2) ((List.finRange 9).map w.word) 0
    (by simp)
  refine fun s hs => ?_
  have hstart : BeforeWord m₁ w stream 0 s.bus := by
    unfold BeforeWord
    rw [if_pos rfl]
    exact hs
  obtain ⟨⟨i, hi⟩, hv⟩ := hmatch s hstart
  exact ⟨hv.mpr List.prefix_rfl, hi.done⟩

/-! ## The request -/

/-- The words of a configuration as the stream page and the stream side have them. -/
structure Installed (words : ConfigWords) (generation : Word) (b : Hardware) : Prop where
  stream : b.streamPage =
    (words.get configFrameLengthWord, words.get configFrameCountWord, streamModeDsp)
  active : (List.finRange 9).map b.mailbox.1.stream.active.word = dspWords words
  generation : b.mailbox.1.stream.generation = generation
  mirrors : b.mailbox.1.Mirrors

/-- OK installs the words; another answer but the timeout leaves the pages with the configuration
and the generation of `A`. -/
structure Ends (words : ConfigWords) (stream : Word × Word × Word) (A : DspConfig × Word)
    (r : Message) (b : Hardware) : Prop where
  ok : r.status = .ok → Installed words (A.2 + 1) b
  unchanged : r.status ≠ .ok → r.status ≠ .timeout → b.streamPage = stream ∧ b.mailbox.active = A

/-- An error that leaves everything as it was. -/
theorem ends_of_error {words : ConfigWords} {stream : Word × Word × Word} {A : DspConfig × Word}
    {r : Message} {b : Hardware} {status : Status} {P : Page → Prop} (hne : status ≠ .ok)
    (hP : ∀ m, P m → m.active = A) (h : r.status = status ∧ OnPages P stream b) :
    Ends words stream A r b where
  ok hok := absurd (h.1.symm.trans hok) hne
  unchanged _ _ := ⟨h.2.stream, hP _ h.2.mailbox⟩

/-- A commit that was taken ends well. -/
theorem holds_verifyActive {m₁ : Page} {w : DspConfig} {words : ConfigWords}
    {stream : Word × Word × Word} {response : Message} (hresponse : response.status = .ok)
    (hw : dspWords words = (List.finRange 9).map w.word) :
    Holds (OnPages (Done m₁ w true)
        (words.get configFrameLengthWord, words.get configFrameCountWord, streamModeDsp))
      (verifyActive hardwareBus words response) (Ends words stream m₁.active) := by
  have hkept : Kept (OnPages (Done m₁ w true)
      (words.get configFrameLengthWord, words.get configFrameCountWord, streamModeDsp)) :=
    OnPages.kept (steady_done m₁ w true)
  unfold verifyActive
  rw [hw]
  refine holds_bind holds_matchActive fun v => holds_fact fun hv => ?_
  rw [hv, if_neg (by decide)]
  refine holds_bind (R := fun v b => v &&& (dspStatusDirty ||| dspStatusBusy ||| dspStatusValid |||
      dspStatusRejected) = dspStatusValid ∧ OnPages (Done m₁ w true)
        (words.get configFrameLengthWord, words.get configFrameCountWord, streamModeDsp) b)
    (holds_read fun b hb => ⟨?_, hkept _ b hb⟩) fun v => holds_fact fun hv => ?_
  · have hset := (steady_done m₁ w true).setUp b.gap (dspRead dspStatus) hb.mailbox
    obtain ⟨hrejected, hdirty⟩ := hset.flags
    rw [Hardware.read_dsp rfl, prdata_status _ _ rfl]
    exact (statusWord_bits _ _).2.2.mpr
      ⟨hdirty rfl, hset.1.quiet.notBusy.1, hset.1.valid, hrejected⟩
  · rw [if_neg (not_not.mpr hv)]
    refine (holds_bind (holds_setReason .none) fun _ => holds_statusPayload hkept response).mono
      fun r b hb => ⟨fun _ => ?_, fun hne => absurd (hb.1.trans hresponse) hne⟩
    have hactive := hb.2.mailbox.1.active
    refine ⟨hb.2.stream, ?_, congrArg Prod.snd hactive, hb.2.mailbox.1.quiet.notBusy.2⟩
    rw [hw]
    exact congrArg (fun A : DspConfig × Word => (List.finRange 9).map A.1.word) hactive

/-- A word that passes the mask has no high half. -/
theorem ushiftRight_of_mask {x : Word} (h : x &&& 0xFFFF0000 = 0) : x >>> 16 = 0 := by
  refine BitVec.eq_of_getLsbD_eq fun i hi => ?_
  rw [BitVec.getLsbD_ushiftRight]
  change x.getLsbD (16 + i) = (0#32).getLsbD i
  rw [BitVec.getLsbD_zero]
  by_cases hlt : 16 + i < 32
  · have hmask : ∀ k < 32, 16 ≤ k → (0xFFFF0000 : Word).getLsbD k = true := by decide
    have hbit := congrArg (BitVec.getLsbD · (16 + i)) h
    change (x &&& 0xFFFF0000).getLsbD (16 + i) = (0#32).getLsbD (16 + i) at hbit
    rw [BitVec.getLsbD_and, hmask (16 + i) hlt (by omega), Bool.and_true,
      BitVec.getLsbD_zero] at hbit
    exact hbit
  · exact BitVec.getLsbD_of_ge _ _ (by omega)

/-- The words of a valid configuration fit the registers. -/
theorem fits_of_valid {words : ConfigWords} (h : validateRuntimeConfig words = .none) :
    Fits (dspWords words) 0 := by
  have hmask : words[configSignalAmplitudeWord] &&& 0xFFFF0000 = 0 ∧
      words[configNoiseAmplitudeWord] &&& 0xFFFF0000 = 0 ∧
      words[configNoiseSeedWord] &&& 0xFFFF0000 = 0 := by
    unfold validateRuntimeConfig at h
    dsimp only at h
    split at h
    · cases h
    split at h
    · cases h
    next hsignal =>
      split at h
      · cases h
      next hnoise =>
        split at h
        · cases h
        split at h
        · cases h
        next hseed =>
          rw [not_or, not_not] at hsignal hnoise hseed
          exact ⟨hsignal.1, hnoise.1, hseed.1⟩
  have hword : ∀ (k : Fin 9) (k' : Fin 11), (k : ℕ) = k' →
      (dspWords words)[(k : ℕ) - 0]? = some words[k'] := by
    intro k k' hk
    have hlt := k.isLt
    simp [dspWords, hk, show (k' : ℕ) < 9 by omega]
  intro k _ hhalf w hw
  obtain ⟨hsignal, hnoise, hseed⟩ := hmask
  simp only [DspConfig.halfWord, Bool.or_eq_true, decide_eq_true_eq] at hhalf
  obtain (rfl | rfl) | rfl := hhalf
  · rw [hword 4 configSignalAmplitudeWord rfl] at hw
    exact Option.some.inj hw ▸ ushiftRight_of_mask hsignal
  · rw [hword 5 configNoiseAmplitudeWord rfl] at hw
    exact Option.some.inj hw ▸ ushiftRight_of_mask hnoise
  · rw [hword 6 configNoiseSeedWord rfl] at hw
    exact Option.some.inj hw ▸ ushiftRight_of_mask hseed

/-- Behind the stream page the commit is atomic, except for its timeout. -/
theorem holds_commitDsp {m₁ : Page} (h₁ : AtRest m₁) {words : ConfigWords} {response : Message}
    (hresponse : response.status = .ok) (hwords : validateRuntimeConfig words = .none)
    (length count mode : Word) :
    Holds (OnPages (Still m₁)
        (words.get configFrameLengthWord, words.get configFrameCountWord, streamModeDsp))
      (commitDsp hardwareBus words length count mode response)
      (Ends words (length, count, mode) m₁.active) := by
  have hcalm := calm_atRest m₁.active
  have hgiveUp : ∀ (status : Status) (reason : ConfigReason) {P : Page → Prop}, status ≠ .ok →
      (∀ m, P m → AtRest m ∧ m.active = m₁.active) → Holds (OnPages P
          (words.get configFrameLengthWord, words.get configFrameCountWord, streamModeDsp)) (do
        regWrite hardwareBus dspCommand dspCommandDiscard
        configRestoreStream hardwareBus length count mode
        configError hardwareBus response status reason)
        (Ends words (length, count, mode) m₁.active) := fun status reason _ hne hP s hs =>
    ends_of_error hne (fun _ hm => hm.2) (holds_giveUp hcalm length count mode response status
      reason s ⟨hP _ hs.mailbox, hs.stream⟩)
  unfold commitDsp
  refine holds_bind (R := fun _ => OnPages (Clean m₁)
      (words.get configFrameLengthWord, words.get configFrameCountWord, streamModeDsp))
    (holds_write fun b hb => ⟨still_discard hb.mailbox,
      (Hardware.write_streamPage rfl).trans hb.stream⟩) fun _ => ?_
  refine holds_bind (R := fun _ => OnPages (Clean m₁)
      (words.get configFrameLengthWord, words.get configFrameCountWord, streamModeDsp)) ?_
    fun _ => ?_
  · have hwrite := @holds_writeShadow m₁
      (words.get configFrameLengthWord, words.get configFrameCountWord, streamModeDsp)
      (dspWords words) 0 (by simp [dspWords]) (fits_of_valid hwords)
    exact hwrite
  · intro s hs
    have hrejected : (contents s.bus.mailbox.1.ctrl.regs).2.2 = false := hs.mailbox.rejected
    have hstart : OnPages (fun m => Still m₁ m ∧
        contents m.1.ctrl.regs = contents s.bus.mailbox.1.ctrl.regs)
        (words.get configFrameLengthWord, words.get configFrameCountWord, streamModeDsp) s.bus :=
      ⟨⟨hs.mailbox.still, rfl⟩, hs.stream⟩
    -- from here on the shadow is `c`, whatever it is
    generalize contents s.bus.mailbox.1.ctrl.regs = c at hrejected hstart
    have hrest : ∀ m, (Still m₁ m ∧ contents m.1.ctrl.regs = c) → AtRest m ∧ m.active = m₁.active :=
      fun m hm => ⟨hm.1.quiet, hm.1.active⟩
    refine holds_bind (holds_matchShadow c (by simp [dspWords])) (fun shadow => ?_) s hstart
    refine holds_fact fun hshadow => ?_
    cases shadow with
    | false =>
      rw [if_pos (by rfl)]
      exact hgiveUp .configVerify .shadowVerify (by decide) hrest
    | true =>
      rw [if_neg (by decide)]
      refine holds_bind (holds_readGeneration (steady_contents m₁ c) hrest) fun before =>
        holds_fact fun hbefore => ?_
      rw [hbefore]
      refine holds_bind (R := fun _ => OnPages (Flying m₁ c.1)
          (words.get configFrameLengthWord, words.get configFrameCountWord, streamModeDsp))
        (holds_write fun b hb => ⟨.inl (flight_of_commit hrejected hb.mailbox),
          (Hardware.write_streamPage rfl).trans hb.stream⟩) fun _ => ?_
      refine holds_bind holds_get fun s' => holds_bind (holds_wait h₁ _) fun outcome => ?_
      cases outcome with
      | committed => exact holds_verifyActive hresponse (hshadow rfl)
      | rejected => exact hgiveUp .configRejected .plRejected (by decide) fun m hm => hm.rest
      | timedOut =>
        -- the timeout promises nothing
        refine ((holds_configError (fun _ _ h => h) response .timeout .commitTimeout).mono
          fun r b hb => ⟨fun hok => ?_, fun _ hne => absurd hb.1 hne⟩)
        rw [hb.1] at hok
        cases hok

/-! ## The gates -/

/-- What the firmware reads of the stream page. -/
theorem holds_readStream {m₁ : Page} {length count mode : Word} :
    Holds (OnPages (Still m₁) (length, count, mode)) (regRead hardwareBus streamFrameLength)
        (fun v b => v = length ∧ OnPages (Still m₁) (length, count, mode) b) ∧
      Holds (OnPages (Still m₁) (length, count, mode)) (regRead hardwareBus streamFrameCount)
        (fun v b => v = count ∧ OnPages (Still m₁) (length, count, mode) b) ∧
      Holds (OnPages (Still m₁) (length, count, mode)) (regRead hardwareBus streamMode)
        (fun v b => v = mode ∧ OnPages (Still m₁) (length, count, mode) b) := by
  have hkept : Kept (OnPages (Still m₁) (length, count, mode)) :=
    OnPages.kept (calm_still m₁).steady
  exact ⟨holds_read fun b hb => ⟨hb.fields.1, hkept _ b hb⟩,
    holds_read fun b hb => ⟨hb.fields.2.1, hkept _ b hb⟩,
    holds_read fun b hb => ⟨hb.fields.2.2, hkept _ b hb⟩⟩

/-- What was written to the stream page is read back. -/
theorem holds_matchStream {m₁ : Page} {length count mode : Word} :
    Holds (OnPages (Still m₁) (length, count, mode))
      (regsMatch hardwareBus
        [(streamFrameLength, length), (streamFrameCount, count), (streamMode, mode)])
      fun v b => v = true ∧ OnPages (Still m₁) (length, count, mode) b := by
  refine holds_bind holds_readStream.1 fun _ => holds_fact fun hlength => ?_
  rw [if_pos hlength]
  refine holds_bind holds_readStream.2.1 fun _ => holds_fact fun hcount => ?_
  rw [if_pos hcount]
  refine holds_bind holds_readStream.2.2 fun _ => holds_fact fun hmode => ?_
  rw [if_pos hmode]
  exact holds_pure fun b hb => ⟨rfl, hb⟩

/-- It is so with the stream page, when no commit is under way. -/
theorem holds_commitStream {m₁ : Page} (h₁ : AtRest m₁) {words : ConfigWords} {response : Message}
    (hresponse : response.status = .ok) (hwords : validateRuntimeConfig words = .none)
    {length count mode : Word} :
    Holds (OnPages (Still m₁) (length, count, mode))
      (commitStream hardwareBus words response) (Ends words (length, count, mode) m₁.active) := by
  have hcalm := calm_still m₁
  unfold commitStream
  refine holds_bind holds_readStream.1 fun _ => holds_fact fun hlength =>
    holds_bind holds_readStream.2.1 fun _ => holds_fact fun hcount =>
    holds_bind holds_readStream.2.2 fun _ => holds_fact fun hmode => ?_
  rw [hlength, hcount, hmode]
  refine holds_bind (holds_writeLength hcalm _) fun _ => holds_bind (holds_writeCount hcalm _)
    fun _ => holds_bind (holds_writeMode hcalm _) fun _ => ?_
  refine holds_bind holds_matchStream fun matched => holds_fact fun hmatched => ?_
  rw [hmatched, if_neg (by decide)]
  exact holds_commitDsp h₁ hresponse hwords length count mode

/-- The configuration and the generation that the stream side can have when the commits so far are
over: those it has, or those of a commit that is still under way. -/
def Possible (m₀ : Page) (A : DspConfig × Word) : Prop :=
  A = m₀.active ∨
    A.1 ∈ m₀.2.commands.drop m₀.2.outcomes.length ∧ A.2 = m₀.active.2 + 1

/-- Without a command since, the configuration is the old one or that of the earlier commit. -/
theorem possible_of_since {m₀ m : Page} (h₀ : InStage m₀) (h : Since m₀ m []) :
    Possible m₀ m.active := by
  obtain ⟨stage, p, q, hat⟩ := h.inStage
  obtain ⟨stage₀, p₀, q₀, hat₀⟩ := h₀
  obtain ⟨new, hnew, hactive⟩ := h.outcomes
  obtain ⟨rest, hrest⟩ := hat.exact.outcomes
  rw [h.commands, List.append_nil, hnew, List.map_append, List.append_assoc] at hrest
  have hdrop : m₀.2.commands.drop m₀.2.outcomes.length = new.map (·.request) ++ rest := by
    rw [← hrest, List.drop_left' (List.length_map _)]
  -- a mailbox has at most one command without its response
  have hone : new.length ≤ 1 := by
    have hcommands := hat₀.exact.commands
    have hresponses := hat₀.exact.responses.length_le
    have hlen := congrArg List.length hrest
    simp only [List.length_append, List.length_map] at hlen hresponses
    omega
  unfold Possible
  rw [hdrop, hactive]
  match new, hone with
  | [], _ => exact .inl rfl
  | [o], _ =>
    cases ho : o.accepted with
    | false =>
      left
      show (if o.accepted then (o.request, m₀.active.2 + 1) else m₀.active) = m₀.active
      rw [ho, if_neg (by decide)]
    | true =>
      right
      have hreplay : replay [o] m₀.active = (o.request, m₀.active.2 + 1) := by
        show (if o.accepted then (o.request, m₀.active.2 + 1) else m₀.active) = _
        rw [ho, if_pos rfl]
      rw [hreplay]
      exact ⟨List.mem_append_left _ (List.mem_map.mpr ⟨o, List.mem_singleton.mpr rfl, rfl⟩), rfl⟩

/-- What a request comes to, whatever was under way when it came. -/
def Atomic (m₀ : Page) (words : ConfigWords) (stream : Word × Word × Word) (r : Message)
    (b : Hardware) : Prop :=
  ∃ A, Possible m₀ A ∧ Ends words stream A r b

/-- A gate that refuses has written nothing. -/
theorem atomic_of_error {m₀ : Page} (h₀ : InStage m₀) {words : ConfigWords}
    {stream : Word × Word × Word} {r : Message} {b : Hardware} {status : Status}
    (hne : status ≠ .ok) (h : r.status = status ∧ OnPages (Since m₀ · []) stream b) :
    Atomic m₀ words stream r b :=
  ⟨b.mailbox.active, possible_of_since h₀ h.2.mailbox,
    fun hok => absurd (h.1.symm.trans hok) hne, fun _ _ => ⟨h.2.stream, rfl⟩⟩


/-- What the gate on a commit under way finds. -/
theorem holds_readBusy {m₀ : Page} {stream : Word × Word × Word} :
    Holds (OnPages (Since m₀ · []) stream) (regRead hardwareBus dspStatus) fun v b =>
      (v &&& dspStatusBusy = 0 → Still b.mailbox b.mailbox) ∧
        OnPages (Since m₀ · []) stream b := by
  have hsteady := (calm_since m₀).steady
  refine holds_read fun b hb => ⟨fun hv => ?_, OnPages.kept hsteady _ b hb⟩
  have hset := hsteady.setUp b.gap (dspRead dspStatus) hb.mailbox
  have hready := setUp_ready b.gap (dspRead dspStatus) b.mailbox
  have hallows := setUp_allows b.gap (dspRead dspStatus) b.mailbox
  rw [Hardware.read_dsp rfl, prdata_status _ _ rfl] at hv
  rw [Hardware.read_dsp rfl]
  have hbusy : (b.gap.setUp (dspRead dspStatus) b.mailbox).1.commitBusy = false :=
    (statusWord_bits _ _).2.1.mp hv
  show Still (b.gap.complete _ _) (b.gap.complete _ _)
  unfold Gap.complete
  generalize b.gap.setUp (dspRead dspStatus) b.mailbox = m at *
  -- not busy at an access phase is at rest: the one other stage needs an access just before
  have hrest : AtRest m := by
    obtain ⟨stage, p, q, hat⟩ := hset.inStage
    rw [hat.commitBusy, Bool.or_eq_false_iff] at hbusy
    cases stage with
    | quiet => exact ⟨p, q, hat⟩
    | commanded =>
      have := hat.accessBefore rfl
      rw [hready] at this
      cases this
    | sending | requested | evaluated | answering | received => cases hbusy.1
  obtain ⟨hquiet, -, -, hpulse⟩ := hrest.tick hallows ((reading_dspRead _ _).commandAt _)
  exact ⟨hquiet, hset.valid.tick _, rfl, rfl, hpulse rfl⟩

/-- The gates let a request through only when no commit is under way. -/
theorem holds_commitGates {m₀ : Page} (h₀ : InStage m₀) {words : ConfigWords} {response : Message}
    (hresponse : response.status = .ok) (hwords : validateRuntimeConfig words = .none)
    {stream : Word × Word × Word} :
    Holds (OnPages (Since m₀ · []) stream) (commitGates hardwareBus words response)
      (Atomic m₀ words stream) := by
  have hkept : Kept (OnPages (Since m₀ · []) stream) := OnPages.kept (calm_since m₀).steady
  have herror : ∀ (reason : ConfigReason), Holds (OnPages (Since m₀ · []) stream)
      (configError hardwareBus response .badState reason) (Atomic m₀ words stream) := fun reason =>
    (holds_configError hkept response .badState reason).mono fun _ _ h =>
      atomic_of_error h₀ (by decide) h
  have hread : ∀ offset, Holds (OnPages (Since m₀ · []) stream) (regRead hardwareBus offset)
      fun _ => OnPages (Since m₀ · []) stream := fun offset =>
    holds_read fun b hb => hkept offset b hb
  unfold commitGates
  refine holds_bind (hread _) fun _ => holds_bind holds_get fun _ => ?_
  split
  · exact herror _
  unfold commitStreamGate
  refine holds_bind (hread _) fun _ => ?_
  split
  · exact herror _
  refine holds_bind holds_readBusy fun v => ?_
  split
  · exact fun s hs => herror _ s hs.2
  next hbusy =>
    intro s hs
    have hstill := hs.1 (not_not.mp hbusy)
    obtain ⟨length, count, mode⟩ := stream
    exact ⟨s.bus.mailbox.active, possible_of_since h₀ hs.2.mailbox,
      holds_commitStream hstill.quiet hresponse hwords s ⟨hstill, hs.2.stream⟩⟩

/-! ## CONFIG_COMMIT -/

/-- The whole request, from any state that the mailbox can be in. -/
theorem handleConfigCommit_atomic (request : Message) (s : Service Hardware)
    (h : Core.machine.Reachable (Core.reset, Core.Log.empty) s.bus.mailbox) :
    Atomic s.bus.mailbox s.config.words s.bus.streamPage
      (handleConfigCommit hardwareBus request (responseInit request) s).1
      (handleConfigCommit hardwareBus request (responseInit request) s).2.bus := by
  have h₀ : InStage s.bus.mailbox := reachable_at h
  have hsince : OnPages (Since s.bus.mailbox · []) s.bus.streamPage s.bus :=
    ⟨since_self h₀ (valid_reachable h), rfl⟩
  have hkept : Kept (OnPages (Since s.bus.mailbox · []) s.bus.streamPage) :=
    OnPages.kept (calm_since s.bus.mailbox).steady
  have herror : ∀ (status : Status) (reason : ConfigReason), status ≠ .ok →
      Holds (OnPages (Since s.bus.mailbox · []) s.bus.streamPage)
        (configError hardwareBus (responseInit request) status reason)
        (Atomic s.bus.mailbox s.config.words s.bus.streamPage) := fun status reason hne =>
    (holds_configError hkept (responseInit request) status reason).mono fun _ _ h =>
      atomic_of_error h₀ hne h
  unfold handleConfigCommit
  by_cases hpayload : request.payloadWords ≠ 0
  · rw [if_pos hpayload]
    have hne : Status.badLength ≠ .ok := by decide
    exact atomic_of_error h₀ hne ⟨rfl, hsince⟩
  rw [if_neg hpayload]
  have hget : ∀ {α : Type} (f : Service Hardware → StateM (Service Hardware) α),
      (get >>= f) s = f s s := fun _ => rfl
  rw [hget]
  by_cases hstaged : (!s.config.staged || !s.config.validated) = true
  · rw [if_pos hstaged]
    exact herror .badState .notStaged (by decide) s hsince
  rw [if_neg hstaged]
  refine holds_bind (holds_setReason _) (fun _ => ?_) s hsince
  by_cases hvalid : validateRuntimeConfig s.config.words = .none
  · rw [if_neg (not_not.mpr hvalid)]
    exact holds_commitGates h₀ rfl hvalid
  · rw [if_pos hvalid]
    exact holds_bind (fun _ hs => hs) fun _ => herror .badConfig _ (by decide)

/-- A commit waits for its outcome. -/
def UnderWay (m : Page) : Prop := m.1.commitBusy = true ∨ m.1.ctrl.regs.commitCmd = true

/-- With no commit under way nothing else is possible. -/
theorem Possible.eq {m₀ : Page} {A : DspConfig × Word} (h : Possible m₀ A) (h₀ : InStage m₀)
    (hidle : ¬UnderWay m₀) : A = m₀.active := by
  unfold UnderWay at hidle
  rw [not_or, Bool.not_eq_true, Bool.not_eq_true] at hidle
  obtain ⟨stage, p, q, hat⟩ := h₀
  obtain ⟨hcommands, -⟩ := (hat.notBusy hidle.1).2 hidle.2
  rcases h with h | ⟨hin, -⟩
  · exact h
  · -- with every outcome in, no command is left to install
    rw [hcommands, List.drop_eq_nil_of_le (by rw [List.length_map])] at hin
    cases hin

/-- For every state of the service and of the hardware, whatever the clocks and the stream side do
during the request: OK installs the staged words and counts the generation, and every other answer
but the timeout leaves frame length, frame count, mode, active configuration and generation. Where a
commit was still under way, they are those that its outcome leaves. -/
theorem configCommit_atomic (request : Message) (s : Service Hardware)
    (h : Core.machine.Reachable (Core.reset, Core.Log.empty) s.bus.mailbox) :
    Atomic s.bus.mailbox s.config.words s.bus.streamPage
        (handleConfigCommit hardwareBus request (responseInit request) s).1
        (handleConfigCommit hardwareBus request (responseInit request) s).2.bus ∧
      (¬UnderWay s.bus.mailbox →
        Ends s.config.words s.bus.streamPage s.bus.mailbox.active
          (handleConfigCommit hardwareBus request (responseInit request) s).1
          (handleConfigCommit hardwareBus request (responseInit request) s).2.bus) := by
  have hatomic := handleConfigCommit_atomic request s h
  refine ⟨hatomic, fun hidle => ?_⟩
  obtain ⟨A, hA, hends⟩ := hatomic
  rwa [hA.eq (reachable_at h) hidle] at hends

def bothTick : Edges := ⟨some ⟨0, false, false, false, 0⟩, some true⟩

/-- Both clocks tick 30 times before access `n`; the sequencer is idle. -/
def pauseBefore (n k : ℕ) : Gap where
  idle := if k = n then List.replicate 30 bothTick else []
  setup := none
  between := []
  access := none
  word := if k = 0 then seqHwIdle else 0
  polls := 0

/-- A service with a staged configuration. -/
def commitService (m : Page) (gaps : ℕ → Gap) : Service Hardware where
  bus := ⟨m, 7, 7, 0, gaps, 0⟩
  sequenceLoad := ⟨false, true, 0, 0, 0, 0, 0, 0⟩
  config := ⟨true, true, .none, #v[1, 0, 0, 0, 1, 1, 5, 0, 0, 1, 1]⟩
  writes := []

/-- The commit is over before the first poll. -/
def promptService : Service Hardware :=
  commitService (Core.reset, Core.Log.empty) (pauseBefore 33)

theorem notUnderWay_reset : ¬UnderWay (Core.reset, Core.Log.empty) := by
  unfold UnderWay
  decide

/-- `configCommit_atomic` on an accepted commit. -/
theorem configCommit_accepted :
    (handleConfigCommit hardwareBus commitRequest (responseInit commitRequest)
      promptService).1.status = .ok ∧
    Installed promptService.config.words (promptService.bus.mailbox.active.2 + 1)
      (handleConfigCommit hardwareBus commitRequest (responseInit commitRequest)
        promptService).2.bus := by
  have hok : (handleConfigCommit hardwareBus commitRequest (responseInit commitRequest)
      promptService).1.status = .ok := by decide +kernel
  have hreach : Core.machine.Reachable (Core.reset, Core.Log.empty) promptService.bus.mailbox :=
    ⟨[], rfl⟩
  exact ⟨hok, ((configCommit_atomic commitRequest promptService hreach).2 notUnderWay_reset).ok hok⟩

/-- A commit is under way, and is over before the access behind the gate on it. -/
def waitingService : Service Hardware :=
  commitService (Page.elapse (Core.reset, Core.Log.empty) (commitSeed.take 4)) (pauseBefore 3)

/-- The gate refuses the request, but by the time of its answer the commit that was under way has
changed the generation. -/
theorem configCommit_underWay : ¬∀ (request : Message) (s : Service Hardware),
    Core.machine.Reachable (Core.reset, Core.Log.empty) s.bus.mailbox →
      Ends s.config.words s.bus.streamPage s.bus.mailbox.active
        (handleConfigCommit hardwareBus request (responseInit request) s).1
        (handleConfigCommit hardwareBus request (responseInit request) s).2.bus := by
  intro hall
  have hreach : Core.machine.Reachable (Core.reset, Core.Log.empty) waitingService.bus.mailbox :=
    ⟨commitSeed.take 4, by decide +kernel⟩
  have hends := hall commitRequest waitingService hreach
  have hbad : (handleConfigCommit hardwareBus commitRequest (responseInit commitRequest)
      waitingService).1.status = .badState := by decide +kernel
  have hgeneration : (handleConfigCommit hardwareBus commitRequest (responseInit commitRequest)
      waitingService).2.bus.mailbox.active.2 ≠ waitingService.bus.mailbox.active.2 := by
    decide +kernel
  have hok : Status.badState ≠ .ok := by decide
  have htimeout : Status.badState ≠ .timeout := by decide
  rw [← hbad] at hok htimeout
  exact hgeneration (congrArg Prod.snd (hends.unchanged hok htimeout).2)

end QCrate.R5
