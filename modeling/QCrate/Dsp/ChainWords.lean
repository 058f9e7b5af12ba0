import QCrate.Dsp.Chain
import QCrate.Dsp.Config
import QCrate.Dsp.Fir
import QCrate.Dsp.Frontend

/-!
# The words of the DSP chain

The chain behind an exact FIR core, against the model of the host.

* `FirIp.Exact` — the core puts out the sums of what it took.
* `Pipeline.run` — the words that leave the chain.
* `Pipeline.Carries` — where the samples and the words are.
* `chain_words` — the words are those of the model.
-/

namespace QCrate.Dsp.Rtl

open QCrate.R5

/-! ## The words of the model -/

theorem Regs.words_inRange (c : Regs) : c.words.InRange where
  signal := ⟨Int.natCast_nonneg _, Int.ofNat_lt.mpr c.signalInitial.isLt⟩
  lo := ⟨Int.natCast_nonneg _, Int.ofNat_lt.mpr c.loInitial.isLt⟩

/-- The first packed words of a run of the model that is long enough. -/
theorem model_words (t : Tables) {w : Words} (h : w.InRange) {count n : ℕ} (hcount : 1 ≤ count)
    (hle : n ≤ count) :
    let samples := runFixedFrontend w t.sine (lfsr16Noise (count * decimation) w.noiseSeed)
    ∃ outputs, runFixedFir (samples.map (·.mixedI)) (samples.map (·.mixedQ)) t.fir = .ok outputs ∧
      (packIqWords outputs).take n = (List.range n).map (wordAt w t) := by
  refine ⟨(List.range count).map (outputAt w t), ?_, ?_⟩
  · rw [runFixedFrontend_eq h, List.map_map, List.map_map]
    exact runFixedFir_eq w t hcount
  · have hpack : packIqWords ((List.range count).map (outputAt w t)) =
        (List.range count).map (wordAt w t) := by
      unfold packIqWords
      rw [List.map_map]
      rfl
    rw [hpack, ← List.map_take, List.take_range, Nat.min_eq_left hle]

/-! ## The FIR core -/

namespace FirIp

/-- A core since its last reset: what it has taken, and how many words it has given. -/
structure Trace (ip : FirIp) where
  state : ip.State
  taken : List (BitVec 48)
  given : ℕ

variable {ip : FirIp}

def Trace.step (f : ip.Trace) (i : FirIn) : ip.Trace where
  state := ip.step f.state i
  taken := f.taken ++ (if i.sValid && ip.sReady f.state then some i.sData else none).toList
  given := if ip.mValid f.state && i.mReady then f.given + 1 else f.given

/-- A core after edges under reset, and then others. -/
def trace (ip : FirIp) (s : ip.State) (resets inputs : List FirIn) : ip.Trace :=
  inputs.foldl Trace.step ⟨resets.foldl ip.step s, [], 0⟩

/-- The paths of an input word. -/
def pathI (data : BitVec 48) : BitVec 18 := data.extractLsb' 0 18

def pathQ (data : BitVec 48) : BitVec 18 := data.extractLsb' 24 18

/-- The word that the core offers holds the full sums at the sample that completes it. -/
def Trace.Sums (f : ip.Trace) (coefficients : List ℤ) : Prop :=
  ip.mValid f.state = true →
    (f.given + 1) * decimation ≤ f.taken.length ∧
      (ip.mData f.state).extractLsb' 0 36 = .ofInt 36 (windowDot
        (f.taken.map fun d => (pathI d).toInt) coefficients ((f.given + 1) * decimation - 1)) ∧
      (ip.mData f.state).extractLsb' 40 36 = .ofInt 36 (windowDot
        (f.taken.map fun d => (pathQ d).toInt) coefficients ((f.given + 1) * decimation - 1))

/-- A decimating FIR core of full precision, which is reset by a number of edges. -/
structure Exact (ip : FirIp) (resets : ℕ) (coefficients : List ℤ) : Prop where
  sums : ∀ (s : ip.State) (r inputs : List FirIn), r.length = resets →
    (∀ i ∈ r, i.aresetn = false) → (∀ i ∈ inputs, i.aresetn = true) →
      (ip.trace s r inputs).Sums coefficients

end FirIp

/-! ## Runs of the chain -/

namespace Pipeline

variable {ip : FirIp}

/-- Edges with the clear, under any enable and ready. -/
def cleared (rom : Rom) (c : Regs) (p : Pipeline ip) (clears : List (Bool × Bool)) : Pipeline ip :=
  clears.foldl (fun p e => p.step rom c ⟨true, true, e.1, e.2⟩) p

/-- What the consumer takes at an edge. -/
def accepted (p : Pipeline ip) (ready : Bool) : Option (BitVec 32) :=
  if p.valid false && ready then some p.data else none

/-- A run after a clear: the inputs are enable and ready. -/
def run (rom : Rom) (c : Regs) (p : Pipeline ip) :
    List (Bool × Bool) → Pipeline ip × List (BitVec 32)
  | [] => (p, [])
  | (enable, ready) :: rest =>
    let (final, words) := run rom c (p.step rom c ⟨true, false, enable, ready⟩) rest
    (final, (p.accepted ready).toList ++ words)

/-- The edges of a run at the FIR core. -/
def firInputs (rom : Rom) (c : Regs) (p : Pipeline ip) : List Input → List FirIn
  | [] => []
  | i :: rest => p.firIn i :: firInputs rom c (p.step rom c i) rest

/-- At every edge the source is enabled and the core ready. -/
def Fed (rom : Rom) (c : Regs) (p : Pipeline ip) : List (Bool × Bool) → Prop
  | [] => True
  | (enable, ready) :: rest => enable = true ∧ ip.sReady p.fir = true ∧
    Fed rom c (p.step rom c ⟨true, false, enable, ready⟩) rest

def plainInput (e : Bool × Bool) : Input := ⟨true, false, e.1, e.2⟩

def clearInput (e : Bool × Bool) : Input := ⟨true, true, e.1, e.2⟩

/-! ## What a step carries on -/

/-- A chain that has issued so many samples and put out so many words: the core has taken the first
samples in order, and gives the word that waits in the elastic register. -/
structure Carries (t : Tables) (c : Regs) (f : ip.Trace) (issued words : ℕ) (p : Pipeline ip) :
    Prop where
  fir : p.fir = f.state
  flows : Flows t c issued f.taken.length p.chain
  pathI : f.taken.map (fun d => (FirIp.pathI d).toInt) =
    (List.range f.taken.length).map fun k => (sampleAt c.words t.sine k).mixedI
  pathQ : f.taken.map (fun d => (FirIp.pathQ d).toInt) =
    (List.range f.taken.length).map fun k => (sampleAt c.words t.sine k).mixedQ
  given : f.given = if p.outValid then words + 1 else words
  out : p.outValid = true → p.outI.toInt = (outputAt c.words t words).outputI ∧
    p.outQ.toInt = (outputAt c.words t words).outputQ

variable {t : Tables} {c : Regs} {f : ip.Trace} {issued words : ℕ} {p : Pipeline ip}

/-- The word that the core offers is narrowed to the next output of the model. -/
theorem Carries.offered (h : Carries t c f issued words p) (ht : t.fir = firCoefficients)
    (hsums : f.Sums t.fir) (hvalid : ip.mValid f.state = true) :
    (roundSaturateAccumulator ((ip.mData f.state).extractLsb' 0 36)).toInt =
        (outputAt c.words t f.given).outputI ∧
      (roundSaturateAccumulator ((ip.mData f.state).extractLsb' 40 36)).toInt =
        (outputAt c.words t f.given).outputQ := by
  obtain ⟨hcount, hI, hQ⟩ := hsums hvalid
  have hlt : (f.given + 1) * decimation - 1 < f.taken.length := by
    unfold decimation at hcount ⊢
    omega
  have hnarrow : ∀ (path : BitVec 48 → BitVec 18) (g : ℕ → ℤ),
      f.taken.map (fun d => (path d).toInt) = (List.range f.taken.length).map g →
        (roundSaturateAccumulator (.ofInt 36 (windowDot (f.taken.map fun d => (path d).toInt)
          t.fir ((f.given + 1) * decimation - 1)))).toInt =
            narrow (tapSum g t.fir ((f.given + 1) * decimation - 1)) := by
    intro path g hg
    have hq := (quantized (f.taken.map path) ((f.given + 1) * decimation - 1)).2
    rw [List.map_map, ← ht] at hq
    have hdot := windowDot_eq g t.fir_length hlt
    rw [← hg] at hdot
    exact hq.trans (congrArg narrow hdot)
  rw [hI, hQ]
  exact ⟨hnarrow _ _ h.pathI, hnarrow _ _ h.pathQ⟩

theorem Carries.toNat_data (h : Carries t c f issued words p) (hvalid : p.outValid = true) :
    p.data.toNat = wordAt c.words t words := by
  have hbits : ∀ x : BitVec 16, (x.toInt % 2 ^ 16).toNat = x.toNat := fun x => by
    have hlt := x.isLt
    rw [BitVec.toInt_eq_toNat_cond]
    split <;> omega
  obtain ⟨hI, hQ⟩ := h.out hvalid
  unfold data wordAt
  rw [← hI, ← hQ, hbits, hbits]
  exact BitVec.toNat_append p.outQ p.outI

theorem paths_firIn (p : Pipeline ip) (i : Input) :
    FirIp.pathI (p.firIn i).sData = p.chain.frontend.mixer.i ∧
      FirIp.pathQ (p.firIn i).sData = p.chain.frontend.mixer.q := by
  unfold FirIp.pathI FirIp.pathQ firIn
  dsimp only
  constructor
  · refine BitVec.eq_of_getLsbD_eq fun k hk => ?_
    rw [BitVec.getLsbD_extractLsb', BitVec.getLsbD_append, BitVec.getLsbD_signExtend]
    simp [hk, show k < 24 by omega]
  · refine BitVec.eq_of_getLsbD_eq fun k hk => ?_
    rw [BitVec.getLsbD_extractLsb', BitVec.getLsbD_append, if_neg (by omega),
      Nat.add_sub_cancel_left, BitVec.getLsbD_signExtend]
    simp [hk, show k < 24 by omega]

/-- What the core takes at an edge is what the front end gives. -/
theorem taken_firIn (p : Pipeline ip) (enable ready : Bool) :
    (p.chain.accepted (ip.sReady p.fir) = none ∧
        ((p.firIn ⟨true, false, enable, ready⟩).sValid && ip.sReady p.fir) = false) ∨
      ∃ i q, p.chain.accepted (ip.sReady p.fir) = some (i, q) ∧
        ((p.firIn ⟨true, false, enable, ready⟩).sValid && ip.sReady p.fir) = true ∧
        FirIp.pathI (p.firIn ⟨true, false, enable, ready⟩).sData = i ∧
        FirIp.pathQ (p.firIn ⟨true, false, enable, ready⟩).sData = q := by
  have hvalid : (p.firIn ⟨true, false, enable, ready⟩).sValid = p.chain.frontend.mixer.valid :=
    Bool.and_true _
  obtain ⟨hI, hQ⟩ := paths_firIn p ⟨true, false, enable, ready⟩
  rw [hvalid]
  unfold Chain.accepted
  cases hb : p.chain.frontend.mixer.valid && ip.sReady p.fir with
  | false => exact .inl ⟨rfl, rfl⟩
  | true => exact .inr ⟨_, _, rfl, rfl, hI, hQ⟩

theorem step_plain (rom : Rom) (c : Regs) (p : Pipeline ip) (enable ready : Bool) :
    let i : Input := ⟨true, false, enable, ready⟩
    let word := ip.mData p.fir
    p.step rom c i =
      { chain := p.chain.step rom c ⟨true, false, enable, ip.sReady p.fir⟩
        fir := ip.step p.fir (p.firIn i)
        outI := if p.firReady ready && ip.mValid p.fir then
          roundSaturateAccumulator (word.extractLsb' 0 36) else p.outI
        outQ := if p.firReady ready && ip.mValid p.fir then
          roundSaturateAccumulator (word.extractLsb' 40 36) else p.outQ
        outValid := if p.firReady ready then ip.mValid p.fir else p.outValid } := by
  have hready : p.mixedReady false = ip.sReady p.fir := Bool.and_true _
  intro i word
  rw [← hready]
  unfold Pipeline.step
  dsimp only [i]
  cases p.firReady ready <;> cases ip.mValid p.fir <;> rfl

/-- An edge at the core: it takes the next sample, or none. -/
theorem Carries.takes (h : Carries t c f issued words p) (enable ready : Bool) :
    let f' := f.step (p.firIn ⟨true, false, enable, ready⟩)
    ∃ issued', Flows t c issued' f'.taken.length
        (p.chain.step (romOf t) c ⟨true, false, enable, ip.sReady p.fir⟩) ∧
      (enable = true → ip.sReady p.fir = true → issued' = issued + 1) ∧
      f'.taken.map (fun d => (FirIp.pathI d).toInt) =
        ((List.range f'.taken.length).map fun k => (sampleAt c.words t.sine k).mixedI) ∧
      f'.taken.map (fun d => (FirIp.pathQ d).toInt) =
        (List.range f'.taken.length).map fun k => (sampleAt c.words t.sine k).mixedQ := by
  intro f'
  obtain ⟨issued', taken', hflows, hissued, hcase⟩ := h.flows.step enable (ip.sReady p.fir)
  have htaken : f'.taken = f.taken ++
      (if (p.firIn ⟨true, false, enable, ready⟩).sValid && ip.sReady p.fir then
        some (p.firIn ⟨true, false, enable, ready⟩).sData else none).toList := by
    rw [h.fir]
    rfl
  rcases taken_firIn p enable ready with ⟨hnone, hidle⟩ | ⟨i, q, hsome, hfire, hI, hQ⟩
  · rw [hidle] at htaken
    have hsame : f'.taken = f.taken := htaken.trans (List.append_nil _)
    rcases hcase with ⟨-, hcount⟩ | ⟨i, q, hacc, -⟩
    · rw [hcount] at hflows
      rw [hsame]
      exact ⟨issued', hflows, hissued, h.pathI, h.pathQ⟩
    · rw [hnone] at hacc
      cases hacc
  · rw [hfire, if_pos rfl, Option.toList_some] at htaken
    rcases hcase with ⟨hacc, -⟩ | ⟨i', q', hacc, hcount, hi, hq⟩
    · rw [hsome] at hacc
      cases hacc
    · rw [hsome] at hacc
      obtain ⟨rfl, rfl⟩ := Prod.mk.inj (Option.some.inj hacc)
      rw [hcount] at hflows
      refine ⟨issued', ?_, hissued, ?_, ?_⟩
      · rw [htaken, List.length_append]
        exact hflows
      · rw [htaken, List.map_append, List.map_singleton, List.length_append, List.length_singleton,
          List.range_succ, List.map_append, List.map_singleton, h.pathI, hI, hi]
      · rw [htaken, List.map_append, List.map_singleton, List.length_append, List.length_singleton,
          List.range_succ, List.map_append, List.map_singleton, h.pathQ, hQ, hq]

/-- An edge without the clear: what it accepts is the next word. -/
theorem Carries.step (h : Carries t c f issued words p) (ht : t.fir = firCoefficients)
    (hsums : f.Sums t.fir) (enable ready : Bool) :
    ∃ issued' words', Carries t c (f.step (p.firIn ⟨true, false, enable, ready⟩)) issued' words'
        (p.step (romOf t) c ⟨true, false, enable, ready⟩) ∧
      (enable = true → ip.sReady p.fir = true → issued' = issued + 1) ∧
      ((p.accepted ready = none ∧ words' = words) ∨
        ∃ d, p.accepted ready = some d ∧ words' = words + 1 ∧
          d.toNat = wordAt c.words t words) := by
  obtain ⟨issued', hflows, hissued, hI, hQ⟩ := h.takes enable ready
  have hgiven : (f.step (p.firIn ⟨true, false, enable, ready⟩)).given =
      if ip.mValid f.state && p.firReady ready then f.given + 1 else f.given := rfl
  have hfir : ip.step p.fir (p.firIn ⟨true, false, enable, ready⟩) =
      (f.step (p.firIn ⟨true, false, enable, ready⟩)).state := by
    rw [h.fir]
    rfl
  have haccepted : p.accepted ready = if p.outValid && ready then some p.data else none := by
    unfold accepted valid
    rw [Bool.not_false, Bool.and_true]
  have hoffered := h.offered ht hsums
  have hdata := fun hv => h.toNat_data hv
  have hold := h.given
  have hout := h.out
  rw [step_plain]
  refine ⟨issued', if p.outValid && ready then words + 1 else words,
    ⟨hfir, hflows, hI, hQ, ?_, ?_⟩, hissued, ?_⟩
  -- what the core has given is out, or in the output register
  · rw [hgiven, hold, ← h.fir]
    unfold firReady
    cases p.outValid <;> cases ready <;> cases ip.mValid p.fir <;> rfl
  · dsimp only
    rw [hold, ← h.fir] at hoffered
    unfold firReady
    cases hv : p.outValid with
    | false =>
      rw [hv] at hoffered
      cases hm : ip.mValid p.fir with
      | false => exact nofun
      | true => exact fun _ => hoffered hm
    | true =>
      cases ready with
      | false => exact fun _ => hout hv
      | true =>
        rw [hv] at hoffered
        cases hm : ip.mValid p.fir with
        | false => exact nofun
        | true => exact fun _ => hoffered hm
  · rw [haccepted]
    cases hv : p.outValid with
    | false => exact .inl ⟨rfl, rfl⟩
    | true =>
      cases ready with
      | false => exact .inl ⟨rfl, rfl⟩
      | true => exact .inr ⟨_, rfl, rfl, hdata hv⟩

/-! ## Runs -/

theorem Carries.run (h : Carries t c f issued words p) (ht : t.fir = firCoefficients)
    (inputs : List (Bool × Bool))
    (hsums : ∀ edges : List FirIn, (∀ i ∈ edges, i.aresetn = true) →
      (edges.foldl FirIp.Trace.step f).Sums t.fir) :
    (run (romOf t) c p inputs).2.map BitVec.toNat =
        (List.range (run (romOf t) c p inputs).2.length).map
          (fun k => wordAt c.words t (words + k)) ∧
      ∃ issued', Carries t c
          ((firInputs (romOf t) c p (inputs.map plainInput)).foldl FirIp.Trace.step f) issued'
          (words + (run (romOf t) c p inputs).2.length) (run (romOf t) c p inputs).1 ∧
        (Fed (romOf t) c p inputs → issued' = issued + inputs.length) := by
  induction inputs generalizing f issued words p with
  | nil => exact ⟨rfl, issued, h, fun _ => rfl⟩
  | cons input inputs ih =>
    obtain ⟨enable, ready⟩ := input
    obtain ⟨issued', words', h', hadvance, hcase⟩ := h.step ht (hsums [] (by simp)) enable ready
    obtain ⟨hrest, issued'', hcarries, hfed⟩ := ih h' fun edges hedges =>
      hsums (_ :: edges) fun i hi => by
        rcases List.mem_cons.mp hi with rfl | hi
        · rfl
        · exact hedges i hi
    have hcount : Fed (romOf t) c p ((enable, ready) :: inputs) →
        issued'' = issued + ((enable, ready) :: inputs).length := by
      rintro ⟨he, hcore, hrest⟩
      rw [hfed hrest, hadvance he hcore, List.length_cons]
      omega
    unfold Pipeline.run
    dsimp only
    rcases hcase with ⟨hnone, rfl⟩ | ⟨d, hsome, rfl, hd⟩
    · rw [hnone]
      exact ⟨hrest, issued'', hcarries, hcount⟩
    · rw [hsome]
      simp only [Option.toList_some, List.singleton_append, List.map_cons, List.length_cons]
      refine ⟨?_, issued'', ?_, hcount⟩
      · rw [List.range_succ_eq_map, List.map_cons, List.map_map, hrest, hd]
        refine congrArg (_ :: ·) (List.map_congr_left fun k _ => ?_)
        simp only [Function.comp, Nat.succ_eq_add_one, Nat.add_assoc, Nat.add_comm 1 k]
      · rw [Nat.add_right_comm] at hcarries
        exact hcarries

/-- The clear: the core is under reset at each of its edges. -/
theorem cleared_fir (rom : Rom) (c : Regs) (p : Pipeline ip) (clears : List (Bool × Bool)) :
    (p.cleared rom c clears).fir =
        (firInputs rom c p (clears.map clearInput)).foldl ip.step p.fir ∧
      (firInputs rom c p (clears.map clearInput)).length = clears.length ∧
      ∀ i ∈ firInputs rom c p (clears.map clearInput), i.aresetn = false := by
  induction clears generalizing p with
  | nil => exact ⟨rfl, rfl, by simp [firInputs]⟩
  | cons e clears ih =>
    obtain ⟨hfir, hlength, hreset⟩ := ih (p.step rom c (clearInput e))
    refine ⟨?_, congrArg (· + 1) hlength, fun i hi => ?_⟩
    · exact hfir
    · rcases List.mem_cons.mp hi with rfl | hi
      · rfl
      · exact hreset i hi

theorem Carries.cleared (t : Tables) (c : Regs) (p : Pipeline ip) {clears : List (Bool × Bool)}
    (hne : clears ≠ []) :
    Carries t c (ip.trace p.fir (firInputs (romOf t) c p (clears.map clearInput)) []) 0 0
      (p.cleared (romOf t) c clears) := by
  obtain ⟨hfir, -, -⟩ := cleared_fir (romOf t) c p clears
  obtain ⟨before, e, rfl⟩ := (List.eq_nil_or_concat' clears).resolve_left hne
  have hlast : p.cleared (romOf t) c (before ++ [e]) =
      (p.cleared (romOf t) c before).step (romOf t) c (clearInput e) := by
    unfold Pipeline.cleared
    rw [List.foldl_append]
    rfl
  have hempty : ((p.cleared (romOf t) c before).step (romOf t) c (clearInput e)).outValid = false :=
    rfl
  refine ⟨hfir, ?_, rfl, rfl, ?_, ?_⟩
  · rw [hlast]
    exact Flows.clear _ e.1 _
  · rw [hlast, hempty]
    rfl
  · rw [hlast, hempty]
    exact nofun

/-- After a clear that resets the FIR core, the words that leave the chain are the first words of
the model, under any pattern of enable and ready. Of what the core gives at most one word is kept
back, and of what it is ready for at most nine samples. -/
theorem chain_words (t : Tables) (ht : t.fir = firCoefficients) {words : ConfigWords}
    (h : validateRuntimeConfig words = .none) (p : Pipeline ip) {clears : List (Bool × Bool)}
    (hne : clears ≠ []) (hip : ip.Exact clears.length t.fir) (inputs : List (Bool × Bool)) :
    let start := p.cleared (romOf t) (regsOf words) clears
    let run := start.run (romOf t) (regsOf words) inputs
    let core := ip.trace p.fir (firInputs (romOf t) (regsOf words) p (clears.map clearInput))
      (firInputs (romOf t) (regsOf words) start (inputs.map plainInput))
    (∀ count, 1 ≤ count → run.2.length ≤ count →
      let samples := runFixedFrontend (modelWords words) t.sine
        (lfsr16Noise (count * decimation) (modelWords words).noiseSeed)
      ∃ outputs, runFixedFir (samples.map (·.mixedI)) (samples.map (·.mixedQ)) t.fir = .ok outputs ∧
        run.2.map BitVec.toNat = (packIqWords outputs).take run.2.length) ∧
      core.given ≤ run.2.length + 1 ∧
      (start.Fed (romOf t) (regsOf words) inputs → inputs.length ≤ core.taken.length + 9) := by
  intro start run core
  obtain ⟨-, hlength, hreset⟩ := cleared_fir (romOf t) (regsOf words) p clears
  obtain ⟨hwords, issued, hend, hfed⟩ := (Carries.cleared t (regsOf words) p hne).run ht inputs
    fun edges hedges => hip.sums _ _ edges hlength hreset hedges
  rw [Nat.zero_add] at hend
  refine ⟨fun count hcount hle => ?_, ?_, fun hall => ?_⟩
  · have hrange := Regs.words_inRange (regsOf words)
    rw [regsOf_words h] at hrange
    obtain ⟨outputs, hmodel, hpacked⟩ := model_words t hrange hcount hle
    refine ⟨outputs, hmodel, ?_⟩
    rw [hpacked, ← regsOf_words h]
    simpa only [Nat.zero_add] using hwords
  · refine hend.given.le.trans ?_
    split
    · exact le_rfl
    · exact Nat.le_succ _
  · have hle := hend.flows.issued_le
    rw [hfed hall, Nat.zero_add] at hle
    exact hle

end Pipeline

/-! ## A core -/

/-- A core that is always ready and computes its sums at once. -/
def promptCore (coefficients : List ℤ) : FirIp where
  State := List (BitVec 48) × ℕ
  sReady _ := true
  mValid s := (s.2 + 1) * decimation ≤ s.1.length
  mData s :=
    let sum (path : BitVec 48 → BitVec 18) : BitVec 36 := .ofInt 36 (windowDot
      (s.1.map fun d => (path d).toInt) coefficients ((s.2 + 1) * decimation - 1))
    (sum FirIp.pathQ).setWidth 40 ++ (sum FirIp.pathI).setWidth 40
  step s i :=
    if !i.aresetn then ([], 0)
    else (s.1 ++ (if i.sValid then some i.sData else none).toList,
      if decide ((s.2 + 1) * decimation ≤ s.1.length) && i.mReady then s.2 + 1 else s.2)

theorem extract_lanes (x y : BitVec 36) :
    (x.setWidth 40 ++ y.setWidth 40 : BitVec 80).extractLsb' 0 36 = y ∧
      (x.setWidth 40 ++ y.setWidth 40 : BitVec 80).extractLsb' 40 36 = x := by
  constructor
  · refine BitVec.eq_of_getLsbD_eq fun k hk => ?_
    rw [BitVec.getLsbD_extractLsb', BitVec.getLsbD_append, if_pos (by omega),
      BitVec.getLsbD_setWidth]
    simp [hk, show k < 40 by omega]
  · refine BitVec.eq_of_getLsbD_eq fun k hk => ?_
    rw [BitVec.getLsbD_extractLsb', BitVec.getLsbD_append, if_neg (by omega),
      Nat.add_sub_cancel_left, BitVec.getLsbD_setWidth]
    simp [hk, show k < 40 by omega]

variable {coefficients : List ℤ}

theorem promptCore_step {f : (promptCore coefficients).Trace} (h : f.state = (f.taken, f.given))
    {i : FirIn} (hi : i.aresetn = true) :
    (f.step i).state = ((f.step i).taken, (f.step i).given) := by
  show (promptCore coefficients).step f.state i = _
  unfold FirIp.Trace.step
  simp only [promptCore, hi, h, Bool.not_true, Bool.and_true]
  rfl

theorem promptCore_sums {f : (promptCore coefficients).Trace}
    (h : f.state = (f.taken, f.given)) : f.Sums coefficients := by
  intro hvalid
  have hcount : (f.state.2 + 1) * decimation ≤ f.state.1.length := of_decide_eq_true hvalid
  rw [h] at hcount
  rw [h]
  exact ⟨hcount, extract_lanes _ _⟩

theorem promptCore_exact (coefficients : List ℤ) :
    (promptCore coefficients).Exact 1 coefficients where
  sums s r inputs hr hreset hinputs := by
    obtain ⟨j, rfl⟩ := List.length_eq_one_iff.mp hr
    have hj : j.aresetn = false := hreset j List.mem_cons_self
    have hstart : (promptCore coefficients).step s j = ([], 0) := by
      unfold promptCore
      dsimp only
      rw [hj]
      rfl
    have hrun : ∀ f : (promptCore coefficients).Trace, f.state = (f.taken, f.given) →
        (inputs.foldl FirIp.Trace.step f).Sums coefficients := by
      induction inputs with
      | nil => exact fun f h => promptCore_sums h
      | cons i inputs ih =>
        exact fun f h => ih (fun k hk => hinputs k (List.mem_cons_of_mem _ hk)) (f.step i)
          (promptCore_step h (hinputs i List.mem_cons_self))
    exact hrun _ hstart

/-- The coefficients of the repository, and an even ramp for a sine. -/
def coreTables : Tables where
  sine := rampTables.sine
  fir := firCoefficients
  sine_length := rampTables.sine_length
  fir_length := by decide +kernel
  sine_range := rampTables.sine_range
  fir_range := by decide +kernel

/-- A chain before its first clear. -/
def Pipeline.initial : Pipeline (promptCore firCoefficients) :=
  ⟨Chain.reset, ([], 0), 0, 0, false⟩

theorem chain_words_gaps :
    let run := (Pipeline.initial.cleared (romOf coreTables) (regsOf toneWords)
      [(true, true)]).run (romOf coreTables) (regsOf toneWords) (gaps ++ gaps)
    let samples := runFixedFrontend (modelWords toneWords) coreTables.sine
      (lfsr16Noise (3 * decimation) (modelWords toneWords).noiseSeed)
    run.2.length = 3 ∧
    ∃ outputs, runFixedFir (samples.map (·.mixedI)) (samples.map (·.mixedQ)) coreTables.fir =
        .ok outputs ∧ run.2.map BitVec.toNat = (packIqWords outputs).take run.2.length := by
  intro run samples
  have hlength : run.2.length = 3 := by decide +kernel
  exact ⟨hlength, (Pipeline.chain_words coreTables rfl (by decide) Pipeline.initial
    (List.cons_ne_nil (true, true) []) (promptCore_exact firCoefficients) (gaps ++ gaps)).1 3
    (by decide) hlength.le⟩

end QCrate.Dsp.Rtl
