import Mathlib.Data.List.TakeWhile
import QCrate.Host.ProfileWords
import QCrate.Lib.Shell

/-!
# The command line of a configuration

`qcrate_profile.py` writes a configuration as a command line for `qcrate-control`, which reads its
numbers with `strtoul` and `strtoull` in base zero.

* `commandArgs` — the arguments that the host writes.
* `strtoul` — the numbers of C.
* `parseInvocation` — what `qcrate-control` takes from its arguments.
* `command_line_arrives` — through the shell, it takes the words of the configuration.
-/

namespace QCrate.Rpmsg

open QCrate.Lib QCrate.R5 QCrate.Host

/-! ## The arguments that the host writes -/

/-- The values of a configuration as texts. None of them is negative. -/
def texts (v : ConfigValues) : List (List Char) :=
  let word (n : ℤ) : List Char := ("0x" ++ hexText 8 n.toNat).toList
  [("0x" ++ hexText 16 v.configId.toNat).toList,
    word v.active.signalPhaseIncrement, word v.active.signalPhaseInitial,
    word v.active.signalAmplitude, word v.active.noiseAmplitude, word v.active.noiseSeed,
    word v.active.loPhaseIncrement, word v.active.loPhaseInitial,
    (toString v.frameLength).toList, (toString v.frameCount).toList]

/-- What `configuration_command` returns for the values. -/
def commandArgs (control : List Char) (v : ConfigValues) : List (List Char) :=
  control :: "config-apply".toList :: texts v

/-! ## The numbers of C -/

/-- `isspace` in the C locale. -/
def isSpace (c : Char) : Bool := c ∈ [' ', '\t', '\n', '\x0b', '\x0c', '\r']

/-- A digit of the base. -/
def digitBelow (base : ℕ) (c : Char) : Bool := (hexDigit c).any (· < base)

/-- The base that a number is written in, and the text of its digits: `0x` is a prefix only where a
digit follows. -/
def numberBase (text : List Char) : ℕ × List Char :=
  match text with
  | '0' :: x :: c :: cs =>
    if (x = 'x' ∨ x = 'X') ∧ digitBelow 16 c then (16, c :: cs) else (8, text)
  | '0' :: _ => (8, text)
  | _ => (10, text)

/-- What `strtoul` and `strtoull` return, both of 64 bits: the value, the rest of the text behind
`end`, and whether the number was out of range. -/
structure Number where
  value : BitVec 64
  rest : List Char
  range : Bool

/-- `strtoul(text, &end, 0)`; no number where there are no digits. -/
def strtoul (text : List Char) : Option Number :=
  let (negative, body) := splitSign (text.dropWhile isSpace)
  let (base, digits) := numberBase body
  let read := digits.takeWhile (digitBelow base)
  (digitsValue base hexDigit read).map fun n =>
    if 2 ^ 64 ≤ n then ⟨.allOnes 64, digits.drop read.length, true⟩
    else ⟨if negative then -.ofNat 64 n else .ofNat 64 n, digits.drop read.length, false⟩

/-- `parse_u64` -/
def parseU64 (text : List Char) : Option (BitVec 64) :=
  (strtoul text).bind fun n => if n.range || n.rest ≠ [] then none else some n.value

/-- `parse_u32` -/
def parseU32 (text : List Char) : Option Word :=
  (parseU64 text).bind fun n => if 0xFFFFFFFF < n.toNat then none else some (n.setWidth 32)

/-! ## The arguments that the tool reads -/

/-- `parse_config_payload` -/
def parseConfigPayload : List (List Char) → Option ConfigWords
  | [id, signalInc, signalPhase, signalAmp, noiseAmp, seed, loInc, loPhase, frameWords, frames] =>
    (parseU64 id).bind fun configId =>
      if configId = 0 then none
      else do
        let signalInc ← parseU32 signalInc
        let signalPhase ← parseU32 signalPhase
        let signalAmp ← parseU32 signalAmp
        let noiseAmp ← parseU32 noiseAmp
        let seed ← parseU32 seed
        let loInc ← parseU32 loInc
        let loPhase ← parseU32 loPhase
        let frameWords ← parseU32 frameWords
        let frames ← parseU32 frames
        return #v[configId.setWidth 32, (configId >>> 32).setWidth 32, signalInc, signalPhase,
          signalAmp, noiseAmp, seed, loInc, loPhase, frameWords, frames]
  | _ => none

inductive Command where
  | ping (nonce : Word) | info | stats | scratchTest (value : Word) | test
  | configStage (payload : ConfigWords) | configApply (payload : ConfigWords)
  | configValidate | configCommit | configStatus | configRecover
  deriving DecidableEq, Repr

structure Invocation where
  device : Option (List Char)
  timeoutMs : ℕ
  command : Command
  deriving DecidableEq, Repr

/-- An argument that may be left out. -/
def optionalU32 (fallback : Word) : List (List Char) → Option Word
  | [] => some fallback
  | [text] => parseU32 text
  | _ => none

/-- The command of `main`, and its arguments. -/
def parseCommand (name : List Char) (args : List (List Char)) : Option Command :=
  let alone (c : Command) : Option Command := if args = [] then some c else none
  if name = "ping".toList then (optionalU32 0x51435250 args).map .ping
  else if name = "info".toList then alone .info
  else if name = "stats".toList then alone .stats
  else if name = "scratch-test".toList then (optionalU32 0xA5A55A5A args).map .scratchTest
  else if name = "test".toList then alone .test
  else if name = "config-stage".toList then (parseConfigPayload args).map .configStage
  else if name = "config-apply".toList then (parseConfigPayload args).map .configApply
  else if name = "config-validate".toList then alone .configValidate
  else if name = "config-commit".toList then alone .configCommit
  else if name = "config-status".toList then alone .configStatus
  else if name = "config-recover".toList then alone .configRecover
  else none

/-- The options of `main`, and then its command. -/
def parseOptions (device : Option (List Char)) (timeoutMs : ℕ) :
    List (List Char) → Option Invocation
  | [] => none
  | name :: args =>
    if name.take 2 = ['-', '-'] then
      match args with
      | [] => none
      | value :: args =>
        if name = "--device".toList then parseOptions (some value) timeoutMs args
        else if name = "--timeout-ms".toList then
          match parseU32 value with
          | none => none
          | some n =>
            if n = 0 ∨ 0x7FFFFFFF < n.toNat then none else parseOptions device n.toNat args
        else none
    else (parseCommand name args).map fun command => ⟨device, timeoutMs, command⟩

/-- `main`, up to the requests: its first argument is its own name. -/
def parseInvocation (argv : List (List Char)) : Option Invocation :=
  parseOptions none 2000 argv.tail

/-! ## Numbers that are written are read -/

theorem digitBelow_digitChar {base d : ℕ} (hbase : base ≤ 16) (h : d < base) :
    digitBelow base (Nat.digitChar d) = true := by
  unfold digitBelow
  rw [hexDigit_digitChar (by omega)]
  exact decide_eq_true h

/-- One digit of a number. -/
def numberStep (base n : ℕ) (c : Char) : Option ℕ :=
  (hexDigit c).bind fun d => if d < base then some (n * base + d) else none

theorem numberStep_digitChar {base d : ℕ} (hbase : base ≤ 16) (h : d < base) (n : ℕ) :
    numberStep base n (Nat.digitChar d) = some (n * base + d) := by
  unfold numberStep
  rw [hexDigit_digitChar (by omega), Option.bind_some, if_pos h]

/-- The digits of a number are digits of its base, and read back to it. -/
theorem toDigits_number {base : ℕ} (h1 : 1 < base) (h16 : base ≤ 16) (n : ℕ) :
    (∀ c ∈ Nat.toDigits base n, digitBelow base c = true) ∧
      (Nat.toDigits base n).foldlM (numberStep base) 0 = some n := by
  induction n using Nat.strong_induction_on with
  | _ n ih =>
    by_cases hn : n < base
    · rw [Nat.toDigits_of_lt_base hn]
      refine ⟨fun c hc => ?_, ?_⟩
      · rw [List.mem_singleton.mp hc]
        exact digitBelow_digitChar h16 hn
      · simp [numberStep_digitChar h16 hn]
    · have hpos : 0 < base := by omega
      obtain ⟨hchars, hread⟩ := ih (n / base) (Nat.div_lt_self (by omega) h1)
      have hlast : n % base < base := Nat.mod_lt n hpos
      rw [Nat.toDigits_of_base_le h1 (by omega)]
      refine ⟨fun c hc => ?_, ?_⟩
      · rcases List.mem_append.mp hc with hc | hc
        · exact hchars c hc
        · rw [List.mem_singleton.mp hc]
          exact digitBelow_digitChar h16 hlast
      · rw [List.foldlM_append, hread]
        simp [numberStep_digitChar h16 hlast, Nat.div_add_mod']

/-- A text of digits of the base is the number that they spell. -/
theorem parseU64_digits {base n : ℕ} {text digits : List Char}
    (hspace : ∀ c ∈ text.head?, isSpace c = false) (hsign : splitSign text = (false, text))
    (hbase : numberBase text = (base, digits)) (hall : ∀ c ∈ digits, digitBelow base c = true)
    (hvalue : digitsValue base hexDigit digits = some n) (hlt : n < 2 ^ 64) :
    parseU64 text = some (.ofNat 64 n) := by
  have hdrop : text.dropWhile isSpace = text := by
    cases text with
    | nil => rfl
    | cons c text => exact List.dropWhile_cons_of_neg (by simp [hspace c rfl])
  have htake : digits.takeWhile (digitBelow base) = digits := List.takeWhile_eq_self_iff.mpr hall
  unfold parseU64 strtoul
  rw [hdrop, hsign]
  dsimp only
  rw [hbase]
  dsimp only
  rw [htake, hvalue, Option.map_some, if_neg (by omega), List.drop_length]
  rfl

theorem digitsValue_padded {base : ℕ} (h1 : 1 < base) (h16 : base ≤ 16) (k n : ℕ) :
    (∀ c ∈ List.replicate k '0' ++ Nat.toDigits base n, digitBelow base c = true) ∧
      digitsValue base hexDigit (List.replicate k '0' ++ Nat.toDigits base n) = some n := by
  obtain ⟨hchars, hread⟩ := toDigits_number h1 h16 n
  have hzero : Nat.digitChar 0 = '0' := rfl
  refine ⟨fun c hc => ?_, ?_⟩
  · rcases List.mem_append.mp hc with hc | hc
    · rw [List.eq_of_mem_replicate hc, ← hzero]
      exact digitBelow_digitChar h16 (by omega)
    · exact hchars c hc
  · have hzeros : (List.replicate k '0').foldlM (numberStep base) 0 = some 0 := by
      induction k with
      | zero => rfl
      | succ k ih =>
        rw [List.replicate_succ, List.foldlM_cons, ← hzero,
          numberStep_digitChar h16 (by omega : 0 < base), Nat.zero_mul]
        exact ih
    unfold digitsValue
    rw [if_neg fun he => Nat.toDigits_ne_nil (List.append_eq_nil_iff.mp he).2]
    show List.foldlM (numberStep base) 0 _ = some n
    rw [List.foldlM_append, hzeros]
    exact hread

theorem parseU64_hexText (width : ℕ) {n : ℕ} (h : n < 2 ^ 64) :
    parseU64 ("0x" ++ hexText width n).toList = some (.ofNat 64 n) := by
  obtain ⟨hall, hvalue⟩ := digitsValue_padded (by decide : 1 < 16) le_rfl
    (width - (Nat.toDigits 16 n).length) n
  have htext : ("0x" ++ hexText width n).toList = '0' :: 'x' ::
      (List.replicate (width - (Nat.toDigits 16 n).length) '0' ++ Nat.toDigits 16 n) := by
    unfold hexText
    simp
  have hne : List.replicate (width - (Nat.toDigits 16 n).length) '0' ++ Nat.toDigits 16 n ≠ [] :=
    fun he => Nat.toDigits_ne_nil (List.append_eq_nil_iff.mp he).2
  rw [htext]
  generalize List.replicate (width - (Nat.toDigits 16 n).length) '0' ++ Nat.toDigits 16 n = digits
    at hall hvalue hne
  cases digits with
  | nil => exact absurd rfl hne
  | cons c cs =>
    refine parseU64_digits (fun d hd => ?_) rfl ?_ hall hvalue h
    · rw [← Option.some.inj hd]
      rfl
    · unfold numberBase
      exact if_pos ⟨.inl rfl, hall c List.mem_cons_self⟩

/-- A number that is not zero does not begin with a zero. -/
theorem head_toDigits {n : ℕ} (h : 0 < n) :
    ∃ d cs, 0 < d ∧ d < 10 ∧ Nat.toDigits 10 n = Nat.digitChar d :: cs := by
  induction n using Nat.strong_induction_on with
  | _ n ih =>
    by_cases hn : n < 10
    · exact ⟨n, [], h, hn, Nat.toDigits_of_lt_base hn⟩
    · obtain ⟨d, cs, hpos, hd, hcs⟩ := ih (n / 10) (by omega) (by omega)
      rw [Nat.toDigits_of_base_le (by decide) (by omega), hcs]
      exact ⟨d, _, hpos, hd, rfl⟩

/-- A decimal number is not taken for an octal one. -/
theorem parseU64_decimal {n : ℕ} (h : n < 2 ^ 64) :
    parseU64 (toString n).toList = some (.ofNat 64 n) := by
  rw [Nat.toString_eq_ofList_toDigits, String.toList_ofList]
  obtain ⟨hall, hvalue⟩ := digitsValue_padded (by decide : 1 < 10) (by decide) 0 n
  rw [List.replicate_zero, List.nil_append] at hall hvalue
  rcases Nat.eq_zero_or_pos n with rfl | hpos
  · decide
  · obtain ⟨d, cs, hd, hlt, hcs⟩ := head_toDigits hpos
    have hplain : ∀ e ∈ List.range 10, 0 < e → isSpace (Nat.digitChar e) = false ∧
        Nat.digitChar e ≠ '-' ∧ Nat.digitChar e ≠ '+' ∧ Nat.digitChar e ≠ '0' := by decide
    obtain ⟨hspace, hminus, hplus, hzero⟩ := hplain d (List.mem_range.mpr hlt) hd
    rw [hcs] at hall hvalue ⊢
    refine parseU64_digits ?_ ?_ ?_ hall hvalue h
    · intro c hc
      rw [← Option.some.inj hc]
      exact hspace
    · unfold splitSign
      split
      · next he => exact absurd (List.cons.inj he).1 hminus
      · next he => exact absurd (List.cons.inj he).1 hplus
      · rfl
    · unfold numberBase
      split
      · next he => exact absurd (List.cons.inj he).1 hzero
      · next he => exact absurd (List.cons.inj he).1 hzero
      · rfl

theorem parseU32_of_parseU64 {text : List Char} {n : ℤ} (h0 : 0 ≤ n) (hlt : n ≤ 0xFFFFFFFF)
    (h : parseU64 text = some (.ofNat 64 n.toNat)) : parseU32 text = some (.ofInt 32 n) := by
  obtain ⟨m, rfl⟩ := Int.eq_ofNat_of_zero_le h0
  have hm : m < 2 ^ 32 := by omega
  unfold parseU32
  rw [h, Option.bind_some, Int.toNat_natCast, if_neg (by simp; omega)]
  congr 1
  apply BitVec.eq_of_toNat_eq
  simp

/-! ## The configuration -/

/-- The limits that the host has checked. -/
structure InLimits (v : ConfigValues) : Prop where
  configId : 1 ≤ v.configId ∧ v.configId ≤ 0xFFFFFFFFFFFFFFFF
  signalPhaseIncrement : 0 ≤ v.active.signalPhaseIncrement ∧
    v.active.signalPhaseIncrement ≤ 0xFFFFFFFF
  signalPhaseInitial : 0 ≤ v.active.signalPhaseInitial ∧ v.active.signalPhaseInitial ≤ 0xFFFFFFFF
  signalAmplitude : 0 ≤ v.active.signalAmplitude ∧ v.active.signalAmplitude ≤ 0xFFFFFFFF
  noiseAmplitude : 0 ≤ v.active.noiseAmplitude ∧ v.active.noiseAmplitude ≤ 0xFFFFFFFF
  noiseSeed : 0 ≤ v.active.noiseSeed ∧ v.active.noiseSeed ≤ 0xFFFFFFFF
  loPhaseIncrement : 0 ≤ v.active.loPhaseIncrement ∧ v.active.loPhaseIncrement ≤ 0xFFFFFFFF
  loPhaseInitial : 0 ≤ v.active.loPhaseInitial ∧ v.active.loPhaseInitial ≤ 0xFFFFFFFF
  frameLength : 0 ≤ v.frameLength ∧ v.frameLength ≤ 0xFFFFFFFF
  frameCount : 0 ≤ v.frameCount ∧ v.frameCount ≤ 0xFFFFFFFF

theorem configurationCommand_inLimits {document : Json} {v : ConfigValues}
    (h : configurationCommand document = .ok v) : InLimits v := by
  simp only [configurationCommand, bind_eq_ok, check_eq_ok] at h
  obtain ⟨-, identity, -, id, -, active, -, acq, -, j₁, -, j₂, -, j₃, -, j₄, -, j₅, -, j₆, -,
    j₇, -, j₈, -, j₉, -, n₀, h₀, n₁, h₁, n₂, h₂, n₃, h₃, n₄, h₄, n₅, h₅, n₆, h₆, n₇, h₇, n₈, h₈, n₉,
    h₉, he⟩ := h
  cases he
  exact ⟨(commandValue_eq_ok.mp h₀).2, (commandValue_eq_ok.mp h₁).2, (commandValue_eq_ok.mp h₂).2,
    (commandValue_eq_ok.mp h₃).2, (commandValue_eq_ok.mp h₄).2, (commandValue_eq_ok.mp h₅).2,
    (commandValue_eq_ok.mp h₆).2, (commandValue_eq_ok.mp h₇).2, (commandValue_eq_ok.mp h₈).2,
    (commandValue_eq_ok.mp h₉).2⟩

theorem parseU32_hexText {n : ℤ} (h : 0 ≤ n ∧ n ≤ 0xFFFFFFFF) :
    parseU32 ("0x" ++ hexText 8 n.toNat).toList = some (.ofInt 32 n) :=
  parseU32_of_parseU64 h.1 h.2 (parseU64_hexText 8 (by omega))

theorem parseU32_decimal {n : ℤ} (h : 0 ≤ n ∧ n ≤ 0xFFFFFFFF) :
    parseU32 (toString n).toList = some (.ofInt 32 n) := by
  refine parseU32_of_parseU64 h.1 h.2 ?_
  obtain ⟨m, rfl⟩ := Int.eq_ofNat_of_zero_le h.1
  exact parseU64_decimal (by omega)

/-- The two words of the configuration id. -/
theorem configId_words {n : ℤ} (h : 1 ≤ n ∧ n ≤ 0xFFFFFFFFFFFFFFFF) :
    BitVec.ofNat 64 n.toNat ≠ 0 ∧ (BitVec.ofNat 64 n.toNat).setWidth 32 = BitVec.ofInt 32 n ∧
      (BitVec.ofNat 64 n.toNat >>> 32).setWidth 32 = BitVec.ofInt 32 (n / 2 ^ 32) := by
  obtain ⟨m, rfl⟩ := Int.eq_ofNat_of_zero_le (by omega : 0 ≤ n)
  have hm : m < 2 ^ 64 := by omega
  have hdiv : ((m : ℤ) / 2 ^ 32) = ((m / 2 ^ 32 : ℕ) : ℤ) := by norm_cast
  rw [hdiv, Int.toNat_natCast]
  refine ⟨fun he => ?_, ?_, ?_⟩
  · have hzero := congrArg BitVec.toNat he
    simp at hzero
    omega
  · apply BitVec.eq_of_toNat_eq
    simp
  · apply BitVec.eq_of_toNat_eq
    have hmod : m % 18446744073709551616 = m := Nat.mod_eq_of_lt (by omega)
    simp only [BitVec.toNat_setWidth, BitVec.toNat_ushiftRight, BitVec.toNat_ofNat,
      BitVec.ofInt_natCast, Nat.shiftRight_eq_div_pow]
    rw [hmod]

theorem parseConfigPayload_texts {v : ConfigValues} (h : InLimits v) :
    parseConfigPayload (texts v) = some v.words := by
  obtain ⟨hne, hlow, hhigh⟩ := configId_words h.configId
  unfold texts parseConfigPayload
  dsimp only
  rw [parseU64_hexText 16 (by have := h.configId; omega), Option.bind_some, if_neg hne,
    parseU32_hexText h.signalPhaseIncrement, parseU32_hexText h.signalPhaseInitial,
    parseU32_hexText h.signalAmplitude, parseU32_hexText h.noiseAmplitude,
    parseU32_hexText h.noiseSeed, parseU32_hexText h.loPhaseIncrement,
    parseU32_hexText h.loPhaseInitial, parseU32_decimal h.frameLength,
    parseU32_decimal h.frameCount]
  simp only [bind, Option.bind_some, hlow, hhigh]
  rfl

theorem parseInvocation_command {v : ConfigValues} (h : InLimits v) (control : List Char) :
    parseInvocation (commandArgs control v) = some ⟨none, 2000, .configApply v.words⟩ := by
  have hcommand : parseCommand "config-apply".toList (texts v) =
      (parseConfigPayload (texts v)).map .configApply := by
    unfold parseCommand
    dsimp only
    iterate 6 rw [if_neg (by decide)]
    rw [if_pos rfl]
  unfold parseInvocation commandArgs
  rw [List.tail_cons]
  unfold parseOptions
  rw [if_neg (by decide), hcommand, parseConfigPayload_texts h]
  rfl

/-- The command line of a configuration, through the shell: the shell passes on any arguments, and
whatever document these were taken from, `qcrate-control` applies the words of the configuration. -/
theorem command_line_arrives {document : Json} {v : ConfigValues}
    (h : configurationCommand document = .ok v) (control : List Char) :
    (∀ args, Shell.split (Shell.join args) = some args) ∧
      (Shell.split (Shell.join (commandArgs control v))).bind parseInvocation =
        some ⟨none, 2000, .configApply v.words⟩ := by
  refine ⟨Shell.split_join, ?_⟩
  rw [Shell.split_join, Option.bind_some]
  exact parseInvocation_command (configurationCommand_inLimits h) control

/-- The command line of a profile with two halves. -/
theorem command_line_arrives_halves : ∃ resolved v,
    compileProfile smallRepository (smallProfile ⟨false, 5, -1⟩ ⟨false, 5, -1⟩) = .ok resolved ∧
      configurationCommand resolved = .ok v ∧
      (Shell.split (Shell.join (commandArgs "qcrate-control".toList v))).bind parseInvocation =
        some ⟨none, 2000, .configApply v.words⟩ := by
  have hrun : ((compileProfile smallRepository
      (smallProfile ⟨false, 5, -1⟩ ⟨false, 5, -1⟩)).toOption.any fun resolved =>
        (configurationCommand resolved).toOption.any fun _ => true) = true := by
    decide +kernel
  obtain ⟨resolved, hcompile, hrest⟩ := exists_of_any hrun
  obtain ⟨v, hv, -⟩ := exists_of_any hrest
  exact ⟨resolved, v, hcompile, hv, (command_line_arrives hv "qcrate-control".toList).2⟩

end QCrate.Rpmsg
