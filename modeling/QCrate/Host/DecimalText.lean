import QCrate.Host.ProfileWords

/-!
# Decimal numbers as texts

A resolved profile keeps its decimal numbers as texts without an exponent and without trailing
zeros, and reads them back with `Decimal(text)`.

* `decimalText_read` — digits with a sign and a point are read as the number they spell.
* `parse_decimalString` — a decimal survives the text, and so does the sign of a zero.
-/

namespace QCrate.Host

open QCrate.Lib

/-! ## Digits -/

/-- A text of decimal digits. -/
def DigitText (cs : List Char) : Prop := ∀ c ∈ cs, ∃ d < 10, c = Nat.digitChar d

/-- One digit of a number in base ten. -/
def decimalStep (n : ℕ) (c : Char) : Option ℕ :=
  (hexDigit c).bind fun d => if d < 10 then some (n * 10 + d) else none

theorem decimalStep_digitChar (n : ℕ) {d : ℕ} (h : d < 10) :
    decimalStep n (Nat.digitChar d) = some (n * 10 + d) := by
  unfold decimalStep
  rw [hexDigit_digitChar (by omega), Option.bind_some, if_pos h]

/-- The number that digits spell. -/
def spelled (cs : List Char) : ℕ := (cs.foldlM decimalStep 0).getD 0

theorem foldlM_decimalStep {cs : List Char} (h : DigitText cs) (n : ℕ) :
    cs.foldlM decimalStep n = some (n * 10 ^ cs.length + spelled cs) := by
  have hread : ∀ n, ∃ v, cs.foldlM decimalStep n = some (n * 10 ^ cs.length + v) ∧
      ∀ m, cs.foldlM decimalStep m = some (m * 10 ^ cs.length + v) := by
    induction cs with
    | nil => exact fun n => ⟨0, by simp, by simp⟩
    | cons c cs ih =>
      obtain ⟨d, hd, rfl⟩ := h c List.mem_cons_self
      obtain ⟨v, -, hv⟩ := ih (fun c hc => h c (List.mem_cons_of_mem _ hc)) 0
      have hall : ∀ m, (Nat.digitChar d :: cs).foldlM decimalStep m =
          some (m * 10 ^ (cs.length + 1) + (d * 10 ^ cs.length + v)) := by
        intro m
        rw [List.foldlM_cons, decimalStep_digitChar m hd]
        show cs.foldlM decimalStep (m * 10 + d) = _
        rw [hv, pow_succ]
        congr 1
        ring
      exact fun n => ⟨_, hall n, hall⟩
  obtain ⟨v, hn, hall⟩ := hread n
  rw [hn, spelled, hall 0, Nat.zero_mul, Nat.zero_add, Option.getD_some]

theorem digitText_append {cs ds : List Char} (hc : DigitText cs) (hd : DigitText ds) :
    DigitText (cs ++ ds) := by
  intro c h
  rcases List.mem_append.mp h with h | h
  · exact hc c h
  · exact hd c h

theorem spelled_append {cs ds : List Char} (hc : DigitText cs) (hd : DigitText ds) :
    spelled (cs ++ ds) = spelled cs * 10 ^ ds.length + spelled ds := by
  have h := foldlM_decimalStep (digitText_append hc hd) 0
  rw [List.foldlM_append, foldlM_decimalStep hc] at h
  have h' := (foldlM_decimalStep hd _).symm.trans h
  simp only [Nat.zero_mul, Nat.zero_add, Option.some.injEq] at h'
  exact h'.symm

theorem toDigits_spelled (n : ℕ) :
    DigitText (Nat.toDigits 10 n) ∧ spelled (Nat.toDigits 10 n) = n := by
  induction n using Nat.strong_induction_on with
  | _ n ih =>
    have hone : ∀ d < 10, DigitText [Nat.digitChar d] ∧ spelled [Nat.digitChar d] = d := by
      intro d hd
      refine ⟨fun c hc => ⟨d, hd, List.mem_singleton.mp hc⟩, ?_⟩
      unfold spelled
      rw [List.foldlM_cons, decimalStep_digitChar 0 hd]
      simp
    by_cases hn : n < 10
    · rw [Nat.toDigits_of_lt_base hn]
      exact hone n hn
    · obtain ⟨htext, hread⟩ := ih (n / 10) (by omega)
      obtain ⟨hlast, hvalue⟩ := hone (n % 10) (Nat.mod_lt _ (by decide))
      rw [Nat.toDigits_of_base_le (by decide) (by omega)]
      refine ⟨digitText_append htext hlast, ?_⟩
      rw [spelled_append htext hlast, hread, hvalue, List.length_singleton, pow_one]
      omega

theorem zeros_spelled (n : ℕ) :
    DigitText (List.replicate n '0') ∧ spelled (List.replicate n '0') = 0 := by
  have htext : ∀ n, DigitText (List.replicate n '0') := fun n c hc =>
    ⟨0, by decide, List.eq_of_mem_replicate hc⟩
  refine ⟨htext n, ?_⟩
  induction n with
  | zero => rfl
  | succ n ih =>
    have hone : spelled ['0'] = 0 := by decide
    have htail : DigitText ['0'] := htext 1
    rw [List.replicate_succ', spelled_append (htext n) htail, ih, hone, Nat.zero_mul]

/-! ## Reading a text -/

/-- A character that may stand in a number without sign and exponent. -/
theorem DigitText.plain {cs : List Char} (h : DigitText cs) : ∀ c ∈ cs,
    ¬c.isWhitespace ∧ c ≠ '_' ∧ c ≠ 'e' ∧ c ≠ 'E' ∧ c ≠ '-' ∧ c ≠ '+' ∧ c ≠ '.' := by
  have hall : ∀ e ∈ List.range 10, ¬(Nat.digitChar e).isWhitespace ∧ Nat.digitChar e ≠ '_' ∧
      Nat.digitChar e ≠ 'e' ∧ Nat.digitChar e ≠ 'E' ∧ Nat.digitChar e ≠ '-' ∧
      Nat.digitChar e ≠ '+' ∧ Nat.digitChar e ≠ '.' := by decide
  intro c hc
  obtain ⟨d, hd, rfl⟩ := h c hc
  exact hall d (List.mem_range.mpr hd)

/-- The sign of a number that is written with a minus when it is negative. -/
def signText (negative : Bool) : List Char := if negative then ['-'] else []

theorem splitSign_digits {cs rest : List Char} (h : DigitText cs) (hne : cs ≠ []) :
    splitSign (cs ++ rest) = (false, cs ++ rest) := by
  cases cs with
  | nil => exact absurd rfl hne
  | cons c cs =>
    obtain ⟨-, -, -, -, hminus, hplus, -⟩ := h.plain c List.mem_cons_self
    rw [List.cons_append]
    unfold splitSign
    split
    · next he => exact absurd (List.cons.inj he).1 hminus
    · next he => exact absurd (List.cons.inj he).1 hplus
    · rfl

theorem splitSign_signText (negative : Bool) {cs rest : List Char} (h : DigitText cs)
    (hne : cs ≠ []) : splitSign (signText negative ++ (cs ++ rest)) = (negative, cs ++ rest) := by
  cases negative with
  | false => exact (splitSign_digits h hne : splitSign (cs ++ rest) = (false, cs ++ rest))
  | true => rfl

theorem digitsValue_ten {cs : List Char} (h : DigitText cs) (hne : cs ≠ []) :
    digitsValue 10 hexDigit cs = some (spelled cs) := by
  unfold digitsValue
  rw [if_neg hne]
  show cs.foldlM decimalStep 0 = _
  rw [foldlM_decimalStep h, Nat.zero_mul, Nat.zero_add]

/-- The text of a whole number, with a point and a fraction or without. -/
def pointText (whole fraction : List Char) : List Char :=
  whole ++ if fraction = [] then [] else '.' :: fraction

/-- Digits and a point are no blanks, no underscores and no exponent mark. -/
theorem plain_of_mem_pointText {whole fraction : List Char} (hw : DigitText whole)
    (hf : DigitText fraction) :
    ∀ c ∈ pointText whole fraction, ¬c.isWhitespace ∧ c ≠ '_' ∧ c ≠ 'e' ∧ c ≠ 'E' := by
  have hdigit : ∀ cs, DigitText cs → ∀ c ∈ cs, ¬c.isWhitespace ∧ c ≠ '_' ∧ c ≠ 'e' ∧ c ≠ 'E' :=
    fun cs h c hc => ⟨(h.plain c hc).1, (h.plain c hc).2.1, (h.plain c hc).2.2.1,
      (h.plain c hc).2.2.2.1⟩
  intro c hc
  unfold pointText at hc
  rcases List.mem_append.mp hc with hc | hc
  · exact hdigit whole hw c hc
  · split at hc
    · cases hc
    · rcases List.mem_cons.mp hc with rfl | hc
      · decide
      · exact hdigit fraction hf c hc

/-- Nothing is trimmed off a text of this form, and no underscore is dropped. -/
theorem filter_trim_signed (negative : Bool) {whole fraction : List Char} (hw : DigitText whole)
    (hf : DigitText fraction) :
    (trim (signText negative ++ pointText whole fraction)).filter (· ≠ '_') =
      signText negative ++ pointText whole fraction := by
  have hsigned : ∀ c ∈ signText negative ++ pointText whole fraction,
      ¬c.isWhitespace ∧ c ≠ '_' := by
    intro c hc
    rcases List.mem_append.mp hc with hc | hc
    · cases negative
      · cases hc
      · obtain rfl := List.mem_singleton.mp hc
        decide
    · have hplain := plain_of_mem_pointText hw hf c hc
      exact ⟨hplain.1, hplain.2.1⟩
  rw [trim_eq fun c hc => (hsigned c hc).1, List.filter_eq_self]
  intro c hc
  exact decide_eq_true (hsigned c hc).2

/-- The point ends the whole part, or there is none and the text ends. -/
theorem takeWhile_pointText {whole : List Char} (hw : DigitText whole) (fraction : List Char) :
    (pointText whole fraction).takeWhile (· ≠ '.') = whole := by
  unfold pointText
  rw [List.takeWhile_append_of_pos fun c hc => decide_eq_true (hw.plain c hc).2.2.2.2.2.2]
  split
  · simp
  · simp

theorem drop_pointText (whole fraction : List Char) :
    ((pointText whole fraction).drop whole.length).drop 1 = fraction := by
  unfold pointText
  rw [List.drop_left]
  split
  · next h => rw [h, List.drop_nil]
  · rfl

theorem decimalText_read (negative : Bool) {whole fraction : List Char} (hw : DigitText whole)
    (hne : whole ≠ []) (hf : DigitText fraction) :
    Decimal.parse (signText negative ++ pointText whole fraction) =
      some ⟨negative, spelled (whole ++ fraction), -fraction.length⟩ := by
  have hsign : splitSign (signText negative ++ pointText whole fraction) =
      (negative, pointText whole fraction) :=
    splitSign_signText negative hw hne
  have hmantissa : (pointText whole fraction).takeWhile (fun c => c ≠ 'e' ∧ c ≠ 'E') =
      pointText whole fraction := by
    have hall := @List.takeWhile_append_of_pos Char (fun c => c ≠ 'e' ∧ c ≠ 'E')
      (pointText whole fraction) [] fun c hc =>
        decide_eq_true (plain_of_mem_pointText hw hf c hc).2.2
    rwa [List.append_nil, List.takeWhile_nil, List.append_nil] at hall
  have happend : whole ++ fraction ≠ [] := fun h => hne (List.append_eq_nil_iff.mp h).1
  unfold Decimal.parse
  rw [filter_trim_signed negative hw hf, hsign]
  dsimp only
  rw [hmantissa, takeWhile_pointText hw, drop_pointText, List.drop_length,
    digitsValue_ten (digitText_append hw hf) happend]
  simp

/-! ## Writing a text -/

/-- A decimal fraction. -/
def IsDecimal (q : ℚ) : Prop := ∃ (n : ℤ) (k : ℕ), q = n / 10 ^ k

theorem den_dvd_places {q : ℚ} (h : IsDecimal q) : q.den ∣ 10 ^ places q := by
  obtain ⟨n, k, hq⟩ := h
  have hk : q.den ∣ 2 ^ k * 5 ^ k := by
    have hdvd : (q.den : ℤ) ∣ (10 ^ k : ℤ) := by
      have hself : q = Rat.divInt n (10 ^ k) := by
        rw [hq, Rat.divInt_eq_div]
        push_cast
        rfl
      rw [hself]
      exact Rat.den_dvd n (10 ^ k)
    rw [← mul_pow]
    exact_mod_cast hdvd
  -- a denominator of a decimal fraction has only the prime factors 2 and 5
  obtain ⟨a, b, ha, hb, hab⟩ := (Nat.dvd_mul).mp hk
  obtain ⟨i, -, rfl⟩ := (Nat.dvd_prime_pow Nat.prime_two).mp ha
  obtain ⟨j, -, rfl⟩ := (Nat.dvd_prime_pow Nat.prime_five).mp hb
  have hfact : Fact (Nat.Prime 5) := ⟨Nat.prime_five⟩
  have hi : i ≤ places q := by
    refine le_trans ?_ (le_max_left _ _)
    rw [← padicValNat_dvd_iff_le q.den_ne_zero, ← hab]
    exact Nat.dvd_mul_right _ _
  have hj : j ≤ places q := by
    refine le_trans ?_ (le_max_right _ _)
    rw [← padicValNat_dvd_iff_le q.den_ne_zero, ← hab]
    exact Nat.dvd_mul_left _ _
  have hten : (10 : ℕ) ^ places q = 2 ^ places q * 5 ^ places q := by
    rw [← mul_pow]
    norm_num
  rw [← hab, hten]
  exact Nat.mul_dvd_mul (pow_dvd_pow 2 hi) (pow_dvd_pow 5 hj)

/-- The digits that are written. -/
theorem exists_coefficient {q : ℚ} (h0 : 0 ≤ q) (h : IsDecimal q) :
    ∃ n : ℕ, q * 10 ^ places q = n ∧ (q * 10 ^ places q).num.natAbs = n := by
  obtain ⟨m, hm⟩ := den_dvd_places h
  have hint : q * 10 ^ places q = ((q.num * m : ℤ) : ℚ) := by
    have hden : (q.den : ℚ) ≠ 0 := by exact_mod_cast q.den_ne_zero
    have hpow : (10 : ℚ) ^ places q = q.den * m := by exact_mod_cast hm
    nth_rewrite 1 [← Rat.num_div_den q]
    rw [hpow]
    push_cast
    field_simp
  have hnonneg : 0 ≤ q.num * m := mul_nonneg (Rat.num_nonneg.mpr h0) (Int.natCast_nonneg m)
  obtain ⟨n, hn⟩ := Int.eq_ofNat_of_zero_le hnonneg
  rw [hn] at hint
  refine ⟨n, by exact_mod_cast hint, ?_⟩
  rw [hint]
  rfl

theorem positional_toList {q : ℚ} (h0 : 0 ≤ q) (h : IsDecimal q) :
    ∃ whole fraction : List Char, (positional q).toList = pointText whole fraction ∧
      DigitText whole ∧ whole ≠ [] ∧ DigitText fraction ∧ fraction.length = places q ∧
      (spelled (whole ++ fraction) : ℚ) = q * 10 ^ places q := by
  obtain ⟨n, hn, habs⟩ := exists_coefficient h0 h
  obtain ⟨hwhole, hwvalue⟩ := toDigits_spelled (n / 10 ^ places q)
  have hstring : ∀ P, places q = P → (positional q).toList =
      Nat.toDigits 10 (n / 10 ^ P) ++ if P = 0 then [] else '.' ::
        (List.replicate (P - (Nat.toDigits 10 (n % 10 ^ P)).length) '0' ++
          Nat.toDigits 10 (n % 10 ^ P)) := by
    rintro P rfl
    unfold positional
    dsimp only
    rw [habs]
    split
    · simp
    · simp
  by_cases hP : places q = 0
  · refine ⟨Nat.toDigits 10 (n / 10 ^ places q), [], ?_, hwhole, Nat.toDigits_ne_nil, ?_, hP.symm,
      ?_⟩
    · rw [hstring _ rfl, if_pos hP]
      rfl
    · intro c hc
      cases hc
    · rw [List.append_nil, hwvalue, hn, hP, pow_zero, Nat.div_one]
  · obtain ⟨hdigits, hdvalue⟩ := toDigits_spelled (n % 10 ^ places q)
    obtain ⟨hzeros, hzvalue⟩ :=
      zeros_spelled (places q - (Nat.toDigits 10 (n % 10 ^ places q)).length)
    -- the remainder has at most `places` digits, and zeros fill up the rest
    have hlen : (Nat.toDigits 10 (n % 10 ^ places q)).length ≤ places q := by
      rw [Nat.length_toDigits_le_iff (by decide) (Nat.pos_of_ne_zero hP)]
      exact Nat.mod_lt _ (Nat.pow_pos (by decide))
    have hpadded : (List.replicate (places q - (Nat.toDigits 10 (n % 10 ^ places q)).length) '0' ++
        Nat.toDigits 10 (n % 10 ^ places q)).length = places q := by
      rw [List.length_append, List.length_replicate]
      omega
    refine ⟨Nat.toDigits 10 (n / 10 ^ places q), _, ?_, hwhole, Nat.toDigits_ne_nil,
      digitText_append hzeros hdigits, hpadded, ?_⟩
    · rw [hstring _ rfl, if_neg hP, pointText, if_neg]
      intro hnil
      rw [hnil] at hpadded
      exact hP hpadded.symm
    · rw [spelled_append hwhole (digitText_append hzeros hdigits), hpadded, hwvalue,
        spelled_append hzeros hdigits, hzvalue, hdvalue, Nat.zero_mul, Nat.zero_add, hn,
        Nat.div_add_mod']

theorem isDecimal_magnitude (d : Decimal) : IsDecimal d.magnitude := by
  obtain ⟨b, n, e⟩ := d
  rcases Int.eq_nat_or_neg e with ⟨k, rfl | rfl⟩
  · refine ⟨n * 10 ^ k, 0, ?_⟩
    simp [Decimal.magnitude]
  · refine ⟨n, k, ?_⟩
    simp [Decimal.magnitude, div_eq_mul_inv]

/-- A decimal survives its text: the number, and the sign, also of a zero. -/
theorem parse_decimalString (d : Decimal) : ∃ read : Decimal,
    Decimal.parse (decimalString d).toList = some read ∧ read.negative = d.negative ∧
      read.value = d.value := by
  obtain ⟨whole, fraction, htext, hw, hne, hf, hlen, hvalue⟩ :=
    positional_toList d.magnitude_nonneg (isDecimal_magnitude d)
  have hstring : (decimalString d).toList =
      signText d.negative ++ pointText whole fraction := by
    unfold decimalString signText
    rw [String.toList_append, htext]
    cases d.negative <;> rfl
  have hparse := decimalText_read d.negative hw hne hf
  rw [← hstring] at hparse
  refine ⟨_, hparse, rfl, ?_⟩
  have hten : (10 : ℚ) ^ places d.magnitude ≠ 0 := by positivity
  have hmagnitude : (⟨d.negative, spelled (whole ++ fraction), -fraction.length⟩ :
      Decimal).magnitude = d.magnitude := by
    show (spelled (whole ++ fraction) : ℚ) * 10 ^ (-(fraction.length : ℤ)) = _
    rw [hvalue, hlen, zpow_neg, zpow_natCast]
    field_simp
  unfold Decimal.value
  rw [hmagnitude]

theorem IsDecimal.abs {q : ℚ} (h : IsDecimal q) : IsDecimal |q| := by
  obtain ⟨n, k, rfl⟩ := h
  refine ⟨|n|, k, ?_⟩
  rw [abs_div, Int.cast_abs, abs_of_nonneg (by positivity : (0 : ℚ) ≤ 10 ^ k)]

/-- The decimal of a result stands for the result. -/
theorem value_ofRat {q : ℚ} (h : IsDecimal q) : (Decimal.ofRat q).value = q := by
  obtain ⟨n, hn, hnum⟩ := exists_coefficient (abs_nonneg q) h.abs
  have hten : (10 : ℚ) ^ places |q| ≠ 0 := by positivity
  have hmagnitude : (Decimal.ofRat q).magnitude = |q| := by
    show (((|q| * 10 ^ places |q|).num.natAbs : ℕ) : ℚ) * 10 ^ (-(places |q| : ℤ)) = |q|
    rw [hnum, ← hn, zpow_neg, zpow_natCast]
    field_simp
  have hsign : (Decimal.ofRat q).negative = decide (q < 0) := rfl
  unfold Decimal.value
  rw [hmagnitude, hsign]
  by_cases hneg : q < 0
  · rw [if_pos (decide_eq_true hneg), abs_of_neg hneg, neg_neg]
  · rw [if_neg (by simpa using hneg), abs_of_nonneg (not_lt.mp hneg)]

end QCrate.Host
