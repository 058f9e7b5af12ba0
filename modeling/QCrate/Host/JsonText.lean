import QCrate.Host.DecimalText
import QCrate.Host.SortedJson

/-!
# Documents as texts

`json.dumps` with `sort_keys` and ASCII escapes, in the layout of a file and in the canonical
layout that is hashed, and `json.load` with decimals for fractions and without repeated keys.

* `Json.write` — a document in a layout.
* `dumps`, `canonicalText` — the text of a resolved profile, the text of a digest.
* `loads` — the document of a text.
* `loads_dumps` — a written document is read back with sorted keys.
-/

namespace QCrate.Host

open QCrate.Lib

/-! ## Writing -/

/-- White space between the values of a text. -/
def isBlank (c : Char) : Bool := c = ' ' || c = '\t' || c = '\n' || c = '\r'

/-- The white space of a layout: `indent` and the key separator. -/
structure Layout where
  newline : ℕ → List Char
  gap : List Char
  newline_blank : ∀ depth, ∀ c ∈ newline depth, isBlank c = true
  gap_blank : ∀ c ∈ gap, isBlank c = true

def intText (n : ℤ) : List Char :=
  (if n < 0 then ['-'] else []) ++ Nat.toDigits 10 n.natAbs

def hexFour (n : ℕ) : List Char :=
  [Nat.digitChar (n / 4096 % 16), Nat.digitChar (n / 256 % 16), Nat.digitChar (n / 16 % 16),
    Nat.digitChar (n % 16)]

def unicodeEscape (n : ℕ) : List Char := '\\' :: 'u' :: hexFour n

/-- The characters with an escape of their own. -/
def shortEscapes : List (Char × Char) :=
  [('"', '"'), ('\\', '\\'), ('\n', 'n'), ('\r', 'r'), ('\t', 't'), ('\x0c', 'f'), ('\x08', 'b')]

/-- `ensure_ascii`: what is not printable ASCII is escaped, above U+FFFF as a surrogate pair. -/
def escapeChar (c : Char) : List Char :=
  match shortEscapes.lookup c with
  | some e => ['\\', e]
  | none =>
    if 32 ≤ c.toNat ∧ c.toNat ≤ 126 then [c]
    else if c.toNat < 0x10000 then unicodeEscape c.toNat
    else unicodeEscape (0xD800 + (c.toNat - 0x10000) / 0x400) ++
      unicodeEscape (0xDC00 + (c.toNat - 0x10000) % 0x400)

def quoted (s : String) : List Char :=
  '"' :: (s.toList.flatMap escapeChar ++ ['"'])

mutual

/-- The text of a document. A decimal has none: see `dumps`. -/
def Json.write (layout : Layout) (depth : ℕ) : Json → List Char
  | .null => ['n', 'u', 'l', 'l']
  | .bool true => ['t', 'r', 'u', 'e']
  | .bool false => ['f', 'a', 'l', 's', 'e']
  | .int n => intText n
  | .decimal _ => []
  | .str s => quoted s
  | .arr items => '[' :: Json.writeItems layout depth true items
  | .obj fields => '{' :: Json.writeFields layout depth true fields

def Json.writeItems (layout : Layout) (depth : ℕ) (first : Bool) : List Json → List Char
  | [] => (if first then [] else layout.newline depth) ++ [']']
  | x :: xs => (if first then [] else [',']) ++ layout.newline (depth + 1) ++
      Json.write layout (depth + 1) x ++ Json.writeItems layout depth false xs

def Json.writeFields (layout : Layout) (depth : ℕ) (first : Bool) :
    List (String × Json) → List Char
  | [] => (if first then [] else layout.newline depth) ++ ['}']
  | x :: xs => (if first then [] else [',']) ++ layout.newline (depth + 1) ++
      Json.writeField layout (depth + 1) x ++ Json.writeFields layout depth false xs

def Json.writeField (layout : Layout) (depth : ℕ) : String × Json → List Char
  | (key, value) => quoted key ++ ':' :: layout.gap ++ Json.write layout depth value

end

/-- An indentation is blank. -/
theorem blank_indent (depth : ℕ) : ∀ c ∈ '\n' :: List.replicate (2 * depth) ' ',
    isBlank c = true := by
  intro c hc
  rcases List.mem_cons.mp hc with rfl | hc
  · decide
  · rw [List.eq_of_mem_replicate hc]
    decide

theorem blank_space : ∀ c ∈ [' '], isBlank c = true := by
  intro c hc
  rw [List.mem_singleton.mp hc]
  decide

theorem blank_nil : ∀ c ∈ ([] : List Char), isBlank c = true :=
  fun _ hc => absurd hc List.not_mem_nil

/-- `indent=2` -/
def indented : Layout :=
  ⟨fun depth => '\n' :: List.replicate (2 * depth) ' ', [' '], blank_indent, blank_space⟩

/-- `separators=(",", ":")` -/
def compact : Layout := ⟨fun _ => [], [], fun _ => blank_nil, blank_nil⟩

/-- What `_write_json` writes. A decimal raises, and a repeated key is in no dictionary. -/
def dumps (document : Json) : Option (List Char) :=
  if document.plain then some (document.sorted.write indented 0 ++ ['\n']) else none

/-- `_canonical_bytes` -/
def canonicalText (value : Json) : Option (List Char) :=
  if value.plain then some (value.sorted.write compact 0) else none

/-! ## Reading -/

def skipBlank (cs : List Char) : List Char := cs.dropWhile isBlank

def readHex : List Char → Option (ℕ × List Char)
  | a :: b :: c :: d :: rest => (digitsValue 16 hexDigit [a, b, c, d]).map (·, rest)
  | _ => none

/-- The character of a `\u` escape. A surrogate without its pair is no character. -/
def scanUnicode (cs : List Char) : Option (Char × List Char) :=
  (readHex cs).bind fun (high, rest) =>
    if 0xD800 ≤ high ∧ high < 0xDC00 then
      match rest with
      | '\\' :: 'u' :: rest => (readHex rest).bind fun (low, rest) =>
        if 0xDC00 ≤ low ∧ low < 0xE000 then
          some (Char.ofNat (0x10000 + (high - 0xD800) * 0x400 + (low - 0xDC00)), rest)
        else none
      | _ => none
    else if 0xDC00 ≤ high ∧ high < 0xE000 then none
    else some (Char.ofNat high, rest)

/-- `BACKSLASH` -/
def backslash : List (Char × Char) :=
  [('"', '"'), ('\\', '\\'), ('/', '/'), ('b', '\x08'), ('f', '\x0c'), ('n', '\n'), ('r', '\r'),
    ('t', '\t')]

def scanEscape : List Char → Option (Char × List Char)
  | [] => none
  | e :: cs => if e = 'u' then scanUnicode cs else (backslash.lookup e).map (·, cs)

/-- One character of a string: a control character has to be escaped. -/
def scanChar : List Char → Option (Char × List Char)
  | [] => none
  | c :: cs =>
    if c = '\\' then scanEscape cs
    else if c.toNat < 32 then none
    else some (c, cs)

def scanString : ℕ → List Char → Option (List Char × List Char)
  | 0, _ => none
  | fuel + 1, cs =>
    if cs.head? = some '"' then some ([], cs.tail)
    else (scanChar cs).bind fun (c, rest) =>
      (scanString fuel rest).map fun (s, rest) => (c :: s, rest)

def scanFraction : List Char → List Char
  | [] => []
  | c :: cs =>
    if c = '.' ∧ cs.takeWhile Char.isDigit ≠ [] then c :: cs.takeWhile Char.isDigit else []

def scanExponent : List Char → List Char
  | [] => []
  | c :: cs =>
    let sign := (cs.take 1).filter fun s => s = '-' ∨ s = '+'
    let digits := (cs.drop sign.length).takeWhile Char.isDigit
    if (c = 'e' ∨ c = 'E') ∧ digits ≠ [] then c :: (sign ++ digits) else []

/-- A number: with a fraction or an exponent it is a decimal. -/
def scanNumber (cs : List Char) : Option (Json × List Char) :=
  let sign := (cs.take 1).filter (· = '-')
  let body := cs.drop sign.length
  let whole := if body.head? = some '0' then ['0'] else body.takeWhile Char.isDigit
  let rest := body.drop whole.length
  let fraction := scanFraction rest
  let exponent := scanExponent (rest.drop fraction.length)
  if fraction = [] ∧ exponent = [] then
    (digitsValue 10 hexDigit whole).map fun n : ℕ => (.int (if sign = [] then n else -n), rest)
  else if whole = [] then none
  else (Decimal.parse (sign ++ whole ++ fraction ++ exponent)).map fun d =>
    (.decimal d, (rest.drop fraction.length).drop exponent.length)

/-- `NaN` and the infinities are read nowhere: no check of a document accepts them. -/
def scanConstant : List Char → Option (Json × List Char)
  | 'n' :: 'u' :: 'l' :: 'l' :: rest => some (.null, rest)
  | 't' :: 'r' :: 'u' :: 'e' :: rest => some (.bool true, rest)
  | 'f' :: 'a' :: 'l' :: 's' :: 'e' :: rest => some (.bool false, rest)
  | _ => none

mutual

/-- `scan_once`, with the duplicate keys rejected. -/
def scanValue : ℕ → List Char → Option (Json × List Char)
  | 0, _ => none
  | _ + 1, [] => none
  | fuel + 1, c :: cs =>
    if c = '"' then
      (scanString (fuel + 1) cs).map fun (s, rest) => (.str (String.ofList s), rest)
    else if c = '{' then
      match skipBlank cs with
      | '}' :: rest => some (.obj [], rest)
      | rest => (scanFields fuel rest).bind fun (fields, rest) =>
        if (fields.map Prod.fst).Nodup then some (.obj fields, rest) else none
    else if c = '[' then
      match skipBlank cs with
      | ']' :: rest => some (.arr [], rest)
      | rest => (scanItems fuel rest).map fun (items, rest) => (.arr items, rest)
    else (scanConstant (c :: cs)).or (scanNumber (c :: cs))

/-- The values of an array behind its bracket. -/
def scanItems : ℕ → List Char → Option (List Json × List Char)
  | 0, _ => none
  | fuel + 1, cs => (scanValue fuel cs).bind fun (x, rest) =>
    match skipBlank rest with
    | ']' :: rest => some ([x], rest)
    | ',' :: rest => (scanItems fuel (skipBlank rest)).map fun (xs, rest) => (x :: xs, rest)
    | _ => none

/-- The fields of an object behind its brace. -/
def scanFields : ℕ → List Char → Option (List (String × Json) × List Char)
  | 0, _ => none
  | fuel + 1, cs =>
    if cs.head? = some '"' then
      (scanString (fuel + 1) cs.tail).bind fun (key, rest) =>
        match skipBlank rest with
        | ':' :: rest => (scanValue fuel (skipBlank rest)).bind fun (value, rest) =>
          match skipBlank rest with
          | '}' :: rest => some ([(String.ofList key, value)], rest)
          | ',' :: rest => (scanFields fuel (skipBlank rest)).map fun (fields, rest) =>
            ((String.ofList key, value) :: fields, rest)
          | _ => none
        | _ => none
    else none

end

/-- The document of a text. Each value and each field of it takes a character. -/
def loads (text : List Char) : Option Json :=
  (scanValue (2 * text.length + 1) (skipBlank text)).bind fun (document, rest) =>
    if skipBlank rest = [] then some document else none

/-! ## Blanks -/

/-- Blanks before a token are skipped. -/
theorem skipBlank_append {blank : List Char} (h : ∀ c ∈ blank, isBlank c = true) {c : Char}
    (hc : isBlank c = false) (rest : List Char) :
    skipBlank (blank ++ c :: rest) = c :: rest := by
  unfold skipBlank
  rw [List.dropWhile_append_of_pos h, List.dropWhile_cons_of_neg (by rw [hc]; decide)]

theorem skipBlank_cons {c : Char} (hc : isBlank c = false) (rest : List Char) :
    skipBlank (c :: rest) = c :: rest :=
  skipBlank_append blank_nil hc rest

/-- No number goes on here. -/
def Ends (rest : List Char) : Prop :=
  ∀ c ∈ rest.head?, c.isDigit = false ∧ c ≠ '.' ∧ c ≠ 'e' ∧ c ≠ 'E'

/-- A number ends before anything that cannot go on with it. -/
theorem ends_cons {c : Char} (hc : c.isDigit = false ∧ c ≠ '.' ∧ c ≠ 'e' ∧ c ≠ 'E')
    (rest : List Char) : Ends (c :: rest) := by
  intro d hd
  obtain rfl : c = d := Option.some.inj hd
  exact hc

/-- It ends before blanks. -/
theorem ends_append {blank : List Char} (h : ∀ c ∈ blank, isBlank c = true) {rest : List Char}
    (hr : Ends rest) : Ends (blank ++ rest) := by
  cases blank with
  | nil => exact hr
  | cons b blank =>
    have hb := h b List.mem_cons_self
    refine ends_cons ?_ _
    simp only [isBlank, Bool.or_eq_true, decide_eq_true_eq] at hb
    obtain ((rfl | rfl) | rfl) | rfl := hb <;> decide

/-! ## Strings -/

/-- Four hexadecimal digits are read back. -/
theorem readHex_hexFour {n : ℕ} (h : n < 0x10000) (rest : List Char) :
    readHex (hexFour n ++ rest) = some (n, rest) := by
  have hvalue : digitsValue 16 hexDigit (hexFour n) = some n := by
    show (hexFour n).foldlM hexStep 0 = some n
    unfold hexFour
    simp only [List.foldlM_cons, List.foldlM_nil, Option.bind_eq_bind, Option.pure_def,
      hexStep_digitChar _ (Nat.mod_lt _ (by decide : 0 < 16)), Option.bind_some]
    congr 1
    omega
  show (digitsValue 16 hexDigit (hexFour n)).map (·, rest) = _
  rw [hvalue]
  rfl

/-- A character below 0x10000 is read back from its escape. -/
theorem scanUnicode_escape {c : Char} (h : c.toNat < 0x10000) (rest : List Char) :
    scanUnicode (hexFour c.toNat ++ rest) = some (c, rest) := by
  have hvalid : c.toNat < 0xD800 ∨ 0xDFFF < c.toNat := c.valid.imp id And.left
  unfold scanUnicode
  rw [readHex_hexFour h, Option.bind_some]
  dsimp only
  rw [if_neg (by omega), if_neg (by omega), Char.ofNat_toNat]

/-- A character above is read back from its two surrogates. -/
theorem scanUnicode_pair {c : Char} (h : 0x10000 ≤ c.toNat) (rest : List Char) :
    scanUnicode (hexFour (0xD800 + (c.toNat - 0x10000) / 0x400) ++
      (unicodeEscape (0xDC00 + (c.toNat - 0x10000) % 0x400) ++ rest)) = some (c, rest) := by
  have hvalid : c.toNat < 0x110000 := by
    have := c.valid
    have heq : c.val.toNat = c.toNat := rfl
    rw [UInt32.isValidChar, Nat.isValidChar, heq] at this
    omega
  have hback : 0x10000 + (0xD800 + (c.toNat - 0x10000) / 0x400 - 0xD800) * 0x400 +
      (0xDC00 + (c.toNat - 0x10000) % 0x400 - 0xDC00) = c.toNat := by
    omega
  unfold scanUnicode
  rw [readHex_hexFour (by omega), Option.bind_some]
  dsimp only
  rw [if_pos (by omega)]
  show (readHex (hexFour (0xDC00 + (c.toNat - 0x10000) % 0x400) ++ rest)).bind _ = _
  rw [readHex_hexFour (by omega), Option.bind_some]
  dsimp only
  rw [if_pos (by omega), hback, Char.ofNat_toNat]

/-- What is written for a character is read as the character. -/
theorem scanChar_escapeChar (c : Char) (rest : List Char) :
    scanChar (escapeChar c ++ rest) = some (c, rest) := by
  have hescape : ∀ e cs, scanChar ('\\' :: e :: cs) = scanEscape (e :: cs) := fun _ _ => rfl
  have hu : ∀ cs, scanEscape ('u' :: cs) = scanUnicode cs := fun _ => rfl
  have hshort : ∀ p ∈ shortEscapes, p.2 ≠ 'u' ∧ backslash.lookup p.2 = some p.1 := by decide
  unfold escapeChar
  split
  next e he =>
    obtain ⟨hne, hback⟩ := hshort _ (mem_of_lookup he)
    rw [List.cons_append, List.cons_append, List.nil_append, hescape, scanEscape, if_neg hne]
    rw [show backslash.lookup e = some c from hback]
    rfl
  next hnone =>
    -- no short form: printable ASCII as it is, else one or two units of UTF-16
    split
    next hprint =>
      have hne : c ≠ '\\' := by
        rintro rfl
        exact absurd hnone (by decide)
      rw [List.cons_append, List.nil_append, scanChar, if_neg hne, if_neg (by omega)]
    next hprint =>
      split
      next hsmall =>
        rw [unicodeEscape, List.cons_append, List.cons_append, hescape, hu]
        exact scanUnicode_escape hsmall rest
      next hlarge =>
        rw [List.append_assoc, unicodeEscape, List.cons_append, List.cons_append, hescape, hu]
        exact scanUnicode_pair (by omega) rest

/-- An escape never starts with a quote. -/
theorem escapeChar_head (c : Char) : ∃ d ds, escapeChar c = d :: ds ∧ d ≠ '"' := by
  unfold escapeChar
  split
  next e he => exact ⟨_, _, rfl, by decide⟩
  next hnone =>
    split
    next hprint =>
      refine ⟨c, [], rfl, ?_⟩
      rintro rfl
      exact absurd hnone (by decide)
    next hprint =>
      split
      · exact ⟨_, _, rfl, by decide⟩
      · exact ⟨_, _, rfl, by decide⟩

/-- A string is read up to its closing quote. -/
theorem scanString_flatMap {cs : List Char} {fuel : ℕ}
    (h : (cs.flatMap escapeChar).length < fuel) (rest : List Char) :
    scanString fuel (cs.flatMap escapeChar ++ '"' :: rest) = some (cs, rest) := by
  induction cs generalizing fuel with
  | nil =>
    cases fuel with
    | zero => cases h
    | succ fuel => rfl
  | cons c cs ih =>
    obtain ⟨d, ds, hd, hne⟩ := escapeChar_head c
    rw [List.flatMap_cons, List.length_append] at h
    have hlen : 0 < (escapeChar c).length := by
      rw [hd]
      exact Nat.succ_pos _
    cases fuel with
    | zero => omega
    | succ fuel =>
      -- a quote that is written is escaped, so the string does not end early
      have hhead : ¬(escapeChar c ++ (cs.flatMap escapeChar ++ '"' :: rest)).head? = some '"' := by
        rw [hd]
        exact fun he => hne (Option.some.inj he)
      rw [List.flatMap_cons, List.append_assoc, scanString, if_neg hhead, scanChar_escapeChar,
        Option.bind_some]
      dsimp only
      rw [ih (by omega)]
      rfl

/-! ## Numbers -/

/-- No number but zero starts with a zero. -/
theorem toDigits_head {n : ℕ} (h : (Nat.toDigits 10 n).head? = some '0') : n = 0 := by
  induction n using Nat.strong_induction_on with
  | _ n ih =>
    by_cases hn : n < 10
    · have hall : ∀ e ∈ List.range 10, Nat.digitChar e = '0' → e = 0 := by decide
      rw [Nat.toDigits_of_lt_base hn] at h
      exact hall n (List.mem_range.mpr hn) (Option.some.inj h)
    · rw [Nat.toDigits_of_base_le (by decide) (by omega),
        List.head?_append_of_ne_nil _ Nat.toDigits_ne_nil] at h
      have := ih (n / 10) (by omega) h
      omega

/-- The digits of a number stop where it ends. -/
theorem takeWhile_digits {cs rest : List Char} (h : ∀ c ∈ cs, c.isDigit = true) (hr : Ends rest) :
    (cs ++ rest).takeWhile Char.isDigit = cs := by
  rw [List.takeWhile_append_of_pos h]
  cases rest with
  | nil => simp
  | cons c rest =>
    rw [List.takeWhile_cons_of_neg (by rw [(hr c rfl).1]; decide), List.append_nil]

theorem scanFraction_ends {rest : List Char} (h : Ends rest) : scanFraction rest = [] := by
  cases rest with
  | nil => rfl
  | cons c rest => exact if_neg fun he => (h c rfl).2.1 he.1

theorem scanExponent_ends {rest : List Char} (h : Ends rest) : scanExponent rest = [] := by
  cases rest with
  | nil => rfl
  | cons c rest => exact if_neg fun he => he.1.elim (h c rfl).2.2.1 (h c rfl).2.2.2

/-- An integer is read back. -/
theorem scanNumber_intText (n : ℤ) {rest : List Char} (h : Ends rest) :
    scanNumber (intText n ++ rest) = some (.int n, rest) := by
  have hdigits : ∀ c ∈ Nat.toDigits 10 n.natAbs, c.isDigit = true := fun c hc =>
    Nat.isDigit_of_mem_toDigits (by decide) (by decide) hc
  obtain ⟨d, ds, hd⟩ := List.exists_cons_of_ne_nil (Nat.toDigits_ne_nil (b := 10) (n := n.natAbs))
  have hsign : ((intText n ++ rest).take 1).filter (fun c => decide (c = '-')) =
      if n < 0 then ['-'] else [] := by
    unfold intText
    split
    · rfl
    · have hne : d ≠ '-' := by
        rintro rfl
        exact absurd (hdigits '-' (by rw [hd]; exact List.mem_cons_self)) (by decide)
      rw [hd]
      simp [hne]
  have hbody : (intText n ++ rest).drop (if n < 0 then ['-'] else []).length =
      Nat.toDigits 10 n.natAbs ++ rest := by
    unfold intText
    rw [List.append_assoc, List.drop_left]
  -- a leading 0 is the whole number, and then the number is 0
  have hwhole : (if (Nat.toDigits 10 n.natAbs ++ rest).head? = some '0' then ['0']
      else (Nat.toDigits 10 n.natAbs ++ rest).takeWhile Char.isDigit) =
      Nat.toDigits 10 n.natAbs := by
    rw [List.head?_append_of_ne_nil _ Nat.toDigits_ne_nil]
    split
    next hzero =>
      rw [toDigits_head hzero]
      rfl
    next => exact takeWhile_digits hdigits h
  obtain ⟨htext, hvalue⟩ := toDigits_spelled n.natAbs
  unfold scanNumber
  dsimp only
  rw [hsign, hbody, hwhole, List.drop_left, scanFraction_ends h, List.length_nil, List.drop_zero,
    scanExponent_ends h, if_pos ⟨rfl, rfl⟩, digitsValue_ten htext Nat.toDigits_ne_nil, hvalue]
  show some (Json.int _, rest) = _
  congr 3
  split
  next hneg =>
    rw [if_neg (by exact List.cons_ne_nil _ _)]
    omega
  next hneg =>
    rw [if_pos rfl]
    omega

/-! ## The round trip -/

/-- The text of a value is read back to it, wherever it stands. -/
def Reads (layout : Layout) (x : Json) : Prop :=
  ∀ depth fuel rest, Ends rest → 2 * (x.write layout depth ++ rest).length < fuel →
    scanValue fuel (x.write layout depth ++ rest) = some (x, rest)

theorem intText_head (n : ℤ) : ∃ c cs, intText n = c :: cs ∧ (c = '-' ∨ c.isDigit = true) := by
  obtain ⟨d, ds, hd⟩ := List.exists_cons_of_ne_nil (Nat.toDigits_ne_nil (b := 10) (n := n.natAbs))
  unfold intText
  rw [hd]
  split
  · exact ⟨_, _, rfl, .inl rfl⟩
  · refine ⟨_, _, rfl, .inr ?_⟩
    exact Nat.isDigit_of_mem_toDigits (by decide) (by decide) (hd ▸ List.mem_cons_self)

/-- A number is no constant. -/
theorem scanConstant_number {c : Char} (hc : c = '-' ∨ c.isDigit = true) (cs : List Char) :
    scanConstant (c :: cs) = none := by
  unfold scanConstant
  split
  next he =>
    obtain rfl := (List.cons.inj he).1
    exact absurd hc (by decide)
  next he =>
    obtain rfl := (List.cons.inj he).1
    exact absurd hc (by decide)
  next he =>
    obtain rfl := (List.cons.inj he).1
    exact absurd hc (by decide)
  next => rfl

/-- Where a value starts. -/
theorem write_head {x : Json} (h : x.plain = true) (layout : Layout) (depth : ℕ) :
    ∃ c cs, x.write layout depth = c :: cs ∧ isBlank c = false ∧ c ≠ ']' := by
  cases x with
  | null => exact ⟨_, _, rfl, by decide, by decide⟩
  | bool b => cases b <;> exact ⟨_, _, rfl, by decide, by decide⟩
  | int n =>
    obtain ⟨c, cs, hn, hc⟩ := intText_head n
    refine ⟨c, cs, hn, ?_, ?_⟩
    · rw [Bool.eq_false_iff]
      intro hb
      simp only [isBlank, Bool.or_eq_true, decide_eq_true_eq] at hb
      obtain ((rfl | rfl) | rfl) | rfl := hb <;> exact absurd hc (by decide)
    · rintro rfl
      exact absurd hc (by decide)
  | decimal d => cases h
  | str s => exact ⟨_, _, rfl, by decide, by decide⟩
  | arr items => exact ⟨_, _, rfl, by decide, by decide⟩
  | obj fields => exact ⟨_, _, rfl, by decide, by decide⟩

/-- What stands behind a value of an array. -/
theorem ends_items (layout : Layout) (depth : ℕ) (xs : List Json) (rest : List Char) :
    Ends (Json.writeItems layout depth false xs ++ rest) := by
  cases xs with
  | nil =>
    rw [Json.writeItems, if_neg (by decide), List.append_assoc]
    exact ends_append (layout.newline_blank depth) (ends_cons (by decide) rest)
  | cons x xs =>
    rw [Json.writeItems]
    exact ends_cons (by decide) _

theorem ends_fields (layout : Layout) (depth : ℕ) (fs : Fields) (rest : List Char) :
    Ends (Json.writeFields layout depth false fs ++ rest) := by
  cases fs with
  | nil =>
    rw [Json.writeFields, if_neg (by decide), List.append_assoc]
    exact ends_append (layout.newline_blank depth) (ends_cons (by decide) rest)
  | cons f fs =>
    rw [Json.writeFields]
    exact ends_cons (by decide) _

/-- White space in front of a value is skipped. -/
theorem skipBlank_write {x : Json} (h : x.plain = true) {blank : List Char}
    (hb : ∀ c ∈ blank, isBlank c = true) (layout : Layout) (depth : ℕ) (rest : List Char) :
    skipBlank (blank ++ (x.write layout depth ++ rest)) = x.write layout depth ++ rest := by
  obtain ⟨c, cs, hx, hc, -⟩ := write_head h layout depth
  rw [hx, List.cons_append, skipBlank_append hb hc]

/-- The values of an array, from one on. -/
theorem scanItems_write {layout : Layout} {depth : ℕ} {rest : List Char} {xs : List Json} {x : Json}
    {fuel : ℕ} (h : ∀ y ∈ x :: xs, y.plain = true ∧ Reads layout y)
    (hfuel : 2 * (x.write layout (depth + 1) ++
      (Json.writeItems layout depth false xs ++ rest)).length + 1 < fuel) :
    scanItems fuel (x.write layout (depth + 1) ++
      (Json.writeItems layout depth false xs ++ rest)) = some (x :: xs, rest) := by
  induction xs generalizing x fuel with
  | nil =>
    obtain ⟨hx, hread⟩ := h x List.mem_cons_self
    cases fuel with
    | zero => omega
    | succ fuel =>
      rw [scanItems, hread _ _ _ (ends_items layout depth [] rest) (by omega), Option.bind_some]
      dsimp only
      rw [Json.writeItems, if_neg (by decide), List.append_assoc, List.cons_append,
        skipBlank_append (layout.newline_blank depth) (by decide)]
      rfl
  | cons y ys ih =>
    obtain ⟨hx, hread⟩ := h x List.mem_cons_self
    obtain ⟨hy, -⟩ := h y (List.mem_cons_of_mem _ List.mem_cons_self)
    cases fuel with
    | zero => omega
    | succ fuel =>
      -- a comma follows, and another item behind it
      have htail : Json.writeItems layout depth false (y :: ys) ++ rest =
          ',' :: (layout.newline (depth + 1) ++ (y.write layout (depth + 1) ++
            (Json.writeItems layout depth false ys ++ rest))) := by
        rw [Json.writeItems, if_neg (by decide)]
        simp only [List.append_assoc, List.cons_append, List.nil_append]
      rw [scanItems, hread _ _ _ (ends_items layout depth (y :: ys) rest) (by omega),
        Option.bind_some]
      dsimp only
      rw [htail] at hfuel ⊢
      rw [skipBlank_cons (by decide)]
      show (scanItems fuel (skipBlank _)).map _ = _
      rw [skipBlank_write hy (layout.newline_blank _),
        ih fun z hz => h z (List.mem_cons_of_mem _ hz)]
      · rfl
      · simp only [List.length_append, List.length_cons] at hfuel ⊢
        omega

/-- A quoted string is read back. -/
theorem scanString_quoted (s : String) {fuel : ℕ} {rest : List Char}
    (h : (quoted s ++ rest).length ≤ fuel) :
    scanString fuel (s.toList.flatMap escapeChar ++ '"' :: rest) = some (s.toList, rest) := by
  refine scanString_flatMap ?_ rest
  simp only [quoted, List.length_append, List.length_cons, List.cons_append] at h
  omega

/-- One field of an object, and what is read behind it. -/
theorem scanFields_field {layout : Layout} {depth : ℕ} {f : String × Json} {tail : List Char}
    {fuel : ℕ} (hplain : f.2.plain = true) (hread : Reads layout f.2) (htail : Ends tail)
    (hfuel : 2 * (Json.writeField layout depth f ++ tail).length < fuel) :
    scanFields (fuel + 1) (Json.writeField layout depth f ++ tail) =
      match skipBlank tail with
      | '}' :: rest => some ([f], rest)
      | ',' :: rest => (scanFields fuel (skipBlank rest)).map fun (fields, rest) =>
        (f :: fields, rest)
      | _ => none := by
  obtain ⟨key, value⟩ := f
  have htext : Json.writeField layout depth (key, value) ++ tail = '"' ::
      (key.toList.flatMap escapeChar ++ '"' :: ':' :: (layout.gap ++
        (value.write layout depth ++ tail))) := by
    rw [Json.writeField, quoted]
    simp only [List.append_assoc, List.cons_append, List.nil_append]
  have hquoted : quoted key ++ ':' :: (layout.gap ++ (value.write layout depth ++ tail)) =
      Json.writeField layout depth (key, value) ++ tail := by
    rw [htext, quoted]
    simp only [List.append_assoc, List.cons_append, List.nil_append]
  have hvalue : (value.write layout depth ++ tail).length ≤
      (Json.writeField layout depth (key, value) ++ tail).length := by
    rw [htext]
    simp only [List.length_append, List.length_cons]
    omega
  rw [htext, scanFields, if_pos List.head?_cons, List.tail_cons,
    scanString_quoted key (by rw [hquoted]; omega), Option.bind_some]
  dsimp only
  rw [skipBlank_cons (by decide)]
  show (scanValue fuel (skipBlank _)).bind _ = _
  rw [skipBlank_write hplain layout.gap_blank, hread depth fuel tail htail (by dsimp only; omega),
    Option.bind_some, String.ofList_toList]

/-- The fields of an object, from one on. -/
theorem scanFields_write {layout : Layout} {depth : ℕ} {rest : List Char} {fs : Fields}
    {f : String × Json} {fuel : ℕ} (h : ∀ g ∈ f :: fs, g.2.plain = true ∧ Reads layout g.2)
    (hfuel : 2 * (Json.writeField layout (depth + 1) f ++
      (Json.writeFields layout depth false fs ++ rest)).length + 1 < fuel) :
    scanFields fuel (Json.writeField layout (depth + 1) f ++
      (Json.writeFields layout depth false fs ++ rest)) = some (f :: fs, rest) := by
  induction fs generalizing f fuel with
  | nil =>
    obtain ⟨hf, hread⟩ := h f List.mem_cons_self
    cases fuel with
    | zero => omega
    | succ fuel =>
      rw [scanFields_field hf hread (ends_fields layout depth [] rest) (by omega),
        Json.writeFields, if_neg (by decide), List.append_assoc, List.cons_append,
        skipBlank_append (layout.newline_blank depth) (by decide)]
      rfl
  | cons g gs ih =>
    obtain ⟨hf, hread⟩ := h f List.mem_cons_self
    cases fuel with
    | zero => omega
    | succ fuel =>
      have htail : Json.writeFields layout depth false (g :: gs) ++ rest =
          ',' :: (layout.newline (depth + 1) ++ (Json.writeField layout (depth + 1) g ++
            (Json.writeFields layout depth false gs ++ rest))) := by
        rw [Json.writeFields, if_neg (by decide)]
        simp only [List.append_assoc, List.cons_append, List.nil_append]
      -- a field starts with a quote, which is no blank
      have hstart : Json.writeField layout (depth + 1) g ++
          (Json.writeFields layout depth false gs ++ rest) = '"' ::
            (Json.writeField layout (depth + 1) g ++
              (Json.writeFields layout depth false gs ++ rest)).tail := by
        obtain ⟨key, value⟩ := g
        rw [Json.writeField]
        rfl
      rw [scanFields_field hf hread (ends_fields layout depth (g :: gs) rest) (by omega)]
      rw [htail] at hfuel ⊢
      rw [skipBlank_cons (by decide)]
      show (scanFields fuel (skipBlank _)).map _ = _
      rw [hstart, skipBlank_append (layout.newline_blank _) (by decide), ← hstart,
        ih fun z hz => h z (List.mem_cons_of_mem _ hz)]
      · rfl
      · simp only [List.length_append, List.length_cons] at hfuel ⊢
        omega

/-- Integers are read back in either layout. -/
theorem reads_int (layout : Layout) (n : ℤ) : Reads layout (.int n) := by
  intro depth fuel rest hr hfuel
  cases fuel with
  | zero => omega
  | succ fuel =>
    obtain ⟨c, cs, hn, hc⟩ := intText_head n
    have hne : c ≠ '"' ∧ c ≠ '{' ∧ c ≠ '[' := by
      refine ⟨?_, ?_, ?_⟩ <;> rintro rfl <;> exact absurd hc (by decide)
    have hnumber := scanNumber_intText n hr
    show scanValue (fuel + 1) (intText n ++ rest) = some (.int n, rest)
    rw [hn, List.cons_append] at hnumber ⊢
    rw [scanValue, if_neg hne.1, if_neg hne.2.1, if_neg hne.2.2, scanConstant_number hc, hnumber]
    rfl

theorem reads_str (layout : Layout) (s : String) : Reads layout (.str s) := by
  intro depth fuel rest _ hfuel
  cases fuel with
  | zero => omega
  | succ fuel =>
    have htext : (Json.str s).write layout depth ++ rest =
        '"' :: (s.toList.flatMap escapeChar ++ '"' :: rest) := by
      rw [Json.write, quoted]
      simp only [List.append_assoc, List.cons_append, List.nil_append]
    have hlen : (quoted s ++ rest).length ≤ fuel + 1 := by
      show ((Json.str s).write layout depth ++ rest).length ≤ fuel + 1
      omega
    rw [htext, scanValue, if_pos rfl, scanString_quoted s hlen]
    show some (Json.str (String.ofList s.toList), rest) = _
    rw [String.ofList_toList]

/-- An array is read back when its items are. -/
theorem reads_arr {layout : Layout} {items : List Json}
    (h : ∀ x ∈ items, x.plain = true ∧ Reads layout x) : Reads layout (.arr items) := by
  intro depth fuel rest _ hfuel
  cases fuel with
  | zero => omega
  | succ fuel =>
    rw [Json.write] at hfuel ⊢
    rw [List.cons_append, scanValue, if_neg (by decide), if_neg (by decide), if_pos rfl]
    cases items with
    | nil =>
      rw [Json.writeItems, if_pos rfl, List.nil_append, List.cons_append,
        skipBlank_cons (by decide)]
      rfl
    | cons x xs =>
      obtain ⟨hx, hread⟩ := h x List.mem_cons_self
      obtain ⟨c, cs, hcs, -, hne⟩ := write_head hx layout (depth + 1)
      rw [Json.writeItems, if_pos rfl, List.nil_append] at hfuel ⊢
      rw [List.append_assoc, List.append_assoc]
      rw [skipBlank_write hx (layout.newline_blank _)]
      split
      next rest' he =>
        rw [hcs] at he
        exact absurd (List.cons.inj he).1 hne
      next =>
        rw [scanItems_write h]
        · rfl
        · simp only [List.length_append, List.length_cons] at hfuel ⊢
          omega

/-- An object is read back when its values are, and its keys differ. -/
theorem reads_obj {layout : Layout} {fields : Fields} (hkeys : (fields.map Prod.fst).Nodup)
    (h : ∀ f ∈ fields, f.2.plain = true ∧ Reads layout f.2) : Reads layout (.obj fields) := by
  intro depth fuel rest _ hfuel
  cases fuel with
  | zero => omega
  | succ fuel =>
    rw [Json.write] at hfuel ⊢
    rw [List.cons_append, scanValue, if_neg (by decide), if_pos rfl]
    cases fields with
    | nil =>
      rw [Json.writeFields, if_pos rfl, List.nil_append, List.cons_append,
        skipBlank_cons (by decide)]
      rfl
    | cons f fs =>
      obtain ⟨cs, hcs⟩ : ∃ cs, Json.writeField layout (depth + 1) f ++
          (Json.writeFields layout depth false fs ++ rest) = '"' :: cs := by
        obtain ⟨key, value⟩ := f
        rw [Json.writeField]
        exact ⟨_, rfl⟩
      rw [Json.writeFields, if_pos rfl, List.nil_append] at hfuel ⊢
      rw [List.append_assoc, List.append_assoc]
      rw [hcs, skipBlank_append (layout.newline_blank _) (by decide), ← hcs]
      split
      next rest' he =>
        rw [hcs] at he
        exact absurd (List.cons.inj he).1 (by decide)
      next =>
        rw [scanFields_write h, Option.bind_some]
        · dsimp only
          rw [if_pos hkeys]
        · simp only [List.length_append, List.length_cons] at hfuel ⊢
          omega

/-- Every plain document is read back. -/
theorem reads_of_plain (layout : Layout) {x : Json} (h : x.plain = true) : Reads layout x := by
  induction x using Json.induct with
  | null =>
    intro depth fuel rest _ hfuel
    cases fuel with
    | zero => omega
    | succ fuel => rfl
  | bool b =>
    intro depth fuel rest _ hfuel
    cases fuel with
    | zero => omega
    | succ fuel => cases b <;> rfl
  | int n => exact reads_int layout n
  | decimal d => cases h
  | str s => exact reads_str layout s
  | arr items ih =>
    have hitems := plain_arr.mp h
    exact reads_arr fun x hx => ⟨hitems x hx, ih x hx (hitems x hx)⟩
  | obj fields ih =>
    obtain ⟨hkeys, hfields⟩ := plain_obj.mp h
    exact reads_obj hkeys fun f hf => ⟨hfields f hf, ih f hf (hfields f hf)⟩

/-- A written document is read back with its keys in order. -/
theorem loads_dumps {document : Json} (h : document.plain = true) :
    ∃ text, dumps document = some text ∧ loads text = some document.sorted := by
  have hsorted := plain_sorted h
  obtain ⟨c, cs, hcs, hc, -⟩ := write_head hsorted indented 0
  refine ⟨document.sorted.write indented 0 ++ ['\n'], if_pos h, ?_⟩
  have hstart : skipBlank (document.sorted.write indented 0 ++ ['\n']) =
      document.sorted.write indented 0 ++ ['\n'] := by
    rw [hcs, List.cons_append, skipBlank_cons hc]
  unfold loads
  rw [hstart, reads_of_plain indented hsorted 0 _ ['\n'] (ends_cons (by decide) [])
    (Nat.lt_succ_self _), Option.bind_some]
  exact if_pos rfl

/-- The text that is hashed does not depend on the order of the keys. -/
theorem canonicalText_sorted {value : Json} (h : value.plain = true) :
    canonicalText value.sorted = canonicalText value := by
  unfold canonicalText
  rw [if_pos h, if_pos (plain_sorted h), sorted_sorted]

end QCrate.Host
