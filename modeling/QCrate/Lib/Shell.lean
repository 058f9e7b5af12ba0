import Mathlib.Data.List.Basic

/-!
# Command lines

A list of arguments as one line of a POSIX shell, and the words that a line is split into, after
Python's `shlex`. A line is split at blanks; within single quotes every character stands for itself,
and within double quotes a backslash escapes the quote and itself.

* `Shell.quote`, `Shell.join` — the line of a list of arguments.
* `Shell.split` — the words of a line.
* `Shell.split_join` — a line is split into the arguments that it was made of.
-/

namespace QCrate.Lib.Shell

/-! ## Writing -/

/-- A character that a shell takes as it is. -/
def plain (c : Char) : Bool :=
  c.isAlphanum || c ∈ ['_', '@', '%', '+', '=', ':', ',', '.', '/', '-']

/-- A character within single quotes. -/
def quoteChar (c : Char) : List Char :=
  if c = '\'' then ['\'', '"', '\'', '"', '\''] else [c]

def quote (s : List Char) : List Char :=
  if s = [] then ['\'', '\'']
  else if s.all plain then s
  else '\'' :: s.flatMap quoteChar ++ ['\'']

def join (args : List (List Char)) : List Char :=
  [' '].intercalate (args.map quote)

/-! ## Splitting -/

/-- Where the lexer stands: between words, in a word, in quotes, or behind a backslash, after which
it goes on in a word or in the quotes it was in. -/
inductive Mode where
  | blank | word | quoted (mark : Char) | escaped (within : Option Char)
  deriving DecidableEq, Repr

def blankChar (c : Char) : Bool := c ∈ [' ', '\t', '\r', '\n']

/-- The words of the rest of a line. `token` is what is read of a word, and `marked` says that it
has had quotes; a line that ends within quotes or behind a backslash has no words. -/
def lex : Mode → (token : List Char) → (marked : Bool) → List Char → Option (List (List Char))
  | .blank, _, _, [] => some []
  | .blank, token, marked, c :: cs =>
    if blankChar c then lex .blank token marked cs
    else if c = '\\' then lex (.escaped none) token marked cs
    else if c = '\'' ∨ c = '"' then lex (.quoted c) token marked cs
    else lex .word (token ++ [c]) marked cs
  | .word, token, marked, [] => some (if token ≠ [] ∨ marked then [token] else [])
  | .word, token, marked, c :: cs =>
    if blankChar c then
      if token ≠ [] ∨ marked then (lex .blank [] false cs).map (token :: ·)
      else lex .blank token marked cs
    else if c = '\'' ∨ c = '"' then lex (.quoted c) token marked cs
    else if c = '\\' then lex (.escaped none) token marked cs
    else lex .word (token ++ [c]) marked cs
  | .quoted _, _, _, [] => none
  | .quoted mark, token, _, c :: cs =>
    if c = mark then lex .word token true cs
    else if c = '\\' ∧ mark = '"' then lex (.escaped (some mark)) token true cs
    else lex (.quoted mark) (token ++ [c]) true cs
  | .escaped _, _, _, [] => none
  | .escaped none, token, marked, c :: cs => lex .word (token ++ [c]) marked cs
  | .escaped (some mark), token, marked, c :: cs =>
    if c ≠ '\\' ∧ c ≠ mark then lex (.quoted mark) (token ++ ['\\', c]) marked cs
    else lex (.quoted mark) (token ++ [c]) marked cs

def split (line : List Char) : Option (List (List Char)) :=
  lex .blank [] false line

/-! ## Reading back what was written -/

theorem plain_ordinary {c : Char} (h : plain c = true) :
    blankChar c = false ∧ c ≠ '\\' ∧ c ≠ '\'' ∧ c ≠ '"' := by
  refine ⟨?_, ?_, ?_, ?_⟩
  · refine decide_eq_false fun hb => ?_
    rcases List.mem_cons.mp hb with rfl | hb
    · exact absurd h (by decide)
    rcases List.mem_cons.mp hb with rfl | hb
    · exact absurd h (by decide)
    rcases List.mem_cons.mp hb with rfl | hb
    · exact absurd h (by decide)
    · rw [List.mem_singleton.mp hb] at h
      exact absurd h (by decide)
  all_goals
    rintro rfl
    exact absurd h (by decide)

theorem lex_word_plain {s : List Char} (h : ∀ c ∈ s, plain c = true) (token : List Char)
    (marked : Bool) (rest : List Char) :
    lex .word token marked (s ++ rest) = lex .word (token ++ s) marked rest := by
  induction s generalizing token with
  | nil => rw [List.nil_append, List.append_nil]
  | cons c s ih =>
    obtain ⟨hblank, hslash, hsingle, hdouble⟩ := plain_ordinary (h c List.mem_cons_self)
    rw [List.cons_append, lex, if_neg (by rw [hblank]; decide),
      if_neg (not_or.mpr ⟨hsingle, hdouble⟩), if_neg hslash,
      ih (fun d hd => h d (List.mem_cons_of_mem _ hd)), List.append_assoc, List.singleton_append]

/-- Within single quotes, up to the quote that ends them. -/
theorem lex_quoteChars (s token : List Char) (marked : Bool) (rest : List Char) :
    lex (.quoted '\'') token marked (s.flatMap quoteChar ++ '\'' :: rest) =
      lex .word (token ++ s) true rest := by
  induction s generalizing token marked with
  | nil => rw [List.flatMap_nil, List.nil_append, List.append_nil, lex, if_pos rfl]
  | cons c s ih =>
    rw [List.flatMap_cons, List.append_assoc]
    by_cases hc : c = '\''
    · -- the quote ends, stands in double quotes, and begins again
      subst hc
      have hthrough : lex (.quoted '\'') token marked
          (quoteChar '\'' ++ (s.flatMap quoteChar ++ '\'' :: rest)) =
            lex (.quoted '\'') (token ++ ['\'']) true (s.flatMap quoteChar ++ '\'' :: rest) := rfl
      rw [hthrough, ih, List.append_assoc, List.singleton_append]
    · have hone : quoteChar c = [c] := if_neg hc
      rw [hone, List.singleton_append, lex, if_neg hc, if_neg (fun h => absurd h.2 (by decide)),
        ih, List.append_assoc, List.singleton_append]

/-- A quoted argument is one word, also where it is empty. -/
theorem lex_quote (s rest : List Char) :
    ∃ marked, (s ≠ [] ∨ marked = true) ∧
      lex .blank [] false (quote s ++ rest) = lex .word s marked rest := by
  unfold quote
  split
  · next hs =>
    subst hs
    exact ⟨true, .inr rfl, rfl⟩
  · next hs =>
    split
    · next hplain =>
      refine ⟨false, .inl hs, ?_⟩
      have hall := List.all_eq_true.mp hplain
      cases s with
      | nil => exact absurd rfl hs
      | cons c s =>
        obtain ⟨hblank, hslash, hsingle, hdouble⟩ := plain_ordinary (hall c List.mem_cons_self)
        rw [List.cons_append, lex, if_neg (by rw [hblank]; decide), if_neg hslash,
          if_neg (not_or.mpr ⟨hsingle, hdouble⟩), List.nil_append,
          lex_word_plain fun d hd => hall d (List.mem_cons_of_mem _ hd)]
        rfl
    · refine ⟨true, .inr rfl, ?_⟩
      have hopen : lex .blank [] false ('\'' :: s.flatMap quoteChar ++ ['\''] ++ rest) =
          lex (.quoted '\'') [] false (s.flatMap quoteChar ++ '\'' :: rest) := by
        rw [List.cons_append, List.cons_append, List.append_assoc]
        rfl
      rw [hopen, lex_quoteChars, List.nil_append]

/-- The shell passes on the arguments that the line was made of. -/
theorem split_join (args : List (List Char)) : split (join args) = some args := by
  unfold split join
  induction args with
  | nil => rfl
  | cons s args ih =>
    cases args with
    | nil =>
      obtain ⟨marked, hword, hlex⟩ := lex_quote s []
      rw [List.append_nil] at hlex
      rw [List.map_cons, List.map_nil, List.intercalate_singleton, hlex, lex, if_pos hword]
    | cons t args =>
      obtain ⟨marked, hword, hlex⟩ := lex_quote s
        (' ' :: [' '].intercalate ((t :: args).map quote))
      rw [List.map_cons, List.map_cons, List.intercalate_cons_cons, List.append_assoc,
        List.singleton_append, ← List.map_cons, hlex, lex, if_pos (by decide), if_pos hword, ih,
        Option.map_some]

end QCrate.Lib.Shell
