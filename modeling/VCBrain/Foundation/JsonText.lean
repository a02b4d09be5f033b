import Mathlib.Algebra.Order.Group.Int
import Mathlib.Data.Char
import Mathlib.Data.List.Lex
import Mathlib.Data.List.TakeWhile
import VCBrain.Foundation.Json

set_option relaxedAutoImplicit false
set_option autoImplicit false

/-!
# JSON text

`json.dumps(value, sort_keys=True)` with the default separators and ASCII escapes, and
`json.loads`. Sorting the keys is a step of its own: the text of a value keeps the order of its
fields.

A number with a fraction or an exponent is kept as its text; the printer of `float` writes a text
that is read as the same number. `loads` reads neither the non-finite constants nor lone surrogates.

## Main definitions

* `Json.text`, `Json.sortKeys` — the text of a value, and the value with sorted keys.
* `Json.loads` — the value of a text.
* `Json.wellFormed` — the numerals are numerals, and no object repeats a key.

## Main results

* `Json.loads_text` — what was written is read back.
* `Json.sortKeys_sortKeys`, `Json.wellFormed_sortKeys` — sorting the keys is idempotent and keeps
  values well formed.
-/

namespace Json

/-! ## Numbers -/

/-- The text does not go on with a character that a number could contain. -/
def EndsNumber (rest : Str) : Prop :=
  ∀ c ∈ rest.head?, c.isDigit = false ∧ c ∉ ['.', 'e', 'E', '+', '-']

/-- The digits in front of a text, and the text behind them. -/
def digits (s : Str) : Str × Str := (s.takeWhile Char.isDigit, s.dropWhile Char.isDigit)

/-- The integer part of a number: `0`, or digits that begin with another one. -/
def integerPart : Str → Str × Str
  | [] => ([], [])
  | c :: s => if c = '0' then (['0'], s) else digits (c :: s)

/-- The fraction: a dot and digits, if the digits are there. -/
def fraction : Str → Str × Str
  | [] => ([], [])
  | c :: s =>
    if c = '.' ∧ (digits s).1 ≠ [] then (c :: (digits s).1, (digits s).2) else ([], c :: s)

/-- The sign of an exponent. -/
def exponentSign : Str → Str × Str
  | [] => ([], [])
  | c :: s => if c = '+' ∨ c = '-' then ([c], s) else ([], c :: s)

/-- The exponent: the letter, an optional sign and digits, if the digits are there. -/
def exponent : Str → Str × Str
  | [] => ([], [])
  | c :: s =>
    let (sign, unsigned) := exponentSign s
    if (c = 'e' ∨ c = 'E') ∧ (digits unsigned).1 ≠ [] then
      (c :: sign ++ (digits unsigned).1, (digits unsigned).2)
    else ([], c :: s)

/-- A number without its sign: the integer part, fraction and exponent, and the text behind. -/
def unsignedNumber (s : Str) : Option ((Str × Str) × Str) :=
  let (whole, s) := integerPart s
  let (frac, s) := fraction s
  let (exp, s) := exponent s
  if whole = [] then none else some ((whole, frac ++ exp), s)

/-- A number without fraction and exponent is an `int`. -/
def numeral (negative : Bool) (whole rest : Str) : Json :=
  if rest = [] then
    if negative then .int (-(Nat.ofDigitChars 10 whole 0)) else .int (Nat.ofDigitChars 10 whole 0)
  else .float ((if negative then ['-'] else []) ++ whole ++ rest)

/-- The number in front of a text. -/
def number : Str → Option (Json × Str)
  | [] => none
  | c :: s =>
    if c = '-' then
      (unsignedNumber s).map fun r => (numeral true r.1.1 r.1.2, r.2)
    else (unsignedNumber (c :: s)).map fun r => (numeral false r.1.1 r.1.2, r.2)

section

variable {rest : Str} (hrest : EndsNumber rest)

include hrest

/-- A text in front of one that ends a number is cut where it is cut alone. -/
private lemma digits_append (s : Str) :
    digits (s ++ rest) = ((digits s).1, (digits s).2 ++ rest) := by
  induction s with
  | nil =>
    cases rest with
    | nil => rfl
    | cons c rest =>
      have hc := (hrest c rfl).1
      simp [digits, hc]
  | cons c s ih =>
    simp only [digits, Prod.mk.injEq] at ih
    by_cases hc : c.isDigit <;> simp [digits, hc, ih]

private lemma integerPart_append (s : Str) :
    integerPart (s ++ rest) = ((integerPart s).1, (integerPart s).2 ++ rest) := by
  cases s with
  | nil =>
    cases rest with
    | nil => rfl
    | cons c rest =>
      have hdigit := (hrest c rfl).1
      have hzero : c ≠ '0' := by rintro rfl; exact absurd hdigit (by decide)
      simp [integerPart, hzero, digits, hdigit]
  | cons c s =>
    rw [List.cons_append, integerPart, integerPart]
    split_ifs
    · rfl
    · rw [← List.cons_append, digits_append hrest]

private lemma fraction_append (s : Str) :
    fraction (s ++ rest) = ((fraction s).1, (fraction s).2 ++ rest) := by
  cases s with
  | nil =>
    cases rest with
    | nil => rfl
    | cons c rest =>
      have hdot : c ≠ '.' := by rintro rfl; exact (hrest '.' rfl).2 (by decide)
      simp [fraction, hdot]
  | cons c s =>
    rw [List.cons_append, fraction, fraction, digits_append hrest]
    split_ifs <;> rfl

private lemma exponentSign_append (s : Str) :
    exponentSign (s ++ rest) = ((exponentSign s).1, (exponentSign s).2 ++ rest) := by
  cases s with
  | nil =>
    cases rest with
    | nil => rfl
    | cons c rest =>
      have hsign : ¬(c = '+' ∨ c = '-') := by
        rintro (rfl | rfl)
        · exact (hrest '+' rfl).2 (by decide)
        · exact (hrest '-' rfl).2 (by decide)
      simp [exponentSign, hsign]
  | cons c s =>
    rw [List.cons_append, exponentSign, exponentSign]
    split_ifs <;> rfl

private lemma exponent_append (s : Str) :
    exponent (s ++ rest) = ((exponent s).1, (exponent s).2 ++ rest) := by
  cases s with
  | nil =>
    cases rest with
    | nil => rfl
    | cons c rest =>
      have hletter : ¬(c = 'e' ∨ c = 'E') := by
        rintro (rfl | rfl)
        · exact (hrest 'e' rfl).2 (by decide)
        · exact (hrest 'E' rfl).2 (by decide)
      simp [exponent, hletter]
  | cons c s =>
    simp only [List.cons_append, exponent, exponentSign_append hrest, digits_append hrest]
    split_ifs <;> rfl

private lemma unsignedNumber_append (s : Str) :
    unsignedNumber (s ++ rest) = (unsignedNumber s).map fun r => (r.1, r.2 ++ rest) := by
  simp only [unsignedNumber, integerPart_append hrest, fraction_append hrest,
    exponent_append hrest]
  split_ifs <;> rfl

/-- A number is read in the same way in front of a text that ends it. -/
lemma number_append {s : Str} (hs : s ≠ []) :
    number (s ++ rest) = (number s).map fun r => (r.1, r.2 ++ rest) := by
  cases s with
  | nil => exact absurd rfl hs
  | cons c s =>
    rw [List.cons_append, number, number]
    split_ifs
    · rw [unsignedNumber_append hrest, Option.map_map, Option.map_map]; rfl
    · rw [← List.cons_append, unsignedNumber_append hrest, Option.map_map, Option.map_map]; rfl

end

/-- The numeral of a positive number does not begin with a zero. -/
private lemma head?_decimal_ne {n : ℕ} (hn : n ≠ 0) : (Str.decimal n).head? ≠ some '0' := by
  induction n using Nat.strongRecOn with
  | ind n ih =>
    unfold Str.decimal at ih ⊢
    rw [Nat.toDigits_eq_if (by omega)]
    split_ifs with hsmall
    · have key : ∀ d < 10, d ≠ 0 → [Nat.digitChar d].head? ≠ some '0' := by decide
      exact key n hsmall hn
    · rw [List.head?_append_of_ne_nil _ Nat.toDigits_ne_nil]
      exact ih (n / 10) (by omega) (by omega)

private lemma digits_of_forall {s : Str} (h : ∀ c ∈ s, c.isDigit) : digits s = (s, []) :=
  Prod.ext (List.takeWhile_eq_self_iff.mpr h) (List.dropWhile_eq_nil_iff.mpr h)

private lemma integerPart_decimal (n : ℕ) : integerPart (Str.decimal n) = (Str.decimal n, []) := by
  by_cases hn : n = 0
  · subst hn; rfl
  · have hdigits : ∀ c ∈ Str.decimal n, c.isDigit := fun c => Str.isDigit_of_mem_decimal
    have hhead := head?_decimal_ne hn
    cases hd : Str.decimal n with
    | nil => rfl
    | cons c s =>
      rw [hd] at hdigits hhead
      have hc : c ≠ '0' := by rintro rfl; exact hhead rfl
      rw [integerPart, if_neg hc, digits_of_forall hdigits]

private lemma unsignedNumber_decimal (n : ℕ) :
    unsignedNumber (Str.decimal n) = some ((Str.decimal n, []), []) := by
  have hne : Str.decimal n ≠ [] := Nat.toDigits_ne_nil
  simp [unsignedNumber, integerPart_decimal, fraction, exponent, hne]

/-- The text of an `int` is read as that number. -/
lemma number_int (n : ℤ) : number (dumps (.int n)) = some (.int n, []) := by
  have hread : ∀ m : ℕ, Nat.ofDigitChars 10 (Str.decimal m) 0 = m := fun m =>
    Nat.ofDigitChars_toDigits (by decide) (by decide)
  rw [dumps]
  split_ifs with hneg
  · rw [number, if_pos rfl, unsignedNumber_decimal]
    have hvalue : -((n.natAbs : ℕ) : ℤ) = n := by omega
    simp only [Option.map_some, numeral, ↓reduceIte, hread, hvalue]
  · have hvalue : ((n.natAbs : ℕ) : ℤ) = n := by omega
    cases hd : Str.decimal n.natAbs with
    | nil => exact absurd hd Nat.toDigits_ne_nil
    | cons c s =>
      have hc : c ≠ '-' := by
        rintro rfl
        have hdigit := Str.isDigit_of_mem_decimal (n := n.natAbs) (c := '-') (by simp [hd])
        exact absurd hdigit (by decide)
      rw [number, if_neg hc, ← hd, unsignedNumber_decimal]
      simp [numeral, hread, hvalue]

/-! ## Strings -/

/-- The ASCII escape of one character inside a JSON string. -/
def escapeAscii (c : Char) : Str :=
  if c = '"' then "\\\""
  else if c = '\\' then "\\\\"
  else if c = '\n' then "\\n"
  else if c = '\r' then "\\r"
  else if c = '\t' then "\\t"
  else if c.toNat = 12 then "\\f"
  else if c.toNat = 8 then "\\b"
  else if 32 ≤ c.toNat ∧ c.toNat ≤ 126 then [c]
  else if c.toNat < 0x10000 then "\\u" ++ Str.hex 4 c.toNat
  else
    "\\u" ++ Str.hex 4 (0xd800 + (c.toNat - 0x10000) / 0x400) ++
      "\\u" ++ Str.hex 4 (0xdc00 + (c.toNat - 0x10000) % 0x400)

/-- A JSON string literal with ASCII escapes. -/
def quoteAscii (s : Str) : Str := '"' :: s.flatMap escapeAscii ++ ['"']

/-- The value of a hexadecimal digit. -/
def hexValue (c : Char) : Option ℕ :=
  if c.isDigit then some (c.toNat - 48)
  else if 'a' ≤ c ∧ c ≤ 'f' then some (c.toNat - 87)
  else if 'A' ≤ c ∧ c ≤ 'F' then some (c.toNat - 55)
  else none

/-- The number that `k` hexadecimal digits behind `acc` denote, and the text behind them. -/
def hexDigits : ℕ → ℕ → Str → Option (ℕ × Str)
  | 0, acc, s => some (acc, s)
  | _ + 1, _, [] => none
  | k + 1, acc, c :: s => (hexValue c).bind fun d => hexDigits k (16 * acc + d) s

/-- The character of a high surrogate, joined with the low one that is escaped behind it. -/
def joinSurrogates (high : ℕ) (s : Str) : Option (Char × Str) :=
  if s.take 2 = "\\u" then
    (hexDigits 4 0 (s.drop 2)).bind fun r =>
      if 0xdc00 ≤ r.1 ∧ r.1 < 0xe000 then
        some (Char.ofNat (0x10000 + 0x400 * (high - 0xd800) + (r.1 - 0xdc00)), r.2)
      else none
  else none

/-- The character of an escape, read behind the backslash, and the text behind it. -/
def unescape : Str → Option (Char × Str)
  | [] => none
  | c :: s =>
    if c = 'u' then
      (hexDigits 4 0 s).bind fun r =>
        if 0xd800 ≤ r.1 ∧ r.1 < 0xdc00 then joinSurrogates r.1 r.2
        else if 0xdc00 ≤ r.1 ∧ r.1 < 0xe000 then none
        else some (Char.ofNat r.1, r.2)
    else if c = '"' ∨ c = '\\' ∨ c = '/' then some (c, s)
    else if c = 'b' then some (Char.ofNat 8, s)
    else if c = 'f' then some (Char.ofNat 12, s)
    else if c = 'n' then some ('\n', s)
    else if c = 'r' then some ('\r', s)
    else if c = 't' then some ('\t', s)
    else none

/-- A string behind its opening quote, and the text behind the closing one. Control characters must
be escaped. -/
def string : ℕ → Str → Option (Str × Str)
  | 0, _ => none
  | _ + 1, [] => none
  | fuel + 1, c :: s =>
    if c = '"' then some ([], s)
    else if c = '\\' then
      (unescape s).bind fun (d, s) => (string fuel s).map fun r => (d :: r.1, r.2)
    else if c.toNat < 32 then none
    else (string fuel s).map fun r => (c :: r.1, r.2)

private lemma hexValue_hexDigit {d : ℕ} (hd : d < 16) : hexValue (Str.hexDigit d) = some d := by
  have key : ∀ d < 16, hexValue (Str.hexDigit d) = some d := by decide
  exact key d hd

/-- The last digit is read last. -/
private lemma hexDigits_succ (k acc : ℕ) (s : Str) :
    hexDigits (k + 1) acc s = (hexDigits k acc s).bind fun r => hexDigits 1 r.1 r.2 := by
  induction k generalizing acc s with
  | zero => rfl
  | succ k ih =>
    cases s with
    | nil => rfl
    | cons c s =>
      rw [hexDigits, hexDigits, Option.bind_assoc]
      exact congrArg _ (funext fun d => ih (16 * acc + d) s)

/-- Hexadecimal text is read back. -/
lemma hexDigits_hex (k : ℕ) {n : ℕ} (hn : n < 16 ^ k) (acc : ℕ) (rest : Str) :
    hexDigits k acc (Str.hex k n ++ rest) = some (16 ^ k * acc + n, rest) := by
  induction k generalizing n rest with
  | zero =>
    obtain rfl : n = 0 := by simpa using hn
    simp [hexDigits, Str.hex]
  | succ k ih =>
    rw [pow_succ] at hn
    rw [hexDigits_succ, Str.hex, List.append_assoc, ih (by omega)]
    have hlast := hexValue_hexDigit (Nat.mod_lt n (by omega : 16 > 0))
    have hvalue : 16 * (16 ^ k * acc + n / 16) + n % 16 = 16 ^ (k + 1) * acc + n := by
      rw [pow_succ, Nat.mul_add]
      have hmul : 16 * (16 ^ k * acc) = 16 ^ k * 16 * acc := by
        rw [← Nat.mul_assoc, Nat.mul_comm 16]
      omega
    simp only [Option.bind_some, List.singleton_append, hexDigits, hlast, hvalue]

/-- A character that is no surrogate. -/
private lemma not_surrogate (c : Char) :
    c.toNat < 0xd800 ∨ 0xe000 ≤ c.toNat ∧ c.toNat < 0x110000 := by
  rcases c.valid with h | h
  · exact Or.inl h
  · exact Or.inr ⟨h.1, h.2⟩

private lemma hexDigits_four {n : ℕ} (hn : n < 0x10000) (rest : Str) :
    hexDigits 4 0 (Str.hex 4 n ++ rest) = some (n, rest) := by
  rw [hexDigits_hex 4 hn]; simp

private lemma unescape_unicode {c : Char} (hsmall : c.toNat < 0x10000) (rest : Str) :
    unescape ('u' :: (Str.hex 4 c.toNat ++ rest)) = some (c, rest) := by
  have hvalid := not_surrogate c
  have hhigh : ¬(0xd800 ≤ c.toNat ∧ c.toNat < 0xdc00) := by omega
  have hlow : ¬(0xdc00 ≤ c.toNat ∧ c.toNat < 0xe000) := by omega
  rw [unescape, if_pos rfl, hexDigits_four hsmall, Option.bind_some, if_neg hhigh, if_neg hlow,
    Char.ofNat_toNat]

private lemma joinSurrogates_hex (high : ℕ) {low : ℕ} (hlow : 0xdc00 ≤ low ∧ low < 0xe000)
    (rest : Str) : joinSurrogates high ('\\' :: 'u' :: (Str.hex 4 low ++ rest)) =
      some (Char.ofNat (0x10000 + 0x400 * (high - 0xd800) + (low - 0xdc00)), rest) := by
  have hmark : List.take 2 ('\\' :: 'u' :: (Str.hex 4 low ++ rest)) = "\\u".toList := rfl
  rw [joinSurrogates, if_pos hmark, List.drop_succ_cons, List.drop_succ_cons, List.drop_zero,
    hexDigits_four (by omega), Option.bind_some, if_pos hlow]

private lemma unescape_surrogates {c : Char} (hlarge : 0x10000 ≤ c.toNat) (rest : Str) :
    unescape ('u' :: (Str.hex 4 (0xd800 + (c.toNat - 0x10000) / 0x400) ++
      ('\\' :: 'u' :: (Str.hex 4 (0xdc00 + (c.toNat - 0x10000) % 0x400) ++ rest)))) =
      some (c, rest) := by
  have hvalid := not_surrogate c
  set m := c.toNat - 0x10000 with hm
  have hhigh : 0xd800 ≤ 0xd800 + m / 0x400 ∧ 0xd800 + m / 0x400 < 0xdc00 := by omega
  have hlow : 0xdc00 ≤ 0xdc00 + m % 0x400 ∧ 0xdc00 + m % 0x400 < 0xe000 := by omega
  have hjoin : 0x10000 + 0x400 * (0xd800 + m / 0x400 - 0xd800) + (0xdc00 + m % 0x400 - 0xdc00) =
      c.toNat := by omega
  rw [unescape, if_pos rfl, hexDigits_four (by omega), Option.bind_some, if_pos hhigh,
    joinSurrogates_hex _ hlow, hjoin, Char.ofNat_toNat]

/-- A character stands for itself, or an escape behind a backslash is read back to it. -/
lemma escapeAscii_cases (c : Char) :
    (escapeAscii c = [c] ∧ c ≠ '"' ∧ c ≠ '\\' ∧ 32 ≤ c.toNat) ∨
      ∃ s, escapeAscii c = '\\' :: s ∧ ∀ rest, unescape (s ++ rest) = some (c, rest) := by
  generalize hescape : escapeAscii c = escape
  unfold escapeAscii at hescape
  split_ifs at hescape with hquote hbackslash hn hr ht hff hbs hplain hsmall
  · subst hquote
    exact Or.inr ⟨['"'], hescape.symm, fun _ => rfl⟩
  · subst hbackslash
    exact Or.inr ⟨['\\'], hescape.symm, fun _ => rfl⟩
  · subst hn
    exact Or.inr ⟨['n'], hescape.symm, fun _ => rfl⟩
  · subst hr
    exact Or.inr ⟨['r'], hescape.symm, fun _ => rfl⟩
  · subst ht
    exact Or.inr ⟨['t'], hescape.symm, fun _ => rfl⟩
  · obtain rfl : Char.ofNat 12 = c := by rw [← hff, Char.ofNat_toNat]
    exact Or.inr ⟨['f'], hescape.symm, fun _ => rfl⟩
  · obtain rfl : Char.ofNat 8 = c := by rw [← hbs, Char.ofNat_toNat]
    exact Or.inr ⟨['b'], hescape.symm, fun _ => rfl⟩
  · exact Or.inl ⟨hescape.symm, hquote, hbackslash, hplain.1⟩
  · exact Or.inr ⟨_, hescape.symm, unescape_unicode hsmall⟩
  · refine Or.inr ⟨'u' :: (Str.hex 4 (0xd800 + (c.toNat - 0x10000) / 0x400) ++
      '\\' :: 'u' :: Str.hex 4 (0xdc00 + (c.toNat - 0x10000) % 0x400)), ?_, fun rest => ?_⟩
    · rw [← hescape]
      simp
    · simpa using unescape_surrogates (Nat.le_of_not_lt hsmall) rest

/-- The escape of a character is read back. -/
lemma string_escapeAscii (fuel : ℕ) (c : Char) (rest : Str) :
    string (fuel + 1) (escapeAscii c ++ rest) =
      (string fuel rest).map fun r => (c :: r.1, r.2) := by
  rcases escapeAscii_cases c with ⟨hself, hquote, hbackslash, hle⟩ | ⟨s, hescape, hs⟩
  · rw [hself, List.singleton_append, string, if_neg hquote, if_neg hbackslash, if_neg (by omega)]
  · rw [hescape, List.cons_append, string, if_neg (by decide), if_pos rfl, hs, Option.bind_some]

/-- A string literal is read back. -/
lemma string_quoteAscii (s rest : Str) {fuel : ℕ} (hfuel : s.length < fuel) :
    string fuel (s.flatMap escapeAscii ++ '"' :: rest) = some (s, rest) := by
  induction s generalizing fuel with
  | nil =>
    obtain ⟨fuel, rfl⟩ := Nat.exists_eq_succ_of_ne_zero (by omega : fuel ≠ 0)
    simp [string]
  | cons c s ih =>
    obtain ⟨fuel, rfl⟩ := Nat.exists_eq_succ_of_ne_zero (by omega : fuel ≠ 0)
    rw [List.flatMap_cons, List.append_assoc, string_escapeAscii,
      ih (by simpa using Nat.lt_of_succ_lt_succ hfuel), Option.map_some]

/-! ## Values -/

mutual

/-- The text of a value; the fields of an object are written in their order. -/
def text : Json → Str
  | null => "null"
  | bool b => if b then "true" else "false"
  | int n => dumps (int n)
  | float r => r
  | str s => quoteAscii s
  | arr [] => "[]"
  | arr (v :: vs) => '[' :: text v ++ moreItemsText vs
  | obj [] => "\x7b\x7d"
  | obj ((k, v) :: fs) => '{' :: (quoteAscii k ++ ':' :: ' ' :: text v) ++ moreFieldsText fs

/-- The further items of an array, and its end. -/
def moreItemsText : List Json → Str
  | [] => [']']
  | v :: vs => ',' :: ' ' :: text v ++ moreItemsText vs

/-- The further fields of an object, and its end. -/
def moreFieldsText : List (Str × Json) → Str
  | [] => ['}']
  | (k, v) :: fs => ',' :: ' ' :: (quoteAscii k ++ ':' :: ' ' :: text v) ++ moreFieldsText fs

end

/-- A text without the whitespace in front. -/
def skipSpace (s : Str) : Str := s.dropWhile (· ∈ [' ', '\t', '\n', '\r'])

/-- The rest of a text that begins with the given characters. -/
def after (start s : Str) : Option Str :=
  if start <+: s then some (s.drop start.length) else none

/-- `dict(pairs)`: of several fields with one key the last value stands in the first place. -/
def dictOfPairs (pairs : List (Str × Json)) : List (Str × Json) :=
  pairs.foldl (fun fields p =>
    if p.1 ∈ fields.map Prod.fst then fields.map fun f => if f.1 = p.1 then p else f
    else fields ++ [p]) []

mutual

/-- The value in front of a text, and the text behind it. -/
def value : ℕ → Str → Option (Json × Str)
  | 0, _ => none
  | _ + 1, [] => none
  | fuel + 1, c :: s =>
    if c = '"' then (string s.length s).map fun r => (.str r.1, r.2)
    else if c = '{' then
      (after ['}'] (skipSpace s)).elim
        ((field fuel (skipSpace s)).bind fun f =>
          (moreFields fuel f.2).map fun fs => (.obj (dictOfPairs (f.1 :: fs.1)), fs.2))
        fun s => some (.obj [], s)
    else if c = '[' then
      (after [']'] (skipSpace s)).elim
        ((value fuel (skipSpace s)).bind fun v =>
          (moreItems fuel v.2).map fun vs => (.arr (v.1 :: vs.1), vs.2))
        fun s => some (.arr [], s)
    else if c = 'n' then (after "ull" s).map fun s => (.null, s)
    else if c = 't' then (after "rue" s).map fun s => (.bool true, s)
    else if c = 'f' then (after "alse" s).map fun s => (.bool false, s)
    else number (c :: s)

/-- The further items of an array. -/
def moreItems : ℕ → Str → Option (List Json × Str)
  | 0, _ => none
  | fuel + 1, s =>
    match skipSpace s with
    | [] => none
    | c :: s =>
      if c = ']' then some ([], s)
      else if c = ',' then
        (value fuel (skipSpace s)).bind fun v =>
          (moreItems fuel v.2).map fun vs => (v.1 :: vs.1, vs.2)
      else none

/-- A field of an object. -/
def field : ℕ → Str → Option ((Str × Json) × Str)
  | 0, _ => none
  | fuel + 1, s =>
    (after ['"'] s).bind fun s => (string s.length s).bind fun k =>
      (after [':'] (skipSpace k.2)).bind fun s =>
        (value fuel (skipSpace s)).map fun v => ((k.1, v.1), v.2)

/-- The further fields of an object. -/
def moreFields : ℕ → Str → Option (List (Str × Json) × Str)
  | 0, _ => none
  | fuel + 1, s =>
    match skipSpace s with
    | [] => none
    | c :: s =>
      if c = '}' then some ([], s)
      else if c = ',' then
        (field fuel (skipSpace s)).bind fun f =>
          (moreFields fuel f.2).map fun fs => (f.1 :: fs.1, fs.2)
      else none

end

/-- `json.loads(s)`: the whole text is one value. -/
def loads (s : Str) : Option Json :=
  (value s.length (skipSpace s)).bind fun r => if skipSpace r.2 = [] then some r.1 else none

example : loads "\x7b\"a\" : [1, -2.5e3, \"\\ud83d\\ude00\"],\n\"b\":\x7b\x7d, \"a\":null\x7d" =
    some (.obj [("a".toList, .null), ("b".toList, .obj [])]) := by decide +kernel

/-! ## Reading what was written -/

mutual

/-- Numerals are numerals, and no object repeats a key. -/
def wellFormed : Json → Bool
  | null | bool _ | int _ | str _ => true
  | float r => number r = some (float r, [])
  | arr items => wellFormedItems items
  | obj fields => decide (fields.map Prod.fst).Nodup && wellFormedFields fields

/-- The items of an array are well formed. -/
def wellFormedItems : List Json → Bool
  | [] => true
  | v :: vs => wellFormed v && wellFormedItems vs

/-- The values of an object are well formed. -/
def wellFormedFields : List (Str × Json) → Bool
  | [] => true
  | (_, v) :: fs => wellFormed v && wellFormedFields fs

end

/-- A number begins with a sign or a digit. -/
lemma head_of_number {c : Char} {s : Str} {r : Json × Str} (h : number (c :: s) = some r) :
    c = '-' ∨ c.isDigit := by
  by_contra! hc
  rw [number, if_neg hc.1] at h
  have hzero : c ≠ '0' := by rintro rfl; exact hc.2 rfl
  have hwhole : (integerPart (c :: s)).1 = [] := by
    rw [integerPart, if_neg hzero, digits, List.takeWhile_cons_of_neg hc.2]
  simp [unsignedNumber, hwhole] at h

/-- What begins a value neither is whitespace nor closes an array or an object. -/
def opens (c : Char) : Bool := c ∉ [' ', '\t', '\n', '\r', ']', '}']

private lemma opens_of_number {c : Char} {s : Str} {r : Json × Str}
    (h : number (c :: s) = some r) : opens c := by
  rcases head_of_number h with rfl | hdigit
  · decide
  · rw [opens, decide_eq_true_eq]
    intro hmem
    have key : ∀ d ∈ [' ', '\t', '\n', '\r', ']', '}'], d.isDigit = false := by simp
    rw [key c hmem] at hdigit
    exact absurd hdigit (by decide)

/-- The first character of the text of a value. -/
lemma exists_text_eq_cons : ∀ {v : Json}, v.wellFormed → ∃ c s, text v = c :: s ∧ opens c
  | null, _ => ⟨'n', _, rfl, by decide⟩
  | bool true, _ => ⟨'t', _, rfl, by decide⟩
  | bool false, _ => ⟨'f', _, rfl, by decide⟩
  | int n, _ => by
    have hread := number_int n
    rw [text]
    cases hd : dumps (int n) with
    | nil => rw [hd] at hread; cases hread
    | cons c s =>
      rw [hd] at hread
      exact ⟨c, s, rfl, opens_of_number hread⟩
  | float r, h => by
    have hread : number r = some (float r, []) := by simpa [wellFormed] using h
    cases r with
    | nil => cases hread
    | cons c s => exact ⟨c, s, rfl, opens_of_number hread⟩
  | str s, _ => ⟨'"', _, rfl, by decide⟩
  | arr [], _ => ⟨'[', _, rfl, by decide⟩
  | arr (v :: vs), _ => ⟨'[', _, rfl, by decide⟩
  | obj [], _ => ⟨'{', _, rfl, by decide⟩
  | obj ((k, v) :: fs), _ => ⟨'{', _, rfl, by decide⟩

lemma skipSpace_of_opens {c : Char} (hc : opens c) (s : Str) :
    skipSpace (c :: s) = c :: s := by
  have hspace : c ∉ [' ', '\t', '\n', '\r'] := by
    intro hmem
    have key : ∀ d ∈ [' ', '\t', '\n', '\r'], opens d = false := by simp [opens]
    rw [key c hmem] at hc
    exact absurd hc (by decide)
  exact List.dropWhile_cons_of_neg (by simpa using hspace)

lemma skipSpace_text {v : Json} (h : v.wellFormed) (rest : Str) :
    skipSpace (text v ++ rest) = text v ++ rest := by
  obtain ⟨c, s, htext, hc⟩ := exists_text_eq_cons h
  rw [htext, List.cons_append, skipSpace_of_opens hc]

private lemma skipSpace_space (s : Str) : skipSpace (' ' :: s) = skipSpace s := rfl

lemma after_cons_self (c : Char) (s : Str) : after [c] (c :: s) = some s := by
  simp [after]

lemma after_cons_of_ne {c d : Char} (h : c ≠ d) (s : Str) : after [d] (c :: s) = none := by
  rw [after, if_neg]
  rintro ⟨t, ht⟩
  exact h (List.cons.inj ht).1.symm

private lemma value_of_number {c : Char} {s : Str} {r : Json × Str} (fuel : ℕ)
    (h : number (c :: s) = some r) : value (fuel + 1) (c :: s) = some r := by
  have hother : ∀ d ∈ ['"', '{', '[', 'n', 't', 'f'], c ≠ d := by
    rintro d hd rfl
    have key : ∀ d ∈ ['"', '{', '[', 'n', 't', 'f'], ¬(d = '-' ∨ d.isDigit) := by simp
    exact key c hd (head_of_number h)
  rw [value, if_neg (hother _ (by decide)), if_neg (hother _ (by decide)),
    if_neg (hother _ (by decide)), if_neg (hother _ (by decide)), if_neg (hother _ (by decide)),
    if_neg (hother _ (by decide)), h]

private lemma value_number {s rest : Str} {v : Json} {fuel : ℕ} (hs : number s = some (v, []))
    (hfuel : s.length ≤ fuel) (hrest : EndsNumber rest) :
    value fuel (s ++ rest) = some (v, rest) := by
  cases s with
  | nil => cases hs
  | cons c s =>
    obtain ⟨fuel, rfl⟩ := Nat.exists_eq_succ_of_ne_zero (by simp at hfuel; omega : fuel ≠ 0)
    have happend := number_append hrest (List.cons_ne_nil c s)
    rw [hs, Option.map_some, List.cons_append] at happend
    exact value_of_number fuel happend

private lemma length_le_length_flatMap (s : Str) : s.length ≤ (s.flatMap escapeAscii).length := by
  induction s with
  | nil => exact Nat.le_refl 0
  | cons c s ih =>
    have hpos : 0 < (escapeAscii c).length := by
      rcases escapeAscii_cases c with ⟨hself, -⟩ | ⟨s, hescape, -⟩
      · rw [hself]
        exact Nat.one_pos
      · rw [hescape]
        exact Nat.succ_pos _
    rw [List.flatMap_cons, List.length_append, List.length_cons]
    omega

/-- A string literal behind its opening quote. -/
lemma string_literal (s rest : Str) :
    string (s.flatMap escapeAscii ++ '"' :: rest).length (s.flatMap escapeAscii ++ '"' :: rest) =
      some (s, rest) := by
  refine string_quoteAscii s rest ?_
  have hle := length_le_length_flatMap s
  rw [List.length_append, List.length_cons]
  omega

private lemma endsNumber_moreItemsText (vs : List Json) (rest : Str) :
    EndsNumber (moreItemsText vs ++ rest) := by
  cases vs <;> rintro c ⟨⟩ <;> decide

private lemma endsNumber_moreFieldsText (fs : List (Str × Json)) (rest : Str) :
    EndsNumber (moreFieldsText fs ++ rest) := by
  cases fs <;> rintro c ⟨⟩ <;> decide

/-- A dictionary is made of fields with distinct keys as they are. -/
lemma dictOfPairs_of_nodup {fields : List (Str × Json)} (h : (fields.map Prod.fst).Nodup) :
    dictOfPairs fields = fields := by
  unfold dictOfPairs
  have key : ∀ done : List (Str × Json), ((done ++ fields).map Prod.fst).Nodup →
      fields.foldl (fun fields p =>
        if p.1 ∈ fields.map Prod.fst then fields.map fun f => if f.1 = p.1 then p else f
        else fields ++ [p]) done = done ++ fields := by
    clear h
    induction fields with
    | nil => intro done _; simp
    | cons p fields ih =>
      intro done hnodup
      have hnew : p.1 ∉ done.map Prod.fst := by
        rw [List.map_append, List.map_cons] at hnodup
        intro hmem
        exact (List.nodup_append.mp hnodup).2.2 p.1 hmem p.1 (List.mem_cons_self ..) rfl
      rw [List.foldl_cons, if_neg hnew, ih (done ++ [p]) (by simpa using hnodup)]
      simp
  simpa using key [] (by simpa using h)

/-- A field is read back, if its value is. -/
private lemma field_text {k : Str} {v : Json} {fuel : ℕ} {rest : Str} (h : v.wellFormed)
    (hvalue : value fuel (text v ++ rest) = some (v, rest)) :
    field (fuel + 1) (quoteAscii k ++ ':' :: ' ' :: (text v ++ rest)) = some ((k, v), rest) := by
  have hquote : quoteAscii k ++ ':' :: ' ' :: (text v ++ rest) =
      '"' :: (k.flatMap escapeAscii ++ '"' :: (':' :: ' ' :: (text v ++ rest))) := by
    simp [quoteAscii]
  have hcolon : skipSpace (':' :: ' ' :: (text v ++ rest)) = ':' :: ' ' :: (text v ++ rest) :=
    skipSpace_of_opens (by decide) _
  rw [hquote, field, after_cons_self, Option.bind_some, string_literal, Option.bind_some, hcolon,
    after_cons_self, Option.bind_some, skipSpace_space, skipSpace_text h, hvalue, Option.map_some]

mutual

/-- **A value is read back** in front of every text that does not go on with its last number.

**Proof sketch.** By recursion on the value, together with the items and the fields that follow.
Every call of the reader consumes a character, so that the length of the text is fuel enough. -/
theorem value_text : ∀ {v : Json} {fuel : ℕ} {rest : Str}, v.wellFormed →
    (text v).length ≤ fuel → EndsNumber rest → value fuel (text v ++ rest) = some (v, rest)
  | null, fuel + 1, rest, _, _, _ => by simp [text, value, after]
  | bool true, fuel + 1, rest, _, _, _ => by simp [text, value, after]
  | bool false, fuel + 1, rest, _, _, _ => by simp [text, value, after]
  | int n, fuel, rest, _, hfuel, hrest => by
    rw [text] at hfuel ⊢
    exact value_number (number_int n) hfuel hrest
  | float r, fuel, rest, h, hfuel, hrest => by
    have hread : number r = some (float r, []) := by simpa [wellFormed] using h
    rw [text] at hfuel ⊢
    exact value_number hread hfuel hrest
  | str s, fuel + 1, rest, _, _, _ => by
    have hquote : text (str s) ++ rest = '"' :: (s.flatMap escapeAscii ++ '"' :: rest) := by
      simp [text, quoteAscii]
    rw [hquote, value, if_pos rfl, string_literal, Option.map_some]
  | arr [], fuel + 1, rest, _, _, _ => by
    simp [text, value, skipSpace, after]
  | arr (v :: vs), fuel + 1, rest, h, hfuel, hrest => by
    simp only [wellFormed, wellFormedItems, Bool.and_eq_true] at h
    simp only [text, List.cons_append, List.length_cons, List.length_append] at hfuel
    have hlen : (text v).length ≤ fuel := by omega
    have hlens : (moreItemsText vs).length ≤ fuel := by omega
    have hv := value_text h.1 hlen (endsNumber_moreItemsText vs rest)
    have hvs : moreItems fuel (moreItemsText vs ++ rest) = some (vs, rest) :=
      moreItems_text h.2 hlens
    obtain ⟨c, s, htext, hc⟩ := exists_text_eq_cons h.1
    have hopen : after [']'] (text v ++ (moreItemsText vs ++ rest)) = none := by
      rw [htext, List.cons_append]
      exact after_cons_of_ne (by rintro rfl; exact absurd hc (by decide)) _
    rw [text, List.cons_append, List.cons_append, List.append_assoc, value, if_neg (by decide),
      if_neg (by decide), if_pos rfl, skipSpace_text h.1, hopen, Option.elim_none, hv,
      Option.bind_some, hvs, Option.map_some]
  | obj [], fuel + 1, rest, _, _, _ => by
    simp [text, value, skipSpace, after]
  | obj ((k, v) :: fs), fuel + 2, rest, h, hfuel, hrest => by
    simp only [wellFormed, wellFormedFields, Bool.and_eq_true, decide_eq_true_eq] at h
    simp only [text, List.cons_append, List.length_cons, List.length_append] at hfuel
    have hlen : (text v).length ≤ fuel := by omega
    have hlens : (moreFieldsText fs).length ≤ fuel + 1 := by omega
    have hv := value_text h.2.1 hlen (endsNumber_moreFieldsText fs rest)
    have hfs : moreFields (fuel + 1) (moreFieldsText fs ++ rest) = some (fs, rest) :=
      moreFields_text h.2.2 hlens
    have hfield := field_text (k := k) h.2.1 hv
    have hspace : skipSpace (quoteAscii k ++
        ':' :: ' ' :: (text v ++ (moreFieldsText fs ++ rest))) =
        quoteAscii k ++ ':' :: ' ' :: (text v ++ (moreFieldsText fs ++ rest)) :=
      skipSpace_of_opens (by decide) _
    have hopen : after ['}'] (quoteAscii k ++
        ':' :: ' ' :: (text v ++ (moreFieldsText fs ++ rest))) = none :=
      after_cons_of_ne (by decide) _
    have htext : text (obj ((k, v) :: fs)) ++ rest = '{' :: (quoteAscii k ++
        ':' :: ' ' :: (text v ++ (moreFieldsText fs ++ rest))) := by
      simp [text]
    rw [htext, value, if_neg (by decide), if_pos rfl, hspace, hopen, Option.elim_none, hfield,
      Option.bind_some, hfs, Option.map_some, dictOfPairs_of_nodup h.1]

/-- The further items of an array are read back. -/
theorem moreItems_text : ∀ {vs : List Json} {fuel : ℕ} {rest : Str}, wellFormedItems vs →
    (moreItemsText vs).length ≤ fuel →
    moreItems fuel (moreItemsText vs ++ rest) = some (vs, rest)
  | [], fuel + 1, rest, _, _ => rfl
  | v :: vs, fuel + 1, rest, h, hfuel => by
    simp only [wellFormedItems, Bool.and_eq_true] at h
    simp only [moreItemsText, List.cons_append, List.length_cons, List.length_append] at hfuel
    have hlen : (text v).length ≤ fuel := by omega
    have hlens : (moreItemsText vs).length ≤ fuel := by omega
    have hv := value_text h.1 hlen (endsNumber_moreItemsText vs rest)
    have hvs : moreItems fuel (moreItemsText vs ++ rest) = some (vs, rest) :=
      moreItems_text h.2 hlens
    have htext : moreItemsText (v :: vs) ++ rest =
        ',' :: ' ' :: (text v ++ (moreItemsText vs ++ rest)) := by
      simp [moreItemsText]
    have hcomma := skipSpace_of_opens (c := ',') (by decide) (' ' :: (text v ++
      (moreItemsText vs ++ rest)))
    rw [htext, moreItems, hcomma]
    simp only [Char.reduceEq, ↓reduceIte]
    rw [skipSpace_space, skipSpace_text h.1, hv, Option.bind_some, hvs, Option.map_some]

/-- The further fields of an object are read back. -/
theorem moreFields_text : ∀ {fs : List (Str × Json)} {fuel : ℕ} {rest : Str}, wellFormedFields fs →
    (moreFieldsText fs).length ≤ fuel →
    moreFields fuel (moreFieldsText fs ++ rest) = some (fs, rest)
  | [], fuel + 1, rest, _, _ => rfl
  | (k, v) :: fs, fuel + 2, rest, h, hfuel => by
    simp only [wellFormedFields, Bool.and_eq_true] at h
    simp only [moreFieldsText, List.cons_append, List.length_cons, List.length_append] at hfuel
    have hlen : (text v).length ≤ fuel := by omega
    have hlens : (moreFieldsText fs).length ≤ fuel + 1 := by omega
    have hv := value_text h.1 hlen (endsNumber_moreFieldsText fs rest)
    have hfs : moreFields (fuel + 1) (moreFieldsText fs ++ rest) = some (fs, rest) :=
      moreFields_text h.2 hlens
    have hfield := field_text (k := k) h.1 hv
    have htext : moreFieldsText ((k, v) :: fs) ++ rest = ',' :: ' ' :: (quoteAscii k ++
        ':' :: ' ' :: (text v ++ (moreFieldsText fs ++ rest))) := by
      simp [moreFieldsText]
    have hcomma := skipSpace_of_opens (c := ',') (by decide) (' ' :: (quoteAscii k ++
        ':' :: ' ' :: (text v ++ (moreFieldsText fs ++ rest))))
    have hspace : skipSpace (quoteAscii k ++
        ':' :: ' ' :: (text v ++ (moreFieldsText fs ++ rest))) =
        quoteAscii k ++ ':' :: ' ' :: (text v ++ (moreFieldsText fs ++ rest)) :=
      skipSpace_of_opens (by decide) _
    rw [htext, moreFields, hcomma]
    simp only [Char.reduceEq, ↓reduceIte]
    rw [skipSpace_space, hspace, hfield, Option.bind_some, hfs, Option.map_some]

end

/-- **`json.loads` reads what `json.dumps` writes.** -/
theorem loads_text {v : Json} (h : v.wellFormed) : loads (text v) = some v := by
  have hspace : skipSpace (text v) = text v := by simpa using skipSpace_text h []
  have hends : EndsNumber [] := by rintro c ⟨⟩
  have hread := value_text h (Nat.le_refl (text v).length) hends
  rw [List.append_nil] at hread
  have hend : skipSpace ((v, []) : Json × Str).2 = [] := rfl
  rw [loads, hspace, hread, Option.bind_some, if_pos hend]

/-! ## Sorted keys -/

mutual

/-- The value with the fields of every object by increasing key. -/
def sortKeys : Json → Json
  | arr items => arr (sortKeysItems items)
  | obj fields => obj ((sortKeysFields fields).insertionSort fun f g => f.1 ≤ g.1)
  | v => v

/-- The items of an array with sorted keys. -/
def sortKeysItems : List Json → List Json
  | [] => []
  | v :: vs => sortKeys v :: sortKeysItems vs

/-- The fields of an object, their values with sorted keys. -/
def sortKeysFields : List (Str × Json) → List (Str × Json)
  | [] => []
  | (k, v) :: fs => (k, sortKeys v) :: sortKeysFields fs

end

private lemma map_fst_sortKeysFields (fields : List (Str × Json)) :
    (sortKeysFields fields).map Prod.fst = fields.map Prod.fst := by
  induction fields with
  | nil => rfl
  | cons f fields ih => exact congrArg (f.1 :: ·) ih

private lemma sortKeysFields_eq_map (fields : List (Str × Json)) :
    sortKeysFields fields = fields.map fun f => (f.1, sortKeys f.2) := by
  induction fields with
  | nil => rfl
  | cons f fields ih => exact congrArg ((f.1, sortKeys f.2) :: ·) ih

private lemma sortKeysFields_insertionSort (fields : List (Str × Json)) :
    sortKeysFields (fields.insertionSort fun f g => f.1 ≤ g.1) =
      (sortKeysFields fields).insertionSort fun f g => f.1 ≤ g.1 := by
  rw [sortKeysFields_eq_map, sortKeysFields_eq_map]
  exact List.map_insertionSort _ _ _ _ (by simp)

private lemma insertionSort_insertionSort (fields : List (Str × Json)) :
    (fields.insertionSort fun f g => f.1 ≤ g.1).insertionSort (fun f g => f.1 ≤ g.1) =
      fields.insertionSort fun f g => f.1 ≤ g.1 := by
  have htotal : Std.Total fun f g : Str × Json => f.1 ≤ g.1 := ⟨fun f g => le_total f.1 g.1⟩
  have htrans : IsTrans (Str × Json) fun f g => f.1 ≤ g.1 := ⟨fun _ _ _ => le_trans⟩
  exact (List.pairwise_insertionSort _ fields).insertionSort_eq

mutual

/-- Sorting the keys is idempotent. -/
theorem sortKeys_sortKeys : ∀ v : Json, sortKeys (sortKeys v) = sortKeys v
  | null | bool _ | int _ | float _ | str _ => rfl
  | arr items => congrArg arr (sortKeysItems_sortKeysItems items)
  | obj fields => by
    have hfields := sortKeysFields_sortKeysFields fields
    rw [sortKeys, sortKeys, sortKeysFields_insertionSort, hfields, insertionSort_insertionSort]

private theorem sortKeysItems_sortKeysItems : ∀ vs : List Json,
    sortKeysItems (sortKeysItems vs) = sortKeysItems vs
  | [] => rfl
  | v :: vs => congrArg₂ List.cons (sortKeys_sortKeys v) (sortKeysItems_sortKeysItems vs)

private theorem sortKeysFields_sortKeysFields : ∀ fs : List (Str × Json),
    sortKeysFields (sortKeysFields fs) = sortKeysFields fs
  | [] => rfl
  | (k, v) :: fs =>
    congrArg₂ List.cons (congrArg (Prod.mk k) (sortKeys_sortKeys v))
      (sortKeysFields_sortKeysFields fs)

end

private lemma wellFormedFields_iff {fields : List (Str × Json)} :
    wellFormedFields fields ↔ ∀ f ∈ fields, wellFormed f.2 := by
  induction fields with
  | nil => simp [wellFormedFields]
  | cons f fields ih => simp [wellFormedFields, ih]

private lemma wellFormed_sorted {fields : List (Str × Json)}
    (hnodup : (fields.map Prod.fst).Nodup) (h : wellFormedFields fields) :
    wellFormed (obj (fields.insertionSort fun f g => f.1 ≤ g.1)) := by
  have hperm := List.perm_insertionSort (fun f g : Str × Json => f.1 ≤ g.1) fields
  simp only [wellFormed, Bool.and_eq_true, decide_eq_true_eq]
  refine ⟨((hperm.map Prod.fst).nodup_iff).mpr hnodup, ?_⟩
  exact wellFormedFields_iff.mpr fun f hf => wellFormedFields_iff.mp h f (hperm.mem_iff.mp hf)

mutual

/-- A value stays well formed with its keys sorted. -/
theorem wellFormed_sortKeys : ∀ {v : Json}, v.wellFormed → (sortKeys v).wellFormed
  | null, h | bool _, h | int _, h | float _, h | str _, h => h
  | arr items, h => by
    rw [wellFormed] at h
    rw [sortKeys, wellFormed]
    exact wellFormedItems_sortKeysItems h
  | obj fields, h => by
    simp only [wellFormed, Bool.and_eq_true, decide_eq_true_eq] at h
    rw [sortKeys]
    refine wellFormed_sorted ?_ (wellFormedFields_sortKeysFields h.2)
    rw [map_fst_sortKeysFields]
    exact h.1

private theorem wellFormedItems_sortKeysItems : ∀ {vs : List Json}, wellFormedItems vs →
    wellFormedItems (sortKeysItems vs)
  | [], h => h
  | v :: vs, h => by
    simp only [wellFormedItems, Bool.and_eq_true] at h
    simp only [sortKeysItems, wellFormedItems, Bool.and_eq_true]
    exact ⟨wellFormed_sortKeys h.1, wellFormedItems_sortKeysItems h.2⟩

private theorem wellFormedFields_sortKeysFields : ∀ {fs : List (Str × Json)}, wellFormedFields fs →
    wellFormedFields (sortKeysFields fs)
  | [], h => h
  | (k, v) :: fs, h => by
    simp only [wellFormedFields, Bool.and_eq_true] at h
    simp only [sortKeysFields, wellFormedFields, Bool.and_eq_true]
    exact ⟨wellFormed_sortKeys h.1, wellFormedFields_sortKeysFields h.2⟩

end

/-- What is found under a key among distinct keys. -/
private lemma find?_eq_some_iff_of_nodup {fields : List (Str × Json)}
    (h : (fields.map Prod.fst).Nodup) {key : Str} {f : Str × Json} :
    fields.find? (fun g => g.1 = key) = some f ↔ f ∈ fields ∧ f.1 = key := by
  constructor
  · intro hfound
    have hkey := List.find?_some hfound
    exact ⟨List.mem_of_find?_eq_some hfound, of_decide_eq_true hkey⟩
  · rintro ⟨hf, rfl⟩
    cases hfound : fields.find? fun g => g.1 = f.1 with
    | none => exact absurd (decide_eq_true rfl) (List.find?_eq_none.mp hfound f hf)
    | some g =>
      have hkey := List.find?_some hfound
      rw [List.inj_on_of_nodup_map h (List.mem_of_find?_eq_some hfound) hf (of_decide_eq_true hkey)]

/-- A field is found in an object with sorted keys as well. -/
theorem get?_sortKeys {v : Json} (h : v.wellFormed) (key : Str) :
    v.sortKeys.get? key = (v.get? key).map sortKeys := by
  cases v with
  | obj fields =>
    rw [wellFormed, Bool.and_eq_true, decide_eq_true_eq] at h
    have hperm := List.perm_insertionSort (fun f g : Str × Json => f.1 ≤ g.1)
      (sortKeysFields fields)
    have hnodup : (((sortKeysFields fields).insertionSort fun f g => f.1 ≤ g.1).map
        Prod.fst).Nodup := by
      rw [(hperm.map Prod.fst).nodup_iff, map_fst_sortKeysFields]
      exact h.1
    have hfound : ((sortKeysFields fields).insertionSort fun f g => f.1 ≤ g.1).find?
        (fun g => g.1 = key) =
          (fields.find? fun g => g.1 = key).map fun f => (f.1, sortKeys f.2) := by
      refine Option.ext fun f => ?_
      rw [find?_eq_some_iff_of_nodup hnodup, hperm.mem_iff, sortKeysFields_eq_map, List.mem_map,
        Option.map_eq_some_iff]
      simp only [find?_eq_some_iff_of_nodup h.1]
      constructor
      · rintro ⟨⟨g, hg, rfl⟩, hkey⟩
        exact ⟨g, ⟨hg, hkey⟩, rfl⟩
      · rintro ⟨g, ⟨hg, hkey⟩, rfl⟩
        exact ⟨⟨g, hg, rfl⟩, hkey⟩
    rw [sortKeys, get?, get?, hfound, Option.map_map, Option.map_map]
    rfl
  | _ => rfl

end Json
