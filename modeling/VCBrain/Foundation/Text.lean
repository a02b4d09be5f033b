import Mathlib.Data.List.Infix
import Mathlib.Data.List.DropRight
import Mathlib.Data.List.SplitBy
import Mathlib.Algebra.Order.Ring.Nat
import Mathlib.Data.Rat.Floor

set_option relaxedAutoImplicit false
set_option autoImplicit false

/-!
# Text

A Python `str` is a sequence of code points. It is modelled by the list of its characters,
so that slicing, searching and pattern matching are list operations, and string literals
are coerced to that list.

## Main definitions

* `Str` — text; `Str.strip` — `str.strip()` with the whitespace of `str.isspace`.
* `Str.words`, `Str.partition`, `Str.splitOn` — the ways to split text.
* `Str.decimal`, `Str.fixed`, `Str.hex` — numerals; `Uuid.str` — the canonical text of a UUID.

## Main results

* `Str.strip_strip` — stripping is idempotent.
* `Str.decimal_injective`, `Str.hex_injOn` — numerals determine their numbers.
* `Uuid.str_injective` — two UUIDs with the same text are equal.
-/

/-- A Python string: the sequence of its code points. -/
abbrev Str := List Char

instance : Coe String Str := ⟨String.toList⟩

instance Str.instLawfulBEq : LawfulBEq (List Char) := inferInstance

instance Str.instLawfulBEqKey : LawfulBEq (Str × Str × Str × Str) := inferInstance

namespace Str

/-- What is said of every character of a text is decided on the text. -/
instance (priority := 1100) decidableForallMem (s : Str) (p : Char → Prop) [DecidablePred p] :
    Decidable (∀ c ∈ s, p c) := List.decidableBAll p s

/-- Text is split in one way only at the first occurrence of a character. -/
lemma append_cons_inj {c : Char} {x y s t : Str} (hx : c ∉ x) (hy : c ∉ y)
    (h : x ++ c :: s = y ++ c :: t) : x = y ∧ s = t := by
  induction x generalizing y with
  | nil =>
    cases y with
    | nil => exact ⟨rfl, (List.cons.inj h).2⟩
    | cons b y =>
      obtain ⟨rfl, -⟩ := List.cons.inj h
      exact absurd (List.mem_cons_self ..) hy
  | cons a x ih =>
    cases y with
    | nil =>
      obtain ⟨rfl, -⟩ := List.cons.inj h
      exact absurd (List.mem_cons_self ..) hx
    | cons b y =>
      obtain ⟨rfl, htail⟩ := List.cons.inj h
      obtain ⟨rfl, hst⟩ := ih (List.not_mem_of_not_mem_cons hx) (List.not_mem_of_not_mem_cons hy)
        htail
      exact ⟨rfl, hst⟩

/-! ## Whitespace -/

/-- `str.isspace` for one character: the code points Python strips and splits at. -/
def isSpace (c : Char) : Bool :=
  let n := c.toNat
  (9 ≤ n && n ≤ 13) || (28 ≤ n && n ≤ 32) || n == 0x85 || n == 0xA0 || n == 0x1680 ||
    (0x2000 ≤ n && n ≤ 0x200A) || n == 0x2028 || n == 0x2029 || n == 0x202F ||
    n == 0x205F || n == 0x3000

/-- `str.lstrip()`. -/
def lstrip (s : Str) : Str := s.dropWhile isSpace

/-- `str.rstrip()`. -/
def rstrip (s : Str) : Str := s.rdropWhile isSpace

/-- `str.strip()`. -/
def strip (s : Str) : Str := rstrip (lstrip s)

/-- Text that does not begin with whitespace still does not after `rstrip`. -/
private lemma lstrip_rstrip_of_lstrip_eq {s : Str} (h : lstrip s = s) :
    lstrip (rstrip s) = rstrip s := by
  cases hr : rstrip s with
  | nil => rfl
  | cons c t =>
    have hpre : c :: t <+: s := hr ▸ List.rdropWhile_prefix isSpace s
    obtain ⟨u, rfl⟩ := hpre
    have hc : isSpace c = false := by
      by_contra hne
      simp only [Bool.not_eq_false] at hne
      have hlen := congrArg List.length h
      have hle := (List.dropWhile_suffix (l := t ++ u) isSpace).length_le
      simp only [lstrip, List.cons_append, List.dropWhile_cons, hne, if_true,
        List.length_cons] at hlen
      omega
    simp [lstrip, hc]

/-- Stripping is idempotent. -/
@[simp] lemma strip_strip (s : Str) : strip (strip s) = strip s := by
  have hl : lstrip (lstrip s) = lstrip s := List.dropWhile_idempotent isSpace s
  have hs : lstrip (strip s) = strip s := lstrip_rstrip_of_lstrip_eq hl
  show rstrip (lstrip (strip s)) = strip s
  rw [hs]
  exact List.rdropWhile_idempotent isSpace (lstrip s)

/-! ## Splitting -/

/-- `str.split()`: the words between runs of whitespace. -/
def words (s : Str) : List Str := (s.splitOnP isSpace).filter fun w => !w.isEmpty

/-- `str.partition(sep)` without the separator: the text before and after its first occurrence. -/
def partition (sep : Char) (s : Str) : Str × Str :=
  (s.takeWhile (· ≠ sep), (s.dropWhile (· ≠ sep)).tail)

private lemma decide_ne_of_notMem {sep : Char} {x : Str} (h : sep ∉ x) :
    ∀ c ∈ x, decide (c ≠ sep) = true := by
  intro c hc
  rw [decide_eq_true_eq]
  intro heq
  exact h (heq ▸ hc)

lemma partition_append_cons {sep : Char} {x : Str} (h : sep ∉ x) (y : Str) :
    partition sep (x ++ sep :: y) = (x, y) := by
  have hx := decide_ne_of_notMem h
  rw [partition, List.takeWhile_append_of_pos hx, List.dropWhile_append_of_pos hx]
  simp

lemma partition_of_notMem {sep : Char} {x : Str} (h : sep ∉ x) : partition sep x = (x, []) := by
  have hx := decide_ne_of_notMem h
  rw [partition, List.takeWhile_eq_self_iff.mpr hx, List.dropWhile_eq_nil_iff.mpr hx, List.tail_nil]

/-- Text after the separator does not change what precedes it. -/
lemma partition_fst_of_prefix {sep : Char} {x y : Str} (h : x <+: y) (hmem : sep ∈ x) :
    (partition sep y).1 = (partition sep x).1 := by
  obtain ⟨z, rfl⟩ := h
  obtain ⟨u, v, rfl, hu⟩ := List.eq_append_cons_of_mem hmem
  rw [List.append_assoc, List.cons_append, partition_append_cons hu, partition_append_cons hu]

/-- `str.rpartition(sep)[2]`: the text after the last occurrence of the separator. -/
def afterLast (sep : Char) (s : Str) : Str := s.rtakeWhile (· ≠ sep)

/-- What is after the last separator, behind a text that is empty or ends in one. -/
lemma afterLast_append {sep : Char} {front segment : Str}
    (hfront : front = [] ∨ ∃ init, front = init ++ [sep]) (hsegment : sep ∉ segment) :
    afterLast sep (front ++ segment) = segment := by
  have hall : ∀ c ∈ segment.reverse, decide (c ≠ sep) = true := by
    intro c hc
    rw [decide_eq_true_eq]
    rintro rfl
    exact hsegment (List.mem_reverse.mp hc)
  unfold afterLast List.rtakeWhile
  rw [List.reverse_append, List.takeWhile_append_of_pos hall]
  rcases hfront with rfl | ⟨init, rfl⟩
  · simp
  · simp

/-- `str.split(sep)` from a position on, with the piece read so far in reverse and the number of
characters of a separator that are still to be skipped. -/
def splitFrom (sep : Str) : ℕ → Str → Str → List Str
  | _, piece, [] => [piece.reverse]
  | skip + 1, piece, _ :: s => splitFrom sep skip piece s
  | 0, piece, c :: s =>
    if sep <+: c :: s then piece.reverse :: splitFrom sep (sep.length - 1) [] s
    else splitFrom sep 0 (c :: piece) s

/-- `str.split(sep)` at the occurrences of a non-empty separator, from the left. -/
def splitOn (sep s : Str) : List Str := splitFrom sep 0 [] s

/-- `str.split(sep)[-1]`. -/
def lastPiece (sep s : Str) : Str := (splitOn sep s).getLastD []

/-- `str.replace(old, new)` for a text that is not empty. -/
def replace (old new s : Str) : Str := List.intercalate new (splitOn old s)

/-- A text without the first character of a separator is one piece. -/
lemma splitFrom_of_notMem {c : Char} {sep piece s : Str} (h : c ∉ s) :
    splitFrom (c :: sep) 0 piece s = [piece.reverse ++ s] := by
  induction s generalizing piece with
  | nil => simp [splitFrom]
  | cons d s ih =>
    rw [List.mem_cons, not_or] at h
    have hnot : ¬ (c :: sep <+: d :: s) := fun hpre => h.1 (List.cons_prefix_cons.mp hpre).1
    rw [splitFrom, if_neg hnot, ih h.2]
    simp

/-- Nothing is replaced in a text without the first character of what would be. -/
lemma replace_of_notMem {c : Char} {old new s : Str} (h : c ∉ s) :
    replace (c :: old) new s = s := by
  rw [replace, splitOn, splitFrom_of_notMem h, List.intercalate_singleton]
  rfl

/-- `str.replace(old, new)` on single characters. -/
def replaceChar (old new : Char) (s : Str) : Str := s.map fun c => if c = old then new else c

example : lastPiece "/in/" "linkedin.com/in/in/ada/" = ("in/ada/" : Str) := by decide

/-! ## Numerals -/

/-- The decimal text of a natural number. -/
def decimal (n : ℕ) : Str := Nat.toDigits 10 n

/-- Two numbers with the same decimal text are equal. -/
lemma decimal_injective : Function.Injective decimal := by
  intro m n h
  have hread := congrArg (fun s => Nat.ofDigitChars 10 s 0) h
  simpa [decimal, Nat.ofDigitChars_toDigits] using hread

lemma isDigit_of_mem_decimal {n : ℕ} {c : Char} (h : c ∈ decimal n) : c.isDigit :=
  Nat.isDigit_of_mem_toDigits (by decide) (by decide) h

/-- The nearest integer, the even one of two. -/
def roundHalfEven (q : ℚ) : ℤ :=
  let rest := q - q.floor
  if rest < 1 / 2 ∨ (rest = 1 / 2 ∧ q.floor % 2 = 0) then q.floor else q.floor + 1

/-- `format(q, ".nf")`: the number rounded to `n` decimals. -/
def fixed (n : ℕ) (q : ℚ) : Str :=
  let scaled := (roundHalfEven (q * 10 ^ n)).natAbs
  let fraction := decimal (scaled % 10 ^ n)
  (if q < 0 then ['-'] else []) ++ decimal (scaled / 10 ^ n) ++
    if n = 0 then [] else '.' :: (List.replicate (n - fraction.length) '0' ++ fraction)

example : fixed 3 (81 / 160) = ("0.506" : Str) := by decide +kernel

/-- One lower-case hexadecimal digit. -/
def hexDigit (n : ℕ) : Char := Char.ofNat (if n < 10 then 48 + n else 87 + n)

/-- The lower-case hexadecimal text of `n` on `k` digits. -/
def hex : ℕ → ℕ → Str
  | 0, _ => []
  | k + 1, n => hex k (n / 16) ++ [hexDigit (n % 16)]

@[simp] lemma length_hex (k n : ℕ) : (hex k n).length = k := by
  induction k generalizing n with
  | zero => rfl
  | succ k ih => simp [hex, ih]

private lemma hexDigit_injOn {a b : ℕ} (ha : a < 16) (hb : b < 16)
    (h : hexDigit a = hexDigit b) : a = b := by
  have key : ∀ a < 16, ∀ b < 16, hexDigit a = hexDigit b → a = b := by decide
  exact key a ha b hb h

/-- Fixed-width hexadecimal is injective on the numbers it can hold. -/
lemma hex_injOn {k a b : ℕ} (ha : a < 16 ^ k) (hb : b < 16 ^ k) (h : hex k a = hex k b) :
    a = b := by
  induction k generalizing a b with
  | zero => simp at ha hb; omega
  | succ k ih =>
    simp only [hex, List.append_singleton_inj] at h
    rw [pow_succ] at ha hb
    have hhigh := ih (a := a / 16) (b := b / 16) (by omega) (by omega) h.1
    have hlow := hexDigit_injOn (Nat.mod_lt a (by omega)) (Nat.mod_lt b (by omega)) h.2
    omega

/-- The text consists of hexadecimal digits. -/
lemma exists_of_mem_hex {k n : ℕ} {c : Char} (h : c ∈ hex k n) : ∃ d < 16, c = hexDigit d := by
  induction k generalizing n with
  | zero => cases h
  | succ k ih =>
    rcases List.mem_append.mp h with h | h
    · exact ih h
    · exact ⟨n % 16, Nat.mod_lt n (by omega), List.mem_singleton.mp h⟩

/-- Every piece is part of the text that the pieces make up. -/
lemma infix_intercalate {sep piece : Str} {pieces : List Str} (h : piece ∈ pieces) :
    piece <:+: List.intercalate sep pieces := by
  induction pieces with
  | nil => cases h
  | cons first pieces ih =>
    cases pieces with
    | nil => rw [List.mem_singleton.mp h, List.intercalate_singleton]
    | cons second pieces =>
      rw [List.intercalate_cons_cons]
      rcases List.mem_cons.mp h with rfl | hmem
      · rw [List.append_assoc]
        exact (List.prefix_append _ _).isInfix
      · exact (ih hmem).trans (List.suffix_append _ _).isInfix

lemma mem_or_exists_of_mem_intercalate {sep : Str} {pieces : List Str} {c : Char}
    (h : c ∈ List.intercalate sep pieces) : c ∈ sep ∨ ∃ piece ∈ pieces, c ∈ piece := by
  induction pieces with
  | nil => cases h
  | cons first pieces ih =>
    cases pieces with
    | nil =>
      rw [List.intercalate_singleton] at h
      exact Or.inr ⟨first, List.mem_cons_self .., h⟩
    | cons second pieces =>
      rw [List.intercalate_cons_cons, List.append_assoc] at h
      rcases List.mem_append.mp h with h | h
      · exact Or.inr ⟨first, List.mem_cons_self .., h⟩
      · rcases List.mem_append.mp h with h | h
        · exact Or.inl h
        · rcases ih h with hsep | ⟨piece, hmem, hc⟩
          · exact Or.inl hsep
          · exact Or.inr ⟨piece, List.mem_cons_of_mem first hmem, hc⟩

/-- A character that is in no separator belongs to a piece, with what follows it there. -/
lemma exists_piece_of_intercalate {sep pre rest : Str} {pieces : List Str} {c : Char}
    (hc : c ∉ sep) (h : List.intercalate sep pieces = pre ++ c :: rest) :
    ∃ piece ∈ pieces, ∃ x y, piece = x ++ c :: y ∧ y <+: rest := by
  induction pieces generalizing pre with
  | nil => simp at h
  | cons first pieces ih =>
    cases pieces with
    | nil =>
      rw [List.intercalate_singleton] at h
      exact ⟨first, List.mem_cons_self .., pre, rest, h, List.prefix_rfl⟩
    | cons second pieces =>
      rw [List.intercalate_cons_cons, List.append_assoc] at h
      have hlater : ∀ t, List.intercalate sep (second :: pieces) = t ++ c :: rest →
          ∃ piece ∈ first :: second :: pieces, ∃ x y, piece = x ++ c :: y ∧ y <+: rest := by
        intro t hrest
        obtain ⟨piece, hpiece, x, y, hsplit, hy⟩ := ih hrest
        exact ⟨piece, List.mem_cons_of_mem first hpiece, x, y, hsplit, hy⟩
      -- the character stands in the first piece, in the separator or behind it
      rcases List.append_eq_append_iff.mp h with ⟨u, -, hu⟩ | ⟨u, hfirst, hu⟩
      · rcases List.append_eq_append_iff.mp hu with ⟨v, -, hv⟩ | ⟨v, hsep, hv⟩
        · exact hlater v hv
        · cases v with
          | nil => exact hlater [] hv.symm
          | cons d v =>
            obtain ⟨rfl, -⟩ := List.cons.inj hv
            rw [hsep] at hc
            exact absurd (List.mem_append_right u (List.mem_cons_self ..)) hc
      · cases u with
        | nil =>
          cases sep with
          | nil => exact hlater [] hu.symm
          | cons d sep =>
            obtain ⟨rfl, -⟩ := List.cons.inj hu
            exact absurd (List.mem_cons_self ..) hc
        | cons d u =>
          obtain ⟨rfl, hrest⟩ := List.cons.inj hu
          exact ⟨first, List.mem_cons_self .., pre, u, hfirst, _, hrest.symm⟩

/-- Text between separators is made up on either side of a place between two pieces. -/
lemma intercalate_append {sep : Str} {xs ys : List Str} (hx : xs ≠ []) (hy : ys ≠ []) :
    List.intercalate sep (xs ++ ys) =
      List.intercalate sep xs ++ sep ++ List.intercalate sep ys := by
  induction xs with
  | nil => exact absurd rfl hx
  | cons x xs ih =>
    cases xs with
    | nil => rw [List.singleton_append, List.intercalate_cons_of_ne_nil hy,
        List.intercalate_singleton]
    | cons x' xs =>
      rw [List.cons_append, List.intercalate_cons_of_ne_nil (by simp), ih (List.cons_ne_nil _ _),
        List.intercalate_cons_cons]
      simp

end Str

/-! ## UUIDs -/

instance Uuid.instNeZero : NeZero (2 ^ 128) := inferInstance

/-- A 128-bit identifier. -/
abbrev Uuid := Fin (2 ^ 128)

instance Uuid.instLawfulBEq : LawfulBEq Uuid := inferInstance

/-- `str(uuid)`: 32 hexadecimal digits grouped `8-4-4-4-12`. -/
def Uuid.str (u : Uuid) : Str :=
  let h := Str.hex 32 u
  h.take 8 ++ '-' :: (h.drop 8).take 4 ++ '-' :: (h.drop 12).take 4 ++
    '-' :: (h.drop 16).take 4 ++ '-' :: h.drop 20

/-- Two UUIDs with the same text are equal. -/
lemma Uuid.str_injective : Function.Injective Uuid.str := by
  intro a b h
  have hsplit : ∀ u : Uuid, Uuid.str u = (Str.hex 32 u).take 8 ++ ('-' ::
      ((Str.hex 32 u).drop 8).take 4 ++ ('-' :: ((Str.hex 32 u).drop 12).take 4 ++
      ('-' :: ((Str.hex 32 u).drop 16).take 4 ++ ('-' :: (Str.hex 32 u).drop 20)))) := by
    intro u; simp [Uuid.str]
  rw [hsplit, hsplit] at h
  obtain ⟨h1, h⟩ := List.append_inj h (by simp)
  obtain ⟨h2, h⟩ := List.append_inj h (by simp)
  obtain ⟨h3, h⟩ := List.append_inj h (by simp)
  obtain ⟨h4, h⟩ := List.append_inj h (by simp)
  simp only [List.cons.injEq, true_and] at h2 h3 h4 h
  have hjoin : ∀ u : Uuid, Str.hex 32 u = (Str.hex 32 u).take 8 ++
      (((Str.hex 32 u).drop 8).take 4 ++ (((Str.hex 32 u).drop 12).take 4 ++
      (((Str.hex 32 u).drop 16).take 4 ++ (Str.hex 32 u).drop 20))) := by
    intro u
    have hd : ∀ m : ℕ, ((Str.hex 32 u).drop m).take 4 ++ (Str.hex 32 u).drop (m + 4) =
        (Str.hex 32 u).drop m := by
      intro m; rw [← List.drop_drop, List.take_append_drop]
    rw [hd 16, hd 12, hd 8, List.take_append_drop]
  have hhex : Str.hex 32 a = Str.hex 32 b := by
    rw [hjoin a, hjoin b, h1, h2, h3, h4, h]
  exact Fin.ext (Str.hex_injOn (by simp) (by simp) hhex)

/-- The five groups of hexadecimal digits. -/
def Uuid.groups (u : Uuid) : List Str :=
  let h := Str.hex 32 u
  [h.take 8, (h.drop 8).take 4, (h.drop 12).take 4, (h.drop 16).take 4, h.drop 20]

lemma Uuid.str_eq_intercalate (u : Uuid) : Uuid.str u = List.intercalate ['-'] u.groups := by
  simp [Uuid.str, Uuid.groups]

lemma Uuid.exists_of_mem_groups {u : Uuid} {g : Str} {c : Char} (hg : g ∈ u.groups) (hc : c ∈ g) :
    ∃ d < 16, c = Str.hexDigit d := by
  have hhex : c ∈ Str.hex 32 u := by
    unfold Uuid.groups at hg
    generalize Str.hex 32 u = h at hg ⊢
    simp only [List.mem_cons, List.not_mem_nil, or_false] at hg
    rcases hg with rfl | rfl | rfl | rfl | rfl
    · exact List.mem_of_mem_take hc
    · exact List.mem_of_mem_drop (List.mem_of_mem_take hc)
    · exact List.mem_of_mem_drop (List.mem_of_mem_take hc)
    · exact List.mem_of_mem_drop (List.mem_of_mem_take hc)
    · exact List.mem_of_mem_drop hc
  exact Str.exists_of_mem_hex hhex

lemma Uuid.ne_nil_of_mem_groups {u : Uuid} {g : Str} (hg : g ∈ u.groups) : g ≠ [] := by
  have hlen : (Str.hex 32 u).length = 32 := Str.length_hex 32 u
  unfold Uuid.groups at hg
  generalize Str.hex 32 u = h at hg hlen
  have hpos : 0 < g.length := by
    simp only [List.mem_cons, List.not_mem_nil, or_false] at hg
    rcases hg with rfl | rfl | rfl | rfl | rfl <;>
      simp only [List.length_take, List.length_drop] <;> omega
  exact List.length_pos_iff.mp hpos

/-- The text of a UUID consists of dashes and hexadecimal digits. -/
lemma Uuid.eq_dash_or_of_mem_str {u : Uuid} {c : Char} (h : c ∈ Uuid.str u) :
    c = '-' ∨ ∃ d < 16, c = Str.hexDigit d := by
  rw [Uuid.str_eq_intercalate] at h
  rcases Str.mem_or_exists_of_mem_intercalate h with hdash | ⟨g, hg, hc⟩
  · exact Or.inl (List.mem_singleton.mp hdash)
  · exact Or.inr (Uuid.exists_of_mem_groups hg hc)

/-- The characters in the text of a UUID. -/
def Uuid.alphabet : Str := "-0123456789abcdef"

lemma Uuid.notMem_str {u : Uuid} {c : Char} (hc : c ∉ Uuid.alphabet) : c ∉ Uuid.str u := by
  intro hmem
  have key : ∀ d < 16, Str.hexDigit d ∈ Uuid.alphabet := by decide
  rcases Uuid.eq_dash_or_of_mem_str hmem with rfl | ⟨d, hd, rfl⟩
  · exact hc (by decide)
  · exact hc (key d hd)

/-- The groups are the pieces between the dashes. -/
lemma Uuid.splitOn_str (u : Uuid) : List.splitOn '-' (Uuid.str u) = u.groups := by
  rw [Uuid.str_eq_intercalate]
  refine List.splitOn_intercalate '-' (fun g hg hmem => ?_) (List.cons_ne_nil _ _)
  obtain ⟨d, hd, heq⟩ := Uuid.exists_of_mem_groups hg hmem
  have key : ∀ d < 16, '-' ≠ Str.hexDigit d := by decide
  exact key d hd heq
