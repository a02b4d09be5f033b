import VCBrain.Foundation.Text

set_option relaxedAutoImplicit false
set_option autoImplicit false

/-!
# Unicode data

The character data that the string methods of the standard library read. The tables depend on
the version of the standard library, so they are a structure, with the facts about ASCII that
all versions share as fields.

## Main definitions

* `Ucd` — the character data; `Ucd.ascii` — the data restricted to ASCII.
* `Ucd.lower` — `str.lower()`, with the final form of sigma; `Ucd.casefold`.

## Main results

* `Ucd.lower_append_sep` — lower-casing works on either side of an ASCII sign that is not case
  ignorable.
-/

/-- Only letters have another lower case. -/
private lemma toLower_of_not_isAlpha {c : Char} (h : c.isAlpha = false) : c.toLower = c := by
  have hupper : ¬ (c.val ≥ 'A'.val ∧ c.val ≤ 'Z'.val) := by
    intro hc
    have hup : c.isUpper = true := decide_eq_true hc
    rw [show c.isAlpha = (c.isUpper || c.isLower) from rfl, hup, Bool.true_or] at h
    cases h
  delta Char.toLower
  rw [dif_neg hupper]

/-- The lower case of a capital letter is a letter. -/
private lemma isAlpha_toLower {c : Char} (h : c.isAlpha = true) : c.toLower.isAlpha = true := by
  by_cases hupper : c.val ≥ 'A'.val ∧ c.val ≤ 'Z'.val
  · have hval : c.toLower.val = c.val + ('a'.val - 'A'.val) := by
      delta Char.toLower
      rw [dif_pos hupper]
    have hmin : 65 ≤ c.val.toNat := hupper.1
    have hmax : c.val.toNat ≤ 90 := hupper.2
    have hshift : (c.val + ('a'.val - 'A'.val)).toNat = c.val.toNat + 32 := by
      rw [UInt32.toNat_add, show ('a'.val - 'A'.val).toNat = 32 by decide]
      omega
    delta Char.isAlpha Char.isLower
    simp only [hval, Bool.or_eq_true, Bool.and_eq_true, decide_eq_true_eq]
    refine Or.inr ⟨?_, ?_⟩
    · show 97 ≤ (c.val + ('a'.val - 'A'.val)).toNat
      omega
    · show (c.val + ('a'.val - 'A'.val)).toNat ≤ 122
      omega
  · delta Char.toLower
    rw [dif_neg hupper]
    exact h

/-- The character data behind `str.lower`, `unicodedata` and the character classes of `re`. -/
structure Ucd where
  /-- The full lower-case mapping of a character other than capital sigma. -/
  lowerChar : Char → Str
  /-- The full case folding of a character. -/
  foldChar : Char → Str
  /-- The property `Cased`. -/
  cased : Char → Bool
  /-- The property `Case_Ignorable`. -/
  caseIgnorable : Char → Bool
  /-- `unicodedata.normalize("NFKD", s)`. -/
  nfkd : Str → Str
  /-- `unicodedata.normalize("NFKC", s)`. -/
  nfkc : Str → Str
  /-- Whether `unicodedata.combining(c)` is not zero. -/
  combining : Char → Bool
  /-- `str.isalnum` for one character. -/
  isAlnum : Char → Bool
  /-- `str.isdecimal` for one character. -/
  isDecimal : Char → Bool
  lowerChar_ascii : ∀ c : Char, c.toNat < 128 → lowerChar c = [c.toLower]
  foldChar_ascii : ∀ c : Char, c.toNat < 128 → foldChar c = [c.toLower]
  cased_ascii : ∀ c : Char, c.toNat < 128 → cased c = c.isAlpha
  caseIgnorable_ascii : ∀ c : Char, c.toNat < 128 →
    caseIgnorable c = decide (c ∈ ['\'', '.', ':', '^', Char.ofNat 96])
  isAlnum_ascii : ∀ c : Char, c.toNat < 128 → isAlnum c = c.isAlphanum
  isDecimal_ascii : ∀ c : Char, c.toNat < 128 → isDecimal c = c.isDigit
  lowerChar_ne_nil : ∀ c : Char, lowerChar c ≠ []
  /-- No character but itself has an ASCII sign in its lower case. -/
  eq_of_mem_lowerChar : ∀ c d : Char, d.toNat < 128 → d.isAlpha = false → d ∈ lowerChar c → c = d
  /-- Decimal digits are alphanumeric. -/
  isAlnum_of_isDecimal : ∀ c : Char, isDecimal c = true → isAlnum c = true

namespace Ucd

/-- The data restricted to ASCII: other characters have no case and are in no class. -/
def ascii : Ucd where
  lowerChar c := [c.toLower]
  foldChar c := [c.toLower]
  cased c := c.isAlpha
  caseIgnorable c := decide (c ∈ ['\'', '.', ':', '^', Char.ofNat 96])
  nfkd s := s
  nfkc s := s
  combining _ := false
  isAlnum c := c.isAlphanum
  isDecimal c := c.isDigit
  lowerChar_ascii _ _ := rfl
  foldChar_ascii _ _ := rfl
  cased_ascii _ _ := rfl
  caseIgnorable_ascii _ _ := rfl
  isAlnum_ascii _ _ := rfl
  isDecimal_ascii _ _ := rfl
  lowerChar_ne_nil _ := List.cons_ne_nil _ _
  eq_of_mem_lowerChar c d _ hsign hmem := by
    rw [List.mem_singleton] at hmem
    cases hc : c.isAlpha with
    | true =>
      rw [hmem, isAlpha_toLower hc] at hsign
      cases hsign
    | false => rw [hmem, toLower_of_not_isAlpha hc]
  isAlnum_of_isDecimal c h := by simp [Char.isAlphanum, h]

variable (ucd : Ucd)

/-- Whether the next character that is not case ignorable is cased. -/
def casedAhead : Str → Bool
  | [] => false
  | c :: s => if ucd.caseIgnorable c then casedAhead s else ucd.cased c

/-- `str.lower()` from a position on, where `casedBehind` says whether the last character before
it that is not case ignorable is cased. Capital sigma has its final form at the end of a word. -/
def lowerFrom (casedBehind : Bool) : Str → Str
  | [] => []
  | c :: s =>
    (if c = 'Σ' then (if casedBehind && !ucd.casedAhead s then ['ς'] else ['σ'])
      else ucd.lowerChar c) ++
    lowerFrom (if ucd.caseIgnorable c then casedBehind else ucd.cased c) s

/-- `str.lower()`. -/
def lower (s : Str) : Str := ucd.lowerFrom false s

/-- `str.casefold()`. -/
def casefold (s : Str) : Str := s.flatMap ucd.foldChar

/-- An ASCII sign that is not case ignorable ends the search for a cased character. -/
private lemma casedAhead_append_sep {sep : Char} (hsep : sep.toNat < 128)
    (halpha : sep.isAlpha = false)
    (hignorable : sep ∉ ['\'', '.', ':', '^', Char.ofNat 96]) (x y : Str) :
    ucd.casedAhead (x ++ sep :: y) = ucd.casedAhead x := by
  induction x with
  | nil =>
    simp only [List.nil_append, casedAhead, ucd.caseIgnorable_ascii sep hsep,
      ucd.cased_ascii sep hsep, halpha, hignorable, decide_false]
    rfl
  | cons c x ih => simp only [List.cons_append, casedAhead, ih]

/-- **Lower-casing on both sides of a sign.** An ASCII sign that is not case ignorable is kept, and
the text before it is lower-cased as if it stood alone. -/
lemma lower_append_sep {sep : Char} (hsep : sep.toNat < 128) (halpha : sep.isAlpha = false)
    (hignorable : sep ∉ ['\'', '.', ':', '^', Char.ofNat 96]) (x y : Str) :
    ucd.lower (x ++ sep :: y) = ucd.lower x ++ sep :: ucd.lower y := by
  have hsigma : sep ≠ 'Σ' := by
    intro h
    rw [h] at hsep
    exact absurd hsep (by decide)
  have hlower : sep.toLower = sep := toLower_of_not_isAlpha halpha
  have key : ∀ b, ucd.lowerFrom b (x ++ sep :: y) =
      ucd.lowerFrom b x ++ sep :: ucd.lowerFrom false y := by
    induction x with
    | nil =>
      intro b
      simp only [List.nil_append, lowerFrom, if_neg hsigma, ucd.lowerChar_ascii sep hsep, hlower,
        ucd.caseIgnorable_ascii sep hsep, ucd.cased_ascii sep hsep, halpha, hignorable,
        decide_false]
      rfl
    | cons c x ih =>
      intro b
      simp only [List.cons_append, lowerFrom, ih,
        ucd.casedAhead_append_sep hsep halpha hignorable, List.append_assoc]
  exact key false

/-- A sign of ASCII occurs in the lower case only if it occurs in the text. -/
lemma mem_of_mem_lower {sep : Char} (hsep : sep.toNat < 128) (halpha : sep.isAlpha = false)
    {s : Str} (h : sep ∈ ucd.lower s) : sep ∈ s := by
  have key : ∀ s b, sep ∈ ucd.lowerFrom b s → sep ∈ s := by
    intro s
    induction s with
    | nil => intro b h; simp [lowerFrom] at h
    | cons c s ih =>
      intro b h
      rw [lowerFrom, List.mem_append] at h
      cases h with
      | inl h =>
        have hnotsigma : ∀ d ∈ ['ς', 'σ'], d ≠ sep := by
          intro d hd heq
          rw [heq] at hd
          simp only [List.mem_cons, List.not_mem_nil, or_false] at hd
          rcases hd with rfl | rfl
          · exact absurd hsep (by decide)
          · exact absurd hsep (by decide)
        split_ifs at h
        · exact absurd (List.mem_singleton.mp h).symm (hnotsigma 'ς' (by simp))
        · exact absurd (List.mem_singleton.mp h).symm (hnotsigma 'σ' (by simp))
        · rw [ucd.eq_of_mem_lowerChar c sep hsep halpha h]
          exact List.mem_cons_self ..
      | inr h => exact List.mem_cons_of_mem _ (ih _ h)
  exact key s false h

/-- Lower-casing loses no character altogether. -/
lemma lower_ne_nil {s : Str} (h : s ≠ []) : ucd.lower s ≠ [] := by
  cases s with
  | nil => exact absurd rfl h
  | cons c s =>
    unfold lower lowerFrom
    apply List.append_ne_nil_of_left_ne_nil
    split_ifs
    · exact List.cons_ne_nil _ _
    · exact List.cons_ne_nil _ _
    · exact ucd.lowerChar_ne_nil c

/-- A text of ASCII without capital letters is in lower case. -/
lemma lower_eq_self {s : Str} (h : ∀ c ∈ s, c.toNat < 128 ∧ c.toLower = c) : ucd.lower s = s := by
  have key : ∀ b, ucd.lowerFrom b s = s := by
    induction s with
    | nil => intro b; rfl
    | cons c s ih =>
      intro b
      obtain ⟨hascii, hlower⟩ := h c (List.mem_cons_self ..)
      have hsigma : c ≠ 'Σ' := by
        rintro rfl
        exact absurd hascii (by decide)
      rw [lowerFrom, if_neg hsigma, ucd.lowerChar_ascii c hascii, hlower,
        ih fun d hd => h d (List.mem_cons_of_mem _ hd)]
      rfl
  exact key false

/-- The text before the first sign of that kind can be cut off before or after lower-casing. -/
lemma partition_fst_lower {sep : Char} (hsep : sep.toNat < 128) (halpha : sep.isAlpha = false)
    (hignorable : sep ∉ ['\'', '.', ':', '^', Char.ofNat 96]) (s : Str) :
    ((ucd.lower s).partition sep).1 = ucd.lower (s.partition sep).1 := by
  have hnone : ∀ x : Str, sep ∉ x → sep ∉ ucd.lower x := fun x hx h =>
    hx (ucd.mem_of_mem_lower hsep halpha h)
  by_cases hmem : sep ∈ s
  · obtain ⟨x, y, rfl, hx⟩ := List.eq_append_cons_of_mem hmem
    rw [ucd.lower_append_sep hsep halpha hignorable, Str.partition_append_cons hx,
      Str.partition_append_cons (hnone x hx)]
  · rw [Str.partition_of_notMem hmem, Str.partition_of_notMem (hnone s hmem)]

end Ucd
