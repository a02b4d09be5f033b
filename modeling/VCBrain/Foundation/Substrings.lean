import VCBrain.Foundation.Unicode

set_option relaxedAutoImplicit false
set_option autoImplicit false

/-!
# Substrings

Counting the occurrences of a word in a text, from left to right and without overlap, as `str.count`
does, and the occurrences of a word in a text that is put together of others.

## Main definitions

* `Str.count` — the number of occurrences.
* `Str.StandsAcross` — an occurrence at a separator, begun before it and ended behind it.

## Main results

* `Str.count_eq_zero_iff` — there is no occurrence exactly if the text does not contain the word.
* `Str.count_append_sep` — the occurrences on both sides of a separator that none stands across.
* `Str.infix_intercalate_iff` — a word occurs in joined texts exactly if it occurs in one of them.
* `Str.infix_flatMap_iff` — a word occurs in escaped text exactly if it occurs in the text.
-/

namespace Str

/-- The occurrences of a word from a position on, after as many characters of the occurrence
before. -/
def countFrom (word : Str) : ℕ → Str → ℕ
  | _, [] => 0
  | rest + 1, _ :: s => countFrom word rest s
  | 0, c :: s =>
    if word <+: c :: s then countFrom word (word.length - 1) s + 1 else countFrom word 0 s

/-- `str.count(word)`. -/
def count (word s : Str) : ℕ := if word = [] then s.length + 1 else countFrom word 0 s

/-- A text that does not contain a word has no occurrence of it, and conversely. -/
lemma count_eq_zero_iff {word s : Str} (hword : word ≠ []) : count word s = 0 ↔ ¬ word <:+: s := by
  unfold count
  rw [if_neg hword]
  induction s with
  | nil => simp [countFrom, hword]
  | cons c s ih =>
    rw [countFrom, List.infix_cons_iff]
    by_cases hstart : word <+: c :: s
    · simp [hstart]
    · rw [if_neg hstart, ih]
      simp [hstart]

/-- A text that contains a word has an occurrence of it. -/
lemma count_pos {word s : Str} (hword : word ≠ []) (h : word <:+: s) : 0 < count word s :=
  Nat.pos_of_ne_zero fun hzero => (count_eq_zero_iff hword).mp hzero h

/-- A word stands across a separator between two texts. -/
def StandsAcross (word : Str) (sep : Char) (x y : Str) : Prop :=
  ∃ u v, word = u ++ sep :: v ∧ u <:+ x ∧ v <+: y

/-- A word that does not stand across a separator is at the start of a text exactly if it is at the
start of what comes before the separator. -/
lemma prefix_append_sep_iff {word x y : Str} {sep : Char} (h : ¬ StandsAcross word sep x y) :
    word <+: x ++ sep :: y ↔ word <+: x := by
  constructor
  · intro hword
    rcases List.prefix_or_prefix_of_prefix hword (List.prefix_append x (sep :: y)) with
      hshort | ⟨t, rfl⟩
    · exact hshort
    · rw [List.prefix_append_right_inj] at hword
      cases t with
      | nil => simp
      | cons c t =>
        obtain ⟨rfl, hrest⟩ := List.cons_prefix_cons.mp hword
        exact absurd ⟨x, t, rfl, List.suffix_rfl, hrest⟩ h
  · exact fun hword => hword.trans (List.prefix_append _ _)

/-- **Separators.** The occurrences of a word that does not stand across a separator are those on
both sides of it.

**Proof sketch.** Induction on the text before the separator. An occurrence that begins there ends
there, so none is under way at the separator. -/
lemma count_append_sep {word x y : Str} {sep : Char} (hword : word ≠ [])
    (h : ¬ StandsAcross word sep x y) :
    count word (x ++ sep :: y) = count word x + count word y := by
  have key : ∀ x rest, ¬ StandsAcross word sep x y → rest ≤ x.length →
      countFrom word rest (x ++ sep :: y) = countFrom word rest x + countFrom word 0 y := by
    intro x
    induction x with
    | nil =>
      intro rest hacross hrest
      obtain rfl : rest = 0 := by simpa using hrest
      have hstart : ¬ word <+: sep :: y := fun hprefix =>
        hword (List.prefix_nil.mp ((prefix_append_sep_iff hacross).mp hprefix))
      simp [countFrom, hstart]
    | cons c x ih =>
      intro rest hacross hrest
      have hlater : ¬ StandsAcross word sep x y := by
        rintro ⟨u, v, hsplit, hu, hv⟩
        exact hacross ⟨u, v, hsplit, hu.trans (List.suffix_cons c x), hv⟩
      rw [List.cons_append]
      cases rest with
      | succ rest =>
        rw [countFrom, countFrom]
        exact ih rest hlater (by simpa using hrest)
      | zero =>
        have hstart : word <+: c :: (x ++ sep :: y) ↔ word <+: c :: x :=
          prefix_append_sep_iff hacross
        rw [countFrom, countFrom]
        by_cases hbegins : word <+: c :: x
        · have hlength : word.length - 1 ≤ x.length := by
            have hle := hbegins.length_le
            rw [List.length_cons] at hle
            omega
          rw [if_pos (hstart.mpr hbegins), if_pos hbegins, ih _ hlater hlength]
          omega
        · rw [if_neg fun hprefix => hbegins (hstart.mp hprefix), if_neg hbegins,
            ih 0 hlater (Nat.zero_le _)]
  unfold count
  rw [if_neg hword, if_neg hword, if_neg hword]
  exact key x 0 h (Nat.zero_le _)

/-! ## Texts that are put together -/

lemma not_standsAcross {word x y : Str} {sep : Char} (h : sep ∉ word) :
    ¬ StandsAcross word sep x y := by
  rintro ⟨u, v, rfl, -, -⟩
  exact h (List.mem_append_right u (List.mem_cons_self ..))

/-- A word does not begin in a text without its first character. -/
lemma infix_append_iff_of_head {c : Char} {w r t : Str} (h : c ∉ r) :
    c :: w <:+: r ++ t ↔ c :: w <:+: t := by
  induction r with
  | nil => rfl
  | cons d r ih =>
    rw [List.mem_cons, not_or] at h
    rw [List.cons_append, List.infix_cons_iff, ih h.2, List.cons_prefix_cons]
    simp [h.1]

/-- A word occurs around a text without its characters exactly if it occurs on one side. -/
lemma infix_append_append_iff {word x r y : Str} (hword : word ≠ []) (hr : r ≠ [])
    (h : ∀ c ∈ r, c ∉ word) : word <:+: x ++ r ++ y ↔ word <:+: x ∨ word <:+: y := by
  obtain ⟨d, r, rfl⟩ := List.exists_cons_of_ne_nil hr
  obtain ⟨c, w, rfl⟩ := List.exists_cons_of_ne_nil hword
  have hhead : c ∉ r := fun hmem => h c (List.mem_cons_of_mem d hmem) (List.mem_cons_self ..)
  have hsep : d ∉ c :: w := h d (List.mem_cons_self ..)
  rw [List.append_assoc, List.cons_append, ← not_iff_not, not_or,
    ← count_eq_zero_iff (List.cons_ne_nil c w), ← count_eq_zero_iff (List.cons_ne_nil c w),
    count_append_sep (List.cons_ne_nil c w) (not_standsAcross hsep), Nat.add_eq_zero_iff,
    count_eq_zero_iff (List.cons_ne_nil c w) (s := r ++ y), infix_append_iff_of_head hhead]

/-- **Joined texts.** A word without the characters of the separator occurs in joined texts exactly
if it occurs in one of them. -/
theorem infix_intercalate_iff {word sep : Str} {pieces : List Str} (hword : word ≠ [])
    (hsep : sep ≠ []) (h : ∀ c ∈ sep, c ∉ word) :
    word <:+: List.intercalate sep pieces ↔ ∃ piece ∈ pieces, word <:+: piece := by
  induction pieces with
  | nil => simp [List.intercalate, hword]
  | cons first pieces ih =>
    cases pieces with
    | nil => simp
    | cons second pieces =>
      rw [List.intercalate_cons_cons, infix_append_append_iff hword hsep h, ih]
      simp only [List.mem_cons, exists_eq_or_imp]

/-- An escape of a character for a word: it is the character, or it begins with a character that is
none of the word and the word does not begin in it. -/
def EscapesFor (word : Str) (f : Char → Str) : Prop :=
  ∀ c, f c = [c] ∨ c ∉ word ∧ ∃ d r, f c = d :: r ∧ d ∉ word ∧ ∀ e, word.head? = some e → e ∉ r

private lemma prefix_of_prefix_flatMap {word u s : Str} {f : Char → Str} (hf : EscapesFor word f)
    (hu : ∀ c ∈ u, c ∈ word) (h : u <+: s.flatMap f) : u <+: s := by
  induction u generalizing s with
  | nil => exact List.nil_prefix
  | cons c u ih =>
    cases s with
    | nil =>
      rw [List.flatMap_nil, List.prefix_nil] at h
      cases h
    | cons d s =>
      rw [List.flatMap_cons] at h
      rcases hf d with hd | ⟨-, e, r, hd, he, -⟩
      · rw [hd] at h
        obtain ⟨rfl, htail⟩ := List.cons_prefix_cons.mp h
        refine List.cons_prefix_cons.mpr ⟨rfl, ih (fun x hx => ?_) htail⟩
        exact hu x (List.mem_cons_of_mem c hx)
      · rw [hd] at h
        obtain ⟨rfl, -⟩ := List.cons_prefix_cons.mp h
        exact absurd (hu c (List.mem_cons_self ..)) he

/-- **Escaped text.** A word occurs in escaped text exactly if it occurs in the text. -/
theorem infix_flatMap_iff {word s : Str} {f : Char → Str} (hword : word ≠ [])
    (hf : EscapesFor word f) : word <:+: s.flatMap f ↔ word <:+: s := by
  constructor
  · intro h
    induction s with
    | nil => exact h
    | cons c s ih =>
      rw [List.flatMap_cons] at h
      rcases hf c with hc | ⟨-, d, r, hc, hd, hr⟩
      · rw [hc, List.singleton_append] at h
        rcases List.infix_cons_iff.mp h with hinit | hrest
        · have hwhole : word <+: (c :: s).flatMap f := by
            rw [List.flatMap_cons, hc]
            exact hinit
          exact (prefix_of_prefix_flatMap hf (fun _ => id) hwhole).isInfix
        · exact List.infix_cons (ih hrest)
      · obtain ⟨e, w, rfl⟩ := List.exists_cons_of_ne_nil hword
        have hhead : e ∉ d :: r := by
          intro hmem
          rcases List.mem_cons.mp hmem with rfl | hmem
          · exact hd (List.mem_cons_self ..)
          · exact hr e rfl hmem
        rw [hc, infix_append_iff_of_head hhead] at h
        exact List.infix_cons (ih h)
  · rintro ⟨a, b, rfl⟩
    have hself : word.flatMap f = word := by
      have hsingle : ∀ c ∈ word, f c = [c] := fun c hc =>
        (hf c).resolve_right fun hescape => hescape.1 hc
      rw [List.flatMap_congr hsingle]
      exact List.flatMap_singleton' word
    refine ⟨a.flatMap f, b.flatMap f, ?_⟩
    rw [List.flatMap_append, List.flatMap_append, hself]

end Str
