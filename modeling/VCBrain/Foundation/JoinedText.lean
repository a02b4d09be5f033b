import VCBrain.Foundation.Substrings

set_option relaxedAutoImplicit false
set_option autoImplicit false

/-!
# Joined texts

Texts are joined with a separator, which also stands at both ends. A word with at most one separator
behind its first character occurs in a single one of the texts or across two neighbours.

## Main definitions

* `surrounded` — the texts, each between two separators.

## Main results

* `infix_surrounded_iff` — where a word occurs.
-/

namespace Str

/-- The pieces, joined by a separator and surrounded by it. -/
def surrounded (sep : Char) (pieces : List Str) : Str :=
  sep :: List.intercalate [sep] pieces ++ [sep]

variable {sep : Char} {word u v : Str} {pieces part : List Str}

lemma surrounded_cons_cons : surrounded sep (u :: v :: pieces) =
    sep :: u ++ surrounded sep (v :: pieces) := by
  simp [surrounded, List.intercalate_cons_cons]

/-- The first pieces stand in front. -/
lemma exists_surrounded_append (sep : Char) (pieces : List Str) (hne : part ≠ []) :
    ∃ rest, surrounded sep (part ++ pieces) = surrounded sep part ++ rest := by
  induction part with
  | nil => exact absurd rfl hne
  | cons u part ih =>
    cases part with
    | cons v part =>
      obtain ⟨rest, hrest⟩ := ih (List.cons_ne_nil v part)
      refine ⟨rest, ?_⟩
      rw [List.cons_append, List.cons_append, surrounded_cons_cons, ← List.cons_append, hrest,
        surrounded_cons_cons, List.append_assoc]
    | nil =>
      cases pieces with
      | nil => exact ⟨[], by simp⟩
      | cons v pieces =>
        refine ⟨List.intercalate [sep] (v :: pieces) ++ [sep], ?_⟩
        simp [surrounded, List.intercalate_cons_cons]

/-- Neighbours are a part of the text. -/
lemma surrounded_part (hne : part ≠ []) (h : part <:+: pieces) :
    surrounded sep part <:+: surrounded sep pieces := by
  obtain ⟨front, back, rfl⟩ := h
  rw [List.append_assoc]
  induction front with
  | nil =>
    obtain ⟨rest, hrest⟩ := exists_surrounded_append sep back hne
    rw [List.nil_append, hrest]
    exact List.infix_append_left
  | cons w front ih =>
    obtain ⟨v, rest, hrest⟩ := List.exists_cons_of_ne_nil (l := front ++ (part ++ back))
      (by simp [hne])
    rw [List.cons_append, hrest, surrounded_cons_cons, ← hrest]
    exact ih.trans List.infix_append_right

/-- An occurrence in a text with a separator is on one side of it or stands across it. -/
lemma infix_append_sep_cases {x y : Str} (hword : word ≠ []) (h : word <:+: x ++ sep :: y) :
    word <:+: x ∨ word <:+: y ∨ StandsAcross word sep x y := by
  by_cases hacross : StandsAcross word sep x y
  · exact Or.inr (Or.inr hacross)
  · have hcount := count_append_sep hword hacross
    have hpos := count_pos hword h
    rcases Nat.eq_zero_or_pos (count word x) with hx | hx
    · have hy : count word y ≠ 0 := by omega
      rw [ne_eq, count_eq_zero_iff hword, not_not] at hy
      exact Or.inr (Or.inl hy)
    · have hne : count word x ≠ 0 := by omega
      rw [ne_eq, count_eq_zero_iff hword, not_not] at hne
      exact Or.inl hne

/-- A word in the text of two pieces and more is in the first one, across the first two, or in the
text without the first one. -/
lemma infix_surrounded_cons_cons (hword : word ≠ []) (hcount : word.tail.count sep ≤ 1)
    (h : word <:+: surrounded sep (u :: v :: pieces)) :
    word <:+: surrounded sep [u] ∨ word <:+: surrounded sep [u, v] ∨
      word <:+: surrounded sep (v :: pieces) := by
  have htext : surrounded sep (v :: pieces) =
      sep :: (List.intercalate [sep] (v :: pieces) ++ [sep]) := rfl
  have hright : List.intercalate [sep] (v :: pieces) ++ [sep] <:+: surrounded sep (v :: pieces) :=
    (List.suffix_cons sep _).isInfix
  rw [surrounded_cons_cons, htext] at h
  rcases infix_append_sep_cases hword h with hleft | hlater | ⟨a, b, rfl, ha, hb⟩
  · refine Or.inl (hleft.trans ⟨[], [sep], ?_⟩)
    simp [surrounded]
  · exact Or.inr (Or.inr (hlater.trans hright))
  · cases a with
    | nil =>
      refine Or.inr (Or.inr ?_)
      rw [htext, List.nil_append]
      exact (List.cons_prefix_cons.mpr ⟨rfl, hb⟩).isInfix
    | cons c a =>
      -- the separator of the word is this one, so the word ends in the second piece
      have hnone : sep ∉ b := by
        rw [List.cons_append, List.tail_cons, List.count_append, List.count_cons_self] at hcount
        exact List.count_eq_zero.mp (by omega)
      have hsplit : ∃ rest, List.intercalate [sep] (v :: pieces) ++ [sep] = v ++ sep :: rest := by
        cases pieces with
        | nil => exact ⟨[], by simp⟩
        | cons w pieces =>
          exact ⟨List.intercalate [sep] (w :: pieces) ++ [sep],
            by simp [List.intercalate_cons_cons]⟩
      obtain ⟨rest, hrest⟩ := hsplit
      rw [hrest, prefix_append_sep_iff (not_standsAcross hnone)] at hb
      obtain ⟨x, hx⟩ := ha
      obtain ⟨y, rfl⟩ := hb
      refine Or.inr (Or.inl ⟨x, y ++ [sep], ?_⟩)
      calc x ++ (c :: a ++ sep :: b) ++ (y ++ [sep])
          = (x ++ c :: a) ++ sep :: (b ++ y ++ [sep]) := by simp
        _ = (sep :: u) ++ sep :: (b ++ y ++ [sep]) := by rw [hx]
        _ = surrounded sep [u, b ++ y] := by simp [surrounded, List.intercalate_cons_cons]

/-- **Words in joined texts.** A word with at most one separator behind its first character occurs
in the joined pieces exactly if it occurs in one of them or in two neighbours.

**Proof sketch.** Induction on the pieces. The occurrence is in the first piece, across the first
two, or behind the first one. -/
theorem infix_surrounded_iff (hword : word ≠ []) (hcount : word.tail.count sep ≤ 1)
    (hne : pieces ≠ []) : word <:+: surrounded sep pieces ↔
      (∃ u ∈ pieces, word <:+: surrounded sep [u]) ∨
        ∃ u v, [u, v] <:+: pieces ∧ word <:+: surrounded sep [u, v] := by
  constructor
  · intro h
    induction pieces with
    | nil => exact absurd rfl hne
    | cons u pieces ih =>
      cases pieces with
      | nil => exact Or.inl ⟨u, List.mem_singleton_self u, h⟩
      | cons v pieces =>
        rcases infix_surrounded_cons_cons hword hcount h with hfirst | hpair | hrest
        · exact Or.inl ⟨u, List.mem_cons_self .., hfirst⟩
        · exact Or.inr ⟨u, v, ⟨[], pieces, rfl⟩, hpair⟩
        · rcases ih (List.cons_ne_nil v pieces) hrest with ⟨w, hw, hin⟩ | ⟨a, b, hab, hin⟩
          · exact Or.inl ⟨w, List.mem_cons_of_mem u hw, hin⟩
          · exact Or.inr ⟨a, b, hab.trans (List.suffix_cons u _).isInfix, hin⟩
  · rintro (⟨u, hu, hin⟩ | ⟨u, v, huv, hin⟩)
    · obtain ⟨front, back, rfl⟩ := List.append_of_mem hu
      refine hin.trans (surrounded_part (List.cons_ne_nil u []) ⟨front, back, ?_⟩)
      simp
    · exact hin.trans (surrounded_part (List.cons_ne_nil u [v]) huv)

end Str
