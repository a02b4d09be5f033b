import Mathlib.Data.List.Basic

set_option relaxedAutoImplicit false
set_option autoImplicit false

/-!
# Framed parts

Several lists in one, each behind its length and a separator. The numerals are arbitrary lists
without the separator that determine their numbers.

## Main definitions

* `frame` — a list behind its length and the separator.

## Main results

* `flatMap_frame_injective` — the frames of some lists, one behind the other, determine the lists.
-/

section Frames

variable {β : Type*} {numeral : ℕ → List β} {sep : β}

/-- A list behind its length and a separator. -/
def frame (numeral : ℕ → List β) (sep : β) (part : List β) : List β :=
  numeral part.length ++ sep :: part

/-- The text up to the first separator is determined by the whole. -/
private lemma append_sep_inj {u v x y : List β} (hu : sep ∉ u) (hv : sep ∉ v)
    (h : u ++ sep :: x = v ++ sep :: y) : u = v ∧ x = y := by
  rcases List.append_eq_append_iff.mp h with ⟨d, rfl, hd⟩ | ⟨d, rfl, hd⟩
  · cases d with
    | nil => exact ⟨(List.append_nil u).symm, (List.cons.inj hd).2⟩
    | cons c d =>
      obtain ⟨rfl, -⟩ := List.cons.inj hd
      exact absurd (List.mem_append_right u (List.mem_cons_self ..)) hv
  · cases d with
    | nil => exact ⟨List.append_nil v, (List.cons.inj hd).2.symm⟩
    | cons c d =>
      obtain ⟨rfl, -⟩ := List.cons.inj hd
      exact absurd (List.mem_append_right v (List.mem_cons_self ..)) hu

/-- A frame in front of a list determines its part and the list. -/
lemma frame_append_inj (hnumeral : Function.Injective numeral) (hsep : ∀ n, sep ∉ numeral n)
    {a b x y : List β} (h : frame numeral sep a ++ x = frame numeral sep b ++ y) :
    a = b ∧ x = y := by
  have hsplit : numeral a.length ++ sep :: (a ++ x) = numeral b.length ++ sep :: (b ++ y) := by
    simpa [frame] using h
  obtain ⟨hlength, hrest⟩ := append_sep_inj (hsep _) (hsep _) hsplit
  exact List.append_inj hrest (hnumeral hlength)

/-- **Frames.** The frames of some lists, one behind the other, determine the lists. -/
theorem flatMap_frame_injective (hnumeral : Function.Injective numeral)
    (hsep : ∀ n, sep ∉ numeral n) :
    Function.Injective fun parts : List (List β) => parts.flatMap (frame numeral sep) := by
  have hne : ∀ part x : List β, frame numeral sep part ++ x ≠ [] := by
    intro part x
    simp [frame]
  intro parts
  induction parts with
  | nil =>
    intro parts' h
    cases parts' with
    | nil => rfl
    | cons part' parts' =>
      simp only [List.flatMap_nil, List.flatMap_cons] at h
      exact absurd h.symm (hne part' _)
  | cons part parts ih =>
    intro parts' h
    cases parts' with
    | nil =>
      simp only [List.flatMap_nil, List.flatMap_cons] at h
      exact absurd h (hne part _)
    | cons part' parts' =>
      simp only [List.flatMap_cons] at h
      obtain ⟨rfl, hrest⟩ := frame_append_inj hnumeral hsep h
      rw [ih hrest]

end Frames
