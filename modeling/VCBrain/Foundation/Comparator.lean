import Mathlib.Algebra.Order.Ring.Rat
import Mathlib.Data.List.Sort
import Mathlib.Tactic.Linarith
import VCBrain.Foundation.Leaders

set_option relaxedAutoImplicit false
set_option autoImplicit false

/-!
# Comparators

A comparator says by the sign of a number which of two elements comes first. Comparators are
composed: a second one decides where a first one leaves a tie, and elements of two classes are
compared within their class. A sort by a comparator is determined, and stable, if the comparator is
consistent.

## Main definitions

* `Comparator.Consistent` — the signs are those of an order.
* `Comparator.descending`, `Comparator.orElse`, `Comparator.byClass` — comparators and their
  composition.
* `Comparator.sort` — the stable sort.

## Main results

* `Comparator.Consistent.orElse`, `Comparator.Consistent.byClass` — compositions are consistent.
* `Comparator.Consistent.filter_sort` — a part of a list is sorted as it stands in the sorted list.
* `Comparator.Consistent.sort_eq_of_perm` — the sort of elements without ties does not depend on
  their order.
-/

/-- `(left, right) => number`: negative if `left` comes first, positive if `right` does. -/
abbrev Comparator (α : Type*) := α → α → ℚ

namespace Comparator

variable {α β : Type*}

/-- The signs are those of an order: the two ways to ask agree, and what comes first is
transitive. -/
structure Consistent (cmp : Comparator α) : Prop where
  neg_iff : ∀ a b, cmp a b < 0 ↔ 0 < cmp b a
  trans : ∀ a b c, cmp a b ≤ 0 → cmp b c ≤ 0 → cmp a c ≤ 0

/-- `value(right) - value(left)`. -/
def descending (value : α → ℚ) : Comparator α := fun a b => value b - value a

/-- `first(left, right) || second(left, right)`. -/
def orElse (first second : Comparator α) : Comparator α := fun a b =>
  if first a b ≠ 0 then first a b else second a b

/-- The elements of a class come first, and in each class there is a comparator. -/
def byClass (p : α → Bool) (inside outside : Comparator α) : Comparator α := fun a b =>
  if p a ≠ p b then (if p a then -1 else 1)
  else if p a then inside a b else outside a b

/-- `[...list].sort(cmp)`. -/
def sort (cmp : Comparator α) (l : List α) : List α := l.insertionSort fun a b => cmp a b ≤ 0

section Consistent

variable {cmp first second inside outside : Comparator α} {a b c : α}

namespace Consistent

lemma le_iff (h : Consistent cmp) : cmp a b ≤ 0 ↔ 0 ≤ cmp b a := by
  have hneg := h.neg_iff b a
  constructor
  · intro hle
    by_contra hlt
    have hpos := hneg.mp (not_le.mp hlt)
    linarith
  · intro hle
    by_contra hlt
    have hlow := hneg.mpr (not_le.mp hlt)
    linarith

lemma eq_zero_comm (h : Consistent cmp) : cmp a b = 0 ↔ cmp b a = 0 := by
  have hflip : ∀ {a b}, cmp a b = 0 → cmp b a = 0 := fun hzero =>
    le_antisymm (h.le_iff.mpr hzero.ge) (h.le_iff.mp hzero.le)
  exact ⟨hflip, hflip⟩

lemma self (h : Consistent cmp) : cmp a a = 0 := by
  rcases lt_trichotomy (cmp a a) 0 with hlow | hzero | hhigh
  · exact absurd ((h.neg_iff a a).mp hlow) hlow.not_gt
  · exact hzero
  · exact absurd ((h.neg_iff a a).mpr hhigh) hhigh.not_gt

lemma total (h : Consistent cmp) (a b : α) : cmp a b ≤ 0 ∨ cmp b a ≤ 0 := by
  rcases le_total (cmp a b) 0 with hle | hge
  · exact Or.inl hle
  · exact Or.inr (h.le_iff.mpr hge)

/-- What comes strictly first stays so before what comes later. -/
lemma lt_of_lt_of_le (h : Consistent cmp) (hab : cmp a b < 0) (hbc : cmp b c ≤ 0) :
    cmp a c < 0 := by
  by_contra hge
  have hca : cmp c a ≤ 0 := h.le_iff.mpr (not_lt.mp hge)
  have hba : cmp b a ≤ 0 := h.trans b c a hbc hca
  have hpos := (h.neg_iff a b).mp hab
  linarith

lemma lt_of_le_of_lt (h : Consistent cmp) (hab : cmp a b ≤ 0) (hbc : cmp b c < 0) :
    cmp a c < 0 := by
  by_contra hge
  have hca : cmp c a ≤ 0 := h.le_iff.mpr (not_lt.mp hge)
  have hcb : cmp c b ≤ 0 := h.trans c a b hca hab
  have hpos := (h.neg_iff b c).mp hbc
  linarith

end Consistent

/-- The comparison by a number is consistent. -/
lemma consistent_descending (value : α → ℚ) : Consistent (descending value) where
  neg_iff a b := by
    show value b - value a < 0 ↔ 0 < value a - value b
    constructor <;> intro h <;> linarith
  trans a b c hab hbc := by
    show value c - value a ≤ 0
    have hab : value b - value a ≤ 0 := hab
    have hbc : value c - value b ≤ 0 := hbc
    linarith

/-- A comparison of images is consistent. -/
lemma Consistent.comap {cmp : Comparator β} (h : Consistent cmp) (f : α → β) :
    Consistent fun a b => cmp (f a) (f b) where
  neg_iff a b := h.neg_iff (f a) (f b)
  trans a b c := h.trans (f a) (f b) (f c)

/-- The first comparator decides, or the second one if it leaves a tie. -/
lemma orElse_le_iff : orElse first second a b ≤ 0 ↔
    first a b < 0 ∨ (first a b = 0 ∧ second a b ≤ 0) := by
  unfold orElse
  by_cases hzero : first a b = 0
  · simp [hzero]
  · simp [hzero, lt_iff_le_and_ne]

lemma orElse_lt_iff : orElse first second a b < 0 ↔
    first a b < 0 ∨ (first a b = 0 ∧ second a b < 0) := by
  unfold orElse
  by_cases hzero : first a b = 0
  · simp [hzero]
  · simp [hzero]

lemma orElse_pos_iff : 0 < orElse first second a b ↔
    0 < first a b ∨ (first a b = 0 ∧ 0 < second a b) := by
  unfold orElse
  by_cases hzero : first a b = 0
  · simp [hzero]
  · simp [hzero]

lemma orElse_nonpos (hfirst : first a b ≤ 0) (hsecond : second a b ≤ 0) :
    orElse first second a b ≤ 0 := by
  unfold orElse
  split_ifs
  · exact hfirst
  · exact hsecond

/-- There is a tie exactly if both comparators leave one. -/
lemma orElse_eq_zero_iff : orElse first second a b = 0 ↔ first a b = 0 ∧ second a b = 0 := by
  unfold orElse
  by_cases hzero : first a b = 0
  · simp [hzero]
  · simp [hzero]

/-- Several comparators decide one after the other. -/
lemma orElse_assoc {third : Comparator α} :
    orElse (orElse first second) third = orElse first (orElse second third) := by
  funext a b
  unfold orElse
  by_cases hzero : first a b = 0
  · simp [hzero]
  · simp [hzero]

/-- A tie is one within a class, and is decided there. -/
lemma orElse_byClass {p : α → Bool} : orElse (byClass p inside outside) second =
    byClass p (orElse inside second) (orElse outside second) := by
  funext a b
  unfold orElse byClass
  cases p a <;> cases p b <;> simp

/-- **Ties.** A second comparator may decide where the first one leaves a tie. -/
lemma Consistent.orElse (hfirst : Consistent first) (hsecond : Consistent second) :
    Consistent (first.orElse second) where
  neg_iff a b := by
    rw [orElse_lt_iff, orElse_pos_iff, hfirst.neg_iff, hsecond.neg_iff, hfirst.eq_zero_comm]
  trans a b c hab hbc := by
    rw [orElse_le_iff] at *
    rcases hab with hab | ⟨hab, hab'⟩
    · refine Or.inl (hfirst.lt_of_lt_of_le hab ?_)
      rcases hbc with hbc | ⟨hbc, -⟩
      · exact hbc.le
      · exact hbc.le
    · rcases hbc with hbc | ⟨hbc, hbc'⟩
      · exact Or.inl (hfirst.lt_of_le_of_lt hab.le hbc)
      · refine Or.inr ⟨le_antisymm (hfirst.trans a b c hab.le hbc.le) ?_,
          hsecond.trans a b c hab' hbc'⟩
        rw [← hfirst.le_iff]
        exact hfirst.trans c b a (hfirst.eq_zero_comm.mp hbc).le (hfirst.eq_zero_comm.mp hab).le

/-- **Classes.** Each class may have a comparator of its own. -/
lemma Consistent.byClass {p : α → Bool} (hinside : Consistent inside)
    (houtside : Consistent outside) : Consistent (byClass p inside outside) where
  neg_iff a b := by
    unfold Comparator.byClass
    cases ha : p a <;> cases hb : p b
    · simpa using houtside.neg_iff a b
    · simp
    · simp
    · simpa using hinside.neg_iff a b
  trans a b c := by
    unfold Comparator.byClass
    cases ha : p a <;> cases hb : p b <;> cases hc : p c
    · simpa using houtside.trans a b c
    · simp
    · simp
    · simp
    · simp
    · simp
    · simp
    · simpa using hinside.trans a b c

end Consistent

/-! ## Sorting -/

section Sorting

variable {cmp : Comparator α} {l l' : List α}

lemma perm_sort (cmp : Comparator α) (l : List α) : (cmp.sort l).Perm l :=
  List.perm_insertionSort _ l

@[simp] lemma mem_sort {a : α} : a ∈ cmp.sort l ↔ a ∈ l := (perm_sort cmp l).mem_iff

namespace Consistent

/-- The sorted list is in order. -/
lemma pairwise_sort (h : Consistent cmp) (l : List α) :
    (cmp.sort l).Pairwise fun a b => cmp a b ≤ 0 := by
  have htotal : Std.Total fun a b : α => cmp a b ≤ 0 := ⟨h.total⟩
  have htrans : IsTrans α fun a b : α => cmp a b ≤ 0 := ⟨h.trans⟩
  exact List.pairwise_insertionSort _ l

/-- A list that is in order is left as it is. -/
lemma sort_eq_self (hl : l.Pairwise fun a b => cmp a b ≤ 0) : cmp.sort l = l :=
  List.Pairwise.insertionSort_eq hl

/-- An element that comes before all others is inserted in front. -/
lemma orderedInsert_of_forall {a : α} (hl : ∀ b ∈ l, cmp a b ≤ 0) :
    l.orderedInsert (fun a b => cmp a b ≤ 0) a = a :: l := by
  cases l with
  | nil => rfl
  | cons b l => exact if_pos (hl b (List.mem_cons_self ..))

/-- A part of a list in order, after an insertion. -/
lemma filter_orderedInsert (h : Consistent cmp) (p : α → Bool) (a : α)
    (hl : l.Pairwise fun a b => cmp a b ≤ 0) :
    (l.orderedInsert (fun a b => cmp a b ≤ 0) a).filter p =
      if p a then (l.filter p).orderedInsert (fun a b => cmp a b ≤ 0) a else l.filter p := by
  induction l with
  | nil => by_cases hp : p a <;> simp [hp]
  | cons b l ih =>
    obtain ⟨hb, hl⟩ := List.pairwise_cons.mp hl
    rw [List.orderedInsert_cons]
    by_cases hab : cmp a b ≤ 0
    · rw [if_pos hab, List.filter_cons]
      by_cases hp : p a
      · rw [if_pos hp, if_pos hp, orderedInsert_of_forall]
        intro c hc
        rcases List.mem_cons.mp (List.mem_filter.mp hc).1 with rfl | hc
        · exact hab
        · exact h.trans a b c hab (hb c hc)
      · rw [if_neg hp, if_neg hp]
    · rw [if_neg hab, List.filter_cons, ih hl]
      by_cases hp : p a <;> by_cases hq : p b <;> simp [hp, hq, hab]

/-- **A part of a sorted list.** What is left of the sorted list is the sort of what is left. -/
theorem filter_sort (h : Consistent cmp) (p : α → Bool) (l : List α) :
    (cmp.sort l).filter p = cmp.sort (l.filter p) := by
  induction l with
  | nil => rfl
  | cons a l ih =>
    show (List.orderedInsert (fun a b => cmp a b ≤ 0) a (cmp.sort l)).filter p = _
    rw [h.filter_orderedInsert p a (h.pairwise_sort l), ih, List.filter_cons]
    split_ifs
    · rfl
    · rfl

/-- **Stability.** Elements that tie with each other stand as they stood. -/
theorem filter_sort_of_tied (h : Consistent cmp) {p : α → Bool}
    (htied : ∀ a ∈ l, p a = true → ∀ b ∈ l, p b = true → cmp a b = 0) :
    (cmp.sort l).filter p = l.filter p := by
  rw [h.filter_sort]
  refine sort_eq_self ?_
  refine List.pairwise_of_forall_mem_list fun a ha b hb => ?_
  obtain ⟨ha, hpa⟩ := List.mem_filter.mp ha
  obtain ⟨hb, hpb⟩ := List.mem_filter.mp hb
  exact (htied a ha hpa b hb hpb).le

/-- **Independence of the order.** The sort of elements without ties does not depend on how they
stood. -/
theorem sort_eq_of_perm (h : Consistent cmp) (hperm : l.Perm l')
    (hties : ∀ a ∈ l, ∀ b ∈ l, cmp a b = 0 → a = b) : cmp.sort l = cmp.sort l' := by
  have hsorted : (cmp.sort l).Perm (cmp.sort l') :=
    ((perm_sort cmp l).trans hperm).trans (perm_sort cmp l').symm
  refine List.Perm.eq_of_pairwise (fun a b ha hb hab hba => ?_) (h.pairwise_sort l)
    (h.pairwise_sort l') hsorted
  refine hties a (mem_sort.mp ha) b (hperm.mem_iff.mpr (mem_sort.mp hb)) ?_
  exact le_antisymm hab (h.le_iff.mp hba)

/-- Of two elements in the sorted list the first one does not come later. -/
lemma le_of_sublist (h : Consistent cmp) {a b : α} (hab : [a, b].Sublist (cmp.sort l)) :
    cmp a b ≤ 0 := by
  have hpair := (h.pairwise_sort l).sublist hab
  simpa using hpair

/-- Of two elements the one that comes strictly first stands first. -/
lemma sublist_of_lt (h : Consistent cmp) {a b : α} (ha : a ∈ l) (hb : b ∈ l)
    (hlt : cmp a b < 0) : [a, b].Sublist (cmp.sort l) := by
  have hne : a ≠ b := by
    rintro rfl
    exact hlt.ne h.self
  rcases Leaders.pair_sublist_or (mem_sort.mpr ha) (mem_sort.mpr hb) hne with hab | hba
  · exact hab
  · exact absurd (h.le_iff.mp (h.le_of_sublist hba)) (not_le.mpr hlt)

end Consistent

end Sorting

end Comparator
