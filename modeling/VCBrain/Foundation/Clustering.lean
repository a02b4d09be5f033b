import Mathlib.Logic.Function.Basic
import Mathlib.Data.Setoid.Basic

set_option relaxedAutoImplicit false
set_option autoImplicit false

/-!
# Clustering by pairwise linking

Elements are gathered into clusters by visiting pairs: two representatives that are visited
together may be linked, after which one stands for both. A pair of which one element has lost its
place is passed over, so the outcome depends on the order of the visits. It does not where the
links follow an equivalence relation that the pairs cover.

## Main definitions

* `link` — the representatives after linking two of them.
* `Visit`, `Visits` — one visit, and a list of visits, that follow an equivalence.

## Main results

* `Visits.eq_iff` — visits that follow an equivalence and cover it leave its classes, in every
  order.
-/

variable {α : Type*} [DecidableEq α]

/-- The representatives after `c` has taken over from `d`. -/
def link (ρ : α → α) (c d : α) : α → α := fun x => if ρ x = d then c else ρ x

/-- Every representative represents itself. -/
def Settled (ρ : α → α) : Prop := ∀ x, ρ (ρ x) = ρ x

/-- Only the element that is taken over loses its place. -/
lemma link_eq_self_iff {ρ : α → α} {c d x : α} (hc : ρ c = c) (hcd : c ≠ d) :
    link ρ c d x = x ↔ ρ x = x ∧ x ≠ d := by
  unfold link
  constructor
  · intro h
    split_ifs at h with hx
    · subst h
      exact ⟨hc, hcd⟩
    · exact ⟨h, fun hxd => hx (h.trans hxd)⟩
  · intro h
    rw [if_neg fun hx => h.2 (h.1.symm.trans hx), h.1]

/-- Linking two representatives leaves every representative to represent itself. -/
lemma settled_link {ρ : α → α} {c d : α} (hρ : Settled ρ) (hc : ρ c = c) (hcd : c ≠ d) :
    Settled (link ρ c d) := by
  intro x
  rw [link_eq_self_iff hc hcd]
  unfold link
  split_ifs with hx
  · exact ⟨hc, hcd⟩
  · exact ⟨hρ x, hx⟩

section Visits

variable (same : Setoid α)

/-- One visit: two different representatives are linked, one way or the other, if they are
equivalent, and nothing else happens. -/
inductive Visit (ρ : α → α) (pair : α × α) : (α → α) → Prop where
  | pass (h : ρ pair.1 = pair.1 → ρ pair.2 = pair.2 → pair.1 ≠ pair.2 → ¬ same pair.1 pair.2) :
      Visit ρ pair ρ
  | join {c d : α} (hpair : pair = (c, d) ∨ pair = (d, c)) (hc : ρ c = c) (hd : ρ d = d)
      (hcd : c ≠ d) (hsame : same c d) : Visit ρ pair (link ρ c d)

/-- The visits of a list of pairs, one after another. -/
inductive Visits : (α → α) → List (α × α) → (α → α) → Prop where
  | nil (ρ : α → α) : Visits ρ [] ρ
  | cons {ρ ρ' ρ'' : α → α} {pair : α × α} {pairs : List (α × α)}
      (hfirst : Visit same ρ pair ρ') (hrest : Visits ρ' pairs ρ'') :
      Visits ρ (pair :: pairs) ρ''

variable {same} {ρ ρ' : α → α} {pair : α × α} {pairs : List (α × α)} {x y : α}

/-- A visit keeps representatives settled. -/
lemma Visit.settled (h : Visit same ρ pair ρ') (hρ : Settled ρ) : Settled ρ' := by
  cases h with
  | pass => exact hρ
  | join _ hc _ hcd _ => exact settled_link hρ hc hcd

/-- A visit keeps elements equivalent to their representatives. -/
lemma Visit.same_rep (h : Visit same ρ pair ρ') (hρ : ∀ x, same x (ρ x)) (x : α) :
    same x (ρ' x) := by
  cases h with
  | pass => exact hρ x
  | @join c d _ _ _ _ hsame =>
    show same x (if ρ x = d then c else ρ x)
    split_ifs with hx
    · exact same.trans (hx ▸ hρ x) (same.symm hsame)
    · exact hρ x

/-- A place once lost is not regained. -/
lemma Visit.rep_of_rep (h : Visit same ρ pair ρ') (hx : ρ' x = x) : ρ x = x := by
  cases h with
  | pass => exact hx
  | join _ hc _ hcd _ => exact ((link_eq_self_iff hc hcd).mp hx).1

/-- After a visit the two elements are not both representatives if they are equivalent. -/
lemma Visit.not_same (h : Visit same ρ pair ρ') (hne : pair.1 ≠ pair.2)
    (h₁ : ρ' pair.1 = pair.1) (h₂ : ρ' pair.2 = pair.2) : ¬ same pair.1 pair.2 := by
  cases h with
  | pass h => exact h h₁ h₂ hne
  | @join c d hpair hc hd hcd _ =>
    have hlost : link ρ c d d ≠ d := fun hd => ((link_eq_self_iff hc hcd).mp hd).2 rfl
    cases hpair with
    | inl heq =>
      rw [heq] at h₂
      exact absurd h₂ hlost
    | inr heq =>
      rw [heq] at h₁
      exact absurd h₁ hlost

lemma Visits.settled (h : Visits same ρ pairs ρ') (hρ : Settled ρ) : Settled ρ' := by
  induction h with
  | nil => exact hρ
  | cons hfirst _ ih => exact ih (hfirst.settled hρ)

lemma Visits.same_rep (h : Visits same ρ pairs ρ') (hρ : ∀ x, same x (ρ x)) (x : α) :
    same x (ρ' x) := by
  induction h with
  | nil => exact hρ x
  | cons hfirst _ ih => exact ih (hfirst.same_rep hρ)

lemma Visits.rep_of_rep (h : Visits same ρ pairs ρ') (hx : ρ' x = x) : ρ x = x := by
  induction h with
  | nil => exact hx
  | cons hfirst _ ih => exact hfirst.rep_of_rep (ih hx)

/-- Equivalent elements that were visited together are not both representatives afterwards. -/
lemma Visits.not_same (h : Visits same ρ pairs ρ') (hmem : pair ∈ pairs)
    (hne : pair.1 ≠ pair.2) (h₁ : ρ' pair.1 = pair.1) (h₂ : ρ' pair.2 = pair.2) :
    ¬ same pair.1 pair.2 := by
  induction h with
  | nil => cases hmem
  | cons hfirst hrest ih =>
    cases hmem with
    | head => exact hfirst.not_same hne (hrest.rep_of_rep h₁) (hrest.rep_of_rep h₂)
    | tail _ hmem => exact ih hmem h₁ h₂

/-- **The order of visits does not matter.** If visits follow an equivalence, and any two different
equivalent elements are visited together at some point, then in the end two elements have one
representative exactly if they are equivalent.

**Proof sketch.** Two representatives left in one class have been so all along. When they were
visited together, one of them was linked to the other. -/
theorem Visits.eq_iff (h : Visits same ρ pairs ρ') (hρ : Settled ρ) (hsame : ∀ x, same x (ρ x))
    (hcover : ∀ x y, x ≠ y → same x y → (x, y) ∈ pairs ∨ (y, x) ∈ pairs) :
    ρ' x = ρ' y ↔ same x y := by
  have hrep := h.same_rep hsame
  constructor
  · intro heq
    exact same.trans (hrep x) (same.symm (heq ▸ hrep y))
  · intro hxy
    by_contra hne
    have hreps : same (ρ' x) (ρ' y) :=
      same.trans (same.symm (hrep x)) (same.trans hxy (hrep y))
    have hx := h.settled hρ x
    have hy := h.settled hρ y
    cases hcover _ _ hne hreps with
    | inl hmem => exact h.not_same hmem hne hx hy hreps
    | inr hmem => exact h.not_same hmem (Ne.symm hne) hy hx (same.symm hreps)

end Visits
