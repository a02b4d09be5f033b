import Mathlib.Logic.Relation
import Mathlib.Logic.Function.Basic

set_option relaxedAutoImplicit false
set_option autoImplicit false

/-!
# Chains of pointers

A partial function `next` sends every element to the one that replaced it, if any. An element
without a successor is a root. This file says which elements lead to a root, and what becomes
of that when a root is given a successor.

## Main definitions

* `Leads next a b` — `b` is reached from `a` by following pointers.

## Main results

* `Leads.root_unique` — an element leads to one root at most.
* `Leads.not_cycle` — an element that leads to a root lies on no cycle.
* `leads_update_iff` — giving the root `d` the successor `c` moves all that leads to `d` over to
  the root of `c`, and nothing else.
-/

variable {α : Type*} {next : α → Option α} {a b c d r s : α}

/-- `b` is reached from `a` by following pointers. -/
def Leads (next : α → Option α) : α → α → Prop :=
  Relation.ReflTransGen fun x y => next x = some y

namespace Leads

lemma refl (a : α) : Leads next a a := Relation.ReflTransGen.refl

lemma trans (hab : Leads next a b) (hbc : Leads next b c) : Leads next a c :=
  Relation.ReflTransGen.trans hab hbc

lemma head (hab : next a = some b) (hbc : Leads next b c) : Leads next a c :=
  Relation.ReflTransGen.head hab hbc

/-- A root leads to itself only. -/
lemma eq_of_root (h : Leads next a b) (ha : next a = none) : a = b := by
  induction h using Relation.ReflTransGen.head_induction_on with
  | refl => rfl
  | head hstep _ _ => simp [ha] at hstep

/-- An element leads to one root at most. -/
lemma root_unique (hr : Leads next a r) (hs : Leads next a s) (hr' : next r = none)
    (hs' : next s = none) : r = s := by
  induction hr using Relation.ReflTransGen.head_induction_on with
  | refl => exact hs.eq_of_root hr'
  | head hstep _ ih =>
    cases Relation.ReflTransGen.cases_head hs with
    | inl heq =>
      subst heq
      simp [hs'] at hstep
    | inr htail =>
      obtain ⟨b, hb, hbs⟩ := htail
      apply ih
      rw [hstep] at hb
      cases hb
      exact hbs

/-- What keeps its successor leads where it led. -/
lemma follow_keeping {next' : α → Option α} (hkeep : ∀ x y, next x = some y → next' x = some y)
    (h : Leads next a b) : Leads next' a b :=
  Relation.ReflTransGen.mono hkeep _ _ h

/-- An element that leads to a root lies on no cycle. -/
lemma not_cycle (h : Leads next a r) (hr : next r = none) :
    ¬ Relation.TransGen (fun x y => next x = some y) a a := by
  intro hcycle
  induction h using Relation.ReflTransGen.head_induction_on with
  | refl =>
    obtain ⟨b, hb, -⟩ := Relation.TransGen.head'_iff.mp hcycle
    rw [hr] at hb
    cases hb
  | @head x y hstep _ ih =>
    obtain ⟨b, hb, hback⟩ := Relation.TransGen.head'_iff.mp hcycle
    rw [hstep] at hb
    obtain rfl := Option.some.inj hb
    exact ih (Relation.TransGen.tail' hback hstep)

end Leads

section Update

variable [DecidableEq α]

/-- A root plays no part in a chain but as its end, so giving it a successor breaks none. -/
lemma Leads.update (h : Leads next a b) (hd : next d = none) (x : Option α) :
    Leads (Function.update next d x) a b := by
  induction h using Relation.ReflTransGen.head_induction_on with
  | refl => exact Leads.refl b
  | head hstep _ ih =>
    refine Leads.head ?_ ih
    rw [Function.update_of_ne, hstep]
    intro heq
    rw [heq, hd] at hstep
    cases hstep

/-- **Linking a root.** When the root `d` is given the successor `c`, an element leads to another
root `r` afterwards exactly if it did before, or it led to `d` and `c` led to `r`. -/
theorem leads_update_iff (hd : next d = none) (hrd : r ≠ d) :
    Leads (Function.update next d (some c)) a r ↔
      Leads next a r ∨ (Leads next a d ∧ Leads next c r) := by
  constructor
  · intro h
    induction h using Relation.ReflTransGen.head_induction_on with
    | refl => exact Or.inl (Leads.refl r)
    | @head x y hstep _ ih =>
      by_cases hx : x = d
      · subst hx
        rw [Function.update_self] at hstep
        cases hstep
        refine Or.inr ⟨Leads.refl x, ?_⟩
        cases ih with
        | inl h => exact h
        | inr h => exact h.2
      · rw [Function.update_of_ne hx] at hstep
        exact ih.imp (Leads.head hstep) fun h => ⟨Leads.head hstep h.1, h.2⟩
  · intro h
    cases h with
    | inl h => exact h.update hd _
    | inr h =>
      have hlink : Function.update next d (some c) d = some c := Function.update_self ..
      exact (h.1.update hd _).trans (Leads.head hlink (h.2.update hd _))

end Update
