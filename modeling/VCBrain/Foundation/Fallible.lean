import Mathlib.Tactic.Common

set_option relaxedAutoImplicit false
set_option autoImplicit false

/-!
# Computations that raise

A computation on a state returns a value or raises an exception. What it has done to the state
before it raised is not undone.

## Main definitions

* `Fallible` — such a computation, with `Fallible.raise` and `Fallible.handle`.
* `Fallible.stopAt` — a statement at which an environment may stop a computation.
* `Fallible.forEach` — a loop.
* `Fallible.Leads` — the outcome meets one condition if a value is returned, another one if an
  exception is raised.

## Main results

* `Fallible.leads_bind`, `Fallible.leads_handle`, … — the condition is computed from the end of a
  computation to its beginning.
* `Fallible.Leads.mono` — conditions can be weakened.
* `Fallible.leads_stopAt`, `Fallible.leads_forEach` — the rules of a statement that may stop, and of
  a loop with an invariant.
-/

/-- A computation on a state that returns a value or raises an exception. -/
def Fallible (ε σ α : Type) : Type := σ → Except ε α × σ

namespace Fallible

variable {ε σ α β : Type}

instance : Monad (Fallible ε σ) where
  pure a := fun s => (.ok a, s)
  bind x f := fun s =>
    match x s with
    | (.ok a, s') => f a s'
    | (.error e, s') => (.error e, s')

/-- Raise an exception. -/
def raise (e : ε) : Fallible ε σ α := fun s => (.error e, s)

/-- The state. -/
def get : Fallible ε σ σ := fun s => (.ok s, s)

/-- Change the state. -/
def modify (f : σ → σ) : Fallible ε σ Unit := fun s => (.ok (), f s)

/-- `try … except`: an exception is handled in the state in which it was raised. -/
def handle (x : Fallible ε σ α) (handler : ε → Fallible ε σ α) : Fallible ε σ α := fun s =>
  match x s with
  | (.ok a, s') => (.ok a, s')
  | (.error e, s') => handler e s'

/-- What the environment raises at a point. -/
def failsAt {π : Type} [DecidableEq π] (fails : Option (π × ε)) (point : π) : Option ε :=
  fails.bind fun f => if f.1 = point then some f.2 else none

/-- A statement at which the environment may stop the computation, which is noted in the state. -/
def stopAt {π : Type} [DecidableEq π] (fails : Option (π × ε)) (note : π → ε → σ → σ) (point : π) :
    Fallible ε σ Unit := fun s =>
  match failsAt fails point with
  | some e => (.error e, note point e s)
  | none => (.ok (), s)

/-- Run the body for each item. -/
def forEach {ι : Type} (body : ι → Fallible ε σ Unit) : List ι → Fallible ε σ Unit
  | [] => pure ()
  | i :: is => do
    body i
    forEach body is

/-- The state the computation ends in. -/
def final (x : Fallible ε σ α) (s : σ) : σ := (x s).2

/-- The computation ends with a value that meets `Q` or with an exception that meets `E`. -/
def Leads (x : Fallible ε σ α) (Q : α → σ → Prop) (E : ε → σ → Prop) (s : σ) : Prop :=
  match x s with
  | (.ok a, s') => Q a s'
  | (.error e, s') => E e s'

section Rules

variable {Q Q' : α → σ → Prop} {E E' : ε → σ → Prop} {s : σ}

@[simp] lemma leads_pure {a : α} : (pure a : Fallible ε σ α).Leads Q E s ↔ Q a s := Iff.rfl

@[simp] lemma leads_raise {e : ε} : (raise e : Fallible ε σ α).Leads Q E s ↔ E e s := Iff.rfl

@[simp] lemma leads_get {Q : σ → σ → Prop} :
    (get : Fallible ε σ σ).Leads Q E s ↔ Q s s := Iff.rfl

@[simp] lemma leads_modify {f : σ → σ} {Q : Unit → σ → Prop} :
    (modify f : Fallible ε σ Unit).Leads Q E s ↔ Q () (f s) := Iff.rfl

@[simp] lemma leads_bind {x : Fallible ε σ α} {f : α → Fallible ε σ β} {Q : β → σ → Prop} :
    (x >>= f).Leads Q E s ↔ x.Leads (fun a => (f a).Leads Q E) E s := by
  change (match (match x s with
    | (.ok a, s') => f a s'
    | (.error e, s') => (.error e, s')) with
    | (.ok a, s') => Q a s'
    | (.error e, s') => E e s') ↔ _
  unfold Leads
  cases x s with
  | mk r s' => cases r <;> rfl

@[simp] lemma leads_map {f : α → β} {x : Fallible ε σ α} {Q : β → σ → Prop} :
    (f <$> x).Leads Q E s ↔ x.Leads (fun a => Q (f a)) E s :=
  leads_bind (f := fun a => pure (f a))

@[simp] lemma leads_handle {x : Fallible ε σ α} {handler : ε → Fallible ε σ α} :
    (x.handle handler).Leads Q E s ↔ x.Leads Q (fun e => (handler e).Leads Q E) s := by
  unfold Leads handle
  cases x s with
  | mk r s' => cases r <;> rfl

/-- A branch of a computation. -/
lemma leads_ite {c : Prop} [Decidable c] {x y : Fallible ε σ α} :
    (if c then x else y).Leads Q E s ↔ if c then x.Leads Q E s else y.Leads Q E s := by
  split_ifs <;> rfl

/-- Conditions can be weakened. -/
lemma Leads.mono {x : Fallible ε σ α} (h : x.Leads Q E s) (hQ : ∀ a s, Q a s → Q' a s)
    (hE : ∀ e s, E e s → E' e s) : x.Leads Q' E' s := by
  unfold Leads at *
  cases hx : x s with
  | mk r s' =>
    rw [hx] at h
    cases r with
    | ok a => exact hQ a s' h
    | error e => exact hE e s' h

/-- A condition on the state at the end, however the computation ends. -/
lemma leads_final {x : Fallible ε σ α} {P : σ → Prop} :
    x.Leads (fun _ => P) (fun _ => P) s ↔ P (x.final s) := by
  unfold Leads final
  cases x s with
  | mk r s' => cases r <;> rfl

lemma failsAt_eq_some {π : Type} [DecidableEq π] {fails : Option (π × ε)} {point : π} {e : ε} :
    failsAt fails point = some e ↔ fails = some (point, e) := by
  unfold failsAt
  constructor
  · intro h
    obtain ⟨⟨p, e'⟩, hfails, h⟩ := Option.bind_eq_some_iff.mp h
    split_ifs at h with hp
    cases h
    rw [hfails, ← hp]
  · intro h
    rw [h, Option.bind_some, if_pos rfl]

/-- A statement that may stop the computation goes on or raises what the environment raises
there. -/
lemma leads_stopAt {π : Type} [DecidableEq π] {fails : Option (π × ε)} {note : π → ε → σ → σ}
    {point : π} {Q : Unit → σ → Prop} (hQ : Q () s)
    (hE : ∀ e, fails = some (point, e) → E e (note point e s)) :
    (stopAt fails note point).Leads Q E s := by
  unfold Leads stopAt
  cases h : failsAt fails point with
  | none => exact hQ
  | some e => exact hE e (failsAt_eq_some.mp h)

/-- A loop whose body extends what has been done. -/
lemma leads_forEach {ι : Type} {body : ι → Fallible ε σ Unit} {I : List ι → σ → Prop}
    {E : ε → σ → Prop} {items : List ι}
    (hbody : ∀ before i after, items = before ++ i :: after → ∀ s, I before s →
      (body i).Leads (fun _ => I (before ++ [i])) E s) (h : I [] s) :
    (forEach body items).Leads (fun _ => I items) E s := by
  have hrest : ∀ (rest before : List ι) (s : σ), items = before ++ rest → I before s →
      (forEach body rest).Leads (fun _ => I items) E s := by
    intro rest
    induction rest with
    | nil =>
      intro before s heq hs
      rw [heq, List.append_nil]
      exact hs
    | cons i rest ih =>
      intro before s heq hs
      rw [forEach, leads_bind]
      refine (hbody before i rest heq s hs).mono (fun _ s' hs' => ?_) fun _ _ h => h
      exact ih (before ++ [i]) s' (by rw [heq, List.append_assoc]; rfl) hs'
  exact hrest items [] s rfl h

end Rules

end Fallible
