import Mathlib.Tactic.Common

set_option relaxedAutoImplicit false
set_option autoImplicit false

/-!
# Histories of transactions

A transaction takes a state to a new one or fails, and a failed transaction is rolled back.
A history is a list of transactions run one after another. A *duty* is what a committed
transaction has to establish; a *guard* is a condition on the state before it. This file
relates the two: when, from every state of an invariant, a transaction meets its duty exactly
if it meets its guard, a whole history meets its duties exactly if it meets its guards.

## Main definitions

* `History.replay` — the state after a history, failed transactions rolled back.
* `History.Meets` — every committed transaction of a history meets its duty.
* `History.Guarded` — every committed transaction of a history meets its guard.
* `History.Along` — every committed transaction of a history relates the states around it.

## Main results

* `History.meets_iff_guarded` — the rule above.
* `History.replay_invariant` — what every committed step preserves holds after a history.
* `History.along_iff_guarded`, `History.along_iff_forall_points` — the same for a relation between
  the states before and after; a preorder then relates any two points of a history.
-/

namespace History

variable {σ ε : Type*} (step : σ → ε → Option σ)

/-- The state after one transaction, the old one if it fails. -/
def commit (s : σ) (e : ε) : σ := (step s e).getD s

/-- The state after a history. -/
def replay (s : σ) (es : List ε) : σ := es.foldl (commit step) s

@[simp] lemma replay_nil (s : σ) : replay step s [] = s := rfl

@[simp] lemma replay_cons (s : σ) (e : ε) (es : List ε) :
    replay step s (e :: es) = replay step (commit step s e) es := rfl

lemma replay_append (s : σ) (es fs : List ε) :
    replay step s (es ++ fs) = replay step (replay step s es) fs := List.foldl_append ..

lemma commit_of_some {s u : σ} {e : ε} (h : step s e = some u) : commit step s e = u := by
  simp [commit, h]

lemma commit_of_none {s : σ} {e : ε} (h : step s e = none) : commit step s e = s := by
  simp [commit, h]

/-- Every committed transaction of the history meets its duty `Q e` in the state it leaves. -/
def Meets (Q : ε → σ → Prop) : σ → List ε → Prop
  | _, [] => True
  | s, e :: es => (∀ u, step s e = some u → Q e u) ∧ Meets Q (commit step s e) es

/-- Every committed transaction of the history meets its guard `C · e` in the state it finds. -/
def Guarded (C : σ → ε → Prop) : σ → List ε → Prop
  | _, [] => True
  | s, e :: es => (∀ u, step s e = some u → C s e) ∧ Guarded C (commit step s e) es

/-- Duties can be checked by replaying the history. -/
instance decidableMeets {Q : ε → σ → Prop} [∀ e, DecidablePred (Q e)] :
    ∀ s es, Decidable (Meets step Q s es)
  | _, [] => .isTrue trivial
  | s, e :: es =>
    have := decidableMeets (Q := Q) (commit step s e) es
    inferInstanceAs (Decidable ((∀ u ∈ step s e, Q e u) ∧ Meets step Q (commit step s e) es))

/-- Guards can be checked by replaying the history. -/
instance decidableGuarded {C : σ → ε → Prop} [∀ s, DecidablePred (C s)] :
    ∀ s es, Decidable (Guarded step C s es)
  | _, [] => .isTrue trivial
  | s, e :: es =>
    have := decidableGuarded (C := C) (commit step s e) es
    inferInstanceAs (Decidable ((∀ u ∈ step s e, C s e) ∧ Guarded step C (commit step s e) es))

/-- What every committed transaction preserves holds after every history. -/
theorem replay_invariant {I : σ → Prop}
    (hI : ∀ s e u, I s → step s e = some u → I u) {s : σ} (hs : I s) (es : List ε) :
    I (replay step s es) := by
  induction es generalizing s with
  | nil => exact hs
  | cons e es ih =>
    cases h : step s e with
    | none => rw [replay_cons, commit_of_none step h]; exact ih hs
    | some u => rw [replay_cons, commit_of_some step h]; exact ih (hI s e u hs h)

/-- What every committed transaction that meets its guard preserves holds after every history that
meets its guards. -/
theorem replay_of_guarded {I : σ → Prop} {C : σ → ε → Prop}
    (hI : ∀ s e u, I s → step s e = some u → C s e → I u) {s : σ} (hs : I s) {es : List ε}
    (hguarded : Guarded step C s es) : I (replay step s es) := by
  induction es generalizing s with
  | nil => exact hs
  | cons e es ih =>
    cases h : step s e with
    | none =>
      rw [replay_cons, commit_of_none step h]
      exact ih hs (commit_of_none step h ▸ hguarded.2)
    | some u =>
      rw [replay_cons, commit_of_some step h]
      exact ih (hI s e u hs h (hguarded.1 u h)) (commit_of_some step h ▸ hguarded.2)

/-- If from the states of an invariant a committed transaction that meets one guard meets another
and leads back into the invariant, a history that meets the one throughout meets the other. -/
theorem guarded_of_guarded {I : σ → Prop} {C D : σ → ε → Prop}
    (hI : ∀ s e u, I s → step s e = some u → C s e → I u ∧ D s e) {s : σ} (hs : I s) {es : List ε}
    (hguarded : Guarded step C s es) : Guarded step D s es := by
  induction es generalizing s with
  | nil => trivial
  | cons e es ih =>
    refine ⟨fun u hu => (hI s e u hs hu (hguarded.1 u hu)).2, ?_⟩
    cases h : step s e with
    | none =>
      rw [commit_of_none step h]
      exact ih hs (commit_of_none step h ▸ hguarded.2)
    | some u =>
      rw [commit_of_some step h]
      exact ih (hI s e u hs h (hguarded.1 u h)).1 (commit_of_some step h ▸ hguarded.2)

/-- What every committed transaction establishes from the states of an invariant is met throughout
a history. -/
theorem meets_of_invariant {I : σ → Prop} {Q : ε → σ → Prop}
    (hI : ∀ s e u, I s → step s e = some u → I u ∧ Q e u) {s : σ} (hs : I s) (es : List ε) :
    Meets step Q s es := by
  induction es generalizing s with
  | nil => trivial
  | cons e es ih =>
    refine ⟨fun u hu => (hI s e u hs hu).2, ?_⟩
    cases h : step s e with
    | none =>
      rw [commit_of_none step h]
      exact ih hs
    | some u =>
      rw [commit_of_some step h]
      exact ih (hI s e u hs h).1

/-! ## Duties against guards -/

/-- Every committed transaction of the history relates the state it finds to the one it leaves. -/
def Along (R : σ → ε → σ → Prop) : σ → List ε → Prop
  | _, [] => True
  | s, e :: es => (∀ u, step s e = some u → R s e u) ∧ Along R (commit step s e) es

/-- What every committed transaction relates holds along every history. -/
theorem along_of_step {R : σ → ε → σ → Prop} (hR : ∀ s e u, step s e = some u → R s e u) (s : σ)
    (es : List ε) : Along step R s es := by
  induction es generalizing s with
  | nil => trivial
  | cons e es ih => exact ⟨fun u hu => hR s e u hu, ih _⟩

/-- A duty is a relation that does not look at the state before. -/
lemma meets_iff_along {Q : ε → σ → Prop} {s : σ} {es : List ε} :
    Meets step Q s es ↔ Along step (fun _ e u => Q e u) s es := by
  induction es generalizing s with
  | nil => exact Iff.rfl
  | cons e es ih => exact and_congr Iff.rfl ih

/-- **Relations against guards.** If from the states of `I` a committed transaction relates the
states around it exactly when it meets its guard, and then leads back into `I`, a history does so
throughout exactly when it meets all its guards.

**Proof sketch.** Induction on the history. The first committed transaction does both or
neither; if both, its result is in `I` and the induction hypothesis applies to the rest. -/
theorem along_iff_guarded {I : σ → Prop} {R : σ → ε → σ → Prop} {C : σ → ε → Prop}
    (hRC : ∀ s e u, I s → step s e = some u → (R s e u ↔ C s e))
    (hI : ∀ s e u, I s → step s e = some u → R s e u → I u) {s : σ} (hs : I s) (es : List ε) :
    Along step R s es ↔ Guarded step C s es := by
  induction es generalizing s with
  | nil => exact Iff.rfl
  | cons e es ih =>
    simp only [Along, Guarded]
    cases h : step s e with
    | none => simp [commit_of_none step h, ih hs]
    | some u =>
      rw [commit_of_some step h]
      have hfirst := hRC s e u hs h
      constructor
      · rintro ⟨hr, hrest⟩
        have hru : R s e u := hr u rfl
        exact ⟨fun _ _ => hfirst.mp hru, (ih (hI s e u hs h hru)).mp hrest⟩
      · rintro ⟨hc, hrest⟩
        have hru : R s e u := hfirst.mpr (hc u rfl)
        exact ⟨fun v hv => Option.some.inj hv ▸ hru, (ih (hI s e u hs h hru)).mpr hrest⟩

/-- **Duties against guards.** If from the states of `I` a committed transaction meets its duty
exactly when it meets its guard, and a transaction that meets its duty leads back into `I`,
then a history meets all its duties exactly when it meets all its guards. -/
theorem meets_iff_guarded {I : σ → Prop} {Q : ε → σ → Prop} {C : σ → ε → Prop}
    (hQC : ∀ s e u, I s → step s e = some u → (Q e u ↔ C s e))
    (hI : ∀ s e u, I s → step s e = some u → Q e u → I u) {s : σ} (hs : I s) (es : List ε) :
    Meets step Q s es ↔ Guarded step C s es :=
  (meets_iff_along step).trans (along_iff_guarded step hQC hI hs es)

/-! ## Points of a history -/

/-- What a preorder relates along a history it relates from the first point to the last. -/
lemma Along.replay {R : σ → σ → Prop} (hrefl : ∀ s, R s s)
    (htrans : ∀ s t u, R s t → R t u → R s u) {s : σ} {es : List ε}
    (h : Along step (fun s _ u => R s u) s es) :
    R s (replay step s es) := by
  induction es generalizing s with
  | nil => exact hrefl s
  | cons e es ih =>
    refine htrans s (commit step s e) _ ?_ (ih h.2)
    cases hstep : step s e with
    | none =>
      rw [commit_of_none step hstep]
      exact hrefl s
    | some u =>
      rw [commit_of_some step hstep]
      exact h.1 u hstep

/-- A history relates the states around its transactions if its two parts do. -/
lemma along_append {R : σ → ε → σ → Prop} {s : σ} {es fs : List ε} :
    Along step R s (es ++ fs) ↔ Along step R s es ∧ Along step R (replay step s es) fs := by
  induction es generalizing s with
  | nil => simp [Along]
  | cons e es ih => simp only [List.cons_append, Along, ih, replay_cons, and_assoc]

/-- **Any two points of a history.** A preorder holds along a history exactly if it relates every
point of the history to every later one. -/
theorem along_iff_forall_points {R : σ → σ → Prop} (hrefl : ∀ s, R s s)
    (htrans : ∀ s t u, R s t → R t u → R s u) {s : σ} {es : List ε} :
    Along step (fun s _ u => R s u) s es ↔ ∀ before between after, es = before ++ between ++ after →
      R (replay step s before) (replay step s (before ++ between)) := by
  constructor
  · rintro h before between after rfl
    rw [along_append, along_append] at h
    rw [replay_append]
    exact h.1.2.replay step hrefl htrans
  · intro h
    induction es generalizing s with
    | nil => trivial
    | cons e es ih =>
      refine ⟨fun u hu => ?_, ih fun before between after heq => ?_⟩
      · have hfirst := h [] [e] es rfl
        rwa [replay_nil, List.nil_append, replay_cons, replay_nil, commit_of_some step hu] at hfirst
      · exact h (e :: before) between after (by rw [heq]; rfl)

end History
