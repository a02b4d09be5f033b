import Mathlib.Data.Fintype.Basic
import Mathlib.Data.List.Pairwise
import Mathlib.Logic.Function.Basic
import VCBrain.Foundation.Guarded

set_option relaxedAutoImplicit false
set_option autoImplicit false

/-!
# Transactions under read committed isolation

Several transactions run statement by statement in any order. A statement sees the rows that are
committed when it runs and the rows its own transaction has inserted. An insertion that clashes
with a row it sees is refused; one that clashes with a row another transaction has not committed yet
has to wait until that transaction ends. So has a statement that updates what another transaction
has updated.

## Main definitions

* `Statement` — what a transaction does next, with the stages its outcomes lead to.
* `State` — the committed rows, and the stage, the uncommitted rows and the locks of every
  transaction.
* `step` — one statement of a transaction; a schedule is a list of transactions, which
  `History.replay` runs.
* `eventStep` — a statement, or the end of a deadlock of two transactions.

## Main results

* `executed_of_step` — everything a statement can do.
* `run_invariant` — what every statement preserves holds after every schedule.
* `Unclashed.executed` — the unique constraints hold throughout, of committed rows and of others.

## Design

The rows of all tables are one list. A transaction that waits stays where it is when it is
scheduled, and a transaction that has stopped takes no step.
-/

namespace ReadCommitted

/-- What a transaction does next: `ρ` are the rows, `κ` what can be locked, and `ℓ` the stages. -/
inductive Statement (ρ κ ℓ : Type*) where
  /-- Read the visible rows. -/
  | select (next : List ρ → ℓ)
  /-- Insert a row under the unique constraints. -/
  | insert (row : ρ) (next onConflict : ℓ)
  /-- Update what the key stands for, and so lock it until the end. -/
  | lock (key : κ) (next : ℓ)
  | commit (next : ℓ)
  | rollback (next : ℓ)
  /-- Nothing is left to do. -/
  | stop

/-- The row that a statement inserts. -/
def Statement.row? {ρ κ ℓ : Type*} : Statement ρ κ ℓ → Option ρ
  | .insert row _ _ => some row
  | _ => none

/-- A transaction: its stage, the rows it has inserted and not committed, and its locks. -/
structure Tx (ρ κ ℓ : Type*) where
  stage : ℓ
  pending : List ρ := []
  locks : List κ := []

/-- The committed rows, and the transactions `T`. -/
structure State (T ρ κ ℓ : Type*) where
  committed : List ρ
  tx : T → Tx ρ κ ℓ

section State

variable {T ρ κ ℓ : Type*} (s : State T ρ κ ℓ)

/-- The state in which the transactions start. -/
def start (rows : List ρ) (stage : T → ℓ) : State T ρ κ ℓ where
  committed := rows
  tx t := { stage := stage t }

/-- The rows a statement of `t` sees. -/
def State.visible (t : T) : List ρ := s.committed ++ (s.tx t).pending

variable {s} in
lemma State.mem_visible {t : T} {r : ρ} :
    r ∈ s.visible t ↔ r ∈ s.committed ∨ r ∈ (s.tx t).pending :=
  List.mem_append

/-- Some transaction sees the row. -/
def State.Holds (r : ρ) : Prop := ∃ t, r ∈ s.visible t

/-- Replace a transaction. -/
def State.put [DecidableEq T] (t : T) (tx : Tx ρ κ ℓ) : State T ρ κ ℓ :=
  { s with tx := Function.update s.tx t tx }

/-- Make the rows of a transaction visible to all, and go on. -/
def State.publish [DecidableEq T] (t : T) (stage : ℓ) : State T ρ κ ℓ where
  committed := s.visible t
  tx := Function.update s.tx t { stage := stage }

variable (Clash : ρ → ρ → Prop)

/-- The row clashes with one the transaction sees. -/
def Refused (t : T) (row : ρ) : Prop := ∃ r ∈ s.visible t, Clash row r

/-- The row clashes with an uncommitted one of another transaction. -/
def Blocked (t : T) (row : ρ) : Prop := ∃ u, u ≠ t ∧ ∃ r ∈ (s.tx u).pending, Clash row r

/-- Another transaction has locked the key. -/
def Locked (t : T) (key : κ) : Prop := ∃ u, u ≠ t ∧ key ∈ (s.tx u).locks

instance [DecidableRel Clash] (t : T) (row : ρ) : Decidable (Refused s Clash t row) :=
  inferInstanceAs (Decidable (∃ r ∈ s.visible t, Clash row r))

instance [Fintype T] [DecidableEq T] [DecidableRel Clash] (t : T) (row : ρ) :
    Decidable (Blocked s Clash t row) :=
  inferInstanceAs (Decidable (∃ u, u ≠ t ∧ ∃ r ∈ (s.tx u).pending, Clash row r))

instance [Fintype T] [DecidableEq T] [DecidableEq κ] (t : T) (key : κ) :
    Decidable (Locked s t key) :=
  inferInstanceAs (Decidable (∃ u, u ≠ t ∧ key ∈ (s.tx u).locks))

end State

/-! ## Statements -/

section Step

variable {T ρ κ ℓ : Type*} [Fintype T] [DecidableEq T] [DecidableEq κ]
  (program : T → ℓ → Statement ρ κ ℓ) (Clash : ρ → ρ → Prop) [DecidableRel Clash]

/-- The next statement of `t`. -/
def step (s : State T ρ κ ℓ) (t : T) : Option (State T ρ κ ℓ) :=
  let tx := s.tx t
  match program t tx.stage with
  | .select next => some (s.put t { tx with stage := next (s.visible t) })
  | .insert row next onConflict =>
    if Refused s Clash t row then some (s.put t { tx with stage := onConflict })
    else if Blocked s Clash t row then some s
    else some (s.put t { tx with stage := next, pending := tx.pending ++ [row] })
  | .lock key next =>
    if Locked s t key then some s
    else some (s.put t { tx with stage := next, locks := tx.locks ++ [key] })
  | .commit next => some (s.publish t next)
  | .rollback next => some (s.put t { stage := next })
  | .stop => none

/-- What a statement of `t` can do to a state. -/
inductive Executed (s : State T ρ κ ℓ) (t : T) : State T ρ κ ℓ → Prop
  | selected {next} (hprogram : program t (s.tx t).stage = .select next) :
      Executed s t (s.put t { s.tx t with stage := next (s.visible t) })
  | refused {row next onConflict}
      (hprogram : program t (s.tx t).stage = .insert row next onConflict)
      (hrefused : Refused s Clash t row) :
      Executed s t (s.put t { s.tx t with stage := onConflict })
  | blocked {row next onConflict}
      (hprogram : program t (s.tx t).stage = .insert row next onConflict)
      (hrefused : ¬ Refused s Clash t row) (hblocked : Blocked s Clash t row) :
      Executed s t s
  | inserted {row next onConflict}
      (hprogram : program t (s.tx t).stage = .insert row next onConflict)
      (hrefused : ¬ Refused s Clash t row) (hblocked : ¬ Blocked s Clash t row) :
      Executed s t
        (s.put t { s.tx t with stage := next, pending := (s.tx t).pending ++ [row] })
  | waiting {key next} (hprogram : program t (s.tx t).stage = .lock key next)
      (hlocked : Locked s t key) : Executed s t s
  | locked {key next} (hprogram : program t (s.tx t).stage = .lock key next)
      (hlocked : ¬ Locked s t key) :
      Executed s t (s.put t { s.tx t with stage := next, locks := (s.tx t).locks ++ [key] })
  | committed {next} (hprogram : program t (s.tx t).stage = .commit next) :
      Executed s t (s.publish t next)
  | rolledBack {next} (hprogram : program t (s.tx t).stage = .rollback next) :
      Executed s t (s.put t { stage := next })

variable {program Clash} {s s' : State T ρ κ ℓ} {t u : T}

/-- A step is one of these. -/
lemma executed_of_step (h : step program Clash s t = some s') :
    Executed program Clash s t s' := by
  unfold step at h
  dsimp only at h
  split at h
  · next hprogram =>
    cases h
    exact .selected hprogram
  · next hprogram =>
    split_ifs at h with hrefused hblocked
    · cases h
      exact .refused hprogram hrefused
    · cases h
      exact .blocked hprogram hrefused hblocked
    · cases h
      exact .inserted hprogram hrefused hblocked
  · next hprogram =>
    split_ifs at h with hlocked
    · cases h
      exact .waiting hprogram hlocked
    · cases h
      exact .locked hprogram hlocked
  · next hprogram =>
    cases h
    exact .committed hprogram
  · next hprogram =>
    cases h
    exact .rolledBack hprogram
  · cases h

lemma step_of_select {next : List ρ → ℓ} (h : program t (s.tx t).stage = .select next) :
    step program Clash s t = some (s.put t { s.tx t with stage := next (s.visible t) }) := by
  simp only [step, h]

lemma step_of_refused {row : ρ} {next onConflict : ℓ}
    (h : program t (s.tx t).stage = .insert row next onConflict)
    (hrefused : Refused s Clash t row) :
    step program Clash s t = some (s.put t { s.tx t with stage := onConflict }) := by
  simp only [step, h, if_pos hrefused]

lemma step_of_inserted {row : ρ} {next onConflict : ℓ}
    (h : program t (s.tx t).stage = .insert row next onConflict)
    (hrefused : ¬ Refused s Clash t row)
    (hblocked : ¬ Blocked s Clash t row) :
    step program Clash s t =
      some (s.put t { s.tx t with stage := next, pending := (s.tx t).pending ++ [row] }) := by
  simp only [step, h, if_neg hrefused, if_neg hblocked]

lemma step_of_commit {next : ℓ} (h : program t (s.tx t).stage = .commit next) :
    step program Clash s t = some (s.publish t next) := by
  simp only [step, h]

lemma step_of_rollback {next : ℓ} (h : program t (s.tx t).stage = .rollback next) :
    step program Clash s t = some (s.put t { stage := next }) := by
  simp only [step, h]

/-- What every statement preserves holds after every schedule. -/
theorem run_invariant {I : State T ρ κ ℓ → Prop}
    (hI : ∀ s t s', I s → Executed program Clash s t s' → I s') (hs : I s) (schedule : List T) :
    I (History.replay (step program Clash) s schedule) :=
  History.replay_invariant _ (fun s t s' h hstep => hI s t s' h (executed_of_step hstep)) hs
    schedule

end Step

/-! ## Deadlocks -/

section Deadlock

variable {T ρ κ ℓ : Type*} (Clash : ρ → ρ → Prop)

/-- The statement, as the next one of `t`, waits for `u`. -/
def Statement.Waits (s : State T ρ κ ℓ) (t u : T) : Statement ρ κ ℓ → Prop
  | .insert row _ _ => ¬ Refused s Clash t row ∧ ∃ r ∈ (s.tx u).pending, Clash row r
  | .lock key _ => key ∈ (s.tx u).locks
  | _ => False

instance [DecidableRel Clash] [DecidableEq κ] (s : State T ρ κ ℓ) (t u : T) :
    ∀ statement : Statement ρ κ ℓ, Decidable (statement.Waits Clash s t u)
  | .insert row _ _ =>
    inferInstanceAs (Decidable (¬ Refused s Clash t row ∧ ∃ r ∈ (s.tx u).pending, Clash row r))
  | .lock key _ => inferInstanceAs (Decidable (key ∈ (s.tx u).locks))
  | .select _ => .isFalse id
  | .commit _ => .isFalse id
  | .rollback _ => .isFalse id
  | .stop => .isFalse id

variable [Fintype T] [DecidableEq T] [DecidableEq κ] (program : T → ℓ → Statement ρ κ ℓ)
  [DecidableRel Clash]

/-- The next statement of `t` waits for `u`. -/
def WaitsFor (s : State T ρ κ ℓ) (t u : T) : Prop :=
  (program t (s.tx t).stage).Waits Clash s t u

/-- The transaction waits for another one that waits for it. -/
def Deadlocked (s : State T ρ κ ℓ) (t : T) : Prop :=
  ∃ u, u ≠ t ∧ WaitsFor Clash program s t u ∧ WaitsFor Clash program s u t

instance (s : State T ρ κ ℓ) (t u : T) : Decidable (WaitsFor Clash program s t u) :=
  inferInstanceAs (Decidable ((program t (s.tx t).stage).Waits Clash s t u))

instance (s : State T ρ κ ℓ) (t : T) : Decidable (Deadlocked Clash program s t) :=
  inferInstanceAs
    (Decidable (∃ u, u ≠ t ∧ WaitsFor Clash program s t u ∧ WaitsFor Clash program s u t))

/-- What happens next: a statement runs, or a deadlocked transaction is rolled back. -/
inductive Event (T : Type*) where
  | statement (t : T)
  | victim (t : T)

/-- One event; `abort` is the stage of a transaction after the database has rolled it back. -/
def eventStep (abort : ℓ → ℓ) (s : State T ρ κ ℓ) : Event T → Option (State T ρ κ ℓ)
  | .statement t => step program Clash s t
  | .victim t =>
    if Deadlocked Clash program s t then some (s.put t { stage := abort (s.tx t).stage }) else none

end Deadlock

/-! ## The transactions of a state -/

section Frame

variable {T ρ κ ℓ : Type*} [DecidableEq T] {s : State T ρ κ ℓ} {t u : T} {tx : Tx ρ κ ℓ}
  {stage : ℓ}

@[simp] lemma State.put_committed : (s.put t tx).committed = s.committed := rfl

@[simp] lemma State.put_tx_self : (s.put t tx).tx t = tx := Function.update_self ..

@[simp] lemma State.put_tx_of_ne (h : u ≠ t) : (s.put t tx).tx u = s.tx u :=
  Function.update_of_ne h ..

@[simp] lemma State.publish_committed : (s.publish t stage).committed = s.visible t := rfl

@[simp] lemma State.publish_tx_self : (s.publish t stage).tx t = { stage := stage } :=
  Function.update_self ..

@[simp] lemma State.publish_tx_of_ne (h : u ≠ t) : (s.publish t stage).tx u = s.tx u :=
  Function.update_of_ne h ..

@[simp] lemma State.visible_put_self : (s.put t tx).visible t = s.committed ++ tx.pending := by
  rw [visible, put_tx_self, put_committed]

lemma State.visible_put_of_ne (h : u ≠ t) : (s.put t tx).visible u = s.visible u := by
  rw [visible, put_tx_of_ne h, put_committed, visible]

@[simp] lemma State.visible_publish_self : (s.publish t stage).visible t = s.visible t := by
  rw [visible, publish_tx_self, publish_committed, List.append_nil]

lemma State.visible_publish_of_ne (h : u ≠ t) :
    (s.publish t stage).visible u = s.visible t ++ (s.tx u).pending := by
  rw [visible, publish_tx_of_ne h, publish_committed]

/-- A transaction that inserts nothing changes no rows. -/
lemma State.holds_put {r : ρ} (h : tx.pending = (s.tx t).pending) :
    (s.put t tx).Holds r ↔ s.Holds r := by
  refine exists_congr fun u => ?_
  by_cases hu : u = t
  · subst hu
    rw [visible_put_self, h]
    rfl
  · rw [visible_put_of_ne hu]

/-- A transaction that inserts a row adds it. -/
lemma State.holds_put_insert {r row : ρ} (h : tx.pending = (s.tx t).pending ++ [row]) :
    (s.put t tx).Holds r ↔ s.Holds r ∨ r = row := by
  constructor
  · rintro ⟨u, hu⟩
    by_cases hut : u = t
    · subst hut
      rw [visible_put_self, h, ← List.append_assoc] at hu
      rcases List.mem_append.mp hu with hu | hu
      · exact Or.inl ⟨u, hu⟩
      · exact Or.inr (List.mem_singleton.mp hu)
    · rw [visible_put_of_ne hut] at hu
      exact Or.inl ⟨u, hu⟩
  · rintro (⟨u, hu⟩ | rfl)
    · by_cases hut : u = t
      · subst hut
        refine ⟨u, ?_⟩
        rw [visible_put_self, h, ← List.append_assoc]
        exact List.mem_append_left _ hu
      · exact ⟨u, by rwa [visible_put_of_ne hut]⟩
    · refine ⟨t, ?_⟩
      rw [visible_put_self, h]
      simp

/-- A commit changes no rows, only who sees them. -/
lemma State.holds_publish {r : ρ} : (s.publish t stage).Holds r ↔ s.Holds r := by
  constructor
  · rintro ⟨u, hu⟩
    by_cases hut : u = t
    · subst hut
      rw [visible_publish_self] at hu
      exact ⟨u, hu⟩
    · rw [visible_publish_of_ne hut] at hu
      rcases List.mem_append.mp hu with hu | hu
      · exact ⟨t, hu⟩
      · exact ⟨u, mem_visible.mpr (Or.inr hu)⟩
  · rintro ⟨u, hu⟩
    by_cases hut : u = t
    · subst hut
      exact ⟨u, by rwa [visible_publish_self]⟩
    · rcases mem_visible.mp hu with hu | hu
      · exact ⟨t, by rw [visible_publish_self]; exact mem_visible.mpr (Or.inl hu)⟩
      · exact ⟨u, by rw [visible_publish_of_ne hut]; exact List.mem_append_right _ hu⟩

/-- A commit hides no rows. -/
lemma State.visible_subset_publish : s.visible u ⊆ (s.publish t stage).visible u := by
  by_cases hut : u = t
  · subst hut
    rw [visible_publish_self]
    exact List.Subset.refl _
  · rw [visible_publish_of_ne hut]
    intro r hr
    rcases mem_visible.mp hr with hr | hr
    · exact List.mem_append_left _ (mem_visible.mpr (Or.inl hr))
    · exact List.mem_append_right _ hr

end Frame

/-! ## Unique constraints -/

section Unique

variable {T ρ κ ℓ : Type*} {Clash : ρ → ρ → Prop} {s s' : State T ρ κ ℓ} {t u : T}

/-- No two rows clash, committed or not. -/
structure Unclashed (Clash : ρ → ρ → Prop) (s : State T ρ κ ℓ) : Prop where
  seen : ∀ t, (s.visible t).Pairwise fun r q => ¬ Clash r q
  apart : ∀ t u, t ≠ u → ∀ r ∈ (s.tx t).pending, ∀ q ∈ (s.tx u).pending, ¬ Clash r q

/-- The constraints hold where the transactions start, if they hold of the rows. -/
lemma unclashed_start {rows : List ρ} {stage : T → ℓ}
    (h : rows.Pairwise fun r q => ¬ Clash r q) :
    Unclashed Clash (start rows stage : State T ρ κ ℓ) where
  seen t := by
    rw [State.visible, start, List.append_nil]
    exact h
  apart t u _ r hr := absurd hr List.not_mem_nil

/-- A row that is neither refused nor blocked clashes with none. -/
lemma not_clash_of_free {r row : ρ} (hrefused : ¬ Refused s Clash t row)
    (hblocked : ¬ Blocked s Clash t row) (hr : s.Holds r) : ¬ Clash row r := by
  obtain ⟨u, hr⟩ := hr
  by_cases hu : u = t
  · subst hu
    exact fun hclash => hrefused ⟨r, hr, hclash⟩
  · rcases State.mem_visible.mp hr with hr | hr
    · exact fun hclash => hrefused ⟨r, State.mem_visible.mpr (Or.inl hr), hclash⟩
    · exact fun hclash => hblocked ⟨u, hu, r, hr, hclash⟩

/-- Two rows that clash are one. -/
lemma Unclashed.eq_of_clash (hsymm : ∀ r q, Clash r q → Clash q r) (h : Unclashed Clash s)
    {r q : ρ} (hr : s.Holds r) (hq : s.Holds q) (hclash : Clash r q) : r = q := by
  have hsame : ∀ t, r ∈ s.visible t → q ∈ s.visible t → r = q := by
    intro t hr hq
    by_contra hne
    have hsymm' : Std.Symm fun r q => ¬ Clash r q := ⟨fun a b hab hba => hab (hsymm b a hba)⟩
    exact (h.seen t).forall hr hq hne hclash
  obtain ⟨t, hr⟩ := hr
  obtain ⟨u, hq⟩ := hq
  rcases State.mem_visible.mp hr with hrc | hrp
  · exact hsame u (State.mem_visible.mpr (Or.inl hrc)) hq
  · rcases State.mem_visible.mp hq with hqc | hqp
    · exact hsame t hr (State.mem_visible.mpr (Or.inl hqc))
    · by_cases htu : t = u
      · subst htu
        exact hsame t hr hq
      · exact absurd hclash (h.apart t u htu r hrp q hqp)

variable [DecidableEq T]

/-- A transaction that inserts nothing leaves the constraints alone. -/
lemma Unclashed.put {tx : Tx ρ κ ℓ} (h : Unclashed Clash s)
    (htx : tx.pending.Sublist (s.tx t).pending) : Unclashed Clash (s.put t tx) := by
  have hpending : ∀ u, ((s.put t tx).tx u).pending.Sublist (s.tx u).pending := by
    intro u
    by_cases hu : u = t
    · subst hu
      rwa [State.put_tx_self]
    · rw [State.put_tx_of_ne hu]
  refine ⟨fun u => (h.seen u).sublist ((List.Sublist.refl _).append (hpending u)), ?_⟩
  intro u v huv r hr q hq
  exact h.apart u v huv r ((hpending u).subset hr) q ((hpending v).subset hq)

/-- **The unique constraints.** Every statement keeps the rows free of clashes.

**Proof sketch.** A row is only inserted if it clashes with none that its transaction sees and with
none that is uncommitted, and a commit moves rows from one of these groups to the other. -/
theorem Unclashed.executed [Fintype T] [DecidableEq κ] [DecidableRel Clash]
    {program : T → ℓ → Statement ρ κ ℓ} (hsymm : ∀ r q, Clash r q → Clash q r)
    (h : Unclashed Clash s) (hstep : Executed program Clash s t s') : Unclashed Clash s' := by
  cases hstep with
  | selected hprogram => exact h.put (List.Sublist.refl _)
  | refused hprogram hrefused => exact h.put (List.Sublist.refl _)
  | blocked hprogram hrefused hblocked => exact h
  | @inserted row next onConflict hprogram hrefused hblocked =>
    have hrow : ∀ u, u ≠ t → ∀ r ∈ (s.tx u).pending, ¬ Clash row r := fun u hu r hr hclash =>
      hblocked ⟨u, hu, r, hr, hclash⟩
    refine ⟨fun u => ?_, fun u v huv r hr q hq => ?_⟩
    · by_cases hu : u = t
      · subst hu
        rw [State.visible, State.put_tx_self, State.put_committed, ← List.append_assoc,
          List.pairwise_append]
        refine ⟨h.seen u, List.pairwise_singleton _ _, fun r hr q hq hclash => ?_⟩
        rw [List.mem_singleton.mp hq] at hclash
        exact hrefused ⟨r, hr, hsymm r row hclash⟩
      · rw [State.visible, State.put_tx_of_ne hu]
        exact h.seen u
    · by_cases hu : u = t
      · subst hu
        rw [State.put_tx_self] at hr
        rw [State.put_tx_of_ne huv.symm] at hq
        rcases List.mem_append.mp hr with hr | hr
        · exact h.apart u v huv r hr q hq
        · rw [List.mem_singleton.mp hr]
          exact hrow v huv.symm q hq
      · rw [State.put_tx_of_ne hu] at hr
        by_cases hv : v = t
        · subst hv
          rw [State.put_tx_self] at hq
          rcases List.mem_append.mp hq with hq | hq
          · exact h.apart u v huv r hr q hq
          · rw [List.mem_singleton.mp hq]
            exact fun hclash => hrow u huv r hr (hsymm r row hclash)
        · rw [State.put_tx_of_ne hv] at hq
          exact h.apart u v huv r hr q hq
  | waiting hprogram hlocked => exact h
  | locked hprogram hlocked => exact h.put (List.Sublist.refl _)
  | @committed next hprogram =>
    refine ⟨fun u => ?_, fun u v huv r hr q hq => ?_⟩
    · by_cases hu : u = t
      · subst hu
        rw [State.visible, State.publish_tx_self, State.publish_committed, List.append_nil]
        exact h.seen u
      · rw [State.visible, State.publish_tx_of_ne hu, State.publish_committed,
          List.pairwise_append]
        refine ⟨h.seen t, ((List.pairwise_append.mp (h.seen u)).2.1), fun r hr q hq => ?_⟩
        rcases State.mem_visible.mp hr with hr | hr
        · exact (List.pairwise_append.mp (h.seen u)).2.2 r hr q hq
        · exact h.apart t u (Ne.symm hu) r hr q hq
    · by_cases hu : u = t
      · subst hu
        rw [State.publish_tx_self] at hr
        cases hr
      · by_cases hv : v = t
        · subst hv
          rw [State.publish_tx_self] at hq
          cases hq
        · rw [State.publish_tx_of_ne hu] at hr
          rw [State.publish_tx_of_ne hv] at hq
          exact h.apart u v huv r hr q hq
  | rolledBack hprogram => exact h.put (List.nil_sublist _)

end Unique

end ReadCommitted
