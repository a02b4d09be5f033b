import Mathlib.Data.Fintype.Basic
import Mathlib.Data.List.Nodup
import Mathlib.Logic.Function.Basic
import VCBrain.Scoring.ThesisPin

set_option relaxedAutoImplicit false
set_option autoImplicit false

/-!
# Concurrent saves of the thesis

A save counts the theses, deactivates the active ones and inserts the next version. Several saves
run at once under read committed isolation, so a save may number its version by a count that is no
longer true when it inserts it.

## Main definitions

* `SaveStage`, `Save`, `SaveState` — the saves, and the theses that are committed.
* `saveStep` — the next statement of a save, or its failure.
* `SaveInv` — what holds of the saves in every state.

## Main results

* `saves_serializable` — the committed theses are those of the committed saves one after the other.

## Design

An update finds the rows that are active when it starts and goes through them one by one. It waits
for a row that another save has updated, and looks at it again when that save has ended. An
insertion waits for an uncommitted row it clashes with. A save that waits takes no step. It may fail
at any point, in the rescoring or by a lost connection.
-/

namespace VCBrain

/-! ## The statements of a save -/

/-- The place of a save in `save_active_thesis`. -/
inductive SaveStage where
  /-- The theses are counted next. -/
  | counting
  /-- The update of the active theses starts next. -/
  | deactivating (count : ℕ)
  /-- The update goes through the rows that it has found, and the insertion follows. -/
  | updating (count : ℕ) (targets : List Uuid)
  /-- The thesis is inserted, and the candidates are rescored before the commit. -/
  | rescoring
  | saved
  | failed
deriving DecidableEq

/-- A save: its stage, the rows it has deactivated, and the row it has inserted. -/
structure Save where
  stage : SaveStage := .counting
  locks : List Uuid := []
  pending : Option InvestmentThesis := none

/-- The committed theses, and the saves `T`. -/
structure SaveState (T : Type) where
  theses : List InvestmentThesis
  save : T → Save

/-- What happens next to a save. -/
inductive SaveEvent (T : Type) where
  | statement (t : T)
  | failure (t : T)

/-- The row that a save inserts after it has counted the theses. -/
def newThesis (id : Uuid) (now : Time) (count : ℕ) : InvestmentThesis :=
  { id := id, version := thesisVersionText (count + 1), isActive := true, createdAt := now }

/-- The unique constraints: of the identifier, of the version, and of the active thesis. -/
def InvestmentThesis.Clashes (row r : InvestmentThesis) : Prop :=
  r.id = row.id ∨ r.version = row.version ∨ (row.isActive = true ∧ r.isActive = true)

instance (row r : InvestmentThesis) : Decidable (row.Clashes r) :=
  inferInstanceAs (Decidable (_ ∨ _))

/-- The theses after the update of these rows. -/
def deactivate (ids : List Uuid) (theses : List InvestmentThesis) : List InvestmentThesis :=
  theses.map fun t => if t.id ∈ ids then { t with isActive := false } else t

/-- The rows that the update finds. -/
def activeIds (theses : List InvestmentThesis) : List Uuid :=
  (theses.filter fun t => t.isActive).map InvestmentThesis.id

/-- The state before the saves. -/
def saveStart (T : Type) (theses : List InvestmentThesis) : SaveState T where
  theses := theses
  save _ := {}

section Statements

variable {T : Type} [DecidableEq T]

/-- Another save has updated the row. -/
def SaveState.Locked (s : SaveState T) (t : T) (id : Uuid) : Prop :=
  ∃ u, u ≠ t ∧ id ∈ (s.save u).locks

instance [Fintype T] (s : SaveState T) (t : T) (id : Uuid) : Decidable (s.Locked t id) :=
  inferInstanceAs (Decidable (∃ u, u ≠ t ∧ id ∈ (s.save u).locks))

/-- The row clashes with a row that no other save is changing. -/
def SaveState.Refuses (s : SaveState T) (t : T) (row : InvestmentThesis) : Prop :=
  ∃ r ∈ deactivate (s.save t).locks s.theses, ¬ s.Locked t r.id ∧ row.Clashes r

/-- The row clashes with a row that another save is changing or has inserted. -/
def SaveState.Delays (s : SaveState T) (t : T) (row : InvestmentThesis) : Prop :=
  (∃ r ∈ s.theses, s.Locked t r.id ∧ row.Clashes r) ∨
    ∃ u, u ≠ t ∧ ∃ r ∈ (s.save u).pending, row.Clashes r

instance [Fintype T] (s : SaveState T) (t : T) (row : InvestmentThesis) :
    Decidable (s.Refuses t row) :=
  inferInstanceAs (Decidable (∃ r ∈ deactivate (s.save t).locks s.theses, _))

instance [Fintype T] (s : SaveState T) (t : T) (row : InvestmentThesis) :
    Decidable (s.Delays t row) :=
  inferInstanceAs (Decidable ((∃ r ∈ s.theses, s.Locked t r.id ∧ row.Clashes r) ∨
    ∃ u, u ≠ t ∧ ∃ r ∈ (s.save u).pending, row.Clashes r))

/-- Replace a save. -/
def SaveState.put (s : SaveState T) (t : T) (save : Save) : SaveState T :=
  { s with save := Function.update s.save t save }

/-- The commit of a save. -/
def SaveState.publish (s : SaveState T) (t : T) : SaveState T where
  theses := deactivate (s.save t).locks s.theses ++ (s.save t).pending.toList
  save := Function.update s.save t { stage := .saved }

section Frame

variable {s : SaveState T} {t u : T} {save : Save}

@[simp] lemma SaveState.put_theses : (s.put t save).theses = s.theses := rfl

@[simp] lemma SaveState.put_save_self : (s.put t save).save t = save := Function.update_self ..

@[simp] lemma SaveState.put_save_of_ne (h : u ≠ t) : (s.put t save).save u = s.save u :=
  Function.update_of_ne h ..

@[simp] lemma SaveState.publish_save_self : (s.publish t).save t = { stage := .saved } :=
  Function.update_self ..

@[simp] lemma SaveState.publish_save_of_ne (h : u ≠ t) : (s.publish t).save u = s.save u :=
  Function.update_of_ne h ..

end Frame

variable [Fintype T] (id : T → Uuid) (now : T → Time)

/-- The next statement of a save, or its failure. -/
def saveStep (s : SaveState T) : SaveEvent T → Option (SaveState T)
  | .statement t =>
    let save := s.save t
    match save.stage with
    | .counting => some (s.put t { save with stage := .deactivating s.theses.length })
    | .deactivating count =>
      some (s.put t { save with stage := .updating count (activeIds s.theses) })
    | .updating count (target :: targets) =>
      if s.Locked t target then none
      -- The row is looked at again: it may have been updated since the update has found it.
      else if ∃ r ∈ s.theses, r.id = target ∧ r.isActive = true then
        some (s.put t
          { save with stage := .updating count targets, locks := save.locks ++ [target] })
      else some (s.put t { save with stage := .updating count targets })
    | .updating count [] =>
      let row := newThesis (id t) (now t) count
      if s.Refuses t row then some (s.put t { stage := .failed })
      else if s.Delays t row then none
      else some (s.put t { save with stage := .rescoring, pending := some row })
    | .rescoring => some (s.publish t)
    | .saved | .failed => none
  | .failure t =>
    match (s.save t).stage with
    | .saved | .failed => none
    | _ => some (s.put t { stage := .failed })

/-- What can happen to a save. -/
inductive SaveMove (s : SaveState T) (t : T) : SaveState T → Prop
  | counted (hstage : (s.save t).stage = .counting) :
      SaveMove s t (s.put t { s.save t with stage := .deactivating s.theses.length })
  | found {count} (hstage : (s.save t).stage = .deactivating count) :
      SaveMove s t (s.put t { s.save t with stage := .updating count (activeIds s.theses) })
  | updated {count target targets}
      (hstage : (s.save t).stage = .updating count (target :: targets)) :
      SaveMove s t (s.put t { s.save t with
        stage := .updating count targets, locks := (s.save t).locks ++ [target] })
  | skipped {count target targets}
      (hstage : (s.save t).stage = .updating count (target :: targets))
      (hinactive : ∀ r ∈ s.theses, r.isActive = true → r.id ≠ target) :
      SaveMove s t (s.put t { s.save t with stage := .updating count targets })
  | inserted {count} (hstage : (s.save t).stage = .updating count [])
      (hrefused : ¬ s.Refuses t (newThesis (id t) (now t) count))
      (hdelayed : ¬ s.Delays t (newThesis (id t) (now t) count)) :
      SaveMove s t (s.put t { s.save t with
        stage := .rescoring, pending := some (newThesis (id t) (now t) count) })
  | committed (hstage : (s.save t).stage = .rescoring) : SaveMove s t (s.publish t)
  | failed (hstage : (s.save t).stage ≠ .saved) : SaveMove s t (s.put t { stage := .failed })

variable {id now} {s s' : SaveState T} {t u : T}

/-- A step is one of these. -/
lemma saveMove_of_step {e : SaveEvent T} (h : saveStep id now s e = some s') :
    ∃ t, SaveMove id now s t s' := by
  cases e with
  | statement t =>
    refine ⟨t, ?_⟩
    simp only [saveStep] at h
    split at h
    · next hstage => cases h; exact .counted hstage
    · next hstage => cases h; exact .found hstage
    · next hstage =>
      split_ifs at h with hlocked hactive
      · cases h
        exact .updated hstage
      · cases h
        exact .skipped hstage fun r hr hra hid => hactive ⟨r, hr, hid, hra⟩
    · next hstage =>
      split_ifs at h with hrefused hdelayed
      · cases h
        exact .failed (by rw [hstage]; exact SaveStage.noConfusion)
      · cases h
        exact .inserted hstage hrefused hdelayed
    · next hstage => cases h; exact .committed hstage
    · cases h
    · cases h
  | failure t =>
    refine ⟨t, ?_⟩
    simp only [saveStep] at h
    split at h
    · cases h
    · cases h
    · next hsaved hfailed =>
      cases h
      exact .failed hsaved

end Statements

/-! ## Serial saves -/

section Serial

variable {T : Type} (order : RowOrder (Uuid × Opportunity)) (id : T → Uuid) (now : T → Time)

/-- The saves one after the other. -/
def serialSaves (saves : List T) (st : ThesisState) : Option ThesisState :=
  saves.foldlM (fun st t => saveActiveThesis order (id t) (now t) st) st

variable {order id now}

lemma serialSaves_concat {saves : List T} {t : T} {st : ThesisState} :
    serialSaves order id now (saves ++ [t]) st =
      (serialSaves order id now saves st).bind (saveActiveThesis order (id t) (now t)) := by
  simp [serialSaves, List.foldlM_append, Option.bind_eq_bind]

/-- A save whose identifier and version are new leaves its thesis as the active one. -/
lemma saveActiveThesis_of_fresh {uuid : Uuid} {time : Time} {st : ThesisState}
    (hfresh : ∀ r ∈ st.theses, r.id ≠ uuid ∧ r.version ≠ thesisVersionText (st.theses.length + 1)) :
    ∃ st', saveActiveThesis order uuid time st = some st' ∧
      st'.theses = st.theses.map (fun r => { r with isActive := false }) ++
        [newThesis uuid time st.theses.length] := by
  refine ⟨_, if_neg ?_, rfl⟩
  rintro ⟨r, hr, hid | hversion⟩
  · exact (hfresh r hr).1 hid
  · exact (hfresh r hr).2 hversion

/-- What a save leaves, if it is not refused. -/
lemma theses_of_saveActiveThesis {uuid : Uuid} {time : Time} {st st' : ThesisState}
    (h : saveActiveThesis order uuid time st = some st') :
    st'.theses = st.theses.map (fun r => { r with isActive := false }) ++
      [newThesis uuid time st.theses.length] := by
  simp only [saveActiveThesis] at h
  split_ifs at h
  cases h
  rfl

lemma length_of_serialSaves {saves : List T} {st st' : ThesisState}
    (h : serialSaves order id now saves st = some st') :
    st'.theses.length = st.theses.length + saves.length := by
  induction saves using List.reverseRecOn generalizing st' with
  | nil =>
    obtain rfl : st = st' := Option.some.inj h
    rfl
  | append_singleton saves t ih =>
    rw [serialSaves_concat, Option.bind_eq_some_iff] at h
    obtain ⟨middle, hmiddle, hlast⟩ := h
    rw [theses_of_saveActiveThesis hlast, List.length_append, List.length_map, ih hmiddle]
    simp only [List.length_append, List.length_singleton]
    omega

/-- After some saves the thesis of the last one is active, and no other. -/
lemma active_of_serialSaves {saves : List T} {t : T} {st st' : ThesisState}
    (h : serialSaves order id now (saves ++ [t]) st = some st') :
    st'.theses.filter (fun r => r.isActive) =
      [newThesis (id t) (now t) (st.theses.length + saves.length)] := by
  rw [serialSaves_concat, Option.bind_eq_some_iff] at h
  obtain ⟨middle, hmiddle, hlast⟩ := h
  rw [theses_of_saveActiveThesis hlast, length_of_serialSaves hmiddle, List.filter_append,
    List.filter_eq_nil_iff.mpr (by simp)]
  simp [newThesis]

end Serial

/-! ## What the saves keep -/

section Deactivate

variable {theses : List InvestmentThesis} {ids : List Uuid}

@[simp] lemma length_deactivate : (deactivate ids theses).length = theses.length :=
  List.length_map ..

/-- An update changes no version. -/
lemma exists_version_deactivate {version : Str} :
    (∃ r ∈ deactivate ids theses, r.version = version) ↔ ∃ r ∈ theses, r.version = version := by
  have hkeep : ∀ r : InvestmentThesis,
      (if r.id ∈ ids then { r with isActive := false } else r).version = r.version := by
    intro r
    split_ifs <;> rfl
  simp [deactivate, hkeep]

/-- An update of all active rows leaves none of them active. -/
lemma deactivate_of_forall (h : ∀ r ∈ theses, r.isActive = true → r.id ∈ ids) :
    deactivate ids theses = theses.map fun r => { r with isActive := false } := by
  refine List.map_congr_left fun r hr => ?_
  split_ifs with hid
  · rfl
  · have hinactive : r.isActive = false := by
      by_contra hactive
      exact hid (h r hr (Bool.not_eq_false _ ▸ hactive))
    cases r
    simp_all

end Deactivate

/-- The count was true once: if a thesis has been added since, there is one with its version. -/
def Counted (theses : List InvestmentThesis) (count : ℕ) : Prop :=
  count ≤ theses.length ∧
    (count < theses.length → ∃ r ∈ theses, r.version = thesisVersionText (count + 1))

section Inv

variable {T : Type} (order : RowOrder (Uuid × Opportunity)) (id : T → Uuid) (now : T → Time)

/-- What holds of a save by its stage: until a thesis is added, its update misses no active row. -/
def SaveKept (theses : List InvestmentThesis) (t : T) (save : Save) : Prop :=
  match save.stage with
  | .counting | .saved | .failed => save.pending = none
  | .deactivating count => save.pending = none ∧ Counted theses count
  | .updating count targets =>
    save.pending = none ∧ Counted theses count ∧ (theses.length = count →
      ∀ r ∈ theses, r.isActive = true → r.id ∈ save.locks ∨ r.id ∈ targets)
  | .rescoring =>
    save.pending = some (newThesis (id t) (now t) theses.length) ∧
      (∀ r ∈ theses, r.id ≠ id t ∧ r.version ≠ thesisVersionText (theses.length + 1)) ∧
      ∀ r ∈ theses, r.isActive = true → r.id ∈ save.locks

/-- What holds of the saves in every state. -/
structure SaveInv (start : ThesisState) (s : SaveState T) : Prop where
  serial : ∃ saves : List T, saves.Nodup ∧ (∀ t, t ∈ saves ↔ (s.save t).stage = .saved) ∧
    ∃ st, serialSaves order id now saves start = some st ∧ st.theses = s.theses
  kept : ∀ t, SaveKept id now s.theses t (s.save t)
  alone : ∀ t u, (s.save t).stage = .rescoring → (s.save u).stage = .rescoring → t = u

variable {order id now} {start : ThesisState} {s s' : SaveState T} {t u : T} {save : Save}

lemma SaveKept.rescoring {theses : List InvestmentThesis} (h : SaveKept id now theses t save)
    (hstage : save.stage = .rescoring) :
    save.pending = some (newThesis (id t) (now t) theses.length) ∧
      (∀ r ∈ theses, r.id ≠ id t ∧ r.version ≠ thesisVersionText (theses.length + 1)) ∧
      ∀ r ∈ theses, r.isActive = true → r.id ∈ save.locks := by
  rwa [SaveKept, hstage] at h

lemma SaveKept.updating {theses : List InvestmentThesis} {count : ℕ} {targets : List Uuid}
    (h : SaveKept id now theses t save) (hstage : save.stage = .updating count targets) :
    save.pending = none ∧ Counted theses count ∧ (theses.length = count →
      ∀ r ∈ theses, r.isActive = true → r.id ∈ save.locks ∨ r.id ∈ targets) := by
  rwa [SaveKept, hstage] at h

lemma SaveKept.deactivating {theses : List InvestmentThesis} {count : ℕ}
    (h : SaveKept id now theses t save) (hstage : save.stage = .deactivating count) :
    save.pending = none ∧ Counted theses count := by
  rwa [SaveKept, hstage] at h

variable [DecidableEq T]

/-- A statement that adds no thesis keeps the invariant, if it keeps that of its save. -/
lemma SaveInv.put (h : SaveInv order id now start s) (hsaved : (s.save t).stage ≠ .saved)
    (hstage : save.stage ≠ .saved) (hkept : SaveKept id now s.theses t save)
    (halone : save.stage = .rescoring → ∀ u, u ≠ t → (s.save u).stage ≠ .rescoring) :
    SaveInv order id now start (s.put t save) where
  serial := by
    obtain ⟨saves, hnodup, hmem, hserial⟩ := h.serial
    refine ⟨saves, hnodup, fun u => ?_, hserial⟩
    rw [hmem u]
    by_cases hu : u = t
    · subst hu
      rw [SaveState.put_save_self]
      exact iff_of_false hsaved hstage
    · rw [SaveState.put_save_of_ne hu]
  kept u := by
    by_cases hu : u = t
    · subst hu
      rwa [SaveState.put_save_self]
    · rw [SaveState.put_save_of_ne hu]
      exact h.kept u
  alone u v := by
    by_cases hu : u = t <;> by_cases hv : v = t
    · intros
      rw [hu, hv]
    · subst hu
      rw [SaveState.put_save_self, SaveState.put_save_of_ne hv]
      exact fun hu' hv' => absurd hv' (halone hu' v hv)
    · subst hv
      rw [SaveState.put_save_self, SaveState.put_save_of_ne hu]
      exact fun hu' hv' => absurd hu' (halone hv' u hu)
    · rw [SaveState.put_save_of_ne hu, SaveState.put_save_of_ne hv]
      exact h.alone u v

/-- The commit of another save leaves only counts that are no longer true. -/
lemma SaveKept.publish (hkept : SaveKept id now s.theses u (s.save u))
    (hstage : (s.save u).stage ≠ .rescoring)
    (hrow : (s.save t).pending = some (newThesis (id t) (now t) s.theses.length)) :
    SaveKept id now (s.publish t).theses u (s.save u) := by
  have hlength : (s.publish t).theses.length = s.theses.length + 1 := by
    simp [SaveState.publish, hrow]
  have hcounted : ∀ count, Counted s.theses count → Counted (s.publish t).theses count := by
    rintro count ⟨hle, hlt⟩
    refine ⟨by omega, fun _ => ?_⟩
    rcases hle.lt_or_eq with hcount | rfl
    · obtain ⟨r, hr, hversion⟩ := exists_version_deactivate.mpr (hlt hcount)
      exact ⟨r, List.mem_append_left _ hr, hversion⟩
    · refine ⟨newThesis (id t) (now t) s.theses.length, ?_, rfl⟩
      rw [SaveState.publish, hrow]
      exact List.mem_append_right _ (List.mem_singleton_self _)
  unfold SaveKept at hkept ⊢
  split at hkept
  · exact hkept
  · exact hkept
  · exact hkept
  · exact ⟨hkept.1, hcounted _ hkept.2⟩
  · refine ⟨hkept.1, hcounted _ hkept.2.1, fun hcount => ?_⟩
    have hle := hkept.2.1.1
    omega
  · next hrescoring => exact absurd hrescoring hstage

/-- The commit of a save is a serial save. -/
lemma SaveInv.publish (h : SaveInv order id now start s)
    (hstage : (s.save t).stage = .rescoring) :
    SaveInv order id now start (s.publish t) where
  serial := by
    obtain ⟨hrow, hfresh, hlocks⟩ := (h.kept t).rescoring hstage
    obtain ⟨saves, hnodup, hmem, st, hserial, htheses⟩ := h.serial
    have hnew : t ∉ saves := by
      intro ht
      have hsaved := (hmem t).mp ht
      rw [hstage] at hsaved
      cases hsaved
    refine ⟨saves ++ [t], ?_, fun u => ?_, ?_⟩
    · exact List.nodup_append.mpr ⟨hnodup, List.nodup_singleton t, by
        rintro u hu v hv rfl
        exact hnew (List.mem_singleton.mp hv ▸ hu)⟩
    · rw [List.mem_append, List.mem_singleton, hmem u]
      by_cases hu : u = t
      · subst hu
        simp
      · simp [hu]
    · rw [← htheses] at hfresh
      obtain ⟨st', hsave, hst'⟩ := @saveActiveThesis_of_fresh order _ (now t) _ hfresh
      refine ⟨st', by rw [serialSaves_concat, hserial, Option.bind_some, hsave], ?_⟩
      rw [hst', htheses, SaveState.publish, hrow, deactivate_of_forall hlocks]
      rfl
  kept u := by
    by_cases hu : u = t
    · subst hu
      simp [SaveKept]
    · have hrescoring : (s.save u).stage ≠ .rescoring := fun hrescoring =>
        hu (h.alone u t hrescoring hstage)
      have hkept := (h.kept u).publish hrescoring ((h.kept t).rescoring hstage).1
      rwa [SaveState.publish_save_of_ne hu]
  alone u v := by
    have hrest : ∀ w, ((s.publish t).save w).stage = .rescoring → False := by
      intro w hw
      by_cases hwt : w = t
      · subst hwt
        simp at hw
      · rw [SaveState.publish_save_of_ne hwt] at hw
        exact hwt (h.alone w t hw hstage)
    exact fun hu => (hrest u hu).elim

omit [DecidableEq T] in
/-- A thesis that is neither refused nor delayed is new, its count is true, and no other save has
inserted one. -/
lemma SaveInv.fresh (h : SaveInv order id now start s) {count : ℕ}
    (hstage : (s.save t).stage = .updating count [])
    (hrefused : ¬ s.Refuses t (newThesis (id t) (now t) count))
    (hdelayed : ¬ s.Delays t (newThesis (id t) (now t) count)) :
    s.theses.length = count ∧
      (∀ r ∈ s.theses, r.id ≠ id t ∧ r.version ≠ thesisVersionText (count + 1)) ∧
      ∀ u, u ≠ t → (s.save u).stage ≠ .rescoring := by
  have hfresh : ∀ r ∈ s.theses, r.id ≠ id t ∧ r.version ≠ thesisVersionText (count + 1) := by
    intro r hr
    by_cases hlocked : s.Locked t r.id
    · have hclash := fun hclash => hdelayed (.inl ⟨r, hr, hlocked, hclash⟩)
      exact ⟨fun hid => hclash (.inl hid), fun hversion => hclash (.inr (.inl hversion))⟩
    · set r' := if r.id ∈ (s.save t).locks then { r with isActive := false } else r with hr'
      have hmem : r' ∈ deactivate (s.save t).locks s.theses := List.mem_map_of_mem hr
      have hid : r'.id = r.id := by rw [hr']; split_ifs <;> rfl
      have hversion : r'.version = r.version := by rw [hr']; split_ifs <;> rfl
      have hclash := fun hclash => hrefused ⟨r', hmem, hid ▸ hlocked, hclash⟩
      exact ⟨fun h => hclash (.inl (hid.trans h)), fun h => hclash (.inr (.inl (hversion.trans h)))⟩
  obtain ⟨-, ⟨hle, hlt⟩, -⟩ := (h.kept t).updating hstage
  have hlength : s.theses.length = count := by
    by_contra hne
    obtain ⟨r, hr, hversion⟩ := hlt (by omega)
    exact (hfresh r hr).2 hversion
  refine ⟨hlength, hfresh, fun u hu hrescoring => ?_⟩
  obtain ⟨hrow, -, -⟩ := (h.kept u).rescoring hrescoring
  refine hdelayed (.inr ⟨u, hu, _, hrow, .inr (.inl ?_)⟩)
  rw [← hlength]
  rfl

/-- Every move of a save keeps the invariant. -/
lemma SaveInv.move [Fintype T] (h : SaveInv order id now start s) (hmove : SaveMove id now s t s') :
    SaveInv order id now start s' := by
  have hkept := h.kept t
  cases hmove with
  | counted hstage =>
    refine h.put (by rw [hstage]; decide) (by simp) ?_ (by simp)
    simp only [SaveKept, hstage] at hkept ⊢
    exact ⟨hkept, le_rfl, fun hlt => absurd hlt (lt_irrefl _)⟩
  | @found count hstage =>
    obtain ⟨hpending, hcounted⟩ := hkept.deactivating hstage
    refine h.put (by simp [hstage]) (by simp) ⟨hpending, hcounted, fun _ r hr hactive => ?_⟩
      (by simp)
    exact .inr (List.mem_map_of_mem (List.mem_filter.mpr ⟨hr, hactive⟩))
  | @updated count target targets hstage =>
    obtain ⟨hpending, hcounted, hactive⟩ := hkept.updating hstage
    refine h.put (by simp [hstage]) (by simp) ⟨hpending, hcounted, fun hcount r hr hra => ?_⟩
      (by simp)
    have hcovered := hactive hcount r hr hra
    simp only [List.mem_cons, List.mem_append, List.not_mem_nil, or_false] at hcovered ⊢
    tauto
  | @skipped count target targets hstage hinactive =>
    obtain ⟨hpending, hcounted, hactive⟩ := hkept.updating hstage
    refine h.put (by simp [hstage]) (by simp) ⟨hpending, hcounted, fun hcount r hr hra => ?_⟩
      (by simp)
    rcases hactive hcount r hr hra with hlocks | htarget
    · exact .inl hlocks
    · exact .inr ((List.mem_cons.mp htarget).resolve_left (hinactive r hr hra))
  | @inserted count hstage hrefused hdelayed =>
    obtain ⟨rfl, hfresh, halone⟩ := h.fresh hstage hrefused hdelayed
    obtain ⟨-, -, hactive⟩ := hkept.updating hstage
    refine h.put (by simp [hstage]) (by simp) ⟨rfl, hfresh, fun r hr hra => ?_⟩ fun _ => halone
    exact (hactive rfl r hr hra).resolve_right List.not_mem_nil
  | committed hstage => exact h.publish hstage
  | failed hstage => exact h.put hstage (by simp) rfl (by simp)

end Inv

/-- **Serializability of saves.** In every interleaving the committed theses are those that the
committed saves leave one after the other, each on top of the one before, and only the thesis of the
last one is active.

**Proof sketch.** A save whose count is no longer true is refused or waits, as the next version is
taken. So nothing was committed between the count of a save and its insertion, its update has
deactivated every active row, and no other save has inserted a thesis. -/
theorem saves_serializable {T : Type} [Fintype T] [DecidableEq T]
    (order : RowOrder (Uuid × Opportunity)) (id : T → Uuid) (now : T → Time) (start : ThesisState)
    (schedule : List (SaveEvent T)) :
    ∃ saves : List T, saves.Nodup ∧
      (∀ t, t ∈ saves ↔ ((History.replay (saveStep id now) (saveStart T start.theses)
        schedule).save t).stage = .saved) ∧
      ∃ st, serialSaves order id now saves start = some st ∧
        st.theses = (History.replay (saveStep id now) (saveStart T start.theses) schedule).theses ∧
        ∀ before t, saves = before ++ [t] → st.theses.filter (fun r => r.isActive) =
          [newThesis (id t) (now t) (start.theses.length + before.length)] := by
  have hstart : SaveInv order id now start (saveStart T start.theses) :=
    { serial := ⟨[], List.nodup_nil, by simp [saveStart], start, rfl, rfl⟩
      kept := fun _ => rfl
      alone := fun _ _ h => by cases h }
  have hinv := History.replay_invariant (saveStep id now)
    (fun s e s' h hstep => by
      obtain ⟨t, hmove⟩ := saveMove_of_step hstep
      exact h.move hmove) hstart schedule
  obtain ⟨saves, hnodup, hmem, st, hserial, htheses⟩ := hinv.serial
  refine ⟨saves, hnodup, hmem, st, hserial, htheses, ?_⟩
  rintro before t rfl
  exact active_of_serialSaves hserial

end VCBrain
