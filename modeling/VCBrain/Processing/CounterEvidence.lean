import VCBrain.Foundation.Guarded
import VCBrain.Processing.GroupEffect

set_option relaxedAutoImplicit false
set_option autoImplicit false

/-!
# Counter-evidence over histories of runs

Observations of a person arrive in any order, and `reconcile_observations` runs at any time in
between. This file determines when every observation of a contested group stays listed by a
current `contradicted` claim.

## Main definitions

* `Contested` — a group with two distinct values.
* `Retained` — every observation of a contested group is current counter-evidence.
* `Reconciling.step` — one event of a history: an observation arrives, or a run takes place.

## Main results

* `reconcileGroup_effect` — all a run does to the claims of one group.
* `retained_iff_strongestSettled` — one run, from the states histories reach.
* `retained_history_iff` — whole histories.

## Design

The claims of a group are its part of the table (`keyed`), and `foldlM_view` reduces a run to
its steps on each part. A run that supersedes the claims of a contested group does so because
its strongest observation has no claim yet; the observations that already have one are then
found again among the superseded claims and are not recorded anew.
-/

namespace VCBrain

/-- The observation is listed by some current `contradicted` claim. -/
def CounterEvidence (rows : List Claim) (obs : Observation) : Prop :=
  ∃ claim ∈ rows, claim.status = .contradicted ∧ claim.supersessionId = none ∧
    obs.id.str ∈ claim.observationIds

instance (rows : List Claim) (obs : Observation) : Decidable (CounterEvidence rows obs) :=
  inferInstanceAs (Decidable (∃ claim ∈ rows, _))

section Person

variable (personId : Uuid)

/-- Every observation of the person in a contested group is current counter-evidence. -/
def Retained (db : Db) : Prop :=
  ∀ obs ∈ db.observations, obs.subjectId = some personId →
    Contested (groupOf personId db.observations obs.key) → CounterEvidence db.claims obs

instance : DecidablePred (Retained personId) :=
  fun db => inferInstanceAs (Decidable (∀ obs ∈ db.observations, _))

/-- In every contested group of a run at `now`, either no observation has been recorded yet, or
the strongest one has. -/
def StrongestSettled (now : Time) (db : Db) : Prop :=
  ∀ kg ∈ groupBy Observation.key (observationsOf personId db), Contested kg.2 →
    (∀ obs ∈ kg.2, ¬ Recorded personId db.claims obs) ∨
      ∀ strongest ∈ (rankByStrength now kg.2).head?, Recorded personId db.claims strongest

instance (now : Time) : DecidablePred (StrongestSettled personId now) :=
  fun _ => inferInstanceAs (Decidable (∀ kg ∈ groupBy Observation.key _, _ → (_ ∨ _)))

namespace Reconciling

/-- An event of a history: an observation arrives, or a run takes place. -/
inductive Event where
  | arrive (obs : Observation)
  | reconcile (now : Time) (draw : ℕ → Uuid)

/-- The database after an event, unless the event fails and is rolled back. -/
def step (db : Db) : Event → Option Db
  | .arrive obs => (insertObservation db.observations obs).map fun rows =>
      { db with observations := rows }
  | .reconcile now draw => (reconcileObservations personId now draw db).map Prod.fst

/-- What holds after an event: a run leaves the counter-evidence retained. -/
def Duty : Event → Db → Prop
  | .arrive _, _ => True
  | .reconcile _ _, db => Retained personId db

/-- What holds before an event: a run finds the strongest evidence settled. -/
def Guard (db : Db) : Event → Prop
  | .arrive _ => True
  | .reconcile now _ => StrongestSettled personId now db

instance : ∀ e, DecidablePred (Duty personId e)
  | .arrive _, _ => inferInstanceAs (Decidable True)
  | .reconcile _ _, db => inferInstanceAs (Decidable (Retained personId db))

instance : ∀ db, DecidablePred (Guard personId db)
  | _, .arrive _ => inferInstanceAs (Decidable True)
  | db, .reconcile now _ => inferInstanceAs (Decidable (StrongestSettled personId now db))

/-! ## The states of a history -/

/-- The claim records an observation of a contested group, if it is `contradicted` at all. -/
def Sourced (observations : List Observation) (claim : Claim) : Prop :=
  claim.status = .contradicted → ∃ obs ∈ observations, obs.subjectId = some personId ∧
    Counters personId obs claim ∧ Contested (groupOf personId observations obs.key)

/-- What holds of the database at every point of a history that retains counter-evidence. -/
structure Ledger (db : Db) : Prop where
  ids : KeyUnique Observation.id db.observations
  sourced : ∀ claim ∈ db.claims, Sourced personId db.observations claim
  current : ∀ obs ∈ db.observations, Recorded personId db.claims obs →
    RecordedCurrent personId db.claims obs

variable {personId}

/-- Sourced claims stay sourced as observations arrive. -/
lemma Sourced.mono {observations observations' : List Observation} {claim : Claim}
    (h : Sourced personId observations claim) (hsub : observations ⊆ observations') :
    Sourced personId observations' claim := by
  intro hs
  obtain ⟨obs, hobs, hsubject, hcounters, hcontested⟩ := h hs
  refine ⟨obs, hsub hobs, hsubject, hcounters, hcontested.mono fun o ho => ?_⟩
  rw [mem_groupOf] at ho ⊢
  exact ⟨hsub ho.1, ho.2⟩

/-- Among sourced claims, to be listed by a `contradicted` claim is to be recorded by it. -/
lemma counters_of_mem_observationIds {observations : List Observation} {claim : Claim}
    {obs : Observation} (hids : KeyUnique Observation.id observations)
    (hsourced : Sourced personId observations claim) (hobs : obs ∈ observations)
    (hstatus : claim.status = .contradicted) (hmem : obs.id.str ∈ claim.observationIds) :
    Counters personId obs claim ∧ obs.subjectId = some personId ∧
      Contested (groupOf personId observations obs.key) := by
  obtain ⟨o, ho, hsubject, hcounters, hcontested⟩ := hsourced hstatus
  have hstr : obs.id.str = o.id.str := by
    have hlist := hcounters.2.2.2.2
    simpa [hlist] using hmem
  obtain rfl := hids.eq_of_id_eq hobs ho (Uuid.str_injective hstr)
  exact ⟨hcounters, hsubject, hcontested⟩

/-- Among sourced claims, counter-evidence is what a current claim records. -/
lemma counterEvidence_iff {observations : List Observation} {rows : List Claim}
    {obs : Observation} (hids : KeyUnique Observation.id observations)
    (hsourced : ∀ claim ∈ rows, Sourced personId observations claim)
    (hobs : obs ∈ observations) :
    CounterEvidence rows obs ↔ RecordedCurrent personId rows obs := by
  constructor
  · rintro ⟨c, hc, hstatus, hopen, hmem⟩
    exact ⟨c, hc, (counters_of_mem_observationIds hids (hsourced c hc) hobs hstatus hmem).1, hopen⟩
  · rintro ⟨c, hc, hcounters, hopen⟩
    exact ⟨c, hc, hcounters.2.2.2.1, hopen, by simp [hcounters.2.2.2.2]⟩

/-! ## One run -/

section Run

variable {now : Time} {draw : ℕ → Uuid} {db db' : Db} {created : ℕ}

/-- A run derives sourced claims. -/
lemma sourced_of_reconcile (hsourced : ∀ claim ∈ db.claims, Sourced personId db.observations claim)
    (h : reconcileObservations personId now draw db = some (db', created)) :
    ∀ claim ∈ db'.claims, Sourced personId db.observations claim := by
  refine foldlM_invariant (I := fun st : Progress =>
    ∀ claim ∈ st.claims, Sourced personId db.observations claim) ?_ hsourced
    (reconcileObservations_eq_some h).2
  intro st kg st' hkg hst hstep
  obtain ⟨closing, added, hclaims, heffect⟩ :=
    reconcileGroup_effect (fun _ => key_of_mem_group hkg) hstep
  have hgroup : ∀ o, o ∈ kg.2 ↔ o ∈ groupOf personId db.observations kg.1 :=
    fun o => mem_groupBy_observationsOf personId hkg
  rw [hclaims]
  intro claim hc
  rcases List.mem_append.mp hc with hc | hc
  · obtain ⟨previous, hprev, s, e, rfl⟩ := mem_closedFor hc
    exact hst previous hprev
  · intro hstatus
    obtain ⟨hcontested, o, ho, hcounters, -⟩ := heffect.added_counters claim hc hstatus
    obtain ⟨hmem, hsubject, hkey⟩ := (mem_groupOf personId).mp ((hgroup o).mp ho)
    exact ⟨o, hmem, hsubject, hcounters, hkey ▸ hcontested.mono fun a ha => (hgroup a).mp ha⟩

/-- After a run every observation of a contested group has a current claim exactly if the
strongest evidence was settled before. -/
lemma recordedCurrent_iff_strongestSettled (hledger : Ledger personId db)
    (h : reconcileObservations personId now draw db = some (db', created)) :
    (∀ kg ∈ groupBy Observation.key (observationsOf personId db), Contested kg.2 →
      ∀ obs ∈ kg.2, RecordedCurrent personId db'.claims obs) ↔
    StrongestSettled personId now db := by
  refine forall₂_congr fun kg hkg => forall_congr' fun hcontested => ?_
  obtain ⟨key, group⟩ := kg
  have hmem : ∀ o ∈ group, o ∈ db.observations := fun o ho =>
    ((mem_groupOf personId).mp ((mem_groupBy_observationsOf personId hkg).mp ho)).1
  have hkey : ∀ o ∈ group, o.key = key := fun o => key_of_mem_group hkg
  obtain ⟨rows, closing, added, hrows, heffect, hclaims⟩ := groupEffect_of_reconcile h hkg
  have hbefore : ∀ o ∈ group, (Recorded personId rows o ↔ Recorded personId db.claims o) ∧
      (RecordedCurrent personId rows o ↔ RecordedCurrent personId db.claims o) := by
    intro o ho
    rw [← recorded_keyed, ← recordedCurrent_keyed, hkey o ho, hrows, ← hkey o ho, recorded_keyed,
      recordedCurrent_keyed]
    exact ⟨Iff.rfl, Iff.rfl⟩
  have hafter : ∀ o ∈ group, (RecordedCurrent personId db'.claims o ↔
      RecordedCurrent personId (closedFor personId key rows closing ++ added) o) := by
    intro o ho
    rw [← recordedCurrent_keyed, hkey o ho, hclaims, ← hkey o ho, recordedCurrent_keyed]
  have hlocal := heffect.current_iff hcontested hkey
    (fun a ha b hb => hledger.ids.eq_of_id_eq (hmem a ha) (hmem b hb)) (fun o ho hr => by
      rw [(hbefore o ho).1] at hr
      exact (hbefore o ho).2.mpr (hledger.current o (hmem o ho) hr))
  have hhead : ∀ w ∈ (rankByStrength now group).head?, w ∈ group := fun w hw =>
    (rankByStrength_perm now group).mem_iff.mp (List.mem_of_mem_head? hw)
  calc (∀ obs ∈ group, RecordedCurrent personId db'.claims obs)
      ↔ ∀ obs ∈ group,
          RecordedCurrent personId (closedFor personId key rows closing ++ added) obs :=
        forall₂_congr hafter
    _ ↔ _ := hlocal
    _ ↔ _ := or_congr (forall₂_congr fun o ho => not_congr (hbefore o ho).1)
        (forall₂_congr fun w hw => (hbefore w (hhead w hw)).1)

/-- **One run.** From the states histories reach, a run retains the counter-evidence exactly if
in every contested group the strongest observation is recorded already or none is. -/
theorem retained_iff_strongestSettled (hledger : Ledger personId db)
    (h : reconcileObservations personId now draw db = some (db', created)) :
    Retained personId db' ↔ StrongestSettled personId now db := by
  have hobservations : db'.observations = db.observations := by
    rw [(reconcileObservations_eq_some h).1]
  rw [← recordedCurrent_iff_strongestSettled hledger h, Retained, hobservations]
  have hcounter : ∀ obs ∈ db.observations,
      (CounterEvidence db'.claims obs ↔ RecordedCurrent personId db'.claims obs) :=
    fun obs hobs => counterEvidence_iff hledger.ids (sourced_of_reconcile hledger.sourced h) hobs
  constructor
  · intro hretained kg hkg hcontested obs hobs
    have hgroup : ∀ o, o ∈ kg.2 ↔ o ∈ groupOf personId db.observations kg.1 :=
      fun o => mem_groupBy_observationsOf personId hkg
    obtain ⟨hmem, hsubject, hkey⟩ := (mem_groupOf personId).mp ((hgroup obs).mp hobs)
    refine (hcounter obs hmem).mp (hretained obs hmem hsubject ?_)
    exact hkey ▸ hcontested.mono fun o ho => (hgroup o).mp ho
  · intro hall obs hmem hsubject hcontested
    have hobs : obs ∈ observationsOf personId db :=
      (mem_observationsOf personId).mpr ⟨hmem, hsubject⟩
    have hkg : (obs.key, _) ∈ groupBy Observation.key (observationsOf personId db) :=
      mem_groupBy.mpr ⟨⟨obs, hobs, rfl⟩, rfl⟩
    have hgroup : ∀ o, o ∈ _ ↔ o ∈ groupOf personId db.observations obs.key :=
      fun o => mem_groupBy_observationsOf personId hkg
    refine (hcounter obs hmem).mpr (hall _ hkg ?_ obs ?_)
    · exact hcontested.mono fun o ho => (hgroup o).mpr ho
    · exact (hgroup obs).mpr ((mem_groupOf personId).mpr ⟨hmem, hsubject, rfl⟩)

end Run

/-! ## Histories -/

/-- A database without rows. -/
lemma Ledger.empty : Ledger personId {} where
  ids := List.nodup_nil
  sourced := by simp
  current := by simp

/-- A new observation is not recorded yet. -/
lemma Ledger.arrive {db : Db} {obs : Observation} {rows : List Observation}
    (hledger : Ledger personId db) (h : insertObservation db.observations obs = some rows) :
    Ledger personId { db with observations := rows } where
  ids := hledger.ids.insertObservation h
  sourced claim hc := by
    obtain ⟨rfl, -⟩ := insertObservation_eq_some h
    exact (hledger.sourced claim hc).mono (List.subset_append_left _ _)
  current o ho hr := by
    obtain ⟨rfl, hnew⟩ := insertObservation_eq_some h
    rcases List.mem_append.mp ho with ho | ho
    · exact hledger.current o ho hr
    · obtain rfl := List.mem_singleton.mp ho
      obtain ⟨c, hc, hcounters⟩ := hr
      obtain ⟨o', ho', -, hcounters', -⟩ := hledger.sourced c hc hcounters.2.2.2.1
      have hstr : o'.id.str = o.id.str := by
        simpa using hcounters'.2.2.2.2.symm.trans hcounters.2.2.2.2
      exact absurd (Uuid.str_injective hstr) (hnew o' ho')

/-- A run that retains the counter-evidence leaves every recorded observation current. -/
lemma Ledger.reconcile {db db' : Db} {now : Time} {draw : ℕ → Uuid} {created : ℕ}
    (hledger : Ledger personId db)
    (h : reconcileObservations personId now draw db = some (db', created))
    (hretained : Retained personId db') : Ledger personId db' := by
  have hobservations : db'.observations = db.observations := by
    rw [(reconcileObservations_eq_some h).1]
  have hsourced := sourced_of_reconcile hledger.sourced h
  rw [← hobservations] at hsourced
  refine ⟨hobservations ▸ hledger.ids, hsourced, fun obs hobs hr => ?_⟩
  obtain ⟨c, hc, hcounters⟩ := hr
  obtain ⟨-, hsubject, hcontested⟩ := counters_of_mem_observationIds
    (hobservations ▸ hledger.ids) (hsourced c hc) hobs hcounters.2.2.2.1
    (by simp [hcounters.2.2.2.2])
  exact (counterEvidence_iff (hobservations ▸ hledger.ids) hsourced hobs).mp
    (hretained obs hobs hsubject hcontested)

/-- **Counter-evidence over histories.** In a history of arrivals and runs from an empty
database, every run retains the counter-evidence exactly if every run finds, in every contested
group, that either no observation has been recorded yet or the strongest one has.

**Proof sketch.** The ledger is the invariant: contradicted claims come from observations of
contested groups, and recorded observations are current. One run meets its duty exactly if it
meets its guard (`retained_iff_strongestSettled`), and `History.meets_iff_guarded` carries
this over the history. -/
theorem retained_history_iff (personId : Uuid) (events : List Event) :
    History.Meets (step personId) (Duty personId) {} events ↔
      History.Guarded (step personId) (Guard personId) {} events := by
  refine History.meets_iff_guarded (I := Ledger personId) (step personId) ?_ ?_ Ledger.empty events
  · rintro db (obs | ⟨now, draw⟩) db' hledger h
    · exact Iff.rfl
    · obtain ⟨⟨db'', created⟩, hrun, rfl⟩ := Option.map_eq_some_iff.mp h
      exact retained_iff_strongestSettled hledger hrun
  · rintro db (obs | ⟨now, draw⟩) db' hledger h hduty
    · obtain ⟨rows, hrows, rfl⟩ := Option.map_eq_some_iff.mp h
      exact hledger.arrive hrows
    · obtain ⟨⟨db'', created⟩, hrun, rfl⟩ := Option.map_eq_some_iff.mp h
      exact hledger.reconcile hrun hduty

end Reconciling

end Person

/-! ## A history that loses counter-evidence -/

namespace Reconciling

/-- An observation of person 1 on the predicate `role`, at instant 0. -/
def roleObservation (id : Uuid) (value : Str) (confidence : ℚ) : Observation where
  id := id
  snapshotId := 0
  subjectId := some 1
  opportunityId := none
  predicate := "role"
  objectValue := value
  observedAt := 0
  extractorVersion := "public-v1"
  confidence := confidence
  createdAt := 0

/-- Two observations disagree and are reconciled; then a stronger one arrives. -/
def strongerEvidenceArrives : List Event :=
  [.arrive (roleObservation 11 "founder" (1 / 2)), .arrive (roleObservation 12 "advisor" (1 / 2)),
    .reconcile 0 fun n => Fin.ofNat _ (100 + n), .arrive (roleObservation 13 "investor" 1),
    .reconcile 0 fun n => Fin.ofNat _ (200 + n)]

/-- The second run leaves the first two observations on superseded claims only. -/
theorem not_retained_strongerEvidenceArrives :
    ¬ History.Meets (step 1) (Duty 1) {} strongerEvidenceArrives := by
  decide +kernel

end Reconciling

end VCBrain
