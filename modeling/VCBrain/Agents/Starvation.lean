import VCBrain.Agents.PipelineProgress

set_option relaxedAutoImplicit false
set_option autoImplicit false

/-!
# Starvation in the pipeline

The batch of a run is cut before it is known which opportunities can be moved. An opportunity that
could be moved waits as long as `batchSize` open ones are ahead of it, and those that wait for a
founder or for a human decision stay open and stay ahead.

## Main definitions

* `pipelineAfter` — the state after a number of runs with no outside change.
* `parkedAhead` — the opportunities ahead that the pipeline does not move.

## Main results

* `transitioned_iff` — which inbound opportunities are moved after finitely many runs.
* `starved_of_parkedAhead` — as many parked opportunities ahead as fit in a batch block it for good.
-/

namespace VCBrain

/-- The state after `k` runs with no outside change. -/
def pipelineAfter (env : PipelineEnv) (tick : ℕ → Time) (draw : ℕ → Uuid → Uuid)
    (s : PipelineState) : ℕ → PipelineState
  | 0 => s
  | k + 1 => advancePipelineJob env (tick k) (draw k) (pipelineAfter env tick draw s k)

/-- The stage of an opportunity. -/
def Db.stage? (db : Db) (id : Uuid) : Option Stage :=
  (db.opportunity? id).map Opportunity.lifecycleState

/-- The opportunities ahead that the pipeline leaves to others. -/
def parkedAhead (db : Db) (opp : Opportunity) : List Opportunity :=
  (ahead db opp).filter fun o => o.lifecycleState.IsParked

section

variable {env : PipelineEnv} {now : Time} {draw : Uuid → Uuid} {s : PipelineState} {db : Db}
  {opp : Opportunity} {next : Stage}

/-! ## One run -/

/-- A run moves an inbound opportunity exactly if it is in the batch and the artifact exists. -/
lemma rowAfter_stage_of_inbound (hkey : KeyUnique Opportunity.id s.db.opportunities)
    (hopp : opp ∈ s.db.opportunities) (hnext : opp.lifecycleState.inboundNext = some next) :
    (rowAfter env now draw s opp).lifecycleState ≠ opp.lifecycleState ↔
      opp ∈ pipelineBatch env s.db ∧
        ∃ person ∈ env.anyFounder.pick (foundersOf s.db opp.id),
          Gate s.db person.id opp.id next := by
  unfold rowAfter
  by_cases hmem : opp ∈ pipelineBatch env s.db
  · rw [(run_of_mem hkey hmem).outcome]
    cases env.anyFounder.pick (foundersOf s.db opp.id) with
    | none => simp
    | some person =>
      rw [Option.map_some, Option.elim_some, advance_stage_of_inbound hnext]
      simp [hmem]
  · rw [(run_of_notMem _ _ _ hkey hopp hmem).1]
    simp [hmem]

variable (env now draw) in
/-- A run leaves a parked opportunity as it is. -/
lemma rowAfter_of_parked (hkey : KeyUnique Opportunity.id s.db.opportunities)
    (hopp : opp ∈ s.db.opportunities) (hparked : opp.lifecycleState.IsParked) :
    rowAfter env now draw s opp = opp := by
  unfold rowAfter
  by_cases hmem : opp ∈ pipelineBatch env s.db
  · rw [(run_of_mem hkey hmem).outcome]
    cases env.anyFounder.pick (foundersOf s.db opp.id) with
    | none => rfl
    | some person =>
      rw [Option.map_some, Option.elim_some, advance_of_parked hparked]
      rfl
  · rw [(run_of_notMem _ _ _ hkey hopp hmem).1]
    rfl

/-- Parked opportunities stay ahead. -/
lemma parkedAhead_run (hkey : KeyUnique Opportunity.id s.db.opportunities) :
    (parkedAhead s.db opp).length ≤
      (parkedAhead (advancePipelineJob env now draw s).db opp).length := by
  unfold parkedAhead ahead
  rw [run_rows _ _ _ hkey, List.filter_filter, List.filter_filter, List.filter_map, List.length_map,
    ← List.countP_eq_length_filter, ← List.countP_eq_length_filter]
  refine List.countP_mono_left fun o ho hparked => ?_
  have hrow := rowAfter_of_parked env now draw hkey ho
    (of_decide_eq_true (Bool.and_eq_true_iff.mp hparked).1)
  rw [Function.comp_apply, hrow]
  exact hparked

end

/-! ## Many runs -/

section

variable {env : PipelineEnv} {tick : ℕ → Time} {draw : ℕ → Uuid → Uuid} {s : PipelineState}
  {opp : Opportunity} {next : Stage}

variable (env tick draw) in
lemma pipelineAfter_keyUnique (hkey : KeyUnique Opportunity.id s.db.opportunities) (k : ℕ) :
    KeyUnique Opportunity.id (pipelineAfter env tick draw s k).db.opportunities := by
  induction k with
  | zero => exact hkey
  | succ k ih => exact run_keyUnique _ _ _ ih

variable (env tick draw s) in
lemma pipelineAfter_sameArtifacts (k : ℕ) :
    SameArtifacts s.db (pipelineAfter env tick draw s k).db := by
  induction k with
  | zero => exact .refl _
  | succ k ih => exact ih.trans (run_sameArtifacts _ _ _ _)

variable (env tick draw) in
/-- The row of an opportunity after any number of runs keeps its place in the order. -/
lemma pipelineAfter_row (hkey : KeyUnique Opportunity.id s.db.opportunities)
    (hopp : opp ∈ s.db.opportunities) (k : ℕ) :
    ∃ o ∈ (pipelineAfter env tick draw s k).db.opportunities,
      o.id = opp.id ∧ batchKey o = batchKey opp := by
  induction k with
  | zero => exact ⟨opp, hopp, rfl, rfl⟩
  | succ k ih =>
    obtain ⟨o, ho, hid, hplace⟩ := ih
    have hkey' := pipelineAfter_keyUnique env tick draw hkey k
    exact ⟨_, rowAfter_mem _ _ _ hkey' ho, (rowAfter_id _ _ _ hkey' ho).trans hid,
      (rowAfter_key _ _ _ _ o hkey' ho).1.trans hplace⟩

/-- A run moves an inbound opportunity that earlier runs did not move exactly if it is ready and
there is room in the batch. -/
lemma stage?_succ_iff (hkey : KeyUnique Opportunity.id s.db.opportunities)
    (hopp : opp ∈ s.db.opportunities) (hnext : opp.lifecycleState.inboundNext = some next) {k : ℕ}
    (hstays : (pipelineAfter env tick draw s k).db.stage? opp.id = some opp.lifecycleState) :
    (pipelineAfter env tick draw s (k + 1)).db.stage? opp.id ≠ some opp.lifecycleState ↔
      (∃ person ∈ env.anyFounder.pick (foundersOf s.db opp.id),
        Gate s.db person.id opp.id next) ∧
        (ahead (pipelineAfter env tick draw s k).db opp).length < env.batchSize := by
  obtain ⟨o, ho, hid, hplace⟩ := pipelineAfter_row env tick draw
    hkey hopp k
  have hkey' := pipelineAfter_keyUnique env tick draw hkey k
  have hsame := pipelineAfter_sameArtifacts env tick draw s k
  show (advancePipelineJob ..).db.stage? opp.id ≠ _ ↔ _
  generalize pipelineAfter env tick draw s k = t at *
  unfold Db.stage? at hstays ⊢
  rw [← hid] at hstays ⊢
  rw [opportunity?_of_mem hkey' ho, Option.map_some, Option.some.injEq] at hstays
  rw [run_row _ _ _ hkey' ho, Option.map_some, ← hstays, Ne, Option.some.injEq, ← Ne,
    rowAfter_stage_of_inbound hkey' ho (hstays ▸ hnext), hsame.foundersOf]
  have hopen : o.IsOpen := by
    refine ⟨fun hstage => ?_, fun hstage => ?_⟩ <;>
    · rw [← hstays, hstage] at hnext
      cases hnext
  have hahead : ahead t.db o = ahead t.db opp := by
    unfold ahead
    rw [hplace]
  rw [mem_pipelineBatch_iff _ hkey' ho hopen, hahead, and_comm]
  simp only [hsame.gate]

/-- **Blocked for good.** An inbound opportunity with as many parked ones ahead as fit in a batch is
never moved. -/
theorem starved_of_parkedAhead (hkey : KeyUnique Opportunity.id s.db.opportunities)
    (hopp : opp ∈ s.db.opportunities) (hnext : opp.lifecycleState.inboundNext = some next)
    (hblocked : env.batchSize ≤ (parkedAhead s.db opp).length) (k : ℕ) :
    (pipelineAfter env tick draw s k).db.stage? opp.id = some opp.lifecycleState := by
  have hparked :
      ∀ k, env.batchSize ≤ (parkedAhead (pipelineAfter env tick draw s k).db opp).length := by
    intro k
    induction k with
    | zero => exact hblocked
    | succ k ih => exact ih.trans (parkedAhead_run (pipelineAfter_keyUnique _ _ _ hkey k))
  induction k with
  | zero =>
    unfold Db.stage?
    rw [show pipelineAfter env tick draw s 0 = s from rfl, opportunity?_of_mem hkey hopp]
    rfl
  | succ k ih =>
    by_contra hmoved
    obtain ⟨-, hroom⟩ := (stage?_succ_iff hkey hopp hnext ih).mp hmoved
    have hle : (parkedAhead (pipelineAfter env tick draw s k).db opp).length ≤
        (ahead (pipelineAfter env tick draw s k).db opp).length := List.length_filter_le _ _
    exact absurd ((hparked k).trans hle) (not_le.mpr hroom)

end

/-- The settings with batches of one. -/
def singleEnv : PipelineEnv :=
  { PipelineEnv.default with batchSize := 1, one_le_batchSize := le_refl 1 }

/-- One opportunity in screening with its axes, and these opportunities before it. -/
def screeningState (before : List Opportunity) (budget : ℤ) : PipelineState where
  db := sampleDb (before ++ [sampleOpportunity 7 .screening]) [sampleAxes 7]
  budget := budget

end VCBrain
