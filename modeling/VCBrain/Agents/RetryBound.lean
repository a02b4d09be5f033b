import VCBrain.Agents.PipelineProgress
import VCBrain.Foundation.Guarded

set_option relaxedAutoImplicit false
set_option autoImplicit false

/-!
# Retries of an investigation

An investigation without axes is retried by the pipeline. How often it was retried is not stored but
counted in the events of the opportunity. This file bounds the retries over any schedule of runs.

## Main definitions

* `DecisionEvent.IsRetry`, `retryEvents` — the events `Pipeline retry …`.
* `RetrySystem.step` — a run of the job, the turn of an overlapping run, or what others write.
* `LeavesRetries` — what others write adds or removes no retry and no axes.
* `RetryInv` — what holds after every schedule.

## Main results

* `RetryInv.step` — what a step preserves.
* `retries_bounded` — three retries at most, at fifteen calls, and then the investigation is closed.

## Design

A run is one that commits. The row of an opportunity is locked from the moment a run selects it, so
of overlapping runs one at a time has a turn for it, and the others write elsewhere.
-/

namespace VCBrain

/-! ## Retries -/

/-- An event `Pipeline retry …`. -/
def DecisionEvent.IsRetry (e : DecisionEvent) : Prop :=
  e.actor = pipelineActor ∧ ∃ reason ∈ e.reason, "Pipeline retry".toList <+: reason

instance : DecidablePred DecisionEvent.IsRetry :=
  fun e => inferInstanceAs (Decidable (_ ∧ ∃ reason ∈ e.reason, _))

/-- The retries of an opportunity. -/
def retryEvents (db : Db) (id : Uuid) : List DecisionEvent :=
  (db.eventsOf id).filter fun e => e.IsRetry

/-- `_count_retries` counts every retry. -/
lemma length_retryEvents_le (db : Db) (id : Uuid) :
    (retryEvents db id).length ≤ countRetries db id := by
  unfold retryEvents countRetries
  rw [pipelineEvents_eq, ← List.countP_eq_length_filter, ← List.countP_eq_length_filter]
  refine List.countP_mono_left fun e _ h => ?_
  obtain ⟨hactor, reason, hreason, hretry⟩ := of_decide_eq_true h
  have hpart : "retry".toList <:+: "Pipeline retry".toList := by decide
  refine decide_eq_true ⟨hactor, ?_⟩
  rw [Option.mem_def.mp hreason, Option.any_some]
  exact decide_eq_true (hpart.trans hretry.isInfix)

lemma retryEvents_of_append {db db' : Db} {id : Uuid} {new : List DecisionEvent}
    (h : db'.eventsOf id = db.eventsOf id ++ new) :
    retryEvents db' id = retryEvents db id ++ new.filter fun e => e.IsRetry := by
  unfold retryEvents
  rw [h, List.filter_append]

/-- A reason with another first letter is no retry. -/
lemma not_isRetry_of_head? {e : DecisionEvent} {reason : Str} (hreason : e.reason = some reason)
    (hhead : reason.head? ≠ some 'P') : ¬ e.IsRetry := by
  rintro ⟨-, r, hr, rest, rfl⟩
  rw [hreason] at hr
  obtain rfl := Option.some.inj hr
  exact hhead rfl

section Advance

variable {env : PipelineEnv} {now : Time} {db : Db} {budget : ℤ} {newId : Uuid}
  {opp : Opportunity} {person : Person}

/-- What a turn makes of an opportunity as far as retries go. -/
inductive RetryOutcome (db : Db) (opp : Opportunity) (a : Advance) : Prop
  | other (event : ∀ e ∈ a.event, ¬ e.IsRetry)
      (charge : opp.lifecycleState = .investigating → a.charge = 0)
  | retried (stage : opp.lifecycleState = .investigating)
      (few : countRetries db opp.id < maxRetries) (e : DecisionEvent) (event : a.event = some e)
      (retry : e.IsRetry) (charge : a.charge = investigationAgentCalls)

private lemma retryOutcome_stay : RetryOutcome db opp (stay opp) :=
  .other (fun _ he => absurd he (Option.not_mem_none _)) fun _ => rfl

private lemma retryOutcome_waitForBudget : RetryOutcome db opp (waitForBudget opp) :=
  .other (fun _ he => absurd he (Option.not_mem_none _)) fun _ => rfl

/-- A move whose reason has another first letter is no retry. -/
lemma not_isRetry_moveTo {newState : Stage} {reason : Str} {c : Char} {rest : Str}
    (hreason : reason = c :: rest) (hc : c ≠ 'P') :
    ∀ e ∈ (moveTo now newId opp newState reason).event, ¬ e.IsRetry := by
  subst hreason
  intro e he
  unfold moveTo transitionOpportunity at he
  split_ifs at he
  · cases he
  · cases he
  · obtain rfl := Option.mem_some_iff.mp he
    exact not_isRetry_of_head? rfl fun h => hc (Option.some.inj h)

/-- An inbound branch notes no retry. -/
lemma not_isRetry_awaitArtifact {exists? : Bool} {next : Stage} {reason queued missing : Str}
    {calls : ℤ} {task : QueueTask} (hreason : ∃ c rest, reason = c :: rest ∧ c ≠ 'P')
    (hqueued : queued.head? ≠ some 'P') :
    ∀ e ∈ (awaitArtifact env now db budget newId opp exists? next reason queued missing calls
      task).event, ¬ e.IsRetry := by
  obtain ⟨c, rest, hcons, hc⟩ := hreason
  unfold awaitArtifact
  split_ifs
  · exact not_isRetry_moveTo hcons hc
  · intro e he
    obtain rfl := Option.mem_some_iff.mp he
    exact not_isRetry_of_head? rfl hqueued
  · exact fun _ he => absurd he (Option.not_mem_none _)
  · exact fun _ he => absurd he (Option.not_mem_none _)

/-- The investigation is retried, closed or left alone. -/
lemma retryInvestigation_retryOutcome (hstage : opp.lifecycleState = .investigating) :
    RetryOutcome db opp (retryInvestigation env now db budget newId opp person) := by
  unfold retryInvestigation
  dsimp only
  split_ifs with hwindow hmany hbudget
  · exact retryOutcome_stay
  · rw [moveTo_eq (by simp [hstage]) (by rw [hstage]; decide)]
    refine .other (fun e he => ?_) fun _ => rfl
    obtain rfl := Option.mem_some_iff.mp he
    rintro ⟨-, reason, hreason, hretry⟩
    obtain rfl := Option.mem_some_iff.mp hreason
    revert hretry
    decide
  · exact retryOutcome_waitForBudget
  · exact .retried hstage (not_le.mp hmany) _ rfl
      ⟨rfl, _, rfl, ⟨_, (List.append_assoc ..).symm⟩⟩ rfl

/-- A signal that moves the opportunity is no retry. -/
lemma not_isRetry_advanceDiscovered :
    ∀ e ∈ (advanceDiscovered env now db newId opp person).event, ¬ e.IsRetry := by
  unfold advanceDiscovered
  cases latestScore db person.id "signal-v1" with
  | none => exact fun _ he => absurd he (Option.not_mem_none _)
  | some score =>
    dsimp only
    split_ifs
    · exact not_isRetry_moveTo rfl (by decide)
    · exact fun _ he => absurd he (Option.not_mem_none _)

/-- The start of the investigation is no retry. -/
lemma not_isRetry_advanceInteresting :
    ∀ e ∈ (advanceInteresting now db budget newId opp person).event, ¬ e.IsRetry := by
  unfold advanceInteresting
  split_ifs
  · exact fun _ he => absurd he (Option.not_mem_none _)
  · exact fun _ he => absurd he (Option.not_mem_none _)
  · exact not_isRetry_moveTo rfl (by decide)

variable (env now budget newId person) in
/-- **Turns.** A turn for an opportunity without axes is a retry at five calls, while there are
fewer than three, or adds no retry and charges nothing for an investigation. -/
lemma advance_retryOutcome (haxes : ¬ HasOpportunityAxes db opp.id) :
    RetryOutcome db opp (advance env now db budget newId opp person) := by
  by_cases hstage : opp.lifecycleState = .investigating
  · rw [advance_of_investigating hstage, if_neg haxes]
    exact retryInvestigation_retryOutcome hstage
  · refine .other ?_ fun h => absurd h hstage
    unfold advance
    cases hother : opp.lifecycleState with
    | discovered => exact not_isRetry_advanceDiscovered
    | interesting => exact not_isRetry_advanceInteresting
    | investigating => exact absurd hother hstage
    | received => exact not_isRetry_awaitArtifact ⟨_, _, rfl, by decide⟩ (by decide)
    | triage => exact not_isRetry_awaitArtifact ⟨_, _, rfl, by decide⟩ (by decide)
    | screening => exact not_isRetry_awaitArtifact ⟨_, _, rfl, by decide⟩ (by decide)
    | diligence => exact not_isRetry_awaitArtifact ⟨_, _, rfl, by decide⟩ (by decide)
    | contacted => exact fun _ he => absurd he (Option.not_mem_none _)
    | memoReady => exact fun _ he => absurd he (Option.not_mem_none _)
    | hold => exact fun _ he => absurd he (Option.not_mem_none _)
    | approved => exact fun _ he => absurd he (Option.not_mem_none _)
    | closed => exact fun _ he => absurd he (Option.not_mem_none _)

end Advance

/-! ## Schedules -/

/-- The database, and the agent calls charged for retries of the opportunity so far. -/
structure RetrySystem where
  db : Db
  charged : ℤ := 0

/-- What happens between two looks at the opportunity. -/
inductive RetryStep where
  /-- A run of the job. -/
  | run (env : PipelineEnv) (now : Time) (draw : Uuid → Uuid) (budget : ℤ)
  /-- The turn of the opportunity in a run that overlaps others. -/
  | turn (env : PipelineEnv) (now : Time) (draw : Uuid → Uuid) (budget : ℤ)
  /-- Other runs and jobs have written this database. -/
  | elsewhere (db : Db)

/-- The agent calls that are charged for an investigation. -/
def retryCharge (db : Db) (id : Uuid) (a : Option Advance) : ℤ :=
  if (db.opportunity? id).any (fun o => o.lifecycleState = .investigating) then
    a.elim 0 Advance.charge
  else 0

/-- What the turn in an overlapping run makes of the opportunity, whose row it has locked. -/
def lockedTurn (env : PipelineEnv) (now : Time) (draw : Uuid → Uuid) (s : PipelineState)
    (id : Uuid) : Option Advance :=
  ((s.db.opportunity? id).filter fun o => o.IsOpen).bind (turn env now draw s)

namespace RetrySystem

/-- The state in which a run or a turn begins. -/
def pipeline (s : RetrySystem) (budget : ℤ) : PipelineState := { db := s.db, budget := budget }

@[simp] lemma pipeline_db (s : RetrySystem) (budget : ℤ) : (s.pipeline budget).db = s.db := rfl

/-- One step of a schedule. -/
def step (id : Uuid) (s : RetrySystem) : RetryStep → Option RetrySystem
  | .run env now draw budget => some
    { db := (advancePipelineJob env now draw (s.pipeline budget)).db
      charged := s.charged + retryCharge s.db id (outcomeOf env now draw (s.pipeline budget) id) }
  | .turn env now draw budget => some
    { db := ((lockedTurn env now draw (s.pipeline budget) id).elim (s.pipeline budget)
        (s.pipeline budget).record).db
      charged := s.charged + retryCharge s.db id (lockedTurn env now draw (s.pipeline budget) id) }
  | .elsewhere db => some { s with db := db }

end RetrySystem

/-- What others write leaves the ids distinct and the opportunity with a founder, and adds neither
axes nor a retry and removes none. -/
structure LeavesRetries (id : Uuid) (db db' : Db) : Prop where
  keys : KeyUnique Opportunity.id db'.opportunities
  founder : foundersOf db' id ≠ []
  axes : ¬ HasOpportunityAxes db' id
  retries : (retryEvents db' id).length = (retryEvents db id).length

/-- The condition on a step of a schedule. -/
def RetrySystem.Allows (id : Uuid) (s : RetrySystem) : RetryStep → Prop
  | .elsewhere db => LeavesRetries id s.db db
  | _ => True

/-- The step is a run that selects the opportunity outside of the stuck window. -/
def RetrySystem.SelectsStuck (s : RetrySystem) (opp : Opportunity) : RetryStep → Prop
  | .run env now _ _ => opp ∈ pipelineBatch env s.db ∧ opp.updatedAt ≤ stuckCutoff env now
  | .turn env now _ _ => s.db.opportunity? opp.id = some opp ∧
      opp.updatedAt ≤ stuckCutoff env now
  | .elsewhere _ => False

/-- What holds of an opportunity without axes after every schedule. -/
structure RetryInv (id : Uuid) (s : RetrySystem) : Prop where
  keys : KeyUnique Opportunity.id s.db.opportunities
  founder : foundersOf s.db id ≠ []
  axes : ¬ HasOpportunityAxes s.db id
  charged : s.charged = investigationAgentCalls * (retryEvents s.db id).length
  few : (retryEvents s.db id).length ≤ maxRetries

/-! ## What a step can do -/

/-- What a run or a turn does to the opportunity: nothing, or what its turn makes of it. -/
inductive InvestigationTurn (id : Uuid) (s u : RetrySystem) : Prop
  | skipped (events : u.db.eventsOf id = s.db.eventsOf id) (charged : u.charged = s.charged)
  | turned (opp : Opportunity) (env : PipelineEnv) (now : Time) (budget : ℤ) (newId : Uuid)
      (person : Person) (row : s.db.opportunity? id = some opp)
      (events : u.db.eventsOf id = s.db.eventsOf id ++
        (advance env now s.db budget newId opp person).event.toList)
      (charged : u.charged = s.charged + if opp.lifecycleState = .investigating then
        (advance env now s.db budget newId opp person).charge else 0)

section Step

variable {id : Uuid} {s u : RetrySystem} {opp : Opportunity}

/-- A row of the table is the row under its id. -/
private lemma retryCharge_of_row (hrow : s.db.opportunity? id = some opp) (a : Advance) :
    retryCharge s.db id (some a) =
      if opp.lifecycleState = .investigating then a.charge else 0 := by
  unfold retryCharge
  simp [hrow]

private lemma retryCharge_none (db : Db) (id : Uuid) : retryCharge db id none = 0 := by
  unfold retryCharge
  split_ifs <;> rfl

variable (id) in
/-- A run of the job has one turn for the opportunity, or none. -/
lemma handled_run (hkeys : KeyUnique Opportunity.id s.db.opportunities) (env : PipelineEnv)
    (now : Time) (draw : Uuid → Uuid) (budget : ℤ)
    (h : s.step id (.run env now draw budget) = some u) : InvestigationTurn id s u := by
  obtain rfl := Option.some.inj h
  by_cases hmem : ∃ opp ∈ pipelineBatch env s.db, opp.id = id
  · obtain ⟨opp, hmem, rfl⟩ := hmem
    have hturn : TurnInRun env now draw (s.pipeline budget) opp := run_of_mem hkeys hmem
    have hrow : s.db.opportunity? opp.id = some opp :=
      opportunity?_of_mem hkeys (mem_of_mem_pipelineBatch hmem).1
    have hevents := hturn.events
    have houtcome := hturn.outcome
    cases hpick : env.anyFounder.pick (foundersOf s.db opp.id) with
    | none =>
      rw [RetrySystem.pipeline_db, hpick] at houtcome
      refine .skipped ?_ ?_
      · rw [hevents, houtcome]
        exact List.append_nil _
      · show s.charged + retryCharge s.db opp.id _ = s.charged
        rw [houtcome, Option.map_none, retryCharge_none, add_zero]
    | some person =>
      rw [RetrySystem.pipeline_db, hpick] at houtcome
      refine .turned opp env now (beforeTurn env now draw (s.pipeline budget) opp.id).budget
        (draw opp.id) person hrow ?_ ?_
      · rw [hevents, houtcome]
        rfl
      · show s.charged + retryCharge s.db opp.id _ = _
        rw [houtcome, Option.map_some, retryCharge_of_row hrow]
  · push Not at hmem
    obtain ⟨-, -, hevents⟩ := foldl_frame env now draw (fun o ho => (hmem o ho).symm)
      ({ s.pipeline budget with summary := {} } : PipelineState)
    have houtcome : outcomeOf env now draw (s.pipeline budget) id = none := by
      unfold outcomeOf
      rw [List.find?_eq_none.mpr fun o ho => by simpa using hmem o ho]
      rfl
    refine .skipped hevents ?_
    show s.charged + retryCharge s.db id _ = s.charged
    rw [houtcome, retryCharge_none, add_zero]

/-- A turn in an overlapping run does what its turn makes of the opportunity. -/
lemma handled_turn (env : PipelineEnv) (now : Time) (draw : Uuid → Uuid) (budget : ℤ)
    (h : s.step id (.turn env now draw budget) = some u) : InvestigationTurn id s u := by
  obtain rfl := Option.some.inj h
  cases hlocked : lockedTurn env now draw (s.pipeline budget) id with
  | none =>
    refine .skipped rfl ?_
    show s.charged + retryCharge s.db id none = s.charged
    rw [retryCharge_none, add_zero]
  | some a =>
    obtain ⟨opp, hopp, hturn⟩ := Option.bind_eq_some_iff.mp hlocked
    obtain ⟨hrow, -⟩ := Option.filter_eq_some_iff.mp hopp
    have hid : opp.id = id := id_of_opportunity? hrow
    subst hid
    obtain ⟨person, -, ha⟩ := Option.map_eq_some_iff.mp hturn
    obtain ⟨haid, hevent, -⟩ := turn_ids hturn
    refine .turned opp env now budget (draw opp.id) person hrow ?_ ?_
    · have hself := (record_self (s := s.pipeline budget) (a := a)
        (by rw [haid]; exact Option.isSome_iff_exists.mpr ⟨opp, hrow⟩)
        (fun e he => (hevent e he).trans haid.symm)).2
      rw [haid] at hself
      rw [show advance env now s.db budget (draw opp.id) opp person = a from ha]
      exact hself
    · show s.charged + retryCharge s.db opp.id (some a) = _
      rw [retryCharge_of_row hrow,
        show advance env now s.db budget (draw opp.id) opp person = a from ha]

/-- What a turn makes of the opportunity keeps count of the retries and the calls. -/
lemma RetryInv.handled (h : RetryInv id s) (hstep : InvestigationTurn id s u) :
    u.charged = investigationAgentCalls * (retryEvents u.db id).length ∧
      (retryEvents u.db id).length ≤ maxRetries := by
  cases hstep with
  | skipped hevents hcharged =>
    have hsame : retryEvents u.db id = retryEvents s.db id := by
      unfold retryEvents
      rw [hevents]
    rw [hsame, hcharged]
    exact ⟨h.charged, h.few⟩
  | turned opp env now budget newId person hrow hevents hcharged =>
    have hid : opp.id = id := id_of_opportunity? hrow
    subst hid
    rw [retryEvents_of_append hevents]
    cases advance_retryOutcome env now budget newId person h.axes with
    | other hevent hcharge =>
      have hnone : ((advance env now s.db budget newId opp person).event.toList.filter
          fun e => e.IsRetry) = [] := by
        rw [List.filter_eq_nil_iff]
        intro e he
        simpa using hevent e (by simpa using he)
      have hsame : u.charged = s.charged := by
        rw [hcharged]
        split_ifs with hstage
        · rw [hcharge hstage, add_zero]
        · exact add_zero _
      rw [hnone, List.append_nil, hsame]
      exact ⟨h.charged, h.few⟩
    | retried hstage hfew e hevent hretry hcharge =>
      have hle := length_retryEvents_le s.db opp.id
      have hlength : (retryEvents s.db opp.id ++ (advance env now s.db budget newId opp
          person).event.toList.filter fun e => e.IsRetry).length =
            (retryEvents s.db opp.id).length + 1 := by
        rw [hevent, List.length_append]
        simp [hretry]
      rw [hlength, hcharged, if_pos hstage, hcharge, h.charged]
      refine ⟨?_, by omega⟩
      push_cast
      ring

variable (id) in
/-- A run or a turn keeps the artifacts and the ids of the table. -/
lemma frame_step {e : RetryStep} (helsewhere : ∀ db, e ≠ .elsewhere db)
    (hkeys : KeyUnique Opportunity.id s.db.opportunities) (h : s.step id e = some u) :
    SameArtifacts s.db u.db ∧ KeyUnique Opportunity.id u.db.opportunities := by
  cases e with
  | run env now draw budget =>
    obtain rfl := Option.some.inj h
    exact ⟨run_sameArtifacts env now draw (s.pipeline budget), run_keyUnique env now draw hkeys⟩
  | turn env now draw budget =>
    obtain rfl := Option.some.inj h
    cases lockedTurn env now draw (s.pipeline budget) id with
    | none => exact ⟨.refl _, hkeys⟩
    | some a =>
      refine ⟨record_sameArtifacts (s.pipeline budget) a, ?_⟩
      show KeyUnique Opportunity.id (replaceOpportunity s.db.opportunities a.opportunity)
      unfold KeyUnique
      rw [map_id_replaceOpportunity]
      exact hkeys
  | elsewhere db => exact absurd rfl (helsewhere db)

/-- **Steps.** A step of a schedule keeps count of the retries and of their calls. -/
lemma RetryInv.step {e : RetryStep} (h : RetryInv id s) (hstep : s.step id e = some u)
    (hallows : s.Allows id e) : RetryInv id u := by
  have hrun : (∀ db, e ≠ .elsewhere db) → InvestigationTurn id s u → RetryInv id u := by
    intro helsewhere hhandled
    obtain ⟨hsame, hkeys⟩ := frame_step id helsewhere h.keys hstep
    obtain ⟨hcharged, hfew⟩ := h.handled hhandled
    refine ⟨hkeys, ?_, ?_, hcharged, hfew⟩
    · rw [hsame.foundersOf]
      exact h.founder
    · rw [hsame.hasOpportunityAxes]
      exact h.axes
  cases e with
  | run env now draw budget =>
    exact hrun nofun (handled_run id h.keys env now draw budget hstep)
  | turn env now draw budget => exact hrun nofun (handled_turn env now draw budget hstep)
  | elsewhere db =>
    obtain rfl := Option.some.inj hstep
    refine ⟨hallows.keys, hallows.founder, hallows.axes, ?_, ?_⟩
    · rw [hallows.retries]
      exact h.charged
    · rw [hallows.retries]
      exact h.few

/-! ## The end of an investigation -/

/-- The turn after the third retry closes the investigation. -/
lemma advance_closes {env : PipelineEnv} {now : Time} {db : Db} {budget : ℤ} {newId : Uuid}
    {person : Person} (hstage : opp.lifecycleState = .investigating)
    (haxes : ¬ HasOpportunityAxes db opp.id) (hwindow : opp.updatedAt ≤ stuckCutoff env now)
    (hmany : maxRetries ≤ countRetries db opp.id) :
    (advance env now db budget newId opp person).opportunity = moved now .closed opp := by
  rw [advance_of_investigating hstage, if_neg haxes]
  unfold retryInvestigation
  dsimp only
  rw [if_neg (not_lt.mpr hwindow), if_pos hmany,
    moveTo_eq (by simp [hstage]) (by rw [hstage]; decide)]

/-- A run that selects the opportunity outside of the stuck window then closes it. -/
lemma RetryInv.closes {e : RetryStep} (h : RetryInv opp.id s)
    (hthree : (retryEvents s.db opp.id).length = maxRetries)
    (hstage : opp.lifecycleState = .investigating) (hselects : s.SelectsStuck opp e)
    (hstep : s.step opp.id e = some u) :
    ∃ row, u.db.opportunity? opp.id = some row ∧ row.lifecycleState = .closed := by
  have hmany : maxRetries ≤ countRetries s.db opp.id :=
    hthree ▸ length_retryEvents_le s.db opp.id
  cases e with
  | run env now draw budget =>
    obtain ⟨hmem, hwindow⟩ := hselects
    obtain rfl := Option.some.inj hstep
    have hturn : TurnInRun env now draw (s.pipeline budget) opp := run_of_mem h.keys hmem
    have hrow := hturn.row
    have houtcome := hturn.outcome
    cases hpick : env.anyFounder.pick (foundersOf s.db opp.id) with
    | none => exact absurd (env.anyFounder.nil_of_pick _ hpick) h.founder
    | some person =>
      rw [RetrySystem.pipeline_db, hpick] at houtcome
      rw [houtcome, Option.map_some, Option.elim_some,
        advance_closes hstage h.axes hwindow hmany] at hrow
      exact ⟨_, hrow, moved_lifecycleState _ _ _⟩
  | turn env now draw budget =>
    obtain ⟨hrow, hwindow⟩ := hselects
    obtain rfl := Option.some.inj hstep
    have hopen : opp.IsOpen := by
      unfold Opportunity.IsOpen
      rw [hstage]
      decide
    cases hpick : env.anyFounder.pick (foundersOf s.db opp.id) with
    | none => exact absurd (env.anyFounder.nil_of_pick _ hpick) h.founder
    | some person =>
      have hturn : turn env now draw (s.pipeline budget) opp =
          some (advance env now s.db budget (draw opp.id) opp person) := by
        unfold turn
        rw [RetrySystem.pipeline_db, hpick]
        rfl
      have hlocked : lockedTurn env now draw (s.pipeline budget) opp.id =
          some (advance env now s.db budget (draw opp.id) opp person) := by
        unfold lockedTurn
        rw [RetrySystem.pipeline_db, hrow, Option.filter_some_pos (by simpa using hopen),
          Option.bind_some, hturn]
      obtain ⟨hid, hevent, -⟩ := turn_ids hturn
      have hself := (record_self (s := s.pipeline budget)
        (by rw [hid]; exact Option.isSome_iff_exists.mpr ⟨opp, hrow⟩)
        (fun e he => (hevent e he).trans hid.symm)).1
      rw [hid, advance_closes hstage h.axes hwindow hmany] at hself
      rw [hlocked]
      exact ⟨_, hself, moved_lifecycleState _ _ _⟩
  | elsewhere db => exact hselects.elim

/-- **Bounded retries.** After any schedule an investigation whose axes never appear has been
retried three times at most, at fifteen calls at most. After three retries the next run that selects
it outside of the stuck window closes it.

**Proof sketch.** `RetryInv` holds after every schedule: a turn adds a retry, and charges for one,
only while `_count_retries` is below three, and that counts every retry. -/
theorem retries_bounded {id : Uuid} {s : RetrySystem} {es : List RetryStep}
    (hkeys : KeyUnique Opportunity.id s.db.opportunities) (hfounder : foundersOf s.db id ≠ [])
    (haxes : ¬ HasOpportunityAxes s.db id) (hnone : retryEvents s.db id = [])
    (hcharged : s.charged = 0)
    (hes : History.Guarded (RetrySystem.step id) (RetrySystem.Allows id) s es) :
    (retryEvents (History.replay (RetrySystem.step id) s es).db id).length ≤ 3 ∧
      (History.replay (RetrySystem.step id) s es).charged ≤ 15 ∧
      ((retryEvents (History.replay (RetrySystem.step id) s es).db id).length = 3 →
        ∀ opp e u, opp.id = id → opp.lifecycleState = .investigating →
          (History.replay (RetrySystem.step id) s es).SelectsStuck opp e →
          (History.replay (RetrySystem.step id) s es).step id e = some u →
          ∃ row, u.db.opportunity? id = some row ∧ row.lifecycleState = .closed) := by
  have hstart : RetryInv id s := by
    refine ⟨hkeys, hfounder, haxes, ?_, ?_⟩
    · rw [hcharged, hnone]
      rfl
    · rw [hnone]
      decide
  have hinv : RetryInv id (History.replay (RetrySystem.step id) s es) :=
    History.replay_of_guarded _ (fun _ _ _ h hstep hallows => h.step hstep hallows) hstart hes
  refine ⟨hinv.few, ?_, fun hthree opp e u hid hstage hselects hstep => ?_⟩
  · have hfew := hinv.few
    rw [hinv.charged]
    unfold investigationAgentCalls maxRetries at *
    omega
  · subst hid
    exact hinv.closes hthree hstage hselects hstep

end Step

/-- An investigation. -/
private def stalledRow (updatedAt : Time) : Opportunity where
  id := 7
  companyName := "Engines"
  sourceKind := "outbound"
  lifecycleState := .investigating
  createdAt := 0
  updatedAt := updatedAt

/-- It was last updated at time zero. -/
private def stalled : RetrySystem where
  db := {
    persons := [{ id := 1, stableId := "ada", createdAt := 0 }]
    opportunities := [stalledRow 0]
    opportunityFounders := [{ opportunityId := 7, personId := 1, role := "founder" }] }

/-- A run a given number of minutes later, with a hundred calls left. -/
private def runAfter (n : ℤ) : RetryStep := .run .default (minutes n) (fun _ => 9) 100

/-- The third retry of a stalled investigation is the last, and the fourth run closes it. -/
theorem retries_bounded_stalled :
    ∃ u, History.replay (RetrySystem.step 7) stalled [runAfter 30, runAfter 60, runAfter 90] = u ∧
      (retryEvents u.db 7).length = 3 ∧ u.charged ≤ 15 ∧
      ∃ v, u.step 7 (runAfter 120) = some v ∧
        ∃ row, v.db.opportunity? 7 = some row ∧ row.lifecycleState = .closed := by
  have hkeys : KeyUnique Opportunity.id stalled.db.opportunities := by
    unfold KeyUnique stalled
    decide
  obtain ⟨-, hcharged, hcloses⟩ := @retries_bounded 7 stalled
    [runAfter 30, runAfter 60, runAfter 90] hkeys (by decide +kernel) (by decide +kernel)
    (by decide +kernel) rfl ⟨fun _ _ => trivial, fun _ _ => trivial, fun _ _ => trivial, trivial⟩
  have hthree : (retryEvents (History.replay (RetrySystem.step 7) stalled
      [runAfter 30, runAfter 60, runAfter 90]).db 7).length = 3 := by decide +kernel
  refine ⟨_, rfl, hthree, hcharged, _, rfl, ?_⟩
  refine hcloses hthree (stalledRow (minutes 90)) (runAfter 120) _ rfl rfl ⟨?_, ?_⟩ rfl
  · decide +kernel
  · decide +kernel

end VCBrain
