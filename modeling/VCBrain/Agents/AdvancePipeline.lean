import VCBrain.Foundation.OrderBy
import VCBrain.OpportunityService
import VCBrain.Processing.Reconcile

set_option relaxedAutoImplicit false
set_option autoImplicit false

/-!
# The pipeline job

`advance_pipeline_job`: every few minutes the open opportunities with the earliest deadlines are
looked at. Each is moved to its next stage if the artifact for it exists; otherwise a job that
produces the artifact is queued, charged to the agent budget and noted as an event.

## Main definitions

* `advance` — what a run makes of one opportunity, an `Advance`.
* `pipelineBatch` — the opportunities a run looks at.
* `advancePipelineJob` — a run.

## Main results

* `advance_outcome` — an opportunity is left alone, moved behind a gate, or noted.

## Design

A run reads the database through one session, so it sees its own writes. All instants of a run
are one instant. A query with `LIMIT 1` and no order returns any row of its result; which one is
a parameter of the environment. Ids of new events are drawn by `uuid4`.
-/

namespace VCBrain

/-- A query with `LIMIT 1`: some row of the result, if there is one. -/
structure LimitOne (ρ : Type*) where
  pick : List ρ → Option ρ
  mem_of_pick : ∀ rows row, pick rows = some row → row ∈ rows
  nil_of_pick : ∀ rows, pick rows = none → rows = []

/-- The first row of the result. -/
def LimitOne.first (ρ : Type*) : LimitOne ρ where
  pick := List.head?
  mem_of_pick _ _ := List.mem_of_mem_head?
  nil_of_pick _ := List.head?_eq_none_iff.mp

/-- The settings of the pipeline. -/
structure PipelineEnv where
  signalThreshold : ℚ
  /-- The text of the signal threshold in a reason. -/
  signalThresholdRepr : Str
  contactThreshold : ℚ
  stuckAfterMinutes : ℕ
  batchSize : ℕ
  one_le_batchSize : 1 ≤ batchSize
  anyFounder : LimitOne Person

/-- The settings by default. -/
def PipelineEnv.default : PipelineEnv where
  signalThreshold := 9 / 20
  signalThresholdRepr := "0.45"
  contactThreshold := 13 / 20
  stuckAfterMinutes := 30
  batchSize := 5
  one_le_batchSize := by decide
  anyFounder := .first Person

/-- A task of the collection queue. -/
structure QueueTask where
  jobType : Str
  personId : Uuid
  opportunityId : Option Uuid := none
  priority : ℚ := 10
deriving DecidableEq

/-- The counts a run returns. -/
structure PipelineSummary where
  transitions : ℕ := 0
  stuckClosed : ℕ := 0
  budgetExhausted : ℕ := 0
  needsAttention : ℕ := 0
deriving DecidableEq

/-- What a run makes of one opportunity. -/
structure Advance where
  opportunity : Opportunity
  event : Option DecisionEvent := none
  charge : ℤ := 0
  tasks : List QueueTask := []
  summary : PipelineSummary := {}

/-- `_INVESTIGATION_AGENT_CALLS`. -/
def investigationAgentCalls : ℤ := 5

/-- `_FOUNDER_SCORE_AGENT_CALLS`. -/
def founderScoreAgentCalls : ℤ := 5

/-- `_RESEARCH_AGENT_CALLS`. -/
def researchAgentCalls : ℤ := 3

/-- `_MAX_RETRIES`. -/
def maxRetries : ℕ := 3

/-- The actor of the pipeline's events. -/
def pipelineActor : Str := "pipeline:auto"

/-! ## Queries -/

/-- The pipeline's events of an opportunity whose reason is `LIKE '%fragment%'`. -/
def pipelineEvents (db : Db) (opportunityId : Uuid) (fragment : Str) : List DecisionEvent :=
  db.decisionEvents.filter fun e =>
    e.opportunityId = opportunityId ∧ e.actor = pipelineActor ∧
      e.reason.any fun reason => fragment <:+: reason

/-- `_count_retries`. -/
def countRetries (db : Db) (opportunityId : Uuid) : ℕ :=
  (pipelineEvents db opportunityId "retry").length

/-- `_has_recent_pipeline_event`. -/
def HasRecentPipelineEvent (db : Db) (opportunityId : Uuid) (fragment : Str) (since : Time) :
    Prop :=
  ∃ e ∈ pipelineEvents db opportunityId fragment, since ≤ e.createdAt

/-- `_has_opportunity_axes`. -/
def HasOpportunityAxes (db : Db) (opportunityId : Uuid) : Prop :=
  ∃ s ∈ db.scoreSnapshots, s.subjectId = opportunityId ∧
    s.subjectType = ("opportunity" : Str) ∧ s.rubricVersion = ("opportunity-axes-v1" : Str)

/-- `_has_memo`. -/
def HasMemo (db : Db) (opportunityId : Uuid) : Prop :=
  ∃ m ∈ db.investmentMemos, m.opportunityId = opportunityId ∧ m.status = ("succeeded" : Str)

/-- `_has_founder_score`. -/
def HasFounderScore (db : Db) (personId : Uuid) : Prop :=
  ∃ s ∈ db.scoreSnapshots, s.subjectId = personId ∧
    s.subjectType = ("person" : Str) ∧ s.rubricVersion = ("founder-agent-v1" : Str)

/-- `_has_scoped_claims`. -/
def HasScopedClaims (db : Db) (personId opportunityId : Uuid) : Prop :=
  ∃ claim ∈ db.claims, InScope personId (some opportunityId) claim ∧
    claim.status = .supported ∧ claim.supersessionId = none

section Instances

variable (db : Db) (personId opportunityId : Uuid)

instance (fragment : Str) (since : Time) :
    Decidable (HasRecentPipelineEvent db opportunityId fragment since) :=
  inferInstanceAs (Decidable (∃ e ∈ pipelineEvents db opportunityId fragment, _))

instance : Decidable (HasOpportunityAxes db opportunityId) :=
  inferInstanceAs (Decidable (∃ s ∈ db.scoreSnapshots, _))

instance : Decidable (HasMemo db opportunityId) :=
  inferInstanceAs (Decidable (∃ m ∈ db.investmentMemos, _))

instance : Decidable (HasFounderScore db personId) :=
  inferInstanceAs (Decidable (∃ s ∈ db.scoreSnapshots, _))

instance : Decidable (HasScopedClaims db personId opportunityId) :=
  inferInstanceAs (Decidable (∃ claim ∈ db.claims, _))

end Instances

/-- The persons who founded an opportunity. -/
def foundersOf (db : Db) (opportunityId : Uuid) : List Person :=
  (db.opportunityFounders.filter fun f => f.opportunityId = opportunityId).filterMap
    fun f => db.person? f.personId

/-- The latest score of a subject under a rubric. -/
def latestScore (db : Db) (subjectId : Uuid) (rubric : Str) : Option ScoreSnapshot :=
  latest ScoreSnapshot.createdAt
    (db.scoreSnapshots.filter fun s => s.subjectId = subjectId ∧ s.rubricVersion = rubric)

/-! ## One opportunity -/

section Advance

variable (env : PipelineEnv) (now : Time) (db : Db) (budget : ℤ) (newId : Uuid)
  (opp : Opportunity) (person : Person)

/-- Nothing happens. -/
def stay : Advance := { opportunity := opp }

/-- Nothing happens, as the budget does not suffice. -/
def waitForBudget : Advance :=
  { opportunity := opp, summary := { budgetExhausted := 1, needsAttention := 1 } }

/-- The opportunity is moved. A transition that is not allowed would raise. -/
def moveTo (newState : Stage) (reason : Str) : Advance :=
  match transitionOpportunity now newId opp newState pipelineActor reason with
  | none => stay opp
  | some (opportunity, event) =>
    { opportunity := opportunity, event := event, summary := { transitions := 1 } }

/-- A note of the pipeline that leaves the stage as it is. -/
def note (reason : Str) (metadata : List (Str × Json)) : DecisionEvent where
  id := newId
  opportunityId := opp.id
  priorState := opp.lifecycleState
  newState := opp.lifecycleState
  actor := pipelineActor
  reason := some reason
  slaMetadata := some (.obj metadata)
  createdAt := now

/-- `_queue_investigation_jobs`. -/
def investigationJobs : List QueueTask :=
  [{ jobType := "research_candidate", personId := person.id, opportunityId := some opp.id },
    { jobType := "score_candidate", personId := person.id },
    { jobType := "process_candidate", personId := person.id }]

/-- The start of the window in which a job counts as queued recently. -/
def stuckCutoff : Time := now - minutes env.stuckAfterMinutes

/-- `discovered`: the latest signal score decides. -/
def advanceDiscovered : Advance :=
  match latestScore db person.id "signal-v1" with
  | none => stay opp
  | some score =>
    let composite := (score.components.get? "composite").getD 0
    if composite ≥ env.signalThreshold then
      moveTo now newId opp .interesting (("Signal composite " : Str) ++ Str.fixed 3 composite ++
        (" >= threshold " : Str) ++ env.signalThresholdRepr)
    else stay opp

/-- `interesting`: the investigation is started. -/
def advanceInteresting : Advance :=
  if HasOpportunityAxes db opp.id then stay opp
  else if budget < investigationAgentCalls then waitForBudget opp
  else
    { moveTo now newId opp .investigating
        "Investigation started — research, scoring, and processing queued" with
      charge := investigationAgentCalls
      tasks := investigationJobs opp person }

/-- `investigating` without axes: the jobs are queued again after the stuck interval, three
times. -/
def retryInvestigation : Advance :=
  let retries := countRetries db opp.id
  if opp.updatedAt > stuckCutoff env now then stay opp
  else if retries ≥ maxRetries then
    { moveTo now newId opp .closed "Pipeline timeout after 3 retries" with
      summary := { stuckClosed := 1 } }
  else if budget < investigationAgentCalls then waitForBudget opp
  else
    { opportunity := { opp with updatedAt := now }
      event := some (note now newId opp (("Pipeline retry " : Str) ++ Str.decimal (retries + 1))
        [("retry", .int (retries + 1))])
      charge := investigationAgentCalls
      tasks := investigationJobs opp person }

/-- `investigating` with axes: an outreach draft is requested if the Founder Score suffices. -/
def requestOutreach : Advance :=
  match latestScore db person.id "founder-agent-v1" with
  | none => stay opp
  | some score =>
    let composite := (score.components.get? "founder").getD 0 * 100
    if composite ≥ env.contactThreshold * 100 then
      if budget ≤ 0 then waitForBudget opp
      else
        { opportunity := { opp with updatedAt := now }
          event := some (note now newId opp
            (("Outreach draft requested — Agent composite " : Str) ++ Str.fixed 1 composite ++
              (" >= contact threshold " : Str) ++ Str.fixed 0 (env.contactThreshold * 100))
            [("outreach_status", .str "drafted")])
          charge := 1
          tasks := [{ jobType := "contact_outbound", personId := person.id }] }
    else stay opp

/-- The inbound branches: the opportunity is moved if the artifact exists; otherwise the job that
produces it is queued, unless that was noted within the stuck interval. -/
def awaitArtifact (exists? : Bool) (next : Stage) (reason queued missing : Str) (calls : ℤ)
    (task : QueueTask) : Advance :=
  if exists? then moveTo now newId opp next reason
  else if calls ≤ budget ∧
      ¬ HasRecentPipelineEvent db opp.id queued (stuckCutoff env now) then
    { opportunity := opp
      event := some (note now newId opp queued
        [("pipeline_stage", .str opp.lifecycleState.key), ("missing_outputs", .arr [.str missing])])
      charge := calls
      tasks := [task] }
  else if budget < calls then { opportunity := opp, summary := { needsAttention := 1 } }
  else stay opp

/-- The body of the loop of `advance_pipeline_job`, for an opportunity with a founder. -/
def advance : Advance :=
  match opp.lifecycleState with
  | .discovered => advanceDiscovered env now db newId opp person
  | .interesting => advanceInteresting now db budget newId opp person
  | .investigating =>
    if HasOpportunityAxes db opp.id then requestOutreach env now db budget newId opp person
    else retryInvestigation env now db budget newId opp person
  | .received =>
    awaitArtifact env now db budget newId opp (HasScopedClaims db person.id opp.id) .triage
      "Scoped inbound processing completed" "Inbound processing queued" "scoped_claims" 1
      { jobType := "process_candidate", personId := person.id }
  | .triage =>
    awaitArtifact env now db budget newId opp (HasFounderScore db person.id) .screening
      "Triage output and Founder Score completed" "Founder Score queued" "founder_score"
      founderScoreAgentCalls { jobType := "score_candidate", personId := person.id }
  | .screening =>
    awaitArtifact env now db budget newId opp (HasOpportunityAxes db opp.id) .diligence
      "Three opportunity axes completed" "Opportunity research queued" "opportunity_axes"
      researchAgentCalls
      { jobType := "research_candidate", personId := person.id, opportunityId := some opp.id }
  | .diligence =>
    awaitArtifact env now db budget newId opp (HasMemo db opp.id) .memoReady
      "Validated investment memo generated" "Memo generation queued" "succeeded_memo" 1
      { jobType := "generate_memo", personId := person.id, opportunityId := some opp.id }
  | .contacted | .memoReady | .hold | .approved | .closed => stay opp

end Advance

/-! ## What can become of an opportunity -/

section Outcome

/-- The artifact behind a move of the pipeline to a stage; other stages it does not move to. -/
def Gate (db : Db) (personId opportunityId : Uuid) : Stage → Prop
  | .interesting | .investigating | .closed => True
  | .triage => HasScopedClaims db personId opportunityId
  | .screening => HasFounderScore db personId
  | .diligence => HasOpportunityAxes db opportunityId
  | .memoReady => HasMemo db opportunityId
  | .discovered | .contacted | .received | .hold | .approved => False

/-- The three things that can become of an opportunity. -/
inductive Outcome (now : Time) (db : Db) (newId : Uuid) (opp : Opportunity) (personId : Uuid)
    (a : Advance) : Prop
  | idle (opportunity : a.opportunity = opp) (event : a.event = none) (charge : a.charge = 0)
      (tasks : a.tasks = [])
  | moved (newState : Stage) (reason : Str) (ne : opp.lifecycleState ≠ newState)
      (valid : isValidTransition opp.lifecycleState newState = true)
      (gate : Gate db personId opp.id newState)
      (opportunity : a.opportunity = moved now newState opp)
      (event : a.event = some (transitionEvent now newId opp newState pipelineActor reason))
      (charge : 0 ≤ a.charge ∧ a.charge ≤ 5)
  | noted (reason : Str) (metadata : List (Str × Json))
      (opportunity : a.opportunity = opp ∨ a.opportunity = { opp with updatedAt := now })
      (event : a.event = some (note now newId opp reason metadata)) (tasks : a.tasks ≠ [])
      (charge : 0 ≤ a.charge ∧ a.charge ≤ 5)

variable {env : PipelineEnv} {now : Time} {db : Db} {budget : ℤ} {newId : Uuid}
  {opp : Opportunity} {person : Person}

/-- A move along an allowed transition. -/
lemma moveTo_eq {newState : Stage} {reason : Str} (hne : opp.lifecycleState ≠ newState)
    (hvalid : isValidTransition opp.lifecycleState newState = true) :
    moveTo now newId opp newState reason =
      { opportunity := moved now newState opp
        event := some (transitionEvent now newId opp newState pipelineActor reason)
        summary := { transitions := 1 } } := by
  unfold moveTo
  rw [transitionOpportunity_eq hne hvalid]

/-- An inbound branch moves the opportunity behind its gate, or notes the job it queues. -/
lemma awaitArtifact_outcome {artifact : Prop} [Decidable artifact] {next : Stage}
    {reason queued missing : Str} {calls : ℤ} {task : QueueTask} (hcalls : 0 ≤ calls ∧ calls ≤ 5)
    (hne : opp.lifecycleState ≠ next)
    (hvalid : isValidTransition opp.lifecycleState next = true)
    (hgate : artifact → Gate db person.id opp.id next) :
    Outcome now db newId opp person.id
      (awaitArtifact env now db budget newId opp (decide artifact) next reason queued missing calls
        task) := by
  unfold awaitArtifact
  by_cases hexists : artifact
  · rw [if_pos (by simpa using hexists), moveTo_eq hne hvalid]
    exact .moved next reason hne hvalid (hgate hexists) rfl rfl
      (show (0 : ℤ) ≤ 0 ∧ (0 : ℤ) ≤ 5 by decide)
  · rw [if_neg (by simpa using hexists)]
    split_ifs
    · exact .noted queued _ (Or.inl rfl) rfl (List.cons_ne_nil _ _) hcalls
    · exact .idle rfl rfl rfl rfl
    · exact .idle rfl rfl rfl rfl

private lemma idle_stay : Outcome now db newId opp person.id (stay opp) := .idle rfl rfl rfl rfl

private lemma idle_waitForBudget : Outcome now db newId opp person.id (waitForBudget opp) :=
  .idle rfl rfl rfl rfl

private lemma advanceDiscovered_outcome (hstage : opp.lifecycleState = .discovered) :
    Outcome now db newId opp person.id (advanceDiscovered env now db newId opp person) := by
  unfold advanceDiscovered
  cases latestScore db person.id "signal-v1" with
  | none => exact idle_stay
  | some score =>
    dsimp only
    split_ifs
    · rw [moveTo_eq (by simp [hstage]) (by rw [hstage]; decide)]
      exact .moved .interesting _ (by simp [hstage]) (by rw [hstage]; decide) trivial rfl rfl
        (show (0 : ℤ) ≤ 0 ∧ (0 : ℤ) ≤ 5 by decide)
    · exact idle_stay

private lemma advanceInteresting_outcome (hstage : opp.lifecycleState = .interesting) :
    Outcome now db newId opp person.id (advanceInteresting now db budget newId opp person) := by
  unfold advanceInteresting
  split_ifs
  · exact idle_stay
  · exact idle_waitForBudget
  · rw [moveTo_eq (by simp [hstage]) (by rw [hstage]; decide)]
    exact .moved .investigating _ (by simp [hstage]) (by rw [hstage]; decide) trivial rfl rfl
      (show (0 : ℤ) ≤ 5 ∧ (5 : ℤ) ≤ 5 by decide)

private lemma retryInvestigation_outcome (hstage : opp.lifecycleState = .investigating) :
    Outcome now db newId opp person.id
      (retryInvestigation env now db budget newId opp person) := by
  unfold retryInvestigation
  dsimp only
  split_ifs
  · exact idle_stay
  · rw [moveTo_eq (by simp [hstage]) (by rw [hstage]; decide)]
    exact .moved .closed _ (by simp [hstage]) (by rw [hstage]; decide) trivial rfl rfl
      (show (0 : ℤ) ≤ 0 ∧ (0 : ℤ) ≤ 5 by decide)
  · exact idle_waitForBudget
  · exact .noted _ _ (Or.inr rfl) rfl (List.cons_ne_nil _ _)
      (show (0 : ℤ) ≤ 5 ∧ (5 : ℤ) ≤ 5 by decide)

private lemma requestOutreach_outcome :
    Outcome now db newId opp person.id (requestOutreach env now db budget newId opp person) := by
  unfold requestOutreach
  cases latestScore db person.id "founder-agent-v1" with
  | none => exact idle_stay
  | some score =>
    dsimp only
    split_ifs
    · exact idle_waitForBudget
    · exact .noted _ _ (Or.inr rfl) rfl (List.cons_ne_nil _ _)
        (show (0 : ℤ) ≤ 1 ∧ (1 : ℤ) ≤ 5 by decide)
    · exact idle_stay

variable (env now db budget newId opp person) in
/-- **Outcomes.** An opportunity is left alone, moved along an allowed transition behind the gate of
its new stage, or noted with a queued job. -/
lemma advance_outcome :
    Outcome now db newId opp person.id (advance env now db budget newId opp person) := by
  unfold advance
  cases hstage : opp.lifecycleState with
  | discovered => exact advanceDiscovered_outcome hstage
  | interesting => exact advanceInteresting_outcome hstage
  | investigating =>
    dsimp only
    split_ifs
    · exact requestOutreach_outcome
    · exact retryInvestigation_outcome hstage
  | received =>
    exact awaitArtifact_outcome (by decide) (by simp [hstage]) (by rw [hstage]; decide) id
  | triage =>
    exact awaitArtifact_outcome (by decide) (by simp [hstage]) (by rw [hstage]; decide) id
  | screening =>
    exact awaitArtifact_outcome (by decide) (by simp [hstage]) (by rw [hstage]; decide) id
  | diligence =>
    exact awaitArtifact_outcome (by decide) (by simp [hstage]) (by rw [hstage]; decide) id
  | contacted => exact idle_stay
  | memoReady => exact idle_stay
  | hold => exact idle_stay
  | approved => exact idle_stay
  | closed => exact idle_stay

end Outcome

/-! ## A run -/

/-- What a run works on: the database, the agent budget in Redis and the collection queue. -/
structure PipelineState where
  db : Db
  budget : ℤ
  queue : List QueueTask := []
  summary : PipelineSummary := {}

/-- `enqueue`: a task that is queued already is not duplicated. -/
def enqueueTask (queue : List QueueTask) (task : QueueTask) : List QueueTask :=
  if task ∈ queue then queue else queue ++ [task]

/-- The counts of a run so far and of one more opportunity. -/
def PipelineSummary.add (a b : PipelineSummary) : PipelineSummary where
  transitions := a.transitions + b.transitions
  stuckClosed := a.stuckClosed + b.stuckClosed
  budgetExhausted := a.budgetExhausted + b.budgetExhausted
  needsAttention := a.needsAttention + b.needsAttention

/-- The row of an opportunity and its event are written, the budget is charged and the tasks are
queued. -/
def PipelineState.record (s : PipelineState) (a : Advance) : PipelineState where
  db := { s.db with
    opportunities := replaceOpportunity s.db.opportunities a.opportunity
    decisionEvents := s.db.decisionEvents ++ a.event.toList }
  budget := s.budget - a.charge
  queue := a.tasks.foldl enqueueTask s.queue
  summary := s.summary.add a.summary

/-- The key of the order in which opportunities are looked at: deadlines first, those without a
deadline last, then the time of creation and the id. -/
def batchKey (o : Opportunity) : WithTop Time ×ₗ (Time ×ₗ Uuid) :=
  toLex (o.decisionDueAt.elim ⊤ fun due => (due : WithTop Time), toLex (o.createdAt, o.id))

/-- The stages a run selects. -/
def Opportunity.IsOpen (o : Opportunity) : Prop :=
  o.lifecycleState ≠ .approved ∧ o.lifecycleState ≠ .closed

instance : DecidablePred Opportunity.IsOpen := fun _ => inferInstanceAs (Decidable (_ ∧ _))

/-- The opportunities a run looks at. -/
def pipelineBatch (env : PipelineEnv) (db : Db) : List Opportunity :=
  (orderBy batchKey (db.opportunities.filter fun o => o.IsOpen)).take env.batchSize

section Run

variable (env : PipelineEnv) (now : Time) (draw : Uuid → Uuid)

/-- What the run makes of an opportunity when its turn comes, if it has a founder. -/
def turn (s : PipelineState) (opp : Opportunity) : Option Advance :=
  (env.anyFounder.pick (foundersOf s.db opp.id)).map
    (advance env now s.db s.budget (draw opp.id) opp)

/-- One round of the loop. -/
def advanceOne (s : PipelineState) (opp : Opportunity) : PipelineState :=
  match turn env now draw s opp with
  | none => s
  | some a => s.record a

/-- `advance_pipeline_job`. The result is the summary with the size of the batch. -/
def advancePipelineJob (s : PipelineState) : PipelineState :=
  (pipelineBatch env s.db).foldl (advanceOne env now draw) { s with summary := {} }

end Run

end VCBrain
