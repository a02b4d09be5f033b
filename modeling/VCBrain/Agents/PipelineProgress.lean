import VCBrain.Agents.PipelineRun

set_option relaxedAutoImplicit false
set_option autoImplicit false

/-!
# What the pipeline does again

A run asks for a missing artifact once per stuck window. This file says for which opportunities a
run finds something to do at all, and for which it finds it again in the very next run.

## Main definitions

* `Due` — a run with enough budget does something for an opportunity.
* `Contactable` — an outreach draft is requested for an opportunity under investigation.
* `WithinWindow` — two instants between which nothing of an opportunity leaves the stuck window.
* `Quiescent` — a turn that charges nothing, queues nothing and records nothing.

## Main results

* `advance_inbound` — the four inbound branches are one branch with different parameters.
* `advance_event_iff` — a run with enough budget does something exactly for those that are due.
* `advance_again` — the next turn after one without a transition is quiescent, outreach apart.
-/

namespace VCBrain

/-- The stage that follows an inbound stage; the other stages have none. -/
def Stage.inboundNext : Stage → Option Stage
  | received => some triage
  | triage => some screening
  | screening => some diligence
  | diligence => some memoReady
  | discovered | interesting | investigating | contacted | memoReady | hold | approved | closed =>
    none

/-- The stages that the pipeline leaves to others or for good. -/
def Stage.IsParked (stage : Stage) : Prop :=
  stage = contacted ∨ stage = memoReady ∨ stage = hold ∨ stage = approved ∨ stage = closed

instance : DecidablePred Stage.IsParked := fun _ => inferInstanceAs (Decidable (_ ∨ _))

/-- The stages as the pipeline tells them apart. -/
lemma Stage.pipeline_cases (stage : Stage) :
    (∃ next, stage.inboundNext = some next) ∨ stage = discovered ∨ stage = interesting ∨
      stage = investigating ∨ stage.IsParked := by
  cases stage <;> simp [inboundNext, IsParked]

/-- What the pipeline notes when it queues the job an inbound opportunity waits for. -/
def queuedNote : Stage → Str
  | .received => "Inbound processing queued"
  | .triage => "Founder Score queued"
  | .screening => "Opportunity research queued"
  | .diligence => "Memo generation queued"
  | _ => []

/-- The job that produces the artifact an inbound opportunity waits for. -/
def inboundJob : Stage → Str
  | .received => "process_candidate"
  | .triage => "score_candidate"
  | .screening => "research_candidate"
  | .diligence => "generate_memo"
  | _ => []

/-- The latest signal score reaches the threshold. -/
def SignalReached (env : PipelineEnv) (db : Db) (person : Person) : Prop :=
  ∃ score ∈ latestScore db person.id "signal-v1",
    (score.components.get? "composite").getD 0 ≥ env.signalThreshold

/-- The latest Founder Score reaches the contact threshold. -/
def ScoreSuffices (env : PipelineEnv) (db : Db) (person : Person) : Prop :=
  ∃ score ∈ latestScore db person.id "founder-agent-v1",
    (score.components.get? "founder").getD 0 * 100 ≥ env.contactThreshold * 100

/-- An outreach draft is requested for the opportunity. -/
def Contactable (env : PipelineEnv) (db : Db) (person : Person) (opp : Opportunity) : Prop :=
  opp.lifecycleState = .investigating ∧ HasOpportunityAxes db opp.id ∧ ScoreSuffices env db person

/-- A run with enough budget does something for the opportunity. -/
def Due (env : PipelineEnv) (now : Time) (db : Db) (person : Person) (opp : Opportunity) : Prop :=
  match opp.lifecycleState with
  | .discovered => SignalReached env db person
  | .interesting => ¬ HasOpportunityAxes db opp.id
  | .investigating =>
    if HasOpportunityAxes db opp.id then ScoreSuffices env db person
    else opp.updatedAt ≤ stuckCutoff env now
  | .received | .triage | .screening | .diligence =>
    (∃ next ∈ opp.lifecycleState.inboundNext, Gate db person.id opp.id next) ∨
      ¬ HasRecentPipelineEvent db opp.id (queuedNote opp.lifecycleState) (stuckCutoff env now)
  | .contacted | .memoReady | .hold | .approved | .closed => False

section Instances

variable (env : PipelineEnv) (db : Db) (person : Person) (opp : Opportunity)

instance (personId opportunityId : Uuid) : DecidablePred (Gate db personId opportunityId)
  | .interesting | .investigating | .closed => .isTrue trivial
  | .triage => inferInstanceAs (Decidable (HasScopedClaims db personId opportunityId))
  | .screening => inferInstanceAs (Decidable (HasFounderScore db personId))
  | .diligence => inferInstanceAs (Decidable (HasOpportunityAxes db opportunityId))
  | .memoReady => inferInstanceAs (Decidable (HasMemo db opportunityId))
  | .discovered | .contacted | .received | .hold | .approved => .isFalse id

instance : Decidable (SignalReached env db person) :=
  inferInstanceAs (Decidable (∃ score ∈ latestScore db person.id "signal-v1", _))

instance : Decidable (ScoreSuffices env db person) :=
  inferInstanceAs (Decidable (∃ score ∈ latestScore db person.id "founder-agent-v1", _))

instance : Decidable (Contactable env db person opp) := inferInstanceAs (Decidable (_ ∧ _ ∧ _))

end Instances

section Turn

variable {env : PipelineEnv} {now later : Time} {db db' : Db} {budget budget' : ℤ}
  {newId newId' : Uuid} {opp : Opportunity} {person : Person}

lemma advance_of_discovered (hstage : opp.lifecycleState = .discovered) :
    advance env now db budget newId opp person =
      advanceDiscovered env now db newId opp person := by
  unfold advance
  rw [hstage]

lemma advance_of_interesting (hstage : opp.lifecycleState = .interesting) :
    advance env now db budget newId opp person =
      advanceInteresting now db budget newId opp person := by
  unfold advance
  rw [hstage]

lemma advance_of_investigating (hstage : opp.lifecycleState = .investigating) :
    advance env now db budget newId opp person =
      if HasOpportunityAxes db opp.id then requestOutreach env now db budget newId opp person
      else retryInvestigation env now db budget newId opp person := by
  unfold advance
  rw [hstage]

lemma advance_of_parked (hstage : opp.lifecycleState.IsParked) :
    advance env now db budget newId opp person = stay opp := by
  unfold advance
  rcases hstage with h | h | h | h | h <;> rw [h]

variable (env person) in
/-- **Inbound branches.** The branches of the four inbound stages are one branch with different
parameters. -/
lemma advance_inbound {next : Stage} (hnext : opp.lifecycleState.inboundNext = some next) :
    ∃ reason missing calls task, 1 ≤ calls ∧ calls ≤ 5 ∧ opp.lifecycleState ≠ next ∧
      isValidTransition opp.lifecycleState next = true ∧
      task.jobType = inboundJob opp.lifecycleState ∧ task.personId = person.id ∧
      ∀ now db budget newId, advance env now db budget newId opp person =
        awaitArtifact env now db budget newId opp (decide (Gate db person.id opp.id next)) next
          reason (queuedNote opp.lifecycleState) missing calls task := by
  unfold advance
  cases hstage : opp.lifecycleState <;> rw [hstage] at hnext <;> cases hnext
  case received =>
    exact ⟨_, _, _, _, le_refl _, by decide, nofun, by decide, rfl, rfl, fun _ _ _ _ => rfl⟩
  case triage =>
    exact ⟨_, _, _, _, by decide, le_refl _, nofun, by decide, rfl, rfl, fun _ _ _ _ => rfl⟩
  case screening =>
    exact ⟨_, _, _, _, by decide, by decide, nofun, by decide, rfl, rfl, fun _ _ _ _ => rfl⟩
  case diligence =>
    exact ⟨_, _, _, _, le_refl _, by decide, nofun, by decide, rfl, rfl, fun _ _ _ _ => rfl⟩

/-- An inbound branch moves the opportunity exactly if the artifact exists. -/
lemma advance_stage_of_inbound {next : Stage}
    (hnext : opp.lifecycleState.inboundNext = some next) :
    (advance env now db budget newId opp person).opportunity.lifecycleState ≠ opp.lifecycleState ↔
      Gate db person.id opp.id next := by
  obtain ⟨reason, missing, calls, task, -, -, hne, hvalid, -, -, hbranch⟩ :=
    advance_inbound env person hnext
  rw [hbranch]
  unfold awaitArtifact
  by_cases hgate : Gate db person.id opp.id next
  · rw [if_pos (decide_eq_true hgate), moveTo_eq hne hvalid]
    exact iff_of_true hne.symm hgate
  · rw [if_neg (by simpa using hgate)]
    split_ifs
    all_goals exact iff_of_false (fun h => h rfl) hgate

/-- The two instants lie so close that nothing of the opportunity leaves the stuck window. -/
structure WithinWindow (env : PipelineEnv) (db : Db) (opp : Opportunity) (now later : Time) :
    Prop where
  lt : later < now + minutes env.stuckAfterMinutes
  events : ∀ e ∈ db.eventsOf opp.id,
    stuckCutoff env now ≤ e.createdAt → stuckCutoff env later ≤ e.createdAt
  updatedAt : stuckCutoff env now < opp.updatedAt → stuckCutoff env later < opp.updatedAt

/-- A note of the pipeline is found again within the stuck window. -/
lemma hasRecentPipelineEvent_note {metadata : List (Str × Json)} {queued : Str}
    (hlt : later < now + minutes env.stuckAfterMinutes)
    (hevents : db'.eventsOf opp.id =
      db.eventsOf opp.id ++ [note now newId opp queued metadata]) :
    HasRecentPipelineEvent db' opp.id queued (stuckCutoff env later) := by
  refine ⟨note now newId opp queued metadata, ?_, ?_⟩
  · rw [pipelineEvents_eq, hevents, List.mem_filter]
    refine ⟨List.mem_append_right _ (List.mem_singleton_self _), decide_eq_true ⟨rfl, ?_⟩⟩
    simp [note]
  · show later - minutes env.stuckAfterMinutes ≤ now
    linarith

/-- What was noted recently is noted recently in the next run. -/
lemma hasRecentPipelineEvent_again {queued : Str} (hwindow : WithinWindow env db opp now later)
    {new : List DecisionEvent} (hevents : db'.eventsOf opp.id = db.eventsOf opp.id ++ new)
    (h : HasRecentPipelineEvent db opp.id queued (stuckCutoff env now)) :
    HasRecentPipelineEvent db' opp.id queued (stuckCutoff env later) := by
  obtain ⟨e, he, hrecent⟩ := h
  rw [pipelineEvents_eq, List.mem_filter] at he
  refine ⟨e, ?_, hwindow.events e he.1 hrecent⟩
  rw [pipelineEvents_eq, hevents, List.mem_filter]
  exact ⟨List.mem_append_left _ he.1, he.2⟩

variable (newId') in
/-- An inbound branch asks for the missing artifact once. -/
private lemma awaitArtifact_again {artifact : Prop} [Decidable artifact] {next : Stage}
    {reason queued missing : Str} {calls : ℤ} {task : QueueTask}
    (hwindow : WithinWindow env db opp now later) (hne : opp.lifecycleState ≠ next)
    (hvalid : isValidTransition opp.lifecycleState next = true) (hbudget : budget' ≤ budget)
    {a : Advance} (ha : awaitArtifact env now db budget newId opp (decide artifact) next reason
      queued missing calls task = a)
    (hevents : db'.eventsOf opp.id = db.eventsOf opp.id ++ a.event.toList)
    (hstays : a.opportunity.lifecycleState = opp.lifecycleState) :
    a.opportunity = opp ∧
      (awaitArtifact env later db' budget' newId' opp (decide artifact) next reason queued missing
        calls task).event = none := by
  unfold awaitArtifact at ha ⊢
  by_cases hexists : artifact
  · rw [if_pos (decide_eq_true hexists), moveTo_eq hne hvalid] at ha
    subst ha
    exact absurd hstays.symm hne
  · rw [if_neg (by simpa using hexists)] at ha ⊢
    by_cases hrecent : HasRecentPipelineEvent db opp.id queued (stuckCutoff env now)
    · rw [if_neg fun h => h.2 hrecent] at ha
      rw [if_neg fun h => h.2 (hasRecentPipelineEvent_again hwindow hevents hrecent)]
      subst ha
      split_ifs <;> exact ⟨rfl, rfl⟩
    · by_cases hcalls : calls ≤ budget
      · rw [if_pos ⟨hcalls, hrecent⟩] at ha
        subst ha
        have hnoted := hasRecentPipelineEvent_note hwindow.lt hevents
        rw [if_neg fun h => h.2 hnoted]
        split_ifs <;> exact ⟨rfl, rfl⟩
      · rw [if_neg fun h => hcalls h.1, if_pos (not_le.mp hcalls)] at ha
        subst ha
        rw [if_neg fun h => hcalls (h.1.trans hbudget)]
        split_ifs <;> exact ⟨rfl, rfl⟩

variable (env now db newId opp person) in
/-- A signal that reaches the threshold moves the opportunity; any other leaves it alone. -/
lemma advanceDiscovered_cases :
    SignalReached env db person ∧ (∃ reason,
        advanceDiscovered env now db newId opp person = moveTo now newId opp .interesting reason) ∨
      ¬ SignalReached env db person ∧ advanceDiscovered env now db newId opp person = stay opp := by
  unfold SignalReached advanceDiscovered
  cases latestScore db person.id "signal-v1" with
  | none => exact Or.inr ⟨by simp, rfl⟩
  | some score =>
    by_cases hreached : (score.components.get? "composite").getD 0 ≥ env.signalThreshold
    · exact Or.inl ⟨⟨score, rfl, hreached⟩, _, if_pos hreached⟩
    · exact Or.inr ⟨by simpa using hreached, if_neg hreached⟩

/-- A signal below the threshold is below it in the next run. -/
private lemma advanceDiscovered_again (hstage : opp.lifecycleState = .discovered)
    (h : SameArtifacts db db') {a : Advance}
    (ha : advanceDiscovered env now db newId opp person = a)
    (hstays : a.opportunity.lifecycleState = opp.lifecycleState) :
    (advanceDiscovered env later db' newId' a.opportunity person).event = none := by
  rcases advanceDiscovered_cases env now db newId opp person with ⟨-, reason, hmoved⟩ | ⟨hnot, -⟩
  · rw [hmoved, moveTo_eq (by simp [hstage]) (by rw [hstage]; decide)] at ha
    subst ha
    rw [hstage] at hstays
    cases hstays
  · rcases advanceDiscovered_cases env later db' newId' a.opportunity person with
        ⟨hreached, -⟩ | ⟨-, hstay⟩
    · unfold SignalReached at hnot hreached
      rw [h.latestScore] at hreached
      exact absurd hreached hnot
    · rw [hstay]
      rfl

variable (now db budget newId person) in
/-- An investigation that is not started has axes already or lacks the budget. -/
lemma advanceInteresting_cases (hstage : opp.lifecycleState = .interesting) {a : Advance}
    (ha : advanceInteresting now db budget newId opp person = a) :
    HasOpportunityAxes db opp.id ∧ a = stay opp ∨
      ¬ HasOpportunityAxes db opp.id ∧
        (budget < investigationAgentCalls ∧ a = waitForBudget opp ∨
          investigationAgentCalls ≤ budget ∧ a.opportunity.lifecycleState = .investigating ∧
            a.event.isSome) := by
  unfold advanceInteresting at ha
  by_cases haxes : HasOpportunityAxes db opp.id
  · rw [if_pos haxes] at ha
    exact Or.inl ⟨haxes, ha.symm⟩
  · rw [if_neg haxes] at ha
    refine Or.inr ⟨haxes, ?_⟩
    by_cases hlow : budget < investigationAgentCalls
    · rw [if_pos hlow] at ha
      exact Or.inl ⟨hlow, ha.symm⟩
    · rw [if_neg hlow, moveTo_eq (by simp [hstage]) (by rw [hstage]; decide)] at ha
      subst ha
      exact Or.inr ⟨not_lt.mp hlow, rfl, rfl⟩

/-- An investigation that was not started is not started in the next run. -/
private lemma advanceInteresting_again (hstage : opp.lifecycleState = .interesting)
    (h : SameArtifacts db db') (hbudget : budget' ≤ budget) {a : Advance}
    (ha : advanceInteresting now db budget newId opp person = a)
    (hstays : a.opportunity.lifecycleState = opp.lifecycleState) :
    (advanceInteresting later db' budget' newId' a.opportunity person).event = none := by
  have hsecond := advanceInteresting_cases later db' budget' newId' person (hstays.trans hstage) rfl
  rcases advanceInteresting_cases _ _ _ _ _ hstage ha with
    ⟨haxes, rfl⟩ | ⟨-, ⟨hlow, -⟩ | ⟨-, hmoved, -⟩⟩
  · rcases hsecond with ⟨-, hstay⟩ | ⟨hnot, -⟩
    · rw [hstay]
      rfl
    · exact absurd ((h.hasOpportunityAxes opp.id).mpr haxes) hnot
  · rcases hsecond with ⟨-, hstay⟩ | ⟨-, ⟨-, hwait⟩ | ⟨henough, -⟩⟩
    · rw [hstay]
      rfl
    · rw [hwait]
      rfl
    · exact absurd (hbudget.trans_lt hlow) (not_lt.mpr henough)
  · rw [hstage, hmoved] at hstays
    cases hstays

variable (env now db budget newId opp person) in
/-- A Founder Score that suffices requests a draft, if there is a call left. -/
lemma requestOutreach_cases :
    ScoreSuffices env db person ∧
        (budget ≤ 0 ∧ requestOutreach env now db budget newId opp person = waitForBudget opp ∨
          0 < budget ∧ ∃ reason metadata,
            requestOutreach env now db budget newId opp person =
              { opportunity := { opp with updatedAt := now }
                event := some (note now newId opp reason metadata)
                charge := 1
                tasks := [{ jobType := "contact_outbound", personId := person.id }] }) ∨
      ¬ ScoreSuffices env db person ∧
        requestOutreach env now db budget newId opp person = stay opp := by
  unfold ScoreSuffices requestOutreach
  cases latestScore db person.id "founder-agent-v1" with
  | none => exact Or.inr ⟨by simp, rfl⟩
  | some score =>
    by_cases hreached :
        (score.components.get? "founder").getD 0 * 100 ≥ env.contactThreshold * 100
    · refine Or.inl ⟨⟨score, rfl, hreached⟩, ?_⟩
      dsimp only
      rw [if_pos hreached]
      by_cases hbudget : budget ≤ 0
      · exact Or.inl ⟨hbudget, if_pos hbudget⟩
      · exact Or.inr ⟨not_le.mp hbudget, _, _, if_neg hbudget⟩
    · exact Or.inr ⟨by simpa using hreached, if_neg hreached⟩

/-- A Founder Score that does not suffice does not suffice in the next run. -/
private lemma requestOutreach_again (h : SameArtifacts db db')
    (hlow : ¬ ScoreSuffices env db person) :
    (requestOutreach env later db' budget' newId' opp person).event = none := by
  rcases requestOutreach_cases env later db' budget' newId' opp person with
      ⟨hsuffices, -⟩ | ⟨-, hstay⟩
  · unfold ScoreSuffices at hlow hsuffices
    rw [h.latestScore] at hsuffices
    exact absurd hsuffices hlow
  · rw [hstay]
    rfl

variable (env now db budget newId person) in
/-- An investigation waits, is closed, lacks the budget or is retried. -/
lemma retryInvestigation_cases (hstage : opp.lifecycleState = .investigating) {a : Advance}
    (ha : retryInvestigation env now db budget newId opp person = a) :
    stuckCutoff env now < opp.updatedAt ∧ a = stay opp ∨
      opp.updatedAt ≤ stuckCutoff env now ∧
        (maxRetries ≤ countRetries db opp.id ∧ a.opportunity.lifecycleState = .closed ∧
            a.event.isSome ∨
          countRetries db opp.id < maxRetries ∧
            (budget < investigationAgentCalls ∧ a = waitForBudget opp ∨
              investigationAgentCalls ≤ budget ∧
                a.opportunity = { opp with updatedAt := now } ∧ a.event.isSome ∧
                a.tasks = investigationJobs opp person)) := by
  unfold retryInvestigation at ha
  dsimp only at ha
  by_cases hupdated : opp.updatedAt > stuckCutoff env now
  · rw [if_pos hupdated] at ha
    exact Or.inl ⟨hupdated, ha.symm⟩
  · rw [if_neg hupdated] at ha
    refine Or.inr ⟨not_lt.mp hupdated, ?_⟩
    by_cases hretries : countRetries db opp.id ≥ maxRetries
    · rw [if_pos hretries, moveTo_eq (by simp [hstage]) (by rw [hstage]; decide)] at ha
      subst ha
      exact Or.inl ⟨hretries, rfl, rfl⟩
    · rw [if_neg hretries] at ha
      refine Or.inr ⟨not_le.mp hretries, ?_⟩
      by_cases hlow : budget < investigationAgentCalls
      · rw [if_pos hlow] at ha
        exact Or.inl ⟨hlow, ha.symm⟩
      · rw [if_neg hlow] at ha
        subst ha
        exact Or.inr ⟨not_lt.mp hlow, rfl, rfl, rfl⟩

/-- An investigation is not started again in the next run. -/
private lemma retryInvestigation_again (hstage : opp.lifecycleState = .investigating)
    (hwindow : WithinWindow env db opp now later) (hbudget : budget' ≤ budget) {a : Advance}
    (ha : retryInvestigation env now db budget newId opp person = a)
    (hevents : db'.eventsOf opp.id = db.eventsOf opp.id ++ a.event.toList)
    (hstays : a.opportunity.lifecycleState = opp.lifecycleState) :
    (retryInvestigation env later db' budget' newId' a.opportunity person).event = none := by
  have hrecent : stuckCutoff env later < now := by
    have := hwindow.lt
    unfold stuckCutoff
    linarith
  have hsecond :=
    retryInvestigation_cases env later db' budget' newId' person (hstays.trans hstage) rfl
  rcases retryInvestigation_cases _ _ _ _ _ _ hstage ha with
    ⟨hupdated, rfl⟩ | ⟨hupdated, ⟨-, hclosed, -⟩ | ⟨hretries, ⟨hlow, rfl⟩ | ⟨-, hopp, -, -⟩⟩⟩
  · have hupdated' := hwindow.updatedAt hupdated
    rcases hsecond with ⟨-, h⟩ | ⟨hold, -⟩
    · rw [h]
      rfl
    · exact absurd hupdated' (not_lt.mpr hold)
  · rw [hstage, hclosed] at hstays
    cases hstays
  · have hsame : countRetries db' opp.id = countRetries db opp.id := by
      unfold countRetries
      rw [pipelineEvents_congr (hevents.trans (List.append_nil _))]
    rcases hsecond with ⟨-, h⟩ | ⟨-, ⟨hmany, -⟩ | ⟨-, ⟨-, h⟩ | ⟨henough, -⟩⟩⟩
    · rw [h]
      rfl
    · exact absurd (hsame ▸ hmany) (not_le.mpr hretries)
    · rw [h]
      rfl
    · exact absurd (hbudget.trans_lt hlow) (not_lt.mpr henough)
  · rcases hsecond with ⟨-, h⟩ | ⟨hold, -⟩
    · rw [h]
      rfl
    · rw [hopp] at hold
      exact absurd hrecent (not_lt.mpr hold)

/-- **Asking once.** A turn that follows one without a transition within the stuck window does
nothing, unless it requests an outreach draft.

**Proof sketch.** What the first turn did not do for lack of an artifact or of budget, the second
does not do either. If the first one asked for an artifact, the second finds its note: in the
inbound stages among the events, in an investigation as the time of the update. -/
theorem advance_again (hwindow : WithinWindow env db opp now later) (h : SameArtifacts db db')
    (hbudget : budget' ≤ budget) (hcontact : ¬ Contactable env db person opp) {a : Advance}
    (ha : advance env now db budget newId opp person = a)
    (hevents : db'.eventsOf opp.id = db.eventsOf opp.id ++ a.event.toList)
    (hstays : a.opportunity.lifecycleState = opp.lifecycleState) :
    (advance env later db' budget' newId' a.opportunity person).event = none := by
  rcases opp.lifecycleState.pipeline_cases with ⟨next, hnext⟩ | hstage | hstage | hstage | hstage
  · obtain ⟨reason, missing, calls, task, -, -, hne, hvalid, -, -, hbranch⟩ :=
      advance_inbound env person hnext
    rw [hbranch] at ha
    obtain ⟨hopp, hagain⟩ := awaitArtifact_again newId' hwindow hne hvalid hbudget ha
      hevents hstays
    rw [hopp, hbranch, decide_eq_decide.mpr (h.gate person.id opp.id next)]
    exact hagain
  · rw [advance_of_discovered hstage] at ha
    rw [advance_of_discovered (hstays.trans hstage)]
    exact advanceDiscovered_again hstage h ha hstays
  · rw [advance_of_interesting hstage] at ha
    rw [advance_of_interesting (hstays.trans hstage)]
    exact advanceInteresting_again hstage h hbudget ha hstays
  · rw [advance_of_investigating hstage] at ha
    rw [advance_of_investigating (hstays.trans hstage)]
    by_cases haxes : HasOpportunityAxes db opp.id
    · rw [if_pos haxes] at ha
      have hlow : ¬ ScoreSuffices env db person := fun hsuffices =>
        hcontact ⟨hstage, haxes, hsuffices⟩
      rcases requestOutreach_cases env now db budget newId opp person with
          ⟨hsuffices, -⟩ | ⟨-, hstay⟩
      · exact absurd hsuffices hlow
      · rw [hstay] at ha
        subst ha
        have haxes' : HasOpportunityAxes db' (stay opp).opportunity.id :=
          (h.hasOpportunityAxes opp.id).mpr haxes
        rw [if_pos haxes']
        exact requestOutreach_again h hlow
    · rw [if_neg haxes] at ha
      have hid : a.opportunity.id = opp.id := by
        rcases retryInvestigation_cases _ _ _ _ _ _ hstage ha with
          ⟨-, rfl⟩ | ⟨-, ⟨-, hclosed, -⟩ | ⟨-, ⟨-, rfl⟩ | ⟨-, hopp, -, -⟩⟩⟩
        · rfl
        · rw [hstage, hclosed] at hstays
          cases hstays
        · rfl
        · rw [hopp]
      rw [if_neg (by rw [hid, h.hasOpportunityAxes]; exact haxes)]
      exact retryInvestigation_again hstage hwindow hbudget ha hevents hstays
  · rw [advance_of_parked (hstays ▸ hstage)]
    rfl

/-- An inbound opportunity is due if it can be moved or was not asked for recently. -/
lemma due_of_inbound {next : Stage} (hnext : opp.lifecycleState.inboundNext = some next) :
    Due env now db person opp ↔ Gate db person.id opp.id next ∨
      ¬ HasRecentPipelineEvent db opp.id (queuedNote opp.lifecycleState) (stuckCutoff env now) := by
  unfold Due
  cases hstage : opp.lifecycleState <;> rw [hstage] at hnext <;> cases hnext <;>
    simp [Stage.inboundNext]

/-- Whether an opportunity is due depends on the artifacts and its own events. -/
lemma due_congr (h : SameArtifacts db db') (hevents : db'.eventsOf opp.id = db.eventsOf opp.id) :
    Due env now db' person opp ↔ Due env now db person opp := by
  unfold Due
  cases opp.lifecycleState <;>
    simp only [SignalReached, ScoreSuffices, HasRecentPipelineEvent, h.latestScore,
      h.hasOpportunityAxes, h.gate, pipelineEvents_congr hevents]

/-- What is due is open. -/
lemma isOpen_of_due (hdue : Due env now db person opp) : opp.IsOpen := by
  refine ⟨fun hstage => ?_, fun hstage => ?_⟩ <;>
  · unfold Due at hdue
    rw [hstage] at hdue
    exact hdue

variable (budget newId) in
/-- A run with enough budget does something for the opportunities that are due. -/
lemma advance_event_of_due (hbudget : 5 ≤ budget) (hdue : Due env now db person opp) :
    (advance env now db budget newId opp person).event.isSome := by
  rcases opp.lifecycleState.pipeline_cases with ⟨next, hnext⟩ | hstage | hstage | hstage | hstage
  · obtain ⟨reason, missing, calls, task, -, hcalls, hne, hvalid, -, -, hbranch⟩ :=
      advance_inbound env person hnext
    have hwaits := (due_of_inbound hnext).mp hdue
    rw [hbranch]
    unfold awaitArtifact
    by_cases hgate : Gate db person.id opp.id next
    · rw [if_pos (decide_eq_true hgate), moveTo_eq hne hvalid]
      rfl
    · rw [if_neg (by simpa using hgate),
        if_pos ⟨hcalls.trans hbudget, hwaits.resolve_left hgate⟩]
      rfl
  · unfold Due at hdue
    rw [hstage] at hdue
    rw [advance_of_discovered hstage]
    rcases advanceDiscovered_cases env now db newId opp person with ⟨-, reason, hmoved⟩ | ⟨hnot, -⟩
    · rw [hmoved, moveTo_eq (by simp [hstage]) (by rw [hstage]; decide)]
      rfl
    · exact absurd hdue hnot
  · unfold Due at hdue
    rw [hstage] at hdue
    rw [advance_of_interesting hstage]
    rcases advanceInteresting_cases now db budget newId person hstage rfl with
        ⟨haxes, -⟩ | ⟨-, ⟨hlow, -⟩ | ⟨-, -, hevent⟩⟩
    · exact absurd haxes hdue
    · exact absurd hbudget (not_le.mpr hlow)
    · exact hevent
  · unfold Due at hdue
    rw [hstage] at hdue
    rw [advance_of_investigating hstage]
    dsimp only at hdue
    split_ifs at hdue ⊢ with haxes
    · rcases requestOutreach_cases env now db budget newId opp person with
        ⟨-, ⟨hlow, -⟩ | ⟨-, reason, metadata, hnoted⟩⟩ | ⟨hnot, -⟩
      · omega
      · rw [hnoted]
        rfl
      · exact absurd hdue hnot
    · rcases retryInvestigation_cases env now db budget newId person hstage rfl with
        ⟨hupdated, -⟩ | ⟨-, ⟨-, -, hevent⟩ | ⟨-, ⟨hlow, -⟩ | ⟨-, -, hevent, -⟩⟩⟩
      · exact absurd hupdated (not_lt.mpr hdue)
      · exact hevent
      · exact absurd hbudget (not_le.mpr hlow)
      · exact hevent
  · unfold Due at hdue
    rcases hstage with h | h | h | h | h <;> rw [h] at hdue <;> exact hdue.elim

/-- A run does nothing for the opportunities that are not due. -/
lemma advance_event_of_not_due (hdue : ¬ Due env now db person opp) :
    (advance env now db budget newId opp person).event = none := by
  rcases opp.lifecycleState.pipeline_cases with ⟨next, hnext⟩ | hstage | hstage | hstage | hstage
  · obtain ⟨reason, missing, calls, task, -, -, -, -, -, -, hbranch⟩ :=
      advance_inbound env person hnext
    rw [due_of_inbound hnext, not_or, not_not] at hdue
    rw [hbranch]
    unfold awaitArtifact
    rw [if_neg (by simpa using hdue.1), if_neg fun h => h.2 hdue.2]
    split_ifs <;> rfl
  · unfold Due at hdue
    rw [hstage] at hdue
    rw [advance_of_discovered hstage]
    rcases advanceDiscovered_cases env now db newId opp person with ⟨hreached, -⟩ | ⟨-, hstay⟩
    · exact absurd hreached hdue
    · rw [hstay]
      rfl
  · unfold Due at hdue
    rw [hstage] at hdue
    rw [advance_of_interesting hstage]
    rcases advanceInteresting_cases now db budget newId person hstage rfl with
        ⟨-, hstay⟩ | ⟨hnot, -⟩
    · rw [hstay]
      rfl
    · exact absurd hnot hdue
  · unfold Due at hdue
    rw [hstage] at hdue
    rw [advance_of_investigating hstage]
    dsimp only at hdue
    split_ifs at hdue ⊢ with haxes
    · rcases requestOutreach_cases env now db budget newId opp person with
          ⟨hsuffices, -⟩ | ⟨-, hstay⟩
      · exact absurd hsuffices hdue
      · rw [hstay]
        rfl
    · rcases retryInvestigation_cases env now db budget newId person hstage rfl with
          ⟨-, hstay⟩ | ⟨hold, -⟩
      · rw [hstay]
        rfl
      · exact absurd hold hdue
  · rw [advance_of_parked hstage]
    rfl

/-- A turn that charges nothing, queues nothing and records nothing. -/
def Quiescent (outcome : Option Advance) : Prop :=
  ∀ a ∈ outcome, a.charge = 0 ∧ a.tasks = [] ∧ a.event = none

instance (outcome : Option Advance) : Decidable (Quiescent outcome) :=
  inferInstanceAs (Decidable (∀ a ∈ outcome, _))

@[simp] lemma quiescent_none : Quiescent none := by
  intro a ha
  cases ha

/-- A turn that records nothing does nothing else. -/
lemma quiescent_map_iff {founder : Option Person} :
    Quiescent (founder.map (advance env now db budget newId opp)) ↔
      ∀ person ∈ founder, (advance env now db budget newId opp person).event = none := by
  unfold Quiescent
  cases founder with
  | none => simp
  | some person =>
    simp only [Option.map_some, Option.mem_def, Option.some.injEq, forall_eq']
    constructor
    · exact fun h => h.2.2
    · intro hevent
      cases advance_outcome env now db budget newId opp person with
      | idle _ _ hcharge htasks => exact ⟨hcharge, htasks, hevent⟩
      | moved _ _ _ _ _ _ hsome _ => rw [hsome] at hevent; cases hevent
      | noted _ _ _ hsome _ _ => rw [hsome] at hevent; cases hevent

end Turn

/-! ## Samples -/

/-- An opportunity in a stage. -/
def sampleOpportunity (id : Uuid) (stage : Stage) : Opportunity where
  id := id
  companyName := "Company"
  sourceKind := "outbound"
  lifecycleState := stage
  createdAt := 0
  updatedAt := 0

/-- The founder of these opportunities. -/
def sampleFounder : Person where
  id := 1
  stableId := "founder"
  createdAt := 0

/-- A database with these opportunities and scores, all of one founder. -/
def sampleDb (opportunities : List Opportunity) (scores : List ScoreSnapshot) : Db where
  persons := [sampleFounder]
  opportunities := opportunities
  opportunityFounders := opportunities.map fun o =>
    { opportunityId := o.id, personId := 1, role := "founder" }
  scoreSnapshots := scores

/-- The axes of an opportunity. -/
def sampleAxes (opportunityId : Uuid) : ScoreSnapshot where
  id := 101
  subjectId := opportunityId
  subjectType := "opportunity"
  rubricVersion := "opportunity-axes-v1"
  createdAt := 0

/-- A Founder Score. -/
def sampleFounderScore (founder : ℚ) : ScoreSnapshot where
  id := 102
  subjectId := 1
  subjectType := "person"
  rubricVersion := "founder-agent-v1"
  components := Dict.empty.setDefault "founder" founder
  createdAt := 0

end VCBrain
