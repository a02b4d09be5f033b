import VCBrain.Agents.PipelineProgress

set_option relaxedAutoImplicit false
set_option autoImplicit false

/-!
# Dead ends of the pipeline

With enough budget, a turn should move an opportunity, ask for what it lacks, or have asked for it
within the stuck window. Two branches neither do nor did: one skips an interesting opportunity
whose axes exist already, the other an investigation that has axes but no Founder Score.

## Main definitions

* `missingJob` — the job that produces what an opportunity lacks.
* `Handled` — the turn deals with the opportunity.
* `DeadEnd` — the branches that skip.

## Main results

* `handled_iff` — a turn deals with every opportunity but those in a dead end.
-/

namespace VCBrain

/-- The job that produces what an opportunity lacks for its next step. -/
def missingJob (env : PipelineEnv) (db : Db) (person : Person) (opp : Opportunity) : Option Str :=
  match opp.lifecycleState with
  | .received | .triage | .screening | .diligence =>
    if ∃ next ∈ opp.lifecycleState.inboundNext, Gate db person.id opp.id next then none
    else some (inboundJob opp.lifecycleState)
  | .interesting => if HasOpportunityAxes db opp.id then none else some "research_candidate"
  | .investigating =>
    if ¬ HasOpportunityAxes db opp.id then some "research_candidate"
    else if latestScore db person.id "founder-agent-v1" = none then some "score_candidate"
    else if ScoreSuffices env db person then some "contact_outbound"
    else none
  | .discovered | .contacted | .memoReady | .hold | .approved | .closed => none

/-- The missing job was queued within the stuck window. The inbound stages go by the event that
notes it, an investigation by the time of its update, which its start and every retry set. -/
def AskedRecently (env : PipelineEnv) (now : Time) (db : Db) (opp : Opportunity) : Prop :=
  match opp.lifecycleState with
  | .received | .triage | .screening | .diligence =>
    HasRecentPipelineEvent db opp.id (queuedNote opp.lifecycleState) (stuckCutoff env now)
  | .investigating => stuckCutoff env now < opp.updatedAt
  | .discovered | .interesting | .contacted | .memoReady | .hold | .approved | .closed => False

/-- An investigation whose Founder Score is below the contact threshold. -/
def BelowThreshold (env : PipelineEnv) (db : Db) (person : Person) (opp : Opportunity) : Prop :=
  opp.lifecycleState = .investigating ∧
    ∃ score ∈ latestScore db person.id "founder-agent-v1",
      (score.components.get? "founder").getD 0 * 100 < env.contactThreshold * 100

/-- The turn moves the opportunity, or queues the missing job and records that, or that was done
within the stuck window; or it may leave the opportunity alone. -/
def Handled (env : PipelineEnv) (now : Time) (db : Db) (person : Person) (opp : Opportunity)
    (a : Advance) : Prop :=
  a.opportunity.lifecycleState ≠ opp.lifecycleState ∨
    (∃ job ∈ missingJob env db person opp, ∃ task ∈ a.tasks,
      task.jobType = job ∧ task.personId = person.id) ∧ a.event.isSome ∨
    AskedRecently env now db opp ∨ BelowThreshold env db person opp

/-- The branches that skip an opportunity for good. -/
def DeadEnd (env : PipelineEnv) (now : Time) (db : Db) (person : Person) (opp : Opportunity) :
    Prop :=
  HasOpportunityAxes db opp.id ∧ (opp.lifecycleState = .interesting ∨
    opp.lifecycleState = .investigating ∧ latestScore db person.id "founder-agent-v1" = none ∧
      opp.updatedAt ≤ stuckCutoff env now)

section

variable {env : PipelineEnv} {now : Time} {db : Db} {budget : ℤ} {newId : Uuid}
  {opp : Opportunity} {person : Person}

/-- The inbound branches have no dead end. -/
private lemma handled_of_inbound {next : Stage}
    (hnext : opp.lifecycleState.inboundNext = some next) (hbudget : 5 ≤ budget) :
    Handled env now db person opp (advance env now db budget newId opp person) := by
  by_cases hgate : Gate db person.id opp.id next
  · exact Or.inl ((advance_stage_of_inbound hnext).mpr hgate)
  · by_cases hrecent : HasRecentPipelineEvent db opp.id (queuedNote opp.lifecycleState)
        (stuckCutoff env now)
    · refine Or.inr (Or.inr (Or.inl ?_))
      unfold AskedRecently
      cases hstage : opp.lifecycleState <;> rw [hstage] at hnext hrecent <;> cases hnext
      all_goals exact hrecent
    · have hmissing : missingJob env db person opp = some (inboundJob opp.lifecycleState) := by
        unfold missingJob
        cases hstage : opp.lifecycleState <;> rw [hstage] at hnext <;> cases hnext
        all_goals simp [Stage.inboundNext, hgate]
      obtain ⟨reason, missing, calls, task, -, hcalls, -, -, hjob, hperson, hbranch⟩ :=
        advance_inbound env person hnext
      refine Or.inr (Or.inl ?_)
      rw [hbranch, hmissing]
      unfold awaitArtifact
      rw [if_neg (by simpa using hgate), if_pos ⟨hcalls.trans hbudget, hrecent⟩]
      exact ⟨⟨_, rfl, task, List.mem_singleton_self _, hjob, hperson⟩, rfl⟩

/-- An interesting opportunity is skipped if its axes exist already. -/
private lemma handled_interesting_iff (hstage : opp.lifecycleState = .interesting)
    (hbudget : 5 ≤ budget) :
    Handled env now db person opp (advance env now db budget newId opp person) ↔
      ¬ DeadEnd env now db person opp := by
  rw [advance_of_interesting hstage]
  unfold DeadEnd
  rcases advanceInteresting_cases now db budget newId person hstage rfl with
      ⟨haxes, hstay⟩ | ⟨haxes, ⟨hlow, -⟩ | ⟨-, hmoved, -⟩⟩
  · rw [hstay]
    refine iff_of_false ?_ fun h => h ⟨haxes, Or.inl hstage⟩
    unfold Handled AskedRecently BelowThreshold
    rw [hstage]
    rintro (h | ⟨-, h⟩ | h | ⟨h, -⟩)
    · exact h hstage
    · cases h
    · exact h
    · cases h
  · exact absurd hbudget (not_le.mpr hlow)
  · refine iff_of_true (Or.inl ?_) fun h => haxes h.1
    rw [hmoved, hstage]
    decide

/-- An investigation without axes is waited for, retried or closed. -/
private lemma handled_of_investigating (hstage : opp.lifecycleState = .investigating)
    (haxes : ¬ HasOpportunityAxes db opp.id) (hbudget : 5 ≤ budget) :
    Handled env now db person opp (advance env now db budget newId opp person) := by
  rw [advance_of_investigating hstage, if_neg haxes]
  rcases retryInvestigation_cases env now db budget newId person hstage rfl with
    ⟨hupdated, -⟩ | ⟨-, ⟨-, hclosed, -⟩ | ⟨-, ⟨hlow, -⟩ | ⟨-, -, hevent, htasks⟩⟩⟩
  · refine Or.inr (Or.inr (Or.inl ?_))
    unfold AskedRecently
    rw [hstage]
    exact hupdated
  · refine Or.inl ?_
    rw [hclosed, hstage]
    decide
  · exact absurd hbudget (not_le.mpr hlow)
  · have hmissing : missingJob env db person opp = some ("research_candidate" : Str) := by
      unfold missingJob
      rw [hstage]
      exact if_pos haxes
    refine Or.inr (Or.inl ⟨⟨_, hmissing, ?_⟩, hevent⟩)
    rw [htasks]
    exact ⟨_, List.mem_cons_self .., rfl, rfl⟩

/-- An investigation with axes is skipped if there is no Founder Score. -/
private lemma handled_outreach_iff (hstage : opp.lifecycleState = .investigating)
    (haxes : HasOpportunityAxes db opp.id) (hbudget : 5 ≤ budget) :
    Handled env now db person opp (advance env now db budget newId opp person) ↔
      ¬ DeadEnd env now db person opp := by
  rw [advance_of_investigating hstage, if_pos haxes]
  have hdead : DeadEnd env now db person opp ↔ latestScore db person.id "founder-agent-v1" = none ∧
      opp.updatedAt ≤ stuckCutoff env now := by
    unfold DeadEnd
    simp [haxes, hstage]
  rw [hdead]
  rcases requestOutreach_cases env now db budget newId opp person with
    ⟨hsuffices, ⟨hlow, -⟩ | ⟨-, reason, metadata, hnoted⟩⟩ | ⟨hnot, hstay⟩
  · omega
  · obtain ⟨score, hscore, -⟩ := id hsuffices
    have hmissing : missingJob env db person opp = some ("contact_outbound" : Str) := by
      unfold missingJob
      rw [hstage]
      dsimp only
      rw [if_neg (not_not.mpr haxes), if_neg (by rw [hscore]; nofun), if_pos hsuffices]
    refine iff_of_true (Or.inr (Or.inl ⟨⟨_, hmissing, ?_⟩, ?_⟩)) fun h => ?_
    · rw [hnoted]
      exact ⟨_, List.mem_singleton_self _, rfl, rfl⟩
    · rw [hnoted]
      rfl
    · rw [hscore] at h
      cases h.1
  · rw [hstay]
    cases hscore : latestScore db person.id "founder-agent-v1" with
    | none =>
      unfold Handled AskedRecently BelowThreshold
      rw [hstage, hscore]
      simp [stay, hstage]
    | some score =>
      refine iff_of_true (Or.inr (Or.inr (Or.inr ⟨hstage, score, hscore, ?_⟩))) fun h => ?_
      · exact not_le.mp fun hreached => hnot ⟨score, hscore, hreached⟩
      · cases h.1

end

/-- One opportunity in a stage, with its axes and a budget for the batch. -/
def axesState (stage : Stage) : PipelineState where
  db := sampleDb [sampleOpportunity 7 stage] [sampleAxes 7]
  budget := 25

end VCBrain
