import VCBrain.Agents.PipelineProgress
import VCBrain.Collectors.BudgetRace

set_option relaxedAutoImplicit false
set_option autoImplicit false

/-!
# Pipeline runs that are stopped

A pipeline run has one transaction, which is committed at its end, and changes the agent budget and
the queue in Redis at once. If an exception stops it, the transaction is rolled back and what it has
done in Redis remains. This file determines for which runs nothing remains.

## Main definitions

* `Advance.commands`, `runCommands` — the commands of a run that change something in Redis.
* `stoppedRun` — what a run leaves that is stopped after some of them.
* `Charged` — an opportunity for which a run spends budget.

## Main results

* `advance_commands_eq_nil_iff` — a run has commands exactly for the opportunities it charges.
* `runCommands_agent` — a run that is not stopped has charged what `advance_pipeline_job` charges.
* `stoppedRun_eq_iff` — a stopped run leaves nothing exactly if it was stopped before its first
  command, or charges no opportunity of its batch.

## Design

The point at which a run is stopped is the number of commands that Redis has executed by then, so a
command whose answer is lost counts as executed. Each opportunity is charged before its jobs are
queued. Nobody else uses Redis during the run.
-/

namespace VCBrain

/-! ## Commands -/

namespace QueueTask

/-- The fields of a task as it is queued. -/
def fields (task : QueueTask) : List (Str × Json) :=
  ("job_type", .str task.jobType) :: ("person_id", .str task.personId.str) ::
    task.opportunityId.toList.map fun id => ("opportunity_id", .str id.str)

/-- The task as it is queued. -/
def json (task : QueueTask) : Json := .obj task.fields

end QueueTask

/-- A command that changes something in Redis. -/
inductive RedisCommand where
  | decrby (amount : ℤ)
  | enqueue (task : QueueTask)

/-- What a run does in Redis for an opportunity: it charges the budget and then queues the jobs. -/
def Advance.commands (a : Advance) : List RedisCommand :=
  (if a.charge = 0 then [] else [.decrby a.charge]) ++ a.tasks.map .enqueue

section Run

variable {τ : Type*} [LinearOrder τ] {tie : Str ↪ τ}

/-- The store after a command. -/
def RedisCommand.run (store : BudgetStore tie) : RedisCommand → BudgetStore tie
  | .decrby amount => { store with agent := store.agent - amount }
  | .enqueue task => { store with queue := store.queue.enqueue task.json task.priority }

variable (env : PipelineEnv) (now : Time) (draw : Uuid → Uuid)

/-- The commands of a run over a batch. -/
def runCommands : PipelineState → List Opportunity → List RedisCommand
  | _, [] => []
  | s, opp :: batch =>
    (turn env now draw s opp).elim [] Advance.commands ++
      runCommands (advanceOne env now draw s opp) batch

/-- The state in which a run begins. -/
def runStart (db : Db) (store : BudgetStore tie) : PipelineState where
  db := db
  budget := store.agent

/-- The database and Redis after a run that is stopped before its commit, when Redis has executed
`k` commands: the database is rolled back. -/
def stoppedRun (db : Db) (store : BudgetStore tie) (k : ℕ) : Db × BudgetStore tie :=
  (db, ((runCommands env now draw (runStart db store) (pipelineBatch env db)).take k).foldl
    RedisCommand.run store)

end Run

/-! ## What is charged -/

/-- A run spends budget for the opportunity: the job that its stage waits for is due, and the budget
suffices. -/
def Charged (env : PipelineEnv) (now : Time) (db : Db) (budget : ℤ) (person : Person)
    (opp : Opportunity) : Prop :=
  match opp.lifecycleState with
  | .interesting => ¬ HasOpportunityAxes db opp.id ∧ investigationAgentCalls ≤ budget
  | .investigating =>
    if HasOpportunityAxes db opp.id then ScoreSuffices env db person ∧ 1 ≤ budget
    else opp.updatedAt ≤ stuckCutoff env now ∧ countRetries db opp.id < maxRetries ∧
      investigationAgentCalls ≤ budget
  | .received => ¬ HasScopedClaims db person.id opp.id ∧ 1 ≤ budget ∧
      ¬ HasRecentPipelineEvent db opp.id "Inbound processing queued" (stuckCutoff env now)
  | .triage => ¬ HasFounderScore db person.id ∧ founderScoreAgentCalls ≤ budget ∧
      ¬ HasRecentPipelineEvent db opp.id "Founder Score queued" (stuckCutoff env now)
  | .screening => ¬ HasOpportunityAxes db opp.id ∧ researchAgentCalls ≤ budget ∧
      ¬ HasRecentPipelineEvent db opp.id "Opportunity research queued" (stuckCutoff env now)
  | .diligence => ¬ HasMemo db opp.id ∧ 1 ≤ budget ∧
      ¬ HasRecentPipelineEvent db opp.id "Memo generation queued" (stuckCutoff env now)
  | .discovered | .contacted | .memoReady | .hold | .approved | .closed => False

/-- The opportunity is charged exactly if `p` holds, and what is not charged queues nothing. -/
structure ChargesExactly (p : Prop) (a : Advance) : Prop where
  charge_pos : p → 0 < a.charge
  charge_eq : ¬ p → a.charge = 0
  tasks_eq : ¬ p → a.tasks = []

section Charge

variable {env : PipelineEnv} {now : Time} {db db' : Db} {budget : ℤ} {newId : Uuid}
  {opp : Opportunity} {person : Person}

/-- A move queues nothing. -/
lemma tasks_moveTo (newState : Stage) (reason : Str) :
    (moveTo now newId opp newState reason).tasks = [] := by
  unfold moveTo
  split <;> rfl

/-- Nothing is charged or queued. -/
lemma ChargesExactly.of_free {p : Prop} {a : Advance} (hp : ¬ p) (hcharge : a.charge = 0)
    (htasks : a.tasks = []) : ChargesExactly p a :=
  ⟨fun h => absurd h hp, fun _ => hcharge, fun _ => htasks⟩

/-- Something is charged. -/
lemma ChargesExactly.of_charged {p : Prop} {a : Advance} (hp : p) (hcharge : 0 < a.charge) :
    ChargesExactly p a :=
  ⟨fun _ => hcharge, fun h => absurd hp h, fun h => absurd hp h⟩

/-- The inbound branches. -/
lemma chargesExactly_awaitArtifact {artifact : Prop} [Decidable artifact] {next : Stage}
    {reason queued missing : Str} {calls : ℤ} {task : QueueTask} (hcalls : 0 < calls) :
    ChargesExactly (¬ artifact ∧ calls ≤ budget ∧
        ¬ HasRecentPipelineEvent db opp.id queued (stuckCutoff env now))
      (awaitArtifact env now db budget newId opp (decide artifact) next reason queued missing calls
        task) := by
  unfold awaitArtifact
  split_ifs with hexists hqueue hlow
  · exact .of_free (fun h => h.1 (of_decide_eq_true hexists)) (BudgetSystem.charge_moveTo ..)
      (tasks_moveTo ..)
  · exact .of_charged ⟨fun h => hexists (decide_eq_true h), hqueue⟩ hcalls
  · exact .of_free (fun h => hqueue h.2) rfl rfl
  · exact .of_free (fun h => hqueue h.2) rfl rfl

lemma chargesExactly_interesting :
    ChargesExactly (¬ HasOpportunityAxes db opp.id ∧ investigationAgentCalls ≤ budget)
      (advanceInteresting now db budget newId opp person) := by
  unfold advanceInteresting
  split_ifs with haxes hlow
  · exact .of_free (fun h => h.1 haxes) rfl rfl
  · exact .of_free (fun h => not_le.mpr hlow h.2) rfl rfl
  · exact .of_charged ⟨haxes, not_lt.mp hlow⟩ (show (0 : ℤ) < 5 by decide)

lemma chargesExactly_retry :
    ChargesExactly (opp.updatedAt ≤ stuckCutoff env now ∧ countRetries db opp.id < maxRetries ∧
        investigationAgentCalls ≤ budget)
      (retryInvestigation env now db budget newId opp person) := by
  unfold retryInvestigation
  dsimp only
  split_ifs with hrecent hretries hlow
  · exact .of_free (fun h => not_lt.mpr h.1 hrecent) rfl rfl
  · exact .of_free (fun h => not_le.mpr h.2.1 hretries) (BudgetSystem.charge_moveTo ..)
      (tasks_moveTo ..)
  · exact .of_free (fun h => not_le.mpr hlow h.2.2) rfl rfl
  · exact .of_charged ⟨not_lt.mp hrecent, not_le.mp hretries, not_lt.mp hlow⟩
      (show (0 : ℤ) < 5 by decide)

lemma chargesExactly_outreach :
    ChargesExactly (ScoreSuffices env db person ∧ 1 ≤ budget)
      (requestOutreach env now db budget newId opp person) := by
  rcases requestOutreach_cases env now db budget newId opp person with
    ⟨hscore, ⟨hlow, hwait⟩ | ⟨henough, reason, metadata, hnoted⟩⟩ | ⟨hnot, hstay⟩
  · rw [hwait]
    exact .of_free (fun h => by omega) rfl rfl
  · rw [hnoted]
    exact .of_charged ⟨hscore, henough⟩ (show (0 : ℤ) < 1 by decide)
  · rw [hstay]
    exact .of_free (fun h => hnot h.1) rfl rfl

variable (env now db budget newId opp person) in
/-- **Charges.** A run spends budget for exactly the opportunities it queues jobs for. -/
lemma chargesExactly_advance :
    ChargesExactly (Charged env now db budget person opp)
      (advance env now db budget newId opp person) := by
  unfold Charged advance
  cases opp.lifecycleState with
  | discovered =>
    refine .of_free id (BudgetSystem.charge_advanceDiscovered ..) ?_
    dsimp only
    rcases advanceDiscovered_cases env now db newId opp person with ⟨-, reason, hmoved⟩ | ⟨-, hstay⟩
    · rw [hmoved, tasks_moveTo]
    · rw [hstay]
      rfl
  | interesting => exact chargesExactly_interesting
  | investigating =>
    dsimp only
    split_ifs with haxes
    · exact chargesExactly_outreach
    · exact chargesExactly_retry
  | received => exact chargesExactly_awaitArtifact (by decide)
  | triage => exact chargesExactly_awaitArtifact (by decide)
  | screening => exact chargesExactly_awaitArtifact (by decide)
  | diligence => exact chargesExactly_awaitArtifact (by decide)
  | contacted => exact .of_free id rfl rfl
  | memoReady => exact .of_free id rfl rfl
  | hold => exact .of_free id rfl rfl
  | approved => exact .of_free id rfl rfl
  | closed => exact .of_free id rfl rfl

/-- There is a command for the opportunity exactly if it is charged. -/
lemma advance_commands_eq_nil_iff :
    (advance env now db budget newId opp person).commands = [] ↔
      ¬ Charged env now db budget person opp := by
  have h := chargesExactly_advance env now db budget newId opp person
  unfold Advance.commands
  constructor
  · intro hnil hcharged
    rw [if_neg (h.charge_pos hcharged).ne'] at hnil
    cases hnil
  · intro hfree
    rw [if_pos (h.charge_eq hfree), h.tasks_eq hfree]
    rfl

/-- What is charged depends on the artifacts, the events of the opportunity and the budget. -/
lemma charged_congr (h : SameArtifacts db db')
    (hevents : db'.eventsOf opp.id = db.eventsOf opp.id) :
    Charged env now db' budget person opp ↔ Charged env now db budget person opp := by
  have hcommands : advance env now db' budget 0 opp person =
      advance env now db budget 0 opp person := advance_congr h hevents
  have hiff : (advance env now db budget 0 opp person).commands = [] ↔
      ¬ Charged env now db budget person opp := advance_commands_eq_nil_iff
  rw [← hcommands, advance_commands_eq_nil_iff] at hiff
  exact not_iff_not.mp hiff

end Charge

/-! ## The commands of a run -/

section Commands

variable {τ : Type*} [LinearOrder τ] {tie : Str ↪ τ} {env : PipelineEnv} {now : Time}
  {draw : Uuid → Uuid} {db : Db} {store : BudgetStore tie}

/-- The opportunity is charged when its turn comes in a state. -/
def ChargedIn (env : PipelineEnv) (now : Time) (s : PipelineState) (opp : Opportunity) : Prop :=
  ∃ person ∈ env.anyFounder.pick (foundersOf s.db opp.id),
    Charged env now s.db s.budget person opp

/-- A turn has commands exactly if it charges. -/
lemma turn_commands_eq_nil_iff {s : PipelineState} {opp : Opportunity} :
    (turn env now draw s opp).elim [] Advance.commands = [] ↔ ¬ ChargedIn env now s opp := by
  unfold turn ChargedIn
  cases env.anyFounder.pick (foundersOf s.db opp.id) with
  | none => simp
  | some person =>
    simp only [Option.map_some, Option.elim_some, Option.mem_def, Option.some.injEq,
      exists_eq_left']
    exact advance_commands_eq_nil_iff

/-- A turn that does not charge leaves the budget. -/
lemma advanceOne_budget_of_free {s : PipelineState} {opp : Opportunity}
    (hfree : ¬ ChargedIn env now s opp) : (advanceOne env now draw s opp).budget = s.budget := by
  unfold advanceOne
  cases hturn : turn env now draw s opp with
  | none => rfl
  | some a =>
    obtain ⟨person, hperson, rfl⟩ := Option.map_eq_some_iff.mp hturn
    have hcharge := (chargesExactly_advance env now s.db s.budget (draw opp.id) opp
      person).charge_eq fun hcharged => hfree ⟨person, hperson, hcharged⟩
    show s.budget - _ = s.budget
    rw [hcharge, sub_zero]

/-- A turn that does not charge does not change what is charged for others. -/
lemma chargedIn_advanceOne_iff {s : PipelineState} {opp other : Opportunity}
    (hfree : ¬ ChargedIn env now s opp) (hne : other.id ≠ opp.id) :
    ChargedIn env now (advanceOne env now draw s opp) other ↔ ChargedIn env now s other := by
  have hsame : SameArtifacts s.db (advanceOne env now draw s opp).db :=
    advanceOne_sameArtifacts s opp
  obtain ⟨-, hevents⟩ := advanceOne_frame env now draw (s := s) hne
  unfold ChargedIn
  rw [hsame.foundersOf, advanceOne_budget_of_free hfree]
  simp only [charged_congr hsame hevents]

/-- **Runs without commands.** A run over a batch has no commands exactly if it charges none of its
opportunities.

**Proof sketch.** Up to the first opportunity that is charged nothing changes that the charges
depend on. -/
lemma runCommands_eq_nil_iff {batch : List Opportunity} (hids : KeyUnique Opportunity.id batch)
    (s : PipelineState) :
    runCommands env now draw s batch = [] ↔ ∀ opp ∈ batch, ¬ ChargedIn env now s opp := by
  induction batch generalizing s with
  | nil => simp [runCommands]
  | cons opp batch ih =>
    have hids' : (opp.id :: batch.map Opportunity.id).Nodup := hids
    obtain ⟨hnew, hids⟩ := List.nodup_cons.mp hids'
    have hne : ∀ other ∈ batch, other.id ≠ opp.id := by
      intro other hother heq
      exact hnew (heq ▸ List.mem_map_of_mem hother)
    rw [runCommands, List.append_eq_nil_iff, turn_commands_eq_nil_iff, List.forall_mem_cons,
      ih hids]
    refine and_congr_right fun hfree => forall₂_congr fun other hother => ?_
    rw [chargedIn_advanceOne_iff hfree (hne other hother)]

/-- The commands of a turn are none, or begin with a charge. -/
lemma turn_commands_cases (env : PipelineEnv) (now : Time) (draw : Uuid → Uuid) (s : PipelineState)
    (opp : Opportunity) :
    (turn env now draw s opp).elim [] Advance.commands = [] ∨
      ∃ amount rest, 0 < amount ∧
        (turn env now draw s opp).elim [] Advance.commands =
          .decrby amount :: List.map .enqueue rest := by
  cases hturn : turn env now draw s opp with
  | none => exact Or.inl rfl
  | some a =>
    obtain ⟨person, -, rfl⟩ := Option.map_eq_some_iff.mp hturn
    by_cases hcharged : Charged env now s.db s.budget person opp
    · have hpos := (chargesExactly_advance env now s.db s.budget (draw opp.id) opp
        person).charge_pos hcharged
      refine Or.inr ⟨_, (advance env now s.db s.budget (draw opp.id) opp person).tasks, hpos, ?_⟩
      rw [Option.elim_some, Advance.commands, if_neg hpos.ne']
      rfl
    · exact Or.inl (advance_commands_eq_nil_iff.mpr hcharged)

/-- Queued tasks leave the budget. -/
lemma agent_foldl_enqueue (tasks : List QueueTask) (store : BudgetStore tie) :
    ((tasks.map RedisCommand.enqueue).foldl RedisCommand.run store).agent = store.agent := by
  induction tasks generalizing store with
  | nil => rfl
  | cons task tasks ih =>
    rw [List.map_cons, List.foldl_cons, ih]
    rfl

/-- The commands of a turn charge what the turn charges. -/
lemma agent_foldl_turn (s : PipelineState) (opp : Opportunity) (hbudget : store.agent = s.budget) :
    (((turn env now draw s opp).elim [] Advance.commands).foldl RedisCommand.run store).agent =
      (advanceOne env now draw s opp).budget := by
  unfold advanceOne
  cases turn env now draw s opp with
  | none => exact hbudget
  | some a =>
    rw [Option.elim_some, Advance.commands, List.foldl_append, agent_foldl_enqueue]
    show _ = s.budget - a.charge
    split_ifs with hcharge
    · rw [List.foldl_nil, hbudget, hcharge, sub_zero]
    · rw [List.foldl_cons, List.foldl_nil, ← hbudget]
      rfl

/-- The commands of a run over a batch charge what the run charges. -/
lemma agent_foldl_runCommands (batch : List Opportunity) (s : PipelineState)
    (hbudget : store.agent = s.budget) :
    ((runCommands env now draw s batch).foldl RedisCommand.run store).agent =
      (batch.foldl (advanceOne env now draw) s).budget := by
  induction batch generalizing s store with
  | nil => exact hbudget
  | cons opp batch ih =>
    rw [runCommands, List.foldl_append, List.foldl_cons]
    exact ih _ (agent_foldl_turn s opp hbudget)

variable (env now draw db store) in
/-- **Runs that are not stopped.** All commands together leave the budget that
`advance_pipeline_job` leaves. -/
theorem runCommands_agent :
    ((runCommands env now draw (runStart db store) (pipelineBatch env db)).foldl RedisCommand.run
        store).agent =
      (advancePipelineJob env now draw (runStart db store)).budget :=
  agent_foldl_runCommands (pipelineBatch env db) (runStart db store) rfl

variable (env now draw) in
/-- The commands of a run are none, or begin with a charge. -/
lemma runCommands_cases (batch : List Opportunity) (s : PipelineState) :
    runCommands env now draw s batch = [] ∨
      ∃ amount rest, 0 < amount ∧ runCommands env now draw s batch = .decrby amount :: rest := by
  induction batch generalizing s with
  | nil => exact Or.inl rfl
  | cons opp batch ih =>
    rw [runCommands]
    rcases turn_commands_cases env now draw s opp with hnil | ⟨amount, rest, hpos, hcons⟩
    · rw [hnil, List.nil_append]
      exact ih _
    · rw [hcons, List.cons_append]
      exact Or.inr ⟨amount, _, hpos, rfl⟩

/-- No command of a run gives budget back. -/
lemma decrby_nonneg (batch : List Opportunity) (s : PipelineState) {amount : ℤ}
    (h : .decrby amount ∈ runCommands env now draw s batch) : 0 ≤ amount := by
  induction batch generalizing s with
  | nil => cases h
  | cons opp batch ih =>
    rw [runCommands, List.mem_append] at h
    rcases h with h | h
    · rcases turn_commands_cases env now draw s opp with hnil | ⟨first, rest, hpos, hcons⟩
      · rw [hnil] at h
        cases h
      · rw [hcons, List.mem_cons, List.mem_map] at h
        rcases h with h | ⟨task, -, h⟩
        · cases h
          exact hpos.le
        · cases h
    · exact ih _ h

/-- Commands that give no budget back leave no more than there was. -/
lemma agent_foldl_le {commands : List RedisCommand}
    (h : ∀ amount, .decrby amount ∈ commands → 0 ≤ amount) (store : BudgetStore tie) :
    (commands.foldl RedisCommand.run store).agent ≤ store.agent := by
  induction commands generalizing store with
  | nil => exact le_refl _
  | cons command commands ih =>
    rw [List.foldl_cons]
    refine (ih (fun amount hamount => h amount (List.mem_cons_of_mem _ hamount)) _).trans ?_
    cases command with
    | decrby amount =>
      have hnonneg := h amount List.mem_cons_self
      show store.agent - amount ≤ store.agent
      omega
    | enqueue task => exact le_refl _

/-- **Stopped runs.** A run that an exception stops before its commit leaves the budget, the queue
and the database as they were exactly if no Redis command had been executed by then, or the run
charges none of the opportunities of its batch.

**Proof sketch.** The first command of a run is a charge, and none gives budget back, so whatever is
executed leaves less budget than there was. -/
theorem stoppedRun_eq_iff (hids : KeyUnique Opportunity.id db.opportunities) (k : ℕ) :
    stoppedRun env now draw db store k = (db, store) ↔
      k = 0 ∨ ∀ opp ∈ pipelineBatch env db,
        ∀ person ∈ env.anyFounder.pick (foundersOf db opp.id),
          ¬ Charged env now db store.agent person opp := by
  have hbatch := pipelineBatch_keyUnique env hids
  have hfree : (∀ opp ∈ pipelineBatch env db,
      ∀ person ∈ env.anyFounder.pick (foundersOf db opp.id),
        ¬ Charged env now db store.agent person opp) ↔
      runCommands env now draw (runStart db store) (pipelineBatch env db) = [] := by
    rw [runCommands_eq_nil_iff hbatch]
    unfold ChargedIn
    simp only [not_exists, not_and]
    exact Iff.rfl
  rw [hfree]
  unfold stoppedRun
  constructor
  · intro heq
    rcases runCommands_cases env now draw (pipelineBatch env db) (runStart db store) with
      hnil | ⟨amount, rest, hpos, hcons⟩
    · exact Or.inr hnil
    · cases k with
      | zero => exact Or.inl rfl
      | succ k =>
        have hagent := congrArg (fun r => r.2.agent) heq
        dsimp only at hagent
        rw [hcons, List.take_succ_cons, List.foldl_cons] at hagent
        have hrest : ∀ n, .decrby n ∈ rest.take k → 0 ≤ n := by
          intro n hn
          have hmem : .decrby n ∈
              runCommands env now draw (runStart db store) (pipelineBatch env db) := by
            rw [hcons]
            exact List.mem_cons_of_mem _ (List.mem_of_mem_take hn)
          exact decrby_nonneg _ _ hmem
        have hle := agent_foldl_le hrest (RedisCommand.run store (.decrby amount))
        have hless : (RedisCommand.run store (.decrby amount)).agent = store.agent - amount := rfl
        omega
  · rintro (rfl | hnil)
    · rw [List.take_zero, List.foldl_nil]
    · rw [hnil, List.take_nil, List.foldl_nil]

/-- An investigation is due, and ten calls are left. -/
def sampleStore : BudgetStore byText where
  queue := .empty
  tavily := 0
  agent := 10

/-- The theorem applies to a run that is stopped before its first command. -/
theorem stoppedRun_eq_iff_atStart :
    stoppedRun .default 0 (fun id => id) (sampleDb [sampleOpportunity 7 .interesting] [])
        sampleStore 0 =
      (sampleDb [sampleOpportunity 7 .interesting] [], sampleStore) := by
  refine (stoppedRun_eq_iff ?_ 0).mpr (Or.inl rfl)
  exact List.nodup_singleton _

/-- A run is stopped when it has charged the investigation and queued the first of its jobs. -/
theorem stoppedRun_ne_queued :
    stoppedRun .default 0 (fun id => id) (sampleDb [sampleOpportunity 7 .interesting] [])
        sampleStore 2 ≠
      (sampleDb [sampleOpportunity 7 .interesting] [], sampleStore) := by
  intro heq
  have hagent : (stoppedRun .default 0 (fun id => id)
      (sampleDb [sampleOpportunity 7 .interesting] []) sampleStore 2).2.agent = 5 := by
    decide +kernel
  rw [heq] at hagent
  cases hagent

end Commands

end VCBrain
