import VCBrain.Agents.AdvancePipeline
import VCBrain.Collectors.BudgetGate
import VCBrain.Foundation.Guarded

set_option relaxedAutoImplicit false
set_option autoImplicit false

/-!
# Overlapping runs on the budgets

`dispatcher_job` reads the Tavily counter once and then charges it by its own count;
`advance_pipeline_job` reads the agent counter for each opportunity and charges it in a second
command. Runs of both may overlap, between any two Redis commands.

## Main definitions

* `DispatcherStage`, `PipelineStage` — where a run stands between two commands.
* `BudgetSystem.step` — the next command of a run.
* `BudgetSystem.charges`, `BudgetSystem.chargesNow` — what a command charges, and what it would
  charge if the run had read the counter just then.

## Main results

* `budgets_nonneg_iff` — the counters stay nonnegative exactly if no command charges more than it
  would after reading the counter again.

## Design

A counter is an integer, which is 0 where the key is missing. What Arq answers, and what the session
of a pipeline run shows for an opportunity, are inputs of an event. Tasks that routes and pipeline
runs enqueue are events of their own.
-/

namespace VCBrain

/-! ## Runs -/

section Runs

/-- Where a run of `dispatcher_job` stands. -/
inductive DispatcherStage where
  | ready
  /-- A lane is to be popped, and the others after it. -/
  | popping (remaining : ℤ) (lane : Lane) (lanes : List Lane) (tasks : List (Json × ℚ))
  | looping (remaining : ℤ) (tasks : List (Json × ℚ))
  /-- A task is to be handed over. -/
  | delivering (remaining : ℤ) (r : Json × ℚ) (tasks : List (Json × ℚ))
  /-- A task could not be handed over and is to be enqueued again. -/
  | failed (remaining : ℤ) (r : Json × ℚ) (tasks : List (Json × ℚ))
  /-- The charge for a task is to be refunded. -/
  | refunding (remaining : ℤ) (tasks : List (Json × ℚ))
  | finished
deriving DecidableEq

/-- What the session of a pipeline run shows for an opportunity of its batch. -/
structure PipelineRow where
  env : PipelineEnv
  now : Time
  db : Db
  newId : Uuid
  opp : Opportunity
  person : Person

/-- What the run makes of the opportunity with a budget. -/
def PipelineRow.advance (row : PipelineRow) (budget : ℤ) : Advance :=
  VCBrain.advance row.env row.now row.db budget row.newId row.opp row.person

/-- Where a run of `advance_pipeline_job` stands; it holds the locks on the rows of its batch. -/
inductive PipelineStage where
  | ready
  | working (batch : List Uuid)
  /-- The run has read the counter for an opportunity. -/
  | looked (batch : List Uuid) (row : PipelineRow) (budget : ℤ)
  | finished

/-- What a pipeline run does next. -/
inductive PipelineMove where
  /-- The query for the batch, which skips locked rows. -/
  | lock (batch : List Uuid)
  /-- `get_agent_budget_remaining` for an opportunity. -/
  | look (row : PipelineRow)
  /-- `decrement_agent_budget`, unless nothing is charged. -/
  | charge
  | commit

/-- Any next command, of dispatcher runs and of pipeline runs. -/
inductive BudgetEvent (ι κ : Type*) where
  /-- A command of a dispatcher run; Arq accepts the task if it is one that hands over. -/
  | dispatcher (i : ι) (accepted : Bool)
  | pipeline (j : κ) (move : PipelineMove)
  | enqueue (task : CollectionTask) (priority : ℚ)
  /-- A worker dies, and its session with it. -/
  | dispatcherDies (i : ι)
  | pipelineDies (j : κ)

variable {τ : Type*} [LinearOrder τ] {tie : Str ↪ τ}

/-- What the runs share in Redis. -/
structure BudgetStore (tie : Str ↪ τ) where
  queue : Queue tie
  tavily : ℤ
  agent : ℤ

/-- The store, the locked rows, and where the runs stand. -/
structure BudgetSystem (ι κ : Type*) (tie : Str ↪ τ) where
  store : BudgetStore tie
  locked : List Uuid := []
  dispatcher : ι → DispatcherStage
  pipeline : κ → PipelineStage

/-- What a dispatcher run charges for a task by its count. -/
def dispatcherCharge (remaining : ℤ) (r : Json × ℚ) : ℤ :=
  if FromTavily r.1 ∧ ¬ remaining ≤ 0 then 1 else 0

/-- The loop over the lanes goes on until `n` tasks are there. -/
def popNext (n : ℕ) (remaining : ℤ) (tasks : List (Json × ℚ)) : List Lane → DispatcherStage
  | [] => .looping remaining tasks
  | lane :: lanes =>
    if tasks.length ≥ n then .looping remaining tasks else .popping remaining lane lanes tasks

/-- The next command of a dispatcher run with the concurrency `n`; `none` after the last one. -/
def dispatcherCommand (n : ℕ) (accepted : Bool) (s : BudgetStore tie) :
    DispatcherStage → Option (BudgetStore tie × DispatcherStage)
  | .ready => some (s, popNext n s.tavily [] Lane.all)
  | .popping remaining lane lanes tasks =>
    let results := (s.queue lane).zpopmin (n - tasks.length)
    some ({ s with queue := Function.update s.queue lane results.2 },
      match results.1.mapM Queue.readEntry with
      | none => .finished
      | some popped => popNext n remaining (tasks ++ popped) lanes)
  | .looping _ [] => some (s, .finished)
  | .looping remaining (r :: tasks) =>
    if FromTavily r.1 ∧ remaining ≤ 0 then
      some ({ s with queue := s.queue.enqueue r.1 deferralPriority }, .looping remaining tasks)
    else
      let amount := dispatcherCharge remaining r
      some ({ s with tavily := s.tavily - amount }, .delivering (remaining - amount) r tasks)
  | .delivering remaining r tasks =>
    some (s, if accepted then .looping remaining tasks else .failed remaining r tasks)
  | .failed remaining r tasks =>
    some ({ s with queue := s.queue.enqueue r.1 r.2 },
      if FromTavily r.1 then .refunding remaining tasks else .looping remaining tasks)
  | .refunding remaining tasks =>
    some ({ s with tavily := s.tavily + 1 }, .looping (remaining + 1) tasks)
  | .finished => none

/-- The next command of a pipeline run, with the locked rows. -/
def pipelineCommand (move : PipelineMove) (s : BudgetStore tie) (locked : List Uuid) :
    PipelineStage → Option (BudgetStore tie × List Uuid × PipelineStage)
  | .ready =>
    match move with
    | .lock batch =>
      if batch.any fun id => id ∈ locked then none else some (s, batch ++ locked, .working batch)
    | _ => none
  | .working batch =>
    match move with
    | .look row => if row.opp.id ∈ batch then some (s, locked, .looked batch row s.agent) else none
    | .commit => some (s, locked.filter fun id => id ∉ batch, .finished)
    | _ => none
  | .looked batch row budget =>
    match move with
    | .charge =>
      some ({ s with agent := s.agent - (row.advance budget).charge }, locked, .working batch)
    | _ => none
  | .finished => none

/-- What the next command of a dispatcher run charges, going by its count changed by `reading`. -/
def DispatcherStage.charge (reading : ℤ → ℤ) : DispatcherStage → ℤ
  | .looping remaining (r :: _) => dispatcherCharge (reading remaining) r
  | _ => 0

/-- What the next command of a pipeline run charges, going by what it has read changed by
`reading`. -/
def PipelineStage.charge (reading : ℤ → ℤ) (move : PipelineMove) : PipelineStage → ℤ
  | .looked _ row budget =>
    match move with
    | .charge => (row.advance (reading budget)).charge
    | _ => 0
  | _ => 0

/-- The rows that a pipeline run has locked. -/
def PipelineStage.batch : PipelineStage → List Uuid
  | .working batch | .looked batch _ _ => batch
  | _ => []

namespace BudgetSystem

variable {ι κ : Type*} [DecidableEq ι] [DecidableEq κ]

/-- The next command; `none` if the run does not have it. -/
def step (n : ℕ) (s : BudgetSystem ι κ tie) : BudgetEvent ι κ → Option (BudgetSystem ι κ tie)
  | .dispatcher i accepted =>
    (dispatcherCommand n accepted s.store (s.dispatcher i)).map fun u =>
      { s with store := u.1, dispatcher := Function.update s.dispatcher i u.2 }
  | .pipeline j move =>
    (pipelineCommand move s.store s.locked (s.pipeline j)).map fun u =>
      { s with store := u.1, locked := u.2.1, pipeline := Function.update s.pipeline j u.2.2 }
  | .enqueue task priority =>
    some { s with store := { s.store with queue := s.store.queue.enqueue task.json priority } }
  | .dispatcherDies i => some { s with dispatcher := Function.update s.dispatcher i .finished }
  | .pipelineDies j =>
    some { s with
      locked := s.locked.filter fun id => id ∉ (s.pipeline j).batch
      pipeline := Function.update s.pipeline j .finished }

/-- What a command charges if its run goes by its reading of the counters, changed by `tavily` and
by `agent`. -/
def chargesBy (tavily agent : ℤ → ℤ) (s : BudgetSystem ι κ tie) : BudgetEvent ι κ → ℤ
  | .dispatcher i _ => (s.dispatcher i).charge tavily
  | .pipeline j move => (s.pipeline j).charge agent move
  | _ => 0

/-- What a command charges. -/
def charges (s : BudgetSystem ι κ tie) (e : BudgetEvent ι κ) : ℤ := s.chargesBy id id e

/-- What a command would charge if its run had read the counter just then. -/
def chargesNow (s : BudgetSystem ι κ tie) (e : BudgetEvent ι κ) : ℤ :=
  s.chargesBy (fun _ => s.store.tavily) (fun _ => s.store.agent) e

/-- No budget is overspent. -/
def Nonneg (s : BudgetSystem ι κ tie) : Prop := 0 ≤ s.store.tavily ∧ 0 ≤ s.store.agent

/-! ## Charging by a threshold -/

/-- An amount that is charged if the budget suffices, and nothing otherwise. -/
def ChargesAbove (f : ℤ → ℤ) : Prop := ∃ k, 0 ≤ k ∧ ∀ budget, f budget = if k ≤ budget then k else 0

/-- A counter suffices for a charge exactly if the same charge follows from reading it. -/
lemma ChargesAbove.nonneg_iff {f : ℤ → ℤ} (h : ChargesAbove f) {counter : ℤ}
    (hcounter : 0 ≤ counter) (reading : ℤ) : 0 ≤ counter - f reading ↔ f reading ≤ f counter := by
  obtain ⟨k, hk, hf⟩ := h
  rw [hf reading, hf counter]
  split_ifs <;> omega

/-- Nothing is charged in any case. -/
lemma ChargesAbove.of_eq_zero {f : ℤ → ℤ} (h : ∀ budget, f budget = 0) : ChargesAbove f :=
  ⟨0, le_rfl, fun budget => by rw [h, ite_self]⟩

lemma chargesAbove_dispatcherCharge (r : Json × ℚ) :
    ChargesAbove fun remaining => dispatcherCharge remaining r := by
  by_cases hfrom : FromTavily r.1
  · refine ⟨1, Int.one_nonneg, fun budget => ?_⟩
    simp only [dispatcherCharge, hfrom, true_and]
    split_ifs <;> omega
  · refine ChargesAbove.of_eq_zero fun budget => ?_
    simp only [dispatcherCharge, hfrom, false_and, if_false]

lemma charge_moveTo (now : Time) (newId : Uuid) (opp : Opportunity) (newState : Stage)
    (reason : Str) : (moveTo now newId opp newState reason).charge = 0 := by
  unfold moveTo
  split <;> rfl

lemma chargesAbove_awaitArtifact (env : PipelineEnv) (now : Time) (db : Db) (newId : Uuid)
    (opp : Opportunity) (exists? : Bool) (next : Stage) (reason queued missing : Str) {calls : ℤ}
    (task : QueueTask) (hcalls : 0 ≤ calls) :
    ChargesAbove fun budget =>
      (awaitArtifact env now db budget newId opp exists? next reason queued missing calls
        task).charge := by
  by_cases hskip : exists? = true ∨ HasRecentPipelineEvent db opp.id queued (stuckCutoff env now)
  · refine ChargesAbove.of_eq_zero fun budget => ?_
    unfold awaitArtifact
    split_ifs with hexists hqueue
    · exact charge_moveTo ..
    · exact absurd hskip (not_or.mpr ⟨hexists, hqueue.2⟩)
    · rfl
    · rfl
  · obtain ⟨hexists, hrecent⟩ := not_or.mp hskip
    refine ⟨calls, hcalls, fun budget => ?_⟩
    unfold awaitArtifact
    dsimp only
    rw [if_neg hexists]
    by_cases hbudget : calls ≤ budget
    · rw [if_pos ⟨hbudget, hrecent⟩, if_pos hbudget]
    · rw [if_neg fun h => hbudget h.1, if_pos (not_le.mp hbudget), if_neg hbudget]

lemma charge_advanceDiscovered (env : PipelineEnv) (now : Time) (db : Db) (newId : Uuid)
    (opp : Opportunity) (person : Person) :
    (advanceDiscovered env now db newId opp person).charge = 0 := by
  unfold advanceDiscovered
  cases latestScore db person.id "signal-v1" with
  | none => rfl
  | some score =>
    dsimp only
    split_ifs
    · exact charge_moveTo ..
    · rfl

/-- What waits for the budget and is charged otherwise is charged by a threshold. -/
lemma chargesAbove_wait (opp : Opportunity) {calls : ℤ} (hcalls : 0 ≤ calls) {a : Advance}
    (ha : a.charge = calls) :
    ChargesAbove fun budget => (if budget < calls then waitForBudget opp else a).charge := by
  refine ⟨calls, hcalls, fun budget => ?_⟩
  dsimp only
  by_cases hbudget : calls ≤ budget
  · rw [if_neg (not_lt.mpr hbudget), if_pos hbudget, ha]
  · rw [if_pos (not_le.mp hbudget), if_neg hbudget]
    rfl

lemma chargesAbove_retryInvestigation (env : PipelineEnv) (now : Time) (db : Db) (newId : Uuid)
    (opp : Opportunity) (person : Person) :
    ChargesAbove fun budget => (retryInvestigation env now db budget newId opp person).charge := by
  unfold retryInvestigation
  dsimp only
  by_cases hrecent : opp.updatedAt > stuckCutoff env now
  · exact ChargesAbove.of_eq_zero fun _ => by rw [if_pos hrecent]; rfl
  by_cases hretries : countRetries db opp.id ≥ maxRetries
  · exact ChargesAbove.of_eq_zero fun _ => by
      rw [if_neg hrecent, if_pos hretries]
      exact charge_moveTo ..
  simp only [hrecent, hretries, if_false]
  exact chargesAbove_wait opp (by decide) rfl

lemma chargesAbove_requestOutreach (env : PipelineEnv) (now : Time) (db : Db) (newId : Uuid)
    (opp : Opportunity) (person : Person) :
    ChargesAbove fun budget => (requestOutreach env now db budget newId opp person).charge := by
  unfold requestOutreach
  cases latestScore db person.id "founder-agent-v1" with
  | none => exact ChargesAbove.of_eq_zero fun _ => rfl
  | some score =>
    dsimp only
    split_ifs
    · refine ⟨1, Int.one_nonneg, fun budget => ?_⟩
      dsimp only
      by_cases hbudget : budget ≤ 0
      · rw [if_pos hbudget, if_neg (by omega)]
        rfl
      · rw [if_neg hbudget, if_pos (by omega)]
    · exact ChargesAbove.of_eq_zero fun _ => rfl

/-- A pipeline run charges an opportunity by a threshold. -/
lemma chargesAbove_advance (row : PipelineRow) :
    ChargesAbove fun budget => (row.advance budget).charge := by
  unfold PipelineRow.advance VCBrain.advance
  cases row.opp.lifecycleState with
  | discovered => exact ChargesAbove.of_eq_zero fun _ => charge_advanceDiscovered ..
  | interesting =>
    dsimp only [advanceInteresting]
    split_ifs
    · exact ChargesAbove.of_eq_zero fun _ => rfl
    · exact chargesAbove_wait _ (by decide) rfl
  | investigating =>
    dsimp only
    split_ifs
    · exact chargesAbove_requestOutreach ..
    · exact chargesAbove_retryInvestigation ..
  | received => exact chargesAbove_awaitArtifact _ _ _ _ _ _ _ _ _ _ _ Int.one_nonneg
  | triage => exact chargesAbove_awaitArtifact _ _ _ _ _ _ _ _ _ _ _ (by decide)
  | screening => exact chargesAbove_awaitArtifact _ _ _ _ _ _ _ _ _ _ _ (by decide)
  | diligence => exact chargesAbove_awaitArtifact _ _ _ _ _ _ _ _ _ _ _ Int.one_nonneg
  | _ => exact ChargesAbove.of_eq_zero fun _ => rfl

/-! ## Every command -/

variable {n : ℕ} {s u : BudgetSystem ι κ tie} {e : BudgetEvent ι κ}

/-- A command of a dispatcher run overspends nothing exactly if it charges no more than after
reading the counter again. -/
lemma nonneg_dispatcherCommand {accepted : Bool} {store store' : BudgetStore tie}
    {stage stage' : DispatcherStage} (hstore : 0 ≤ store.tavily)
    (h : dispatcherCommand n accepted store stage = some (store', stage')) :
    store'.agent = store.agent ∧
      (0 ≤ store'.tavily ↔ stage.charge id ≤ stage.charge fun _ => store.tavily) := by
  cases stage with
  | ready => cases h; exact ⟨rfl, iff_of_true hstore le_rfl⟩
  | popping remaining lane lanes tasks => cases h; exact ⟨rfl, iff_of_true hstore le_rfl⟩
  | looping remaining tasks =>
    cases tasks with
    | nil => cases h; exact ⟨rfl, iff_of_true hstore le_rfl⟩
    | cons r tasks =>
      have hcharge := (chargesAbove_dispatcherCharge r).nonneg_iff hstore remaining
      simp only [dispatcherCommand] at h
      split_ifs at h with hdefer
      · cases h
        rw [dispatcherCharge, if_neg fun hcharge => hcharge.2 hdefer.2, sub_zero] at hcharge
        refine ⟨rfl, hcharge.trans ?_⟩
        simp only [DispatcherStage.charge, id, dispatcherCharge, hdefer.2, not_true, and_false,
          if_false]
      · cases h
        exact ⟨rfl, hcharge⟩
  | delivering remaining r tasks => cases h; exact ⟨rfl, iff_of_true hstore le_rfl⟩
  | failed remaining r tasks => cases h; exact ⟨rfl, iff_of_true hstore le_rfl⟩
  | refunding remaining tasks =>
    cases h
    exact ⟨rfl, iff_of_true (Int.le_add_one hstore) le_rfl⟩
  | finished => cases h

/-- A command of a pipeline run overspends nothing exactly if it charges no more than after reading
the counter again. -/
lemma nonneg_pipelineCommand {move : PipelineMove} {store store' : BudgetStore tie}
    {locked locked' : List Uuid} {stage stage' : PipelineStage} (hstore : 0 ≤ store.agent)
    (h : pipelineCommand move store locked stage = some (store', locked', stage')) :
    store'.tavily = store.tavily ∧
      (0 ≤ store'.agent ↔ stage.charge id move ≤ stage.charge (fun _ => store.agent) move) := by
  cases stage with
  | ready =>
    cases move with
    | lock batch =>
      simp only [pipelineCommand] at h
      split_ifs at h
      cases h
      exact ⟨rfl, iff_of_true hstore le_rfl⟩
    | _ => cases h
  | working batch =>
    cases move with
    | look row =>
      simp only [pipelineCommand] at h
      split_ifs at h
      cases h
      exact ⟨rfl, iff_of_true hstore le_rfl⟩
    | commit => cases h; exact ⟨rfl, iff_of_true hstore le_rfl⟩
    | _ => cases h
  | looked batch row budget =>
    cases move with
    | charge =>
      have hcharge := (chargesAbove_advance row).nonneg_iff hstore budget
      simp only [pipelineCommand, Option.some.injEq, Prod.mk.injEq] at h
      rw [← h.1]
      exact ⟨rfl, hcharge⟩
    | _ => cases h
  | finished => cases h

/-- **One command.** It overspends no budget exactly if it charges no more than it would after
reading the counter again.

**Proof sketch.** Only the charges for a task in the loop and for an opportunity lower a counter.
Both charge an amount if the budget suffices and nothing otherwise. -/
lemma nonneg_step_iff (hs : s.Nonneg) (h : step n s e = some u) :
    u.Nonneg ↔ s.charges e ≤ s.chargesNow e := by
  cases e with
  | dispatcher i accepted =>
    obtain ⟨⟨store', stage'⟩, hcommand, rfl⟩ := Option.map_eq_some_iff.mp h
    obtain ⟨hagent, htavily⟩ := nonneg_dispatcherCommand hs.1 hcommand
    exact (and_iff_left (hagent.symm ▸ hs.2)).trans htavily
  | pipeline j move =>
    obtain ⟨⟨store', locked', stage'⟩, hcommand, rfl⟩ := Option.map_eq_some_iff.mp h
    obtain ⟨htavily, hagent⟩ := nonneg_pipelineCommand hs.2 hcommand
    exact (and_iff_right (htavily.symm ▸ hs.1)).trans hagent
  | enqueue task priority => cases h; exact iff_of_true hs le_rfl
  | dispatcherDies i => cases h; exact iff_of_true hs le_rfl
  | pipelineDies j => cases h; exact iff_of_true hs le_rfl

/-- A run that needs one task pops the only one of a lane. -/
lemma commit_pop (task : CollectionTask) (priority : ℚ) {i : ι} {remaining : ℤ} {lane : Lane}
    {lanes : List Lane} (hi : s.dispatcher i = .popping remaining lane lanes [])
    (hlane : (s.store.queue lane).entries = [(-priority, taskKey task.json)]) (accepted : Bool) :
    History.commit (step 1) s (.dispatcher i accepted) =
      { s with
        store := { s.store with
          queue := Function.update s.store.queue lane ((s.store.queue lane).zpopmin 1).2 }
        dispatcher := Function.update s.dispatcher i
          (.looping remaining [(task.json.sortKeys, priority)]) } := by
  have hread : ((s.store.queue lane).zpopmin 1).1.mapM Queue.readEntry =
      some [(task.json.sortKeys, priority)] := by
    rw [SortedSet.zpopmin_fst, hlane]
    simp [Queue.readEntry, task.loads_taskKey]
  have hnext : popNext 1 remaining [(task.json.sortKeys, priority)] lanes =
      .looping remaining [(task.json.sortKeys, priority)] := by
    cases lanes <;> rfl
  refine History.commit_of_some _ ?_
  rw [step, hi, dispatcherCommand]
  dsimp only [List.length_nil, Nat.sub_zero]
  rw [hread]
  dsimp only [List.nil_append]
  rw [hnext, Option.map_some]

/-- A run that counts on a call of the budget charges it. -/
lemma commit_charge {i : ι} {remaining : ℤ} {r : Json × ℚ} {tasks : List (Json × ℚ)}
    (hi : s.dispatcher i = .looping remaining (r :: tasks)) (hleft : ¬ remaining ≤ 0)
    (hfrom : FromTavily r.1) (accepted : Bool) :
    History.commit (step n) s (.dispatcher i accepted) =
      { s with
        store := { s.store with tavily := s.store.tavily - 1 }
        dispatcher := Function.update s.dispatcher i (.delivering (remaining - 1) r tasks) } := by
  have hcharge : dispatcherCharge remaining r = 1 := if_pos ⟨hfrom, hleft⟩
  refine History.commit_of_some _ ?_
  rw [step, hi, dispatcherCommand, if_neg fun h => hleft h.2, hcharge, Option.map_some]

end BudgetSystem

/-- **Budgets under overlapping runs.** From counters that are not negative, and wherever any number
of dispatcher and pipeline runs stand, the counters stay so in every state that their commands lead
to exactly if no command charges more than it would if its run had read the counter just then.

**Proof sketch.** The rule for duties against guards (`History.meets_iff_guarded`), with one command
as the case (`BudgetSystem.nonneg_step_iff`). -/
theorem budgets_nonneg_iff {ι κ : Type*} [DecidableEq ι] [DecidableEq κ] (n : ℕ)
    (s : BudgetSystem ι κ tie) (hs : s.Nonneg) (es : List (BudgetEvent ι κ)) :
    History.Meets (BudgetSystem.step n) (fun _ u => u.Nonneg) s es ↔
      History.Guarded (BudgetSystem.step n) (fun s e => s.charges e ≤ s.chargesNow e) s es :=
  History.meets_iff_guarded (BudgetSystem.step n) (I := BudgetSystem.Nonneg)
    (fun _ _ _ hs h => BudgetSystem.nonneg_step_iff hs h) (fun _ _ _ _ _ hu => hu) hs es

end Runs

/-! ## Two runs at a time -/

/-- An opportunity whose investigation is to be started. -/
def interestingRow (id : Uuid) : PipelineRow where
  env := .default
  now := 0
  db := {}
  newId := 9
  opp :=
    { id := id
      companyName := "Company"
      sourceKind := "outbound"
      lifecycleState := .interesting
      createdAt := 0 }
  person := { id := 1, stableId := "founder", createdAt := 0 }

/-- Two dispatcher runs and two pipeline runs before their first commands, where each budget is left
for one. -/
def twoRuns : BudgetSystem Bool Bool byText where
  store := { queue := .empty, tavily := 1, agent := 5 }
  dispatcher := fun _ => .ready
  pipeline := fun _ => .ready

/-- Two tasks that search with Tavily. -/
def firstSearch : CollectionTask := (Enqueuer.research 1 2 3).task

def secondSearch : CollectionTask := (Enqueuer.research 4 5 6).task

/-- Both runs read the counter, and then each charges for a task that it pops. -/
def inParallel : List (BudgetEvent Bool Bool) :=
  [.enqueue firstSearch 10, .dispatcher false true, .dispatcher true true, .dispatcher false true,
    .enqueue secondSearch 10, .dispatcher true true, .dispatcher false true, .dispatcher true true]

/-- One pipeline run after the other. -/
def inTurn : List (BudgetEvent Bool Bool) :=
  [.pipeline false (.lock [7]), .pipeline false (.look (interestingRow 7)),
    .pipeline false .charge, .pipeline false .commit, .pipeline true (.lock [8]),
    .pipeline true (.look (interestingRow 8)), .pipeline true .charge, .pipeline true .commit]

/-- One pipeline run after the other overspends nothing. -/
theorem budgets_nonneg_inTurn :
    History.Meets (BudgetSystem.step 1) (fun _ u => u.Nonneg) twoRuns inTurn :=
  (budgets_nonneg_iff 1 twoRuns ⟨by decide, by decide⟩ inTurn).mpr (by decide +kernel)

/-- In parallel, each budget is charged twice. -/
theorem budgets_overspent :
    twoRuns.Nonneg ∧
      (History.replay (BudgetSystem.step 1) twoRuns inParallel).store.tavily = -1 ∧
      (History.replay (BudgetSystem.step 1) twoRuns
        [.pipeline false (.lock [7]), .pipeline true (.lock [8]),
          .pipeline false (.look (interestingRow 7)), .pipeline true (.look (interestingRow 8)),
          .pipeline false .charge, .pipeline true .charge]).store.agent = -5 := by
  have hfrom : FromTavily firstSearch.json.sortKeys ∧ FromTavily secondSearch.json.sortKeys := by
    rw [fromTavily_sortKeys firstSearch.wellFormed, fromTavily_sortKeys secondSearch.wellFormed]
    exact ⟨(fromTavily_task _).mpr rfl, (fromTavily_task _).mpr rfl⟩
  refine ⟨⟨by decide, by decide⟩, ?_, by decide +kernel⟩
  rw [inParallel, History.replay_cons, History.commit_of_some _ rfl, History.replay_cons,
    History.commit_of_some _ rfl, History.replay_cons, History.commit_of_some _ rfl,
    -- both runs have read the counter
    History.replay_cons, BudgetSystem.commit_pop firstSearch 10 rfl rfl,
    History.replay_cons, History.commit_of_some _ rfl, History.replay_cons,
    BudgetSystem.commit_pop secondSearch 10 rfl rfl, History.replay_cons,
    BudgetSystem.commit_charge (r := (firstSearch.json.sortKeys, 10)) rfl (by decide) hfrom.1,
    History.replay_cons,
    BudgetSystem.commit_charge (r := (secondSearch.json.sortKeys, 10)) rfl (by decide) hfrom.2,
    History.replay_nil]
  rfl

end VCBrain
