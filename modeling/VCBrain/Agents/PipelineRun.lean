import VCBrain.Agents.AdvancePipeline

set_option relaxedAutoImplicit false
set_option autoImplicit false

/-!
# Runs of the pipeline job

A run handles the opportunities of its batch one after another. What it makes of one depends on
the artifacts, which it does not change, on the opportunity's own row and events, which only its
own turn changes, and on the budget that is left.

## Main definitions

* `SameArtifacts` — two databases differ in opportunities and events only.
* `outcomeOf`, `rowAfter` — what a run makes of an opportunity, and its row afterwards.
* `ahead` — the open opportunities that are looked at before one.

## Main results

* `turn_congr` — what a turn depends on.
* `run_of_notMem`, `run_of_mem` — what a run does to an opportunity outside and inside its batch.
* `run_rows` — the table after a run, row by row.
* `mem_pipelineBatch_iff` — the batch in terms of the opportunities ahead.
-/

namespace VCBrain

/-- Only opportunities and their events differ. -/
def SameArtifacts (db db' : Db) : Prop :=
  { db with opportunities := db'.opportunities, decisionEvents := db'.decisionEvents } = db'

namespace SameArtifacts

variable {db db' db'' : Db}

lemma refl (db : Db) : SameArtifacts db db := by unfold SameArtifacts; rfl

lemma trans (h : SameArtifacts db db') (h' : SameArtifacts db' db'') : SameArtifacts db db'' := by
  unfold SameArtifacts at *
  rw [← h', ← h]

lemma foundersOf (h : SameArtifacts db db') (id : Uuid) : foundersOf db' id = foundersOf db id := by
  unfold SameArtifacts at h
  rw [← h]
  rfl

lemma latestScore (h : SameArtifacts db db') (id : Uuid) (rubric : Str) :
    latestScore db' id rubric = latestScore db id rubric := by
  unfold SameArtifacts at h
  rw [← h]
  rfl

lemma hasOpportunityAxes (h : SameArtifacts db db') (id : Uuid) :
    HasOpportunityAxes db' id ↔ HasOpportunityAxes db id := by
  unfold SameArtifacts at h
  rw [← h]
  exact Iff.rfl

lemma hasFounderScore (h : SameArtifacts db db') (id : Uuid) :
    HasFounderScore db' id ↔ HasFounderScore db id := by
  unfold SameArtifacts at h
  rw [← h]
  exact Iff.rfl

lemma hasScopedClaims (h : SameArtifacts db db') (personId id : Uuid) :
    HasScopedClaims db' personId id ↔ HasScopedClaims db personId id := by
  unfold SameArtifacts at h
  rw [← h]
  exact Iff.rfl

lemma hasMemo (h : SameArtifacts db db') (id : Uuid) : HasMemo db' id ↔ HasMemo db id := by
  unfold SameArtifacts at h
  rw [← h]
  exact Iff.rfl

lemma gate (h : SameArtifacts db db') (personId id : Uuid) (stage : Stage) :
    Gate db' personId id stage ↔ Gate db personId id stage := by
  unfold SameArtifacts at h
  rw [← h]
  cases stage <;> exact Iff.rfl

end SameArtifacts

/-- The pipeline's events of an opportunity are among its events. -/
lemma pipelineEvents_eq (db : Db) (id : Uuid) (fragment : Str) :
    pipelineEvents db id fragment = (db.eventsOf id).filter fun e =>
      e.actor = pipelineActor ∧ e.reason.any fun reason => fragment <:+: reason := by
  unfold pipelineEvents Db.eventsOf
  rw [List.filter_filter]
  congr 1
  funext e
  rw [Bool.decide_and, Bool.and_comm]

/-- The pipeline's events depend on the events of the opportunity only. -/
lemma pipelineEvents_congr {db db' : Db} {id : Uuid} (hevents : db'.eventsOf id = db.eventsOf id)
    (fragment : Str) : pipelineEvents db' id fragment = pipelineEvents db id fragment := by
  rw [pipelineEvents_eq, pipelineEvents_eq, hevents]

section Congr

variable {env : PipelineEnv} {now : Time} {db db' : Db} {budget : ℤ} {newId : Uuid}
  {opp : Opportunity} {person : Person}

/-- What an inbound branch depends on: the artifact and the events of the opportunity. -/
private lemma awaitArtifact_congr {artifact artifact' : Prop} [Decidable artifact]
    [Decidable artifact'] {next : Stage} {reason queued missing : Str} {calls : ℤ}
    {task : QueueTask} (hevents : db'.eventsOf opp.id = db.eventsOf opp.id)
    (hartifact : artifact' ↔ artifact) :
    awaitArtifact env now db' budget newId opp (decide artifact') next reason queued missing calls
        task =
      awaitArtifact env now db budget newId opp (decide artifact) next reason queued missing calls
        task := by
  have hrecent : ∀ since, HasRecentPipelineEvent db' opp.id queued since ↔
      HasRecentPipelineEvent db opp.id queued since := by
    intro since
    unfold HasRecentPipelineEvent
    rw [pipelineEvents_congr hevents]
  have hdecide : decide artifact' = decide artifact := decide_eq_decide.mpr hartifact
  unfold awaitArtifact
  rw [hdecide]
  simp only [hrecent]

/-- What a run makes of an opportunity depends on the artifacts and its own events only. -/
lemma advance_congr (h : SameArtifacts db db')
    (hevents : db'.eventsOf opp.id = db.eventsOf opp.id) :
    advance env now db' budget newId opp person = advance env now db budget newId opp person := by
  have haxes := h.hasOpportunityAxes opp.id
  unfold advance
  cases opp.lifecycleState with
  | discovered =>
    dsimp only
    unfold advanceDiscovered
    rw [h.latestScore]
  | interesting =>
    dsimp only
    unfold advanceInteresting
    simp only [haxes]
  | investigating =>
    dsimp only
    unfold retryInvestigation requestOutreach countRetries
    rw [h.latestScore, pipelineEvents_congr hevents]
    simp only [haxes]
  | received => exact awaitArtifact_congr hevents (h.hasScopedClaims ..)
  | triage => exact awaitArtifact_congr hevents (h.hasFounderScore ..)
  | screening => exact awaitArtifact_congr hevents haxes
  | diligence => exact awaitArtifact_congr hevents (h.hasMemo ..)
  | contacted => rfl
  | memoReady => rfl
  | hold => rfl
  | approved => rfl
  | closed => rfl

end Congr

section Run

variable {env : PipelineEnv} {now : Time} {draw : Uuid → Uuid} {s t : PipelineState}
  {opp : Opportunity} {a : Advance} {id : Uuid}

/-- **Turns.** What a turn depends on: the artifacts, the events of the opportunity, the budget. -/
lemma turn_congr (h : SameArtifacts s.db t.db)
    (hevents : t.db.eventsOf opp.id = s.db.eventsOf opp.id) (hbudget : t.budget = s.budget) :
    turn env now draw t opp = turn env now draw s opp := by
  unfold turn
  rw [h.foundersOf, hbudget]
  congr 1
  funext person
  exact advance_congr h hevents

/-- The row a turn writes is that of its opportunity, and so is the event. -/
lemma turn_ids (h : turn env now draw s opp = some a) :
    a.opportunity.id = opp.id ∧ (∀ e ∈ a.event, e.opportunityId = opp.id) ∧
      0 ≤ a.charge ∧ a.charge ≤ 5 := by
  obtain ⟨person, -, rfl⟩ := Option.map_eq_some_iff.mp h
  cases advance_outcome env now s.db s.budget (draw opp.id) opp person with
  | idle hopp hevent hcharge htasks =>
    rw [hopp, hevent, hcharge]
    exact ⟨rfl, fun e he => absurd he (Option.not_mem_none e), le_refl _, by decide⟩
  | moved newState reason hne hvalid hgate hopp hevent hcharge =>
    rw [hopp, hevent]
    refine ⟨moved_id .., fun e he => ?_, hcharge⟩
    obtain rfl := Option.mem_some_iff.mp he
    rfl
  | noted reason metadata hopp hevent htasks hcharge =>
    rw [hevent]
    refine ⟨by rcases hopp with hopp | hopp <;> rw [hopp], fun e he => ?_, hcharge⟩
    obtain rfl := Option.mem_some_iff.mp he
    rfl

/-- A run changes neither the place of an opportunity in the order nor opens a closed one. -/
lemma Outcome.key {db : Db} {newId personId : Uuid} (h : Outcome now db newId opp personId a) :
    batchKey a.opportunity = batchKey opp ∧ (a.opportunity.IsOpen → opp.IsOpen) := by
  cases h with
  | idle hopp _ _ _ =>
    rw [hopp]
    exact ⟨rfl, id⟩
  | moved newState reason hne hvalid hgate hopp _ _ =>
    have hnew : newState ≠ .received := by
      rintro rfl
      exact hgate
    rw [hopp, moved_of_ne_received hnew]
    refine ⟨rfl, fun _ => ?_⟩
    have hopen : ¬ opp.lifecycleState.Terminal := fun hterminal =>
      hne (isValidTransition_of_terminal hterminal hvalid).symm
    rwa [Stage.terminal_iff, not_or] at hopen
  | noted reason metadata hopp _ _ _ =>
    rcases hopp with hopp | hopp
    · rw [hopp]
      exact ⟨rfl, id⟩
    · rw [hopp]
      exact ⟨rfl, id⟩

lemma record_sameArtifacts (s : PipelineState) (a : Advance) :
    SameArtifacts s.db (s.record a).db := rfl

/-- Recording leaves the row and the events of other opportunities as they are. -/
lemma record_frame (hne : id ≠ a.opportunity.id) (hevent : ∀ e ∈ a.event, e.opportunityId ≠ id) :
    (s.record a).db.opportunity? id = s.db.opportunity? id ∧
      (s.record a).db.eventsOf id = s.db.eventsOf id := by
  constructor
  · unfold Db.opportunity? PipelineState.record
    rw [find?_replaceOpportunity]
    cases hfind : s.db.opportunities.find? fun o => o.id = id with
    | none => rfl
    | some o =>
      have ho : o.id = id := by simpa using List.find?_some hfind
      rw [Option.map_some, if_neg (ho.trans_ne hne)]
  · unfold Db.eventsOf PipelineState.record
    have hnone : a.event.toList.filter (fun e => e.opportunityId = id) = [] := by
      rw [List.filter_eq_nil_iff]
      intro e he
      simpa using hevent e (by simpa using he)
    rw [List.filter_append, hnone, List.append_nil]

/-- Recording writes the row of the opportunity and appends its event. -/
lemma record_self (hrow : (s.db.opportunity? a.opportunity.id).isSome)
    (hevent : ∀ e ∈ a.event, e.opportunityId = a.opportunity.id) :
    (s.record a).db.opportunity? a.opportunity.id = some a.opportunity ∧
      (s.record a).db.eventsOf a.opportunity.id =
        s.db.eventsOf a.opportunity.id ++ a.event.toList := by
  constructor
  · obtain ⟨o, ho⟩ := Option.isSome_iff_exists.mp hrow
    have hoid := id_of_opportunity? ho
    unfold Db.opportunity? at ho ⊢
    unfold PipelineState.record
    rw [find?_replaceOpportunity, ho, Option.map_some, if_pos hoid]
  · unfold Db.eventsOf PipelineState.record
    have hall : a.event.toList.filter (fun e => e.opportunityId = a.opportunity.id) =
        a.event.toList := by
      rw [List.filter_eq_self]
      intro e he
      simpa using hevent e (by simpa using he)
    rw [List.filter_append, hall]

/-! ## The loop -/

lemma advanceOne_sameArtifacts (s : PipelineState) (opp : Opportunity) :
    SameArtifacts s.db (advanceOne env now draw s opp).db := by
  unfold advanceOne
  cases turn env now draw s opp with
  | none => exact .refl _
  | some a => exact record_sameArtifacts s a

variable (env now draw) in
lemma advanceOne_frame (hne : id ≠ opp.id) :
    (advanceOne env now draw s opp).db.opportunity? id = s.db.opportunity? id ∧
      (advanceOne env now draw s opp).db.eventsOf id = s.db.eventsOf id := by
  unfold advanceOne
  cases h : turn env now draw s opp with
  | none => exact ⟨rfl, rfl⟩
  | some a =>
    obtain ⟨hid, hevent, -⟩ := turn_ids h
    exact record_frame (hid ▸ hne) fun e he => (hevent e he).trans_ne hne.symm

variable (env now draw) in
lemma advanceOne_budget (s : PipelineState) (opp : Opportunity) :
    (advanceOne env now draw s opp).budget ≤ s.budget ∧
      s.budget - 5 ≤ (advanceOne env now draw s opp).budget := by
  unfold advanceOne
  cases h : turn env now draw s opp with
  | none => exact ⟨le_refl _, by dsimp only; omega⟩
  | some a =>
    obtain ⟨-, -, hnonneg, hfive⟩ := turn_ids h
    show s.budget - a.charge ≤ s.budget ∧ s.budget - 5 ≤ s.budget - a.charge
    omega

variable (env now draw) in
/-- The rounds for other opportunities leave the artifacts, the row and the events as they are. -/
lemma foldl_frame {batch : List Opportunity} (hne : ∀ o ∈ batch, id ≠ o.id) (s : PipelineState) :
    SameArtifacts s.db (batch.foldl (advanceOne env now draw) s).db ∧
      (batch.foldl (advanceOne env now draw) s).db.opportunity? id = s.db.opportunity? id ∧
      (batch.foldl (advanceOne env now draw) s).db.eventsOf id = s.db.eventsOf id := by
  induction batch generalizing s with
  | nil => exact ⟨.refl _, rfl, rfl⟩
  | cons o batch ih =>
    obtain ⟨hsame, hrow, hevents⟩ :=
      ih (fun o' ho' => hne o' (List.mem_cons_of_mem _ ho')) (advanceOne env now draw s o)
    obtain ⟨hrow', hevents'⟩ :=
      advanceOne_frame env now draw (s := s)
        (hne o (List.mem_cons_self ..))
    exact ⟨(advanceOne_sameArtifacts s o).trans hsame, hrow.trans hrow', hevents.trans hevents'⟩

variable (env now draw) in
/-- A run spends no more than five calls for each opportunity, and never refunds any. -/
lemma foldl_budget (batch : List Opportunity) (s : PipelineState) :
    (batch.foldl (advanceOne env now draw) s).budget ≤ s.budget ∧
      s.budget - 5 * batch.length ≤ (batch.foldl (advanceOne env now draw) s).budget := by
  induction batch generalizing s with
  | nil => simp
  | cons o batch ih =>
    obtain ⟨hle, hge⟩ := ih (advanceOne env now draw s o)
    obtain ⟨hle', hge'⟩ := advanceOne_budget env now draw s o
    simp only [List.foldl_cons, List.length_cons, Nat.cast_add, Nat.cast_one]
    constructor
    · omega
    · omega

/-! ## One opportunity in a run -/

/-- The state of a run when the turn of an opportunity comes. -/
def beforeTurn (env : PipelineEnv) (now : Time) (draw : Uuid → Uuid) (s : PipelineState)
    (id : Uuid) : PipelineState :=
  ((pipelineBatch env s.db).takeWhile fun o => o.id ≠ id).foldl (advanceOne env now draw)
    { s with summary := {} }

/-- What a run makes of an opportunity: nothing if it is not in the batch or has no founder. -/
def outcomeOf (env : PipelineEnv) (now : Time) (draw : Uuid → Uuid) (s : PipelineState)
    (id : Uuid) : Option Advance :=
  ((pipelineBatch env s.db).find? fun o => o.id = id).bind fun o =>
    turn env now draw (beforeTurn env now draw s id) o

/-- The batch consists of rows of the table. -/
lemma mem_of_mem_pipelineBatch {db : Db} (h : opp ∈ pipelineBatch env db) :
    opp ∈ db.opportunities ∧ opp.IsOpen := by
  have hmem := mem_orderBy.mp (List.mem_of_mem_take h)
  simpa using hmem

variable (env) in
/-- An opportunity is in the batch once. -/
lemma pipelineBatch_keyUnique {db : Db} (hkey : KeyUnique Opportunity.id db.opportunities) :
    KeyUnique Opportunity.id (pipelineBatch env db) := by
  unfold pipelineBatch
  have hrows : KeyUnique Opportunity.id (db.opportunities.filter fun o => o.IsOpen) :=
    (List.filter_sublist.map Opportunity.id).nodup hkey
  have hsorted : KeyUnique Opportunity.id
      (orderBy batchKey (db.opportunities.filter fun o => o.IsOpen)) :=
    ((perm_orderBy _ _).map Opportunity.id).nodup_iff.mpr hrows
  exact ((List.take_sublist _ _).map Opportunity.id).nodup hsorted

variable (env now draw) in
/-- A run leaves the artifacts as they are. -/
lemma run_sameArtifacts (s : PipelineState) :
    SameArtifacts s.db (advancePipelineJob env now draw s).db := by
  have hfold : ∀ (batch : List Opportunity) (s : PipelineState),
      SameArtifacts s.db (batch.foldl (advanceOne env now draw) s).db := by
    intro batch
    induction batch with
    | nil => exact fun s => .refl s.db
    | cons o batch ih => exact fun s => (advanceOne_sameArtifacts s o).trans (ih _)
  exact hfold _ { s with summary := {} }

variable (env now draw) in
/-- A run spends no more than five calls for each opportunity of its batch. -/
lemma run_budget (s : PipelineState) :
    s.budget - 5 * env.batchSize ≤ (advancePipelineJob env now draw s).budget := by
  have hlength : (pipelineBatch env s.db).length ≤ env.batchSize := List.length_take_le _ _
  obtain ⟨-, hge⟩ := foldl_budget env now draw (pipelineBatch env s.db)
    { s with summary := {} }
  have hstart : ({ s with summary := {} } : PipelineState).budget = s.budget := rfl
  unfold advancePipelineJob
  omega

variable (env now draw) in
/-- **Outside the batch** an opportunity keeps its row and its events. -/
theorem run_of_notMem (hkey : KeyUnique Opportunity.id s.db.opportunities)
    (hopp : opp ∈ s.db.opportunities) (hout : opp ∉ pipelineBatch env s.db) :
    outcomeOf env now draw s opp.id = none ∧
      (advancePipelineJob env now draw s).db.opportunity? opp.id = some opp ∧
      (advancePipelineJob env now draw s).db.eventsOf opp.id = s.db.eventsOf opp.id := by
  have hne : ∀ o ∈ pipelineBatch env s.db, opp.id ≠ o.id := by
    intro o ho heq
    exact hout (hkey.eq_of_id_eq hopp (mem_of_mem_pipelineBatch ho).1 heq ▸ ho)
  have hfind : (pipelineBatch env s.db).find? (fun o => o.id = opp.id) = none := by
    rw [List.find?_eq_none]
    intro o ho
    simpa using (hne o ho).symm
  obtain ⟨-, hrow, hevents⟩ := foldl_frame env now draw hne
    { s with summary := {} }
  refine ⟨?_, hrow.trans (opportunity?_of_mem hkey hopp), hevents⟩
  unfold outcomeOf
  rw [hfind]
  rfl

/-- The turn of an opportunity in a run. -/
structure TurnInRun (env : PipelineEnv) (now : Time) (draw : Uuid → Uuid) (s : PipelineState)
    (opp : Opportunity) : Prop where
  budget_le : (beforeTurn env now draw s opp.id).budget ≤ s.budget
  le_budget : s.budget - 5 * env.batchSize + 5 ≤ (beforeTurn env now draw s opp.id).budget
  run_le : (advancePipelineJob env now draw s).budget ≤ (beforeTurn env now draw s opp.id).budget
  outcome : outcomeOf env now draw s opp.id = (env.anyFounder.pick (foundersOf s.db opp.id)).map
    (advance env now s.db (beforeTurn env now draw s opp.id).budget (draw opp.id) opp)
  row : (advancePipelineJob env now draw s).db.opportunity? opp.id =
    some ((outcomeOf env now draw s opp.id).elim opp Advance.opportunity)
  events : (advancePipelineJob env now draw s).db.eventsOf opp.id =
    s.db.eventsOf opp.id ++ ((outcomeOf env now draw s opp.id).bind Advance.event).toList

/-- **Inside the batch** the turn of an opportunity sees the artifacts and its own events as they
were before the run, and a budget that others have reduced by five calls each at most; its outcome
is written and stays.

**Proof sketch.** The batch is `before ++ opp :: after` without another occurrence of `opp`. The
rounds of `before` and of `after` are for other opportunities (`foldl_frame`). -/
theorem run_of_mem (hkey : KeyUnique Opportunity.id s.db.opportunities)
    (hmem : opp ∈ pipelineBatch env s.db) : TurnInRun env now draw s opp := by
  have hunique := pipelineBatch_keyUnique env hkey
  have hlength : (pipelineBatch env s.db).length ≤ env.batchSize := List.length_take_le _ _
  obtain ⟨before, after, hsplit⟩ := List.mem_iff_append.mp hmem
  have hnodup : (before.map Opportunity.id ++ opp.id :: after.map Opportunity.id).Nodup := by
    unfold KeyUnique at hunique
    rwa [hsplit, List.map_append, List.map_cons] at hunique
  obtain ⟨-, htail, hcross⟩ := List.nodup_append.mp hnodup
  have hbefore : ∀ o ∈ before, opp.id ≠ o.id := fun o ho =>
    (hcross o.id (List.mem_map_of_mem ho) opp.id (List.mem_cons_self ..)).symm
  have hafter : ∀ o ∈ after, opp.id ≠ o.id := fun o ho heq =>
    (List.nodup_cons.mp htail).1 (heq ▸ List.mem_map_of_mem ho)
  have htake : (pipelineBatch env s.db).takeWhile (fun o => o.id ≠ opp.id) = before := by
    rw [hsplit, List.takeWhile_append_of_pos (fun o ho => by simpa using (hbefore o ho).symm),
      List.takeWhile_cons_of_neg (by simp), List.append_nil]
  have hfind : (pipelineBatch env s.db).find? (fun o => o.id = opp.id) = some opp := by
    rw [hsplit, List.find?_append, List.find?_eq_none.mpr fun o ho => by
      simpa using (hbefore o ho).symm, Option.none_or, List.find?_cons_of_pos (by simp)]
  set start : PipelineState := { s with summary := {} } with hstart
  set mid := before.foldl (advanceOne env now draw) start with hmid
  have hturn : beforeTurn env now draw s opp.id = mid := by
    unfold beforeTurn
    rw [htake]
  obtain ⟨hsame, hrow, hevents⟩ := foldl_frame env now draw hbefore start
  obtain ⟨hle, hge⟩ := foldl_budget env now draw before start
  have hcount : before.length + 1 ≤ env.batchSize := by
    rw [hsplit, List.length_append, List.length_cons] at hlength
    omega
  have houtcome : outcomeOf env now draw s opp.id =
      (env.anyFounder.pick (foundersOf s.db opp.id)).map
        (advance env now s.db mid.budget (draw opp.id) opp) := by
    unfold outcomeOf
    rw [hfind, Option.bind_some, hturn]
    unfold turn
    rw [hsame.foundersOf]
    congr 1
    funext person
    exact advance_congr hsame hevents
  have hrun : advancePipelineJob env now draw s =
      after.foldl (advanceOne env now draw) (advanceOne env now draw mid opp) := by
    unfold advancePipelineJob
    rw [hsplit, List.foldl_append, List.foldl_cons]
  obtain ⟨-, hrowAfter, heventsAfter⟩ := foldl_frame env now draw hafter
    (advanceOne env now draw mid opp)
  have hmidRow : mid.db.opportunity? opp.id = some opp :=
    hrow.trans (opportunity?_of_mem hkey (mem_of_mem_pipelineBatch hmem).1)
  have hbudget : s.budget - 5 * env.batchSize + 5 ≤ mid.budget := by
    have hstartBudget : start.budget = s.budget := rfl
    rw [hmid]
    omega
  have hround : turn env now draw mid opp = outcomeOf env now draw s opp.id := by
    unfold outcomeOf
    rw [hfind, Option.bind_some, hturn]
  have hwritten : (advanceOne env now draw mid opp).db.opportunity? opp.id =
        some ((outcomeOf env now draw s opp.id).elim opp Advance.opportunity) ∧
      (advanceOne env now draw mid opp).db.eventsOf opp.id =
        s.db.eventsOf opp.id ++ ((outcomeOf env now draw s opp.id).bind Advance.event).toList := by
    rw [← hround]
    unfold advanceOne
    cases ha : turn env now draw mid opp with
    | none => exact ⟨hmidRow, by simpa using hevents⟩
    | some a =>
      obtain ⟨hid, hevent, -⟩ := turn_ids ha
      obtain ⟨hwritten, happended⟩ := record_self (s := mid) (a := a) (by rw [hid, hmidRow]; rfl)
        (fun e he => (hevent e he).trans hid.symm)
      rw [hid] at hwritten happended
      exact ⟨hwritten, by rw [happended, hevents]; rfl⟩
  have hrest : (after.foldl (advanceOne env now draw) (advanceOne env now draw mid opp)).budget ≤
      mid.budget := (foldl_budget _ _ _ after _).1.trans (advanceOne_budget _ _ _ mid opp).1
  exact {
    budget_le := hturn ▸ hle
    le_budget := hturn ▸ hbudget
    run_le := by rw [hrun, hturn]; exact hrest
    outcome := hturn ▸ houtcome
    row := by rw [hrun, hrowAfter]; exact hwritten.1
    events := by rw [hrun, heventsAfter]; exact hwritten.2 }

/-! ## The table after a run -/

/-- The row of an opportunity after a run. -/
def rowAfter (env : PipelineEnv) (now : Time) (draw : Uuid → Uuid) (s : PipelineState)
    (opp : Opportunity) : Opportunity :=
  (outcomeOf env now draw s opp.id).elim opp Advance.opportunity

/-- The rounds of a run keep the opportunities of the table in their order. -/
private lemma foldl_map_id (batch : List Opportunity) (s : PipelineState) :
    (batch.foldl (advanceOne env now draw) s).db.opportunities.map Opportunity.id =
      s.db.opportunities.map Opportunity.id := by
  induction batch generalizing s with
  | nil => rfl
  | cons o batch ih =>
    rw [List.foldl_cons, ih]
    unfold advanceOne
    cases turn env now draw s o with
    | none => rfl
    | some a =>
      exact map_id_replaceOpportunity _ _

lemma run_map_id (s : PipelineState) :
    (advancePipelineJob env now draw s).db.opportunities.map Opportunity.id =
      s.db.opportunities.map Opportunity.id := foldl_map_id _ _

variable (env now draw) in
/-- A run keeps the keys of the table. -/
lemma run_keyUnique (hkey : KeyUnique Opportunity.id s.db.opportunities) :
    KeyUnique Opportunity.id (advancePipelineJob env now draw s).db.opportunities := by
  unfold KeyUnique
  rw [run_map_id]
  exact hkey

variable (env now draw) in
/-- The row of an opportunity after a run, in its batch or not. -/
lemma run_row (hkey : KeyUnique Opportunity.id s.db.opportunities)
    (hopp : opp ∈ s.db.opportunities) :
    (advancePipelineJob env now draw s).db.opportunity? opp.id =
      some (rowAfter env now draw s opp) := by
  unfold rowAfter
  by_cases hmem : opp ∈ pipelineBatch env s.db
  · exact (run_of_mem hkey hmem).row
  · obtain ⟨hnone, hrow, -⟩ := run_of_notMem env now draw hkey hopp hmem
    rw [hnone]
    exact hrow

/-- A table with the same ids is determined by the rows that are found under them. -/
private lemma eq_map_of_map_id {rows rows' : List Opportunity} {g : Opportunity → Opportunity}
    (hkey : KeyUnique Opportunity.id rows)
    (hids : rows'.map Opportunity.id = rows.map Opportunity.id)
    (hfind : ∀ o ∈ rows, rows'.find? (fun o' => o'.id = o.id) = some (g o)) :
    rows' = rows.map g := by
  have hkey' : KeyUnique Opportunity.id rows' := by
    unfold KeyUnique
    rw [hids]
    exact hkey
  refine List.ext_getElem (by simpa using congrArg List.length hids) fun i hi hi' => ?_
  have hrow : i < rows.length := by simpa using hi'
  have hid : rows'[i].id = rows[i].id := by
    have := congrArg (fun l => l[i]?) hids
    simpa [List.getElem?_map, List.getElem?_eq_getElem hi, List.getElem?_eq_getElem hrow] using this
  have hfound := hfind rows[i] (List.getElem_mem hrow)
  have hsame : (g rows[i]).id = rows[i].id := by simpa using List.find?_some hfound
  rw [List.getElem_map]
  exact hkey'.eq_of_id_eq (List.getElem_mem hi) (List.mem_of_find?_eq_some hfound)
    (hid.trans hsame.symm)

variable (env now draw) in
/-- **The table after a run**, row by row. -/
theorem run_rows (hkey : KeyUnique Opportunity.id s.db.opportunities) :
    (advancePipelineJob env now draw s).db.opportunities =
      s.db.opportunities.map (rowAfter env now draw s) :=
  eq_map_of_map_id hkey (run_map_id s) fun _ ho => run_row _ _ _ hkey ho

variable (env now draw) in
/-- The row after a run is in the table of the next one. -/
lemma rowAfter_mem (hkey : KeyUnique Opportunity.id s.db.opportunities)
    (hopp : opp ∈ s.db.opportunities) :
    rowAfter env now draw s opp ∈ (advancePipelineJob env now draw s).db.opportunities := by
  rw [run_rows _ _ _ hkey]
  exact List.mem_map_of_mem hopp

variable (env now draw) in
lemma rowAfter_id (hkey : KeyUnique Opportunity.id s.db.opportunities)
    (hopp : opp ∈ s.db.opportunities) : (rowAfter env now draw s opp).id = opp.id :=
  id_of_opportunity? (run_row _ _ _ hkey hopp)

variable (env now draw) in
/-- A run changes neither the place of an opportunity in the order nor opens a closed one. -/
lemma rowAfter_key (s : PipelineState) (opp : Opportunity)
    (hkey : KeyUnique Opportunity.id s.db.opportunities) (hopp : opp ∈ s.db.opportunities) :
    batchKey (rowAfter env now draw s opp) = batchKey opp ∧
      ((rowAfter env now draw s opp).IsOpen → opp.IsOpen) := by
  unfold rowAfter
  by_cases hmem : opp ∈ pipelineBatch env s.db
  · rw [(run_of_mem hkey hmem).outcome]
    cases env.anyFounder.pick (foundersOf s.db opp.id) with
    | none => exact ⟨rfl, id⟩
    | some person => exact Outcome.key (advance_outcome ..)
  · rw [(run_of_notMem _ _ _ hkey hopp hmem).1]
    exact ⟨rfl, id⟩

/-! ## The batch -/

/-- The open opportunities that are looked at before an opportunity. -/
def ahead (db : Db) (opp : Opportunity) : List Opportunity :=
  db.opportunities.filter fun o => o.IsOpen ∧ batchKey o < batchKey opp

variable (env) in
/-- **The batch.** An open opportunity is in the batch exactly if fewer than `batchSize` open ones
are ahead of it. -/
theorem mem_pipelineBatch_iff {db : Db} (hkey : KeyUnique Opportunity.id db.opportunities)
    (hopp : opp ∈ db.opportunities) (hopen : opp.IsOpen) :
    opp ∈ pipelineBatch env db ↔ (ahead db opp).length < env.batchSize := by
  have hinj : ∀ a ∈ db.opportunities.filter (fun o => o.IsOpen),
      ∀ b ∈ db.opportunities.filter (fun o => o.IsOpen), batchKey a = batchKey b → a = b := by
    intro a ha b hb heq
    have hid : a.id = b.id := congrArg (fun k => (ofLex (ofLex k).2).2) heq
    exact hkey.eq_of_id_eq (List.mem_of_mem_filter ha) (List.mem_of_mem_filter hb) hid
  unfold pipelineBatch
  rw [mem_take_orderBy_iff hinj (hkey.of_map.filter _) (by simpa using ⟨hopp, hopen⟩)]
  unfold ahead
  rw [List.filter_filter]
  simp only [Bool.decide_and, Bool.and_comm]

variable (env now draw) in
/-- Whoever is ahead after a run was ahead before it. -/
lemma ahead_run_le (hkey : KeyUnique Opportunity.id s.db.opportunities) {opp' : Opportunity}
    (hsame : batchKey opp' = batchKey opp) :
    (ahead (advancePipelineJob env now draw s).db opp').length ≤ (ahead s.db opp).length := by
  unfold ahead
  rw [run_rows _ _ _ hkey, List.filter_map, List.length_map, hsame, ← List.countP_eq_length_filter,
    ← List.countP_eq_length_filter]
  refine List.countP_mono_left fun o ho hahead => ?_
  obtain ⟨hkeep, hopens⟩ := rowAfter_key env now draw s o hkey ho
  rw [Function.comp_apply, decide_eq_true_eq, hkeep] at hahead
  exact decide_eq_true ⟨hopens hahead.1, hahead.2⟩

end Run

end VCBrain
