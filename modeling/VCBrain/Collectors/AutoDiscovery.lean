import VCBrain.Collectors.TasksInFlight
import VCBrain.Foundation.Datetime
import VCBrain.JobLedger

set_option relaxedAutoImplicit false
set_option autoImplicit false

/-!
# Automatic discovery

Every hour the queries of the active thesis are to be run once. A tick of `auto_discovery_job` goes
through them: it commits a ledger row under an id that the thesis, the query and the hour determine,
and then enqueues a task. The row and the task are in different stores, so a tick that crashes can
leave a row without a task. A later tick finds the row queued and takes it for done.

## Main definitions

* `ThesisQuery.jobId`, `ThesisQuery.text` — the row and the task of a query.
* `TickSystem.step` — ticks, dispatcher runs and jobs, step by step.
* `NothingStranded` — what completed ticks have to leave.
* `LeavesNoRow` — the condition on a crash.

## Main results

* `nothingStranded_of_guarded` — the runs in which no query is stranded.

## Design

The thesis that a tick reads is an input, as are the answers of Redis, and `uuid5` is a parameter. A
tick reads a row again for a query that occurs twice. The insertion of a row is one step with its
commit, as another insertion of the id waits for it. Jobs update any rows at any time, and no row is
deleted.
-/

namespace VCBrain

/-! ## Rows and tasks of a query -/

/-- The active thesis, as far as discovery is concerned. -/
structure DiscoveryThesis where
  id : Uuid
  discoveryQueries : List Str

/-- A query of a thesis. -/
structure ThesisQuery where
  thesisId : Uuid
  query : Str
deriving DecidableEq

/-- The queries of a thesis. -/
def DiscoveryThesis.queries (thesis : DiscoveryThesis) : List ThesisQuery :=
  thesis.discoveryQueries.map fun query => ⟨thesis.id, query⟩

/-- `now.replace(minute=0, second=0, microsecond=0)`. -/
def startOfHour (now : Time) : Time := now - now % 3600000000

section Queries

variable (uuid5 : Str → Uuid) (period : Time)

/-- The id of the ledger row of a query in the hour that begins at `period`. -/
def ThesisQuery.jobId (q : ThesisQuery) : Uuid :=
  uuid5 ("vcbrain:auto-discovery:".toList ++ q.thesisId.str ++ ":".toList ++ q.query ++
    ":".toList ++ Datetime.isoformat period)

/-- The task of a query. -/
def ThesisQuery.task (q : ThesisQuery) : CollectionTask :=
  (Enqueuer.autoDiscovery q.query (q.jobId uuid5 period)).task

/-- The text under which the task of a query stands in the queue. -/
def ThesisQuery.text (q : ThesisQuery) : Str := taskKey (q.task uuid5 period).json

end Queries

/-- The priority of the task. -/
def discoveryPriority : ℚ := 5

/-- A row whose task could not be queued is reset, whatever it is by now. -/
def queueAgain (job : JobRun) : JobRun :=
  { job with
    status := .queued
    phase := "queued"
    progress := 0
    lastError := none
    result := none
    finishedAt := none }

/-- The update of a row whose task could not be queued. -/
def queueFailure (errorType : Str) : JobUpdate :=
  (JobCall.fail "queue" none "queue_failed" (.obj [("status", .str "failed"),
    ("error", .str "queue_failed"), ("error_type", .str errorType)])).args

/-! ## Ticks -/

/-- What a tick does next. -/
inductive TickStage where
  | ready
  /-- It looks at the row of the next query, or returns. -/
  | look (queries : List ThesisQuery)
  /-- It has found no row. -/
  | insert (q : ThesisQuery) (queries : List ThesisQuery)
  /-- It has found a row whose task could not be queued. -/
  | reset (q : ThesisQuery) (queries : List ThesisQuery)
  | enqueue (q : ThesisQuery) (queries : List ThesisQuery)
  /-- The task could not be queued. -/
  | markFailed (q : ThesisQuery) (queries : List ThesisQuery)
  | completed
  | crashed

namespace TickStage

/-- The query whose row the tick has committed as queued, until it has recorded what became of the
task. -/
def atWork? : TickStage → Option ThesisQuery
  | enqueue q _ | markFailed q _ => some q
  | _ => none

/-- The queries for which the tick has not seen or committed a row yet. -/
def left : TickStage → List ThesisQuery
  | insert q queries => q :: queries
  | look queries | reset _ queries | enqueue _ queries | markFailed _ queries => queries
  | ready | completed | crashed => []

end TickStage

/-- A tick: the queries it has read, what it does next, and what it returns. -/
structure Tick where
  queries : List ThesisQuery := []
  stage : TickStage := .ready
  enqueued : ℕ := 0
  failed : ℕ := 0

/-- Any next step of ticks, dispatcher runs and jobs. -/
inductive TickEvent (ι κ : Type*) where
  | start (i : ι) (thesis : Option DiscoveryThesis) (now : Time)
  | look (i : ι)
  /-- The row is inserted or reset, and committed. -/
  | save (i : ι)
  | enqueue (i : ι)
  /-- `queue_enqueue` raises; the task may have been added all the same. -/
  | enqueueFails (i : ι) (added : Bool)
  | markFailed (i : ι) (errorType : Str) (now : Time)
  | crash (i : ι)
  /-- A command of a dispatcher run; Arq accepts the task if it is one that hands over. -/
  | dispatcher (k : κ) (accepted : Bool)
  /-- A delivery starts its job. -/
  | startJob (id : Uuid) (phase : Str) (now : Time)
  /-- A job updates its row. -/
  | updateJob (id : Uuid) (call : JobCall) (now : Time)

variable {τ : Type*} [LinearOrder τ]

/-- The ledger, the tasks and their deliveries, and the ticks. -/
structure TickSystem (ι κ : Type*) (tie : Str ↪ τ) where
  ledger : List JobRun := []
  tasks : TaskFlow κ tie
  tick : ι → Tick

namespace TickSystem

variable {ι κ : Type*} [DecidableEq ι] [DecidableEq κ] {tie : Str ↪ τ}

/-- A tick goes on. -/
def move (s : TickSystem ι κ tie) (i : ι) (stage : TickStage) : TickSystem ι κ tie :=
  { s with tick := Function.update s.tick i { s.tick i with stage := stage } }

variable (uuid5 : Str → Uuid) (period : Time) (n : ℕ)

/-- The next step of the hour that begins at `period`, where dispatcher runs have the concurrency
`n`; `none` if it is not due. -/
def step (s : TickSystem ι κ tie) : TickEvent ι κ → Option (TickSystem ι κ tie)
  | .start i thesis now =>
    match (s.tick i).stage with
    | .ready =>
      if startOfHour now = period then
        let queries := thesis.elim [] DiscoveryThesis.queries
        some { s with
          tick := Function.update s.tick i { queries := queries, stage := .look queries } }
      else none
    | _ => none
  | .look i =>
    match (s.tick i).stage with
    | .look [] => some (s.move i .completed)
    | .look (q :: queries) =>
      some (s.move i
        (match s.ledger.find? fun job => job.id = q.jobId uuid5 period with
        | none => .insert q queries
        | some job =>
          if job.status = .failed ∧ job.QueueFailed then .reset q queries else .look queries))
    | _ => none
  | .save i =>
    match (s.tick i).stage with
    | .insert q queries =>
      -- the row of a concurrent tick is left alone
      if ∃ job ∈ s.ledger, job.id = q.jobId uuid5 period then some (s.move i (.look queries))
      else
        some { s.move i (.enqueue q queries) with
          ledger := s.ledger ++ [createJob (q.jobId uuid5 period) "discover"] }
    | .reset q queries =>
      some { s.move i (.enqueue q queries) with
        ledger := modifyJob (q.jobId uuid5 period) queueAgain s.ledger }
    | _ => none
  | .enqueue i =>
    match (s.tick i).stage with
    | .enqueue q queries =>
      some { s with
        tasks := s.tasks.enqueue (q.task uuid5 period) discoveryPriority
        tick := Function.update s.tick i { s.tick i with
          stage := .look queries
          enqueued := (s.tick i).enqueued + 1 } }
    | _ => none
  | .enqueueFails i added =>
    match (s.tick i).stage with
    | .enqueue q queries =>
      some { s.move i (.markFailed q queries) with
        tasks :=
          if added then s.tasks.enqueue (q.task uuid5 period) discoveryPriority else s.tasks }
    | _ => none
  | .markFailed i errorType now =>
    match (s.tick i).stage with
    | .markFailed q queries =>
      some { s with
        ledger := modifyJob (q.jobId uuid5 period) (VCBrain.updateJob now (queueFailure errorType))
          s.ledger
        tick := Function.update s.tick i { s.tick i with
          stage := .look queries
          failed := (s.tick i).failed + 1 } }
    | _ => none
  | .crash i =>
    match (s.tick i).stage with
    | .ready | .completed | .crashed => none
    | _ => some (s.move i .crashed)
  | .dispatcher k accepted =>
    (s.tasks.command n k accepted).map fun tasks => { s with tasks := tasks }
  | .startJob id phase now =>
    some { s with ledger := modifyJob id (VCBrain.startJob now phase) s.ledger }
  | .updateJob id call now =>
    some { s with ledger := modifyJob id (VCBrain.updateJob now call.args) s.ledger }

end TickSystem

/-! ## The law -/

section Law

variable {ι κ : Type*} {tie : Str ↪ τ} (uuid5 : Str → Uuid) (period : Time)

/-- A task with the id of a row stands in the queue, or a dispatcher run has it in its hands, or it
has been handed over. -/
def TickSystem.HasTask (s : TickSystem ι κ tie) (jobId : Uuid) : Prop :=
  ∃ query, let text := taskKey (Enqueuer.autoDiscovery query jobId).task.json
    s.tasks.InFlight text ∨
      ∃ task, Json.loads text = some task ∧ arqJob task ∈ s.tasks.delivered

/-- A tick is at work on the row with an id. -/
def TickSystem.AtWork (s : TickSystem ι κ tie) (i : ι) (jobId : Uuid) : Prop :=
  ∃ q ∈ (s.tick i).stage.atWork?, q.jobId uuid5 period = jobId

/-- There is a row with the id, and it has ended, or is running, or is queued with a task. -/
def TickSystem.Represented (s : TickSystem ι κ tie) (jobId : Uuid) : Prop :=
  ∃ job ∈ s.ledger, job.id = jobId ∧
    (job.status.Terminal ∨ job.status = .running ∨ job.status = .queued ∧ s.HasTask jobId)

/-- Every query of a tick that has completed is represented, unless another tick is at work on its
row, and no query has two entries in the queue. -/
structure NothingStranded (s : TickSystem ι κ tie) : Prop where
  represented : ∀ i, (s.tick i).stage = .completed → ∀ q ∈ (s.tick i).queries,
    (∀ j, ¬ s.AtWork uuid5 period j (q.jobId uuid5 period)) →
      s.Represented (q.jobId uuid5 period)
  once : ∀ q : ThesisQuery, ∀ lane, ∀ e ∈ (s.tasks.store.queue lane).entries,
    ∀ lane', ∀ e' ∈ (s.tasks.store.queue lane').entries,
      e.2 = q.text uuid5 period → e'.2 = q.text uuid5 period → lane = lane' ∧ e = e'

/-- A tick that crashes while it is at work on a row leaves behind a task with the id of the row,
another tick that is at work on it, or a row that is no longer queued. -/
def LeavesNoRow (s : TickSystem ι κ tie) : TickEvent ι κ → Prop
  | .crash i => ∀ jobId, s.AtWork uuid5 period i jobId →
      s.HasTask jobId ∨ (∃ j, j ≠ i ∧ s.AtWork uuid5 period j jobId) ∨
        ∀ job ∈ s.ledger, job.id = jobId → job.status ≠ .queued
  | _ => True

/-- What holds between the steps: a row of a query that is queued has a task or a tick at work on
it, a tick has seen or committed a row for every query it has passed, and the tasks of queries are
in the middle lane. -/
structure TickSystem.Sound (s : TickSystem ι κ tie) : Prop where
  readable : s.tasks.Readable
  taken : ∀ q : ThesisQuery, ∀ job ∈ s.ledger, job.id = q.jobId uuid5 period →
    job.status = .queued → s.HasTask (q.jobId uuid5 period) ∨
      ∃ i, s.AtWork uuid5 period i (q.jobId uuid5 period)
  passed : ∀ i, (s.tick i).stage ≠ .crashed → ∀ q ∈ (s.tick i).queries,
    q ∈ (s.tick i).stage.left ∨ ∃ job ∈ s.ledger, job.id = q.jobId uuid5 period
  lane : ∀ q : ThesisQuery, ∀ lane, s.tasks.InLane lane (q.text uuid5 period) → lane = .normal

end Law

/-! ## Rows and tasks -/

section Rows

variable {ledger : List JobRun} {id id' : Uuid} {change : JobRun → JobRun}

lemma mem_modifyJob {job : JobRun} :
    job ∈ modifyJob id change ledger ↔
      ∃ job' ∈ ledger, (if job'.id = id then change job' else job') = job :=
  List.mem_map

/-- A change of a row keeps the ids. -/
lemma exists_id_modifyJob (hchange : ∀ job, (change job).id = job.id)
    (h : ∃ job ∈ ledger, job.id = id') : ∃ job ∈ modifyJob id change ledger, job.id = id' := by
  obtain ⟨job, hjob, rfl⟩ := h
  refine ⟨_, mem_modifyJob.mpr ⟨job, hjob, rfl⟩, ?_⟩
  split_ifs
  · exact hchange job
  · rfl

/-- A row that is queued after a change was queued before, unless it is the one that was changed. -/
lemma of_mem_modifyJob (hchange : ∀ job, (change job).id = job.id) {job : JobRun}
    (h : job ∈ modifyJob id change ledger) :
    job ∈ ledger ∧ job.id ≠ id ∨
      job.id = id ∧ ∃ job' ∈ ledger, job'.id = id ∧ job = change job' := by
  obtain ⟨job', hjob', rfl⟩ := mem_modifyJob.mp h
  by_cases hid : job'.id = id
  · rw [if_pos hid]
    exact Or.inr ⟨(hchange job').trans hid, job', hjob', hid, rfl⟩
  · rw [if_neg hid]
    exact Or.inl ⟨hjob', hid⟩

/-- No call of a job leaves its row queued. -/
lemma status_args_ne_queued (call : JobCall) : call.args.status ≠ .queued := by
  obtain ⟨-, h, -⟩ | h | ⟨h, -⟩ := call.args_cases <;> rw [h] <;> decide

/-- A row that is queued after a delivery has started its job is as it was. -/
lemma startJob_eq_of_queued {job : JobRun} {phase : Str} {now : Time}
    (h : (VCBrain.startJob now phase job).status = .queued) :
    VCBrain.startJob now phase job = job := by
  by_cases hsettled : job.status.Settled
  · rw [VCBrain.startJob, if_pos hsettled]
  · rw [startJob_status hsettled] at h
    cases h

/-- A job keeps the id of its row when it starts. -/
lemma id_startJob (job : JobRun) (phase : Str) (now : Time) :
    (VCBrain.startJob now phase job).id = job.id := by
  unfold VCBrain.startJob
  split_ifs <;> rfl

end Rows

section Steps

variable {ι κ : Type*} {tie : Str ↪ τ} {uuid5 : Str → Uuid} {period : Time} {n : ℕ}
  {s u : TickSystem ι κ tie} {i : ι} {jobId : Uuid}

namespace TickSystem

/-- A task that is there stays so as long as the queue, the runs and the deliveries lose nothing. -/
lemma HasTask.mono (h : s.HasTask jobId)
    (hflight : ∀ text, s.tasks.InFlight text → u.tasks.InFlight text ∨
      ∃ task, Json.loads text = some task ∧ arqJob task ∈ u.tasks.delivered)
    (hdelivered : ∀ job ∈ s.tasks.delivered, job ∈ u.tasks.delivered) : u.HasTask jobId := by
  obtain ⟨query, htext | ⟨task, htask, hjob⟩⟩ := h
  · exact ⟨query, hflight _ htext⟩
  · exact ⟨query, Or.inr ⟨task, htask, hdelivered _ hjob⟩⟩

/-- The task of a query is enqueued under the id of its row. -/
lemma hasTask_of_enqueue {q : ThesisQuery}
    (h : u.tasks = s.tasks.enqueue (q.task uuid5 period) discoveryPriority) :
    u.HasTask (q.jobId uuid5 period) := by
  refine ⟨q.query, Or.inl ⟨.ofPriority discoveryPriority, ?_⟩⟩
  rw [h]
  exact TaskFlow.inLane_enqueue.mpr (Or.inr ⟨rfl, rfl⟩)

/-- Enqueueing the task of a query loses no task. -/
lemma HasTask.enqueue {q : ThesisQuery} (h : s.HasTask jobId)
    (hu : u.tasks = s.tasks.enqueue (q.task uuid5 period) discoveryPriority) : u.HasTask jobId := by
  refine h.mono (fun text htext => Or.inl ?_) fun job hjob => ?_
  · rw [hu]
    exact htext.enqueue _ _
  · rw [hu]
    exact hjob

/-- The priority of the tasks belongs to the middle lane. -/
lemma ofPriority_discoveryPriority : Lane.ofPriority discoveryPriority = .normal := by
  unfold Lane.ofPriority discoveryPriority
  rw [if_neg (by norm_num), if_pos (by norm_num)]

/-- The task of a query is not one for Tavily. -/
lemma not_fromTavily_of_text {q : ThesisQuery} {task : Json}
    (h : Json.loads (q.text uuid5 period) = some task) : ¬ FromTavily task := by
  rw [ThesisQuery.text, CollectionTask.loads_taskKey, Option.some.injEq] at h
  subst h
  rw [fromTavily_sortKeys (q.task uuid5 period).wellFormed, ThesisQuery.task, fromTavily_task]
  change ¬ ("github" : Str) = "tavily_search"
  decide

/-- The tasks of queries stay in the middle lane when one of them is enqueued. -/
lemma Sound.lane_enqueue (hs : s.Sound uuid5 period) (q q' : ThesisQuery) {lane : Lane}
    (h : (s.tasks.enqueue (q.task uuid5 period) discoveryPriority).InLane lane
      (q'.text uuid5 period)) : lane = .normal := by
  rcases TaskFlow.inLane_enqueue.mp h with hold | ⟨rfl, -⟩
  · exact hs.lane q' lane hold
  · exact ofPriority_discoveryPriority

variable [DecidableEq ι]

/-- Who is at work on a row when a tick has gone on. -/
lemma atWork_update {t : Tick} (hu : u.tick = Function.update s.tick i t) {j : ι} :
    u.AtWork uuid5 period j jobId ↔
      j = i ∧ (∃ q ∈ t.stage.atWork?, q.jobId uuid5 period = jobId) ∨
        j ≠ i ∧ s.AtWork uuid5 period j jobId := by
  unfold AtWork
  rw [hu]
  by_cases heq : j = i
  · subst heq
    rw [Function.update_self]
    simp
  · rw [Function.update_of_ne heq]
    simp [heq]

/-- **A tick goes on.** What holds is left by a step of a tick that loses no row and no task, if a
row that is queued afterwards has a task or a tick at work on it, and if the tick has passed only
queries with a row. -/
lemma Sound.of_tick (hs : s.Sound uuid5 period) {t : Tick}
    (htick : u.tick = Function.update s.tick i t) (hread : u.tasks.Readable)
    (hlane : ∀ q : ThesisQuery, ∀ lane, u.tasks.InLane lane (q.text uuid5 period) →
      lane = .normal)
    (hrows : ∀ id, (∃ job ∈ s.ledger, job.id = id) → ∃ job ∈ u.ledger, job.id = id)
    (htaken : ∀ q : ThesisQuery, ∀ job ∈ u.ledger, job.id = q.jobId uuid5 period →
      job.status = .queued → u.HasTask (q.jobId uuid5 period) ∨
        (∃ q' ∈ t.stage.atWork?, q'.jobId uuid5 period = q.jobId uuid5 period) ∨
          ∃ j, j ≠ i ∧ s.AtWork uuid5 period j (q.jobId uuid5 period))
    (hpassed : t.stage ≠ .crashed → ∀ q ∈ t.queries,
      q ∈ t.stage.left ∨ ∃ job ∈ u.ledger, job.id = q.jobId uuid5 period) :
    u.Sound uuid5 period where
  readable := hread
  lane := hlane
  taken q job hjob hid hqueued := by
    refine (htaken q job hjob hid hqueued).imp_right ?_
    rintro (hown | ⟨j, hj, hother⟩)
    · exact ⟨i, (atWork_update htick).mpr (Or.inl ⟨rfl, hown⟩)⟩
    · exact ⟨j, (atWork_update htick).mpr (Or.inr ⟨hj, hother⟩)⟩
  passed j hstage q hq := by
    rw [htick] at hstage hq ⊢
    by_cases heq : j = i
    · subst heq
      rw [Function.update_self] at hstage hq ⊢
      exact hpassed hstage q hq
    · rw [Function.update_of_ne heq] at hstage hq ⊢
      exact (hs.passed j hstage q hq).imp_right (hrows _)

/-- A row that is queued has a task, or the tick is at work on it, or another one. -/
lemma Sound.taken_cases (hs : s.Sound uuid5 period) (i : ι) {q : ThesisQuery} {job : JobRun}
    (hjob : job ∈ s.ledger) (hid : job.id = q.jobId uuid5 period) (hqueued : job.status = .queued) :
    s.HasTask (q.jobId uuid5 period) ∨ s.AtWork uuid5 period i (q.jobId uuid5 period) ∨
      ∃ j, j ≠ i ∧ s.AtWork uuid5 period j (q.jobId uuid5 period) := by
  refine (hs.taken q job hjob hid hqueued).imp_right ?_
  rintro ⟨j, hj⟩
  by_cases heq : j = i
  · exact Or.inl (heq ▸ hj)
  · exact Or.inr ⟨j, heq, hj⟩

/-- While a tick is at work on no row, a row that is queued has a task or another tick at work on
it. -/
lemma Sound.taken_of_idle (hs : s.Sound uuid5 period) (hidle : (s.tick i).stage.atWork? = none)
    {q : ThesisQuery} {job : JobRun} (hjob : job ∈ s.ledger) (hid : job.id = q.jobId uuid5 period)
    (hqueued : job.status = .queued) :
    s.HasTask (q.jobId uuid5 period) ∨
      ∃ j, j ≠ i ∧ s.AtWork uuid5 period j (q.jobId uuid5 period) := by
  obtain htask | ⟨q', hq', -⟩ | hother := hs.taken_cases i hjob hid hqueued
  · exact Or.inl htask
  · rw [hidle] at hq'
    cases hq'
  · exact Or.inr hother

omit [DecidableEq ι] in
/-- A tick that has not crashed has passed only queries with a row. -/
lemma Sound.passed_of_stage (hs : s.Sound uuid5 period) {stage : TickStage}
    (hi : (s.tick i).stage = stage) (hstage : stage ≠ .crashed) :
    ∀ q ∈ (s.tick i).queries,
      q ∈ stage.left ∨ ∃ job ∈ s.ledger, job.id = q.jobId uuid5 period := by
  rw [← hi] at hstage ⊢
  exact hs.passed i hstage

omit [DecidableEq ι] in
/-- A query with a row is passed. -/
lemma left_of_row {q q' : ThesisQuery} {queries : List ThesisQuery}
    (hrow : ∃ job ∈ s.ledger, job.id = q.jobId uuid5 period)
    (h : q' ∈ q :: queries ∨ ∃ job ∈ s.ledger, job.id = q'.jobId uuid5 period) :
    q' ∈ queries ∨ ∃ job ∈ s.ledger, job.id = q'.jobId uuid5 period := by
  rcases h with hmem | hrow'
  · rcases List.mem_cons.mp hmem with rfl | hmem
    · exact Or.inr hrow
    · exact Or.inl hmem
  · exact Or.inr hrow'

/-- What holds is left by a tick that is at work on no row and changes neither store. -/
lemma Sound.of_idle (hs : s.Sound uuid5 period) {t : Tick}
    (hidle : (s.tick i).stage.atWork? = none)
    (hpassed : t.stage ≠ .crashed → ∀ q ∈ t.queries,
      q ∈ t.stage.left ∨ ∃ job ∈ s.ledger, job.id = q.jobId uuid5 period) :
    ({ s with tick := Function.update s.tick i t } : TickSystem ι κ tie).Sound uuid5 period := by
  refine hs.of_tick rfl hs.readable hs.lane (fun _ h => h) (fun q job hjob hid hqueued => ?_)
    hpassed
  exact (hs.taken_of_idle hidle hjob hid hqueued).imp_right Or.inr

/-- A tick that has found no row inserts one, and is at work on it. -/
lemma Sound.insert (hs : s.Sound uuid5 period) {q : ThesisQuery} {queries : List ThesisQuery}
    (hi : (s.tick i).stage = .insert q queries) :
    ({ s.move i (.enqueue q queries) with
      ledger := s.ledger ++ [createJob (q.jobId uuid5 period) "discover"] } :
        TickSystem ι κ tie).Sound uuid5 period := by
  have hnew : createJob (q.jobId uuid5 period) "discover" ∈
      s.ledger ++ [createJob (q.jobId uuid5 period) "discover"] :=
    List.mem_append_right _ (List.mem_singleton_self _)
  have hrows : ∀ id, (∃ job ∈ s.ledger, job.id = id) →
      ∃ job ∈ s.ledger ++ [createJob (q.jobId uuid5 period) "discover"], job.id = id := by
    rintro id ⟨job, hjob, hid⟩
    exact ⟨job, List.mem_append_left _ hjob, hid⟩
  refine hs.of_tick rfl hs.readable hs.lane hrows (fun q' job hjob hid hqueued => ?_)
    fun _ q' hq' => ?_
  · rcases List.mem_append.mp hjob with hjob | hjob
    · exact (hs.taken_of_idle (by rw [hi]; rfl) hjob hid hqueued).imp_right Or.inr
    · rw [List.mem_singleton.mp hjob] at hid
      exact Or.inr (Or.inl ⟨q, rfl, hid⟩)
  · rcases hs.passed_of_stage hi nofun q' hq' with hleft | hrow
    · rcases List.mem_cons.mp hleft with rfl | hleft
      · exact Or.inr ⟨_, hnew, rfl⟩
      · exact Or.inl hleft
    · exact Or.inr (hrows _ hrow)

/-- A tick that has found a row whose task could not be queued resets it, and is at work on it. -/
lemma Sound.reset (hs : s.Sound uuid5 period) {q : ThesisQuery} {queries : List ThesisQuery}
    (hi : (s.tick i).stage = .reset q queries) :
    ({ s.move i (.enqueue q queries) with
      ledger := modifyJob (q.jobId uuid5 period) queueAgain s.ledger } :
        TickSystem ι κ tie).Sound uuid5 period := by
  have hchange : ∀ job, (queueAgain job).id = job.id := fun _ => rfl
  refine hs.of_tick rfl hs.readable hs.lane (fun _ h => exists_id_modifyJob hchange h)
    (fun q' job hjob hid hqueued => ?_) fun _ q' hq' => ?_
  · obtain ⟨hjob, -⟩ | ⟨hrow, -⟩ := of_mem_modifyJob hchange hjob
    · exact (hs.taken_of_idle (by rw [hi]; rfl) hjob hid hqueued).imp_right Or.inr
    · exact Or.inr (Or.inl ⟨q, rfl, hrow.symm.trans hid⟩)
  · exact (hs.passed_of_stage hi nofun q' hq').imp_right (exists_id_modifyJob hchange)

/-- A tick enqueues the task of the row it is at work on. -/
lemma Sound.enqueue (hs : s.Sound uuid5 period) {q : ThesisQuery} {queries : List ThesisQuery}
    (hi : (s.tick i).stage = .enqueue q queries) {t : Tick} (hstage : t.stage = .look queries)
    (hqueries : t.queries = (s.tick i).queries) :
    ({ s with
      tasks := s.tasks.enqueue (q.task uuid5 period) discoveryPriority
      tick := Function.update s.tick i t } : TickSystem ι κ tie).Sound uuid5 period := by
  refine hs.of_tick rfl (hs.readable.enqueue _ _) (fun q' _ h => hs.lane_enqueue q q' h)
    (fun _ h => h) (fun q' job hjob hid hqueued => ?_) fun _ q' hq' => ?_
  · obtain htask | ⟨q'', hq'', hsame⟩ | hother := hs.taken_cases i hjob hid hqueued
    · exact Or.inl (htask.enqueue rfl)
    · -- the task of the row it was at work on
      rw [hi] at hq''
      obtain rfl : q = q'' := Option.some.inj hq''
      rw [← hsame]
      exact Or.inl (hasTask_of_enqueue rfl)
    · exact Or.inr (Or.inr hother)
  · rw [hqueries] at hq'
    rw [hstage]
    exact hs.passed_of_stage hi nofun q' hq'

/-- A tick whose task could not be queued stays at work on the row. -/
lemma Sound.enqueueFails (hs : s.Sound uuid5 period) {q : ThesisQuery}
    {queries : List ThesisQuery} (hi : (s.tick i).stage = .enqueue q queries) (added : Bool) :
    ({ s.move i (.markFailed q queries) with
      tasks :=
        if added then s.tasks.enqueue (q.task uuid5 period) discoveryPriority else s.tasks } :
        TickSystem ι κ tie).Sound uuid5 period := by
  have hpassed : ∀ q' ∈ (s.tick i).queries,
      q' ∈ queries ∨ ∃ job ∈ s.ledger, job.id = q'.jobId uuid5 period :=
    hs.passed_of_stage hi nofun
  cases added with
  | false =>
    refine hs.of_tick rfl hs.readable hs.lane (fun _ h => h) (fun q' job hjob hid hqueued => ?_)
      fun _ => hpassed
    obtain htask | ⟨q'', hq'', hsame⟩ | hother := hs.taken_cases i hjob hid hqueued
    · exact Or.inl htask
    · rw [hi] at hq''
      exact Or.inr (Or.inl ⟨q'', hq'', hsame⟩)
    · exact Or.inr (Or.inr hother)
  | true =>
    refine hs.of_tick rfl (hs.readable.enqueue _ _) (fun q' _ h => hs.lane_enqueue q q' h)
      (fun _ h => h) (fun q' job hjob hid hqueued => ?_) fun _ => hpassed
    obtain htask | ⟨q'', hq'', hsame⟩ | hother := hs.taken_cases i hjob hid hqueued
    · exact Or.inl (htask.enqueue rfl)
    · rw [hi] at hq''
      exact Or.inr (Or.inl ⟨q'', hq'', hsame⟩)
    · exact Or.inr (Or.inr hother)

/-- A tick records that the task of its row could not be queued. -/
lemma Sound.markFailed (hs : s.Sound uuid5 period) {q : ThesisQuery}
    {queries : List ThesisQuery} (hi : (s.tick i).stage = .markFailed q queries)
    (errorType : Str) (now : Time) {t : Tick} (hstage : t.stage = .look queries)
    (hqueries : t.queries = (s.tick i).queries) :
    ({ s with
      ledger := modifyJob (q.jobId uuid5 period) (VCBrain.updateJob now (queueFailure errorType))
        s.ledger
      tick := Function.update s.tick i t } : TickSystem ι κ tie).Sound uuid5 period := by
  have hchange : ∀ job, (VCBrain.updateJob now (queueFailure errorType) job).id = job.id :=
    fun _ => rfl
  refine hs.of_tick rfl hs.readable hs.lane (fun _ h => exists_id_modifyJob hchange h)
    (fun q' job hjob hid hqueued => ?_) fun _ q' hq' => ?_
  · obtain ⟨hjob, hne⟩ | ⟨-, job', -, -, rfl⟩ := of_mem_modifyJob hchange hjob
    · obtain htask | ⟨q'', hq'', hsame⟩ | hother := hs.taken_cases i hjob hid hqueued
      · exact Or.inl htask
      · rw [hi] at hq''
        obtain rfl : q = q'' := Option.some.inj hq''
        exact absurd (hid.trans hsame.symm) hne
      · exact Or.inr (Or.inr hother)
    · cases hqueued
  · rw [hqueries] at hq'
    rw [hstage]
    exact (hs.passed_of_stage hi nofun q' hq').imp_right (exists_id_modifyJob hchange)

/-- A tick that crashes leaves what holds if it leaves no row behind. -/
lemma Sound.crash (hs : s.Sound uuid5 period) (hleaves : LeavesNoRow uuid5 period s (.crash i)) :
    (s.move i .crashed).Sound uuid5 period := by
  refine hs.of_tick rfl hs.readable hs.lane (fun _ h => h) (fun q job hjob hid hqueued => ?_)
    fun hstage => absurd rfl hstage
  obtain htask | hwork | hother := hs.taken_cases i hjob hid hqueued
  · exact Or.inl htask
  · obtain htask | hother | hstatus := hleaves _ hwork
    · exact Or.inl htask
    · exact Or.inr (Or.inr hother)
    · exact absurd hqueued (hstatus job hjob hid)
  · exact Or.inr (Or.inr hother)

omit [DecidableEq ι] in
/-- A job that changes its row and does not queue it leaves what holds. -/
lemma Sound.modify (hs : s.Sound uuid5 period) {id : Uuid} {change : JobRun → JobRun}
    (hchange : ∀ job, (change job).id = job.id)
    (hstatus : ∀ job, (change job).status = .queued → job.status = .queued) :
    ({ s with ledger := modifyJob id change s.ledger } : TickSystem ι κ tie).Sound
      uuid5 period where
  readable := hs.readable
  lane := hs.lane
  passed i hi q hq := (hs.passed i hi q hq).imp_right (exists_id_modifyJob hchange)
  taken q job hjob hid hqueued := by
    obtain ⟨hjob, -⟩ | ⟨-, job', hjob', -, rfl⟩ := of_mem_modifyJob hchange hjob
    · exact hs.taken q job hjob hid hqueued
    · exact hs.taken q job' hjob' ((hchange job').symm.trans hid) (hstatus job' hqueued)

omit [DecidableEq ι] in
/-- A dispatcher run keeps the tasks of the rows. -/
lemma Sound.dispatcher [DecidableEq κ] (hs : s.Sound uuid5 period) {k : κ} {accepted : Bool}
    {tasks : TaskFlow κ tie} (h : s.tasks.command n k accepted = some tasks) :
    ({ s with tasks := tasks } : TickSystem ι κ tie).Sound uuid5 period where
  readable := hs.readable.command h
  lane q lane hlane := by
    obtain hold | ⟨-, -, task, htask, htavily⟩ := TaskFlow.inLane_of_command hs.readable h hlane
    · exact hs.lane q lane hold
    · exact absurd htavily (not_fromTavily_of_text htask)
  passed := hs.passed
  taken q job hjob hid hqueued := by
    refine (hs.taken q job hjob hid hqueued).imp_left fun htask => ?_
    refine htask.mono (fun text htext => ?_) fun job hjob => ?_
    · exact TaskFlow.inFlight_or_delivered_of_command hs.readable h htext
    · obtain ⟨stage, -, -, hdelivered⟩ := TaskFlow.move_of_command hs.readable h
      rw [hdelivered]
      exact List.mem_append_left _ hjob

/-- **One step.** A step that meets its condition leaves what holds.

**Proof sketch.** A tick that inserts or resets a row is at work on it, and it stops being so when
it has enqueued the task, when it has recorded the failure, after which the row is not queued, or
when it crashes, where the condition applies. Dispatcher runs lose no task, and jobs queue no
row. -/
lemma sound_step [DecidableEq κ] {e : TickEvent ι κ} (hs : s.Sound uuid5 period)
    (h : step uuid5 period n s e = some u) (he : LeavesNoRow uuid5 period s e) :
    u.Sound uuid5 period := by
  cases e with
  | start i thesis now =>
    simp only [step] at h
    split at h
    · next hi =>
      split_ifs at h
      cases h
      exact hs.of_idle (by rw [hi]; rfl) fun _ q hq => Or.inl hq
    · cases h
  | look i =>
    simp only [step] at h
    split at h
    · next hi =>
      cases h
      refine hs.of_idle (by rw [hi]; rfl) fun _ q hq => ?_
      have hpassed := hs.passed_of_stage hi nofun q hq
      exact hpassed
    · next q queries hi =>
      cases h
      have hpassed : ∀ q' ∈ (s.tick i).queries,
          q' ∈ q :: queries ∨ ∃ job ∈ s.ledger, job.id = q'.jobId uuid5 period :=
        hs.passed_of_stage hi nofun
      refine hs.of_idle (by rw [hi]; rfl) fun _ q' hq' => ?_
      split
      · exact hpassed q' hq'
      · next job hfind =>
        -- the row that was found is one for the query
        have hrow : ∃ job ∈ s.ledger, job.id = q.jobId uuid5 period :=
          ⟨job, List.mem_of_find?_eq_some hfind, by simpa using List.find?_some hfind⟩
        have hleft : q' ∈ queries ∨ ∃ job ∈ s.ledger, job.id = q'.jobId uuid5 period :=
          left_of_row hrow (hpassed q' hq')
        split_ifs <;> exact hleft
    · cases h
  | save i =>
    simp only [step] at h
    split at h
    · next q queries hi =>
      by_cases hrow : ∃ job ∈ s.ledger, job.id = q.jobId uuid5 period
      · rw [if_pos hrow] at h
        cases h
        refine hs.of_idle (by rw [hi]; rfl) fun _ q' hq' => ?_
        exact left_of_row hrow (hs.passed_of_stage hi nofun q' hq')
      · rw [if_neg hrow] at h
        cases h
        exact hs.insert hi
    · next q queries hi =>
      cases h
      exact hs.reset hi
    · cases h
  | enqueue i =>
    simp only [step] at h
    split at h
    · next q queries hi =>
      cases h
      exact hs.enqueue hi rfl rfl
    · cases h
  | enqueueFails i added =>
    simp only [step] at h
    split at h
    · next q queries hi =>
      cases h
      exact hs.enqueueFails hi added
    · cases h
  | markFailed i errorType now =>
    simp only [step] at h
    split at h
    · next q queries hi =>
      cases h
      exact hs.markFailed hi errorType now rfl rfl
    · cases h
  | crash i =>
    simp only [step] at h
    split at h
    · cases h
    · cases h
    · cases h
    · cases h
      exact hs.crash he
  | dispatcher k accepted =>
    obtain ⟨tasks, hcommand, rfl⟩ := Option.map_eq_some_iff.mp h
    exact hs.dispatcher hcommand
  | startJob id phase now =>
    cases h
    refine hs.modify (fun job => id_startJob job phase now) fun job hqueued => ?_
    rwa [startJob_eq_of_queued hqueued] at hqueued
  | updateJob id call now =>
    cases h
    exact hs.modify (fun _ => rfl) fun job hqueued => absurd hqueued (status_args_ne_queued call)

omit [DecidableEq ι] in
/-- What holds implies that no query is stranded. -/
lemma Sound.nothingStranded (hs : s.Sound uuid5 period) : NothingStranded uuid5 period s where
  represented i hi q hq hfree := by
    have hpassed := hs.passed_of_stage hi nofun q hq
    obtain ⟨job, hjob, hid⟩ := hpassed.resolve_left List.not_mem_nil
    refine ⟨job, hjob, hid, ?_⟩
    cases hstatus : job.status with
    | queued =>
      obtain htask | ⟨j, hj⟩ := hs.taken q job hjob hid hstatus
      · exact Or.inr (Or.inr ⟨rfl, htask⟩)
      · exact absurd hj (hfree j)
    | running => exact Or.inr (Or.inl rfl)
    | succeeded => exact Or.inl (Or.inl rfl)
    | failed => exact Or.inl (Or.inr (Or.inl rfl))
    | cancelled => exact Or.inl (Or.inr (Or.inr rfl))
  once q lane e he lane' e' he' htext htext' := by
    obtain rfl := hs.lane q lane (Or.inl ⟨e, he, htext⟩)
    obtain rfl := hs.lane q lane' (Or.inl ⟨e', he', htext'⟩)
    refine ⟨rfl, ?_⟩
    exact List.inj_on_of_nodup_map (s.tasks.store.queue .normal).nodup he he'
      (htext.trans htext'.symm)

end TickSystem

end Steps

/-! ## Runs -/

/-- **No query is stranded.** In every state of a run of ticks of one hour, of which any may crash
and any enqueueing may fail, interleaved with dispatcher runs and jobs, every query of a tick that
has completed has a row that has ended, or is running, or is queued with a task, unless another tick
is at work on it, and no query has two entries in the queue, if no tick that crashes leaves a row
without a task behind.

**Proof sketch.** What holds is carried through the run (`History.replay_of_guarded`), with one step
as the case (`TickSystem.sound_step`). -/
theorem nothingStranded_of_guarded {ι κ : Type*} [DecidableEq ι] [DecidableEq κ] {tie : Str ↪ τ}
    (uuid5 : Str → Uuid) (period : Time) (n : ℕ) (s : TickSystem ι κ tie)
    (hs : s.Sound uuid5 period) (es : List (TickEvent ι κ))
    (hguarded : History.Guarded (TickSystem.step uuid5 period n) (LeavesNoRow uuid5 period) s es) :
    NothingStranded uuid5 period (History.replay (TickSystem.step uuid5 period n) s es) := by
  have hsound : (History.replay (TickSystem.step uuid5 period n) s es).Sound uuid5 period :=
    History.replay_of_guarded _ (I := TickSystem.Sound uuid5 period)
      (fun _ _ _ hs h he => TickSystem.sound_step hs h he) hs hguarded
  exact hsound.nothingStranded

/-- `uuid5` of the name of the query below. -/
def sampleUuid5 (_ : Str) : Uuid := 0x3ceb3b066a0c57d2a8f9cee84680bd6c

/-- A thesis with one query. -/
def sampleThesis : DiscoveryThesis := ⟨1, ["AI founders"]⟩

/-- An hour begins without rows and tasks. -/
def quietHour : TickSystem ℕ Unit byText where
  tasks :=
    { store := { queue := .empty, tavily := 0, agent := 0 }
      dispatcher := fun _ => .ready }
  tick := fun _ => {}

/-- One tick crashes before it looks at a row, another fails to enqueue the task and records this,
and a third enqueues it. -/
def retried : List (TickEvent ℕ Unit) :=
  [.start 0 (some sampleThesis) 0, .crash 0,
    .start 1 (some sampleThesis) 0, .look 1, .save 1, .enqueueFails 1 false,
    .markFailed 1 "ConnectionError" 0, .look 1,
    .start 2 (some sampleThesis) 1, .look 2, .save 2, .enqueue 2, .look 2]

/-- A tick crashes when it has committed the row, and another one takes the row for done. -/
def abandoned : List (TickEvent ℕ Unit) :=
  [.start 0 (some sampleThesis) 0, .look 0, .save 0, .crash 0,
    .start 1 (some sampleThesis) 1, .look 1, .look 1]

lemma sound_quietHour (uuid5 : Str → Uuid) (period : Time) : quietHour.Sound uuid5 period where
  readable :=
    { queued := fun _ e he => by cases he
      held := fun _ r hr => by cases hr }
  taken := fun q job hjob => by cases hjob
  passed := fun i hi q hq => by cases hq
  lane := by
    rintro q lane (⟨e, he, -⟩ | ⟨k, r, hr, -⟩)
    · cases he
    · cases hr

/-- The theorem applies to the ticks of which the third enqueues the task. -/
theorem nothingStranded_retried :
    NothingStranded sampleUuid5 0
      (History.replay (TickSystem.step sampleUuid5 0 1) quietHour retried) := by
  refine nothingStranded_of_guarded sampleUuid5 0 1 quietHour (sound_quietHour _ _) retried ?_
  have hidle : ((History.commit (TickSystem.step sampleUuid5 0 1) quietHour
      (.start 0 (some sampleThesis) 0)).tick 0).stage.atWork? = none := by decide +kernel
  refine ⟨fun _ _ => trivial, fun _ _ jobId hwork => ?_, fun _ _ => trivial, fun _ _ => trivial,
    fun _ _ => trivial, fun _ _ => trivial, fun _ _ => trivial, fun _ _ => trivial,
    fun _ _ => trivial, fun _ _ => trivial, fun _ _ => trivial, fun _ _ => trivial,
    fun _ _ => trivial, trivial⟩
  obtain ⟨q, hq, -⟩ := hwork
  rw [hidle] at hq
  cases hq

/-- The query of the crashed tick is stranded. -/
theorem not_nothingStranded_abandoned :
    quietHour.Sound sampleUuid5 0 ∧ ¬ NothingStranded sampleUuid5 0
      (History.replay (TickSystem.step sampleUuid5 0 1) quietHour abandoned) := by
  refine ⟨sound_quietHour _ _, fun h => ?_⟩
  have htasks : (History.replay (TickSystem.step sampleUuid5 0 1) quietHour abandoned).tasks =
      quietHour.tasks := rfl
  have hledger : (History.replay (TickSystem.step sampleUuid5 0 1) quietHour abandoned).ledger =
      [createJob 0x3ceb3b066a0c57d2a8f9cee84680bd6c "discover"] := by decide +kernel
  have hfree : ∀ j, ((History.replay (TickSystem.step sampleUuid5 0 1) quietHour
      abandoned).tick j).stage.atWork? = none := by
    intro j
    match j with
    | 0 => rfl
    | 1 => rfl
    | j + 2 => rfl
  have hrow := h.represented 1 rfl ⟨1, "AI founders"⟩ (List.mem_singleton_self _) (by
    rintro j ⟨q, hq, -⟩
    rw [hfree j] at hq
    cases hq)
  obtain ⟨job, hjob, -, hstatus⟩ := hrow
  rw [hledger, List.mem_singleton] at hjob
  subst hjob
  obtain hterminal | hrunning | ⟨-, query, htext⟩ := hstatus
  · exact JobStatus.not_terminal_queued hterminal
  · cases hrunning
  · rw [htasks] at htext
    obtain ⟨lane, ⟨e, he, -⟩ | ⟨k, r, hr, -⟩⟩ | ⟨task, -, hjob⟩ := htext
    · cases he
    · cases hr
    · cases hjob

end VCBrain
