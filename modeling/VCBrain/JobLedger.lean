import VCBrain.Db.Models
import VCBrain.Foundation.Guarded

set_option relaxedAutoImplicit false
set_option autoImplicit false

/-!
# The job ledger

Every asynchronous job has a row that records its status, its attempts, its last error and its
result. A dispatcher creates the row, a delivery of the task starts it, and the job updates it. A
row whose task could not be queued is queued again by the automatic discovery.

## Main definitions

* `JobRun` — a row of the ledger.
* `createJob`, `updateJob`, `startJob`, `requeue` — what the code does to a row.
* `JobCall` — the updates the jobs make.
* `JobRun.Consistent` — the row says the same in all its columns.

## Main results

* `ledger_consistent_iff` — the histories of the ledger after which every row is consistent.

## Design

Columns no modelled function reads are left out. The status column is a text; the code writes and
compares five values. A row is looked up by its primary key.
-/

namespace VCBrain

/-! ## Rows -/

/-- `status` of a job. -/
inductive JobStatus where
  | queued
  | running
  | succeeded
  | failed
  | cancelled
deriving DecidableEq

namespace JobStatus

/-- The job has ended: `status in {"succeeded", "failed", "cancelled"}`. -/
def Terminal (s : JobStatus) : Prop := s = succeeded ∨ s = failed ∨ s = cancelled

instance : DecidablePred Terminal := fun _ => inferInstanceAs (Decidable (_ ∨ _))

/-- A delivery has nothing to do: `status in {"succeeded", "cancelled"}`. -/
def Settled (s : JobStatus) : Prop := s = succeeded ∨ s = cancelled

instance : DecidablePred Settled := fun _ => inferInstanceAs (Decidable (_ ∨ _))

lemma not_terminal_queued : ¬ queued.Terminal := by decide

lemma not_terminal_running : ¬ running.Terminal := by decide

end JobStatus

/-- A row of `job_runs`. -/
structure JobRun where
  id : Uuid
  jobType : Str
  status : JobStatus := .queued
  phase : Str := "queued"
  attempt : ℤ := 0
  progress : ℚ := 0
  lastError : Option Str := none
  result : Option Json := none
  startedAt : Option Time := none
  finishedAt : Option Time := none
deriving DecidableEq

/-- `create_job`: the row before the task is dispatched. -/
def createJob (id : Uuid) (jobType : Str) : JobRun where
  id := id
  jobType := jobType
  status := .queued
  phase := "queued"

/-- The keyword arguments of `update_job`. -/
structure JobUpdate where
  status : JobStatus
  phase : Str
  attempt : Option ℤ := none
  progress : Option ℚ := none
  lastError : Option Str := none
  clearError : Bool := false
  result : Option Json := none

/-- `update_job` on the row it has found. -/
def updateJob (now : Time) (u : JobUpdate) (job : JobRun) : JobRun :=
  { job with
    status := u.status
    phase := u.phase
    attempt := (u.attempt.map fun a => max 0 a).getD job.attempt
    progress :=
      if u.status = .succeeded then 1
      else (u.progress.map fun p => max 0 (min 1 p)).getD job.progress
    lastError := if u.clearError then none else u.lastError.or job.lastError
    result := u.result.or job.result
    startedAt :=
      if u.status = .running ∧ job.startedAt = none then some now else job.startedAt
    finishedAt := if u.status.Terminal then some now else job.finishedAt }

/-- The update with which a job is started. -/
def startUpdate (phase : Str) (job : JobRun) : JobUpdate where
  status := .running
  phase := phase
  attempt := some (max 1 (job.attempt + 1))
  clearError := true

/-- `start_job` on the row it has found. -/
def startJob (now : Time) (phase : Str) (job : JobRun) : JobRun :=
  if job.status.Settled then job else updateJob now (startUpdate phase job) job

/-- The task of the job could not be queued: `(result or {}).get("error") == "queue_failed"`. -/
def JobRun.QueueFailed (job : JobRun) : Prop :=
  ∃ result ∈ job.result, ∃ error ∈ result.get? "error", error.isStr "queue_failed"

instance : DecidablePred JobRun.QueueFailed :=
  fun job => inferInstanceAs
    (Decidable (∃ result ∈ job.result, ∃ error ∈ result.get? "error", error.isStr "queue_failed"))

/-- `auto_discovery_job` on a row that exists: a failure to queue the task is retried. -/
def requeue (job : JobRun) : JobRun :=
  if job.status = .failed ∧ job.QueueFailed then
    { job with
      status := .queued
      phase := "queued"
      progress := 0
      lastError := none
      result := none
      finishedAt := none }
  else job

/-! ## The updates the jobs make -/

/-- What `generate_memo` returns: the template, or the sections of the agent with the outcome of
their validation. -/
inductive GeneratedMemo where
  | fallback (degraded : Bool)
  | agent (validationFailed : Bool) (validationErrors : List Str)

namespace GeneratedMemo

/-- `memo.status`. -/
def status : GeneratedMemo → Str
  | fallback degraded => if degraded then "degraded" else "failed"
  | agent validationFailed validationErrors =>
    if validationFailed ∨ validationErrors ≠ [] then "failed" else "succeeded"

/-- `memo.validation_errors`. -/
def validationErrors : GeneratedMemo → List Str
  | fallback _ => []
  | agent _ errors => errors

/-- The error `generate_memo_job` records. -/
def jobError (memo : GeneratedMemo) : Option Str :=
  if memo.status = "degraded".toList then
    some "memo degraded; validated generation did not complete"
  else if memo.validationErrors ≠ [] then some "memo validation failed"
  else none

end GeneratedMemo

/-- A call of `update_job` in one of the jobs or routes. -/
inductive JobCall where
  /-- A failure, of the job or of the queueing of its task. -/
  | fail (phase : Str) (attempt : Option ℤ) (error : Str) (result : Json)
  /-- The job goes on to its next phase. -/
  | advance (phase : Str) (attempt : ℤ) (clearError : Bool) (progress : Option ℚ)
  /-- The job is complete. -/
  | complete (attempt : Option ℤ) (progress : Option ℚ) (result : Json)
  /-- The memo job has a memo. -/
  | memo (generated : GeneratedMemo) (attempt : ℤ) (result : Json)

/-- The arguments of the call. -/
def JobCall.args : JobCall → JobUpdate
  | fail phase attempt error result =>
    { status := .failed
      phase := phase
      attempt := attempt
      lastError := some error
      result := some result }
  | advance phase attempt clearError progress =>
    { status := .running
      phase := phase
      attempt := some attempt
      clearError := clearError
      progress := progress }
  | complete attempt progress result =>
    { status := .succeeded
      phase := "complete"
      attempt := attempt
      progress := progress
      clearError := true
      result := some result }
  | memo generated attempt result =>
    { status := if generated.status = "succeeded".toList then .succeeded else .failed
      phase := "complete"
      attempt := some attempt
      clearError := generated.jobError.isNone
      lastError := generated.jobError
      result := some result }

/-! ## Histories of the ledger -/

/-- A step of the ledger. -/
inductive LedgerStep where
  | create (id : Uuid) (jobType : Str)
  | start (id : Uuid) (phase : Str) (now : Time)
  | update (id : Uuid) (call : JobCall) (now : Time)
  | requeue (id : Uuid)

/-- The row of a job is changed. An id that is not in the ledger changes nothing. -/
def modifyJob (id : Uuid) (change : JobRun → JobRun) (ledger : List JobRun) : List JobRun :=
  ledger.map fun job => if job.id = id then change job else job

/-- One step of the ledger. The creation of a row fails if its id is taken. -/
def LedgerStep.run (ledger : List JobRun) : LedgerStep → Option (List JobRun)
  | create id jobType =>
    if ∃ job ∈ ledger, job.id = id then none else some (ledger ++ [createJob id jobType])
  | start id phase now => some (modifyJob id (startJob now phase) ledger)
  | update id call now => some (modifyJob id (updateJob now call.args) ledger)
  | requeue id => some (modifyJob id VCBrain.requeue ledger)

/-! ## Consistency -/

/-- The columns of a row agree: it has an instant of its end exactly if its status is terminal, it
has neither that nor a result before, and a success is complete and without an error. A call that
leaves a job running gives no result, so a result before the end is one of an earlier attempt. -/
structure JobRun.Consistent (job : JobRun) : Prop where
  finished : job.finishedAt.isSome ↔ job.status.Terminal
  pending : job.status = .queued ∨ job.status = .running →
    job.finishedAt = none ∧ job.result = none
  success : job.status = .succeeded → job.progress = 1 ∧ job.lastError = none

lemma JobRun.consistent_iff {job : JobRun} :
    job.Consistent ↔ (job.finishedAt.isSome ↔ job.status.Terminal) ∧
      (job.status = .queued ∨ job.status = .running → job.finishedAt = none ∧ job.result = none) ∧
      (job.status = .succeeded → job.progress = 1 ∧ job.lastError = none) :=
  ⟨fun h => ⟨h.finished, h.pending, h.success⟩, fun h => ⟨h.1, h.2.1, h.2.2⟩⟩

instance : DecidablePred JobRun.Consistent := fun _ => decidable_of_iff' _ JobRun.consistent_iff

/-- Every row of the ledger is consistent. -/
def LedgerConsistent (ledger : List JobRun) : Prop := ∀ job ∈ ledger, job.Consistent

instance : DecidablePred LedgerConsistent :=
  fun ledger => inferInstanceAs (Decidable (∀ job ∈ ledger, job.Consistent))

/-- A job that is set running, by a delivery or by itself, has not ended: a delivery does not find
it failed, and the job does not find it ended. -/
def ReopensNothing (ledger : List JobRun) : LedgerStep → Prop
  | .start id _ _ => ∀ job ∈ ledger, job.id = id → job.status ≠ .failed
  | .update id (.advance _ _ _ _) _ => ∀ job ∈ ledger, job.id = id → ¬ job.status.Terminal
  | _ => True

instance (ledger : List JobRun) : DecidablePred (ReopensNothing ledger)
  | .start id _ _ =>
    inferInstanceAs (Decidable (∀ job ∈ ledger, job.id = id → job.status ≠ .failed))
  | .update id (.advance _ _ _ _) _ =>
    inferInstanceAs (Decidable (∀ job ∈ ledger, job.id = id → ¬ job.status.Terminal))
  | .update _ (.fail _ _ _ _) _ | .update _ (.complete _ _ _) _ | .update _ (.memo _ _ _) _
  | .create _ _ | .requeue _ => .isTrue trivial

/-! ## What the steps do to a row -/

namespace GeneratedMemo

/-- A memo that succeeded was generated without an error. -/
lemma jobError_of_succeeded {memo : GeneratedMemo} (h : memo.status = "succeeded".toList) :
    memo.jobError = none := by
  cases memo with
  | fallback degraded =>
    exfalso
    revert h degraded
    decide
  | agent validationFailed errors =>
    have herrors : errors = [] := by
      by_contra hne
      rw [status, if_pos (Or.inr hne)] at h
      revert h
      decide
    have hstatus : (agent validationFailed errors).status ≠ "degraded".toList := by
      rw [h]
      decide
    rw [jobError, if_neg hstatus, if_neg (fun hne => hne herrors)]

end GeneratedMemo

/-- What a call of `update_job` is: the job goes on, it has failed, or it has succeeded and its
error is cleared. -/
lemma JobCall.args_cases (call : JobCall) :
    ((∃ phase attempt clearError progress, call = .advance phase attempt clearError progress) ∧
        call.args.status = .running ∧ call.args.result = none) ∨
      call.args.status = .failed ∨
      (call.args.status = .succeeded ∧ call.args.clearError = true) := by
  cases call with
  | fail phase attempt error result => exact Or.inr (Or.inl rfl)
  | advance phase attempt clearError progress =>
    exact Or.inl ⟨⟨phase, attempt, clearError, progress, rfl⟩, rfl, rfl⟩
  | complete attempt progress result => exact Or.inr (Or.inr ⟨rfl, rfl⟩)
  | memo generated attempt result =>
    by_cases hstatus : generated.status = "succeeded".toList
    · refine Or.inr (Or.inr ⟨if_pos hstatus, ?_⟩)
      show generated.jobError.isNone = true
      rw [GeneratedMemo.jobError_of_succeeded hstatus, Option.isNone_none]
    · exact Or.inr (Or.inl (if_neg hstatus))

section Rows

variable {job : JobRun} {now : Time}

/-- A job that is started is running. -/
lemma startJob_status {phase : Str} (h : ¬ job.status.Settled) :
    (startJob now phase job).status = .running := by
  rw [startJob, if_neg h]
  rfl

/-- A start leaves a settled row as it is, and settles none. -/
lemma settled_startJob_iff {phase : Str} :
    (startJob now phase job).status.Settled ↔ job.status.Settled := by
  by_cases h : job.status.Settled
  · rw [startJob, if_pos h]
  · rw [startJob_status h]
    exact iff_of_false (by decide) h

/-- A row that has been created is consistent. -/
lemma createJob_consistent (id : Uuid) (jobType : Str) : (createJob id jobType).Consistent where
  finished := iff_of_false nofun JobStatus.not_terminal_queued
  pending _ := ⟨rfl, rfl⟩
  success h := by cases h

/-- A row that is updated to an end is consistent. -/
lemma updateJob_consistent_of_terminal {u : JobUpdate} (hterminal : u.status.Terminal)
    (hclear : u.status = .succeeded → u.clearError = true) :
    (updateJob now u job).Consistent where
  finished := by
    have hfinished : (updateJob now u job).finishedAt = some now := if_pos hterminal
    rw [hfinished]
    exact iff_of_true rfl hterminal
  pending h := by
    have hstatus : u.status = .queued ∨ u.status = .running := h
    rcases hterminal with hend | hend | hend <;> rw [hend] at hstatus <;> simp at hstatus
  success h := by
    have hstatus : u.status = .succeeded := h
    refine ⟨if_pos hstatus, ?_⟩
    show (if u.clearError then none else u.lastError.or job.lastError) = none
    rw [hclear hstatus, if_pos rfl]

/-- A consistent row that is set running stays so exactly if it had not ended. -/
lemma updateJob_consistent_iff_of_running {u : JobUpdate} (hjob : job.Consistent)
    (hrunning : u.status = .running) (hresult : u.result = none) :
    (updateJob now u job).Consistent ↔ ¬ job.status.Terminal := by
  have hnot : ¬ u.status.Terminal := by
    rw [hrunning]
    exact JobStatus.not_terminal_running
  have hfinished : (updateJob now u job).finishedAt = job.finishedAt := if_neg hnot
  have hkept : (updateJob now u job).result = job.result := by
    show u.result.or job.result = job.result
    rw [hresult, Option.none_or]
  have hstatus : (updateJob now u job).status = .running := hrunning
  constructor
  · intro h hterminal
    have hnone := (h.pending (Or.inr hstatus)).1
    rw [hfinished] at hnone
    have hsome := hjob.finished.mpr hterminal
    rw [hnone] at hsome
    cases hsome
  · intro hopen
    have hpending : job.status = .queued ∨ job.status = .running := by
      revert hopen
      cases job.status <;> decide
    refine ⟨?_, fun _ => ?_, fun h => ?_⟩
    · rw [hfinished, hstatus, hjob.finished]
      exact iff_of_false hopen JobStatus.not_terminal_running
    · rw [hfinished, hkept]
      exact hjob.pending hpending
    · rw [hstatus] at h
      cases h

/-- A row is consistent after a start exactly if the start did not find it failed. -/
lemma startJob_consistent_iff {phase : Str} (hjob : job.Consistent) :
    (startJob now phase job).Consistent ↔ job.status ≠ .failed := by
  by_cases hsettled : job.status.Settled
  · rw [startJob, if_pos hsettled]
    refine iff_of_true hjob fun hfailed => ?_
    rw [hfailed] at hsettled
    revert hsettled
    decide
  · rw [startJob, if_neg hsettled, updateJob_consistent_iff_of_running hjob rfl rfl]
    revert hsettled
    cases job.status <;> decide

/-- A row stays consistent when it is queued again. -/
lemma requeue_consistent (hjob : job.Consistent) : (requeue job).Consistent := by
  unfold requeue
  split_ifs
  · refine ⟨?_, fun _ => ⟨rfl, rfl⟩, fun h => by cases h⟩
    exact iff_of_false nofun JobStatus.not_terminal_queued
  · exact hjob

end Rows

/-- The rows of a ledger in which one job has changed. -/
lemma forall_modifyJob {P : JobRun → Prop} {id : Uuid} {change : JobRun → JobRun}
    {ledger : List JobRun} (h : ∀ job ∈ ledger, P job) :
    (∀ job ∈ modifyJob id change ledger, P job) ↔
      ∀ job ∈ ledger, job.id = id → P (change job) := by
  unfold modifyJob
  rw [List.forall_mem_map]
  constructor
  · intro hall job hjob hid
    have hchanged := hall job hjob
    rwa [if_pos hid] at hchanged
  · intro hall job hjob
    by_cases hid : job.id = id
    · rw [if_pos hid]
      exact hall job hjob hid
    · rw [if_neg hid]
      exact h job hjob

/-- **When the ledger stays consistent.** A step on a consistent ledger leaves it consistent exactly
if it reopens no job that has ended. -/
lemma ledgerConsistent_run_iff {ledger ledger' : List JobRun} {e : LedgerStep}
    (hledger : LedgerConsistent ledger) (h : e.run ledger = some ledger') :
    LedgerConsistent ledger' ↔ ReopensNothing ledger e := by
  cases e with
  | create id jobType =>
    rw [LedgerStep.run] at h
    split_ifs at h
    cases h
    refine iff_of_true (fun job hjob => ?_) trivial
    rcases List.mem_append.mp hjob with hold | hnew
    · exact hledger job hold
    · rw [List.mem_singleton.mp hnew]
      exact createJob_consistent id jobType
  | start id phase now =>
    cases h
    refine (forall_modifyJob hledger).trans (forall₂_congr fun job hjob => ?_)
    exact imp_congr_right fun _ => startJob_consistent_iff (hledger job hjob)
  | update id call now =>
    cases h
    refine (forall_modifyJob hledger).trans ?_
    rcases call.args_cases with
        ⟨⟨phase, attempt, clearError, progress, rfl⟩, hrunning, hresult⟩ | hend
    · refine forall₂_congr fun job hjob => imp_congr_right fun _ => ?_
      exact updateJob_consistent_iff_of_running (hledger job hjob) hrunning hresult
    · have hterminal : call.args.status.Terminal := by
        rcases hend with hfailed | ⟨hsucceeded, -⟩
        · exact Or.inr (Or.inl hfailed)
        · exact Or.inl hsucceeded
      have hclear : call.args.status = .succeeded → call.args.clearError = true := by
        rcases hend with hfailed | ⟨-, hclear⟩
        · intro hsucceeded
          rw [hfailed] at hsucceeded
          cases hsucceeded
        · exact fun _ => hclear
      refine iff_of_true (fun job _ _ => updateJob_consistent_of_terminal hterminal hclear) ?_
      cases call with
      | advance phase attempt clearError progress =>
        exact absurd hterminal JobStatus.not_terminal_running
      | _ => trivial
  | requeue id =>
    cases h
    refine iff_of_true ?_ trivial
    exact (forall_modifyJob hledger).mpr fun job hjob _ => requeue_consistent (hledger job hjob)

/-- **Consistency of the ledger.** After every step of a history every row is consistent, exactly if
no step of the history reopens a job that has ended: no delivery starts a job that has failed, and
no job that has ended is set running again by an update.

**Proof sketch.** An update to an end sets every column anew, and a row that is queued again is
cleared. An update to `running` leaves the instant of the end and the result as they are, so the row
is consistent if and only if it had neither (`ledgerConsistent_run_iff`). -/
theorem ledger_consistent_iff {ledger : List JobRun} (hledger : LedgerConsistent ledger)
    (steps : List LedgerStep) :
    History.Meets LedgerStep.run (fun _ s => LedgerConsistent s) ledger steps ↔
      History.Guarded LedgerStep.run ReopensNothing ledger steps :=
  History.meets_iff_guarded (I := LedgerConsistent) _
    (fun _ _ _ hinv hstep => ledgerConsistent_run_iff hinv hstep)
    (fun _ _ _ _ _ hnext => hnext) hledger steps

/-- A task that is queued at the second attempt, and then runs to its end. -/
theorem ledger_consistent_requeued :
    History.Meets LedgerStep.run (fun _ s => LedgerConsistent s) []
      [.create 1 "discover",
        .update 1 (.fail "queue" none "queue_failed" (.obj [("error", .str "queue_failed")])) 10,
        .requeue 1, .start 1 "discover" 20, .update 1 (.advance "collect" 1 false none) 30,
        .update 1 (.complete none none (.obj [("seeds", .int 0)])) 40] := by
  refine (ledger_consistent_iff (by decide) _).mpr ?_
  decide +kernel

/-- A redelivery starts a job that has failed. -/
theorem not_ledger_consistent_restarted :
    ¬ History.Meets LedgerStep.run (fun _ s => LedgerConsistent s) []
      [.create 1 "collect", .start 1 "collect" 10,
        .update 1 (.fail "collect" (some 1) "timeout" (.obj [("error", .str "timeout")])) 20,
        .start 1 "collect" 30] := by
  decide +kernel

end VCBrain
