import VCBrain.JobLedger

set_option relaxedAutoImplicit false
set_option autoImplicit false

/-!
# Deliveries of a collection task

The queue delivers a task at least once, so several deliveries of one task can run at the same
time. Each runs `collect_job` with a session of its own: it reads the row of the job and commits its
start, later it commits its end, and after an exception it rolls back, reads the row again and
records the failure. Nothing else writes the row meanwhile.

## Main definitions

* `JobRun.flush` — what an `UPDATE` from a session does to the committed row.
* `JobSystem.step` — one step of one delivery.
* `AgreesWithSettled`, `AttemptCurrent` — what has to hold where a delivery commits.

## Main results

* `settled_absorbs_iff` — when a job that has succeeded or was cancelled stays as it is.
* `attempt_counts_iff` — when the attempt counts the deliveries that have started.

## Design

A session keeps the row it has read, also after a commit, and reads it again only after a rollback.
Its `UPDATE` waits for the lock of the row and sets the columns whose value the session has changed.
The isolation level is read committed. A delivery whose worker dies takes no further step.
-/

namespace VCBrain

/-! ## Sessions -/

/-- A column of the committed row after an `UPDATE`. It is set only if the session has changed
it. -/
def flushColumn {α : Type*} [DecidableEq α] (cached changed committed : α) : α :=
  if changed = cached then committed else changed

/-- The committed row after an `UPDATE` from a session that has read one row and changed it. -/
def JobRun.flush (cached changed row : JobRun) : JobRun :=
  { row with
    status := flushColumn cached.status changed.status row.status
    phase := flushColumn cached.phase changed.phase row.phase
    attempt := flushColumn cached.attempt changed.attempt row.attempt
    progress := flushColumn cached.progress changed.progress row.progress
    lastError := flushColumn cached.lastError changed.lastError row.lastError
    result := flushColumn cached.result changed.result row.result
    startedAt := flushColumn cached.startedAt changed.startedAt row.startedAt
    finishedAt := flushColumn cached.finishedAt changed.finishedAt row.finishedAt }

/-- A column keeps its value if it is set to that or is not set. -/
lemma flushColumn_eq_committed_iff {α : Type*} [DecidableEq α] {cached changed committed : α} :
    flushColumn cached changed committed = committed ↔ changed = cached ∨ changed = committed := by
  unfold flushColumn
  split_ifs with h
  · exact iff_of_true rfl (Or.inl h)
  · exact (or_iff_right h).symm

/-- A column that the session has changed is set. -/
lemma flushColumn_of_ne {α : Type*} [DecidableEq α] {cached changed committed : α}
    (h : changed ≠ cached) : flushColumn cached changed committed = changed := if_neg h

/-- A column that the session has not changed is not set. -/
lemma flushColumn_self {α : Type*} [DecidableEq α] (cached committed : α) :
    flushColumn cached cached committed = committed := if_pos rfl

/-! ## Deliveries -/

/-- `job_attempt` once `start_job` has returned. -/
def startedAttempt (job : JobRun) : ℤ :=
  if job.status.Settled then job.attempt else max 1 (job.attempt + 1)

/-- A delivery of the task, between two of its steps. -/
inductive Delivery where
  /-- `start_job` has read the row. -/
  | loaded (job : JobRun)
  /-- The start is committed. The session keeps the row as it has written it. -/
  | running (job : JobRun) (isRunning : job.status = .running)
  /-- The session is rolled back after an exception. -/
  | rolledBack (attempt : ℤ)
  /-- `update_job` has read the row again. -/
  | reloaded (job : JobRun) (attempt : ℤ)

/-- How the collection ends without an exception that reaches the job. -/
inductive CollectOutcome where
  | success (result : Json)
  | failure (error : Str) (result : Json)

namespace CollectOutcome

/-- The call of `update_job` at the end. -/
def call (attempt : ℤ) : CollectOutcome → JobCall
  | success result => .complete (some attempt) none result
  | failure error result => .fail "collect" (some attempt) error result

/-- The status it records. -/
def status : CollectOutcome → JobStatus
  | success _ => .succeeded
  | failure _ _ => .failed

/-- The result it records. -/
def result : CollectOutcome → Json
  | success result => result
  | failure _ result => result

lemma call_status (attempt : ℤ) (outcome : CollectOutcome) :
    (outcome.call attempt).args.status = outcome.status := by
  cases outcome <;> rfl

lemma call_result (attempt : ℤ) (outcome : CollectOutcome) :
    (outcome.call attempt).args.result = some outcome.result := by
  cases outcome <;> rfl

lemma call_attempt (attempt : ℤ) (outcome : CollectOutcome) :
    (outcome.call attempt).args.attempt = some attempt := by
  cases outcome <;> rfl

lemma status_ne_running (outcome : CollectOutcome) : outcome.status ≠ .running := by
  cases outcome <;> simp [status]

end CollectOutcome

/-- A step of a delivery. -/
inductive DeliveryStep where
  /-- `start_job` reads the row. -/
  | load (d : ℕ)
  /-- It cannot be read. -/
  | loadFails (d : ℕ)
  /-- The start is committed; a delivery that has read a settled row ends. -/
  | start (d : ℕ) (now : Time)
  /-- The end is committed. -/
  | finish (d : ℕ) (outcome : CollectOutcome) (now : Time)
  /-- An exception is raised, and the session is rolled back. -/
  | crash (d : ℕ)
  /-- `update_job` reads the row again. -/
  | reload (d : ℕ)
  /-- The failure is committed. -/
  | recordCrash (d : ℕ) (error : Str) (result : Json) (now : Time)

/-- The committed row, how many deliveries have committed a start, and the deliveries under way. -/
structure JobSystem where
  row : JobRun
  starts : ℕ := 0
  deliveries : ℕ → Option Delivery := fun _ => none

namespace JobSystem

/-- The delivery is at a new point. -/
def set (s : JobSystem) (d : ℕ) (t : Delivery) : JobSystem :=
  { s with deliveries := Function.update s.deliveries d (some t) }

/-- The delivery ends. -/
def drop (s : JobSystem) (d : ℕ) : JobSystem :=
  { s with deliveries := Function.update s.deliveries d none }

/-- The row after a session that has read it has committed a call of `update_job`. -/
def write (s : JobSystem) (now : Time) (call : JobCall) (job : JobRun) : JobSystem :=
  { s with row := job.flush (updateJob now call.args job) s.row }

/-- The row after a session that has read it has committed `start_job`. -/
def writeStart (s : JobSystem) (now : Time) (job : JobRun) : JobSystem :=
  { s with
    row := job.flush (startJob now "collect" job) s.row
    starts := s.starts + 1 }

/-- One step of one delivery. -/
def step (s : JobSystem) : DeliveryStep → Option JobSystem
  | .load d =>
    match s.deliveries d with
    | none => some (s.set d (.loaded s.row))
    | some _ => none
  | .loadFails d =>
    match s.deliveries d with
    | none => some (s.set d (.rolledBack 1))
    | some _ => none
  | .start d now =>
    match s.deliveries d with
    | some (.loaded job) =>
      if h : job.status.Settled then some (s.drop d)
      else some ((s.writeStart now job).set d
        (.running (startJob now "collect" job) (startJob_status h)))
    | _ => none
  | .finish d outcome now =>
    match s.deliveries d with
    | some (.running job _) => some ((s.write now (outcome.call job.attempt) job).drop d)
    | _ => none
  | .crash d =>
    match s.deliveries d with
    | some (.loaded job) => some (s.set d (.rolledBack (startedAttempt job)))
    | some (.running job _) => some (s.set d (.rolledBack job.attempt))
    | _ => none
  | .reload d =>
    match s.deliveries d with
    | some (.rolledBack attempt) => some (s.set d (.reloaded s.row attempt))
    | _ => none
  | .recordCrash d error result now =>
    match s.deliveries d with
    | some (.reloaded job attempt) =>
      some ((s.write now (.fail "collect" (some attempt) error result) job).drop d)
    | _ => none

/-! ## What a step can do -/

/-- What a step can do. -/
inductive Stepped (s : JobSystem) : DeliveryStep → JobSystem → Prop
  | loaded (d : ℕ) : Stepped s (.load d) (s.set d (.loaded s.row))
  | notLoaded (d : ℕ) : Stepped s (.loadFails d) (s.set d (.rolledBack 1))
  | ended (d : ℕ) (now : Time) (job : JobRun) (hloaded : s.deliveries d = some (.loaded job))
      (hsettled : job.status.Settled) : Stepped s (.start d now) (s.drop d)
  | started (d : ℕ) (now : Time) (job : JobRun) (hloaded : s.deliveries d = some (.loaded job))
      (hopen : ¬ job.status.Settled) :
      Stepped s (.start d now) ((s.writeStart now job).set d
        (.running (startJob now "collect" job) (startJob_status hopen)))
  | finished (d : ℕ) (outcome : CollectOutcome) (now : Time) (job : JobRun)
      (isRunning : job.status = .running)
      (hrunning : s.deliveries d = some (.running job isRunning)) :
      Stepped s (.finish d outcome now) ((s.write now (outcome.call job.attempt) job).drop d)
  | crashed (d : ℕ) (attempt : ℤ)
      (hattempt : (∃ job, s.deliveries d = some (.loaded job) ∧ attempt = startedAttempt job) ∨
        ∃ job h, s.deliveries d = some (.running job h) ∧ attempt = job.attempt) :
      Stepped s (.crash d) (s.set d (.rolledBack attempt))
  | reloaded (d : ℕ) (attempt : ℤ) (hrolledBack : s.deliveries d = some (.rolledBack attempt)) :
      Stepped s (.reload d) (s.set d (.reloaded s.row attempt))
  | recorded (d : ℕ) (error : Str) (result : Json) (now : Time) (job : JobRun) (attempt : ℤ)
      (hreloaded : s.deliveries d = some (.reloaded job attempt)) :
      Stepped s (.recordCrash d error result now)
        ((s.write now (.fail "collect" (some attempt) error result) job).drop d)

variable {s u : JobSystem} {e : DeliveryStep}

/-- **Steps.** Every step is one of these. -/
lemma stepped_of_step (h : s.step e = some u) : s.Stepped e u := by
  unfold step at h
  cases e with
  | load d =>
    dsimp only at h
    split at h
    · cases h
      exact .loaded d
    · cases h
  | loadFails d =>
    dsimp only at h
    split at h
    · cases h
      exact .notLoaded d
    · cases h
  | start d now =>
    dsimp only at h
    split at h
    · next job hloaded =>
      split_ifs at h with hsettled
      · cases h
        exact .ended d now job hloaded hsettled
      · cases h
        exact .started d now job hloaded hsettled
    · cases h
  | finish d outcome now =>
    dsimp only at h
    split at h
    · next job isRunning hrunning =>
      cases h
      exact .finished d outcome now job isRunning hrunning
    · cases h
  | crash d =>
    dsimp only at h
    split at h
    · next job hloaded =>
      cases h
      exact .crashed d _ (Or.inl ⟨job, hloaded, rfl⟩)
    · next job isRunning hrunning =>
      cases h
      exact .crashed d _ (Or.inr ⟨job, isRunning, hrunning, rfl⟩)
    · cases h
  | reload d =>
    dsimp only at h
    split at h
    · next attempt hrolledBack =>
      cases h
      exact .reloaded d attempt hrolledBack
    · cases h
  | recordCrash d error result now =>
    dsimp only at h
    split at h
    · next job attempt hreloaded =>
      cases h
      exact .recorded d error result now job attempt hreloaded
    · cases h

end JobSystem

/-! ## Settled jobs -/

/-- If the job is settled, its status and its result stay as they are. -/
def KeepsSettled (s u : JobSystem) : Prop :=
  s.row.status.Settled → u.row.status = s.row.status ∧ u.row.result = s.row.result

/-- Once the job is settled at a point of the history, its status and its result are the same at
every later point. -/
def SettledAbsorbs (s : JobSystem) (steps : List DeliveryStep) : Prop :=
  ∀ before between after, steps = before ++ between ++ after →
    KeepsSettled (History.replay JobSystem.step s before)
      (History.replay JobSystem.step s (before ++ between))

/-- A delivery that commits onto a settled row leaves its status and its result alone: it starts
only if it has read the row settled, or running and so without a change of the status; it ends with
the status of the row, and with the result of the row or the one it has read; and it records an
exception only if it has read the row failed, with a result as before. -/
def AgreesWithSettled (s : JobSystem) : DeliveryStep → Prop
  | .start d _ => s.row.status.Settled → ∀ job, s.deliveries d = some (.loaded job) →
      job.status.Settled ∨ job.status = .running
  | .finish d outcome _ => s.row.status.Settled → ∀ job h,
      s.deliveries d = some (.running job h) → outcome.status = s.row.status ∧
        (job.result = some outcome.result ∨ s.row.result = some outcome.result)
  | .recordCrash d _ result _ => s.row.status.Settled → ∀ job attempt,
      s.deliveries d = some (.reloaded job attempt) → job.status = .failed ∧
        (job.result = some result ∨ s.row.result = some result)
  | _ => True

lemma KeepsSettled.refl (s : JobSystem) : KeepsSettled s s := fun _ => ⟨rfl, rfl⟩

lemma KeepsSettled.trans (s t u : JobSystem) (hst : KeepsSettled s t) (htu : KeepsSettled t u) :
    KeepsSettled s u := by
  intro hsettled
  obtain ⟨hstatus, hresult⟩ := hst hsettled
  obtain ⟨hstatus', hresult'⟩ := htu (hstatus ▸ hsettled)
  exact ⟨hstatus'.trans hstatus, hresult'.trans hresult⟩

section Commits

variable {s : JobSystem} {now : Time} {job : JobRun}

/-- What a start does to a settled row. -/
lemma writeStart_keepsSettled_iff (hopen : ¬ job.status.Settled) :
    KeepsSettled s (s.writeStart now job) ↔
      (s.row.status.Settled → job.status.Settled ∨ job.status = .running) := by
  refine imp_congr_right fun hsettled => ?_
  have hresult : (startJob now "collect" job).result = job.result := by
    rw [startJob, if_neg hopen]
    exact Option.none_or
  have hrow : (s.writeStart now job).row.result = s.row.result := by
    show flushColumn job.result (startJob now "collect" job).result s.row.result = s.row.result
    rw [hresult, flushColumn_self]
  have hstatus : (s.writeStart now job).row.status =
      flushColumn job.status .running s.row.status := by
    show flushColumn job.status (startJob now "collect" job).status s.row.status = _
    rw [startJob_status hopen]
  have hne : JobStatus.running ≠ s.row.status := by
    intro heq
    rw [← heq] at hsettled
    revert hsettled
    decide
  rw [and_iff_left hrow, hstatus, flushColumn_eq_committed_iff, or_iff_left hne,
    or_iff_right hopen, eq_comm]

/-- What a failure or a success does to a settled row. -/
lemma write_keepsSettled_iff {call : JobCall} {result : Json}
    (hresult : call.args.result = some result) :
    KeepsSettled s (s.write now call job) ↔ (s.row.status.Settled →
      (call.args.status = job.status ∨ call.args.status = s.row.status) ∧
        (job.result = some result ∨ s.row.result = some result)) := by
  refine imp_congr_right fun _ => and_congr flushColumn_eq_committed_iff ?_
  show flushColumn job.result (call.args.result.or job.result) s.row.result = s.row.result ↔ _
  rw [hresult, Option.some_or, flushColumn_eq_committed_iff, eq_comm, eq_comm (b := s.row.result)]

end Commits

/-- **When a settled job stays.** A step keeps a settled job exactly if what it commits agrees with
the row. -/
lemma keepsSettled_iff {s u : JobSystem} {e : DeliveryStep} (h : s.Stepped e u) :
    KeepsSettled s u ↔ AgreesWithSettled s e := by
  cases h with
  | loaded d => exact iff_of_true (KeepsSettled.refl s) trivial
  | notLoaded d => exact iff_of_true (KeepsSettled.refl s) trivial
  | ended d now job hloaded hsettled =>
    refine iff_of_true (KeepsSettled.refl s) fun _ job' hloaded' => ?_
    rw [hloaded] at hloaded'
    cases hloaded'
    exact Or.inl hsettled
  | started d now job hloaded hopen =>
    refine (writeStart_keepsSettled_iff hopen).trans (imp_congr_right fun _ => ?_)
    constructor
    · intro hread job' hloaded'
      rw [hloaded] at hloaded'
      cases hloaded'
      exact hread
    · exact fun hguard => hguard job hloaded
  | finished d outcome now job isRunning hrunning =>
    have hne : outcome.status ≠ job.status := by
      rw [isRunning]
      exact outcome.status_ne_running
    refine (write_keepsSettled_iff (outcome.call_result job.attempt)).trans
      (imp_congr_right fun _ => ?_)
    rw [outcome.call_status, or_iff_right hne]
    constructor
    · intro hend job' h' hrunning'
      rw [hrunning] at hrunning'
      cases hrunning'
      exact hend
    · exact fun hguard => hguard job isRunning hrunning
  | crashed d attempt _ => exact iff_of_true (KeepsSettled.refl s) trivial
  | reloaded d attempt _ => exact iff_of_true (KeepsSettled.refl s) trivial
  | recorded d error result now job attempt hreloaded =>
    refine (write_keepsSettled_iff rfl).trans (imp_congr_right fun hsettled => ?_)
    have hne : JobStatus.failed ≠ s.row.status := by
      intro heq
      rw [← heq] at hsettled
      revert hsettled
      decide
    have hstatus : (JobStatus.failed = job.status ∨ JobStatus.failed = s.row.status) ↔
        job.status = .failed := by
      rw [or_iff_left hne, eq_comm]
    refine (and_congr_left' hstatus).trans ?_
    constructor
    · intro hend job' attempt' hreloaded'
      rw [hreloaded] at hreloaded'
      cases hreloaded'
      exact hend
    · exact fun hguard => hguard job attempt hreloaded

/-- **Settled jobs.** However the deliveries of a task interleave, the status and the result of a
job that has succeeded or was cancelled never change again, exactly if every delivery that commits
onto such a row agrees with it.

**Proof sketch.** Keeping a settled row is a preorder on states, so it holds between any two points
if and only if each step keeps it, and a step keeps it if and only if the columns it sets agree with
the row (`keepsSettled_iff`). -/
theorem settled_absorbs_iff (row : JobRun) (steps : List DeliveryStep) :
    SettledAbsorbs { row := row } steps ↔
      History.Guarded JobSystem.step AgreesWithSettled { row := row } steps := by
  refine (History.along_iff_forall_points _ KeepsSettled.refl KeepsSettled.trans).symm.trans ?_
  refine History.along_iff_guarded (I := fun _ => True) _ ?_ (fun _ _ _ _ _ _ => trivial) trivial _
  exact fun s e u _ hstep => keepsSettled_iff (JobSystem.stepped_of_step hstep)

/-- A slow delivery fails after a second delivery of the same task has succeeded. -/
theorem not_settled_absorbs_overlap :
    ¬ SettledAbsorbs { row := createJob 1 "collect" }
      [.load 1, .start 1 10, .load 2, .start 2 20,
        .finish 2 (.success (.obj [("observations", .int 3)])) 30,
        .finish 1 (.failure "timeout" (.obj [("error", .str "timeout")])) 40] := by
  intro h
  have hkept := h [.load 1, .start 1 10, .load 2, .start 2 20,
      .finish 2 (.success (.obj [("observations", .int 3)])) 30]
    [.finish 1 (.failure "timeout" (.obj [("error", .str "timeout")])) 40] [] rfl
  revert hkept
  unfold KeepsSettled
  decide +kernel

/-! ## Attempts -/

/-- The attempt does not decrease, and still counts the deliveries that have started. -/
def KeepsAttempt (s u : JobSystem) : Prop :=
  s.row.attempt ≤ u.row.attempt ∧ (s.starts ≤ s.row.attempt → u.starts ≤ u.row.attempt)

/-- The attempt never decreases from a point of the history to a later one, and at every point it is
at least the number of deliveries that have started. -/
def AttemptCounts (s : JobSystem) (steps : List DeliveryStep) : Prop :=
  ∀ before between after, steps = before ++ between ++ after →
    (History.replay JobSystem.step s before).row.attempt ≤
        (History.replay JobSystem.step s (before ++ between)).row.attempt ∧
      (History.replay JobSystem.step s before).starts ≤
        (History.replay JobSystem.step s before).row.attempt

/-- A delivery that commits knows the attempt: one that starts has read an attempt that covers the
deliveries started so far and is at most one behind the row, and one that records an exception
writes an attempt that it has just read or that is not behind the row. -/
def AttemptCurrent (s : JobSystem) : DeliveryStep → Prop
  | .start d _ => ∀ job, s.deliveries d = some (.loaded job) → ¬ job.status.Settled →
      s.row.attempt ≤ job.attempt + 1 ∧ s.starts ≤ job.attempt
  | .recordCrash d _ _ _ => ∀ job attempt, s.deliveries d = some (.reloaded job attempt) →
      attempt = job.attempt ∨ s.row.attempt ≤ attempt
  | _ => True

lemma KeepsAttempt.refl (s : JobSystem) : KeepsAttempt s s := ⟨le_refl _, fun h => h⟩

lemma KeepsAttempt.trans (s t u : JobSystem) (hst : KeepsAttempt s t) (htu : KeepsAttempt t u) :
    KeepsAttempt s u :=
  ⟨hst.1.trans htu.1, fun h => htu.2 (hst.2 h)⟩

/-- Counting attempts is keeping the attempt between any two points. -/
lemma attemptCounts_iff {s : JobSystem} (hstarts : s.starts ≤ s.row.attempt)
    {steps : List DeliveryStep} :
    AttemptCounts s steps ↔ ∀ before between after, steps = before ++ between ++ after →
      KeepsAttempt (History.replay JobSystem.step s before)
        (History.replay JobSystem.step s (before ++ between)) := by
  constructor
  · intro h before between after heq
    refine ⟨(h before between after heq).1, fun _ => ?_⟩
    exact (h (before ++ between) [] after (by rw [heq, List.append_nil])).2
  · intro h before between after heq
    refine ⟨(h before between after heq).1, ?_⟩
    exact (h [] before (between ++ after) (by rw [heq, List.nil_append, List.append_assoc])).2
      hstarts

/-- The attempts that a delivery knows are not negative. -/
def Delivery.AttemptOk : Delivery → Prop
  | loaded job => 0 ≤ job.attempt
  | running job _ => 0 ≤ job.attempt
  | rolledBack attempt => 0 ≤ attempt
  | reloaded _ attempt => 0 ≤ attempt

/-- The attempt counts the deliveries that have started, and no delivery knows a negative one. -/
structure AttemptInv (s : JobSystem) : Prop where
  starts : s.starts ≤ s.row.attempt
  deliveries : ∀ d t, s.deliveries d = some t → t.AttemptOk

/-- The attempt that a start writes. -/
lemma startJob_attempt {now : Time} {phase : Str} {job : JobRun} :
    (startJob now phase job).attempt = startedAttempt job := by
  unfold startJob startedAttempt
  split_ifs
  · rfl
  · exact max_eq_right (zero_le_one.trans (le_max_left _ _))

lemma startedAttempt_nonneg {job : JobRun} (h : 0 ≤ job.attempt) : 0 ≤ startedAttempt job := by
  unfold startedAttempt
  split_ifs
  · exact h
  · omega

namespace AttemptInv

variable {s u : JobSystem} {e : DeliveryStep}

/-- The attempt of the row is not negative. -/
lemma attempt_nonneg (hinv : AttemptInv s) : 0 ≤ s.row.attempt :=
  (Int.natCast_nonneg s.starts).trans hinv.starts

/-- The deliveries after one of them is at a new point. -/
private lemma attemptOk_update {deliveries : ℕ → Option Delivery} {d d' : ℕ}
    {new : Option Delivery} {t : Delivery} (hold : ∀ d t, deliveries d = some t → t.AttemptOk)
    (hnew : ∀ t ∈ new, t.AttemptOk) (h : Function.update deliveries d new d' = some t) :
    t.AttemptOk := by
  by_cases hne : d' = d
  · subst hne
    rw [Function.update_self] at h
    exact hnew t h
  · rw [Function.update_of_ne hne] at h
    exact hold d' t h

/-- The attempt that the end of a delivery leaves. -/
lemma write_attempt (s : JobSystem) (now : Time) (job : JobRun) {call : JobCall} {attempt : ℤ}
    (hattempt : call.args.attempt = some attempt) (h : 0 ≤ attempt) :
    (s.write now call job).row.attempt = flushColumn job.attempt attempt s.row.attempt := by
  show flushColumn job.attempt ((call.args.attempt.map fun a => max 0 a).getD job.attempt) _ = _
  rw [hattempt, Option.map_some, Option.getD_some, max_eq_right h]

/-- The attempt that a start leaves. -/
lemma writeStart_attempt (s : JobSystem) (now : Time) {job : JobRun} (h : 0 ≤ job.attempt)
    (hopen : ¬ job.status.Settled) : (s.writeStart now job).row.attempt = job.attempt + 1 := by
  have hstarted : (startJob now "collect" job).attempt = job.attempt + 1 := by
    rw [startJob_attempt, startedAttempt, if_neg hopen]
    omega
  show flushColumn job.attempt (startJob now "collect" job).attempt s.row.attempt = _
  rw [hstarted, flushColumn_of_ne (by omega)]

/-- **When the attempt is kept.** A step keeps the attempt exactly if the delivery that commits
knows the attempt. -/
lemma keepsAttempt_iff (hinv : AttemptInv s) (h : s.Stepped e u) :
    KeepsAttempt s u ↔ AttemptCurrent s e := by
  cases h with
  | loaded d => exact iff_of_true (KeepsAttempt.refl s) trivial
  | notLoaded d => exact iff_of_true (KeepsAttempt.refl s) trivial
  | ended d now job hloaded hsettled =>
    refine iff_of_true (KeepsAttempt.refl s) fun job' hloaded' hopen => ?_
    rw [hloaded] at hloaded'
    cases hloaded'
    exact absurd hsettled hopen
  | started d now job hloaded hopen =>
    have hnonneg : 0 ≤ job.attempt := hinv.deliveries d _ hloaded
    have hrow := writeStart_attempt s now hnonneg hopen
    have hstarts := hinv.starts
    have hkeeps : KeepsAttempt s ((s.writeStart now job).set d
        (.running (startJob now "collect" job) (startJob_status hopen))) ↔
        s.row.attempt ≤ job.attempt + 1 ∧ s.starts ≤ job.attempt := by
      show s.row.attempt ≤ (s.writeStart now job).row.attempt ∧
        (s.starts ≤ s.row.attempt →
          ((s.starts + 1 : ℕ) : ℤ) ≤ (s.writeStart now job).row.attempt) ↔ _
      rw [hrow, Nat.cast_add, Nat.cast_one]
      constructor
      · exact fun hnew => ⟨hnew.1, by have := hnew.2 hstarts; omega⟩
      · exact fun hread => ⟨hread.1, fun _ => by omega⟩
    rw [hkeeps]
    constructor
    · intro hread job' hloaded' _
      rw [hloaded] at hloaded'
      cases hloaded'
      exact hread
    · exact fun hguard => hguard job hloaded hopen
  | finished d outcome now job isRunning hrunning =>
    have hrow := write_attempt s now job (outcome.call_attempt job.attempt)
      (hinv.deliveries d _ hrunning)
    rw [flushColumn_self] at hrow
    refine iff_of_true ⟨hrow.ge, fun hstarts => ?_⟩ trivial
    exact hstarts.trans hrow.ge
  | crashed d attempt _ => exact iff_of_true (KeepsAttempt.refl s) trivial
  | reloaded d attempt _ => exact iff_of_true (KeepsAttempt.refl s) trivial
  | recorded d error result now job attempt hreloaded =>
    have hcall : (JobCall.fail "collect" (some attempt) error result).args.attempt =
        some attempt := rfl
    have hrow := write_attempt s now job hcall (hinv.deliveries d _ hreloaded)
    have hkeeps : KeepsAttempt s
        ((s.write now (.fail "collect" (some attempt) error result) job).drop d) ↔
        s.row.attempt ≤ flushColumn job.attempt attempt s.row.attempt := by
      rw [← hrow]
      exact ⟨fun hnew => hnew.1, fun hle => ⟨hle, fun hstarts => hstarts.trans hle⟩⟩
    have hcolumn : s.row.attempt ≤ flushColumn job.attempt attempt s.row.attempt ↔
        attempt = job.attempt ∨ s.row.attempt ≤ attempt := by
      unfold flushColumn
      split_ifs with hsame
      · exact iff_of_true (le_refl _) (Or.inl hsame)
      · exact (or_iff_right hsame).symm
    rw [hkeeps, hcolumn]
    constructor
    · intro hread job' attempt' hreloaded'
      rw [hreloaded] at hreloaded'
      cases hreloaded'
      exact hread
    · exact fun hguard => hguard job attempt hreloaded

/-- **What a step preserves.** If the attempt is kept, no delivery knows a negative one. -/
lemma step (hinv : AttemptInv s) (h : s.Stepped e u) (hkeeps : KeepsAttempt s u) :
    AttemptInv u := by
  refine ⟨hkeeps.2 hinv.starts, fun d' t ht => ?_⟩
  have hrow := hinv.attempt_nonneg
  cases h with
  | loaded d =>
    refine attemptOk_update hinv.deliveries (fun t' ht' => ?_) ht
    cases ht'
    exact hrow
  | notLoaded d =>
    refine attemptOk_update hinv.deliveries (fun t' ht' => ?_) ht
    cases ht'
    exact zero_le_one
  | ended d now job hloaded hsettled =>
    exact attemptOk_update hinv.deliveries (fun t' ht' => by cases ht') ht
  | started d now job hloaded hopen =>
    refine attemptOk_update hinv.deliveries (fun t' ht' => ?_) ht
    cases ht'
    show 0 ≤ (startJob now "collect" job).attempt
    rw [startJob_attempt]
    exact startedAttempt_nonneg (hinv.deliveries d _ hloaded)
  | finished d outcome now job isRunning hrunning =>
    exact attemptOk_update hinv.deliveries (fun t' ht' => by cases ht') ht
  | crashed d attempt hattempt =>
    refine attemptOk_update hinv.deliveries (fun t' ht' => ?_) ht
    cases ht'
    rcases hattempt with ⟨job, hloaded, rfl⟩ | ⟨job, isRunning, hrunning, rfl⟩
    · exact startedAttempt_nonneg (hinv.deliveries d _ hloaded)
    · have hknown : (Delivery.running job isRunning).AttemptOk := hinv.deliveries d _ hrunning
      exact hknown
  | reloaded d attempt hrolledBack =>
    refine attemptOk_update hinv.deliveries (fun t' ht' => ?_) ht
    cases ht'
    have hknown : (Delivery.rolledBack attempt).AttemptOk := hinv.deliveries d _ hrolledBack
    exact hknown
  | recorded d error result now job attempt hreloaded =>
    exact attemptOk_update hinv.deliveries (fun t' ht' => by cases ht') ht

end AttemptInv

/-- **Attempts.** However the deliveries of a task interleave, the attempt never decreases and is at
least the number of deliveries that have started, exactly if every delivery knows the attempt when
it commits.

**Proof sketch.** A start writes one more than the attempt it has read, and the record of an
exception writes the attempt of the delivery unless that is what it has read again; no other step
changes the attempt (`AttemptInv.keepsAttempt_iff`). -/
theorem attempt_counts_iff {row : JobRun} (hrow : 0 ≤ row.attempt) (steps : List DeliveryStep) :
    AttemptCounts { row := row } steps ↔
      History.Guarded JobSystem.step AttemptCurrent { row := row } steps := by
  refine (attemptCounts_iff (s := { row := row }) hrow).trans ?_
  refine (History.along_iff_forall_points _ KeepsAttempt.refl KeepsAttempt.trans).symm.trans ?_
  refine History.along_iff_guarded (I := AttemptInv) _ ?_ ?_ ⟨hrow, fun d t ht => by cases ht⟩ _
  · exact fun s e u hinv hstep => hinv.keepsAttempt_iff (JobSystem.stepped_of_step hstep)
  · exact fun s e u hinv hstep hkeeps => hinv.step (JobSystem.stepped_of_step hstep) hkeeps

/-- A delivery that crashes, and a redelivery that runs to its end. -/
theorem attempt_counts_redelivered :
    AttemptCounts { row := createJob 1 "collect" }
      [.load 1, .start 1 10, .crash 1, .reload 1,
        .recordCrash 1 "timeout" (.obj [("error", .str "timeout")]) 20,
        .load 2, .start 2 30, .finish 2 (.success (.obj [("observations", .int 3)])) 40] := by
  refine (attempt_counts_iff (by decide) _).mpr ?_
  refine ⟨fun _ _ => trivial, fun _ _ job hjob _ => ?_, fun _ _ => trivial, fun _ _ => trivial,
    fun _ _ job attempt hjob => ?_, fun _ _ => trivial, fun _ _ job hjob _ => ?_,
    fun _ _ => trivial, trivial⟩
  · cases hjob
    decide +kernel
  · cases hjob
    exact Or.inl rfl
  · cases hjob
    decide +kernel

/-- Two deliveries that read the row before either has started. -/
theorem not_attempt_counts_overlap :
    ¬ AttemptCounts { row := createJob 1 "collect" }
      [.load 1, .load 2, .start 1 10, .start 2 20] := by
  intro h
  have hcounts := (h [.load 1, .load 2, .start 1 10, .start 2 20] [] [] rfl).2
  revert hcounts
  decide +kernel

end VCBrain
