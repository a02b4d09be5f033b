import VCBrain.Agents.EvidenceGate
import VCBrain.Collectors.DiscoverJob

set_option relaxedAutoImplicit false
set_option autoImplicit false

/-!
# Deliveries of an inbound pitch

The queue delivers the task of a submission until a delivery succeeds, and possibly again. Each
delivery commits the start of the job, then the observations of the deck, then what the processing
of the candidate does in a session of its own, and at last the success. What a delivery does before
a commit is lost when the worker dies.

## Main definitions

* `InboundPoint` — the statements at which a delivery can be stopped.
* `InboundDelivery.deliver` — `process_inbound_pitch_job`.
* `InboundDelivery.processCandidate` — `process_candidate_job` without a job id.
* `RecordedOnce` — the observations of a submission are those of its deck, each once.

## Main results

* `deliveries_recordedOnce` — what holds once a delivery has succeeded.

## Design

The bytes of the deck are immutable, so every delivery reads the same pages. What the embeddings say
of the claims is an input. A job id that is no UUID is one without a row.
-/

namespace VCBrain

/-! ## State and environment -/

/-- The statements at which a delivery can be stopped. -/
inductive InboundPoint where
  | derive
  | start
  | startCommit
  | lookup
  | fetch
  | extract
  | persist
  | persistCommit
  | processingCreate
  | processingStart
  | processing
  | processingCommit
  | complete
  | close
deriving DecidableEq

/-- The tables and the ledger. -/
structure InboundStore where
  db : Db
  ledger : List JobRun

namespace InboundStore

/-- `session.get(JobRun, id)`. -/
def job? (store : InboundStore) (id : Uuid) : Option JobRun :=
  store.ledger.find? fun job => job.id = id

/-- A row of the ledger is changed. -/
def setJob (store : InboundStore) (id : Uuid) (change : JobRun → JobRun) : InboundStore :=
  { store with ledger := modifyJob id change store.ledger }

end InboundStore

/-- What is committed, and what the session sees. -/
structure InboundState where
  committed : InboundStore
  session : InboundStore

/-- Computations of a delivery. -/
abbrev InboundM : Type → Type := Fallible Raised InboundState

/-- The text of a status. -/
def JobStatus.text : JobStatus → Str
  | queued => "queued"
  | running => "running"
  | succeeded => "succeeded"
  | failed => "failed"
  | cancelled => "cancelled"

/-- A submission with the id of its job, `none` for a task that carries none, and the id that is
derived from the arguments then. -/
structure InboundTask where
  pitch : InboundPitch
  jobId : Option Uuid
  derivedJobId : Uuid

/-- `ledger_job_id`. -/
def InboundTask.ledgerJobId (task : InboundTask) : Uuid := task.jobId.getD task.derivedJobId

/-- A delivery: its clock and its draws, what the embeddings say, and where it is stopped. The two
flags are failures of the handlers to record a failure. -/
structure InboundDelivery where
  now : Time
  draw : ℕ → Uuid
  processingJobId : Uuid
  claimDraw : ℕ → Uuid
  embedded : ℕ
  deduplicated : Db → List Claim × ℕ
  fails : Option (InboundPoint × Raised)
  terminalizeFails : Bool := false
  processingLedgerFails : Bool := false

/-- `classify_connector_failure`. -/
def Exn.classify : Exn → FailureKind × Bool
  | .connector error => (error.failureKind, error.retryable)
  | .other _ failureKind retryable => (failureKind, retryable)

/-- `str(exc)`. -/
def Exn.text : Exn → Str
  | .connector error => error.message
  | .other detail _ _ => detail

/-- The exception of an insertion that violates a key. -/
def integrityError : Exn := .other "IntegrityError" .permanent false

namespace InboundM

/-- The session sees a new version of the tables and the ledger. -/
def write (change : InboundStore → InboundStore) : InboundM Unit :=
  Fallible.modify fun s => { s with session := change s.session }

/-- `session.commit()`. -/
def commit : InboundM Unit := Fallible.modify fun s => { s with committed := s.session }

/-- `session.rollback()`. -/
def rollback : InboundM Unit := Fallible.modify fun s => { s with session := s.committed }

end InboundM

namespace InboundDelivery

variable (task : InboundTask) (d : InboundDelivery)

/-- The submission as this delivery reads it. -/
def pitch : InboundPitch := { task.pitch with now := d.now, draw := d.draw }

/-- A statement that may raise. -/
def raiseAt (point : InboundPoint) : InboundM Unit := Fallible.stopAt d.fails (fun _ _ s => s) point

/-! ## Failures -/

/-- `_failure_result`. -/
def failure (error : Str) (kind : FailureKind × Bool) : Json :=
  .obj [("status", .str "failed"), ("error", .str error),
    ("person_id", .str task.pitch.personId.str), ("snapshot_id", .str task.pitch.snapshotId.str),
    ("opportunity_id", .str task.pitch.opportunityId.str),
    ("job_id", .str task.ledgerJobId.str), ("failure_kind", .str kind.1.text),
    ("retryable", .bool kind.2)]

/-- `terminalize`; its own failure leaves the row as it is. -/
def terminalize (rollback : Bool) (phase : Str) (attempt : ℤ) (error : Str) (result : Json) :
    InboundM Unit :=
  if d.terminalizeFails then pure ()
  else do
    if rollback then InboundM.rollback
    InboundM.write fun store => store.setJob task.ledgerJobId
      (updateJob d.now (JobCall.fail phase (some attempt) error result).args)
    InboundM.commit

/-- `except Exception`: the failure is recorded and the exception is raised again. -/
def orFail {α : Type} (phase : Str) (attempt : ℤ) (error : Str) (x : InboundM α) : InboundM α :=
  x.handle fun r =>
    match r with
    | .exception exc => do
      d.terminalize task true phase attempt error (failure task error exc.classify)
      Fallible.raise r
    | .cancelled => Fallible.raise r

/-- A failure that is recorded and returned. -/
def refuse (phase : Str) (attempt : ℤ) (error : Str) (kind : FailureKind × Bool) :
    InboundM Json := do
  d.terminalize task false phase attempt error (failure task error kind)
  pure (failure task error kind)

/-! ## Start -/

/-- A task without a job id reopens the row of the derived id, or creates it. -/
def openLedger : InboundM Unit :=
  match task.jobId with
  | some _ => pure ()
  | none => do
    d.raiseAt .derive
    InboundM.write fun store =>
      if (store.job? task.derivedJobId).isSome then store
      else { store with
        ledger := store.ledger ++ [createJob task.derivedJobId "process_inbound_pitch"] }

/-- `start_job` and its commit: `job_attempt`, and the row if the delivery has nothing to do. -/
def start : InboundM (ℤ × Option JobRun) := do
  d.orFail task "parsing" 1 "job_start_failed" (d.raiseAt .start)
  let s ← Fallible.get
  match s.session.job? task.ledgerJobId with
  | none => do
    d.orFail task "parsing" 1 "job_start_failed" (d.raiseAt .startCommit)
    InboundM.commit
    pure (1, none)
  | some row =>
    if row.status.Settled then do
      d.orFail task "parsing" row.attempt "job_start_failed" (d.raiseAt .startCommit)
      InboundM.commit
      pure (row.attempt, some row)
    else do
      let started := startJob d.now "parsing" row
      InboundM.write fun store => store.setJob task.ledgerJobId (startJob d.now "parsing")
      d.orFail task "parsing" started.attempt "job_start_failed" (d.raiseAt .startCommit)
      InboundM.commit
      pure (started.attempt, none)

/-! ## Observations -/

/-- The observations and the progress of the job are committed together. The number of the
observations that are new. -/
def persist (attempt : ℤ) : InboundM ℕ := do
  d.raiseAt .persist
  let s ← Fallible.get
  match processInboundPitch (d.pitch task) s.session.db with
  | .error _ => Fallible.raise (.exception integrityError)
  | .ok (db, created) => do
    InboundM.write fun store => { store with db := db }
    InboundM.write fun store => store.setJob task.ledgerJobId (updateJob d.now
      (JobCall.advance "processing" attempt true (some (4 / 5))).args)
    d.raiseAt .persistCommit
    InboundM.commit
    pure created

/-! ## Processing -/

/-- The failure `process_candidate_job` records. -/
def processingFailure (error : Str) (kind : FailureKind × Bool) : Json :=
  .obj [("status", .str "failed"), ("error", .str error),
    ("person_id", .str task.pitch.personId.str), ("failure_kind", .str kind.1.text),
    ("retryable", .bool kind.2)]

/-- The row of the processing job is updated. -/
def updateProcessing (call : JobCall) : InboundM Unit :=
  InboundM.write fun store => store.setJob d.processingJobId (updateJob d.now call.args)

/-- Reconciliation, embeddings and deduplication of the claims. -/
def reconcileAndDeduplicate : InboundM Json := do
  d.raiseAt .processing
  let s ← Fallible.get
  match s.session.db.person? task.pitch.personId with
  | none => do
    d.updateProcessing (.fail "processing" (some 1) "person_not_found"
      (processingFailure task "person_not_found" (.permanent, false)))
    d.raiseAt .processingCommit
    InboundM.commit
    pure (.obj [("error", .str "person_not_found"), ("person_id", .str task.pitch.personId.str)])
  | some _ =>
    match reconcileObservations task.pitch.personId d.now d.claimDraw s.session.db with
    | none => Fallible.raise (.exception integrityError)
    | some (db, created) => do
      let result : Json :=
        .obj [("person_id", .str task.pitch.personId.str), ("claims_created", .int created),
          ("embeddings_generated", .int d.embedded),
          ("claims_deduped", .int (d.deduplicated db).2)]
      InboundM.write fun store => { store with db := { db with claims := (d.deduplicated db).1 } }
      d.updateProcessing (.complete (some 1) none result)
      d.raiseAt .processingCommit
      InboundM.commit
      pure result

/-- `process_candidate_job(ctx, person_id)`: it creates and starts a row of its own. -/
def processCandidate : InboundM Json := do
  d.raiseAt .processingCreate
  let s ← Fallible.get
  match LedgerStep.run s.session.ledger (.create d.processingJobId "process_candidate") with
  | none => Fallible.raise (.exception integrityError)
  | some ledger => do
    InboundM.write fun store => { store with ledger := ledger }
    Fallible.handle
      (do
        InboundM.write fun store =>
          store.setJob d.processingJobId (startJob d.now "processing")
        d.raiseAt .processingStart
        InboundM.commit
        d.reconcileAndDeduplicate task)
      fun r =>
        match r with
        | .exception exc => do
          if d.processingLedgerFails then pure ()
          else do
            InboundM.rollback
            d.updateProcessing (.fail "processing" (some 1) exc.text
              (processingFailure task exc.text exc.classify))
            InboundM.commit
          Fallible.raise r
        | .cancelled => Fallible.raise r

/-! ## The job -/

/-- `processing_result.get("status") == "failed" or "error" in processing_result`. -/
def ProcessingFailed (processing : Json) : Prop :=
  (∃ status ∈ processing.get? "status", status.isStr "failed") ∨
    (processing.get? "error").isSome

instance : DecidablePred ProcessingFailed := fun processing =>
  inferInstanceAs (Decidable ((∃ status ∈ processing.get? "status", _) ∨ _))

/-- `result`. -/
def result (created : ℕ) (processing : Json) : Json :=
  .obj [("status", .str "success"), ("person_id", .str task.pitch.personId.str),
    ("snapshot_id", .str task.pitch.snapshotId.str),
    ("opportunity_id", .str task.pitch.opportunityId.str),
    ("job_id", .str task.ledgerJobId.str), ("observations_created", .int created),
    ("next_stage", .str "inbound_triage"), ("processing", processing)]

/-- The success is committed. -/
def complete (attempt : ℤ) (result : Json) : InboundM Unit := do
  InboundM.write fun store => store.setJob task.ledgerJobId
    (updateJob d.now (JobCall.complete (some attempt) (some 1) result).args)
  d.raiseAt .complete
  InboundM.commit

/-- The job after the deck is read. -/
def persistAndProcess (attempt : ℤ) : InboundM Json := do
  let created ← d.orFail task "parsing" attempt "database_failure" (d.persist task attempt)
  let processing ← d.orFail task "processing" attempt "processing_failed" (d.processCandidate task)
  if ProcessingFailed processing then
    d.refuse task "processing" attempt "processing_failed" (.permanent, false)
  else do
    d.orFail task "processing" attempt "database_failure"
      (d.complete task attempt (result task created processing))
    d.raiseAt .close
    pure (result task created processing)

/-- `process_inbound_pitch_job`. -/
def deliver : InboundM Json := do
  d.openLedger task
  let (attempt, settled) ← d.start task
  match settled with
  | some row => pure (row.result.getD (.obj [("status", .str row.status.text)]))
  | none => do
    d.orFail task "parsing" attempt "database_failure" (d.raiseAt .lookup)
    if task.pitch.snapshotFound = false then
      d.refuse task "parsing" attempt "snapshot_not_found" (.permanent, false)
    else do
      d.orFail task "parsing" attempt "snapshot_fetch_failed" (d.raiseAt .fetch)
      d.orFail task "parsing" attempt "pdf_extraction_failed" (d.raiseAt .extract)
      if (extractPdfPages task.pitch.pdf task.pitch.maxPages task.pitch.maxTextChars).isNone then
        d.refuse task "parsing" attempt "pdf_rejected" (.permanent, false)
      else d.persistAndProcess task attempt

end InboundDelivery

/-! ## Retry keys -/

/-- The keys that the loop keeps are those that are new. -/
lemma mem_keys_deduplicate {keys : List (Str × Str × Str × Str)} {es : List Extraction}
    {k : Str × Str × Str × Str} :
    k ∈ (deduplicate keys es).map observationKey ↔ k ∈ es.map observationKey ∧ k ∉ keys := by
  induction es generalizing keys with
  | nil => simp [deduplicate]
  | cons e es ih =>
    rw [deduplicate]
    split_ifs with hold
    · rw [ih, List.map_cons, List.mem_cons, or_and_right]
      exact (or_iff_right fun h => h.2 (h.1 ▸ hold)).symm
    · rw [List.map_cons, List.map_cons, List.mem_cons, List.mem_cons, ih, List.mem_cons, not_or]
      constructor
      · rintro (rfl | ⟨hmem, -, hnew⟩)
        · exact ⟨Or.inl rfl, hold⟩
        · exact ⟨Or.inr hmem, hnew⟩
      · rintro ⟨heq | hmem, hnew⟩
        · exact Or.inl heq
        · by_cases heq : k = observationKey e
          · exact Or.inl heq
          · exact Or.inr ⟨hmem, heq, hnew⟩

/-- The loop keeps no key twice. -/
lemma nodup_keys_deduplicate (keys : List (Str × Str × Str × Str)) (es : List Extraction) :
    ((deduplicate keys es).map observationKey).Nodup := by
  induction es generalizing keys with
  | nil => exact List.nodup_nil
  | cons e es ih =>
    rw [deduplicate]
    split_ifs
    · exact ih keys
    · rw [List.map_cons, List.nodup_cons]
      refine ⟨fun hmem => ?_, ih _⟩
      exact (mem_keys_deduplicate.mp hmem).2 (List.mem_cons_self ..)

/-- An observation has the key of the extraction it is written for. -/
private lemma map_observationKey_mapIdx (pitch : InboundPitch) (draw : ℕ → Uuid)
    (es : List Extraction) :
    ((es.mapIdx fun i e => pitch.observation (draw i) e).map fun obs =>
      observationKey obs.extraction) = es.map observationKey := by
  refine List.ext_getElem (by simp) fun i _ _ => ?_
  simp [InboundPitch.observation, Observation.extraction]

/-! ## The observations of a submission -/

namespace InboundTask

variable (task : InboundTask)

/-- The keys of the observations of the submission. -/
def keys (db : Db) : List (Str × Str × Str × Str) :=
  (task.pitch.existing db).map fun obs => observationKey obs.extraction

/-- The keys of the deck: its pages, the company name and the evidence fields. -/
def deckKeys : List (Str × Str × Str × Str) := task.pitch.extractions.map observationKey

/-- The observations of the submission are exactly one for each key of the deck. -/
def RecordedOnce (db : Db) : Prop :=
  ∀ key, (task.keys db).count key = if key ∈ task.deckKeys then 1 else 0

/-- The job has succeeded. -/
def Succeeded (store : InboundStore) : Prop :=
  ∃ row, store.job? task.ledgerJobId = some row ∧ row.status = .succeeded

/-- The job is running. -/
def Running (store : InboundStore) : Prop :=
  ∃ row, store.job? task.ledgerJobId = some row ∧ row.status = .running

variable {task} {db db' : Db}

lemma recordedOnce_iff :
    task.RecordedOnce db ↔
      (task.keys db).Nodup ∧ ∀ key, key ∈ task.keys db ↔ key ∈ task.deckKeys := by
  constructor
  · intro h
    refine ⟨List.nodup_iff_count_le_one.mpr fun key => ?_, fun key => ?_⟩
    · rw [h key]
      split_ifs <;> omega
    · rw [← List.count_pos_iff, h key]
      split_ifs with hmem
      · exact iff_of_true Nat.one_pos hmem
      · exact iff_of_false (lt_irrefl 0) hmem
  · rintro ⟨hnodup, hkeys⟩ key
    split_ifs with hmem
    · exact List.count_eq_one_of_mem hnodup ((hkeys key).mpr hmem)
    · exact List.count_eq_zero_of_not_mem fun h => hmem ((hkeys key).mp h)

/-- The keys depend on the observations only. -/
lemma keys_congr (h : db'.observations = db.observations) : task.keys db' = task.keys db := by
  simp only [keys, InboundPitch.existing, h]

lemma RecordedOnce.congr (h : task.RecordedOnce db) (heq : db'.observations = db.observations) :
    task.RecordedOnce db' := by
  intro key
  rw [keys_congr heq, h key]

/-- **Replay of the extraction.** If the submission has no observations, or those of its deck, then
it has those of its deck after the observations are added. -/
lemma recordedOnce_of_process {d : InboundDelivery} {created : ℕ}
    (h : task.keys db = [] ∨ task.RecordedOnce db)
    (hprocess : processInboundPitch (d.pitch task) db = .ok (db', created)) :
    task.RecordedOnce db' := by
  unfold processInboundPitch at hprocess
  split_ifs at hprocess
  simp only at hprocess
  split at hprocess
  · cases hprocess
  next rows hrows =>
  cases hprocess
  obtain rfl := foldlM_insertObservation_eq_some hrows
  have hadded : ((d.pitch task).observationsToAdd db).filter (fun obs =>
      obs.snapshotId = task.pitch.snapshotId ∧ obs.subjectId = some task.pitch.personId ∧
        obs.opportunityId = some task.pitch.opportunityId) =
      (d.pitch task).observationsToAdd db := by
    rw [List.filter_eq_self]
    intro obs hobs
    obtain ⟨i, hi, rfl⟩ := List.mem_mapIdx.mp hobs
    simp [InboundPitch.observation, InboundDelivery.pitch]
  have hkeys : task.keys { db with
      observations := db.observations ++ (d.pitch task).observationsToAdd db } =
      task.keys db ++ (deduplicate (task.keys db) task.pitch.extractions).map observationKey := by
    unfold keys InboundPitch.existing
    rw [List.filter_append, hadded, List.map_append]
    exact congrArg _ (map_observationKey_mapIdx _ _ _)
  rw [recordedOnce_iff, hkeys]
  rcases h with hnew | honce
  · rw [hnew, List.nil_append]
    exact ⟨nodup_keys_deduplicate [] _, fun key => by simp [mem_keys_deduplicate, deckKeys]⟩
  · obtain ⟨hnodup, hmem⟩ := recordedOnce_iff.mp honce
    have hnone : (deduplicate (task.keys db) task.pitch.extractions).map observationKey = [] := by
      rw [List.eq_nil_iff_forall_not_mem]
      intro key hkey
      obtain ⟨hdeck, hnot⟩ := mem_keys_deduplicate.mp hkey
      exact hnot ((hmem key).mpr hdeck)
    rw [hnone, List.append_nil]
    exact ⟨hnodup, hmem⟩

end InboundTask

/-! ## Rows of the ledger -/

namespace InboundStore

/-- Changes of one row that keep its id change what is found under the id, and nothing else. -/
lemma job?_setJob (store : InboundStore) {id other : Uuid} {change : JobRun → JobRun}
    (hid : ∀ job, (change job).id = job.id) :
    (store.setJob other change).job? id =
      (store.job? id).map fun job => if job.id = other then change job else job := by
  have hkept : ∀ job : JobRun, (if job.id = other then change job else job).id = job.id := by
    intro job
    split_ifs
    · exact hid job
    · rfl
  unfold setJob job? modifyJob
  rw [List.find?_map]
  simp only [Function.comp_def, hkept]

lemma id_of_job? {store : InboundStore} {id : Uuid} {job : JobRun} (h : store.job? id = some job) :
    job.id = id := by
  unfold job? at h
  simpa using List.find?_some h

lemma job?_setJob_self {store : InboundStore} {id : Uuid} {job : JobRun} {change : JobRun → JobRun}
    (hid : ∀ job, (change job).id = job.id) (h : store.job? id = some job) :
    (store.setJob id change).job? id = some (change job) := by
  rw [job?_setJob store hid, h, Option.map_some, if_pos (id_of_job? h)]

lemma job?_setJob_of_ne {store : InboundStore} {id other : Uuid} {change : JobRun → JobRun}
    (hid : ∀ job, (change job).id = job.id) (hne : id ≠ other) :
    (store.setJob other change).job? id = store.job? id := by
  rw [job?_setJob store hid]
  cases h : store.job? id with
  | none => rfl
  | some job => rw [Option.map_some, if_neg (id_of_job? h ▸ hne)]

end InboundStore

lemma updateJob_id (now : Time) (u : JobUpdate) (job : JobRun) :
    (updateJob now u job).id = job.id := rfl

lemma startJob_id (now : Time) (phase : Str) (job : JobRun) :
    (startJob now phase job).id = job.id := by
  unfold startJob
  split_ifs <;> rfl

/-! ## What a delivery keeps -/

namespace InboundTask

variable (task : InboundTask)

/-- What holds between deliveries: the job of the task exists, it has not ended but by a success
that has recorded the deck, and the deck is recorded or nothing is. -/
structure Kept (store : InboundStore) : Prop where
  exists_row : ∀ id ∈ task.jobId, (store.job? id).isSome
  settled : ∀ row, store.job? task.ledgerJobId = some row → row.status.Settled →
    row.status = .succeeded ∧ task.RecordedOnce store.db
  recorded : task.keys store.db = [] ∨ task.RecordedOnce store.db

/-- The deck is recorded, and the job is running. -/
structure Recorded (store : InboundStore) : Prop where
  running : task.Running store
  once : task.RecordedOnce store.db

variable {task} {store : InboundStore} {s : InboundState} {d : InboundDelivery}

lemma Kept.of_running (hrunning : task.Running store)
    (hrecorded : task.keys store.db = [] ∨ task.RecordedOnce store.db) : task.Kept store := by
  obtain ⟨row, hrow, hstatus⟩ := hrunning
  refine ⟨fun id hid => ?_, fun other hother hsettled => ?_, hrecorded⟩
  · have hledger : task.ledgerJobId = id := by
      rw [ledgerJobId, Option.mem_def.mp hid, Option.getD_some]
    rw [← hledger, hrow, Option.isSome_some]
  · obtain rfl := Option.some.inj (hrow.symm.trans hother)
    rw [hstatus] at hsettled
    exact absurd hsettled (by decide)

lemma Recorded.kept (h : task.Recorded store) : task.Kept store :=
  .of_running h.running (Or.inr h.once)

/-- A recorded failure keeps what holds. -/
lemma Kept.fail (h : task.Kept store) (now : Time) (phase : Str) (attempt : Option ℤ)
    (error : Str) (result : Json) :
    task.Kept (store.setJob task.ledgerJobId
      (updateJob now (JobCall.fail phase attempt error result).args)) := by
  refine ⟨fun id hid => ?_, fun row hrow hsettled => ?_, h.recorded⟩
  · rw [InboundStore.job?_setJob store (updateJob_id _ _), Option.isSome_map]
    exact h.exists_row id hid
  · rw [InboundStore.job?_setJob store (updateJob_id _ _)] at hrow
    obtain ⟨job, hjob, rfl⟩ := Option.map_eq_some_iff.mp hrow
    rw [if_pos (InboundStore.id_of_job? hjob)] at hsettled
    change JobStatus.failed.Settled at hsettled
    exact absurd hsettled (by decide)

end InboundTask

/-! ## The statements of a delivery -/

section Statements

open Fallible InboundDelivery

variable {task : InboundTask} {d : InboundDelivery} {s : InboundState}

@[simp] lemma InboundM.leads_write {change : InboundStore → InboundStore}
    {Q : Unit → InboundState → Prop} {E : Raised → InboundState → Prop} :
    (InboundM.write change).Leads Q E s ↔ Q () { s with session := change s.session } := Iff.rfl

@[simp] lemma InboundM.leads_commit {Q : Unit → InboundState → Prop}
    {E : Raised → InboundState → Prop} :
    InboundM.commit.Leads Q E s ↔ Q () { s with committed := s.session } := Iff.rfl

@[simp] lemma InboundM.leads_rollback {Q : Unit → InboundState → Prop}
    {E : Raised → InboundState → Prop} :
    InboundM.rollback.Leads Q E s ↔ Q () { s with session := s.committed } := Iff.rfl

/-- A statement that may raise changes nothing. -/
lemma leads_raiseAt {point : InboundPoint} {Q : Unit → InboundState → Prop}
    {E : Raised → InboundState → Prop} (hQ : Q () s)
    (hE : ∀ r, d.fails = some (point, r) → E r s) : (d.raiseAt point).Leads Q E s :=
  leads_stopAt hQ hE

/-- A failure is recorded, or the handler fails itself. -/
lemma leads_terminalize {rollback : Bool} {phase error : Str} {attempt : ℤ} {result : Json}
    {E : Raised → InboundState → Prop} (h : task.Kept s.committed)
    (hsession : rollback = false → task.Kept s.session) :
    (d.terminalize task rollback phase attempt error result).Leads
      (fun _ s => task.Kept s.committed) E s := by
  unfold terminalize
  split_ifs with hfails hrollback
  · exact h
  · simp only [leads_bind, InboundM.leads_rollback, InboundM.leads_write, InboundM.leads_commit]
    exact h.fail _ _ _ _ _
  · simp only [leads_bind, InboundM.leads_write, InboundM.leads_commit]
    exact (hsession (by simpa using hrollback)).fail _ _ _ _ _

/-- The handler of a block keeps what holds of the committed rows. -/
lemma leads_orFail {α : Type} {phase error : Str} {attempt : ℤ} {x : InboundM α}
    {Q : α → InboundState → Prop}
    (h : x.Leads Q (fun _ s => task.Kept s.committed) s) :
    (d.orFail task phase attempt error x).Leads Q (fun _ s => task.Kept s.committed) s := by
  unfold orFail
  rw [leads_handle]
  refine h.mono (fun _ _ h => h) fun r s hs => ?_
  cases r with
  | cancelled => exact hs
  | exception exc =>
    rw [leads_bind]
    exact leads_terminalize hs fun h => by cases h

/-- The session sees what is committed, the job runs, and the deck is recorded or nothing is. -/
structure Started (task : InboundTask) (s : InboundState) : Prop where
  session : s.session = s.committed
  running : task.Running s.committed
  recorded : task.keys s.committed.db = [] ∨ task.RecordedOnce s.committed.db

lemma Started.kept (h : Started task s) : task.Kept s.committed := .of_running h.running h.recorded

/-- The row of the job is in the session behind this statement. -/
lemma leads_openLedger {store : InboundStore} (h : task.Kept store)
    (hs : s = ⟨store, store⟩) :
    (d.openLedger task).Leads
      (fun _ s => s.committed = store ∧ s.session.db = store.db ∧
        ∃ row, s.session.job? task.ledgerJobId = some row ∧
          (row.status.Settled → s.session = store ∧ store.job? task.ledgerJobId = some row))
      (fun _ s => task.Kept s.committed) s := by
  subst hs
  unfold openLedger
  cases hjob : task.jobId with
  | some id =>
    have hledger : task.ledgerJobId = id := by rw [InboundTask.ledgerJobId, hjob, Option.getD_some]
    obtain ⟨row, hrow⟩ := Option.isSome_iff_exists.mp (h.exists_row id hjob)
    rw [← hledger] at hrow
    exact ⟨rfl, rfl, row, hrow, fun _ => ⟨rfl, hrow⟩⟩
  | none =>
    have hledger : task.ledgerJobId = task.derivedJobId := by
      rw [InboundTask.ledgerJobId, hjob, Option.getD_none]
    rw [leads_bind]
    refine leads_raiseAt ?_ fun _ _ => h
    rw [InboundM.leads_write]
    cases hrow : store.job? task.derivedJobId with
    | some row =>
      rw [if_pos Option.isSome_some]
      exact ⟨rfl, rfl, row, hledger ▸ hrow, fun _ => ⟨rfl, hledger ▸ hrow⟩⟩
    | none =>
      rw [if_neg (by rw [Option.isSome_none]; decide)]
      refine ⟨rfl, rfl, createJob task.derivedJobId "process_inbound_pitch", ?_, fun hsettled => ?_⟩
      · unfold InboundStore.job? at hrow ⊢
        rw [hledger, List.find?_append, hrow]
        simp [createJob]
      · change JobStatus.queued.Settled at hsettled
        exact absurd hsettled (by decide)

/-- The start leaves a settled job alone and commits that another one is running. -/
lemma leads_start {store : InboundStore} (h : task.Kept store) (hcommitted : s.committed = store)
    (hdb : s.session.db = store.db) {row : JobRun}
    (hrow : s.session.job? task.ledgerJobId = some row)
    (hsettled : row.status.Settled → s.session = store ∧ store.job? task.ledgerJobId = some row) :
    (d.start task).Leads
      (fun r s => r.2.elim (Started task s) fun _ =>
        task.Kept s.committed ∧ task.Succeeded s.committed)
      (fun _ s => task.Kept s.committed) s := by
  have hkept : task.Kept s.committed := hcommitted ▸ h
  unfold start
  rw [leads_bind]
  refine leads_orFail (leads_raiseAt ?_ fun _ _ => hkept)
  rw [leads_bind, leads_get]
  simp only [hrow]
  rw [leads_ite]
  split_ifs with hend
  · obtain ⟨hsession, hstore⟩ := hsettled hend
    rw [leads_bind]
    refine leads_orFail (leads_raiseAt ?_ fun _ _ => hkept)
    rw [leads_bind, InboundM.leads_commit, leads_pure]
    simp only [Option.elim_some, hsession]
    exact ⟨h, row, hstore, (h.settled row hstore hend).1⟩
  · simp only [leads_bind, InboundM.leads_write]
    refine leads_orFail (leads_raiseAt ?_ fun _ _ => hkept)
    rw [leads_bind, InboundM.leads_commit, leads_pure]
    have hstarted := InboundStore.job?_setJob_self (startJob_id d.now "parsing") hrow
    refine ⟨rfl, ⟨_, hstarted, startJob_status hend⟩, ?_⟩
    have hsame : (s.session.setJob task.ledgerJobId (startJob d.now "parsing")).db = store.db := hdb
    simp only [hsame]
    exact h.recorded

/-- The observations are committed with the progress of the job. -/
lemma leads_persist {attempt : ℤ} (h : Started task s) :
    (d.persist task attempt).Leads
      (fun _ s => s.session = s.committed ∧ task.Recorded s.committed)
      (fun _ s => task.Kept s.committed) s := by
  unfold persist
  rw [leads_bind]
  refine leads_raiseAt ?_ fun _ _ => h.kept
  rw [leads_bind, leads_get]
  cases hprocess : processInboundPitch (d.pitch task) s.session.db with
  | error _ => exact h.kept
  | ok r =>
    obtain ⟨db, created⟩ := r
    simp only [leads_bind, InboundM.leads_write]
    refine leads_raiseAt ?_ fun _ _ => h.kept
    rw [leads_bind, InboundM.leads_commit, leads_pure]
    obtain ⟨row, hrow, -⟩ := h.running
    have hrow' : ({ s.session with db := db } : InboundStore).job? task.ledgerJobId = some row := by
      rw [h.session]
      exact hrow
    refine ⟨rfl, ⟨_, InboundStore.job?_setJob_self (updateJob_id _ _) hrow', rfl⟩, ?_⟩
    rw [h.session] at hprocess
    exact InboundTask.recordedOnce_of_process h.recorded hprocess

/-- Another row of the ledger is changed. -/
lemma InboundTask.Recorded.setJob {store : InboundStore} (h : task.Recorded store) {id : Uuid}
    (hne : task.ledgerJobId ≠ id) {change : JobRun → JobRun}
    (hid : ∀ job, (change job).id = job.id) : task.Recorded (store.setJob id change) := by
  obtain ⟨row, hrow, hstatus⟩ := h.running
  exact ⟨⟨row, by rw [InboundStore.job?_setJob_of_ne hid hne, hrow], hstatus⟩, h.once⟩

/-- The observations stay as they are. -/
lemma InboundTask.Recorded.setDb {store : InboundStore} (h : task.Recorded store) {db : Db}
    (heq : db.observations = store.db.observations) :
    task.Recorded { store with db := db } := ⟨h.running, h.once.congr heq⟩

/-- The deck is recorded and the job is running, in the session and in what is committed. -/
structure Processing (task : InboundTask) (s : InboundState) : Prop where
  committed : task.Recorded s.committed
  session : task.Recorded s.session

/-- Reconciliation changes neither the observations nor the row of the job. -/
lemma leads_reconcileAndDeduplicate (hne : task.ledgerJobId ≠ d.processingJobId)
    (h : Processing task s) :
    (d.reconcileAndDeduplicate task).Leads (fun _ => Processing task)
      (fun _ => Processing task) s := by
  unfold reconcileAndDeduplicate
  rw [leads_bind]
  refine leads_raiseAt ?_ fun _ _ => h
  rw [leads_bind, leads_get]
  cases s.session.db.person? task.pitch.personId with
  | none =>
    simp only [leads_bind, updateProcessing, InboundM.leads_write]
    have hsession := h.session.setJob hne (updateJob_id d.now (JobCall.fail "processing" (some 1)
      "person_not_found" (processingFailure task "person_not_found" (.permanent, false))).args)
    refine leads_raiseAt ?_ fun _ _ => ⟨h.committed, hsession⟩
    exact ⟨hsession, hsession⟩
  | some person =>
    cases hreconcile : reconcileObservations task.pitch.personId d.now d.claimDraw s.session.db with
    | none => exact h
    | some r =>
      obtain ⟨db, created⟩ := r
      have hobs : db.observations = s.session.db.observations := by
        rw [(reconcileObservations_eq_some hreconcile).1]
      simp only [leads_bind, updateProcessing, InboundM.leads_write]
      have hsame : { db with claims := (d.deduplicated db).1 }.observations =
          s.session.db.observations := hobs
      have hdb := h.session.setDb hsame
      have hsession := hdb.setJob hne (updateJob_id d.now (JobCall.complete (some 1) none
        (.obj [("person_id", .str task.pitch.personId.str), ("claims_created", .int created),
          ("embeddings_generated", .int d.embedded),
          ("claims_deduped", .int (d.deduplicated db).2)])).args)
      refine leads_raiseAt ?_ fun _ _ => ⟨h.committed, hsession⟩
      exact ⟨hsession, hsession⟩

/-- The processing has a row of its own. -/
lemma leads_processCandidate (h : Processing task s) :
    (d.processCandidate task).Leads (fun _ => Processing task)
      (fun _ s => task.Kept s.committed) s := by
  unfold processCandidate
  rw [leads_bind]
  refine leads_raiseAt ?_ fun _ _ => h.committed.kept
  rw [leads_bind, leads_get]
  cases hcreate : LedgerStep.run s.session.ledger
      (.create d.processingJobId "process_candidate") with
  | none => exact h.committed.kept
  | some ledger =>
    obtain ⟨row, hrow, hstatus⟩ := h.session.running
    rw [LedgerStep.run] at hcreate
    split_ifs at hcreate with htaken
    cases hcreate
    have hne : task.ledgerJobId ≠ d.processingJobId := fun heq =>
      htaken ⟨row, List.mem_of_find?_eq_some hrow, (InboundStore.id_of_job? hrow).trans heq⟩
    have hcreated : task.Recorded { s.session with
        ledger := s.session.ledger ++ [createJob d.processingJobId "process_candidate"] } := by
      refine ⟨⟨row, ?_, hstatus⟩, h.session.once⟩
      unfold InboundStore.job? at hrow ⊢
      rw [List.find?_append, hrow, Option.some_or]
    have hstarted := hcreated.setJob hne (startJob_id d.now "processing")
    rw [leads_bind, InboundM.leads_write, leads_handle]
    refine Leads.mono (Q := fun _ => Processing task) (E := fun _ => Processing task) ?_
      (fun _ _ h => h) fun r s' hs' => ?_
    · rw [leads_bind, InboundM.leads_write, leads_bind]
      refine leads_raiseAt ?_ fun _ _ => ⟨h.committed, hstarted⟩
      rw [leads_bind, InboundM.leads_commit]
      exact leads_reconcileAndDeduplicate hne ⟨hstarted, hstarted⟩
    · cases r with
      | cancelled => exact hs'.committed.kept
      | exception exc =>
        rw [leads_ite]
        split_ifs
        · exact hs'.committed.kept
        · simp only [leads_bind, updateProcessing, InboundM.leads_rollback, InboundM.leads_write,
            InboundM.leads_commit]
          exact (hs'.committed.setJob hne (updateJob_id _ _)).kept

/-- The success is committed. -/
lemma leads_complete {attempt : ℤ} {result : Json} (h : Processing task s) :
    (d.complete task attempt result).Leads
      (fun _ s => task.Kept s.committed ∧ task.Succeeded s.committed)
      (fun _ s => task.Kept s.committed) s := by
  unfold complete
  rw [leads_bind, InboundM.leads_write, leads_bind]
  refine leads_raiseAt ?_ fun _ _ => h.committed.kept
  rw [InboundM.leads_commit]
  obtain ⟨row, hrow, -⟩ := h.session.running
  have hdone := InboundStore.job?_setJob_self (updateJob_id d.now
    (JobCall.complete (some attempt) (some 1) result).args) hrow
  refine ⟨⟨fun id hid => ?_, fun other hother _ => ?_, Or.inr h.session.once⟩, _, hdone, rfl⟩
  · have hledger : task.ledgerJobId = id := by
      rw [InboundTask.ledgerJobId, Option.mem_def.mp hid, Option.getD_some]
    rw [← hledger, hdone, Option.isSome_some]
  · obtain rfl := Option.some.inj (hdone.symm.trans hother)
    exact ⟨rfl, h.session.once⟩

/-- A result that says of a delivery that it has succeeded. -/
def ReportsSuccess (result : Json) : Prop := ∃ status ∈ result.get? "status", status.isStr "success"

lemma not_reportsSuccess_failure (error : Str) (kind : FailureKind × Bool) :
    ¬ ReportsSuccess (failure task error kind) := by
  rintro ⟨status, hstatus, hsuccess⟩
  have hfailed : (failure task error kind).get? "status" = some (.str "failed") := rfl
  rw [hfailed] at hstatus
  obtain rfl := Option.some.inj hstatus
  revert hsuccess
  decide

/-- A failure that is returned. -/
lemma leads_refuse {phase error : Str} {attempt : ℤ} {kind : FailureKind × Bool}
    (h : task.Kept s.committed) (hsession : task.Kept s.session) :
    (d.refuse task phase attempt error kind).Leads
      (fun result s => task.Kept s.committed ∧
        (ReportsSuccess result → task.Succeeded s.committed))
      (fun _ s => task.Kept s.committed) s := by
  unfold refuse
  rw [leads_bind]
  refine (leads_terminalize h fun _ => hsession).mono (fun _ s hs => ?_) fun _ _ h => h
  exact ⟨hs, fun hsuccess => absurd hsuccess (not_reportsSuccess_failure error kind)⟩

/-- What follows once the deck is read. -/
lemma leads_persistAndProcess {attempt : ℤ} (h : Started task s) :
    (d.persistAndProcess task attempt).Leads
      (fun result s => task.Kept s.committed ∧
        (ReportsSuccess result → task.Succeeded s.committed))
      (fun _ s => task.Kept s.committed) s := by
  unfold persistAndProcess
  rw [leads_bind]
  refine (leads_orFail (leads_persist h)).mono (fun created s hs => ?_) fun _ _ h => h
  have hprocessing : Processing task s := ⟨hs.2, hs.1 ▸ hs.2⟩
  rw [leads_bind]
  refine (leads_orFail (leads_processCandidate hprocessing)).mono (fun processing s hs => ?_)
    fun _ _ h => h
  rw [leads_ite]
  split_ifs
  · exact leads_refuse hs.committed.kept hs.session.kept
  · rw [leads_bind]
    refine (leads_orFail (leads_complete hs)).mono (fun _ s hs => ?_) fun _ _ h => h
    rw [leads_bind]
    refine leads_raiseAt ?_ fun _ _ => hs.1
    exact ⟨hs.1, fun _ => hs.2⟩

/-- **One delivery.** It keeps what holds between deliveries, and if it reports success the job has
succeeded.

**Proof sketch.** The conditions are followed from statement to statement: the start commits that
the job runs, the observations are committed at once (`leads_persist`), the processing leaves them
alone (`leads_processCandidate`), and every handler only records a failure (`leads_orFail`). -/
lemma leads_deliver {store : InboundStore} (h : task.Kept store) :
    (d.deliver task).Leads
      (fun result s => task.Kept s.committed ∧
        (ReportsSuccess result → task.Succeeded s.committed))
      (fun _ s => task.Kept s.committed) ⟨store, store⟩ := by
  unfold deliver
  rw [leads_bind]
  refine (leads_openLedger h rfl).mono (fun _ s hs => ?_) fun _ _ h => h
  obtain ⟨hcommitted, hdb, row, hrow, hsettled⟩ := hs
  rw [leads_bind]
  refine (leads_start h hcommitted hdb hrow hsettled).mono (fun r s hs => ?_) fun _ _ h => h
  obtain ⟨attempt, _ | settled⟩ := r
  · have hstarted : Started task s := hs
    have hsession : task.Kept s.session := hstarted.session ▸ hstarted.kept
    rw [leads_bind]
    refine leads_orFail (leads_raiseAt ?_ fun _ _ => hstarted.kept)
    by_cases hfound : task.pitch.snapshotFound = false
    · rw [if_pos hfound]
      exact leads_refuse hstarted.kept hsession
    rw [if_neg hfound, leads_bind]
    refine leads_orFail (leads_raiseAt ?_ fun _ _ => hstarted.kept)
    rw [leads_bind]
    refine leads_orFail (leads_raiseAt ?_ fun _ _ => hstarted.kept)
    rw [leads_ite]
    split_ifs
    · exact leads_refuse hstarted.kept hsession
    · exact leads_persistAndProcess hstarted
  · exact ⟨hs.1, fun _ => hs.2⟩

/-- The delivery may die at any statement, and an exception may be raised at any statement behind
the commit of its start. -/
def InboundDelivery.Dies (d : InboundDelivery) : Prop :=
  ∀ point exc, d.fails = some (point, .exception exc) → point ∉ [.derive, .start, .startCommit]

/-- A dying delivery passes its handlers. -/
lemma leads_orFail_of_dies {α : Type} {phase error : Str} {attempt : ℤ} {x : InboundM α}
    {P : InboundState → Prop} {Q : α → InboundState → Prop}
    (h : x.Leads Q (fun r s => r = .cancelled ∧ P s) s) :
    (d.orFail task phase attempt error x).Leads Q (fun r s => r = .cancelled ∧ P s) s := by
  unfold orFail
  rw [leads_handle]
  refine h.mono (fun _ _ h => h) fun r s hs => ?_
  obtain ⟨rfl, hP⟩ := hs
  exact ⟨rfl, hP⟩

/-- **A later delivery** finds the job succeeded and changes nothing. -/
lemma deliver_of_succeeded {store : InboundStore} (hdies : d.Dies) (h : task.Succeeded store) :
    ((d.deliver task).final ⟨store, store⟩).committed = store := by
  obtain ⟨row, hrow, hstatus⟩ := h
  have hsettled : row.status.Settled := Or.inl hstatus
  have hcrash : ∀ point ∈ [InboundPoint.derive, .start, .startCommit], ∀ r,
      d.fails = some (point, r) → r = .cancelled := by
    intro point hpoint r hfails
    cases r with
    | cancelled => rfl
    | exception exc => exact absurd hpoint (hdies point exc hfails)
  have hopen : (d.openLedger task).Leads (fun _ s => s = ⟨store, store⟩)
      (fun _ s => s.committed = store) ⟨store, store⟩ := by
    unfold openLedger
    cases hjob : task.jobId with
    | some id => rfl
    | none =>
      have hledger : task.ledgerJobId = task.derivedJobId := by
        rw [InboundTask.ledgerJobId, hjob, Option.getD_none]
      rw [leads_bind]
      refine leads_raiseAt ?_ fun _ _ => rfl
      rw [InboundM.leads_write, if_pos (by rw [← hledger, hrow, Option.isSome_some])]
  have hall : (d.deliver task).Leads (fun _ s => s.committed = store)
      (fun _ s => s.committed = store) ⟨store, store⟩ := by
    unfold deliver
    rw [leads_bind]
    refine hopen.mono (fun _ s hs => ?_) fun _ _ h => h
    subst hs
    rw [leads_bind]
    refine Leads.mono (Q := fun r s => s.committed = store ∧ r.2 = some row)
      (E := fun r s => r = .cancelled ∧ s.committed = store) ?_ (fun r s hs => ?_)
      fun _ _ h => h.2
    · unfold start
      rw [leads_bind]
      refine leads_orFail_of_dies (leads_raiseAt ?_ fun r hr => ⟨hcrash _ (by decide) r hr, rfl⟩)
      rw [leads_bind, leads_get]
      simp only [hrow]
      rw [if_pos hsettled, leads_bind]
      refine leads_orFail_of_dies (leads_raiseAt ?_ fun r hr => ⟨hcrash _ (by decide) r hr, rfl⟩)
      exact ⟨rfl, rfl⟩
    · obtain ⟨attempt, settled⟩ := r
      obtain ⟨hcommitted, rfl⟩ := hs
      exact hcommitted
  exact leads_final.mp hall

end Statements

/-! ## Runs -/

namespace InboundTask

variable (task : InboundTask)

/-- The rows after a delivery. -/
def afterDelivery (store : InboundStore) (d : InboundDelivery) : InboundStore :=
  ((d.deliver task).final ⟨store, store⟩).committed

/-- The rows after deliveries, one after another. -/
def afterDeliveries (store : InboundStore) (ds : List InboundDelivery) : InboundStore :=
  ds.foldl task.afterDelivery store

variable {task} {store : InboundStore}

lemma Kept.afterDelivery (h : task.Kept store) (d : InboundDelivery) :
    task.Kept (task.afterDelivery store d) :=
  Fallible.leads_final.mp ((leads_deliver h).mono (fun _ _ hs => hs.1) fun _ _ hs => hs)

lemma Kept.afterDeliveries (h : task.Kept store) (ds : List InboundDelivery) :
    task.Kept (task.afterDeliveries store ds) := by
  induction ds generalizing store with
  | nil => exact h
  | cons d ds ih => exact ih (h.afterDelivery d)

lemma afterDeliveries_of_succeeded {ds : List InboundDelivery} (hdies : ∀ d ∈ ds, d.Dies)
    (h : task.Succeeded store) : task.afterDeliveries store ds = store := by
  induction ds with
  | nil => rfl
  | cons d ds ih =>
    have hfirst : task.afterDelivery store d = store :=
      deliver_of_succeeded (hdies d (List.mem_cons_self ..)) h
    rw [afterDeliveries, List.foldl_cons, hfirst]
    exact ih fun e he => hdies e (List.mem_cons_of_mem d he)

end InboundTask

/-- What the submission of a pitch leaves: the row of the job, which has not ended, and no
observation of the deck. A task without a job id may have no row yet. -/
structure InboundTask.Submitted (task : InboundTask) (store : InboundStore) : Prop where
  exists_row : ∀ id ∈ task.jobId, (store.job? id).isSome
  unsettled : ∀ row ∈ store.job? task.ledgerJobId, ¬ row.status.Settled
  fresh : task.pitch.existing store.db = []

lemma InboundTask.Submitted.kept {task : InboundTask} {store : InboundStore}
    (h : task.Submitted store) : task.Kept store where
  exists_row := h.exists_row
  settled row hrow hsettled := absurd hsettled (h.unsettled row hrow)
  recorded := Or.inl (by rw [keys, h.fresh, List.map_nil])

/-- A submission whose task carries the id of its job. -/
def samplePitchTask : InboundTask where
  pitch := samplePitch ["Team", "Market"]
  jobId := some 7
  derivedJobId := 8

/-- The founder and the queued job. -/
def submittedStore : InboundStore where
  db := { persons := [{ id := 1, stableId := "founder", createdAt := 0 }] }
  ledger := [createJob 7 "process_inbound_pitch"]

/-- The `n`-th delivery, stopped at the given point. -/
def sampleDelivery (n : ℕ) (fails : Option (InboundPoint × Raised)) : InboundDelivery where
  now := n
  draw i := Fin.ofNat _ (1000 * n + i)
  processingJobId := Fin.ofNat _ (50 + n)
  claimDraw i := Fin.ofNat _ (5000 * n + i)
  embedded := 0
  deduplicated db := (db.claims, 0)
  fails := fails

-- an exception that is raised at the start is recorded even if the job has succeeded
example : ((samplePitchTask.afterDeliveries submittedStore [sampleDelivery 3 none, sampleDelivery 4
    (some (.startCommit, .exception (.other "timeout" .transient true)))]).job? 7).map
      JobRun.status = some .failed := by
  decide +kernel

end VCBrain
