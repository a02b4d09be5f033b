import VCBrain.Collectors.DiscoveryPages
import VCBrain.Foundation.Fallible
import VCBrain.JobLedger

set_option relaxedAutoImplicit false
set_option autoImplicit false

/-!
# The discovery job and its failures

`discover_job` reserves a result page, starts its row in the ledger, asks a provider for seeds and
persists what it finds. A failure of the provider is handled where it occurs. Other failures are
handled by a wrapper, if the job has noted its page by then and has not marked it as handled.

## Main definitions

* `Raised` — an exception, or the cancellation that no `except Exception` catches.
* `DiscoverPoint` — the statements at which the job can be stopped.
* `discoverJobImpl`, `discoverJob` — the job and its wrapper.
* `Finalised` — the row has failed, the page is returned and nothing is left in the context.

## Main results

* `discoverJob_finalised_iff` — the points at which a stopped job is finalised.

## Design

What the job does with the seeds is one step that is committed as a whole. The entry of another run
in the context has another key, so the context is the entry of this run. Other workers may move the
tracker after the reservation. An exception carries its classification.
-/

namespace VCBrain

/-! ## Exceptions -/

/-- `FailureKind`. -/
inductive FailureKind where
  | transient
  | rateLimited
  | permanent
deriving DecidableEq

/-- The text of a failure kind. -/
def FailureKind.text : FailureKind → Str
  | transient => "transient"
  | rateLimited => "rate_limited"
  | permanent => "permanent"

/-- `ConnectorError`. -/
structure ConnectorError where
  message : Str
  failureKind : FailureKind
  retryable : Bool

/-- An `Exception`. One that is no `ConnectorError` has a text, or else the name of its type, and
is classified by `classify_connector_failure`. -/
inductive Exn where
  | connector (error : ConnectorError)
  | other (detail : Str) (failureKind : FailureKind) (retryable : Bool)

/-- What is raised: an `Exception`, or the cancellation of the task, which is none. -/
inductive Raised where
  | exception (exc : Exn)
  | cancelled

/-- `normalize_connector_error`. -/
def normalizeConnectorError (context : Str) : Exn → ConnectorError
  | .connector error => error
  | .other detail failureKind retryable =>
    { message := context ++ ": " ++ detail, failureKind := failureKind, retryable := retryable }

/-- The result of a failed discovery. -/
def failureResult (failure : ConnectorError) : Json :=
  .obj [("status", .str "failed"), ("error", .str failure.message),
    ("failure_kind", .str failure.failureKind.text), ("retryable", .bool failure.retryable)]

/-! ## State and environment -/

/-- An entry of `_discover_reservations`. -/
structure Reservation where
  page : ℤ
  handled : Bool := false
  attempt : ℤ := 1

/-- The tracker of the query, the row of the job, the entry of the run in the context, and as
history the page reserved, how often the tracker was moved back, and whether something was
raised. -/
structure DiscoverState where
  tracker : RawPage
  job : Option JobRun
  reservation : Option Reservation := none
  reserved : Option ℤ := none
  rollbacks : ℕ := 0
  raised : Bool := false

/-- The tracker moves back, if it points at the page. -/
def DiscoverState.rollBack (page : ℤ) (s : DiscoverState) : DiscoverState :=
  match (Call.rollbackDiscoveryPage page).queue s.tracker with
  | some tracker => { s with tracker := tracker, rollbacks := s.rollbacks + 1 }
  | none => s

namespace DiscoverState

variable (page : ℤ) (s : DiscoverState)

@[simp] lemma rollBack_job : (s.rollBack page).job = s.job := by
  unfold rollBack
  split <;> rfl

@[simp] lemma rollBack_reservation : (s.rollBack page).reservation = s.reservation := by
  unfold rollBack
  split <;> rfl

@[simp] lemma rollBack_reserved : (s.rollBack page).reserved = s.reserved := by
  unfold rollBack
  split <;> rfl

@[simp] lemma rollBack_raised : (s.rollBack page).raised = s.raised := by
  unfold rollBack
  split <;> rfl

/-- A tracker that points at the page moves back to the page before. -/
lemma rollBack_of_tracker (h : s.tracker = .number page) :
    s.rollBack page =
      { s with tracker := .number (max 0 (page - 1)), rollbacks := s.rollbacks + 1 } := by
  have hqueue : (Call.rollbackDiscoveryPage page).queue s.tracker =
      some (.number (max 0 (page - 1))) := by
    rw [h]
    exact if_pos rfl
  unfold rollBack
  rw [hqueue]

end DiscoverState

/-- The statements at which the job can be stopped. Closing a session follows its commit. -/
inductive DiscoverPoint where
  | connectorLookup
  | pageReservation
  | jobStart
  | startCommit
  | startClose
  | settledRollback
  | settledCommit
  | provider
  | persistence
  | commit
  | close
deriving DecidableEq

/-- The arguments of the job and its environment: where it is stopped, whether a rollback fails that
handles a failure, what other workers make of the tracker, and the result of a run that is not
stopped. -/
structure DiscoverEnv where
  source : Str
  hasJobId : Bool := true
  now : Time
  fails : Option (DiscoverPoint × Raised)
  rollbackFails : Bool := false
  others : RawPage → RawPage := id
  result : Json

/-- Computations of the job. -/
abbrev DiscoverM : Type → Type := Fallible Raised DiscoverState

namespace DiscoverEnv

variable (env : DiscoverEnv)

/-- A statement that may raise. -/
def raiseAt (point : DiscoverPoint) : DiscoverM Unit :=
  Fallible.stopAt env.fails (fun _ _ s => { s with raised := true }) point

/-! ## The job -/

/-- `get_discovery_page`, and the entry in the context. -/
def reservePage : DiscoverM ℤ := do
  let s ← Fallible.get
  let page := nextDiscoveryPage s.tracker
  Fallible.modify fun s =>
    { s with tracker := env.others (.number page), reserved := some page
             reservation := some { page := page } }
  pure page

/-- `rollback_discovery_page`. -/
def rollbackPage (page : ℤ) : DiscoverM Unit := Fallible.modify fun s => s.rollBack page

/-- The rollback of a handler, which logs a failure. -/
def tryRollbackPage (page : ℤ) : DiscoverM Unit :=
  if env.rollbackFails then pure () else rollbackPage page

/-- The row of the job is changed and committed. -/
def writeJob (change : JobRun → JobRun) : DiscoverM Unit :=
  if env.hasJobId then Fallible.modify fun s => { s with job := s.job.map change } else pure ()

/-- The entry of the run is changed. -/
def setReservation (change : Reservation → Reservation) : DiscoverM Unit :=
  Fallible.modify fun s => { s with reservation := s.reservation.map change }

/-- `reservation["attempt"]`. -/
def attempt (s : DiscoverState) : ℤ := (s.reservation.map Reservation.attempt).getD 1

/-- `started_job.result or {"status": started_job.status}` of a settled row. -/
def settledResult (job : JobRun) : Json :=
  match job.result with
  | some (.obj (field :: fields)) => .obj (field :: fields)
  | _ => .obj [("status", .str (if job.status = .cancelled then "cancelled" else "succeeded"))]

/-- The row of a job that succeeded or was cancelled: the page goes back. -/
def returnSettled (page : ℤ) (job : JobRun) : DiscoverM (Option Json) := do
  setReservation fun r => { r with handled := true }
  env.raiseAt .settledRollback
  rollbackPage page
  env.raiseAt .settledCommit
  pure (some (settledResult job))

/-- The row as it was started is committed. -/
def commitStart (change : JobRun → JobRun) : DiscoverM (Option Json) := do
  env.raiseAt .startCommit
  env.writeJob change
  env.raiseAt .startClose
  pure none

/-- The block that starts the row; the result of a job that is settled. -/
def startDiscovery (page : ℤ) : DiscoverM (Option Json) :=
  if env.hasJobId then do
    env.raiseAt .jobStart
    let s ← Fallible.get
    match s.job with
    | none => env.commitStart id
    | some job => do
      let started := startJob env.now "discover" job
      setReservation fun r => { r with attempt := max 1 started.attempt }
      if started.status.Settled then env.returnSettled page started
      else env.commitStart fun _ => started
  else pure none

/-- The handler of a failure of the provider. -/
def failDiscovery (page : ℤ) (exc : Exn) : DiscoverM Json := do
  setReservation fun r => { r with handled := true }
  let failure := normalizeConnectorError (env.source ++ "_discover_failed") exc
  env.tryRollbackPage page
  let s ← Fallible.get
  env.writeJob (updateJob env.now (JobCall.fail "discover" (some (attempt s)) failure.message
    (failureResult failure)).args)
  if failure.retryable then Fallible.raise (.exception (.connector failure))
  else pure (failureResult failure)

/-- `except Exception`. -/
def exceptException {α : Type} (x : DiscoverM α) (handler : Exn → DiscoverM α) : DiscoverM α :=
  x.handle fun r =>
    match r with
    | .exception exc => handler exc
    | .cancelled => Fallible.raise .cancelled

/-- The provider call and its validation; the result of a failure that is not raised again. -/
def discoverSeeds (page : ℤ) : DiscoverM (Option Json) :=
  exceptException
    (do env.raiseAt .provider; pure none)
    (fun exc => some <$> env.failDiscovery page exc)

/-- The transaction that persists the seeds and ends the row. -/
def persistSeeds : DiscoverM Json := do
  env.raiseAt .persistence
  env.raiseAt .commit
  let s ← Fallible.get
  env.writeJob fun job =>
    updateJob env.now (JobCall.complete none none env.result).args
      (updateJob env.now (JobCall.advance "collect" (attempt s) false none).args job)
  env.raiseAt .close
  pure env.result

/-- `_discover_job_impl`. -/
def discoverJobImpl : DiscoverM Json := do
  env.raiseAt .connectorLookup
  env.raiseAt .pageReservation
  let page ← env.reservePage
  match ← env.startDiscovery page with
  | some result => pure result
  | none =>
    match ← env.discoverSeeds page with
    | some result => pure result
    | none => env.persistSeeds

/-- `reservations.pop(reservation_key, None)`. -/
def popReservation : DiscoverM (Option Reservation) := do
  let s ← Fallible.get
  Fallible.modify fun s => { s with reservation := none }
  pure s.reservation

/-- What the wrapper does with a failure that is not handled yet. -/
def finalizeFailure (reservation : Reservation) (failure : ConnectorError) : DiscoverM Unit := do
  env.tryRollbackPage reservation.page
  env.writeJob (updateJob env.now (JobCall.fail "discover" (some reservation.attempt)
    failure.message (failureResult failure)).args)

/-- How the wrapper ends after an exception. -/
def endFailure (exc : Exn) (finalized : Bool) : DiscoverM Json :=
  match exc with
  | .connector error =>
    if error.retryable then Fallible.raise (.exception exc) else pure (failureResult error)
  | .other _ _ _ =>
    let failure := normalizeConnectorError (env.source ++ "_discover_failed") exc
    if !finalized then Fallible.raise (.exception exc)
    else if failure.retryable then Fallible.raise (.exception (.connector failure))
    else pure (failureResult failure)

/-- The `except` block of the wrapper. -/
def catchFailure (exc : Exn) : DiscoverM Json := do
  match ← popReservation with
  | some reservation =>
    if reservation.handled then env.endFailure exc false
    else do
      env.finalizeFailure reservation
        (normalizeConnectorError (env.source ++ "_discover_failed") exc)
      env.endFailure exc true
  | none => env.endFailure exc false

/-- `discover_job`. -/
def discoverJob : DiscoverM Json :=
  exceptException
    (do
      let result ← env.discoverJobImpl
      let _ ← popReservation
      pure result)
    env.catchFailure

end DiscoverEnv

/-! ## Finalisation -/

/-- The row has failed, and its result names the kind of the failure. -/
def JobRun.FailedWithKind (job : JobRun) : Prop :=
  job.status = .failed ∧ ∃ result ∈ job.result, (result.get? "failure_kind").isSome

instance : DecidablePred JobRun.FailedWithKind :=
  fun job => inferInstanceAs (Decidable (_ ∧ ∃ result ∈ job.result, _))

namespace DiscoverEnv

variable (env : DiscoverEnv)

/-- The state in which the job begins. -/
def initial (tracker : RawPage) (job : Option JobRun) : DiscoverState where
  tracker := tracker
  job := job

/-- No other worker has moved the tracker from the page. -/
def Unmoved (page : ℤ) : Prop := env.others (.number page) = .number page

/-- A discovery that was stopped is finalised: its row has failed with a failure kind, its page is
returned exactly once if the tracker was not moved, and nothing is left in the context. -/
structure Finalised (s : DiscoverState) : Prop where
  job : env.hasJobId = true → ∀ job ∈ s.job, job.FailedWithKind
  page : ∀ page ∈ s.reserved, env.Unmoved page →
    s.rollbacks = 1 ∧ s.tracker = .number (max 0 (page - 1))
  context : s.reservation.isNone

/-- The condition for it: before the page is reserved the row has to have failed already; later what
is raised has to be an exception, not in the block for a settled row, and the page can be returned
unless the tracker was moved. -/
def Finalisable (tracker : RawPage) (job : Option JobRun) : Prop :=
  match env.fails with
  | none => True
  | some (point, r) =>
    match point with
    | .connectorLookup | .pageReservation =>
      env.hasJobId = true → ∀ j ∈ job, JobRun.FailedWithKind j
    | .settledRollback | .settledCommit => False
    | _ => (∃ exc, r = .exception exc) ∧
        (env.rollbackFails = true → ¬ env.Unmoved (nextDiscoveryPage tracker))

/-- The state the job leaves. -/
def finalState (tracker : RawPage) (job : Option JobRun) : DiscoverState :=
  env.discoverJob.final (initial tracker job)

end DiscoverEnv

/-! ## Proofs -/

section Rules

variable {env : DiscoverEnv} {E : Raised → DiscoverState → Prop} {s : DiscoverState}

open Fallible DiscoverEnv

lemma leads_exceptException {α : Type} {x : DiscoverM α} {handler : Exn → DiscoverM α}
    {Q : α → DiscoverState → Prop} :
    (exceptException x handler).Leads Q E s ↔ x.Leads Q (fun r s =>
      match r with
      | .exception exc => (handler exc).Leads Q E s
      | .cancelled => E .cancelled s) s := by
  unfold exceptException
  rw [leads_handle]
  exact iff_of_eq (congrArg (fun E => x.Leads Q E s) (funext fun r => by cases r <;> rfl))

lemma leads_writeJob {change : JobRun → JobRun} {Q : Unit → DiscoverState → Prop} :
    (env.writeJob change).Leads Q E s ↔
      Q () { s with job := if env.hasJobId then s.job.map change else s.job } := by
  unfold writeJob
  cases env.hasJobId <;> rfl

/-- The rows of a job after a failure is written. -/
lemma failedWithKind_fail {now : Time} {attempt : ℤ} {failure : ConnectorError} {job : JobRun} :
    (updateJob now (JobCall.fail "discover" (some attempt) failure.message
      (failureResult failure)).args job).FailedWithKind :=
  ⟨rfl, failureResult failure, rfl, rfl⟩

end Rules

/-! ## What each part leaves -/

section Parts

open Fallible DiscoverEnv

variable (env : DiscoverEnv) (tracker : RawPage)

/-- The page is reserved and noted in the context, and no failure is handled yet. -/
structure Open (s : DiscoverState) : Prop where
  reservation : ∃ attempt, s.reservation =
    some { page := nextDiscoveryPage tracker, handled := false, attempt := attempt }
  reserved : s.reserved = some (nextDiscoveryPage tracker)
  tracker : s.tracker = env.others (.number (nextDiscoveryPage tracker))
  rollbacks : s.rollbacks = 0

/-- A handler has returned the page, if that did not fail. -/
structure Returned (s : DiscoverState) : Prop where
  reserved : s.reserved = some (nextDiscoveryPage tracker)
  returned : env.rollbackFails = false → env.Unmoved (nextDiscoveryPage tracker) →
    s.rollbacks = 1 ∧ s.tracker = .number (max 0 (nextDiscoveryPage tracker - 1))
  kept : env.rollbackFails = true → s.rollbacks = 0

/-- A handler has also written the row. -/
structure Closed (s : DiscoverState) : Prop extends Returned env tracker s where
  job : env.hasJobId = true → ∀ job ∈ s.job, job.FailedWithKind

variable {env tracker} {s : DiscoverState}

/-- Changes of the row, and of what is said about the run, keep the reservation open. -/
lemma Open.congr {s' : DiscoverState} (h : Open env tracker s)
    (hreservation : s'.reservation = s.reservation) (hreserved : s'.reserved = s.reserved)
    (htracker : s'.tracker = s.tracker) (hrollbacks : s'.rollbacks = s.rollbacks) :
    Open env tracker s' :=
  ⟨hreservation ▸ h.reservation, hreserved ▸ h.reserved, htracker ▸ h.tracker,
    hrollbacks ▸ h.rollbacks⟩

/-- A handler returns the page. -/
lemma leads_tryRollbackPage (hreserved : s.reserved = some (nextDiscoveryPage tracker))
    (htracker : s.tracker = env.others (.number (nextDiscoveryPage tracker)))
    (hrollbacks : s.rollbacks = 0) {E : Raised → DiscoverState → Prop} :
    (env.tryRollbackPage (nextDiscoveryPage tracker)).Leads
      (fun _ s' => Returned env tracker s' ∧ s'.reservation = s.reservation) E s := by
  unfold tryRollbackPage rollbackPage
  rw [leads_ite]
  by_cases hfails : env.rollbackFails = true
  · rw [if_pos hfails, leads_pure]
    exact ⟨⟨hreserved, fun h => absurd hfails (by rw [h]; nofun), fun _ => hrollbacks⟩, rfl⟩
  · rw [if_neg hfails, leads_modify]
    refine ⟨⟨?_, fun _ hunmoved => ?_, fun h => absurd h hfails⟩, s.rollBack_reservation _⟩
    · rw [s.rollBack_reserved]
      exact hreserved
    · rw [s.rollBack_of_tracker _ (htracker.trans hunmoved)]
      exact ⟨by rw [hrollbacks], rfl⟩

/-- A handler writes the row. -/
lemma Returned.closed (h : Returned env tracker s) (attempt : ℤ) (failure : ConnectorError) :
    Closed env tracker { s with job :=
      if env.hasJobId then s.job.map (updateJob env.now (JobCall.fail "discover" (some attempt)
        failure.message (failureResult failure)).args) else s.job } := by
  refine ⟨⟨h.reserved, h.returned, h.kept⟩, fun hid job hmem => ?_⟩
  simp only [hid, if_true] at hmem
  obtain ⟨j, -, rfl⟩ := Option.map_eq_some_iff.mp hmem
  exact failedWithKind_fail

/-- A closed reservation that has left the context is finalised, unless the page could not be
returned. -/
lemma Closed.finalised_iff (h : Closed env tracker s) (hcontext : s.reservation = none) :
    env.Finalised s ↔
      (env.rollbackFails = true → ¬ env.Unmoved (nextDiscoveryPage tracker)) := by
  constructor
  · intro hfinal hfails hunmoved
    have hreturned := (hfinal.page _ h.reserved hunmoved).1
    rw [h.kept hfails] at hreturned
    cases hreturned
  · intro hcondition
    refine ⟨h.job, fun page hpage hunmoved => ?_, by rw [hcontext]; rfl⟩
    obtain rfl : nextDiscoveryPage tracker = page := Option.some.inj (h.reserved.symm.trans hpage)
    cases hfails : env.rollbackFails with
    | false => exact h.returned hfails hunmoved
    | true => exact absurd hunmoved (hcondition hfails)

/-- The handler of the provider. -/
lemma leads_failDiscovery (h : Open env tracker s) (exc : Exn) :
    (env.failDiscovery (nextDiscoveryPage tracker) exc).Leads
      (fun _ s' => Closed env tracker s' ∧ ∃ r ∈ s'.reservation, r.handled = true)
      (fun r s' => (Closed env tracker s' ∧ ∃ r ∈ s'.reservation, r.handled = true) ∧
        ∃ exc, r = .exception exc) s := by
  obtain ⟨attempt, hreservation⟩ := h.reservation
  unfold failDiscovery setReservation
  rw [leads_bind, leads_modify, leads_bind]
  have hreturned := leads_tryRollbackPage (s := { s with
    reservation := s.reservation.map fun r => { r with handled := true } })
    (E := fun r s' => (Closed env tracker s' ∧ ∃ r ∈ s'.reservation, r.handled = true) ∧
      ∃ exc, r = .exception exc) h.reserved h.tracker h.rollbacks
  refine hreturned.mono ?_ fun _ _ h => h
  intro _ s' hs'
  rw [leads_bind, leads_get, leads_bind, leads_writeJob, leads_ite]
  have hclosed := hs'.1.closed (DiscoverEnv.attempt s')
    (normalizeConnectorError (env.source ++ "_discover_failed") exc)
  have hhandled : ∃ r ∈ s'.reservation, r.handled = true := by
    rw [hs'.2, hreservation]
    exact ⟨_, rfl, rfl⟩
  by_cases hretryable : (normalizeConnectorError (env.source ++ "_discover_failed") exc).retryable
  · rw [if_pos hretryable]
    exact ⟨⟨hclosed, hhandled⟩, _, rfl⟩
  · rw [if_neg hretryable]
    exact ⟨hclosed, hhandled⟩

/-- The points at which a failure reaches the wrapper with an open reservation. -/
def DiscoverPoint.IsOpen (r : Raised) : DiscoverPoint → Prop
  | .provider => r = .cancelled
  | .jobStart | .startCommit | .startClose | .persistence | .commit | .close => True
  | _ => False

variable (env tracker) in
/-- What the job leaves when it raises. -/
inductive Stopped (row : Option JobRun) : Raised → DiscoverState → Prop where
  | early {point : DiscoverPoint} {r : Raised} (hfails : env.fails = some (point, r))
      (hpoint : point = .connectorLookup ∨ point = .pageReservation) :
      Stopped row r { initial tracker row with raised := true }
  | opened {point : DiscoverPoint} {r : Raised} {s : DiscoverState}
      (hfails : env.fails = some (point, r)) (hpoint : point.IsOpen r)
      (hopen : Open env tracker s) :
      Stopped row r s
  | settled {point : DiscoverPoint} {r : Raised} {s : DiscoverState} {job : JobRun}
      {reservation : Reservation} (hfails : env.fails = some (point, r))
      (hpoint : point = .settledRollback ∨ point = .settledCommit) (hid : env.hasJobId = true)
      (hjob : s.job = some job) (hsettled : job.status.Settled)
      (hreservation : s.reservation = some reservation) (hhandled : reservation.handled = true) :
      Stopped row r s
  | handled {exc exc' : Exn} {s : DiscoverState} {reservation : Reservation}
      (hfails : env.fails = some (.provider, .exception exc')) (hclosed : Closed env tracker s)
      (hreservation : s.reservation = some reservation) (hhandled : reservation.handled = true) :
      Stopped row (.exception exc) s

/-- The start of the row is committed. -/
lemma leads_commitStart {row : Option JobRun} (h : Open env tracker s) (hraised : s.raised = false)
    (change : JobRun → JobRun) :
    (env.commitStart change).Leads
      (fun res s' => res = none ∧ Open env tracker s' ∧ s'.raised = false)
      (Stopped env tracker row) s := by
  unfold commitStart
  rw [leads_bind]
  refine leads_stopAt ?_ fun r hr => .opened hr trivial (h.congr rfl rfl rfl rfl)
  rw [leads_bind, leads_writeJob, leads_bind]
  refine leads_stopAt ?_ fun r hr => .opened hr trivial (h.congr rfl rfl rfl rfl)
  exact ⟨rfl, h.congr rfl rfl rfl rfl, hraised⟩

/-- The row of a settled job. -/
lemma leads_returnSettled {row : Option JobRun} (h : Open env tracker s)
    (hraised : s.raised = false) (hid : env.hasJobId = true) {job started : JobRun}
    (hjob : s.job = some job) (hsettled : job.status.Settled) (page : ℤ) :
    (env.returnSettled page started).Leads (fun res s' => res.isSome ∧ s'.raised = false)
      (Stopped env tracker row) s := by
  obtain ⟨attempt, hreservation⟩ := h.reservation
  unfold returnSettled setReservation rollbackPage
  rw [leads_bind, leads_modify, leads_bind]
  refine leads_stopAt ?_ fun r hr =>
    .settled hr (Or.inl rfl) hid hjob hsettled (by rw [hreservation]; rfl) rfl
  rw [leads_bind, leads_modify, leads_bind]
  refine leads_stopAt ⟨rfl, (DiscoverState.rollBack_raised ..).trans hraised⟩ fun r hr => ?_
  have hmarked : s.reservation.map (fun r => { r with handled := true }) =
      some { page := nextDiscoveryPage tracker, handled := true, attempt := attempt } := by
    rw [hreservation]
    rfl
  exact .settled hr (Or.inr rfl) hid ((DiscoverState.rollBack_job ..).trans hjob) hsettled
    ((DiscoverState.rollBack_reservation ..).trans hmarked) rfl

/-- The block that starts the row. -/
lemma leads_startDiscovery {row : Option JobRun} (h : Open env tracker s)
    (hraised : s.raised = false) (page : ℤ) :
    (env.startDiscovery page).Leads
      (fun res s' => s'.raised = false ∧ (res = none → Open env tracker s'))
      (Stopped env tracker row) s := by
  have hcommit : ∀ (s : DiscoverState) (change : JobRun → JobRun), Open env tracker s →
      s.raised = false → (env.commitStart change).Leads
        (fun res s' => s'.raised = false ∧ (res = none → Open env tracker s'))
        (Stopped env tracker row) s := fun s change hs hraised =>
    (leads_commitStart hs hraised change).mono (fun _ _ h => ⟨h.2.2, fun _ => h.2.1⟩) fun _ _ h => h
  unfold startDiscovery
  by_cases hid : env.hasJobId = true
  · rw [if_pos hid, leads_bind]
    refine leads_stopAt ?_ fun r hr => .opened hr trivial (h.congr rfl rfl rfl rfl)
    rw [leads_bind, leads_get]
    cases hjob : s.job with
    | none => exact hcommit s id h hraised
    | some job =>
      obtain ⟨attempt, hreservation⟩ := h.reservation
      have hopen : Open env tracker { s with reservation := s.reservation.map fun r =>
          { r with attempt := max 1 (startJob env.now "discover" job).attempt } } :=
        ⟨⟨_, by rw [hreservation]; rfl⟩, h.reserved, h.tracker, h.rollbacks⟩
      unfold setReservation
      rw [leads_bind, leads_modify, leads_ite]
      split_ifs with hsettled
      · rw [settled_startJob_iff] at hsettled
        refine (leads_returnSettled hopen hraised hid hjob hsettled page).mono ?_ fun _ _ h => h
        intro res s' hs'
        refine ⟨hs'.2, fun hnone => ?_⟩
        rw [hnone] at hs'
        cases hs'.1
      · exact hcommit _ _ hopen hraised
  · rw [if_neg hid]
    exact ⟨hraised, fun _ => h⟩

/-- The provider call. -/
lemma leads_discoverSeeds {row : Option JobRun} (h : Open env tracker s)
    (hraised : s.raised = false) :
    (env.discoverSeeds (nextDiscoveryPage tracker)).Leads
      (fun res s' => (res = none ∧ Open env tracker s' ∧ s'.raised = false) ∨
        (res.isSome ∧ Closed env tracker s' ∧
          ∃ exc, env.fails = some (.provider, .exception exc)))
      (Stopped env tracker row) s := by
  unfold discoverSeeds
  rw [leads_exceptException, leads_bind]
  refine leads_stopAt (Or.inl ⟨rfl, h, hraised⟩) fun r hr => ?_
  cases r with
  | cancelled => exact .opened hr rfl (h.congr rfl rfl rfl rfl)
  | exception exc =>
    have hopen : Open env tracker { s with raised := true } := h.congr rfl rfl rfl rfl
    refine leads_map.mpr ((leads_failDiscovery hopen exc).mono ?_ ?_)
    · intro res s' hs'
      exact Or.inr ⟨rfl, hs'.1, exc, hr⟩
    · rintro _ s' ⟨⟨hclosed, reservation, hreservation, hhandled⟩, exc', rfl⟩
      exact .handled hr hclosed hreservation hhandled

/-- The transaction that persists the seeds. -/
lemma leads_persistSeeds {row : Option JobRun} (h : Open env tracker s)
    (hraised : s.raised = false) :
    env.persistSeeds.Leads (fun _ s' => s'.raised = false) (Stopped env tracker row) s := by
  unfold persistSeeds
  rw [leads_bind]
  refine leads_stopAt ?_ fun r hr => .opened hr trivial (h.congr rfl rfl rfl rfl)
  rw [leads_bind]
  refine leads_stopAt ?_ fun r hr => .opened hr trivial (h.congr rfl rfl rfl rfl)
  rw [leads_bind, leads_get, leads_bind, leads_writeJob, leads_bind]
  exact leads_stopAt hraised fun r hr => .opened hr trivial (h.congr rfl rfl rfl rfl)

/-- The job. -/
lemma leads_discoverJobImpl (row : Option JobRun) :
    env.discoverJobImpl.Leads
      (fun _ s' => s'.raised = false ∨ (Closed env tracker s' ∧
        ∃ exc, env.fails = some (.provider, .exception exc)))
      (Stopped env tracker row) (initial tracker row) := by
  unfold discoverJobImpl
  rw [leads_bind]
  refine leads_stopAt ?_ fun r hr => .early hr (Or.inl rfl)
  rw [leads_bind]
  refine leads_stopAt ?_ fun r hr => .early hr (Or.inr rfl)
  unfold reservePage
  simp only [leads_bind, leads_get, leads_modify, leads_pure]
  have hopen : Open env tracker
      { tracker := env.others (.number (nextDiscoveryPage tracker)), job := row
        reservation := some { page := nextDiscoveryPage tracker }
        reserved := some (nextDiscoveryPage tracker) } := ⟨⟨1, rfl⟩, rfl, rfl, rfl⟩
  refine (leads_startDiscovery hopen rfl _).mono ?_ fun _ _ h => h
  intro res s₁ hs₁
  cases res with
  | some result => exact Or.inl hs₁.1
  | none =>
    rw [leads_bind]
    refine (leads_discoverSeeds (hs₁.2 rfl) hs₁.1).mono ?_ fun _ _ h => h
    intro res s₂ hs₂
    rcases hs₂ with ⟨rfl, hopen₂, hraised₂⟩ | ⟨hres, hclosed, hexc⟩
    · exact (leads_persistSeeds hopen₂ hraised₂).mono (fun _ _ h => Or.inl h) fun _ _ h => h
    · cases res with
      | none => cases hres
      | some result => exact Or.inr ⟨hclosed, hexc⟩

/-! ## The wrapper -/

/-- The wrapper, after an exception. -/
lemma leads_endFailure {exc : Exn} {finalized : Bool} {P : DiscoverState → Prop} :
    (env.endFailure exc finalized).Leads (fun _ => P) (fun _ => P) s ↔ P s := by
  unfold endFailure
  cases exc with
  | connector error =>
    simp only [leads_ite, leads_raise, leads_pure, ite_self]
  | other detail failureKind retryable =>
    simp only [leads_ite, leads_raise, leads_pure, ite_self]

/-- A job that has written its failure is finalised exactly under the condition. -/
lemma Closed.finalised_iff_finalisable {row : Option JobRun} (h : Closed env tracker s)
    (hcontext : s.reservation = none) {point : DiscoverPoint} {exc : Exn}
    (hfails : env.fails = some (point, .exception exc))
    (hpoint : point.IsOpen (.exception exc) ∨ point = .provider) :
    env.Finalised s ↔ env.Finalisable tracker row := by
  rw [h.finalised_iff hcontext]
  unfold Finalisable
  rw [hfails]
  have hexc : ∃ e, Raised.exception exc = .exception e := ⟨exc, rfl⟩
  cases point with
  | connectorLookup | pageReservation | settledRollback | settledCommit =>
    rcases hpoint with hpoint | hpoint <;> cases hpoint
  | _ => exact (and_iff_right hexc).symm

/-- A job that stops before the page is reserved. -/
lemma early_iff {row : Option JobRun} {point : DiscoverPoint} {r : Raised}
    (hfails : env.fails = some (point, r))
    (hpoint : point = .connectorLookup ∨ point = .pageReservation) :
    env.Finalised { initial tracker row with raised := true } ↔ env.Finalisable tracker row := by
  have hcondition : env.Finalisable tracker row ↔
      (env.hasJobId = true → ∀ job ∈ row, job.FailedWithKind) := by
    unfold Finalisable
    rw [hfails]
    rcases hpoint with rfl | rfl <;> rfl
  rw [hcondition]
  exact ⟨fun h => h.job, fun h => ⟨h, nofun, rfl⟩⟩

/-- A job that stops in the block for a settled row. -/
lemma settled_iff {row : Option JobRun} {point : DiscoverPoint} {r : Raised} {job : JobRun}
    (hfails : env.fails = some (point, r))
    (hpoint : point = .settledRollback ∨ point = .settledCommit) (hid : env.hasJobId = true)
    (hjob : s.job = some job) (hsettled : job.status.Settled) :
    env.Finalised s ↔ env.Finalisable tracker row := by
  refine iff_of_false (fun h => ?_) fun h => ?_
  · have hfailed := (h.job hid job hjob).1
    rw [hfailed] at hsettled
    exact absurd hsettled (by decide)
  · unfold Finalisable at h
    rw [hfails] at h
    rcases hpoint with rfl | rfl <;> exact h

/-- What the wrapper makes of a job that has raised. -/
lemma leads_wrapper {row : Option JobRun} {exc : Exn}
    (h : Stopped env tracker row (.exception exc) s) :
    (env.catchFailure exc).Leads
      (fun _ s' => env.Finalised s' ↔ env.Finalisable tracker row)
      (fun _ s' => env.Finalised s' ↔ env.Finalisable tracker row) s := by
  unfold catchFailure popReservation
  simp only [leads_bind, leads_get, leads_modify, leads_pure]
  cases h with
  | early hfails hpoint => exact leads_endFailure.mpr (early_iff hfails hpoint)
  | opened hfails hpoint hopen =>
    obtain ⟨attempt, hreservation⟩ := hopen.reservation
    simp only [hreservation, Bool.false_eq_true, if_false]
    unfold finalizeFailure
    rw [leads_bind, leads_bind]
    have hreturned := leads_tryRollbackPage (s := { s with reservation := none })
      (E := fun _ s' => env.Finalised s' ↔ env.Finalisable tracker row)
      hopen.reserved hopen.tracker hopen.rollbacks
    refine hreturned.mono ?_ fun _ _ h => h
    intro _ s' hs'
    rw [leads_writeJob]
    refine leads_endFailure.mpr ?_
    exact (hs'.1.closed attempt _).finalised_iff_finalisable hs'.2 hfails (Or.inl hpoint)
  | settled hfails hpoint hid hjob hsettled hreservation hhandled =>
    simp only [hreservation, hhandled, if_true]
    exact leads_endFailure.mpr (settled_iff hfails hpoint hid hjob hsettled)
  | handled hfails hclosed hreservation hhandled =>
    simp only [hreservation, hhandled, if_true]
    refine leads_endFailure.mpr ?_
    have hpopped : Closed env tracker { s with reservation := none } :=
      ⟨⟨hclosed.reserved, hclosed.returned, hclosed.kept⟩, hclosed.job⟩
    exact hpopped.finalised_iff_finalisable rfl hfails (Or.inr rfl)

/-- A job that is cancelled after the page was reserved leaves its entry in the context. -/
lemma Open.not_finalised (h : Open env tracker s) : ¬ env.Finalised s := by
  intro hfinal
  obtain ⟨attempt, hreservation⟩ := h.reservation
  have hcontext := hfinal.context
  rw [hreservation] at hcontext
  cases hcontext

/-- The condition excludes cancellations from then on. -/
lemma not_finalisable_cancelled {row : Option JobRun} {point : DiscoverPoint}
    (hfails : env.fails = some (point, .cancelled)) (hpoint : point.IsOpen .cancelled) :
    ¬ env.Finalisable tracker row := by
  have hcancelled : ¬ ∃ exc, Raised.cancelled = .exception exc := nofun
  unfold Finalisable
  rw [hfails]
  cases point with
  | connectorLookup | pageReservation | settledRollback | settledCommit => cases hpoint
  | _ => exact fun h => hcancelled h.1

/-- **Finalisation.** A run of the discovery job in which something is raised is finalised exactly
if it meets the condition: it is stopped before the page is reserved and its row has failed already,
or it is stopped later by an exception, outside the block for a settled row, and its page can be
returned or was moved past.

**Proof sketch.** Until the page is noted in the context the wrapper finds nothing to finalise. From
then on every exception reaches it with the reservation open, apart from those of the provider,
which is closed by its own handler, and those of the block for a settled row, which marks the
reservation as handled first. -/
theorem discoverJob_finalised_iff (env : DiscoverEnv) (tracker : RawPage) (row : Option JobRun)
    (hraised : (env.finalState tracker row).raised = true) :
    env.Finalised (env.finalState tracker row) ↔ env.Finalisable tracker row := by
  have hleads : env.discoverJob.Leads
      (fun _ s => s.raised = true → (env.Finalised s ↔ env.Finalisable tracker row))
      (fun _ s => s.raised = true → (env.Finalised s ↔ env.Finalisable tracker row))
      (initial tracker row) := by
    unfold discoverJob
    rw [leads_exceptException, leads_bind]
    refine (leads_discoverJobImpl row).mono ?_ ?_
    · intro result s' hs'
      unfold popReservation
      simp only [leads_bind, leads_get, leads_modify, leads_pure]
      intro hraised'
      rcases hs' with hfalse | ⟨hclosed, exc, hfails⟩
      · exact absurd (hraised'.symm.trans hfalse) (by decide)
      · have hpopped : Closed env tracker { s' with reservation := none } :=
          ⟨⟨hclosed.reserved, hclosed.returned, hclosed.kept⟩, hclosed.job⟩
        exact hpopped.finalised_iff_finalisable rfl hfails (Or.inr rfl)
    · intro r s' hs'
      cases r with
      | exception exc =>
        exact (leads_wrapper hs').mono (fun _ _ h _ => h) fun _ _ h _ => h
      | cancelled =>
        intro _
        cases hs' with
        | early hfails hpoint => exact early_iff hfails hpoint
        | opened hfails hpoint hopen =>
          exact iff_of_false hopen.not_finalised (not_finalisable_cancelled hfails hpoint)
        | settled hfails hpoint hid hjob hsettled hreservation hhandled =>
          exact settled_iff hfails hpoint hid hjob hsettled
  exact leads_final.mp hleads hraised

end Parts

/-- A run that is stopped while it persists the seeds. -/
def stoppedPersisting : DiscoverEnv where
  source := "github"
  now := 0
  fails := some (.persistence, .exception (.other "connection is closed" .permanent false))
  result := .obj []

/-- It is finalised. -/
theorem finalised_stoppedPersisting :
    stoppedPersisting.Finalised
      (stoppedPersisting.finalState .absent (some (createJob 1 "discover"))) :=
  (discoverJob_finalised_iff stoppedPersisting .absent (some (createJob 1 "discover"))
    (by decide +kernel)).mpr ⟨⟨_, rfl⟩, nofun⟩

/-- A run whose page reservation fails, as it does after three conflicts. -/
def stoppedReserving : DiscoverEnv where
  source := "github"
  now := 0
  fails := some (.pageReservation,
    .exception (.other "discovery page reservation conflicted repeatedly" .permanent false))
  result := .obj []

/-- The run raises, and its row is queued for good. -/
theorem not_finalised_stoppedReserving :
    (stoppedReserving.finalState .absent (some (createJob 1 "discover"))).raised = true ∧
      ¬ stoppedReserving.Finalised
        (stoppedReserving.finalState .absent (some (createJob 1 "discover"))) := by
  refine ⟨by decide +kernel, fun h => ?_⟩
  have hfailed := (h.job rfl _ rfl).1
  revert hfailed
  decide +kernel

end VCBrain
