import VCBrain.Collectors.DiscoverJob
import VCBrain.Collectors.EvidenceStore
import VCBrain.DecisionProposal
import VCBrain.Privacy
import VCBrain.Processing.Trust

set_option relaxedAutoImplicit false
set_option autoImplicit false

/-!
# The research job and its failures

`research_candidate_job` asks a provider about three axes of an opportunity, writes the evidence of
each answer as it comes, and then an assessment of each axis and a score snapshot. All of it is one
transaction. When a search fails, the handler writes the failure to the ledger and commits, without
undoing what was written before. No other statement is guarded.

## Main definitions

* `ResearchPoint` — the statements at which the job can be stopped.
* `researchCandidate` — the job.
* `ResearchComplete`, `ResearchUntouched` — all or nothing.

## Main results

* `research_allOrNothing_iff` — the points at which a stopped job is all or nothing.

## Design

The state keeps what is committed apart from what the session has done since. The texts of the
queries, the hashes of the contents and the score of an answer are inputs.
-/

namespace VCBrain

/-! ## Axes and answers -/

/-- The key of an axis. -/
def Axis.key : Axis → Str
  | founder => "founder"
  | market => "market"
  | ideaMarket => "idea_market"

/-- The axes in the order of the queries. -/
def researchAxes : List Axis := [.founder, .market, .ideaMarket]

/-- A result of a search, with the hash of its JSON text. -/
structure SearchResult where
  url : Str
  title : Str
  content : Str
  score : Option ℚ
  contentHash : Str

/-- What `score_research_axis` returns. -/
structure AxisScore where
  score : ℚ
  confidence : ℚ
  relevance : ℚ
  resultCount : ℕ

/-- An answer of the provider: its text, stripped, the hash of its summary, its results, of which
one that is no object is `none`, and its score. -/
structure SearchAnswer where
  answer : Str
  summaryHash : Str
  results : List (Option SearchResult)
  scored : AxisScore

/-- `_rating`. -/
def ratingOfScore (score : ℚ) : Str :=
  if 67 / 100 ≤ score then "Bullish" else if score < 42 / 100 then "Bearish" else "Neutral"

/-- `_axis_unknowns`. -/
def axisUnknowns (axis : Axis) (resultCount : ℕ) (confidence : ℚ) : List Str :=
  let few : List Str :=
    if resultCount < 3 then ["Fewer than three relevant public sources were found"] else []
  let weak : List Str :=
    if confidence < 55 / 100 then
      ["Evidence confidence is below the investment-review threshold"]
    else []
  let diligence : Str :=
    match axis with
    | .founder => "Private references and team feedback require human diligence"
    | .market => "Bottom-up market sizing has not been independently verified"
    | .ideaMarket => "Customer retention and unit economics require primary evidence"
  few ++ weak ++ [diligence]

/-! ## State and environment -/

/-- The statements at which the job can be stopped. `evidence` is the `i`-th of an axis, with all
that is done to it. -/
inductive ResearchPoint where
  | start
  | startCommit
  | prepare
  | refusalCommit
  | search (axis : Axis)
  | score (axis : Axis)
  | evidence (axis : Axis) (i : ℕ)
  | assess
  | commit
  | close
deriving DecidableEq

/-- The arguments of the job and its environment. -/
structure ResearchEnv where
  personIdText : Str
  personId : Option Uuid
  opportunityId : Option Uuid
  hasJobId : Bool := true
  apiKey : Bool := true
  clientFails : Bool := false
  query : Axis → Str := fun _ => []
  answer : Axis → SearchAnswer
  md5 : List UInt8 → Str
  now : Time
  ids : Axis → ℕ → EvidenceIds
  assessmentId : Axis → Uuid
  snapshotId : Uuid
  fails : Option (ResearchPoint × Raised)
  handlerFails : Bool := false

/-- The tables and the row of the job. -/
structure ResearchStore where
  db : Db
  job : Option JobRun

/-- What is committed, what the session sees, and as history where the job was stopped. -/
structure ResearchState where
  committed : ResearchStore
  session : ResearchStore
  stopped : Option (ResearchPoint × Raised) := none

/-- Computations of the job. -/
abbrev ResearchM : Type → Type := Fallible Raised ResearchState

namespace ResearchEnv

variable (env : ResearchEnv)

/-- The point is noted. -/
def note (point : ResearchPoint) (r : Raised) (s : ResearchState) : ResearchState :=
  { s with stopped := some (point, r) }

/-- A statement that may raise. -/
def raiseAt (point : ResearchPoint) : ResearchM Unit := Fallible.stopAt env.fails note point

/-- `session.commit()`. -/
def commitSession : ResearchM Unit := Fallible.modify fun s => { s with committed := s.session }

/-- The row of the job is changed in the session. -/
def setJob (change : JobRun → JobRun) : ResearchM Unit :=
  if env.hasJobId then
    Fallible.modify fun s =>
      { s with session := { s.session with job := s.session.job.map change } }
  else pure ()

/-! ## Evidence -/

/-- `license_hint`. -/
def licenseHint (axis : Axis) : Json :=
  .obj [("source", .str "Tavily Search"), ("query", .str (env.query axis))]

/-- What is collected of a result; one without URL is skipped. -/
def resultEvidence (axis : Axis) (r : SearchResult) : Option Collected :=
  if r.url = [] then none
  else some
    { sourceType := "tavily_search"
      uri := r.url
      contentHash := r.contentHash
      licenseHint := some (env.licenseHint axis)
      observations := [
        { predicate := "research_" ++ axis.key ++ "_evidence"
          objectValue := r.title ++ " — " ++ r.content
          observedAt := some env.now
          confidence := some (max (1 / 10) (min 1 (r.score.getD (1 / 2)))) }] }

/-- What is collected of the answer itself. -/
def summaryEvidence (axis : Axis) (a : SearchAnswer) : Option Collected :=
  if a.answer = [] then none
  else some
    { sourceType := "tavily_search"
      uri := "https://api.tavily.com/search"
      contentHash := a.summaryHash
      licenseHint := some (env.licenseHint axis)
      observations := [
        { predicate := "research_" ++ axis.key ++ "_summary"
          objectValue := a.answer
          observedAt := some env.now
          confidence := some a.scored.confidence }] }

/-- The evidence of an axis, in the order in which it is written. -/
def evidence (axis : Axis) : List Collected :=
  (env.answer axis).results.reduceOption.filterMap (env.resultEvidence axis) ++
    (env.summaryEvidence axis (env.answer axis)).toList

/-- The writers of the job. -/
def writer (person opportunity : Uuid) : EvidenceWriter where
  md5 := env.md5
  now := env.now
  subjectId := some person
  opportunityId := some opportunity

/-- The `i`-th evidence of an axis is written. -/
def storeEvidence (person opportunity : Uuid) (axis : Axis) (item : Collected × ℕ) :
    ResearchM Unit := do
  env.raiseAt (.evidence axis item.2)
  let s ← Fallible.get
  match writeEvidence (env.writer person opportunity) (env.ids axis item.2) item.1 s.session.db with
  | some db => Fallible.modify fun s => { s with session := { s.session with db := db } }
  | none => do
    let integrityError := Raised.exception (.other "IntegrityError" .permanent false)
    Fallible.modify (note (.evidence axis item.2) integrityError)
    Fallible.raise integrityError

/-! ## The job -/

/-- The payload of `finish_error`. -/
def errorPayload (error : Str) (reason : Option Str) : Json :=
  let details : List (Str × Json) :=
    match reason with
    | some r => [("purpose", .str "research"), ("reason", .str r)]
    | none => []
  .obj (("error", .str error) :: ("person_id", .str env.personIdText) :: details)

/-- `finish_error`. -/
def finishError (attempt : ℤ) (error : Str) (reason : Option Str) : ResearchM Json := do
  env.setJob (updateJob env.now (JobCall.fail "research" (some attempt) (reason.getD error)
    (env.errorPayload error reason)).args)
  env.raiseAt .refusalCommit
  commitSession
  env.raiseAt .close
  pure (env.errorPayload error reason)

/-- `finish_exception`; its own failure leaves the row as it is. -/
def finishException (attempt : ℤ) (message : Str) : ResearchM Unit :=
  if env.handlerFails then pure ()
  else do
    env.setJob (updateJob env.now (JobCall.fail "research" (some attempt) message
      (.obj [("error", .str "research_failed"), ("person_id", .str env.personIdText)])).args)
    if env.hasJobId then commitSession else pure ()

/-- The text of an exception. -/
def message : Exn → Str
  | .connector error => error.message
  | .other detail _ _ => detail

/-- The checks before the research; the error with its reason, or the person and the opportunity. -/
def prepare (db : Db) : Except (Str × Option Str) (Uuid × Uuid) :=
  if !env.apiKey then .error ("tavily_not_configured", none)
  else
    match env.personId with
    | none => .error ("invalid_person_id", none)
    | some personId =>
      match (db.person? personId).filter Person.canonical with
      | none => .error ("person_not_found", none)
      | some person =>
        let aiPolicy := externalAiUseDecision person "research"
        if !aiPolicy.allowed then .error ("external_ai_blocked", some aiPolicy.reason)
        else
          match env.opportunityId with
          | none => .error ("opportunity_id_required", none)
          | some opportunityId =>
            if (db.opportunity? opportunityId).isSome ∧ ∃ f ∈ db.opportunityFounders,
                f.opportunityId = opportunityId ∧ f.personId = personId then
              if env.clientFails then .error ("tavily_client_init_failed", none)
              else .ok (personId, opportunityId)
            else .error ("opportunity_not_found", none)

/-- The search call of an axis. -/
def searchAxis (attempt : ℤ) (axis : Axis) : ResearchM Unit :=
  (env.raiseAt (.search axis)).handle fun r =>
    match r with
    | .exception exc => do
      env.finishException attempt (message exc)
      Fallible.raise r
    | .cancelled => Fallible.raise .cancelled

/-- The body of the loop over the axes. -/
def researchAxis (attempt : ℤ) (person opportunity : Uuid) (axis : Axis) : ResearchM Unit := do
  env.searchAxis attempt axis
  env.raiseAt (.score axis)
  Fallible.forEach (env.storeEvidence person opportunity axis) (env.evidence axis).zipIdx

/-- The assessment of an axis. -/
def assessment (opportunity : Uuid) (axis : Axis) : Assessment :=
  let scored := (env.answer axis).scored
  { id := env.assessmentId axis
    opportunityId := opportunity
    axis := axis.name
    rating := ratingOfScore scored.score
    confidence := scored.confidence
    unknowns := axisUnknowns axis scored.resultCount scored.confidence
    createdAt := env.now }

/-- `score_components`. -/
def scoreComponents : List (Str × ℚ) :=
  let scored := fun axis => (env.answer axis).scored
  [("founder", (scored .founder).score), ("market", (scored .market).score),
    ("idea_market", (scored .ideaMarket).score),
    ("evidence_confidence", roundTo 4 (((scored .founder).confidence +
      (scored .market).confidence + (scored .ideaMarket).confidence) / 3)),
    ("founder_relevance", (scored .founder).relevance),
    ("market_relevance", (scored .market).relevance),
    ("idea_market_relevance", (scored .ideaMarket).relevance)]

lemma nodup_scoreComponents : (env.scoreComponents.map Prod.fst).Nodup := by
  have hkeys : env.scoreComponents.map Prod.fst = ["founder".toList, "market".toList,
      "idea_market".toList, "evidence_confidence".toList, "founder_relevance".toList,
      "market_relevance".toList, "idea_market_relevance".toList] := rfl
  rw [hkeys]
  decide

/-- The axes snapshot. -/
def axesSnapshot (opportunity : Uuid) : ScoreSnapshot where
  id := env.snapshotId
  subjectId := opportunity
  subjectType := "opportunity"
  rubricVersion := "opportunity-axes-v1"
  components := ⟨env.scoreComponents, env.nodup_scoreComponents⟩
  createdAt := env.now

/-- The rows that are added after the loop. -/
def addAssessments (opportunity : Uuid) (db : Db) : Db :=
  { db with
    assessments := db.assessments ++ researchAxes.map (env.assessment opportunity)
    scoreSnapshots := db.scoreSnapshots ++ [env.axesSnapshot opportunity] }

/-- `result`. -/
def result : Json :=
  .obj [("person_id", .str env.personIdText),
    ("answers", .obj (researchAxes.map fun axis => (axis.key, .str (env.answer axis).answer)))]

/-- The job after the checks. -/
def research (attempt : ℤ) (person opportunity : Uuid) : ResearchM Json := do
  Fallible.forEach (env.researchAxis attempt person opportunity) researchAxes
  env.raiseAt .assess
  Fallible.modify fun s => { s with session :=
    { s.session with db := env.addAssessments opportunity s.session.db } }
  env.setJob (updateJob env.now (JobCall.complete (some attempt) none env.result).args)
  env.raiseAt .commit
  commitSession
  env.raiseAt .close
  pure env.result

/-- The job after its start. -/
def prepareAndResearch (attempt : ℤ) : ResearchM Json := do
  env.raiseAt .prepare
  let s ← Fallible.get
  match env.prepare s.session.db with
  | .error refusal => env.finishError attempt refusal.1 refusal.2
  | .ok (person, opportunity) => env.research attempt person opportunity

/-- The start of the job is committed. -/
def commitStart (attempt : ℤ) : ResearchM Json := do
  env.raiseAt .startCommit
  commitSession
  env.prepareAndResearch attempt

/-- `research_candidate_job`. -/
def researchCandidate : ResearchM Json :=
  if env.hasJobId then do
    env.raiseAt .start
    let s ← Fallible.get
    match s.session.job with
    | none => env.commitStart 1
    | some job => do
      let started := startJob env.now "research" job
      if started.status.Settled then do
        env.raiseAt .close
        pure (.obj [("person_id", .str env.personIdText), ("status", .str "already_terminal"),
          ("job_id", .str (Uuid.str started.id))])
      else do
        env.setJob fun _ => started
        env.commitStart started.attempt
  else env.prepareAndResearch 1

/-- The state in which the job begins. -/
def initial (db : Db) (job : Option JobRun) : ResearchState where
  committed := ⟨db, job⟩
  session := ⟨db, job⟩

/-- The state the job leaves. -/
def finalState (db : Db) (job : Option JobRun) : ResearchState :=
  env.researchCandidate.final (initial db job)

end ResearchEnv

/-! ## All or nothing -/

section AllOrNothing

variable (env : ResearchEnv)

/-- Everything is committed: the assessments of the three axes, the axes snapshot, all evidence, and
the row of the job as succeeded. -/
structure ResearchComplete (person opportunity : Uuid) (before : Db) (after : ResearchStore) :
    Prop where
  assessments : ∃ added, after.db.assessments = before.assessments ++ added ∧
    added.map Assessment.axis = researchAxes.map Axis.name ∧
    ∀ a ∈ added, a.opportunityId = opportunity
  snapshot : ∃ added, after.db.scoreSnapshots = before.scoreSnapshots ++ [added] ∧
    added.subjectId = opportunity ∧ added.rubricVersion = ("opportunity-axes-v1" : Str)
  evidence : ∀ axis ∈ researchAxes, ∀ c ∈ env.evidence axis,
    Stored (env.writer person opportunity) after.db c
  job : ∃ job ∈ after.job, job.status = .succeeded

/-- Nothing is committed, and the row of the job has failed. -/
structure ResearchUntouched (before : Db) (after : ResearchStore) : Prop where
  sourceSnapshots : after.db.sourceSnapshots = before.sourceSnapshots
  observations : after.db.observations = before.observations
  assessments : after.db.assessments = before.assessments
  scoreSnapshots : after.db.scoreSnapshots = before.scoreSnapshots
  job : ∃ job ∈ after.job, job.status = .failed

/-- Everything or nothing. -/
def ResearchAllOrNothing (before : Db) (after : ResearchStore) : Prop :=
  (∃ person ∈ env.personId, ∃ opportunity ∈ env.opportunityId,
    ResearchComplete env person opportunity before after) ∨ ResearchUntouched before after

/-- The condition for it, by the point at which the job is stopped. Before the start is committed
the row has to have failed already. A failed search may have no evidence before it that is not
stored already, and its handler has to work. When the session is closed the row must not have been
settled before. -/
def ResearchCondition (db : Db) (row : JobRun) (r : Raised) : ResearchPoint → Prop
  | .start | .startCommit => row.status = .failed
  | .search axis => (∃ exc, r = .exception exc) ∧ env.handlerFails = false ∧
      ∀ person ∈ env.personId, ∀ opportunity ∈ env.opportunityId,
        ∀ earlier ∈ researchAxes.takeWhile (· ≠ axis), ∀ c ∈ env.evidence earlier,
          Stored (env.writer person opportunity) db c
  | .close => ¬ row.status.Settled
  | _ => False

end AllOrNothing

/-! ## What the loop leaves -/

section Loop

open Fallible ResearchEnv

variable {env : ResearchEnv} {person opportunity : Uuid} {db : Db} {started : JobRun}

variable (env person opportunity db started) in
/-- The session has written some evidence, and nothing is committed since the start. -/
structure Written (done : List Collected) (s : ResearchState) : Prop where
  committed : s.committed = ⟨db, some started⟩
  job : s.session.job = some started
  stopped : s.stopped = none
  appended : ∃ snapshots observations, s.session.db = { db with
    sourceSnapshots := db.sourceSnapshots ++ snapshots
    observations := db.observations ++ observations }
  stored : ∀ c ∈ done, Stored (env.writer person opportunity) s.session.db c
  unchanged : (∀ c ∈ done, Stored (env.writer person opportunity) db c) → s.session.db = db

/-- The session has changed nothing exactly if all evidence was stored before. -/
lemma Written.eq_iff {done : List Collected} {s : ResearchState}
    (h : Written env person opportunity db started done s) :
    s.session.db = db ↔ ∀ c ∈ done, Stored (env.writer person opportunity) db c :=
  ⟨fun heq => heq ▸ h.stored, h.unchanged⟩

variable (env person opportunity db started) in
/-- How the loop is stopped: by a failed search whose handler has committed, or by something that no
handler has seen. -/
inductive LoopStopped : Raised → ResearchState → Prop where
  | committed {axis : Axis} {exc : Exn} {s : ResearchState} (done : List Collected)
      (failed : JobRun)
      (hdone : done = (researchAxes.takeWhile (· ≠ axis)).flatMap env.evidence)
      (hhandler : env.handlerFails = false) (hfailed : failed.status = .failed)
      (hwritten : Written env person opportunity db started done
        { s with committed := ⟨db, some started⟩, stopped := none
                 session := { s.session with job := some started } })
      (hcommitted : s.committed = ⟨s.session.db, some failed⟩)
      (hstopped : s.stopped = some (.search axis, .exception exc)) :
      LoopStopped (.exception exc) s
  | lost {point : ResearchPoint} {r : Raised} {s : ResearchState}
      (hpoint : (∃ axis, point = .search axis ∧ (r = .cancelled ∨ env.handlerFails = true)) ∨
        (∃ axis, point = .score axis) ∨ ∃ axis i, point = .evidence axis i)
      (hcommitted : s.committed = ⟨db, some started⟩) (hstopped : s.stopped = some (point, r)) :
      LoopStopped r s

/-- One piece of evidence. -/
lemma leads_storeEvidence {done : List Collected} {s : ResearchState} {axis : Axis}
    {item : Collected × ℕ} (h : Written env person opportunity db started done s) :
    (env.storeEvidence person opportunity axis item).Leads
      (fun _ => Written env person opportunity db started (done ++ [item.1]))
      (LoopStopped env person opportunity db started) s := by
  unfold storeEvidence raiseAt
  rw [leads_bind]
  refine leads_stopAt ?_ fun r _ =>
    .lost (Or.inr (Or.inr ⟨axis, item.2, rfl⟩)) h.committed rfl
  rw [leads_bind, leads_get]
  cases hwrite : writeEvidence (env.writer person opportunity) (env.ids axis item.2) item.1
      s.session.db with
  | none =>
    exact .lost (Or.inr (Or.inr ⟨axis, item.2, rfl⟩)) h.committed rfl
  | some db' =>
    refine ⟨h.committed, h.job, h.stopped, ?_, ?_, ?_⟩
    · obtain ⟨snapshots, observations, heq⟩ := h.appended
      obtain ⟨snapshots', observations', rfl⟩ := writeEvidence_appends hwrite
      exact ⟨snapshots ++ snapshots', observations ++ observations', by rw [heq]; simp⟩
    · intro c hc
      rcases List.mem_append.mp hc with hc | hc
      · exact (h.stored c hc).writeEvidence hwrite
      · rw [List.mem_singleton.mp hc]
        exact stored_writeEvidence hwrite
    · intro hall
      have hsame := h.unchanged fun c hc => hall c (List.mem_append_left _ hc)
      have hitem := hall item.1 (List.mem_append_right _ (List.mem_singleton_self _))
      rw [hsame, writeEvidence_of_stored hitem] at hwrite
      exact (Option.some.inj hwrite).symm

/-- One axis. -/
lemma leads_researchAxis {done : List Collected} {s : ResearchState} {attempt : ℤ} {axis : Axis}
    (hid : env.hasJobId = true)
    (hdone : done = (researchAxes.takeWhile (· ≠ axis)).flatMap env.evidence)
    (h : Written env person opportunity db started done s) :
    (env.researchAxis attempt person opportunity axis).Leads
      (fun _ => Written env person opportunity db started (done ++ env.evidence axis))
      (LoopStopped env person opportunity db started) s := by
  unfold researchAxis
  rw [leads_bind]
  unfold searchAxis raiseAt
  rw [leads_handle]
  refine leads_stopAt ?_ fun r hr => ?_
  · rw [leads_bind]
    refine leads_stopAt ?_ fun r _ => .lost (Or.inr (Or.inl ⟨axis, rfl⟩)) h.committed rfl
    have hloop : (forEach (env.storeEvidence person opportunity axis)
        (env.evidence axis).zipIdx).Leads
        (fun _ => Written env person opportunity db started
          (done ++ (env.evidence axis).zipIdx.map Prod.fst))
        (LoopStopped env person opportunity db started) s := by
      refine leads_forEach (I := fun items =>
        Written env person opportunity db started (done ++ items.map Prod.fst))
        (fun before item after _ s hs => ?_) ?_
      · refine (leads_storeEvidence hs).mono (fun _ s hs => ?_) fun _ _ h => h
        rwa [List.map_append, ← List.append_assoc]
      · rwa [List.map_nil, List.append_nil]
    rwa [List.zipIdx_map_fst] at hloop
  · cases r with
    | cancelled => exact .lost (Or.inl ⟨axis, rfl, Or.inl rfl⟩) h.committed rfl
    | exception exc =>
      unfold finishException setJob commitSession
      rw [leads_bind, leads_ite]
      by_cases hhandler : env.handlerFails = true
      · rw [if_pos hhandler]
        exact .lost (Or.inl ⟨axis, rfl, Or.inr hhandler⟩) h.committed rfl
      · rw [if_neg hhandler, hid]
        have hsession : s.session.job.map (updateJob env.now (JobCall.fail "research"
            (some attempt) (message exc) (.obj [("error", .str "research_failed"),
              ("person_id", .str env.personIdText)])).args) = some (updateJob env.now
                (JobCall.fail "research" (some attempt) (message exc)
                  (.obj [("error", .str "research_failed"),
                    ("person_id", .str env.personIdText)])).args started) := by
          rw [h.job]
          rfl
        refine .committed done _ hdone (Bool.not_eq_true _ ▸ hhandler) rfl ?_
          (congrArg (ResearchStore.mk _) hsession) rfl
        exact ⟨rfl, rfl, rfl, h.appended, h.stored, h.unchanged⟩

/-- The axes before one of them. -/
lemma before_eq_takeWhile {before after : List Axis} {axis : Axis}
    (h : researchAxes = before ++ axis :: after) :
    before = researchAxes.takeWhile (· ≠ axis) := by
  have hnodup : (before ++ axis :: after).Nodup := h ▸ (by decide : researchAxes.Nodup)
  have hne : ∀ a ∈ before, decide (a ≠ axis) = true := by
    intro a ha
    rw [decide_eq_true_eq]
    exact (List.nodup_append.mp hnodup).2.2 a ha axis (List.mem_cons_self ..)
  rw [h, List.takeWhile_append_of_pos hne, List.takeWhile_cons_of_neg (by simp), List.append_nil]

/-- The loop over the axes. -/
lemma leads_researchAxes {s : ResearchState} {attempt : ℤ} (hid : env.hasJobId = true)
    (h : Written env person opportunity db started [] s) :
    (forEach (env.researchAxis attempt person opportunity) researchAxes).Leads
      (fun _ => Written env person opportunity db started (researchAxes.flatMap env.evidence))
      (LoopStopped env person opportunity db started) s := by
  refine leads_forEach (I := fun axes =>
    Written env person opportunity db started (axes.flatMap env.evidence))
    (fun before axis after heq s hs => ?_) h
  refine (leads_researchAxis hid (by rw [← before_eq_takeWhile heq]) hs).mono
    (fun _ s hs => ?_) fun _ _ h => h
  rwa [List.flatMap_append, List.flatMap_singleton]

end Loop

/-! ## What the job leaves -/

section Job

open Fallible ResearchEnv

variable {env : ResearchEnv} {db : Db} {row : JobRun}

variable (env db row) in
/-- How the job is stopped. -/
inductive ResearchStopped : Raised → ResearchState → Prop where
  /-- Before the start is committed. -/
  | early {point : ResearchPoint} {r : Raised} {s : ResearchState}
      (hpoint : point = .start ∨ point = .startCommit) (hstopped : s.stopped = some (point, r))
      (hcommitted : s.committed = ⟨db, some row⟩) : ResearchStopped r s
  /-- At the end, with a row that was settled before. -/
  | settled {r : Raised} {s : ResearchState} (hsettled : row.status.Settled)
      (hstopped : s.stopped = some (.close, r)) (hcommitted : s.committed = ⟨db, some row⟩) :
      ResearchStopped r s
  /-- In the loop. -/
  | loop {person opportunity : Uuid} {started : JobRun} {r : Raised} {s : ResearchState}
      (hperson : env.personId = some person) (hopportunity : env.opportunityId = some opportunity)
      (hstarted : started.status = .running)
      (hloop : LoopStopped env person opportunity db started r s) : ResearchStopped r s
  /-- At another statement after the start. -/
  | lost {point : ResearchPoint} {started : JobRun} {r : Raised} {s : ResearchState}
      (hpoint : point = .prepare ∨ point = .refusalCommit ∨ point = .assess ∨ point = .commit)
      (hstarted : started.status = .running) (hstopped : s.stopped = some (point, r))
      (hcommitted : s.committed = ⟨db, some started⟩) : ResearchStopped r s
  /-- At the end of a job that was refused. -/
  | refused {failed : JobRun} {r : Raised} {s : ResearchState} (hopen : ¬ row.status.Settled)
      (hfailed : failed.status = .failed) (hstopped : s.stopped = some (.close, r))
      (hcommitted : s.committed = ⟨db, some failed⟩) : ResearchStopped r s
  /-- At the end of a job that has committed everything. -/
  | complete {person opportunity : Uuid} {r : Raised} {s : ResearchState}
      (hopen : ¬ row.status.Settled) (hperson : env.personId = some person)
      (hopportunity : env.opportunityId = some opportunity)
      (hcomplete : ResearchComplete env person opportunity db s.committed)
      (hstopped : s.stopped = some (.close, r)) : ResearchStopped r s

lemma prepare_eq_ok {person opportunity : Uuid} (h : env.prepare db = .ok (person, opportunity)) :
    env.personId = some person ∧ env.opportunityId = some opportunity := by
  unfold prepare at h
  split at h
  · cases h
  · split at h
    · cases h
    · next hperson =>
      split at h
      · cases h
      · simp only at h
        split at h
        · cases h
        · split at h
          · cases h
          · next hopportunity =>
            split_ifs at h
            cases h
            exact ⟨hperson, hopportunity⟩

/-- A refusal. -/
lemma leads_finishError {s : ResearchState} {started : JobRun} {attempt : ℤ} {error : Str}
    {reason : Option Str} (hid : env.hasJobId = true) (hopen : ¬ row.status.Settled)
    (hstarted : started.status = .running) (hcommitted : s.committed = ⟨db, some started⟩)
    (hsession : s.session = ⟨db, some started⟩) (hstopped : s.stopped = none) :
    (env.finishError attempt error reason).Leads (fun _ s' => s'.stopped = none)
      (ResearchStopped env db row) s := by
  unfold finishError setJob commitSession raiseAt
  rw [hid, if_pos rfl, leads_bind, leads_modify, leads_bind]
  refine leads_stopAt ?_ fun r _ =>
    .lost (Or.inr (Or.inl rfl)) hstarted rfl hcommitted
  rw [leads_bind, leads_modify, leads_bind]
  refine leads_stopAt hstopped fun r _ => ?_
  have hstore : (⟨s.session.db, s.session.job.map (updateJob env.now (JobCall.fail "research"
      (some attempt) (reason.getD error) (env.errorPayload error reason)).args)⟩ : ResearchStore) =
      ⟨db, some (updateJob env.now (JobCall.fail "research" (some attempt) (reason.getD error)
        (env.errorPayload error reason)).args started)⟩ := by
    rw [hsession]
    rfl
  exact .refused hopen rfl rfl hstore

/-- The research after the checks. -/
lemma leads_research {person opportunity : Uuid} {s : ResearchState} {started : JobRun}
    {attempt : ℤ} (hid : env.hasJobId = true) (hopen : ¬ row.status.Settled)
    (hperson : env.personId = some person) (hopportunity : env.opportunityId = some opportunity)
    (hstarted : started.status = .running)
    (h : Written env person opportunity db started [] s) :
    (env.research attempt person opportunity).Leads (fun _ s' => s'.stopped = none)
      (ResearchStopped env db row) s := by
  unfold research
  rw [leads_bind]
  refine (leads_researchAxes hid h).mono (fun _ s hs => ?_)
    fun r s hs => .loop hperson hopportunity hstarted hs
  unfold setJob commitSession raiseAt
  rw [hid, if_pos rfl, leads_bind]
  refine leads_stopAt ?_ fun r _ =>
    .lost (Or.inr (Or.inr (Or.inl rfl))) hstarted rfl hs.committed
  rw [leads_bind, leads_modify, leads_bind, leads_modify, leads_bind]
  refine leads_stopAt ?_ fun r _ =>
    .lost (Or.inr (Or.inr (Or.inr rfl))) hstarted rfl hs.committed
  rw [leads_bind, leads_modify, leads_bind]
  refine leads_stopAt hs.stopped fun r _ => .complete hopen hperson hopportunity ?_ rfl
  obtain ⟨snapshots, observations, heq⟩ := hs.appended
  refine ⟨⟨researchAxes.map (env.assessment opportunity), ?_, rfl, ?_⟩,
    ⟨env.axesSnapshot opportunity, ?_, rfl, rfl⟩, ?_, ?_⟩
  · change s.session.db.assessments ++ _ = _
    rw [heq]
  · intro a ha
    obtain ⟨axis, -, rfl⟩ := List.mem_map.mp ha
    rfl
  · change s.session.db.scoreSnapshots ++ _ = _
    rw [heq]
  · exact fun axis haxis c hc => hs.stored c (List.mem_flatMap.mpr ⟨axis, haxis, hc⟩)
  · refine ⟨updateJob env.now (JobCall.complete (some attempt) none env.result).args started, ?_,
      rfl⟩
    change Option.map _ s.session.job = some _
    rw [hs.job]
    rfl

/-- The job after its start. -/
lemma leads_researchStart {s : ResearchState} {started : JobRun} {attempt : ℤ}
    (hid : env.hasJobId = true) (hopen : ¬ row.status.Settled)
    (hstarted : started.status = .running) (hcommitted : s.committed = ⟨db, some row⟩)
    (hsession : s.session = ⟨db, some started⟩) (hstopped : s.stopped = none) :
    (env.commitStart attempt).Leads (fun _ s' => s'.stopped = none)
      (ResearchStopped env db row) s := by
  unfold commitStart commitSession raiseAt
  rw [leads_bind]
  refine leads_stopAt ?_ fun r _ => .early (Or.inr rfl) rfl hcommitted
  rw [leads_bind, leads_modify]
  unfold prepareAndResearch raiseAt
  rw [leads_bind]
  refine leads_stopAt ?_ fun r _ => .lost (Or.inl rfl) hstarted rfl hsession
  rw [leads_bind, leads_get]
  have hdb : s.session.db = db := by rw [hsession]
  cases hprepare : env.prepare s.session.db with
  | error refusal =>
    exact leads_finishError hid hopen hstarted hsession hsession hstopped
  | ok found =>
    obtain ⟨person, opportunity⟩ := found
    obtain ⟨hperson, hopportunity⟩ := prepare_eq_ok hprepare
    refine leads_research hid hopen hperson hopportunity hstarted ⟨hsession, ?_, hstopped,
      ⟨[], [], ?_⟩, nofun, fun _ => hdb⟩
    · rw [hsession]
    · rw [hdb]
      simp

/-- The job. -/
lemma leads_researchCandidate (hid : env.hasJobId = true) :
    env.researchCandidate.Leads (fun _ s' => s'.stopped = none) (ResearchStopped env db row)
      (initial db (some row)) := by
  unfold researchCandidate raiseAt
  rw [hid, if_pos rfl, leads_bind]
  refine leads_stopAt ?_ fun r _ => .early (Or.inl rfl) rfl rfl
  rw [leads_bind, leads_get]
  change (if (startJob env.now "research" row).status.Settled then _ else _ : ResearchM Json).Leads
    _ _ _
  rw [leads_ite]
  split_ifs with hsettled
  · rw [settled_startJob_iff] at hsettled
    rw [leads_bind]
    exact leads_stopAt rfl fun r _ => .settled hsettled rfl rfl
  · have hopen : ¬ row.status.Settled := by rwa [settled_startJob_iff] at hsettled
    unfold setJob
    rw [hid, if_pos rfl, leads_bind, leads_modify]
    exact leads_researchStart hid hopen (startJob_status hopen) rfl rfl rfl

/-- A store with the tables as they were is all or nothing exactly if the row has failed. -/
lemma allOrNothing_same_iff {job : JobRun} :
    ResearchAllOrNothing env db ⟨db, some job⟩ ↔ job.status = .failed := by
  constructor
  · rintro (⟨person, -, opportunity, -, hcomplete⟩ | huntouched)
    · obtain ⟨added, heq, hlabels, -⟩ := hcomplete.assessments
      have hnil : added = [] := List.append_cancel_left
        ((List.append_nil db.assessments).trans heq).symm
      rw [hnil] at hlabels
      cases hlabels
    · obtain ⟨j, hj, hstatus⟩ := huntouched.job
      cases hj
      exact hstatus
  · exact fun hfailed => Or.inr ⟨rfl, rfl, rfl, rfl, job, rfl, hfailed⟩

/-- A failed search whose handler has committed is all or nothing exactly if the session had changed
nothing. -/
lemma allOrNothing_committed_iff {store : ResearchStore} {failed : JobRun}
    {snapshots : List SourceSnapshot} {observations : List Observation}
    (hdb : store.db = { db with
      sourceSnapshots := db.sourceSnapshots ++ snapshots
      observations := db.observations ++ observations })
    (hjob : store.job = some failed) (hfailed : failed.status = .failed) :
    ResearchAllOrNothing env db store ↔ store.db = db := by
  constructor
  · rintro (⟨person, -, opportunity, -, hcomplete⟩ | huntouched)
    · obtain ⟨j, hj, hstatus⟩ := hcomplete.job
      obtain rfl : failed = j := Option.some.inj (hjob.symm.trans hj)
      rw [hfailed] at hstatus
      cases hstatus
    · have hsnapshots := huntouched.sourceSnapshots
      have hobservations := huntouched.observations
      rw [hdb] at hsnapshots hobservations ⊢
      have hnosnapshots : snapshots = [] := by simpa using hsnapshots
      have hnoobservations : observations = [] := by simpa using hobservations
      rw [hnosnapshots, hnoobservations, List.append_nil, List.append_nil]
  · intro heq
    exact Or.inr ⟨by rw [heq], by rw [heq], by rw [heq], by rw [heq], failed, hjob, hfailed⟩

/-- What a stopped job leaves is all or nothing exactly under the condition. -/
lemma ResearchStopped.allOrNothing_iff {point : ResearchPoint} {r r' : Raised} {s : ResearchState}
    (h : ResearchStopped env db row r' s) (hstopped : s.stopped = some (point, r)) :
    ResearchAllOrNothing env db s.committed ↔ ResearchCondition env db row r point := by
  have hpoint : ∀ {p q}, s.stopped = some (p, q) → p = point ∧ q = r := by
    intro p q hpq
    have heq := Option.some.inj (hpq.symm.trans hstopped)
    exact ⟨congrArg Prod.fst heq, congrArg Prod.snd heq⟩
  cases h with
  | early hearly hs hcommitted =>
    obtain ⟨rfl, rfl⟩ := hpoint hs
    rw [hcommitted, allOrNothing_same_iff]
    rcases hearly with rfl | rfl <;> rfl
  | settled hsettled hs hcommitted =>
    obtain ⟨rfl, rfl⟩ := hpoint hs
    rw [hcommitted, allOrNothing_same_iff]
    refine iff_of_false (fun hfailed => ?_) fun h => h hsettled
    rw [hfailed] at hsettled
    exact absurd hsettled (by decide)
  | loop hperson hopportunity hstarted hloop =>
    cases hloop with
    | committed done failed hdone hhandler hfailed hwritten hcommitted hs =>
      obtain ⟨rfl, rfl⟩ := hpoint hs
      obtain ⟨snapshots, observations, hdb⟩ := hwritten.appended
      rw [allOrNothing_committed_iff (by rw [hcommitted]; exact hdb) (by rw [hcommitted]) hfailed,
        hcommitted]
      refine hwritten.eq_iff.trans ?_
      constructor
      · intro hall
        refine ⟨⟨_, rfl⟩, hhandler, fun person' hperson' opportunity' hopportunity' => ?_⟩
        obtain rfl := Option.some.inj (hperson.symm.trans hperson')
        obtain rfl := Option.some.inj (hopportunity.symm.trans hopportunity')
        exact fun earlier hearlier c hc =>
          hall c (hdone ▸ List.mem_flatMap.mpr ⟨earlier, hearlier, hc⟩)
      · rintro ⟨-, -, hall⟩ c hc
        rw [hdone] at hc
        obtain ⟨earlier, hearlier, hc⟩ := List.mem_flatMap.mp hc
        exact hall _ hperson _ hopportunity earlier hearlier c hc
    | lost hlost hcommitted hs =>
      obtain ⟨rfl, rfl⟩ := hpoint hs
      rw [hcommitted, allOrNothing_same_iff, hstarted]
      refine iff_of_false nofun ?_
      rcases hlost with ⟨axis, rfl, hcause⟩ | ⟨axis, rfl⟩ | ⟨axis, i, rfl⟩
      · rintro ⟨⟨exc, hexc⟩, hhandler, -⟩
        rcases hcause with rfl | hfails
        · cases hexc
        · rw [hhandler] at hfails
          cases hfails
      · exact id
      · exact id
  | lost hlost hstarted hs hcommitted =>
    obtain ⟨rfl, rfl⟩ := hpoint hs
    rw [hcommitted, allOrNothing_same_iff, hstarted]
    refine iff_of_false nofun ?_
    rcases hlost with rfl | rfl | rfl | rfl <;> exact id
  | refused hopen hfailed hs hcommitted =>
    obtain ⟨rfl, rfl⟩ := hpoint hs
    rw [hcommitted, allOrNothing_same_iff]
    exact iff_of_true hfailed hopen
  | complete hopen hperson hopportunity hcomplete hs =>
    obtain ⟨rfl, rfl⟩ := hpoint hs
    exact iff_of_true (Or.inl ⟨_, hperson, _, hopportunity, hcomplete⟩) hopen

/-- **All or nothing.** A run of the research job that is stopped by an exception has committed
everything or nothing, with the row to match, exactly if it meets the condition: it is a failed
search before which no new evidence was written, or it is stopped when the session is closed, or
before the start on a row that had failed.

**Proof sketch.** Until the last commit what the session has written is lost with the session, and
the row stays as its start has left it, which is running. The one handler in the loop writes the
failure but commits the evidence of the earlier axes with it. -/
theorem research_allOrNothing_iff (env : ResearchEnv) (hid : env.hasJobId = true) (db : Db)
    (row : JobRun) {point : ResearchPoint} {r : Raised}
    (hstopped : (env.finalState db (some row)).stopped = some (point, r)) :
    ResearchAllOrNothing env db (env.finalState db (some row)).committed ↔
      ResearchCondition env db row r point := by
  have hleads : env.researchCandidate.Leads
      (fun _ s => s.stopped = some (point, r) →
        (ResearchAllOrNothing env db s.committed ↔ ResearchCondition env db row r point))
      (fun _ s => s.stopped = some (point, r) →
        (ResearchAllOrNothing env db s.committed ↔ ResearchCondition env db row r point))
      (initial db (some row)) := by
    refine (leads_researchCandidate hid).mono (fun _ s hs hsome => ?_)
      fun _ s hs hsome => hs.allOrNothing_iff hsome
    rw [hs] at hsome
    cases hsome
  exact leads_final.mp hleads hstopped

end Job

/-! ## A founder with one result -/

/-- A person who may be researched. -/
def researchedPerson : Person :=
  { samplePerson 1 with
    consentState := "granted"
    privacyLegalBasis := some ("consent" : Str)
    privacyNoticeVersion := some ("v1" : Str)
    privacyPurposes := ⟨[("research", "granted")], by decide⟩
    privacyProviderPolicyVersion := some ("v1" : Str)
    privacyRetentionDays := some 30
    privacyResidency := some ("eu" : Str) }

/-- The person with an opportunity. -/
def researchDb : Db where
  persons := [researchedPerson]
  opportunities := [⟨2, "Acme", "outbound", .investigating, none, none, none, none, .pending, none,
    0, 0⟩]
  opportunityFounders := [⟨2, 1, "founder"⟩]

/-- A research whose searches find one page each, and of which the search of an axis fails. -/
def failedSearch (axis : Axis) : ResearchEnv where
  personIdText := Uuid.str 1
  personId := some 1
  opportunityId := some 2
  answer axis :=
    { answer := []
      summaryHash := []
      results := [some
        { url := "https://example.com/" ++ axis.key, title := "Acme", content := "pilot"
          score := some (1 / 2), contentHash := axis.key }]
      scored := { score := 1 / 2, confidence := 1 / 2, relevance := 1 / 2, resultCount := 1 } }
  md5 := byteDigest
  now := 0
  ids axis i := { snapshotId := Fin.ofNat _ (100 * axis.key.length + i), draw := fun _ => 7 }
  assessmentId axis := Fin.ofNat _ axis.key.length
  snapshotId := 9
  fails := some (.search axis, .exception (.other "rate limit" .rateLimited true))

/-- The first search fails. -/
theorem allOrNothing_failedFounder :
    ResearchAllOrNothing (failedSearch .founder) researchDb
      ((failedSearch .founder).finalState researchDb
        (some (createJob 3 "research"))).committed := by
  have hstopped : ((failedSearch .founder).finalState researchDb
      (some (createJob 3 "research"))).stopped =
        some (.search .founder, .exception (.other "rate limit" .rateLimited true)) := rfl
  refine (research_allOrNothing_iff (failedSearch .founder) rfl researchDb (createJob 3 "research")
    hstopped).mpr ⟨⟨_, rfl⟩, rfl, fun _ _ _ _ earlier hearlier => ?_⟩
  have hnone : researchAxes.takeWhile (· ≠ .founder) = [] := by decide
  rw [hnone] at hearlier
  cases hearlier

/-- The second search fails, and the snapshot of the first one is committed with the failure. -/
theorem not_allOrNothing_failedMarket :
    ((failedSearch .market).finalState researchDb (some (createJob 3 "research"))).stopped.isSome ∧
      ¬ ResearchAllOrNothing (failedSearch .market) researchDb
        ((failedSearch .market).finalState researchDb
          (some (createJob 3 "research"))).committed := by
  refine ⟨by decide +kernel, ?_⟩
  rintro (⟨person, -, opportunity, -, hcomplete⟩ | huntouched)
  · obtain ⟨job, hjob, hstatus⟩ := hcomplete.job
    have hfailed : (((failedSearch .market).finalState researchDb
        (some (createJob 3 "research"))).committed.job.all fun job =>
          decide (job.status = .failed)) = true := by
      decide +kernel
    rw [Option.mem_def.mp hjob, Option.all_some, decide_eq_true_eq, hstatus] at hfailed
    cases hfailed
  · have hlength := congrArg List.length huntouched.sourceSnapshots
    revert hlength
    decide +kernel

end VCBrain
