import Mathlib.Data.Fintype.Basic
import VCBrain.Agents.Scoring
import VCBrain.Foundation.Keyset
import VCBrain.JobLedger
import VCBrain.Privacy
import VCBrain.Scoring.ThesisPin

set_option relaxedAutoImplicit false
set_option autoImplicit false

/-!
# Deliveries of the scoring job

A delivery of `score_candidate_job` commits the start of its row, reads the person and the evidence,
asks the committee, and commits the score together with the end of the row. The queue delivers a
task again when a delivery was lost, and deliveries of many tasks run at a time.

## Main definitions

* `scoreBody` — what a delivery does once its row has started.
* `ScoringSystem.step` — a step of the deliveries.
* `JustifiedScore` — what a score that is stored is based on.

## Main results

* `scores_justified` — a row has succeeded exactly if it has one score, and every score is
  justified.

## Design

The two commits of a delivery are atomic, and between them other transactions may change the
persons and the evidence, so each of the two queries finds a database of its own. Ids that are drawn
are new. A scorecard with a number that is none cannot be stored, since the columns are JSON. That
the job wrote a score, and what it had seen, is noted beside the score.
-/

namespace VCBrain

/-! ## What the job reads and writes -/

/-- What the job takes from outside. -/
structure ScoringEnv where
  lib : Libraries
  ucd : Ucd
  /-- `fingerprint_payload`: the hash of the text of a value. -/
  fingerprintPayload : Json → Str
  /-- `repr` of a float. -/
  floatText : ℚ → Str

/-- The settings that the job reads. -/
structure ScoringSettings where
  llmApiKey : Str
  agentModel : Str
  agentConcurrency : ℕ

/-- A task: its row, and the text that names the person with the id that it is parsed to. -/
structure ScoringTask where
  jobId : Uuid
  personText : Str
  personId : Option Uuid

/-- What a delivery finds and draws after its start. -/
structure ScoringRun where
  now : Time
  /-- The database as the query for the person finds it. -/
  persons : Db
  /-- The database as the query for the evidence finds it. -/
  evidence : Db
  order : RowOrder Observation
  answers : CommitteeAnswers
  /-- `str(exc)`, if the scoring raises. -/
  exceptionText : Str
  runId : Uuid
  latencyMs : ℤ

/-- `build_artifact_metadata`. -/
structure ArtifactMetadata where
  contractVersion : Str := "artifact-provenance-v1"
  artifactType : Str
  runId : Str
  codeVersion : Str
  rubricVersions : List Str := []
  promptVersion : Option Str := none
  modelVersion : Option Str := none
  parameters : Json := .obj []
  inputFingerprint : Str
  latencyMs : Option ℤ := none
  costUsd : Option ℚ := none
  validatorStatus : Str := "not_applicable"
  validatorErrors : List Str := []
  compatibility : Json := .obj [("reader", .str "artifact-provenance-v1")]

/-- The row of `score_snapshots` that the job writes. -/
structure FounderScore where
  subjectId : Uuid
  subjectType : Str := "person"
  rubricVersion : Str := "founder-agent-v1"
  founder : ℚ
  card : Scorecard
  low : ℚ
  high : ℚ
  evidenceIds : List Str
  artifactMetadata : ArtifactMetadata

/-- The text of a validation status. -/
def ValidationStatus.text : ValidationStatus → Str
  | passed => "passed"
  | failed => "failed"
  | unavailable => "unavailable"

/-- The observations of a person that a model may read, the newest 500. -/
def scoringObservations (order : RowOrder Observation) (db : Db) (personId : Uuid) :
    List Observation :=
  (Keyset.sorted Observation.observedAt (order.arrange (db.observations.filter fun obs =>
    decide (obs.subjectId = some personId) && db.sourceSnapshots.any fun snapshot =>
      decide (snapshot.id = obs.snapshotId) && snapshot.sourceUsePolicy.allowsModelUse))).take 500

/-- `confidence_interval`, its lower end. -/
def intervalLow (card : Scorecard) : ℚ :=
  roundTo 2 (max 0 (card.composite - (1 - card.confidence) * 10))

/-- `confidence_interval`, its upper end. -/
def intervalHigh (card : Scorecard) : ℚ :=
  roundTo 2 (min 100 (card.composite + (1 - card.confidence) * 10))

section Body

variable (env : ScoringEnv) (settings : ScoringSettings) (task : ScoringTask) (run : ScoringRun)

/-- The score of a person for a scorecard. -/
def founderScore (person : Person) (obsIds : List Str) (card : Scorecard) : FounderScore where
  subjectId := person.id
  founder := card.composite / 100
  card := card
  low := intervalLow card
  high := intervalHigh card
  evidenceIds := obsIds.take 50
  artifactMetadata :=
    { artifactType := "score_snapshot"
      runId := run.runId.str
      codeVersion := "scoring-job-v2"
      inputFingerprint := env.fingerprintPayload (.obj
        [("observation_ids", .arr (obsIds.map Json.str)), ("model", .str settings.agentModel)])
      rubricVersions := ["founder-agent-v1"]
      promptVersion := some "scoring-prompts-v1"
      modelVersion := some settings.agentModel
      parameters := .obj [("concurrency", .int settings.agentConcurrency)]
      latencyMs := some run.latencyMs
      validatorStatus := card.validatorStatus.text
      validatorErrors := card.validationErrors
      compatibility := .obj [("reader", .str "score-snapshot-v1")] }

/-- `result_payload`. -/
def scoringResult (card : Scorecard) : Json :=
  .obj [("person_id", .str task.personText), ("composite", .float (env.floatText card.composite)),
    ("confidence", .float (env.floatText card.confidence)),
    ("hard_eligible", .bool card.hardEligible), ("model", .str settings.agentModel)]

/-- How the part of a delivery after its start ends: a failure or a score is committed, or nothing
is. -/
inductive ScoringEnd where
  | failed (error : Str) (result : Json)
  | stored (row : FounderScore) (result : Json)
  | lost

/-- `finish_error`. -/
def finishError (error : Str) : ScoringEnd := .failed error (.obj [("error", .str error)])

/-- The scoring of the evidence about a person. -/
def scoreEvidence (person : Person) (observations : List Observation) : ScoringEnd :=
  let evidence := buildEvidenceText env.ucd observations person []
  match scoreCandidate env.lib evidence.1 settings.llmApiKey settings.agentModel none
      run.answers with
  | .raised => .failed run.exceptionText (.obj [("error", .str "scoring_failed")])
  | .notANumber => .lost
  | .returned (card, _) =>
    .stored (founderScore env settings run person evidence.2 card)
      (scoringResult env settings task card)

/-- The checks of the evidence and of the policy. -/
def scorePerson (person : Person) : ScoringEnd :=
  let observations := scoringObservations run.order run.evidence person.id
  let policy := externalAiUseDecision person "scoring"
  if observations.isEmpty then finishError "no_observations"
  else if settings.llmApiKey ≠ [] ∧ ¬ policy.allowed then
    .failed policy.reason
      (.obj [("error", .str "external_ai_blocked"), ("purpose", .str policy.purpose),
        ("reason", .str policy.reason)])
  else scoreEvidence env settings task run person observations

/-- `score_candidate_job` once its row has started. -/
def scoreBody : ScoringEnd :=
  match task.personId with
  | none => finishError "invalid_person_id"
  | some personId =>
    match run.persons.person? personId with
    | none => finishError "person_not_found"
    | some person =>
      if person.canonical then scorePerson env settings task run person
      else finishError "person_not_canonical"

end Body

/-! ## Deliveries -/

/-- Where a delivery stands. -/
inductive ScoringStage where
  | idle
  | scoring (attempt : ℤ)
  | ended
deriving DecidableEq

/-- A score with the job that wrote it and what the job had seen. -/
structure ScoreRecord where
  jobId : Uuid
  run : ScoringRun
  row : FounderScore

/-- The ledger, the scores, and where each delivery stands. -/
structure ScoringSystem (T : Type) where
  ledger : List JobRun := []
  records : List ScoreRecord := []
  stage : T → ScoringStage := fun _ => .idle

/-- A step: the row of a task is created, a delivery starts, it ends, or it is lost. -/
inductive ScoringStep (T : Type) where
  | create (id : Uuid)
  | start (t : T) (now : Time)
  | finish (t : T) (run : ScoringRun)
  | lose (t : T)

namespace ScoringSystem

section Steps

variable {T : Type} [DecidableEq T]

/-- The scores that a job has written. -/
def scoresOf (s : ScoringSystem T) (jobId : Uuid) : List ScoreRecord :=
  s.records.filter fun record => record.jobId = jobId

/-- A delivery moves on. -/
def put (s : ScoringSystem T) (t : T) (stage : ScoringStage) : ScoringSystem T :=
  { s with stage := Function.update s.stage t stage }

/-- The row of a job changes. -/
def setJob (s : ScoringSystem T) (id : Uuid) (change : JobRun → JobRun) : ScoringSystem T :=
  { s with ledger := modifyJob id change s.ledger }

/-- A score is stored. -/
def store (s : ScoringSystem T) (record : ScoreRecord) : ScoringSystem T :=
  { s with records := s.records ++ [record] }

variable (env : ScoringEnv) (settings : ScoringSettings) (task : T → ScoringTask)

/-- The first commit of a delivery; a row that is settled ends it. -/
def begin (s : ScoringSystem T) (t : T) (now : Time) : ScoringSystem T :=
  match s.ledger.find? fun job => job.id = (task t).jobId with
  | none => s.put t (.scoring 1)
  | some job =>
    if job.status.Settled then s.put t .ended
    else (s.setJob (task t).jobId (startJob now "scoring")).put t
      (.scoring (startJob now "scoring" job).attempt)

/-- The second commit of a delivery. -/
def finish (s : ScoringSystem T) (t : T) (attempt : ℤ) (run : ScoringRun) : ScoringSystem T :=
  match scoreBody env settings (task t) run with
  | .failed error result =>
    (s.setJob (task t).jobId (updateJob run.now
      (JobCall.fail "scoring" (some attempt) error result).args)).put t .ended
  | .stored row result =>
    ((s.setJob (task t).jobId (updateJob run.now
      (JobCall.complete (some attempt) none result).args)).store
        ⟨(task t).jobId, run, row⟩).put t .ended
  | .lost => s.put t .ended

/-- One step. -/
def step (s : ScoringSystem T) : ScoringStep T → Option (ScoringSystem T)
  | .create id =>
    if ∃ job ∈ s.ledger, job.id = id then none
    else some { s with ledger := s.ledger ++ [createJob id "score_candidate"] }
  | .start t now =>
    match s.stage t with
    | .idle => some (s.begin task t now)
    | _ => none
  | .finish t run =>
    match s.stage t with
    | .scoring attempt => some (s.finish env settings task t attempt run)
    | _ => none
  | .lose t =>
    match s.stage t with
    | .scoring _ => some (s.put t .ended)
    | _ => none

/-- A delivery starts when its row is there and no other delivery of the task is on its way. -/
def InTurn (s : ScoringSystem T) : ScoringStep T → Prop
  | .start t _ => (∃ job ∈ s.ledger, job.id = (task t).jobId) ∧
      ∀ u attempt, s.stage u = .scoring attempt → (task u).jobId ≠ (task t).jobId
  | _ => True

end Steps

end ScoringSystem

/-! ## What a score is based on -/

/-- The person may be scored, the evidence is about the person and open to models, the interval
contains the composite, and only an answer of the model makes the score eligible. -/
structure JustifiedScore (settings : ScoringSettings) (run : ScoringRun) (row : FounderScore) :
    Prop where
  person : ∃ person, run.persons.person? row.subjectId = some person ∧ person.canonical = true ∧
    (settings.llmApiKey ≠ [] → (externalAiUseDecision person "scoring").allowed = true)
  evidence : ∀ id ∈ row.evidenceIds, ∃ obs ∈ run.evidence.observations, obs.id.str = id ∧
    obs.subjectId = some row.subjectId ∧ ∃ snapshot ∈ run.evidence.sourceSnapshots,
      snapshot.id = obs.snapshotId ∧ snapshot.sourceUsePolicy.allowsModelUse = true
  bounded : row.evidenceIds ≠ [] ∧ row.evidenceIds.length ≤ 50
  interval : 0 ≤ row.low ∧ row.low ≤ 100 * row.founder ∧ 100 * row.founder ≤ row.high ∧
    row.high ≤ 100
  eligible : row.card.hardEligible = true → settings.llmApiKey ≠ []

section Body

variable {env : ScoringEnv} {settings : ScoringSettings} {task : ScoringTask} {run : ScoringRun}
  {card : Scorecard} {row : FounderScore} {result : Json}

/-- A rounded number is kept. -/
lemma roundTo_roundTo (digits : ℕ) (x : ℚ) :
    roundTo digits (roundTo digits x) = roundTo digits x := by
  have hscale : (10 : ℚ) ^ digits ≠ 0 := by positivity
  rw [roundTo_eq digits x, roundTo_eq, div_mul_cancel₀ _ hscale,
    roundsToNearest_roundHalfEven.intCast]

/-- The interval lies within the percents, around the composite. -/
lemma interval_of_inRange (hrange : card.InRange)
    (hround : roundTo 2 card.composite = card.composite) :
    0 ≤ intervalLow card ∧ intervalLow card ≤ card.composite ∧
      card.composite ≤ intervalHigh card ∧ intervalHigh card ≤ 100 := by
  obtain ⟨hzero, hhundred⟩ := hrange.scores card.composite (by simp)
  have hwidth : 0 ≤ (1 - card.confidence) * 10 := by
    have hconfidence := hrange.confidence.2
    linarith
  refine ⟨?_, ?_, ?_, ?_⟩
  · exact (roundTo_zero 2).symm.trans_le (roundTo_mono 2 (le_max_left _ _))
  · refine (roundTo_mono 2 (max_le hzero ?_)).trans_eq hround
    linarith
  · refine hround.symm.trans_le (roundTo_mono 2 (le_min hhundred ?_))
    linarith
  · exact (roundTo_mono 2 (min_le_left _ _)).trans_eq (roundTo_intCast 2 100)

/-- The evidence is about the person and open to models. -/
lemma open_of_mem_scoringObservations {order : RowOrder Observation} {db : Db} {personId : Uuid}
    {obs : Observation} (h : obs ∈ scoringObservations order db personId) :
    obs ∈ db.observations ∧ obs.subjectId = some personId ∧ ∃ snapshot ∈ db.sourceSnapshots,
      snapshot.id = obs.snapshotId ∧ snapshot.sourceUsePolicy.allowsModelUse = true := by
  unfold scoringObservations at h
  have hmem := List.mem_of_mem_take h
  rw [Keyset.mem_sorted, (order.perm _).mem_iff, List.mem_filter] at hmem
  simpa using hmem

/-- Without an API key no scorecard is eligible. -/
lemma apiKey_of_hardEligible {lib : Libraries} {evidenceText apiKey model : Str}
    {answers : CommitteeAnswers} {metadata : ScoringMetadata}
    (h : scoreCandidate lib evidenceText apiKey model none answers = .returned (card, metadata))
    (heligible : card.hardEligible = true) : apiKey ≠ [] := by
  rintro rfl
  obtain ⟨execution, technical, commercial, critique, hexecution, -, -, -, rfl⟩ :=
    exists_of_scoreCandidate h
  have hpassed := (hardEligible_iff.mp heligible).2.1 execution (by simp)
  have hfallback : execution = fallbackAssessment "execution" :=
    (ScoringOutcome.returned.inj hexecution).symm
  rw [hfallback] at hpassed
  cases hpassed

/-- A scorecard is in range, and its composite is rounded. -/
lemma rounded_of_scoreCandidate {lib : Libraries} {evidenceText apiKey model : Str}
    {answers : CommitteeAnswers} {metadata : ScoringMetadata}
    (h : scoreCandidate lib evidenceText apiKey model none answers = .returned (card, metadata)) :
    card.InRange ∧ roundTo 2 card.composite = card.composite := by
  obtain ⟨execution, technical, commercial, critique, -, -, -, -, rfl⟩ :=
    exists_of_scoreCandidate h
  refine ⟨inRange_aggregate, ?_⟩
  rw [composite_eq]
  exact roundTo_roundTo 2 _

/-- A score that is stored is that of a person who may be scored, for a scorecard of evidence that
was found. -/
lemma exists_of_scoreBody (h : scoreBody env settings task run = .stored row result) :
    ∃ person card metadata, run.persons.person? person.id = some person ∧
      person.canonical = true ∧
      (settings.llmApiKey ≠ [] → (externalAiUseDecision person "scoring").allowed = true) ∧
      scoringObservations run.order run.evidence person.id ≠ [] ∧
      scoreCandidate env.lib (buildEvidenceText env.ucd
        (scoringObservations run.order run.evidence person.id) person []).1 settings.llmApiKey
          settings.agentModel none run.answers = .returned (card, metadata) ∧
      row = founderScore env settings run person
        ((scoringObservations run.order run.evidence person.id).map fun obs => obs.id.str)
        card := by
  unfold scoreBody at h
  cases hid : task.personId with
  | none =>
    rw [hid] at h
    cases h
  | some personId =>
    rw [hid] at h
    cases hperson : run.persons.person? personId with
    | none =>
      simp only [hperson] at h
      cases h
    | some person =>
      simp only [hperson] at h
      split_ifs at h with hcanonical
      · unfold scorePerson at h
        dsimp only at h
        split_ifs at h with hempty hblocked
        · cases h
        · have hsame : person.id = personId := by
            unfold Db.person? at hperson
            simpa using List.find?_some hperson
          unfold scoreEvidence at h
          dsimp only at h
          split at h
          · cases h
          · cases h
          · next card metadata hreturned =>
            cases h
            refine ⟨person, card, metadata, hsame ▸ hperson, hcanonical, fun hkey => ?_, ?_,
              hreturned, rfl⟩
            · by_contra hdenied
              exact hblocked ⟨hkey, hdenied⟩
            · simpa using hempty
      · cases h

/-- A score that is stored is justified by what the delivery has found. -/
lemma justified_of_stored (h : scoreBody env settings task run = .stored row result) :
    JustifiedScore settings run row := by
  obtain ⟨person, card, metadata, hperson, hcanonical, hallowed, hsome, hreturned, rfl⟩ :=
    exists_of_scoreBody h
  obtain ⟨hrange, hround⟩ := rounded_of_scoreCandidate hreturned
  have hpercent : 100 * (card.composite / 100) = card.composite := by ring
  refine ⟨⟨person, hperson, hcanonical, hallowed⟩, fun id hid => ?_, ⟨?_, ?_⟩, ?_, ?_⟩
  · obtain ⟨obs, hobs, rfl⟩ := List.mem_map.mp (List.mem_of_mem_take hid)
    obtain ⟨hmem, hsubject, hopen⟩ := open_of_mem_scoringObservations hobs
    exact ⟨obs, hmem, rfl, hsubject, hopen⟩
  · simp [founderScore, hsome]
  · exact List.length_take_le ..
  · show 0 ≤ intervalLow card ∧ intervalLow card ≤ 100 * (card.composite / 100) ∧
      100 * (card.composite / 100) ≤ intervalHigh card ∧ intervalHigh card ≤ 100
    rw [hpercent]
    exact interval_of_inRange hrange hround
  · exact apiKey_of_hardEligible hreturned

end Body

/-! ## Runs -/

namespace ScoringSystem

section Runs

variable {T : Type} {env : ScoringEnv} {settings : ScoringSettings} {task : T → ScoringTask}
  {s s' : ScoringSystem T} {t u : T} {stage : ScoringStage} {id : Uuid}
  {change : JobRun → JobRun} {now : Time} {attempt : ℤ}

lemma mem_setJob {job : JobRun} : job ∈ (s.setJob id change).ledger ↔
    ∃ old ∈ s.ledger, (if old.id = id then change old else old) = job := List.mem_map

/-- What holds in every state: rows have distinct ids, a score is that of a row, a row has one score
if it has succeeded and none before, a delivery on its way has a row that runs and is alone with it,
and scores are justified. -/
structure Inv (settings : ScoringSettings) (task : T → ScoringTask) (s : ScoringSystem T) :
    Prop where
  keyed : KeyUnique JobRun.id s.ledger
  known : ∀ record ∈ s.records, ∃ job ∈ s.ledger, job.id = record.jobId
  counted : ∀ job ∈ s.ledger,
    (s.scoresOf job.id).length = if job.status = .succeeded then 1 else 0
  running : ∀ t attempt, s.stage t = .scoring attempt →
    ∃ job ∈ s.ledger, job.id = (task t).jobId ∧ job.status = .running
  alone : ∀ t u attempt attempt', s.stage t = .scoring attempt → s.stage u = .scoring attempt' →
    (task t).jobId = (task u).jobId → t = u
  justified : ∀ record ∈ s.records, JustifiedScore settings record.run record.row

lemma inv_initial : Inv settings task ({} : ScoringSystem T) where
  keyed := List.nodup_nil
  known record h := by cases h
  counted job h := by cases h
  running t attempt h := by cases h
  alone t u attempt attempt' h := by cases h
  justified record h := by cases h

/-- Changing a row keeps the ids. -/
lemma map_id_setJob (hid : ∀ job, (change job).id = job.id) :
    (s.setJob id change).ledger.map JobRun.id = s.ledger.map JobRun.id := by
  show (s.ledger.map _).map JobRun.id = _
  rw [List.map_map]
  refine List.map_congr_left fun job _ => ?_
  show (if job.id = id then change job else job).id = job.id
  split_ifs
  · exact hid job
  · rfl

lemma exists_setJob_iff (hid : ∀ job, (change job).id = job.id) {other : Uuid} :
    (∃ job ∈ (s.setJob id change).ledger, job.id = other) ↔ ∃ job ∈ s.ledger, job.id = other := by
  rw [← List.mem_map, ← List.mem_map, map_id_setJob hid]

/-- The creation of a row keeps the invariant. -/
lemma Inv.create (h : Inv settings task s) (hnew : ¬ ∃ job ∈ s.ledger, job.id = id) :
    Inv settings task { s with ledger := s.ledger ++ [createJob id "score_candidate"] } where
  keyed := h.keyed.append fun job hjob heq => hnew ⟨job, hjob, heq⟩
  known record hrecord := by
    obtain ⟨job, hjob, heq⟩ := h.known record hrecord
    exact ⟨job, List.mem_append_left _ hjob, heq⟩
  counted job hjob := by
    rcases List.mem_append.mp hjob with hjob | hjob
    · exact h.counted job hjob
    · obtain rfl := List.mem_singleton.mp hjob
      have hnone : s.scoresOf id = [] := by
        refine List.filter_eq_nil_iff.mpr fun record hrecord heq => hnew ?_
        obtain ⟨job, hjob, hid⟩ := h.known record hrecord
        exact ⟨job, hjob, hid.trans (by simpa using heq)⟩
      show (s.scoresOf id).length = 0
      rw [hnone]
      rfl
  running t attempt ht := by
    obtain ⟨job, hjob, hrow⟩ := h.running t attempt ht
    exact ⟨job, List.mem_append_left _ hjob, hrow⟩
  alone := h.alone
  justified := h.justified

/-- A row without a score that no delivery has gets a status, and a score exactly if that is a
success. -/
lemma Inv.setRow (h : Inv settings task s) (status : JobStatus) (records : List ScoreRecord)
    (hfree : ∀ u attempt, s.stage u = .scoring attempt → (task u).jobId ≠ id)
    (hrow : ∃ job ∈ s.ledger, job.id = id) (hnone : s.scoresOf id = [])
    (hid : ∀ job, (change job).id = job.id)
    (hstatus : ∀ job ∈ s.ledger, job.id = id → (change job).status = status)
    (hcount : records.length = if status = .succeeded then 1 else 0)
    (hmine : ∀ record ∈ records, record.jobId = id ∧
      JustifiedScore settings record.run record.row) :
    Inv settings task { s.setJob id change with records := s.records ++ records } := by
  refine ⟨?_, fun record hrecord => ?_, fun row hmem => ?_, fun u a hu => ?_, h.alone,
    fun record hrecord => ?_⟩
  · show ((s.setJob id change).ledger.map JobRun.id).Nodup
    rw [map_id_setJob hid]
    exact h.keyed
  · refine (exists_setJob_iff hid).mpr ?_
    rcases List.mem_append.mp hrecord with hrecord | hrecord
    · exact h.known record hrecord
    · rw [(hmine record hrecord).1]
      exact hrow
  · obtain ⟨old, hold, rfl⟩ := mem_setJob.mp hmem
    show ((s.records ++ records).filter _).length = _
    rw [List.filter_append, List.length_append]
    by_cases heq : old.id = id
    · have hbefore : s.records.filter (fun record => record.jobId = id) = [] := hnone
      have hall : records.filter (fun record => record.jobId = id) = records :=
        List.filter_eq_self.mpr fun record hrecord => by simpa using (hmine record hrecord).1
      rw [if_pos heq, hid, heq, hstatus old hold heq, hbefore, hall, hcount]
      simp
    · have hothers : records.filter (fun record => record.jobId = old.id) = [] := by
        refine List.filter_eq_nil_iff.mpr fun record hrecord hsame => heq ?_
        have hsame : record.jobId = old.id := by simpa using hsame
        exact hsame.symm.trans (hmine record hrecord).1
      rw [if_neg heq, hothers]
      exact h.counted old hold
  · obtain ⟨job, hjob, hjobId, hrunning⟩ := h.running u a hu
    have hne : job.id ≠ id := hjobId ▸ hfree u a hu
    exact ⟨job, mem_setJob.mpr ⟨job, hjob, if_neg hne⟩, hjobId, hrunning⟩
  · rcases List.mem_append.mp hrecord with hrecord | hrecord
    · exact h.justified record hrecord
    · exact (hmine record hrecord).2

section Deliveries

variable [DecidableEq T]

@[simp] lemma scoresOf_put : (s.put t stage).scoresOf id = s.scoresOf id := rfl

@[simp] lemma put_stage_self : (s.put t stage).stage t = stage := Function.update_self ..

@[simp] lemma put_stage_of_ne (h : u ≠ t) : (s.put t stage).stage u = s.stage u :=
  Function.update_of_ne h ..

/-- A delivery that stops leaves the rest as it is. -/
lemma Inv.stop (h : Inv settings task s) (t : T) : Inv settings task (s.put t .ended) where
  keyed := h.keyed
  known := h.known
  counted := h.counted
  running u attempt hu := by
    by_cases heq : u = t
    · subst heq
      simp at hu
    · rw [put_stage_of_ne heq] at hu
      exact h.running u attempt hu
  alone u v attempt attempt' hu hv hjob := by
    by_cases hut : u = t
    · subst hut
      simp at hu
    · by_cases hvt : v = t
      · subst hvt
        simp at hv
      · rw [put_stage_of_ne hut] at hu
        rw [put_stage_of_ne hvt] at hv
        exact h.alone u v attempt attempt' hu hv hjob
  justified := h.justified

/-- A delivery gets a row that runs and that no other delivery has. -/
lemma Inv.enter (h : Inv settings task s)
    (hrow : ∃ job ∈ s.ledger, job.id = (task t).jobId ∧ job.status = .running)
    (halone : ∀ u attempt, s.stage u = .scoring attempt → (task u).jobId ≠ (task t).jobId) :
    Inv settings task (s.put t (.scoring attempt)) where
  keyed := h.keyed
  known := h.known
  counted := h.counted
  running u a hu := by
    by_cases hut : u = t
    · rw [hut]
      exact hrow
    · rw [put_stage_of_ne hut] at hu
      exact h.running u a hu
  alone u v a a' hu hv hsame := by
    by_cases hut : u = t
    · by_cases hvt : v = t
      · rw [hut, hvt]
      · rw [put_stage_of_ne hvt] at hv
        rw [hut] at hsame
        exact absurd hsame.symm (halone v a' hv)
    · rw [put_stage_of_ne hut] at hu
      by_cases hvt : v = t
      · rw [hvt] at hsame
        exact absurd hsame (halone u a hu)
      · rw [put_stage_of_ne hvt] at hv
        exact h.alone u v a a' hu hv hsame
  justified := h.justified

/-- The start of a row that is not settled keeps the invariant, if no other delivery has it. -/
lemma Inv.begin (h : Inv settings task s) {job : JobRun} (hjob : job ∈ s.ledger)
    (hid : job.id = (task t).jobId) (hopen : ¬ job.status.Settled)
    (halone : ∀ u attempt, s.stage u = .scoring attempt → (task u).jobId ≠ (task t).jobId) :
    Inv settings task ((s.setJob (task t).jobId (startJob now "scoring")).put t
      (.scoring attempt)) := by
  have hkeep : ∀ job, (startJob now "scoring" job).id = job.id := by
    intro job
    unfold startJob
    split_ifs <;> rfl
  have hnone : s.scoresOf (task t).jobId = [] := by
    have hcount := h.counted job hjob
    rw [if_neg fun hdone => hopen (.inl hdone), hid] at hcount
    exact List.length_eq_zero_iff.mp hcount
  have hstarted := h.setRow .running [] halone ⟨job, hjob, hid⟩ hnone hkeep
    (fun other hother hotherId => by
      rw [h.keyed.eq_of_id_eq hother hjob (hotherId.trans hid.symm)]
      exact startJob_status hopen)
    rfl (by simp)
  rw [List.append_nil] at hstarted
  refine hstarted.enter ⟨startJob now "scoring" job, ?_, ?_, startJob_status hopen⟩ halone
  · exact mem_setJob.mpr ⟨job, hjob, if_pos hid⟩
  · rw [hkeep, hid]

/-- The end of a delivery keeps the invariant. -/
lemma Inv.finish (h : Inv settings task s) (ht : s.stage t = .scoring attempt) (run : ScoringRun) :
    Inv settings task (s.finish env settings task t attempt run) := by
  obtain ⟨job, hjob, hid, hstatus⟩ := h.running t attempt ht
  have hnone : (s.put t .ended).scoresOf (task t).jobId = [] := by
    have hcount := h.counted job hjob
    rw [hstatus, hid] at hcount
    exact List.length_eq_zero_iff.mp hcount
  have hfree : ∀ u a, (s.put t .ended).stage u = .scoring a → (task u).jobId ≠ (task t).jobId := by
    intro u a hu hsame
    by_cases hut : u = t
    · subst hut
      simp at hu
    · rw [put_stage_of_ne hut] at hu
      exact hut (h.alone u t a attempt hu ht hsame)
  unfold ScoringSystem.finish
  cases hbody : scoreBody env settings (task t) run with
  | failed error result =>
    have hfailed := (h.stop t).setRow .failed [] hfree ⟨job, hjob, hid⟩ hnone
      (fun job => show (updateJob run.now
        (JobCall.fail "scoring" (some attempt) error result).args job).id = job.id from rfl)
      (fun _ _ _ => rfl) rfl (by simp)
    rwa [List.append_nil] at hfailed
  | stored row result =>
    refine (h.stop t).setRow .succeeded [⟨(task t).jobId, run, row⟩] hfree ⟨job, hjob, hid⟩ hnone
      (fun _ => rfl) (fun _ _ _ => rfl) rfl ?_
    intro record hrecord
    obtain rfl := List.mem_singleton.mp hrecord
    exact ⟨rfl, justified_of_stored hbody⟩
  | lost => exact h.stop t

/-- A step keeps the invariant, if deliveries of a task follow each other. -/
lemma Inv.step (h : Inv settings task s) {e : ScoringStep T}
    (hstep : s.step env settings task e = some s') (hturn : s.InTurn task e) :
    Inv settings task s' := by
  cases e with
  | create id =>
    simp only [ScoringSystem.step] at hstep
    split_ifs at hstep with hnew
    cases hstep
    exact h.create hnew
  | start t now =>
    obtain ⟨⟨row, hrow, hid⟩, halone⟩ := hturn
    simp only [ScoringSystem.step] at hstep
    split at hstep
    · cases hstep
      unfold ScoringSystem.begin
      cases hfind : s.ledger.find? fun job => job.id = (task t).jobId with
      | none =>
        have habsent := List.find?_eq_none.mp hfind row hrow
        simp [hid] at habsent
      | some job =>
        have hjob := List.mem_of_find?_eq_some hfind
        have hjobId : job.id = (task t).jobId := by simpa using List.find?_some hfind
        dsimp only
        split_ifs with hsettled
        · exact h.stop t
        · exact h.begin hjob hjobId hsettled halone
    · cases hstep
  | finish t run =>
    simp only [ScoringSystem.step] at hstep
    split at hstep
    · next attempt ht =>
      cases hstep
      exact h.finish ht run
    · cases hstep
  | lose t =>
    simp only [ScoringSystem.step] at hstep
    split at hstep
    · cases hstep
      exact h.stop t
    · cases hstep

/-- **One score for a success.** In every run in which the deliveries of a task follow each other, a
row has one score if it has succeeded and none otherwise. Every score is that of a canonical person
who may be scored, it cites only evidence about the person that is open to models, its interval
contains its composite, and it is eligible only if a model was asked.

**Proof sketch.** A delivery on its way has a row that runs, so the row has no score. Its end stores
the score together with the success, and a row that has succeeded is not started again. -/
theorem scores_justified {steps : List (ScoringStep T)}
    (h : History.Guarded (step env settings task) (InTurn task) {} steps) :
    let s := History.replay (step env settings task) {} steps
    (∀ job ∈ s.ledger, (s.scoresOf job.id).length = if job.status = .succeeded then 1 else 0) ∧
      ∀ record ∈ s.records, JustifiedScore settings record.run record.row := by
  have hinv : Inv settings task (History.replay (step env settings task) {} steps) :=
    History.replay_of_guarded _ (fun s e s' hs hstep hturn => hs.step hstep hturn) inv_initial h
  exact ⟨hinv.counted, hinv.justified⟩

end Deliveries

end Runs

/-! ### A task that is delivered twice -/

section Witness

/-- An observation of a repository. -/
private def repoObservation : Observation where
  id := 3
  snapshotId := 4
  subjectId := some 2
  opportunityId := none
  predicate := "bio"
  objectValue := "ships"
  observedAt := 0
  extractorVersion := "github-v1"
  createdAt := 0

/-- A founder with evidence that models may read. -/
private def scoredDb : Db where
  persons := [adaPerson]
  observations := [repoObservation]
  sourceSnapshots :=
    [{ id := 4, uri := "u", sourceType := "github", contentHash := "h", collectedAt := 0
       sourceUsePolicy := { sourceType := "github", modelUse := "allowed" } }]

private def plainScoringEnv : ScoringEnv where
  lib := plainLibraries
  ucd := .ascii
  fingerprintPayload _ := []
  floatText _ := []

private def keylessSettings : ScoringSettings where
  llmApiKey := []
  agentModel := "gpt-4o"
  agentConcurrency := 2

private def adaTask (_ : Bool) : ScoringTask where
  jobId := 7
  personText := "ada"
  personId := some 2

private def keylessRun : ScoringRun where
  now := 30
  persons := scoredDb
  evidence := scoredDb
  order := ⟨id, fun _ => List.Perm.refl _⟩
  answers := ⟨.failed, .failed, .failed, .failed⟩
  exceptionText := []
  runId := 9
  latencyMs := 5

/-- The first delivery is lost, and the second one scores. -/
private def lostThenScored : List (ScoringStep Bool) :=
  [.create 7, .start false 10, .lose false, .start true 20, .finish true keylessRun]

/-- The row that has succeeded has one score. -/
theorem scores_justified_lostThenScored : ∃ job ∈ (History.replay
    (step plainScoringEnv keylessSettings adaTask) {} lostThenScored).ledger,
      job.status = .succeeded ∧ ((History.replay (step plainScoringEnv keylessSettings adaTask) {}
        lostThenScored).scoresOf job.id).length = 1 := by
  have hguarded : History.Guarded (step plainScoringEnv keylessSettings adaTask) (InTurn adaTask) {}
      lostThenScored := by
    refine ⟨fun _ _ => trivial, fun _ _ => ⟨by decide +kernel, fun u a hu => ?_⟩,
      fun _ _ => trivial, fun _ _ => ⟨by decide +kernel, fun u a hu => ?_⟩, fun _ _ => trivial,
      trivial⟩
    · cases u <;> cases hu
    · cases u <;> cases hu
  obtain ⟨job, hjob, hstatus⟩ : ∃ job ∈ (History.replay
      (step plainScoringEnv keylessSettings adaTask) {} lostThenScored).ledger,
        job.status = .succeeded := by
    decide +kernel
  have hcount := (scores_justified hguarded).1 job hjob
  rw [if_pos hstatus] at hcount
  exact ⟨job, hjob, hstatus, hcount⟩

end Witness

end ScoringSystem

end VCBrain
