import VCBrain.Collectors.Persistence
import VCBrain.Foundation.Dict
import VCBrain.Processing.Reconcile

set_option relaxedAutoImplicit false
set_option autoImplicit false

/-!
# The inbound pitch job

`process_inbound_pitch_job`: the pages of an uploaded deck, the company name and the founder's
direct evidence become observations on the founder, scoped to the opportunity of the submission,
and the observations are reconciled.

## Main definitions

* `extractPdfPages` — the text of the pages within the text budget, with their locators.
* `InboundPitch` — what the job is called with and what it reads from outside.
* `processInboundPitch` — the parsing transaction of the job.
* `inboundPitchPipeline` — parsing followed by reconciliation.

## Design

The PDF library is outside the model: a deck is given by the text of each page, or is
unreadable. The digest of fingerprints and the draws of `uuid4` are inputs. The job ledger is
left out; a failure is its error code.
-/

namespace VCBrain

/-! ## Pages -/

/-- The locator of a page: its number and the range of characters kept. -/
def pdfLocator (page charEnd : ℕ) : Json :=
  .obj [("kind", .str "pdf"), ("page", .int page), ("char_start", .int 0),
    ("char_end", .int charEnd)]

/-- The loop of `extract_pdf_pages`: it ends when the text budget is used up. -/
def extractPages (pageNumber remaining : ℕ) : List Str → List (Str × Json)
  | [] => []
  | text :: rest =>
    if remaining = 0 then []
    else
      let bounded := text.take remaining
      (bounded, pdfLocator pageNumber bounded.length) ::
        extractPages (pageNumber + 1) (remaining - bounded.length) rest

/-- `extract_pdf_pages`: `none` is `UploadRejected`, for an unreadable PDF or one without pages
or with too many. -/
def extractPdfPages (pdf : Option (List Str)) (maxPages maxTextChars : ℕ) :
    Option (List (Str × Json)) :=
  match pdf with
  | none => none
  | some texts =>
    if texts.length < 1 then none
    else if maxPages < texts.length then none
    else some (extractPages 1 maxTextChars texts)

/-! ## Observations of a submission -/

/-- What an extractor says about the founder: the part of an observation that identifies it
among those of one submission. -/
structure Extraction where
  predicate : Str
  objectValue : Str
  extractorVersion : Str
  sourceLocator : Option Json := none

/-- The extraction an observation was made of. -/
def Observation.extraction (obs : Observation) : Extraction where
  predicate := obs.predicate
  objectValue := obs.objectValue
  extractorVersion := obs.extractorVersion
  sourceLocator := obs.sourceLocator

/-- `_observation_key`: a retry key that preserves repeated text on different pages. -/
def observationKey (e : Extraction) : Str × Str × Str × Str :=
  (e.predicate, e.objectValue, e.extractorVersion, (e.sourceLocator.getD (.obj [])).dumps)

/-- The value of a page: its text, or a placeholder. -/
def pageValue (text : Str) : Str :=
  if text = [] then "[No extractable text on page]" else text

/-- The observation of one page. -/
def pageExtraction (page : Str × Json) : Extraction where
  predicate := "pitch_deck_page_text"
  objectValue := pageValue page.1
  extractorVersion := "inbound-v1"
  sourceLocator := some page.2

/-- The observation of the company name. -/
def companyExtraction (companyName : Str) : Extraction where
  predicate := "company_name"
  objectValue := companyName
  extractorVersion := "inbound-v1"

/-- `evidence_predicates`. -/
def evidencePredicates : List (Str × Str) :=
  [("work_sample_url", "founder_work_sample_url"),
    ("work_sample_description", "founder_work_sample_description"),
    ("learning_velocity", "founder_learning_velocity"),
    ("reference_context", "founder_reference_context"),
    ("interview_context", "founder_interview_context")]

/-- The observation of one field of founder evidence; unknown and blank fields have none. -/
def evidenceExtraction (item : Str × Str) : Option Extraction :=
  match evidencePredicates.lookup item.1 with
  | none => none
  | some predicate =>
    if item.2.strip = [] then none
    else some
      { predicate := predicate
        objectValue := item.2.strip
        extractorVersion := "inbound-evidence-v1"
        sourceLocator := some (.obj [("kind", .str "submission_field"), ("field", .str item.1)]) }

/-- `observations_to_add`. -/
def deckExtractions (pages : List (Str × Json)) (companyName : Str)
    (founderEvidence : Dict Str) : List Extraction :=
  pages.map pageExtraction ++ companyExtraction companyName ::
    founderEvidence.items.filterMap evidenceExtraction

/-- The loop that skips extractions whose key exists already. -/
def deduplicate (existingKeys : List (Str × Str × Str × Str)) : List Extraction → List Extraction
  | [] => []
  | e :: es =>
    if observationKey e ∈ existingKeys then deduplicate existingKeys es
    else e :: deduplicate (observationKey e :: existingKeys) es

/-! ## The job -/

/-- The arguments of the job and what it reads from outside the database. -/
structure InboundPitch where
  personId : Uuid
  snapshotId : Uuid
  opportunityId : Uuid
  companyName : Str
  founderEvidence : Dict Str
  snapshotFound : Bool := true
  pdf : Option (List Str)
  maxPages : ℕ := 100
  maxTextChars : ℕ := 50000
  now : Time
  md5 : List UInt8 → Str
  draw : ℕ → Uuid

namespace InboundPitch

variable (pitch : InboundPitch)

/-- The pages the job reads. -/
def pages : List (Str × Json) :=
  (extractPdfPages pitch.pdf pitch.maxPages pitch.maxTextChars).getD []

/-- The observation written for an extraction. -/
def observation (id : Uuid) (e : Extraction) : Observation where
  id := id
  snapshotId := pitch.snapshotId
  subjectId := some pitch.personId
  opportunityId := some pitch.opportunityId
  predicate := e.predicate
  objectValue := e.objectValue
  sourceLocator := e.sourceLocator
  observedAt := pitch.now
  extractorVersion := e.extractorVersion
  persistenceFingerprint := some (observationPersistenceFingerprint pitch.md5 pitch.snapshotId
    (some pitch.personId) (some pitch.opportunityId) e.predicate e.objectValue
    e.extractorVersion e.sourceLocator)
  confidence := 1
  createdAt := pitch.now

/-- The observations of the submission that exist already. -/
def existing (db : Db) : List Observation :=
  db.observations.filter fun obs => obs.snapshotId = pitch.snapshotId ∧
    obs.subjectId = some pitch.personId ∧ obs.opportunityId = some pitch.opportunityId

/-- The observations the job writes. -/
def observationsToAdd (db : Db) : List Observation :=
  (deduplicate ((pitch.existing db).map fun obs => observationKey obs.extraction)
    (deckExtractions pitch.pages pitch.companyName pitch.founderEvidence)).mapIdx fun i e =>
      pitch.observation (pitch.draw i) e

end InboundPitch

/-- The parsing transaction of `process_inbound_pitch_job`: the database with the observations
of the deck and their number, or the error code of the failure. -/
def processInboundPitch (pitch : InboundPitch) (db : Db) : Except Str (Db × ℕ) :=
  if pitch.snapshotFound = false then .error "snapshot_not_found"
  else if (extractPdfPages pitch.pdf pitch.maxPages pitch.maxTextChars).isNone then
    .error "pdf_rejected"
  else
    let observations := pitch.observationsToAdd db
    match observations.foldlM insertObservation db.observations with
    | none => .error "database_failure"
    | some rows => .ok ({ db with observations := rows }, observations.length)

/-- Parsing followed by the reconciliation `process_candidate_job` starts with. -/
def inboundPitchPipeline (pitch : InboundPitch) (now : Time) (draw : ℕ → Uuid) (db : Db) :
    Option Db := do
  let (db, _) ← (processInboundPitch pitch db).toOption
  let (db, _) ← reconcileObservations pitch.personId now draw db
  some db

end VCBrain
