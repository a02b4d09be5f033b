import Mathlib.Data.Rat.Defs
import VCBrain.Foundation.Dict
import VCBrain.Foundation.Json
import VCBrain.Lifecycle
import VCBrain.SourcePolicy

set_option relaxedAutoImplicit false
set_option autoImplicit false

/-!
# The database

The rows of the tables the program reads and writes, and the database as the tuple of its
tables. A table is the list of its rows in storage order. Columns no modelled function reads
are left out.

## Main definitions

* `Person`, `Observation`, `Claim`, … — one structure for each table.
* `Db` — all tables.
* `Db.insertObservation`, `Db.insertClaim` — insertion under the key constraints of a table.

## Design

An instant is a number of microseconds since the epoch. Scores and confidences are exact
rationals, so the arithmetic on them is exact. Enumerations that the schema restricts by a
check constraint are inductive types; free text columns are `Str`. A row whose primary key
is taken is refused, as the database refuses it; the transaction then fails and is rolled
back.
-/

namespace VCBrain

/-- An instant, in microseconds since the epoch. -/
abbrev Time := ℤ

/-- `timedelta.days`: whole days from `t` to `now`, rounded down. -/
def daysBetween (now t : Time) : ℤ := (now - t) / 86400000000

/-- `if value:` on a nullable text column. -/
def filled : Option Str → Bool
  | none => false
  | some s => !s.isEmpty

/-- `persons`. -/
structure Person where
  id : Uuid
  stableId : Str
  displayName : Option Str := none
  email : Option Str := none
  handles : Option (Dict Str) := none
  consentState : Str := "pending"
  privacyLegalBasis : Option Str := none
  privacyNoticeVersion : Option Str := none
  privacyPurposes : Dict Str := Dict.empty
  privacyProviderPolicyVersion : Option Str := none
  privacyRetentionDays : Option ℤ := none
  privacyResidency : Option Str := none
  supersededById : Option Uuid := none
  canonical : Bool := true
  mergedAt : Option Time := none
  createdAt : Time
deriving DecidableEq

/-- `observations`: raw extractor output before reconciliation. -/
structure Observation where
  id : Uuid
  snapshotId : Uuid
  subjectId : Option Uuid
  opportunityId : Option Uuid
  predicate : Str
  objectValue : Str
  sourceLocator : Option Json := none
  observedAt : Time
  extractorVersion : Str
  persistenceFingerprint : Option Str := none
  confidence : ℚ := 1
  createdAt : Time

/-- `source_snapshots`: collected content, by its hash. -/
structure SourceSnapshot where
  id : Uuid
  uri : Str
  sourceType : Str
  contentHash : Str
  persistenceFingerprint : Option Str := none
  sourceUsePolicy : SourceUsePolicy
  collectedAt : Time

/-- `ck_claims_status`. -/
inductive ClaimStatus where
  | supported
  | contradicted
  | unverified
  | tavilySynthesized
deriving DecidableEq

/-- The inputs of a trust score, kept with it as `trust_components`. -/
structure TrustComponents where
  sourceAuthority : ℚ
  directness : ℚ
  independence : ℚ
  corroboration : ℚ
  freshness : ℚ
  extractionConfidence : ℚ
  identityConfidence : ℚ
  contradictionPenalty : ℚ
  observationCount : ℕ
deriving DecidableEq

/-- A trust score with its interval and inputs. -/
structure Trust where
  version : Str
  score : ℚ
  low : ℚ
  high : ℚ
  components : TrustComponents
deriving DecidableEq

/-- `claims`: reconciled facts. A claim without `supersessionId` is current. -/
structure Claim where
  id : Uuid
  observationIds : List Str
  subjectId : Option Uuid
  opportunityId : Option Uuid
  predicate : Str
  objectValue : Str
  status : ClaimStatus
  confidence : ℚ
  trust : Option Trust := none
  validTimeStart : Time
  validTimeEnd : Option Time := none
  supersessionId : Option Uuid := none
  createdAt : Time
deriving DecidableEq

/-- `relationships`. -/
structure Relationship where
  id : Uuid
  personAId : Uuid
  personBId : Uuid
deriving DecidableEq

/-- `score_snapshots`. -/
structure ScoreSnapshot where
  id : Uuid
  subjectId : Uuid
  subjectType : Str
  rubricVersion : Str
  components : Dict ℚ := Dict.empty
  createdAt : Time
deriving DecidableEq

/-- `ck_opportunities_sla_attainment`. -/
inductive SlaAttainment where
  | pending
  | met
  | breached
deriving DecidableEq

/-- `opportunities`. -/
structure Opportunity where
  id : Uuid
  companyName : Str
  sourceKind : Str
  lifecycleState : Stage
  thesisVersion : Option Str := none
  receivedAt : Option Time := none
  decisionDueAt : Option Time := none
  slaPauseReason : Option Str := none
  slaAttainment : SlaAttainment := .pending
  slaDecidedAt : Option Time := none
  createdAt : Time
  updatedAt : Time := createdAt
deriving DecidableEq

/-- `opportunity_founders`, keyed by opportunity and person. -/
structure OpportunityFounder where
  opportunityId : Uuid
  personId : Uuid
  role : Str
deriving DecidableEq

/-- `decision_events`: the transitions of an opportunity and the notes of the pipeline. -/
structure DecisionEvent where
  id : Uuid
  opportunityId : Uuid
  priorState : Stage
  newState : Stage
  actor : Str
  idempotencyKey : Option Str := none
  reason : Option Str
  slaMetadata : Option Json := some (.obj [])
  createdAt : Time

/-- `assessments`: one per axis and assessment of an opportunity. -/
structure Assessment where
  id : Uuid
  opportunityId : Uuid
  axis : Str
  rating : Str
  confidence : ℚ := 1
  unknowns : List Str := []
  createdAt : Time
deriving DecidableEq

/-- `investment_memos`. -/
structure InvestmentMemo where
  id : Uuid
  opportunityId : Uuid
  thesisVersion : Str
  status : Str
  claimIds : List Str
  assessmentIds : List Str
  createdAt : Time
deriving DecidableEq

/-- The columns of a proposal that `build_decision_proposal` computes. -/
structure ProposalValues where
  action : Str
  conviction : Option Str
  founderAssessmentId : Option Uuid
  marketAssessmentId : Option Uuid
  ideaMarketAssessmentId : Option Uuid
  topEvidence : List Str
  topRisks : List Str
  openConditions : List Str
  readinessBlockers : List Str
  readinessStatus : Str
  thesisVersion : Option Str
  rubricVersions : List Str
  memoModelVersion : Option Str
  overrideReason : Option Str := none
  status : Str := "draft"
deriving DecidableEq

/-- `decision_proposals`. -/
structure DecisionProposal extends ProposalValues where
  id : Uuid
  opportunityId : Uuid
  memoId : Option Uuid
  createdAt : Time
deriving DecidableEq

/-- `outreach_messages`. -/
structure OutreachMessage where
  id : Uuid
  personId : Uuid
deriving DecidableEq

/-- `inbound_submissions`. -/
structure InboundSubmission where
  id : Uuid
  idempotencyKey : Str
  personId : Uuid
  opportunityId : Uuid
  snapshotId : Uuid
  status : Str
  founderEvidence : List (Str × Str)
deriving DecidableEq

/-- `candidate_feedback`. -/
structure CandidateFeedback where
  id : Uuid
  personId : Uuid
deriving DecidableEq

/-- The states of a row of the identity review queue. -/
inductive MatchStatus where
  | pending
  | approved
  | rejected
deriving DecidableEq

/-- `person_matches`: the identity review queue. -/
structure PersonMatch where
  id : Uuid
  personAId : Uuid
  personBId : Uuid
  confidence : ℚ
  reasons : List Str
  status : MatchStatus := .pending
  resolvedAt : Option Time := none
deriving DecidableEq

/-- The database. -/
structure Db where
  persons : List Person := []
  sourceSnapshots : List SourceSnapshot := []
  observations : List Observation := []
  claims : List Claim := []
  relationships : List Relationship := []
  scoreSnapshots : List ScoreSnapshot := []
  opportunities : List Opportunity := []
  opportunityFounders : List OpportunityFounder := []
  outreachMessages : List OutreachMessage := []
  inboundSubmissions : List InboundSubmission := []
  candidateFeedback : List CandidateFeedback := []
  personMatches : List PersonMatch := []
  decisionEvents : List DecisionEvent := []
  assessments : List Assessment := []
  investmentMemos : List InvestmentMemo := []
  decisionProposals : List DecisionProposal := []

/-- `session.get(Person, id)`. -/
def Db.person? (db : Db) (id : Uuid) : Option Person := db.persons.find? fun p => p.id = id

/-- The row of an opportunity. -/
def Db.opportunity? (db : Db) (id : Uuid) : Option Opportunity :=
  db.opportunities.find? fun o => o.id = id

/-- The events of an opportunity. -/
def Db.eventsOf (db : Db) (id : Uuid) : List DecisionEvent :=
  db.decisionEvents.filter fun e => e.opportunityId = id

/-! ## Key constraints -/

/-- Insert an observation: its id is the primary key, and a fingerprint that is set is unique. -/
def insertObservation (rows : List Observation) (o : Observation) : Option (List Observation) :=
  if ∃ r ∈ rows, r.id = o.id ∨
      (o.persistenceFingerprint.isSome ∧ r.persistenceFingerprint = o.persistenceFingerprint)
  then none
  else some (rows ++ [o])

/-- Insert a claim: its id is the primary key. -/
def insertClaim (rows : List Claim) (c : Claim) : Option (List Claim) :=
  if ∃ r ∈ rows, r.id = c.id then none else some (rows ++ [c])

/-- No two rows of the list have one id. -/
def KeyUnique {ρ : Type*} (id : ρ → Uuid) (rows : List ρ) : Prop := (rows.map id).Nodup

lemma KeyUnique.eq_of_id_eq {ρ : Type*} {id : ρ → Uuid} {rows : List ρ}
    (h : KeyUnique id rows) {r s : ρ} (hr : r ∈ rows) (hs : s ∈ rows) (heq : id r = id s) :
    r = s :=
  List.inj_on_of_nodup_map h hr hs heq

/-- A row under a new id keeps the ids distinct. -/
lemma KeyUnique.append {ρ : Type*} {id : ρ → Uuid} {rows : List ρ} {r : ρ}
    (h : KeyUnique id rows) (hnew : ∀ row ∈ rows, id row ≠ id r) :
    KeyUnique id (rows ++ [r]) := by
  simp only [KeyUnique, List.map_append, List.map_cons, List.map_nil]
  refine List.nodup_append.mpr ⟨h, List.nodup_singleton _, ?_⟩
  simp only [List.mem_map, List.mem_singleton]
  rintro _ ⟨row, hrow, rfl⟩ _ rfl
  exact hnew row hrow

/-- The rows with one of them replaced by a new version. -/
def replaceOpportunity (rows : List Opportunity) (new : Opportunity) : List Opportunity :=
  rows.map fun o => if o.id = new.id then new else o

private lemma id_replaced (new o : Opportunity) :
    (if o.id = new.id then new else o).id = o.id := by
  by_cases h : o.id = new.id
  · rw [if_pos h, h]
  · rw [if_neg h]

/-- Replacing a row keeps the ids. -/
lemma map_id_replaceOpportunity (rows : List Opportunity) (new : Opportunity) :
    (replaceOpportunity rows new).map Opportunity.id = rows.map Opportunity.id := by
  unfold replaceOpportunity
  rw [List.map_map]
  exact List.map_congr_left fun o _ => id_replaced new o

/-- Replacing a row replaces what is found under its id. -/
lemma find?_replaceOpportunity (rows : List Opportunity) (new : Opportunity) (id : Uuid) :
    ((replaceOpportunity rows new).find? fun o => o.id = id) =
      (rows.find? fun o => o.id = id).map fun o => if o.id = new.id then new else o := by
  unfold replaceOpportunity
  rw [List.find?_map]
  simp only [Function.comp_def, id_replaced]

/-- The row of an opportunity carries its id. -/
lemma id_of_opportunity? {db : Db} {o : Opportunity} {id : Uuid} (h : db.opportunity? id = some o) :
    o.id = id := by
  unfold Db.opportunity? at h
  simpa using List.find?_some h

/-- The row of an opportunity of the table. -/
lemma opportunity?_of_mem {db : Db} {opp : Opportunity}
    (hkey : KeyUnique Opportunity.id db.opportunities)
    (hmem : opp ∈ db.opportunities) : db.opportunity? opp.id = some opp := by
  unfold Db.opportunity?
  cases hfind : db.opportunities.find? fun o => o.id = opp.id with
  | none => simpa using List.find?_eq_none.mp hfind opp hmem
  | some o =>
    have hid : o.id = opp.id := by simpa using List.find?_some hfind
    rw [hkey.eq_of_id_eq (List.mem_of_find?_eq_some hfind) hmem hid]

/-- A successful insertion of an observation appends it under a new id. -/
lemma insertObservation_eq_some {rows rows' : List Observation} {o : Observation}
    (h : insertObservation rows o = some rows') :
    rows' = rows ++ [o] ∧ ∀ r ∈ rows, r.id ≠ o.id := by
  unfold insertObservation at h
  split_ifs at h with htaken
  push Not at htaken
  exact ⟨(Option.some.inj h).symm, fun r hr => (htaken r hr).1⟩

/-- A successful insertion of a claim appends it under a new id. -/
lemma insertClaim_eq_some {rows rows' : List Claim} {c : Claim}
    (h : insertClaim rows c = some rows') :
    rows' = rows ++ [c] ∧ ∀ r ∈ rows, r.id ≠ c.id := by
  unfold insertClaim at h
  split_ifs at h with htaken
  push Not at htaken
  exact ⟨(Option.some.inj h).symm, htaken⟩

/-- A successful insertion of several observations appends them. -/
lemma foldlM_insertObservation_eq_some {os rows rows' : List Observation}
    (h : os.foldlM insertObservation rows = some rows') : rows' = rows ++ os := by
  induction os generalizing rows with
  | nil =>
    obtain rfl : rows = rows' := by simpa using h
    simp
  | cons o os ih =>
    rw [List.foldlM_cons] at h
    obtain ⟨rows₁, hfirst, hrest⟩ := Option.bind_eq_some_iff.mp h
    obtain ⟨rfl, -⟩ := insertObservation_eq_some hfirst
    simp [ih hrest]

/-- Insertion keeps the ids of observations distinct. -/
lemma KeyUnique.insertObservation {rows rows' : List Observation} {o : Observation}
    (hu : KeyUnique Observation.id rows) (h : insertObservation rows o = some rows') :
    KeyUnique Observation.id rows' := by
  obtain ⟨rfl, hnew⟩ := insertObservation_eq_some h
  exact hu.append hnew

end VCBrain
