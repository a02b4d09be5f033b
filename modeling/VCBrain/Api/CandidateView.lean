import VCBrain.Api.CurrentOpportunity
import VCBrain.Foundation.NewestFirst
import VCBrain.Identity.HandleLookup
import VCBrain.Processing.Trust
import VCBrain.Sla

set_option relaxedAutoImplicit false
set_option autoImplicit false

/-!
# What is shown of a candidate

The candidate list fetches scores, opportunities and evidence for all persons of a page at once, the
candidate detail for one person. Both build the response of a person from what they have fetched.

## Main definitions

* `mapPersonToCandidate` — the response of a person.
* `fetchScoreSnapshots`, `fetchCandidateProfiles`, … — the queries for the persons of a page.
* `candidateItem`, `getCandidate` — a candidate of the list, and the candidate of the detail.

## Main results

* `getCandidate_eq_candidateItem` — the detail shows every candidate of every page as the page does.

## Design

Columns that the tables of `Db` leave out are given by the id of the row, deadlines as the instants
that they denote. The order in which a query returns rows of equal time is open, and another one in
every query. Numbers of a score are the JSON values of its column. The evidence lists of the detail
are left out.
-/

namespace VCBrain

/-! ## The response -/

/-- The columns of candidates that `Db` leaves out. -/
structure CandidateColumns where
  /-- `score_snapshots.components`. -/
  components : Uuid → Dict Json
  /-- `if person.avatar_data`. -/
  hasAvatar : Uuid → Bool
  avatarSourceType : Uuid → Option Str
  /-- `opportunities.stage_deadlines`, without those that are no instants. -/
  stageDeadlines : Uuid → Dict Time
  slaOwner : Uuid → Option Str

/-- What the response of a candidate takes from outside. -/
structure ViewEnv where
  ucd : Ucd
  /-- `repr` of a value that is no text. -/
  repr : Json → Str
  columns : CandidateColumns
  /-- The clock of `evaluate_sla`. -/
  now : Time

/-- `CandidateScores`. -/
structure CandidateScores where
  novelty : Option Json
  momentum : Option Json
  thesisFit : Option Json
  founder : Option Json
  market : Option Json
  ideaMarket : Option Json
  discoverySignal : Option Json
  evidenceConfidence : Option Json
  raw : List (Str × Json)
deriving DecidableEq

/-- `CandidateProfileSummary`. -/
structure CandidateProfileSummary where
  company : Option Str
  role : Option Str
  location : Option Str
  summary : Option Str
  website : Option Str
  deckUrl : Option Str
  deckTitle : Option Str
  deckStage : Option Str
  inboundLabel : Option Str
  sourceTypes : List Str
  observationCount : ℕ
  completeness : ℚ := 0
deriving DecidableEq

/-- `CandidateThesisMatch`. -/
structure CandidateThesisMatch where
  version : Str
  score : Json
  confidence : Json
  hardEligible : Bool
  matched : List Str
  failed : List Str
  unknown : List Str
  criteria : List (Str × Json)
deriving DecidableEq

/-- `CandidateSLAResponse`. -/
structure CandidateSla where
  receivedAt : Option Time
  decisionDueAt : Option Time
  stageDeadlines : Dict Time
  owner : Option Str
  pauseReason : Option Str
  stage : Option Str
  status : SlaStatus
  attainment : SlaAttainment
  remainingSeconds : Option ℤ
  stageRemainingSeconds : Option ℤ
  elapsedSeconds : Option ℤ
  alert : Bool
  alertLevel : Str
deriving DecidableEq

/-- `CandidateResponse`. -/
structure CandidateResponse where
  id : Uuid
  stableId : Str
  displayName : Option Str
  email : Option Str
  handles : Option (Dict Str)
  consentState : Str
  origin : Option Str
  scores : Option CandidateScores
  thesisMatch : Option CandidateThesisMatch
  profile : Option CandidateProfileSummary
  avatarUrl : Option Str
  avatarSource : Option Str
  latestScoreAt : Option Time
  createdAt : Time
  lifecycleStage : Option Stage
  sla : Option CandidateSla
deriving DecidableEq

/-! ## The decision clock -/

/-- `current_stage`. -/
def currentStage : Stage → Option Str
  | .received | .triage => some "triage"
  | .screening => some "screening"
  | .diligence => some "diligence"
  | .memoReady | .hold | .approved | .closed => some "human_decision"
  | .discovered | .interesting | .investigating | .contacted => none

/-- `int(delta.total_seconds())`. -/
def wholeSeconds (delta : Time) : ℤ := delta.tdiv 1000000

/-- `alert_level`. -/
def alertLevel : SlaStatus → Str
  | .paused => "paused"
  | .breached => "breach"
  | .atRisk => "warning"
  | .notStarted | .met | .onTrack => "none"

/-- `evaluate_sla` with all that it returns. -/
def slaResponse (env : ViewEnv) (o : Opportunity) : CandidateSla :=
  let (status, attainment) := evaluateSla o env.now
  match o.receivedAt, o.decisionDueAt with
  | some received, some due =>
    { receivedAt := received
      decisionDueAt := due
      stageDeadlines := env.columns.stageDeadlines o.id
      owner := env.columns.slaOwner o.id
      pauseReason := o.slaPauseReason
      stage := currentStage o.lifecycleState
      status := status
      attainment := attainment
      remainingSeconds := some (wholeSeconds (due - env.now))
      stageRemainingSeconds := (currentStage o.lifecycleState).bind fun stage =>
        ((env.columns.stageDeadlines o.id).get? stage).map fun d => wholeSeconds (d - env.now)
      elapsedSeconds := some (max 0 (wholeSeconds (env.now - received)))
      alert := status = .atRisk ∨ status = .breached
      alertLevel := alertLevel status }
  | _, _ =>
    { receivedAt := none
      decisionDueAt := none
      stageDeadlines := Dict.empty
      owner := env.columns.slaOwner o.id
      pauseReason := o.slaPauseReason
      stage := none
      status := status
      attainment := attainment
      remainingSeconds := none
      stageRemainingSeconds := none
      elapsedSeconds := none
      alert := false
      alertLevel := "none" }

/-! ## The scores -/

/-- `isinstance(value, (int, float))`, which is true of a boolean. -/
def numeric : Json → Bool
  | .bool _ | .int _ | .float _ => true
  | .null | .str _ | .arr _ | .obj _ => false

/-- `bool(value)`. -/
def truthy : Json → Bool
  | .null => false
  | .bool b => b
  | .int n => n ≠ 0
  | .float repr => repr ≠ ("0.0" : Str) ∧ repr ≠ ("-0.0" : Str)
  | .str s => s ≠ []
  | .arr items => items ≠ []
  | .obj fields => fields ≠ []

/-- `[str(item) for item in value]`, if the value is a list. -/
def textItems (env : ViewEnv) : Option Json → List Str
  | some (.arr items) => items.map (Json.pyStr env.repr)
  | _ => []

/-- `components.get(key)`, where a null is no value. -/
def scoreValue (components : Dict Json) (key : Str) : Option Json :=
  (components.get? key).filter fun value => value ≠ .null

/-- The axes that belong to an opportunity. -/
def opportunityAxes : List Str := ["market", "idea_market"]

/-- `components` of the person: for each key the value of the newest snapshot that has it. -/
def personComponents (env : ViewEnv) (snapshots : List ScoreSnapshot) : Dict Json :=
  Dict.setDefaults (snapshots.flatMap fun s =>
    (env.columns.components s.id).items.filter fun item => item.1 ∉ opportunityAxes)

/-- The axes of the opportunity are put in. -/
def withOpportunityAxes (env : ViewEnv) (opportunityScore : Option ScoreSnapshot)
    (components : Dict Json) : Dict Json :=
  opportunityScore.elim components fun s =>
    opportunityAxes.foldl (fun components key =>
      match (env.columns.components s.id).get? key with
      | some value => if numeric value then components.set key value else components
      | none => components) components

/-- `scores`. -/
def candidateScores (components : Dict Json) : CandidateScores where
  novelty := scoreValue components "novelty"
  momentum := scoreValue components "momentum"
  thesisFit := scoreValue components "thesis_fit"
  founder := scoreValue components "founder"
  market := scoreValue components "market"
  ideaMarket := scoreValue components "idea_market"
  discoverySignal := scoreValue components "composite"
  evidenceConfidence := scoreValue components "evidence_confidence"
  raw := components.items.filter fun item => numeric item.2

/-- `thesis_match`, of the newest snapshot of a thesis. -/
def candidateThesisMatch (env : ViewEnv) (snapshots : List ScoreSnapshot) :
    Option CandidateThesisMatch := do
  let snapshot ← snapshots.find? fun s => ("thesis-match-" : Str).isPrefixOf s.rubricVersion
  let components := env.columns.components snapshot.id
  let score ← components.get? "thesis_fit"
  let confidence ← components.get? "thesis_confidence"
  match components.get? "thesis_version" with
  | some (.str version) =>
    if numeric score ∧ numeric confidence then
      return {
        version := version
        score := score
        confidence := confidence
        hardEligible := ((components.get? "hard_eligible").map truthy).getD true
        matched := textItems env (components.get? "matched")
        failed := textItems env (components.get? "failed")
        unknown := textItems env (components.get? "unknown")
        criteria := match components.get? "criteria" with
          | some (.obj fields) => fields
          | _ => [] }
    else none
  | _ => none

/-- `completeness`: how many of eight fields are known. -/
def completeness (person : Person) (profile : CandidateProfileSummary)
    (scores : Option CandidateScores) : ℚ :=
  let known : List Bool := [
    person.displayName.isSome, profile.company.isSome, profile.location.isSome,
    profile.summary.isSome, (scores.bind CandidateScores.founder).isSome,
    (scores.bind CandidateScores.market).isSome, (scores.bind CandidateScores.ideaMarket).isSome,
    profile.observationCount ≠ 0]
  roundTo 3 (known.count true / 8)

/-- `map_person_to_candidate`, as the routes call it. -/
def mapPersonToCandidate (env : ViewEnv) (person : Person) (origin : Option Str)
    (scoreSnapshots : List ScoreSnapshot) (opportunityScore : Option ScoreSnapshot)
    (profile : Option CandidateProfileSummary) (lifecycleStage : Option Stage)
    (sla : Option CandidateSla) : CandidateResponse :=
  let snapshots := Keyset.sorted ScoreSnapshot.createdAt scoreSnapshots
  let components := withOpportunityAxes env opportunityScore (personComponents env snapshots)
  let scores := if components.items = [] then none else some (candidateScores components)
  { id := person.id
    stableId := person.stableId
    displayName := person.displayName
    email := person.email
    handles := person.handles
    consentState := person.consentState
    origin := origin
    scores := scores
    thesisMatch := candidateThesisMatch env snapshots
    profile := profile.map fun profile =>
      { profile with completeness := completeness person profile scores }
    avatarUrl :=
      if env.columns.hasAvatar person.id then
        some ("/api/v1/candidates/" ++ person.id.str ++ "/avatar".toList)
      else none
    avatarSource := env.columns.avatarSourceType person.id
    latestScoreAt :=
      if components.items = [] then none else snapshots.head?.map ScoreSnapshot.createdAt
    createdAt := person.createdAt
    lifecycleStage := lifecycleStage
    sla := sla }

/-! ## The queries -/

/-- `_fetch_score_snapshots`: the entry of a person. -/
def fetchScoreSnapshots (order : RowOrder ScoreSnapshot) (db : Db) (personIds : List Uuid)
    (personId : Uuid) : List ScoreSnapshot :=
  (Keyset.sorted ScoreSnapshot.createdAt (order.arrange (db.scoreSnapshots.filter fun s =>
    s.subjectId ∈ personIds ∧ s.subjectType = ("person" : Str)))).filter fun s =>
      s.subjectId = personId

/-- The rows of `_fetch_candidate_profiles`: observations of the persons with their snapshots. -/
def profileRows (db : Db) (personIds : List Uuid) : List (Observation × SourceSnapshot) :=
  (db.observations.flatMap fun o =>
    (db.sourceSnapshots.filter fun snapshot => snapshot.id = o.snapshotId).map fun snapshot =>
      (o, snapshot)).filter fun row => ∃ personId ∈ row.1.subjectId, personId ∈ personIds

/-- `x or y` of two optional texts. -/
def orElse (x y : Option Str) : Option Str := if filled x then x else y

/-- The value that an observation gives to its predicate. -/
def profileEntry (env : ViewEnv) (row : Observation × SourceSnapshot) : Option (Str × Str) :=
  let value := row.1.objectValue.strip
  if value = [] then none else some (env.ucd.lower row.1.predicate, value)

/-- The profile that the rows of a person give. -/
def candidateProfile (env : ViewEnv) (items : List (Observation × SourceSnapshot)) :
    CandidateProfileSummary :=
  let values := Dict.setDefaults (items.filterMap (profileEntry env))
  { company := orElse (values.get? "company") (values.get? "company_name")
    role := orElse (orElse (values.get? "role") (values.get? "title")) (values.get? "headline")
    location := values.get? "location"
    summary := orElse (orElse (values.get? "research_founder_summary")
      (values.get? "inbound_summary")) (values.get? "bio")
    website := orElse (values.get? "blog_url") (values.get? "website")
    deckUrl := values.get? "pitch_deck_url"
    deckTitle := values.get? "pitch_deck_title"
    deckStage := values.get? "pitch_deck_stage"
    inboundLabel := values.get? "inbound_label"
    sourceTypes := sortedSet (items.map fun row => row.2.sourceType)
    observationCount := items.length }

/-- `_fetch_candidate_profiles`: the entry of a person. -/
def fetchCandidateProfile (env : ViewEnv) (order : RowOrder (Observation × SourceSnapshot))
    (db : Db) (personIds : List Uuid) (personId : Uuid) : Option CandidateProfileSummary :=
  let items := (Keyset.sorted (fun row : Observation × SourceSnapshot => row.1.observedAt)
    (order.arrange (profileRows db personIds))).filter fun row => row.1.subjectId = some personId
  if items = [] then none else some (candidateProfile env items)

/-- The latest opportunity of a person that is asked for, as `_fetch_origin`,
`_fetch_lifecycle_stages` and `_fetch_sla_statuses` select it. -/
def fetchLatest (db : Db) (personIds : List Uuid) (personId : Uuid) : Option Opportunity :=
  if personId ∈ personIds then latestOpportunityRow db personId else none

/-- `origins.get(p.id) or ("outbound" if p.handles else None)`. -/
def candidateOrigin (db : Db) (personIds : List Uuid) (p : Person) : Option Str :=
  orElse ((fetchLatest db personIds p.id).map Opportunity.sourceKind)
    (if ∃ handles ∈ p.handles, handles.items ≠ [] then some "outbound" else none)

/-- The orders in which the queries of a request return rows of equal time. -/
structure ViewOrders where
  scores : RowOrder ScoreSnapshot
  opportunityScores : RowOrder (Uuid × ScoreSnapshot)
  profiles : RowOrder (Observation × SourceSnapshot)
  opportunity : RowOrder Opportunity

/-- What both routes show of a person, apart from the clock. -/
def candidateWith (env : ViewEnv) (orders : ViewOrders) (db : Db) (personIds : List Uuid)
    (p : Person) (sla : Option CandidateSla) : CandidateResponse :=
  mapPersonToCandidate env p (candidateOrigin db personIds p)
    (fetchScoreSnapshots orders.scores db personIds p.id)
    (fetchOpportunityScore orders.opportunityScores db personIds p.id)
    (fetchCandidateProfile env orders.profiles db personIds p.id)
    ((fetchLatest db personIds p.id).map Opportunity.lifecycleState) sla

/-- A candidate of a page of the list. -/
def candidateItem (env : ViewEnv) (orders : ViewOrders) (db : Db) (page : List Person)
    (p : Person) : CandidateResponse :=
  let personIds := page.map Person.id
  candidateWith env orders db personIds p ((fetchLatest db personIds p.id).map (slaResponse env))

/-- The candidate of `get_candidate`; there is none with status 404. -/
def getCandidate (env : ViewEnv) (orders : ViewOrders) (db : Db) (candidateId : Uuid) :
    Option CandidateResponse := do
  let p ← db.person? candidateId
  if p.canonical then
    return candidateWith env orders db [p.id] p
      ((detailOpportunity orders.opportunity db p.id).map (slaResponse env))
  else none

/-! ## One page or one person -/

/-- What is shown of a person does not hang on the order of rows of equal time: no two scores of the
person or of the current opportunity are of one time, one opportunity only was created last, and
observations of one time and predicate say the same. -/
structure ToldApart (env : ViewEnv) (db : Db) (personId : Uuid) : Prop where
  scores : ∀ s ∈ db.scoreSnapshots, ∀ t ∈ db.scoreSnapshots, s.subjectId = t.subjectId →
    s.subjectType = t.subjectType →
      (s.subjectId = personId ∨ ∃ o, CreatedLast db personId o ∧ s.subjectId = o.id) →
        s.createdAt = t.createdAt → s = t
  opportunity : ∀ o o', CreatedLast db personId o → CreatedLast db personId o' → o = o'
  evidence : ∀ o ∈ db.observations, ∀ o' ∈ db.observations, o.subjectId = some personId →
    o'.subjectId = some personId → o.observedAt = o'.observedAt →
      env.ucd.lower o.predicate = env.ucd.lower o'.predicate → o.objectValue.strip ≠ [] →
        o'.objectValue.strip ≠ [] → o.objectValue.strip = o'.objectValue.strip

section Views

variable {env : ViewEnv} {db : Db} {personId : Uuid} {personIds personIds' : List Uuid}

/-- The rows of one kind, in any order that the query returns them. -/
private lemma filter_arrange_perm {ρ : Type} (order : RowOrder ρ) (rows : List ρ) (p : ρ → Bool) :
    ((order.arrange rows).filter p).Perm (rows.filter p) :=
  (order.perm rows).filter p

/-- The scores of a person are the same, whoever else is asked for. -/
lemma fetchScoreSnapshots_eq (h : ToldApart env db personId) (hasked : personId ∈ personIds)
    (hasked' : personId ∈ personIds') (order order' : RowOrder ScoreSnapshot) :
    fetchScoreSnapshots order db personIds personId =
      fetchScoreSnapshots order' db personIds' personId := by
  have hown : ∀ ids : List Uuid, personId ∈ ids →
      (db.scoreSnapshots.filter fun s =>
        s.subjectId ∈ ids ∧ s.subjectType = ("person" : Str)).filter
          (fun s => s.subjectId = personId) =
      db.scoreSnapshots.filter fun s =>
        s.subjectId = personId ∧ s.subjectType = ("person" : Str) := by
    intro ids hids
    rw [List.filter_filter]
    refine List.filter_congr fun s _ => ?_
    by_cases hs : s.subjectId = personId
    · simp [hs, hids]
    · simp [hs]
  refine Keyset.filter_sorted_eq ?_ ?_
  · have hleft := filter_arrange_perm order
      (db.scoreSnapshots.filter fun s =>
        s.subjectId ∈ personIds ∧ s.subjectType = ("person" : Str)) fun s => s.subjectId = personId
    have hright := filter_arrange_perm order'
      (db.scoreSnapshots.filter fun s =>
        s.subjectId ∈ personIds' ∧ s.subjectType = ("person" : Str)) fun s => s.subjectId = personId
    rw [hown personIds hasked] at hleft
    rw [hown personIds' hasked'] at hright
    exact hleft.trans hright.symm
  · intro s hs hsubject t ht htsubject htime
    rw [(order.perm _).mem_iff, List.mem_filter, decide_eq_true_eq] at hs ht
    rw [decide_eq_true_eq] at hsubject htsubject
    exact h.scores s hs.1 t ht.1 (hsubject.trans htsubject.symm) (hs.2.2.trans ht.2.2.symm)
      (.inl hsubject) htime

/-- The scores that are joined to a person do not depend on who else is asked for. -/
lemma filter_scoreRows_eq (hasked : personId ∈ personIds) :
    (scoreRows db personIds).filter (fun row => row.1 = personId) =
      (scoreRows db [personId]).filter fun row => row.1 = personId := by
  simp only [scoreRows, List.filter_flatMap]
  refine List.flatMap_congr fun link _ => ?_
  by_cases hlink : link.personId = personId
  · have hmax : maxCreated db personIds link.personId = maxCreated db [personId] link.personId := by
      simp [maxCreated, hlink, hasked]
    rw [hmax]
  · have hnone : ∀ ids : List Uuid, (((db.opportunity? link.opportunityId).toList.filter fun o =>
        maxCreated db ids link.personId = some o.createdAt).flatMap fun o =>
          ((db.scoreSnapshots.filter fun s => CanonicalScore o.id s).map fun s =>
            (link.personId, s)).filter fun row => row.1 = personId) = [] := by
      intro ids
      rw [List.flatMap_eq_nil_iff]
      intro o _
      rw [List.filter_eq_nil_iff]
      intro row hrow
      obtain ⟨s, -, rfl⟩ := List.mem_map.mp hrow
      simpa using hlink
    rw [hnone, hnone]

/-- So the score that is shown of the current opportunity does not. -/
lemma fetchOpportunityScore_eq (h : ToldApart env db personId) (hasked : personId ∈ personIds)
    (hasked' : personId ∈ personIds') (order order' : RowOrder (Uuid × ScoreSnapshot)) :
    fetchOpportunityScore order db personIds personId =
      fetchOpportunityScore order' db personIds' personId := by
  unfold fetchOpportunityScore
  rw [← List.head?_filter, ← List.head?_filter]
  refine congrArg (fun rows : List (Uuid × ScoreSnapshot) => rows.head?.map Prod.snd) ?_
  refine @Keyset.filter_sorted_eq _ _ _ (fun row : Uuid × ScoreSnapshot => row.2.createdAt) _ _ _
    ?_ ?_
  · have hleft := filter_arrange_perm order (scoreRows db personIds) fun row => row.1 = personId
    have hright := filter_arrange_perm order' (scoreRows db personIds') fun row => row.1 = personId
    rw [filter_scoreRows_eq hasked] at hleft
    rw [filter_scoreRows_eq hasked'] at hright
    exact hleft.trans hright.symm
  · rintro ⟨p, s⟩ hs hp ⟨q, t⟩ ht hq htime
    obtain rfl : p = personId := by simpa using hp
    obtain rfl : q = p := by simpa using hq
    rw [(order.perm _).mem_iff, mem_scoreRows_iff] at hs ht
    obtain ⟨-, hs, o, hlast, haxis⟩ := hs
    obtain ⟨-, ht, o', hlast', haxis'⟩ := ht
    obtain rfl := h.opportunity o o' hlast hlast'
    rw [h.scores s hs t ht (haxis.1.trans haxis'.1.symm) (haxis.2.1.trans haxis'.2.1.symm)
      (.inr ⟨o, hlast, haxis.1⟩) htime]

/-- What a profile says depends on the newest word on each predicate only. -/
lemma candidateProfile_eq {items items' : List (Observation × SourceSnapshot)}
    (hperm : items.Perm items')
    (hvalues : ∀ key, (Dict.setDefaults (items.filterMap (profileEntry env))).get? key =
      (Dict.setDefaults (items'.filterMap (profileEntry env))).get? key) :
    candidateProfile env items = candidateProfile env items' := by
  have hsources : sortedSet (items.map fun row => row.2.sourceType) =
      sortedSet (items'.map fun row => row.2.sourceType) :=
    sortedSet_congr fun x => (hperm.map _).mem_iff
  unfold candidateProfile
  simp only [hvalues, hsources, hperm.length_eq]

/-- The rows of a person do not depend on who else is asked for. -/
lemma filter_profileRows_eq (hasked : personId ∈ personIds) :
    (profileRows db personIds).filter (fun row => row.1.subjectId = some personId) =
      (profileRows db [personId]).filter fun row => row.1.subjectId = some personId := by
  unfold profileRows
  rw [List.filter_filter, List.filter_filter]
  refine List.filter_congr fun row _ => ?_
  by_cases hrow : row.1.subjectId = some personId
  · simp [hrow, hasked]
  · simp [hrow]

/-- The profile of a person is the same, whoever else is asked for.

**Proof sketch.** The rows of the person are a permutation of each other, and both stand from the
newest on. So the newest word on a predicate is the same, as rows of one time do not contradict each
other. -/
lemma fetchCandidateProfile_eq (h : ToldApart env db personId) (hasked : personId ∈ personIds)
    (hasked' : personId ∈ personIds') (order order' : RowOrder (Observation × SourceSnapshot)) :
    fetchCandidateProfile env order db personIds personId =
      fetchCandidateProfile env order' db personIds' personId := by
  let own : Observation × SourceSnapshot → Bool := fun row => row.1.subjectId = some personId
  let items := fun (order : RowOrder (Observation × SourceSnapshot)) ids =>
    (Keyset.sorted (fun row : Observation × SourceSnapshot => row.1.observedAt)
      (order.arrange (profileRows db ids))).filter own
  have hrows : ∀ order ids, personId ∈ ids →
      (items order ids).Perm ((profileRows db [personId]).filter own) := by
    intro order ids hids
    refine ((Keyset.perm_sorted _).filter own).trans ((filter_arrange_perm order _ own).trans ?_)
    rw [filter_profileRows_eq hids]
  have hsorted : ∀ order ids, (items order ids).Pairwise fun a b =>
      b.1.observedAt ≤ a.1.observedAt :=
    fun order ids => Keyset.pairwise_le_sorted.sublist List.filter_sublist
  have hperm : (items order personIds).Perm (items order' personIds') :=
    (hrows order personIds hasked).trans (hrows order' personIds' hasked').symm
  have hown : ∀ row ∈ items order personIds, row.1 ∈ db.observations ∧
      row.1.subjectId = some personId := by
    intro row hrow
    have hmem := (hrows order personIds hasked).mem_iff.mp hrow
    simp only [profileRows, List.mem_filter, List.mem_flatMap, List.mem_map, own,
      decide_eq_true_eq] at hmem
    obtain ⟨⟨⟨o, ho, snapshot, -, rfl⟩, -⟩, hsubject⟩ := hmem
    exact ⟨ho, hsubject⟩
  have hvalues : ∀ key,
      (Dict.setDefaults ((items order personIds).filterMap (profileEntry env))).get? key =
        (Dict.setDefaults ((items order' personIds').filterMap (profileEntry env))).get? key := by
    intro key
    rw [Dict.get?_setDefaults, Dict.get?_setDefaults, List.filterMap_filterMap,
      List.filterMap_filterMap]
    refine head?_filterMap_eq_of_perm hperm (hsorted order personIds) (hsorted order' personIds') ?_
    intro a ha b hb htime x hx y hy
    simp only [profileEntry, Option.mem_def] at hx hy
    split_ifs at hx with hanone
    · simp at hx
    split_ifs at hy with hbnone
    · simp at hy
    · simp only [Option.bind_some, Option.ite_none_right_eq_some, Option.some.injEq] at hx hy
      obtain ⟨hakey, rfl⟩ := hx
      obtain ⟨hbkey, rfl⟩ := hy
      obtain ⟨haobs, hasub⟩ := hown a ha
      obtain ⟨hbobs, hbsub⟩ := hown b hb
      exact h.evidence a.1 haobs b.1 hbobs hasub hbsub htime (hakey.symm.trans hbkey) hanone hbnone
  have hempty : items order personIds = [] ↔ items order' personIds' = [] := by
    rw [← List.length_eq_zero_iff, hperm.length_eq, List.length_eq_zero_iff]
  show (if items order personIds = [] then none
      else some (candidateProfile env (items order personIds))) =
    if items order' personIds' = [] then none
      else some (candidateProfile env (items order' personIds'))
  rw [candidateProfile_eq hperm hvalues]
  simp only [hempty]

/-- The response of a person is the same, whoever else is asked for. -/
lemma candidateWith_eq {p : Person} (h : ToldApart env db p.id) (hasked : p.id ∈ personIds)
    (hasked' : p.id ∈ personIds') (orders orders' : ViewOrders) (sla : Option CandidateSla) :
    candidateWith env orders db personIds p sla =
      candidateWith env orders' db personIds' p sla := by
  have hlatest : ∀ ids : List Uuid, p.id ∈ ids →
      fetchLatest db ids p.id = latestOpportunityRow db p.id := fun ids hids => if_pos hids
  unfold candidateWith candidateOrigin
  rw [hlatest personIds hasked, hlatest personIds' hasked',
    fetchScoreSnapshots_eq h hasked hasked' orders.scores orders'.scores,
    fetchOpportunityScore_eq h hasked hasked' orders.opportunityScores orders'.opportunityScores,
    fetchCandidateProfile_eq h hasked hasked' orders.profiles orders'.profiles]

/-- A response of the list is a page, behind its cursor if it has one. -/
lemma exists_candidatePage {listEnv : CandidateEnv} {req : CandidateRequest} {cursor : Option Str}
    {page : CandidateListResponse} (hpage : listCandidates listEnv db req cursor = .ok page) :
    ∃ decoded, page = candidatePage listEnv db req decoded := by
  unfold listCandidates at hpage
  by_cases hfilled : filled cursor = true
  · rw [if_pos hfilled] at hpage
    cases hdecode : decodeCandidateCursor listEnv (req.filters listEnv.ucd) (cursor.getD []) with
    | error e =>
      rw [hdecode] at hpage
      cases hpage
    | ok decoded =>
      rw [hdecode] at hpage
      exact ⟨some decoded, (Except.ok.inj hpage).symm⟩
  · rw [if_neg hfilled] at hpage
    exact ⟨none, (Except.ok.inj hpage).symm⟩

/-- **List and detail.** Every candidate of every page of the list, under any filters, limit and
cursor, is shown by the detail as by the page, if what is shown of the persons of the page does not
hang on the order of rows of equal time.

**Proof sketch.** The queries for the page are those for one person, restricted to its rows. The
rows of the person stand in one order, or those of one time do not contradict each other. -/
theorem getCandidate_eq_candidateItem {listEnv : CandidateEnv} {req : CandidateRequest}
    {cursor : Option Str} {page : CandidateListResponse}
    (hpage : listCandidates listEnv db req cursor = .ok page)
    (hids : KeyUnique Person.id db.persons) (h : ∀ p ∈ page.items, ToldApart env db p.id)
    (listOrders detailOrders : ViewOrders) : ∀ p ∈ page.items,
      getCandidate env detailOrders db p.id =
        some (candidateItem env listOrders db page.items p) := by
  intro p hp
  obtain ⟨decoded, rfl⟩ := exists_candidatePage hpage
  have hquery : p ∈ candidateQuery listEnv db (req.filters listEnv.ucd) decoded :=
    Keyset.mem_sorted.mp (List.mem_of_mem_take (List.mem_of_mem_take hp))
  obtain ⟨hmem, hcandidate⟩ := List.mem_filter.mp (List.mem_filter.mp hquery).1
  have hcanonical : p.canonical = true := (of_decide_eq_true hcandidate).1
  have hasked : p.id ∈ (candidatePage listEnv db req decoded).items.map Person.id :=
    List.mem_map_of_mem hp
  have hdetail : detailOpportunity detailOrders.opportunity db p.id =
      latestOpportunityRow db p.id :=
    currentOpportunity_eq (h p hp).opportunity detailOrders.opportunity
  have hlatest : fetchLatest db ((candidatePage listEnv db req decoded).items.map Person.id) p.id =
      latestOpportunityRow db p.id := if_pos hasked
  have hshown : getCandidate env detailOrders db p.id =
      some (candidateWith env detailOrders db [p.id] p
        ((detailOpportunity detailOrders.opportunity db p.id).map (slaResponse env))) := by
    unfold getCandidate
    rw [(person?_eq_some_iff hids).mpr hmem]
    simp [hcanonical]
  dsimp only [candidateItem]
  rw [hshown, hdetail, hlatest,
    candidateWith_eq (h p hp) (List.mem_singleton_self p.id) hasked detailOrders listOrders]

end Views

/-! ### A page of two persons -/

/-- A digest that counts bytes. -/
private def viewedListEnv : CandidateEnv where
  ucd := Ucd.ascii
  sha256 bytes := Str.hex 64 bytes.length
  lower text := text.map Char.toLower
  handlesText _ := none
  repr _ := []

/-- The scores say how they were computed. -/
private def viewedEnv : ViewEnv where
  ucd := Ucd.ascii
  repr _ := []
  columns :=
    { components := fun _ => Dict.setDefaults [("founder", .float "0.5"), ("market", .int 1)]
      hasAvatar := fun _ => false
      avatarSourceType := fun _ => none
      stageDeadlines := fun _ => Dict.empty
      slaOwner := fun _ => none }
  now := 10

/-- Two observations of one time, and two scores of a person with an opportunity. -/
private def viewedDb : Db where
  persons :=
    [{ id := 1, stableId := "ada", displayName := some "Ada", createdAt := 0 },
      { id := 2, stableId := "bob", createdAt := 0 }]
  scoreSnapshots :=
    [{ id := 1, subjectId := 1, subjectType := "person", rubricVersion := "v1", createdAt := 1 },
      { id := 2, subjectId := 1, subjectType := "person", rubricVersion := "v2", createdAt := 2 },
      { id := 3, subjectId := 5, subjectType := "opportunity",
        rubricVersion := "opportunity-axes-v1", createdAt := 3 }]
  opportunities :=
    [{ id := 5, companyName := "Acme", sourceKind := "inbound", lifecycleState := .received
       createdAt := 0 }]
  opportunityFounders := [{ opportunityId := 5, personId := 1, role := "founder" }]
  sourceSnapshots :=
    [{ id := 1, uri := "u", sourceType := "github", contentHash := "h",
       sourceUsePolicy := { sourceType := "github" }, collectedAt := 0 }]
  observations :=
    [{ id := 1, snapshotId := 1, subjectId := some 1, opportunityId := none, predicate := "company",
       objectValue := "Acme", observedAt := 0, extractorVersion := "v1", createdAt := 0 },
      { id := 2, snapshotId := 1, subjectId := some 1, opportunityId := none, predicate := "role",
        objectValue := "CEO", observedAt := 0, extractorVersion := "v1", createdAt := 0 }]

/-- Rows of equal time stand as they are stored. -/
private def storedOrders : ViewOrders where
  scores := ⟨id, fun _ => List.Perm.refl _⟩
  opportunityScores := ⟨id, fun _ => List.Perm.refl _⟩
  profiles := ⟨id, fun _ => List.Perm.refl _⟩
  opportunity := ⟨id, fun _ => List.Perm.refl _⟩

/-- Rows of equal time stand the other way round. -/
private def reversedOrders : ViewOrders where
  scores := ⟨List.reverse, List.reverse_perm⟩
  opportunityScores := ⟨List.reverse, List.reverse_perm⟩
  profiles := ⟨List.reverse, List.reverse_perm⟩
  opportunity := ⟨List.reverse, List.reverse_perm⟩

private lemma toldApart_viewed (personId : Uuid) : ToldApart viewedEnv viewedDb personId where
  scores := by
    intro s hs t ht _ _ _ htime
    have hall : ∀ s ∈ viewedDb.scoreSnapshots, ∀ t ∈ viewedDb.scoreSnapshots,
        s.createdAt = t.createdAt → s = t := by decide
    exact hall s hs t ht htime
  opportunity := by
    intro o o' ho ho'
    have hall : ∀ o ∈ viewedDb.opportunities, ∀ o' ∈ viewedDb.opportunities, o = o' := by decide
    obtain ⟨_, _, _, hfind⟩ := mem_personOpportunities_iff.mp ho.1
    obtain ⟨_, _, _, hfind'⟩ := mem_personOpportunities_iff.mp ho'.1
    exact hall o (List.mem_of_find?_eq_some hfind) o' (List.mem_of_find?_eq_some hfind')
  evidence := by
    intro o ho o' ho' _ _ _ hpredicate _ _
    have hall : ∀ o ∈ viewedDb.observations, ∀ o' ∈ viewedDb.observations,
        viewedEnv.ucd.lower o.predicate = viewedEnv.ucd.lower o'.predicate →
          o.objectValue.strip = o'.objectValue.strip := by decide +kernel
    exact hall o ho o' ho' hpredicate

/-- The detail shows both persons of the page as the page does, in another order of equal rows. -/
theorem getCandidate_eq_candidateItem_viewed :
    ∀ p ∈ (candidatePage viewedListEnv viewedDb { limit := 10 } none).items,
      getCandidate viewedEnv reversedOrders viewedDb p.id =
        some (candidateItem viewedEnv storedOrders viewedDb
          (candidatePage viewedListEnv viewedDb { limit := 10 } none).items p) :=
  have hpage : listCandidates viewedListEnv viewedDb { limit := 10 } none =
      .ok (candidatePage viewedListEnv viewedDb { limit := 10 } none) := rfl
  have hids : KeyUnique Person.id viewedDb.persons := by
    unfold KeyUnique viewedDb
    decide
  getCandidate_eq_candidateItem hpage hids
    (fun p _ => toldApart_viewed p.id) storedOrders reversedOrders

end VCBrain
