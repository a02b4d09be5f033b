import VCBrain.Foundation.OrderBy
import VCBrain.Sla

set_option relaxedAutoImplicit false
set_option autoImplicit false

/-!
# Human decisions

`record_candidate_decision`: a reviewer proceeds with an opportunity, holds or declines it. The
request carries an idempotency key; a decision is one event under that key.

## Main definitions

* `lockOpportunity` — the checks before the row of the opportunity is locked.
* `decideLocked` — what is decided under the lock: the stored response, or new rows.
* `commitDecision` — the commit, which fails on a key that is taken.
* `recordCandidateDecision` — the request as a whole.

## Main results

* `decideLocked_cases` — a verdict is an error, a stored response or a new decision.
* `recordCandidateDecision_cases` — a request leaves the database as it is, or commits a decision.

## Design

A request is one transaction. It locks the row of the opportunity before it looks for its key, and
holds the lock until it commits. The constraints that a commit can violate are the primary key of
the events and the uniqueness of idempotency keys.
-/

namespace VCBrain

/-- `DecisionAction`. -/
inductive DecisionAction where
  | proceed
  | hold
  | decline
deriving DecidableEq

/-- The text of an action. -/
def DecisionAction.key : DecisionAction → Str
  | proceed => "proceed"
  | hold => "hold"
  | decline => "decline"

/-- `decision_state_for_action`. -/
def decisionStateForAction : DecisionAction → Stage
  | .proceed => .approved
  | .hold => .hold
  | .decline => .closed

/-- The action of a proposal that an action stands for. -/
def proposedAction : DecisionAction → Str
  | .proceed => "invest"
  | .hold => "hold"
  | .decline => "decline"

/-- A request: the path, the payload and the header. -/
structure DecisionRequest where
  candidateId : Uuid
  opportunityId : Uuid
  action : DecisionAction
  reason : Str
  idempotencyKey : Str
deriving DecidableEq

/-- `CandidateDecisionResponse`. -/
structure DecisionResponse where
  eventId : Uuid
  priorState : Stage
  newState : Stage
  action : DecisionAction
  reason : Str
  createdAt : Time
deriving DecidableEq

/-- Why a request is rejected. -/
inductive DecisionError where
  | invalidPayload
  | invalidKey
  | candidateNotFound
  | notLinked
  | reasonTooShort
  | keyReused
  | notAllowed (prior : Stage)
  | memoRequired
  | integrity
deriving DecidableEq

/-- The detail of the response to a rejected request. -/
def DecisionError.detail : DecisionError → Str
  | invalidPayload => "reason"
  | invalidKey => "Idempotency-Key must be 1-128 characters"
  | candidateNotFound => "Candidate not found"
  | notLinked => "Candidate is not linked to this opportunity"
  | reasonTooShort => "Decision reason must be at least 3 characters"
  | keyReused => "Idempotency-Key was already used for another decision"
  | notAllowed prior => ("Decision is not allowed from lifecycle state '" : Str) ++ prior.key ++ "'"
  | memoRequired => "A validated memo is required before deciding"
  | integrity => "Internal Server Error"

/-- The key of a request as it is stored. -/
def DecisionRequest.key (req : DecisionRequest) : Str := req.idempotencyKey.strip

/-! ## Before the lock -/

/-- The checks before the lock, and the row that is locked. -/
def lockOpportunity (db : Db) (req : DecisionRequest) : Except DecisionError Opportunity :=
  if req.reason.length < 3 ∨ 2000 < req.reason.length then .error .invalidPayload
  else if req.key.length < 1 ∨ 128 < req.key.length then .error .invalidKey
  else
    match db.person? req.candidateId with
    | none => .error .candidateNotFound
    | some person =>
      if !person.canonical then .error .candidateNotFound
      else if ∃ f ∈ db.opportunityFounders,
          f.opportunityId = req.opportunityId ∧ f.personId = person.id then
        match db.opportunity? req.opportunityId with
        | none => .error .notLinked
        | some opportunity => .ok opportunity
      else .error .notLinked

/-! ## Under the lock -/

/-- The response that an event stands for. -/
def responseOf (req : DecisionRequest) (e : DecisionEvent) : DecisionResponse where
  eventId := e.id
  priorState := e.priorState
  newState := e.newState
  action := req.action
  reason := req.reason.strip
  createdAt := e.createdAt

/-- The event records the decision that is requested. -/
def Records (req : DecisionRequest) (e : DecisionEvent) : Prop :=
  e.opportunityId = req.opportunityId ∧
    (e.slaMetadata.bind (Json.get? "action")).any (Json.isStr req.action.key) = true ∧
    e.reason = some req.reason.strip

instance (req : DecisionRequest) : DecidablePred (Records req) :=
  fun _ => inferInstanceAs (Decidable (_ ∧ _))

/-- The rows of a new decision. -/
structure NewDecision where
  opportunity : Opportunity
  event : DecisionEvent
  proposal : Option DecisionProposal

/-- What is found under the lock. -/
inductive Verdict where
  | stored (response : DecisionResponse)
  | decided (decision : NewDecision)

section Handler

variable (isoformat : Time → Str)

/-- The metadata of the event. -/
def decisionMetadata (req : DecisionRequest) (memo : InvestmentMemo)
    (proposal : Option DecisionProposal) (sla : SlaStatus × SlaAttainment) (decisionAt : Time) :
    Json :=
  .obj [("action", .str req.action.key),
    ("source", .str "decision-floating-dock"),
    ("memo_id", .str memo.id.str),
    ("claim_ids", .arr (memo.claimIds.map .str)),
    ("assessment_ids", .arr (memo.assessmentIds.map .str)),
    ("thesis_version", .str memo.thesisVersion),
    ("sla_attainment", .str sla.2.key),
    ("sla_status", .str sla.1.key),
    ("decision_at", .str (isoformat decisionAt)),
    ("proposal_id", (proposal.map fun p => Json.str p.id.str).getD .null)]

/-- The proposal takes over the action; a different one is recorded as overridden. -/
def overrideProposal (req : DecisionRequest) (proposal : DecisionProposal) : DecisionProposal :=
  let overrideReason :=
    if proposedAction req.action ≠ proposal.action then some req.reason.strip else none
  { proposal with
    overrideReason := overrideReason
    action := proposedAction req.action
    status := if filled overrideReason then "overridden" else "approved" }

/-- The rows of a new decision on the locked opportunity. -/
def newDecision (decisionAt : Time) (newId : Uuid) (db : Db) (req : DecisionRequest)
    (opportunity : Opportunity) (memo : InvestmentMemo) : NewDecision :=
  let proposal := latest DecisionProposal.createdAt
    (db.decisionProposals.filter fun p => p.opportunityId = opportunity.id)
  let (decided, sla) := finalizeSla decisionAt opportunity
  { opportunity := { decided with lifecycleState := decisionStateForAction req.action }
    event :=
      { id := newId
        opportunityId := opportunity.id
        priorState := opportunity.lifecycleState
        newState := decisionStateForAction req.action
        actor := "vc-ui:unattributed"
        idempotencyKey := some req.key
        reason := some req.reason.strip
        slaMetadata := some (decisionMetadata isoformat req memo proposal sla decisionAt)
        createdAt := decisionAt }
    proposal := proposal.map (overrideProposal req) }

/-- The handler from the lock to the commit. -/
def decideLocked (decisionAt : Time) (newId : Uuid) (db : Db) (req : DecisionRequest)
    (opportunity : Opportunity) : Except DecisionError Verdict :=
  if req.reason.strip.length < 3 then .error .reasonTooShort
  else
    match db.decisionEvents.find? fun e => e.idempotencyKey = some req.key with
    | some e => if Records req e then .ok (.stored (responseOf req e)) else .error .keyReused
    | none =>
      if !isValidTransition opportunity.lifecycleState (decisionStateForAction req.action) ∨
          opportunity.lifecycleState = decisionStateForAction req.action then
        .error (.notAllowed opportunity.lifecycleState)
      else
        match latest InvestmentMemo.createdAt (db.investmentMemos.filter fun m =>
          m.opportunityId = opportunity.id ∧ m.status = ("succeeded" : Str)) with
        | none => .error .memoRequired
        | some memo =>
          .ok (.decided (newDecision isoformat decisionAt newId db req opportunity memo))

/-- The commit: the rows are written at once, unless the id or the key of the event is taken. -/
def commitDecision (createdAt : Time) (db : Db) (d : NewDecision) : Option Db :=
  if ∃ e ∈ db.decisionEvents, e.id = d.event.id ∨ e.idempotencyKey = d.event.idempotencyKey then
    none
  else some { db with
    opportunities :=
      replaceOpportunity db.opportunities { d.opportunity with updatedAt := createdAt }
    decisionProposals := db.decisionProposals.map fun p =>
      (d.proposal.filter fun new => p.id = new.id).getD p
    decisionEvents := db.decisionEvents ++ [{ d.event with createdAt := createdAt }] }

/-- `record_candidate_decision`, run alone. -/
def recordCandidateDecision (decisionAt createdAt : Time) (newId : Uuid) (db : Db)
    (req : DecisionRequest) : Except DecisionError (DecisionResponse × Db) :=
  match lockOpportunity db req with
  | .error e => .error e
  | .ok opportunity =>
    match decideLocked isoformat decisionAt newId db req opportunity with
    | .error e => .error e
    | .ok (.stored response) => .ok (response, db)
    | .ok (.decided d) =>
      match commitDecision createdAt db d with
      | none => .error .integrity
      | some db' => .ok (responseOf req { d.event with createdAt := createdAt }, db')

end Handler

/-! ## What a request does -/

section Lemmas

variable {isoformat : Time → Str} {decisionAt createdAt : Time} {newId : Uuid} {db db' : Db}
  {req : DecisionRequest} {opp : Opportunity} {d : NewDecision} {response : DecisionResponse}

/-- The request is well formed and its candidate is a canonical founder of the opportunity. -/
def Entitled (db : Db) (req : DecisionRequest) : Prop :=
  ¬ (req.reason.length < 3 ∨ 2000 < req.reason.length) ∧
    ¬ (req.key.length < 1 ∨ 128 < req.key.length) ∧
    ∃ person, db.person? req.candidateId = some person ∧ person.canonical = true ∧
      ∃ f ∈ db.opportunityFounders, f.opportunityId = req.opportunityId ∧ f.personId = person.id

/-- The row that is locked. -/
lemma lockOpportunity_eq_ok_iff : lockOpportunity db req = .ok opp ↔
    Entitled db req ∧ db.opportunity? req.opportunityId = some opp := by
  constructor
  · intro h
    unfold lockOpportunity at h
    by_cases hreason : req.reason.length < 3 ∨ 2000 < req.reason.length
    · rw [if_pos hreason] at h
      cases h
    rw [if_neg hreason] at h
    by_cases hkey : req.key.length < 1 ∨ 128 < req.key.length
    · rw [if_pos hkey] at h
      cases h
    rw [if_neg hkey] at h
    cases hperson : db.person? req.candidateId with
    | none => rw [hperson] at h; cases h
    | some person =>
      rw [hperson] at h
      dsimp only at h
      split_ifs at h with hcanonical hlinked
      cases hopp : db.opportunity? req.opportunityId with
      | none => rw [hopp] at h; cases h
      | some o =>
        rw [hopp] at h
        cases h
        exact ⟨⟨hreason, hkey, person, hperson, by simpa using hcanonical, hlinked⟩, rfl⟩
  · rintro ⟨⟨hreason, hkey, person, hperson, hcanonical, hlinked⟩, hopp⟩
    unfold lockOpportunity
    rw [if_neg hreason, if_neg hkey, hperson]
    dsimp only
    rw [if_neg (by simp [hcanonical]), if_pos hlinked, hopp]

/-- What is known of the rows of a new decision. -/
structure NewDecisionOn (req : DecisionRequest) (opp : Opportunity) (d : NewDecision) : Prop where
  opportunity_id : d.opportunity.id = opp.id
  opportunity_stage : d.opportunity.lifecycleState = d.event.newState
  event_opportunity : d.event.opportunityId = opp.id
  priorState : d.event.priorState = opp.lifecycleState
  newState : d.event.newState = decisionStateForAction req.action
  valid : isValidTransition d.event.priorState d.event.newState = true
  ne : d.event.priorState ≠ d.event.newState
  key : d.event.idempotencyKey = some req.key
  records : opp.id = req.opportunityId → Records req d.event

/-- **Verdicts.** What is found under the lock: an event with the key, or none, in which case the
rows are made for an allowed transition. -/
lemma decideLocked_cases {verdict : Verdict}
    (h : decideLocked isoformat decisionAt newId db req opp = .ok verdict) :
    3 ≤ req.reason.strip.length ∧
      ((∃ e, db.decisionEvents.find? (fun e => e.idempotencyKey = some req.key) = some e ∧
        Records req e ∧ verdict = .stored (responseOf req e)) ∨
      (∀ e ∈ db.decisionEvents, e.idempotencyKey ≠ some req.key) ∧
        ∃ d, verdict = .decided d ∧ NewDecisionOn req opp d) := by
  unfold decideLocked at h
  by_cases hreason : req.reason.strip.length < 3
  · rw [if_pos hreason] at h
    cases h
  rw [if_neg hreason] at h
  refine ⟨not_lt.mp hreason, ?_⟩
  cases hfind : db.decisionEvents.find? fun e => e.idempotencyKey = some req.key with
  | some e =>
    rw [hfind] at h
    dsimp only at h
    split_ifs at h with hrecords
    cases h
    exact Or.inl ⟨e, rfl, hrecords, rfl⟩
  | none =>
    rw [hfind] at h
    dsimp only at h
    split_ifs at h with hallowed
    rw [not_or, Bool.not_eq_true, Bool.not_eq_false'] at hallowed
    cases hmemo : latest InvestmentMemo.createdAt (db.investmentMemos.filter fun m =>
        m.opportunityId = opp.id ∧ m.status = ("succeeded" : Str)) with
    | none =>
      rw [hmemo] at h
      cases h
    | some memo =>
      rw [hmemo] at h
      cases h
      refine Or.inr ⟨fun e he => by simpa using List.find?_eq_none.mp hfind e he, _, rfl, ?_⟩
      exact {
        opportunity_id := (finalizeSla_fst_frame decisionAt opp).1
        opportunity_stage := rfl
        event_opportunity := rfl
        priorState := rfl
        newState := rfl
        valid := hallowed.1
        ne := hallowed.2
        key := rfl
        records := fun hid => ⟨hid, by simp [newDecision, decisionMetadata, Json.get?, Json.isStr],
          rfl⟩ }

/-- A commit succeeds on a free id and a free key, and appends the event. -/
lemma commitDecision_eq_some (h : commitDecision createdAt db d = some db') :
    (∀ e ∈ db.decisionEvents, e.id ≠ d.event.id ∧ e.idempotencyKey ≠ d.event.idempotencyKey) ∧
      db'.decisionEvents = db.decisionEvents ++ [{ d.event with createdAt := createdAt }] ∧
      db'.opportunities =
        replaceOpportunity db.opportunities { d.opportunity with updatedAt := createdAt } ∧
      db'.persons = db.persons ∧ db'.opportunityFounders = db.opportunityFounders ∧
      db'.scoreSnapshots = db.scoreSnapshots ∧ db'.investmentMemos = db.investmentMemos := by
  unfold commitDecision at h
  split_ifs at h with htaken
  cases h
  push Not at htaken
  exact ⟨htaken, rfl, rfl, rfl, rfl, rfl, rfl⟩

/-- **A request.** A request that succeeds leaves the database as it is, or commits a new decision
on the opportunity. -/
lemma recordCandidateDecision_cases
    (h : recordCandidateDecision isoformat decisionAt createdAt newId db req =
      .ok (response, db')) :
    db' = db ∨ ∃ opp d, db.opportunity? req.opportunityId = some opp ∧ NewDecisionOn req opp d ∧
      commitDecision createdAt db d = some db' := by
  unfold recordCandidateDecision at h
  cases hlock : lockOpportunity db req with
  | error e => rw [hlock] at h; cases h
  | ok opp =>
    rw [hlock] at h
    dsimp only at h
    cases hverdict : decideLocked isoformat decisionAt newId db req opp with
    | error e => rw [hverdict] at h; cases h
    | ok verdict =>
      rw [hverdict] at h
      rcases (decideLocked_cases hverdict).2 with ⟨e, -, -, rfl⟩ | ⟨-, d, rfl, hd⟩
      · cases h
        exact Or.inl rfl
      · dsimp only at h
        cases hcommit : commitDecision createdAt db d with
        | none => rw [hcommit] at h; cases h
        | some db'' =>
          rw [hcommit] at h
          cases h
          exact Or.inr ⟨opp, d, (lockOpportunity_eq_ok_iff.mp hlock).2, hd, hcommit⟩

end Lemmas

end VCBrain
