import Mathlib.Data.List.MinMax
import VCBrain.Foundation.GroupBy
import VCBrain.Processing.Trust

set_option relaxedAutoImplicit false
set_option autoImplicit false

/-!
# Reconciliation of observations into claims

`reconcile_observations` groups the observations of a person by predicate and opportunity
and derives claims from each group: one `unverified` claim from a single observation, one
`supported` claim from several that agree, and one `contradicted` claim for every observation
of a group that does not agree.

## Main definitions

* `reconcileGroup` — the body of the loop over the groups.
* `reconcileObservations` — one run for a person.

## Design

A run threads the claims table and the number of claims created so far. The primary key of
a new claim is the next draw of `uuid4`; a draw that is already a key makes the insertion,
and with it the run, fail. `scoped_claims` is recomputed from the table where the source
keeps a list of the same rows up to date. The `claim_observations` link rows and the
provenance metadata, which nothing reads, are left out.
-/

namespace VCBrain

/-- The groups of reconciliation: a predicate within an opportunity, or outside any. -/
abbrev GroupKey := Str × Option Uuid

/-- The group an observation belongs to. -/
def Observation.key (obs : Observation) : GroupKey := (obs.predicate, obs.opportunityId)

/-- The group a claim was derived from. -/
def Claim.key (claim : Claim) : GroupKey := (claim.predicate, claim.opportunityId)

/-! ## Matching and closing claims -/

/-- `_claim_matches`: the claim is the deterministic output for this input set. -/
def claimMatches (predicate objectValue : Str) (status : ClaimStatus)
    (observationIds : List Str) (claim : Claim) : Prop :=
  claim.predicate = predicate ∧ claim.objectValue.strip = objectValue.strip ∧
    claim.status = status ∧ claim.observationIds = observationIds

instance (predicate objectValue : Str) (status : ClaimStatus) (observationIds : List Str) :
    DecidablePred (claimMatches predicate objectValue status observationIds) :=
  fun _ => inferInstanceAs (Decidable (_ ∧ _))

/-- `_find_matching_claim`. -/
def findMatchingClaim (claims : List Claim) (predicate objectValue : Str)
    (status : ClaimStatus) (observationIds : List Str) : Option Claim :=
  claims.find? fun claim => claimMatches predicate objectValue status observationIds claim

/-- A row of `scoped_claims`: a claim on the person within the opportunity. -/
def InScope (personId : Uuid) (opportunityId : Option Uuid) (claim : Claim) : Prop :=
  claim.subjectId = some personId ∧ claim.opportunityId = opportunityId

instance (personId : Uuid) (opportunityId : Option Uuid) :
    DecidablePred (InScope personId opportunityId) :=
  fun _ => inferInstanceAs (Decidable (_ ∧ _))

/-- `scoped_claims`. -/
def scopedClaims (personId : Uuid) (opportunityId : Option Uuid) (rows : List Claim) :
    List Claim :=
  rows.filter fun claim => InScope personId opportunityId claim

/-- The body of the loop of `_close_superseded_claims`. -/
def closeSuperseded (replacement : Claim) (predicate : Str) (previous : Claim) : Claim :=
  if previous.id = replacement.id ∨ previous.predicate ≠ predicate then previous
  else if previous.supersessionId ≠ none then previous
  else { previous with
    supersessionId := some replacement.id
    validTimeEnd := some replacement.validTimeStart }

/-- `_close_superseded_claims(scoped_claims, …)` on the table the scoped rows live in. -/
def closeSupersededClaims (personId : Uuid) (opportunityId : Option Uuid) (rows : List Claim)
    (replacement : Claim) (predicate : Str) : List Claim :=
  rows.map fun previous =>
    if InScope personId opportunityId previous then closeSuperseded replacement predicate previous
    else previous

/-! ## One run -/

/-- The claims table during a run, with the number of claims the run has created. -/
structure Progress where
  claims : List Claim
  created : ℕ

section Run

variable (personId : Uuid) (now : Time) (draw : ℕ → Uuid)

/-- The claim the evidence of a group yields: `Claim(…)` followed by `_apply_trust`. -/
def deriveClaim (id : Uuid) (key : GroupKey) (status : ClaimStatus) (objectValue : Str)
    (confidence : ℚ) (validTimeStart : Time) (evidence : List Observation) : Claim where
  id := id
  observationIds := evidence.map fun obs => obs.id.str
  subjectId := some personId
  opportunityId := key.2
  predicate := key.1
  objectValue := objectValue
  status := status
  confidence := confidence
  trust := some (trustForObservations now evidence (status = .contradicted))
  validTimeStart := validTimeStart
  createdAt := now

/-- `session.add(claim)` and `session.flush()`. -/
def addClaim (st : Progress) (claim : Claim) : Option Progress :=
  (insertClaim st.claims claim).map fun rows => ⟨rows, st.created + 1⟩

/-- The claim of a single observation under the given status. -/
def deriveFrom (id : Uuid) (key : GroupKey) (status : ClaimStatus) (obs : Observation) : Claim :=
  deriveClaim personId now id key status obs.objectValue obs.confidence obs.observedAt [obs]

/-- A group of one observation: one `unverified` claim. -/
def reconcileSingle (key : GroupKey) (obs : Observation) (st : Progress) : Option Progress :=
  if (findMatchingClaim (scopedClaims personId key.2 st.claims) key.1 obs.objectValue .unverified
      [obs.id.str]).isSome then some st
  else addClaim st (deriveFrom personId now (draw st.created) key .unverified obs)

/-- A group that agrees: one `supported` claim, which supersedes the current ones. -/
def reconcileUnanimous (key : GroupKey) (group : List Observation) (st : Progress) :
    Option Progress :=
  match group.argmax (observationStrength now) with
  | none => some st
  | some strongest =>
    if (findMatchingClaim (scopedClaims personId key.2 st.claims) key.1 strongest.objectValue
        .supported (group.map fun o => o.id.str)).isSome then some st
    else do
      let claim := deriveClaim personId now (draw st.created) key .supported
        strongest.objectValue ((group.map Observation.confidence).foldr max strongest.confidence)
        strongest.observedAt group
      let st ← addClaim st claim
      some { st with claims := closeSupersededClaims personId key.2 st.claims claim key.1 }

/-- The winner of a contradiction: a `contradicted` claim, which supersedes the current ones. -/
def recordWinner (key : GroupKey) (winner : Observation) (st : Progress) : Option Progress :=
  if (findMatchingClaim (scopedClaims personId key.2 st.claims) key.1 winner.objectValue
      .contradicted [winner.id.str]).isSome then some st
  else do
    let claim := deriveFrom personId now (draw st.created) key .contradicted winner
    let st ← addClaim st claim
    some { st with claims := closeSupersededClaims personId key.2 st.claims claim key.1 }

/-- A loser of a contradiction: a `contradicted` claim beside the others. -/
def recordLoser (key : GroupKey) (st : Progress) (loser : Observation) : Option Progress :=
  if (findMatchingClaim (scopedClaims personId key.2 st.claims) key.1 loser.objectValue
      .contradicted [loser.id.str]).isSome then some st
  else addClaim st (deriveFrom personId now (draw st.created) key .contradicted loser)

/-- `sorted(group, key=_observation_strength, reverse=True)`, which is stable. -/
def rankByStrength (group : List Observation) : List Observation :=
  group.insertionSort fun a b => observationStrength now b ≤ observationStrength now a

/-- A group that does not agree: its strongest observation wins, the others are recorded as
counter-evidence. -/
def reconcileContradiction (key : GroupKey) (group : List Observation) (st : Progress) :
    Option Progress :=
  match rankByStrength now group with
  | [] => some st
  | winner :: losers => do
    let st ← recordWinner personId now draw key winner st
    losers.foldlM (recordLoser personId now draw key) st

/-- The values of a group up to surrounding whitespace. -/
def distinctValues (group : List Observation) : List Str :=
  (group.map fun obs => obs.objectValue.strip).dedup

/-- The body of the loop over the groups. -/
def reconcileGroup (st : Progress) (kg : GroupKey × List Observation) : Option Progress :=
  match kg.2 with
  | [obs] => reconcileSingle personId now draw kg.1 obs st
  | group =>
    if (distinctValues group).length = 1 then reconcileUnanimous personId now draw kg.1 group st
    else reconcileContradiction personId now draw kg.1 group st

/-- The observations of the person, newest first. -/
def observationsOf (db : Db) : List Observation :=
  (db.observations.filter fun obs => obs.subjectId = some personId).insertionSort fun a b =>
    b.observedAt < a.observedAt ∨ (b.observedAt = a.observedAt ∧ b.id ≤ a.id)

/-- `reconcile_observations`: the database after the run and the number of claims created. -/
def reconcileObservations (db : Db) : Option (Db × ℕ) :=
  let observations := observationsOf personId db
  if observations.isEmpty then some (db, 0)
  else do
    let st ← (groupBy Observation.key observations).foldlM (reconcileGroup personId now draw)
      ⟨db.claims, 0⟩
    some ({ db with claims := st.claims }, st.created)

end Run

end VCBrain
