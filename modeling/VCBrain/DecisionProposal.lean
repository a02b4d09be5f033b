import VCBrain.Db.Models
import VCBrain.Foundation.GroupBy
import VCBrain.Foundation.Unicode

set_option relaxedAutoImplicit false
set_option autoImplicit false

/-!
# Decision proposals

The deterministic construction of a versioned decision proposal from the assessments of an
opportunity, the accepted claims and the state of the memo.

## Main definitions

* `Axis` — the three axes; `canonicalAxis` — the axis a stored text names.
* `byAxis` — the assessment that stands for an axis.
* `buildDecisionProposal` — the values of the proposal.

## Main results

* `assessmentId_build` — the assessment a proposal names for an axis is the one that stands for it.
* `action_build_of_bearish` — one bearish axis is enough for `hold`.
-/

namespace VCBrain

/-- `_AXES`. -/
inductive Axis where
  | founder
  | market
  | ideaMarket
deriving DecidableEq

namespace Axis

/-- The axes in their fixed order. -/
def all : List Axis := [founder, market, ideaMarket]

lemma mem_all (axis : Axis) : axis ∈ all := by cases axis <;> decide

instance {p : Axis → Prop} [DecidablePred p] : Decidable (∀ axis, p axis) :=
  decidable_of_iff (∀ axis ∈ all, p axis)
    ⟨fun h axis => h axis (mem_all axis), fun h axis _ => h axis⟩

/-- The stored text of an axis. -/
def name : Axis → Str
  | founder => "Founder"
  | market => "Market"
  | ideaMarket => "Idea-Market"

end Axis

/-- The assessment a proposal names for an axis. -/
def ProposalValues.assessmentId (values : ProposalValues) : Axis → Option Uuid
  | .founder => values.founderAssessmentId
  | .market => values.marketAssessmentId
  | .ideaMarket => values.ideaMarketAssessmentId

/-- What `build_decision_proposal` is given. -/
structure ProposalInput where
  assessments : List Assessment
  claimIds : List Str
  thesisVersion : Option Str
  memoStatus : Str
  memoModelVersion : Option Str
  rubricVersions : List Str := []
  action : Option Str := none
  overrideReason : Option Str := none
  status : Str := "draft"

section Build

variable (ucd : Ucd)

/-- The axis a text names, whatever its case. -/
def canonicalAxis (axis : Str) : Option Axis :=
  Axis.all.find? fun item => ucd.casefold item.name = ucd.casefold axis

/-- `by_axis`: the first assessment of each axis. -/
def byAxis (assessments : List Assessment) (axis : Axis) : Option Assessment :=
  assessments.find? fun a => canonicalAxis ucd a.axis = some axis

/-- The values of `by_axis`. They are counted, averaged and searched only, so the order of the axes
serves as well as that of insertion. -/
def standing (assessments : List Assessment) : List Assessment :=
  Axis.all.filterMap (byAxis ucd assessments)

/-- `str(rating).casefold()`. -/
def rating (a : Assessment) : Str := ucd.casefold a.rating

/-- The name of an axis inside a key: folded, with underscores. -/
def axisKey (axis : Axis) : Str := Str.replaceChar '-' '_' (ucd.casefold axis.name)

/-- `readiness_blockers`. -/
def readinessBlockers (assessments : List Assessment) (memoStatus : Str) : List Str :=
  let missing := Axis.all.filter fun axis => (byAxis ucd assessments axis).isNone
  let unvalidated : List Str :=
    if memoStatus ≠ ("succeeded" : Str) then ["memo_not_validated"] else []
  (missing.map fun axis => ("missing_" : Str) ++ axisKey ucd axis ++ ("_assessment" : Str)) ++
    unvalidated

/-- The action the ratings suggest. -/
def suggestedAction (ratings : List Str) : Str :=
  if ("bearish" : Str) ∈ ratings then "hold"
  else if ratings.length = Axis.all.length ∧ ∀ r ∈ ratings, r = ("bullish" : Str) then "invest"
  else "investigate"

/-- The conviction an average confidence supports. -/
def conviction (confidences : List ℚ) (action : Str) : Option Str :=
  let average := confidences.sum / confidences.length
  if confidences = [] then none
  else if average ≥ 3 / 4 ∧ action = ("invest" : Str) then some "high"
  else if average ≥ 11 / 20 then some "medium"
  else some "low"

/-- The risks one axis adds to those found so far. -/
def addRisks (assessments : List Assessment) (risks : List Str) (axis : Axis) : List Str :=
  match byAxis ucd assessments axis with
  | none => risks
  | some a =>
    a.unknowns.foldl (fun risks unknown => if unknown ∈ risks then risks else risks ++ [unknown])
      (if rating ucd a = ("bearish" : Str) then
        risks ++ [axis.name ++ (" assessment is Bearish" : Str)] else risks)

/-- `build_decision_proposal`. -/
def buildDecisionProposal (input : ProposalInput) : ProposalValues :=
  let used := standing ucd input.assessments
  let action := input.action.getD (suggestedAction (used.map (rating ucd)))
  let blockers := readinessBlockers ucd input.assessments input.memoStatus
  let risks := Axis.all.foldl (addRisks ucd input.assessments) []
  let assessmentId (axis : Axis) := (byAxis ucd input.assessments axis).map Assessment.id
  { action := action
    conviction := conviction (used.map Assessment.confidence) action
    founderAssessmentId := assessmentId .founder
    marketAssessmentId := assessmentId .market
    ideaMarketAssessmentId := assessmentId .ideaMarket
    topEvidence := (firstKeys id input.claimIds).take 8
    topRisks := risks.take 8
    openConditions := (risks.map fun risk => ("Resolve: " : Str) ++ risk).take 8
    readinessBlockers := blockers
    readinessStatus := if blockers = [] then "ready" else "blocked"
    thesisVersion := input.thesisVersion
    rubricVersions := firstKeys id (input.rubricVersions ++ [("decision-proposal-v1" : Str)])
    memoModelVersion := input.memoModelVersion
    overrideReason := input.overrideReason
    status := input.status }

variable {ucd}

/-- The assessment a proposal names for an axis is the one that stands for it. -/
@[simp] lemma assessmentId_build (input : ProposalInput) (axis : Axis) :
    (buildDecisionProposal ucd input).assessmentId axis =
      (byAxis ucd input.assessments axis).map Assessment.id := by
  cases axis <;> rfl

/-- One bearish axis is enough for `hold`, unless the caller gives an action. -/
lemma action_build_of_bearish {input : ProposalInput} {axis : Axis} {a : Assessment}
    (hgiven : input.action = none) (ha : byAxis ucd input.assessments axis = some a)
    (hbearish : rating ucd a = ("bearish" : Str)) :
    (buildDecisionProposal ucd input).action = ("hold" : Str) := by
  have hmem : ("bearish" : Str) ∈ (standing ucd input.assessments).map (rating ucd) :=
    List.mem_map.mpr ⟨a, List.mem_filterMap.mpr ⟨axis, axis.mem_all, ha⟩, hbearish⟩
  show input.action.getD _ = _
  rw [hgiven, Option.getD_none, suggestedAction, if_pos hmem]

end Build

end VCBrain
