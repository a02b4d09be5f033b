import VCBrain.Sla

set_option relaxedAutoImplicit false
set_option autoImplicit false

/-!
# Transitions of opportunities

`transition_opportunity`, by which the jobs move an opportunity to another stage and record the
step as a decision event.

## Main definitions

* `transitionOpportunity` — the operation; it fails on a transition that is not allowed.

## Main results

* `transitionOpportunity_eq` — an allowed transition to another stage succeeds.
-/

namespace VCBrain

/-- An opportunity received now starts its clock. -/
def receiveAt (now : Time) (newState : Stage) (opportunity : Opportunity) : Opportunity :=
  if newState = .received then initializeSla now opportunity else opportunity

/-- The row once its new stage is written, which sets `updated_at` as well. -/
def moved (now : Time) (newState : Stage) (opportunity : Opportunity) : Opportunity :=
  { receiveAt now newState opportunity with lifecycleState := newState, updatedAt := now }

/-- The event that records a transition. -/
def transitionEvent (now : Time) (newId : Uuid) (opportunity : Opportunity) (newState : Stage)
    (actor reason : Str) : DecisionEvent where
  id := newId
  opportunityId := opportunity.id
  priorState := opportunity.lifecycleState
  newState := newState
  actor := actor
  reason := some (if reason = [] then advanceReason newState [] else reason)
  createdAt := now

/-- `transition_opportunity`: the row, and the event unless the stage stays the same. -/
def transitionOpportunity (now : Time) (newId : Uuid) (opportunity : Opportunity)
    (newState : Stage) (actor reason : Str) : Option (Opportunity × Option DecisionEvent) :=
  if !isValidTransition opportunity.lifecycleState newState then none
  else if opportunity.lifecycleState = newState then
    some (receiveAt now newState opportunity, none)
  else
    some (moved now newState opportunity,
      some (transitionEvent now newId opportunity newState actor reason))

@[simp] lemma moved_id (now : Time) (newState : Stage) (opportunity : Opportunity) :
    (moved now newState opportunity).id = opportunity.id := by
  unfold moved receiveAt initializeSla
  split_ifs <;> rfl

@[simp] lemma moved_lifecycleState (now : Time) (newState : Stage) (opportunity : Opportunity) :
    (moved now newState opportunity).lifecycleState = newState := rfl

/-- Only an opportunity that is received has its clock touched. -/
lemma moved_of_ne_received {now : Time} {newState : Stage} {opportunity : Opportunity}
    (h : newState ≠ .received) : moved now newState opportunity =
      { opportunity with lifecycleState := newState, updatedAt := now } := by
  unfold moved receiveAt
  rw [if_neg h]

/-- An allowed transition to another stage succeeds. -/
lemma transitionOpportunity_eq {now : Time} {newId : Uuid} {opportunity : Opportunity}
    {newState : Stage} {actor reason : Str} (hne : opportunity.lifecycleState ≠ newState)
    (hvalid : isValidTransition opportunity.lifecycleState newState = true) :
    transitionOpportunity now newId opportunity newState actor reason =
      some (moved now newState opportunity,
        some (transitionEvent now newId opportunity newState actor reason)) := by
  unfold transitionOpportunity
  rw [if_neg (by simp [hvalid]), if_neg hne]

end VCBrain
