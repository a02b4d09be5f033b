import VCBrain.Foundation.Text

set_option relaxedAutoImplicit false
set_option autoImplicit false

/-!
# The deal lifecycle

The stages of an opportunity and the transitions between them, which transition validation,
worker orchestration and the API share.

## Main definitions

* `Stage` — the stages; `Stage.transitions` — the table of allowed transitions.
* `isValidTransition` — whether a stage may follow another.
* `Stage.Terminal` — no transition leaves the stage.

## Main results

* `Stage.terminal_iff` — the terminal stages are `approved` and `closed`.
* `isValidTransition_of_terminal` — only the stage itself may follow a terminal stage.
-/

namespace VCBrain

/-- `ck_opportunities_lifecycle_state`. -/
inductive Stage where
  | discovered
  | interesting
  | investigating
  | contacted
  | received
  | triage
  | screening
  | diligence
  | memoReady
  | hold
  | approved
  | closed
deriving DecidableEq

namespace Stage

/-- The stored text of a stage. -/
def key : Stage → Str
  | discovered => "discovered"
  | interesting => "interesting"
  | investigating => "investigating"
  | contacted => "contacted"
  | received => "received"
  | triage => "triage"
  | screening => "screening"
  | diligence => "diligence"
  | memoReady => "memo_ready"
  | hold => "hold"
  | approved => "approved"
  | closed => "closed"

/-- Different stages have different texts. -/
lemma key_injective : Function.Injective key := by
  intro a b hab
  cases a <;> cases b <;> first | rfl | exact absurd hab (by decide)

/-- The label of a stage. -/
def label : Stage → Str
  | discovered => "Discovered"
  | interesting => "Interesting"
  | investigating => "Investigating"
  | contacted => "Contacted"
  | received => "Received"
  | triage => "Triage"
  | screening => "Screening"
  | diligence => "Diligence"
  | memoReady => "Memo ready"
  | hold => "On hold"
  | approved => "Approved"
  | closed => "Closed"

/-- `TRANSITIONS`. -/
def transitions : Stage → List Stage
  | discovered => [interesting, closed]
  | interesting => [investigating, closed]
  | investigating => [contacted, received, closed]
  | contacted => [received, closed]
  | received => [triage, closed]
  | triage => [screening, closed]
  | screening => [diligence, closed]
  | diligence => [memoReady, closed]
  | memoReady => [hold, approved, closed]
  | hold => [approved, closed]
  | approved => []
  | closed => []

/-- No transition leaves the stage. -/
def Terminal (stage : Stage) : Prop := stage.transitions = []

instance : DecidablePred Terminal := fun _ => inferInstanceAs (Decidable (_ = _))

/-- The terminal stages. -/
lemma terminal_iff {stage : Stage} : stage.Terminal ↔ stage = approved ∨ stage = closed := by
  cases stage <;> simp [Terminal, transitions]

end Stage

/-- `is_valid_transition`. -/
def isValidTransition (prior new : Stage) : Bool := prior == new || new ∈ prior.transitions

@[simp] lemma isValidTransition_self (stage : Stage) : isValidTransition stage stage = true := by
  simp [isValidTransition]

/-- Only the stage itself may follow a terminal stage. -/
lemma isValidTransition_of_terminal {prior new : Stage} (h : prior.Terminal)
    (hvalid : isValidTransition prior new = true) : new = prior := by
  simp only [isValidTransition, show prior.transitions = [] from h, List.not_mem_nil,
    decide_false, Bool.or_false, beq_iff_eq] at hvalid
  exact hvalid.symm

/-- `advance_reason`: the reason recorded for a transition that is given none. -/
def advanceReason (new : Stage) (detail : Str) : Str :=
  let base : Str := match new with
    | .interesting => "Signal crossed interesting threshold"
    | .investigating => "Investigation started"
    | .contacted => "Outreach contact stage"
    | .received => "Inbound application received"
    | .memoReady => "Investment memo generated"
    | .approved => "Investment approved"
    | .closed => "Opportunity closed"
    | stage => stage.label
  if detail = [] then base else base ++ " — " ++ detail

end VCBrain
