import VCBrain.Db.Models

set_option relaxedAutoImplicit false
set_option autoImplicit false

/-!
# The decision clock

The service level of inbound decisions: the clock starts once, when an opportunity is received,
and its attainment is fixed when a human decision is recorded.

## Main definitions

* `initializeSla`, `finalizeSla` — starting and stopping the clock.
* `evaluateSla` — status and attainment as they are reported.

## Main results

* `initializeSla_idem` — a clock that runs is not started again.
* `evaluateSla_breached_iff_finalizeSla` — when the live view and the final record agree on a
  breach.
-/

namespace VCBrain

/-- A number of minutes as a duration. -/
def minutes (n : ℤ) : Time := n * 60000000

/-- `SLA_STAGE_BUDGETS`. -/
def slaStageBudgets : List (Str × Time) :=
  [("triage", minutes 30), ("screening", minutes 180), ("diligence", minutes 840),
    ("memo", minutes 240), ("human_decision", minutes 150)]

/-- `SLA_TOTAL_BUDGET`. -/
def slaTotalBudget : Time := (slaStageBudgets.map Prod.snd).sum

/-- `initialize_sla`. -/
def initializeSla (now : Time) (o : Opportunity) : Opportunity :=
  if o.receivedAt.isSome then o
  else { o with
    receivedAt := some now
    decisionDueAt := some (now + slaTotalBudget)
    slaAttainment := .pending }

/-- A clock that runs is not started again. -/
lemma initializeSla_idem (now later : Time) (o : Opportunity) :
    initializeSla later (initializeSla now o) = initializeSla now o := by
  by_cases h : o.receivedAt.isSome = true
  · simp [initializeSla, h]
  · simp [initializeSla, h]

/-- The status `evaluate_sla` reports. -/
inductive SlaStatus where
  | notStarted
  | paused
  | met
  | breached
  | atRisk
  | onTrack
deriving DecidableEq

/-- The text of a status. -/
def SlaStatus.key : SlaStatus → Str
  | notStarted => "not_started"
  | paused => "paused"
  | met => "met"
  | breached => "breached"
  | atRisk => "at_risk"
  | onTrack => "on_track"

/-- The text of an attainment. -/
def SlaAttainment.key : SlaAttainment → Str
  | pending => "pending"
  | met => "met"
  | breached => "breached"

/-- `evaluate_sla`: the status and the attainment. -/
def evaluateSla (o : Opportunity) (now : Time) : SlaStatus × SlaAttainment :=
  match o.receivedAt, o.decisionDueAt with
  | some _, some due =>
    (if filled o.slaPauseReason then .paused
      else match o.slaAttainment with
        | .met => .met
        | .breached => .breached
        | .pending =>
          if due - now < 1000000 then .breached
          else if due - now < minutes 120 + 1000000 then .atRisk
          else .onTrack,
      o.slaAttainment)
  | _, _ => (.notStarted, o.slaAttainment)

/-- `finalize_sla`: the row and what is reported. -/
def finalizeSla (decidedAt : Time) (o : Opportunity) :
    Opportunity × (SlaStatus × SlaAttainment) :=
  if o.receivedAt.isNone then (o, evaluateSla o decidedAt)
  else
    let attainment : SlaAttainment :=
      if ∃ due ∈ o.decisionDueAt, decidedAt ≤ due then .met else .breached
    let decided := { o with slaAttainment := attainment, slaDecidedAt := some decidedAt }
    (decided, evaluateSla decided decidedAt)

/-- Stopping the clock changes neither the stage nor the key of an opportunity. -/
lemma finalizeSla_fst_frame (decidedAt : Time) (o : Opportunity) :
    (finalizeSla decidedAt o).1.id = o.id ∧
      (finalizeSla decidedAt o).1.lifecycleState = o.lifecycleState := by
  unfold finalizeSla
  split_ifs <;> exact ⟨rfl, rfl⟩

/-! ## The live view against the record -/

section Judgements

variable {o : Opportunity} {now received due : Time}

/-- An unpaused clock that is pending is reported as breached from one second before it is due:
the remaining time is cut to whole seconds. -/
lemma evaluateSla_fst_eq_breached_iff (hreceived : o.receivedAt = some received)
    (hdue : o.decisionDueAt = some due) (hpause : filled o.slaPauseReason = false)
    (hpending : o.slaAttainment = .pending) :
    (evaluateSla o now).1 = .breached ↔ due - now < 1000000 := by
  simp only [evaluateSla, hreceived, hdue, hpause, hpending, Bool.false_eq_true, if_false]
  by_cases hlate : due - now < 1000000
  · simp [hlate]
  · rw [if_neg hlate]
    split_ifs <;> simp [hlate]

/-- A decision is recorded as breached when it is made after the clock is due. -/
lemma finalizeSla_attainment_eq_breached_iff (hreceived : o.receivedAt = some received)
    (hdue : o.decisionDueAt = some due) :
    (finalizeSla now o).1.slaAttainment = .breached ↔ due < now := by
  have hnone : o.receivedAt.isNone = false := by simp [hreceived]
  simp only [finalizeSla, hnone, hdue, Bool.false_eq_true, if_false]
  by_cases hmet : now ≤ due
  · simp [hmet]
  · simp [hmet, not_le.mp hmet]

/-- **The two judgements.** For a pending clock that is not paused, the live view and the record of
a decision made at the same instant agree on a breach exactly when the clock has run out or has at
least a second left.

**Proof sketch.** The live view reports a breach when less than a second is left, the record when
none is. They differ on what lies between, the due time and the second before it. -/
theorem evaluateSla_breached_iff_finalizeSla (hreceived : o.receivedAt = some received)
    (hdue : o.decisionDueAt = some due) (hpause : filled o.slaPauseReason = false)
    (hpending : o.slaAttainment = .pending) :
    ((evaluateSla o now).1 = .breached ↔ (finalizeSla now o).1.slaAttainment = .breached) ↔
      due < now ∨ now + 1000000 ≤ due := by
  rw [evaluateSla_fst_eq_breached_iff hreceived hdue hpause hpending,
    finalizeSla_attainment_eq_breached_iff hreceived hdue]
  constructor
  · intro hagree
    rcases lt_or_ge (due - now) 1000000 with hlate | hearly
    · exact Or.inl (hagree.mp hlate)
    · exact Or.inr (by linarith)
  · rintro (hover | hleft)
    · exact ⟨fun _ => hover, fun _ => by linarith⟩
    · exact ⟨fun hlate => absurd hlate (by linarith), fun hover => absurd hover (by linarith)⟩

/-- A clock that was started at the beginning of the epoch. -/
private def startedClock : Opportunity := initializeSla 0 {
  id := 1
  companyName := "Acme"
  sourceKind := "inbound"
  lifecycleState := .received
  createdAt := 0 }

/-- An hour after its start the clock is on track in both views. -/
theorem evaluateSla_breached_iff_finalizeSla_started :
    ((evaluateSla startedClock (minutes 60)).1 = .breached ↔
      (finalizeSla (minutes 60) startedClock).1.slaAttainment = .breached) ↔
      slaTotalBudget < minutes 60 ∨ minutes 60 + 1000000 ≤ slaTotalBudget :=
  evaluateSla_breached_iff_finalizeSla (show startedClock.receivedAt = some 0 from rfl) rfl rfl rfl

/-- At the due time itself the live view reports a breach and a decision is recorded as met. -/
theorem evaluateSla_breached_at_due :
    ¬ ∀ (o : Opportunity) (received due now : Time), o.receivedAt = some received →
      o.decisionDueAt = some due → filled o.slaPauseReason = false →
      o.slaAttainment = .pending →
      ((evaluateSla o now).1 = .breached ↔
        (finalizeSla now o).1.slaAttainment = .breached) := by
  intro hagree
  have hdue := hagree startedClock 0 slaTotalBudget slaTotalBudget rfl rfl rfl rfl
  exact absurd (hdue.mp (by decide)) (by decide)

end Judgements

end VCBrain
