import VCBrain.DecisionProposal
import VCBrain.Foundation.OrderBy

set_option relaxedAutoImplicit false
set_option autoImplicit false

/-!
# The memo job: the stored proposal

`generate_memo_job` stores a pending memo with a proposal before it calls the model, and
computes the values of the proposal again when the memo has failed or is done. All three times
it uses the assessments of the opportunity it loaded once, ordered by their creation.

## Main definitions

* `loadAssessments` — the assessments the job loads.
* `MemoRun.persist` — what the job stores.
* `ReflectsNewest` — a proposal names a newest assessment of each axis.

## Main results

* `proposal_newest_iff` — the histories of assessments for which the stored proposal does.
-/

namespace VCBrain

/-- The assessments of an opportunity. -/
def Db.assessmentsOf (db : Db) (opportunityId : Uuid) : List Assessment :=
  db.assessments.filter fun a => a.opportunityId = opportunityId

/-- The assessments of an opportunity, `ORDER BY created_at, id`. -/
def loadAssessments (db : Db) (opportunityId : Uuid) : List Assessment :=
  orderBy (fun a : Assessment => toLex (a.createdAt, a.id)) (db.assessmentsOf opportunityId)

/-- A run of the job that has reached the storing of the pending memo. -/
structure MemoRun where
  opportunityId : Uuid
  memoId : Uuid
  proposalId : Uuid
  claimIds : List Str
  thesisVersion : Str
  agentModel : Str
  now : Time

/-- How the generation of the memo ends: the worker stops, the call raises, or a memo comes back
with its status and model version. -/
inductive Generation where
  | stopped
  | raised
  | returned (status modelVersion : Str)

namespace MemoRun

variable (ucd : Ucd) (run : MemoRun)

/-- The values of the proposal for a status of the memo. -/
def proposalValues (assessments : List Assessment) (memoStatus memoModelVersion : Str) :
    ProposalValues :=
  buildDecisionProposal ucd
    { assessments := assessments
      claimIds := run.claimIds
      thesisVersion := some run.thesisVersion
      memoStatus := memoStatus
      memoModelVersion := some memoModelVersion
      rubricVersions := ["founder-agent-v1", "opportunity-axes-v1"] }

/-- The memo with its proposal as they are first stored. -/
def storePending (db : Db) : Option Db :=
  if (∃ m ∈ db.investmentMemos, m.id = run.memoId) ∨
      ∃ p ∈ db.decisionProposals, p.id = run.proposalId then none
  else
    let assessments := loadAssessments db run.opportunityId
    some { db with
      investmentMemos := db.investmentMemos ++
        [{ id := run.memoId
           opportunityId := run.opportunityId
           thesisVersion := run.thesisVersion
           status := "pending"
           claimIds := run.claimIds
           assessmentIds := assessments.map fun a => Uuid.str a.id
           createdAt := run.now }]
      decisionProposals := db.decisionProposals ++
        [{ run.proposalValues ucd assessments "pending" run.agentModel with
           id := run.proposalId
           opportunityId := run.opportunityId
           memoId := some run.memoId
           createdAt := run.now }] }

/-- The status of the memo and `_apply_proposal_values` on the proposal. -/
def complete (assessments : List Assessment) (memoStatus memoModelVersion : Str) (db : Db) : Db :=
  { db with
    investmentMemos := db.investmentMemos.map fun m =>
      if m.id = run.memoId then { m with status := memoStatus } else m
    decisionProposals := db.decisionProposals.map fun p =>
      if p.id = run.proposalId then
        { run.proposalValues ucd assessments memoStatus memoModelVersion with
          id := p.id, opportunityId := p.opportunityId, memoId := p.memoId,
          createdAt := p.createdAt }
      else p }

/-- The proposal stored by the run. -/
def storedProposal (db : Db) : Option DecisionProposal :=
  db.decisionProposals.find? fun p => p.id = run.proposalId

/-- `generate_memo_job` from the storing of the pending memo on. -/
def persist (generation : Generation) (db : Db) : Option Db :=
  (run.storePending ucd db).map fun pending =>
    let assessments := loadAssessments db run.opportunityId
    match generation with
    | .stopped => pending
    | .raised => run.complete ucd assessments "failed" run.agentModel pending
    | .returned status modelVersion =>
      run.complete ucd assessments status
        (if modelVersion = [] then run.agentModel else modelVersion) pending

end MemoRun

/-! ## The newest assessments -/

section Newest

variable (ucd : Ucd)

/-- The assessment is one of its axis, and none of the axis was created later. -/
def IsNewest (assessments : List Assessment) (axis : Axis) (a : Assessment) : Prop :=
  canonicalAxis ucd a.axis = some axis ∧
    ∀ b ∈ assessments, canonicalAxis ucd b.axis = some axis → b.createdAt ≤ a.createdAt

instance (assessments : List Assessment) (axis : Axis) :
    DecidablePred (IsNewest ucd assessments axis) :=
  fun _ => inferInstanceAs (Decidable (_ ∧ _))

/-- What a proposal names for an axis is a newest assessment of it, or nothing if there is none. -/
def NamesNewest (assessments : List Assessment) (axis : Axis) : Option Uuid → Prop
  | none => ∀ a ∈ assessments, canonicalAxis ucd a.axis ≠ some axis
  | some id => ∃ a ∈ assessments, a.id = id ∧ IsNewest ucd assessments axis a

instance (assessments : List Assessment) (axis : Axis) :
    DecidablePred (NamesNewest ucd assessments axis)
  | none => inferInstanceAs (Decidable (∀ a ∈ assessments, canonicalAxis ucd a.axis ≠ some axis))
  | some id =>
    inferInstanceAs (Decidable (∃ a ∈ assessments, a.id = id ∧ IsNewest ucd assessments axis a))

/-- For each axis the proposal names a newest assessment, and none only if there is none. -/
def ReflectsNewest (assessments : List Assessment) (values : ProposalValues) : Prop :=
  ∀ axis, NamesNewest ucd assessments axis (values.assessmentId axis)

instance (assessments : List Assessment) : DecidablePred (ReflectsNewest ucd assessments) :=
  fun values =>
    inferInstanceAs
      (Decidable (∀ axis, NamesNewest ucd assessments axis (values.assessmentId axis)))

/-- The assessments of one axis all have one creation time. -/
def OneTimePerAxis (assessments : List Assessment) : Prop :=
  ∀ a ∈ assessments, ∀ b ∈ assessments, (canonicalAxis ucd a.axis).isSome →
    canonicalAxis ucd a.axis = canonicalAxis ucd b.axis → a.createdAt = b.createdAt

instance : DecidablePred (OneTimePerAxis ucd) := fun assessments =>
  inferInstanceAs (Decidable (∀ a ∈ assessments, ∀ b ∈ assessments, _))

end Newest

section Lemmas

variable {ucd : Ucd} {run : MemoRun} {generation : Generation} {db db' : Db} {opportunityId : Uuid}

/-- The assessment that stands for an axis is a first one of it. -/
lemma byAxis_loadAssessments {axis : Axis} {a : Assessment}
    (h : byAxis ucd (loadAssessments db opportunityId) axis = some a) :
    a ∈ db.assessmentsOf opportunityId ∧ canonicalAxis ucd a.axis = some axis ∧
      ∀ b ∈ db.assessmentsOf opportunityId, canonicalAxis ucd b.axis = some axis →
        a.createdAt ≤ b.createdAt := by
  refine ⟨mem_orderBy.mp (List.mem_of_find?_eq_some h), by simpa using List.find?_some h, ?_⟩
  intro b hb haxis
  rcases Prod.Lex.toLex_le_toLex.mp (find?_orderBy_le h b hb (by simpa using haxis)) with hlt | heq
  · exact hlt.le
  · exact heq.1.le

variable (run) in
/-- A proposal built from the loaded assessments names the newest ones exactly if those of one axis
have one creation time. -/
lemma reflectsNewest_proposalValues_iff (hkey : KeyUnique Assessment.id db.assessments)
    (memoStatus modelVersion : Str) :
    ReflectsNewest ucd (db.assessmentsOf opportunityId)
        (run.proposalValues ucd (loadAssessments db opportunityId) memoStatus modelVersion) ↔
      OneTimePerAxis ucd (db.assessmentsOf opportunityId) := by
  have hid : ∀ axis, (run.proposalValues ucd (loadAssessments db opportunityId) memoStatus
      modelVersion).assessmentId axis =
        (byAxis ucd (loadAssessments db opportunityId) axis).map Assessment.id :=
    fun axis => assessmentId_build _ axis
  unfold ReflectsNewest
  simp only [hid]
  constructor
  · intro hnewest a ha b hb hsome hsame
    obtain ⟨axis, haxis⟩ := Option.isSome_iff_exists.mp hsome
    have hnames := hnewest axis
    cases hfirst : byAxis ucd (loadAssessments db opportunityId) axis with
    | none =>
      rw [hfirst] at hnames
      exact absurd haxis (hnames a ha)
    | some first =>
      rw [hfirst] at hnames
      obtain ⟨newest, hmem, heq, -, hlatest⟩ := hnames
      obtain ⟨hfirstmem, -, hearliest⟩ := byAxis_loadAssessments hfirst
      obtain rfl : newest = first :=
        hkey.eq_of_id_eq (List.mem_of_mem_filter hmem) (List.mem_of_mem_filter hfirstmem) heq
      have hbaxis : canonicalAxis ucd b.axis = some axis := hsame ▸ haxis
      -- what stands for the axis is both a first and a last one
      have ha_eq := le_antisymm (hlatest a ha haxis) (hearliest a ha haxis)
      have hb_eq := le_antisymm (hlatest b hb hbaxis) (hearliest b hb hbaxis)
      rw [ha_eq, hb_eq]
  · intro hone axis
    cases hfirst : byAxis ucd (loadAssessments db opportunityId) axis with
    | none =>
      intro a ha haxis
      have hnone := List.find?_eq_none.mp hfirst a (mem_orderBy.mpr ha)
      simp [haxis] at hnone
    | some first =>
      obtain ⟨hmem, haxis, -⟩ := byAxis_loadAssessments hfirst
      refine ⟨first, hmem, rfl, haxis, fun b hb hbaxis => ?_⟩
      exact (hone first hmem b hb (by simp [haxis]) (haxis.trans hbaxis.symm)).ge

/-- The pending proposal is stored with its first values. -/
lemma storedProposal_storePending (h : run.storePending ucd db = some db') :
    ∃ proposal, run.storedProposal db' = some proposal ∧
      proposal.toProposalValues = run.proposalValues ucd (loadAssessments db run.opportunityId)
        "pending" run.agentModel := by
  unfold MemoRun.storePending at h
  split_ifs at h with htaken
  push Not at htaken
  have hfresh : db.decisionProposals.find? (fun p => p.id = run.proposalId) = none := by
    rw [List.find?_eq_none]
    intro p hp
    simpa using htaken.2 p hp
  obtain rfl := Option.some.inj h
  simp [MemoRun.storedProposal, List.find?_append, hfresh]

/-- Completion computes the values of the stored proposal again. -/
lemma storedProposal_complete {assessments : List Assessment} {memoStatus modelVersion : Str}
    {proposal : DecisionProposal} (h : run.storedProposal db = some proposal) :
    ∃ completed,
      run.storedProposal (run.complete ucd assessments memoStatus modelVersion db) =
        some completed ∧
      completed.toProposalValues = run.proposalValues ucd assessments memoStatus modelVersion := by
  have hid : proposal.id = run.proposalId := by simpa using List.find?_some h
  unfold MemoRun.storedProposal at h ⊢
  have hkeep : ((fun p : DecisionProposal => decide (p.id = run.proposalId)) ∘ fun p =>
      if p.id = run.proposalId then
        { run.proposalValues ucd assessments memoStatus modelVersion with
          id := p.id, opportunityId := p.opportunityId, memoId := p.memoId,
          createdAt := p.createdAt }
      else p) = fun p => decide (p.id = run.proposalId) := by
    funext p
    by_cases hp : p.id = run.proposalId <;> simp [hp]
  simp only [MemoRun.complete]
  rw [List.find?_map, hkeep, h]
  simp [hid]

/-- A run stores a proposal whose values are built from the loaded assessments. -/
lemma storedProposal_persist (h : run.persist ucd generation db = some db') :
    ∃ proposal memoStatus modelVersion, run.storedProposal db' = some proposal ∧
      proposal.toProposalValues = run.proposalValues ucd (loadAssessments db run.opportunityId)
        memoStatus modelVersion := by
  obtain ⟨pending, hpending, rfl⟩ := Option.map_eq_some_iff.mp h
  obtain ⟨proposal, hstored, hvalues⟩ := storedProposal_storePending hpending
  cases generation with
  | stopped => exact ⟨proposal, _, _, hstored, hvalues⟩
  | raised =>
    obtain ⟨completed, hcompleted, hvalues⟩ := storedProposal_complete hstored
    exact ⟨completed, _, _, hcompleted, hvalues⟩
  | returned status modelVersion =>
    obtain ⟨completed, hcompleted, hvalues⟩ := storedProposal_complete hstored
    exact ⟨completed, _, _, hcompleted, hvalues⟩

/-- **Newest assessments.** However the generation ends, the stored proposal names a newest
assessment of each axis exactly if all assessments of one axis were created at one time.

**Proof sketch.** The job orders the assessments by their creation and the proposal takes the first
of each axis, so what stands for an axis is an oldest one. -/
theorem proposal_newest_iff (hkey : KeyUnique Assessment.id db.assessments)
    (h : run.persist ucd generation db = some db') :
    (∃ proposal, run.storedProposal db' = some proposal ∧
      ReflectsNewest ucd (db.assessmentsOf run.opportunityId) proposal.toProposalValues) ↔
    OneTimePerAxis ucd (db.assessmentsOf run.opportunityId) := by
  obtain ⟨stored, memoStatus, modelVersion, hstored, hvalues⟩ := storedProposal_persist h
  rw [← reflectsNewest_proposalValues_iff run hkey memoStatus modelVersion, ← hvalues,
    hstored]
  simp

end Lemmas

/-- An assessment of the founder axis. -/
def founderAssessment (id : Uuid) (rating : Str) (createdAt : Time) : Assessment where
  id := id
  opportunityId := 1
  axis := "Founder"
  rating := rating
  createdAt := createdAt

/-- A run on that opportunity. -/
def sampleMemoRun : MemoRun where
  opportunityId := 1
  memoId := 2
  proposalId := 3
  claimIds := []
  thesisVersion := "thesis-v1"
  agentModel := "model"
  now := 10

/-- A database with these assessments. -/
def assessedDb (assessments : List Assessment) : Db where
  assessments := assessments

/-- A single assessment is the newest. -/
theorem proposal_newest_single :
    ∃ db', sampleMemoRun.persist .ascii .raised (assessedDb [founderAssessment 11 "Bullish" 0]) =
        some db' ∧
      ∃ proposal, sampleMemoRun.storedProposal db' = some proposal ∧
        ReflectsNewest .ascii [founderAssessment 11 "Bullish" 0] proposal.toProposalValues := by
  obtain ⟨db', h⟩ : ∃ db', sampleMemoRun.persist .ascii .raised
      (assessedDb [founderAssessment 11 "Bullish" 0]) = some db' := ⟨_, rfl⟩
  exact ⟨db', h, (proposal_newest_iff (by unfold KeyUnique; decide) h).mpr (by decide)⟩

/-- A bearish assessment after a bullish one is not reflected. -/
theorem not_proposal_newest_bearish :
    ¬ ∀ db', sampleMemoRun.persist .ascii .raised
        (assessedDb [founderAssessment 11 "Bullish" 0, founderAssessment 12 "Bearish" 1]) =
          some db' →
      ∃ proposal, sampleMemoRun.storedProposal db' = some proposal ∧
        ReflectsNewest .ascii
          [founderAssessment 11 "Bullish" 0, founderAssessment 12 "Bearish" 1]
          proposal.toProposalValues := by
  intro h
  obtain ⟨proposal, hstored, hnewest⟩ := h _ rfl
  obtain rfl := Option.some.inj hstored
  exact absurd hnewest (by decide)

end VCBrain
