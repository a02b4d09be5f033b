import VCBrain.Agents.PipelineRun
import VCBrain.Api.Decisions
import VCBrain.Foundation.Guarded
import VCBrain.Identity.Merge

set_option relaxedAutoImplicit false
set_option autoImplicit false

/-!
# The gates of the lifecycle

Runs of the pipeline, human decisions and merges of persons follow each other in any order, while
other jobs add persons, opportunities and artifacts. An opportunity that has passed a gate keeps
the artifact the gate looked at: the score of its founder, its axes, its memo.

## Main definitions

* `GateEvent` — what happens to the database.
* `GatesOf` — the artifacts behind a stage.
* `GateInv` — the invariant of the history.

## Main results

* `gatesOf_next` — an allowed transition behind its gate leads to a stage with its artifacts.
* `GateInv.step` — every event keeps the invariant.
* `gates_sound` — the artifacts behind every stage exist in every reachable state.

## Design

Ids of persons and opportunities are drawn by `uuid4`, which does not draw an id twice. A merge
reassigns score snapshots by the id of their subject alone, so this keeps it from reassigning
those of an opportunity.
-/

namespace VCBrain

/-- What happens to the database. -/
inductive GateEvent where
  | person (person : Person)
  | opportunity (opportunity : Opportunity) (founderId : Uuid)
  | score (score : ScoreSnapshot)
  | claim (claim : Claim)
  | memo (memo : InvestmentMemo)
  | pipeline (env : PipelineEnv) (now : Time) (draw : Uuid → Uuid) (budget : ℤ)
  | decision (decisionAt createdAt : Time) (newId : Uuid) (req : DecisionRequest)
  | merge (canonicalId duplicateId : Uuid) (now : Time)

/-- The id is neither that of a person nor that of an opportunity. -/
def FreshId (db : Db) (id : Uuid) : Prop :=
  (∀ p ∈ db.persons, p.id ≠ id) ∧ ∀ o ∈ db.opportunities, o.id ≠ id

instance (db : Db) (id : Uuid) : Decidable (FreshId db id) := inferInstanceAs (Decidable (_ ∧ _))

/-- The effect of an event. A new opportunity is discovered or received, and has one founder. -/
def GateEvent.step (isoformat : Time → Str) (db : Db) : GateEvent → Option Db
  | person p => if FreshId db p.id then some { db with persons := db.persons ++ [p] } else none
  | opportunity o founderId =>
    if FreshId db o.id ∧ (o.lifecycleState = .discovered ∨ o.lifecycleState = .received) then
      some { db with
        opportunities := db.opportunities ++ [o]
        opportunityFounders := db.opportunityFounders ++
          [{ opportunityId := o.id, personId := founderId, role := "founder" }] }
    else none
  | score s => some { db with scoreSnapshots := db.scoreSnapshots ++ [s] }
  | claim c => some { db with claims := db.claims ++ [c] }
  | memo m => some { db with investmentMemos := db.investmentMemos ++ [m] }
  | pipeline env now draw budget =>
    some (advancePipelineJob env now draw { db := db, budget := budget }).db
  | decision decisionAt createdAt newId req =>
    (recordCandidateDecision isoformat decisionAt createdAt newId db req).toOption.map Prod.snd
  | merge canonicalId duplicateId now => (mergePersons canonicalId duplicateId now db).toOption

/-! ## The artifacts behind a stage -/

/-- The links of an opportunity to its founders. -/
def founderLinks (db : Db) (id : Uuid) : List OpportunityFounder :=
  db.opportunityFounders.filter fun f => f.opportunityId = id

/-- The founder of the opportunity has a Founder Score. -/
def FounderScored (db : Db) (id : Uuid) : Prop :=
  ∃ f, founderLinks db id = [f] ∧ HasFounderScore db f.personId

/-- The artifacts behind a stage of an opportunity. -/
def GatesOf (db : Db) (id : Uuid) : Stage → Prop
  | .screening => FounderScored db id
  | .diligence => FounderScored db id ∧ HasOpportunityAxes db id
  | .memoReady | .hold | .approved =>
    FounderScored db id ∧ HasOpportunityAxes db id ∧ HasMemo db id
  | .discovered | .interesting | .investigating | .contacted | .received | .triage | .closed => True

/-- The invariant: ids do not clash, every opportunity has one founder, and the artifacts behind its
stage exist. -/
structure GateInv (db : Db) : Prop where
  disjoint : ∀ p ∈ db.persons, ∀ o ∈ db.opportunities, p.id ≠ o.id
  ids : KeyUnique Opportunity.id db.opportunities
  linked : ∀ f ∈ db.opportunityFounders, ∃ o ∈ db.opportunities, o.id = f.opportunityId
  founder : ∀ o ∈ db.opportunities, ∃ f, founderLinks db o.id = [f]
  gates : ∀ o ∈ db.opportunities, GatesOf db o.id o.lifecycleState

section Gates

variable {db db' : Db} {id : Uuid} {prior new : Stage}

/-- What a stage needs is kept if the artifacts are. -/
lemma GatesOf.mono (hscored : FounderScored db id → FounderScored db' id)
    (haxes : HasOpportunityAxes db id → HasOpportunityAxes db' id)
    (hmemo : HasMemo db id → HasMemo db' id) (stage : Stage) (h : GatesOf db id stage) :
    GatesOf db' id stage := by
  cases stage with
  | screening => exact hscored h
  | diligence => exact ⟨hscored h.1, haxes h.2⟩
  | memoReady => exact ⟨hscored h.1, haxes h.2.1, hmemo h.2.2⟩
  | hold => exact ⟨hscored h.1, haxes h.2.1, hmemo h.2.2⟩
  | approved => exact ⟨hscored h.1, haxes h.2.1, hmemo h.2.2⟩
  | _ => trivial

/-- **Gates.** An allowed transition of the pipeline behind its gate leads to a stage whose
artifacts exist. -/
lemma gatesOf_next {f : OpportunityFounder} (hfounder : founderLinks db id = [f])
    (h : GatesOf db id prior) (hne : prior ≠ new) (hvalid : isValidTransition prior new = true)
    (hgate : Gate db f.personId id new) : GatesOf db id new := by
  cases new with
  | screening => exact ⟨f, hfounder, hgate⟩
  | diligence =>
    have hprior : prior = .screening := by
      revert hne hvalid
      cases prior <;> decide
    subst hprior
    exact ⟨h, hgate⟩
  | memoReady =>
    have hprior : prior = .diligence := by
      revert hne hvalid
      cases prior <;> decide
    subst hprior
    exact ⟨h.1, h.2, hgate⟩
  | hold => exact hgate.elim
  | approved => exact hgate.elim
  | _ => trivial

/-- A decision leads to a stage whose artifacts exist. -/
lemma gatesOf_decision {action : DecisionAction} (h : GatesOf db id prior)
    (hne : prior ≠ decisionStateForAction action)
    (hvalid : isValidTransition prior (decisionStateForAction action) = true) :
    GatesOf db id (decisionStateForAction action) := by
  have hprior : action ≠ .decline → prior = .memoReady ∨ prior = .hold := by
    revert hne hvalid
    cases prior <;> cases action <;> decide
  cases action with
  | decline => trivial
  | hold =>
    rcases hprior (by decide) with rfl | rfl
    · exact h
    · exact h
  | proceed =>
    rcases hprior (by decide) with rfl | rfl
    · exact h
    · exact h

end Gates

/-! ## Every event keeps the invariant -/

section Events

variable {db db' : Db}

/-- A new person brings an id of its own. -/
private lemma GateInv.addPerson (h : GateInv db) {person : Person} (hfresh : FreshId db person.id) :
    GateInv { db with persons := db.persons ++ [person] } where
  disjoint p hp o ho := by
    rcases List.mem_append.mp hp with hold | hnew
    · exact h.disjoint p hold o ho
    · obtain rfl := List.mem_singleton.mp hnew
      exact (hfresh.2 o ho).symm
  ids := h.ids
  linked := h.linked
  founder := h.founder
  gates := h.gates

/-- A new opportunity brings an id of its own and one founder, and needs no artifact. -/
private lemma GateInv.addOpportunity (h : GateInv db) {opp : Opportunity} {founderId : Uuid}
    (hfresh : FreshId db opp.id)
    (hstage : opp.lifecycleState = .discovered ∨ opp.lifecycleState = .received) :
    GateInv { db with
      opportunities := db.opportunities ++ [opp]
      opportunityFounders := db.opportunityFounders ++
        [{ opportunityId := opp.id, personId := founderId, role := "founder" }] } := by
  set link : OpportunityFounder :=
    { opportunityId := opp.id, personId := founderId, role := "founder" } with hlink
  have hother : ∀ o ∈ db.opportunities, opp.id ≠ o.id := fun o ho => (hfresh.2 o ho).symm
  have hlinks : ∀ id, (db.opportunityFounders ++ [link]).filter (fun f => f.opportunityId = id) =
      founderLinks db id ++ if opp.id = id then [link] else [] := by
    intro id
    rw [List.filter_append]
    congr 1
    by_cases hid : opp.id = id
    · rw [if_pos hid, List.filter_cons_of_pos (by simpa [hlink] using hid), List.filter_nil]
    · rw [if_neg hid, List.filter_cons_of_neg (by simpa [hlink] using hid), List.filter_nil]
  have hkeep : ∀ o ∈ db.opportunities,
      (db.opportunityFounders ++ [link]).filter (fun f => f.opportunityId = o.id) =
        founderLinks db o.id := by
    intro o ho
    rw [hlinks, if_neg (hother o ho), List.append_nil]
  refine ⟨fun p hp o ho => ?_, ?_, fun f hf => ?_, fun o ho => ?_, fun o ho => ?_⟩
  · rcases List.mem_append.mp ho with hold | hnew
    · exact h.disjoint p hp o hold
    · obtain rfl := List.mem_singleton.mp hnew
      exact hfresh.1 p hp
  · unfold KeyUnique
    rw [List.map_append, List.nodup_append]
    refine ⟨h.ids, List.nodup_singleton _, fun a ha b hb => ?_⟩
    obtain ⟨o, ho, rfl⟩ := List.mem_map.mp ha
    obtain rfl := List.mem_singleton.mp hb
    exact (hother o ho).symm
  · rcases List.mem_append.mp hf with hold | hnew
    · obtain ⟨o, ho, hid⟩ := h.linked f hold
      exact ⟨o, List.mem_append_left _ ho, hid⟩
    · obtain rfl := List.mem_singleton.mp hnew
      exact ⟨opp, List.mem_append_right _ (List.mem_singleton_self _), rfl⟩
  · rcases List.mem_append.mp ho with hold | hnew
    · obtain ⟨f, hf⟩ := h.founder o hold
      exact ⟨f, (hkeep o hold).trans hf⟩
    · obtain rfl := List.mem_singleton.mp hnew
      have hnone : founderLinks db o.id = [] := by
        unfold founderLinks
        rw [List.filter_eq_nil_iff]
        intro f hf
        obtain ⟨o', ho', hid⟩ := h.linked f hf
        simpa [← hid] using hfresh.2 o' ho'
      exact ⟨link, by
        show (db.opportunityFounders ++ [link]).filter (fun f => f.opportunityId = o.id) = [link]
        rw [hlinks, if_pos rfl, hnone, List.nil_append]⟩
  · rcases List.mem_append.mp ho with hold | hnew
    · refine GatesOf.mono ?_ ?_ ?_ _ (h.gates o hold)
      · rintro ⟨f, hf, hscore⟩
        exact ⟨f, (hkeep o hold).trans hf, hscore⟩
      · exact id
      · exact id
    · obtain rfl := List.mem_singleton.mp hnew
      rcases hstage with hstage | hstage
      · rw [hstage]
        trivial
      · rw [hstage]
        trivial

/-- Writing artifacts and new versions of opportunities keeps the invariant if the new stages have
their artifacts. -/
private lemma GateInv.update (h : GateInv db) (hpersons : db'.persons = db.persons)
    (hfounders : db'.opportunityFounders = db.opportunityFounders)
    (hscores : db.scoreSnapshots ⊆ db'.scoreSnapshots)
    (hmemos : db.investmentMemos ⊆ db'.investmentMemos)
    (hids : db'.opportunities.map Opportunity.id = db.opportunities.map Opportunity.id)
    (hrows : ∀ o' ∈ db'.opportunities, ∃ o ∈ db.opportunities, o.id = o'.id ∧
      GatesOf db o.id o'.lifecycleState) : GateInv db' := by
  have hlinks : ∀ id, founderLinks db' id = founderLinks db id := by
    intro id
    unfold founderLinks
    rw [hfounders]
  refine ⟨fun p hp o' ho' => ?_, ?_, fun f hf => ?_, fun o' ho' => ?_, fun o' ho' => ?_⟩
  · obtain ⟨o, ho, hid, -⟩ := hrows o' ho'
    rw [← hid]
    exact h.disjoint p (hpersons ▸ hp) o ho
  · unfold KeyUnique
    rw [hids]
    exact h.ids
  · obtain ⟨o, ho, hid⟩ := h.linked f (hfounders ▸ hf)
    have hmem : o.id ∈ db'.opportunities.map Opportunity.id := hids ▸ List.mem_map_of_mem ho
    obtain ⟨o', ho', hid'⟩ := List.mem_map.mp hmem
    exact ⟨o', ho', hid'.trans hid⟩
  · obtain ⟨o, ho, hid, -⟩ := hrows o' ho'
    rw [hlinks, ← hid]
    exact h.founder o ho
  · obtain ⟨o, -, hid, hgates⟩ := hrows o' ho'
    rw [← hid]
    refine hgates.mono ?_ ?_ ?_
    · rintro ⟨f, hf, s, hs, hscore⟩
      exact ⟨f, (hlinks _).trans hf, s, hscores hs, hscore⟩
    · rintro ⟨s, hs, haxes⟩
      exact ⟨s, hscores hs, haxes⟩
    · rintro ⟨m, hm, hmemo⟩
      exact ⟨m, hmemos hm, hmemo⟩

/-- A merge moves the links of a founder and the scores behind them together. -/
private lemma GateInv.merge (h : GateInv db) {canonicalId duplicateId : Uuid} {now : Time}
    (hmerge : mergePersons canonicalId duplicateId now db = .ok db') : GateInv db' := by
  unfold mergePersons at hmerge
  cases hc : db.person? canonicalId with
  | none => rw [hc] at hmerge; cases hmerge
  | some canonical =>
    cases hd : db.person? duplicateId with
    | none => rw [hc, hd] at hmerge; cases hmerge
    | some duplicate =>
      rw [hc, hd] at hmerge
      dsimp only at hmerge
      split_ifs at hmerge with hsuperseded htaken
      · cases hmerge
        exact h
      · cases hmerge
        have hduplicate : duplicate ∈ db.persons := List.mem_of_find?_eq_some hd
        have hdid : duplicate.id = duplicateId := by simpa using List.find?_some hd
        have hlinks : ∀ id, founderLinks
            (mergedDb canonicalId duplicateId canonical duplicate now db)
            id = (founderLinks db id).map fun f =>
              { f with personId := reassign canonicalId duplicateId f.personId } := by
          intro id
          unfold founderLinks mergedDb
          rw [List.filter_map]
          rfl
        refine ⟨fun p hp o ho => ?_, h.ids, fun f hf => ?_, fun o ho => ?_, fun o ho => ?_⟩
        · obtain ⟨p', hp', rfl⟩ := List.mem_map.mp hp
          have hid : (markSuperseded canonicalId duplicateId now
              (mergeFields canonicalId canonical duplicate p')).id = p'.id := by
            unfold markSuperseded mergeFields
            split_ifs <;> rfl
          rw [hid]
          exact h.disjoint p' hp' o ho
        · obtain ⟨f', hf', rfl⟩ := List.mem_map.mp hf
          exact h.linked f' hf'
        · obtain ⟨f, hf⟩ := h.founder o ho
          exact ⟨_, by rw [hlinks, hf]; rfl⟩
        · refine GatesOf.mono ?_ ?_ ?_ _ (h.gates o ho)
          · rintro ⟨f, hf, s, hs, hsubject, hscore⟩
            refine ⟨_, by rw [hlinks, hf]; rfl, _, List.mem_map_of_mem hs, ?_, hscore⟩
            show reassign canonicalId duplicateId s.subjectId = _
            rw [hsubject]
          · rintro ⟨s, hs, hsubject, haxes⟩
            refine ⟨_, List.mem_map_of_mem hs, ?_, haxes⟩
            show reassign canonicalId duplicateId s.subjectId = _
            unfold reassign
            rw [hsubject, if_neg]
            exact (hdid ▸ h.disjoint duplicate hduplicate o ho).symm
          · exact id

/-- A decision leaves the artifacts alone and moves from a stage that needs all of them. -/
private lemma GateInv.decide (h : GateInv db) {isoformat : Time → Str} {decisionAt createdAt : Time}
    {newId : Uuid} {req : DecisionRequest} {response : DecisionResponse}
    (hdecide : recordCandidateDecision isoformat decisionAt createdAt newId db req =
      .ok (response, db')) : GateInv db' := by
  rcases recordCandidateDecision_cases hdecide with rfl | ⟨opp, d, hrow, hd, hcommit⟩
  · exact h
  obtain ⟨-, -, hrows, hpersons, hfounders, hscores, hmemos⟩ := commitDecision_eq_some hcommit
  have hopp : opp ∈ db.opportunities := List.mem_of_find?_eq_some hrow
  refine h.update hpersons hfounders (by rw [hscores]; exact List.Subset.refl _)
    (by rw [hmemos]; exact List.Subset.refl _) (by rw [hrows, map_id_replaceOpportunity])
    fun o' ho' => ?_
  rw [hrows] at ho'
  obtain ⟨o, ho, rfl⟩ := List.mem_map.mp ho'
  dsimp only
  split_ifs with hid
  · refine ⟨opp, hopp, hd.opportunity_id.symm, ?_⟩
    show GatesOf db opp.id d.opportunity.lifecycleState
    have hvalid := hd.valid
    have hne := hd.ne
    rw [hd.priorState, hd.newState] at hvalid hne
    rw [hd.opportunity_stage, hd.newState]
    exact gatesOf_decision (h.gates opp hopp) hne hvalid
  · exact ⟨o, ho, rfl, h.gates o ho⟩

/-- A run of the pipeline moves along allowed transitions behind their gates. -/
private lemma GateInv.pipeline (h : GateInv db) (env : PipelineEnv) (now : Time)
    (draw : Uuid → Uuid) (budget : ℤ) :
    GateInv (advancePipelineJob env now draw { db := db, budget := budget }).db := by
  set s : PipelineState := { db := db, budget := budget } with hs
  have hkey : KeyUnique Opportunity.id s.db.opportunities := h.ids
  have hsame : SameArtifacts db (advancePipelineJob env now draw s).db := run_sameArtifacts _ _ _ s
  have hrows := run_rows env now draw hkey
  have hkey' := run_keyUnique env now draw hkey
  have hgates : ∀ o ∈ db.opportunities,
      GatesOf db o.id (rowAfter env now draw s o).lifecycleState := by
    intro o ho
    unfold rowAfter
    by_cases hmem : o ∈ pipelineBatch env s.db
    · rw [(run_of_mem hkey hmem).outcome]
      cases hpick : env.anyFounder.pick (foundersOf s.db o.id) with
      | none => exact h.gates o ho
      | some person =>
        obtain ⟨f, hlinks⟩ := h.founder o ho
        have hfounder : person.id = f.personId := by
          obtain ⟨f', hf', hperson⟩ := List.mem_filterMap.mp (env.anyFounder.mem_of_pick _ _ hpick)
          obtain rfl : f' = f := by
            have hmem' : f' ∈ founderLinks db o.id := hf'
            rw [hlinks] at hmem'
            exact List.mem_singleton.mp hmem'
          simpa using List.find?_some hperson
        rw [Option.map_some, Option.elim_some]
        cases advance_outcome env now s.db (beforeTurn env now draw s o.id).budget (draw o.id) o
          person with
        | idle hopp _ _ _ =>
          rw [hopp]
          exact h.gates o ho
        | moved newState reason hne hvalid hgate hopp _ _ =>
          rw [hopp]
          exact gatesOf_next hlinks (h.gates o ho) hne hvalid (hfounder ▸ hgate)
        | noted reason metadata hopp _ _ _ =>
          rcases hopp with hopp | hopp
          · rw [hopp]
            exact h.gates o ho
          · rw [hopp]
            exact h.gates o ho
    · rw [(run_of_notMem _ _ _ hkey ho hmem).1]
      exact h.gates o ho
  unfold SameArtifacts at hsame
  rw [← hsame]
  refine h.update rfl rfl (List.Subset.refl _) (List.Subset.refl _) (run_map_id s)
    fun o' ho' => ?_
  rw [hrows] at ho'
  obtain ⟨o, ho, rfl⟩ := List.mem_map.mp ho'
  exact ⟨o, ho, (rowAfter_id _ _ _ hkey ho).symm, hgates o ho⟩

/-- **Events.** Every event keeps the invariant. -/
theorem GateInv.step {isoformat : Time → Str} (h : GateInv db) {e : GateEvent}
    (hstep : e.step isoformat db = some db') : GateInv db' := by
  unfold GateEvent.step at hstep
  cases e with
  | person person =>
    dsimp only at hstep
    split_ifs at hstep with hfresh
    cases hstep
    exact h.addPerson hfresh
  | opportunity opp founderId =>
    dsimp only at hstep
    split_ifs at hstep with hfresh
    cases hstep
    exact h.addOpportunity hfresh.1 hfresh.2
  | score score =>
    cases hstep
    exact h.update rfl rfl (List.subset_append_left _ _) (List.Subset.refl _) rfl
      fun o ho => ⟨o, ho, rfl, h.gates o ho⟩
  | claim claim =>
    cases hstep
    exact h.update rfl rfl (List.Subset.refl _) (List.Subset.refl _) rfl
      fun o ho => ⟨o, ho, rfl, h.gates o ho⟩
  | memo memo =>
    cases hstep
    exact h.update rfl rfl (List.Subset.refl _) (List.subset_append_left _ _) rfl
      fun o ho => ⟨o, ho, rfl, h.gates o ho⟩
  | pipeline env now draw budget =>
    cases hstep
    exact h.pipeline env now draw budget
  | decision decisionAt createdAt newId req =>
    dsimp only at hstep
    cases hdecide : recordCandidateDecision isoformat decisionAt createdAt newId db req with
    | error err =>
      rw [hdecide] at hstep
      cases hstep
    | ok result =>
      rw [hdecide] at hstep
      cases hstep
      exact h.decide hdecide
  | merge canonicalId duplicateId now =>
    dsimp only at hstep
    cases hmerge : mergePersons canonicalId duplicateId now db with
    | error err =>
      rw [hmerge] at hstep
      cases hstep
    | ok merged =>
      rw [hmerge] at hstep
      cases hstep
      exact h.merge hmerge

end Events

/-- The invariant holds of the empty database. -/
private lemma gateInv_empty : GateInv {} where
  disjoint _ hp := by cases hp
  ids := List.nodup_nil
  linked _ hf := by cases hf
  founder _ ho := by cases ho
  gates _ ho := by cases ho

/-- **Soundness of the gates.** After any sequence of new persons, opportunities and artifacts, runs
of the pipeline, decisions and merges, an opportunity in screening or beyond has one founder, who
has a Founder Score; one in diligence or beyond has its axes; one that is ready for a decision, held
or approved has a memo that succeeded.

**Proof sketch.** Induction on the history with `GateInv`. The pipeline enters a stage behind the
gate of that stage and from one whose artifacts exist already, decisions leave from stages that have
all of them, and a merge reassigns the link of a founder and the score behind it alike. -/
theorem gates_sound (isoformat : Time → Str) (events : List GateEvent) :
    let db := History.replay (GateEvent.step isoformat) {} events
    ∀ opp ∈ db.opportunities,
      (opp.lifecycleState ∈
          ([.screening, .diligence, .memoReady, .hold, .approved] : List Stage) →
        ∃ f, founderLinks db opp.id = [f] ∧ HasFounderScore db f.personId) ∧
      (opp.lifecycleState ∈ ([.diligence, .memoReady, .hold, .approved] : List Stage) →
        HasOpportunityAxes db opp.id) ∧
      (opp.lifecycleState ∈ ([.memoReady, .hold, .approved] : List Stage) →
        HasMemo db opp.id) := by
  intro db opp hopp
  have hinv : GateInv db := by
    exact History.replay_invariant _ (fun _ _ _ h hstep => h.step hstep) gateInv_empty events
  have hgates := hinv.gates opp hopp
  cases hstage : opp.lifecycleState <;> rw [hstage] at hgates
  case screening => exact ⟨fun _ => hgates, by simp, by simp⟩
  case diligence => exact ⟨fun _ => hgates.1, fun _ => hgates.2, by simp⟩
  case memoReady => exact ⟨fun _ => hgates.1, fun _ => hgates.2.1, fun _ => hgates.2.2⟩
  case hold => exact ⟨fun _ => hgates.1, fun _ => hgates.2.1, fun _ => hgates.2.2⟩
  case approved => exact ⟨fun _ => hgates.1, fun _ => hgates.2.1, fun _ => hgates.2.2⟩
  all_goals exact ⟨by simp, by simp, by simp⟩

end VCBrain
