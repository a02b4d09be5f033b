import VCBrain.Agents.MemoJob
import VCBrain.Api.Decisions
import VCBrain.Foundation.Guarded

set_option relaxedAutoImplicit false
set_option autoImplicit false

/-!
# The thesis of an opportunity

The memo job pins the thesis of an opportunity: it takes the version the opportunity names, or the
active thesis, whose version the opportunity then names. Saving a thesis rescores all candidates,
and rescoring writes the version of its thesis to the last opportunity of every canonical person.
This file determines in which histories the pin holds.

## Main definitions

* `scoreAllCandidates`, `saveActiveThesis`, `rescoreActiveThesis` — the rescoring path.
* `MemoRequest.start` — the memo job up to the pending memo.
* `Pinned`, `KeepsFinal` — the two parts of the law.
* `KeepsPin` — the condition on a step.

## Main results

* `pinned_iff` — a history keeps all theses pinned exactly if its steps meet the condition.

## Design

A rescoring reads the opportunities of the candidates by descending creation; the order of equal
ones is open. A memo is generated once it has left the states `pending` and `failed`. What other
parts of the program do to opportunities is one step that leaves memos and the named versions alone.
-/

namespace VCBrain

/-- `investment_theses`, as far as versions are concerned. -/
structure InvestmentThesis where
  id : Uuid
  version : Str
  isActive : Bool
  createdAt : Time
deriving DecidableEq

/-- The database and the theses. -/
structure ThesisState where
  db : Db := {}
  theses : List InvestmentThesis := []

/-- `f"thesis-v{n:03d}"`. -/
def thesisVersionText (n : ℕ) : Str :=
  let digits := Nat.toDigits 10 n
  "thesis-v".toList ++ (List.replicate (3 - digits.length) '0' ++ digits)

/-- The active thesis, the last one created. -/
def activeThesis (theses : List InvestmentThesis) : Option InvestmentThesis :=
  latest InvestmentThesis.createdAt (theses.filter fun t => t.isActive)

/-! ## Rescoring -/

/-- The order in which a query returns rows it is not told to order. -/
structure RowOrder (ρ : Type) where
  arrange : List ρ → List ρ
  perm : ∀ rows, (arrange rows).Perm rows

section Rescoring

variable (order : RowOrder (Uuid × Opportunity))

/-- The founders with their opportunities, the last created first. -/
def founderOpportunities (db : Db) : List (Uuid × Opportunity) :=
  (order.arrange (db.opportunityFounders.filterMap fun f =>
    (db.opportunity? f.opportunityId).map fun o => (f.personId, o))).insertionSort
      fun a b => b.2.createdAt ≤ a.2.createdAt

/-- The entry of a person in `latest_opportunity`. -/
def rescoredOpportunity (db : Db) (person : Uuid) : Option Opportunity :=
  ((founderOpportunities order db).find? fun row => row.1 = person).map Prod.snd

/-- The opportunity is the last one of some canonical person. -/
def Rescored (db : Db) (o : Opportunity) : Prop :=
  ∃ p ∈ db.persons, p.canonical = true ∧ rescoredOpportunity order db p.id = some o

instance (db : Db) : DecidablePred (Rescored order db) :=
  fun _ => inferInstanceAs (Decidable (∃ p ∈ db.persons, _))

/-- `score_all_candidates` on opportunities: each rescored one names the version. -/
def scoreAllCandidates (version : Str) (db : Db) : Db :=
  { db with opportunities := db.opportunities.map fun o =>
      if Rescored order db o then { o with thesisVersion := some version } else o }

/-- `save_active_thesis`: a new version is activated, and all candidates are rescored. -/
def saveActiveThesis (id : Uuid) (now : Time) (st : ThesisState) : Option ThesisState :=
  let thesis : InvestmentThesis :=
    { id := id, version := thesisVersionText (st.theses.length + 1), isActive := true
      createdAt := now }
  if ∃ t ∈ st.theses, t.id = thesis.id ∨ t.version = thesis.version then none
  else some
    { db := scoreAllCandidates order thesis.version st.db
      theses := st.theses.map (fun t => { t with isActive := false }) ++ [thesis] }

/-- `rescore_active_thesis`. -/
def rescoreActiveThesis (st : ThesisState) : Option ThesisState :=
  (activeThesis st.theses).map fun thesis =>
    { st with db := scoreAllCandidates order thesis.version st.db }

end Rescoring

/-! ## The memo job -/

/-- A run of the memo job that has found accepted claims with their evidence. -/
structure MemoRequest where
  personId : Uuid
  opportunityId : Uuid
  memoId : Uuid
  proposalId : Uuid
  claimIds : List Str
  agentModel : Str
  now : Time

/-- The thesis the memo job takes for an opportunity. -/
def memoThesis (theses : List InvestmentThesis) (o : Opportunity) : Option InvestmentThesis :=
  if filled o.thesisVersion then theses.find? fun t => some t.version = o.thesisVersion
  else activeThesis theses

/-- The opportunity names the thesis if it names none. -/
def pinThesis (version : Str) (id : Uuid) (o : Opportunity) : Opportunity :=
  if o.id = id ∧ o.thesisVersion = none then { o with thesisVersion := some version } else o

/-- The opportunity of the request, if the person is a founder of it. -/
def MemoRequest.opportunity (req : MemoRequest) (db : Db) : Option Opportunity :=
  (db.person? req.personId).bind fun person =>
    if ∃ f ∈ db.opportunityFounders,
        f.opportunityId = req.opportunityId ∧ f.personId = person.id then
      db.opportunity? req.opportunityId
    else none

/-- `generate_memo_job` up to the commit of the pending memo. -/
def MemoRequest.start (ucd : Ucd) (req : MemoRequest) (st : ThesisState) : Option ThesisState :=
  (req.opportunity st.db).bind fun o =>
    if req.claimIds = [] then none
    else (memoThesis st.theses o).bind fun thesis =>
      let run : MemoRun :=
        { opportunityId := o.id, memoId := req.memoId, proposalId := req.proposalId
          claimIds := req.claimIds, thesisVersion := thesis.version
          agentModel := req.agentModel, now := req.now }
      (run.storePending ucd st.db).map fun pending =>
        { st with db := { pending with
          opportunities := pending.opportunities.map (pinThesis thesis.version o.id) } }

/-! ## Histories -/

/-- A thesis is saved, or all candidates are rescored; a memo job stores a pending memo, or
completes it with a status; a reviewer decides; or another part of the program changes the
database. -/
inductive ThesisEvent where
  | save (order : RowOrder (Uuid × Opportunity)) (id : Uuid) (now : Time)
  | rescore (order : RowOrder (Uuid × Opportunity))
  | memo (req : MemoRequest)
  | complete (run : MemoRun) (assessments : List Assessment) (status modelVersion : Str)
  | decide (decisionAt createdAt : Time) (newId : Uuid) (req : DecisionRequest)
  | elsewhere (db : Db)

/-- Another part of the program leaves the memos, and the versions the opportunities name; a new
opportunity has no memo. -/
def LeavesPins (db db' : Db) : Prop :=
  db'.investmentMemos = db.investmentMemos ∧ KeyUnique Opportunity.id db'.opportunities ∧
    ∀ o' ∈ db'.opportunities,
      (∃ o ∈ db.opportunities, o.id = o'.id ∧ o.thesisVersion = o'.thesisVersion) ∨
        (∀ o ∈ db.opportunities, o.id ≠ o'.id) ∧ ∀ m ∈ db.investmentMemos, m.opportunityId ≠ o'.id

instance (db db' : Db) : Decidable (LeavesPins db db') :=
  inferInstanceAs (Decidable (_ ∧ (List.Nodup _) ∧ _))

/-- The state after an event, unless the event fails. -/
def ThesisState.step (ucd : Ucd) (isoformat : Time → Str) (st : ThesisState) :
    ThesisEvent → Option ThesisState
  | .save order id now => saveActiveThesis order id now st
  | .rescore order => rescoreActiveThesis order st
  | .memo req => req.start ucd st
  | .complete run assessments status modelVersion =>
    some { st with db := run.complete ucd assessments status modelVersion st.db }
  | .decide decisionAt createdAt newId req =>
    match recordCandidateDecision isoformat decisionAt createdAt newId st.db req with
    | .ok (_, db) => some { st with db := db }
    | .error _ => none
  | .elsewhere db => if LeavesPins st.db db then some { st with db := db } else none

/-- The status of a memo whose text has been generated. -/
def IsGenerated (status : Str) : Prop := status ≠ "pending" ∧ status ≠ "failed"

instance : DecidablePred IsGenerated := fun _ => inferInstanceAs (Decidable (_ ∧ _))

/-- An opportunity names the version that its generated memos record. -/
def Pinned (db : Db) : Prop :=
  ∀ m ∈ db.investmentMemos, IsGenerated m.status → ∀ o ∈ db.opportunities,
    o.id = m.opportunityId → o.thesisVersion = some m.thesisVersion

instance : DecidablePred Pinned := fun db =>
  inferInstanceAs (Decidable (∀ m ∈ db.investmentMemos, _))

/-- An approved or closed opportunity names the same version after the step as before. -/
def KeepsFinal (db db' : Db) : Prop :=
  ∀ o ∈ db.opportunities, o.lifecycleState.Terminal → ∀ o' ∈ db'.opportunities, o'.id = o.id →
    o'.thesisVersion = o.thesisVersion

/-- The thesis of the opportunity must not change: it is approved or closed, or a memo of it has
been generated. -/
def Protected (db : Db) (o : Opportunity) : Prop :=
  o.lifecycleState.Terminal ∨
    ∃ m ∈ db.investmentMemos, IsGenerated m.status ∧ m.opportunityId = o.id

/-- Rescoring with a version meets only opportunities that may change, or that name it already. -/
def RescoresOnly (order : RowOrder (Uuid × Opportunity)) (version : Str) (db : Db) : Prop :=
  ∀ o ∈ db.opportunities, Rescored order db o → Protected db o → o.thesisVersion = some version

/-- The condition on a step: rescoring leaves the protected opportunities alone, unless they name
its thesis; an approved or closed opportunity names a thesis before a memo job is run for it; and
when a memo is completed its opportunity names the version it records. -/
def KeepsPin (st : ThesisState) : ThesisEvent → Prop
  | .save order _ _ => RescoresOnly order (thesisVersionText (st.theses.length + 1)) st.db
  | .rescore order => ∀ t ∈ activeThesis st.theses, RescoresOnly order t.version st.db
  | .memo req => ∀ o ∈ st.db.opportunities, o.id = req.opportunityId →
      o.lifecycleState.Terminal → o.thesisVersion ≠ none
  | .complete run _ status _ => IsGenerated status → ∀ m ∈ st.db.investmentMemos,
      m.id = run.memoId → ∀ o ∈ st.db.opportunities, o.id = m.opportunityId →
        o.thesisVersion = some m.thesisVersion
  | _ => True

/-! ## One step -/

section Step

variable {db db' : Db}

/-- **Changes of the opportunities.** If a step changes the rows of opportunities one by one, and no
memo is generated, the law is kept exactly if every protected opportunity names what it named. -/
lemma kept_iff_of_map {f : Opportunity → Opportunity}
    (hids : KeyUnique Opportunity.id db.opportunities)
    (hpinned : Pinned db) (hrows : db'.opportunities = db.opportunities.map f)
    (hid : ∀ o, (f o).id = o.id)
    (hmemos : ∀ m, IsGenerated m.status →
      (m ∈ db'.investmentMemos ↔ m ∈ db.investmentMemos)) :
    Pinned db' ∧ KeepsFinal db db' ↔
      ∀ o ∈ db.opportunities, Protected db o → (f o).thesisVersion = o.thesisVersion := by
  constructor
  · rintro ⟨hpinned', hfinal⟩ o ho hprotected
    have hmem : f o ∈ db'.opportunities := hrows ▸ List.mem_map_of_mem ho
    rcases hprotected with hterminal | ⟨m, hm, hgenerated, hopp⟩
    · exact hfinal o ho hterminal (f o) hmem (hid o)
    · rw [hpinned m hm hgenerated o ho hopp.symm]
      exact hpinned' m ((hmemos m hgenerated).mpr hm) hgenerated (f o) hmem
        ((hid o).trans hopp.symm)
  · intro hkeeps
    refine ⟨fun m hm hgenerated o' ho' hopp => ?_, fun o ho hterminal o' ho' hsame => ?_⟩
    · rw [hrows] at ho'
      obtain ⟨o, ho, rfl⟩ := List.mem_map.mp ho'
      have hm' := (hmemos m hgenerated).mp hm
      have hopp' : o.id = m.opportunityId := (hid o).symm.trans hopp
      rw [hkeeps o ho (Or.inr ⟨m, hm', hgenerated, hopp'.symm⟩)]
      exact hpinned m hm' hgenerated o ho hopp'
    · rw [hrows] at ho'
      obtain ⟨o₂, ho₂, rfl⟩ := List.mem_map.mp ho'
      obtain rfl := hids.eq_of_id_eq ho₂ ho ((hid o₂).symm.trans hsame)
      exact hkeeps o₂ ho (Or.inl hterminal)

/-- Rescoring. -/
lemma kept_scoreAllCandidates_iff (hids : KeyUnique Opportunity.id db.opportunities)
    (hpinned : Pinned db) (order : RowOrder (Uuid × Opportunity)) (version : Str) :
    Pinned (scoreAllCandidates order version db) ∧
        KeepsFinal db (scoreAllCandidates order version db) ↔ RescoresOnly order version db := by
  have hkept := @kept_iff_of_map db (scoreAllCandidates order version db) _ hids hpinned rfl
    (fun o => by split_ifs <;> rfl) (fun m _ => Iff.rfl)
  rw [hkept]
  constructor
  · intro h o ho hrescored hprotected
    have heq := h o ho hprotected
    rw [if_pos hrescored] at heq
    exact heq.symm
  · intro h o ho hprotected
    split_ifs with hrescored
    · exact (h o ho hrescored hprotected).symm
    · rfl

/-- A memo that is stored is pending. -/
lemma storePending_memos {ucd : Ucd} {run : MemoRun} (h : run.storePending ucd db = some db') :
    db'.opportunities = db.opportunities ∧ ∀ m, IsGenerated m.status →
      (m ∈ db'.investmentMemos ↔ m ∈ db.investmentMemos) := by
  unfold MemoRun.storePending at h
  split_ifs at h
  rw [← Option.some.inj h]
  refine ⟨rfl, fun m hgenerated => ?_⟩
  rw [List.mem_append, List.mem_singleton]
  constructor
  · rintro (hm | rfl)
    · exact hm
    · exact absurd rfl hgenerated.1
  · exact Or.inl

/-- What a memo job that stores a pending memo has done. -/
lemma start_eq_some {ucd : Ucd} {req : MemoRequest} {st st' : ThesisState}
    (h : req.start ucd st = some st') : ∃ (o : Opportunity) (pending : Db) (version : Str),
      st.db.opportunity? req.opportunityId = some o ∧
      pending.opportunities = st.db.opportunities ∧
      (∀ m, IsGenerated m.status → (m ∈ pending.investmentMemos ↔ m ∈ st.db.investmentMemos)) ∧
      st' = { st with db := { pending with
        opportunities := pending.opportunities.map (pinThesis version o.id) } } := by
  obtain ⟨o, ho, h⟩ := Option.bind_eq_some_iff.mp h
  split_ifs at h
  obtain ⟨thesis, -, h⟩ := Option.bind_eq_some_iff.mp h
  obtain ⟨pending, hpending, rfl⟩ := Option.map_eq_some_iff.mp h
  obtain ⟨person, -, ho⟩ := Option.bind_eq_some_iff.mp ho
  split_ifs at ho
  obtain ⟨hopps, hmemos⟩ := storePending_memos hpending
  exact ⟨o, pending, thesis.version, ho, hopps, hmemos, rfl⟩

/-- The pin of a memo job. -/
lemma kept_memo_iff {ucd : Ucd} {req : MemoRequest} {st st' : ThesisState}
    (hids : KeyUnique Opportunity.id st.db.opportunities) (hpinned : Pinned st.db)
    (h : req.start ucd st = some st') :
    Pinned st'.db ∧ KeepsFinal st.db st'.db ↔ KeepsPin st (.memo req) := by
  obtain ⟨opp, pending, version, hopp, hrows, hmemos, rfl⟩ := start_eq_some h
  have hid : opp.id = req.opportunityId := id_of_opportunity? hopp
  have hpin : ∀ o, (pinThesis version opp.id o).id = o.id := by
    intro o
    unfold pinThesis
    split_ifs <;> rfl
  refine (kept_iff_of_map hids hpinned (f := pinThesis version opp.id) ?_ hpin ?_).trans ?_
  · simp only [hrows]
  · exact hmemos
  constructor
  · intro hkeeps o ho hoid hterminal hnone
    have heq := hkeeps o ho (Or.inl hterminal)
    rw [pinThesis, if_pos ⟨hoid.trans hid.symm, hnone⟩, hnone] at heq
    cases heq
  · intro hkeeps o ho hprotected
    unfold pinThesis
    split_ifs with hpin
    · exfalso
      rcases hprotected with hterminal | ⟨m, hm, hgenerated, hmopp⟩
      · exact hkeeps o ho (hpin.1.trans hid) hterminal hpin.2
      · rw [hpinned m hm hgenerated o ho hmopp.symm] at hpin
        cases hpin.2
    · rfl

/-- The completion of a memo. -/
lemma kept_complete_iff {ucd : Ucd} {run : MemoRun} {assessments : List Assessment}
    {status modelVersion : Str} (hids : KeyUnique Opportunity.id db.opportunities)
    (hpinned : Pinned db) :
    Pinned (run.complete ucd assessments status modelVersion db) ∧
        KeepsFinal db (run.complete ucd assessments status modelVersion db) ↔
      (IsGenerated status → ∀ m ∈ db.investmentMemos, m.id = run.memoId →
        ∀ o ∈ db.opportunities, o.id = m.opportunityId →
          o.thesisVersion = some m.thesisVersion) := by
  have hfinal : KeepsFinal db (run.complete ucd assessments status modelVersion db) := by
    intro o ho _ o' ho' hsame
    rw [hids.eq_of_id_eq ho' ho hsame]
  constructor
  · rintro ⟨hpinned', -⟩ hgenerated m hm hmid o ho hopp
    have hm' : { m with status := status } ∈
        (run.complete ucd assessments status modelVersion db).investmentMemos :=
      List.mem_map.mpr ⟨m, hm, if_pos hmid⟩
    exact hpinned' _ hm' hgenerated o ho hopp
  · intro hkeeps
    refine ⟨fun m' hm' hgenerated o ho hopp => ?_, hfinal⟩
    obtain ⟨m, hm, rfl⟩ := List.mem_map.mp hm'
    split_ifs at hgenerated hopp ⊢ with hmid
    · exact hkeeps hgenerated m hm hmid o ho hopp
    · exact hpinned m hm hgenerated o ho hopp

/-- A decision leaves the versions the opportunities name. -/
lemma decided_thesisVersion {isoformat : Time → Str} {decisionAt createdAt : Time} {newId : Uuid}
    {req : DecisionRequest} {response : DecisionResponse}
    (h : recordCandidateDecision isoformat decisionAt createdAt newId db req =
      .ok (response, db')) :
    db' = db ∨ db'.investmentMemos = db.investmentMemos ∧ ∃ opp new,
      db.opportunity? req.opportunityId = some opp ∧ new.id = opp.id ∧
      new.thesisVersion = opp.thesisVersion ∧
      db'.opportunities = replaceOpportunity db.opportunities new := by
  unfold recordCandidateDecision at h
  split at h
  · cases h
  · next opp hlock =>
    have hopp := (lockOpportunity_eq_ok_iff.mp hlock).2
    split at h
    · cases h
    · cases h
      exact Or.inl rfl
    · next d hdecided =>
      have hd : d.opportunity.id = opp.id ∧ d.opportunity.thesisVersion = opp.thesisVersion := by
        unfold decideLocked at hdecided
        split at hdecided
        · cases hdecided
        split at hdecided
        · split at hdecided <;> cases hdecided
        · split at hdecided
          · cases hdecided
          split at hdecided
          · cases hdecided
          · cases hdecided
            unfold newDecision finalizeSla
            dsimp only
            split_ifs <;> exact ⟨rfl, rfl⟩
      split at h
      · cases h
      · next db'' hcommit =>
        cases h
        unfold commitDecision at hcommit
        split_ifs at hcommit
        rw [← Option.some.inj hcommit]
        exact Or.inr ⟨rfl, opp, { d.opportunity with updatedAt := createdAt }, hopp, hd.1, hd.2,
          rfl⟩

/-- A decision keeps the law. -/
lemma kept_decide {isoformat : Time → Str} {decisionAt createdAt : Time} {newId : Uuid}
    {req : DecisionRequest} {response : DecisionResponse}
    (hids : KeyUnique Opportunity.id db.opportunities) (hpinned : Pinned db)
    (h : recordCandidateDecision isoformat decisionAt createdAt newId db req =
      .ok (response, db')) : Pinned db' ∧ KeepsFinal db db' := by
  rcases decided_thesisVersion h with rfl | ⟨hmemos, opp, new, hopp, hid, hversion, hrows⟩
  · refine ⟨hpinned, fun o ho _ o' ho' hsame => ?_⟩
    rw [hids.eq_of_id_eq ho' ho hsame]
  · rw [kept_iff_of_map hids hpinned (f := fun o => if o.id = new.id then new else o) hrows
      (fun o => by split_ifs with hsame <;> simp [hsame]) (fun m _ => by rw [hmemos])]
    intro o ho _
    split_ifs with hsame
    · have hmem := List.mem_of_find?_eq_some hopp
      rw [hversion, hids.eq_of_id_eq ho hmem (hsame.trans hid)]
    · rfl

/-- What other parts of the program do keeps the law. -/
lemma kept_elsewhere (hids : KeyUnique Opportunity.id db.opportunities) (hpinned : Pinned db)
    (h : LeavesPins db db') : Pinned db' ∧ KeepsFinal db db' := by
  obtain ⟨hmemos, -, hrows⟩ := h
  refine ⟨fun m hm hgenerated o' ho' hopp => ?_, fun o ho _ o' ho' hsame => ?_⟩
  · rw [hmemos] at hm
    rcases hrows o' ho' with ⟨o, ho, hid, hversion⟩ | ⟨-, hnone⟩
    · rw [← hversion]
      exact hpinned m hm hgenerated o ho (hid.trans hopp)
    · exact absurd hopp.symm (hnone m hm)
  · rcases hrows o' ho' with ⟨o₂, ho₂, hid, hversion⟩ | ⟨hnew, -⟩
    · rw [← hversion, hids.eq_of_id_eq ho₂ ho (hid.trans hsame)]
    · exact absurd hsame.symm (hnew o ho)

end Step

/-! ## The law over histories -/

section Histories

variable {ucd : Ucd} {isoformat : Time → Str} {st st' : ThesisState} {e : ThesisEvent}

/-- A step keeps the ids of opportunities distinct. -/
lemma keyUnique_thesisStep (hids : KeyUnique Opportunity.id st.db.opportunities)
    (h : st.step ucd isoformat e = some st') : KeyUnique Opportunity.id st'.db.opportunities := by
  have hmap : ∀ f : Opportunity → Opportunity, (∀ o, (f o).id = o.id) →
      KeyUnique Opportunity.id (st.db.opportunities.map f) := by
    intro f hf
    have hids' : (st.db.opportunities.map f).map Opportunity.id =
        st.db.opportunities.map Opportunity.id := by
      rw [List.map_map]
      exact List.map_congr_left fun o _ => hf o
    rw [KeyUnique, hids']
    exact hids
  have hrescored : ∀ (order : RowOrder (Uuid × Opportunity)) version,
      KeyUnique Opportunity.id (scoreAllCandidates order version st.db).opportunities :=
    fun order version => hmap _ fun o => by split_ifs <;> rfl
  cases e with
  | save order id now =>
    simp only [ThesisState.step, saveActiveThesis] at h
    split_ifs at h
    rw [← Option.some.inj h]
    exact hrescored order _
  | rescore order =>
    obtain ⟨t, -, rfl⟩ := Option.map_eq_some_iff.mp h
    exact hrescored order _
  | memo req =>
    obtain ⟨o, pending, version, -, hrows, -, rfl⟩ := start_eq_some h
    simp only [hrows]
    exact hmap _ fun o => by unfold pinThesis; split_ifs <;> rfl
  | complete run assessments status modelVersion =>
    rw [← Option.some.inj h]
    exact hids
  | decide decisionAt createdAt newId req =>
    simp only [ThesisState.step] at h
    split at h
    · next response db hdecided =>
      rw [← Option.some.inj h]
      rcases decided_thesisVersion hdecided with rfl | ⟨-, opp, new, -, -, -, hrows⟩
      · exact hids
      · show (db.opportunities.map Opportunity.id).Nodup
        rw [hrows, map_id_replaceOpportunity]
        exact hids
    · cases h
  | elsewhere db =>
    simp only [ThesisState.step] at h
    split_ifs at h with hleaves
    rw [← Option.some.inj h]
    exact hleaves.2.1

/-- **One step.** From a state in which the theses are pinned, a step keeps the law exactly if it
meets the condition. -/
lemma kept_step_iff (hids : KeyUnique Opportunity.id st.db.opportunities)
    (hpinned : Pinned st.db) (h : st.step ucd isoformat e = some st') :
    Pinned st'.db ∧ KeepsFinal st.db st'.db ↔ KeepsPin st e := by
  cases e with
  | save order id now =>
    simp only [ThesisState.step, saveActiveThesis] at h
    split_ifs at h
    rw [← Option.some.inj h]
    exact kept_scoreAllCandidates_iff hids hpinned order _
  | rescore order =>
    obtain ⟨t, ht, rfl⟩ := Option.map_eq_some_iff.mp h
    rw [kept_scoreAllCandidates_iff hids hpinned]
    constructor
    · intro honly t' ht'
      rw [Option.mem_def, ht, Option.some.injEq] at ht'
      rwa [← ht']
    · intro honly
      exact honly t ht
  | memo req => exact kept_memo_iff hids hpinned h
  | complete run assessments status modelVersion =>
    rw [← Option.some.inj h]
    exact kept_complete_iff hids hpinned
  | decide decisionAt createdAt newId req =>
    simp only [ThesisState.step] at h
    split at h
    · next response db hdecided =>
      rw [← Option.some.inj h]
      exact iff_of_true (kept_decide hids hpinned hdecided) trivial
    · cases h
  | elsewhere db =>
    simp only [ThesisState.step] at h
    split_ifs at h with hleaves
    rw [← Option.some.inj h]
    exact iff_of_true (kept_elsewhere hids hpinned hleaves) trivial

end Histories

/-- **Pinned theses.** In every history, from no rows on, all opportunities name the versions that
their generated memos record and no approved or closed opportunity changes its version, exactly if
every step meets the condition.

**Proof sketch.** By `kept_step_iff`. The memo job names a thesis only where none is named, and then
no memo has been generated; decisions do not touch the version. Rescoring writes it without looking
at memos or states, and so keeps the law only where it meets no protected opportunity. -/
theorem pinned_iff (ucd : Ucd) (isoformat : Time → Str) (events : List ThesisEvent) :
    History.Along (ThesisState.step ucd isoformat)
        (fun st _ st' => Pinned st'.db ∧ KeepsFinal st.db st'.db) {} events ↔
      History.Guarded (ThesisState.step ucd isoformat) KeepsPin {} events := by
  apply History.along_iff_guarded (ThesisState.step ucd isoformat)
    (I := fun st => KeyUnique Opportunity.id st.db.opportunities ∧ Pinned st.db)
  · intro st e st' hI h
    exact kept_step_iff hI.1 hI.2 h
  · intro st e st' hI h hkept
    exact ⟨keyUnique_thesisStep hI.1 h, hkept.1⟩
  · refine ⟨List.nodup_nil, fun m hm => ?_⟩
    cases hm

/-- The rows of a query as they are stored. -/
def asStored : RowOrder (Uuid × Opportunity) where
  arrange rows := rows
  perm _ := List.Perm.refl _

/-- A candidate with an opportunity that is ready for a decision. -/
def readyDb : Db where
  persons := [{ id := 1, stableId := "founder", createdAt := 0 }]
  opportunities := [{ id := 7, companyName := "Company", sourceKind := "inbound"
                      lifecycleState := .memoReady, createdAt := 0 }]
  opportunityFounders := [⟨7, 1, "founder"⟩]

/-- The memo of the candidate. -/
def readyMemo : MemoRequest where
  personId := 1
  opportunityId := 7
  memoId := 20
  proposalId := 21
  claimIds := ["claim"]
  agentModel := "model"
  now := 1

/-- A thesis is saved, a memo is generated with it, a reviewer proceeds, and another thesis is
saved. -/
def savedTwice : List ThesisEvent :=
  [.elsewhere readyDb, .save asStored 10 0, .memo readyMemo,
    .complete ⟨7, 20, 21, ["claim"], "thesis-v001", "model", 1⟩ [] "succeeded" "model",
    .decide 2 2 30 ⟨1, 7, .proceed, "a fit", "key"⟩, .save asStored 11 3]

/-- The approved opportunity names the second thesis, and its memo the first. -/
theorem not_pinned_savedTwice :
    ¬ History.Along (ThesisState.step Ucd.ascii fun _ => [])
      (fun st _ st' => Pinned st'.db ∧ KeepsFinal st.db st'.db) {} savedTwice := by
  intro hkept
  have hlast : ((ThesisState.step Ucd.ascii (fun _ => []) (History.replay
      (ThesisState.step Ucd.ascii fun _ => []) {} (savedTwice.take 5))
        (.save asStored 11 3)).map fun st => decide (Pinned st.db)) = some false := by
    decide +kernel
  obtain ⟨st, hst, hpinned⟩ := Option.map_eq_some_iff.mp hlast
  have hsplit : savedTwice = savedTwice.take 5 ++ [.save asStored 11 3] := rfl
  rw [hsplit, History.along_append] at hkept
  exact of_decide_eq_false hpinned (hkept.2.1 st hst).1

end VCBrain
