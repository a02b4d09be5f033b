import VCBrain.Api.Inbound
import VCBrain.Collectors.Jobs
import VCBrain.Foundation.Guarded
import VCBrain.Identity.Review

set_option relaxedAutoImplicit false
set_option autoImplicit false

/-!
# Evidence belongs to canonical persons

A merge moves the evidence of the duplicate to the canonical person. The program has other
writers of evidence, which look a person up without asking whether the person was merged. This
file determines in which histories of all of them every row of evidence refers to a canonical
person.

## Main definitions

* `EvidenceCanonical` — all observations, scores, founders and relationships refer to canonical
  persons.
* `Writing.Event`, `Writing.step` — the transactions that write evidence.
* `Writing.Keeps` — the condition on a transaction.

## Main results

* `evidenceCanonical_mergedDb_iff` — one merge.
* `evidenceCanonical_step_iff` — one transaction.
* `evidenceCanonical_history_iff` — whole histories.
-/

namespace VCBrain

/-- The id is that of a canonical person. -/
def Db.IsCanonical (db : Db) (p : Uuid) : Prop :=
  (db.person? p).any (fun person => person.canonical) = true

instance (db : Db) : DecidablePred db.IsCanonical := fun _ => inferInstanceAs (Decidable (_ = true))

/-- Every observation subject, relationship endpoint, person-scoped score subject and opportunity
founder is a canonical person. -/
def EvidenceCanonical (db : Db) : Prop :=
  (∀ o ∈ db.observations, ∀ p ∈ o.subjectId, db.IsCanonical p) ∧
  (∀ r ∈ db.relationships, db.IsCanonical r.personAId ∧ db.IsCanonical r.personBId) ∧
  (∀ s ∈ db.scoreSnapshots, s.subjectType = "person" → db.IsCanonical s.subjectId) ∧
  ∀ f ∈ db.opportunityFounders, db.IsCanonical f.personId

-- the subject is looked at, rather than all ids tried
instance : DecidablePred EvidenceCanonical := fun db =>
  have (o : Observation) : Decidable (∀ p ∈ o.subjectId, db.IsCanonical p) :=
    Option.decidableForallMem o.subjectId
  inferInstanceAs (Decidable (_ ∧ _ ∧ _ ∧ _))

/-- A person has evidence that a merge would keep: a row other than a relationship of the person
with itself. -/
def Db.HasEvidence (db : Db) (p : Uuid) : Prop :=
  (∃ o ∈ db.observations, o.subjectId = some p) ∨
  (∃ r ∈ db.relationships, (r.personAId = p ∨ r.personBId = p) ∧
    ¬ (r.personAId = p ∧ r.personBId = p)) ∨
  (∃ s ∈ db.scoreSnapshots, s.subjectType = "person" ∧ s.subjectId = p) ∨
  ∃ f ∈ db.opportunityFounders, f.personId = p

instance (db : Db) : DecidablePred db.HasEvidence := fun _ =>
  inferInstanceAs (Decidable (_ ∨ _ ∨ _ ∨ _))

section Basic

variable {db db' : Db} {p : Uuid} {person : Person}

/-- The four tables are those a merge updates. -/
lemma evidenceCanonical_iff :
    EvidenceCanonical db ↔ ∀ p, db.RefersToInMovedTable p → db.IsCanonical p := by
  constructor
  · rintro ⟨hobs, hrel, hscore, hfounder⟩ p
      (⟨o, ho, hp⟩ | ⟨r, hr, hp | hp⟩ | ⟨s, hs, htype, hp⟩ | ⟨f, hf, hp⟩)
    · exact hobs o ho p hp
    · exact hp ▸ (hrel r hr).1
    · exact hp ▸ (hrel r hr).2
    · exact hp ▸ hscore s hs htype
    · exact hp ▸ hfounder f hf
  · intro h
    refine ⟨fun o ho p hp => h p (Or.inl ⟨o, ho, hp⟩), fun r hr => ⟨?_, ?_⟩,
      fun s hs htype => h _ (Or.inr (Or.inr (Or.inl ⟨s, hs, htype, rfl⟩))),
      fun f hf => h _ (Or.inr (Or.inr (Or.inr ⟨f, hf, rfl⟩)))⟩
    · exact h _ (Or.inr (Or.inl ⟨r, hr, Or.inl rfl⟩))
    · exact h _ (Or.inr (Or.inl ⟨r, hr, Or.inr rfl⟩))

lemma isCanonical_iff (hp : db.person? p = some person) :
    db.IsCanonical p ↔ person.canonical = true := by
  rw [Db.IsCanonical, hp, Option.any_some]

/-- Under distinct ids a row is what its id is looked up as. -/
lemma person?_of_mem (hu : KeyUnique Person.id db.persons) (hmem : person ∈ db.persons) :
    db.person? person.id = some person := by
  cases hfind : db.person? person.id with
  | none =>
    have hnone := List.find?_eq_none.mp hfind person hmem
    simp at hnone
  | some found =>
    have hid : found.id = person.id := by simpa using List.find?_some hfind
    rw [hu.eq_of_id_eq (List.mem_of_find?_eq_some hfind) hmem hid]

end Basic

/-! ## Merges -/

section Merge

variable {c d p : Uuid} {canonical duplicate : Person} {now : Time} {db : Db}

/-- A merge changes only the duplicate's standing. -/
lemma isCanonical_mergedDb (hc : db.person? c = some canonical) (hp : p ≠ d) :
    (mergedDb c d canonical duplicate now db).IsCanonical p ↔ db.IsCanonical p := by
  cases hperson : db.person? p with
  | none => simp [Db.IsCanonical, person?_mergedDb, hperson]
  | some person =>
    obtain ⟨person', hperson', hcanonical, -⟩ := exists_person_mergedDb duplicate now hc hp hperson
    rw [isCanonical_iff hperson', isCanonical_iff hperson, hcanonical]

lemma not_isCanonical_mergedDb (hd : db.person? d = some duplicate) :
    ¬ (mergedDb c d canonical duplicate now db).IsCanonical d := by
  obtain ⟨duplicate', hduplicate', hfalse, -⟩ := exists_duplicate_mergedDb c canonical now hd
  rw [isCanonical_iff hduplicate', hfalse]
  exact Bool.false_ne_true

/-- After a merge a row refers to the person it did, or to the canonical person if it referred to
the duplicate. -/
lemma refersTo_of_mergedDb
    (h : (mergedDb c d canonical duplicate now db).RefersToInMovedTable p) :
    (p = c ∧ db.HasEvidence d) ∨ (p ≠ d ∧ db.RefersToInMovedTable p) := by
  have hmove : ∀ id, reassign c d id = p → (id = d ∧ p = c) ∨ (id = p ∧ p ≠ d) := by
    intro id hid
    unfold reassign at hid
    by_cases heq : id = d
    · rw [if_pos heq] at hid
      exact Or.inl ⟨heq, hid.symm⟩
    · rw [if_neg heq] at hid
      exact Or.inr ⟨hid, hid ▸ heq⟩
  rcases h with ⟨o', ho', hp⟩ | ⟨r', hr', hp⟩ | ⟨s', hs', htype, hp⟩ | ⟨f', hf', hp⟩
  · obtain ⟨o, ho, rfl⟩ := List.mem_map.mp ho'
    simp only [reassign?] at hp
    by_cases hsubject : o.subjectId = some d
    · rw [if_pos hsubject] at hp
      exact Or.inl ⟨(Option.some.inj hp).symm, Or.inl ⟨o, ho, hsubject⟩⟩
    · rw [if_neg hsubject] at hp
      exact Or.inr ⟨fun heq => hsubject (heq ▸ hp), Or.inl ⟨o, ho, hp⟩⟩
  · obtain ⟨hmem, hkept⟩ := List.mem_filter.mp hr'
    obtain ⟨r, hr, rfl⟩ := List.mem_map.mp hmem
    rw [decide_eq_true_eq] at hkept
    have hnotself : ¬ (r.personAId = d ∧ r.personBId = d) := by
      rintro ⟨ha, hb⟩
      exact hkept ⟨by simp [reassignRelationship, ha], by simp [reassignRelationship, hb]⟩
    cases hp with
    | inl hp =>
      cases hmove _ hp with
      | inl h => exact Or.inl ⟨h.2, Or.inr (Or.inl ⟨r, hr, Or.inl h.1, hnotself⟩)⟩
      | inr h => exact Or.inr ⟨h.2, Or.inr (Or.inl ⟨r, hr, Or.inl h.1⟩)⟩
    | inr hp =>
      cases hmove _ hp with
      | inl h => exact Or.inl ⟨h.2, Or.inr (Or.inl ⟨r, hr, Or.inr h.1, hnotself⟩)⟩
      | inr h => exact Or.inr ⟨h.2, Or.inr (Or.inl ⟨r, hr, Or.inr h.1⟩)⟩
  · obtain ⟨s, hs, rfl⟩ := List.mem_map.mp hs'
    cases hmove _ hp with
    | inl h => exact Or.inl ⟨h.2, Or.inr (Or.inr (Or.inl ⟨s, hs, htype, h.1⟩))⟩
    | inr h => exact Or.inr ⟨h.2, Or.inr (Or.inr (Or.inl ⟨s, hs, htype, h.1⟩))⟩
  · obtain ⟨f, hf, rfl⟩ := List.mem_map.mp hf'
    cases hmove _ hp with
    | inl h => exact Or.inl ⟨h.2, Or.inr (Or.inr (Or.inr ⟨f, hf, h.1⟩))⟩
    | inr h => exact Or.inr ⟨h.2, Or.inr (Or.inr (Or.inr ⟨f, hf, h.1⟩))⟩

/-- The evidence of the duplicate is referred to the canonical person, if that person had none or
is the duplicate itself. -/
lemma refersTo_mergedDb_of_hasEvidence (hd : db.HasEvidence d)
    (hc : c = d ∨ ¬ db.RefersToInMovedTable c) :
    (mergedDb c d canonical duplicate now db).RefersToInMovedTable c := by
  rcases hd with ⟨o, ho, hp⟩ | ⟨r, hr, hp, hnotself⟩ | ⟨s, hs, htype, hp⟩ | ⟨f, hf, hp⟩
  · exact Or.inl ⟨_, List.mem_map_of_mem ho, by simp [hp]⟩
  · have hother : ∀ id, reassign c d id = c →
        id = d ∨ (id = c ∧ (r.personAId ≠ id ∧ r.personBId ≠ id)) := by
      intro id hid
      unfold reassign at hid
      by_cases heq : id = d
      · exact Or.inl heq
      · rw [if_neg heq] at hid
        subst hid
        cases hc with
        | inl hc => exact Or.inl hc
        | inr hc =>
          exact Or.inr ⟨rfl, fun ha => hc (Or.inr (Or.inl ⟨r, hr, Or.inl ha⟩)),
            fun hb => hc (Or.inr (Or.inl ⟨r, hr, Or.inr hb⟩))⟩
    have hkept : ¬ (reassign c d r.personAId = c ∧ reassign c d r.personBId = c) := by
      rintro ⟨ha, hb⟩
      have ha' := (hother _ ha).resolve_right fun h => h.2.1 rfl
      have hb' := (hother _ hb).resolve_right fun h => h.2.2 rfl
      exact hnotself ⟨ha', hb'⟩
    refine Or.inr (Or.inl ⟨_, List.mem_filter.mpr ⟨List.mem_map_of_mem hr, ?_⟩, ?_⟩)
    · rw [decide_eq_true_eq]
      exact hkept
    · exact hp.imp (fun ha => by simp [reassignRelationship, ha])
        fun hb => by simp [reassignRelationship, hb]
  · exact Or.inr (Or.inr (Or.inl ⟨_, List.mem_map_of_mem hs, htype, by simp [hp]⟩))
  · exact Or.inr (Or.inr (Or.inr ⟨_, List.mem_map_of_mem hf, by simp [hp]⟩))

/-- **One merge.** A merge keeps the evidence with canonical persons exactly if it is one into
another canonical person, or the duplicate has no evidence. -/
lemma evidenceCanonical_mergedDb_iff (h : EvidenceCanonical db)
    (hc : db.person? c = some canonical) (hd : db.person? d = some duplicate) :
    EvidenceCanonical (mergedDb c d canonical duplicate now db) ↔
      (canonical.canonical = true ∧ c ≠ d) ∨ ¬ db.HasEvidence d := by
  rw [evidenceCanonical_iff] at h ⊢
  constructor
  · intro hafter
    by_contra hnot
    push Not at hnot
    obtain ⟨hsame, hevidence⟩ := hnot
    by_cases hcd : c = d
    · have hrefers : (mergedDb c d canonical duplicate now db).RefersToInMovedTable c :=
        refersTo_mergedDb_of_hasEvidence hevidence (Or.inl hcd)
      exact not_isCanonical_mergedDb hd (hcd ▸ hafter c hrefers)
    · have hnotcanonical : ¬ db.IsCanonical c := by
        rw [isCanonical_iff hc]
        exact fun hcanonical => hcd (hsame hcanonical)
      have hrefers : (mergedDb c d canonical duplicate now db).RefersToInMovedTable c :=
        refersTo_mergedDb_of_hasEvidence hevidence (Or.inr fun h' => hnotcanonical (h c h'))
      exact hnotcanonical ((isCanonical_mergedDb hc hcd).mp (hafter c hrefers))
  · intro hcondition p hrefers
    cases refersTo_of_mergedDb hrefers with
    | inl hmoved =>
      obtain ⟨rfl, hevidence⟩ := hmoved
      obtain ⟨hcanonical, hcd⟩ := hcondition.resolve_right (not_not_intro hevidence)
      rw [isCanonical_mergedDb hc hcd, isCanonical_iff hc]
      exact hcanonical
    | inr hkept =>
      rw [isCanonical_mergedDb hc hkept.1]
      exact h p hkept.2

end Merge

/-! ## The writers -/

/-- What the transactions use of other libraries. -/
structure WriterEnv where
  matching : MatchEnv
  md5 : List UInt8 → Str

namespace Writing

/-- A transaction that writes evidence. -/
inductive Event where
  | resolve (s : Schedule)
  | approve (matchId : Uuid) (now : Time)
  | reject (matchId : Uuid) (now : Time)
  | submitPitch (form : PitchForm)
  | recomputeSignals (byUpdate : List Person → List Person)
      (hperm : ∀ persons, (byUpdate persons).Perm persons) (draw : ℕ → Uuid) (now : Time)
  | collect (task : CollectTask)

variable (env : WriterEnv)

/-- The database after a transaction, unless it fails and is rolled back. -/
def step (db : Db) : Event → Option Db
  | .resolve s => (resolveIdentities env.matching s db).map fun run => run.db
  | .approve matchId now => approveMatch matchId now db
  | .reject matchId now => rejectMatch matchId now db
  | .submitPitch form => submitPitch env.matching.ucd env.matching.bracketed form db
  | .recomputeSignals byUpdate _ draw now => VCBrain.recomputeSignals byUpdate draw now db
  | .collect task => collectJob env.matching.ucd env.md5 task db

/-- The condition under which a transaction keeps evidence with canonical persons:

* a run of identity resolution and a rejection always do;
* an approval, if the later-created person was merged already or has no evidence, or the
  earlier-created one is another canonical person;
* a submission, if it is a replay or the person with its stable id, if any, is canonical;
* a recomputation, if the persons it selects are canonical;
* a collection, if its job has ended, its person is missing or canonical, or its connector
  fails. -/
def Keeps (db : Db) : Event → Prop
  | .resolve _ => True
  | .approve matchId _ => ∀ ids ∈ approvedPersons matchId db, db.IsCanonical ids.2 →
      (db.IsCanonical ids.1 ∧ ids.1 ≠ ids.2) ∨ ¬ db.HasEvidence ids.2
  | .reject _ _ => True
  | .submitPitch form =>
      (∃ s ∈ db.inboundSubmissions, s.idempotencyKey = form.idempotencyKey.strip) ∨
      ∀ person ∈ founders env.matching.ucd form db, person.canonical = true
  | .recomputeSignals byUpdate _ _ _ =>
      ∀ person ∈ (byUpdate db.persons).take 500, person.canonical = true
  | .collect task => task.ended = true ∨ ∀ person ∈ db.person? task.personId,
      person.canonical = true ∨
        (task.collected (task.resolveHandle person)).filter (fun c => validateCollected c) = none

instance (db : Db) : DecidablePred (Keeps env db)
  | .resolve _ => inferInstanceAs (Decidable True)
  | .approve matchId _ => Option.decidableForallMem (approvedPersons matchId db)
  | .reject _ _ => inferInstanceAs (Decidable True)
  | .submitPitch _ => inferInstanceAs (Decidable (_ ∨ _))
  | .recomputeSignals byUpdate _ _ _ =>
      inferInstanceAs (Decidable (∀ person ∈ (byUpdate db.persons).take 500, _))
  | .collect task => inferInstanceAs (Decidable (_ ∨ ∀ person ∈ db.person? task.personId, _))

end Writing

section Writers

variable {env : WriterEnv} {db db' : Db}

/-- Where canonical persons stay canonical and rows are only added, the evidence stays with
canonical persons exactly if the new rows do. -/
lemma evidenceCanonical_append_iff (h : EvidenceCanonical db)
    (observations : List Observation) (scores : List ScoreSnapshot)
    (founders : List OpportunityFounder) (hkeep : ∀ p, db.IsCanonical p → db'.IsCanonical p)
    (hobs : db'.observations = db.observations ++ observations)
    (hrel : db'.relationships = db.relationships)
    (hscore : db'.scoreSnapshots = db.scoreSnapshots ++ scores)
    (hfounder : db'.opportunityFounders = db.opportunityFounders ++ founders) :
    EvidenceCanonical db' ↔
      (∀ o ∈ observations, ∀ p ∈ o.subjectId, db'.IsCanonical p) ∧
      (∀ s ∈ scores, s.subjectType = "person" → db'.IsCanonical s.subjectId) ∧
      ∀ f ∈ founders, db'.IsCanonical f.personId := by
  unfold EvidenceCanonical at h ⊢
  rw [hobs, hrel, hscore, hfounder]
  simp only [List.mem_append, or_imp, forall_and]
  constructor
  · intro hafter
    exact ⟨hafter.1.2, hafter.2.2.1.2, hafter.2.2.2.2⟩
  · intro hnew
    refine ⟨⟨fun o ho p hp => hkeep p (h.1 o ho p hp), hnew.1⟩,
      ⟨fun r hr => hkeep _ (h.2.1 r hr).1, fun r hr => hkeep _ (h.2.1 r hr).2⟩,
      ⟨fun s hs htype => hkeep _ (h.2.2.1 s hs htype), hnew.2.1⟩,
      fun f hf => hkeep _ (h.2.2.2 f hf), hnew.2.2⟩

/-- The states the histories reach: evidence belongs to canonical persons, and ids of persons are
distinct. -/
def Writing.Invariant (db : Db) : Prop := EvidenceCanonical db ∧ KeyUnique Person.id db.persons

/-- A visit of identity resolution merges canonical persons only. -/
lemma Writing.Invariant.visited (h : Writing.Invariant db) {s : Schedule} {pair : Uuid × Uuid}
    (hne : pair.1 ≠ pair.2) (hvisit : Visited env.matching s db pair db') :
    Writing.Invariant db' := by
  cases hvisit with
  | pass => exact h
  | queue => exact h
  | @merge c d canonical duplicate _ hpair hc hd hcc hdc _ hmerge =>
    have hcd : c ≠ d := by
      cases hpair with
      | inl heq =>
        rw [heq] at hne
        exact hne
      | inr heq =>
        rw [heq] at hne
        exact Ne.symm hne
    obtain ⟨canonical', duplicate', hc', hd', ⟨-, rfl⟩ | ⟨-, rfl⟩⟩ := mergePersons_eq_ok hmerge
    · exact h
    · rw [hc] at hc'
      cases hc'
      exact ⟨(evidenceCanonical_mergedDb_iff h.1 hc hd').mpr (Or.inl ⟨hcc, hcd⟩),
        keyUnique_mergedDb h.2⟩

/-- A run of identity resolution keeps the evidence with canonical persons. -/
lemma Writing.Invariant.resolve (h : Writing.Invariant db) {s : Schedule} {run : ResolveRun}
    (hrun : resolveIdentities env.matching s db = some run) : Writing.Invariant run.db := by
  unfold resolveIdentities at hrun
  dsimp only at hrun
  split_ifs at hrun
  · cases hrun
    exact h
  · obtain ⟨keys, -, hfold⟩ := Option.bind_eq_some_iff.mp hrun
    refine foldlM_invariant (I := fun run : ResolveRun => Writing.Invariant run.db) ?_ h hfold
    intro run₁ pair run₂ hpair hinv hstep
    rw [(s.visit_perm _).mem_iff] at hpair
    exact hinv.visited (mem_candidatePairs.mp hpair).1.ne (visited_of_visitPair hstep)

/-- **Approvals.** An approval keeps the evidence with canonical persons exactly if the duplicate
was merged already or has no evidence, or the canonical person is another and still canonical. -/
lemma evidenceCanonical_approve_iff (h : EvidenceCanonical db) {matchId : Uuid} {now : Time}
    (hstep : approveMatch matchId now db = some db') :
    EvidenceCanonical db' ↔ Writing.Keeps env db (.approve matchId now) := by
  obtain ⟨ids, canonical, duplicate, rows, hids, hc, hd, heffect⟩ := approveMatch_eq_some hstep
  have hguard : Writing.Keeps env db (.approve matchId now) ↔ (duplicate.canonical = true →
      (canonical.canonical = true ∧ ids.1 ≠ ids.2) ∨ ¬ db.HasEvidence ids.2) := by
    simp only [Writing.Keeps, hids, Option.mem_some_iff, forall_eq', isCanonical_iff hc,
      isCanonical_iff hd]
  rw [hguard]
  rcases heffect with ⟨hdone, rfl⟩ | ⟨hlink, rfl⟩
  · exact iff_of_true h fun hcanonical => absurd (hdone.symm.trans hcanonical) Bool.false_ne_true
  · rw [forall_prop_of_true hlink]
    exact evidenceCanonical_mergedDb_iff h hc hd

/-- **Submissions.** A submission keeps the evidence with canonical persons exactly if it is a
replay or the person found by the stable id, if any, is canonical. -/
lemma evidenceCanonical_submit_iff (h : Writing.Invariant db) {form : PitchForm}
    (hstep : submitPitch env.matching.ucd env.matching.bracketed form db = some db') :
    EvidenceCanonical db' ↔ Writing.Keeps env db (.submitPitch form) := by
  rcases submitPitch_cases hstep with ⟨hreplay, rfl⟩ | ⟨hnew, contentHash, evidence, hcases⟩
  · exact iff_of_true h.1 (Or.inl hreplay)
  have hguard : Writing.Keeps env db (.submitPitch form) ↔
      ∀ person ∈ founders env.matching.ucd form db, person.canonical = true :=
    or_iff_right hnew
  rw [hguard]
  rcases hcases with ⟨hnone, hfree, rfl⟩ | ⟨person, hone, rfl⟩
  · -- a new person is canonical, and the others are found as before
    rw [hnone]
    refine iff_of_true ?_ (fun person hperson => absurd hperson List.not_mem_nil)
    have hold : ∀ p person, db.person? p = some person → (form.enter (form.newPerson
        env.matching.ucd) contentHash evidence { db with
          persons := db.persons ++ [form.newPerson env.matching.ucd] }).person? p =
        some person := by
      intro p person hperson
      show (db.persons ++ [form.newPerson env.matching.ucd]).find? (fun q => q.id = p) = some person
      rw [List.find?_append, show db.persons.find? (fun q => q.id = p) = some person from hperson]
      rfl
    have hself : (form.enter (form.newPerson env.matching.ucd) contentHash evidence { db with
        persons := db.persons ++ [form.newPerson env.matching.ucd] }).person? form.personId =
        some (form.newPerson env.matching.ucd) := by
      have hmissing : db.persons.find? (fun q => q.id = form.personId) = none := by
        rw [List.find?_eq_none]
        intro q hq
        simpa using hfree q hq
      show (db.persons ++ [form.newPerson env.matching.ucd]).find?
        (fun q => q.id = form.personId) = some _
      rw [List.find?_append, hmissing]
      simp [PitchForm.newPerson]
    refine (evidenceCanonical_append_iff h.1 [] [] _ ?_ ?_ ?_ ?_ rfl).mpr
      ⟨nofun, nofun, fun f hf => ?_⟩
    · intro p hp
      cases hperson : db.person? p with
      | none => simp [Db.IsCanonical, hperson] at hp
      | some person =>
        rw [isCanonical_iff hperson] at hp
        exact (isCanonical_iff (hold p person hperson)).mpr hp
    · simp [PitchForm.enter]
    · rfl
    · simp [PitchForm.enter]
    · rw [List.mem_singleton.mp hf]
      exact (isCanonical_iff hself).mpr rfl
  · rw [hone]
    have hmem : person ∈ db.persons := by
      have hmem : person ∈ founders env.matching.ucd form db := by simp [hone]
      exact List.mem_of_mem_filter hmem
    have hstanding : (form.enter person contentHash evidence db).IsCanonical person.id ↔
        person.canonical = true := isCanonical_iff (person?_of_mem h.2 hmem)
    refine (evidenceCanonical_append_iff h.1 [] [] _ ?_ ?_ ?_ ?_ rfl).trans ?_
    · exact fun _ hp => hp
    · simp [PitchForm.enter]
    · rfl
    · simp [PitchForm.enter]
    · simp [hstanding]

/-- **Recomputations.** A recomputation keeps the evidence with canonical persons exactly if it
selects canonical persons only. -/
lemma evidenceCanonical_recompute_iff (h : Writing.Invariant db)
    {byUpdate : List Person → List Person} (hperm : ∀ persons, (byUpdate persons).Perm persons)
    {draw : ℕ → Uuid} {now : Time} (hstep : recomputeSignals byUpdate draw now db = some db') :
    EvidenceCanonical db' ↔ ∀ person ∈ (byUpdate db.persons).take 500, person.canonical = true := by
  obtain rfl := recomputeSignals_eq_some hstep
  have hstanding : ∀ person ∈ (byUpdate db.persons).take 500,
      (db.IsCanonical person.id ↔ person.canonical = true) := by
    intro person hperson
    exact isCanonical_iff (person?_of_mem h.2 ((hperm _).mem_iff.mp (List.mem_of_mem_take hperson)))
  refine (evidenceCanonical_append_iff h.1 []
    (((byUpdate db.persons).take 500).mapIdx fun i p => signalSnapshot (draw i) p.id now) []
    ?_ ?_ ?_ ?_ ?_).trans ?_
  · exact fun _ hp => hp
  · simp
  · rfl
  · rfl
  · simp
  constructor
  · rintro ⟨-, hscores, -⟩ person hperson
    obtain ⟨i, hi, rfl⟩ := List.mem_iff_getElem.mp hperson
    refine (hstanding _ hperson).mp ?_
    exact hscores _ (List.mem_mapIdx.mpr ⟨i, hi, rfl⟩) rfl
  · intro hall
    refine ⟨nofun, fun score hscore _ => ?_, nofun⟩
    obtain ⟨i, hi, rfl⟩ := List.mem_mapIdx.mp hscore
    have hperson := List.getElem_mem hi
    exact (hstanding _ hperson).mpr (hall _ hperson)

/-- Renaming a person changes nobody's standing. -/
lemma isCanonical_renamePerson {id : Uuid} {name : Option Str} {p : Uuid} :
    { db with persons := renamePerson id name db.persons }.IsCanonical p ↔ db.IsCanonical p := by
  cases name with
  | none => exact Iff.rfl
  | some name =>
    have hid : ∀ q : Person, (if q.id = id then { q with displayName := some name } else q).id =
        q.id := by
      intro q
      split_ifs <;> rfl
    have hcanonical : ∀ q : Person,
        (if q.id = id then { q with displayName := some name } else q).canonical =
          q.canonical := by
      intro q
      split_ifs <;> rfl
    simp only [Db.IsCanonical, Db.person?, renamePerson, List.find?_map, Function.comp_def, hid,
      Option.any_map, hcanonical]

/-- **Collections.** A collection keeps the evidence with canonical persons exactly if it changes
nothing or its person is canonical. -/
lemma evidenceCanonical_collect_iff (h : EvidenceCanonical db) {task : CollectTask}
    (hstep : collectJob env.matching.ucd env.md5 task db = some db') :
    EvidenceCanonical db' ↔ Writing.Keeps env db (.collect task) := by
  rcases collectJob_cases hstep with ⟨hnothing, rfl⟩ |
    ⟨hended, person, hperson, hcollected, snapshots, added, name, hsubject, rfl⟩
  · refine iff_of_true h ?_
    rcases hnothing with hended | hmissing | ⟨person, hperson, hfailed⟩
    · exact Or.inl hended
    · refine Or.inr fun person hperson => ?_
      rw [hmissing] at hperson
      cases hperson
    · refine Or.inr fun person' hperson' => Or.inr ?_
      rw [hperson] at hperson'
      cases hperson'
      exact hfailed
  · have hguard : Writing.Keeps env db (.collect task) ↔ person.canonical = true := by
      have hsome := Option.isSome_iff_ne_none.mp hcollected
      simp only [Writing.Keeps, hended, Bool.false_eq_true, false_or, hperson,
        Option.mem_some_iff, forall_eq', or_iff_left hsome]
    have hid : person.id = task.personId := by simpa using List.find?_some hperson
    have hstanding : { db with persons := renamePerson person.id name db.persons }.IsCanonical
        person.id ↔ person.canonical = true := by
      rw [isCanonical_renamePerson, hid, isCanonical_iff hperson]
    rw [hguard]
    refine (evidenceCanonical_append_iff h added
      [signalSnapshot task.signalId person.id task.now] [] ?_ ?_ ?_ ?_ ?_).trans ?_
    · exact fun p hp => isCanonical_renamePerson.mpr hp
    · rfl
    · rfl
    · rfl
    · simp
    constructor
    · rintro ⟨-, hscore, -⟩
      exact hstanding.mp (hscore _ (List.mem_singleton_self _) rfl)
    · intro hcanonical
      refine ⟨fun o ho p hp => ?_, fun score hscore _ => ?_, nofun⟩
      · rw [hsubject o ho] at hp
        cases hp
        exact hstanding.mpr hcanonical
      · rw [List.mem_singleton.mp hscore]
        exact hstanding.mpr hcanonical

/-- No transaction gives two persons one id. -/
lemma Writing.Invariant.keyUnique (h : Writing.Invariant db) {e : Writing.Event}
    (hstep : Writing.step env db e = some db') : KeyUnique Person.id db'.persons := by
  cases e with
  | resolve s =>
    obtain ⟨run, hrun, rfl⟩ := Option.map_eq_some_iff.mp hstep
    exact (h.resolve hrun).2
  | approve matchId now =>
    obtain ⟨ids, canonical, duplicate, rows, -, -, -, ⟨-, rfl⟩ | ⟨-, rfl⟩⟩ :=
      approveMatch_eq_some hstep
    · exact h.2
    · exact keyUnique_mergedDb h.2
  | reject matchId now =>
    obtain ⟨m, -, rfl⟩ := Option.map_eq_some_iff.mp hstep
    exact h.2
  | submitPitch form =>
    rcases submitPitch_cases hstep with ⟨-, rfl⟩ |
      ⟨-, contentHash, evidence, ⟨-, hfree, rfl⟩ | ⟨person, -, rfl⟩⟩
    · exact h.2
    · show ((db.persons ++ [form.newPerson env.matching.ucd]).map Person.id).Nodup
      rw [List.map_append, List.nodup_append]
      refine ⟨h.2, List.nodup_singleton _, ?_⟩
      intro id hid id' hid'
      obtain ⟨p, hp, rfl⟩ := List.mem_map.mp hid
      rw [List.map_singleton, List.mem_singleton] at hid'
      rw [hid']
      exact hfree p hp
    · exact h.2
  | recomputeSignals byUpdate hperm draw now =>
    obtain rfl := recomputeSignals_eq_some hstep
    exact h.2
  | collect task =>
    show (db'.persons.map Person.id).Nodup
    rw [map_id_collectJob hstep]
    exact h.2

/-- **One transaction.** A transaction that does not fail leaves the evidence with canonical persons
exactly if it meets its condition. -/
lemma evidenceCanonical_step_iff (h : Writing.Invariant db) {e : Writing.Event}
    (hstep : Writing.step env db e = some db') :
    EvidenceCanonical db' ↔ Writing.Keeps env db e := by
  cases e with
  | resolve s =>
    obtain ⟨run, hrun, rfl⟩ := Option.map_eq_some_iff.mp hstep
    exact iff_of_true (h.resolve hrun).1 trivial
  | approve matchId now => exact evidenceCanonical_approve_iff h.1 hstep
  | reject matchId now =>
    obtain ⟨m, -, rfl⟩ := Option.map_eq_some_iff.mp hstep
    exact iff_of_true h.1 trivial
  | submitPitch form => exact evidenceCanonical_submit_iff h hstep
  | recomputeSignals byUpdate hperm draw now => exact evidenceCanonical_recompute_iff h hperm hstep
  | collect task => exact evidenceCanonical_collect_iff h.1 hstep

/-- **Evidence over histories.** In a history of identity resolutions, approvals, rejections,
submissions, recomputations and collections, every state reached has all evidence with canonical
persons exactly if every transaction meets its condition.

**Proof sketch.** By `History.meets_iff_guarded` from one transaction: a merge between canonical
persons moves all evidence, and the other writers write rows of one person, whose standing
decides. -/
theorem evidenceCanonical_history_iff (h : Writing.Invariant db) (events : List Writing.Event) :
    History.Meets (Writing.step env) (fun _ => EvidenceCanonical) db events ↔
      History.Guarded (Writing.step env) (Writing.Keeps env) db events := by
  refine History.meets_iff_guarded (I := Writing.Invariant) (Writing.step env) ?_ ?_ h events
  · intro db e db' hinv hstep
    exact evidenceCanonical_step_iff hinv hstep
  · intro db e db' hinv hstep hcanonical
    exact ⟨hcanonical, hinv.keyUnique hstep⟩

end Writers

/-- The sample matchers, and bytes read as characters for a digest. -/
def sampleWriterEnv : WriterEnv where
  matching := sampleMatchEnv
  md5 bytes := bytes.map fun b => Char.ofNat b.toNat

/-- Two persons with one email. -/
def twinDb : Db where
  persons := [samplePerson 1, samplePerson 2]
  observations := [sampleObservation 11 1 "email" "ada@example.com",
    sampleObservation 12 2 "email" "ada@example.com"]

/-- A submission of a founder whose email is not known. -/
def gracePitch : PitchForm where
  founderName := "Grace"
  founderEmail := "grace@example.com"
  companyName := "Compilers"
  idempotencyKey := "first"
  upload := some "hash"
  now := 5
  snapshotId := 21
  personId := 3
  opportunityId := 22
  submissionId := 23

/-- Collecting a page on a person. -/
def sampleTask (person : Uuid) : CollectTask where
  personId := person
  source := "web"
  handle := "ada"
  collected _ := some
    { sourceType := "web", uri := "https://ada.dev", contentHash := "h"
      licenseHint := some (.obj [("model_use", .str "allowed")])
      observations :=
        [{ predicate := "page_content", objectValue := "text", observedAt := some 1 }] }
  now := 6
  snapshotId := 31
  signalId := 32
  draw i := 40 + Fin.ofNat _ i

/-- A merge, a submission and a collection on the person merged into keep the evidence canonical. -/
theorem evidenceCanonical_mergeThenCollect :
    History.Meets (Writing.step sampleWriterEnv) (fun _ => EvidenceCanonical) twinDb
      [.resolve inOrder, .submitPitch gracePitch, .collect (sampleTask 1)] :=
  (evidenceCanonical_history_iff ⟨by decide +kernel, by unfold KeyUnique; decide⟩ _).mpr
    (by decide +kernel)

/-- After a merge a recomputation scores the person who was merged. -/
theorem not_evidenceCanonical_mergeThenRecompute :
    ¬ History.Meets (Writing.step sampleWriterEnv) (fun _ => EvidenceCanonical) twinDb
      [.resolve inOrder,
        .recomputeSignals (fun persons => persons) (fun _ => List.Perm.refl _)
          (fun i => 50 + Fin.ofNat _ i) 7] := by
  decide +kernel

end VCBrain
