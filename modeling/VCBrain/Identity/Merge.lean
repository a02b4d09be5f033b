import VCBrain.Db.Models

set_option relaxedAutoImplicit false
set_option autoImplicit false

/-!
# Merging two persons

`merge_persons` folds a duplicate into a canonical person: it merges the handles, the name and
the email, reassigns rows of some of the tables that refer to persons, and marks the duplicate
as superseded.

## Main definitions

* `mergePersons` — the operation; `mergedDb` — what it makes of the database.
* `Db.RefersTo` — some row that belongs to a person refers to the given one.
* `MovesEverything` — all rows of the duplicate belong to the canonical person afterwards.

## Main results

* `movesEverything_iff` — the databases on which a merge moves everything.

## Design

A merge fails on a missing person, and on the primary key of `opportunity_founders` when an
opportunity has both persons as founders. The update of that table is one statement, so the
failure undoes the whole transaction.
-/

namespace VCBrain

/-! ## Merging the fields of a person -/

/-- The union of both dictionaries; the canonical person's handles win. -/
def mergeHandles (canonical duplicate : Option (Dict Str)) : Dict Str :=
  (duplicate.getD Dict.empty).items.foldl (fun merged item => merged.setDefault item.1 item.2)
    (canonical.getD Dict.empty)

/-- The canonical person's name, unless it is empty or shorter than the duplicate's. -/
def mergeDisplayName (canonical duplicate : Option Str) : Option Str :=
  if !filled canonical && filled duplicate then duplicate
  else if filled canonical && filled duplicate &&
      decide ((canonical.getD []).length < (duplicate.getD []).length) then duplicate
  else canonical

/-- The canonical person's email, unless it is empty. -/
def mergeEmail (canonical duplicate : Option Str) : Option Str :=
  if !filled canonical && filled duplicate then duplicate else canonical

/-! ## The operation -/

/-- Why a merge fails: `ValueError`, or `IntegrityError` on `opportunity_founders`. -/
inductive MergeError where
  | personNotFound
  | opportunityFounderTaken
deriving DecidableEq

section Merge

variable (canonicalId duplicateId : Uuid)

/-- `UPDATE … SET person = canonical WHERE person = duplicate` on one reference. -/
def reassign (id : Uuid) : Uuid := if id = duplicateId then canonicalId else id

/-- The same on a nullable reference. -/
def reassign? (id : Option Uuid) : Option Uuid :=
  if id = some duplicateId then some canonicalId else id

/-- The row of the canonical person receives the merged fields. -/
def mergeFields (canonical duplicate : Person) (p : Person) : Person :=
  if p.id = canonicalId then
    { p with
      handles := some (mergeHandles canonical.handles duplicate.handles)
      displayName := mergeDisplayName canonical.displayName duplicate.displayName
      email := mergeEmail canonical.email duplicate.email }
  else p

/-- The row of the duplicate is marked as superseded. -/
def markSuperseded (now : Time) (p : Person) : Person :=
  if p.id = duplicateId then
    { p with canonical := false, supersededById := some canonicalId, mergedAt := some now }
  else p

/-- Both endpoints of a relationship are reassigned. -/
def reassignRelationship (r : Relationship) : Relationship :=
  { r with
    personAId := reassign canonicalId duplicateId r.personAId
    personBId := reassign canonicalId duplicateId r.personBId }

/-- Some opportunity has both persons as founders, so reassigning one hits the key of the other. -/
def FounderTaken (founders : List OpportunityFounder) : Prop :=
  canonicalId ≠ duplicateId ∧ ∃ f ∈ founders, f.personId = duplicateId ∧
    ∃ g ∈ founders, g.personId = canonicalId ∧ g.opportunityId = f.opportunityId

instance (founders : List OpportunityFounder) :
    Decidable (FounderTaken canonicalId duplicateId founders) :=
  inferInstanceAs (Decidable (_ ∧ _))

/-- The database after a merge of the loaded persons. -/
def mergedDb (canonical duplicate : Person) (now : Time) (db : Db) : Db :=
  { db with
    persons := db.persons.map fun p =>
      markSuperseded canonicalId duplicateId now (mergeFields canonicalId canonical duplicate p)
    observations := db.observations.map fun obs =>
      { obs with subjectId := reassign? canonicalId duplicateId obs.subjectId }
    relationships := (db.relationships.map (reassignRelationship canonicalId duplicateId)).filter
      fun r => ¬ (r.personAId = canonicalId ∧ r.personBId = canonicalId)
    scoreSnapshots := db.scoreSnapshots.map fun s =>
      { s with subjectId := reassign canonicalId duplicateId s.subjectId }
    opportunityFounders := db.opportunityFounders.map fun f =>
      { f with personId := reassign canonicalId duplicateId f.personId } }

/-- `merge_persons`. A duplicate that is superseded already is left alone. -/
def mergePersons (now : Time) (db : Db) : Except MergeError Db :=
  match db.person? canonicalId, db.person? duplicateId with
  | some canonical, some duplicate =>
    if !duplicate.canonical then .ok db
    else if FounderTaken canonicalId duplicateId db.opportunityFounders then
      .error .opportunityFounderTaken
    else .ok (mergedDb canonicalId duplicateId canonical duplicate now db)
  | _, _ => .error .personNotFound

end Merge

/-! ## Rows that belong to a person -/

/-- A row of a table that a merge updates refers to the person. -/
def Db.RefersToInMovedTable (db : Db) (p : Uuid) : Prop :=
  (∃ obs ∈ db.observations, obs.subjectId = some p) ∨
  (∃ r ∈ db.relationships, r.personAId = p ∨ r.personBId = p) ∨
  (∃ s ∈ db.scoreSnapshots, s.subjectType = "person" ∧ s.subjectId = p) ∨
  (∃ f ∈ db.opportunityFounders, f.personId = p)

/-- A row of a table that a merge leaves alone refers to the person. -/
def Db.RefersToInKeptTable (db : Db) (p : Uuid) : Prop :=
  (∃ c ∈ db.claims, c.subjectId = some p) ∨
  (∃ m ∈ db.outreachMessages, m.personId = p) ∨
  (∃ s ∈ db.inboundSubmissions, s.personId = p) ∨
  (∃ f ∈ db.candidateFeedback, f.personId = p) ∨
  (∃ m ∈ db.personMatches, m.status = .pending ∧ (m.personAId = p ∨ m.personBId = p))

/-- Some row that belongs to a person refers to the given one. -/
def Db.RefersTo (db : Db) (p : Uuid) : Prop :=
  db.RefersToInMovedTable p ∨ db.RefersToInKeptTable p

instance (db : Db) (p : Uuid) : Decidable (db.RefersToInMovedTable p) :=
  inferInstanceAs (Decidable (_ ∨ _ ∨ _ ∨ _))

instance (db : Db) (p : Uuid) : Decidable (db.RefersToInKeptTable p) :=
  inferInstanceAs (Decidable (_ ∨ _ ∨ _ ∨ _ ∨ _))

instance (db : Db) (p : Uuid) : Decidable (db.RefersTo p) :=
  inferInstanceAs (Decidable (_ ∨ _))

/-- Nothing refers to the duplicate any more, and every row that did refers to the canonical
person, apart from relationships that would relate that person to itself. -/
structure MovesEverything (canonicalId duplicateId : Uuid) (db db' : Db) : Prop where
  none_left : ¬ db'.RefersTo duplicateId
  observations : ∀ row ∈ db.observations, row.subjectId = some duplicateId →
    ∃ row' ∈ db'.observations, row'.id = row.id ∧ row'.subjectId = some canonicalId
  relationships : ∀ row ∈ db.relationships,
    row.personAId = duplicateId ∨ row.personBId = duplicateId →
    (reassign canonicalId duplicateId row.personAId = canonicalId ∧
      reassign canonicalId duplicateId row.personBId = canonicalId) ∨
    ∃ row' ∈ db'.relationships, row'.id = row.id ∧
      row'.personAId = reassign canonicalId duplicateId row.personAId ∧
      row'.personBId = reassign canonicalId duplicateId row.personBId
  scoreSnapshots : ∀ row ∈ db.scoreSnapshots, row.subjectId = duplicateId →
    ∃ row' ∈ db'.scoreSnapshots, row'.id = row.id ∧ row'.subjectId = canonicalId
  opportunityFounders : ∀ row ∈ db.opportunityFounders, row.personId = duplicateId →
    ∃ row' ∈ db'.opportunityFounders,
      row'.opportunityId = row.opportunityId ∧ row'.personId = canonicalId
  claims : ∀ row ∈ db.claims, row.subjectId = some duplicateId →
    ∃ row' ∈ db'.claims, row'.id = row.id ∧ row'.subjectId = some canonicalId
  outreachMessages : ∀ row ∈ db.outreachMessages, row.personId = duplicateId →
    ∃ row' ∈ db'.outreachMessages, row'.id = row.id ∧ row'.personId = canonicalId
  inboundSubmissions : ∀ row ∈ db.inboundSubmissions, row.personId = duplicateId →
    ∃ row' ∈ db'.inboundSubmissions, row'.id = row.id ∧ row'.personId = canonicalId
  candidateFeedback : ∀ row ∈ db.candidateFeedback, row.personId = duplicateId →
    ∃ row' ∈ db'.candidateFeedback, row'.id = row.id ∧ row'.personId = canonicalId
  personMatches : ∀ row ∈ db.personMatches, row.status = .pending →
    row.personAId = duplicateId ∨ row.personBId = duplicateId →
    ∃ row' ∈ db'.personMatches, row'.id = row.id ∧
      (row'.personAId = canonicalId ∨ row'.personBId = canonicalId)

/-! ## What a merge does -/

section Lemmas

variable {canonicalId duplicateId : Uuid} {canonical duplicate : Person} {now : Time} {db db' : Db}

@[simp] lemma reassign_self : reassign canonicalId duplicateId duplicateId = canonicalId :=
  if_pos rfl

@[simp] lemma reassign?_self :
    reassign? canonicalId duplicateId (some duplicateId) = some canonicalId := if_pos rfl

/-- A merge keeps the ids of persons, so lookups commute with it. -/
lemma person?_mergedDb (id : Uuid) :
    (mergedDb canonicalId duplicateId canonical duplicate now db).person? id =
      (db.person? id).map fun p =>
        markSuperseded canonicalId duplicateId now
          (mergeFields canonicalId canonical duplicate p) := by
  have hid : ∀ p : Person, (markSuperseded canonicalId duplicateId now
      (mergeFields canonicalId canonical duplicate p)).id = p.id := by
    intro p
    unfold markSuperseded mergeFields
    split_ifs <;> rfl
  simp only [Db.person?, mergedDb, List.find?_map, Function.comp_def, hid]

/-- No reference to the duplicate survives its reassignment. -/
lemma reassign_ne (hne : canonicalId ≠ duplicateId) (id : Uuid) :
    reassign canonicalId duplicateId id ≠ duplicateId := by
  unfold reassign
  by_cases h : id = duplicateId
  · rw [if_pos h]; exact hne
  · rw [if_neg h]; exact h

lemma reassign?_ne (hne : canonicalId ≠ duplicateId) (id : Option Uuid) :
    reassign? canonicalId duplicateId id ≠ some duplicateId := by
  unfold reassign?
  by_cases h : id = some duplicateId
  · rw [if_pos h]; simpa using hne
  · rw [if_neg h]; exact h

/-- A merge of a canonical duplicate succeeds unless an opportunity has both as founders. -/
lemma mergePersons_eq (hc : db.person? canonicalId = some canonical)
    (hd : db.person? duplicateId = some duplicate) (hcanonical : duplicate.canonical = true) :
    mergePersons canonicalId duplicateId now db =
      if FounderTaken canonicalId duplicateId db.opportunityFounders then
        .error .opportunityFounderTaken
      else .ok (mergedDb canonicalId duplicateId canonical duplicate now db) := by
  unfold mergePersons
  rw [hc, hd]
  simp [hcanonical]

/-- The tables a merge updates do not refer to the duplicate afterwards. -/
lemma not_refersToInMovedTable_mergedDb (hne : canonicalId ≠ duplicateId) :
    ¬ (mergedDb canonicalId duplicateId canonical duplicate now db).RefersToInMovedTable
      duplicateId := by
  rintro (⟨row, hrow, h⟩ | ⟨row, hrow, h⟩ | ⟨row, hrow, -, h⟩ | ⟨row, hrow, h⟩)
  · obtain ⟨obs, -, rfl⟩ := List.mem_map.mp hrow
    exact reassign?_ne hne _ h
  · obtain ⟨r, -, rfl⟩ := List.mem_map.mp (List.mem_of_mem_filter hrow)
    cases h with
    | inl h => exact reassign_ne hne _ h
    | inr h => exact reassign_ne hne _ h
  · obtain ⟨s, -, rfl⟩ := List.mem_map.mp hrow
    exact reassign_ne hne _ h
  · obtain ⟨f, -, rfl⟩ := List.mem_map.mp hrow
    exact reassign_ne hne _ h

/-- A merge that leaves no row of the duplicate behind in the other tables moves everything. -/
lemma movesEverything_mergedDb (hne : canonicalId ≠ duplicateId)
    (hkept : ¬ db.RefersToInKeptTable duplicateId) :
    MovesEverything canonicalId duplicateId db
      (mergedDb canonicalId duplicateId canonical duplicate now db) where
  none_left h := h.elim (not_refersToInMovedTable_mergedDb hne) hkept
  observations row hrow hd :=
    ⟨_, List.mem_map_of_mem hrow, rfl, by simp [hd]⟩
  relationships row hrow _ := by
    by_cases hself : reassign canonicalId duplicateId row.personAId = canonicalId ∧
        reassign canonicalId duplicateId row.personBId = canonicalId
    · exact Or.inl hself
    · refine Or.inr ⟨_, List.mem_filter.mpr ⟨List.mem_map_of_mem hrow, ?_⟩, rfl, rfl, rfl⟩
      rw [decide_eq_true_eq]
      exact hself
  scoreSnapshots row hrow hd := ⟨_, List.mem_map_of_mem hrow, rfl, by simp [hd]⟩
  opportunityFounders row hrow hd := ⟨_, List.mem_map_of_mem hrow, rfl, by simp [hd]⟩
  claims row hrow hd := absurd (Or.inl ⟨row, hrow, hd⟩) hkept
  outreachMessages row hrow hd := absurd (Or.inr (Or.inl ⟨row, hrow, hd⟩)) hkept
  inboundSubmissions row hrow hd := absurd (Or.inr (Or.inr (Or.inl ⟨row, hrow, hd⟩))) hkept
  candidateFeedback row hrow hd :=
    absurd (Or.inr (Or.inr (Or.inr (Or.inl ⟨row, hrow, hd⟩)))) hkept
  personMatches row hrow hs hd :=
    absurd (Or.inr (Or.inr (Or.inr (Or.inr ⟨row, hrow, hs, hd⟩)))) hkept

/-- **When a merge moves everything.** Merging a canonical duplicate into another person succeeds
and moves everything exactly if no opportunity has both as founders and no claim, outreach
message, inbound submission, candidate feedback or pending match refers to the duplicate. -/
theorem movesEverything_iff (hc : db.person? canonicalId = some canonical)
    (hd : db.person? duplicateId = some duplicate) (hcanonical : duplicate.canonical = true)
    (hne : canonicalId ≠ duplicateId) :
    (∃ db', mergePersons canonicalId duplicateId now db = .ok db' ∧
      MovesEverything canonicalId duplicateId db db') ↔
    ¬ FounderTaken canonicalId duplicateId db.opportunityFounders ∧
      ¬ db.RefersToInKeptTable duplicateId := by
  rw [mergePersons_eq hc hd hcanonical]
  by_cases htaken : FounderTaken canonicalId duplicateId db.opportunityFounders
  · simp [htaken]
  · rw [if_neg htaken]
    constructor
    · intro h
      obtain ⟨db', heq, hmoves⟩ := h
      cases heq
      exact ⟨htaken, fun hkept => hmoves.none_left (Or.inr hkept)⟩
    · intro h
      exact ⟨_, rfl, movesEverything_mergedDb hne h.2⟩

end Lemmas

/-- Person `id`, canonical and without data. -/
def samplePerson (id : Uuid) : Person where
  id := id
  stableId := id.str
  createdAt := 0

/-- Three persons, of whom the second has one relationship. -/
def relationshipDb : Db where
  persons := [samplePerson 1, samplePerson 2, samplePerson 3]
  relationships := [⟨11, 2, 3⟩]

/-- A duplicate that has relationships only is moved as a whole. -/
theorem movesEverything_relationshipDb :
    ∃ db', mergePersons 1 2 0 relationshipDb = .ok db' ∧
      MovesEverything 1 2 relationshipDb db' :=
  (movesEverything_iff (by decide : relationshipDb.person? 1 = some (samplePerson 1))
    (by decide : relationshipDb.person? 2 = some (samplePerson 2)) (by decide)
    (by decide)).mpr (by decide)

/-- Two persons, of whom the second has received a message. -/
def outreachDb : Db where
  persons := [samplePerson 1, samplePerson 2]
  outreachMessages := [⟨11, 2⟩]

/-- The message stays with the duplicate. -/
theorem not_movesEverything_outreachDb :
    ¬ ∃ db', mergePersons 1 2 0 outreachDb = .ok db' ∧ MovesEverything 1 2 outreachDb db' := by
  intro h
  obtain ⟨db', heq, hmoves⟩ := h
  cases heq
  exact hmoves.none_left (by decide)

end VCBrain
