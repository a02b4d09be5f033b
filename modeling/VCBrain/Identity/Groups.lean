import VCBrain.Foundation.Pointers
import VCBrain.Identity.Merge
import VCBrain.Privacy

set_option relaxedAutoImplicit false
set_option autoImplicit false

/-!
# Groups of merged persons

Every merge points the duplicate at the person it was merged into, so that sequences of merges
collect the persons into groups. This file says what one merge does to the pointers and to the
persons.

## Main definitions

* `Db.supersededBy` — the pointers from duplicates to the persons they were merged into.
* `CanonicalRoots` — the canonical persons are those without a pointer.
* `mergeStep` — a merge as a transaction.

## Main results

* `mergePersons_eq_ok` — what a merge that does not fail has done.
* `supersededBy_mergedDb` — a merge adds one pointer.
* `CanonicalRoots.merge` — a merge keeps the canonical persons the roots.
-/

namespace VCBrain

/-! ## Pointers -/

/-- The person a person was merged into. -/
def Db.supersededBy (db : Db) (id : Uuid) : Option Uuid :=
  (db.person? id).bind Person.supersededById

/-- The canonical persons are those that were not merged into another. -/
def CanonicalRoots (db : Db) : Prop :=
  ∀ id person, db.person? id = some person →
    (person.canonical = true ↔ person.supersededById = none)

/-- Persons of whom none was merged yet. -/
def Unmerged (db : Db) : Prop :=
  ∀ p ∈ db.persons, p.canonical = true ∧ p.supersededById = none

instance : DecidablePred Unmerged := fun db => inferInstanceAs (Decidable (∀ p ∈ db.persons, _))

/-- Persons none of whom was merged have no pointers. -/
lemma Unmerged.supersededBy_eq_none {db : Db} (h : Unmerged db) (id : Uuid) :
    db.supersededBy id = none := by
  unfold Db.supersededBy
  cases hperson : db.person? id with
  | none => rfl
  | some person => exact (h person (List.mem_of_find?_eq_some hperson)).2

lemma Unmerged.canonicalRoots {db : Db} (h : Unmerged db) : CanonicalRoots db := by
  intro id person hperson
  simp [h person (List.mem_of_find?_eq_some hperson)]

/-! ## Merges -/

/-- A merge of two persons at some instant. -/
structure MergeEvent where
  canonicalId : Uuid
  duplicateId : Uuid
  now : Time

/-- The database after a merge, unless the merge fails. -/
def mergeStep (db : Db) (e : MergeEvent) : Option Db :=
  (mergePersons e.canonicalId e.duplicateId e.now db).toOption

/-- The email of the person after a merge of `duplicate` into `canonicalId`. -/
def emailAfter (canonicalId id : Uuid) (person duplicate : Person) : Option Str :=
  if id = canonicalId then mergeEmail person.email duplicate.email else person.email

section Step

variable {canonicalId duplicateId id : Uuid} {canonical duplicate person : Person} {now : Time}
  {db db' : Db} {e : MergeEvent}

/-- What a merge makes of a person other than the duplicate. -/
lemma exists_person_mergedDb (duplicate : Person) (now : Time)
    (hc : db.person? canonicalId = some canonical) (hid : id ≠ duplicateId)
    (hperson : db.person? id = some person) :
    ∃ person', (mergedDb canonicalId duplicateId canonical duplicate now db).person? id =
        some person' ∧ person'.canonical = person.canonical ∧
      person'.supersededById = person.supersededById ∧
      person'.consentState = person.consentState ∧
      person'.email = emailAfter canonicalId id person duplicate ∧
      ∀ purpose, externalAiUseDecision person' purpose = externalAiUseDecision person purpose := by
  have hpid : person.id = id := by simpa using List.find?_some hperson
  rw [person?_mergedDb, hperson]
  refine ⟨_, rfl, ?_⟩
  beta_reduce
  have hnot : person.id ≠ duplicateId := hpid ▸ hid
  by_cases heq : id = canonicalId
  · have hsame : canonical = person := by
      rw [heq, hc] at hperson
      exact Option.some.inj hperson
    have hfields : mergeFields canonicalId canonical duplicate person = { person with
        handles := some (mergeHandles canonical.handles duplicate.handles)
        displayName := mergeDisplayName canonical.displayName duplicate.displayName
        email := mergeEmail canonical.email duplicate.email } := if_pos (hpid.trans heq)
    rw [hfields, markSuperseded, if_neg hnot, emailAfter, if_pos heq, hsame]
    exact ⟨rfl, rfl, rfl, rfl, fun _ => rfl⟩
  · have hfields : mergeFields canonicalId canonical duplicate person = person :=
      if_neg (hpid ▸ heq)
    rw [hfields, markSuperseded, if_neg hnot, emailAfter, if_neg heq]
    exact ⟨rfl, rfl, rfl, rfl, fun _ => rfl⟩

/-- What a merge makes of the duplicate. -/
lemma exists_duplicate_mergedDb (canonicalId : Uuid) (canonical : Person) (now : Time)
    (hd : db.person? duplicateId = some duplicate) :
    ∃ person', (mergedDb canonicalId duplicateId canonical duplicate now db).person? duplicateId =
        some person' ∧ person'.canonical = false ∧ person'.supersededById = some canonicalId ∧
      person'.consentState = duplicate.consentState := by
  have hid : duplicate.id = duplicateId := by simpa using List.find?_some hd
  rw [person?_mergedDb, hd]
  refine ⟨_, rfl, ?_⟩
  have hkeep : (mergeFields canonicalId canonical duplicate duplicate).id = duplicateId ∧
      (mergeFields canonicalId canonical duplicate duplicate).consentState =
        duplicate.consentState := by
    unfold mergeFields
    split_ifs <;> exact ⟨hid, rfl⟩
  beta_reduce
  rw [markSuperseded, if_pos hkeep.1]
  exact ⟨rfl, rfl, hkeep.2⟩

/-- A merge keeps the ids of persons. -/
lemma keyUnique_mergedDb (hids : KeyUnique Person.id db.persons) :
    KeyUnique Person.id (mergedDb canonicalId duplicateId canonical duplicate now db).persons := by
  have hid : ∀ p : Person, (markSuperseded canonicalId duplicateId now
      (mergeFields canonicalId canonical duplicate p)).id = p.id := by
    intro p
    unfold markSuperseded mergeFields
    split_ifs <;> rfl
  have hmap : (mergedDb canonicalId duplicateId canonical duplicate now db).persons.map Person.id =
      db.persons.map Person.id := by
    simp [mergedDb, Function.comp_def, hid]
  rw [KeyUnique, hmap]
  exact hids

/-- A merge of a canonical duplicate links it to the person it is merged into. -/
lemma supersededBy_mergedDb (hc : db.person? canonicalId = some canonical)
    (hd : db.person? duplicateId = some duplicate) :
    (mergedDb canonicalId duplicateId canonical duplicate now db).supersededBy =
      Function.update db.supersededBy duplicateId (some canonicalId) := by
  funext id
  by_cases hid : id = duplicateId
  · subst hid
    obtain ⟨person', hperson', -, hsuperseded, -⟩ :=
      exists_duplicate_mergedDb canonicalId canonical now hd
    rw [Function.update_self, Db.supersededBy, hperson', Option.bind_some, hsuperseded]
  · rw [Function.update_of_ne hid, Db.supersededBy, Db.supersededBy]
    cases hperson : db.person? id with
    | none =>
      rw [person?_mergedDb, hperson]
      rfl
    | some person =>
      obtain ⟨person', hperson', -, hsuperseded, -⟩ :=
        exists_person_mergedDb duplicate now hc hid hperson
      rw [hperson', Option.bind_some, Option.bind_some, hsuperseded]

/-- A merge either finds the duplicate superseded and does nothing, or links it. -/
lemma mergePersons_eq_ok (h : mergePersons canonicalId duplicateId now db = .ok db') :
    ∃ canonical duplicate, db.person? canonicalId = some canonical ∧
      db.person? duplicateId = some duplicate ∧
      ((duplicate.canonical = false ∧ db' = db) ∨ (duplicate.canonical = true ∧
        db' = mergedDb canonicalId duplicateId canonical duplicate now db)) := by
  unfold mergePersons at h
  split at h
  · next canonical duplicate hc hd =>
    refine ⟨canonical, duplicate, hc, hd, ?_⟩
    split_ifs at h with hsuperseded
    · exact Or.inl ⟨by simpa using hsuperseded, (Except.ok.inj h).symm⟩
    · exact Or.inr ⟨by simpa using hsuperseded, (Except.ok.inj h).symm⟩
  · cases h

/-- A merge that does not fail finds the duplicate superseded and does nothing, or links it. -/
lemma mergeStep_eq_some (h : mergeStep db e = some db') :
    ∃ canonical duplicate, db.person? e.canonicalId = some canonical ∧
      db.person? e.duplicateId = some duplicate ∧
      ((duplicate.canonical = false ∧ db' = db) ∨ (duplicate.canonical = true ∧
        db' = mergedDb e.canonicalId e.duplicateId canonical duplicate e.now db)) := by
  unfold mergeStep at h
  cases hmerge : mergePersons e.canonicalId e.duplicateId e.now db with
  | error err =>
    rw [hmerge] at h
    cases h
  | ok result =>
    rw [hmerge] at h
    cases h
    exact mergePersons_eq_ok hmerge

/-- A merge keeps the canonical persons the roots. -/
lemma CanonicalRoots.merge (hroots : CanonicalRoots db) (h : mergeStep db e = some db') :
    CanonicalRoots db' := by
  obtain ⟨canonical, duplicate, hc, hd, ⟨-, rfl⟩ | ⟨-, rfl⟩⟩ := mergeStep_eq_some h
  · exact hroots
  · intro id person' hperson'
    by_cases hid : id = e.duplicateId
    · subst hid
      obtain ⟨person'', hperson'', hcanonical, hsuperseded, -⟩ :=
        exists_duplicate_mergedDb e.canonicalId canonical e.now hd
      rw [hperson''] at hperson'
      cases hperson'
      simp [hcanonical, hsuperseded]
    · cases hperson : db.person? id with
      | none => simp [person?_mergedDb, hperson] at hperson'
      | some person =>
        obtain ⟨person'', hperson'', hcanonical, hsuperseded, -⟩ :=
          exists_person_mergedDb duplicate e.now hc hid hperson
        rw [hperson''] at hperson'
        cases hperson'
        rw [hcanonical, hsuperseded]
        exact hroots id person hperson

end Step

end VCBrain
