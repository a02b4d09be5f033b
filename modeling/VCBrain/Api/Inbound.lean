import VCBrain.Db.Models
import VCBrain.Foundation.Url
import VCBrain.Sla

set_option relaxedAutoImplicit false
set_option autoImplicit false

/-!
# Pitch submissions

`submit_pitch`: a founder uploads a deck. The founder is looked up by the email, or created, and
receives a new opportunity and a submission. A repeated idempotency key returns the first
submission.

## Main definitions

* `founderEvidence` — the checked evidence fields.
* `PitchForm` — a request with what the environment adds to it.
* `submitPitch` — the request; `none` is an error response.

## Main results

* `submitPitch_cases` — a replay, a submission for a known person, or one for a new person.

## Design

The upload check and the storage are outside the model: an accepted upload is given by its hash.
The organization, the deadlines, the channel touch, the job and the outbox event of the
opportunity are left out, since no modelled function reads them.
-/

namespace VCBrain

/-- `_FOUNDER_EVIDENCE_LIMITS`. -/
def founderEvidenceLimits : List (Str × ℕ) :=
  [("work_sample_url", 2048), ("work_sample_description", 4000), ("learning_velocity", 4000),
    ("reference_context", 4000), ("interview_context", 4000)]

section Submit

variable (ucd : Ucd) (bracketed : Str → Bool)

/-- The check of one evidence field: blank fields are dropped, long ones and work samples that are
no web address are refused. -/
def evidenceField (item : Str × Str) : Option (Option (Str × Str)) :=
  let value := item.2.strip
  if value = [] then some none
  else if (founderEvidenceLimits.lookup item.1).any (· < value.length) then none
  else if item.1 = "work_sample_url" then
    (urlparse ucd bracketed value).bind fun parsed =>
      if parsed.scheme ∉ ["http".toList, "https".toList] ∨ parsed.netloc = [] then none
      else some (some (item.1, value))
  else some (some (item.1, value))

/-- `_founder_evidence`. -/
def founderEvidence (values : List (Str × Str)) : Option (List (Str × Str)) :=
  (values.mapM (evidenceField ucd bracketed)).map fun fields => fields.reduceOption

/-- The fields of a request, and the hash of the upload if it is accepted, the instant, and the ids
drawn. -/
structure PitchForm where
  founderName : Str
  founderEmail : Str
  companyName : Str
  workSampleUrl : Str := []
  workSampleDescription : Str := []
  learningVelocity : Str := []
  referenceContext : Str := []
  interviewContext : Str := []
  idempotencyKey : Str
  filename : Str := []
  upload : Option Str
  now : Time
  snapshotId : Uuid
  personId : Uuid
  opportunityId : Uuid
  submissionId : Uuid

namespace PitchForm

variable (form : PitchForm)

/-- The stable id of the founder. -/
def stableId : Str := "email:".toList ++ (ucd.lower form.founderEmail).strip

/-- The evidence fields of the request. -/
def evidence : List (Str × Str) :=
  [("work_sample_url", form.workSampleUrl), ("work_sample_description", form.workSampleDescription),
    ("learning_velocity", form.learningVelocity), ("reference_context", form.referenceContext),
    ("interview_context", form.interviewContext)]

/-- The person created for an unknown founder. -/
def newPerson : Person where
  id := form.personId
  stableId := form.stableId ucd
  displayName := some form.founderName
  email := some form.founderEmail
  handles := some (Dict.empty.setDefault "email" form.founderEmail)
  consentState := "pending"
  createdAt := form.now

/-- The snapshot of the deck. -/
def snapshot (contentHash : Str) : SourceSnapshot where
  id := form.snapshotId
  uri := "inbound://".toList ++ form.filename
  sourceType := "inbound_deck"
  contentHash := contentHash
  sourceUsePolicy := buildSourceUsePolicy "inbound_deck"
    (some (.obj [("source", .str "founder-provided"), ("model_use", .str "allowed")]))
  collectedAt := form.now

/-- `create_inbound_opportunity` and the submission, for a founder. -/
def enter (person : Person) (contentHash : Str) (evidence : List (Str × Str)) (db : Db) : Db :=
  { db with
    sourceSnapshots := db.sourceSnapshots ++ [form.snapshot contentHash]
    opportunities := db.opportunities ++
      [initializeSla form.now
        { id := form.opportunityId
          companyName := if form.companyName ≠ [] then form.companyName
            else if filled person.displayName then person.displayName.getD [] else person.stableId
          sourceKind := "inbound"
          lifecycleState := .received
          createdAt := form.now }]
    opportunityFounders := db.opportunityFounders ++
      [{ opportunityId := form.opportunityId, personId := person.id, role := "founder" }]
    inboundSubmissions := db.inboundSubmissions ++
      [{ id := form.submissionId
         idempotencyKey := form.idempotencyKey.strip
         personId := person.id
         opportunityId := form.opportunityId
         snapshotId := form.snapshotId
         status := "accepted"
         founderEvidence := evidence }] }

/-- The keys of the new rows are not taken. -/
def KeysFree (db : Db) : Prop :=
  (∀ s ∈ db.sourceSnapshots, s.id ≠ form.snapshotId) ∧
  (∀ o ∈ db.opportunities, o.id ≠ form.opportunityId) ∧
  ∀ s ∈ db.inboundSubmissions, s.id ≠ form.submissionId

instance (db : Db) : Decidable (form.KeysFree db) := inferInstanceAs (Decidable (_ ∧ _ ∧ _))

end PitchForm

/-- Insert a person: the id is the primary key. -/
def insertPerson (rows : List Person) (p : Person) : Option (List Person) :=
  if ∃ r ∈ rows, r.id = p.id then none else some (rows ++ [p])

/-- The persons with the stable id of the founder. -/
def founders (form : PitchForm) (db : Db) : List Person :=
  db.persons.filter fun p => p.stableId = form.stableId ucd

/-- `submit_pitch`. -/
def submitPitch (form : PitchForm) (db : Db) : Option Db :=
  if form.idempotencyKey.strip.length < 1 ∨ 128 < form.idempotencyKey.strip.length then none
  else
    (founderEvidence ucd bracketed form.evidence).bind fun evidence =>
      if ∃ s ∈ db.inboundSubmissions, s.idempotencyKey = form.idempotencyKey.strip then some db
      else
        form.upload.bind fun contentHash =>
          if form.KeysFree db then
            match founders ucd form db with
            | [] => (insertPerson db.persons (form.newPerson ucd)).map fun rows =>
                form.enter (form.newPerson ucd) contentHash evidence { db with persons := rows }
            | [person] => some (form.enter person contentHash evidence db)
            | _ => none
          else none

end Submit

/-! ## What a submission does -/

/-- **One submission.** A submission that does not fail is a replay, or it enters a known person or
a new one as the founder of a new opportunity. -/
lemma submitPitch_cases {ucd : Ucd} {bracketed : Str → Bool} {form : PitchForm} {db db' : Db}
    (h : submitPitch ucd bracketed form db = some db') :
    ((∃ s ∈ db.inboundSubmissions, s.idempotencyKey = form.idempotencyKey.strip) ∧ db' = db) ∨
    (¬ (∃ s ∈ db.inboundSubmissions, s.idempotencyKey = form.idempotencyKey.strip) ∧
      ∃ contentHash evidence,
        (founders ucd form db = [] ∧ (∀ p ∈ db.persons, p.id ≠ form.personId) ∧
          db' = form.enter (form.newPerson ucd) contentHash evidence
            { db with persons := db.persons ++ [form.newPerson ucd] }) ∨
        ∃ person, founders ucd form db = [person] ∧
          db' = form.enter person contentHash evidence db) := by
  unfold submitPitch at h
  by_cases hlength : form.idempotencyKey.strip.length < 1 ∨ 128 < form.idempotencyKey.strip.length
  · rw [if_pos hlength] at h
    cases h
  rw [if_neg hlength] at h
  obtain ⟨evidence, -, h⟩ := Option.bind_eq_some_iff.mp h
  by_cases hreplay : ∃ s ∈ db.inboundSubmissions, s.idempotencyKey = form.idempotencyKey.strip
  · rw [if_pos hreplay] at h
    cases h
    exact Or.inl ⟨hreplay, rfl⟩
  · rw [if_neg hreplay] at h
    obtain ⟨contentHash, -, h⟩ := Option.bind_eq_some_iff.mp h
    refine Or.inr ⟨hreplay, contentHash, evidence, ?_⟩
    by_cases hfree : form.KeysFree db
    swap
    · rw [if_neg hfree] at h
      cases h
    rw [if_pos hfree] at h
    split at h
    · next hnone =>
      obtain ⟨rows, hrows, rfl⟩ := Option.map_eq_some_iff.mp h
      unfold insertPerson at hrows
      split_ifs at hrows with htaken
      cases hrows
      push Not at htaken
      exact Or.inl ⟨hnone, htaken, rfl⟩
    · next person hone =>
      cases h
      exact Or.inr ⟨person, hone, rfl⟩
    · cases h

end VCBrain
