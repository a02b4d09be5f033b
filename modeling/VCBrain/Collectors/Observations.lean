import VCBrain.Collectors.Persistence
import VCBrain.Foundation.GroupBy

set_option relaxedAutoImplicit false
set_option autoImplicit false

/-!
# Writing collected evidence

A connector returns content and payloads. The content becomes a source snapshot, once for each
hash, and each payload that is admitted becomes an observation of the subject, once for each
snapshot.

## Main definitions

* `Payload`, `Collected` — what a connector returns; `validateCollected` — its contract.
* `writeSnapshot`, `writeObservations` — the writers.

## Main results

* `writeSnapshot_frame`, `writeObservations_frame` — what the writers leave alone, and whose
  observations are added.

## Design

The payloads are typed: a missing or unreadable instant or number is `none`. A writer that hits a
key constraint re-reads the row it was beaten by; within one transaction there is none, so the
transaction fails.
-/

namespace VCBrain

/-- One observation as a connector reports it. -/
structure Payload where
  predicate : Str
  objectValue : Str
  observedAt : Option Time
  confidence : Option ℚ := some 1
  sourceLocator : Option Json := none

/-- What a connector returns, with the hash under which the content is stored. -/
structure Collected where
  sourceType : Str
  uri : Str
  contentHash : Str
  licenseHint : Option Json := none
  observations : List Payload

/-- `validate_collected`. -/
def validateCollected (collected : Collected) : Bool :=
  decide (collected.sourceType.strip ≠ []) && decide (collected.uri.strip ≠ []) &&
    collected.observations.all fun p =>
      decide (p.predicate.strip ≠ []) && decide (p.objectValue.strip ≠ []) && p.observedAt.isSome

/-! ## Snapshots -/

/-- The row collected last, the first of several. -/
def newestSnapshot (rows : List SourceSnapshot) : Option SourceSnapshot :=
  rows.foldl (fun newest row =>
    match newest with
    | none => some row
    | some n => if n.collectedAt < row.collectedAt then some row else some n) none

/-- Insert a snapshot: its id is the primary key, and a fingerprint that is set is unique. -/
def insertSnapshot (rows : List SourceSnapshot) (s : SourceSnapshot) :
    Option (List SourceSnapshot) :=
  if ∃ r ∈ rows, r.id = s.id ∨
      (s.persistenceFingerprint.isSome ∧ r.persistenceFingerprint = s.persistenceFingerprint)
  then none
  else some (rows ++ [s])

/-- `_write_snapshot`. -/
def writeSnapshot (md5 : List UInt8 → Str) (now : Time) (newId : Uuid) (collected : Collected)
    (db : Db) : Option (Db × SourceSnapshot) :=
  match newestSnapshot (db.sourceSnapshots.filter fun s => s.uri = collected.uri ∧
      s.sourceType = collected.sourceType ∧ s.contentHash = collected.contentHash) with
  | some existing => some (db, existing)
  | none =>
    let snapshot : SourceSnapshot :=
      { id := newId, uri := collected.uri, sourceType := collected.sourceType
        contentHash := collected.contentHash
        persistenceFingerprint := some
          (fingerprint md5 [collected.uri, collected.sourceType, collected.contentHash])
        sourceUsePolicy := buildSourceUsePolicy collected.sourceType collected.licenseHint
        collectedAt := now }
    (insertSnapshot db.sourceSnapshots snapshot).map fun rows =>
      ({ db with sourceSnapshots := rows }, snapshot)

/-! ## Observations -/

/-- The observation a payload is admitted as. It is rejected if it is dated more than five minutes
ahead, blank, or of a confidence that is no number between 0 and 1. -/
def admitPayload (md5 : List UInt8 → Str) (now : Time) (newId : Uuid) (snapshot : SourceSnapshot)
    (subjectId opportunityId : Option Uuid) (p : Payload) : Option Observation := do
  let observedAt ← p.observedAt
  let confidence ← p.confidence
  if now + 300000000 < observedAt then none
  else if p.predicate.strip = [] ∨ p.objectValue.strip = [] then none
  else if confidence < 0 ∨ 1 < confidence then none
  else
    let extractorVersion := snapshot.sourceType ++ "-v1".toList
    some
      { id := newId
        snapshotId := snapshot.id
        subjectId := subjectId
        opportunityId := opportunityId
        predicate := p.predicate
        objectValue := p.objectValue
        sourceLocator := some (match p.sourceLocator with
          | some (.obj fields) => .obj fields
          | _ => .obj [("kind", .str "source_snapshot"), ("source_uri", .str snapshot.uri),
              ("reason", .str "coordinate unavailable from connector")])
        observedAt := observedAt
        extractorVersion := extractorVersion
        persistenceFingerprint := some (observationPersistenceFingerprint md5 snapshot.id subjectId
          opportunityId p.predicate p.objectValue extractorVersion none)
        confidence := confidence
        createdAt := now }

/-- The row of an observation that was written before. -/
def existingObservation (rows : List Observation) (o : Observation) : Option Observation :=
  rows.find? fun r => r.snapshotId = o.snapshotId ∧ r.subjectId = o.subjectId ∧
    r.opportunityId = o.opportunityId ∧ r.predicate = o.predicate ∧
    r.objectValue = o.objectValue ∧ r.extractorVersion = o.extractorVersion

/-- One round of the loop of `_write_observations`: the rows and the ids so far. -/
def writeObservation (accept : Uuid → Payload → Option Observation)
    (state : List Observation × List Uuid) (item : Payload × Uuid) :
    Option (List Observation × List Uuid) :=
  match accept item.2 item.1 with
  | none => some state
  | some o =>
    match existingObservation state.1 o with
    | some existing => some (state.1, state.2 ++ [existing.id])
    | none => (insertObservation state.1 o).map fun rows => (rows, state.2 ++ [o.id])

/-- `_write_observations`: the database and the ids of the observations. -/
def writeObservations (md5 : List UInt8 → Str) (now : Time) (draw : ℕ → Uuid)
    (snapshot : SourceSnapshot) (payloads : List Payload) (subjectId opportunityId : Option Uuid)
    (db : Db) : Option (Db × List Uuid) :=
  if !snapshot.sourceUsePolicy.allowsModelUse then some (db, [])
  else
    ((payloads.mapIdx fun i p => (p, draw i)).foldlM
        (writeObservation fun newId =>
          admitPayload md5 now newId snapshot subjectId opportunityId)
        (db.observations, [])).map fun state => ({ db with observations := state.1 }, state.2)

/-! ## What the writers leave alone -/

section Frame

variable {md5 : List UInt8 → Str} {now : Time} {newId : Uuid} {draw : ℕ → Uuid}
  {collected : Collected} {snapshot : SourceSnapshot} {payloads : List Payload}
  {subjectId opportunityId : Option Uuid} {db db' : Db} {ids : List Uuid}

/-- Writing a snapshot changes no other table. -/
lemma writeSnapshot_frame (h : writeSnapshot md5 now newId collected db = some (db', snapshot)) :
    ∃ rows, db' = { db with sourceSnapshots := rows } := by
  unfold writeSnapshot at h
  split at h
  · cases h
    exact ⟨db.sourceSnapshots, rfl⟩
  · obtain ⟨rows, -, heq⟩ := Option.map_eq_some_iff.mp h
    cases heq
    exact ⟨rows, rfl⟩

/-- An admitted payload is an observation of the subject. -/
lemma subjectId_of_admitPayload {p : Payload} {o : Observation}
    (h : admitPayload md5 now newId snapshot subjectId opportunityId p = some o) :
    o.subjectId = subjectId := by
  obtain ⟨observedAt, -, h⟩ := Option.bind_eq_some_iff.mp h
  obtain ⟨confidence, -, h⟩ := Option.bind_eq_some_iff.mp h
  split_ifs at h
  cases h
  rfl

/-- Writing observations adds observations of the subject to the table, and changes no other. -/
lemma writeObservations_frame
    (h : writeObservations md5 now draw snapshot payloads subjectId opportunityId db =
      some (db', ids)) :
    ∃ added : List Observation, (∀ o ∈ added, o.subjectId = subjectId) ∧
      db' = { db with observations := db.observations ++ added } := by
  unfold writeObservations at h
  split_ifs at h
  · cases h
    exact ⟨[], nofun, by simp⟩
  · obtain ⟨state, hloop, heq⟩ := Option.map_eq_some_iff.mp h
    cases heq
    have hadded : ∃ added : List Observation, (∀ o ∈ added, o.subjectId = subjectId) ∧
        state.1 = db.observations ++ added := by
      refine foldlM_invariant (I := fun state : List Observation × List Uuid =>
        ∃ added : List Observation, (∀ o ∈ added, o.subjectId = subjectId) ∧
          state.1 = db.observations ++ added) ?_ ⟨[], nofun, by simp⟩ hloop
      intro state item state' _ hstate hstep
      obtain ⟨added, hsubject, hrows⟩ := hstate
      unfold writeObservation at hstep
      split at hstep
      · cases hstep
        exact ⟨added, hsubject, hrows⟩
      · next o hadmit =>
        split at hstep
        · cases hstep
          exact ⟨added, hsubject, hrows⟩
        · obtain ⟨rows, hinsert, heq⟩ := Option.map_eq_some_iff.mp hstep
          cases heq
          obtain ⟨rfl, -⟩ := insertObservation_eq_some hinsert
          refine ⟨added ++ [o], ?_, by rw [hrows, List.append_assoc]⟩
          intro r hr
          cases List.mem_append.mp hr with
          | inl hr => exact hsubject r hr
          | inr hr =>
            rw [List.mem_singleton.mp hr]
            exact subjectId_of_admitPayload hadmit
    obtain ⟨added, hsubject, hrows⟩ := hadded
    exact ⟨added, hsubject, by rw [hrows]⟩

end Frame

end VCBrain
