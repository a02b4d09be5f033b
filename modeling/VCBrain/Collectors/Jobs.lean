import VCBrain.Collectors.Observations
import VCBrain.Foundation.Unicode

set_option relaxedAutoImplicit false
set_option autoImplicit false

/-!
# Collection and signal jobs

`collect_job` collects evidence on the person a task names and stores a signal score for the
person; `recompute_signals_job` stores a score for every person it selects. Neither asks whether
the person has been merged into another.

## Main definitions

* `storeSignal` — the score snapshot of a person.
* `CollectTask`, `collectJob` — the collection job.
* `recomputeSignals` — the recomputation job.

## Main results

* `storeSignal_eq_some`, `collectJob_cases`, `recomputeSignals_eq_some` — what the jobs write.

## Design

The components of a score and its provenance are left out: no modelled function reads them. The
ledger of the jobs is outside the model, so a task says whether its job has ended before. A job
that fails is rolled back.
-/

namespace VCBrain

/-! ## Scores -/

/-- The score snapshot of a person. -/
def signalSnapshot (newId person : Uuid) (now : Time) : ScoreSnapshot where
  id := newId
  subjectId := person
  subjectType := "person"
  rubricVersion := "signal-v1"
  createdAt := now

/-- `_compute_and_store_signal`: the id of a snapshot is the primary key. -/
def storeSignal (newId person : Uuid) (now : Time) (db : Db) : Option Db :=
  if ∃ s ∈ db.scoreSnapshots, s.id = newId then none
  else some { db with scoreSnapshots := db.scoreSnapshots ++ [signalSnapshot newId person now] }

/-- `recompute_signals_job`: the 500 persons updated last each receive a score. Which come first
is the order of an instant that is not modelled. -/
def recomputeSignals (byUpdate : List Person → List Person) (draw : ℕ → Uuid) (now : Time)
    (db : Db) : Option Db :=
  (((byUpdate db.persons).take 500).mapIdx fun i p => (p, draw i)).foldlM
    (fun db item => storeSignal item.2 item.1.id now db) db

/-! ## Collection -/

/-- A task of the queue with what the environment adds to it: whether its job has ended before,
what the connector returns, the instant, and the ids drawn. -/
structure CollectTask where
  personId : Uuid
  source : Str
  handle : Str := []
  ended : Bool := false
  collected : Str → Option Collected
  now : Time
  snapshotId : Uuid
  signalId : Uuid
  draw : ℕ → Uuid

section Collect

variable (ucd : Ucd) (md5 : List UInt8 → Str)

/-- The handle of a task, by default that of the person. -/
def CollectTask.resolveHandle (task : CollectTask) (person : Person) : Str :=
  if task.handle = [] then
    ((person.handles.getD Dict.empty).get? task.source).getD []
  else task.handle

/-- The display name a collection reports, if it is no handle. -/
def promotedName (handle : Str) (payloads : List Payload) : Option Str :=
  ((payloads.find? fun p => p.predicate = "display_name".toList).map fun p =>
    p.objectValue.strip).filter
    fun name => name ≠ [] ∧ ucd.lower name ≠ ucd.lower handle

/-- The row of a person receives a display name. -/
def renamePerson (id : Uuid) (name : Option Str) (rows : List Person) : List Person :=
  match name with
  | none => rows
  | some name => rows.map fun p => if p.id = id then { p with displayName := some name } else p

/-- The transaction of `collect_job` after the connector has returned. -/
def persistCollected (task : CollectTask) (person : Person) (collected : Collected) (db : Db) :
    Option Db :=
  (writeSnapshot md5 task.now task.snapshotId collected db).bind fun (db, snapshot) =>
    (writeObservations md5 task.now task.draw snapshot collected.observations (some person.id) none
        db).bind fun (db, _) =>
      let name := promotedName ucd (task.resolveHandle person) collected.observations
      storeSignal task.signalId person.id task.now
        { db with persons := renamePerson person.id name db.persons }

/-- `collect_job`: a task whose job has ended, whose person is missing or whose connector fails
changes nothing. -/
def collectJob (task : CollectTask) (db : Db) : Option Db :=
  if task.ended then some db
  else
    match db.person? task.personId with
    | none => some db
    | some person =>
      match (task.collected (task.resolveHandle person)).filter fun c => validateCollected c with
      | none => some db
      | some collected => persistCollected ucd md5 task person collected db

end Collect

/-! ## What the jobs write -/

section Effects

variable {ucd : Ucd} {md5 : List UInt8 → Str} {db db' : Db}

lemma storeSignal_eq_some {newId person : Uuid} {now : Time}
    (h : storeSignal newId person now db = some db') :
    db' = { db with scoreSnapshots := db.scoreSnapshots ++ [signalSnapshot newId person now] } := by
  unfold storeSignal at h
  split_ifs at h
  exact (Option.some.inj h).symm

/-- A recomputation adds one score for each person it selects. -/
lemma recomputeSignals_eq_some {byUpdate : List Person → List Person} {draw : ℕ → Uuid}
    {now : Time} (h : recomputeSignals byUpdate draw now db = some db') :
    db' = { db with scoreSnapshots := db.scoreSnapshots ++
      (((byUpdate db.persons).take 500).mapIdx fun i p => signalSnapshot (draw i) p.id now) } := by
  have hloop : ∀ (items : List (Person × Uuid)) (db : Db),
      items.foldlM (fun db item => storeSignal item.2 item.1.id now db) db = some db' →
      db' = { db with scoreSnapshots := db.scoreSnapshots ++
        (items.map fun item => signalSnapshot item.2 item.1.id now) } := by
    intro items
    induction items with
    | nil =>
      intro db h
      obtain rfl : db = db' := by simpa using h
      simp
    | cons item items ih =>
      intro db h
      rw [List.foldlM_cons] at h
      obtain ⟨db₁, hfirst, hrest⟩ := Option.bind_eq_some_iff.mp h
      obtain rfl := storeSignal_eq_some hfirst
      rw [ih _ hrest]
      simp
  rw [hloop _ _ h, List.mapIdx_eq_zipIdx_map, List.mapIdx_eq_zipIdx_map, List.map_map]
  rfl

/-- **One collection.** A collection that does not fail changes nothing, because its job has ended,
its person is missing or its connector fails, or it adds observations of the person and a score,
and may rename the person. -/
lemma collectJob_cases {task : CollectTask} (h : collectJob ucd md5 task db = some db') :
    ((task.ended = true ∨ db.person? task.personId = none ∨
        ∃ person, db.person? task.personId = some person ∧
          (task.collected (task.resolveHandle person)).filter (fun c => validateCollected c) =
            none) ∧
      db' = db) ∨
    (task.ended = false ∧ ∃ person, db.person? task.personId = some person ∧
      ((task.collected (task.resolveHandle person)).filter fun c => validateCollected c).isSome ∧
      ∃ snapshots added name, (∀ o ∈ added, o.subjectId = some person.id) ∧
        db' = { db with
          persons := renamePerson person.id name db.persons
          sourceSnapshots := snapshots
          observations := db.observations ++ added
          scoreSnapshots :=
            db.scoreSnapshots ++ [signalSnapshot task.signalId person.id task.now] }) := by
  unfold collectJob at h
  cases hended : task.ended with
  | true =>
    rw [hended] at h
    cases h
    exact Or.inl ⟨Or.inl rfl, rfl⟩
  | false =>
    rw [hended] at h
    rw [if_neg Bool.false_ne_true] at h
    split at h
    · next hmissing =>
      cases h
      exact Or.inl ⟨Or.inr (Or.inl hmissing), rfl⟩
    · next person hperson =>
      split at h
      · next hnone =>
        cases h
        exact Or.inl ⟨Or.inr (Or.inr ⟨person, hperson, hnone⟩), rfl⟩
      · next collected hcollected =>
        refine Or.inr ⟨rfl, person, hperson, by rw [hcollected]; rfl, ?_⟩
        unfold persistCollected at h
        obtain ⟨⟨db₁, snapshot⟩, hsnapshot, h⟩ := Option.bind_eq_some_iff.mp h
        obtain ⟨⟨db₂, ids⟩, hobservations, h⟩ := Option.bind_eq_some_iff.mp h
        obtain ⟨snapshots, rfl⟩ := writeSnapshot_frame hsnapshot
        obtain ⟨added, hsubject, rfl⟩ := writeObservations_frame hobservations
        exact ⟨snapshots, added, _, hsubject, storeSignal_eq_some h⟩

/-- A collection keeps the ids of the persons. -/
lemma map_id_collectJob {task : CollectTask}
    (h : collectJob ucd md5 task db = some db') :
    db'.persons.map Person.id = db.persons.map Person.id := by
  obtain ⟨-, rfl⟩ | ⟨-, person, -, -, _, _, name, -, rfl⟩ := collectJob_cases h
  · rfl
  · cases name with
    | none => rfl
    | some name =>
      rw [renamePerson, List.map_map]
      refine List.map_congr_left fun p _ => ?_
      rw [Function.comp_apply]
      split_ifs <;> rfl

end Effects

end VCBrain
