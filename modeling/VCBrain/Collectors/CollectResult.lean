import VCBrain.Collectors.EvidenceStore
import VCBrain.Collectors.Jobs
import VCBrain.Collectors.SourceLocators

set_option relaxedAutoImplicit false
set_option autoImplicit false

/-!
# The result of a collection

A collection that succeeds reports how many observations it made. It counts the payloads that the
connector has returned, while the observations are stored by a writer that filters them. This file
compares the two numbers.

## Main definitions

* `CollectResult` — the result of a collection that succeeded.
* `reportCollected`, `collectReported` — the job with the ids it stored and the result it returns.
* `Admissible` — what the writer admits.

## Main results

* `map_fst_collectReported` — the job with its result does what the job does.
* `length_ids_writeObservations` — the writer returns one id for each admitted payload.
* `observations_eq_length_iff` — when the result reports what was stored.
-/

namespace VCBrain

/-- The result of a collection that succeeded. -/
structure CollectResult where
  personId : Uuid
  source : Str
  depth : Str
  observations : ℕ
deriving DecidableEq

/-- What a collection has stored, and what it returns. -/
structure CollectReport where
  db : Db
  ids : List Uuid
  result : CollectResult

section Job

variable (ucd : Ucd) (md5 : List UInt8 → Str)

/-- The transaction of `collect_job` after the connector has returned, with its result. -/
def reportCollected (task : CollectTask) (depth : Str) (person : Person) (collected : Collected)
    (db : Db) : Option CollectReport :=
  (writeSnapshot md5 task.now task.snapshotId collected db).bind fun (db, snapshot) =>
    (writeObservations md5 task.now task.draw snapshot collected.observations (some person.id) none
        db).bind fun (db, ids) =>
      let name := promotedName ucd (task.resolveHandle person) collected.observations
      (storeSignal task.signalId person.id task.now
        { db with persons := renamePerson person.id name db.persons }).map fun db =>
          { db := db
            ids := ids
            result :=
              { personId := task.personId
                source := task.source
                depth := depth
                observations := collected.observations.length } }

/-- `collect_job` with its report, which there is only if the collection succeeds. -/
def collectReported (task : CollectTask) (depth : Str) (db : Db) :
    Option (Db × Option CollectReport) :=
  if task.ended then some (db, none)
  else
    match db.person? task.personId with
    | none => some (db, none)
    | some person =>
      match (task.collected (task.resolveHandle person)).filter fun c => validateCollected c with
      | none => some (db, none)
      | some collected => (reportCollected ucd md5 task depth person collected db).map fun report =>
        (report.db, some report)

end Job

/-! ## The two counts -/

/-- The writer admits the payload: it is dated, not more than five minutes ahead, not blank, and of
a confidence between 0 and 1. -/
def Admissible (now : Time) (p : Payload) : Prop :=
  (∃ observedAt ∈ p.observedAt, observedAt ≤ now + 300000000) ∧
    p.predicate.strip ≠ [] ∧ p.objectValue.strip ≠ [] ∧
    ∃ confidence ∈ p.confidence, 0 ≤ confidence ∧ confidence ≤ 1

instance (now : Time) : DecidablePred (Admissible now) := fun _ =>
  inferInstanceAs (Decidable (_ ∧ _))

/-- The policy of the snapshot that the content is stored under. -/
def policyFor (collected : Collected) (db : Db) : SourceUsePolicy :=
  match findSnapshot collected db.sourceSnapshots with
  | some snapshot => snapshot.sourceUsePolicy
  | none => buildSourceUsePolicy collected.sourceType collected.licenseHint

section Counts

variable {ucd : Ucd} {md5 : List UInt8 → Str} {now : Time} {newId : Uuid} {draw : ℕ → Uuid}
  {collected : Collected} {snapshot : SourceSnapshot} {payloads : List Payload}
  {subjectId opportunityId : Option Uuid} {db db' : Db} {ids : List Uuid} {task : CollectTask}
  {depth : Str} {person : Person} {report : CollectReport}

/-- The job with its report writes what the job writes. -/
lemma map_db_reportCollected (depth : Str) :
    (reportCollected ucd md5 task depth person collected db).map CollectReport.db =
      persistCollected ucd md5 task person collected db := by
  unfold reportCollected persistCollected
  cases writeSnapshot md5 task.now task.snapshotId collected db with
  | none => rfl
  | some written =>
    simp only [Option.bind_some]
    cases writeObservations md5 task.now task.draw written.2 collected.observations
        (some person.id) none written.1 with
    | none => rfl
    | some stored => simp [Option.map_map, Function.comp_def]

/-- The job with its report does what the job does. -/
lemma map_fst_collectReported :
    (collectReported ucd md5 task depth db).map Prod.fst = collectJob ucd md5 task db := by
  unfold collectReported collectJob
  by_cases hended : task.ended = true
  · rw [if_pos hended, if_pos hended]
    rfl
  rw [if_neg hended, if_neg hended]
  cases db.person? task.personId with
  | none => rfl
  | some person =>
    dsimp only
    cases (task.collected (task.resolveHandle person)).filter fun c => validateCollected c with
    | none => rfl
    | some collected =>
      dsimp only
      rw [← map_db_reportCollected depth, Option.map_map]
      rfl

/-- What the writer admits depends on the payload and the instant alone. -/
lemma admitPayload_isSome_iff {p : Payload} :
    (admitPayload md5 now newId snapshot subjectId opportunityId p).isSome ↔ Admissible now p := by
  constructor
  · intro h
    obtain ⟨o, h⟩ := Option.isSome_iff_exists.mp h
    obtain ⟨observedAt, hat, h⟩ := Option.bind_eq_some_iff.mp h
    obtain ⟨confidence, hconfidence, h⟩ := Option.bind_eq_some_iff.mp h
    split_ifs at h with hdate hblank hrange
    rw [not_or] at hblank hrange
    exact ⟨⟨observedAt, hat, not_lt.mp hdate⟩, hblank.1, hblank.2, confidence, hconfidence,
      not_lt.mp hrange.1, not_lt.mp hrange.2⟩
  · rintro ⟨⟨observedAt, hat, hdate⟩, hpredicate, hvalue, confidence, hconfidence, hlow, hhigh⟩
    unfold admitPayload
    rw [hat, hconfidence]
    simp only [Option.bind_eq_bind, Option.bind_some]
    rw [if_neg (not_lt.mpr hdate), if_neg (not_or.mpr ⟨hpredicate, hvalue⟩),
      if_neg (not_or.mpr ⟨not_lt.mpr hlow, not_lt.mpr hhigh⟩)]
    rfl

/-- Each item that is accepted adds one id. -/
lemma length_ids_foldlM (accept : Uuid → Payload → Option Observation)
    {items : List (Payload × Uuid)} {st st' : List Observation × List Uuid}
    (h : items.foldlM (writeObservation accept) st = some st') :
    st'.2.length = st.2.length + (accepted accept items).length := by
  induction items generalizing st with
  | nil =>
    obtain rfl : st = st' := by simpa using h
    rfl
  | cons item items ih =>
    rw [List.foldlM_cons] at h
    obtain ⟨st₁, hround, hrest⟩ := Option.bind_eq_some_iff.mp h
    rw [ih hrest]
    unfold writeObservation at hround
    cases haccept : accept item.2 item.1 with
    | none =>
      rw [haccept] at hround
      cases hround
      simp [accepted, haccept]
    | some o =>
      have hone : st₁.2.length = st.2.length + 1 := by
        rw [haccept] at hround
        dsimp only at hround
        split at hround
        · cases hround
          exact List.length_append
        · obtain ⟨rows, -, heq⟩ := Option.map_eq_some_iff.mp hround
          cases heq
          exact List.length_append
      rw [hone]
      simp only [accepted, List.filterMap_cons, haccept, List.length_cons]
      ring

/-- **Ids.** The writer returns one id for each payload it admits, and none if models may not use
the snapshot. -/
lemma length_ids_writeObservations
    (h : writeObservations md5 now draw snapshot payloads subjectId opportunityId db =
      some (db', ids)) :
    ids.length = if snapshot.sourceUsePolicy.allowsModelUse then
      (admittedObservations md5 now draw snapshot payloads subjectId opportunityId).length
      else 0 := by
  unfold writeObservations at h
  by_cases hpolicy : snapshot.sourceUsePolicy.allowsModelUse = true
  · rw [hpolicy, Bool.not_true, if_neg Bool.false_ne_true] at h
    obtain ⟨st, hloop, heq⟩ := Option.map_eq_some_iff.mp h
    cases heq
    rw [if_pos hpolicy]
    simpa [admittedObservations] using length_ids_foldlM _ hloop
  · have hdenied : snapshot.sourceUsePolicy.allowsModelUse = false := by simpa using hpolicy
    rw [hdenied] at h
    cases h
    rw [if_neg hpolicy]
    rfl

/-- All payloads are admitted exactly if each is admissible. -/
lemma length_admittedObservations_eq_iff :
    (admittedObservations md5 now draw snapshot payloads subjectId opportunityId).length =
      payloads.length ↔ ∀ p ∈ payloads, Admissible now p := by
  have hitems : (payloads.mapIdx fun i p => (p, draw i)).length = payloads.length :=
    List.length_mapIdx
  unfold admittedObservations accepted
  rw [← hitems, List.filterMap_length_eq_length]
  constructor
  · intro hall p hp
    obtain ⟨i, hi, rfl⟩ := List.getElem_of_mem hp
    exact admitPayload_isSome_iff.mp
      (hall (payloads[i], draw i) (List.mem_mapIdx.mpr ⟨i, hi, rfl⟩))
  · intro hall item hitem
    obtain ⟨i, hi, rfl⟩ := List.mem_mapIdx.mp hitem
    exact admitPayload_isSome_iff.mpr (hall _ (List.getElem_mem hi))

/-- The policy of the snapshot that is found or written. -/
lemma sourceUsePolicy_of_writeSnapshot
    (h : writeSnapshot md5 now newId collected db = some (db', snapshot)) :
    snapshot.sourceUsePolicy = policyFor collected db := by
  unfold writeSnapshot at h
  unfold policyFor findSnapshot
  split at h
  · next existing hfind =>
    cases h
    have hfind' : newestSnapshot (db.sourceSnapshots.filter fun s => s.Holds collected) =
        some snapshot := hfind
    rw [hfind']
  · next hnone =>
    have hnone' : newestSnapshot (db.sourceSnapshots.filter fun s => s.Holds collected) = none :=
      hnone
    rw [hnone']
    obtain ⟨rows, -, heq⟩ := Option.map_eq_some_iff.mp h
    cases heq
    rfl

/-- **The result.** The result of a collection that succeeded reports the number of the ids that
were stored exactly if the connector has returned no payload, or models may use the snapshot and
each payload is admissible.

**Proof sketch.** The result counts the payloads. The writer returns one id for each payload it
admits, if models may use the snapshot, and none otherwise (`length_ids_writeObservations`). -/
theorem observations_eq_length_iff (hperson : db.person? task.personId = some person)
    (hcollected : (task.collected (task.resolveHandle person)).filter
      (fun c => validateCollected c) = some collected)
    (h : (collectReported ucd md5 task depth db).bind Prod.snd = some report) :
    report.result.observations = report.ids.length ↔ collected.observations = [] ∨
      ((policyFor collected db).allowsModelUse = true ∧
        ∀ p ∈ collected.observations, Admissible task.now p) := by
  obtain ⟨⟨db', outcome⟩, hjob, rfl⟩ := Option.bind_eq_some_iff.mp h
  unfold collectReported at hjob
  by_cases hended : task.ended = true
  · rw [if_pos hended] at hjob
    cases hjob
  rw [if_neg hended, hperson] at hjob
  dsimp only at hjob
  rw [hcollected] at hjob
  obtain ⟨report', hreport, heq⟩ := Option.map_eq_some_iff.mp hjob
  cases heq
  obtain ⟨⟨db₁, snapshot⟩, hsnapshot, hreport⟩ := Option.bind_eq_some_iff.mp hreport
  obtain ⟨⟨db₂, ids⟩, hwrite, hreport⟩ := Option.bind_eq_some_iff.mp hreport
  obtain ⟨db₃, -, rfl⟩ := Option.map_eq_some_iff.mp hreport
  dsimp only
  rw [length_ids_writeObservations hwrite, sourceUsePolicy_of_writeSnapshot hsnapshot]
  by_cases hpolicy : (policyFor collected db).allowsModelUse = true
  · rw [if_pos hpolicy, eq_comm, length_admittedObservations_eq_iff]
    constructor
    · exact fun hall => Or.inr ⟨hpolicy, hall⟩
    · rintro (hempty | ⟨-, hall⟩)
      · simp [hempty]
      · exact hall
  · rw [if_neg hpolicy, List.length_eq_zero_iff]
    simp [hpolicy]

/-- A profile with one fact, under a license that may allow its use by models. -/
private def profileOf (license : Option Json) : Collected where
  sourceType := "github"
  uri := "https://example.com/ada"
  contentHash := "c0"
  licenseHint := license
  observations := [{ predicate := "github_login", objectValue := "ada", observedAt := some 0 }]

/-- The collection of the profile for the first person. -/
private def profileTask (license : Option Json) : CollectTask where
  personId := 1
  source := "github"
  handle := "ada"
  collected _ := some (profileOf license)
  now := 0
  snapshotId := 5
  signalId := 6
  draw i := Fin.ofNat _ (10 + i)

/-- What the collection of the profile reports. -/
private def profileReport (license : Option Json) : Option CollectReport :=
  (collectReported Ucd.ascii byteDigest (profileTask license) "deep"
    { persons := [samplePerson 1] }).bind Prod.snd

/-- A license that allows the use by models. -/
private def openLicense : Option Json := some (.obj [("model_use", .str "allowed")])

private lemma profileReport_open : (profileReport openLicense).isSome = true := by
  decide +kernel

private lemma profileReport_closed : (profileReport none).isSome = true := by
  decide +kernel

/-- A profile that models may use is reported as it is stored. -/
theorem observations_eq_length_iff_profile :
    ((profileReport openLicense).get profileReport_open).result.observations =
      ((profileReport openLicense).get profileReport_open).ids.length := by
  have hperson : ({ persons := [samplePerson 1] } : Db).person? (profileTask openLicense).personId =
      some (samplePerson 1) := by decide +kernel
  have hcollected : ((profileTask openLicense).collected
      ((profileTask openLicense).resolveHandle (samplePerson 1))).filter
      (fun c => validateCollected c) = some (profileOf openLicense) :=
    Option.filter_some_pos (by decide +kernel)
  have hreport : (collectReported Ucd.ascii byteDigest (profileTask openLicense) "deep"
      { persons := [samplePerson 1] }).bind Prod.snd =
      some ((profileReport openLicense).get profileReport_open) :=
    (Option.some_get profileReport_open).symm
  exact (observations_eq_length_iff hperson hcollected hreport).mpr (by decide +kernel)

/-- A profile that models may not use is reported with one observation, of which none is stored. -/
theorem observations_ne_length_of_quarantined :
    ¬ ∀ (ucd : Ucd) (md5 : List UInt8 → Str) (task : CollectTask) (depth : Str) (db : Db)
      (report : CollectReport),
      (collectReported ucd md5 task depth db).bind Prod.snd = some report →
      report.result.observations = report.ids.length := by
  intro hall
  have hreport := hall Ucd.ascii byteDigest (profileTask none) "deep"
    { persons := [samplePerson 1] } _ (Option.some_get profileReport_closed).symm
  exact absurd hreport (by decide +kernel)

end Counts

end VCBrain
