import VCBrain.Collectors.Observations
import VCBrain.Foundation.Guarded
import VCBrain.Identity.Merge

set_option relaxedAutoImplicit false
set_option autoImplicit false

/-!
# Fingerprints over a history

The fingerprint of an observation is a digest of some of its columns that is stored with them. A
writer looks an observation up by the columns, and the index that refuses a second one goes by the
fingerprint. A merge of persons reassigns the observations of the duplicate and leaves their
fingerprints alone.

## Main definitions

* `NaturalKey` — the columns that identify an observation.
* `FingerprintsCurrent` — every fingerprint is that of the columns beside it.
* `FingerprintInvariant` — what the writers rely on.
* `PersistenceStep`, `MovesNoObservation` — a history of writes and merges, and its condition.

## Main results

* `ObservationWrite.run_isSome` — writing to current fingerprints does not fail.
* `writeObservations_eq_none` — writing what a stale fingerprint stands for fails.
* `fingerprintInvariant_of_guarded` — merges that move no observation keep the invariant.

## Design

The source locator is no part of the key, since the writer looks rows up without it and computes the
fingerprint without it.
-/

namespace VCBrain

/-! ## The key of an observation -/

/-- The columns by which `_write_observations` looks a row up. -/
structure NaturalKey where
  snapshotId : Uuid
  subjectId : Option Uuid
  opportunityId : Option Uuid
  predicate : Str
  objectValue : Str
  extractorVersion : Str
deriving DecidableEq

/-- The key of a row. -/
def Observation.naturalKey (o : Observation) : NaturalKey where
  snapshotId := o.snapshotId
  subjectId := o.subjectId
  opportunityId := o.opportunityId
  predicate := o.predicate
  objectValue := o.objectValue
  extractorVersion := o.extractorVersion

/-- `observation_persistence_fingerprint` of the columns of a key. -/
def NaturalKey.fingerprint (md5 : List UInt8 → Str) (key : NaturalKey) : Str :=
  observationPersistenceFingerprint md5 key.snapshotId key.subjectId key.opportunityId
    key.predicate key.objectValue key.extractorVersion none

/-- Every row carries the fingerprint of its columns. -/
def FingerprintsCurrent (md5 : List UInt8 → Str) (rows : List Observation) : Prop :=
  ∀ r ∈ rows, r.persistenceFingerprint = some (r.naturalKey.fingerprint md5)

/-- Different keys of the list have different fingerprints. -/
def NoCollision (md5 : List UInt8 → Str) (keys : List NaturalKey) : Prop :=
  ∀ k ∈ keys, ∀ l ∈ keys, k.fingerprint md5 = l.fingerprint md5 → k = l

instance (md5 : List UInt8 → Str) (keys : List NaturalKey) : Decidable (NoCollision md5 keys) :=
  inferInstanceAs (Decidable (∀ k ∈ keys, ∀ l ∈ keys, _))

section Key

variable {md5 : List UInt8 → Str} {rows rows' : List Observation} {o : Observation}

lemma naturalKey_eq_iff {r : Observation} :
    r.naturalKey = o.naturalKey ↔ r.snapshotId = o.snapshotId ∧ r.subjectId = o.subjectId ∧
      r.opportunityId = o.opportunityId ∧ r.predicate = o.predicate ∧
      r.objectValue = o.objectValue ∧ r.extractorVersion = o.extractorVersion :=
  NaturalKey.mk.injEq .. ▸ Iff.rfl

/-- The lookup finds nothing exactly if no row has the key. -/
lemma existingObservation_eq_none_iff :
    existingObservation rows o = none ↔ ∀ r ∈ rows, r.naturalKey ≠ o.naturalKey := by
  unfold existingObservation
  rw [List.find?_eq_none]
  refine forall_congr' fun r => forall_congr' fun _ => ?_
  rw [decide_eq_true_eq, ne_eq, naturalKey_eq_iff]

/-- A row that is inserted with its own fingerprint leaves the fingerprints current. -/
lemma FingerprintsCurrent.insertObservation (h : FingerprintsCurrent md5 rows)
    (ho : o.persistenceFingerprint = some (o.naturalKey.fingerprint md5))
    (hinsert : insertObservation rows o = some rows') : FingerprintsCurrent md5 rows' := by
  obtain ⟨rfl, -⟩ := insertObservation_eq_some hinsert
  intro r hr
  cases List.mem_append.mp hr with
  | inl hr => exact h r hr
  | inr hr =>
    rw [List.mem_singleton.mp hr]
    exact ho

/-- **The lookup and the index agree.** A key is among rows with current fingerprints exactly if its
fingerprint is. -/
lemma FingerprintsCurrent.mem_key_iff (h : FingerprintsCurrent md5 rows) {key : NaturalKey}
    (hcollision : NoCollision md5 (key :: rows.map Observation.naturalKey)) :
    (∃ r ∈ rows, r.naturalKey = key) ↔
      ∃ r ∈ rows, r.persistenceFingerprint = some (key.fingerprint md5) := by
  refine exists_congr fun r => and_congr_right fun hr => ?_
  rw [h r hr, Option.some.injEq]
  constructor
  · intro heq
    rw [heq]
  · intro heq
    exact hcollision _ (List.mem_cons_of_mem _ (List.mem_map_of_mem hr)) _
      (List.mem_cons_self ..) heq

end Key

/-! ## One write -/

/-- A call of `_write_observations` with the instant and the ids it draws. -/
structure ObservationWrite where
  snapshot : SourceSnapshot
  payloads : List Payload
  subjectId : Option Uuid
  opportunityId : Option Uuid := none
  now : Time
  draw : ℕ → Uuid

namespace ObservationWrite

variable (md5 : List UInt8 → Str) (w : ObservationWrite) (db : Db)

/-- The database after the call; `none` is an `IntegrityError`. -/
def run : Option Db :=
  (writeObservations md5 w.now w.draw w.snapshot w.payloads w.subjectId w.opportunityId db).map
    Prod.fst

/-- The observation a payload is admitted as. -/
def accept (newId : Uuid) (p : Payload) : Option Observation :=
  admitPayload md5 w.now newId w.snapshot w.subjectId w.opportunityId p

/-- The key under which a payload is stored. -/
def payloadKey (p : Payload) : NaturalKey where
  snapshotId := w.snapshot.id
  subjectId := w.subjectId
  opportunityId := w.opportunityId
  predicate := p.predicate
  objectValue := p.objectValue
  extractorVersion := w.snapshot.sourceType ++ "-v1".toList

/-- The ids drawn are new. -/
structure Fresh : Prop where
  unused : ∀ i < w.payloads.length, ∀ r ∈ db.observations, r.id ≠ w.draw i
  distinct : ∀ i < w.payloads.length, ∀ j < w.payloads.length, w.draw i = w.draw j → i = j

end ObservationWrite

section Write

variable {md5 : List UInt8 → Str} {w : ObservationWrite} {db db' : Db}

/-- What an admitted payload is stored as. -/
lemma ObservationWrite.accept_eq_some {newId : Uuid} {p : Payload} {o : Observation}
    (h : w.accept md5 newId p = some o) :
    o.id = newId ∧ o.naturalKey = w.payloadKey p ∧
      o.persistenceFingerprint = some (o.naturalKey.fingerprint md5) := by
  obtain ⟨observedAt, -, h⟩ := Option.bind_eq_some_iff.mp h
  obtain ⟨confidence, -, h⟩ := Option.bind_eq_some_iff.mp h
  split_ifs at h
  cases h
  exact ⟨rfl, rfl, rfl⟩

/-- A round of the loop keeps the fingerprints current. -/
lemma FingerprintsCurrent.writeObservation {st st' : List Observation × List Uuid}
    {item : Payload × Uuid} (h : FingerprintsCurrent md5 st.1)
    (hstep : writeObservation (w.accept md5) st item = some st') :
    FingerprintsCurrent md5 st'.1 := by
  unfold VCBrain.writeObservation at hstep
  split at hstep
  · cases hstep
    exact h
  · next o haccept =>
    split at hstep
    · cases hstep
      exact h
    · obtain ⟨rows, hinsert, heq⟩ := Option.map_eq_some_iff.mp hstep
      cases heq
      exact h.insertObservation (w.accept_eq_some haccept).2.2 hinsert

/-- A write keeps the fingerprints current. -/
lemma FingerprintsCurrent.run (h : FingerprintsCurrent md5 db.observations)
    (hrun : w.run md5 db = some db') : FingerprintsCurrent md5 db'.observations := by
  obtain ⟨⟨u, ids⟩, hwrite, rfl⟩ := Option.map_eq_some_iff.mp hrun
  unfold writeObservations at hwrite
  split_ifs at hwrite
  · cases hwrite
    exact h
  · obtain ⟨st, hloop, heq⟩ := Option.map_eq_some_iff.mp hwrite
    cases heq
    exact foldlM_invariant (I := fun st => FingerprintsCurrent md5 st.1)
      (fun _ _ _ _ hst hstep => hst.writeObservation hstep) h hloop

/-- **One round.** A round of the loop does not fail on current fingerprints, an id that is new and
keys that do not collide. It adds at most a row of the payload under this id. -/
lemma exists_writeObservation {st : List Observation × List Uuid} {item : Payload × Uuid}
    (hcurrent : FingerprintsCurrent md5 st.1) (hfresh : ∀ r ∈ st.1, r.id ≠ item.2)
    (hcollision : NoCollision md5 (w.payloadKey item.1 :: st.1.map Observation.naturalKey)) :
    ∃ st', writeObservation (w.accept md5) st item = some st' ∧
      ∀ r ∈ st'.1, r ∈ st.1 ∨ (r.id = item.2 ∧ r.naturalKey = w.payloadKey item.1) := by
  unfold writeObservation
  cases haccept : w.accept md5 item.2 item.1 with
  | none => exact ⟨st, rfl, fun r hr => Or.inl hr⟩
  | some o =>
    obtain ⟨hid, hkey, hprint⟩ := w.accept_eq_some haccept
    cases hlook : existingObservation st.1 o with
    | some existing =>
      exact ⟨(st.1, st.2 ++ [existing.id]), by simp only [hlook], fun r hr => Or.inl hr⟩
    | none =>
      have hnokey := existingObservation_eq_none_iff.mp hlook
      have hfree : ¬ ∃ r ∈ st.1, r.id = o.id ∨ (o.persistenceFingerprint.isSome ∧
          r.persistenceFingerprint = o.persistenceFingerprint) := by
        rintro ⟨r, hr, h | ⟨-, h⟩⟩
        · exact hfresh r hr (h.trans hid)
        · rw [hprint, hkey] at h
          obtain ⟨s, hs, hskey⟩ := (hcurrent.mem_key_iff hcollision).mpr ⟨r, hr, h⟩
          exact hnokey s hs (hskey.trans hkey.symm)
      refine ⟨(st.1 ++ [o], st.2 ++ [o.id]), ?_, fun r hr => ?_⟩
      · simp only [hlook, insertObservation, if_neg hfree, Option.map_some]
      · cases List.mem_append.mp hr with
        | inl hr => exact Or.inl hr
        | inr hr =>
          rw [List.mem_singleton.mp hr]
          exact Or.inr ⟨hid, hkey⟩

/-- The whole loop. -/
lemma foldlM_writeObservation_isSome {items : List (Payload × Uuid)}
    {st : List Observation × List Uuid} (hcurrent : FingerprintsCurrent md5 st.1)
    (hfresh : ∀ item ∈ items, ∀ r ∈ st.1, r.id ≠ item.2) (hnodup : (items.map Prod.snd).Nodup)
    (hcollision : NoCollision md5
      (st.1.map Observation.naturalKey ++ items.map fun item => w.payloadKey item.1)) :
    (items.foldlM (writeObservation (w.accept md5)) st).isSome := by
  induction items generalizing st with
  | nil => rfl
  | cons item items ih =>
    rw [List.map_cons, List.nodup_cons] at hnodup
    have hkeys : ∀ k ∈ w.payloadKey item.1 :: st.1.map Observation.naturalKey,
        k ∈ st.1.map Observation.naturalKey ++
          (item :: items).map fun item => w.payloadKey item.1 := by
      intro k hk
      cases List.mem_cons.mp hk with
      | inl hk => exact List.mem_append_right _ (hk ▸ List.mem_cons_self ..)
      | inr hk => exact List.mem_append_left _ hk
    obtain ⟨st', hstep, hrows⟩ := exists_writeObservation hcurrent
      (hfresh item (List.mem_cons_self ..))
      (fun k hk l hl => hcollision k (hkeys k hk) l (hkeys l hl))
    rw [List.foldlM_cons, hstep]
    refine ih (hcurrent.writeObservation hstep) ?_ hnodup.2 ?_
    · intro next hnext r hr
      rcases hrows r hr with hr | ⟨hid, -⟩
      · exact hfresh next (List.mem_cons_of_mem _ hnext) r hr
      · intro heq
        exact hnodup.1 (hid ▸ heq ▸ List.mem_map_of_mem hnext)
    · have hrest : ∀ k ∈ st'.1.map Observation.naturalKey ++
          items.map (fun item => w.payloadKey item.1), k ∈ st.1.map Observation.naturalKey ++
            (item :: items).map fun item => w.payloadKey item.1 := by
        intro k hk
        rcases List.mem_append.mp hk with hk | hk
        · obtain ⟨r, hr, rfl⟩ := List.mem_map.mp hk
          rcases hrows r hr with hr | ⟨-, hkey⟩
          · exact List.mem_append_left _ (List.mem_map_of_mem hr)
          · exact List.mem_append_right _ (hkey ▸ List.mem_cons_self ..)
        · exact List.mem_append_right _ (List.mem_cons_of_mem _ hk)
      exact fun k hk l hl => hcollision k (hrest k hk) l (hrest l hl)

/-- **Writing does not fail.** On current fingerprints a write with new ids succeeds, unless keys
collide. -/
theorem ObservationWrite.run_isSome (hcurrent : FingerprintsCurrent md5 db.observations)
    (hfresh : w.Fresh db) (hcollision : NoCollision md5
      (db.observations.map Observation.naturalKey ++ w.payloads.map w.payloadKey)) :
    (w.run md5 db).isSome := by
  have hitems : ∀ item ∈ w.payloads.mapIdx fun i p => (p, w.draw i),
      ∃ i < w.payloads.length, item.2 = w.draw i := by
    intro item hitem
    obtain ⟨i, hi, rfl⟩ := List.mem_mapIdx.mp hitem
    exact ⟨i, hi, rfl⟩
  unfold ObservationWrite.run writeObservations
  rw [Option.isSome_map]
  by_cases hpolicy : w.snapshot.sourceUsePolicy.allowsModelUse = true
  · rw [hpolicy, Bool.not_true, if_neg Bool.false_ne_true, Option.isSome_map]
    refine foldlM_writeObservation_isSome (w := w) hcurrent ?_ ?_ ?_
    · intro item hitem r hr
      obtain ⟨i, hi, heq⟩ := hitems item hitem
      rw [heq]
      exact hfresh.unused i hi r hr
    · rw [List.nodup_iff_injective_get]
      intro i j hij
      have hi : (i : ℕ) < w.payloads.length := by simpa using i.isLt
      have hj : (j : ℕ) < w.payloads.length := by simpa using j.isLt
      exact Fin.ext (hfresh.distinct i hi j hj (by simpa using hij))
    · have hkeys : ((w.payloads.mapIdx fun i p => (p, w.draw i)).map fun item =>
          w.payloadKey item.1) = w.payloads.map w.payloadKey := by
        refine List.ext_getElem (by simp) fun i _ _ => ?_
        simp
      rwa [hkeys]
  · rw [Bool.not_eq_true] at hpolicy
    rw [hpolicy]
    rfl

/-- **A stale fingerprint.** Writing a payload fails if no row has its key but a row has the
fingerprint of this key. -/
theorem writeObservations_eq_none {p : Payload} {rest : List Payload} {o stale : Observation}
    (hpolicy : w.snapshot.sourceUsePolicy.allowsModelUse = true)
    (hpayloads : w.payloads = p :: rest) (haccept : w.accept md5 (w.draw 0) p = some o)
    (hkey : ∀ r ∈ db.observations, r.naturalKey ≠ w.payloadKey p)
    (hstale : stale ∈ db.observations)
    (hprint : stale.persistenceFingerprint = some ((w.payloadKey p).fingerprint md5)) :
    w.run md5 db = none := by
  obtain ⟨-, hokey, hoprint⟩ := w.accept_eq_some haccept
  have hround : writeObservation (w.accept md5) (db.observations, []) (p, w.draw 0) = none := by
    have hlook : existingObservation db.observations o = none :=
      existingObservation_eq_none_iff.mpr (by rwa [hokey])
    have htaken : ∃ r ∈ db.observations, r.id = o.id ∨ (o.persistenceFingerprint.isSome ∧
        r.persistenceFingerprint = o.persistenceFingerprint) :=
      ⟨stale, hstale, Or.inr ⟨by rw [hoprint]; rfl, by rw [hprint, hoprint, hokey]⟩⟩
    simp only [writeObservation, haccept, hlook, insertObservation, if_pos htaken, Option.map_none]
  unfold ObservationWrite.run writeObservations
  rw [hpolicy, hpayloads, List.mapIdx_cons, List.foldlM_cons]
  change Option.map _ (Option.map _ (Option.bind
    (writeObservation (w.accept md5) (db.observations, []) (p, w.draw 0)) _)) = none
  rw [hround]
  rfl

end Write

/-! ## Histories -/

/-- A transaction of the history: a write or a merge. -/
inductive PersistenceStep where
  | write (w : ObservationWrite)
  | merge (canonicalId duplicateId : Uuid) (now : Time)

/-- The database after a transaction; one that fails is rolled back. -/
def persistenceStep (md5 : List UInt8 → Str) (db : Db) : PersistenceStep → Option Db
  | .write w => w.run md5 db
  | .merge canonicalId duplicateId now => (mergePersons canonicalId duplicateId now db).toOption

/-- The transaction reassigns no observation to another person. -/
def MovesNoObservation (db : Db) : PersistenceStep → Prop
  | .write _ => True
  | .merge canonicalId duplicateId _ =>
    canonicalId = duplicateId ∨
      (∃ duplicate, db.person? duplicateId = some duplicate ∧ duplicate.canonical = false) ∨
      ∀ o ∈ db.observations, o.subjectId ≠ some duplicateId

/-- What the writers rely on: fingerprints are those of the columns, so the lookup and the index
agree, and collecting does not end in an `IntegrityError`. -/
structure FingerprintInvariant (md5 : List UInt8 → Str) (db : Db) : Prop where
  current : FingerprintsCurrent md5 db.observations
  lookup : ∀ key : NaturalKey,
    NoCollision md5 (key :: db.observations.map Observation.naturalKey) →
    ((∃ r ∈ db.observations, r.naturalKey = key) ↔
      ∃ r ∈ db.observations, r.persistenceFingerprint = some (key.fingerprint md5))
  collect : ∀ w : ObservationWrite, w.Fresh db →
    NoCollision md5 (db.observations.map Observation.naturalKey ++ w.payloads.map w.payloadKey) →
    (w.run md5 db).isSome

section History

variable {md5 : List UInt8 → Str} {db db' : Db}

/-- Current fingerprints are all that is needed. -/
lemma FingerprintsCurrent.invariant (h : FingerprintsCurrent md5 db.observations) :
    FingerprintInvariant md5 db where
  current := h
  lookup _ hcollision := h.mem_key_iff hcollision
  collect _ hfresh hcollision := ObservationWrite.run_isSome h hfresh hcollision

/-- A merge that moves no observation leaves the observations alone. -/
lemma observations_of_mergePersons {canonicalId duplicateId : Uuid} {now : Time}
    (hmoves : MovesNoObservation db (.merge canonicalId duplicateId now))
    (h : mergePersons canonicalId duplicateId now db = .ok db') :
    db'.observations = db.observations := by
  unfold mergePersons at h
  split at h
  · next canonical duplicate hcanonical hduplicate =>
    split_ifs at h with hsuperseded
    · cases h
      rfl
    · cases h
      have hrow : ∀ o ∈ db.observations,
          { o with subjectId := reassign? canonicalId duplicateId o.subjectId } = o := by
        intro o ho
        have hsame : reassign? canonicalId duplicateId o.subjectId = o.subjectId := by
          unfold reassign?
          split_ifs with hsubject
          · rcases hmoves with rfl | ⟨d, hd, hfalse⟩ | hnone
            · exact hsubject.symm
            · rw [hduplicate, Option.some.injEq] at hd
              rw [hd, hfalse] at hsuperseded
              exact absurd rfl hsuperseded
            · exact absurd hsubject (hnone o ho)
          · rfl
        rw [hsame]
      exact (List.map_congr_left hrow).trans (List.map_id _)
  · cases h

/-- A transaction that moves no observation keeps the fingerprints current. -/
lemma FingerprintsCurrent.persistenceStep {e : PersistenceStep}
    (h : FingerprintsCurrent md5 db.observations) (hmoves : MovesNoObservation db e)
    (hstep : persistenceStep md5 db e = some db') : FingerprintsCurrent md5 db'.observations := by
  cases e with
  | write w => exact h.run hstep
  | merge canonicalId duplicateId now =>
    have hok : mergePersons canonicalId duplicateId now db = .ok db' := by
      change (mergePersons canonicalId duplicateId now db).toOption = some db' at hstep
      cases hmerge : mergePersons canonicalId duplicateId now db with
      | error err => rw [hmerge] at hstep; cases hstep
      | ok u => rw [hmerge] at hstep; cases hstep; rfl
    rw [observations_of_mergePersons hmoves hok]
    exact h

/-- **The invariant over a history.** If no merge of a history moves an observation, the invariant
holds in the state it leads to. Every point of such a history ends one.

**Proof sketch.** The fingerprints are carried through the history (`History.replay_of_guarded`): a
write stores the fingerprints of the columns it stores, and a merge that moves no observation
changes none. -/
theorem fingerprintInvariant_of_guarded (hdb : FingerprintsCurrent md5 db.observations)
    (es : List PersistenceStep)
    (h : History.Guarded (persistenceStep md5) MovesNoObservation db es) :
    FingerprintInvariant md5 (History.replay (persistenceStep md5) db es) :=
  (History.replay_of_guarded _
    (fun _ _ _ hdb hstep hmoves => FingerprintsCurrent.persistenceStep hdb hmoves hstep)
    hdb h).invariant

end History

/-! ## Two persons -/

/-- A digest that keeps every byte. -/
def byteDigest (bytes : List UInt8) : Str := bytes.map fun b => Char.ofNat b.toNat

/-- One fact on a person of a deck, written under the given id. -/
def loginWrite (person newId : Uuid) : ObservationWrite where
  snapshot :=
    { id := 5, uri := "https://example.com/ada", sourceType := "inbound_deck", contentHash := "c0"
      sourceUsePolicy := buildSourceUsePolicy "inbound_deck" none, collectedAt := 0 }
  payloads := [{ predicate := "github_login", objectValue := "ada", observedAt := some 0 }]
  subjectId := some person
  now := 0
  draw := fun _ => newId

/-- Two persons without observations. -/
def twoPersonsDb : Db where
  persons := [samplePerson 1, samplePerson 2]

/-- A fact on the first person, and a merge of the second. -/
theorem fingerprintInvariant_mergeFirst :
    FingerprintInvariant byteDigest (History.replay (persistenceStep byteDigest) twoPersonsDb
      [.write (loginWrite 1 11), .merge 1 2 0]) := by
  refine fingerprintInvariant_of_guarded (fun r hr => absurd hr List.not_mem_nil) _
    ⟨fun _ _ => trivial, fun _ _ => Or.inr (Or.inr ?_), trivial⟩
  decide +kernel

/-- After a merge of the person whose fact is stored, its fingerprint is stale, and collecting the
fact again for this person fails. -/
theorem not_fingerprintInvariant_mergeDuplicate :
    ¬ FingerprintInvariant byteDigest (History.replay (persistenceStep byteDigest) twoPersonsDb
      [.write (loginWrite 2 11), .merge 1 2 0]) ∧
    persistenceStep byteDigest (History.replay (persistenceStep byteDigest) twoPersonsDb
      [.write (loginWrite 2 11), .merge 1 2 0]) (.write (loginWrite 2 12)) = none := by
  have hfails : ((persistenceStep byteDigest (History.replay (persistenceStep byteDigest)
      twoPersonsDb [.write (loginWrite 2 11), .merge 1 2 0])
      (.write (loginWrite 2 12))).isNone : Bool) = true := by
    decide +kernel
  refine ⟨fun h => ?_, Option.isNone_iff_eq_none.mp hfails⟩
  have hcollect := h.collect (loginWrite 2 12) ⟨by decide +kernel, by decide +kernel⟩
    (by decide +kernel)
  rw [show (loginWrite 2 12).run byteDigest _ = none from Option.isNone_iff_eq_none.mp hfails]
    at hcollect
  cases hcollect

end VCBrain
