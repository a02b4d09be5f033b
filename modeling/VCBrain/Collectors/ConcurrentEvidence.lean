import VCBrain.Collectors.EvidenceStore
import VCBrain.Foundation.GetOrInsert
import VCBrain.Foundation.OrderBy

set_option relaxedAutoImplicit false
set_option autoImplicit false

/-!
# Collectors that run at the same time

Several collectors write the same content for the same person, each in its own transaction: the
snapshot first and then, if the snapshot may be used, the observations. Every row is looked up,
inserted in a savepoint if it is missing, and looked up again if an index refuses the insertion.

A payload is rejected if it is dated more than five minutes after the clock of its writer. Two
writers have two clocks, so they may disagree on a payload, and then they return different ids.

## Main definitions

* `ConcurrentWrite` — the writers; `ConcurrentWrite.want` — the rows they go through.
* `ConcurrentWrite.ClocksAgree`, `ConcurrentWrite.Consistent` — what they rely on.

## Main results

* `ConcurrentWrite.cooperative` — the writers cooperate in the sense of `GetOrInsert`.
* `concurrentWrites_agree` — under every schedule they do not fail, are not stuck, return the same
  ids and store every key once.
-/

namespace VCBrain

open ReadCommitted GetOrInsert

/-! ## Rows -/

/-- A row of one of the two tables. -/
inductive EvidenceRow where
  | snapshot (s : SourceSnapshot)
  | observation (o : Observation)

/-- The columns that identify a row. -/
inductive EvidenceKey where
  | snapshot (uri sourceType contentHash : Str)
  | observation (key : NaturalKey)
deriving DecidableEq

namespace EvidenceRow

/-- The key of a row. -/
def key : EvidenceRow → EvidenceKey
  | snapshot s => .snapshot s.uri s.sourceType s.contentHash
  | observation o => .observation o.naturalKey

/-- The primary keys and the unique indexes on the fingerprints that are set. -/
def Clash : EvidenceRow → EvidenceRow → Prop
  | snapshot s, snapshot r => r.id = s.id ∨
    (s.persistenceFingerprint.isSome ∧ r.persistenceFingerprint = s.persistenceFingerprint)
  | observation o, observation r => r.id = o.id ∨
    (o.persistenceFingerprint.isSome ∧ r.persistenceFingerprint = o.persistenceFingerprint)
  | _, _ => False

instance : DecidableRel Clash
  | snapshot _, snapshot _ => inferInstanceAs (Decidable (_ ∨ _))
  | observation _, observation _ => inferInstanceAs (Decidable (_ ∨ _))
  | snapshot _, observation _ => inferInstanceAs (Decidable False)
  | observation _, snapshot _ => inferInstanceAs (Decidable False)

/-- The snapshots among the rows. -/
def snapshots (rows : List EvidenceRow) : List SourceSnapshot :=
  rows.filterMap fun
    | snapshot s => some s
    | observation _ => none

/-- The observations among the rows. -/
def observations (rows : List EvidenceRow) : List Observation :=
  rows.filterMap fun
    | snapshot _ => none
    | observation o => some o

lemma mem_snapshots {rows : List EvidenceRow} {s : SourceSnapshot} :
    s ∈ snapshots rows ↔ snapshot s ∈ rows := by
  unfold snapshots
  rw [List.mem_filterMap]
  constructor
  · rintro ⟨row, hrow, heq⟩
    cases row with
    | snapshot r => cases heq; exact hrow
    | observation o => cases heq
  · exact fun h => ⟨_, h, rfl⟩

lemma mem_observations {rows : List EvidenceRow} {o : Observation} :
    o ∈ observations rows ↔ observation o ∈ rows := by
  unfold observations
  rw [List.mem_filterMap]
  constructor
  · rintro ⟨row, hrow, heq⟩
    cases row with
    | snapshot r => cases heq
    | observation r => cases heq; exact hrow
  · exact fun h => ⟨_, h, rfl⟩

end EvidenceRow

/-- The rows of a database. -/
def evidenceRows (db : Db) : List EvidenceRow :=
  db.sourceSnapshots.map .snapshot ++ db.observations.map .observation

/-- The content of a snapshot. -/
def SourceSnapshot.content (s : SourceSnapshot) : Collected where
  sourceType := s.sourceType
  uri := s.uri
  contentHash := s.contentHash
  observations := []

/-! ## Queries -/

/-- The query for a snapshot. -/
def findContent (s : SourceSnapshot) (rows : List EvidenceRow) : Option EvidenceRow :=
  (findSnapshot s.content (EvidenceRow.snapshots rows)).map .snapshot

/-- What is found has the content, and if nothing is found no row has it. -/
lemma findContent_sound {s : SourceSnapshot} {rows : List EvidenceRow} {r : EvidenceRow}
    (h : findContent s rows = some r) : r ∈ rows ∧ r.key = (EvidenceRow.snapshot s).key := by
  obtain ⟨found, hfind, rfl⟩ := Option.map_eq_some_iff.mp h
  obtain ⟨hmem, huri, htype, hhash⟩ := mem_of_findSnapshot hfind
  refine ⟨EvidenceRow.mem_snapshots.mp hmem, ?_⟩
  simp only [EvidenceRow.key, huri, htype, hhash, SourceSnapshot.content]

lemma findContent_complete {s : SourceSnapshot} {rows : List EvidenceRow}
    (h : findContent s rows = none) : ∀ r ∈ rows, r.key ≠ (EvidenceRow.snapshot s).key := by
  rw [findContent, Option.map_eq_none_iff, findSnapshot_eq_none_iff] at h
  intro r hr hkey
  cases r with
  | snapshot r =>
    obtain ⟨huri, htype, hhash⟩ := EvidenceKey.snapshot.inj hkey
    exact h r (EvidenceRow.mem_snapshots.mpr hr) ⟨huri, htype, hhash⟩
  | observation r => cases hkey

/-- A query for an observation that finds a row of its key, if there is one. -/
lemma findObservation_sound (find : List Observation → Option Observation) {o : Observation}
    {rows : List EvidenceRow} {r : EvidenceRow}
    (hfind : ∀ {rows found}, find rows = some found →
      found ∈ rows ∧ found.naturalKey = o.naturalKey)
    (h : (find (EvidenceRow.observations rows)).map .observation = some r) :
    r ∈ rows ∧ r.key = (EvidenceRow.observation o).key := by
  obtain ⟨found, hfound, rfl⟩ := Option.map_eq_some_iff.mp h
  obtain ⟨hmem, hkey⟩ := hfind hfound
  exact ⟨EvidenceRow.mem_observations.mp hmem, congrArg EvidenceKey.observation hkey⟩

lemma findObservation_complete (find : List Observation → Option Observation) {o : Observation}
    {rows : List EvidenceRow}
    (hfind : ∀ {rows}, find rows = none → ∀ r ∈ rows, r.naturalKey ≠ o.naturalKey)
    (h : (find (EvidenceRow.observations rows)).map EvidenceRow.observation = none) :
    ∀ r ∈ rows, r.key ≠ (EvidenceRow.observation o).key := by
  intro r hr hkey
  cases r with
  | snapshot r => cases hkey
  | observation r =>
    exact hfind (Option.map_eq_none_iff.mp h) r (EvidenceRow.mem_observations.mpr hr)
      (EvidenceKey.observation.inj hkey)

/-- Look a snapshot up by its content, and an observation by the columns of its key. -/
def lookRow : LookUp EvidenceRow.key where
  find
    | .snapshot s, rows => findContent s rows
    | .observation o, rows =>
      (existingObservation (EvidenceRow.observations rows) o).map .observation
  sound {row rows r} h := by
    cases row with
    | snapshot s => exact findContent_sound h
    | observation o =>
      refine findObservation_sound (existingObservation · o) (fun {rows found} hfind => ?_) h
      have hkey := List.find?_some hfind
      rw [decide_eq_true_eq] at hkey
      exact ⟨List.mem_of_find?_eq_some hfind, naturalKey_eq_iff.mpr hkey⟩
  complete {row rows} h := by
    cases row with
    | snapshot s => exact findContent_complete h
    | observation o =>
      exact findObservation_complete (existingObservation · o) existingObservation_eq_none_iff.mp h

/-- Look a row up again: of several observations the one that was created last. -/
def rereadRow : LookUp EvidenceRow.key where
  find
    | .snapshot s, rows => findContent s rows
    | .observation o, rows =>
      (latest Observation.createdAt ((EvidenceRow.observations rows).filter fun r =>
        r.naturalKey = o.naturalKey)).map .observation
  sound {row rows r} h := by
    cases row with
    | snapshot s => exact findContent_sound h
    | observation o =>
      refine findObservation_sound (fun rows => latest Observation.createdAt
        (rows.filter fun r => r.naturalKey = o.naturalKey)) (fun {rows found} hfind => ?_) h
      obtain ⟨hmem, hkey⟩ := List.mem_filter.mp (mem_of_latest_eq_some hfind)
      exact ⟨hmem, of_decide_eq_true hkey⟩
  complete {row rows} h := by
    cases row with
    | snapshot s => exact findContent_complete h
    | observation o =>
      refine findObservation_complete (fun rows => latest Observation.createdAt
        (rows.filter fun r => r.naturalKey = o.naturalKey)) (fun {rows} hfind r hr hkey => ?_) h
      have hnone := latest_eq_none_iff.mp hfind
      rw [List.filter_eq_nil_iff] at hnone
      exact hnone r hr (decide_eq_true hkey)

/-! ## Writers -/

/-- The instant a connector reports for an observation. -/
inductive ObservedAt where
  | given (instant : Time)
  | unreadable
  /-- There is none, or one that is no text and no instant. -/
  | missing
deriving DecidableEq

/-- One observation as a connector reports it, before its instant is read. -/
structure RawPayload where
  predicate : Str
  objectValue : Str
  observedAt : ObservedAt
  confidence : Option ℚ := some 1
  sourceLocator : Option Json := none

/-- The payload as it is read at an instant: the instant replaces a missing one. -/
def RawPayload.readAt (p : RawPayload) (now : Time) : Payload where
  predicate := p.predicate
  objectValue := p.objectValue
  observedAt := match p.observedAt with
    | .given observedAt => some observedAt
    | .unreadable => none
    | .missing => some now
  confidence := p.confidence
  sourceLocator := p.sourceLocator

/-- The checks that a payload passes before it is looked up. -/
def Payload.admissible (now : Time) (p : Payload) : Bool :=
  match p.observedAt, p.confidence with
  | some observedAt, some confidence =>
    decide (observedAt ≤ now + 300000000) && decide (p.predicate.strip ≠ []) &&
      decide (p.objectValue.strip ≠ []) && decide (0 ≤ confidence) && decide (confidence ≤ 1)
  | _, _ => false

/-- What is collected, and the clocks and ids of the writers `T` that collect it. -/
structure ConcurrentWrite (T : Type*) where
  md5 : List UInt8 → Str
  sourceType : Str
  uri : Str
  contentHash : Str
  licenseHint : Option Json := none
  payloads : List RawPayload
  subjectId : Option Uuid
  opportunityId : Option Uuid := none
  collectedAt : T → Time
  now : T → Time
  draw : T → ℕ → Uuid

namespace ConcurrentWrite

variable {T : Type*} (w : ConcurrentWrite T)

/-- What is collected, without the observations. -/
def content : Collected where
  sourceType := w.sourceType
  uri := w.uri
  contentHash := w.contentHash
  licenseHint := w.licenseHint
  observations := []

/-- `snapshot_persistence_fingerprint` of the content. -/
def contentFingerprint : Str := fingerprint w.md5 [w.uri, w.sourceType, w.contentHash]

/-- The snapshot that a writer inserts. -/
def snapshotRow (t : T) : SourceSnapshot where
  id := w.draw t 0
  uri := w.uri
  sourceType := w.sourceType
  contentHash := w.contentHash
  persistenceFingerprint := some w.contentFingerprint
  sourceUsePolicy := buildSourceUsePolicy w.sourceType w.licenseHint
  collectedAt := w.collectedAt t

/-- The observation a payload is admitted as; its id is drawn when it is inserted. -/
def accept (t : T) (snapshot : SourceSnapshot) (p : RawPayload) : Option Observation :=
  admitPayload w.md5 (w.now t) 0 snapshot w.subjectId w.opportunityId (p.readAt (w.now t))

/-- The observations that a writer goes through. -/
def admitted (t : T) (snapshot : SourceSnapshot) : List Observation :=
  w.payloads.filterMap (w.accept t snapshot)

/-- The row a writer wants after the rows it has found: the snapshot, and then the observations. -/
def want (t : T) : List EvidenceRow → Option EvidenceRow
  | [] => some (.snapshot (w.snapshotRow t))
  | .snapshot s :: written =>
    if s.sourceUsePolicy.allowsModelUse then
      (w.admitted t s)[written.length]?.map fun o =>
        .observation { o with id := w.draw t (written.length + 1) }
    else none
  | .observation _ :: _ => none

/-- The state after a schedule, from a database that no writer has touched. -/
def run [Fintype T] [DecidableEq T] (db : Db) (schedule : List T) :
    State T EvidenceRow Empty (GetOrInsert.Stage EvidenceRow) :=
  History.replay (step (program lookRow rereadRow w.want) EvidenceRow.Clash)
    (start (evidenceRows db) fun _ => {}) schedule

/-- `_write_snapshot` inserts the same row when it runs alone. -/
lemma writeSnapshot_eq (t : T) (db : Db) :
    writeSnapshot w.md5 (w.collectedAt t) (w.draw t 0) w.content db =
      match findSnapshot w.content db.sourceSnapshots with
      | some existing => some (db, existing)
      | none => (insertSnapshot db.sourceSnapshots (w.snapshotRow t)).map fun rows =>
        ({ db with sourceSnapshots := rows }, w.snapshotRow t) := rfl

/-- The key under which a payload is stored. -/
def payloadKey (snapshotId : Uuid) (p : RawPayload) : NaturalKey where
  snapshotId := snapshotId
  subjectId := w.subjectId
  opportunityId := w.opportunityId
  predicate := p.predicate
  objectValue := p.objectValue
  extractorVersion := w.sourceType ++ "-v1".toList

/-- The writer admits the payload. -/
def Admits (t : T) (p : RawPayload) : Prop :=
  (p.readAt (w.now t)).admissible (w.now t) = true

instance (t : T) : DecidablePred (w.Admits t) :=
  fun p => inferInstanceAs (Decidable ((p.readAt (w.now t)).admissible (w.now t) = true))

/-- The writers admit the same payloads. -/
def ClocksAgree : Prop := ∀ p ∈ w.payloads, ∀ t u, w.Admits t p → w.Admits u p

/-- A snapshot of the content that is there or may come. -/
def SnapshotId (db : Db) (id : Uuid) : Prop :=
  (∃ s ∈ db.sourceSnapshots, s.Holds w.content ∧ s.id = id) ∨ ∃ t, w.draw t 0 = id

/-- A key under which an observation may be stored. -/
def Wanted (db : Db) (key : NaturalKey) : Prop :=
  ∃ id, w.SnapshotId db id ∧ ∃ p ∈ w.payloads, key = w.payloadKey id p

/-- The database holds no key twice, its fingerprints stand for the columns beside them as far as
they concern the writers, the digest does not collide on the keys that are wanted, and the ids
drawn are new. -/
structure Consistent (db : Db) : Prop where
  unique : ((evidenceRows db).map EvidenceRow.key).Nodup
  contentFingerprint : ∀ s ∈ db.sourceSnapshots,
    s.persistenceFingerprint = some w.contentFingerprint → s.Holds w.content
  fingerprint : ∀ o ∈ db.observations, ∀ key, w.Wanted db key →
    o.persistenceFingerprint = some (key.fingerprint w.md5) → o.naturalKey = key
  noCollision : ∀ key, w.Wanted db key → ∀ key', w.Wanted db key' →
    key.fingerprint w.md5 = key'.fingerprint w.md5 → key = key'
  unusedSnapshot : ∀ t, ∀ s ∈ db.sourceSnapshots, s.id ≠ w.draw t 0
  unused : ∀ t, ∀ i ≤ w.payloads.length, ∀ o ∈ db.observations, o.id ≠ w.draw t i
  distinct : ∀ t u, ∀ i ≤ w.payloads.length, ∀ j ≤ w.payloads.length,
    w.draw t i = w.draw u j → t = u ∧ i = j

/-! ## What the writers want -/

section Want

variable {w} {t u : T} {db : Db} {snapshot : SourceSnapshot} {p : RawPayload} {o : Observation}
  {found : List EvidenceRow} {row : EvidenceRow}

/-- An admitted payload is an observation under its key and with the fingerprint of the key. -/
lemma key_of_accept (htype : snapshot.sourceType = w.sourceType)
    (h : w.accept t snapshot p = some o) :
    o.naturalKey = w.payloadKey snapshot.id p ∧
      o.persistenceFingerprint = some ((w.payloadKey snapshot.id p).fingerprint w.md5) := by
  obtain ⟨observedAt, -, h⟩ := Option.bind_eq_some_iff.mp h
  obtain ⟨confidence, -, h⟩ := Option.bind_eq_some_iff.mp h
  split_ifs at h
  cases h
  unfold payloadKey
  rw [← htype]
  exact ⟨rfl, rfl⟩

/-- Whether a payload is admitted does not depend on the snapshot. -/
lemma isSome_accept_iff : (w.accept t snapshot p).isSome = true ↔ w.Admits t p := by
  have hguard : ∀ (c : Prop) [Decidable c] (rest : Option Observation),
      (if c then none else rest).isSome = true ↔ ¬ c ∧ rest.isSome = true := by
    intro c _ rest
    by_cases hc : c
    · rw [if_pos hc]
      exact iff_of_false (by simp) fun h => h.1 hc
    · rw [if_neg hc]
      exact ⟨fun h => ⟨hc, h⟩, And.right⟩
  unfold accept Admits Payload.admissible admitPayload
  cases (p.readAt (w.now t)).observedAt with
  | none => exact iff_of_false (fun h => by cases h) fun h => by cases h
  | some observedAt =>
    cases (p.readAt (w.now t)).confidence with
    | none => exact iff_of_false (fun h => by cases h) fun h => by cases h
    | some confidence =>
      simp only [Option.bind_eq_bind, Option.bind_some, hguard, Bool.and_eq_true,
        decide_eq_true_eq, Option.isSome_some, not_lt, not_or, and_true, and_assoc, ne_eq]

/-- The keys a writer goes through. -/
lemma map_naturalKey_admitted (htype : snapshot.sourceType = w.sourceType) :
    (w.admitted t snapshot).map Observation.naturalKey =
      (w.payloads.filter fun p => w.Admits t p).map (w.payloadKey snapshot.id) := by
  unfold admitted
  induction w.payloads with
  | nil => rfl
  | cons p payloads ih =>
    have hiff : (w.accept t snapshot p).isSome = true ↔ w.Admits t p := isSome_accept_iff
    cases haccept : w.accept t snapshot p with
    | none =>
      have hnot : ¬ w.Admits t p := by
        rw [← hiff, haccept]
        exact Bool.false_ne_true
      rw [List.filterMap_cons_none haccept, List.filter_cons_of_neg (by simpa using hnot), ih]
    | some o =>
      have hadmits : w.Admits t p := by
        rw [← hiff, haccept]
        rfl
      rw [List.filterMap_cons_some haccept, List.filter_cons_of_pos (by simpa using hadmits),
        List.map_cons, List.map_cons, ih, (key_of_accept htype haccept).1]

lemma want_snapshot {written : List EvidenceRow} :
    w.want t (.snapshot snapshot :: written) =
      if snapshot.sourceUsePolicy.allowsModelUse then
        (w.admitted t snapshot)[written.length]?.map fun o =>
          .observation { o with id := w.draw t (written.length + 1) }
      else none := rfl

/-- A writer wants the snapshot first, and then the observations. -/
lemma want_cases (h : w.want t found = some row) :
    (found = [] ∧ row = .snapshot (w.snapshotRow t)) ∨
      ∃ s written o, found = .snapshot s :: written ∧ (w.admitted t s)[written.length]? = some o ∧
        row = .observation { o with id := w.draw t (written.length + 1) } := by
  unfold want at h
  split at h
  · cases h
    exact Or.inl ⟨rfl, rfl⟩
  · next s written =>
    split_ifs at h
    obtain ⟨o, ho, rfl⟩ := Option.map_eq_some_iff.mp h
    exact Or.inr ⟨s, written, o, rfl, ho, rfl⟩
  · cases h

/-- The snapshot that a writer has found holds the content, and was there or is one that a writer
inserts. -/
lemma holds_of_found (h : Found EvidenceRow.key w.want (evidenceRows db) found) :
    found = [] ∨ ∃ s written, found = .snapshot s :: written ∧ s.Holds w.content ∧
      (s ∈ db.sourceSnapshots ∨ ∃ u, s = w.snapshotRow u) := by
  have hextend : ∀ {found : List EvidenceRow} {r : EvidenceRow},
      (∃ s written, found = .snapshot s :: written ∧ s.Holds w.content ∧
        (s ∈ db.sourceSnapshots ∨ ∃ u, s = w.snapshotRow u)) →
      ∃ s written, found ++ [r] = .snapshot s :: written ∧ s.Holds w.content ∧
        (s ∈ db.sourceSnapshots ∨ ∃ u, s = w.snapshotRow u) := by
    rintro found r ⟨s, written, rfl, hs⟩
    exact ⟨s, written ++ [r], rfl, hs⟩
  have hcontent : ∀ {r : EvidenceRow} {t : T},
      r.key = (EvidenceRow.snapshot (w.snapshotRow t)).key →
      ∃ s, r = .snapshot s ∧ s.Holds w.content := by
    intro r t hkey
    cases r with
    | snapshot s =>
      obtain ⟨huri, htype, hhash⟩ := EvidenceKey.snapshot.inj hkey
      exact ⟨s, rfl, huri, htype, hhash⟩
    | observation o => cases hkey
  induction h with
  | nil => exact Or.inl rfl
  | initial hfound hwant hr hkey ih =>
    right
    rcases ih with rfl | hs
    · rcases want_cases hwant with ⟨-, rfl⟩ | ⟨s, written, o, hnil, -⟩
      · obtain ⟨s, rfl, hs⟩ := hcontent hkey
        exact ⟨s, [], rfl, hs, Or.inl (by simpa [evidenceRows] using hr)⟩
      · cases hnil
    · exact hextend hs
  | made hfound hwant hfound' hmade hkey ih =>
    right
    rcases ih with rfl | hs
    · rcases want_cases hwant with ⟨-, rfl⟩ | ⟨s, written, o, hnil, -⟩
      · obtain ⟨s, rfl, hs⟩ := hcontent hkey
        rcases want_cases hmade with ⟨-, heq⟩ | ⟨s', written', o, -, -, heq⟩
        · obtain rfl := EvidenceRow.snapshot.inj heq
          exact ⟨_, [], rfl, hs, Or.inr ⟨_, rfl⟩⟩
        · cases heq
      · cases hnil
    · exact hextend hs

/-- The id of such a snapshot. -/
lemma snapshotId_of_found (hholds : snapshot.Holds w.content)
    (h : snapshot ∈ db.sourceSnapshots ∨ ∃ u, snapshot = w.snapshotRow u) :
    w.SnapshotId db snapshot.id := by
  rcases h with hmem | ⟨u, rfl⟩
  · exact Or.inl ⟨snapshot, hmem, hholds, rfl⟩
  · exact Or.inr ⟨u, rfl⟩

/-- What a writer makes at a position: the snapshot, or an observation under a key wanted. -/
lemma made_cases {i : ℕ} (h : Made EvidenceRow.key w.want (evidenceRows db) t i row) :
    (i = 0 ∧ row = .snapshot (w.snapshotRow t)) ∨
      ∃ o key, row = .observation o ∧ 0 < i ∧ i ≤ w.payloads.length ∧ o.id = w.draw t i ∧
        w.Wanted db key ∧ o.naturalKey = key ∧
        o.persistenceFingerprint = some (key.fingerprint w.md5) := by
  obtain ⟨found, hfound, rfl, hwant⟩ := h
  rcases want_cases hwant with ⟨rfl, rfl⟩ | ⟨s, written, o, rfl, ho, rfl⟩
  · exact Or.inl ⟨rfl, rfl⟩
  · rcases holds_of_found hfound with hnil | ⟨s', written', heq, hholds, hfrom⟩
    · cases hnil
    · obtain ⟨hs, rfl⟩ := List.cons.inj heq
      obtain rfl := EvidenceRow.snapshot.inj hs
      obtain ⟨p, hp, haccept⟩ := List.mem_filterMap.mp (List.mem_of_getElem? ho)
      obtain ⟨hkey, hfingerprint⟩ := key_of_accept hholds.2.1 haccept
      have hlt := (List.getElem?_eq_some_iff.mp ho).1
      have hle : (w.admitted t s).length ≤ w.payloads.length := List.length_filterMap_le ..
      refine Or.inr ⟨_, _, rfl, Nat.succ_pos _, ?_, rfl,
        ⟨s.id, snapshotId_of_found hholds hfrom, p, hp, rfl⟩, hkey, hfingerprint⟩
      rw [List.length_cons]
      omega

/-- **The writers cooperate** if they admit the same payloads and the database is consistent.

**Proof sketch.** Two rows that writers make differ in their ids, so they clash exactly if their
fingerprints agree, which stand for their keys. -/
theorem cooperative (hclocks : w.ClocksAgree) (hdb : w.Consistent db) :
    Cooperative EvidenceRow.key w.want (evidenceRows db) EvidenceRow.Clash where
  same found hfound t u := by
    rcases holds_of_found hfound with rfl | ⟨s, written, rfl, hs, -⟩
    · rfl
    · have hfilter : (w.payloads.filter fun p => w.Admits t p) =
          w.payloads.filter fun p => w.Admits u p := by
        refine List.filter_congr fun p hp => ?_
        exact decide_eq_decide.mpr ⟨hclocks p hp t u, hclocks p hp u t⟩
      have hkeys : (w.admitted t s).map Observation.naturalKey =
          (w.admitted u s).map Observation.naturalKey := by
        rw [map_naturalKey_admitted hs.2.1, map_naturalKey_admitted hs.2.1, hfilter]
      have hkey : ∀ v, (w.want v (.snapshot s :: written)).map EvidenceRow.key =
          if s.sourceUsePolicy.allowsModelUse then
            (((w.admitted v s).map Observation.naturalKey)[written.length]?).map
              EvidenceKey.observation
          else none := by
        intro v
        rw [want_snapshot]
        split_ifs
        · rw [List.getElem?_map, Option.map_map, Option.map_map]
          rfl
        · rfl
      rw [hkey, hkey, hkeys]
  unique := hdb.unique
  clash_initial t i row hmade r hr hclash := by
    rcases made_cases hmade with ⟨-, rfl⟩ | ⟨o, key, rfl, -, hi, hid, hkey, hokey, hfingerprint⟩
    · cases r with
      | snapshot s =>
        have hs : s ∈ db.sourceSnapshots := by simpa [evidenceRows] using hr
        rcases hclash with hid | ⟨-, hfingerprint⟩
        · exact absurd hid (hdb.unusedSnapshot t s hs)
        · obtain ⟨huri, htype, hhash⟩ := hdb.contentFingerprint s hs hfingerprint
          simp only [EvidenceRow.key, huri, htype, hhash]
          rfl
      | observation o => exact hclash.elim
    · cases r with
      | snapshot s => exact hclash.elim
      | observation o' =>
        have ho' : o' ∈ db.observations := by simpa [evidenceRows] using hr
        rcases hclash with hid' | ⟨-, hfingerprint'⟩
        · exact absurd (hid'.trans hid) (hdb.unused t i hi o' ho')
        · have hkey' := hdb.fingerprint o' ho' key hkey (hfingerprint'.trans hfingerprint)
          exact congrArg EvidenceKey.observation (hkey'.trans hokey.symm)
  clash_made t i row u j r hrow hr hne := by
    rcases made_cases hrow with ⟨rfl, rfl⟩ | ⟨o, key, rfl, -, hi, hid, hkey, hokey, hfingerprint⟩
    · rcases made_cases hr with ⟨rfl, rfl⟩ | ⟨o', key', rfl, -⟩
      · exact ⟨fun _ => rfl, fun _ => Or.inr ⟨rfl, rfl⟩⟩
      · exact ⟨False.elim, nofun⟩
    · rcases made_cases hr with ⟨rfl, rfl⟩ |
        ⟨o', key', rfl, -, hj, hid', hkey', hokey', hfingerprint'⟩
      · exact ⟨False.elim, nofun⟩
      · constructor
        · rintro (heq | ⟨-, heq⟩)
          · rw [hid, hid'] at heq
            obtain ⟨rfl, rfl⟩ := hdb.distinct u t j hj i hi heq
            exact absurd rfl hne
          · rw [hfingerprint, hfingerprint', Option.some.injEq] at heq
            have hsame := hdb.noCollision key' hkey' key hkey heq
            exact congrArg EvidenceKey.observation (by rw [hokey, hokey', hsame])
        · intro heq
          have hsame := EvidenceKey.observation.inj heq
          rw [hokey, hokey'] at hsame
          exact Or.inr ⟨by rw [hfingerprint]; rfl, by rw [hfingerprint, hfingerprint', hsame]⟩

end Want

/-! ## Results -/

/-- The content may be used: the policy it is stored under allows it, and so do the policies of the
snapshots that hold it. -/
def PolicyAllows (db : Db) : Prop :=
  (buildSourceUsePolicy w.sourceType w.licenseHint).allowsModelUse = true ∧
    ∀ s ∈ db.sourceSnapshots, s.Holds w.content → s.sourceUsePolicy.allowsModelUse = true

/-- The ids that a writer returns: that of the snapshot and those of the observations. -/
def returned (stage : GetOrInsert.Stage EvidenceRow) : Option (Uuid × List Uuid) :=
  match stage.found with
  | .snapshot s :: written => some (s.id, (EvidenceRow.observations written).map Observation.id)
  | _ => none

/-- No writer has failed, those that are done have returned the same ids, and every key is stored
exactly once. -/
structure Agreed (s : State T EvidenceRow Empty (GetOrInsert.Stage EvidenceRow)) : Prop where
  noFailure : ∀ t, (s.tx t).stage.doing ≠ .raising ∧ (s.tx t).stage.doing ≠ .failed
  sameIds : ∀ t u, (s.tx t).stage.doing = .done → (s.tx u).stage.doing = .done →
    returned (s.tx t).stage = returned (s.tx u).stage
  storedOnce : ∀ t, (s.tx t).stage.doing = .done → ∃ snapshotId ids,
    returned (s.tx t).stage = some (snapshotId, ids) ∧
      (s.committed.map EvidenceRow.key).Nodup ∧
      (s.committed.map EvidenceRow.key).count
        (.snapshot w.uri w.sourceType w.contentHash) = 1 ∧
      ∀ p ∈ w.payloads, w.Admits t p →
        (s.committed.map EvidenceRow.key).count (.observation (w.payloadKey snapshotId p)) = 1

section Results

variable {w} {db : Db} {t : T} {s : State T EvidenceRow Empty (GetOrInsert.Stage EvidenceRow)}

/-- A writer that is done has gone through everything it admits. -/
lemma storedOnce_of_inv (hpolicy : w.PolicyAllows db)
    (h : Inv EvidenceRow.key w.want (evidenceRows db) s) (ht : (s.tx t).stage.doing = .done) :
    ∃ snapshotId ids, returned (s.tx t).stage = some (snapshotId, ids) ∧
      (s.committed.map EvidenceRow.key).Nodup ∧
      (s.committed.map EvidenceRow.key).count
        (.snapshot w.uri w.sourceType w.contentHash) = 1 ∧
      ∀ p ∈ w.payloads, w.Admits t p →
        (s.committed.map EvidenceRow.key).count (.observation (w.payloadKey snapshotId p)) = 1 := by
  obtain ⟨hwant, hpending⟩ := (h.each t).settled ht
  have hunique : (s.committed.map EvidenceRow.key).Nodup := by
    have hunique := (h.each t).unique
    rwa [hpending, List.append_nil] at hunique
  have hcount : ∀ r ∈ (s.tx t).stage.found,
      (s.committed.map EvidenceRow.key).count r.key = 1 := by
    intro r hr
    have hmem := State.mem_visible.mp (h.mem_visible hr)
    rw [hpending] at hmem
    exact List.count_eq_one_of_mem hunique (List.mem_map_of_mem (hmem.resolve_right nofun))
  rcases holds_of_found (h.each t).found with hnil | ⟨snapshot, written, hfound, hholds, hfrom⟩
  · rw [hnil] at hwant
    cases hwant
  · have hallows : snapshot.sourceUsePolicy.allowsModelUse = true := by
      rcases hfrom with hmem | ⟨u, rfl⟩
      · exact hpolicy.2 snapshot hmem hholds
      · exact hpolicy.1
    refine ⟨snapshot.id, (EvidenceRow.observations written).map Observation.id, ?_, hunique, ?_, ?_⟩
    · rw [returned, hfound]
    · have hsnapshot := hcount (.snapshot snapshot) (by rw [hfound]; exact List.mem_cons_self ..)
      rw [EvidenceRow.key, hholds.1, hholds.2.1, hholds.2.2] at hsnapshot
      exact hsnapshot
    · intro p hp hadmits
      have hdone : (w.admitted t snapshot).length ≤ written.length := by
        rw [hfound, want_snapshot, if_pos hallows, Option.map_eq_none_iff,
          List.getElem?_eq_none_iff] at hwant
        exact hwant
      have hsome : (w.accept t snapshot p).isSome = true := isSome_accept_iff.mpr hadmits
      obtain ⟨o, haccept⟩ := Option.isSome_iff_exists.mp hsome
      have hmem : o ∈ w.admitted t snapshot := List.mem_filterMap.mpr ⟨p, hp, haccept⟩
      obtain ⟨i, hi, ho⟩ := List.getElem_of_mem hmem
      have hlt : i < written.length := Nat.lt_of_lt_of_le hi hdone
      have hpre : (EvidenceRow.snapshot snapshot :: written.take i) ++ [written[i]] <+:
          (s.tx t).stage.found := by
        rw [hfound, List.cons_append, ← List.take_succ_eq_append_getElem hlt]
        exact List.prefix_cons_inj _ |>.mpr (List.take_prefix ..)
      obtain ⟨-, row, hrow, hkey⟩ := (h.each t).obtained _ _ hpre
      have ho' : (w.admitted t snapshot)[i]? = some o := by
        rw [List.getElem?_eq_getElem hi, ho]
      rw [want_snapshot, if_pos hallows, List.length_take_of_le hlt.le, ho', Option.map_some,
        Option.some.injEq] at hrow
      have hstored := hcount written[i]
        (hpre.subset (List.mem_append_right _ (List.mem_singleton_self _)))
      rw [hkey, ← hrow] at hstored
      have hokey := (key_of_accept hholds.2.1 haccept).1
      rw [← hokey]
      exact hstored

/-- A state of a run in which the invariant holds is agreed. -/
lemma agreed_of_inv (hcooperative : Cooperative EvidenceRow.key w.want (evidenceRows db)
      EvidenceRow.Clash) (hpolicy : w.PolicyAllows db)
    (h : Inv EvidenceRow.key w.want (evidenceRows db) s) : w.Agreed s where
  noFailure t := (h.each t).fine
  sameIds t u ht hu := by
    rw [returned, returned, h.found_eq hcooperative ht hu]
  storedOnce t ht := storedOnce_of_inv hpolicy h ht

/-- A writer wants at most the snapshot and one row for each payload. -/
lemma length_lt_of_want {found : List EvidenceRow} {row : EvidenceRow}
    (h : w.want t found = some row) : found.length < w.payloads.length + 1 := by
  rcases want_cases h with ⟨rfl, -⟩ | ⟨s, written, o, rfl, ho, -⟩
  · exact Nat.succ_pos _
  · have hlt := (List.getElem?_eq_some_iff.mp ho).1
    have hle : (w.admitted t s).length ≤ w.payloads.length := List.length_filterMap_le ..
    rw [List.length_cons]
    omega

end Results

end ConcurrentWrite

/-- **Concurrent collectors agree.** If the writers admit the same payloads, the database is
consistent and the content may be used, then under every schedule no writer fails, those that are
done return the same ids, every key is stored exactly once, and the run can be continued until all
are done.

**Proof sketch.** The writers cooperate, so at any time at most one of them holds uncommitted rows.
The others wait for it at the first of these rows, find the rest afterwards, and are never waited
for. -/
theorem concurrentWrites_agree {T : Type*} [Fintype T] [DecidableEq T] (w : ConcurrentWrite T)
    (db : Db) (hclocks : w.ClocksAgree) (hdb : w.Consistent db) (hpolicy : w.PolicyAllows db)
    (schedule : List T) :
    w.Agreed (w.run db schedule) ∧
      ∃ rest, ∀ t, ((w.run db (schedule ++ rest)).tx t).stage.doing = .done := by
  have hcooperative := w.cooperative hclocks hdb
  have hinv : Inv EvidenceRow.key w.want (evidenceRows db) (w.run db schedule) :=
    run_invariant (fun _ _ _ h hstep => inv_of_executed hcooperative h hstep)
      (inv_start hcooperative) schedule
  refine ⟨ConcurrentWrite.agreed_of_inv hcooperative hpolicy hinv, ?_⟩
  obtain ⟨rest, hdone⟩ := hinv.exists_completion lookRow rereadRow hcooperative
    fun _ _ _ => ConcurrentWrite.length_lt_of_want
  refine ⟨rest, fun t => ?_⟩
  rw [ConcurrentWrite.run, History.replay_append]
  exact hdone t

/-- One fact about a person. -/
def rolePayload : RawPayload where
  predicate := "role"
  objectValue := "founder"
  observedAt := .given 300000001

/-- The fact, collected twice: two writers with the given clocks, and an empty
database. -/
def twoWriters (now : Bool → Time) : ConcurrentWrite Bool where
  md5 := byteDigest
  sourceType := "inbound_deck"
  uri := "https://example.com/ada"
  contentHash := "c0"
  payloads := [rolePayload]
  subjectId := some 1
  collectedAt := now
  now := now
  draw writer i := Fin.ofNat _ (2 * i + writer.toNat)

/-- The key of the fact on the snapshot of a writer. -/
def roleKey (writer : Bool) : NaturalKey :=
  (twoWriters fun _ => 0).payloadKey ((twoWriters fun _ => 0).draw writer 0) rolePayload

/-- What the writers rely on does not depend on their clocks. -/
lemma twoWriters_consistent (now : Bool → Time) : (twoWriters now).Consistent {} where
  unique := List.nodup_nil
  contentFingerprint := nofun
  fingerprint := nofun
  noCollision := by
    have hkeys : ∀ key, (twoWriters now).Wanted {} key → ∃ t, key = roleKey t := by
      rintro key ⟨id, ⟨s, hs, -⟩ | ⟨t, rfl⟩, p, hp, rfl⟩
      · cases hs
      · rw [List.mem_singleton.mp hp]
        exact ⟨t, rfl⟩
    rintro _ hkey _ hkey' heq
    obtain ⟨t, rfl⟩ := hkeys _ hkey
    obtain ⟨u, rfl⟩ := hkeys _ hkey'
    have hdistinct : ∀ t u : Bool, (roleKey t).fingerprint byteDigest =
        (roleKey u).fingerprint byteDigest → roleKey t = roleKey u := by decide +kernel
    exact hdistinct t u heq
  unusedSnapshot := nofun
  unused := nofun
  distinct := by
    change ∀ t u : Bool, ∀ i ≤ 1, ∀ j ≤ 1,
      Fin.ofNat (2 ^ 128) (2 * i + t.toNat) = Fin.ofNat (2 ^ 128) (2 * j + u.toNat) → t = u ∧ i = j
    decide

lemma twoWriters_policyAllows (now : Bool → Time) : (twoWriters now).PolicyAllows {} :=
  ⟨rfl, nofun⟩

/-- Two writers with one clock agree. Both have looked for the snapshot before one inserts it; the
other waits, is refused after the commit, and finds it. -/
theorem concurrentWrites_agree_oneClock :
    let w := twoWriters fun _ => 5
    let schedule := [false, true, false, true, false, false, false, true, true, true, true]
    w.Agreed (w.run {} schedule) ∧
      ∃ rest, ∀ t, ((w.run {} (schedule ++ rest)).tx t).stage.doing = .done :=
  concurrentWrites_agree (twoWriters fun _ => 5) {} (fun _ _ _ _ h => h) (twoWriters_consistent _)
    (twoWriters_policyAllows _) _

/-- The fact is dated between the limits of two writers whose clocks are a microsecond apart. The
one that is behind rejects it, and they return different ids. -/
theorem concurrentWrites_disagree_betweenLimits :
    let w := twoWriters fun writer => if writer then 1 else 0
    let s := w.run {} [false, false, false, true, true, true, true]
    w.Consistent {} ∧ w.PolicyAllows {} ∧ (∀ t, (s.tx t).stage.doing = .done) ∧
      ConcurrentWrite.returned (s.tx false).stage ≠ ConcurrentWrite.returned (s.tx true).stage :=
  ⟨twoWriters_consistent _, twoWriters_policyAllows _, by decide +kernel, by decide +kernel⟩

end VCBrain
