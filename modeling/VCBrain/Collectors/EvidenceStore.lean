import VCBrain.Collectors.FingerprintHistory

set_option relaxedAutoImplicit false
set_option autoImplicit false

/-!
# Stored evidence

A collector writes the snapshot of what it has collected and then the observations. Evidence is
stored if writing it again would find everything.

## Main definitions

* `writeEvidence` — the snapshot and the observations.
* `Stored` — everything a writer would write is there.

## Main results

* `writeEvidence_of_stored` — writing stored evidence changes nothing.
* `writeEvidence_appends`, `stored_writeEvidence` — writing appends rows, after which the evidence
  is stored.
* `Stored.writeEvidence` — it stays stored whatever is written later.
-/

namespace VCBrain

/-- The arguments of the writers beside what was collected. -/
structure EvidenceWriter where
  md5 : List UInt8 → Str
  now : Time
  subjectId : Option Uuid
  opportunityId : Option Uuid := none

/-- The ids drawn by one write. -/
structure EvidenceIds where
  snapshotId : Uuid
  draw : ℕ → Uuid

/-- The content of a snapshot is what was collected. -/
def SourceSnapshot.Holds (c : Collected) (s : SourceSnapshot) : Prop :=
  s.uri = c.uri ∧ s.sourceType = c.sourceType ∧ s.contentHash = c.contentHash

instance (c : Collected) : DecidablePred (SourceSnapshot.Holds c) :=
  fun _ => inferInstanceAs (Decidable (_ ∧ _ ∧ _))

/-- The snapshot that a writer finds. -/
def findSnapshot (c : Collected) (rows : List SourceSnapshot) : Option SourceSnapshot :=
  newestSnapshot (rows.filter fun s => s.Holds c)

section Writer

variable (w : EvidenceWriter)

/-- `_write_snapshot` followed by `_write_observations`; `none` is an `IntegrityError`. -/
def writeEvidence (ids : EvidenceIds) (c : Collected) (db : Db) : Option Db :=
  (writeSnapshot w.md5 w.now ids.snapshotId c db).bind fun (db, snapshot) =>
    (writeObservations w.md5 w.now ids.draw snapshot c.observations w.subjectId w.opportunityId
      db).map Prod.fst

/-- The observation a payload is admitted as. -/
def EvidenceWriter.accept (snapshot : SourceSnapshot) (newId : Uuid) (p : Payload) :
    Option Observation :=
  admitPayload w.md5 w.now newId snapshot w.subjectId w.opportunityId p

/-- The snapshot is there, and if it may be used each observation that is admitted as well. -/
def Stored (db : Db) (c : Collected) : Prop :=
  ∃ snapshot ∈ findSnapshot c db.sourceSnapshots,
    snapshot.sourceUsePolicy.allowsModelUse = true →
      ∀ p ∈ c.observations, ∀ o ∈ w.accept snapshot 0 p,
        ∃ r ∈ db.observations, r.naturalKey = o.naturalKey

instance (db : Db) (c : Collected) : Decidable (Stored w db c) :=
  inferInstanceAs (Decidable (∃ snapshot ∈ findSnapshot c db.sourceSnapshots,
    snapshot.sourceUsePolicy.allowsModelUse = true →
      ∀ p ∈ c.observations, ∀ o ∈ w.accept snapshot 0 p,
        ∃ r ∈ db.observations, r.naturalKey = o.naturalKey))

end Writer

/-! ## Snapshots -/

section Snapshots

variable {rows : List SourceSnapshot} {s : SourceSnapshot} {c : Collected}

lemma newestSnapshot_concat {row : SourceSnapshot} : newestSnapshot (rows ++ [row]) =
    (newestSnapshot rows).elim (some row) fun n =>
      if n.collectedAt < row.collectedAt then some row else some n := by
  rw [newestSnapshot, List.foldl_append, List.foldl_cons, List.foldl_nil, ← newestSnapshot]
  cases newestSnapshot rows <;> rfl

lemma newestSnapshot_eq_none_iff : newestSnapshot rows = none ↔ rows = [] := by
  induction rows using List.reverseRecOn with
  | nil => exact iff_of_true rfl rfl
  | append_singleton rows row ih =>
    refine iff_of_false ?_ (by simp)
    rw [newestSnapshot_concat]
    cases newestSnapshot rows with
    | none => simp
    | some n =>
      rw [Option.elim_some]
      split_ifs <;> simp

/-- The newest row is one of the rows. -/
lemma mem_of_newestSnapshot (h : newestSnapshot rows = some s) : s ∈ rows := by
  induction rows using List.reverseRecOn with
  | nil => cases h
  | append_singleton rows row ih =>
    rw [newestSnapshot_concat] at h
    cases hnewest : newestSnapshot rows with
    | none =>
      rw [hnewest, Option.elim_none] at h
      obtain rfl := Option.some.inj h
      exact List.mem_append_right _ (List.mem_singleton_self _)
    | some n =>
      rw [hnewest, Option.elim_some] at h
      split_ifs at h
      · obtain rfl := Option.some.inj h
        exact List.mem_append_right _ (List.mem_singleton_self _)
      · exact List.mem_append_left _ (ih (hnewest.trans h))

/-- What is found is a row that holds the content. -/
lemma mem_of_findSnapshot (h : findSnapshot c rows = some s) : s ∈ rows ∧ s.Holds c := by
  obtain ⟨hmem, hholds⟩ := List.mem_filter.mp (mem_of_newestSnapshot h)
  exact ⟨hmem, of_decide_eq_true hholds⟩

/-- A snapshot is found if one holds the content. -/
lemma findSnapshot_eq_none_iff : findSnapshot c rows = none ↔ ∀ s ∈ rows, ¬ s.Holds c := by
  unfold findSnapshot
  rw [newestSnapshot_eq_none_iff, List.filter_eq_nil_iff]
  simp

/-- A snapshot that holds other content is not found. -/
lemma findSnapshot_append_of_not (h : ¬ s.Holds c) :
    findSnapshot c (rows ++ [s]) = findSnapshot c rows := by
  unfold findSnapshot
  rw [List.filter_append, List.filter_cons_of_neg (by simpa using h), List.filter_nil,
    List.append_nil]

/-- A snapshot is found after it was written. -/
lemma findSnapshot_append_of_none (hnone : findSnapshot c rows = none) (hs : s.Holds c) :
    findSnapshot c (rows ++ [s]) = some s := by
  unfold findSnapshot at *
  rw [newestSnapshot_eq_none_iff] at hnone
  rw [List.filter_append, hnone, List.filter_cons_of_pos (by simpa using hs)]
  rfl

/-- A writer finds the snapshot, or inserts one that holds the content. -/
lemma writeSnapshot_cases {md5 : List UInt8 → Str} {now : Time} {newId : Uuid} {db db' : Db}
    (h : writeSnapshot md5 now newId c db = some (db', s)) :
    (findSnapshot c db.sourceSnapshots = some s ∧ db' = db) ∨
      (findSnapshot c db.sourceSnapshots = none ∧ s.Holds c ∧
        db' = { db with sourceSnapshots := db.sourceSnapshots ++ [s] }) := by
  unfold writeSnapshot at h
  split at h
  · next existing hfind =>
    cases h
    exact Or.inl ⟨hfind, rfl⟩
  · next hfind =>
    obtain ⟨rows, hinsert, heq⟩ := Option.map_eq_some_iff.mp h
    cases heq
    unfold insertSnapshot at hinsert
    split_ifs at hinsert
    cases hinsert
    exact Or.inr ⟨hfind, ⟨rfl, rfl, rfl⟩, rfl⟩

end Snapshots

/-! ## Observations -/

section Observations

variable {w : EvidenceWriter} {snapshot : SourceSnapshot} {db db' : Db}

/-- The id drawn does not decide what is admitted, nor its key. -/
lemma accept_newId {newId : Uuid} {p : Payload} {o : Observation}
    (h : w.accept snapshot newId p = some o) (id : Uuid) :
    w.accept snapshot id p = some { o with id := id } := by
  obtain ⟨observedAt, hat, h⟩ := Option.bind_eq_some_iff.mp h
  obtain ⟨confidence, hconf, h⟩ := Option.bind_eq_some_iff.mp h
  unfold EvidenceWriter.accept admitPayload
  rw [hat, hconf]
  simp only [Option.bind_eq_bind, Option.bind_some]
  split_ifs at h ⊢
  cases h
  rfl

/-- The loop on observations that are there changes no row. -/
lemma foldlM_writeObservation_of_stored (accept : Uuid → Payload → Option Observation)
    {rows : List Observation} {items : List (Payload × Uuid)} {ids : List Uuid}
    (h : ∀ item ∈ items, ∀ o, accept item.2 item.1 = some o →
      ∃ r ∈ rows, r.naturalKey = o.naturalKey) :
    ∃ ids', items.foldlM (writeObservation accept) (rows, ids) = some (rows, ids') := by
  induction items generalizing ids with
  | nil => exact ⟨ids, rfl⟩
  | cons item items ih =>
    have hrest := fun ids => @ih ids fun next hnext => h next (List.mem_cons_of_mem _ hnext)
    have hround : ∃ ids', writeObservation accept (rows, ids) item = some (rows, ids') := by
      unfold writeObservation
      cases haccept : accept item.2 item.1 with
      | none => exact ⟨ids, rfl⟩
      | some o =>
        obtain ⟨r, hr, hkey⟩ := h item (List.mem_cons_self ..) o haccept
        cases hlook : existingObservation rows o with
        | none => exact absurd hkey (existingObservation_eq_none_iff.mp hlook r hr)
        | some existing => exact ⟨ids ++ [existing.id], by simp only [hlook]⟩
    obtain ⟨ids₁, hround⟩ := hround
    obtain ⟨ids', hrest⟩ := hrest ids₁
    exact ⟨ids', by rw [List.foldlM_cons, hround]; exact hrest⟩

/-- After the loop the rows are extended, and every observation that is admitted is there. -/
lemma foldlM_writeObservation_stores (accept : Uuid → Payload → Option Observation)
    {items : List (Payload × Uuid)} {st st' : List Observation × List Uuid}
    (h : items.foldlM (writeObservation accept) st = some st') :
    (∃ added, st'.1 = st.1 ++ added) ∧ ∀ item ∈ items, ∀ o, accept item.2 item.1 = some o →
      ∃ r ∈ st'.1, r.naturalKey = o.naturalKey := by
  induction items generalizing st with
  | nil =>
    obtain rfl : st = st' := by simpa using h
    exact ⟨⟨[], (List.append_nil _).symm⟩, nofun⟩
  | cons item items ih =>
    rw [List.foldlM_cons] at h
    obtain ⟨st₁, hround, hrest⟩ := Option.bind_eq_some_iff.mp h
    obtain ⟨⟨added, hadded⟩, hstored⟩ := ih hrest
    have hfirst : (∃ first, st₁.1 = st.1 ++ first) ∧ ∀ o, accept item.2 item.1 = some o →
        ∃ r ∈ st₁.1, r.naturalKey = o.naturalKey := by
      unfold writeObservation at hround
      split at hround
      · next hnone =>
        cases hround
        exact ⟨⟨[], (List.append_nil _).symm⟩, fun o ho => by rw [hnone] at ho; cases ho⟩
      · next o haccept =>
        split at hround
        · next existing hlook =>
          cases hround
          refine ⟨⟨[], (List.append_nil _).symm⟩, fun o' ho' => ?_⟩
          obtain rfl : o = o' := Option.some.inj (haccept.symm.trans ho')
          have hfound := List.find?_some hlook
          rw [decide_eq_true_eq] at hfound
          exact ⟨existing, List.mem_of_find?_eq_some hlook, naturalKey_eq_iff.mpr hfound⟩
        · obtain ⟨rows, hinsert, heq⟩ := Option.map_eq_some_iff.mp hround
          cases heq
          obtain ⟨rfl, -⟩ := insertObservation_eq_some hinsert
          refine ⟨⟨[o], rfl⟩, fun o' ho' => ?_⟩
          obtain rfl : o = o' := Option.some.inj (haccept.symm.trans ho')
          exact ⟨o, List.mem_append_right _ (List.mem_singleton_self o), rfl⟩
    obtain ⟨⟨first, hfirstadded⟩, hfirststored⟩ := hfirst
    refine ⟨⟨first ++ added, by rw [hadded, hfirstadded, List.append_assoc]⟩, ?_⟩
    intro next hnext o ho
    rcases List.mem_cons.mp hnext with rfl | hnext
    · obtain ⟨r, hr, hkey⟩ := hfirststored o ho
      exact ⟨r, by rw [hadded]; exact List.mem_append_left _ hr, hkey⟩
    · exact hstored next hnext o ho

end Observations

/-! ## Writing evidence -/

section Evidence

variable {w : EvidenceWriter} {ids : EvidenceIds} {c c' : Collected} {db db' : Db}

/-- Writing stored evidence changes nothing. -/
theorem writeEvidence_of_stored (h : Stored w db c) : writeEvidence w ids c db = some db := by
  obtain ⟨snapshot, hfind, hobs⟩ := h
  have hsnapshot : writeSnapshot w.md5 w.now ids.snapshotId c db = some (db, snapshot) := by
    have hfind' : newestSnapshot (db.sourceSnapshots.filter fun s => s.uri = c.uri ∧
        s.sourceType = c.sourceType ∧ s.contentHash = c.contentHash) = some snapshot := hfind
    unfold writeSnapshot
    rw [hfind']
  unfold writeEvidence
  rw [hsnapshot]
  simp only [Option.bind_some]
  unfold writeObservations
  by_cases hpolicy : snapshot.sourceUsePolicy.allowsModelUse = true
  · rw [hpolicy, Bool.not_true, if_neg Bool.false_ne_true]
    have hitems : ∀ item ∈ c.observations.mapIdx fun i p => (p, ids.draw i),
        ∀ o, w.accept snapshot item.2 item.1 = some o →
          ∃ r ∈ db.observations, r.naturalKey = o.naturalKey := by
      intro item hitem o ho
      obtain ⟨i, hi, rfl⟩ := List.mem_mapIdx.mp hitem
      exact hobs hpolicy _ (List.getElem_mem hi) { o with id := 0 } (accept_newId ho 0)
    obtain ⟨ids', hloop⟩ := @foldlM_writeObservation_of_stored _ _ _ [] hitems
    change Option.map Prod.fst (Option.map _ (List.foldlM (writeObservation (w.accept snapshot))
      (db.observations, []) _)) = _
    rw [hloop]
    rfl
  · rw [Bool.not_eq_true] at hpolicy
    rw [hpolicy]
    rfl

/-- Writing evidence appends snapshots and observations. -/
theorem writeEvidence_appends (h : writeEvidence w ids c db = some db') :
    ∃ snapshots observations, db' = { db with
      sourceSnapshots := db.sourceSnapshots ++ snapshots
      observations := db.observations ++ observations } := by
  obtain ⟨⟨db₁, snapshot⟩, hsnapshot, h⟩ := Option.bind_eq_some_iff.mp h
  obtain ⟨⟨db₂, written⟩, hobs, rfl⟩ := Option.map_eq_some_iff.mp h
  obtain ⟨observations, -, rfl⟩ := writeObservations_frame hobs
  rcases writeSnapshot_cases hsnapshot with ⟨-, rfl⟩ | ⟨-, -, rfl⟩
  · exact ⟨[], observations, by simp⟩
  · exact ⟨[snapshot], observations, rfl⟩

/-- Evidence is stored after it was written. -/
theorem stored_writeEvidence (h : writeEvidence w ids c db = some db') : Stored w db' c := by
  obtain ⟨⟨db₁, snapshot⟩, hsnapshot, h⟩ := Option.bind_eq_some_iff.mp h
  obtain ⟨⟨db₂, written⟩, hobs, rfl⟩ := Option.map_eq_some_iff.mp h
  have hfind : findSnapshot c db₁.sourceSnapshots = some snapshot := by
    rcases writeSnapshot_cases hsnapshot with ⟨hfind, rfl⟩ | ⟨hnone, hholds, rfl⟩
    · exact hfind
    · exact findSnapshot_append_of_none hnone hholds
  have hkept : db₂.sourceSnapshots = db₁.sourceSnapshots := by
    obtain ⟨observations, -, rfl⟩ := writeObservations_frame hobs
    rfl
  refine ⟨snapshot, by rw [hkept]; exact hfind, fun hpolicy p hp o ho => ?_⟩
  unfold writeObservations at hobs
  rw [hpolicy, Bool.not_true, if_neg Bool.false_ne_true] at hobs
  obtain ⟨st, hloop, heq⟩ := Option.map_eq_some_iff.mp hobs
  cases heq
  obtain ⟨i, hi, rfl⟩ := List.getElem_of_mem hp
  have hitem : (c.observations[i], ids.draw i) ∈ c.observations.mapIdx fun i p => (p, ids.draw i) :=
    List.mem_mapIdx.mpr ⟨i, hi, rfl⟩
  exact (foldlM_writeObservation_stores (w.accept snapshot) hloop).2 _ hitem
    { o with id := ids.draw i } (accept_newId ho (ids.draw i))

/-- Stored evidence stays stored. -/
theorem Stored.writeEvidence (h : Stored w db c) (hwrite : writeEvidence w ids c' db = some db') :
    Stored w db' c := by
  obtain ⟨snapshot, hfind, hobs⟩ := h
  obtain ⟨⟨db₁, snapshot'⟩, hsnapshot, hwrite⟩ := Option.bind_eq_some_iff.mp hwrite
  obtain ⟨⟨db₂, written⟩, hobs', rfl⟩ := Option.map_eq_some_iff.mp hwrite
  obtain ⟨observations, -, rfl⟩ := writeObservations_frame hobs'
  have hkept : findSnapshot c db₁.sourceSnapshots = some snapshot ∧
      db₁.observations = db.observations := by
    rcases writeSnapshot_cases hsnapshot with ⟨-, rfl⟩ | ⟨hnone, hholds, rfl⟩
    · exact ⟨hfind, rfl⟩
    · have hother : ¬ snapshot'.Holds c := by
        intro hsame
        have hmissing : findSnapshot c db.sourceSnapshots = none := by
          rw [findSnapshot_eq_none_iff] at hnone ⊢
          intro s hs hsc
          exact hnone s hs ⟨hsc.1.trans (hsame.1.symm.trans hholds.1),
            hsc.2.1.trans (hsame.2.1.symm.trans hholds.2.1),
            hsc.2.2.trans (hsame.2.2.symm.trans hholds.2.2)⟩
        rw [hmissing] at hfind
        cases hfind
      exact ⟨(findSnapshot_append_of_not hother).trans hfind, rfl⟩
  refine ⟨snapshot, hkept.1, fun hpolicy p hp o ho => ?_⟩
  obtain ⟨r, hr, hkey⟩ := hobs hpolicy p hp o ho
  exact ⟨r, List.mem_append_left _ (hkept.2 ▸ hr), hkey⟩

end Evidence

end VCBrain
