import VCBrain.Collectors.Jobs
import VCBrain.Collectors.TasksInFlight
import VCBrain.Identity.HandleLookup

set_option relaxedAutoImplicit false
set_option autoImplicit false

/-!
# Deep collections of discovered founders

A discovery looks the person of each seed up or creates it, and enqueues a deep collection of the
person if the signal suffices. The queue has the task at once. The row of a person that the run has
created has the database only when the run commits, after its last seed, or never if it fails. This
file determines in which runs no task is ahead of its row.

## Main definitions

* `CollectionSystem.step` — discoveries, dispatcher runs and collections, step by step.
* `NeverAhead` — every collection that is queued or delivered names a committed person, and none has
  missed its person.
* `EnqueuesCommitted` — the condition on a step.

## Main results

* `neverAhead_iff` — the runs in which no task is ahead of its row.

## Design

The rows that discoveries have inserted and not committed are kept in one list with their owners. An
insertion waits for another run that has inserted the same key. What a connector returns, whether
the signal suffices and the priority are inputs, and what a discovery writes about a person it has
is left out. A collection is one transaction.
-/

namespace VCBrain

/-! ## Discoveries between two stores -/

/-- What a discovery does next. -/
inductive SeedStage where
  /-- `_get_or_create_person` for the next seed, or the commit. -/
  | person (seeds : List FounderSeed)
  /-- `queue_enqueue` of the deep collection of a person. -/
  | enqueue (personId : Uuid) (seed : FounderSeed) (seeds : List FounderSeed)
  | failed
  | done

/-- The person whose deep collection a discovery enqueues next. -/
def SeedStage.target? : SeedStage → Option Uuid
  | .enqueue personId _ _ => some personId
  | _ => none

/-- What a discovery does once it has the person of a seed. -/
def afterCollection (personId : Uuid) (seed : FounderSeed) (seeds : List FounderSeed) : SeedStage :=
  match seed.collection with
  | .failed => .person seeds
  | _ => if seed.interesting then .enqueue personId seed seeds else .person seeds

variable {τ : Type*} [LinearOrder τ]

/-- The database, the rows that discoveries have not committed yet, the discoveries, the tasks and
their deliveries, and the persons that a collection has missed. -/
structure CollectionSystem (ι κ : Type*) (tie : Str ↪ τ) where
  db : Db := {}
  uncommitted : List (ι × Person) := []
  discovery : ι → SeedStage
  tasks : TaskFlow κ tie
  missed : List Uuid := []

/-- Any next step of discoveries, dispatcher runs and collections. -/
inductive CollectionEvent (ι κ : Type*) where
  /-- A discovery looks up the person of its next seed, for whom it has an id and an instant. -/
  | person (i : ι) (id : Uuid) (now : Time)
  | enqueue (i : ι) (priority : ℚ)
  | commit (i : ι)
  /-- A discovery fails, and its session is rolled back. -/
  | fail (i : ι)
  /-- A command of a dispatcher run; Arq accepts the task if it is one that hands over. -/
  | dispatcher (k : κ) (accepted : Bool)
  | dispatcherDies (k : κ)
  /-- `collect_job` for a delivery. -/
  | collect (job : ArqJob) (task : CollectTask)

/-- The job is a delivery of the collection. -/
def CollectTask.Delivers (task : CollectTask) (job : ArqJob) : Prop :=
  job.name = "collect_job" ∧ job.args[0]? = some (.str task.personId.str) ∧
    job.args[1]? = some (.str task.source) ∧ job.args[3]? = some (.str task.handle)

instance (task : CollectTask) (job : ArqJob) : Decidable (task.Delivers job) :=
  inferInstanceAs (Decidable (_ ∧ _ ∧ _ ∧ _))

/-- The deep collection that a discovery enqueues. -/
def deepCollection (personId : Uuid) (seed : FounderSeed) : CollectionTask :=
  (Enqueuer.deepCollect personId seed.source (some seed.handle)).task

namespace CollectionSystem

variable {ι κ : Type*} [DecidableEq ι] [DecidableEq κ] {tie : Str ↪ τ}

/-- The rows that a discovery has inserted and not committed yet. -/
def own (s : CollectionSystem ι κ tie) (i : ι) : List Person :=
  (s.uncommitted.filter fun row => row.1 = i).map Prod.snd

/-- The database as the session of a discovery shows it. -/
def session (s : CollectionSystem ι κ tie) (i : ι) : Db :=
  { s.db with persons := s.db.persons ++ s.own i }

/-- Another discovery has inserted a row with a key of the person. -/
def Waits (s : CollectionSystem ι κ tie) (i : ι) (p : Person) : Prop :=
  ∃ row ∈ s.uncommitted, row.1 ≠ i ∧ (row.2.id = p.id ∨ row.2.stableId = p.stableId)

instance (s : CollectionSystem ι κ tie) (i : ι) (p : Person) : Decidable (s.Waits i p) :=
  inferInstanceAs (Decidable (∃ row ∈ s.uncommitted, _))

/-- The discovery ends in a stage, and its rows are no longer uncommitted. -/
def close (s : CollectionSystem ι κ tie) (i : ι) (stage : SeedStage) : CollectionSystem ι κ tie :=
  { s with
    uncommitted := s.uncommitted.filter fun row => row.1 ≠ i
    discovery := Function.update s.discovery i stage }

variable (ucd : Ucd) (md5 : List UInt8 → Str)

/-- The next step, where dispatcher runs have the concurrency `n`; `none` if it is not due. -/
def step (n : ℕ) (s : CollectionSystem ι κ tie) :
    CollectionEvent ι κ → Option (CollectionSystem ι κ tie)
  | .person i id now =>
    match s.discovery i with
    | .person (seed :: seeds) =>
      match getOrCreatePerson seed.source seed.handle seed.displayHint id now (s.session i) with
      | .ok (some p, after) =>
        let added := after.persons.drop (s.session i).persons.length
        if ∃ q ∈ added, s.Waits i q then none
        else
          some { s with
            uncommitted := s.uncommitted ++ added.map fun q => (i, q)
            discovery := Function.update s.discovery i (afterCollection p.id seed seeds) }
      | _ => some (s.close i .failed)
    | _ => none
  | .enqueue i priority =>
    match s.discovery i with
    | .enqueue personId seed seeds =>
      some { s with
        discovery := Function.update s.discovery i (.person seeds)
        tasks := s.tasks.enqueue (deepCollection personId seed) priority }
    | _ => none
  | .commit i =>
    match s.discovery i with
    | .person [] =>
      some { s.close i .done with db := { s.db with persons := s.db.persons ++ s.own i } }
    | _ => none
  | .fail i =>
    match s.discovery i with
    | .person _ | .enqueue .. => some (s.close i .failed)
    | _ => none
  | .dispatcher k accepted =>
    (s.tasks.command n k accepted).map fun tasks => { s with tasks := tasks }
  | .dispatcherDies k => some { s with tasks := s.tasks.stop k }
  | .collect job task =>
    if job ∈ s.tasks.delivered ∧ task.Delivers job then
      (collectJob ucd md5 task s.db).map fun db =>
        { s with
          db := db
          missed := s.missed ++
            if task.ended = false ∧ s.db.person? task.personId = none then [task.personId] else [] }
    else none

end CollectionSystem

/-! ## The law -/

/-- If the job is a collection, it names one of the persons. -/
def ArqJob.NamesOneOf (persons : List Person) (job : ArqJob) : Prop :=
  job.name = "collect_job" → ∃ p ∈ persons, job.args[0]? = some (.str p.id.str)

variable {ι κ : Type*} [DecidableEq ι] {tie : Str ↪ τ}

/-- Every collection in the queue or delivered names a committed person, and no collection has
missed its person. -/
structure NeverAhead (s : CollectionSystem ι κ tie) : Prop where
  queued : ∀ lane, ∀ e ∈ (s.tasks.store.queue lane).entries, ∀ task, Json.loads e.2 = some task →
    (arqJob task).NamesOneOf s.db.persons
  delivered : ∀ job ∈ s.tasks.delivered, job.NamesOneOf s.db.persons
  noneMissed : s.missed = []

/-- A collection is enqueued for a person that the discovery has found, not for one that it has
created and not committed yet. -/
def EnqueuesCommitted (s : CollectionSystem ι κ tie) : CollectionEvent ι κ → Prop
  | .enqueue i _ => ∀ p ∈ s.own i, (s.discovery i).target? ≠ some p.id
  | _ => True

instance (s : CollectionSystem ι κ tie) : DecidablePred (EnqueuesCommitted s)
  | .enqueue i _ =>
    inferInstanceAs (Decidable (∀ p ∈ s.own i, (s.discovery i).target? ≠ some p.id))
  | .person .. | .commit .. | .fail .. | .dispatcher .. | .dispatcherDies .. | .collect .. =>
    .isTrue trivial

/-- What holds between the steps: every text in flight and every delivery names a committed person,
no id stands twice among the committed rows and those of different discoveries, and a discovery that
is to enqueue a collection has the person in its session. -/
structure CollectionSystem.Sound (s : CollectionSystem ι κ tie) : Prop where
  readable : s.tasks.Readable
  inFlight : ∀ text, s.tasks.InFlight text → ∀ task, Json.loads text = some task →
    (arqJob task).NamesOneOf s.db.persons
  delivered : ∀ job ∈ s.tasks.delivered, job.NamesOneOf s.db.persons
  apart : ∀ row ∈ s.uncommitted, ∀ p ∈ s.db.persons, row.2.id ≠ p.id
  exclusive : ∀ row ∈ s.uncommitted, ∀ other ∈ s.uncommitted, row.1 ≠ other.1 →
    row.2.id ≠ other.2.id
  known : ∀ i personId seed seeds, s.discovery i = .enqueue personId seed seeds →
    ∃ p ∈ (s.session i).persons, p.id = personId
  noneMissed : s.missed = []

/-! ## Names -/

section Names

variable {persons persons' : List Person}

/-- A job names one of the persons as long as their ids are there. -/
lemma ArqJob.NamesOneOf.mono {job : ArqJob} (h : job.NamesOneOf persons)
    (hids : ∀ p ∈ persons, ∃ q ∈ persons', q.id = p.id) : job.NamesOneOf persons' := by
  intro hname
  obtain ⟨p, hp, hperson⟩ := h hname
  obtain ⟨q, hq, hid⟩ := hids p hp
  exact ⟨q, hq, by rw [hperson, hid]⟩

/-- The task of a deep collection is read as a collection of the person. -/
lemma arqJob_deepCollection (personId : Uuid) (seed : FounderSeed) :
    (arqJob (deepCollection personId seed).json.sortKeys).name = "collect_job" ∧
      (arqJob (deepCollection personId seed).json.sortKeys).args[0]? =
        some (.str personId.str) :=
  ⟨rfl, rfl⟩

/-- A deep collection names one of the persons exactly if its person is one of them. -/
lemma namesOneOf_deepCollection_iff {personId : Uuid} {seed : FounderSeed} :
    (arqJob (deepCollection personId seed).json.sortKeys).NamesOneOf persons ↔
      ∃ p ∈ persons, p.id = personId := by
  obtain ⟨hname, hperson⟩ := arqJob_deepCollection personId seed
  constructor
  · intro h
    obtain ⟨p, hp, hid⟩ := h hname
    rw [hperson, Option.some.injEq, Json.str.injEq] at hid
    exact ⟨p, hp, (Uuid.str_injective hid).symm⟩
  · rintro ⟨p, hp, rfl⟩ -
    exact ⟨p, hp, hperson⟩

/-- A person that stands for one of the rows is one of them. -/
lemma mem_of_followSupersession {n : ℕ} {p q : Person}
    (h : followSupersession persons n p = some q) (hp : p ∈ persons) : q ∈ persons := by
  induction n generalizing p with
  | zero =>
    obtain rfl : p = q := Option.some.inj h
    exact hp
  | succ n ih =>
    rw [followSupersession] at h
    split_ifs at h
    · obtain rfl : p = q := Option.some.inj h
      exact hp
    · split at h
      · obtain rfl : p = q := Option.some.inj h
        exact hp
      · obtain ⟨r, hr, h⟩ := Option.bind_eq_some_iff.mp h
        exact ih h (List.mem_of_find?_eq_some hr)

/-- `_get_or_create_person` returns one of the persons, or a new one that it adds. -/
lemma getOrCreatePerson_cases {source handle displayHint : Str} {id : Uuid} {now : Time}
    {db after : Db} {p : Person}
    (h : getOrCreatePerson source handle displayHint id now db = .ok (some p, after)) :
    after = db ∧ p ∈ db.persons ∨
      (∀ q ∈ db.persons, q.id ≠ p.id) ∧ after = { db with persons := db.persons ++ [p] } := by
  unfold getOrCreatePerson at h
  split at h
  · cases h
  · next found hlookup =>
    rw [Except.ok.injEq, Prod.mk.injEq] at h
    refine Or.inl ⟨h.2.symm, mem_of_followSupersession h.1 ?_⟩
    unfold lookupHandle at hlookup
    split at hlookup
    · cases hlookup
    · next q hone =>
      cases hlookup
      exact (List.mem_filter.mp (hone ▸ List.mem_singleton_self _)).1
    · cases hlookup
  · dsimp only at h
    split_ifs at h with htaken
    rw [Except.ok.injEq, Prod.mk.injEq, Option.some.injEq] at h
    obtain ⟨rfl, rfl⟩ := h
    push Not at htaken
    exact Or.inr ⟨fun q hq => (htaken q hq).1, rfl⟩

end Names

/-! ## One step -/

section Step

variable {s u : CollectionSystem ι κ tie} {i : ι} {p : Person}

namespace CollectionSystem

lemma mem_own : p ∈ s.own i ↔ (i, p) ∈ s.uncommitted := by
  simp [own]

lemma mem_persons_session :
    p ∈ (s.session i).persons ↔ p ∈ s.db.persons ∨ (i, p) ∈ s.uncommitted := by
  rw [← mem_own]
  exact List.mem_append

/-- A discovery that ends without a commit leaves what holds. -/
lemma Sound.close (hs : s.Sound) (i : ι) {stage : SeedStage}
    (hstage : ∀ personId seed seeds, stage ≠ .enqueue personId seed seeds) :
    (s.close i stage).Sound := by
  have hmem : ∀ row ∈ (s.close i stage).uncommitted, row ∈ s.uncommitted :=
    fun row hrow => List.mem_of_mem_filter hrow
  refine
    { readable := hs.readable
      inFlight := hs.inFlight
      delivered := hs.delivered
      apart := fun row hrow => hs.apart row (hmem row hrow)
      exclusive := fun row hrow other hother =>
        hs.exclusive row (hmem row hrow) other (hmem other hother)
      known := fun j personId seed seeds hj => ?_
      noneMissed := hs.noneMissed }
  change Function.update s.discovery i stage j = _ at hj
  by_cases heq : j = i
  · subst heq
    rw [Function.update_self] at hj
    exact absurd hj (hstage personId seed seeds)
  · rw [Function.update_of_ne heq] at hj
    obtain ⟨p, hp, hid⟩ := hs.known j personId seed seeds hj
    refine ⟨p, mem_persons_session.mpr ?_, hid⟩
    refine (mem_persons_session.mp hp).imp_right fun hp => ?_
    exact List.mem_filter.mpr ⟨hp, by simpa using heq⟩

/-- A discovery that has the person of a seed leaves what holds. -/
lemma Sound.person (hs : s.Sound) {seed : FounderSeed} {seeds : List FounderSeed} {id : Uuid}
    {now : Time} {after : Db}
    (hperson : getOrCreatePerson seed.source seed.handle seed.displayHint id now (s.session i) =
      .ok (some p, after))
    (hfree : ∀ q ∈ after.persons.drop (s.session i).persons.length, ¬ s.Waits i q) :
    ({ s with
      uncommitted := s.uncommitted ++
        (after.persons.drop (s.session i).persons.length).map fun q => (i, q)
      discovery := Function.update s.discovery i (afterCollection p.id seed seeds) } :
        CollectionSystem ι κ tie).Sound := by
  -- the stage of the run names the person only
  have hstage : ∀ personId seed' seeds',
      afterCollection p.id seed seeds = .enqueue personId seed' seeds' → p.id = personId := by
    intro personId seed' seeds' h
    unfold afterCollection at h
    split at h
    · cases h
    · split_ifs at h
      cases h
      rfl
  have hknown : ∀ added : List Person, p ∈ (s.session i).persons ∨ p ∈ added →
      ∀ j personId seed' seeds',
        Function.update s.discovery i (afterCollection p.id seed seeds) j =
            .enqueue personId seed' seeds' →
          ∃ q ∈ s.db.persons ++ (((s.uncommitted ++ added.map fun q => (i, q)).filter
            fun row => row.1 = j).map Prod.snd), q.id = personId := by
    intro added hp j personId seed' seeds' hj
    by_cases heq : j = i
    · subst heq
      rw [Function.update_self] at hj
      refine ⟨p, ?_, hstage _ _ _ hj⟩
      simp only [mem_persons_session] at hp
      simp only [List.mem_append, List.mem_map, List.mem_filter]
      rcases hp with (hp | hp) | hp
      · exact Or.inl hp
      · exact Or.inr ⟨(j, p), ⟨Or.inl hp, by simp⟩, rfl⟩
      · exact Or.inr ⟨(j, p), ⟨Or.inr ⟨p, hp, rfl⟩, by simp⟩, rfl⟩
    · rw [Function.update_of_ne heq] at hj
      obtain ⟨q, hq, hid⟩ := hs.known j personId seed' seeds' hj
      refine ⟨q, ?_, hid⟩
      simp only [List.mem_append, List.mem_map, List.mem_filter]
      rcases mem_persons_session.mp hq with hq | hq
      · exact Or.inl hq
      · exact Or.inr ⟨(j, q), ⟨Or.inl hq, by simp⟩, rfl⟩
  obtain ⟨rfl, hp⟩ | ⟨hnew, rfl⟩ := getOrCreatePerson_cases hperson
  · have hnone : (s.session i).persons.drop (s.session i).persons.length = [] :=
      List.drop_length
    rw [hnone]
    refine
      { readable := hs.readable
        inFlight := hs.inFlight
        delivered := hs.delivered
        apart := fun row hrow => hs.apart row (by simpa using hrow)
        exclusive := fun row hrow other hother =>
          hs.exclusive row (by simpa using hrow) other (by simpa using hother)
        known := hknown [] (Or.inl hp)
        noneMissed := hs.noneMissed }
  · have hone : ((s.session i).persons ++ [p]).drop (s.session i).persons.length = [p] :=
      List.drop_left
    dsimp only at hfree ⊢
    rw [hone] at hfree ⊢
    have hwaits : ∀ row ∈ s.uncommitted, row.1 ≠ i → row.2.id ≠ p.id := by
      intro row hrow hother hid
      exact hfree p (List.mem_singleton_self _) ⟨row, hrow, hother, Or.inl hid⟩
    refine
      { readable := hs.readable
        inFlight := hs.inFlight
        delivered := hs.delivered
        apart := fun row hrow q hq => ?_
        exclusive := fun row hrow other hother hne => ?_
        known := hknown [p] (Or.inr (List.mem_singleton_self _))
        noneMissed := hs.noneMissed }
    · rcases List.mem_append.mp hrow with hrow | hrow
      · exact hs.apart row hrow q hq
      · obtain rfl : row = (i, p) := by simpa using hrow
        exact (hnew q (mem_persons_session.mpr (Or.inl hq))).symm
    · rcases List.mem_append.mp hrow with hrow | hrow <;>
        rcases List.mem_append.mp hother with hother | hother
      · exact hs.exclusive row hrow other hother hne
      · obtain rfl : other = (i, p) := by simpa using hother
        exact hwaits row hrow hne
      · obtain rfl : row = (i, p) := by simpa using hrow
        exact (hwaits other hother hne.symm).symm
      · obtain rfl : row = (i, p) := by simpa using hrow
        obtain rfl : other = (i, p) := by simpa using hother
        exact absurd rfl hne

/-- A discovery that enqueues a collection leaves what holds exactly if the person is committed. -/
lemma Sound.enqueue (hs : s.Sound) {personId : Uuid} {seed : FounderSeed}
    {seeds : List FounderSeed} {priority : ℚ} (hcommitted : ∃ p ∈ s.db.persons, p.id = personId) :
    ({ s with
      discovery := Function.update s.discovery i (.person seeds)
      tasks := s.tasks.enqueue (deepCollection personId seed) priority } :
        CollectionSystem ι κ tie).Sound := by
  refine
    { readable := hs.readable.enqueue _ _
      inFlight := fun text htext task htask => ?_
      delivered := hs.delivered
      apart := hs.apart
      exclusive := hs.exclusive
      known := fun j personId' seed' seeds' hj => ?_
      noneMissed := hs.noneMissed }
  · obtain ⟨lane, htext⟩ := htext
    rcases TaskFlow.inLane_enqueue.mp htext with hold | ⟨-, rfl⟩
    · exact hs.inFlight text ⟨lane, hold⟩ task htask
    · rw [CollectionTask.loads_taskKey, Option.some.injEq] at htask
      rw [← htask]
      exact namesOneOf_deepCollection_iff.mpr hcommitted
  · change Function.update s.discovery i _ j = _ at hj
    by_cases heq : j = i
    · subst heq
      rw [Function.update_self] at hj
      cases hj
    · rw [Function.update_of_ne heq] at hj
      exact hs.known j personId' seed' seeds' hj

/-- What holds is left by a commit. -/
lemma Sound.commit (hs : s.Sound) (i : ι) :
    ({ s.close i .done with db := { s.db with persons := s.db.persons ++ s.own i } } :
      CollectionSystem ι κ tie).Sound := by
  have hclosed : (s.close i .done).Sound := hs.close i nofun
  have hids : ∀ p ∈ s.db.persons, ∃ q ∈ s.db.persons ++ s.own i, q.id = p.id :=
    fun p hp => ⟨p, List.mem_append_left _ hp, rfl⟩
  refine
    { readable := hs.readable
      inFlight := fun text htext task htask => (hs.inFlight text htext task htask).mono hids
      delivered := fun job hjob => (hs.delivered job hjob).mono hids
      apart := fun row hrow p hp => ?_
      exclusive := hclosed.exclusive
      known := fun j personId seed seeds hj => ?_
      noneMissed := hs.noneMissed }
  · rcases List.mem_append.mp hp with hp | hp
    · exact hclosed.apart row hrow p hp
    · obtain ⟨hmem, hother⟩ := List.mem_filter.mp hrow
      exact hs.exclusive row hmem (i, p) (mem_own.mp hp) (by simpa using hother)
  · obtain ⟨p, hp, hid⟩ := hclosed.known j personId seed seeds hj
    refine ⟨p, ?_, hid⟩
    rcases List.mem_append.mp hp with hp | hp
    · exact List.mem_append_left _ (List.mem_append_left _ hp)
    · exact List.mem_append_right _ hp

/-- What holds is left by a change of the tasks that brings no new text. -/
lemma Sound.tasks (hs : s.Sound) {tasks : TaskFlow κ tie} (hread : tasks.Readable)
    (htexts : ∀ text, tasks.InFlight text → s.tasks.InFlight text)
    (hdelivered : ∀ job ∈ tasks.delivered, job ∈ s.tasks.delivered ∨
      ∃ text task, s.tasks.InFlight text ∧ Json.loads text = some task ∧ job = arqJob task) :
    ({ s with tasks := tasks } : CollectionSystem ι κ tie).Sound := by
  refine
    { hs with
      readable := hread
      inFlight := fun text htext => hs.inFlight text (htexts text htext)
      delivered := fun job hjob => ?_ }
  obtain hold | ⟨text, task, htext, htask, rfl⟩ := hdelivered job hjob
  · exact hs.delivered job hold
  · exact hs.inFlight text htext task htask

/-- A collection of a delivery finds its person, and leaves what holds. -/
lemma Sound.collect (hs : s.Sound) {ucd : Ucd} {md5 : List UInt8 → Str} {job : ArqJob}
    {task : CollectTask} {db : Db} (hjob : job ∈ s.tasks.delivered) (htask : task.Delivers job)
    (h : collectJob ucd md5 task s.db = some db) :
    ({ s with
      db := db
      missed := s.missed ++
        if task.ended = false ∧ s.db.person? task.personId = none then [task.personId] else [] } :
      CollectionSystem ι κ tie).Sound := by
  have hmem : ∀ id, (∃ p ∈ db.persons, p.id = id) ↔ ∃ p ∈ s.db.persons, p.id = id := by
    intro id
    have hids := congrArg (id ∈ ·) (map_id_collectJob h)
    simpa using hids
  have hids : ∀ p ∈ s.db.persons, ∃ q ∈ db.persons, q.id = p.id :=
    fun p hp => (hmem p.id).mpr ⟨p, hp, rfl⟩
  refine
    { readable := hs.readable
      inFlight := fun text htext task htask => (hs.inFlight text htext task htask).mono hids
      delivered := fun job hjob => (hs.delivered job hjob).mono hids
      apart := fun row hrow p hp => ?_
      exclusive := hs.exclusive
      known := fun i personId seed seeds hi => ?_
      noneMissed := ?_ }
  · obtain ⟨q, hq, hid⟩ := (hmem p.id).mp ⟨p, hp, rfl⟩
    exact hid ▸ hs.apart row hrow q hq
  · obtain ⟨p, hp, hid⟩ := hs.known i personId seed seeds hi
    rcases List.mem_append.mp hp with hp | hp
    · obtain ⟨q, hq, hid'⟩ := hids p hp
      exact ⟨q, List.mem_append_left _ hq, hid'.trans hid⟩
    · exact ⟨p, List.mem_append_right _ hp, hid⟩
  · -- the delivery names a person that is there
    obtain ⟨p, hp, hperson⟩ := hs.delivered job hjob htask.1
    rw [htask.2.1, Option.some.injEq, Json.str.injEq] at hperson
    have hfound : s.db.person? task.personId ≠ none := by
      intro hnone
      have hid := List.find?_eq_none.mp hnone p hp
      exact hid (decide_eq_true (Uuid.str_injective hperson).symm)
    change s.missed ++ (if _ ∧ _ then _ else _) = []
    rw [if_neg fun hcond => hfound hcond.2, List.append_nil, hs.noneMissed]

/-- What holds implies that no task is ahead of its row. -/
lemma Sound.neverAhead (hs : s.Sound) : NeverAhead s where
  queued lane e he := hs.inFlight e.2 ⟨lane, Or.inl ⟨e, he, rfl⟩⟩
  delivered := hs.delivered
  noneMissed := hs.noneMissed

variable [DecidableEq κ] {ucd : Ucd} {md5 : List UInt8 → Str} {n : ℕ} {e : CollectionEvent ι κ}

/-- **One step.** A step that meets its condition leaves what holds.

**Proof sketch.** A lookup that finds a person adds no row, and one that creates a person adds a row
with an id that is new in its session and that no other run has inserted. The collection that is
enqueued names a committed person by the condition, and what dispatcher runs do brings no new text
into flight. A collection keeps the ids of the persons. -/
lemma sound_step (hs : s.Sound) (h : step ucd md5 n s e = some u) (he : EnqueuesCommitted s e) :
    u.Sound := by
  cases e with
  | person i id now =>
    simp only [step] at h
    split at h
    · next seed seeds hi =>
      split at h
      · next p after hperson =>
        split_ifs at h with hwaits
        cases h
        exact hs.person hperson fun q hq hw => hwaits ⟨q, hq, hw⟩
      · cases h
        exact hs.close i nofun
    · cases h
  | enqueue i priority =>
    simp only [step] at h
    split at h
    · next personId seed seeds hi =>
      cases h
      rw [EnqueuesCommitted, hi] at he
      obtain ⟨p, hp, hid⟩ := hs.known i personId seed seeds hi
      rcases List.mem_append.mp hp with hp | hp
      · exact hs.enqueue ⟨p, hp, hid⟩
      · exact absurd (congrArg some hid.symm) (he p hp)
    · cases h
  | commit i =>
    simp only [step] at h
    split at h
    · cases h
      exact hs.commit i
    · cases h
  | fail i =>
    simp only [step] at h
    split at h
    · cases h
      exact hs.close i nofun
    · cases h
      exact hs.close i nofun
    · cases h
  | dispatcher k accepted =>
    obtain ⟨tasks, hcommand, rfl⟩ := Option.map_eq_some_iff.mp h
    refine hs.tasks (hs.readable.command hcommand) (fun text htext => ?_) fun job hjob =>
      TaskFlow.delivered_of_command hs.readable hcommand hjob
    obtain ⟨lane, hlane⟩ := htext
    obtain hold | ⟨-, hold, -⟩ := TaskFlow.inLane_of_command hs.readable hcommand hlane
    · exact ⟨lane, hold⟩
    · exact hold
  | dispatcherDies k =>
    cases h
    refine hs.tasks (hs.readable.stop k) (fun text htext => ?_) fun job hjob => Or.inl hjob
    obtain ⟨lane, hlane⟩ := htext
    exact ⟨lane, TaskFlow.inLane_of_stop hlane⟩
  | collect job task =>
    rw [step] at h
    by_cases hdue : job ∈ s.tasks.delivered ∧ task.Delivers job
    · rw [if_pos hdue] at h
      obtain ⟨db, hcollect, rfl⟩ := Option.map_eq_some_iff.mp h
      exact hs.collect hdue.1 hdue.2 hcollect
    · rw [if_neg hdue] at h
      cases h

/-- A step leaves no task ahead of its row exactly if it meets its condition. -/
lemma neverAhead_step_iff (hs : s.Sound) (h : step ucd md5 n s e = some u) :
    NeverAhead u ↔ EnqueuesCommitted s e := by
  refine ⟨fun hu => ?_, fun he => (sound_step hs h he).neverAhead⟩
  cases e with
  | enqueue i priority =>
    simp only [step] at h
    split at h
    · next personId seed seeds hi =>
      cases h
      rw [EnqueuesCommitted, hi]
      intro p hp htarget
      have hperson : personId = p.id := Option.some.inj htarget
      -- the new entry names a committed person, and the run has inserted one with its id
      have hnamed := hu.queued (.ofPriority priority)
        (Queue.entryOf ((deepCollection personId seed).json, priority))
        (mem_enqueue.mpr (Or.inl ⟨rfl, rfl⟩)) _ (deepCollection personId seed).loads_taskKey
      obtain ⟨q, hq, hid⟩ := namesOneOf_deepCollection_iff.mp hnamed
      exact hs.apart (i, p) (mem_own.mp hp) q hq (hperson.symm.trans hid.symm)
    · cases h
  | _ => trivial

end CollectionSystem

end Step

/-! ## Runs -/

/-- **The queue and the database.** In any interleaving of discoveries, of which any may fail at any
point, with dispatcher runs and collections, every collection in the queue or delivered names a
committed person and no collection misses its person, in every state, exactly if every collection
that a discovery enqueues is for a person it has not created in its open transaction.

**Proof sketch.** The rule for duties against guards (`History.meets_iff_guarded`), with one step as
the case (`CollectionSystem.neverAhead_step_iff`). -/
theorem neverAhead_iff [DecidableEq κ] (ucd : Ucd) (md5 : List UInt8 → Str) (n : ℕ)
    (s : CollectionSystem ι κ tie) (hs : s.Sound) (es : List (CollectionEvent ι κ)) :
    History.Meets (CollectionSystem.step ucd md5 n) (fun _ u => NeverAhead u) s es ↔
      History.Guarded (CollectionSystem.step ucd md5 n) EnqueuesCommitted s es :=
  History.meets_iff_guarded (CollectionSystem.step ucd md5 n) (I := CollectionSystem.Sound)
    (fun _ _ _ hs h => CollectionSystem.neverAhead_step_iff hs h)
    (fun _ _ _ hs h hu =>
      CollectionSystem.sound_step hs h ((CollectionSystem.neverAhead_step_iff hs h).mp hu))
    hs es

/-- A founder with a strong signal. -/
def strongSeed : FounderSeed where
  source := "github"
  handle := "ada"
  collection := .collected (fun _ => []) false
  companyName := "Company"
  interesting := true

/-- A discovery of the founder is about to look the person up among those there are. -/
def discovering (persons : List Person) : CollectionSystem Unit Unit byText where
  db := { persons := persons }
  discovery := fun _ => .person [strongSeed]
  tasks :=
    { store := { queue := .empty, tavily := 0, agent := 0 }
      dispatcher := fun _ => .ready }

/-- The deep collection of the founder as a job, and what `collect_job` makes of it. -/
def strongJob : ArqJob := arqJob (deepCollection 5 strongSeed).json.sortKeys

def strongTask : CollectTask where
  personId := 5
  source := "github"
  handle := "ada"
  collected := fun _ => none
  now := 1
  snapshotId := 7
  signalId := 8
  draw := fun _ => 9

/-- The collection is enqueued, handed over and run, and then the discovery commits. -/
def overtaking : List (CollectionEvent Unit Unit) :=
  [.person () 5 0, .enqueue () 1, .dispatcher () true, .dispatcher () true, .dispatcher () true,
    .dispatcher () true, .dispatcher () true, .collect strongJob strongTask, .commit ()]

/-- Nothing is in flight when a discovery begins. -/
lemma sound_discovering (persons : List Person) : (discovering persons).Sound where
  readable :=
    { queued := fun _ e he => by cases he
      held := fun _ r hr => by cases hr }
  inFlight := by
    rintro text ⟨lane, ⟨e, he, -⟩ | ⟨k, r, hr, -⟩⟩
    · cases he
    · cases hr
  delivered := fun job hjob => by cases hjob
  apart := fun row hrow => by cases hrow
  exclusive := fun row hrow => by cases hrow
  known := fun i personId seed seeds h => by cases h
  noneMissed := rfl

/-- The theorem applies to a founder whose person is there. -/
theorem neverAhead_iff_knownFounder :
    History.Meets (CollectionSystem.step Ucd.ascii (fun _ => []) 1) (fun _ u => NeverAhead u)
      (discovering [createdPerson "github" "ada" [] 5 0]) overtaking := by
  have hguarded : History.Guarded (CollectionSystem.step Ucd.ascii (fun _ => []) 1)
      EnqueuesCommitted (discovering [createdPerson "github" "ada" [] 5 0]) overtaking := by
    decide +kernel
  exact (neverAhead_iff Ucd.ascii (fun _ => []) 1 _ (sound_discovering _) overtaking).mpr hguarded

/-- The founder is new: the collection runs before the person is committed, and is lost. -/
theorem not_neverAhead_newFounder :
    (discovering []).Sound ∧
      ¬ History.Meets (CollectionSystem.step Ucd.ascii (fun _ => []) 1) (fun _ u => NeverAhead u)
        (discovering []) overtaking ∧
      (History.replay (CollectionSystem.step Ucd.ascii (fun _ => []) 1) (discovering [])
        overtaking).missed = [5] := by
  have hmissed : (History.replay (CollectionSystem.step Ucd.ascii (fun _ => []) 1) (discovering [])
      overtaking).missed = [5] := by decide +kernel
  refine ⟨sound_discovering _, fun hmeets => ?_, hmissed⟩
  -- after the look-up the person is not committed, and the next step enqueues the collection
  have hperson : (CollectionSystem.step Ucd.ascii (fun _ => []) 1 (discovering [])
      (.person () 5 0)).isSome := by decide +kernel
  obtain ⟨s, hs⟩ := Option.isSome_iff_exists.mp hperson
  have hsound : s.Sound := CollectionSystem.sound_step (sound_discovering []) hs trivial
  have henqueue : (CollectionSystem.step Ucd.ascii (fun _ => []) 1 (History.commit
      (CollectionSystem.step Ucd.ascii (fun _ => []) 1) (discovering []) (.person () 5 0))
      (.enqueue () 1)).isSome := by decide +kernel
  obtain ⟨u, hu⟩ := Option.isSome_iff_exists.mp henqueue
  have hahead := hmeets.2.1 u hu
  have hcondition : ¬ EnqueuesCommitted (History.commit
      (CollectionSystem.step Ucd.ascii (fun _ => []) 1) (discovering []) (.person () 5 0))
      (.enqueue () 1) := by decide +kernel
  rw [History.commit_of_some _ hs] at hu hcondition
  exact hcondition ((CollectionSystem.neverAhead_step_iff hsound hu).mp hahead)

end VCBrain
