import VCBrain.Identity.HandleLookup
import VCBrain.Identity.Review

set_option relaxedAutoImplicit false
set_option autoImplicit false

/-!
# Chains of supersessions under concurrent sessions

A run of identity resolution and an approval each work in a session of their own: a row is read
once and then taken from the identity map of the session, and what the session changes is written
back when it commits. In between, other sessions may merge the same persons. This file shows that
the chains of supersessions end in a canonical person nevertheless.

## Main definitions

* `IdentitySession` — the identity map of a session and what is left of its work.
* `IdentityState.step` — one step of one of the sessions, a discovery, or a rejection.
* `Person.rank` — the order in which persons are preferred as canonical.

## Main results

* `supersession_ends` — in every reachable state every chain ends in a canonical person, and so does
  the loop of `_get_or_create_person`.

## Design

A session writes back the columns it has changed, so that two sessions may both supersede a person
they have read as canonical; the later one wins. The bulk updates of a merge concern other tables
than those of persons and matches; like all other writes to those tables they are steps of the
environment. A session that fails is rolled back.
-/

namespace VCBrain

/-! ## Sessions -/

/-- A session: the rows of persons as they were read, the same rows with the changes of the session,
the pairs the run has still to visit, the rows it adds to the review queue, the match under review,
and when it was approved. -/
structure IdentitySession where
  loaded : List Person := []
  persons : List Person := []
  pairs : List (Uuid × Uuid) := []
  queued : List PersonMatch := []
  review : Option PersonMatch := none
  approvedAt : Option Time := none

/-- The committed database and the open sessions. -/
structure IdentityState where
  db : Db := {}
  sessions : ℕ → Option IdentitySession := fun _ => none

/-- A discovery creates a person, or another writer does; other tables change; a match is rejected;
a session `t` of identity resolution is opened and visits its next pair; a session of a review is
opened, gets a row, and approves; a session commits or is rolled back. -/
inductive IdentityEvent where
  | discover (source handle displayHint : Str) (id : Uuid) (now : Time)
  | create (p : Person)
  | elsewhere (tables : Db)
  | reject (matchId : Uuid) (now : Time)
  | resolve (t : ℕ) (s : Schedule)
  | visit (t : ℕ) (s : Schedule)
  | review (t : ℕ) (matchId : Uuid)
  | get (t : ℕ) (id : Uuid)
  | approve (t : ℕ) (now : Time)
  | commit (t : ℕ)
  | rollback (t : ℕ)

/-- A row as the program creates persons: canonical, under a new id and a new stable id. -/
def IsNewPerson (rows : List Person) (p : Person) : Prop :=
  p.canonical = true ∧ p.supersededById = none ∧
    ∀ q ∈ rows, q.id ≠ p.id ∧ q.stableId ≠ p.stableId

instance (rows : List Person) : DecidablePred (IsNewPerson rows) :=
  fun _ => inferInstanceAs (Decidable (_ ∧ _))

/-- A column after the write of a session: the new value if the session has changed it. -/
def writeColumn {β : Type*} [DecidableEq β] (old new row : β) : β := if new = old then row else new

namespace IdentitySession

/-- What the statements of a session see: committed rows, its own rows for the review queue, and its
identity map for persons. -/
def view (σ : IdentitySession) (db : Db) : Db :=
  { db with persons := σ.persons, personMatches := db.personMatches ++ σ.queued }

/-- A row of `persons` after the session has written back the columns it changed. -/
def write (σ : IdentitySession) (p : Person) : Person :=
  match σ.loaded.find? fun q => q.id = p.id, σ.persons.find? fun q => q.id = p.id with
  | some old, some new =>
    { p with
      displayName := writeColumn old.displayName new.displayName p.displayName
      email := writeColumn old.email new.email p.email
      handles := writeColumn old.handles new.handles p.handles
      supersededById := writeColumn old.supersededById new.supersededById p.supersededById
      canonical := writeColumn old.canonical new.canonical p.canonical
      mergedAt := writeColumn old.mergedAt new.mergedAt p.mergedAt }
  | _, _ => p

/-- The rows of the review queue after the session has committed. -/
def writeMatches (σ : IdentitySession) (rows : List PersonMatch) : Option (List PersonMatch) :=
  (σ.queued.foldlM insertPersonMatch rows).map fun rows =>
    match σ.review, σ.approvedAt with
    | some m, some now => resolveMatch rows m.id .approved now
    | _, _ => rows

/-- The work of the session is done. -/
def Done (σ : IdentitySession) : Prop := σ.pairs = [] ∧ (σ.review.isSome → σ.approvedAt.isSome)

instance : DecidablePred Done := fun _ => inferInstanceAs (Decidable (_ ∧ _))

end IdentitySession

namespace IdentityState

variable (env : MatchEnv) (st : IdentityState)

/-- The state with a session replaced. -/
def withSession (t : ℕ) (σ : Option IdentitySession) : IdentityState :=
  { st with sessions := Function.update st.sessions t σ }

/-- `resolve_identities` up to the loop. -/
def resolve (t : ℕ) (s : Schedule) : Option IdentityState :=
  match st.sessions t with
  | some _ => none
  | none =>
    let persons := st.db.persons.filter fun p => p.canonical
    if persons.length < 2 then some st
    else (personKeys env s st.db persons).map fun keys =>
      st.withSession t (some
        { loaded := persons, persons := persons, pairs := s.visit (candidatePairs keys) })

/-- One round of the loop of `resolve_identities`. -/
def visit (t : ℕ) (s : Schedule) : Option IdentityState :=
  (st.sessions t).bind fun σ =>
    match σ.pairs with
    | [] => none
    | pair :: rest =>
      some (st.withSession t ((visitPair env s { db := σ.view st.db } pair).map fun run =>
        { σ with
          persons := run.db.persons
          pairs := rest
          queued := run.db.personMatches.drop st.db.personMatches.length }))

/-- `approve_match` reads the match. -/
def review (t : ℕ) (matchId : Uuid) : Option IdentityState :=
  match st.sessions t with
  | some _ => none
  | none => (pendingMatch matchId st.db).map fun m => st.withSession t (some { review := some m })

/-- `session.get(Person, id)`: the row of the identity map, else the committed one. -/
def get (t : ℕ) (id : Uuid) : Option IdentityState :=
  (st.sessions t).map fun σ =>
    if ∃ p ∈ σ.persons, p.id = id then st
    else st.withSession t ((st.db.person? id).map fun p =>
      { σ with loaded := σ.loaded ++ [p], persons := σ.persons ++ [p] })

/-- `approve_match` merges the two persons it has got, the earlier-created first. -/
def approve (t : ℕ) (now : Time) : Option IdentityState := do
  let σ ← st.sessions t
  let m ← σ.review
  let a ← (σ.view st.db).person? m.personAId
  let b ← (σ.view st.db).person? m.personBId
  let ids := canonicalFirst a b
  some (st.withSession t ((mergePersons ids.1 ids.2 now (σ.view st.db)).toOption.map fun db =>
    { σ with persons := db.persons, approvedAt := some now }))

/-- A session that has done its work commits, unless a new row is refused. -/
def commit (t : ℕ) : Option IdentityState :=
  (st.sessions t).bind fun σ =>
    if σ.Done then
      some (match σ.writeMatches st.db.personMatches with
        | some rows => IdentityState.withSession
          { st with db := { st.db with
              persons := st.db.persons.map σ.write
              personMatches := rows } } t none
        | none => st.withSession t none)
    else none

/-- One step; a step that is not possible does nothing. -/
def step : IdentityEvent → Option IdentityState
  | .discover source handle displayHint id now =>
    (personStep st.db (.discover source handle displayHint id now)).map fun db =>
      { st with db := db }
  | .create p =>
    if IsNewPerson st.db.persons p then
      some { st with db := { st.db with persons := st.db.persons ++ [p] } }
    else none
  | .elsewhere tables => some { st with db := { tables with
      persons := st.db.persons, personMatches := st.db.personMatches } }
  | .reject matchId now => (rejectMatch matchId now st.db).map fun db => { st with db := db }
  | .resolve t s => resolve env st t s
  | .visit t s => visit env st t s
  | .review t matchId => review st t matchId
  | .get t id => get st t id
  | .approve t now => approve st t now
  | .commit t => commit st t
  | .rollback t => some (st.withSession t none)

end IdentityState

/-! ## The order of persons -/

/-- An earlier-created person is preferred as canonical, and of two created at once the one with the
smaller id. -/
def Person.rank (p : Person) : Time ×ₗ Uuid := toLex (p.createdAt, p.id)

lemma Person.rank_lt_iff {p q : Person} :
    p.rank < q.rank ↔ p.createdAt < q.createdAt ∨ p.createdAt = q.createdAt ∧ p.id < q.id :=
  Prod.Lex.toLex_lt_toLex ..

/-- A person is canonical and points nowhere, or points to one that is preferred. -/
def Linked (rows : List Person) (p : Person) : Prop :=
  p.canonical = true ∧ p.supersededById = none ∨
    p.canonical = false ∧ ∃ q ∈ rows, p.supersededById = some q.id ∧ q.rank < p.rank

/-- Every row of the one table is in the other, with its id and its time of creation. -/
def Persists (rows rows' : List Person) : Prop :=
  ∀ p ∈ rows, ∃ q ∈ rows', q.id = p.id ∧ q.createdAt = p.createdAt

section Rank

variable {rows rows' : List Person} {p q : Person}

lemma Persists.refl (rows : List Person) : Persists rows rows := fun p hp => ⟨p, hp, rfl, rfl⟩

lemma Persists.trans {rows'' : List Person} (h : Persists rows rows')
    (h' : Persists rows' rows'') : Persists rows rows'' := by
  intro p hp
  obtain ⟨q, hq, hid, htime⟩ := h p hp
  obtain ⟨r, hr, hid', htime'⟩ := h' q hq
  exact ⟨r, hr, hid'.trans hid, htime'.trans htime⟩

/-- A person stays linked as long as the rows persist. -/
lemma Linked.mono (h : Linked rows p) (hrows : Persists rows rows') : Linked rows' p := by
  rcases h with h | ⟨hcanonical, q, hq, hnext, hrank⟩
  · exact Or.inl h
  · obtain ⟨r, hr, hid, htime⟩ := hrows q hq
    refine Or.inr ⟨hcanonical, r, hr, by rw [hnext, hid], ?_⟩
    rw [Person.rank, hid, htime]
    exact hrank

/-- Of two persons in the order of their ids the preferred one is canonical first. -/
lemma canonicalFirst_cases (h : p.id < q.id) :
    canonicalFirst p q = (p.id, q.id) ∧ p.rank < q.rank ∨
      canonicalFirst p q = (q.id, p.id) ∧ q.rank < p.rank := by
  unfold canonicalFirst
  simp only [Person.rank_lt_iff]
  split_ifs with hle
  · refine Or.inl ⟨rfl, ?_⟩
    rcases hle.lt_or_eq with hlt | heq
    · exact Or.inl hlt
    · exact Or.inr ⟨heq, h⟩
  · exact Or.inr ⟨rfl, Or.inl (not_le.mp hle)⟩

end Rank

/-! ## What a session may hold -/

/-- What the row of a person in an identity map has become: it is as it was read, or it was
canonical and now points to one that is preferred. -/
def Relinked (rows : List Person) (old new : Person) : Prop :=
  new.canonical = old.canonical ∧ new.supersededById = old.supersededById ∨
    old.canonical = true ∧ new.canonical = false ∧
      ∃ q ∈ rows, new.supersededById = some q.id ∧ q.rank < new.rank

/-- The persons of a session are rows of the table, linked as they were read and as they are now,
and its pairs and matches are in the order of the ids. -/
structure IdentitySession.Sound (rows : List Person) (σ : IdentitySession) : Prop where
  ids : KeyUnique Person.id σ.persons
  known : ∀ p ∈ σ.loaded, ∃ q ∈ σ.persons, q.id = p.id
  persists : Persists σ.persons rows
  loaded : ∀ p ∈ σ.loaded, Linked rows p
  persons : ∀ p ∈ σ.persons, Linked rows p
  relinked : ∀ old ∈ σ.loaded, ∀ new ∈ σ.persons, old.id = new.id → Relinked rows old new
  pairs : ∀ pair ∈ σ.pairs, pair.1 < pair.2
  queued : ∀ m ∈ σ.queued, m.personAId < m.personBId
  review : ∀ m ∈ σ.review, m.personAId < m.personBId

/-- The rows of the tables are linked and in order, and so is what the sessions hold. -/
structure IdentityState.Sound (st : IdentityState) : Prop where
  ids : KeyUnique Person.id st.db.persons
  linked : ∀ p ∈ st.db.persons, Linked st.db.persons p
  matches_lt : ∀ m ∈ st.db.personMatches, m.personAId < m.personBId
  sessions : ∀ t, ∀ σ ∈ st.sessions t, σ.Sound st.db.persons

namespace IdentitySession.Sound

variable {rows rows' : List Person} {σ : IdentitySession} {db : Db}

/-- A session stays sound as long as the rows persist. -/
lemma mono (h : σ.Sound rows) (hrows : Persists rows rows') : σ.Sound rows' where
  ids := h.ids
  known := h.known
  persists := h.persists.trans hrows
  loaded p hp := (h.loaded p hp).mono hrows
  persons p hp := (h.persons p hp).mono hrows
  relinked old hold new hnew hid := by
    rcases h.relinked old hold new hnew hid with heq | ⟨hold', hnew', q, hq, hnext, hrank⟩
    · exact Or.inl heq
    · obtain ⟨r, hr, hrid, htime⟩ := hrows q hq
      refine Or.inr ⟨hold', hnew', r, hr, by rw [hnext, hrid], ?_⟩
      rw [Person.rank, hrid, htime]
      exact hrank
  pairs := h.pairs
  queued := h.queued
  review := h.review

/-- What a merge makes of a row: of the duplicate it makes a pointer, of another no other one. -/
lemma row_merged (canonicalId duplicateId : Uuid) (canonical duplicate : Person) (now : Time)
    (p : Person) : ∃ p', markSuperseded canonicalId duplicateId now
        (mergeFields canonicalId canonical duplicate p) = p' ∧
      p'.id = p.id ∧ p'.createdAt = p.createdAt ∧
      (p.id = duplicateId ∧ p'.canonical = false ∧ p'.supersededById = some canonicalId ∨
        p.id ≠ duplicateId ∧ p'.canonical = p.canonical ∧
          p'.supersededById = p.supersededById) := by
  refine ⟨_, rfl, ?_⟩
  have hfields : ∀ q, mergeFields canonicalId canonical duplicate p = q → q.id = p.id ∧
      q.createdAt = p.createdAt ∧ q.canonical = p.canonical ∧
        q.supersededById = p.supersededById := by
    rintro q rfl
    unfold mergeFields
    split_ifs <;> exact ⟨rfl, rfl, rfl, rfl⟩
  obtain ⟨hid, htime, hcanonical, hnext⟩ := hfields _ rfl
  unfold markSuperseded
  split_ifs with hp
  · exact ⟨hid, htime, Or.inl ⟨hid.symm.trans hp, rfl, rfl⟩⟩
  · exact ⟨hid, htime, Or.inr ⟨fun h => hp (hid.trans h), hcanonical, hnext⟩⟩

/-- A session that merges a person into one that is preferred stays sound. -/
lemma merge (h : σ.Sound rows) (hpersons : σ.persons = db.persons) {c d : Person} {now : Time}
    {db' : Db} (hc : db.person? c.id = some c) (hd : db.person? d.id = some d)
    (hrank : c.rank < d.rank) (hmerge : mergePersons c.id d.id now db = .ok db') :
    { σ with persons := db'.persons }.Sound rows := by
  obtain ⟨canonical, duplicate, -, hd', ⟨-, rfl⟩ | ⟨hcanonical, rfl⟩⟩ := mergePersons_eq_ok hmerge
  · rw [← hpersons]
    exact h
  rw [hd, Option.some.injEq] at hd'
  subst hd'
  have hmem : ∀ {q : Person}, db.person? q.id = some q → q ∈ σ.persons := fun hq =>
    hpersons ▸ List.mem_of_find?_eq_some hq
  obtain ⟨c', hc', hid, htime⟩ := h.persists c (hmem hc)
  have hrank' : ∀ p : Person, p.id = d.id → p.createdAt = d.createdAt → c'.rank < p.rank := by
    intro p hpid hptime
    rw [Person.rank, Person.rank, hid, htime, hpid, hptime]
    exact hrank
  have hnew : ∀ p' ∈ (mergedDb c.id d.id canonical d now db).persons, ∃ p ∈ σ.persons,
      p'.id = p.id ∧ p'.createdAt = p.createdAt ∧
        (p = d ∧ p'.canonical = false ∧ p'.supersededById = some c.id ∨
          p'.canonical = p.canonical ∧ p'.supersededById = p.supersededById) := by
    intro p' hp'
    obtain ⟨p, hp, rfl⟩ := List.mem_map.mp hp'
    rw [← hpersons] at hp
    obtain ⟨_, rfl, hpid, hptime, hcases⟩ := row_merged c.id d.id canonical d now p
    refine ⟨p, hp, hpid, hptime, ?_⟩
    rcases hcases with ⟨heq, hlink⟩ | ⟨-, hsame⟩
    · exact Or.inl ⟨h.ids.eq_of_id_eq hp (hmem hd) heq, hlink⟩
    · exact Or.inr hsame
  refine ⟨?_, fun old hold => ?_, fun p' hp' => ?_, h.loaded, fun p' hp' => ?_,
    fun old hold p' hp' heq => ?_, h.pairs, h.queued, h.review⟩
  · apply keyUnique_mergedDb
    rw [← hpersons]
    exact h.ids
  · obtain ⟨p, hp, hpid⟩ := h.known old hold
    rw [hpersons] at hp
    obtain ⟨p', hp', hpid', -⟩ := row_merged c.id d.id canonical d now p
    exact ⟨p', List.mem_map.mpr ⟨p, hp, hp'⟩, hpid'.trans hpid⟩
  · obtain ⟨p, hp, hpid, hptime, -⟩ := hnew p' hp'
    obtain ⟨q, hq, hqid, hqtime⟩ := h.persists p hp
    exact ⟨q, hq, hqid.trans hpid.symm, hqtime.trans hptime.symm⟩
  · obtain ⟨p, hp, hpid, hptime, ⟨rfl, hfalse, hnext⟩ | ⟨hsame, hnext⟩⟩ := hnew p' hp'
    · exact Or.inr ⟨hfalse, c', hc', by rw [hnext, hid], hrank' p' hpid hptime⟩
    · have hlinked := h.persons p hp
      rwa [Linked, Person.rank, ← hsame, ← hnext, ← hpid, ← hptime] at hlinked
  · obtain ⟨p, hp, hpid, hptime, hcases⟩ := hnew p' hp'
    have hrelinked := h.relinked old hold p hp (heq.trans hpid)
    rcases hcases with ⟨rfl, hfalse, hnext⟩ | ⟨hsame, hnext⟩
    · -- the duplicate is canonical, so that the session has not relinked it before
      rcases hrelinked with ⟨hold', -⟩ | ⟨-, hfalse', -⟩
      · exact Or.inr ⟨hold'.symm.trans hcanonical, hfalse, c', hc', by rw [hnext, hid],
          hrank' p' hpid hptime⟩
      · rw [hcanonical] at hfalse'
        cases hfalse'
    · rwa [Relinked, Person.rank, ← hsame, ← hnext, ← hpid, ← hptime] at hrelinked

/-- The two persons of a pair in the order of the ids are merged in the order they are preferred. -/
lemma mergeFirst (h : σ.Sound rows) (hpersons : σ.persons = db.persons) {a b : Person}
    {now : Time} {db' : Db} (ha : db.person? a.id = some a) (hb : db.person? b.id = some b)
    (hlt : a.id < b.id)
    (hmerge : mergePersons (canonicalFirst a b).1 (canonicalFirst a b).2 now db = .ok db') :
    { σ with persons := db'.persons }.Sound rows := by
  rcases canonicalFirst_cases hlt with ⟨hfirst, hrank⟩ | ⟨hfirst, hrank⟩
  · rw [hfirst] at hmerge
    exact h.merge hpersons ha hb hrank hmerge
  · rw [hfirst] at hmerge
    exact h.merge hpersons hb ha hrank hmerge

/-- Writing back leaves the id and the time of creation of a row, and either leaves its pointer or
makes one to a person that is preferred. -/
lemma write (h : σ.Sound rows) (hids : KeyUnique Person.id rows) {p : Person} (hp : p ∈ rows) :
    (σ.write p).id = p.id ∧ (σ.write p).createdAt = p.createdAt ∧
      ((σ.write p).canonical = p.canonical ∧ (σ.write p).supersededById = p.supersededById ∨
        (σ.write p).canonical = false ∧ ∃ q ∈ rows, (σ.write p).supersededById = some q.id ∧
          q.rank < p.rank) := by
  unfold IdentitySession.write
  split
  · next old new hold hnew =>
    refine ⟨rfl, rfl, ?_⟩
    have hold' := List.mem_of_find?_eq_some hold
    have hnew' := List.mem_of_find?_eq_some hnew
    have holdid : old.id = p.id := by simpa using List.find?_some hold
    have hnewid : new.id = p.id := by simpa using List.find?_some hnew
    obtain ⟨q, hq, hqid, hqtime⟩ := h.persists new hnew'
    obtain rfl := hids.eq_of_id_eq hq hp (hqid.trans hnewid)
    rcases h.relinked old hold' new hnew' (holdid.trans hnewid.symm) with
      ⟨hcanonical, hnext⟩ | ⟨htrue, hfalse, r, hr, hnext, hrank⟩
    · left
      simp [writeColumn, hcanonical, hnext]
    · right
      have hnone : old.supersededById = none := by
        rcases h.loaded old hold' with ⟨-, hnone⟩ | ⟨hold'', -⟩
        · exact hnone
        · simp [htrue] at hold''
      refine ⟨by simp [writeColumn, htrue, hfalse], r, hr, by simp [writeColumn, hnone, hnext], ?_⟩
      have hq' : q.rank = new.rank := by rw [Person.rank, hqid, hqtime, Person.rank]
      rw [hq']
      exact hrank
  · exact ⟨rfl, rfl, Or.inl ⟨rfl, rfl⟩⟩

end IdentitySession.Sound

section Queue

variable {σ : IdentitySession} {rows rows' : List PersonMatch}

/-- Rows that are inserted are put at the end. -/
lemma insertPersonMatches {queued : List PersonMatch}
    (h : queued.foldlM insertPersonMatch rows = some rows') : rows' = rows ++ queued := by
  induction queued generalizing rows with
  | nil => simpa using h.symm
  | cons m queued ih =>
    rw [List.foldlM_cons] at h
    obtain ⟨first, hfirst, hrest⟩ := Option.bind_eq_some_iff.mp h
    unfold insertPersonMatch at hfirst
    split_ifs at hfirst
    rw [ih hrest, ← Option.some.inj hfirst]
    simp

/-- The rows of the review queue after a commit are in the order of the ids. -/
lemma lt_of_writeMatches (hrows : ∀ m ∈ rows, m.personAId < m.personBId)
    (hqueued : ∀ m ∈ σ.queued, m.personAId < m.personBId) (h : σ.writeMatches rows = some rows') :
    ∀ m ∈ rows', m.personAId < m.personBId := by
  obtain ⟨inserted, hinserted, rfl⟩ := Option.map_eq_some_iff.mp h
  have hall : ∀ m ∈ inserted, m.personAId < m.personBId := by
    intro m hm
    rw [insertPersonMatches hinserted, List.mem_append] at hm
    exact hm.elim (hrows m) (hqueued m)
  split
  · intro m hm
    obtain ⟨m', hm', rfl⟩ := List.mem_map.mp hm
    have hlt := hall m' hm'
    split_ifs <;> exact hlt
  · exact hall

end Queue

/-- A visit leaves the persons and at most queues the pair, or it merges the two persons, the
earlier-created first. -/
lemma visitPair_cases {env : MatchEnv} {s : Schedule} {run run' : ResolveRun}
    {pair : Uuid × Uuid} (h : visitPair env s run pair = some run') :
    run'.db.persons = run.db.persons ∧
        (∃ queued : List PersonMatch, run'.db.personMatches = run.db.personMatches ++ queued ∧
          ∀ m ∈ queued, m.personAId = pair.1 ∧ m.personBId = pair.2) ∨
      run'.db.personMatches = run.db.personMatches ∧
        ∃ a b, run.db.person? pair.1 = some a ∧ run.db.person? pair.2 = some b ∧
          mergePersons (canonicalFirst a b).1 (canonicalFirst a b).2 (s.clock pair) run.db =
            .ok run'.db := by
  have hpass : ∀ r : ResolveRun, some r = some run' → r.db = run.db →
      run'.db.persons = run.db.persons ∧
        ∃ queued : List PersonMatch, run'.db.personMatches = run.db.personMatches ++ queued ∧
          ∀ m ∈ queued, m.personAId = pair.1 ∧ m.personBId = pair.2 := by
    intro r hr hdb
    rw [← Option.some.inj hr, hdb]
    exact ⟨rfl, [], by simp⟩
  simp only [visitPair] at h
  split at h
  · next a b ha hb =>
    split_ifs at h
    · exact Or.inl (hpass _ h rfl)
    · obtain ⟨⟨confidence, reasons⟩, -, h⟩ := Option.bind_eq_some_iff.mp h
      dsimp only at h
      split_ifs at h
      · obtain ⟨db, hdb, rfl⟩ := Option.map_eq_some_iff.mp h
        cases hmerge : mergePersons (canonicalFirst a b).1 (canonicalFirst a b).2
            (s.clock pair) run.db with
        | error err =>
          simp [hmerge, Except.toOption] at hdb
        | ok result =>
          simp only [hmerge, Except.toOption, Option.some.injEq] at hdb
          subst hdb
          refine Or.inr ⟨?_, a, b, ha, hb, hmerge⟩
          obtain ⟨_, _, -, -, ⟨-, rfl⟩ | ⟨-, rfl⟩⟩ := mergePersons_eq_ok hmerge <;> rfl
      · unfold flagForReview at h
        split at h
        · obtain ⟨rows, hrows, rfl⟩ := Option.map_eq_some_iff.mp h
          unfold insertPersonMatch at hrows
          split_ifs at hrows
          rw [← Option.some.inj hrows]
          exact Or.inl ⟨rfl, _, rfl, by simp⟩
        · exact Or.inl (hpass _ h rfl)
        · cases h
      · exact Or.inl (hpass _ h rfl)
  · exact Or.inl (hpass _ h rfl)

/-! ## Reachable states -/

namespace IdentityState.Sound

variable {env : MatchEnv} {st st' : IdentityState} {t : ℕ}

/-- A step of a session that ends it or leaves it sound. -/
lemma withSession (h : st.Sound) {σ : Option IdentitySession}
    (hσ : ∀ τ ∈ σ, τ.Sound st.db.persons) : (st.withSession t σ).Sound where
  ids := h.ids
  linked := h.linked
  matches_lt := h.matches_lt
  sessions u τ hτ := by
    simp only [IdentityState.withSession] at hτ
    by_cases hu : u = t
    · subst hu
      rw [Function.update_self] at hτ
      exact hσ τ hτ
    · rw [Function.update_of_ne hu] at hτ
      exact h.sessions u τ hτ

/-- A step in which the rows persist and stay linked and in order. -/
lemma withDb (h : st.Sound) {db : Db} (hids : KeyUnique Person.id db.persons)
    (hlinked : ∀ p ∈ db.persons, Linked db.persons p)
    (hmatches : ∀ m ∈ db.personMatches, m.personAId < m.personBId)
    (hrows : Persists st.db.persons db.persons) : ({ st with db := db } : IdentityState).Sound where
  ids := hids
  linked := hlinked
  matches_lt := hmatches
  sessions u τ hτ := (h.sessions u τ hτ).mono hrows

/-- The persons a run of identity resolution loads. -/
lemma resolve (h : st.Sound) {s : Schedule} (hstep : st.resolve env t s = some st') :
    st'.Sound := by
  unfold IdentityState.resolve at hstep
  split at hstep
  · cases hstep
  · dsimp only at hstep
    split_ifs at hstep
    · rw [← Option.some.inj hstep]
      exact h
    · obtain ⟨keys, -, rfl⟩ := Option.map_eq_some_iff.mp hstep
      apply h.withSession
      rintro σ ⟨⟩
      have hids : KeyUnique Person.id (st.db.persons.filter fun p => p.canonical) :=
        h.ids.sublist (List.filter_sublist.map Person.id)
      refine ⟨hids, fun p hp => ⟨p, hp, rfl⟩, fun p hp => ⟨p, List.mem_of_mem_filter hp, rfl, rfl⟩,
        fun p hp => h.linked p (List.mem_of_mem_filter hp),
        fun p hp => h.linked p (List.mem_of_mem_filter hp), fun old hold new hnew heq => ?_,
        fun pair hpair => ?_, by simp, by simp⟩
      · obtain rfl := hids.eq_of_id_eq hold hnew heq
        exact Or.inl ⟨rfl, rfl⟩
      · rw [(s.visit_perm _).mem_iff] at hpair
        exact (mem_candidatePairs.mp hpair).1

/-- One round of the loop. -/
lemma visit (h : st.Sound) {s : Schedule} (hstep : st.visit env t s = some st') : st'.Sound := by
  obtain ⟨σ, hσ, hstep⟩ := Option.bind_eq_some_iff.mp hstep
  have hsound := h.sessions t σ hσ
  split at hstep
  · cases hstep
  · next pair rest hpairs =>
    rw [← Option.some.inj hstep]
    apply h.withSession
    intro τ hτ
    obtain ⟨run, hrun, rfl⟩ := Option.map_eq_some_iff.mp hτ
    have hpair : pair.1 < pair.2 := hsound.pairs pair (by simp [hpairs])
    have hrest : ∀ p ∈ rest, p.1 < p.2 := fun p hp => hsound.pairs p (by simp [hpairs, hp])
    rcases visitPair_cases hrun with ⟨hpersons, queued, hqueued, hnew⟩ |
      ⟨hqueued, a, b, ha, hb, hmerge⟩
    · have hdrop : run.db.personMatches.drop st.db.personMatches.length = σ.queued ++ queued := by
        simp [hqueued, IdentitySession.view]
      have hpersons' : run.db.persons = σ.persons := hpersons
      rw [hdrop, hpersons']
      refine { hsound with pairs := hrest, queued := fun m hm => ?_ }
      rcases List.mem_append.mp hm with hm | hm
      · exact hsound.queued m hm
      · rw [(hnew m hm).1, (hnew m hm).2]
        exact hpair
    · have hdrop : run.db.personMatches.drop st.db.personMatches.length = σ.queued := by
        simp [hqueued, IdentitySession.view]
      have hida : a.id = pair.1 := by simpa using List.find?_some ha
      have hidb : b.id = pair.2 := by simpa using List.find?_some hb
      rw [hdrop]
      have hmerged := hsound.mergeFirst rfl (hida ▸ ha) (hidb ▸ hb) (by rwa [hida, hidb]) hmerge
      exact { hmerged with pairs := hrest }

/-- The match under review. -/
lemma review (h : st.Sound) {matchId : Uuid} (hstep : st.review t matchId = some st') :
    st'.Sound := by
  unfold IdentityState.review at hstep
  split at hstep
  · cases hstep
  · obtain ⟨m, hm, rfl⟩ := Option.map_eq_some_iff.mp hstep
    have hlt := h.matches_lt m (List.mem_of_find?_eq_some (Option.filter_eq_some_iff.mp hm).1)
    apply h.withSession
    rintro σ ⟨⟩
    refine ⟨List.nodup_nil, by simp, fun p hp => ?_, by simp, by simp, by simp, by simp, by simp,
      ?_⟩
    · cases hp
    · rintro m' ⟨⟩
      exact hlt

/-- A row that a session gets. -/
lemma get (h : st.Sound) {id : Uuid} (hstep : st.get t id = some st') : st'.Sound := by
  obtain ⟨σ, hσ, rfl⟩ := Option.map_eq_some_iff.mp hstep
  have hsound := h.sessions t σ hσ
  split_ifs with hknown
  · exact h
  · apply h.withSession
    intro τ hτ
    obtain ⟨p, hp, rfl⟩ := Option.map_eq_some_iff.mp hτ
    push Not at hknown
    have hmem := List.mem_of_find?_eq_some hp
    have hid : p.id = id := by simpa using List.find?_some hp
    have hnew : ∀ q ∈ σ.persons, q.id ≠ p.id := fun q hq => hid ▸ hknown q hq
    refine ⟨hsound.ids.append hnew, fun q hq => ?_, fun q hq => ?_, fun q hq => ?_, fun q hq => ?_,
      fun old hold new hnew' heq => ?_, hsound.pairs, hsound.queued, hsound.review⟩
    · rcases List.mem_append.mp hq with hq | hq
      · obtain ⟨r, hr, hrid⟩ := hsound.known q hq
        exact ⟨r, List.mem_append_left _ hr, hrid⟩
      · exact ⟨q, List.mem_append_right _ hq, rfl⟩
    · rcases List.mem_append.mp hq with hq | hq
      · exact hsound.persists q hq
      · rw [List.mem_singleton.mp hq]
        exact ⟨p, hmem, rfl, rfl⟩
    · rcases List.mem_append.mp hq with hq | hq
      · exact hsound.loaded q hq
      · rw [List.mem_singleton.mp hq]
        exact h.linked p hmem
    · rcases List.mem_append.mp hq with hq | hq
      · exact hsound.persons q hq
      · rw [List.mem_singleton.mp hq]
        exact h.linked p hmem
    · rcases List.mem_append.mp hold with hold | hold <;>
        rcases List.mem_append.mp hnew' with hnew' | hnew'
      · exact hsound.relinked old hold new hnew' heq
      · obtain ⟨r, hr, hrid⟩ := hsound.known old hold
        rw [List.mem_singleton.mp hnew'] at heq
        exact absurd (hrid.trans heq) (hnew r hr)
      · rw [List.mem_singleton.mp hold] at heq
        exact absurd heq.symm (hnew new hnew')
      · rw [List.mem_singleton.mp hold, List.mem_singleton.mp hnew']
        exact Or.inl ⟨rfl, rfl⟩

/-- An approval. -/
lemma approve (h : st.Sound) {now : Time} (hstep : st.approve t now = some st') : st'.Sound := by
  unfold IdentityState.approve at hstep
  obtain ⟨σ, hσ, hstep⟩ := Option.bind_eq_some_iff.mp hstep
  obtain ⟨m, hm, hstep⟩ := Option.bind_eq_some_iff.mp hstep
  obtain ⟨a, ha, hstep⟩ := Option.bind_eq_some_iff.mp hstep
  obtain ⟨b, hb, hstep⟩ := Option.bind_eq_some_iff.mp hstep
  have hsound := h.sessions t σ hσ
  have hida : a.id = m.personAId := by simpa using List.find?_some ha
  have hidb : b.id = m.personBId := by simpa using List.find?_some hb
  rw [← Option.some.inj hstep]
  apply h.withSession
  intro τ hτ
  obtain ⟨db, hdb, rfl⟩ := Option.map_eq_some_iff.mp hτ
  cases hmerge : mergePersons (canonicalFirst a b).1 (canonicalFirst a b).2 now
      (σ.view st.db) with
  | error err => simp [hmerge, Except.toOption] at hdb
  | ok result =>
    simp only [hmerge, Except.toOption, Option.some.injEq] at hdb
    subst hdb
    have hlt : a.id < b.id := by
      rw [hida, hidb]
      exact hsound.review m hm
    have hmerged := hsound.mergeFirst rfl (hida ▸ ha) (hidb ▸ hb) hlt hmerge
    exact { hmerged with }

/-- A commit writes pointers to persons that are preferred. -/
lemma commit (h : st.Sound) (hstep : st.commit t = some st') : st'.Sound := by
  obtain ⟨σ, hσ, hstep⟩ := Option.bind_eq_some_iff.mp hstep
  have hsound := h.sessions t σ hσ
  split_ifs at hstep
  rw [← Option.some.inj hstep]
  have hwrite : Persists st.db.persons (st.db.persons.map σ.write) := fun p hp =>
    have hp' := hsound.write h.ids hp
    ⟨σ.write p, List.mem_map_of_mem hp, hp'.1, hp'.2.1⟩
  split
  · next rows hrows =>
    have hdb : IdentityState.Sound { st with db := { st.db with
        persons := st.db.persons.map σ.write, personMatches := rows } } := by
      refine h.withDb ?_ (fun p' hp' => ?_)
        (lt_of_writeMatches h.matches_lt hsound.queued hrows) hwrite
      · have hmap : (st.db.persons.map σ.write).map Person.id = st.db.persons.map Person.id := by
          rw [List.map_map]
          exact List.map_congr_left fun p hp => (hsound.write h.ids hp).1
        show ((st.db.persons.map σ.write).map Person.id).Nodup
        rw [hmap]
        exact h.ids
      · obtain ⟨p, hp, rfl⟩ := List.mem_map.mp hp'
        obtain ⟨hid, htime, hsame | ⟨hfalse, hnext⟩⟩ := hsound.write h.ids hp
        · have hlinked := (h.linked p hp).mono hwrite
          rwa [Linked, Person.rank, ← hsame.1, ← hsame.2, ← hid, ← htime] at hlinked
        · have hlinked : Linked st.db.persons (σ.write p) := by
            refine Or.inr ⟨hfalse, ?_⟩
            rwa [Person.rank, hid, htime]
          exact hlinked.mono hwrite
    exact hdb.withSession (by simp)
  · exact h.withSession (by simp)

/-- A person that enters. -/
lemma create (h : st.Sound) {p : Person} (hnew : ∀ q ∈ st.db.persons, q.id ≠ p.id)
    (hcanonical : p.canonical = true) (hnext : p.supersededById = none) :
    IdentityState.Sound { st with db := { st.db with persons := st.db.persons ++ [p] } } := by
  have hrows : Persists st.db.persons (st.db.persons ++ [p]) := fun q hq =>
    ⟨q, List.mem_append_left _ hq, rfl, rfl⟩
  refine h.withDb (h.ids.append hnew) (fun q hq => ?_) h.matches_lt hrows
  rcases List.mem_append.mp hq with hq | hq
  · exact (h.linked q hq).mono hrows
  · rw [List.mem_singleton.mp hq]
    exact Or.inl ⟨hcanonical, hnext⟩

/-- **One step** keeps the rows linked. -/
lemma step (h : st.Sound) {e : IdentityEvent} (hstep : st.step env e = some st') : st'.Sound := by
  cases e with
  | discover source handle displayHint id now =>
    obtain ⟨db, hdb, rfl⟩ := Option.map_eq_some_iff.mp hstep
    rcases discover_cases hdb with rfl | ⟨-, hnew, rfl⟩
    · exact h
    · exact h.create hnew rfl rfl
  | create p =>
    simp only [IdentityState.step] at hstep
    split_ifs at hstep with hnew
    rw [← Option.some.inj hstep]
    exact h.create (fun q hq => (hnew.2.2 q hq).1) hnew.1 hnew.2.1
  | elsewhere tables =>
    rw [← Option.some.inj hstep]
    exact h.withDb h.ids h.linked h.matches_lt (Persists.refl _)
  | reject matchId now =>
    obtain ⟨db, hdb, rfl⟩ := Option.map_eq_some_iff.mp hstep
    obtain ⟨m, -, rfl⟩ := Option.map_eq_some_iff.mp hdb
    refine h.withDb h.ids h.linked (fun m' hm' => ?_) (Persists.refl _)
    obtain ⟨m'', hm'', rfl⟩ := List.mem_map.mp hm'
    have hlt := h.matches_lt m'' hm''
    split_ifs <;> exact hlt
  | resolve t s => exact h.resolve hstep
  | visit t s => exact h.visit hstep
  | review t matchId => exact h.review hstep
  | get t id => exact h.get hstep
  | approve t now => exact h.approve hstep
  | commit t => exact h.commit hstep
  | rollback t =>
    rw [← Option.some.inj hstep]
    exact h.withSession (by simp)

end IdentityState.Sound

/-! ## The end of a chain -/

section Chain

variable {db : Db}

/-- **The loop ends.** With as much fuel as there are persons that are preferred to it, following
the pointers from a person ends in a canonical one, and more fuel changes nothing.

**Proof sketch.** Induction on the fuel. A person that is not canonical points to one that is
preferred, to which fewer persons are preferred. -/
lemma exists_canonical (hids : KeyUnique Person.id db.persons)
    (hlinked : ∀ p ∈ db.persons, Linked db.persons p) (fuel : ℕ) {p : Person}
    (hp : p ∈ db.persons)
    (hfuel : (db.persons.filter fun q => q.rank < p.rank).length ≤ fuel) :
    ∃ q ∈ db.persons, q.canonical = true ∧ Leads db.supersededBy p.id q.id ∧
      followSupersession db.persons fuel p = some q := by
  induction fuel generalizing p with
  | zero =>
    rcases hlinked p hp with ⟨hcanonical, -⟩ | ⟨-, q, hq, -, hrank⟩
    · exact ⟨p, hp, hcanonical, Leads.refl _, rfl⟩
    · have hmem : q ∈ db.persons.filter fun q => q.rank < p.rank := by
        simpa using ⟨hq, hrank⟩
      have hpos := List.length_pos_of_mem hmem
      omega
  | succ fuel ih =>
    rcases hlinked p hp with ⟨hcanonical, -⟩ | ⟨hfalse, q, hq, hnext, hrank⟩
    · exact ⟨p, hp, hcanonical, Leads.refl _, followSupersession_of_canonical hcanonical⟩
    · have hfewer : (db.persons.filter fun r => r.rank < q.rank).length <
          (db.persons.filter fun r => r.rank < p.rank).length := by
        have hsub : (db.persons.filter fun r => r.rank < q.rank).Sublist
            (db.persons.filter fun r => r.rank < p.rank) := by
          apply List.monotone_filter_right
          intro r hr
          simpa using lt_trans (by simpa using hr) hrank
        refine lt_of_le_of_ne hsub.length_le fun heq => ?_
        have hmem : q ∈ db.persons.filter fun r => r.rank < p.rank := by
          simpa using ⟨hq, hrank⟩
        rw [← hsub.eq_of_length heq] at hmem
        simp at hmem
      obtain ⟨r, hr, hcanonical, hleads, hfollow⟩ := ih hq (by omega)
      have hrow : ∀ {q : Person}, q ∈ db.persons → db.person? q.id = some q :=
        fun hq => (person?_eq_some_iff hids).mpr hq
      have hpointer : db.supersededBy p.id = some q.id := by
        rw [Db.supersededBy, hrow hp, Option.bind_some, hnext]
      refine ⟨r, hr, hcanonical, Leads.head hpointer hleads, ?_⟩
      have hfind : db.persons.find? (fun q' => q'.id = q.id) = some q := hrow hq
      rw [followSupersession, if_neg (by simp [hfalse]), hnext]
      simp only [hfind, Option.bind_some, hfollow]

end Chain

/-- **Supersessions end.** In every state that discoveries, runs of identity resolution and reviews
reach in sessions interleaved in any way, the pointers from every person lead to a canonical one,
and the loop of `_get_or_create_person` ends with it after at most as many rounds as there are
persons.

**Proof sketch.** Both callers of `merge_persons` merge the later-created person of a pair into the
earlier one, or of two created at once the one with the larger id, as the persons of a pair are in
the order of their ids. Neither changes, so that the rank of a person drops along every pointer, no
matter which of two sessions wrote it (`IdentityState.Sound.step`), and a chain cannot be longer
than the persons of smaller rank are many (`exists_canonical`). -/
theorem supersession_ends (env : MatchEnv) (events : List IdentityEvent) :
    let db := (History.replay (IdentityState.step env) {} events).db
    (∀ p ∈ db.persons, ∃ q ∈ db.persons, q.canonical = true ∧ Leads db.supersededBy p.id q.id ∧
      ∀ n ≥ db.persons.length, followSupersession db.persons n p = some q) ∧
    ∀ source handle displayHint id now p, lookupHandle source handle db = .ok (some p) →
      ∃ q ∈ db.persons, q.canonical = true ∧ Leads db.supersededBy p.id q.id ∧
        getOrCreatePerson source handle displayHint id now db = .ok (some q, db) := by
  intro db
  have hempty : IdentityState.Sound {} := by
    refine ⟨List.nodup_nil, fun p hp => ?_, fun m hm => ?_, fun t σ hσ => ?_⟩
    · cases hp
    · cases hm
    · cases hσ
  have hsound : IdentityState.Sound (History.replay (IdentityState.step env) {} events) :=
    History.replay_invariant _ (fun _ _ _ h hstep => h.step hstep) hempty events
  have hends : ∀ p ∈ db.persons, ∃ q ∈ db.persons, q.canonical = true ∧
      Leads db.supersededBy p.id q.id ∧
        ∀ n ≥ db.persons.length, followSupersession db.persons n p = some q := by
    intro p hp
    obtain ⟨q, hq, hcanonical, hleads, hfollow⟩ := exists_canonical hsound.ids hsound.linked
      db.persons.length hp (List.length_filter_le _ _)
    exact ⟨q, hq, hcanonical, hleads, fun n hn =>
      followSupersession_mono hfollow hcanonical (List.prefix_refl _) hn⟩
  refine ⟨hends, fun source handle displayHint id now p hlookup => ?_⟩
  have hp : p ∈ db.persons := by
    have hfound := hlookup
    unfold lookupHandle at hfound
    split at hfound
    · cases hfound
    · next q hq =>
      cases hfound
      have hmem : p ∈ db.personsWithHandle source handle := by simp [hq]
      exact List.mem_of_mem_filter hmem
    · cases hfound
  obtain ⟨q, hq, hcanonical, hleads, hfollow⟩ := hends p hp
  refine ⟨q, hq, hcanonical, hleads, ?_⟩
  simp only [getOrCreatePerson, hlookup, hfollow db.persons.length le_rfl]

end VCBrain
