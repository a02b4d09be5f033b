import VCBrain.Db.Rows

set_option relaxedAutoImplicit false
set_option autoImplicit false

/-!
# Two discovery runs at the same time

A discovery run goes through its seeds in one transaction. For each it looks the person up by the
handle or creates it, collects what is new, and looks an opportunity of the person up or creates
one, with an organization under the name of the company.

Persons and organizations have a unique stable id, but an insertion that is refused is not
handled: the run fails, with what it has done for all its seeds. For an opportunity of a person
there is no constraint, so two runs that have both found none create two. And as the runs keep what
they have inserted and updated to themselves until the end, they can wait for each other.

## Main definitions

* `FounderSeed`, `DiscoveryRun` — a run and what it meets.
* `DiscoveryRun.program` — its statements.
* `Undisturbed` — the run is not refused, does not see an opportunity appear, and is not rolled
  back.
* `DiscoverySound` — no failure, one person for each handle, one opportunity for each person.

## Main results

* `discovery_sound_of_undisturbed` — two undisturbed runs are sound.

## Design

The seeds that are not classified as persons, or have no collector, create no row and are left out.
What the connector returns, whether the person was collected recently, the name of the company and
whether the signal reaches the threshold are inputs of a run. Of the evidence that is written in
savepoints only the fingerprints matter, which can make a run wait. Rows without unique constraints
that the job does not read are left out.
-/

namespace VCBrain

open ReadCommitted

/-! ## The runs -/

/-- What becomes of the collection for a seed. -/
inductive Collection where
  /-- The person was collected recently. -/
  | fresh
  /-- The connector fails. -/
  | failed
  /-- Evidence about the person is written, and the person may get another display name. -/
  | collected (evidence : Uuid → List Str) (renamed : Bool)

/-- A seed that is taken for a person, and what the run meets about it. -/
structure FounderSeed where
  source : Str
  handle : Str
  displayHint : Str := []
  collection : Collection
  companyName : Str
  interesting : Bool

/-- A run of `discover_job`. -/
structure DiscoveryRun where
  ucd : Ucd
  md5 : List UInt8 → Str
  source : Str
  seeds : List FounderSeed
  now : Time
  draw : ℕ → Uuid

/-- What a run does next about its first seed. -/
inductive DiscoveryPhase where
  | person
  | newPerson
  | evidence (personId : Uuid) (left : List Str) (renamed : Bool)
  | rename (personId : Uuid)
  | opportunity (personId : Uuid)
  | organization (personId : Uuid)
  | newOrganization (personId : Uuid)
  | newOpportunity (personId organizationId : Uuid)
  | link (personId opportunityId : Uuid)
  | move (opportunityId : Uuid)
  /-- All seeds are processed, and the success is recorded. -/
  | finish
  | raising
  | failed
  | done
deriving DecidableEq

/-- The seeds left, and the phase of the first one. -/
structure DiscoveryStage where
  seeds : List FounderSeed
  phase : DiscoveryPhase

/-- What a run updates and so locks. -/
inductive DiscoveryLock where
  | telemetry (source : Str)
  | person (id : Uuid)
  | opportunity (id : Uuid)
deriving DecidableEq

/-- Follow the supersessions of a person; `none` if a row is missing. -/
def followSupersession (persons : List Person) : ℕ → Person → Option Person
  | 0, p => some p
  | n + 1, p =>
    if p.canonical then some p
    else
      match p.supersededById with
      | none => some p
      | some id => (persons.find? fun q => q.id = id).bind (followSupersession persons n)

/-- The person that stands for a row. -/
def canonicalPerson (rows : List Row) (p : Person) : Option Person :=
  let persons := rows.filterMap Row.person?
  followSupersession persons persons.length p

namespace DiscoveryRun

variable (run : DiscoveryRun)

/-- The person created for a seed. -/
def newPerson (seed : FounderSeed) (left : ℕ) : Person where
  id := run.draw (3 * left)
  stableId := seed.source ++ ":".toList ++ seed.handle
  displayName := some (if seed.displayHint ≠ [] then seed.displayHint else seed.handle)
  handles := some (Dict.empty.setDefault seed.source seed.handle)
  consentState := "pending"
  createdAt := run.now

/-- The organization created for a seed. -/
def newOrganization (seed : FounderSeed) (left : ℕ) : Organization where
  id := run.draw (3 * left + 1)
  stableId := organizationStableId run.ucd run.md5 seed.companyName
  name := seed.companyName.strip

/-- The opportunity created for a seed. -/
def newOpportunity (seed : FounderSeed) (left : ℕ) : Opportunity where
  id := run.draw (3 * left + 2)
  companyName := seed.companyName
  sourceKind := "outbound"
  lifecycleState := .discovered
  createdAt := run.now

/-- What a run does once it has the person. -/
def afterPerson (seed : FounderSeed) (rest : List FounderSeed) (personId : Uuid) :
    DiscoveryStage :=
  match seed.collection with
  | .fresh => ⟨seed :: rest, .opportunity personId⟩
  | .failed => ⟨rest, .person⟩
  | .collected evidence renamed => ⟨seed :: rest, .evidence personId (evidence personId) renamed⟩

/-- What a run does once it has an opportunity. -/
def afterOpportunity (seed : FounderSeed) (rest : List FounderSeed) (o : Opportunity) :
    DiscoveryStage :=
  if seed.interesting ∧ o.lifecycleState = .discovered then ⟨seed :: rest, .move o.id⟩
  else ⟨rest, .person⟩

/-- The statements about the first seed: `_get_or_create_person`, the collection,
`get_or_create_opportunity` with `get_or_create_organization`, and `transition_opportunity`. -/
def seedStatement (seed : FounderSeed) (rest : List FounderSeed) :
    DiscoveryPhase → Statement Row DiscoveryLock DiscoveryStage
  | .person => .select fun rows =>
    match personsWithHandle seed.source seed.handle rows with
    | [] => ⟨seed :: rest, .newPerson⟩
    | [p] =>
      match canonicalPerson rows p with
      | some q => afterPerson seed rest q.id
      | none => ⟨seed :: rest, .raising⟩
    | _ => ⟨seed :: rest, .raising⟩
  | .newPerson => .insert (.person (run.newPerson seed rest.length))
    (afterPerson seed rest (run.newPerson seed rest.length).id) ⟨seed :: rest, .raising⟩
  -- a refused insertion is found by the look-up before it or after it
  | .evidence personId (fingerprint :: left) renamed => .insert (.evidence fingerprint)
    ⟨seed :: rest, .evidence personId left renamed⟩
    ⟨seed :: rest, .evidence personId left renamed⟩
  | .evidence personId [] renamed => .lock (.telemetry seed.source)
    ⟨seed :: rest, if renamed then .rename personId else .opportunity personId⟩
  | .rename personId => .lock (.person personId) ⟨seed :: rest, .opportunity personId⟩
  | .opportunity personId => .select fun rows =>
    match latestOpportunity personId rows with
    | some o => afterOpportunity seed rest o
    | none => ⟨seed :: rest, .organization personId⟩
  | .organization personId => .select fun rows =>
    match organizationOf (organizationStableId run.ucd run.md5 seed.companyName) rows with
    | some organization => ⟨seed :: rest, .newOpportunity personId organization.id⟩
    | none => ⟨seed :: rest, .newOrganization personId⟩
  | .newOrganization personId => .insert (.organization (run.newOrganization seed rest.length))
    ⟨seed :: rest, .newOpportunity personId (run.newOrganization seed rest.length).id⟩
    ⟨seed :: rest, .raising⟩
  | .newOpportunity personId organizationId =>
    .insert (.opportunity (run.newOpportunity seed rest.length) organizationId)
      ⟨seed :: rest, .link personId (run.newOpportunity seed rest.length).id⟩
      ⟨seed :: rest, .raising⟩
  | .link personId opportunityId =>
    .insert (.founder { opportunityId := opportunityId, personId := personId, role := "founder" })
      (afterOpportunity seed rest (run.newOpportunity seed rest.length)) ⟨seed :: rest, .raising⟩
  | .move opportunityId => .lock (.opportunity opportunityId) ⟨rest, .person⟩
  | .finish => .stop
  | .raising => .rollback ⟨seed :: rest, .failed⟩
  | .failed => .stop
  | .done => .stop

/-- The statements of a run: those about the seeds, the record of its success, and the commit. -/
def program (stage : DiscoveryStage) : Statement Row DiscoveryLock DiscoveryStage :=
  match stage.seeds, stage.phase with
  | seed :: rest, phase => run.seedStatement seed rest phase
  | [], .finish => .commit ⟨[], .done⟩
  | [], .raising => .rollback ⟨[], .failed⟩
  | [], .failed => .stop
  | [], .done => .stop
  | [], _ => .lock (.telemetry run.source) ⟨[], .finish⟩

end DiscoveryRun

/-! ## Soundness -/

/-- The person has the outbound opportunity, where `holds` says which rows there are. -/
def HasOutbound (holds : Row → Prop) (personId opportunityId : Uuid) : Prop :=
  (∃ role, holds (.founder { opportunityId, personId, role })) ∧
    ∃ o organizationId, holds (.opportunity o organizationId) ∧ o.id = opportunityId ∧
      o.sourceKind = "outbound"

/-- The state of two runs. -/
abbrev DiscoveryState := State Bool Row DiscoveryLock DiscoveryStage

/-- No run has failed, each seed of a run that is done has exactly one person, which leads to one
that is canonical, and no person has two outbound opportunities. -/
structure DiscoverySound (runs : Bool → DiscoveryRun) (s : DiscoveryState) : Prop where
  noFailure : ∀ t, (s.tx t).stage.phase ≠ .raising ∧ (s.tx t).stage.phase ≠ .failed
  onePerson : ∀ t, (s.tx t).stage.phase = .done → ∀ seed ∈ (runs t).seeds, ∃ p q,
    personsWithHandle seed.source seed.handle s.committed = [p] ∧
      canonicalPerson s.committed p = some q ∧ q.canonical = true
  oneOpportunity : ∀ personId o o', HasOutbound (· ∈ s.committed) personId o →
    HasOutbound (· ∈ s.committed) personId o' → o = o'

/-- What the runs rely on: the unique constraints and the foreign key of the founders hold, a handle
of a seed has at most one person, which leads to one that is canonical, and no person has two
outbound opportunities. -/
structure DiscoveryReady (runs : Bool → DiscoveryRun) (rows : List Row) : Prop where
  unclashed : rows.Pairwise fun r q => ¬ Row.Clash r q
  founders : ∀ f, .founder f ∈ rows →
    ∃ o organizationId, .opportunity o organizationId ∈ rows ∧ o.id = f.opportunityId
  onePerson : ∀ t, ∀ seed ∈ (runs t).seeds, ∀ p q, .person p ∈ rows → .person q ∈ rows →
    p.HasHandle seed.source seed.handle → q.HasHandle seed.source seed.handle → p = q
  canonical : ∀ t, ∀ seed ∈ (runs t).seeds, ∀ p, .person p ∈ rows →
    p.HasHandle seed.source seed.handle →
      ∃ q, canonicalPerson rows p = some q ∧ q.canonical = true
  oneOpportunity : ∀ personId o o', HasOutbound (· ∈ rows) personId o →
    HasOutbound (· ∈ rows) personId o' → o = o'

/-- What disturbs no run. A row that is inserted outside a savepoint is not refused, a person who is
linked to an opportunity has no outbound one yet, committed or not, and no run is rolled back to end
a deadlock. -/
def Undisturbed (runs : Bool → DiscoveryRun) (s : DiscoveryState) : Event Bool → Prop
  | .victim _ => False
  | .statement t => ∀ row ∈ ((runs t).program (s.tx t).stage).row?,
    (row.isEvidence = false → ¬ Refused s Row.Clash t row) ∧
      ∀ f ∈ row.founder?, ¬ ∃ o, HasOutbound s.Holds f.personId o

/-- The rows that some run sees. -/
def heldRows (s : DiscoveryState) : List Row := s.visible false ++ s.visible true

lemma mem_heldRows {s : DiscoveryState} {r : Row} : r ∈ heldRows s ↔ s.Holds r := by
  rw [heldRows, List.mem_append, State.Holds, Bool.exists_bool]

/-- Whether a person has an outbound opportunity is seen from the rows. -/
lemma exists_hasOutbound_iff {s : DiscoveryState} {personId : Uuid} :
    (∃ r ∈ heldRows s, ∃ f ∈ r.founder?, f.personId = personId ∧
      ∃ q ∈ heldRows s, ∃ o ∈ q.opportunity?, o.id = f.opportunityId ∧ o.sourceKind = "outbound") ↔
    ∃ o, HasOutbound s.Holds personId o := by
  constructor
  · rintro ⟨r, hr, f, hf, rfl, q, hq, o, ho, hid, hkind⟩
    cases r <;> cases hf
    cases q <;> cases ho
    exact ⟨_, ⟨_, mem_heldRows.mp hr⟩, o, _, mem_heldRows.mp hq, hid, hkind⟩
  · rintro ⟨_, ⟨role, hrole⟩, o, organizationId, ho, rfl, hkind⟩
    exact ⟨_, mem_heldRows.mpr hrole, _, rfl, rfl, _, mem_heldRows.mpr ho, o, rfl, rfl, hkind⟩

instance (s : DiscoveryState) (personId : Uuid) :
    Decidable (∃ o, HasOutbound s.Holds personId o) :=
  decidable_of_iff _ exists_hasOutbound_iff

instance (runs : Bool → DiscoveryRun) (s : DiscoveryState) :
    ∀ event, Decidable (Undisturbed runs s event)
  | .victim _ => .isFalse id
  | .statement t => inferInstanceAs (Decidable (∀ row ∈ ((runs t).program (s.tx t).stage).row?,
      (row.isEvidence = false → ¬ Refused s Row.Clash t row) ∧
        ∀ f ∈ row.founder?, ¬ ∃ o, HasOutbound s.Holds f.personId o))

/-- One event of two runs. -/
def discoveryStep (runs : Bool → DiscoveryRun) : DiscoveryState → Event Bool →
    Option DiscoveryState :=
  eventStep Row.Clash (fun t => (runs t).program) fun stage => ⟨stage.seeds, .failed⟩

/-- The state in which the runs start. -/
def discoveryStart (runs : Bool → DiscoveryRun) (rows : List Row) : DiscoveryState :=
  start rows fun t => ⟨(runs t).seeds, .person⟩

/-! ## Canonical persons -/

section Canonical

variable {persons persons' : List Person} {p q : Person} {n m : ℕ}

/-- A canonical person stands for itself. -/
lemma followSupersession_of_canonical (h : p.canonical = true) :
    followSupersession persons n p = some p := by
  cases n with
  | zero => rfl
  | succ n => rw [followSupersession, if_pos h]

/-- A chain that ends in a canonical person is not changed by further rows. -/
lemma followSupersession_mono (h : followSupersession persons n p = some q)
    (hq : q.canonical = true) (hpre : persons <+: persons') (hle : n ≤ m) :
    followSupersession persons' m p = some q := by
  induction n generalizing p m with
  | zero =>
    obtain rfl := Option.some.inj h
    exact followSupersession_of_canonical hq
  | succ n ih =>
    by_cases hp : p.canonical = true
    · rw [followSupersession_of_canonical hp] at h ⊢
      exact h
    · obtain ⟨m, rfl⟩ := Nat.exists_eq_add_of_le' (Nat.lt_of_lt_of_le n.succ_pos hle)
      rw [followSupersession, if_neg hp] at h ⊢
      cases hnext : p.supersededById with
      | none =>
        rw [hnext] at h
        obtain rfl := Option.some.inj h
        exact absurd hq hp
      | some id =>
        rw [hnext] at h
        obtain ⟨x, hx, hchain⟩ := Option.bind_eq_some_iff.mp h
        dsimp only
        rw [hpre.find?_eq_some hx, Option.bind_some]
        exact ih hchain (Nat.le_of_succ_le_succ hle)

lemma canonicalPerson_of_canonical {rows : List Row} (h : p.canonical = true) :
    canonicalPerson rows p = some p := followSupersession_of_canonical h

/-- Who stands for a row is not changed by further rows, if it is canonical. -/
lemma canonicalPerson_mono {rows rows' : List Row} (h : canonicalPerson rows p = some q)
    (hq : q.canonical = true) (hpre : rows <+: rows') : canonicalPerson rows' p = some q :=
  followSupersession_mono h hq (hpre.filterMap _) (hpre.filterMap _).length_le

end Canonical

/-! ## The invariant of two runs -/

/-- There is a person for the seed. -/
def Known (rows : List Row) (seed : FounderSeed) : Prop :=
  ∃ p, .person p ∈ rows ∧ p.HasHandle seed.source seed.handle

lemma Known.mono {rows rows' : List Row} {seed : FounderSeed} (h : Known rows seed)
    (hrows : rows ⊆ rows') : Known rows' seed := by
  obtain ⟨p, hp, hhandle⟩ := h
  exact ⟨p, hrows hp, hhandle⟩

/-- What a run knows in a phase: before it creates a person, that there was none initially, and
afterwards that there is one. -/
def PhaseInv (initial visible pending : List Row) (seeds : List FounderSeed) :
    DiscoveryPhase → Prop
  | .person => True
  | .newPerson => ∀ seed ∈ seeds.head?, ∀ q, .person q ∈ initial →
    ¬ q.HasHandle seed.source seed.handle
  | .link _ opportunityId => (∀ seed ∈ seeds.head?, Known visible seed) ∧
    ∃ o organizationId, .opportunity o organizationId ∈ visible ∧ o.id = opportunityId
  | .finish => seeds = []
  | .raising => False
  | .failed => False
  | .done => seeds = [] ∧ pending = []
  | _ => ∀ seed ∈ seeds.head?, Known visible seed

/-- What holds of one run: there is a person for each seed it has processed. -/
structure RunInv (initial visible pending : List Row) (run : DiscoveryRun)
    (stage : DiscoveryStage) : Prop where
  processed : ∃ before, run.seeds = before ++ stage.seeds ∧ ∀ seed ∈ before, Known visible seed
  phase : PhaseInv initial visible pending stage.seeds stage.phase

/-- A person that a run has created, for a handle that no person had initially. -/
def MadePerson (initial : List Row) (p : Person) : Prop :=
  ∃ source handle, p.stableId = source ++ ":".toList ++ handle ∧
    (∀ source' handle', p.HasHandle source' handle' → source' = source ∧ handle' = handle) ∧
    p.canonical = true ∧ ∀ q, .person q ∈ initial → ¬ q.HasHandle source handle

/-- What holds of two runs. -/
structure DiscoveryInv (runs : Bool → DiscoveryRun) (initial : List Row) (s : DiscoveryState) :
    Prop where
  unclashed : Unclashed Row.Clash s
  kept : initial <+: s.committed
  run : ∀ t, RunInv initial (s.visible t) (s.tx t).pending (runs t) (s.tx t).stage
  persons : ∀ p, s.Holds (.person p) → .person p ∈ initial ∨ MadePerson initial p
  founders : ∀ f, s.Holds (.founder f) →
    ∃ o organizationId, s.Holds (.opportunity o organizationId) ∧ o.id = f.opportunityId
  oneOpportunity : ∀ personId o o', HasOutbound s.Holds personId o →
    HasOutbound s.Holds personId o' → o = o'

section Invariant

variable {runs : Bool → DiscoveryRun} {initial : List Row} {s s' : DiscoveryState} {t u : Bool}
  {tx : Tx Row DiscoveryLock DiscoveryStage} {row : Row} {seed : FounderSeed}
  {rest : List FounderSeed}

/-- What a run knows stays true when it sees more. -/
lemma RunInv.mono {visible visible' pending : List Row} {run : DiscoveryRun}
    {stage : DiscoveryStage} (h : RunInv initial visible pending run stage)
    (hrows : visible ⊆ visible') : RunInv initial visible' pending run stage := by
  obtain ⟨⟨before, hseeds, hbefore⟩, hphase⟩ := h
  refine ⟨⟨before, hseeds, fun seed hseed => (hbefore seed hseed).mono hrows⟩, ?_⟩
  obtain ⟨seeds, phase⟩ := stage
  have hknown : (∀ seed ∈ seeds.head?, Known visible seed) →
      ∀ seed ∈ seeds.head?, Known visible' seed :=
    fun hhead seed hseed => (hhead seed hseed).mono hrows
  cases phase with
  | person => trivial
  | newPerson => exact hphase
  | link personId opportunityId =>
    obtain ⟨hhead, o, organizationId, ho, hid⟩ := hphase
    exact ⟨hknown hhead, o, organizationId, hrows ho, hid⟩
  | finish => exact hphase
  | raising => exact hphase
  | failed => exact hphase
  | done => exact hphase
  | _ => exact hknown hphase

/-- Two persons with the handle of a seed are one. -/
lemma DiscoveryInv.one_person (hready : DiscoveryReady runs initial)
    (h : DiscoveryInv runs initial s) (hseed : seed ∈ (runs t).seeds) {p q : Person}
    (hp : s.Holds (.person p)) (hq : s.Holds (.person q))
    (hphandle : p.HasHandle seed.source seed.handle)
    (hqhandle : q.HasHandle seed.source seed.handle) : p = q := by
  rcases h.persons p hp with hpinit | ⟨source, handle, hpid, hponly, -, hpnew⟩
  · rcases h.persons q hq with hqinit | ⟨source, handle, -, hqonly, -, hqnew⟩
    · exact hready.onePerson t seed hseed p q hpinit hqinit hphandle hqhandle
    · obtain ⟨rfl, rfl⟩ := hqonly _ _ hqhandle
      exact absurd hphandle (hqnew p hpinit)
  · obtain ⟨rfl, rfl⟩ := hponly _ _ hphandle
    rcases h.persons q hq with hqinit | ⟨source', handle', hqid, hqonly, -, -⟩
    · exact absurd hqhandle (hpnew q hqinit)
    · obtain ⟨rfl, rfl⟩ := hqonly _ _ hqhandle
      exact Row.person.inj (h.unclashed.eq_of_clash Row.clash_comm hp hq
        (clash_of_stableId (hpid.trans hqid.symm)))

/-- The person with the handle of a seed leads to a canonical one. -/
lemma DiscoveryInv.canonical (hready : DiscoveryReady runs initial)
    (h : DiscoveryInv runs initial s) (hseed : seed ∈ (runs t).seeds) {p : Person}
    (hp : s.Holds (.person p)) (hhandle : p.HasHandle seed.source seed.handle) {rows : List Row}
    (hrows : initial <+: rows) : ∃ q, canonicalPerson rows p = some q ∧ q.canonical = true := by
  rcases h.persons p hp with hinit | ⟨source, handle, -, -, hcanonical, -⟩
  · obtain ⟨q, hq, hcanonical⟩ := hready.canonical t seed hseed p hinit hhandle
    exact ⟨q, canonicalPerson_mono hq hcanonical hrows, hcanonical⟩
  · exact ⟨p, canonicalPerson_of_canonical hcanonical, hcanonical⟩

/-- The runs start in the invariant. -/
lemma discoveryInv_start (hready : DiscoveryReady runs initial) :
    DiscoveryInv runs initial (discoveryStart runs initial) := by
  have hholds : ∀ r, (discoveryStart runs initial).Holds r → r ∈ initial := by
    rintro r ⟨t, hr⟩
    rwa [discoveryStart, State.visible, start, List.append_nil] at hr
  have hheld : ∀ r, r ∈ initial → (discoveryStart runs initial).Holds r := fun r hr =>
    ⟨true, State.mem_visible.mpr (Or.inl hr)⟩
  have houtbound : ∀ personId o, HasOutbound (discoveryStart runs initial).Holds personId o →
      HasOutbound (· ∈ initial) personId o := by
    rintro personId o ⟨⟨role, hrole⟩, x, organizationId, hx, hid, hkind⟩
    exact ⟨⟨role, hholds _ hrole⟩, x, organizationId, hholds _ hx, hid, hkind⟩
  refine ⟨unclashed_start hready.unclashed, List.prefix_refl _, fun t => ?_, fun p hp => ?_,
    fun f hf => ?_, fun personId o o' ho ho' => ?_⟩
  · exact ⟨⟨[], rfl, by simp⟩, trivial⟩
  · exact Or.inl (hholds _ hp)
  · obtain ⟨o, organizationId, ho, hid⟩ := hready.founders f (hholds _ hf)
    exact ⟨o, organizationId, hheld _ ho, hid⟩
  · exact hready.oneOpportunity personId o o' (houtbound _ _ ho) (houtbound _ _ ho')

/-- A run goes on without inserting anything. -/
lemma DiscoveryInv.put (h : DiscoveryInv runs initial s)
    (htx : tx.pending = (s.tx t).pending)
    (hrun : RunInv initial (s.visible t) tx.pending (runs t) tx.stage) :
    DiscoveryInv runs initial (s.put t tx) := by
  have hholds : (s.put t tx).Holds = s.Holds := funext fun r => propext (State.holds_put htx)
  refine ⟨h.unclashed.put (htx ▸ List.Sublist.refl _), h.kept, fun u => ?_, ?_, ?_, ?_⟩
  · by_cases hu : u = t
    · subst hu
      rw [State.visible_put_self, State.put_tx_self, htx]
      rw [htx] at hrun
      exact hrun
    · rw [State.visible_put_of_ne hu, State.put_tx_of_ne hu]
      exact h.run u
  · rw [hholds]
    exact h.persons
  · rw [hholds]
    exact h.founders
  · rw [hholds]
    exact h.oneOpportunity

/-- A run commits. -/
lemma DiscoveryInv.publish {stage : DiscoveryStage} (h : DiscoveryInv runs initial s)
    (hunclashed : Unclashed Row.Clash (s.publish t stage))
    (hrun : RunInv initial (s.visible t) [] (runs t) stage) :
    DiscoveryInv runs initial (s.publish t stage) := by
  have hholds : (s.publish t stage).Holds = s.Holds :=
    funext fun r => propext State.holds_publish
  refine ⟨hunclashed, ?_, fun u => ?_, ?_, ?_, ?_⟩
  · exact h.kept.trans (List.prefix_append _ _)
  · by_cases hu : u = t
    · subst hu
      rw [State.visible_publish_self, State.publish_tx_self]
      exact hrun
    · have hsubset : s.visible u ⊆ (s.publish t stage).visible u := State.visible_subset_publish
      have hmono := (h.run u).mono hsubset
      rw [State.publish_tx_of_ne hu]
      exact hmono
  · rw [hholds]
    exact h.persons
  · rw [hholds]
    exact h.founders
  · rw [hholds]
    exact h.oneOpportunity

/-- What is outbound after an insertion was so before, or is the one that is linked. -/
lemma DiscoveryInv.hasOutbound_insert (h : DiscoveryInv runs initial s)
    (htx : tx.pending = (s.tx t).pending ++ [row])
    (hopportunity : ∀ o organizationId, row = .opportunity o organizationId →
      ∀ o' organizationId', s.Holds (.opportunity o' organizationId') → o'.id ≠ o.id)
    {personId o : Uuid} (ho : HasOutbound (s.put t tx).Holds personId o) :
    HasOutbound s.Holds personId o ∨
      ∃ role, row = .founder { opportunityId := o, personId := personId, role := role } := by
  obtain ⟨⟨role, hrole⟩, x, organizationId, hx, hid, hkind⟩ := ho
  rcases (State.holds_put_insert htx).mp hrole with hrole | heq
  · rcases (State.holds_put_insert htx).mp hx with hx | heq
    · exact Or.inl ⟨⟨role, hrole⟩, x, organizationId, hx, hid, hkind⟩
    · obtain ⟨y, organizationId', hy, hyid⟩ := h.founders _ hrole
      exact absurd (hyid.trans hid.symm) (hopportunity x organizationId heq.symm y _ hy)
  · exact Or.inr ⟨role, heq.symm⟩

/-- A run inserts a row: a person it may create, an opportunity under a new id, or a founder of an
opportunity who has no outbound one. -/
lemma DiscoveryInv.insert (h : DiscoveryInv runs initial s)
    (htx : tx.pending = (s.tx t).pending ++ [row])
    (hunclashed : Unclashed Row.Clash (s.put t tx))
    (hrun : RunInv initial (s.visible t ++ [row]) tx.pending (runs t) tx.stage)
    (hperson : ∀ p, row = .person p → MadePerson initial p)
    (hopportunity : ∀ o organizationId, row = .opportunity o organizationId →
      ∀ o' organizationId', s.Holds (.opportunity o' organizationId') → o'.id ≠ o.id)
    (hfounder : ∀ f, row = .founder f →
      (∃ o organizationId, s.Holds (.opportunity o organizationId) ∧ o.id = f.opportunityId) ∧
        ¬ ∃ o, HasOutbound s.Holds f.personId o) :
    DiscoveryInv runs initial (s.put t tx) := by
  refine ⟨hunclashed, h.kept, fun u => ?_, fun p hp => ?_, fun f hf => ?_,
    fun personId o o' ho ho' => ?_⟩
  · by_cases hu : u = t
    · subst hu
      rw [State.visible_put_self, State.put_tx_self, htx, ← List.append_assoc, ← htx]
      exact hrun
    · rw [State.visible_put_of_ne hu, State.put_tx_of_ne hu]
      exact h.run u
  · rcases (State.holds_put_insert htx).mp hp with hp | heq
    · exact h.persons p hp
    · exact Or.inr (hperson p heq.symm)
  · have hkept : (∃ o organizationId, s.Holds (.opportunity o organizationId) ∧
        o.id = f.opportunityId) → ∃ o organizationId,
          (s.put t tx).Holds (.opportunity o organizationId) ∧ o.id = f.opportunityId := by
      rintro ⟨o, organizationId, ho, hid⟩
      exact ⟨o, organizationId, (State.holds_put_insert htx).mpr (Or.inl ho), hid⟩
    rcases (State.holds_put_insert htx).mp hf with hf | heq
    · exact hkept (h.founders f hf)
    · exact hkept (hfounder f heq.symm).1
  · rcases h.hasOutbound_insert htx hopportunity ho with hold | ⟨role, rfl⟩
    · rcases h.hasOutbound_insert htx hopportunity ho' with hold' | ⟨role, rfl⟩
      · exact h.oneOpportunity personId o o' hold hold'
      · exact absurd ⟨o, hold⟩ (hfounder _ rfl).2
    · rcases h.hasOutbound_insert htx hopportunity ho' with hold' | ⟨role', heq⟩
      · exact absurd ⟨o', hold'⟩ (hfounder _ rfl).2
      · exact congrArg OpportunityFounder.opportunityId (Row.founder.inj heq)

/-! ### The statements -/

/-- A run goes on with its next seed once there is a person for this one. -/
lemma RunInv.next {visible visible' pending pending' : List Row} {run : DiscoveryRun}
    {phase : DiscoveryPhase} (h : RunInv initial visible pending run ⟨seed :: rest, phase⟩)
    (hrows : visible ⊆ visible') (hknown : Known visible' seed) :
    RunInv initial visible' pending' run ⟨rest, .person⟩ := by
  obtain ⟨⟨before, hseeds, hbefore⟩, -⟩ := h
  refine ⟨⟨before ++ [seed], by rw [hseeds, List.append_assoc]; rfl, fun x hx => ?_⟩, trivial⟩
  rcases List.mem_append.mp hx with hx | hx
  · exact (hbefore x hx).mono hrows
  · rwa [List.mem_singleton.mp hx]

/-- A run goes on with the same seed. -/
lemma RunInv.stay {visible visible' pending pending' : List Row} {run : DiscoveryRun}
    {phase phase' : DiscoveryPhase} (h : RunInv initial visible pending run ⟨seed :: rest, phase⟩)
    (hrows : visible ⊆ visible')
    (hphase : PhaseInv initial visible' pending' (seed :: rest) phase') :
    RunInv initial visible' pending' run ⟨seed :: rest, phase'⟩ := by
  obtain ⟨⟨before, hseeds, hbefore⟩, -⟩ := h
  exact ⟨⟨before, hseeds, fun x hx => (hbefore x hx).mono hrows⟩, hphase⟩

/-- A known seed is known as the head of the seeds left. -/
lemma Known.head {rows : List Row} (h : Known rows seed) :
    ∀ x ∈ (seed :: rest).head?, Known rows x := by
  rintro x hx
  obtain rfl := Option.some.inj hx
  exact h

/-- What a run does after it has the person. -/
lemma RunInv.afterPerson {visible visible' pending pending' : List Row} {run : DiscoveryRun}
    {phase : DiscoveryPhase} (h : RunInv initial visible pending run ⟨seed :: rest, phase⟩)
    (hrows : visible ⊆ visible') (hknown : Known visible' seed) (personId : Uuid) :
    RunInv initial visible' pending' run
      (DiscoveryRun.afterPerson seed rest personId) := by
  unfold DiscoveryRun.afterPerson
  split
  · exact h.stay hrows hknown.head
  · exact h.next hrows hknown
  · exact h.stay hrows hknown.head

/-- What a run does after it has the opportunity. -/
lemma RunInv.afterOpportunity {visible visible' pending pending' : List Row} {run : DiscoveryRun}
    {phase : DiscoveryPhase} (h : RunInv initial visible pending run ⟨seed :: rest, phase⟩)
    (hrows : visible ⊆ visible') (hknown : Known visible' seed) (o : Opportunity) :
    RunInv initial visible' pending' run
      (DiscoveryRun.afterOpportunity seed rest o) := by
  unfold DiscoveryRun.afterOpportunity
  split_ifs
  · exact h.stay hrows hknown.head
  · exact h.next hrows hknown

/-- The seeds left are seeds of the run. -/
lemma RunInv.mem_seeds {visible pending : List Row} {run : DiscoveryRun} {phase : DiscoveryPhase}
    (h : RunInv initial visible pending run ⟨seed :: rest, phase⟩) : seed ∈ run.seeds := by
  obtain ⟨⟨before, hseeds, -⟩, -⟩ := h
  rw [hseeds]
  exact List.mem_append_right _ (List.mem_cons_self ..)

/-- The look-up of a person finds at most one, and who stands for it. -/
lemma DiscoveryInv.find_person (hready : DiscoveryReady runs initial)
    (h : DiscoveryInv runs initial s) (hseed : seed ∈ (runs t).seeds) :
    (personsWithHandle seed.source seed.handle (s.visible t) = [] ∧
        ∀ p, .person p ∈ s.visible t → ¬ p.HasHandle seed.source seed.handle) ∨
      ∃ p q, personsWithHandle seed.source seed.handle (s.visible t) = [p] ∧
        canonicalPerson (s.visible t) p = some q ∧ q.canonical = true ∧
        Known (s.visible t) seed := by
  have hone : ∀ p q, .person p ∈ s.visible t → .person q ∈ s.visible t →
      p.HasHandle seed.source seed.handle → q.HasHandle seed.source seed.handle → p = q :=
    fun p q hp hq => h.one_person hready hseed ⟨t, hp⟩ ⟨t, hq⟩
  rcases personsWithHandle_cases (h.unclashed.seen t) hone with hnone | ⟨p, hfound, hp, hhandle⟩
  · exact Or.inl hnone
  · obtain ⟨q, hq, hcanonical⟩ := h.canonical hready hseed ⟨t, hp⟩ hhandle
      (h.kept.trans (List.prefix_append _ _))
    exact Or.inr ⟨p, q, hfound, hq, hcanonical, p, hp, hhandle⟩

/-- A look-up leads to a stage in which the run is well. -/
lemma DiscoveryInv.selected (hready : DiscoveryReady runs initial)
    (h : DiscoveryInv runs initial s) {next : List Row → DiscoveryStage}
    (hprogram : (runs t).program (s.tx t).stage = .select next) :
    RunInv initial (s.visible t) (s.tx t).pending (runs t) (next (s.visible t)) := by
  have hrun := h.run t
  cases hstage : (s.tx t).stage with
  | mk seeds phase =>
    rw [hstage] at hprogram hrun
    cases seeds with
    | nil => cases phase <;> cases hprogram
    | cons seed rest =>
      cases phase with
      | person =>
        cases hprogram
        dsimp only
        rcases h.find_person hready hrun.mem_seeds with
          ⟨hfound, hnone⟩ | ⟨p, q, hfound, hq, -, hknown⟩
        · rw [hfound]
          refine hrun.stay (List.Subset.refl _) ?_
          rintro x hx q hq
          obtain rfl := Option.some.inj hx
          exact hnone q (State.mem_visible.mpr (Or.inl (h.kept.subset hq)))
        · rw [hfound]
          dsimp only
          rw [hq]
          exact hrun.afterPerson (List.Subset.refl _) hknown q.id
      | opportunity personId =>
        cases hprogram
        have hknown : Known (s.visible t) seed := hrun.phase seed rfl
        dsimp only
        split
        · exact hrun.afterOpportunity (List.Subset.refl _) hknown _
        · exact hrun.stay (List.Subset.refl _) hknown.head
      | organization personId =>
        cases hprogram
        have hknown : Known (s.visible t) seed := hrun.phase seed rfl
        dsimp only
        split
        · exact hrun.stay (List.Subset.refl _) hknown.head
        · exact hrun.stay (List.Subset.refl _) hknown.head
      | evidence personId left renamed => cases left <;> cases hprogram
      | _ => cases hprogram

/-- An update leads to a stage in which the run is well. -/
lemma DiscoveryInv.locked (h : DiscoveryInv runs initial s) {key : DiscoveryLock}
    {next : DiscoveryStage} (hprogram : (runs t).program (s.tx t).stage = .lock key next) :
    RunInv initial (s.visible t) (s.tx t).pending (runs t) next := by
  have hrun := h.run t
  cases hstage : (s.tx t).stage with
  | mk seeds phase =>
    rw [hstage] at hprogram hrun
    cases seeds with
    | nil => cases phase <;> cases hprogram <;> exact ⟨hrun.processed, rfl⟩
    | cons seed rest =>
      cases phase with
      | evidence personId left renamed =>
        have hknown : Known (s.visible t) seed := hrun.phase seed rfl
        cases left <;> cases hprogram
        refine hrun.stay (List.Subset.refl _) ?_
        split_ifs
        · exact hknown.head
        · exact hknown.head
      | rename personId =>
        cases hprogram
        have hknown : Known (s.visible t) seed := hrun.phase seed rfl
        exact hrun.stay (List.Subset.refl _) hknown.head
      | move opportunityId =>
        cases hprogram
        exact hrun.next (List.Subset.refl _) (hrun.phase seed rfl)
      | _ => cases hprogram

/-- A created person has one handle. -/
lemma hasHandle_newPerson {run : DiscoveryRun} {left : ℕ} {source handle : Str} :
    (run.newPerson seed left).HasHandle source handle ↔
      source = seed.source ∧ handle = seed.handle := by
  unfold Person.HasHandle DiscoveryRun.newPerson Dict.setDefault Dict.empty Dict.get?
  simp only [List.map_nil, List.not_mem_nil, dite_false, List.nil_append, Option.bind_some]
  by_cases hsource : source = seed.source
  · subst hsource
    simp [eq_comm]
  · simp [List.lookup_cons, hsource, beq_eq_false_iff_ne.mpr hsource]

/-- An insertion that does not disturb leads to a state in which the runs are well. -/
lemma DiscoveryInv.inserted (h : DiscoveryInv runs initial s)
    (hguard : Undisturbed runs s (.statement t)) {next onConflict : DiscoveryStage}
    (hprogram : (runs t).program (s.tx t).stage = .insert row next onConflict)
    (hrefused : ¬ Refused s Row.Clash t row) (hblocked : ¬ Blocked s Row.Clash t row)
    (hunclashed : Unclashed Row.Clash
      (s.put t { s.tx t with stage := next, pending := (s.tx t).pending ++ [row] })) :
    DiscoveryInv runs initial
      (s.put t { s.tx t with stage := next, pending := (s.tx t).pending ++ [row] }) := by
  have hrun := h.run t
  have hsub : s.visible t ⊆ s.visible t ++ [row] := List.subset_append_left _ _
  have hrow := hguard row (by rw [hprogram]; rfl)
  cases hstage : (s.tx t).stage with
  | mk seeds phase =>
    rw [hstage] at hprogram hrun
    cases seeds with
    | nil => cases phase <;> cases hprogram
    | cons seed rest =>
      cases phase with
      | newPerson =>
        cases hprogram
        have hknown : Known (s.visible t ++ [.person ((runs t).newPerson seed rest.length)])
            seed := ⟨_, List.mem_append_right _ (List.mem_singleton_self _),
          hasHandle_newPerson.mpr ⟨rfl, rfl⟩⟩
        refine h.insert rfl hunclashed (hrun.afterPerson hsub hknown _) ?_
          (fun _ _ heq => nomatch heq) (fun _ heq => nomatch heq)
        rintro p heq
        obtain rfl := Row.person.inj heq
        refine ⟨seed.source, seed.handle, rfl, fun _ _ => hasHandle_newPerson.mp, rfl, ?_⟩
        exact hrun.phase seed rfl
      | evidence personId left renamed =>
        have hknown : Known (s.visible t) seed := hrun.phase seed rfl
        cases left <;> cases hprogram
        exact h.insert rfl hunclashed (hrun.stay hsub (hknown.mono hsub).head)
          (fun _ heq => nomatch heq) (fun _ _ heq => nomatch heq) (fun _ heq => nomatch heq)
      | newOrganization personId =>
        cases hprogram
        have hknown : Known (s.visible t) seed := hrun.phase seed rfl
        exact h.insert rfl hunclashed (hrun.stay hsub (hknown.mono hsub).head)
          (fun _ heq => nomatch heq) (fun _ _ heq => nomatch heq) (fun _ heq => nomatch heq)
      | newOpportunity personId organizationId =>
        cases hprogram
        have hknown : Known (s.visible t) seed := hrun.phase seed rfl
        refine h.insert rfl hunclashed (hrun.stay hsub ⟨(hknown.mono hsub).head, _, _,
          List.mem_append_right _ (List.mem_singleton_self _), rfl⟩) (fun _ heq => nomatch heq) ?_
          (fun _ heq => nomatch heq)
        rintro o organizationId' heq o' organizationId'' ho' hid
        obtain ⟨rfl, rfl⟩ := Row.opportunity.inj heq
        refine not_clash_of_free hrefused hblocked ho' ⟨.opportunityId o'.id, ?_, ?_⟩
        · rw [hid]
          exact List.mem_singleton_self _
        · exact List.mem_singleton_self _
      | link personId opportunityId =>
        cases hprogram
        obtain ⟨hknown, o, organizationId, ho, hid⟩ := hrun.phase
        have hknown' : Known (s.visible t) seed := hknown seed rfl
        refine h.insert rfl hunclashed
          (hrun.afterOpportunity hsub (hknown'.mono hsub) _) (fun _ heq => nomatch heq)
          (fun _ _ heq => nomatch heq) ?_
        rintro f heq
        obtain rfl := Row.founder.inj heq
        exact ⟨⟨o, organizationId, ⟨t, ho⟩, hid⟩, hrow.2 _ rfl⟩
      | _ => cases hprogram

/-- A refusal that does not disturb is one of evidence that is there. -/
lemma DiscoveryInv.refused (h : DiscoveryInv runs initial s)
    (hguard : Undisturbed runs s (.statement t)) {next onConflict : DiscoveryStage}
    (hprogram : (runs t).program (s.tx t).stage = .insert row next onConflict)
    (hrefused : Refused s Row.Clash t row) :
    RunInv initial (s.visible t) (s.tx t).pending (runs t) onConflict := by
  have hrun := h.run t
  have hrow := hguard row (by rw [hprogram]; rfl)
  cases hstage : (s.tx t).stage with
  | mk seeds phase =>
    rw [hstage] at hprogram hrun
    cases seeds with
    | nil => cases phase <;> cases hprogram
    | cons seed rest =>
      cases phase with
      | evidence personId left renamed =>
        have hknown : Known (s.visible t) seed := hrun.phase seed rfl
        cases left <;> cases hprogram
        exact hrun.stay (List.Subset.refl _) hknown.head
      | newPerson =>
        cases hprogram
        exact absurd hrefused (hrow.1 rfl)
      | newOrganization personId =>
        cases hprogram
        exact absurd hrefused (hrow.1 rfl)
      | newOpportunity personId organizationId =>
        cases hprogram
        exact absurd hrefused (hrow.1 rfl)
      | link personId opportunityId =>
        cases hprogram
        exact absurd hrefused (hrow.1 rfl)
      | _ => cases hprogram

/-- A run that commits has processed its seeds. -/
lemma DiscoveryInv.committed (h : DiscoveryInv runs initial s) {next : DiscoveryStage}
    (hprogram : (runs t).program (s.tx t).stage = .commit next) :
    RunInv initial (s.visible t) [] (runs t) next := by
  have hrun := h.run t
  cases hstage : (s.tx t).stage with
  | mk seeds phase =>
    rw [hstage] at hprogram hrun
    cases seeds with
    | nil =>
      cases phase <;> cases hprogram
      exact ⟨hrun.processed, rfl, rfl⟩
    | cons seed rest =>
      cases phase with
      | evidence personId left renamed => cases left <;> cases hprogram
      | _ => cases hprogram

/-- No run that is well is about to roll back. -/
lemma DiscoveryInv.not_rollback (h : DiscoveryInv runs initial s) {next : DiscoveryStage}
    (hprogram : (runs t).program (s.tx t).stage = .rollback next) : False := by
  have hrun := h.run t
  cases hstage : (s.tx t).stage with
  | mk seeds phase =>
    rw [hstage] at hprogram hrun
    cases seeds with
    | nil =>
      cases phase <;> cases hprogram
      exact hrun.phase
    | cons seed rest =>
      cases phase with
      | raising => exact hrun.phase
      | evidence personId left renamed => cases left <;> cases hprogram
      | _ => cases hprogram

/-- An event that disturbs no run keeps the invariant. -/
lemma DiscoveryInv.step (hready : DiscoveryReady runs initial) (h : DiscoveryInv runs initial s)
    {event : Event Bool} (hguard : Undisturbed runs s event)
    (hstep : discoveryStep runs s event = some s') : DiscoveryInv runs initial s' := by
  cases event with
  | victim t => exact hguard.elim
  | statement t =>
    have hstatement : ReadCommitted.step (fun t => (runs t).program) Row.Clash s t = some s' :=
      hstep
    have hexecuted := executed_of_step hstatement
    have hunclashed := h.unclashed.executed Row.clash_comm hexecuted
    cases hexecuted with
    | selected hprogram => exact h.put rfl (h.selected hready hprogram)
    | refused hprogram hrefused => exact h.put rfl (h.refused hguard hprogram hrefused)
    | blocked hprogram hrefused hblocked => exact h
    | inserted hprogram hrefused hblocked =>
      exact h.inserted hguard hprogram hrefused hblocked hunclashed
    | waiting hprogram hlocked => exact h
    | locked hprogram hlocked => exact h.put rfl (h.locked hprogram)
    | committed hprogram => exact h.publish hunclashed (h.committed hprogram)
    | rolledBack hprogram => exact (h.not_rollback hprogram).elim

/-- Runs that are well are sound. -/
lemma DiscoveryInv.sound (hready : DiscoveryReady runs initial)
    (h : DiscoveryInv runs initial s) : DiscoverySound runs s where
  noFailure t := by
    have hphase := (h.run t).phase
    constructor
    · intro heq
      rw [heq] at hphase
      exact hphase
    · intro heq
      rw [heq] at hphase
      exact hphase
  onePerson t hdone seed hseed := by
    have hphase := (h.run t).phase
    obtain ⟨before, hseeds, hbefore⟩ := (h.run t).processed
    rw [hdone] at hphase
    obtain ⟨hnil, hpending⟩ := hphase
    rw [hnil, List.append_nil] at hseeds
    have hvisible : s.visible t = s.committed := by
      rw [State.visible, hpending, List.append_nil]
    obtain ⟨p, hp, hhandle⟩ := hbefore seed (hseeds ▸ hseed)
    rcases h.find_person hready hseed with ⟨-, hnone⟩ | ⟨p, q, hfound, hq, hcanonical, -⟩
    · exact absurd hhandle (hnone p hp)
    · rw [hvisible] at hfound hq
      exact ⟨p, q, hfound, hq, hcanonical⟩
  oneOpportunity personId o o' ho ho' := by
    have hheld : ∀ o, HasOutbound (· ∈ s.committed) personId o →
        HasOutbound s.Holds personId o := by
      rintro o ⟨⟨role, hrole⟩, x, organizationId, hx, hid, hkind⟩
      have hcommitted : ∀ r ∈ s.committed, s.Holds r := fun r hr =>
        ⟨true, State.mem_visible.mpr (Or.inl hr)⟩
      exact ⟨⟨role, hcommitted _ hrole⟩, x, organizationId, hcommitted _ hx, hid, hkind⟩
    exact h.oneOpportunity personId o o' (hheld o ho) (hheld o' ho')

end Invariant

/-- **Concurrent discovery.** In every interleaving of two runs whose events disturb none, the runs
are sound: none fails, each seed of a run that is done has exactly one person, which leads to a
canonical one, and no person has two outbound opportunities.

**Proof sketch.** A person is only created for a handle that no person had initially, under the
stable id of the handle, so two persons with one handle would clash. A founder is only linked if it
has no outbound opportunity. -/
theorem discovery_sound_of_undisturbed (runs : Bool → DiscoveryRun) (rows : List Row)
    (hready : DiscoveryReady runs rows) (events : List (Event Bool))
    (hundisturbed : History.Guarded (discoveryStep runs) (Undisturbed runs)
      (discoveryStart runs rows) events) :
    DiscoverySound runs (History.replay (discoveryStep runs) (discoveryStart runs rows) events) :=
  (History.replay_of_guarded _ (fun _ _ _ h hstep hguard => h.step hready hguard hstep)
    (discoveryInv_start hready) hundisturbed).sound hready

/-! ## Two runs with one seed -/

/-- A person that is found on GitHub. -/
def adaSeed (collection : Collection) : FounderSeed where
  source := "github"
  handle := "ada"
  collection := collection
  companyName := "ada"
  interesting := true

/-- Two runs that have found the same person. -/
def adaRuns (collection : Collection) (t : Bool) : DiscoveryRun where
  ucd := .ascii
  md5 bytes := bytes.map fun b => Char.ofNat b.toNat
  source := "github"
  seeds := [adaSeed collection]
  now := 0
  draw i := Fin.ofNat _ (2 * i + t.toNat)

/-- The person and the company are known, and have no opportunity. -/
def adaRows : List Row :=
  [.person
    { id := 100, stableId := "github:ada"
      handles := some (Dict.empty.setDefault "github" "ada".toList), createdAt := 0 },
    .organization
      { id := 101, stableId := (adaRuns .fresh true).newOrganization (adaSeed .fresh) 0 |>.stableId
        name := "ada" }]

/-- The state after the statements of a schedule. -/
def adaState (collection : Collection) (rows : List Row) (schedule : List Bool) : DiscoveryState :=
  History.replay (discoveryStep (adaRuns collection)) (discoveryStart (adaRuns collection) rows)
    (schedule.map .statement)

lemma discoveryReady_nil (runs : Bool → DiscoveryRun) : DiscoveryReady runs [] where
  unclashed := List.Pairwise.nil
  founders _ h := absurd h List.not_mem_nil
  onePerson _ _ _ _ _ h := absurd h List.not_mem_nil
  canonical _ _ _ _ h := absurd h List.not_mem_nil
  oneOpportunity _ _ _ h := absurd h.1.choose_spec List.not_mem_nil

lemma discoveryReady_adaRows (collection : Collection) :
    DiscoveryReady (adaRuns collection) adaRows := by
  have hperson : ∀ p, .person p ∈ adaRows →
      p = { id := 100, stableId := "github:ada"
            handles := some (Dict.empty.setDefault "github" "ada".toList), createdAt := 0 } := by
    intro p hp
    simpa [adaRows] using hp
  have hfounder : ∀ f, .founder f ∉ adaRows := by
    intro f hf
    simp [adaRows] at hf
  refine ⟨by decide +kernel, fun f hf => absurd hf (hfounder f), ?_, ?_, ?_⟩
  · intro t seed _ p q hp hq _ _
    rw [hperson p hp, hperson q hq]
  · intro t seed _ p hp _
    have hcanonical : p.canonical = true := by rw [hperson p hp]
    exact ⟨p, canonicalPerson_of_canonical hcanonical, hcanonical⟩
  · intro personId o o' ho
    exact absurd ho.1.choose_spec (hfounder _)

/-- Two runs one after another are sound. -/
theorem discovery_sound_of_undisturbed_sequential :
    let runs := adaRuns (.collected (fun _ => ["role".toList]) false)
    let events := (List.replicate 12 false ++ List.replicate 7 true).map Event.statement
    DiscoverySound runs (History.replay (discoveryStep runs) (discoveryStart runs []) events) :=
  discovery_sound_of_undisturbed _ [] (discoveryReady_nil _) _ (by decide +kernel)

/-- **Two races.** Both runs have looked the person up before one creates it, and the other one
fails. Both have looked for an opportunity of a known person before one creates it, and the person
has two. -/
theorem discovery_races :
    (DiscoveryReady (adaRuns (.collected (fun _ => ["role".toList]) false)) [] ∧
      ((adaState (.collected (fun _ => ["role".toList]) false) []
        (true :: List.replicate 12 false ++ [true, true])).tx true).stage.phase = .failed) ∧
    (DiscoveryReady (adaRuns .fresh) adaRows ∧
      HasOutbound (· ∈ (adaState .fresh adaRows
        ([false, true, false, true] ++ List.replicate 6 false ++ List.replicate 6 true)).committed)
          100 4 ∧
      HasOutbound (· ∈ (adaState .fresh adaRows
        ([false, true, false, true] ++ List.replicate 6 false ++ List.replicate 6 true)).committed)
          100 5) := by
  refine ⟨⟨discoveryReady_nil _, by decide +kernel⟩, discoveryReady_adaRows _, ?_, ?_⟩
  · exact ⟨⟨"founder", by decide +kernel⟩, (adaRuns .fresh false).newOpportunity (adaSeed .fresh) 0,
      101, by decide +kernel, rfl, rfl⟩
  · exact ⟨⟨"founder", by decide +kernel⟩, (adaRuns .fresh true).newOpportunity (adaSeed .fresh) 0,
      101, by decide +kernel, rfl, rfl⟩

end VCBrain
