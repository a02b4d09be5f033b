import VCBrain.Identity.Blocking
import VCBrain.Identity.Merge

set_option relaxedAutoImplicit false
set_option autoImplicit false

/-!
# Identity resolution

`resolve_identities` compares the candidate pairs of all canonical persons, merges those it is
sure of, and queues the doubtful ones for review. Each merge changes the observations the rest of
the run sees, and a person who was merged is passed over.

## Main definitions

* `Schedule` — the choices the program leaves to its environment.
* `visitPair` — what the run does with one pair; `resolveIdentities` — the run.
* `Visited` — what one visit can make of the database.

## Main results

* `visited_of_visitPair` — a visit passes, queues the pair, or merges it one way or the other.

## Design

The order in which a query without `ORDER BY` returns its rows and in which a set is traversed are
left open by the program, as are the clock and the ids it draws. They are the fields of a
schedule. A run whose URL parser, merge or insertion fails is rolled back as a whole.
-/

namespace VCBrain

/-- What the environment chooses for one run: the order of the rows of a query, the order in which
the set of candidate pairs is visited, and the clock and the new id at each pair. -/
structure Schedule where
  fetch : Db → List ObservationDict → List ObservationDict
  visit : List (Uuid × Uuid) → List (Uuid × Uuid)
  clock : Uuid × Uuid → Time
  matchId : Uuid × Uuid → Uuid
  fetch_perm : ∀ db rows, (fetch db rows).Perm rows
  visit_perm : ∀ pairs, (visit pairs).Perm pairs

/-- The observations of a person, in storage order. -/
def Db.observationsOf (db : Db) (person : Uuid) : List ObservationDict :=
  (db.observations.filter fun o => o.subjectId = some person).map fun o =>
    ⟨o.predicate, o.objectValue⟩

/-- `_REVIEW_THRESHOLD`. -/
def reviewThreshold : ℚ := 5 / 10

/-- A run: the database and the counts of its summary. -/
structure ResolveRun where
  db : Db
  personsChecked : ℕ := 0
  pairsEvaluated : ℕ := 0
  autoMerged : ℕ := 0
  flaggedForReview : ℕ := 0

section Run

variable (env : MatchEnv) (s : Schedule)

/-- `_fetch_observations`. -/
def fetchObservations (db : Db) (person : Uuid) : List ObservationDict :=
  s.fetch db (db.observationsOf person)

/-- The earlier-created person of a pair, and the other. -/
def canonicalFirst (a b : Person) : Uuid × Uuid :=
  if a.createdAt ≤ b.createdAt then (a.id, b.id) else (b.id, a.id)

/-- The pending rows of the review queue for a pair. -/
def Db.pendingMatches (db : Db) (pair : Uuid × Uuid) : List PersonMatch :=
  db.personMatches.filter fun m => m.status = .pending ∧
    ((m.personAId = pair.1 ∧ m.personBId = pair.2) ∨ (m.personAId = pair.2 ∧ m.personBId = pair.1))

/-- Insert a match: its id is the primary key. -/
def insertPersonMatch (rows : List PersonMatch) (m : PersonMatch) : Option (List PersonMatch) :=
  if ∃ r ∈ rows, r.id = m.id then none else some (rows ++ [m])

/-- Queue a pair for review, unless it is queued. Two rows for one pair are an error. -/
def flagForReview (run : ResolveRun) (pair : Uuid × Uuid) (confidence : ℚ) (reasons : List Str) :
    Option ResolveRun :=
  match run.db.pendingMatches pair with
  | [] =>
    (insertPersonMatch run.db.personMatches
      { id := s.matchId pair, personAId := pair.1, personBId := pair.2
        confidence := confidence, reasons := reasons }).map fun rows =>
      { run with
        db := { run.db with personMatches := rows }
        flaggedForReview := run.flaggedForReview + 1 }
  | [_] => some run
  | _ => none

/-- Compare two canonical persons and act on the confidence. -/
def comparePair (run : ResolveRun) (pair : Uuid × Uuid) (a b : Person) : Option ResolveRun :=
  (matchConfidence env (fetchObservations s run.db pair.1)
      (fetchObservations s run.db pair.2)).bind fun (confidence, reasons) =>
    if shouldAutoMerge confidence autoMergeThreshold then
      let ids := canonicalFirst a b
      (mergePersons ids.1 ids.2 (s.clock pair) run.db).toOption.map fun db =>
        { run with db := db, autoMerged := run.autoMerged + 1 }
    else if reviewThreshold ≤ confidence then flagForReview s run pair confidence reasons
    else some run

/-- One round of the loop over the candidate pairs. -/
def visitPair (run : ResolveRun) (pair : Uuid × Uuid) : Option ResolveRun :=
  let run := { run with pairsEvaluated := run.pairsEvaluated + 1 }
  match run.db.person? pair.1, run.db.person? pair.2 with
  | some a, some b =>
    if !a.canonical || !b.canonical then some run else comparePair env s run pair a b
  | _, _ => some run

/-- The blocking keys of each person of a list. -/
def personKeys (db : Db) (persons : List Person) : Option (List (Uuid × List Str)) :=
  persons.mapM fun p =>
    (blockingKeys env (fetchObservations s db p.id)).map fun keys => (p.id, keys)

/-- `resolve_identities`. -/
def resolveIdentities (db : Db) : Option ResolveRun :=
  let persons := db.persons.filter fun p => p.canonical
  if persons.length < 2 then some { db := db }
  else (personKeys env s db persons).bind fun keys =>
    (s.visit (candidatePairs keys)).foldlM (visitPair env s)
      { db := db, personsChecked := persons.length }

end Run

/-! ## What a visit can do -/

/-- The confidence of a pair, as the run sees it, is above the threshold for merging or not. -/
def Decides (env : MatchEnv) (s : Schedule) (db : Db) (pair : Uuid × Uuid) (merge : Bool) : Prop :=
  ∃ confidence reasons, matchConfidence env (fetchObservations s db pair.1)
    (fetchObservations s db pair.2) = some (confidence, reasons) ∧
    shouldAutoMerge confidence autoMergeThreshold = merge

/-- What one visit can make of the database: it is left as it is, or the pair is queued for
review, and then two canonical persons are not to be merged; or two canonical persons are to be
merged, and are. -/
inductive Visited (env : MatchEnv) (s : Schedule) (db : Db) (pair : Uuid × Uuid) : Db → Prop where
  | pass (hbelow : ∀ a b, db.person? pair.1 = some a → db.person? pair.2 = some b →
      a.canonical = true → b.canonical = true → Decides env s db pair false) :
      Visited env s db pair db
  | queue (m : PersonMatch) (hstatus : m.status = .pending)
      (hpair : m.personAId = pair.1 ∧ m.personBId = pair.2)
      (hbelow : Decides env s db pair false) :
      Visited env s db pair { db with personMatches := db.personMatches ++ [m] }
  | merge {c d : Uuid} {canonical duplicate : Person} {db' : Db}
      (hpair : pair = (c, d) ∨ pair = (d, c))
      (hc : db.person? c = some canonical) (hd : db.person? d = some duplicate)
      (hcc : canonical.canonical = true) (hdc : duplicate.canonical = true)
      (habove : Decides env s db pair true)
      (hmerge : mergePersons c d (s.clock pair) db = .ok db') :
      Visited env s db pair db'

section Cases

variable {env : MatchEnv} {s : Schedule} {run run' : ResolveRun} {pair : Uuid × Uuid}

/-- Queueing a pair at most adds a pending row for it. -/
lemma visited_of_flagForReview (hbelow : Decides env s run.db pair false) {confidence : ℚ}
    {reasons : List Str} (h : flagForReview s run pair confidence reasons = some run') :
    Visited env s run.db pair run'.db := by
  unfold flagForReview at h
  split at h
  · obtain ⟨rows, hrows, rfl⟩ := Option.map_eq_some_iff.mp h
    unfold insertPersonMatch at hrows
    split_ifs at hrows
    cases hrows
    exact Visited.queue _ rfl ⟨rfl, rfl⟩ hbelow
  · cases h
    exact Visited.pass fun _ _ _ _ _ _ => hbelow
  · cases h

/-- Comparing two canonical persons merges them, or queues them, or does nothing. -/
lemma visited_of_comparePair {a b : Person} (h : comparePair env s run pair a b = some run')
    (ha : run.db.person? pair.1 = some a) (hb : run.db.person? pair.2 = some b)
    (hca : a.canonical = true) (hcb : b.canonical = true) :
    Visited env s run.db pair run'.db := by
  have hida : a.id = pair.1 := by simpa using List.find?_some ha
  have hidb : b.id = pair.2 := by simpa using List.find?_some hb
  obtain ⟨⟨confidence, reasons⟩, hmatch, hact⟩ := Option.bind_eq_some_iff.mp h
  cases hdecision : shouldAutoMerge confidence autoMergeThreshold with
  | true =>
    have habove : Decides env s run.db pair true := ⟨confidence, reasons, hmatch, hdecision⟩
    dsimp only at hact
    rw [if_pos hdecision] at hact
    obtain ⟨db, hdb, rfl⟩ := Option.map_eq_some_iff.mp hact
    have hmerge : mergePersons (canonicalFirst a b).1 (canonicalFirst a b).2 (s.clock pair)
        run.db = .ok db := by
      cases hresult : mergePersons (canonicalFirst a b).1 (canonicalFirst a b).2 (s.clock pair)
          run.db with
      | error err =>
        rw [hresult] at hdb
        cases hdb
      | ok db' =>
        rw [hresult] at hdb
        cases hdb
        rfl
    unfold canonicalFirst at hmerge
    split_ifs at hmerge
    · rw [hida, hidb] at hmerge
      exact Visited.merge (Or.inl rfl) ha hb hca hcb habove hmerge
    · rw [hida, hidb] at hmerge
      exact Visited.merge (Or.inr rfl) hb ha hcb hca habove hmerge
  | false =>
    have hbelow : Decides env s run.db pair false := ⟨confidence, reasons, hmatch, hdecision⟩
    dsimp only at hact
    rw [if_neg (by simp [hdecision])] at hact
    split_ifs at hact
    · exact visited_of_flagForReview hbelow hact
    · cases hact
      exact Visited.pass fun _ _ _ _ _ _ => hbelow

/-- **One visit.** A visit that does not fail passes, queues, or merges. -/
lemma visited_of_visitPair (h : visitPair env s run pair = some run') :
    Visited env s run.db pair run'.db := by
  simp only [visitPair] at h
  split at h
  · next a b ha hb =>
    split_ifs at h with hskip
    · cases h
      refine Visited.pass fun a' b' ha' hb' hca hcb => ?_
      obtain rfl := Option.some.inj (ha'.symm.trans ha)
      obtain rfl := Option.some.inj (hb'.symm.trans hb)
      simp [hca, hcb] at hskip
    · have hcanonical : a.canonical = true ∧ b.canonical = true := by simpa using hskip
      have hvisited := visited_of_comparePair h ha hb hcanonical.1 hcanonical.2
      exact hvisited
  · next hmissing =>
    cases h
    exact Visited.pass fun a b ha hb _ _ => absurd hb (hmissing a b ha)

end Cases

/-- The rows and pairs in storage order. -/
def inOrder : Schedule where
  fetch _ rows := rows
  visit pairs := pairs
  clock _ := 0
  matchId pair := pair.1
  fetch_perm _ _ := List.Perm.refl _
  visit_perm _ := List.Perm.refl _

/-- An observation of a person. -/
def sampleObservation (id subject : Uuid) (predicate value : Str) : Observation where
  id := id
  snapshotId := 0
  subjectId := some subject
  opportunityId := none
  predicate := predicate
  objectValue := value
  observedAt := 0
  extractorVersion := "v1"
  createdAt := 0

end VCBrain
