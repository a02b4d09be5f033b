import VCBrain.Foundation.Guarded
import VCBrain.Identity.Review

set_option relaxedAutoImplicit false
set_option autoImplicit false

/-!
# What becomes of a rejected match

A reviewer who rejects a match says that the two persons are not the same. A run of identity
resolution looks for a pending match before it queues a pair, and not for a rejected one. This file
determines in which histories a rejection is final as long as the observations are what they were.

## Main definitions

* `Rejection` — a rejected pair, with the observations of its persons at that time.
* `Finality` — what a visit must not do to such a pair.
* `KeepsRejections` — the condition on a visit.

## Main results

* `visitPair_db` — what a visit makes of the database, as a function.
* `resolve_eq_visits` — a run of identity resolution is a history of visits.
* `finality_iff` — a history keeps its rejections final exactly if its visits meet the condition.

## Design

A history is about single visits, so that what happens between them, within one run or between two,
may be anything that leaves the review queue alone.
-/

namespace VCBrain

/-! ## Visits as functions of the database -/

section Visit

variable (env : MatchEnv) (s : Schedule)

/-- What `flagForReview` makes of the database. -/
def flaggedDb (db : Db) (pair : Uuid × Uuid) (confidence : ℚ) (reasons : List Str) : Option Db :=
  match db.pendingMatches pair with
  | [] =>
    (insertPersonMatch db.personMatches
      { id := s.matchId pair, personAId := pair.1, personBId := pair.2
        confidence := confidence, reasons := reasons }).map fun rows =>
      { db with personMatches := rows }
  | [_] => some db
  | _ => none

/-- What a visit of two canonical persons makes of the database. -/
def comparedDb (db : Db) (pair : Uuid × Uuid) (a b : Person) (confidence : ℚ)
    (reasons : List Str) : Option Db :=
  if shouldAutoMerge confidence autoMergeThreshold then
    (mergePersons (canonicalFirst a b).1 (canonicalFirst a b).2 (s.clock pair) db).toOption
  else if reviewThreshold ≤ confidence then flaggedDb s db pair confidence reasons
  else some db

/-- What a visit makes of the database. -/
def visitedDb (db : Db) (pair : Uuid × Uuid) : Option Db :=
  match db.person? pair.1, db.person? pair.2 with
  | some a, some b =>
    if !a.canonical || !b.canonical then some db
    else (matchConfidence env (fetchObservations s db pair.1)
      (fetchObservations s db pair.2)).bind fun (confidence, reasons) =>
        comparedDb s db pair a b confidence reasons
  | _, _ => some db

/-- A visit makes of the database what the function says, whatever the counts of the run are. -/
lemma visitPair_db (run : ResolveRun) (pair : Uuid × Uuid) :
    (visitPair env s run pair).map ResolveRun.db = visitedDb env s run.db pair := by
  unfold visitPair visitedDb
  dsimp only
  cases run.db.person? pair.1 with
  | none => rfl
  | some a =>
    cases run.db.person? pair.2 with
    | none => rfl
    | some b =>
      dsimp only
      split_ifs
      · rfl
      · unfold comparePair
        dsimp only
        cases matchConfidence env (fetchObservations s run.db pair.1)
            (fetchObservations s run.db pair.2) with
        | none => rfl
        | some signals =>
          simp only [Option.bind_some, comparedDb]
          split_ifs
          · simp [Function.comp_def]
          · unfold flagForReview flaggedDb
            dsimp only
            cases run.db.pendingMatches pair with
            | nil => simp [Function.comp_def]
            | cons m rest => cases rest <;> rfl
          · rfl

end Visit

/-! ## Histories with reviews -/

/-- A rejected pair, with the observations of its two persons when it was rejected. -/
structure Rejection where
  pair : Uuid × Uuid
  observationsA : List ObservationDict
  observationsB : List ObservationDict
deriving DecidableEq

/-- The database, and the rejections so far. -/
structure ReviewState where
  db : Db := {}
  rejections : List Rejection := []

/-- A run of identity resolution visits a pair, a reviewer approves or rejects a match, or other
tables change. -/
inductive ReviewEvent where
  | visit (s : Schedule) (pair : Uuid × Uuid)
  | approve (matchId : Uuid) (now : Time)
  | reject (matchId : Uuid) (now : Time)
  | elsewhere (tables : Db)

/-- The rejection of a match. -/
def PersonMatch.rejection (db : Db) (m : PersonMatch) : Rejection where
  pair := (m.personAId, m.personBId)
  observationsA := db.observationsOf m.personAId
  observationsB := db.observationsOf m.personBId

/-- The state after an event, unless the event fails. -/
def ReviewState.step (env : MatchEnv) (st : ReviewState) : ReviewEvent → Option ReviewState
  | .visit s pair => (visitPair env s { db := st.db } pair).map fun run => { st with db := run.db }
  | .approve matchId now => (approveMatch matchId now st.db).map fun db => { st with db := db }
  | .reject matchId now => (pendingMatch matchId st.db).bind fun m =>
      (rejectMatch matchId now st.db).map fun db =>
        { db := db, rejections := st.rejections ++ [m.rejection st.db] }
  | .elsewhere tables =>
    some { st with db := { tables with personMatches := st.db.personMatches } }

/-- The observations of the two persons are those of the time of the rejection, in some order. -/
def Rejection.Unchanged (db : Db) (r : Rejection) : Prop :=
  (db.observationsOf r.pair.1).Perm r.observationsA ∧
    (db.observationsOf r.pair.2).Perm r.observationsB

/-- A step has superseded the canonical person `b` by `a`. -/
def Supersedes (db db' : Db) (a b : Uuid) : Prop :=
  ∃ p p', db.person? b = some p ∧ p.canonical = true ∧ db'.person? b = some p' ∧
    p'.canonical = false ∧ p'.supersededById = some a

/-- A step adds no pending match for the pair, in either order, and merges the two persons neither
way. -/
def LeavesApart (db db' : Db) (pair : Uuid × Uuid) : Prop :=
  (∀ m ∈ db'.pendingMatches pair, m ∈ db.pendingMatches pair) ∧
    ¬ Supersedes db db' pair.1 pair.2 ∧ ¬ Supersedes db db' pair.2 pair.1

/-- A visit leaves the pairs apart that were rejected on the same observations. -/
def Finality (st : ReviewState) (e : ReviewEvent) (st' : ReviewState) : Prop :=
  match e with
  | .visit _ _ => ∀ r ∈ st.rejections, r.Unchanged st.db → LeavesApart st.db st'.db r.pair
  | _ => True

/-- The condition on a visit: if the pair was rejected on the same observations, then one of the two
persons is superseded, or their confidence is below the threshold of review, or it is below the
threshold of merging and the pair is queued again already. -/
def KeepsRejections (env : MatchEnv) (st : ReviewState) : ReviewEvent → Prop
  | .visit s pair => ∀ r ∈ st.rejections, r.Unchanged st.db → r.pair = pair ∨ r.pair = pair.swap →
      ∀ a ∈ st.db.person? pair.1, ∀ b ∈ st.db.person? pair.2, a.canonical = true →
        b.canonical = true → ∀ confidence reasons,
          matchConfidence env (fetchObservations s st.db pair.1)
            (fetchObservations s st.db pair.2) = some (confidence, reasons) →
          shouldAutoMerge confidence autoMergeThreshold = false ∧
            (reviewThreshold ≤ confidence → st.db.pendingMatches pair ≠ [])
  | _ => True

/-! ## What a visit does to a pair -/

section Visit

variable {env : MatchEnv} {s : Schedule} {db db' : Db} {pair other : Uuid × Uuid}

/-- The pending matches of a pair do not depend on the order of its persons. -/
lemma pendingMatches_swap (db : Db) (pair : Uuid × Uuid) :
    db.pendingMatches pair.swap = db.pendingMatches pair := by
  unfold Db.pendingMatches
  apply List.filter_congr
  intro m _
  simp only [Prod.fst_swap, Prod.snd_swap, or_comm]

/-- What leaves a pair as it was leaves it apart. -/
lemma leavesApart_self (db : Db) (pair : Uuid × Uuid) : LeavesApart db db pair := by
  have hnone : ∀ a b, ¬ Supersedes db db a b := by
    rintro a b ⟨p, p', hp, hcanonical, hp', hfalse, -⟩
    rw [hp, Option.some.injEq] at hp'
    subst hp'
    simp [hcanonical] at hfalse
  exact ⟨fun m hm => hm, hnone _ _, hnone _ _⟩

/-- A merge supersedes the one person by the other, and nobody else. -/
lemma supersedes_mergedDb_iff {c d : Uuid} {canonical duplicate : Person} {now : Time}
    (hc : db.person? c = some canonical) (hd : db.person? d = some duplicate)
    (hdc : duplicate.canonical = true) {a b : Uuid} :
    Supersedes db (mergedDb c d canonical duplicate now db) a b ↔ a = c ∧ b = d := by
  constructor
  · rintro ⟨p, p', hp, hcanonical, hp', hfalse, hnext⟩
    by_cases hb : b = d
    · subst hb
      obtain ⟨q, hq, -, hqnext, -⟩ := exists_duplicate_mergedDb c canonical now hd
      rw [hq, Option.some.injEq] at hp'
      rw [← hp', hqnext, Option.some.injEq] at hnext
      exact ⟨hnext.symm, rfl⟩
    · obtain ⟨q, hq, hqcanonical, -⟩ := exists_person_mergedDb duplicate now hc hb hp
      rw [hq, Option.some.injEq] at hp'
      rw [← hp', hqcanonical, hcanonical] at hfalse
      cases hfalse
  · rintro ⟨rfl, rfl⟩
    obtain ⟨q, hq, hfalse, hnext, -⟩ := exists_duplicate_mergedDb a canonical now hd
    exact ⟨duplicate, q, hd, hdc, hq, hfalse, hnext⟩

/-- A merge of the persons of a pair leaves the other pairs apart, and no pair else. -/
lemma leavesApart_merge_iff {c d : Uuid} {canonical duplicate : Person} {now : Time}
    (hc : db.person? c = some canonical) (hd : db.person? d = some duplicate)
    (hdc : duplicate.canonical = true) :
    LeavesApart db (mergedDb c d canonical duplicate now db) other ↔
      ¬ (other = (c, d) ∨ other = (d, c)) := by
  obtain ⟨a, b⟩ := other
  have hpending : (mergedDb c d canonical duplicate now db).pendingMatches (a, b) =
      db.pendingMatches (a, b) := rfl
  simp only [LeavesApart, hpending, supersedes_mergedDb_iff hc hd hdc, Prod.mk.injEq]
  tauto

/-- If a visit merges its pair, it leaves the other pairs apart and not its own. -/
lemma leavesApart_of_merge {a b : Person} {now : Time} (ha : db.person? pair.1 = some a)
    (hb : db.person? pair.2 = some b) (hca : a.canonical = true) (hcb : b.canonical = true)
    (h : (mergePersons (canonicalFirst a b).1 (canonicalFirst a b).2 now db).toOption = some db')
    (other : Uuid × Uuid) : LeavesApart db db' other ↔ ¬ (other = pair ∨ other = pair.swap) := by
  have hida : a.id = pair.1 := by simpa using List.find?_some ha
  have hidb : b.id = pair.2 := by simpa using List.find?_some hb
  obtain ⟨canonical, duplicate, hc, hd, heffect⟩ := mergeStep_eq_some
    (e := ⟨(canonicalFirst a b).1, (canonicalFirst a b).2, now⟩) h
  have hfirst : canonicalFirst a b = pair ∨ canonicalFirst a b = pair.swap := by
    unfold canonicalFirst
    rw [hida, hidb]
    split_ifs
    · exact Or.inl rfl
    · exact Or.inr rfl
  have hdc : duplicate.canonical = true := by
    rcases hfirst with heq | heq
    · simp only [heq, hb, Option.some.injEq] at hd
      rwa [← hd]
    · simp only [heq, Prod.snd_swap, ha, Option.some.injEq] at hd
      rwa [← hd]
  rcases heffect with ⟨hdone, -⟩ | ⟨-, rfl⟩
  · simp [hdc] at hdone
  · rw [leavesApart_merge_iff hc hd hdc]
    rcases hfirst with heq | heq
    · simp only [heq, Prod.mk.eta]
      rfl
    · simp only [heq, Prod.fst_swap, Prod.snd_swap, Prod.mk.eta, or_comm]
      rfl

/-- A new pending match of a pair leaves the other pairs apart; the pair itself it leaves apart only
if the match was there. -/
lemma leavesApart_queue_iff {m : PersonMatch} (hstatus : m.status = .pending)
    (hnew : db.pendingMatches (m.personAId, m.personBId) = []) :
    LeavesApart db { db with personMatches := db.personMatches ++ [m] } other ↔
      ¬ (other = (m.personAId, m.personBId) ∨ other = (m.personBId, m.personAId)) := by
  have hself := leavesApart_self db other
  constructor
  · rintro ⟨hpending, -⟩ hother
    have hnone : db.pendingMatches other = [] := by
      rcases hother with rfl | rfl
      · exact hnew
      · rw [← hnew, ← pendingMatches_swap]
        rfl
    have hmem : m ∈ ({ db with personMatches := db.personMatches ++ [m] } : Db).pendingMatches
        other := by
      apply List.mem_filter.mpr
      refine ⟨List.mem_append_right _ (List.mem_singleton_self m), ?_⟩
      rcases hother with rfl | rfl <;> simp [hstatus]
    have hold := hpending m hmem
    rw [hnone] at hold
    cases hold
  · intro hother
    refine ⟨fun m' hm' => ?_, hself.2⟩
    obtain ⟨hrow, hkeep⟩ := List.mem_filter.mp hm'
    rcases List.mem_append.mp hrow with hrow | hrow
    · exact List.mem_filter.mpr ⟨hrow, hkeep⟩
    · rw [List.mem_singleton.mp hrow] at hkeep
      refine absurd ?_ hother
      obtain ⟨a, b⟩ := other
      simp only [decide_eq_true_eq] at hkeep
      simp only [Prod.mk.injEq]
      tauto

end Visit

/-! ## Finality over histories -/

section Finality

variable {env : MatchEnv} {st st' : ReviewState} {e : ReviewEvent}

/-- **One step.** A visit leaves the rejected pairs apart exactly if it meets the condition.

**Proof sketch.** A visit that neither merges nor queues changes nothing, and meets the condition.
If it merges or queues, it leaves apart exactly the pairs other than its own, and the condition
fails exactly if its own pair was rejected on the same observations. -/
lemma finality_step_iff (h : st.step env e = some st') :
    Finality st e st' ↔ KeepsRejections env st e := by
  cases e with
  | approve matchId now => exact Iff.rfl
  | reject matchId now => exact Iff.rfl
  | elsewhere tables => exact Iff.rfl
  | visit s pair =>
    obtain ⟨run, hrun, rfl⟩ := Option.map_eq_some_iff.mp h
    have hdb : visitedDb env s st.db pair = some run.db := by
      rw [← visitPair_db env s { db := st.db } pair, hrun]
      rfl
    have hquiet : run.db = st.db → Finality st (.visit s pair) { st with db := run.db } := by
      intro heq r _ _
      show LeavesApart st.db run.db r.pair
      rw [heq]
      exact leavesApart_self _ _
    have hloud : (∀ other, LeavesApart st.db run.db other ↔
        ¬ (other = pair ∨ other = pair.swap)) →
        ∀ {a b : Person}, st.db.person? pair.1 = some a → st.db.person? pair.2 = some b →
          a.canonical = true → b.canonical = true → ∀ {confidence reasons},
          matchConfidence env (fetchObservations s st.db pair.1)
            (fetchObservations s st.db pair.2) = some (confidence, reasons) →
          ¬ (shouldAutoMerge confidence autoMergeThreshold = false ∧
            (reviewThreshold ≤ confidence → st.db.pendingMatches pair ≠ [])) →
          (Finality st (.visit s pair) { st with db := run.db } ↔
            KeepsRejections env st (.visit s pair)) := by
      intro hapart a b ha hb hca hcb confidence reasons hmatch hacts
      constructor
      · intro hfinal r hr hunchanged hpair
        exact absurd hpair ((hapart r.pair).mp (hfinal r hr hunchanged))
      · intro hkeeps r hr hunchanged
        refine (hapart r.pair).mpr fun hpair => hacts ?_
        exact hkeeps r hr hunchanged hpair a ha b hb hca hcb confidence reasons hmatch
    unfold visitedDb at hdb
    split at hdb
    · next a b ha hb =>
      split_ifs at hdb with hskip
      · refine iff_of_true (hquiet (Option.some.inj hdb).symm) ?_
        intro r _ _ _ a' ha' b' hb' hca hcb
        rw [Option.mem_def, ha, Option.some.injEq] at ha'
        rw [Option.mem_def, hb, Option.some.injEq] at hb'
        subst ha' hb'
        simp [hca, hcb] at hskip
      · have hcanonical : a.canonical = true ∧ b.canonical = true := by simpa using hskip
        obtain ⟨⟨confidence, reasons⟩, hmatch, hdb⟩ := Option.bind_eq_some_iff.mp hdb
        dsimp only [comparedDb] at hdb
        split_ifs at hdb with hmerge hreview
        · refine hloud ?_ ha hb hcanonical.1 hcanonical.2 hmatch (by simp [hmerge])
          exact leavesApart_of_merge ha hb hcanonical.1 hcanonical.2 hdb
        · unfold flaggedDb at hdb
          split at hdb
          · next hnone =>
            refine hloud (fun other => ?_) ha hb hcanonical.1 hcanonical.2 hmatch
              (by simp [hreview, hnone])
            obtain ⟨rows, hrows, hdb⟩ := Option.map_eq_some_iff.mp hdb
            unfold insertPersonMatch at hrows
            split_ifs at hrows
            rw [← hdb, ← Option.some.inj hrows]
            exact leavesApart_queue_iff rfl hnone
          · next m hone =>
            refine iff_of_true (hquiet (Option.some.inj hdb).symm) ?_
            intro r _ _ _ a' _ b' _ _ _ confidence' reasons' hmatch'
            rw [hmatch, Option.some.injEq, Prod.mk.injEq] at hmatch'
            rw [← hmatch'.1]
            exact ⟨by simpa using hmerge, fun _ => by simp [hone]⟩
          · cases hdb
        · refine iff_of_true (hquiet (Option.some.inj hdb).symm) ?_
          intro r _ _ _ a' _ b' _ _ _ confidence' reasons' hmatch'
          rw [hmatch, Option.some.injEq, Prod.mk.injEq] at hmatch'
          rw [← hmatch'.1]
          exact ⟨by simpa using hmerge, fun hle => absurd hle hreview⟩
    · next hmissing =>
      refine iff_of_true (hquiet (Option.some.inj hdb).symm) ?_
      intro r _ _ _ a ha b hb
      exact absurd hb (hmissing a b ha)

/-- **Rejections over histories.** No visit of a history queues a pair again that was rejected on
the same observations, or merges it, exactly if all its visits meet the condition.

**Proof sketch.** By `finality_step_iff`, from every state. -/
theorem finality_iff (env : MatchEnv) (db : Db) (events : List ReviewEvent) :
    History.Along (ReviewState.step env) Finality { db := db } events ↔
      History.Guarded (ReviewState.step env) (KeepsRejections env) { db := db } events :=
  History.along_iff_guarded (ReviewState.step env) (I := fun _ => True) (R := Finality)
    (C := KeepsRejections env) (fun _ _ _ _ h => finality_step_iff h)
    (fun _ _ _ _ _ _ => trivial) trivial events

/-- **Runs as visits.** What a run of identity resolution makes of the database, the history of its
visits makes of it. -/
theorem resolve_eq_visits {s : Schedule} {db : Db} {run : ResolveRun}
    (h : resolveIdentities env s db = some run) (rejections : List Rejection) :
    ∃ pairs : List (Uuid × Uuid), History.replay (ReviewState.step env)
      { db := db, rejections := rejections } (pairs.map (ReviewEvent.visit s)) =
        { db := run.db, rejections := rejections } := by
  have hfold : ∀ (pairs : List (Uuid × Uuid)) (run₀ : ResolveRun),
      pairs.foldlM (visitPair env s) run₀ = some run → History.replay (ReviewState.step env)
        { db := run₀.db, rejections := rejections } (pairs.map (ReviewEvent.visit s)) =
          { db := run.db, rejections := rejections } := by
    intro pairs
    induction pairs with
    | nil =>
      intro run₀ hrun
      rw [← Option.some.inj hrun]
      rfl
    | cons pair pairs ih =>
      intro run₀ hrun
      rw [List.foldlM_cons] at hrun
      obtain ⟨run₁, hvisit, hrest⟩ := Option.bind_eq_some_iff.mp hrun
      have hdb := visitPair_db env s run₀ pair
      rw [hvisit, ← visitPair_db env s { db := run₀.db } pair] at hdb
      obtain ⟨run₂, hvisit', hdb'⟩ := Option.map_eq_some_iff.mp hdb.symm
      have hstep : ReviewState.step env { db := run₀.db, rejections := rejections }
          (.visit s pair) = some { db := run₁.db, rejections := rejections } := by
        simp only [ReviewState.step, hvisit', Option.map_some, hdb']
      rw [List.map_cons, History.replay_cons, History.commit_of_some _ hstep]
      exact ih run₁ hrest
  unfold resolveIdentities at h
  dsimp only at h
  split_ifs at h
  · rw [← Option.some.inj h]
    exact ⟨[], rfl⟩
  · obtain ⟨keys, -, hrun⟩ := Option.bind_eq_some_iff.mp h
    exact ⟨_, hfold _ _ hrun⟩

/-- Two persons of one name, of whom nothing else is known. -/
def namesakes : Db where
  persons := [{ id := 1, stableId := "github:ada", createdAt := 0 },
    { id := 2, stableId := "devpost:ada", createdAt := 1 }]
  observations := [sampleObservation 1 1 "display_name" "Ada Byron",
    sampleObservation 2 2 "display_name" "Ada Byron"]

/-- A later run, which draws another id. -/
def laterRun : Schedule := { inOrder with matchId := fun pair => pair.2 }

/-- The pair is queued, rejected, and visited by a later run. -/
def rejectedOnce : List ReviewEvent :=
  [.visit inOrder (1, 2), .reject 1 0, .visit laterRun (1, 2)]

/-- The later run queues the rejected pair again. -/
theorem not_final_rejectedOnce :
    ¬ History.Along (ReviewState.step sampleMatchEnv) Finality { db := namesakes }
      rejectedOnce := by
  intro hfinal
  obtain ⟨-, -, hvisit, -⟩ := hfinal
  set st := History.commit (ReviewState.step sampleMatchEnv) (History.commit
    (ReviewState.step sampleMatchEnv) { db := namesakes } (.visit inOrder (1, 2))) (.reject 1 0)
    with hst
  have hrejected : st.rejections = [⟨(1, 2), st.db.observationsOf 1, st.db.observationsOf 2⟩] ∧
      st.db.pendingMatches (1, 2) = [] := by
    rw [hst]
    decide +kernel
  have hafter : ((ReviewState.step sampleMatchEnv st (.visit laterRun (1, 2))).map fun st' =>
      (st'.db.pendingMatches (1, 2)).length) = some 1 := by
    rw [hst]
    decide +kernel
  obtain ⟨st', hstep, hlength⟩ := Option.map_eq_some_iff.mp hafter
  have hapart := hvisit st' hstep ⟨(1, 2), st.db.observationsOf 1, st.db.observationsOf 2⟩
    (by rw [hrejected.1]; exact List.mem_singleton_self _) ⟨List.Perm.refl _, List.Perm.refl _⟩
  obtain ⟨m, hm⟩ := List.exists_mem_of_length_pos (by rw [hlength]; exact Nat.one_pos)
  have hold := hapart.1 m hm
  rw [hrejected.2] at hold
  cases hold

end Finality

end VCBrain
