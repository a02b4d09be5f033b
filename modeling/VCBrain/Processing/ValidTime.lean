import VCBrain.Processing.ClaimChains
import VCBrain.Processing.Idempotence

set_option relaxedAutoImplicit false
set_option autoImplicit false

/-!
# The valid time of claims

A claim that is superseded ends when its replacement starts. The replacement is the strongest or the
newest claim, and may start earlier. This file says when it does not.

## Main definitions

* `WellTimed` — no claim ends before it starts.
* `GroupGuard`, `ValidTimeGuard` — no current claim starts after the evidence that supersedes it.

## Main results

* `wellTimed_iff` — a history keeps claims well timed exactly if its events meet the guard.
-/

namespace VCBrain

section Person

variable {F : Type} (fl : Floats F) (personId : Uuid)

/-- A claim that has ended did not end before it started. -/
def Claim.Timed (claim : Claim) : Prop :=
  ∀ e ∈ claim.validTimeEnd, claim.validTimeStart ≤ e

instance : DecidablePred Claim.Timed :=
  fun claim => inferInstanceAs (Decidable (∀ e ∈ claim.validTimeEnd, _))

/-- No claim of the person ends before it starts. -/
def WellTimed (rows : List Claim) : Prop :=
  ∀ claim ∈ rows, claim.subjectId = some personId → claim.Timed

instance : DecidablePred (WellTimed personId) :=
  fun rows => inferInstanceAs (Decidable (∀ claim ∈ rows, _))

/-- The current claims of a group started no later than an observation was made. -/
def StartedBy (key : GroupKey) (rows : List Claim) (obs : Observation) : Prop :=
  ∀ claim ∈ openClaims personId key rows, claim.validTimeStart ≤ obs.observedAt

instance (key : GroupKey) (rows : List Claim) : DecidablePred (StartedBy personId key rows) :=
  fun _ => inferInstanceAs (Decidable (∀ claim ∈ openClaims personId key rows, _))

/-- The strongest observation of a group, where it yields a new claim that supersedes the current
ones, was made no earlier than they started. -/
def GroupGuard (now : Time) (key : GroupKey) (group : List Observation) (rows : List Claim) :
    Prop :=
  (2 ≤ group.length → ¬ Contested group →
    ∀ strongest ∈ group.argmax (observationStrength now),
      ¬ Found personId key strongest.objectValue .supported (group.map fun o => o.id.str) rows →
        StartedBy personId key rows strongest) ∧
  (Contested group → ∀ winner ∈ (rankByStrength now group).head?,
    ¬ Recorded personId rows winner → StartedBy personId key rows winner)

instance (now : Time) (key : GroupKey) (group : List Observation) :
    DecidablePred (GroupGuard personId now key group) :=
  fun _ => inferInstanceAs (Decidable ((_ → _ → ∀ strongest ∈ group.argmax _, _) ∧
    (_ → ∀ winner ∈ (rankByStrength now group).head?, _)))

/-- The condition on an event: what supersedes a claim does not start before it. -/
def ValidTimeGuard (db : Db) : ClaimEvent F → Prop
  | .arrive _ => True
  | .reconcile now _ => ∀ kg ∈ groupBy Observation.key (observationsOf personId db),
      GroupGuard personId now kg.1 kg.2 db.claims
  | .deduplicate embedding tie => ∀ pair ∈ superseded fl embedding tie personId db,
      pair.1.validTimeStart ≤ pair.2.validTimeStart

instance : ∀ db, DecidablePred (ValidTimeGuard fl personId db)
  | _, .arrive _ => inferInstanceAs (Decidable True)
  | db, .reconcile _ _ => inferInstanceAs (Decidable
      (∀ kg ∈ groupBy Observation.key (observationsOf personId db), _))
  | db, .deduplicate embedding tie => inferInstanceAs (Decidable
      (∀ pair ∈ superseded fl embedding tie personId db, _))

variable {fl personId} {now : Time} {draw : ℕ → Uuid} {key : GroupKey} {group : List Observation}
  {rows rows' : List Claim}

/-! ## One group of a run -/

/-- The claims of the person in a group do not end before they start. -/
def GroupTimed (personId : Uuid) (key : GroupKey) (rows : List Claim) : Prop :=
  ∀ claim ∈ rows, claim.subjectId = some personId → claim.key = key → claim.Timed

/-- Claims are well timed group by group. -/
lemma wellTimed_iff_groupTimed : WellTimed personId rows ↔ ∀ key, GroupTimed personId key rows :=
  ⟨fun h _ claim hc hsubject _ => h claim hc hsubject,
    fun h claim hc hsubject => h claim.key claim hc hsubject rfl⟩

/-- Only the claims of the group matter. -/
lemma groupTimed_keyed : GroupTimed personId key (keyed key rows) ↔
    GroupTimed personId key rows := by
  simp only [GroupTimed, keyed, List.mem_filter, decide_eq_true_eq]
  exact ⟨fun h claim hc hs hkey => h claim ⟨hc, hkey⟩ hs hkey, fun h claim hc => h claim hc.1⟩

/-- Claims that have not ended are timed. -/
lemma groupTimed_append {added : List Claim} (hadded : ∀ claim ∈ added, claim.validTimeEnd = none) :
    GroupTimed personId key (rows ++ added) ↔ GroupTimed personId key rows := by
  refine ⟨fun h claim hc => h claim (List.mem_append_left _ hc), fun h claim hc hs hkey => ?_⟩
  rcases List.mem_append.mp hc with hc | hc
  · exact h claim hc hs hkey
  · intro e he
    rw [hadded claim hc] at he
    cases he

/-- Closing for a new claim leaves the group timed exactly if its current claims started no later
than the new one. -/
lemma groupTimed_closed {r : Claim} (hnew : ∀ row ∈ rows, row.id ≠ r.id)
    (hrows : GroupTimed personId key rows) :
    GroupTimed personId key (closedFor personId key rows (some r)) ↔
      ∀ claim ∈ openClaims personId key rows, claim.validTimeStart ≤ r.validTimeStart := by
  constructor
  · intro h claim hc
    obtain ⟨-, hsubject, hkey, -⟩ := mem_openClaims.mp hc
    have hmem := (mem_closedFor_iff hnew).mpr (Or.inr ⟨claim, hc, rfl⟩)
    exact h _ hmem hsubject hkey _ rfl
  · intro h claim hc hsubject hkey
    rcases (mem_closedFor_iff hnew).mp hc with ⟨hmem, -⟩ | ⟨previous, hprevious, rfl⟩
    · exact hrows claim hmem hsubject hkey
    · rintro _ ⟨⟩
      exact h previous hprevious

/-- Claims that record observations have not ended. -/
lemma RecordsFrom.validTimeEnd {added : List Claim}
    (h : RecordsFrom personId now key group added) :
    ∀ claim ∈ added, claim.validTimeEnd = none := by
  intro claim hc
  obtain ⟨obs, -, id, rfl⟩ := h claim hc
  rfl

/-- A group that closes nothing stays timed, and meets a guard that asks for nothing. -/
private lemma kept_iff {added : List Claim} (hrows : GroupTimed personId key rows)
    (hadded : ∀ claim ∈ added, claim.validTimeEnd = none)
    (hguard : GroupGuard personId now key group rows) :
    GroupTimed personId key (rows ++ added) ↔ GroupGuard personId now key group rows := by
  rw [groupTimed_append hadded]
  exact iff_of_true hrows hguard

/-- A group that closes claims for an observation stays timed exactly if they started by then. -/
private lemma closed_iff {added : List Claim} {r : Claim} {obs : Observation}
    (hnew : ∀ row ∈ rows, row.id ≠ r.id) (hstart : r.validTimeStart = obs.observedAt)
    (hrows : GroupTimed personId key rows) (hadded : ∀ claim ∈ added, claim.validTimeEnd = none) :
    GroupTimed personId key (closedFor personId key rows (some r) ++ added) ↔
      StartedBy personId key rows obs := by
  rw [groupTimed_append hadded, groupTimed_closed hnew hrows, StartedBy, hstart]

/-- **One group of a run** stays timed exactly if it meets the guard. -/
lemma GroupOutcome.groupTimed_iff (h : GroupOutcome personId now key group rows rows')
    (hrows : GroupTimed personId key rows) :
    GroupTimed personId key rows' ↔ GroupGuard personId now key group rows := by
  have hsame : ∀ {o : Option Observation} {a b : Observation}, a ∈ o → b ∈ o → b = a :=
    fun ha hb => Option.some.inj (hb.symm.trans ha)
  have hsingle : ∀ obs : Observation, GroupGuard personId now key [obs] rows := fun obs =>
    ⟨fun hlength => absurd hlength (by simp), fun hc => absurd hc (not_contested_singleton obs)⟩
  cases h with
  | singleFound _ => exact iff_of_true hrows (hsingle _)
  | singleAdded _ _ =>
    refine kept_iff hrows (fun claim hc => ?_) (hsingle _)
    rw [List.mem_singleton.mp hc]
    rfl
  | agreedFound _ hagree hstrongest hfound =>
    refine iff_of_true hrows ⟨fun _ _ obs hobs hnot => ?_, fun hc => absurd hc hagree⟩
    rw [hsame hstrongest hobs] at hnot
    exact absurd hfound hnot
  | agreedAdded hlength hagree hstrongest hnot hnew =>
    refine (closed_iff hnew rfl hrows fun claim hc => ?_).trans ⟨fun h => ?_, fun h => ?_⟩
    · rw [List.mem_singleton.mp hc]
      rfl
    · refine ⟨fun _ _ obs hobs _ => ?_, fun hc => absurd hc hagree⟩
      rw [hsame hstrongest hobs]
      exact h
    · exact h.1 hlength hagree _ hstrongest hnot
  | winnerFound hcontested hwinner hfound hadded _ =>
    refine kept_iff hrows hadded.validTimeEnd
      ⟨fun _ hagree => absurd hcontested hagree, fun _ obs hobs hnot => ?_⟩
    rw [hsame hwinner hobs] at hnot
    exact absurd hfound hnot
  | winnerAdded hcontested hwinner hnot hnew hadded _ =>
    refine (closed_iff hnew rfl hrows fun claim hc => ?_).trans ⟨fun h => ?_, fun h => ?_⟩
    · rcases List.mem_cons.mp hc with rfl | hc
      · rfl
      · exact hadded.validTimeEnd claim hc
    · refine ⟨fun _ hagree => absurd hcontested hagree, fun _ obs hobs _ => ?_⟩
      rw [hsame hwinner hobs]
      exact h
    · exact h.2 hcontested _ hwinner hnot

/-! ## One event -/

variable {db db' : Db} {created : ℕ}

/-- The guard of a group looks at its own claims. -/
lemma groupGuard_of_keyed (hkey : ∀ obs ∈ group, obs.key = key)
    (hkeyed : keyed key rows' = keyed key rows) :
    GroupGuard personId now key group rows' ↔ GroupGuard personId now key group rows := by
  have hopen : openClaims personId key rows' = openClaims personId key rows := by
    rw [← openClaims_keyed, hkeyed, openClaims_keyed]
  have hfound : ∀ {value : Str} {status : ClaimStatus} {ids : List Str},
      Found personId key value status ids rows' ↔ Found personId key value status ids rows := by
    intro value status ids
    rw [← found_keyed, hkeyed, found_keyed]
  have hrecorded : ∀ winner ∈ (rankByStrength now group).head?,
      (Recorded personId rows' winner ↔ Recorded personId rows winner) := by
    intro winner hwinner
    have hmem : winner ∈ group :=
      (rankByStrength_perm now group).mem_iff.mp (List.mem_of_mem_head? hwinner)
    obtain rfl := hkey winner hmem
    rw [← recorded_keyed, hkeyed, recorded_keyed]
  unfold GroupGuard StartedBy
  rw [hopen]
  refine and_congr ?_ (forall_congr' fun _ => forall₂_congr fun winner hwinner => ?_)
  · simp only [hfound]
  · rw [hrecorded winner hwinner]

/-- **One run** keeps claims well timed exactly if every group meets its guard. -/
lemma wellTimed_reconcile_iff (hdb : WellTimed personId db.claims)
    (h : reconcileObservations personId now draw db = some (db', created)) :
    WellTimed personId db'.claims ↔
      ∀ kg ∈ groupBy Observation.key (observationsOf personId db),
        GroupGuard personId now kg.1 kg.2 db.claims := by
  have hgroups := wellTimed_iff_groupTimed.mp hdb
  have hgroup : ∀ key, groupInOrder personId db key ≠ [] →
      (GroupTimed personId key db'.claims ↔
        GroupGuard personId now key (groupInOrder personId db key) db.claims) := by
    intro key hne
    obtain ⟨rows, rows', hrows, hout, hrows'⟩ := exists_outcome_of_reconcile h hne
    have htimed : GroupTimed personId key rows := by
      rw [← groupTimed_keyed, hrows, groupTimed_keyed]
      exact hgroups key
    have hkey : ∀ obs ∈ groupInOrder personId db key, obs.key = key :=
      fun obs hobs => of_decide_eq_true (List.mem_filter.mp hobs).2
    rw [← groupTimed_keyed, hrows', groupTimed_keyed, hout.groupTimed_iff htimed,
      groupGuard_of_keyed hkey hrows]
  rw [wellTimed_iff_groupTimed]
  constructor
  · rintro hall ⟨key, group⟩ hkg
    obtain ⟨⟨obs, hobs, hobsKey⟩, rfl⟩ := mem_groupBy.mp hkg
    have hne : groupInOrder personId db key ≠ [] :=
      List.ne_nil_of_mem (List.mem_filter.mpr ⟨hobs, decide_eq_true hobsKey⟩)
    exact (hgroup key hne).mp (hall key)
  · intro hall key
    by_cases hne : groupInOrder personId db key = []
    · have hkeyed : keyed key db'.claims = keyed key db.claims := by
        refine keyed_of_reconcile h fun obs hobs heq => ?_
        exact List.filter_eq_nil_iff.mp hne obs hobs (decide_eq_true heq)
      rw [← groupTimed_keyed, hkeyed, groupTimed_keyed]
      exact hgroups key
    · obtain ⟨obs, hobs⟩ := List.exists_mem_of_ne_nil _ hne
      obtain ⟨hobs', hkey⟩ := List.mem_filter.mp hobs
      exact (hgroup key hne).mpr (hall (key, groupInOrder personId db key)
        (mem_groupBy.mpr ⟨⟨obs, hobs', of_decide_eq_true hkey⟩, rfl⟩))

/-- **One pass** keeps claims well timed exactly if no claim starts after its replacement. -/
lemma wellTimed_deduplicate_iff {embedding : Uuid → Option (List F)} {tie : Uuid → ℕ} {count : ℕ}
    (hids : KeyUnique Claim.id db.claims) (hdb : WellTimed personId db.claims)
    (h : deduplicateClaims fl embedding tie personId db = some (db', count)) :
    WellTimed personId db'.claims ↔ ∀ pair ∈ superseded fl embedding tie personId db,
      pair.1.validTimeStart ≤ pair.2.validTimeStart := by
  obtain ⟨update, rfl, hpairs, hupdate⟩ := deduplicateClaims_eq_some hids h
  constructor
  · rintro hall ⟨b, a⟩ hpair
    obtain ⟨hmem, hsubject, -⟩ := mem_currentClaims.mp (of_mem_superseded hids hpair).2.1
    have hb := hall (update b) (List.mem_map_of_mem hmem)
    rw [hpairs a b hpair] at hb
    exact hb hsubject _ rfl
  · intro hall claim hc
    obtain ⟨b, hb, rfl⟩ := List.mem_map.mp hc
    rcases hupdate b hb with heq | ⟨a, hpair, heq⟩
    · rw [heq]
      exact hdb b hb
    · rw [heq]
      rintro - _ ⟨⟩
      exact hall (b, a) hpair

/-! ## Histories -/

/-- **Valid times over histories.** From a database without claims on the person, every event of a
history leaves claims that do not end before they start exactly if every event meets the guard: what
supersedes a claim starts no earlier.

**Proof sketch.** Distinct ids and well-timed claims are the invariant, and one event meets its duty
exactly if it meets its guard (`wellTimed_reconcile_iff`, `wellTimed_deduplicate_iff`). -/
theorem wellTimed_iff (fl : Floats F) (personId : Uuid) {db : Db}
    (hids : KeyUnique Claim.id db.claims)
    (hfresh : ∀ claim ∈ db.claims, claim.subjectId ≠ some personId)
    (events : List (ClaimEvent F)) :
    History.Meets (claimStep fl personId) (fun _ db => WellTimed personId db.claims) db events ↔
      History.Guarded (claimStep fl personId) (ValidTimeGuard fl personId) db events := by
  refine History.meets_iff_guarded
    (I := fun db : Db => KeyUnique Claim.id db.claims ∧ WellTimed personId db.claims)
    _ ?_ ?_ ⟨hids, fun claim hc hsubject => absurd hsubject (hfresh claim hc)⟩ events
  · rintro db e db' ⟨hids, hdb⟩ h
    cases e with
    | arrive obs =>
      obtain ⟨observations, -, rfl⟩ := Option.map_eq_some_iff.mp h
      exact iff_of_true hdb trivial
    | reconcile now draw =>
      obtain ⟨⟨after, created⟩, hrun, rfl⟩ := Option.map_eq_some_iff.mp h
      exact wellTimed_reconcile_iff hdb hrun
    | deduplicate embedding tie =>
      obtain ⟨⟨after, count⟩, hrun, rfl⟩ := Option.map_eq_some_iff.mp h
      exact wellTimed_deduplicate_iff hids hdb hrun
  · rintro db e db' ⟨hids, -⟩ h hduty
    refine ⟨?_, hduty⟩
    cases e with
    | arrive obs =>
      obtain ⟨observations, -, rfl⟩ := Option.map_eq_some_iff.mp h
      exact hids
    | reconcile now draw =>
      obtain ⟨⟨after, created⟩, hrun, rfl⟩ := Option.map_eq_some_iff.mp h
      exact entering_keyUnique.reconcile hrun hids
    | deduplicate embedding tie =>
      obtain ⟨⟨after, count⟩, hrun, rfl⟩ := Option.map_eq_some_iff.mp h
      exact keyUnique_deduplicated hids hrun

end Person

/-- An observation is reconciled; then a stronger one arrives that agrees and was made before it. -/
private def lateHistory : List (ClaimEvent ℚ) :=
  [.arrive { Reconciling.roleObservation 1 "CEO" (1 / 2) with observedAt := 10 },
    .reconcile 20 fun n => Fin.ofNat _ (10 + n),
    .arrive { Reconciling.roleObservation 2 "CEO" 1 with observedAt := 5 },
    .reconcile 20 fun n => Fin.ofNat _ (20 + n)]

/-- The first claim is valid from 10 on, and ends at 5. -/
theorem not_wellTimed_lateHistory :
    ¬ History.Meets (claimStep rationalFloats 1) (fun _ db => WellTimed 1 db.claims) {}
      lateHistory := by
  decide +kernel

/-- Where the stronger observation was made later, the claims are well timed. -/
theorem wellTimed_inOrder :
    History.Meets (claimStep rationalFloats 1) (fun _ db => WellTimed 1 db.claims) {}
      [.arrive { Reconciling.roleObservation 1 "CEO" (1 / 2) with observedAt := 5 },
        .reconcile 20 fun n => Fin.ofNat _ (10 + n),
        .arrive { Reconciling.roleObservation 2 "CEO" 1 with observedAt := 10 },
        .reconcile 20 fun n => Fin.ofNat _ (20 + n)] :=
  have hids : KeyUnique Claim.id ({} : Db).claims := List.nodup_nil
  (wellTimed_iff rationalFloats 1 hids (fun _ h => absurd h List.not_mem_nil) _).mpr
    (by decide +kernel)

end VCBrain
