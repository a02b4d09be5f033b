import VCBrain.Processing.GroupEffect

set_option relaxedAutoImplicit false
set_option autoImplicit false

/-!
# The outcomes of reconciliation for one group

All that the body of the loop over the groups can do to the claims table, with the claims it finds
or adds.

## Main definitions

* `Found` — a claim of the table is the output for an input set.
* `GroupOutcome` — the ways a group ends.

## Main results

* `reconcileGroup_outcome` — a group ends in one of these ways.
* `exists_outcome_of_reconcile` — so does every group of a run, on its part of the table.
-/

namespace VCBrain

/-! ## Claims that are found again -/

/-- Some claim of the person in the group is the deterministic output for this input set. -/
def Found (personId : Uuid) (key : GroupKey) (objectValue : Str) (status : ClaimStatus)
    (observationIds : List Str) (rows : List Claim) : Prop :=
  ∃ claim ∈ rows, InScope personId key.2 claim ∧
    claimMatches key.1 objectValue status observationIds claim

instance (personId : Uuid) (key : GroupKey) (objectValue : Str) (status : ClaimStatus)
    (observationIds : List Str) :
    DecidablePred (Found personId key objectValue status observationIds) :=
  fun rows => inferInstanceAs (Decidable (∃ claim ∈ rows, _))

section Person

variable {personId : Uuid} {now : Time} {draw : ℕ → Uuid}

lemma isSome_findMatchingClaim_iff {key : GroupKey} {objectValue : Str} {status : ClaimStatus}
    {observationIds : List Str} {rows : List Claim} :
    (findMatchingClaim (scopedClaims personId key.2 rows) key.1 objectValue status
      observationIds).isSome ↔ Found personId key objectValue status observationIds rows := by
  simp only [findMatchingClaim, List.find?_isSome, scopedClaims, List.mem_filter,
    decide_eq_true_eq, and_assoc]
  exact Iff.rfl

/-- A claim that is found belongs to the group. -/
lemma Found.exists_key {key : GroupKey} {objectValue : Str} {status : ClaimStatus}
    {observationIds : List Str} {rows : List Claim}
    (h : Found personId key objectValue status observationIds rows) :
    ∃ claim ∈ rows, claim.subjectId = some personId ∧ claim.key = key ∧
      claim.objectValue.strip = objectValue.strip ∧ claim.status = status ∧
      claim.observationIds = observationIds := by
  obtain ⟨claim, hclaim, hscope, hmatches⟩ := h
  exact ⟨claim, hclaim, hscope.1, Prod.ext hmatches.1 hscope.2, hmatches.2⟩

/-- Only the claims of the group matter. -/
lemma found_keyed {key : GroupKey} {objectValue : Str} {status : ClaimStatus}
    {observationIds : List Str} {rows : List Claim} :
    Found personId key objectValue status observationIds (keyed key rows) ↔
      Found personId key objectValue status observationIds rows := by
  simp only [Found, keyed, List.mem_filter, decide_eq_true_eq]
  constructor
  · rintro ⟨c, ⟨hc, -⟩, h⟩
    exact ⟨c, hc, h⟩
  · rintro ⟨c, hc, h⟩
    exact ⟨c, ⟨hc, Prod.ext h.2.1 h.1.2⟩, h⟩

/-! ## The outcomes -/

/-- The claim of a group that agrees. -/
def agreedClaim (personId : Uuid) (now : Time) (id : Uuid) (key : GroupKey)
    (group : List Observation) (strongest : Observation) : Claim :=
  deriveClaim personId now id key .supported strongest.objectValue
    ((group.map Observation.confidence).foldr max strongest.confidence) strongest.observedAt group

/-- The claims record observations of the group as contradicted. -/
def RecordsFrom (personId : Uuid) (now : Time) (key : GroupKey) (group : List Observation)
    (added : List Claim) : Prop :=
  ∀ claim ∈ added, ∃ obs ∈ group, ∃ id,
    claim = deriveFrom personId now id key .contradicted obs

/-- The ways a group ends: the table before and after. A claim of the group is found, or is added
under a new id; the claim of observations that agree and the winner of a contradiction supersede the
current claims. -/
inductive GroupOutcome (personId : Uuid) (now : Time) (key : GroupKey) :
    List Observation → List Claim → List Claim → Prop
  | singleFound {obs : Observation} {rows : List Claim}
      (hfound : Found personId key obs.objectValue .unverified [obs.id.str] rows) :
      GroupOutcome personId now key [obs] rows rows
  | singleAdded {obs : Observation} {rows : List Claim} {id : Uuid}
      (hnot : ¬ Found personId key obs.objectValue .unverified [obs.id.str] rows)
      (hnew : ∀ row ∈ rows, row.id ≠ id) :
      GroupOutcome personId now key [obs] rows
        (rows ++ [deriveFrom personId now id key .unverified obs])
  | agreedFound {group : List Observation} {rows : List Claim} {strongest : Observation}
      (hlength : 2 ≤ group.length) (hagree : ¬ Contested group)
      (hstrongest : strongest ∈ group.argmax (observationStrength now))
      (hfound : Found personId key strongest.objectValue .supported
        (group.map fun o => o.id.str) rows) :
      GroupOutcome personId now key group rows rows
  | agreedAdded {group : List Observation} {rows : List Claim} {strongest : Observation} {id : Uuid}
      (hlength : 2 ≤ group.length) (hagree : ¬ Contested group)
      (hstrongest : strongest ∈ group.argmax (observationStrength now))
      (hnot : ¬ Found personId key strongest.objectValue .supported
        (group.map fun o => o.id.str) rows)
      (hnew : ∀ row ∈ rows, row.id ≠ id) :
      GroupOutcome personId now key group rows
        (closedFor personId key rows (some (agreedClaim personId now id key group strongest)) ++
          [agreedClaim personId now id key group strongest])
  | winnerFound {group : List Observation} {rows added : List Claim} {winner : Observation}
      (hcontested : Contested group) (hwinner : winner ∈ (rankByStrength now group).head?)
      (hfound : Recorded personId rows winner)
      (hadded : RecordsFrom personId now key group added)
      (hrecorded : ∀ obs ∈ group, Recorded personId (rows ++ added) obs) :
      GroupOutcome personId now key group rows (rows ++ added)
  | winnerAdded {group : List Observation} {rows added : List Claim} {winner : Observation}
      {id : Uuid}
      (hcontested : Contested group) (hwinner : winner ∈ (rankByStrength now group).head?)
      (hnot : ¬ Recorded personId rows winner)
      (hnew : ∀ row ∈ rows, row.id ≠ id)
      (hadded : RecordsFrom personId now key group added)
      (hrecorded : ∀ obs ∈ group, Recorded personId
        (rows ++ deriveFrom personId now id key .contradicted winner :: added) obs) :
      GroupOutcome personId now key group rows
        (closedFor personId key rows
            (some (deriveFrom personId now id key .contradicted winner)) ++
          deriveFrom personId now id key .contradicted winner :: added)

/-- A group of one observation ends in one of these ways. -/
lemma reconcileSingle_outcome {key : GroupKey} {obs : Observation} {st st' : Progress}
    (h : reconcileSingle personId now draw key obs st = some st') :
    GroupOutcome personId now key [obs] st.claims st'.claims := by
  unfold reconcileSingle at h
  split_ifs at h with hfound
  · obtain rfl := Option.some.inj h
    exact .singleFound (isSome_findMatchingClaim_iff.mp hfound)
  · obtain ⟨hclaims, hnew⟩ := addClaim_eq_some h
    rw [hclaims]
    exact .singleAdded (fun hf => hfound (isSome_findMatchingClaim_iff.mpr hf)) hnew

/-- A group of several observations that agree ends in one of these ways. -/
lemma reconcileUnanimous_outcome {key : GroupKey} {group : List Observation} {st st' : Progress}
    (hlength : 2 ≤ group.length) (hagree : ¬ Contested group)
    (h : reconcileUnanimous personId now draw key group st = some st') :
    GroupOutcome personId now key group st.claims st'.claims := by
  unfold reconcileUnanimous at h
  split at h
  · next hnone =>
    rw [List.argmax_eq_none] at hnone
    simp [hnone] at hlength
  · next strongest hstrongest =>
    split_ifs at h with hfound
    · obtain rfl := Option.some.inj h
      exact .agreedFound hlength hagree hstrongest (isSome_findMatchingClaim_iff.mp hfound)
    · obtain ⟨hclaims, hnew⟩ := addClaim_superseding_eq_some h
      rw [hclaims]
      exact .agreedAdded hlength hagree hstrongest
        (fun hf => hfound (isSome_findMatchingClaim_iff.mpr hf)) hnew

/-- A contested group ends in one of these ways. -/
lemma reconcileContradiction_outcome {key : GroupKey} {group : List Observation}
    {st st' : Progress} (hcontested : Contested group) (hkey : ∀ obs ∈ group, obs.key = key)
    (h : reconcileContradiction personId now draw key group st = some st') :
    GroupOutcome personId now key group st.claims st'.claims := by
  have hrank : ∀ o, o ∈ rankByStrength now group ↔ o ∈ group :=
    fun o => (rankByStrength_perm now group).mem_iff
  unfold reconcileContradiction at h
  split at h
  · next heq =>
    obtain ⟨o, ho, -⟩ := contested_iff.mp hcontested
    simp [heq] at hrank
    exact absurd ho (hrank o)
  · next winner losers heq =>
    have hwinner : winner ∈ (rankByStrength now group).head? := by simp [heq]
    have hmem : winner ∈ group := (hrank winner).mp (by simp [heq])
    have hlosers : ∀ o ∈ losers, o ∈ group := fun o ho => (hrank o).mp (by simp [heq, ho])
    have hsplit : ∀ o ∈ group, o = winner ∨ o ∈ losers :=
      fun o ho => List.mem_cons.mp (heq ▸ (hrank o).mpr ho)
    obtain rfl : winner.key = key := hkey winner hmem
    obtain ⟨st₁, hfirst, hrest⟩ := Option.bind_eq_some_iff.mp h
    obtain ⟨added, hclaims, hfrom, hrec⟩ :=
      recordLosers_effect (fun o ho => hkey o (hlosers o ho)) hrest
    have hadded : RecordsFrom personId now winner.key group added := by
      intro c hc
      obtain ⟨o, ho, -, id, hid⟩ := hfrom c hc
      exact ⟨o, hlosers o ho, id, hid⟩
    rw [hclaims]
    rcases recordWinner_effect hfirst with ⟨hrecorded, rfl⟩ |
      ⟨hnot, id, claim, rfl, hnew, hst₁⟩
    · refine .winnerFound hcontested hwinner hrecorded hadded fun o ho => ?_
      rw [recorded_append]
      rcases hsplit o ho with rfl | hl
      · exact Or.inl hrecorded
      · exact hrec o hl
    · rw [hst₁, List.append_assoc, List.singleton_append]
      refine .winnerAdded hcontested hwinner hnot hnew hadded fun o ho => ?_
      rw [← List.singleton_append, recorded_append, recorded_append]
      rcases hsplit o ho with rfl | hl
      · exact Or.inr (Or.inl ⟨_, List.mem_singleton_self _, counters_deriveFrom now id o⟩)
      · have hr := hrec o hl
        rw [hst₁, recorded_append, recorded_closedFor] at hr
        exact (or_assoc).mp hr

/-- **The outcomes of a group.** A group of observations of the key ends in one of these ways. -/
theorem reconcileGroup_outcome {key : GroupKey} {group : List Observation} {st st' : Progress}
    (hne : group ≠ []) (hkey : ∀ obs ∈ group, obs.key = key)
    (h : reconcileGroup personId now draw st (key, group) = some st') :
    GroupOutcome personId now key group st.claims st'.claims := by
  unfold reconcileGroup at h
  split at h
  · next obs heq =>
    obtain rfl : group = [obs] := heq
    exact reconcileSingle_outcome h
  · next hmany =>
    have hlength : 2 ≤ group.length := by
      rcases group with _ | ⟨a, _ | ⟨b, rest⟩⟩
      · exact absurd rfl hne
      · exact absurd rfl (hmany a)
      · simp
    split_ifs at h with hone
    · have hagree : ¬ Contested group := by
        simp only at hone
        simp [Contested, hone]
      exact reconcileUnanimous_outcome hlength hagree h
    · refine reconcileContradiction_outcome ?_ hkey h
      obtain ⟨o, rest, rfl⟩ := List.exists_cons_of_ne_nil hne
      have hpos : 0 < (distinctValues (o :: rest)).length :=
        List.length_pos_of_mem (a := o.objectValue.strip) (by simp [distinctValues])
      simp only at hone
      simp only [Contested]
      omega

/-! ## One run -/

/-- The observations of a group in the order of a run. -/
def groupInOrder (personId : Uuid) (db : Db) (key : GroupKey) : List Observation :=
  (observationsOf personId db).filter fun obs => obs.key = key

/-- **The groups of a run.** Every group that is not empty ends in one of these ways, from some
table that agrees with the initial one on the claims of the group. -/
theorem exists_outcome_of_reconcile {db db' : Db} {created : ℕ}
    (h : reconcileObservations personId now draw db = some (db', created)) {key : GroupKey}
    (hne : groupInOrder personId db key ≠ []) :
    ∃ rows rows', keyed key rows = keyed key db.claims ∧
      GroupOutcome personId now key (groupInOrder personId db key) rows rows' ∧
      keyed key db'.claims = keyed key rows' := by
  obtain ⟨obs, hobs⟩ := List.exists_mem_of_ne_nil _ hne
  obtain ⟨hobs', hkey⟩ := List.mem_filter.mp hobs
  have hkg : (key, groupInOrder personId db key) ∈
      groupBy Observation.key (observationsOf personId db) :=
    mem_groupBy.mpr ⟨⟨obs, hobs', of_decide_eq_true hkey⟩, rfl⟩
  obtain ⟨t, t', ht, hstep, ht'⟩ := foldlM_view
    (fun k (st : Progress) => keyed k st.claims)
    (fun kg hkg s s' hs k hne => keyed_reconcileGroup hkg hs hne)
    (nodup_keys_groupBy _ _) hkg (reconcileObservations_eq_some h).2
  exact ⟨t.claims, t'.claims, ht,
    reconcileGroup_outcome hne (fun _ => key_of_mem_group hkg) hstep, ht'⟩

/-! ## Invariants of a run -/

section Invariant

variable {I : List Claim → Prop}

/-- A property of the table that lasts as claims enter: at its end and under a new id, alone or with
the current claims of the group closed in favour of the new one. -/
structure Entering (personId : Uuid) (I : List Claim → Prop) : Prop where
  add : ∀ {rows : List Claim} {claim : Claim}, I rows → claim.subjectId = some personId →
    claim.supersessionId = none → (∀ row ∈ rows, row.id ≠ claim.id) → I (rows ++ [claim])
  close : ∀ {rows : List Claim} {claim : Claim}, I rows → claim.subjectId = some personId →
    claim.supersessionId = none → (∀ row ∈ rows, row.id ≠ claim.id) →
      I (closedFor personId claim.key rows (some claim) ++ [claim])

/-- The losers of a contradiction enter one after the other. -/
lemma Entering.recordLosers (hI : Entering personId I) {key : GroupKey} {losers : List Observation}
    {st st' : Progress} (h : losers.foldlM (recordLoser personId now draw key) st = some st')
    (hst : I st.claims) : I st'.claims := by
  refine foldlM_invariant (I := fun st : Progress => I st.claims) (fun t loser t' _ ht hstep => ?_)
    hst h
  unfold recordLoser at hstep
  split_ifs at hstep
  · obtain rfl := Option.some.inj hstep
    exact ht
  · obtain ⟨hclaims, hnew⟩ := addClaim_eq_some hstep
    rw [hclaims]
    exact hI.add ht rfl rfl hnew

/-- What is preserved as claims enter is preserved for a group. -/
lemma Entering.reconcileGroup (hI : Entering personId I) {kg : GroupKey × List Observation}
    {st st' : Progress} (h : reconcileGroup personId now draw st kg = some st')
    (hst : I st.claims) : I st'.claims := by
  unfold VCBrain.reconcileGroup at h
  split at h
  · unfold reconcileSingle at h
    split_ifs at h
    · obtain rfl := Option.some.inj h
      exact hst
    · obtain ⟨hclaims, hnew⟩ := addClaim_eq_some h
      rw [hclaims]
      exact hI.add hst rfl rfl hnew
  · split_ifs at h
    · unfold reconcileUnanimous at h
      split at h
      · obtain rfl := Option.some.inj h
        exact hst
      · split_ifs at h
        · obtain rfl := Option.some.inj h
          exact hst
        · obtain ⟨hclaims, hnew⟩ := addClaim_superseding_eq_some h
          rw [hclaims]
          exact hI.close hst rfl rfl hnew
    · unfold reconcileContradiction at h
      split at h
      · obtain rfl := Option.some.inj h
        exact hst
      · obtain ⟨st₁, hfirst, hrest⟩ := Option.bind_eq_some_iff.mp h
        refine hI.recordLosers hrest ?_
        unfold recordWinner at hfirst
        split_ifs at hfirst
        · obtain rfl := Option.some.inj hfirst
          exact hst
        · obtain ⟨hclaims, hnew⟩ := addClaim_superseding_eq_some hfirst
          rw [hclaims]
          exact hI.close hst rfl rfl hnew

/-- **Invariants of a run.** What is preserved as claims enter is preserved by a run. -/
theorem Entering.reconcile (hI : Entering personId I) {db db' : Db} {created : ℕ}
    (h : reconcileObservations personId now draw db = some (db', created)) (hdb : I db.claims) :
    I db'.claims :=
  foldlM_invariant (I := fun st : Progress => I st.claims)
    (fun _ _ _ _ ht hstep => hI.reconcileGroup hstep ht) hdb (reconcileObservations_eq_some h).2

/-- Closing claims keeps their ids. -/
lemma map_id_closedFor (key : GroupKey) (rows : List Claim) (closing : Option Claim) :
    (closedFor personId key rows closing).map Claim.id = rows.map Claim.id := by
  cases closing with
  | none => rfl
  | some replacement =>
    rw [closedFor, closeSupersededClaims, List.map_map]
    refine List.map_congr_left fun row _ => ?_
    simp only [Function.comp_apply, closeSuperseded]
    split_ifs <;> rfl

/-- No id is used twice. -/
lemma entering_keyUnique : Entering personId (KeyUnique Claim.id) where
  add hrows _ _ hnew := hrows.append hnew
  close {rows claim} hrows _ _ hnew := by
    have hids := @map_id_closedFor personId claim.key rows (some claim)
    have hclosed : KeyUnique Claim.id (closedFor personId claim.key rows (some claim)) := by
      rw [KeyUnique, hids]
      exact hrows
    refine hclosed.append fun row hrow heq => ?_
    obtain ⟨old, hold, hid⟩ := List.mem_map.mp (hids ▸ List.mem_map_of_mem hrow)
    exact hnew old hold (hid.trans heq)

end Invariant

end Person

end VCBrain
