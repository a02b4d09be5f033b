import VCBrain.Processing.Reconcile

set_option relaxedAutoImplicit false
set_option autoImplicit false

/-!
# The effect of reconciliation on one group

What one run of `reconcile_observations` does to the claims table for one group of
observations, and when it leaves every observation of a contested group with a current claim.

## Main definitions

* `Contested` — a group with two distinct values.
* `Recorded`, `RecordedCurrent` — an observation has a claim a contradiction derived from it.
* `GroupEffect` — all a run does to the table for one group.

## Main results

* `reconcileGroup_effect` — the body of the loop over the groups has that effect.
* `groupEffect_of_reconcile` — so has a whole run on the part of every group.
* `GroupEffect.frame` — it leaves the claims of other groups alone.
* `GroupEffect.current_iff` — when a contested group ends with every observation current.
-/

namespace VCBrain

/-! ## Contested groups -/

/-- A group with at least two distinct values up to surrounding whitespace. -/
def Contested (group : List Observation) : Prop := 2 ≤ (distinctValues group).length

instance : DecidablePred Contested := fun _ => inferInstanceAs (Decidable (_ ≤ _))

/-- A group is contested when two of its observations disagree. -/
lemma contested_iff {group : List Observation} :
    Contested group ↔
      ∃ a ∈ group, ∃ b ∈ group, a.objectValue.strip ≠ b.objectValue.strip := by
  have hmem : ∀ v, v ∈ distinctValues group ↔ ∃ o ∈ group, o.objectValue.strip = v := by
    simp [distinctValues]
  have hnodup : (distinctValues group).Nodup := List.nodup_dedup _
  constructor
  · intro h
    obtain ⟨v, w, rest, heq⟩ : ∃ v w rest, distinctValues group = v :: w :: rest := by
      rw [Contested] at h
      match distinctValues group, h with
      | v :: w :: rest, _ => exact ⟨v, w, rest, rfl⟩
    obtain ⟨a, ha, hav⟩ := (hmem v).mp (by simp [heq])
    obtain ⟨b, hb, hbw⟩ := (hmem w).mp (by simp [heq])
    refine ⟨a, ha, b, hb, ?_⟩
    rw [hav, hbw]
    rw [heq] at hnodup
    exact fun hvw => (List.nodup_cons.mp hnodup).1 (by simp [hvw])
  · rintro ⟨a, ha, b, hb, hne⟩
    have hsub : [a.objectValue.strip, b.objectValue.strip] ⊆ distinctValues group := by
      intro v hv
      rcases List.mem_pair.mp hv with rfl | rfl
      · exact (hmem _).mpr ⟨a, ha, rfl⟩
      · exact (hmem _).mpr ⟨b, hb, rfl⟩
    exact (List.subperm_of_subset (by simpa using hne) hsub).length_le

lemma Contested.two_le_length {group : List Observation} (h : Contested group) :
    2 ≤ group.length := by
  refine le_trans h (le_trans (List.dedup_sublist _).length_le ?_)
  simp

/-- A larger group is contested if a part of it is. -/
lemma Contested.mono {group group' : List Observation} (h : Contested group)
    (hsub : group ⊆ group') : Contested group' := by
  obtain ⟨a, ha, b, hb, hne⟩ := contested_iff.mp h
  exact contested_iff.mpr ⟨a, hsub ha, b, hsub hb, hne⟩

/-- The strength order only rearranges a group. -/
lemma rankByStrength_perm (now : Time) (group : List Observation) :
    (rankByStrength now group).Perm group := List.perm_insertionSort _ _

section Person

variable (personId : Uuid)

/-- The observations of the person with the given predicate and opportunity. -/
def groupOf (observations : List Observation) (key : GroupKey) : List Observation :=
  observations.filter fun obs => obs.subjectId = some personId ∧ obs.key = key

lemma mem_groupOf {observations : List Observation} {key : GroupKey} {obs : Observation} :
    obs ∈ groupOf personId observations key ↔
      obs ∈ observations ∧ obs.subjectId = some personId ∧ obs.key = key := by
  simp [groupOf]

lemma mem_observationsOf {db : Db} {obs : Observation} :
    obs ∈ observationsOf personId db ↔
      obs ∈ db.observations ∧ obs.subjectId = some personId := by
  simp [observationsOf, (List.perm_insertionSort _ _).mem_iff]

/-- The groups of a run are the groups of the person's observations. -/
lemma mem_groupBy_observationsOf {db : Db} {key : GroupKey} {group : List Observation}
    (h : (key, group) ∈ groupBy Observation.key (observationsOf personId db)) {obs : Observation} :
    obs ∈ group ↔ obs ∈ groupOf personId db.observations key := by
  obtain ⟨-, rfl⟩ := mem_groupBy.mp h
  simp [mem_observationsOf, mem_groupOf, and_assoc]

/-! ## Claims that record an observation -/

/-- The claim is the one a contradiction records for the observation. -/
def Counters (obs : Observation) (claim : Claim) : Prop :=
  InScope personId obs.opportunityId claim ∧
    claimMatches obs.predicate obs.objectValue .contradicted [obs.id.str] claim

instance (obs : Observation) : DecidablePred (Counters personId obs) :=
  fun _ => inferInstanceAs (Decidable (_ ∧ _))

/-- Some claim of the table, current or superseded, records the observation. -/
def Recorded (rows : List Claim) (obs : Observation) : Prop :=
  ∃ claim ∈ rows, Counters personId obs claim

/-- Some current claim of the table records the observation. -/
def RecordedCurrent (rows : List Claim) (obs : Observation) : Prop :=
  ∃ claim ∈ rows, Counters personId obs claim ∧ claim.supersessionId = none

instance (rows : List Claim) (obs : Observation) : Decidable (Recorded personId rows obs) :=
  inferInstanceAs (Decidable (∃ claim ∈ rows, _))

variable {personId}

/-- Matching finds a claim exactly if the observation is recorded. -/
lemma isSome_findMatchingClaim {rows : List Claim} {obs : Observation} :
    (findMatchingClaim (scopedClaims personId obs.key.2 rows) obs.key.1 obs.objectValue
      .contradicted [obs.id.str]).isSome ↔ Recorded personId rows obs := by
  simp only [findMatchingClaim, List.find?_isSome, scopedClaims, List.mem_filter,
    decide_eq_true_eq, and_assoc]
  exact Iff.rfl

lemma Counters.key_eq {obs : Observation} {claim : Claim} (h : Counters personId obs claim) :
    claim.key = obs.key := Prod.ext h.2.1 h.1.2

/-- The claim derived from an observation under `contradicted` records it. -/
lemma counters_deriveFrom (now : Time) (id : Uuid) (obs : Observation) :
    Counters personId obs (deriveFrom personId now id obs.key .contradicted obs) :=
  ⟨⟨rfl, rfl⟩, rfl, rfl, rfl, rfl⟩

lemma recorded_append {rows added : List Claim} {obs : Observation} :
    Recorded personId (rows ++ added) obs ↔
      Recorded personId rows obs ∨ Recorded personId added obs := by
  simp only [Recorded, List.mem_append, or_and_right, exists_or]

/-! ## Closing claims -/

/-- A row of the table after closing is an old row that was out of reach, or a closed one. -/
lemma mem_closeSupersededClaims {key : GroupKey} {rows : List Claim} {replacement claim : Claim}
    (h : claim ∈ closeSupersededClaims personId key.2 rows replacement key.1) :
    ∃ previous ∈ rows,
      (claim = previous ∧ (InScope personId key.2 previous → previous.id ≠ replacement.id →
        previous.predicate = key.1 → previous.supersessionId ≠ none)) ∨
      claim = { previous with
        supersessionId := some replacement.id
        validTimeEnd := some replacement.validTimeStart } := by
  obtain ⟨previous, hprev, rfl⟩ := List.mem_map.mp h
  refine ⟨previous, hprev, ?_⟩
  unfold closeSuperseded
  split_ifs with hscope hreach hclosed
  · exact Or.inl ⟨rfl, fun _ hid hpred => absurd hreach (by tauto)⟩
  · exact Or.inl ⟨rfl, fun _ _ _ => hclosed⟩
  · exact Or.inr rfl
  · exact Or.inl ⟨rfl, fun h => absurd h hscope⟩

/-- An old row is still there after closing, closed or not. -/
lemma exists_mem_closeSupersededClaims (key : GroupKey) {rows : List Claim}
    (replacement : Claim) {previous : Claim} (h : previous ∈ rows) :
    ∃ s e, { previous with supersessionId := s, validTimeEnd := e } ∈
      closeSupersededClaims personId key.2 rows replacement key.1 := by
  have hmem := List.mem_map_of_mem (f := fun previous =>
    if InScope personId key.2 previous then closeSuperseded replacement key.1 previous
    else previous) h
  unfold closeSuperseded at hmem
  split_ifs at hmem
  · exact ⟨_, _, hmem⟩
  · exact ⟨_, _, hmem⟩
  · exact ⟨_, _, hmem⟩
  · exact ⟨_, _, hmem⟩

/-- Closing leaves no current claim of its key. -/
lemma not_current_of_mem_close {key : GroupKey} {rows : List Claim} {replacement claim : Claim}
    (hnew : ∀ row ∈ rows, row.id ≠ replacement.id)
    (h : claim ∈ closeSupersededClaims personId key.2 rows replacement key.1)
    (hsubject : claim.subjectId = some personId) (hkey : claim.key = key) :
    claim.supersessionId ≠ none := by
  obtain ⟨previous, hprev, ⟨rfl, hreach⟩ | rfl⟩ := mem_closeSupersededClaims h
  · exact hreach ⟨hsubject, congrArg Prod.snd hkey⟩ (hnew _ hprev) (congrArg Prod.fst hkey)
  · simp

/-- Closing forgets no record. -/
lemma recorded_closeSupersededClaims {key : GroupKey} {rows : List Claim} {replacement : Claim}
    {obs : Observation} :
    Recorded personId (closeSupersededClaims personId key.2 rows replacement key.1) obs ↔
      Recorded personId rows obs := by
  constructor
  · rintro ⟨claim, hmem, hc⟩
    obtain ⟨previous, hprev, ⟨rfl, -⟩ | rfl⟩ := mem_closeSupersededClaims hmem
    · exact ⟨_, hprev, hc⟩
    · exact ⟨previous, hprev, hc⟩
  · rintro ⟨claim, hmem, hc⟩
    obtain ⟨s, e, hmem'⟩ := exists_mem_closeSupersededClaims key replacement hmem
    exact ⟨_, hmem', hc⟩

/-! ## The effect of a run on one group -/

/-- The table with the claims of a group closed in favour of `closing`, if there is one. -/
def closedFor (personId : Uuid) (key : GroupKey) (rows : List Claim) : Option Claim → List Claim
  | none => rows
  | some replacement => closeSupersededClaims personId key.2 rows replacement key.1

lemma recorded_closedFor {key : GroupKey} {rows : List Claim} {closing : Option Claim}
    {obs : Observation} :
    Recorded personId (closedFor personId key rows closing) obs ↔ Recorded personId rows obs := by
  cases closing with
  | none => exact Iff.rfl
  | some replacement => exact recorded_closeSupersededClaims

/-- A row of the table after closing is an old row, up to its supersession. -/
lemma mem_closedFor {key : GroupKey} {rows : List Claim} {closing : Option Claim} {claim : Claim}
    (h : claim ∈ closedFor personId key rows closing) :
    ∃ previous ∈ rows, ∃ s e, claim = { previous with supersessionId := s, validTimeEnd := e } := by
  cases closing with
  | none => exact ⟨claim, h, claim.supersessionId, claim.validTimeEnd, rfl⟩
  | some replacement =>
    obtain ⟨previous, hprev, ⟨rfl, -⟩ | rfl⟩ := mem_closeSupersededClaims h
    · exact ⟨claim, hprev, claim.supersessionId, claim.validTimeEnd, rfl⟩
    · exact ⟨previous, hprev, _, _, rfl⟩

/-- Some claim of the person in the group, current or superseded, is `supported`. -/
def Supported (personId : Uuid) (key : GroupKey) (rows : List Claim) : Prop :=
  ∃ claim ∈ rows, claim.subjectId = some personId ∧ claim.key = key ∧ claim.status = .supported

/-- What a run does to the table `rows` for one group: the claims of the group are closed in
favour of `closing`, and `added` are appended. In a contested group every observation is
recorded afterwards, and claims are closed unless the strongest observation was recorded; a
group of several observations that agree has a `supported` claim afterwards. -/
structure GroupEffect (personId : Uuid) (now : Time) (key : GroupKey) (group : List Observation)
    (rows : List Claim) (closing : Option Claim) (added : List Claim) : Prop where
  closing_new : ∀ replacement, closing = some replacement →
    ∀ row ∈ rows, row.id ≠ replacement.id
  added_current : ∀ claim ∈ added,
    claim.subjectId = some personId ∧ claim.key = key ∧ claim.supersessionId = none
  added_counters : ∀ claim ∈ added, claim.status = .contradicted →
    Contested group ∧ ∃ obs ∈ group, Counters personId obs claim ∧ ¬ Recorded personId rows obs
  recorded : Contested group → ∀ obs ∈ group,
    Recorded personId rows obs ∨ Recorded personId added obs
  closing_none : Contested group → (closing = none ↔
    ∀ strongest ∈ (rankByStrength now group).head?, Recorded personId rows strongest)
  added_supported : ∀ claim ∈ added, claim.status = .supported →
    2 ≤ group.length ∧ ¬ Contested group
  supported : 2 ≤ group.length → ¬ Contested group →
    Supported personId key rows ∨ Supported personId key added

/-- A claim that is added goes to the end of the table. -/
lemma addClaim_eq_some {st st' : Progress} {claim : Claim} (h : addClaim st claim = some st') :
    st'.claims = st.claims ++ [claim] ∧ ∀ row ∈ st.claims, row.id ≠ claim.id := by
  obtain ⟨rows, hrows, rfl⟩ := Option.map_eq_some_iff.mp h
  exact insertClaim_eq_some hrows

/-- A claim that is added and supersedes the current ones closes the rows before it. -/
lemma addClaim_superseding_eq_some {key : GroupKey} {st st' : Progress} {claim : Claim}
    (h : (do
      let st ← addClaim st claim
      some { st with claims := closeSupersededClaims personId key.2 st.claims claim key.1 }) =
        some st') :
    st'.claims = closedFor personId key st.claims (some claim) ++ [claim] ∧
      ∀ row ∈ st.claims, row.id ≠ claim.id := by
  obtain ⟨st₁, hadd, hst'⟩ := Option.bind_eq_some_iff.mp h
  obtain ⟨hclaims, hnew⟩ := addClaim_eq_some hadd
  obtain rfl := Option.some.inj hst'
  exact ⟨by simp [hclaims, closedFor, closeSupersededClaims, closeSuperseded], hnew⟩

variable {now : Time} {draw : ℕ → Uuid}

/-- A group that is not contested adds no counter-evidence. -/
lemma GroupEffect.of_not_contested {key : GroupKey} {group : List Observation}
    {rows added : List Claim} {closing : Option Claim} (hnot : ¬ Contested group)
    (hnew : ∀ replacement, closing = some replacement → ∀ row ∈ rows, row.id ≠ replacement.id)
    (hadded : ∀ claim ∈ added, claim.subjectId = some personId ∧ claim.key = key ∧
      claim.supersessionId = none ∧ claim.status ≠ .contradicted ∧
      (claim.status = .supported → 2 ≤ group.length))
    (hsupported : 2 ≤ group.length →
      Supported personId key rows ∨ Supported personId key added) :
    GroupEffect personId now key group rows closing added where
  closing_new := hnew
  added_current claim hc := ⟨(hadded claim hc).1, (hadded claim hc).2.1, (hadded claim hc).2.2.1⟩
  added_counters claim hc hs := absurd hs (hadded claim hc).2.2.2.1
  recorded h := absurd h hnot
  closing_none h := absurd h hnot
  added_supported claim hc hs := ⟨(hadded claim hc).2.2.2.2 hs, hnot⟩
  supported h _ := hsupported h

/-- The effect of a group of one observation. -/
lemma reconcileSingle_effect {key : GroupKey} {obs : Observation} {st st' : Progress}
    (h : reconcileSingle personId now draw key obs st = some st') :
    ∃ closing added, st'.claims = closedFor personId key st.claims closing ++ added ∧
      GroupEffect personId now key [obs] st.claims closing added := by
  have hnot : ¬ Contested [obs] := by simp [Contested, distinctValues]
  unfold reconcileSingle at h
  split_ifs at h with hfound
  · obtain rfl := Option.some.inj h
    exact ⟨none, [], by simp [closedFor],
      GroupEffect.of_not_contested hnot (by simp) (by simp) (by simp)⟩
  · obtain ⟨hclaims, -⟩ := addClaim_eq_some h
    exact ⟨none, _, hclaims, GroupEffect.of_not_contested hnot (by simp)
      (by simp [deriveFrom, deriveClaim, Claim.key]) (by simp)⟩

/-- Matching finds a `supported` claim among the claims of the group. -/
lemma supported_of_isSome_findMatchingClaim {key : GroupKey} {rows : List Claim} {value : Str}
    {ids : List Str} (h : (findMatchingClaim (scopedClaims personId key.2 rows) key.1 value
      .supported ids).isSome) : Supported personId key rows := by
  simp only [findMatchingClaim, List.find?_isSome, scopedClaims, List.mem_filter,
    decide_eq_true_eq] at h
  obtain ⟨claim, ⟨hmem, hscope⟩, hmatches⟩ := h
  exact ⟨claim, hmem, hscope.1, Prod.ext hmatches.1 hscope.2, hmatches.2.2.1⟩

/-- The effect of a group of several observations that agree. -/
lemma reconcileUnanimous_effect {key : GroupKey} {group : List Observation} {st st' : Progress}
    (hlength : 2 ≤ group.length) (hnot : ¬ Contested group)
    (h : reconcileUnanimous personId now draw key group st = some st') :
    ∃ closing added, st'.claims = closedFor personId key st.claims closing ++ added ∧
      GroupEffect personId now key group st.claims closing added := by
  unfold reconcileUnanimous at h
  split at h
  · next hnone =>
    rw [List.argmax_eq_none] at hnone
    simp [hnone] at hlength
  · split_ifs at h with hfound
    · obtain rfl := Option.some.inj h
      exact ⟨none, [], by simp [closedFor], GroupEffect.of_not_contested hnot (by simp) (by simp)
        fun _ => Or.inl (supported_of_isSome_findMatchingClaim hfound)⟩
    · obtain ⟨hclaims, hnew⟩ := addClaim_superseding_eq_some h
      refine ⟨_, _, hclaims, GroupEffect.of_not_contested hnot ?_ ?_ fun _ => Or.inr ?_⟩
      · rintro _ ⟨⟩
        exact hnew
      · simp [deriveClaim, Claim.key, hlength]
      · exact ⟨_, List.mem_singleton_self _, rfl, rfl, rfl⟩

/-- The winner is recorded, at the cost of the current claims if it was not yet. -/
lemma recordWinner_effect {winner : Observation} {st st' : Progress}
    (h : recordWinner personId now draw winner.key winner st = some st') :
    (Recorded personId st.claims winner ∧ st' = st) ∨
    (¬ Recorded personId st.claims winner ∧ ∃ id, ∃ claim,
      claim = deriveFrom personId now id winner.key .contradicted winner ∧
      (∀ row ∈ st.claims, row.id ≠ claim.id) ∧
      st'.claims = closedFor personId winner.key st.claims (some claim) ++ [claim]) := by
  unfold recordWinner at h
  split_ifs at h with hfound
  · exact Or.inl ⟨isSome_findMatchingClaim.mp hfound, (Option.some.inj h).symm⟩
  · obtain ⟨hclaims, hnew⟩ := addClaim_superseding_eq_some h
    exact Or.inr ⟨fun hr => hfound (isSome_findMatchingClaim.mpr hr), _, _, rfl, hnew, hclaims⟩

/-- The losers that were not recorded get a claim each; nothing is closed. -/
lemma recordLosers_effect {key : GroupKey} {losers : List Observation} {st st' : Progress}
    (hkey : ∀ obs ∈ losers, obs.key = key)
    (h : losers.foldlM (recordLoser personId now draw key) st = some st') :
    ∃ added, st'.claims = st.claims ++ added ∧
      (∀ claim ∈ added, ∃ obs ∈ losers, ¬ Recorded personId st.claims obs ∧
        ∃ id, claim = deriveFrom personId now id key .contradicted obs) ∧
      ∀ obs ∈ losers, Recorded personId st.claims obs ∨ Recorded personId added obs := by
  induction losers generalizing st with
  | nil =>
    obtain rfl : st = st' := by simpa using h
    exact ⟨[], by simp, by simp, by simp⟩
  | cons obs losers ih =>
    rw [List.foldlM_cons] at h
    obtain ⟨st₁, hfirst, hrest⟩ := Option.bind_eq_some_iff.mp h
    obtain ⟨added, hclaims, hfrom, hrec⟩ :=
      ih (fun o ho => hkey o (List.mem_cons_of_mem _ ho)) hrest
    obtain rfl : obs.key = key := hkey obs (List.mem_cons_self ..)
    unfold recordLoser at hfirst
    split_ifs at hfirst with hfound
    · obtain rfl := Option.some.inj hfirst
      refine ⟨added, hclaims, fun c hc => ?_, fun o ho => ?_⟩
      · obtain ⟨o, ho, hnew⟩ := hfrom c hc
        exact ⟨o, List.mem_cons_of_mem _ ho, hnew⟩
      · rcases List.mem_cons.mp ho with rfl | ho
        · exact Or.inl (isSome_findMatchingClaim.mp hfound)
        · exact hrec o ho
    · have hnot : ¬ Recorded personId st.claims obs :=
        fun hr => hfound (isSome_findMatchingClaim.mpr hr)
      obtain ⟨hst₁, -⟩ := addClaim_eq_some hfirst
      refine ⟨deriveFrom personId now (draw st.created) obs.key .contradicted obs :: added,
        by rw [hclaims, hst₁]; simp, fun c hc => ?_, fun o ho => ?_⟩
      · rcases List.mem_cons.mp hc with rfl | hc
        · exact ⟨obs, List.mem_cons_self .., hnot, _, rfl⟩
        · obtain ⟨o, ho, hnew, hid⟩ := hfrom c hc
          rw [hst₁, recorded_append] at hnew
          exact ⟨o, List.mem_cons_of_mem _ ho, fun hr => hnew (Or.inl hr), hid⟩
      · rcases List.mem_cons.mp ho with rfl | ho
        · exact Or.inr ⟨_, List.mem_cons_self .., counters_deriveFrom now _ o⟩
        · have hsplit := hrec o ho
          rw [hst₁, recorded_append, or_assoc, ← recorded_append] at hsplit
          exact hsplit

/-- A current claim of the group that records an observation not recorded before. -/
def NewCounter (personId : Uuid) (key : GroupKey) (group : List Observation) (rows : List Claim)
    (claim : Claim) : Prop :=
  (claim.subjectId = some personId ∧ claim.key = key ∧ claim.supersessionId = none) ∧
    ∃ obs ∈ group, Counters personId obs claim ∧ ¬ Recorded personId rows obs

lemma NewCounter.status_eq {key : GroupKey} {group : List Observation} {rows : List Claim}
    {claim : Claim} (h : NewCounter personId key group rows claim) :
    claim.status = .contradicted := by
  obtain ⟨-, obs, -, hcounters, -⟩ := h
  exact hcounters.2.2.2.1

lemma newCounter_deriveFrom {key : GroupKey} {group : List Observation} {rows : List Claim}
    {obs : Observation} {id : Uuid} (hobs : obs ∈ group) (hkey : obs.key = key)
    (hnot : ¬ Recorded personId rows obs) :
    NewCounter personId key group rows (deriveFrom personId now id key .contradicted obs) := by
  subst hkey
  exact ⟨⟨rfl, rfl, rfl⟩, obs, hobs, counters_deriveFrom now id obs, hnot⟩

/-- The effect of a contested group. -/
lemma reconcileContradiction_effect {key : GroupKey} {group : List Observation}
    {st st' : Progress} (hcontested : Contested group) (hkey : ∀ obs ∈ group, obs.key = key)
    (h : reconcileContradiction personId now draw key group st = some st') :
    ∃ closing added, st'.claims = closedFor personId key st.claims closing ++ added ∧
      GroupEffect personId now key group st.claims closing added := by
  have hrank : ∀ o, o ∈ rankByStrength now group ↔ o ∈ group :=
    fun o => (rankByStrength_perm now group).mem_iff
  unfold reconcileContradiction at h
  split at h
  · next heq =>
    obtain ⟨o, ho, -⟩ := contested_iff.mp hcontested
    simp [heq] at hrank
    exact absurd ho (hrank o)
  · next winner losers heq =>
    have hwinner : winner ∈ group := (hrank winner).mp (by simp [heq])
    have hlosers : ∀ o ∈ losers, o ∈ group := fun o ho => (hrank o).mp (by simp [heq, ho])
    have hsplit : ∀ o ∈ group, o = winner ∨ o ∈ losers :=
      fun o ho => List.mem_cons.mp (heq ▸ (hrank o).mpr ho)
    obtain rfl : winner.key = key := hkey winner hwinner
    obtain ⟨st₁, hfirst, hrest⟩ := Option.bind_eq_some_iff.mp h
    obtain ⟨added, hclaims, hfrom, hrec⟩ :=
      recordLosers_effect (fun o ho => hkey o (hlosers o ho)) hrest
    rcases recordWinner_effect hfirst with ⟨hrecorded, rfl⟩ |
      ⟨hnot, id, claim, hclaim, hnew, hst₁⟩
    · -- the winner was recorded: nothing is closed
      have hadded : ∀ c ∈ added, NewCounter personId winner.key group st₁.claims c := by
        intro c hc
        obtain ⟨o, ho, hnot, id, rfl⟩ := hfrom c hc
        exact newCounter_deriveFrom (hlosers o ho) (hkey o (hlosers o ho)) hnot
      refine ⟨none, added, hclaims, by simp, fun c hc => (hadded c hc).1,
        fun c hc _ => ⟨hcontested, (hadded c hc).2⟩, fun _ o ho => ?_, fun _ => ?_,
        fun c hc hs => ?_, fun _ hnot => absurd hcontested hnot⟩
      · rcases hsplit o ho with rfl | hl
        · exact Or.inl hrecorded
        · exact hrec o hl
      · simpa [heq] using hrecorded
      · exact absurd (hs.symm.trans (hadded c hc).status_eq) (by decide)
    · -- the winner is new: the current claims are closed in its favour
      have hiff : ∀ o, Recorded personId st₁.claims o ↔
          Recorded personId st.claims o ∨ Recorded personId [claim] o := by
        intro o
        rw [hst₁, recorded_append, recorded_closedFor]
      have hadded : ∀ c ∈ claim :: added,
          NewCounter personId winner.key group st.claims c := by
        intro c hc
        rcases List.mem_cons.mp hc with rfl | hc
        · exact hclaim ▸ newCounter_deriveFrom hwinner rfl hnot
        · obtain ⟨o, ho, hnot', id, rfl⟩ := hfrom c hc
          exact newCounter_deriveFrom (hlosers o ho) (hkey o (hlosers o ho))
            (fun hr => hnot' ((hiff o).mpr (Or.inl hr)))
      refine ⟨some claim, claim :: added, by rw [hclaims, hst₁]; simp, ?_,
        fun c hc => (hadded c hc).1, fun c hc _ => ⟨hcontested, (hadded c hc).2⟩,
        fun _ o ho => ?_, fun _ => ?_, fun c hc hs => ?_, fun _ hnot => absurd hcontested hnot⟩
      · rintro _ ⟨⟩
        exact hnew
      · rw [← List.singleton_append, recorded_append]
        rcases hsplit o ho with rfl | hl
        · exact Or.inr (Or.inl ⟨claim, by simp, hclaim ▸ counters_deriveFrom now id o⟩)
        · rcases hrec o hl with hr | hr
          · exact ((hiff o).mp hr).imp_right Or.inl
          · exact Or.inr (Or.inr hr)
      · simpa [heq] using hnot
      · exact absurd (hs.symm.trans (hadded c hc).status_eq) (by decide)

/-- **All a run does for one group.** The claims of the group are closed or not, claims of the
group are appended, and a contested group is recorded as a whole. -/
theorem reconcileGroup_effect {key : GroupKey} {group : List Observation} {st st' : Progress}
    (hkey : ∀ obs ∈ group, obs.key = key)
    (h : reconcileGroup personId now draw st (key, group) = some st') :
    ∃ closing added, st'.claims = closedFor personId key st.claims closing ++ added ∧
      GroupEffect personId now key group st.claims closing added := by
  unfold reconcileGroup at h
  split at h
  · next obs heq =>
    obtain rfl : group = [obs] := heq
    exact reconcileSingle_effect h
  · next hmany =>
    split_ifs at h with hone
    · have hnot : ¬ Contested group := by
        simp only at hone
        simp [Contested, hone]
      have hlength : 2 ≤ group.length := by
        rcases group with _ | ⟨a, _ | ⟨b, rest⟩⟩
        · simp [distinctValues] at hone
        · exact absurd rfl (hmany a)
        · simp
      exact reconcileUnanimous_effect hlength hnot h
    · by_cases hempty : group = []
      · subst hempty
        obtain rfl : st = st' := by simpa [reconcileContradiction, rankByStrength] using h
        exact ⟨none, [], by simp [closedFor],
          GroupEffect.of_not_contested (by simp [Contested, distinctValues]) (by simp) (by simp)
            (by simp)⟩
      · refine reconcileContradiction_effect ?_ hkey h
        obtain ⟨o, rest, rfl⟩ := List.exists_cons_of_ne_nil hempty
        have hpos : 0 < (distinctValues (o :: rest)).length :=
          List.length_pos_of_mem (a := o.objectValue.strip) (by simp [distinctValues])
        simp only at hone
        simp only [Contested]
        omega

/-! ## The part of the table that belongs to a group -/

/-- The rows of the table that belong to one group. -/
def keyed (key : GroupKey) (rows : List Claim) : List Claim :=
  rows.filter fun claim => claim.key = key

/-- An update of rows that keeps their groups and fixes one group leaves that group alone. -/
lemma keyed_map {key : GroupKey} {update : Claim → Claim} (hkey : ∀ row, (update row).key = row.key)
    (hfix : ∀ row, row.key = key → update row = row) (rows : List Claim) :
    keyed key (rows.map update) = keyed key rows := by
  induction rows with
  | nil => rfl
  | cons row rows ih =>
    simp only [keyed, List.map_cons, List.filter_cons, hkey] at ih ⊢
    by_cases h : row.key = key
    · rw [hfix row h, ih]
    · simp only [h, decide_false, Bool.false_eq_true, if_false, ih]

/-- Closing claims of one group leaves the other groups alone. -/
lemma keyed_closedFor {key key' : GroupKey} (hne : key' ≠ key) (rows : List Claim)
    (closing : Option Claim) :
    keyed key' (closedFor personId key rows closing) = keyed key' rows := by
  cases closing with
  | none => rfl
  | some replacement =>
    refine keyed_map (fun row => ?_) (fun row hrow => ?_) rows
    · unfold closeSuperseded
      split_ifs <;> rfl
    · unfold closeSuperseded
      split_ifs with hscope hpred hopen
      · rfl
      · rfl
      · exact absurd (hrow.symm.trans (Prod.ext (by tauto) hscope.2)) hne
      · rfl

/-- What a run does for one group leaves the claims of the other groups alone. -/
lemma GroupEffect.frame {key key' : GroupKey} {group : List Observation} {rows added : List Claim}
    {closing : Option Claim} (h : GroupEffect personId now key group rows closing added)
    (hne : key' ≠ key) :
    keyed key' (closedFor personId key rows closing ++ added) = keyed key' rows := by
  have hadded : keyed key' added = [] := by
    simp only [keyed, List.filter_eq_nil_iff, decide_eq_true_eq]
    intro claim hc heq
    exact hne (heq.symm.trans (h.added_current claim hc).2.1)
  rw [keyed, List.filter_append, ← keyed, ← keyed, hadded, List.append_nil,
    keyed_closedFor hne]

lemma recorded_keyed {rows : List Claim} {obs : Observation} :
    Recorded personId (keyed obs.key rows) obs ↔ Recorded personId rows obs := by
  simp only [Recorded, keyed, List.mem_filter, decide_eq_true_eq]
  exact ⟨fun ⟨c, ⟨hc, _⟩, h⟩ => ⟨c, hc, h⟩, fun ⟨c, hc, h⟩ => ⟨c, ⟨hc, h.key_eq⟩, h⟩⟩

lemma recordedCurrent_keyed {rows : List Claim} {obs : Observation} :
    RecordedCurrent personId (keyed obs.key rows) obs ↔ RecordedCurrent personId rows obs := by
  simp only [RecordedCurrent, keyed, List.mem_filter, decide_eq_true_eq]
  exact ⟨fun ⟨c, ⟨hc, _⟩, h⟩ => ⟨c, hc, h⟩, fun ⟨c, hc, h⟩ => ⟨c, ⟨hc, h.1.key_eq⟩, h⟩⟩

/-- **One contested group.** If every recorded observation of the group has a current claim
before, then all observations have one afterwards exactly if none was recorded before or the
strongest one was. -/
lemma GroupEffect.current_iff {key : GroupKey} {group : List Observation}
    {rows added : List Claim} {closing : Option Claim}
    (h : GroupEffect personId now key group rows closing added) (hcontested : Contested group)
    (hkey : ∀ obs ∈ group, obs.key = key)
    (hids : ∀ a ∈ group, ∀ b ∈ group, a.id = b.id → a = b)
    (hcurrent : ∀ obs ∈ group, Recorded personId rows obs → RecordedCurrent personId rows obs) :
    (∀ obs ∈ group, RecordedCurrent personId (closedFor personId key rows closing ++ added) obs) ↔
      (∀ obs ∈ group, ¬ Recorded personId rows obs) ∨
        ∀ strongest ∈ (rankByStrength now group).head?, Recorded personId rows strongest := by
  have hnew : ∀ obs, Recorded personId added obs →
      RecordedCurrent personId (closedFor personId key rows closing ++ added) obs :=
    fun obs ⟨c, hc, hcounters⟩ =>
      ⟨c, List.mem_append_right _ hc, hcounters, (h.added_current c hc).2.2⟩
  rw [← h.closing_none hcontested]
  constructor
  · intro hall
    cases hcl : closing with
    | none => exact Or.inr rfl
    | some replacement =>
      refine Or.inl fun obs hobs hrecorded => ?_
      subst hcl
      obtain ⟨c, hc, hcounters, hopen⟩ := hall obs hobs
      rcases List.mem_append.mp hc with hc | hc
      · -- an old claim of the group: it has been closed
        exact not_current_of_mem_close (h.closing_new _ rfl) hc hcounters.1.1
          (hcounters.key_eq.trans (hkey obs hobs)) hopen
      · -- a new claim: it records an observation that was not recorded
        obtain ⟨-, o, ho, hcounters', hnot⟩ := h.added_counters c hc hcounters.2.2.2.1
        have hstr : o.id.str = obs.id.str := by
          have hlist := hcounters'.2.2.2.2.symm.trans hcounters.2.2.2.2
          simpa using hlist
        obtain rfl := hids o ho obs hobs (Uuid.str_injective hstr)
        exact hnot hrecorded
  · rintro (hnone | rfl) obs hobs
    · rcases h.recorded hcontested obs hobs with hr | hr
      · exact absurd hr (hnone obs hobs)
      · exact hnew obs hr
    · rcases h.recorded hcontested obs hobs with hr | hr
      · obtain ⟨c, hc, hcounters⟩ := hcurrent obs hobs hr
        exact ⟨c, List.mem_append_left _ hc, hcounters⟩
      · exact hnew obs hr

/-! ## One run -/

section Run

variable {db db' : Db} {created : ℕ}

/-- The observations of a run's group are those of the person with its key. -/
lemma key_of_mem_group {kg : GroupKey × List Observation}
    (hkg : kg ∈ groupBy Observation.key (observationsOf personId db)) {obs : Observation}
    (hobs : obs ∈ kg.2) : obs.key = kg.1 :=
  ((mem_groupOf personId).mp ((mem_groupBy_observationsOf personId hkg).mp hobs)).2.2

/-- A run touches the claims only; it is a loop over the groups of the person, of which there
are none without observations. -/
lemma reconcileObservations_eq_some
    (h : reconcileObservations personId now draw db = some (db', created)) :
    db' = { db with claims := db'.claims } ∧
      (groupBy Observation.key (observationsOf personId db)).foldlM
        (reconcileGroup personId now draw) ⟨db.claims, 0⟩ = some ⟨db'.claims, created⟩ := by
  simp only [reconcileObservations] at h
  split_ifs at h with hempty
  · obtain ⟨rfl, rfl⟩ := Prod.mk.inj (Option.some.inj h)
    rw [List.isEmpty_iff] at hempty
    exact ⟨rfl, by simp [hempty, groupBy, firstKeys]⟩
  · obtain ⟨st, hfold, hst⟩ := Option.bind_eq_some_iff.mp h
    obtain ⟨rfl, rfl⟩ := Prod.mk.inj (Option.some.inj hst)
    exact ⟨rfl, hfold⟩

/-- A step of a run works on the claims of its own group. -/
lemma keyed_reconcileGroup {kg : GroupKey × List Observation}
    (hkg : kg ∈ groupBy Observation.key (observationsOf personId db)) {st st' : Progress}
    (hstep : reconcileGroup personId now draw st kg = some st') {key : GroupKey}
    (hne : key ≠ kg.1) : keyed key st'.claims = keyed key st.claims := by
  obtain ⟨closing, added, hclaims, heffect⟩ :=
    reconcileGroup_effect (fun _ => key_of_mem_group hkg) hstep
  rw [hclaims, heffect.frame hne]

/-- **A run, group by group.** The run works on the part of a group as if on its own, from some
table that agrees with the initial one on that part. -/
theorem groupEffect_of_reconcile
    (h : reconcileObservations personId now draw db = some (db', created))
    {key : GroupKey} {group : List Observation}
    (hkg : (key, group) ∈ groupBy Observation.key (observationsOf personId db)) :
    ∃ rows closing added, keyed key rows = keyed key db.claims ∧
      GroupEffect personId now key group rows closing added ∧
      keyed key db'.claims = keyed key (closedFor personId key rows closing ++ added) := by
  obtain ⟨t, t', ht, hstep, ht'⟩ := foldlM_view
    (fun k (st : Progress) => keyed k st.claims)
    (fun kg hkg s s' hs k hne => keyed_reconcileGroup hkg hs hne)
    (nodup_keys_groupBy _ _) hkg (reconcileObservations_eq_some h).2
  obtain ⟨closing, added, hclaims, heffect⟩ :=
    reconcileGroup_effect (fun _ => key_of_mem_group hkg) hstep
  exact ⟨t.claims, closing, added, ht, heffect, by rw [← hclaims]; exact ht'⟩

/-- A run leaves the claims of groups without observations alone. -/
lemma keyed_of_reconcile (h : reconcileObservations personId now draw db = some (db', created))
    {key : GroupKey} (hkey : ∀ obs ∈ observationsOf personId db, obs.key ≠ key) :
    keyed key db'.claims = keyed key db.claims := by
  refine foldlM_view_of_notMem (fun k (st : Progress) => keyed k st.claims)
    (fun kg hkg s s' hs k hne => keyed_reconcileGroup hkg hs hne) ?_
    (reconcileObservations_eq_some h).2
  simp only [groupBy, List.map_map, Function.comp_def, List.map_id', mem_firstKeys, not_exists,
    not_and]
  exact hkey

end Run

end Person

end VCBrain
