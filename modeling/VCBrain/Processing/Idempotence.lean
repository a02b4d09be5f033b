import VCBrain.Processing.CounterEvidence
import VCBrain.Processing.Dedup
import VCBrain.Processing.GroupOutcome

set_option relaxedAutoImplicit false
set_option autoImplicit false

/-!
# Processing the same evidence again

`process_candidate_job` reconciles the observations of a person and then deduplicates the claims.
Both passes find the outcome of the first time.

## Main definitions

* `Settled` — every output of a group is in the table, current or superseded.

## Main results

* `settled_of_reconcile` — a run settles every group.
* `reconcile_of_settled` — a run over settled groups changes nothing.
* `pipeline_idempotent` — the two passes change nothing the second time.

## Design

Matching does not ask whether a claim is current, so that a claim that deduplication supersedes is
found again. The second clock only changes which of the outputs of a group are looked for first.
-/

namespace VCBrain

section Person

variable {personId : Uuid} {now : Time} {draw : ℕ → Uuid} {key : GroupKey}
  {group : List Observation} {rows rows' : List Claim}

/-! ## Settled groups -/

/-- Every output that a run may look for in a group is in the table. -/
structure Settled (personId : Uuid) (key : GroupKey) (group : List Observation)
    (rows : List Claim) : Prop where
  single : ∀ obs, group = [obs] →
    Found personId key obs.objectValue .unverified [obs.id.str] rows
  agreed : 2 ≤ group.length → ¬ Contested group → ∀ obs ∈ group,
    Found personId key obs.objectValue .supported (group.map fun o => o.id.str) rows
  contested : Contested group → ∀ obs ∈ group,
    Found personId key obs.objectValue .contradicted [obs.id.str] rows

/-- Finding depends on the value up to whitespace around it. -/
lemma Found.of_strip_eq {value value' : Str} {status : ClaimStatus} {ids : List Str}
    (h : Found personId key value status ids rows) (hvalue : value.strip = value'.strip) :
    Found personId key value' status ids rows := by
  obtain ⟨claim, hmem, hscope, hpred, hstrip, hrest⟩ := h
  exact ⟨claim, hmem, hscope, hpred, hstrip.trans hvalue, hrest⟩

/-- Matching does not ask whether a claim is current. -/
lemma Found.map {update : Claim → Claim} {value : Str} {status : ClaimStatus} {ids : List Str}
    (h : Found personId key value status ids rows)
    (hupdate : ∀ row ∈ rows, update row = row ∨ ∃ a, update row = row.supersededBy a) :
    Found personId key value status ids (rows.map update) := by
  obtain ⟨claim, hmem, hscope, hmatches⟩ := h
  refine ⟨update claim, List.mem_map_of_mem hmem, ?_⟩
  rcases hupdate claim hmem with heq | ⟨a, heq⟩
  · rw [heq]
    exact ⟨hscope, hmatches⟩
  · rw [heq]
    exact ⟨hscope, hmatches⟩

/-- A single observation contests nothing. -/
lemma not_contested_singleton (obs : Observation) : ¬ Contested [obs] := by
  simp [Contested, distinctValues]

/-- **A group is settled** once it has been gone through. -/
lemma GroupOutcome.settled (hkey : ∀ obs ∈ group, obs.key = key)
    (h : GroupOutcome personId now key group rows rows') : Settled personId key group rows' := by
  have hone : ∀ {obs : Observation} {rows : List Claim},
      Found personId key obs.objectValue .unverified [obs.id.str] rows →
        Settled personId key [obs] rows := by
    intro obs rows hfound
    refine ⟨fun o ho => ?_, fun hlength => absurd hlength (by simp),
      fun hc => absurd hc (not_contested_singleton obs)⟩
    obtain rfl := List.singleton_injective ho
    exact hfound
  have hmany : ∀ {strongest : Observation} {rows : List Claim}, 2 ≤ group.length →
      ¬ Contested group → strongest ∈ group →
      Found personId key strongest.objectValue .supported (group.map fun o => o.id.str) rows →
        Settled personId key group rows := by
    intro strongest rows hlength hagree hstrongest hfound
    refine ⟨fun o ho => ?_, fun _ _ obs hobs => hfound.of_strip_eq ?_,
      fun hc => absurd hc hagree⟩
    · rw [ho] at hlength
      exact absurd hlength (by simp)
    · by_contra hne
      exact hagree (contested_iff.mpr ⟨strongest, hstrongest, obs, hobs, hne⟩)
  have hall : ∀ {rows : List Claim}, Contested group →
      (∀ obs ∈ group, Recorded personId rows obs) → Settled personId key group rows := by
    intro rows hcontested hrecorded
    refine ⟨fun o ho => ?_, fun _ hagree => absurd hcontested hagree, fun _ obs hobs => ?_⟩
    · rw [ho] at hcontested
      exact absurd hcontested (not_contested_singleton o)
    · obtain rfl := hkey obs hobs
      exact hrecorded obs hobs
  cases h with
  | singleFound hfound => exact hone hfound
  | singleAdded => exact hone ⟨_, List.mem_append_right _ (List.mem_singleton_self _),
      ⟨rfl, rfl⟩, rfl, rfl, rfl, rfl⟩
  | agreedFound hlength hagree hstrongest hfound =>
    exact hmany hlength hagree (List.argmax_mem hstrongest) hfound
  | agreedAdded hlength hagree hstrongest =>
    exact hmany hlength hagree (List.argmax_mem hstrongest)
      ⟨_, List.mem_append_right _ (List.mem_singleton_self _), ⟨rfl, rfl⟩, rfl, rfl, rfl, rfl⟩
  | winnerFound hcontested _ _ _ hrecorded => exact hall hcontested hrecorded
  | winnerAdded hcontested _ _ _ _ hrecorded =>
    refine hall hcontested fun obs hobs => ?_
    have hr := hrecorded obs hobs
    rw [recorded_append] at hr ⊢
    rwa [recorded_closedFor]

/-- Only the claims of the group matter. -/
lemma Settled.of_keyed (h : Settled personId key group rows)
    (hkeyed : keyed key rows' = keyed key rows) : Settled personId key group rows' := by
  have hfound : ∀ {value : Str} {status : ClaimStatus} {ids : List Str},
      Found personId key value status ids rows → Found personId key value status ids rows' := by
    intro value status ids hf
    rwa [← found_keyed, hkeyed, found_keyed]
  exact ⟨fun obs hobs => hfound (h.single obs hobs),
    fun hlength hagree obs hobs => hfound (h.agreed hlength hagree obs hobs),
    fun hc obs hobs => hfound (h.contested hc obs hobs)⟩

/-- Superseding claims unsettles no group. -/
lemma Settled.map (h : Settled personId key group rows) {update : Claim → Claim}
    (hupdate : ∀ row ∈ rows, update row = row ∨ ∃ a, update row = row.supersededBy a) :
    Settled personId key group (rows.map update) :=
  ⟨fun obs hobs => (h.single obs hobs).map hupdate,
    fun hlength hagree obs hobs => (h.agreed hlength hagree obs hobs).map hupdate,
    fun hc obs hobs => (h.contested hc obs hobs).map hupdate⟩

/-- A settled group is left as it is, at any time. -/
lemma reconcileGroup_of_settled {st : Progress} (hkey : ∀ obs ∈ group, obs.key = key)
    (h : Settled personId key group st.claims) :
    reconcileGroup personId now draw st (key, group) = some st := by
  unfold reconcileGroup
  split
  · next obs heq =>
    have hfound := h.single obs heq
    rw [reconcileSingle, if_pos (isSome_findMatchingClaim_iff.mpr hfound)]
  · next hmany =>
    split_ifs with hone
    · unfold reconcileUnanimous
      split
      · rfl
      · next strongest hstrongest =>
        have hmem : strongest ∈ group := List.argmax_mem hstrongest
        have hagree : ¬ Contested group := by
          simp only at hone
          simp [Contested, hone]
        have hlength : 2 ≤ group.length := by
          rcases group with _ | ⟨a, _ | ⟨b, rest⟩⟩
          · cases hmem
          · exact absurd rfl (hmany a)
          · simp
        exact if_pos (isSome_findMatchingClaim_iff.mpr (h.agreed hlength hagree strongest hmem))
    · unfold reconcileContradiction
      split
      · rfl
      · next winner losers heq =>
        have hrank : ∀ obs ∈ winner :: losers, obs ∈ group := fun obs hobs =>
          (rankByStrength_perm now group).mem_iff.mp (heq ▸ hobs)
        have hcontested : Contested group := by
          have hpos : 0 < (distinctValues group).length :=
            List.length_pos_of_mem (a := winner.objectValue.strip)
              (by simpa [distinctValues] using ⟨winner, hrank winner (List.mem_cons_self ..), rfl⟩)
          simp only at hone
          simp only [Contested]
          omega
        have hfound : ∀ obs ∈ winner :: losers, (findMatchingClaim
            (scopedClaims personId key.2 st.claims) key.1 obs.objectValue .contradicted
              [obs.id.str]).isSome = true := fun obs hobs =>
          isSome_findMatchingClaim_iff.mpr (h.contested hcontested obs (hrank obs hobs))
        have hwinner : recordWinner personId now draw key winner st = some st :=
          if_pos (hfound winner (List.mem_cons_self ..))
        rw [hwinner]
        exact foldlM_eq_self fun obs hobs => if_pos (hfound obs (List.mem_cons_of_mem _ hobs))

/-! ## One run after another -/

variable {db db' : Db} {created : ℕ}

/-- A run settles every group. -/
lemma settled_of_reconcile (h : reconcileObservations personId now draw db = some (db', created))
    {kg : GroupKey × List Observation}
    (hkg : kg ∈ groupBy Observation.key (observationsOf personId db)) :
    Settled personId kg.1 kg.2 db'.claims := by
  obtain ⟨key, group⟩ := kg
  obtain ⟨⟨obs, hobs, hobsKey⟩, rfl⟩ := mem_groupBy.mp hkg
  have hne : groupInOrder personId db key ≠ [] :=
    List.ne_nil_of_mem (List.mem_filter.mpr ⟨hobs, decide_eq_true hobsKey⟩)
  obtain ⟨rows, rows', -, hout, hrows'⟩ := exists_outcome_of_reconcile h hne
  exact (hout.settled fun _ => key_of_mem_group hkg).of_keyed hrows'

/-- A run over settled groups changes nothing, at any time. -/
lemma reconcile_of_settled (h : ∀ kg ∈ groupBy Observation.key (observationsOf personId db),
    Settled personId kg.1 kg.2 db.claims) :
    reconcileObservations personId now draw db = some (db, 0) := by
  have hloop : (groupBy Observation.key (observationsOf personId db)).foldlM
      (reconcileGroup personId now draw) ⟨db.claims, 0⟩ = some ⟨db.claims, 0⟩ :=
    foldlM_eq_self fun kg hkg =>
      reconcileGroup_of_settled (fun _ => key_of_mem_group hkg) (h kg hkg)
  unfold reconcileObservations
  dsimp only
  split_ifs
  · rfl
  · rw [hloop]
    rfl

/-! ## One pass after another -/

section Dedup

variable {F : Type} {fl : Floats F} {embedding : Uuid → Option (List F)} {tie tie' : Uuid → ℕ}

/-- A current claim after a pass was current before, and was not superseded. -/
lemma of_mem_currentClaims_deduplicated (hids : KeyUnique Claim.id db.claims) {count : ℕ}
    (h : deduplicateClaims fl embedding tie personId db = some (db', count)) {claim : Claim}
    (hc : claim ∈ currentClaims tie' personId db') :
    claim ∈ currentClaims tie personId db ∧
      ∀ a, (claim, a) ∉ superseded fl embedding tie personId db := by
  obtain ⟨update, rfl, hpairs, hupdate⟩ := deduplicateClaims_eq_some hids h
  obtain ⟨hmem, hsubject, hopen⟩ := mem_currentClaims.mp hc
  obtain ⟨b, hb, rfl⟩ := List.mem_map.mp hmem
  rcases hupdate b hb with heq | ⟨a, -, heq⟩
  · rw [heq] at hsubject hopen ⊢
    refine ⟨mem_currentClaims.mpr ⟨hb, hsubject, hopen⟩, fun a hpair => ?_⟩
    rw [heq.symm.trans (hpairs a b hpair)] at hopen
    cases hopen
  · rw [heq] at hopen
    cases hopen

/-- **A second pass** supersedes nothing, in any order of claims of one time.

**Proof sketch.** Of the claims that are left none is a duplicate of a later one
(`Leaders.not_similar`), nor of an earlier one, as the relation is symmetric. -/
lemma deduplicateClaims_twice (hids : KeyUnique Claim.id db.claims) {count : ℕ}
    (h : deduplicateClaims fl embedding tie personId db = some (db', count)) :
    deduplicateClaims fl embedding tie' personId db' = some (db', 0) := by
  have hids' := keyUnique_deduplicated hids h
  have hobservations : db'.observations = db.observations := by
    obtain ⟨update, rfl, -⟩ := deduplicateClaims_eq_some hids h
    rfl
  have hsame : claimEmbedding embedding db' = claimEmbedding embedding db := by
    funext claim
    unfold claimEmbedding
    rw [hobservations]
  have hnodup := (nodup_currentClaims tie' personId hids').of_map
  have hleft := fun claim (hc : claim ∈ currentClaims tie' personId db') =>
    of_mem_currentClaims_deduplicated hids h hc
  refine deduplicateClaims_of_superseded hids' ?_ ?_
  · rw [hsame]
    rcases exists_claimEmbedding h with hfew | hall
    · refine Or.inl (lt_of_le_of_lt ?_ hfew)
      exact (List.subperm_of_subset hnodup fun claim hc => (hleft claim hc).1).length_le
    · exact Or.inr fun claim hc => hall claim (hleft claim hc).1
  · refine Leaders.absorbed_eq_nil (hnodup.imp_of_mem fun {a b} ha hb hne => ?_)
    have hduplicate : Duplicate fl (embeddingOf embedding db') a b =
        Duplicate fl (embeddingOf embedding db) a b := by
      unfold embeddingOf
      rw [hsame]
    rw [hduplicate]
    obtain ⟨ha, ha'⟩ := hleft a ha
    obtain ⟨hb, hb'⟩ := hleft b hb
    rcases Leaders.pair_sublist_or ha hb hne with hsub | hsub
    · exact Leaders.not_similar hsub ha' hb'
    · rw [duplicate_comm]
      exact Leaders.not_similar hsub hb' ha'

/-- **Processing again.** After the two passes for a person, from any claims, the two passes change
nothing: no claim is created or superseded, and none is changed. The second time may be later, and
may take claims of one time in another order.

**Proof sketch.** The first run settles every group (`settled_of_reconcile`). Deduplication keeps
the claims under which they are found, so that the second run changes nothing
(`reconcile_of_settled`), nor does the second deduplication (`deduplicateClaims_twice`). -/
theorem pipeline_idempotent {db db₁ db₂ : Db} {created count : ℕ}
    (hids : KeyUnique Claim.id db.claims)
    (hreconcile : reconcileObservations personId now draw db = some (db₁, created))
    (hdeduplicate : deduplicateClaims fl embedding tie personId db₁ = some (db₂, count)) :
    ∀ (now' : Time) (draw' : ℕ → Uuid) (tie' : Uuid → ℕ),
      reconcileObservations personId now' draw' db₂ = some (db₂, 0) ∧
        deduplicateClaims fl embedding tie' personId db₂ = some (db₂, 0) := by
  intro now' draw' tie'
  have hids₁ : KeyUnique Claim.id db₁.claims := entering_keyUnique.reconcile hreconcile hids
  refine ⟨reconcile_of_settled fun kg hkg => ?_, deduplicateClaims_twice hids₁ hdeduplicate⟩
  have hobservations : db₁.observations = db.observations := by
    rw [(reconcileObservations_eq_some hreconcile).1]
  obtain ⟨update, rfl, -, hupdate⟩ := deduplicateClaims_eq_some hids₁ hdeduplicate
  have hgroups : observationsOf personId { db₁ with claims := db₁.claims.map update } =
      observationsOf personId db := by
    unfold observationsOf
    rw [hobservations]
  rw [hgroups] at hkg
  refine (settled_of_reconcile hreconcile hkg).map fun row hrow => ?_
  exact (hupdate row hrow).imp_right fun ⟨a, _, heq⟩ => ⟨a, heq⟩

end Dedup

/-- Two observations that disagree and have one embedding. -/
private def similarDb : Db where
  observations := [Reconciling.roleObservation 1 "CEO" 1, Reconciling.roleObservation 2 "Chief" 1]

/-- The two claims of a contradiction are duplicates: the second run finds the superseded one. -/
theorem pipeline_idempotent_similar : ∃ db₁ db₂,
    reconcileObservations 1 0 (fun n => Fin.ofNat _ (10 + n)) similarDb = some (db₁, 2) ∧
    deduplicateClaims rationalFloats (fun _ => some [3, 4]) (fun _ => 0) 1 db₁ = some (db₂, 1) ∧
    reconcileObservations 1 1 (fun n => Fin.ofNat _ (20 + n)) db₂ = some (db₂, 0) ∧
    deduplicateClaims rationalFloats (fun _ => some [3, 4]) (fun id => id) 1 db₂ =
      some (db₂, 0) := by
  have hrun : ((reconcileObservations 1 0 (fun n => Fin.ofNat _ (10 + n)) similarDb).bind fun r =>
      (deduplicateClaims rationalFloats (fun _ => some [3, 4]) (fun _ => 0) 1 r.1).map fun s =>
        (r.2, s.2)) = some (2, 1) := by
    decide +kernel
  obtain ⟨⟨db₁, created⟩, hreconcile, hrest⟩ := Option.bind_eq_some_iff.mp hrun
  obtain ⟨⟨db₂, count⟩, hdeduplicate, hcounts⟩ := Option.map_eq_some_iff.mp hrest
  obtain ⟨rfl, rfl⟩ := Prod.mk.inj hcounts
  have hids : KeyUnique Claim.id similarDb.claims := List.nodup_nil
  exact ⟨db₁, db₂, hreconcile, hdeduplicate,
    pipeline_idempotent hids hreconcile hdeduplicate 1 _ _⟩

end Person

end VCBrain
