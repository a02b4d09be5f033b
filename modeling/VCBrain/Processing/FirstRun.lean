import VCBrain.Processing.GroupEffect

set_option relaxedAutoImplicit false
set_option autoImplicit false

/-!
# The first run over a scope

Where the person has no claim yet within an opportunity, the claims a run leaves there are
determined by the groups of observations alone.

## Main results

* `contradicted_firstRun_iff` — a claim is `contradicted` exactly if some group is contested.
* `supported_firstRun_iff` — a current claim is `supported` exactly if some group of several
  observations agrees.
-/

namespace VCBrain

variable {personId : Uuid} {now : Time} {draw : ℕ → Uuid} {db db' : Db} {created : ℕ}

/-- The claims of a group that had none are those its effect adds. -/
private lemma exists_firstRun_iff
    (h : reconcileObservations personId now draw db = some (db', created))
    {key : GroupKey} {group : List Observation}
    (hkg : (key, group) ∈ groupBy Observation.key (observationsOf personId db))
    (hfresh : ∀ claim ∈ db.claims, ¬ InScope personId key.2 claim) :
    ∃ rows closing added, GroupEffect personId now key group rows closing added ∧
      (∀ claim ∈ rows, claim.subjectId = some personId → claim.key ≠ key) ∧
      ∀ claim, claim.subjectId = some personId → claim.key = key →
        (claim ∈ db'.claims ↔ claim ∈ added) := by
  obtain ⟨rows, closing, added, hrows, heffect, hclaims⟩ := groupEffect_of_reconcile h hkg
  have hmem : ∀ {a b : List Claim}, keyed key a = keyed key b → ∀ claim, claim.key = key →
      (claim ∈ a ↔ claim ∈ b) := by
    intro a b hab claim hkey
    have hiff : claim ∈ keyed key a ↔ claim ∈ keyed key b := by rw [hab]
    simpa [keyed, hkey] using hiff
  have hnone : ∀ claim ∈ rows, claim.subjectId = some personId → claim.key ≠ key := by
    intro claim hc hsubject hkey
    exact hfresh claim ((hmem hrows claim hkey).mp hc) ⟨hsubject, congrArg Prod.snd hkey⟩
  refine ⟨rows, closing, added, heffect, hnone, fun claim hsubject hkey => ?_⟩
  rw [hmem hclaims claim hkey, List.mem_append, or_iff_right]
  intro hc
  obtain ⟨previous, hprev, s, e, rfl⟩ := mem_closedFor hc
  exact hnone previous hprev hsubject hkey

/-- A group that had no claims gets a `contradicted` one exactly if it is contested. -/
lemma contradicted_firstRun_group_iff
    (h : reconcileObservations personId now draw db = some (db', created))
    {key : GroupKey} {group : List Observation}
    (hkg : (key, group) ∈ groupBy Observation.key (observationsOf personId db))
    (hfresh : ∀ claim ∈ db.claims, ¬ InScope personId key.2 claim) :
    (∃ claim ∈ db'.claims, claim.subjectId = some personId ∧ claim.key = key ∧
      claim.status = .contradicted) ↔ Contested group := by
  obtain ⟨rows, closing, added, heffect, hnone, hadded⟩ := exists_firstRun_iff h hkg hfresh
  constructor
  · rintro ⟨claim, hc, hsubject, hkey, hstatus⟩
    exact (heffect.added_counters claim ((hadded claim hsubject hkey).mp hc) hstatus).1
  · intro hcontested
    obtain ⟨obs, hobs, -⟩ := contested_iff.mp hcontested
    have hkey : obs.key = key := key_of_mem_group hkg hobs
    rcases heffect.recorded hcontested obs hobs with ⟨claim, hc, hcounters⟩ |
      ⟨claim, hc, hcounters⟩
    · exact absurd (hcounters.key_eq.trans hkey) (hnone claim hc hcounters.1.1)
    · have hclaim := hcounters.key_eq.trans hkey
      exact ⟨claim, (hadded claim hcounters.1.1 hclaim).mpr hc, hcounters.1.1, hclaim,
        hcounters.2.2.2.1⟩

/-- A group that had no claims gets a current `supported` one exactly if it consists of several
observations that agree. -/
lemma supported_firstRun_group_iff
    (h : reconcileObservations personId now draw db = some (db', created))
    {key : GroupKey} {group : List Observation}
    (hkg : (key, group) ∈ groupBy Observation.key (observationsOf personId db))
    (hfresh : ∀ claim ∈ db.claims, ¬ InScope personId key.2 claim) :
    (∃ claim ∈ db'.claims, claim.subjectId = some personId ∧ claim.key = key ∧
      claim.status = .supported ∧ claim.supersessionId = none) ↔
      2 ≤ group.length ∧ ¬ Contested group := by
  obtain ⟨rows, closing, added, heffect, hnone, hadded⟩ := exists_firstRun_iff h hkg hfresh
  constructor
  · rintro ⟨claim, hc, hsubject, hkey, hstatus, -⟩
    exact heffect.added_supported claim ((hadded claim hsubject hkey).mp hc) hstatus
  · rintro ⟨hlength, hnot⟩
    rcases heffect.supported hlength hnot with ⟨claim, hc, hsubject, hkey, -⟩ |
      ⟨claim, hc, hsubject, hkey, hstatus⟩
    · exact absurd hkey (hnone claim hc hsubject)
    · exact ⟨claim, (hadded claim hsubject hkey).mpr hc, hsubject, hkey, hstatus,
        (heffect.added_current claim hc).2.2⟩

variable {opportunityId : Option Uuid}

/-- A claim in a scope that had none belongs to a group of the run. -/
lemma exists_group_of_firstRun
    (h : reconcileObservations personId now draw db = some (db', created))
    (hfresh : ∀ claim ∈ db.claims, ¬ InScope personId opportunityId claim)
    {claim : Claim} (hc : claim ∈ db'.claims) (hscope : InScope personId opportunityId claim) :
    ∃ kg ∈ groupBy Observation.key (observationsOf personId db), claim.key = kg.1 := by
  by_contra hnone
  push Not at hnone
  have hkeyed : keyed claim.key db'.claims = keyed claim.key db.claims := by
    refine keyed_of_reconcile h fun obs hobs heq => ?_
    exact hnone _ (mem_groupBy.mpr ⟨⟨obs, hobs, heq⟩, rfl⟩) rfl
  have hold : claim ∈ keyed claim.key db.claims := by
    rw [← hkeyed]
    simp [keyed, hc]
  exact hfresh claim (List.mem_of_mem_filter hold) hscope

/-- **The first run over a scope** contradicts a claim exactly if a group of it is contested. -/
theorem contradicted_firstRun_iff
    (h : reconcileObservations personId now draw db = some (db', created))
    (hfresh : ∀ claim ∈ db.claims, ¬ InScope personId opportunityId claim) :
    (∃ claim ∈ db'.claims, InScope personId opportunityId claim ∧ claim.status = .contradicted) ↔
      ∃ kg ∈ groupBy Observation.key (observationsOf personId db),
        kg.1.2 = opportunityId ∧ Contested kg.2 := by
  constructor
  · rintro ⟨claim, hc, hscope, hstatus⟩
    obtain ⟨⟨key, group⟩, hkg, hkey⟩ := exists_group_of_firstRun h hfresh hc hscope
    obtain rfl : key.2 = opportunityId := (congrArg Prod.snd hkey).symm.trans hscope.2
    exact ⟨_, hkg, rfl, (contradicted_firstRun_group_iff h hkg hfresh).mp
      ⟨claim, hc, hscope.1, hkey, hstatus⟩⟩
  · rintro ⟨⟨key, group⟩, hkg, rfl, hcontested⟩
    obtain ⟨claim, hc, hsubject, hkey, hstatus⟩ :=
      (contradicted_firstRun_group_iff h hkg hfresh).mpr hcontested
    exact ⟨claim, hc, ⟨hsubject, congrArg Prod.snd hkey⟩, hstatus⟩

/-- **The first run over a scope** supports a claim exactly if several observations of a group
of it agree. -/
theorem supported_firstRun_iff
    (h : reconcileObservations personId now draw db = some (db', created))
    (hfresh : ∀ claim ∈ db.claims, ¬ InScope personId opportunityId claim) :
    (∃ claim ∈ db'.claims, InScope personId opportunityId claim ∧ claim.status = .supported ∧
      claim.supersessionId = none) ↔
      ∃ kg ∈ groupBy Observation.key (observationsOf personId db),
        kg.1.2 = opportunityId ∧ 2 ≤ kg.2.length ∧ ¬ Contested kg.2 := by
  constructor
  · rintro ⟨claim, hc, hscope, hstatus⟩
    obtain ⟨⟨key, group⟩, hkg, hkey⟩ := exists_group_of_firstRun h hfresh hc hscope
    obtain rfl : key.2 = opportunityId := (congrArg Prod.snd hkey).symm.trans hscope.2
    exact ⟨_, hkg, rfl, (supported_firstRun_group_iff h hkg hfresh).mp
      ⟨claim, hc, hscope.1, hkey, hstatus⟩⟩
  · rintro ⟨⟨key, group⟩, hkg, rfl, hagree⟩
    obtain ⟨claim, hc, hsubject, hkey, hstatus⟩ :=
      (supported_firstRun_group_iff h hkg hfresh).mpr hagree
    exact ⟨claim, hc, ⟨hsubject, congrArg Prod.snd hkey⟩, hstatus⟩

end VCBrain
