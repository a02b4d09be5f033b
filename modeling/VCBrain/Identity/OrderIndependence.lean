import VCBrain.Foundation.Clustering
import VCBrain.Identity.Groups
import VCBrain.Identity.Resolve

set_option relaxedAutoImplicit false
set_option autoImplicit false

/-!
# The order of the candidate pairs

A run visits the candidate pairs in no fixed order, and every merge changes what the later visits
see. This file refines a run to the linking of representatives and derives when the resulting
groups do not depend on the order.

## Main definitions

* `SameGroup` — two persons have a common canonical person.
* `Separable` — the evidence separates the persons into groups, however it is pooled.
* `Represents` — the representatives a database stands for.

## Main results

* `visit_of_visited` — a visit of the run is a visit of the abstract clustering.
* `sameGroup_iff_of_resolve` — the groups after a run over separable evidence.
* `resolve_order_independent` — two runs in different orders leave the same groups.
-/

namespace VCBrain

/-- Two persons have a common canonical person. -/
def SameGroup (db : Db) (a b : Uuid) : Prop :=
  ∃ r person, db.person? r = some person ∧ person.canonical = true ∧
    Leads db.supersededBy a r ∧ Leads db.supersededBy b r

/-- The observations of a set of persons, in storage order. -/
def Db.evidence (db : Db) (persons : Uuid → Bool) : List ObservationDict :=
  (db.observations.filter fun o => o.subjectId.any persons).map fun o =>
    ⟨o.predicate, o.objectValue⟩

/-- Two observations give a common blocking key. -/
def SharesKey (env : MatchEnv) (obsA obsB : List ObservationDict) : Prop :=
  ∃ o ∈ obsA, ∃ o' ∈ obsB, ∃ keys keys', observationKeys env o = some keys ∧
    observationKeys env o' = some keys' ∧ ∃ key ∈ keys, key ∈ keys'

/-- The evidence separates the persons into groups: two persons of a group share a blocking key,
and the pooled evidence of two disjoint sets of persons, each within one group, is to be merged
exactly if it is one group, in whatever order it is returned. -/
structure Separable (env : MatchEnv) (db : Db) (same : Setoid Uuid) : Prop where
  keyed : ∀ a b, a ≠ b → same a b → (db.person? a).isSome ∧ (db.person? b).isSome ∧
    SharesKey env (db.observationsOf a) (db.observationsOf b)
  decided : ∀ (S T : Uuid → Bool) a b, S a → T b → (db.person? a).isSome → (db.person? b).isSome →
    (∀ x, S x → same a x) → (∀ x, T x → same b x) → (∀ x, ¬ (S x ∧ T x)) →
    ∀ obsA obsB confidence reasons, obsA.Perm (db.evidence S) → obsB.Perm (db.evidence T) →
      matchConfidence env obsA obsB = some (confidence, reasons) →
      (shouldAutoMerge confidence autoMergeThreshold = true ↔ same a b)

/-! ## A run as clustering -/

/-- The database `db`, reached from `db₀`, has merged every person into its representative. -/
structure Represents (db₀ db : Db) (ρ : Uuid → Uuid) : Prop where
  persons : ∀ a, (db.person? a).isSome = (db₀.person? a).isSome
  leads : ∀ a, Leads db.supersededBy a (ρ a)
  root : ∀ a, db.supersededBy (ρ a) = none
  canonicalRoots : CanonicalRoots db
  observations : db.observations.map (fun o => (o.subjectId, o.predicate, o.objectValue)) =
    db₀.observations.map fun o => (o.subjectId.map ρ, o.predicate, o.objectValue)

section Refinement

variable {env : MatchEnv} {s : Schedule} {same : Setoid Uuid} {db₀ db db' : Db}
  {ρ : Uuid → Uuid} {pair : Uuid × Uuid}

/-- Unmerged persons represent themselves. -/
lemma Unmerged.represents (h : Unmerged db) : Represents db db id where
  persons _ := rfl
  leads := Leads.refl
  root := h.supersededBy_eq_none
  canonicalRoots := h.canonicalRoots
  observations := by simp

namespace Represents

lemma settled (h : Represents db₀ db ρ) : Settled ρ := fun x =>
  ((h.leads (ρ x)).eq_of_root (h.root x)).symm

/-- The representatives are the canonical persons. -/
lemma canonical_iff (h : Represents db₀ db ρ) {a : Uuid} {person : Person}
    (ha : db.person? a = some person) : person.canonical = true ↔ ρ a = a := by
  rw [h.canonicalRoots a person ha]
  have hnext : db.supersededBy a = person.supersededById := by simp [Db.supersededBy, ha]
  rw [← hnext]
  constructor
  · intro hroot
    exact ((h.leads a).eq_of_root hroot).symm
  · intro hself
    exact hself ▸ h.root a

/-- What a person has collected are the observations of those it represents. -/
lemma observationsOf (h : Represents db₀ db ρ) (a : Uuid) :
    db.observationsOf a = db₀.evidence fun x => ρ x = a := by
  have hleft : db.observationsOf a =
      ((db.observations.map fun o => (o.subjectId, o.predicate, o.objectValue)).filter
        fun o => o.1 = some a).map fun o => ⟨o.2.1, o.2.2⟩ := by
    simp [Db.observationsOf, List.filter_map, Function.comp_def]
  have hright : (db₀.evidence fun x => ρ x = a) =
      ((db₀.observations.map fun o => (o.subjectId.map ρ, o.predicate, o.objectValue)).filter
        fun o => o.1 = some a).map fun o => ⟨o.2.1, o.2.2⟩ := by
    have hmember : ∀ subject : Option Uuid,
        subject.any (fun x => decide (ρ x = a)) = decide (subject.map ρ = some a) := by
      intro subject
      cases subject <;> simp
    simp [Db.evidence, List.filter_map, Function.comp_def, hmember]
  rw [hleft, hright, h.observations]

/-- Merging one representative into another links it. -/
lemma merge (h : Represents db₀ db ρ) {c d : Uuid} {canonical duplicate : Person} {now : Time}
    (hcd : c ≠ d) (hc : db.person? c = some canonical) (hd : db.person? d = some duplicate)
    (hcc : canonical.canonical = true) (hdc : duplicate.canonical = true)
    (hmerge : mergePersons c d now db = .ok db') : Represents db₀ db' (link ρ c d) := by
  have hroots' : CanonicalRoots db' := h.canonicalRoots.merge (e := ⟨c, d, now⟩)
    (by simp [mergeStep, hmerge, Except.toOption])
  obtain ⟨canonical', duplicate', hc', hd', ⟨hdone, -⟩ | ⟨-, rfl⟩⟩ := mergePersons_eq_ok hmerge
  · rw [hd] at hd'
    cases hd'
    rw [hdone] at hdc
    cases hdc
  have hnext : (mergedDb c d canonical' duplicate' now db).supersededBy =
      Function.update db.supersededBy d (some c) := supersededBy_mergedDb hc' hd'
  have hdroot : db.supersededBy d = none := by
    rw [← (h.canonical_iff hd).mp hdc]
    exact h.root d
  have hcself : ρ c = c := (h.canonical_iff hc).mp hcc
  refine ⟨fun a => ?_, fun a => ?_, fun a => ?_, hroots', ?_⟩
  · rw [person?_mergedDb, Option.isSome_map, h.persons]
  · rw [hnext]
    unfold link
    split_ifs with ha
    · have hlink : Function.update db.supersededBy d (some c) d = some c :=
        Function.update_self ..
      exact ((ha ▸ h.leads a).update hdroot _).trans (Leads.head hlink (Leads.refl c))
    · exact (h.leads a).update hdroot _
  · rw [hnext]
    unfold link
    split_ifs with ha
    · rw [Function.update_of_ne hcd, ← hcself]
      exact h.root c
    · rw [Function.update_of_ne ha]
      exact h.root a
  · have hmove : ∀ subject : Option Uuid,
        reassign? c d (subject.map ρ) = subject.map (link ρ c d) := by
      intro subject
      cases subject with
      | none => rfl
      | some x =>
        by_cases hx : ρ x = d
        · simp [reassign?, link, hx]
        · simp [reassign?, link, hx]
    calc _ = (db.observations.map fun o => (o.subjectId, o.predicate, o.objectValue)).map
          fun o => (reassign? c d o.1, o.2) := by simp [mergedDb, Function.comp_def]
      _ = _ := by
          rw [h.observations, List.map_map]
          simp only [Function.comp_def, hmove]

end Represents

/-- What the run decides about two representatives is whether their groups are one. -/
lemma Separable.decides_iff (hsep : Separable env db₀ same) (h : Represents db₀ db ρ)
    (hρ : ∀ x, same x (ρ x)) {a b : Uuid} (hab : a ≠ b) (ha : ρ a = a) (hb : ρ b = b)
    (hpa : (db.person? a).isSome) (hpb : (db.person? b).isSome) {merge : Bool}
    (hdecides : Decides env s db (a, b) merge) : merge = true ↔ same a b := by
  obtain ⟨confidence, reasons, hmatch, rfl⟩ := hdecides
  refine hsep.decided (fun x => ρ x = a) (fun x => ρ x = b) a b (by simpa using ha)
    (by simpa using hb) (h.persons a ▸ hpa) (h.persons b ▸ hpb) ?_ ?_ ?_ _ _ confidence reasons
    (h.observationsOf a ▸ s.fetch_perm _ _) (h.observationsOf b ▸ s.fetch_perm _ _) hmatch
  · intro x hx
    have hxa : ρ x = a := by simpa using hx
    exact same.symm (hxa ▸ hρ x)
  · intro x hx
    have hxb : ρ x = b := by simpa using hx
    exact same.symm (hxb ▸ hρ x)
  · intro x hx
    have hboth : ρ x = a ∧ ρ x = b := by simpa using hx
    exact hab (hboth.1.symm.trans hboth.2)

/-- **Refinement.** Over separable evidence, a visit of the run is a visit of the clustering of the
representatives. -/
lemma visit_of_visited (hsep : Separable env db₀ same) (h : Represents db₀ db ρ)
    (hρ : ∀ x, same x (ρ x)) (hne : pair.1 ≠ pair.2) (hvisit : Visited env s db pair db') :
    ∃ ρ', Visit same ρ pair ρ' ∧ Represents db₀ db' ρ' := by
  obtain ⟨a, b⟩ := pair
  -- two representatives of one group are persons, so they are compared
  have hpass : (∀ pa pb, db.person? a = some pa → db.person? b = some pb →
      pa.canonical = true → pb.canonical = true → Decides env s db (a, b) false) →
      Visit same ρ (a, b) ρ := by
    intro hbelow
    refine Visit.pass fun ha hb hab hsame => ?_
    obtain ⟨hpa, hpb, -⟩ := hsep.keyed a b hab hsame
    rw [← h.persons] at hpa hpb
    obtain ⟨pa, hpa'⟩ := Option.isSome_iff_exists.mp hpa
    obtain ⟨pb, hpb'⟩ := Option.isSome_iff_exists.mp hpb
    have hfalse := hbelow pa pb hpa' hpb' ((h.canonical_iff hpa').mpr ha)
      ((h.canonical_iff hpb').mpr hb)
    exact absurd ((hsep.decides_iff h hρ hab ha hb hpa hpb hfalse).mpr hsame) Bool.false_ne_true
  cases hvisit with
  | pass hbelow => exact ⟨ρ, hpass hbelow, h⟩
  | queue m _ _ hbelow =>
    exact ⟨ρ, hpass fun _ _ _ _ _ _ => hbelow, h.persons, h.leads, h.root, h.canonicalRoots,
      h.observations⟩
  | @merge c d canonical duplicate _ hpair hc hd hcc hdc habove hmerge =>
    have hcself := (h.canonical_iff hc).mp hcc
    have hdself := (h.canonical_iff hd).mp hdc
    have hpc : (db.person? c).isSome := by rw [hc]; rfl
    have hpd : (db.person? d).isSome := by rw [hd]; rfl
    cases hpair with
    | inl heq =>
      cases heq
      have hsame := (hsep.decides_iff h hρ hne hcself hdself hpc hpd habove).mp rfl
      exact ⟨_, Visit.join (Or.inl rfl) hcself hdself hne hsame, h.merge hne hc hd hcc hdc hmerge⟩
    | inr heq =>
      cases heq
      have hsame := (hsep.decides_iff h hρ hne hdself hcself hpd hpc habove).mp rfl
      have hne' := Ne.symm hne
      exact ⟨_, Visit.join (Or.inr rfl) hcself hdself hne' (same.symm hsame),
        h.merge hne' hc hd hcc hdc hmerge⟩

/-- The visits of a run are the visits of a clustering. -/
lemma visits_of_foldlM (hsep : Separable env db₀ same) {pairs : List (Uuid × Uuid)}
    (hne : ∀ pair ∈ pairs, pair.1 ≠ pair.2) {run run' : ResolveRun}
    (h : Represents db₀ run.db ρ) (hρ : ∀ x, same x (ρ x))
    (hrun : pairs.foldlM (visitPair env s) run = some run') :
    ∃ ρ', Visits same ρ pairs ρ' ∧ Represents db₀ run'.db ρ' := by
  induction pairs generalizing run ρ with
  | nil =>
    obtain rfl : run = run' := by simpa using hrun
    exact ⟨ρ, Visits.nil ρ, h⟩
  | cons pair pairs ih =>
    rw [List.foldlM_cons] at hrun
    obtain ⟨run₁, hfirst, hrest⟩ := Option.bind_eq_some_iff.mp hrun
    obtain ⟨ρ₁, hvisit, h₁⟩ := visit_of_visited hsep h hρ (hne pair (List.mem_cons_self ..))
      (visited_of_visitPair hfirst)
    obtain ⟨ρ', hvisits, h'⟩ := ih (fun p hp => hne p (List.mem_cons_of_mem _ hp)) h₁
      (hvisit.same_rep hρ) hrest
    exact ⟨ρ', Visits.cons hvisit hvisits, h'⟩

/-- The groups of a database are the classes of its representatives. -/
lemma Represents.sameGroup_iff (h : Represents db₀ db ρ) {a b : Uuid}
    (hrep : (db.person? (ρ a)).isSome) : SameGroup db a b ↔ ρ a = ρ b := by
  constructor
  · intro hgroup
    obtain ⟨r, person, hr, hcanonical, ha, hb⟩ := hgroup
    have hroot : db.supersededBy r = none := by
      rw [← (h.canonical_iff hr).mp hcanonical]
      exact h.root r
    exact ((h.leads a).root_unique ha (h.root a) hroot).trans
      ((h.leads b).root_unique hb (h.root b) hroot).symm
  · intro heq
    obtain ⟨person, hperson⟩ := Option.isSome_iff_exists.mp hrep
    exact ⟨ρ a, person, hperson, (h.canonical_iff hperson).mpr (h.settled a), h.leads a,
      heq ▸ h.leads b⟩

/-- Two persons of a group are a candidate pair. -/
lemma Separable.mem_visit (hsep : Separable env db same) (hunmerged : Unmerged db)
    {keys : List (Uuid × List Str)}
    (hkeys : personKeys env s db (db.persons.filter fun p => p.canonical) = some keys) {a b : Uuid}
    (hab : a ≠ b) (hsame : same a b) :
    (a, b) ∈ s.visit (candidatePairs keys) ∨ (b, a) ∈ s.visit (candidatePairs keys) := by
  obtain ⟨hpa, hpb, o, ho, o', ho', ks, ks', hks, hks', key, hkey, hkey'⟩ :=
    hsep.keyed a b hab hsame
  have hentry : ∀ x, (db.person? x).isSome → ∀ o ∈ db.observationsOf x, ∀ ks,
      observationKeys env o = some ks → key ∈ ks → ∃ list, (x, list) ∈ keys ∧ key ∈ list := by
    intro x hx o ho ks hks hkey
    obtain ⟨p, hp⟩ := Option.isSome_iff_exists.mp hx
    have hmem := List.mem_of_find?_eq_some hp
    have hid : p.id = x := by simpa using List.find?_some hp
    obtain ⟨entry, hentry, hmap⟩ := exists_of_mapM_eq_some hkeys
      (List.mem_filter.mpr ⟨hmem, (hunmerged p hmem).1⟩)
    obtain ⟨list, hlist, rfl⟩ := Option.map_eq_some_iff.mp hmap
    rw [hid] at hlist hentry
    exact ⟨list, hentry, (mem_blockingKeys hlist).mpr
      ⟨o, (s.fetch_perm _ _).mem_iff.mpr ho, ks, hks, hkey⟩⟩
  have ha := hentry a hpa o ho ks hks hkey
  have hb := hentry b hpb o' ho' ks' hks' hkey'
  rw [(s.visit_perm _).mem_iff, (s.visit_perm _).mem_iff, mem_candidatePairs, mem_candidatePairs]
  cases lt_or_gt_of_ne hab with
  | inl hlt => exact Or.inl ⟨hlt, key, ha, hb⟩
  | inr hgt => exact Or.inr ⟨hgt, key, hb, ha⟩

/-- A run over unmerged persons is a clustering that visits every pair of a group. -/
lemma visits_of_resolve (hsep : Separable env db same) (hunmerged : Unmerged db) {run : ResolveRun}
    (hrun : resolveIdentities env s db = some run) :
    ∃ pairs ρ, Visits same id pairs ρ ∧ Represents db run.db ρ ∧
      ∀ a b, a ≠ b → same a b → (a, b) ∈ pairs ∨ (b, a) ∈ pairs := by
  unfold resolveIdentities at hrun
  dsimp only at hrun
  split_ifs at hrun with hfew
  · -- fewer than two persons, so no two of a group
    cases hrun
    refine ⟨[], id, Visits.nil id, hunmerged.represents, fun a b hab hsame => ?_⟩
    obtain ⟨hpa, hpb, -⟩ := hsep.keyed a b hab hsame
    obtain ⟨pa, hpa⟩ := Option.isSome_iff_exists.mp hpa
    obtain ⟨pb, hpb⟩ := Option.isSome_iff_exists.mp hpb
    have hmem : ∀ {x p}, db.person? x = some p →
        p ∈ (db.persons.filter fun p => p.canonical) ∧ p.id = x := by
      intro x p hp
      have hp' := List.mem_of_find?_eq_some hp
      exact ⟨List.mem_filter.mpr ⟨hp', (hunmerged p hp').1⟩, by simpa using List.find?_some hp⟩
    obtain ⟨hma, hida⟩ := hmem hpa
    obtain ⟨hmb, hidb⟩ := hmem hpb
    have hsingle : pa = pb := by
      cases hlist : db.persons.filter fun p => p.canonical with
      | nil =>
        rw [hlist] at hma
        cases hma
      | cons p rest =>
        rw [hlist, List.length_cons] at hfew
        have hrest : rest = [] := List.length_eq_zero_iff.mp (by omega)
        rw [hlist, hrest, List.mem_singleton] at hma hmb
        exact hma.trans hmb.symm
    exact absurd (hida.symm.trans (hsingle ▸ hidb)) hab
  · obtain ⟨keys, hkeys, hfold⟩ := Option.bind_eq_some_iff.mp hrun
    have hne : ∀ pair ∈ s.visit (candidatePairs keys), pair.1 ≠ pair.2 := by
      intro pair hpair
      rw [(s.visit_perm _).mem_iff] at hpair
      exact (mem_candidatePairs.mp hpair).1.ne
    obtain ⟨ρ, hvisits, hrep⟩ := visits_of_foldlM hsep hne hunmerged.represents
      (fun x => same.refl x) hfold
    exact ⟨_, ρ, hvisits, hrep, fun a b => hsep.mem_visit hunmerged hkeys⟩

/-- **The groups after a run.** A run over unmerged persons whose evidence is separable leaves two
persons with a common canonical person exactly if they belong to one group. -/
theorem sameGroup_iff_of_resolve (hsep : Separable env db same) (hunmerged : Unmerged db)
    {run : ResolveRun} (hrun : resolveIdentities env s db = some run) {a b : Uuid}
    (ha : (db.person? a).isSome) : SameGroup run.db a b ↔ same a b := by
  obtain ⟨pairs, ρ, hvisits, hrep, hcover⟩ := visits_of_resolve hsep hunmerged hrun
  have hsame : ∀ x, same x (ρ x) := hvisits.same_rep fun x => same.refl x
  have hperson : (run.db.person? (ρ a)).isSome := by
    rw [hrep.persons]
    by_cases hself : ρ a = a
    · rw [hself]
      exact ha
    · exact (hsep.keyed a (ρ a) (Ne.symm hself) (hsame a)).2.1
  rw [hrep.sameGroup_iff hperson]
  exact hvisits.eq_iff (fun _ => rfl) (fun x => same.refl x) hcover

/-- **Order independence.** If the evidence of unmerged persons separates them into groups, then
all runs that do not fail leave the same persons with a common canonical person, whatever the
order in which they visit the candidate pairs.

**Proof sketch.** A run refines a clustering of representatives that links two of one group when
it visits them and never links two of different groups. Since every pair of a group is visited,
one representative of each group is left. -/
theorem resolve_order_independent {s' : Schedule} (hsep : Separable env db same)
    (hunmerged : Unmerged db) {run run' : ResolveRun}
    (hrun : resolveIdentities env s db = some run)
    (hrun' : resolveIdentities env s' db = some run') :
    ∀ a b, (db.person? a).isSome → (db.person? b).isSome →
      (SameGroup run.db a b ↔ SameGroup run'.db a b) := by
  intro a b ha _
  rw [sameGroup_iff_of_resolve hsep hunmerged hrun ha,
    sameGroup_iff_of_resolve hsep hunmerged hrun' ha]

end Refinement

/-- The pairs in reverse. -/
def inReverse : Schedule :=
  { inOrder with visit := List.reverse, visit_perm := List.reverse_perm }

/-- Three persons with one email. -/
def sameEmailDb : Db where
  persons := [samplePerson 1, samplePerson 2, samplePerson 3]
  observations := [sampleObservation 11 1 "email" "ada@example.com",
    sampleObservation 12 2 "email" "ada@example.com",
    sampleObservation 13 3 "email" "ada@example.com"]

/-- The three persons are one group. -/
def oneGroup : Setoid Uuid := Setoid.ker fun x => if x ∈ ([1, 2, 3] : List Uuid) then 1 else x

/-- The observation all three have. -/
def sharedEmail : ObservationDict := ⟨"email", "ada@example.com"⟩

/-- Evidence that repeats one observation has the signals of that observation. -/
private lemma extractSignals_of_forall_eq {obs : List ObservationDict} {o : ObservationDict}
    (hne : obs ≠ []) (hall : ∀ x ∈ obs, x = o) : extractSignals obs = extractSignals [o] := by
  have hget : ∀ predicate, getObservation obs predicate = getObservation [o] predicate := by
    intro predicate
    obtain ⟨n, rfl⟩ : ∃ n, obs = List.replicate (n + 1) o := by
      refine ⟨obs.length - 1, ?_⟩
      rw [Nat.sub_add_cancel (List.length_pos_iff.mpr hne)]
      exact List.eq_replicate_of_mem hall
    rw [getObservation, getObservation, List.find?_replicate]
    by_cases hmatch : o.predicate = predicate ∧ o.objectValue ≠ []
    · simp [hmatch]
    · simp [hmatch]
  simp only [extractSignals, hget]

private lemma observationsOf_sameEmailDb : ∀ x ∈ ([1, 2, 3] : List Uuid),
    (sameEmailDb.person? x).isSome ∧ sameEmailDb.observationsOf x = [sharedEmail] := by
  simp only [List.forall_mem_cons]
  exact ⟨⟨rfl, rfl⟩, ⟨rfl, rfl⟩, ⟨rfl, rfl⟩, nofun⟩

/-- Any two parts of the group have the email in common. -/
private lemma separable_sameEmailDb : Separable sampleMatchEnv sameEmailDb oneGroup where
  keyed a b hab hsame := by
    have hmem : a ∈ ([1, 2, 3] : List Uuid) ∧ b ∈ ([1, 2, 3] : List Uuid) := by
      have hsame : (if a ∈ ([1, 2, 3] : List Uuid) then 1 else a) =
        if b ∈ ([1, 2, 3] : List Uuid) then 1 else b := hsame
      split_ifs at hsame with ha hb hb
      · exact ⟨ha, hb⟩
      · exact absurd (hsame ▸ List.mem_cons_self ..) hb
      · exact absurd (hsame ▸ List.mem_cons_self ..) ha
      · exact absurd hsame hab
    obtain ⟨hpa, hobsA⟩ := observationsOf_sameEmailDb a hmem.1
    obtain ⟨hpb, hobsB⟩ := observationsOf_sameEmailDb b hmem.2
    refine ⟨hpa, hpb, ?_⟩
    rw [hobsA, hobsB]
    exact ⟨sharedEmail, List.mem_singleton_self _, sharedEmail, List.mem_singleton_self _, _, _,
      (by decide : observationKeys sampleMatchEnv sharedEmail = some ["email:ada".toList]),
      (by decide : observationKeys sampleMatchEnv sharedEmail = some ["email:ada".toList]),
      "email:ada", List.mem_singleton_self _, List.mem_singleton_self _⟩
  decided S T a b hS hT ha hb _ _ _ obsA obsB confidence reasons hA hB hmatch := by
    have hmem : ∀ x, (sameEmailDb.person? x).isSome → x ∈ ([1, 2, 3] : List Uuid) := by
      intro x hx
      obtain ⟨p, hp⟩ := Option.isSome_iff_exists.mp hx
      have hid : p.id = x := by simpa using List.find?_some hp
      have hids : ∀ p ∈ sameEmailDb.persons, p.id ∈ ([1, 2, 3] : List Uuid) := by decide
      exact hid ▸ hids p (List.mem_of_find?_eq_some hp)
    have hsignals : ∀ (U : Uuid → Bool) x obs, U x → (sameEmailDb.person? x).isSome →
        obs.Perm (sameEmailDb.evidence U) → extractSignals obs = extractSignals [sharedEmail] := by
      intro U x obs hU hx hobs
      have hown : sharedEmail ∈ sameEmailDb.observationsOf x := by
        rw [(observationsOf_sameEmailDb x (hmem x hx)).2]
        exact List.mem_singleton_self _
      obtain ⟨o, ho, hshared⟩ := List.mem_map.mp hown
      have hsubject : o.subjectId = some x := by simpa using List.of_mem_filter ho
      have hevidence : sharedEmail ∈ sameEmailDb.evidence U :=
        List.mem_map.mpr ⟨o, List.mem_filter.mpr
          ⟨List.mem_of_mem_filter ho, by simp [hsubject, hU]⟩, hshared⟩
      refine extractSignals_of_forall_eq (List.ne_nil_of_mem (hobs.mem_iff.mpr hevidence)) ?_
      intro e he
      obtain ⟨o', ho', rfl⟩ := List.mem_map.mp (hobs.mem_iff.mp he)
      have hall : ∀ o ∈ sameEmailDb.observations,
          (⟨o.predicate, o.objectValue⟩ : ObservationDict) = sharedEmail := by decide
      exact hall o' (List.mem_of_mem_filter ho')
    have hsame : oneGroup a b := by
      show (if a ∈ ([1, 2, 3] : List Uuid) then 1 else a) =
        if b ∈ ([1, 2, 3] : List Uuid) then 1 else b
      rw [if_pos (hmem a ha), if_pos (hmem b hb)]
    rw [matchConfidence, hsignals S a obsA hS ha hA, hsignals T b obsB hT hb hB] at hmatch
    have hone : matchSignals sampleMatchEnv (extractSignals [sharedEmail])
        (extractSignals [sharedEmail]) = some (1, ["email_exact".toList]) := by decide
    rw [hone] at hmatch
    cases hmatch
    exact iff_of_true (by decide +kernel) hsame

/-- In either order the three persons end up as one. -/
theorem resolve_order_independent_sameEmail :
    ∃ run run', resolveIdentities sampleMatchEnv inOrder sameEmailDb = some run ∧
      resolveIdentities sampleMatchEnv inReverse sameEmailDb = some run' ∧
      (SameGroup run.db 1 3 ↔ SameGroup run'.db 1 3) := by
  obtain ⟨run, hrun⟩ := Option.isSome_iff_exists.mp
    (by decide +kernel : (resolveIdentities sampleMatchEnv inOrder sameEmailDb).isSome = true)
  obtain ⟨run', hrun'⟩ := Option.isSome_iff_exists.mp
    (by decide +kernel : (resolveIdentities sampleMatchEnv inReverse sameEmailDb).isSome = true)
  exact ⟨run, run', hrun, hrun', resolve_order_independent separable_sameEmailDb (by decide) hrun
    hrun' 1 3 (by decide) (by decide)⟩

/-- Over unmerged persons, all orders of the candidate pairs leave the same groups. -/
def OrderIndependent (env : MatchEnv) : Prop :=
  ∀ db, Unmerged db → ∀ s s' : Schedule, s'.fetch = s.fetch → ∀ run run',
    resolveIdentities env s db = some run → resolveIdentities env s' db = some run' →
    ∀ a b, (db.person? a).isSome → (db.person? b).isSome →
      (SameGroup run.db a b ↔ SameGroup run'.db a b)

/-- Person 2 has the email of person 1 and the handle of person 3. -/
def chainDb : Db where
  persons := [samplePerson 1, samplePerson 2, samplePerson 3]
  observations := [sampleObservation 11 1 "email" "ada@example.com",
    sampleObservation 12 2 "email" "ada@example.com",
    sampleObservation 13 2 "twitter_handle" "ada", sampleObservation 14 3 "twitter_handle" "ada"]

/-- Merging from the front loses the handle before person 3 is compared. -/
theorem not_orderIndependent : ¬ OrderIndependent sampleMatchEnv := by
  intro h
  have hfront : (resolveIdentities sampleMatchEnv inOrder chainDb).any (fun run =>
      run.db.supersededBy 1 = none ∧ run.db.supersededBy 3 = none) = true := by decide +kernel
  have hback : (resolveIdentities sampleMatchEnv inReverse chainDb).any (fun run =>
      run.db.supersededBy 3 = some 2 ∧ run.db.supersededBy 2 = some 1 ∧
      (run.db.person? 1).any (fun p => p.canonical)) = true := by decide +kernel
  obtain ⟨run, hrun, hroots⟩ := (Option.any_eq_true _ _).mp hfront
  obtain ⟨run', hrun', hlinks⟩ := (Option.any_eq_true _ _).mp hback
  rw [decide_eq_true_eq] at hroots hlinks
  obtain ⟨hthree, htwo, hone⟩ := hlinks
  obtain ⟨p, hp, hcanonical⟩ := (Option.any_eq_true _ _).mp hone
  have hjoined : SameGroup run'.db 1 3 :=
    ⟨1, p, hp, hcanonical, Leads.refl 1, Leads.head hthree (Leads.head htwo (Leads.refl 1))⟩
  have hapart := (h chainDb (by decide) inOrder inReverse rfl run run' hrun hrun' 1 3 (by decide)
    (by decide)).mpr hjoined
  obtain ⟨r, _, _, _, hfirst, hsecond⟩ := hapart
  have heq := (hfirst.eq_of_root hroots.1).trans (hsecond.eq_of_root hroots.2).symm
  exact absurd heq (by decide)

end VCBrain
