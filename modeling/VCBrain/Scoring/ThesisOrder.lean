import VCBrain.Foundation.JoinedText
import VCBrain.Scoring.ThesisAlignment

set_option relaxedAutoImplicit false
set_option autoImplicit false

/-!
# The alignment and the order of the observations

The values of the observations are joined before phrases are searched in them, and the first amount
that is stated is the requested check. The verdicts of the criteria depend on the order of the
observations in these two ways only.

## Main definitions

* `aloneGroups`, `pairGroups` — what the values name one by one, and together with two neighbours.
* `NoStraddling` — no two neighbours change a verdict.

## Main results

* `scoreThesisAlignment_perm` — without straddling phrases, and with the same first amount, the
  order of the observations does not matter.
-/

namespace VCBrain

/-! ## What is named -/

section Naming

variable (ucd : Ucd)

/-- The values with some predicates. -/
def relevantValues (predicates : List Str) (observations : List Observation) : List Str :=
  (observationsFor ucd observations predicates).map Observation.objectValue

/-- The names of the groups with a property. -/
def namesOf (table : List (Str × List Str)) (p : Str × List Str → Bool) : List Str :=
  (table.filter p).map Prod.fst

/-- Some value names the group by itself. -/
def NamedAlone (values : List Str) (group : Str × List Str) : Prop :=
  ∃ v ∈ values, Names group (boundedText ucd [v])

instance (values : List Str) (group : Str × List Str) : Decidable (NamedAlone ucd values group) :=
  inferInstanceAs (Decidable (∃ v ∈ values, Names group (boundedText ucd [v])))

/-- The groups that the values name one by one. -/
def aloneGroups (table : List (Str × List Str)) (values : List Str) : List Str :=
  namesOf table fun group => NamedAlone ucd values group

/-- The groups that the values name one by one, or two of them together. -/
def pairGroups (table : List (Str × List Str)) (values : List Str) (u v : Str) : List Str :=
  namesOf table fun group =>
    decide (NamedAlone ucd values group) || decide (Names group (boundedText ucd [u, v]))

/-- No two neighbours change the verdict. -/
def Separate {α : Type} (verdict : List Str → α) (table : List (Str × List Str))
    (values : List Str) : Prop :=
  ∀ u v, [u, v] <:+: values →
    verdict (pairGroups ucd table values u v) = verdict (aloneGroups ucd table values)

/-- A term that is found in one of some joined values or across two neighbours. -/
def FitsNeighbours (term : Str) : Prop :=
  term.tail.count ' ' ≤ 1 ∧ (term.all fun c => c = ' ') = false

instance (term : Str) : Decidable (FitsNeighbours term) :=
  inferInstanceAs (Decidable (_ ∧ _))

variable {ucd} {values : List Str} {group : Str × List Str}

lemma boundedText_eq_surrounded :
    boundedText ucd values = Str.surrounded ' ' (values.map ucd.lower) := by
  have hjoin : ∀ values : List Str, ucd.lower (List.intercalate [' '] values) =
      List.intercalate [' '] (values.map ucd.lower) := by
    intro values
    induction values with
    | nil => rfl
    | cons u values ih =>
      cases values with
      | nil => simp
      | cons v values =>
        rw [List.intercalate_cons_cons, List.append_assoc, List.singleton_append,
          ucd.lower_append_sep (by decide) (by decide) (by decide), ih]
        simp [List.intercalate_cons_cons]
  rw [boundedText, hjoin, Str.surrounded]

/-- **Naming by joined values.** A group is named by a single value or by two neighbours.

**Proof sketch.** A term has at most one space behind its first character. -/
lemma names_boundedText_iff (hterms : ∀ term ∈ group.2, FitsNeighbours term) :
    Names group (boundedText ucd values) ↔ NamedAlone ucd values group ∨
      ∃ u v, [u, v] <:+: values ∧ Names group (boundedText ucd [u, v]) := by
  have hterm : ∀ term ∈ group.2, term <:+: boundedText ucd values ↔
      (∃ u ∈ values, term <:+: boundedText ucd [u]) ∨
        ∃ u v, [u, v] <:+: values ∧ term <:+: boundedText ucd [u, v] := by
    intro term hmem
    obtain ⟨hcount, hletter⟩ := hterms term hmem
    have hne : term ≠ [] := by
      rintro rfl
      cases hletter
    by_cases hvalues : values = []
    · subst hvalues
      have hblank : ¬ term <:+: boundedText ucd [] := by
        intro hwithin
        have hall : (term.all fun c => c = ' ') = true := by
          refine List.all_eq_true.mpr fun c hc => ?_
          have hmem : c ∈ [' ', ' '] := hwithin.subset hc
          simpa using hmem
        rw [hletter] at hall
        cases hall
      simp [hblank]
    · have hmapped : values.map ucd.lower ≠ [] := by simpa using hvalues
      rw [boundedText_eq_surrounded, Str.infix_surrounded_iff hne hcount hmapped]
      simp only [boundedText_eq_surrounded, List.map_cons, List.map_nil]
      refine or_congr (by simp) ?_
      constructor
      · rintro ⟨a, b, hpair, hin⟩
        obtain ⟨part, hpart, hab⟩ := List.infix_map_iff.mp hpair
        obtain ⟨u, rest, rfl, rfl, hrest⟩ := List.map_eq_cons_iff.mp hab.symm
        obtain ⟨v, back, rfl, rfl, hback⟩ := List.map_eq_cons_iff.mp hrest
        obtain rfl := List.map_eq_nil_iff.mp hback
        exact ⟨u, v, hpart, hin⟩
      · rintro ⟨u, v, hpair, hin⟩
        exact ⟨ucd.lower u, ucd.lower v, hpair.map ucd.lower, hin⟩
  constructor
  · rintro ⟨term, hmem, hin⟩
    rcases (hterm term hmem).mp hin with ⟨u, hu, hin⟩ | ⟨u, v, hpair, hin⟩
    · exact Or.inl ⟨u, hu, term, hmem, hin⟩
    · exact Or.inr ⟨u, v, hpair, term, hmem, hin⟩
  · rintro (⟨u, hu, term, hmem, hin⟩ | ⟨u, v, hpair, term, hmem, hin⟩)
    · exact ⟨term, hmem, (hterm term hmem).mpr (Or.inl ⟨u, hu, hin⟩)⟩
    · exact ⟨term, hmem, (hterm term hmem).mpr (Or.inr ⟨u, v, hpair, hin⟩)⟩

end Naming

/-! ## Verdicts -/

section Verdicts

variable (thesis : ThesisMandate)

/-- The verdict on the stage, which is the first one named. -/
def stageVerdict (names : List Str) : CriterionStatus := (stageStatus thesis names.head?).1

/-- The verdict on the sectors, and whether none is excluded. -/
def sectorVerdict (names : List Str) : CriterionStatus × Bool :=
  ((sectorStatus thesis names).1, decide (commonNames names thesis.excludedSectors = []))

/-- The verdict on the geography. -/
def geographyVerdict (names : List Str) : CriterionStatus := (geographyStatus thesis names).1

/-- A verdict that no addition to what is named changes is not changed by all of them. -/
def Cumulative {α : Type} (verdict : List Str → α) : Prop :=
  ∀ (ι : Type) (table : List (Str × List Str)) (p r : Str × List Str → Bool)
    (q : ι → Str × List Str → Bool),
    (∀ group ∈ table, r group = true ↔ p group = true ∨ ∃ i, q i group = true) →
    (∀ i, verdict (namesOf table fun group => p group || q i group) = verdict (namesOf table p)) →
      verdict (namesOf table r) = verdict (namesOf table p)

variable {thesis}

lemma head?_namesOf (table : List (Str × List Str)) (p : Str × List Str → Bool) :
    (namesOf table p).head? = (table.find? p).map Prod.fst := by
  rw [namesOf, List.head?_map, List.head?_filter]

/-- The first group is the first one that is named alone, or an addition that comes before it. -/
lemma cumulative_stageVerdict : Cumulative (stageVerdict thesis) := by
  intro ι table p r q hr hkeep
  simp only [stageVerdict, head?_namesOf] at hkeep ⊢
  cases hfirst : table.find? r with
  | none =>
    have hnone : table.find? p = none := by
      refine List.find?_eq_none.mpr fun group hgroup hp => ?_
      exact List.find?_eq_none.mp hfirst group hgroup ((hr group hgroup).mpr (Or.inl hp))
    rw [hnone]
  | some group =>
    obtain ⟨hgroup, before, after, hsplit, hbefore⟩ := List.find?_eq_some_iff_append.mp hfirst
    have hmem : group ∈ table := by simp [hsplit]
    have hearlier : ∀ g ∈ before, ¬ p g = true ∧ ∀ i, ¬ q i g = true := by
      intro g hg
      have hnot := hbefore g hg
      have hin : g ∈ table := by simp [hsplit, hg]
      have hiff := hr g hin
      rw [Bool.not_eq_true'] at hnot
      rw [hnot] at hiff
      simpa [not_or] using hiff
    rcases (hr group hmem).mp hgroup with hp | ⟨i, hq⟩
    · have halone : table.find? p = some group := by
        refine List.find?_eq_some_iff_append.mpr ⟨hp, before, after, hsplit, fun g hg => ?_⟩
        simpa using (hearlier g hg).1
      rw [halone]
    · have hadded : table.find? (fun g => p g || q i g) = some group := by
        refine List.find?_eq_some_iff_append.mpr
          ⟨by simp [hq], before, after, hsplit, fun g hg => ?_⟩
        simp [(hearlier g hg).1, (hearlier g hg).2 i]
      rw [← hadded]
      exact hkeep i

/-- A group with a property is named. -/
def Occurs (table : List (Str × List Str)) (named : Str → Prop)
    (p : Str × List Str → Bool) : Prop :=
  ∃ group ∈ table, p group = true ∧ named group.1

section Occurs

variable {table : List (Str × List Str)} {named : Str → Prop} {ι : Type}
  {p r : Str × List Str → Bool} {q : ι → Str × List Str → Bool}

lemma exists_mem_namesOf_iff : (∃ name ∈ namesOf table p, named name) ↔ Occurs table named p := by
  unfold namesOf Occurs
  simp only [List.mem_map, List.mem_filter]
  constructor
  · rintro ⟨_, ⟨group, ⟨hgroup, hp⟩, rfl⟩, hnamed⟩
    exact ⟨group, hgroup, hp, hnamed⟩
  · rintro ⟨group, hgroup, hp, hnamed⟩
    exact ⟨_, ⟨group, ⟨hgroup, hp⟩, rfl⟩, hnamed⟩

lemma namesOf_eq_nil_iff : namesOf table p = [] ↔ ¬ Occurs table (fun _ => True) p := by
  rw [← exists_mem_namesOf_iff, List.eq_nil_iff_forall_not_mem]
  simp

lemma occurs_or_iff (i : ι) : Occurs table named (fun group => p group || q i group) ↔
    Occurs table named p ∨ Occurs table named (q i) := by
  simp only [Occurs, Bool.or_eq_true, or_and_right, and_or_left, exists_or]

lemma occurs_union_iff
    (hr : ∀ group ∈ table, r group = true ↔ p group = true ∨ ∃ i, q i group = true) :
    Occurs table named r ↔ Occurs table named p ∨ ∃ i, Occurs table named (q i) := by
  constructor
  · rintro ⟨group, hgroup, hnames, hnamed⟩
    rcases (hr group hgroup).mp hnames with hp | ⟨i, hq⟩
    · exact Or.inl ⟨group, hgroup, hp, hnamed⟩
    · exact Or.inr ⟨i, group, hgroup, hq, hnamed⟩
  · rintro (⟨group, hgroup, hp, hnamed⟩ | ⟨i, group, hgroup, hq, hnamed⟩)
    · exact ⟨group, hgroup, (hr group hgroup).mpr (Or.inl hp), hnamed⟩
    · exact ⟨group, hgroup, (hr group hgroup).mpr (Or.inr ⟨i, hq⟩), hnamed⟩

end Occurs

/-- The status of names that must not be excluded and should be selected. -/
def mandateStatus (excluded selected names : List Str) : CriterionStatus :=
  if names = [] then .unknown
  else if ∃ name ∈ names, name ∈ excluded then .failed
  else if ∃ name ∈ names, name ∈ selected then .matched
  else .failed

section Mandate

variable {excluded selected names : List Str}

lemma mandateStatus_eq_unknown_iff :
    mandateStatus excluded selected names = .unknown ↔ names = [] := by
  unfold mandateStatus
  split_ifs <;> simp_all

lemma mandateStatus_eq_matched_iff : mandateStatus excluded selected names = .matched ↔
    (¬ ∃ name ∈ names, name ∈ excluded) ∧ ∃ name ∈ names, name ∈ selected := by
  unfold mandateStatus
  split_ifs with hnil hexcluded hselected
  · simp [hnil]
  · simp [hexcluded]
  · simp [hexcluded, hselected]
  · simp [hselected]

lemma CriterionStatus.eq_of_iff {a b : CriterionStatus} (hunknown : a = .unknown ↔ b = .unknown)
    (hmatched : a = .matched ↔ b = .matched) : a = b := by
  cases a <;> cases b <;> simp_all

/-- What no addition changes, all of them do not change. -/
private lemma or_exists_iff {ι : Type} {a : Prop} {b : ι → Prop} (h : ∀ i, a ∨ b i ↔ a) :
    (a ∨ ∃ i, b i) ↔ a := by
  refine ⟨?_, Or.inl⟩
  rintro (ha | ⟨i, hb⟩)
  · exact ha
  · exact (h i).mp (Or.inr hb)

/-- An addition to what is named that keeps the status adds no excluded name, no selected name to a
failed criterion, and no name at all to an unknown one. -/
lemma cumulative_mandateStatus (excluded selected : List Str) :
    Cumulative fun names => (mandateStatus excluded selected names,
      decide (∃ name ∈ names, name ∈ excluded)) := by
  intro ι table p r q hr hkeep
  have hexcluded : ∀ i, Occurs table (· ∈ excluded) p ∨ Occurs table (· ∈ excluded) (q i) ↔
      Occurs table (· ∈ excluded) p := by
    intro i
    have hsame := decide_eq_decide.mp (Prod.mk.inj (hkeep i)).2
    rw [exists_mem_namesOf_iff, exists_mem_namesOf_iff, occurs_or_iff] at hsame
    exact hsame
  have hany : ∀ i, Occurs table (fun _ => True) p ∨ Occurs table (fun _ => True) (q i) ↔
      Occurs table (fun _ => True) p := by
    intro i
    have hsame := congrArg (· = CriterionStatus.unknown) (Prod.mk.inj (hkeep i)).1
    simp only [mandateStatus_eq_unknown_iff, namesOf_eq_nil_iff, occurs_or_iff] at hsame
    exact not_iff_not.mp (iff_of_eq hsame)
  refine Prod.ext (CriterionStatus.eq_of_iff ?_ ?_) (decide_eq_decide.mpr ?_)
  · rw [mandateStatus_eq_unknown_iff, mandateStatus_eq_unknown_iff, namesOf_eq_nil_iff,
      namesOf_eq_nil_iff, occurs_union_iff hr, or_exists_iff hany]
  · rw [mandateStatus_eq_matched_iff, mandateStatus_eq_matched_iff, exists_mem_namesOf_iff,
      exists_mem_namesOf_iff, exists_mem_namesOf_iff, exists_mem_namesOf_iff, occurs_union_iff hr,
      or_exists_iff hexcluded, occurs_union_iff hr]
    refine and_congr_right fun hnone => or_exists_iff fun i => ?_
    have hnew : ¬ Occurs table (· ∈ excluded) (q i) := fun h => hnone ((hexcluded i).mp (Or.inr h))
    have hsame := congrArg (· = CriterionStatus.matched) (Prod.mk.inj (hkeep i)).1
    simp only [mandateStatus_eq_matched_iff, exists_mem_namesOf_iff, occurs_or_iff, hnone, hnew,
      or_self, not_false_eq_true, true_and] at hsame
    exact iff_of_eq hsame
  · rw [exists_mem_namesOf_iff, exists_mem_namesOf_iff, occurs_union_iff hr,
      or_exists_iff hexcluded]

end Mandate

lemma sectorVerdict_eq (names : List Str) : sectorVerdict thesis names =
    (mandateStatus thesis.excludedSectors thesis.sectors names,
      !decide (∃ name ∈ names, name ∈ thesis.excludedSectors)) := by
  unfold sectorVerdict sectorStatus mandateStatus
  dsimp only
  by_cases hnil : names = []
  · simp [hnil, commonNames_eq_nil_iff]
  · by_cases hexcluded : ∃ name ∈ names, name ∈ thesis.excludedSectors
    · have hmatches : commonNames names thesis.excludedSectors ≠ [] := by
        rwa [ne_eq, commonNames_eq_nil_iff, not_not]
      rw [if_neg hnil, if_pos hmatches, if_neg hnil, if_pos hexcluded]
      simp [hmatches, hexcluded]
    · have hmatches : commonNames names thesis.excludedSectors = [] :=
        commonNames_eq_nil_iff.mpr hexcluded
      rw [if_neg hnil, if_neg (not_not.mpr hmatches), if_neg hnil, if_neg hexcluded]
      simp only [ne_eq, commonNames_eq_nil_iff, not_not, hexcluded]
      split_ifs <;> rfl

lemma geographyVerdict_eq (names : List Str) : geographyVerdict thesis names =
    if "global".toList ∈ thesis.regions then .matched
    else mandateStatus [] thesis.regions names := by
  unfold geographyVerdict geographyStatus mandateStatus
  dsimp only
  simp only [ne_eq, commonNames_eq_nil_iff, not_not, List.not_mem_nil, and_false, exists_false,
    if_false]
  split_ifs <;> rfl

lemma cumulative_sectorVerdict : Cumulative (sectorVerdict thesis) := by
  intro ι table p r q hr hkeep
  simp only [sectorVerdict_eq, Prod.mk.injEq, Bool.not_inj_iff] at hkeep ⊢
  have hall := cumulative_mandateStatus thesis.excludedSectors thesis.sectors ι table p r q hr
    fun i => Prod.ext (hkeep i).1 (hkeep i).2
  exact Prod.mk.inj hall

lemma cumulative_geographyVerdict : Cumulative (geographyVerdict thesis) := by
  intro ι table p r q hr hkeep
  simp only [geographyVerdict_eq] at hkeep ⊢
  split_ifs at hkeep ⊢ with hglobal
  · rfl
  · have hall := cumulative_mandateStatus [] thesis.regions ι table p r q hr fun i =>
      Prod.ext (hkeep i) (by simp)
    exact (Prod.mk.inj hall).1

end Verdicts

/-! ## The order of the observations -/

/-- No two neighbours among the values change a verdict. -/
structure NoStraddling (ucd : Ucd) (thesis : ThesisMandate) (observations : List Observation) :
    Prop where
  stage : Separate ucd (stageVerdict thesis) stagePatterns
    (relevantValues ucd stagePredicates observations)
  sector : Separate ucd (sectorVerdict thesis) sectorTerms
    (relevantValues ucd sectorPredicates observations)
  geography : Separate ucd (geographyVerdict thesis) regionTerms
    (relevantValues ucd regionPredicates observations)

section Order

variable {ucd : Ucd} {float : Str → ℚ} {thesis : ThesisMandate}
  {observations permuted : List Observation}

/-- Where no two neighbours change the verdict, it is that on what the values name one by one. -/
lemma Separate.verdict_eq {α : Type} {verdict : List Str → α} {table : List (Str × List Str)}
    {predicates : List Str} (hcumulative : Cumulative verdict)
    (hterms : ∀ group ∈ table, ∀ term ∈ group.2, FitsNeighbours term)
    (h : Separate ucd verdict table (relevantValues ucd predicates observations)) :
    verdict (detectGroups table (relevantText ucd predicates observations)) =
      verdict (aloneGroups ucd table (relevantValues ucd predicates observations)) := by
  refine hcumulative {pair : Str × Str //
    [pair.1, pair.2] <:+: relevantValues ucd predicates observations} table _ _
      (fun pair group => Names group (boundedText ucd [pair.1.1, pair.1.2])) ?_ ?_
  · intro group hgroup
    rw [decide_eq_true_eq, relevantText, ← relevantValues,
      names_boundedText_iff (hterms group hgroup)]
    simp
  · rintro ⟨⟨u, v⟩, hpair⟩
    exact h u v hpair

lemma relevantValues_perm (hperm : permuted.Perm observations) (predicates : List Str) :
    (relevantValues ucd predicates permuted).Perm (relevantValues ucd predicates observations) :=
  (hperm.filter _).map _

lemma aloneGroups_perm {table : List (Str × List Str)} {values values' : List Str}
    (h : values'.Perm values) : aloneGroups ucd table values' = aloneGroups ucd table values := by
  have hnamed : ∀ group, NamedAlone ucd values' group ↔ NamedAlone ucd values group := by
    intro group
    simp only [NamedAlone, h.mem_iff]
  exact congrArg (namesOf table) (funext fun group => decide_eq_decide.mpr (hnamed group))

/-- The verdict on what is found does not depend on the order. -/
lemma verdict_perm {α : Type} {verdict : List Str → α} {table : List (Str × List Str)}
    {predicates : List Str} (hcumulative : Cumulative verdict)
    (hterms : ∀ group ∈ table, ∀ term ∈ group.2, FitsNeighbours term)
    (hperm : permuted.Perm observations)
    (h : Separate ucd verdict table (relevantValues ucd predicates observations))
    (h' : Separate ucd verdict table (relevantValues ucd predicates permuted)) :
    verdict (detectGroups table (relevantText ucd predicates permuted)) =
      verdict (detectGroups table (relevantText ucd predicates observations)) := by
  rw [h.verdict_eq hcumulative hterms, h'.verdict_eq hcumulative hterms,
    aloneGroups_perm (relevantValues_perm hperm predicates)]

lemma evidenceConfidence_perm {evidence evidence' : List Observation}
    (h : evidence'.Perm evidence) : evidenceConfidence evidence' = evidenceConfidence evidence := by
  unfold evidenceConfidence
  rw [(h.map Observation.confidence).sum_eq, h.length_eq]
  simp only [← List.length_eq_zero_iff, h.length_eq]

/-- The terms of all tables are found in one value or across two neighbours. -/
lemma fitsNeighbours_of_mem {table : List (Str × List Str)}
    (htable : table ∈ [stagePatterns, sectorTerms, regionTerms]) :
    ∀ group ∈ table, ∀ term ∈ group.2, FitsNeighbours term := by
  have key : ∀ table ∈ [stagePatterns, sectorTerms, regionTerms], ∀ group ∈ table,
    ∀ term ∈ group.2, FitsNeighbours term := by decide +kernel
  exact key table htable

/-- The observations that the confidence is taken from. -/
def alignmentEvidence (ucd : Ucd) (observations : List Observation) : List Observation :=
  [stagePredicates, sectorPredicates, regionPredicates, checkPredicates].flatMap
    (observationsFor ucd observations)

lemma statuses_eq : (scoreThesisAlignment ucd float thesis observations).criteria.statuses =
    [("stage".toList, stageVerdict thesis (detectGroups stagePatterns
        (relevantText ucd stagePredicates observations))),
      ("sector".toList, (sectorVerdict thesis (detectGroups sectorTerms
        (relevantText ucd sectorPredicates observations))).1),
      ("geography".toList, geographyVerdict thesis (detectGroups regionTerms
        (relevantText ucd regionPredicates observations))),
      ("check_size".toList,
        (checkStatus thesis (detectRequestedCheck ucd float observations).1).1)] := by
  have hfirst := head?_namesOf stagePatterns fun group =>
    Names group (relevantText ucd stagePredicates observations)
  have hstage : (detectStage ucd observations).1 =
      (detectGroups stagePatterns (relevantText ucd stagePredicates observations)).head? :=
    hfirst.symm
  rw [stageVerdict, ← hstage]
  rfl

lemma hardEligible_eq : (scoreThesisAlignment ucd float thesis observations).hardEligible =
    (decide (stageVerdict thesis (detectGroups stagePatterns
        (relevantText ucd stagePredicates observations)) ≠ .failed) &&
      (sectorVerdict thesis (detectGroups sectorTerms
        (relevantText ucd sectorPredicates observations))).2) := by
  have hfirst := head?_namesOf stagePatterns fun group =>
    Names group (relevantText ucd stagePredicates observations)
  have hstage : (detectStage ucd observations).1 =
      (detectGroups stagePatterns (relevantText ucd stagePredicates observations)).head? :=
    hfirst.symm
  rw [stageVerdict, ← hstage]
  rfl

lemma thesisConfidence_eq : (scoreThesisAlignment ucd float thesis observations).confidence =
    roundTo 4 (min 1 (max (15 / 100)
      ((((scoreThesisAlignment ucd float thesis observations).criteria.statuses.filter fun item =>
        item.2 ≠ .unknown).map fun item => thesisWeight thesis.scoringWeights item.1).sum *
          evidenceConfidence (alignmentEvidence ucd observations)))) := by
  have hevidence : alignmentEvidence ucd observations =
      observationsFor ucd observations stagePredicates ++
        observationsFor ucd observations sectorPredicates ++
          observationsFor ucd observations regionPredicates ++
            observationsFor ucd observations checkPredicates := by
    simp [alignmentEvidence]
  rw [hevidence]
  rfl

lemma alignmentEvidence_perm (hperm : permuted.Perm observations) :
    (alignmentEvidence ucd permuted).Perm (alignmentEvidence ucd observations) :=
  List.Perm.flatMap_left _ fun _ _ => hperm.filter _

/-- **The order of the observations.** A permutation of the observations has the same score,
confidence, eligibility and statuses, if two neighbours change no verdict in either order and the
first amount that is stated gets the same verdict.

**Proof sketch.** A phrase is found in one value or across two neighbours, so each verdict is the
one on what the values name one by one. The confidence is a mean over the same observations. -/
theorem scoreThesisAlignment_perm (hperm : permuted.Perm observations)
    (h : NoStraddling ucd thesis observations) (h' : NoStraddling ucd thesis permuted)
    (hcheck : (checkStatus thesis (detectRequestedCheck ucd float permuted).1).1 =
      (checkStatus thesis (detectRequestedCheck ucd float observations).1).1) :
    let result := scoreThesisAlignment ucd float thesis observations
    let result' := scoreThesisAlignment ucd float thesis permuted
    result'.score = result.score ∧ result'.confidence = result.confidence ∧
      result'.hardEligible = result.hardEligible ∧
        result'.criteria.statuses = result.criteria.statuses := by
  intro result result'
  have hstage := verdict_perm cumulative_stageVerdict (fitsNeighbours_of_mem (by simp)) hperm
    h.stage h'.stage
  have hsector := verdict_perm cumulative_sectorVerdict (fitsNeighbours_of_mem (by simp)) hperm
    h.sector h'.sector
  have hgeography := verdict_perm cumulative_geographyVerdict (fitsNeighbours_of_mem (by simp))
    hperm h.geography h'.geography
  have hstatuses : result'.criteria.statuses = result.criteria.statuses := by
    rw [statuses_eq, statuses_eq, hstage, hsector, hgeography, hcheck]
  have heligible : result'.hardEligible = result.hardEligible := by
    rw [hardEligible_eq, hardEligible_eq, hstage, hsector]
  refine ⟨?_, ?_, heligible, hstatuses⟩
  · rw [score_eq, score_eq, hstatuses, heligible]
  · rw [thesisConfidence_eq, thesisConfidence_eq, hstatuses,
      evidenceConfidence_perm (alignmentEvidence_perm hperm)]

/-- An observation with a predicate and a value. -/
def thesisObservation (id : Uuid) (predicate value : Str) : Observation where
  id := id
  snapshotId := 0
  subjectId := none
  opportunityId := none
  predicate := predicate
  objectValue := value
  observedAt := 0
  extractorVersion := "v1"
  createdAt := 0

/-- A thesis for the climate sector with tickets up to 500. -/
def climateThesis : ThesisMandate where
  stages := ["seed"]
  sectors := ["climate"]
  excludedSectors := []
  regions := ["dach"]
  checkSizeMinKEur := none
  checkSizeMaxKEur := some 500
  scoringWeights := none

/-- A text of one value has no neighbours. -/
lemma separate_of_length_le {α : Type} {verdict : List Str → α} {table : List (Str × List Str)}
    {values : List Str} (h : values.length ≤ 1) : Separate ucd verdict table values := by
  intro u v hpair
  have hle : 2 ≤ values.length := hpair.length_le
  omega

theorem scoreThesisAlignment_perm_two :
    let observations := [thesisObservation 1 "sector" "carbon", thesisObservation 2 "city" "Berlin"]
    let permuted := [thesisObservation 2 "city" "Berlin", thesisObservation 1 "sector" "carbon"]
    let result := scoreThesisAlignment .ascii (fun _ => 0) climateThesis observations
    let result' := scoreThesisAlignment .ascii (fun _ => 0) climateThesis permuted
    result'.score = result.score ∧ result'.confidence = result.confidence ∧
      result'.hardEligible = result.hardEligible ∧
        result'.criteria.statuses = result.criteria.statuses :=
  scoreThesisAlignment_perm (List.Perm.swap ..)
    ⟨separate_of_length_le (by decide), separate_of_length_le (by decide),
      separate_of_length_le (by decide)⟩
    ⟨separate_of_length_le (by decide), separate_of_length_le (by decide),
      separate_of_length_le (by decide)⟩ (by decide)

/-- A phrase that stands across two values is found in one order only, and the first of two amounts
is the requested check. -/
theorem scoreThesisAlignment_orders :
    let float := fun text => if text = "300".toList then 300 else 800
    let statuses := fun observations =>
      (scoreThesisAlignment .ascii float climateThesis observations).criteria.statuses
    let clean := thesisObservation 1 "sector" "clean"
    let energy := thesisObservation 2 "sector" "energy"
    let lower := thesisObservation 1 "target_check_k_eur" "300"
    let higher := thesisObservation 2 "target_check_k_eur" "800"
    ([energy, clean].Perm [clean, energy] ∧ statuses [energy, clean] ≠ statuses [clean, energy]) ∧
      [higher, lower].Perm [lower, higher] ∧
        statuses [higher, lower] ≠ statuses [lower, higher] := by
  refine ⟨⟨List.Perm.swap .., ?_⟩, List.Perm.swap .., ?_⟩
  · decide +kernel
  · decide +kernel

end Order

end VCBrain
