import VCBrain.Agents.Aggregate
import VCBrain.Foundation.Substrings
import VCBrain.Processing.Trust

set_option relaxedAutoImplicit false
set_option autoImplicit false

/-!
# The alignment with a thesis

`score_thesis_alignment` looks for phrases in the joined values of some observations. What it finds
meets the criteria of a thesis, or fails them, or leaves them open.

## Main definitions

* `detectStage`, `detectSectors`, `detectRegions`, `detectRequestedCheck` — what is found.
* `scoreThesisAlignment` — the criteria, the score and the confidence.

## Main results

* `alignment_laws` — the bounds of the score, the eligibility and the partition of the criteria.
* `neverSeed_iff` — the texts with a pre-seed stage that are not taken for seed ones.

## Design

Numbers are exact, up to the rounding at the end. The number that `float` reads from a numeral is a
parameter.
-/

namespace VCBrain

/-- `InvestmentThesis`, as far as it is scored. -/
structure ThesisMandate where
  stages : List Str
  sectors : List Str
  excludedSectors : List Str
  regions : List Str
  checkSizeMinKEur : Option ℚ
  checkSizeMaxKEur : Option ℚ
  scoringWeights : Option (Dict ℚ)

/-! ## Detection -/

/-- `_STAGE_PATTERNS`. -/
def stagePatterns : List (Str × List Str) :=
  [("series-c", ["series c", "series-c"]),
    ("series-b", ["series b", "series-b"]),
    ("series-a", ["series a", "series-a"]),
    ("seed", ["seed round", "seed-stage", " seed "]),
    ("pre-seed", ["pre-seed", "preseed", "first round", "initial round", "angel round"])]

/-- `_SECTOR_TERMS`. -/
def sectorTerms : List (Str × List Str) :=
  [("ai", ["artificial intelligence", "machine learning", "generative ai", "llm", " ai "]),
    ("deep-tech", ["deep tech", "robotics", "quantum", "semiconductor", "infrastructure"]),
    ("b2b", ["b2b", "saas", "enterprise", "developer tool", "customer operations",
      "customer service", "product analytics", "recruiting platform", "business software"]),
    ("climate", ["climate", "clean energy", "carbon", "sustainability"]),
    ("fintech", ["fintech", "payments", "banking", "insurance", "crypto"]),
    ("health", ["healthcare", "health tech", "biotech", "medical", "therapeutic"])]

/-- `_REGION_TERMS`. -/
def regionTerms : List (Str × List Str) :=
  [("dach", ["germany", "berlin", "munich", "hamburg", "austria", "vienna", "switzerland"]),
    ("europe", ["europe", "germany", "berlin", "austria", "switzerland", "ireland", "dublin",
      "united kingdom", "london", "france", "paris", "netherlands", "amsterdam"]),
    ("uk", ["united kingdom", " uk ", "london", "england", "scotland"]),
    ("us", ["united states", " usa ", " us ", "san francisco", "silicon valley", "new york"])]

section Detection

variable (ucd : Ucd)

/-- `_bounded_text`. -/
def boundedText (values : List Str) : Str :=
  ' ' :: ucd.lower (List.intercalate [' '] values) ++ [' ']

/-- `_observations_for`. -/
def observationsFor (observations : List Observation) (predicates : List Str) :
    List Observation :=
  observations.filter fun item => ucd.lower item.predicate ∈ predicates

/-- A text contains a term of the group. -/
def Names (group : Str × List Str) (text : Str) : Prop := ∃ term ∈ group.2, term <:+: text

instance (group : Str × List Str) (text : Str) : Decidable (Names group text) :=
  inferInstanceAs (Decidable (∃ term ∈ group.2, term <:+: text))

/-- The text in which some predicates are searched. -/
def relevantText (predicates : List Str) (observations : List Observation) : Str :=
  boundedText ucd ((observationsFor ucd observations predicates).map Observation.objectValue)

/-- The predicates with a stage. -/
def stagePredicates : List Str :=
  ["pitch_deck_stage", "stage", "funding_stage", "inbound_summary", "research_founder_summary"]

/-- The predicates with a sector. -/
def sectorPredicates : List Str :=
  ["sector", "company", "bio", "inbound_summary", "research_market_summary",
    "research_idea_market_summary"]

/-- The predicates with a region. -/
def regionPredicates : List Str := ["location", "city", "country", "headquarters"]

/-- The predicates with a requested check. -/
def checkPredicates : List Str := ["target_check_k_eur", "requested_check_k_eur"]

/-- `_detect_stage`: the first stage whose terms are found. -/
def detectStage (observations : List Observation) : Option Str × List Observation :=
  let text := relevantText ucd stagePredicates observations
  ((stagePatterns.find? fun group => Names group text).map Prod.fst,
    observationsFor ucd observations stagePredicates)

/-- The groups whose terms are found. -/
def detectGroups (table : List (Str × List Str)) (text : Str) : List Str :=
  (table.filter fun group => Names group text).map Prod.fst

/-- `_detect_sectors`. -/
def detectSectors (observations : List Observation) : List Str × List Observation :=
  (detectGroups sectorTerms (relevantText ucd sectorPredicates observations),
    observationsFor ucd observations sectorPredicates)

/-- `_detect_regions`. -/
def detectRegions (observations : List Observation) : List Str × List Observation :=
  (detectGroups regionTerms (relevantText ucd regionPredicates observations),
    observationsFor ucd observations regionPredicates)

/-- `re.search(r"\d+(?:\.\d+)?", text)`: the text of the first match. -/
def firstNumeral (text : Str) : Option Str :=
  let start := text.dropWhile fun c => !ucd.isDecimal c
  let whole := start.takeWhile ucd.isDecimal
  let decimals := ((start.dropWhile ucd.isDecimal).drop 1).takeWhile ucd.isDecimal
  if start = [] then none
  else if (start.dropWhile ucd.isDecimal).head? = some '.' ∧ decimals ≠ [] then
    some (whole ++ '.' :: decimals)
  else some whole

/-- The amount in a value. -/
def amountOf (float : Str → ℚ) (value : Str) : Option ℚ :=
  (firstNumeral ucd (value.filter (· ≠ ','))).map float

/-- `_detect_requested_check`. -/
def detectRequestedCheck (float : Str → ℚ) (observations : List Observation) :
    Option ℚ × List Observation :=
  let relevant := observationsFor ucd observations checkPredicates
  ((relevant.filterMap fun item => amountOf ucd float item.objectValue).head?, relevant)

example : firstNumeral .ascii "about 250.5 k" = some ("250.5" : Str) := by decide

end Detection

/-! ## Criteria -/

/-- `CriterionStatus`. -/
inductive CriterionStatus where
  | failed
  | unknown
  | matched
deriving DecidableEq

/-- What `_criterion` returns. -/
structure Criterion (Expected Observed : Type) where
  status : CriterionStatus
  expected : Expected
  observed : Observed
  explanation : Str
  hardConstraint : Bool
  evidenceIds : List Str

/-- `_criterion`. -/
def criterion {Expected Observed : Type} (status : CriterionStatus) (expected : Expected)
    (observed : Observed) (explanation : Str) (evidence : List Observation) (hard : Bool) :
    Criterion Expected Observed where
  status := status
  expected := expected
  observed := observed
  explanation := explanation
  hardConstraint := hard
  evidenceIds := evidence.map fun item => Uuid.str item.id

section Judgement

variable (thesis : ThesisMandate)

/-- The status of the stage, with its explanation. -/
def stageStatus : Option Str → CriterionStatus × Str
  | none => (.unknown, "Company stage is not supported by available evidence.")
  | some stage =>
    if stage ∈ thesis.stages then
      (.matched, "Observed " ++ stage ++ " is inside the active stage mandate.")
    else (.failed, "Observed " ++ stage ++ " is outside the active stage mandate.")

/-- The names that are in both lists, in order. -/
def commonNames (detected selected : List Str) : List Str :=
  sortedSet (detected.filter (· ∈ selected))

/-- The status of the sectors, with its explanation. -/
def sectorStatus (sectors : List Str) : CriterionStatus × Str :=
  let excludedMatches := commonNames sectors thesis.excludedSectors
  let preferredMatches := commonNames sectors thesis.sectors
  if sectors = [] then (.unknown, "Sector could not be classified from current evidence.")
  else if excludedMatches ≠ [] then
    (.failed, "Detected excluded sector: " ++ List.intercalate ", ".toList excludedMatches ++ ".")
  else if preferredMatches ≠ [] then
    (.matched,
      "Detected preferred sector: " ++ List.intercalate ", ".toList preferredMatches ++ ".")
  else (.failed, "Detected sectors do not overlap the active thesis.")

/-- The status of the geography, with its explanation. -/
def geographyStatus (regions : List Str) : CriterionStatus × Str :=
  let regionMatches := commonNames regions thesis.regions
  if "global".toList ∈ thesis.regions then (.matched, "The thesis accepts companies globally.")
  else if regions = [] then (.unknown, "Geography is not supported by available evidence.")
  else if regionMatches ≠ [] then
    (.matched, "Detected eligible geography: " ++ List.intercalate ", ".toList regionMatches ++ ".")
  else (.failed, "Detected geography is outside the active thesis.")

/-- The status of the requested check, with its explanation. -/
def checkStatus : Option ℚ → CriterionStatus × Str
  | none => (.unknown, "Requested investor check size has not been disclosed.")
  | some requested =>
    if thesis.checkSizeMinKEur.any (requested < ·) ∨ thesis.checkSizeMaxKEur.any (· < requested)
    then (.failed, "Requested check is outside the configured ticket range.")
    else (.matched, "Requested check is inside the configured ticket range.")

end Judgement

/-- The four criteria. -/
structure Criteria where
  stage : Criterion (List Str) (Option Str)
  sector : Criterion (List Str) (List Str)
  geography : Criterion (List Str) (List Str)
  checkSize : Criterion (Option ℚ × Option ℚ) (Option ℚ)

/-- The statuses of the criteria under their keys. -/
def Criteria.statuses (criteria : Criteria) : List (Str × CriterionStatus) :=
  [("stage", criteria.stage.status), ("sector", criteria.sector.status),
    ("geography", criteria.geography.status), ("check_size", criteria.checkSize.status)]

/-! ## The score -/

/-- `DEFAULT_WEIGHTS`. -/
def defaultThesisWeights : Dict ℚ where
  items := [("stage", 30 / 100), ("sector", 40 / 100), ("geography", 20 / 100),
    ("check_size", 10 / 100)]
  nodup := by decide

/-- The weights of a thesis, divided by their total. -/
def thesisWeights (scoringWeights : Option (Dict ℚ)) : Dict ℚ :=
  let weights := defaultThesisWeights.union (scoringWeights.getD .empty)
  weights.mapValues fun value => max 0 value / totalWeight weights

/-- The weight of a criterion. -/
def thesisWeight (scoringWeights : Option (Dict ℚ)) (key : Str) : ℚ :=
  ((thesisWeights scoringWeights).get? key).getD 0

/-- `points`. -/
def CriterionStatus.points : CriterionStatus → ℚ
  | matched => 1
  | failed => 0
  | unknown => 1 / 2

/-- `labels`. -/
def criterionLabels : List (Str × Str) :=
  [("stage", "Stage"), ("sector", "Sector"), ("geography", "Geography"),
    ("check_size", "Check size")]

/-- The labels of the criteria with a status. -/
def labelsWith (statuses : List (Str × CriterionStatus)) (status : CriterionStatus) : List Str :=
  (statuses.filter fun item => item.2 = status).map fun item =>
    (criterionLabels.lookup item.1).getD []

/-- The weighted points of the criteria, at most 0.35 for who is not eligible. -/
def alignmentScore (weight : Str → ℚ) (statuses : List (Str × CriterionStatus))
    (hardEligible : Bool) : ℚ :=
  let score := (statuses.map fun item => weight item.1 * item.2.points).sum
  if hardEligible then score else min score (35 / 100)

/-- `ThesisScore`. -/
structure ThesisScore where
  score : ℚ
  confidence : ℚ
  hardEligible : Bool
  criteria : Criteria
  matched : List Str
  failed : List Str
  unknown : List Str
  evidenceIds : List Str

/-- The mean of the confidences, 0 if there are none. -/
def evidenceConfidence (evidence : List Observation) : ℚ :=
  if evidence = [] then 0 else (evidence.map Observation.confidence).sum / evidence.length

/-- `score_thesis_alignment`. -/
def scoreThesisAlignment (ucd : Ucd) (float : Str → ℚ) (thesis : ThesisMandate)
    (observations : List Observation) : ThesisScore :=
  let weight := thesisWeight thesis.scoringWeights
  let (stage, stageEvidence) := detectStage ucd observations
  let (sectors, sectorEvidence) := detectSectors ucd observations
  let (regions, regionEvidence) := detectRegions ucd observations
  let (requestedCheck, checkEvidence) := detectRequestedCheck ucd float observations
  let excludedMatches := commonNames sectors thesis.excludedSectors
  let criteria : Criteria :=
    { stage := criterion (stageStatus thesis stage).1 thesis.stages stage
        (stageStatus thesis stage).2 stageEvidence true
      sector := criterion (sectorStatus thesis sectors).1 thesis.sectors sectors
        (sectorStatus thesis sectors).2 sectorEvidence (excludedMatches ≠ [])
      geography := criterion (geographyStatus thesis regions).1 thesis.regions regions
        (geographyStatus thesis regions).2 regionEvidence false
      checkSize := criterion (checkStatus thesis requestedCheck).1
        (thesis.checkSizeMinKEur, thesis.checkSizeMaxKEur) requestedCheck
        (checkStatus thesis requestedCheck).2 checkEvidence false }
  let hardEligible := decide (criteria.stage.status ≠ .failed) && decide (excludedMatches = [])
  let knownWeight := ((criteria.statuses.filter fun item => item.2 ≠ .unknown).map fun item =>
    weight item.1).sum
  let relevantEvidence := stageEvidence ++ sectorEvidence ++ regionEvidence ++ checkEvidence
  let confidence := max (15 / 100) (knownWeight * evidenceConfidence relevantEvidence)
  { score := roundTo 4 (alignmentScore weight criteria.statuses hardEligible)
    confidence := roundTo 4 (min 1 confidence)
    hardEligible := hardEligible
    criteria := criteria
    matched := labelsWith criteria.statuses .matched
    failed := labelsWith criteria.statuses .failed
    unknown := labelsWith criteria.statuses .unknown
    evidenceIds := (Dict.ofPairs (relevantEvidence.map fun item =>
      (Uuid.str item.id, ()))).items.map Prod.fst }

/-! ## Bounds -/

section Bounds

variable {scoringWeights : Option (Dict ℚ)} {key : Str} {statuses : List (Str × CriterionStatus)}
  {weight : Str → ℚ} {hardEligible : Bool}

/-- The keys of the criteria. -/
def criterionKeys : List Str := ["stage", "sector", "geography", "check_size"]

lemma thesisWeight_eq : thesisWeight scoringWeights key =
    (((defaultThesisWeights.union (scoringWeights.getD .empty)).get? key).map (max 0)).getD 0 /
      totalWeight (defaultThesisWeights.union (scoringWeights.getD .empty)) := by
  rw [thesisWeight, thesisWeights, Dict.get?_mapValues]
  cases (defaultThesisWeights.union (scoringWeights.getD .empty)).get? key with
  | none => simp
  | some value => rfl

/-- A sum of values that are cut at 0 is not negative. -/
private lemma sum_max_nonneg {α : Type} (f : α → ℚ) (l : List α) :
    0 ≤ (l.map fun x => max 0 (f x)).sum := by
  refine List.sum_nonneg fun x hx => ?_
  obtain ⟨v, -, rfl⟩ := List.mem_map.mp hx
  exact le_max_left 0 (f v)

/-- The total is positive, and no less than the sum. -/
lemma sum_le_totalWeight (w : Dict ℚ) :
    0 < totalWeight w ∧ (w.values.map (max 0)).sum ≤ totalWeight w := by
  have hsum : 0 ≤ (w.values.map (max 0)).sum := sum_max_nonneg id w.values
  unfold totalWeight
  dsimp only
  split_ifs with hzero
  · rw [hzero]
    exact ⟨one_pos, zero_le_one⟩
  · exact ⟨lt_of_le_of_ne hsum (Ne.symm hzero), le_refl _⟩

lemma thesisWeight_nonneg : 0 ≤ thesisWeight scoringWeights key := by
  rw [thesisWeight_eq]
  refine div_nonneg ?_ (sum_le_totalWeight _).1.le
  cases (defaultThesisWeights.union (scoringWeights.getD .empty)).get? key with
  | none => exact le_refl 0
  | some value => exact le_max_left 0 value

/-- The weights of the criteria are together at most 1. -/
lemma sum_thesisWeight_le : (criterionKeys.map (thesisWeight scoringWeights)).sum ≤ 1 := by
  have hkeys : criterionKeys.Nodup := by decide
  have hsum := Dict.sum_eq_sum_get?_add
    (d := defaultThesisWeights.union (scoringWeights.getD .empty)) (max 0) hkeys
  obtain ⟨hpos, hle⟩ := sum_le_totalWeight (defaultThesisWeights.union (scoringWeights.getD .empty))
  have hother := sum_max_nonneg Prod.snd
    ((defaultThesisWeights.union (scoringWeights.getD .empty)).items.filter fun p =>
      decide (p.1 ∉ criterionKeys))
  have hshares : (criterionKeys.map (thesisWeight scoringWeights)).sum =
      (criterionKeys.map fun key =>
        (((defaultThesisWeights.union (scoringWeights.getD .empty)).get? key).map
          (max 0)).getD 0).sum /
        totalWeight (defaultThesisWeights.union (scoringWeights.getD .empty)) := by
    simp only [criterionKeys, List.map_cons, List.map_nil, List.sum_cons, List.sum_nil,
      thesisWeight_eq]
    ring
  rw [hshares, div_le_one hpos]
  linarith

lemma points_mem (status : CriterionStatus) : 0 ≤ status.points ∧ status.points ≤ 1 := by
  cases status <;> norm_num [CriterionStatus.points]

/-- A part of the weights, each with a share between 0 and 1, is between 0 and 1. -/
lemma sum_shares_mem {share : Str → ℚ} (h : ∀ key, 0 ≤ share key ∧ share key ≤ 1) :
    0 ≤ (criterionKeys.map fun key => thesisWeight scoringWeights key * share key).sum ∧
      (criterionKeys.map fun key => thesisWeight scoringWeights key * share key).sum ≤ 1 := by
  constructor
  · refine List.sum_nonneg fun x hx => ?_
    obtain ⟨key, -, rfl⟩ := List.mem_map.mp hx
    exact mul_nonneg thesisWeight_nonneg (h key).1
  · have htotal : (criterionKeys.map (thesisWeight scoringWeights)).sum ≤ 1 := sum_thesisWeight_le
    refine le_trans (List.sum_le_sum fun key _ => ?_) htotal
    exact mul_le_of_le_one_right thesisWeight_nonneg (h key).2

/-- The score grows with the points. -/
lemma alignmentScore_mono {statuses' : List (Str × CriterionStatus)}
    (hweight : ∀ key, 0 ≤ weight key)
    (h : List.Forall₂ (fun a b => a.1 = b.1 ∧ a.2.points ≤ b.2.points) statuses statuses') :
    alignmentScore weight statuses hardEligible ≤ alignmentScore weight statuses' hardEligible := by
  have hsum : (statuses.map fun item => weight item.1 * item.2.points).sum ≤
      (statuses'.map fun item => weight item.1 * item.2.points).sum := by
    induction h with
    | nil => exact le_refl _
    | cons hitem hrest ih =>
      rw [List.map_cons, List.map_cons, List.sum_cons, List.sum_cons, hitem.1]
      exact add_le_add (mul_le_mul_of_nonneg_left hitem.2 (hweight _)) ih
  unfold alignmentScore
  dsimp only
  split_ifs
  · exact hsum
  · exact min_le_min_right _ hsum

/-- Each criterion is in one of the lists. -/
lemma perm_labelsWith (statuses : List (Str × CriterionStatus)) :
    (labelsWith statuses .matched ++ labelsWith statuses .failed ++
      labelsWith statuses .unknown).Perm
        (statuses.map fun item => (criterionLabels.lookup item.1).getD []) := by
  induction statuses with
  | nil => exact List.Perm.refl _
  | cons item statuses ih =>
    have hcons : ∀ status, labelsWith (item :: statuses) status =
        if item.2 = status then
          (criterionLabels.lookup item.1).getD [] :: labelsWith statuses status
        else labelsWith statuses status := by
      intro status
      by_cases hstatus : item.2 = status <;> simp [labelsWith, hstatus]
    rw [List.map_cons, hcons, hcons, hcons]
    refine List.Perm.trans ?_ (ih.cons _)
    cases hstatus : item.2 with
    | matched => exact List.Perm.refl _
    | failed =>
      rw [if_neg (by decide), if_pos rfl, if_neg (by decide)]
      exact List.perm_middle.append_right _
    | unknown =>
      rw [if_neg (by decide), if_neg (by decide), if_pos rfl]
      exact List.perm_middle

end Bounds

/-! ## The laws of the score -/

section Laws

variable {ucd : Ucd} {float : Str → ℚ} {thesis : ThesisMandate} {observations : List Observation}

private lemma sum_statuses (weight : Str → ℚ) (share : CriterionStatus → ℚ) (criteria : Criteria) :
    (criteria.statuses.map fun item => weight item.1 * share item.2).sum =
      (criterionKeys.map fun key => weight key *
        share ((criteria.statuses.lookup key).getD .failed)).sum := by
  rfl

/-- The criteria of the second are as good as those of the first, or better. -/
def NoWorse (criteria criteria' : Criteria) : Prop :=
  List.Forall₂ (fun a b => a.1 = b.1 ∧ a.2.points ≤ b.2.points) criteria.statuses
    criteria'.statuses

/-- The score before it is rounded. -/
lemma score_eq : (scoreThesisAlignment ucd float thesis observations).score =
    roundTo 4 (alignmentScore (thesisWeight thesis.scoringWeights)
      (scoreThesisAlignment ucd float thesis observations).criteria.statuses
      (scoreThesisAlignment ucd float thesis observations).hardEligible) := rfl

lemma alignmentScore_mem (criteria : Criteria) (hardEligible : Bool) :
    0 ≤ alignmentScore (thesisWeight thesis.scoringWeights) criteria.statuses hardEligible ∧
      alignmentScore (thesisWeight thesis.scoringWeights) criteria.statuses hardEligible ≤ 1 := by
  have hsum : 0 ≤ (criterionKeys.map fun key => thesisWeight thesis.scoringWeights key *
        ((criteria.statuses.lookup key).getD .failed).points).sum ∧
      (criterionKeys.map fun key => thesisWeight thesis.scoringWeights key *
        ((criteria.statuses.lookup key).getD .failed).points).sum ≤ 1 :=
    sum_shares_mem fun key => points_mem ((criteria.statuses.lookup key).getD .failed)
  rw [← sum_statuses] at hsum
  unfold alignmentScore
  dsimp only
  split_ifs
  · exact hsum
  · exact ⟨le_min hsum.1 (by norm_num), (min_le_left _ _).trans hsum.2⟩

lemma score_mem : 0 ≤ (scoreThesisAlignment ucd float thesis observations).score ∧
    (scoreThesisAlignment ucd float thesis observations).score ≤ 1 := by
  obtain ⟨hlow, hhigh⟩ := @alignmentScore_mem thesis
    (scoreThesisAlignment ucd float thesis observations).criteria
    (scoreThesisAlignment ucd float thesis observations).hardEligible
  rw [score_eq]
  exact ⟨(roundTo_zero 4).symm.le.trans (roundTo_mono 4 hlow),
    (roundTo_mono 4 hhigh).trans (roundTo_one 4).le⟩

lemma thesisConfidence_mem :
    15 / 100 ≤ (scoreThesisAlignment ucd float thesis observations).confidence ∧
      (scoreThesisAlignment ucd float thesis observations).confidence ≤ 1 := by
  have hround : roundTo 4 (15 / 100) = 15 / 100 := by decide +kernel
  constructor
  · rw [← hround]
    exact roundTo_mono 4 (le_min (by norm_num) (le_max_left _ _))
  · rw [← roundTo_one 4]
    exact roundTo_mono 4 (min_le_left _ _)

lemma commonNames_eq_nil_iff {detected selected : List Str} :
    commonNames detected selected = [] ↔ ¬ ∃ name ∈ detected, name ∈ selected := by
  rw [List.eq_nil_iff_forall_not_mem]
  simp only [commonNames, mem_sortedSet, List.mem_filter, decide_eq_true_eq, not_exists]

lemma hardEligible_eq_false_iff :
    (scoreThesisAlignment ucd float thesis observations).hardEligible = false ↔
      (scoreThesisAlignment ucd float thesis observations).criteria.stage.status = .failed ∨
        ∃ sector ∈ (detectSectors ucd observations).1, sector ∈ thesis.excludedSectors := by
  have hdef : (scoreThesisAlignment ucd float thesis observations).hardEligible =
      (decide
          ((scoreThesisAlignment ucd float thesis observations).criteria.stage.status ≠ .failed) &&
        decide (commonNames (detectSectors ucd observations).1 thesis.excludedSectors = [])) := rfl
  rw [hdef, Bool.and_eq_false_iff, decide_eq_false_iff_not, decide_eq_false_iff_not, not_not,
    commonNames_eq_nil_iff, not_not]

lemma score_le_of_not_eligible
    (h : (scoreThesisAlignment ucd float thesis observations).hardEligible = false) :
    (scoreThesisAlignment ucd float thesis observations).score ≤ 35 / 100 := by
  have hround : roundTo 4 (35 / 100) = 35 / 100 := by decide +kernel
  rw [score_eq, h, ← hround]
  exact roundTo_mono 4 (min_le_right _ _)

/-- **The score of a thesis.** It is between 0 and 1, and the confidence between 0.15 and 1. A
candidate is not eligible exactly if the stage fails or an excluded sector is found, and then the
score is at most 0.35. Each criterion is matched, failed or unknown. Criteria that get better raise
the score or keep it, if the eligibility is the same.

**Proof sketch.** The weights of the criteria are not negative and at most 1 together, and the score
is the sum of the weights with shares between 0 and 1. Rounding keeps the order. -/
theorem alignment_laws (ucd : Ucd) (float : Str → ℚ) (thesis : ThesisMandate)
    (observations : List Observation) :
    let result := scoreThesisAlignment ucd float thesis observations
    (0 ≤ result.score ∧ result.score ≤ 1) ∧
      (15 / 100 ≤ result.confidence ∧ result.confidence ≤ 1) ∧
      (result.hardEligible = false ↔ result.criteria.stage.status = .failed ∨
        ∃ sector ∈ (detectSectors ucd observations).1, sector ∈ thesis.excludedSectors) ∧
      (result.hardEligible = false → result.score ≤ 35 / 100) ∧
      (result.matched ++ result.failed ++ result.unknown).Perm
        ["Stage", "Sector", "Geography", "Check size"] ∧
      ∀ (thesis' : ThesisMandate) (observations' : List Observation),
        thesis'.scoringWeights = thesis.scoringWeights →
        let result' := scoreThesisAlignment ucd float thesis' observations'
        result'.hardEligible = result.hardEligible → NoWorse result.criteria result'.criteria →
        result.score ≤ result'.score := by
  refine ⟨score_mem, thesisConfidence_mem, hardEligible_eq_false_iff, score_le_of_not_eligible,
    perm_labelsWith _, fun thesis' observations' hweights heligible hbetter => ?_⟩
  rw [score_eq, score_eq, hweights, heligible]
  exact roundTo_mono 4 (alignmentScore_mono (fun _ => thesisWeight_nonneg) hbetter)

end Laws

/-! ## Seed and pre-seed -/

section Stages

variable (ucd : Ucd)

/-- The ways to write pre-seed. -/
def preSeedForms : List Str := ["pre-seed", "pre seed", "preseed"]

/-- The word `seed` occurs in a text only as part of a way to write pre-seed. -/
def OnlyPreSeed (text : Str) : Prop :=
  ∀ front back, text = front ++ "seed".toList ++ back →
    ∃ start ∈ ["pre-".toList, "pre ".toList, "pre".toList], start <:+ front

/-- A text names no series round. -/
def NamesNoSeries (text : Str) : Prop :=
  ∀ phrase ∈ ["series a", "series-a", "series b", "series-b", "series c", "series-c"],
    ¬ phrase.toList <:+: text

instance (text : Str) : Decidable (NamesNoSeries text) :=
  inferInstanceAs (Decidable (∀ phrase ∈ ["series a", "series-a", "series b", "series-b",
    "series c", "series-c"], ¬ phrase.toList <:+: text))

/-- The stage is not detected as seed, and no thesis judges it so. -/
def NeverSeed (observations : List Observation) : Prop :=
  (detectStage ucd observations).1 ≠ some "seed".toList ∧
    ∀ float thesis, (scoreThesisAlignment ucd float thesis observations).criteria.stage.observed ≠
      some "seed".toList

variable {ucd} {text : Str} {observations : List Observation}

lemma onlyPreSeed_of_take (h : ∀ i < text.length, "seed".toList <+: text.drop i →
    ∃ start ∈ ["pre-".toList, "pre ".toList, "pre".toList], start <:+ text.take i) :
    OnlyPreSeed text := by
  rintro front back rfl
  have htake := h front.length (by simp) (by simp [List.append_assoc])
  rwa [List.append_assoc, List.take_left] at htake

/-- The phrases for seed. -/
private def seedGroup : Str × List Str := ("seed", ["seed round", "seed-stage", " seed "])

/-- Without a series round, the stage is seed exactly if a phrase for seed occurs. -/
lemma detectStage_eq_seed_iff
    (h : NamesNoSeries (relevantText ucd stagePredicates observations)) :
    (detectStage ucd observations).1 = some "seed".toList ↔
      ∃ phrase ∈ ["seed round".toList, "seed-stage".toList, " seed ".toList],
        phrase <:+: relevantText ucd stagePredicates observations := by
  unfold detectStage
  generalize relevantText ucd stagePredicates observations = text at h ⊢
  dsimp only
  have hskip : ∀ group ∈ stagePatterns.take 3, decide (Names group text) ≠ true := by
    intro group hgroup hnames
    obtain ⟨phrase, hphrase, hwithin⟩ := of_decide_eq_true hnames
    have hseries : ∀ group ∈ stagePatterns.take 3, ∀ phrase ∈ group.2, ∃ p ∈
        ["series a", "series-a", "series b", "series-b", "series c", "series-c"],
          p.toList = phrase := by decide
    obtain ⟨p, hp, rfl⟩ := hseries group hgroup phrase hphrase
    exact h p hp hwithin
  have hsplit : stagePatterns = stagePatterns.take 3 ++ seedGroup :: stagePatterns.drop 4 := rfl
  rw [hsplit, List.find?_append, List.find?_eq_none.mpr hskip, Option.none_or]
  by_cases hseed : Names seedGroup text
  · have hfound : (seedGroup :: stagePatterns.drop 4).find? (fun group =>
        decide (Names group text)) = some seedGroup :=
      List.find?_cons_of_pos (decide_eq_true hseed)
    rw [hfound]
    exact iff_of_true rfl hseed
  · have hrest : (seedGroup :: stagePatterns.drop 4).find? (fun group =>
        decide (Names group text)) =
          (stagePatterns.drop 4).find? (fun group => decide (Names group text)) :=
      List.find?_cons_of_neg (by rwa [decide_eq_true_eq])
    rw [hrest]
    refine iff_of_false (fun hfound => ?_) hseed
    obtain ⟨group, hgroup, hname⟩ := Option.map_eq_some_iff.mp hfound
    have hnames : ∀ group ∈ stagePatterns.drop 4, group.1 ≠ "seed".toList := by decide
    exact hnames group (List.mem_of_find?_eq_some hgroup) hname

/-- What follows the word `seed` follows a way to write pre-seed. -/
lemma infix_seed_iff (h : OnlyPreSeed text) (tail : Str) :
    "seed".toList ++ tail <:+: text ↔ ∃ form ∈ preSeedForms, form ++ tail <:+: text := by
  have hforms : ∀ start ∈ ["pre-".toList, "pre ".toList, "pre".toList],
      start ++ "seed".toList ∈ preSeedForms := by decide
  have hends : ∀ form ∈ preSeedForms, "seed".toList <:+ form := by decide
  constructor
  · rintro ⟨front, back, rfl⟩
    obtain ⟨start, hstart, init, rfl⟩ := h front (tail ++ back) (by simp)
    exact ⟨_, hforms start hstart, init, back, by simp⟩
  · rintro ⟨form, hform, hwithin⟩
    obtain ⟨start, rfl⟩ := hends form hform
    rw [List.append_assoc] at hwithin
    exact (List.suffix_append start _).isInfix.trans hwithin

/-- The word `seed` between spaces is part of `pre seed`. -/
lemma infix_spaced_seed_iff (h : OnlyPreSeed text) :
    " seed ".toList <:+: text ↔ "pre seed ".toList <:+: text := by
  constructor
  · rintro ⟨front, back, rfl⟩
    obtain ⟨start, hstart, init, hinit⟩ := h (front ++ [' ']) (' ' :: back) (by simp)
    have hspace : start.getLast? = some ' ' := by
      have hlast := congrArg List.getLast? hinit
      have hne : start ≠ [] := by
        rintro rfl
        exact absurd hstart (by decide)
      rwa [List.getLast?_append_of_ne_nil _ hne, List.getLast?_concat] at hlast
    have hpre : ∀ start ∈ ["pre-".toList, "pre ".toList, "pre".toList],
        start.getLast? = some ' ' → start = "pre ".toList := by decide
    obtain rfl := hpre start hstart hspace
    refine ⟨init, back, ?_⟩
    have hwhole := congrArg (· ++ ("seed ".toList ++ back)) hinit
    simpa using hwhole
  · have hsuffix : " seed ".toList <:+ "pre seed ".toList := by decide
    exact fun hwithin => hsuffix.isInfix.trans hwithin

/-- **Seed and pre-seed.** A text in which `seed` stands for pre-seed only, and that names no series
round, is not taken for a seed one exactly if no way to write pre-seed is followed by ` round` or
`-stage` and `pre seed` is not followed by a space.

**Proof sketch.** The phrases for seed are found before those for pre-seed are looked for. Each of
them contains the word, and the word stands behind one of the three beginnings. -/
theorem neverSeed_iff (ucd : Ucd) (observations : List Observation)
    (hseed : OnlyPreSeed (relevantText ucd stagePredicates observations))
    (hseries : NamesNoSeries (relevantText ucd stagePredicates observations)) :
    NeverSeed ucd observations ↔
      (∀ form ∈ preSeedForms, ∀ tail ∈ [" round".toList, "-stage".toList],
        ¬ form ++ tail <:+: relevantText ucd stagePredicates observations) ∧
      ¬ "pre seed ".toList <:+: relevantText ucd stagePredicates observations := by
  have hdetect : NeverSeed ucd observations ↔
      (detectStage ucd observations).1 ≠ some "seed".toList :=
    ⟨fun h => h.1, fun h => ⟨h, fun _ _ => h⟩⟩
  have hround : "seed round".toList = "seed".toList ++ " round".toList := by decide
  have hstage : "seed-stage".toList = "seed".toList ++ "-stage".toList := by decide
  rw [hdetect, ne_eq, detectStage_eq_seed_iff hseries]
  simp only [List.mem_cons, List.not_mem_nil, or_false, exists_eq_or_imp, exists_eq_left,
    forall_eq_or_imp, forall_eq, hround, hstage, infix_seed_iff hseed,
    infix_spaced_seed_iff hseed]
  constructor
  · intro h
    refine ⟨fun form hform => ⟨fun hwithin => ?_, fun hwithin => ?_⟩, fun hwithin => ?_⟩
    · exact h (Or.inl ⟨form, hform, hwithin⟩)
    · exact h (Or.inr (Or.inl ⟨form, hform, hwithin⟩))
    · exact h (Or.inr (Or.inr hwithin))
  · rintro ⟨hforms, hspace⟩ (⟨form, hform, hwithin⟩ | ⟨form, hform, hwithin⟩ | hwithin)
    · exact (hforms form hform).1 hwithin
    · exact (hforms form hform).2 hwithin
    · exact hspace hwithin

/-- A stage that a pitch deck names. -/
def stageObservation (value : Str) : Observation where
  id := 7
  snapshotId := 1
  subjectId := some 2
  opportunityId := none
  predicate := "pitch_deck_stage"
  objectValue := value
  observedAt := 0
  extractorVersion := "pitch_deck-v1"
  createdAt := 0

/-- A stage of pre-seed is not taken for seed. -/
theorem neverSeed_preSeed : NeverSeed .ascii [stageObservation "Pre-seed, 2026"] :=
  (neverSeed_iff .ascii [stageObservation "Pre-seed, 2026"]
    (onlyPreSeed_of_take (by decide +kernel))
    (by decide +kernel)).mpr (by decide +kernel)

/-- A pre-seed round is. -/
theorem seed_of_preSeed_round : ¬ ∀ (ucd : Ucd) (observations : List Observation),
    OnlyPreSeed (relevantText ucd stagePredicates observations) →
    NamesNoSeries (relevantText ucd stagePredicates observations) →
    NeverSeed ucd observations := by
  intro h
  refine (h .ascii [stageObservation "Pre-seed round"] (onlyPreSeed_of_take (by decide +kernel))
    (by decide +kernel)).1 (by decide +kernel)

end Stages

end VCBrain