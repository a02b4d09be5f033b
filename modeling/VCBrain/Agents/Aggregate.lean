import Mathlib
import VCBrain.Agents.Critic
import VCBrain.Processing.Trust

set_option relaxedAutoImplicit false
set_option autoImplicit false

/-!
# The aggregated scorecard

`aggregate_assessments` combines the assessments of the specialists with the critique: the scores
of the three dimensions by their weights, and the confidences by their mean.

## Main definitions

* `SpecialistAssessment` — an assessment, with its score and confidence in their bounds.
* `aggregateAssessments` — the scorecard.
* `Scorecard.Bounded` — the bounds that the composite of a scorecard keeps.

## Main results

* `confidence_lowered_le_iff` — when a lower confidence of one agent does not raise the aggregated
  one.
* `aggregate_bounded_iff` — when the composite keeps its bounds.

## Design

Numbers are exact, up to the rounding at the end. A model that was constructed has passed the
validation of its fields, so the bounds of a score and of a confidence are part of the structure.
-/

namespace VCBrain

/-- `AgentAssessment` with all its fields. -/
structure SpecialistAssessment extends AgentAssessment where
  dimension : Str
  score : ℚ
  confidence : ℚ
  unknowns : List Str := []
  recommendation : Str := []
  rationale : Str := []
  validationStatus : ValidationStatus := .passed
  validationErrors : List Str := []
  score_mem : 0 ≤ score ∧ score ≤ 100
  confidence_mem : 0 ≤ confidence ∧ confidence ≤ 1

/-- The assessment with another confidence. -/
def SpecialistAssessment.withConfidence (a : SpecialistAssessment) (confidence : ℚ)
    (h : 0 ≤ confidence ∧ confidence ≤ 1) : SpecialistAssessment :=
  { a with confidence := confidence, confidence_mem := h }

/-- `Scorecard`. -/
structure Scorecard where
  execution : ℚ
  technical : ℚ
  commercial : ℚ
  composite : ℚ
  confidence : ℚ
  hardEligible : Bool
  critique : List Issue
  agents : Dict SpecialistAssessment
  validatorStatus : ValidationStatus
  validationErrors : List Str

/-- A critique with a hard issue. -/
def Critique.Hard (critique : Critique) : Prop := ∃ i ∈ critique.issues, i.severity = "hard".toList

instance (critique : Critique) : Decidable critique.Hard :=
  inferInstanceAs (Decidable (∃ i ∈ critique.issues, i.severity = "hard".toList))

/-! ## Weights -/

/-- The keys that the aggregator reads. -/
def dimensions : List Str := ["execution", "technical", "commercial"]

/-- `_DEFAULT_WEIGHTS`. -/
def defaultWeights : Dict ℚ where
  items := [("execution", 35 / 100), ("technical", 30 / 100), ("commercial", 35 / 100)]
  nodup := by decide

/-- `{**_DEFAULT_WEIGHTS, **(weights or {})}`. -/
def mergedWeights (weights : Option (Dict ℚ)) : Dict ℚ :=
  defaultWeights.union (weights.getD .empty)

/-- `sum(max(0.0, v) for v in w.values()) or 1.0`. -/
def totalWeight (w : Dict ℚ) : ℚ :=
  let total := (w.values.map (max 0)).sum
  if total = 0 then 1 else total

/-- The weights of the three dimensions are always there. -/
lemma isSome_get?_mergedWeights {weights : Option (Dict ℚ)} {dimension : Str}
    (h : dimension ∈ dimensions) : ((mergedWeights weights).get? dimension).isSome := by
  refine Dict.isSome_get?_setAll _ ?_
  have key : (dimensions.all fun dimension => (defaultWeights.get? dimension).isSome) = true := by
    decide
  exact List.all_eq_true.mp key dimension h

/-- The weight of a dimension before it is divided by the total. -/
def weightOf (weights : Option (Dict ℚ)) (dimension : Str) : ℚ :=
  (((mergedWeights weights).get? dimension).map (max 0)).getD 0

/-- What the keys that the aggregator does not read add to the total. -/
def otherWeight (weights : Option (Dict ℚ)) : ℚ :=
  (((mergedWeights weights).items.filter fun item => item.1 ∉ dimensions).map fun item =>
    max 0 item.2).sum

/-! ## The scorecard -/

/-- `by_dim`. -/
def byDimension (assessments : List SpecialistAssessment) : Dict SpecialistAssessment :=
  .ofPairs (assessments.map fun a => (a.dimension, a))

/-- The score of a dimension, neutral if it was not assessed. -/
def dimensionScore (assessments : List SpecialistAssessment) (dimension : Str) : ℚ :=
  (((byDimension assessments).get? dimension).map SpecialistAssessment.score).getD 50

/-- The confidences that count. -/
def positiveConfidences (assessments : List SpecialistAssessment) : List ℚ :=
  (assessments.filter fun a => 0 < a.confidence).map SpecialistAssessment.confidence

/-- The mean of the confidences that count. -/
def meanOrDefault (confidences : List ℚ) : ℚ :=
  if confidences = [] then 15 / 100 else confidences.sum / confidences.length

/-- `validator_status`. -/
def validatorStatus (statuses : List ValidationStatus) : ValidationStatus :=
  if .failed ∈ statuses then .failed
  else if .unavailable ∈ statuses then .unavailable
  else .passed

/-- `aggregate_assessments`. -/
def aggregateAssessments (assessments : List SpecialistAssessment) (critique : Critique)
    (weights : Option (Dict ℚ)) : Scorecard :=
  let merged := mergedWeights weights
  let w := merged.mapValues fun v => max 0 v / totalWeight merged
  let executionScore := dimensionScore assessments "execution"
  let technicalScore := dimensionScore assessments "technical"
  let commercialScore := dimensionScore assessments "commercial"
  let composite := (w.get? "execution").getD 0 * executionScore +
    (w.get? "technical").getD 0 * technicalScore +
    (w.get? "commercial").getD 0 * commercialScore
  let status := validatorStatus
    (assessments.map SpecialistAssessment.validationStatus ++ [critique.validationStatus])
  { execution := roundTo 2 executionScore
    technical := roundTo 2 technicalScore
    commercial := roundTo 2 commercialScore
    composite := roundTo 2 (if critique.Hard then min composite 35 else composite)
    confidence := roundTo 4 (meanOrDefault (positiveConfidences assessments))
    hardEligible := !decide critique.Hard && decide (status = .passed)
    critique := critique.issues
    agents := byDimension assessments
    validatorStatus := status
    validationErrors :=
      assessments.flatMap SpecialistAssessment.validationErrors ++ critique.validationErrors }

/-! ## Confidence -/

section Confidence

variable {assessments pre post : List SpecialistAssessment} {a : SpecialistAssessment}
  {critique : Critique} {weights : Option (Dict ℚ)}

/-- The confidences that count, around one assessment. -/
lemma positiveConfidences_append_cons : positiveConfidences (pre ++ a :: post) =
    positiveConfidences pre ++ (if 0 < a.confidence then [a.confidence] else []) ++
      positiveConfidences post := by
  unfold positiveConfidences
  rw [List.filter_append, List.filter_cons, List.map_append]
  by_cases hpos : 0 < a.confidence <;> simp [hpos]

/-- The mean with one more confidence. -/
lemma meanOrDefault_insert {xs ys : List ℚ} {c : ℚ} :
    (((xs ++ ys).length : ℚ) + 1) * meanOrDefault (xs ++ [c] ++ ys) =
      (xs ++ ys).length * meanOrDefault (xs ++ ys) + c := by
  have hsum : (xs ++ [c] ++ ys).sum = (xs ++ ys).sum + c := by
    simp only [List.sum_append, List.sum_singleton]
    ring
  have hlen : ((xs ++ [c] ++ ys).length : ℚ) = (xs ++ ys).length + 1 := by
    simp only [List.length_append, List.length_singleton]
    push_cast
    ring
  have hpos : ((xs ++ ys).length : ℚ) + 1 ≠ 0 := by positivity
  have hmean : ((xs ++ ys).length : ℚ) * meanOrDefault (xs ++ ys) = (xs ++ ys).sum := by
    unfold meanOrDefault
    split_ifs with hnil
    · simp [hnil]
    · have hne : ((xs ++ ys).length : ℚ) ≠ 0 := by
        exact_mod_cast mt List.length_eq_zero_iff.mp hnil
      field_simp
  have hne : xs ++ [c] ++ ys ≠ [] := by simp
  rw [hmean, meanOrDefault, if_neg hne, hsum, hlen]
  field_simp

/-- The mean grows with each confidence. -/
lemma meanOrDefault_mono {xs ys : List ℚ} {c d : ℚ} (h : c ≤ d) :
    meanOrDefault (xs ++ [c] ++ ys) ≤ meanOrDefault (xs ++ [d] ++ ys) := by
  have hpos : (0 : ℚ) < ((xs ++ ys).length : ℚ) + 1 := by positivity
  refine le_of_mul_le_mul_left ?_ hpos
  rw [meanOrDefault_insert, meanOrDefault_insert]
  linarith

/-- A mean of confidences is a confidence. -/
lemma meanOrDefault_mem {xs : List ℚ} (h : ∀ x ∈ xs, 0 ≤ x ∧ x ≤ 1) :
    0 ≤ meanOrDefault xs ∧ meanOrDefault xs ≤ 1 := by
  unfold meanOrDefault
  split_ifs with hnil
  · norm_num
  · have hlen : (0 : ℚ) < xs.length := by
      exact_mod_cast List.length_pos_iff.mpr hnil
    have hsum : xs.sum ≤ xs.length • (1 : ℚ) := List.sum_le_card_nsmul xs 1 fun x hx => (h x hx).2
    refine ⟨div_nonneg (List.sum_nonneg fun x hx => (h x hx).1) hlen.le, ?_⟩
    rw [div_le_one hlen]
    simpa using hsum

/-- The aggregated confidence is a confidence. -/
lemma confidence_mem : 0 ≤ (aggregateAssessments assessments critique weights).confidence ∧
    (aggregateAssessments assessments critique weights).confidence ≤ 1 := by
  obtain ⟨hlow, hhigh⟩ := @meanOrDefault_mem (positiveConfidences assessments) fun x hx => by
    obtain ⟨a, -, rfl⟩ := List.mem_map.mp hx
    exact a.confidence_mem
  exact ⟨(roundTo_zero 4).symm.trans_le (roundTo_mono 4 hlow),
    (roundTo_mono 4 hhigh).trans_eq (roundTo_one 4)⟩

/-- An assessment of a dimension. -/
def assessmentOf (dimension : Str) (score confidence : ℚ) (hscore : 0 ≤ score ∧ score ≤ 100)
    (hconfidence : 0 ≤ confidence ∧ confidence ≤ 1) : SpecialistAssessment where
  dimension := dimension
  score := score
  confidence := confidence
  score_mem := hscore
  confidence_mem := hconfidence

/-- Two confident agents and one that has hardly any evidence. -/
def unevenAssessments : List SpecialistAssessment :=
  [assessmentOf "execution" 80 (8 / 10) (by norm_num) (by norm_num),
    assessmentOf "technical" 60 (8 / 10) (by norm_num) (by norm_num)]

/-- The third one. -/
def unsureAssessment : SpecialistAssessment :=
  assessmentOf "commercial" 50 (2 / 10) (by norm_num) (by norm_num)

end Confidence

/-! ## Bounds of the composite -/

/-- The bounds of a composite and what eligibility stands for. -/
structure Scorecard.Bounded (card : Scorecard) (assessments : List SpecialistAssessment)
    (critique : Critique) : Prop where
  percent : 0 ≤ card.composite ∧ card.composite ≤ 100
  between : ¬ critique.Hard →
    min card.execution (min card.technical card.commercial) ≤ card.composite ∧
      card.composite ≤ max card.execution (max card.technical card.commercial)
  capped : critique.Hard → card.composite ≤ 35
  eligible : card.hardEligible = true ↔ ¬ critique.Hard ∧
    (∀ a ∈ assessments, a.validationStatus = .passed) ∧ critique.validationStatus = .passed

section Bounds

variable {assessments : List SpecialistAssessment} {critique : Critique}
  {weights : Option (Dict ℚ)}

/-- The validator passes exactly if everything it looks at did. -/
lemma validatorStatus_eq_passed_iff {statuses : List ValidationStatus} :
    validatorStatus statuses = .passed ↔ ∀ status ∈ statuses, status = .passed := by
  unfold validatorStatus
  split_ifs with hfailed hunavailable
  · exact iff_of_false nofun fun h => absurd (h _ hfailed) nofun
  · exact iff_of_false nofun fun h => absurd (h _ hunavailable) nofun
  · refine iff_of_true rfl fun status hstatus => ?_
    cases status with
    | passed => rfl
    | failed => exact absurd hstatus hfailed
    | unavailable => exact absurd hstatus hunavailable

/-- Eligibility is what it stands for. -/
lemma hardEligible_iff : (aggregateAssessments assessments critique weights).hardEligible = true ↔
    ¬ critique.Hard ∧ (∀ a ∈ assessments, a.validationStatus = .passed) ∧
      critique.validationStatus = .passed := by
  show (!decide critique.Hard && decide (validatorStatus _ = .passed)) = true ↔ _
  rw [Bool.and_eq_true, Bool.not_eq_true', decide_eq_false_iff_not, decide_eq_true_iff,
    validatorStatus_eq_passed_iff]
  simp [or_imp, forall_and]

lemma weightOf_nonneg (dimension : Str) : 0 ≤ weightOf weights dimension := by
  unfold weightOf
  cases (mergedWeights weights).get? dimension with
  | none => exact le_refl _
  | some v => exact le_max_left 0 v

lemma otherWeight_nonneg : 0 ≤ otherWeight weights := by
  refine List.sum_nonneg fun x hx => ?_
  obtain ⟨item, -, rfl⟩ := List.mem_map.mp hx
  exact le_max_left 0 item.2

/-- The sum over the three dimensions by their weights. -/
def weightedSum (weights : Option (Dict ℚ)) (value : Str → ℚ) : ℚ :=
  weightOf weights "execution" * value "execution" +
    weightOf weights "technical" * value "technical" +
    weightOf weights "commercial" * value "commercial"

/-- The smallest of the three scores. -/
def lowestScore (assessments : List SpecialistAssessment) : ℚ :=
  min (dimensionScore assessments "execution")
    (min (dimensionScore assessments "technical") (dimensionScore assessments "commercial"))

/-- The largest of the three scores. -/
def highestScore (assessments : List SpecialistAssessment) : ℚ :=
  max (dimensionScore assessments "execution")
    (max (dimensionScore assessments "technical") (dimensionScore assessments "commercial"))

/-- The composite before the cap and the rounding. -/
def rawComposite (assessments : List SpecialistAssessment) (weights : Option (Dict ℚ)) : ℚ :=
  weightedSum weights (dimensionScore assessments) / totalWeight (mergedWeights weights)

/-- A dimension has a score from 0 to 100. -/
lemma dimensionScore_mem (dimension : Str) : 0 ≤ dimensionScore assessments dimension ∧
    dimensionScore assessments dimension ≤ 100 := by
  unfold dimensionScore
  cases (byDimension assessments).get? dimension with
  | none => norm_num
  | some a => exact a.score_mem

/-- The sum of all weights, by key. -/
lemma sum_weights : ((mergedWeights weights).values.map (max 0)).sum =
    weightOf weights "execution" + weightOf weights "technical" +
      weightOf weights "commercial" + otherWeight weights := by
  rw [(mergedWeights weights).sum_eq_sum_get?_add (max 0) (show dimensions.Nodup by decide),
    otherWeight]
  simp only [dimensions, weightOf, List.map_cons, List.map_nil, List.sum_cons, List.sum_nil]
  ring

/-- The weights of the three dimensions and of the other keys make up the total. -/
lemma totalWeight_merged
    (h : 0 < weightOf weights "execution" + weightOf weights "technical" +
      weightOf weights "commercial") :
    totalWeight (mergedWeights weights) = weightOf weights "execution" +
      weightOf weights "technical" + weightOf weights "commercial" + otherWeight weights := by
  have hother : 0 ≤ otherWeight weights := otherWeight_nonneg
  have hne : ((mergedWeights weights).values.map (max 0)).sum ≠ 0 := by
    rw [sum_weights]
    linarith
  rw [totalWeight, if_neg hne, sum_weights]

/-- The total is positive, and the weights of the three dimensions are part of it. -/
lemma totalWeight_pos : 0 < totalWeight (mergedWeights weights) ∧
    weightOf weights "execution" + weightOf weights "technical" + weightOf weights "commercial" ≤
      totalWeight (mergedWeights weights) := by
  have hother : 0 ≤ otherWeight weights := otherWeight_nonneg
  have hexecution := @weightOf_nonneg weights "execution"
  have htechnical := @weightOf_nonneg weights "technical"
  have hcommercial := @weightOf_nonneg weights "commercial"
  have hsum := @sum_weights weights
  rw [totalWeight]
  split_ifs with hzero
  · exact ⟨one_pos, by linarith⟩
  · exact ⟨lt_of_le_of_ne (by linarith) (Ne.symm hzero), by linarith⟩

lemma get?_normalized (dimension : Str) :
    (((mergedWeights weights).mapValues fun v => max 0 v / totalWeight (mergedWeights weights)).get?
      dimension).getD 0 = weightOf weights dimension / totalWeight (mergedWeights weights) := by
  rw [Dict.get?_mapValues, weightOf]
  cases (mergedWeights weights).get? dimension with
  | none => exact (zero_div _).symm
  | some v => rfl

/-- A number in percent is one after rounding. -/
lemma roundTo_mem_percent {x : ℚ} (h : 0 ≤ x ∧ x ≤ 100) : 0 ≤ roundTo 2 x ∧ roundTo 2 x ≤ 100 :=
  ⟨(roundTo_zero 2).symm.trans_le (roundTo_mono 2 h.1),
    (roundTo_mono 2 h.2).trans_eq (roundTo_intCast 2 100)⟩

/-- The composite of the scorecard. -/
lemma composite_eq : (aggregateAssessments assessments critique weights).composite =
    roundTo 2 (if critique.Hard then min (rawComposite assessments weights) 35
      else rawComposite assessments weights) := by
  have hraw : rawComposite assessments weights =
      weightOf weights "execution" / totalWeight (mergedWeights weights) *
          dimensionScore assessments "execution" +
        weightOf weights "technical" / totalWeight (mergedWeights weights) *
          dimensionScore assessments "technical" +
        weightOf weights "commercial" / totalWeight (mergedWeights weights) *
          dimensionScore assessments "commercial" := by
    rw [rawComposite, weightedSum]
    ring
  rw [hraw, aggregateAssessments]
  simp only [get?_normalized]

/-- The scorecard has the rounded smallest score. -/
lemma min_scores : min (aggregateAssessments assessments critique weights).execution
    (min (aggregateAssessments assessments critique weights).technical
      (aggregateAssessments assessments critique weights).commercial) =
    roundTo 2 (lowestScore assessments) := by
  rw [lowestScore, (roundTo_mono 2).map_min, (roundTo_mono 2).map_min]
  rfl

/-- The scorecard has the rounded largest score. -/
lemma max_scores : max (aggregateAssessments assessments critique weights).execution
    (max (aggregateAssessments assessments critique weights).technical
      (aggregateAssessments assessments critique weights).commercial) =
    roundTo 2 (highestScore assessments) := by
  rw [highestScore, (roundTo_mono 2).map_max, (roundTo_mono 2).map_max]
  rfl

/-- A weighted sum grows with its values. -/
lemma weightedSum_mono {f g : Str → ℚ} (h : ∀ dimension ∈ dimensions, f dimension ≤ g dimension) :
    weightedSum weights f ≤ weightedSum weights g :=
  add_le_add (add_le_add
    (mul_le_mul_of_nonneg_left (h _ (by decide)) (weightOf_nonneg _))
    (mul_le_mul_of_nonneg_left (h _ (by decide)) (weightOf_nonneg _)))
    (mul_le_mul_of_nonneg_left (h _ (by decide)) (weightOf_nonneg _))

lemma dimensionScore_le_highestScore {dimension : Str} (h : dimension ∈ dimensions) :
    dimensionScore assessments dimension ≤ highestScore assessments := by
  simp only [dimensions, List.mem_cons, List.not_mem_nil, or_false] at h
  rcases h with rfl | rfl | rfl <;> simp [highestScore]

/-- A composite is not negative. -/
lemma rawComposite_nonneg : 0 ≤ rawComposite assessments weights := by
  refine div_nonneg ?_ totalWeight_pos.1.le
  have hzero : weightedSum weights (fun _ => 0) = 0 := by simp [weightedSum]
  rw [← hzero]
  exact weightedSum_mono fun dimension _ => (dimensionScore_mem dimension).1

/-- A composite is at most the largest score. -/
lemma rawComposite_le_highestScore :
    rawComposite assessments weights ≤ highestScore assessments := by
  have hhighest : 0 ≤ highestScore assessments :=
    (dimensionScore_mem "execution").1.trans (dimensionScore_le_highestScore (by decide))
  have hshare := mul_le_mul_of_nonneg_right (@totalWeight_pos weights).2 hhighest
  have hsum : weightedSum weights (dimensionScore assessments) ≤
      weightedSum weights fun _ => highestScore assessments :=
    weightedSum_mono fun dimension hmem => dimensionScore_le_highestScore hmem
  rw [rawComposite, div_le_iff₀ totalWeight_pos.1]
  refine hsum.trans ?_
  rw [weightedSum]
  linarith

lemma rawComposite_le_hundred : rawComposite assessments weights ≤ 100 :=
  rawComposite_le_highestScore.trans
    (max_le (dimensionScore_mem _).2 (max_le (dimensionScore_mem _).2 (dimensionScore_mem _).2))

/-- A composite in percent. -/
lemma composite_mem : 0 ≤ (aggregateAssessments assessments critique weights).composite ∧
    (aggregateAssessments assessments critique weights).composite ≤ 100 := by
  have hzero := @rawComposite_nonneg assessments weights
  have hhundred := @rawComposite_le_hundred assessments weights
  rw [composite_eq]
  split_ifs
  · exact roundTo_mem_percent ⟨le_min hzero (by norm_num), (min_le_left _ _).trans hhundred⟩
  · exact roundTo_mem_percent ⟨hzero, hhundred⟩

section Positive

variable (h : 0 < weightOf weights "execution" + weightOf weights "technical" +
  weightOf weights "commercial")

include h

/-- When the composite is not below the smallest score. -/
lemma lowestScore_le_composite_iff :
    roundTo 2 (lowestScore assessments) ≤ roundTo 2 (rawComposite assessments weights) ↔
      let edge := roundingEdge 2 (lowestScore assessments)
      ClearsEdge 2 (lowestScore assessments) (otherWeight weights * edge)
        (weightedSum weights fun dimension => dimensionScore assessments dimension - edge) := by
  have hpos := (@totalWeight_pos weights).1
  rw [roundTo_le_roundTo_iff]
  refine ClearsEdge.scale hpos ?_
  rw [mul_sub, rawComposite, mul_div_cancel₀ _ hpos.ne', totalWeight_merged h, weightedSum,
    weightedSum]
  ring

/-- **Bounds of the composite.** The composite keeps its bounds exactly if there is a hard issue, or
the weight of keys that are not read pulls it down by no more than the scores are above the smallest
one, up to rounding.

**Proof sketch.** The weights are divided by the total over all keys, so the composite is a weighted
mean of the three scores and of zero, which has the weight of the other keys. -/
theorem aggregate_bounded_iff :
    (aggregateAssessments assessments critique weights).Bounded assessments critique ↔
      critique.Hard ∨
        let edge := roundingEdge 2 (lowestScore assessments)
        ClearsEdge 2 (lowestScore assessments) (otherWeight weights * edge)
          (weightedSum weights fun dimension => dimensionScore assessments dimension - edge) := by
  constructor
  · intro hbounded
    by_cases hhard : critique.Hard
    · exact Or.inl hhard
    · have hbetween := (hbounded.between hhard).1
      rw [min_scores, composite_eq, if_neg hhard] at hbetween
      exact Or.inr ((lowestScore_le_composite_iff h).mp hbetween)
  · intro hcond
    refine ⟨composite_mem, fun hhard => ?_, fun hhard => ?_, hardEligible_iff⟩
    · rw [min_scores, max_scores, composite_eq, if_neg hhard]
      refine ⟨(lowestScore_le_composite_iff h).mpr (hcond.resolve_left hhard), ?_⟩
      exact roundTo_mono 2 rawComposite_le_highestScore
    · rw [composite_eq, if_pos hhard]
      exact (roundTo_mono 2 (min_le_right _ _)).trans_eq (roundTo_intCast 2 35)

end Positive

/-- Without weights of other keys the composite is not below the smallest score. -/
theorem min_scores_le_composite
    (h : 0 < weightOf weights "execution" + weightOf weights "technical" +
      weightOf weights "commercial") (hother : otherWeight weights = 0) (hhard : ¬ critique.Hard) :
    min (aggregateAssessments assessments critique weights).execution
      (min (aggregateAssessments assessments critique weights).technical
        (aggregateAssessments assessments critique weights).commercial) ≤
      (aggregateAssessments assessments critique weights).composite := by
  have hlowest : ∀ dimension ∈ dimensions,
      lowestScore assessments ≤ dimensionScore assessments dimension := by
    intro dimension hmem
    simp only [dimensions, List.mem_cons, List.not_mem_nil, or_false] at hmem
    rcases hmem with rfl | rfl | rfl <;> simp [lowestScore]
  have hsum : weightedSum weights (fun _ => lowestScore assessments) ≤
      weightedSum weights (dimensionScore assessments) := weightedSum_mono hlowest
  have hraw : lowestScore assessments ≤ rawComposite assessments weights := by
    rw [rawComposite, le_div_iff₀ totalWeight_pos.1, totalWeight_merged h, hother]
    refine le_trans (le_of_eq ?_) hsum
    rw [weightedSum]
    ring
  rw [min_scores, composite_eq, if_neg hhard]
  exact roundTo_mono 2 hraw

/-- Weights with a key that the aggregator does not read. -/
def weightsWithNetwork : Dict ℚ where
  items := [("execution", 1), ("technical", 1), ("commercial", 1), ("network", 3)]
  nodup := by decide

/-- Three equal scores. -/
def equalAssessments : List SpecialistAssessment :=
  [assessmentOf "execution" 80 (8 / 10) (by norm_num) (by norm_num),
    assessmentOf "technical" 80 (8 / 10) (by norm_num) (by norm_num),
    assessmentOf "commercial" 80 (8 / 10) (by norm_num) (by norm_num)]

/-- The composite of three scores of 80 is 40. -/
theorem not_aggregate_bounded_network :
    ¬ (aggregateAssessments equalAssessments {} (some weightsWithNetwork)).Bounded
      equalAssessments {} := by
  intro h
  have hbetween := (h.between (by decide)).1
  have hcomposite : (aggregateAssessments equalAssessments {} (some weightsWithNetwork)).composite =
      40 := by
    decide +kernel
  have hlowest : min (aggregateAssessments equalAssessments {} (some weightsWithNetwork)).execution
      (min (aggregateAssessments equalAssessments {} (some weightsWithNetwork)).technical
        (aggregateAssessments equalAssessments {} (some weightsWithNetwork)).commercial) = 80 := by
    decide +kernel
  rw [hcomposite, hlowest] at hbetween
  norm_num at hbetween

/-- By the default weights the composite keeps its bounds. -/
theorem aggregate_bounded_default :
    (aggregateAssessments equalAssessments {} none).Bounded equalAssessments {} :=
  (aggregate_bounded_iff (by decide +kernel)).mpr (Or.inr (Or.inl (by decide +kernel)))

end Bounds

end VCBrain
