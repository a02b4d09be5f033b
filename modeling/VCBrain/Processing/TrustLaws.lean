import VCBrain.Processing.Trust

set_option relaxedAutoImplicit false
set_option autoImplicit false

/-!
# Laws of the trust score

The trust score lies inside its interval, a contradiction does not raise it, and neither the score
nor the lower end of the interval falls when an observation becomes more certain.

## Main definitions

* `trustScore`, `trustWidth` — the score and the width of its interval before rounding.

## Main results

* `trustForObservations_bounds` — the score lies in its interval, and both in the unit interval.
* `trust_laws` — the three laws together.

## Design

The score is a sum of a part that does not look at the confidences, a fifth of their mean and a
penalty; the width falls with the mean. So the laws hold before rounding, and rounding keeps the
order.
-/

namespace VCBrain

/-! ## The score before rounding -/

section Parts

variable (now : Time) (observations : List Observation)

/-- The part of the score that does not look at the confidences. -/
def trustBase : ℚ :=
  let sourceKinds := (observations.map sourceKind).dedup
  2 / 10 * mean (sourceKinds.map authorityOf) +
    1 / 10 * (if ∃ kind ∈ sourceKinds,
        kind ∈ ([("inbound" : Str), ("github" : Str), ("public" : Str)])
      then 8 / 10 else 1 / 2) +
    1 / 10 * min 1 ((sourceKinds.length : ℚ) / 2) +
    15 / 100 * min 1 ((observations.length : ℚ) / 3) +
    15 / 100 * mean (observations.map fun obs =>
      max (1 / 2) (1 - (max 0 (daysBetween now obs.observedAt) : ℤ) / 365)) +
    1 / 10 * (1 / 2)

/-- The mean confidence. -/
def meanConfidence : ℚ := mean (observations.map fun obs => max 0 (min 1 obs.confidence))

/-- The score before rounding. -/
def trustScore (contradicted : Bool) : ℚ :=
  max 0 (min 1 (trustBase now observations + 2 / 10 * meanConfidence observations -
    if contradicted then 2 / 10 else 0))

/-- Half the length of the interval around the score. -/
def trustWidth : ℚ :=
  max (1 / 10)
    (35 / 100 - 2 / 10 * meanConfidence observations -
      1 / 10 * min 1 ((observations.length : ℚ) / 3))

end Parts

variable {now : Time} {observations : List Observation} {contradicted : Bool}

lemma trustForObservations_score :
    (trustForObservations now observations contradicted).score =
      roundTo 4 (trustScore now observations contradicted) := by
  unfold trustForObservations trustScore trustBase meanConfidence
  dsimp only
  congr 3
  ring

lemma trustForObservations_low :
    (trustForObservations now observations contradicted).low =
      roundTo 4 (max 0 (trustScore now observations contradicted - trustWidth observations)) := by
  unfold trustForObservations trustScore trustBase trustWidth meanConfidence
  dsimp only
  congr 6
  ring

lemma trustForObservations_high :
    (trustForObservations now observations contradicted).high =
      roundTo 4 (min 1 (trustScore now observations contradicted + trustWidth observations)) := by
  unfold trustForObservations trustScore trustBase trustWidth meanConfidence
  dsimp only
  congr 6
  ring

/-! ## The interval -/

lemma trustScore_nonneg (now : Time) (observations : List Observation) (contradicted : Bool) :
    0 ≤ trustScore now observations contradicted := le_max_left _ _

lemma trustScore_le_one (now : Time) (observations : List Observation) (contradicted : Bool) :
    trustScore now observations contradicted ≤ 1 :=
  max_le zero_le_one (min_le_left _ _)

lemma trustWidth_pos (observations : List Observation) : 0 < trustWidth observations :=
  lt_of_lt_of_le (by norm_num) (le_max_left _ _)

/-- **The interval.** The score lies in its interval, and the interval in the unit interval.

**Proof sketch.** Before rounding this holds because the width is positive and the ends are cut at
zero and one. Rounding keeps the order and keeps zero and one. -/
lemma trustForObservations_bounds :
    0 ≤ (trustForObservations now observations contradicted).low ∧
      (trustForObservations now observations contradicted).low ≤
        (trustForObservations now observations contradicted).score ∧
      (trustForObservations now observations contradicted).score ≤
        (trustForObservations now observations contradicted).high ∧
      (trustForObservations now observations contradicted).high ≤ 1 := by
  have hnonneg := trustScore_nonneg now observations contradicted
  have hone := trustScore_le_one now observations contradicted
  have hwidth := trustWidth_pos observations
  rw [trustForObservations_low, trustForObservations_score, trustForObservations_high]
  refine ⟨?_, roundTo_mono 4 ?_, roundTo_mono 4 ?_, ?_⟩
  · calc (0 : ℚ) = roundTo 4 0 := (roundTo_zero 4).symm
      _ ≤ _ := roundTo_mono 4 (le_max_left _ _)
  · exact max_le hnonneg (by linarith)
  · exact le_min hone (by linarith)
  · calc _ ≤ roundTo 4 1 := roundTo_mono 4 (min_le_left _ _)
      _ = 1 := roundTo_one 4

/-! ## Contradiction -/

/-- A contradiction does not raise the score. -/
lemma trustForObservations_contradicted_le :
    (trustForObservations now observations true).score ≤
      (trustForObservations now observations false).score := by
  rw [trustForObservations_score, trustForObservations_score]
  refine roundTo_mono 4 (max_le_max le_rfl (min_le_min le_rfl ?_))
  simp only [if_true, Bool.false_eq_true, if_false]
  linarith

/-! ## More certain observations -/

/-- The observation with another confidence. -/
def Observation.withConfidence (o : Observation) (c : ℚ) : Observation := { o with confidence := c }

section Raised

variable {pre post : List Observation} {o : Observation} {c : ℚ}

/-- A larger element gives a larger mean. -/
lemma mean_le_mean_of_le {xs ys : List ℚ} {a b : ℚ} (h : a ≤ b) :
    mean (xs ++ a :: ys) ≤ mean (xs ++ b :: ys) := by
  unfold mean
  rw [List.length_append, List.length_append, List.length_cons, List.length_cons]
  refine div_le_div_of_nonneg_right ?_ (by positivity)
  simpa using h

/-- The mean confidence rises with each confidence. -/
lemma meanConfidence_le_of_raised (pre post : List Observation) (h : o.confidence ≤ c) :
    meanConfidence (pre ++ o :: post) ≤ meanConfidence (pre ++ o.withConfidence c :: post) := by
  unfold meanConfidence
  rw [List.map_append, List.map_append, List.map_cons, List.map_cons]
  exact mean_le_mean_of_le (max_le_max le_rfl (min_le_min le_rfl h))

/-- Nothing else of the score looks at a confidence. -/
lemma trustBase_raised :
    trustBase now (pre ++ o.withConfidence c :: post) = trustBase now (pre ++ o :: post) := by
  have hkind : sourceKind (o.withConfidence c) = sourceKind o := rfl
  have hobserved : (o.withConfidence c).observedAt = o.observedAt := rfl
  unfold trustBase
  simp only [List.map_append, List.map_cons, List.length_append, List.length_cons, hkind, hobserved]

/-- The score before rounding rises with each confidence. -/
lemma trustScore_le_of_raised (now : Time) (contradicted : Bool) (pre post : List Observation)
    (h : o.confidence ≤ c) :
    trustScore now (pre ++ o :: post) contradicted ≤
      trustScore now (pre ++ o.withConfidence c :: post) contradicted := by
  have hmean := meanConfidence_le_of_raised pre post h
  unfold trustScore
  rw [trustBase_raised]
  exact max_le_max le_rfl (min_le_min le_rfl (by linarith))

/-- The width falls with each confidence. -/
lemma trustWidth_le_of_raised (pre post : List Observation) (h : o.confidence ≤ c) :
    trustWidth (pre ++ o.withConfidence c :: post) ≤ trustWidth (pre ++ o :: post) := by
  have hmean := meanConfidence_le_of_raised pre post h
  have hlength : (pre ++ o.withConfidence c :: post).length = (pre ++ o :: post).length := by simp
  unfold trustWidth
  rw [hlength]
  exact max_le_max le_rfl (by linarith)

/-- Neither the score nor the lower end of its interval falls when a confidence is raised. -/
lemma trustForObservations_le_of_raised (h : o.confidence ≤ c) :
    (trustForObservations now (pre ++ o :: post) contradicted).score ≤
        (trustForObservations now (pre ++ o.withConfidence c :: post) contradicted).score ∧
      (trustForObservations now (pre ++ o :: post) contradicted).low ≤
        (trustForObservations now (pre ++ o.withConfidence c :: post) contradicted).low := by
  have hscore := trustScore_le_of_raised now contradicted pre post h
  have hwidth := trustWidth_le_of_raised pre post h
  rw [trustForObservations_score, trustForObservations_score, trustForObservations_low,
    trustForObservations_low]
  exact ⟨roundTo_mono 4 hscore, roundTo_mono 4 (max_le_max le_rfl (by linarith))⟩

end Raised

/-- **Laws of trust.** For every list of observations and every clock: the score lies in its
interval, inside the unit interval; the score with a contradiction is at most the score without;
and raising one confidence lowers neither the score nor the lower end of the interval.

**Proof sketch.** The three laws are `trustForObservations_bounds`,
`trustForObservations_contradicted_le` and `trustForObservations_le_of_raised`. -/
theorem trust_laws (now : Time) (observations : List Observation) :
    (∀ contradicted, 0 ≤ (trustForObservations now observations contradicted).low ∧
      (trustForObservations now observations contradicted).low ≤
        (trustForObservations now observations contradicted).score ∧
      (trustForObservations now observations contradicted).score ≤
        (trustForObservations now observations contradicted).high ∧
      (trustForObservations now observations contradicted).high ≤ 1) ∧
    (trustForObservations now observations true).score ≤
      (trustForObservations now observations false).score ∧
    ∀ contradicted pre o post c, observations = pre ++ o :: post → o.confidence ≤ c →
      (trustForObservations now observations contradicted).score ≤
        (trustForObservations now (pre ++ o.withConfidence c :: post) contradicted).score ∧
      (trustForObservations now observations contradicted).low ≤
        (trustForObservations now (pre ++ o.withConfidence c :: post) contradicted).low := by
  refine ⟨fun _ => trustForObservations_bounds, trustForObservations_contradicted_le, ?_⟩
  rintro contradicted pre o post c rfl hle
  exact trustForObservations_le_of_raised hle

/-- An observation of a prototype. -/
private def prototypeObservation : Observation where
  id := 1
  snapshotId := 1
  subjectId := none
  opportunityId := none
  predicate := "product_stage"
  objectValue := "prototype"
  observedAt := 0
  extractorVersion := "public-v1"
  confidence := 1 / 4
  createdAt := 0

/-- A prototype that is certain is trusted at least as much as one that is not. -/
theorem trust_laws_prototype :
    (trustForObservations 0 [prototypeObservation] false).score ≤
      (trustForObservations 0 [prototypeObservation.withConfidence 1] false).score :=
  ((trust_laws 0 [prototypeObservation]).2.2 false [] _ [] 1 rfl (by decide +kernel)).1

end VCBrain
