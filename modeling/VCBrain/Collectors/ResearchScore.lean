import Mathlib.Algebra.Order.BigOperators.Group.List
import Mathlib.Data.List.ReduceOption
import VCBrain.Collectors.ResearchJob
import VCBrain.Foundation.Substrings

set_option relaxedAutoImplicit false
set_option autoImplicit false

/-!
# The score of a research axis

`score_research_axis` turns an answer of the search provider into a score: relevance, diversity
and number of the results, the subject terms and the words for and against the axis that their
texts contain. This file compares the scores of missing, weak and negative evidence.

## Main definitions

* `SearchResponse` — an answer of the provider as it is scored.
* `scoreResearchAxis` — the score of an axis.
* `SearchResponse.support` — what speaks for the axis; `SearchResponse.append` — the response with
  more text in one result.

## Main results

* `half_le_score_iff` — when an answer without negative phrases scores at least neutral.
* `rating_eq_bearish_iff` — when such an answer is rated bearish.
* `append_negative_score_le_iff` — when a further negative phrase does not raise the score.

## Design

The title, the content and the URL of a result are the texts they are formatted as. A score that
is no number is `none`. Numbers are exact, up to the rounding at the end.
-/

namespace VCBrain

/-- `_AXIS_KEYWORDS`: the positive words and the negative phrases of an axis. -/
def axisKeywords : Axis → List Str × List Str
  | .founder =>
    (["founder", "co-founder", "built", "launched", "led", "scaled", "acquired", "patent",
        "open source", "award"],
      ["fraud", "lawsuit", "misconduct", "controversy", "bankrupt", "sanction"])
  | .market =>
    (["market growth", "cagr", "demand", "adoption", "billion", "funding", "tailwind",
        "expanding"],
      ["shrinking", "saturated", "commoditized", "regulatory risk", "declining demand",
        "crowded"])
  | .ideaMarket =>
    (["customer", "revenue", "pilot", "traction", "contract", "users", "launch",
        "product-market fit", "growth"],
      ["no revenue", "pre-revenue", "shutdown", "pivoted away", "no customers", "stalled"])

/-- An answer of the provider: its text and its results, of which one that is no object is
`none`. -/
structure SearchResponse where
  answer : Str
  results : List (Option SearchResult)

namespace SearchResponse

variable (ucd : Ucd) (response : SearchResponse)

/-- The texts that are searched for words. -/
def texts : List Str :=
  response.answer :: response.results.reduceOption.map fun r => r.title ++ ' ' :: r.content

/-- `corpus`. -/
def corpus : Str := ucd.lower (List.intercalate [' '] response.texts)

/-- The scores of the results, cut at zero and one. -/
def relevances : List ℚ :=
  response.results.reduceOption.filterMap fun r => r.score.map fun score => max 0 (min 1 score)

/-- The host of a URL, matched as `https?://([^/]+)`, without `www.`. -/
def domainOf (url : Str) : Option Str :=
  let rest : Option Str :=
    if "https://".toList <+: url then some (url.drop 8)
    else if "http://".toList <+: url then some (url.drop 7)
    else none
  (rest.map fun rest => rest.takeWhile (· ≠ '/')).bind fun host =>
    if host = [] then none
    else
      let domain := ucd.lower host
      some (if "www.".toList <+: domain then domain.drop 4 else domain)

/-- The different hosts of the results. -/
def domains : List Str :=
  (response.results.reduceOption.filterMap fun r => domainOf ucd r.url).dedup

/-- The occurrences of words in the texts. -/
def occurrences (words : List Str) : ℕ :=
  (words.map fun word => Str.count word (response.corpus ucd)).sum

/-- The subject terms that the texts contain. -/
def termsFound (subjectTerms : List Str) : List Str :=
  subjectTerms.filter fun term => term ≠ [] ∧ ucd.lower term <:+: response.corpus ucd

/-- `identity_match`. -/
def identityMatch (subjectTerms : List Str) : ℚ :=
  min 1 (((response.termsFound ucd subjectTerms).length : ℚ) /
    (max 1 (min 2 subjectTerms.length) : ℕ))

end SearchResponse

/-- What `score_research_axis` returns. -/
structure ResearchScore where
  score : ℚ
  confidence : ℚ
  relevance : ℚ
  sourceDiversity : ℚ
  positiveSignal : ℚ
  negativeSignal : ℚ
  resultCount : ℕ

/-- `score_research_axis`. -/
def scoreResearchAxis (ucd : Ucd) (axis : Axis) (response : SearchResponse)
    (subjectTerms : List Str) : ResearchScore :=
  let positiveHits := response.occurrences ucd (axisKeywords axis).1
  let negativeHits := response.occurrences ucd (axisKeywords axis).2
  let relevance := mean response.relevances
  let diversity := min 1 (((response.domains ucd).length : ℚ) / 5)
  let coverage := min 1 ((response.results.length : ℚ) / 5)
  let identityMatch := response.identityMatch ucd subjectTerms
  let positiveSignal := min 1 ((positiveHits : ℚ) / 6)
  let negativeSignal := min 1 ((negativeHits : ℚ) / 3)
  -- no public result is an evidence gap, so the axis stays neutral
  let (score, confidence) : ℚ × ℚ :=
    if response.results = [] then (50 / 100, 0)
    else
      (18 / 100 + 27 / 100 * relevance + 14 / 100 * diversity + 18 / 100 * positiveSignal +
          13 / 100 * identityMatch + 10 / 100 * coverage - 18 / 100 * negativeSignal,
        10 / 100 + 40 / 100 * relevance + 25 / 100 * coverage + 15 / 100 * diversity +
          10 / 100 * identityMatch)
  { score := roundTo 4 (max (5 / 100) (min (95 / 100) score))
    confidence := roundTo 4 (max 0 (min (95 / 100) confidence))
    relevance := roundTo 4 relevance
    sourceDiversity := roundTo 4 diversity
    positiveSignal := roundTo 4 positiveSignal
    negativeSignal := roundTo 4 negativeSignal
    resultCount := response.results.length }

/-! ## The score as a percentage -/

/-- A score as it is returned: cut at five and ninety-five hundredths and rounded. -/
def clampedScore (x : ℚ) : ℚ := roundTo 4 (max (5 / 100) (min (95 / 100) x))

/-- The score before it is cut, of an answer with results: their mean relevance, the numbers of
different hosts and of results, the hits up to six and three, and twice the identity match. -/
def weightedScore (relevance : ℚ) (hosts count positive identity negative : ℕ) : ℚ :=
  (18 + 27 * relevance + 14 * min 1 ((hosts : ℚ) / 5) + 10 * min 1 ((count : ℚ) / 5) +
    3 * positive + 13 / 2 * identity - 6 * negative) / 100

lemma clampedScore_mono : Monotone clampedScore := fun _ _ h =>
  roundTo_mono 4 (max_le_max le_rfl (min_le_min le_rfl h))

/-- The cut score in units of the last digit. -/
lemma clampedScore_eq (x : ℚ) : clampedScore x =
    Str.roundHalfEven (max 500 (min 9500 (x * 10 ^ 4))) / 10 ^ 4 := by
  unfold clampedScore
  rw [roundTo_eq, max_mul_of_nonneg _ _ (by norm_num), min_mul_of_nonneg _ _ (by norm_num)]
  norm_num

/-- A score reaches an even number of units from half a unit below it on. -/
lemma even_le_clampedScore_iff {n : ℤ} (heven : n % 2 = 0) (hlow : 500 < n) (hhigh : n ≤ 9500)
    {x : ℚ} : (n : ℚ) / 10 ^ 4 ≤ clampedScore x ↔ (n : ℚ) - 1 / 2 ≤ x * 10 ^ 4 := by
  have hlow' : (501 : ℚ) ≤ n := by exact_mod_cast hlow
  have hhigh' : (n : ℚ) ≤ 9500 := by exact_mod_cast hhigh
  rw [clampedScore_eq, div_le_div_iff_of_pos_right (by norm_num), Int.cast_le,
    even_le_roundHalfEven_iff heven, le_max_iff, le_min_iff]
  constructor
  · rintro (hfloor | ⟨-, hx⟩)
    · linarith
    · linarith
  · intro hx
    exact Or.inr ⟨by linarith, by linarith⟩

/-- A score is at the floor up to half a unit above it. -/
lemma clampedScore_eq_floor {x : ℚ} (h : x ≤ 5005 / 100000) : clampedScore x = 5 / 100 := by
  have hround : Str.roundHalfEven (max 500 (min 9500 (x * 10 ^ 4))) = 500 := by
    refine le_antisymm ?_ ?_
    · rw [roundHalfEven_le_even_iff (by norm_num)]
      refine max_le (by norm_num) ((min_le_right _ _).trans ?_)
      push_cast
      linarith
    · rw [even_le_roundHalfEven_iff (by norm_num)]
      exact le_max_of_le_left (by norm_num)
  rw [clampedScore_eq, hround]
  norm_num

/-- No score is below the floor. -/
lemma floor_le_clampedScore (x : ℚ) : 5 / 100 ≤ clampedScore x := by
  rw [← clampedScore_eq_floor (show (0 : ℚ) ≤ 5005 / 100000 by norm_num)]
  rcases le_total 0 x with hpos | hneg
  · exact clampedScore_mono hpos
  · rw [clampedScore_eq_floor (hneg.trans (by norm_num)), clampedScore_eq_floor (by norm_num)]

/-- A rise by half a hundredth shows in the score, unless it is at the floor after it or at the
ceiling before it. -/
lemma clampedScore_lt {x y : ℚ} (hrise : x + 1 / 200 ≤ y) (hfloor : 5005 / 100000 < y)
    (hceiling : x < 94995 / 100000) : clampedScore x < clampedScore y := by
  have hround : Str.roundHalfEven (max 500 (min 9500 (x * 10 ^ 4))) <
      Str.roundHalfEven (max 500 (min 9500 (y * 10 ^ 4))) := by
    rcases le_or_gt x (5 / 100) with hlow | hlow
    · have hx : max 500 (min 9500 (x * 10 ^ 4)) = ((500 : ℤ) : ℚ) := by
        rw [max_eq_left ((min_le_right _ _).trans (by linarith))]
        norm_num
      rw [hx, roundsToNearest_roundHalfEven.intCast]
      refine lt_of_not_ge fun hle => ?_
      rw [roundHalfEven_le_even_iff (by norm_num), max_le_iff, min_le_iff] at hle
      push_cast at hle
      rcases hle.2 with hle | hle
      · norm_num at hle
      · linarith
    · rcases le_or_gt (95 / 100) y with hhigh | hhigh
      · have hy : max 500 (min 9500 (y * 10 ^ 4)) = ((9500 : ℤ) : ℚ) := by
          rw [min_eq_left (by linarith)]
          norm_num
        rw [hy, roundsToNearest_roundHalfEven.intCast]
        refine lt_of_not_ge fun hle => ?_
        rw [even_le_roundHalfEven_iff (by norm_num), le_max_iff, le_min_iff] at hle
        push_cast at hle
        rcases hle with hle | ⟨-, hle⟩
        · norm_num at hle
        · linarith
      · have hx : max 500 (min 9500 (x * 10 ^ 4)) = x * 10 ^ 4 := by
          rw [min_eq_right (by linarith), max_eq_right (by linarith)]
        have hy : max 500 (min 9500 (y * 10 ^ 4)) = y * 10 ^ 4 := by
          rw [min_eq_right (by linarith), max_eq_right (by linarith)]
        rw [hx, hy]
        exact roundsToNearest_roundHalfEven.lt_of_one_lt_sub (by linarith)
  rw [clampedScore_eq, clampedScore_eq]
  exact div_lt_div_of_pos_right (by exact_mod_cast hround) (by norm_num)

section Weights

variable {relevance : ℚ} {hosts count p p' k k' n n' : ℕ}

/-- The floor is reached with one result only, which is of no host and almost no relevance. -/
lemma weightedScore_le_floor (hrelevance : 5400 * relevance ≤ 1) (hhosts : hosts = 0)
    (hcount : count = 1) (hp : p ≤ 1) (hk : k = 0) (hn : n = 3) :
    weightedScore relevance hosts count p k n ≤ 5005 / 100000 := by
  have hpcast : (p : ℚ) ≤ 1 := by exact_mod_cast hp
  subst hhosts hcount hk hn
  unfold weightedScore
  norm_num
  linarith

/-- A score that has risen to the floor only has one result, of no host and almost no relevance. -/
lemma floor_of_weightedScore_le (hrelevance : 0 ≤ relevance) (hcount : 1 ≤ count) (hn : n ≤ 3)
    (hrise : n = 3 → 1 ≤ p ∨ 1 ≤ k)
    (h : weightedScore relevance hosts count p k n ≤ 5005 / 100000) :
    5400 * relevance ≤ 1 ∧ hosts = 0 ∧ count = 1 ∧ p ≤ 1 ∧ k = 0 ∧ n = 3 := by
  have hdiversity : 0 ≤ min 1 ((hosts : ℚ) / 5) := le_min zero_le_one (by positivity)
  have hcoverage : 1 / 5 ≤ min 1 ((count : ℚ) / 5) := by
    have hcast : (1 : ℚ) ≤ count := by exact_mod_cast hcount
    exact le_min (by norm_num) (by linarith)
  have hp0 : (0 : ℚ) ≤ p := Nat.cast_nonneg p
  have hk0 : (0 : ℚ) ≤ k := Nat.cast_nonneg k
  have hncast : (n : ℚ) ≤ 3 := by exact_mod_cast hn
  unfold weightedScore at h
  have hk' : k = 0 := by
    by_contra hk
    have hcast : (1 : ℚ) ≤ k := by exact_mod_cast Nat.one_le_iff_ne_zero.mpr hk
    linarith
  have hn' : n = 3 := by
    by_contra hne
    have hcast : (n : ℚ) ≤ 2 := by exact_mod_cast (show n ≤ 2 by omega)
    linarith
  have hp1 : 1 ≤ p := (hrise hn').resolve_right (by omega)
  have hp1cast : (1 : ℚ) ≤ p := by exact_mod_cast hp1
  have hp' : p ≤ 1 := by
    by_contra hp
    have hcast : (2 : ℚ) ≤ p := by exact_mod_cast not_le.mp hp
    linarith
  have hhosts : hosts = 0 := by
    by_contra hne
    have hcast : (1 : ℚ) ≤ hosts := by exact_mod_cast Nat.one_le_iff_ne_zero.mpr hne
    have hone : 1 / 5 ≤ min 1 ((hosts : ℚ) / 5) := le_min (by norm_num) (by linarith)
    linarith
  have hcount' : count = 1 := by
    by_contra hne
    have hcast : (2 : ℚ) ≤ count := by exact_mod_cast (show 2 ≤ count by omega)
    have htwo : 2 / 5 ≤ min 1 ((count : ℚ) / 5) := le_min (by norm_num) (by linarith)
    linarith
  exact ⟨by linarith, hhosts, hcount', hp', hk', hn'⟩

/-- A score at the ceiling has no negative hit, five positive ones and every term. -/
lemma full_of_ceiling_le_weightedScore (hrelevance : relevance ≤ 1) (hp : p ≤ 6) (hk : k ≤ 2)
    (h : 94995 / 100000 ≤ weightedScore relevance hosts count p k n) : n = 0 ∧ 5 ≤ p ∧ k = 2 := by
  have hdiversity : min 1 ((hosts : ℚ) / 5) ≤ 1 := min_le_left _ _
  have hcoverage : min 1 ((count : ℚ) / 5) ≤ 1 := min_le_left _ _
  have hpcast : (p : ℚ) ≤ 6 := by exact_mod_cast hp
  have hkcast : (k : ℚ) ≤ 2 := by exact_mod_cast hk
  have hn0 : (0 : ℚ) ≤ n := Nat.cast_nonneg n
  unfold weightedScore at h
  refine ⟨?_, ?_, ?_⟩
  · by_contra hne
    have hcast : (1 : ℚ) ≤ n := by exact_mod_cast Nat.one_le_iff_ne_zero.mpr hne
    linarith
  · by_contra hlt
    have hcast : (p : ℚ) ≤ 4 := by exact_mod_cast (show p ≤ 4 by omega)
    linarith
  · by_contra hne
    have hcast : (k : ℚ) ≤ 1 := by exact_mod_cast (show k ≤ 1 by omega)
    linarith

/-- **Weights.** With the same results, and a negative hit after a change of their texts, the score
is no higher after the change exactly if the positive hits and the identity match have risen by no
more than the negative hits count, or the score is at its floor after the change.

**Proof sketch.** The weights are multiples of half a hundredth, so a higher sum shows in the score
unless it is cut. It is not cut at the ceiling: there the answer has no negative hit and almost all
of the others, and the first negative hit costs more than what is left to gain. At the floor the
change leads to a single irrelevant result with one positive and three negative hits. -/
lemma clampedScore_weightedScore_le_iff (hlow : 0 ≤ relevance) (hhigh : relevance ≤ 1)
    (hcount : 1 ≤ count) (hp : p ≤ 6) (hp' : p' ≤ 6) (hk : k ≤ 2) (hk' : k' ≤ 2) (hn : n ≤ 3)
    (hn' : n' ≤ 3) (hnegative : 1 ≤ n') :
    clampedScore (weightedScore relevance hosts count p' k' n') ≤
        clampedScore (weightedScore relevance hosts count p k n) ↔
      6 * p' + 13 * k' + 12 * n ≤ 6 * p + 13 * k + 12 * n' ∨
        (5400 * relevance ≤ 1 ∧ hosts = 0 ∧ count = 1 ∧ p' ≤ 1 ∧ k' = 0 ∧ n' = 3) := by
  constructor
  · intro hle
    by_contra hnot
    rw [not_or, not_le] at hnot
    obtain ⟨hrise, hfloor⟩ := hnot
    have hcast : (6 * p + 13 * k + 12 * n' + 1 : ℚ) ≤ 6 * p' + 13 * k' + 12 * n := by
      exact_mod_cast hrise
    have hdifference : weightedScore relevance hosts count p k n + 1 / 200 ≤
        weightedScore relevance hosts count p' k' n' := by
      unfold weightedScore
      linarith
    refine absurd hle (not_le.mpr (clampedScore_lt hdifference ?_ ?_))
    · by_contra hcut
      exact hfloor (floor_of_weightedScore_le hlow hcount hn' (fun hn3 => by omega)
        (not_lt.mp hcut))
    · by_contra hcut
      obtain ⟨hn0, hp5, hk2⟩ := full_of_ceiling_le_weightedScore hhigh hp hk (not_lt.mp hcut)
      omega
  · rintro (hle | ⟨hrelevance, hhosts, hcount', hp1, hk0, hn3⟩)
    · refine clampedScore_mono ?_
      have hcast : (6 * p' + 13 * k' + 12 * n : ℚ) ≤ 6 * p + 13 * k + 12 * n' := by
        exact_mod_cast hle
      unfold weightedScore
      linarith
    · rw [clampedScore_eq_floor (weightedScore_le_floor hrelevance hhosts hcount' hp1 hk0 hn3)]
      exact floor_le_clampedScore _

end Weights

/-! ## The score of a response -/

section Score

variable {ucd : Ucd} {axis : Axis} {response : SearchResponse} {subjectTerms : List Str}

/-- Hits that count up to a number. -/
private lemma min_one_div (hits most : ℕ) (hmost : 0 < most) :
    min 1 ((hits : ℚ) / most) = (min most hits : ℕ) / most := by
  have hpos : (0 : ℚ) < most := by exact_mod_cast hmost
  rw [Nat.cast_min, ← min_div_div_right hpos.le, div_self hpos.ne']

/-- Twice the identity match: the terms found, at most two of them, or twice the only term. -/
def SearchResponse.identityHalves (ucd : Ucd) (response : SearchResponse)
    (subjectTerms : List Str) : ℕ :=
  if subjectTerms.length ≤ 1 then 2 * min 1 (response.termsFound ucd subjectTerms).length
  else min 2 (response.termsFound ucd subjectTerms).length

lemma SearchResponse.identityMatch_eq :
    response.identityMatch ucd subjectTerms = response.identityHalves ucd subjectTerms / 2 := by
  unfold identityMatch identityHalves
  split_ifs with hone
  · have hneeded : max 1 (min 2 subjectTerms.length) = 1 := by omega
    rw [hneeded, Nat.cast_one, div_one]
    push_cast
    ring
  · have hneeded : max 1 (min 2 subjectTerms.length) = 2 := by omega
    rw [hneeded]
    exact min_one_div _ 2 (by norm_num)

lemma SearchResponse.identityHalves_le : response.identityHalves ucd subjectTerms ≤ 2 := by
  unfold identityHalves
  split_ifs <;> omega

lemma SearchResponse.identityHalves_eq_zero_iff :
    response.identityHalves ucd subjectTerms = 0 ↔ response.termsFound ucd subjectTerms = [] := by
  rw [← List.length_eq_zero_iff]
  unfold identityHalves
  split_ifs <;> omega

/-- The score of an answer with results is a weighted sum of what the answer holds. -/
lemma scoreResearchAxis_score (hresults : response.results ≠ []) :
    (scoreResearchAxis ucd axis response subjectTerms).score =
      clampedScore (weightedScore (mean response.relevances) (response.domains ucd).length
        response.results.length (min 6 (response.occurrences ucd (axisKeywords axis).1))
        (response.identityHalves ucd subjectTerms)
        (min 3 (response.occurrences ucd (axisKeywords axis).2))) := by
  have hpositive := min_one_div (response.occurrences ucd (axisKeywords axis).1) 6 (by norm_num)
  have hnegative := min_one_div (response.occurrences ucd (axisKeywords axis).2) 3 (by norm_num)
  unfold scoreResearchAxis clampedScore weightedScore
  dsimp only
  rw [if_neg hresults, SearchResponse.identityMatch_eq]
  push_cast at hpositive hnegative ⊢
  rw [hpositive, hnegative]
  congr 3
  ring

/-- A response without results is neutral. -/
lemma scoreResearchAxis_score_of_nil (hresults : response.results = []) :
    (scoreResearchAxis ucd axis response subjectTerms).score = 1 / 2 := by
  have hclamped : (scoreResearchAxis ucd axis response subjectTerms).score =
      clampedScore (50 / 100) := by
    unfold scoreResearchAxis clampedScore
    dsimp only
    rw [if_pos hresults]
  rw [hclamped]
  decide +kernel

/-- A mean of numbers of the unit interval is in the unit interval. -/
lemma mean_mem_unit {xs : List ℚ} (h : ∀ x ∈ xs, 0 ≤ x ∧ x ≤ 1) : 0 ≤ mean xs ∧ mean xs ≤ 1 := by
  have hlength : (0 : ℚ) < (max 1 xs.length : ℕ) := by exact_mod_cast (by omega)
  have hsum : xs.sum ≤ xs.length • (1 : ℚ) := List.sum_le_card_nsmul xs 1 fun x hx => (h x hx).2
  refine ⟨div_nonneg (List.sum_nonneg fun x hx => (h x hx).1) hlength.le, ?_⟩
  unfold mean
  rw [div_le_one hlength]
  refine (hsum.trans_eq (nsmul_one _)).trans ?_
  exact_mod_cast le_max_right 1 xs.length

/-- The mean relevance is in the unit interval. -/
lemma SearchResponse.mean_relevances_mem_unit :
    0 ≤ mean response.relevances ∧ mean response.relevances ≤ 1 := by
  refine mean_mem_unit fun x hx => ?_
  obtain ⟨r, -, hr⟩ := List.mem_filterMap.mp hx
  obtain ⟨score, -, rfl⟩ := Option.map_eq_some_iff.mp hr
  exact ⟨le_max_left _ _, max_le zero_le_one (min_le_left _ _)⟩

/-- A text without the words has no occurrence of them. -/
lemma SearchResponse.occurrences_eq_zero {words : List Str} (hwords : ∀ word ∈ words, word ≠ [])
    (h : ∀ word ∈ words, ¬ word <:+: response.corpus ucd) :
    response.occurrences ucd words = 0 := by
  unfold occurrences
  refine List.sum_eq_zero fun n hn => ?_
  obtain ⟨word, hword, rfl⟩ := List.mem_map.mp hn
  exact (Str.count_eq_zero_iff (hwords word hword)).mpr (h word hword)

/-- A text with one of the words has an occurrence. -/
lemma SearchResponse.occurrences_pos {words : List Str} {word : Str} (hword : word ∈ words)
    (hne : word ≠ []) (h : word <:+: response.corpus ucd) :
    0 < response.occurrences ucd words :=
  lt_of_lt_of_le (Str.count_pos hne h)
    (List.single_le_sum (fun _ _ => Nat.zero_le _) _ (List.mem_map_of_mem hword))

/-- The keywords are ASCII texts in lower case, and none is empty. -/
lemma axisKeywords_ascii (axis : Axis) : ∀ word ∈ (axisKeywords axis).1 ++ (axisKeywords axis).2,
    word ≠ [] ∧ ∀ c ∈ word, c.toNat < 128 ∧ c.toLower = c := by
  have hall : ((axisKeywords axis).1 ++ (axisKeywords axis).2).all (fun word =>
      !word.isEmpty && word.all fun c => c.toNat.blt 128 && c.toLower == c) = true := by
    cases axis <;> decide +kernel
  intro word hword
  have hword' := List.all_eq_true.mp hall word hword
  simpa using hword'

/-- What speaks for an axis in an answer without negative phrases, in hundredths of the score. -/
def SearchResponse.support (ucd : Ucd) (axis : Axis) (response : SearchResponse)
    (subjectTerms : List Str) : ℚ :=
  27 * mean response.relevances + 14 * min 1 (((response.domains ucd).length : ℚ) / 5) +
    10 * min 1 ((response.results.length : ℚ) / 5) +
    3 * (min 6 (response.occurrences ucd (axisKeywords axis).1) : ℕ) +
    13 * response.identityMatch ucd subjectTerms

/-- Without a negative phrase, the score of an answer with results is its support above eighteen
hundredths. -/
lemma scoreResearchAxis_score_of_no_negative (hresults : response.results ≠ [])
    (hnegative : ∀ phrase ∈ (axisKeywords axis).2, ¬ phrase <:+: response.corpus ucd) :
    (scoreResearchAxis ucd axis response subjectTerms).score =
      clampedScore ((18 + response.support ucd axis subjectTerms) / 100) := by
  have hnone : response.occurrences ucd (axisKeywords axis).2 = 0 :=
    SearchResponse.occurrences_eq_zero
      (fun word hword => (axisKeywords_ascii axis word (List.mem_append_right _ hword)).1) hnegative
  rw [scoreResearchAxis_score hresults, hnone, Nat.min_zero]
  unfold weightedScore SearchResponse.support
  rw [SearchResponse.identityMatch_eq]
  congr 1
  push_cast
  ring

/-- Where the texts hold no negative phrase, the axis is rated bearish exactly if there are results
and their support is below the threshold of the rating. -/
theorem rating_eq_bearish_iff
    (hnegative : ∀ phrase ∈ (axisKeywords axis).2, ¬ phrase <:+: response.corpus ucd) :
    ratingOfScore (scoreResearchAxis ucd axis response subjectTerms).score = "Bearish".toList ↔
      response.results ≠ [] ∧ response.support ucd axis subjectTerms < 23995 / 1000 := by
  have hrating : ∀ score : ℚ, ratingOfScore score = "Bearish".toList ↔ score < 42 / 100 := by
    intro score
    unfold ratingOfScore
    split_ifs with hbullish hbearish
    · refine iff_of_false (by decide) (not_lt.mpr ?_)
      linarith
    · exact iff_of_true rfl hbearish
    · exact iff_of_false (by decide) hbearish
  rw [hrating]
  by_cases hresults : response.results = []
  · rw [scoreResearchAxis_score_of_nil hresults]
    exact iff_of_false (by norm_num) fun h => h.1 hresults
  have hunits : (42 / 100 : ℚ) = ((4200 : ℤ) : ℚ) / 10 ^ 4 := by norm_num
  rw [scoreResearchAxis_score_of_no_negative hresults hnegative, and_iff_right hresults,
    ← not_le, ← not_le, not_iff_not, hunits,
    even_le_clampedScore_iff (by norm_num) (by norm_num) (by norm_num)]
  push_cast
  constructor
  · intro h
    linarith
  · intro h
    linarith

end Score

/-- One result without a score, a host or a word of interest. -/
private def sparseResponse : SearchResponse where
  answer := []
  results := [some
    { url := [], title := "Ada", content := "profile", score := none, contentHash := [] }]

namespace SearchResponse

variable {ucd : Ucd} {response : SearchResponse} {i : ℕ} {r : SearchResult} {text : Str}

/-- The response with more text at the end of the content of one result. -/
def append (response : SearchResponse) (i : ℕ) (text : Str) : SearchResponse :=
  { response with
    results := response.results.modify i
      (Option.map fun r => { r with content := r.content ++ text }) }

/-- A change of one element that a function does not see. -/
private lemma filterMap_modify {α β : Type*} {f : α → Option β} {g : α → α}
    (h : ∀ a, f (g a) = f a) (l : List α) (i : ℕ) :
    (l.modify i g).filterMap f = l.filterMap f := by
  induction l generalizing i with
  | nil => cases i <;> rfl
  | cons a l ih =>
    cases i with
    | zero => simp [List.filterMap_cons, h]
    | succ i => simp [List.filterMap_cons, ih]

/-- The results are scored one by one. -/
private lemma filterMap_reduceOption {β : Type*} (f : SearchResult → Option β)
    (results : List (Option SearchResult)) :
    results.reduceOption.filterMap f = results.filterMap fun item => item.bind f := by
  unfold List.reduceOption
  rw [List.filterMap_filterMap]
  rfl

lemma relevances_append : (response.append i text).relevances = response.relevances := by
  unfold relevances append
  dsimp only
  rw [filterMap_reduceOption, filterMap_reduceOption]
  exact filterMap_modify (fun item => by cases item <;> rfl) _ _

lemma domains_append : (response.append i text).domains ucd = response.domains ucd := by
  unfold domains append
  dsimp only
  rw [filterMap_reduceOption, filterMap_reduceOption]
  exact congrArg List.dedup (filterMap_modify (fun item => by cases item <;> rfl) _ _)

lemma length_results_append :
    (response.append i text).results.length = response.results.length :=
  List.length_modify _ _ _

/-- The changed result is there. -/
lemma mem_results_append (hr : response.results[i]? = some (some r)) :
    some { r with content := r.content ++ text } ∈ (response.append i text).results := by
  refine List.mem_of_getElem? (i := i) ?_
  unfold append
  rw [List.getElem?_modify_eq, hr]
  rfl

/-- The corpus contains the text that is appended between spaces. -/
lemma infix_corpus_append {phrase : Str} (hr : response.results[i]? = some (some r))
    (hphrase : ∀ c ∈ phrase, c.toNat < 128 ∧ c.toLower = c) :
    phrase <:+: (response.append i (' ' :: phrase ++ [' '])).corpus ucd := by
  have hmem : r.title ++ ' ' :: (r.content ++ (' ' :: phrase ++ [' '])) ∈
      (response.append i (' ' :: phrase ++ [' '])).texts := by
    refine List.mem_cons_of_mem _ (List.mem_map.mpr
      ⟨{ r with content := r.content ++ (' ' :: phrase ++ [' ']) }, ?_, rfl⟩)
    exact List.reduceOption_mem_iff.mpr (mem_results_append hr)
  have hwithin : r.title ++ ' ' :: (r.content ++ (' ' :: phrase ++ [' '])) <:+:
      List.intercalate [' '] (response.append i (' ' :: phrase ++ [' '])).texts :=
    Str.infix_intercalate hmem
  obtain ⟨pre, post, hjoined⟩ := hwithin
  have hsplit : List.intercalate [' '] (response.append i (' ' :: phrase ++ [' '])).texts =
      (pre ++ (r.title ++ ' ' :: r.content)) ++ ' ' :: (phrase ++ ' ' :: post) := by
    rw [← hjoined]
    simp
  unfold corpus
  rw [hsplit, ucd.lower_append_sep (by decide) (by decide) (by decide),
    ucd.lower_append_sep (by decide) (by decide) (by decide), ucd.lower_eq_self hphrase]
  exact ⟨ucd.lower (pre ++ (r.title ++ ' ' :: r.content)) ++ [' '], ' ' :: ucd.lower post, by simp⟩

end SearchResponse

section Negative

variable {ucd : Ucd} {axis : Axis} {response : SearchResponse} {subjectTerms : List Str} {i : ℕ}
  {r : SearchResult} {phrase : Str}

/-- The response has a single result, of no host and almost no relevance, whose text has at most one
positive hit, at least three negative ones and no subject term. -/
def SearchResponse.AtFloor (ucd : Ucd) (axis : Axis) (subjectTerms : List Str)
    (response : SearchResponse) : Prop :=
  5400 * mean response.relevances ≤ 1 ∧ response.domains ucd = [] ∧ response.results.length = 1 ∧
    response.occurrences ucd (axisKeywords axis).1 ≤ 1 ∧ response.termsFound ucd subjectTerms = [] ∧
    3 ≤ response.occurrences ucd (axisKeywords axis).2

/-- The scores before and after a negative phrase is added are compared by whole hits, up to the
numbers that count. -/
lemma append_score_le_iff (hphrase : phrase ∈ (axisKeywords axis).2)
    (hr : response.results[i]? = some (some r)) :
    (scoreResearchAxis ucd axis (response.append i (' ' :: phrase ++ [' '])) subjectTerms).score ≤
        (scoreResearchAxis ucd axis response subjectTerms).score ↔
      6 * min 6 ((response.append i (' ' :: phrase ++ [' '])).occurrences ucd
            (axisKeywords axis).1) +
          13 * (response.append i (' ' :: phrase ++ [' '])).identityHalves ucd subjectTerms +
          12 * min 3 (response.occurrences ucd (axisKeywords axis).2) ≤
        6 * min 6 (response.occurrences ucd (axisKeywords axis).1) +
          13 * response.identityHalves ucd subjectTerms +
          12 * min 3 ((response.append i (' ' :: phrase ++ [' '])).occurrences ucd
            (axisKeywords axis).2) ∨
      (response.append i (' ' :: phrase ++ [' '])).AtFloor ucd axis subjectTerms := by
  have hkeyword := axisKeywords_ascii axis phrase (List.mem_append_right _ hphrase)
  set after := response.append i (' ' :: phrase ++ [' ']) with hafter
  have hlength : after.results.length = response.results.length :=
    SearchResponse.length_results_append
  have hcount : 1 ≤ response.results.length :=
    List.length_pos_of_mem (List.mem_of_getElem? hr)
  have hresults : response.results ≠ [] := List.ne_nil_of_length_pos hcount
  have hresults' : after.results ≠ [] := List.ne_nil_of_length_pos (hlength ▸ hcount)
  have hrelevances : after.relevances = response.relevances := SearchResponse.relevances_append
  have hdomains : after.domains ucd = response.domains ucd := SearchResponse.domains_append
  have hnegative : 1 ≤ min 3 (after.occurrences ucd (axisKeywords axis).2) :=
    le_min (by norm_num) (SearchResponse.occurrences_pos hphrase hkeyword.1
      (SearchResponse.infix_corpus_append hr hkeyword.2))
  obtain ⟨hlow, hhigh⟩ := response.mean_relevances_mem_unit
  rw [scoreResearchAxis_score hresults, scoreResearchAxis_score hresults', hrelevances, hdomains,
    hlength, clampedScore_weightedScore_le_iff hlow hhigh hcount (min_le_left _ _)
      (min_le_left _ _) SearchResponse.identityHalves_le SearchResponse.identityHalves_le
      (min_le_left _ _) (min_le_left _ _) hnegative]
  refine or_congr Iff.rfl ?_
  unfold SearchResponse.AtFloor
  rw [hrelevances, hdomains, hlength, SearchResponse.identityHalves_eq_zero_iff,
    List.length_eq_zero_iff]
  simp

/-- **Negative evidence.** A further negative phrase at the end of the content of a result does not
raise the score exactly if it brings no more of positive words and subject terms than of negative
phrases, by their weights and up to the numbers that count, or the score stays at its floor.

**Proof sketch.** Only the texts change, so the scores before and after are two weighted sums with
the same relevance, diversity and number of results, and the texts after the change hold a
negative phrase (`clampedScore_weightedScore_le_iff`). -/
theorem append_negative_score_le_iff (hphrase : phrase ∈ (axisKeywords axis).2)
    (hr : response.results[i]? = some (some r)) :
    (scoreResearchAxis ucd axis (response.append i (' ' :: phrase ++ [' '])) subjectTerms).score ≤
        (scoreResearchAxis ucd axis response subjectTerms).score ↔
      3 * ((min 6 ((response.append i (' ' :: phrase ++ [' '])).occurrences ucd
            (axisKeywords axis).1) : ℕ) : ℚ) +
          13 * (response.append i (' ' :: phrase ++ [' '])).identityMatch ucd subjectTerms +
          6 * (min 3 (response.occurrences ucd (axisKeywords axis).2) : ℕ) ≤
        3 * (min 6 (response.occurrences ucd (axisKeywords axis).1) : ℕ) +
          13 * response.identityMatch ucd subjectTerms +
          6 * (min 3 ((response.append i (' ' :: phrase ++ [' '])).occurrences ucd
            (axisKeywords axis).2) : ℕ) ∨
      (response.append i (' ' :: phrase ++ [' '])).AtFloor ucd axis subjectTerms := by
  rw [append_score_le_iff hphrase hr]
  refine or_congr ?_ Iff.rfl
  rw [SearchResponse.identityMatch_eq, SearchResponse.identityMatch_eq, ← Nat.cast_le (α := ℚ)]
  push_cast
  constructor
  · intro h
    linarith
  · intro h
    linarith

end Negative

/-- One result with all the negative phrases that count. -/
private def stalledResponse : SearchResponse where
  answer := []
  results := [some { url := [], title := [], content := "stalled shutdown pivoted away"
                     score := some (1 / 2), contentHash := [] }]

theorem append_negative_score_le_iff_stalled :
    (scoreResearchAxis Ucd.ascii .ideaMarket
          (stalledResponse.append 0 (' ' :: "no revenue" ++ [' '])) []).score ≤
        (scoreResearchAxis Ucd.ascii .ideaMarket stalledResponse []).score ↔
      3 * ((min 6 ((stalledResponse.append 0 (' ' :: "no revenue" ++ [' '])).occurrences
            Ucd.ascii (axisKeywords .ideaMarket).1) : ℕ) : ℚ) +
          13 * (stalledResponse.append 0
            (' ' :: "no revenue" ++ [' '])).identityMatch Ucd.ascii [] +
          6 * (min 3 (stalledResponse.occurrences Ucd.ascii (axisKeywords .ideaMarket).2) : ℕ) ≤
        3 * (min 6 (stalledResponse.occurrences Ucd.ascii (axisKeywords .ideaMarket).1) : ℕ) +
          13 * stalledResponse.identityMatch Ucd.ascii [] +
          6 * (min 3 ((stalledResponse.append 0 (' ' :: "no revenue" ++ [' '])).occurrences
            Ucd.ascii (axisKeywords .ideaMarket).2) : ℕ) ∨
      (stalledResponse.append 0 (' ' :: "no revenue" ++ [' '])).AtFloor Ucd.ascii .ideaMarket [] :=
  append_negative_score_le_iff
    (show ("no revenue" : Str) ∈ (axisKeywords .ideaMarket).2 by decide +kernel) rfl

/-- After three negative phrases, the words `no revenue` count as `revenue` only. -/
theorem not_append_negative_score_le_of_revenue :
    ¬ ∀ (ucd : Ucd) (axis : Axis) (response : SearchResponse) (subjectTerms : List Str) (i : ℕ)
      (r : SearchResult) (phrase : Str), phrase ∈ (axisKeywords axis).2 →
      response.results[i]? = some (some r) →
      (∀ term ∈ subjectTerms, term ≠ [] → ¬ ucd.lower term <:+: phrase) →
        (scoreResearchAxis ucd axis (response.append i (' ' :: phrase ++ [' ']))
            subjectTerms).score ≤
          (scoreResearchAxis ucd axis response subjectTerms).score := by
  intro hclaim
  have hbefore : (scoreResearchAxis Ucd.ascii .ideaMarket stalledResponse []).score =
      155 / 1000 := by decide +kernel
  have hafter : (scoreResearchAxis Ucd.ascii .ideaMarket
      (stalledResponse.append 0 (' ' :: "no revenue" ++ [' '])) []).score = 185 / 1000 := by
    decide +kernel
  have hle := hclaim Ucd.ascii .ideaMarket stalledResponse [] 0 _ "no revenue" (by decide +kernel)
    rfl (by simp)
  rw [hbefore, hafter] at hle
  norm_num at hle

end VCBrain
