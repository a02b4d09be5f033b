import Mathlib.Data.Rat.Floor
import Mathlib.Algebra.BigOperators.Group.List.Basic
import VCBrain.Db.Models
import VCBrain.Foundation.Rounding

set_option relaxedAutoImplicit false
set_option autoImplicit false

/-!
# Trust and strength of evidence

The two measures reconciliation takes of its observations: the strength that ranks the
observations of a contradicted group, and the trust score it stores with every claim.

## Main definitions

* `observationStrength` — `_observation_strength`.
* `trustForObservations` — `_trust_for_observations`.
* `roundTo` — Python's `round(x, n)`, ties to even.

## Main results

* `roundTo_mono` — rounding keeps the order.
* `roundTo_le_roundTo_iff` — the numbers that are rounded to no less than another one.

## Design

The clock is read once per run. Extractor versions are program constants in ASCII, so
their lower-casing is that of ASCII. The set of source kinds is a list without duplicates.
The prose explanation of the score is left out.
-/

namespace VCBrain

/-- Python's `round(x, digits)`: to the nearest decimal, ties to the even one. -/
def roundTo (digits : ℕ) (x : ℚ) : ℚ :=
  let scaled := x * 10 ^ digits
  let f := ⌊scaled⌋
  let n := if scaled - f < 1 / 2 then f
    else if 1 / 2 < scaled - f then f + 1
    else if f % 2 = 0 then f else f + 1
  n / 10 ^ digits

/-! ## Rounding -/

lemma roundTo_eq (digits : ℕ) (x : ℚ) :
    roundTo digits x = Str.roundHalfEven (x * 10 ^ digits) / 10 ^ digits := by
  have hfloor : (x * 10 ^ digits).floor = ⌊x * 10 ^ digits⌋ := rfl
  unfold roundTo Str.roundHalfEven
  dsimp only
  rw [hfloor]
  rcases lt_trichotomy (x * 10 ^ digits - ⌊x * 10 ^ digits⌋) (1 / 2) with hlow | htie | hhigh
  · rw [if_pos hlow, if_pos (Or.inl hlow)]
  · simp [htie]
  · rw [if_neg hhigh.not_gt, if_pos hhigh, if_neg]
    rintro (hlow | ⟨htie, -⟩)
    · exact hhigh.not_gt hlow
    · exact hhigh.ne' htie

/-- Ties are rounded to a nearest integer as well. -/
lemma roundsToNearest_roundHalfEven : RoundsToNearest Str.roundHalfEven := by
  intro x
  have hlow : (x.floor : ℚ) ≤ x := Int.floor_le x
  have hhigh : x < x.floor + 1 := Int.lt_floor_add_one x
  unfold Str.roundHalfEven
  dsimp only
  rw [abs_le]
  split_ifs with hbelow
  · rcases hbelow with hbelow | ⟨htie, -⟩
    · constructor <;> linarith
    · constructor <;> linarith
  · rw [not_or] at hbelow
    have habove := not_lt.mp hbelow.1
    push_cast
    constructor <;> linarith

/-- A number is rounded to an even integer or above from one half below it on. -/
lemma even_le_roundHalfEven_iff {k : ℤ} (heven : k % 2 = 0) {x : ℚ} :
    k ≤ Str.roundHalfEven x ↔ (k : ℚ) - 1 / 2 ≤ x := by
  constructor
  · intro h
    have hcast : (k : ℚ) ≤ Str.roundHalfEven x := by exact_mod_cast h
    have herr := roundsToNearest_roundHalfEven.le_add_half x
    linarith
  · intro h
    rcases le_or_gt (k : ℚ) x with habove | hbelow
    · rw [← roundsToNearest_roundHalfEven.intCast k]
      exact roundsToNearest_roundHalfEven.mono habove
    · have hfloor : x.floor = k - 1 := by
        show ⌊x⌋ = k - 1
        refine Int.floor_eq_iff.mpr ⟨?_, ?_⟩
        · push_cast
          linarith
        · push_cast
          linarith
      have hround : Str.roundHalfEven x = k - 1 + 1 := by
        unfold Str.roundHalfEven
        dsimp only
        rw [hfloor, if_neg]
        rintro (hlow | ⟨-, hodd⟩)
        · push_cast at hlow
          linarith
        · omega
      rw [hround]
      omega

/-- A number is rounded to an even integer or below up to one half above it. -/
lemma roundHalfEven_le_even_iff {k : ℤ} (heven : k % 2 = 0) {x : ℚ} :
    Str.roundHalfEven x ≤ k ↔ x ≤ k + 1 / 2 := by
  constructor
  · intro h
    have hcast : (Str.roundHalfEven x : ℚ) ≤ k := by exact_mod_cast h
    have herr := roundsToNearest_roundHalfEven.sub_half_le x
    linarith
  · intro h
    rcases le_or_gt x (k : ℚ) with hbelow | habove
    · rw [← roundsToNearest_roundHalfEven.intCast k]
      exact roundsToNearest_roundHalfEven.mono hbelow
    · have hfloor : x.floor = k := by
        show ⌊x⌋ = k
        exact Int.floor_eq_iff.mpr ⟨habove.le, by linarith⟩
      unfold Str.roundHalfEven
      dsimp only
      rw [hfloor, if_pos]
      rcases lt_or_eq_of_le h with hlow | htie
      · exact Or.inl (by linarith)
      · exact Or.inr ⟨by linarith, heven⟩

/-- A number is rounded to an integer or above from one half below it on, and one half below it
only if the integer is even. -/
lemma le_roundHalfEven_iff {k : ℤ} {x : ℚ} :
    k ≤ Str.roundHalfEven x ↔ (k : ℚ) - 1 / 2 < x ∨ ((k : ℚ) - 1 / 2 = x ∧ k % 2 = 0) := by
  constructor
  · intro h
    have hcast : (k : ℚ) ≤ Str.roundHalfEven x := by exact_mod_cast h
    have herr := roundsToNearest_roundHalfEven.le_add_half x
    rcases lt_or_eq_of_le (show (k : ℚ) - 1 / 2 ≤ x by linarith) with hlt | htie
    · exact Or.inl hlt
    · refine Or.inr ⟨htie, ?_⟩
      have hfloor : x.floor = k - 1 := by
        show ⌊x⌋ = k - 1
        rw [← htie, Int.floor_eq_iff]
        push_cast
        constructor <;> linarith
      unfold Str.roundHalfEven at h
      dsimp only at h
      split_ifs at h with hdown
      · omega
      · rw [hfloor] at hdown
        have hodd : ¬ (k - 1) % 2 = 0 := fun heven =>
          hdown (Or.inr ⟨by rw [← htie]; push_cast; ring, heven⟩)
        omega
  · rintro (hlt | ⟨htie, heven⟩)
    · have hlow := roundsToNearest_roundHalfEven.sub_half_le x
      have hcast : (k : ℚ) < Str.roundHalfEven x + 1 := by linarith
      exact Int.lt_add_one_iff.mp (by exact_mod_cast hcast)
    · exact (even_le_roundHalfEven_iff heven).mpr htie.le

/-- Rounding keeps the order. -/
lemma roundTo_mono (digits : ℕ) : Monotone (roundTo digits) := by
  intro x y hxy
  have hscale : (0 : ℚ) < 10 ^ digits := by positivity
  have hscaled : x * 10 ^ digits ≤ y * 10 ^ digits := mul_le_mul_of_nonneg_right hxy hscale.le
  have hround := roundsToNearest_roundHalfEven.mono hscaled
  rw [roundTo_eq, roundTo_eq]
  exact div_le_div_of_nonneg_right (by exact_mod_cast hround) hscale.le

/-- A whole number is kept. -/
lemma roundTo_intCast (digits : ℕ) (k : ℤ) : roundTo digits (k : ℚ) = k := by
  have hscale : (10 : ℚ) ^ digits ≠ 0 := by positivity
  have hcast : (k : ℚ) * 10 ^ digits = ((k * 10 ^ digits : ℤ) : ℚ) := by push_cast; ring
  rw [roundTo_eq, hcast, roundsToNearest_roundHalfEven.intCast]
  push_cast
  rw [mul_div_assoc, div_self hscale, mul_one]

/-- The number from which on numbers are rounded to what a number is rounded to, or above. -/
def roundingEdge (digits : ℕ) (x : ℚ) : ℚ :=
  (Str.roundHalfEven (x * 10 ^ digits) - 1 / 2) / 10 ^ digits

/-- `y` is beyond the edge `x`, or on it when ties are rounded up there. -/
def ClearsEdge (digits : ℕ) (x edge y : ℚ) : Prop :=
  edge < y ∨ (edge = y ∧ Str.roundHalfEven (x * 10 ^ digits) % 2 = 0)

/-- A number is rounded to no less than another one exactly if it clears its edge. -/
lemma roundTo_le_roundTo_iff {digits : ℕ} {x y : ℚ} :
    roundTo digits x ≤ roundTo digits y ↔ ClearsEdge digits x (roundingEdge digits x) y := by
  have hscale : (0 : ℚ) < 10 ^ digits := by positivity
  rw [roundTo_eq, roundTo_eq, div_le_div_iff_of_pos_right hscale, Int.cast_le, le_roundHalfEven_iff,
    ClearsEdge, roundingEdge, div_lt_iff₀ hscale, div_eq_iff hscale.ne']

/-- Whether an edge is cleared depends on the distance from it only, up to a positive factor. -/
lemma ClearsEdge.scale {digits : ℕ} {x edge y edge' y' factor : ℚ} (hfactor : 0 < factor)
    (h : y' - edge' = factor * (y - edge)) :
    ClearsEdge digits x edge y ↔ ClearsEdge digits x edge' y' := by
  have hlt : edge < y ↔ edge' < y' := by
    rw [← sub_pos, ← sub_pos (a := y'), h, mul_pos_iff_of_pos_left hfactor]
  have heq : edge = y ↔ edge' = y' := by
    rw [eq_comm, ← sub_eq_zero, eq_comm (a := edge'), ← sub_eq_zero (a := y'), h, mul_eq_zero,
      or_iff_right hfactor.ne']
  rw [ClearsEdge, ClearsEdge, hlt, heq]

lemma roundTo_zero (digits : ℕ) : roundTo digits 0 = 0 := by
  simpa using roundTo_intCast digits 0

lemma roundTo_one (digits : ℕ) : roundTo digits 1 = 1 := by
  simpa using roundTo_intCast digits 1

/-! ## Strength -/

/-- Freshness of an observation of the given age in days: linear over a year, at least a half. -/
def recency (ageDays : ℤ) : ℚ := max (1 / 2) (1 - ageDays / 365)

/-- `_observation_strength`: higher is stronger. A confidence of zero counts as one half. -/
def observationStrength (now : Time) (obs : Observation) : ℚ :=
  let confidence := if obs.confidence ≠ 0 then obs.confidence else 1 / 2
  confidence * recency (daysBetween now obs.observedAt)

/-! ## The trust score -/

/-- `_SOURCE_AUTHORITY`. -/
def sourceAuthority : List (Str × ℚ) :=
  [("inbound", 9 / 10), ("public", 8 / 10), ("github", 7 / 10), ("producthunt", 5 / 10),
    ("hackernews", 4 / 10), ("tavily", 3 / 10)]

/-- `_SOURCE_AUTHORITY.get(kind, 0.5)`. -/
def authorityOf (kind : Str) : ℚ := (sourceAuthority.lookup kind).getD (1 / 2)

/-- The source kind of an observation: its extractor version up to the first dash. -/
def sourceKind (obs : Observation) : Str :=
  let version := if obs.extractorVersion = [] then ("unknown" : Str) else obs.extractorVersion
  (version.takeWhile (· ≠ '-')).map Char.toLower

/-- The mean of a list, with an empty list counting as one element. -/
def mean (xs : List ℚ) : ℚ := xs.sum / max 1 xs.length

/-- `_trust_for_observations`. -/
def trustForObservations (now : Time) (observations : List Observation) (contradicted : Bool) :
    Trust :=
  let sourceKinds := (observations.map sourceKind).dedup
  let authority := mean (sourceKinds.map authorityOf)
  let directness : ℚ :=
    if ∃ kind ∈ sourceKinds, kind ∈ ([("inbound" : Str), ("github" : Str), ("public" : Str)])
    then 8 / 10 else 1 / 2
  let independence := min 1 ((sourceKinds.length : ℚ) / 2)
  let corroboration := min 1 ((observations.length : ℚ) / 3)
  let freshness := mean (observations.map fun obs =>
    max (1 / 2) (1 - (max 0 (daysBetween now obs.observedAt) : ℤ) / 365))
  let extraction := mean (observations.map fun obs => max 0 (min 1 obs.confidence))
  let identity : ℚ := 1 / 2
  let contradictionPenalty : ℚ := if contradicted then 2 / 10 else 0
  let score := max 0 (min 1
    (2 / 10 * authority + 1 / 10 * directness + 1 / 10 * independence +
      15 / 100 * corroboration + 15 / 100 * freshness + 2 / 10 * extraction +
      1 / 10 * identity - contradictionPenalty))
  let width := max (1 / 10) (35 / 100 - 2 / 10 * extraction - 1 / 10 * corroboration)
  { version := "claim-trust-v1"
    score := roundTo 4 score
    low := roundTo 4 (max 0 (score - width))
    high := roundTo 4 (min 1 (score + width))
    components :=
      { sourceAuthority := roundTo 4 authority
        directness := roundTo 4 directness
        independence := roundTo 4 independence
        corroboration := roundTo 4 corroboration
        freshness := roundTo 4 freshness
        extractionConfidence := roundTo 4 extraction
        identityConfidence := identity
        contradictionPenalty := contradictionPenalty
        observationCount := observations.length } }

end VCBrain
