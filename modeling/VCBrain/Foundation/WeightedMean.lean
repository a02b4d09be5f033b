import Mathlib.Algebra.BigOperators.Ring.List
import Mathlib.Algebra.Order.BigOperators.Group.List
import Mathlib.Algebra.Order.Field.Basic
import Mathlib.Logic.Function.Basic
import Mathlib.Tactic.Linarith
import Mathlib.Tactic.Ring

set_option relaxedAutoImplicit false
set_option autoImplicit false

/-!
# Weighted means of the known values

A score is the weighted mean of those components that are known: the weights of the others are left
out of the total, so that the mean is renormalised.

## Main definitions

* `weightedMean` — the mean of values with weights, `0` without a weight.
* `knownMean` — the mean of the known values of some keys.

## Main results

* `le_weightedMean_iff` — a number is at most the mean exactly if the moment about it is not
  negative.
* `knownMean_le_update`, `knownMean_le_forget` — the mean after a value was raised, or forgotten.
* `knownMean_mono` — the mean after any known values were raised.
-/

section WeightedMean

variable {κ K : Type*} [Field K]

/-! ## Moments -/

/-- The moment of values with weights about a number. -/
def momentAbout (c : K) (pairs : List (K × K)) : K := (pairs.map fun p => (p.1 - c) * p.2).sum

@[simp] lemma momentAbout_nil (c : K) : momentAbout c [] = 0 := rfl

@[simp] lemma momentAbout_cons (c : K) (p : K × K) (pairs : List (K × K)) :
    momentAbout c (p :: pairs) = (p.1 - c) * p.2 + momentAbout c pairs := by
  simp [momentAbout]

@[simp] lemma momentAbout_append (c : K) (pairs rest : List (K × K)) :
    momentAbout c (pairs ++ rest) = momentAbout c pairs + momentAbout c rest := by
  simp [momentAbout]

lemma momentAbout_eq (c : K) (pairs : List (K × K)) : momentAbout c pairs =
    (pairs.map fun p => p.1 * p.2).sum - c * (pairs.map Prod.snd).sum := by
  induction pairs with
  | nil => simp
  | cons p pairs ih =>
    rw [momentAbout_cons, ih, List.map_cons, List.map_cons, List.sum_cons, List.sum_cons]
    ring

variable [LinearOrder K]

/-! ## Means -/

/-- The mean of values with weights. -/
def weightedMean (pairs : List (K × K)) : K :=
  let total := (pairs.map Prod.snd).sum
  if total = 0 then 0 else (pairs.map fun p => p.1 * p.2).sum / total

variable [IsStrictOrderedRing K] {c : K} {pairs : List (K × K)}

/-- The weights of some values have a positive total. -/
lemma sum_weights_pos (hweights : ∀ p ∈ pairs, 0 < p.2) (hne : pairs ≠ []) :
    0 < (pairs.map Prod.snd).sum := by
  refine List.sum_pos _ (fun w hw => ?_) (by simpa using hne)
  obtain ⟨p, hp, rfl⟩ := List.mem_map.mp hw
  exact hweights p hp

/-- A number is at most the mean exactly if the moment about it is not negative. -/
lemma le_weightedMean_iff (hweights : ∀ p ∈ pairs, 0 < p.2) (hne : pairs ≠ []) :
    c ≤ weightedMean pairs ↔ 0 ≤ momentAbout c pairs := by
  have htotal := sum_weights_pos hweights hne
  rw [weightedMean, if_neg htotal.ne', le_div_iff₀ htotal, momentAbout_eq, sub_nonneg]

/-- A number is at least the mean exactly if the moment about it is not positive. -/
lemma weightedMean_le_iff (hweights : ∀ p ∈ pairs, 0 < p.2) (hne : pairs ≠ []) :
    weightedMean pairs ≤ c ↔ momentAbout c pairs ≤ 0 := by
  have htotal := sum_weights_pos hweights hne
  rw [weightedMean, if_neg htotal.ne', div_le_iff₀ htotal, momentAbout_eq, sub_nonpos]

/-- The moment about the mean vanishes. -/
lemma momentAbout_weightedMean (hweights : ∀ p ∈ pairs, 0 < p.2) (hne : pairs ≠ []) :
    momentAbout (weightedMean pairs) pairs = 0 :=
  le_antisymm ((weightedMean_le_iff hweights hne).mp le_rfl)
    ((le_weightedMean_iff hweights hne).mp le_rfl)

/-- The moment about a number that no value is below. -/
lemma momentAbout_nonneg (hweights : ∀ p ∈ pairs, 0 < p.2) (hvalues : ∀ p ∈ pairs, c ≤ p.1) :
    0 ≤ momentAbout c pairs := by
  refine List.sum_nonneg fun x hx => ?_
  obtain ⟨p, hp, rfl⟩ := List.mem_map.mp hx
  exact mul_nonneg (sub_nonneg.mpr (hvalues p hp)) (hweights p hp).le

/-- The moment about a number that no value is above. -/
lemma momentAbout_nonpos (hweights : ∀ p ∈ pairs, 0 < p.2) (hvalues : ∀ p ∈ pairs, p.1 ≤ c) :
    momentAbout c pairs ≤ 0 := by
  induction pairs with
  | nil => simp
  | cons p pairs ih =>
    obtain ⟨hweight, hweights⟩ := List.forall_mem_cons.mp hweights
    obtain ⟨hvalue, hvalues⟩ := List.forall_mem_cons.mp hvalues
    rw [momentAbout_cons]
    have hterm := mul_nonpos_of_nonpos_of_nonneg (sub_nonpos.mpr hvalue) hweight.le
    exact add_nonpos hterm (ih hweights hvalues)

/-! ## Known values -/

section Known

/-- The known values of some keys, with the weights of the keys. -/
def knownPairs (keys : List κ) (weight : κ → K) (known : κ → Option K) : List (K × K) :=
  keys.filterMap fun key => (known key).map fun value => (value, weight key)

/-- The weighted mean of the known values. -/
def knownMean (keys : List κ) (weight : κ → K) (known : κ → Option K) : K :=
  weightedMean (knownPairs keys weight known)

variable {keys : List κ} {weight : κ → K} {known : κ → Option K} {key : κ} {value value' : K}

omit [IsStrictOrderedRing K] [LinearOrder K] [Field K] in
lemma mem_knownPairs {p : K × K} : p ∈ knownPairs keys weight known ↔
    ∃ key ∈ keys, known key = some p.1 ∧ weight key = p.2 := by
  simp [knownPairs, Prod.ext_iff]

omit [IsStrictOrderedRing K] [LinearOrder K] [Field K] in
lemma knownPairs_ne_nil (hkey : key ∈ keys) (hvalue : known key = some value) :
    knownPairs keys weight known ≠ [] :=
  List.ne_nil_of_mem (a := (value, weight key)) (mem_knownPairs.mpr ⟨key, hkey, hvalue, rfl⟩)

omit [IsStrictOrderedRing K] in
lemma knownPairs_pos (hweights : ∀ key ∈ keys, 0 < weight key) :
    ∀ p ∈ knownPairs keys weight known, 0 < p.2 := by
  intro p hp
  obtain ⟨key, hkey, -, hweight⟩ := mem_knownPairs.mp hp
  rw [← hweight]
  exact hweights key hkey

/-- The mean is at least what all known values are. -/
lemma le_knownMean (hweights : ∀ key ∈ keys, 0 < weight key) (hkey : key ∈ keys)
    (hvalue : known key = some value) (hall : ∀ key ∈ keys, ∀ v, known key = some v → c ≤ v) :
    c ≤ knownMean keys weight known := by
  refine (le_weightedMean_iff (knownPairs_pos hweights) (knownPairs_ne_nil hkey hvalue)).mpr ?_
  refine momentAbout_nonneg (knownPairs_pos hweights) fun p hp => ?_
  obtain ⟨key, hkey, hknown, -⟩ := mem_knownPairs.mp hp
  exact hall key hkey p.1 hknown

/-- The mean is at most what all known values are. -/
lemma knownMean_le (hweights : ∀ key ∈ keys, 0 < weight key) (hkey : key ∈ keys)
    (hvalue : known key = some value) (hall : ∀ key ∈ keys, ∀ v, known key = some v → v ≤ c) :
    knownMean keys weight known ≤ c := by
  refine (weightedMean_le_iff (knownPairs_pos hweights) (knownPairs_ne_nil hkey hvalue)).mpr ?_
  refine momentAbout_nonpos (knownPairs_pos hweights) fun p hp => ?_
  obtain ⟨key, hkey, hknown, -⟩ := mem_knownPairs.mp hp
  exact hall key hkey p.1 hknown

/-- The moment grows with the known values. -/
lemma momentAbout_knownPairs_mono {known' : κ → Option K} (c : K)
    (hweights : ∀ key ∈ keys, 0 < weight key)
    (h : ∀ key ∈ keys, Option.Rel (· ≤ ·) (known key) (known' key)) :
    momentAbout c (knownPairs keys weight known) ≤
      momentAbout c (knownPairs keys weight known') := by
  induction keys with
  | nil => exact le_rfl
  | cons key keys ih =>
    obtain ⟨hweight, hweights⟩ := List.forall_mem_cons.mp hweights
    obtain ⟨hvalue, h⟩ := List.forall_mem_cons.mp h
    have hrest := ih hweights h
    unfold knownPairs at hrest ⊢
    rw [List.filterMap_cons, List.filterMap_cons]
    cases hknown : known key with
    | none =>
      cases hknown' : known' key with
      | none => exact hrest
      | some v' =>
        rw [hknown, hknown'] at hvalue
        cases hvalue
    | some v =>
      cases hknown' : known' key with
      | none =>
        rw [hknown, hknown'] at hvalue
        cases hvalue
      | some v' =>
        rw [hknown, hknown'] at hvalue
        obtain hle : v ≤ v' := by
          cases hvalue with
          | some hle => exact hle
        simp only [Option.map_some, momentAbout_cons]
        exact add_le_add (mul_le_mul_of_nonneg_right (sub_le_sub_right hle c) hweight.le) hrest

/-- **Raised values.** The mean is not lowered if the same values are known and none is lower.

**Proof sketch.** The moment about the old mean vanishes, and grows with the values. -/
theorem knownMean_mono {known' : κ → Option K} (hweights : ∀ key ∈ keys, 0 < weight key)
    (h : ∀ key ∈ keys, Option.Rel (· ≤ ·) (known key) (known' key)) :
    knownMean keys weight known ≤ knownMean keys weight known' := by
  by_cases hempty : ∃ key ∈ keys, ∃ value, known key = some value
  · obtain ⟨key, hkey, value, hvalue⟩ := hempty
    obtain ⟨value', hvalue'⟩ : ∃ value', known' key = some value' := by
      have hrel := h key hkey
      cases hvalue' : known' key with
      | some value' => exact ⟨value', rfl⟩
      | none =>
        rw [hvalue, hvalue'] at hrel
        cases hrel
    refine (le_weightedMean_iff (knownPairs_pos hweights) (knownPairs_ne_nil hkey hvalue')).mpr ?_
    have hmoment := momentAbout_knownPairs_mono (knownMean keys weight known) hweights h
    rwa [knownMean, momentAbout_weightedMean (knownPairs_pos hweights)
      (knownPairs_ne_nil hkey hvalue)] at hmoment
  · have hnone : ∀ key ∈ keys, known key = none ∧ known' key = none := by
      intro key hkey
      have hknown : known key = none :=
        Option.eq_none_iff_forall_ne_some.mpr fun v hv => hempty ⟨key, hkey, v, hv⟩
      have hrel := h key hkey
      cases hknown' : known' key with
      | none => exact ⟨hknown, rfl⟩
      | some v =>
        rw [hknown, hknown'] at hrel
        cases hrel
    have hpairs : knownPairs keys weight known = knownPairs keys weight known' :=
      List.filterMap_congr fun key hkey => by rw [(hnone key hkey).1, (hnone key hkey).2]
    rw [knownMean, knownMean, hpairs]

variable [DecidableEq κ]

omit [IsStrictOrderedRing K] [LinearOrder K] [Field K] in
/-- The known values around a key, for every value that the key may have. -/
lemma exists_knownPairs_update (weight : κ → K) (known : κ → Option K) (hnodup : keys.Nodup)
    (hkey : key ∈ keys) :
    ∃ before after, ∀ value : Option K, knownPairs keys weight (Function.update known key value) =
      before ++ (value.map fun v => (v, weight key)).toList ++ after := by
  obtain ⟨front, back, rfl⟩ := List.mem_iff_append.mp hkey
  obtain ⟨-, hback, hcross⟩ := List.nodup_append.mp hnodup
  have hout : ∀ part : List κ, key ∉ part → ∀ value : Option K,
      knownPairs part weight (Function.update known key value) = knownPairs part weight known := by
    intro part hpart value
    refine List.filterMap_congr fun k hk => ?_
    have hne : k ≠ key := ne_of_mem_of_not_mem hk hpart
    rw [Function.update_of_ne hne]
  have hfront : key ∉ front := fun h => hcross key h key (List.mem_cons_self ..) rfl
  refine ⟨knownPairs front weight known, knownPairs back weight known, fun value => ?_⟩
  rw [← hout front hfront value, ← hout back (List.nodup_cons.mp hback).1 value]
  cases value <;> simp [knownPairs]

/-- **A raised value.** The mean is not lowered if a known value is raised.

**Proof sketch.** The moment about the old mean vanishes, and grows with the value. -/
theorem knownMean_le_update (hweights : ∀ key ∈ keys, 0 < weight key) (hnodup : keys.Nodup)
    (hkey : key ∈ keys) (hvalue : known key = some value) (hle : value ≤ value') :
    knownMean keys weight known ≤
      knownMean keys weight (Function.update known key (some value')) := by
  obtain ⟨before, after, hpairs⟩ := exists_knownPairs_update weight known hnodup hkey
  have hold : knownPairs keys weight known =
      before ++ [(value, weight key)] ++ after := by
    rw [← Function.update_eq_self key known, hvalue]
    exact hpairs (some value)
  have hnew := hpairs (some value')
  have hmean := momentAbout_weightedMean (knownPairs_pos hweights) (knownPairs_ne_nil hkey hvalue)
  refine (le_weightedMean_iff (knownPairs_pos hweights)
    (knownPairs_ne_nil hkey (Function.update_self ..))).mpr ?_
  rw [← knownMean] at hmean
  set mean := knownMean keys weight known
  rw [hold] at hmean
  rw [hnew]
  simp only [momentAbout_append, momentAbout_cons, momentAbout_nil, Option.map_some,
    Option.toList_some] at hmean ⊢
  have hterm : (value - mean) * weight key ≤ (value' - mean) * weight key :=
    mul_le_mul_of_nonneg_right (sub_le_sub_right hle mean) (hweights key hkey).le
  linarith

/-- **A forgotten value.** The mean is not lowered if a value that is at most the mean is not known
any more, while another one is.

**Proof sketch.** The moment about the old mean vanishes, and the term of this value in it is not
positive. -/
theorem knownMean_le_forget (hweights : ∀ key ∈ keys, 0 < weight key) (hnodup : keys.Nodup)
    (hkey : key ∈ keys) (hvalue : known key = some value)
    (hle : value ≤ knownMean keys weight known) {other : κ} (hother : other ∈ keys)
    (hknown : Function.update known key none other = some value') :
    knownMean keys weight known ≤ knownMean keys weight (Function.update known key none) := by
  obtain ⟨before, after, hpairs⟩ := exists_knownPairs_update weight known hnodup hkey
  have hold : knownPairs keys weight known =
      before ++ [(value, weight key)] ++ after := by
    rw [← Function.update_eq_self key known, hvalue]
    exact hpairs (some value)
  have hnew := hpairs none
  have hmean := momentAbout_weightedMean (knownPairs_pos hweights) (knownPairs_ne_nil hkey hvalue)
  refine (le_weightedMean_iff (knownPairs_pos hweights) (knownPairs_ne_nil hother hknown)).mpr ?_
  rw [← knownMean] at hmean
  set mean := knownMean keys weight known
  rw [hold] at hmean
  rw [hnew]
  simp only [momentAbout_append, momentAbout_cons, momentAbout_nil, Option.map_none,
    Option.toList_none] at hmean ⊢
  have hterm : (value - mean) * weight key ≤ 0 :=
    mul_nonpos_of_nonpos_of_nonneg (sub_nonpos.mpr hle) (hweights key hkey).le
  linarith

end Known

end WeightedMean
