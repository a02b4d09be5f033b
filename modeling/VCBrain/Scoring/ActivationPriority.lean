import VCBrain.Foundation.Dict
import VCBrain.Foundation.WeightedMean
import VCBrain.Processing.Trust

set_option relaxedAutoImplicit false
set_option autoImplicit false

/-!
# Renormalised scores

The activation priority and the composite signal score are weighted means of the inputs that are
known. Missing inputs are left out, and the weights of the others are rescaled.

## Main definitions

* `computeActivationPriority` — `compute_activation_priority`.
* `computeSignalScore` — `compute_signal_score`.
* `Renormalised` — what such a score promises: bounds, growth, and no penalty for missing inputs.

## Main results

* `priorityScores_renormalised` — both scores keep the promise.

## Design

Numbers are exact, up to the rounding at the end.
-/

namespace VCBrain

/-! ## Activation priority -/

/-- `_WEIGHTS`. -/
def activationWeights : Dict ℚ where
  items := [("thesis_fit", 18 / 100), ("novelty", 12 / 100), ("momentum", 10 / 100),
    ("evidence_confidence", 14 / 100), ("identity_confidence", 12 / 100),
    ("contactability", 10 / 100), ("deadline_pressure", 10 / 100), ("cost_efficiency", 8 / 100),
    ("exploration_quota", 6 / 100)]
  nodup := by decide

/-- `ActivationPriority`. -/
structure ActivationPriority where
  version : Str
  score : ℚ
  components : Dict (Option ℚ)
  missing : List Str
  rationale : Str

/-- `_bounded`. -/
def bounded (value : Option ℚ) : Option ℚ := value.map fun v => max 0 (min 1 v)

/-- The arguments of `compute_activation_priority`. -/
structure ActivationInputs where
  thesisFit : Option ℚ
  novelty : Option ℚ
  momentum : Option ℚ
  evidenceConfidence : Option ℚ
  identityConfidence : Option ℚ
  contactability : Option ℚ
  deadlinePressure : Option ℚ
  cost : Option ℚ
  explorationQuota : Option ℚ

/-- `components`. -/
def ActivationInputs.components (x : ActivationInputs) : Dict (Option ℚ) where
  items := [("thesis_fit", bounded x.thesisFit), ("novelty", bounded x.novelty),
    ("momentum", bounded x.momentum), ("evidence_confidence", bounded x.evidenceConfidence),
    ("identity_confidence", bounded x.identityConfidence),
    ("contactability", bounded x.contactability),
    ("deadline_pressure", bounded x.deadlinePressure),
    ("cost_efficiency", x.cost.map fun cost => 1 / (1 + max 0 cost)),
    ("exploration_quota", bounded x.explorationQuota)]
  nodup := activationWeights.nodup

/-- `known`. -/
def knownItems (components : Dict (Option ℚ)) : List (Str × ℚ) :=
  components.items.filterMap fun item => item.2.map fun value => (item.1, value)

/-- The score before it is rounded. -/
def activationScore (components : Dict (Option ℚ)) : ℚ :=
  let known := knownItems components
  let weight := (known.map fun item => (activationWeights.get? item.1).getD 0).sum
  if weight = 0 then 0
  else (known.map fun item => item.2 * (activationWeights.get? item.1).getD 0).sum / weight

/-- `compute_activation_priority`. -/
def computeActivationPriority (x : ActivationInputs) : ActivationPriority :=
  let missing := (activationWeights.items.map Prod.fst).filter fun key =>
    key ∉ (knownItems x.components).map Prod.fst
  { version := "activation-priority-v1"
    score := roundTo 4 (activationScore x.components)
    components := x.components
    missing := missing
    rationale :=
      if missing ≠ [] then
        ("Known activation signals were renormalized; missing: ".toList ++
          (", ".toList).intercalate missing ++ ".".toList)
      else "All activation signals are present and weighted by activation-priority-v1." }

/-! ## Signal score -/

/-- `_COMPOSITE_WEIGHTS`. -/
def compositeWeights : Dict ℚ where
  items := [("github_signal", 35 / 100), ("producthunt_signal", 25 / 100),
    ("arxiv_signal", 20 / 100), ("web_signal", 20 / 100)]
  nodup := by decide

/-- The arguments of `compute_signal_score`. -/
structure SignalScoreInputs where
  github : ℚ := 0
  producthunt : ℚ := 0
  arxiv : ℚ := 0
  web : ℚ := 0

/-- `components` before the composite is added. -/
def SignalScoreInputs.components (x : SignalScoreInputs) : Dict ℚ where
  items := [("github_signal", roundTo 4 x.github), ("producthunt_signal", roundTo 4 x.producthunt),
    ("arxiv_signal", roundTo 4 x.arxiv), ("web_signal", roundTo 4 x.web)]
  nodup := compositeWeights.nodup

/-- `available`. -/
def availableWeights (components : Dict ℚ) : List (Str × ℚ) :=
  compositeWeights.items.filter fun item => 0 < (components.get? item.1).getD 0

/-- The composite before it is rounded. -/
def compositeScore (components : Dict ℚ) : ℚ :=
  let available := availableWeights components
  let availableWeight := (available.map Prod.snd).sum
  if availableWeight = 0 then 0
  else (available.map fun item => (components.get? item.1).getD 0 * item.2).sum / availableWeight

/-- `compute_signal_score`. -/
def computeSignalScore (x : SignalScoreInputs) : Dict ℚ :=
  (x.components.set "composite" (roundTo 4 (compositeScore x.components))).set "signal_coverage"
    (roundTo 4 ((availableWeights x.components).map Prod.snd).sum)

/-! ## What a renormalised score promises -/

/-- A score `mean`, with the rounded value `result`, of inputs `ι` whose known components are
`known`. -/
structure Renormalised {ι : Type} (known : ι → Str → Option ℚ) (mean result : ι → ℚ) : Prop where
  rounded : ∀ x, result x = roundTo 4 (mean x)
  /-- The score lies between the smallest and the largest known component. -/
  between : ∀ x, (∃ key v, known x key = some v) → ∀ low high,
    (∀ key v, known x key = some v → low ≤ v ∧ v ≤ high) →
      (low ≤ mean x ∧ mean x ≤ high) ∧ roundTo 4 low ≤ result x ∧ result x ≤ roundTo 4 high
  /-- A known component that is raised does not lower the score. -/
  raised : ∀ x x' key v v', known x key = some v → v ≤ v' →
    known x' = Function.update (known x) key (some v') → mean x ≤ mean x' ∧ result x ≤ result x'
  /-- A component at or below the score that becomes unknown does not lower it, while another
  component is known. -/
  forgotten : ∀ x x' key v, known x key = some v → v ≤ mean x →
    known x' = Function.update (known x) key none → (∃ other w, known x' other = some w) →
      mean x ≤ mean x' ∧ result x ≤ result x'

/-- The weights of a table are positive. -/
def PositiveWeights (weights : Dict ℚ) : Prop := ∀ item ∈ weights.items, 0 < item.2

lemma PositiveWeights.get? {weights : Dict ℚ} (h : PositiveWeights weights) :
    ∀ key ∈ weights.items.map Prod.fst, 0 < (weights.get? key).getD 0 := by
  intro key hkey
  obtain ⟨item, hitem, rfl⟩ := List.mem_map.mp hkey
  rw [Dict.get?_eq_some_iff.mpr hitem, Option.getD_some]
  exact h item hitem

/-- **Renormalised means.** The rounded mean of the known values keeps the promise, for keys with
positive weights.

**Proof sketch.** The mean has these properties, and rounding keeps the order. -/
lemma Renormalised.of_knownMean {ι : Type} {known : ι → Str → Option ℚ} {mean result : ι → ℚ}
    {weights : Dict ℚ} (hpositive : PositiveWeights weights)
    (hmean : ∀ x, mean x = knownMean (weights.items.map Prod.fst)
      (fun key => (weights.get? key).getD 0) (known x))
    (hrounded : ∀ x, result x = roundTo 4 (mean x))
    (hkeys : ∀ x key v, known x key = some v → key ∈ weights.items.map Prod.fst) :
    Renormalised known mean result where
  rounded := hrounded
  between x := by
    rintro ⟨key, v, hv⟩ low high hall
    have hlow : low ≤ mean x := by
      rw [hmean]
      exact le_knownMean hpositive.get? (hkeys x key v hv) hv fun k _ w hw => (hall k w hw).1
    have hhigh : mean x ≤ high := by
      rw [hmean]
      exact knownMean_le hpositive.get? (hkeys x key v hv) hv fun k _ w hw => (hall k w hw).2
    rw [hrounded]
    exact ⟨⟨hlow, hhigh⟩, roundTo_mono 4 hlow, roundTo_mono 4 hhigh⟩
  raised x x' key v v' hv hle hx' := by
    have hgrows : mean x ≤ mean x' := by
      rw [hmean, hmean, hx']
      exact knownMean_le_update hpositive.get? weights.nodup (hkeys x key v hv) hv hle
    rw [hrounded, hrounded]
    exact ⟨hgrows, roundTo_mono 4 hgrows⟩
  forgotten x x' key v hv hle hx' := by
    rintro ⟨other, w, hw⟩
    have hgrows : mean x ≤ mean x' := by
      rw [hmean] at hle
      rw [hmean, hmean, hx']
      exact knownMean_le_forget hpositive.get? weights.nodup (hkeys x key v hv) hv hle
        (hkeys x' other w hw) (hx' ▸ hw)
    rw [hrounded, hrounded]
    exact ⟨hgrows, roundTo_mono 4 hgrows⟩

/-! ## Both scores -/

/-- The known components of the activation priority. -/
def ActivationInputs.known (x : ActivationInputs) (key : Str) : Option ℚ :=
  (x.components.get? key).join

/-- The known components of the signal score: those that are positive after rounding. -/
def SignalScoreInputs.known (x : SignalScoreInputs) (key : Str) : Option ℚ :=
  (x.components.get? key).filter fun v => 0 < v

lemma activationScore_eq_knownMean (x : ActivationInputs) : activationScore x.components =
    knownMean (activationWeights.items.map Prod.fst)
      (fun key => (activationWeights.get? key).getD 0) x.known := by
  have hpairs : knownPairs (activationWeights.items.map Prod.fst)
      (fun key => (activationWeights.get? key).getD 0) x.known =
        (knownItems x.components).map fun item =>
          (item.2, (activationWeights.get? item.1).getD 0) := by
    have hkeys : activationWeights.items.map Prod.fst = x.components.items.map Prod.fst := rfl
    rw [knownItems, List.map_filterMap, hkeys]
    have hitems := Dict.filterMap_items (d := x.components) fun key value =>
      value.map fun v => (v, (activationWeights.get? key).getD 0)
    simp only [Option.map_map, Function.comp_def]
    rw [hitems, knownPairs]
    refine List.filterMap_congr fun key _ => ?_
    rw [ActivationInputs.known]
    cases x.components.get? key <;> rfl
  rw [knownMean, hpairs, weightedMean, activationScore, List.map_map, List.map_map]
  rfl

lemma compositeScore_eq_knownMean (x : SignalScoreInputs) : compositeScore x.components =
    knownMean (compositeWeights.items.map Prod.fst)
      (fun key => (compositeWeights.get? key).getD 0) x.known := by
  have hpairs : knownPairs (compositeWeights.items.map Prod.fst)
      (fun key => (compositeWeights.get? key).getD 0) x.known =
        (availableWeights x.components).map fun item =>
          ((x.components.get? item.1).getD 0, item.2) := by
    rw [knownPairs, List.filterMap_map, availableWeights, ← List.filterMap_eq_map,
      ← List.filterMap_eq_filter, List.filterMap_filterMap]
    refine List.filterMap_congr fun item hitem => ?_
    rw [Function.comp_apply, Dict.get?_eq_some_iff.mpr hitem, SignalScoreInputs.known]
    cases hvalue : x.components.get? item.1 with
    | none => simp [Option.guard, hvalue]
    | some v =>
      by_cases hv : 0 < v
      · simp [Option.guard, hvalue, hv]
      · simp [Option.guard, hvalue, hv, not_lt.mp hv]
  rw [knownMean, hpairs, weightedMean, compositeScore, List.map_map, List.map_map]
  rfl

/-- **Renormalised scores.** The activation priority and the composite signal score lie between the
smallest and the largest known component, do not fall when a known component is raised, and do not
fall when a component at or below the score becomes unknown while another one is known.

**Proof sketch.** Both are means of the known components with positive weights. -/
theorem priorityScores_renormalised :
    Renormalised ActivationInputs.known (fun x => activationScore x.components)
      (fun x => (computeActivationPriority x).score) ∧
    Renormalised SignalScoreInputs.known (fun x => compositeScore x.components)
      (fun x => ((computeSignalScore x).get? "composite").getD 0) := by
  constructor
  · have hpositive : PositiveWeights activationWeights := by
      simp [PositiveWeights, activationWeights]
    refine Renormalised.of_knownMean hpositive activationScore_eq_knownMean (fun _ => rfl)
      fun x key v hv => ?_
    · have hitem := Dict.get?_eq_some_iff.mp (Option.join_eq_some_iff.mp hv)
      exact List.mem_map_of_mem (f := Prod.fst) hitem
  · have hpositive : PositiveWeights compositeWeights := by
      simp [PositiveWeights, compositeWeights]
    refine Renormalised.of_knownMean hpositive compositeScore_eq_knownMean (fun x => ?_)
      fun x key v hv => ?_
    · have hne : ("composite".toList : Str) ≠ "signal_coverage".toList := by decide
      rw [computeSignalScore, Dict.get?_set, if_neg hne, Dict.get?_set, if_pos rfl,
        Option.getD_some]
    · have hitem := Dict.get?_eq_some_iff.mp (Option.filter_eq_some_iff.mp hv).1
      exact List.mem_map_of_mem (f := Prod.fst) hitem

/-- Inputs of which none but the thesis fit is known. -/
def thesisFitOnly (thesisFit : Option ℚ) : ActivationInputs where
  thesisFit := thesisFit
  novelty := none
  momentum := none
  evidenceConfidence := none
  identityConfidence := none
  contactability := none
  deadlinePressure := none
  cost := none
  explorationQuota := none

lemma known_thesisFitOnly_of_ne {fit : Option ℚ} {key : Str} (hkey : key ≠ "thesis_fit".toList) :
    (thesisFitOnly fit).known key = none := by
  refine Option.eq_none_iff_forall_ne_some.mpr fun v hv => ?_
  have hitem := Dict.get?_eq_some_iff.mp (Option.join_eq_some_iff.mp hv)
  rcases List.mem_cons.mp hitem with heq | hmem
  · exact hkey (Prod.mk.inj heq).1
  · have hrest : ∀ item ∈ (thesisFitOnly fit).components.items.tail, item.2 = none := by
      simp [ActivationInputs.components, thesisFitOnly, bounded]
    cases hrest _ hmem

/-- If the only known component becomes unknown, the score falls to zero. -/
theorem activationPriority_nothing_known :
    ¬ ∀ (x x' : ActivationInputs) (key : Str) (v : ℚ), x.known key = some v →
      v ≤ (computeActivationPriority x).score → x'.known = Function.update x.known key none →
        (computeActivationPriority x).score ≤ (computeActivationPriority x').score := by
  intro hall
  have hbefore : (computeActivationPriority (thesisFitOnly (some (4 / 5)))).score = 4 / 5 := by
    decide +kernel
  have hafter : (computeActivationPriority (thesisFitOnly none)).score = 0 := by decide +kernel
  have hknown : (thesisFitOnly (some (4 / 5))).known "thesis_fit" = some (4 / 5) := by
    decide +kernel
  have hforgotten : (thesisFitOnly none).known =
      Function.update (thesisFitOnly (some (4 / 5))).known "thesis_fit" none := by
    funext key
    by_cases hkey : key = "thesis_fit".toList
    · rw [hkey, Function.update_self]
      decide +kernel
    · rw [Function.update_of_ne hkey, known_thesisFitOnly_of_ne hkey,
        known_thesisFitOnly_of_ne hkey]
  have hle := hall _ _ _ _ hknown hbefore.ge hforgotten
  rw [hbefore, hafter] at hle
  exact absurd hle (by norm_num)

end VCBrain
