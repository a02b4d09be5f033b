import Mathlib.Data.List.ReduceOption
import VCBrain.Foundation.Comparator
import VCBrain.Foundation.Dict
import VCBrain.Foundation.Leaders

set_option relaxedAutoImplicit false
set_option autoImplicit false

/-!
# The order of candidates

The sourcing page ranks candidates without averaging their axes: complete profiles stand before
incomplete ones and are ordered by their weakest axis. The decision queue is sorted by a criterion
that the reader chooses.

## Main definitions

* `rankCandidates`, `compareRank` — the ranking and its comparator.
* `Improves` — measured axes are not lowered, and further ones may be measured.
* `sortDecisionCandidates`, `ComesBefore` — the queue, and the order it promises.

## Main results

* `rankCandidates_filter_of_perm` — neither the order in which candidates arrive nor those that are
  hidden matter for the ranking.
* `rankCandidates_improved` — a candidate that improves stays before those it stood before.
* `sortDecisionCandidates_laws` — the queue is complete, in order and stable.

## Design

A sort of the language is stable, and determined by a consistent comparator; the results show that
the comparators are. Numbers are exact, and the dates of the server are parsed.
-/

namespace VCBrain

/-! ## Candidates -/

/-- `CandidateScores`; a field that is absent is null. -/
structure ShownScores where
  thesisFit : Option ℚ := none
  founder : Option ℚ := none
  market : Option ℚ := none
  ideaMarket : Option ℚ := none
  discoverySignal : Option ℚ := none
  raw : Option (Dict ℚ) := none

/-- `Candidate`, as the sorts read it. -/
structure CandidateRecord where
  id : Str
  stableId : Str
  displayName : Option Str := none
  scores : Option ShownScores := none
  createdAt : Option Str := none

/-- What the browser adds: the comparison of texts in a language, which is consistent, and the
parser of dates. -/
structure Browser where
  localeCompare : Comparator Str
  dateParse : Str → ℚ
  consistent : localeCompare.Consistent

/-- `candidate.scores?.field ?? candidate.scores?.raw?.key`. -/
def scoreOrRaw (field : ShownScores → Option ℚ) (key : Str) (candidate : CandidateRecord) :
    Option ℚ :=
  candidate.scores.bind fun scores => (field scores).or (scores.raw.bind fun raw => raw.get? key)

/-- The three axes, measured or not. -/
def axisReadings (candidate : CandidateRecord) : List (Option ℚ) :=
  [scoreOrRaw ShownScores.founder "founder" candidate,
    scoreOrRaw ShownScores.market "market" candidate,
    scoreOrRaw ShownScores.ideaMarket "idea_market" candidate]

/-- `axisValues`. -/
def axisValues (candidate : CandidateRecord) : List ℚ := (axisReadings candidate).reduceOption

/-- `discoverySignal`. -/
def discoverySignal (candidate : CandidateRecord) : ℚ :=
  (scoreOrRaw ShownScores.discoverySignal "composite" candidate).getD 0

/-! ## The ranking -/

/-- `Math.min(...axes)` of a list that is not empty. -/
def axisFloor (axes : List ℚ) : ℚ := axes.min?.getD 0

/-- `Math.max(...axes)` of a list that is not empty. -/
def axisCeiling (axes : List ℚ) : ℚ := axes.max?.getD 0

/-- `discoverySignal(right) - discoverySignal(left) || left.id.localeCompare(right.id)`. -/
def compareSignals (browser : Browser) : Comparator CandidateRecord := fun left right =>
  let difference := discoverySignal right - discoverySignal left
  if difference ≠ 0 then difference else browser.localeCompare left.id right.id

/-- The comparator of `rankCandidates`. -/
def compareRank (browser : Browser) : Comparator CandidateRecord := fun left right =>
  let leftAxes := axisValues left
  let rightAxes := axisValues right
  let leftComplete := decide (leftAxes.length = 3)
  let rightComplete := decide (rightAxes.length = 3)
  if leftComplete ≠ rightComplete then
    if leftComplete then -1 else 1
  else if leftComplete && rightComplete then
    let floorDifference := axisFloor rightAxes - axisFloor leftAxes
    let strongestDifference := axisCeiling rightAxes - axisCeiling leftAxes
    if floorDifference ≠ 0 then floorDifference
    else if strongestDifference ≠ 0 then strongestDifference
    else compareSignals browser left right
  else
    let measuredDifference := (rightAxes.length : ℚ) - leftAxes.length
    if measuredDifference ≠ 0 then measuredDifference else compareSignals browser left right

/-- `rankCandidates`. -/
def rankCandidates (browser : Browser) (candidates : List CandidateRecord) :
    List CandidateRecord :=
  (compareRank browser).sort candidates

/-- No two candidates have ids that compare equal. -/
def DistinctIds (browser : Browser) (candidates : List CandidateRecord) : Prop :=
  candidates.Pairwise fun a b => browser.localeCompare a.id b.id ≠ 0

/-- The candidate is the same, no axis that was measured is lowered, and the discovery signal is not
lowered; axes that were not measured may be, with any outcome. -/
structure Improves (c c' : CandidateRecord) : Prop where
  id : c'.id = c.id
  axes : List.Forall₂ (fun r r' => ∀ v ∈ r, ∃ v' ∈ r', v ≤ v') (axisReadings c) (axisReadings c')
  signal : discoverySignal c ≤ discoverySignal c'

/-! ## The decision queue -/

/-- `DecisionSort`. -/
inductive DecisionSort where
  | thesis
  | founder
  | market
  | ideaMarket
  | newest
  | name
deriving DecidableEq

/-- `candidateName`. -/
def candidateName (candidate : CandidateRecord) : Str :=
  candidate.displayName.getD candidate.stableId

/-- `dateValue`. -/
def dateValue (browser : Browser) : Option Str → ℚ
  | none => 0
  | some value => if value = [] then 0 else browser.dateParse value

/-- `compareNullableScores`. -/
def compareNullableScores : Comparator (Option ℚ)
  | none, none => 0
  | none, some _ => 1
  | some _, none => -1
  | some left, some right => right - left

/-- `candidateName(left).localeCompare(candidateName(right))`. -/
def compareNames (browser : Browser) : Comparator CandidateRecord := fun left right =>
  browser.localeCompare (candidateName left) (candidateName right)

/-- `scoreFor`, for the criteria that are scores. -/
def DecisionSort.scoreFor : DecisionSort → CandidateRecord → Option ℚ
  | thesis, candidate => candidate.scores.bind ShownScores.thesisFit
  | founder, candidate => candidate.scores.bind ShownScores.founder
  | market, candidate => candidate.scores.bind ShownScores.market
  | _, candidate => candidate.scores.bind ShownScores.ideaMarket

/-- The comparator of a criterion. -/
def compareDecision (browser : Browser) : DecisionSort → Comparator CandidateRecord
  | .name => compareNames browser
  | .newest => Comparator.orElse
      (fun left right => dateValue browser right.createdAt - dateValue browser left.createdAt)
      (compareNames browser)
  | sortBy => Comparator.orElse
      (fun left right => compareNullableScores (sortBy.scoreFor left) (sortBy.scoreFor right))
      (compareNames browser)

/-- One score stands above another one; what is missing stands below what is there. -/
def ScoreAbove (a b : Option ℚ) : Prop := ∃ s ∈ a, ∀ s' ∈ b, s' < s

/-- What a criterion promises: the candidate is above the other one, or the names are in order. -/
def ComesBefore (browser : Browser) : DecisionSort → CandidateRecord → CandidateRecord → Prop
  | .name, a, b => compareNames browser a b ≤ 0
  | .newest, a, b =>
    dateValue browser b.createdAt < dateValue browser a.createdAt ∨
      (dateValue browser a.createdAt = dateValue browser b.createdAt ∧ compareNames browser a b ≤ 0)
  | sortBy, a, b =>
    ScoreAbove (sortBy.scoreFor a) (sortBy.scoreFor b) ∨
      (sortBy.scoreFor a = sortBy.scoreFor b ∧ compareNames browser a b ≤ 0)

/-- `sortDecisionCandidates`. -/
def sortDecisionCandidates (browser : Browser) (candidates : List CandidateRecord)
    (sortBy : DecisionSort) : List CandidateRecord :=
  (compareDecision browser sortBy).sort candidates

/-! ## Ranks -/

section Rank

open Comparator

variable {browser : Browser} {records records' : List CandidateRecord} {c c' d : CandidateRecord}

/-- All three axes are measured. -/
def Complete (candidate : CandidateRecord) : Bool := decide ((axisValues candidate).length = 3)

/-- The comparator is composed of others. -/
lemma compareRank_eq (browser : Browser) : compareRank browser =
    orElse (byClass Complete
        (orElse (descending fun candidate => axisFloor (axisValues candidate))
          (descending fun candidate => axisCeiling (axisValues candidate)))
        (descending fun candidate => ((axisValues candidate).length : ℚ)))
      (orElse (descending discoverySignal) fun left right =>
        browser.localeCompare left.id right.id) := by
  rw [orElse_byClass, orElse_assoc]
  funext left right
  have hcases : compareRank browser left right =
      if Complete left ≠ Complete right then (if Complete left then -1 else 1)
      else if Complete left && Complete right then
        orElse (descending fun candidate => axisFloor (axisValues candidate))
          (orElse (descending fun candidate => axisCeiling (axisValues candidate))
            (compareSignals browser)) left right
      else orElse (descending fun candidate => ((axisValues candidate).length : ℚ))
        (compareSignals browser) left right := rfl
  rw [hcases]
  unfold byClass
  cases Complete left <;> cases Complete right <;> rfl

lemma consistent_compareRank : (compareRank browser).Consistent := by
  rw [compareRank_eq]
  refine Consistent.orElse ?_ ((consistent_descending _).orElse (browser.consistent.comap _))
  exact ((consistent_descending _).orElse (consistent_descending _)).byClass
    (consistent_descending _)

/-- Only candidates whose ids compare equal tie. -/
lemma localeCompare_eq_zero (h : compareRank browser c d = 0) :
    browser.localeCompare c.id d.id = 0 := by
  rw [compareRank_eq, orElse_eq_zero_iff, orElse_eq_zero_iff] at h
  exact h.2.2

/-- **One ranking.** Candidates with distinct ids are ranked in one way, in whichever order they
arrive, and hiding some of them leaves the ranking of the others as it is.

**Proof sketch.** The comparator is composed of comparisons of numbers and of ids, so it is
consistent, and ids leave no ties. -/
theorem rankCandidates_filter_of_perm (hdistinct : DistinctIds browser records)
    (hperm : records.Perm records') (shown : CandidateRecord → Bool) :
    (rankCandidates browser records).filter shown =
      rankCandidates browser (records'.filter shown) := by
  unfold rankCandidates
  rw [consistent_compareRank.filter_sort]
  refine consistent_compareRank.sort_eq_of_perm (hperm.filter shown) fun a ha b hb htie => ?_
  by_contra hne
  have hsymm : Std.Symm fun a b : CandidateRecord => browser.localeCompare a.id b.id ≠ 0 :=
    ⟨fun a b h hzero => h (browser.consistent.eq_zero_comm.mp hzero)⟩
  exact hdistinct.forall (List.mem_filter.mp ha).1 (List.mem_filter.mp hb).1 hne
    (localeCompare_eq_zero htie)

/-- A browser for ids that are one letter. -/
def letters : Browser where
  localeCompare := descending fun id => -(id.headI.toNat : ℚ)
  dateParse := fun _ => 0
  consistent := consistent_descending _

/-- A candidate with three axes. -/
def measured : CandidateRecord where
  id := ['m']
  stableId := "github:m"
  scores := some { founder := some (9 / 10), market := some (7 / 10), ideaMarket := some (8 / 10) }

/-- A candidate with one axis. -/
def lead : CandidateRecord where
  id := ['l']
  stableId := "github:l"
  scores := some { founder := some (5 / 10), discoverySignal := some (6 / 10) }

lemma distinctIds_lead_measured : DistinctIds letters [lead, measured] := by
  unfold DistinctIds
  decide +kernel

/-- Of two candidates, in either order, those with three axes are shown. -/
theorem rankCandidates_filter_of_perm_lead :
    (rankCandidates letters [lead, measured]).filter Complete =
      rankCandidates letters ([measured, lead].filter Complete) :=
  rankCandidates_filter_of_perm distinctIds_lead_measured (List.Perm.swap measured lead []) Complete

/-! ### Improving -/

/-- What is measured stays measured. -/
lemma length_reduceOption_le {os os' : List (Option ℚ)}
    (h : List.Forall₂ (fun r r' => ∀ v ∈ r, ∃ v' ∈ r', v ≤ v') os os') :
    os.reduceOption.length ≤ os'.reduceOption.length := by
  induction h with
  | nil => exact le_rfl
  | @cons r r' os os' hr _ ih =>
    cases r with
    | none => cases r' <;> simp <;> omega
    | some v =>
      obtain ⟨v', rfl, -⟩ := hr v rfl
      simpa using ih

/-- If no more is measured, then the same is. -/
lemma forall₂_reduceOption {os os' : List (Option ℚ)}
    (h : List.Forall₂ (fun r r' => ∀ v ∈ r, ∃ v' ∈ r', v ≤ v') os os')
    (hlength : os.reduceOption.length = os'.reduceOption.length) :
    List.Forall₂ (· ≤ ·) os.reduceOption os'.reduceOption := by
  induction h with
  | nil => exact .nil
  | @cons r r' os os' hr hrest ih =>
    cases r with
    | none =>
      cases r' with
      | none => exact ih (by simpa using hlength)
      | some v' =>
        have hle := length_reduceOption_le hrest
        simp at hlength
        omega
    | some v =>
      obtain ⟨v', rfl, hle⟩ := hr v rfl
      exact .cons hle (ih (by simpa using hlength))

lemma axisFloor_mono {axes axes' : List ℚ} (h : List.Forall₂ (· ≤ ·) axes axes') :
    axisFloor axes ≤ axisFloor axes' := by
  have hfold : ∀ {l l' : List ℚ}, List.Forall₂ (· ≤ ·) l l' → ∀ {v v' : ℚ}, v ≤ v' →
      l.foldl min v ≤ l'.foldl min v' := by
    intro l l' hl
    induction hl with
    | nil => exact id
    | cons hle _ ih => exact fun hv => ih (min_le_min hv hle)
  cases h with
  | nil => exact le_rfl
  | cons hle hrest => exact hfold hrest hle

lemma axisCeiling_mono {axes axes' : List ℚ} (h : List.Forall₂ (· ≤ ·) axes axes') :
    axisCeiling axes ≤ axisCeiling axes' := by
  have hfold : ∀ {l l' : List ℚ}, List.Forall₂ (· ≤ ·) l l' → ∀ {v v' : ℚ}, v ≤ v' →
      l.foldl max v ≤ l'.foldl max v' := by
    intro l l' hl
    induction hl with
    | nil => exact id
    | cons hle _ ih => exact fun hv => ih (max_le_max hv hle)
  cases h with
  | nil => exact le_rfl
  | cons hle hrest => exact hfold hrest hle

/-- A candidate that improves does not come after what it was. -/
lemma Improves.compareRank_nonpos (h : Improves c c') (browser : Browser) :
    compareRank browser c' c ≤ 0 := by
  have hlength : (axisValues c).length ≤ (axisValues c').length := length_reduceOption_le h.axes
  have hmost : (axisValues c').length ≤ 3 := List.reduceOption_length_le (axisReadings c')
  rw [compareRank_eq]
  refine orElse_nonpos ?_ (orElse_nonpos ?_ ?_)
  · unfold byClass Complete
    by_cases hbefore : (axisValues c).length = 3
    · have hafter : (axisValues c').length = 3 := by omega
      have haxes : List.Forall₂ (· ≤ ·) (axisValues c) (axisValues c') :=
        forall₂_reduceOption h.axes (hbefore.trans hafter.symm)
      simp only [hbefore, hafter, decide_true, ne_eq, not_true_eq_false, if_false, if_true]
      exact orElse_nonpos (sub_nonpos.mpr (axisFloor_mono haxes))
        (sub_nonpos.mpr (axisCeiling_mono haxes))
    · by_cases hafter : (axisValues c').length = 3
      · simp [hbefore, hafter]
      · simpa [hbefore, hafter, descending] using hlength
  · exact sub_nonpos.mpr h.signal
  · show browser.localeCompare c'.id c.id ≤ 0
    rw [h.id, browser.consistent.self]

/-- **Improving.** A candidate that improves stays before every candidate it stood before. In
particular it costs no rank to measure an axis, whatever the outcome.

**Proof sketch.** The improved candidate compares at most equal with what it was, so it does not
come after the others, and distinct ids leave no ties. -/
theorem rankCandidates_improved {pre post : List CandidateRecord}
    (hdistinct : DistinctIds browser (pre ++ c :: post)) (himproves : Improves c c')
    (hbefore : [c, d].Sublist (rankCandidates browser (pre ++ c :: post))) :
    [c', d].Sublist (rankCandidates browser (pre ++ c' :: post)) := by
  have hranked : DistinctIds browser (rankCandidates browser (pre ++ c :: post)) :=
    ((perm_sort _ _).pairwise_iff fun h hzero =>
      h (browser.consistent.eq_zero_comm.mp hzero)).mpr hdistinct
  have hids : browser.localeCompare c'.id d.id ≠ 0 := by
    rw [himproves.id]
    simpa using hranked.sublist hbefore
  have hd : d ∈ pre ++ c :: post := mem_sort.mp (hbefore.subset (by simp))
  have hne : d ≠ c := by
    rintro rfl
    rw [himproves.id, browser.consistent.self] at hids
    exact hids rfl
  have hle : compareRank browser c' d ≤ 0 :=
    consistent_compareRank.trans c' c d (himproves.compareRank_nonpos browser)
      (consistent_compareRank.le_of_sublist hbefore)
  have hlt : compareRank browser c' d < 0 :=
    lt_of_le_of_ne hle fun htie => hids (localeCompare_eq_zero htie)
  refine consistent_compareRank.sublist_of_lt (by simp) ?_ hlt
  have hrest : d ∈ pre ∨ d ∈ post := by simpa [hne] using hd
  exact List.mem_append.mpr (hrest.imp_right (List.mem_cons_of_mem _))

/-- The lead, once its market is measured, though lowly. -/
def lead' : CandidateRecord :=
  { lead with
    scores := some
      { founder := some (5 / 10), market := some (1 / 10), discoverySignal := some (6 / 10) } }

/-- Another lead, with the same axis as the first one. -/
def rival : CandidateRecord :=
  { lead with
    id := ['r']
    scores := some { founder := some (5 / 10) } }

lemma improves_lead : Improves lead lead' where
  id := rfl
  axes := by
    have hnone : ∀ v : ℚ, v ∈ (none : Option ℚ) → ∃ v' ∈ (none : Option ℚ), v ≤ v' := by simp
    refine .cons (fun v hv => ⟨v, hv, le_rfl⟩) (.cons ?_ (.cons hnone .nil))
    rintro v ⟨⟩
  signal := le_rfl

/-- The lead that was before its rival stays there when its market is measured. -/
theorem rankCandidates_improved_lead :
    [lead', rival].Sublist (rankCandidates letters ([rival, measured] ++ lead' :: [])) := by
  refine rankCandidates_improved ?_ improves_lead ?_
  · unfold DistinctIds
    decide +kernel
  · refine consistent_compareRank.sublist_of_lt (by simp) (by simp) ?_
    norm_num [compareRank, compareSignals, axisValues, axisReadings, scoreOrRaw, discoverySignal,
      lead, rival, List.reduceOption]

end Rank

/-! ## The queue's order -/

section Queue

open Comparator

variable {browser : Browser} {sortBy : DecisionSort} {a b : CandidateRecord}

/-- Scores that are there come first, in descending order. -/
lemma compareNullableScores_eq : compareNullableScores =
    byClass Option.isSome (descending fun score => score.getD 0) (descending fun _ => 0) := by
  funext left right
  cases left <;> cases right <;> simp [compareNullableScores, byClass, descending]

lemma consistent_compareNullableScores : compareNullableScores.Consistent := by
  rw [compareNullableScores_eq]
  exact (consistent_descending _).byClass (consistent_descending _)

lemma compareNullableScores_lt_iff {left right : Option ℚ} :
    compareNullableScores left right < 0 ↔ ScoreAbove left right := by
  cases left <;> cases right <;> simp [compareNullableScores, ScoreAbove]

lemma compareNullableScores_eq_zero_iff {left right : Option ℚ} :
    compareNullableScores left right = 0 ↔ left = right := by
  cases left <;> cases right <;> simp [compareNullableScores, sub_eq_zero, eq_comm]

lemma consistent_compareNames : (compareNames browser).Consistent := browser.consistent.comap _

lemma consistent_compareDecision : (compareDecision browser sortBy).Consistent := by
  have hscores : ∀ value : CandidateRecord → Option ℚ,
      (Comparator.orElse (fun left right => compareNullableScores (value left) (value right))
        (compareNames browser)).Consistent := fun value =>
    (consistent_compareNullableScores.comap value).orElse consistent_compareNames
  cases sortBy with
  | name => exact consistent_compareNames
  | newest => exact (consistent_descending _).orElse consistent_compareNames
  | thesis => exact hscores _
  | founder => exact hscores _
  | market => exact hscores _
  | ideaMarket => exact hscores _

/-- The comparator asks for the promise. -/
lemma compareDecision_le_iff : compareDecision browser sortBy a b ≤ 0 ↔
    ComesBefore browser sortBy a b := by
  have hscores : ∀ value : CandidateRecord → Option ℚ,
      Comparator.orElse (fun left right => compareNullableScores (value left) (value right))
        (compareNames browser) a b ≤ 0 ↔
      ScoreAbove (value a) (value b) ∨ (value a = value b ∧ compareNames browser a b ≤ 0) := by
    intro value
    rw [orElse_le_iff, compareNullableScores_lt_iff, compareNullableScores_eq_zero_iff]
  cases sortBy with
  | name => exact Iff.rfl
  | newest =>
    refine orElse_le_iff.trans ?_
    rw [sub_neg, sub_eq_zero, eq_comm]
    exact Iff.rfl
  | thesis => exact hscores _
  | founder => exact hscores _
  | market => exact hscores _
  | ideaMarket => exact hscores _

/-- **The decision queue.** Whatever the criterion, the queue has the candidates it was given, each
once; one that stands before another one is above it, where values that are missing come last, or
has the same value and the earlier name; and candidates without such a difference stand as they
stood.

**Proof sketch.** The comparator is composed of consistent ones, and asks for what is promised. -/
theorem sortDecisionCandidates_laws (browser : Browser) (candidates : List CandidateRecord)
    (sortBy : DecisionSort) :
    (sortDecisionCandidates browser candidates sortBy).Perm candidates ∧
    (sortDecisionCandidates browser candidates sortBy).Pairwise (ComesBefore browser sortBy) ∧
    ∀ chosen : CandidateRecord → Bool,
      (∀ a ∈ candidates, chosen a = true → ∀ b ∈ candidates, chosen b = true →
        ComesBefore browser sortBy a b) →
      (sortDecisionCandidates browser candidates sortBy).filter chosen =
        candidates.filter chosen := by
  refine ⟨perm_sort _ _, ?_, fun chosen htied => ?_⟩
  · exact (consistent_compareDecision.pairwise_sort candidates).imp compareDecision_le_iff.mp
  · refine consistent_compareDecision.filter_sort_of_tied fun a ha hca b hb hcb => ?_
    have hab := compareDecision_le_iff.mpr (htied a ha hca b hb hcb)
    have hba := compareDecision_le_iff.mpr (htied b hb hcb a ha hca)
    exact le_antisymm hab (consistent_compareDecision.le_iff.mp hba)

end Queue

end VCBrain
