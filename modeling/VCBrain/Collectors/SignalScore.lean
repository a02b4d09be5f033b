import VCBrain.Collectors.SignalSelection
import VCBrain.Scoring.ActivationPriority

set_option relaxedAutoImplicit false
set_option autoImplicit false

/-!
# The signal score of a person

`_compute_and_store_signal` takes the latest valid signals of a person, makes a number between 0 and
1 of those of each source, and a weighted mean of the sources that supplied one. The person is
collected deeply if that reaches a threshold.

## Main definitions

* `signalComponents` — the components that are stored.
* `NewerCount`, `Grows` — a count that takes the place of one that is not higher, and counts that do
  so one after the other.

## Main results

* `aboveThreshold_of_grows` — such counts do not take a person below the threshold.

## Design

The exponential function and the logarithm are parameters with the facts that are used of them, and
numbers are exact.
-/

namespace VCBrain

/-! ## Signals of the sources -/

/-- What the signals take from `math`. -/
structure SignalMath where
  exp : ℚ → ℚ
  log1p : ℕ → ℚ
  exp_pos : ∀ x, 0 < exp x
  exp_mono : Monotone exp
  exp_le : exp (3 / 2) ≤ 5
  log1p_mono : Monotone log1p

section Signals

variable (math : SignalMath)

/-- `_sigmoid`. -/
def sigmoid (x midpoint steepness : ℚ) : ℚ := 1 / (1 + math.exp (-steepness * (x - midpoint)))

/-- `github_signal`. -/
def githubSignal (publicRepos totalStars topLanguageCount : ℕ) (hasReadme : Bool) : ℚ :=
  3 / 10 * sigmoid math publicRepos 5 (3 / 10) +
    4 / 10 * sigmoid math (math.log1p totalStars) 3 (5 / 10) +
    2 / 10 * sigmoid math topLanguageCount 2 (5 / 10) +
    1 / 10 * (if hasReadme then 2 / 10 else 0)

/-- `producthunt_signal`. -/
def producthuntSignal (totalUpvotes launchCount : ℕ) (hasMakerProfile : Bool) : ℚ :=
  5 / 10 * sigmoid math (math.log1p totalUpvotes) 4 (4 / 10) +
    3 / 10 * sigmoid math launchCount 1 1 + 2 / 10 * (if hasMakerProfile then 3 / 10 else 0)

/-- `arxiv_signal`. -/
def arxivSignal (paperCount totalCitations : ℕ) (inRelevantCategories : Bool) : ℚ :=
  4 / 10 * sigmoid math paperCount 3 (4 / 10) +
    4 / 10 * sigmoid math (math.log1p totalCitations) 3 (5 / 10) +
    2 / 10 * (if inRelevantCategories then 2 / 10 else 0)

/-- `web_signal`. -/
def webSignal (hasCompanySite hasBlog hasPodcastAppearance hasYoutubeTalk : Bool) : ℚ :=
  min 1 ((if hasCompanySite then 3 / 10 else 0) + (if hasBlog then 2 / 10 else 0) +
    (if hasPodcastAppearance then 25 / 100 else 0) + (if hasYoutubeTalk then 25 / 100 else 0))

variable (ucd : Ucd) (decimal : Char → ℕ)

/-- `predicate in predicates`. -/
def hasSignal (selected : Dict SignalInput) (predicate : Str) : Bool :=
  (selected.get? predicate).isSome

/-- `_parse_signal_count(predicate, values.get(predicate, "0")) or 0`; `none` is a `ValueError`. -/
def signalCount (selected : Dict SignalInput) (predicate : Str) : Option ℕ :=
  (parseSignalCount ucd decimal predicate
    (((selected.get? predicate).map SignalInput.objectValue).getD "0")).map fun count =>
      count.getD 0

/-- `languages`. -/
def signalLanguages (selected : Dict SignalInput) : List Str :=
  let value := ((selected.get? "github_languages").map SignalInput.objectValue).getD []
  ((List.splitOn ',' value).map Str.strip).filter (· ≠ [])

/-- `github_score`. -/
def githubScore (selected : Dict SignalInput) : Option ℚ :=
  if hasSignal selected "github_login" then do
    let publicRepos ← signalCount ucd decimal selected "github_public_repos"
    let totalStars ← signalCount ucd decimal selected "github_total_stars"
    return githubSignal math publicRepos totalStars (signalLanguages selected).length
      (hasSignal selected "github_top_repo_readme")
  else some 0

/-- `producthunt_score`. -/
def producthuntScore (selected : Dict SignalInput) : Option ℚ :=
  if hasSignal selected "producthunt_username" then do
    let totalUpvotes ← signalCount ucd decimal selected "producthunt_total_upvotes"
    let launchCount ← signalCount ucd decimal selected "producthunt_posts"
    return producthuntSignal math totalUpvotes launchCount true
  else some 0

/-- `arxiv_score`. -/
def arxivScore (selected : Dict SignalInput) : Option ℚ :=
  if hasSignal selected "arxiv_paper_count" then do
    let paperCount ← signalCount ucd decimal selected "arxiv_paper_count"
    let totalCitations ← signalCount ucd decimal selected "arxiv_total_citations"
    return arxivSignal math paperCount totalCitations true
  else some 0

/-- `web_score`. -/
def webScore (selected : Dict SignalInput) : ℚ :=
  webSignal (hasSignal selected "page_content") (hasSignal selected "blog_url")
    (hasSignal selected "podcast_url") (hasSignal selected "youtube_recent_videos")

/-- The arguments of `compute_signal_score`. -/
def signalInputs (selected : Dict SignalInput) : Option SignalScoreInputs := do
  let github ← githubScore math ucd decimal selected
  let producthunt ← producthuntScore math ucd decimal selected
  let arxiv ← arxivScore math ucd decimal selected
  return { github := github, producthunt := producthunt, arxiv := arxiv, web := webScore selected }

/-- The components that `_compute_and_store_signal` stores; `none` is a `ValueError`. -/
def signalComponents (observations : List SignalInput) : Option (Dict ℚ) :=
  (selectLatestSignalObservations ucd decimal observations).bind fun found =>
    (signalInputs math ucd decimal found.selected).map computeSignalScore

end Signals

/-- `above_threshold`. -/
def aboveThreshold (components : Dict ℚ) (threshold : ℚ) : Bool :=
  threshold ≤ (components.get? "composite").getD 0

/-! ## Growing counts -/

section Grows

variable (ucd : Ucd) (decimal : Char → ℕ)

/-- A count that takes the place of the latest one of its predicate, and is not lower. -/
def NewerCount (observations : List SignalInput) (o : SignalInput) : Prop :=
  o.predicate ∈ signalNumericPredicates ∧
    (∀ b ∈ observations, b.id ≠ o.id ∧ signalKey b < signalKey o) ∧
    ∃ s n m, LatestValid ucd observations o.predicate s ∧
      parseSignalCount ucd decimal o.predicate s.objectValue = some (some n) ∧
      parseSignalCount ucd decimal o.predicate o.objectValue = some (some m) ∧ n ≤ m

/-- Newer counts arrive one after the other. -/
def Grows (observations : List SignalInput) : List SignalInput → Prop
  | [] => True
  | o :: news => NewerCount ucd decimal observations o ∧ Grows (observations ++ [o]) news

end Grows

/-! ## Signals are monotone -/

section Curves

variable (math : SignalMath) {x y midpoint steepness : ℚ}

lemma sigmoid_mono (hsteepness : 0 ≤ steepness) (h : x ≤ y) :
    sigmoid math x midpoint steepness ≤ sigmoid math y midpoint steepness := by
  have hexponent : -steepness * (y - midpoint) ≤ -steepness * (x - midpoint) :=
    mul_le_mul_of_nonpos_left (sub_le_sub_right h midpoint) (neg_nonpos.mpr hsteepness)
  have hpos : 0 < 1 + math.exp (-steepness * (y - midpoint)) :=
    add_pos one_pos (math.exp_pos _)
  exact one_div_le_one_div_of_le hpos (add_le_add_right (math.exp_mono hexponent) 1)

lemma sigmoid_pos : 0 < sigmoid math x midpoint steepness :=
  one_div_pos.mpr (add_pos one_pos (math.exp_pos _))

/-- A source that supplies a signal supplies at least this. -/
lemma sixth_le_sigmoid (h : -steepness * (x - midpoint) ≤ 3 / 2) :
    1 / 6 ≤ sigmoid math x midpoint steepness := by
  have hexp : math.exp (-steepness * (x - midpoint)) ≤ 5 :=
    (math.exp_mono h).trans math.exp_le
  have hpos : 0 < 1 + math.exp (-steepness * (x - midpoint)) :=
    add_pos one_pos (math.exp_pos _)
  refine one_div_le_one_div_of_le hpos ?_
  linarith

end Curves

/-- A signal is as it was, or it was there and is not lower. -/
def Raises (v v' : ℚ) : Prop := v = v' ∨ (1 / 20 ≤ v ∧ v ≤ v')

section Raising

variable {math : SignalMath} {v v' : ℚ} {x x' : SignalScoreInputs}

lemma raises_githubSignal {r r' s s' languages : ℕ} {hasReadme : Bool} (hr : r ≤ r')
    (hs : s ≤ s') : Raises (githubSignal math r s languages hasReadme)
      (githubSignal math r' s' languages hasReadme) := by
  have hr' : (r : ℚ) ≤ r' := by exact_mod_cast hr
  have hrepos := @sigmoid_mono math r r' 5 (3 / 10) (by norm_num) hr'
  have hstars := @sigmoid_mono math _ _ 3 (5 / 10) (by norm_num) (math.log1p_mono hs)
  have hlow : 1 / 6 ≤ sigmoid math r 5 (3 / 10) := by
    refine sixth_le_sigmoid math ?_
    have hnonneg : (0 : ℚ) ≤ r := Nat.cast_nonneg r
    linarith
  have hlanguages := @sigmoid_pos math languages 2 (5 / 10)
  have hpos := @sigmoid_pos math (math.log1p s) 3 (5 / 10)
  have hreadme : (0 : ℚ) ≤ if hasReadme then 2 / 10 else 0 := by split_ifs <;> norm_num
  unfold githubSignal
  exact Or.inr ⟨by linarith, by linarith⟩

lemma raises_producthuntSignal {u u' l l' : ℕ} (hu : u ≤ u') (hl : l ≤ l') :
    Raises (producthuntSignal math u l true) (producthuntSignal math u' l' true) := by
  have hl' : (l : ℚ) ≤ l' := by exact_mod_cast hl
  have hlaunches := @sigmoid_mono math l l' 1 1 (by norm_num) hl'
  have hupvotes := @sigmoid_mono math _ _ 4 (4 / 10) (by norm_num) (math.log1p_mono hu)
  have hlow : 1 / 6 ≤ sigmoid math l 1 1 := by
    refine sixth_le_sigmoid math ?_
    have hnonneg : (0 : ℚ) ≤ l := Nat.cast_nonneg l
    linarith
  have hpos := @sigmoid_pos math (math.log1p u) 4 (4 / 10)
  unfold producthuntSignal
  rw [if_pos rfl]
  exact Or.inr ⟨by linarith, by linarith⟩

lemma raises_arxivSignal {p p' c c' : ℕ} (hp : p ≤ p') (hc : c ≤ c') :
    Raises (arxivSignal math p c true) (arxivSignal math p' c' true) := by
  have hp' : (p : ℚ) ≤ p' := by exact_mod_cast hp
  have hpapers := @sigmoid_mono math p p' 3 (4 / 10) (by norm_num) hp'
  have hcitations := @sigmoid_mono math _ _ 3 (5 / 10) (by norm_num) (math.log1p_mono hc)
  have hlow : 1 / 6 ≤ sigmoid math p 3 (4 / 10) := by
    refine sixth_le_sigmoid math ?_
    have hnonneg : (0 : ℚ) ≤ p := Nat.cast_nonneg p
    linarith
  have hpos := @sigmoid_pos math (math.log1p c) 3 (5 / 10)
  unfold arxivSignal
  rw [if_pos rfl]
  exact Or.inr ⟨by linarith, by linarith⟩

/-- A signal that is raised is known if it was, and not lower after rounding. -/
lemma Raises.known (h : Raises v v') : Option.Rel (· ≤ ·)
    ((some (roundTo 4 v)).filter fun v => 0 < v) ((some (roundTo 4 v')).filter fun v => 0 < v) := by
  rcases h with rfl | ⟨hlow, hle⟩
  · cases (some (roundTo 4 v)).filter fun v => 0 < v with
    | none => exact .none
    | some w => exact .some le_rfl
  · have hround : (0 : ℚ) < roundTo 4 (1 / 20) := by norm_num [roundTo]
    have hv : 0 < roundTo 4 v := hround.trans_le (roundTo_mono 4 hlow)
    have hv' : 0 < roundTo 4 v' := hv.trans_le (roundTo_mono 4 hle)
    rw [Option.filter_some_pos (by simpa using hv), Option.filter_some_pos (by simpa using hv')]
    exact .some (roundTo_mono 4 hle)

lemma get?_composite (x : SignalScoreInputs) : (computeSignalScore x).get? "composite" =
    some (roundTo 4 (compositeScore x.components)) := by
  have hne : ("composite".toList : Str) ≠ "signal_coverage".toList := by decide
  rw [computeSignalScore, Dict.get?_set, if_neg hne, Dict.get?_set, if_pos rfl]

/-- The composite is not lowered if the signals of the sources are raised. -/
lemma composite_mono (hgithub : Raises x.github x'.github)
    (hproducthunt : Raises x.producthunt x'.producthunt) (harxiv : Raises x.arxiv x'.arxiv)
    (hweb : x.web = x'.web) : compositeScore x.components ≤ compositeScore x'.components := by
  have hpositive : PositiveWeights compositeWeights := by
    simp [PositiveWeights, compositeWeights]
  rw [compositeScore_eq_knownMean, compositeScore_eq_knownMean]
  refine knownMean_mono hpositive.get? ?_
  have hkeys : compositeWeights.items.map Prod.fst = (["github_signal", "producthunt_signal",
      "arxiv_signal", "web_signal"] : List Str) := rfl
  rw [hkeys]
  have hall : ∀ key ∈ (["github_signal", "producthunt_signal", "arxiv_signal", "web_signal"] :
      List Str), Option.Rel (· ≤ ·) (x.known key) (x'.known key) :=
    List.forall_mem_cons.mpr ⟨hgithub.known, List.forall_mem_cons.mpr ⟨hproducthunt.known,
      List.forall_mem_cons.mpr ⟨harxiv.known, List.forall_mem_cons.mpr
        ⟨Raises.known (Or.inl hweb), by simp⟩⟩⟩⟩
  exact hall

end Raising

/-! ## One newer count -/

/-- The same signals are selected, and no count is lower. -/
structure GrownSelection (ucd : Ucd) (decimal : Char → ℕ) (selected selected' : Dict SignalInput) :
    Prop where
  signals : ∀ predicate, hasSignal selected' predicate = hasSignal selected predicate
  languages : signalLanguages selected' = signalLanguages selected
  counts : ∀ predicate n, signalCount ucd decimal selected predicate = some n →
    ∃ m, signalCount ucd decimal selected' predicate = some m ∧ n ≤ m

section Step

variable {math : SignalMath} {ucd : Ucd} {decimal : Char → ℕ} {observations news : List SignalInput}
  {o : SignalInput} {found : SignalSelection} {selected selected' : Dict SignalInput}
  {before : Dict ℚ} {v : ℚ} {x : SignalScoreInputs}

lemma GrownSelection.github (h : GrownSelection ucd decimal selected selected')
    (hv : githubScore math ucd decimal selected = some v) :
    ∃ v', githubScore math ucd decimal selected' = some v' ∧ Raises v v' := by
  unfold githubScore at hv ⊢
  rw [h.signals]
  by_cases hlogin : hasSignal selected "github_login" = true
  · rw [if_pos hlogin] at hv ⊢
    obtain ⟨repos, hrepos, hv⟩ := Option.bind_eq_some_iff.mp hv
    obtain ⟨stars, hstars, hv⟩ := Option.bind_eq_some_iff.mp hv
    cases hv
    obtain ⟨repos', hrepos', hr⟩ := h.counts _ _ hrepos
    obtain ⟨stars', hstars', hs⟩ := h.counts _ _ hstars
    rw [hrepos', hstars', h.languages, h.signals]
    exact ⟨_, rfl, raises_githubSignal hr hs⟩
  · rw [if_neg hlogin] at hv ⊢
    cases hv
    exact ⟨0, rfl, Or.inl rfl⟩

lemma GrownSelection.producthunt (h : GrownSelection ucd decimal selected selected')
    (hv : producthuntScore math ucd decimal selected = some v) :
    ∃ v', producthuntScore math ucd decimal selected' = some v' ∧ Raises v v' := by
  unfold producthuntScore at hv ⊢
  rw [h.signals]
  by_cases husername : hasSignal selected "producthunt_username" = true
  · rw [if_pos husername] at hv ⊢
    obtain ⟨upvotes, hupvotes, hv⟩ := Option.bind_eq_some_iff.mp hv
    obtain ⟨launches, hlaunches, hv⟩ := Option.bind_eq_some_iff.mp hv
    cases hv
    obtain ⟨upvotes', hupvotes', hu⟩ := h.counts _ _ hupvotes
    obtain ⟨launches', hlaunches', hl⟩ := h.counts _ _ hlaunches
    rw [hupvotes', hlaunches']
    exact ⟨_, rfl, raises_producthuntSignal hu hl⟩
  · rw [if_neg husername] at hv ⊢
    cases hv
    exact ⟨0, rfl, Or.inl rfl⟩

lemma GrownSelection.arxiv (h : GrownSelection ucd decimal selected selected')
    (hv : arxivScore math ucd decimal selected = some v) :
    ∃ v', arxivScore math ucd decimal selected' = some v' ∧ Raises v v' := by
  unfold arxivScore at hv ⊢
  rw [h.signals]
  by_cases hpapers : hasSignal selected "arxiv_paper_count" = true
  · rw [if_pos hpapers] at hv ⊢
    obtain ⟨papers, hpapers, hv⟩ := Option.bind_eq_some_iff.mp hv
    obtain ⟨citations, hcitations, hv⟩ := Option.bind_eq_some_iff.mp hv
    cases hv
    obtain ⟨papers', hpapers', hp⟩ := h.counts _ _ hpapers
    obtain ⟨citations', hcitations', hc⟩ := h.counts _ _ hcitations
    rw [hpapers', hcitations']
    exact ⟨_, rfl, raises_arxivSignal hp hc⟩
  · rw [if_neg hpapers] at hv ⊢
    cases hv
    exact ⟨0, rfl, Or.inl rfl⟩

/-- Of a selection that has grown, the composite is not lower. -/
lemma GrownSelection.composite (h : GrownSelection ucd decimal selected selected')
    (hx : signalInputs math ucd decimal selected = some x) :
    ∃ x', signalInputs math ucd decimal selected' = some x' ∧
      compositeScore x.components ≤ compositeScore x'.components := by
  obtain ⟨github, hgithub, hx⟩ := Option.bind_eq_some_iff.mp hx
  obtain ⟨producthunt, hproducthunt, hx⟩ := Option.bind_eq_some_iff.mp hx
  obtain ⟨arxiv, harxiv, hx⟩ := Option.bind_eq_some_iff.mp hx
  cases hx
  obtain ⟨github', hgithub', hg⟩ := h.github hgithub
  obtain ⟨producthunt', hproducthunt', hp⟩ := h.producthunt hproducthunt
  obtain ⟨arxiv', harxiv', ha⟩ := h.arxiv harxiv
  have hweb : webScore selected' = webScore selected := by
    unfold webScore
    simp only [h.signals]
  unfold signalInputs
  rw [hgithub', hproducthunt', harxiv']
  exact ⟨_, rfl, composite_mono hg hp ha hweb.symm⟩

/-- A count that can be read is valid, and `int` does not refuse it. -/
lemma valid_of_parseSignalCount {m : ℕ} (hnumeric : o.predicate ∈ signalNumericPredicates)
    (h : parseSignalCount ucd decimal o.predicate o.objectValue = some (some m)) :
    o.Valid ucd ∧ ¬ o.Refused ucd := by
  unfold parseSignalCount at h
  rw [if_neg (not_not.mpr hnumeric)] at h
  dsimp only at h
  by_cases hinvalid : o.objectValue.strip = [] ∨ (!isDecimalText ucd o.objectValue.strip) = true
  · rw [if_pos hinvalid] at h
    cases h
  · rw [if_neg hinvalid] at h
    rw [not_or] at hinvalid
    refine ⟨⟨mem_signalPredicates_of_numeric hnumeric, hinvalid.1, fun _ => ?_⟩, fun hrefused => ?_⟩
    · simpa using hinvalid.2
    · unfold intOfDigits at h
      rw [if_pos hrefused.2.2] at h
      cases h

/-- The latest valid observations, after a newer one of a predicate. -/
lemma latestValid_append_newer {predicate : Str} {s : SignalInput} (hvalid : o.Valid ucd)
    (hkeys : ∀ b ∈ observations, signalKey b < signalKey o) :
    LatestValid ucd (observations ++ [o]) predicate s ↔
      if predicate = o.predicate then s = o else LatestValid ucd observations predicate s := by
  by_cases hpredicate : predicate = o.predicate
  · subst hpredicate
    rw [if_pos rfl]
    constructor
    · rintro ⟨hmem, -, -, hmax⟩
      rcases List.mem_append.mp hmem with hmem | hmem
      · have hle := hmax o (by simp) rfl hvalid
        exact absurd (hkeys s hmem) (not_lt.mpr hle)
      · exact List.mem_singleton.mp hmem
    · rintro rfl
      refine ⟨by simp, rfl, hvalid, fun b hb _ _ => ?_⟩
      rcases List.mem_append.mp hb with hb | hb
      · exact (hkeys b hb).le
      · rw [List.mem_singleton.mp hb]
  · rw [if_neg hpredicate]
    constructor
    · rintro ⟨hmem, hp, hs, hmax⟩
      refine ⟨?_, hp, hs, fun b hb => hmax b (List.mem_append_left _ hb)⟩
      rcases List.mem_append.mp hmem with hmem | hmem
      · exact hmem
      · rw [List.mem_singleton.mp hmem] at hp
        exact absurd hp.symm hpredicate
    · rintro ⟨hmem, hp, hs, hmax⟩
      refine ⟨List.mem_append_left _ hmem, hp, hs, fun b hb hbp hbv => ?_⟩
      rcases List.mem_append.mp hb with hb | hb
      · exact hmax b hb hbp hbv
      · rw [List.mem_singleton.mp hb] at hbp
        exact absurd hbp.symm hpredicate

lemma NewerCount.nodup (h : NewerCount ucd decimal observations o)
    (hids : (observations.map SignalInput.id).Nodup) :
    ((observations ++ [o]).map SignalInput.id).Nodup := by
  rw [List.map_append, List.map_singleton, List.nodup_append]
  refine ⟨hids, List.nodup_singleton _, ?_⟩
  rintro id hid id' hid' rfl
  obtain ⟨b, hb, rfl⟩ := List.mem_map.mp hid
  exact (h.2.1 b hb).1 (List.mem_singleton.mp hid')

/-- The newer count takes the place of the one of its predicate, and nothing else changes. -/
lemma NewerCount.grown (h : NewerCount ucd decimal observations o)
    (hids : (observations.map SignalInput.id).Nodup)
    (hfound : selectLatestSignalObservations ucd decimal observations = some found) :
    ∃ found', selectLatestSignalObservations ucd decimal (observations ++ [o]) = some found' ∧
      GrownSelection ucd decimal found.selected found'.selected := by
  obtain ⟨hnumeric, hkeys, s, n, m, hs, hn, hm, hle⟩ := h
  obtain ⟨hvalid, hfits⟩ := valid_of_parseSignalCount hnumeric hm
  have hlater : ∀ b ∈ observations, signalKey b < signalKey o := fun b hb => (hkeys b hb).2
  rcases selectLatestSignalObservations_cases ucd decimal hids with
    ⟨final, hfinal, hlatest, hnot⟩ | ⟨hnone, -⟩
  · obtain rfl : final = found := Option.some.inj (hfinal.symm.trans hfound)
    have hids' := NewerCount.nodup ⟨hnumeric, hkeys, s, n, m, hs, hn, hm, hle⟩ hids
    rcases selectLatestSignalObservations_cases ucd decimal hids' with
      ⟨found', hfound', hlatest', -⟩ | ⟨-, r, hr, hrefused, hmax⟩
    · refine ⟨found', hfound', ?_⟩
      have hget : ∀ predicate, found'.selected.get? predicate =
          if predicate = o.predicate then some o else final.selected.get? predicate := by
        intro predicate
        refine Option.ext fun t => ?_
        rw [hlatest'.selected, latestValid_append_newer hvalid hlater]
        split_ifs
        · exact ⟨fun heq => by rw [heq], fun heq => (Option.some.inj heq).symm⟩
        · exact (hlatest.selected predicate t).symm
      have hold : final.selected.get? o.predicate = some s := (hlatest.selected _ s).mpr hs
      refine ⟨fun predicate => ?_, ?_, fun predicate k hk => ?_⟩
      · unfold hasSignal
        rw [hget]
        split_ifs with heq
        · rw [heq, hold]
          rfl
        · rfl
      · have hne : ("github_languages".toList : Str) ≠ o.predicate := by
          rintro heq
          rw [← heq] at hnumeric
          exact absurd hnumeric (by decide)
        unfold signalLanguages
        rw [hget, if_neg hne]
      · unfold signalCount at hk ⊢
        rw [hget]
        by_cases heq : predicate = o.predicate
        · subst heq
          rw [hold] at hk
          rw [if_pos rfl]
          simp only [Option.map_some, Option.getD_some, hn, hm, Option.some.injEq] at hk ⊢
          exact ⟨m, rfl, hk ▸ hle⟩
        · rw [if_neg heq]
          exact ⟨k, hk, le_rfl⟩
    · exfalso
      by_cases heq : o.predicate = r.predicate
      · have hro := hmax o (by simp) heq hvalid
        rcases List.mem_append.mp hr with hr | hr
        · exact absurd (hlater r hr) (not_lt.mpr hro)
        · exact hfits (List.mem_singleton.mp hr ▸ hrefused)
      · have hmem : r ∈ observations := by
          rcases List.mem_append.mp hr with hr | hr
          · exact hr
          · exact absurd (by rw [List.mem_singleton.mp hr]) heq
        have hselected : final.selected.get? r.predicate = some r :=
          (hlatest.selected _ r).mpr ⟨hmem, rfl, hrefused.valid, fun b hb =>
            hmax b (List.mem_append_left _ hb)⟩
        exact hnot _ r hselected hrefused
  · rw [hnone] at hfound
    cases hfound

/-- One newer count does not lower the composite. -/
lemma NewerCount.components (h : NewerCount ucd decimal observations o)
    (hids : (observations.map SignalInput.id).Nodup)
    (hbefore : signalComponents math ucd decimal observations = some before) :
    ∃ after, signalComponents math ucd decimal (observations ++ [o]) = some after ∧
      (before.get? "composite").getD 0 ≤ (after.get? "composite").getD 0 := by
  obtain ⟨found, hfound, hbefore⟩ := Option.bind_eq_some_iff.mp hbefore
  obtain ⟨x, hx, rfl⟩ := Option.map_eq_some_iff.mp hbefore
  obtain ⟨found', hfound', hgrown⟩ := h.grown hids hfound
  obtain ⟨x', hx', hle⟩ := hgrown.composite hx
  refine ⟨computeSignalScore x', ?_, ?_⟩
  · rw [signalComponents, hfound', Option.bind_some, hx', Option.map_some]
  · rw [get?_composite, get?_composite]
    exact roundTo_mono 4 hle

/-- **Growing counts.** If the score of a person is computed, then it is after newer counts that are
not lower than those they take the place of, in whichever order the observations are read, and a
person that reached a threshold still does.

**Proof sketch.** Induction on the newer counts. Each of them changes one count of a source that
supplied a signal already, the signals grow with the counts, and the mean with the signals. -/
theorem aboveThreshold_of_grows {all : List SignalInput}
    (hids : (observations.map SignalInput.id).Nodup) (hgrows : Grows ucd decimal observations news)
    (hperm : all.Perm (observations ++ news))
    (hbefore : signalComponents math ucd decimal observations = some before) :
    ∃ after, signalComponents math ucd decimal all = some after ∧
      ∀ threshold, aboveThreshold before threshold = true →
        aboveThreshold after threshold = true := by
  induction news generalizing observations before with
  | nil =>
    rw [List.append_nil] at hperm
    refine ⟨before, ?_, fun threshold h => h⟩
    unfold signalComponents at hbefore ⊢
    rwa [selectLatestSignalObservations_perm hids hperm]
  | cons o news ih =>
    obtain ⟨hnewer, hrest⟩ := hgrows
    obtain ⟨middle, hmiddle, hle⟩ := hnewer.components hids hbefore
    rw [← List.singleton_append, ← List.append_assoc] at hperm
    obtain ⟨after, hafter, habove⟩ := ih (hnewer.nodup hids) hrest hperm hmiddle
    refine ⟨after, hafter, fun threshold h => habove threshold ?_⟩
    have h : threshold ≤ (before.get? "composite").getD 0 := of_decide_eq_true h
    exact decide_eq_true (h.trans hle)

/-- Both functions where the witness asks for them, rounded to four digits. -/
def roundedMath : SignalMath where
  exp x :=
    if 3 / 2 ≤ x then 44817 / 10000
    else if 1 ≤ x then 27183 / 10000
    else if 3 / 10 ≤ x then 13513 / 10000
    else 12430 / 10000
  log1p n := if 12 ≤ n then 25649 / 10000 else if 10 ≤ n then 23979 / 10000 else 0
  exp_pos x := by split_ifs <;> norm_num
  exp_mono x y h := by
    dsimp only
    split_ifs <;> linarith
  exp_le := by norm_num
  log1p_mono n m h := by
    dsimp only
    split_ifs <;> first | omega | norm_num

/-- The login of a person on GitHub. -/
def loginObservation : SignalInput where
  id := 1
  predicate := "github_login"
  objectValue := "ada"
  observedAt := 0
  createdAt := none

/-- The value of a digit of ASCII. -/
private def asciiDecimal (c : Char) : ℕ := c.toNat - 48

private lemma signalComponents_isSome : (signalComponents roundedMath Ucd.ascii asciiDecimal
    [loginObservation, starsObservation 2 "10" 0]).isSome = true := by
  decide +kernel

/-- With two stars more, the person still reaches what was reached. -/
theorem aboveThreshold_of_grows_stars :
    ∃ after, signalComponents roundedMath Ucd.ascii asciiDecimal
      [starsObservation 3 "12" 1, loginObservation, starsObservation 2 "10" 0] = some after ∧
      ∀ threshold, aboveThreshold ((signalComponents roundedMath Ucd.ascii asciiDecimal
        [loginObservation, starsObservation 2 "10" 0]).get signalComponents_isSome) threshold =
          true → aboveThreshold after threshold = true := by
  have hlatest : LatestValid Ucd.ascii [loginObservation, starsObservation 2 "10" 0]
      "github_total_stars" (starsObservation 2 "10" 0) := by
    refine ⟨by decide, rfl, ⟨by decide, by decide, fun _ => by decide⟩, ?_⟩
    rintro b hb hpredicate -
    rcases List.mem_pair.mp hb with rfl | rfl
    · exact absurd hpredicate (by decide)
    · exact le_rfl
  have hnewer : NewerCount Ucd.ascii asciiDecimal [loginObservation, starsObservation 2 "10" 0]
      (starsObservation 3 "12" 1) :=
    ⟨by decide, by decide, _, 10, 12, hlatest, by decide, by decide, by decide⟩
  have hgrows : Grows Ucd.ascii asciiDecimal [loginObservation, starsObservation 2 "10" 0]
      [starsObservation 3 "12" 1] := ⟨hnewer, trivial⟩
  refine aboveThreshold_of_grows (by decide) hgrows ?_ (Option.some_get _).symm
  exact (List.perm_append_singleton (starsObservation 3 "12" 1)
    [loginObservation, starsObservation 2 "10" 0]).symm

end Step

end VCBrain
