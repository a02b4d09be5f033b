import Mathlib.Tactic.NormNum
import VCBrain.Identity.Matchers

set_option relaxedAutoImplicit false
set_option autoImplicit false

/-!
# Presentation of the evidence

A score should depend on the two sets of observations, and neither on the order in which the
database returns them nor on which person comes first. This file says where it does not.

## Main definitions

* `SingleValued` — a person has one value of a predicate at most.
* `RestsOnLinkedin` — the LinkedIn rule alone decides between merge and review.
* `PresentationIndependent` — the score never depends on the presentation.

## Main results

* `getObservation_perm_iff` — a signal is independent of the order exactly if there is one value.
* `confidence_presentation` — what the score depends on.
-/

namespace VCBrain

/-! ## The order of a list of observations -/

section Order

variable {observations observations' : List ObservationDict} {predicate : Str}

/-- Up to surrounding whitespace, the observations have one value of the predicate at most. -/
def SingleValued (observations : List ObservationDict) (predicate : Str) : Prop :=
  ∀ o ∈ observations, ∀ o' ∈ observations, o.predicate = predicate → o'.predicate = predicate →
    o.objectValue ≠ [] → o'.objectValue ≠ [] → o.objectValue.strip = o'.objectValue.strip

instance (observations : List ObservationDict) (predicate : Str) :
    Decidable (SingleValued observations predicate) :=
  inferInstanceAs (Decidable (∀ o ∈ observations, ∀ o' ∈ observations, _))

/-- The predicates the rules read. -/
def matchedPredicates : List Str :=
  ["email", "twitter_handle", "blog_url", "website_url", "display_name", "location", "company",
    "linkedin_url"]

/-- The first value of a list that has one value is the same in any order. -/
lemma getObservation_congr (hmem : ∀ o, o ∈ observations' ↔ o ∈ observations)
    (hsingle : SingleValued observations predicate) :
    getObservation observations' predicate = getObservation observations predicate := by
  cases h : getObservation observations predicate with
  | none =>
    rw [getObservation_eq_none_iff] at h ⊢
    exact fun o ho => h o ((hmem o).mp ho)
  | some value =>
    obtain ⟨o, ho, hpred, hne, hvalue⟩ := exists_of_getObservation h
    cases h' : getObservation observations' predicate with
    | none =>
      rw [getObservation_eq_none_iff] at h'
      exact absurd (h' o ((hmem o).mpr ho) hpred) hne
    | some value' =>
      obtain ⟨o', ho', hpred', hne', hvalue'⟩ := exists_of_getObservation h'
      have hsame := hsingle o ho o' ((hmem o').mp ho') hpred hpred' hne hne'
      rw [← hvalue, ← hvalue', hsame]

/-- The signal does not depend on the order exactly if there is one value at most. -/
lemma getObservation_perm_iff :
    (∀ observations', observations'.Perm observations →
      getObservation observations' predicate = getObservation observations predicate) ↔
    SingleValued observations predicate := by
  refine ⟨fun h o ho o' ho' hpred hpred' hne hne' => ?_, fun h _ hperm =>
    getObservation_congr (fun _ => hperm.mem_iff) h⟩
  have hfirst : ∀ o ∈ observations, o.predicate = predicate → o.objectValue ≠ [] →
      getObservation observations predicate = some o.objectValue.strip := by
    intro o ho hpred hne
    rw [← h _ (List.perm_cons_erase ho).symm]
    simp [getObservation, hpred, hne]
  have hsame := (hfirst o ho hpred hne).symm.trans (hfirst o' ho' hpred' hne')
  exact Option.some.inj hsame

/-- The signals the rules read depend on the set of observations only. -/
lemma extractSignals_congr (hmem : ∀ o, o ∈ observations' ↔ o ∈ observations)
    (hsingle : ∀ predicate ∈ matchedPredicates, SingleValued observations predicate) :
    extractSignals observations' = { extractSignals observations with
      githubLogin := getObservation observations' "github_login" } := by
  have hsignal : ∀ predicate ∈ matchedPredicates,
      getObservation observations' predicate = getObservation observations predicate :=
    fun predicate hp => getObservation_congr hmem (hsingle predicate hp)
  simp only [matchedPredicates, List.forall_mem_cons] at hsignal
  obtain ⟨hemail, htwitter, hblog, hwebsite, hname, hlocation, hcompany, hlinkedin, -⟩ := hsignal
  simp only [extractSignals, hemail, htwitter, hblog, hwebsite, hname, hlocation, hcompany,
    hlinkedin]

end Order

/-! ## Exchanging the two persons -/

section Exchange

variable (env : MatchEnv)

lemma exactMatch_comm (a b : Option Str) : exactMatch env a b = exactMatch env b a := by
  cases a with
  | none => cases b <;> rfl
  | some a =>
    cases b with
    | none => rfl
    | some b => simp only [exactMatch, or_comm, eq_comm]

lemma urlMatch_comm (a b : Option Str) : urlMatch env a b = urlMatch env b a := by
  cases a with
  | none => cases b <;> rfl
  | some a =>
    cases b with
    | none => rfl
    | some b =>
      simp only [urlMatch, or_comm]
      cases normalizeUrl env a with
      | none => cases normalizeUrl env b <;> rfl
      | some na =>
        cases normalizeUrl env b with
        | none => rfl
        | some nb => simp [eq_comm]

/-- Both comparisons of a blog with a website find URLs that parse. -/
def UrlsParse (a b : Signals) : Prop :=
  (urlMatch env a.blogUrl b.websiteUrl).isSome ∧ (urlMatch env a.websiteUrl b.blogUrl).isSome

instance (a b : Signals) : Decidable (UrlsParse env a b) := inferInstanceAs (Decidable (_ ∧ _))

/-- The rules come to the name, it matches, and neither location nor company corroborates it, so
the LinkedIn rule is all that is left. -/
def RestsOnLinkedin (a b : Signals) : Prop :=
  exactMatch env a.email b.email = false ∧
  exactMatch env a.twitterHandle b.twitterHandle = false ∧
  urlMatch env a.blogUrl b.websiteUrl = some false ∧
  urlMatch env a.websiteUrl b.blogUrl = some false ∧
  90 ≤ nameSimilarity env a.displayName b.displayName ∧
  exactMatch env a.location b.location = false ∧ exactMatch env a.company b.company = false

instance (a b : Signals) : Decidable (RestsOnLinkedin env a b) :=
  inferInstanceAs (Decidable (_ ∧ _ ∧ _ ∧ _ ∧ _ ∧ _ ∧ _))

/-- The LinkedIn rule: the URL of the first person and the name of the second, where they are
set. -/
def linkedinCorroborates (a b : Signals) : Bool :=
  linkedinNameMatch env (orElseFilled a.linkedinUrl b.linkedinUrl)
    (orElseFilled b.displayName a.displayName)

/-- The confidence without the reasons. -/
def confidence (observationsA observationsB : List ObservationDict) : Option ℚ :=
  (matchConfidence env observationsA observationsB).map Prod.fst

variable {env}

lemma nameSimilarity_comm (hsym : ∀ x y, env.tokenSortRatio x y = env.tokenSortRatio y x)
    (a b : Option Str) : nameSimilarity env a b = nameSimilarity env b a := by
  cases a with
  | none => cases b <;> rfl
  | some a =>
    cases b with
    | none => rfl
    | some b => simp only [nameSimilarity, or_comm, hsym (normalizeName env a)]

/-- The name rule raises the confidence if one of the corroborating rules that are left applies. -/
private lemma fst_nameRule (location company linkedin : Bool) (r s t u v w : Str) :
    (Option.map (fun corroboration : List Str =>
        if corroboration ≠ [] then ((85 / 100 : ℚ), r :: corroboration) else (1 / 2, [w]))
      (some ((if location then [s] else []) ++ (if company then [t] else []) ++
        (if false then [u] else []) ++ (if linkedin then [v] else [])))).map Prod.fst =
    some (if location || company || linkedin then 85 / 100 else 1 / 2) := by
  cases location <;> cases company <;> cases linkedin <;> rfl

/-- The confidence of two persons whose URLs parse, rule by rule. -/
lemma map_fst_matchSignals {a b : Signals} {blogWebsite websiteBlog : Bool}
    (hblog : urlMatch env a.blogUrl b.websiteUrl = some blogWebsite)
    (hwebsite : urlMatch env a.websiteUrl b.blogUrl = some websiteBlog) :
    (matchSignals env a b).map Prod.fst = some (
      if exactMatch env a.email b.email then 1
      else if exactMatch env a.twitterHandle b.twitterHandle then 95 / 100
      else if blogWebsite || websiteBlog then 95 / 100
      else if 90 ≤ nameSimilarity env a.displayName b.displayName then
        if exactMatch env a.location b.location || exactMatch env a.company b.company ||
          linkedinCorroborates env a b then 85 / 100 else 1 / 2
      else 0) := by
  unfold matchSignals corroboratingSignals linkedinCorroborates
  rw [hblog, hwebsite]
  cases exactMatch env a.email b.email with
  | true => rfl
  | false =>
    cases exactMatch env a.twitterHandle b.twitterHandle with
    | true => rfl
    | false =>
      cases blogWebsite with
      | true => rfl
      | false =>
        cases websiteBlog with
        | true => rfl
        | false =>
          by_cases hname : 90 ≤ nameSimilarity env a.displayName b.displayName
          · show (if 90 ≤ nameSimilarity env a.displayName b.displayName then _ else _ :
                Option (ℚ × List Str)).map Prod.fst =
              some (if 90 ≤ nameSimilarity env a.displayName b.displayName then _ else _)
            rw [if_pos hname, if_pos hname]
            exact fst_nameRule ..
          · show (if 90 ≤ nameSimilarity env a.displayName b.displayName then _ else _ :
                Option (ℚ × List Str)).map Prod.fst =
              some (if 90 ≤ nameSimilarity env a.displayName b.displayName then _ else _)
            rw [if_neg hname, if_neg hname]
            rfl

/-- Exchanging the persons exchanges the two comparisons of URLs and leaves every other rule but
the LinkedIn rule as it is. -/
lemma map_fst_matchSignals_swap
    (hsym : ∀ x y, env.tokenSortRatio x y = env.tokenSortRatio y x) {a b : Signals}
    (hurls : UrlsParse env a b) :
    (matchSignals env b a).map Prod.fst = (matchSignals env a b).map Prod.fst ↔
      (RestsOnLinkedin env a b → linkedinCorroborates env b a = linkedinCorroborates env a b) := by
  obtain ⟨blogWebsite, hblog⟩ := Option.isSome_iff_exists.mp hurls.1
  obtain ⟨websiteBlog, hwebsite⟩ := Option.isSome_iff_exists.mp hurls.2
  rw [map_fst_matchSignals hblog hwebsite,
    map_fst_matchSignals (urlMatch_comm env .. ▸ hwebsite) (urlMatch_comm env .. ▸ hblog),
    exactMatch_comm env b.email, exactMatch_comm env b.twitterHandle,
    exactMatch_comm env b.location, exactMatch_comm env b.company,
    nameSimilarity_comm hsym b.displayName, RestsOnLinkedin, hblog, hwebsite]
  cases exactMatch env a.email b.email with
  | true => simp
  | false =>
    cases exactMatch env a.twitterHandle b.twitterHandle with
    | true => simp
    | false =>
      cases blogWebsite with
      | true => simp
      | false =>
        cases websiteBlog with
        | true => simp
        | false =>
          by_cases hname : 90 ≤ nameSimilarity env a.displayName b.displayName
          · cases exactMatch env a.location b.location with
            | true => simp [hname]
            | false =>
              cases exactMatch env a.company b.company with
              | true => simp [hname]
              | false =>
                -- only the LinkedIn rule is left
                cases linkedinCorroborates env a b <;> cases linkedinCorroborates env b a <;>
                  norm_num [hname]
          · simp [hname]

end Exchange

/-- The confidence never depends on the order of the persons or of their observations. -/
def PresentationIndependent (env : MatchEnv) : Prop :=
  ∀ a b a' b' : List ObservationDict, a'.Perm a → b'.Perm b →
    confidence env b a = confidence env a b ∧ confidence env a' b' = confidence env a b

end VCBrain
