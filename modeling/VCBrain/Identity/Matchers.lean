import Mathlib.Data.Rat.Defs
import VCBrain.Db.Models
import VCBrain.Foundation.Url

set_option relaxedAutoImplicit false
set_option autoImplicit false

/-!
# Identity matchers

`match_confidence` compares the observations of two persons by a list of rules, strongest first:
email, Twitter handle, URL, and name with or without corroboration.

## Main definitions

* `MatchEnv` — what the matchers use of other libraries.
* `normalizeUrl`, `normalizeName` — the normal forms that are compared.
* `extractSignals` — the first value of each predicate.
* `matchConfidence` — the rules; `shouldAutoMerge` — the decision to merge.

## Design

Scores are exact rationals. `none` stands for the `ValueError` of the URL parser, which no caller
catches.
-/

namespace VCBrain

/-- What the matchers use of other libraries: the character data, the check of bracketed hosts and
`rapidfuzz.fuzz.token_sort_ratio`. -/
structure MatchEnv where
  ucd : Ucd
  bracketed : Str → Bool
  tokenSortRatio : Str → Str → ℚ

/-- An observation as the matchers see it. -/
structure ObservationDict where
  predicate : Str
  objectValue : Str
deriving DecidableEq

/-- `_get_observation`: the first value of the predicate that is not empty, stripped. -/
def getObservation (observations : List ObservationDict) (predicate : Str) : Option Str :=
  (observations.find? fun obs => obs.predicate = predicate ∧ obs.objectValue ≠ []).map
    fun obs => obs.objectValue.strip

/-- The identity-relevant signals of a person. -/
@[ext]
structure Signals where
  email : Option Str
  twitterHandle : Option Str
  blogUrl : Option Str
  websiteUrl : Option Str
  displayName : Option Str
  location : Option Str
  company : Option Str
  linkedinUrl : Option Str
  githubLogin : Option Str

/-- `_extract_signals`. -/
def extractSignals (observations : List ObservationDict) : Signals where
  email := getObservation observations "email"
  twitterHandle := getObservation observations "twitter_handle"
  blogUrl := getObservation observations "blog_url"
  websiteUrl := getObservation observations "website_url"
  displayName := getObservation observations "display_name"
  location := getObservation observations "location"
  company := getObservation observations "company"
  linkedinUrl := getObservation observations "linkedin_url"
  githubLogin := getObservation observations "github_login"

/-- `a or b` on nullable text. -/
def orElseFilled (a b : Option Str) : Option Str := if filled a then a else b

section Rules

variable (env : MatchEnv)

/-- `_normalize_url`: the host without `www.`, followed by the path without trailing slashes. -/
def normalizeUrl (url : Str) : Option Str :=
  let url := env.ucd.lower url.strip
  let url := if "http://".toList <+: url ∨ "https://".toList <+: url then url
    else "https://".toList ++ url
  (urlparse env.ucd env.bracketed url).map fun parsed =>
    let hostname := parsed.hostname env.ucd
    (if "www.".toList <+: hostname then hostname.drop 4 else hostname) ++
      parsed.path.rdropWhile (· = '/')

/-- `_exact_match`: equality up to case and surrounding whitespace of two values that are set. -/
def exactMatch (a b : Option Str) : Bool :=
  match a, b with
  | some a, some b =>
    if a = [] ∨ b = [] then false else env.ucd.lower a.strip = env.ucd.lower b.strip
  | _, _ => false

/-- `_url_match`: equality of the normal forms of two URLs that are set. -/
def urlMatch (a b : Option Str) : Option Bool :=
  match a, b with
  | some a, some b =>
    if a = [] ∨ b = [] then some false
    else (normalizeUrl env a).bind fun na => (normalizeUrl env b).map fun nb => decide (na = nb)
  | _, _ => some false

/-- `_normalize_name`: without diacritics, in lower case. -/
def normalizeName (name : Str) : Str :=
  env.ucd.lower ((env.ucd.nfkd name).filter fun c => !env.ucd.combining c)

/-- `_name_similarity`. -/
def nameSimilarity (a b : Option Str) : ℚ :=
  match a, b with
  | some a, some b =>
    if a = [] ∨ b = [] then 0 else env.tokenSortRatio (normalizeName env a) (normalizeName env b)
  | _, _ => 0

/-- The last path segment of a LinkedIn profile, as words. -/
def linkedinSlug (linkedin : Str) : Str :=
  env.ucd.lower (Str.replaceChar '-' ' ' ((Str.lastPiece "/in/" linkedin).partition '/').1)

/-- Whether a LinkedIn URL and a name contain one another. -/
def linkedinNameMatch (linkedin name : Option Str) : Bool :=
  match linkedin, name with
  | some linkedin, some name =>
    let slug := linkedinSlug env linkedin
    !linkedin.isEmpty && !name.isEmpty &&
      ((!slug.isEmpty && env.ucd.lower name <:+: slug) || slug <:+: env.ucd.lower name)
  | _, _ => false

/-- `_corroborating_signals`. -/
def corroboratingSignals (a b : Signals) : Option (List Str) :=
  (urlMatch env a.blogUrl b.websiteUrl).map fun blogWebsite =>
    (if exactMatch env a.location b.location then ["same_location".toList] else []) ++
    (if exactMatch env a.company b.company then ["same_company".toList] else []) ++
    (if blogWebsite then ["blog_website_match".toList] else []) ++
    (if linkedinNameMatch env (orElseFilled a.linkedinUrl b.linkedinUrl)
      (orElseFilled b.displayName a.displayName) then ["linkedin_name_match".toList] else [])

/-- The rules of `match_confidence` on extracted signals. -/
def matchSignals (a b : Signals) : Option (ℚ × List Str) :=
  if exactMatch env a.email b.email then some (1, ["email_exact"])
  else if exactMatch env a.twitterHandle b.twitterHandle then some (95 / 100, ["twitter_exact"])
  else (urlMatch env a.blogUrl b.websiteUrl).bind fun blogWebsite =>
    if blogWebsite then some (95 / 100, ["url_exact"])
    else (urlMatch env a.websiteUrl b.blogUrl).bind fun websiteBlog =>
      if websiteBlog then some (95 / 100, ["url_exact"])
      else if 90 ≤ nameSimilarity env a.displayName b.displayName then
        (corroboratingSignals env a b).map fun corroboration =>
          if corroboration ≠ [] then (85 / 100, "name_fuzzy" :: corroboration)
          else (1 / 2, ["name_fuzzy_only"])
      else some (0, [])

/-- `match_confidence`: the confidence that two persons are one, and the reasons for it. -/
def matchConfidence (observationsA observationsB : List ObservationDict) :
    Option (ℚ × List Str) :=
  matchSignals env (extractSignals observationsA) (extractSignals observationsB)

end Rules

/-- The default threshold of `should_auto_merge`. -/
def autoMergeThreshold : ℚ := 8 / 10

/-- `should_auto_merge`. -/
def shouldAutoMerge (confidence threshold : ℚ) : Bool := threshold ≤ confidence

section Signals

variable {observations : List ObservationDict} {predicate : Str}

/-- A signal is the stripped value of some observation. -/
lemma exists_of_getObservation {value : Str}
    (h : getObservation observations predicate = some value) :
    ∃ o ∈ observations, o.predicate = predicate ∧ o.objectValue ≠ [] ∧
      o.objectValue.strip = value := by
  obtain ⟨o, hfind, hvalue⟩ := Option.map_eq_some_iff.mp h
  have hmatch := List.find?_some hfind
  rw [decide_eq_true_eq] at hmatch
  exact ⟨o, List.mem_of_find?_eq_some hfind, hmatch.1, hmatch.2, hvalue⟩

/-- A signal is missing only if no observation has a value of the predicate. -/
lemma getObservation_eq_none_iff :
    getObservation observations predicate = none ↔
      ∀ o ∈ observations, o.predicate = predicate → o.objectValue = [] := by
  simp [getObservation]

end Signals

section Matches

variable {env : MatchEnv} {x y : Option Str}

/-- Values match exactly if both are set and they are equal up to case. -/
lemma exactMatch_eq_true_iff : exactMatch env x y = true ↔
    ∃ v w, x = some v ∧ y = some w ∧ v ≠ [] ∧ w ≠ [] ∧
      env.ucd.lower v.strip = env.ucd.lower w.strip := by
  cases x with
  | none => simp [exactMatch]
  | some v =>
    cases y with
    | none => simp [exactMatch]
    | some w => simp [exactMatch, and_assoc]

/-- Names are similar only if both are set. -/
lemma exists_of_nameSimilarity (h : 90 ≤ nameSimilarity env x y) :
    ∃ v w, x = some v ∧ y = some w ∧ v ≠ [] ∧ w ≠ [] := by
  have hzero : ¬ (90 : ℚ) ≤ 0 := by decide +kernel
  cases x with
  | none => cases y <;> exact absurd h hzero
  | some v =>
    cases y with
    | none => exact absurd h hzero
    | some w =>
      by_cases hempty : v = [] ∨ w = []
      · simp only [nameSimilarity, if_pos hempty] at h
        exact absurd h hzero
      · rw [not_or] at hempty
        exact ⟨v, w, rfl, rfl, hempty.1, hempty.2⟩

end Matches

/-! ## The score of names -/

/-- What `token_sort_ratio` is taken to be: a symmetric score up to 100, which is full exactly if
the texts have the same words. -/
structure LawfulRatio (ratio : Str → Str → ℚ) : Prop where
  symm : ∀ x y, ratio x y = ratio y x
  nonneg : ∀ x y, 0 ≤ ratio x y
  le_full : ∀ x y, ratio x y ≤ 100
  eq_full_iff : ∀ x y, ratio x y = 100 ↔ x.words.Perm y.words

/-- The data restricted to ASCII, no bracketed hosts, and a name score that tells only whether the
names have the same words. -/
def sampleMatchEnv : MatchEnv where
  ucd := Ucd.ascii
  bracketed _ := false
  tokenSortRatio x y := if x.words.Perm y.words then 100 else 0

/-- The score that tells only whether the words are the same obeys the laws. -/
lemma lawfulRatio_sampleMatchEnv : LawfulRatio sampleMatchEnv.tokenSortRatio where
  symm x y := by simp only [sampleMatchEnv, List.perm_comm]
  nonneg x y := by
    show 0 ≤ (if _ then 100 else 0 : ℚ)
    split_ifs <;> decide +kernel
  le_full x y := by
    show (if _ then 100 else 0 : ℚ) ≤ 100
    split_ifs <;> decide +kernel
  eq_full_iff x y := by
    show (if _ then 100 else 0 : ℚ) = 100 ↔ _
    split_ifs with h
    · exact iff_of_true rfl h
    · exact iff_of_false (by decide +kernel) h

/-- A person with one email and one name. -/
def adaObservations : List ObservationDict :=
  [⟨"email", "ada@example.com"⟩, ⟨"display_name", "Ada Byron"⟩, ⟨"company", "Engines"⟩]

/-- A person of the same name and company with another email. -/
def byronObservations : List ObservationDict :=
  [⟨"display_name", "Byron Ada"⟩, ⟨"email", "byron@example.com"⟩, ⟨"company", "engines"⟩]

end VCBrain
