import Mathlib.Data.Char
import Mathlib.Data.List.Lex
import VCBrain.Collectors.Observations
import VCBrain.Foundation.Json
import VCBrain.Foundation.OrderBy

set_option relaxedAutoImplicit false
set_option autoImplicit false

/-!
# The GitHub connector

`collect` turns the answers of the GitHub API into observations. Optional fields of the profile are
left out where they are empty. The languages, the organisations and the README are reported even
where there is nothing in them, and `validate_collected` rejects a blank value, with all the others.

## Main definitions

* `collect` — `GitHubConnector.collect`, of the answers to its requests.
* `NoBlankValue` — the answers with no blank value in what is reported of them.

## Main results

* `validateCollected_collect_iff` — the answers whose observations are admissible.

## Design

An answer with another status than 200 is `none`. The texts of an answer are strings or `null`, as
the API has them.
-/

/-! ## Blank texts -/

namespace Str

/-- A text of whitespace. -/
def Blank (s : Str) : Prop := ∀ c ∈ s, isSpace c = true

lemma strip_eq_nil_iff {s : Str} : strip s = [] ↔ Blank s := by
  rw [strip, rstrip, List.rdropWhile_eq_nil_iff]
  constructor
  · intro h
    cases hl : lstrip s with
    | nil => exact List.dropWhile_eq_nil_iff.mp hl
    | cons c t =>
      have hhead : ¬ isSpace c = true := by
        have hne : s.dropWhile isSpace ≠ [] := by
          show lstrip s ≠ []
          rw [hl]
          exact List.cons_ne_nil c t
        have hnot := List.head_dropWhile_not isSpace hne
        have hc : (s.dropWhile isSpace).head hne = c := by
          have hdrop : s.dropWhile isSpace = c :: t := hl
          simp only [hdrop, List.head_cons]
        rw [hc] at hnot
        rw [hnot]
        exact Bool.false_ne_true
      exact absurd (h c (hl ▸ List.mem_cons_self ..)) hhead
  · exact fun h c hc => h c ((List.dropWhile_suffix isSpace).subset hc)

/-- Joined texts are blank unless one of them is not, or there is a comma. -/
lemma blank_intercalate_iff {xs : List Str} :
    Blank (List.intercalate [','] xs) ↔ (∀ x ∈ xs, Blank x) ∧ xs.length ≤ 1 := by
  match xs with
  | [] => simp [Blank]
  | [x] => simp [Blank]
  | x :: y :: rest =>
    have hcomma : ',' ∈ List.intercalate [','] (x :: y :: rest) := by
      simp [List.intercalate_cons_cons]
    have hspace : ¬ isSpace ',' = true := by decide
    constructor
    · exact fun h => absurd (h ',' hcomma) hspace
    · rintro ⟨-, hlength⟩
      simp at hlength

end Str

namespace VCBrain

/-! ## The connector -/

/-- `Depth`. -/
inductive Depth where
  | light
  | deep
deriving DecidableEq

/-- The answers to the requests of `collect`. -/
structure GithubAnswers where
  user : Option Json
  repos : Option (List Json)
  orgs : Option (List Json)
  /-- The README of a repository, by its owner and name. -/
  readme : Str → Str → Option Str

/-- A text of an answer that is there and not empty. -/
def textOf (key : Str) (answer : Json) : Option Str :=
  match answer.get? key with
  | some (.str s) => if s = [] then none else some s
  | _ => none

/-- The fields of the profile with the predicates and confidences they are reported with. -/
def profileFields : List (Str × Str × ℚ) :=
  [("name", "display_name", 9 / 10), ("bio", "bio", 8 / 10), ("location", "location", 7 / 10),
    ("blog", "blog_url", 9 / 10), ("company", "company", 7 / 10),
    ("twitter_username", "twitter_handle", 9 / 10)]

/-- `repo.get("stargazers_count", 0)`. -/
def starsOf (repo : Json) : ℤ :=
  match repo.get? "stargazers_count" with
  | some (.int n) => n
  | _ => 0

/-- `sorted(languages)`. -/
def repoLanguages (repos : List Json) : List Str :=
  sortedSet (repos.filterMap (textOf "language"))

/-- `org_names`. -/
def orgNames (orgs : List Json) : List Str := orgs.filterMap (textOf "login")

/-- The login of the owner of the top repository, and its name. -/
def readmePath (login : Str) (topRepo : Json) : Str × Str :=
  (match (topRepo.get? "owner").bind (Json.get? "login") with
    | some (.str owner) => owner
    | _ => login,
    match topRepo.get? "name" with
    | some (.str name) => name
    | _ => [])

/-- `raw_bytes`: `canonical_json_bytes` of the user and the repositories. -/
def rawBytes (user : Json) (repos : List Json) : List UInt8 :=
  utf8 (Json.dumps (.obj [("user", user), ("repos", .arr repos)]))

section Collect

variable (now : Time)

/-- An observation made now. -/
def observe (predicate value : Str) (confidence : ℚ) : Payload where
  predicate := predicate
  objectValue := value
  observedAt := some now
  confidence := some confidence

/-- What is observed of the profile. -/
def profileObservations (user : Json) : List Payload :=
  profileFields.filterMap fun field =>
    (textOf field.1 user).map fun value => observe now field.2.1 value field.2.2

/-- What is observed of the repositories. -/
def repoObservations (repos : List Json) : List Payload :=
  [observe now "github_public_repos" (Json.dumps (.int repos.length)) 1,
    observe now "github_total_stars" (Json.dumps (.int (repos.map starsOf).sum)) 1,
    observe now "github_languages" (List.intercalate [','] (repoLanguages repos)) (9 / 10)]

/-- What is observed of the organisations, at depth `deep`. -/
def orgObservations (orgs : Option (List Json)) : List Payload :=
  match orgs with
  | none => []
  | some orgs => [observe now "github_orgs" (List.intercalate [','] (orgNames orgs)) (9 / 10)]

/-- What is observed of the README of the top repository, at depth `deep`. -/
def readmeObservations (login : Str) (repos : List Json) (readme : Str → Str → Option Str) :
    List Payload :=
  match repos with
  | [] => []
  | topRepo :: _ =>
    match readme (readmePath login topRepo).1 (readmePath login topRepo).2 with
    | none => []
    | some text => [observe now "github_top_repo_readme" (text.take 5000) (8 / 10)]

/-- `GitHubConnector.collect`; `none` is a `ConnectorError`. -/
def collect (hash : List UInt8 → Str) (login : Str) (answers : GithubAnswers) (depth : Depth) :
    Option Collected :=
  answers.user.map fun user =>
    let repos := answers.repos.getD []
    { sourceType := "github"
      uri := "https://github.com/".toList ++ login
      contentHash := hash (rawBytes user repos)
      licenseHint := some (.obj [("source", .str "GitHub API"),
        ("terms", .str "https://docs.github.com/en/rest")])
      observations := observe now "github_login" login 1 :: profileObservations now user ++
        repoObservations now repos ++
          match depth with
          | .light => []
          | .deep => orgObservations now answers.orgs ++
              readmeObservations now login repos answers.readme }

end Collect

/-- No value that is reported is blank. Languages and organisations are joined with commas, so two
of them are enough. -/
structure NoBlankValue (login : Str) (user : Json) (answers : GithubAnswers) (depth : Depth) :
    Prop where
  profile : ∀ field ∈ profileFields, ∀ value, textOf field.1 user = some value → ¬ value.Blank
  languages : (∃ language ∈ repoLanguages (answers.repos.getD []), ¬ language.Blank) ∨
    2 ≤ (repoLanguages (answers.repos.getD [])).length
  orgs : depth = .deep → ∀ orgs, answers.orgs = some orgs →
    (∃ name ∈ orgNames orgs, ¬ name.Blank) ∨ 2 ≤ (orgNames orgs).length
  readme : depth = .deep → ∀ topRepo rest, answers.repos = some (topRepo :: rest) → ∀ text,
    answers.readme (readmePath login topRepo).1 (readmePath login topRepo).2 = some text →
      ¬ Str.Blank (text.take 5000)

/-! ## What is admissible -/

section Admissible

variable {now : Time} {hash : List UInt8 → Str} {login : Str} {answers : GithubAnswers}
  {depth : Depth} {user : Json} {repos : List Json}

/-- What `validate_collected` asks of one observation. -/
def Payload.Admissible (p : Payload) : Prop :=
  p.predicate.strip ≠ [] ∧ p.objectValue.strip ≠ [] ∧ p.observedAt.isSome = true

lemma validateCollected_iff {collected : Collected} : validateCollected collected = true ↔
    (collected.sourceType.strip ≠ [] ∧ collected.uri.strip ≠ []) ∧
      ∀ p ∈ collected.observations, p.Admissible := by
  simp only [validateCollected, Payload.Admissible, Bool.and_eq_true, decide_eq_true_eq,
    List.all_eq_true, and_assoc]

/-- The predicates of the connector. -/
def githubPredicates : List Str :=
  ["github_login", "display_name", "bio", "location", "blog_url", "company", "twitter_handle",
    "github_public_repos", "github_total_stars", "github_languages", "github_orgs",
    "github_top_repo_readme"]

lemma observe_admissible_iff {predicate value : Str} {confidence : ℚ}
    (hpredicate : predicate ∈ githubPredicates) :
    (observe now predicate value confidence).Admissible ↔ ¬ value.Blank := by
  have hnonblank : ∀ p ∈ githubPredicates, Str.strip p ≠ [] := by decide
  have hvalue : value.strip ≠ [] ↔ ¬ value.Blank := not_congr Str.strip_eq_nil_iff
  simp [Payload.Admissible, observe, hnonblank predicate hpredicate, hvalue]

lemma not_isSpace_of_isDigit {c : Char} (h : c.isDigit = true) : ¬ Str.isSpace c = true := by
  have hlow : 48 ≤ c.toNat ∧ c.toNat ≤ 57 := by
    simpa [Char.isDigit, UInt32.le_iff_toNat_le] using h
  simp only [Str.isSpace, Bool.or_eq_true, Bool.and_eq_true, decide_eq_true_eq, beq_iff_eq]
  omega

/-- The text of a number is not blank. -/
lemma not_blank_dumps_int (n : ℤ) : ¬ Str.Blank (Json.dumps (.int n)) := by
  obtain ⟨c, hc⟩ := List.exists_mem_of_ne_nil (Str.decimal n.natAbs) Nat.toDigits_ne_nil
  have hmem : c ∈ Json.dumps (.int n) := by
    rw [Json.dumps]
    split_ifs
    · exact List.mem_cons_of_mem _ hc
    · exact hc
  intro hblank
  exact not_isSpace_of_isDigit (Str.isDigit_of_mem_decimal hc) (hblank c hmem)

lemma profileObservations_admissible_iff :
    (∀ p ∈ profileObservations now user, p.Admissible) ↔
      ∀ field ∈ profileFields, ∀ value, textOf field.1 user = some value → ¬ value.Blank := by
  have hpredicate : ∀ field ∈ profileFields, field.2.1 ∈ githubPredicates := by decide
  constructor
  · intro h field hfield value hvalue
    have hmem : observe now field.2.1 value field.2.2 ∈ profileObservations now user :=
      List.mem_filterMap.mpr ⟨field, hfield, by rw [hvalue, Option.map_some]⟩
    exact (observe_admissible_iff (hpredicate field hfield)).mp (h _ hmem)
  · intro h p hp
    obtain ⟨field, hfield, heq⟩ := List.mem_filterMap.mp hp
    obtain ⟨value, hvalue, rfl⟩ := Option.map_eq_some_iff.mp heq
    exact (observe_admissible_iff (hpredicate field hfield)).mpr (h field hfield value hvalue)

/-- Joined names are not blank if one of them is not, or there are two. -/
lemma not_blank_joined_iff {names : List Str} : ¬ Str.Blank (List.intercalate [','] names) ↔
    (∃ name ∈ names, ¬ name.Blank) ∨ 2 ≤ names.length := by
  rw [Str.blank_intercalate_iff, not_and_or, not_forall, not_le]
  simp only [Classical.not_imp]
  rfl

lemma repoObservations_admissible_iff : (∀ p ∈ repoObservations now repos, p.Admissible) ↔
    (∃ language ∈ repoLanguages repos, ¬ language.Blank) ∨ 2 ≤ (repoLanguages repos).length := by
  simp only [repoObservations, List.forall_mem_cons, List.not_mem_nil, false_imp_iff, implies_true,
    and_true]
  rw [observe_admissible_iff (by decide), observe_admissible_iff (by decide),
    observe_admissible_iff (by decide), not_blank_joined_iff]
  exact ⟨fun h => h.2.2, fun h => ⟨not_blank_dumps_int _, not_blank_dumps_int _, h⟩⟩

lemma orgObservations_admissible_iff {orgs : Option (List Json)} :
    (∀ p ∈ orgObservations now orgs, p.Admissible) ↔ ∀ os, orgs = some os →
      (∃ name ∈ orgNames os, ¬ name.Blank) ∨ 2 ≤ (orgNames os).length := by
  cases orgs with
  | none => simp [orgObservations]
  | some os =>
    simp only [orgObservations, List.forall_mem_singleton, Option.some.injEq, forall_eq']
    rw [observe_admissible_iff (by decide), not_blank_joined_iff]

lemma readmeObservations_admissible_iff {readme : Str → Str → Option Str} :
    (∀ p ∈ readmeObservations now login repos readme, p.Admissible) ↔
      ∀ topRepo rest, repos = topRepo :: rest → ∀ text,
        readme (readmePath login topRepo).1 (readmePath login topRepo).2 = some text →
          ¬ Str.Blank (text.take 5000) := by
  cases repos with
  | nil => simp [readmeObservations]
  | cons topRepo rest =>
    cases hreadme : readme (readmePath login topRepo).1 (readmePath login topRepo).2 with
    | none =>
      have hnone : readmeObservations now login (topRepo :: rest) readme = [] := by
        simp [readmeObservations, hreadme]
      rw [hnone]
      constructor
      · rintro - _ _ heq text htext
        obtain ⟨rfl, rfl⟩ := List.cons.inj heq
        rw [hreadme] at htext
        cases htext
      · exact fun _ p hp => absurd hp List.not_mem_nil
    | some text =>
      have hsome : readmeObservations now login (topRepo :: rest) readme =
          [observe now "github_top_repo_readme" (text.take 5000) (8 / 10)] := by
        simp [readmeObservations, hreadme]
      rw [hsome, List.forall_mem_singleton, observe_admissible_iff (by decide)]
      constructor
      · rintro h _ _ heq t ht
        obtain ⟨rfl, rfl⟩ := List.cons.inj heq
        rw [hreadme] at ht
        rwa [← Option.some.inj ht]
      · exact fun h => h topRepo rest rfl text hreadme

/-- The content is never empty. -/
lemma rawBytes_ne_nil : rawBytes user repos ≠ [] := by
  have hbrace : '\x7b' ∈ Json.dumps (.obj [("user", user), ("repos", .arr repos)]) := by
    rw [Json.dumps]
    exact List.mem_cons_self ..
  intro hnil
  have hchar := List.flatMap_eq_nil_iff.mp hnil _ hbrace
  exact absurd hchar (by decide)

/-- **The connector of GitHub.** Of a user with a login, the content is not empty, and the
observations are admissible exactly if no value is blank.

**Proof sketch.** The predicates and the time are always there, and the counts are numerals. What
remains are the values, group by group. -/
theorem validateCollected_collect_iff (hlogin : ¬ login.Blank) (huser : answers.user = some user) :
    rawBytes user (answers.repos.getD []) ≠ [] ∧
      ∃ collected, collect now hash login answers depth = some collected ∧
        (validateCollected collected = true ↔ NoBlankValue login user answers depth) := by
  refine ⟨rawBytes_ne_nil, _, by rw [collect, huser, Option.map_some], ?_⟩
  have hsource : Str.strip "github".toList ≠ [] := by decide
  have huri : Str.strip ("https://github.com/".toList ++ login) ≠ [] := by
    rw [ne_eq, Str.strip_eq_nil_iff]
    exact fun h => absurd (h 'h' (List.mem_cons_self ..)) (by decide)
  have hhandle : (observe now "github_login" login 1).Admissible :=
    (observe_admissible_iff (by decide)).mpr hlogin
  rw [validateCollected_iff]
  simp only [hsource, huri, ne_eq, not_false_eq_true, and_self, true_and, List.forall_mem_append,
    List.cons_append, List.forall_mem_cons, hhandle, profileObservations_admissible_iff,
    repoObservations_admissible_iff]
  have hrepos : ∀ topRepo rest, answers.repos.getD [] = topRepo :: rest ↔
      answers.repos = some (topRepo :: rest) := by
    intro topRepo rest
    cases answers.repos <;> simp
  cases depth with
  | light =>
    constructor
    · rintro ⟨⟨hprofile, hlanguages⟩, -⟩
      exact ⟨hprofile, hlanguages, fun h => (by cases h), fun h => (by cases h)⟩
    · rintro ⟨hprofile, hlanguages, -, -⟩
      exact ⟨⟨hprofile, hlanguages⟩, fun p hp => absurd hp List.not_mem_nil⟩
  | deep =>
    simp only [List.forall_mem_append, orgObservations_admissible_iff,
      readmeObservations_admissible_iff, hrepos]
    constructor
    · rintro ⟨⟨hprofile, hlanguages⟩, horgs, hreadme⟩
      exact ⟨hprofile, hlanguages, fun _ => horgs, fun _ => hreadme⟩
    · rintro ⟨hprofile, hlanguages, horgs, hreadme⟩
      exact ⟨⟨hprofile, hlanguages⟩, horgs rfl, hreadme rfl⟩

/-- The answers for a user with a name and some repositories, and nothing else. -/
def plainAnswers (repos : List Json) : GithubAnswers where
  user := some (.obj [("name", .str "Ada")])
  repos := some repos
  orgs := some []
  readme _ _ := none

theorem validateCollected_collect_one_repo :
    let answers := plainAnswers [.obj [("name", .str "engine"), ("language", .str "Rust")]]
    rawBytes (.obj [("name", .str "Ada")]) (answers.repos.getD []) ≠ [] ∧
      ∃ collected, collect 0 (fun _ => []) "ada" answers .light = some collected ∧
        (validateCollected collected = true ↔
          NoBlankValue "ada" (.obj [("name", .str "Ada")]) answers .light) :=
  validateCollected_collect_iff (by
    rw [← Str.strip_eq_nil_iff]
    decide) rfl

/-- Without a repository there is no language, and with a repository but no organisation there is
none at depth `deep`. -/
theorem validateCollected_sparse :
    (collect 0 (fun _ => []) "ada" (plainAnswers []) .light).map validateCollected = some false ∧
    (collect 0 (fun _ => []) "ada" (plainAnswers
      [.obj [("name", .str "engine"), ("language", .str "Rust")]]) .deep).map validateCollected =
        some false := by
  decide

end Admissible

end VCBrain
