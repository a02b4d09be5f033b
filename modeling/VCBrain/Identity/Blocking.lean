import VCBrain.Foundation.GroupBy
import VCBrain.Identity.Matchers

set_option relaxedAutoImplicit false
set_option autoImplicit false

/-!
# Blocking

`resolve_identities` compares two persons only if they share a blocking key. This file models the
keys and the pairs that are compared, and says which matches they cannot miss.

## Main definitions

* `blockingKeys` — the keys of a person's observations.
* `candidatePairs` — the pairs that share a key.
* `Keyed` — the rule that matched two persons has a key for them.

## Main results

* `mem_candidatePairs` — a pair is compared exactly if its persons share a key.
* `shares_blockingKey` — two persons matched by a rule that has a key for them share it.
-/

namespace VCBrain

section Keys

variable (env : MatchEnv)

/-- The blocking keys of one observation. -/
def observationKeys (o : ObservationDict) : Option (List Str) :=
  if o.predicate = "email" ∧ '@' ∈ o.objectValue then
    let localPart := (env.ucd.lower (o.objectValue.partition '@').1).take 3
    some (if localPart ≠ [] then ["email:".toList ++ localPart] else [])
  else if o.predicate = "twitter_handle" ∧ o.objectValue ≠ [] then
    some ["twitter:".toList ++ env.ucd.lower o.objectValue.strip]
  else if (o.predicate = "blog_url" ∨ o.predicate = "website_url") ∧ o.objectValue ≠ [] then
    (normalizeUrl env o.objectValue).map fun url =>
      let domain := (url.partition '/').1
      if domain ≠ [] then ["domain:".toList ++ domain] else []
  else if o.predicate = "display_name" ∧ o.objectValue ≠ [] then
    some (((env.ucd.lower o.objectValue.strip).words.filter fun token => 3 ≤ token.length).map
      fun token => "name:".toList ++ token.take 3)
  else some []

/-- `_build_blocking_keys`. -/
def blockingKeys (observations : List ObservationDict) : Option (List Str) :=
  (observations.mapM (observationKeys env)).map fun keys => keys.flatten.dedup

end Keys

/-! ## Candidate pairs -/

/-- A pair in the order of the ids. -/
def orderedPair (a b : Uuid) : Uuid × Uuid := if a < b then (a, b) else (b, a)

/-- The pairs of two different persons of a list. -/
def pairsOf : List Uuid → List (Uuid × Uuid)
  | [] => []
  | a :: pids => (pids.filter (a ≠ ·)).map (orderedPair a) ++ pairsOf pids

/-- The keys of all persons, each with its person. -/
def keyEntries (personKeys : List (Uuid × List Str)) : List (Str × Uuid) :=
  personKeys.flatMap fun person => person.2.map fun key => (key, person.1)

/-- `key_to_persons`: each key with the persons that have it. -/
def keyToPersons (personKeys : List (Uuid × List Str)) : List (Str × List Uuid) :=
  (groupBy Prod.fst (keyEntries personKeys)).map fun group => (group.1, group.2.map Prod.snd)

/-- `candidate_pairs`: the pairs of persons that share a key. -/
def candidatePairs (personKeys : List (Uuid × List Str)) : List (Uuid × Uuid) :=
  ((keyToPersons personKeys).flatMap fun group => pairsOf group.2).dedup

lemma mem_pairsOf {pids : List Uuid} {a b : Uuid} :
    (a, b) ∈ pairsOf pids ↔ a < b ∧ a ∈ pids ∧ b ∈ pids := by
  induction pids with
  | nil => simp [pairsOf]
  | cons c pids ih =>
    simp only [pairsOf, List.mem_append, List.mem_map, List.mem_filter, decide_eq_true_eq, ih,
      List.mem_cons]
    constructor
    · rintro (⟨d, ⟨hd, hne⟩, hpair⟩ | ⟨hlt, ha, hb⟩)
      · unfold orderedPair at hpair
        split_ifs at hpair with hlt
        · cases hpair
          exact ⟨hlt, Or.inl rfl, Or.inr hd⟩
        · cases hpair
          exact ⟨lt_of_le_of_ne (not_lt.mp hlt) (Ne.symm hne), Or.inr hd, Or.inl rfl⟩
      · exact ⟨hlt, Or.inr ha, Or.inr hb⟩
    · rintro ⟨hlt, rfl | ha, rfl | hb⟩
      · exact absurd hlt (lt_irrefl _)
      · exact Or.inl ⟨b, ⟨hb, hlt.ne⟩, by simp [orderedPair, hlt]⟩
      · exact Or.inl ⟨a, ⟨ha, hlt.ne'⟩, by simp [orderedPair, not_lt.mpr hlt.le]⟩
      · exact Or.inr ⟨hlt, ha, hb⟩

lemma mem_keyEntries {personKeys : List (Uuid × List Str)} {key : Str} {a : Uuid} :
    (key, a) ∈ keyEntries personKeys ↔ ∃ keys, (a, keys) ∈ personKeys ∧ key ∈ keys := by
  simp only [keyEntries, List.mem_flatMap, List.mem_map, Prod.mk.injEq]
  constructor
  · rintro ⟨⟨a, keys⟩, hmem, key, hkey, rfl, rfl⟩
    exact ⟨keys, hmem, hkey⟩
  · rintro ⟨keys, hmem, hkey⟩
    exact ⟨(a, keys), hmem, key, hkey, rfl, rfl⟩

/-- **Candidate pairs.** A pair is compared exactly if its persons share a key. -/
lemma mem_candidatePairs {personKeys : List (Uuid × List Str)} {a b : Uuid} :
    (a, b) ∈ candidatePairs personKeys ↔ a < b ∧ ∃ key,
      (∃ keys, (a, keys) ∈ personKeys ∧ key ∈ keys) ∧
        ∃ keys, (b, keys) ∈ personKeys ∧ key ∈ keys := by
  have hgroup : ∀ key c, c ∈ ((keyEntries personKeys).filter fun x => x.1 = key).map Prod.snd ↔
      (key, c) ∈ keyEntries personKeys := by
    intro key c
    simp
  simp only [candidatePairs, keyToPersons, List.mem_dedup, List.mem_flatMap, ← mem_keyEntries]
  constructor
  · intro h
    obtain ⟨_, hmem, hpair⟩ := h
    obtain ⟨⟨key, group⟩, hkey, rfl⟩ := List.mem_map.mp hmem
    obtain ⟨-, rfl⟩ := mem_groupBy.mp hkey
    rw [mem_pairsOf, hgroup, hgroup] at hpair
    exact ⟨hpair.1, key, hpair.2⟩
  · intro h
    obtain ⟨hlt, key, ha, hb⟩ := h
    have hkey : (key, _) ∈ groupBy Prod.fst (keyEntries personKeys) :=
      mem_groupBy.mpr ⟨⟨(key, a), ha, rfl⟩, rfl⟩
    refine ⟨_, List.mem_map_of_mem hkey, ?_⟩
    rw [mem_pairsOf, hgroup, hgroup]
    exact ⟨hlt, ha, hb⟩

/-! ## Keys of the rules -/

section Rules

variable {env : MatchEnv} {observations : List ObservationDict} {keys : List Str}
  {o : ObservationDict}

/-- The keys of a person are those of the observations. -/
lemma mem_blockingKeys (h : blockingKeys env observations = some keys) {key : Str} :
    key ∈ keys ↔ ∃ o ∈ observations, ∃ ks, observationKeys env o = some ks ∧ key ∈ ks := by
  obtain ⟨lists, hlists, rfl⟩ := Option.map_eq_some_iff.mp h
  simp only [List.mem_dedup, List.mem_flatten, mem_of_mapM_eq_some hlists]
  constructor
  · rintro ⟨ks, ⟨o, ho, hks⟩, hkey⟩
    exact ⟨o, ho, ks, hks, hkey⟩
  · rintro ⟨o, ho, ks, hks, hkey⟩
    exact ⟨ks, ⟨o, ho, hks⟩, hkey⟩

/-- An email whose local part is not empty gives a key. -/
lemma email_mem_blockingKeys (h : blockingKeys env observations = some keys)
    (ho : o ∈ observations) (hpred : o.predicate = "email") (hat : '@' ∈ o.objectValue)
    (hlocal : (o.objectValue.partition '@').1 ≠ []) :
    "email:".toList ++ (env.ucd.lower (o.objectValue.partition '@').1).take 3 ∈ keys := by
  have hkeys : observationKeys env o = _ := if_pos ⟨hpred, hat⟩
  have hne : (env.ucd.lower (o.objectValue.partition '@').1).take 3 ≠ [] := by
    rw [Ne, List.take_eq_nil_iff, not_or]
    exact ⟨by decide, env.ucd.lower_ne_nil hlocal⟩
  refine (mem_blockingKeys h).mpr ⟨o, ho, _, hkeys, ?_⟩
  rw [if_pos hne]
  exact List.mem_singleton_self _

/-- A Twitter handle gives a key. -/
lemma twitter_mem_blockingKeys (h : blockingKeys env observations = some keys)
    (ho : o ∈ observations) (hpred : o.predicate = "twitter_handle") (hne : o.objectValue ≠ []) :
    "twitter:".toList ++ env.ucd.lower o.objectValue.strip ∈ keys := by
  have hkeys : observationKeys env o = 
      some ["twitter:".toList ++ env.ucd.lower o.objectValue.strip] := by
    rw [observationKeys, hpred, if_neg fun h => absurd h.1 (by decide), if_pos ⟨rfl, hne⟩]
  exact (mem_blockingKeys h).mpr ⟨o, ho, _, hkeys, List.mem_singleton_self _⟩

/-- A blog or website whose host is not empty gives a key. -/
lemma domain_mem_blockingKeys (h : blockingKeys env observations = some keys)
    (ho : o ∈ observations) (hpred : o.predicate = "blog_url" ∨ o.predicate = "website_url")
    (hne : o.objectValue ≠ []) {url : Str} (hurl : normalizeUrl env o.objectValue = some url)
    (hhost : (url.partition '/').1 ≠ []) : "domain:".toList ++ (url.partition '/').1 ∈ keys := by
  have hkeys : observationKeys env o = some ["domain:".toList ++ (url.partition '/').1] := by
    have hemail : ¬ (o.predicate = "email" ∧ '@' ∈ o.objectValue) := by
      rintro ⟨hp, -⟩
      rw [hp] at hpred
      exact absurd hpred (by decide)
    have htwitter : ¬ (o.predicate = "twitter_handle" ∧ o.objectValue ≠ []) := by
      rintro ⟨hp, -⟩
      rw [hp] at hpred
      exact absurd hpred (by decide)
    rw [observationKeys, if_neg hemail, if_neg htwitter, if_pos ⟨hpred, hne⟩, hurl,
      Option.map_some, if_pos hhost]
  exact (mem_blockingKeys h).mpr ⟨o, ho, _, hkeys, List.mem_singleton_self _⟩

/-- A token of three characters in a name gives a key. -/
lemma name_mem_blockingKeys (h : blockingKeys env observations = some keys)
    (ho : o ∈ observations) (hpred : o.predicate = "display_name") (hne : o.objectValue ≠ [])
    {token : Str} (htoken : token ∈ (env.ucd.lower o.objectValue.strip).words)
    (hlength : 3 ≤ token.length) : "name:".toList ++ token.take 3 ∈ keys := by
  have hkeys : observationKeys env o =
      some (((env.ucd.lower o.objectValue.strip).words.filter fun token => 3 ≤ token.length).map
        fun token => "name:".toList ++ token.take 3) := by
    rw [observationKeys, hpred, if_neg fun h => absurd h.1 (by decide),
      if_neg fun h => absurd h.1 (by decide), if_neg fun h => absurd h.1 (by decide),
      if_pos ⟨rfl, hne⟩]
  refine (mem_blockingKeys h).mpr ⟨o, ho, _, hkeys, ?_⟩
  exact List.mem_map.mpr ⟨token, List.mem_filter.mpr ⟨htoken, by simpa using hlength⟩, rfl⟩

end Rules

/-! ## Matches that blocking cannot miss -/

section Completeness

variable (env : MatchEnv)

/-- The email that is compared has a non-empty local part, and an observation gives it without
leading whitespace. -/
def EmailKeyed (observations : List ObservationDict) : Prop :=
  ∃ email, getObservation observations "email" = some email ∧ '@' ∈ email ∧
    (email.partition '@').1 ≠ [] ∧
    ∃ o ∈ observations, o.predicate = "email" ∧ o.objectValue.rstrip = email

/-- A URL, if set, has a host. -/
def HasHost (url : Option Str) : Prop :=
  ∀ value ∈ url, ∀ normal, normalizeUrl env value = some normal → (normal.partition '/').1 ≠ []

/-- The tokens of a name that blocking reads. -/
def nameTokens (name : Str) : List Str := (env.ucd.lower name).words

/-- Two names have tokens of three characters that start alike, as they do in particular when
neither has diacritics, the score is full and some token has three characters. -/
def NamesKeyed (a b : Str) : Prop :=
  (∃ t ∈ nameTokens env a, ∃ u ∈ nameTokens env b,
    3 ≤ t.length ∧ 3 ≤ u.length ∧ t.take 3 = u.take 3) ∨
  (normalizeName env a = env.ucd.lower a ∧ normalizeName env b = env.ucd.lower b ∧
    env.tokenSortRatio (normalizeName env a) (normalizeName env b) = 100 ∧
    ∃ t ∈ nameTokens env a, 3 ≤ t.length)

/-- The rule that gave the reasons has a key for the two persons. -/
structure Keyed (a b : List ObservationDict) (reasons : List Str) : Prop where
  email : reasons = ["email_exact".toList] → EmailKeyed a ∧ EmailKeyed b
  url : reasons = ["url_exact".toList] →
    HasHost env (getObservation a "blog_url") ∧ HasHost env (getObservation a "website_url")
  name : reasons.head? = some "name_fuzzy" ∨ reasons.head? = some "name_fuzzy_only" →
    ∀ nameA ∈ getObservation a "display_name", ∀ nameB ∈ getObservation b "display_name",
      NamesKeyed env nameA nameB

variable {env} {a b : Signals} {confidence : ℚ} {reasons : List Str}

/-- A pair above the review threshold was matched by one of the four rules. -/
lemma rule_of_matchSignals (h : matchSignals env a b = some (confidence, reasons))
    (hreview : 1 / 2 ≤ confidence) :
    (exactMatch env a.email b.email = true ∧ reasons = ["email_exact".toList]) ∨
    exactMatch env a.twitterHandle b.twitterHandle = true ∨
    ((urlMatch env a.blogUrl b.websiteUrl = some true ∨
      urlMatch env a.websiteUrl b.blogUrl = some true) ∧ reasons = ["url_exact".toList]) ∨
    (90 ≤ nameSimilarity env a.displayName b.displayName ∧
      (reasons.head? = some "name_fuzzy" ∨ reasons.head? = some "name_fuzzy_only")) := by
  unfold matchSignals at h
  by_cases hemail : exactMatch env a.email b.email = true
  · rw [if_pos hemail] at h
    cases h
    exact Or.inl ⟨hemail, rfl⟩
  rw [if_neg hemail] at h
  by_cases htwitter : exactMatch env a.twitterHandle b.twitterHandle = true
  · exact Or.inr (Or.inl htwitter)
  rw [if_neg htwitter] at h
  obtain ⟨blogWebsite, hblog, h⟩ := Option.bind_eq_some_iff.mp h
  cases blogWebsite with
  | true =>
    cases h
    exact Or.inr (Or.inr (Or.inl ⟨Or.inl hblog, rfl⟩))
  | false =>
    obtain ⟨websiteBlog, hwebsite, h⟩ := Option.bind_eq_some_iff.mp h
    cases websiteBlog with
    | true =>
      cases h
      exact Or.inr (Or.inr (Or.inl ⟨Or.inr hwebsite, rfl⟩))
    | false =>
      rw [if_neg Bool.false_ne_true, ite_eq_iff] at h
      cases h with
      | inl h =>
        obtain ⟨corroboration, -, hresult⟩ := Option.map_eq_some_iff.mp h.2
        refine Or.inr (Or.inr (Or.inr ⟨h.1, ?_⟩))
        split_ifs at hresult
        · cases hresult
          exact Or.inl rfl
        · cases hresult
          exact Or.inr rfl
      | inr h =>
        obtain ⟨-, heq⟩ := h
        cases heq
        exact absurd hreview (by decide +kernel)

variable {obsA obsB : List ObservationDict} {keysA keysB : List Str}

/-- What matching URLs share: both are set and have one normal form. -/
lemma exists_of_urlMatch {x y : Option Str} (h : urlMatch env x y = some true) :
    ∃ v w url, x = some v ∧ y = some w ∧ normalizeUrl env v = some url ∧
      normalizeUrl env w = some url := by
  cases x with
  | none => cases y <;> cases h
  | some v =>
    cases y with
    | none => cases h
    | some w =>
      simp only [urlMatch] at h
      split_ifs at h with hempty
      · cases h
      obtain ⟨nv, hv, h⟩ := Option.bind_eq_some_iff.mp h
      obtain ⟨nw, hw, h⟩ := Option.map_eq_some_iff.mp h
      obtain rfl : nv = nw := by simpa using h
      exact ⟨v, w, nv, rfl, rfl, hv, hw⟩

/-- Normal forms ignore surrounding whitespace. -/
lemma normalizeUrl_strip (url : Str) : normalizeUrl env url.strip = normalizeUrl env url := by
  rw [normalizeUrl, Str.strip_strip]
  rfl

/-- The email rule: the keys come from the local part, which is compared with the rest. -/
lemma shares_email (hA : blockingKeys env obsA = some keysA)
    (hB : blockingKeys env obsB = some keysB)
    (hmatch : exactMatch env (getObservation obsA "email") (getObservation obsB "email") = true)
    (hkeyA : EmailKeyed obsA) (hkeyB : EmailKeyed obsB) : ∃ key ∈ keysA, key ∈ keysB := by
  have hkey : ∀ {obs keys}, blockingKeys env obs = some keys → ∀ email,
      getObservation obs "email" = some email → EmailKeyed obs →
      "email:".toList ++ ((env.ucd.lower email).partition '@').1.take 3 ∈ keys := by
    rintro obs keys h email hemail ⟨_, hemail', hat, hlocal, o, ho, hpred, rfl⟩
    rw [hemail] at hemail'
    cases hemail'
    have hpre : o.objectValue.rstrip <+: o.objectValue := List.rdropWhile_prefix ..
    have hpart := Str.partition_fst_of_prefix hpre hat
    rw [env.ucd.partition_fst_lower (by decide) (by decide) (by decide), ← hpart]
    exact email_mem_blockingKeys h ho hpred (hpre.subset hat) (hpart ▸ hlocal)
  obtain ⟨emailA, emailB, hemailA, hemailB, -, -, heq⟩ := exactMatch_eq_true_iff.mp hmatch
  obtain ⟨_, -, -, -, rfl⟩ := exists_of_getObservation hemailA
  obtain ⟨_, -, -, -, rfl⟩ := exists_of_getObservation hemailB
  rw [Str.strip_strip, Str.strip_strip] at heq
  refine ⟨_, hkey hA _ hemailA hkeyA, ?_⟩
  rw [heq]
  exact hkey hB _ hemailB hkeyB

/-- The Twitter rule: the key is what is compared. -/
lemma shares_twitter (hA : blockingKeys env obsA = some keysA)
    (hB : blockingKeys env obsB = some keysB)
    (hmatch : exactMatch env (getObservation obsA "twitter_handle")
      (getObservation obsB "twitter_handle") = true) : ∃ key ∈ keysA, key ∈ keysB := by
  obtain ⟨_, _, hhandleA, hhandleB, -, -, heq⟩ := exactMatch_eq_true_iff.mp hmatch
  obtain ⟨o, ho, hpred, hne, rfl⟩ := exists_of_getObservation hhandleA
  obtain ⟨o', ho', hpred', hne', rfl⟩ := exists_of_getObservation hhandleB
  rw [Str.strip_strip, Str.strip_strip] at heq
  refine ⟨_, twitter_mem_blockingKeys hA ho hpred hne, ?_⟩
  rw [heq]
  exact twitter_mem_blockingKeys hB ho' hpred' hne'

/-- The URL rule: the key is the host of the normal form. -/
lemma shares_domain (hA : blockingKeys env obsA = some keysA)
    (hB : blockingKeys env obsB = some keysB) {predicateA predicateB : Str}
    (hpredA : predicateA = "blog_url" ∨ predicateA = "website_url")
    (hpredB : predicateB = "blog_url" ∨ predicateB = "website_url")
    (hmatch : urlMatch env (getObservation obsA predicateA) (getObservation obsB predicateB) =
      some true)
    (hhost : HasHost env (getObservation obsA predicateA)) : ∃ key ∈ keysA, key ∈ keysB := by
  obtain ⟨_, _, url, hurlA, hurlB, hnormalA, hnormalB⟩ := exists_of_urlMatch hmatch
  have hne := hhost _ hurlA url hnormalA
  obtain ⟨o, ho, hpred, hvalue, rfl⟩ := exists_of_getObservation hurlA
  obtain ⟨o', ho', hpred', hvalue', rfl⟩ := exists_of_getObservation hurlB
  rw [normalizeUrl_strip] at hnormalA hnormalB
  exact ⟨_, domain_mem_blockingKeys hA ho (hpred ▸ hpredA) hvalue hnormalA hne,
    domain_mem_blockingKeys hB ho' (hpred' ▸ hpredB) hvalue' hnormalB hne⟩

/-- The name rule: the keys are the starts of the tokens, which full similarity permutes. -/
lemma shares_name
    (hratio : LawfulRatio env.tokenSortRatio)
    (hA : blockingKeys env obsA = some keysA) (hB : blockingKeys env obsB = some keysB)
    {nameA nameB : Str} (hnameA : getObservation obsA "display_name" = some nameA)
    (hnameB : getObservation obsB "display_name" = some nameB)
    (hkeyed : NamesKeyed env nameA nameB) : ∃ key ∈ keysA, key ∈ keysB := by
  have hstart : ∃ t ∈ nameTokens env nameA, ∃ u ∈ nameTokens env nameB,
      3 ≤ t.length ∧ 3 ≤ u.length ∧ t.take 3 = u.take 3 := by
    cases hkeyed with
    | inl h => exact h
    | inr h =>
      obtain ⟨hfoldA, hfoldB, hfull, t, ht, hlength⟩ := h
      rw [hratio.eq_full_iff, hfoldA, hfoldB] at hfull
      exact ⟨t, ht, t, hfull.mem_iff.mp ht, hlength, hlength, rfl⟩
  obtain ⟨t, ht, u, hu, htlength, hulength, htake⟩ := hstart
  obtain ⟨o, ho, hpred, hne, rfl⟩ := exists_of_getObservation hnameA
  obtain ⟨o', ho', hpred', hne', rfl⟩ := exists_of_getObservation hnameB
  refine ⟨_, name_mem_blockingKeys hA ho hpred hne ht htlength, ?_⟩
  rw [htake]
  exact name_mem_blockingKeys hB ho' hpred' hne' hu hulength

/-- **Blocking misses no keyed match.** Two persons whose confidence reaches the review threshold
share a blocking key, and are a candidate pair, if the rule that matched them has a key for them.

**Proof sketch.** By cases on the rule: the key of each is a function of what the rule
compares. -/
theorem shares_blockingKey
    (hratio : LawfulRatio env.tokenSortRatio)
    (hA : blockingKeys env obsA = some keysA) (hB : blockingKeys env obsB = some keysB)
    (hmatch : matchConfidence env obsA obsB = some (confidence, reasons))
    (hreview : 1 / 2 ≤ confidence) (hkeyed : Keyed env obsA obsB reasons) :
    (∃ key ∈ keysA, key ∈ keysB) ∧
      ∀ personKeys p q, p ≠ q → (p, keysA) ∈ personKeys → (q, keysB) ∈ personKeys →
        orderedPair p q ∈ candidatePairs personKeys := by
  have hshared : ∃ key ∈ keysA, key ∈ keysB := by
    rcases rule_of_matchSignals hmatch hreview with
      ⟨hemail, hreasons⟩ | htwitter | ⟨hurl, hreasons⟩ | ⟨hname, hreasons⟩
    · obtain ⟨hkeyA, hkeyB⟩ := hkeyed.email hreasons
      exact shares_email hA hB hemail hkeyA hkeyB
    · exact shares_twitter hA hB htwitter
    · obtain ⟨hblog, hwebsite⟩ := hkeyed.url hreasons
      cases hurl with
      | inl h => exact shares_domain hA hB (Or.inl rfl) (Or.inr rfl) h hblog
      | inr h => exact shares_domain hA hB (Or.inr rfl) (Or.inl rfl) h hwebsite
    · obtain ⟨nameA, nameB, hnameA, hnameB, -⟩ := exists_of_nameSimilarity hname
      exact shares_name hratio hA hB hnameA hnameB
        (hkeyed.name hreasons nameA hnameA nameB hnameB)
  refine ⟨hshared, fun personKeys p q hne hp hq => ?_⟩
  obtain ⟨key, hkeyA, hkeyB⟩ := hshared
  unfold orderedPair
  split_ifs with hlt
  · exact mem_candidatePairs.mpr ⟨hlt, key, ⟨keysA, hp, hkeyA⟩, keysB, hq, hkeyB⟩
  · have hgt : q < p := lt_of_le_of_ne (not_lt.mp hlt) (Ne.symm hne)
    exact mem_candidatePairs.mpr ⟨hgt, key, ⟨keysB, hq, hkeyB⟩, keysA, hp, hkeyA⟩

end Completeness

/-- Two persons matched by name and company share the keys of the name. -/
theorem shares_blockingKey_adaByron :
    ∃ key ∈ [("email:ada" : Str), ("name:ada" : Str), ("name:byr" : Str)],
      key ∈ [("name:byr" : Str), ("name:ada" : Str), ("email:byr" : Str)] :=
  (shares_blockingKey lawfulRatio_sampleMatchEnv
    (by decide : blockingKeys sampleMatchEnv adaObservations = _)
    (by decide : blockingKeys sampleMatchEnv byronObservations = _)
    (by decide +kernel : _ =
      some ((85 / 100 : ℚ), [("name_fuzzy" : Str), ("same_company" : Str)]))
    (by decide +kernel)
    { email := fun h => absurd h (by decide)
      url := fun h => absurd h (by decide)
      name := by
        intro _ nameA hA nameB hB
        cases hA
        cases hB
        exact Or.inl (by decide) }).1

/-- Every match above the review threshold shares a key. -/
def BlockingComplete (env : MatchEnv) : Prop :=
  ∀ obsA obsB confidence reasons,
    matchConfidence env obsA obsB = some (confidence, reasons) → 1 / 2 ≤ confidence →
    ∃ keysA keysB, blockingKeys env obsA = some keysA ∧ blockingKeys env obsB = some keysB ∧
      ∃ key ∈ keysA, key ∈ keysB

/-- Two persons of one short name match and have no key. -/
theorem not_blockingComplete :
    LawfulRatio sampleMatchEnv.tokenSortRatio ∧ ¬ BlockingComplete sampleMatchEnv := by
  refine ⟨lawfulRatio_sampleMatchEnv, fun h => ?_⟩
  obtain ⟨keysA, _, hA, -, key, hkey, -⟩ := h [⟨"display_name", "Jo Li"⟩]
    [⟨"display_name", "Jo Li"⟩] (1 / 2) ["name_fuzzy_only"] (by decide +kernel)
    (by decide +kernel)
  have hnone : blockingKeys sampleMatchEnv [⟨"display_name", "Jo Li"⟩] = some [] := by decide
  rw [hnone] at hA
  cases hA
  cases hkey

end VCBrain
