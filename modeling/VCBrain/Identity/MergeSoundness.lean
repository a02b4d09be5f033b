import VCBrain.Identity.UrlMatch

set_option relaxedAutoImplicit false
set_option autoImplicit false

/-!
# Soundness of automatic merges

Two persons whose confidence reaches the threshold are merged without review. This file asks
whether something that the two persons share speaks for the merge.

## Main definitions

* `Justified` — the persons share an identifying value, or similar names and something else.
* `MergeSound` — a confidence that reaches the threshold is justified.
* `Unfounded` — a rule applies to URLs without a host, to an empty slug or to one person alone.

## Main results

* `exists_matchSignals_iff` — when the confidence reaches the threshold, rule by rule.
* `mergeSound_iff` — when a merge is sound.
-/

namespace VCBrain

section Grounds

variable (env : MatchEnv)

/-- Two signals, which are stripped, are not empty and equal up to case. -/
def SharedValue (a b : Option Str) : Prop :=
  ∃ x y, a = some x ∧ b = some y ∧ x ≠ [] ∧ y ≠ [] ∧
    env.ucd.lower x.strip = env.ucd.lower y.strip

/-- A blog and a website are URLs with a host, and have the same host and path. -/
def SharedUrl (blog website : Option Str) : Prop :=
  ∃ u v k l, blog = some u ∧ website = some v ∧ webUrl env u = some k ∧ webUrl env v = some l ∧
    k.host ≠ [] ∧ l.host ≠ [] ∧ SamePlace k l

/-- A blog and a website are texts that are not empty, of which one denotes a URL without a host,
and have the same host and path. -/
def HostlessMatch (blog website : Option Str) : Prop :=
  ∃ u v k l, blog = some u ∧ website = some v ∧ u ≠ [] ∧ v ≠ [] ∧ webUrl env u = some k ∧
    webUrl env v = some l ∧ (k.host = [] ∨ l.host = []) ∧ SamePlace k l

/-- A slug and a name contain one another, up to case. -/
def ContainOneAnother (slug name : Str) : Prop :=
  env.ucd.lower name <:+: slug ∨ slug <:+: env.ucd.lower name

/-- The slug of a LinkedIn URL and a name are not empty and contain one another. -/
def SlugMatchesName (linkedin name : Option Str) : Prop :=
  ∃ x n, linkedin = some x ∧ name = some n ∧ linkedinSlug env x ≠ [] ∧ n ≠ [] ∧
    ContainOneAnother env (linkedinSlug env x) n

/-- What speaks for a merge of two persons. -/
inductive Justified (a b : Signals) : Prop
  | email (h : SharedValue env a.email b.email)
  | twitter (h : SharedValue env a.twitterHandle b.twitterHandle)
  | blogWebsite (h : SharedUrl env a.blogUrl b.websiteUrl)
  | websiteBlog (h : SharedUrl env a.websiteUrl b.blogUrl)
  | location (hname : 90 ≤ nameSimilarity env a.displayName b.displayName)
      (h : SharedValue env a.location b.location)
  | company (hname : 90 ≤ nameSimilarity env a.displayName b.displayName)
      (h : SharedValue env a.company b.company)
  | slugName (hname : 90 ≤ nameSimilarity env a.displayName b.displayName)
      (h : SlugMatchesName env a.linkedinUrl b.displayName)
  | nameSlug (hname : 90 ≤ nameSimilarity env a.displayName b.displayName)
      (h : SlugMatchesName env b.linkedinUrl a.displayName)

/-- A merge of two persons is sound: a confidence that reaches the threshold is justified. -/
def MergeSound (observationsA observationsB : List ObservationDict) : Prop :=
  ∀ c reasons, matchConfidence env observationsA observationsB = some (c, reasons) →
    shouldAutoMerge c autoMergeThreshold →
      Justified env (extractSignals observationsA) (extractSignals observationsB)

/-- The LinkedIn rule has nothing to compare: the slug of the URL it reads is empty, or the URL and
the name are both of the second person. -/
def SelfOrEmptySlug (a b : Signals) : Prop :=
  ∃ x, orElseFilled a.linkedinUrl b.linkedinUrl = some x ∧ x ≠ [] ∧
    (linkedinSlug env x = [] ∨ ¬ filled a.linkedinUrl ∧
      ∃ n, b.displayName = some n ∧ ContainOneAnother env (linkedinSlug env x) n)

/-- A rule applies to two persons although it compares nothing that they share. -/
inductive Unfounded (a b : Signals) : Prop
  | blogWebsite (h : HostlessMatch env a.blogUrl b.websiteUrl)
  | websiteBlog (hparse : (urlMatch env a.blogUrl b.websiteUrl).isSome)
      (h : HostlessMatch env a.websiteUrl b.blogUrl)
  | linkedin (hparse : UrlsParse env a b)
      (hname : 90 ≤ nameSimilarity env a.displayName b.displayName) (h : SelfOrEmptySlug env a b)

end Grounds

/-! ## The rules one by one -/

section Rules

variable {env : MatchEnv} {a b : Signals}

/-- A match of URLs is a match of URLs with a host, or one of URLs without. -/
lemma urlMatch_eq_true_iff_shared {blog website : Option Str} :
    urlMatch env blog website = some true ↔
      SharedUrl env blog website ∨ HostlessMatch env blog website := by
  cases blog with
  | none => simp [urlMatch, SharedUrl, HostlessMatch]
  | some u =>
    cases website with
    | none => simp [urlMatch, SharedUrl, HostlessMatch]
    | some v =>
      rw [urlMatch_eq_true_iff]
      constructor
      · rintro ⟨hu, hv, k, l, hk, hl, hplace⟩
        by_cases hhost : k.host = [] ∨ l.host = []
        · exact Or.inr ⟨u, v, k, l, rfl, rfl, hu, hv, hk, hl, hhost, hplace⟩
        · rw [not_or] at hhost
          exact Or.inl ⟨u, v, k, l, rfl, rfl, hk, hl, hhost.1, hhost.2, hplace⟩
      · rintro (⟨u', v', k, l, hu', hv', hk, hl, hhost, hhost', hplace⟩ |
          ⟨u', v', k, l, hu', hv', hu, hv, hk, hl, -, hplace⟩)
        · obtain rfl := Option.some.inj hu'
          obtain rfl := Option.some.inj hv'
          refine ⟨?_, ?_, k, l, hk, hl, hplace⟩
          · rintro rfl
            exact hhost (host_of_webUrl_nil hk)
          · rintro rfl
            exact hhost' (host_of_webUrl_nil hl)
        · obtain rfl := Option.some.inj hu'
          obtain rfl := Option.some.inj hv'
          exact ⟨hu, hv, k, l, hk, hl, hplace⟩

lemma linkedinNameMatch_eq_true_iff {linkedin name : Option Str} :
    linkedinNameMatch env linkedin name = true ↔ ∃ x n, linkedin = some x ∧ name = some n ∧
      x ≠ [] ∧ n ≠ [] ∧
        (linkedinSlug env x = [] ∨ ContainOneAnother env (linkedinSlug env x) n) := by
  unfold ContainOneAnother
  cases linkedin with
  | none => simp [linkedinNameMatch]
  | some x =>
    cases name with
    | none => simp [linkedinNameMatch]
    | some n =>
      by_cases hslug : linkedinSlug env x = []
      · simp [linkedinNameMatch, hslug]
      · simp [linkedinNameMatch, hslug, and_assoc]

/-- **The LinkedIn rule.** Under similar names, it applies exactly if the slug of the first person
and the name of the second contain one another, or it has nothing to compare. -/
lemma linkedinCorroborates_iff (hname : 90 ≤ nameSimilarity env a.displayName b.displayName) :
    linkedinCorroborates env a b = true ↔
      SlugMatchesName env a.linkedinUrl b.displayName ∨ SelfOrEmptySlug env a b := by
  obtain ⟨-, n, -, hn, -, hne⟩ := exists_of_nameSimilarity hname
  have hread : orElseFilled b.displayName a.displayName = some n := by
    simp [orElseFilled, filled, hn, hne]
  unfold linkedinCorroborates
  rw [hread, linkedinNameMatch_eq_true_iff]
  constructor
  · rintro ⟨x, n', hx, hn', hxne, -, hslug⟩
    obtain rfl := Option.some.inj hn'
    by_cases hempty : linkedinSlug env x = []
    · exact Or.inr ⟨x, hx, hxne, Or.inl hempty⟩
    have hcontain := hslug.resolve_left hempty
    by_cases hown : filled a.linkedinUrl = true
    · rw [orElseFilled, if_pos hown] at hx
      exact Or.inl ⟨x, n, hx, hn, hempty, hne, hcontain⟩
    · exact Or.inr ⟨x, hx, hxne, Or.inr ⟨hown, n, hn, hcontain⟩⟩
  · rintro (⟨x, n', hx, hn', hempty, -, hcontain⟩ | ⟨x, hx, hxne, hslug⟩)
    · obtain rfl := Option.some.inj (hn.symm.trans hn')
      have hxne : x ≠ [] := by
        rintro rfl
        exact hempty rfl
      refine ⟨x, n, ?_, rfl, hxne, hne, Or.inr hcontain⟩
      simp [orElseFilled, filled, hx, hxne]
    · refine ⟨x, n, hx, rfl, hxne, hne, hslug.imp_right ?_⟩
      rintro ⟨-, n', hn', hcontain⟩
      obtain rfl := Option.some.inj (hn.symm.trans hn')
      exact hcontain

/-- Where both comparisons of URLs parse, the threshold is reached by one rule or another. -/
private lemma exists_fst_of_parse {blogWebsite websiteBlog : Bool}
    (hblog : urlMatch env a.blogUrl b.websiteUrl = some blogWebsite)
    (hwebsite : urlMatch env a.websiteUrl b.blogUrl = some websiteBlog) :
    (∃ c, (matchSignals env a b).map Prod.fst = some c ∧ autoMergeThreshold ≤ c) ↔
      exactMatch env a.email b.email = true ∨
      exactMatch env a.twitterHandle b.twitterHandle = true ∨
      blogWebsite = true ∨ websiteBlog = true ∨
      (90 ≤ nameSimilarity env a.displayName b.displayName ∧
        (exactMatch env a.location b.location = true ∨ exactMatch env a.company b.company = true ∨
          linkedinCorroborates env a b = true)) := by
  have hthreshold : ∀ c : ℚ, (∃ c', some c = some c' ∧ autoMergeThreshold ≤ c') ↔
      autoMergeThreshold ≤ c := fun c => by simp
  rw [map_fst_matchSignals hblog hwebsite, hthreshold]
  split_ifs with hemail htwitter hurl hname hcorroborated
  · exact iff_of_true (by norm_num [autoMergeThreshold]) (Or.inl hemail)
  · exact iff_of_true (by norm_num [autoMergeThreshold]) (Or.inr (Or.inl htwitter))
  · refine iff_of_true (by norm_num [autoMergeThreshold]) (Or.inr (Or.inr ?_))
    exact (Bool.or_eq_true_iff.mp hurl).imp_right Or.inl
  · refine iff_of_true (by norm_num [autoMergeThreshold]) ?_
    refine Or.inr (Or.inr (Or.inr (Or.inr ⟨hname, ?_⟩)))
    simpa [or_assoc] using hcorroborated
  · refine iff_of_false (by norm_num [autoMergeThreshold]) ?_
    rw [Bool.or_eq_true_iff, not_or] at hurl
    rintro (h | h | h | h | ⟨-, h⟩)
    · exact hemail h
    · exact htwitter h
    · exact hurl.1 h
    · exact hurl.2 h
    · exact hcorroborated (by simpa [or_assoc] using h)
  · refine iff_of_false (by norm_num [autoMergeThreshold]) ?_
    rw [Bool.or_eq_true_iff, not_or] at hurl
    rintro (h | h | h | h | ⟨h, -⟩)
    · exact hemail h
    · exact htwitter h
    · exact hurl.1 h
    · exact hurl.2 h
    · exact hname h

/-- **Reaching the threshold.** The confidence reaches the threshold exactly if an identifying value
is shared, or the names are similar and something corroborates them, and no URL that is read
before fails to parse.

**Proof sketch.** The first two rules read no URL, and the third reads the second pair of URLs only
if the first pair does not match. Where both pairs parse, this is `exists_fst_of_parse`. -/
lemma exists_matchSignals_iff :
    (∃ c reasons, matchSignals env a b = some (c, reasons) ∧ autoMergeThreshold ≤ c) ↔
      exactMatch env a.email b.email = true ∨
      exactMatch env a.twitterHandle b.twitterHandle = true ∨
      urlMatch env a.blogUrl b.websiteUrl = some true ∨
      ((urlMatch env a.blogUrl b.websiteUrl).isSome ∧
        urlMatch env a.websiteUrl b.blogUrl = some true) ∨
      (UrlsParse env a b ∧ 90 ≤ nameSimilarity env a.displayName b.displayName ∧
        (exactMatch env a.location b.location = true ∨ exactMatch env a.company b.company = true ∨
          linkedinCorroborates env a b = true)) := by
  have hfst : (∃ c reasons, matchSignals env a b = some (c, reasons) ∧ autoMergeThreshold ≤ c) ↔
      ∃ c, (matchSignals env a b).map Prod.fst = some c ∧ autoMergeThreshold ≤ c := by
    constructor
    · rintro ⟨c, reasons, hmatch, hle⟩
      exact ⟨c, by rw [hmatch]; rfl, hle⟩
    · rintro ⟨c, hmap, hle⟩
      obtain ⟨⟨c', reasons⟩, hmatch, rfl⟩ := Option.map_eq_some_iff.mp hmap
      exact ⟨c', reasons, hmatch, hle⟩
  rw [hfst]
  by_cases hemail : exactMatch env a.email b.email = true
  · refine iff_of_true ⟨1, ?_, by norm_num [autoMergeThreshold]⟩ (Or.inl hemail)
    rw [matchSignals, if_pos hemail]
    rfl
  by_cases htwitter : exactMatch env a.twitterHandle b.twitterHandle = true
  · refine iff_of_true ⟨95 / 100, ?_, by norm_num [autoMergeThreshold]⟩ (Or.inr (Or.inl htwitter))
    rw [matchSignals, if_neg hemail, if_pos htwitter]
    rfl
  cases hblog : urlMatch env a.blogUrl b.websiteUrl with
  | none =>
    have hnone : matchSignals env a b = none := by
      rw [matchSignals, if_neg hemail, if_neg htwitter, hblog]
      rfl
    simp [hnone, UrlsParse, hemail, htwitter, hblog]
  | some blogWebsite =>
    cases hwebsite : urlMatch env a.websiteUrl b.blogUrl with
    | none =>
      cases blogWebsite with
      | true =>
        refine iff_of_true ⟨95 / 100, ?_, by norm_num [autoMergeThreshold]⟩
          (Or.inr (Or.inr (Or.inl rfl)))
        rw [matchSignals, if_neg hemail, if_neg htwitter, hblog]
        rfl
      | false =>
        have hnone : matchSignals env a b = none := by
          rw [matchSignals, if_neg hemail, if_neg htwitter, hblog, hwebsite]
          rfl
        simp [hnone, UrlsParse, hemail, htwitter, hwebsite]
    | some websiteBlog =>
      have hparse : UrlsParse env a b := ⟨by rw [hblog]; rfl, by rw [hwebsite]; rfl⟩
      rw [exists_fst_of_parse hblog hwebsite]
      simp [hparse]

/-- Two similar names that are corroborated justify a merge, unless the LinkedIn rule has nothing to
compare. -/
lemma justified_or_of_corroborated
    (hname : 90 ≤ nameSimilarity env a.displayName b.displayName)
    (h : exactMatch env a.location b.location = true ∨ exactMatch env a.company b.company = true ∨
      linkedinCorroborates env a b = true) : Justified env a b ∨ SelfOrEmptySlug env a b := by
  rcases h with hlocation | hcompany | hlinkedin
  · exact Or.inl (.location hname (exactMatch_eq_true_iff.mp hlocation))
  · exact Or.inl (.company hname (exactMatch_eq_true_iff.mp hcompany))
  · exact ((linkedinCorroborates_iff hname).mp hlinkedin).imp_left (.slugName hname)

/-- A confidence that reaches the threshold is justified or unfounded. -/
lemma justified_or_unfounded {c : ℚ} {reasons : List Str}
    (hmatch : matchSignals env a b = some (c, reasons)) (hle : autoMergeThreshold ≤ c) :
    Justified env a b ∨ Unfounded env a b := by
  rcases exists_matchSignals_iff.mp ⟨c, reasons, hmatch, hle⟩ with
    hemail | htwitter | hblog | ⟨hparse, hwebsite⟩ | ⟨hparse, hname, hcorroborated⟩
  · exact Or.inl (.email (exactMatch_eq_true_iff.mp hemail))
  · exact Or.inl (.twitter (exactMatch_eq_true_iff.mp htwitter))
  · exact (urlMatch_eq_true_iff_shared.mp hblog).imp .blogWebsite .blogWebsite
  · exact (urlMatch_eq_true_iff_shared.mp hwebsite).imp .websiteBlog (.websiteBlog hparse)
  · exact (justified_or_of_corroborated hname hcorroborated).imp_right (.linkedin hparse hname)

/-- An unfounded rule reaches the threshold. -/
lemma Unfounded.exists_matchSignals (h : Unfounded env a b) :
    ∃ c reasons, matchSignals env a b = some (c, reasons) ∧ autoMergeThreshold ≤ c := by
  rw [exists_matchSignals_iff]
  cases h with
  | blogWebsite h => exact Or.inr (Or.inr (Or.inl (urlMatch_eq_true_iff_shared.mpr (Or.inr h))))
  | websiteBlog hparse h =>
    exact Or.inr (Or.inr (Or.inr (Or.inl
      ⟨hparse, urlMatch_eq_true_iff_shared.mpr (Or.inr h)⟩)))
  | linkedin hparse hname h =>
    exact Or.inr (Or.inr (Or.inr (Or.inr
      ⟨hparse, hname, Or.inr (Or.inr ((linkedinCorroborates_iff hname).mpr (Or.inr h)))⟩)))

/-- **Soundness of automatic merges.** A merge is sound exactly if a match of URLs without a host,
an empty slug and a slug compared with the name of its own person decide only where something
else justifies the merge.

**Proof sketch.** A confidence that reaches the threshold rests on a rule that is justified or on
one of those (`justified_or_unfounded`), and each of those reaches it
(`Unfounded.exists_matchSignals`). -/
theorem mergeSound_iff (observationsA observationsB : List ObservationDict) :
    MergeSound env observationsA observationsB ↔
      (Unfounded env (extractSignals observationsA) (extractSignals observationsB) →
        Justified env (extractSignals observationsA) (extractSignals observationsB)) := by
  constructor
  · intro hsound hunfounded
    obtain ⟨c, reasons, hmatch, hle⟩ := hunfounded.exists_matchSignals
    exact hsound c reasons hmatch (decide_eq_true hle)
  · intro h c reasons hmatch hmerge
    exact (justified_or_unfounded hmatch (of_decide_eq_true hmerge)).elim id h

end Rules

/-- A person whose LinkedIn URL ends before the slug. -/
private def sluglessObservations : List ObservationDict :=
  [⟨"display_name", "Ada Byron"⟩, ⟨"linkedin_url", "https://linkedin.com/in/"⟩]

/-- Another person of the same name. -/
private def namesakeObservations : List ObservationDict := [⟨"display_name", "Ada Byron"⟩]

/-- Two persons who share no more than a name are merged over an empty slug. -/
theorem not_mergeSound_of_emptySlug :
    ¬ ∀ (env : MatchEnv) (observationsA observationsB : List ObservationDict),
      MergeSound env observationsA observationsB := by
  intro hclaim
  have hmatch : matchConfidence sampleMatchEnv sluglessObservations namesakeObservations =
      some ((85 / 100 : ℚ), [("name_fuzzy" : Str), "linkedin_name_match"]) := by decide +kernel
  have hjustified := hclaim _ _ _ _ _ hmatch (by decide +kernel)
  have hslugless : extractSignals sluglessObservations =
      ⟨none, none, none, none, some "Ada Byron", none, none, some "https://linkedin.com/in/",
        none⟩ := by rfl
  have hnamesake : extractSignals namesakeObservations =
      ⟨none, none, none, none, some "Ada Byron", none, none, none, none⟩ := by rfl
  rw [hslugless, hnamesake] at hjustified
  cases hjustified with
  | email h => obtain ⟨x, y, hx, -⟩ := h; cases hx
  | twitter h => obtain ⟨x, y, hx, -⟩ := h; cases hx
  | blogWebsite h => obtain ⟨u, v, k, l, hu, -⟩ := h; cases hu
  | websiteBlog h => obtain ⟨u, v, k, l, hu, -⟩ := h; cases hu
  | location hname h => obtain ⟨x, y, hx, -⟩ := h; cases hx
  | company hname h => obtain ⟨x, y, hx, -⟩ := h; cases hx
  | slugName hname h =>
    obtain ⟨x, n, hx, -, hslug, -⟩ := h
    obtain rfl := Option.some.inj hx
    exact hslug (by decide +kernel)
  | nameSlug hname h => obtain ⟨x, n, hx, -⟩ := h; cases hx

end VCBrain
