import VCBrain.Identity.Presentation

set_option relaxedAutoImplicit false
set_option autoImplicit false

/-!
# What a URL match means

Two URLs match if their hosts without `www.`, followed by their paths without trailing slashes, are
the same text. This file compares that with equality of the URLs.

## Main definitions

* `WebUrl` — the parts that tell URLs apart; `webUrl` — the URL that a text denotes.
* `SameUrl` — two texts denote the same URL.
* `SamePlace` — two URLs have the same host and path.

## Main results

* `urlMatch_eq_true_iff` — a match is a match of host and path.
* `urlMatch_iff_sameUrl_iff` — when a match means the same URL.

## Design

A text that begins neither with `http://` nor with `https://` is one without a scheme, as in the
source. A URL is read in lower case, so letter case is not a part; neither are the scheme and the
fragment.
-/

namespace VCBrain

/-- The parts that tell the URLs of the web apart. -/
structure WebUrl where
  userinfo : Str
  host : Str
  port : Str
  path : Str
  params : Str
  query : Str
deriving DecidableEq

/-- The URL without a leading `www.` and without trailing slashes of the path. -/
def WebUrl.trim (url : WebUrl) : WebUrl :=
  { url with
    host := if "www.".toList <+: url.host then url.host.drop 4 else url.host
    path := url.path.rdropWhile (· = '/') }

section Match

variable (env : MatchEnv)

/-- The text as it is parsed: stripped, in lower case and with a scheme. -/
def webText (url : Str) : Str :=
  let url := env.ucd.lower url.strip
  if HasWebScheme url then url else "https://".toList ++ url

/-- The URL that a text denotes. -/
def webUrl (url : Str) : Option WebUrl :=
  (urlparse env.ucd env.bracketed (webText env url)).map fun parsed =>
    { userinfo := parsed.userinfo
      host := parsed.hostname env.ucd
      port := parsed.port
      path := parsed.path
      params := urlParams (webText env url)
      query := urlQuery (webText env url) }

/-- Both texts denote URLs with a host, and the URLs are equal up to a leading `www.` and trailing
slashes. -/
def SameUrl (u v : Str) : Prop :=
  ∃ k l, webUrl env u = some k ∧ webUrl env v = some l ∧ k.host ≠ [] ∧ l.host ≠ [] ∧
    k.trim = l.trim

/-- The hosts and the paths of two URLs are equal up to a leading `www.` and trailing slashes. -/
def SamePlace (k l : WebUrl) : Prop := k.trim.host = l.trim.host ∧ k.trim.path = l.trim.path

variable {env} {u v : Str} {k l : WebUrl}

/-- The normal form is the host without `www.` followed by the path without trailing slashes. -/
lemma normalizeUrl_eq (u : Str) :
    normalizeUrl env u = (webUrl env u).map fun k => k.trim.host ++ k.trim.path := by
  unfold webUrl
  rw [Option.map_map]
  rfl

/-- The text as it is parsed has a scheme. -/
lemma hasWebScheme_webText (u : Str) : HasWebScheme (webText env u) := by
  unfold webText
  dsimp only
  split_ifs with hscheme
  · exact hscheme
  · exact Or.inr (List.prefix_append _ _)

/-- The host of a URL has no slash, and its path is empty or begins with one. -/
lemma trim_of_webUrl (h : webUrl env u = some k) :
    '/' ∉ k.trim.host ∧ (k.trim.path = [] ∨ k.trim.path.head? = some '/') := by
  obtain ⟨parsed, hparsed, hk⟩ := Option.map_eq_some_iff.mp h
  have hkhost : k.host = parsed.hostname env.ucd := hk ▸ rfl
  have hkpath : k.path = parsed.path := hk ▸ rfl
  have hhost : '/' ∉ k.host := hkhost ▸ ParsedUrl.slash_notMem_hostname
    (slash_notMem_netloc hparsed (hasWebScheme_webText u))
  refine ⟨?_, ?_⟩
  · unfold WebUrl.trim
    dsimp only
    split_ifs
    · exact fun hmem => hhost (List.mem_of_mem_drop hmem)
    · exact hhost
  · obtain ⟨rest, hrest⟩ : k.path.rdropWhile (· = '/') <+: k.path := List.rdropWhile_prefix _ _
    change k.path.rdropWhile (· = '/') = [] ∨ (k.path.rdropWhile (· = '/')).head? = some '/'
    cases hpath : k.path.rdropWhile (· = '/') with
    | nil => exact Or.inl rfl
    | cons c path =>
      rw [hpath] at hrest
      rcases urlparse_path hparsed (hasWebScheme_webText u) with hnil | hhead
      · rw [hkpath, hnil] at hrest
        cases hrest
      · rw [← hkpath, ← hrest] at hhead
        exact Or.inr hhead

/-- A text is cut before its first slash in one way only. -/
private lemma append_eq_append_iff_of_slash {host host' path path' : Str} (hhost : '/' ∉ host)
    (hhost' : '/' ∉ host') (hpath : path = [] ∨ path.head? = some '/')
    (hpath' : path' = [] ∨ path'.head? = some '/') :
    host ++ path = host' ++ path' ↔ host = host' ∧ path = path' := by
  have hcut : ∀ {host path : Str}, '/' ∉ host → (path = [] ∨ path.head? = some '/') →
      (host ++ path).takeWhile (· ≠ '/') = host := by
    intro host path hhost hpath
    have hall : ∀ c ∈ host, decide (c ≠ '/') = true := fun c hc =>
      decide_eq_true fun heq => hhost (heq ▸ hc)
    rw [List.takeWhile_append_of_pos hall]
    rcases hpath with rfl | hpath
    · simp
    · obtain ⟨path, rfl⟩ := List.head?_eq_some_iff.mp hpath
      simp
  constructor
  · intro h
    have hsame : host = host' := by rw [← hcut hhost hpath, h, hcut hhost' hpath']
    subst hsame
    exact ⟨rfl, List.append_cancel_left h⟩
  · rintro ⟨rfl, rfl⟩
    rfl

/-- **Meaning of a match.** Two texts match exactly if they are not empty and denote URLs with the
same host and path.

**Proof sketch.** The host has no slash and the path is empty or begins with one, so the normal
form is cut into the two in one way. -/
lemma urlMatch_eq_true_iff : urlMatch env (some u) (some v) = some true ↔
    u ≠ [] ∧ v ≠ [] ∧ ∃ k l, webUrl env u = some k ∧ webUrl env v = some l ∧ SamePlace k l := by
  unfold urlMatch
  dsimp only
  split_ifs with hempty
  · exact iff_of_false (by simp) fun h => hempty.elim h.1 h.2.1
  rw [not_or] at hempty
  rw [normalizeUrl_eq, normalizeUrl_eq]
  cases hk : webUrl env u with
  | none => simp
  | some k =>
    cases hl : webUrl env v with
    | none => simp
    | some l =>
      have hplace := append_eq_append_iff_of_slash (trim_of_webUrl hk).1 (trim_of_webUrl hl).1
        (trim_of_webUrl hk).2 (trim_of_webUrl hl).2
      simp [hempty, hplace, SamePlace]

/-- The empty text denotes a URL without a host. -/
lemma host_of_webUrl_nil (h : webUrl env [] = some k) : k.host = [] := by
  obtain rfl := Option.some.inj h
  rfl

/-- Two URLs of the same host and path are the same if the other parts agree. -/
lemma trim_eq_trim_iff : k.trim = l.trim ↔ SamePlace k l ∧
    k.userinfo = l.userinfo ∧ k.port = l.port ∧ k.params = l.params ∧ k.query = l.query := by
  unfold SamePlace WebUrl.trim
  rw [WebUrl.mk.injEq]
  constructor
  · rintro ⟨huser, hhost, hport, hpath, hparams, hquery⟩
    exact ⟨⟨hhost, hpath⟩, huser, hport, hparams, hquery⟩
  · rintro ⟨⟨hhost, hpath⟩, huser, hport, hparams, hquery⟩
    exact ⟨huser, hhost, hport, hpath, hparams, hquery⟩

/-- **Matches of URLs.** A match means that two texts denote the same URL exactly if, where they
denote URLs with the same host and path, these have a host and agree in user information, port,
parameters and query.

**Proof sketch.** The same URL is a match of host and path in which the other parts agree
(`urlMatch_eq_true_iff`), so only the matches that are no more than that break the law. An empty
text matches nothing and has no host. -/
theorem urlMatch_iff_sameUrl_iff :
    (urlMatch env (some u) (some v) = some true ↔ SameUrl env u v) ↔
      (u ≠ [] → v ≠ [] → ∀ k l, webUrl env u = some k → webUrl env v = some l → SamePlace k l →
        k.host ≠ [] ∧ l.host ≠ [] ∧ k.userinfo = l.userinfo ∧ k.port = l.port ∧
          k.params = l.params ∧ k.query = l.query) := by
  constructor
  · intro hlaw hu hv k l hk hl hplace
    obtain ⟨k', l', hk', hl', hhost, hhost', htrim⟩ :=
      hlaw.mp (urlMatch_eq_true_iff.mpr ⟨hu, hv, k, l, hk, hl, hplace⟩)
    obtain rfl := Option.some.inj (hk.symm.trans hk')
    obtain rfl := Option.some.inj (hl.symm.trans hl')
    exact ⟨hhost, hhost', (trim_eq_trim_iff.mp htrim).2⟩
  · intro hparts
    rw [urlMatch_eq_true_iff]
    constructor
    · rintro ⟨hu, hv, k, l, hk, hl, hplace⟩
      obtain ⟨hhost, hhost', hrest⟩ := hparts hu hv k l hk hl hplace
      exact ⟨k, l, hk, hl, hhost, hhost', trim_eq_trim_iff.mpr ⟨hplace, hrest⟩⟩
    · rintro ⟨k, l, hk, hl, hhost, hhost', htrim⟩
      refine ⟨?_, ?_, k, l, hk, hl, (trim_eq_trim_iff.mp htrim).1⟩
      · rintro rfl
        exact hhost (host_of_webUrl_nil hk)
      · rintro rfl
        exact hhost' (host_of_webUrl_nil hl)

end Match

/-- Two profiles that only their query tells apart match. -/
theorem not_urlMatch_iff_sameUrl : ¬ ∀ (env : MatchEnv) (u v : Str),
    (urlMatch env (some u) (some v) = some true ↔ SameUrl env u v) := by
  intro hclaim
  obtain ⟨k, l, hk, hl, -, -, htrim⟩ := (hclaim sampleMatchEnv "https://forum.dev/user?id=ada"
    "https://forum.dev/user?id=byron").mp (by decide +kernel)
  have hquery := (trim_eq_trim_iff.mp htrim).2.2.2.2
  have hada : (webUrl sampleMatchEnv "https://forum.dev/user?id=ada").map WebUrl.query =
      some ("id=ada" : Str) := by decide +kernel
  have hbyron : (webUrl sampleMatchEnv "https://forum.dev/user?id=byron").map WebUrl.query =
      some ("id=byron" : Str) := by decide +kernel
  rw [hk] at hada
  rw [hl] at hbyron
  exact absurd (Option.some.inj (hada.symm.trans ((congrArg some hquery).trans hbyron)))
    (by decide)

end VCBrain
