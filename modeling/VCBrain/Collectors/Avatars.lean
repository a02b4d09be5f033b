import VCBrain.Foundation.Dict
import VCBrain.Foundation.Fallible
import VCBrain.Foundation.UrlJoin

set_option relaxedAutoImplicit false
set_option autoImplicit false

/-!
# Avatars

The job that looks for the image of a person: first on a LinkedIn profile page among the collected
sources, then at GitHub. The requests of a run are logged, with those that the HTTP client makes by
itself because it follows redirects.

## Main definitions

* `selectLinkedinProfileUrls` — the profile pages among the collected sources.
* `clientGet`, `downloadImage`, `linkedinAvatar`, `githubAvatar`, `fetchAvatar` — the job.
* `HostAllowed`, `LooksAlike` — a host is one of the three or below it; a host only ends alike.

## Main results

* `fetchAvatar_iff` — when all requests for pages and images are of allowed hosts.

## Design

An answer may depend on all requests before it. The HTML tokenizer, the hash and the JSON of GitHub
are parameters; the job raises where the client or the parsers raise.
-/

namespace VCBrain

/-! ## Hosts -/

/-- The hosts of profile pages and images. -/
def avatarHosts : List Str := ["linkedin.com", "licdn.com", "githubusercontent.com"]

/-- A host is the domain or below it. -/
def Within (domain host : Str) : Prop := host = domain ∨ '.' :: domain <:+ host

/-- A host is one of the three or below it. -/
def HostAllowed (host : Str) : Prop := ∃ domain ∈ avatarHosts, Within domain host

/-- A host ends in the letters of the domain but is not below it. -/
def LooksAlike (domain host : Str) : Prop := domain <:+ host ∧ ¬ Within domain host

instance (domain host : Str) : Decidable (Within domain host) := inferInstanceAs (Decidable (_ ∨ _))

instance (host : Str) : Decidable (HostAllowed host) :=
  inferInstanceAs (Decidable (∃ domain ∈ avatarHosts, Within domain host))

instance (domain host : Str) : Decidable (LooksAlike domain host) :=
  inferInstanceAs (Decidable (_ ∧ _))

/-! ## The job -/

/-- What a request is for. -/
inductive AvatarPurpose where
  | profile
  | image
  | api
deriving DecidableEq

/-- A request: the URL it is of, and whether the client was redirected to it. -/
structure AvatarRequest where
  purpose : AvatarPurpose
  redirected : Bool
  url : Str
deriving DecidableEq

/-- A response, with the text of `avatar_url` in its JSON; `none` if that is no JSON object. -/
structure AvatarResponse where
  statusCode : ℕ
  contentType : Str
  content : List UInt8
  text : Str
  avatarUrl : Option Str

/-- The answer to a request: the connection fails, the client is redirected, or a response. -/
inductive AvatarAnswer where
  | failure
  | redirect (target : Str)
  | response (response : AvatarResponse)

/-- What the job reads of a `Person`. -/
structure AvatarPerson where
  displayName : Option Str
  handles : Option (Dict Str)

/-- The libraries and the servers. -/
structure AvatarEnv where
  ucd : Ucd
  bracketed : Str → Bool
  /-- The start tags of a page, each with its attributes. -/
  startTags : Str → List (Str × List (Str × Option Str))
  sha256 : List UInt8 → Str
  /-- The answer to the last of the requests. -/
  answer : List AvatarRequest → AvatarAnswer

/-- `AvatarPayload`. -/
structure AvatarPayload where
  data : List UInt8
  mimeType : Str
  sha256 : Str
  sourceType : Str
  sourceUrl : Str
  imageUrl : Str

/-- A computation of the job, which logs its requests. -/
abbrev AvatarRun (α : Type) := Fallible Unit (List AvatarRequest) α

/-- `_MAX_IMAGE_BYTES`. -/
def maxImageBytes : ℕ := 1000000

/-- `_IMAGE_TYPES`. -/
def imageTypes : List Str := ["image/jpeg", "image/png", "image/webp"]

/-- The redirects that the HTTP client follows. -/
def clientRedirects : ℕ := 20

namespace AvatarEnv

variable (env : AvatarEnv)

/-- `(urlparse(url).hostname or "").lower()`; `none` stands for `ValueError`. -/
def hostOf (url : Str) : Option Str :=
  (urlparse env.ucd env.bracketed url).map fun parsed => env.ucd.lower (parsed.hostname env.ucd)

/-- `_normalize`. -/
def normalize (value : Str) : Str :=
  let asciiValue := (env.ucd.nfkd value).filter (·.toNat < 128)
  let words := (env.ucd.lower asciiValue).splitOnP fun c => !(c.isLower || c.isDigit)
  List.intercalate [' '] (words.filter (· ≠ []))

/-- The profile page of a source, if it is one. -/
def profileUrl (url : Str) : Option (Option Str) :=
  (urlparse env.ucd env.bracketed url).map fun parsed =>
    let host := env.ucd.lower (parsed.hostname env.ucd)
    if ¬ "linkedin.com".toList <:+ host ∨ ¬ "/in/".toList <:+: parsed.path then none
    else
      let scheme := if parsed.scheme = [] then "https".toList else parsed.scheme
      some ((scheme ++ "://".toList ++ parsed.netloc ++ parsed.path).rdropWhile (· = '/'))

/-- The profile pages of the sources, each once. -/
def uniqueProfileUrls : List Str → List Str → Option (List Str)
  | unique, [] => some unique
  | unique, url :: urls =>
    match env.profileUrl url with
    | none => none
    | some none => uniqueProfileUrls unique urls
    | some (some profile) =>
      uniqueProfileUrls (if profile ∈ unique then unique else unique ++ [profile]) urls

/-- `select_linkedin_profile_urls`. -/
def selectLinkedinProfileUrls (person : AvatarPerson) (urls : List Str) : Option (List Str) :=
  match env.uniqueProfileUrls [] urls with
  | none => none
  | some unique =>
    if unique.length ≤ 1 then some unique
    else
      let compact : Str → Str := fun s => (env.normalize s).filter (· ≠ ' ')
      let handles := ((person.handles.getD .empty).values.filter (· ≠ [])).map compact
      let ending : Str → Option Str := fun url =>
        (urlparse env.ucd env.bracketed url).map fun parsed => compact (parsed.path.afterLast '/')
      if unique.any fun url => (ending url).isNone then none
      else
        let matching := unique.filter fun url => ∃ last ∈ ending url, last ∈ handles
        if matching.length = 1 then some matching else some []

/-- `_MetaParser.handle_starttag`. -/
def handleStarttag (values : Dict Str) (tag : Str × List (Str × Option Str)) : Dict Str :=
  if env.ucd.lower tag.1 ≠ "meta".toList then values
  else
    let attrs := Dict.ofPairs (tag.2.map fun attr => (env.ucd.lower attr.1, attr.2.getD []))
    let property := (attrs.get? "property").getD []
    let key := if property = [] then (attrs.get? "name").getD [] else property
    let content := Str.strip ((attrs.get? "content").getD [])
    if key ≠ [] ∧ content ≠ [] then values.setDefault (env.ucd.lower key) content else values

/-- `parse_linkedin_meta`. -/
def parseLinkedinMeta (html : Str) : Option Str × Option Str :=
  let values := (env.startTags html).foldl env.handleStarttag .empty
  (values.get? "og:title", values.get? "og:image")

/-- `client.get`, with the redirects that are left. -/
def clientGet (purpose : AvatarPurpose) : ℕ → Bool → Str → AvatarRun AvatarResponse
  | 0, _, _ => .raise ()
  | left + 1, redirected, url => do
    Fallible.modify fun log => log ++ [⟨purpose, redirected, url⟩]
    let log ← Fallible.get
    match env.answer log with
    | .failure => .raise ()
    | .redirect target => clientGet purpose left true target
    | .response response => pure response

/-- `_download_image`. -/
def downloadImage (imageUrl : Str) : AvatarRun (Option (List UInt8 × Str)) :=
  match env.hostOf imageUrl with
  | none => .raise ()
  | some host =>
    if ¬ ("licdn.com".toList <:+ host ∨ "githubusercontent.com".toList <:+ host) then pure none
    else do
      let response ← env.clientGet .image (clientRedirects + 1) false imageUrl
      let mimeType := env.ucd.lower (response.contentType.partition ';').1
      if response.statusCode ≠ 200 then pure none
      else if mimeType ∉ imageTypes ∨ response.content = [] then pure none
      else if maxImageBytes < response.content.length then pure none
      else pure (some (response.content, mimeType))

/-- The payload of an image. -/
def payload (sourceType sourceUrl imageUrl : Str) (image : List UInt8 × Str) : AvatarPayload where
  data := image.1
  mimeType := image.2
  sha256 := env.sha256 image.1
  sourceType := sourceType
  sourceUrl := sourceUrl
  imageUrl := imageUrl

/-- The image that a profile page links to, if the page is the person's. -/
def linkedImage (person : AvatarPerson) (response : AvatarResponse) : Option Str :=
  if response.statusCode ≠ 200 then none
  else match env.parseLinkedinMeta response.text with
    | (some title, some imageUrl) =>
      let name := env.normalize (person.displayName.getD [])
      if title = [] ∨ imageUrl = [] ∨ name = [] ∨ ¬ name <:+: env.normalize title then none
      else some imageUrl
    | _ => none

/-- `_linkedin_avatar`. -/
def linkedinAvatar (person : AvatarPerson) : List Str → AvatarRun (Option AvatarPayload)
  | [] => pure none
  | profileUrl :: profileUrls => do
    let response ← env.clientGet .profile (clientRedirects + 1) false profileUrl
    match env.linkedImage person response with
    | none => linkedinAvatar person profileUrls
    | some imageUrl => do
      match ← env.downloadImage imageUrl with
      | none => linkedinAvatar person profileUrls
      | some image => pure (some (env.payload "linkedin" profileUrl imageUrl image))

/-- `_github_avatar`. -/
def githubAvatar (person : AvatarPerson) : AvatarRun (Option AvatarPayload) :=
  let handle := ((person.handles.bind fun handles => handles.get? "github")).getD []
  if handle = [] then pure none
  else do
    let response ← env.clientGet .api (clientRedirects + 1) false
      ("https://api.github.com/users/".toList ++ handle)
    if response.statusCode ≠ 200 then pure none
    else match response.avatarUrl with
      | none => .raise ()
      | some avatarUrl =>
        if avatarUrl.strip = [] then pure none
        else do
          let imageUrl := avatarUrl.strip ++
            (if '?' ∈ avatarUrl.strip then ['&'] else ['?']) ++ "s=200".toList
          match ← env.downloadImage imageUrl with
          | none => pure none
          | some image =>
            let profileUrl := "https://github.com/".toList ++ handle
            pure (some (env.payload "github" profileUrl imageUrl image))

/-- `fetch_and_store_avatar`, up to the row that is written. -/
def fetchAvatar (person : AvatarPerson) (urls : List Str) : AvatarRun (Option AvatarPayload) :=
  match env.selectLinkedinProfileUrls person urls with
  | none => .raise ()
  | some profileUrls => do
    match ← env.linkedinAvatar person profileUrls with
    | some avatar => pure (some avatar)
    | none => env.githubAvatar person

end AvatarEnv

/-! ## The requests of a run -/

/-- A request for a page or an image is of an allowed host. -/
def AvatarRequest.Allowed (env : AvatarEnv) (r : AvatarRequest) : Prop :=
  r.purpose ≠ .api → ∃ host ∈ env.hostOf r.url, HostAllowed host

/-- What leads to a request is plain: the source of a profile page and the link of an image do not
only look as if they were below the domain, and the client is redirected to allowed hosts only. -/
def AvatarRequest.Plain (env : AvatarEnv) (urls : List Str) (r : AvatarRequest) : Prop :=
  match r.purpose, r.redirected with
  | .api, _ => True
  | _, true => ∃ host ∈ env.hostOf r.url, HostAllowed host
  | .profile, false => ∀ url ∈ urls, env.profileUrl url = some (some r.url) →
      ∀ host ∈ env.hostOf url, ¬ LooksAlike "linkedin.com" host
  | .image, false => ∀ host ∈ env.hostOf r.url,
      ¬ LooksAlike "licdn.com" host ∧ ¬ LooksAlike "githubusercontent.com" host

/-- Where a request comes from that the job itself makes. -/
def AvatarRequest.Traced (env : AvatarEnv) (urls : List Str) (r : AvatarRequest) : Prop :=
  match r.purpose, r.redirected with
  | .api, _ | _, true => True
  | .profile, false => ∃ url ∈ urls, env.profileUrl url = some (some r.url)
  | .image, false => ∃ host ∈ env.hostOf r.url,
      "licdn.com".toList <:+ host ∨ "githubusercontent.com".toList <:+ host

section Requests

variable {env : AvatarEnv} {urls : List Str} {url profile host domain : Str}

/-- A host that ends in a domain is allowed only through this domain. -/
lemma hostAllowed_iff (hdomain : domain ∈ avatarHosts) (h : domain <:+ host) :
    HostAllowed host ↔ ¬ LooksAlike domain host := by
  have happart : ∀ d ∈ avatarHosts, ∀ e ∈ avatarHosts, d ≠ e →
      ¬ d <:+ e ∧ ¬ '.' :: e <:+ d ∧ ¬ d <:+ '.' :: e := by decide
  unfold LooksAlike
  rw [not_and, not_not]
  constructor
  · rintro ⟨other, hother, hwithin⟩ -
    by_cases hsame : domain = other
    · exact hsame ▸ hwithin
    · obtain ⟨hnot, hdot, hnotdot⟩ := happart domain hdomain other hother hsame
      rcases hwithin with rfl | hbelow
      · exact absurd h hnot
      · rcases List.suffix_or_suffix_of_suffix h hbelow with hsuffix | hsuffix
        · exact absurd hsuffix hnotdot
        · exact absurd hsuffix hdot
  · exact fun hwithin => ⟨domain, hdomain, hwithin h⟩

/-- A profile page has the host of its source. -/
lemma exists_of_profileUrl (h : env.profileUrl url = some (some profile)) :
    ∃ host, env.hostOf url = some host ∧ env.hostOf profile = some host ∧
      "linkedin.com".toList <:+ host := by
  obtain ⟨parsed, hparsed, hpage⟩ := Option.map_eq_some_iff.mp h
  dsimp only at hpage
  obtain ⟨hkept, hpage⟩ := Option.ite_none_left_eq_some.mp hpage
  rw [not_or, not_not, not_not] at hkept
  obtain ⟨hsuffix, hin⟩ := hkept
  rw [← parseUrl_toParsedUrl] at hparsed
  obtain ⟨parts, hparts, rfl⟩ := Option.map_eq_some_iff.mp hparsed
  have hne : parts.netloc ≠ [] := by
    intro hempty
    have hhostname : parts.hostname env.ucd = [] := by
      unfold ParsedUrl.hostname
      rw [hempty]
      rfl
    have hlower : env.ucd.lower [] = [] := rfl
    rw [hhostname, hlower] at hsuffix
    exact absurd hsuffix.length_le (by decide)
  obtain ⟨tail, -, hmarks, -, hclean⟩ := exists_of_parseUrl hne hparts
  obtain ⟨hpath, hhead⟩ := path_of_parseUrl hne hparts
  have hscheme : IsScheme (if parts.scheme = [] then "https".toList else parts.scheme) := by
    split_ifs with hempty
    · exact isScheme_of_mem (by decide)
    · exact (scheme_of_parseUrl hparts).resolve_left hempty
  have hstrip : profile = (if parts.scheme = [] then "https".toList else parts.scheme) ++ ':' ::
      '/' :: '/' :: (parts.netloc ++ parts.path.rdropWhile (· = '/')) := by
    have hrest : ∃ c ∈ parts.path, ¬ decide (c = '/') = true :=
      ⟨'i', hin.subset (by decide), by decide⟩
    have hassoc : ∀ scheme netloc path : Str, scheme ++ "://".toList ++ netloc ++ path =
        (scheme ++ ':' :: '/' :: '/' :: netloc) ++ path := by
      intro scheme netloc path
      rw [List.append_assoc scheme]
      rfl
    rw [← Option.some.inj hpage, hassoc, Str.rdropWhile_append hrest, List.append_assoc,
      List.cons_append, List.cons_append, List.cons_append]
  have hbegins : parts.path.rdropWhile (· = '/') <+: parts.path := List.rdropWhile_prefix _ _
  have hchars : ∀ c ∈ parts.netloc ++ parts.path.rdropWhile (· = '/'), c ∉ ['\t', '\r', '\n'] := by
    intro c hc
    rcases List.mem_append.mp hc with hc | hc
    · exact hclean c (List.mem_append_left _ hc)
    · exact hpath c (hbegins.subset hc)
  have hslash : ∀ c ∈ (parts.path.rdropWhile (· = '/')).head?, c ∈ ['/', '?', '#'] := by
    intro c hc
    obtain ⟨rest, hrest⟩ := hbegins
    have hfirst : c = '/' := by
      refine hhead c ?_
      rw [← hrest, List.head?_append, hc]
      rfl
    rw [hfirst]
    decide
  obtain ⟨parsed, hagain, hnetloc⟩ :=
    urlparse_append hscheme hmarks (ofRest_of_parseUrl hparts).2 hchars hslash
  refine ⟨_, by rw [AvatarEnv.hostOf, ← parseUrl_toParsedUrl, hparts]; rfl, ?_, hsuffix⟩
  rw [AvatarEnv.hostOf, hstrip, hagain, Option.map_some, ParsedUrl.hostname, hnetloc]
  rfl

/-- Of a request that can be traced, the host is allowed exactly if it is plain. -/
lemma AvatarRequest.Traced.allowed_iff {r : AvatarRequest} (h : r.Traced env urls) :
    r.Allowed env ↔ r.Plain env urls := by
  obtain ⟨purpose, redirected, url⟩ := r
  unfold Allowed Plain
  cases purpose with
  | api => exact iff_of_true (fun h => absurd rfl h) trivial
  | profile =>
    cases redirected with
    | true => exact ⟨fun h => h nofun, fun h _ => h⟩
    | false =>
      obtain ⟨source, hsource, hprofile⟩ := h
      obtain ⟨host, hof, hhost, hsuffix⟩ := exists_of_profileUrl hprofile
      have hallowed := hostAllowed_iff (by decide) hsuffix
      simp only [hhost, Option.mem_some_iff, exists_eq_left', hallowed]
      constructor
      · intro hplain other hother hsame host' hhost'
        obtain ⟨host'', hof', hhost'', -⟩ := exists_of_profileUrl hsame
        obtain rfl : host' = host := by
          rw [hof', Option.mem_some_iff] at hhost'
          rw [hhost, Option.some_inj] at hhost''
          rw [← hhost', hhost'']
        exact hplain nofun
      · intro hplain _
        exact hplain source hsource hprofile host hof
  | image =>
    cases redirected with
    | true => exact ⟨fun h => h nofun, fun h _ => h⟩
    | false =>
      obtain ⟨host, hhost, hsuffix⟩ := h
      have hlicdn := @hostAllowed_iff host "licdn.com" (by decide)
      have hgithub := @hostAllowed_iff host "githubusercontent.com" (by decide)
      rw [Option.mem_def] at hhost
      simp only [hhost, Option.mem_some_iff, exists_eq_left', forall_eq']
      constructor
      · intro hallowed
        exact ⟨fun hlooks => (hlicdn hlooks.1).mp (hallowed nofun) hlooks,
          fun hlooks => (hgithub hlooks.1).mp (hallowed nofun) hlooks⟩
      · rintro ⟨hplain, hplain'⟩ -
        rcases hsuffix with hsuffix | hsuffix
        · exact (hlicdn hsuffix).mpr hplain
        · exact (hgithub hsuffix).mpr hplain'

/-- A computation whose requests can be traced if those before it can. -/
def Traces (env : AvatarEnv) (urls : List Str) {α : Type} (x : AvatarRun α) : Prop :=
  ∀ log, (∀ r ∈ log, r.Traced env urls) →
    x.Leads (fun _ log => ∀ r ∈ log, r.Traced env urls)
      (fun _ log => ∀ r ∈ log, r.Traced env urls) log

variable {α β : Type} {person : AvatarPerson}

lemma traces_pure {a : α} : Traces env urls (pure a : AvatarRun α) := fun _ h => h

lemma traces_raise : Traces env urls (.raise () : AvatarRun α) := fun _ h => h

lemma traces_bind {x : AvatarRun α} {f : α → AvatarRun β} (hx : Traces env urls x)
    (hf : ∀ a, Traces env urls (f a)) : Traces env urls (x >>= f) := by
  intro log h
  rw [Fallible.leads_bind]
  exact (hx log h).mono (fun a s hs => hf a s hs) fun _ _ hs => hs

lemma traces_ite {c : Prop} [Decidable c] {x y : AvatarRun α} (hx : Traces env urls x)
    (hy : Traces env urls y) : Traces env urls (if c then x else y) := by
  split_ifs
  · exact hx
  · exact hy

/-- The requests of the client can be traced if the first one can. -/
lemma traces_clientGet {purpose : AvatarPurpose} {left : ℕ} {redirected : Bool}
    (h : AvatarRequest.Traced env urls ⟨purpose, redirected, url⟩) :
    Traces env urls (env.clientGet purpose left redirected url) := by
  induction left generalizing redirected url with
  | zero => exact traces_raise
  | succ left ih =>
    intro log hlog
    have hnext : ∀ r ∈ log ++ [⟨purpose, redirected, url⟩], r.Traced env urls := by
      intro r hr
      rw [List.mem_append, List.mem_singleton] at hr
      rcases hr with hr | rfl
      · exact hlog r hr
      · exact h
    rw [AvatarEnv.clientGet, Fallible.leads_bind, Fallible.leads_modify, Fallible.leads_bind,
      Fallible.leads_get]
    cases env.answer (log ++ [⟨purpose, redirected, url⟩]) with
    | failure => exact hnext
    | response response => exact hnext
    | redirect target =>
      have htarget : AvatarRequest.Traced env urls ⟨purpose, true, target⟩ := by
        cases purpose <;> trivial
      exact ih htarget _ hnext

lemma traces_downloadImage : Traces env urls (env.downloadImage url) := by
  unfold AvatarEnv.downloadImage
  cases hhost : env.hostOf url with
  | none => exact traces_raise
  | some host =>
    dsimp only
    by_cases hkept : "licdn.com".toList <:+ host ∨ "githubusercontent.com".toList <:+ host
    · have htraced : AvatarRequest.Traced env urls ⟨.image, false, url⟩ := ⟨host, hhost, hkept⟩
      rw [if_neg (not_not.mpr hkept)]
      exact traces_bind (traces_clientGet htraced) fun response =>
        traces_ite traces_pure (traces_ite traces_pure (traces_ite traces_pure traces_pure))
    · rw [if_pos hkept]
      exact traces_pure

lemma traces_linkedinAvatar {profileUrls : List Str}
    (h : ∀ profile ∈ profileUrls, ∃ url ∈ urls, env.profileUrl url = some (some profile)) :
    Traces env urls (env.linkedinAvatar person profileUrls) := by
  induction profileUrls with
  | nil => exact traces_pure
  | cons profile profileUrls ih =>
    rw [List.forall_mem_cons] at h
    have hrest := ih h.2
    have htraced : AvatarRequest.Traced env urls ⟨.profile, false, profile⟩ := h.1
    unfold AvatarEnv.linkedinAvatar
    refine traces_bind (traces_clientGet htraced) fun response => ?_
    cases env.linkedImage person response with
    | none => exact hrest
    | some imageUrl =>
      refine traces_bind traces_downloadImage fun image => ?_
      cases image with
      | none => exact hrest
      | some image => exact traces_pure

lemma traces_githubAvatar : Traces env urls (env.githubAvatar person) := by
  refine traces_ite traces_pure (traces_bind (traces_clientGet trivial) fun response => ?_)
  refine traces_ite traces_pure ?_
  cases response.avatarUrl with
  | none => exact traces_raise
  | some avatarUrl =>
    refine traces_ite traces_pure (traces_bind traces_downloadImage fun image => ?_)
    cases image with
    | none => exact traces_pure
    | some image => exact traces_pure

/-- The selected profile pages are those of some sources. -/
lemma exists_of_uniqueProfileUrls {unique rest result : List Str}
    (h : env.uniqueProfileUrls unique rest = some result) :
    ∀ profile ∈ result, profile ∈ unique ∨
      ∃ url ∈ rest, env.profileUrl url = some (some profile) := by
  induction rest generalizing unique with
  | nil =>
    rw [AvatarEnv.uniqueProfileUrls, Option.some_inj] at h
    exact fun profile hprofile => Or.inl (h ▸ hprofile)
  | cons url rest ih =>
    unfold AvatarEnv.uniqueProfileUrls at h
    cases hurl : env.profileUrl url with
    | none =>
      rw [hurl] at h
      cases h
    | some page =>
      rw [hurl] at h
      intro profile hprofile
      have hrest : ∀ {unique}, env.uniqueProfileUrls unique rest = some result →
          profile ∈ unique ∨ ∃ u ∈ url :: rest, env.profileUrl u = some (some profile) := by
        intro unique h
        refine (ih h profile hprofile).imp_right ?_
        rintro ⟨u, hu, hpage⟩
        exact ⟨u, List.mem_cons_of_mem _ hu, hpage⟩
      cases page with
      | none => exact hrest h
      | some page =>
        rcases hrest h with hmem | hmem
        · split_ifs at hmem
          · exact Or.inl hmem
          · rcases List.mem_append.mp hmem with hmem | hmem
            · exact Or.inl hmem
            · obtain rfl := List.mem_singleton.mp hmem
              exact Or.inr ⟨url, List.mem_cons_self .., hurl⟩
        · exact Or.inr hmem

lemma exists_of_selectLinkedinProfileUrls {profileUrls : List Str}
    (h : env.selectLinkedinProfileUrls person urls = some profileUrls) :
    ∀ profile ∈ profileUrls, ∃ url ∈ urls, env.profileUrl url = some (some profile) := by
  unfold AvatarEnv.selectLinkedinProfileUrls at h
  cases hunique : env.uniqueProfileUrls [] urls with
  | none =>
    rw [hunique] at h
    cases h
  | some unique =>
    have hall : ∀ profile ∈ unique, ∃ url ∈ urls, env.profileUrl url = some (some profile) :=
      fun profile hprofile =>
        (exists_of_uniqueProfileUrls hunique profile hprofile).resolve_left List.not_mem_nil
    rw [hunique] at h
    dsimp only at h
    split_ifs at h
    · exact Option.some.inj h ▸ hall
    · rw [← Option.some.inj h]
      exact fun profile hprofile => hall profile (List.mem_filter.mp hprofile).1
    · rw [← Option.some.inj h]
      exact fun profile hprofile => absurd hprofile List.not_mem_nil

/-- **The hosts of a run.** The requests for pages and images are of allowed hosts exactly if each
of them is plain.

**Proof sketch.** Every request of the log is one that the client was redirected to, or comes from a
source or a link that has passed the check of the letters at its end. This is kept by each step of
the job, and for such a request the host is allowed exactly if it is plain. -/
theorem fetchAvatar_iff (env : AvatarEnv) (person : AvatarPerson) (urls : List Str) :
    (∀ r ∈ (env.fetchAvatar person urls).final [], r.Allowed env) ↔
      ∀ r ∈ (env.fetchAvatar person urls).final [], r.Plain env urls := by
  have htraces : Traces env urls (env.fetchAvatar person urls) := by
    unfold AvatarEnv.fetchAvatar
    cases hselect : env.selectLinkedinProfileUrls person urls with
    | none => exact traces_raise
    | some profileUrls =>
      refine traces_bind (traces_linkedinAvatar (exists_of_selectLinkedinProfileUrls hselect))
        fun avatar => ?_
      cases avatar with
      | none => exact traces_githubAvatar
      | some avatar => exact traces_pure
  have htraced := Fallible.leads_final.mp (htraces [] fun r hr => absurd hr List.not_mem_nil)
  exact forall₂_congr fun r hr => (htraced r hr).allowed_iff

end Requests

/-- A person with a profile page, and servers that do not answer. -/
def silentEnv : AvatarEnv where
  ucd := .ascii
  bracketed _ := false
  startTags _ := []
  sha256 _ := []
  answer _ := .failure

/-- A page is requested of a host that only ends alike. -/
theorem requests_lookalike : ¬ ∀ (env : AvatarEnv) (person : AvatarPerson) (urls : List Str),
    ∀ r ∈ (env.fetchAvatar person urls).final [], r.Allowed env := by
  intro h
  have hrun : (silentEnv.fetchAvatar ⟨some "Ada", none⟩ ["https://evillinkedin.com/in/ada"]).final
      [] = [⟨.profile, false, "https://evillinkedin.com/in/ada"⟩] := by decide +kernel
  obtain ⟨host, hhost, hallowed⟩ := h silentEnv ⟨some "Ada", none⟩
    ["https://evillinkedin.com/in/ada"] ⟨.profile, false, "https://evillinkedin.com/in/ada"⟩
    (hrun ▸ List.mem_singleton_self _) nofun
  have hevil : silentEnv.hostOf "https://evillinkedin.com/in/ada" =
      some "evillinkedin.com".toList := by decide +kernel
  rw [hevil, Option.mem_some_iff] at hhost
  rw [← hhost] at hallowed
  exact absurd hallowed (by decide)

end VCBrain
