import VCBrain.Foundation.UrlJoin

set_option relaxedAutoImplicit false
set_option autoImplicit false

/-!
# The guarded fetch of websites

`_fetch_bounded_http`, which follows redirects by itself: each URL is validated, its host resolved
and the answers checked before the request, and the body is bounded while it is read.

## Main definitions

* `validateHttpUrl`, `validateResolvedHost` — the two checks before a request.
* `Network` — the answers of name servers and web servers, one for each hop.
* `fetchBoundedHttp` — the loop over the hops, with the log of lookups and requests.

## Main results

* `validateHttpUrl_idem` — a validated URL passes the validation again.
* `exists_of_validateResolvedHost` — a host that passes resolves, and only to public addresses.
* `fetch_guarded` — every request is of a validated URL and right behind the check of its host.

## Design

The answers are those of an adversary: any status, header and body, any chunks and any addresses,
of which each hop reads its own. What `ipaddress` and `int` make of a text is a parameter.
-/

namespace VCBrain

/-- What the standard library makes of hosts and numerals. -/
structure NetRules where
  ucd : Ucd
  /-- The check of a network location with brackets. -/
  bracketed : Str → Bool
  /-- `str.isdigit` for one character. -/
  isDigit : Char → Bool
  /-- `int(text)`; `none` stands for `ValueError`. -/
  int : Str → Option ℕ
  /-- `ip_address(text).is_global`; `none` stands for `ValueError`. -/
  isGlobal : Str → Option Bool

/-- An error of the fetch. -/
inductive FetchError where
  | connector (message : Str)
  | value
  | transport
  | status (code : ℕ)
deriving DecidableEq

/-- A response whose body is streamed in chunks, after which the connection may break. -/
structure StreamedResponse where
  statusCode : ℕ
  location : Option Str
  contentLength : Option Str
  contentType : Option Str
  chunks : List (List UInt8)
  broken : Bool

/-- What the network answers at each hop; `none` is a failure. -/
structure Network where
  /-- `getaddrinfo(hostname, port)`: the texts of the addresses. -/
  getaddrinfo : ℕ → Str → ℕ → Option (List Str)
  respond : ℕ → Str → Option StreamedResponse

/-- What the fetch gives. -/
structure Fetched where
  url : Str
  body : List UInt8
  contentType : Str
  statusCode : ℕ

/-- A step of the fetch at a hop: the host of a URL has been checked, or the URL is requested. -/
inductive FetchEvent where
  | checked (hop : ℕ) (url : Str)
  | requested (hop : ℕ) (url : Str)
deriving DecidableEq

/-- `_MAX_REDIRECTS`. -/
def maxRedirects : ℕ := 5

/-- `_LOCAL_HOST_SUFFIXES`. -/
def localHostSuffixes : List Str := [".localhost", ".local", ".internal", ".lan", ".home.arpa"]

variable (rules : NetRules)

/-- `parsed.port`: no port for an empty text; `ValueError` unless it is a number up to 65535. -/
def portNumber (parsed : UrlParts) : Except FetchError (Option ℕ) :=
  if parsed.port = [] then .ok none
  else if parsed.port.all Char.isDigit then
    match rules.int parsed.port with
    | some port => if port ≤ 65535 then .ok (some port) else .error .value
    | none => .error .value
  else .error .value

/-- `_validate_http_url`. -/
def validateHttpUrl (rawUrl : Str) : Except FetchError Str :=
  match parseUrl rules.ucd rules.bracketed [] rawUrl with
  | none => .error .value
  | some parsed =>
    let hostname := parsed.hostname rules.ucd
    let (username, password) := parsed.userinfo.partition ':'
    if parsed.scheme ∉ [("http" : Str), "https"] ∨ hostname = [] then
      .error (.connector "website_url_rejected: only public http(s) URLs are allowed")
    else if username ≠ [] ∨ password ≠ [] then
      .error (.connector "website_url_rejected: credentials in URL are not allowed")
    else match portNumber rules parsed with
      | .error _ => .error (.connector "website_url_rejected: invalid port")
      | .ok port =>
        let hostname := rules.ucd.lower (hostname.rdropWhile (· = '.'))
        if hostname ∈ [("localhost" : Str), "localhost.localdomain"] ∨
            ∃ ending ∈ localHostSuffixes, ending <:+ hostname then
          .error (.connector "website_url_rejected: local hostname is not allowed")
        else if rules.isGlobal hostname = some false then
          .error (.connector "website_url_rejected: private or reserved address")
        else if ∃ number ∈ port, ¬ (1 ≤ number ∧ number ≤ 65535) then
          .error (.connector "website_url_rejected: invalid port")
        else .ok parsed.geturl

/-- `_validate_resolved_host`, with the answers of `getaddrinfo` to it. -/
def validateResolvedHost (getaddrinfo : Str → ℕ → Option (List Str)) (url : Str) :
    Except FetchError Unit :=
  match parseUrl rules.ucd rules.bracketed [] url with
  | none => .error .value
  | some parsed =>
    let hostname := parsed.hostname rules.ucd
    if hostname = [] then .error (.connector "website_url_rejected: missing hostname")
    else
      let answers := match portNumber rules parsed with
        | .error _ => none
        | .ok port =>
          let byScheme := if parsed.scheme = "https".toList then 443 else 80
          getaddrinfo hostname (if port.getD 0 = 0 then byScheme else port.getD 0)
      match answers with
      | none => .error (.connector "website_fetch_failed: hostname resolution failed")
      | some addresses =>
        if ∃ address ∈ addresses, rules.isGlobal address = none then .error .value
        else if addresses = [] ∨ ∃ address ∈ addresses, rules.isGlobal address ≠ some true then
          .error (.connector
            "website_url_rejected: hostname resolves to private or reserved address")
        else .ok ()

/-- The loop over the chunks of a body, with the chunks so far and their total length. -/
def readChunks (maxBytes : ℕ) (broken : Bool) :
    List (List UInt8) → ℕ → List (List UInt8) → Except FetchError (List UInt8)
  | chunks, _, [] => if broken then .error .transport else .ok chunks.flatten
  | chunks, total, chunk :: rest =>
    if maxBytes < total + chunk.length then
      .error (.connector "website_fetch_failed: response exceeds byte limit")
    else readChunks maxBytes broken (chunks ++ [chunk]) (total + chunk.length) rest

/-- The length that the header of a response declares, if it is a number. -/
def declaredLength (response : StreamedResponse) : Except FetchError (Option ℕ) :=
  let length := response.contentLength.getD []
  if length ≠ [] ∧ length.all rules.isDigit then
    match rules.int length with
    | none => .error .value
    | some size => .ok (some size)
  else .ok none

/-- What is done with a response that is no redirect. -/
def readResponse (maxBytes : ℕ) (url : Str) (response : StreamedResponse) :
    Except FetchError Fetched :=
  if ¬ (200 ≤ response.statusCode ∧ response.statusCode < 300) then
    .error (.status response.statusCode)
  else match declaredLength rules response with
    | .error e => .error e
    | .ok declared =>
      if ∃ size ∈ declared, maxBytes < size then
        .error (.connector "website_fetch_failed: response exceeds byte limit")
      else match readChunks maxBytes response.broken [] 0 response.chunks with
        | .error e => .error e
        | .ok body =>
          .ok { url := url, body := body, contentType := response.contentType.getD "text/html"
                statusCode := response.statusCode }

/-- The URL that a redirect leads to. -/
def redirectTarget (url : Str) (response : StreamedResponse) : Except FetchError Str :=
  match response.location.getD [] with
  | [] => .error (.connector "website_fetch_failed: redirect has no location")
  | location =>
    match urljoin rules.ucd rules.bracketed url location with
    | none => .error .value
    | some target => validateHttpUrl rules target

/-- The hops that are left, from a hop and a URL on. -/
def fetchHops (network : Network) (maxBytes : ℕ) :
    ℕ → ℕ → Str → Except FetchError Fetched × List FetchEvent
  | 0, _, _ => (.error (.connector "website_fetch_failed: too many redirects"), [])
  | left + 1, hop, url =>
    match validateResolvedHost rules (network.getaddrinfo hop) url with
    | .error e => (.error e, [])
    | .ok () =>
      let log := [.checked hop url, .requested hop url]
      match network.respond hop url with
      | none => (.error .transport, log)
      | some response =>
        if 300 ≤ response.statusCode ∧ response.statusCode < 400 then
          match redirectTarget rules url response with
          | .error e => (.error e, log)
          | .ok target =>
            let (result, events) := fetchHops network maxBytes left (hop + 1) target
            (result, log ++ events)
        else (readResponse rules maxBytes url response, log)

/-- `_fetch_bounded_http`, with the log of its steps. -/
def fetchBoundedHttp (network : Network) (url : Str) (maxBytes : ℕ) :
    Except FetchError Fetched × List FetchEvent :=
  match validateHttpUrl rules url with
  | .error e => (.error e, [])
  | .ok current => fetchHops rules network maxBytes (maxRedirects + 1) 0 current

/-! ## The validation -/

section Validation

variable {rules} {parsed : UrlParts} {raw url : Str}

/-- The host that the address checks are about. -/
def checkedHost (rules : NetRules) (parsed : UrlParts) : Str :=
  rules.ucd.lower ((parsed.hostname rules.ucd).rdropWhile (· = '.'))

/-- What the validation asks of the parts of a URL. -/
structure AdmissibleUrl (rules : NetRules) (parsed : UrlParts) : Prop where
  scheme_mem : parsed.scheme ∈ [("http" : Str), "https"]
  hostname_ne : parsed.hostname rules.ucd ≠ []
  no_credentials : parsed.userinfo.partition ':' = ([], [])
  port_valid : ∃ port, portNumber rules parsed = .ok port ∧
    ∀ number ∈ port, 1 ≤ number ∧ number ≤ 65535
  not_local : checkedHost rules parsed ∉ [("localhost" : Str), "localhost.localdomain"] ∧
    ∀ ending ∈ localHostSuffixes, ¬ ending <:+ checkedHost rules parsed
  not_private : rules.isGlobal (checkedHost rules parsed) ≠ some false

/-- Which URLs pass the validation. -/
lemma validateHttpUrl_eq_ok_iff : validateHttpUrl rules raw = .ok url ↔
    ∃ parsed, parseUrl rules.ucd rules.bracketed [] raw = some parsed ∧ AdmissibleUrl rules parsed ∧
      parsed.geturl = url := by
  unfold validateHttpUrl
  cases hparse : parseUrl rules.ucd rules.bracketed [] raw with
  | none => simp
  | some parsed =>
    simp only [Option.some_inj, exists_eq_left']
    constructor
    · intro h
      cases hport : portNumber rules parsed with
      | error e =>
        rw [hport] at h
        split_ifs at h
      | ok port =>
        rw [hport] at h
        dsimp only at h
        split_ifs at h with hweb hcredentials hlocal hprivate hnumber
        rw [not_or, not_not] at hweb
        rw [not_or, not_not, not_not] at hcredentials
        rw [not_or, not_exists] at hlocal
        refine ⟨⟨hweb.1, hweb.2, Prod.ext hcredentials.1 hcredentials.2, ⟨port, hport, ?_⟩,
          ⟨hlocal.1, fun ending hending hsuffix => hlocal.2 ending ⟨hending, hsuffix⟩⟩, hprivate⟩,
          Except.ok.inj h⟩
        intro number hmem
        by_contra hnot
        exact hnumber ⟨number, hmem, hnot⟩
    · rintro ⟨h, rfl⟩
      obtain ⟨port, hport, hnumber⟩ := h.port_valid
      have hweb : ¬ (parsed.scheme ∉ [("http" : Str), "https"] ∨ parsed.hostname rules.ucd = []) :=
        not_or.mpr ⟨not_not.mpr h.scheme_mem, h.hostname_ne⟩
      have hcredentials : ¬ ((parsed.userinfo.partition ':').1 ≠ [] ∨
          (parsed.userinfo.partition ':').2 ≠ []) := by
        rw [h.no_credentials]
        simp
      have hlocal : ¬ (checkedHost rules parsed ∈ [("localhost" : Str), "localhost.localdomain"] ∨
          ∃ ending ∈ localHostSuffixes, ending <:+ checkedHost rules parsed) := by
        rintro (hmem | ⟨ending, hending, hsuffix⟩)
        · exact h.not_local.1 hmem
        · exact h.not_local.2 ending hending hsuffix
      have hrange : ¬ ∃ number ∈ port, ¬ (1 ≤ number ∧ number ≤ 65535) := by
        rintro ⟨number, hmem, hnot⟩
        exact hnot (hnumber number hmem)
      rw [if_neg hweb, if_neg hcredentials, hport]
      exact (if_neg hlocal).trans ((if_neg h.not_private).trans (if_neg hrange))

/-- AdmissibleUrl parts are those of a web URL with a host. -/
lemma AdmissibleUrl.web (h : AdmissibleUrl rules parsed) : parsed.Web := by
  refine ⟨h.scheme_mem, fun hempty => h.hostname_ne ?_⟩
  unfold ParsedUrl.hostname
  rw [hempty]
  rfl

/-- **A second validation.** What the validation gives passes it again, unchanged. -/
theorem validateHttpUrl_idem (h : validateHttpUrl rules raw = .ok url) :
    validateHttpUrl rules url = .ok url := by
  obtain ⟨parsed, hparse, hurl, rfl⟩ := validateHttpUrl_eq_ok_iff.mp h
  exact validateHttpUrl_eq_ok_iff.mpr
    ⟨parsed, parseUrl_geturl hurl.web hparse, hurl, rfl⟩

/-- A host passes if it resolves, and only to public addresses. -/
lemma exists_of_validateResolvedHost {getaddrinfo : Str → ℕ → Option (List Str)}
    (h : validateResolvedHost rules getaddrinfo url = .ok ()) :
    ∃ parsed port addresses, parseUrl rules.ucd rules.bracketed [] url = some parsed ∧
      getaddrinfo (parsed.hostname rules.ucd) port = some addresses ∧ addresses ≠ [] ∧
      ∀ address ∈ addresses, rules.isGlobal address = some true := by
  unfold validateResolvedHost at h
  cases hparse : parseUrl rules.ucd rules.bracketed [] url with
  | none =>
    rw [hparse] at h
    cases h
  | some parsed =>
    rw [hparse] at h
    dsimp only at h
    have hhost : parsed.hostname rules.ucd ≠ [] := by
      intro hempty
      rw [if_pos hempty] at h
      cases h
    rw [if_neg hhost] at h
    cases hport : portNumber rules parsed with
    | error e =>
      rw [hport] at h
      cases h
    | ok port =>
      rw [hport] at h
      dsimp only at h
      split at h
      · cases h
      · rename_i addresses haddresses
        split_ifs at h with hvalue hglobal
        rw [not_or, not_exists] at hglobal
        refine ⟨parsed, _, addresses, rfl, haddresses, hglobal.1, fun address hmem => ?_⟩
        by_contra hnot
        exact hglobal.2 address ⟨hmem, hnot⟩

end Validation

/-! ## The loop -/

section Loop

variable {rules} {network : Network} {maxBytes left hop : ℕ} {url : Str}

/-- The body that is read is within the limit if the chunks so far are. -/
lemma length_of_readChunks {broken : Bool} {chunks rest : List (List UInt8)} {total : ℕ}
    {body : List UInt8} (htotal : total = chunks.flatten.length) (hle : total ≤ maxBytes)
    (h : readChunks maxBytes broken chunks total rest = .ok body) : body.length ≤ maxBytes := by
  induction rest generalizing chunks total with
  | nil =>
    unfold readChunks at h
    split_ifs at h
    rw [← Except.ok.inj h, ← htotal]
    exact hle
  | cons chunk rest ih =>
    unfold readChunks at h
    split_ifs at h with hlimit
    refine ih ?_ (Nat.le_of_not_lt hlimit) h
    rw [htotal, List.flatten_append, List.length_append, List.flatten_singleton]

lemma length_of_readResponse {response : StreamedResponse} {fetched : Fetched}
    (h : readResponse rules maxBytes url response = .ok fetched) :
    fetched.body.length ≤ maxBytes := by
  unfold readResponse at h
  split_ifs at h
  split at h
  · cases h
  · split_ifs at h
    split at h
    · cases h
    · rename_i body hbody
      obtain rfl := Except.ok.inj h
      exact length_of_readChunks rfl (Nat.zero_le _) hbody

/-- Each request of a log is of a validated URL, right behind the check of its host. -/
def GuardedLog (rules : NetRules) (network : Network) (log : List FetchEvent) : Prop :=
  ∀ front rest hop url, log = front ++ .requested hop url :: rest →
    validateHttpUrl rules url = .ok url ∧
      validateResolvedHost rules (network.getaddrinfo hop) url = .ok () ∧
        ∃ front', front = front' ++ [.checked hop url]

/-- The number of requests of a log. -/
def requestCount (log : List FetchEvent) : ℕ :=
  log.countP fun event => match event with
    | .checked .. => false
    | .requested .. => true

lemma requestCount_cons {log : List FetchEvent} :
    requestCount (.checked hop url :: .requested hop url :: log) = requestCount log + 1 := by
  simp [requestCount]

lemma GuardedLog.nil : GuardedLog rules network [] := by
  intro front rest hop url h
  cases front <;> cases h

/-- A check and its request in front keep a log guarded. -/
lemma GuardedLog.cons {log : List FetchEvent} (hurl : validateHttpUrl rules url = .ok url)
    (hhost : validateResolvedHost rules (network.getaddrinfo hop) url = .ok ())
    (h : GuardedLog rules network log) :
    GuardedLog rules network (.checked hop url :: .requested hop url :: log) := by
  intro front rest hop' url' hlog
  rcases front with _ | ⟨event, _ | ⟨event', front⟩⟩
  · cases hlog
  · cases hlog
    exact ⟨hurl, hhost, [], rfl⟩
  · obtain ⟨-, htail⟩ := List.cons.inj hlog
    obtain ⟨-, htail⟩ := List.cons.inj htail
    obtain ⟨hvalid, hresolved, front', rfl⟩ := h front rest hop' url' htail
    exact ⟨hvalid, hresolved, event :: event' :: front', rfl⟩

/-- A redirect leads to a validated URL. -/
lemma validateHttpUrl_of_redirectTarget {response : StreamedResponse} {target : Str}
    (h : redirectTarget rules url response = .ok target) :
    validateHttpUrl rules target = .ok target := by
  unfold redirectTarget at h
  split at h
  · cases h
  · split at h
    · cases h
    · exact validateHttpUrl_idem h

/-- From a validated URL on, each hop is guarded, and the hops that are left bound the requests. -/
lemma fetchHops_guarded (hurl : validateHttpUrl rules url = .ok url) :
    GuardedLog rules network (fetchHops rules network maxBytes left hop url).2 ∧
      requestCount (fetchHops rules network maxBytes left hop url).2 ≤ left ∧
        ∀ fetched, (fetchHops rules network maxBytes left hop url).1 = .ok fetched →
          fetched.body.length ≤ maxBytes := by
  induction left generalizing hop url with
  | zero => exact ⟨.nil, le_refl 0, fun fetched h => nomatch h⟩
  | succ left ih =>
    unfold fetchHops
    cases hhost : validateResolvedHost rules (network.getaddrinfo hop) url with
    | error e => exact ⟨.nil, Nat.zero_le _, fun fetched h => nomatch h⟩
    | ok =>
      have hlog : GuardedLog rules network [.checked hop url, .requested hop url] :=
        .cons hurl hhost .nil
      have hcount : requestCount [.checked hop url, .requested hop url] ≤ left + 1 :=
        Nat.le_add_left 1 left
      dsimp only
      cases network.respond hop url with
      | none => exact ⟨hlog, hcount, fun fetched h => nomatch h⟩
      | some response =>
        dsimp only
        split_ifs
        · cases htarget : redirectTarget rules url response with
          | error e => exact ⟨hlog, hcount, fun fetched h => nomatch h⟩
          | ok target =>
            have htarget : validateHttpUrl rules target = .ok target :=
              validateHttpUrl_of_redirectTarget htarget
            obtain ⟨hguarded, hrequests, hbody⟩ := @ih (hop + 1) target htarget
            refine ⟨hguarded.cons hurl hhost, ?_, hbody⟩
            dsimp only
            rw [List.cons_append, List.singleton_append, requestCount_cons]
            exact Nat.succ_le_succ hrequests
        · exact ⟨hlog, hcount, fun fetched h => length_of_readResponse h⟩

/-- **The guarded fetch.** Whatever the servers and the name servers answer, each request is of a
validated URL whose host has resolved to public addresses only right before, there are at most six
requests, and the body is within the limit.

**Proof sketch.** What the validation gives passes it again. So the current URL is a validated one
at each hop, by induction on the hops that are left, and a hop adds one check and one request. -/
theorem fetch_guarded (rules : NetRules) (network : Network) (start : Str) (maxBytes : ℕ) :
    (∀ front rest hop url,
      (fetchBoundedHttp rules network start maxBytes).2 = front ++ .requested hop url :: rest →
        validateHttpUrl rules url = .ok url ∧
          validateResolvedHost rules (network.getaddrinfo hop) url = .ok () ∧
            ∃ front', front = front' ++ [.checked hop url]) ∧
      requestCount (fetchBoundedHttp rules network start maxBytes).2 ≤ 6 ∧
        ∀ fetched, (fetchBoundedHttp rules network start maxBytes).1 = .ok fetched →
          fetched.body.length ≤ maxBytes := by
  unfold fetchBoundedHttp
  cases hstart : validateHttpUrl rules start with
  | error e => exact ⟨GuardedLog.nil, Nat.zero_le _, fun fetched h => nomatch h⟩
  | ok current => exact fetchHops_guarded (validateHttpUrl_idem hstart)

end Loop

end VCBrain
