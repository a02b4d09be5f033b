import VCBrain.Foundation.Url

set_option relaxedAutoImplicit false
set_option autoImplicit false

/-!
# All parts of a URL, and joining

The six parts that `urlparse` gives, the text that `geturl` makes of them and `urljoin`.

## Main definitions

* `UrlParts`, `parseUrl` — the parts of a URL, with a scheme for a URL that has none.
* `UrlParts.geturl` — the URL of the parts.
* `urljoin` — a URL relative to another one.

## Main results

* `parseUrl_toParsedUrl` — the parts extend those of `urlparse`.
* `parseUrl_geturl` — a web URL with a host has the same parts after `geturl`.
-/

/-- The six parts of a URL. -/
structure UrlParts extends ParsedUrl where
  params : Str
  query : Str
  fragment : Str
deriving DecidableEq

/-- `uses_relative`. -/
def usesRelative : List Str :=
  ["", "ftp", "http", "gopher", "nntp", "imap", "wais", "file", "https", "shttp", "mms",
    "prospero", "rtsp", "rtsps", "rtspu", "sftp", "svn", "svn+ssh", "ws", "wss"]

/-- `uses_netloc`. -/
def usesNetloc : List Str :=
  ["", "ftp", "http", "gopher", "nntp", "telnet", "imap", "wais", "file", "mms", "https", "shttp",
    "snews", "prospero", "rtsp", "rtsps", "rtspu", "rsync", "svn", "svn+ssh", "sftp", "nfs", "git",
    "git+ssh", "ws", "wss", "itms-services"]

/-- The URL without blanks in front and without tabs and line ends. -/
def cleanUrl (url : Str) : Str :=
  (url.dropWhile (·.toNat ≤ 32)).filter (· ∉ ['\t', '\r', '\n'])

/-- `_splitparams`: the parameters of the last segment. -/
def lastParams (path : Str) : Str := ((path.afterLast '/').partition ';').2

/-- The parts behind the network location. -/
def UrlParts.ofTail (scheme netloc tail : Str) : UrlParts :=
  let (rest, fragment) := tail.partition '#'
  let (path, query) := rest.partition '?'
  if scheme ∈ usesParams then
    { scheme := scheme, netloc := netloc, path := splitParams path
      params := lastParams path, query := query, fragment := fragment }
  else
    { scheme := scheme, netloc := netloc, path := path, params := [], query := query
      fragment := fragment }

/-- The parts behind the scheme. -/
def UrlParts.ofRest (scheme rest : Str) : UrlParts :=
  if ['/', '/'] <+: rest then
    .ofTail scheme ((rest.drop 2).takeWhile (· ∉ ['/', '?', '#']))
      ((rest.drop 2).dropWhile (· ∉ ['/', '?', '#']))
  else .ofTail scheme [] rest

/-- `urlparse(url, scheme)`. -/
def parseUrl (ucd : Ucd) (bracketed : Str → Bool) (scheme url : Str) : Option UrlParts :=
  let (own, rest) := splitScheme (cleanUrl url)
  let parts := UrlParts.ofRest (if own = [] then scheme else own) rest
  if bracketsValid bracketed parts.netloc && netlocValid ucd parts.netloc then some parts else none

/-- A part behind its mark, nothing if the part is empty. -/
def marked (mark : Char) (part : Str) : Str := if part = [] then [] else mark :: part

/-- `urlunparse`, which is also `geturl`. -/
def UrlParts.geturl (parts : UrlParts) : Str :=
  let path := parts.path ++ marked ';' parts.params
  let slashed := if path ≠ [] ∧ path.head? ≠ some '/' then '/' :: path else path
  let located :=
    if parts.netloc ≠ [] then '/' :: '/' :: parts.netloc ++ slashed
    else if ['/', '/'] <+: path ∨ parts.scheme ≠ [] ∧ parts.scheme ∈ usesNetloc ∧
      (path = [] ∨ path.head? = some '/') then '/' :: '/' :: path
    else path
  let schemed := if parts.scheme = [] then located else parts.scheme ++ ':' :: located
  schemed ++ marked '?' parts.query ++ marked '#' parts.fragment

/-- The segments of a path without `.` and with `..` taken back. -/
def resolveDots (segments : List Str) : List Str :=
  let resolved := segments.foldl (fun resolved segment =>
    if segment = "..".toList then resolved.dropLast
    else if segment = ".".toList then resolved
    else resolved ++ [segment]) []
  if segments.getLastD [] ∈ [".".toList, "..".toList] then resolved ++ [[]] else resolved

/-- The segments of a relative path behind those of the base; empty ones between are dropped. -/
def joinSegments (base path : Str) : List Str :=
  if path.head? = some '/' then Str.splitOn ['/'] path
  else
    let segments := (Str.splitOn ['/'] base).dropLast ++
      (if (Str.splitOn ['/'] base).getLastD [] = [] then [[]] else []) ++ Str.splitOn ['/'] path
    segments.take 1 ++ (segments.drop 1).dropLast.filter (· ≠ []) ++
      (segments.drop 1).getLast?.toList

/-- `urljoin(base, url)`. -/
def urljoin (ucd : Ucd) (bracketed : Str → Bool) (base url : Str) : Option Str :=
  if base = [] then some url
  else if url = [] then some base
  else do
    let b ← parseUrl ucd bracketed [] base
    let u ← parseUrl ucd bracketed b.scheme url
    if u.scheme ≠ b.scheme ∨ u.scheme ∉ usesRelative then return url
    if u.scheme ∈ usesNetloc ∧ u.netloc ≠ [] then return u.geturl
    let netloc := if u.scheme ∈ usesNetloc then b.netloc else u.netloc
    if u.path = [] ∧ u.params = [] then
      return { u with netloc := netloc, path := b.path, params := b.params
                      query := if u.query = [] then b.query else u.query }.geturl
    let path := List.intercalate ['/'] (resolveDots (joinSegments b.path u.path))
    return { u with netloc := netloc, path := if path = [] then ['/'] else path }.geturl

example : urljoin Ucd.ascii (fun _ => false) "https://ada.dev/a/b?q" "../c/./d#f" =
    some "https://ada.dev/c/d#f".toList := by
  decide +kernel

/-! ## The parts after `geturl` -/

section RoundTrip

variable {ucd : Ucd} {bracketed : Str → Bool} {scheme given netloc tail url front segment x y : Str}
  {sep : Char} {parts : UrlParts}

/-- The parts of a URL without a given scheme extend those of `urlparse`. -/
lemma parseUrl_toParsedUrl :
    (parseUrl ucd bracketed [] url).map UrlParts.toParsedUrl = urlparse ucd bracketed url := by
  have hscheme : ∀ own : Str, (if own = [] then [] else own) = own := by
    intro own
    split_ifs with h
    · exact h.symm
    · rfl
  unfold parseUrl urlparse cleanUrl UrlParts.ofRest UrlParts.ofTail
  dsimp only
  rw [hscheme]
  split_ifs <;> simp_all [Str.partition]

lemma partition_marked (h : sep ∉ x) : (x ++ marked sep y).partition sep = (x, y) := by
  unfold marked
  split_ifs with hy
  · rw [List.append_nil, Str.partition_of_notMem h, hy]
  · rw [Str.partition_append_cons h]

/-- The two sides of a mark, with the mark only before something, begin the text. -/
lemma prefix_of_partition : (x.partition sep).1 ++ marked sep (x.partition sep).2 <+: x := by
  by_cases hmem : sep ∈ x
  · obtain ⟨u, v, rfl, hu⟩ := List.eq_append_cons_of_mem hmem
    rw [Str.partition_append_cons hu]
    unfold marked
    split_ifs with hv
    · rw [List.append_nil]
      exact List.prefix_append u _
    · exact List.prefix_refl _
  · rw [Str.partition_of_notMem hmem]
    exact (List.append_nil x).symm ▸ List.prefix_refl x

lemma notMem_partition : sep ∉ (x.partition sep).1 := by
  intro hmem
  have hne := List.mem_takeWhile_imp hmem
  simp at hne

/-- From the end, no more is dropped than a text behind which something is kept. -/
lemma Str.rdropWhile_append {p : Char → Bool} (h : ∃ c ∈ y, ¬ p c = true) :
    (x ++ y).rdropWhile p = x ++ y.rdropWhile p := by
  have hne : y.reverse.dropWhile p ≠ [] := by
    obtain ⟨c, hc, hp⟩ := h
    intro hnil
    exact hp (List.dropWhile_eq_nil_iff.mp hnil c (List.mem_reverse.mpr hc))
  unfold List.rdropWhile
  rw [List.reverse_append, List.dropWhile_append, if_neg (by simpa using hne), List.reverse_append,
    List.reverse_reverse]

/-- A text is cut before its last segment. -/
lemma exists_afterLast (path : Str) : ∃ front segment : Str, path = front ++ segment ∧
    (front = [] ∨ ∃ init, front = init ++ ['/']) ∧ '/' ∉ segment := by
  refine ⟨path.rdropWhile (· ≠ '/'), path.rtakeWhile (· ≠ '/'),
    (List.rdropWhile_append_rtakeWhile ..).symm, ?_, fun hmem => ?_⟩
  · rcases List.eq_nil_or_concat (path.rdropWhile (· ≠ '/')) with h | ⟨init, c, h⟩
    · exact Or.inl h
    · rw [List.concat_eq_append] at h
      have hlast : ∀ (z : Str) (hz : z ≠ []), path.rdropWhile (· ≠ '/') = z →
          z.getLast hz = '/' := by
        rintro z hz rfl
        simpa using List.rdropWhile_last_not (· ≠ '/') path hz
      have hc : c = '/' := by simpa using hlast _ (by simp) h
      exact Or.inr ⟨init, by rw [h, hc]⟩
  · have hslash := List.mem_rtakeWhile_imp hmem
    simp at hslash

/-- The parameters are those of the last segment. -/
lemma splitParams_append (hfront : front = [] ∨ ∃ init, front = init ++ ['/'])
    (hsegment : '/' ∉ segment) :
    splitParams (front ++ segment) = front ++ (segment.partition ';').1 := by
  unfold splitParams
  dsimp only
  rw [Str.afterLast_append hfront hsegment, List.length_append, Nat.add_sub_cancel, List.take_left]
  rfl

lemma lastParams_append (hfront : front = [] ∨ ∃ init, front = init ++ ['/'])
    (hsegment : '/' ∉ segment) : lastParams (front ++ segment) = (segment.partition ';').2 := by
  rw [lastParams, Str.afterLast_append hfront hsegment]

/-- The path and the parameters, written out, begin the text that they are read from. -/
lemma prefix_of_splitParams (path : Str) :
    splitParams path ++ marked ';' (lastParams path) <+: path := by
  obtain ⟨front, segment, rfl, hfront, hsegment⟩ := exists_afterLast path
  rw [splitParams_append hfront hsegment, lastParams_append hfront hsegment, List.append_assoc]
  exact (List.prefix_append_right_inj front).mpr prefix_of_partition

/-- Written out, the path and the parameters are read again. -/
lemma splitParams_written (path : Str) :
    splitParams (splitParams path ++ marked ';' (lastParams path)) = splitParams path ∧
      lastParams (splitParams path ++ marked ';' (lastParams path)) = lastParams path := by
  obtain ⟨front, segment, rfl, hfront, hsegment⟩ := exists_afterLast path
  have hnew : '/' ∉ (segment.partition ';').1 ++ marked ';' (segment.partition ';').2 :=
    fun hmem => hsegment (prefix_of_partition.subset hmem)
  rw [splitParams_append hfront hsegment, lastParams_append hfront hsegment, List.append_assoc,
    splitParams_append hfront hnew, lastParams_append hfront hnew,
    partition_marked notMem_partition]
  exact ⟨rfl, rfl⟩

/-- The parts behind the network location, written out. -/
def UrlParts.tailText (parts : UrlParts) : Str :=
  parts.path ++ marked ';' parts.params ++ marked '?' parts.query ++ marked '#' parts.fragment

lemma ofTail_of_mem (hscheme : scheme ∈ usesParams) : UrlParts.ofTail scheme netloc tail =
    { scheme := scheme, netloc := netloc
      path := splitParams ((tail.partition '#').1.partition '?').1
      params := lastParams ((tail.partition '#').1.partition '?').1
      query := ((tail.partition '#').1.partition '?').2
      fragment := (tail.partition '#').2 } := if_pos hscheme

/-- Up to the fragment, what is written out are characters of the text that was read. -/
lemma pathText_sublist : List.Sublist
    (splitParams (x.partition '?').1 ++ marked ';' (lastParams (x.partition '?').1) ++
      marked '?' (x.partition '?').2) x :=
  ((prefix_of_splitParams _).sublist.append_right _).trans prefix_of_partition.sublist

/-- What is written out are characters of the text that was read, in its order. -/
lemma tailText_sublist (hscheme : scheme ∈ usesParams) :
    (UrlParts.ofTail scheme netloc tail).tailText.Sublist tail := by
  rw [ofTail_of_mem hscheme]
  exact (pathText_sublist.append_right _).trans prefix_of_partition.sublist

/-- Read again, the parts behind the network location are the same. -/
lemma ofTail_tailText (hscheme : scheme ∈ usesParams) :
    UrlParts.ofTail scheme netloc (UrlParts.ofTail scheme netloc tail).tailText =
      UrlParts.ofTail scheme netloc tail := by
  obtain ⟨hpath, hparams⟩ := splitParams_written ((tail.partition '#').1.partition '?').1
  rw [ofTail_of_mem hscheme, ofTail_of_mem hscheme]
  unfold UrlParts.tailText
  dsimp only
  rw [partition_marked fun hmem => notMem_partition (pathText_sublist.subset hmem),
    partition_marked fun hmem => notMem_partition ((prefix_of_splitParams _).subset hmem),
    hpath, hparams]

/-- A mark begins what it marks. -/
lemma head?_marked {c : Char} (h : c ∈ (marked sep x).head?) : c = sep := by
  unfold marked at h
  split_ifs at h
  · cases h
  · simpa using h.symm

/-- The path begins with a slash if what is read begins with a mark. -/
lemma head?_pathText (hscheme : scheme ∈ usesParams)
    (htail : ∀ c ∈ tail.head?, c ∈ ['/', '?', '#'])
    (hparts : UrlParts.ofTail scheme netloc tail = parts) :
    ∀ c ∈ (parts.path ++ marked ';' parts.params).head?, c = '/' := by
  have hbegins : ((tail.partition '#').1.partition '?').1 <+: tail :=
    (List.takeWhile_prefix _).trans (List.takeWhile_prefix _)
  have hhash : '#' ∉ ((tail.partition '#').1.partition '?').1 :=
    fun hmem => notMem_partition ((List.takeWhile_prefix _).subset hmem)
  have hquestion : '?' ∉ ((tail.partition '#').1.partition '?').1 := notMem_partition
  rw [← hparts, ofTail_of_mem hscheme]
  dsimp only
  generalize ((tail.partition '#').1.partition '?').1 = path at hbegins hhash hquestion ⊢
  intro c hc
  cases path with
  | nil =>
    have hempty : splitParams [] ++ marked ';' (lastParams []) = [] := rfl
    rw [hempty] at hc
    cases hc
  | cons d path =>
    have hslash : d = '/' := by
      obtain ⟨rest, rfl⟩ := hbegins
      have hd : d ∈ ['/', '?', '#'] := htail d rfl
      simp only [List.mem_cons, not_or, List.not_mem_nil, or_false] at hd hhash hquestion
      rcases hd with hd | hd | hd
      · exact hd
      · exact absurd hd.symm hquestion.1
      · exact absurd hd.symm hhash.1
    rw [hslash, List.head?_append, head?_splitParams] at hc
    simpa using hc.symm

/-- The text behind the network location then begins with a mark. -/
lemma head?_tailText (hpath : ∀ c ∈ (parts.path ++ marked ';' parts.params).head?, c = '/') :
    ∀ c ∈ parts.tailText.head?, c ∈ ['/', '?', '#'] := by
  intro c hc
  unfold UrlParts.tailText at hc
  rw [List.head?_append, List.head?_append, Option.mem_def, Option.or_eq_some_iff,
    Option.or_eq_some_iff] at hc
  rcases hc with (hc | ⟨-, hc⟩) | ⟨-, hc⟩
  · rw [hpath c hc]
    decide
  · rw [head?_marked hc]
    decide
  · rw [head?_marked hc]
    decide

/-! ## Web URLs -/

/-- A web URL with a host. -/
structure UrlParts.Web (parts : UrlParts) : Prop where
  scheme_mem : parts.scheme ∈ [("http" : Str), "https"]
  netloc_ne : parts.netloc ≠ []

instance (parts : UrlParts) : Decidable parts.Web :=
  decidable_of_iff (parts.scheme ∈ [("http" : Str), "https"] ∧ parts.netloc ≠ [])
    ⟨fun h => ⟨h.1, h.2⟩, fun h => ⟨h.1, h.2⟩⟩

lemma UrlParts.Web.scheme_mem_usesParams (h : parts.Web) : parts.scheme ∈ usesParams := by
  have hmem : ∀ scheme ∈ [("http" : Str), "https"], scheme ∈ usesParams := by decide
  exact hmem _ h.scheme_mem

/-- The URL of web parts. -/
lemma UrlParts.Web.geturl_eq (h : parts.Web)
    (hpath : ∀ c ∈ (parts.path ++ marked ';' parts.params).head?, c = '/') :
    parts.geturl = parts.scheme ++ ':' :: '/' :: '/' :: (parts.netloc ++ parts.tailText) := by
  have hscheme : parts.scheme ≠ [] := by
    have hmem : ∀ scheme ∈ [("http" : Str), "https"], scheme ≠ [] := by decide
    exact hmem _ h.scheme_mem
  have hslash : ¬ (parts.path ++ marked ';' parts.params ≠ [] ∧
      (parts.path ++ marked ';' parts.params).head? ≠ some '/') := by
    rintro ⟨hne, hhead⟩
    cases hp : parts.path ++ marked ';' parts.params with
    | nil => exact hne hp
    | cons c s =>
      rw [hp] at hpath hhead
      exact hhead (congrArg some (hpath c rfl))
  unfold UrlParts.geturl
  dsimp only
  rw [if_neg hslash, if_pos h.netloc_ne, if_neg hscheme]
  simp [UrlParts.tailText]

/-- Behind the scheme, the parts of a URL are read up to the marks. -/
lemma ofRest_append (hnetloc : ∀ c ∈ netloc, c ∉ ['/', '?', '#'])
    (htail : ∀ c ∈ tail.head?, c ∈ ['/', '?', '#']) :
    UrlParts.ofRest scheme ('/' :: '/' :: (netloc ++ tail)) = .ofTail scheme netloc tail := by
  have hall : ∀ c ∈ netloc, decide (c ∉ ['/', '?', '#']) = true := fun c hc =>
    decide_eq_true (hnetloc c hc)
  have htake : tail.takeWhile (fun c => decide (c ∉ ['/', '?', '#'])) = [] ∧
      tail.dropWhile (fun c => decide (c ∉ ['/', '?', '#'])) = tail := by
    cases tail with
    | nil => exact ⟨rfl, rfl⟩
    | cons c t =>
      have hc : ¬ (decide (c ∉ ['/', '?', '#']) = true) := by
        rw [decide_eq_true_eq, not_not]
        exact htail c rfl
      exact ⟨List.takeWhile_cons_of_neg hc, List.dropWhile_cons_of_neg hc⟩
  have hslashes : ['/', '/'] <+: '/' :: '/' :: (netloc ++ tail) := ⟨_, rfl⟩
  unfold UrlParts.ofRest
  rw [if_pos hslashes, List.drop_succ_cons, List.drop_succ_cons, List.drop_zero,
    List.takeWhile_append_of_pos hall, List.dropWhile_append_of_pos hall, htake.1, htake.2,
    List.append_nil]

/-- No character of a scheme is removed from a URL. -/
lemma isSchemeChar_clean {c : Char} (h : isSchemeChar c = true) : c ∉ ['\t', '\r', '\n'] := by
  intro hmem
  have hnot : ∀ d ∈ ['\t', '\r', '\n'], isSchemeChar d = false := by decide
  rw [hnot c hmem] at h
  cases h

lemma toNat_of_isAlpha {c : Char} (h : c.isAlpha = true) : ¬ c.toNat ≤ 32 := by
  delta Char.isAlpha Char.isUpper Char.isLower at h
  simp only [Bool.or_eq_true, Bool.and_eq_true, decide_eq_true_eq, ge_iff_le,
    UInt32.le_iff_toNat_le] at h
  have hsmall : 'A'.val.toNat = 65 ∧ 'a'.val.toNat = 97 := by decide
  have hnat : c.toNat = c.val.toNat := rfl
  omega

/-- A clean URL with a scheme in front stays as it is. -/
lemma cleanUrl_append (hscheme : IsScheme scheme)
    (h : ∀ c ∈ x, c ∉ ['\t', '\r', '\n']) : cleanUrl (scheme ++ ':' :: x) = scheme ++ ':' :: x := by
  have hchars := List.all_eq_true.mp hscheme.chars
  obtain ⟨d, s, rfl, hd⟩ : ∃ d s, scheme = d :: s ∧ d.isAlpha = true := by
    have hhead := hscheme.head
    cases scheme with
    | nil => cases hhead
    | cons d s => exact ⟨d, s, rfl, hhead⟩
  unfold cleanUrl
  rw [List.cons_append, List.dropWhile_cons_of_neg (by simpa using toNat_of_isAlpha hd),
    ← List.cons_append, List.filter_eq_self]
  intro c hc
  rw [decide_eq_true_eq]
  rcases List.mem_append.mp hc with hc | hc
  · exact isSchemeChar_clean (hchars c hc)
  · rcases List.mem_cons.mp hc with rfl | hc
    · decide
    · exact h c hc

/-- What is read of a URL are characters of the clean URL. -/
lemma splitScheme_subset (x : Str) : (splitScheme x).2 ⊆ x := by
  unfold splitScheme
  dsimp only
  split_ifs
  · exact fun c hc => (List.dropWhile_suffix _).subset (List.mem_of_mem_tail hc)
  · exact List.Subset.refl x

lemma ofTail_scheme : (UrlParts.ofTail scheme netloc tail).scheme = scheme := by
  unfold UrlParts.ofTail
  split_ifs <;> rfl

lemma ofTail_netloc : (UrlParts.ofTail scheme netloc tail).netloc = netloc := by
  unfold UrlParts.ofTail
  split_ifs <;> rfl

lemma ofRest_of_parseUrl (h : parseUrl ucd bracketed given url = some parts) :
    (∃ scheme, UrlParts.ofRest scheme (splitScheme (cleanUrl url)).2 = parts) ∧
      (bracketsValid bracketed parts.netloc && netlocValid ucd parts.netloc) = true := by
  unfold parseUrl at h
  dsimp only at h
  obtain ⟨hvalid, hparts⟩ := Option.ite_none_right_eq_some.mp h
  rw [Option.some.inj hparts] at hvalid
  exact ⟨⟨_, Option.some.inj hparts⟩, hvalid⟩

/-- The characters of the parts behind a scheme are those of the text they are read from. -/
lemma exists_of_parseUrl (hne : parts.netloc ≠ [])
    (h : parseUrl ucd bracketed given url = some parts) :
    ∃ tail, UrlParts.ofTail parts.scheme parts.netloc tail = parts ∧
      (∀ c ∈ parts.netloc, c ∉ ['/', '?', '#']) ∧ (∀ c ∈ tail.head?, c ∈ ['/', '?', '#']) ∧
      ∀ c ∈ parts.netloc ++ tail, c ∉ ['\t', '\r', '\n'] := by
  obtain ⟨⟨scheme, hparts⟩, -⟩ := ofRest_of_parseUrl h
  have hsub := splitScheme_subset (cleanUrl url)
  generalize (splitScheme (cleanUrl url)).2 = rest at hparts hsub
  have hslashes : ['/', '/'] <+: rest := by
    by_contra hnot
    rw [UrlParts.ofRest, if_neg hnot] at hparts
    exact hne (hparts ▸ ofTail_netloc)
  obtain ⟨r, rfl⟩ := hslashes
  rw [UrlParts.ofRest, if_pos ⟨r, rfl⟩] at hparts
  have hscheme : parts.scheme = scheme := hparts ▸ ofTail_scheme
  have hnetloc : parts.netloc = r.takeWhile (· ∉ ['/', '?', '#']) := hparts ▸ ofTail_netloc
  refine ⟨r.dropWhile (· ∉ ['/', '?', '#']), ?_, fun c hc => ?_, fun c hc => ?_, fun c hc => ?_⟩
  · rw [hscheme, hnetloc]
    exact hparts
  · rw [hnetloc] at hc
    have hmark := List.mem_takeWhile_imp hc
    exact of_decide_eq_true hmark
  · have hhead := List.head?_dropWhile_not (· ∉ ['/', '?', '#']) r
    rw [Option.mem_def] at hc
    rw [hc] at hhead
    simpa [or_iff_not_imp_left] using hhead
  · rw [hnetloc, List.takeWhile_append_dropWhile] at hc
    have hclean : c ∈ cleanUrl url := hsub (List.mem_append_right _ hc)
    exact of_decide_eq_true (List.mem_filter.mp hclean).2

/-- The URL of web parts. -/
lemma geturl_of_parseUrl (hweb : parts.Web) (h : parseUrl ucd bracketed given url = some parts) :
    parts.geturl = parts.scheme ++ ':' :: '/' :: '/' :: (parts.netloc ++ parts.tailText) := by
  obtain ⟨tail, htail, -, hhead, -⟩ := exists_of_parseUrl hweb.netloc_ne h
  exact hweb.geturl_eq (head?_pathText hweb.scheme_mem_usesParams hhead htail)

/-- **`geturl` after `urlparse`.** The URL of the parts of a web URL has the same parts.

**Proof sketch.** The parts are separated by their first mark each, and each is free of the marks
that end it. So what is written is read part by part, and the characters that `urlparse` removes are
in none of them. -/
theorem parseUrl_geturl (hweb : parts.Web) (h : parseUrl ucd bracketed given url = some parts) :
    parseUrl ucd bracketed [] parts.geturl = some parts := by
  obtain ⟨tail, htail, hnetloc, hhead, hchars⟩ := exists_of_parseUrl hweb.netloc_ne h
  have hparams := hweb.scheme_mem_usesParams
  have hpath := head?_pathText hparams hhead htail
  have hsub : parts.tailText.Sublist tail := htail ▸ tailText_sublist hparams
  have hclean : ∀ c ∈ '/' :: '/' :: (parts.netloc ++ parts.tailText), c ∉ ['\t', '\r', '\n'] := by
    intro c hc
    rw [List.mem_cons, List.mem_cons] at hc
    rcases hc with rfl | rfl | hc
    · decide
    · decide
    · exact hchars c ((hsub.append_left parts.netloc).subset hc)
  have hscheme : parts.scheme ≠ [] := by
    have hmem : ∀ scheme ∈ [("http" : Str), "https"], scheme ≠ [] := by decide
    exact hmem _ hweb.scheme_mem
  have hagain : UrlParts.ofTail parts.scheme parts.netloc parts.tailText = parts := by
    have hwritten := @ofTail_tailText _ parts.netloc tail hparams
    rwa [htail] at hwritten
  unfold parseUrl
  dsimp only
  rw [geturl_of_parseUrl hweb h, cleanUrl_append (isScheme_of_mem hweb.scheme_mem) hclean,
    splitScheme_append (isScheme_of_mem hweb.scheme_mem), if_neg hscheme,
    ofRest_append hnetloc (head?_tailText hpath), hagain,
    if_pos (ofRest_of_parseUrl h).2]

/-! ## A host in front of another path -/

/-- The characters of a scheme are in lower case afterwards. -/
lemma isSchemeChar_toLower {c : Char} (h : isSchemeChar c = true) :
    isSchemeChar c.toLower = true ∧ c.toLower.toLower = c.toLower ∧
      (c.isAlpha = true → c.toLower.isAlpha = true) := by
  have hascii : ∀ n < 128, isSchemeChar (Char.ofNat n) = true →
      isSchemeChar (Char.ofNat n).toLower = true ∧
        (Char.ofNat n).toLower.toLower = (Char.ofNat n).toLower ∧
          ((Char.ofNat n).isAlpha = true → (Char.ofNat n).toLower.isAlpha = true) := by decide
  have hsmall : c.toNat < 128 := by
    delta isSchemeChar Char.isAlphanum Char.isAlpha Char.isUpper Char.isLower at h
    simp only [Char.isDigit, Bool.or_eq_true, Bool.and_eq_true, decide_eq_true_eq, ge_iff_le,
      UInt32.le_iff_toNat_le, beq_iff_eq] at h
    have hsize : 'Z'.val.toNat = 90 ∧ 'z'.val.toNat = 122 ∧ '9'.val.toNat = 57 := by decide
    have hnat : c.toNat = c.val.toNat := rfl
    rcases h with ((h | rfl) | rfl) | rfl
    · omega
    · decide
    · decide
    · decide
  have hc := hascii c.toNat hsmall
  rw [Char.ofNat_toNat] at hc
  exact hc h

/-- A scheme is read, or none. -/
lemma splitScheme_isScheme : (splitScheme x).1 = [] ∨ IsScheme (splitScheme x).1 := by
  unfold splitScheme
  dsimp only
  split_ifs with h
  · obtain ⟨-, hhead, hchars⟩ := h
    have hlower := fun c hc => isSchemeChar_toLower (List.all_eq_true.mp hchars c hc)
    refine Or.inr ⟨?_, ?_, ?_⟩
    · rw [List.map_map]
      exact List.map_congr_left fun c hc => (hlower c hc).2.1
    · cases hfirst : (x.partition ':').1 with
      | nil =>
        rw [hfirst] at hhead
        cases hhead
      | cons c s =>
        rw [hfirst] at hhead hlower
        exact (hlower c (List.mem_cons_self ..)).2.2 hhead
    · refine List.all_eq_true.mpr fun d hd => ?_
      obtain ⟨c, hc, rfl⟩ := List.mem_map.mp hd
      exact (hlower c hc).1
  · exact Or.inl rfl

lemma scheme_of_parseUrl (h : parseUrl ucd bracketed [] url = some parts) :
    parts.scheme = [] ∨ IsScheme parts.scheme := by
  have hofRest : ∀ scheme rest, (UrlParts.ofRest scheme rest).scheme = scheme := by
    intro scheme rest
    unfold UrlParts.ofRest
    split_ifs
    · exact ofTail_scheme
    · exact ofTail_scheme
  unfold parseUrl at h
  dsimp only at h
  obtain ⟨-, hparts⟩ := Option.ite_none_right_eq_some.mp h
  rw [← Option.some.inj hparts, hofRest]
  split_ifs
  · exact Or.inl rfl
  · exact splitScheme_isScheme

/-- The path of a URL with a host begins with a slash and has no mark of what is behind it. -/
lemma path_of_parseUrl (hne : parts.netloc ≠ [])
    (h : parseUrl ucd bracketed given url = some parts) :
    (∀ c ∈ parts.path, c ∉ ['\t', '\r', '\n']) ∧ ∀ c ∈ parts.path.head?, c = '/' := by
  obtain ⟨tail, htail, -, hhead, hchars⟩ := exists_of_parseUrl hne h
  have hread : parts.path <+: ((tail.partition '#').1.partition '?').1 := by
    rw [← htail]
    unfold UrlParts.ofTail
    dsimp only
    split_ifs
    · exact (List.prefix_append _ _).trans (prefix_of_splitParams _)
    · exact List.prefix_refl _
  have hbegins : ((tail.partition '#').1.partition '?').1 <+: tail :=
    (List.takeWhile_prefix _).trans (List.takeWhile_prefix _)
  refine ⟨fun c hc => hchars c (List.mem_append_right _ (hbegins.subset (hread.subset hc))), ?_⟩
  intro c hc
  have hmem := hread.subset (List.mem_of_mem_head? hc)
  have hmark : c ∈ ['/', '?', '#'] := by
    obtain ⟨rest, hrest⟩ := hread.trans hbegins
    refine hhead c ?_
    rw [← hrest, List.head?_append, hc]
    rfl
  simp only [List.mem_cons, List.not_mem_nil, or_false] at hmark
  rcases hmark with rfl | rfl | rfl
  · rfl
  · exact absurd hmem notMem_partition
  · exact absurd ((List.takeWhile_prefix _).subset hmem) notMem_partition

/-- A URL that is put together of a scheme, a host and a path has that host. -/
lemma urlparse_append (hscheme : IsScheme scheme) (hnetloc : ∀ c ∈ netloc, c ∉ ['/', '?', '#'])
    (hvalid : (bracketsValid bracketed netloc && netlocValid ucd netloc) = true)
    (hclean : ∀ c ∈ netloc ++ tail, c ∉ ['\t', '\r', '\n'])
    (htail : ∀ c ∈ tail.head?, c ∈ ['/', '?', '#']) :
    ∃ parsed, urlparse ucd bracketed (scheme ++ ':' :: '/' :: '/' :: (netloc ++ tail)) =
      some parsed ∧ parsed.netloc = netloc := by
  have hslashes : ∀ c ∈ '/' :: '/' :: (netloc ++ tail), c ∉ ['\t', '\r', '\n'] := by
    intro c hc
    rw [List.mem_cons, List.mem_cons] at hc
    rcases hc with rfl | rfl | hc
    · decide
    · decide
    · exact hclean c hc
  have hne : scheme ≠ [] := by
    rintro rfl
    exact absurd hscheme.head (by decide)
  refine ⟨(UrlParts.ofTail scheme netloc tail).toParsedUrl, ?_, ofTail_netloc⟩
  rw [← parseUrl_toParsedUrl, parseUrl]
  dsimp only
  rw [cleanUrl_append hscheme hslashes, splitScheme_append hscheme, if_neg hne,
    ofRest_append hnetloc htail, ofTail_netloc, if_pos hvalid]
  rfl

end RoundTrip
