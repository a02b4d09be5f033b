import VCBrain.Foundation.Unicode

set_option relaxedAutoImplicit false
set_option autoImplicit false

/-!
# URLs

`urllib.parse.urlparse` and the `hostname` of its result. The function is permissive: it raises
`ValueError` only for brackets that enclose no address and for hosts that change under
compatibility normalisation into text with separators.

## Main definitions

* `ParsedUrl` — the parts that are read: the scheme, the network location and the path.
* `urlparse` — the parser; `none` stands for `ValueError`.
* `ParsedUrl.hostname` — the host in lower case, without user information and port.
* `ParsedUrl.userinfo`, `ParsedUrl.port`, `urlParams`, `urlQuery` — the other parts of a URL.

## Main results

* `ParsedUrl.slash_notMem_hostname` — a host has no slash.
* `urlparse_path` — after a network location, the path is empty or begins with a slash.

## Design

Which text in brackets is an address is a matter of the `ipaddress` module and of the version of
the library, so that check is a parameter.
-/

/-- The parts of a URL that are read here. -/
structure ParsedUrl where
  scheme : Str
  netloc : Str
  path : Str
deriving DecidableEq

/-- `scheme_chars`. -/
def isSchemeChar (c : Char) : Bool := c.isAlphanum || c == '+' || c == '-' || c == '.'

/-- `uses_params`: the schemes whose last path segment may carry parameters. -/
def usesParams : List Str :=
  ["", "ftp", "hdl", "prospero", "http", "https", "shttp", "rtsp", "rtsps", "rtspu", "sip",
    "sips", "mms", "sftp", "tel"]

/-- The scheme, in lower case, and the rest; no scheme if the text before the first colon is
none. -/
def splitScheme (url : Str) : Str × Str :=
  let (head, tail) := url.partition ':'
  if ':' ∈ url ∧ head.head?.any Char.isAlpha ∧ head.all isSchemeChar then
    (head.map Char.toLower, tail)
  else ([], url)

/-- `_splitparams`: the path without the parameters of its last segment. -/
def splitParams (path : Str) : Str :=
  let last := path.afterLast '/'
  path.take (path.length - last.length) ++ last.takeWhile (· ≠ ';')

section Parser

variable (ucd : Ucd) (bracketed : Str → Bool)

/-- The check of brackets in a network location. -/
def bracketsValid (netloc : Str) : Bool :=
  if '[' ∈ netloc ∧ ']' ∈ netloc then bracketed netloc else '[' ∉ netloc ∧ ']' ∉ netloc

/-- `_checknetloc`: no separator may appear by compatibility normalisation. -/
def netlocValid (netloc : Str) : Bool :=
  let n := netloc.filter (· ∉ ['@', ':', '#', '?'])
  netloc.all (·.toNat < 128) || ucd.nfkc n == n ||
    !(ucd.nfkc n).any (· ∈ ['/', '?', '#', '@', ':'])

/-- `urlparse(url)`. -/
def urlparse (url : Str) : Option ParsedUrl :=
  let url := (url.dropWhile (·.toNat ≤ 32)).filter (· ∉ ['\t', '\r', '\n'])
  let (scheme, rest) := splitScheme url
  let (netloc, rest) :=
    if ['/', '/'] <+: rest then
      ((rest.drop 2).takeWhile (· ∉ ['/', '?', '#']), (rest.drop 2).dropWhile (· ∉ ['/', '?', '#']))
    else ([], rest)
  let path := (rest.takeWhile (· ≠ '#')).takeWhile (· ≠ '?')
  if bracketsValid bracketed netloc && netlocValid ucd netloc then
    some ⟨scheme, netloc, if scheme ∈ usesParams then splitParams path else path⟩
  else none

/-- `hostname or ""`. The zone of a scoped address keeps its case. -/
def ParsedUrl.hostname (url : ParsedUrl) : Str :=
  let hostinfo := url.netloc.afterLast '@'
  let host :=
    if '[' ∈ hostinfo then ((hostinfo.partition '[').2.partition ']').1
    else (hostinfo.partition ':').1
  ucd.lower (host.takeWhile (· ≠ '%')) ++ host.dropWhile (· ≠ '%')

end Parser

/-- The text before the last `@` of the network location. -/
def ParsedUrl.userinfo (url : ParsedUrl) : Str :=
  url.netloc.take (url.netloc.length - (url.netloc.afterLast '@').length - 1)

/-- The text of the port. -/
def ParsedUrl.port (url : ParsedUrl) : Str :=
  let hostinfo := url.netloc.afterLast '@'
  if '[' ∈ hostinfo then (((hostinfo.partition '[').2.partition ']').2.partition ':').2
  else (hostinfo.partition ':').2

/-- The text after the network location: the path, the query and the fragment. -/
def urlTail (url : Str) : Str :=
  let url := (url.dropWhile (·.toNat ≤ 32)).filter (· ∉ ['\t', '\r', '\n'])
  let rest := (splitScheme url).2
  if ['/', '/'] <+: rest then (rest.drop 2).dropWhile (· ∉ ['/', '?', '#']) else rest

/-- `params`, under a scheme that uses them. -/
def urlParams (url : Str) : Str :=
  let path : Str := ((urlTail url).takeWhile (· ≠ '#')).takeWhile (· ≠ '?')
  ((path.afterLast '/').partition ';').2

/-- `query`. -/
def urlQuery (url : Str) : Str :=
  let rest : Str := (urlTail url).takeWhile (· ≠ '#')
  (rest.partition '?').2

example : (urlparse Ucd.ascii (fun _ => false) "https://me@Ada.dev:80/x/y;p?q#f").map
    (fun url => (url.hostname Ucd.ascii, url.path)) = some (("ada.dev" : Str), ("/x/y" : Str)) := by
  decide

/-! ## Host and path -/

section Parts

variable {ucd : Ucd} {bracketed : Str → Bool} {url : Str} {parsed : ParsedUrl}

/-- A URL begins with a web scheme. -/
def HasWebScheme (url : Str) : Prop := "http://".toList <+: url ∨ "https://".toList <+: url

instance (url : Str) : Decidable (HasWebScheme url) := inferInstanceAs (Decidable (_ ∨ _))

/-- A scheme in the form that the parser gives. -/
structure IsScheme (scheme : Str) : Prop where
  lower : scheme.map Char.toLower = scheme
  head : scheme.head?.any Char.isAlpha = true
  chars : scheme.all isSchemeChar = true

lemma isScheme_of_mem {scheme : Str} (h : scheme ∈ [("http" : Str), "https"]) :
    IsScheme scheme := by
  have hall : ∀ scheme ∈ [("http" : Str), "https"], scheme.map Char.toLower = scheme ∧
      scheme.head?.any Char.isAlpha = true ∧ scheme.all isSchemeChar = true := by decide
  obtain ⟨hlower, hhead, hchars⟩ := hall scheme h
  exact ⟨hlower, hhead, hchars⟩

/-- A scheme is split off at its colon. -/
lemma splitScheme_append {scheme : Str} (h : IsScheme scheme) (rest : Str) :
    splitScheme (scheme ++ ':' :: rest) = (scheme, rest) := by
  have hcolon : ':' ∉ scheme := by
    intro hmem
    exact absurd (List.all_eq_true.mp h.chars ':' hmem) (by decide)
  unfold splitScheme
  rw [Str.partition_append_cons hcolon]
  simp [h.lower, h.head, h.chars]

/-- After a web scheme there is a network location. -/
lemma splitScheme_of_hasWebScheme (h : HasWebScheme url) :
    ['/', '/'] <+: (splitScheme
      ((url.dropWhile (·.toNat ≤ 32)).filter (· ∉ ['\t', '\r', '\n']))).2 := by
  rcases h with ⟨rest, rfl⟩ | ⟨rest, rfl⟩
  · have hclean : (("http://".toList ++ rest).dropWhile (·.toNat ≤ 32)).filter
        (· ∉ ['\t', '\r', '\n']) =
        ("http" : Str) ++ ':' :: '/' :: '/' :: rest.filter (· ∉ ['\t', '\r', '\n']) := rfl
    rw [hclean, splitScheme_append (isScheme_of_mem (by decide))]
    exact ⟨_, rfl⟩
  · have hclean : (("https://".toList ++ rest).dropWhile (·.toNat ≤ 32)).filter
        (· ∉ ['\t', '\r', '\n']) =
        ("https" : Str) ++ ':' :: '/' :: '/' :: rest.filter (· ∉ ['\t', '\r', '\n']) := rfl
    rw [hclean, splitScheme_append (isScheme_of_mem (by decide))]
    exact ⟨_, rfl⟩

/-- The parts of a web URL are read off the text after its scheme. -/
lemma exists_of_urlparse (h : urlparse ucd bracketed url = some parsed) (hweb : HasWebScheme url) :
    ∃ rest : Str, parsed.netloc = rest.takeWhile (· ∉ ['/', '?', '#']) ∧
      ∃ path, path = ((rest.dropWhile (· ∉ ['/', '?', '#'])).takeWhile (· ≠ '#')).takeWhile
          (· ≠ '?') ∧ (parsed.path = path ∨ parsed.path = splitParams path) := by
  unfold urlparse at h
  dsimp only at h
  rw [if_pos (splitScheme_of_hasWebScheme hweb)] at h
  dsimp only at h
  split_ifs at h with hvalid hparams
  · obtain rfl := Option.some.inj h
    exact ⟨_, rfl, _, rfl, Or.inr rfl⟩
  · obtain rfl := Option.some.inj h
    exact ⟨_, rfl, _, rfl, Or.inl rfl⟩

/-- The parameters are at the end of the path. -/
lemma head?_splitParams (path : Str) : (splitParams ('/' :: path)).head? = some '/' := by
  have hsuffix : Str.afterLast '/' ('/' :: path) <:+ '/' :: path := List.rtakeWhile_suffix _ _
  have hlength : (Str.afterLast '/' ('/' :: path)).length ≠ ('/' :: path).length := by
    intro hlength
    have hmem : '/' ∈ ('/' :: path).rtakeWhile (· ≠ '/') := by
      rw [show ('/' :: path).rtakeWhile (· ≠ '/') = _ from hsuffix.eq_of_length hlength]
      exact List.mem_cons_self ..
    have hslash := List.mem_rtakeWhile_imp hmem
    simp at hslash
  have hle := hsuffix.length_le
  rw [List.length_cons] at hlength hle
  unfold splitParams
  dsimp only
  rw [List.length_cons, show path.length + 1 - (Str.afterLast '/' ('/' :: path)).length =
    path.length - (Str.afterLast '/' ('/' :: path)).length + 1 by omega, List.take_succ_cons]
  rfl

/-- The path of a web URL is empty or begins with a slash. -/
lemma urlparse_path (h : urlparse ucd bracketed url = some parsed) (hweb : HasWebScheme url) :
    parsed.path = [] ∨ parsed.path.head? = some '/' := by
  obtain ⟨rest, -, path, hpath, hparsed⟩ := exists_of_urlparse h hweb
  have hhead := List.head?_dropWhile_not (· ∉ ['/', '?', '#']) rest
  have hslash : path = [] ∨ ∃ segments, path = '/' :: segments := by
    rw [hpath]
    cases hrest : rest.dropWhile (· ∉ ['/', '?', '#']) with
    | nil => exact Or.inl rfl
    | cons c tail =>
      rw [hrest] at hhead
      have hc : c ∈ ['/', '?', '#'] := by simpa [or_iff_not_imp_left] using hhead
      simp only [List.mem_cons, List.not_mem_nil, or_false] at hc
      rcases hc with rfl | rfl | rfl
      · exact Or.inr ⟨_, rfl⟩
      · exact Or.inl rfl
      · exact Or.inl rfl
  rcases hslash with rfl | ⟨segments, rfl⟩
  · exact Or.inl (hparsed.elim id id)
  · refine Or.inr ?_
    rcases hparsed with hparsed | hparsed
    · rw [hparsed]
      rfl
    · rw [hparsed]
      exact head?_splitParams segments

/-- The network location of a web URL ends at the first slash. -/
lemma slash_notMem_netloc (h : urlparse ucd bracketed url = some parsed)
    (hweb : HasWebScheme url) : '/' ∉ parsed.netloc := by
  obtain ⟨rest, hnetloc, -⟩ := exists_of_urlparse h hweb
  intro hmem
  rw [hnetloc] at hmem
  exact absurd (List.mem_takeWhile_imp hmem) (by decide)

/-- A host has no slash. -/
lemma ParsedUrl.slash_notMem_hostname (h : '/' ∉ parsed.netloc) : '/' ∉ parsed.hostname ucd := by
  have hinfo : '/' ∉ parsed.netloc.afterLast '@' :=
    fun hmem => h ((List.rtakeWhile_suffix _ _).subset hmem)
  have hpartition : ∀ (sep : Char) (s : Str), '/' ∉ s →
      '/' ∉ (s.partition sep).1 ∧ '/' ∉ (s.partition sep).2 := fun sep s hs =>
    ⟨fun hmem => hs ((List.takeWhile_prefix _).subset hmem), fun hmem =>
      hs ((List.dropWhile_suffix _).subset (List.mem_of_mem_tail hmem))⟩
  unfold hostname
  dsimp only
  generalize hhost : (if '[' ∈ parsed.netloc.afterLast '@' then _ else _ : Str) = host
  have hslash : '/' ∉ host := by
    rw [← hhost]
    split_ifs
    · exact (hpartition _ _ (hpartition _ _ hinfo).2).1
    · exact (hpartition _ _ hinfo).1
  rw [List.mem_append, not_or]
  exact ⟨fun hmem => hslash ((List.takeWhile_prefix _).subset
      (ucd.mem_of_mem_lower (by decide) (by decide) hmem)),
    fun hmem => hslash ((List.dropWhile_suffix _).subset hmem)⟩

end Parts
