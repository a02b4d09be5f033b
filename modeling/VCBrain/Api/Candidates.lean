import VCBrain.Collectors.Persistence
import VCBrain.Db.Models
import VCBrain.Foundation.Base64
import VCBrain.Foundation.CompactJson
import VCBrain.Foundation.Datetime
import VCBrain.Foundation.Keyset
import VCBrain.Foundation.OrderBy
import VCBrain.Foundation.Unicode
import VCBrain.Foundation.UuidText

set_option relaxedAutoImplicit false
set_option autoImplicit false

/-!
# The list of candidates

`list_candidates` returns the canonical persons that match the filters, newest first and some at a
time. The cursor to the next page is an opaque text of the last person and a fingerprint of the
filters.

## Main definitions

* `CandidateFilter`, `Candidate` — the filters, and the persons that match them.
* `encodeCandidateCursor`, `decodeCandidateCursor` — the cursor.
* `listCandidates` — a page.
* `followCandidates` — the pages from a cursor on.

## Main results

* `candidate_pages_complete` — the pages list every matching person once.

## Design

The database does not change between the pages. A page shows its rows of `persons`; what a response
adds to them is left out. The digest, the text of a `JSONB` value, `lower` of the database and
`repr` are parameters. A search has no NUL, which the database refuses in a text.
-/

namespace VCBrain

/-! ## Texts -/

/-- `bytes.decode()`. -/
def utf8Decode (bytes : List UInt8) : Option Str :=
  bytes.toByteArray.utf8Decode?.map Array.toList

lemma utf8Decode_utf8 (s : Str) : utf8Decode (utf8 s) = some s := by
  have hbytes : (utf8 s).toByteArray = s.utf8Encode := rfl
  rw [utf8Decode, hbytes, List.utf8Decode?_utf8Encode, Option.map_some]

/-- `text LIKE pattern`: `%` stands for any text and `_` for a character, and a backslash takes the
next character literally. -/
def sqlLike : Str → Str → Bool
  | [], text => text.isEmpty
  | '%' :: pattern, text => text.tails.any (sqlLike pattern)
  | '_' :: pattern, text => match text with
    | [] => false
    | _ :: text => sqlLike pattern text
  | '\\' :: c :: pattern, text => match text with
    | [] => false
    | d :: text => d = c && sqlLike pattern text
  | c :: pattern, text => match text with
    | [] => false
    | d :: text => d = c && sqlLike pattern text

example : sqlLike "%10\\%%" "at 10% now" = true := by decide

/-! ## The query -/

/-- What the list takes from outside. -/
structure CandidateEnv where
  ucd : Ucd
  /-- `hashlib.sha256(bytes).hexdigest()`. -/
  sha256 : List UInt8 → Str
  /-- `lower` of the database. -/
  lower : Str → Str
  /-- `CAST(handles AS VARCHAR)`. -/
  handlesText : Option (Dict Str) → Option Str
  /-- `repr` of a value that is no text. -/
  repr : Json → Str

/-- The parameters `origin`, `stage` and, normalized, `search`. -/
structure CandidateFilter where
  origin : Option Str
  stage : Option Stage
  search : Option Str
deriving DecidableEq

/-- `_normalize_search`. -/
def normalizeSearch (ucd : Ucd) (value : Option Str) : Option Str :=
  let normalized := ucd.casefold (List.intercalate " " (value.getD []).words)
  if normalized = [] then none else some normalized

/-- `_latest_opportunity_rows` with `row_number == 1`: the latest opportunity of a person. -/
def latestOpportunityRow (db : Db) (personId : Uuid) : Option Opportunity :=
  latest (fun o => toLex (o.createdAt, o.id))
    ((db.opportunityFounders.filter fun link => link.personId = personId).filterMap fun link =>
      db.opportunity? link.opportunityId)

/-- `func.lower(value).like(like)`, which is not true of a null. -/
def lowerLike (lower : Str → Str) (like : Str) (value : Option Str) : Bool :=
  value.any fun text => sqlLike like (lower text)

/-- `observation_match`. -/
def observationMatch (lower : Str → Str) (db : Db) (like : Str) (personId : Uuid) : Bool :=
  db.observations.any fun o => db.sourceSnapshots.any fun snapshot =>
    snapshot.id = o.snapshotId && o.subjectId = some personId &&
      (lowerLike lower like (some o.objectValue) || lowerLike lower like (some o.predicate) ||
        lowerLike lower like (some snapshot.sourceType) || lowerLike lower like (some snapshot.uri))

/-- The conditions on the text of the search. -/
def searchMatch (env : CandidateEnv) (db : Db) (search : Str) (opportunity : Option Opportunity)
    (p : Person) : Bool :=
  let like := "%".toList ++ search ++ "%"
  lowerLike env.lower like p.displayName || lowerLike env.lower like (some p.stableId) ||
    lowerLike env.lower like p.email || lowerLike env.lower like (env.handlesText p.handles) ||
    lowerLike env.lower like (opportunity.map Opportunity.companyName) ||
    observationMatch env.lower db like p.id

/-- A candidate under the filters: the conditions of `_candidate_query` on a person, without the
cursor. The latest opportunity is joined, for a search alone by an outer join. -/
def Candidate (env : CandidateEnv) (db : Db) (f : CandidateFilter) (p : Person) : Prop :=
  let opportunity := latestOpportunityRow db p.id
  p.canonical = true ∧
    (filled f.origin = true → opportunity.map Opportunity.sourceKind = f.origin) ∧
    (f.stage.isSome = true → opportunity.map Opportunity.lifecycleState = f.stage) ∧
    (filled f.search = true → ∀ search ∈ f.search, searchMatch env db search opportunity p = true)

instance (env : CandidateEnv) (db : Db) (f : CandidateFilter) :
    DecidablePred (Candidate env db f) :=
  fun _ => inferInstanceAs (Decidable (_ ∧ _))

/-- The order of the list. -/
def candidateKey (p : Person) : Time ×ₗ Uuid := toLex (p.createdAt, p.id)

/-- The condition on the rows behind a cursor. -/
def behindCursor (cursor : Option (Time × Uuid)) (p : Person) : Prop :=
  ∀ c ∈ cursor, p.createdAt < c.1 ∨ p.createdAt = c.1 ∧ p.id < c.2

instance (cursor : Option (Time × Uuid)) : DecidablePred (behindCursor cursor) :=
  fun _ => inferInstanceAs (Decidable (∀ c ∈ cursor, _))

/-- `_candidate_query`, without its order. -/
def candidateQuery (env : CandidateEnv) (db : Db) (f : CandidateFilter)
    (cursor : Option (Time × Uuid)) : List Person :=
  (db.persons.filter fun p => Candidate env db f p).filter fun p => behindCursor cursor p

/-! ## The cursor -/

/-- A text or `null`. -/
def optionJson (value : Option Str) : Json := value.elim .null .str

/-- The filters as the fingerprint reads them, by sorted keys. -/
def CandidateFilter.payload (f : CandidateFilter) : List (Str × Json) :=
  [("origin", optionJson f.origin), ("search", optionJson f.search),
    ("stage", optionJson (f.stage.map Stage.key))]

/-- What is digested. -/
def CandidateFilter.bytes (f : CandidateFilter) : List UInt8 := utf8 (Json.compact f.payload)

/-- `_cursor_fingerprint`. -/
def cursorFingerprint (env : CandidateEnv) (f : CandidateFilter) : Str :=
  (env.sha256 f.bytes).take 16

/-- `_encode_candidate_cursor`. -/
def encodeCandidateCursor (env : CandidateEnv) (f : CandidateFilter) (p : Person) : Str :=
  Base64.strip (Base64.encode (utf8 (Json.compact
    [("created_at", .str (Datetime.isoformat p.createdAt)), ("id", .str p.id.str),
      ("fingerprint", .str (cursorFingerprint env f))])))

/-- Why a cursor is rejected, with status 400. -/
inductive CursorError where
  | invalid
  | otherFilters
deriving DecidableEq

/-- The detail of the response. -/
def CursorError.detail : CursorError → Str
  | invalid => "Invalid candidate cursor"
  | otherFilters => "Candidate cursor does not match filters"

/-- The fields of a cursor: the instant, the id and the fingerprint. -/
def cursorFields (env : CandidateEnv) (cursor : Str) : Option (Time × Uuid × Str) := do
  let bytes ← Base64.decode (Base64.pad cursor)
  let payload ← (utf8Decode bytes).bind Json.loads
  let createdAt ← payload.get? "created_at"
  let createdAt ← Datetime.fromisoformat (createdAt.pyStr env.repr)
  let id ← payload.get? "id"
  let id ← Uuid.parse (id.pyStr env.repr)
  let fingerprint ← payload.get? "fingerprint"
  return (createdAt, id, fingerprint.pyStr env.repr)

/-- `_decode_candidate_cursor`. -/
def decodeCandidateCursor (env : CandidateEnv) (f : CandidateFilter) (cursor : Str) :
    Except CursorError (Time × Uuid) :=
  match cursorFields env cursor with
  | none => .error .invalid
  | some (createdAt, id, fingerprint) =>
    if fingerprint ≠ cursorFingerprint env f then .error .otherFilters else .ok (createdAt, id)

/-! ## The list -/

/-- The parameters of a request, without the cursor. -/
structure CandidateRequest where
  limit : ℕ
  search : Option Str := none
  q : Option Str := none
  origin : Option Str := none
  stage : Option Stage := none

/-- The filters of a request. -/
def CandidateRequest.filters (req : CandidateRequest) (ucd : Ucd) : CandidateFilter :=
  ⟨req.origin, req.stage, normalizeSearch ucd (req.search.or req.q)⟩

/-- `CandidateListResponse`; a caller that does not ask for the first version gets the items. -/
structure CandidateListResponse where
  items : List Person
  nextCursor : Option Str
  totalCount : ℕ
  limit : ℕ
  search : Option Str
  origin : Option Str
  stage : Option Stage

/-- The response, once the cursor is read. -/
def candidatePage (env : CandidateEnv) (db : Db) (req : CandidateRequest)
    (decoded : Option (Time × Uuid)) : CandidateListResponse :=
  let f := req.filters env.ucd
  let totalCount := (candidateQuery env db f none).length
  let found := (Keyset.sorted candidateKey (candidateQuery env db f decoded)).take (req.limit + 1)
  let persons := found.take req.limit
  { items := persons
    nextCursor :=
      if found.length > req.limit then persons.getLast?.map (encodeCandidateCursor env f) else none
    totalCount := totalCount
    limit := req.limit
    search := f.search
    origin := f.origin
    stage := f.stage }

/-- `list_candidates`. -/
def listCandidates (env : CandidateEnv) (db : Db) (req : CandidateRequest) (cursor : Option Str) :
    Except CursorError CandidateListResponse := do
  let decoded ← if filled cursor then
    (decodeCandidateCursor env (req.filters env.ucd) (cursor.getD [])).map some else pure none
  return candidatePage env db req decoded

/-- The pages that a client gets who follows `next_cursor`; `none` if a request fails or there are
more pages. -/
def followCandidates (env : CandidateEnv) (db : Db) (req : CandidateRequest) :
    ℕ → Option Str → Option (List CandidateListResponse)
  | 0, _ => none
  | fuel + 1, cursor =>
    match listCandidates env db req cursor with
    | .error _ => none
    | .ok page =>
      if page.nextCursor = none then some [page]
      else (followCandidates env db req fuel page.nextCursor).map (page :: ·)

/-! ## Reading a cursor -/

section Cursor

variable (env : CandidateEnv) (f : CandidateFilter) {p : Person}

/-- The fields of a cursor are read back. -/
lemma cursorFields_encode (ht : Datetime.InRange p.createdAt) :
    cursorFields env (encodeCandidateCursor env f p) =
      some (p.createdAt, p.id, cursorFingerprint env f) := by
  have hfields : Json.wellFormed (.obj [("created_at", .str (Datetime.isoformat p.createdAt)),
      ("id", .str p.id.str), ("fingerprint", .str (cursorFingerprint env f))]) = true := by
    simp only [Json.wellFormed, Json.wellFormedFields, List.map_cons, List.map_nil]
    decide
  unfold cursorFields encodeCandidateCursor
  simp only [bind, Base64.decode_pad_strip_encode, Option.bind_some, utf8Decode_utf8,
    Json.loads_compact hfields]
  rw [show Json.get? "created_at" _ = some (.str (Datetime.isoformat p.createdAt)) from rfl,
    show Json.get? "id" _ = some (.str p.id.str) from rfl,
    show Json.get? "fingerprint" _ = some (.str (cursorFingerprint env f)) from rfl]
  simp only [Option.bind_some, Json.pyStr, Datetime.fromisoformat_isoformat ht, Uuid.parse_str]
  rfl

/-- A cursor is no empty text. -/
lemma filled_encodeCandidateCursor (p : Person) :
    filled (some (encodeCandidateCursor env f p)) = true := by
  have key : encodeCandidateCursor env f p ≠ [] := by
    intro hnil
    have hread := Base64.decode_pad_strip_encode (utf8 (Json.compact
      [("created_at", .str (Datetime.isoformat p.createdAt)), ("id", .str p.id.str),
        ("fingerprint", .str (cursorFingerprint env f))]))
    unfold encodeCandidateCursor at hnil
    rw [hnil, show Base64.decode (Base64.pad []) = some [] from rfl, Option.some.injEq] at hread
    have htext := utf8Decode_utf8 (Json.compact
      [("created_at", .str (Datetime.isoformat p.createdAt)), ("id", .str p.id.str),
        ("fingerprint", .str (cursorFingerprint env f))])
    rw [← hread, show utf8Decode [] = some [] by decide] at htext
    cases htext
  rw [filled, Bool.not_eq_true', List.isEmpty_eq_false_iff]
  exact key

/-- Under the same filters a cursor is its row. -/
lemma decodeCandidateCursor_encode (ht : Datetime.InRange p.createdAt) :
    decodeCandidateCursor env f (encodeCandidateCursor env f p) = .ok (p.createdAt, p.id) := by
  rw [decodeCandidateCursor, cursorFields_encode env f ht]
  exact if_neg (not_not_intro rfl)

/-- Different filters are digested as different texts. -/
lemma CandidateFilter.bytes_injective : Function.Injective CandidateFilter.bytes := by
  intro f g h
  have hwell : ∀ f : CandidateFilter, Json.wellFormed (.obj f.payload) = true := by
    have hvalue : ∀ v, (optionJson v).wellFormed = true := by rintro (_ | _) <;> rfl
    intro f
    simp only [payload, Json.wellFormed, Json.wellFormedFields, List.map_cons, List.map_nil,
      hvalue]
    decide
  have htext : Json.compact f.payload = Json.compact g.payload := by
    have hf := utf8Decode_utf8 (Json.compact f.payload)
    rw [show utf8 (Json.compact f.payload) = utf8 (Json.compact g.payload) from h,
      utf8Decode_utf8] at hf
    exact (Option.some.inj hf).symm
  have hpayload := Json.compact_injOn (hwell f) (hwell g) htext
  have hjson : Function.Injective optionJson := by
    rintro (_ | a) (_ | b) hab <;> cases hab <;> rfl
  simp only [payload, List.cons.injEq, Prod.mk.injEq, true_and, and_true] at hpayload
  obtain ⟨horigin, hsearch, hstage⟩ := hpayload
  obtain ⟨origin, stage, search⟩ := f
  obtain ⟨origin', stage', search'⟩ := g
  obtain rfl := hjson horigin
  obtain rfl := hjson hsearch
  obtain rfl := Option.map_injective Stage.key_injective (hjson hstage)
  rfl

/-- Other filters reject a cursor, unless two texts have the same first digits of the digest. -/
lemma decodeCandidateCursor_of_ne {f g : CandidateFilter} (ht : Datetime.InRange p.createdAt)
    (hne : g ≠ f) :
    decodeCandidateCursor env g (encodeCandidateCursor env f p) = .error .otherFilters ∨
      g.bytes ≠ f.bytes ∧ (env.sha256 g.bytes).take 16 = (env.sha256 f.bytes).take 16 := by
  by_cases hdigest : cursorFingerprint env f = cursorFingerprint env g
  · exact Or.inr ⟨CandidateFilter.bytes_injective.ne hne, hdigest.symm⟩
  · refine Or.inl ?_
    rw [decodeCandidateCursor, cursorFields_encode env f ht]
    exact if_pos hdigest

end Cursor

/-! ## Following the cursor -/

section Pages

variable {env : CandidateEnv} {db : Db} {f : CandidateFilter} {req : CandidateRequest}

/-- The query asks for the candidates behind the key. -/
lemma candidateQuery_eq (env : CandidateEnv) (db : Db) (f : CandidateFilter)
    (last : Option Person) :
    candidateQuery env db f (last.map fun p => (p.createdAt, p.id)) =
      Keyset.behind candidateKey (last.map candidateKey)
        (db.persons.filter fun p => Candidate env db f p) := by
  unfold candidateQuery Keyset.behind
  refine List.filter_congr fun p _ => decide_eq_decide.mpr ?_
  cases last with
  | none => simp [behindCursor]
  | some q => simp [behindCursor, candidateKey, Prod.Lex.toLex_lt_toLex]

/-- The candidates of a request. -/
def CandidateRequest.candidates (req : CandidateRequest) (env : CandidateEnv) (db : Db) :
    List Person :=
  db.persons.filter fun p => Candidate env db (req.filters env.ucd) p

/-- A cursor leads to the page behind its row. -/
lemma listCandidates_encode (env : CandidateEnv) (req : CandidateRequest)
    (htimes : ∀ p ∈ db.persons, Datetime.InRange p.createdAt) {last : Option Person}
    (hlast : ∀ p ∈ last, p ∈ db.persons) :
    listCandidates env db req (last.map (encodeCandidateCursor env (req.filters env.ucd))) =
      .ok (candidatePage env db req (last.map fun p => (p.createdAt, p.id))) := by
  unfold listCandidates
  cases last with
  | none => rfl
  | some p =>
    rw [Option.map_some, if_pos (filled_encodeCandidateCursor env _ p), Option.getD_some,
      decodeCandidateCursor_encode env _ (htimes p (hlast p rfl))]
    rfl

/-- A page counts the candidates. -/
lemma totalCount_candidatePage (env : CandidateEnv) (db : Db) (req : CandidateRequest)
    (decoded : Option (Time × Uuid)) :
    (candidatePage env db req decoded).totalCount = (req.candidates env db).length :=
  congrArg List.length (List.filter_eq_self.mpr fun p _ => decide_eq_true fun c hc => by cases hc)

/-- A page of the list is a page of the candidates, and its cursor is the last row of it. -/
lemma exists_next_candidatePage (env : CandidateEnv) (db : Db) (req : CandidateRequest)
    (last : Option Person) :
    ∃ next : Option Person, (∀ p ∈ next, p ∈ db.persons) ∧
      (candidatePage env db req (last.map fun p => (p.createdAt, p.id))).nextCursor =
        next.map (encodeCandidateCursor env (req.filters env.ucd)) ∧
      Keyset.page candidateKey req.limit (req.candidates env db) (last.map candidateKey) =
        ((candidatePage env db req (last.map fun p => (p.createdAt, p.id))).items,
          next.map candidateKey) := by
  unfold candidatePage
  dsimp only
  rw [candidateQuery_eq, ← CandidateRequest.candidates]
  set found := (Keyset.sorted candidateKey (Keyset.behind candidateKey (last.map candidateKey)
    (req.candidates env db))).take (req.limit + 1) with hfound
  refine ⟨if found.length > req.limit then (found.take req.limit).getLast? else none, ?_, ?_, ?_⟩
  · intro p hp
    split_ifs at hp
    · have hsorted := List.mem_of_mem_take (List.mem_of_mem_take (List.mem_of_getLast? hp))
      have hbehind := Keyset.mem_sorted.mp hsorted
      exact (List.mem_filter.mp (List.mem_filter.mp hbehind).1).1
    · cases hp
  · show (if found.length > req.limit then _ else _) = _
    split_ifs <;> rfl
  · refine Prod.ext rfl ?_
    show (if found.length > req.limit then _ else _) = Option.map candidateKey _
    split_ifs <;> rfl

/-- Who follows the cursor gets the pages of the candidates. -/
lemma followCandidates_eq (env : CandidateEnv) (req : CandidateRequest)
    (htimes : ∀ p ∈ db.persons, Datetime.InRange p.createdAt) (fuel : ℕ) {last : Option Person}
    (hlast : ∀ p ∈ last, p ∈ db.persons) {ps : List (List Person)}
    (hps : Keyset.pages candidateKey req.limit (req.candidates env db) fuel
      (last.map candidateKey) = some ps) :
    ∃ pages, followCandidates env db req fuel
        (last.map (encodeCandidateCursor env (req.filters env.ucd))) = some pages ∧
      pages.map CandidateListResponse.items = ps ∧
      ∀ page ∈ pages, page.totalCount = (req.candidates env db).length := by
  induction fuel generalizing last ps with
  | zero => cases hps
  | succ fuel ih =>
    obtain ⟨next, hnext, hcursor, hpage⟩ := exists_next_candidatePage env db req last
    have htotal := totalCount_candidatePage env db req (last.map fun p => (p.createdAt, p.id))
    rw [followCandidates, listCandidates_encode env req htimes hlast]
    rw [Keyset.pages, hpage] at hps
    dsimp only at hps ⊢
    generalize candidatePage env db req (last.map fun p => (p.createdAt, p.id)) = page at *
    rw [hcursor]
    cases next with
    | none =>
      obtain rfl := Option.some.inj hps
      refine ⟨[page], if_pos rfl, rfl, ?_⟩
      rintro _ (_ | ⟨_, ⟨⟩⟩)
      exact htotal
    | some p =>
      obtain ⟨qs, hqs, rfl⟩ := Option.map_eq_some_iff.mp hps
      obtain ⟨pages, hpages, hitems, hcounts⟩ := ih hnext hqs
      refine ⟨page :: pages, ?_, ?_, ?_⟩
      · rw [if_neg (by simp), hpages, Option.map_some]
      · rw [List.map_cons, hitems]
      · rintro _ (_ | ⟨_, hmem⟩)
        · exact htotal
        · exact hcounts _ hmem

/-- Persons have different keys. -/
lemma nodup_candidateKey (hids : KeyUnique Person.id db.persons) (env : CandidateEnv)
    (req : CandidateRequest) : ((req.candidates env db).map candidateKey).Nodup := by
  refine List.Nodup.of_map (fun k => (ofLex k).2) ?_
  rw [List.map_map]
  exact hids.sublist (List.filter_sublist.map _)

/-- **Every page of candidates.** Whoever follows the cursor from the first page on comes to an end
and gets every candidate once, newest first, and every page counts them. A cursor is read back under
the same filters, and is rejected under others unless two texts share the digits of their digest.

**Proof sketch.** A cursor that is read back is the row it was made of
(`decodeCandidateCursor_encode`), so the pages are those of the candidates by their keys
(`followCandidates_eq`), which end and are the sorted candidates (`Keyset.exists_pages`). The texts
of different filters differ (`CandidateFilter.bytes_injective`). -/
theorem candidate_pages_complete (env : CandidateEnv) {db : Db}
    (hids : KeyUnique Person.id db.persons)
    (htimes : ∀ p ∈ db.persons, Datetime.InRange p.createdAt) (req : CandidateRequest)
    (hlimit : 1 ≤ req.limit) :
    (∀ fuel > db.persons.length, ∃ pages : List CandidateListResponse,
      followCandidates env db req fuel none = some pages ∧
      (pages.flatMap CandidateListResponse.items).Pairwise (fun p q =>
        q.createdAt < p.createdAt ∨ q.createdAt = p.createdAt ∧ q.id < p.id) ∧
      (∀ p, p ∈ pages.flatMap CandidateListResponse.items ↔
        p ∈ db.persons ∧ Candidate env db (req.filters env.ucd) p) ∧
      ∀ page ∈ pages, page.totalCount = (pages.flatMap CandidateListResponse.items).length) ∧
    ∀ p ∈ db.persons, ∀ f : CandidateFilter,
      decodeCandidateCursor env f (encodeCandidateCursor env f p) = .ok (p.createdAt, p.id) ∧
      ∀ g ≠ f,
        decodeCandidateCursor env g (encodeCandidateCursor env f p) = .error .otherFilters ∨
        g.bytes ≠ f.bytes ∧ (env.sha256 g.bytes).take 16 = (env.sha256 f.bytes).take 16 := by
  refine ⟨fun fuel hfuel => ?_, fun p hp f => ⟨decodeCandidateCursor_encode env f (htimes p hp),
    fun g hne => decodeCandidateCursor_of_ne env (htimes p hp) hne⟩⟩
  have hkeys := nodup_candidateKey hids env req
  have hall : Keyset.behind candidateKey none (req.candidates env db) = req.candidates env db :=
    List.filter_eq_self.mpr fun p _ => decide_eq_true fun c hc => by cases hc
  have hlength : (Keyset.sorted candidateKey (Keyset.behind candidateKey none
      (req.candidates env db))).length < fuel := by
    rw [hall, (Keyset.perm_sorted _).length_eq]
    exact lt_of_le_of_lt (List.length_filter_le _ _) hfuel
  obtain ⟨ps, hps, hflatten⟩ := Keyset.exists_pages hkeys hlimit hlength
  obtain ⟨pages, hpages, rfl, hcounts⟩ :=
    @followCandidates_eq db env req htimes fuel none (fun p hp => by cases hp) _ hps
  rw [hall] at hflatten
  refine ⟨pages, hpages, ?_, fun p => ?_, fun page hpage => ?_⟩
  · rw [List.flatMap_def, hflatten]
    refine (Keyset.pairwise_sorted hkeys).imp fun {p q} hlt => ?_
    exact (Prod.Lex.toLex_lt_toLex ..).mp hlt
  · rw [List.flatMap_def, hflatten, Keyset.mem_sorted, CandidateRequest.candidates,
      List.mem_filter, decide_eq_true_eq]
  · rw [hcounts page hpage, List.flatMap_def, hflatten, (Keyset.perm_sorted _).length_eq]

/-- A digest that counts bytes. -/
private def tiesEnv : CandidateEnv where
  ucd := Ucd.ascii
  sha256 := fun bytes => Str.hex 64 bytes.length
  lower := fun text => text.map Char.toLower
  handlesText := fun _ => none
  repr := fun _ => []

/-- Two of three persons were created at the same time. -/
private def tiesDb : Db where
  persons := [{ id := 1, stableId := "a", createdAt := 0 },
    { id := 2, stableId := "b", createdAt := 0 }, { id := 3, stableId := "c", createdAt := -1 }]

/-- Pages of one candidate list all three. -/
theorem candidate_pages_complete_ties : ∃ pages,
    followCandidates tiesEnv tiesDb { limit := 1 } 4 none = some pages ∧
      ∀ p ∈ tiesDb.persons, p ∈ pages.flatMap CandidateListResponse.items := by
  have htimes : ∀ p ∈ tiesDb.persons, Datetime.InRange p.createdAt := by
    simp only [tiesDb, List.forall_mem_cons, Datetime.InRange]
    decide
  have hids : KeyUnique Person.id tiesDb.persons := by
    unfold KeyUnique tiesDb
    decide
  have hall : ∀ p ∈ tiesDb.persons, Candidate tiesEnv tiesDb ⟨none, none, none⟩ p := by
    simp [tiesDb, Candidate, filled]
  obtain ⟨hpages, -⟩ := candidate_pages_complete tiesEnv hids htimes { limit := 1 } (le_refl 1)
  obtain ⟨pages, hfollow, -, hmem, -⟩ := hpages 4 (by decide)
  exact ⟨pages, hfollow, fun p hp => (hmem p).mpr ⟨hp, hall p hp⟩⟩

end Pages

end VCBrain
