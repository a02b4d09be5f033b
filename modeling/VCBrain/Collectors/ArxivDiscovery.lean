import Mathlib.Data.Finset.Card
import VCBrain.Collectors.DiscoverJob
import VCBrain.Foundation.Unicode

set_option relaxedAutoImplicit false
set_option autoImplicit false

/-!
# Discovery on arXiv

The connector asks for fifty papers a page and returns every author of them as a seed, each name
once. The collector accepts at most a hundred seeds a page. The discovery job returns a page that
was not accepted, so that the next run asks for it again.

## Main definitions

* `Seed`, `validateDiscovered` — a seed, and what the collector accepts.
* `arxivDiscover` — the seeds of a page.
* `trackerAfter`, `Asks` — the tracker of a query after runs, and the pages that runs ask for.

## Main results

* `asks_iff` — a page is asked for exactly if all pages before it are accepted.
* `arxivAsks_iff` — on arXiv, exactly if no page before it names more than a hundred authors.

## Design

The XML library and the server of citations are parameters, and so is the classification of an error
by its message. Seeds are typed, so that the checks of the types of their fields are left out. Runs
follow each other, and the answers to a page do not change.
-/

namespace VCBrain

/-! ## Seeds -/

/-- `Seed`. -/
structure Seed where
  sourceType : Str
  handle : Str
  displayHint : Str := []
  metadata : List (Str × Json) := []

/-- `MAX_DISCOVERY_PAGE_SIZE`. -/
def maxDiscoveryPageSize : ℕ := 100

/-- `ConnectorError(message)`, classified by its message. -/
def connectorError (classify : Str → FailureKind × Bool) (message : Str) : ConnectorError where
  message := message
  failureKind := (classify message).1
  retryable := (classify message).2

/-- The loop over the seeds of a page from an index on: the message of the first error. -/
def seedError (index : ℕ) : List Seed → Option Str
  | [] => none
  | seed :: seeds =>
    let at_ := "connector discovery seed ".toList ++ Str.decimal index
    if seed.sourceType.strip = [] then some (at_ ++ " is missing source_type".toList)
    else if seed.handle.strip = [] then some (at_ ++ " is missing handle".toList)
    else seedError (index + 1) seeds

/-- `validate_discovered`. -/
def validateDiscovered (seeds : List Seed) : Except Str (List Seed) :=
  if maxDiscoveryPageSize < seeds.length then
    .error ("connector discovery page exceeds ".toList ++ Str.decimal maxDiscoveryPageSize ++
      " seeds".toList)
  else
    match seedError 0 seeds with
    | some message => .error message
    | none => .ok seeds

/-! ## The connector -/

/-- An entry of an Atom feed: the texts of its id and of the names of its authors, which are empty
where there are none. -/
structure AtomEntry where
  id : Str
  authors : List Str

/-- The answer of the API: an exception, or a status with the feed; a feed that is rejected has the
message of the error. -/
inductive ArxivReply where
  | raised (error : ConnectorError)
  | response (status : ℕ) (feed : Except Str (List AtomEntry))

/-- What the connector takes from outside. -/
structure ArxivEnv where
  ucd : Ucd
  classify : Str → FailureKind × Bool
  /-- `_fetch_citations`. -/
  citations : Str → ℕ

/-- `rstrip("/").split("/")[-1]` of the id of an entry. -/
def arxivId (entryId : Str) : Str :=
  ((List.splitOn '/' (entryId.rdropWhile (· = '/'))).getLast?).getD []

/-- The id of an entry. -/
def entryArxivId (entry : AtomEntry) : Except Str Str :=
  if entry.id.strip = [] then
    .error "arxiv_search_failed: invalid provider response: Atom entry is missing id"
  else if arxivId entry.id.strip = [] then
    .error "arxiv_search_failed: invalid provider response: Atom entry has an empty id"
  else .ok (arxivId entry.id.strip)

/-- The seed of an author. -/
def authorSeed (env : ArxivEnv) (query sourceUri : Str) (author : Str × Str) : Seed where
  sourceType := "arxiv"
  handle := author.2
  displayHint := author.2
  metadata :=
    [("arxiv_id", .str author.1), ("citations", .int (env.citations author.1)),
      ("citation_signal", .str "context_only"), ("query", .str query),
      ("source_locator", .obj [("kind", .str "api_field"), ("source_uri", .str sourceUri),
        ("field", .str "author"), ("query", .str query), ("arxiv_id", .str author.1)])]

/-- The loop over the authors: those with a name that was not seen before. -/
def freshAuthors (ucd : Ucd) (seen : List Str) : List (Str × Str) → List (Str × Str)
  | [] => []
  | author :: authors =>
    if author.2 ≠ [] ∧ ucd.lower author.2 ∉ seen then
      author :: freshAuthors ucd (ucd.lower author.2 :: seen) authors
    else freshAuthors ucd seen authors

/-- The authors of the entries, each with the id of the paper. -/
def entryAuthors : List AtomEntry → Except Str (List (Str × Str))
  | [] => .ok []
  | entry :: entries => do
    let id ← entryArxivId entry
    let rest ← entryAuthors entries
    return (entry.authors.map fun name => (id, name.strip)) ++ rest

/-- `ArxivConnector.discover`, once the API has answered. -/
def arxivDiscover (env : ArxivEnv) (query sourceUri : Str) :
    ArxivReply → Except ConnectorError (List Seed)
  | .raised error => .error error
  | .response status feed =>
    if status = 429 then .error (connectorError env.classify "arxiv_rate_limited: HTTP 429")
    else if status ≠ 200 then
      .error (connectorError env.classify
        ("arxiv_search_failed: HTTP ".toList ++ Str.decimal status))
    else
      match feed.bind entryAuthors with
      | .error message => .error (connectorError env.classify message)
      | .ok authors =>
        .ok ((freshAuthors env.ucd [] authors).map (authorSeed env query sourceUri))

/-- The seeds of a page that the collector accepts. -/
def acceptedSeeds (classify : Str → FailureKind × Bool)
    (discovered : Except ConnectorError (List Seed)) : Except ConnectorError (List Seed) :=
  discovered.bind fun seeds => (validateDiscovered seeds).mapError (connectorError classify)

/-! ## Runs -/

/-- A run of the job: its clock, its row and its result. -/
structure DiscoverRun where
  now : Time
  hasJobId : Bool
  job : Option JobRun
  result : Json

/-- The run finds no row that is settled. -/
def DiscoverRun.Fresh (run : DiscoverRun) : Prop :=
  run.hasJobId = true → ∀ job ∈ run.job, ¬ job.status.Settled

/-- The environment of a run: the provider fails with the error for which its page is not
accepted. -/
def DiscoverRun.env (source : Str) (answer : Except ConnectorError (List Seed))
    (run : DiscoverRun) : DiscoverEnv where
  source := source
  hasJobId := run.hasJobId
  now := run.now
  fails :=
    match answer with
    | .ok _ => none
    | .error error => some (.provider, .exception (.connector error))
  result := run.result

/-- The tracker of a query after a run, where `answers` are the accepted seeds of the pages. -/
def runDiscovery (source : Str) (answers : ℤ → Except ConnectorError (List Seed))
    (tracker : RawPage) (run : DiscoverRun) : RawPage :=
  ((run.env source (answers (nextDiscoveryPage tracker))).finalState tracker run.job).tracker

/-- The tracker of a query after runs. -/
def trackerAfter (source : Str) (answers : ℤ → Except ConnectorError (List Seed))
    (runs : List DiscoverRun) : RawPage :=
  runs.foldl (runDiscovery source answers) .absent

/-- After some runs the next one asks for the page. -/
def Asks (source : Str) (answers : ℤ → Except ConnectorError (List Seed)) (page : ℤ) : Prop :=
  ∃ runs : List DiscoverRun, (∀ run ∈ runs, run.Fresh) ∧
    nextDiscoveryPage (trackerAfter source answers runs) = page

/-! ## Pages -/

section Pages

open Fallible DiscoverEnv

variable {source : Str} {answers : ℤ → Except ConnectorError (List Seed)} {tracker : RawPage}
  {run : DiscoverRun}

/-- A statement is passed if nothing is raised at it. -/
lemma leads_raiseAt_of_ne {env : DiscoverEnv} {point : DiscoverPoint}
    {Q : Unit → DiscoverState → Prop} {E : Raised → DiscoverState → Prop} {s : DiscoverState}
    (h : ∀ f ∈ env.fails, f.1 ≠ point) : (env.raiseAt point).Leads Q E s ↔ Q () s := by
  have hnone : failsAt env.fails point = none := by
    unfold failsAt
    cases hfails : env.fails with
    | none => rfl
    | some f => exact if_neg (h f hfails)
  unfold raiseAt stopAt Fallible.Leads
  rw [hnone]

/-- What the environment raises at a statement. -/
lemma leads_raiseAt_of_eq {env : DiscoverEnv} {point : DiscoverPoint} {r : Raised}
    {Q : Unit → DiscoverState → Prop} {E : Raised → DiscoverState → Prop} {s : DiscoverState}
    (h : env.fails = some (point, r)) :
    (env.raiseAt point).Leads Q E s ↔ E r { s with raised := true } := by
  unfold raiseAt stopAt Fallible.Leads
  rw [failsAt_eq_some.mpr h]

section Run

variable {env : DiscoverEnv} {E : Raised → DiscoverState → Prop}

/-- The block that starts a row that is not settled keeps the reservation open. -/
lemma leads_startDiscovery_of_fresh {s : DiscoverState} (hopen : Open env tracker s)
    (hpass : ∀ point, point ≠ .provider → ∀ f ∈ env.fails, f.1 ≠ point)
    (hfresh : env.hasJobId = true → ∀ job ∈ s.job, ¬ job.status.Settled) (page : ℤ) :
    (env.startDiscovery page).Leads (fun res s' => res = none ∧ Open env tracker s') E s := by
  unfold startDiscovery commitStart setReservation
  by_cases hid : env.hasJobId = true
  · rw [if_pos hid, leads_bind, leads_raiseAt_of_ne (hpass _ (by decide)), leads_bind, leads_get]
    cases hjob : s.job with
    | none =>
      simp only [leads_bind, leads_raiseAt_of_ne (hpass .startCommit (by decide)),
        leads_raiseAt_of_ne (hpass .startClose (by decide)), leads_writeJob, leads_pure]
      exact ⟨trivial, hopen.congr rfl rfl rfl rfl⟩
    | some job =>
      have hnot : ¬ (startJob env.now "discover" job).status.Settled := by
        rw [settled_startJob_iff]
        exact hfresh hid job hjob
      obtain ⟨attempt, hreservation⟩ := hopen.reservation
      simp only [leads_bind, leads_modify, if_neg hnot,
        leads_raiseAt_of_ne (hpass .startCommit (by decide)),
        leads_raiseAt_of_ne (hpass .startClose (by decide)), leads_writeJob, leads_pure]
      exact ⟨trivial, ⟨_, by rw [hreservation]; rfl⟩, hopen.reserved, hopen.tracker,
        hopen.rollbacks⟩
  · rw [if_neg hid]
    exact ⟨rfl, hopen⟩

/-- The job up to the provider call, if its row is not settled. -/
lemma leads_discoverJobImpl_of_fresh {job : Option JobRun}
    {Q : Json → DiscoverState → Prop}
    (hpass : ∀ point, point ≠ .provider → ∀ f ∈ env.fails, f.1 ≠ point)
    (hfresh : env.hasJobId = true → ∀ j ∈ job, ¬ j.status.Settled)
    (h : ∀ s, Open env tracker s → (env.discoverSeeds (nextDiscoveryPage tracker)).Leads
      (fun res s' => (∀ result ∈ res, Q result s') ∧ (res = none → env.persistSeeds.Leads Q E s'))
      E s) :
    env.discoverJobImpl.Leads Q E (initial tracker job) := by
  unfold discoverJobImpl reservePage
  rw [leads_bind, leads_raiseAt_of_ne (hpass _ (by decide)), leads_bind,
    leads_raiseAt_of_ne (hpass _ (by decide))]
  simp only [leads_bind, leads_get, leads_modify, leads_pure]
  have hopen : Open env tracker
      { tracker := env.others (.number (nextDiscoveryPage tracker)), job := job
        reservation := some { page := nextDiscoveryPage tracker }
        reserved := some (nextDiscoveryPage tracker) } := ⟨⟨1, rfl⟩, rfl, rfl, rfl⟩
  refine (leads_startDiscovery_of_fresh (E := E) hopen hpass hfresh _).mono ?_ fun _ _ h => h
  rintro res s ⟨rfl, hs⟩
  rw [leads_bind]
  refine (h s hs).mono ?_ fun _ _ h => h
  rintro res s' ⟨hsome, hnone⟩
  cases res with
  | some result => exact hsome result rfl
  | none => exact hnone rfl

end Run

/-- A page that is accepted is kept. -/
lemma runDiscovery_of_ok (hfresh : run.Fresh) {seeds : List Seed}
    (h : answers (nextDiscoveryPage tracker) = .ok seeds) :
    runDiscovery source answers tracker run = .number (nextDiscoveryPage tracker) := by
  have hfails : (run.env source (answers (nextDiscoveryPage tracker))).fails = none := by
    rw [h]
    rfl
  have hothers : (run.env source (answers (nextDiscoveryPage tracker))).others = id := rfl
  have hid : (run.env source (answers (nextDiscoveryPage tracker))).hasJobId = run.hasJobId := rfl
  unfold runDiscovery
  generalize run.env source (answers (nextDiscoveryPage tracker)) = env at hfails hothers hid
  have hnone : ∀ point, ∀ f ∈ env.fails, f.1 ≠ point := by simp [hfails]
  suffices hleads : env.discoverJob.Leads
      (fun _ s => s.tracker = .number (nextDiscoveryPage tracker))
      (fun _ s => s.tracker = .number (nextDiscoveryPage tracker)) (initial tracker run.job) from
    leads_final.mp hleads
  unfold discoverJob
  rw [leads_exceptException, leads_bind]
  refine leads_discoverJobImpl_of_fresh (fun point _ => hnone point) (hid ▸ hfresh) fun s hs => ?_
  unfold discoverSeeds persistSeeds popReservation
  rw [leads_exceptException, leads_bind, leads_raiseAt_of_ne (hnone _), leads_pure]
  refine ⟨by simp, fun _ => ?_⟩
  simp only [leads_bind, leads_raiseAt_of_ne (hnone _), leads_get, leads_writeJob, leads_modify,
    leads_pure]
  rw [hs.tracker, hothers]
  rfl

/-- A page that is not accepted is returned. -/
lemma runDiscovery_of_error (hfresh : run.Fresh) {error : ConnectorError}
    (h : answers (nextDiscoveryPage tracker) = .error error) :
    runDiscovery source answers tracker run =
      .number (max 0 (nextDiscoveryPage tracker - 1)) := by
  have hfails : (run.env source (answers (nextDiscoveryPage tracker))).fails =
      some (.provider, .exception (.connector error)) := by
    rw [h]
    rfl
  have hothers : (run.env source (answers (nextDiscoveryPage tracker))).others = id := rfl
  have hrollback : (run.env source (answers (nextDiscoveryPage tracker))).rollbackFails = false :=
    rfl
  have hid : (run.env source (answers (nextDiscoveryPage tracker))).hasJobId = run.hasJobId := rfl
  unfold runDiscovery
  generalize run.env source (answers (nextDiscoveryPage tracker)) = env
    at hfails hothers hrollback hid
  have hpass : ∀ point, point ≠ .provider → ∀ f ∈ env.fails, f.1 ≠ point := by
    intro point hpoint f hf
    rw [hfails] at hf
    obtain rfl := Option.some.inj hf
    exact hpoint.symm
  have hunmoved : env.Unmoved (nextDiscoveryPage tracker) := by
    unfold Unmoved
    rw [hothers]
    rfl
  suffices hleads : env.discoverJob.Leads
      (fun _ s => s.tracker = .number (max 0 (nextDiscoveryPage tracker - 1)))
      (fun _ s => s.tracker = .number (max 0 (nextDiscoveryPage tracker - 1)))
      (initial tracker run.job) from leads_final.mp hleads
  unfold discoverJob
  rw [leads_exceptException, leads_bind]
  refine leads_discoverJobImpl_of_fresh hpass (hid ▸ hfresh) fun s hs => ?_
  unfold discoverSeeds popReservation
  rw [leads_exceptException, leads_bind, leads_raiseAt_of_eq hfails]
  have hopen : Open env tracker { s with raised := true } := hs.congr rfl rfl rfl rfl
  refine leads_map.mpr ((leads_failDiscovery hopen (.connector error)).mono ?_ ?_)
  · rintro result s' ⟨hclosed, -⟩
    refine ⟨fun result' _ => ?_, fun hnone => by cases hnone⟩
    simp only [leads_bind, leads_get, leads_modify, leads_pure]
    exact (hclosed.returned hrollback hunmoved).2
  · rintro _ s' ⟨⟨hclosed, reservation, hreservation, hhandled⟩, exc, rfl⟩
    have hreservation : s'.reservation = some reservation := hreservation
    dsimp only
    unfold catchFailure popReservation
    simp only [leads_bind, leads_get, leads_modify, leads_pure, hreservation, hhandled, if_true]
    refine leads_endFailure.mpr ?_
    exact (hclosed.returned hrollback hunmoved).2

/-! ### Getting past a page -/

/-- What one run makes of a tracker that points at a page before the last: it points at the next
page if that is accepted, and where it pointed if not. -/
lemma current?_runDiscovery (hfresh : run.Fresh) {n : ℤ} (hn : tracker.current? = some n)
    (hnonneg : 0 ≤ n) (hlt : n < maxDiscoveryPage) :
    (runDiscovery source answers tracker run).current? =
      some (if (answers (n + 1)).isOk then n + 1 else n) := by
  have hnext : nextDiscoveryPage tracker = n + 1 := by
    unfold nextDiscoveryPage
    rw [hn, Option.getD_some]
    exact if_neg (by omega)
  cases h : answers (n + 1) with
  | ok seeds =>
    rw [runDiscovery_of_ok hfresh (by rw [hnext]; exact h), hnext]
    rfl
  | error error =>
    rw [runDiscovery_of_error hfresh (by rw [hnext]; exact h), hnext]
    show some (max 0 (n + 1 - 1)) = some n
    rw [add_sub_cancel_right, max_eq_right hnonneg]

/-- No run gets past a page that is not accepted. -/
lemma current?_lt_of_not_accepted {page : ℤ} (hpage : 1 ≤ page) (hmax : page ≤ maxDiscoveryPage)
    (hrejected : (answers page).isOk = false) (runs : List DiscoverRun)
    (hfresh : ∀ run ∈ runs, run.Fresh) :
    ∃ n, (trackerAfter source answers runs).current? = some n ∧ 0 ≤ n ∧ n < page := by
  induction runs using List.reverseRecOn with
  | nil => exact ⟨0, rfl, le_rfl, by omega⟩
  | append_singleton runs run ih =>
    obtain ⟨n, hn, hnonneg, hlt⟩ := ih fun r hr => hfresh r (List.mem_append_left _ hr)
    have hrun : run.Fresh := hfresh run (by simp)
    refine ⟨if (answers (n + 1)).isOk then n + 1 else n, ?_, ?_, ?_⟩
    · rw [trackerAfter, List.foldl_append]
      exact current?_runDiscovery hrun hn hnonneg (by omega)
    · split_ifs <;> omega
    · split_ifs with haccepted
      · have hne : n + 1 ≠ page := by
          rintro rfl
          rw [hrejected] at haccepted
          cases haccepted
        omega
      · exact hlt

/-- As many runs as there are pages before it get to a page, if they are accepted. -/
lemma current?_of_accepted {n : ℕ} (hn : (n : ℤ) ≤ maxDiscoveryPage)
    (haccepted : ∀ q : ℤ, 1 ≤ q → q ≤ n → (answers q).isOk = true) (run : DiscoverRun)
    (hfresh : run.Fresh) :
    (trackerAfter source answers (List.replicate n run)).current? = some (n : ℤ) := by
  induction n with
  | zero => rfl
  | succ n ih =>
    have hrest := ih (by omega) fun q hq hle => haccepted q hq (by omega)
    rw [List.replicate_succ', trackerAfter, List.foldl_append]
    refine (current?_runDiscovery hfresh hrest (by omega) (by omega)).trans ?_
    rw [if_pos (haccepted (n + 1) (by omega) (by omega))]
    rfl

/-- **Getting to a page.** Some runs of the job get to ask for a page up to the tenth exactly if all
pages before it are accepted.

**Proof sketch.** A run moves the tracker to the next page only if that is accepted, and otherwise
leaves it where it was. So the tracker stays before a page that is not accepted, and moves on by one
page a run until it gets there. -/
theorem asks_iff {page : ℤ} (hpage : 1 ≤ page) (hmax : page ≤ maxDiscoveryPage) :
    Asks source answers page ↔ ∀ q, 1 ≤ q → q < page → (answers q).isOk = true := by
  constructor
  · rintro ⟨runs, hfresh, hasked⟩ q hq hlt
    by_contra hrejected
    have hrejected : (answers q).isOk = false := by simpa using hrejected
    obtain ⟨n, hn, hnonneg, hbefore⟩ :=
      @current?_lt_of_not_accepted source answers q hq (by omega) hrejected runs hfresh
    unfold nextDiscoveryPage at hasked
    rw [hn, Option.getD_some] at hasked
    have hle : ¬ maxDiscoveryPage < n + 1 := by omega
    simp only [if_neg hle] at hasked
    omega
  · intro haccepted
    let run : DiscoverRun := ⟨0, false, none, .obj []⟩
    obtain ⟨n, hn⟩ : ∃ n : ℕ, (n : ℤ) = page - 1 := ⟨(page - 1).toNat, by omega⟩
    have hfresh : run.Fresh := by
      rintro hid
      cases hid
    refine ⟨List.replicate n run, fun r hr => ?_, ?_⟩
    · rw [List.eq_of_mem_replicate hr]
      exact hfresh
    · unfold nextDiscoveryPage
      rw [current?_of_accepted (by omega) (fun q hq hle => haccepted q hq (by omega)) run hfresh,
        Option.getD_some]
      have hle : ¬ maxDiscoveryPage < (n : ℤ) + 1 := by omega
      simp only [if_neg hle]
      omega

end Pages

/-! ## Pages of arXiv -/

/-- The names that the entries of a page give to authors, the case of letters aside. -/
def authorNames (ucd : Ucd) (entries : List AtomEntry) : Finset Str :=
  ((((entries.flatMap AtomEntry.authors).map Str.strip).filter (· ≠ [])).map ucd.lower).toFinset

/-- A page that the collector accepts: the papers have ids, and at most a hundred authors. -/
def AcceptedPage (ucd : Ucd) (reply : ArxivReply) : Prop :=
  ∃ entries, reply = .response 200 (.ok entries) ∧
    (∀ entry ∈ entries, arxivId entry.id.strip ≠ []) ∧
      (authorNames ucd entries).card ≤ maxDiscoveryPageSize

section Arxiv

variable {env : ArxivEnv} {query sourceUri : Str} {entries : List AtomEntry}
  {authors : List (Str × Str)}

/-- As many authors are kept as there are names that were not seen before. -/
lemma length_freshAuthors (ucd : Ucd) (seen : List Str) (authors : List (Str × Str)) :
    (freshAuthors ucd seen authors).length =
      ((((authors.map Prod.snd).filter (· ≠ [])).map ucd.lower).toFinset \ seen.toFinset).card := by
  induction authors generalizing seen with
  | nil => simp [freshAuthors]
  | cons author authors ih =>
    unfold freshAuthors
    by_cases hname : author.2 = []
    · simp [hname, ih]
    · by_cases hseen : ucd.lower author.2 ∈ seen
      · have hnot : ¬ (author.2 ≠ [] ∧ ucd.lower author.2 ∉ seen) := fun h => h.2 hseen
        rw [if_neg hnot, ih]
        simp [hname, Finset.insert_sdiff_of_mem, hseen]
      · have hout : ucd.lower author.2 ∉
            (((authors.map Prod.snd).filter (· ≠ [])).map ucd.lower).toFinset \
              (ucd.lower author.2 :: seen).toFinset := by
          simp
        rw [if_pos ⟨hname, hseen⟩, List.length_cons, ih, ← Finset.card_insert_of_notMem hout]
        congr 1
        ext name
        by_cases hnew : name = ucd.lower author.2
        · simp [hnew, hname, hseen]
        · simp [hnew, hname]

lemma entryArxivId_eq_ok_iff {entry : AtomEntry} {id : Str} :
    entryArxivId entry = .ok id ↔ id = arxivId entry.id.strip ∧ id ≠ [] := by
  unfold entryArxivId
  by_cases hblank : entry.id.strip = []
  · have hnone : arxivId entry.id.strip = [] := by
      rw [hblank]
      rfl
    rw [if_pos hblank, hnone]
    exact iff_of_false (fun h => by cases h) fun h => h.2 h.1
  · rw [if_neg hblank]
    split_ifs with hnone
    · rw [hnone]
      exact iff_of_false (fun h => by cases h) fun h => h.2 h.1
    · rw [Except.ok.injEq, eq_comm]
      exact ⟨fun h => ⟨h, h ▸ hnone⟩, fun h => h.1⟩

/-- The authors of the entries, if all papers have an id; their names are stripped. -/
lemma entryAuthors_eq_ok_iff : entryAuthors entries = .ok authors ↔
    (∀ entry ∈ entries, arxivId entry.id.strip ≠ []) ∧
      authors = entries.flatMap fun entry =>
        entry.authors.map fun name => (arxivId entry.id.strip, name.strip) := by
  induction entries generalizing authors with
  | nil =>
    rw [entryAuthors, Except.ok.injEq, eq_comm]
    simp
  | cons entry entries ih =>
    rw [List.forall_mem_cons, List.flatMap_cons, entryAuthors]
    cases hid : entryArxivId entry with
    | error message =>
      refine iff_of_false (fun h => by cases h) fun h => ?_
      rw [entryArxivId_eq_ok_iff.mpr ⟨rfl, h.1.1⟩] at hid
      cases hid
    | ok id =>
      obtain ⟨rfl, hne⟩ := entryArxivId_eq_ok_iff.mp hid
      cases hrest : entryAuthors entries with
      | error message =>
        refine iff_of_false (fun h => by cases h) fun h => ?_
        rw [ih.mpr ⟨h.1.2, rfl⟩] at hrest
        cases hrest
      | ok rest =>
        obtain ⟨hall, rfl⟩ := ih.mp hrest
        show Except.ok _ = Except.ok authors ↔ _
        rw [Except.ok.injEq, eq_comm]
        exact ⟨fun h => ⟨⟨hne, hall⟩, h⟩, fun h => h.2⟩

lemma mem_of_mem_freshAuthors {ucd : Ucd} {seen : List Str} {author : Str × Str}
    (h : author ∈ freshAuthors ucd seen authors) : author ∈ authors ∧ author.2 ≠ [] := by
  induction authors generalizing seen with
  | nil => cases h
  | cons head authors ih =>
    unfold freshAuthors at h
    split_ifs at h with hfresh
    · rcases List.mem_cons.mp h with rfl | h
      · exact ⟨List.mem_cons_self .., hfresh.1⟩
      · exact (ih h).imp_left (List.mem_cons_of_mem _)
    · exact (ih h).imp_left (List.mem_cons_of_mem _)

/-- The seeds of authors with a name have no error. -/
lemma seedError_authorSeed (hnamed : ∀ author ∈ authors, author.2.strip ≠ []) (index : ℕ) :
    seedError index (authors.map (authorSeed env query sourceUri)) = none := by
  induction authors generalizing index with
  | nil => rfl
  | cons author authors ih =>
    obtain ⟨hauthor, hnamed⟩ := List.forall_mem_cons.mp hnamed
    have hsource : (authorSeed env query sourceUri author).sourceType.strip ≠ [] := by
      show Str.strip "arxiv" ≠ []
      decide
    have hhandle : (authorSeed env query sourceUri author).handle.strip ≠ [] := hauthor
    rw [List.map_cons, seedError, if_neg hsource, if_neg hhandle]
    exact ih hnamed (index + 1)

/-- Seeds without an error are accepted if they are not too many. -/
lemma isOk_acceptedSeeds_ok_iff {classify : Str → FailureKind × Bool} {seeds : List Seed}
    (h : seedError 0 seeds = none) :
    (acceptedSeeds classify (.ok seeds)).isOk = true ↔ seeds.length ≤ maxDiscoveryPageSize := by
  unfold acceptedSeeds
  show ((validateDiscovered seeds).mapError (connectorError classify)).isOk = true ↔ _
  unfold validateDiscovered
  by_cases hlong : maxDiscoveryPageSize < seeds.length
  · rw [if_pos hlong]
    exact iff_of_false (fun h => by cases h) (not_le.mpr hlong)
  · rw [if_neg hlong, h]
    exact iff_of_true rfl (not_lt.mp hlong)

/-- The seeds of a page whose papers have ids are accepted if they name at most a hundred
authors. -/
lemma isOk_acceptedSeeds_authors_iff (h : entryAuthors entries = .ok authors) :
    (acceptedSeeds env.classify
      (.ok ((freshAuthors env.ucd [] authors).map (authorSeed env query sourceUri)))).isOk = true ↔
      (authorNames env.ucd entries).card ≤ maxDiscoveryPageSize := by
  obtain ⟨-, rfl⟩ := entryAuthors_eq_ok_iff.mp h
  have hnamed : ∀ author ∈ freshAuthors env.ucd [] (entries.flatMap fun entry =>
      entry.authors.map fun name => (arxivId entry.id.strip, name.strip)),
      author.2.strip ≠ [] := by
    intro author hauthor
    obtain ⟨hmem, hne⟩ := mem_of_mem_freshAuthors hauthor
    obtain ⟨entry, -, hmem⟩ := List.mem_flatMap.mp hmem
    obtain ⟨name, -, rfl⟩ := List.mem_map.mp hmem
    rwa [Str.strip_strip]
  rw [isOk_acceptedSeeds_ok_iff (seedError_authorSeed hnamed 0), List.length_map,
    length_freshAuthors]
  unfold authorNames
  simp [List.map_flatMap, Function.comp_def]

/-- The collector accepts a page of arXiv exactly if its papers have ids and name at most a hundred
authors.

**Proof sketch.** The seeds of a page are as many as its papers name authors, the case of letters
aside, and each has a source and a name. So the limit is all that the collector may object to. -/
lemma isOk_acceptedSeeds_arxivDiscover_iff {reply : ArxivReply} :
    (acceptedSeeds env.classify (arxivDiscover env query sourceUri reply)).isOk = true ↔
      AcceptedPage env.ucd reply := by
  unfold AcceptedPage
  cases reply with
  | raised error =>
    refine iff_of_false (fun h => by cases h) ?_
    rintro ⟨entries, heq, -⟩
    cases heq
  | response status feed =>
    unfold arxivDiscover
    dsimp only
    split_ifs with hlimited hstatus
    · refine iff_of_false (fun h => by cases h) ?_
      rintro ⟨entries, heq, -⟩
      cases heq
      cases hlimited
    · refine iff_of_false (fun h => by cases h) ?_
      rintro ⟨entries, heq, -⟩
      cases heq
      exact hstatus rfl
    · obtain rfl := not_not.mp hstatus
      cases feed with
      | error message =>
        refine iff_of_false (fun h => by cases h) ?_
        rintro ⟨entries, heq, -⟩
        cases heq
      | ok entries =>
        show (acceptedSeeds env.classify (match entryAuthors entries with
          | .error message => .error (connectorError env.classify message)
          | .ok authors => .ok ((freshAuthors env.ucd [] authors).map
              (authorSeed env query sourceUri)))).isOk = true ↔ _
        cases hauthors : entryAuthors entries with
        | error message =>
          refine iff_of_false (fun h => by cases h) ?_
          rintro ⟨entries, heq, hids, -⟩
          cases heq
          rw [entryAuthors_eq_ok_iff.mpr ⟨hids, rfl⟩] at hauthors
          cases hauthors
        | ok authors =>
          dsimp only
          rw [isOk_acceptedSeeds_authors_iff hauthors]
          constructor
          · intro hcard
            exact ⟨entries, rfl, (entryAuthors_eq_ok_iff.mp hauthors).1, hcard⟩
          · rintro ⟨entries, heq, -, hcard⟩
            cases heq
            exact hcard

/-- **Getting past a page of arXiv.** Some runs of the job get to ask arXiv for a page up to the
tenth exactly if each page before it is answered by papers with ids that name at most a hundred
authors.

**Proof sketch.** A page is asked for exactly if those before it are accepted, and the collector
accepts a page of arXiv unless it is not answered or names too many authors. -/
theorem arxivAsks_iff {env : ArxivEnv} {query : Str} {uri : ℤ → Str} {replies : ℤ → ArxivReply}
    {page : ℤ} (hpage : 1 ≤ page) (hmax : page ≤ maxDiscoveryPage) :
    Asks "arxiv"
        (fun p => acceptedSeeds env.classify (arxivDiscover env query (uri p) (replies p))) page ↔
      ∀ p, 1 ≤ p → p < page → AcceptedPage env.ucd (replies p) := by
  rw [asks_iff hpage hmax]
  refine forall_congr' fun p => imp_congr_right fun _ => imp_congr_right fun _ => ?_
  exact isOk_acceptedSeeds_arxivDiscover_iff

/-- A paper with two authors, one of them named twice, does not stop the discovery. -/
theorem arxivAsks_iff_paper :
    Asks "arxiv"
      (fun _ => acceptedSeeds (fun _ => (.permanent, false))
        (arxivDiscover ⟨.ascii, fun _ => (.permanent, false), fun _ => 0⟩ "agents" "u"
          (.response 200 (.ok [⟨"http://arxiv.org/abs/1706.1", ["Ada", " ada", "Alan"]⟩])))) 2 :=
  (@arxivAsks_iff ⟨.ascii, fun _ => (.permanent, false), fun _ => 0⟩ "agents" (fun _ => "u")
    (fun _ => .response 200 (.ok [⟨"http://arxiv.org/abs/1706.1", ["Ada", " ada", "Alan"]⟩])) 2
    (by decide) (by decide)).mpr fun _ _ _ => ⟨_, rfl, by decide, by decide⟩

end Arxiv

end VCBrain
