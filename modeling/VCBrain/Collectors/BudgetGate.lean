import VCBrain.Collectors.Dispatcher

set_option relaxedAutoImplicit false
set_option autoImplicit false

/-!
# Which tasks the Tavily budget covers

The dispatcher charges a task that has the source `tavily_search`. Which tasks search with Tavily is
decided elsewhere: `research_candidate_job` does for every candidate, and `discover_job` does with
four of the connectors. This file ties the tasks that are enqueued, the gate and the jobs together.

## Main definitions

* `Enqueuer` — the tasks that routes and jobs enqueue.
* `ArqJob.Searches` — the jobs that search with Tavily.
* `GateCovers` — in a run, no job that searches is handed over without budget or uncharged.
* `Enqueuer.Ungated` — the tasks that search and do not have the source `tavily_search`.

## Main results

* `budget_gate_covers_iff` — a run is covered exactly if it hands over no such task.

## Design

The queue is built by any calls that enqueue tasks of the enqueuers. This covers the dispatcher
itself, which enqueues what it has popped. The connector for websites extracts pages with Tavily,
which is no search.
-/

namespace VCBrain

/-! ## Tasks and jobs -/

/-- The tasks that routes and jobs enqueue. -/
inductive Enqueuer where
  /-- `auto_discovery_job`, which searches GitHub. -/
  | autoDiscovery (query : Str) (jobId : Uuid)
  /-- The route for discoveries, with any connector. -/
  | triggerDiscovery (query source : Str) (jobId : Uuid)
  /-- `discover_job`, and without a handle `recompute_signals_job`. -/
  | deepCollect (personId : Uuid) (source : Str) (handle : Option Str)
  /-- `_queue_investigation_jobs` and the screening stage of `advance_pipeline_job`. -/
  | investigation (personId opportunityId : Uuid)
  /-- The routes for research. -/
  | research (personId opportunityId jobId : Uuid)
  | score (personId : Uuid) (jobId : Option Uuid)
  | process (personId : Uuid) (jobId : Option Uuid)
  | memo (personId opportunityId : Uuid) (jobId : Option Uuid)
  | contact (personId : Uuid)
  | avatar (personId jobId : Uuid)
  | resolveIdentities (jobId : Uuid)

namespace Enqueuer

/-- `"job_id"`, where there is a ledger row. -/
def jobField : Option Uuid → List (Str × Json)
  | some jobId => [("job_id", .str jobId.str)]
  | none => []

/-- The fields of the task. -/
def fields : Enqueuer → List (Str × Json)
  | autoDiscovery query jobId => [("job_type", .str "discover"), ("query", .str query),
      ("source", .str "github"), ("job_id", .str jobId.str)]
  | triggerDiscovery query source jobId => [("job_type", .str "discover"), ("query", .str query),
      ("source", .str source), ("job_id", .str jobId.str)]
  | deepCollect personId source none => [("person_id", .str personId.str), ("source", .str source),
      ("depth", .str "deep")]
  | deepCollect personId source (some handle) => [("person_id", .str personId.str),
      ("source", .str source), ("depth", .str "deep"), ("handle", .str handle)]
  | investigation personId opportunityId => [("job_type", .str "research_candidate"),
      ("person_id", .str personId.str), ("opportunity_id", .str opportunityId.str)]
  | research personId opportunityId jobId => [("job_type", .str "research_candidate"),
      ("person_id", .str personId.str), ("opportunity_id", .str opportunityId.str),
      ("source", .str "tavily_search"), ("job_id", .str jobId.str)]
  | score personId jobId => ("job_type", .str "score_candidate") ::
      ("person_id", .str personId.str) :: jobField jobId
  | process personId jobId => ("job_type", .str "process_candidate") ::
      ("person_id", .str personId.str) :: jobField jobId
  | memo personId opportunityId jobId => ("job_type", .str "generate_memo") ::
      ("person_id", .str personId.str) :: ("opportunity_id", .str opportunityId.str) ::
        jobField jobId
  | contact personId => [("job_type", .str "contact_outbound"), ("person_id", .str personId.str)]
  | avatar personId jobId => [("job_type", .str "fetch_candidate_avatar"),
      ("person_id", .str personId.str), ("source", .str "avatar"), ("job_id", .str jobId.str)]
  | resolveIdentities jobId => [("job_type", .str "resolve_identities"),
      ("job_id", .str jobId.str)]

/-- The task is well formed. -/
lemma wellFormed_fields (e : Enqueuer) : (Json.obj e.fields).wellFormed := by
  cases e with
  | deepCollect personId source handle => cases handle <;> rfl
  | score personId jobId => cases jobId <;> rfl
  | process personId jobId => cases jobId <;> rfl
  | memo personId opportunityId jobId => cases jobId <;> rfl
  | _ => rfl

/-- The task. -/
def task (e : Enqueuer) : CollectionTask where
  json := .obj e.fields
  wellFormed := e.wellFormed_fields
  object := ⟨_, rfl⟩

end Enqueuer

/-- The connectors that search with Tavily when they discover. -/
def searchingSources : List Str := ["tavily_search", "linkedin", "hackathons", "podcasts"]

/-- The job searches with Tavily: it does for each axis of a candidate, or with the connector of its
source. -/
def ArqJob.Searches (job : ArqJob) : Prop :=
  job.name = "research_candidate_job" ∨
    job.name = "discover_job" ∧ ∃ source ∈ searchingSources, job.args[1]? = some (.str source)

/-- The tasks that search and do not have the source `tavily_search`. -/
def Enqueuer.Ungated : Enqueuer → Prop
  | investigation _ _ => True
  | triggerDiscovery _ source _ => source ∈ ["linkedin".toList, "hackathons".toList,
      "podcasts".toList]
  | _ => False

/-- Every task that is enqueued comes from an enqueuer, whatever the order of its fields. -/
def FromEnqueuers (calls : List QueueCall) : Prop :=
  ∀ task priority, .enqueue task priority ∈ calls →
    ∃ e : Enqueuer, taskKey task.json = taskKey e.task.json

/-! ## The gate -/

section Gate

variable {τ : Type*} [LinearOrder τ] {tie : Str ↪ τ} (fails : ℕ → Bool)

/-- In a run from a position, a job that searches is not handed over while the budget is exhausted,
and is charged if it is handed over while there is some. -/
def GateCovers : ℕ → List (Json × ℚ) → Dispatch tie → Prop
  | _, [], _ => True
  | i, r :: rest, s =>
    let s' := dispatchTask (fails i) r s
    ((arqJob r.1).Searches → (s.tavily ≤ 0 → s'.jobs = s.jobs) ∧
      (0 < s.tavily → s'.jobs = s.jobs ∨ s'.tavily = s.tavily - 1)) ∧
    GateCovers (i + 1) rest s'

variable {fails} {s : Dispatch tie} {r : Json × ℚ}

/-- A task that is handed over adds a job. -/
lemma jobs_deliver_ne (s : Dispatch tie) (r : Json × ℚ) : (s.deliver r).jobs ≠ s.jobs := by
  intro h
  have hlen := congrArg List.length h
  rw [Dispatch.deliver, List.length_append, List.length_singleton] at hlen
  omega

/-- A run keeps in view what the counter is. -/
lemma remaining_dispatchTask {fails : Bool} (h : s.remaining = s.tavily) :
    (dispatchTask fails r s).remaining = (dispatchTask fails r s).tavily := by
  unfold dispatchTask
  split_ifs
  · exact h
  · exact charge_remaining (charge_remaining h)
  · exact charge_remaining h
  · exact h
  · exact h

/-- The gate covers one task exactly if it does not search, or has the source, or is not handed
over. -/
lemma dispatchTask_covers_iff {fails : Bool} (h : s.remaining = s.tavily) :
    ((arqJob r.1).Searches →
        (s.tavily ≤ 0 → (dispatchTask fails r s).jobs = s.jobs) ∧
        (0 < s.tavily → (dispatchTask fails r s).jobs = s.jobs ∨
          (dispatchTask fails r s).tavily = s.tavily - 1)) ↔
      ((arqJob r.1).Searches → FromTavily r.1 ∨ fails = true) := by
  refine imp_congr_right fun _ => ?_
  unfold dispatchTask
  by_cases hfrom : FromTavily r.1
  · rw [if_pos hfrom, h]
    refine iff_of_true ⟨fun hnone => ?_, fun hsome => ?_⟩ (Or.inl hfrom)
    · rw [if_pos hnone]
      rfl
    · rw [if_neg (not_le.mpr hsome)]
      cases fails with
      | true => exact Or.inl rfl
      | false => exact Or.inr rfl
  · rw [if_neg hfrom]
    cases fails with
    | true => exact iff_of_true ⟨fun _ => rfl, fun _ => Or.inl rfl⟩ (Or.inr rfl)
    | false =>
      refine iff_of_false (fun hcovers => ?_) (by simpa using hfrom)
      rcases le_or_gt s.tavily 0 with hnone | hsome
      · exact jobs_deliver_ne s r (hcovers.1 hnone)
      · rcases hcovers.2 hsome with hjobs | htavily
        · exact jobs_deliver_ne s r hjobs
        · change s.tavily = s.tavily - 1 at htavily
          omega

/-- **The gate over a run.** A run is covered exactly if every task that searches has the source or
is not handed over. -/
lemma gateCovers_iff {popped : List (Json × ℚ)} {i : ℕ} (h : s.remaining = s.tavily) :
    GateCovers fails i popped s ↔ ∀ j r, popped[j]? = some r → (arqJob r.1).Searches →
      FromTavily r.1 ∨ fails (i + j) = true := by
  induction popped generalizing i s with
  | nil => simp [GateCovers]
  | cons r popped ih =>
    rw [GateCovers, dispatchTask_covers_iff h, ih (remaining_dispatchTask h)]
    constructor
    · rintro ⟨hfirst, hrest⟩ j r' hj
      cases j with
      | zero =>
        cases hj
        exact hfirst
      | succ j =>
        have hr' := hrest j r' hj
        rwa [Nat.add_right_comm, Nat.add_assoc] at hr'
    · intro hall
      refine ⟨hall 0 r rfl, fun j r' hj => ?_⟩
      have hr' := hall (j + 1) r' hj
      rwa [← Nat.add_assoc, Nat.add_right_comm] at hr'

end Gate

/-! ## What is read back -/

section Read

variable {v : Json} {s : Str}

/-- Sorting keys does not change what is a text. -/
lemma sortKeys_eq_str : v.sortKeys = .str s ↔ v = .str s := by
  cases v <;> simp [Json.sortKeys]

/-- A text is found in a task with sorted keys as well. -/
lemma taskField_sortKeys (h : v.wellFormed) (field default : Str) :
    taskField v.sortKeys field (.str default) = .str s ↔
      taskField v field (.str default) = .str s := by
  unfold taskField
  rw [Json.get?_sortKeys h]
  cases v.get? field with
  | none => rfl
  | some value => exact sortKeys_eq_str

/-- The names of the jobs of discoveries and of research are those of no other task. -/
lemma name_arqJob (hdiscover : taskField v "job_type" (.str "collect") ≠ .str "discover")
    (hresearch : taskField v "job_type" (.str "collect") ≠ .str "research_candidate") :
    (arqJob v).name ≠ "research_candidate_job" ∧ (arqJob v).name ≠ "discover_job" := by
  have hdistinct : ∀ {c : Prop} [Decidable c] {j k : ArqJob},
      j.name ≠ "research_candidate_job" ∧ j.name ≠ "discover_job" →
      k.name ≠ "research_candidate_job" ∧ k.name ≠ "discover_job" →
      (if c then j else k).name ≠ "research_candidate_job" ∧
        (if c then j else k).name ≠ "discover_job" := by
    intro c _ j k hj hk
    split_ifs
    · exact hj
    · exact hk
  rw [arqJob, if_neg hdiscover]
  refine hdistinct ⟨by simp, by simp⟩ ?_
  rw [if_neg hresearch]
  repeat' refine hdistinct ⟨by simp, by simp⟩ ?_
  exact ⟨by simp, by simp⟩

/-- Which tasks search: research, and discoveries with one of the connectors. -/
lemma searches_arqJob_iff (v : Json) : (arqJob v).Searches ↔
    taskField v "job_type" (.str "collect") = .str "research_candidate" ∨
      taskField v "job_type" (.str "collect") = .str "discover" ∧
        ∃ source ∈ searchingSources, taskField v "source" (.str []) = .str source := by
  by_cases hdiscover : taskField v "job_type" (.str "collect") = .str "discover"
  · have hjob : arqJob v = ⟨"discover_job", [taskField v "query" (.str []),
        taskField v "source" (.str []), taskField v "job_id" .null]⟩ := if_pos hdiscover
    rw [hjob, ArqJob.Searches, hdiscover]
    simp only [List.getElem?_cons_succ, List.getElem?_cons_zero, Option.some.injEq]
    simp
  by_cases hresearch : taskField v "job_type" (.str "collect") = .str "research_candidate"
  · have hname : (arqJob v).name = "research_candidate_job" := by
      rw [arqJob, if_neg hdiscover, if_neg (by rw [hresearch]; simp), if_pos hresearch]
    exact iff_of_true (Or.inl hname) (Or.inl hresearch)
  obtain ⟨hnot, hnot'⟩ := name_arqJob hdiscover hresearch
  simp only [ArqJob.Searches, hnot, hnot', hdiscover, hresearch, false_and, or_self]

/-- Whether a task searches does not depend on the order of its fields. -/
lemma searches_sortKeys (h : v.wellFormed) :
    (arqJob v.sortKeys).Searches ↔ (arqJob v).Searches := by
  have hsource : ∀ source : Str, taskField v.sortKeys "source" (.str []) = .str source ↔
      taskField v "source" (.str []) = .str source := fun _ => taskField_sortKeys h _ _
  have hjob : ∀ name : Str, taskField v.sortKeys "job_type" (.str "collect") = .str name ↔
      taskField v "job_type" (.str "collect") = .str name := fun _ => taskField_sortKeys h _ _
  simp only [searches_arqJob_iff, hsource, hjob]

/-- Whether a task has the source does not depend on the order of its fields. -/
lemma fromTavily_sortKeys (h : v.wellFormed) : FromTavily v.sortKeys ↔ FromTavily v :=
  taskField_sortKeys h _ _

end Read

/-! ## Coverage -/

/-- What `job_type` of an enqueued task is. -/
def Enqueuer.jobType : Enqueuer → Str
  | autoDiscovery .. | triggerDiscovery .. => "discover"
  | deepCollect .. => "collect"
  | investigation .. | research .. => "research_candidate"
  | score .. => "score_candidate"
  | process .. => "process_candidate"
  | memo .. => "generate_memo"
  | contact .. => "contact_outbound"
  | avatar .. => "fetch_candidate_avatar"
  | resolveIdentities .. => "resolve_identities"

/-- What `source` of an enqueued task is. -/
def Enqueuer.source : Enqueuer → Str
  | autoDiscovery .. => "github"
  | triggerDiscovery _ source _ | deepCollect _ source _ => source
  | research .. => "tavily_search"
  | avatar .. => "avatar"
  | _ => []

lemma taskField_jobType (e : Enqueuer) :
    taskField e.task.json "job_type" (.str "collect") = .str e.jobType := by
  cases e with
  | deepCollect personId source handle => cases handle <;> rfl
  | score personId jobId => cases jobId <;> rfl
  | process personId jobId => cases jobId <;> rfl
  | memo personId opportunityId jobId => cases jobId <;> rfl
  | _ => rfl

lemma taskField_source (e : Enqueuer) :
    taskField e.task.json "source" (.str []) = .str e.source := by
  cases e with
  | deepCollect personId source handle => cases handle <;> rfl
  | score personId jobId => cases jobId <;> rfl
  | process personId jobId => cases jobId <;> rfl
  | memo personId opportunityId jobId => cases jobId <;> rfl
  | _ => rfl

/-- A task of another type than research and discoveries does not search. -/
lemma not_searches (jobType : Str) {e : Enqueuer} (he : e.jobType = jobType)
    (hresearch : jobType ≠ "research_candidate") (hdiscover : jobType ≠ "discover") :
    ¬ (arqJob e.task.json).Searches := by
  rw [searches_arqJob_iff, taskField_jobType, he]
  simp only [Json.str.injEq, hresearch, hdiscover, false_and, or_self, not_false_eq_true]

/-- A task for a discovery searches if its source does. -/
lemma searches_of_discover {e : Enqueuer} (he : e.jobType = "discover") :
    (arqJob e.task.json).Searches ↔ e.source ∈ searchingSources := by
  have hother : ("discover" : Str) ≠ "research_candidate" := by decide
  rw [searches_arqJob_iff, taskField_jobType, taskField_source, he]
  simp only [Json.str.injEq, hother, false_or, true_and, exists_eq_right']

/-- A task for research searches. -/
lemma searches_of_research {e : Enqueuer} (he : e.jobType = "research_candidate") :
    (arqJob e.task.json).Searches := by
  rw [searches_arqJob_iff, taskField_jobType, he]
  exact Or.inl rfl

lemma fromTavily_task (e : Enqueuer) : FromTavily e.task.json ↔ e.source = "tavily_search" := by
  rw [FromTavily, taskField_source, Json.str.injEq]

/-- The connectors that search and are not the source that the dispatcher looks for. -/
lemma mem_searchingSources_iff (source : Str) :
    source ∈ searchingSources ∧ ¬ source = "tavily_search" ↔
      source ∈ ["linkedin".toList, "hackathons".toList, "podcasts".toList] := by
  have hother : ¬ ("tavily_search".toList ∈
      ["linkedin".toList, "hackathons".toList, "podcasts".toList]) := by decide
  constructor
  · rintro ⟨hsource, hnot⟩
    exact (List.mem_cons.mp hsource).resolve_left hnot
  · intro hsource
    exact ⟨List.mem_cons_of_mem _ hsource, fun heq => hother (heq ▸ hsource)⟩

/-- The tasks that search without the source are those of the investigation of a candidate, and of
discoveries with three connectors. -/
lemma ungated_iff (e : Enqueuer) :
    (arqJob e.task.json).Searches ∧ ¬ FromTavily e.task.json ↔ e.Ungated := by
  rw [fromTavily_task]
  cases e with
  | autoDiscovery query jobId =>
    rw [searches_of_discover rfl]
    refine iff_of_false (fun h => absurd h.1 ?_) id
    change ("github" : Str) ∉ searchingSources
    decide
  | triggerDiscovery query source jobId =>
    rw [searches_of_discover rfl]
    exact mem_searchingSources_iff source
  | investigation personId opportunityId =>
    refine iff_of_true ⟨searches_of_research rfl, ?_⟩ trivial
    change ([] : Str) ≠ "tavily_search"
    decide
  | research personId opportunityId jobId => exact iff_of_false (fun h => h.2 rfl) id
  | deepCollect personId source handle =>
    exact iff_of_false (fun h => not_searches "collect" rfl (by decide) (by decide) h.1) id
  | score personId jobId =>
    exact iff_of_false (fun h => not_searches "score_candidate" rfl (by decide) (by decide) h.1) id
  | process personId jobId =>
    exact iff_of_false
      (fun h => not_searches "process_candidate" rfl (by decide) (by decide) h.1) id
  | memo personId opportunityId jobId =>
    exact iff_of_false (fun h => not_searches "generate_memo" rfl (by decide) (by decide) h.1) id
  | contact personId =>
    exact iff_of_false (fun h => not_searches "contact_outbound" rfl (by decide) (by decide) h.1) id
  | avatar personId jobId =>
    exact iff_of_false
      (fun h => not_searches "fetch_candidate_avatar" rfl (by decide) (by decide) h.1) id
  | resolveIdentities jobId =>
    exact iff_of_false
      (fun h => not_searches "resolve_identities" rfl (by decide) (by decide) h.1) id

section Coverage

variable {τ : Type*} [LinearOrder τ]

/-- What is popped is a task of an enqueuer with its keys sorted. -/
lemma exists_popped_task {tie : Str ↪ τ} {calls : List QueueCall} (hcalls : FromEnqueuers calls)
    (n : ℕ) : ∃ q popped, Queue.run tie calls = some q ∧
      q.popTopWithPriority n = some (popped, q.drain n Lane.all) ∧
      ∀ r ∈ popped, ∃ e : Enqueuer, r.1 = e.task.json.sortKeys := by
  obtain ⟨q, hrun, hkept⟩ := Queue.exists_run tie calls
  obtain ⟨popped, hpop, -, -, hread⟩ := hkept.exists_pop n
  refine ⟨q, popped, hrun, hpop, fun r hr => ?_⟩
  obtain ⟨task, hlast, htask⟩ := hread r hr
  obtain ⟨e, he⟩ := hcalls task r.2 (mem_of_lastEnqueued hlast)
  have hloads : Json.loads (taskKey task.json) = Json.loads (taskKey e.task.json) := by rw [he]
  rw [task.loads_taskKey, e.task.loads_taskKey] at hloads
  exact ⟨e, htask.trans (Option.some.inj hloads)⟩

/-- **Coverage of the budget gate.** After any calls that enqueue tasks of the enqueuers, a run of
the dispatcher is covered exactly if every popped task of an investigation, and of a discovery with
`linkedin`, `hackathons` or `podcasts`, cannot be handed over.

**Proof sketch.** A task is read back with sorted keys, which changes neither its source nor whether
it searches. A task with the source is put off while the budget is exhausted and charged otherwise;
one without it is handed over uncharged in both cases (`gateCovers_iff`). -/
theorem budget_gate_covers_iff (tie : Str ↪ τ) (calls : List QueueCall)
    (hcalls : FromEnqueuers calls) (n : ℕ) (tavily : ℤ) (fails : ℕ → Bool) :
    ∃ q popped rest, Queue.run tie calls = some q ∧
      q.popTopWithPriority n = some (popped, rest) ∧
      (GateCovers fails 0 popped
          { queue := rest, tavily := tavily, remaining := tavily : Dispatch tie } ↔
        ∀ (i : ℕ) (r : Json × ℚ) (e : Enqueuer), popped[i]? = some r →
          r.1 = e.task.json.sortKeys → e.Ungated → fails i = true) := by
  obtain ⟨q, popped, hrun, hpop, htasks⟩ := @exists_popped_task _ _ tie _ hcalls n
  refine ⟨q, popped, _, hrun, hpop, ?_⟩
  rw [gateCovers_iff rfl]
  have hread : ∀ (r : Json × ℚ) (e : Enqueuer), r.1 = e.task.json.sortKeys →
      ((arqJob r.1).Searches ∧ ¬ FromTavily r.1 ↔ e.Ungated) := by
    intro r e htask
    rw [htask, searches_sortKeys e.task.wellFormed, fromTavily_sortKeys e.task.wellFormed,
      ungated_iff]
  constructor
  · intro hgate i r e hr htask hungated
    obtain ⟨hsearches, hfrom⟩ := (hread r e htask).mpr hungated
    have hr' := (hgate i r hr hsearches).resolve_left hfrom
    rwa [Nat.zero_add] at hr'
  · intro hfails i r hr hsearches
    obtain ⟨e, htask⟩ := htasks r (List.mem_of_getElem? hr)
    by_cases hfrom : FromTavily r.1
    · exact Or.inl hfrom
    · have hr' := hfails i r e hr htask ((hread r e htask).mp ⟨hsearches, hfrom⟩)
      rw [Nat.zero_add]
      exact Or.inr hr'

/-- A queue with one task of an enqueuer. -/
def alone (e : Enqueuer) : List QueueCall := [.enqueue e.task 10]

lemma fromEnqueuers_alone (e : Enqueuer) : FromEnqueuers (alone e) := by
  intro task priority hmem
  obtain ⟨rfl, rfl⟩ := QueueCall.enqueue.inj (List.mem_singleton.mp hmem)
  exact ⟨e, rfl⟩

end Coverage

/-- Research for a candidate that a route has queued is covered. -/
theorem budget_gate_covers_research :
    ∃ q popped rest, Queue.run byText (alone (.research 1 2 3)) = some q ∧
      q.popTopWithPriority 5 = some (popped, rest) ∧
      GateCovers (fun _ => false) 0 popped
        { queue := rest, tavily := 0, remaining := 0 : Dispatch byText } := by
  obtain ⟨q, popped, rest, hrun, hpop, hiff⟩ := budget_gate_covers_iff byText
    (alone (.research 1 2 3)) (fromEnqueuers_alone _) 5 0 fun _ => false
  have hpopped : ((Queue.run byText (alone (.research 1 2 3))).bind fun q =>
      (q.popTopWithPriority 5).map Prod.fst) =
        some [((Enqueuer.research 1 2 3).task.json.sortKeys, 10)] := by decide +kernel
  rw [hrun, Option.bind_some, hpop, Option.map_some, Option.some.injEq] at hpopped
  refine ⟨q, popped, rest, hrun, hpop, hiff.mpr fun i r e hr htask hungated => ?_⟩
  have hr' := List.mem_of_getElem? hr
  rw [show popped = _ from hpopped, List.mem_singleton] at hr'
  subst hr'
  -- the task is one with the source, so that it is not this one
  refine absurd ?_ ((ungated_iff e).mpr hungated).2
  rw [← fromTavily_sortKeys e.task.wellFormed, ← htask,
    fromTavily_sortKeys (Enqueuer.research 1 2 3).task.wellFormed]
  exact (fromTavily_task _).mpr rfl

/-- The investigation of a candidate is handed over although the budget is exhausted. -/
theorem budget_gate_misses_investigation :
    ∃ q popped rest, Queue.run byText (alone (.investigation 1 2)) = some q ∧
      q.popTopWithPriority 5 = some (popped, rest) ∧
      ¬ GateCovers (fun _ => false) 0 popped
        { queue := rest, tavily := 0, remaining := 0 : Dispatch byText } := by
  obtain ⟨q, popped, hrun, hpop, -⟩ :=
    @exists_popped_task _ _ byText _ (fromEnqueuers_alone (.investigation 1 2)) 5
  have hpopped : ((Queue.run byText (alone (.investigation 1 2))).bind fun q =>
      (q.popTopWithPriority 5).map Prod.fst) =
        some [((Enqueuer.investigation 1 2).task.json.sortKeys, 10)] := by decide +kernel
  rw [hrun, Option.bind_some, hpop, Option.map_some, Option.some.injEq] at hpopped
  refine ⟨q, popped, _, hrun, hpop, fun hgate => ?_⟩
  rw [show popped = _ from hpopped, gateCovers_iff rfl] at hgate
  have hwell := (Enqueuer.investigation 1 2).task.wellFormed
  have hungated := (ungated_iff (.investigation 1 2)).mpr trivial
  rcases hgate 0 _ rfl ((searches_sortKeys hwell).mpr hungated.1) with hfrom | hfails
  · exact hungated.2 ((fromTavily_sortKeys hwell).mp hfrom)
  · cases hfails

end VCBrain
