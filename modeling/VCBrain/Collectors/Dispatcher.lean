import Mathlib.Data.Char
import Mathlib.Data.List.Lex
import VCBrain.Collectors.Queue

set_option relaxedAutoImplicit false
set_option autoImplicit false

/-!
# The dispatcher

`dispatcher_job` pops tasks from the collection queue and hands them over to Arq one by one. A task
from the source `tavily_search` costs one call of the Tavily budget: it is charged before it is
handed over and refunded if that fails, and it is put off if no call is left.

## Main definitions

* `arqJob` — the job that a task is handed over as.
* `dispatchTask`, `dispatcherJob` — the body of the loop, and one run.
* `TasksConserved` — what a run makes of the tasks and of the budget.

## Main results

* `dispatcher_conserves_tasks` — every run conserves the tasks.

## Design

The counter of the budget is an integer, which is 0 where the key is missing. What Arq answers is an
input: whether handing over the task at a position fails. The state keeps what has become of every
task, and the values that the counter has taken.
-/

namespace VCBrain

/-! ## One run -/

/-- A job that is handed over to Arq. -/
structure ArqJob where
  name : Str
  args : List Json
deriving DecidableEq

/-- `task.get(field, default)`. -/
def taskField (task : Json) (field : Str) (default : Json) : Json := (task.get? field).getD default

/-- `enqueue_arq_job`: the job that a task is handed over as. -/
def arqJob (task : Json) : ArqJob :=
  let text := fun field : Str => taskField task field (.str [])
  let jobId := taskField task "job_id" .null
  let jobType := taskField task "job_type" (.str "collect")
  if jobType = .str "discover" then ⟨"discover_job", [text "query", text "source", jobId]⟩
  else if jobType = .str "resolve_identities" then ⟨"resolve_identities_job", [jobId]⟩
  else if jobType = .str "research_candidate" then
    ⟨"research_candidate_job", [text "person_id", text "opportunity_id", jobId]⟩
  else if jobType = .str "fetch_candidate_avatar" then
    ⟨"fetch_candidate_avatar_job", [text "person_id", jobId]⟩
  else if jobType = .str "score_candidate" then ⟨"score_candidate_job", [text "person_id", jobId]⟩
  else if jobType = .str "generate_memo" then
    ⟨"generate_memo_job", [text "person_id", text "opportunity_id", jobId]⟩
  else if jobType = .str "process_candidate" then
    ⟨"process_candidate_job", [text "person_id", jobId]⟩
  else if jobType = .str "process_inbound_pitch" then
    ⟨"process_inbound_pitch_job", [text "person_id", text "snapshot_id", text "opportunity_id",
      text "company_name", taskField task "founder_evidence" .null, jobId]⟩
  else if jobType = .str "contact_outbound" then ⟨"contact_outbound_job", [text "person_id"]⟩
  else ⟨"collect_job", [text "person_id", text "source", taskField task "depth" (.str "deep"),
    text "handle", jobId]⟩

/-- `task.get("source", "") == "tavily_search"`. -/
def FromTavily (task : Json) : Prop := taskField task "source" (.str []) = .str "tavily_search"

instance : DecidablePred FromTavily :=
  fun task => inferInstanceAs (Decidable (taskField task "source" (.str []) = .str "tavily_search"))

/-- What becomes of a task that was popped. -/
inductive TaskOutcome where
  | delivered
  /-- It could not be handed over. -/
  | failed
  /-- It was put off since the budget is exhausted. -/
  | deferred
deriving DecidableEq

variable {τ : Type*} [LinearOrder τ] {tie : Str ↪ τ}

/-- A run of the dispatcher: the queue and the counter in Redis with the values it has taken,
`tavily_remaining`, the jobs handed over, and what has become of the tasks. -/
structure Dispatch (tie : Str ↪ τ) where
  queue : Queue tie
  tavily : ℤ
  remaining : ℤ
  taken : List ℤ := []
  jobs : List ArqJob := []
  outcomes : List ((Json × ℚ) × TaskOutcome) := []

namespace Dispatch

/-- `decrement_tavily_budget(redis, amount)` and the same on `tavily_remaining`. -/
def charge (amount : ℤ) (s : Dispatch tie) : Dispatch tie :=
  { s with
    tavily := s.tavily - amount
    remaining := s.remaining - amount
    taken := s.taken ++ [s.tavily - amount] }

/-- `queue_enqueue` of a task with a priority, and what this means for the task. -/
def putBack (r : Json × ℚ) (priority : ℚ) (outcome : TaskOutcome) (s : Dispatch tie) :
    Dispatch tie :=
  { s with
    queue := s.queue.enqueue r.1 priority
    outcomes := s.outcomes ++ [(r, outcome)] }

/-- `enqueue_arq_job` without a failure. -/
def deliver (r : Json × ℚ) (s : Dispatch tie) : Dispatch tie :=
  { s with
    jobs := s.jobs ++ [arqJob r.1]
    outcomes := s.outcomes ++ [(r, .delivered)] }

end Dispatch

/-- The priority of a task that is put off. -/
def deferralPriority : ℚ := 1 / 10

/-- The body of the loop of `dispatcher_job`, where handing over the task fails or not. -/
def dispatchTask (fails : Bool) (r : Json × ℚ) (s : Dispatch tie) : Dispatch tie :=
  if FromTavily r.1 then
    if s.remaining ≤ 0 then s.putBack r deferralPriority .deferred
    else if fails then (((s.charge 1).putBack r r.2 .failed).charge (-1))
    else (s.charge 1).deliver r
  else if fails then s.putBack r r.2 .failed
  else s.deliver r

/-- The loop over the popped tasks, of which the first one is at a position. -/
def dispatchTasks (fails : ℕ → Bool) : ℕ → List (Json × ℚ) → Dispatch tie → Dispatch tie
  | _, [], s => s
  | i, r :: rest, s => dispatchTasks fails (i + 1) rest (dispatchTask (fails i) r s)

/-- `dispatcher_job` with the concurrency `n`; `none` if a text of the queue is no JSON. -/
def dispatcherJob (fails : ℕ → Bool) (n : ℕ) (q : Queue tie) (tavily : ℤ) :
    Option (Dispatch tie) :=
  (q.popTopWithPriority n).map fun popped =>
    dispatchTasks fails 0 popped.1 { queue := popped.2, tavily := tavily, remaining := tavily }

/-- What a run returns: the numbers of tasks handed over and not, and the depths of the lanes. -/
def Dispatch.result (s : Dispatch tie) : ℕ × ℕ × (Lane → ℕ) :=
  (s.outcomes.countP fun o => o.2 = .delivered, s.outcomes.countP fun o => o.2 = .failed,
    fun lane => (s.queue lane).entries.length)

/-! ## Conservation -/

/-- The Tavily tasks that were handed over. -/
def Dispatch.charged (s : Dispatch tie) : ℕ :=
  s.outcomes.countP fun o => o.2 = .delivered ∧ FromTavily o.1.1

/-- What a run makes of the tasks it has popped, of the queue `rest` that was left, and of the
counter. Every popped task has one outcome: it was handed over once, or it is in the queue again.
An entry that was not popped is still there, unless a task that was put off has taken its place. -/
structure TasksConserved (popped : List (Json × ℚ)) (rest : Queue tie) (tavily : ℤ)
    (s : Dispatch tie) : Prop where
  once : s.outcomes.map Prod.fst = popped
  delivered : s.jobs = (s.outcomes.filter fun o => o.2 = .delivered).map fun o => arqJob o.1.1
  failed : ∀ r, (r, .failed) ∈ s.outcomes →
    Queue.entryOf r ∈ (s.queue (.ofPriority r.2)).entries
  deferred : ∀ r, (r, .deferred) ∈ s.outcomes →
    FromTavily r.1 ∧ Queue.entryOf (r.1, deferralPriority) ∈ (s.queue .low).entries
  untouched : ∀ lane, ∀ e ∈ (rest lane).entries, e ∈ (s.queue lane).entries ∨
    lane = .low ∧ ∃ r, (r, .deferred) ∈ s.outcomes ∧ taskKey r.1 = e.2
  nothingElse : ∀ lane, ∀ e ∈ (s.queue lane).entries, e ∈ (rest lane).entries ∨
    (∃ r, (r, .failed) ∈ s.outcomes ∧ lane = .ofPriority r.2 ∧ e = Queue.entryOf r) ∨
    ∃ r, (r, .deferred) ∈ s.outcomes ∧ lane = .low ∧ e = Queue.entryOf (r.1, deferralPriority)
  counter : s.tavily = tavily - s.charged
  notBelow : ∀ v ∈ s.taken, 0 ≤ v

/-! ### What was popped -/

/-- The lane and the text of an entry. -/
def placeOf (e : ℚ × Str) : Lane × Str := (.ofPriority (-e.1), e.2)

/-- No text stands twice in a lane. -/
lemma nodup_map_placeOf {q : Queue tie} {calls : List QueueCall} (h : Queue.Kept calls q) :
    ((q.entriesOf Lane.all).map placeOf).Nodup := by
  have hlane : ∀ lane, (q lane).entries.map placeOf = (q lane).entries.map fun e => (lane, e.2) :=
    fun lane => List.map_congr_left fun e he => by rw [placeOf, h.ofPriority_eq he]
  unfold Queue.entriesOf
  rw [List.map_flatMap]
  refine List.nodup_flatMap.mpr ⟨fun lane _ => ?_, ?_⟩
  · rw [hlane]
    have hnodup := (q lane).nodup.map (Prod.mk_right_injective lane)
    rwa [List.map_map] at hnodup
  · refine Lane.nodup_all.imp fun {a b} hne place ha hb => hne ?_
    dsimp only at ha hb
    rw [hlane] at ha hb
    obtain ⟨e, -, rfl⟩ := List.mem_map.mp ha
    obtain ⟨f, -, hf⟩ := List.mem_map.mp hb
    exact (congrArg Prod.fst hf).symm

/-- What the popped tasks have in common: they stand by decreasing priorities, in distinct places,
from which they are gone in the rest of the queue, and they are read from their texts. -/
structure Popped (rest : Queue tie) (popped : List (Json × ℚ)) : Prop where
  ordered : popped.Pairwise fun r r' => r'.2 ≤ r.2
  distinct : (popped.map fun r => placeOf (Queue.entryOf r)).Nodup
  removed : ∀ r ∈ popped, ∀ e ∈ (rest (.ofPriority r.2)).entries, e.2 ≠ taskKey r.1
  read : ∀ r ∈ popped, Json.loads (taskKey r.1) = some r.1

/-- After any calls, popping does not fail. -/
lemma exists_popped (tie : Str ↪ τ) (calls : List QueueCall) (n : ℕ) :
    ∃ q popped rest, Queue.run tie calls = some q ∧
      q.popTopWithPriority n = some (popped, rest) ∧ Popped rest popped := by
  obtain ⟨q, hrun, hkept⟩ := Queue.exists_run tie calls
  obtain ⟨popped, hpop, -, hentries, hcalls⟩ := hkept.exists_pop n
  have hrest : Queue.Kept (calls ++ [.pop n]) (q.drain n Lane.all) := hkept.drain n n Lane.all
  have hplaces := nodup_map_placeOf hkept
  rw [← List.take_append_drop n (q.entriesOf Lane.all), ← hentries,
    ← Queue.entriesOf_drain Lane.nodup_all, List.map_append, List.map_map,
    List.nodup_append] at hplaces
  refine ⟨q, popped, q.drain n Lane.all, hrun, hpop, ?_, hplaces.1, fun r hr e he heq => ?_,
    fun r hr => ?_⟩
  · have hsorted := q.pairwise_byPriority
    rw [hkept.byPriority_eq] at hsorted
    have htaken := hsorted.sublist (List.take_sublist n _)
    rw [← hentries, List.pairwise_map] at htaken
    exact htaken.imp fun hle => neg_le_neg_iff.mp hle
  · have hmem : e ∈ (q.drain n Lane.all).entriesOf Lane.all :=
      List.mem_flatMap.mpr ⟨_, Lane.mem_all _, he⟩
    have hplace : placeOf e = placeOf (Queue.entryOf r) := by
      rw [placeOf, hrest.ofPriority_eq he, heq, placeOf, Queue.entryOf, neg_neg]
    exact hplaces.2.2 _ (List.mem_map_of_mem hr) _ (List.mem_map_of_mem hmem) hplace.symm
  · obtain ⟨task, -, htask⟩ := hcalls r hr
    rw [htask, taskKey_sortKeys, task.loads_taskKey]

/-! ### The loop -/

section Loop

variable {popped before : List (Json × ℚ)} {rest : Queue tie} {tavily : ℤ} {s : Dispatch tie}
  {r : Json × ℚ} {fails : Bool}

/-- What holds in the loop: the tasks so far are conserved, the run knows the counter, and it knows
that the budget is exhausted if a task was put off. -/
structure DispatchInv (rest : Queue tie) (tavily : ℤ) (before : List (Json × ℚ))
    (s : Dispatch tie) : Prop where
  conserved : TasksConserved before rest tavily s
  remaining : s.remaining = s.tavily
  exhausted : ∀ r, (r, .deferred) ∈ s.outcomes → s.remaining ≤ 0

/-- Popped tasks in one place are one. -/
lemma Popped.eq_of_place (h : Popped rest popped) {r r' : Json × ℚ} (hr : r ∈ popped)
    (hr' : r' ∈ popped) (hlane : Lane.ofPriority r.2 = .ofPriority r'.2)
    (hkey : taskKey r.1 = taskKey r'.1) : r = r' := by
  refine List.inj_on_of_nodup_map h.distinct hr hr' ?_
  simp only [placeOf, Queue.entryOf, neg_neg, hlane, hkey]

/-- A task with a smaller priority than one of the lowest lane is in this lane. -/
lemma ofPriority_eq_low {p p' : ℚ} (h : Lane.ofPriority p = .low) (hle : p' ≤ p) :
    Lane.ofPriority p' = .low := by
  unfold Lane.ofPriority at h ⊢
  split_ifs at h
  rw [if_neg (by linarith), if_neg (by linarith)]

/-- The next task is none of those before it. -/
lemma Popped.notMem (h : Popped rest (before ++ r :: popped)) : r ∉ before := by
  intro hr
  have hnodup := h.distinct.of_map
  rw [List.nodup_append] at hnodup
  exact hnodup.2.2 r hr r (List.mem_cons_self ..) rfl

/-- The entries of a lane after a task is enqueued. -/
lemma mem_enqueue {q : Queue tie} {task : Json} {priority : ℚ} {lane : Lane} {e : ℚ × Str} :
    e ∈ (q.enqueue task priority lane).entries ↔
      lane = .ofPriority priority ∧ e = Queue.entryOf (task, priority) ∨
        e ∈ (q lane).entries ∧ ¬ (lane = .ofPriority priority ∧ e.2 = taskKey task) := by
  unfold Queue.enqueue
  by_cases hlane : lane = .ofPriority priority
  · subst hlane
    rw [Function.update_self, SortedSet.mem_zadd]
    simp [Queue.entryOf]
  · rw [Function.update_of_ne hlane]
    simp [hlane]

/-- A task that had an outcome was popped. -/
lemma TasksConserved.mem_of_outcome (h : TasksConserved before rest tavily s) {o : TaskOutcome}
    (hr : (r, o) ∈ s.outcomes) : r ∈ before := by
  rw [← h.once]
  exact List.mem_map_of_mem hr

/-- A task is handed over. -/
lemma TasksConserved.deliver (h : TasksConserved before rest tavily s) {s' : Dispatch tie}
    (hqueue : s'.queue = s.queue) (hjobs : s'.jobs = s.jobs) (houtcomes : s'.outcomes = s.outcomes)
    (htavily : s'.tavily = s.tavily - if FromTavily r.1 then 1 else 0)
    (htaken : ∀ v ∈ s'.taken, 0 ≤ v) :
    TasksConserved (before ++ [r]) rest tavily (s'.deliver r) := by
  have hfailed : ∀ r', (r', .failed) ∈ (s'.deliver r).outcomes ↔ (r', .failed) ∈ s.outcomes := by
    simp [Dispatch.deliver, houtcomes]
  have hdeferred : ∀ r',
      (r', .deferred) ∈ (s'.deliver r).outcomes ↔ (r', .deferred) ∈ s.outcomes := by
    simp [Dispatch.deliver, houtcomes]
  refine ⟨?_, ?_, fun r' hr' => ?_, fun r' hr' => ?_, fun lane e he => ?_, fun lane e he => ?_, ?_,
    htaken⟩
  · simp [Dispatch.deliver, houtcomes, h.once]
  · simp [Dispatch.deliver, houtcomes, hjobs, h.delivered, List.filter_append]
  · rw [hfailed] at hr'
    exact hqueue ▸ h.failed r' hr'
  · rw [hdeferred] at hr'
    exact hqueue ▸ h.deferred r' hr'
  · refine (h.untouched lane e he).imp (fun he => hqueue ▸ he) fun ⟨hlow, r', hr', hkey⟩ => ?_
    exact ⟨hlow, r', (hdeferred r').mpr hr', hkey⟩
  · refine (h.nothingElse lane e (hqueue ▸ he)).imp_right fun hother => ?_
    refine hother.imp (fun ⟨r', hr', hrest⟩ => ?_) fun ⟨r', hr', hrest⟩ => ?_
    · exact ⟨r', (hfailed r').mpr hr', hrest⟩
    · exact ⟨r', (hdeferred r').mpr hr', hrest⟩
  · have hcounter := h.counter
    unfold Dispatch.charged at hcounter ⊢
    simp only [Dispatch.deliver, houtcomes, List.countP_append, List.countP_singleton]
    rw [htavily, hcounter]
    by_cases hfrom : FromTavily r.1
    · simp [hfrom]
      ring
    · simp [hfrom]

/-- A task that could not be handed over is put back. -/
lemma DispatchInv.conserved_fail (hpopped : Popped rest (before ++ r :: popped))
    (h : DispatchInv rest tavily before s) (hleft : FromTavily r.1 → 0 < s.remaining)
    {s' : Dispatch tie} (hqueue : s'.queue = s.queue.enqueue r.1 r.2) (hjobs : s'.jobs = s.jobs)
    (houtcomes : s'.outcomes = s.outcomes ++ [(r, .failed)]) (htavily : s'.tavily = s.tavily)
    (htaken : ∀ v ∈ s'.taken, 0 ≤ v) : TasksConserved (before ++ [r]) rest tavily s' := by
  have hlast : r ∈ before ++ r :: popped := List.mem_append_right _ (List.mem_cons_self ..)
  have hbefore : ∀ r' ∈ before, r' ∈ before ++ r :: popped := fun r' => List.mem_append_left _
  refine ⟨?_, ?_, fun r' hr' => ?_, fun r' hr' => ?_, fun lane e he => ?_, fun lane e he => ?_, ?_,
    htaken⟩
  · simp [houtcomes, h.conserved.once]
  · simp [houtcomes, hjobs, h.conserved.delivered, List.filter_append]
  · rw [hqueue, mem_enqueue]
    rw [houtcomes, List.mem_append, List.mem_singleton] at hr'
    rcases hr' with hr' | heq
    · refine Or.inr ⟨h.conserved.failed r' hr', ?_⟩
      rintro ⟨hlane, hkey⟩
      have hr'mem := h.conserved.mem_of_outcome hr'
      obtain rfl := hpopped.eq_of_place (hbefore r' hr'mem) hlast hlane hkey
      exact hpopped.notMem hr'mem
    · cases heq
      exact Or.inl ⟨rfl, rfl⟩
  · rw [houtcomes, List.mem_append, List.mem_singleton] at hr'
    rcases hr' with hr' | heq
    · obtain ⟨hfrom, hentry⟩ := h.conserved.deferred r' hr'
      refine ⟨hfrom, ?_⟩
      rw [hqueue, mem_enqueue]
      refine Or.inr ⟨hentry, fun ⟨_, hkey⟩ => ?_⟩
      -- a task with the same text is from Tavily as well, and would be put off
      have hread' := hpopped.read r' (hbefore r' (h.conserved.mem_of_outcome hr'))
      have hsame : r'.1 = r.1 := by
        rw [show taskKey r'.1 = taskKey r.1 from hkey, hpopped.read r hlast] at hread'
        exact (Option.some.inj hread').symm
      exact absurd (hleft (hsame ▸ hfrom)) (not_lt.mpr (h.exhausted r' hr'))
    · cases heq
  · rw [hqueue, mem_enqueue]
    rcases h.conserved.untouched lane e he with hold | ⟨hlow, r', hr', hkey⟩
    · refine Or.inl (Or.inr ⟨hold, fun ⟨hlane, hkey⟩ => ?_⟩)
      exact hpopped.removed r hlast e (hlane ▸ he) hkey
    · refine Or.inr ⟨hlow, r', ?_, hkey⟩
      rw [houtcomes]
      exact List.mem_append_left _ hr'
  · rw [hqueue, mem_enqueue] at he
    have hmem : ∀ o, o ∈ s.outcomes → o ∈ s'.outcomes := fun o ho => by
      rw [houtcomes]
      exact List.mem_append_left _ ho
    rcases he with ⟨hlane, hentry⟩ | ⟨hold, -⟩
    · refine Or.inr (Or.inl ⟨r, ?_, hlane, hentry⟩)
      rw [houtcomes]
      exact List.mem_append_right _ (List.mem_singleton_self _)
    · refine (h.conserved.nothingElse lane e hold).imp_right fun hother => ?_
      exact hother.imp (Exists.imp fun r' h => ⟨hmem _ h.1, h.2⟩)
        (Exists.imp fun r' h => ⟨hmem _ h.1, h.2⟩)
  · have hcounter := h.conserved.counter
    unfold Dispatch.charged at hcounter ⊢
    rw [htavily, hcounter, houtcomes, List.countP_append]
    simp

/-- A task is put off. -/
lemma DispatchInv.conserved_defer (hpopped : Popped rest (before ++ r :: popped))
    (h : DispatchInv rest tavily before s) (hfrom : FromTavily r.1) :
    TasksConserved (before ++ [r]) rest tavily (s.putBack r deferralPriority .deferred) := by
  have hlast : r ∈ before ++ r :: popped := List.mem_append_right _ (List.mem_cons_self ..)
  have hlow : Lane.ofPriority deferralPriority = .low := by
    unfold Lane.ofPriority deferralPriority
    rw [if_neg (by norm_num), if_neg (by norm_num)]
  have houtcomes : (s.putBack r deferralPriority .deferred).outcomes =
      s.outcomes ++ [(r, .deferred)] := rfl
  have hmem : ∀ o, o ∈ s.outcomes → o ∈ (s.putBack r deferralPriority .deferred).outcomes :=
    fun o ho => List.mem_append_left _ ho
  refine ⟨?_, ?_, fun r' hr' => ?_, fun r' hr' => ?_, fun lane e he => ?_, fun lane e he => ?_, ?_,
    h.conserved.notBelow⟩
  · simp [houtcomes, h.conserved.once]
  · simp [Dispatch.putBack, h.conserved.delivered, List.filter_append]
  · rw [Dispatch.putBack, mem_enqueue]
    rw [houtcomes, List.mem_append, List.mem_singleton] at hr'
    rcases hr' with hr' | heq
    · refine Or.inr ⟨h.conserved.failed r' hr', ?_⟩
      rintro ⟨hlane, hkey⟩
      -- a task of the lowest lane with this text comes last of all with this text
      have hr'mem := h.conserved.mem_of_outcome hr'
      rw [hlow] at hlane
      have hle : r.2 ≤ r'.2 :=
        (List.pairwise_append.mp hpopped.ordered).2.2 r' hr'mem r (List.mem_cons_self ..)
      have hplace : Lane.ofPriority r'.2 = .ofPriority r.2 :=
        hlane.trans (ofPriority_eq_low hlane hle).symm
      obtain rfl := hpopped.eq_of_place (List.mem_append_left _ hr'mem) hlast hplace hkey
      exact hpopped.notMem hr'mem
    · cases heq
  · rw [Dispatch.putBack, mem_enqueue, hlow]
    rw [houtcomes, List.mem_append, List.mem_singleton] at hr'
    rcases hr' with hr' | heq
    · obtain ⟨hfrom', hentry⟩ := h.conserved.deferred r' hr'
      refine ⟨hfrom', ?_⟩
      by_cases hkey : taskKey r'.1 = taskKey r.1
      · exact Or.inl ⟨rfl, by simp only [Queue.entryOf, hkey]⟩
      · exact Or.inr ⟨hentry, fun hsame => hkey hsame.2⟩
    · cases heq
      exact ⟨hfrom, Or.inl ⟨rfl, rfl⟩⟩
  · rw [Dispatch.putBack, mem_enqueue, hlow]
    rcases h.conserved.untouched lane e he with hold | ⟨hlane, r', hr', hkey⟩
    · by_cases hsame : lane = .low ∧ e.2 = taskKey r.1
      · exact Or.inr ⟨hsame.1, r, List.mem_append_right _ (List.mem_singleton_self _),
          hsame.2.symm⟩
      · exact Or.inl (Or.inr ⟨hold, hsame⟩)
    · exact Or.inr ⟨hlane, r', hmem _ hr', hkey⟩
  · rw [Dispatch.putBack, mem_enqueue, hlow] at he
    rcases he with ⟨hlane, hentry⟩ | ⟨hold, -⟩
    · refine Or.inr (Or.inr ⟨r, ?_, hlane, hentry⟩)
      exact List.mem_append_right _ (List.mem_singleton_self _)
    · refine (h.conserved.nothingElse lane e hold).imp_right fun hother => ?_
      exact hother.imp (Exists.imp fun r' h => ⟨hmem _ h.1, h.2⟩)
        (Exists.imp fun r' h => ⟨hmem _ h.1, h.2⟩)
  · have hcounter := h.conserved.counter
    unfold Dispatch.charged at hcounter ⊢
    rw [houtcomes, List.countP_append]
    simpa [Dispatch.putBack] using hcounter

/-- Charging changes the counter and what the run knows of it alike. -/
lemma charge_remaining {amount : ℤ} (h : s.remaining = s.tavily) :
    (s.charge amount).remaining = (s.charge amount).tavily := by
  rw [Dispatch.charge, h]

/-- Charging for one task keeps the counter from going below zero. -/
lemma notBelow_charge (h : DispatchInv rest tavily before s) (hleft : 0 < s.remaining) :
    ∀ v ∈ (s.charge 1).taken, 0 ≤ v := by
  intro v hv
  rcases List.mem_append.mp hv with hv | hv
  · exact h.conserved.notBelow v hv
  · rw [List.mem_singleton.mp hv, ← h.remaining]
    omega

/-- **One task.** Whatever becomes of the next task, the tasks so far are conserved.

**Proof sketch.** The task is charged only while the counter is positive, and refunded by the same
amount. Where it is put back, no other popped task is meant to stand, since a task that is put off
comes last of all those with its text. -/
lemma DispatchInv.step (hpopped : Popped rest (before ++ r :: popped))
    (h : DispatchInv rest tavily before s) :
    DispatchInv rest tavily (before ++ [r]) (dispatchTask fails r s) := by
  unfold dispatchTask
  by_cases hfrom : FromTavily r.1
  · rw [if_pos hfrom]
    by_cases hleft : s.remaining ≤ 0
    · rw [if_pos hleft]
      exact ⟨h.conserved_defer hpopped hfrom, h.remaining, fun _ _ => hleft⟩
    · rw [if_neg hleft]
      have hpos : 0 < s.remaining := not_le.mp hleft
      have htaken := notBelow_charge h hpos
      have hnone : ∀ r', (r', .deferred) ∉ s.outcomes := fun r' hr' => hleft (h.exhausted r' hr')
      cases fails with
      | true =>
        rw [if_pos rfl]
        have hrefund : ∀ v ∈ (((s.charge 1).putBack r r.2 .failed).charge (-1)).taken, 0 ≤ v := by
          intro v hv
          rcases List.mem_append.mp hv with hv | hv
          · exact htaken v hv
          · rw [List.mem_singleton.mp hv]
            change 0 ≤ s.tavily - 1 - -1
            rw [← h.remaining]
            omega
        refine ⟨h.conserved_fail hpopped (fun _ => hpos) rfl rfl rfl ?_ hrefund, ?_, ?_⟩
        · change s.tavily - 1 - -1 = s.tavily
          omega
        · exact charge_remaining (charge_remaining h.remaining)
        · intro r' hr'
          change _ ∈ s.outcomes ++ [(r, TaskOutcome.failed)] at hr'
          simp [hnone r'] at hr'
      | false =>
        rw [if_neg Bool.false_ne_true]
        refine ⟨h.conserved.deliver rfl rfl rfl ?_ htaken, charge_remaining h.remaining, ?_⟩
        · rw [if_pos hfrom]
          rfl
        · intro r' hr'
          change _ ∈ s.outcomes ++ [(r, TaskOutcome.delivered)] at hr'
          simp [hnone r'] at hr'
  · rw [if_neg hfrom]
    have hother : ∀ o, o ≠ .deferred → ∀ r', (r', .deferred) ∈ s.outcomes ++ [(r, o)] →
        s.remaining ≤ 0 := by
      intro o ho r' hr'
      rw [List.mem_append, List.mem_singleton, Prod.mk.injEq] at hr'
      exact h.exhausted r' (hr'.resolve_right fun heq => ho heq.2.symm)
    cases fails with
    | true =>
      rw [if_pos rfl]
      exact ⟨h.conserved_fail hpopped (fun hyes => absurd hyes hfrom) rfl rfl rfl rfl
        h.conserved.notBelow, h.remaining, hother .failed (by decide)⟩
    | false =>
      rw [if_neg Bool.false_ne_true]
      refine ⟨h.conserved.deliver rfl rfl rfl ?_ h.conserved.notBelow, h.remaining,
        hother .delivered (by decide)⟩
      rw [if_neg hfrom, sub_zero]

/-- The loop conserves the tasks. -/
lemma DispatchInv.loop {fails : ℕ → Bool} {i : ℕ} (hpopped : Popped rest (before ++ popped))
    (h : DispatchInv rest tavily before s) :
    DispatchInv rest tavily (before ++ popped) (dispatchTasks fails i popped s) := by
  induction popped generalizing before i s with
  | nil =>
    rw [List.append_nil]
    exact h
  | cons r popped ih =>
    have hnext : DispatchInv rest tavily (before ++ [r]) (dispatchTask (fails i) r s) :=
      h.step hpopped
    rw [List.append_cons] at hpopped ⊢
    exact ih hpopped hnext

end Loop

/-- **Conservation of tasks.** After any calls on the queue, with any budget and whichever tasks
cannot be handed over, a run of the dispatcher conserves the tasks: each one it has popped is handed
over once or in the queue again, with its own priority after a failure and with that of a deferral
if the budget is exhausted, and the counter is lower by the number of Tavily tasks that were handed
over and was never taken below zero. What was not popped is still there, unless a task that was put
off stands in its place.

**Proof sketch.** Induction on the popped tasks, whose places in the lanes are distinct and free
after popping (`exists_popped`), with one lemma for each outcome of a task. -/
theorem dispatcher_conserves_tasks (tie : Str ↪ τ) (calls : List QueueCall) (n : ℕ) (tavily : ℤ)
    (fails : ℕ → Bool) :
    ∃ q popped rest s, Queue.run tie calls = some q ∧
      q.popTopWithPriority n = some (popped, rest) ∧ dispatcherJob fails n q tavily = some s ∧
        TasksConserved popped rest tavily s := by
  obtain ⟨q, popped, rest, hrun, hpop, hpopped⟩ := exists_popped tie calls n
  have hstart : DispatchInv rest tavily []
      { queue := rest, tavily := tavily, remaining := tavily } := by
    refine ⟨⟨rfl, rfl, nofun, nofun, fun _ _ he => Or.inl he, fun _ _ he => Or.inl he, ?_, nofun⟩,
      rfl, nofun⟩
    exact (sub_zero tavily).symm
  have hloop : DispatchInv rest tavily popped (dispatchTasks fails 0 popped _) :=
    hstart.loop hpopped
  refine ⟨q, popped, rest, _, hrun, hpop, ?_, hloop.conserved⟩
  rw [dispatcherJob, hpop, Option.map_some]

/-! ## One task in two lanes -/

/-- A task from Tavily. -/
def searchTask : CollectionTask where
  json := .obj [("source", .str "tavily_search")]
  wellFormed := by decide
  object := ⟨_, rfl⟩

/-- The task is enqueued in the lanes for high and for low priorities. -/
def inTwoLanes : List QueueCall := [.enqueue searchTask 10, .enqueue searchTask (1 / 2)]

/-- Texts of one score stand in the order of the texts. -/
def byText : Str ↪ Str := Function.Embedding.refl Str

/-- With an exhausted budget the task of the lane for high priorities is put off, and takes the
place of the one in the lane for low priorities, which was not popped. -/
theorem dispatcher_moves_lowEntry :
    ∃ q popped rest s, Queue.run byText inTwoLanes = some q ∧
      q.popTopWithPriority 1 = some (popped, rest) ∧
      dispatcherJob (fun _ => false) 1 q 0 = some s ∧
      ∃ e ∈ (rest .low).entries, e ∉ (s.queue .low).entries := by
  have hleft : ((Queue.run byText inTwoLanes).bind fun q =>
      (q.popTopWithPriority 1).map fun popped => (popped.2 .low).entries) =
        some [(-(1 / 2), taskKey searchTask.json)] := by decide +kernel
  have hafter : ((Queue.run byText inTwoLanes).bind fun q =>
      (dispatcherJob (fun _ => false) 1 q 0).map fun s => (s.queue .low).entries) =
        some [(-deferralPriority, taskKey searchTask.json)] := by decide +kernel
  obtain ⟨q, hrun, hleft⟩ := Option.bind_eq_some_iff.mp hleft
  obtain ⟨⟨popped, rest⟩, hpop, hrest⟩ := Option.map_eq_some_iff.mp hleft
  rw [hrun, Option.bind_some] at hafter
  obtain ⟨s, hs, hqueue⟩ := Option.map_eq_some_iff.mp hafter
  refine ⟨q, popped, rest, s, hrun, hpop, hs, (-(1 / 2), taskKey searchTask.json), ?_, ?_⟩
  · rw [hrest]
    exact List.mem_singleton_self _
  · rw [hqueue, List.mem_singleton, Prod.mk.injEq]
    exact fun h => absurd h.1 (by norm_num [deferralPriority])

end VCBrain
