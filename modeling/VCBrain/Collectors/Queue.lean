import Mathlib.Data.Rat.Floor
import VCBrain.Foundation.JsonText
import VCBrain.Foundation.SortedSet

set_option relaxedAutoImplicit false
set_option autoImplicit false

/-!
# The collection queue

The queue of collection tasks keeps three sorted sets, one for each priority lane, in which a task
stands under its JSON text with the negated priority as its score. Popping drains the lanes in turn
until enough tasks are there.

## Main definitions

* `Lane.ofPriority`, `taskKey` — the lane of a priority and the text of a task.
* `Queue.enqueue`, `Queue.popTopWithPriority`, `Queue.popTop`, `Queue.peek` — the operations.
* `Queue.byPriority` — all entries, sorted at once.
* `QueueCall`, `Queue.run` — calls, and the state after a sequence of them.
* `Queue.PopsTop` — what popping must return and leave.

## Main results

* `Queue.byPriority_eq` — the lanes one after another are sorted as a whole.
* `Queue.popTopWithPriority_popsTop` — popping returns the entries of highest priority.
-/

/-- The priority lanes, in the order in which they are drained. -/
inductive Lane where
  | high
  | normal
  | low
deriving DecidableEq, Repr

namespace Lane

/-- `_lane`. -/
def ofPriority (priority : ℚ) : Lane :=
  if priority ≥ 10 then high else if priority ≥ 1 then normal else low

/-- `("high", "normal", "low")`. -/
def all : List Lane := [high, normal, low]

lemma mem_all (lane : Lane) : lane ∈ all := by cases lane <;> decide

lemma nodup_all : all.Nodup := by decide

/-- The lanes stand by decreasing priorities. -/
lemma pairwise_all :
    all.Pairwise fun a b => ∀ p q : ℚ, ofPriority p = a → ofPriority q = b → q < p := by
  have key : ∀ p q : ℚ, ofPriority p = high ∧ ofPriority q ≠ high ∨
      ofPriority p = normal ∧ ofPriority q = low → q < p := by
    intro p q h
    unfold ofPriority at h
    split_ifs at h <;> simp at h <;> linarith
  simp only [all, List.pairwise_cons, List.mem_cons, List.not_mem_nil, or_false,
    forall_eq_or_imp, forall_eq, IsEmpty.forall_iff, implies_true, List.Pairwise.nil, and_true]
  refine ⟨⟨?_, ?_⟩, ?_⟩
  · exact fun p q hp hq => key p q (Or.inl ⟨hp, by simp [hq]⟩)
  · exact fun p q hp hq => key p q (Or.inl ⟨hp, by simp [hq]⟩)
  · exact fun p q hp hq => key p q (Or.inr ⟨hp, hq⟩)

end Lane

/-- `_task_key`: `json.dumps(task, sort_keys=True)`. -/
def taskKey (task : Json) : Str := task.sortKeys.text

/-- A collection task: a JSON object. -/
structure CollectionTask where
  json : Json
  wellFormed : json.wellFormed
  object : ∃ fields, json = .obj fields

/-- The text of a task is read as the task with sorted keys. -/
lemma CollectionTask.loads_taskKey (task : CollectionTask) :
    Json.loads (taskKey task.json) = some task.json.sortKeys :=
  Json.loads_text (Json.wellFormed_sortKeys task.wellFormed)

/-- Sorting the keys of a task does not change its text. -/
lemma taskKey_sortKeys (task : Json) : taskKey task.sortKeys = taskKey task :=
  congrArg Json.text (Json.sortKeys_sortKeys task)

variable {τ : Type*} [LinearOrder τ]

/-- The sorted sets of the lanes, of texts with scores; `tie` orders the texts of equal score. -/
abbrev Queue (tie : Str ↪ τ) := Lane → SortedSet ℚ tie

namespace Queue

variable {tie : Str ↪ τ}

/-- The queue without tasks. -/
def empty : Queue tie := fun _ => .empty

/-- `enqueue(redis, task, priority)`. -/
def enqueue (q : Queue tie) (task : Json) (priority : ℚ) : Queue tie :=
  Function.update q (.ofPriority priority)
    ((q (.ofPriority priority)).zadd (-priority) (taskKey task))

/-- The task and the priority of an entry; `none` if the text is no JSON. -/
def readEntry (e : ℚ × Str) : Option (Json × ℚ) := (Json.loads e.2).map fun task => (task, -e.1)

/-- The loop of `pop_top_with_priority` over the lanes. -/
def popLanes (n : ℕ) : List Lane → List (Json × ℚ) → Queue tie →
    Option (List (Json × ℚ) × Queue tie)
  | [], tasks, q => some (tasks, q)
  | lane :: lanes, tasks, q =>
    if tasks.length ≥ n then some (tasks, q)
    else
      let results := (q lane).zpopmin (n - tasks.length)
      (results.1.mapM readEntry).bind fun popped =>
        popLanes n lanes (tasks ++ popped) (Function.update q lane results.2)

/-- `pop_top_with_priority(redis, n)`; `none` if a text is no JSON. -/
def popTopWithPriority (q : Queue tie) (n : ℕ) : Option (List (Json × ℚ) × Queue tie) :=
  popLanes n Lane.all [] q

/-- `pop_top(redis, n)`. -/
def popTop (q : Queue tie) (n : ℕ) : Option (List Json × Queue tie) :=
  (q.popTopWithPriority n).map fun r => (r.1.map Prod.fst, r.2)

/-- The loop of `peek` over the lanes. -/
def peekLanes (n : ℕ) (q : Queue tie) : List Lane → List Json → Option (List Json)
  | [], tasks => some tasks
  | lane :: lanes, tasks =>
    if tasks.length ≥ n then some tasks
    else
      (((q lane).zrange 0 (n - tasks.length - 1)).mapM fun e => Json.loads e.2).bind fun seen =>
        peekLanes n q lanes (tasks ++ seen)

/-- `peek(redis, n)`; `none` if a text is no JSON. -/
def peek (q : Queue tie) (n : ℕ) : Option (List Json) := peekLanes n q Lane.all []

end Queue

/-- A call that changes the queue. -/
inductive QueueCall where
  | enqueue (task : CollectionTask) (priority : ℚ)
  | pop (n : ℕ)

/-- The queue after a call. -/
def QueueCall.run {tie : Str ↪ τ} (q : Queue tie) : QueueCall → Option (Queue tie)
  | .enqueue task priority => some (q.enqueue task.json priority)
  | .pop n => (q.popTopWithPriority n).map Prod.snd

/-- The queue after calls, from the one without tasks. -/
def Queue.run (tie : Str ↪ τ) (calls : List QueueCall) : Option (Queue tie) :=
  calls.foldlM QueueCall.run .empty

namespace Queue

variable {tie : Str ↪ τ} {q : Queue tie}

/-- The entries of lanes, one lane after another. -/
def entriesOf (q : Queue tie) (lanes : List Lane) : List (ℚ × Str) :=
  lanes.flatMap fun lane => (q lane).entries

/-- All entries, sorted at once by decreasing priority, those of one priority in the fixed order. -/
def byPriority (q : Queue tie) : List (ℚ × Str) :=
  (q.entriesOf Lane.all).mergeSort fun e f => SortedSet.rank tie e ≤ SortedSet.rank tie f

/-- The number of entries in all lanes. -/
def size (q : Queue tie) : ℕ := (q.entriesOf Lane.all).length

/-- The entry of a task with a priority. -/
def entryOf (r : Json × ℚ) : ℚ × Str := (-r.2, taskKey r.1)

/-! ## The loops over the lanes -/

@[simp] lemma entriesOf_cons (q : Queue tie) (lane : Lane) (lanes : List Lane) :
    q.entriesOf (lane :: lanes) = (q lane).entries ++ q.entriesOf lanes := rfl

lemma entriesOf_update {lane : Lane} {lanes : List Lane} (h : lane ∉ lanes)
    (s : SortedSet ℚ tie) : entriesOf (Function.update q lane s) lanes = q.entriesOf lanes := by
  refine List.flatMap_congr fun other hother => ?_
  rw [Function.update_of_ne (ne_of_mem_of_not_mem hother h)]

/-- The queue after so many entries are removed from lanes in turn. -/
def drain : ℕ → List Lane → Queue tie → Queue tie
  | _, [], q => q
  | count, lane :: lanes, q =>
    drain (count - (q lane).entries.length) lanes
      (Function.update q lane ((q lane).zpopmin count).2)

@[simp] lemma drain_zero (lanes : List Lane) (q : Queue tie) : drain 0 lanes q = q := by
  induction lanes generalizing q with
  | nil => rfl
  | cons lane lanes ih =>
    have hnone : Function.update q lane ((q lane).zpopmin 0).2 = q := by
      rw [Function.update_eq_self_iff]
      exact SortedSet.ext_of_mem fun e => by simp
    rw [drain, Nat.zero_sub, hnone, ih]

lemma drain_of_notMem {lane : Lane} {lanes : List Lane} (h : lane ∉ lanes) (count : ℕ)
    (q : Queue tie) : drain count lanes q lane = q lane := by
  induction lanes generalizing count q with
  | nil => rfl
  | cons other lanes ih =>
    rw [drain, ih (List.not_mem_of_not_mem_cons h),
      Function.update_of_ne (List.ne_of_not_mem_cons h)]

/-- Draining removes entries. -/
lemma sublist_drain (count : ℕ) (lanes : List Lane) (q : Queue tie) (lane : Lane) :
    (drain count lanes q lane).entries.Sublist (q lane).entries := by
  induction lanes generalizing count q with
  | nil => exact List.Sublist.refl _
  | cons other lanes ih =>
    refine (ih _ _).trans ?_
    by_cases heq : lane = other
    · subst heq
      rw [Function.update_self]
      exact List.drop_sublist _ _
    · rw [Function.update_of_ne heq]

/-- Draining removes the first entries of the lanes taken together. -/
lemma entriesOf_drain {lanes : List Lane} (h : lanes.Nodup) (count : ℕ) (q : Queue tie) :
    entriesOf (drain count lanes q) lanes = (q.entriesOf lanes).drop count := by
  induction lanes generalizing count q with
  | nil => simp [entriesOf]
  | cons lane lanes ih =>
    obtain ⟨hnot, hnodup⟩ := List.nodup_cons.mp h
    rw [drain, entriesOf_cons, entriesOf_cons, ih hnodup, drain_of_notMem hnot,
      Function.update_self, entriesOf_update hnot, List.drop_append,
      SortedSet.entries_zpopmin_snd]

/-- A list that is mapped without a failure keeps its length. -/
private lemma length_of_mapM_eq_some {α β : Type*} {f : α → Option β} {l : List α} {l' : List β}
    (h : l.mapM f = some l') : l'.length = l.length := by
  induction l generalizing l' with
  | nil => cases h; rfl
  | cons a l ih =>
    rw [List.mapM_cons] at h
    obtain ⟨b, -, h⟩ := Option.bind_eq_some_iff.mp h
    obtain ⟨bs, hbs, h⟩ := Option.bind_eq_some_iff.mp h
    cases h
    rw [List.length_cons, List.length_cons, ih hbs]

/-- **The loop of `pop_top_with_priority`** reads the first entries of the lanes taken together. -/
lemma popLanes_eq {lanes : List Lane} (h : lanes.Nodup) (n : ℕ) (tasks : List (Json × ℚ))
    (q : Queue tie) : popLanes n lanes tasks q =
      (((q.entriesOf lanes).take (n - tasks.length)).mapM readEntry).map fun popped =>
        (tasks ++ popped, drain (n - tasks.length) lanes q) := by
  induction lanes generalizing tasks q with
  | nil => simp [popLanes, entriesOf, drain]
  | cons lane lanes ih =>
    obtain ⟨hnot, hnodup⟩ := List.nodup_cons.mp h
    rw [popLanes]
    split_ifs with hfull
    · simp [Nat.sub_eq_zero_of_le hfull]
    · rw [entriesOf_cons, List.take_append, List.mapM_append]
      simp only [SortedSet.zpopmin_fst]
      cases hread : ((q lane).entries.take (n - tasks.length)).mapM readEntry with
      | none => simp
      | some popped =>
        have hlength := length_of_mapM_eq_some hread
        rw [List.length_take] at hlength
        have hcount : n - (tasks ++ popped).length =
            n - tasks.length - (q lane).entries.length := by
          rw [List.length_append]; omega
        have hrest := ih hnodup (tasks ++ popped)
          (Function.update q lane ((q lane).zpopmin (n - tasks.length)).2)
        rw [entriesOf_update hnot, hcount] at hrest
        simp only [Option.bind_some, hrest, drain]
        cases ((q.entriesOf lanes).take (n - tasks.length - (q lane).entries.length)).mapM
          readEntry <;> simp

/-- The loop of `peek` reads the same entries. -/
lemma peekLanes_eq (n : ℕ) (q : Queue tie) (lanes : List Lane) (seen : List Json) :
    peekLanes n q lanes seen =
      (((q.entriesOf lanes).take (n - seen.length)).mapM fun e => Json.loads e.2).map
        (seen ++ ·) := by
  induction lanes generalizing seen with
  | nil => simp [peekLanes, entriesOf]
  | cons lane lanes ih =>
    rw [peekLanes]
    split_ifs with hfull
    · simp [Nat.sub_eq_zero_of_le hfull]
    · have hstop : (n : ℤ) - seen.length - 1 = ((n - seen.length - 1 : ℕ) : ℤ) := by omega
      have hcount : n - seen.length - 1 + 1 = n - seen.length := by omega
      rw [entriesOf_cons, List.take_append, List.mapM_append, hstop, SortedSet.zrange_zero, hcount,
        SortedSet.zpopmin_fst]
      cases hread : ((q lane).entries.take (n - seen.length)).mapM fun e => Json.loads e.2 with
      | none => simp
      | some more =>
        have hlength := length_of_mapM_eq_some hread
        rw [List.length_take] at hlength
        have hleft : n - (seen ++ more).length = n - seen.length - (q lane).entries.length := by
          rw [List.length_append]; omega
        rw [Option.bind_some, ih, hleft]
        cases ((q.entriesOf lanes).take (n - seen.length - (q lane).entries.length)).mapM
          fun e => Json.loads e.2 <;> simp

end Queue

/-! ## What the history says of the entries -/

/-- The task and the priority of the last `enqueue` of a text in a lane. -/
def lastEnqueued (calls : List QueueCall) (lane : Lane) (key : Str) :
    Option (CollectionTask × ℚ) :=
  calls.foldl (fun last call =>
    match call with
    | .enqueue task priority =>
      if .ofPriority priority = lane ∧ taskKey task.json = key then some (task, priority) else last
    | .pop _ => last) none

lemma lastEnqueued_enqueue (calls : List QueueCall) (task : CollectionTask) (priority : ℚ)
    (lane : Lane) (key : Str) :
    lastEnqueued (calls ++ [.enqueue task priority]) lane key =
      if .ofPriority priority = lane ∧ taskKey task.json = key then some (task, priority)
      else lastEnqueued calls lane key := by
  simp [lastEnqueued]

lemma lastEnqueued_pop (calls : List QueueCall) (n : ℕ) (lane : Lane) (key : Str) :
    lastEnqueued (calls ++ [.pop n]) lane key = lastEnqueued calls lane key := by
  simp [lastEnqueued]

/-- What was enqueued last in a lane belongs to the lane and has the text. -/
lemma of_lastEnqueued {calls : List QueueCall} {lane : Lane} {key : Str} {task : CollectionTask}
    {priority : ℚ} (h : lastEnqueued calls lane key = some (task, priority)) :
    Lane.ofPriority priority = lane ∧ taskKey task.json = key := by
  induction calls using List.reverseRecOn with
  | nil => cases h
  | append_singleton calls call ih =>
    cases call with
    | enqueue other p =>
      rw [lastEnqueued_enqueue] at h
      split_ifs at h with heq
      · cases h; exact heq
      · exact ih h
    | pop n => exact ih (lastEnqueued_pop calls n lane key ▸ h)

/-- What was enqueued last was enqueued. -/
lemma mem_of_lastEnqueued {calls : List QueueCall} {lane : Lane} {key : Str}
    {task : CollectionTask} {priority : ℚ}
    (h : lastEnqueued calls lane key = some (task, priority)) :
    .enqueue task priority ∈ calls := by
  induction calls using List.reverseRecOn with
  | nil => cases h
  | append_singleton calls call ih =>
    cases call with
    | enqueue other p =>
      rw [lastEnqueued_enqueue] at h
      split_ifs at h with heq
      · cases h
        exact List.mem_append_right _ (List.mem_singleton_self _)
      · exact List.mem_append_left _ (ih h)
    | pop n => exact List.mem_append_left _ (ih (lastEnqueued_pop calls n lane key ▸ h))

namespace Queue

variable {tie : Str ↪ τ} {q : Queue tie} {calls : List QueueCall}

/-- Every entry stands as it was enqueued last in its lane. -/
def Kept (calls : List QueueCall) (q : Queue tie) : Prop :=
  ∀ lane, ∀ e ∈ (q lane).entries, ∃ task, lastEnqueued calls lane e.2 = some (task, -e.1)

lemma Kept.enqueue (h : Kept calls q) (task : CollectionTask) (priority : ℚ) :
    Kept (calls ++ [.enqueue task priority]) (q.enqueue task.json priority) := by
  intro lane e he
  rw [lastEnqueued_enqueue]
  by_cases hlane : Lane.ofPriority priority = lane
  · subst hlane
    rw [Queue.enqueue, Function.update_self, SortedSet.mem_zadd] at he
    rcases he with rfl | ⟨hold, hne⟩
    · exact ⟨task, by simp⟩
    · rw [if_neg fun heq => hne heq.2.symm]
      exact h _ e hold
  · rw [Queue.enqueue, Function.update_of_ne (Ne.symm hlane)] at he
    rw [if_neg fun heq => hlane heq.1]
    exact h lane e he

lemma Kept.drain (h : Kept calls q) (n count : ℕ) (lanes : List Lane) :
    Kept (calls ++ [.pop n]) (q.drain count lanes) := by
  intro lane e he
  rw [lastEnqueued_pop]
  exact h lane e ((sublist_drain count lanes q lane).subset he)

/-- The entries of a lane have priorities of the lane. -/
lemma Kept.ofPriority_eq (h : Kept calls q) {lane : Lane} {e : ℚ × Str}
    (he : e ∈ (q lane).entries) : Lane.ofPriority (-e.1) = lane := by
  obtain ⟨task, hlast⟩ := h lane e he
  exact (of_lastEnqueued hlast).1

/-- The entries of the lanes one after another are in strict order. -/
lemma Kept.pairwise_rank (h : Kept calls q) : (q.entriesOf Lane.all).Pairwise fun e f =>
    SortedSet.rank tie e < SortedSet.rank tie f := by
  refine List.pairwise_flatMap.mpr ⟨fun lane _ => (q lane).sorted, ?_⟩
  refine Lane.pairwise_all.imp fun hlt e he f hf => SortedSet.rank_lt_of_lt ?_
  exact neg_lt_neg_iff.mp (hlt _ _ (h.ofPriority_eq he) (h.ofPriority_eq hf))

/-- **The lanes agree with the scores.** One after another they are sorted as a whole. -/
lemma Kept.byPriority_eq (h : Kept calls q) : q.byPriority = q.entriesOf Lane.all :=
  List.mergeSort_of_pairwise (h.pairwise_rank.imp fun hlt => by simpa using hlt.le)

/-- The entries of a lane are those with its priorities. -/
lemma Kept.filter_entriesOf (h : Kept calls q) (lane : Lane) :
    (q.entriesOf Lane.all).filter (fun e => Lane.ofPriority (-e.1) = lane) =
      (q lane).entries := by
  have hself : ∀ other, (q other).entries.filter (fun e => Lane.ofPriority (-e.1) = lane) =
      if other = lane then (q other).entries else [] := by
    intro other
    split_ifs with heq
    · subst heq
      exact List.filter_eq_self.mpr fun e he => decide_eq_true (h.ofPriority_eq he)
    · refine List.filter_eq_nil_iff.mpr fun e he heq' => heq ?_
      exact (h.ofPriority_eq he).symm.trans (of_decide_eq_true heq')
  simp only [entriesOf, Lane.all, List.flatMap_cons, List.flatMap_nil, List.filter_append, hself,
    List.filter_nil]
  cases lane <;> simp

/-- A returned task with its priority is what was enqueued last in its lane, but for the order of
the keys. -/
def AsEnqueued (calls : List QueueCall) (r : Json × ℚ) : Prop :=
  ∃ task, lastEnqueued calls (.ofPriority r.2) (taskKey r.1) = some (task, r.2) ∧
    r.1 = task.json.sortKeys

/-- The entries are read as what was enqueued. -/
lemma Kept.exists_read (h : Kept calls q) {l : List (ℚ × Str)}
    (hl : ∀ e ∈ l, e ∈ q.entriesOf Lane.all) :
    ∃ popped, l.mapM readEntry = some popped ∧
      (l.mapM fun e => Json.loads e.2) = some (popped.map Prod.fst) ∧
      popped.map entryOf = l ∧ ∀ r ∈ popped, AsEnqueued calls r := by
  induction l with
  | nil => exact ⟨[], rfl, rfl, rfl, by simp⟩
  | cons e l ih =>
    obtain ⟨popped, hread, hloads, hentries, hcalls⟩ :=
      ih fun f hf => hl f (List.mem_cons_of_mem e hf)
    obtain ⟨lane, -, he⟩ := List.mem_flatMap.mp (hl e (List.mem_cons_self ..))
    obtain ⟨task, hlast⟩ := h lane e he
    obtain ⟨hlane, hkey⟩ := of_lastEnqueued hlast
    have htask : Json.loads e.2 = some task.json.sortKeys := by
      rw [← hkey, task.loads_taskKey]
    have hkey' : taskKey task.json.sortKeys = e.2 := by rw [taskKey_sortKeys, hkey]
    refine ⟨(task.json.sortKeys, -e.1) :: popped, ?_, ?_, ?_, ?_⟩
    · simp [List.mapM_cons, readEntry, htask, hread]
    · simp [List.mapM_cons, htask, hloads]
    · simp [entryOf, hkey', hentries]
    · rintro r hr
      rcases List.mem_cons.mp hr with rfl | hmem
      · exact ⟨task, by rw [hkey', hlane, hlast], rfl⟩
      · exact hcalls r hmem

/-- Enqueueing entries adds to each lane those with its priorities. -/
lemma foldl_enqueue_apply (again : List (Json × ℚ)) (q : Queue tie) (lane : Lane) :
    again.foldl (fun q r => q.enqueue r.1 r.2) q lane =
      ((again.map entryOf).filter fun e => Lane.ofPriority (-e.1) = lane).foldl
        (fun s f => s.zadd f.1 f.2) (q lane) := by
  induction again generalizing q with
  | nil => rfl
  | cons r again ih =>
    rw [List.foldl_cons, ih, List.map_cons, List.filter_cons]
    by_cases hlane : Lane.ofPriority r.2 = lane
    · subst hlane
      simp [entryOf, enqueue]
    · simp [entryOf, enqueue, hlane, Function.update_of_ne (Ne.symm hlane)]

/-- Popping does not fail, and returns the first entries of all lanes as they were enqueued. -/
lemma Kept.exists_pop (h : Kept calls q) (n : ℕ) :
    ∃ popped, q.popTopWithPriority n = some (popped, q.drain n Lane.all) ∧
      ((q.entriesOf Lane.all).take n).mapM (fun e => Json.loads e.2) =
        some (popped.map Prod.fst) ∧
      popped.map entryOf = (q.entriesOf Lane.all).take n ∧ ∀ r ∈ popped, AsEnqueued calls r := by
  obtain ⟨popped, hread, hloads, hentries, hcalls⟩ :=
    h.exists_read fun e (he : e ∈ (q.entriesOf Lane.all).take n) => List.mem_of_mem_take he
  refine ⟨popped, ?_, hloads, hentries, hcalls⟩
  rw [popTopWithPriority, popLanes_eq Lane.nodup_all, List.length_nil, Nat.sub_zero, hread,
    Option.map_some, List.nil_append]

/-- What popping must return and leave: the entries of highest priority over all lanes, each as it
was enqueued last, which give the queue when they are enqueued again; the tasks are those that
`pop_top` returns and `peek` shows. -/
structure PopsTop (calls : List QueueCall) (q : Queue tie) (n : ℕ) (popped : List (Json × ℚ))
    (rest : Queue tie) : Prop where
  length : popped.length = min n q.size
  entries : popped.map entryOf = q.byPriority.take n
  remaining : rest.byPriority = q.byPriority.drop n
  ordered : popped.Pairwise fun r r' => r'.2 ≤ r.2
  highest : ∀ r ∈ popped, ∀ e ∈ rest.byPriority, -e.1 ≤ r.2
  asEnqueued : ∀ r ∈ popped, AsEnqueued calls r
  restored : ∀ again : List (Json × ℚ), again.Perm popped →
    again.foldl (fun q r => q.enqueue r.1 r.2) rest = q
  popTop : q.popTop n = some (popped.map Prod.fst, rest)
  peek : q.peek n = some (popped.map Prod.fst)

/-- Calls do not fail, and keep what the history says. -/
lemma exists_run (tie : Str ↪ τ) (calls : List QueueCall) :
    ∃ q, Queue.run tie calls = some q ∧ Kept calls q := by
  induction calls using List.reverseRecOn with
  | nil => exact ⟨.empty, rfl, by rintro lane e ⟨⟩⟩
  | append_singleton calls call ih =>
    obtain ⟨q, hrun, hkept⟩ := ih
    have hlast : Queue.run tie (calls ++ [call]) = call.run q := by
      simp only [Queue.run] at hrun
      simp [Queue.run, List.foldlM_append, hrun]
    rw [hlast]
    cases call with
    | enqueue task priority => exact ⟨_, rfl, hkept.enqueue task priority⟩
    | pop n =>
      obtain ⟨popped, hpop, -⟩ := hkept.exists_pop n
      refine ⟨q.drain n Lane.all, ?_, hkept.drain n n Lane.all⟩
      rw [QueueCall.run, hpop, Option.map_some]

/-- Places do not decrease along the entries sorted at once. -/
lemma pairwise_byPriority (q : Queue tie) : q.byPriority.Pairwise fun e f => e.1 ≤ f.1 := by
  refine (List.pairwise_mergeSort ?_ ?_ (q.entriesOf Lane.all)).imp
    fun {e f} hle => ?_
  · intro e f g hef hfg
    exact decide_eq_true ((of_decide_eq_true hef).trans (of_decide_eq_true hfg))
  · intro e f
    simpa using le_total (SortedSet.rank tie e) (SortedSet.rank tie f)
  · exact SortedSet.le_of_rank_le (of_decide_eq_true hle)

/-- Entries that are popped and enqueued again in any order give the queue back. -/
lemma Kept.restored (h : Kept calls q) {n : ℕ} {popped again : List (Json × ℚ)}
    (hentries : popped.map entryOf = (q.entriesOf Lane.all).take n) (hperm : again.Perm popped) :
    again.foldl (fun q r => q.enqueue r.1 r.2) (q.drain n Lane.all) = q := by
  have hrest : Kept (calls ++ [.pop n]) (q.drain n Lane.all) := h.drain n n Lane.all
  funext lane
  rw [foldl_enqueue_apply]
  refine SortedSet.foldl_zadd_of_perm ?_
  rw [← h.filter_entriesOf lane, ← hrest.filter_entriesOf lane, entriesOf_drain Lane.nodup_all,
    ← List.filter_append]
  refine List.Perm.filter _ ?_
  have hadded := (hperm.map entryOf).append_right ((q.entriesOf Lane.all).drop n)
  rwa [hentries, List.take_append_drop] at hadded

/-- **The priority queue.** After any calls of `enqueue` and of the popping functions, popping with
any bound does not fail, and returns the entries of highest priority of a plain sort of all lanes,
in that order and each as it was enqueued last in its lane. Enqueueing them again in any order gives
the queue back, and `peek` shows the tasks that `pop_top` returns.

**Proof sketch.** Along the calls every entry stands as it was enqueued last in its lane
(`Queue.Kept`), so that it is read back (`Json.loads_text`) and its lane is that of its priority.
Hence the lanes one after another are sorted (`Queue.Kept.byPriority_eq`); the loop over the lanes
takes the first entries of that list (`Queue.popLanes_eq`) and leaves the others
(`Queue.entriesOf_drain`). -/
theorem popTopWithPriority_popsTop (tie : Str ↪ τ) (calls : List QueueCall) (n : ℕ) :
    ∃ q popped rest, Queue.run tie calls = some q ∧
      q.popTopWithPriority n = some (popped, rest) ∧ PopsTop calls q n popped rest := by
  obtain ⟨q, hrun, hkept⟩ := exists_run tie calls
  obtain ⟨popped, hpop, hloads, hentries, hcalls⟩ := hkept.exists_pop n
  have hrest : Kept (calls ++ [.pop n]) (q.drain n Lane.all) := hkept.drain n n Lane.all
  have htop : popped.map entryOf = q.byPriority.take n := by rw [hkept.byPriority_eq, hentries]
  have hremaining : (q.drain n Lane.all).byPriority = q.byPriority.drop n := by
    rw [hkept.byPriority_eq, hrest.byPriority_eq, entriesOf_drain Lane.nodup_all]
  have hsorted := q.pairwise_byPriority
  rw [← List.take_append_drop n q.byPriority, ← htop, ← hremaining, List.pairwise_append,
    List.pairwise_map] at hsorted
  refine ⟨q, popped, q.drain n Lane.all, hrun, hpop, ?_⟩
  exact
    { length := by
        rw [← List.length_map (f := entryOf), hentries, List.length_take, size]
      entries := htop
      remaining := hremaining
      ordered := hsorted.1.imp fun hle => neg_le_neg_iff.mp hle
      highest := fun r hr e he =>
        neg_le.mp (hsorted.2.2 _ (List.mem_map_of_mem hr) e he)
      asEnqueued := hcalls
      restored := fun again hperm => hkept.restored hentries hperm
      popTop := by rw [Queue.popTop, hpop, Option.map_some]
      peek := by
        rw [Queue.peek, peekLanes_eq, List.length_nil, Nat.sub_zero, hloads, Option.map_some,
          List.nil_append] }

end Queue
