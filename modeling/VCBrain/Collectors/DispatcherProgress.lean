import Mathlib.Data.List.Perm.Subperm
import VCBrain.Collectors.Dispatcher

set_option relaxedAutoImplicit false
set_option autoImplicit false

/-!
# Progress of the dispatcher

The dispatcher runs periodically and pops as many tasks as its concurrency allows. A task that
could not be handed over goes back to its place, and a search that was put off goes to the end of
the lowest lane. This file bounds how long a task waits while tasks are enqueued between the runs.

## Main definitions

* `QueueEvent`, `DispatchedQueue.run` — runs of the dispatcher and calls of `enqueue` in any order.
* `inFront` — the number of entries in front of an entry.
* `QueueEvent.delay` — by how much an event can delay an entry.

## Main results

* `handedOver_of_ticks` — a task is handed over once the runs have popped more than can be in front
  of it.

## Design

The counter of searches is read from Redis by every run and may have any value there.
-/

namespace VCBrain

variable {τ : Type*} [LinearOrder τ] {tie : Str ↪ τ}

/-- A run of the dispatcher, with the counter of searches and the positions at which a task cannot
be handed over; or a call of `enqueue`. -/
inductive QueueEvent where
  | tick (tavily : ℤ) (fails : ℕ → Bool)
  | enqueue (task : CollectionTask) (priority : ℚ)

/-- The queue, and the jobs that were handed over. -/
structure DispatchedQueue (tie : Str ↪ τ) where
  queue : Queue tie
  jobs : List ArqJob := []

namespace DispatchedQueue

/-- The queue after an event; `none` if a text of the queue is no JSON. -/
def step (n : ℕ) (d : DispatchedQueue tie) : QueueEvent → Option (DispatchedQueue tie)
  | .tick tavily fails => (dispatcherJob fails n d.queue tavily).map fun s =>
      { queue := s.queue, jobs := d.jobs ++ s.jobs }
  | .enqueue task priority => some { d with queue := d.queue.enqueue task.json priority }

/-- The queue after events. -/
def run (n : ℕ) (d : DispatchedQueue tie) (events : List QueueEvent) :
    Option (DispatchedQueue tie) :=
  events.foldlM (step n) d

end DispatchedQueue

/-- The event is a run of the dispatcher. -/
def QueueEvent.isTick : QueueEvent → Bool
  | tick _ _ => true
  | enqueue _ _ => false

/-- By how much an event can delay an entry: the tasks of a run that are not handed over cost as
much as so many runs. -/
def QueueEvent.delay (n : ℕ) : QueueEvent → ℕ
  | tick _ fails => n * (List.range n).countP fails
  | enqueue _ _ => 1

/-- The number of entries in front of an entry. -/
def inFront (q : Queue tie) (e : ℚ × Str) : ℕ :=
  (q.entriesOf Lane.all).countP fun f => SortedSet.rank tie f < SortedSet.rank tie e

/-! ## What is in front of an entry -/

section Ahead

variable {q q' : Queue tie} {calls calls' : List QueueCall} {e : ℚ × Str}

/-- The entries in front of an entry are bounded by those that were there and those that were put
there. -/
lemma inFront_le (h : Queue.Kept calls' q') (extra : List (ℚ × Str))
    (hsub : ∀ f ∈ q'.entriesOf Lane.all, SortedSet.rank tie f < SortedSet.rank tie e →
      f ∈ q.entriesOf Lane.all ∨ f ∈ extra) :
    inFront q' e ≤ inFront q e + extra.length := by
  have hnodup : (q'.entriesOf Lane.all).Nodup := (nodup_map_placeOf h).of_map
  unfold inFront
  rw [List.countP_eq_length_filter, List.countP_eq_length_filter, ← List.length_append]
  refine ((hnodup.filter _).subperm fun f hf => ?_).length_le
  obtain ⟨hmem, hlt⟩ := List.mem_filter.mp hf
  rcases hsub f hmem (of_decide_eq_true hlt) with hold | hextra
  · exact List.mem_append_left _ (List.mem_filter.mpr ⟨hold, hlt⟩)
  · exact List.mem_append_right _ hextra

/-- After a removal of the first entries nothing is in front of those. -/
lemma inFront_drain_of_mem_take (h : Queue.Kept calls q) {n : ℕ}
    (he : e ∈ (q.entriesOf Lane.all).take n) : inFront (q.drain n Lane.all) e = 0 := by
  have hsplit := h.pairwise_rank
  rw [← List.take_append_drop n (q.entriesOf Lane.all), List.pairwise_append] at hsplit
  rw [inFront, Queue.entriesOf_drain Lane.nodup_all, List.countP_eq_zero]
  intro f hf hlt
  exact (hsplit.2.2 e he f hf).asymm (of_decide_eq_true hlt)

/-- A removal of the first entries removes them in front of the others. -/
lemma inFront_drain_of_mem_drop (h : Queue.Kept calls q) {n : ℕ}
    (he : e ∈ (q.entriesOf Lane.all).drop n) :
    inFront (q.drain n Lane.all) e + n = inFront q e := by
  have hsplit := h.pairwise_rank
  have hlength : n ≤ (q.entriesOf Lane.all).length := by
    by_contra hlt
    rw [List.drop_of_length_le (by omega)] at he
    cases he
  rw [← List.take_append_drop n (q.entriesOf Lane.all), List.pairwise_append] at hsplit
  have htaken : ((q.entriesOf Lane.all).take n).countP
      (fun f => SortedSet.rank tie f < SortedSet.rank tie e) = n := by
    rw [List.countP_eq_length.mpr fun f hf => decide_eq_true (hsplit.2.2 f hf e he),
      List.length_take, Nat.min_eq_left hlength]
  rw [inFront, inFront, Queue.entriesOf_drain Lane.nodup_all]
  nth_rewrite 2 [← List.take_append_drop n (q.entriesOf Lane.all)]
  rw [List.countP_append, htaken]
  omega

end Ahead

/-! ## One run -/

/-- The task with sorted keys. -/
def sortedTask (task : CollectionTask) : CollectionTask where
  json := task.json.sortKeys
  wellFormed := Json.wellFormed_sortKeys task.wellFormed
  object := by
    obtain ⟨fields, hfields⟩ := task.object
    rw [hfields]
    exact ⟨_, rfl⟩

/-- The tasks of a run that were not handed over by a failure. -/
def Dispatch.failures (s : Dispatch tie) : ℕ := s.outcomes.countP fun o => o.2 = .failed

section Run

variable {q : Queue tie} {calls : List QueueCall} {s : Dispatch tie} {popped : List (Json × ℚ)}

/-- A run changes the queue by calls alone. -/
lemma exists_run_dispatchTasks {fails : ℕ → Bool} {i : ℕ}
    (htasks : ∀ r ∈ popped, ∃ task : CollectionTask, r.1 = task.json)
    (h : ∃ calls, Queue.run tie calls = some s.queue) :
    ∃ calls, Queue.run tie calls = some (dispatchTasks fails i popped s).queue := by
  induction popped generalizing i s with
  | nil => exact h
  | cons r popped ih =>
    rw [List.forall_mem_cons] at htasks
    obtain ⟨⟨task, htask⟩, hrest⟩ := htasks
    refine ih hrest ?_
    obtain ⟨calls, hcalls⟩ := h
    have hadd : ∀ priority, ∃ calls,
        Queue.run tie calls = some (s.queue.enqueue r.1 priority) := by
      intro priority
      refine ⟨calls ++ [.enqueue task priority], ?_⟩
      unfold Queue.run at hcalls ⊢
      rw [List.foldlM_append, hcalls, htask]
      rfl
    unfold dispatchTask
    split_ifs
    · exact hadd deferralPriority
    · exact hadd r.2
    · exact ⟨calls, hcalls⟩
    · exact hadd r.2
    · exact ⟨calls, hcalls⟩

/-- A run fails no more often than it is told to. -/
lemma failures_dispatchTasks_le {fails : ℕ → Bool} {i : ℕ} :
    (dispatchTasks fails i popped s).failures ≤
      s.failures + (List.range' i popped.length).countP fails := by
  induction popped generalizing i s with
  | nil => simp [dispatchTasks]
  | cons r popped ih =>
    have hstep : (dispatchTask (fails i) r s).failures ≤ s.failures + (fails i).toNat := by
      unfold dispatchTask Dispatch.failures
      split_ifs with _ _ hfails hfails <;>
        simp [Dispatch.putBack, Dispatch.charge, Dispatch.deliver, *]
    have hrest := ih (i := i + 1) (s := dispatchTask (fails i) r s)
    rw [dispatchTasks, List.length_cons, List.range'_succ, List.countP_cons]
    cases hfails : fails i <;> simp [hfails] at hstep hrest ⊢ <;> omega

/-- After any calls a run does not fail, its tasks are conserved, and its queue is one after
calls. -/
lemma exists_dispatcherJob (hrun : Queue.run tie calls = some q) (n : ℕ) (tavily : ℤ)
    (fails : ℕ → Bool) :
    ∃ popped s, dispatcherJob fails n q tavily = some s ∧
      popped.map Queue.entryOf = (q.entriesOf Lane.all).take n ∧
      Popped (q.drain n Lane.all) popped ∧
      TasksConserved popped (q.drain n Lane.all) tavily s ∧
      s.failures ≤ (List.range n).countP fails ∧
      ∃ calls', Queue.run tie calls' = some s.queue := by
  obtain ⟨q', popped, rest, hrun', hpop', hpopped⟩ := exists_popped tie calls n
  obtain rfl : q = q' := Option.some.inj (hrun.symm.trans hrun')
  obtain ⟨q', hrun', hkept⟩ := Queue.exists_run tie calls
  obtain rfl : q = q' := Option.some.inj (hrun.symm.trans hrun')
  obtain ⟨popped', hpop, -, hentries, hcalls⟩ := hkept.exists_pop n
  obtain ⟨rfl, rfl⟩ := Prod.mk.inj (Option.some.inj (hpop'.symm.trans hpop))
  have hstart : DispatchInv (q.drain n Lane.all) tavily []
      { queue := q.drain n Lane.all, tavily := tavily, remaining := tavily } := by
    refine ⟨⟨rfl, rfl, nofun, nofun, fun _ _ he => Or.inl he, fun _ _ he => Or.inl he, ?_, nofun⟩,
      rfl, nofun⟩
    exact (sub_zero tavily).symm
  have hloop : DispatchInv (q.drain n Lane.all) tavily popped (dispatchTasks fails 0 popped _) :=
    hstart.loop hpopped
  refine ⟨popped, _, by rw [dispatcherJob, hpop, Option.map_some], hentries, hpopped,
    hloop.conserved, ?_, ?_⟩
  · have hlength : popped.length ≤ n := by
      have h := congrArg List.length hentries
      rw [List.length_map, List.length_take] at h
      omega
    refine failures_dispatchTasks_le.trans ?_
    rw [Dispatch.failures, List.countP_nil, Nat.zero_add, List.range_eq_range']
    exact (List.range'_sublist_right.mpr hlength).countP_le
  · refine exists_run_dispatchTasks (fun r hr => ?_) ⟨calls ++ [.pop n], ?_⟩
    · obtain ⟨task, -, htask⟩ := hcalls r hr
      exact ⟨sortedTask task, htask⟩
    · unfold Queue.run at hrun ⊢
      rw [List.foldlM_append, hrun]
      simp [QueueCall.run, hpop]

/-- What is in front of an entry after a run was there or is put back there, unless the entry comes
behind the searches that are put off. -/
lemma mem_of_rank_lt {rest : Queue tie} {tavily : ℤ} {e f : ℚ × Str}
    (h : TasksConserved popped rest tavily s) (hpriority : deferralPriority < -e.1)
    (hf : f ∈ s.queue.entriesOf Lane.all) (hlt : SortedSet.rank tie f < SortedSet.rank tie e) :
    f ∈ rest.entriesOf Lane.all ∨
      f ∈ ((s.outcomes.filter fun o => o.2 = .failed).map fun o => Queue.entryOf o.1) := by
  obtain ⟨lane, -, hlane⟩ := List.mem_flatMap.mp hf
  rcases h.nothingElse lane f hlane with hrest | ⟨r, hr, -, rfl⟩ | ⟨r, -, -, rfl⟩
  · exact .inl (List.mem_flatMap.mpr ⟨lane, Lane.mem_all lane, hrest⟩)
  · exact .inr (List.mem_map.mpr ⟨(r, .failed), List.mem_filter.mpr ⟨hr, rfl⟩, rfl⟩)
  · have hle := SortedSet.le_of_rank_le hlt.le
    rw [Queue.entryOf] at hle
    linarith

/-- **One run.** A task that is not put off is handed over, or as many entries in front of it are
gone as the run pops, but for those that could not be handed over.

**Proof sketch.** If the entry is among the first ones, nothing that is left is in front of it, and
it is put back only if it fails. If not, the first ones are gone, and those that come back are
failures or searches that are put off, which come behind it. -/
lemma handedOver_or_closer (hrun : Queue.run tie calls = some q) (n : ℕ) (tavily : ℤ)
    (fails : ℕ → Bool) {e : ℚ × Str} (he : e ∈ q.entriesOf Lane.all)
    (hpriority : deferralPriority < -e.1) {task : Json} (htask : Json.loads e.2 = some task)
    (hsource : ¬ FromTavily task) :
    ∃ s calls', dispatcherJob fails n q tavily = some s ∧ Queue.run tie calls' = some s.queue ∧
      (arqJob task ∈ s.jobs ∨ e ∈ s.queue.entriesOf Lane.all ∧
        inFront s.queue e + n ≤ inFront q e + n * (List.range n).countP fails) := by
  obtain ⟨popped, s, hjob, hentries, hpopped, hconserved, hfailures, calls', hcalls'⟩ :=
    exists_dispatcherJob hrun n tavily fails
  refine ⟨s, calls', hjob, hcalls', ?_⟩
  obtain ⟨q', hrun', hkept⟩ := Queue.exists_run tie calls
  obtain rfl : q = q' := Option.some.inj (hrun.symm.trans hrun')
  obtain ⟨queue, hqueue, hkept'⟩ := Queue.exists_run tie calls'
  obtain rfl : s.queue = queue := Option.some.inj (hcalls'.symm.trans hqueue)
  have hread : ∀ r ∈ popped, taskKey r.1 = e.2 → r.1 = task := fun r hr hkey =>
    Option.some.inj ((hpopped.read r hr).symm.trans (hkey ▸ htask))
  set failed := (s.outcomes.filter fun o => o.2 = .failed).map fun o => Queue.entryOf o.1
    with hfailed
  have hlength : failed.length = s.failures := by
    rw [hfailed, List.length_map, Dispatch.failures, List.countP_eq_length_filter]
  rw [← List.take_append_drop n (q.entriesOf Lane.all), List.mem_append] at he
  rcases he with he | he
  · have hn : 0 < n := by
      by_contra hzero
      rw [Nat.eq_zero_of_not_pos hzero, List.take_zero] at he
      cases he
    obtain ⟨r, hr, rfl⟩ := List.mem_map.mp (hentries ▸ he)
    obtain rfl := hread r hr rfl
    obtain ⟨⟨r', o⟩, ho, hro⟩ := List.mem_map.mp (hconserved.once ▸ hr)
    obtain rfl : r' = r := hro
    cases o with
    | delivered =>
      refine .inl ?_
      rw [hconserved.delivered]
      exact List.mem_map.mpr ⟨(r', .delivered), List.mem_filter.mpr ⟨ho, rfl⟩, rfl⟩
    | deferred => exact absurd (hconserved.deferred r' ho).1 hsource
    | failed =>
      have hself : Queue.entryOf r' ∈ failed :=
        List.mem_map.mpr ⟨(r', .failed), List.mem_filter.mpr ⟨ho, rfl⟩, rfl⟩
      refine .inr ⟨List.mem_flatMap.mpr ⟨_, Lane.mem_all _, hconserved.failed r' ho⟩, ?_⟩
      have hle : inFront s.queue (Queue.entryOf r') ≤
          inFront (q.drain n Lane.all) (Queue.entryOf r') +
            (failed.erase (Queue.entryOf r')).length :=
        inFront_le hkept' _ fun f hf hlt => by
          refine (mem_of_rank_lt hconserved hpriority hf hlt).imp_right fun hmem => ?_
          refine (List.mem_erase_of_ne ?_).mpr hmem
          rintro rfl
          exact lt_irrefl _ hlt
      rw [inFront_drain_of_mem_take hkept he, List.length_erase_of_mem hself, hlength] at hle
      have hpos : 0 < s.failures := by
        rw [← hlength]
        exact List.length_pos_of_mem hself
      have hmul : n + ((List.range n).countP fails - 1) ≤ n * (List.range n).countP fails := by
        obtain ⟨k, hk⟩ : ∃ k, (List.range n).countP fails = k + 1 :=
          Nat.exists_eq_add_of_lt (Nat.lt_of_lt_of_le hpos hfailures) |>.imp fun k hk => by omega
        rw [hk, Nat.add_sub_cancel, Nat.mul_add]
        nlinarith
      omega
  · have hrest : e ∈ (q.drain n Lane.all).entriesOf Lane.all := by
      rwa [Queue.entriesOf_drain Lane.nodup_all]
    obtain ⟨lane, -, hlane⟩ := List.mem_flatMap.mp hrest
    refine .inr ⟨?_, ?_⟩
    · rcases hconserved.untouched lane e hlane with hkeep | ⟨-, r, hr, hkey⟩
      · exact List.mem_flatMap.mpr ⟨lane, Lane.mem_all lane, hkeep⟩
      · have hmem : r ∈ popped := by
          rw [← hconserved.once]
          exact List.mem_map_of_mem hr
        obtain rfl := hread r hmem hkey
        exact absurd (hconserved.deferred r hr).1 hsource
    · have hle : inFront s.queue e ≤ inFront (q.drain n Lane.all) e + failed.length :=
        inFront_le hkept' failed fun f hf hlt => mem_of_rank_lt hconserved hpriority hf hlt
      have hdrop := inFront_drain_of_mem_drop hkept he
      have hmul : (List.range n).countP fails ≤ n * (List.range n).countP fails := by
        cases n with
        | zero => simp
        | succ n => exact Nat.le_mul_of_pos_left _ n.succ_pos
      omega

end Run

/-! ## Any number of runs -/

section Runs

variable {n : ℕ} {q : Queue tie} {calls : List QueueCall} {events : List QueueEvent} {e : ℚ × Str}

/-- Jobs that were handed over are not forgotten. -/
lemma jobs_subset_of_run {d d' : DispatchedQueue tie}
    (h : DispatchedQueue.run n d events = some d') : d.jobs ⊆ d'.jobs := by
  induction events generalizing d with
  | nil =>
    obtain rfl : d = d' := Option.some.inj h
    exact List.Subset.refl _
  | cons event events ih =>
    obtain ⟨middle, hstep, hrest⟩ := Option.bind_eq_some_iff.mp h
    refine List.Subset.trans ?_ (ih hrest)
    cases event with
    | tick tavily fails =>
      obtain ⟨s, -, rfl⟩ := Option.map_eq_some_iff.mp hstep
      exact List.subset_append_left _ _
    | enqueue task priority =>
      obtain rfl := Option.some.inj hstep
      exact List.Subset.refl _

/-- After any calls, events do not fail. -/
lemma exists_dispatchedRun (n : ℕ) (events : List QueueEvent)
    (hrun : Queue.run tie calls = some q) (jobs : List ArqJob) :
    ∃ d, DispatchedQueue.run n ⟨q, jobs⟩ events = some d := by
  induction events generalizing q calls jobs with
  | nil => exact ⟨_, rfl⟩
  | cons event events ih =>
    cases event with
    | tick tavily fails =>
      obtain ⟨popped, s, hjob, -, -, -, -, calls', hcalls'⟩ :=
        exists_dispatcherJob hrun n tavily fails
      obtain ⟨d, hd⟩ := ih hcalls' (jobs ++ s.jobs)
      refine ⟨d, ?_⟩
      simpa [DispatchedQueue.run, DispatchedQueue.step, hjob] using hd
    | enqueue task priority =>
      have hcalls : Queue.run tie (calls ++ [.enqueue task priority]) =
          some (q.enqueue task.json priority) := by
        unfold Queue.run at hrun ⊢
        rw [List.foldlM_append, hrun]
        rfl
      obtain ⟨d, hd⟩ := ih hcalls jobs
      exact ⟨d, hd⟩

/-- **Bounded waiting.** After any calls on the queue, whatever the counter of searches says: a task
that does not search and has a priority above that of a search that is put off is handed over, once
the runs have popped more tasks than are in front of it, are enqueued meanwhile, and fail.

**Proof sketch.** Induction on the events. A run either hands the task over or removes as many
entries in front of it as it pops, but for those that come back; a call of `enqueue` adds one at
most. -/
theorem handedOver_of_ticks (hrun : Queue.run tie calls = some q)
    (he : e ∈ q.entriesOf Lane.all) (hpriority : deferralPriority < -e.1)
    (hsource : ∀ task, Json.loads e.2 = some task → ¬ FromTavily task)
    (hother : ∀ task priority, .enqueue task priority ∈ events → taskKey task.json ≠ e.2)
    (hcount : inFront q e + (events.map (QueueEvent.delay n)).sum <
      n * events.countP QueueEvent.isTick) (jobs : List ArqJob) :
    ∃ d, DispatchedQueue.run n ⟨q, jobs⟩ events = some d ∧
      ∃ task, Json.loads e.2 = some task ∧ arqJob task ∈ d.jobs := by
  induction events generalizing q calls jobs with
  | nil => simp at hcount
  | cons event events ih =>
    have hother' : ∀ task priority, .enqueue task priority ∈ events → taskKey task.json ≠ e.2 :=
      fun task priority hmem => hother task priority (List.mem_cons_of_mem _ hmem)
    obtain ⟨q', hq', hkept⟩ := Queue.exists_run tie calls
    obtain rfl : q = q' := Option.some.inj (hrun.symm.trans hq')
    cases event with
    | tick tavily fails =>
      obtain ⟨popped, -, hloads, -⟩ := hkept.exists_read fun f (hf : f ∈ [e]) =>
        List.mem_singleton.mp hf ▸ he
      obtain ⟨task, htask⟩ : ∃ task, Json.loads e.2 = some task := by
        cases h : Json.loads e.2 with
        | none => simp [h] at hloads
        | some task => exact ⟨task, rfl⟩
      obtain ⟨s, calls', hjob, hcalls', hprogress⟩ :=
        handedOver_or_closer hrun n tavily fails he hpriority htask (hsource task htask)
      have hstep : ∀ d, DispatchedQueue.run n ⟨s.queue, jobs ++ s.jobs⟩ events = some d →
          DispatchedQueue.run n ⟨q, jobs⟩ (.tick tavily fails :: events) = some d := by
        intro d hd
        simpa [DispatchedQueue.run, DispatchedQueue.step, hjob] using hd
      rcases hprogress with hdone | ⟨hmem, hcloser⟩
      · obtain ⟨d, hd⟩ := exists_dispatchedRun n events hcalls' (jobs ++ s.jobs)
        exact ⟨d, hstep d hd, task, htask,
          jobs_subset_of_run hd (List.mem_append_right _ hdone)⟩
      · obtain ⟨d, hd, hresult⟩ := ih hcalls' hmem hother' (by
          simp only [List.map_cons, List.sum_cons, List.countP_cons, QueueEvent.delay,
            QueueEvent.isTick, if_true, Nat.mul_add, Nat.mul_one] at hcount
          omega) (jobs ++ s.jobs)
        exact ⟨d, hstep d hd, hresult⟩
    | enqueue task priority =>
      have hcalls : Queue.run tie (calls ++ [.enqueue task priority]) =
          some (q.enqueue task.json priority) := by
        unfold Queue.run at hrun ⊢
        rw [List.foldlM_append, hrun]
        rfl
      have hkey := hother task priority (List.mem_cons_self ..)
      obtain ⟨lane, -, hlane⟩ := List.mem_flatMap.mp he
      have hmem : e ∈ (q.enqueue task.json priority).entriesOf Lane.all :=
        List.mem_flatMap.mpr ⟨lane, Lane.mem_all lane,
          mem_enqueue.mpr (.inr ⟨hlane, fun h => hkey h.2.symm⟩)⟩
      have hle : inFront (q.enqueue task.json priority) e ≤
          inFront q e + [Queue.entryOf (task.json, priority)].length := by
        refine inFront_le (hkept.enqueue task priority) _ fun f hf _ => ?_
        obtain ⟨lane, -, hlane⟩ := List.mem_flatMap.mp hf
        rcases mem_enqueue.mp hlane with ⟨-, rfl⟩ | ⟨hold, -⟩
        · exact .inr (List.mem_singleton_self _)
        · exact .inl (List.mem_flatMap.mpr ⟨lane, Lane.mem_all lane, hold⟩)
      refine ih hcalls hmem hother' ?_ jobs
      simp only [List.map_cons, List.sum_cons, List.countP_cons, QueueEvent.delay,
        QueueEvent.isTick, List.length_singleton] at hcount hle
      simp at hcount
      omega

end Runs

/-- A task that scores a person. -/
private def waitingTask : CollectionTask where
  json := .obj [("job_type", .str "score_candidate"), ("person_id", .str "7")]
  wellFormed := by decide
  object := ⟨_, rfl⟩

/-- The task is behind a search. -/
private def waitingCalls : List QueueCall := [.enqueue searchTask 10, .enqueue waitingTask 5]

/-- The second run cannot hand its task over. -/
private def waitingEvents : List QueueEvent :=
  [.tick 0 fun _ => false, .tick 0 fun _ => true, .tick 0 fun _ => false]

/-- The task is handed over by the third run. -/
theorem handedOver_of_ticks_waiting :
    ∃ q d, Queue.run byText waitingCalls = some q ∧
      DispatchedQueue.run 1 ⟨q, []⟩ waitingEvents = some d ∧
        ∃ task, Json.loads (taskKey waitingTask.json) = some task ∧ arqJob task ∈ d.jobs := by
  have hentries : ((Queue.run byText waitingCalls).map fun q => q.entriesOf Lane.all) =
      some [(-10, taskKey searchTask.json), (-5, taskKey waitingTask.json)] := by decide +kernel
  obtain ⟨q, hrun, hq⟩ := Option.map_eq_some_iff.mp hentries
  have hread : Json.loads (taskKey waitingTask.json) = some waitingTask.json := by decide +kernel
  have hmem : (-5, taskKey waitingTask.json) ∈ q.entriesOf Lane.all := by
    rw [hq]
    simp
  have hsource : ∀ task, Json.loads (taskKey waitingTask.json) = some task → ¬ FromTavily task := by
    intro task htask
    rw [hread] at htask
    obtain rfl := Option.some.inj htask
    decide
  have hcount : inFront q (-5, taskKey waitingTask.json) +
      (waitingEvents.map (QueueEvent.delay 1)).sum <
        1 * waitingEvents.countP QueueEvent.isTick := by
    rw [inFront, hq]
    decide +kernel
  obtain ⟨d, hd, hjob⟩ := handedOver_of_ticks hrun hmem (by norm_num [deferralPriority]) hsource
    (by simp [waitingEvents]) hcount []
  exact ⟨q, d, hrun, hd, hjob⟩

end VCBrain
