import VCBrain.Collectors.BudgetRace
import VCBrain.Foundation.GroupBy

set_option relaxedAutoImplicit false
set_option autoImplicit false

/-!
# Tasks in flight

A task that is enqueued stands in the queue under its text until a dispatcher run pops it. The run
then has it in its hands, until it hands the task over to Arq or puts it back into the queue. This
file follows the texts through the commands of any number of overlapping dispatcher runs.

## Main definitions

* `TaskFlow` — the store, the dispatcher runs, and what was handed over.
* `TaskFlow.command`, `TaskFlow.enqueue`, `TaskFlow.stop` — what happens to it.
* `TaskFlow.InLane`, `TaskFlow.InFlight` — a text stands in a lane or is in the hands of a run.
* `TaskFlow.Readable` — the entries are texts of tasks and stand in the lanes of their priorities.
* `DispatcherMove` — the four things a command can do with tasks.

## Main results

* `dispatcherMove_of_command` — a command does one of these things.
* `TaskFlow.inLane_of_command` — no command brings a new text into a lane, unless it puts a task
  off.
* `TaskFlow.inFlight_or_delivered_of_command` — no command loses a task.
-/

namespace VCBrain

/-- The tasks that a dispatcher run has popped and not yet handed over or put back. -/
def DispatcherStage.held : DispatcherStage → List (Json × ℚ)
  | .popping _ _ _ tasks | .looping _ tasks | .refunding _ tasks => tasks
  | .delivering _ r tasks | .failed _ r tasks => r :: tasks
  | .ready | .finished => []

/-- The jobs that Arq takes with the next command of a run. -/
def DispatcherStage.handsOver (accepted : Bool) : DispatcherStage → List ArqJob
  | .delivering _ r _ => if accepted then [arqJob r.1] else []
  | _ => []

variable {τ : Type*} [LinearOrder τ] {tie : Str ↪ τ}

/-- The store, the dispatcher runs, and the jobs that were handed over to Arq. -/
structure TaskFlow (κ : Type*) (tie : Str ↪ τ) where
  store : BudgetStore tie
  dispatcher : κ → DispatcherStage
  delivered : List ArqJob := []

namespace TaskFlow

variable {κ : Type*} [DecidableEq κ]

/-- The next command of a dispatcher run with the concurrency `n`. -/
def command (n : ℕ) (k : κ) (accepted : Bool) (f : TaskFlow κ tie) : Option (TaskFlow κ tie) :=
  (dispatcherCommand n accepted f.store (f.dispatcher k)).map fun u =>
    { store := u.1
      dispatcher := Function.update f.dispatcher k u.2
      delivered := f.delivered ++ (f.dispatcher k).handsOver accepted }

/-- A dispatcher run ends before its last command. -/
def stop (k : κ) (f : TaskFlow κ tie) : TaskFlow κ tie :=
  { f with dispatcher := Function.update f.dispatcher k .finished }

/-- `queue_enqueue` of a task. -/
def enqueue (task : CollectionTask) (priority : ℚ) (f : TaskFlow κ tie) : TaskFlow κ tie :=
  { f with store := { f.store with queue := f.store.queue.enqueue task.json priority } }

/-- The text stands in the lane, or a run has its task in its hands with a priority of the lane. -/
def InLane (f : TaskFlow κ tie) (lane : Lane) (text : Str) : Prop :=
  (∃ e ∈ (f.store.queue lane).entries, e.2 = text) ∨
    ∃ k, ∃ r ∈ (f.dispatcher k).held, taskKey r.1 = text ∧ Lane.ofPriority r.2 = lane

/-- The text stands in the queue, or a run has its task in its hands. -/
def InFlight (f : TaskFlow κ tie) (text : Str) : Prop := ∃ lane, f.InLane lane text

/-- Every entry stands in the lane of its priority and is the text of the task it is read as, and
so is every task in the hands of a run. -/
structure Readable (f : TaskFlow κ tie) : Prop where
  queued : ∀ lane, ∀ e ∈ (f.store.queue lane).entries, Lane.ofPriority (-e.1) = lane ∧
    ∃ task, Json.loads e.2 = some task ∧ taskKey task = e.2
  held : ∀ k, ∀ r ∈ (f.dispatcher k).held, Json.loads (taskKey r.1) = some r.1

end TaskFlow

/-! ## What a command does with tasks -/

/-- The four things a command of a dispatcher run can do with the queue and with the tasks in its
hands. -/
inductive DispatcherMove (accepted : Bool) (q : Queue tie) (stage stage' : DispatcherStage) :
    Queue tie → Prop
  | keep (held : stage'.held = stage.held) (handed : stage.handsOver accepted = []) :
    DispatcherMove accepted q stage stage' q
  /-- The first entries of a lane are popped. -/
  | pop (lane : Lane) (count : ℕ) (popped : List (Json × ℚ))
    (read : ((q lane).entries.take count).mapM Queue.readEntry = some popped)
    (held : stage'.held = stage.held ++ popped) (handed : stage.handsOver accepted = []) :
    DispatcherMove accepted q stage stage'
      (Function.update q lane ((q lane).zpopmin count).2)
  /-- A task is put back with its priority, or put off. -/
  | putBack (r : Json × ℚ) (priority : ℚ) (held : stage.held = r :: stage'.held)
    (lane : priority = r.2 ∨ priority = deferralPriority ∧ FromTavily r.1)
    (handed : stage.handsOver accepted = []) :
    DispatcherMove accepted q stage stage' (q.enqueue r.1 priority)
  | deliver (r : Json × ℚ) (held : stage.held = r :: stage'.held)
    (handed : stage.handsOver accepted = [arqJob r.1]) :
    DispatcherMove accepted q stage stage' q

/-- Going on to the next lane leaves the tasks in the hands of the run. -/
@[simp] lemma held_popNext (n : ℕ) (remaining : ℤ) (tasks : List (Json × ℚ)) (lanes : List Lane) :
    (popNext n remaining tasks lanes).held = tasks := by
  cases lanes with
  | nil => rfl
  | cons lane lanes =>
    rw [popNext]
    split_ifs <;> rfl

/-- A task that is put off goes to the lowest lane. -/
lemma ofPriority_deferralPriority : Lane.ofPriority deferralPriority = .low := by
  unfold Lane.ofPriority deferralPriority
  rw [if_neg (by norm_num), if_neg (by norm_num)]

/-- **One command.** If the entries of the queue can be read, the next command of a dispatcher run
does one of the four things. -/
lemma dispatcherMove_of_command {n : ℕ} {accepted : Bool} {store store' : BudgetStore tie}
    {stage stage' : DispatcherStage}
    (hread : ∀ lane, ∀ e ∈ (store.queue lane).entries, ∃ task, Json.loads e.2 = some task)
    (h : dispatcherCommand n accepted store stage = some (store', stage')) :
    DispatcherMove accepted store.queue stage stage' store'.queue := by
  cases stage with
  | ready =>
    cases h
    exact .keep (held_popNext ..) rfl
  | popping remaining lane lanes tasks =>
    have hentries : ∀ e ∈ (store.queue lane).entries.take (n - tasks.length),
        ∃ r, Queue.readEntry e = some r := by
      intro e he
      obtain ⟨task, htask⟩ := hread lane e (List.mem_of_mem_take he)
      exact ⟨(task, -e.1), by rw [Queue.readEntry, htask, Option.map_some]⟩
    obtain ⟨popped, hpopped⟩ := exists_mapM_eq_some hentries
    simp only [dispatcherCommand, SortedSet.zpopmin_fst, hpopped] at h
    cases h
    exact .pop lane _ popped hpopped (held_popNext ..) rfl
  | looping remaining tasks =>
    cases tasks with
    | nil =>
      cases h
      exact .keep rfl rfl
    | cons r tasks =>
      simp only [dispatcherCommand] at h
      split_ifs at h with hdefer
      · cases h
        exact .putBack r deferralPriority rfl (Or.inr ⟨rfl, hdefer.1⟩) rfl
      · cases h
        exact .keep rfl rfl
  | delivering remaining r tasks =>
    cases h
    cases accepted with
    | true => exact .deliver r rfl rfl
    | false => exact .keep rfl rfl
  | failed remaining r tasks =>
    cases h
    refine .putBack r r.2 ?_ (Or.inl rfl) rfl
    split_ifs <;> rfl
  | refunding remaining tasks =>
    cases h
    exact .keep rfl rfl
  | finished => cases h

/-! ## Texts through the commands -/

namespace TaskFlow

variable {κ : Type*} {f u : TaskFlow κ tie} {n : ℕ} {k : κ} {accepted : Bool} {lane : Lane}
  {text : Str}

/-- A task that was popped stood in the lane under its text, with its priority. -/
lemma Readable.of_popped (hread : f.Readable) {count : ℕ} {popped : List (Json × ℚ)}
    (hpopped : ((f.store.queue lane).entries.take count).mapM Queue.readEntry = some popped)
    {r : Json × ℚ} (hr : r ∈ popped) :
    ∃ e ∈ (f.store.queue lane).entries, e = Queue.entryOf r ∧
      Json.loads (taskKey r.1) = some r.1 ∧ Lane.ofPriority r.2 = lane := by
  obtain ⟨e, he, hentry⟩ := (mem_of_mapM_eq_some hpopped).mp hr
  have hmem := List.mem_of_mem_take he
  obtain ⟨hlane, task, htask, hkey⟩ := hread.queued lane e hmem
  rw [Queue.readEntry, htask, Option.map_some, Option.some.injEq] at hentry
  subst hentry
  refine ⟨e, hmem, ?_, ?_, hlane⟩
  · rw [Queue.entryOf, hkey, neg_neg]
  · rw [hkey, htask]

variable [DecidableEq κ]

/-- What one of the runs has in its hands when the run `k` has moved on. -/
lemma exists_held_update {dispatcher : κ → DispatcherStage} {stage : DispatcherStage}
    {p : Json × ℚ → Prop} :
    (∃ k', ∃ r ∈ (Function.update dispatcher k stage k').held, p r) ↔
      (∃ r ∈ stage.held, p r) ∨ ∃ k', k' ≠ k ∧ ∃ r ∈ (dispatcher k').held, p r := by
  constructor
  · rintro ⟨k', r, hr, hp⟩
    by_cases heq : k' = k
    · subst heq
      rw [Function.update_self] at hr
      exact Or.inl ⟨r, hr, hp⟩
    · rw [Function.update_of_ne heq] at hr
      exact Or.inr ⟨k', heq, r, hr, hp⟩
  · rintro (⟨r, hr, hp⟩ | ⟨k', heq, r, hr, hp⟩)
    · exact ⟨k, r, by rwa [Function.update_self], hp⟩
    · exact ⟨k', r, by rwa [Function.update_of_ne heq], hp⟩

/-- The command of a run moves this run on, and what it hands over is delivered. -/
lemma move_of_command (hread : f.Readable) (h : f.command n k accepted = some u) :
    ∃ stage, DispatcherMove accepted f.store.queue (f.dispatcher k) stage u.store.queue ∧
      u.dispatcher = Function.update f.dispatcher k stage ∧
      u.delivered = f.delivered ++ (f.dispatcher k).handsOver accepted := by
  obtain ⟨⟨store, stage⟩, hcommand, rfl⟩ := Option.map_eq_some_iff.mp h
  refine ⟨stage, dispatcherMove_of_command ?_ hcommand, rfl, rfl⟩
  intro lane e he
  obtain ⟨-, task, htask, -⟩ := hread.queued lane e he
  exact ⟨task, htask⟩

/-- **No new texts.** A text that stands in a lane after a command, or is in the hands of a run, was
there before, unless its task is one for Tavily that was put off.

**Proof sketch.** A popped task comes from an entry of the lane, and a task that is put back with
its priority comes from the hands of the run. -/
lemma inLane_of_command (hread : f.Readable) (h : f.command n k accepted = some u)
    (hu : u.InLane lane text) :
    f.InLane lane text ∨ lane = .low ∧ f.InFlight text ∧
      ∃ task, Json.loads text = some task ∧ FromTavily task := by
  obtain ⟨stage, hmove, hdispatcher, -⟩ := move_of_command hread h
  rw [InLane, hdispatcher, exists_held_update] at hu
  have hother : (∃ k', k' ≠ k ∧ ∃ r ∈ (f.dispatcher k').held,
      taskKey r.1 = text ∧ Lane.ofPriority r.2 = lane) → f.InLane lane text := by
    rintro ⟨k', -, r, hr, hp⟩
    exact Or.inr ⟨k', r, hr, hp⟩
  generalize u.store.queue = queue at hmove hu
  cases hmove with
  | keep hheld _ =>
    rw [hheld] at hu
    obtain hqueued | ⟨r, hr, hp⟩ | hrest := hu
    · exact Or.inl (Or.inl hqueued)
    · exact Or.inl (Or.inr ⟨k, r, hr, hp⟩)
    · exact Or.inl (hother hrest)
  | pop other count popped hpopped hheld _ =>
    rw [hheld] at hu
    obtain ⟨e, he, htext⟩ | ⟨r, hr, hkey, hlane⟩ | hrest := hu
    · refine Or.inl (Or.inl ⟨e, ?_, htext⟩)
      by_cases heq : lane = other
      · subst heq
        rw [Function.update_self] at he
        exact List.mem_of_mem_drop he
      · rwa [Function.update_of_ne heq] at he
    · rcases List.mem_append.mp hr with hr | hr
      · exact Or.inl (Or.inr ⟨k, r, hr, hkey, hlane⟩)
      · obtain ⟨e, he, rfl, -, hother'⟩ := hread.of_popped hpopped hr
        exact Or.inl (Or.inl ⟨_, (hlane.symm.trans hother') ▸ he, hkey⟩)
    · exact Or.inl (hother hrest)
  | putBack r priority hheld hpriority _ =>
    have hr : r ∈ (f.dispatcher k).held := by
      rw [hheld]
      exact List.mem_cons_self ..
    obtain ⟨e, he, htext⟩ | ⟨r', hr', hp⟩ | hrest := hu
    · obtain ⟨rfl, rfl⟩ | ⟨hold, -⟩ := mem_enqueue.mp he
      · obtain rfl | ⟨rfl, htavily⟩ := hpriority
        · exact Or.inl (Or.inr ⟨k, r, hr, htext, rfl⟩)
        · have hkey : taskKey r.1 = text := htext
          have hflight : f.InFlight text := ⟨_, Or.inr ⟨k, r, hr, hkey, rfl⟩⟩
          refine Or.inr ⟨ofPriority_deferralPriority, hflight, r.1, ?_, htavily⟩
          rw [← hkey, hread.held k r hr]
      · exact Or.inl (Or.inl ⟨e, hold, htext⟩)
    · exact Or.inl (Or.inr ⟨k, r', by rw [hheld]; exact List.mem_cons_of_mem _ hr', hp⟩)
    · exact Or.inl (hother hrest)
  | deliver r hheld _ =>
    obtain hqueued | ⟨r', hr', hp⟩ | hrest := hu
    · exact Or.inl (Or.inl hqueued)
    · exact Or.inl (Or.inr ⟨k, r', by rw [hheld]; exact List.mem_cons_of_mem _ hr', hp⟩)
    · exact Or.inl (hother hrest)

/-- **No lost tasks.** A text that is in flight before a command is so after it, or its task has
been handed over.

**Proof sketch.** Entries leave the queue into the hands of the run or are replaced by entries under
the same text, and tasks leave its hands into the queue or to Arq. -/
lemma inFlight_or_delivered_of_command (hread : f.Readable)
    (h : f.command n k accepted = some u) (hf : f.InFlight text) :
    u.InFlight text ∨ ∃ task, Json.loads text = some task ∧ arqJob task ∈ u.delivered := by
  obtain ⟨stage, hmove, hdispatcher, hdelivered⟩ := move_of_command hread h
  have hstay : ∀ k', k' ≠ k → ∀ r ∈ (f.dispatcher k').held, taskKey r.1 = text →
      u.InFlight text := by
    intro k' hk' r hr hkey
    refine ⟨_, Or.inr ⟨k', r, ?_, hkey, rfl⟩⟩
    rwa [hdispatcher, Function.update_of_ne hk']
  have hhands : ∀ r ∈ stage.held, taskKey r.1 = text → u.InFlight text := by
    intro r hr hkey
    refine ⟨_, Or.inr ⟨k, r, ?_, hkey, rfl⟩⟩
    rwa [hdispatcher, Function.update_self]
  obtain ⟨lane, ⟨e, he, htext⟩ | ⟨k', r, hr, hkey, hlane⟩⟩ := hf
  · generalize hqueue : u.store.queue = queue at hmove
    cases hmove with
    | keep _ _ => exact Or.inl ⟨lane, Or.inl ⟨e, by rwa [hqueue], htext⟩⟩
    | pop other count popped hpopped hheld _ =>
      by_cases heq : lane = other
      · subst heq
        rw [← List.take_append_drop count (f.store.queue lane).entries] at he
        rcases List.mem_append.mp he with he | he
        · obtain ⟨r, hr, hentry⟩ := exists_of_mapM_eq_some hpopped he
          obtain ⟨-, task, htask, hkey⟩ := hread.queued lane e (List.mem_of_mem_take he)
          rw [Queue.readEntry, htask, Option.map_some, Option.some.injEq] at hentry
          subst hentry
          refine Or.inl (hhands (task, -e.1) ?_ (hkey.trans htext))
          rw [hheld]
          exact List.mem_append_right _ hr
        · refine Or.inl ⟨lane, Or.inl ⟨e, ?_, htext⟩⟩
          rwa [hqueue, Function.update_self]
      · refine Or.inl ⟨lane, Or.inl ⟨e, ?_, htext⟩⟩
        rwa [hqueue, Function.update_of_ne heq]
    | putBack r priority _ _ _ =>
      left
      by_cases hsame : lane = .ofPriority priority ∧ e.2 = taskKey r.1
      · refine ⟨lane, Or.inl ⟨Queue.entryOf (r.1, priority), ?_, hsame.2.symm.trans htext⟩⟩
        rw [hqueue]
        exact mem_enqueue.mpr (Or.inl ⟨hsame.1, rfl⟩)
      · refine ⟨lane, Or.inl ⟨e, ?_, htext⟩⟩
        rw [hqueue]
        exact mem_enqueue.mpr (Or.inr ⟨he, hsame⟩)
    | deliver _ _ _ => exact Or.inl ⟨lane, Or.inl ⟨e, by rwa [hqueue], htext⟩⟩
  · by_cases heq : k' = k
    · subst heq
      have hloads := hread.held k' r hr
      generalize hqueue : u.store.queue = queue at hmove
      cases hmove with
      | keep hheld _ => exact Or.inl (hhands r (hheld ▸ hr) hkey)
      | pop _ _ _ _ hheld _ =>
        refine Or.inl (hhands r ?_ hkey)
        rw [hheld]
        exact List.mem_append_left _ hr
      | putBack r' priority hheld _ _ =>
        rw [hheld] at hr
        rcases List.mem_cons.mp hr with rfl | hr
        · refine Or.inl ⟨.ofPriority priority, Or.inl ⟨Queue.entryOf (r.1, priority), ?_, hkey⟩⟩
          rw [hqueue]
          exact mem_enqueue.mpr (Or.inl ⟨rfl, rfl⟩)
        · exact Or.inl (hhands r hr hkey)
      | deliver r' hheld hhanded =>
        rw [hheld] at hr
        rcases List.mem_cons.mp hr with rfl | hr
        · refine Or.inr ⟨r.1, hkey ▸ hloads, ?_⟩
          rw [hdelivered, hhanded]
          exact List.mem_append_right _ (List.mem_singleton_self _)
        · exact Or.inl (hhands r hr hkey)
    · exact Or.inl (hstay k' heq r hr hkey)

/-- What has been delivered after a command was so before, or was in flight. -/
lemma delivered_of_command (hread : f.Readable) (h : f.command n k accepted = some u) {job : ArqJob}
    (hjob : job ∈ u.delivered) :
    job ∈ f.delivered ∨ ∃ text task, f.InFlight text ∧ Json.loads text = some task ∧
      job = arqJob task := by
  obtain ⟨stage, hmove, -, hdelivered⟩ := move_of_command hread h
  rw [hdelivered] at hjob
  rcases List.mem_append.mp hjob with hjob | hjob
  · exact Or.inl hjob
  · generalize u.store.queue = queue at hmove
    cases hmove with
    | keep _ hhanded | pop _ _ _ _ _ hhanded | putBack _ _ _ _ hhanded =>
      rw [hhanded] at hjob
      cases hjob
    | deliver r hheld hhanded =>
      rw [hhanded, List.mem_singleton] at hjob
      have hr : r ∈ (f.dispatcher k).held := by
        rw [hheld]
        exact List.mem_cons_self ..
      exact Or.inr ⟨taskKey r.1, r.1, ⟨_, Or.inr ⟨k, r, hr, rfl, rfl⟩⟩, hread.held k r hr, hjob⟩

/-- A command keeps the queue and the hands of the runs readable. -/
lemma Readable.command (hread : f.Readable) (h : f.command n k accepted = some u) :
    u.Readable := by
  obtain ⟨stage, hmove, hdispatcher, -⟩ := move_of_command hread h
  have hheldOf : (∀ r ∈ stage.held, Json.loads (taskKey r.1) = some r.1) →
      ∀ k', ∀ r ∈ (u.dispatcher k').held, Json.loads (taskKey r.1) = some r.1 := by
    intro hstage k' r hr
    rw [hdispatcher] at hr
    by_cases heq : k' = k
    · subst heq
      rw [Function.update_self] at hr
      exact hstage r hr
    · rw [Function.update_of_ne heq] at hr
      exact hread.held k' r hr
  generalize hqueue : u.store.queue = queue at hmove
  cases hmove with
  | keep hheld _ =>
    refine ⟨fun lane e he => hread.queued lane e (hqueue ▸ he), hheldOf fun r hr => ?_⟩
    exact hread.held k r (hheld ▸ hr)
  | pop lane count popped hpopped hheld _ =>
    refine ⟨fun other e he => hread.queued other e ?_, hheldOf fun r hr => ?_⟩
    · rw [hqueue] at he
      by_cases heq : other = lane
      · subst heq
        rw [Function.update_self] at he
        exact List.mem_of_mem_drop he
      · rwa [Function.update_of_ne heq] at he
    · rw [hheld] at hr
      rcases List.mem_append.mp hr with hr | hr
      · exact hread.held k r hr
      · obtain ⟨-, -, -, hloads, -⟩ := hread.of_popped hpopped hr
        exact hloads
  | putBack r priority hheld _ _ =>
    have hr : r ∈ (f.dispatcher k).held := by
      rw [hheld]
      exact List.mem_cons_self ..
    refine ⟨fun lane e he => ?_, hheldOf fun r' hr' => ?_⟩
    · rw [hqueue] at he
      obtain ⟨rfl, rfl⟩ | ⟨hold, -⟩ := mem_enqueue.mp he
      · exact ⟨by rw [Queue.entryOf, neg_neg], r.1, hread.held k r hr, rfl⟩
      · exact hread.queued lane e hold
    · exact hread.held k r' (by rw [hheld]; exact List.mem_cons_of_mem _ hr')
  | deliver r hheld _ =>
    refine ⟨fun lane e he => hread.queued lane e (hqueue ▸ he), hheldOf fun r' hr' => ?_⟩
    exact hread.held k r' (by rw [hheld]; exact List.mem_cons_of_mem _ hr')

/-! ## Texts through the other steps -/

omit [DecidableEq κ] in
/-- Enqueueing a task brings its text into the lane of the priority. -/
lemma inLane_enqueue {task : CollectionTask} {priority : ℚ} :
    (f.enqueue task priority).InLane lane text ↔
      f.InLane lane text ∨ lane = .ofPriority priority ∧ text = taskKey task.json := by
  constructor
  · rintro (⟨e, he, rfl⟩ | hheld)
    · obtain ⟨rfl, rfl⟩ | ⟨hold, -⟩ := mem_enqueue.mp he
      · exact Or.inr ⟨rfl, rfl⟩
      · exact Or.inl (Or.inl ⟨e, hold, rfl⟩)
    · exact Or.inl (Or.inr hheld)
  · intro h
    by_cases hnew : lane = .ofPriority priority ∧ text = taskKey task.json
    · exact Or.inl ⟨Queue.entryOf (task.json, priority), mem_enqueue.mpr (Or.inl ⟨hnew.1, rfl⟩),
        hnew.2.symm⟩
    · rcases h.resolve_right hnew with ⟨e, he, rfl⟩ | hheld
      · exact Or.inl ⟨e, mem_enqueue.mpr (Or.inr ⟨he, hnew⟩), rfl⟩
      · exact Or.inr hheld

omit [DecidableEq κ] in
/-- What was in flight is so after another task is enqueued. -/
lemma InFlight.enqueue (h : f.InFlight text) (task : CollectionTask) (priority : ℚ) :
    (f.enqueue task priority).InFlight text := by
  obtain ⟨lane, h⟩ := h
  exact ⟨lane, inLane_enqueue.mpr (Or.inl h)⟩

omit [DecidableEq κ] in
lemma Readable.enqueue (hread : f.Readable) (task : CollectionTask) (priority : ℚ) :
    (f.enqueue task priority).Readable := by
  refine ⟨fun lane e he => ?_, hread.held⟩
  obtain ⟨rfl, rfl⟩ | ⟨hold, -⟩ := mem_enqueue.mp he
  · exact ⟨by rw [Queue.entryOf, neg_neg], task.json.sortKeys, task.loads_taskKey,
      taskKey_sortKeys task.json⟩
  · exact hread.queued lane e hold

/-- What is in flight when a run has ended was so before. -/
lemma inLane_of_stop (h : (f.stop k).InLane lane text) : f.InLane lane text := by
  rw [InLane, stop, exists_held_update] at h
  obtain hqueued | ⟨r, hr, -⟩ | ⟨k', -, r, hr, hp⟩ := h
  · exact Or.inl hqueued
  · cases hr
  · exact Or.inr ⟨k', r, hr, hp⟩

lemma Readable.stop (hread : f.Readable) (k : κ) : (f.stop k).Readable := by
  refine ⟨hread.queued, fun k' r hr => ?_⟩
  by_cases heq : k' = k
  · subst heq
    simp [TaskFlow.stop, DispatcherStage.held] at hr
  · change r ∈ (Function.update f.dispatcher k .finished k').held at hr
    rw [Function.update_of_ne heq] at hr
    exact hread.held k' r hr

end TaskFlow

end VCBrain
