import VCBrain.Db.Rows
import VCBrain.Foundation.Guarded
import VCBrain.Sla

set_option relaxedAutoImplicit false
set_option autoImplicit false

/-!
# The outbox

A request that is to start a job commits an event in its own transaction.
`dispatch_pending_outbox` hands the events that are due over to Arq one by one, marks those that
Arq has accepted, and puts the others off. All marks are committed at the end.

## Main definitions

* `OutboxRow`, `Outbox` — a row of the table, and the table with the jobs that Arq has accepted.
* `outboxJob` — the job that a payload names.
* `dispatchPendingOutbox` — a run.
* `OutboxStep`, `Outbox.step` — runs, runs that crash before their commit, and new events.
* `DeliversSafely` — what a run makes of the rows.

## Main results

* `outbox_delivers_safely` — this holds along every sequence of runs.

## Design

What Arq answers is an input: a call is accepted, or raises with a text. Arq also accepts a call
whose `_job_id` it knows. Rows of one `created_at` are found in any order, which is an input too.
-/

namespace VCBrain

/-! ## Events -/

/-- `status` of an event. -/
inductive OutboxStatus where
  | pending
  | dispatched
deriving DecidableEq

/-- A row of `outbox_events`. -/
structure OutboxRow extends OutboxEvent where
  status : OutboxStatus := .pending
  attempts : ℕ := 0
  availableAt : Time
  dispatchedAt : Option Time := none
  lastError : Option Str := none
  createdAt : Time
deriving DecidableEq

/-- A job with its keyword arguments. -/
structure OutboxJob where
  name : Str
  kwargs : List (Str × Json)
deriving DecidableEq

/-- The job that a payload names, or the text of the exception that reading it raises. -/
def outboxJob (repr : Json → Str) : Json → Except Str OutboxJob
  | .obj fields =>
    match Json.get? "job_name" (.obj fields) with
    | none => .error "'job_name'"
    | some name =>
      match (Json.get? "kwargs" (.obj fields)).getD (.obj []) with
      | .obj kwargs => .ok ⟨name.pyStr repr, kwargs⟩
      | _ => .error "outbox kwargs must be an object"
  | .arr _ => .error "list indices must be integers or slices, not str"
  | .str _ => .error "string indices must be integers, not 'str'"
  | .null => .error "'NoneType' object is not subscriptable"
  | .bool _ => .error "'bool' object is not subscriptable"
  | .int _ => .error "'int' object is not subscriptable"
  | .float _ => .error "'float' object is not subscriptable"

/-- `timedelta(seconds=min(300, 2 ** min(attempts, 8)))`. -/
def retryDelay (attempts : ℕ) : Time := min 300 (2 ^ min attempts 8) * 1000000

namespace OutboxRow

/-- The row of an event that could not be handed over. -/
def failed (now : Time) (message : Str) (row : OutboxRow) : OutboxRow :=
  { row with
    attempts := row.attempts + 1
    availableAt := now + retryDelay (row.attempts + 1)
    lastError := some (message.take 1000) }

/-- The row of an event that was handed over. -/
def dispatched (now : Time) (row : OutboxRow) : OutboxRow :=
  { row with status := .dispatched, dispatchedAt := some now, lastError := none }

end OutboxRow

/-! ## Runs -/

/-- What a run goes by: the time, the limit, the order of rows of one `created_at`, and what Arq
answers for the event with an id. -/
structure OutboxRun where
  now : Time
  limit : ℤ := 50
  tie : Uuid → ℕ
  answers : Uuid → Except Str Unit

namespace OutboxRun

variable (repr : Json → Str) (run : OutboxRun)

/-- `await redis.enqueue_job(job_name, **kwargs, _queue_name="arq:queue")` for an event. -/
def enqueue (row : OutboxRow) : Except Str OutboxJob :=
  (outboxJob repr row.payload).bind fun job => (run.answers row.id).map fun _ => job

/-- The events that the run finds. -/
def events (rows : List OutboxRow) : List OutboxRow :=
  (orderBy (fun row => toLex (row.createdAt, run.tie row.id))
    (rows.filter fun row => row.status = .pending ∧ row.availableAt ≤ run.now)).take
      (max 1 (min run.limit 200)).toNat

/-- A run so far: the rows in its session, the jobs that Arq has accepted, and the counts. -/
structure Progress where
  rows : List OutboxRow
  enqueued : List (Uuid × OutboxJob)
  dispatched : ℕ := 0
  failed : ℕ := 0

/-- The row under the id of a row is replaced by it. -/
def replaceRow (new : OutboxRow) (rows : List OutboxRow) : List OutboxRow :=
  rows.map fun row => if row.id = new.id then new else row

/-- The body of the loop. -/
def dispatchEvent (p : Progress) (event : OutboxRow) : Progress :=
  match run.enqueue repr event with
  | .error message =>
    { p with
      rows := replaceRow (event.failed run.now message) p.rows
      failed := p.failed + 1 }
  | .ok job =>
    { p with
      rows := replaceRow (event.dispatched run.now) p.rows
      enqueued := p.enqueued ++ [(event.id, job)]
      dispatched := p.dispatched + 1 }

/-- The loop. -/
def dispatchEvents (events : List OutboxRow) (p : Progress) : Progress :=
  events.foldl (run.dispatchEvent repr) p

/-- What the run makes of the row of an event that it finds. -/
def handled (row : OutboxRow) : OutboxRow :=
  match run.enqueue repr row with
  | .error message => row.failed run.now message
  | .ok _ => row.dispatched run.now

/-- The job of an event that Arq accepts. -/
def accepted (row : OutboxRow) : Option (Uuid × OutboxJob) :=
  match run.enqueue repr row with
  | .error _ => none
  | .ok job => some (row.id, job)

variable {repr run}

lemma id_handled (row : OutboxRow) : (run.handled repr row).id = row.id := by
  unfold handled
  split <;> rfl

/-- The body of the loop handles the row of its event, and enqueues its job. -/
lemma dispatchEvent_eq (p : Progress) (event : OutboxRow) :
    (run.dispatchEvent repr p event).rows = replaceRow (run.handled repr event) p.rows ∧
      (run.dispatchEvent repr p event).enqueued =
        p.enqueued ++ (run.accepted repr event).toList ∧
      (run.dispatchEvent repr p event).dispatched + (run.dispatchEvent repr p event).failed =
        p.dispatched + p.failed + 1 := by
  unfold dispatchEvent handled accepted
  cases run.enqueue repr event with
  | error message => exact ⟨rfl, (List.append_nil _).symm, by simp only; omega⟩
  | ok job => exact ⟨rfl, rfl, by simp only; omega⟩

/-- The loop enqueues the jobs of its events that Arq accepts, and counts its events. -/
lemma dispatchEvents_counts (events : List OutboxRow) (p : Progress) :
    (run.dispatchEvents repr events p).enqueued =
        p.enqueued ++ events.filterMap (run.accepted repr) ∧
      (run.dispatchEvents repr events p).dispatched + (run.dispatchEvents repr events p).failed =
        p.dispatched + p.failed + events.length := by
  induction events generalizing p with
  | nil => exact ⟨(List.append_nil _).symm, rfl⟩
  | cons event events ih =>
    obtain ⟨-, henqueued, hcounts⟩ := @dispatchEvent_eq repr run p event
    obtain ⟨ihenqueued, ihcounts⟩ := ih (run.dispatchEvent repr p event)
    refine ⟨?_, ?_⟩
    · rw [dispatchEvents, List.foldl_cons]
      refine ihenqueued.trans ?_
      rw [henqueued, List.append_assoc, List.filterMap_cons]
      cases run.accepted repr event <;> rfl
    · rw [dispatchEvents, List.foldl_cons]
      refine ihcounts.trans ?_
      rw [hcounts, List.length_cons]
      omega

/-- The loop over events of different ids handles the row of each, and no other row. -/
lemma rows_dispatchEvents {events : List OutboxRow} (hids : (events.map fun e => e.id).Nodup)
    (p : Progress) :
    (run.dispatchEvents repr events p).rows = p.rows.map fun row =>
      ((events.find? fun e => e.id = row.id).map (run.handled repr)).getD row := by
  induction events generalizing p with
  | nil => exact (List.map_id _).symm
  | cons event events ih =>
    rw [List.map_cons, List.nodup_cons] at hids
    rw [dispatchEvents, List.foldl_cons]
    refine (ih hids.2 _).trans ?_
    rw [(dispatchEvent_eq p event).1, replaceRow, List.map_map]
    refine List.map_congr_left fun row _ => ?_
    rw [Function.comp_apply, id_handled]
    by_cases heq : row.id = event.id
    · have hnone : events.find? (fun e => e.id = (run.handled repr event).id) = none := by
        rw [List.find?_eq_none]
        intro e he hid
        rw [id_handled] at hid
        exact hids.1 (of_decide_eq_true hid ▸ List.mem_map_of_mem he)
      have hfirst : (event :: events).find? (fun e => e.id = row.id) = some event :=
        List.find?_cons_of_pos (decide_eq_true heq.symm)
      rw [if_pos heq, hnone, hfirst]
      rfl
    · have hrest : (event :: events).find? (fun e => e.id = row.id) =
          events.find? fun e => e.id = row.id :=
        List.find?_cons_of_neg fun h => heq (of_decide_eq_true h).symm
      rw [if_neg heq, hrest]

end OutboxRun

/-! ## The table -/

/-- The rows, of which no two have one id, and the jobs that Arq has accepted, with the ids of their
events. -/
structure Outbox where
  rows : List OutboxRow
  enqueued : List (Uuid × OutboxJob) := []
  ids : (rows.map fun row => row.id).Nodup

namespace OutboxRun

variable (repr : Json → Str) (run : OutboxRun)

/-- The loop keeps the ids. -/
lemma map_id_dispatchEvents (events : List OutboxRow) (p : Progress) :
    ((run.dispatchEvents repr events p).rows.map fun row => row.id) =
      p.rows.map fun row => row.id := by
  induction events generalizing p with
  | nil => rfl
  | cons event events ih =>
    rw [dispatchEvents, List.foldl_cons]
    refine (ih _).trans ?_
    rw [(dispatchEvent_eq p event).1, replaceRow, List.map_map]
    refine List.map_congr_left fun row _ => ?_
    rw [Function.comp_apply]
    split_ifs with heq
    · exact heq.symm
    · rfl

/-- The counts that a run returns. -/
structure Counts where
  found : ℕ
  dispatched : ℕ
  failed : ℕ
deriving DecidableEq

/-- The run up to its commit, if it handles the first events only. -/
def progress (o : Outbox) (events : List OutboxRow) : Progress :=
  run.dispatchEvents repr events { rows := o.rows, enqueued := o.enqueued }

/-- `dispatch_pending_outbox`. -/
def dispatchPendingOutbox (o : Outbox) : Outbox × Counts :=
  let events := run.events o.rows
  let p := run.progress repr o events
  ({ rows := p.rows
     enqueued := p.enqueued
     ids := (run.map_id_dispatchEvents repr events _).symm ▸ o.ids },
    { found := events.length, dispatched := p.dispatched, failed := p.failed })

/-- A run that crashes after some events: its marks are rolled back, and what Arq has accepted
stays. -/
def crash (n : ℕ) (o : Outbox) : Outbox :=
  { o with enqueued := (run.progress repr o ((run.events o.rows).take n)).enqueued }

end OutboxRun

/-- What happens to the outbox. -/
inductive OutboxStep where
  | run (run : OutboxRun)
  | crash (run : OutboxRun) (n : ℕ)
  /-- A transaction with a new event is committed. -/
  | add (row : OutboxRow)

/-- One step; a transaction fails if there is a row of its id. -/
def Outbox.step (repr : Json → Str) (o : Outbox) : OutboxStep → Option Outbox
  | .run run => some (run.dispatchPendingOutbox repr o).1
  | .crash run n => some (run.crash repr n o)
  | .add row =>
    if h : row.status = .pending ∧ row.id ∉ o.rows.map fun row => row.id then
      some { o with
        rows := row :: o.rows
        ids := List.nodup_cons.mpr ⟨h.2, o.ids⟩ }
    else none

/-! ## Delivery -/

section Delivery

variable {repr : Json → Str} {run : OutboxRun} {o : Outbox}

/-- The run with another answer of Arq for the event with an id. -/
def OutboxRun.withAnswer (run : OutboxRun) (id : Uuid) (answer : Except Str Unit) : OutboxRun :=
  { run with answers := Function.update run.answers id answer }

/-- What a run makes of the outbox: every row becomes what its own payload and answer make of it,
whatever Arq answers for the others; an event that is not handed over stays pending and is put off;
one that is handed over is among the jobs of Arq; and the counts add up. -/
structure DeliversSafely (repr : Json → Str) (run : OutboxRun) (o u : Outbox) : Prop where
  rowwise : u.rows = o.rows.map fun row =>
    if row ∈ run.events o.rows then run.handled repr row else row
  alone : ∀ id answer, ∀ row ∈ u.rows, row.id ≠ id →
    row ∈ ((run.withAnswer id answer).dispatchPendingOutbox repr o).1.rows
  failed : ∀ row ∈ run.events o.rows, ∀ message, run.enqueue repr row = .error message →
    ∃ row' ∈ u.rows, row'.id = row.id ∧ row'.status = .pending ∧
      row'.attempts = row.attempts + 1 ∧ row.availableAt < row'.availableAt ∧
      row'.lastError = some (message.take 1000)
  dispatched : ∀ row ∈ run.events o.rows, ∀ job, run.enqueue repr row = .ok job →
    ∃ row' ∈ u.rows, row'.id = row.id ∧ row'.status = .dispatched ∧
      row'.dispatchedAt = some run.now ∧ (row.id, job) ∈ u.enqueued
  kept : o.enqueued <+: u.enqueued
  counts : (run.dispatchPendingOutbox repr o).2.found =
    (run.dispatchPendingOutbox repr o).2.dispatched + (run.dispatchPendingOutbox repr o).2.failed

/-- Every event that is marked as dispatched was enqueued. -/
def Outbox.Sound (repr : Json → Str) (o : Outbox) : Prop :=
  ∀ row ∈ o.rows, row.status = .dispatched →
    ∃ job, outboxJob repr row.payload = .ok job ∧ (row.id, job) ∈ o.enqueued

/-- The events that a run finds are due. -/
lemma OutboxRun.mem_events {rows : List OutboxRow} {row : OutboxRow}
    (h : row ∈ run.events rows) :
    row ∈ rows ∧ row.status = .pending ∧ row.availableAt ≤ run.now := by
  have hmem := mem_orderBy.mp (List.mem_of_mem_take h)
  rw [List.mem_filter, decide_eq_true_eq] at hmem
  exact hmem

/-- The events that a run finds have different ids. -/
lemma OutboxRun.nodup_events (run : OutboxRun) (o : Outbox) :
    ((run.events o.rows).map fun e => e.id).Nodup := by
  refine List.Nodup.sublist ((List.take_sublist _ _).map _) ?_
  rw [((perm_orderBy _ _).map _).nodup_iff]
  exact o.ids.sublist (List.filter_sublist.map _)

/-- **The rows after a run.** The events that it finds are handled, and the other rows stay. -/
lemma OutboxRun.rows_dispatchPendingOutbox (run : OutboxRun) (o : Outbox) :
    (run.dispatchPendingOutbox repr o).1.rows = o.rows.map fun row =>
      if row ∈ run.events o.rows then run.handled repr row else row := by
  refine (rows_dispatchEvents (run.nodup_events o) _).trans (List.map_congr_left fun row hrow => ?_)
  have hsame : ∀ e, (run.events o.rows).find? (fun e => e.id = row.id) = some e → e = row := by
    intro e he
    have hid : e.id = row.id := of_decide_eq_true (List.find?_some he :)
    exact List.inj_on_of_nodup_map o.ids (mem_events (List.mem_of_find?_eq_some he)).1 hrow hid
  cases hfind : (run.events o.rows).find? fun e => e.id = row.id with
  | none =>
    have hnot : row ∉ run.events o.rows := fun hrow =>
      List.find?_eq_none.mp hfind row hrow (decide_eq_true rfl)
    rw [if_neg hnot]
    rfl
  | some e =>
    have hfound := List.mem_of_find?_eq_some hfind
    rw [hsame e hfind] at hfound ⊢
    rw [if_pos hfound]
    rfl

/-- The row of an event that was put off is later than before. -/
lemma OutboxRow.availableAt_failed {row : OutboxRow} {now : Time} (h : row.availableAt ≤ now)
    (message : Str) : row.availableAt < (row.failed now message).availableAt := by
  have hdelay : 0 < retryDelay (row.attempts + 1) := by
    unfold retryDelay
    positivity
  exact lt_of_le_of_lt h (lt_add_of_pos_right now hdelay)

/-- A run delivers safely. -/
lemma OutboxRun.deliversSafely (run : OutboxRun) (o : Outbox) :
    DeliversSafely repr run o (run.dispatchPendingOutbox repr o).1 := by
  have hrows := @rows_dispatchPendingOutbox repr run o
  have hcounts := @dispatchEvents_counts repr run (run.events o.rows)
    { rows := o.rows, enqueued := o.enqueued }
  have hhandled : ∀ row ∈ run.events o.rows,
      run.handled repr row ∈ (run.dispatchPendingOutbox repr o).1.rows := by
    intro row hrow
    rw [hrows]
    exact List.mem_map.mpr ⟨row, (mem_events hrow).1, if_pos hrow⟩
  refine ⟨hrows, fun id answer row' hrow' hid => ?_, fun row hrow message herror => ?_,
    fun row hrow job hok => ?_, ?_, ?_⟩
  · rw [hrows] at hrow'
    obtain ⟨row, hrow, rfl⟩ := List.mem_map.mp hrow'
    rw [rows_dispatchPendingOutbox]
    refine List.mem_map.mpr ⟨row, hrow, ?_⟩
    change (if row ∈ run.events o.rows then _ else row) = _
    split_ifs at hid ⊢ with hfound
    · rw [id_handled] at hid
      unfold handled enqueue withAnswer
      dsimp only
      rw [Function.update_of_ne hid]
    · rfl
  · obtain ⟨-, hpending, hdue⟩ := mem_events hrow
    have hfailed : run.handled repr row = row.failed run.now message := by
      rw [handled, herror]
    refine ⟨_, hhandled row hrow, ?_⟩
    rw [hfailed]
    exact ⟨rfl, hpending, rfl, OutboxRow.availableAt_failed hdue message, rfl⟩
  · have hdispatched : run.handled repr row = row.dispatched run.now := by
      rw [handled, hok]
    refine ⟨_, hhandled row hrow, ?_⟩
    rw [hdispatched]
    refine ⟨rfl, rfl, rfl, ?_⟩
    change (row.id, job) ∈ (run.progress repr o (run.events o.rows)).enqueued
    rw [progress, hcounts.1, List.mem_append]
    refine Or.inr (List.mem_filterMap.mpr ⟨row, hrow, ?_⟩)
    rw [accepted, hok]
  · change o.enqueued <+: (run.progress repr o (run.events o.rows)).enqueued
    rw [progress, hcounts.1]
    exact List.prefix_append ..
  · exact ((hcounts.2).trans (Nat.zero_add _)).symm

/-- What was enqueued for an event is the job of its payload. -/
lemma OutboxRun.outboxJob_of_enqueue {row : OutboxRow} {job : OutboxJob}
    (h : run.enqueue repr row = .ok job) : outboxJob repr row.payload = .ok job := by
  unfold enqueue at h
  cases hjob : outboxJob repr row.payload with
  | error message =>
    rw [hjob] at h
    cases h
  | ok job' =>
    rw [hjob] at h
    cases hanswer : run.answers row.id with
    | error message =>
      rw [show (Except.ok job').bind _ = _ from rfl, hanswer] at h
      cases h
    | ok _ =>
      rw [show (Except.ok job').bind _ = _ from rfl, hanswer] at h
      exact h

/-- A step keeps the marks sound. -/
lemma Outbox.Sound.step {u : Outbox} {e : OutboxStep} (ho : o.Sound repr)
    (h : o.step repr e = some u) : u.Sound repr := by
  cases e with
  | run run =>
    cases h
    have hsafe := @OutboxRun.deliversSafely repr run o
    intro row' hrow' hstatus
    rw [hsafe.rowwise] at hrow'
    obtain ⟨row, hrow, rfl⟩ := List.mem_map.mp hrow'
    by_cases hfound : row ∈ run.events o.rows
    · rw [if_pos hfound] at hstatus ⊢
      cases hanswer : run.enqueue repr row with
      | error message =>
        rw [OutboxRun.handled, hanswer] at hstatus
        exact absurd ((OutboxRun.mem_events hfound).2.1.symm.trans hstatus) (by decide)
      | ok job =>
        obtain ⟨-, -, -, -, -, hmem⟩ := hsafe.dispatched row hfound job hanswer
        rw [OutboxRun.id_handled, OutboxRun.handled, hanswer]
        exact ⟨job, OutboxRun.outboxJob_of_enqueue hanswer, hmem⟩
    · rw [if_neg hfound] at hstatus ⊢
      obtain ⟨job, hjob, hmem⟩ := ho row hrow hstatus
      exact ⟨job, hjob, hsafe.kept.subset hmem⟩
  | crash run n =>
    cases h
    intro row hrow hstatus
    obtain ⟨job, hjob, hmem⟩ := ho row hrow hstatus
    refine ⟨job, hjob, ?_⟩
    change _ ∈ (run.progress repr o _).enqueued
    rw [OutboxRun.progress, (run.dispatchEvents_counts _ _).1]
    exact List.mem_append_left _ hmem
  | add row =>
    simp only [Outbox.step] at h
    split_ifs at h with hnew
    cases h
    intro row' hrow' hstatus
    rcases List.mem_cons.mp hrow' with rfl | hrow'
    · exact absurd (hnew.1.symm.trans hstatus) (by decide)
    · exact ho row' hrow' hstatus

/-- What a step makes of the outbox: a run delivers safely, and a crashed one leaves the rows as
they are. -/
def SafeStep (repr : Json → Str) (o : Outbox) : OutboxStep → Outbox → Prop
  | .run run, u => DeliversSafely repr run o u
  | .crash _ _, u => u.rows = o.rows ∧ o.enqueued <+: u.enqueued
  | .add row, u => u.rows = row :: o.rows ∧ u.enqueued = o.enqueued

lemma Outbox.safeStep {u : Outbox} {e : OutboxStep} (h : o.step repr e = some u) :
    SafeStep repr o e u := by
  cases e with
  | run run =>
    cases h
    exact run.deliversSafely o
  | crash run n =>
    cases h
    refine ⟨rfl, ?_⟩
    change o.enqueued <+: (run.progress repr o _).enqueued
    rw [OutboxRun.progress, (run.dispatchEvents_counts _ _).1]
    exact List.prefix_append ..
  | add row =>
    simp only [Outbox.step] at h
    split_ifs at h
    cases h
    exact ⟨rfl, rfl⟩

end Delivery

/-- **Delivery of the outbox.** From any pending events, after any runs, crashed runs and new
events, every event that is marked as dispatched was enqueued at least once, and every step was
safe: a run handles each event by its own payload and answer only, keeps those that it could not
enqueue pending with one attempt more and a later time, and counts what it found.

**Proof sketch.** The loop replaces the row of each event that it finds, and no two of them have one
id (`OutboxRun.rows_dispatchPendingOutbox`). A mark is set only after Arq has accepted the job, and
what Arq has accepted is not undone by a crash (`Outbox.Sound.step`). -/
theorem outbox_delivers_safely (repr : Json → Str) (o : Outbox)
    (ho : ∀ row ∈ o.rows, row.status = .pending) (es : List OutboxStep) :
    (History.replay (Outbox.step repr) o es).Sound repr ∧
      History.Along (Outbox.step repr) (SafeStep repr) o es := by
  have hsound : o.Sound repr := fun row hrow hstatus =>
    absurd ((ho row hrow).symm.trans hstatus) (by decide)
  refine ⟨?_, ?_⟩
  · exact History.replay_invariant _ (fun _ _ _ ho h => Outbox.Sound.step ho h) hsound es
  · exact History.along_of_step (Outbox.step repr) (R := SafeStep repr)
      (fun _ _ _ h => Outbox.safeStep h) o es

/-! ## A retry -/

/-- A pending event. -/
def pendingEvent : OutboxRow where
  id := 1
  dedupeKey := "inbound-submission:key"
  eventType := "inbound_pitch.accepted"
  aggregateId := 2
  payload := .obj [("job_name", .str "process_inbound_pitch_job"), ("kwargs", .obj [])]
  availableAt := 0
  createdAt := 0

/-- A run at a time that Arq answers. -/
def runAt (now : Time) (answer : Except Str Unit) : OutboxRun where
  now := now
  tie := fun _ => 0
  answers := fun _ => answer

/-- The event is enqueued by a run that crashes, cannot be enqueued by the next one, and is
dispatched after its delay. -/
theorem outbox_delivers_safely_retry :
    let o : Outbox := { rows := [pendingEvent], ids := List.nodup_singleton _ }
    let es : List OutboxStep := [.crash (runAt 0 (.ok ())) 1, .run (runAt 0 (.error "down")),
      .run (runAt 2000000 (.ok ()))]
    (History.replay (Outbox.step fun _ => []) o es).Sound (fun _ => []) ∧
      (History.replay (Outbox.step fun _ => []) o es).rows.map (fun row => row.status) =
        [.dispatched] :=
  ⟨(outbox_delivers_safely _ _ (by simp [pendingEvent]) _).1, by decide +kernel⟩

end VCBrain
