import VCBrain.Agents.PipelineProgress
import VCBrain.Api.Decisions
import VCBrain.Foundation.Guarded

set_option relaxedAutoImplicit false
set_option autoImplicit false

/-!
# The history of an opportunity

Runs of discovery, runs of the pipeline and human decisions act on one opportunity at the same
time. The pipeline and the decisions lock its row before they read it; discovery reads it without a
lock and writes much later. The events of the opportunity, in the order of the commits, should form
a path through the lifecycle.

## Main definitions

* `FormsPath` — events that lead from a stage to another along allowed transitions.
* `HistorySystem.step` — one step of one transaction.
* `ReadStillCurrent` — at the commit of a discovery run, what it read is still so.

## Main results

* `HistorySystem.Inv.step` — what a step preserves.
* `lifecycle_history_iff` — the events form a path throughout exactly if discovery runs commit on
  what they read.

## Design

The isolation level is read committed, so a statement sees what is committed when it runs. An update
takes the lock of its row and writes the columns that were changed. Other jobs write artifacts at
any time. A transaction that waits for a lock takes no step.
-/

namespace VCBrain

/-! ## Paths -/

/-- The events lead from one stage to another: each starts where the one before it ended, along an
allowed transition, and a terminal stage is not left. -/
def FormsPath (start : Stage) : List DecisionEvent → Stage → Prop
  | [], current => current = start
  | e :: es, current =>
    e.priorState = start ∧ isValidTransition e.priorState e.newState = true ∧
      (e.priorState.Terminal → e.newState = e.priorState) ∧ FormsPath e.newState es current

instance decidableFormsPath : ∀ start es current, Decidable (FormsPath start es current)
  | _, [], _ => inferInstanceAs (Decidable (_ = _))
  | _, e :: es, current =>
    have := decidableFormsPath e.newState es current
    inferInstanceAs (Decidable (_ ∧ _ ∧ _ ∧ FormsPath e.newState es current))

/-- A path is continued by an event that starts where it ends. -/
lemma FormsPath.append_iff {start current : Stage} {es : List DecisionEvent} {e : DecisionEvent}
    (h : FormsPath start es current)
    (hvalid : isValidTransition e.priorState e.newState = true) :
    FormsPath start (es ++ [e]) e.newState ↔ current = e.priorState := by
  induction es generalizing start with
  | nil =>
    rw [show current = start from h]
    constructor
    · exact fun hpath => hpath.1.symm
    · exact fun heq => ⟨heq.symm, hvalid, fun hterminal =>
        isValidTransition_of_terminal hterminal hvalid, rfl⟩
  | cons e' es ih =>
    obtain ⟨hprior, hallowed, hterminal, hrest⟩ := h
    constructor
    · exact fun hpath => (ih hrest).mp hpath.2.2.2
    · exact fun heq => ⟨hprior, hallowed, hterminal, (ih hrest).mpr heq⟩

/-! ## Transactions -/

/-- A transaction on the opportunity. -/
inductive HistoryTx where
  /-- A discovery run has read the row without a lock. -/
  | read (row : Opportunity)
  /-- A discovery run has written the row it read, and holds the lock since. -/
  | wroteRead (row : Opportunity) (event : DecisionEvent)
  /-- The pipeline, or a decision, holds the lock and has read the row under it. -/
  | locked (row : Opportunity) (req : Option DecisionRequest)
  /-- It has written the row. -/
  | wroteLocked (row : Opportunity) (event : Option DecisionEvent)

/-- The committed database, the holder of the lock on the row, and the transactions in flight. -/
structure HistorySystem where
  db : Db
  lock : Option ℕ := none
  txs : ℕ → Option HistoryTx := fun _ => none

/-- A step of a transaction, or of other jobs. -/
inductive HistoryStep where
  | artifacts (db : Db)
  | discoverRead (tx : ℕ)
  | discoverWrite (tx : ℕ) (now : Time) (newId : Uuid) (reason : Str)
  | pipelineLock (tx : ℕ)
  | pipelineAct (tx : ℕ) (env : PipelineEnv) (now : Time) (budget : ℤ) (newId : Uuid)
  | decisionLock (tx : ℕ) (req : DecisionRequest)
  | decisionAct (tx : ℕ) (decisionAt : Time) (newId : Uuid)
  | commit (tx : ℕ)
  | abort (tx : ℕ)

namespace HistorySystem

/-- The transaction is at a new point. -/
def set (s : HistorySystem) (tx : ℕ) (t : HistoryTx) : HistorySystem :=
  { s with txs := Function.update s.txs tx (some t) }

/-- The transaction takes the lock on the row. -/
def acquire (s : HistorySystem) (tx : ℕ) : HistorySystem := { s with lock := some tx }

/-- The transaction ends and gives up its lock. -/
def finish (s : HistorySystem) (tx : ℕ) : HistorySystem where
  db := s.db
  lock := if s.lock = some tx then none else s.lock
  txs := Function.update s.txs tx none

/-- The row and the event become visible. -/
def publish (s : HistorySystem) (row : Opportunity) (event : Option DecisionEvent) :
    HistorySystem :=
  { s with db := { s.db with
    opportunities := replaceOpportunity s.db.opportunities row
    decisionEvents := s.db.decisionEvents ++ event.toList } }

variable (isoformat : Time → Str) (id : Uuid)

/-- One step of one transaction on the opportunity. -/
def step (s : HistorySystem) : HistoryStep → Option HistorySystem
  | .artifacts db => some { s with db := { db with
      opportunities := s.db.opportunities
      decisionEvents := s.db.decisionEvents } }
  | .discoverRead tx =>
    match s.txs tx, s.db.opportunity? id with
    | none, some row => some (s.set tx (.read row))
    | _, _ => none
  | .discoverWrite tx now newId reason =>
    match s.txs tx, s.lock, s.db.opportunity? id with
    | some (.read row), none, some current =>
      if row.lifecycleState = .discovered then
        match transitionOpportunity now newId row .interesting pipelineActor reason with
        | some (written, some event) => some ((s.acquire tx).set tx (.wroteRead
            { current with
              lifecycleState := written.lifecycleState
              updatedAt := written.updatedAt } event))
        | _ => none
      else none
    | _, _, _ => none
  | .pipelineLock tx =>
    match s.txs tx, s.lock, s.db.opportunity? id with
    | none, none, some row =>
      if row.IsOpen then some ((s.acquire tx).set tx (.locked row none)) else none
    | _, _, _ => none
  | .pipelineAct tx env now budget newId =>
    match s.txs tx with
    | some (.locked row none) =>
      match env.anyFounder.pick (foundersOf s.db row.id) with
      | none => some (s.set tx (.wroteLocked row none))
      | some person =>
        let a := advance env now s.db budget newId row person
        some (s.set tx (.wroteLocked a.opportunity a.event))
    | _ => none
  | .decisionLock tx req =>
    match s.txs tx, s.lock, lockOpportunity s.db req with
    | none, none, .ok row =>
      if req.opportunityId = id then some ((s.acquire tx).set tx (.locked row (some req))) else none
    | _, _, _ => none
  | .decisionAct tx decisionAt newId =>
    match s.txs tx with
    | some (.locked row (some req)) =>
      match decideLocked isoformat decisionAt newId s.db req row with
      | .ok (.decided d) => some (s.set tx (.wroteLocked d.opportunity (some d.event)))
      | _ => none
    | _ => none
  | .commit tx =>
    match s.txs tx with
    | some (.wroteRead row event) => some ((s.publish row (some event)).finish tx)
    | some (.wroteLocked row event) => some ((s.publish row event).finish tx)
    | _ => none
  | .abort tx => (s.txs tx).map fun _ => s.finish tx

end HistorySystem

/-- The events of the opportunity form a path from its first stage to the present one. -/
def PathAt (id : Uuid) (start : Stage) (s : HistorySystem) : Prop :=
  ∃ row ∈ s.db.opportunity? id, FormsPath start (s.db.eventsOf id) row.lifecycleState

instance (id : Uuid) (start : Stage) (s : HistorySystem) : Decidable (PathAt id start s) :=
  inferInstanceAs (Decidable (∃ row ∈ s.db.opportunity? id, _))

/-- A discovery run that commits still finds the opportunity in the stage it read. -/
def ReadStillCurrent (id : Uuid) (s : HistorySystem) : HistoryStep → Prop
  | .commit tx => ∀ row event, s.txs tx = some (.wroteRead row event) →
      ∀ current ∈ s.db.opportunity? id, current.lifecycleState = .discovered
  | _ => True

/-! ## What a step can do -/

/-- A row and an event that continue the history of the opportunity from a stage. -/
structure Continues (id : Uuid) (prior : Stage) (row : Opportunity) (event : Option DecisionEvent) :
    Prop where
  row_id : row.id = id
  stays : event = none → row.lifecycleState = prior
  event : ∀ e ∈ event, e.opportunityId = id ∧ e.priorState = prior ∧
    e.newState = row.lifecycleState ∧ isValidTransition prior row.lifecycleState = true

/-- What the pipeline writes continues the history of the row it read. -/
lemma Outcome.continues {now : Time} {db : Db} {newId personId : Uuid} {opp : Opportunity}
    {a : Advance} (h : Outcome now db newId opp personId a) :
    Continues opp.id opp.lifecycleState a.opportunity a.event := by
  cases h with
  | idle hopp hevent _ _ =>
    rw [hopp, hevent]
    exact ⟨rfl, fun _ => rfl, fun e he => by cases he⟩
  | moved newState reason _ hvalid _ hopp hevent _ =>
    rw [hopp, hevent]
    refine ⟨moved_id _ _ _, fun hnone => ?_, fun e he => ?_⟩
    · cases hnone
    · obtain rfl := Option.mem_some_iff.mp he
      exact ⟨rfl, rfl, rfl, hvalid⟩
  | noted reason metadata hopp hevent _ _ =>
    have hsame : a.opportunity.id = opp.id ∧ a.opportunity.lifecycleState = opp.lifecycleState := by
      rcases hopp with hopp | hopp
      · rw [hopp]
        exact ⟨rfl, rfl⟩
      · rw [hopp]
        exact ⟨rfl, rfl⟩
    rw [hevent]
    refine ⟨hsame.1, fun _ => hsame.2, fun e he => ?_⟩
    obtain rfl := Option.mem_some_iff.mp he
    rw [hsame.2]
    exact ⟨rfl, rfl, rfl, isValidTransition_self _⟩

/-- What a decision writes continues the history of the row it read. -/
lemma NewDecisionOn.continues {req : DecisionRequest} {opp : Opportunity} {d : NewDecision}
    (h : NewDecisionOn req opp d) :
    Continues opp.id opp.lifecycleState d.opportunity (some d.event) where
  row_id := h.opportunity_id
  stays hnone := by cases hnone
  event e he := by
    obtain rfl := Option.mem_some_iff.mp he
    refine ⟨h.event_opportunity, h.priorState, h.opportunity_stage.symm, ?_⟩
    rw [h.opportunity_stage, ← h.priorState]
    exact h.valid

namespace HistorySystem

/-- What a step can do. -/
inductive Stepped (id : Uuid) (s : HistorySystem) : HistoryStep → HistorySystem → Prop
  | artifacts (db : Db) : Stepped id s (.artifacts db) { s with db := { db with
      opportunities := s.db.opportunities
      decisionEvents := s.db.decisionEvents } }
  | read (tx : ℕ) (row : Opportunity) (hid : row.id = id) :
      Stepped id s (.discoverRead tx) (s.set tx (.read row))
  | wroteRead (tx : ℕ) (now : Time) (newId : Uuid) (reason : Str) (read row : Opportunity)
      (event : DecisionEvent) (hlock : s.lock = none) (hread : s.txs tx = some (.read read))
      (hid : row.id = id) (hstage : row.lifecycleState = .interesting)
      (hevent : event.opportunityId = read.id ∧ event.priorState = .discovered ∧
        event.newState = .interesting) :
      Stepped id s (.discoverWrite tx now newId reason)
        ((s.acquire tx).set tx (.wroteRead row event))
  | locked (e : HistoryStep) (tx : ℕ) (row : Opportunity) (req : Option DecisionRequest)
      (hstep : e = .pipelineLock tx ∨ ∃ r, e = .decisionLock tx r) (hlock : s.lock = none)
      (hrow : s.db.opportunity? id = some row) :
      Stepped id s e ((s.acquire tx).set tx (.locked row req))
  | wroteLocked (e : HistoryStep) (tx : ℕ) (row row' : Opportunity) (req : Option DecisionRequest)
      (event : Option DecisionEvent) (hstep : ∀ tx, e ≠ .commit tx)
      (hlocked : s.txs tx = some (.locked row req))
      (hwrites : Continues row.id row.lifecycleState row' event) :
      Stepped id s e (s.set tx (.wroteLocked row' event))
  | committedRead (tx : ℕ) (row : Opportunity) (event : DecisionEvent)
      (h : s.txs tx = some (.wroteRead row event)) :
      Stepped id s (.commit tx) ((s.publish row (some event)).finish tx)
  | committedLocked (tx : ℕ) (row : Opportunity) (event : Option DecisionEvent)
      (h : s.txs tx = some (.wroteLocked row event)) :
      Stepped id s (.commit tx) ((s.publish row event).finish tx)
  | aborted (tx : ℕ) : Stepped id s (.abort tx) (s.finish tx)

variable {isoformat : Time → Str} {id : Uuid} {s s' : HistorySystem} {e : HistoryStep}

/-- **Steps.** Every step is one of these. -/
lemma stepped_of_step (h : s.step isoformat id e = some s') : s.Stepped id e s' := by
  unfold step at h
  cases e with
  | artifacts db =>
    cases h
    exact .artifacts db
  | discoverRead tx =>
    dsimp only at h
    split at h
    · next row _ hrow =>
      cases h
      exact .read tx row (id_of_opportunity? hrow)
    · cases h
  | discoverWrite tx now newId reason =>
    dsimp only at h
    split at h
    · next read current hread hlock hrow =>
      split_ifs at h with hstage
      rw [transitionOpportunity_eq (by rw [hstage]; decide) (by rw [hstage]; decide)] at h
      cases h
      have hid : current.id = id := id_of_opportunity? hrow
      exact .wroteRead tx now newId reason read _ _ hlock hread hid rfl ⟨rfl, hstage, rfl⟩
    · cases h
  | pipelineLock tx =>
    dsimp only at h
    split at h
    · next row _ hlock hrow =>
      split_ifs at h
      cases h
      exact .locked _ tx row none (Or.inl rfl) hlock hrow
    · cases h
  | pipelineAct tx env now budget newId =>
    dsimp only at h
    split at h
    · next row hlocked =>
      split at h
      · cases h
        exact .wroteLocked _ tx row row none none nofun hlocked
          ⟨rfl, fun _ => rfl, fun e he => by cases he⟩
      · next person _ =>
        cases h
        exact .wroteLocked _ tx row _ none _ nofun hlocked (Outcome.continues (advance_outcome ..))
    · cases h
  | decisionLock tx req =>
    dsimp only at h
    split at h
    · next row _ hlock hrow =>
      split_ifs at h with hid
      cases h
      exact .locked _ tx row (some req) (Or.inr ⟨req, rfl⟩) hlock
        (hid ▸ (lockOpportunity_eq_ok_iff.mp hrow).2)
    · cases h
  | decisionAct tx decisionAt newId =>
    dsimp only at h
    split at h
    · next row req hlocked =>
      split at h
      · next d hdecide =>
        cases h
        obtain ⟨-, ⟨e, -, -, hstored⟩ | ⟨-, d', hd, hnew⟩⟩ := decideLocked_cases hdecide
        · cases hstored
        · cases hd
          exact .wroteLocked _ tx row _ (some req) _ nofun hlocked hnew.continues
      · cases h
    · cases h
  | commit tx =>
    dsimp only at h
    split at h
    · next row event hwrote =>
      cases h
      exact .committedRead tx row event hwrote
    · next row event hwrote =>
      cases h
      exact .committedLocked tx row event hwrote
    · cases h
  | abort tx =>
    obtain ⟨t, -, rfl⟩ := Option.map_eq_some_iff.mp h
    exact .aborted tx

/-! ## The invariant -/

/-- What is known of a transaction in flight. -/
def TxOk (id : Uuid) (s : HistorySystem) (tx : ℕ) : HistoryTx → Prop
  | .read row => row.id = id
  | .locked row _ => s.lock = some tx ∧ s.db.opportunity? id = some row
  | .wroteRead row event => s.lock = some tx ∧ row.id = id ∧ row.lifecycleState = .interesting ∧
      event.opportunityId = id ∧ event.priorState = .discovered ∧ event.newState = .interesting
  | .wroteLocked row event => s.lock = some tx ∧ ∃ current, s.db.opportunity? id = some current ∧
      Continues id current.lifecycleState row event

/-- The events form a path, and the transactions in flight are in order. -/
structure Inv (id : Uuid) (start : Stage) (s : HistorySystem) : Prop where
  path : PathAt id start s
  txs : ∀ tx t, s.txs tx = some t → TxOk id s tx t

variable {start : Stage}

/-- The point at which a transaction is. -/
private lemma txs_set {tx tx' : ℕ} {t t' : HistoryTx} (h : (s.set tx t).txs tx' = some t') :
    (tx' = tx ∧ t' = t) ∨ s.txs tx' = some t' := by
  have hset : (s.set tx t).txs = Function.update s.txs tx (some t) := rfl
  rw [hset] at h
  by_cases hne : tx' = tx
  · subst hne
    rw [Function.update_self] at h
    exact Or.inl ⟨rfl, (Option.some.inj h).symm⟩
  · rw [Function.update_of_ne hne] at h
    exact Or.inr h

/-- The transactions that remain when one ends. -/
private lemma txs_finish {tx tx' : ℕ} {t : HistoryTx} (h : (s.finish tx).txs tx' = some t) :
    tx' ≠ tx ∧ s.txs tx' = some t := by
  have hfinish : (s.finish tx).txs = Function.update s.txs tx none := rfl
  rw [hfinish] at h
  by_cases hne : tx' = tx
  · subst hne
    rw [Function.update_self] at h
    cases h
  · rw [Function.update_of_ne hne] at h
    exact ⟨hne, h⟩

/-- A transaction is in order as long as the row and the lock are as they were. -/
private lemma TxOk.congr {tx : ℕ} {t : HistoryTx} (h : TxOk id s tx t)
    (hrow : s'.db.opportunity? id = s.db.opportunity? id)
    (hlock : s.lock = some tx → s'.lock = some tx) : TxOk id s' tx t := by
  cases t with
  | read row => exact h
  | locked row req => exact ⟨hlock h.1, hrow.trans h.2⟩
  | wroteRead row event => exact ⟨hlock h.1, h.2⟩
  | wroteLocked row event =>
    obtain ⟨hheld, current, hcurrent, hcontinues⟩ := h
    exact ⟨hlock hheld, current, hrow.trans hcurrent, hcontinues⟩

/-- While another transaction holds the lock, only readers are in flight. -/
private lemma TxOk.read_of_lock {tx tx' : ℕ} {t : HistoryTx} (h : TxOk id s tx t)
    (hlock : s.lock = some tx') (hne : tx ≠ tx') : ∃ row, t = .read row ∧ row.id = id := by
  have hother : s.lock ≠ some tx := by
    rw [hlock]
    exact fun heq => hne (Option.some.inj heq).symm
  cases t with
  | read row => exact ⟨row, rfl, h⟩
  | locked row req => exact absurd h.1 hother
  | wroteRead row event => exact absurd h.1 hother
  | wroteLocked row event => exact absurd h.1 hother

/-- The row after a write has become visible. -/
private lemma opportunity?_publish {row current : Opportunity} {event : Option DecisionEvent}
    (hcurrent : s.db.opportunity? id = some current) (hid : row.id = id) :
    (s.publish row event).db.opportunity? id = some row := by
  unfold Db.opportunity? at hcurrent ⊢
  unfold publish
  rw [find?_replaceOpportunity, hcurrent, Option.map_some,
    if_pos ((id_of_opportunity? hcurrent).trans hid.symm)]

/-- The events after a write has become visible. -/
private lemma eventsOf_publish {row : Opportunity} {event : Option DecisionEvent}
    (hevent : ∀ e ∈ event, e.opportunityId = id) :
    (s.publish row event).db.eventsOf id = s.db.eventsOf id ++ event.toList := by
  have hall : event.toList.filter (fun e => e.opportunityId = id) = event.toList := by
    rw [List.filter_eq_self]
    intro e he
    simpa using hevent e (by simpa using he)
  unfold Db.eventsOf publish
  rw [List.filter_append, hall]

/-- A write that becomes visible continues the path exactly if its event starts from the stage that
is committed. -/
private lemma pathAt_publish_iff {row current : Opportunity} {event : Option DecisionEvent}
    (hpath : PathAt id start s) (hcurrent : s.db.opportunity? id = some current)
    (hid : row.id = id) (hstays : event = none → row.lifecycleState = current.lifecycleState)
    (hevent : ∀ e ∈ event, e.opportunityId = id ∧ e.newState = row.lifecycleState ∧
      isValidTransition e.priorState e.newState = true) (tx : ℕ) :
    PathAt id start ((s.publish row event).finish tx) ↔
      ∀ e ∈ event, current.lifecycleState = e.priorState := by
  obtain ⟨current', hcurrent', hforms⟩ := hpath
  obtain rfl : current = current' := Option.some.inj (hcurrent.symm.trans hcurrent')
  have hnew : PathAt id start ((s.publish row event).finish tx) ↔
      FormsPath start (s.db.eventsOf id ++ event.toList) row.lifecycleState := by
    show (∃ r ∈ (s.publish row event).db.opportunity? id,
      FormsPath start ((s.publish row event).db.eventsOf id) r.lifecycleState) ↔ _
    rw [opportunity?_publish hcurrent hid, eventsOf_publish fun e he => (hevent e he).1]
    simp
  rw [hnew]
  cases event with
  | none =>
    rw [Option.toList_none, List.append_nil, hstays rfl]
    exact iff_of_true hforms (fun e he => by cases he)
  | some e =>
    obtain ⟨-, hstage, hvalid⟩ := hevent e rfl
    rw [Option.toList_some, ← hstage, hforms.append_iff hvalid]
    simp

/-- **What a step preserves.** If the path goes on, the transactions in flight stay in order. -/
lemma Inv.step (hinv : Inv id start s) (h : s.Stepped id e s') (hpath : PathAt id start s') :
    Inv id start s' := by
  refine ⟨hpath, fun tx t ht => ?_⟩
  cases h with
  | artifacts db => exact (hinv.txs tx t ht).congr rfl fun hlock => hlock
  | read tx' row hid =>
    rcases txs_set ht with ⟨rfl, rfl⟩ | hold
    · exact hid
    · exact (hinv.txs tx t hold).congr rfl fun hlock => hlock
  | wroteRead tx' now newId reason read row event hlock hread hid hstage hevent =>
    rcases txs_set ht with ⟨rfl, rfl⟩ | hold
    · have hreadId : read.id = id := hinv.txs tx _ hread
      exact ⟨rfl, hid, hstage, hevent.1.trans hreadId, hevent.2⟩
    · refine (hinv.txs tx t hold).congr rfl fun hheld => ?_
      rw [hlock] at hheld
      cases hheld
  | locked e tx' row req _ hlock hrow =>
    rcases txs_set ht with ⟨rfl, rfl⟩ | hold
    · exact ⟨rfl, hrow⟩
    · refine (hinv.txs tx t hold).congr rfl fun hheld => ?_
      rw [hlock] at hheld
      cases hheld
  | wroteLocked e tx' row row' req event _ hlocked hwrites =>
    rcases txs_set ht with ⟨rfl, rfl⟩ | hold
    · obtain ⟨hheld, hrow⟩ := hinv.txs tx _ hlocked
      exact ⟨hheld, row, hrow, (id_of_opportunity? hrow) ▸ hwrites⟩
    · exact (hinv.txs tx t hold).congr rfl fun hlock => hlock
  | committedRead tx' row event hwrote =>
    obtain ⟨hne, hold⟩ := txs_finish ht
    obtain ⟨read, rfl, hid⟩ := (hinv.txs tx t hold).read_of_lock (hinv.txs tx' _ hwrote).1 hne
    exact hid
  | committedLocked tx' row event hwrote =>
    obtain ⟨hne, hold⟩ := txs_finish ht
    obtain ⟨read, rfl, hid⟩ := (hinv.txs tx t hold).read_of_lock (hinv.txs tx' _ hwrote).1 hne
    exact hid
  | aborted tx' =>
    obtain ⟨hne, hold⟩ := txs_finish ht
    refine (hinv.txs tx t hold).congr rfl fun hheld => ?_
    show (if s.lock = some tx' then none else s.lock) = some tx
    rw [hheld, if_neg fun heq => hne (Option.some.inj heq)]

/-- **When the path goes on.** Only the commit of a discovery run can break the path, and it does so
exactly if the opportunity has left the stage it read. -/
lemma Inv.pathAt_iff (hinv : Inv id start s) (h : s.Stepped id e s') :
    PathAt id start s' ↔ ReadStillCurrent id s e := by
  cases h with
  | artifacts db => exact iff_of_true hinv.path trivial
  | read tx row _ => exact iff_of_true hinv.path trivial
  | wroteRead tx now newId reason read row event _ _ _ _ _ =>
    exact iff_of_true hinv.path trivial
  | locked e tx row req hstep _ _ =>
    rcases hstep with rfl | ⟨r, rfl⟩
    · exact iff_of_true hinv.path trivial
    · exact iff_of_true hinv.path trivial
  | wroteLocked e tx row row' req event hstep _ _ =>
    refine iff_of_true hinv.path ?_
    cases e with
    | commit tx' => exact absurd rfl (hstep tx')
    | _ => trivial
  | committedRead tx row event hwrote =>
    obtain ⟨-, hid, hstage, hevent, hprior, hnew⟩ := hinv.txs tx _ hwrote
    have hbefore := hinv.path
    obtain ⟨current, hcurrent, -⟩ := hbefore
    have hwrite : ∀ e ∈ some event, e.opportunityId = id ∧ e.newState = row.lifecycleState ∧
        isValidTransition e.priorState e.newState = true := by
      intro e he
      obtain rfl := Option.mem_some_iff.mp he
      exact ⟨hevent, hnew.trans hstage.symm, by rw [hprior, hnew]; decide⟩
    rw [pathAt_publish_iff hinv.path hcurrent hid (fun hnone => by cases hnone) hwrite]
    constructor
    · intro hsame row' event' hwrote' current' hcurrent'
      obtain rfl : current = current' := Option.some.inj (hcurrent.symm.trans hcurrent')
      exact (hsame event rfl).trans hprior
    · intro hguard e he
      obtain rfl := Option.mem_some_iff.mp he
      exact (hguard row event hwrote current hcurrent).trans hprior.symm
  | committedLocked tx row event hwrote =>
    obtain ⟨-, current, hcurrent, hcontinues⟩ := hinv.txs tx _ hwrote
    have hwrite : ∀ e ∈ event, e.opportunityId = id ∧ e.newState = row.lifecycleState ∧
        isValidTransition e.priorState e.newState = true := by
      intro e he
      obtain ⟨hevent, hprior, hnew, hvalid⟩ := hcontinues.event e he
      exact ⟨hevent, hnew, by rw [hprior, hnew]; exact hvalid⟩
    rw [pathAt_publish_iff hinv.path hcurrent hcontinues.row_id hcontinues.stays hwrite]
    refine iff_of_true (fun e he => (hcontinues.event e he).2.1.symm) ?_
    intro row' event' hwrote'
    rw [hwrote] at hwrote'
    cases hwrote'
  | aborted tx => exact iff_of_true hinv.path trivial

end HistorySystem

/-- **Lifecycle history.** However discovery runs, pipeline runs and decisions on an opportunity
interleave, its events form a path to its present stage after every step exactly if every discovery
run that commits a move still finds the opportunity in the stage it read.

**Proof sketch.** The pipeline and the decisions read under the lock they write under, so what they
write continues the path. A discovery run writes an event from `discovered`, which continues the
path if and only if that is where it ends (`HistorySystem.Inv.pathAt_iff`). -/
theorem lifecycle_history_iff {isoformat : Time → Str} {id : Uuid} {start : Stage} {db : Db}
    (hpath : PathAt id start { db := db }) (steps : List HistoryStep) :
    History.Meets (HistorySystem.step isoformat id) (fun _ s => PathAt id start s) { db := db }
        steps ↔
      History.Guarded (HistorySystem.step isoformat id) (ReadStillCurrent id) { db := db }
        steps := by
  refine History.meets_iff_guarded (I := HistorySystem.Inv id start) _ ?_ ?_ ?_ steps
  · exact fun s e u hinv hstep => hinv.pathAt_iff (HistorySystem.stepped_of_step hstep)
  · exact fun s e u hinv hstep hnext => hinv.step (HistorySystem.stepped_of_step hstep) hnext
  · exact ⟨hpath, fun tx t ht => by cases ht⟩

/-- A signal score above the threshold. -/
def signalScore : ScoreSnapshot where
  id := 103
  subjectId := 1
  subjectType := "person"
  rubricVersion := "signal-v1"
  components := Dict.empty.setDefault "composite" (9 / 10)
  createdAt := 0

/-- A discovered opportunity whose signal crosses the threshold. -/
def discoveredDb : Db := sampleDb [sampleOpportunity 7 .discovered] [signalScore]

/-- A discovery run and then a run of the pipeline that finds nothing to move. -/
theorem lifecycle_history_discovery :
    History.Meets (HistorySystem.step (fun _ => []) 7) (fun _ s => PathAt 7 .discovered s)
      { db := discoveredDb }
      [.discoverRead 1, .discoverWrite 1 10 20 "Signal", .commit 1, .pipelineLock 2] := by
  refine (lifecycle_history_iff (by decide +kernel) _).mpr ?_
  refine ⟨fun _ _ => trivial, fun _ _ => trivial, fun _ _ => ?_, fun _ _ => trivial, trivial⟩
  intro row event _ current hcurrent
  cases hcurrent
  rfl

/-- The pipeline moves the opportunity between the read and the write of a discovery run. -/
theorem not_lifecycle_history_overlap :
    ¬ History.Meets (HistorySystem.step (fun _ => []) 7) (fun _ s => PathAt 7 .discovered s)
      { db := discoveredDb }
      [.discoverRead 1, .pipelineLock 2, .pipelineAct 2 .default 10 0 30, .commit 2,
        .discoverWrite 1 20 40 "Signal", .commit 1] := by
  decide +kernel

end VCBrain
