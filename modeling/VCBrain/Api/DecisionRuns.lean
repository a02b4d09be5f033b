import VCBrain.Api.Decisions
import VCBrain.Foundation.Guarded

set_option relaxedAutoImplicit false
set_option autoImplicit false

/-!
# Interleaved decision requests

Any number of decision requests run at the same time. Each takes the lock on its opportunity,
looks for its key and commits, and between any two of these steps other requests take theirs.

## Main definitions

* `DecisionSystem` — the database, the holders of the locks and the replies so far.
* `DecisionSystem.step` — one step of one request.
* `DecisionsConsistent` — what the constraints and the requests keep of the database.
* `DecisionGuarantees` — what a request can rely on.

## Main results

* `DecisionSystem.Inv.step` — the invariant of the interleaving.
* `decision_guarantees` — the guarantees hold after every interleaving.

## Design

A request that waits for a lock does not take a step. A request that ends without a reply, because
its connection is lost, releases its lock.
-/

namespace VCBrain

/-- A request that holds the lock on its opportunity, with the rows it is about to commit once it
has decided. -/
structure DecisionSession where
  request : DecisionRequest
  opportunity : Opportunity
  decision : Option NewDecision := none

/-- The requests in flight. -/
structure DecisionSystem where
  db : Db
  /-- Who holds the lock on the row of an opportunity. -/
  holder : Uuid → Option DecisionSession := fun _ => none
  replies : List (DecisionRequest × Except DecisionError DecisionResponse) := []

/-- A step of a request, named by the opportunity whose lock it holds. -/
inductive DecisionStep where
  | lock (req : DecisionRequest)
  | decide (id : Uuid) (decisionAt : Time) (newId : Uuid)
  | commit (id : Uuid) (createdAt : Time)
  | abort (id : Uuid)

namespace DecisionSystem

/-- A reply to a request. -/
def reply (s : DecisionSystem) (req : DecisionRequest)
    (r : Except DecisionError DecisionResponse) : DecisionSystem :=
  { s with replies := s.replies ++ [(req, r)] }

/-- The lock on an opportunity is taken, kept or released. -/
def setHolder (s : DecisionSystem) (id : Uuid) (session : Option DecisionSession) :
    DecisionSystem :=
  { s with holder := Function.update s.holder id session }

@[simp] lemma setHolder_holder (s : DecisionSystem) (id : Uuid) (session : Option DecisionSession) :
    (s.setHolder id session).holder = Function.update s.holder id session := rfl

/-- One step of one request. -/
def step (isoformat : Time → Str) (s : DecisionSystem) : DecisionStep → Option DecisionSystem
  | .lock req =>
    match lockOpportunity s.db req with
    | .error e => some (s.reply req (.error e))
    | .ok opportunity =>
      if (s.holder opportunity.id).isSome then none
      else some (s.setHolder opportunity.id
        (some { request := req, opportunity := opportunity }))
  | .decide id decisionAt newId =>
    match s.holder id with
    | some ⟨req, opportunity, none⟩ =>
      match decideLocked isoformat decisionAt newId s.db req opportunity with
      | .error e => some ((s.setHolder id none).reply req (.error e))
      | .ok (.stored response) => some ((s.setHolder id none).reply req (.ok response))
      | .ok (.decided d) => some (s.setHolder id (some ⟨req, opportunity, some d⟩))
    | _ => none
  | .commit id createdAt =>
    match s.holder id with
    | some ⟨req, _, some d⟩ =>
      match commitDecision createdAt s.db d with
      | none => some ((s.setHolder id none).reply req (.error .integrity))
      | some db => some (({ s with db := db }.setHolder id none).reply req
          (.ok (responseOf req { d.event with createdAt := createdAt })))
    | _ => none
  | .abort id => (s.holder id).map fun _ => s.setHolder id none

end DecisionSystem

/-- What a step can do. -/
inductive DecisionSystem.Stepped (isoformat : Time → Str) (s : DecisionSystem) :
    DecisionSystem → Prop
  | refused (req : DecisionRequest) (err : DecisionError)
      (hlock : lockOpportunity s.db req = .error err) :
      Stepped isoformat s (s.reply req (.error err))
  | locked (req : DecisionRequest) (opp : Opportunity) (hlock : lockOpportunity s.db req = .ok opp)
      (hfree : s.holder opp.id = none) :
      Stepped isoformat s (s.setHolder opp.id (some ⟨req, opp, none⟩))
  | rejected (id : Uuid) (req : DecisionRequest) (opp : Opportunity) (err : DecisionError)
      (decisionAt : Time) (newId : Uuid) (hholder : s.holder id = some ⟨req, opp, none⟩)
      (hdecide : decideLocked isoformat decisionAt newId s.db req opp = .error err) :
      Stepped isoformat s ((s.setHolder id none).reply req (.error err))
  | stored (id : Uuid) (req : DecisionRequest) (opp : Opportunity) (e : DecisionEvent)
      (hholder : s.holder id = some ⟨req, opp, none⟩) (hreason : 3 ≤ req.reason.strip.length)
      (hfind : s.db.decisionEvents.find? (fun e => e.idempotencyKey = some req.key) = some e)
      (hrecords : Records req e) :
      Stepped isoformat s ((s.setHolder id none).reply req (.ok (responseOf req e)))
  | decided (id : Uuid) (req : DecisionRequest) (opp : Opportunity) (d : NewDecision)
      (hholder : s.holder id = some ⟨req, opp, none⟩) (hreason : 3 ≤ req.reason.strip.length)
      (hfree : ∀ e ∈ s.db.decisionEvents, e.idempotencyKey ≠ some req.key)
      (hd : NewDecisionOn req opp d) :
      Stepped isoformat s (s.setHolder id (some ⟨req, opp, some d⟩))
  | conflict (id : Uuid) (req : DecisionRequest) (opp : Opportunity) (d : NewDecision)
      (hholder : s.holder id = some ⟨req, opp, some d⟩) :
      Stepped isoformat s ((s.setHolder id none).reply req (.error .integrity))
  | committed (id : Uuid) (req : DecisionRequest) (opp : Opportunity) (d : NewDecision)
      (createdAt : Time) (db : Db) (hholder : s.holder id = some ⟨req, opp, some d⟩)
      (hcommit : commitDecision createdAt s.db d = some db) :
      Stepped isoformat s (({ s with db := db }.setHolder id none).reply req
        (.ok (responseOf req { d.event with createdAt := createdAt })))
  | aborted (id : Uuid) : Stepped isoformat s (s.setHolder id none)

/-- **Steps.** Every step is one of these. -/
lemma DecisionSystem.stepped_of_step {isoformat : Time → Str} {s s' : DecisionSystem}
    {e : DecisionStep} (h : s.step isoformat e = some s') : s.Stepped isoformat s' := by
  unfold DecisionSystem.step at h
  cases e with
  | lock req =>
    dsimp only at h
    cases hlock : lockOpportunity s.db req with
    | error err =>
      rw [hlock] at h
      cases h
      exact .refused req err hlock
    | ok opp =>
      rw [hlock] at h
      dsimp only at h
      split_ifs at h with hheld
      cases h
      exact .locked req opp hlock (by simpa using hheld)
  | decide id decisionAt newId =>
    dsimp only at h
    split at h
    · next req opp hholder =>
      split at h
      · next err hdecide =>
        cases h
        exact .rejected id req opp err decisionAt newId hholder hdecide
      · next response hdecide =>
        cases h
        obtain ⟨hreason, ⟨e, hfind, hrecords, hstored⟩ | ⟨-, d, hd, -⟩⟩ :=
          decideLocked_cases hdecide
        · cases hstored
          exact .stored id req opp e hholder hreason hfind hrecords
        · cases hd
      · next d hdecide =>
        cases h
        obtain ⟨hreason, ⟨e, -, -, hstored⟩ | ⟨hfree, d', hd, hnew⟩⟩ := decideLocked_cases hdecide
        · cases hstored
        · cases hd
          exact .decided id req opp d hholder hreason hfree hnew
    · cases h
  | commit id createdAt =>
    dsimp only at h
    split at h
    · next req opp d hholder =>
      split at h
      · next hcommit =>
        cases h
        exact .conflict id req opp d hholder
      · next db hcommit =>
        cases h
        exact .committed id req opp d createdAt db hholder hcommit
    · cases h
  | abort id =>
    obtain ⟨session, -, rfl⟩ := Option.map_eq_some_iff.mp h
    exact .aborted id

/-! ## The invariant -/

/-- The events of a key. -/
def eventsOfKey (db : Db) (key : Str) : List DecisionEvent :=
  db.decisionEvents.filter fun e => e.idempotencyKey = some key

/-- The decisions on an opportunity that enter a terminal stage. -/
def terminalDecisions (db : Db) (id : Uuid) : List DecisionEvent :=
  db.decisionEvents.filter fun e =>
    e.opportunityId = id ∧ e.idempotencyKey.isSome ∧ e.newState.Terminal

/-- The constraints on keys hold, and a terminal decision has left its opportunity in a terminal
stage. -/
structure DecisionsConsistent (db : Db) : Prop where
  ids : KeyUnique Opportunity.id db.opportunities
  keys : ∀ key, (eventsOfKey db key).length ≤ 1
  terminal_le_one : ∀ id, (terminalDecisions db id).length ≤ 1
  terminal_stage : ∀ id, terminalDecisions db id ≠ [] →
    ∀ opp ∈ db.opportunity? id, opp.lifecycleState.Terminal

/-- What a session knows of the opportunity whose lock it holds. -/
structure SessionOk (db : Db) (id : Uuid) (session : DecisionSession) : Prop where
  entitled : Entitled db session.request
  request_id : session.request.opportunityId = id
  row : db.opportunity? id = some session.opportunity
  decision : ∀ d ∈ session.decision, NewDecisionOn session.request session.opportunity d ∧
    3 ≤ session.request.reason.strip.length ∧
    ∀ e ∈ db.decisionEvents, e.opportunityId = id → e.idempotencyKey ≠ some session.request.key

/-- A reply that a decision was made is backed by the event of its key. -/
def ReplyOk (db : Db) (req : DecisionRequest) (response : DecisionResponse) : Prop :=
  Entitled db req ∧ 3 ≤ req.reason.strip.length ∧ (db.opportunity? req.opportunityId).isSome ∧
    ∃ e ∈ db.decisionEvents, e.idempotencyKey = some req.key ∧ Records req e ∧
      response = responseOf req e

/-- The invariant of the interleaving. -/
structure DecisionSystem.Inv (s : DecisionSystem) : Prop where
  consistent : DecisionsConsistent s.db
  sessions : ∀ id session, s.holder id = some session → SessionOk s.db id session
  replies : ∀ req response, (req, .ok response) ∈ s.replies → ReplyOk s.db req response

/-! ## What a commit preserves -/

section Commit

variable {db db' : Db} {createdAt : Time} {d : NewDecision} {id : Uuid} {session : DecisionSession}

/-- A commit replaces the row of its opportunity. -/
lemma opportunity?_commit (h : commitDecision createdAt db d = some db') (id : Uuid) :
    db'.opportunity? id = (db.opportunity? id).map fun o =>
      if o.id = d.opportunity.id then { d.opportunity with updatedAt := createdAt } else o := by
  obtain ⟨-, -, hrows, -⟩ := commitDecision_eq_some h
  unfold Db.opportunity?
  rw [hrows, find?_replaceOpportunity]

/-- A commit leaves the rows of other opportunities as they are. -/
lemma opportunity?_commit_of_ne (h : commitDecision createdAt db d = some db')
    (hne : id ≠ d.opportunity.id) : db'.opportunity? id = db.opportunity? id := by
  rw [opportunity?_commit h]
  cases hrow : db.opportunity? id with
  | none => rfl
  | some o => rw [Option.map_some, if_neg ((id_of_opportunity? hrow).trans_ne hne)]

/-- A commit does not change who may decide. -/
lemma entitled_commit {req : DecisionRequest} (h : commitDecision createdAt db d = some db') :
    Entitled db' req ↔ Entitled db req := by
  obtain ⟨-, -, -, hpersons, hfounders, -⟩ := commitDecision_eq_some h
  unfold Entitled Db.person?
  rw [hpersons, hfounders]

/-- The terminal decisions after a commit. -/
lemma terminalDecisions_commit (h : commitDecision createdAt db d = some db') (id : Uuid) :
    terminalDecisions db' id = terminalDecisions db id ++
      [{ d.event with createdAt := createdAt }].filter fun e =>
        e.opportunityId = id ∧ e.idempotencyKey.isSome ∧ e.newState.Terminal := by
  obtain ⟨-, hevents, -⟩ := commitDecision_eq_some h
  unfold terminalDecisions
  rw [hevents, List.filter_append]

/-- The opportunity of a decision about to commit has no terminal decision yet. -/
lemma terminalDecisions_eq_nil (hconsistent : DecisionsConsistent db)
    (hsession : SessionOk db id session) (hd : d ∈ session.decision) :
    terminalDecisions db id = [] := by
  by_contra hne
  have hterminal := hconsistent.terminal_stage id hne _ hsession.row
  have hnew := (hsession.decision d hd).1
  have hstay := isValidTransition_of_terminal (hnew.priorState ▸ hterminal) hnew.valid
  exact hnew.ne hstay.symm

/-- A commit keeps the database consistent. -/
lemma DecisionsConsistent.commit (hconsistent : DecisionsConsistent db)
    (hsession : SessionOk db id session) (hd : d ∈ session.decision)
    (h : commitDecision createdAt db d = some db') : DecisionsConsistent db' := by
  obtain ⟨hfree, hevents, hrows, -⟩ := commitDecision_eq_some h
  have hnew := (hsession.decision d hd).1
  have hid : d.opportunity.id = id := hnew.opportunity_id.trans (id_of_opportunity? hsession.row)
  have hnone := terminalDecisions_eq_nil hconsistent hsession hd
  refine ⟨?_, fun key => ?_, fun id' => ?_, fun id' hne opp hopp => ?_⟩
  · unfold KeyUnique
    rw [hrows, map_id_replaceOpportunity]
    exact hconsistent.ids
  · unfold eventsOfKey
    rw [hevents, List.filter_append, List.length_append]
    by_cases hkey : d.event.idempotencyKey = some key
    · have hempty : db.decisionEvents.filter (fun e => e.idempotencyKey = some key) = [] := by
        rw [List.filter_eq_nil_iff]
        intro e he
        simpa [hkey] using (hfree e he).2
      rw [hempty]
      simpa using List.length_filter_le _ [{ d.event with createdAt := createdAt }]
    · rw [List.filter_cons_of_neg (by simpa using hkey)]
      simpa [eventsOfKey] using hconsistent.keys key
  · rw [terminalDecisions_commit h, List.length_append]
    by_cases hsame : id' = id
    · rw [hsame, hnone]
      simpa using List.length_filter_le _ [{ d.event with createdAt := createdAt }]
    · have hother : d.event.opportunityId ≠ id' := by
        rw [hnew.event_opportunity, id_of_opportunity? hsession.row]
        exact Ne.symm hsame
      rw [List.filter_cons_of_neg (by simp [hother])]
      simpa using hconsistent.terminal_le_one id'
  · rw [terminalDecisions_commit h] at hne
    by_cases hsame : id' = id
    · rw [hsame, hnone, List.nil_append] at hne
      obtain ⟨e, he⟩ := List.exists_mem_of_ne_nil _ hne
      obtain ⟨he, hterminal⟩ := List.mem_filter.mp he
      obtain rfl := List.mem_singleton.mp he
      rw [hsame, opportunity?_commit h, hsession.row, Option.map_some,
        if_pos ((id_of_opportunity? hsession.row).trans hid.symm)] at hopp
      obtain rfl := Option.mem_some_iff.mp hopp
      have hstage := (of_decide_eq_true hterminal).2.2
      rwa [← hnew.opportunity_stage] at hstage
    · have hother : d.event.opportunityId ≠ id' := by
        rw [hnew.event_opportunity, id_of_opportunity? hsession.row]
        exact Ne.symm hsame
      rw [List.filter_cons_of_neg (by simp [hother]), List.filter_nil, List.append_nil] at hne
      rw [opportunity?_commit_of_ne h (hid ▸ hsame)] at hopp
      exact hconsistent.terminal_stage id' hne opp hopp

/-- A commit leaves what the other sessions know in place. -/
lemma SessionOk.commit {id' : Uuid} {session' : DecisionSession}
    (hother : SessionOk db id' session')
    (hne : id' ≠ id) (hsession : SessionOk db id session) (hd : d ∈ session.decision)
    (h : commitDecision createdAt db d = some db') : SessionOk db' id' session' := by
  obtain ⟨-, hevents, -⟩ := commitDecision_eq_some h
  have hnew := (hsession.decision d hd).1
  have hid : d.opportunity.id = id := hnew.opportunity_id.trans (id_of_opportunity? hsession.row)
  refine ⟨(entitled_commit h).mpr hother.entitled, hother.request_id, ?_, fun d' hd' => ?_⟩
  · rw [opportunity?_commit_of_ne h (hid ▸ hne)]
    exact hother.row
  · obtain ⟨hnew', hreason, hunused⟩ := hother.decision d' hd'
    refine ⟨hnew', hreason, fun e he heid => ?_⟩
    rw [hevents] at he
    rcases List.mem_append.mp he with hold | hlast
    · exact hunused e hold heid
    · obtain rfl := List.mem_singleton.mp hlast
      refine absurd ?_ hne
      rw [← heid]
      exact hnew.event_opportunity.trans (id_of_opportunity? hsession.row)

/-- A commit leaves the events behind earlier replies in place. -/
lemma ReplyOk.commit {req : DecisionRequest} {response : DecisionResponse}
    (hreply : ReplyOk db req response) (h : commitDecision createdAt db d = some db') :
    ReplyOk db' req response := by
  obtain ⟨hentitled, hreason, hrow, e, he, hbacked⟩ := hreply
  obtain ⟨-, hevents, -⟩ := commitDecision_eq_some h
  refine ⟨(entitled_commit h).mpr hentitled, hreason, ?_, e, ?_, hbacked⟩
  · rw [opportunity?_commit h, Option.isSome_map]
    exact hrow
  · rw [hevents]
    exact List.mem_append_left _ he

end Commit

/-! ## Runs -/

section Run

variable {isoformat : Time → Str} {s s' : DecisionSystem}

/-- The sessions that remain when a lock is released. -/
private lemma holder_release {id id' : Uuid} {session : DecisionSession}
    (h : (s.setHolder id none).holder id' = some session) :
    s.holder id' = some session ∧ id' ≠ id := by
  by_cases hne : id' = id
  · subst hne
    rw [DecisionSystem.setHolder_holder, Function.update_self] at h
    cases h
  · rw [DecisionSystem.setHolder_holder, Function.update_of_ne hne] at h
    exact ⟨h, hne⟩

/-- The sessions when a lock is taken or kept. -/
private lemma holder_set {id id' : Uuid} {new session : DecisionSession}
    (h : (s.setHolder id (some new)).holder id' = some session) :
    (id' = id ∧ session = new) ∨ s.holder id' = some session := by
  by_cases hne : id' = id
  · subst hne
    rw [DecisionSystem.setHolder_holder, Function.update_self] at h
    exact Or.inl ⟨rfl, (Option.some.inj h).symm⟩
  · rw [DecisionSystem.setHolder_holder, Function.update_of_ne hne] at h
    exact Or.inr h

/-- The replies after one more. -/
private lemma mem_reply {req req' : DecisionRequest} {r r' : Except DecisionError DecisionResponse}
    (h : (req, r) ∈ (s.reply req' r').replies) : (req, r) ∈ s.replies ∨ req = req' ∧ r = r' := by
  rcases List.mem_append.mp h with hold | hlast
  · exact Or.inl hold
  · exact Or.inr (Prod.mk.inj (List.mem_singleton.mp hlast))

/-- The event that is found under a key. -/
lemma find?_key_eq_some {db : Db} {key : Str} {e : DecisionEvent}
    (hkeys : (eventsOfKey db key).length ≤ 1) (he : e ∈ db.decisionEvents)
    (hkey : e.idempotencyKey = some key) :
    db.decisionEvents.find? (fun e => e.idempotencyKey = some key) = some e := by
  have hmem : e ∈ eventsOfKey db key := List.mem_filter.mpr ⟨he, decide_eq_true hkey⟩
  obtain ⟨e', hsingle⟩ : ∃ e', eventsOfKey db key = [e'] :=
    List.length_eq_one_iff.mp (le_antisymm hkeys (List.length_pos_of_mem hmem))
  rw [hsingle] at hmem
  rw [← List.head?_filter]
  show (eventsOfKey db key).head? = some e
  rw [hsingle, List.mem_singleton.mp hmem]
  rfl

/-- A release of a lock keeps the invariant. -/
private lemma DecisionSystem.Inv.release (hinv : s.Inv) (id : Uuid) :
    (s.setHolder id none).Inv where
  consistent := hinv.consistent
  sessions _ _ h := hinv.sessions _ _ (holder_release h).1
  replies := hinv.replies

/-- A rejection keeps the invariant. -/
private lemma DecisionSystem.Inv.error (hinv : s.Inv) (req : DecisionRequest)
    (err : DecisionError) :
    (s.reply req (.error err)).Inv where
  consistent := hinv.consistent
  sessions := hinv.sessions
  replies req' response h := by
    rcases mem_reply h with hold | ⟨-, heq⟩
    · exact hinv.replies req' response hold
    · cases heq

/-- **The invariant.** Every step keeps the invariant.

**Proof sketch.** A session under a lock is the only one that can write the row and the events of
its opportunity. So what it found before its decision still holds when it commits, and a commit of
another session does not touch what it knows. -/
theorem DecisionSystem.Inv.step (hinv : s.Inv) (h : s.Stepped isoformat s') : s'.Inv := by
  cases h with
  | refused req err _ => exact hinv.error req err
  | locked req opp hlock hfree =>
    obtain ⟨hentitled, hrow⟩ := lockOpportunity_eq_ok_iff.mp hlock
    have hid : req.opportunityId = opp.id := (id_of_opportunity? hrow).symm
    refine ⟨hinv.consistent, fun id session hsession => ?_, hinv.replies⟩
    rcases holder_set hsession with ⟨rfl, rfl⟩ | hold
    · refine ⟨hentitled, hid, hid ▸ hrow, fun d hd => ?_⟩
      cases hd
    · exact hinv.sessions id session hold
  | rejected id req opp err _ _ _ _ => exact (hinv.release id).error req err
  | stored id req opp e hholder hreason hfind hrecords =>
    have hsession := hinv.sessions id _ hholder
    refine ⟨hinv.consistent, (hinv.release id).sessions, fun req' response hreply => ?_⟩
    rcases mem_reply hreply with hold | ⟨rfl, heq⟩
    · exact hinv.replies req' response hold
    · cases heq
      refine ⟨hsession.entitled, hreason, ?_, e, List.mem_of_find?_eq_some hfind,
        by simpa using List.find?_some hfind, hrecords, rfl⟩
      show (s.db.opportunity? _).isSome
      rw [hsession.request_id, hsession.row]
      rfl
  | decided id req opp d hholder hreason hfree hd =>
    have hsession := hinv.sessions id _ hholder
    refine ⟨hinv.consistent, fun id' session' hsession' => ?_, hinv.replies⟩
    rcases holder_set hsession' with ⟨rfl, rfl⟩ | hold
    · refine ⟨hsession.entitled, hsession.request_id, hsession.row, fun d' hd' => ?_⟩
      obtain rfl := Option.mem_some_iff.mp hd'
      exact ⟨hd, hreason, fun e he _ => hfree e he⟩
    · exact hinv.sessions id' session' hold
  | conflict id req opp d _ => exact (hinv.release id).error req .integrity
  | committed id req opp d createdAt db hholder hcommit =>
    have hsession := hinv.sessions id _ hholder
    obtain ⟨hnew, hreason, -⟩ := hsession.decision d rfl
    refine ⟨hinv.consistent.commit hsession rfl hcommit, fun id' session' hsession' => ?_,
      fun req' response hreply => ?_⟩
    · obtain ⟨hold, hne⟩ := holder_release (s := { s with db := db }) hsession'
      exact (hinv.sessions id' session' hold).commit hne hsession rfl hcommit
    · rcases mem_reply hreply with hold | ⟨rfl, heq⟩
      · exact (hinv.replies req' response hold).commit hcommit
      · cases heq
        obtain ⟨-, hevents, -⟩ := commitDecision_eq_some hcommit
        have hrecords := hnew.records
          ((id_of_opportunity? hsession.row).trans hsession.request_id.symm)
        refine ⟨(entitled_commit hcommit).mpr hsession.entitled, hreason, ?_,
          { d.event with createdAt := createdAt }, ?_, hnew.key, hrecords, rfl⟩
        · show (db.opportunity? _).isSome
          rw [opportunity?_commit hcommit, Option.isSome_map, hsession.request_id, hsession.row]
          rfl
        · show _ ∈ db.decisionEvents
          rw [hevents]
          exact List.mem_append_right _ (List.mem_singleton_self _)
  | aborted id => exact hinv.release id

/-- What requests can rely on, wherever the others stand. -/
structure DecisionGuarantees (isoformat : Time → Str) (s : DecisionSystem) : Prop where
  /-- A key yields at most one event. -/
  one_event : ∀ key, (eventsOfKey s.db key).length ≤ 1
  /-- The database is changed by steps that answer a request only. -/
  writes : ∀ step s', s.step isoformat step = some s' → s'.db ≠ s.db →
    ∃ req response, s'.replies = s.replies ++ [(req, .ok response)]
  /-- A repeated request is answered as before, and changes nothing. -/
  repetition : ∀ step s' req response r, (req, .ok response) ∈ s.replies →
    s.step isoformat step = some s' → s'.replies = s.replies ++ [(req, r)] →
    r = .ok response ∧ s'.db = s.db
  /-- A key that is used for another decision is rejected, and nothing is changed. -/
  reuse : ∀ step s' req r, ∀ e ∈ s.db.decisionEvents, e.idempotencyKey = some req.key →
    ¬ Records req e → s.step isoformat step = some s' → s'.replies = s.replies ++ [(req, r)] →
    (∃ err, r = .error err) ∧ s'.db = s.db
  /-- An opportunity enters a terminal stage by at most one decision. -/
  one_terminal : ∀ id, (terminalDecisions s.db id).length ≤ 1

/-- The reply of a step is the one that is appended. -/
private lemma reply_inj {t : DecisionSystem} (hreplies : t.replies = s.replies)
    {req req' : DecisionRequest} {r r' : Except DecisionError DecisionResponse}
    (h : (t.reply req r).replies = s.replies ++ [(req', r')]) : req = req' ∧ r = r' := by
  unfold DecisionSystem.reply at h
  rw [hreplies, List.append_cancel_left_eq] at h
  exact Prod.mk.inj (List.cons.inj h).1

/-- A step without a reply appends none. -/
private lemma reply_ne {t : DecisionSystem} (hreplies : t.replies = s.replies)
    {x : DecisionRequest × Except DecisionError DecisionResponse} :
    t.replies ≠ s.replies ++ [x] := by
  rw [hreplies]
  intro h
  have := congrArg List.length h
  simp at this

/-- The guarantees follow from the invariant. -/
lemma DecisionSystem.Inv.guarantees (hinv : s.Inv) : DecisionGuarantees isoformat s where
  one_event := hinv.consistent.keys
  one_terminal := hinv.consistent.terminal_le_one
  writes step s' hstep hne := by
    cases DecisionSystem.stepped_of_step hstep with
    | committed id req opp d createdAt db _ _ => exact ⟨req, _, rfl⟩
    | refused | locked | rejected | stored | decided | conflict | aborted => exact absurd rfl hne
  repetition step s' req response r hreplied hstep hreplies := by
    obtain ⟨hentitled, hreason, hrow, e, he, hkey, hrecords, rfl⟩ :=
      hinv.replies req response hreplied
    have hfound := find?_key_eq_some (hinv.consistent.keys req.key) he hkey
    cases DecisionSystem.stepped_of_step hstep with
    | refused req' err hlock =>
      obtain ⟨rfl, -⟩ := reply_inj rfl hreplies
      obtain ⟨opp, hopp⟩ := Option.isSome_iff_exists.mp hrow
      rw [lockOpportunity_eq_ok_iff.mpr ⟨hentitled, hopp⟩] at hlock
      cases hlock
    | locked req' opp _ _ => exact absurd hreplies (reply_ne rfl)
    | rejected id req' opp err decisionAt newId hholder hdecide =>
      obtain ⟨rfl, -⟩ := reply_inj rfl hreplies
      unfold decideLocked at hdecide
      rw [if_neg (not_lt.mpr hreason), hfound] at hdecide
      dsimp only at hdecide
      rw [if_pos hrecords] at hdecide
      cases hdecide
    | stored id req' opp e' _ _ hfind _ =>
      obtain ⟨rfl, rfl⟩ := reply_inj rfl hreplies
      rw [hfound] at hfind
      cases hfind
      exact ⟨rfl, rfl⟩
    | decided id req' opp d _ _ _ _ => exact absurd hreplies (reply_ne rfl)
    | conflict id req' opp d hholder =>
      obtain ⟨rfl, -⟩ := reply_inj rfl hreplies
      have hsession := hinv.sessions id _ hholder
      have hunused := (hsession.decision d rfl).2.2 e he (hrecords.1.trans hsession.request_id)
      exact absurd hkey hunused
    | committed id req' opp d createdAt db hholder _ =>
      obtain ⟨rfl, -⟩ := reply_inj rfl hreplies
      have hsession := hinv.sessions id _ hholder
      have hunused := (hsession.decision d rfl).2.2 e he (hrecords.1.trans hsession.request_id)
      exact absurd hkey hunused
    | aborted id => exact absurd hreplies (reply_ne rfl)
  reuse step s' req r e he hkey hother hstep hreplies := by
    have hfound := find?_key_eq_some (hinv.consistent.keys req.key) he hkey
    cases DecisionSystem.stepped_of_step hstep with
    | refused req' err _ =>
      obtain ⟨-, rfl⟩ := reply_inj rfl hreplies
      exact ⟨⟨err, rfl⟩, rfl⟩
    | locked req' opp _ _ => exact absurd hreplies (reply_ne rfl)
    | rejected id req' opp err decisionAt newId _ _ =>
      obtain ⟨-, rfl⟩ := reply_inj rfl hreplies
      exact ⟨⟨err, rfl⟩, rfl⟩
    | stored id req' opp e' _ _ hfind hrecords =>
      obtain ⟨rfl, -⟩ := reply_inj rfl hreplies
      rw [hfound] at hfind
      cases hfind
      exact absurd hrecords hother
    | decided id req' opp d _ _ _ _ => exact absurd hreplies (reply_ne rfl)
    | conflict id req' opp d _ =>
      obtain ⟨-, rfl⟩ := reply_inj rfl hreplies
      exact ⟨⟨.integrity, rfl⟩, rfl⟩
    | committed id req' opp d createdAt db hholder hcommit =>
      obtain ⟨rfl, -⟩ := reply_inj rfl hreplies
      have hnew := ((hinv.sessions id _ hholder).decision d rfl).1
      have htaken := ((commitDecision_eq_some hcommit).1 e he).2
      exact absurd (hkey.trans hnew.key.symm) htaken
    | aborted id => exact absurd hreplies (reply_ne rfl)

end Run

/-- **Idempotent decisions.** Whatever the requests and the order of their steps, a key yields at
most one event, a repeated request is answered as before and changes nothing, a key that is used for
another decision is rejected and changes nothing, and an opportunity receives at most one decision
that enters a terminal stage.

**Proof sketch.** The invariant holds of a consistent database with no request in flight, and every
step keeps it (`DecisionSystem.Inv.step`). -/
theorem decision_guarantees {isoformat : Time → Str} {db : Db} (hdb : DecisionsConsistent db)
    (steps : List DecisionStep) :
    DecisionGuarantees isoformat
      (History.replay (DecisionSystem.step isoformat) { db := db } steps) := by
  refine DecisionSystem.Inv.guarantees (History.replay_invariant _ ?_ ?_ steps)
  · exact fun s e s' hinv hstep => hinv.step (DecisionSystem.stepped_of_step hstep)
  · refine ⟨hdb, fun id session h => ?_, fun req response h => ?_⟩
    · cases h
    · cases h

/-- An opportunity that waits for its decision. -/
def awaitingOpportunity : Opportunity where
  id := 7
  companyName := "Company"
  sourceKind := "inbound"
  lifecycleState := .memoReady
  createdAt := 0

/-- Its memo. -/
def succeededMemo : InvestmentMemo where
  id := 8
  opportunityId := 7
  thesisVersion := "v1"
  status := "succeeded"
  claimIds := []
  assessmentIds := []
  createdAt := 0

/-- A database with this opportunity of one founder. -/
def awaitingDb : Db where
  persons := [{ id := 1, stableId := "founder", createdAt := 0 }]
  opportunities := [awaitingOpportunity]
  opportunityFounders := [{ opportunityId := 7, personId := 1, role := "founder" }]
  investmentMemos := [succeededMemo]

/-- A request to proceed with it. -/
def proceedRequest : DecisionRequest where
  candidateId := 1
  opportunityId := 7
  action := .proceed
  reason := "Strong team"
  idempotencyKey := "key"

/-- The guarantees after a decision, and the answer to its repetition. -/
theorem decision_guarantees_repeated :
    DecisionGuarantees (fun _ => []) (History.replay (DecisionSystem.step fun _ => [])
      { db := awaitingDb } [.lock proceedRequest, .decide 7 10 20, .commit 7 11,
        .lock proceedRequest, .decide 7 30 40]) :=
  decision_guarantees (by
    refine ⟨by unfold KeyUnique; decide, fun key => ?_, fun id => ?_, fun id hne => ?_⟩
    · exact Nat.zero_le _
    · exact Nat.zero_le _
    · exact absurd rfl hne) _

/-- A repeated decision is answered as before. -/
example : ((History.replay (DecisionSystem.step fun _ => []) { db := awaitingDb }
    [.lock proceedRequest, .decide 7 10 20, .commit 7 11, .lock proceedRequest,
      .decide 7 30 40]).replies.map fun reply => reply.2.toOption.map DecisionResponse.eventId) =
    [some 20, some 20] := by decide +kernel

end VCBrain
