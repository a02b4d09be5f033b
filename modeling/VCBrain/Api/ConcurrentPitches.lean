import VCBrain.Api.Inbound
import VCBrain.Db.Rows

set_option relaxedAutoImplicit false
set_option autoImplicit false

/-!
# Two pitch submissions at the same time

`submit_pitch` statement by statement. A request looks its idempotency key up, then the founder and
the company, which it creates if they are missing, and inserts an opportunity. The submission, the
job and the outbox event are inserted when it commits; if one of these is refused, the request rolls
back, looks the key up again and returns what the other request has stored. A founder or a company
that is refused is not handled: the request fails.

## Main definitions

* `PitchRequest` — a request that has passed the checks; `PitchRequest.program` — its statements.
* `KeepsFounder` — no founder and no company of a request is refused.
* `PitchesSound` — no failure and no deadlock, one answer for one key, and one row of each kind.

## Main results

* `pitches_sound_of_keepsFounder` — two requests whose founders and companies are not refused are
  sound.

## Design

The snapshot of the deck and the channel touch are left out, since no constraint but the primary key
is on them and the requests do not read them. The rows of a request are inserted in one order, by
`Row.order`, so the requests never wait for each other.
-/

namespace VCBrain

open ReadCommitted

/-! ## The requests -/

/-- A request that has passed the checks, and the further ids that are drawn for it. -/
structure PitchRequest where
  ucd : Ucd
  md5 : List UInt8 → Str
  repr : Json → Str
  form : PitchForm
  evidence : List (Str × Str)
  organizationId : Uuid
  jobId : Uuid
  eventId : Uuid

/-- `InboundPitchResponse`. -/
structure PitchResponse where
  status : Str
  personId : Uuid
  opportunityId : Uuid
  jobId : Option Str
deriving DecidableEq

/-- Where a request is. -/
inductive PitchStage where
  | submission
  /-- The submission is there, and its event is to be read. -/
  | event (s : InboundSubmission)
  | person
  | newPerson
  | organization (p : Person)
  | newOrganization (p : Person)
  | opportunity (p : Person) (organizationId : Uuid)
  | link (p : Person)
  | newSubmission (p : Person)
  | job (p : Person)
  | outbox (p : Person)
  | commit (p : Person)
  /-- A row was refused at the commit. -/
  | conflict
  | reread
  | raising
  | failed
  /-- The request has returned what was stored before. -/
  | answered (r : PitchResponse)
  /-- The request has returned what it has stored. -/
  | accepted (p : Person)
deriving DecidableEq

/-- The job that an event names. -/
def OutboxEvent.jobText (repr : Json → Str) (e : OutboxEvent) : Option Str :=
  match (e.payload.get? "kwargs").bind (Json.get? "job_id") with
  | none => none
  | some .null => none
  | some value => some (value.pyStr repr)

/-- The submission with a key. -/
def submissionOf (key : Str) (rows : List Row) : Option InboundSubmission :=
  (rows.filterMap Row.submission?).find? fun s => s.idempotencyKey = key

/-- The event with a key. -/
def eventOf (key : Str) (rows : List Row) : Option OutboxEvent :=
  (rows.filterMap Row.event?).find? fun e => e.dedupeKey = key

namespace PitchRequest

variable (req : PitchRequest)

/-- The key of a request. -/
def key : Str := req.form.idempotencyKey.strip

/-- The key of its event. -/
def dedupeKey : Str := "inbound-submission:".toList ++ req.key

/-- The founder it creates. -/
def newPerson : Person := req.form.newPerson req.ucd

/-- The company of the opportunity. -/
def companyName (p : Person) : Str :=
  if req.form.companyName ≠ [] then req.form.companyName
  else if filled p.displayName then p.displayName.getD [] else p.stableId

/-- The organization it creates. -/
def newOrganization (p : Person) : Organization where
  id := req.organizationId
  stableId := organizationStableId req.ucd req.md5 (req.companyName p)
  name := (req.companyName p).strip

/-- The opportunity it creates. -/
def newOpportunity (p : Person) : Opportunity :=
  initializeSla req.form.now
    { id := req.form.opportunityId
      companyName := req.companyName p
      sourceKind := "inbound"
      lifecycleState := .received
      createdAt := req.form.now }

/-- The founder of the opportunity. -/
def founder (p : Person) : OpportunityFounder where
  opportunityId := req.form.opportunityId
  personId := p.id
  role := "founder"

/-- The submission. -/
def newSubmission (p : Person) : InboundSubmission where
  id := req.form.submissionId
  idempotencyKey := req.key
  personId := p.id
  opportunityId := req.form.opportunityId
  snapshotId := req.form.snapshotId
  status := "accepted"
  founderEvidence := req.evidence

/-- The job. -/
def newJob : JobRun := createJob req.jobId "process_inbound_pitch"

/-- `inbound_outbox_event`. -/
def newEvent (p : Person) : OutboxEvent where
  id := req.eventId
  dedupeKey := req.dedupeKey
  eventType := "inbound_pitch.accepted"
  aggregateId := req.form.opportunityId
  payload := .obj
    [("job_name", .str "process_inbound_pitch_job"),
      ("kwargs", .obj
        [("person_id", .str p.id.str), ("snapshot_id", .str req.form.snapshotId.str),
          ("opportunity_id", .str req.form.opportunityId.str),
          ("company_name", .str req.form.companyName),
          ("founder_evidence", .obj (req.evidence.map fun field => (field.1, .str field.2))),
          ("job_id", .str req.jobId.str)])]

/-- What it returns for a submission that is there. -/
def answer (rows : List Row) (s : InboundSubmission) : PitchResponse where
  status := s.status
  personId := s.personId
  opportunityId := s.opportunityId
  jobId := (eventOf req.dedupeKey rows).bind (OutboxEvent.jobText req.repr)

/-- What it returns for the submission it has stored. -/
def response (p : Person) : PitchResponse where
  status := "accepted"
  personId := p.id
  opportunityId := req.form.opportunityId
  jobId := some req.jobId.str

/-- The statements of `submit_pitch`, with those of `create_inbound_opportunity` and
`get_or_create_organization`. -/
def program : PitchStage → Statement Row Empty PitchStage
  | .submission => .select fun rows =>
    match submissionOf req.key rows with
    | some s => .event s
    | none => .person
  | .event s => .select fun rows => .answered (req.answer rows s)
  | .person => .select fun rows =>
    match personOf (req.form.stableId req.ucd) rows with
    | some p => .organization p
    | none => .newPerson
  | .newPerson => .insert (.person req.newPerson) (.organization req.newPerson) .raising
  | .organization p => .select fun rows =>
    match organizationOf (organizationStableId req.ucd req.md5 (req.companyName p)) rows with
    | some o => .opportunity p o.id
    | none => .newOrganization p
  | .newOrganization p => .insert (.organization (req.newOrganization p))
    (.opportunity p (req.newOrganization p).id) .raising
  | .opportunity p organizationId =>
    .insert (.opportunity (req.newOpportunity p) organizationId) (.link p) .raising
  | .link p => .insert (.founder (req.founder p)) (.newSubmission p) .raising
  -- what the commit inserts is inside the handler
  | .newSubmission p => .insert (.submission (req.newSubmission p)) (.job p) .conflict
  | .job p => .insert (.job req.newJob) (.outbox p) .conflict
  | .outbox p => .insert (.event (req.newEvent p)) (.commit p) .conflict
  | .commit p => .commit (.accepted p)
  | .conflict => .rollback .reread
  | .reread => .select fun rows =>
    match submissionOf req.key rows with
    | some s => .event s
    | none => .raising
  | .raising => .rollback .failed
  | .failed => .stop
  | .answered _ => .stop
  | .accepted _ => .stop

/-- What a request has returned. -/
def returned : PitchStage → Option PitchResponse
  | .answered r => some r
  | .accepted p => some (req.response p)
  | _ => none

/-- What a sequential submission enters for a founder is what the request inserts. -/
lemma enter_eq (p : Person) (contentHash : Str) (db : Db) :
    (req.form.enter p contentHash req.evidence db).opportunities =
        db.opportunities ++ [req.newOpportunity p] ∧
      (req.form.enter p contentHash req.evidence db).opportunityFounders =
        db.opportunityFounders ++ [req.founder p] ∧
      (req.form.enter p contentHash req.evidence db).inboundSubmissions =
        db.inboundSubmissions ++ [req.newSubmission p] := ⟨rfl, rfl, rfl⟩

end PitchRequest

/-! ## Soundness -/

/-- The state of two requests. -/
abbrev PitchState := State Bool Row Empty PitchStage

/-- The order in which a request inserts its rows. -/
def Row.order : Row → ℕ
  | person _ => 0
  | organization _ => 1
  | opportunity _ _ => 2
  | founder _ => 3
  | submission _ => 4
  | job _ => 5
  | event _ => 6
  | evidence _ => 7

/-- How many kinds of rows a request may have inserted. -/
def PitchStage.order : PitchStage → ℕ
  | organization _ => 1
  | newOrganization _ => 1
  | opportunity _ _ => 2
  | link _ => 3
  | newSubmission _ => 4
  | job _ => 5
  | outbox _ => 6
  | commit _ => 7
  | conflict => 7
  | _ => 0

/-- The ids drawn for a request. -/
def PitchRequest.ids (req : PitchRequest) : List UniqueKey :=
  [.personId req.form.personId, .organizationId req.organizationId,
    .opportunityId req.form.opportunityId, .submissionId req.form.submissionId,
    .jobId req.jobId, .eventId req.eventId]

/-- What two requests rely on: they run on one interpreter, the constraints hold, an event of a
submission comes with the submission, and the ids drawn are new. -/
structure PitchesReady (reqs : Bool → PitchRequest) (rows : List Row) : Prop where
  oneRepr : (reqs false).repr = (reqs true).repr
  unclashed : rows.Pairwise fun r q => ¬ Row.Clash r q
  events : ∀ t e, .event e ∈ rows → e.dedupeKey = (reqs t).dedupeKey →
    ∃ s, .submission s ∈ rows ∧ s.idempotencyKey = (reqs t).key
  unused : ∀ t, ∀ id ∈ (reqs t).ids, ∀ r ∈ rows, id ∉ r.keys
  unlinked : ∀ t f, .founder f ∈ rows → f.opportunityId ≠ (reqs t).form.opportunityId
  distinct : ∀ id ∈ (reqs false).ids, id ∉ (reqs true).ids

/-- A bound on the statements that a request has left. -/
def PitchStage.left : PitchStage → ℕ
  | submission => 14
  | person => 13
  | newPerson => 12
  | organization _ => 11
  | newOrganization _ => 10
  | opportunity _ _ => 9
  | link _ => 8
  | newSubmission _ => 7
  | job _ => 6
  | outbox _ => 5
  | conflict => 4
  | reread => 3
  | event _ => 2
  | commit _ => 1
  | raising => 1
  | failed => 0
  | answered _ => 0
  | accepted _ => 0

/-- One event of two requests. -/
def pitchStep (reqs : Bool → PitchRequest) : PitchState → Event Bool → Option PitchState :=
  eventStep Row.Clash (fun t => (reqs t).program) fun _ => .failed

/-- The state in which the requests start. -/
def pitchStart (rows : List Row) : PitchState := start rows fun _ => .submission

/-- No request has failed and none is in a deadlock, and each has returned, waits for the other or
gets closer to its end with its next statement. Two that have the same key and are done have
returned the same ids, and if the key is new they have stored exactly one opportunity, submission,
job and event. -/
structure PitchesSound (reqs : Bool → PitchRequest) (rows : List Row) (s : PitchState) : Prop where
  noFailure : ∀ t, (s.tx t).stage ≠ .raising ∧ (s.tx t).stage ≠ .failed
  noDeadlock : ∀ t, ¬ Deadlocked Row.Clash (fun t => (reqs t).program) s t
  progress : ∀ t, ((reqs t).returned (s.tx t).stage).isSome ∨
    WaitsFor Row.Clash (fun t => (reqs t).program) s t (!t) ∨
      ∃ s', pitchStep reqs s (.statement t) = some s' ∧
        (s'.tx t).stage.left < (s.tx t).stage.left
  sameAnswer : (reqs false).key = (reqs true).key →
    ∀ r ∈ (reqs false).returned (s.tx false).stage, ∀ r' ∈ (reqs true).returned (s.tx true).stage,
      r = r'
  oneOfEach : (reqs false).key = (reqs true).key →
    (∀ x, .submission x ∈ rows → x.idempotencyKey ≠ (reqs false).key) →
    (∀ t, ((reqs t).returned (s.tx t).stage).isSome) →
    ∃ added, s.committed = rows ++ added ∧
      (added.filter fun r => r.opportunity?.isSome).length = 1 ∧
      (added.filter fun r => r.submission?.isSome).length = 1 ∧
      (added.filter fun r => r.job?.isSome).length = 1 ∧
      (added.filter fun r => r.event?.isSome).length = 1

/-- No founder and no company that a request inserts is refused. -/
def KeepsFounder (reqs : Bool → PitchRequest) (s : PitchState) : Event Bool → Prop
  | .victim _ => True
  | .statement t => ∀ row ∈ ((reqs t).program (s.tx t).stage).row?,
    row.order < 2 → ¬ Refused s Row.Clash t row

instance (reqs : Bool → PitchRequest) (s : PitchState) :
    ∀ event, Decidable (KeepsFounder reqs s event)
  | .victim _ => .isTrue trivial
  | .statement t => inferInstanceAs (Decidable (∀ row ∈ ((reqs t).program (s.tx t).stage).row?,
      row.order < 2 → ¬ Refused s Row.Clash t row))

/-! ## Rows and their order -/

/-- The kind of row that a value belongs to. -/
def UniqueKey.order : UniqueKey → ℕ
  | personId _ => 0
  | personStableId _ => 0
  | organizationId _ => 1
  | organizationStableId _ => 1
  | opportunityId _ => 2
  | founder _ _ => 3
  | evidence _ => 7
  | submissionId _ => 4
  | idempotencyKey _ => 4
  | jobId _ => 5
  | eventId _ => 6
  | dedupeKey _ => 6

lemma order_of_mem_keys {r : Row} {key : UniqueKey} (h : key ∈ r.keys) : key.order = r.order := by
  cases r <;> simp only [Row.keys, List.mem_cons, List.not_mem_nil, or_false] at h <;>
    first
      | (subst h; rfl)
      | (rcases h with rfl | rfl <;> rfl)

/-- Only rows of one kind clash. -/
lemma Row.Clash.order_eq {r q : Row} (h : Row.Clash r q) : r.order = q.order := by
  obtain ⟨key, hr, hq⟩ := h
  rw [← order_of_mem_keys hr, order_of_mem_keys hq]

/-- A request waits only for rows of the kind it is about to insert. -/
lemma order_of_program {req : PitchRequest} {stage next onConflict : PitchStage} {row : Row}
    (h : req.program stage = .insert row next onConflict) : row.order = stage.order := by
  cases stage <;> cases h <;> rfl

/-! ## The invariant of two requests -/

/-- The row is one that the request makes. -/
def PitchRequest.Made (req : PitchRequest) : Row → Prop
  | .person p => p.id = req.form.personId
  | .organization o => o.id = req.organizationId
  | .opportunity o _ => o.id = req.form.opportunityId
  | .founder f => f.opportunityId = req.form.opportunityId
  | .evidence _ => False
  | .submission s => s.id = req.form.submissionId ∧ s.idempotencyKey = req.key
  | .job j => j.id = req.jobId
  | .event e => e.id = req.eventId ∧ e.dedupeKey = req.dedupeKey

/-- The key of the request was new initially. -/
def PitchRequest.NewKey (req : PitchRequest) (rows : List Row) : Prop :=
  ∀ s, .submission s ∈ rows → s.idempotencyKey ≠ req.key

/-- There is a submission with the key of the request. -/
def PitchRequest.Stored (req : PitchRequest) (rows : List Row) : Prop :=
  ∃ s, .submission s ∈ rows ∧ s.idempotencyKey = req.key

/-- The response is what is stored under the key of the request. -/
def PitchRequest.Answers (req : PitchRequest) (rows : List Row) (r : PitchResponse) : Prop :=
  ∃ s, .submission s ∈ rows ∧ s.idempotencyKey = req.key ∧ r = req.answer rows s

/-- What a request knows at a stage. -/
def PitchPhase (rows committed pending : List Row) (req : PitchRequest) : PitchStage → Prop
  | .submission => True
  | .event s => .submission s ∈ committed ∧ s.idempotencyKey = req.key
  | .job p => req.NewKey rows ∧ .submission (req.newSubmission p) ∈ pending
  | .outbox p => req.NewKey rows ∧ .submission (req.newSubmission p) ∈ pending
  | .commit p => req.NewKey rows ∧ .submission (req.newSubmission p) ∈ pending ∧
    .event (req.newEvent p) ∈ pending
  | .conflict => req.Stored committed
  | .reread => req.Stored committed
  | .raising => False
  | .failed => False
  | .answered r => req.Answers committed r
  | .accepted p => req.Answers committed (req.response p)
  | _ => req.NewKey rows

/-- What holds of one request: its uncommitted rows are its own, of the kinds it has passed, and of
the opportunity and what follows there is one of each. -/
structure PitchTxInv (rows committed : List Row) (req : PitchRequest)
    (tx : Tx Row Empty PitchStage) : Prop where
  phase : PitchPhase rows committed tx.pending req tx.stage
  made : ∀ r ∈ tx.pending, req.Made r
  before : ∀ r ∈ tx.pending, r.order < tx.stage.order
  counts : tx.stage ≠ .conflict → ∀ k, 2 ≤ k → k < 7 →
    tx.pending.countP (fun r => r.order = k) = if k < tx.stage.order then 1 else 0

/-- The request has stored its rows. -/
def PitchStage.isAccepted : PitchStage → Bool
  | accepted _ => true
  | _ => false

/-- How many requests have stored their rows. -/
def acceptedCount (s : PitchState) : ℕ :=
  (s.tx false).stage.isAccepted.toNat + (s.tx true).stage.isAccepted.toNat

/-- What holds of two requests: what is committed was there initially or comes from the requests
that have stored their rows. -/
structure PitchInv (reqs : Bool → PitchRequest) (rows : List Row) (s : PitchState) : Prop where
  unclashed : Unclashed Row.Clash s
  added : ∃ added, s.committed = rows ++ added ∧ ∀ k, 2 ≤ k → k < 7 →
    added.countP (fun r => r.order = k) = acceptedCount s
  origin : ∀ r ∈ s.committed, r ∈ rows ∨
    ∃ u, (s.tx u).stage.isAccepted = true ∧ (reqs u).Made r
  tx : ∀ t, PitchTxInv rows s.committed (reqs t) (s.tx t)

section Invariant

variable {reqs : Bool → PitchRequest} {rows committed pending : List Row} {s s' : PitchState}
  {t u : Bool} {tx : Tx Row Empty PitchStage} {row : Row} {req : PitchRequest}
  {next : PitchStage}

/-- A request that has passed no kind holds no rows. -/
lemma PitchTxInv.pending_eq_nil (h : PitchTxInv rows committed req tx)
    (horder : tx.stage.order = 0) : tx.pending = [] := by
  rw [List.eq_nil_iff_forall_not_mem]
  intro r hr
  have hlt := h.before r hr
  rw [horder] at hlt
  exact Nat.not_lt_zero _ hlt

/-- A request goes on without inserting. -/
lemma PitchTxInv.go {stage : PitchStage} (h : PitchTxInv rows committed req tx)
    (hstage : tx.stage = stage) (hle : stage.order ≤ next.order) (hne : stage ≠ .conflict)
    (hcounts : next = .conflict ∨ next.order = stage.order ∨ next.order ≤ 2)
    (hphase : PitchPhase rows committed tx.pending req next) :
    PitchTxInv rows committed req { tx with stage := next } where
  phase := hphase
  made := h.made
  before r hr := Nat.lt_of_lt_of_le (hstage ▸ h.before r hr) hle
  counts hnext k hk hk' := by
    have hcount := h.counts (hstage ▸ hne) k hk hk'
    rw [hstage] at hcount
    dsimp only at hnext ⊢
    rw [hcount]
    rcases hcounts with hconflict | heq | hsmall
    · exact absurd hconflict hnext
    · rw [heq]
    · rw [if_neg (by omega), if_neg (by omega)]

/-- A request inserts a row of the next kind. -/
lemma PitchTxInv.insert (h : PitchTxInv rows committed req tx) (hmade : req.Made row)
    (hne : tx.stage ≠ .conflict) (horder : row.order = tx.stage.order)
    (hnext : next.order = tx.stage.order + 1)
    (hphase : PitchPhase rows committed (tx.pending ++ [row]) req next) :
    PitchTxInv rows committed req
      { tx with stage := next, pending := tx.pending ++ [row] } where
  phase := hphase
  made r hr := by
    rcases List.mem_append.mp hr with hr | hr
    · exact h.made r hr
    · rwa [List.mem_singleton.mp hr]
  before r hr := by
    dsimp only
    rw [hnext]
    rcases List.mem_append.mp hr with hr | hr
    · exact Nat.lt_succ_of_lt (h.before r hr)
    · rw [List.mem_singleton.mp hr, horder]
      exact Nat.lt_succ_self _
  counts _ k hk hk' := by
    have hcount := h.counts hne k hk hk'
    dsimp only
    rw [List.countP_append, hcount, hnext, ← horder]
    by_cases hkind : row.order = k
    · rw [if_neg (by omega), if_pos (by omega)]
      simp [hkind]
    · by_cases hlt : k < row.order
      · rw [if_pos hlt, if_pos (by omega)]
        simp [hkind]
      · rw [if_neg hlt, if_neg (by omega)]
        simp [hkind]

/-- The requests draw different ids. -/
lemma PitchesReady.ne_of_ne (hready : PitchesReady reqs rows) (hne : u ≠ t) {id : UniqueKey}
    (hu : id ∈ (reqs u).ids) (ht : id ∈ (reqs t).ids) : False := by
  cases u
  · cases t
    · exact hne rfl
    · exact hready.distinct id hu ht
  · cases t
    · exact hready.distinct id ht hu
    · exact hne rfl

/-- An id on a row of a request is one drawn for this request. -/
lemma PitchRequest.Made.mem_ids {req' : PitchRequest} {q : Row} (h : req.Made q) {id : UniqueKey}
    (hkey : id ∈ q.keys) (hid : id ∈ req'.ids) : id ∈ req.ids := by
  simp only [ids, List.mem_cons, List.not_mem_nil, or_false] at hid ⊢
  cases q with
  | person p =>
    simp only [Row.keys, List.mem_cons, List.not_mem_nil, or_false] at hkey
    rcases hkey with rfl | rfl
    · exact Or.inl (congrArg UniqueKey.personId h)
    · simp at hid
  | organization o =>
    simp only [Row.keys, List.mem_cons, List.not_mem_nil, or_false] at hkey
    rcases hkey with rfl | rfl
    · exact Or.inr (Or.inl (congrArg UniqueKey.organizationId h))
    · simp at hid
  | opportunity o organizationId =>
    obtain rfl := List.mem_singleton.mp hkey
    exact Or.inr (Or.inr (Or.inl (congrArg UniqueKey.opportunityId h)))
  | founder f =>
    obtain rfl := List.mem_singleton.mp hkey
    simp at hid
  | evidence fingerprint => exact h.elim
  | submission x =>
    simp only [Row.keys, List.mem_cons, List.not_mem_nil, or_false] at hkey
    rcases hkey with rfl | rfl
    · exact Or.inr (Or.inr (Or.inr (Or.inl (congrArg UniqueKey.submissionId h.1))))
    · simp at hid
  | job j =>
    obtain rfl := List.mem_singleton.mp hkey
    exact Or.inr (Or.inr (Or.inr (Or.inr (Or.inl (congrArg UniqueKey.jobId h)))))
  | event e =>
    simp only [Row.keys, List.mem_cons, List.not_mem_nil, or_false] at hkey
    rcases hkey with rfl | rfl
    · exact Or.inr (Or.inr (Or.inr (Or.inr (Or.inr (congrArg UniqueKey.eventId h.1)))))
    · simp at hid

/-- A refusal comes from a committed row, which was there initially or is one of the other request
that has stored its rows. -/
lemma PitchInv.refused_by (h : PitchInv reqs rows s)
    (hstage : (s.tx t).stage.isAccepted = false) (horder : row.order = (s.tx t).stage.order)
    (hrefused : Refused s Row.Clash t row) :
    ∃ q ∈ s.committed, Row.Clash row q ∧
      (q ∈ rows ∨ ∃ u, u ≠ t ∧ (s.tx u).stage.isAccepted = true ∧ (reqs u).Made q) := by
  obtain ⟨q, hq, hclash⟩ := hrefused
  rcases State.mem_visible.mp hq with hq | hq
  · refine ⟨q, hq, hclash, (h.origin q hq).imp_right ?_⟩
    rintro ⟨u, hu, hmade⟩
    refine ⟨u, ?_, hu, hmade⟩
    rintro rfl
    rw [hstage] at hu
    cases hu
  · have hlt := (h.tx t).before q hq
    rw [← horder, hclash.order_eq] at hlt
    exact absurd hlt (Nat.lt_irrefl _)

/-- No other row has an id drawn for a request. -/
lemma PitchesReady.not_mem_keys (hready : PitchesReady reqs rows) {q : Row} {id : UniqueKey}
    (hid : id ∈ (reqs t).ids) (hq : q ∈ rows ∨ ∃ u, u ≠ t ∧ (reqs u).Made q) :
    id ∉ q.keys := by
  rcases hq with hq | ⟨u, hne, hmade⟩
  · exact hready.unused t id hid q hq
  · exact fun hkey => hready.ne_of_ne hne (hmade.mem_ids hkey hid) hid

/-- A row under the ids of its request alone is not refused. -/
lemma PitchInv.not_refused (hready : PitchesReady reqs rows) (h : PitchInv reqs rows s)
    (hstage : (s.tx t).stage.isAccepted = false) (horder : row.order = (s.tx t).stage.order)
    (hids : ∀ key ∈ row.keys, key ∈ (reqs t).ids) : ¬ Refused s Row.Clash t row := by
  intro hrefused
  obtain ⟨q, -, ⟨key, hkey, hkey'⟩, hfrom⟩ := h.refused_by hstage horder hrefused
  exact hready.not_mem_keys (hids key hkey)
    (hfrom.imp_right fun ⟨u, hne, _, hmade⟩ => ⟨u, hne, hmade⟩) hkey'

/-- A founder of a new opportunity is not refused. -/
lemma PitchInv.not_refused_founder (hready : PitchesReady reqs rows) (h : PitchInv reqs rows s)
    (hstage : (s.tx t).stage.isAccepted = false) {p : Person}
    (horder : (Row.founder ((reqs t).founder p)).order = (s.tx t).stage.order) :
    ¬ Refused s Row.Clash t (.founder ((reqs t).founder p)) := by
  intro hrefused
  obtain ⟨q, -, ⟨key, hkey, hkey'⟩, hfrom⟩ := h.refused_by hstage horder hrefused
  obtain rfl := List.mem_singleton.mp hkey
  cases q with
  | founder f =>
    obtain ⟨hopportunity, -⟩ := UniqueKey.founder.inj (List.mem_singleton.mp hkey')
    rcases hfrom with hq | ⟨u, hne, -, hmade⟩
    · exact hready.unlinked t f hq hopportunity.symm
    · have heq : (reqs t).form.opportunityId = (reqs u).form.opportunityId :=
        hopportunity.trans hmade
      have hu : .opportunityId (reqs t).form.opportunityId ∈ (reqs u).ids := by
        rw [heq]
        simp [PitchRequest.ids]
      exact hready.ne_of_ne hne hu (by simp [PitchRequest.ids])
  | _ => simp [Row.keys] at hkey'

/-- What refuses a submission is a submission with its key. -/
lemma PitchInv.stored_of_refused (hready : PitchesReady reqs rows) (h : PitchInv reqs rows s)
    (hstage : (s.tx t).stage.isAccepted = false) {p : Person}
    (horder : (Row.submission ((reqs t).newSubmission p)).order = (s.tx t).stage.order)
    (hrefused : Refused s Row.Clash t (.submission ((reqs t).newSubmission p))) :
    (reqs t).Stored s.committed := by
  obtain ⟨q, hq, ⟨key, hkey, hkey'⟩, hfrom⟩ := h.refused_by hstage horder hrefused
  simp only [Row.keys, List.mem_cons, List.not_mem_nil, or_false] at hkey
  rcases hkey with rfl | rfl
  · refine absurd hkey' (hready.not_mem_keys (t := t) (by simp [PitchRequest.ids,
      PitchRequest.newSubmission]) (hfrom.imp_right fun h => h.imp fun u h => ⟨h.1, h.2.2⟩))
  · cases q with
    | submission x =>
      simp only [Row.keys, List.mem_cons, List.not_mem_nil, or_false] at hkey'
      rcases hkey' with heq | heq
      · cases heq
      · exact ⟨x, hq, (UniqueKey.idempotencyKey.inj heq).symm⟩
    | _ => simp [Row.keys] at hkey'

/-- A request that has stored its submission has a committed one with its key. -/
lemma PitchInv.stored_of_accepted (h : PitchInv reqs rows s)
    (hu : (s.tx u).stage.isAccepted = true) : (reqs u).Stored s.committed := by
  have hphase := (h.tx u).phase
  cases hstage : (s.tx u).stage with
  | accepted p =>
    rw [hstage] at hphase
    obtain ⟨x, hx, hkey, -⟩ := hphase
    exact ⟨x, hx, hkey⟩
  | _ =>
    rw [hstage] at hu
    cases hu

/-- Requests with one key for their events have one key. -/
lemma key_eq_of_dedupeKey (h : (reqs u).dedupeKey = (reqs t).dedupeKey) :
    (reqs u).key = (reqs t).key := List.append_cancel_left h

/-- While a request holds a submission, no submission with its key is committed. -/
lemma PitchInv.not_stored (h : PitchInv reqs rows s) {p : Person}
    (hpending : .submission ((reqs t).newSubmission p) ∈ (s.tx t).pending) :
    ¬ (reqs t).Stored s.committed := by
  rintro ⟨x, hx, hkey⟩
  refine (List.pairwise_append.mp (h.unclashed.seen t)).2.2 _ hx _ hpending ?_
  refine ⟨.idempotencyKey x.idempotencyKey, by simp [Row.keys], ?_⟩
  simp [Row.keys, hkey, PitchRequest.newSubmission]

/-- An event with the key of a request comes with a submission. -/
lemma PitchInv.stored_of_event (hready : PitchesReady reqs rows) (h : PitchInv reqs rows s)
    {e : OutboxEvent} (he : .event e ∈ s.committed) (hkey : e.dedupeKey = (reqs t).dedupeKey) :
    (∃ x, .submission x ∈ rows ∧ x.idempotencyKey = (reqs t).key) ∨
      (reqs t).Stored s.committed := by
  rcases h.origin _ he with hrow | ⟨u, hu, hmade⟩
  · exact Or.inl (hready.events t e hrow hkey)
  · obtain ⟨x, hx, hxkey⟩ := h.stored_of_accepted hu
    exact Or.inr ⟨x, hx, hxkey.trans (key_eq_of_dedupeKey (hmade.2.symm.trans hkey))⟩

/-! ### Rows under unique keys -/

lemma mem_filterMap_submission? {rows : List Row} {x : InboundSubmission} :
    x ∈ rows.filterMap Row.submission? ↔ .submission x ∈ rows := by
  rw [List.mem_filterMap]
  constructor
  · rintro ⟨row, hrow, heq⟩
    cases row <;> cases heq
    exact hrow
  · exact fun h => ⟨_, h, rfl⟩

lemma mem_filterMap_event? {rows : List Row} {e : OutboxEvent} :
    e ∈ rows.filterMap Row.event? ↔ .event e ∈ rows := by
  rw [List.mem_filterMap]
  constructor
  · rintro ⟨row, hrow, heq⟩
    cases row <;> cases heq
    exact hrow
  · exact fun h => ⟨_, h, rfl⟩

/-- What is found under a key is stored under it. -/
lemma submissionOf_eq_some {key : Str} {x : InboundSubmission}
    (h : submissionOf key rows = some x) :
    .submission x ∈ rows ∧ x.idempotencyKey = key := by
  have hkey := List.find?_some h
  exact ⟨mem_filterMap_submission?.mp (List.mem_of_find?_eq_some h), of_decide_eq_true hkey⟩

/-- If nothing is found under a key, nothing is stored under it. -/
lemma submissionOf_eq_none {key : Str} (h : submissionOf key rows = none) :
    ∀ x, .submission x ∈ rows → x.idempotencyKey ≠ key := by
  intro x hx hkey
  exact List.find?_eq_none.mp h x (mem_filterMap_submission?.mpr hx) (decide_eq_true hkey)

/-- Further rows without the key do not change what is found. -/
lemma eventOf_append {key : Str} (h : ∀ e, .event e ∈ pending → e.dedupeKey = key →
    ∃ e', .event e' ∈ rows ∧ e'.dedupeKey = key) :
    eventOf key (rows ++ pending) = eventOf key rows := by
  unfold eventOf
  rw [List.filterMap_append, List.find?_append]
  cases hfound : (rows.filterMap Row.event?).find? fun e => e.dedupeKey = key with
  | some e => rfl
  | none =>
    rw [Option.none_or, List.find?_eq_none]
    intro e he hkey
    obtain ⟨e', he', hkey'⟩ := h e (mem_filterMap_event?.mp he) (of_decide_eq_true hkey)
    exact List.find?_eq_none.mp hfound e' (mem_filterMap_event?.mpr he') (decide_eq_true hkey')

/-- The event under a key is the only one. -/
lemma eventOf_eq_some (hrows : rows.Pairwise fun r q => ¬ Row.Clash r q) {e : OutboxEvent}
    (he : .event e ∈ rows) : eventOf e.dedupeKey rows = some e := by
  cases hfound : eventOf e.dedupeKey rows with
  | none =>
    exact absurd (decide_eq_true rfl)
      (List.find?_eq_none.mp hfound e (mem_filterMap_event?.mpr he))
  | some e' =>
    have hmem := mem_filterMap_event?.mp (List.mem_of_find?_eq_some hfound)
    have hfoundKey := List.find?_some hfound
    have hkey : e'.dedupeKey = e.dedupeKey := of_decide_eq_true hfoundKey
    by_contra hne
    have hsymm : Std.Symm fun r q => ¬ Row.Clash r q :=
      ⟨fun r q hrq hqr => hrq (Row.clash_comm q r hqr)⟩
    refine hrows.forall hmem he (fun heq => hne (congrArg some (Row.event.inj heq))) ?_
    exact ⟨.dedupeKey e'.dedupeKey, by simp [Row.keys], by simp [Row.keys, hkey]⟩

/-- The event of a request names its job. -/
lemma jobText_newEvent (p : Person) : (req.newEvent p).jobText req.repr = some req.jobId.str := rfl

/-- The clock of an opportunity does not change its id. -/
lemma id_newOpportunity (p : Person) : (req.newOpportunity p).id = req.form.opportunityId := by
  unfold PitchRequest.newOpportunity initializeSla
  split_ifs <;> rfl

/-! ### The statements -/

/-- A request goes on without a commit. -/
lemma PitchInv.put (h : PitchInv reqs rows s) (hunclashed : Unclashed Row.Clash (s.put t tx))
    (hstage : (s.tx t).stage.isAccepted = false) (hnext : tx.stage.isAccepted = false)
    (htx : PitchTxInv rows s.committed (reqs t) tx) : PitchInv reqs rows (s.put t tx) := by
  have haccepted : ∀ u, ((s.put t tx).tx u).stage.isAccepted = (s.tx u).stage.isAccepted := by
    intro u
    by_cases hu : u = t
    · subst hu
      rw [State.put_tx_self, hstage, hnext]
    · rw [State.put_tx_of_ne hu]
  refine ⟨hunclashed, ?_, fun r hr => ?_, fun u => ?_⟩
  · obtain ⟨added, hadded, hcount⟩ := h.added
    refine ⟨added, hadded, fun k hk hk' => ?_⟩
    rw [hcount k hk hk', acceptedCount, acceptedCount, haccepted, haccepted]
  · refine (h.origin r hr).imp_right fun ⟨u, hu, hmade⟩ => ⟨u, ?_, hmade⟩
    rw [haccepted, hu]
  · by_cases hu : u = t
    · subst hu
      rw [State.put_tx_self]
      exact htx
    · rw [State.put_tx_of_ne hu]
      exact h.tx u

/-- What is stored under a key stays stored. -/
lemma PitchRequest.Stored.append (h : req.Stored rows) : req.Stored (rows ++ pending) := by
  obtain ⟨x, hx, hkey⟩ := h
  exact ⟨x, List.mem_append_left _ hx, hkey⟩

/-- What answers a request still does when the other request commits. -/
lemma PitchInv.answers_append (h : PitchInv reqs rows s) {p : Person}
    (hpending : .submission ((reqs t).newSubmission p) ∈ (s.tx t).pending) {r : PitchResponse}
    (hanswers : (reqs u).Answers s.committed r) : (reqs u).Answers (s.visible t) r := by
  obtain ⟨x, hx, hkey, rfl⟩ := hanswers
  refine ⟨x, State.mem_visible.mpr (Or.inl hx), hkey, ?_⟩
  have hevent : eventOf (reqs u).dedupeKey (s.visible t) =
      eventOf (reqs u).dedupeKey s.committed := by
    refine eventOf_append fun e he hdedupe => ?_
    have hmade := ((h.tx t).made _ he).2
    have hkeys := key_eq_of_dedupeKey (hmade.symm.trans hdedupe)
    exact absurd ⟨x, hx, hkey.trans hkeys.symm⟩ (h.not_stored hpending)
  rw [PitchRequest.answer, PitchRequest.answer, hevent]

/-- What the other request knows stays true when a request commits. -/
lemma PitchInv.phase_append (h : PitchInv reqs rows s) {p : Person}
    (hpending : .submission ((reqs t).newSubmission p) ∈ (s.tx t).pending) :
    PitchPhase rows (s.visible t) (s.tx u).pending (reqs u) (s.tx u).stage := by
  have hphase := (h.tx u).phase
  cases hstage : (s.tx u).stage with
  | event x =>
    rw [hstage] at hphase
    exact ⟨State.mem_visible.mpr (Or.inl hphase.1), hphase.2⟩
  | conflict =>
    rw [hstage] at hphase
    exact hphase.append
  | reread =>
    rw [hstage] at hphase
    exact hphase.append
  | answered r =>
    rw [hstage] at hphase
    exact h.answers_append hpending hphase
  | accepted q =>
    rw [hstage] at hphase
    exact h.answers_append hpending hphase
  | _ =>
    rw [hstage] at hphase
    exact hphase

/-- A request that commits answers with what it has stored. -/
lemma PitchInv.answers_own (h : PitchInv reqs rows s) {p : Person}
    (hsubmission : .submission ((reqs t).newSubmission p) ∈ (s.tx t).pending)
    (hevent : .event ((reqs t).newEvent p) ∈ (s.tx t).pending) :
    (reqs t).Answers (s.visible t) ((reqs t).response p) := by
  refine ⟨_, State.mem_visible.mpr (Or.inr hsubmission), rfl, ?_⟩
  have hfound := eventOf_eq_some (h.unclashed.seen t) (State.mem_visible.mpr (Or.inr hevent))
  change eventOf (reqs t).dedupeKey (s.visible t) = _ at hfound
  rw [PitchRequest.answer, hfound, Option.bind_some, jobText_newEvent]
  rfl

/-- A request commits. -/
lemma PitchInv.publish (h : PitchInv reqs rows s) {p : Person}
    (hstage : (s.tx t).stage = .commit p)
    (hunclashed : Unclashed Row.Clash (s.publish t (.accepted p))) :
    PitchInv reqs rows (s.publish t (.accepted p)) := by
  have hown := h.tx t
  have hphase := hown.phase
  rw [hstage] at hphase
  obtain ⟨-, hsubmission, hevent⟩ := hphase
  have hself : ((s.publish t (.accepted p)).tx t).stage.isAccepted = true := by
    rw [State.publish_tx_self]
    rfl
  have hother : ∀ u, u ≠ t → ((s.publish t (.accepted p)).tx u).stage.isAccepted =
      (s.tx u).stage.isAccepted := fun u hu => by rw [State.publish_tx_of_ne hu]
  refine ⟨hunclashed, ?_, fun r hr => ?_, fun u => ?_⟩
  · obtain ⟨added, hadded, hcount⟩ := h.added
    refine ⟨added ++ (s.tx t).pending, ?_, fun k hk hk' => ?_⟩
    · rw [State.publish_committed, State.visible, hadded, List.append_assoc]
    · have hpending := hown.counts (by rw [hstage]; simp) k hk hk'
      rw [hstage, if_pos (show k < (PitchStage.commit p).order from hk')] at hpending
      have hold : (s.tx t).stage.isAccepted = false := by rw [hstage]; rfl
      rw [List.countP_append, hcount k hk hk', hpending, acceptedCount, acceptedCount]
      cases t with
      | false =>
        rw [hself, hother true (by decide), hold, Bool.toNat_true, Bool.toNat_false]
        omega
      | true =>
        rw [hself, hother false (by decide), hold, Bool.toNat_true, Bool.toNat_false]
  · rcases State.mem_visible.mp hr with hr | hr
    · refine (h.origin r hr).imp_right fun h => h.imp fun u hu => ⟨?_, hu.2⟩
      by_cases hut : u = t
      · rw [hut, hself]
      · rw [hother u hut, hu.1]
    · exact Or.inr ⟨t, hself, hown.made r hr⟩
  · by_cases hu : u = t
    · subst hu
      rw [State.publish_tx_self]
      refine ⟨h.answers_own hsubmission hevent, fun r hr => absurd hr List.not_mem_nil,
        fun r hr => absurd hr List.not_mem_nil, fun _ k _ _ => ?_⟩
      rw [List.countP_nil]
      exact (if_neg (Nat.not_lt_zero k)).symm
    · rw [State.publish_tx_of_ne hu]
      exact { (h.tx u) with phase := h.phase_append hsubmission }

/-- A look-up leads to a stage in which the request is well. -/
lemma PitchInv.selected (h : PitchInv reqs rows s) {next : List Row → PitchStage}
    (hprogram : (reqs t).program (s.tx t).stage = .select next) :
    (s.tx t).stage.isAccepted = false ∧ (next (s.visible t)).isAccepted = false ∧
      PitchTxInv rows s.committed (reqs t)
        { s.tx t with stage := next (s.visible t) } := by
  have hown := h.tx t
  have hphase := hown.phase
  obtain ⟨added, hadded, -⟩ := h.added
  have hvisible : (s.tx t).stage.order = 0 → s.visible t = s.committed := by
    intro horder
    rw [State.visible, hown.pending_eq_nil horder, List.append_nil]
  cases hstage : (s.tx t).stage with
  | submission =>
    rw [hstage] at hprogram
    cases hprogram
    rw [hvisible (by rw [hstage]; rfl)]
    refine ⟨rfl, ?_⟩
    dsimp only
    split
    · next x hfound =>
      exact ⟨rfl, hown.go hstage le_rfl (by simp) (Or.inr (Or.inl rfl))
        (submissionOf_eq_some hfound)⟩
    · next hfound =>
      refine ⟨rfl, hown.go hstage le_rfl (by simp) (Or.inr (Or.inl rfl)) ?_⟩
      exact fun x hx => submissionOf_eq_none hfound x (hadded ▸ List.mem_append_left _ hx)
  | event x =>
    rw [hstage] at hprogram hphase
    cases hprogram
    rw [hvisible (by rw [hstage]; rfl)]
    have hanswers : (reqs t).Answers s.committed ((reqs t).answer s.committed x) :=
      ⟨x, hphase.1, hphase.2, rfl⟩
    exact ⟨rfl, rfl, hown.go hstage le_rfl (by simp) (Or.inr (Or.inl rfl)) hanswers⟩
  | person =>
    rw [hstage] at hprogram hphase
    cases hprogram
    refine ⟨rfl, ?_⟩
    dsimp only
    split
    · exact ⟨rfl, hown.go hstage (Nat.zero_le _) (by simp) (Or.inr (Or.inr (Nat.le_succ 1))) hphase⟩
    · exact ⟨rfl, hown.go hstage le_rfl (by simp) (Or.inr (Or.inl rfl)) hphase⟩
  | organization p =>
    rw [hstage] at hprogram hphase
    cases hprogram
    refine ⟨rfl, ?_⟩
    dsimp only
    split
    · exact ⟨rfl, hown.go hstage (Nat.le_succ 1) (by simp) (Or.inr (Or.inr le_rfl)) hphase⟩
    · exact ⟨rfl, hown.go hstage le_rfl (by simp) (Or.inr (Or.inl rfl)) hphase⟩
  | reread =>
    rw [hstage] at hprogram hphase
    cases hprogram
    rw [hvisible (by rw [hstage]; rfl)]
    refine ⟨rfl, ?_⟩
    dsimp only
    split
    · next x hfound =>
      exact ⟨rfl, hown.go hstage le_rfl (by simp) (Or.inr (Or.inl rfl))
        (submissionOf_eq_some hfound)⟩
    · next hfound =>
      obtain ⟨x, hx, hkey⟩ := hphase
      exact absurd hkey (submissionOf_eq_none hfound x hx)
  | _ =>
    rw [hstage] at hprogram
    cases hprogram

/-- An insertion that succeeds leads to a stage in which the request is well. -/
lemma PitchInv.inserted (h : PitchInv reqs rows s) {next onConflict : PitchStage}
    (hprogram : (reqs t).program (s.tx t).stage = .insert row next onConflict) :
    (s.tx t).stage.isAccepted = false ∧ next.isAccepted = false ∧
      PitchTxInv rows s.committed (reqs t)
        { s.tx t with stage := next, pending := (s.tx t).pending ++ [row] } := by
  have hown := h.tx t
  have hphase := hown.phase
  have horder := order_of_program hprogram
  have hlast : row ∈ (s.tx t).pending ++ [row] :=
    List.mem_append_right _ (List.mem_singleton_self _)
  cases hstage : (s.tx t).stage with
  | newPerson =>
    rw [hstage] at hprogram hphase
    cases hprogram
    have hmade : (reqs t).Made (.person (reqs t).newPerson) := rfl
    exact ⟨rfl, rfl, hown.insert hmade (by rw [hstage]; nofun) horder (by rw [hstage]; rfl) hphase⟩
  | newOrganization p =>
    rw [hstage] at hprogram hphase
    cases hprogram
    have hmade : (reqs t).Made (.organization ((reqs t).newOrganization p)) := rfl
    exact ⟨rfl, rfl, hown.insert hmade (by rw [hstage]; nofun) horder (by rw [hstage]; rfl) hphase⟩
  | opportunity p organizationId =>
    rw [hstage] at hprogram hphase
    cases hprogram
    have hmade : (reqs t).Made (.opportunity ((reqs t).newOpportunity p) organizationId) :=
      id_newOpportunity p
    exact ⟨rfl, rfl, hown.insert hmade (by rw [hstage]; nofun) horder (by rw [hstage]; rfl) hphase⟩
  | link p =>
    rw [hstage] at hprogram hphase
    cases hprogram
    have hmade : (reqs t).Made (.founder ((reqs t).founder p)) := rfl
    exact ⟨rfl, rfl, hown.insert hmade (by rw [hstage]; nofun) horder (by rw [hstage]; rfl) hphase⟩
  | newSubmission p =>
    rw [hstage] at hprogram hphase
    cases hprogram
    have hmade : (reqs t).Made (.submission ((reqs t).newSubmission p)) := ⟨rfl, rfl⟩
    exact ⟨rfl, rfl, hown.insert hmade (by rw [hstage]; nofun) horder (by rw [hstage]; rfl)
      ⟨hphase, hlast⟩⟩
  | job p =>
    rw [hstage] at hprogram hphase
    cases hprogram
    have hmade : (reqs t).Made (.job (reqs t).newJob) := rfl
    exact ⟨rfl, rfl, hown.insert hmade (by rw [hstage]; nofun) horder (by rw [hstage]; rfl)
      ⟨hphase.1, List.mem_append_left _ hphase.2⟩⟩
  | outbox p =>
    rw [hstage] at hprogram hphase
    cases hprogram
    have hmade : (reqs t).Made (.event ((reqs t).newEvent p)) := ⟨rfl, rfl⟩
    exact ⟨rfl, rfl, hown.insert hmade (by rw [hstage]; nofun) horder (by rw [hstage]; rfl)
      ⟨hphase.1, List.mem_append_left _ hphase.2, hlast⟩⟩
  | _ =>
    rw [hstage] at hprogram
    cases hprogram

/-- An event is not refused, since no event comes without a submission. -/
lemma PitchInv.not_refused_event (hready : PitchesReady reqs rows) (h : PitchInv reqs rows s)
    (hstage : (s.tx t).stage.isAccepted = false) {p : Person}
    (horder : (Row.event ((reqs t).newEvent p)).order = (s.tx t).stage.order)
    (hnew : (reqs t).NewKey rows)
    (hpending : .submission ((reqs t).newSubmission p) ∈ (s.tx t).pending) :
    ¬ Refused s Row.Clash t (.event ((reqs t).newEvent p)) := by
  intro hrefused
  obtain ⟨q, hq, ⟨key, hkey, hkey'⟩, hfrom⟩ := h.refused_by hstage horder hrefused
  simp only [Row.keys, List.mem_cons, List.not_mem_nil, or_false] at hkey
  rcases hkey with rfl | rfl
  · refine absurd hkey' (hready.not_mem_keys (t := t) (by simp [PitchRequest.ids,
      PitchRequest.newEvent]) (hfrom.imp_right fun h => h.imp fun u h => ⟨h.1, h.2.2⟩))
  · cases q with
    | event e =>
      simp only [Row.keys, List.mem_cons, List.not_mem_nil, or_false] at hkey'
      rcases hkey' with heq | heq
      · cases heq
      · have hdedupe : e.dedupeKey = (reqs t).dedupeKey := (UniqueKey.dedupeKey.inj heq).symm
        rcases h.stored_of_event hready hq hdedupe with ⟨x, hx, hxkey⟩ | hstored
        · exact hnew x hx hxkey
        · exact h.not_stored hpending hstored
    | _ => simp [Row.keys] at hkey'

/-- An insertion that is refused although the founder and the company are not is that of the
submission, and there is one with its key. -/
lemma PitchInv.refused (hready : PitchesReady reqs rows) (h : PitchInv reqs rows s)
    (hguard : KeepsFounder reqs s (.statement t)) {next onConflict : PitchStage}
    (hprogram : (reqs t).program (s.tx t).stage = .insert row next onConflict)
    (hrefused : Refused s Row.Clash t row) :
    (s.tx t).stage.isAccepted = false ∧ onConflict.isAccepted = false ∧
      PitchTxInv rows s.committed (reqs t) { s.tx t with stage := onConflict } := by
  have hown := h.tx t
  have hphase := hown.phase
  have horder := order_of_program hprogram
  have hrow := hguard row (by rw [hprogram]; rfl)
  cases hstage : (s.tx t).stage with
  | newPerson =>
    rw [hstage] at hprogram
    cases hprogram
    exact absurd hrefused (hrow Nat.zero_lt_two)
  | newOrganization p =>
    rw [hstage] at hprogram
    cases hprogram
    exact absurd hrefused (hrow Nat.one_lt_two)
  | opportunity p organizationId =>
    rw [hstage] at hprogram
    cases hprogram
    refine absurd hrefused (h.not_refused hready (by rw [hstage]; rfl) horder fun key hkey => ?_)
    obtain rfl := List.mem_singleton.mp hkey
    rw [id_newOpportunity]
    simp [PitchRequest.ids]
  | link p =>
    rw [hstage] at hprogram
    cases hprogram
    exact absurd hrefused (h.not_refused_founder hready (by rw [hstage]; rfl) horder)
  | newSubmission p =>
    rw [hstage] at hprogram
    cases hprogram
    have hstored := h.stored_of_refused hready (by rw [hstage]; rfl) horder hrefused
    have hle : (PitchStage.newSubmission p).order ≤ PitchStage.conflict.order :=
      show (4 : ℕ) ≤ 7 by decide
    exact ⟨rfl, rfl, hown.go hstage hle nofun (Or.inl rfl) hstored⟩
  | job p =>
    rw [hstage] at hprogram
    cases hprogram
    refine absurd hrefused (h.not_refused hready (by rw [hstage]; rfl) horder fun key hkey => ?_)
    obtain rfl := List.mem_singleton.mp hkey
    simp [PitchRequest.ids, PitchRequest.newJob, createJob]
  | outbox p =>
    rw [hstage] at hprogram hphase
    cases hprogram
    exact absurd hrefused
      (h.not_refused_event hready (by rw [hstage]; rfl) horder hphase.1 hphase.2)
  | _ =>
    rw [hstage] at hprogram
    cases hprogram

/-- A request that rolls back looks its key up again. -/
lemma PitchInv.rolledBack (h : PitchInv reqs rows s)
    (hprogram : (reqs t).program (s.tx t).stage = .rollback next) :
    (s.tx t).stage.isAccepted = false ∧ next.isAccepted = false ∧
      PitchTxInv rows s.committed (reqs t) { stage := next } := by
  have hphase := (h.tx t).phase
  cases hstage : (s.tx t).stage with
  | conflict =>
    rw [hstage] at hprogram hphase
    cases hprogram
    refine ⟨rfl, rfl, hphase, fun r hr => absurd hr List.not_mem_nil,
      fun r hr => absurd hr List.not_mem_nil, fun _ k _ _ => ?_⟩
    rw [List.countP_nil]
    exact (if_neg (Nat.not_lt_zero k)).symm
  | raising =>
    rw [hstage] at hphase
    exact hphase.elim
  | _ =>
    rw [hstage] at hprogram
    cases hprogram

/-- Only a request that has inserted everything commits. -/
lemma stage_of_commit {stage : PitchStage} (h : req.program stage = .commit next) :
    ∃ p, stage = .commit p ∧ next = .accepted p := by
  cases stage <;> cases h
  exact ⟨_, rfl, rfl⟩

/-- No request waits for one that waits for it: both insert their rows in one order. -/
lemma PitchInv.not_deadlocked (h : PitchInv reqs rows s) :
    ¬ Deadlocked Row.Clash (fun t => (reqs t).program) s t := by
  have hwaits : ∀ t u, WaitsFor Row.Clash (fun t => (reqs t).program) s t u →
      (s.tx t).stage.order < (s.tx u).stage.order := by
    intro t u hwait
    unfold WaitsFor at hwait
    dsimp only at hwait
    cases hprogram : (reqs t).program (s.tx t).stage with
    | insert row next onConflict =>
      rw [hprogram] at hwait
      obtain ⟨-, r, hr, hclash⟩ := hwait
      rw [← order_of_program hprogram, hclash.order_eq]
      exact (h.tx u).before r hr
    | lock key next => exact key.elim
    | _ =>
      rw [hprogram] at hwait
      exact hwait.elim
  rintro ⟨u, -, htu, hut⟩
  exact Nat.lt_asymm (hwaits t u htu) (hwaits u t hut)

/-- An event that refuses no founder and no company keeps the invariant. -/
lemma PitchInv.step (hready : PitchesReady reqs rows) (h : PitchInv reqs rows s)
    {event : Event Bool} (hguard : KeepsFounder reqs s event)
    (hstep : pitchStep reqs s event = some s') : PitchInv reqs rows s' := by
  cases event with
  | victim t =>
    have hnone : pitchStep reqs s (.victim t) = none := if_neg h.not_deadlocked
    rw [hnone] at hstep
    cases hstep
  | statement t =>
    have hstatement : ReadCommitted.step (fun t => (reqs t).program) Row.Clash s t = some s' :=
      hstep
    have hexecuted := executed_of_step hstatement
    have hunclashed := h.unclashed.executed Row.clash_comm hexecuted
    cases hexecuted with
    | selected hprogram =>
      obtain ⟨hstage, hnext, htx⟩ := h.selected hprogram
      exact h.put hunclashed hstage hnext htx
    | refused hprogram hrefused =>
      obtain ⟨hstage, hnext, htx⟩ := h.refused hready hguard hprogram hrefused
      exact h.put hunclashed hstage hnext htx
    | blocked hprogram hrefused hblocked => exact h
    | inserted hprogram hrefused hblocked =>
      obtain ⟨hstage, hnext, htx⟩ := h.inserted hprogram
      exact h.put hunclashed hstage hnext htx
    | waiting hprogram hlocked => exact h
    | @locked key => exact key.elim
    | committed hprogram =>
      obtain ⟨p, hstage, rfl⟩ := stage_of_commit hprogram
      exact h.publish hstage hunclashed
    | rolledBack hprogram =>
      obtain ⟨hstage, hnext, htx⟩ := h.rolledBack hprogram
      exact h.put hunclashed hstage hnext htx

/-- The invariant holds where the requests start. -/
lemma pitchInv_start (hready : PitchesReady reqs rows) : PitchInv reqs rows (pitchStart rows) where
  unclashed := unclashed_start hready.unclashed
  added := ⟨[], (List.append_nil rows).symm, fun _ _ _ => rfl⟩
  origin _ hr := Or.inl hr
  tx _ :=
    { phase := trivial
      made := fun _ hr => absurd hr List.not_mem_nil
      before := fun _ hr => absurd hr List.not_mem_nil
      counts := fun _ k _ _ => (if_neg (Nat.not_lt_zero k)).symm }

/-! ### Progress -/

lemma left_of_select {stage : PitchStage} {next : List Row → PitchStage}
    (h : req.program stage = .select next) (rows : List Row) :
    (next rows).left < stage.left := by
  cases stage <;> cases h <;> dsimp only
  · split <;> simp [PitchStage.left]
  · simp [PitchStage.left]
  · split <;> simp [PitchStage.left]
  · split <;> simp [PitchStage.left]
  · split <;> simp [PitchStage.left]

lemma left_of_insert {stage onConflict : PitchStage}
    (h : req.program stage = .insert row next onConflict) :
    next.left < stage.left ∧ onConflict.left < stage.left := by
  cases stage <;> cases h <;> simp [PitchStage.left]

lemma left_of_rollback {stage : PitchStage} (h : req.program stage = .rollback next) :
    next.left < stage.left := by
  cases stage <;> cases h <;> simp [PitchStage.left]

/-- A request that has not returned waits for the other one or gets closer to its end. -/
lemma PitchInv.progress (h : PitchInv reqs rows s) (t : Bool) :
    ((reqs t).returned (s.tx t).stage).isSome ∨
      WaitsFor Row.Clash (fun t => (reqs t).program) s t (!t) ∨
        ∃ s', pitchStep reqs s (.statement t) = some s' ∧
          (s'.tx t).stage.left < (s.tx t).stage.left := by
  change _ ∨ _ ∨ ∃ s', ReadCommitted.step (fun t => (reqs t).program) Row.Clash s t = some s' ∧ _
  cases hprogram : (reqs t).program (s.tx t).stage with
  | select next =>
    refine Or.inr (Or.inr ⟨_, step_of_select hprogram, ?_⟩)
    rw [State.put_tx_self]
    exact left_of_select hprogram _
  | insert row next onConflict =>
    obtain ⟨hnext, hconflict⟩ := left_of_insert hprogram
    by_cases hrefused : Refused s Row.Clash t row
    · refine Or.inr (Or.inr ⟨_, step_of_refused hprogram hrefused, ?_⟩)
      rwa [State.put_tx_self]
    · by_cases hblocked : Blocked s Row.Clash t row
      · obtain ⟨u, hu, hclash⟩ := hblocked
        obtain rfl : u = !t := Bool.eq_not_of_ne hu
        refine Or.inr (Or.inl ?_)
        unfold WaitsFor
        dsimp only
        rw [hprogram]
        exact ⟨hrefused, hclash⟩
      · refine Or.inr (Or.inr ⟨_, step_of_inserted hprogram hrefused hblocked, ?_⟩)
        rwa [State.put_tx_self]
  | lock key next => exact key.elim
  | commit next =>
    obtain ⟨p, hstage, rfl⟩ := stage_of_commit hprogram
    refine Or.inr (Or.inr ⟨_, step_of_commit hprogram, ?_⟩)
    rw [State.publish_tx_self, hstage]
    exact Nat.zero_lt_one
  | rollback next =>
    refine Or.inr (Or.inr ⟨_, step_of_rollback hprogram, ?_⟩)
    rw [State.put_tx_self]
    exact left_of_rollback hprogram
  | stop =>
    have hphase := (h.tx t).phase
    cases hstage : (s.tx t).stage with
    | answered r => exact Or.inl rfl
    | accepted p => exact Or.inl rfl
    | failed =>
      rw [hstage] at hphase
      exact hphase.elim
    | _ =>
      rw [hstage] at hprogram
      cases hprogram

/-! ### Soundness of the invariant -/

/-- What a request returns is what is stored under its key. -/
lemma PitchInv.answers_of_returned (h : PitchInv reqs rows s) {r : PitchResponse}
    (hreturned : (reqs t).returned (s.tx t).stage = some r) :
    (reqs t).Answers s.committed r := by
  have hphase := (h.tx t).phase
  cases hstage : (s.tx t).stage with
  | answered r' =>
    rw [hstage] at hphase hreturned
    cases hreturned
    exact hphase
  | accepted p =>
    rw [hstage] at hphase hreturned
    cases hreturned
    exact hphase
  | _ =>
    rw [hstage] at hreturned
    cases hreturned

/-- Requests with one key return the same for a submission. -/
lemma PitchRequest.answer_congr {req req' : PitchRequest} (hkey : req.key = req'.key)
    (hrepr : req.repr = req'.repr) (rows : List Row) (x : InboundSubmission) :
    req.answer rows x = req'.answer rows x := by
  have hdedupe : req.dedupeKey = req'.dedupeKey := congrArg ("inbound-submission:".toList ++ ·) hkey
  rw [answer, answer, hdedupe, hrepr]

/-- Only one submission is committed under a key. -/
lemma PitchInv.submission_eq (h : PitchInv reqs rows s) {x y : InboundSubmission}
    (hx : .submission x ∈ s.committed) (hy : .submission y ∈ s.committed)
    (hkey : x.idempotencyKey = y.idempotencyKey) : x = y := by
  have hclash : Row.Clash (.submission x) (.submission y) :=
    ⟨.idempotencyKey x.idempotencyKey, by simp [Row.keys], by simp [Row.keys, hkey]⟩
  exact Row.submission.inj (h.unclashed.eq_of_clash Row.clash_comm
    ⟨true, State.mem_visible.mpr (Or.inl hx)⟩ ⟨true, State.mem_visible.mpr (Or.inl hy)⟩ hclash)

/-- Two requests with one key do not both store their rows. -/
lemma PitchInv.not_both_accepted (hready : PitchesReady reqs rows) (h : PitchInv reqs rows s)
    (hkey : (reqs false).key = (reqs true).key) :
    ¬ ((s.tx false).stage.isAccepted = true ∧ (s.tx true).stage.isAccepted = true) := by
  have hopportunity : ∀ t, (s.tx t).stage.isAccepted = true → ∃ x, .submission x ∈ s.committed ∧
      x.idempotencyKey = (reqs t).key ∧ x.opportunityId = (reqs t).form.opportunityId := by
    intro t ht
    have hphase := (h.tx t).phase
    cases hstage : (s.tx t).stage with
    | accepted p =>
      rw [hstage] at hphase
      obtain ⟨x, hx, hxkey, hanswer⟩ := hphase
      exact ⟨x, hx, hxkey, (congrArg PitchResponse.opportunityId hanswer).symm⟩
    | _ =>
      rw [hstage] at ht
      cases ht
  rintro ⟨hfalse, htrue⟩
  obtain ⟨x, hx, hxkey, hxid⟩ := hopportunity false hfalse
  obtain ⟨y, hy, hykey, hyid⟩ := hopportunity true htrue
  obtain rfl := h.submission_eq hx hy (by rw [hxkey, hykey, hkey])
  refine hready.distinct (.opportunityId (reqs false).form.opportunityId)
    (by simp [PitchRequest.ids]) ?_
  rw [← hxid, hyid]
  simp [PitchRequest.ids]

/-- Two requests with one new key that are done have stored their rows once. -/
lemma PitchInv.acceptedCount_eq_one (hready : PitchesReady reqs rows) (h : PitchInv reqs rows s)
    (hkey : (reqs false).key = (reqs true).key) (hnew : (reqs false).NewKey rows)
    (hstored : (reqs false).Stored s.committed) : acceptedCount s = 1 := by
  have hboth := h.not_both_accepted hready hkey
  have hone : ∃ u, (s.tx u).stage.isAccepted = true := by
    obtain ⟨x, hx, hxkey⟩ := hstored
    rcases h.origin _ hx with hrow | ⟨u, hu, -⟩
    · exact absurd hxkey (hnew x hrow)
    · exact ⟨u, hu⟩
  unfold acceptedCount
  cases hfalse : (s.tx false).stage.isAccepted <;> cases htrue : (s.tx true).stage.isAccepted
  · obtain ⟨u, hu⟩ := hone
    cases u
    · rw [hfalse] at hu
      cases hu
    · rw [htrue] at hu
      cases hu
  · rfl
  · rfl
  · exact absurd ⟨hfalse, htrue⟩ hboth

/-- A kind of row is recognised by its order. -/
lemma length_filter_isSome {α : Type} {f : Row → Option α} {k : ℕ}
    (hf : ∀ r, (f r).isSome = decide (r.order = k)) (added : List Row) :
    (added.filter fun r => (f r).isSome).length = added.countP fun r => r.order = k := by
  rw [← List.countP_eq_length_filter]
  exact congrArg (List.countP · added) (funext hf)

/-- Requests that are well are sound. -/
lemma PitchInv.sound (hready : PitchesReady reqs rows) (h : PitchInv reqs rows s) :
    PitchesSound reqs rows s where
  noFailure t := by
    have hphase := (h.tx t).phase
    constructor
    · intro heq
      rw [heq] at hphase
      exact hphase
    · intro heq
      rw [heq] at hphase
      exact hphase
  noDeadlock _ := h.not_deadlocked
  progress := h.progress
  sameAnswer hkey r hr r' hr' := by
    obtain ⟨x, hx, hxkey, hanswer⟩ := h.answers_of_returned (Option.mem_def.mp hr)
    obtain ⟨y, hy, hykey, hanswer'⟩ := h.answers_of_returned (Option.mem_def.mp hr')
    have hsame : x = y := h.submission_eq hx hy (by rw [hxkey, hykey, hkey])
    rw [hanswer, hanswer', hsame, PitchRequest.answer_congr hkey hready.oneRepr]
  oneOfEach hkey hnew hdone := by
    obtain ⟨r, hr⟩ := Option.isSome_iff_exists.mp (hdone false)
    obtain ⟨x, hx, hxkey, -⟩ := h.answers_of_returned hr
    have hone := h.acceptedCount_eq_one hready hkey hnew ⟨x, hx, hxkey⟩
    obtain ⟨added, hadded, hcount⟩ := h.added
    refine ⟨added, hadded, ?_, ?_, ?_, ?_⟩
    · rw [length_filter_isSome (k := 2) (fun r => by cases r <;> rfl), hcount 2 (by decide)
        (by decide), hone]
    · rw [length_filter_isSome (k := 4) (fun r => by cases r <;> rfl), hcount 4 (by decide)
        (by decide), hone]
    · rw [length_filter_isSome (k := 5) (fun r => by cases r <;> rfl), hcount 5 (by decide)
        (by decide), hone]
    · rw [length_filter_isSome (k := 6) (fun r => by cases r <;> rfl), hcount 6 (by decide)
        (by decide), hone]

end Invariant

/-- **Concurrent submissions.** In every interleaving of two requests of which no founder and no
company is refused, the requests are sound: neither fails or gets stuck, and two with one key return
the same ids and store exactly one opportunity, submission, job and event.

**Proof sketch.** The first commit under a key puts the submission, the job and the event there at
once. A request that is refused at its submission after that rolls back and finds them, and of what
the request has inserted before, only the founder and the company can be refused. The rows are
inserted in one order, so no two requests wait for each other. -/
theorem pitches_sound_of_keepsFounder (reqs : Bool → PitchRequest) (rows : List Row)
    (hready : PitchesReady reqs rows) (events : List (Event Bool))
    (hkeeps : History.Guarded (pitchStep reqs) (KeepsFounder reqs) (pitchStart rows) events) :
    PitchesSound reqs rows (History.replay (pitchStep reqs) (pitchStart rows) events) :=
  (History.replay_of_guarded _ (fun _ _ _ h hstep hguard => h.step hready hguard hstep)
    (pitchInv_start hready) hkeeps).sound hready

/-! ## Two requests of one founder -/

/-- Two requests of one founder, with their keys. -/
def adaPitches (keys : Bool → Str) (t : Bool) : PitchRequest where
  ucd := .ascii
  md5 bytes := bytes.map fun b => Char.ofNat b.toNat
  repr _ := []
  form :=
    { founderName := "Ada"
      founderEmail := "ada@example.com"
      companyName := "Engines"
      idempotencyKey := keys t
      upload := some "hash"
      now := 0
      snapshotId := Fin.ofNat _ t.toNat
      personId := Fin.ofNat _ (2 + t.toNat)
      opportunityId := Fin.ofNat _ (4 + t.toNat)
      submissionId := Fin.ofNat _ (6 + t.toNat) }
  evidence := []
  organizationId := Fin.ofNat _ (8 + t.toNat)
  jobId := Fin.ofNat _ (10 + t.toNat)
  eventId := Fin.ofNat _ (12 + t.toNat)

/-- The founder. -/
def adaFounder : Row := .person
  { id := 100, stableId := "email:ada@example.com", displayName := some "Ada".toList
    createdAt := 0 }

/-- The company. -/
def adaCompany : Row := .organization
  { id := 101
    stableId := organizationStableId .ascii (fun bytes => bytes.map fun b => Char.ofNat b.toNat)
      "Engines"
    name := "Engines" }

/-- The stage of a request after the statements of a schedule. -/
def adaStage (keys : Bool → Str) (rows : List Row) (schedule : List Bool) : PitchStage :=
  ((History.replay (pitchStep (adaPitches keys)) (pitchStart rows)
    (schedule.map .statement)).tx true).stage

lemma pitchesReady_ada (keys : Bool → Str) {rows : List Row}
    (hrows : rows = [] ∨ rows = [adaFounder] ∨ rows = [adaFounder, adaCompany]) :
    PitchesReady (adaPitches keys) rows where
  oneRepr := rfl
  unclashed := by rcases hrows with rfl | rfl | rfl <;> decide +kernel
  events t e he := by
    rcases hrows with rfl | rfl | rfl <;> simp [adaFounder, adaCompany] at he
  unused := by
    rcases hrows with rfl | rfl | rfl <;>
      simp [adaPitches, PitchRequest.ids, Row.keys, adaFounder, adaCompany]
  unlinked t f hf := by
    rcases hrows with rfl | rfl | rfl <;> simp [adaFounder, adaCompany] at hf
  distinct := by simp [adaPitches, PitchRequest.ids]

/-- Two requests with one key of a known founder are sound, though one is refused. -/
theorem pitches_sound_of_keepsFounder_refused :
    let reqs := adaPitches fun _ => "key"
    let events := (List.replicate 5 true ++ List.replicate 9 false ++
      List.replicate 4 true).map Event.statement
    PitchesSound reqs [adaFounder, adaCompany]
      (History.replay (pitchStep reqs) (pitchStart [adaFounder, adaCompany]) events) :=
  pitches_sound_of_keepsFounder _ _ (pitchesReady_ada _ (Or.inr (Or.inr rfl))) _
    (by decide +kernel)

/-- **Three races.** Two requests of a new founder look the founder up before one creates it, with
one key or with two, and the other one fails. So it is with a new company of a known founder. -/
theorem pitches_race :
    (PitchesReady (adaPitches fun _ => "key") [] ∧
      adaStage (fun _ => "key") []
        ([true, true] ++ List.replicate 11 false ++ [true, true]) = .failed) ∧
    (PitchesReady (adaPitches fun t => if t then "first" else "second") [] ∧
      adaStage (fun t => if t then "first" else "second") []
        ([true, true] ++ List.replicate 11 false ++ [true, true]) = .failed) ∧
    (PitchesReady (adaPitches fun t => if t then "first" else "second") [adaFounder] ∧
      adaStage (fun t => if t then "first" else "second") [adaFounder]
        ([true, true, true] ++ List.replicate 10 false ++ [true, true]) = .failed) := by
  refine ⟨⟨pitchesReady_ada _ (Or.inl rfl), ?_⟩, ⟨pitchesReady_ada _ (Or.inl rfl), ?_⟩,
    pitchesReady_ada _ (Or.inr (Or.inl rfl)), ?_⟩
  · decide +kernel
  · decide +kernel
  · decide +kernel

end VCBrain
