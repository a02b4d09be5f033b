import VCBrain.Collectors.Persistence
import VCBrain.Foundation.OrderBy
import VCBrain.Foundation.ReadCommitted
import VCBrain.Foundation.Unicode
import VCBrain.JobLedger

set_option relaxedAutoImplicit false
set_option autoImplicit false

/-!
# Rows that concurrent transactions insert

Several requests and jobs create founders, companies and opportunities at the same time. The rows
of these tables are one type, with the unique constraints as a relation between a new row and one
that is there.

## Main definitions

* `Row` — a row of one of the tables; `Row.Clash` — the unique constraints.
* `personsWithHandle`, `personOf`, `organizationOf`, `latestOpportunity` — the queries.

## Main results

* `Row.clash_comm` — a clash does not depend on which row was there first.
-/

namespace VCBrain

/-- `organizations`. -/
structure Organization where
  id : Uuid
  stableId : Str
  name : Str
  orgType : Str := "company"
deriving DecidableEq

/-- `outbox_events`. -/
structure OutboxEvent where
  id : Uuid
  dedupeKey : Str
  eventType : Str
  aggregateId : Uuid
  payload : Json
deriving DecidableEq

/-- `organization_stable_id`. -/
def organizationStableId (ucd : Ucd) (md5 : List UInt8 → Str) (name : Str) : Str :=
  "company:".toList ++ md5 (utf8 (List.intercalate " ".toList (ucd.casefold name).words))

/-- A row of one of the tables; of the collected evidence only the fingerprint. -/
inductive Row where
  | person (p : Person)
  | organization (o : Organization)
  | opportunity (o : Opportunity) (organizationId : Uuid)
  | founder (f : OpportunityFounder)
  | evidence (fingerprint : Str)
  | submission (s : InboundSubmission)
  | job (j : JobRun)
  | event (e : OutboxEvent)
deriving DecidableEq

/-- A value that a primary key or a unique constraint keeps unique. -/
inductive UniqueKey where
  | personId (id : Uuid)
  | personStableId (stableId : Str)
  | organizationId (id : Uuid)
  | organizationStableId (stableId : Str)
  | opportunityId (id : Uuid)
  | founder (opportunityId personId : Uuid)
  | evidence (fingerprint : Str)
  | submissionId (id : Uuid)
  | idempotencyKey (key : Str)
  | jobId (id : Uuid)
  | eventId (id : Uuid)
  | dedupeKey (key : Str)
deriving DecidableEq

namespace Row

/-- The values of a row under the primary keys and the unique constraints. -/
def keys : Row → List UniqueKey
  | person p => [.personId p.id, .personStableId p.stableId]
  | organization o => [.organizationId o.id, .organizationStableId o.stableId]
  | opportunity o _ => [.opportunityId o.id]
  | founder f => [.founder f.opportunityId f.personId]
  | evidence fingerprint => [.evidence fingerprint]
  | submission s => [.submissionId s.id, .idempotencyKey s.idempotencyKey]
  | job j => [.jobId j.id]
  | event e => [.eventId e.id, .dedupeKey e.dedupeKey]

/-- The rows share a value that is to be unique. -/
def Clash (r q : Row) : Prop := ∃ key ∈ r.keys, key ∈ q.keys

instance : DecidableRel Clash :=
  fun r q => inferInstanceAs (Decidable (∃ key ∈ r.keys, key ∈ q.keys))

lemma clash_comm (r q : Row) (h : Clash r q) : Clash q r := by
  obtain ⟨key, hr, hq⟩ := h
  exact ⟨key, hq, hr⟩

end Row

/-! ## Queries -/

/-- The person of a row. -/
def Row.person? : Row → Option Person
  | .person p => some p
  | _ => none

/-- The organization of a row. -/
def Row.organization? : Row → Option Organization
  | .organization o => some o
  | _ => none

/-- The opportunity of a row. -/
def Row.opportunity? : Row → Option Opportunity
  | .opportunity o _ => some o
  | _ => none

/-- The founder of a row. -/
def Row.founder? : Row → Option OpportunityFounder
  | .founder f => some f
  | _ => none

/-- The submission of a row. -/
def Row.submission? : Row → Option InboundSubmission
  | .submission s => some s
  | _ => none

/-- The job of a row. -/
def Row.job? : Row → Option JobRun
  | .job j => some j
  | _ => none

/-- The event of a row. -/
def Row.event? : Row → Option OutboxEvent
  | .event e => some e
  | _ => none

/-- The row is evidence. -/
def Row.isEvidence : Row → Bool
  | .evidence _ => true
  | _ => false

/-- The person has the handle on the source. -/
def Person.HasHandle (source handle : Str) (p : Person) : Prop :=
  p.handles.bind (Dict.get? · source) = some handle

instance (source handle : Str) : DecidablePred (Person.HasHandle source handle) :=
  fun p => inferInstanceAs (Decidable (p.handles.bind (Dict.get? · source) = some handle))

/-- The persons with a handle. -/
def personsWithHandle (source handle : Str) (rows : List Row) : List Person :=
  (rows.filterMap Row.person?).filter fun p => p.HasHandle source handle

/-- The person with a stable id. -/
def personOf (stableId : Str) (rows : List Row) : Option Person :=
  (rows.filterMap Row.person?).find? fun p => p.stableId = stableId

/-- The organization with a stable id. -/
def organizationOf (stableId : Str) (rows : List Row) : Option Organization :=
  (rows.filterMap Row.organization?).find? fun o => o.stableId = stableId

/-- The last opportunity of a person. -/
def latestOpportunity (personId : Uuid) (rows : List Row) : Option Opportunity :=
  latest Opportunity.createdAt ((rows.filterMap Row.opportunity?).filter fun o =>
    rows.any fun
      | .founder f => f.opportunityId = o.id ∧ f.personId = personId
      | _ => false)

section Query

variable {rows : List Row}

lemma mem_filterMap_person? {p : Person} : p ∈ rows.filterMap Row.person? ↔ .person p ∈ rows := by
  rw [List.mem_filterMap]
  constructor
  · rintro ⟨row, hrow, heq⟩
    cases row <;> cases heq
    exact hrow
  · exact fun h => ⟨_, h, rfl⟩

lemma mem_personsWithHandle {source handle : Str} {p : Person} :
    p ∈ personsWithHandle source handle rows ↔ .person p ∈ rows ∧ p.HasHandle source handle := by
  rw [personsWithHandle, List.mem_filter, mem_filterMap_person?, decide_eq_true_eq]

/-- A person clashes with itself. -/
lemma clash_of_stableId {p q : Person} (h : p.stableId = q.stableId) :
    Row.Clash (.person p) (.person q) :=
  ⟨.personStableId p.stableId, by simp [Row.keys], by simp [Row.keys, h]⟩

/-- If all persons with a handle are one, at most one row has it. -/
lemma personsWithHandle_cases {source handle : Str}
    (hrows : rows.Pairwise fun r q => ¬ Row.Clash r q)
    (hone : ∀ p q, .person p ∈ rows → .person q ∈ rows → p.HasHandle source handle →
      q.HasHandle source handle → p = q) :
    (personsWithHandle source handle rows = [] ∧
        ∀ p, .person p ∈ rows → ¬ p.HasHandle source handle) ∨
      ∃ p, personsWithHandle source handle rows = [p] ∧ .person p ∈ rows ∧
        p.HasHandle source handle := by
  have hnodup : (personsWithHandle source handle rows).Pairwise (· ≠ ·) := by
    refine List.Pairwise.filter _ (List.pairwise_filterMap.mpr ?_)
    refine hrows.imp fun {r q} hclash p hp p' hp' heq => hclash ?_
    subst heq
    cases r <;> cases hp
    cases q <;> cases hp'
    exact clash_of_stableId rfl
  cases hfound : personsWithHandle source handle rows with
  | nil =>
    refine Or.inl ⟨rfl, fun p hp hhandle => ?_⟩
    have hmem := mem_personsWithHandle.mpr ⟨hp, hhandle⟩
    rw [hfound] at hmem
    cases hmem
  | cons p rest =>
    have hp := mem_personsWithHandle.mp (hfound ▸ List.mem_cons_self (a := p) (l := rest))
    cases rest with
    | nil => exact Or.inr ⟨p, rfl, hp⟩
    | cons q rest =>
      have hq := mem_personsWithHandle.mp
        (hfound ▸ List.mem_cons_of_mem p (List.mem_cons_self (a := q) (l := rest)))
      rw [hfound, List.pairwise_cons] at hnodup
      exact absurd (hone p q hp.1 hq.1 hp.2 hq.2) (hnodup.1 q (List.mem_cons_self ..))

end Query

end VCBrain
