import Mathlib.Logic.Function.Basic
import VCBrain.Foundation.Guarded
import VCBrain.Foundation.OrderBy
import VCBrain.OutreachDelivery

set_option relaxedAutoImplicit false
set_option autoImplicit false

/-!
# The contact job and the life of its messages

A delivery of the contact job loads the person, the last outbound opportunity of the person and the
message there is for the two; if there is none it has a message drafted and inserts it. The drafting
takes long, and nothing keeps a second delivery from looking in the meantime. A draft is approved
only if the person may be contacted, but the approval is not checked again when it is sent. This
file determines in which histories a person is not contacted against their will, and in which there
is one live message for a person and an opportunity.

## Main definitions

* `ContactDelivery` — a delivery of `contact_outbound_job` between two of its statements.
* `OutreachState.step` — deliveries, requests of reviewers, events of the provider, and changes of
  persons and opportunities, in any order.
* `LawfulOutreach`, `AtMostOneLive` — the two laws.
* `SendsConsented`, `InsertsAlone` — the conditions on a step.

## Main results

* `lawfulOutreach_iff` — a history is lawful exactly if its send requests meet the condition.
* `lawful_of_staysContactable` — it is if the person of an approved message stays contactable.
* `atMostOneLive_iff` — a history keeps to one live message exactly if its insertions meet theirs.
* `atMostOneLive_of_selectsAlone` — it does if no two deliveries have found that there is none.

## Design

The statements of a delivery are steps of their own, as each sees what is committed by then. A
delivery may stop anywhere. The subject and the text of a message are inputs of its insertion. The
snapshot and the observation that are stored with a draft are left out. Merges of persons, which
give the messages of one person to another, are no steps here.
-/

namespace VCBrain

/-! ## The job -/

/-- What a delivery returns. -/
inductive ContactResult where
  | personNotFound
  | noOpportunity
  /-- There is a message already. -/
  | existing (status : OutreachStatus) (outreachId : Uuid)
  | blocked (status : OutreachStatus) (error : Str)
  | drafted (mode : Str) (outreachId : Uuid)
deriving DecidableEq

/-- A delivery of `contact_outbound_job` between two of its statements. -/
inductive ContactDelivery where
  | loaded (person : Person)
  | found (person : Person) (opportunity : Opportunity)
  /-- There was no message when the delivery looked. -/
  | clear (person : Person) (opportunity : Opportunity)
  | finished (result : ContactResult)
deriving DecidableEq

/-- `OutreachDraft`. -/
structure OutreachDraft where
  subject : Str
  body : Str
  generationMode : Str
deriving DecidableEq

/-- The last outbound opportunity of a person. -/
def outboundOpportunity (db : Db) (personId : Uuid) : Option Opportunity :=
  latest Opportunity.createdAt (db.opportunities.filter fun o =>
    o.sourceKind = "outbound" ∧
      ∃ f ∈ db.opportunityFounders, f.opportunityId = o.id ∧ f.personId = personId)

/-- The message is about the person and the opportunity, and it is not failed. -/
def OutreachRow.LiveFor (personId opportunityId : Uuid) (m : OutreachRow) : Prop :=
  m.personId = personId ∧ m.opportunityId = opportunityId ∧ m.status ≠ .failed

instance (personId opportunityId : Uuid) :
    DecidablePred (OutreachRow.LiveFor personId opportunityId) :=
  fun _ => inferInstanceAs (Decidable (_ ∧ _ ∧ _))

/-- The last live message for a person and an opportunity. -/
def existingMessage (messages : List OutreachRow) (personId opportunityId : Uuid) :
    Option OutreachRow :=
  latest OutreachRow.createdAt (messages.filter fun m => m.LiveFor personId opportunityId)

/-- `session.get(Person, id)`, with which a delivery begins. -/
def loadRecipient (db : Db) (personId : Uuid) : ContactDelivery :=
  match db.person? personId with
  | none => .finished .personNotFound
  | some person => .loaded person

/-- The next query of a delivery. -/
def ContactDelivery.select (db : Db) (messages : List OutreachRow) :
    ContactDelivery → ContactDelivery
  | .loaded person =>
    match outboundOpportunity db person.id with
    | none => .finished .noOpportunity
    | some opportunity => .found person opportunity
  | .found person opportunity =>
    match existingMessage messages person.id opportunity.id with
    | some existing => .finished (.existing existing.status existing.id)
    | none => .clear person opportunity
  | d => d

/-- The message that a delivery inserts, and what it returns. -/
def contactMessage (person : Person) (opportunity : Opportunity) (id : Uuid) (draft : OutreachDraft)
    (now : Time) : OutreachRow × ContactResult :=
  match contactBlockReason person with
  | some reason =>
    ({ id := id, personId := person.id, opportunityId := opportunity.id
       recipientEmail := person.email, status := blockedStatus reason
       failureReason := some reason, createdAt := now },
      .blocked (blockedStatus reason) reason)
  | none =>
    ({ id := id, personId := person.id, opportunityId := opportunity.id
       recipientEmail := person.email, subject := draft.subject, body := draft.body
       generationMode := draft.generationMode, status := .drafted, createdAt := now },
      .drafted draft.generationMode id)

/-! ## Histories -/

/-- The tables, and the deliveries that are running. -/
structure OutreachState where
  db : Db := {}
  messages : List OutreachRow := []
  deliveries : ℕ → Option ContactDelivery := fun _ => none

/-- A delivery starts, runs its next query, inserts its message, or stops; a reviewer approves a
draft or requests that it is sent; the provider reports something; or other tables change, such as
the consent state or the email of a person. -/
inductive OutreachEvent where
  | start (delivery : ℕ) (personId : Uuid)
  | select (delivery : ℕ)
  | insert (delivery : ℕ) (id : Uuid) (draft : OutreachDraft) (now : Time)
  | stop (delivery : ℕ)
  | approve (candidateId outreachId : Uuid) (approvedBy : Str) (now : Time)
  | send (candidateId outreachId : Uuid) (now : Time)
  | provider (outreachId : Uuid) (newStatus : OutreachStatus)
      (providerMessageId failureReason : Option Str) (now : Time)
  | elsewhere (db : Db)

/-- The state in which a delivery has got to a point. -/
def OutreachState.put (st : OutreachState) (delivery : ℕ) (d : Option ContactDelivery) :
    OutreachState :=
  { st with deliveries := Function.update st.deliveries delivery d }

/-- A delivery that has found no message inserts its own. -/
def OutreachState.insertDraft (st : OutreachState) (delivery : ℕ) (id : Uuid)
    (draft : OutreachDraft) (now : Time) : Option OutreachState :=
  match st.deliveries delivery with
  | some (.clear person opportunity) =>
    let message := contactMessage person opportunity id draft now
    (insertMessage st.messages message.1).map fun messages =>
      { st.put delivery (some (.finished message.2)) with messages := messages }
  | _ => none

/-- The state after an event, unless the event fails. -/
def OutreachState.step (st : OutreachState) : OutreachEvent → Option OutreachState
  | .start delivery personId =>
    if (st.deliveries delivery).isSome then none
    else some (st.put delivery (some (loadRecipient st.db personId)))
  | .select delivery => (st.deliveries delivery).map fun d =>
      st.put delivery (some (d.select st.db st.messages))
  | .insert delivery id draft now => st.insertDraft delivery id draft now
  | .stop delivery => some (st.put delivery none)
  | .approve candidateId outreachId approvedBy now => some { st with
      messages := (approveOutreach st.db st.messages candidateId outreachId approvedBy now).2 }
  | .send candidateId outreachId now =>
    match requestOutreachSend st.messages candidateId outreachId now with
    | .ok (_, messages) => some { st with messages := messages }
    | .error _ => none
  | .provider outreachId newStatus providerMessageId failureReason now =>
    (providerEvent st.messages outreachId newStatus providerMessageId failureReason now).map
      fun messages => { st with messages := messages }
  | .elsewhere db => some { st with db := db }

/-- The law of contact. A message that enters `send_requested` was approved and belongs to a person
who may be contacted, and a message that is neither a draft nor approved changes only as the
provider may report. -/
def LawfulOutreach (st st' : OutreachState) : Prop :=
  ∀ id new, message? st'.messages id = some new →
    (new.status = .sendRequested →
      (message? st.messages id).map OutreachRow.status ≠ some .sendRequested →
      (message? st.messages id).map OutreachRow.status = some .approved ∧
        ∀ person, st'.db.person? new.personId = some person →
          contactBlockReason person = none) ∧
    ∀ old, message? st.messages id = some old → old.status ≠ .drafted → old.status ≠ .approved →
      new.status ≠ old.status → new.status ∈ deliveryTransitions old.status

/-- The condition on a send request: the person may still be contacted. -/
def SendsConsented (st : OutreachState) : OutreachEvent → Prop
  | .send candidateId _ _ => ∀ person, st.db.person? candidateId = some person →
      contactBlockReason person = none
  | _ => True

/-- No two live messages are about the same person and opportunity. -/
def AtMostOneLive (messages : List OutreachRow) : Prop :=
  messages.Pairwise fun m n => m.status ≠ .failed → ¬ n.LiveFor m.personId m.opportunityId

instance : DecidablePred AtMostOneLive := fun _ => inferInstanceAs (Decidable (List.Pairwise _ _))

/-- The condition on an insertion: the person has no email, and so the message is failed, or no live
message for the person and the opportunity has been inserted since the delivery looked. -/
def InsertsAlone (st : OutreachState) : OutreachEvent → Prop
  | .insert delivery _ _ _ => ∀ person opportunity,
      st.deliveries delivery = some (.clear person opportunity) → filled person.email = true →
        ∀ m ∈ st.messages, ¬ m.LiveFor person.id opportunity.id
  | _ => True

/-- The persons of approved messages may be contacted. -/
def ApprovedContactable (db : Db) (messages : List OutreachRow) : Prop :=
  ∀ id m, message? messages id = some m → m.status = .approved →
    ∀ person, db.person? m.personId = some person → contactBlockReason person = none

/-- The condition on a change of persons: who is the person of an approved message may still be
contacted. -/
def StaysContactable (st : OutreachState) : OutreachEvent → Prop
  | .elsewhere db => ApprovedContactable db st.messages
  | _ => True

/-- The condition on a query: while a delivery has found that there is no message, no other delivery
looks for one of the same person and opportunity. -/
def SelectsAlone (st : OutreachState) : OutreachEvent → Prop
  | .select delivery => ∀ person opportunity,
      st.deliveries delivery = some (.found person opportunity) →
        ∀ other person' opportunity', st.deliveries other = some (.clear person' opportunity') →
          ¬ (person'.id = person.id ∧ opportunity'.id = opportunity.id)
  | _ => True

/-! ## The inserted message -/

section Insertion

variable {st st' : OutreachState} {delivery : ℕ} {id : Uuid} {draft : OutreachDraft} {now : Time}
  {person : Person} {opportunity : Opportunity}

/-- Whose the inserted message is. -/
lemma contactMessage_keys :
    (contactMessage person opportunity id draft now).1.id = id ∧
      (contactMessage person opportunity id draft now).1.personId = person.id ∧
      (contactMessage person opportunity id draft now).1.opportunityId = opportunity.id := by
  unfold contactMessage
  cases contactBlockReason person <;> exact ⟨rfl, rfl, rfl⟩

/-- A new message is not requested to be sent, and not approved. -/
lemma contactMessage_status :
    (contactMessage person opportunity id draft now).1.status ≠ .sendRequested ∧
      (contactMessage person opportunity id draft now).1.status ≠ .approved := by
  unfold contactMessage
  cases contactBlockReason person with
  | none => exact ⟨nofun, nofun⟩
  | some reason =>
    dsimp only [blockedStatus]
    split_ifs
    · exact ⟨nofun, nofun⟩
    · exact ⟨nofun, nofun⟩

/-- A new message is live exactly if the person has an email. -/
lemma contactMessage_live_iff :
    (contactMessage person opportunity id draft now).1.status ≠ .failed ↔
      filled person.email = true := by
  unfold contactMessage contactBlockReason
  by_cases hemail : filled person.email = true
  · simp only [hemail, Bool.not_true, Bool.false_eq_true, if_false, iff_true]
    by_cases hstate : person.consentState ∈ suppressedConsentStates
    · rw [if_pos hstate]
      simp [blockedStatus]
    · rw [if_neg hstate]
      exact nofun
  · simp [hemail, blockedStatus]

/-- What an insertion does. -/
lemma insertDraft_cases (h : st.insertDraft delivery id draft now = some st') :
    ∃ person opportunity, st.deliveries delivery = some (.clear person opportunity) ∧
      st'.db = st.db ∧
      st'.messages = st.messages ++ [(contactMessage person opportunity id draft now).1] ∧
      (∀ m ∈ st.messages, m.id ≠ id) ∧
      st'.deliveries = Function.update st.deliveries delivery
        (some (.finished (contactMessage person opportunity id draft now).2)) := by
  unfold OutreachState.insertDraft at h
  split at h
  case h_1 person opportunity hdelivery =>
    obtain ⟨messages, hmessages, rfl⟩ := Option.map_eq_some_iff.mp h
    obtain ⟨rfl, hnew⟩ := insertMessage_eq_some hmessages
    rw [contactMessage_keys.1] at hnew
    exact ⟨person, opportunity, hdelivery, rfl, rfl, hnew, rfl⟩
  case h_2 => cases h

/-- What a send request does. -/
lemma send_cases {candidateId outreachId : Uuid}
    (h : st.step (.send candidateId outreachId now) = some st') :
    ∃ old new, Changed st.messages st'.messages old new ∧ old.status = .approved ∧
      new.status = .sendRequested ∧ old.personId = candidateId ∧ st'.db = st.db ∧
      st'.deliveries = st.deliveries := by
  simp only [OutreachState.step] at h
  split at h
  case h_1 response messages hsend =>
    obtain rfl := Option.some.inj h
    obtain ⟨old, new, hchanged, happroved, hrequested, howner⟩ := changed_of_send hsend
    exact ⟨old, new, hchanged, happroved, hrequested, howner, rfl, rfl⟩
  case h_2 => cases h

/-- What an event of the provider does. -/
lemma provider_cases {outreachId : Uuid} {newStatus : OutreachStatus}
    {providerMessageId failureReason : Option Str}
    (h : st.step (.provider outreachId newStatus providerMessageId failureReason now) = some st') :
    ∃ old new, Changed st.messages st'.messages old new ∧
      new.status ∈ deliveryTransitions old.status ∧ st'.db = st.db ∧
      st'.deliveries = st.deliveries := by
  obtain ⟨messages, hprovider, rfl⟩ := Option.map_eq_some_iff.mp h
  obtain ⟨old, new, hchanged, hstatus⟩ := changed_of_transition hprovider
  exact ⟨old, new, hchanged, hstatus, rfl, rfl⟩

end Insertion

/-! ## The law of contact -/

section Law

variable {st st' : OutreachState}

/-- A step that leaves the messages is lawful. -/
lemma lawful_of_messages_eq (h : st'.messages = st.messages) : LawfulOutreach st st' := by
  intro id new hnew
  rw [h] at hnew
  rw [hnew]
  refine ⟨fun hrequested hbefore => ?_, fun old hold _ _ hne => ?_⟩
  · exact absurd (congrArg some hrequested) hbefore
  · obtain rfl := Option.some.inj hold
    exact absurd rfl hne

/-- The insertion of a message is lawful. -/
lemma lawful_of_append {row : OutreachRow} (h : st'.messages = st.messages ++ [row])
    (hrow : row.status ≠ .sendRequested) : LawfulOutreach st st' := by
  intro id new hnew
  rw [h] at hnew
  rcases message?_append_cases hnew with hold | ⟨hnone, rfl⟩
  · rw [hold]
    refine ⟨fun hrequested hbefore => ?_, fun old hold _ _ hne => ?_⟩
    · exact absurd (congrArg some hrequested) hbefore
    · obtain rfl := Option.some.inj hold
      exact absurd rfl hne
  · rw [hnone]
    refine ⟨fun hrequested => absurd hrequested hrow, fun old hold => ?_⟩
    cases hold

/-- A change of one message is lawful exactly if it is for that message. -/
lemma lawful_changed_iff {old new : OutreachRow}
    (h : Changed st.messages st'.messages old new) :
    LawfulOutreach st st' ↔
      (new.status = .sendRequested → old.status ≠ .sendRequested → old.status = .approved ∧
        ∀ person, st'.db.person? new.personId = some person →
          contactBlockReason person = none) ∧
      (old.status ≠ .drafted → old.status ≠ .approved → new.status ≠ old.status →
        new.status ∈ deliveryTransitions old.status) := by
  constructor
  · intro hlaw
    have hafter : message? st'.messages new.id = some new := by
      rw [h.eq_replace, message?_replaceMessage, h.found, Option.map_some, if_pos]
      exact id_of_message? h.found
    obtain ⟨hsend, hforward⟩ := hlaw new.id new hafter
    rw [h.found, Option.map_some] at hsend
    refine ⟨fun hrequested hbefore => ?_, hforward old h.found⟩
    obtain ⟨happroved, hconsent⟩ := hsend hrequested fun heq => hbefore (Option.some.inj heq)
    exact ⟨Option.some.inj happroved, hconsent⟩
  · rintro ⟨hsend, hforward⟩ id m hm
    rcases h.message?_cases hm with hsame | ⟨hold, rfl⟩
    · rw [hsame]
      refine ⟨fun hrequested hbefore => ?_, fun m' hm' _ _ hne => ?_⟩
      · exact absurd (congrArg some hrequested) hbefore
      · obtain rfl := Option.some.inj hm'
        exact absurd rfl hne
    · rw [hold]
      refine ⟨fun hrequested hbefore => ?_, fun m' hm' => ?_⟩
      · obtain ⟨happroved, hconsent⟩ := hsend hrequested fun heq => hbefore (congrArg some heq)
        exact ⟨congrArg some happroved, hconsent⟩
      · obtain rfl := Option.some.inj hm'
        exact hforward

/-- **One step.** A step is lawful exactly if it meets the condition. -/
lemma lawful_step_iff {e : OutreachEvent} (h : st.step e = some st') :
    LawfulOutreach st st' ↔ SendsConsented st e := by
  cases e with
  | start delivery personId =>
    simp only [OutreachState.step] at h
    split_ifs at h
    obtain rfl := Option.some.inj h
    exact iff_of_true (lawful_of_messages_eq rfl) trivial
  | select delivery =>
    obtain ⟨d, -, rfl⟩ := Option.map_eq_some_iff.mp h
    exact iff_of_true (lawful_of_messages_eq rfl) trivial
  | insert delivery id draft now =>
    obtain ⟨person, opportunity, -, -, hmessages, -⟩ := insertDraft_cases h
    exact iff_of_true (lawful_of_append hmessages contactMessage_status.1) trivial
  | stop delivery =>
    obtain rfl := Option.some.inj h
    exact iff_of_true (lawful_of_messages_eq rfl) trivial
  | approve candidateId outreachId approvedBy now =>
    obtain rfl := Option.some.inj h
    refine iff_of_true ?_ trivial
    rcases changed_of_approve with hsame | ⟨old, new, hchanged, hdrafted, hnew⟩
    · exact lawful_of_messages_eq hsame
    · rw [lawful_changed_iff hchanged]
      refine ⟨fun hrequested => ?_, fun hne => absurd hdrafted hne⟩
      rcases hnew with hnew | hnew | ⟨hnew, -⟩ <;> rw [hnew] at hrequested <;> cases hrequested
  | send candidateId outreachId now =>
    obtain ⟨old, new, hchanged, happroved, hrequested, howner, hdb, -⟩ := send_cases h
    rw [lawful_changed_iff hchanged, happroved, hrequested, hchanged.person, howner, hdb]
    constructor
    · rintro ⟨hsend, -⟩
      exact (hsend rfl nofun).2
    · intro hconsent
      exact ⟨fun _ _ => ⟨rfl, hconsent⟩, fun _ hne => absurd rfl hne⟩
  | provider outreachId newStatus providerMessageId failureReason now =>
    obtain ⟨old, new, hchanged, hstatus, -⟩ := provider_cases h
    refine iff_of_true ?_ trivial
    rw [lawful_changed_iff hchanged]
    exact ⟨fun hrequested => absurd hrequested (delivery_forward hstatus).2.2,
      fun _ _ _ => hstatus⟩
  | elsewhere db =>
    obtain rfl := Option.some.inj h
    exact iff_of_true (lawful_of_messages_eq rfl) trivial

/-- **The law of contact.** In a history of deliveries of the contact job, approvals, send requests,
events of the provider and changes of persons, no message enters `send_requested` while its person
must not be contacted, a message enters it only from `approved`, and every later change of its
status is one the provider may report, exactly if every send request that is accepted finds that the
person may still be contacted.

**Proof sketch.** All steps but send requests are lawful: an approval makes no requested message,
and the provider reports no such status. A send request makes one of an approved message, and does
not look at the person. -/
theorem lawfulOutreach_iff (st : OutreachState) (es : List OutreachEvent) :
    History.Along OutreachState.step (fun st _ st' => LawfulOutreach st st') st es ↔
      History.Guarded OutreachState.step SendsConsented st es :=
  History.along_iff_guarded OutreachState.step (I := fun _ => True)
    (R := fun st _ st' => LawfulOutreach st st') (fun _ _ _ _ hstep => lawful_step_iff hstep)
    (fun _ _ _ _ _ _ => trivial) trivial es

/-- A founder with an email and an outbound opportunity. -/
def invitedFounder : Person where
  id := 1
  stableId := "github:ada"
  email := some "ada@example.com"
  createdAt := 0

/-- The founder has opted out of contact, or not yet. -/
def contactDb (consentState : Str) : Db where
  persons := [{ invitedFounder with consentState := consentState }]
  opportunities :=
    [{ id := 2, companyName := "Acme", sourceKind := "outbound", lifecycleState := .investigating
       createdAt := 0 }]
  opportunityFounders := [{ opportunityId := 2, personId := 1, role := "founder" }]

/-- The text of a draft. -/
def exampleDraft : OutreachDraft where
  subject := "Hello"
  body := "We discovered your work."
  generationMode := "template"

/-- A person opts out after a message to them was approved; the message is requested to be sent. -/
theorem not_lawfulOutreach_optedOut :
    ¬ History.Along OutreachState.step (fun st _ st' => LawfulOutreach st st')
      { db := contactDb "pending" }
      ([.start 0 1, .select 0, .select 0, .insert 0 7 exampleDraft 1, .approve 1 7 "Ann" 2,
        .elsewhere (contactDb "opted_out")] ++ [.send 1 7 3]) := by
  rw [History.along_append]
  rintro ⟨-, hsend, -⟩
  have hsome : (OutreachState.step (History.replay OutreachState.step
      { db := contactDb "pending" }
      [.start 0 1, .select 0, .select 0, .insert 0 7 exampleDraft 1, .approve 1 7 "Ann" 2,
        .elsewhere (contactDb "opted_out")]) (.send 1 7 3)).isSome = true := by decide +kernel
  obtain ⟨u, hu⟩ := Option.isSome_iff_exists.mp hsome
  have hconsent := (lawful_step_iff hu).mp (hsend u hu)
  have hblocked := hconsent { invitedFounder with consentState := "opted_out" } rfl
  exact absurd hblocked (by decide)

/-- A step that blocks nobody who is the person of an approved message keeps those persons
contactable, and a send request finds it so. -/
lemma contactable_step {e : OutreachEvent} (hcontactable : ApprovedContactable st.db st.messages)
    (h : st.step e = some st') (hstays : StaysContactable st e) :
    ApprovedContactable st'.db st'.messages ∧ SendsConsented st e := by
  cases e with
  | start delivery personId =>
    simp only [OutreachState.step] at h
    split_ifs at h
    obtain rfl := Option.some.inj h
    exact ⟨hcontactable, trivial⟩
  | select delivery =>
    obtain ⟨d, -, rfl⟩ := Option.map_eq_some_iff.mp h
    exact ⟨hcontactable, trivial⟩
  | insert delivery id draft now =>
    obtain ⟨person, opportunity, -, hdb, hmessages, -⟩ := insertDraft_cases h
    refine ⟨fun id m hm happroved => ?_, trivial⟩
    rw [hmessages] at hm
    rw [hdb]
    rcases message?_append_cases hm with hold | ⟨-, rfl⟩
    · exact hcontactable id m hold happroved
    · exact absurd happroved contactMessage_status.2
  | stop delivery =>
    obtain rfl := Option.some.inj h
    exact ⟨hcontactable, trivial⟩
  | approve candidateId outreachId approvedBy now =>
    obtain rfl := Option.some.inj h
    refine ⟨?_, trivial⟩
    rcases changed_of_approve with hsame | ⟨old, new, hchanged, -, hnew⟩
    · rw [hsame]
      exact hcontactable
    · intro id m hm happroved
      rcases hchanged.message?_cases hm with hold | ⟨-, rfl⟩
      · exact hcontactable id m hold happroved
      · rcases hnew with hnew | hnew | ⟨-, hconsent⟩
        · rw [hnew] at happroved
          cases happroved
        · rw [hnew] at happroved
          cases happroved
        · exact hconsent
  | send candidateId outreachId now =>
    obtain ⟨old, new, hchanged, happroved, hrequested, howner, hdb, -⟩ := send_cases h
    refine ⟨fun id m hm hm' => ?_, howner ▸ hcontactable _ old hchanged.found happroved⟩
    rw [hdb]
    rcases hchanged.message?_cases hm with hold | ⟨-, rfl⟩
    · exact hcontactable id m hold hm'
    · rw [hrequested] at hm'
      cases hm'
  | provider outreachId newStatus providerMessageId failureReason now =>
    obtain ⟨old, new, hchanged, hstatus, hdb, -⟩ := provider_cases h
    refine ⟨fun id m hm hm' => ?_, trivial⟩
    rw [hdb]
    rcases hchanged.message?_cases hm with hold | ⟨-, rfl⟩
    · exact hcontactable id m hold hm'
    · exact absurd hm' (delivery_forward hstatus).2.1
  | elsewhere db =>
    obtain rfl := Option.some.inj h
    exact ⟨hstays, trivial⟩

/-- A history in which nobody is blocked while a message to them is approved is lawful. -/
theorem lawful_of_staysContactable (hcontactable : ApprovedContactable st.db st.messages)
    {es : List OutreachEvent}
    (hstays : History.Guarded OutreachState.step StaysContactable st es) :
    History.Along OutreachState.step (fun st _ st' => LawfulOutreach st st') st es := by
  rw [lawfulOutreach_iff]
  exact History.guarded_of_guarded OutreachState.step
    (I := fun st => ApprovedContactable st.db st.messages)
    (fun _ _ _ hI hstep hC => contactable_step hI hstep hC) hcontactable hstays

end Law

/-! ## One live message -/

section Live

variable {messages messages' : List OutreachRow} {old new row : OutreachRow}
  {personId opportunityId : Uuid}

/-- A change that revives no message leaves no new live message. -/
lemma Changed.exists_liveFor (h : Changed messages messages' old new)
    (hlive : new.status ≠ .failed → old.status ≠ .failed) {m : OutreachRow} (hm : m ∈ messages')
    (hfor : m.LiveFor personId opportunityId) :
    ∃ m ∈ messages, m.LiveFor personId opportunityId := by
  rw [h.eq_replace, replaceMessage] at hm
  obtain ⟨m, hmem, rfl⟩ := List.mem_map.mp hm
  split_ifs at hfor
  · obtain ⟨hperson, hopportunity, hstatus⟩ := hfor
    exact ⟨old, List.mem_of_find?_eq_some h.found, h.person ▸ hperson,
      h.opportunity ▸ hopportunity, hlive hstatus⟩
  · exact ⟨m, hmem, hfor⟩

/-- A change keeps the ids. -/
lemma Changed.keyUnique (h : Changed messages messages' old new)
    (hids : KeyUnique (fun m : OutreachRow => m.id) messages) :
    KeyUnique (fun m : OutreachRow => m.id) messages' := by
  unfold KeyUnique
  rw [h.eq_replace, map_id_replaceMessage]
  exact hids

/-- A change that revives no message keeps to one live message. -/
lemma AtMostOneLive.change (hone : AtMostOneLive messages)
    (hids : KeyUnique (fun m : OutreachRow => m.id) messages)
    (h : Changed messages messages' old new)
    (hlive : new.status ≠ .failed → old.status ≠ .failed) : AtMostOneLive messages' := by
  rw [h.eq_replace, replaceMessage, AtMostOneLive, List.pairwise_map]
  -- the new version is about the same pair as the old one, and is live only if that was
  have hback : ∀ m ∈ messages, ∀ p o, (if m.id = new.id then new else m).LiveFor p o →
      m.LiveFor p o := by
    intro m hm p o hfor
    split_ifs at hfor with hid
    · obtain rfl := eq_of_message? hids h.found hm hid
      exact ⟨h.person ▸ hfor.1, h.opportunity ▸ hfor.2.1, hlive hfor.2.2⟩
    · exact hfor
  refine List.Pairwise.imp_of_mem (fun {m n} hm hn hmn hstatus hfor => ?_) hone
  obtain ⟨hperson, hopportunity, hmlive⟩ := hback m hm _ _ ⟨rfl, rfl, hstatus⟩
  apply hmn hmlive
  rw [hperson, hopportunity]
  exact hback n hn _ _ hfor

/-- A further message keeps to one live message exactly if it is failed or there is none yet for its
person and opportunity. -/
lemma atMostOneLive_append_iff (hone : AtMostOneLive messages) :
    AtMostOneLive (messages ++ [row]) ↔
      (row.status ≠ .failed → ∀ m ∈ messages, ¬ m.LiveFor row.personId row.opportunityId) := by
  unfold AtMostOneLive
  rw [List.pairwise_append]
  simp only [List.pairwise_singleton, List.mem_singleton, forall_eq, true_and]
  constructor
  · rintro ⟨-, hapart⟩ hrow m hm ⟨hperson, hopportunity, hstatus⟩
    exact hapart m hm hstatus ⟨hperson.symm, hopportunity.symm, hrow⟩
  · intro hnone
    refine ⟨hone, fun m hm hstatus hfor => ?_⟩
    exact hnone hfor.2.2 m hm ⟨hfor.1.symm, hfor.2.1.symm, hstatus⟩

end Live

section Job

variable {st st' : OutreachState}

/-- **One step.** From distinct ids and at most one live message, a step keeps to one live message
exactly if it meets the condition, and it keeps the ids distinct. -/
lemma atMostOneLive_step_iff {e : OutreachEvent}
    (hids : KeyUnique (fun m : OutreachRow => m.id) st.messages)
    (hone : AtMostOneLive st.messages) (h : st.step e = some st') :
    (AtMostOneLive st'.messages ↔ InsertsAlone st e) ∧
      KeyUnique (fun m : OutreachRow => m.id) st'.messages := by
  cases e with
  | start delivery personId =>
    simp only [OutreachState.step] at h
    split_ifs at h
    obtain rfl := Option.some.inj h
    exact ⟨iff_of_true hone trivial, hids⟩
  | select delivery =>
    obtain ⟨d, -, rfl⟩ := Option.map_eq_some_iff.mp h
    exact ⟨iff_of_true hone trivial, hids⟩
  | insert delivery id draft now =>
    obtain ⟨person, opportunity, hdelivery, -, hmessages, hnew, -⟩ := insertDraft_cases h
    obtain ⟨hid, hperson, hopportunity⟩ := @contactMessage_keys id draft now person opportunity
    rw [hmessages, atMostOneLive_append_iff hone, contactMessage_live_iff, hperson, hopportunity]
    refine ⟨⟨fun hnone p o hp => ?_, fun hcond => hcond person opportunity hdelivery⟩, ?_⟩
    · rw [hdelivery] at hp
      cases hp
      exact hnone
    · refine hids.append fun m hm => ?_
      rw [hid]
      exact hnew m hm
  | stop delivery =>
    obtain rfl := Option.some.inj h
    exact ⟨iff_of_true hone trivial, hids⟩
  | approve candidateId outreachId approvedBy now =>
    obtain rfl := Option.some.inj h
    rcases changed_of_approve with hsame | ⟨old, new, hchanged, hdrafted, -⟩
    · rw [hsame]
      exact ⟨iff_of_true hone trivial, hids⟩
    · have hlive : new.status ≠ .failed → old.status ≠ .failed := fun _ => by simp [hdrafted]
      exact ⟨iff_of_true (hone.change hids hchanged hlive) trivial, hchanged.keyUnique hids⟩
  | send candidateId outreachId now =>
    obtain ⟨old, new, hchanged, happroved, -⟩ := send_cases h
    have hlive : new.status ≠ .failed → old.status ≠ .failed := fun _ => by simp [happroved]
    exact ⟨iff_of_true (hone.change hids hchanged hlive) trivial, hchanged.keyUnique hids⟩
  | provider outreachId newStatus providerMessageId failureReason now =>
    obtain ⟨old, new, hchanged, hstatus, -⟩ := provider_cases h
    have hlive : new.status ≠ .failed → old.status ≠ .failed :=
      fun _ => ne_failed_of_delivery hstatus
    exact ⟨iff_of_true (hone.change hids hchanged hlive) trivial, hchanged.keyUnique hids⟩
  | elsewhere db =>
    obtain rfl := Option.some.inj h
    exact ⟨iff_of_true hone trivial, hids⟩

/-- **One live message.** From distinct ids and at most one live message for a person and an
opportunity, a history of any deliveries of the contact job, of what reviewers and the provider do,
and of changes of the other tables keeps to at most one live message throughout exactly if no
delivery that has found no message inserts a live one after another has been inserted.

**Proof sketch.** An insertion adds a message for the pair the delivery has looked up, live if the
person has an email, so it is harmless exactly if there is still none. No other step revives a
message or changes whose it is. -/
theorem atMostOneLive_iff (hids : KeyUnique (fun m : OutreachRow => m.id) st.messages)
    (hone : AtMostOneLive st.messages) (es : List OutreachEvent) :
    History.Meets OutreachState.step (fun _ st => AtMostOneLive st.messages) st es ↔
      History.Guarded OutreachState.step InsertsAlone st es :=
  History.meets_iff_guarded OutreachState.step
    (I := fun st => KeyUnique (fun m : OutreachRow => m.id) st.messages ∧
      AtMostOneLive st.messages)
    (Q := fun _ st => AtMostOneLive st.messages)
    (fun _ _ _ hI hstep => (atMostOneLive_step_iff hI.1 hI.2 hstep).1)
    (fun _ _ _ hI hstep hQ => ⟨(atMostOneLive_step_iff hI.1 hI.2 hstep).2, hQ⟩) ⟨hids, hone⟩ es

/-- The theorem applies to a delivery that starts when the first one has inserted its message. -/
theorem atMostOneLive_iff_oneAfterAnother :
    History.Guarded OutreachState.step InsertsAlone { db := contactDb "pending" }
      [.start 0 1, .select 0, .select 0, .insert 0 7 exampleDraft 1, .start 1 1, .select 1,
        .select 1] := by
  refine (atMostOneLive_iff ?_ ?_ _).mp ?_
  · exact List.nodup_nil
  · exact List.Pairwise.nil
  · decide +kernel

/-- Two deliveries look before either inserts its message. -/
theorem not_atMostOneLive_twoDeliveries :
    ¬ History.Meets OutreachState.step (fun _ st => AtMostOneLive st.messages)
      { db := contactDb "pending" }
      [.start 0 1, .start 1 1, .select 0, .select 0, .select 1, .select 1,
        .insert 0 7 exampleDraft 1, .insert 1 8 exampleDraft 2] := by
  decide +kernel

/-- A delivery has found that there is no message for the pair. -/
def OutreachState.Clear (st : OutreachState) (delivery : ℕ) (personId opportunityId : Uuid) :
    Prop :=
  ∃ person opportunity, st.deliveries delivery = some (.clear person opportunity) ∧
    person.id = personId ∧ opportunity.id = opportunityId

/-- What a delivery has found is still so, and no two have found it of one pair. -/
structure Reserved (st : OutreachState) : Prop where
  none_live : ∀ delivery p o, st.Clear delivery p o → ∀ m ∈ st.messages, ¬ m.LiveFor p o
  alone : ∀ d d' p o, st.Clear d p o → st.Clear d' p o → d = d'

/-- A step that lets no further delivery find that there is no message, and adds no live one, keeps
reservations. -/
lemma Reserved.step (h : Reserved st)
    (hclear : ∀ delivery p o, st'.Clear delivery p o → st.Clear delivery p o)
    (hlive : ∀ p o, ∀ m ∈ st'.messages, m.LiveFor p o → ∃ m ∈ st.messages, m.LiveFor p o) :
    Reserved st' where
  none_live delivery p o hdelivery m hm hfor := by
    obtain ⟨m', hm', hfor'⟩ := hlive p o m hm hfor
    exact h.none_live delivery p o (hclear delivery p o hdelivery) m' hm' hfor'
  alone d d' p o hd hd' := h.alone d d' p o (hclear d p o hd) (hclear d' p o hd')

lemma clear_congr (h : st'.deliveries = st.deliveries) {delivery : ℕ} {p o : Uuid} :
    st'.Clear delivery p o ↔ st.Clear delivery p o := by
  unfold OutreachState.Clear
  rw [h]

/-- A delivery that gets to a point other than having found no message. -/
lemma clear_of_put {delivery : ℕ} {d : Option ContactDelivery}
    (hd : ∀ person opportunity, d ≠ some (.clear person opportunity)) {other : ℕ} {p o : Uuid}
    (h : (st.put delivery d).Clear other p o) : st.Clear other p o ∧ other ≠ delivery := by
  obtain ⟨person, opportunity, hother, hperson, hopportunity⟩ := h
  by_cases heq : other = delivery
  · subst heq
    simp only [OutreachState.put, Function.update_self] at hother
    exact absurd hother (hd person opportunity)
  · simp only [OutreachState.put, Function.update_of_ne heq] at hother
    exact ⟨⟨person, opportunity, hother, hperson, hopportunity⟩, heq⟩

/-- A query that finds no message. -/
lemma select_eq_clear {db : Db} {messages : List OutreachRow} {d : ContactDelivery}
    {person : Person} {opportunity : Opportunity}
    (h : d.select db messages = .clear person opportunity) :
    d = .clear person opportunity ∨ d = .found person opportunity ∧
      ∀ m ∈ messages, ¬ m.LiveFor person.id opportunity.id := by
  cases d with
  | loaded p =>
    simp only [ContactDelivery.select] at h
    split at h <;> cases h
  | found p o =>
    simp only [ContactDelivery.select] at h
    split at h
    case h_1 => cases h
    case h_2 hnone =>
      obtain ⟨rfl, rfl⟩ := ContactDelivery.clear.inj h
      refine Or.inr ⟨rfl, fun m hm hfor => ?_⟩
      unfold existingMessage at hnone
      rw [latest_eq_none_iff, List.filter_eq_nil_iff] at hnone
      exact hnone m hm (decide_eq_true hfor)
  | clear p o => exact Or.inl h
  | finished r => cases h

/-- A delivery is the first to find that there is no message for its pair. -/
lemma Reserved.select {delivery : ℕ} {person : Person} {opportunity : Opportunity}
    (h : Reserved st) (hnone : ∀ m ∈ st.messages, ¬ m.LiveFor person.id opportunity.id)
    (hother : ∀ other, ¬ st.Clear other person.id opportunity.id) :
    Reserved (st.put delivery (some (.clear person opportunity))) := by
  have hcases : ∀ other p o, (st.put delivery (some (.clear person opportunity))).Clear other p o →
      (other = delivery ∧ p = person.id ∧ o = opportunity.id) ∨ st.Clear other p o := by
    rintro other p o ⟨person', opportunity', hput, rfl, rfl⟩
    by_cases heq : other = delivery
    · subst heq
      simp only [OutreachState.put, Function.update_self, Option.some.injEq] at hput
      obtain ⟨rfl, rfl⟩ := ContactDelivery.clear.inj hput
      exact Or.inl ⟨rfl, rfl, rfl⟩
    · simp only [OutreachState.put, Function.update_of_ne heq] at hput
      exact Or.inr ⟨person', opportunity', hput, rfl, rfl⟩
  constructor
  · intro other p o hclear
    rcases hcases other p o hclear with ⟨-, rfl, rfl⟩ | hclear
    · exact hnone
    · exact h.none_live other p o hclear
  · intro d d' p o hd hd'
    rcases hcases d p o hd with ⟨rfl, rfl, rfl⟩ | hclear
    · rcases hcases d' _ _ hd' with ⟨rfl, -, -⟩ | hclear'
      · rfl
      · exact absurd hclear' (hother d')
    · rcases hcases d' p o hd' with ⟨rfl, rfl, rfl⟩ | hclear'
      · exact absurd hclear (hother d)
      · exact h.alone d d' p o hclear hclear'

/-- A delivery that has found no message inserts its own. -/
lemma Reserved.insert {delivery : ℕ} {id : Uuid} {draft : OutreachDraft} {now : Time}
    (h : Reserved st) (hinsert : st.insertDraft delivery id draft now = some st') :
    Reserved st' ∧ InsertsAlone st (.insert delivery id draft now) := by
  obtain ⟨person, opportunity, hdelivery, -, hmessages, -, hdeliveries⟩ := insertDraft_cases hinsert
  have hown : st.Clear delivery person.id opportunity.id :=
    ⟨person, opportunity, hdelivery, rfl, rfl⟩
  have hput : ∀ other p o, st'.Clear other p o → st.Clear other p o ∧ other ≠ delivery := by
    rintro other p o ⟨person', opportunity', hother, hsame⟩
    rw [hdeliveries] at hother
    refine clear_of_put (fun _ _ heq => ?_) ⟨person', opportunity', hother, hsame⟩
    rw [Option.some.injEq] at heq
    cases heq
  constructor
  · refine ⟨fun other p o hclear m hm hfor => ?_, fun d d' p o hd hd' => ?_⟩
    · obtain ⟨hclear, hne⟩ := hput other p o hclear
      rw [hmessages, List.mem_append, List.mem_singleton] at hm
      rcases hm with hm | rfl
      · exact h.none_live other p o hclear m hm hfor
      · obtain ⟨hperson, hopportunity, -⟩ := hfor
        rw [contactMessage_keys.2.1] at hperson
        rw [contactMessage_keys.2.2] at hopportunity
        subst hperson hopportunity
        exact hne (h.alone other delivery _ _ hclear hown)
    · exact h.alone d d' p o (hput d p o hd).1 (hput d' p o hd').1
  · rintro person' opportunity' hdelivery' -
    rw [hdelivery] at hdelivery'
    cases hdelivery'
    exact h.none_live delivery _ _ hown

/-- **Reservations.** If no delivery looks while another has found no message of the same pair, a
step keeps what the deliveries have found, and an insertion finds it so. -/
lemma reserved_step {e : OutreachEvent} (h : Reserved st) (hstep : st.step e = some st')
    (halone : SelectsAlone st e) : Reserved st' ∧ InsertsAlone st e := by
  have hsame : ∀ p o, ∀ m ∈ st.messages, m.LiveFor p o → ∃ m ∈ st.messages, m.LiveFor p o :=
    fun p o m hm hfor => ⟨m, hm, hfor⟩
  cases e with
  | start delivery personId =>
    simp only [OutreachState.step] at hstep
    split_ifs at hstep
    obtain rfl := Option.some.inj hstep
    refine ⟨h.step (fun other p o hclear => (clear_of_put ?_ hclear).1) hsame, trivial⟩
    intro person opportunity heq
    unfold loadRecipient at heq
    split at heq <;> cases heq
  | select delivery =>
    obtain ⟨d, hd, rfl⟩ := Option.map_eq_some_iff.mp hstep
    refine ⟨?_, trivial⟩
    by_cases hfound : ∃ person opportunity, d.select st.db st.messages = .clear person opportunity ∧
        d = .found person opportunity
    · obtain ⟨person, opportunity, hselect, rfl⟩ := hfound
      rw [hselect]
      refine h.select ((select_eq_clear hselect).resolve_left nofun).2 ?_
      rintro other ⟨person', opportunity', hclear, heq⟩
      exact halone person opportunity hd other person' opportunity' hclear heq
    · push Not at hfound
      refine h.step ?_ hsame
      rintro other p o ⟨person, opportunity, hother, hids⟩
      by_cases heq : other = delivery
      · subst heq
        simp only [OutreachState.put, Function.update_self, Option.some.injEq] at hother
        rcases select_eq_clear hother with rfl | ⟨hdelivery, -⟩
        · exact ⟨person, opportunity, hd, hids⟩
        · exact absurd hdelivery (hfound person opportunity hother)
      · simp only [OutreachState.put, Function.update_of_ne heq] at hother
        exact ⟨person, opportunity, hother, hids⟩
  | insert delivery id draft now => exact h.insert hstep
  | stop delivery =>
    obtain rfl := Option.some.inj hstep
    refine ⟨h.step (fun other p o hclear => (clear_of_put ?_ hclear).1) hsame, trivial⟩
    intro person opportunity heq
    cases heq
  | approve candidateId outreachId approvedBy now =>
    obtain rfl := Option.some.inj hstep
    refine ⟨h.step (fun other p o hclear => hclear) ?_, trivial⟩
    rcases changed_of_approve with heq | ⟨old, new, hchanged, hdrafted, -⟩
    · rw [heq]
      exact hsame
    · exact fun p o m hm hfor => hchanged.exists_liveFor (fun _ => by simp [hdrafted]) hm hfor
  | send candidateId outreachId now =>
    obtain ⟨old, new, hchanged, happroved, -, -, -, hdeliveries⟩ := send_cases hstep
    refine ⟨h.step (fun other p o => (clear_congr hdeliveries).mp) fun p o m hm hfor => ?_, trivial⟩
    exact hchanged.exists_liveFor (fun _ => by simp [happroved]) hm hfor
  | provider outreachId newStatus providerMessageId failureReason now =>
    obtain ⟨old, new, hchanged, hstatus, -, hdeliveries⟩ := provider_cases hstep
    refine ⟨h.step (fun other p o => (clear_congr hdeliveries).mp) fun p o m hm hfor => ?_, trivial⟩
    exact hchanged.exists_liveFor (fun _ => ne_failed_of_delivery hstatus) hm hfor
  | elsewhere db =>
    obtain rfl := Option.some.inj hstep
    exact ⟨h.step (fun other p o hclear => hclear) hsame, trivial⟩

/-- A history that starts without deliveries keeps to one live message if no delivery looks for one
while another has found none of the same person and opportunity. -/
theorem atMostOneLive_of_selectsAlone
    (hids : KeyUnique (fun m : OutreachRow => m.id) st.messages)
    (hone : AtMostOneLive st.messages) (hidle : ∀ delivery, st.deliveries delivery = none)
    {es : List OutreachEvent} (halone : History.Guarded OutreachState.step SelectsAlone st es) :
    History.Meets OutreachState.step (fun _ st => AtMostOneLive st.messages) st es := by
  have hreserved : Reserved st := by
    constructor
    · rintro delivery p o ⟨person, opportunity, hdelivery, -⟩
      rw [hidle] at hdelivery
      cases hdelivery
    · rintro d d' p o ⟨person, opportunity, hdelivery, -⟩
      rw [hidle] at hdelivery
      cases hdelivery
  rw [atMostOneLive_iff hids hone]
  exact History.guarded_of_guarded OutreachState.step (I := Reserved)
    (fun _ _ _ hI hstep hC => reserved_step hI hstep hC) hreserved halone

end Job

end VCBrain
