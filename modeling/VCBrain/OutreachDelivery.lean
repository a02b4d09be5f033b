import VCBrain.Db.Models
import VCBrain.Privacy

set_option relaxedAutoImplicit false
set_option autoImplicit false

/-!
# The delivery of outreach messages

A message is drafted, approved by a reviewer and requested to be sent; what becomes of it then is
reported by the mail provider. This file has the three ways in which the status of a message
changes, with everything they check.

## Main definitions

* `OutreachStatus`, `OutreachRow` — the messages.
* `transitionProviderState` — an event of the provider.
* `approveOutreach`, `requestOutreachSend` — the two requests of a reviewer.
* `Changed` — what any of the three can do to the messages.

## Main results

* `changed_of_transition`, `changed_of_approve`, `changed_of_send` — each of the three changes at
  most one message, to a status it may change to.

## Design

A request that is rejected may still have written: a message whose recipient must not be contacted
is closed before the approval is refused. So an approval returns the messages beside its answer. The
table of the messages is a list of its own here; the database records of a message only whose it is.
-/

namespace VCBrain

/-- `OutreachStatus`. -/
inductive OutreachStatus where
  | drafted
  | approved
  | sendRequested
  | sent
  | delivered
  | bounced
  | replied
  | optedOut
  | failed
deriving DecidableEq

/-- The text of a status. -/
def OutreachStatus.key : OutreachStatus → Str
  | drafted => "drafted"
  | approved => "approved"
  | sendRequested => "send_requested"
  | sent => "sent"
  | delivered => "delivered"
  | bounced => "bounced"
  | replied => "replied"
  | optedOut => "opted_out"
  | failed => "failed"

/-- `_DELIVERY_TRANSITIONS`. -/
def deliveryTransitions : OutreachStatus → List OutreachStatus
  | .sendRequested => [.sent, .failed]
  | .sent => [.delivered, .bounced, .replied, .optedOut]
  | .delivered => [.replied, .optedOut]
  | .replied => [.optedOut]
  | _ => []

/-- `outreach_messages`. -/
structure OutreachRow extends OutreachMessage where
  opportunityId : Uuid
  recipientEmail : Option Str := none
  subject : Str := []
  body : Str := []
  generationMode : Str := "template"
  status : OutreachStatus := .drafted
  approvedBy : Option Str := none
  approvedAt : Option Time := none
  requestedAt : Option Time := none
  sentAt : Option Time := none
  providerMessageId : Option Str := none
  failureReason : Option Str := none
  createdAt : Time
deriving DecidableEq

/-! ## The table -/

/-- `session.get(OutreachMessage, id)`. -/
def message? (messages : List OutreachRow) (id : Uuid) : Option OutreachRow :=
  messages.find? fun m => m.id = id

/-- The messages with one of them replaced by a new version. -/
def replaceMessage (messages : List OutreachRow) (new : OutreachRow) : List OutreachRow :=
  messages.map fun m => if m.id = new.id then new else m

/-- A new message, unless its id is taken. -/
def insertMessage (messages : List OutreachRow) (row : OutreachRow) : Option (List OutreachRow) :=
  if ∃ m ∈ messages, m.id = row.id then none else some (messages ++ [row])

/-! ## Changes of the status -/

/-- `transition_provider_state`: only what the provider may report is applied. -/
def transitionProviderState (message : OutreachRow) (newStatus : OutreachStatus)
    (providerMessageId failureReason : Option Str) (now : Time) : Except Str OutreachRow :=
  if newStatus ∉ deliveryTransitions message.status then
    .error (("Invalid outreach transition: " : Str) ++ message.status.key ++ " -> " ++
      newStatus.key)
  else .ok
    { message with
      status := newStatus
      providerMessageId :=
        if filled providerMessageId then providerMessageId else message.providerMessageId
      failureReason := failureReason
      sentAt := if newStatus = .sent then some now else message.sentAt }

/-- The status of a message that must not be sent, by the reason. -/
def blockedStatus (reason : Str) : OutreachStatus :=
  if ("suppressed_" : Str).isPrefixOf reason then .optedOut else .failed

/-- Why a request of a reviewer is rejected. -/
inductive OutreachError where
  | draftNotFound
  | already (status : OutreachStatus)
  | candidateNotFound
  | blocked (reason : Str)
  | notApproved
deriving DecidableEq

/-- The detail of the response to a rejected request. -/
def OutreachError.detail : OutreachError → Str
  | draftNotFound => "Outreach draft not found"
  | already status => ("Outreach is already " : Str) ++ status.key
  | candidateNotFound => "Candidate not found"
  | blocked reason => reason
  | notApproved => "Outreach must be approved before sending"

/-- `OutreachActionResponse`. -/
structure OutreachActionResponse where
  outreachId : Uuid
  status : Str
  recipientEmail : Option Str := none
  detail : Str
deriving DecidableEq

/-- The response about a message. -/
def OutreachRow.response (message : OutreachRow) (detail : Str) : OutreachActionResponse where
  outreachId := message.id
  status := message.status.key
  recipientEmail := message.recipientEmail
  detail := detail

/-- `approve_outreach`: the answer, and the messages it leaves. -/
def approveOutreach (db : Db) (messages : List OutreachRow) (candidateId outreachId : Uuid)
    (approvedBy : Str) (now : Time) :
    Except OutreachError OutreachActionResponse × List OutreachRow :=
  match message? messages outreachId with
  | none => (.error .draftNotFound, messages)
  | some message =>
    if message.personId ≠ candidateId then (.error .draftNotFound, messages)
    else if message.status ≠ .drafted then (.error (.already message.status), messages)
    else match db.person? candidateId with
      | none => (.error .candidateNotFound, messages)
      | some person =>
        match contactBlockReason person with
        | some reason =>
          (.error (.blocked reason), replaceMessage messages
            { message with status := blockedStatus reason, failureReason := some reason })
        | none =>
          let approved : OutreachRow :=
            { message with
              status := .approved, approvedBy := some approvedBy.strip, approvedAt := some now }
          (.ok (approved.response
              "Draft approved; sending still requires an explicit request."),
            replaceMessage messages approved)

/-- `request_outreach_send`: the answer and the messages, if it is not rejected. -/
def requestOutreachSend (messages : List OutreachRow) (candidateId outreachId : Uuid)
    (now : Time) : Except OutreachError (OutreachActionResponse × List OutreachRow) :=
  match message? messages outreachId with
  | none => .error .draftNotFound
  | some message =>
    if message.personId ≠ candidateId then .error .draftNotFound
    else if message.status ≠ .approved then .error .notApproved
    else
      let requested : OutreachRow :=
        { message with status := .sendRequested, requestedAt := some now }
      .ok (requested.response
          "Send requested; status changes to sent only after provider confirmation.",
        replaceMessage messages requested)

/-- An event of the provider about the message of an id. -/
def providerEvent (messages : List OutreachRow) (outreachId : Uuid) (newStatus : OutreachStatus)
    (providerMessageId failureReason : Option Str) (now : Time) : Option (List OutreachRow) :=
  (message? messages outreachId).bind fun message =>
    (transitionProviderState message newStatus providerMessageId failureReason now).toOption.map
      (replaceMessage messages)

/-! ## Lookups -/

section Lookup

variable {messages : List OutreachRow} {row new : OutreachRow} {id : Uuid}

/-- A message that was found has the id. -/
lemma id_of_message? (h : message? messages id = some row) : row.id = id := by
  unfold message? at h
  simpa using List.find?_some h

/-- Replacing a message replaces what is found under its id. -/
lemma message?_replaceMessage :
    message? (replaceMessage messages new) id =
      (message? messages id).map fun m => if m.id = new.id then new else m := by
  have hid : ∀ m : OutreachRow, (if m.id = new.id then new else m).id = m.id := by
    intro m
    split_ifs with h
    · exact h.symm
    · rfl
  unfold message? replaceMessage
  rw [List.find?_map]
  simp only [Function.comp_def, hid]

/-- Replacing a message keeps the ids. -/
lemma map_id_replaceMessage :
    (replaceMessage messages new).map (fun m => m.id) = messages.map fun m => m.id := by
  unfold replaceMessage
  rw [List.map_map]
  apply List.map_congr_left
  intro m _
  dsimp only [Function.comp_apply]
  split_ifs with h
  · exact h.symm
  · rfl

/-- A message of a table with distinct ids is the one that is found under its id. -/
lemma eq_of_message? (hids : KeyUnique (fun m : OutreachRow => m.id) messages)
    (h : message? messages new.id = some row) {m : OutreachRow} (hm : m ∈ messages)
    (hid : m.id = new.id) : m = row := by
  refine hids.eq_of_id_eq hm ?_ (hid.trans (id_of_message? h).symm)
  exact List.mem_of_find?_eq_some h

/-- An insertion that succeeds appends the message under a new id. -/
lemma insertMessage_eq_some {messages' : List OutreachRow}
    (h : insertMessage messages row = some messages') :
    messages' = messages ++ [row] ∧ ∀ m ∈ messages, m.id ≠ row.id := by
  unfold insertMessage at h
  split_ifs at h with htaken
  push Not at htaken
  exact ⟨(Option.some.inj h).symm, htaken⟩

/-- After an insertion an id leads to the new message or to the one it led to before. -/
lemma message?_append_cases (h : message? (messages ++ [row]) id = some new) :
    message? messages id = some new ∨ message? messages id = none ∧ new = row := by
  unfold message? at h ⊢
  rw [List.find?_append] at h
  cases hold : messages.find? fun m => m.id = id with
  | some m =>
    rw [hold, Option.some_or] at h
    exact Or.inl h
  | none =>
    rw [hold, Option.none_or] at h
    exact Or.inr ⟨rfl, List.mem_singleton.mp (List.mem_of_find?_eq_some h)⟩

end Lookup

/-! ## What changes -/

/-- The message `old` has become `new`, which has the same owner, and nothing else has changed. -/
structure Changed (messages messages' : List OutreachRow) (old new : OutreachRow) : Prop where
  found : message? messages new.id = some old
  eq_replace : messages' = replaceMessage messages new
  person : new.personId = old.personId
  opportunity : new.opportunityId = old.opportunityId

section Change

variable {messages messages' : List OutreachRow} {candidateId outreachId : Uuid} {now : Time}

/-- After a change an id leads to the new message or to the one it led to before. -/
lemma Changed.message?_cases {old new m : OutreachRow} {id : Uuid}
    (h : Changed messages messages' old new) (hm : message? messages' id = some m) :
    message? messages id = some m ∨ message? messages id = some old ∧ m = new := by
  rw [h.eq_replace, message?_replaceMessage] at hm
  obtain ⟨m', hm', rfl⟩ := Option.map_eq_some_iff.mp hm
  split_ifs with hid
  · refine Or.inr ⟨?_, rfl⟩
    rw [← h.found, ← hid, id_of_message? hm']
  · exact Or.inl hm'

/-- **Provider events.** The status becomes one that the provider may report. -/
theorem changed_of_transition {newStatus : OutreachStatus}
    {providerMessageId failureReason : Option Str}
    (h : providerEvent messages outreachId newStatus providerMessageId failureReason now =
      some messages') :
    ∃ old new, Changed messages messages' old new ∧
      new.status ∈ deliveryTransitions old.status := by
  obtain ⟨message, hmessage, h⟩ := Option.bind_eq_some_iff.mp h
  obtain ⟨new, hnew, rfl⟩ := Option.map_eq_some_iff.mp h
  have hfound : message? messages message.id = some message := by
    rw [id_of_message? hmessage, hmessage]
  by_cases hstatus : newStatus ∈ deliveryTransitions message.status
  · rw [transitionProviderState, if_neg (not_not.mpr hstatus)] at hnew
    cases hnew
    refine ⟨message, _, ⟨?_, rfl, ?_, ?_⟩, ?_⟩
    · exact hfound
    · rfl
    · rfl
    · exact hstatus
  · rw [transitionProviderState, if_pos hstatus] at hnew
    cases hnew

/-- **Approvals.** A draft is approved if its person may be contacted and closed if not. -/
theorem changed_of_approve {db : Db} {approvedBy : Str} :
    (approveOutreach db messages candidateId outreachId approvedBy now).2 = messages ∨
      ∃ old new, Changed messages
          (approveOutreach db messages candidateId outreachId approvedBy now).2 old new ∧
        old.status = .drafted ∧ (new.status = .optedOut ∨ new.status = .failed ∨
          new.status = .approved ∧ ∀ person, db.person? new.personId = some person →
            contactBlockReason person = none) := by
  unfold approveOutreach
  cases hmessage : message? messages outreachId with
  | none => exact Or.inl rfl
  | some message =>
    have hfound : message? messages message.id = some message := by
      rw [id_of_message? hmessage, hmessage]
    dsimp only
    split_ifs with howner hstatus
    · exact Or.inl rfl
    · exact Or.inl rfl
    · rw [not_not] at howner hstatus
      cases hperson : db.person? candidateId with
      | none => exact Or.inl rfl
      | some person =>
        right
        dsimp only
        cases hreason : contactBlockReason person with
        | some reason =>
          refine ⟨message, _, ⟨?_, rfl, rfl, rfl⟩, hstatus, ?_⟩
          · exact hfound
          dsimp only [blockedStatus]
          split_ifs
          · exact Or.inl rfl
          · exact Or.inr (Or.inl rfl)
        | none =>
          refine ⟨message, _, ⟨?_, rfl, rfl, rfl⟩, hstatus, Or.inr (Or.inr ⟨rfl, ?_⟩)⟩
          · exact hfound
          intro p hp
          rw [howner, hperson] at hp
          exact Option.some.inj hp ▸ hreason

/-- **Send requests.** An approved message of the candidate becomes a requested one. -/
theorem changed_of_send {response : OutreachActionResponse}
    (h : requestOutreachSend messages candidateId outreachId now = .ok (response, messages')) :
    ∃ old new, Changed messages messages' old new ∧ old.status = .approved ∧
      new.status = .sendRequested ∧ old.personId = candidateId := by
  unfold requestOutreachSend at h
  cases hmessage : message? messages outreachId with
  | none => simp only [hmessage, reduceCtorEq] at h
  | some message =>
    have hfound : message? messages message.id = some message := by
      rw [id_of_message? hmessage, hmessage]
    simp only [hmessage] at h
    split_ifs at h with howner hstatus
    rw [not_not] at howner hstatus
    obtain ⟨-, rfl⟩ := Prod.mk.inj (Except.ok.inj h)
    refine ⟨message, _, ⟨?_, rfl, rfl, rfl⟩, hstatus, rfl, howner⟩
    exact hfound

end Change

/-- The provider does not report that a message is a draft again, approved, or requested. -/
lemma delivery_forward {s t : OutreachStatus} (h : t ∈ deliveryTransitions s) :
    t ≠ .drafted ∧ t ≠ .approved ∧ t ≠ .sendRequested := by
  cases s <;> simp [deliveryTransitions] at h <;> rcases h with rfl | rfl | rfl | rfl <;> simp

/-- The provider reports nothing of a message that has failed. -/
lemma ne_failed_of_delivery {s t : OutreachStatus} (h : t ∈ deliveryTransitions s) :
    s ≠ .failed := by
  rintro rfl
  cases h

end VCBrain
