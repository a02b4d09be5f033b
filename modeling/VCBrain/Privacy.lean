import VCBrain.Db.Models

set_option relaxedAutoImplicit false
set_option autoImplicit false

/-!
# Consent gates

The two gates that read a person's consent: whether the person may be contacted, and whether
data about the person may be sent to an external AI provider.

## Main definitions

* `contactBlockReason` — `contact_block_reason` of outreach.
* `externalAiUseDecision` — the deny-by-default decision of the privacy module.
* `Suppressed` — the consent states in which the person has opted out.
-/

namespace VCBrain

/-! ## Outreach -/

/-- `_SUPPRESSED_CONSENT_STATES` of outreach. -/
def suppressedConsentStates : List Str := ["opted_out", "suppressed", "do_not_contact"]

/-- The person has opted out. -/
def Suppressed (person : Person) : Prop := person.consentState ∈ suppressedConsentStates

instance : DecidablePred Suppressed := fun _ => inferInstanceAs (Decidable (_ ∈ _))

/-- `contact_block_reason`: why the person may not be contacted, if so. -/
def contactBlockReason (person : Person) : Option Str :=
  if !filled person.email then some "no_verified_recipient_email"
  else if person.consentState ∈ suppressedConsentStates then
    some ("suppressed_consent_state:" ++ person.consentState)
  else none

/-! ## External AI -/

/-- `_SUPPRESSED_CONSENT_STATES` of the privacy module. -/
def aiSuppressedConsentStates : List Str :=
  ["pending", "unknown", "opted_out", "suppressed", "do_not_contact"]

/-- A decision with its reason. -/
structure ExternalAIUseDecision where
  allowed : Bool
  purpose : Str
  reason : Str
  contractVersion : Str := "privacy-ai-v1"
deriving DecidableEq

/-- `external_ai_use_decision`. -/
def externalAiUseDecision (person : Person) (purpose : Str) : ExternalAIUseDecision :=
  let consentState : Str := if person.consentState = [] then "pending" else person.consentState
  let deny (reason : Str) : ExternalAIUseDecision :=
    { allowed := false, purpose := purpose, reason := reason }
  if consentState ∈ aiSuppressedConsentStates then deny ("consent_state:" ++ consentState)
  else if !filled person.privacyLegalBasis then deny "privacy_legal_basis_missing"
  else if !filled person.privacyNoticeVersion then deny "privacy_notice_version_missing"
  else if person.privacyPurposes.get? purpose ≠ some ("granted" : Str) then
    deny ("purpose_not_granted:" ++ purpose)
  else if !filled person.privacyProviderPolicyVersion then deny "provider_policy_version_missing"
  else if person.privacyRetentionDays.getD 0 ≤ 0 then deny "retention_policy_missing"
  else if !filled person.privacyResidency then deny "residency_policy_missing"
  else { allowed := true, purpose := purpose, reason := "policy_granted" }

/-- Contact is blocked for want of an email, or because the person has opted out. -/
lemma isSome_contactBlockReason {person : Person} :
    (contactBlockReason person).isSome ↔ filled person.email = false ∨ Suppressed person := by
  unfold contactBlockReason
  by_cases hemail : filled person.email = true
  · by_cases hstate : person.consentState ∈ suppressedConsentStates
    · simp [hemail, hstate, Suppressed]
    · simp [hemail, hstate, Suppressed]
  · simp [hemail]

/-- A person who has opted out is denied to external AI, whatever the purpose. -/
lemma Suppressed.denied {person : Person} (h : Suppressed person) (purpose : Str) :
    (externalAiUseDecision person purpose).allowed = false := by
  have hsub : ∀ s ∈ suppressedConsentStates, s ≠ [] ∧ s ∈ aiSuppressedConsentStates := by decide
  obtain ⟨hne, hmem⟩ := hsub _ h
  unfold externalAiUseDecision
  simp only [if_neg hne]
  rw [if_pos hmem]

end VCBrain
