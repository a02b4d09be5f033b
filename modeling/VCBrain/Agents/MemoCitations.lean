import Mathlib.Data.Char
import Mathlib.Data.List.Lex
import VCBrain.Agents.EvidenceText
import VCBrain.Foundation.OrderBy

set_option relaxedAutoImplicit false
set_option autoImplicit false

/-!
# The citations of a memo

`generate_memo_job` hands a memo generator the text of accepted claims and of their observations,
redacted as a whole, and `generate_memo` validates the ids that the generated memo cites against the
ids of these claims and observations.

## Main definitions

* `memoPackage` — the text that is handed over, with the ids that may be cited.
* `validateMemoCitations` — the validation of a generated memo.
* `Citable` — the validation accepts a memo that cites the id.

## Main results

* `citable_iff` — the ids that may be cited are those of the claims and the observations.
* `citable_ids_survive_iff` — the packages whose text has all of them.
-/

namespace VCBrain

section Package

variable (ucd : Ucd)

/-- The line of a claim. -/
def claimLine (claim : Claim) : Str :=
  bracketed (Uuid.str claim.id) ++ ' ' :: claim.predicate ++ ": " ++ claim.objectValue.take 500 ++
    " (observations: " ++ List.intercalate ", ".toList claim.observationIds ++ ")"

/-- `_claim_context`. -/
def claimContext (claims : List Claim) : Str :=
  List.intercalate ['\n'] ("--- accepted claims ---".toList :: claims.map claimLine)

/-- What the memo job hands to the generator of the memo. -/
structure MemoPackage where
  evidenceText : Str
  allowedClaimIds : List Str
  allowedEvidenceIds : List Str

/-- The text of the claims and observations before the last redaction. -/
def memoText (claims : List Claim) (observations : List Observation) (person : Person) : Str :=
  claimContext claims ++ "\n\n" ++ (buildEvidenceText ucd observations person []).1

/-- The package that `generate_memo_job` puts together. -/
def memoPackage (claims : List Claim) (observations : List Observation) (person : Person) :
    MemoPackage where
  evidenceText := redactDirectIdentifiers ucd (memoText ucd claims observations person)
  allowedClaimIds := claims.map fun claim => Uuid.str claim.id
  allowedEvidenceIds := (buildEvidenceText ucd observations person []).2

end Package

/-! ## Validation -/

/-- `MemoSection`. -/
structure MemoSection where
  title : Str
  text : Str
  evidenceIds : List Str := []
  claimIds : List Str := []

section Validation

variable (ucd : Ucd)

/-- `_UNKNOWN_SENTENCE_MARKERS`. -/
def unknownSentenceMarkers : List Str :=
  ["not available", "unavailable", "not disclosed", "unknown", "no evidence", "not provided",
    "requires diligence", "pending"]

/-- `_requires_claim_support`. -/
def requiresClaimSupport (sentence : Str) : Bool :=
  let normalized := ucd.lower (Str.strip sentence)
  !normalized.isEmpty && !unknownSentenceMarkers.any fun marker => decide (marker <:+: normalized)

/-- `(?<=[.!?])\s+|\n+`. -/
def sentenceEnd (prev : Option Char) (s : Str) : Option ℕ :=
  (Pattern.matchLen [.after fun c => c ∈ ['.', '!', '?'], .many 1 Str.isSpace] prev s).or
    (Pattern.matchLen [.many 1 fun c => c = '\n'] prev s)

/-- Whether a sentence of the section needs a citation. -/
def factualText (memoSection : MemoSection) : Bool :=
  (Pattern.split sentenceEnd memoSection.text).any (requiresClaimSupport ucd)

/-- The cited ids that are not allowed, if there is a list of allowed ones. -/
def unknownIds (cited : List Str) : Option (List Str) → List Str
  | none => []
  | some allowed => sortedSet (cited.filter (· ∉ allowed))

/-- The section with its citations sorted. -/
def sortCitations (memoSection : MemoSection) : MemoSection :=
  { memoSection with
    claimIds := sortedSet memoSection.claimIds
    evidenceIds := sortedSet memoSection.evidenceIds }

/-- The errors of a section. -/
def citationErrors (allowedClaimIds allowedEvidenceIds : Option (List Str))
    (memoSection : MemoSection) : List Str :=
  let unknownClaims := unknownIds memoSection.claimIds allowedClaimIds
  let unknownEvidence := unknownIds memoSection.evidenceIds allowedEvidenceIds
  let factual := factualText ucd memoSection
  (if unknownClaims = [] then []
    else [memoSection.title ++ ": unknown claim IDs: " ++
      List.intercalate ", ".toList unknownClaims]) ++
  (if unknownEvidence = [] then []
    else [memoSection.title ++ ": unknown evidence IDs: " ++
      List.intercalate ", ".toList unknownEvidence]) ++
  (if factual && memoSection.claimIds.isEmpty
    then [memoSection.title ++ ": factual text has no claim citation"] else []) ++
  (if factual && allowedEvidenceIds.isSome && memoSection.evidenceIds.isEmpty
    then [memoSection.title ++ ": factual text has no evidence citation"] else [])

/-- `_validate_memo_citations`: the sections with their citations sorted, and the errors. -/
def validateMemoCitations (allowedClaimIds allowedEvidenceIds : Option (List Str))
    (sections : List MemoSection) : List MemoSection × List Str :=
  let sorted := sections.map sortCitations
  (sorted, sorted.flatMap (citationErrors ucd allowedClaimIds allowedEvidenceIds))

/-- The validation accepts a memo that cites the id as a claim or as evidence. -/
def Citable (package : MemoPackage) (id : Str) : Prop :=
  ∃ sections, (validateMemoCitations ucd (some package.allowedClaimIds)
      (some package.allowedEvidenceIds) sections).2 = [] ∧
    ∃ memoSection ∈ sections, id ∈ memoSection.claimIds ∨ id ∈ memoSection.evidenceIds

/-- The text of the package has every id that may be cited. -/
def KeepsCitableIds (package : MemoPackage) : Prop :=
  ∀ id, Citable ucd package id → id <:+: package.evidenceText

end Validation

section Citable

variable {ucd : Ucd}

/-- No cited id is unknown exactly if all of them are allowed. -/
lemma unknownIds_eq_nil_iff {cited allowed : List Str} :
    unknownIds cited (some allowed) = [] ↔ ∀ id ∈ cited, id ∈ allowed := by
  rw [unknownIds, List.eq_nil_iff_forall_not_mem]
  simp only [mem_sortedSet, List.mem_filter, decide_eq_true_eq, not_and, not_not]

lemma forall_mem_sortedSet {ids allowed : List Str} :
    (∀ id ∈ sortedSet ids, id ∈ allowed) ↔ ∀ id ∈ ids, id ∈ allowed := by
  simp only [mem_sortedSet]

/-- A section without errors cites allowed ids only. -/
lemma mem_allowed_of_citationErrors {allowedClaimIds allowedEvidenceIds : List Str}
    {memoSection : MemoSection} (h : citationErrors ucd (some allowedClaimIds)
      (some allowedEvidenceIds) memoSection = []) :
    (∀ id ∈ memoSection.claimIds, id ∈ allowedClaimIds) ∧
      ∀ id ∈ memoSection.evidenceIds, id ∈ allowedEvidenceIds := by
  simp only [citationErrors, List.append_eq_nil_iff, ite_eq_left_iff, List.cons_ne_nil, imp_false,
    not_not] at h
  exact ⟨unknownIds_eq_nil_iff.mp h.1.1.1, unknownIds_eq_nil_iff.mp h.1.1.2⟩

/-- A section without text that cites allowed ids has no errors. -/
lemma citationErrors_of_mem_allowed {allowedClaimIds allowedEvidenceIds : List Str}
    {memoSection : MemoSection} (htext : memoSection.text = [])
    (hclaims : ∀ id ∈ memoSection.claimIds, id ∈ allowedClaimIds)
    (hevidence : ∀ id ∈ memoSection.evidenceIds, id ∈ allowedEvidenceIds) :
    citationErrors ucd (some allowedClaimIds) (some allowedEvidenceIds) memoSection = [] := by
  have hfactual : factualText ucd memoSection = false := by
    rw [factualText, htext]
    rfl
  simp only [citationErrors, unknownIds_eq_nil_iff.mpr hclaims,
    unknownIds_eq_nil_iff.mpr hevidence, hfactual]
  rfl

/-- The ids that may be cited are the allowed ones. -/
lemma citable_iff {package : MemoPackage} {id : Str} : Citable ucd package id ↔
    id ∈ package.allowedClaimIds ∨ id ∈ package.allowedEvidenceIds := by
  constructor
  · rintro ⟨sections, hvalid, memoSection, hmem, hid⟩
    have herrors := List.flatMap_eq_nil_iff.mp hvalid _ (List.mem_map_of_mem hmem)
    obtain ⟨hclaims, hevidence⟩ := mem_allowed_of_citationErrors herrors
    exact hid.imp (forall_mem_sortedSet.mp hclaims id) (forall_mem_sortedSet.mp hevidence id)
  · have hcite : ∀ memoSection : MemoSection, memoSection.text = [] →
        (∀ id ∈ memoSection.claimIds, id ∈ package.allowedClaimIds) →
        (∀ id ∈ memoSection.evidenceIds, id ∈ package.allowedEvidenceIds) →
        (id ∈ memoSection.claimIds ∨ id ∈ memoSection.evidenceIds) → Citable ucd package id := by
      intro memoSection htext hclaims hevidence hid
      refine ⟨[memoSection], ?_, memoSection, List.mem_singleton_self _, hid⟩
      refine List.flatMap_eq_nil_iff.mpr fun sorted hsorted => ?_
      rw [List.map_singleton, List.mem_singleton] at hsorted
      rw [hsorted]
      exact citationErrors_of_mem_allowed htext (forall_mem_sortedSet.mpr hclaims)
        (forall_mem_sortedSet.mpr hevidence)
    rintro (hid | hid)
    · refine hcite { title := [], text := [], claimIds := [id] } rfl ?_ (by simp) (by simp)
      simpa using hid
    · refine hcite { title := [], text := [], evidenceIds := [id] } rfl (by simp) ?_ (by simp)
      simpa using hid

end Citable

/-! ## What the redaction leaves of the ids -/

section Survival

variable {ucd : Ucd} {claims : List Claim} {observations : List Observation} {person : Person}

/-- The id of every claim and observation is in the text before the last redaction, in square
brackets. -/
lemma bracketed_infix_memoText {u : Uuid}
    (h : u ∈ claims.map Claim.id ∨ u ∈ observations.map Observation.id) :
    bracketed (Uuid.str u) <:+: memoText ucd claims observations person := by
  rcases h with h | h
  · obtain ⟨claim, hclaim, rfl⟩ := List.mem_map.mp h
    have hline : bracketed (Uuid.str claim.id) <:+: claimLine claim := by
      simp only [claimLine, List.append_assoc]
      exact (List.prefix_append _ _).isInfix
    have hcontext : claimLine claim <:+: claimContext claims :=
      Str.infix_intercalate (List.mem_cons_of_mem _ (List.mem_map_of_mem hclaim))
    refine (hline.trans hcontext).trans ?_
    rw [memoText, List.append_assoc]
    exact (List.prefix_append _ _).isInfix
  · obtain ⟨obs, hobs, rfl⟩ := List.mem_map.mp h
    have hevidence : bracketed (Uuid.str obs.id) <:+:
        (buildEvidenceText ucd observations person []).1 :=
      bracketed_infix_evidenceText hobs person []
    exact hevidence.trans (List.suffix_append _ _).isInfix

/-- An id without a phone number in it survives. -/
lemma infix_redact_of_not_hasNumber {u : Uuid} {s : Str} (hu : ¬ HasNumber u)
    (h : bracketed (Uuid.str u) <:+: s) : Uuid.str u <:+: redactDirectIdentifiers ucd s := by
  have hat : '@' ∉ Uuid.str u := Uuid.notMem_str (by decide)
  have hemails : bracketed (Uuid.str u) <:+: redactEmails ucd s := infix_redactEmails_of_infix hat h
  have hphones : bracketed (Uuid.str u) <:+: redactPhones ucd (redactEmails ucd s) :=
    infix_redactPhones_of_infix (mt dialable_str_iff.mp hu) hemails
  exact (infix_bracketed (Uuid.str u)).trans hphones

/-- An id survives exactly if it occurs where no phone number overlaps it. -/
lemma infix_redact_iff {u : Uuid} {s : Str} : Uuid.str u <:+: redactDirectIdentifiers ucd s ↔
    Pattern.StandsFree (PhoneSpan ucd) none (Uuid.str u) (redactEmails ucd s) := by
  have hne : Uuid.str u ≠ [] := by
    simp [Uuid.str]
  have key : ("[REDACTED_PHONE]".toList.all fun c => decide (c ∉ Uuid.alphabet)) = true := by decide
  refine infix_redactPhones_iff hne fun c hc => Uuid.notMem_str ?_
  exact of_decide_eq_true (List.all_eq_true.mp key c hc)

variable (ucd claims observations person) in
/-- **Which packages keep the ids.** All ids that may be cited are in the text that is handed over,
exactly if each of them whose groups the phone pattern takes for a number occurs at a place where no
phone number overlaps it.

**Proof sketch.** The id of every claim and observation is in the text in square brackets. Neither
brackets nor an at sign are in a phone number or in an id, so the brackets and an id without a
number survive both replacements. -/
theorem keepsCitableIds_iff :
    KeepsCitableIds ucd (memoPackage ucd claims observations person) ↔
      ∀ u, u ∈ claims.map Claim.id ∨ u ∈ observations.map Observation.id →
        HasNumber u → Pattern.StandsFree (PhoneSpan ucd) none (Uuid.str u)
          (redactEmails ucd (memoText ucd claims observations person)) := by
  constructor
  · intro h u hu _
    refine infix_redact_iff.mp (h (Uuid.str u) (citable_iff.mpr ?_))
    refine hu.imp (fun hu => ?_) fun hu => ?_
    · obtain ⟨claim, hclaim, rfl⟩ := List.mem_map.mp hu
      exact List.mem_map.mpr ⟨claim, hclaim, rfl⟩
    · obtain ⟨obs, hobs, rfl⟩ := List.mem_map.mp hu
      exact List.mem_map.mpr ⟨obs, hobs, rfl⟩
  · intro h id hid
    obtain ⟨u, hu, rfl⟩ : ∃ u, (u ∈ claims.map Claim.id ∨ u ∈ observations.map Observation.id) ∧
        Uuid.str u = id := by
      rcases citable_iff.mp hid with hid | hid
      · obtain ⟨claim, hclaim, rfl⟩ := List.mem_map.mp hid
        exact ⟨claim.id, Or.inl (List.mem_map_of_mem hclaim), rfl⟩
      · obtain ⟨obs, hobs, rfl⟩ := List.mem_map.mp hid
        exact ⟨obs.id, Or.inr (List.mem_map_of_mem hobs), rfl⟩
    by_cases hnumber : HasNumber u
    · exact infix_redact_iff.mpr (h u hu hnumber)
    · exact infix_redact_of_not_hasNumber hnumber (bracketed_infix_memoText hu)

/-- An observation whose id ends in a group of twelve decimal digits. -/
def numericObservation : Observation where
  id := 0x3f2a9c1e7b4d4e2a9c31123456789012
  snapshotId := 1
  subjectId := some 2
  opportunityId := some 3
  predicate := "github.repos"
  objectValue := "maintains 14 repositories"
  observedAt := 0
  extractorVersion := "github-v1"
  createdAt := 0

/-- The claim that rests on it. -/
def repositoryClaim : Claim where
  id := 0x5c1d0e9f2a3b4c5d8e7fa0b1c2d3e4f5
  observationIds := [Uuid.str numericObservation.id]
  subjectId := some 2
  opportunityId := some 3
  predicate := "github.repos"
  objectValue := "maintains 14 repositories"
  status := .supported
  confidence := 1
  validTimeStart := 0
  createdAt := 0

/-- The id of the observation is not in the text: its last group is taken for a phone number. -/
theorem not_keepsCitableIds_numeric : ¬ KeepsCitableIds .ascii
    (memoPackage .ascii [repositoryClaim] [numericObservation] adaPerson) := by
  intro h
  have hcitable : Citable .ascii
      (memoPackage .ascii [repositoryClaim] [numericObservation] adaPerson)
      (Uuid.str numericObservation.id) :=
    citable_iff.mpr (Or.inr (List.mem_singleton_self _))
  have hpart := h _ hcitable
  have hgone : ¬ Uuid.str numericObservation.id <:+:
      (memoPackage .ascii [repositoryClaim] [numericObservation] adaPerson).evidenceText := by
    decide +kernel
  exact hgone hpart

end Survival

end VCBrain
