import VCBrain.Agents.Aggregate
import VCBrain.Foundation.JsonText

set_option relaxedAutoImplicit false
set_option autoImplicit false

/-!
# The scoring committee

`score_candidate` asks three specialists and a critic, reads what the model answers, and aggregates
it. An answer is decoded, its numbers and lists are converted, and the assessment is validated; each
of these steps has its own exceptions, and `_call_agent` catches some of them.

## Main definitions

* `callAgent` — the assessment of a specialist for an answer of the model.
* `scoreCandidate` — the scorecard for the answers to all four calls.
* `Absorbed` — the scorecard is there, its numbers are in range, and it does not pass if an answer
  was not validated.

## Main results

* `readPayload_eq_escaped_iff` — the payloads whose exceptions are not caught.
* `exists_criticAgent_iff` — the answers for which the critic returns.
* `absorbed_iff` — the answers that are absorbed.

## Design

What the libraries do is a parameter: `json.loads` with the exceptions it has beside
`JSONDecodeError`, `float(text)`, `repr`, and whether the validation of bounds lets a float pass
that is no number. A completion has at least one choice. Where a score or a confidence that is no
number has passed the validation, what is computed from it is not modelled. -/

namespace VCBrain

/-! ## Python's conversions -/

/-- A float. -/
inductive PyFloat where
  | finite (q : ℚ)
  | infinite
  | nan
deriving DecidableEq

/-- How `json.loads` ends: with a value, with a `JSONDecodeError`, or with another exception, as for
an integer of too many digits or for a nesting that is too deep. -/
inductive Decoded where
  | value (v : Json)
  | malformed
  | raised

/-- What the libraries do. -/
structure Libraries where
  loads : Str → Decoded
  /-- `float(text)`, `none` if it raises. -/
  floatOf : Str → Option PyFloat
  repr : Json → Str
  /-- Whether `ge` and `le` let a float pass that is no number. -/
  nanInBounds : Bool

/-- How a conversion ends: with a result, with a `ValueError` or a `TypeError`, or with another
exception. -/
inductive Reading (α : Type) where
  | read (a : α)
  | rejected
  | escaped

/-- What is done with a result. -/
def Reading.bind {α β : Type} (x : Reading α) (f : α → Reading β) : Reading β :=
  match x with
  | .read a => f a
  | .rejected => .rejected
  | .escaped => .escaped

/-- The result of an optional conversion. -/
def Reading.ofOption {α : Type} : Option α → Reading α
  | some a => .read a
  | none => .rejected

/-- The integers from here on are too large for a float. -/
def floatRange : ℤ := 2 ^ 1024 - 2 ^ 970

section Reading

variable (lib : Libraries)

/-- `float(value)`. -/
def readFloat : Json → Reading PyFloat
  | .bool b => .read (.finite (if b then 1 else 0))
  | .int n => if floatRange ≤ |n| then .escaped else .read (.finite n)
  | .float text | .str text => .ofOption (lib.floatOf text)
  | .null | .arr _ | .obj _ => .rejected

/-- `float(payload.get(key, default))`. -/
def readNumber (key : Str) (default : ℚ) (payload : Json) : Reading PyFloat :=
  match payload.get? key with
  | none => .read (.finite default)
  | some value => readFloat lib value

/-- `[str(e) for e in payload.get(key, [])]`. -/
def readTexts (key : Str) (payload : Json) : Reading (List Str) :=
  match payload.get? key with
  | none => .read []
  | some (.arr items) => .read (items.map (Json.pyStr lib.repr))
  | some (.str text) => .read (text.map fun c => [c])
  | some (.obj fields) => .read (fields.map Prod.fst)
  | some _ => .rejected

/-- `str(payload.get(key, ""))`. -/
def readText (key : Str) (payload : Json) : Str :=
  ((payload.get? key).map (Json.pyStr lib.repr)).getD []

/-- `Field(ge=0, le=high)`: what it accepts, `none` if that is no number. -/
def checkBounds (high : ℚ) : PyFloat → Reading (Option {q : ℚ // 0 ≤ q ∧ q ≤ high})
  | .finite q => if h : 0 ≤ q ∧ q ≤ high then .read (some ⟨q, h⟩) else .rejected
  | .infinite => .rejected
  | .nan => if lib.nanInBounds then .read none else .rejected

/-- The assessment that is constructed from a payload, `none` if its score or its confidence is no
number. -/
def readPayload (dimension : Str) (payload : Json) : Reading (Option SpecialistAssessment) :=
  (readNumber lib "score" 50 payload).bind fun score =>
  (readNumber lib "confidence" (3 / 10) payload).bind fun confidence =>
  (readTexts lib "evidence" payload).bind fun evidence =>
  (readTexts lib "counter_evidence" payload).bind fun counterEvidence =>
  (readTexts lib "unknowns" payload).bind fun unknowns =>
  (checkBounds lib 100 score).bind fun score =>
  (checkBounds lib 1 confidence).bind fun confidence =>
    .read <|
      match score, confidence with
      | some score, some confidence =>
        some
          { evidence := evidence
            counterEvidence := counterEvidence
            dimension := dimension
            score := score
            confidence := confidence
            unknowns := unknowns
            recommendation := readText lib "recommendation" payload
            rationale := readText lib "rationale" payload
            score_mem := score.property
            confidence_mem := confidence.property }
      | _, _ => none

end Reading

/-! ## Specialists -/

lemma neutralScore_mem : (0 : ℚ) ≤ 50 ∧ (50 : ℚ) ≤ 100 := by norm_num

/-- `_fallback_assessment`. -/
def fallbackAssessment (dimension : Str) : SpecialistAssessment where
  dimension := dimension
  score := 50
  confidence := 15 / 100
  unknowns := ["LLM unavailable — manual review required"]
  recommendation := "Score pending LLM availability."
  rationale := "The scoring agent was unavailable; a neutral placeholder was used."
  validationStatus := .unavailable
  validationErrors := ["specialist agent unavailable"]
  score_mem := neutralScore_mem
  confidence_mem := by norm_num

/-- The fallback for a payload that was rejected. -/
def rejectedAssessment (dimension : Str) : SpecialistAssessment :=
  { fallbackAssessment dimension with
    validationStatus := .failed
    validationErrors := ["specialist payload failed validation"] }

/-- How the call of the model ends: it raises, or its answer has a content. -/
inductive ModelCall where
  | failed
  | answered (content : Option Str)

/-- `completion.choices[0].message.content or "{}"`. -/
def contentOf : Option Str → Str
  | some (c :: content) => c :: content
  | _ => "{}"

/-- How a step of the scoring ends: with a result, with an assessment that has a score or a
confidence that is no number, or with an exception. -/
inductive ScoringOutcome (α : Type) where
  | returned (a : α)
  | notANumber
  | raised

/-- What is done with a result. -/
def ScoringOutcome.bind {α β : Type} (x : ScoringOutcome α) (f : α → ScoringOutcome β) :
    ScoringOutcome β :=
  match x with
  | .returned a => f a
  | .notANumber => .notANumber
  | .raised => .raised

section Agents

variable (lib : Libraries)

/-- `_call_agent`. -/
def callAgent (dimension : Str) : ModelCall → ScoringOutcome SpecialistAssessment
  | .failed => .returned (fallbackAssessment dimension)
  | .answered content =>
    match lib.loads (contentOf content) with
    | .malformed => .returned (fallbackAssessment dimension)
    | .raised => .raised
    | .value (.obj fields) =>
      match readPayload lib dimension (.obj fields) with
      | .read (some a) => .returned a
      | .read none => .notANumber
      | .rejected => .returned (rejectedAssessment dimension)
      | .escaped => .raised
    -- `payload.get` raises an `AttributeError`
    | .value _ => .raised

/-- What the critic gets to read of an answer, if `json.loads` lets it go on. -/
def criticAnswer : ModelCall → Option CriticAnswer
  | .failed => some .unavailable
  | .answered content =>
    match lib.loads (contentOf content) with
    | .malformed => some .malformed
    | .raised => none
    | .value v => some (.payload v)

/-- The answers to the four calls. -/
structure CommitteeAnswers where
  execution : ModelCall
  technical : ModelCall
  commercial : ModelCall
  critic : ModelCall

/-- The metadata that is returned with a scorecard. -/
structure ScoringMetadata where
  agents : Dict SpecialistAssessment
  critique : Critique
  model : Str
  hardEligible : Bool
  validatorStatus : ValidationStatus
  validationErrors : List Str

/-- The critic and the aggregation. -/
def concludeScoring (evidenceText model : Str) (weights : Option (Dict ℚ))
    (criticCall : ModelCall) (assessments : List SpecialistAssessment) :
    ScoringOutcome (Scorecard × ScoringMetadata) :=
  match (criticAnswer lib criticCall).bind
      (criticAgent lib.repr (assessments.map SpecialistAssessment.toAgentAssessment)
        evidenceText) with
  | none => .raised
  | some critique =>
    let scorecard := aggregateAssessments assessments critique weights
    .returned (scorecard,
      { agents := byDimension assessments
        critique := critique
        model := model
        hardEligible := scorecard.hardEligible
        validatorStatus := scorecard.validatorStatus
        validationErrors := scorecard.validationErrors })

/-- Without an API key there is no client, which is handled as a call that fails. -/
def clientCall (apiKey : Str) (call : ModelCall) : ModelCall :=
  if apiKey = [] then .failed else call

/-- `score_candidate`. -/
def scoreCandidate (evidenceText apiKey model : Str) (weights : Option (Dict ℚ))
    (answers : CommitteeAnswers) : ScoringOutcome (Scorecard × ScoringMetadata) :=
  (callAgent lib "execution" (clientCall apiKey answers.execution)).bind fun execution =>
  (callAgent lib "technical" (clientCall apiKey answers.technical)).bind fun technical =>
  (callAgent lib "commercial" (clientCall apiKey answers.commercial)).bind fun commercial =>
    concludeScoring lib evidenceText model weights (clientCall apiKey answers.critic)
      [execution, technical, commercial]

/-! ## What is absorbed -/

/-- An assessment was constructed from the answer. -/
def SpecialistValidated (dimension : Str) (call : ModelCall) : Prop :=
  ∃ content fields a, call = .answered content ∧
    lib.loads (contentOf content) = .value (.obj fields) ∧
    readPayload lib dimension (.obj fields) = .read (some a)

/-- The issues were read from the answer. -/
def CriticValidated (call : ModelCall) : Prop :=
  ∃ content fields items issues, call = .answered content ∧
    lib.loads (contentOf content) = .value (.obj fields) ∧
    (Json.get? "issues" (.obj fields)).getD (.arr []) = .arr items ∧
    parseIssues lib.repr items = some (some issues)

/-- All four answers were validated. -/
structure AllValidated (answers : CommitteeAnswers) : Prop where
  execution : SpecialistValidated lib "execution" answers.execution
  technical : SpecialistValidated lib "technical" answers.technical
  commercial : SpecialistValidated lib "commercial" answers.commercial
  critic : CriticValidated lib answers.critic

/-- Scores are in percent, and confidences in the unit interval. -/
structure Scorecard.InRange (card : Scorecard) : Prop where
  scores : ∀ x ∈ [card.execution, card.technical, card.commercial, card.composite],
    0 ≤ x ∧ x ≤ 100
  confidence : 0 ≤ card.confidence ∧ card.confidence ≤ 1
  agents : ∀ a ∈ card.agents.values,
    (0 ≤ a.score ∧ a.score ≤ 100) ∧ 0 ≤ a.confidence ∧ a.confidence ≤ 1

/-- There is a scorecard, its numbers are in range, and it does not pass if an answer was not
validated. -/
def Absorbed (answers : CommitteeAnswers)
    (outcome : ScoringOutcome (Scorecard × ScoringMetadata)) : Prop :=
  ∃ card metadata, outcome = .returned (card, metadata) ∧ card.InRange ∧
    (¬ AllValidated lib answers → card.validatorStatus ≠ .passed)

/-- The number of a key is an integer that is too large for a float. -/
def Oversized (key : Str) (payload : Json) : Prop :=
  ∃ n, payload.get? key = some (.int n) ∧ floatRange ≤ |n|

/-- The score is too large for a float, or it is one and the confidence is too large. -/
def NumberEscapes (payload : Json) : Prop :=
  Oversized "score" payload ∨
    ((∃ score, readNumber lib "score" 50 payload = .read score) ∧ Oversized "confidence" payload)

/-- The float is in the bounds or no number. -/
def WithinOrNan (high : ℚ) : PyFloat → Prop
  | .finite q => 0 ≤ q ∧ q ≤ high
  | .infinite => False
  | .nan => True

/-- The validation lets the payload pass although its score or its confidence is no number. -/
structure AcceptsNan (payload : Json) : Prop where
  nanInBounds : lib.nanInBounds = true
  numbers : ∃ score confidence, readNumber lib "score" 50 payload = .read score ∧
    readNumber lib "confidence" (3 / 10) payload = .read confidence ∧
    WithinOrNan 100 score ∧ WithinOrNan 1 confidence ∧ (score = .nan ∨ confidence = .nan)
  texts : ∀ key ∈ (["evidence", "counter_evidence", "unknowns"] : List Str),
    ∃ texts, readTexts lib key payload = .read texts

/-- The answer of a specialist is no JSON, or an object with numbers that can be converted and
validated or rejected. -/
def SpecialistAbsorbed (call : ModelCall) : Prop :=
  ∀ content, call = .answered content → lib.loads (contentOf content) ≠ .raised ∧
    ∀ v, lib.loads (contentOf content) = .value v →
      (∃ fields, v = .obj fields) ∧ ¬ NumberEscapes lib v ∧ ¬ AcceptsNan lib v

/-- An issue with a severity and a description. -/
def IssueShape (item : Json) : Prop :=
  (∃ fields, item = .obj fields) ∧
    ((item.get? "severity").map (Json.pyStr lib.repr)).getD [] ∈ ["hard".toList, "soft".toList] ∧
    Str.strip (((item.get? "description").map (Json.pyStr lib.repr)).getD []) ≠ []

/-- The evidence id of an issue is absent, null or a text. -/
def EvidenceIdText (item : Json) : Prop :=
  ∀ v, item.get? "evidence_id" = some v → v = .null ∨ ∃ id, v = .str id

/-- Up to the first item that is no issue, every evidence id is absent, null or a text. -/
def IssuesReadable (items : List Json) : Prop :=
  ∀ pre item post, items = pre ++ item :: post → (∀ i ∈ pre, IssueShape lib i) →
    IssueShape lib item → EvidenceIdText item

/-- The answer of the critic is no JSON, or an object whose issues can be read or rejected. -/
def CriticAbsorbed (call : ModelCall) : Prop :=
  ∀ content, call = .answered content → lib.loads (contentOf content) ≠ .raised ∧
    ∀ v, lib.loads (contentOf content) = .value v → (∃ fields, v = .obj fields) ∧
      ∀ items, (v.get? "issues").getD (.arr []) = .arr items → IssuesReadable lib items

end Agents

section Readings

variable {lib : Libraries} {payload : Json} {dimension key : Str}

lemma Reading.bind_eq_read {α β : Type} {x : Reading α} {f : α → Reading β} {b : β} :
    x.bind f = .read b ↔ ∃ a, x = .read a ∧ f a = .read b := by
  cases x <;> simp [Reading.bind]

lemma Reading.bind_eq_escaped {α β : Type} {x : Reading α} {f : α → Reading β} :
    x.bind f = .escaped ↔ x = .escaped ∨ ∃ a, x = .read a ∧ f a = .escaped := by
  cases x <;> simp [Reading.bind]

lemma ScoringOutcome.bind_eq_returned {α β : Type} {x : ScoringOutcome α}
    {f : α → ScoringOutcome β} {b : β} :
    x.bind f = .returned b ↔ ∃ a, x = .returned a ∧ f a = .returned b := by
  cases x <;> simp [ScoringOutcome.bind]

/-- A conversion to a float escapes only by an integer that is too large. -/
lemma readNumber_eq_escaped_iff {default : ℚ} :
    readNumber lib key default payload = .escaped ↔ Oversized key payload := by
  have hoption : ∀ x : Option PyFloat, Reading.ofOption x ≠ .escaped := by
    intro x
    cases x <;> simp [Reading.ofOption]
  unfold readNumber Oversized
  cases hget : payload.get? key with
  | none => simp
  | some v =>
    cases v with
    | int n => simp [readFloat]
    | float text | str text => simpa [readFloat] using hoption _
    | null | bool b | arr items | obj fields => simp [readFloat]

lemma readTexts_ne_escaped : readTexts lib key payload ≠ .escaped := by
  unfold readTexts
  split <;> simp

lemma checkBounds_ne_escaped {high : ℚ} {x : PyFloat} : checkBounds lib high x ≠ .escaped := by
  unfold checkBounds
  split <;> simp <;> split_ifs <;> simp

/-- The bounds let a float pass without a number exactly if that is no number. -/
lemma checkBounds_eq_read_none_iff {high : ℚ} {x : PyFloat} :
    checkBounds lib high x = .read none ↔ x = .nan ∧ lib.nanInBounds = true := by
  cases x with
  | finite q =>
    rw [checkBounds]
    split_ifs <;> simp
  | infinite => simp [checkBounds]
  | nan =>
    rw [checkBounds]
    split_ifs with h <;> simp [h]

/-- **Exceptions that are not caught.** Only numbers that are too large escape from the reading of a
payload. -/
theorem readPayload_eq_escaped_iff :
    readPayload lib dimension payload = .escaped ↔ NumberEscapes lib payload := by
  simp only [readPayload, Reading.bind_eq_escaped, readNumber_eq_escaped_iff, readTexts_ne_escaped,
    checkBounds_ne_escaped, reduceCtorEq, and_false, exists_false, or_false]
  unfold NumberEscapes
  exact or_congr_right ⟨fun ⟨score, hscore, hover⟩ => ⟨⟨score, hscore⟩, hover⟩,
    fun ⟨⟨score, hscore⟩, hover⟩ => ⟨score, hscore, hover⟩⟩

/-- The bounds let a float pass exactly if it is within them, or if it is no number and they let
that pass. -/
lemma exists_checkBounds_iff {high : ℚ} {x : PyFloat} : (∃ number, checkBounds lib high x =
    .read number) ↔ WithinOrNan high x ∧ (x = .nan → lib.nanInBounds = true) := by
  cases x with
  | finite q =>
    rw [checkBounds]
    split_ifs with h <;> simp [WithinOrNan, h]
  | infinite => simp [checkBounds, WithinOrNan]
  | nan =>
    rw [checkBounds]
    split_ifs with h <;> simp [WithinOrNan, h]

/-- The payloads that pass although a number is none. -/
lemma readPayload_eq_read_none_iff :
    readPayload lib dimension payload = .read none ↔ AcceptsNan lib payload := by
  constructor
  · intro h
    obtain ⟨score, hscore, h⟩ := Reading.bind_eq_read.mp h
    obtain ⟨confidence, hconfidence, h⟩ := Reading.bind_eq_read.mp h
    obtain ⟨evidence, hevidence, h⟩ := Reading.bind_eq_read.mp h
    obtain ⟨counter, hcounter, h⟩ := Reading.bind_eq_read.mp h
    obtain ⟨unknowns, hunknowns, h⟩ := Reading.bind_eq_read.mp h
    obtain ⟨number, hnumber, h⟩ := Reading.bind_eq_read.mp h
    obtain ⟨number', hnumber', h⟩ := Reading.bind_eq_read.mp h
    obtain ⟨hwithin, hnan⟩ := exists_checkBounds_iff.mp ⟨number, hnumber⟩
    obtain ⟨hwithin', hnan'⟩ := exists_checkBounds_iff.mp ⟨number', hnumber'⟩
    have hnone : score = .nan ∨ confidence = .nan := by
      cases number with
      | none => exact Or.inl (checkBounds_eq_read_none_iff.mp hnumber).1
      | some q =>
        cases number' with
        | none => exact Or.inr (checkBounds_eq_read_none_iff.mp hnumber').1
        | some q' => cases h
    refine ⟨hnone.elim hnan hnan', ⟨score, confidence, hscore, hconfidence, hwithin, hwithin',
      hnone⟩, ?_⟩
    simp only [List.forall_mem_cons, List.not_mem_nil, false_implies, implies_true, and_true]
    exact ⟨⟨_, hevidence⟩, ⟨_, hcounter⟩, _, hunknowns⟩
  · rintro ⟨hbounds, ⟨score, confidence, hscore, hconfidence, hwithin, hwithin', hnone⟩, htexts⟩
    obtain ⟨evidence, hevidence⟩ := htexts "evidence" (by simp)
    obtain ⟨counter, hcounter⟩ := htexts "counter_evidence" (by simp)
    obtain ⟨unknowns, hunknowns⟩ := htexts "unknowns" (by simp)
    obtain ⟨number, hnumber⟩ := exists_checkBounds_iff.mpr ⟨hwithin, fun _ => hbounds⟩
    obtain ⟨number', hnumber'⟩ := exists_checkBounds_iff.mpr ⟨hwithin', fun _ => hbounds⟩
    have hmissing : number = none ∨ number' = none := by
      refine hnone.imp (fun hnan => ?_) fun hnan => ?_
      · rw [checkBounds_eq_read_none_iff.mpr ⟨hnan, hbounds⟩] at hnumber
        exact (Reading.read.inj hnumber).symm
      · rw [checkBounds_eq_read_none_iff.mpr ⟨hnan, hbounds⟩] at hnumber'
        exact (Reading.read.inj hnumber').symm
    simp only [readPayload, hscore, hconfidence, hevidence, hcounter, hunknowns, Reading.bind,
      hnumber, hnumber']
    rcases hmissing with rfl | rfl
    · rfl
    · cases number <;> rfl

/-- The answers for which the reading of a specialist returns. -/
lemma exists_callAgent_iff {call : ModelCall} :
    (∃ a, callAgent lib dimension call = .returned a) ↔ SpecialistAbsorbed lib call := by
  cases call with
  | failed => exact iff_of_true ⟨_, rfl⟩ nofun
  | answered content =>
    cases hloads : lib.loads (contentOf content) with
    | malformed => simp [callAgent, SpecialistAbsorbed, hloads]
    | raised => simp [callAgent, SpecialistAbsorbed, hloads]
    | value v =>
      cases v with
      | obj fields =>
        simp only [callAgent, SpecialistAbsorbed, hloads,
          ← @readPayload_eq_escaped_iff lib _ dimension,
          ← @readPayload_eq_read_none_iff lib _ dimension]
        cases hread : readPayload lib dimension (.obj fields) with
        | read a => cases a <;> simp [hloads, hread]
        | rejected | escaped => simp [hloads, hread]
      | null | bool b | int n | float text | str text | arr items =>
        simp [callAgent, SpecialistAbsorbed, hloads]

/-- An assessment that passes was constructed from its answer. -/
lemma specialistValidated_of_passed {call : ModelCall} {a : SpecialistAssessment}
    (h : callAgent lib dimension call = .returned a) (hpassed : a.validationStatus = .passed) :
    SpecialistValidated lib dimension call := by
  cases call with
  | failed =>
    obtain rfl := ScoringOutcome.returned.inj h
    cases hpassed
  | answered content =>
    rw [callAgent] at h
    cases hloads : lib.loads (contentOf content) with
    | malformed =>
      rw [hloads] at h
      obtain rfl := ScoringOutcome.returned.inj h
      cases hpassed
    | raised =>
      rw [hloads] at h
      cases h
    | value v =>
      rw [hloads] at h
      cases v with
      | obj fields =>
        cases hread : readPayload lib dimension (.obj fields) with
        | read read =>
          simp only [hread] at h
          cases read with
          | none => cases h
          | some b =>
            obtain rfl := ScoringOutcome.returned.inj h
            exact ⟨content, fields, b, rfl, hloads, hread⟩
        | rejected =>
          simp only [hread] at h
          obtain rfl := ScoringOutcome.returned.inj h
          cases hpassed
        | escaped =>
          simp only [hread] at h
          cases h
      | null | bool b | int n | float text | str text | arr items => cases h

end Readings

/-! ## The critic's answer -/

section Issues

variable {lib : Libraries} {item : Json} {items : List Json} {call : ModelCall}
  {assessments : List AgentAssessment} {evidenceText : Str}

/-- An item is rejected exactly if it is no issue. -/
lemma parseIssue_eq_rejected_iff :
    parseIssue lib.repr item = some none ↔ ¬ IssueShape lib item := by
  cases item with
  | obj fields =>
    rw [parseIssue]
    split_ifs with hbad
    · refine iff_of_true rfl fun hshape => ?_
      exact hbad.elim (fun hseverity => hseverity hshape.2.1) fun hempty => hshape.2.2 hempty
    · rw [not_or, not_not] at hbad
      refine iff_of_false ?_ fun hshape => hshape ⟨⟨fields, rfl⟩, hbad⟩
      split <;> simp
  | null | bool b | int n | float text | str text | arr items => simp [parseIssue, IssueShape]

/-- An issue is read exactly if its evidence id is absent, null or a text. -/
lemma parseIssue_eq_none_iff :
    parseIssue lib.repr item = none ↔ IssueShape lib item ∧ ¬ EvidenceIdText item := by
  by_cases hshape : IssueShape lib item
  · obtain ⟨⟨fields, rfl⟩, hseverity, hdescription⟩ := hshape
    have hgood : ¬ (((Json.get? "severity" (.obj fields)).map (Json.pyStr lib.repr)).getD [] ∉
        ["hard".toList, "soft".toList] ∨
        Str.strip (((Json.get? "description" (.obj fields)).map (Json.pyStr lib.repr)).getD []) =
          []) := by
      rintro (hnot | hempty)
      · exact hnot hseverity
      · exact hdescription hempty
    rw [and_iff_right ⟨⟨fields, rfl⟩, hseverity, hdescription⟩, parseIssue, if_neg hgood,
      EvidenceIdText]
    cases hid : Json.get? "evidence_id" (.obj fields) with
    | none => simp
    | some v => cases v <;> simp
  · rw [parseIssue_eq_rejected_iff.mpr hshape]
    simp [hshape]

lemma issuesReadable_cons : IssuesReadable lib (item :: items) ↔
    (IssueShape lib item → EvidenceIdText item ∧ IssuesReadable lib items) := by
  constructor
  · intro h hshape
    refine ⟨h [] item items rfl (by simp) hshape, fun pre other post heq hpre => ?_⟩
    refine h (item :: pre) other post (by rw [heq, List.cons_append]) fun i hi => ?_
    rcases List.mem_cons.mp hi with rfl | hi
    · exact hshape
    · exact hpre i hi
  · intro h pre other post heq hpre hother
    cases pre with
    | nil =>
      obtain ⟨rfl, rfl⟩ := List.cons.inj heq
      exact (h hother).1
    | cons first pre =>
      obtain ⟨rfl, rfl⟩ := List.cons.inj heq
      exact (h (hpre _ (List.mem_cons_self ..))).2 pre other post rfl
        (fun i hi => hpre i (List.mem_cons_of_mem _ hi)) hother

/-- The issues are read, or one of them rejected, exactly if they are readable. -/
lemma parseIssues_ne_none_iff : parseIssues lib.repr items ≠ none ↔ IssuesReadable lib items := by
  induction items with
  | nil => simp [parseIssues, IssuesReadable]
  | cons item items ih =>
    rw [issuesReadable_cons, ← ih, parseIssues]
    cases hparse : parseIssue lib.repr item with
    | none =>
      obtain ⟨hshape, hid⟩ := parseIssue_eq_none_iff.mp hparse
      simp [hshape, hid]
    | some parsed =>
      cases parsed with
      | none => simp [parseIssue_eq_rejected_iff.mp hparse]
      | some issue =>
        have hshape : IssueShape lib item := by
          by_contra hnot
          rw [parseIssue_eq_rejected_iff.mpr hnot] at hparse
          cases hparse
        have hid : EvidenceIdText item := by
          by_contra hnot
          rw [parseIssue_eq_none_iff.mpr ⟨hshape, hnot⟩] at hparse
          cases hparse
        simp [hshape, hid]

/-- An object as the answer of the critic. -/
lemma criticAbsorbed_object_iff {content : Option Str} {fields : List (Str × Json)}
    (h : lib.loads (contentOf content) = .value (.obj fields)) :
    CriticAbsorbed lib (.answered content) ↔ ∀ items,
      (Json.get? "issues" (.obj fields)).getD (.arr []) = .arr items →
        IssuesReadable lib items := by
  constructor
  · exact fun habsorbed => ((habsorbed content rfl).2 _ h).2
  · rintro hitems content' ⟨⟩
    rw [h]
    refine ⟨nofun, fun v hv => ?_⟩
    obtain rfl := Decoded.value.inj hv
    exact ⟨⟨fields, rfl⟩, hitems⟩

/-- The answers for which the critic returns. -/
lemma exists_criticAgent_iff : (∃ critique, (criticAnswer lib call).bind
    (criticAgent lib.repr assessments evidenceText) = some critique) ↔ CriticAbsorbed lib call := by
  cases call with
  | failed => exact iff_of_true ⟨_, rfl⟩ fun _ h => by cases h
  | answered content =>
    cases hloads : lib.loads (contentOf content) with
    | malformed => simp [criticAnswer, CriticAbsorbed, hloads, criticAgent]
    | raised => simp [criticAnswer, CriticAbsorbed, hloads]
    | value v =>
      cases v with
      | obj fields =>
        simp only [criticAnswer, hloads, Option.bind_some, criticAgent]
        cases hissues : (Json.get? "issues" (.obj fields)).getD (.arr []) with
        | arr items =>
          rw [criticAbsorbed_object_iff hloads, hissues]
          simp only [Json.arr.injEq, forall_eq', ← parseIssues_ne_none_iff,
            Option.ne_none_iff_exists',
            Option.map_eq_some_iff]
          constructor
          · rintro ⟨_, parsed, hparsed, -⟩
            exact ⟨parsed, hparsed⟩
          · rintro ⟨parsed, hparsed⟩
            exact ⟨_, parsed, hparsed, rfl⟩
        | null | bool b | int n | float text | str text | obj fields =>
          rw [criticAbsorbed_object_iff hloads, hissues]
          simp
      | null | bool b | int n | float text | str text | arr items =>
        simp [criticAnswer, CriticAbsorbed, hloads, criticAgent]

/-- A critique that passes was read from its answer. -/
lemma criticValidated_of_passed {critique : Critique}
    (h : (criticAnswer lib call).bind (criticAgent lib.repr assessments evidenceText) =
      some critique) (hpassed : critique.validationStatus = .passed) :
    CriticValidated lib call := by
  cases call with
  | failed =>
    obtain rfl := Option.some.inj h
    cases hpassed
  | answered content =>
    cases hloads : lib.loads (contentOf content) with
    | malformed =>
      simp only [criticAnswer, hloads, Option.bind_some, criticAgent] at h
      obtain rfl := Option.some.inj h
      cases hpassed
    | raised =>
      simp only [criticAnswer, hloads] at h
      cases h
    | value v =>
      simp only [criticAnswer, hloads, Option.bind_some] at h
      cases v with
      | obj fields =>
        rw [criticAgent] at h
        cases hissues : (Json.get? "issues" (.obj fields)).getD (.arr []) with
        | arr items =>
          simp only [hissues] at h
          obtain ⟨parsed, hparsed, rfl⟩ := Option.map_eq_some_iff.mp h
          cases parsed with
          | none => cases hpassed
          | some issues => exact ⟨content, fields, items, issues, rfl, hloads, hissues, hparsed⟩
        | null | bool b | int n | float text | str text | obj fields =>
          simp only [hissues] at h
          obtain rfl := Option.some.inj h
          cases hpassed
      | null | bool b | int n | float text | str text | arr items => cases h

end Issues

/-! ## The committee -/

section Committee

variable {lib : Libraries} {assessments : List SpecialistAssessment} {critique : Critique}
  {weights : Option (Dict ℚ)}

/-- A scorecard is in range. -/
lemma inRange_aggregate : (aggregateAssessments assessments critique weights).InRange where
  scores := by
    have hscore : ∀ dimension, 0 ≤ roundTo 2 (dimensionScore assessments dimension) ∧
        roundTo 2 (dimensionScore assessments dimension) ≤ 100 :=
      fun dimension => roundTo_mem_percent (dimensionScore_mem dimension)
    simp only [List.forall_mem_cons, List.not_mem_nil, false_implies, implies_true, and_true]
    exact ⟨hscore _, hscore _, hscore _, composite_mem⟩
  confidence := confidence_mem
  agents a _ := ⟨a.score_mem, a.confidence_mem⟩

/-- A scorecard passes only if the assessments and the critique did. -/
lemma passed_of_aggregate
    (h : (aggregateAssessments assessments critique weights).validatorStatus = .passed) :
    (∀ a ∈ assessments, a.validationStatus = .passed) ∧ critique.validationStatus = .passed := by
  have hall := validatorStatus_eq_passed_iff.mp h
  exact ⟨fun a ha => hall _ (List.mem_append_left _ (List.mem_map_of_mem ha)),
    hall _ (List.mem_append_right _ (List.mem_singleton_self _))⟩

variable {evidenceText apiKey model : Str} {answers : CommitteeAnswers}

/-- A scorecard that is returned is that of assessments and a critique that were. -/
lemma exists_of_scoreCandidate {result : Scorecard × ScoringMetadata}
    (h : scoreCandidate lib evidenceText apiKey model weights answers = .returned result) :
    ∃ execution technical commercial critique,
      callAgent lib "execution" (clientCall apiKey answers.execution) = .returned execution ∧
      callAgent lib "technical" (clientCall apiKey answers.technical) = .returned technical ∧
      callAgent lib "commercial" (clientCall apiKey answers.commercial) = .returned commercial ∧
      (criticAnswer lib (clientCall apiKey answers.critic)).bind (criticAgent lib.repr
        ([execution, technical, commercial].map SpecialistAssessment.toAgentAssessment)
        evidenceText) = some critique ∧
      result.1 = aggregateAssessments [execution, technical, commercial] critique weights := by
  obtain ⟨execution, hexecution, h⟩ := ScoringOutcome.bind_eq_returned.mp h
  obtain ⟨technical, htechnical, h⟩ := ScoringOutcome.bind_eq_returned.mp h
  obtain ⟨commercial, hcommercial, h⟩ := ScoringOutcome.bind_eq_returned.mp h
  rw [concludeScoring] at h
  split at h
  · cases h
  · next critique hcritique =>
    obtain rfl := ScoringOutcome.returned.inj h
    exact ⟨execution, technical, commercial, critique, hexecution, htechnical, hcommercial,
      hcritique, rfl⟩

/-- Where all four calls return, so does the scoring. -/
lemma scoreCandidate_returns
    (hexecution : SpecialistAbsorbed lib (clientCall apiKey answers.execution))
    (htechnical : SpecialistAbsorbed lib (clientCall apiKey answers.technical))
    (hcommercial : SpecialistAbsorbed lib (clientCall apiKey answers.commercial))
    (hcritic : CriticAbsorbed lib (clientCall apiKey answers.critic)) :
    ∃ result, scoreCandidate lib evidenceText apiKey model weights answers = .returned result := by
  obtain ⟨execution, hexecution⟩ := (@exists_callAgent_iff lib "execution" _).mpr hexecution
  obtain ⟨technical, htechnical⟩ := (@exists_callAgent_iff lib "technical" _).mpr htechnical
  obtain ⟨commercial, hcommercial⟩ := (@exists_callAgent_iff lib "commercial" _).mpr hcommercial
  obtain ⟨critique, hcritique⟩ := (@exists_criticAgent_iff lib _
    ([execution, technical, commercial].map SpecialistAssessment.toAgentAssessment)
    evidenceText).mpr hcritic
  simp only [scoreCandidate, hexecution, htechnical, hcommercial, ScoringOutcome.bind,
    concludeScoring,
    hcritique]
  exact ⟨_, rfl⟩

/-- With an API key a scorecard is returned only if all answers are absorbed. -/
lemma absorbed_of_returned (hkey : apiKey ≠ [])
    (h : Absorbed lib answers (scoreCandidate lib evidenceText apiKey model weights answers)) :
    SpecialistAbsorbed lib answers.execution ∧ SpecialistAbsorbed lib answers.technical ∧
      SpecialistAbsorbed lib answers.commercial ∧ CriticAbsorbed lib answers.critic := by
  obtain ⟨card, metadata, hreturned, -⟩ := h
  obtain ⟨execution, technical, commercial, critique, hexecution, htechnical, hcommercial,
    hcritique, -⟩ := exists_of_scoreCandidate hreturned
  simp only [clientCall, if_neg hkey] at hexecution htechnical hcommercial hcritique
  exact ⟨exists_callAgent_iff.mp ⟨_, hexecution⟩, exists_callAgent_iff.mp ⟨_, htechnical⟩,
    exists_callAgent_iff.mp ⟨_, hcommercial⟩, exists_criticAgent_iff.mp ⟨_, hcritique⟩⟩

variable (lib evidenceText apiKey model weights answers) in
/-- **Which answers are absorbed.** With an API key there is a scorecard in range that does not pass
if an answer was not validated, exactly if the answers of the specialists are no JSON or objects
whose numbers a float can hold and the validation compares, and that of the critic is no JSON or an
object whose evidence ids are texts.

**Proof sketch.** The four calls are looked at one by one: what raises in any of them is not caught,
and what does not is an assessment in range with a status of its own. -/
theorem absorbed_iff :
    Absorbed lib answers (scoreCandidate lib evidenceText apiKey model weights answers) ↔
      apiKey = [] ∨ (SpecialistAbsorbed lib answers.execution ∧
        SpecialistAbsorbed lib answers.technical ∧ SpecialistAbsorbed lib answers.commercial ∧
        CriticAbsorbed lib answers.critic) := by
  constructor
  · intro h
    by_cases hkey : apiKey = []
    · exact Or.inl hkey
    · exact Or.inr (absorbed_of_returned hkey h)
  · intro habsorbed
    obtain ⟨⟨card, metadata⟩, hreturned⟩ : ∃ result,
        scoreCandidate lib evidenceText apiKey model weights answers = .returned result := by
      by_cases hkey : apiKey = []
      · subst hkey
        exact scoreCandidate_returns nofun nofun nofun nofun
      · obtain ⟨hexecution, htechnical, hcommercial, hcritic⟩ := habsorbed.resolve_left hkey
        have hcall : ∀ call, clientCall apiKey call = call := fun call => if_neg hkey
        exact scoreCandidate_returns ((hcall _).symm ▸ hexecution) ((hcall _).symm ▸ htechnical)
          ((hcall _).symm ▸ hcommercial) ((hcall _).symm ▸ hcritic)
    obtain ⟨execution, technical, commercial, critique, hexecution, htechnical, hcommercial,
      hcritique, hcard⟩ := exists_of_scoreCandidate hreturned
    obtain rfl : card = _ := hcard
    refine ⟨_, metadata, hreturned, inRange_aggregate, fun hnot hpassed => hnot ?_⟩
    obtain ⟨hall, hcritic⟩ := passed_of_aggregate hpassed
    have hexecution := specialistValidated_of_passed hexecution (hall _ (by simp))
    have htechnical := specialistValidated_of_passed htechnical (hall _ (by simp))
    have hcommercial := specialistValidated_of_passed hcommercial (hall _ (by simp))
    have hcritic := criticValidated_of_passed hcritique hcritic
    by_cases hkey : apiKey = []
    · -- without a key nothing was answered
      rw [clientCall, if_pos hkey] at hexecution
      obtain ⟨-, -, -, ⟨⟩, -⟩ := hexecution
    · simp only [clientCall, if_neg hkey] at hexecution htechnical hcommercial hcritic
      exact ⟨hexecution, htechnical, hcommercial, hcritic⟩

/-! ## Answers that are not absorbed -/

/-- The number of a text of digits. -/
def digitsValue (digits : Str) : ℕ := digits.foldl (fun n c => 10 * n + (c.toNat - 48)) 0

/-- `float(text)` for a text of digits, with or without a fraction. -/
def decimalFloat (text : Str) : Option PyFloat :=
  match Json.digits text with
  | ([], _) => none
  | (whole, []) => some (.finite (digitsValue whole))
  | (whole, '.' :: fraction) =>
    if fraction.all Char.isDigit then
      some (.finite (digitsValue whole + digitsValue fraction / 10 ^ fraction.length))
    else none
  | _ => none

example : decimalFloat "75.5" = some (.finite (151 / 2)) := by
  decide +kernel

/-- The libraries on texts without constants for infinite numbers and without long integers. -/
def plainLibraries : Libraries where
  loads text := ((Json.loads text).map Decoded.value).getD .malformed
  floatOf := decimalFloat
  repr := Json.text
  nanInBounds := true

/-- A critic that gives a number for an evidence id. -/
def numberedIssue : Str :=
  "\x7b\"issues\": [\x7b\"severity\": \"soft\", \"description\": \"stale source\", " ++
    "\"evidence_id\": 7\x7d]\x7d"

/-- Three specialists and this critic. -/
def numberedIssueAnswers : CommitteeAnswers where
  execution := .answered (some "\x7b\"score\": 75.5, \"confidence\": 0.8\x7d".toList)
  technical := .answered (some "\x7b\x7d".toList)
  commercial := .answered none
  critic := .answered (some numberedIssue)

/-- A number for an evidence id fails the scoring. -/
theorem not_absorbed_numbered : ¬ Absorbed plainLibraries numberedIssueAnswers
    (scoreCandidate plainLibraries "Person: Ada" "key" "model" none numberedIssueAnswers) := by
  intro h
  have habsorbed := (absorbed_of_returned (by decide) h).2.2.2
  have hcontent : contentOf (some numberedIssue) = numberedIssue := by
    decide +kernel
  have hvalue : Json.loads numberedIssue = some (.obj [("issues", .arr [.obj [("severity",
      .str "soft"), ("description", .str "stale source"), ("evidence_id", .int 7)]])]) := by
    decide +kernel
  have hloads : plainLibraries.loads (contentOf (some numberedIssue)) =
      .value (.obj [("issues", .arr [.obj [("severity", .str "soft"),
        ("description", .str "stale source"), ("evidence_id", .int 7)]])]) := by
    rw [hcontent]
    simp only [plainLibraries, hvalue, Option.map_some, Option.getD_some]
  have hissues : (Json.get? "issues" (.obj [("issues", .arr [.obj [("severity", .str "soft"),
      ("description", .str "stale source"), ("evidence_id", .int 7)]])])).getD (.arr []) =
      .arr [.obj [("severity", .str "soft"), ("description", .str "stale source"),
        ("evidence_id", .int 7)]] := by
    decide +kernel
  have hshape : IssueShape plainLibraries (.obj [("severity", .str "soft"),
      ("description", .str "stale source"), ("evidence_id", .int 7)]) :=
    ⟨⟨_, rfl⟩, by decide +kernel, by decide +kernel⟩
  have hid : Json.get? "evidence_id" (.obj [("severity", .str "soft"),
      ("description", .str "stale source"), ("evidence_id", .int 7)]) = some (.int 7) := by
    decide +kernel
  have hreadable := (criticAbsorbed_object_iff hloads).mp habsorbed _ hissues
  rcases hreadable [] _ [] rfl (by simp) hshape _ hid with hnull | ⟨id, hstr⟩
  · cases hnull
  · cases hstr

end Committee

end VCBrain
