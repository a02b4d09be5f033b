import VCBrain.Agents.Aggregate
import VCBrain.Agents.MemoCitations
import VCBrain.Foundation.IndentedJson
import VCBrain.Foundation.Template
import VCBrain.RedactionLaws

set_option relaxedAutoImplicit false
set_option autoImplicit false

/-!
# The user prompts of the agents

The specialists, the critic, the generator of memos and the generator of emails get what has been
collected about a candidate between two tags at the end of their prompts.

## Main definitions

* `specialistPrompt`, `criticPrompt`, `memoPrompt`, `outreachPrompt` — the prompts.
* `ClosesOnce` — the closing tag is at the end of the prompt and nowhere else.
* `evidenceFields`, `memoFields` — the collected texts, each behind the fixed text in front of it.

## Main results

* `rendered_evidenceFields`, `rendered_memoFields` — these make up the evidence.
* `closeOnce_iff` — the prompts close once exactly if none of the texts that they show has the tag.
-/

namespace VCBrain

open Str (Field Shows rendered)

/-- The closing tag of the evidence. -/
def closingTag : Str := "</candidate_evidence>"

/-- The lines of a prompt, with the evidence between its tags below them. -/
def promptText (above : List Str) (evidence : Str) : Str :=
  List.intercalate ['\n'] (above ++ ["<candidate_evidence>".toList, evidence, closingTag])

/-- The prompt of `_call_agent`. -/
def specialistPrompt (dimension evidenceText : Str) : Str :=
  promptText ["Dimension: " ++ dimension] (evidenceText.take 12000)

/-- How floats are written. -/
structure FloatText where
  text : ℚ → Str
  plain : ∀ q, ∀ c ∈ text q, c.isDigit = true ∨ c ∈ ['.', 'e', '+', '-']

/-- What the critic is shown of an assessment. -/
def assessmentSummary (floats : FloatText) (a : SpecialistAssessment) : Json :=
  .obj [("dimension", .str a.dimension), ("score", .float (floats.text a.score)),
    ("confidence", .float (floats.text a.confidence)),
    ("evidence", .arr (a.evidence.map .str)), ("rationale", .str a.rationale)]

/-- The prompt of `critic_agent`. -/
def criticPrompt (floats : FloatText) (assessments : List SpecialistAssessment)
    (evidenceText : Str) : Str :=
  promptText ["<assessments>".toList,
    Json.indented 0 (.arr (assessments.map (assessmentSummary floats))), "</assessments>".toList]
    (evidenceText.take 8000)

/-- The prompt of `generate_memo`. -/
def memoPrompt (personName scorecardSummary thesisSummary evidenceText : Str) : Str :=
  promptText ["Candidate: " ++ personName, "<scorecard>".toList, scorecardSummary,
    "</scorecard>".toList, "<thesis>".toList, thesisSummary, "</thesis>".toList]
    (evidenceText.take 10000)

/-- `OutreachEmailType`. -/
inductive OutreachEmailType where
  | founderIntro
  | requestDeck
  | diligence
  | followUp

/-- The text of an email type. -/
def OutreachEmailType.text : OutreachEmailType → Str
  | founderIntro => "founder_intro"
  | requestDeck => "request_deck"
  | diligence => "diligence"
  | followUp => "follow_up"

/-- The prompt of `draft_outreach_email`. -/
def outreachPrompt (emailType : OutreachEmailType)
    (founderName company brief evidenceSummary : Str) : Str :=
  promptText ["Email type: " ++ emailType.text, "Founder: " ++ founderName, "Company: " ++ company,
    "Investor request: " ++
      if brief = [] then "Write a concise, low-pressure introduction.".toList else brief]
    (evidenceSummary.take 3000)

/-- What the prompts for a candidate are made of. -/
structure PromptInputs where
  person : Person
  /-- The observations that are scored. -/
  observations : List Observation
  thesisText : Str
  assessments : List SpecialistAssessment
  claims : List Claim
  /-- The observations of the claims. -/
  claimObservations : List Observation
  scorecardSummary : Str
  thesisSummary : Str
  emailType : OutreachEmailType
  founderName : Str
  company : Str
  brief : Str
  evidenceSummary : Str

/-- The prompts of the specialists, of the critic, of the memo and of the email. -/
def userPrompts (ucd : Ucd) (floats : FloatText) (inputs : PromptInputs) : List Str :=
  let evidenceText := (buildEvidenceText ucd inputs.observations inputs.person inputs.thesisText).1
  let package := memoPackage ucd inputs.claims inputs.claimObservations inputs.person
  dimensions.map (fun dimension => specialistPrompt dimension evidenceText) ++
    [criticPrompt floats inputs.assessments evidenceText,
      memoPrompt (nameOrStableId inputs.person) inputs.scorecardSummary inputs.thesisSummary
        package.evidenceText,
      outreachPrompt inputs.emailType inputs.founderName inputs.company inputs.brief
        inputs.evidenceSummary]

/-- The closing tag is at the end of the prompt and nowhere else. -/
def ClosesOnce (prompt : Str) : Prop := Str.count closingTag prompt = 1 ∧ closingTag <:+ prompt

/-! ## The collected texts -/

section Fields

variable (ucd : Ucd)

/-- The collected texts of an observation. -/
def observationFields (obs : Observation) : List Field :=
  [{ lead := "\n[" ++ Uuid.str obs.id ++ "] ", text := obs.predicate },
    { lead := ": ", text := obs.objectValue.take 500, render := redactDirectIdentifiers ucd }]

/-- The collected texts of a source. -/
def sourceFields (source : Str) (items : List Observation) : List Field :=
  { lead := "\n\n--- ", text := source } :: { lead := " ---", text := [] } ::
    items.flatMap (observationFields ucd)

/-- The text of the thesis, if there is one. -/
def thesisFields (thesisText : Str) : List Field :=
  if thesisText = [] then []
  else [{ lead := "\n\n--- thesis alignment ---\n", text := thesisText.take 2000 }]

/-- The collected texts of `build_evidence_text`. -/
def evidenceFields (observations : List Observation) (person : Person) (thesisText : Str) :
    List Field :=
  { lead := "Person: ", text := nameOrStableId person, render := redactDirectIdentifiers ucd } ::
    (groupBy evidenceSource observations).flatMap (fun group => sourceFields ucd group.1 group.2) ++
    thesisFields thesisText ++ [{ lead := "\n", text := [] }]

/-- The ids of the observations of a claim. -/
def observationIdFields : List Str → List Field
  | [] => [{ lead := " (observations: ", text := [] }]
  | id :: ids =>
    { lead := " (observations: ", text := id } :: ids.map fun id => { lead := ", ", text := id }

/-- The collected texts of a claim. -/
def claimFields (claim : Claim) : List Field :=
  [{ lead := "\n[" ++ Uuid.str claim.id ++ "] ", text := claim.predicate },
    { lead := ": ", text := claim.objectValue.take 500 }] ++
    observationIdFields claim.observationIds ++ [{ lead := ")", text := [] }]

/-- The collected texts of the memo, before the last redaction. -/
def memoFields (claims : List Claim) (observations : List Observation) (person : Person) :
    List Field :=
  { lead := "--- accepted claims ---", text := [] } :: claims.flatMap claimFields ++
    { lead := "\n\n", text := [] } :: evidenceFields ucd observations person []

end Fields

section Tag

variable {ucd : Ucd} {lead : Str}

lemma closingTag_eq : closingTag = '<' :: ("/candidate_evidence".toList ++ ['>']) := by decide

lemma closingTag_ne_nil : closingTag ≠ [] := by decide

/-- A text without `<` that begins and ends with characters that are none of the tag. -/
lemma apart_closingTag (hlt : '<' ∉ lead)
    (hhead : lead.head?.any (fun c => decide (c ∉ closingTag)) = true)
    (hlast : lead.getLast?.any (fun c => decide (c ∉ closingTag)) = true) :
    Str.Apart closingTag lead := by
  refine ⟨fun hwithin => hlt (hwithin.subset (by decide)), ?_, ?_⟩
  · obtain ⟨c, hc, hnot⟩ := (Option.any_eq_true _ _).mp hhead
    obtain ⟨rest, rfl⟩ := List.head?_eq_some_iff.mp hc
    exact ⟨c, rest, rfl, of_decide_eq_true hnot⟩
  · obtain ⟨c, hc, hnot⟩ := (Option.any_eq_true _ _).mp hlast
    obtain ⟨init, rfl⟩ := List.getLast?_eq_some_iff.mp hc
    exact ⟨c, init, rfl, of_decide_eq_true hnot⟩

/-- The patterns do not take the characters around the name of a tag. -/
lemma rejects_tag {c : Char} (hc : c ∈ ['<', '>']) :
    (∀ item ∈ emailPattern ucd, item.Rejects c) ∧ ∀ item ∈ phonePattern ucd, item.Rejects c := by
  have hword : isWord ucd c = false := by
    rcases List.mem_pair.mp hc with rfl | rfl <;>
    · rw [isWord_ascii (by decide)]
      decide
  have hdecimal : ucd.isDecimal c = false := by
    rcases List.mem_pair.mp hc with rfl | rfl <;>
    · rw [ucd.isDecimal_ascii _ (by decide)]
      decide
  rcases List.mem_pair.mp hc with rfl | rfl <;>
    simp [emailPattern, phonePattern, PatternItem.Rejects, isDial, hword, hdecimal]

lemma splits_redact {c : Char} (hc : c ∈ ['<', '>']) :
    Str.Splits (redactDirectIdentifiers ucd) c := by
  have hmarks : c ∉ ("[REDACTED_EMAIL]" : Str) ∧ c ∉ ("[REDACTED_PHONE]" : Str) := by
    rcases List.mem_pair.mp hc with rfl | rfl <;> decide
  exact (Pattern.splits_sub (rejects_tag hc).2 hmarks.2).comp
    (Pattern.splits_sub (rejects_tag hc).1 hmarks.1)

/-- A text of ASCII characters without digits and without `@` stays as it is. -/
lemma redact_eq_self {s : Str} (hat : '@' ∉ s)
    (hs : ∀ c ∈ s, c.toNat < 128 ∧ c.isDigit = false) : redactDirectIdentifiers ucd s = s := by
  have hwithin : ∀ {a span b : Str}, s = a ++ span ++ b → span <:+: s := by
    rintro a span b rfl
    exact ⟨a, b, rfl⟩
  have hemails : redactEmails ucd s = s := Pattern.sub_eq_self sound_email fun a span b h _ hspan =>
    not_infix_of_email hat hspan (hwithin h)
  have hphones : redactPhones ucd s = s :=
    Pattern.sub_eq_self covers_phone.sound fun a span b h _ hspan =>
      not_infix_of_phone hs hspan (hwithin h)
  rw [redactDirectIdentifiers, hemails, hphones]

/-- The redaction keeps the closing tag. -/
lemma keeps_redact : Str.Keeps (redactDirectIdentifiers ucd) closingTag := by
  refine ⟨'<', "/candidate_evidence", '>', closingTag_eq, splits_redact (by decide),
    splits_redact (by decide), fun s => ⟨fun h => ?_, ?_⟩⟩
  · have hemails : redactEmails ucd s = ("/candidate_evidence" : Str) :=
      Pattern.eq_of_sub_eq (c := '[') h (by decide) (by decide)
    exact Pattern.eq_of_sub_eq (c := '[') hemails (by decide) (by decide)
  · rintro rfl
    exact redact_eq_self (by decide) (by decide)

lemma keeps_plain : Str.Keeps id closingTag := Str.keeps_id closingTag_eq

lemma foreign_closingTag : Json.Foreign closingTag :=
  ⟨by decide, '<', _, closingTag_eq, by decide, by decide⟩

end Tag

/-! ## The evidence as a template -/

section Rendered

variable {ucd : Ucd} {claims : List Claim} {observations : List Observation} {person : Person}
  {thesisText : Str}

lemma intercalate_newline (line : Str) (lines : List Str) :
    List.intercalate ['\n'] (line :: lines) = line ++ lines.flatMap ('\n' :: ·) := by
  induction lines generalizing line with
  | nil => simp
  | cons second lines ih =>
    rw [List.intercalate_cons_cons, ih, List.flatMap_cons]
    simp

lemma rendered_append (front back : List Field) :
    rendered (front ++ back) = rendered front ++ rendered back :=
  List.flatMap_append

lemma rendered_cons (q : Field) (fields : List Field) :
    rendered (q :: fields) = q.lead ++ q.render q.text ++ rendered fields :=
  List.flatMap_cons

lemma rendered_flatMap {α : Type} (f : α → List Field) (l : List α) :
    rendered (l.flatMap f) = l.flatMap fun x => rendered (f x) :=
  List.flatMap_assoc

/-- A character in front of some texts may be moved behind them one by one. -/
private lemma shift_newline {α : Type} {f g : α → Str} (h : ∀ x, '\n' :: f x = g x ++ ['\n'])
    (l : List α) : '\n' :: l.flatMap f = l.flatMap g ++ ['\n'] := by
  induction l with
  | nil => rfl
  | cons x l ih =>
    rw [List.flatMap_cons, List.flatMap_cons, ← List.cons_append, h, List.append_assoc,
      List.singleton_append, ih, List.append_assoc]

lemma rendered_observationFields (obs : Observation) :
    rendered (observationFields ucd obs) = '\n' :: evidenceLine ucd obs := by
  simp [observationFields, rendered, Field.shown, evidenceLine, bracketed]

private lemma rendered_sourceFields (group : Str × List Observation) :
    '\n' :: (sourceLines ucd group.1 group.2).flatMap ('\n' :: ·) =
      rendered (sourceFields ucd group.1 group.2) ++ ['\n'] := by
  rw [sourceFields, rendered_cons, rendered_cons, rendered_flatMap]
  simp [rendered_observationFields, sourceLines, List.flatMap_map]

private lemma rendered_thesisFields :
    rendered (thesisFields thesisText) ++ ['\n'] =
      '\n' :: (thesisLines thesisText).flatMap ('\n' :: ·) := by
  unfold thesisFields thesisLines
  split_ifs
  · rfl
  · simp [rendered, Field.shown]

/-- **The evidence.** The collected texts make up what `build_evidence_text` returns.

**Proof sketch.** The text has an empty line behind each source, and the template has it in front of
the next one. -/
theorem rendered_evidenceFields : rendered (evidenceFields ucd observations person thesisText) =
    (buildEvidenceText ucd observations person thesisText).1 := by
  have hsources : ∀ groups : List (Str × List Observation),
      '\n' :: (groups.flatMap fun group => sourceLines ucd group.1 group.2).flatMap ('\n' :: ·) =
        (groups.flatMap fun group => rendered (sourceFields ucd group.1 group.2)) ++ ['\n'] := by
    intro groups
    rw [List.flatMap_assoc]
    exact shift_newline rendered_sourceFields groups
  have htext : (buildEvidenceText ucd observations person thesisText).1 =
      "Person: ".toList ++ redactDirectIdentifiers ucd (nameOrStableId person) ++
        ('\n' :: ((groupBy evidenceSource observations).flatMap fun group =>
            sourceLines ucd group.1 group.2).flatMap ('\n' :: ·) ++
          (thesisLines thesisText).flatMap ('\n' :: ·)) := by
    simp only [buildEvidenceText, evidenceLines, List.cons_append, intercalate_newline,
      List.flatMap_cons, List.flatMap_append, List.nil_append]
  have hfields : rendered (evidenceFields ucd observations person thesisText) =
      "Person: ".toList ++ redactDirectIdentifiers ucd (nameOrStableId person) ++
        ((groupBy evidenceSource observations).flatMap (fun group =>
            rendered (sourceFields ucd group.1 group.2)) ++
          (rendered (thesisFields thesisText) ++ ['\n'])) := by
    simp only [evidenceFields, List.cons_append, rendered_cons, rendered_append, rendered_flatMap,
      List.append_assoc]
    rfl
  rw [htext, hfields, hsources, rendered_thesisFields]
  simp only [List.append_assoc, List.singleton_append]

lemma rendered_observationIdFields (ids : List Str) :
    rendered (observationIdFields ids) =
      " (observations: ".toList ++ List.intercalate ", ".toList ids := by
  cases ids with
  | nil => rfl
  | cons id ids =>
    have hrest : ∀ (first : Str) (ids : List Str), List.intercalate ", ".toList (first :: ids) =
        first ++ rendered (ids.map fun id => { lead := ", ", text := id }) := by
      intro first ids
      induction ids generalizing first with
      | nil => simp [rendered]
      | cons second ids ih =>
        rw [List.intercalate_cons_cons, ih, List.map_cons, rendered_cons]
        simp
    rw [observationIdFields, rendered_cons, hrest, List.append_assoc]
    rfl

lemma rendered_claimFields (claim : Claim) :
    rendered (claimFields claim) = '\n' :: claimLine claim := by
  rw [claimFields, rendered_append, rendered_append, rendered_observationIdFields]
  simp [rendered, Field.shown, claimLine, bracketed]

/-- The collected texts make up the evidence of the memo. -/
theorem rendered_memoFields : rendered (memoFields ucd claims observations person) =
    memoText ucd claims observations person := by
  rw [memoFields, rendered_append, rendered_cons, rendered_cons, rendered_flatMap,
    rendered_evidenceFields, memoText, claimContext, intercalate_newline]
  simp [rendered_claimFields, List.flatMap_map]

end Rendered

section Quoted

variable {ucd : Ucd} {claims : List Claim} {observations : List Observation} {person : Person}
  {thesisText : Str}

private lemma quotes_plain {lead text : Str} (h : Str.Apart closingTag lead) :
    Field.Quotes closingTag { lead := lead, text := text } :=
  ⟨h, keeps_plain⟩

private lemma quotes_redacted {lead text : Str} (h : Str.Apart closingTag lead) :
    Field.Quotes closingTag
      { lead := lead, text := text, render := redactDirectIdentifiers ucd } :=
  ⟨h, keeps_redact⟩

private lemma apart_id (id : Uuid) : Str.Apart closingTag ("\n[" ++ Uuid.str id ++ "] ") := by
  refine apart_closingTag (fun hmem => ?_) rfl ?_
  · rcases List.mem_append.mp hmem with hmem | hmem
    · rcases List.mem_append.mp hmem with hmem | hmem
      · exact absurd hmem (by decide)
      · exact absurd hmem (Uuid.notMem_str (by decide))
    · exact absurd hmem (by decide)
  · rw [List.getLast?_append_of_ne_nil _ (by decide)]
    decide

lemma quotes_evidenceFields :
    ∀ q ∈ evidenceFields ucd observations person thesisText, q.Quotes closingTag := by
  have hobs : ∀ obs, ∀ q ∈ observationFields ucd obs, q.Quotes closingTag := by
    intro obs q hq
    rcases List.mem_pair.mp hq with rfl | rfl
    · exact quotes_plain (apart_id obs.id)
    · exact quotes_redacted (apart_closingTag (by decide) (by decide) (by decide))
  intro q hq
  rcases List.mem_append.mp hq with hq | hq
  · rcases List.mem_append.mp hq with hq | hq
    · rcases List.mem_cons.mp hq with rfl | hq
      · exact quotes_redacted (apart_closingTag (by decide) (by decide) (by decide))
      · obtain ⟨group, -, hq⟩ := List.mem_flatMap.mp hq
        rcases List.mem_cons.mp hq with rfl | hq
        · exact quotes_plain (apart_closingTag (by decide) (by decide) (by decide))
        · rcases List.mem_cons.mp hq with rfl | hq
          · exact quotes_plain (apart_closingTag (by decide) (by decide) (by decide))
          · obtain ⟨obs, -, hq⟩ := List.mem_flatMap.mp hq
            exact hobs obs q hq
    · unfold thesisFields at hq
      split_ifs at hq
      · cases hq
      · rw [List.mem_singleton.mp hq]
        exact quotes_plain (apart_closingTag (by decide) (by decide) (by decide))
  · rw [List.mem_singleton.mp hq]
    exact quotes_plain (apart_closingTag (by decide) (by decide) (by decide))

private lemma quotes_claimFields (claim : Claim) :
    ∀ q ∈ claimFields claim, q.Quotes closingTag := by
  have hids : ∀ ids, ∀ q ∈ observationIdFields ids, q.Quotes closingTag := by
    intro ids q hq
    cases ids with
    | nil =>
      rw [List.mem_singleton.mp hq]
      exact quotes_plain (apart_closingTag (by decide) (by decide) (by decide))
    | cons id ids =>
      rcases List.mem_cons.mp hq with rfl | hq
      · exact quotes_plain (apart_closingTag (by decide) (by decide) (by decide))
      · obtain ⟨id', -, rfl⟩ := List.mem_map.mp hq
        exact quotes_plain (apart_closingTag (by decide) (by decide) (by decide))
  intro q hq
  rcases List.mem_append.mp hq with hq | hq
  · rcases List.mem_append.mp hq with hq | hq
    · rcases List.mem_pair.mp hq with rfl | rfl
      · exact quotes_plain (apart_id claim.id)
      · exact quotes_plain (apart_closingTag (by decide) (by decide) (by decide))
    · exact hids claim.observationIds q hq
  · rw [List.mem_singleton.mp hq]
    exact quotes_plain (apart_closingTag (by decide) (by decide) (by decide))

lemma quotes_memoFields :
    ∀ q ∈ memoFields ucd claims observations person, q.Quotes closingTag := by
  intro q hq
  rcases List.mem_append.mp hq with hq | hq
  · rcases List.mem_cons.mp hq with rfl | hq
    · exact quotes_plain (apart_closingTag (by decide) (by decide) (by decide))
    · obtain ⟨claim, -, hq⟩ := List.mem_flatMap.mp hq
      exact quotes_claimFields claim q hq
  · rcases List.mem_cons.mp hq with rfl | hq
    · exact quotes_plain (apart_closingTag (by decide) (by decide) (by decide))
    · exact quotes_evidenceFields q hq

end Quoted

/-! ## Closing once -/

section Closing

variable {above : List Str} {evidence : Str} {ucd : Ucd} {floats : FloatText}

/-- A prompt closes once exactly if neither its evidence nor a line above has the closing tag. -/
lemma closesOnce_promptText_iff : ClosesOnce (promptText above evidence) ↔
    (∀ line ∈ above, ¬ closingTag <:+: line) ∧ ¬ closingTag <:+: evidence := by
  have hsplit : promptText above evidence =
      List.intercalate ['\n'] (above ++ ["<candidate_evidence>".toList, evidence]) ++
        '\n' :: closingTag := by
    have hfront : above ++ ["<candidate_evidence>".toList, evidence] ≠ [] := by simp
    have happend := @Str.intercalate_append ['\n'] _ [closingTag] hfront (List.cons_ne_nil _ _)
    rw [List.append_assoc] at happend
    rw [promptText]
    simpa using happend
  have hend : closingTag <:+ promptText above evidence := by
    rw [hsplit]
    exact (List.suffix_cons '\n' closingTag).trans (List.suffix_append _ _)
  have hcount : Str.count closingTag (promptText above evidence) = 1 ↔
      ¬ closingTag <:+:
        List.intercalate ['\n'] (above ++ ["<candidate_evidence>".toList, evidence]) := by
    rw [hsplit, Str.count_append_sep closingTag_ne_nil (Str.not_standsAcross (by decide)),
      ← Str.count_eq_zero_iff closingTag_ne_nil]
    have hone : Str.count closingTag closingTag = 1 := by decide
    omega
  have hopen : ¬ closingTag <:+: "<candidate_evidence>".toList := by decide
  rw [ClosesOnce, and_iff_left hend, hcount,
    Str.infix_intercalate_iff closingTag_ne_nil (List.cons_ne_nil _ _) (by decide)]
  simp only [List.mem_append, List.mem_cons, List.not_mem_nil, or_false, not_exists, not_and,
    or_imp, forall_and, forall_eq, hopen, not_false_eq_true, true_and]

private lemma infix_label_iff {s : Str} (label : Str) (h : '<' ∉ label) :
    closingTag <:+: label ++ s ↔ closingTag <:+: s := by
  rw [closingTag_eq]
  exact Str.infix_append_iff_of_head h

lemma closesOnce_specialistPrompt_iff {dimension : Str} (h : dimension ∈ dimensions) :
    ClosesOnce (specialistPrompt dimension evidence) ↔ ¬ closingTag <:+: evidence.take 12000 := by
  have hdimension : ∀ d ∈ dimensions, ¬ closingTag <:+: d := by decide
  rw [specialistPrompt, closesOnce_promptText_iff, List.forall_mem_singleton,
    infix_label_iff _ (by decide), and_iff_right (hdimension dimension h)]

/-- The tag is in what the critic is shown of an assessment exactly if it is in one of its texts. -/
lemma infix_assessmentSummary_iff (a : SpecialistAssessment) :
    (∃ x ∈ Json.texts (assessmentSummary floats a), closingTag <:+: x) ↔
      ∃ x ∈ a.dimension :: a.rationale :: a.evidence, closingTag <:+: x := by
  have hfloat : ∀ q, ¬ closingTag <:+: floats.text q := by
    intro q hwithin
    rcases floats.plain q '<' (hwithin.subset (by decide)) with h | h
    · exact absurd h (by decide)
    · exact absurd h (by decide)
  have hkeys : ∀ k ∈ (["dimension".toList, "score".toList, "confidence".toList, "evidence".toList,
      "rationale".toList] : List Str), ¬ closingTag <:+: k := by decide
  have hitems : ∀ texts : List Str, Json.textsItems (texts.map .str) = texts := by
    intro texts
    induction texts with
    | nil => rfl
    | cons text texts ih =>
      rw [List.map_cons, Json.textsItems, ih, Json.texts, List.singleton_append]
  have htexts : Json.texts (assessmentSummary floats a) =
      ["dimension".toList, a.dimension, "score".toList, floats.text a.score, "confidence".toList,
        floats.text a.confidence, "evidence".toList] ++ (a.evidence ++
          ["rationale".toList, a.rationale]) := by
    simp only [assessmentSummary, Json.texts, Json.textsFields, hitems]
    rfl
  rw [htexts]
  constructor
  · rintro ⟨x, hx, htag⟩
    rcases List.mem_append.mp hx with hx | hx
    · simp only [List.mem_cons, List.not_mem_nil, or_false] at hx
      rcases hx with rfl | rfl | rfl | rfl | rfl | rfl | rfl
      · exact absurd htag (hkeys _ (by decide))
      · exact ⟨_, List.mem_cons_self .., htag⟩
      · exact absurd htag (hkeys _ (by decide))
      · exact absurd htag (hfloat _)
      · exact absurd htag (hkeys _ (by decide))
      · exact absurd htag (hfloat _)
      · exact absurd htag (hkeys _ (by decide))
    · rcases List.mem_append.mp hx with hx | hx
      · exact ⟨x, List.mem_cons_of_mem _ (List.mem_cons_of_mem _ hx), htag⟩
      · rcases List.mem_pair.mp hx with rfl | rfl
        · exact absurd htag (hkeys _ (by decide))
        · exact ⟨_, List.mem_cons_of_mem _ (List.mem_cons_self ..), htag⟩
  · rintro ⟨x, hx, htag⟩
    refine ⟨x, ?_, htag⟩
    simp only [List.mem_cons, List.mem_append] at hx ⊢
    rcases hx with rfl | rfl | hx
    · exact Or.inl (Or.inr (Or.inl rfl))
    · exact Or.inr (Or.inr (Or.inr (Or.inl rfl)))
    · exact Or.inr (Or.inl hx)

lemma closesOnce_criticPrompt_iff {assessments : List SpecialistAssessment} :
    ClosesOnce (criticPrompt floats assessments evidence) ↔
      (∀ a ∈ assessments, ∀ x ∈ a.dimension :: a.rationale :: a.evidence, ¬ closingTag <:+: x) ∧
        ¬ closingTag <:+: evidence.take 8000 := by
  have hsummary : ¬ closingTag <:+:
      Json.indented 0 (.arr (assessments.map (assessmentSummary floats))) ↔
        ∀ a ∈ assessments, ∀ x ∈ a.dimension :: a.rationale :: a.evidence,
          ¬ closingTag <:+: x := by
    rw [Json.infix_indented_iff foreign_closingTag, Json.texts]
    constructor
    · intro h a ha x hx htag
      obtain ⟨y, hy, hytag⟩ := (infix_assessmentSummary_iff a).mpr ⟨x, hx, htag⟩
      exact h ⟨y, Json.mem_textsItems.mpr ⟨_, List.mem_map_of_mem ha, hy⟩, hytag⟩
    · rintro h ⟨y, hy, hytag⟩
      obtain ⟨v, hv, hy⟩ := Json.mem_textsItems.mp hy
      obtain ⟨a, ha, rfl⟩ := List.mem_map.mp hv
      obtain ⟨x, hx, htag⟩ := (infix_assessmentSummary_iff a).mp ⟨y, hy, hytag⟩
      exact h a ha x hx htag
  have htags : ∀ tag ∈ (["<assessments>".toList, "</assessments>".toList] : List Str),
      ¬ closingTag <:+: tag := by decide
  rw [criticPrompt, closesOnce_promptText_iff, ← hsummary]
  simp only [List.mem_cons, List.not_mem_nil, or_false, forall_eq_or_imp, forall_eq,
    htags "<assessments>".toList (by decide), htags "</assessments>".toList (by decide),
    not_false_eq_true, true_and, and_true]

lemma closesOnce_memoPrompt_iff {name scorecard thesis : Str} :
    ClosesOnce (memoPrompt name scorecard thesis evidence) ↔
      (∀ x ∈ [name, scorecard, thesis], ¬ closingTag <:+: x) ∧
        ¬ closingTag <:+: evidence.take 10000 := by
  have htags : ∀ tag ∈ (["<scorecard>".toList, "</scorecard>".toList, "<thesis>".toList,
      "</thesis>".toList] : List Str), ¬ closingTag <:+: tag := by decide
  rw [memoPrompt, closesOnce_promptText_iff]
  simp only [List.mem_cons, List.not_mem_nil, or_false, forall_eq_or_imp, forall_eq,
    infix_label_iff "Candidate: ".toList (by decide), htags "<scorecard>".toList (by decide),
    htags "</scorecard>".toList (by decide), htags "<thesis>".toList (by decide),
    htags "</thesis>".toList (by decide), not_false_eq_true, true_and, and_true]

lemma closesOnce_outreachPrompt_iff {emailType : OutreachEmailType} {founder company brief : Str} :
    ClosesOnce (outreachPrompt emailType founder company brief evidence) ↔
      (∀ x ∈ [founder, company, brief], ¬ closingTag <:+: x) ∧
        ¬ closingTag <:+: evidence.take 3000 := by
  have htype : ¬ closingTag <:+: emailType.text := by cases emailType <;> decide
  have hbrief : closingTag <:+:
      (if brief = [] then "Write a concise, low-pressure introduction.".toList else brief) ↔
        closingTag <:+: brief := by
    split_ifs with hempty
    · subst hempty
      exact iff_of_false (by decide) (by decide)
    · rfl
  rw [outreachPrompt, closesOnce_promptText_iff]
  simp only [List.mem_cons, List.not_mem_nil, or_false, forall_eq_or_imp, forall_eq,
    infix_label_iff "Email type: ".toList (by decide),
    infix_label_iff "Founder: ".toList (by decide),
    infix_label_iff "Company: ".toList (by decide),
    infix_label_iff "Investor request: ".toList (by decide), htype, hbrief,
    not_false_eq_true, true_and]

variable {claims : List Claim} {observations : List Observation} {person : Person}
  {thesisText : Str}

lemma infix_evidence_iff :
    closingTag <:+: (buildEvidenceText ucd observations person thesisText).1.take 12000 ↔
      Shows id 12000 closingTag (evidenceFields ucd observations person thesisText) := by
  rw [← rendered_evidenceFields, ← Str.infix_take_rendered_iff keeps_plain quotes_evidenceFields]
  rfl

lemma infix_memoEvidence_iff :
    closingTag <:+: (memoPackage ucd claims observations person).evidenceText.take 10000 ↔
      Shows (redactDirectIdentifiers ucd) 10000 closingTag
        (memoFields ucd claims observations person) := by
  rw [memoPackage, ← rendered_memoFields,
    ← Str.infix_take_rendered_iff keeps_redact quotes_memoFields]

/-- The texts of the inputs that the prompts show as they are. -/
def plainTexts (inputs : PromptInputs) : List Str :=
  inputs.assessments.flatMap (fun a => a.dimension :: a.rationale :: a.evidence) ++
    [nameOrStableId inputs.person, inputs.scorecardSummary, inputs.thesisSummary,
      inputs.founderName, inputs.company, inputs.brief, inputs.evidenceSummary.take 3000]

/-- **Delimiters.** The closing tag of the evidence is at the end of every prompt and nowhere else
exactly if no collected text has it at a place which lies in the part of the evidence that is shown,
and no other text of the inputs has it.

**Proof sketch.** A prompt is made of lines, and the tag has no end of line. What redaction and JSON
write keeps the tag and adds none, and the texts of the evidence stand between texts that end in
other characters. -/
theorem closeOnce_iff (ucd : Ucd) (floats : FloatText) (inputs : PromptInputs) :
    (∀ prompt ∈ userPrompts ucd floats inputs, ClosesOnce prompt) ↔
      ¬ Shows id 12000 closingTag
          (evidenceFields ucd inputs.observations inputs.person inputs.thesisText) ∧
        ¬ Shows (redactDirectIdentifiers ucd) 10000 closingTag
          (memoFields ucd inputs.claims inputs.claimObservations inputs.person) ∧
        ∀ text ∈ plainTexts inputs, ¬ closingTag <:+: text := by
  have hcut : ∀ {s : Str}, ¬ closingTag <:+: s.take 12000 → ¬ closingTag <:+: s.take 8000 :=
    fun hnot hwithin => hnot (hwithin.trans (List.take_prefix_take_left (by decide)).isInfix)
  have hspecialist : ∀ evidence, (∀ dimension ∈ dimensions,
      ClosesOnce (specialistPrompt dimension evidence)) ↔ ¬ closingTag <:+: evidence.take 12000 :=
    fun evidence =>
      ⟨fun h => (closesOnce_specialistPrompt_iff (by decide)).mp (h "execution" (by decide)),
        fun h _ hd => (closesOnce_specialistPrompt_iff hd).mpr h⟩
  rw [← infix_evidence_iff, ← infix_memoEvidence_iff]
  simp only [userPrompts, List.forall_mem_append, List.forall_mem_map, List.forall_mem_cons,
    hspecialist, closesOnce_criticPrompt_iff, closesOnce_memoPrompt_iff,
    closesOnce_outreachPrompt_iff, plainTexts, List.forall_mem_flatMap, List.not_mem_nil,
    false_implies, implies_true, and_true]
  constructor
  · rintro ⟨hevidence, ⟨hassessments, -⟩, ⟨⟨hname, hscorecard, hthesis⟩, hmemo⟩,
      ⟨hfounder, hcompany, hbrief⟩, hsummary⟩
    exact ⟨hevidence, hmemo, hassessments, hname, hscorecard, hthesis, hfounder, hcompany, hbrief,
      hsummary⟩
  · rintro ⟨hevidence, hmemo, hassessments, hname, hscorecard, hthesis, hfounder, hcompany, hbrief,
      hsummary⟩
    exact ⟨hevidence, ⟨hassessments, hcut hevidence⟩, ⟨⟨hname, hscorecard, hthesis⟩, hmemo⟩,
      ⟨hfounder, hcompany, hbrief⟩, hsummary⟩

/-- An observation that closes the evidence. -/
def closingInputs : PromptInputs where
  person := adaPerson
  observations := [{
    id := 7
    snapshotId := 1
    subjectId := some 2
    opportunityId := none
    predicate := "bio"
    objectValue := closingTag
    observedAt := 0
    extractorVersion := "web-v1"
    createdAt := 0 }]
  thesisText := []
  assessments := []
  claims := []
  claimObservations := []
  scorecardSummary := []
  thesisSummary := []
  emailType := .founderIntro
  founderName := []
  company := []
  brief := []
  evidenceSummary := []

/-- The evidence of a prompt may end before its end. -/
theorem closes_twice : ¬ ∀ (ucd : Ucd) (floats : FloatText) (inputs : PromptInputs),
    ∀ prompt ∈ userPrompts ucd floats inputs, ClosesOnce prompt := by
  intro h
  have hfloat : ∀ q : ℚ, ∀ c ∈ ("0.0" : Str), c.isDigit = true ∨ c ∈ ['.', 'e', '+', '-'] :=
    fun _ => by decide
  have hmem : specialistPrompt "execution" (buildEvidenceText .ascii closingInputs.observations
      closingInputs.person closingInputs.thesisText).1 ∈
        userPrompts .ascii ⟨fun _ => "0.0", hfloat⟩ closingInputs :=
    List.mem_append_left _ (List.mem_map.mpr ⟨"execution", by decide, rfl⟩)
  have htwice : Str.count closingTag (specialistPrompt "execution"
      (buildEvidenceText .ascii closingInputs.observations closingInputs.person
        closingInputs.thesisText).1) = 2 := by decide +kernel
  have honce := (h _ _ _ _ hmem).1
  rw [htwice] at honce
  cases honce

end Closing

end VCBrain
