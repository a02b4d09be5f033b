import VCBrain.Agents.MemoCitations
import VCBrain.Agents.Scoring

set_option relaxedAutoImplicit false
set_option autoImplicit false

/-!
# The generation of a memo

`generate_memo` reads the sections of a memo from an answer of the model, adds those that are
missing, validates the citations, and gives the memo a status.

## Main definitions

* `generateMemo` — the memo for an answer of the model.
* `Memo.Complete` — all sections are there with a text, and they are cited.

## Main results

* `succeeded_complete_iff` — the answers for which a memo that succeeded is complete.

## Design

The prompt is modelled with those of the other agents. A title stands for a required section if the
two agree without regard to case, as in the source.
-/

namespace VCBrain

/-- `Memo.status`. -/
inductive MemoStatus where
  | pending
  | failed
  | degraded
  | succeeded
deriving DecidableEq

/-- `Memo`. -/
structure Memo where
  sections : List MemoSection
  modelVersion : Str
  generationMode : Str
  status : MemoStatus
  validationErrors : List Str := []

/-- `REQUIRED_SECTIONS`. -/
def requiredSections : List Str :=
  ["Company snapshot", "Investment hypotheses", "SWOT", "Problem and product", "Traction and KPIs"]

/-- `_fallback_memo`. -/
def fallbackMemo (personName : Str) (status : MemoStatus) : Memo where
  sections := requiredSections.map fun title =>
    { title := title
      text := '[' :: title ++ " for " ++ personName ++ "] — memo generation pending LLM " ++
        "availability. Evidence has been collected and is available for manual review." }
  modelVersion := "template"
  generationMode := "template_fallback"
  status := status

section Payload

variable (lib : Libraries)

/-- The ids of an item, none if they are no list. -/
def itemIds (key : Str) (item : Json) : List Str :=
  match (item.get? key).getD (.arr []) with
  | .arr ids => ids.map (Json.pyStr lib.repr)
  | _ => []

/-- The section of an item, none if it is no object. -/
def readSection (item : Json) : Option MemoSection :=
  match item with
  | .obj _ =>
    some
      { title := readText lib "title" item
        text := readText lib "text" item
        evidenceIds := itemIds lib "evidence_ids" item
        claimIds := itemIds lib "claim_ids" item }
  | _ => none

/-- The sections of a payload: `none` if reading it raises. -/
def payloadSections : Json → Option (List MemoSection)
  | .obj fields =>
    match (Json.get? "sections" (.obj fields)).getD (.arr []) with
    | .arr items => some (items.filterMap (readSection lib))
    -- the characters of a text and the keys of an object are no objects
    | .str _ | .obj _ => some []
    | _ => none
  | _ => none

end Payload

section Generation

variable (lib : Libraries) (ucd : Ucd)

/-- The required sections that no section has the title of. -/
def missingSections (sections : List MemoSection) : List Str :=
  requiredSections.filter fun required =>
    ucd.lower required ∉ sections.map fun s => ucd.lower s.title

/-- The section that is added for a missing one. -/
def missingSection (required : Str) : MemoSection where
  title := required
  text := '[' :: required ++ "] — not available from current evidence."

/-- The memo of the sections that were read. -/
def concludeMemo (model : Str) (allowedClaimIds allowedEvidenceIds : Option (List Str))
    (sections : List MemoSection) : Memo :=
  let missing := missingSections ucd sections
  let validated := validateMemoCitations ucd allowedClaimIds allowedEvidenceIds
    (sections ++ missing.map missingSection)
  { sections := validated.1
    modelVersion := model
    generationMode := "agent"
    status := if missing ≠ [] ∨ validated.2 ≠ [] then .failed else .succeeded
    validationErrors := validated.2 }

/-- `generate_memo`: `none` if it raises. -/
def generateMemo (personName apiKey model : Str)
    (allowedClaimIds allowedEvidenceIds : Option (List Str)) (call : ModelCall) : Option Memo :=
  if apiKey = [] then some (fallbackMemo personName .degraded)
  else
    match call with
    | .failed => some (fallbackMemo personName .degraded)
    | .answered content =>
      match lib.loads (contentOf content) with
      | .malformed => some (fallbackMemo personName .failed)
      | .raised => none
      | .value payload => (payloadSections lib payload).map
          (concludeMemo ucd model allowedClaimIds allowedEvidenceIds)

/-! ## Complete memos -/

/-- The section has the title of a required one. -/
def HasTitle (required : Str) (s : MemoSection) : Prop := ucd.lower s.title = ucd.lower required

/-- The section has no text but whitespace. -/
def IsBlank (s : MemoSection) : Prop := Str.strip s.text = []

/-- The section cites allowed ids only. -/
def CitesAllowed (claimIds evidenceIds : List Str) (s : MemoSection) : Prop :=
  (∀ id ∈ s.claimIds, id ∈ claimIds) ∧ ∀ id ∈ s.evidenceIds, id ∈ evidenceIds

/-- A section with a sentence that requires support cites a claim and a piece of evidence. -/
def CitesSupport (s : MemoSection) : Prop :=
  factualText ucd s = true → s.claimIds ≠ [] ∧ s.evidenceIds ≠ []

/-- Every required section is there with a text, and the sections are cited. -/
structure Memo.Complete (claimIds evidenceIds : List Str) (memo : Memo) : Prop where
  present : ∀ required ∈ requiredSections,
    ∃ s ∈ memo.sections, HasTitle ucd required s ∧ ¬ IsBlank s
  allowed : ∀ s ∈ memo.sections, CitesAllowed claimIds evidenceIds s
  supported : ∀ s ∈ memo.sections, CitesSupport ucd s

/-- The answer is an object with these sections. -/
def AnswersSections (call : ModelCall) (sections : List MemoSection) : Prop :=
  ∃ content payload, call = .answered content ∧ lib.loads (contentOf content) = .value payload ∧
    payloadSections lib payload = some sections

/-- All sections with the title of a required one are blank. -/
def OnlyBlank (sections : List MemoSection) (required : Str) : Prop :=
  ∀ s ∈ sections, HasTitle ucd required s → IsBlank s

end Generation

section Complete

variable {lib : Libraries} {ucd : Ucd} {personName apiKey model : Str}
  {claimIds evidenceIds : List Str} {call : ModelCall} {sections : List MemoSection}
  {s : MemoSection}

lemma sortedSet_ne_nil {ids : List Str} : sortedSet ids ≠ [] ↔ ids ≠ [] := by
  rw [ne_eq, ne_eq, List.eq_nil_iff_forall_not_mem, List.eq_nil_iff_forall_not_mem]
  simp only [mem_sortedSet]

lemma citesAllowed_sortCitations :
    CitesAllowed claimIds evidenceIds (sortCitations s) ↔ CitesAllowed claimIds evidenceIds s :=
  and_congr forall_mem_sortedSet forall_mem_sortedSet

lemma citesSupport_sortCitations : CitesSupport ucd (sortCitations s) ↔ CitesSupport ucd s :=
  imp_congr_right fun _ => and_congr sortedSet_ne_nil sortedSet_ne_nil

/-- A section has no errors exactly if it cites what it may and what it must. -/
lemma citationErrors_eq_nil_iff : citationErrors ucd (some claimIds) (some evidenceIds) s = [] ↔
    CitesAllowed claimIds evidenceIds s ∧ CitesSupport ucd s := by
  have hfactual : ∀ b : Bool, ∀ ids : List Str,
      (b && ids.isEmpty) = false ↔ (b = true → ids ≠ []) := by
    intro b ids
    cases b <;> cases ids <;> simp
  simp only [citationErrors, List.append_eq_nil_iff, ite_eq_left_iff, ite_eq_right_iff,
    List.cons_ne_nil, imp_false, not_not, unknownIds_eq_nil_iff, Option.isSome_some,
    Bool.and_true, Bool.not_eq_true, hfactual]
  constructor
  · rintro ⟨⟨hallowed, hclaims⟩, hevidence⟩
    exact ⟨hallowed, fun h => ⟨hclaims h, hevidence h⟩⟩
  · rintro ⟨hallowed, hsupport⟩
    exact ⟨⟨hallowed, fun h => (hsupport h).1⟩, fun h => (hsupport h).2⟩

/-- No section is missing exactly if each required title is there. -/
lemma missingSections_eq_nil_iff : missingSections ucd sections = [] ↔
    ∀ required ∈ requiredSections, ∃ s ∈ sections, HasTitle ucd required s := by
  simp only [missingSections, List.filter_eq_nil_iff, decide_eq_true_eq, not_not, List.mem_map,
    HasTitle]

/-- A memo of sections that were read has succeeded exactly if none is missing and all of them are
cited. -/
lemma status_concludeMemo_iff :
    (concludeMemo ucd model (some claimIds) (some evidenceIds) sections).status = .succeeded ↔
      (∀ required ∈ requiredSections, ∃ s ∈ sections, HasTitle ucd required s) ∧
        ∀ s ∈ sections, CitesAllowed claimIds evidenceIds s ∧ CitesSupport ucd s := by
  have hstatus : (concludeMemo ucd model (some claimIds) (some evidenceIds) sections).status =
      .succeeded ↔ missingSections ucd sections = [] ∧
        (validateMemoCitations ucd (some claimIds) (some evidenceIds)
          (sections ++ (missingSections ucd sections).map missingSection)).2 = [] := by
    simp only [concludeMemo]
    split_ifs with hfailed
    · refine iff_of_false nofun fun ⟨hmissing, herrors⟩ => ?_
      exact hfailed.elim (fun h => h hmissing) fun h => h herrors
    · rw [not_or, not_not, not_not] at hfailed
      exact iff_of_true rfl hfailed
  rw [hstatus, ← missingSections_eq_nil_iff]
  refine and_congr_right fun hmissing => ?_
  rw [hmissing, List.map_nil, List.append_nil, validateMemoCitations, List.flatMap_eq_nil_iff]
  simp only [List.forall_mem_map, citationErrors_eq_nil_iff, citesAllowed_sortCitations,
    citesSupport_sortCitations]

/-- The sections of a memo that has succeeded are those that were read. -/
lemma sections_concludeMemo (h : missingSections ucd sections = []) :
    (concludeMemo ucd model (some claimIds) (some evidenceIds) sections).sections =
      sections.map sortCitations := by
  simp only [concludeMemo, validateMemoCitations, h, List.map_nil, List.append_nil]

/-- A memo that has succeeded is complete exactly if no required section has a blank text only. -/
lemma complete_concludeMemo_iff
    (h : (concludeMemo ucd model (some claimIds) (some evidenceIds) sections).status = .succeeded) :
    (concludeMemo ucd model (some claimIds) (some evidenceIds) sections).Complete ucd claimIds
        evidenceIds ↔ ∀ required ∈ requiredSections, ¬ OnlyBlank ucd sections required := by
  obtain ⟨htitles, hcited⟩ := status_concludeMemo_iff.mp h
  have hsections := @sections_concludeMemo ucd model claimIds evidenceIds sections
    (missingSections_eq_nil_iff.mpr htitles)
  have hblank : ∀ required, ¬ OnlyBlank ucd sections required ↔
      ∃ s ∈ sections, HasTitle ucd required s ∧ ¬ IsBlank s := by
    intro required
    simp only [OnlyBlank, not_forall, exists_prop]
  constructor
  · intro hcomplete required hrequired
    obtain ⟨sorted, hsorted, htitle, htext⟩ := hcomplete.present required hrequired
    rw [hsections] at hsorted
    obtain ⟨s, hs, rfl⟩ := List.mem_map.mp hsorted
    exact (hblank required).mpr ⟨s, hs, htitle, htext⟩
  · intro htexts
    refine ⟨fun required hrequired => ?_, fun sorted hsorted => ?_, fun sorted hsorted => ?_⟩
    · obtain ⟨s, hs, htitle, htext⟩ := (hblank required).mp (htexts required hrequired)
      refine ⟨sortCitations s, ?_, htitle, htext⟩
      rw [hsections]
      exact List.mem_map_of_mem hs
    · rw [hsections] at hsorted
      obtain ⟨s, hs, rfl⟩ := List.mem_map.mp hsorted
      exact citesAllowed_sortCitations.mpr (hcited s hs).1
    · rw [hsections] at hsorted
      obtain ⟨s, hs, rfl⟩ := List.mem_map.mp hsorted
      exact citesSupport_sortCitations.mpr (hcited s hs).2

/-- What `generate_memo` returns. -/
lemma generateMemo_cases {memo : Memo} (h : generateMemo lib ucd personName apiKey model
    (some claimIds) (some evidenceIds) call = some memo) :
    (memo.status = .degraded ∨ memo.status = .failed) ∨
      apiKey ≠ [] ∧ ∃ sections, AnswersSections lib call sections ∧
        memo = concludeMemo ucd model (some claimIds) (some evidenceIds) sections := by
  unfold generateMemo at h
  split_ifs at h with hkey
  · obtain rfl := Option.some.inj h
    exact Or.inl (Or.inl rfl)
  · cases call with
    | failed =>
      obtain rfl := Option.some.inj h
      exact Or.inl (Or.inl rfl)
    | answered content =>
      cases hloads : lib.loads (contentOf content) with
      | malformed =>
        simp only [hloads] at h
        obtain rfl := Option.some.inj h
        exact Or.inl (Or.inr rfl)
      | raised =>
        simp only [hloads] at h
        cases h
      | value payload =>
        simp only [hloads] at h
        obtain ⟨sections, hsections, rfl⟩ := Option.map_eq_some_iff.mp h
        exact Or.inr ⟨hkey, sections, ⟨content, payload, rfl, hloads, hsections⟩, rfl⟩

/-- The memo of an answer with sections. -/
lemma generateMemo_of_answersSections (hkey : apiKey ≠ [])
    (h : AnswersSections lib call sections) :
    generateMemo lib ucd personName apiKey model (some claimIds) (some evidenceIds) call =
      some (concludeMemo ucd model (some claimIds) (some evidenceIds) sections) := by
  obtain ⟨content, payload, rfl, hloads, hsections⟩ := h
  simp only [generateMemo, if_neg hkey, hloads, hsections, Option.map_some]

variable (lib ucd personName apiKey model claimIds evidenceIds call) in
/-- **Complete memos.** A memo that has succeeded is complete exactly if the answer lacks a required
section, has one that is not cited as it must, or has no required section with blank texts only.

**Proof sketch.** A memo succeeds only if no title is missing and no section has an error. The text
of a section is looked at for sentences that need support, and blank text has none. -/
theorem succeeded_complete_iff :
    (∀ memo, generateMemo lib ucd personName apiKey model (some claimIds) (some evidenceIds) call =
        some memo → memo.status = .succeeded → memo.Complete ucd claimIds evidenceIds) ↔
      apiKey = [] ∨ ∀ sections, AnswersSections lib call sections →
        (∃ required ∈ requiredSections, ∀ s ∈ sections, ¬ HasTitle ucd required s) ∨
          (∃ s ∈ sections, ¬ (CitesAllowed claimIds evidenceIds s ∧ CitesSupport ucd s)) ∨
          ∀ required ∈ requiredSections, ¬ OnlyBlank ucd sections required := by
  constructor
  · intro h
    by_cases hkey : apiKey = []
    · exact Or.inl hkey
    · refine Or.inr fun sections hsections => ?_
      by_cases hstatus :
          (concludeMemo ucd model (some claimIds) (some evidenceIds) sections).status = .succeeded
      · have hcomplete := h _ (generateMemo_of_answersSections hkey hsections) hstatus
        exact Or.inr (Or.inr ((complete_concludeMemo_iff hstatus).mp hcomplete))
      · rw [status_concludeMemo_iff, not_and_or] at hstatus
        rcases hstatus with hmissing | hcited
        · refine Or.inl ?_
          push Not at hmissing
          exact hmissing
        · refine Or.inr (Or.inl ?_)
          simpa only [not_forall, exists_prop] using hcited
  · intro h memo hmemo hstatus
    rcases generateMemo_cases hmemo with (hdegraded | hfailed) | ⟨hkey, sections, hsections, rfl⟩
    · rw [hdegraded] at hstatus
      cases hstatus
    · rw [hfailed] at hstatus
      cases hstatus
    · refine (complete_concludeMemo_iff hstatus).mpr ?_
      obtain ⟨htitles, hcited⟩ := status_concludeMemo_iff.mp hstatus
      rcases h.resolve_left hkey sections hsections with ⟨required, hrequired, hmissing⟩ |
        ⟨s, hs, hnot⟩ | htexts
      · obtain ⟨s, hs, htitle⟩ := htitles required hrequired
        exact absurd htitle (hmissing s hs)
      · exact absurd (hcited s hs) hnot
      · exact htexts

/-- An answer whose sections have titles and no texts. -/
def emptySections : Str :=
  "\x7b\"sections\": [\x7b\"title\": \"Company snapshot\", \"text\": \"\"\x7d, " ++
    "\x7b\"title\": \"Investment hypotheses\"\x7d, \x7b\"title\": \"SWOT\"\x7d, " ++
    "\x7b\"title\": \"Problem and product\"\x7d, \x7b\"title\": \"Traction and KPIs\"\x7d]\x7d"

/-- The fields of its sections. -/
def emptySectionItems : List Json :=
  [.obj [("title", .str "Company snapshot"), ("text", .str "")],
    .obj [("title", .str "Investment hypotheses")], .obj [("title", .str "SWOT")],
    .obj [("title", .str "Problem and product")], .obj [("title", .str "Traction and KPIs")]]

/-- A memo of titles succeeds. -/
theorem not_succeeded_complete_empty :
    ¬ ∀ memo, generateMemo plainLibraries .ascii "Ada" "key" "model" (some []) (some [])
        (.answered (some emptySections)) = some memo → memo.status = .succeeded →
      memo.Complete .ascii [] [] := by
  intro h
  have hcontent : contentOf (some emptySections) = emptySections := by
    decide +kernel
  have hvalue : Json.loads emptySections = some (.obj [("sections", .arr emptySectionItems)]) := by
    decide +kernel
  have hloads : plainLibraries.loads (contentOf (some emptySections)) =
      .value (.obj [("sections", .arr emptySectionItems)]) := by
    rw [hcontent]
    simp only [plainLibraries, hvalue, Option.map_some, Option.getD_some]
  have hsections : AnswersSections plainLibraries (.answered (some emptySections))
      (requiredSections.map fun title => { title := title, text := [] }) :=
    ⟨some emptySections, _, rfl, hloads, rfl⟩
  have hstatus : (concludeMemo .ascii "model" (some []) (some [])
      (requiredSections.map fun title => { title := title, text := [] })).status = .succeeded := by
    decide +kernel
  have hcomplete := h _ (generateMemo_of_answersSections (by decide) hsections) hstatus
  refine (complete_concludeMemo_iff hstatus).mp hcomplete "SWOT" (by decide) fun s hs _ => ?_
  obtain ⟨title, -, rfl⟩ := List.mem_map.mp hs
  rfl

end Complete

end VCBrain
