import VCBrain.Db.Models
import VCBrain.Foundation.GroupBy
import VCBrain.Redaction

set_option relaxedAutoImplicit false
set_option autoImplicit false

/-!
# The evidence package

`build_evidence_text` renders observations for the agents: a line for the person, and under the
name of each source a line for each observation, with its id in square brackets.

## Main definitions

* `buildEvidenceText` — the text and the ids of the observations.

## Main results

* `bracketed_infix_evidenceText` — the id of every observation is in the text, in square brackets.
-/

namespace VCBrain

variable (ucd : Ucd)

/-- An id in square brackets. -/
def bracketed (id : Str) : Str := '[' :: id ++ [']']

lemma infix_bracketed (id : Str) : id <:+: bracketed id := ⟨['['], [']'], rfl⟩

/-- The name of a source: the version of the extractor without `-v1`. -/
def evidenceSource (obs : Observation) : Str := Str.replace "-v1" "" obs.extractorVersion

/-- The line of an observation. -/
def evidenceLine (obs : Observation) : Str :=
  bracketed (Uuid.str obs.id) ++ ' ' :: obs.predicate ++ ": " ++
    redactDirectIdentifiers ucd (obs.objectValue.take 500)

/-- `person.display_name or person.stable_id`. -/
def nameOrStableId (person : Person) : Str :=
  match person.displayName with
  | some (c :: name) => c :: name
  | _ => person.stableId

/-- The lines of a source, with an empty one at the end. -/
def sourceLines (source : Str) (items : List Observation) : List Str :=
  let heading : Str := "--- " ++ source ++ " ---"
  heading :: items.map (evidenceLine ucd) ++ [[]]

/-- The lines of the thesis, if there is one. -/
def thesisLines (thesisText : Str) : List Str :=
  if thesisText = [] then [] else ["--- thesis alignment ---", thesisText.take 2000, []]

/-- The lines of `build_evidence_text`. -/
def evidenceLines (observations : List Observation) (person : Person) (thesisText : Str) :
    List Str :=
  let heading : Str := "Person: " ++ redactDirectIdentifiers ucd (nameOrStableId person)
  heading :: [] ::
    (groupBy evidenceSource observations).flatMap (fun group => sourceLines ucd group.1 group.2) ++
    thesisLines thesisText

/-- `build_evidence_text`. -/
def buildEvidenceText (observations : List Observation) (person : Person) (thesisText : Str) :
    Str × List Str :=
  (List.intercalate ['\n'] (evidenceLines ucd observations person thesisText),
    observations.map fun obs => Uuid.str obs.id)

/-- A founder known by a handle only. -/
def adaPerson : Person where
  id := 2
  stableId := "github:ada"
  createdAt := 0

example : (buildEvidenceText .ascii [] adaPerson "Seed").1 =
    ("Person: github:ada\n\n--- thesis alignment ---\nSeed\n" : Str) := by
  decide +kernel

variable {ucd} {observations : List Observation} {obs : Observation}

/-- Every observation has its line. -/
lemma evidenceLine_mem (h : obs ∈ observations) (person : Person) (thesisText : Str) :
    evidenceLine ucd obs ∈ evidenceLines ucd observations person thesisText := by
  refine List.mem_append_left _ (List.mem_cons_of_mem _ (List.mem_cons_of_mem _ ?_))
  refine List.mem_flatMap.mpr ?_
  refine ⟨(evidenceSource obs, observations.filter fun x => evidenceSource x = evidenceSource obs),
    mem_groupBy.mpr ⟨⟨obs, h, rfl⟩, rfl⟩, ?_⟩
  refine List.mem_append_left _ (List.mem_cons_of_mem _ (List.mem_map.mpr ⟨obs, ?_, rfl⟩))
  exact List.mem_filter.mpr ⟨h, decide_eq_true rfl⟩

/-- The id of every observation is in the text, in square brackets. -/
lemma bracketed_infix_evidenceText (h : obs ∈ observations) (person : Person) (thesisText : Str) :
    bracketed (Uuid.str obs.id) <:+:
      (buildEvidenceText ucd observations person thesisText).1 := by
  refine List.IsInfix.trans ?_ (Str.infix_intercalate (evidenceLine_mem h person thesisText))
  rw [evidenceLine, List.append_assoc, List.append_assoc]
  exact (List.prefix_append _ _).isInfix

end VCBrain
