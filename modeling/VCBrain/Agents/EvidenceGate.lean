import VCBrain.Agents.AdvancePipeline
import VCBrain.Agents.InboundJob
import VCBrain.Processing.FirstRun

set_option relaxedAutoImplicit false
set_option autoImplicit false

/-!
# An inbound deck at the evidence gate

The lifecycle lets an opportunity leave `received` once it has a current `supported` claim on
the founder. This file determines for which decks the observations of the inbound job pass
that gate without a contradiction.

## Main definitions

* `Uncontradicted` — no claim on the founder within the opportunity is `contradicted`.

## Main results

* `observationsToAdd_eq` — nothing of a first submission is skipped as a duplicate.
* `evidenceGate_iff` — the decks that pass.

## Design

Every page of a deck yields an observation of one predicate, and all other predicates have at
most one. So the group of the pages is the only one with several observations, and it decides.
-/

namespace VCBrain

/-! ## The gate -/

/-- No claim on the person within the opportunity is `contradicted`. -/
def Uncontradicted (db : Db) (personId opportunityId : Uuid) : Prop :=
  ∀ claim ∈ db.claims, InScope personId (some opportunityId) claim →
    claim.status ≠ .contradicted

instance (db : Db) (personId opportunityId : Uuid) :
    Decidable (Uncontradicted db personId opportunityId) :=
  inferInstanceAs (Decidable (∀ claim ∈ db.claims, _ → _))

/-! ## Retry keys -/

/-- The text of a page's locator. -/
private lemma dumps_pdfLocator (page charEnd : ℕ) :
    (pdfLocator page charEnd).dumps =
      ("\x7b\"char_end\":" : Str) ++ (Str.decimal charEnd ++ ',' ::
        (("\"char_start\":0,\"kind\":\"pdf\",\"page\":" : Str) ++
          (Str.decimal page ++ ['}']))) := by
  have hsort : ∀ a b c d : Str,
      Json.sortFields [("kind", a), ("page", b), ("char_start", c), ("char_end", d)] =
        ([("char_end", d), ("char_start", c), ("kind", a), ("page", b)] : List (Str × Str)) :=
    fun a b c d => rfl
  have hnat : ∀ n : ℕ, (Json.int n).dumps = Str.decimal n := fun n => by simp [Json.dumps]
  rw [pdfLocator, Json.dumps]
  simp only [Json.dumpsFields, hsort, hnat, List.map, List.intercalate, List.intersperse,
    List.flatten, Json.quote]
  simp [Json.escapeChar, Json.dumps, Json.quote, show Str.decimal 0 = ['0'] from rfl]

/-- Two pages with the same locator text have the same number. -/
lemma page_eq_of_dumps_eq {p q c d : ℕ} (h : (pdfLocator p c).dumps = (pdfLocator q d).dumps) :
    p = q := by
  have hcomma : ∀ n, ',' ∉ Str.decimal n := fun n hmem =>
    absurd (Str.isDigit_of_mem_decimal hmem) (by decide)
  rw [dumps_pdfLocator, dumps_pdfLocator] at h
  have hrest := List.append_cancel_left h
  have htail := (Str.append_cons_inj (hcomma c) (hcomma d) hrest).2
  exact Str.decimal_injective (List.append_cancel_right (List.append_cancel_left htail))

/-- The pages from number `n` on are numbered from `n` on. -/
lemma exists_page_of_mem_extractPages {n remaining : ℕ} {texts : List Str} {page : Str × Json}
    (h : page ∈ extractPages n remaining texts) : ∃ m c, n ≤ m ∧ page.2 = pdfLocator m c := by
  induction texts generalizing n remaining with
  | nil => simp [extractPages] at h
  | cons text rest ih =>
    simp only [extractPages] at h
    split_ifs at h with hdone
    · simp at h
    · rcases List.mem_cons.mp h with rfl | h
      · exact ⟨n, _, le_rfl, rfl⟩
      · obtain ⟨m, c, hm, heq⟩ := ih h
        exact ⟨m, c, by omega, heq⟩

/-- No two pages of a deck have the same locator text. -/
lemma nodup_locators_extractPages (n remaining : ℕ) (texts : List Str) :
    ((extractPages n remaining texts).map fun page => page.2.dumps).Nodup := by
  induction texts generalizing n remaining with
  | nil => simp [extractPages]
  | cons text rest ih =>
    simp only [extractPages]
    split_ifs with hdone
    · simp
    · rw [List.map_cons, List.nodup_cons]
      refine ⟨fun hmem => ?_, ih _ _⟩
      obtain ⟨page, hpage, heq⟩ := List.mem_map.mp hmem
      obtain ⟨m, c, hm, hlocator⟩ := exists_page_of_mem_extractPages hpage
      rw [hlocator] at heq
      have := page_eq_of_dumps_eq heq
      omega

/-- A field of founder evidence has one predicate, and no other field has it. -/
private lemma field_of_evidencePredicate {f g predicate : Str}
    (hf : evidencePredicates.lookup f = some predicate)
    (hg : evidencePredicates.lookup g = some predicate) : f = g := by
  have htable : ∀ x ∈ evidencePredicates, ∀ y ∈ evidencePredicates, x.2 = y.2 → x.1 = y.1 := by
    decide
  exact htable _ (mem_of_lookup_eq_some hf) _ (mem_of_lookup_eq_some hg) rfl

/-- An extraction of founder evidence has the predicate of its field. -/
private lemma lookup_of_evidenceExtraction {item : Str × Str} {e : Extraction}
    (h : evidenceExtraction item = some e) :
    evidencePredicates.lookup item.1 = some e.predicate := by
  unfold evidenceExtraction at h
  split at h
  · simp at h
  · next predicate hlookup =>
    split_ifs at h with hblank
    obtain rfl := Option.some.inj h
    exact hlookup

/-- The fields of founder evidence yield different predicates. -/
lemma nodup_predicates_evidence (founderEvidence : Dict Str) :
    ((founderEvidence.items.filterMap evidenceExtraction).map Extraction.predicate).Nodup := by
  have hdistinct : founderEvidence.items.Pairwise fun a b => a.1 ≠ b.1 :=
    List.pairwise_map.mp founderEvidence.nodup
  refine List.pairwise_map.mpr (List.pairwise_filterMap.mpr (hdistinct.imp ?_))
  intro a b hab e he f hf heq
  exact hab (field_of_evidencePredicate (lookup_of_evidenceExtraction he)
    (heq ▸ lookup_of_evidenceExtraction hf))

/-- The predicates of founder evidence are not those of pages and company name. -/
lemma predicate_of_mem_evidence {founderEvidence : Dict Str} {e : Extraction}
    (h : e ∈ founderEvidence.items.filterMap evidenceExtraction) :
    e.predicate ≠ "pitch_deck_page_text" ∧ e.predicate ≠ "company_name" := by
  obtain ⟨item, -, hitem⟩ := List.mem_filterMap.mp h
  have htable : ∀ x ∈ evidencePredicates,
      x.2 ≠ ("pitch_deck_page_text" : Str) ∧ x.2 ≠ ("company_name" : Str) := by decide
  exact htable _ (mem_of_lookup_eq_some (lookup_of_evidenceExtraction hitem))

/-! ## The observations of a deck -/

/-- Extractions with different keys that do not exist yet are all kept. -/
lemma deduplicate_eq_self {keys : List (Str × Str × Str × Str)} {es : List Extraction}
    (hnodup : (es.map observationKey).Nodup) (hnew : ∀ e ∈ es, observationKey e ∉ keys) :
    deduplicate keys es = es := by
  induction es generalizing keys with
  | nil => rfl
  | cons e es ih =>
    obtain ⟨hhead, htail⟩ := List.nodup_cons.mp hnodup
    rw [deduplicate, if_neg (hnew e (List.mem_cons_self ..)), ih htail]
    intro f hf hmem
    rcases List.mem_cons.mp hmem with heq | hmem
    · exact hhead (heq ▸ List.mem_map_of_mem hf)
    · exact hnew f (List.mem_cons_of_mem _ hf) hmem

namespace InboundPitch

variable (pitch : InboundPitch)

/-- The extractions of the deck of a submission. -/
def extractions : List Extraction :=
  deckExtractions pitch.pages pitch.companyName pitch.founderEvidence

/-- The predicates other than that of the pages occur once at most. -/
lemma nodup_predicates_rest :
    ((companyExtraction pitch.companyName ::
      pitch.founderEvidence.items.filterMap evidenceExtraction).map
        Extraction.predicate).Nodup := by
  rw [List.map_cons, List.nodup_cons]
  refine ⟨fun hmem => ?_, nodup_predicates_evidence _⟩
  obtain ⟨e, he, heq⟩ := List.mem_map.mp hmem
  exact (predicate_of_mem_evidence he).2 heq

/-- Only pages have the predicate of pages. -/
lemma predicate_of_mem_rest {e : Extraction} (h : e ∈ companyExtraction pitch.companyName ::
    pitch.founderEvidence.items.filterMap evidenceExtraction) :
    e.predicate ≠ "pitch_deck_page_text" := by
  rcases List.mem_cons.mp h with rfl | h
  · show ("company_name" : Str) ≠ ("pitch_deck_page_text" : Str)
    decide
  · exact (predicate_of_mem_evidence h).1

/-- No two extractions of a deck have the same retry key. -/
lemma nodup_observationKeys : (pitch.extractions.map observationKey).Nodup := by
  have hpages : (pitch.pages.map fun page => page.2.dumps).Nodup := by
    unfold pages extractPdfPages
    split
    · simp
    · split_ifs
      · simp
      · simp
      · exact nodup_locators_extractPages ..
  rw [extractions, deckExtractions, List.map_append, List.nodup_append]
  refine ⟨?_, List.Nodup.of_map Prod.fst ?_, ?_⟩
  · refine List.Nodup.of_map (fun key => key.2.2.2) ?_
    rw [List.map_map, List.map_map]
    exact hpages
  · rw [List.map_map]
    exact pitch.nodup_predicates_rest
  · intro k hk k' hk' heq
    obtain ⟨e, he, rfl⟩ := List.mem_map.mp hk
    obtain ⟨page, -, rfl⟩ := List.mem_map.mp he
    obtain ⟨e', he', rfl⟩ := List.mem_map.mp hk'
    exact pitch.predicate_of_mem_rest he' (congrArg Prod.fst heq).symm

variable {pitch} {db : Db}

/-- **Nothing of a first submission is skipped**: without earlier observations on the founder
all extractions of the deck are written. -/
lemma observationsToAdd_eq (hobs : ∀ obs ∈ db.observations, obs.subjectId ≠ some pitch.personId) :
    pitch.observationsToAdd db =
      pitch.extractions.mapIdx fun i e => pitch.observation (pitch.draw i) e := by
  have hexisting : pitch.existing db = [] := by
    simp only [existing, List.filter_eq_nil_iff, decide_eq_true_eq]
    exact fun obs ho h => hobs obs ho h.2.1
  have hkept : deduplicate [] pitch.extractions = pitch.extractions :=
    deduplicate_eq_self pitch.nodup_observationKeys (by simp)
  rw [observationsToAdd, hexisting, List.map_nil, ← extractions, hkept]

/-- A value of the deck: the predicate and value of an extraction are those of its row. -/
lemma mem_observationsToAdd
    (hobs : ∀ obs ∈ db.observations, obs.subjectId ≠ some pitch.personId) {predicate value : Str} :
    (∃ obs ∈ pitch.observationsToAdd db, obs.predicate = predicate ∧ obs.objectValue = value) ↔
      ∃ e ∈ pitch.extractions, e.predicate = predicate ∧ e.objectValue = value := by
  rw [observationsToAdd_eq hobs]
  constructor
  · rintro ⟨obs, hmem, rfl, rfl⟩
    obtain ⟨i, hi, rfl⟩ := List.mem_mapIdx.mp hmem
    exact ⟨pitch.extractions[i], List.getElem_mem hi, rfl, rfl⟩
  · rintro ⟨e, he, rfl, rfl⟩
    obtain ⟨i, hi, rfl⟩ := List.mem_iff_getElem.mp he
    exact ⟨_, List.mem_mapIdx.mpr ⟨i, hi, rfl⟩, rfl, rfl⟩

/-- The values under the predicate of pages are those of the pages. -/
lemma mem_extractions_page {value : Str} :
    (∃ e ∈ pitch.extractions, e.predicate = "pitch_deck_page_text" ∧ e.objectValue = value) ↔
      ∃ page ∈ pitch.pages, pageValue page.1 = value := by
  constructor
  · rintro ⟨e, he, hpredicate, rfl⟩
    rcases List.mem_append.mp he with he | he
    · obtain ⟨page, hpage, rfl⟩ := List.mem_map.mp he
      exact ⟨page, hpage, rfl⟩
    · exact absurd hpredicate (pitch.predicate_of_mem_rest he)
  · rintro ⟨page, hpage, rfl⟩
    exact ⟨pageExtraction page, List.mem_append_left _ (List.mem_map_of_mem hpage), rfl, rfl⟩

/-- How often a predicate occurs: the pages count for theirs only. -/
private lemma count_predicate (predicate : Str) :
    (pitch.extractions.map Extraction.predicate).count predicate =
      (if predicate = "pitch_deck_page_text" then pitch.pages.length else 0) +
        ((companyExtraction pitch.companyName ::
          pitch.founderEvidence.items.filterMap evidenceExtraction).map
            Extraction.predicate).count predicate := by
  have hpages : (pitch.pages.map pageExtraction).map Extraction.predicate =
      List.replicate pitch.pages.length ("pitch_deck_page_text" : Str) := by
    rw [List.map_map]
    exact List.map_const' ..
  rw [extractions, deckExtractions, List.map_append, List.count_append, hpages,
    List.count_replicate]
  by_cases h : predicate = "pitch_deck_page_text"
  · subst h
    simp
  · rw [if_neg h, if_neg (by simpa using Ne.symm h)]

/-- The predicate of pages occurs once for each page. -/
lemma count_page :
    (pitch.extractions.map Extraction.predicate).count ("pitch_deck_page_text" : Str) =
      pitch.pages.length := by
  rw [count_predicate, if_pos rfl, List.count_eq_zero_of_not_mem, add_zero]
  intro hmem
  obtain ⟨e, he, heq⟩ := List.mem_map.mp hmem
  exact pitch.predicate_of_mem_rest he heq

variable (pitch) in
/-- Every other predicate occurs once at most. -/
lemma count_le_one {predicate : Str} (h : predicate ≠ "pitch_deck_page_text") :
    (pitch.extractions.map Extraction.predicate).count predicate ≤ 1 := by
  rw [count_predicate, if_neg h, zero_add]
  exact List.nodup_iff_count_le_one.mp pitch.nodup_predicates_rest predicate

/-! ## The groups of the deck -/

/-- The pages of the deck agree up to surrounding whitespace. -/
def PagesAgree (pitch : InboundPitch) : Prop :=
  ∀ a ∈ pitch.pages, ∀ b ∈ pitch.pages, (pageValue a.1).strip = (pageValue b.1).strip

instance (pitch : InboundPitch) : Decidable pitch.PagesAgree :=
  inferInstanceAs (Decidable (∀ a ∈ pitch.pages, ∀ b ∈ pitch.pages, _))

variable {db₁ : Db} {n : ℕ}

/-- What the job leaves are the observations of the deck. -/
lemma perm_observationsOf
    (hobs : ∀ obs ∈ db.observations, obs.subjectId ≠ some pitch.personId)
    (h : processInboundPitch pitch db = .ok (db₁, n)) :
    db₁.claims = db.claims ∧
      (observationsOf pitch.personId db₁).Perm (pitch.observationsToAdd db) := by
  unfold processInboundPitch at h
  split_ifs at h with hsnapshot hpdf
  simp only at h
  split at h
  · simp at h
  · next rows hrows =>
    obtain ⟨rfl, -⟩ := Prod.mk.inj (Except.ok.inj h)
    obtain rfl := foldlM_insertObservation_eq_some hrows
    have hold : db.observations.filter (fun obs => obs.subjectId = some pitch.personId) = [] := by
      simpa [List.filter_eq_nil_iff] using hobs
    have hnew : (pitch.observationsToAdd db).filter
        (fun obs => obs.subjectId = some pitch.personId) = pitch.observationsToAdd db := by
      rw [List.filter_eq_self]
      intro obs hmem
      obtain ⟨i, hi, rfl⟩ := List.mem_mapIdx.mp hmem
      simp [observation]
    refine ⟨rfl, (List.perm_insertionSort _ _).trans ?_⟩
    rw [List.filter_append, hold, hnew, List.nil_append]

/-- A group of the deck holds the observations of one predicate. -/
lemma length_group (hobs : ∀ obs ∈ db.observations, obs.subjectId ≠ some pitch.personId)
    (h : processInboundPitch pitch db = .ok (db₁, n))
    {kg : GroupKey × List Observation}
    (hkg : kg ∈ groupBy Observation.key (observationsOf pitch.personId db₁))
    (hscope : kg.1.2 = some pitch.opportunityId) :
    kg.2.length = (pitch.extractions.map Extraction.predicate).count kg.1.1 := by
  obtain ⟨⟨predicate, opportunityId⟩, group⟩ := kg
  obtain rfl : opportunityId = some pitch.opportunityId := hscope
  obtain ⟨-, rfl⟩ := mem_groupBy.mp hkg
  have hpredicates : (pitch.observationsToAdd db).map Observation.predicate =
      pitch.extractions.map Extraction.predicate := by
    rw [observationsToAdd_eq hobs]
    exact List.ext_getElem (by simp) (by simp [observation])
  have hopportunity : ∀ obs ∈ pitch.observationsToAdd db,
      obs.opportunityId = some pitch.opportunityId := by
    intro obs hmem
    obtain ⟨i, hi, rfl⟩ := List.mem_mapIdx.mp hmem
    rfl
  rw [← hpredicates, ← List.countP_eq_length_filter, (perm_observationsOf hobs h).2.countP_eq,
    List.count, List.countP_map]
  refine List.countP_congr fun obs hmem => ?_
  simp [Observation.key, hopportunity obs hmem]

/-- A group of the deck with several observations is that of the pages. -/
lemma page_of_two_le_length
    (hobs : ∀ obs ∈ db.observations, obs.subjectId ≠ some pitch.personId)
    (h : processInboundPitch pitch db = .ok (db₁, n))
    {kg : GroupKey × List Observation}
    (hkg : kg ∈ groupBy Observation.key (observationsOf pitch.personId db₁))
    (hscope : kg.1.2 = some pitch.opportunityId) (hlength : 2 ≤ kg.2.length) :
    kg.1 = (("pitch_deck_page_text" : Str), some pitch.opportunityId) := by
  rw [length_group hobs h hkg hscope] at hlength
  by_contra hne
  have hpredicate : kg.1.1 ≠ "pitch_deck_page_text" := fun heq => hne (Prod.ext heq hscope)
  have := pitch.count_le_one hpredicate
  omega

/-- The group of the pages is contested unless the pages agree. -/
lemma contested_page_iff
    (hobs : ∀ obs ∈ db.observations, obs.subjectId ≠ some pitch.personId)
    (h : processInboundPitch pitch db = .ok (db₁, n))
    {kg : GroupKey × List Observation}
    (hkg : kg ∈ groupBy Observation.key (observationsOf pitch.personId db₁))
    (hpage : kg.1 = (("pitch_deck_page_text" : Str), some pitch.opportunityId)) :
    Contested kg.2 ↔ ¬ pitch.PagesAgree := by
  obtain ⟨key, group⟩ := kg
  obtain rfl := hpage
  have hvalues : ∀ value, (∃ obs ∈ group, obs.objectValue = value) ↔
      ∃ page ∈ pitch.pages, pageValue page.1 = value := by
    intro value
    obtain ⟨-, rfl⟩ := mem_groupBy.mp hkg
    rw [← mem_extractions_page, ← mem_observationsToAdd hobs]
    simp only [List.mem_filter, (perm_observationsOf hobs h).2.mem_iff, decide_eq_true_eq,
      Observation.key, Prod.mk.injEq]
    constructor
    · rintro ⟨obs, ⟨hmem, hpredicate, -⟩, hvalue⟩
      exact ⟨obs, hmem, hpredicate, hvalue⟩
    · rintro ⟨obs, hmem, hpredicate, hvalue⟩
      refine ⟨obs, ⟨hmem, hpredicate, ?_⟩, hvalue⟩
      obtain ⟨i, hi, rfl⟩ := List.mem_mapIdx.mp hmem
      rfl
  rw [contested_iff, PagesAgree]
  push Not
  constructor
  · rintro ⟨a, ha, b, hb, hne⟩
    obtain ⟨p, hp, hpa⟩ := (hvalues _).mp ⟨a, ha, rfl⟩
    obtain ⟨q, hq, hqb⟩ := (hvalues _).mp ⟨b, hb, rfl⟩
    exact ⟨p, hp, q, hq, by rwa [hpa, hqb]⟩
  · rintro ⟨p, hp, q, hq, hne⟩
    obtain ⟨a, ha, hap⟩ := (hvalues _).mpr ⟨p, hp, rfl⟩
    obtain ⟨b, hb, hbq⟩ := (hvalues _).mpr ⟨q, hq, rfl⟩
    exact ⟨a, ha, b, hb, by rwa [hap, hbq]⟩

/-- A deck with a page has a group of pages. -/
lemma exists_page_group
    (hobs : ∀ obs ∈ db.observations, obs.subjectId ≠ some pitch.personId)
    (h : processInboundPitch pitch db = .ok (db₁, n)) (hpages : pitch.pages ≠ []) :
    ∃ group, ((("pitch_deck_page_text" : Str), some pitch.opportunityId), group) ∈
      groupBy Observation.key (observationsOf pitch.personId db₁) := by
  obtain ⟨page, rest, heq⟩ := List.exists_cons_of_ne_nil hpages
  obtain ⟨obs, hmem, hpredicate, -⟩ := (mem_observationsToAdd hobs).mpr
    (mem_extractions_page.mpr ⟨page, by simp [heq], rfl⟩)
  refine ⟨_, mem_groupBy.mpr ⟨⟨obs, (perm_observationsOf hobs h).2.mem_iff.mpr hmem, ?_⟩, rfl⟩⟩
  refine Prod.ext hpredicate ?_
  obtain ⟨i, hi, rfl⟩ := List.mem_mapIdx.mp hmem
  rfl

end InboundPitch

/-! ## The decks that pass the gate -/

/-- **The evidence gate.** For a founder without other observations and an opportunity without
claims, the pipeline leaves no contradiction and passes the gate exactly if the deck has at
least two pages and all pages carry the same text.

**Proof sketch.** The first run over the scope contradicts what contested groups say and supports
what groups of several observations agree on. The group of the pages is the only one with
several observations. -/
theorem evidenceGate_iff (pitch : InboundPitch) {now : Time} {draw : ℕ → Uuid} {db db' : Db}
    (hobs : ∀ obs ∈ db.observations, obs.subjectId ≠ some pitch.personId)
    (hclaims : ∀ claim ∈ db.claims, ¬ InScope pitch.personId (some pitch.opportunityId) claim)
    (h : inboundPitchPipeline pitch now draw db = some db') :
    (Uncontradicted db' pitch.personId pitch.opportunityId ∧
      HasScopedClaims db' pitch.personId pitch.opportunityId) ↔
    2 ≤ pitch.pages.length ∧ pitch.PagesAgree := by
  obtain ⟨⟨db₁, n⟩, hjob, hrest⟩ := Option.bind_eq_some_iff.mp h
  obtain ⟨⟨db₂, m⟩, hrun, hdb⟩ := Option.bind_eq_some_iff.mp hrest
  obtain rfl : db₂ = db' := Option.some.inj hdb
  have hparse : processInboundPitch pitch db = .ok (db₁, n) := by
    cases hp : processInboundPitch pitch db with
    | error e => simp [hp, Except.toOption] at hjob
    | ok r => simpa [hp, Except.toOption] using hjob
  have hfresh : ∀ claim ∈ db₁.claims,
      ¬ InScope pitch.personId (some pitch.opportunityId) claim := by
    rwa [(InboundPitch.perm_observationsOf hobs hparse).1]
  have hcontradicted : Uncontradicted db₂ pitch.personId pitch.opportunityId ↔
      ¬ ∃ kg ∈ groupBy Observation.key (observationsOf pitch.personId db₁),
        kg.1.2 = some pitch.opportunityId ∧ Contested kg.2 := by
    rw [← contradicted_firstRun_iff hrun hfresh, Uncontradicted]
    push Not
    rfl
  have hgate : HasScopedClaims db₂ pitch.personId pitch.opportunityId ↔ _ :=
    supported_firstRun_iff hrun hfresh
  rw [hcontradicted, hgate]
  constructor
  · rintro ⟨-, kg, hkg, hscope, hlength, hnot⟩
    have hpage := InboundPitch.page_of_two_le_length hobs hparse hkg hscope hlength
    rw [InboundPitch.length_group hobs hparse hkg hscope, hpage, InboundPitch.count_page]
      at hlength
    rw [InboundPitch.contested_page_iff hobs hparse hkg hpage] at hnot
    exact ⟨hlength, not_not.mp hnot⟩
  · rintro ⟨hlength, hagree⟩
    have hnone : ∀ kg ∈ groupBy Observation.key (observationsOf pitch.personId db₁),
        kg.1.2 = some pitch.opportunityId → ¬ Contested kg.2 := by
      intro kg hkg hscope hcontested
      have hpage := InboundPitch.page_of_two_le_length hobs hparse hkg hscope
        hcontested.two_le_length
      exact (InboundPitch.contested_page_iff hobs hparse hkg hpage).mp hcontested hagree
    obtain ⟨group, hkg⟩ := InboundPitch.exists_page_group hobs hparse
      (List.ne_nil_of_length_pos (by omega))
    refine ⟨fun ⟨kg, hkg, hscope, hc⟩ => hnone kg hkg hscope hc, _, hkg, rfl, ?_,
      hnone _ hkg rfl⟩
    rw [InboundPitch.length_group hobs hparse hkg rfl, InboundPitch.count_page]
    exact hlength

/-- A submission of person 1 to opportunity 2 with a deck of the given pages. -/
def samplePitch (texts : List Str) : InboundPitch where
  personId := 1
  snapshotId := 3
  opportunityId := 2
  companyName := "Acme"
  founderEvidence := Dict.empty
  pdf := some texts
  now := 0
  md5 := fun bytes => bytes.map fun b => Char.ofNat b.toNat
  draw := fun n => Fin.ofNat _ (100 + n)

/-- A deck of two identical pages passes. -/
theorem evidenceGate_iff_twoEqualPages :
    ∃ db', inboundPitchPipeline (samplePitch ["Team", "Team"]) 0 (fun n => Fin.ofNat _ (200 + n))
        {} = some db' ∧ Uncontradicted db' 1 2 ∧ HasScopedClaims db' 1 2 := by
  obtain ⟨db', h⟩ := Option.isSome_iff_exists.mp (by decide +kernel :
    (inboundPitchPipeline (samplePitch ["Team", "Team"]) 0 (fun n => Fin.ofNat _ (200 + n))
      {}).isSome)
  exact ⟨db', h, (evidenceGate_iff (samplePitch ["Team", "Team"]) (by simp) (by simp) h).mpr
    (by decide +kernel)⟩

/-- A deck of two different pages is contradicted and does not pass. -/
theorem not_evidenceGate_twoPages :
    ∃ db' ∈ inboundPitchPipeline (samplePitch ["Team", "Market"]) 0
        (fun n => Fin.ofNat _ (200 + n)) {},
      ¬ Uncontradicted db' 1 2 ∧ ¬ HasScopedClaims db' 1 2 := by
  decide +kernel

end VCBrain
