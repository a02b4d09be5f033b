import VCBrain.Api.Candidates
import VCBrain.Scoring.ThesisPin

set_option relaxedAutoImplicit false
set_option autoImplicit false

/-!
# The current opportunity of a person

Four queries look for the current opportunity of a person. The candidate list ranks opportunities
by creation and id. The candidate detail and the collection routes order them by creation alone, and
the scores are joined to all opportunities that were created last.

## Main definitions

* `detailOpportunity`, `currentOpportunity` — the opportunity of the detail and of the routes.
* `fetchOpportunityScore` — the score of the current opportunity.
* `ViewsAgree` — all of them are about the opportunity of the candidate list.

## Main results

* `viewsAgree_iff` — they agree, whatever the order of equal rows, exactly if one opportunity only
  was created last.

## Design

The order in which a query returns rows it is not told to order is open.
-/

namespace VCBrain

/-! ## The queries -/

/-- The opportunities of a person. -/
def personOpportunities (db : Db) (personId : Uuid) : List Opportunity :=
  (db.opportunityFounders.filter fun link => link.personId = personId).filterMap fun link =>
    db.opportunity? link.opportunityId

/-- The query of `get_candidate`: `ORDER BY created_at DESC LIMIT 1`. -/
def detailOpportunity (order : RowOrder Opportunity) (db : Db) (personId : Uuid) :
    Option Opportunity :=
  latest Opportunity.createdAt (order.arrange (personOpportunities db personId))

/-- `_current_opportunity` of the collection routes. -/
def currentOpportunity (order : RowOrder Opportunity) (db : Db) (personId : Uuid) :
    Option Opportunity :=
  latest Opportunity.createdAt (order.arrange (personOpportunities db personId))

/-- `latest_opp.c.max_created`, for the persons that are asked for. -/
def maxCreated (db : Db) (personIds : List Uuid) (personId : Uuid) : Option Time :=
  if personId ∈ personIds then ((personOpportunities db personId).map Opportunity.createdAt).max?
  else none

/-- A canonical score of an opportunity. -/
def CanonicalScore (opportunityId : Uuid) (s : ScoreSnapshot) : Prop :=
  s.subjectId = opportunityId ∧ s.subjectType = "opportunity" ∧
    s.rubricVersion = "opportunity-axes-v1"

instance (opportunityId : Uuid) : DecidablePred (CanonicalScore opportunityId) :=
  fun _ => inferInstanceAs (Decidable (_ ∧ _))

/-- The rows of `_fetch_opportunity_scores`. -/
def scoreRows (db : Db) (personIds : List Uuid) : List (Uuid × ScoreSnapshot) :=
  db.opportunityFounders.flatMap fun link =>
    ((db.opportunity? link.opportunityId).toList.filter fun o =>
      maxCreated db personIds link.personId = some o.createdAt).flatMap fun o =>
        (db.scoreSnapshots.filter fun s => CanonicalScore o.id s).map fun s => (link.personId, s)

/-- The entry of a person in `_fetch_opportunity_scores`: the first row, newest scores first. -/
def fetchOpportunityScore (order : RowOrder (Uuid × ScoreSnapshot)) (db : Db)
    (personIds : List Uuid) (personId : Uuid) : Option ScoreSnapshot :=
  (((order.arrange (scoreRows db personIds)).insertionSort fun a b =>
    b.2.createdAt ≤ a.2.createdAt).find? fun row => row.1 = personId).map Prod.snd

/-- The views of a person are about the opportunity of the candidate list. -/
structure ViewsAgree (db : Db) (personId : Uuid) (detail routes : RowOrder Opportunity)
    (scores : RowOrder (Uuid × ScoreSnapshot)) (personIds : List Uuid) : Prop where
  detail : detailOpportunity detail db personId = latestOpportunityRow db personId
  routes : currentOpportunity routes db personId = latestOpportunityRow db personId
  /-- A score that is shown is one of this opportunity. -/
  score : ∀ s, fetchOpportunityScore scores db personIds personId = some s →
    (latestOpportunityRow db personId).map Opportunity.id = some s.subjectId
  /-- If this opportunity has a score, one is shown. -/
  scored : ∀ o, latestOpportunityRow db personId = some o →
    (∃ s ∈ db.scoreSnapshots, CanonicalScore o.id s) →
      (fetchOpportunityScore scores db personIds personId).isSome

/-- An opportunity of the person, and none was created later. -/
def CreatedLast (db : Db) (personId : Uuid) (o : Opportunity) : Prop :=
  o ∈ personOpportunities db personId ∧
    ∀ b ∈ personOpportunities db personId, b.createdAt ≤ o.createdAt

/-! ## When they agree -/

section Agree

variable {db : Db} {personId : Uuid} {personIds : List Uuid} {o : Opportunity}

/-- The latest row has the largest key. -/
lemma key_le_of_latest {ρ κ : Type} [LinearOrder κ] {key : ρ → κ} {rows : List ρ} {a : ρ}
    (h : latest key rows = some a) : ∀ b ∈ rows, key b ≤ key a := by
  obtain ⟨before, after, rfl, hbefore, hafter⟩ := latest_eq_some_iff.mp h
  intro b hb
  rcases List.mem_append.mp hb with hb | hb
  · exact (hbefore b hb).le
  · rcases List.mem_cons.mp hb with rfl | hb
    · exact le_rfl
    · exact hafter b hb

/-- The candidate list shows an opportunity that was created last. -/
lemma createdLast_of_latestOpportunityRow (h : latestOpportunityRow db personId = some o) :
    CreatedLast db personId o := by
  have hmem : o ∈ personOpportunities db personId := mem_of_latest_eq_some h
  refine ⟨hmem, fun b hb => ?_⟩
  rcases Prod.Lex.toLex_le_toLex.mp (key_le_of_latest h b hb) with hlt | heq
  · exact hlt.le
  · exact heq.1.le

/-- So does a query that orders by creation. -/
lemma createdLast_of_currentOpportunity {order : RowOrder Opportunity}
    (h : currentOpportunity order db personId = some o) : CreatedLast db personId o := by
  have hperm := order.perm (personOpportunities db personId)
  refine ⟨hperm.mem_iff.mp (mem_of_latest_eq_some h), fun b hb => ?_⟩
  exact key_le_of_latest h b (hperm.mem_iff.mpr hb)

lemma currentOpportunity_eq_none_iff {order : RowOrder Opportunity} :
    currentOpportunity order db personId = none ↔ latestOpportunityRow db personId = none := by
  have hperm := order.perm (personOpportunities db personId)
  have hlist : latestOpportunityRow db personId = none ↔ personOpportunities db personId = [] :=
    latest_eq_none_iff
  rw [currentOpportunity, latest_eq_none_iff, hlist]
  constructor
  · exact fun h => List.Perm.nil_eq (h ▸ hperm) |>.symm
  · exact fun h => List.Perm.eq_nil (h ▸ hperm)

/-- If only one opportunity was created last, a query that orders by creation finds it. -/
lemma currentOpportunity_eq (hunique : ∀ o o', CreatedLast db personId o →
    CreatedLast db personId o' → o = o') (order : RowOrder Opportunity) :
    currentOpportunity order db personId = latestOpportunityRow db personId := by
  cases hcurrent : currentOpportunity order db personId with
  | none => exact (currentOpportunity_eq_none_iff.mp hcurrent).symm
  | some o =>
    cases hlist : latestOpportunityRow db personId with
    | none =>
      rw [currentOpportunity_eq_none_iff.mpr hlist] at hcurrent
      cases hcurrent
    | some o' =>
      rw [hunique o o' (createdLast_of_currentOpportunity hcurrent)
        (createdLast_of_latestOpportunityRow hlist)]

/-- The order that returns one row first. -/
def RowOrder.first {ρ : Type} [DecidableEq ρ] (row : ρ) : RowOrder ρ where
  arrange rows := if row ∈ rows then row :: rows.erase row else rows
  perm rows := by
    split_ifs with h
    · exact (List.perm_cons_erase h).symm
    · exact List.Perm.refl rows

/-- A query that orders by creation may find any of the opportunities that were created last. -/
lemma currentOpportunity_first (h : CreatedLast db personId o) :
    currentOpportunity (RowOrder.first o) db personId = some o := by
  have hrows : (RowOrder.first o).arrange (personOpportunities db personId) =
      o :: (personOpportunities db personId).erase o := if_pos h.1
  rw [currentOpportunity, hrows]
  exact latest_eq_some_iff.mpr ⟨[], _, rfl, by simp, fun b hb => h.2 b (List.mem_of_mem_erase hb)⟩

lemma mem_personOpportunities_iff : o ∈ personOpportunities db personId ↔
    ∃ link ∈ db.opportunityFounders, link.personId = personId ∧
      db.opportunity? link.opportunityId = some o := by
  simp only [personOpportunities, List.mem_filterMap, List.mem_filter, decide_eq_true_eq, and_assoc]

lemma maxCreated_eq_some_iff (hmem : o ∈ personOpportunities db personId) :
    maxCreated db personIds personId = some o.createdAt ↔
      personId ∈ personIds ∧ CreatedLast db personId o := by
  unfold maxCreated CreatedLast
  split_ifs with hasked
  · rw [List.max?_eq_some_iff, List.forall_mem_map]
    simp [hasked, hmem, List.mem_map_of_mem hmem]
  · simp [hasked]

/-- The rows are the scores of the opportunities that were created last. -/
lemma mem_scoreRows_iff {s : ScoreSnapshot} : (personId, s) ∈ scoreRows db personIds ↔
    personId ∈ personIds ∧ s ∈ db.scoreSnapshots ∧
      ∃ o, CreatedLast db personId o ∧ CanonicalScore o.id s := by
  simp only [scoreRows, List.mem_flatMap, List.mem_filter, Option.mem_toList, List.mem_map,
    decide_eq_true_eq, Prod.mk.injEq]
  constructor
  · rintro ⟨link, hlink, o, ⟨hopp, hmax⟩, _, ⟨hs, haxis⟩, rfl, rfl⟩
    have hmem := mem_personOpportunities_iff.mpr ⟨link, hlink, rfl, hopp⟩
    obtain ⟨hasked, hlast⟩ := (maxCreated_eq_some_iff hmem).mp hmax
    exact ⟨hasked, hs, o, hlast, haxis⟩
  · rintro ⟨hasked, hs, o, hlast, haxis⟩
    obtain ⟨link, hlink, rfl, hopp⟩ := mem_personOpportunities_iff.mp hlast.1
    exact ⟨link, hlink, o, ⟨hopp, (maxCreated_eq_some_iff hlast.1).mpr ⟨hasked, hlast⟩⟩, s,
      ⟨hs, haxis⟩, rfl, rfl⟩

lemma mem_sortedScores_iff {order : RowOrder (Uuid × ScoreSnapshot)} {row : Uuid × ScoreSnapshot} :
    (row ∈ (order.arrange (scoreRows db personIds)).insertionSort fun a b =>
      b.2.createdAt ≤ a.2.createdAt) ↔ row ∈ scoreRows db personIds :=
  (List.mem_insertionSort _).trans (order.perm _).mem_iff

/-- A score that is shown is one of an opportunity that was created last. -/
lemma exists_of_fetchOpportunityScore {order : RowOrder (Uuid × ScoreSnapshot)} {s : ScoreSnapshot}
    (h : fetchOpportunityScore order db personIds personId = some s) :
    ∃ o, CreatedLast db personId o ∧ CanonicalScore o.id s := by
  obtain ⟨row, hfind, rfl⟩ := Option.map_eq_some_iff.mp h
  obtain rfl : row.1 = personId := by simpa using List.find?_some hfind
  have hrow := mem_sortedScores_iff.mp (List.mem_of_find?_eq_some hfind)
  exact (mem_scoreRows_iff.mp hrow).2.2

/-- A score of an opportunity that was created last is enough for one to be shown. -/
lemma isSome_fetchOpportunityScore (hasked : personId ∈ personIds)
    (hlast : CreatedLast db personId o) (order : RowOrder (Uuid × ScoreSnapshot))
    {s : ScoreSnapshot} (hs : s ∈ db.scoreSnapshots) (haxis : CanonicalScore o.id s) :
    (fetchOpportunityScore order db personIds personId).isSome := by
  have hrow : (personId, s) ∈ scoreRows db personIds :=
    mem_scoreRows_iff.mpr ⟨hasked, hs, o, hlast, haxis⟩
  rw [fetchOpportunityScore, Option.isSome_map, List.find?_isSome]
  exact ⟨(personId, s), mem_sortedScores_iff.mpr hrow, by simp⟩

/-- **The current opportunity.** The candidate detail, the collection routes and the scores are
about the opportunity of the candidate list, whatever the order of equal rows, exactly if at most
one opportunity of the person was created last.

**Proof sketch.** Each view finds an opportunity that was created last. If there are two of them,
one is not the one of the list, and the detail finds it where it is returned first. -/
theorem viewsAgree_iff (db : Db) (personId : Uuid) :
    (∀ detail routes scores personIds, personId ∈ personIds →
      ViewsAgree db personId detail routes scores personIds) ↔
    ∀ o o', CreatedLast db personId o → CreatedLast db personId o' → o = o' := by
  constructor
  · intro h
    have key : ∀ o, CreatedLast db personId o → latestOpportunityRow db personId = some o := by
      intro o ho
      have hroutes := (h (RowOrder.first o) (RowOrder.first o) ⟨id, fun _ => List.Perm.refl _⟩
        [personId] (List.mem_singleton_self _)).routes
      rw [← hroutes]
      exact currentOpportunity_first ho
    intro o o' ho ho'
    exact Option.some.inj ((key o ho).symm.trans (key o' ho'))
  · intro hunique detail routes scores personIds hasked
    refine ⟨currentOpportunity_eq hunique detail, currentOpportunity_eq hunique routes,
      fun s hs => ?_, fun o ho ⟨s, hs, haxis⟩ => ?_⟩
    · obtain ⟨o, hlast, haxis⟩ := exists_of_fetchOpportunityScore hs
      cases hlist : latestOpportunityRow db personId with
      | none =>
        have hnil : personOpportunities db personId = [] := latest_eq_none_iff.mp hlist
        have hmem := hlast.1
        rw [hnil] at hmem
        cases hmem
      | some o' =>
        rw [hunique o' o (createdLast_of_latestOpportunityRow hlist) hlast, Option.map_some,
          haxis.1]
    · exact isSome_fetchOpportunityScore hasked (createdLast_of_latestOpportunityRow ho) scores hs
        haxis

/-- A person with two opportunities that were created at the same time. -/
def tiedDb : Db where
  opportunities := [1, 2].map fun id =>
    { id := id, companyName := "Acme", sourceKind := "inbound", lifecycleState := .received
      createdAt := 0 }
  opportunityFounders := [1, 2].map fun id =>
    { opportunityId := id, personId := 7, role := "founder" }

/-- The list takes the larger id, and the detail may take the other one. -/
theorem not_viewsAgree_tiedDb :
    ¬ ∀ detail routes scores personIds, (7 : Uuid) ∈ personIds →
      ViewsAgree tiedDb 7 detail routes scores personIds := by
  intro h
  have hdetail := (h ⟨id, fun _ => List.Perm.refl _⟩ ⟨id, fun _ => List.Perm.refl _⟩
    ⟨id, fun _ => List.Perm.refl _⟩ [7] (List.mem_singleton_self _)).detail
  have hids := congrArg (Option.map Opportunity.id) hdetail
  revert hids
  decide

end Agree

end VCBrain
