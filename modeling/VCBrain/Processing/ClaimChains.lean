import VCBrain.Foundation.Guarded
import VCBrain.Foundation.Pointers
import VCBrain.Processing.CurrentClaims
import VCBrain.Processing.Dedup
import VCBrain.Processing.GroupOutcome

set_option relaxedAutoImplicit false
set_option autoImplicit false

/-!
# Supersession chains of claims

Observations arrive, and runs of `reconcile_observations` and `deduplicate_claims` for a person take
place in any order. A superseded claim points to its replacement, and the pointers lead to a current
claim of the same group.

## Main definitions

* `ClaimEvent`, `claimStep` — an event of a history, and what it makes of the database.
* `supersessionOf` — the pointers of the table.
* `ChainLaw` — every claim of the person leads to a current one of its group.

## Main results

* `supersession_chains` — the law holds at every point of a history, and no claim is on a cycle.

## Design

Either pass redirects current claims only, and only to claims that are current afterwards.
-/

namespace VCBrain

/-! ## Histories of claims -/

/-- An event of a history: an observation arrives, the observations are reconciled, or the claims
are deduplicated. -/
inductive ClaimEvent (F : Type) where
  | arrive (obs : Observation)
  | reconcile (now : Time) (draw : ℕ → Uuid)
  | deduplicate (embedding : Uuid → Option (List F)) (tie : Uuid → ℕ)

section Person

variable {F : Type} (fl : Floats F) (personId : Uuid)

/-- The database after an event, unless the event fails and is rolled back. -/
def claimStep (db : Db) : ClaimEvent F → Option Db
  | .arrive obs => (insertObservation db.observations obs).map fun rows =>
      { db with observations := rows }
  | .reconcile now draw => (reconcileObservations personId now draw db).map Prod.fst
  | .deduplicate embedding tie => (deduplicateClaims fl embedding tie personId db).map Prod.fst

/-- `supersession_id` of the claim with this id. -/
def supersessionOf (rows : List Claim) (id : Uuid) : Option Uuid :=
  (rows.find? fun claim => claim.id = id).bind Claim.supersessionId

/-- Every claim of the person leads to a current one of its group. -/
def ChainLaw (rows : List Claim) : Prop :=
  ∀ claim ∈ rows, claim.subjectId = some personId →
    ∃ root ∈ rows, Leads (supersessionOf rows) claim.id root.id ∧ root.supersessionId = none ∧
      root.subjectId = some personId ∧ root.key = claim.key

variable {fl personId} {rows rows' : List Claim}

/-- The pointer of a row of the table. -/
lemma supersessionOf_of_mem (hids : KeyUnique Claim.id rows) {claim : Claim} (hc : claim ∈ rows) :
    supersessionOf rows claim.id = claim.supersessionId := by
  unfold supersessionOf
  cases hfind : rows.find? fun row => row.id = claim.id with
  | none => simpa using List.find?_eq_none.mp hfind claim hc
  | some row =>
    have hid : row.id = claim.id := by simpa using List.find?_some hfind
    rw [hids.eq_of_id_eq (List.mem_of_find?_eq_some hfind) hc hid, Option.bind_some]

/-- A pointer is that of a row of the table. -/
lemma exists_of_supersessionOf {id target : Uuid} (h : supersessionOf rows id = some target) :
    ∃ claim ∈ rows, claim.id = id ∧ claim.supersessionId = some target := by
  obtain ⟨claim, hfind, hsuper⟩ := Option.bind_eq_some_iff.mp h
  exact ⟨claim, List.mem_of_find?_eq_some hfind, by simpa using List.find?_some hfind, hsuper⟩

/-- A table that keeps what is superseded, and redirects what is current to current claims of the
same group: every claim of it was there before, or is current. -/
structure Redirects (personId : Uuid) (rows rows' : List Claim) : Prop where
  ids : KeyUnique Claim.id rows'
  keep : ∀ claim ∈ rows, claim.supersessionId ≠ none → claim ∈ rows'
  roots : ∀ claim ∈ rows, claim.subjectId = some personId → claim.supersessionId = none →
    ∃ root ∈ rows', Leads (supersessionOf rows') claim.id root.id ∧ root.supersessionId = none ∧
      root.subjectId = some personId ∧ root.key = claim.key
  old : ∀ claim ∈ rows', claim.subjectId = some personId → claim.supersessionId = none ∨
    ∃ previous ∈ rows, previous.id = claim.id ∧ previous.subjectId = some personId ∧
      previous.key = claim.key

/-- **Redirection** keeps the law. -/
lemma ChainLaw.redirect (h : ChainLaw personId rows) (hredirects : Redirects personId rows rows') :
    ChainLaw personId rows' := by
  have hmono : ∀ x y, supersessionOf rows x = some y → supersessionOf rows' x = some y := by
    intro x y hxy
    obtain ⟨claim, hc, rfl, hsuper⟩ := exists_of_supersessionOf hxy
    have hmem := hredirects.keep claim hc (by rw [hsuper]; exact Option.some_ne_none y)
    rw [supersessionOf_of_mem hredirects.ids hmem, hsuper]
  intro claim hc hsubject
  rcases hredirects.old claim hc hsubject with hopen | ⟨previous, hprevious, hid, hsubject', hkey⟩
  · exact ⟨claim, hc, Leads.refl _, hopen, hsubject, rfl⟩
  · obtain ⟨root, hroot, hleads, hopen, hrootSubject, hrootKey⟩ := h previous hprevious hsubject'
    obtain ⟨last, hlast, hlast', hrest⟩ := hredirects.roots root hroot hrootSubject hopen
    refine ⟨last, hlast, ?_, hrest.1, hrest.2.1, ?_⟩
    · rw [← hid]
      exact (hleads.follow_keeping hmono).trans hlast'
    · rw [hrest.2.2, hrootKey, hkey]

/-- A claim that enters at the end redirects nothing. -/
lemma redirects_add {claim : Claim} (hids : KeyUnique Claim.id rows)
    (hopen : claim.supersessionId = none) (hnew : ∀ row ∈ rows, row.id ≠ claim.id) :
    Redirects personId rows (rows ++ [claim]) where
  ids := hids.append hnew
  keep row hrow _ := List.mem_append_left _ hrow
  roots row hrow hs ho := ⟨row, List.mem_append_left _ hrow, Leads.refl _, ho, hs, rfl⟩
  old row hrow hs := by
    rcases List.mem_append.mp hrow with hrow | hrow
    · exact Or.inr ⟨row, hrow, rfl, hs, rfl⟩
    · rw [List.mem_singleton.mp hrow]
      exact Or.inl hopen

/-- A claim that supersedes the current ones of its group redirects them to itself. -/
lemma redirects_close {claim : Claim} (hids : KeyUnique Claim.id rows)
    (hsubject : claim.subjectId = some personId) (hopen : claim.supersessionId = none)
    (hnew : ∀ row ∈ rows, row.id ≠ claim.id) :
    Redirects personId rows (closedFor personId claim.key rows (some claim) ++ [claim]) := by
  have hids' := entering_keyUnique.close hids hsubject hopen hnew
  have hlast : claim ∈ closedFor personId claim.key rows (some claim) ++ [claim] :=
    List.mem_append_right _ (List.mem_singleton_self _)
  refine ⟨hids', fun row hrow hsuper => ?_, fun row hrow hs ho => ?_, fun row hrow hs => ?_⟩
  · refine List.mem_append_left _ ((mem_closedFor_iff hnew).mpr (Or.inl ⟨hrow, fun h => hsuper ?_⟩))
    exact (mem_openClaims.mp h).2.2.2
  · by_cases hkey : row.key = claim.key
    · have hmem := (mem_closedFor_iff hnew).mpr
        (Or.inr ⟨row, mem_openClaims.mpr ⟨hrow, hs, hkey, ho⟩, rfl⟩)
      refine ⟨claim, hlast, ?_, hopen, hsubject, hkey.symm⟩
      have hpointer := supersessionOf_of_mem hids' (List.mem_append_left [claim] hmem)
      exact Leads.head hpointer (Leads.refl _)
    · have hmem : row ∈ closedFor personId claim.key rows (some claim) :=
        (mem_closedFor_iff hnew).mpr (Or.inl ⟨hrow, fun h => hkey (mem_openClaims.mp h).2.2.1⟩)
      exact ⟨row, List.mem_append_left _ hmem, Leads.refl _, ho, hs, rfl⟩
  · rcases List.mem_append.mp hrow with hrow | hrow
    · obtain ⟨previous, hprevious, s, e, rfl⟩ := mem_closedFor hrow
      exact Or.inr ⟨previous, hprevious, rfl, hs, rfl⟩
    · rw [List.mem_singleton.mp hrow]
      exact Or.inl hopen

/-- The law and distinct ids last as claims enter. -/
lemma entering_chainLaw :
    Entering personId fun rows => KeyUnique Claim.id rows ∧ ChainLaw personId rows where
  add h _ hopen hnew :=
    have hredirects := redirects_add h.1 hopen hnew
    ⟨hredirects.ids, h.2.redirect hredirects⟩
  close h hsubject hopen hnew :=
    have hredirects := redirects_close h.1 hsubject hopen hnew
    ⟨hredirects.ids, h.2.redirect hredirects⟩

/-- A pass of deduplication redirects the claims that are superseded to their replacements. -/
lemma redirects_deduplicated {db db' : Db} {embedding : Uuid → Option (List F)} {tie : Uuid → ℕ}
    {count : ℕ} (hids : KeyUnique Claim.id db.claims)
    (h : deduplicateClaims fl embedding tie personId db = some (db', count)) :
    Redirects personId db.claims db'.claims := by
  have hids' := keyUnique_deduplicated hids h
  obtain ⟨update, rfl, -, hupdate⟩ := deduplicateClaims_eq_some hids h
  have hstays : ∀ claim ∈ db.claims,
      (∀ a, (claim, a) ∉ superseded fl embedding tie personId db) →
        claim ∈ db.claims.map update := by
    intro claim hc hnone
    have hmem := List.mem_map_of_mem (f := update) hc
    rwa [(hupdate claim hc).resolve_right fun ⟨a, ha, _⟩ => hnone a ha] at hmem
  refine ⟨hids', fun claim hc hsuper => hstays claim hc fun a ha => ?_, fun claim hc hs ho => ?_,
    fun claim hc hs => ?_⟩
  · exact hsuper (mem_currentClaims.mp (of_mem_superseded hids ha).2.1).2.2
  · rcases hupdate claim hc with heq | ⟨a, ha, heq⟩
    · exact ⟨claim, heq ▸ List.mem_map_of_mem hc, Leads.refl _, ho, hs, rfl⟩
    · obtain ⟨hcurrent, -, hpred, hopp, hleader⟩ := of_mem_superseded hids ha
      obtain ⟨hmem, hsubject, hopen⟩ := mem_currentClaims.mp hcurrent
      have hpointer := supersessionOf_of_mem hids' (List.mem_map_of_mem (f := update) hc)
      rw [heq] at hpointer
      exact ⟨a, hstays a hmem hleader, Leads.head hpointer (Leads.refl _), hopen, hsubject,
        Prod.ext hpred.symm hopp.symm⟩
  · obtain ⟨previous, hprevious, rfl⟩ := List.mem_map.mp hc
    refine Or.inr ⟨previous, hprevious, ?_⟩
    rcases hupdate previous hprevious with heq | ⟨a, -, heq⟩
    · rw [heq] at hs ⊢
      exact ⟨rfl, hs, rfl⟩
    · rw [heq] at hs ⊢
      exact ⟨rfl, hs, rfl⟩

/-! ## Every point of a history -/

/-- An event keeps the law. -/
lemma chainLaw_step {db db' : Db} {e : ClaimEvent F} (hids : KeyUnique Claim.id db.claims)
    (hlaw : ChainLaw personId db.claims) (h : claimStep fl personId db e = some db') :
    KeyUnique Claim.id db'.claims ∧ ChainLaw personId db'.claims := by
  cases e with
  | arrive obs =>
    obtain ⟨observations, -, rfl⟩ := Option.map_eq_some_iff.mp h
    exact ⟨hids, hlaw⟩
  | reconcile now draw =>
    obtain ⟨⟨after, created⟩, hrun, rfl⟩ := Option.map_eq_some_iff.mp h
    exact entering_chainLaw.reconcile hrun ⟨hids, hlaw⟩
  | deduplicate embedding tie =>
    obtain ⟨⟨after, count⟩, hrun, rfl⟩ := Option.map_eq_some_iff.mp h
    have hredirects := redirects_deduplicated hids hrun
    exact ⟨hredirects.ids, hlaw.redirect hredirects⟩

/-- **Supersession chains.** From a database without claims on the person, at every point of a
history of arrivals, reconciliations and deduplications, no claim of the person is on a cycle of
supersession, and its chain ends at a current claim of its predicate and opportunity.

**Proof sketch.** The law that every claim leads to a current one of its group is the invariant. A
new claim is current. A claim that is closed was current, and is redirected to one that stays so
(`Redirects`), so that the chains through it grow by one link (`ChainLaw.redirect`). -/
theorem supersession_chains (fl : Floats F) (personId : Uuid) {db : Db}
    (hids : KeyUnique Claim.id db.claims)
    (hfresh : ∀ claim ∈ db.claims, claim.subjectId ≠ some personId)
    (events : List (ClaimEvent F)) :
    ∀ claim ∈ (History.replay (claimStep fl personId) db events).claims,
      claim.subjectId = some personId →
        (¬ Relation.TransGen (fun x y => supersessionOf
            (History.replay (claimStep fl personId) db events).claims x = some y)
            claim.id claim.id) ∧
        ∃ root ∈ (History.replay (claimStep fl personId) db events).claims,
          Leads (supersessionOf (History.replay (claimStep fl personId) db events).claims)
            claim.id root.id ∧
          root.supersessionId = none ∧ root.subjectId = some personId ∧
          root.predicate = claim.predicate ∧ root.opportunityId = claim.opportunityId := by
  obtain ⟨hids', hlaw⟩ := History.replay_invariant (claimStep fl personId)
    (fun _ _ _ hI hstep => chainLaw_step hI.1 hI.2 hstep)
    (I := fun db : Db => KeyUnique Claim.id db.claims ∧ ChainLaw personId db.claims)
    ⟨hids, fun claim hc hsubject => absurd hsubject (hfresh claim hc)⟩ events
  intro claim hc hsubject
  obtain ⟨root, hroot, hleads, hopen, hrootSubject, hkey⟩ := hlaw claim hc hsubject
  have hend := supersessionOf_of_mem hids' hroot
  exact ⟨hleads.not_cycle (hend.trans hopen), root, hroot, hleads, hopen, hrootSubject,
    congrArg Prod.fst hkey, congrArg Prod.snd hkey⟩

/-- Two observations disagree and are reconciled and deduplicated; then a stronger one arrives. -/
private def mixedHistory : List (ClaimEvent ℚ) :=
  [.arrive (Reconciling.roleObservation 1 "CEO" (1 / 2)),
    .arrive (Reconciling.roleObservation 2 "Chief" (1 / 2)),
    .reconcile 0 fun n => Fin.ofNat _ (10 + n), .deduplicate (fun _ => some [3, 4]) fun _ => 0,
    .arrive (Reconciling.roleObservation 3 "Founder" 1),
    .reconcile 1 fun n => Fin.ofNat _ (20 + n)]

/-- A chain of two links: a claim is superseded by a duplicate, and that one by a stronger claim. -/
theorem supersession_chains_mixed :
    (∀ claim ∈ (History.replay (claimStep rationalFloats 1) {} mixedHistory).claims,
      claim.subjectId = some 1 →
        ¬ Relation.TransGen (fun x y => supersessionOf
          (History.replay (claimStep rationalFloats 1) {} mixedHistory).claims x = some y)
          claim.id claim.id) ∧
      (History.replay (claimStep rationalFloats 1) {} mixedHistory).claims.map
        (fun claim => claim.supersessionId.map Fin.val) = [some 20, some 10, none] := by
  refine ⟨fun claim hc hsubject => ?_, by decide +kernel⟩
  have hids : KeyUnique Claim.id ({} : Db).claims := List.nodup_nil
  exact (supersession_chains rationalFloats 1 hids
    (fun _ h => absurd h List.not_mem_nil) mixedHistory claim hc hsubject).1

end Person

end VCBrain
