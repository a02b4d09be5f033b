import VCBrain.Foundation.Guarded
import VCBrain.Identity.Groups

set_option relaxedAutoImplicit false
set_option autoImplicit false

/-!
# Suppression across merges

A sequence of merges collects persons into groups, each with at most one canonical person. A
group that contains a person who has opted out must not be contacted, nor sent to external AI,
through its canonical person. This file determines which merges keep that.

## Main definitions

* `GroupSuppressed` — the group of a person contains one who has opted out.
* `SuppressionSafe` — every canonical person of such a group is blocked and denied.
* `KeepsSuppression` — the condition on a merge.

## Main results

* `suppressionSafe_iff` — one merge.
* `suppression_history_iff` — sequences of merges of persons who were not merged before.

## Design

A merge does not touch the consent and privacy fields, so the canonical person keeps its own;
its email is taken from the duplicate when it has none.
-/

namespace VCBrain

/-! ## Groups -/

/-- Some person of the group merged into `id` has opted out. -/
def GroupSuppressed (db : Db) (id : Uuid) : Prop :=
  ∃ p person, db.person? p = some person ∧ Suppressed person ∧ Leads db.supersededBy p id

/-- The person may not be contacted and is denied to external AI for every purpose. -/
def Withheld (person : Person) : Prop :=
  (contactBlockReason person).isSome ∧
    ∀ purpose, (externalAiUseDecision person purpose).allowed = false

/-- Every canonical person of a group with a suppressed member is withheld. -/
def SuppressionSafe (db : Db) : Prop :=
  ∀ id person, db.person? id = some person → person.canonical = true → GroupSuppressed db id →
    Withheld person

/-- A person is withheld who has opted out, or who has no email and is denied to external AI. -/
lemma withheld_iff {person : Person} :
    Withheld person ↔ Suppressed person ∨ (filled person.email = false ∧
      ∀ purpose, (externalAiUseDecision person purpose).allowed = false) := by
  rw [Withheld, isSome_contactBlockReason]
  constructor
  · intro h
    cases h.1 with
    | inl hemail => exact Or.inr ⟨hemail, h.2⟩
    | inr hsuppressed => exact Or.inl hsuppressed
  · intro h
    cases h with
    | inl hsuppressed => exact ⟨Or.inr hsuppressed, hsuppressed.denied⟩
    | inr h => exact ⟨Or.inl h.1, h.2⟩

/-! ## Merges -/

/-- The condition under which a merge keeps suppression: if the group the duplicate joins or its
own contains a suppressed person, then the canonical person of that group is suppressed itself,
or it has no email after the merge and is denied to external AI anyway. -/
def KeepsSuppression (db : Db) (e : MergeEvent) : Prop :=
  ∀ duplicate, db.person? e.duplicateId = some duplicate → duplicate.canonical = true →
  ∀ id person, db.person? id = some person → person.canonical = true → id ≠ e.duplicateId →
    Leads db.supersededBy e.canonicalId id →
    GroupSuppressed db id ∨ GroupSuppressed db e.duplicateId →
    Suppressed person ∨ (filled (emailAfter e.canonicalId id person duplicate) = false ∧
      ∀ purpose, (externalAiUseDecision person purpose).allowed = false)

section Step

variable {canonicalId duplicateId id : Uuid} {canonical duplicate person : Person} {now : Time}
  {db db' : Db}

/-- A merge leaves every person's own opt-out as it is. -/
lemma exists_suppressed_mergedDb_iff (hc : db.person? canonicalId = some canonical)
    (hd : db.person? duplicateId = some duplicate) (p : Uuid) :
    (∃ person, (mergedDb canonicalId duplicateId canonical duplicate now db).person? p =
      some person ∧ Suppressed person) ↔
        ∃ person, db.person? p = some person ∧ Suppressed person := by
  cases hperson : db.person? p with
  | none => simp [person?_mergedDb, hperson]
  | some person =>
    by_cases hp : p = duplicateId
    · subst hp
      obtain ⟨person', hperson', -, -, hstate⟩ :=
        exists_duplicate_mergedDb canonicalId canonical now hd
      rw [hd] at hperson
      cases hperson
      simp [hperson', Suppressed, hstate]
    · obtain ⟨person', hperson', -, -, hstate, -⟩ :=
        exists_person_mergedDb duplicate now hc hp hperson
      simp [hperson', Suppressed, hstate]

/-- After a merge the group of another canonical person has grown by that of the duplicate,
if the duplicate was merged into it. -/
lemma groupSuppressed_mergedDb_iff (hc : db.person? canonicalId = some canonical)
    (hd : db.person? duplicateId = some duplicate) (hroot : db.supersededBy duplicateId = none)
    (hid : id ≠ duplicateId) :
    GroupSuppressed (mergedDb canonicalId duplicateId canonical duplicate now db) id ↔
      GroupSuppressed db id ∨
        (GroupSuppressed db duplicateId ∧ Leads db.supersededBy canonicalId id) := by
  have hsplit : ∀ db' : Db, GroupSuppressed db' id ↔
      ∃ p, (∃ person, db'.person? p = some person ∧ Suppressed person) ∧
        Leads db'.supersededBy p id := by
    intro db'
    constructor
    · rintro ⟨p, person, hperson, hs, hleads⟩
      exact ⟨p, ⟨person, hperson, hs⟩, hleads⟩
    · rintro ⟨p, ⟨person, hperson, hs⟩, hleads⟩
      exact ⟨p, person, hperson, hs, hleads⟩
  rw [hsplit]
  simp only [exists_suppressed_mergedDb_iff hc hd, supersededBy_mergedDb hc hd,
    leads_update_iff hroot hid]
  constructor
  · rintro ⟨p, ⟨person, hperson, hs⟩, hleads | ⟨hleads, hlink⟩⟩
    · exact Or.inl ⟨p, person, hperson, hs, hleads⟩
    · exact Or.inr ⟨⟨p, person, hperson, hs, hleads⟩, hlink⟩
  · rintro (⟨p, person, hperson, hs, hleads⟩ | ⟨⟨p, person, hperson, hs, hleads⟩, hlink⟩)
    · exact ⟨p, ⟨person, hperson, hs⟩, Or.inl hleads⟩
    · exact ⟨p, ⟨person, hperson, hs⟩, Or.inr ⟨hleads, hlink⟩⟩

end Step

section History

variable {db db' : Db} {e : MergeEvent}

/-- **One merge.** Between safe databases lead exactly the merges that keep suppression.

**Proof sketch.** A merge changes the group of one canonical person only, that of the root of the
person merged into; the groups of the others, and their rows, stay as they are. -/
theorem suppressionSafe_iff (hroots : CanonicalRoots db) (hsafe : SuppressionSafe db)
    (h : mergeStep db e = some db') : SuppressionSafe db' ↔ KeepsSuppression db e := by
  obtain ⟨canonical, duplicate, hc, hd, ⟨hdone, rfl⟩ | ⟨hlink, rfl⟩⟩ := mergeStep_eq_some h
  · refine ⟨fun _ duplicate' hd' hcanonical => ?_, fun _ => hsafe⟩
    rw [hd] at hd'
    cases hd'
    rw [hdone] at hcanonical
    cases hcanonical
  · have hroot : db.supersededBy e.duplicateId = none := by
      rw [Db.supersededBy, hd]
      exact (hroots _ _ hd).mp hlink
    constructor
    · intro hsafe' duplicate' hd' _ id person hperson hcanonical hid hleads hgroup
      rw [hd] at hd'
      cases hd'
      obtain ⟨person', hperson', hcanonical', -, hstate, hemail, hdecision⟩ :=
        exists_person_mergedDb duplicate e.now hc hid hperson
      have hwithheld : Withheld person' := by
        refine hsafe' id person' hperson' (hcanonical'.trans hcanonical) ?_
        rw [groupSuppressed_mergedDb_iff hc hd hroot hid]
        exact hgroup.imp_right fun hg => ⟨hg, hleads⟩
      rw [withheld_iff, Suppressed, hstate, hemail] at hwithheld
      simp only [hdecision] at hwithheld
      exact hwithheld
    · intro hkeeps id person' hperson' hcanonical' hgroup
      by_cases hid : id = e.duplicateId
      · -- the duplicate is no canonical person any more
        subst hid
        obtain ⟨person'', hperson'', hfalse, -⟩ :=
          exists_duplicate_mergedDb e.canonicalId canonical e.now hd
        rw [hperson''] at hperson'
        cases hperson'
        rw [hfalse] at hcanonical'
        cases hcanonical'
      · cases hperson : db.person? id with
        | none => simp [person?_mergedDb, hperson] at hperson'
        | some person =>
          obtain ⟨person'', hperson'', hcanonical, -, hstate, hemail, hdecision⟩ :=
            exists_person_mergedDb duplicate e.now hc hid hperson
          rw [hperson''] at hperson'
          cases hperson'
          rw [hcanonical] at hcanonical'
          rw [groupSuppressed_mergedDb_iff hc hd hroot hid] at hgroup
          rw [withheld_iff, Suppressed, hstate, hemail]
          simp only [hdecision]
          by_cases hleads : Leads db.supersededBy e.canonicalId id
          · exact hkeeps duplicate hd hlink id person hperson hcanonical' hid hleads
              (hgroup.imp_right And.left)
          · -- another group: neither its members nor its canonical person have changed
            have hne : id ≠ e.canonicalId := fun heq => hleads (heq ▸ Leads.refl id)
            rw [emailAfter, if_neg hne]
            refine withheld_iff.mp (hsafe id person hperson hcanonical' ?_)
            exact hgroup.resolve_right fun hg => hleads hg.2

/-- Unmerged persons are the roots of groups of their own, so an opt-out covers its group. -/
lemma Unmerged.safe (h : Unmerged db) : SuppressionSafe db := by
  intro id person hperson _ hgroup
  obtain ⟨p, q, hq, hsuppressed, hleads⟩ := hgroup
  obtain rfl := hleads.eq_of_root (h.supersededBy_eq_none p)
  rw [hq] at hperson
  cases hperson
  exact withheld_iff.mpr (Or.inl hsuppressed)

/-- **Suppression over sequences of merges.** In a sequence of merges of unmerged persons every
merge leaves all suppressed groups withheld exactly if every merge keeps suppression. -/
theorem suppression_history_iff (hunmerged : Unmerged db) (events : List MergeEvent) :
    History.Meets mergeStep (fun _ => SuppressionSafe) db events ↔
      History.Guarded mergeStep KeepsSuppression db events := by
  refine History.meets_iff_guarded (I := fun db => CanonicalRoots db ∧ SuppressionSafe db)
    mergeStep ?_ ?_ ⟨hunmerged.canonicalRoots, hunmerged.safe⟩ events
  · intro db e db' hinv h
    exact suppressionSafe_iff hinv.1 hinv.2 h
  · intro db e db' hinv h hsafe
    exact ⟨hinv.1.merge h, hsafe⟩

end History

/-- Person 2, who has an email and has opted out. -/
def optedOut : Person :=
  { samplePerson 2 with email := some ("founder@example.com" : Str), consentState := "opted_out" }

/-- A person without email or opt-out, and one who has opted out. -/
def optOutDb : Db where
  persons := [samplePerson 1, optedOut]

/-- Merging into the person who has opted out keeps suppression. -/
theorem suppression_mergeIntoOptedOut :
    History.Meets mergeStep (fun _ => SuppressionSafe) optOutDb [⟨2, 1, 0⟩] := by
  refine (suppression_history_iff (by decide) _).mpr ⟨fun _ _ => ?_, trivial⟩
  intro duplicate _ _ id person hperson _ hid _ _
  have hmem : person ∈ optOutDb.persons := List.mem_of_find?_eq_some hperson
  have hpid : person.id = id := by simpa using List.find?_some hperson
  rcases List.mem_pair.mp hmem with rfl | rfl
  · exact absurd hpid.symm hid
  · exact Or.inl (by decide)

/-- Merging the person who has opted out hands over the email and not the opt-out. -/
theorem not_suppression_mergeOptedOut :
    ¬ History.Meets mergeStep (fun _ => SuppressionSafe) optOutDb [⟨1, 2, 0⟩] := by
  intro h
  have hsafe : SuppressionSafe (mergedDb 1 2 (samplePerson 1) optedOut 0 optOutDb) := h.1 _ rfl
  have hgroup : GroupSuppressed (mergedDb 1 2 (samplePerson 1) optedOut 0 optOutDb) 1 :=
    ⟨2, markSuperseded 1 2 0 optedOut, rfl, by decide, Leads.head rfl (Leads.refl 1)⟩
  have hblocked := (hsafe 1 _ rfl rfl hgroup).1
  exact absurd hblocked (by decide)

end VCBrain
