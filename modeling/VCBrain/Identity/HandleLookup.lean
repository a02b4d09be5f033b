import VCBrain.Collectors.ConcurrentDiscovery
import VCBrain.Identity.Suppression

set_option relaxedAutoImplicit false
set_option autoImplicit false

/-!
# Looking a founder up by a handle

Discovery finds the person of a seed by the handle on its source, with a query that raises on a
second row, and creates the person if there is none. A merge adds the handles of the duplicate to
those of the canonical person, and the row of the duplicate keeps its own. This file determines
which merges leave the query with one row at most.

## Main definitions

* `lookupHandle`, `getOrCreatePerson` — the query, and `_get_or_create_person`.
* `Unambiguous` — the query raises for no handle.
* `BringsNoHandle` — the condition on a merge.

## Main results

* `unambiguous_iff` — sequences of discoveries and merges.
* `Ambiguous.replay` — a handle the query has raised for is never found again.

## Design

The other tables may change between two events in any way. The rows of persons change by the two
operations only: nothing deletes a person or writes its handles otherwise.
-/

namespace VCBrain

/-! ## The query -/

/-- The handle of a person on a source. -/
def Person.handle? (source : Str) (p : Person) : Option Str := p.handles.bind (Dict.get? · source)

/-- The persons with a handle, superseded ones among them. -/
def Db.personsWithHandle (source handle : Str) (db : Db) : List Person :=
  db.persons.filter fun p => p.HasHandle source handle

/-- Why the search for the person of a handle fails: `MultipleResultsFound`, or `IntegrityError` on
the stable id or the key of a new row. -/
inductive LookupError where
  | multipleResultsFound
  | integrityError
deriving DecidableEq

/-- `scalar_one_or_none` on the persons with a handle. -/
def lookupHandle (source handle : Str) (db : Db) : Except LookupError (Option Person) :=
  match db.personsWithHandle source handle with
  | [] => .ok none
  | [p] => .ok (some p)
  | _ => .error .multipleResultsFound

/-- The person `_get_or_create_person` creates. -/
def createdPerson (source handle displayHint : Str) (id : Uuid) (now : Time) : Person where
  id := id
  stableId := source ++ ":".toList ++ handle
  displayName := some (if displayHint ≠ [] then displayHint else handle)
  handles := some (Dict.empty.setDefault source handle)
  consentState := "pending"
  createdAt := now

/-- `_get_or_create_person`: the person that stands for the one found, if its row is there, or a new
person. -/
def getOrCreatePerson (source handle displayHint : Str) (id : Uuid) (now : Time) (db : Db) :
    Except LookupError (Option Person × Db) :=
  match lookupHandle source handle db with
  | .error err => .error err
  | .ok (some p) => .ok (followSupersession db.persons db.persons.length p, db)
  | .ok none =>
    let p := createdPerson source handle displayHint id now
    if ∃ q ∈ db.persons, q.id = p.id ∨ q.stableId = p.stableId then .error .integrityError
    else .ok (some p, { db with persons := db.persons ++ [p] })

/-- The query raises for no handle on any source. -/
def Unambiguous (db : Db) : Prop :=
  ∀ source handle, lookupHandle source handle db ≠ .error .multipleResultsFound

/-! ## Sequences of discoveries and merges -/

/-- A founder is discovered, two persons are merged, or the other tables change. -/
inductive PersonEvent where
  | discover (source handle displayHint : Str) (id : Uuid) (now : Time)
  | merge (e : MergeEvent)
  | elsewhere (tables : Db)

/-- The database after an event, unless the event fails. -/
def personStep (db : Db) : PersonEvent → Option Db
  | .discover source handle displayHint id now =>
    match getOrCreatePerson source handle displayHint id now db with
    | .ok (_, db') => some db'
    | .error _ => none
  | .merge e => mergeStep db e
  | .elsewhere tables => some { tables with persons := db.persons }

/-- The condition under which a merge leaves the query with one row: the duplicate is superseded
already, or the canonical person has a handle on every source on which the duplicate has one. -/
def BringsNoHandle (db : Db) : PersonEvent → Prop
  | .merge e => ∀ canonical ∈ db.person? e.canonicalId, ∀ duplicate ∈ db.person? e.duplicateId,
      duplicate.canonical = true →
        ∀ source, (duplicate.handle? source).isSome → (canonical.handle? source).isSome
  | _ => True

/-! ## Handles after a step -/

section Handles

variable {db db' : Db} {source handle : Str} {canonicalId duplicateId id : Uuid}
  {canonical duplicate : Person} {now : Time}

lemma get?_setDefault {β : Type*} (d : Dict β) (k key : Str) (value : β) :
    (d.setDefault key value).get? k = (d.get? k).or (if k = key then some value else none) := by
  unfold Dict.setDefault Dict.get?
  split_ifs with hkey heq heq
  · subst heq
    cases hlookup : d.items.lookup k with
    | none =>
      obtain ⟨item, hitem, rfl⟩ := List.mem_map.mp hkey
      have hne := List.lookup_eq_none_iff.mp hlookup item hitem
      simp at hne
    | some _ => simp
  · simp
  · subst heq
    simp [List.lookup_append]
  · have hbeq : (k == key) = false := by simpa using heq
    simp [List.lookup_append, List.lookup_cons, hbeq]

/-- The union of the handles has the canonical person's handle on a source, else the duplicate's. -/
lemma get?_mergeHandles (a b : Option (Dict Str)) (source : Str) :
    (mergeHandles a b).get? source =
      (a.bind (Dict.get? · source)).or (b.bind (Dict.get? · source)) := by
  have hfold : ∀ (items : List (Str × Str)) (d : Dict Str),
      (items.foldl (fun merged item => merged.setDefault item.1 item.2) d).get? source =
        (d.get? source).or (items.lookup source) := by
    intro items
    induction items with
    | nil => simp
    | cons item items ih =>
      intro d
      obtain ⟨key, value⟩ := item
      rw [List.foldl_cons, ih, get?_setDefault, List.lookup_cons]
      by_cases heq : source = key
      · subst heq
        cases d.get? source <;> simp
      · have hbeq : (source == key) = false := by simpa using heq
        simp [heq, hbeq]
  have hempty : (Dict.empty : Dict Str).get? source = none := rfl
  unfold mergeHandles
  rw [hfold]
  cases a <;> cases b <;> simp [Dict.get?, Dict.empty]

/-- The handle on a source of the person with an id. -/
def Db.handle? (db : Db) (source : Str) (id : Uuid) : Option Str :=
  (db.person? id).bind (Person.handle? source)

/-- Where an id is used once, its row is found by it. -/
lemma person?_eq_some_iff (hids : KeyUnique Person.id db.persons) {p : Person} :
    db.person? p.id = some p ↔ p ∈ db.persons := by
  constructor
  · exact List.mem_of_find?_eq_some
  · intro hp
    cases hfind : db.person? p.id with
    | none => simpa using List.find?_eq_none.mp hfind p hp
    | some q =>
      have hid : q.id = p.id := by simpa using List.find?_some hfind
      rw [hids.eq_of_id_eq (List.mem_of_find?_eq_some hfind) hp hid]

/-- The query raises exactly if two persons have the handle. -/
lemma lookupHandle_raises_iff (hids : KeyUnique Person.id db.persons) :
    lookupHandle source handle db = .error .multipleResultsFound ↔
      ∃ a b, a ≠ b ∧ db.handle? source a = some handle ∧ db.handle? source b = some handle := by
  have hmem : ∀ {id : Uuid}, db.handle? source id = some handle ↔
      ∃ p ∈ db.personsWithHandle source handle, p.id = id := by
    intro id
    simp only [Db.handle?, Option.bind_eq_some_iff, Db.personsWithHandle, List.mem_filter]
    constructor
    · rintro ⟨p, hp, hhandle⟩
      exact ⟨p, ⟨List.mem_of_find?_eq_some hp, decide_eq_true hhandle⟩,
        by simpa using List.find?_some hp⟩
    · rintro ⟨p, ⟨hp, hhandle⟩, rfl⟩
      exact ⟨p, (person?_eq_some_iff hids).mpr hp, of_decide_eq_true hhandle⟩
  have hnodup : ((db.personsWithHandle source handle).map Person.id).Nodup :=
    hids.sublist (List.filter_sublist.map Person.id)
  simp only [hmem]
  unfold lookupHandle
  split
  · next hnil => simp [hnil]
  · next p hone =>
    refine iff_of_false (by simp) ?_
    rintro ⟨a, b, hne, ⟨q, hq, rfl⟩, r, hr, rfl⟩
    rw [hone, List.mem_singleton] at hq hr
    exact hne (by rw [hq, hr])
  · next hnil hone =>
    refine iff_of_true rfl ?_
    match hfound : db.personsWithHandle source handle with
    | [] => exact absurd hfound hnil
    | [p] => exact absurd hfound (hone p)
    | p :: q :: rest =>
      rw [hfound] at hnodup
      refine ⟨p.id, q.id, ?_, ⟨p, by simp, rfl⟩, q, by simp, rfl⟩
      simp only [List.map_cons, List.nodup_cons, List.mem_cons, not_or] at hnodup
      exact hnodup.1.1

/-- The query raises for no handle exactly if no two persons have a handle in common. -/
lemma unambiguous_iff_injective (hids : KeyUnique Person.id db.persons) :
    Unambiguous db ↔ ∀ source handle a b, db.handle? source a = some handle →
      db.handle? source b = some handle → a = b := by
  simp only [Unambiguous, ne_eq, lookupHandle_raises_iff hids, not_exists, not_and]
  constructor
  · intro h source handle a b ha hb
    by_contra hne
    exact h source handle a b hne ha hb
  · intro h source handle a b hne ha hb
    exact hne (h source handle a b ha hb)

/-- After a merge the canonical person has the handles of both, and every row has kept its own. -/
lemma handle?_mergedDb (hc : db.person? canonicalId = some canonical) (source : Str) (id : Uuid) :
    (mergedDb canonicalId duplicateId canonical duplicate now db).handle? source id =
      if id = canonicalId then (canonical.handle? source).or (duplicate.handle? source)
      else db.handle? source id := by
  have hhandles : ∀ p : Person, (markSuperseded canonicalId duplicateId now
      (mergeFields canonicalId canonical duplicate p)).handle? source =
        if p.id = canonicalId then (canonical.handle? source).or (duplicate.handle? source)
        else p.handle? source := by
    intro p
    have hmark : ∀ q : Person, (markSuperseded canonicalId duplicateId now q).handles =
        q.handles := by
      intro q
      unfold markSuperseded
      split_ifs <;> rfl
    unfold Person.handle?
    rw [hmark]
    unfold mergeFields
    split_ifs
    · simp [get?_mergeHandles]
    · rfl
  rw [Db.handle?, person?_mergedDb, Db.handle?]
  cases hfind : db.person? id with
  | none =>
    rw [if_neg]
    · rfl
    · rintro rfl
      simp [hc] at hfind
  | some p =>
    have hid : p.id = id := by simpa using List.find?_some hfind
    simp [hhandles, hid]

/-- A merge of different persons keeps the query unambiguous exactly if it brings no handle. -/
lemma unambiguous_mergedDb_iff (hids : KeyUnique Person.id db.persons) (h : Unambiguous db)
    (hc : db.person? canonicalId = some canonical) (hd : db.person? duplicateId = some duplicate) :
    Unambiguous (mergedDb canonicalId duplicateId canonical duplicate now db) ↔
      ∀ source, (duplicate.handle? source).isSome → (canonical.handle? source).isSome := by
  rw [unambiguous_iff_injective (keyUnique_mergedDb hids)]
  rw [unambiguous_iff_injective hids] at h
  have hhandlec : ∀ source, db.handle? source canonicalId = canonical.handle? source := by
    intro source
    simp [Db.handle?, hc]
  have hhandled : ∀ source, db.handle? source duplicateId = duplicate.handle? source := by
    intro source
    simp [Db.handle?, hd]
  constructor
  · intro hafter source hsome
    by_contra hnone
    obtain ⟨handle, hhandle⟩ := Option.isSome_iff_exists.mp hsome
    have hmissing : canonical.handle? source = none := by simpa using hnone
    have hne : duplicateId ≠ canonicalId := by
      rintro rfl
      rw [hc] at hd
      obtain rfl := Option.some.inj hd
      simp [hhandle] at hmissing
    -- both rows have the handle now
    refine hne (hafter source handle duplicateId canonicalId ?_ ?_)
    · rw [handle?_mergedDb hc, if_neg hne, hhandled, hhandle]
    · rw [handle?_mergedDb hc, if_pos rfl, hmissing, hhandle, Option.none_or]
  · intro hbrings
    have hkeep : ∀ source id, (mergedDb canonicalId duplicateId canonical duplicate now
        db).handle? source id = db.handle? source id := by
      intro source id
      rw [handle?_mergedDb hc]
      split_ifs with hid
      · rw [hid, hhandlec]
        cases hsource : canonical.handle? source with
        | some handle => rfl
        | none =>
          have hnone := mt (hbrings source) (by simp [hsource])
          simpa using hnone
      · rfl
    simpa only [hkeep] using h

/-- The handle of a created person is the one that was looked up. -/
lemma handle?_createdPerson (source handle displayHint : Str) (id : Uuid) (now : Time)
    (source' : Str) : (createdPerson source handle displayHint id now).handle? source' =
      if source' = source then some handle else none := by
  have hempty : (Dict.empty : Dict Str).get? source' = none := rfl
  simp [Person.handle?, createdPerson, get?_setDefault, hempty]

/-- A row that enters adds its handles. -/
lemma handle?_append {p : Person} (hnew : ∀ q ∈ db.persons, q.id ≠ p.id) (source : Str)
    (id : Uuid) : ({ db with persons := db.persons ++ [p] } : Db).handle? source id =
      if id = p.id then p.handle? source else db.handle? source id := by
  unfold Db.handle? Db.person?
  rw [List.find?_append]
  split_ifs with hid
  · subst hid
    have hnone : db.persons.find? (fun q => q.id = p.id) = none := by
      simpa using hnew
    simp [hnone]
  · have hlast : [p].find? (fun q => decide (q.id = id)) = none := by
      simpa using fun h => hid h.symm
    simp [hlast]

/-- A discovery finds a person, or creates one with a new id for a handle no person has. -/
lemma discover_cases {displayHint : Str}
    (h : personStep db (.discover source handle displayHint id now) = some db') :
    db' = db ∨ lookupHandle source handle db = .ok none ∧
      (∀ q ∈ db.persons, q.id ≠ id) ∧ db' = { db with
        persons := db.persons ++ [createdPerson source handle displayHint id now] } := by
  simp only [personStep, getOrCreatePerson] at h
  cases hlookup : lookupHandle source handle db with
  | error err => simp [hlookup] at h
  | ok found =>
    cases found with
    | some p =>
      simp only [hlookup, Option.some.injEq] at h
      exact Or.inl h.symm
    | none =>
      simp only [hlookup] at h
      split at h
      · next hresult =>
        split_ifs at hresult with htaken
        cases hresult
        cases h
        push Not at htaken
        exact Or.inr ⟨rfl, fun q hq => (htaken q hq).1, rfl⟩
      · cases h

/-- If the query finds no row, no person has the handle. -/
lemma handle?_ne_of_lookup (h : lookupHandle source handle db = .ok none) (id : Uuid) :
    db.handle? source id ≠ some handle := by
  intro hhandle
  obtain ⟨p, hp, hsome⟩ := Option.bind_eq_some_iff.mp hhandle
  have hmem : p ∈ db.personsWithHandle source handle :=
    List.mem_filter.mpr ⟨List.mem_of_find?_eq_some hp, decide_eq_true hsome⟩
  unfold lookupHandle at h
  split at h
  · next hnil => simp [hnil] at hmem
  · cases h
  · cases h

end Handles

/-! ## The law over sequences -/

/-- No id is used twice, and a step keeps it so. -/
lemma keyUnique_personStep {db db' : Db} (hids : KeyUnique Person.id db.persons) {e : PersonEvent}
    (h : personStep db e = some db') : KeyUnique Person.id db'.persons := by
  cases e with
  | discover source handle displayHint id now =>
    rcases discover_cases h with rfl | ⟨-, hnew, rfl⟩
    · exact hids
    · exact hids.append hnew
  | merge e =>
    obtain ⟨canonical, duplicate, -, -, ⟨-, rfl⟩ | ⟨-, rfl⟩⟩ := mergeStep_eq_some h
    · exact hids
    · exact keyUnique_mergedDb hids
  | elsewhere tables =>
    cases h
    exact hids

/-- **One step.** From a database in which the query raises for no handle, it still does not after
a step exactly if the step meets the condition. -/
lemma unambiguous_personStep_iff {db db' : Db} (hids : KeyUnique Person.id db.persons)
    (hdb : Unambiguous db) {e : PersonEvent} (h : personStep db e = some db') :
    Unambiguous db' ↔ BringsNoHandle db e := by
  cases e with
  | discover source handle displayHint id now =>
    refine iff_of_true ?_ trivial
    rcases discover_cases h with rfl | ⟨hnone, hnew, rfl⟩
    · exact hdb
    · rw [unambiguous_iff_injective (keyUnique_personStep hids h)]
      rw [unambiguous_iff_injective hids] at hdb
      have hentry : ∀ source' handle' a, Db.handle? { db with persons := db.persons ++
          [createdPerson source handle displayHint id now] } source' a = some handle' →
          a = id ∧ source' = source ∧ handle' = handle ∨ db.handle? source' a = some handle' := by
        intro source' handle' a ha
        rw [handle?_append hnew, handle?_createdPerson] at ha
        split_ifs at ha with hid hsource
        · exact Or.inl ⟨hid, hsource, (Option.some.inj ha).symm⟩
        · exact Or.inr ha
      intro source' handle' a b ha hb
      rcases hentry source' handle' a ha with ⟨rfl, rfl, rfl⟩ | ha'
      · rcases hentry source' handle' b hb with ⟨rfl, -, -⟩ | hb'
        · rfl
        · exact absurd hb' (handle?_ne_of_lookup hnone b)
      · rcases hentry source' handle' b hb with ⟨rfl, rfl, rfl⟩ | hb'
        · exact absurd ha' (handle?_ne_of_lookup hnone a)
        · exact hdb source' handle' a b ha' hb'
  | merge e =>
    obtain ⟨canonical, duplicate, hc, hd, ⟨hdone, rfl⟩ | ⟨hdone, rfl⟩⟩ := mergeStep_eq_some h
    · refine iff_of_true hdb fun _ _ duplicate' hd' hcanonical => ?_
      rw [Option.mem_def.mp hd', Option.some.injEq] at hd
      rw [← hd, hcanonical] at hdone
      cases hdone
    · rw [unambiguous_mergedDb_iff hids hdb hc hd]
      constructor
      · intro hbrings canonical' hc' duplicate' hd' _
        rw [Option.mem_def.mp hc', Option.some.injEq] at hc
        rw [Option.mem_def.mp hd', Option.some.injEq] at hd
        rw [hc, hd]
        exact hbrings
      · intro hbrings
        exact hbrings canonical hc duplicate hd hdone
  | elsewhere tables =>
    cases h
    exact iff_of_true hdb trivial

/-- **Unambiguous handles.** Over discoveries and merges, from no persons on, the query raises for
no handle after any step exactly if no merge brings the canonical person a handle on a source on
which it has none.

**Proof sketch.** A discovery creates a row only for a handle no row has. A merge gives the
canonical person the handles of the duplicate on the sources it lacks, and the row of the duplicate
keeps them (`handle?_mergedDb`), so that each of these handles is found twice. -/
theorem unambiguous_iff (es : List PersonEvent) :
    History.Meets personStep (fun _ db => Unambiguous db) {} es ↔
      History.Guarded personStep BringsNoHandle {} es := by
  have hempty : KeyUnique Person.id ({} : Db).persons := List.nodup_nil
  apply History.meets_iff_guarded personStep
    (I := fun db => KeyUnique Person.id db.persons ∧ Unambiguous db)
  · intro db e db' hI h
    exact unambiguous_personStep_iff hI.1 hI.2 h
  · intro db e db' hI h hafter
    exact ⟨keyUnique_personStep hI.1 h, hafter⟩
  · refine ⟨hempty, ?_⟩
    rw [unambiguous_iff_injective hempty]
    intro source handle a b ha
    cases ha

/-- A step leaves the handles of every person. -/
lemma handle?_personStep {db db' : Db} {e : PersonEvent} (h : personStep db e = some db')
    {source handle : Str} {id : Uuid} (hid : db.handle? source id = some handle) :
    db'.handle? source id = some handle := by
  cases e with
  | discover source' handle' displayHint new now =>
    rcases discover_cases h with rfl | ⟨-, hnew, rfl⟩
    · exact hid
    · obtain ⟨p, hp, -⟩ := Option.bind_eq_some_iff.mp hid
      have hne : id ≠ new := by
        rintro rfl
        exact hnew p (List.mem_of_find?_eq_some hp) (by simpa using List.find?_some hp)
      rw [handle?_append hnew, if_neg]
      · exact hid
      · exact hne
  | merge e =>
    obtain ⟨canonical, duplicate, hc, -, ⟨-, rfl⟩ | ⟨-, rfl⟩⟩ := mergeStep_eq_some h
    · exact hid
    · rw [handle?_mergedDb hc]
      split_ifs with heq
      · rw [heq, Db.handle?, hc, Option.bind_some] at hid
        rw [hid, Option.some_or]
      · exact hid
  | elsewhere tables =>
    cases h
    exact hid

/-- **Ambiguity stays.** Once the query has raised for a handle, it raises after any further events,
and no discovery of the handle succeeds.

**Proof sketch.** No event takes a handle from a person (`handle?_personStep`). -/
theorem raises_replay {db : Db} (hids : KeyUnique Person.id db.persons) {source handle : Str}
    (h : lookupHandle source handle db = .error .multipleResultsFound) (es : List PersonEvent)
    (displayHint : Str) (id : Uuid) (now : Time) :
    getOrCreatePerson source handle displayHint id now (History.replay personStep db es) =
      .error .multipleResultsFound := by
  obtain ⟨a, b, hne, ha, hb⟩ := (lookupHandle_raises_iff hids).mp h
  have hafter := History.replay_invariant personStep
    (I := fun db => KeyUnique Person.id db.persons ∧
      db.handle? source a = some handle ∧ db.handle? source b = some handle)
    (fun db e db' hI hstep => ⟨keyUnique_personStep hI.1 hstep,
      handle?_personStep hstep hI.2.1, handle?_personStep hstep hI.2.2⟩) ⟨hids, ha, hb⟩ es
  have hraises := (lookupHandle_raises_iff hafter.1).mpr ⟨a, b, hne, hafter.2⟩
  simp only [getOrCreatePerson, hraises]

/-- A founder found on two sources, and the merge of the two rows. -/
def foundTwice : List PersonEvent :=
  [.discover "github".toList "ada".toList [] 1 0,
    .discover "devpost".toList "ada-l".toList [] 2 1, .merge ⟨1, 2, 2⟩]

/-- After the merge the look-up of the second handle raises. -/
theorem not_unambiguous_foundTwice :
    ¬ History.Meets personStep (fun _ db => Unambiguous db) {} foundTwice ∧
      lookupHandle "devpost".toList "ada-l".toList (History.replay personStep {} foundTwice) =
        .error .multipleResultsFound := by
  have hraises : lookupHandle "devpost".toList "ada-l".toList
      (History.replay personStep {} foundTwice) = .error .multipleResultsFound := by
    decide +kernel
  refine ⟨fun hmeets => ?_, hraises⟩
  have hmerge : (personStep (History.replay personStep {} (foundTwice.take 2))
      (.merge ⟨1, 2, 2⟩)).isSome := by decide +kernel
  obtain ⟨db, hdb⟩ := Option.isSome_iff_exists.mp hmerge
  have hfinal : History.replay personStep {} foundTwice = db := History.commit_of_some _ hdb
  exact hmeets.2.2.1 db hdb _ _ (hfinal ▸ hraises)

end VCBrain
