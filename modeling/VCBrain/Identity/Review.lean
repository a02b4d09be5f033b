import VCBrain.Identity.Groups
import VCBrain.Identity.Resolve

set_option relaxedAutoImplicit false
set_option autoImplicit false

/-!
# The review queue

A reviewer approves or rejects a pending match. Approval merges the two persons of the row, of
whom either may have been merged elsewhere since it was queued.

## Main definitions

* `approveMatch`, `rejectMatch` — the two requests; `none` is an error response.

## Main results

* `approveMatch_eq_some` — an approval that does not fail is a merge of the persons of the row.
-/

namespace VCBrain

/-- The row of a match receives its resolution. -/
def resolveMatch (rows : List PersonMatch) (matchId : Uuid) (status : MatchStatus) (now : Time) :
    List PersonMatch :=
  rows.map fun m =>
    if m.id = matchId then { m with status := status, resolvedAt := some now } else m

/-- The row of a match that is pending. -/
def pendingMatch (matchId : Uuid) (db : Db) : Option PersonMatch :=
  (db.personMatches.find? fun m => m.id = matchId).filter fun m => m.status = .pending

/-- The persons an approval merges, the earlier-created first. -/
def approvedPersons (matchId : Uuid) (db : Db) : Option (Uuid × Uuid) := do
  let m ← pendingMatch matchId db
  let a ← db.person? m.personAId
  let b ← db.person? m.personBId
  some (canonicalFirst a b)

/-- `approve_match`. -/
def approveMatch (matchId : Uuid) (now : Time) (db : Db) : Option Db :=
  (approvedPersons matchId db).bind fun ids =>
    (mergePersons ids.1 ids.2 now db).toOption.map fun db' =>
      { db' with personMatches := resolveMatch db'.personMatches matchId .approved now }

/-- `reject_match`. -/
def rejectMatch (matchId : Uuid) (now : Time) (db : Db) : Option Db :=
  (pendingMatch matchId db).map fun _ =>
    { db with personMatches := resolveMatch db.personMatches matchId .rejected now }

/-- An approval merges the two persons, unless the later one was merged before. -/
lemma approveMatch_eq_some {matchId : Uuid} {now : Time} {db db' : Db}
    (h : approveMatch matchId now db = some db') :
    ∃ ids canonical duplicate rows, approvedPersons matchId db = some ids ∧
      db.person? ids.1 = some canonical ∧ db.person? ids.2 = some duplicate ∧
      ((duplicate.canonical = false ∧ db' = { db with personMatches := rows }) ∨
        (duplicate.canonical = true ∧ db' = { mergedDb ids.1 ids.2 canonical duplicate now db with
          personMatches := rows })) := by
  obtain ⟨ids, hids, h⟩ := Option.bind_eq_some_iff.mp h
  obtain ⟨merged, hmerge, rfl⟩ := Option.map_eq_some_iff.mp h
  obtain ⟨canonical, duplicate, hc, hd, heffect⟩ :=
    mergeStep_eq_some (e := ⟨ids.1, ids.2, now⟩) hmerge
  refine ⟨ids, canonical, duplicate, resolveMatch merged.personMatches matchId .approved now, hids,
    hc, hd, ?_⟩
  cases heffect with
  | inl hdone => exact Or.inl ⟨hdone.1, by rw [hdone.2]⟩
  | inr hlink => exact Or.inr ⟨hlink.1, by rw [hlink.2]⟩

end VCBrain
