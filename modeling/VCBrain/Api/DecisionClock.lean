import VCBrain.Api.DecisionRuns
import VCBrain.OpportunityService

set_option relaxedAutoImplicit false
set_option autoImplicit false

/-!
# The decision clock over decisions

An opportunity can be decided more than once: it is put on hold, and later approved or closed.
Every decision stops the clock again. This file compares what the row says of the clock with the
first decision that was recorded while it ran.

## Main definitions

* `ClockSystem` — the database and the time of the first decision on every running clock.
* `ClockSystem.step` — a decision, or a commit of the rest of the program.
* `ClocksKept` — what the rest of the program does with the clocks.
* `ClockSystem.DecidedOnce` — every clock shows the first decision.

## Main results

* `recordCandidateDecision_row` — what a decision leaves in the rows of the opportunities.
* `decidedOnce_iff_guarded` — a run keeps the clocks at the first decision exactly if no later
  decision is recorded at another time.

## Design

The time of the first decision is not a column: the system carries it beside the database, and no
step reads it. Outside the decisions only `initialize_sla` writes the columns of a clock, and it
writes none of a clock that runs; so the rest of the program enters as any commit with this
property.
-/

namespace VCBrain

/-! ## The columns of the clock -/

namespace Opportunity

variable {o : Opportunity} {now decidedAt : Time}

/-- The clock of the opportunity has been started. -/
def Running (o : Opportunity) : Prop := o.receivedAt.isSome = true

instance : DecidablePred Running := fun _ => inferInstanceAs (Decidable (_ = _))

/-- No decision has stopped the clock. -/
def Undecided (o : Opportunity) : Prop := o.slaAttainment = .pending ∧ o.slaDecidedAt = none

instance : DecidablePred Undecided := fun _ => inferInstanceAs (Decidable (_ ∧ _))

/-- The columns of the clock. -/
def clock (o : Opportunity) : Option Time × Option Time × SlaAttainment × Option Time :=
  (o.receivedAt, o.decisionDueAt, o.slaAttainment, o.slaDecidedAt)

/-- The attainment of a decision made at this time. -/
def attainmentAt (o : Opportunity) (decidedAt : Time) : SlaAttainment :=
  if ∃ due ∈ o.decisionDueAt, decidedAt ≤ due then .met else .breached

/-- The clock shows the first decision: none, or the one made at the given time. -/
def DecidedOnce (o : Opportunity) : Option Time → Prop
  | none => o.Undecided
  | some first => o.slaAttainment = o.attainmentAt first ∧ o.slaDecidedAt = some first

instance (o : Opportunity) : DecidablePred o.DecidedOnce
  | none => inferInstanceAs (Decidable o.Undecided)
  | some _ => inferInstanceAs (Decidable (_ ∧ _))

/-- What the clock shows depends on its columns alone. -/
lemma decidedOnce_congr {o o' : Opportunity} (h : o'.clock = o.clock) (first : Option Time) :
    o'.DecidedOnce first ↔ o.DecidedOnce first := by
  simp only [clock, Prod.mk.injEq] at h
  obtain ⟨-, hdue, hattainment, hdecided⟩ := h
  cases first <;> simp only [DecidedOnce, Undecided, attainmentAt, hdue, hattainment, hdecided]

/-- `initialize_sla` starts a clock that does not run. -/
lemma clock_initializeSla (h : o.Running) : (initializeSla now o).clock = o.clock := by
  unfold Running at h
  unfold initializeSla
  rw [if_pos h]

/-- A clock that is started has not been decided on. -/
lemma undecided_initializeSla (h : o.Undecided) : (initializeSla now o).Undecided := by
  unfold initializeSla
  split_ifs
  · exact h
  · exact ⟨rfl, h.2⟩

/-- A transition leaves a clock that runs as it is. -/
lemma clock_moved {newState : Stage} (h : o.Running) : (moved now newState o).clock = o.clock := by
  have hreceive : (receiveAt now newState o).clock = o.clock := by
    unfold receiveAt
    split_ifs
    · exact clock_initializeSla h
    · rfl
  exact hreceive

/-- A transition decides nothing. -/
lemma undecided_moved {newState : Stage} (h : o.Undecided) :
    (moved now newState o).Undecided := by
  have hreceive : (receiveAt now newState o).Undecided := by
    unfold receiveAt
    split_ifs
    · exact undecided_initializeSla h
    · exact h
  exact hreceive

/-- `finalize_sla` stops a clock that runs at the time it is given. -/
lemma decidedOnce_finalizeSla_iff (h : o.Running) (first : Time) :
    (finalizeSla decidedAt o).1.DecidedOnce (some first) ↔ decidedAt = first := by
  have hnone : o.receivedAt.isNone = false := by
    simpa [Running, Option.isSome_iff_ne_none] using h
  simp only [finalizeSla, hnone, Bool.false_eq_true, if_false, DecidedOnce, attainmentAt,
    Option.some.injEq, and_iff_right_iff_imp]
  rintro rfl
  rfl

/-- `finalize_sla` leaves a clock that does not run as it is. -/
lemma finalizeSla_of_not_running (h : ¬ o.Running) : (finalizeSla decidedAt o).1 = o := by
  have hnone : o.receivedAt.isNone = true := by
    simpa [Running, Option.isNone_iff_eq_none] using h
  simp [finalizeSla, hnone]

/-- `finalize_sla` neither starts a clock nor takes one back. -/
lemma running_finalizeSla : (finalizeSla decidedAt o).1.Running ↔ o.Running := by
  unfold finalizeSla Running
  split_ifs <;> exact Iff.rfl

end Opportunity

/-! ## What a decision leaves in the rows -/

section Decision

variable {isoformat : Time → Str} {decisionAt createdAt : Time} {newId : Uuid} {db db' : Db}
  {req : DecisionRequest} {opp : Opportunity} {d : NewDecision} {response : DecisionResponse}

/-- No decision is stored under the key of the request. -/
def KeyIsNew (db : Db) (req : DecisionRequest) : Prop :=
  ∀ e ∈ db.decisionEvents, e.idempotencyKey ≠ some req.key

instance (db : Db) (req : DecisionRequest) : Decidable (KeyIsNew db req) :=
  inferInstanceAs (Decidable (∀ e ∈ db.decisionEvents, _))

/-- The row of a new decision: its clock is stopped and its stage moves on. -/
lemma opportunity_of_decideLocked
    (h : decideLocked isoformat decisionAt newId db req opp = .ok (.decided d)) :
    d.opportunity = { (finalizeSla decisionAt opp).1 with
      lifecycleState := decisionStateForAction req.action } := by
  unfold decideLocked at h
  by_cases hreason : req.reason.strip.length < 3
  · rw [if_pos hreason] at h
    cases h
  rw [if_neg hreason] at h
  cases hfind : db.decisionEvents.find? fun e => e.idempotencyKey = some req.key with
  | some e =>
    rw [hfind] at h
    dsimp only at h
    split_ifs at h
    cases h
  | none =>
    rw [hfind] at h
    dsimp only at h
    split_ifs at h
    cases hmemo : latest InvestmentMemo.createdAt (db.investmentMemos.filter fun m =>
        m.opportunityId = opp.id ∧ m.status = ("succeeded" : Str)) with
    | none =>
      rw [hmemo] at h
      cases h
    | some memo =>
      rw [hmemo] at h
      cases h
      rfl

/-- The row that a new decision leaves. -/
def decidedRow (decisionAt createdAt : Time) (req : DecisionRequest) (opp : Opportunity) :
    Opportunity :=
  { (finalizeSla decisionAt opp).1 with
    lifecycleState := decisionStateForAction req.action
    updatedAt := createdAt }

@[simp] lemma decidedRow_id : (decidedRow decisionAt createdAt req opp).id = opp.id :=
  (finalizeSla_fst_frame decisionAt opp).1

/-- The clock of the row is stopped. -/
lemma decidedRow_clock :
    (decidedRow decisionAt createdAt req opp).clock = (finalizeSla decisionAt opp).1.clock := rfl

/-- **A decision.** A request that succeeds repeats a stored decision and changes nothing, or
records a new one: the row of its opportunity is replaced by one with the clock stopped.

**Proof sketch.** The request runs through the lock, the verdict and the commit. A verdict is a
stored response only if the key is taken; a new decision is made on the row that was locked. -/
lemma recordCandidateDecision_row
    (h : recordCandidateDecision isoformat decisionAt createdAt newId db req =
      .ok (response, db')) :
    (¬ KeyIsNew db req ∧ db' = db) ∨
      (KeyIsNew db req ∧ ∃ opp, db.opportunity? req.opportunityId = some opp ∧
        db'.opportunities = replaceOpportunity db.opportunities
          (decidedRow decisionAt createdAt req opp)) := by
  unfold recordCandidateDecision at h
  cases hlock : lockOpportunity db req with
  | error e => rw [hlock] at h; cases h
  | ok opp =>
    rw [hlock] at h
    dsimp only at h
    cases hverdict : decideLocked isoformat decisionAt newId db req opp with
    | error e => rw [hverdict] at h; cases h
    | ok verdict =>
      rw [hverdict] at h
      rcases (decideLocked_cases hverdict).2 with ⟨e, hfind, -, rfl⟩ | ⟨hnew, d, rfl, -⟩
      · cases h
        have hkey : e.idempotencyKey = some req.key := by simpa using List.find?_some hfind
        exact Or.inl ⟨fun hnew => hnew e (List.mem_of_find?_eq_some hfind) hkey, rfl⟩
      · dsimp only at h
        cases hcommit : commitDecision createdAt db d with
        | none => rw [hcommit] at h; cases h
        | some db'' =>
          rw [hcommit] at h
          cases h
          obtain ⟨-, -, hrows, -⟩ := commitDecision_eq_some hcommit
          rw [opportunity_of_decideLocked hverdict] at hrows
          exact Or.inr ⟨hnew, opp, (lockOpportunity_eq_ok_iff.mp hlock).2, hrows⟩

end Decision

/-! ## The rest of the program -/

/-- What the rest of the program does with the clocks in one commit: a clock that runs keeps its
columns, and no other clock becomes decided. -/
structure ClocksKept (db db' : Db) : Prop where
  keyed : KeyUnique Opportunity.id db'.opportunities
  running : ∀ old ∈ db.opportunities, old.Running →
    ∃ o ∈ db'.opportunities, o.id = old.id ∧ o.clock = old.clock
  others : ∀ o ∈ db'.opportunities, o.Undecided ∨
    ∃ old ∈ db.opportunities, old.id = o.id ∧ old.Running

instance (db db' : Db) : Decidable (ClocksKept db db') :=
  have : Decidable (KeyUnique Opportunity.id db'.opportunities) :=
    inferInstanceAs (Decidable (List.Nodup _))
  decidable_of_iff
    (KeyUnique Opportunity.id db'.opportunities ∧
      (∀ old ∈ db.opportunities, old.Running →
        ∃ o ∈ db'.opportunities, o.id = old.id ∧ o.clock = old.clock) ∧
      ∀ o ∈ db'.opportunities, o.Undecided ∨
        ∃ old ∈ db.opportunities, old.id = o.id ∧ old.Running)
    ⟨fun ⟨hkeyed, hrunning, hothers⟩ => ⟨hkeyed, hrunning, hothers⟩,
      fun h => ⟨h.keyed, h.running, h.others⟩⟩

/-- A transition keeps the clocks, as it starts a clock at most once. -/
lemma clocksKept_moved {db : Db} {o : Opportunity} (now : Time) (newState : Stage)
    (hkeyed : KeyUnique Opportunity.id db.opportunities) (ho : o ∈ db.opportunities)
    (hundecided : ∀ row ∈ db.opportunities, row.Undecided ∨ row.Running) :
    ClocksKept db { db with
      opportunities := replaceOpportunity db.opportunities (moved now newState o) } where
  keyed := by
    unfold KeyUnique
    rw [map_id_replaceOpportunity]
    exact hkeyed
  running := by
    intro old hold hrunning
    refine ⟨_, List.mem_map_of_mem hold, ?_⟩
    by_cases hid : old.id = (moved now newState o).id
    · obtain rfl : old = o := hkeyed.eq_of_id_eq hold ho (hid.trans (moved_id _ _ _))
      rw [if_pos hid]
      exact ⟨hid.symm, Opportunity.clock_moved hrunning⟩
    · rw [if_neg hid]
      exact ⟨rfl, rfl⟩
  others := by
    intro row hrow
    obtain ⟨old, hold, rfl⟩ := List.mem_map.mp hrow
    by_cases hid : old.id = (moved now newState o).id
    · obtain rfl : old = o := hkeyed.eq_of_id_eq hold ho (hid.trans (moved_id _ _ _))
      rw [if_pos hid]
      rcases hundecided old hold with hfresh | hrunning
      · exact Or.inl (Opportunity.undecided_moved hfresh)
      · exact Or.inr ⟨old, hold, hid, hrunning⟩
    · rw [if_neg hid]
      exact (hundecided old hold).imp_right fun hrunning => ⟨old, hold, rfl, hrunning⟩

/-! ## Runs of decisions -/

/-- The database, and when the first decision on each running clock was recorded. -/
structure ClockSystem where
  db : Db
  first : Uuid → Option Time := fun _ => none

/-- A request for a decision, or a commit of the rest of the program. -/
inductive ClockStep where
  | decide (decisionAt createdAt : Time) (newId : Uuid) (req : DecisionRequest)
  | elsewhere (db : Db)

namespace ClockSystem

/-- A new decision on a running clock is its first one, unless there is one already. -/
def firstAfter (s : ClockSystem) (decisionAt : Time) (req : DecisionRequest) :
    Uuid → Option Time :=
  if KeyIsNew s.db req ∧ (∃ o ∈ s.db.opportunity? req.opportunityId, o.Running) ∧
      s.first req.opportunityId = none then
    Function.update s.first req.opportunityId (some decisionAt)
  else s.first

/-- One step: a request that is rejected commits nothing. -/
def step (isoformat : Time → Str) (s : ClockSystem) : ClockStep → Option ClockSystem
  | .decide decisionAt createdAt newId req =>
    match recordCandidateDecision isoformat decisionAt createdAt newId s.db req with
    | .error _ => none
    | .ok (_, db) => some { db := db, first := s.firstAfter decisionAt req }
  | .elsewhere db => if ClocksKept s.db db then some { s with db := db } else none

/-- Every clock shows the first decision that was recorded while it ran. -/
def DecidedOnce (s : ClockSystem) : Prop := ∀ o ∈ s.db.opportunities, o.DecidedOnce (s.first o.id)

instance : DecidablePred DecidedOnce := fun s =>
  inferInstanceAs (Decidable (∀ o ∈ s.db.opportunities, _))

/-- A decision that is recorded under a new key, on an opportunity decided before, is made at the
time of the first decision. -/
def NotDecidedLater (s : ClockSystem) : ClockStep → Prop
  | .decide decisionAt _ _ req =>
    KeyIsNew s.db req → ∀ first ∈ s.first req.opportunityId, decisionAt = first
  | .elsewhere _ => True

instance (s : ClockSystem) : DecidablePred s.NotDecidedLater
  | .decide _ _ _ _ => inferInstanceAs (Decidable (_ → _))
  | .elsewhere _ => inferInstanceAs (Decidable True)

/-- What a run keeps: ids are distinct, every clock shows the first decision, and only a clock that
runs has one. -/
structure Sound (s : ClockSystem) : Prop where
  keyed : KeyUnique Opportunity.id s.db.opportunities
  decidedOnce : s.DecidedOnce
  running : ∀ id first, s.first id = some first →
    ∃ o ∈ s.db.opportunities, o.id = id ∧ o.Running

variable {s u : ClockSystem} {db' : Db} {opp new : Opportunity} {first : Uuid → Option Time}

/-- A clock that does not run has no first decision. -/
lemma Sound.first_of_not_running (hs : s.Sound) (ho : opp ∈ s.db.opportunities)
    (hstopped : ¬ opp.Running) : s.first opp.id = none := by
  cases hfirst : s.first opp.id with
  | none => rfl
  | some t =>
    obtain ⟨o, hmem, hid, hrunning⟩ := hs.running _ _ hfirst
    obtain rfl : o = opp := hs.keyed.eq_of_id_eq hmem ho hid
    exact absurd hrunning hstopped

/-- Replacing one row keeps the clocks at the first decision if the new row does. -/
lemma Sound.decidedOnce_replace_iff (hs : s.Sound) (ho : opp ∈ s.db.opportunities)
    (hid : new.id = opp.id) (hrows : db'.opportunities = replaceOpportunity s.db.opportunities new)
    (hfirst : ∀ id, id ≠ opp.id → first id = s.first id) :
    DecidedOnce { db := db', first := first } ↔ new.DecidedOnce (first opp.id) := by
  unfold DecidedOnce
  rw [hrows]
  constructor
  · intro hall
    have hnew : new ∈ replaceOpportunity s.db.opportunities new :=
      List.mem_map.mpr ⟨opp, ho, if_pos hid.symm⟩
    exact hid ▸ hall new hnew
  · intro hnew row hrow
    obtain ⟨old, hold, rfl⟩ := List.mem_map.mp hrow
    by_cases heq : old.id = new.id
    · rw [if_pos heq, hid]
      exact hnew
    · rw [if_neg heq]
      dsimp only
      rw [hfirst _ fun h => heq (h.trans hid.symm)]
      exact hs.decidedOnce old hold

/-- Replacing one row keeps a sound system sound, if the clocks still show the first decision. -/
lemma Sound.replace (hs : s.Sound) (ho : opp ∈ s.db.opportunities)
    (hid : new.id = opp.id) (hrows : db'.opportunities = replaceOpportunity s.db.opportunities new)
    (hfirst : ∀ id, id ≠ opp.id → first id = s.first id)
    (hrunning : new.Running ∨ first opp.id = none)
    (honce : DecidedOnce { db := db', first := first }) :
    Sound { db := db', first := first } where
  keyed := by
    unfold KeyUnique
    rw [hrows, map_id_replaceOpportunity]
    exact hs.keyed
  decidedOnce := honce
  running := by
    intro id t ht
    dsimp only at ht ⊢
    rw [hrows]
    by_cases heq : id = opp.id
    · subst heq
      refine ⟨new, List.mem_map.mpr ⟨opp, ho, if_pos hid.symm⟩, hid, ?_⟩
      exact hrunning.resolve_right (by rw [ht]; exact Option.some_ne_none t)
    · obtain ⟨o, hmem, rfl, hrun⟩ := hs.running id t ((hfirst id heq).symm.trans ht)
      exact ⟨o, List.mem_map.mpr ⟨o, hmem, if_neg fun h => heq (h.trans hid)⟩, rfl, hrun⟩

/-- **A decision.** A request that succeeds keeps every clock at the first decision exactly if it is
not a later decision made at another time, and the system then stays sound.

**Proof sketch.** A repeated request changes nothing. A new decision replaces the row it is made
on. If the clock of the row does not run, neither it nor its first decision changes; if it runs and
has no first decision, it gets this one; and if it has one, the row now shows the time of this
decision in its place. -/
lemma Sound.decide {isoformat : Time → Str} {decisionAt createdAt : Time} {newId : Uuid}
    {req : DecisionRequest} (hs : s.Sound)
    (h : s.step isoformat (.decide decisionAt createdAt newId req) = some u) :
    (u.DecidedOnce ↔ s.NotDecidedLater (.decide decisionAt createdAt newId req)) ∧
      (u.DecidedOnce → u.Sound) := by
  unfold step at h
  dsimp only at h
  cases hrecord : recordCandidateDecision isoformat decisionAt createdAt newId s.db req with
  | error e => rw [hrecord] at h; cases h
  | ok result =>
    obtain ⟨response, db'⟩ := result
    rw [hrecord] at h
    cases h
    rcases recordCandidateDecision_row hrecord with ⟨hrepeat, rfl⟩ | ⟨hnew, opp, hopp, hrows⟩
    · have hkeep : s.firstAfter decisionAt req = s.first := if_neg fun h => hrepeat h.1
      rw [hkeep]
      exact ⟨iff_of_true hs.decidedOnce fun hnew => absurd hnew hrepeat, fun _ => hs⟩
    have hid : opp.id = req.opportunityId := id_of_opportunity? hopp
    have hmem : opp ∈ s.db.opportunities := List.mem_of_find?_eq_some hopp
    have hframe : (decidedRow decisionAt createdAt req opp).id = opp.id := decidedRow_id
    by_cases hrunning : opp.Running
    · have hrun : (decidedRow decisionAt createdAt req opp).Running :=
        Opportunity.running_finalizeSla.mpr hrunning
      have hshown : ∀ first, (decidedRow decisionAt createdAt req opp).DecidedOnce (some first) ↔
          decisionAt = first :=
        Opportunity.decidedOnce_finalizeSla_iff hrunning
      cases hfirst : s.first req.opportunityId with
      | none =>
        have hafter : s.firstAfter decisionAt req =
            Function.update s.first opp.id (some decisionAt) := by
          rw [hid]
          exact if_pos ⟨hnew, ⟨opp, hopp, hrunning⟩, hfirst⟩
        rw [hafter]
        have hothers : ∀ id, id ≠ opp.id →
            Function.update s.first opp.id (some decisionAt) id = s.first id :=
          fun id hne => Function.update_of_ne hne _ _
        refine ⟨?_, hs.replace hmem hframe hrows hothers (Or.inl hrun)⟩
        rw [hs.decidedOnce_replace_iff hmem hframe hrows hothers, Function.update_self, hshown]
        simp [NotDecidedLater, hfirst]
      | some first =>
        have hafter : s.firstAfter decisionAt req = s.first :=
          if_neg fun h => by simp [hfirst] at h
        rw [hafter]
        refine ⟨?_, hs.replace hmem hframe hrows (fun _ _ => rfl) (Or.inl hrun)⟩
        rw [hs.decidedOnce_replace_iff hmem hframe hrows fun _ _ => rfl, hid, hfirst, hshown]
        simp [NotDecidedLater, hfirst, hnew]
    · have hnone := hs.first_of_not_running hmem hrunning
      have hafter : s.firstAfter decisionAt req = s.first := if_neg fun h => by
        obtain ⟨-, ⟨o, ho, hrun⟩, -⟩ := h
        exact hrunning (Option.some.inj (hopp.symm.trans ho) ▸ hrun)
      rw [hafter]
      refine ⟨?_, hs.replace hmem hframe hrows (fun _ _ => rfl) (Or.inr hnone)⟩
      rw [hs.decidedOnce_replace_iff hmem hframe hrows fun _ _ => rfl]
      refine iff_of_true ?_ fun _ first hfirst => ?_
      · rw [Opportunity.decidedOnce_congr decidedRow_clock,
          Opportunity.finalizeSla_of_not_running hrunning]
        exact hs.decidedOnce opp hmem
      · rw [← hid, hnone] at hfirst
        cases hfirst

/-- A commit of the rest of the program keeps the system sound. -/
lemma Sound.elsewhere {isoformat : Time → Str} (hs : s.Sound)
    (h : s.step isoformat (.elsewhere db') = some u) : u.Sound := by
  unfold step at h
  dsimp only at h
  split_ifs at h with hkept
  cases h
  refine ⟨hkept.keyed, ?_, ?_⟩
  · have hsame : ∀ o ∈ db'.opportunities, ∀ old ∈ s.db.opportunities, old.id = o.id →
        old.Running → o.DecidedOnce (s.first o.id) := by
      intro o ho old hold hid hrunning
      obtain ⟨o', ho', hid', hclock⟩ := hkept.running old hold hrunning
      obtain rfl : o' = o := hkept.keyed.eq_of_id_eq ho' ho (hid'.trans hid)
      rw [← hid, Opportunity.decidedOnce_congr hclock]
      exact hs.decidedOnce old hold
    intro o ho
    rcases hkept.others o ho with hfresh | ⟨old, hold, hid, hrunning⟩
    · cases hfirst : s.first o.id with
      | none => exact hfresh
      | some t =>
        obtain ⟨old, hold, hid, hrunning⟩ := hs.running _ _ hfirst
        exact hfirst ▸ hsame o ho old hold hid hrunning
    · exact hsame o ho old hold hid hrunning
  · intro id t ht
    obtain ⟨old, hold, rfl, hrunning⟩ := hs.running id t ht
    obtain ⟨o, ho, hid, hclock⟩ := hkept.running old hold hrunning
    refine ⟨o, ho, hid, ?_⟩
    simp only [Opportunity.clock, Prod.mk.injEq] at hclock
    unfold Opportunity.Running
    rw [hclock.1]
    exact hrunning

/-- **Decided once.** Through a run of decisions, in any order with the commits of the rest of the
program, every clock shows the first decision that was recorded while it ran, exactly if no later
decision on the same opportunity is recorded at another time.

**Proof sketch.** By the step lemmas `Sound.decide` and `Sound.elsewhere`, a step from a sound
system meets its duty exactly if it meets its guard, and then leads to a sound system; the rule for
histories (`History.meets_iff_guarded`) lifts this to runs. -/
theorem decidedOnce_iff_guarded (isoformat : Time → Str) (hs : s.Sound) (steps : List ClockStep) :
    History.Meets (step isoformat) (fun _ u => u.DecidedOnce) s steps ↔
      History.Guarded (step isoformat) NotDecidedLater s steps := by
  refine History.meets_iff_guarded (step isoformat) ?_ ?_ hs steps
  · intro s e u hs h
    cases e with
    | decide => exact (hs.decide h).1
    | elsewhere db' => exact iff_of_true (hs.elsewhere h).decidedOnce trivial
  · intro s e u hs h honce
    cases e with
    | decide => exact (hs.decide h).2 honce
    | elsewhere db' => exact hs.elsewhere h

/-- A database in which no clock has been stopped is sound. -/
lemma sound_of_undecided {db : Db} (hkeyed : KeyUnique Opportunity.id db.opportunities)
    (hundecided : ∀ o ∈ db.opportunities, o.Undecided) : Sound { db := db } where
  keyed := hkeyed
  decidedOnce := hundecided
  running := by
    intro id first h
    cases h

/-- A database whose opportunity was received at the beginning of the epoch. -/
private def clockedDb : Db :=
  { awaitingDb with opportunities := [initializeSla 0 awaitingOpportunity] }

private lemma sound_clockedDb : Sound { db := clockedDb } :=
  sound_of_undecided (by unfold KeyUnique; decide) (by decide)

/-- A request to put the opportunity on hold. -/
private def holdRequest : DecisionRequest :=
  { proceedRequest with action := .hold, idempotencyKey := "hold" }

/-- A hold that is repeated under its key, late, keeps the clock at the first answer. -/
theorem decidedOnce_iff_guarded_hold :
    History.Meets (step fun _ => []) (fun _ u => u.DecidedOnce) { db := clockedDb }
      [.decide (minutes 60) (minutes 60) 20 holdRequest,
        .decide (minutes 2000) (minutes 2000) 21 holdRequest] :=
  (decidedOnce_iff_guarded (fun _ => []) sound_clockedDb _).mpr (by decide +kernel)

/-- An opportunity that is put on hold in time and approved after the deadline has its decision
recorded as late. -/
theorem not_decidedOnce_of_hold :
    ¬ ∀ (isoformat : Time → Str) (s : ClockSystem) (steps : List ClockStep), s.Sound →
      History.Meets (step isoformat) (fun _ u => u.DecidedOnce) s steps := by
  intro hall
  have hrun := hall (fun _ => []) { db := clockedDb }
    [.decide (minutes 60) (minutes 60) 20 holdRequest,
      .decide (minutes 2000) (minutes 2000) 21 proceedRequest] sound_clockedDb
  exact absurd hrun (by decide +kernel)

end ClockSystem

end VCBrain
