import VCBrain.LifecycleHistory

set_option relaxedAutoImplicit false
set_option autoImplicit false

/-!
# The order of the stages

The transitions of the lifecycle lead forward only. So a path through it enters a stage at most
once, and an opportunity is moved a bounded number of times in any run of the system.

## Main definitions

* `Stage.rank` — the place of a stage; both terminal stages are last.
* `moves` — the events of a history that change the stage.

## Main results

* `FormsPath.sorted` — along a path the stages that are entered come one behind the other.
* `moves_bounded` — no interleaving moves an opportunity to a stage twice, or more than ten times.
-/

namespace VCBrain

/-- The place of a stage in the lifecycle. -/
def Stage.rank : Stage → ℕ
  | discovered => 0
  | interesting => 1
  | investigating => 2
  | contacted => 3
  | received => 4
  | triage => 5
  | screening => 6
  | diligence => 7
  | memoReady => 8
  | hold => 9
  | approved | closed => 10

lemma Stage.rank_le (stage : Stage) : stage.rank ≤ 10 := by
  cases stage <;> decide

lemma Stage.rank_lt (prior : Stage) : ∀ new ∈ prior.transitions, prior.rank < new.rank := by
  cases prior <;> decide

/-- A transition leads forward. -/
lemma rank_lt_of_transition {prior new : Stage} (hvalid : isValidTransition prior new = true)
    (hne : prior ≠ new) : prior.rank < new.rank := by
  have hmem : new ∈ prior.transitions := by
    simpa [isValidTransition, hne] using hvalid
  exact Stage.rank_lt prior new hmem

/-- The events that change the stage. -/
def moves (events : List DecisionEvent) : List DecisionEvent :=
  events.filter fun e => e.priorState ≠ e.newState

/-- The stages that the events enter. -/
def entered (events : List DecisionEvent) : List Stage := (moves events).map DecisionEvent.newState

lemma entered_cons {e : DecisionEvent} {events : List DecisionEvent} :
    entered (e :: events) =
      if e.priorState = e.newState then entered events else e.newState :: entered events := by
  unfold entered moves
  rw [List.filter_cons]
  split_ifs with hchanges hsame hsame <;> simp_all

/-- **Forward only.** Along a path the stages that are entered come one behind the other, behind the
first stage and no further than the last one.

**Proof sketch.** Induction on the events: one that changes the stage leads forward. -/
lemma FormsPath.sorted {start current : Stage} {events : List DecisionEvent}
    (h : FormsPath start events current) :
    (entered events).Pairwise (fun a b => a.rank < b.rank) ∧
      (∀ stage ∈ entered events, start.rank < stage.rank) ∧
      start.rank + (entered events).length ≤ current.rank := by
  induction events generalizing start with
  | nil =>
    obtain rfl : current = start := h
    simp [entered, moves]
  | cons e events ih =>
    obtain ⟨rfl, hvalid, -, hrest⟩ := h
    obtain ⟨hsorted, hbehind, hlength⟩ := ih hrest
    rw [entered_cons]
    split_ifs with hsame
    · rw [hsame]
      exact ⟨hsorted, hbehind, hlength⟩
    · have hlt := rank_lt_of_transition hvalid hsame
      refine ⟨List.pairwise_cons.mpr ⟨hbehind, hsorted⟩, ?_, ?_⟩
      · rw [List.forall_mem_cons]
        exact ⟨hlt, fun stage hstage => hlt.trans (hbehind stage hstage)⟩
      · rw [List.length_cons]
        omega

/-- **Bounded moves.** However discovery runs, pipeline runs and decisions interleave: if every
discovery run that commits a move still finds the opportunity in the stage it read, then no stage is
entered twice, the first stage is not entered again, and there are at most ten moves.

**Proof sketch.** The events form a path in every state (`HistorySystem.Inv`), and a path leads
forward. -/
theorem moves_bounded {isoformat : Time → Str} {id : Uuid} {start : Stage} {db : Db}
    (hpath : PathAt id start { db := db }) {steps : List HistoryStep}
    (hguarded : History.Guarded (HistorySystem.step isoformat id) (ReadStillCurrent id) { db := db }
      steps) :
    let s := History.replay (HistorySystem.step isoformat id) { db := db } steps
    (start :: entered (s.db.eventsOf id)).Nodup ∧ (moves (s.db.eventsOf id)).length ≤ 10 := by
  have hinv : HistorySystem.Inv id start
      (History.replay (HistorySystem.step isoformat id) { db := db } steps) := by
    refine History.replay_of_guarded _ ?_ ?_ hguarded
    · intro s e u hinv hstep hcurrent
      have hstepped := HistorySystem.stepped_of_step hstep
      exact hinv.step hstepped ((hinv.pathAt_iff hstepped).mpr hcurrent)
    · exact ⟨hpath, fun tx t ht => by cases ht⟩
  obtain ⟨row, -, hevents⟩ := hinv.path
  obtain ⟨hsorted, hbehind, hlength⟩ := hevents.sorted
  refine ⟨List.nodup_cons.mpr ⟨fun hmem => lt_irrefl _ (hbehind start hmem), ?_⟩, ?_⟩
  · refine hsorted.imp ?_
    rintro a b hlt rfl
    exact lt_irrefl _ hlt
  · have hmax := row.lifecycleState.rank_le
    rw [entered, List.length_map] at hlength
    omega

/-- A discovery run moves an opportunity, and a run of the pipeline follows. -/
theorem moves_bounded_discovery :
    (moves ((History.replay (HistorySystem.step (fun _ => []) 7) { db := discoveredDb }
      [.discoverRead 1, .discoverWrite 1 10 20 "Signal", .commit 1, .pipelineLock 2]).db.eventsOf
        7)).length ≤ 10 := by
  have hpath : PathAt 7 .discovered { db := discoveredDb } := by decide +kernel
  refine (moves_bounded hpath ?_).2
  refine ⟨fun _ _ => trivial, fun _ _ => trivial, fun _ _ => ?_, fun _ _ => trivial, trivial⟩
  intro row event _ current hcurrent
  cases hcurrent
  rfl

end VCBrain
