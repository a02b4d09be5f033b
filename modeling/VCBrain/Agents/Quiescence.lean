import VCBrain.Agents.PipelineProgress

set_option relaxedAutoImplicit false
set_option autoImplicit false

/-!
# The next run of the pipeline

Two runs within the stuck window: when does the second one leave alone what the first one did not
move? It requests an outreach draft again and again, and it may reach opportunities that had no
turn in the first run.

## Main definitions

* `TimesOut` — an investigation that a run closes.
* `stillAhead` — who is ahead of an opportunity once a run has closed what times out.
* `NextRunQuiescent` — the second run does nothing for an opportunity that the first did not move.

## Main results

* `mem_pipelineBatch_run_iff` — the batch of the second run, seen from the first.
* `nextRunQuiescent_iff` — for which opportunities the second run is quiescent.
-/

namespace VCBrain

/-- A run closes the investigation of the opportunity. -/
def TimesOut (env : PipelineEnv) (now : Time) (db : Db) (opp : Opportunity) : Prop :=
  (env.anyFounder.pick (foundersOf db opp.id)).isSome ∧ opp.lifecycleState = .investigating ∧
    ¬ HasOpportunityAxes db opp.id ∧ opp.updatedAt ≤ stuckCutoff env now ∧
    maxRetries ≤ countRetries db opp.id

instance (env : PipelineEnv) (now : Time) (db : Db) : DecidablePred (TimesOut env now db) :=
  fun _ => inferInstanceAs (Decidable (_ ∧ _))

/-- The opportunities ahead that are still open after a run. -/
def stillAhead (env : PipelineEnv) (now : Time) (db : Db) (opp : Opportunity) : List Opportunity :=
  (ahead db opp).filter fun o => ¬ (o ∈ pipelineBatch env db ∧ TimesOut env now db o)

/-- Whatever budget there is, if a run makes no transition for the opportunity, the next run charges
nothing for it, queues nothing and records nothing. -/
def NextRunQuiescent (env : PipelineEnv) (now later : Time) (draw draw' : Uuid → Uuid) (db : Db)
    (opp : Opportunity) : Prop :=
  ∀ s : PipelineState, s.db = db →
    ((advancePipelineJob env now draw s).db.opportunity? opp.id).map Opportunity.lifecycleState =
      some opp.lifecycleState →
    Quiescent (outcomeOf env later draw' (advancePipelineJob env now draw s) opp.id)

section

variable {env : PipelineEnv} {now later : Time} {draw draw' : Uuid → Uuid} {s : PipelineState}
  {db : Db} {budget : ℤ} {newId : Uuid} {opp : Opportunity} {person : Person}

/-- A turn closes an opportunity only if its investigation times out. -/
lemma advance_isOpen_iff (hopen : opp.IsOpen) :
    (advance env now db budget newId opp person).opportunity.IsOpen ↔
      ¬ (opp.lifecycleState = .investigating ∧ ¬ HasOpportunityAxes db opp.id ∧
        opp.updatedAt ≤ stuckCutoff env now ∧ maxRetries ≤ countRetries db opp.id) := by
  by_cases htimes : opp.lifecycleState = .investigating ∧ ¬ HasOpportunityAxes db opp.id ∧
      opp.updatedAt ≤ stuckCutoff env now ∧ maxRetries ≤ countRetries db opp.id
  · obtain ⟨hstage, haxes, hupdated, hretries⟩ := htimes
    rw [advance_of_investigating hstage, if_neg haxes]
    rcases retryInvestigation_cases env now db budget newId person hstage rfl with
      ⟨hfresh, -⟩ | ⟨-, ⟨-, hclosed, -⟩ | ⟨hfew, -⟩⟩
    · exact absurd hfresh (not_lt.mpr hupdated)
    · exact iff_of_false (fun h => h.2 hclosed) (fun h => h ⟨hstage, haxes, hupdated, hretries⟩)
    · exact absurd hfew (not_lt.mpr hretries)
  · refine iff_of_true ?_ htimes
    rcases opp.lifecycleState.pipeline_cases with ⟨next, hnext⟩ | hstage | hstage | hstage | hstage
    · obtain ⟨reason, missing, calls, task, -, -, hne, hvalid, -, -, hbranch⟩ :=
        advance_inbound env person hnext
      have hnextOpen : next ≠ .approved ∧ next ≠ .closed := by
        revert hnext
        cases opp.lifecycleState <;> rintro ⟨⟩ <;> decide
      rw [hbranch]
      unfold awaitArtifact
      by_cases hgate : Gate db person.id opp.id next
      · rw [if_pos (decide_eq_true hgate), moveTo_eq hne hvalid]
        exact hnextOpen
      · rw [if_neg (by simpa using hgate)]
        split_ifs <;> exact hopen
    · rw [advance_of_discovered hstage]
      rcases advanceDiscovered_cases env now db newId opp person with
          ⟨-, reason, hmoved⟩ | ⟨-, hstay⟩
      · rw [hmoved, moveTo_eq (by simp [hstage]) (by rw [hstage]; decide)]
        exact ⟨nofun, nofun⟩
      · rw [hstay]
        exact hopen
    · rw [advance_of_interesting hstage]
      rcases advanceInteresting_cases now db budget newId person hstage rfl with
          ⟨-, hstay⟩ | ⟨-, ⟨-, hwait⟩ | ⟨-, hmoved, -⟩⟩
      · rw [hstay]
        exact hopen
      · rw [hwait]
        exact hopen
      · unfold Opportunity.IsOpen
        rw [hmoved]
        exact ⟨nofun, nofun⟩
    · rw [advance_of_investigating hstage]
      split_ifs with haxes
      · rcases requestOutreach_cases env now db budget newId opp person with
          ⟨-, ⟨-, hwait⟩ | ⟨-, reason, metadata, hnoted⟩⟩ | ⟨-, hstay⟩
        · rw [hwait]
          exact hopen
        · rw [hnoted]
          exact hopen
        · rw [hstay]
          exact hopen
      · rcases retryInvestigation_cases env now db budget newId person hstage rfl with
          ⟨-, hstay⟩ | ⟨hold, ⟨hmany, -, -⟩ | ⟨-, ⟨-, hwait⟩ | ⟨-, hopp, -, -⟩⟩⟩
        · rw [hstay]
          exact hopen
        · exact absurd ⟨hstage, haxes, hold, hmany⟩ htimes
        · rw [hwait]
          exact hopen
        · rw [hopp]
          exact hopen
    · rw [advance_of_parked hstage]
      exact hopen

/-- After a run the opportunities are open that were open and have not timed out in their turn. -/
lemma rowAfter_isOpen_iff (hkey : KeyUnique Opportunity.id s.db.opportunities)
    (hopp : opp ∈ s.db.opportunities) :
    (rowAfter env now draw s opp).IsOpen ↔
      opp.IsOpen ∧ ¬ (opp ∈ pipelineBatch env s.db ∧ TimesOut env now s.db opp) := by
  unfold rowAfter
  by_cases hmem : opp ∈ pipelineBatch env s.db
  · have hopen := (mem_of_mem_pipelineBatch hmem).2
    rw [(run_of_mem hkey hmem).outcome]
    unfold TimesOut
    cases env.anyFounder.pick (foundersOf s.db opp.id) with
    | none => simp [hopen]
    | some person =>
      show (advance ..).opportunity.IsOpen ↔ _
      rw [advance_isOpen_iff hopen]
      simp [hopen, hmem]
  · rw [(run_of_notMem _ _ _ hkey hopp hmem).1]
    simp [hmem]

variable (env now) in
/-- **The next batch.** An opportunity that a run left as it is is in the next batch exactly if
fewer than `batchSize` opportunities are still ahead of it. -/
theorem mem_pipelineBatch_run_iff (hkey : KeyUnique Opportunity.id s.db.opportunities)
    (hopp : opp ∈ s.db.opportunities) (hopen : opp.IsOpen)
    (hrow : rowAfter env now draw s opp = opp) :
    opp ∈ pipelineBatch env (advancePipelineJob env now draw s).db ↔
      (stillAhead env now s.db opp).length < env.batchSize := by
  have hmem : opp ∈ (advancePipelineJob env now draw s).db.opportunities := by
    rw [run_rows _ _ _ hkey, ← hrow]
    exact List.mem_map_of_mem (hrow ▸ hopp)
  rw [mem_pipelineBatch_iff _ (run_keyUnique _ _ _ hkey) hmem hopen]
  have hcount : (ahead (advancePipelineJob env now draw s).db opp).length =
      (stillAhead env now s.db opp).length := by
    unfold stillAhead ahead
    rw [run_rows _ _ _ hkey, List.filter_map, List.length_map, List.filter_filter,
      ← List.countP_eq_length_filter, ← List.countP_eq_length_filter]
    refine List.countP_congr fun o ho => ?_
    have hkeep := (rowAfter_key env now draw s o hkey ho).1
    rw [Function.comp_apply, decide_eq_true_eq, Bool.and_eq_true, decide_eq_true_eq,
      decide_eq_true_eq, hkeep, rowAfter_isOpen_iff hkey ho]
    tauto
  rw [hcount]

variable (now draw) in
/-- A turn for an outreach draft changes no more than the time of the update. -/
lemma rowAfter_of_contactable (hkey : KeyUnique Opportunity.id s.db.opportunities)
    (hmem : opp ∈ pipelineBatch env s.db)
    (hperson : person ∈ env.anyFounder.pick (foundersOf s.db opp.id))
    (hcontact : Contactable env s.db person opp) :
    ∃ updatedAt, rowAfter env now draw s opp = { opp with updatedAt := updatedAt } := by
  obtain ⟨hstage, haxes, -⟩ := hcontact
  unfold rowAfter
  rw [(run_of_mem hkey hmem).outcome, hperson]
  show ∃ updatedAt, (advance ..).opportunity = _
  rw [advance_of_investigating hstage, if_pos haxes]
  rcases requestOutreach_cases env now s.db (beforeTurn env now draw s opp.id).budget (draw opp.id)
    opp person with
      ⟨-, ⟨-, hwait⟩ | ⟨-, reason, metadata, hnoted⟩⟩ | ⟨-, hstay⟩
  · rw [hwait]
    exact ⟨opp.updatedAt, rfl⟩
  · rw [hnoted]
    exact ⟨now, rfl⟩
  · rw [hstay]
    exact ⟨opp.updatedAt, rfl⟩

/-- An opportunity of the first batch that gets an outreach draft gets another one. -/
private lemma contactable_again (hkey : KeyUnique Opportunity.id s.db.opportunities)
    (hmem : opp ∈ pipelineBatch env s.db)
    (hperson : person ∈ env.anyFounder.pick (foundersOf s.db opp.id))
    (hcontact : Contactable env s.db person opp) (hbudget : 10 * env.batchSize ≤ s.budget) :
    ¬ Quiescent (outcomeOf env later draw' (advancePipelineJob env now draw s) opp.id) := by
  obtain ⟨hopp, hopen⟩ := mem_of_mem_pipelineBatch hmem
  obtain ⟨updatedAt, hrow⟩ := rowAfter_of_contactable now draw hkey hmem hperson
    hcontact
  have hkey' := run_keyUnique env now draw hkey
  have hopp' := rowAfter_mem env now draw hkey hopp
  have hahead := ahead_run_le env now draw hkey
    (rowAfter_key env now draw s opp hkey hopp).1
  have hsame := run_sameArtifacts env now draw s
  have hleft := run_budget env now draw s
  rw [hrow] at hopp' hahead
  generalize hnext : advancePipelineJob env now draw s = t at *
  have hroom := (mem_pipelineBatch_iff env hkey hopp hopen).mp hmem
  have hmem' : { opp with updatedAt := updatedAt } ∈ pipelineBatch env t.db := by
    rw [mem_pipelineBatch_iff _ hkey' hopp' hopen]
    omega
  have hturn : TurnInRun env later draw' t { opp with updatedAt := updatedAt } :=
    run_of_mem hkey' hmem'
  have houtcome := hturn.outcome
  rw [hsame.foundersOf] at houtcome
  rw [show opp.id = ({ opp with updatedAt := updatedAt } : Opportunity).id from rfl, houtcome,
    quiescent_map_iff]
  intro hquiet
  obtain ⟨hstage, haxes, hsuffices⟩ := hcontact
  have hdue : Due env later t.db person { opp with updatedAt := updatedAt } := by
    unfold Due
    dsimp only
    rw [hstage]
    dsimp only
    rw [if_pos ((hsame.hasOpportunityAxes opp.id).mpr haxes)]
    unfold ScoreSuffices
    rw [hsame.latestScore]
    exact hsuffices
  have henough : 5 ≤ (beforeTurn env later draw' t opp.id).budget := by
    have := hturn.le_budget
    dsimp only at this
    omega
  have hsome := advance_event_of_due _ (draw' opp.id) henough hdue
  rw [hquiet person hperson] at hsome
  cases hsome

/-- An opportunity that comes up in the second batch gets what is due. -/
private lemma due_next (hkey : KeyUnique Opportunity.id s.db.opportunities)
    (hopp : opp ∈ s.db.opportunities) (hout : opp ∉ pipelineBatch env s.db)
    (hroom : (stillAhead env now s.db opp).length < env.batchSize)
    (hperson : person ∈ env.anyFounder.pick (foundersOf s.db opp.id))
    (hdue : Due env later s.db person opp) (hbudget : 10 * env.batchSize ≤ s.budget) :
    ¬ Quiescent (outcomeOf env later draw' (advancePipelineJob env now draw s) opp.id) := by
  obtain ⟨hnone, -, hevents⟩ := run_of_notMem env now draw hkey hopp hout
  have hrow : rowAfter env now draw s opp = opp := by
    unfold rowAfter
    rw [hnone]
    rfl
  have hkey' := run_keyUnique env now draw hkey
  have hmem' := (mem_pipelineBatch_run_iff env now hkey hopp (isOpen_of_due hdue)
    hrow).mpr hroom
  have hturn : TurnInRun env later draw' (advancePipelineJob env now draw s) opp :=
    run_of_mem hkey' hmem'
  have hsame := run_sameArtifacts env now draw s
  have hleft := run_budget env now draw s
  have henough := hturn.le_budget
  rw [hturn.outcome, hsame.foundersOf, quiescent_map_iff]
  intro hquiet
  have hsome := advance_event_of_due
    (beforeTurn env later draw' (advancePipelineJob env now draw s) opp.id).budget (draw' opp.id)
    (by omega) ((due_congr hsame hevents).mpr hdue)
  rw [hquiet person hperson] at hsome
  cases hsome

/-- An opportunity of the first batch that gets no outreach draft gets nothing in the second run. -/
private lemma quiescent_again (hwindow : WithinWindow env s.db opp now later)
    (hkey : KeyUnique Opportunity.id s.db.opportunities) (hmem : opp ∈ pipelineBatch env s.db)
    (hcontact : ∀ person ∈ env.anyFounder.pick (foundersOf s.db opp.id),
      ¬ Contactable env s.db person opp)
    (hstays : (rowAfter env now draw s opp).lifecycleState = opp.lifecycleState) :
    Quiescent (outcomeOf env later draw' (advancePipelineJob env now draw s) opp.id) := by
  obtain ⟨hopp, -⟩ := mem_of_mem_pipelineBatch hmem
  have hfirst : TurnInRun env now draw s opp := run_of_mem hkey hmem
  have hkey' := run_keyUnique env now draw hkey
  have hopp' := rowAfter_mem env now draw hkey hopp
  have hid := rowAfter_id env now draw hkey hopp
  have hsame := run_sameArtifacts env now draw s
  have hspent := hfirst.run_le
  have hevents := hfirst.events
  unfold rowAfter at hstays hopp' hid
  rw [hfirst.outcome] at hstays hopp' hid hevents
  generalize advancePipelineJob env now draw s = t at *
  rw [← hid]
  cases hpick : env.anyFounder.pick (foundersOf s.db opp.id) with
  | none =>
    rw [hpick] at hopp'
    rw [Option.map_none, Option.elim_none] at hopp' ⊢
    by_cases hmem' : opp ∈ pipelineBatch env t.db
    · have hsecond : TurnInRun env later draw' t opp := run_of_mem hkey' hmem'
      rw [hsecond.outcome, hsame.foundersOf, hpick]
      exact quiescent_none
    · rw [(run_of_notMem _ _ _ hkey' hopp' hmem').1]
      exact quiescent_none
  | some person =>
    rw [hpick] at hopp' hstays hid hevents
    simp only [Option.map_some, Option.elim_some, Option.bind_some] at hopp' hstays hid hevents ⊢
    generalize ha : advance env now s.db (beforeTurn env now draw s opp.id).budget (draw opp.id) opp
      person = a at *
    by_cases hmem' : a.opportunity ∈ pipelineBatch env t.db
    · have hsecond : TurnInRun env later draw' t a.opportunity := run_of_mem hkey' hmem'
      rw [hsecond.outcome, hid, hsame.foundersOf, hpick, quiescent_map_iff]
      intro person' hperson'
      obtain rfl := Option.mem_some_iff.mp hperson'
      have hbudget := hsecond.budget_le.trans hspent
      rw [hid] at hbudget
      exact advance_again hwindow hsame hbudget (hcontact person hpick) ha hevents hstays
    · rw [(run_of_notMem _ _ _ hkey' hopp' hmem').1]
      exact quiescent_none

/-- An opportunity that is not due, or still out of reach, gets nothing in the second run. -/
private lemma quiescent_of_not_due (hkey : KeyUnique Opportunity.id s.db.opportunities)
    (hopp : opp ∈ s.db.opportunities) (hout : opp ∉ pipelineBatch env s.db)
    (hidle : env.batchSize ≤ (stillAhead env now s.db opp).length ∨
      ∀ person ∈ env.anyFounder.pick (foundersOf s.db opp.id), ¬ Due env later s.db person opp) :
    Quiescent (outcomeOf env later draw' (advancePipelineJob env now draw s) opp.id) := by
  obtain ⟨hnone, hfound, hevents⟩ :=
    run_of_notMem env now draw hkey hopp hout
  have hrow : rowAfter env now draw s opp = opp := by
    unfold rowAfter
    rw [hnone]
    rfl
  have hkey' := run_keyUnique env now draw hkey
  have hopp' := rowAfter_mem env now draw hkey hopp
  rw [hrow] at hopp'
  by_cases hmem' : opp ∈ pipelineBatch env (advancePipelineJob env now draw s).db
  · have hopen' := (mem_of_mem_pipelineBatch hmem').2
    have hroom := (mem_pipelineBatch_run_iff _ _ hkey hopp hopen' hrow).mp hmem'
    have hnotDue := hidle.resolve_left (not_le.mpr hroom)
    have hsame := run_sameArtifacts env now draw s
    have hsecond : TurnInRun env later draw' (advancePipelineJob env now draw s) opp :=
      run_of_mem hkey' hmem'
    rw [hsecond.outcome, hsame.foundersOf, quiescent_map_iff]
    intro person hperson
    refine advance_event_of_not_due fun hdue => hnotDue person hperson ?_
    exact (due_congr hsame hevents).mp hdue
  · rw [(run_of_notMem _ _ _ hkey' hopp' hmem').1]
    exact quiescent_none

/-- **Quiescence.** Take two runs within the stuck window. What the first one does not move is left
alone by the second, whatever the budget, exactly if

* an opportunity of the first batch is not one under investigation with axes whose founder's latest
  score reaches the contact threshold, and
* an opportunity outside the first batch still has `batchSize` open ones ahead of it once those that
  time out are closed, or is not due.

**Proof sketch.** In the first batch, everything but the request for an outreach draft is asked for
once (`advance_again`); the draft is requested whenever a call is left. Outside of it the second run
is the first turn, if it comes (`mem_pipelineBatch_run_iff`). -/
theorem nextRunQuiescent_iff (hkey : KeyUnique Opportunity.id db.opportunities)
    (hopp : opp ∈ db.opportunities) (hwindow : WithinWindow env db opp now later) :
    NextRunQuiescent env now later draw draw' db opp ↔
      (opp ∈ pipelineBatch env db → ∀ person ∈ env.anyFounder.pick (foundersOf db opp.id),
        ¬ Contactable env db person opp) ∧
      (opp ∉ pipelineBatch env db → env.batchSize ≤ (stillAhead env now db opp).length ∨
        ∀ person ∈ env.anyFounder.pick (foundersOf db opp.id), ¬ Due env later db person opp) := by
  constructor
  · intro h
    obtain ⟨s, rfl, hbudget⟩ : ∃ s : PipelineState, s.db = db ∧ 10 * env.batchSize ≤ s.budget :=
      ⟨{ db := db, budget := 10 * env.batchSize }, rfl, le_refl _⟩
    have hrow := run_row env now draw hkey hopp
    constructor
    · intro hmem person hperson hcontact
      obtain ⟨updatedAt, hafter⟩ := rowAfter_of_contactable now draw hkey hmem
        hperson hcontact
      refine contactable_again hkey hmem hperson hcontact hbudget (h s rfl ?_)
      rw [hrow, hafter]
      rfl
    · intro hout
      rw [or_iff_not_imp_left, not_le]
      intro hroom person hperson hdue
      refine due_next hkey hopp hout hroom hperson hdue hbudget (h s rfl ?_)
      rw [(run_of_notMem _ _ _ hkey hopp hout).2.1]
      rfl
  · rintro ⟨hinside, houtside⟩ s rfl hstays
    rw [run_row _ _ _ hkey hopp, Option.map_some, Option.some.injEq] at hstays
    by_cases hmem : opp ∈ pipelineBatch env s.db
    · exact quiescent_again hwindow hkey hmem (hinside hmem) hstays
    · exact quiescent_of_not_due hkey hopp hmem (houtside hmem)

end

/-- A received opportunity without claims is asked for once. -/
theorem nextRunQuiescent_received : NextRunQuiescent .default 0 60000000 id id
    (sampleDb [sampleOpportunity 7 .received] []) (sampleOpportunity 7 .received) :=
  (nextRunQuiescent_iff (by unfold KeyUnique; decide) (by decide)
    ⟨by decide, by decide, by decide⟩).mpr
    ⟨fun _ => by decide +kernel, fun hout => absurd hout (by decide +kernel)⟩

/-- An outreach draft is requested in every run. -/
theorem not_nextRunQuiescent_outreach :
    WithinWindow .default (sampleDb [sampleOpportunity 7 .investigating]
        [sampleAxes 7, sampleFounderScore (9 / 10)]) (sampleOpportunity 7 .investigating) 0
        60000000 ∧
      ¬ NextRunQuiescent .default 0 60000000 id id
        (sampleDb [sampleOpportunity 7 .investigating] [sampleAxes 7, sampleFounderScore (9 / 10)])
        (sampleOpportunity 7 .investigating) := by
  refine ⟨⟨by decide, by decide, by decide⟩, fun h => ?_⟩
  have hquiet := h { db := _, budget := 10 } rfl (by decide +kernel)
  exact absurd hquiet (by decide +kernel)

end VCBrain
