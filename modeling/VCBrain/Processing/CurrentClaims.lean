import VCBrain.Foundation.OrderBy
import VCBrain.Processing.CounterEvidence
import VCBrain.Processing.Dedup
import VCBrain.Processing.GroupOutcome

set_option relaxedAutoImplicit false
set_option autoImplicit false

/-!
# The current claims of a group

Observations of a person arrive in any order, and `reconcile_observations` runs at any time in
between. A group passes from one observation to several that agree and on to a contradiction, and
each run leaves the current claims of its phase.

## Main definitions

* `openClaims` — the current claims of a group.
* `CurrentLaw` — the current claims that the observations of a group call for.
* `Phase` — the claims of a group between two runs.

## Main results

* `currentLaw_history` — every run of a history leaves the claims that are called for.
-/

namespace VCBrain

section Person

variable (personId : Uuid)

/-- The current claims of the person in a group. -/
def openClaims (key : GroupKey) (rows : List Claim) : List Claim :=
  rows.filter fun claim =>
    claim.subjectId = some personId ∧ claim.key = key ∧ claim.supersessionId = none

/-- The current claims that a group calls for: one `unverified` claim of a single observation, one
`supported` claim of several that agree, and no such claim of observations that disagree. -/
def CurrentLaw (key : GroupKey) (group : List Observation) (rows : List Claim) : Prop :=
  (∀ obs, group = [obs] → ∃ claim, openClaims personId key rows = [claim] ∧
    claim.status = .unverified ∧ claim.observationIds = [obs.id.str]) ∧
  (2 ≤ group.length → (∀ a ∈ group, ∀ b ∈ group, a.objectValue.strip = b.objectValue.strip) →
    ∃ claim, openClaims personId key rows = [claim] ∧ claim.status = .supported ∧
      claim.observationIds.Perm (group.map fun obs => obs.id.str)) ∧
  ((∃ a ∈ group, ∃ b ∈ group, a.objectValue.strip ≠ b.objectValue.strip) →
    ∀ claim ∈ openClaims personId key rows,
      claim.status ≠ .supported ∧ claim.status ≠ .unverified)

/-- What a run leaves: in every group the claims it calls for. -/
def currentDuty : Reconciling.Event → Db → Prop
  | .arrive _, _ => True
  | .reconcile _ _, db =>
    ∀ key, CurrentLaw personId key (groupOf personId db.observations key) db.claims

variable {personId} {now : Time} {draw : ℕ → Uuid} {key : GroupKey}

@[simp] lemma mem_openClaims {rows : List Claim} {claim : Claim} :
    claim ∈ openClaims personId key rows ↔ claim ∈ rows ∧ claim.subjectId = some personId ∧
      claim.key = key ∧ claim.supersessionId = none := by
  simp [openClaims]

/-- Only the claims of the group matter. -/
lemma openClaims_keyed (rows : List Claim) :
    openClaims personId key (keyed key rows) = openClaims personId key rows := by
  unfold openClaims keyed
  rw [List.filter_filter]
  refine List.filter_congr fun claim _ => ?_
  by_cases h : claim.key = key <;> simp [h]

/-- Closing for a new claim supersedes the current claims of its group. -/
lemma closedFor_eq {rows : List Claim} {r : Claim} (hnew : ∀ row ∈ rows, row.id ≠ r.id) :
    closedFor personId key rows (some r) = rows.map fun row =>
      if row.subjectId = some personId ∧ row.key = key ∧ row.supersessionId = none
      then row.supersededBy r else row := by
  refine List.map_congr_left fun row hrow => ?_
  by_cases hscope : InScope personId key.2 row
  · rw [if_pos hscope, closeSuperseded]
    by_cases hpred : row.predicate = key.1
    · rw [if_neg (not_or.mpr ⟨hnew row hrow, not_not_intro hpred⟩)]
      by_cases hopen : row.supersessionId = none
      · rw [if_neg (not_not_intro hopen), if_pos ⟨hscope.1, Prod.ext hpred hscope.2, hopen⟩]
        rfl
      · rw [if_pos hopen, if_neg fun h => hopen h.2.2]
    · rw [if_pos (Or.inr hpred), if_neg fun h => hpred (congrArg Prod.fst h.2.1)]
  · rw [if_neg hscope, if_neg fun h => hscope ⟨h.1, congrArg Prod.snd h.2.1⟩]

/-- A row of the table after closing was there and is out of reach, or is superseded. -/
lemma mem_closedFor_iff {rows : List Claim} {r claim : Claim}
    (hnew : ∀ row ∈ rows, row.id ≠ r.id) :
    claim ∈ closedFor personId key rows (some r) ↔
      claim ∈ rows ∧ claim ∉ openClaims personId key rows ∨
        ∃ previous ∈ openClaims personId key rows, claim = previous.supersededBy r := by
  rw [closedFor_eq hnew, List.mem_map]
  simp only [mem_openClaims]
  constructor
  · rintro ⟨row, hrow, rfl⟩
    split_ifs with h
    · exact Or.inr ⟨row, ⟨hrow, h⟩, rfl⟩
    · exact Or.inl ⟨hrow, fun hmem => h hmem.2⟩
  · rintro (⟨hrow, h⟩ | ⟨previous, ⟨hrow, h⟩, rfl⟩)
    · exact ⟨claim, hrow, if_neg fun hopen => h ⟨hrow, hopen⟩⟩
    · exact ⟨previous, hrow, if_pos h⟩

/-- After closing, the current claims of the group are those that are added. -/
lemma openClaims_closed {rows added : List Claim} {replacement : Claim}
    (hnew : ∀ row ∈ rows, row.id ≠ replacement.id)
    (hadded : ∀ claim ∈ added, claim.subjectId = some personId ∧ claim.key = key ∧
      claim.supersessionId = none) :
    openClaims personId key (closedFor personId key rows (some replacement) ++ added) = added := by
  have hold : (closedFor personId key rows (some replacement)).filter (fun claim =>
      claim.subjectId = some personId ∧ claim.key = key ∧ claim.supersessionId = none) = [] := by
    refine List.filter_eq_nil_iff.mpr fun claim hc hopen => ?_
    obtain ⟨hsubject, hkey, hcurrent⟩ := of_decide_eq_true hopen
    exact not_current_of_mem_close hnew hc hsubject hkey hcurrent
  rw [openClaims, List.filter_append, hold, List.nil_append]
  exact List.filter_eq_self.mpr fun claim hc => decide_eq_true (hadded claim hc)

/-! ## The phases of a group -/

/-- A current claim cites some of the observations, in their order. No other claim of the group is
current or cites as many. -/
structure Live (personId : Uuid) (key : GroupKey) (cited : List Observation) (rows : List Claim)
    (claim : Claim) : Prop where
  nonempty : cited ≠ []
  current : openClaims personId key rows = [claim]
  ids : claim.observationIds = cited.map fun obs => obs.id.str
  status : claim.status = if cited.length = 1 then .unverified else .supported
  value : ∃ obs ∈ cited, claim.objectValue.strip = obs.objectValue.strip
  closed : ∀ other ∈ rows, other.subjectId = some personId → other.key = key →
    other.supersessionId ≠ none →
      other.observationIds.length < cited.length ∧ other.status ≠ .contradicted

/-- The claims of a group between two runs: there are none, one of them is current and cites
observations that agree, or all that are current record a contradiction. -/
inductive Phase (personId : Uuid) (key : GroupKey) (group : List Observation) (rows : List Claim) :
    Prop
  | none (h : ∀ claim ∈ rows, claim.subjectId = some personId → claim.key ≠ key)
  | live {cited : List Observation} {claim : Claim} (hcited : cited.Sublist group)
      (h : Live personId key cited rows claim)
  | contested (hcontested : Contested group)
      (h : ∀ claim ∈ openClaims personId key rows, claim.status = .contradicted)

/-- The phase of a group is that of its part of the table. -/
lemma Live.of_keyed {cited : List Observation} {rows rows' : List Claim} {claim : Claim}
    (h : Live personId key cited rows claim) (hkeyed : keyed key rows' = keyed key rows) :
    Live personId key cited rows' claim where
  nonempty := h.nonempty
  current := by rw [← openClaims_keyed, hkeyed, openClaims_keyed, h.current]
  ids := h.ids
  status := h.status
  value := h.value
  closed other hother hsubject hkey hclosed := by
    refine h.closed other ?_ hsubject hkey hclosed
    have hmem : other ∈ keyed key rows' := List.mem_filter.mpr ⟨hother, decide_eq_true hkey⟩
    rw [hkeyed] at hmem
    exact List.mem_of_mem_filter hmem

/-- The phase of a group is that of its part of the table. -/
lemma Phase.of_keyed {group : List Observation} {rows rows' : List Claim}
    (h : Phase personId key group rows) (hkeyed : keyed key rows' = keyed key rows) :
    Phase personId key group rows' := by
  cases h with
  | none h =>
    refine .none fun claim hc hsubject hkey => ?_
    have hmem : claim ∈ keyed key rows' := List.mem_filter.mpr ⟨hc, decide_eq_true hkey⟩
    rw [hkeyed] at hmem
    exact h claim (List.mem_of_mem_filter hmem) hsubject hkey
  | live hcited h => exact .live hcited (h.of_keyed hkeyed)
  | contested hcontested h =>
    refine .contested hcontested fun claim hc => h claim ?_
    rwa [← openClaims_keyed, ← hkeyed, openClaims_keyed]

/-- A phase lasts as observations arrive. -/
lemma Phase.mono {group group' : List Observation} {rows : List Claim}
    (h : Phase personId key group rows) (hsub : group.Sublist group') :
    Phase personId key group' rows := by
  cases h with
  | none h => exact .none h
  | live hcited h => exact .live (hcited.trans hsub) h
  | contested hcontested h => exact .contested (hcontested.mono hsub.subset) h

/-! ## One group of a run -/

section Group

variable {cited group : List Observation} {rows : List Claim} {claim : Claim}

lemma Live.mem_rows (h : Live personId key cited rows claim) :
    claim ∈ rows ∧ claim.subjectId = some personId ∧ claim.key = key ∧
      claim.supersessionId = none := by
  have hmem : claim ∈ openClaims personId key rows := by
    rw [h.current]
    exact List.mem_singleton_self _
  exact mem_openClaims.mp hmem

lemma Live.status_ne (h : Live personId key cited rows claim) : claim.status ≠ .contradicted := by
  rw [h.status]
  split_ifs <;> decide

/-- A claim of the group is the current one, or is closed. -/
lemma Live.eq_or_closed (h : Live personId key cited rows claim) {other : Claim}
    (hother : other ∈ rows) (hsubject : other.subjectId = some personId) (hkey : other.key = key) :
    other = claim ∨ other.observationIds.length < cited.length ∧ other.status ≠ .contradicted := by
  by_cases hopen : other.supersessionId = none
  · have hmem : other ∈ openClaims personId key rows :=
      mem_openClaims.mpr ⟨hother, hsubject, hkey, hopen⟩
    rw [h.current] at hmem
    exact Or.inl (List.mem_singleton.mp hmem)
  · exact Or.inr (h.closed other hother hsubject hkey hopen)

/-- A live group records no contradiction. -/
lemma Live.not_recorded (h : Live personId key cited rows claim) {obs : Observation}
    (hkey : obs.key = key) : ¬ Recorded personId rows obs := by
  rintro ⟨other, hother, hcounters⟩
  have hstatus : other.status = .contradicted := hcounters.2.2.2.1
  rcases h.eq_or_closed hother hcounters.1.1 (hcounters.key_eq.trans hkey) with rfl | ⟨-, hne⟩
  · exact h.status_ne hstatus
  · exact hne hstatus

/-- If the output of the group is found, the current claim cites all of the group. -/
lemma Live.of_found (h : Live personId key cited rows claim) (hcited : cited.Sublist group)
    {objectValue : Str} {status : ClaimStatus}
    (hfound : Found personId key objectValue status (group.map fun obs => obs.id.str) rows) :
    Live personId key group rows claim := by
  obtain ⟨other, hother, hsubject, hkey, -, -, hids⟩ := hfound.exists_key
  have hlength : cited.length = group.length := by
    refine le_antisymm hcited.length_le ?_
    rcases h.eq_or_closed hother hsubject hkey with rfl | ⟨hlt, -⟩
    · have hsame := congrArg List.length (h.ids.symm.trans hids)
      rw [List.length_map, List.length_map] at hsame
      exact hsame.ge
    · rw [hids, List.length_map] at hlt
      exact hlt.le
  obtain rfl := hcited.eq_of_length hlength
  exact h

/-- If the output of the group is not found, the current claim cites a part of the group. -/
lemma Live.length_lt (h : Live personId key cited rows claim) (hcited : cited.Sublist group)
    (hagree : ¬ Contested group) {obs : Observation} (hobs : obs ∈ group)
    (hnot : ¬ Found personId key obs.objectValue
      (if group.length = 1 then .unverified else .supported) (group.map fun obs => obs.id.str)
      rows) : cited.length < group.length := by
  refine lt_of_le_of_ne hcited.length_le fun hlength => hnot ?_
  obtain rfl := hcited.eq_of_length hlength
  obtain ⟨hmem, hsubject, rfl, -⟩ := h.mem_rows
  obtain ⟨o, ho, hvalue⟩ := h.value
  have hsame : o.objectValue.strip = obs.objectValue.strip := by
    by_contra hne
    exact hagree (contested_iff.mpr ⟨o, ho, obs, hobs, hne⟩)
  exact ⟨claim, hmem, ⟨hsubject, rfl⟩, rfl, hvalue.trans hsame, h.status, h.ids⟩

/-- A group without claims has none that is found. -/
lemma not_found_of_none (h : ∀ claim ∈ rows, claim.subjectId = some personId → claim.key ≠ key)
    {objectValue : Str} {status : ClaimStatus} {ids : List Str} :
    ¬ Found personId key objectValue status ids rows := by
  intro hfound
  obtain ⟨other, hother, hsubject, hkey, -⟩ := hfound.exists_key
  exact h other hother hsubject hkey

/-- Claims that record observations are current claims of the group. -/
lemma RecordsFrom.current {added : List Claim} (h : RecordsFrom personId now key group added) :
    ∀ claim ∈ added, claim.subjectId = some personId ∧ claim.key = key ∧
      claim.supersessionId = none := by
  intro claim hc
  obtain ⟨obs, -, id, rfl⟩ := h claim hc
  exact ⟨rfl, rfl, rfl⟩

lemma RecordsFrom.status_eq {added : List Claim} (h : RecordsFrom personId now key group added) :
    ∀ claim ∈ added, claim.status = .contradicted := by
  intro claim hc
  obtain ⟨obs, -, id, rfl⟩ := h claim hc
  rfl

/-- An unverified claim is the current one of its observation. -/
lemma live_single {obs : Observation} {id : Uuid}
    (h : ∀ claim ∈ rows, claim.subjectId = some personId → claim.key ≠ key) :
    Live personId key [obs] (rows ++ [deriveFrom personId now id key .unverified obs])
      (deriveFrom personId now id key .unverified obs) where
  nonempty := List.cons_ne_nil _ _
  current := by
    have hold : openClaims personId key rows = [] :=
      List.filter_eq_nil_iff.mpr fun claim hc hopen =>
        h claim hc (of_decide_eq_true hopen).1 (of_decide_eq_true hopen).2.1
    rw [openClaims, List.filter_append, ← openClaims, hold, List.nil_append]
    exact List.filter_eq_self.mpr fun claim hc => by
      rw [List.mem_singleton.mp hc]
      exact decide_eq_true ⟨rfl, rfl, rfl⟩
  ids := rfl
  status := rfl
  value := ⟨obs, List.mem_singleton_self _, rfl⟩
  closed other hother hsubject hkey hclosed := by
    rcases List.mem_append.mp hother with hother | hother
    · exact absurd hkey (h other hother hsubject)
    · rw [List.mem_singleton.mp hother] at hclosed
      exact absurd rfl hclosed

/-- A supported claim that supersedes shorter ones is the current one of its group. -/
lemma live_agreed {strongest : Observation} {id : Uuid} (hlength : 2 ≤ group.length)
    (hstrongest : strongest ∈ group) (hnew : ∀ row ∈ rows, row.id ≠ id)
    (h : ∀ other ∈ rows, other.subjectId = some personId → other.key = key →
      other.observationIds.length < group.length ∧ other.status ≠ .contradicted) :
    Live personId key group
      (closedFor personId key rows (some (agreedClaim personId now id key group strongest)) ++
        [agreedClaim personId now id key group strongest])
      (agreedClaim personId now id key group strongest) where
  nonempty := List.ne_nil_of_length_pos (by omega)
  current := openClaims_closed hnew fun claim hc => by
    rw [List.mem_singleton.mp hc]
    exact ⟨rfl, rfl, rfl⟩
  ids := rfl
  status := by
    rw [if_neg (by omega)]
    rfl
  value := ⟨strongest, hstrongest, rfl⟩
  closed other hother hsubject hkey hclosed := by
    rcases List.mem_append.mp hother with hother | hother
    · obtain ⟨previous, hprev, s, e, rfl⟩ := mem_closedFor hother
      exact h previous hprev hsubject hkey
    · rw [List.mem_singleton.mp hother] at hclosed
      exact absurd rfl hclosed

/-- **One group of a run.** A group that agrees ends with a current claim that cites all of it, and
one that does not with contradicted claims.

**Proof sketch.** A claim that is found cites all of the group and is the current one, since those
that are closed cite less (`Live.of_found`). If none is found, the current one cites a part of the
group (`Live.length_lt`) and is closed. A contradiction is recorded in the contested phase only, so
that the first one closes what was current. -/
lemma Phase.outcome {rows' : List Claim} (h : Phase personId key group rows)
    (hkey : ∀ obs ∈ group, obs.key = key)
    (hout : GroupOutcome personId now key group rows rows') :
    (¬ Contested group ∧ ∃ claim, Live personId key group rows' claim) ∨
      Contested group ∧ ∀ claim ∈ openClaims personId key rows', claim.status = .contradicted := by
  have hsingle : ∀ obs : Observation, ¬ Contested [obs] := by
    intro obs
    simp [Contested, distinctValues]
  cases hout with
  | singleFound hfound =>
    refine Or.inl ⟨hsingle _, ?_⟩
    cases h with
    | none h => exact absurd hfound (not_found_of_none h)
    | live hcited h => exact ⟨_, h.of_found hcited hfound⟩
    | contested hcontested => exact absurd hcontested (hsingle _)
  | singleAdded hnot hnew =>
    refine Or.inl ⟨hsingle _, ?_⟩
    cases h with
    | none h => exact ⟨_, live_single h⟩
    | live hcited h =>
      have hlt := h.length_lt hcited (hsingle _) (List.mem_singleton_self _) hnot
      exact absurd (List.length_pos_iff.mpr h.nonempty) (by simpa using hlt)
    | contested hcontested => exact absurd hcontested (hsingle _)
  | agreedFound hlength hagree hstrongest hfound =>
    refine Or.inl ⟨hagree, ?_⟩
    cases h with
    | none h => exact absurd hfound (not_found_of_none h)
    | live hcited h => exact ⟨_, h.of_found hcited hfound⟩
    | contested hcontested => exact absurd hcontested hagree
  | @agreedAdded _ _ strongest _ hlength hagree hstrongest hnot hnew =>
    refine Or.inl ⟨hagree, ?_⟩
    have hmem : strongest ∈ group := List.argmax_mem hstrongest
    cases h with
    | none h => exact ⟨_, live_agreed hlength hmem hnew fun other hother hsubject hok =>
        absurd hok (h other hother hsubject)⟩
    | live hcited h =>
      have hlt := h.length_lt hcited hagree hmem (by rwa [if_neg (by omega)])
      refine ⟨_, live_agreed hlength hmem hnew fun other hother hsubject hok => ?_⟩
      rcases h.eq_or_closed hother hsubject hok with rfl | ⟨hshort, hne⟩
      · rw [h.ids, List.length_map]
        exact ⟨hlt, h.status_ne⟩
      · exact ⟨hshort.trans hlt, hne⟩
    | contested hcontested => exact absurd hcontested hagree
  | @winnerFound _ _ added winner hcontested hwinner hfound hadded hrecorded =>
    refine Or.inr ⟨hcontested, fun claim hc => ?_⟩
    have hwinnerKey : winner.key = key :=
      hkey winner ((rankByStrength_perm now group).mem_iff.mp (List.mem_of_mem_head? hwinner))
    obtain ⟨hmem, hsubject, hclaimKey, hopen⟩ := mem_openClaims.mp hc
    rcases List.mem_append.mp hmem with hmem | hmem
    · cases h with
      | none h => exact absurd hclaimKey (h claim hmem hsubject)
      | live hcited h => exact absurd hfound (h.not_recorded hwinnerKey)
      | contested _ h => exact h claim (mem_openClaims.mpr ⟨hmem, hsubject, hclaimKey, hopen⟩)
    · exact hadded.status_eq claim hmem
  | @winnerAdded _ _ added winner id hcontested hwinner hnot hnew hadded hrecorded =>
    refine Or.inr ⟨hcontested, fun claim hc => ?_⟩
    have hall : RecordsFrom personId now key group
        (deriveFrom personId now id key .contradicted winner :: added) := by
      rintro claim (_ | ⟨_, hc⟩)
      · exact ⟨winner, (rankByStrength_perm now group).mem_iff.mp
          (List.mem_of_mem_head? hwinner), id, rfl⟩
      · exact hadded claim hc
    rw [openClaims_closed hnew hall.current] at hc
    exact hall.status_eq claim hc

end Group

/-! ## Histories -/

section History

variable {db db' : Db} {created : ℕ}

/-- The groups of a run keep the order of their observations as others arrive. -/
lemma groupInOrder_sublist {observations : List Observation}
    (h : db.observations.Sublist observations) :
    (groupInOrder personId db key).Sublist
      (groupInOrder personId { db with observations := observations } key) := by
  have htotal : Std.Total fun a b : Observation =>
      b.observedAt < a.observedAt ∨ b.observedAt = a.observedAt ∧ b.id ≤ a.id :=
    ⟨fun a b => by
      rcases lt_trichotomy a.observedAt b.observedAt with hlt | heq | hlt
      · exact Or.inr (Or.inl hlt)
      · exact (le_total b.id a.id).imp (fun hle => Or.inr ⟨heq.symm, hle⟩)
          fun hle => Or.inr ⟨heq, hle⟩
      · exact Or.inl (Or.inl hlt)⟩
  have htrans : IsTrans Observation fun a b =>
      b.observedAt < a.observedAt ∨ b.observedAt = a.observedAt ∧ b.id ≤ a.id := by
    constructor
    rintro a b c (hab | ⟨hab, hab'⟩) (hbc | ⟨hbc, hbc'⟩)
    · exact Or.inl (hbc.trans hab)
    · exact Or.inl (hbc.trans_lt hab)
    · exact Or.inl (hbc.trans_eq hab)
    · exact Or.inr ⟨hbc.trans hab, hbc'.trans hab'⟩
  exact (insertionSort_sublist (h.filter _)).filter _

/-- The order of a run only rearranges a group. -/
lemma groupInOrder_perm (db : Db) (key : GroupKey) :
    (groupInOrder personId db key).Perm (groupOf personId db.observations key) := by
  refine ((List.perm_insertionSort _ _).filter _).trans (List.Perm.of_eq ?_)
  rw [List.filter_filter, groupOf]
  exact List.filter_congr fun obs _ => by rw [Bool.and_comm, Bool.decide_and]

/-- The phases of all groups of a database. -/
def Phases (personId : Uuid) (db : Db) : Prop :=
  ∀ key, Phase personId key (groupInOrder personId db key) db.claims

/-- A live group of a run has the claims it calls for. -/
lemma Live.currentLaw {claim : Claim} (hagree : ¬ Contested (groupInOrder personId db key))
    (h : Live personId key (groupInOrder personId db key) db.claims claim) :
    CurrentLaw personId key (groupOf personId db.observations key) db.claims := by
  have hperm := @groupInOrder_perm personId db key
  refine ⟨fun obs hobs => ⟨claim, h.current, ?_, ?_⟩, fun hlength _ => ⟨claim, h.current, ?_, ?_⟩,
    fun hdisagree => ?_⟩
  · rw [h.status, hperm.length_eq, hobs]
    rfl
  · rw [hobs] at hperm
    rw [h.ids, List.perm_singleton.mp hperm]
    rfl
  · rw [h.status, hperm.length_eq, if_neg (by omega)]
  · rw [h.ids]
    exact hperm.map _
  · obtain ⟨a, ha, b, hb, hne⟩ := hdisagree
    exact absurd (contested_iff.mpr ⟨a, hperm.mem_iff.mpr ha, b, hperm.mem_iff.mpr hb, hne⟩) hagree

/-- A contested group has the claims it calls for. -/
lemma currentLaw_of_contested (hcontested : Contested (groupInOrder personId db key))
    (h : ∀ claim ∈ openClaims personId key db.claims, claim.status = .contradicted) :
    CurrentLaw personId key (groupOf personId db.observations key) db.claims := by
  have hperm := @groupInOrder_perm personId db key
  refine ⟨fun obs hobs => ?_, fun _ hagree => ?_, fun _ claim hc => ?_⟩
  · have hlength := hcontested.two_le_length
    rw [hperm.length_eq, hobs] at hlength
    exact absurd hlength (by simp)
  · obtain ⟨a, ha, b, hb, hne⟩ := contested_iff.mp hcontested
    exact absurd (hagree a (hperm.mem_iff.mp ha) b (hperm.mem_iff.mp hb)) hne
  · rw [h claim hc]
    exact ⟨by decide, by decide⟩

/-- A group without observations calls for nothing. -/
lemma currentLaw_nil (rows : List Claim) : CurrentLaw personId key [] rows :=
  ⟨fun _ h => absurd h (List.cons_ne_nil _ _).symm, fun h => absurd h (by simp),
    fun ⟨_, ha, _⟩ => absurd ha List.not_mem_nil⟩

/-- **One run** takes phases to phases and leaves the claims that are called for. -/
lemma Phases.reconcile (hphases : Phases personId db)
    (h : reconcileObservations personId now draw db = some (db', created)) :
    Phases personId db' ∧
      ∀ key, CurrentLaw personId key (groupOf personId db'.observations key) db'.claims := by
  have hobservations : db'.observations = db.observations := by
    rw [(reconcileObservations_eq_some h).1]
  have hgroup : ∀ key, groupInOrder personId db' key = groupInOrder personId db key := by
    intro key
    unfold groupInOrder observationsOf
    rw [hobservations]
  refine forall_and.mp fun key => ?_
  by_cases hne : groupInOrder personId db key = []
  · -- no observations: the claims of the group stay as they are
    have hkeyed : keyed key db'.claims = keyed key db.claims := by
      refine keyed_of_reconcile h fun obs hobs heq => ?_
      exact List.filter_eq_nil_iff.mp hne obs hobs (decide_eq_true heq)
    refine ⟨?_, ?_⟩
    · rw [hgroup]
      exact (hphases key).of_keyed hkeyed
    · have hnil := @groupInOrder_perm personId db' key
      rw [hgroup, hne] at hnil
      rw [hnil.symm.eq_nil]
      exact currentLaw_nil _
  · obtain ⟨rows, rows', hrows, hout, hrows'⟩ := exists_outcome_of_reconcile h hne
    have hkey : ∀ obs ∈ groupInOrder personId db key, obs.key = key :=
      fun obs hobs => of_decide_eq_true (List.mem_filter.mp hobs).2
    rcases ((hphases key).of_keyed hrows).outcome hkey hout with
      ⟨hagree, claim, hlive⟩ | ⟨hcontested, hopen⟩
    · rw [← hgroup] at hlive hagree
      have hlive' := hlive.of_keyed hrows'
      exact ⟨.live (List.Sublist.refl _) hlive', hlive'.currentLaw hagree⟩
    · rw [← hgroup] at hcontested
      have hopen' : ∀ claim ∈ openClaims personId key db'.claims, claim.status = .contradicted := by
        rw [← openClaims_keyed, hrows', openClaims_keyed]
        exact hopen
      exact ⟨.contested hcontested hopen', currentLaw_of_contested hcontested hopen'⟩

/-- **Current claims over histories.** From a database without claims on the person, every run of a
history of arrivals and runs leaves in every group the claims it calls for.

**Proof sketch.** The phases of the groups are the invariant. A run takes them to phases that the
law is read off of (`Phases.reconcile`), and an arrival adds to a group what its phase allows
(`Phase.mono`). -/
theorem currentLaw_history (personId : Uuid) {db : Db}
    (hfresh : ∀ claim ∈ db.claims, claim.subjectId ≠ some personId)
    (events : List Reconciling.Event) :
    History.Meets (Reconciling.step personId) (currentDuty personId) db events := by
  refine History.meets_of_invariant (I := Phases personId) _ ?_ (fun key => ?_) events
  · rintro db (obs | ⟨now, draw⟩) db' hphases h
    · obtain ⟨rows, hrows, rfl⟩ := Option.map_eq_some_iff.mp h
      obtain ⟨rfl, -⟩ := insertObservation_eq_some hrows
      exact ⟨fun key => (hphases key).mono (groupInOrder_sublist (List.sublist_append_left _ _)),
        trivial⟩
    · obtain ⟨⟨db'', created⟩, hrun, rfl⟩ := Option.map_eq_some_iff.mp h
      exact hphases.reconcile hrun
  · exact .none fun claim hc hsubject => absurd hsubject (hfresh claim hc)

end History

/-- Two observations that agree arrive, with a run after each. -/
private def agreeingHistory : List Reconciling.Event :=
  [.arrive (Reconciling.roleObservation 1 "CEO" 1),
    .reconcile 0 fun n => Fin.ofNat _ (10 + n),
    .arrive (Reconciling.roleObservation 2 "CEO " 1),
    .reconcile 0 fun n => Fin.ofNat _ (20 + n)]

/-- The two runs leave an unverified claim, and a supported one that supersedes it. -/
theorem currentLaw_history_agreeing :
    History.Meets (Reconciling.step 1) (currentDuty 1) {} agreeingHistory ∧
      (History.replay (Reconciling.step 1) {} agreeingHistory).claims.map Claim.status =
        [.unverified, .supported] :=
  ⟨currentLaw_history 1 (fun claim hc => absurd hc List.not_mem_nil) _, by decide +kernel⟩

end Person

end VCBrain
