import VCBrain.Api.Candidates

set_option relaxedAutoImplicit false
set_option autoImplicit false

/-!
# The search of candidates

The search is normalized with `casefold` and becomes a `LIKE` pattern as it is. So its characters
`%`, `_` and backslash are read by the pattern, and a letter that `casefold` and `lower` change
differently is not found.

## Main definitions

* `searchFilter`, `searchedFields` — the filter of a search, and the texts that it looks at.
* `LiteralSearch` — the search finds every name that contains it, and only literally.
* `likeSample` — a text that a pattern matches.

## Main results

* `literalSearch_iff` — the search is literal exactly if it is empty once normalized, or has no
  special character then and is part of its own `lower`.
-/

namespace VCBrain

/-! ## The search -/

/-- The filters of a request with nothing but a search. -/
def searchFilter (env : CandidateEnv) (s : Str) : CandidateFilter :=
  ⟨none, none, normalizeSearch env.ucd (some s)⟩

/-- The texts of the observations of a person that the search looks at. -/
def observedFields (db : Db) (personId : Uuid) : List Str :=
  (db.observations.filter fun o => o.subjectId = some personId).flatMap fun o =>
    (db.sourceSnapshots.filter fun snapshot => snapshot.id = o.snapshotId).flatMap fun snapshot =>
      [o.objectValue, o.predicate, snapshot.sourceType, snapshot.uri]

/-- The texts that the search looks at. -/
def searchedFields (env : CandidateEnv) (db : Db) (p : Person) : List Str :=
  p.displayName.toList ++ [p.stableId] ++ p.email.toList ++ (env.handlesText p.handles).toList ++
    ((latestOpportunityRow db p.id).map Opportunity.companyName).toList ++
    observedFields db p.id

/-- The search finds every canonical person whose name contains it, the case of letters aside, and
whoever it finds has a text that contains the normalized search. -/
structure LiteralSearch (env : CandidateEnv) (s : Str) : Prop where
  complete : ∀ db : Db, ∀ p ∈ db.persons, p.canonical = true → ∀ name ∈ p.displayName,
    env.lower s <:+: env.lower name → p ∈ candidateQuery env db (searchFilter env s) none
  literal : ∀ db : Db, ∀ p ∈ candidateQuery env db (searchFilter env s) none,
    ∃ text ∈ searchedFields env db p,
      (normalizeSearch env.ucd (some s)).getD [] <:+: env.lower text

/-! ## Patterns -/

/-- The characters with a meaning in a pattern. -/
def likeSpecial : List Char := ['%', '_', '\\']

/-- A text that the pattern matches: nothing for `%`, an `x` for `_`. -/
def likeSample : Str → Str
  | [] => []
  | '%' :: pattern => likeSample pattern
  | '_' :: pattern => 'x' :: likeSample pattern
  | '\\' :: c :: pattern => c :: likeSample pattern
  | c :: pattern => c :: likeSample pattern

section Patterns

variable {pattern text n : Str}

lemma sqlLike_percent : sqlLike ('%' :: pattern) text = true ↔
    ∃ tail, tail <:+ text ∧ sqlLike pattern tail = true := by
  rw [sqlLike, List.any_eq_true]
  simp only [List.mem_tails]

/-- A pattern that begins with a literal character takes this character. -/
lemma sqlLike_cons {c : Char} (hc : c ∉ likeSpecial) :
    sqlLike (c :: pattern) text = true ↔ ∃ rest, text = c :: rest ∧ sqlLike pattern rest := by
  simp only [likeSpecial, List.mem_cons, List.not_mem_nil, or_false, not_or] at hc
  obtain ⟨hpercent, hunderscore, hbackslash⟩ := hc
  cases text with
  | nil => simp [sqlLike, hbackslash]
  | cons d text => simp [sqlLike, hbackslash]

/-- A literal pattern with `%` at the end matches what begins with it. -/
lemma sqlLike_append_percent_iff (hn : ∀ c ∈ n, c ∉ likeSpecial) :
    sqlLike (n ++ ['%']) text = true ↔ n <+: text := by
  induction n generalizing text with
  | nil =>
    rw [List.nil_append, sqlLike_percent]
    exact iff_of_true ⟨[], List.nil_suffix, rfl⟩ List.nil_prefix
  | cons c n ih =>
    obtain ⟨hc, hn⟩ := List.forall_mem_cons.mp hn
    rw [List.cons_append, sqlLike_cons hc]
    constructor
    · rintro ⟨rest, rfl, hrest⟩
      exact List.cons_prefix_cons.mpr ⟨rfl, (ih hn).mp hrest⟩
    · rintro ⟨rest, rfl⟩
      exact ⟨n ++ rest, rfl, (ih hn).mpr (List.prefix_append n rest)⟩

/-- A literal text between two `%` matches what contains it. -/
lemma sqlLike_contains_iff (hn : ∀ c ∈ n, c ∉ likeSpecial) :
    sqlLike ('%' :: n ++ ['%']) text = true ↔ n <:+: text := by
  rw [List.cons_append, sqlLike_percent]
  constructor
  · rintro ⟨tail, htail, hmatch⟩
    exact ((sqlLike_append_percent_iff hn).mp hmatch).isInfix.trans htail.isInfix
  · rintro ⟨front, back, rfl⟩
    refine ⟨n ++ back, ⟨front, by rw [List.append_assoc]⟩, ?_⟩
    exact (sqlLike_append_percent_iff hn).mpr (List.prefix_append n back)

lemma sqlLike_likeSample (pattern : Str) : sqlLike pattern (likeSample pattern) = true := by
  fun_induction likeSample pattern with
  | case1 => rfl
  | case2 pattern ih => exact sqlLike_percent.mpr ⟨_, List.suffix_rfl, ih⟩
  | case3 pattern ih => exact ih
  | case4 c pattern ih => simpa [sqlLike] using ih
  | case5 c pattern hpercent hunderscore hbackslash ih => simp_all [sqlLike]

/-- The sample has only characters that every match has, and `x`. -/
lemma mem_of_mem_likeSample (h : sqlLike pattern text = true) :
    ∀ c ∈ likeSample pattern, c = 'x' ∨ c ∈ text := by
  induction pattern using likeSample.induct generalizing text with
  | case1 => simp [likeSample]
  | case2 pattern ih =>
    obtain ⟨tail, htail, hmatch⟩ := sqlLike_percent.mp h
    intro c hc
    exact (ih hmatch c hc).imp_right (htail.subset ·)
  | case3 pattern ih =>
    cases text with
    | nil => cases h
    | cons d text =>
      rw [likeSample, List.forall_mem_cons]
      refine ⟨.inl rfl, fun c hc => ?_⟩
      exact (ih h c hc).imp_right (List.mem_cons_of_mem d)
  | case4 c pattern ih =>
    cases text with
    | nil => cases h
    | cons d text =>
      obtain ⟨rfl, hmatch⟩ : d = c ∧ sqlLike pattern text = true := by simpa [sqlLike] using h
      rw [likeSample, List.forall_mem_cons]
      refine ⟨.inr (List.mem_cons_self ..), fun c hc => ?_⟩
      exact (ih hmatch c hc).imp_right (List.mem_cons_of_mem d)
  | case5 c pattern hpercent hunderscore hbackslash ih =>
    cases text with
    | nil => simp_all [sqlLike]
    | cons d text =>
      obtain ⟨rfl, hmatch⟩ : d = c ∧ sqlLike pattern text = true := by simp_all [sqlLike]
      rw [likeSample, List.forall_mem_cons]
      · refine ⟨.inr (List.mem_cons_self ..), fun c hc => ?_⟩
        exact (ih hmatch c hc).imp_right (List.mem_cons_of_mem d)
      all_goals assumption

end Patterns

/-! ### Special characters -/

section Special

variable {pattern n : Str}

/-- A special character of a text without backslash is not in the sample. -/
lemma not_mem_likeSample {c : Char} (hc : c ∈ likeSpecial) (hpattern : '\\' ∉ pattern) :
    c ∉ likeSample pattern := by
  have hx : c ≠ 'x' := by
    rintro rfl
    revert hc
    decide
  fun_induction likeSample pattern with
  | case1 => exact List.not_mem_nil
  | case2 pattern ih => exact ih fun h => hpattern (List.mem_cons_of_mem _ h)
  | case3 pattern ih =>
    exact List.not_mem_cons_of_ne_of_not_mem hx
      (ih fun h => hpattern (List.mem_cons_of_mem _ h))
  | case4 d pattern ih => exact absurd (List.mem_cons_self ..) hpattern
  | case5 d pattern hpercent hunderscore hbackslash ih =>
    refine List.not_mem_cons_of_ne_of_not_mem ?_
      (ih fun h => hpattern (List.mem_cons_of_mem _ h))
    rintro rfl
    simp_all [likeSpecial]

/-- A backslash of the pattern is not written. -/
lemma count_likeSample_le (pattern : Str) :
    List.count '\\' (likeSample pattern) ≤ List.count '\\' pattern := by
  fun_induction likeSample pattern with
  | case1 => rfl
  | case2 pattern ih => rwa [List.count_cons_of_ne (by decide)]
  | case3 pattern ih =>
    rwa [List.count_cons_of_ne (by decide), List.count_cons_of_ne (by decide)]
  | case4 d pattern ih =>
    rw [List.count_cons_self, List.count_cons, List.count_cons]
    omega
  | case5 d pattern hpercent hunderscore hbackslash ih =>
    rw [List.count_cons, List.count_cons]
    omega

/-- The first backslash is lost, unless it ends the pattern. -/
lemma count_likeSample_lt (hmem : '\\' ∈ pattern) (hlast : pattern.getLast? ≠ some '\\') :
    List.count '\\' (likeSample pattern) < List.count '\\' pattern := by
  have htail : ∀ {c : Char} {pattern : Str}, '\\' ∈ pattern →
      (c :: pattern).getLast? = pattern.getLast? := by
    intro c pattern h
    rw [List.getLast?_cons_of_ne_nil (List.ne_nil_of_mem h)]
  fun_induction likeSample pattern with
  | case1 => cases hmem
  | case2 pattern ih =>
    have hmem := (List.mem_cons.mp hmem).resolve_left (by decide)
    rw [List.count_cons_of_ne (by decide)]
    exact ih hmem (htail hmem ▸ hlast)
  | case3 pattern ih =>
    have hmem := (List.mem_cons.mp hmem).resolve_left (by decide)
    rw [List.count_cons_of_ne (by decide), List.count_cons_of_ne (by decide)]
    exact ih hmem (htail hmem ▸ hlast)
  | case4 d pattern ih =>
    have hle := count_likeSample_le pattern
    rw [List.count_cons_self, List.count_cons, List.count_cons]
    omega
  | case5 d pattern hpercent hunderscore hbackslash ih =>
    rcases List.mem_cons.mp hmem with rfl | hmem
    · cases pattern with
      | nil => exact absurd rfl hlast
      | cons c pattern => exact absurd rfl (hbackslash c pattern rfl)
    · rw [List.count_cons, List.count_cons]
      exact Nat.add_lt_add_right (ih hmem (htail hmem ▸ hlast)) _

/-- A text with a special character is not part of a sample of its own pattern. -/
lemma not_infix_likeSample (h : ∃ c ∈ n, c ∈ likeSpecial) :
    ¬ n <:+: likeSample (n ++ ['%']) := by
  intro hpart
  by_cases hbackslash : '\\' ∈ n
  · have hlast : (n ++ ['%']).getLast? ≠ some '\\' := by
      rw [List.getLast?_concat]
      decide
    have hlt := count_likeSample_lt (List.mem_append_left ['%'] hbackslash) hlast
    have hle := hpart.sublist.count_le '\\'
    rw [List.count_append, show List.count '\\' ['%'] = 0 by decide] at hlt
    omega
  · obtain ⟨c, hc, hspecial⟩ := h
    refine not_mem_likeSample hspecial ?_ (hpart.subset hc)
    rw [List.mem_append, not_or]
    exact ⟨hbackslash, by decide⟩

end Special

/-! ## When the search is literal -/

section Literal

variable {env : CandidateEnv} {db : Db} {p : Person} {s n : Str}

lemma observationMatch_iff {like : Str} {personId : Uuid} :
    observationMatch env.lower db like personId = true ↔
      ∃ text ∈ observedFields db personId, sqlLike like (env.lower text) = true := by
  simp only [observationMatch, observedFields, lowerLike, List.any_eq_true, Option.any_some,
    Bool.and_eq_true, Bool.or_eq_true, decide_eq_true_eq, List.mem_flatMap, List.mem_filter]
  constructor
  · rintro ⟨o, ho, snapshot, hsnapshot, ⟨hid, hsubject⟩, hlike⟩
    have hmem : ∀ text ∈ [o.objectValue, o.predicate, snapshot.sourceType, snapshot.uri],
        ∃ a, (a ∈ db.observations ∧ a.subjectId = some personId) ∧
          ∃ b, (b ∈ db.sourceSnapshots ∧ b.id = a.snapshotId) ∧
            text ∈ [a.objectValue, a.predicate, b.sourceType, b.uri] :=
      fun text htext => ⟨o, ⟨ho, hsubject⟩, snapshot, ⟨hsnapshot, hid⟩, htext⟩
    rcases hlike with ((hlike | hlike) | hlike) | hlike
    · exact ⟨_, hmem o.objectValue (by simp), hlike⟩
    · exact ⟨_, hmem o.predicate (by simp), hlike⟩
    · exact ⟨_, hmem snapshot.sourceType (by simp), hlike⟩
    · exact ⟨_, hmem snapshot.uri (by simp), hlike⟩
  · rintro ⟨text, ⟨o, ⟨ho, hsubject⟩, snapshot, ⟨hsnapshot, hid⟩, htext⟩, hlike⟩
    refine ⟨o, ho, snapshot, hsnapshot, ⟨hid, hsubject⟩, ?_⟩
    simp only [List.mem_cons, List.not_mem_nil, or_false] at htext
    rcases htext with rfl | rfl | rfl | rfl
    · exact .inl (.inl (.inl hlike))
    · exact .inl (.inl (.inr hlike))
    · exact .inl (.inr hlike)
    · exact .inr hlike

lemma lowerLike_iff {like : Str} {value : Option Str} : lowerLike env.lower like value = true ↔
    ∃ text ∈ value.toList, sqlLike like (env.lower text) = true := by
  cases value <;> simp [lowerLike]

lemma searchMatch_iff : searchMatch env db n (latestOpportunityRow db p.id) p = true ↔
    ∃ text ∈ searchedFields env db p, sqlLike ('%' :: n ++ ['%']) (env.lower text) = true := by
  have hlike : "%".toList ++ n ++ "%" = '%' :: n ++ ['%'] := rfl
  rw [searchMatch, hlike]
  simp only [Bool.or_eq_true, observationMatch_iff, lowerLike_iff, searchedFields,
    List.mem_append, or_and_right, exists_or, Option.toList_some]

/-- An empty search is no condition. -/
lemma mem_candidateQuery_none (hn : normalizeSearch env.ucd (some s) = none) :
    p ∈ candidateQuery env db (searchFilter env s) none ↔ p ∈ db.persons ∧ p.canonical = true := by
  simp [candidateQuery, Candidate, searchFilter, hn, filled, behindCursor]

lemma mem_candidateQuery_some (hn : normalizeSearch env.ucd (some s) = some n) :
    p ∈ candidateQuery env db (searchFilter env s) none ↔ p ∈ db.persons ∧ p.canonical = true ∧
      ∃ text ∈ searchedFields env db p, sqlLike ('%' :: n ++ ['%']) (env.lower text) = true := by
  have hne : n ≠ [] := by
    rintro rfl
    simp [normalizeSearch] at hn
  simp [candidateQuery, Candidate, searchFilter, hn, filled, hne, behindCursor, searchMatch_iff]

/-- A person of which a single text is known. -/
def namedPerson (text : Str) : Person :=
  { id := 0, stableId := text, displayName := some text, createdAt := 0 }

/-- The database with this person alone. -/
def namedDb (text : Str) : Db where
  persons := [namedPerson text]

lemma mem_searchedFields_named (hhandles : env.handlesText none = none) {name text : Str} :
    text ∈ searchedFields env (namedDb name) (namedPerson name) ↔ text = name := by
  have hlatest : latestOpportunityRow (namedDb name) (namedPerson name).id = none := rfl
  rw [searchedFields, hlatest]
  simp [namedPerson, namedDb, observedFields, hhandles]

/-- The person is found exactly if the pattern matches the text. -/
lemma mem_candidateQuery_named (hhandles : env.handlesText none = none)
    (hn : normalizeSearch env.ucd (some s) = some n) {name : Str} :
    namedPerson name ∈ candidateQuery env (namedDb name) (searchFilter env s) none ↔
      sqlLike ('%' :: n ++ ['%']) (env.lower name) = true := by
  rw [mem_candidateQuery_some hn]
  simp only [mem_searchedFields_named hhandles, exists_eq_left]
  exact ⟨fun h => h.2.2, fun h => ⟨List.mem_singleton_self _, rfl, h⟩⟩

/-- **Literal search.** The search finds every name that contains it and only literally, exactly if
it is empty once normalized, or has no special character then and is part of its own `lower`.

**Proof sketch.** A person named like the search must be found, so the pattern matches `lower` of
the search. All characters of the sample of the pattern are in there or `x`, so a person named like
the sample is found too. The sample does not contain a search with a special character. -/
theorem literalSearch_iff
    (hlower : ∀ text : Str, (∀ c ∈ text, c = 'x' ∨ ∃ t, c ∈ env.lower t) → env.lower text = text)
    (hhandles : env.handlesText none = none) :
    LiteralSearch env s ↔ ∀ n, normalizeSearch env.ucd (some s) = some n →
      (∀ c ∈ n, c ∉ likeSpecial) ∧ n <:+: env.lower s := by
  constructor
  · rintro ⟨hcomplete, hliteral⟩ n hn
    have hmatch : sqlLike ('%' :: n ++ ['%']) (env.lower s) = true :=
      (mem_candidateQuery_named hhandles hn).mp (hcomplete (namedDb s) (namedPerson s)
        (List.mem_singleton_self _) rfl s rfl List.infix_rfl)
    have hspecial : ∀ c ∈ n, c ∉ likeSpecial := by
      by_contra! hspecial
      set sample := likeSample ('%' :: n ++ ['%']) with hsample
      have hkeep : env.lower sample = sample :=
        hlower sample fun c hc =>
          (mem_of_mem_likeSample hmatch c hc).imp_right fun h => ⟨s, h⟩
      have hfound : namedPerson sample ∈
          candidateQuery env (namedDb sample) (searchFilter env s) none := by
        rw [mem_candidateQuery_named hhandles hn, hkeep]
        exact sqlLike_likeSample _
      obtain ⟨text, htext, hpart⟩ := hliteral _ _ hfound
      obtain rfl := (mem_searchedFields_named hhandles).mp htext
      rw [hn, Option.getD_some, hkeep] at hpart
      exact not_infix_likeSample hspecial hpart
    exact ⟨hspecial, (sqlLike_contains_iff hspecial).mp hmatch⟩
  · intro hn
    cases hnormalized : normalizeSearch env.ucd (some s) with
    | none =>
      refine ⟨fun db p hp hcanonical name _ _ => ?_, fun db p hp => ?_⟩
      · exact (mem_candidateQuery_none hnormalized).mpr ⟨hp, hcanonical⟩
      · refine ⟨p.stableId, by simp [searchedFields], ?_⟩
        rw [hnormalized]
        exact List.nil_infix
    | some n =>
      obtain ⟨hspecial, hpart⟩ := hn n hnormalized
      refine ⟨fun db p hp hcanonical name hname hcontains => ?_, fun db p hp => ?_⟩
      · refine (mem_candidateQuery_some hnormalized).mpr ⟨hp, hcanonical, name, ?_, ?_⟩
        · simp [searchedFields, Option.mem_def.mp hname]
        · exact (sqlLike_contains_iff hspecial).mpr (hpart.trans hcontains)
      · obtain ⟨-, -, text, htext, hmatch⟩ := (mem_candidateQuery_some hnormalized).mp hp
        rw [hnormalized]
        exact ⟨text, htext, (sqlLike_contains_iff hspecial).mp hmatch⟩

end Literal

private lemma toLower_idempotent (c : Char) : c.toLower.toLower = c.toLower := by
  delta Char.toLower
  split
  · next hupper =>
    have hmin : 65 ≤ c.val.toNat := hupper.1
    have hmax : c.val.toNat ≤ 90 := hupper.2
    have hshift : (c.val + ('a'.val - 'A'.val)).toNat = c.val.toNat + 32 := by
      rw [UInt32.toNat_add, show ('a'.val - 'A'.val).toNat = 32 by decide]
      omega
    refine dif_neg ?_
    rintro ⟨-, hle⟩
    have hle : (c.val + ('a'.val - 'A'.val)).toNat ≤ 90 := hle
    omega
  · rfl

/-- The database of the examples: letters of ASCII, no handles. -/
private def asciiEnv : CandidateEnv where
  ucd := Ucd.ascii
  sha256 := fun _ => []
  lower := fun text => text.map Char.toLower
  handlesText := fun _ => none
  repr := fun _ => []

/-- The search for `ada` is literal. -/
theorem literalSearch_iff_ada : LiteralSearch asciiEnv "Ada" := by
  have hlower : ∀ text : Str, (∀ c ∈ text, c = 'x' ∨ ∃ t, c ∈ asciiEnv.lower t) →
      asciiEnv.lower text = text := by
    intro text htext
    refine (List.map_congr_left fun c hc => ?_).trans (List.map_id text)
    rcases htext c hc with rfl | ⟨t, hc⟩
    · decide
    · obtain ⟨d, -, rfl⟩ := List.mem_map.mp hc
      exact toLower_idempotent d
  refine (literalSearch_iff hlower rfl).mpr fun n hn => ?_
  obtain rfl : ("ada" : Str) = n := by
    have hada : normalizeSearch Ucd.ascii (some "Ada") = some ("ada" : Str) := by decide +kernel
    exact Option.some.inj (hada.symm.trans hn)
  decide

/-- The search `a_c` finds a person named `abc`. -/
theorem not_literalSearch_underscore : ¬ LiteralSearch asciiEnv "a_c" := by
  rintro ⟨-, hliteral⟩
  have hn : normalizeSearch Ucd.ascii (some "a_c") = some ("a_c" : Str) := by decide +kernel
  have hfound : namedPerson "abc" ∈
      candidateQuery asciiEnv (namedDb "abc") (searchFilter asciiEnv "a_c") none := by
    refine (mem_candidateQuery_named rfl hn).mpr ?_
    decide
  obtain ⟨text, htext, hpart⟩ := hliteral _ _ hfound
  obtain rfl := (mem_searchedFields_named rfl).mp htext
  rw [show asciiEnv.ucd = Ucd.ascii from rfl, hn, Option.getD_some] at hpart
  revert hpart
  decide

end VCBrain
