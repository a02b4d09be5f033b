import Mathlib.Algebra.Order.Group.Int
import Mathlib.Data.Char
import Mathlib.Data.Finset.Max
import Mathlib.Data.List.Lex
import Mathlib.Data.Prod.Lex
import VCBrain.Db.Models
import VCBrain.Foundation.Dict
import VCBrain.Foundation.Keyset
import VCBrain.Foundation.Unicode

set_option relaxedAutoImplicit false
set_option autoImplicit false

/-!
# The inputs of the signal score

The observations of a person are sorted by time, and for each predicate of the signal score the
latest one with a usable value is taken. Counts arrive as text. `int` refuses a text of more than
4300 digits with a `ValueError`, and nothing catches it.

## Main definitions

* `parseSignalCount` — `_parse_signal_count`; `intOfDigits` — `int(s)` for decimal digits.
* `selectLatestSignalObservations` — `_select_latest_signal_observations`.
* `LatestSelection` — what a selection is for: the latest valid observation of each predicate, and
  the invalid counts that are later.

## Main results

* `foldlM_selectSignal` — after each round, what is selected is the selection of the observations
  seen so far.
* `selectLatestSignalObservations_iff` — it is returned, for every order of the observations,
  exactly if each count that `int` refuses is followed by a valid count that it does not refuse.
-/

namespace VCBrain

/-- `_SIGNAL_PREDICATES`. -/
def signalPredicates : List Str :=
  ["github_login", "github_languages", "github_public_repos", "github_total_stars",
    "github_top_repo_readme", "producthunt_username", "producthunt_total_upvotes",
    "producthunt_posts", "arxiv_paper_count", "arxiv_total_citations", "page_content", "blog_url",
    "podcast_url", "youtube_recent_videos"]

/-- `_SIGNAL_NUMERIC_PREDICATES`. -/
def signalNumericPredicates : List Str :=
  ["github_public_repos", "github_total_stars", "producthunt_total_upvotes", "producthunt_posts",
    "arxiv_paper_count", "arxiv_total_citations"]

/-- An `Observation` as the selection reads it; `created_at` is unset before the row is flushed. -/
structure SignalInput where
  id : Uuid
  predicate : Str
  objectValue : Str
  observedAt : Time
  createdAt : Option Time
deriving DecidableEq

/-- `sys.get_int_max_str_digits()`. -/
def intMaxStrDigits : ℕ := 4300

/-- `datetime.min.replace(tzinfo=UTC)`. -/
def datetimeMin : Time := -62135596800000000

section Selection

variable (ucd : Ucd) (decimal : Char → ℕ)

/-- `int(s)` for a text of decimal digits with the values `decimal`; `none` is the `ValueError` of
a text beyond the limit. -/
def intOfDigits (s : Str) : Option ℕ :=
  if intMaxStrDigits < s.length then none else some (s.foldl (fun n c => 10 * n + decimal c) 0)

/-- `str.isdecimal()`. -/
def isDecimalText (s : Str) : Bool := s ≠ [] ∧ s.all ucd.isDecimal

/-- `_parse_signal_count`; the outer `none` is a `ValueError`. -/
def parseSignalCount (predicate value : Str) : Option (Option ℕ) :=
  if predicate ∉ signalNumericPredicates then some none
  else
    let stripped := value.strip
    if stripped = [] ∨ !isDecimalText ucd stripped then some none
    else (intOfDigits decimal stripped).map some

/-- The selected observations by predicate, and the ids of the rejected counts. -/
structure SignalSelection where
  selected : Dict SignalInput
  rejectedNumeric : List Str
deriving DecidableEq

/-- The key of the sort: `(observed_at, created_at or datetime.min, str(id))`. -/
def signalKey (item : SignalInput) : Time ×ₗ Time ×ₗ Str :=
  toLex (item.observedAt, toLex (item.createdAt.getD datetimeMin, item.id.str))

/-- One round of the loop over the sorted observations. -/
def selectSignal (found : SignalSelection) (observation : SignalInput) : Option SignalSelection :=
  let predicate := observation.predicate
  if predicate ∉ signalPredicates ∨ (found.selected.get? predicate).isSome then some found
  else if observation.objectValue.strip = [] then some found
  else if predicate ∈ signalNumericPredicates then
    (parseSignalCount ucd decimal predicate observation.objectValue).map fun count =>
      match count with
      | none => { found with rejectedNumeric := found.rejectedNumeric ++ [observation.id.str] }
      | some _ => { found with selected := found.selected.set predicate observation }
  else some { found with selected := found.selected.set predicate observation }

/-- `_select_latest_signal_observations`; `none` is a `ValueError`. -/
def selectLatestSignalObservations (observations : List SignalInput) : Option SignalSelection :=
  (Keyset.sorted signalKey observations).foldlM (selectSignal ucd decimal) ⟨Dict.empty, []⟩

end Selection

/-! ## What a selection is for -/

namespace SignalInput

variable (ucd : Ucd) (o : SignalInput)

/-- A value that is not blank and, for a count, is a text of decimal digits. -/
def Valid : Prop :=
  o.predicate ∈ signalPredicates ∧ o.objectValue.strip ≠ [] ∧
    (o.predicate ∈ signalNumericPredicates → isDecimalText ucd o.objectValue.strip = true)

/-- A count that is not blank and is no text of decimal digits. -/
def InvalidCount : Prop :=
  o.predicate ∈ signalNumericPredicates ∧ o.objectValue.strip ≠ [] ∧
    isDecimalText ucd o.objectValue.strip = false

/-- A count in decimal digits that `int` refuses. -/
def Refused : Prop :=
  o.predicate ∈ signalNumericPredicates ∧ isDecimalText ucd o.objectValue.strip = true ∧
    intMaxStrDigits < o.objectValue.strip.length

end SignalInput

/-- The latest valid observation of a predicate. -/
def LatestValid (ucd : Ucd) (observations : List SignalInput) (predicate : Str)
    (o : SignalInput) : Prop :=
  o ∈ observations ∧ o.predicate = predicate ∧ o.Valid ucd ∧
    ∀ b ∈ observations, b.predicate = predicate → b.Valid ucd → signalKey b ≤ signalKey o

/-- The latest valid observation of each predicate, and the invalid counts that are later than it;
all of them where there is none. -/
structure LatestSelection (ucd : Ucd) (observations : List SignalInput)
    (found : SignalSelection) : Prop where
  selected : ∀ predicate o, found.selected.get? predicate = some o ↔
    LatestValid ucd observations predicate o
  rejected : ∀ id, id ∈ found.rejectedNumeric ↔ ∃ o ∈ observations, o.id.str = id ∧
    o.InvalidCount ucd ∧
      ∀ s, found.selected.get? o.predicate = some s → signalKey s < signalKey o
  once : found.rejectedNumeric.Nodup

/-! ## One round of the loop -/

section Round

variable {ucd : Ucd} {decimal : Char → ℕ} {found : SignalSelection} {o : SignalInput}

/-- Counts are signals. -/
lemma mem_signalPredicates_of_numeric {predicate : Str} (h : predicate ∈ signalNumericPredicates) :
    predicate ∈ signalPredicates := by
  have key : ∀ p ∈ signalNumericPredicates, p ∈ signalPredicates := by decide
  exact key predicate h

lemma SignalInput.Refused.valid (h : o.Refused ucd) : o.Valid ucd := by
  obtain ⟨hnumeric, hdecimal, hlength⟩ := h
  refine ⟨mem_signalPredicates_of_numeric hnumeric, ?_, fun _ => hdecimal⟩
  intro hblank
  rw [hblank, List.length_nil] at hlength
  exact Nat.not_lt_zero _ hlength

lemma SignalInput.InvalidCount.not_valid (h : o.InvalidCount ucd) : ¬ o.Valid ucd := by
  intro hvalid
  have hdecimal := hvalid.2.2 h.1
  rw [h.2.2] at hdecimal
  cases hdecimal

/-- A predicate that has its observation is passed over. -/
lemma selectSignal_of_selected {s : SignalInput}
    (h : found.selected.get? o.predicate = some s) :
    selectSignal ucd decimal found o = some found := by
  simp [selectSignal, h]

/-- **One round** for a predicate without its observation: it is passed over, rejected, refused or
selected. -/
lemma selectSignal_cases (decimal : Char → ℕ) (h : found.selected.get? o.predicate = none) :
    (¬ o.Valid ucd ∧ ¬ o.InvalidCount ucd ∧ selectSignal ucd decimal found o = some found) ∨
    (o.InvalidCount ucd ∧ selectSignal ucd decimal found o =
      some { found with rejectedNumeric := found.rejectedNumeric ++ [o.id.str] }) ∨
    (o.Refused ucd ∧ selectSignal ucd decimal found o = none) ∨
    (o.Valid ucd ∧ ¬ o.Refused ucd ∧ selectSignal ucd decimal found o =
      some { found with selected := found.selected.set o.predicate o }) := by
  have hopen : (found.selected.get? o.predicate).isSome = false := by rw [h, Option.isSome_none]
  by_cases hsignal : o.predicate ∈ signalPredicates
  · by_cases hblank : o.objectValue.strip = []
    · refine Or.inl ⟨fun hvalid => hvalid.2.1 hblank, fun hinvalid => hinvalid.2.1 hblank, ?_⟩
      simp [selectSignal, hopen, hblank]
    · by_cases hnumeric : o.predicate ∈ signalNumericPredicates
      · cases hdecimal : isDecimalText ucd o.objectValue.strip with
        | false =>
          refine Or.inr (Or.inl ⟨⟨hnumeric, hblank, hdecimal⟩, ?_⟩)
          simp [selectSignal, hopen, hblank, hnumeric, hsignal, parseSignalCount, hdecimal]
        | true =>
          by_cases hlength : intMaxStrDigits < o.objectValue.strip.length
          · refine Or.inr (Or.inr (Or.inl ⟨⟨hnumeric, hdecimal, hlength⟩, ?_⟩))
            simp [selectSignal, hopen, hblank, hnumeric, hsignal, parseSignalCount, hdecimal,
              intOfDigits, hlength]
          · refine Or.inr (Or.inr (Or.inr ⟨⟨hsignal, hblank, fun _ => hdecimal⟩,
              fun hrefused => hlength hrefused.2.2, ?_⟩))
            simp [selectSignal, hopen, hblank, hnumeric, hsignal, parseSignalCount, hdecimal,
              intOfDigits, hlength]
      · refine Or.inr (Or.inr (Or.inr ⟨⟨hsignal, hblank, fun h => absurd h hnumeric⟩,
          fun hrefused => hnumeric hrefused.1, ?_⟩))
        simp [selectSignal, hopen, hblank, hnumeric, hsignal]
  · refine Or.inl ⟨fun hvalid => hsignal hvalid.1,
      fun hinvalid => hsignal (mem_signalPredicates_of_numeric hinvalid.1), ?_⟩
    simp [selectSignal, hsignal]

end Round

/-! ## The loop -/

section Loop

variable {ucd : Ucd} {decimal : Char → ℕ} {observations before : List SignalInput}
  {found : SignalSelection} {o : SignalInput}

/-- Among valid observations of a predicate there is a latest one. -/
lemma exists_latestValid (ho : o ∈ observations) (hvalid : o.Valid ucd) :
    ∃ s, LatestValid ucd observations o.predicate s := by
  classical
  let valid := observations.toFinset.filter fun b => b.predicate = o.predicate ∧ b.Valid ucd
  have hmem : ∀ b, b ∈ valid ↔ b ∈ observations ∧ b.predicate = o.predicate ∧ b.Valid ucd := by
    intro b
    rw [Finset.mem_filter, List.mem_toFinset]
  obtain ⟨s, hs, hmax⟩ :=
    valid.exists_max_image signalKey ⟨o, (hmem o).mpr ⟨ho, rfl, hvalid⟩⟩
  obtain ⟨hin, hpredicate, hs⟩ := (hmem s).mp hs
  exact ⟨s, hin, hpredicate, hs, fun b hb hp hv => hmax b ((hmem b).mpr ⟨hb, hp, hv⟩)⟩

/-- The latest valid observation stays so if an earlier one is added, unless that is the first of
its predicate. -/
lemma latestValid_append_iff {predicate : Str} {s : SignalInput}
    (hkeys : ∀ b ∈ before, signalKey o < signalKey b)
    (hlater : o.predicate = predicate → o.Valid ucd →
      ∃ t ∈ before, t.predicate = predicate ∧ t.Valid ucd) :
    LatestValid ucd (before ++ [o]) predicate s ↔ LatestValid ucd before predicate s := by
  constructor
  · rintro ⟨hmem, hpredicate, hs, hmax⟩
    refine ⟨?_, hpredicate, hs, fun b hb => hmax b (List.mem_append_left _ hb)⟩
    rcases List.mem_append.mp hmem with hmem | hmem
    · exact hmem
    · obtain rfl := List.mem_singleton.mp hmem
      obtain ⟨t, ht, htp, htv⟩ := hlater hpredicate hs
      exact absurd (hkeys t ht) (not_lt.mpr (hmax t (List.mem_append_left _ ht) htp htv))
  · rintro ⟨hmem, hpredicate, hs, hmax⟩
    refine ⟨List.mem_append_left _ hmem, hpredicate, hs, fun b hb hp hv => ?_⟩
    rcases List.mem_append.mp hb with hb | hb
    · exact hmax b hb hp hv
    · rw [List.mem_singleton.mp hb]
      exact (hkeys s hmem).le

/-- A predicate has no observation exactly if there is no valid one. -/
lemma LatestSelection.get?_eq_none_iff (h : LatestSelection ucd observations found)
    (predicate : Str) : found.selected.get? predicate = none ↔
      ∀ b ∈ observations, b.predicate = predicate → ¬ b.Valid ucd := by
  constructor
  · rintro hnone b hb rfl hvalid
    obtain ⟨s, hs⟩ := exists_latestValid hb hvalid
    rw [(h.selected b.predicate s).mpr hs] at hnone
    cases hnone
  · intro hall
    refine Option.eq_none_iff_forall_ne_some.mpr fun s hs => ?_
    obtain ⟨hmem, hpredicate, hvalid, -⟩ := (h.selected predicate s).mp hs
    exact hall s hmem hpredicate hvalid

/-- Nothing is selected of no observations. -/
lemma latestSelection_nil (ucd : Ucd) : LatestSelection ucd [] ⟨Dict.empty, []⟩ where
  selected predicate o := by simp [Dict.empty, Dict.get?, LatestValid]
  rejected id := by simp
  once := List.nodup_nil

/-- An earlier observation changes nothing if it has no part in the score, or its predicate has its
observation. -/
lemma LatestSelection.append_unchanged (h : LatestSelection ucd before found)
    (hkeys : ∀ b ∈ before, signalKey o < signalKey b)
    (hopen : o.Valid ucd ∨ o.InvalidCount ucd → ∃ s, found.selected.get? o.predicate = some s) :
    LatestSelection ucd (before ++ [o]) found where
  selected predicate s := by
    rw [h.selected, latestValid_append_iff hkeys]
    rintro rfl hvalid
    obtain ⟨t, ht⟩ := hopen (Or.inl hvalid)
    obtain ⟨hin, htp, htv, -⟩ := (h.selected _ t).mp ht
    exact ⟨t, hin, htp, htv⟩
  rejected id := by
    rw [h.rejected]
    constructor
    · rintro ⟨b, hb, hrest⟩
      exact ⟨b, List.mem_append_left _ hb, hrest⟩
    · rintro ⟨b, hb, hid, hcount, hlater⟩
      rcases List.mem_append.mp hb with hb | hb
      · exact ⟨b, hb, hid, hcount, hlater⟩
      · obtain rfl := List.mem_singleton.mp hb
        obtain ⟨t, ht⟩ := hopen (Or.inr hcount)
        have hin := ((h.selected _ t).mp ht).1
        exact absurd (hkeys t hin) (hlater t ht).asymm
  once := h.once

/-- An invalid count is rejected where its predicate has no observation yet. -/
lemma LatestSelection.append_rejected (h : LatestSelection ucd before found)
    (hkeys : ∀ b ∈ before, signalKey o < signalKey b) (hids : ∀ b ∈ before, b.id ≠ o.id)
    (hcount : o.InvalidCount ucd) (hopen : found.selected.get? o.predicate = none) :
    LatestSelection ucd (before ++ [o])
      { found with rejectedNumeric := found.rejectedNumeric ++ [o.id.str] } where
  selected predicate s := by
    rw [h.selected, latestValid_append_iff hkeys]
    exact fun _ hvalid => absurd hvalid hcount.not_valid
  rejected id := by
    rw [List.mem_append, h.rejected]
    constructor
    · rintro (⟨b, hb, hrest⟩ | hid)
      · exact ⟨b, List.mem_append_left _ hb, hrest⟩
      · refine ⟨o, List.mem_append_right _ (List.mem_singleton_self o),
          (List.mem_singleton.mp hid).symm, hcount, fun s hs => ?_⟩
        rw [hopen] at hs
        cases hs
    · rintro ⟨b, hb, hid, hrest⟩
      rcases List.mem_append.mp hb with hb | hb
      · exact Or.inl ⟨b, hb, hid, hrest⟩
      · obtain rfl := List.mem_singleton.mp hb
        exact Or.inr (List.mem_singleton.mpr hid.symm)
  once := by
    have hnew : o.id.str ∉ found.rejectedNumeric := by
      intro hmem
      obtain ⟨b, hb, hid, -⟩ := (h.rejected _).mp hmem
      exact hids b hb (Uuid.str_injective hid)
    simpa [List.concat_eq_append] using List.Nodup.concat hnew h.once

/-- A valid observation is selected where its predicate has no observation yet. -/
lemma LatestSelection.append_selected (h : LatestSelection ucd before found)
    (hkeys : ∀ b ∈ before, signalKey o < signalKey b) (hvalid : o.Valid ucd)
    (hopen : found.selected.get? o.predicate = none) :
    LatestSelection ucd (before ++ [o])
      { found with selected := found.selected.set o.predicate o } where
  selected predicate s := by
    have hno := (h.get?_eq_none_iff o.predicate).mp hopen
    rw [Dict.get?_set]
    split_ifs with heq
    · subst heq
      constructor
      · rintro ⟨rfl⟩
        refine ⟨List.mem_append_right _ (List.mem_singleton_self _), rfl, hvalid, ?_⟩
        intro b hb hp hv
        rcases List.mem_append.mp hb with hb | hb
        · exact absurd hv (hno b hb hp)
        · rw [List.mem_singleton.mp hb]
      · rintro ⟨hmem, hpredicate, hs, -⟩
        rcases List.mem_append.mp hmem with hmem | hmem
        · exact absurd hs (hno s hmem hpredicate)
        · rw [List.mem_singleton.mp hmem]
    · rw [h.selected, latestValid_append_iff hkeys]
      exact fun hpredicate => absurd hpredicate.symm heq
  rejected id := by
    rw [h.rejected]
    have hold : ∀ b ∈ before, (∀ s, found.selected.get? b.predicate = some s →
        signalKey s < signalKey b) ↔ ∀ s, (found.selected.set o.predicate o).get? b.predicate =
          some s → signalKey s < signalKey b := by
      intro b hb
      simp only [Dict.get?_set]
      split_ifs with heq
      · rw [heq, hopen]
        simpa using hkeys b hb
      · exact Iff.rfl
    constructor
    · rintro ⟨b, hb, hid, hcount, hlater⟩
      exact ⟨b, List.mem_append_left _ hb, hid, hcount, (hold b hb).mp hlater⟩
    · rintro ⟨b, hb, hid, hcount, hlater⟩
      rcases List.mem_append.mp hb with hb | hb
      · exact ⟨b, hb, hid, hcount, (hold b hb).mpr hlater⟩
      · exact absurd (List.mem_singleton.mp hb ▸ hvalid) hcount.not_valid
  once := h.once

/-- **The loop.** After an initial part of the sorted observations, the rest of them leads to a
selection without counts that `int` refuses, or the loop ends with a `ValueError` at such a count
before which its predicate has no valid observation.

**Proof sketch.** Induction on the rest, for every part before it: what is selected so far is the
selection of that part. One round passes over, rejects, refuses or selects the next observation. -/
lemma foldlM_selectSignal (decimal : Char → ℕ) (rest : List SignalInput)
    (h : LatestSelection ucd before found)
    (hfits : ∀ p s, found.selected.get? p = some s → ¬ s.Refused ucd)
    (hkeys : (before ++ rest).Pairwise fun a b => signalKey b < signalKey a)
    (hids : ((before ++ rest).map SignalInput.id).Nodup) :
    (∃ final, rest.foldlM (selectSignal ucd decimal) found = some final ∧
      LatestSelection ucd (before ++ rest) final ∧
        ∀ p s, final.selected.get? p = some s → ¬ s.Refused ucd) ∨
    (rest.foldlM (selectSignal ucd decimal) found = none ∧ ∃ front o back,
      before ++ rest = front ++ o :: back ∧ o.Refused ucd ∧
        ∀ b ∈ front, b.predicate = o.predicate → ¬ b.Valid ucd) := by
  induction rest generalizing before found with
  | nil => exact Or.inl ⟨found, rfl, by simpa using h, hfits⟩
  | cons o rest ih =>
    have hsplit : before ++ o :: rest = (before ++ [o]) ++ rest := by simp
    have hearlier : ∀ b ∈ before, signalKey o < signalKey b := fun b hb =>
      (List.pairwise_append.mp hkeys).2.2 b hb o (List.mem_cons_self ..)
    have hnew : ∀ b ∈ before, b.id ≠ o.id := by
      intro b hb heq
      rw [List.map_append, List.map_cons] at hids
      exact List.disjoint_of_nodup_append hids (List.mem_map_of_mem hb)
        (heq ▸ List.mem_cons_self ..)
    rw [List.foldlM_cons, hsplit]
    rw [hsplit] at hkeys hids
    cases hopen : found.selected.get? o.predicate with
    | some s =>
      rw [selectSignal_of_selected hopen]
      exact ih (h.append_unchanged hearlier fun _ => ⟨s, hopen⟩) hfits hkeys hids
    | none =>
      rcases selectSignal_cases decimal hopen with ⟨hvalid, hcount, hstep⟩ |
        ⟨hcount, hstep⟩ | ⟨hrefused, hstep⟩ | ⟨hvalid, hnot, hstep⟩
      · rw [hstep]
        refine ih (h.append_unchanged hearlier ?_) hfits hkeys hids
        rintro (hv | hc)
        · exact absurd hv hvalid
        · exact absurd hc hcount
      · rw [hstep]
        exact ih (h.append_rejected hearlier hnew hcount hopen) hfits hkeys hids
      · rw [hstep]
        refine Or.inr ⟨rfl, before, o, rest, by simp, hrefused, ?_⟩
        exact (h.get?_eq_none_iff o.predicate).mp hopen
      · rw [hstep]
        refine ih (h.append_selected hearlier hvalid hopen) (fun p s hs => ?_) hkeys hids
        rw [Dict.get?_set] at hs
        split_ifs at hs
        · obtain rfl := Option.some.inj hs
          exact hnot
        · exact hfits p s hs

end Loop

/-! ## The selection -/

section Result

variable {ucd : Ucd} {decimal : Char → ℕ} {observations : List SignalInput}

lemma nodup_map_signalKey (hids : (observations.map SignalInput.id).Nodup) :
    (observations.map signalKey).Nodup := by
  refine List.Nodup.of_map (fun key : Time ×ₗ Time ×ₗ Str => (ofLex (ofLex key).2).2) ?_
  rw [List.map_map]
  have hstr : (fun key : Time ×ₗ Time ×ₗ Str => (ofLex (ofLex key).2).2) ∘ signalKey =
      Uuid.str ∘ SignalInput.id := rfl
  rw [hstr, ← List.map_map]
  exact hids.map Uuid.str_injective

/-- The selection does not depend on the order of the observations. -/
lemma selectLatestSignalObservations_perm {permuted : List SignalInput}
    (hids : (observations.map SignalInput.id).Nodup) (h : permuted.Perm observations) :
    selectLatestSignalObservations ucd decimal permuted =
      selectLatestSignalObservations ucd decimal observations := by
  have hkeys := nodup_map_signalKey hids
  have hpermuted : (permuted.map signalKey).Nodup := (h.map signalKey).nodup_iff.mpr hkeys
  have hsorted : Keyset.sorted signalKey permuted = Keyset.sorted signalKey observations :=
    Keyset.sorted_eq_of_pairwise (Keyset.pairwise_sorted hkeys)
      ((Keyset.perm_sorted observations).trans h.symm) hpermuted
  rw [selectLatestSignalObservations, hsorted, selectLatestSignalObservations]

/-- What is said of the observations does not depend on their order. -/
lemma LatestSelection.perm {found : SignalSelection} {permuted : List SignalInput}
    (h : LatestSelection ucd permuted found) (hperm : permuted.Perm observations) :
    LatestSelection ucd observations found where
  selected predicate o := by
    rw [h.selected]
    simp only [LatestValid, hperm.mem_iff]
  rejected id := by
    rw [h.rejected]
    simp only [hperm.mem_iff]
  once := h.once

/-- The selection that is returned, or the count that `int` refuses. -/
lemma selectLatestSignalObservations_cases (ucd : Ucd) (decimal : Char → ℕ)
    (hids : (observations.map SignalInput.id).Nodup) :
    (∃ found, selectLatestSignalObservations ucd decimal observations = some found ∧
      LatestSelection ucd observations found ∧
        ∀ p s, found.selected.get? p = some s → ¬ s.Refused ucd) ∨
    (selectLatestSignalObservations ucd decimal observations = none ∧
      ∃ o ∈ observations, o.Refused ucd ∧ ∀ b ∈ observations, b.predicate = o.predicate →
        b.Valid ucd → signalKey b ≤ signalKey o) := by
  have hperm : (Keyset.sorted signalKey observations).Perm observations :=
    Keyset.perm_sorted observations
  have hkeys := Keyset.pairwise_sorted (nodup_map_signalKey hids)
  have hsortedids : ((Keyset.sorted signalKey observations).map SignalInput.id).Nodup :=
    (hperm.map _).nodup_iff.mpr hids
  rcases foldlM_selectSignal decimal (Keyset.sorted signalKey observations)
    (latestSelection_nil ucd) (by simp [Dict.empty, Dict.get?]) hkeys hsortedids with
    ⟨found, hrun, hfound, hfits⟩ | ⟨hrun, front, o, back, hsplit, hrefused, hfront⟩
  · exact Or.inl ⟨found, hrun, hfound.perm hperm, hfits⟩
  · rw [List.nil_append] at hsplit
    have hmem : ∀ b, b ∈ observations ↔ b ∈ front ∨ b = o ∨ b ∈ back := by
      intro b
      rw [← hperm.mem_iff, hsplit, List.mem_append, List.mem_cons]
    refine Or.inr ⟨hrun, o, (hmem o).mpr (Or.inr (Or.inl rfl)), hrefused, fun b hb hp hv => ?_⟩
    rw [hsplit] at hkeys
    rcases (hmem b).mp hb with hb | rfl | hb
    · exact absurd hv (hfront b hb hp)
    · exact le_rfl
    · exact ((List.pairwise_cons.mp (List.pairwise_append.mp hkeys).2.1).1 b hb).le

/-- **The latest signals.** Of observations with distinct ids, the selection is returned, and is the
same for every order of them, exactly if each count that `int` refuses is earlier than a valid
count of its predicate that it does not refuse.

**Proof sketch.** The sorted observations do not depend on the order they came in. The loop ends
with a `ValueError` only at a count that `int` refuses with no later valid one; where it does not,
the latest valid count is not refused and is the one selected. -/
theorem selectLatestSignalObservations_iff (hids : (observations.map SignalInput.id).Nodup) :
    (∃ found, (∀ permuted : List SignalInput, permuted.Perm observations →
        selectLatestSignalObservations ucd decimal permuted = some found) ∧
      LatestSelection ucd observations found) ↔
    ∀ o ∈ observations, o.Refused ucd → ∃ b ∈ observations, b.predicate = o.predicate ∧
      b.Valid ucd ∧ ¬ b.Refused ucd ∧ signalKey o < signalKey b := by
  have hcases := selectLatestSignalObservations_cases ucd decimal hids
  constructor
  · rintro ⟨found, hall, hfound⟩ o ho hrefused
    have hrun := hall observations (List.Perm.refl _)
    rcases hcases with ⟨final, hfinal, -, hfits⟩ | ⟨hnone, -⟩
    · obtain rfl : final = found := Option.some.inj (hfinal.symm.trans hrun)
      obtain ⟨s, hs⟩ := exists_latestValid ho hrefused.valid
      have hnot : ¬ s.Refused ucd := hfits _ s ((hfound.selected _ s).mpr hs)
      obtain ⟨hmem, hpredicate, hvalid, hmax⟩ := hs
      have hne : signalKey o ≠ signalKey s := by
        intro heq
        obtain rfl := List.inj_on_of_nodup_map (nodup_map_signalKey hids) ho hmem heq
        exact hnot hrefused
      exact ⟨s, hmem, hpredicate, hvalid, hnot,
        lt_of_le_of_ne (hmax o ho rfl hrefused.valid) hne⟩
    · rw [hnone] at hrun
      cases hrun
  · intro hcondition
    rcases hcases with ⟨final, hfinal, hselection, -⟩ | ⟨-, o, ho, hrefused, hmax⟩
    · refine ⟨final, fun permuted hperm => ?_, hselection⟩
      rw [selectLatestSignalObservations_perm hids hperm, hfinal]
    · obtain ⟨b, hb, hpredicate, hvalid, -, hlt⟩ := hcondition o ho hrefused
      exact absurd hlt (not_lt.mpr (hmax b hb hpredicate hvalid))

/-- An observation of `github_total_stars`. -/
def starsObservation (id : Uuid) (value : Str) (observedAt : Time) : SignalInput where
  id := id
  predicate := "github_total_stars"
  objectValue := value
  observedAt := observedAt
  createdAt := none

theorem selectLatestSignalObservations_two_counts :
    (∃ found, (∀ permuted : List SignalInput,
        permuted.Perm [starsObservation 2 "many" 1, starsObservation 1 "10" 0] →
        selectLatestSignalObservations Ucd.ascii (fun c => c.toNat - 48) permuted = some found) ∧
      LatestSelection Ucd.ascii [starsObservation 2 "many" 1, starsObservation 1 "10" 0] found) ↔
    ∀ o ∈ [starsObservation 2 "many" 1, starsObservation 1 "10" 0], o.Refused Ucd.ascii →
      ∃ b ∈ [starsObservation 2 "many" 1, starsObservation 1 "10" 0], b.predicate = o.predicate ∧
        b.Valid Ucd.ascii ∧ ¬ b.Refused Ucd.ascii ∧ signalKey o < signalKey b :=
  selectLatestSignalObservations_iff (by
    simp only [List.map_cons, List.map_nil, starsObservation]
    decide)

private lemma strip_replicate_one (n : ℕ) :
    Str.strip (List.replicate n '1') = List.replicate n '1' := by
  have hspace : ¬ Str.isSpace '1' = true := by decide
  have hleft : Str.lstrip (List.replicate n '1') = List.replicate n '1' := by
    refine List.dropWhile_eq_self_iff.mpr fun hlt => ?_
    rw [List.getElem_replicate]
    exact hspace
  rw [Str.strip, hleft]
  refine List.rdropWhile_eq_self_iff.mpr fun hne => ?_
  rw [List.getLast_replicate]
  exact hspace

/-- A single count of 4301 digits ends the selection with a `ValueError`. -/
theorem selectLatestSignalObservations_long_count :
    ([starsObservation 1 (List.replicate 4301 '1') 0].map SignalInput.id).Nodup ∧
    ¬ ∃ found, (∀ permuted : List SignalInput,
        permuted.Perm [starsObservation 1 (List.replicate 4301 '1') 0] →
        selectLatestSignalObservations Ucd.ascii (fun c => c.toNat - 48) permuted = some found) ∧
      LatestSelection Ucd.ascii [starsObservation 1 (List.replicate 4301 '1') 0] found := by
  generalize hn : 4301 = n
  refine ⟨List.nodup_singleton _, ?_⟩
  rintro ⟨found, hall, -⟩
  have hids : ([starsObservation 1 (List.replicate n '1') 0].map SignalInput.id).Nodup :=
    List.nodup_singleton _
  have hrefused : (starsObservation 1 (List.replicate n '1') 0).Refused Ucd.ascii := by
    have hvalue : (starsObservation 1 (List.replicate n '1') 0).objectValue.strip =
      List.replicate n '1' := strip_replicate_one n
    have hnumeric : "github_total_stars".toList ∈ signalNumericPredicates := by decide
    refine ⟨hnumeric, ?_, ?_⟩
    · rw [hvalue, isDecimalText, decide_eq_true_eq]
      refine ⟨by simp; omega, List.all_eq_true.mpr fun c hc => ?_⟩
      rw [(List.mem_replicate.mp hc).2]
      decide
    · rw [hvalue, List.length_replicate, intMaxStrDigits]
      omega
  have hrun := hall _ (List.Perm.refl _)
  rcases selectLatestSignalObservations_cases Ucd.ascii (fun c => c.toNat - 48) hids with
    ⟨final, hfinal, hselection, hfits⟩ | ⟨hnone, -⟩
  · obtain ⟨s, hs⟩ := exists_latestValid (List.mem_singleton_self _) hrefused.valid
    obtain rfl := List.mem_singleton.mp hs.1
    exact hfits _ _ ((hselection.selected _ _).mpr hs) hrefused
  · rw [hnone] at hrun
    cases hrun

end Result

end VCBrain
