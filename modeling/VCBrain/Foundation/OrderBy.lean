import Mathlib.Data.List.Dedup
import Mathlib.Data.List.Sort
import Mathlib.Data.Prod.Lex

set_option relaxedAutoImplicit false
set_option autoImplicit false

/-!
# Ordered queries

The clauses `ORDER BY key` and `LIMIT n` of a query: rows are sorted by a key from a linear
order, and a prefix of the sorted rows is returned. Rows with equal keys stay in storage order.

## Main definitions

* `orderBy` — the sorted rows; `latest` — the row that comes first by descending time.

## Main results

* `latest_eq_some_iff` — the latest row is the first of those with the largest key.
* `find?_orderBy_le` — the first row of a kind has the least key of its kind.
* `mem_take_orderBy_iff` — a row is among the first `n` exactly if fewer than `n` rows have a
  smaller key.
-/

section OrderBy

variable {ρ κ : Type*}

/-- A part of the rows is sorted into a part of the sorted rows. -/
lemma insertionSort_sublist {r : ρ → ρ → Prop} [DecidableRel r] [Std.Total r] [IsTrans ρ r]
    {rows rows' : List ρ} (h : rows.Sublist rows') :
    (rows.insertionSort r).Sublist (rows'.insertionSort r) := by
  induction h with
  | slnil => exact List.Sublist.refl _
  | cons a _ ih => exact ih.trans (List.sublist_orderedInsert a _)
  | cons_cons a _ ih =>
    exact List.Sublist.orderedInsert_sublist a ih (List.pairwise_insertionSort r _)

variable [LinearOrder κ] (key : ρ → κ)

/-- `ORDER BY key`. -/
def orderBy (rows : List ρ) : List ρ := rows.insertionSort fun a b => key a ≤ key b

/-- `ORDER BY key DESC LIMIT 1`. -/
def latest (rows : List ρ) : Option ρ :=
  (rows.insertionSort fun a b => key b ≤ key a).head?

lemma perm_orderBy (rows : List ρ) : List.Perm (orderBy key rows) rows :=
  List.perm_insertionSort _ _

private lemma pairwise_orderBy (rows : List ρ) :
    (orderBy key rows).Pairwise fun a b => key a ≤ key b := by
  have htotal : Std.Total fun a b : ρ => key a ≤ key b := ⟨fun a b => le_total (key a) (key b)⟩
  have htrans : IsTrans ρ fun a b : ρ => key a ≤ key b := ⟨fun _ _ _ => le_trans⟩
  exact List.pairwise_insertionSort _ rows

variable {key} {rows : List ρ}

@[simp] lemma mem_orderBy {a : ρ} : a ∈ orderBy key rows ↔ a ∈ rows := List.mem_insertionSort _

/-- The latest row is one of the rows. -/
lemma mem_of_latest_eq_some {a : ρ} (h : latest key rows = some a) : a ∈ rows :=
  (List.mem_insertionSort _).mp (List.mem_of_mem_head? h)

/-- There is no latest row exactly if there is none at all. -/
lemma latest_eq_none_iff : latest key rows = none ↔ rows = [] := by
  unfold latest
  rw [List.head?_eq_none_iff, ← List.length_eq_zero_iff, List.length_insertionSort,
    List.length_eq_zero_iff]

/-- The latest row of a list and one more row in front. -/
lemma latest_cons (r : ρ) (rows : List ρ) : latest key (r :: rows) =
    some (((latest key rows).filter fun a => key r < key a).getD r) := by
  unfold latest
  rw [List.insertionSort_cons]
  cases rows.insertionSort fun a b => key b ≤ key a with
  | nil => rfl
  | cons a rest =>
    rw [List.orderedInsert_cons]
    by_cases hle : key a ≤ key r
    · simp [Option.filter_some, hle, not_lt.mpr hle]
    · simp [Option.filter_some, hle, not_le.mp hle]

/-- **The latest row.** It is the first of the rows with the largest key: the rows before it have
smaller keys, those after it have no larger ones.

**Proof sketch.** Induction on the rows: the row in front is the latest unless the latest of the
others has a larger key. -/
theorem latest_eq_some_iff {a : ρ} : latest key rows = some a ↔ ∃ before after,
    rows = before ++ a :: after ∧ (∀ b ∈ before, key b < key a) ∧ ∀ b ∈ after, key b ≤ key a := by
  induction rows generalizing a with
  | nil => simp [latest]
  | cons r rows ih =>
    rw [latest_cons]
    constructor
    · intro h
      cases hrest : latest key rows with
      | none =>
        obtain rfl := latest_eq_none_iff.mp hrest
        obtain rfl : r = a := by simpa [latest] using h
        exact ⟨[], [], rfl, by simp, by simp⟩
      | some c =>
        obtain ⟨before, after, rfl, hbefore, hafter⟩ := ih.mp hrest
        rw [hrest] at h
        by_cases hlt : key r < key c
        · obtain rfl : c = a := by simpa [Option.filter_some, hlt] using h
          refine ⟨r :: before, after, rfl, ?_, hafter⟩
          exact List.forall_mem_cons.mpr ⟨hlt, hbefore⟩
        · obtain rfl : r = a := by simpa [Option.filter_some, hlt] using h
          have hle : key c ≤ key r := not_lt.mp hlt
          refine ⟨[], before ++ c :: after, rfl, by simp, fun b hb => ?_⟩
          rcases List.mem_append.mp hb with hleft | hright
          · exact (hbefore b hleft).le.trans hle
          · rcases List.mem_cons.mp hright with rfl | hlater
            · exact hle
            · exact (hafter b hlater).trans hle
    · rintro ⟨before, after, hsplit, hbefore, hafter⟩
      cases before with
      | nil =>
        obtain ⟨rfl, rfl⟩ := List.cons.inj hsplit
        have hnone : (latest key rows).filter (fun c => decide (key r < key c)) = none := by
          rw [Option.filter_eq_none_iff]
          intro c hc
          simpa using hafter c (mem_of_latest_eq_some hc)
        rw [hnone, Option.getD_none]
      | cons b before =>
        rw [List.cons_append] at hsplit
        obtain ⟨rfl, rfl⟩ := List.cons.inj hsplit
        have hrest := ih.mpr ⟨before, after, rfl,
          fun c hc => hbefore c (List.mem_cons_of_mem _ hc), hafter⟩
        simp [Option.filter_some, hrest, hbefore r (List.mem_cons_self ..)]

/-- The first row of a kind has the least key of its kind. -/
lemma find?_orderBy_le {p : ρ → Bool} {a : ρ} (h : (orderBy key rows).find? p = some a) :
    ∀ b ∈ rows, p b = true → key a ≤ key b := by
  intro b hb hpb
  obtain ⟨hpa, before, after, hsplit, hbefore⟩ := List.find?_eq_some_iff_append.mp h
  have hsorted := pairwise_orderBy key rows
  have hmem : b ∈ orderBy key rows := mem_orderBy.mpr hb
  rw [hsplit] at hsorted hmem
  rcases List.mem_append.mp hmem with hleft | hright
  · have hnot := hbefore b hleft
    rw [hpb] at hnot
    cases hnot
  · rcases List.mem_cons.mp hright with rfl | hlater
    · exact le_refl _
    · exact (List.pairwise_cons.mp (List.pairwise_append.mp hsorted).2.1).1 b hlater

/-- **Membership in a batch.** Where keys are distinct, a row is among the first `n` exactly if
fewer than `n` rows have a smaller key.

**Proof sketch.** The sorted rows are `before ++ a :: after`. The rows in `before` have smaller
keys, those in `after` have larger ones, so the rows with smaller keys are those in `before`. -/
theorem mem_take_orderBy_iff (hinj : ∀ a ∈ rows, ∀ b ∈ rows, key a = key b → a = b)
    (hnodup : rows.Nodup) {a : ρ} (ha : a ∈ rows) (n : ℕ) :
    a ∈ (orderBy key rows).take n ↔ (rows.filter fun b => key b < key a).length < n := by
  have hin : a ∈ orderBy key rows := mem_orderBy.mpr ha
  obtain ⟨before, after, hsplit⟩ := List.mem_iff_append.mp hin
  have hsorted := pairwise_orderBy key rows
  have hdistinct : (orderBy key rows).Nodup := (perm_orderBy key rows).nodup_iff.mpr hnodup
  have hmem : ∀ b, b ∈ before ++ a :: after → b ∈ rows := fun b hb => by
    rw [← hsplit] at hb
    exact mem_orderBy.mp hb
  rw [hsplit] at hsorted hdistinct
  obtain ⟨-, htail, hcross⟩ := List.pairwise_append.mp hsorted
  have hnotbefore : a ∉ before := fun hin =>
    (List.nodup_append.mp hdistinct).2.2 a hin a (List.mem_cons_self ..) rfl
  have hsmaller : ∀ b ∈ before, decide (key b < key a) = true := by
    intro b hb
    have hne : key b ≠ key a := fun heq =>
      hnotbefore (hinj b (hmem b (by simp [hb])) a ha heq ▸ hb)
    exact decide_eq_true (lt_of_le_of_ne (hcross b hb a (List.mem_cons_self ..)) hne)
  have hlarger : ∀ b ∈ a :: after, ¬ decide (key b < key a) = true := by
    intro b hb
    rw [decide_eq_true_eq, not_lt]
    rcases List.mem_cons.mp hb with rfl | hlater
    · exact le_refl _
    · exact (List.pairwise_cons.mp htail).1 b hlater
  have hcount : (rows.filter fun b => key b < key a).length = before.length := by
    rw [← ((perm_orderBy key rows).filter _).length_eq, hsplit, List.filter_append,
      List.filter_eq_self.mpr hsmaller, List.filter_eq_nil_iff.mpr hlarger, List.append_nil]
  rw [hcount, hsplit]
  constructor
  · intro hin
    by_contra hle
    rw [List.take_append_of_le_length (by omega)] at hin
    exact hnotbefore (List.mem_of_mem_take hin)
  · intro hlt
    rw [List.take_append]
    obtain ⟨m, hm⟩ : ∃ m, n - before.length = m + 1 := ⟨n - before.length - 1, by omega⟩
    rw [hm, List.take_succ_cons]
    simp

/-- `sorted(set(xs))`. -/
def sortedSet {α : Type*} [LinearOrder α] (xs : List α) : List α := orderBy id xs.dedup

@[simp] lemma mem_sortedSet {α : Type*} [LinearOrder α] {xs : List α} {x : α} :
    x ∈ sortedSet xs ↔ x ∈ xs := by
  rw [sortedSet, mem_orderBy, List.mem_dedup]

end OrderBy
