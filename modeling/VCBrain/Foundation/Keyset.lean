import Mathlib.Data.List.Sort
import Mathlib.Data.List.DropRight

set_option relaxedAutoImplicit false
set_option autoImplicit false

/-!
# Keyset pagination

Rows are listed by descending keys, some at a time. A page fetches one row more than it shows, and
points to the rows behind its last one if that row is there. The next page asks for the rows of
smaller keys than that.

## Main definitions

* `Keyset.sorted` — the rows by descending keys.
* `Keyset.page` — the rows of a page, and the key to go on with.
* `Keyset.pages` — the pages from a key on.

## Main results

* `Keyset.exists_pages` — the pages end and are the sorted rows.

## Design

Keys are distinct. The rows do not change between the pages.
-/

namespace Keyset

variable {ρ κ : Type*} [LinearOrder κ] (key : ρ → κ)

/-- `ORDER BY key DESC`. -/
def sorted (rows : List ρ) : List ρ := rows.insertionSort fun a b => key b ≤ key a

/-- The rows behind a key. -/
def behind (cursor : Option κ) (rows : List ρ) : List ρ :=
  rows.filter fun row => ∀ c ∈ cursor, key row < c

/-- The rows of the page behind a key, and the key to go on with. -/
def page (limit : ℕ) (rows : List ρ) (cursor : Option κ) : List ρ × Option κ :=
  let found := (sorted key (behind key cursor rows)).take (limit + 1)
  let items := found.take limit
  (items, if found.length > limit then items.getLast?.map key else none)

/-- The pages from a key on; `none` if there are more of them. -/
def pages (limit : ℕ) (rows : List ρ) : ℕ → Option κ → Option (List (List ρ))
  | 0, _ => none
  | fuel + 1, cursor =>
    let p := page key limit rows cursor
    match p.2 with
    | none => some [p.1]
    | some c => (pages limit rows fuel (some c)).map (p.1 :: ·)

variable {key} {rows : List ρ} {cursor : Option κ} {limit : ℕ}

@[simp] lemma mem_sorted {row : ρ} : row ∈ sorted key rows ↔ row ∈ rows := List.mem_insertionSort _

lemma perm_sorted (rows : List ρ) : (sorted key rows).Perm rows := List.perm_insertionSort _ _

/-- Keys of sorted rows decrease. -/
lemma pairwise_sorted (hkeys : (rows.map key).Nodup) :
    (sorted key rows).Pairwise fun a b => key b < key a := by
  have htotal : Std.Total fun a b : ρ => key b ≤ key a := ⟨fun a b => le_total (key b) (key a)⟩
  have htrans : IsTrans ρ fun a b : ρ => key b ≤ key a := ⟨fun _ _ _ h h' => h'.trans h⟩
  have hle : (sorted key rows).Pairwise fun a b => key b ≤ key a :=
    List.pairwise_insertionSort _ rows
  have hne : (sorted key rows).Pairwise fun a b => key a ≠ key b := by
    rw [← List.pairwise_map]
    exact ((perm_sorted rows).map key).nodup_iff.mpr hkeys
  exact hle.imp₂ (fun _ _ hle hne => lt_of_le_of_ne hle hne.symm) hne

/-- Rows of the same keys in the same order are the same. -/
lemma sorted_eq_of_pairwise {l : List ρ} (hl : l.Pairwise fun a b => key b < key a)
    (hperm : l.Perm rows) (hkeys : (rows.map key).Nodup) : sorted key rows = l := by
  refine List.Perm.eq_of_pairwise (fun a b _ _ h h' => absurd h (lt_asymm h'))
    (pairwise_sorted hkeys) hl ((perm_sorted rows).trans hperm.symm)

/-- The rows behind a key are a part of the sorted rows. -/
lemma sorted_behind (hkeys : (rows.map key).Nodup) (cursor : Option κ) :
    sorted key (behind key cursor rows) =
      (sorted key rows).filter fun row => ∀ c ∈ cursor, key row < c :=
  sorted_eq_of_pairwise ((pairwise_sorted hkeys).filter _) ((perm_sorted rows).filter _)
    (hkeys.sublist (List.filter_sublist.map key))

/-- **Behind a page.** The rows behind the last row of a page are those that were left.

**Proof sketch.** In the sorted rows, all rows up to this one have at least its key, and all rows
behind it have smaller keys. -/
lemma sorted_behind_last (hkeys : (rows.map key).Nodup) {last : ρ}
    (hlast : ((sorted key (behind key cursor rows)).take limit).getLast? = some last) :
    sorted key (behind key (some (key last)) rows) =
      (sorted key (behind key cursor rows)).drop limit := by
  rw [sorted_behind hkeys] at hlast ⊢
  rw [sorted_behind hkeys]
  have hpairwise := (pairwise_sorted hkeys).filter fun row => ∀ c ∈ cursor, key row < c
  set found := (sorted key rows).filter fun row => ∀ c ∈ cursor, key row < c with hfound
  obtain ⟨before, htake⟩ := List.getLast?_eq_some_iff.mp hlast
  have hsplit : found = before ++ last :: found.drop limit := by
    conv_lhs => rw [← List.take_append_drop limit found, htake]
    simp
  have hmem : last ∈ found := by
    rw [hsplit]
    exact List.mem_append_right _ (List.mem_cons_self ..)
  have hfilter : ((sorted key rows).filter fun row => ∀ c ∈ some (key last), key row < c) =
      found.filter fun row => key row < key last := by
    rw [hfound, List.filter_filter]
    refine List.filter_congr fun row _ => ?_
    have hlt := of_decide_eq_true (List.mem_filter.mp hmem).2
    rw [Bool.eq_iff_iff, Bool.and_eq_true, decide_eq_true_eq, decide_eq_true_eq, decide_eq_true_eq]
    refine ⟨fun h => ⟨h _ rfl, fun c hc => (h _ rfl).trans (hlt c hc)⟩, fun h c hc => ?_⟩
    cases hc
    exact h.1
  rw [hfilter]
  rw [hsplit] at hpairwise
  obtain ⟨-, hrest, hcross⟩ := List.pairwise_append.mp hpairwise
  have hbefore : before.filter (fun row => key row < key last) = [] := by
    refine List.filter_eq_nil_iff.mpr fun row hrow hlt => ?_
    exact lt_asymm (hcross row hrow last (List.mem_cons_self ..)) (of_decide_eq_true hlt)
  have hbehind : (found.drop limit).filter (fun row => key row < key last) = found.drop limit :=
    List.filter_eq_self.mpr fun row hrow =>
      decide_eq_true ((List.pairwise_cons.mp hrest).1 row hrow)
  conv_lhs => rw [hsplit]
  rw [List.filter_append, hbefore, List.nil_append, List.filter_cons_of_neg (by simp), hbehind]

/-- The rows of a page are the first ones behind its key. -/
lemma page_items : (page key limit rows cursor).1 =
    (sorted key (behind key cursor rows)).take limit := by
  rw [page, List.take_take, Nat.min_eq_left (Nat.le_succ limit)]

/-- There is a key to go on with exactly if more rows are left than the page shows. -/
lemma page_next (hlimit : 1 ≤ limit) :
    (sorted key (behind key cursor rows)).length ≤ limit ∧
        (page key limit rows cursor).2 = none ∨
      ∃ last, limit < (sorted key (behind key cursor rows)).length ∧
        ((sorted key (behind key cursor rows)).take limit).getLast? = some last ∧
        (page key limit rows cursor).2 = some (key last) := by
  rcases le_or_gt (sorted key (behind key cursor rows)).length limit with hle | hlt
  · refine Or.inl ⟨hle, ?_⟩
    rw [page, List.length_take, if_neg (by omega)]
  · have hne : (sorted key (behind key cursor rows)).take limit ≠ [] := by
      refine List.ne_nil_of_length_pos ?_
      rw [List.length_take]
      omega
    refine Or.inr ⟨_, hlt, List.getLast?_eq_some_getLast hne, ?_⟩
    rw [page, List.length_take, if_pos (by omega), List.take_take,
      Nat.min_eq_left (Nat.le_succ limit), List.getLast?_eq_some_getLast hne, Option.map_some]

/-- **The pages of the sorted rows.** Given enough steps the pages end, and are one after another
the sorted rows behind the key.

**Proof sketch.** Induction on the steps. A page that points on is full, so that fewer rows are left
behind it, and these are the rows of the pages that follow (`sorted_behind_last`). -/
theorem exists_pages (hkeys : (rows.map key).Nodup) (hlimit : 1 ≤ limit) {fuel : ℕ}
    (hfuel : (sorted key (behind key cursor rows)).length < fuel) :
    ∃ ps, pages key limit rows fuel cursor = some ps ∧
      ps.flatten = sorted key (behind key cursor rows) := by
  induction fuel generalizing cursor with
  | zero => exact absurd hfuel (Nat.not_lt_zero _)
  | succ fuel ih =>
    rcases @page_next _ _ _ key rows cursor limit hlimit with
      ⟨hle, hnext⟩ | ⟨last, hlt, hlast, hnext⟩
    · refine ⟨[(page key limit rows cursor).1], ?_, ?_⟩
      · simp only [pages, hnext]
      · rw [page_items, List.take_of_length_le hle, List.flatten_singleton]
    · have hrest := sorted_behind_last hkeys hlast
      obtain ⟨ps, hps, hflatten⟩ := @ih (some (key last)) (by
        rw [hrest, List.length_drop]
        omega)
      refine ⟨(page key limit rows cursor).1 :: ps, ?_, ?_⟩
      · simp only [pages, hnext, hps, Option.map_some]
      · rw [List.flatten_cons, hflatten, hrest, page_items, List.take_append_drop]

end Keyset
