import VCBrain.Foundation.Dict
import VCBrain.Foundation.Keyset
import VCBrain.Foundation.OrderBy

set_option relaxedAutoImplicit false
set_option autoImplicit false

/-!
# Rows from the newest on

A query orders its rows by descending time, and how rows of equal time stand is left open. The rows
are then read from the newest on: those of one kind are picked out, and for each key the first value
is kept. This file says when the open part of the order cannot be seen in the outcome.

## Main definitions

* `Dict.setDefaults` — for each key the first of its values.

## Main results

* `Keyset.filter_sorted_eq` — rows of a kind that are told apart by their keys stand in one order.
* `head?_filterMap_eq_of_perm` — what the newest row says is the same in every order, if rows of
  equal key do not contradict each other.
-/

section NewestFirst

variable {ρ κ : Type*} [LinearOrder κ] {key : ρ → κ} {rows rows' : List ρ}

lemma Keyset.pairwise_le_sorted : (Keyset.sorted key rows).Pairwise fun a b => key b ≤ key a := by
  have htotal : Std.Total fun a b : ρ => key b ≤ key a := ⟨fun a b => le_total (key b) (key a)⟩
  have htrans : IsTrans ρ fun a b : ρ => key b ≤ key a := ⟨fun _ _ _ h h' => h'.trans h⟩
  exact List.pairwise_insertionSort _ rows

/-- **Rows of a kind.** Rows of one kind that are told apart by their keys stand in one order, in
whichever order and among whichever other rows the query found them.

**Proof sketch.** Both lists have the same rows of this kind and both are sorted, and two of these
rows cannot stand both ways round unless they are equal. -/
theorem Keyset.filter_sorted_eq {p : ρ → Bool} (hperm : (rows.filter p).Perm (rows'.filter p))
    (hinj : ∀ a ∈ rows, p a = true → ∀ b ∈ rows, p b = true → key a = key b → a = b) :
    (Keyset.sorted key rows).filter p = (Keyset.sorted key rows').filter p := by
  have hsorted : ∀ l : List ρ, ((Keyset.sorted key l).filter p).Pairwise fun a b => key b ≤ key a :=
    fun l => Keyset.pairwise_le_sorted.sublist List.filter_sublist
  have hrows : ((Keyset.sorted key rows).filter p).Perm ((Keyset.sorted key rows').filter p) :=
    (((Keyset.perm_sorted _).filter p).trans hperm).trans ((Keyset.perm_sorted _).filter p).symm
  refine List.Perm.eq_of_pairwise (fun a b ha hb hba hab => ?_) (hsorted rows) (hsorted rows') hrows
  have hb' := hrows.mem_iff.mpr hb
  rw [List.mem_filter, Keyset.mem_sorted] at ha hb'
  exact hinj a ha.1 ha.2 b hb'.1 hb'.2 (le_antisymm hab hba)

/-- **The newest word.** What the first row says that says anything is the same in every order by
descending key, if rows of equal key do not contradict each other.

**Proof sketch.** The row that is heard in one order stands somewhere in the other, behind or at the
row that is heard there. So neither has a smaller key than the other, and they agree. -/
theorem head?_filterMap_eq_of_perm {β : Type*} {g : ρ → Option β} (hperm : rows.Perm rows')
    (hrows : rows.Pairwise fun a b => key b ≤ key a)
    (hrows' : rows'.Pairwise fun a b => key b ≤ key a)
    (hagree : ∀ a ∈ rows, ∀ b ∈ rows, key a = key b → ∀ x ∈ g a, ∀ y ∈ g b, x = y) :
    (rows.filterMap g).head? = (rows'.filterMap g).head? := by
  -- the row that is heard has the largest key of those that say something
  have hheard : ∀ l : List ρ, l.Pairwise (fun a b => key b ≤ key a) → ∀ x,
      (l.filterMap g).head? = some x →
        ∃ a ∈ l, g a = some x ∧ ∀ b ∈ l, (g b).isSome = true → key b ≤ key a := by
    intro l hl x hx
    induction l with
    | nil => simp at hx
    | cons r l ih =>
      obtain ⟨hr, hl⟩ := List.pairwise_cons.mp hl
      cases hg : g r with
      | none =>
        rw [List.filterMap_cons_none hg] at hx
        obtain ⟨a, ha, hga, hmax⟩ := ih hl hx
        refine ⟨a, List.mem_cons_of_mem r ha, hga, fun b hb hsome => ?_⟩
        rcases List.mem_cons.mp hb with rfl | hb
        · simp [hg] at hsome
        · exact hmax b hb hsome
      | some y =>
        rw [List.filterMap_cons_some hg, List.head?_cons, Option.some.injEq] at hx
        refine ⟨r, List.mem_cons_self .., hx ▸ hg, fun b hb _ => ?_⟩
        rcases List.mem_cons.mp hb with rfl | hb
        · exact le_rfl
        · exact hr b hb
  cases hx : (rows.filterMap g).head? with
  | none =>
    rw [List.head?_eq_none_iff] at hx
    have hnil := (hperm.filterMap g).symm
    rw [hx] at hnil
    rw [List.Perm.eq_nil hnil, List.head?_nil]
  | some x =>
    cases hy : (rows'.filterMap g).head? with
    | none =>
      rw [List.head?_eq_none_iff] at hy
      have hnil := hperm.filterMap g
      rw [hy] at hnil
      rw [List.Perm.eq_nil hnil] at hx
      cases hx
    | some y =>
      obtain ⟨a, ha, hga, hmax⟩ := hheard rows hrows x hx
      obtain ⟨b, hb, hgb, hmax'⟩ := hheard rows' hrows' y hy
      have hba : key b ≤ key a := hmax b (hperm.mem_iff.mpr hb) (by simp [hgb])
      have hab : key a ≤ key b := hmax' a (hperm.mem_iff.mp ha) (by simp [hga])
      rw [hagree a ha b (hperm.mem_iff.mpr hb) (le_antisymm hab hba) x hga y hgb]

/-- `sorted(set(xs))` depends on the members only. -/
lemma sortedSet_congr {α : Type*} [LinearOrder α] {xs ys : List α} (h : ∀ x, x ∈ xs ↔ x ∈ ys) :
    sortedSet xs = sortedSet ys := by
  have hperm : xs.dedup.Perm ys.dedup :=
    (List.perm_ext_iff_of_nodup xs.nodup_dedup ys.nodup_dedup).mpr fun x => by
      rw [List.mem_dedup, List.mem_dedup, h]
  unfold sortedSet orderBy
  refine List.Perm.eq_of_pairwise (fun a b _ _ hab hba => le_antisymm hab hba)
    (List.pairwise_insertionSort _ _) (List.pairwise_insertionSort _ _) ?_
  exact (List.perm_insertionSort _ _).trans (hperm.trans (List.perm_insertionSort _ _).symm)

end NewestFirst

namespace Dict

variable {β : Type*} {d : Dict β} {key key' : Str} {value : β}

/-- What is found after a default was set. -/
lemma get?_setDefault : (d.setDefault key value).get? key' =
    (d.get? key').or (if key' = key then some value else none) := by
  unfold setDefault
  split_ifs with hmem hkey hkey
  · obtain ⟨⟨k, b⟩, hitem, rfl⟩ := List.mem_map.mp hmem
    rw [hkey, get?_eq_some_iff.mpr hitem, Option.some_or]
  · rw [Option.or_none]
  · rw [get?, get?, List.lookup_append, List.lookup_cons, hkey, beq_self_eq_true]
  · rw [get?, get?, List.lookup_append, List.lookup_cons, beq_false_of_ne hkey, List.lookup_nil]

/-- `for key, value in entries: d.setdefault(key, value)`, from an empty dictionary. -/
def setDefaults (entries : List (Str × β)) : Dict β :=
  entries.foldl (fun d entry => d.setDefault entry.1 entry.2) empty

/-- The first value of a key is found. -/
lemma get?_setDefaults (entries : List (Str × β)) :
    (setDefaults entries).get? key =
      (entries.filterMap fun entry => if key = entry.1 then some entry.2 else none).head? := by
  have hfold : ∀ d : Dict β, (entries.foldl (fun d entry => d.setDefault entry.1 entry.2) d).get?
      key = (d.get? key).or
        (entries.filterMap fun entry => if key = entry.1 then some entry.2 else none).head? := by
    induction entries with
    | nil => intro d; simp
    | cons entry entries ih =>
      intro d
      rw [List.foldl_cons, ih, get?_setDefault, Option.or_assoc]
      split_ifs with hkey
      · simp [hkey]
      · simp [hkey]
  rw [setDefaults, hfold, show (empty : Dict β).get? key = none from rfl, Option.none_or]

end Dict
