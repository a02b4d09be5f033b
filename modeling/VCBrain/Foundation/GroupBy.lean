import Mathlib.Data.List.Dedup

set_option relaxedAutoImplicit false
set_option autoImplicit false

/-!
# Insertion-ordered grouping

The loop `for x in xs: groups.setdefault(key(x), []).append(x)` over a Python dictionary: the
groups come in the order in which their keys first occur, and each keeps the order of `xs`.

## Main definitions

* `firstKeys`, `groupBy` — the keys in order of first occurrence, and the groups.

## Main results

* `mem_groupBy` — a group is a key that occurs together with all elements of that key.
* `nodup_keys_groupBy` — no key has two groups.
* `foldlM_view` — a loop over groups, each of which works on its own part of a state, leaves
  in every part what the group of that part makes of it.
-/

variable {α κ : Type*} [DecidableEq κ]

/-- The keys of `xs` in the order of their first occurrence. -/
def firstKeys (key : α → κ) : List α → List κ
  | [] => []
  | x :: xs => key x :: (firstKeys key xs).filter (· ≠ key x)

/-- The groups of `xs` under `key`. -/
def groupBy (key : α → κ) (xs : List α) : List (κ × List α) :=
  (firstKeys key xs).map fun k => (k, xs.filter fun x => key x = k)

lemma mem_firstKeys {key : α → κ} {xs : List α} {k : κ} :
    k ∈ firstKeys key xs ↔ ∃ x ∈ xs, key x = k := by
  induction xs with
  | nil => simp [firstKeys]
  | cons x xs ih =>
    simp only [firstKeys, List.mem_cons, List.mem_filter, ih, decide_eq_true_eq]
    constructor
    · rintro (rfl | ⟨⟨y, hy, rfl⟩, -⟩)
      · exact ⟨x, Or.inl rfl, rfl⟩
      · exact ⟨y, Or.inr hy, rfl⟩
    · rintro ⟨y, rfl | hy, rfl⟩
      · exact Or.inl rfl
      · by_cases h : key y = key x
        · exact Or.inl h
        · exact Or.inr ⟨⟨y, hy, rfl⟩, h⟩

lemma nodup_firstKeys (key : α → κ) (xs : List α) : (firstKeys key xs).Nodup := by
  induction xs with
  | nil => exact List.nodup_nil
  | cons x xs ih =>
    refine List.nodup_cons.mpr ⟨?_, ih.filter _⟩
    simp

/-- A group is a key that occurs, with all the elements of that key. -/
lemma mem_groupBy {key : α → κ} {xs : List α} {k : κ} {g : List α} :
    (k, g) ∈ groupBy key xs ↔ (∃ x ∈ xs, key x = k) ∧ g = xs.filter fun x => key x = k := by
  simp only [groupBy, List.mem_map, Prod.mk.injEq, mem_firstKeys]
  constructor
  · rintro ⟨k', hk', rfl, rfl⟩
    exact ⟨hk', rfl⟩
  · rintro ⟨hk, rfl⟩
    exact ⟨k, hk, rfl, rfl⟩

/-- No key has two groups. -/
lemma nodup_keys_groupBy (key : α → κ) (xs : List α) :
    ((groupBy key xs).map Prod.fst).Nodup := by
  simpa [groupBy, Function.comp_def] using nodup_firstKeys key xs

/-! ## Loops that collect -/

/-- A loop that collects one result for each element collects the results of its elements. -/
lemma mem_of_mapM_eq_some {β : Type*} {f : α → Option β} {xs : List α} {ys : List β}
    (h : xs.mapM f = some ys) {y : β} : y ∈ ys ↔ ∃ x ∈ xs, f x = some y := by
  induction xs generalizing ys with
  | nil =>
    obtain rfl : [] = ys := by simpa using h
    simp
  | cons x xs ih =>
    rw [List.mapM_cons] at h
    obtain ⟨z, hz, h⟩ := Option.bind_eq_some_iff.mp h
    obtain ⟨zs, hzs, h⟩ := Option.bind_eq_some_iff.mp h
    obtain rfl : z :: zs = ys := Option.some.inj h
    rw [List.mem_cons, ih hzs]
    simp only [List.mem_cons, or_and_right, exists_or, exists_eq_left, hz, Option.some.injEq]
    rw [eq_comm]

/-- Each element has its result among those collected. -/
lemma exists_of_mapM_eq_some {β : Type*} {f : α → Option β} {xs : List α} {ys : List β}
    (h : xs.mapM f = some ys) {x : α} (hx : x ∈ xs) : ∃ y ∈ ys, f x = some y := by
  induction xs generalizing ys with
  | nil => simp at hx
  | cons z xs ih =>
    rw [List.mapM_cons] at h
    obtain ⟨y, hy, h⟩ := Option.bind_eq_some_iff.mp h
    obtain ⟨zs, hzs, h⟩ := Option.bind_eq_some_iff.mp h
    obtain rfl : y :: zs = ys := Option.some.inj h
    cases hx with
    | head => exact ⟨y, List.mem_cons_self .., hy⟩
    | tail _ hx =>
      obtain ⟨w, hw, hfx⟩ := ih hzs hx
      exact ⟨w, List.mem_cons_of_mem _ hw, hfx⟩

/-- A loop that collects results succeeds if every element has one. -/
lemma exists_mapM_eq_some {β : Type*} {f : α → Option β} {xs : List α}
    (h : ∀ x ∈ xs, ∃ y, f x = some y) : ∃ ys, xs.mapM f = some ys := by
  induction xs with
  | nil => exact ⟨[], rfl⟩
  | cons x xs ih =>
    obtain ⟨y, hy⟩ := h x (List.mem_cons_self ..)
    obtain ⟨ys, hys⟩ := ih fun z hz => h z (List.mem_cons_of_mem _ hz)
    refine ⟨y :: ys, ?_⟩
    rw [List.mapM_cons, hy, hys]
    rfl

/-- A loop that collects results under the keys of its elements has the result of each of them. -/
lemma lookup_of_mapM {β : Type*} {key : α → κ} {f : α → Option β} {xs : List α}
    {ys : List (κ × β)} (hkeys : (xs.map key).Nodup)
    (h : (xs.mapM fun x => (f x).map fun y => (key x, y)) = some ys) {x : α} (hx : x ∈ xs) :
    ys.lookup (key x) = f x := by
  induction xs generalizing ys with
  | nil => simp at hx
  | cons z xs ih =>
    obtain ⟨hz, hxs⟩ := List.nodup_cons.mp hkeys
    rw [List.mapM_cons] at h
    obtain ⟨_, hy, h⟩ := Option.bind_eq_some_iff.mp h
    obtain ⟨zs, hzs, h⟩ := Option.bind_eq_some_iff.mp h
    obtain ⟨y, hfz, rfl⟩ := Option.map_eq_some_iff.mp hy
    obtain rfl : (key z, y) :: zs = ys := Option.some.inj h
    rcases List.mem_cons.mp hx with rfl | hx
    · rw [List.lookup_cons_self, hfz]
    · have hne : key x ≠ key z := fun heq => hz (heq ▸ List.mem_map_of_mem hx)
      rw [List.lookup_cons, beq_eq_false_iff_ne.mpr hne]
      exact ih hxs hzs hx

/-! ## Loops over groups -/

section Loop

variable {σ γ ν : Type*} {step : σ → κ × γ → Option σ} {s s' : σ} {gs : List (κ × γ)}

omit [DecidableEq κ]

/-- What every step of a loop preserves holds after the loop. -/
lemma foldlM_invariant {ι : Type*} {step : σ → ι → Option σ} {I : σ → Prop} {xs : List ι}
    (hI : ∀ s x s', x ∈ xs → I s → step s x = some s' → I s') (hs : I s)
    (h : xs.foldlM step s = some s') : I s' := by
  induction xs generalizing s with
  | nil =>
    obtain rfl : s = s' := by simpa using h
    exact hs
  | cons x xs ih =>
    rw [List.foldlM_cons] at h
    obtain ⟨u, hu, hrest⟩ := Option.bind_eq_some_iff.mp h
    have hIu : I u := hI s x u (List.mem_cons_self ..) hs hu
    exact ih (fun s y s' hy => hI s y s' (List.mem_cons_of_mem _ hy)) hIu hrest

/-- A loop whose steps change nothing changes nothing. -/
lemma foldlM_eq_self {ι : Type*} {step : σ → ι → Option σ} {xs : List ι}
    (h : ∀ x ∈ xs, step s x = some s) : xs.foldlM step s = some s := by
  induction xs with
  | nil => rfl
  | cons x xs ih =>
    rw [List.foldlM_cons, h x (List.mem_cons_self ..)]
    exact ih fun y hy => h y (List.mem_cons_of_mem _ hy)

/-- The part of a key that has no group is left alone. -/
lemma foldlM_view_of_notMem (view : κ → σ → ν)
    (hframe : ∀ kg ∈ gs, ∀ s s', step s kg = some s' → ∀ k, k ≠ kg.1 → view k s' = view k s)
    {k : κ} (hk : k ∉ gs.map Prod.fst) (h : gs.foldlM step s = some s') :
    view k s' = view k s := by
  refine foldlM_invariant (I := fun t => view k t = view k s) (fun t x t' hx ht hstep => ?_) rfl h
  have hne : k ≠ x.1 := fun heq => hk (heq ▸ List.mem_map_of_mem hx)
  rw [hframe x hx t t' hstep k hne, ht]

/-- **Groups work side by side.** If a step at a key changes no part but that of its key, then
after a loop over groups with distinct keys the part of a group is what its step left, and the
step found there what the loop began with. -/
lemma foldlM_view (view : κ → σ → ν)
    (hframe : ∀ kg ∈ gs, ∀ s s', step s kg = some s' → ∀ k, k ≠ kg.1 → view k s' = view k s)
    (hnodup : (gs.map Prod.fst).Nodup) {k : κ} {g : γ} (hmem : (k, g) ∈ gs)
    (h : gs.foldlM step s = some s') :
    ∃ t t', view k t = view k s ∧ step t (k, g) = some t' ∧ view k s' = view k t' := by
  induction gs generalizing s with
  | nil => simp at hmem
  | cons x gs ih =>
    rw [List.foldlM_cons] at h
    obtain ⟨u, hu, hrest⟩ := Option.bind_eq_some_iff.mp h
    obtain ⟨hx, hnodup'⟩ := List.nodup_cons.mp hnodup
    have hframe' : ∀ kg ∈ gs, _ := fun kg hkg => hframe kg (List.mem_cons_of_mem _ hkg)
    rcases List.mem_cons.mp hmem with rfl | hmem'
    · exact ⟨s, u, rfl, hu, foldlM_view_of_notMem view hframe' hx hrest⟩
    · obtain ⟨t, t', ht, hstep, ht'⟩ := ih hframe' hnodup' hmem' hrest
      have hne : k ≠ x.1 := fun heq => hx (heq ▸ List.mem_map_of_mem hmem')
      exact ⟨t, t', ht.trans (hframe x (List.mem_cons_self ..) s u hu k hne), hstep, ht'⟩

end Loop
