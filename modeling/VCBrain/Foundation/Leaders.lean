import Mathlib.Data.List.Nodup
import Mathlib.Data.List.Perm.Subperm
import Mathlib.Tactic.Common
import VCBrain.Foundation.Dict

set_option relaxedAutoImplicit false
set_option autoImplicit false

/-!
# Leader clustering

The elements of a list are visited in turn. An element that no leader has absorbed becomes a leader
and absorbs all that are similar to it among those that come later and are still free.

## Main definitions

* `Leaders.absorbed` — the elements that are absorbed, with their leaders.
* `Leaders.sweep` — the same by a nested loop that marks elements by their keys.

## Main results

* `Leaders.sweep_eq` — the loop marks what is absorbed.
* `Leaders.not_similar` — of two elements that are left the earlier one is not similar to the later.
* `Leaders.absorbed_eq_nil` — nothing is absorbed where no element is similar to a later one.
-/

namespace Leaders

variable {α κ : Type*} (similar : α → α → Bool)

/-- The elements that a leader leaves. -/
def left (a : α) (rest : List α) : List α := rest.filter fun b => !similar a b

/-- The elements that are absorbed, each with its leader. -/
def absorbed : List α → List (α × α)
  | [] => []
  | a :: rest => (rest.filter (similar a)).map (fun b => (b, a)) ++ absorbed (left similar a rest)
termination_by l => l.length
decreasing_by
  rw [List.length_cons, Nat.lt_succ_iff]
  exact List.length_filter_le _ rest

@[simp] lemma absorbed_nil : absorbed similar [] = [] := by rw [absorbed]

lemma absorbed_cons (a : α) (rest : List α) :
    absorbed similar (a :: rest) = (rest.filter (similar a)).map (fun b => (b, a)) ++
      absorbed similar (left similar a rest) := by
  rw [absorbed]

variable {similar} {l : List α} {a b : α}

/-- An absorbed element comes behind a leader that is similar to it. -/
lemma pair_of_mem_absorbed (h : (b, a) ∈ absorbed similar l) :
    [a, b].Sublist l ∧ similar a b = true := by
  induction l using absorbed.induct similar with
  | case1 => simp at h
  | case2 c rest ih =>
    rw [absorbed_cons] at h
    rcases List.mem_append.mp h with h | h
    · obtain ⟨d, hd, heq⟩ := List.mem_map.mp h
      obtain ⟨rfl, rfl⟩ := Prod.mk.inj heq
      obtain ⟨hd, hsimilar⟩ := List.mem_filter.mp hd
      exact ⟨(List.singleton_sublist.mpr hd).cons_cons c, hsimilar⟩
    · obtain ⟨hsub, hsimilar⟩ := ih h
      exact ⟨(hsub.trans List.filter_sublist).cons c, hsimilar⟩

lemma mem_of_mem_absorbed (h : (b, a) ∈ absorbed similar l) : a ∈ l ∧ b ∈ l := by
  have hsub := (pair_of_mem_absorbed h).1.subset
  exact ⟨hsub (List.mem_cons_self ..), hsub (List.mem_cons_of_mem _ (List.mem_singleton_self _))⟩

/-- The absorbed elements are a part of the list, in some order. -/
lemma subperm_absorbed : ((absorbed similar l).map Prod.fst).Subperm l := by
  induction l using absorbed.induct similar with
  | case1 => simp [List.Subperm.refl]
  | case2 c rest ih =>
    rw [absorbed_cons, List.map_append, List.map_map]
    have hfirst : (rest.filter (similar c)).map (Prod.fst ∘ fun b => (b, c)) =
        rest.filter (similar c) := List.map_id _
    rw [hfirst]
    refine List.Subperm.trans ?_ (List.sublist_cons_self c rest).subperm
    exact ((List.Perm.refl _).subperm.append ih).trans (List.filter_append_perm _ rest).subperm

/-- A leader is not absorbed. -/
lemma leader_not_absorbed (hnodup : l.Nodup) (h : (b, a) ∈ absorbed similar l) :
    ∀ c, (a, c) ∉ absorbed similar l := by
  induction l using absorbed.induct similar with
  | case1 => simp at h
  | case2 d rest ih =>
    intro c hc
    obtain ⟨hd, hrest⟩ := List.nodup_cons.mp hnodup
    rw [absorbed_cons] at h hc
    rcases List.mem_append.mp h with h | h
    · -- the leader is the first element, which is in none of the two parts
      obtain ⟨_, _, heq⟩ := List.mem_map.mp h
      obtain ⟨rfl, rfl⟩ := Prod.mk.inj heq
      rcases List.mem_append.mp hc with hc | hc
      · obtain ⟨_, hmem, heq⟩ := List.mem_map.mp hc
        obtain ⟨rfl, rfl⟩ := Prod.mk.inj heq
        exact hd (List.mem_of_mem_filter hmem)
      · exact hd (List.mem_of_mem_filter (mem_of_mem_absorbed hc).2)
    · rcases List.mem_append.mp hc with hc | hc
      · obtain ⟨_, hmem, heq⟩ := List.mem_map.mp hc
        obtain ⟨rfl, rfl⟩ := Prod.mk.inj heq
        have hleft := (List.mem_filter.mp (mem_of_mem_absorbed h).1).2
        rw [(List.mem_filter.mp hmem).2] at hleft
        cases hleft
      · exact ih (hrest.filter _) h c hc

/-- **What is left.** Of two elements that are not absorbed the earlier one is not similar to the
later. -/
theorem not_similar (h : [a, b].Sublist l) (ha : ∀ c, (a, c) ∉ absorbed similar l)
    (hb : ∀ c, (b, c) ∉ absorbed similar l) : similar a b = false := by
  induction l using absorbed.induct similar with
  | case1 => cases h
  | case2 d rest ih =>
    rw [absorbed_cons] at ha hb
    simp only [List.mem_append, not_or] at ha hb
    have hfree : ∀ e ∈ rest, (∀ c, (e, c) ∉ (rest.filter (similar d)).map fun b => (b, d)) →
        similar d e = false := by
      intro e he hnot
      by_contra hsimilar
      exact hnot d (List.mem_map.mpr ⟨e, List.mem_filter.mpr ⟨he, by simpa using hsimilar⟩, rfl⟩)
    cases h with
    | cons_cons _ h =>
      exact hfree b (List.singleton_sublist.mp h) fun c => (hb c).1
    | cons _ h =>
      have hmem : a ∈ rest ∧ b ∈ rest :=
        ⟨h.subset (List.mem_cons_self ..),
          h.subset (List.mem_cons_of_mem _ (List.mem_singleton_self _))⟩
      have hfilter := h.filter fun e => !similar d e
      rw [List.filter_cons_of_pos (by simp [hfree a hmem.1 fun c => (ha c).1]),
        List.filter_cons_of_pos (by simp [hfree b hmem.2 fun c => (hb c).1]), List.filter_nil]
        at hfilter
      exact ih hfilter (fun c => (ha c).2) fun c => (hb c).2

/-- Of two elements of a list one comes first. -/
lemma pair_sublist_or (ha : a ∈ l) (hb : b ∈ l) (hne : a ≠ b) :
    [a, b].Sublist l ∨ [b, a].Sublist l := by
  induction l with
  | nil => cases ha
  | cons c l ih =>
    rcases List.mem_cons.mp ha with rfl | ha'
    · have hb' := (List.mem_cons.mp hb).resolve_left hne.symm
      exact Or.inl ((List.singleton_sublist.mpr hb').cons_cons a)
    · rcases List.mem_cons.mp hb with rfl | hb'
      · exact Or.inr ((List.singleton_sublist.mpr ha').cons_cons b)
      · exact (ih ha' hb').imp (fun h => h.cons c) fun h => h.cons c

/-- Nothing is absorbed where no element is similar to a later one. -/
lemma absorbed_eq_nil (h : l.Pairwise fun a b => similar a b = false) :
    absorbed similar l = [] := by
  rw [List.eq_nil_iff_forall_not_mem]
  rintro ⟨b, a⟩ hmem
  obtain ⟨hsub, hsimilar⟩ := pair_of_mem_absorbed hmem
  have hpair := h.sublist hsub
  rw [List.pairwise_pair, hsimilar] at hpair
  cases hpair

/-- Of fewer than two elements none is absorbed. -/
lemma absorbed_of_length_lt (h : l.length < 2) : absorbed similar l = [] := by
  refine absorbed_eq_nil ?_
  match l, h with
  | [], _ => exact List.Pairwise.nil
  | [a], _ => exact List.pairwise_singleton _ a

/-- What is absorbed depends on the elements of the list alone. -/
lemma absorbed_congr {similar' : α → α → Bool}
    (h : ∀ a ∈ l, ∀ b ∈ l, similar a b = similar' a b) :
    absorbed similar l = absorbed similar' l := by
  induction l using absorbed.induct similar with
  | case1 => simp
  | case2 d rest ih =>
    have hd : ∀ b ∈ rest, similar d b = similar' d b := fun b hb =>
      h d (List.mem_cons_self ..) b (List.mem_cons_of_mem _ hb)
    have hleft : left similar d rest = left similar' d rest :=
      List.filter_congr fun b hb => by rw [hd b hb]
    have hmem : ∀ b ∈ left similar d rest, b ∈ d :: rest := fun b hb =>
      List.mem_cons_of_mem _ (List.mem_of_mem_filter hb)
    rw [absorbed_cons, absorbed_cons, ih fun a ha b hb => h a (hmem a ha) b (hmem b hb), hleft,
      List.filter_congr hd]

/-! ## The nested loop -/

section Sweep

variable [DecidableEq κ] (key : α → κ) (similar)

/-- The inner loop: the later elements that are free and similar are marked. -/
def mark (a : α) (marks : List (κ × α)) (later : List α) : List (κ × α) :=
  later.foldl (fun marks b =>
    if key b ∈ marks.map Prod.fst then marks
    else if similar a b then marks ++ [(key b, a)] else marks) marks

/-- The outer loop: an element that is free marks the later ones. -/
def sweep : List α → List (κ × α) → List (κ × α)
  | [], marks => marks
  | a :: later, marks =>
    if key a ∈ marks.map Prod.fst then sweep later marks
    else sweep later (mark similar key a marks later)

variable {similar key}

/-- The inner loop marks the free elements that are similar. -/
lemma mark_eq {later : List α} (hkeys : (later.map key).Nodup) (marks : List (κ × α)) :
    mark similar key a marks later = marks ++ ((later.filter fun b =>
      key b ∉ marks.map Prod.fst).filter (similar a)).map fun b => (key b, a) := by
  induction later generalizing marks with
  | nil => simp [mark]
  | cons b later ih =>
    obtain ⟨hb, hlater⟩ := List.nodup_cons.mp hkeys
    have hstep : mark similar key a marks (b :: later) = mark similar key a
        (if key b ∈ marks.map Prod.fst then marks
          else if similar a b then marks ++ [(key b, a)] else marks) later := rfl
    rw [hstep, ih hlater]
    by_cases hmarked : key b ∈ marks.map Prod.fst
    · rw [if_pos hmarked, List.filter_cons_of_neg (by simpa using hmarked)]
    · rw [if_neg hmarked, List.filter_cons_of_pos (by simpa using hmarked)]
      by_cases hsimilar : similar a b = true
      · have hfree : (later.filter fun c => key c ∉ (marks ++ [(key b, a)]).map Prod.fst) =
            later.filter fun c => key c ∉ marks.map Prod.fst := by
          refine List.filter_congr fun c hc => ?_
          have hne : key c ≠ key b := fun heq => hb (heq ▸ List.mem_map_of_mem hc)
          simp [hne]
        rw [if_pos hsimilar, hfree, List.filter_cons_of_pos hsimilar, List.map_cons,
          List.append_assoc, List.singleton_append]
      · rw [if_neg hsimilar, List.filter_cons_of_neg hsimilar]

/-- **The loop** marks what is absorbed among the free elements. -/
theorem sweep_append {l : List α} (hkeys : (l.map key).Nodup) (marks : List (κ × α)) :
    sweep similar key l marks = marks ++ (absorbed similar
      (l.filter fun b => key b ∉ marks.map Prod.fst)).map fun p => (key p.1, p.2) := by
  induction l generalizing marks with
  | nil => simp [sweep]
  | cons a later ih =>
    obtain ⟨-, hlater⟩ := List.nodup_cons.mp hkeys
    by_cases hmarked : key a ∈ marks.map Prod.fst
    · rw [sweep, if_pos hmarked, ih hlater, List.filter_cons_of_neg (by simpa using hmarked)]
    · have hfree : (later.filter fun c => key c ∉ (marks ++ ((later.filter fun b =>
          key b ∉ marks.map Prod.fst).filter (similar a)).map fun b => (key b, a)).map Prod.fst) =
          (later.filter fun c => key c ∉ marks.map Prod.fst).filter fun c => !similar a c := by
        conv_rhs => rw [List.filter_filter]
        refine List.filter_congr fun c hc => ?_
        have hsame : ∀ d ∈ later, key d = key c → d = c :=
          fun d hd heq => List.inj_on_of_nodup_map hlater hd hc heq
        rw [Bool.eq_iff_iff, decide_eq_true_eq, Bool.and_eq_true, decide_eq_true_eq]
        simp only [List.map_append, List.mem_append, not_or, List.map_map, List.mem_map,
          List.mem_filter, decide_eq_true_eq, Function.comp_apply, Bool.not_eq_true']
        constructor
        · rintro ⟨hnot, hnone⟩
          refine ⟨?_, hnot⟩
          by_contra hsimilar
          exact hnone ⟨c, ⟨⟨hc, hnot⟩, by simpa using hsimilar⟩, rfl⟩
        · rintro ⟨hsimilar, hnot⟩
          refine ⟨hnot, ?_⟩
          rintro ⟨d, ⟨⟨hd, -⟩, hd'⟩, heq⟩
          rw [hsame d hd heq, hsimilar] at hd'
          cases hd'
      rw [sweep, if_neg hmarked, ih hlater, List.filter_cons_of_pos (by simpa using hmarked),
        mark_eq hlater, hfree, absorbed_cons, List.append_assoc, List.map_append, List.map_map]
      rfl

/-- From the beginning, the loop marks what is absorbed. -/
lemma sweep_eq {l : List α} (hkeys : (l.map key).Nodup) :
    sweep similar key l [] = (absorbed similar l).map fun p => (key p.1, p.2) := by
  rw [sweep_append hkeys, List.nil_append, List.filter_eq_self.mpr (by simp)]

/-- An element is marked with the leader that absorbs it. -/
lemma lookup_sweep {l : List α} (hkeys : (l.map key).Nodup) {a b : α} (hb : b ∈ l) :
    (sweep similar key l []).lookup (key b) = some a ↔ (b, a) ∈ absorbed similar l := by
  have hnodup : ((sweep similar key l []).map Prod.fst).Nodup := by
    rw [sweep_eq hkeys, List.map_map]
    have hfst : (absorbed similar l).map (Prod.fst ∘ fun p => (key p.1, p.2)) =
        ((absorbed similar l).map Prod.fst).map key := by
      rw [List.map_map]
      rfl
    obtain ⟨part, hperm, hsub⟩ := @subperm_absorbed _ similar l
    rw [hfst, ← (hperm.map key).nodup_iff]
    exact hkeys.sublist (hsub.map key)
  rw [lookup_eq_some_iff_mem hnodup, sweep_eq hkeys, List.mem_map]
  constructor
  · rintro ⟨⟨c, d⟩, hmem, heq⟩
    obtain ⟨hkey, rfl⟩ := Prod.mk.inj heq
    obtain rfl := List.inj_on_of_nodup_map hkeys (mem_of_mem_absorbed hmem).2 hb hkey
    exact hmem
  · exact fun hmem => ⟨(b, a), hmem, rfl⟩

/-- Only elements of the list are marked. -/
lemma mem_of_lookup_sweep {l : List α} (hkeys : (l.map key).Nodup) {k : κ} {a : α}
    (h : (sweep similar key l []).lookup k = some a) : ∃ b ∈ l, key b = k := by
  have hmem := mem_of_lookup_eq_some h
  rw [sweep_eq hkeys] at hmem
  obtain ⟨⟨b, c⟩, hbc, heq⟩ := List.mem_map.mp hmem
  exact ⟨b, (mem_of_mem_absorbed hbc).2, (Prod.mk.inj heq).1⟩

end Sweep

end Leaders
